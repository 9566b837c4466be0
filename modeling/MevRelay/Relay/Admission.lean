import MevRelay.Relay.Auction

/-!
# Admission of bids

Both submission paths admit the same bids to the same stores.  What becomes of
a submission is stated once, without a program, and each path is shown to do
just that.
-/

namespace MevRelay

open Concurrent

/-- File an admitted bid: as the best one of its key, and its payload under the
proposer on duty. -/
def InMemoryStorage.file (store : InMemoryStorage) (bid : BidSubmission) (duty : Validator) :
    InMemoryStorage :=
  (store.setBestBid bid.message.slot bid).setBlindedBlockResponse duty.pubkey
    bid.toBlindedBlockResponse

theorem InMemoryStorage.lookup_file (store : InMemoryStorage) (bid : BidSubmission)
    (duty : Validator) : (store.file bid duty).bestBidPerSlot.lookup bid.key = some bid :=
  Finmap.lookup_insert _

/-- The checks that both paths make in the same order, from the value of the bid
to the duty for its slot. -/
structure Valid (store : InMemoryStorage) (bid : BidSubmission) (duty : Validator) : Prop where
  nonzero : bid.message.value ≠ 0
  whitelisted : bid.message.builderPubkey ∈ store.wlistBuilders
  nextSlot : store.slot.isNextSlot bid.message.slot = true
  attributes : store.payloadAttributes.validateBid bid.message.slot
    bid.executionPayload.prevRandao = .ok ()
  onDuty : store.findDutyBySlot bid.message.slot = some duty

section Crates

variable [Crates]

/-- A bid that passes every check against a store, with the duty found for its slot. -/
structure Admitted (forks : ForkDatas) (store : InMemoryStorage) (bid : BidSubmission)
    (duty : Validator) : Prop where
  higher : ∀ held, store.bestBidPerSlot.lookup bid.key = some held →
    held.message.value < bid.message.value
  valid : Valid store bid duty
  signed : bid.message.verifySignature bid.signature forks.computeBuilderDomain = true

/-- What becomes of a submission: an admitted bid is filed, and any other one
changes nothing. -/
inductive Processed (forks : ForkDatas) (store : InMemoryStorage) (bid : BidSubmission) :
    Bool → InMemoryStorage → Prop where
  | filed {duty} : Admitted forks store bid duty → Processed forks store bid true (store.file bid duty)
  | refused : (∀ duty, ¬ Admitted forks store bid duty) → Processed forks store bid false store

namespace Grpc

/-- What `submitBlock` does with a message once it is decoded. -/
def submitDecoded (service : RelayService) (submission : BidSubmission) :
    Program Calls (Outcome Status Gen.SubmitBlockResponse) := do
  let bid := submission.message
  if !(← isBidHigher bid) then
    return .ok { code := 400, message := "Bid below best." }
  match ← validateBidAndPayload bid submission.executionPayload with
  | .error status => return .err status
  | .ok duty =>
  match verifySignature service bid submission.signature with
  | .error status => return .err status
  | .ok () =>
  updateBest bid submission.executionPayload submission.blobsBundle submission.signature
    duty.entry.message.pubkey
  return .ok { code := 200, message := "Success" }

theorem of_submission? {request : Gen.SubmitBlockRequest} {submission : BidSubmission}
    (decoded : request.submission? = some submission) :
    ∃ trace payload bundle bid executionPayload signature blobsBundle,
      request.bidTrace = some trace ∧ request.executionPayload = some payload ∧
      request.blobsBundle = some bundle ∧ BidTrace.tryFrom trace = .ok bid ∧
      ExecutionPayload.tryFrom payload = .ok executionPayload ∧
      (BlsSignature.ofBytes request.signature : Outcome Status BlsSignature) = .ok signature ∧
      BlobsBundle.tryFrom bundle = .ok blobsBundle ∧
      submission = .new bid executionPayload blobsBundle signature := by
  simp only [Gen.SubmitBlockRequest.submission?, Option.bind_eq_bind, Option.bind_eq_some_iff]
    at decoded
  obtain ⟨trace, traceGiven, decoded⟩ := decoded
  cases traceRead : BidTrace.tryFrom trace with
  | err | panicked => simp [traceRead] at decoded
  | ok bid =>
  simp only [traceRead, Option.bind_eq_some_iff] at decoded
  obtain ⟨payload, payloadGiven, decoded⟩ := decoded
  cases payloadRead : ExecutionPayload.tryFrom payload with
  | error => simp [payloadRead] at decoded
  | ok executionPayload =>
  cases signatureRead : (BlsSignature.ofBytes request.signature : Outcome Status _) with
  | err | panicked => simp [payloadRead, signatureRead] at decoded
  | ok signature =>
  simp only [payloadRead, signatureRead, Option.bind_eq_some_iff] at decoded
  obtain ⟨bundle, blobsGiven, decoded⟩ := decoded
  cases blobsRead : BlobsBundle.tryFrom bundle with
  | error => simp [blobsRead] at decoded
  | ok blobsBundle =>
  simp only [blobsRead, Option.pure_def, Option.some.injEq] at decoded
  exact ⟨trace, payload, bundle, bid, executionPayload, signature, blobsBundle, traceGiven,
    payloadGiven, blobsGiven, traceRead, payloadRead, rfl, blobsRead, decoded.symm⟩

theorem submitBlock_eq_submitDecoded {service : RelayService} {request : Gen.SubmitBlockRequest}
    {submission : BidSubmission} (decoded : request.submission? = some submission) :
    submitBlock service request = submitDecoded service submission := by
  obtain ⟨trace, payload, bundle, bid, executionPayload, signature, blobsBundle, traceGiven,
    payloadGiven, blobsGiven, traceRead, payloadRead, signatureRead, blobsRead, rfl⟩ :=
    of_submission? decoded
  unfold submitBlock
  simp only [traceGiven, payloadGiven, blobsGiven, traceRead, payloadRead, signatureRead, blobsRead]
  rfl

end Grpc

section Specification

variable {forks : ForkDatas} {store after : InMemoryStorage} {bid : BidSubmission}
  {accepted : Bool}

theorem Admitted.duty_unique {first second : Validator} (one : Admitted forks store bid first)
    (other : Admitted forks store bid second) : first = second :=
  Option.some.inj (one.valid.onDuty.symm.trans other.valid.onDuty)

theorem Processed.unique {other : Bool} {left : InMemoryStorage}
    (one : Processed forks store bid accepted after) (two : Processed forks store bid other left) :
    other = accepted ∧ left = after := by
  cases one with
  | filed admitted =>
      cases two with
      | filed again =>
          rw [again.duty_unique admitted]
          exact ⟨rfl, rfl⟩
      | refused refused => exact absurd admitted (refused _)
  | refused refused =>
      cases two with
      | filed again => exact absurd again (refused _)
      | refused _ => exact ⟨rfl, rfl⟩

/-- Filing leaves everything alone but the bids and the responses. -/
theorem Processed.frame (processed : Processed forks store bid accepted after) :
    after.forkData = store.forkData ∧ after.proposerDuties = store.proposerDuties := by
  cases processed <;> exact ⟨rfl, rfl⟩

/-- A program that ends as the specification says whenever it ends. -/
theorem yields_iff_processed {Result : Type} {program : Program Calls Result}
    {isAccepted : Result → Bool}
    (sound : ∀ result after, Yields exec program store result after →
      Processed forks store bid (isAccepted result) after) :
    Yields exec (isAccepted <$> program) store accepted after ↔
      Processed forks store bid accepted after := by
  rw [yields_map_iff]
  constructor
  · rintro ⟨result, yields, rfl⟩
    exact sound result after yields
  · intro processed
    obtain ⟨result, left, yields⟩ := yields_total exec_total program store
    obtain ⟨same, rfl⟩ := processed.unique (sound result left yields)
    exact ⟨result, yields, same.symm⟩

end Specification

section Paths

variable {store after : InMemoryStorage} {bid : BidSubmission}

/-- Whether a bid is worth more than the best one of its key. -/
def outbids (store : InMemoryStorage) (bid : BidSubmission) : Bool :=
  (store.bestBidPerSlot.lookup bid.key).all fun held => held.message.value < bid.message.value

omit [Crates] in
theorem outbids_iff : outbids store bid = true ↔
    ∀ held, store.bestBidPerSlot.lookup bid.key = some held →
      held.message.value < bid.message.value := by
  simp [outbids, Option.all_eq_true]

omit [Crates] in
theorem yields_isBidHigher_iff {Result : Type} {rest : Bool → Program Calls Result}
    {result : Result} :
    Yields exec (isBidHigher bid.message >>= rest) store result after ↔
      Yields exec (rest (outbids store bid)) store result after := by
  rw [isBidHigher_bind, yields_storage]
  rfl

theorem not_admitted_of_lower {forks : ForkDatas} (lower : outbids store bid = false)
    (duty : Validator) : ¬ Admitted forks store bid duty := by
  intro admitted
  rw [outbids_iff.mpr admitted.higher] at lower
  cases lower

omit [Crates] in
theorem validation_eq_ok_iff {duty : Validator} :
    validation store bid.message bid.executionPayload = .ok duty ↔ Valid store bid duty := by
  rw [validation_eq_ok]
  constructor
  · rintro ⟨nonzero, whitelisted, nextSlot, attributes, onDuty⟩
    exact ⟨nonzero, whitelisted, nextSlot, attributes, onDuty⟩
  · intro valid
    exact ⟨valid.nonzero, valid.whitelisted, valid.nextSlot, valid.attributes, valid.onDuty⟩

theorem not_admitted_of_refused {forks : ForkDatas} {reason : Rejection}
    (refused : validation store bid.message bid.executionPayload = .error reason)
    (duty : Validator) : ¬ Admitted forks store bid duty := by
  intro admitted
  rw [validation_eq_ok_iff.mpr admitted.valid] at refused
  cases refused

theorem not_admitted_of_unsigned {forks : ForkDatas}
    (unsigned : bid.message.verifySignature bid.signature forks.computeBuilderDomain = false)
    (duty : Validator) : ¬ Admitted forks store bid duty := by
  intro admitted
  rw [admitted.signed] at unsigned
  cases unsigned

/-- The gRPC path does what the specification says with the fork data of the service. -/
theorem submitDecoded_processed {service : Grpc.RelayService}
    {outcome : Outcome Status Gen.SubmitBlockResponse}
    (yields : Yields exec (Grpc.submitDecoded service bid) store outcome after) :
    Processed service.forkData store bid (Reply.submitBlock outcome).isAccepted after := by
  simp only [Grpc.submitDecoded, yields_isBidHigher_iff] at yields
  cases above : outbids store bid with
  | false =>
      obtain ⟨rfl, rfl⟩ := by simpa [above] using yields
      exact .refused (not_admitted_of_lower above)
  | true =>
  simp only [above, Bool.not_true, Bool.false_eq_true, if_false, yields_bind_iff,
    yields_validateBidAndPayload_iff] at yields
  obtain ⟨verdict, middle, ⟨rfl, rfl⟩, rest⟩ := yields
  cases checks : validation middle bid.message bid.executionPayload with
  | error reason =>
      obtain ⟨rfl, rfl⟩ := by simpa [checks, Except.mapError] using rest
      exact .refused (not_admitted_of_refused checks)
  | ok duty =>
  cases verified : bid.message.verifySignature bid.signature service.forkData.computeBuilderDomain with
  | false =>
      obtain ⟨rfl, rfl⟩ := by simpa [checks, Except.mapError, Grpc.verifySignature, verified] using rest
      exact .refused (not_admitted_of_unsigned verified)
  | true =>
      obtain ⟨rfl, rfl⟩ := by
        simpa [checks, Except.mapError, Grpc.verifySignature, Grpc.updateBest, verified] using rest
      exact .filed ⟨outbids_iff.mp above, validation_eq_ok_iff.mp checks, verified⟩

/-- The HTTP path does what the specification says with the fork data of the store. -/
theorem postBids_processed {result : Except PostBidsError Unit}
    (yields : Yields exec (Http.postBids bid) store result after) :
    Processed store.forkData store bid (Reply.postBids result).isAccepted after := by
  rw [Http.postBids_eq, yields_isBidHigher_iff] at yields
  cases above : outbids store bid with
  | false =>
      obtain ⟨rfl, rfl⟩ := by simpa [above] using yields
      exact .refused (not_admitted_of_lower above)
  | true =>
  simp only [above, Bool.not_true, Bool.false_eq_true, if_false, yields_validating_iff] at yields
  rcases yields with ⟨reason, refused, rfl, rfl⟩ | ⟨duty, checks, rest⟩
  · exact .refused (not_admitted_of_refused refused)
  cases verified : bid.message.verifySignature bid.signature store.forkData.computeBuilderDomain with
  | false =>
      obtain ⟨rfl, rfl⟩ := by simpa [StorageCall.apply, verified] using rest
      exact .refused (not_admitted_of_unsigned verified)
  | true =>
      obtain ⟨rfl, rfl⟩ := by simpa [StorageCall.apply, verified] using rest
      exact .filed ⟨outbids_iff.mp above, validation_eq_ok_iff.mp checks, verified⟩

end Paths

section Requests

/-- The fork data a submission path checks signatures with. -/
def forksUsed (config : Config) (store : InMemoryStorage) : Request → ForkDatas
  | .submitBlock _ => config.forkData
  | _ => store.forkData

variable {config : Config} {request : Request} {store after : InMemoryStorage}

/-- A request is accepted exactly when the submission it carries is admitted,
and then its bid is filed. -/
theorem accepted_yields_iff :
    (∃ reply, Yields exec (handler config request) store reply after ∧ reply.isAccepted = true) ↔
      ∃ bid duty, request.submission? = some bid ∧
        Admitted (forksUsed config store request) store bid duty ∧ after = store.file bid duty := by
  have processed : ∀ bid, request.submission? = some bid → ∀ accepted,
      Yields exec (Reply.isAccepted <$> handler config request) store accepted after ↔
        Processed (forksUsed config store request) store bid accepted after := by
    intro bid carried accepted
    apply yields_iff_processed
    intro reply left yields
    cases request with
    | submitBlock message =>
        obtain ⟨outcome, ended, rfl⟩ := yields_map_iff.mp yields
        rw [Grpc.submitBlock_eq_submitDecoded carried] at ended
        exact submitDecoded_processed ended
    | postBids submission =>
        cases carried
        obtain ⟨result, ended, rfl⟩ := yields_map_iff.mp yields
        exact postBids_processed ended
    | _ => cases carried
  constructor
  · rintro ⟨reply, ⟨calls, executed⟩, accepted⟩
    obtain ⟨bid, _, found⟩ := accepted_exec executed accepted
    have yields := yields_map_iff.mpr ⟨reply, ⟨calls, executed⟩, accepted.symm⟩
    cases (processed bid found.carried true).mp yields with
    | filed admitted => exact ⟨bid, _, found.carried, admitted, rfl⟩
  · rintro ⟨bid, duty, carried, admitted, rfl⟩
    obtain ⟨reply, yields, accepted⟩ :=
      yields_map_iff.mp ((processed bid carried true).mpr (.filed admitted))
    exact ⟨reply, yields, accepted.symm⟩

end Requests

section Routes

inductive Route where
  | grpc
  | http
  deriving DecidableEq

/-- Process a decoded submission along its route.  The result is whether it is accepted. -/
def process (service : Grpc.RelayService) : Route × BidSubmission → Program Calls Bool
  | (.grpc, submission) =>
      (fun outcome => (Reply.submitBlock outcome).isAccepted) <$>
        Grpc.submitDecoded service submission
  | (.http, submission) =>
      (fun result => (Reply.postBids result).isAccepted) <$> Http.postBids submission

variable {service : Grpc.RelayService} {init store after : InMemoryStorage} {accepted : Bool}

theorem process_yields_iff (forks : service.forkData = store.forkData) (route : Route)
    (bid : BidSubmission) :
    Yields exec (process service (route, bid)) store accepted after ↔
      Processed service.forkData store bid accepted after := by
  cases route with
  | grpc => exact yields_iff_processed fun _ _ yields => submitDecoded_processed yields
  | http =>
      rw [forks]
      apply yields_iff_processed
      intro _ _ yields
      exact postBids_processed yields

abbrev RoutedHistory := List (Completed Calls (Route × BidSubmission) Bool InMemoryStorage)

/-- The submissions of a history in their order, without their routes. -/
def submissionsOf (history : RoutedHistory) : List BidSubmission :=
  history.map fun entry => entry.request.2

omit [Crates] in
theorem submissionsOf_concat (history : RoutedHistory)
    (entry : Completed Calls (Route × BidSubmission) Bool InMemoryStorage) :
    submissionsOf (history ++ [entry]) = submissionsOf history ++ [entry.request.2] := by
  simp [submissionsOf]

/-- Histories of the same submissions accept the same ones and leave the same
store, whatever the routes. -/
theorem same_of_submissions (forks : service.forkData = init.forkData)
    {first second : RoutedHistory} {firstStore secondStore : InMemoryStorage}
    (one : Serial (process service) exec init first firstStore)
    (other : Serial (process service) exec init second secondStore)
    (same : submissionsOf first = submissionsOf second) :
    first.map Completed.result = second.map Completed.result ∧ firstStore = secondStore ∧
      service.forkData = firstStore.forkData := by
  induction first using List.reverseRecOn generalizing second firstStore secondStore with
  | nil =>
      obtain rfl : second = [] := by simpa [submissionsOf] using same.symm
      rw [one.of_nil, other.of_nil]
      exact ⟨rfl, rfl, forks⟩
  | append_singleton first entry inductionHypothesis =>
      rcases List.eq_nil_or_concat second with rfl | ⟨front, last, rfl⟩
      · simp [submissionsOf] at same
      rw [List.concat_eq_append] at other same ⊢
      rw [submissionsOf_concat, submissionsOf_concat] at same
      obtain ⟨earlier, sameBid⟩ := List.append_inj' same rfl
      have ended := one.executed (List.mem_append_right first (List.mem_singleton_self entry))
      have otherEnded := other.executed (List.mem_append_right front (List.mem_singleton_self last))
      obtain ⟨shorter, rfl⟩ := one.of_concat
      obtain ⟨otherShorter, rfl⟩ := other.of_concat
      obtain ⟨results, stores, kept⟩ := inductionHypothesis shorter otherShorter earlier
      obtain ⟨⟨route, bid⟩, before, calls, accepted, after⟩ := entry
      obtain ⟨⟨otherRoute, otherBid⟩, otherBefore, otherCalls, otherAccepted, otherAfter⟩ := last
      cases sameBid
      dsimp only at stores kept ended otherEnded
      subst stores
      have processed := (process_yields_iff kept route bid).mp ⟨calls, ended⟩
      have again := (process_yields_iff kept otherRoute bid).mp ⟨otherCalls, otherEnded⟩
      obtain ⟨rfl, rfl⟩ := processed.unique again
      exact ⟨by simp [results], rfl, kept.trans processed.frame.1.symm⟩

/-- `submitBlock` behaves on a message as on what it decodes to, and both routes
do the same to every submission and to every sequence of them. -/
theorem routes_agree (forks : service.forkData = init.forkData) :
    (∀ request submission, request.submission? = some submission →
      Grpc.submitBlock service request = Grpc.submitDecoded service submission) ∧
    (∀ submission, ∃ accepted after, ∀ route otherAccepted otherAfter,
      Yields exec (process service (route, submission)) init otherAccepted otherAfter ↔
        otherAccepted = accepted ∧ otherAfter = after) ∧
    ∀ first second firstStore secondStore,
      Serial (process service) exec init first firstStore →
      Serial (process service) exec init second secondStore →
      submissionsOf first = submissionsOf second →
      first.map Completed.result = second.map Completed.result ∧ firstStore = secondStore := by
  refine ⟨fun _ _ decoded => Grpc.submitBlock_eq_submitDecoded decoded, fun submission => ?_, ?_⟩
  · obtain ⟨accepted, after, yields⟩ :=
      yields_total exec_total (process service (.grpc, submission)) init
    have processed := (process_yields_iff forks .grpc submission).mp yields
    refine ⟨accepted, after, fun route otherAccepted otherAfter => ?_⟩
    rw [process_yields_iff forks route submission]
    constructor
    · exact processed.unique
    · rintro ⟨rfl, rfl⟩
      exact processed
  · intro first second firstStore secondStore one other same
    obtain ⟨results, stores, _⟩ := same_of_submissions forks one other same
    exact ⟨results, stores⟩

end Routes

end Crates

section Demo

open Demo

attribute [local instance] standIn

/-- After the setup, two bids for one key take the given routes. -/
def routed (routes : List Route) : RoutedHistory × InMemoryStorage :=
  surroundings.responder.serve (process config.service) (serve []).2
    (routes.zip [bid 5 6, bid 7 8])

theorem routed_serial (routes : List Route) :
    Serial (process config.service) exec (serve []).2 (routed routes).1 (routed routes).2 :=
  surroundings.responder.serve_serial _ _ _

theorem demo_routes_agree :
    (routed [.grpc, .http]).1.map Completed.result = (routed [.http, .grpc]).1.map Completed.result ∧
      (routed [.grpc, .http]).2 = (routed [.http, .grpc]).2 := by
  have forks : config.service.forkData = (serve []).2.forkData := by decide +kernel
  exact (routes_agree forks).2.2 _ _ _ _ (routed_serial [.grpc, .http])
    (routed_serial [.http, .grpc]) rfl

end Demo

end MevRelay
