import MevRelay.Concurrent.Matching
import MevRelay.Concurrent.Purging
import MevRelay.Grpc.Wire
import MevRelay.Relay.Admission
import MevRelay.Relay.Rejections

/-!
# Requests that can be exchanged or left out

A submission may come by either path in any interleaving: the other requests,
the storage and the beacon node see the same.  Requests that only read, or are
rejected, are not seen at all.
-/

namespace MevRelay

open Concurrent

section Programs

variable {Result Other : Type} {agrees : Result → Other → Prop}
  {invariant : InMemoryStorage → Prop} {visible : Record Calls → Bool}

/-- The checks followed by more, where a rejection ends what follows too. -/
theorem validating_bind {reject : Rejection → Result} {bid : BidTrace}
    {executionPayload : ExecutionPayload} {accept : Validator → Program Calls Result}
    {rest : Result → Program Calls Other} {rejected : Rejection → Other}
    (ends : ∀ reason, rest (reject reason) = .done (rejected reason)) :
    validating reject bid executionPayload accept >>= rest =
      validating rejected bid executionPayload fun duty => accept duty >>= rest := by
  simp only [validating, Program.call_bind, Program.done_bind, Program.pure_eq_done]
  by_cases zero : bid.value = 0
  · rw [if_pos zero, if_pos zero]
    exact ends _
  rw [if_neg zero, if_neg zero, Program.call_bind]
  refine congrArg (Program.call _) (funext fun whitelisted => ?_)
  cases whitelisted with
  | false => exact ends _
  | true =>
  refine congrArg (Program.call _) (funext fun head => ?_)
  beta_reduce
  cases next : HeadSlot.isNextSlot head bid.slot with
  | false => exact ends _
  | true =>
  refine congrArg (Program.call _) (funext fun attrs => ?_)
  beta_reduce
  cases validated : PayloadAttributes.validateBid attrs bid.slot executionPayload.prevRandao with
  | error error => exact ends _
  | ok _ =>
  refine congrArg (Program.call _) (funext fun duty => ?_)
  cases duty with
  | none => exact ends _
  | some duty => rfl

/-- Two paths that make the shared checks match if they do after them. -/
theorem matches_validating {reject : Rejection → Result} {otherReject : Rejection → Other}
    {bid : BidTrace} {executionPayload : ExecutionPayload}
    {accept : Validator → Program Calls Result} {otherAccept : Validator → Program Calls Other}
    (rejected : ∀ reason, agrees (reject reason) (otherReject reason))
    (accepted : ∀ duty, Matches exec invariant visible agrees (accept duty) (otherAccept duty)) :
    Matches exec invariant visible agrees (validating reject bid executionPayload accept)
      (validating otherReject bid executionPayload otherAccept) := by
  simp only [validating, Program.call_bind, Program.done_bind, Program.pure_eq_done]
  by_cases zero : bid.value = 0
  · rw [if_pos zero, if_pos zero]
    exact .done (rejected _)
  rw [if_neg zero, if_neg zero]
  apply Matches.call
  intro whitelisted
  cases whitelisted with
  | false => exact .done (rejected _)
  | true =>
  apply Matches.call
  intro head
  cases next : HeadSlot.isNextSlot head bid.slot with
  | false => exact .done (rejected _)
  | true =>
  apply Matches.call
  intro attrs
  cases validated : PayloadAttributes.validateBid attrs bid.slot executionPayload.prevRandao with
  | error error => exact .done (rejected _)
  | ok _ =>
  apply Matches.call
  intro duty
  cases duty with
  | none => exact .done (rejected _)
  | some duty => exact accepted duty

end Programs

/-- What the gRPC path answers where the HTTP path ends with a result. -/
def Grpc.answer : Except PostBidsError Unit → Outcome Status Gen.SubmitBlockResponse
  | .ok () => .ok { code := 200, message := "Success" }
  | .error .belowFloor => .ok { code := 400, message := "Bid below best." }
  | .error .zeroBid => .err (.invalidArgument "Block value 0.")
  | .error .unauthorizedBuilder => .err (.invalidArgument "Invalid builder address.")
  | .error .pastSlotSubmission => .err (.invalidArgument "Submission for past slot.")
  | .error (.invalidPayloadAttrs message) => .err (.invalidArgument message)
  | .error .dutyNotFound => .err (.invalidArgument "No duty found.")
  | .error .invalidSignature => .err (.invalidArgument "Invalid signature")

theorem Grpc.answer_rejected (reason : Rejection) :
    answer (.error (Http.rejected reason)) = .err (Grpc.rejected reason) := by
  cases reason <;> rfl

/-- Replies that say the same, each along its path. -/
inductive Reply.Corresponds : Reply → Reply → Prop where
  | same (reply) : Corresponds reply reply
  | grpc (result) : Corresponds (.postBids result) (.submitBlock (Grpc.answer result))
  | http (result) : Corresponds (.submitBlock (Grpc.answer result)) (.postBids result)

theorem Reply.Corresponds.isAccepted {reply other : Reply} (corresponds : Corresponds reply other) :
    other.isAccepted = reply.isAccepted := by
  have paths : ∀ result, (Reply.submitBlock (Grpc.answer result)).isAccepted =
      (Reply.postBids result).isAccepted := by
    rintro (error | _)
    · cases error <;> rfl
    · rfl
  cases corresponds with
  | same => rfl
  | grpc result => exact paths result
  | http result => exact (paths result).symm

section Handlers

variable [Crates]

/-- The requests are the same, or carry the same submission. -/
def Request.Exchangeable (request other : Request) : Prop :=
  other = request ∨ ∃ submission, request.submission? = some submission ∧
    other.submission? = some submission

/-- The gRPC path after the shared checks. -/
def Grpc.accept (service : RelayService) (submission : BidSubmission) (duty : Validator) :
    Program Calls (Outcome Status Gen.SubmitBlockResponse) :=
  match verifySignature service submission.message submission.signature with
  | .error status => return .err status
  | .ok () => do
      storage (.setBestBid submission.message.slot submission)
      storage (.setBlindedBlockResponse duty.pubkey submission.toBlindedBlockResponse)
      return .ok { code := 200, message := "Success" }

theorem Grpc.submitDecoded_eq (service : RelayService) (submission : BidSubmission) :
    submitDecoded service submission = isBidHigher submission.message >>= fun higher =>
      if !higher then .done (answer (.error .belowFloor))
      else validating (fun reason => answer (.error (Http.rejected reason))) submission.message
        submission.executionPayload (accept service submission) := by
  simp only [submitDecoded]
  congr 1
  funext higher
  cases higher with
  | false => rfl
  | true =>
      simp only [Bool.not_true, Bool.false_eq_true, if_false]
      rw [validateBidAndPayload_eq]
      apply validating_bind
      intro reason
      exact congrArg Program.done (answer_rejected reason).symm

/-- The HTTP path after the shared checks, once it has read the fork data. -/
def Http.accept (submission : BidSubmission) (duty : Validator) (forkData : ForkDatas) :
    Program Calls (Except PostBidsError Unit) := do
  if !submission.message.verifySignature submission.signature forkData.computeBuilderDomain then
    return .error .invalidSignature
  storage (.setBestBid submission.message.slot submission)
  storage (.setBlindedBlockResponse duty.pubkey submission.toBlindedBlockResponse)
  return .ok ()

theorem Http.postBids_accept (submission : BidSubmission) :
    postBids submission = isBidHigher submission.message >>= fun higher =>
      if !higher then .done (.error .belowFloor)
      else validating (fun reason => .error (rejected reason)) submission.message
        submission.executionPayload fun duty =>
          .call (.storage .forkData) (accept submission duty) :=
  postBids_eq submission

/-- Under the fork data of the service both paths do the same after the checks. -/
theorem Grpc.accept_eq (service : RelayService) (submission : BidSubmission) (duty : Validator) :
    accept service submission duty =
      answer <$> Http.accept submission duty service.forkData := by
  unfold accept Http.accept verifySignature
  cases submission.message.verifySignature submission.signature
    service.forkData.computeBuilderDomain <;> rfl

variable {Result Other : Type} {agrees : Result → Other → Prop}
  {invariant : InMemoryStorage → Prop} {visible : Record Calls → Bool}

omit [Crates] in
/-- Two paths with the shared checks match if they answer a bid that is too low
or rejected alike, and match after the checks. -/
theorem matches_submission {bid : BidTrace} {executionPayload : ExecutionPayload}
    {lower : Result} {otherLower : Other} {reject : Rejection → Result}
    {otherReject : Rejection → Other} {accept : Validator → Program Calls Result}
    {otherAccept : Validator → Program Calls Other} (low : agrees lower otherLower)
    (rejected : ∀ reason, agrees (reject reason) (otherReject reason))
    (accepted : ∀ duty, Matches exec invariant visible agrees (accept duty) (otherAccept duty)) :
    Matches exec invariant visible agrees
      (isBidHigher bid >>= fun higher =>
        if !higher then .done lower else validating reject bid executionPayload accept)
      (isBidHigher bid >>= fun higher =>
        if !higher then .done otherLower
        else validating otherReject bid executionPayload otherAccept) := by
  rw [isBidHigher_bind, isBidHigher_bind]
  apply Matches.call
  intro best
  cases Option.all (fun held : BidSubmission => held.message.value < bid.value) best with
  | false => exact .done low
  | true => exact matches_validating rejected accepted

/-- The calls that are not reads of the storage. -/
def visibleCall (record : Record Calls) : Bool := !record.1.isRead

variable {config : Config} {submission : BidSubmission}

/-- The fork data in the storage are those of the service. -/
abbrev ForksOf (config : Config) (store : InMemoryStorage) : Prop :=
  store.forkData = config.forkData

/-- What the gRPC path does, the HTTP path does too, which reads the fork data in between. -/
theorem grpc_matches_http : Matches exec (ForksOf config) visibleCall
    (fun outcome result => outcome = Grpc.answer result)
    (Grpc.submitDecoded config.service submission) (Http.postBids submission) := by
  rw [Grpc.submitDecoded_eq, Http.postBids_accept]
  refine matches_submission (by rfl) (fun reason => by rfl) fun duty => ?_
  apply Matches.absorb
  intro store forks
  have read : exec (.storage .forkData) store config.forkData store :=
    exec_storage.mpr ⟨forks.symm, rfl⟩
  refine ⟨[answered .forkData config.forkData], Http.accept submission duty config.forkData,
    .single read, by rfl, ?_⟩
  rw [Grpc.accept_eq]
  exact .renamed (fun result => by rfl) _

/-- What the HTTP path does, the gRPC path does too, which does not read the fork data. -/
theorem http_matches_grpc : Matches exec (ForksOf config) visibleCall
    (fun result outcome => outcome = Grpc.answer result)
    (Http.postBids submission) (Grpc.submitDecoded config.service submission) := by
  rw [Grpc.submitDecoded_eq, Http.postBids_accept]
  refine matches_submission (by rfl) (fun reason => by rfl) fun duty => ?_
  apply Matches.skip
  intro store forkData after forks executed
  obtain ⟨answer, unchanged⟩ := exec_storage.mp executed
  have same : forkData = config.forkData := answer.trans forks
  refine ⟨unchanged, by rfl, ?_⟩
  rw [same, Grpc.accept_eq]
  exact .renames (fun result => by rfl) _

/-- The replies to exchanged requests: they say the same, and are the same if the requests are. -/
structure Reply.AgreesFor (request other : Request) (reply otherReply : Reply) : Prop where
  corresponds : reply.Corresponds otherReply
  same : other = request → otherReply = reply

theorem handler_of_submission {request : Request}
    (carried : request.submission? = some submission) :
    (handler config request = Reply.submitBlock <$> Grpc.submitDecoded config.service submission ∧
      ∃ message, request = .submitBlock message) ∨
    (handler config request = Reply.postBids <$> Http.postBids submission ∧
      request = .postBids submission) := by
  cases request with
  | submitBlock message =>
      exact .inl ⟨congrArg (Reply.submitBlock <$> ·) (Grpc.submitBlock_eq_submitDecoded carried),
        message, rfl⟩
  | postBids other =>
      cases carried
      exact .inr ⟨rfl, rfl⟩
  | _ => cases carried

/-- Exchangeable requests are handled by programs that match. -/
theorem handler_matches {request other : Request} (exchangeable : request.Exchangeable other) :
    Matches exec (ForksOf config) visibleCall (Reply.AgreesFor request other)
      (handler config request) (handler config other) := by
  rcases exchangeable with rfl | ⟨submission, carried, otherCarried⟩
  · exact .self (fun reply => ⟨.same reply, fun _ => rfl⟩) _
  rcases handler_of_submission carried with ⟨program, message, rfl⟩ | ⟨program, rfl⟩ <;>
    rcases handler_of_submission otherCarried with ⟨otherProgram, other, rfl⟩ | ⟨otherProgram, rfl⟩
  · rw [program, otherProgram]
    exact .self (fun reply => ⟨.same reply, fun _ => rfl⟩) _
  · rw [program, otherProgram]
    apply grpc_matches_http.map
    rintro outcome result rfl
    exact ⟨.http result, fun same => by cases same⟩
  · rw [program, otherProgram]
    apply http_matches_grpc.map
    rintro result outcome rfl
    exact ⟨.grpc result, fun same => by cases same⟩
  · exact .self (fun reply => ⟨.same reply, fun _ => rfl⟩) _

end Handlers

section Runs

variable [Crates] {config : Config} {init : InMemoryStorage} {trace : List RelayEvent}
  {world : RelayWorld}

/-- Submissions may come by either path, whatever races with them: some run in
which any of them take the other path makes the same calls but for reads of the
storage, leaves the same storage and gives corresponding replies. -/
theorem paths_interchangeable (run : RunFrom config config.init trace world)
    (reroute : Nat → Request → Request)
    (exchangeable : ∀ task request, Request.Exchangeable request (reroute task request)) :
    ∃ otherTrace other, RunFrom config config.init otherTrace other ∧
      other.store = world.store ∧ shown visibleCall otherTrace = shown visibleCall trace ∧
      other.tasks.length = world.tasks.length ∧
      ∀ (task : Nat) request program, world.tasks[task]? = some ⟨request, program⟩ →
        ∃ otherProgram, other.tasks[task]? = some ⟨reroute task request, otherProgram⟩ ∧
          ∀ reply, program = .done reply → ∃ otherReply, otherProgram = .done otherReply ∧
            reply.Corresponds otherReply ∧
              (reroute task request = request → otherReply = reply) := by
  have kept : ∀ c store answer after, exec c store answer after → ForksOf config store →
      ForksOf config after :=
    fun _ _ _ _ executed forks => (exec_frame executed).2.1.trans forks
  obtain ⟨otherTrace, other, otherRun, exchanged, same⟩ :=
    run.exchange (fun task request => handler_matches (exchangeable task request)) rfl kept
  refine ⟨otherTrace, other, otherRun, exchanged.store, same, exchanged.length, ?_⟩
  intro task request program found
  obtain ⟨otherProgram, present, settled⟩ := exchanged.tasks task request program found
  refine ⟨otherProgram, present, fun reply returned => ?_⟩
  obtain ⟨otherReply, ended, agrees⟩ := settled.ended reply returned
  exact ⟨otherReply, ended, agrees.corresponds, agrees.same⟩

omit [Crates] in
theorem Call.isRead_of_kind {c : Call} (read : c.kind = .read) : c.isRead = true := by
  rcases c with c | _ | _ | _ | _ | _
  case storage => cases c <;> first | rfl | cases read
  all_goals cases read

/-- Requests that only read, and requests that were rejected, are seen by
nobody: without their calls there is a run with the same calls of everybody
else, in the same storage and with the same answers. -/
theorem unseen_requests (run : RunFrom config init trace world) (hidden : Nat → Prop)
    [DecidablePred hidden]
    (quiet : ∀ (task : Nat) request program, hidden task →
      world.tasks[task]? = some ⟨request, program⟩ → request.kind = .read ∨
        ∃ reply, program = .done reply ∧ reply.isRejection = true) :
    ∃ others : RelayWorld,
      RunFrom config init (trace.filter fun event => ¬ hidden event.task) others ∧
      others.store = world.store ∧
      ∀ (task : Nat) request program, world.tasks[task]? = some ⟨request, program⟩ →
        others.tasks[task]? =
          some ⟨request, if hidden task then handler config request else program⟩ := by
  apply run.without hidden
  intro event membership held
  obtain ⟨program, found⟩ := run.event_task membership
  have read : event.call.isRead = true := by
    rcases quiet event.task event.request program held found with reads | ⟨reply, rfl, rejected⟩
    · obtain ⟨front, later, split⟩ := List.append_of_mem membership
      have kinds := run.outline_atCall (holds_kinds config) split
      exact Call.isRead_of_kind (kinds.elim id fun own => own.trans reads)
    · have reads := outline_rejection (run.outline_atResult (holds_handler config) found) rejected
      exact reads event.record (mem_past.mpr ⟨event, membership, rfl, rfl⟩)
  intro store answer after executed
  exact exec_of_isRead read executed

end Runs

section Demo

open Demo

attribute [local instance] standIn

/-- Every submission over gRPC comes over HTTP instead. -/
def throughHttp (request : Request) : Request :=
  match request.submission? with
  | some submission => .postBids submission
  | none => request

theorem exchangeable_throughHttp (request : Request) :
    request.Exchangeable (throughHttp request) := by
  unfold throughHttp
  cases carried : request.submission? with
  | none => exact .inl rfl
  | some submission => exact .inr ⟨submission, carried, rfl⟩

/-- The higher bid as a gRPC message. -/
def higherBid : Gen.SubmitBlockRequest := wireBid (bid 2 6) "2" ⟨[], [], []⟩

/-- The higher bid comes over gRPC and overtakes one over HTTP. -/
@[irreducible]
def mixed : Played Calls Request Reply InMemoryStorage :=
  play [.postBids (bid 1 5), .submitBlock higherBid]
    (2 :: List.replicate 7 3 ++ List.replicate 7 2)

theorem mixed_run : RunFrom config config.init mixed.trace mixed.world := by
  unfold mixed
  exact playFrom_run _ _ _

theorem mixed_interchangeable :
    ∃ otherTrace other, RunFrom config config.init otherTrace other ∧
      other.store = mixed.world.store ∧
      ∃ reply, other.tasks[3]? = some ⟨.postBids (bid 2 6), .done reply⟩ ∧
        reply.isAccepted = true := by
  obtain ⟨otherTrace, other, run, store, _, _, tasks⟩ :=
    paths_interchangeable mixed_run (fun _ => throughHttp) fun _ => exchangeable_throughHttp
  refine ⟨otherTrace, other, run, store, ?_⟩
  have accepted := World.returned?_eq_some.mp
    (show mixed.world.returned? 3 = some (.submitBlock higherBid,
      .submitBlock (.ok { code := 200, message := "Success" })) by decide +kernel)
  obtain ⟨program, found, ended⟩ := tasks 3 _ _ accepted
  obtain ⟨reply, rfl, corresponds, _⟩ := ended _ rfl
  have rerouted : throughHttp (.submitBlock higherBid) = .postBids (bid 2 6) := by
    have carried : Request.submission? (.submitBlock higherBid) = some (bid 2 6) := by
      decide +kernel
    unfold throughHttp
    rw [carried]
  rw [rerouted] at found
  exact ⟨reply, found, corresponds.isAccepted⟩

/-- A worthless bid arrives between the calls of a good one. -/
@[irreducible]
def worthless : Played Calls Request Reply InMemoryStorage :=
  play [.postBids (bid 0 5), .postBids (bid 5 6)] [3, 3, 2, 3, 3, 3, 3, 3, 3]

theorem worthless_run : RunFrom config config.init worthless.trace worthless.world := by
  unfold worthless
  exact playFrom_run _ _ _

/-- Without the calls of the worthless bid the good one is filed all the same. -/
theorem worthless_unseen :
    ∃ others : RelayWorld, RunFrom config config.init
        (worthless.trace.filter fun event => ¬ event.task = 2) others ∧
      others.store = worthless.world.store ∧
      others.tasks[3]? = some ⟨.postBids (bid 5 6), .done (.postBids (.ok ()))⟩ := by
  have rejected := World.returned?_eq_some.mp
    (show worthless.world.returned? 2 = some (.postBids (bid 0 5), .postBids (.error .zeroBid)) by
      decide +kernel)
  have accepted := World.returned?_eq_some.mp
    (show worthless.world.returned? 3 = some (.postBids (bid 5 6), .postBids (.ok ())) by
      decide +kernel)
  obtain ⟨others, run, store, tasks⟩ := unseen_requests worthless_run (· = 2) (by
    rintro task request program rfl found
    cases rejected.symm.trans found
    exact .inr ⟨_, rfl, rfl⟩)
  exact ⟨others, run, store, tasks 3 _ _ accepted⟩

end Demo

end MevRelay
