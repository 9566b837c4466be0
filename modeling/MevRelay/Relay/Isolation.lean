import MevRelay.Concurrent.Purging
import MevRelay.Relay.Interchange

/-!
# Auctions that do not notice each other

A bid competes for its slot, parent and proposer.  What happens in other
auctions, the blinded blocks that are posted and the data queries leave no trace
in what an auction goes by.
-/

namespace MevRelay

open Concurrent

/-- What the auctions of some keys go by. -/
structure AuctionView where
  slot : HeadSlot
  payloadAttributes : PayloadAttributes
  proposerDuties : List Validator
  validatorRegistrations : ValidatorRegistrations
  wlistBuilders : List BlsPublicKey
  forkData : ForkDatas
  bestBid : SlotHashKey → Option BidSubmission

variable (auctions : SlotHashKey → Prop) [DecidablePred auctions]

/-- The part of the storage that the given auctions go by. -/
def auctionView (store : InMemoryStorage) : AuctionView where
  slot := store.slot
  payloadAttributes := store.payloadAttributes
  proposerDuties := store.proposerDuties
  validatorRegistrations := store.validatorRegistrations
  wlistBuilders := store.wlistBuilders
  forkData := store.forkData
  bestBid key := if auctions key then store.bestBidPerSlot.lookup key else none

/-- The best bid is read in the given auctions only, and nothing else that
submissions file is read. -/
def Call.Within : Call → Prop
  | .storage (.readBestBid slot parentHash validator) => auctions ⟨slot, parentHash, validator⟩
  | .storage (.readBestBidByBlockNumber _) | .storage (.readBestBidBySlot _)
  | .storage (.readBlindedBlockResponse _) => False
  | _ => True

/-- No bid is filed in the given auctions, and nothing else that they go by is written. -/
def Call.Outside : Call → Prop
  | .storage (.setBestBid slot bid) =>
      ¬ auctions ⟨slot, bid.message.parentHash, bid.message.proposerPubkey⟩
  | .storage (.setHeadSlot _) | .storage (.writePayloadAttributes _)
  | .storage (.setValidatorRegistrations _) | .storage (.setProposerDuties _) => False
  | _ => True

variable {auctions}

/-- Stores that the given auctions cannot tell apart. -/
structure AuctionsAlike (auctions : SlotHashKey → Prop) (store other : InMemoryStorage) : Prop where
  slot : other.slot = store.slot
  payloadAttributes : other.payloadAttributes = store.payloadAttributes
  proposerDuties : other.proposerDuties = store.proposerDuties
  validatorRegistrations : other.validatorRegistrations = store.validatorRegistrations
  wlistBuilders : other.wlistBuilders = store.wlistBuilders
  forkData : other.forkData = store.forkData
  bestBid : ∀ key, auctions key →
    other.bestBidPerSlot.lookup key = store.bestBidPerSlot.lookup key

omit [DecidablePred auctions] in
theorem AuctionsAlike.refl (store : InMemoryStorage) : AuctionsAlike auctions store store :=
  ⟨rfl, rfl, rfl, rfl, rfl, rfl, fun _ _ => rfl⟩

theorem auctionView_eq_iff {store other : InMemoryStorage} :
    auctionView auctions other = auctionView auctions store ↔ AuctionsAlike auctions store other := by
  simp only [auctionView, AuctionView.mk.injEq, funext_iff]
  constructor
  · rintro ⟨slot, attributes, duties, registrations, whitelist, forks, bids⟩
    refine ⟨slot, attributes, duties, registrations, whitelist, forks, fun key inside => ?_⟩
    have same := bids key
    rwa [if_pos inside, if_pos inside] at same
  · rintro ⟨slot, attributes, duties, registrations, whitelist, forks, bids⟩
    refine ⟨slot, attributes, duties, registrations, whitelist, forks, fun key => ?_⟩
    by_cases inside : auctions key
    · rw [if_pos inside, if_pos inside, bids key inside]
    · rw [if_neg inside, if_neg inside]

theorem preserves_of_outside {c : Call} (outside : c.Outside auctions) :
    Preserves exec (auctionView auctions) c := by
  intro store answer after executed
  rw [exec_leaves executed]
  rcases c with c | _ | _ | _ | _ | _
  case storage =>
    cases c with
    | setBestBid slot bid =>
        refine auctionView_eq_iff.mpr ⟨rfl, rfl, rfl, rfl, rfl, rfl, fun key inside => ?_⟩
        apply Finmap.lookup_insert_of_ne
        rintro rfl
        exact outside inside
    | setHeadSlot _ | writePayloadAttributes _ | setValidatorRegistrations _
    | setProposerDuties _ => exact outside.elim
    | _ => rfl
  all_goals rfl

omit [DecidablePred auctions] in
/-- In stores that look alike a call of the auctions answers the same, and
leaves stores that look alike. -/
theorem StorageCall.apply_alike {c : StorageCall}
    (within : Call.Within auctions (.storage c)) {store other : InMemoryStorage}
    (alike : AuctionsAlike auctions store other) :
    (c.apply other).1 = (c.apply store).1 ∧
      AuctionsAlike auctions (c.apply store).2 (c.apply other).2 := by
  cases c with
  | setHeadSlot slot => exact ⟨rfl, { alike with slot := rfl }⟩
  | writePayloadAttributes attrs => exact ⟨rfl, { alike with payloadAttributes := rfl }⟩
  | setValidatorRegistrations registrations =>
      exact ⟨rfl, { alike with validatorRegistrations := rfl }⟩
  | setProposerDuties duties => exact ⟨rfl, { alike with proposerDuties := rfl }⟩
  | setBestBid slot bid =>
      refine ⟨rfl, { alike with bestBid := fun key inside => ?_ }⟩
      by_cases own : key = ⟨slot, bid.message.parentHash, bid.message.proposerPubkey⟩
      · subst own
        calc (other.bestBidPerSlot.insert _ bid).lookup _
            = some bid := Finmap.lookup_insert other.bestBidPerSlot
          _ = (store.bestBidPerSlot.insert _ bid).lookup _ :=
              (Finmap.lookup_insert store.bestBidPerSlot).symm
      · calc (other.bestBidPerSlot.insert _ bid).lookup key
            = other.bestBidPerSlot.lookup key := Finmap.lookup_insert_of_ne _ own
          _ = store.bestBidPerSlot.lookup key := alike.bestBid key inside
          _ = (store.bestBidPerSlot.insert _ bid).lookup key :=
              (Finmap.lookup_insert_of_ne _ own).symm
  | readBestBid slot parentHash validator => exact ⟨alike.bestBid _ within, alike⟩
  | readBestBidByBlockNumber _ | readBestBidBySlot _ | readBlindedBlockResponse _ =>
      exact within.elim
  | readHeadSlot => exact ⟨alike.slot, alike⟩
  | readPayloadAttributes => exact ⟨alike.payloadAttributes, alike⟩
  | forkData => exact ⟨alike.forkData, alike⟩
  | readProposerDuties => exact ⟨alike.proposerDuties, alike⟩
  | findDutyBySlot slot =>
      exact ⟨congrArg (List.find? fun duty : Validator => duty.slot = slot) alike.proposerDuties, alike⟩
  | isWhitelistedBuilder key =>
      exact ⟨congrArg (fun keys => decide (key ∈ keys)) alike.wlistBuilders, alike⟩
  | emptyValidatorRegs =>
      exact ⟨congrArg (fun entries => decide (entries = ∅)) alike.validatorRegistrations, alike⟩
  | readValidatorRegistration key =>
      exact ⟨congrArg (Finmap.lookup key) alike.validatorRegistrations, alike⟩
  | recordRelayedBlock _ | setDeliveredBlocks _ | setBlindedBlockResponse _ _ =>
      exact ⟨rfl, { alike with }⟩

theorem dependsOn_of_within {c : Call} (within : c.Within auctions) :
    DependsOn exec (auctionView auctions) c := by
  intro store answer after other executed same
  rcases c with c | _ | _ | _ | _ | _
  case storage =>
    obtain ⟨rfl, rfl⟩ := exec_storage.mp executed
    obtain ⟨answers, left⟩ := StorageCall.apply_alike within (auctionView_eq_iff.mp same)
    exact ⟨_, exec_storage.mpr ⟨answers.symm, rfl⟩, auctionView_eq_iff.mpr left⟩
  all_goals
    cases executed
    exact ⟨other, rfl, same⟩

/-- Outlines of programs that make only certain calls. -/
def callOutline {Result : Type} (allowed : Call → Prop) : Outline Calls Result where
  atCall _ c := allowed c
  atResult _ _ := True

theorem callOutline_bind {Result Other : Type} {allowed : Call → Prop} {past : List (Record Calls)}
    {program : Program Calls Result} {rest : Result → Program Calls Other}
    (first : (callOutline allowed).Holds past program)
    (further : ∀ past result, (callOutline allowed).Holds past (rest result)) :
    (callOutline allowed).Holds past (program >>= rest) :=
  Outline.Holds.bind (first.mono (fun _ _ own => own) fun past result _ => further past result)

theorem callOutline_of_all {Result : Type} {allowed : Call → Prop} (all : ∀ c, allowed c)
    (past : List (Record Calls)) (program : Program Calls Result) :
    (callOutline allowed).Holds past program := by
  induction program generalizing past with
  | done result => trivial
  | call c next inductionHypothesis => exact ⟨all c, fun answer => inductionHypothesis answer _⟩

section Routes

omit [DecidablePred auctions]

variable {Result : Type} {past : List (Record Calls)}

theorem within_isBidHigher {bid : BidTrace}
    (own : auctions ⟨bid.slot, bid.parentHash, bid.proposerPubkey⟩) :
    (callOutline (Call.Within auctions)).Holds past (isBidHigher bid) := by
  refine ⟨own, fun best => ?_⟩
  cases best <;> trivial

theorem within_validating {reject : Rejection → Result} {bid : BidTrace}
    {executionPayload : ExecutionPayload} {accept : Validator → Program Calls Result}
    (accepted : ∀ past duty, (callOutline (Call.Within auctions)).Holds past (accept duty)) :
    (callOutline (Call.Within auctions)).Holds past
      (validating reject bid executionPayload accept) := by
  simp only [validating, Program.call_bind, Program.done_bind, Program.pure_eq_done]
  by_cases zero : bid.value = 0
  · rw [if_pos zero]
    trivial
  rw [if_neg zero]
  refine ⟨trivial, ?_⟩
  rintro (_ | _)
  · trivial
  refine ⟨trivial, fun head => ?_⟩
  beta_reduce
  cases next : HeadSlot.isNextSlot head bid.slot with
  | false => trivial
  | true =>
  refine ⟨trivial, fun attrs => ?_⟩
  beta_reduce
  cases validated : PayloadAttributes.validateBid attrs bid.slot executionPayload.prevRandao with
  | error error => trivial
  | ok _ =>
  refine ⟨trivial, ?_⟩
  rintro (_ | duty)
  · trivial
  · exact accepted _ duty

theorem within_validateBidAndPayload (bid : BidTrace) (executionPayload : ExecutionPayload) :
    (callOutline (Call.Within auctions)).Holds past
      (Grpc.validateBidAndPayload bid executionPayload) := by
  rw [Grpc.validateBidAndPayload_eq]
  exact within_validating fun _ _ => trivial

theorem within_getValidators :
    (callOutline (Call.Within auctions)).Holds past Http.getValidators :=
  ⟨trivial, fun _ => trivial⟩

theorem within_onHeadEvent (slot : UInt64) :
    (callOutline (Call.Within auctions)).Holds past (onHeadEvent slot) := by
  refine ⟨trivial, fun _ => ?_⟩
  by_cases first : slot % 32 = 0
  · simp only [Program.pure_eq_done, first, if_true]
    exact ⟨trivial, fun _ => trivial⟩
  · simp only [Program.pure_eq_done, first, if_false]
    trivial

theorem within_onPayloadAttributes (attrs : PayloadAttributes) :
    (callOutline (Call.Within auctions)).Holds past (onPayloadAttributes attrs) :=
  ⟨trivial, fun _ => ⟨trivial, fun _ => trivial⟩⟩

variable [Crates]

theorem within_postBids {submission : BidSubmission} (own : auctions submission.key) :
    (callOutline (Call.Within auctions)).Holds past (Http.postBids submission) := by
  rw [Http.postBids_accept]
  apply callOutline_bind (within_isBidHigher own)
  rintro past (_ | _)
  · trivial
  simp only [Bool.not_true, Bool.false_eq_true, if_false]
  apply within_validating
  intro past duty
  refine ⟨trivial, fun forkData => ?_⟩
  unfold Http.accept
  cases submission.message.verifySignature submission.signature
    (ForkDatas.computeBuilderDomain forkData) with
  | false => trivial
  | true => exact ⟨trivial, fun _ => ⟨trivial, fun _ => trivial⟩⟩

theorem within_submitBlock (service : Grpc.RelayService) {request : Gen.SubmitBlockRequest}
    (own : ∀ trace bid, request.bidTrace = some trace → BidTrace.tryFrom trace = .ok bid →
      auctions ⟨bid.slot, bid.parentHash, bid.proposerPubkey⟩) :
    (callOutline (Call.Within auctions)).Holds past (Grpc.submitBlock service request) := by
  unfold Grpc.submitBlock
  cases traceGiven : request.bidTrace with
  | none => trivial
  | some wireTrace =>
  cases payloadGiven : request.executionPayload with
  | none => trivial
  | some wirePayload =>
  cases blobsGiven : request.blobsBundle with
  | none => trivial
  | some wireBlobs =>
  dsimp only
  cases traceRead : BidTrace.tryFrom wireTrace with
  | panicked => trivial
  | err error => trivial
  | ok bid =>
  apply callOutline_bind (within_isBidHigher (own wireTrace bid traceGiven traceRead))
  rintro past (_ | _)
  · trivial
  simp only [Bool.not_true, Bool.false_eq_true, if_false]
  cases payloadRead : ExecutionPayload.tryFrom wirePayload with
  | error error => trivial
  | ok executionPayload =>
  dsimp only
  apply callOutline_bind (within_validateBidAndPayload bid executionPayload)
  rintro past (status | duty)
  · trivial
  dsimp only
  cases signatureRead : (BlsSignature.ofBytes request.signature : Outcome Status BlsSignature) with
  | panicked => trivial
  | err status => trivial
  | ok signature =>
  dsimp only
  cases verified : Grpc.verifySignature service bid signature with
  | error status => trivial
  | ok _ =>
  dsimp only
  cases blobsRead : BlobsBundle.tryFrom wireBlobs with
  | error error => trivial
  | ok blobsBundle => exact ⟨trivial, fun _ => ⟨trivial, fun _ => trivial⟩⟩

theorem within_getHeader (signer : BlsSigner) {slot : UInt64} {parentHash : B256}
    {pubkey : BlsPublicKey} (own : auctions ⟨slot, parentHash, pubkey⟩) :
    (callOutline (Call.Within auctions)).Holds past
      (Http.getHeader signer slot parentHash pubkey) := by
  simp only [Http.getHeader, Program.call_bind, Program.done_bind, Program.pure_eq_done]
  refine ⟨trivial, ?_⟩
  rintro (_ | registration)
  · trivial
  simp only [Option.isNone_some, Bool.false_eq_true, if_false]
  refine ⟨trivial, fun head => ?_⟩
  beta_reduce
  cases next : HeadSlot.isNextSlot head slot with
  | false => trivial
  | true =>
  refine ⟨own, ?_⟩
  rintro (_ | bid)
  · trivial
  dsimp only
  cases SignedHeader.tryFrom bid signer <;> trivial

theorem within_collectRegistrations (domain : Hash256) (registrations : List ValidatorRegistration)
    (toRegister : ValidatorRegistrations) :
    (callOutline (Call.Within auctions)).Holds past
      (Http.collectRegistrations domain registrations toRegister) := by
  induction registrations generalizing past toRegister with
  | nil => trivial
  | cons registration rest inductionHypothesis =>
      rw [Http.collectRegistrations_cons]
      exact ⟨trivial, fun known => inductionHypothesis _⟩

theorem within_postValidators (apiKey : String) (registrations : List ValidatorRegistration) :
    (callOutline (Call.Within auctions)).Holds past
      (Http.postValidators apiKey registrations) := by
  simp only [Http.postValidators, Program.call_bind, Program.done_bind, Program.pure_eq_done]
  refine ⟨trivial, ?_⟩
  rintro (_ | _)
  · trivial
  refine ⟨trivial, fun forks => ?_⟩
  apply callOutline_bind (within_collectRegistrations _ registrations ∅)
  exact fun _ _ => ⟨trivial, fun _ => trivial⟩

theorem within_registeredDuties (duties : List ProposerDutiesData) (validators : List Validator) :
    (callOutline (Call.Within auctions)).Holds past (registeredDuties duties validators) := by
  induction duties generalizing past validators with
  | nil => trivial
  | cons duty rest inductionHypothesis =>
      unfold registeredDuties
      cases (BlsPublicKey.ofBytes duty.pubkey : Outcome Unit BlsPublicKey) with
      | panicked => trivial
      | err error => trivial
      | ok pubkey =>
          refine ⟨trivial, ?_⟩
          rintro (_ | registration) <;> exact inductionHypothesis _

theorem within_intoDuties (duties : List ProposerDutiesData) :
    (callOutline (Call.Within auctions)).Holds past (intoDuties duties) := by
  refine ⟨trivial, ?_⟩
  rintro (_ | _)
  · exact within_registeredDuties duties []
  · trivial

theorem within_refreshDuties (slotsPerEpoch : UInt64) (head : HeadSlot) :
    (callOutline (Call.Within auctions)).Holds past (refreshDuties slotsPerEpoch head) := by
  simp only [refreshDuties, Program.call_bind, Program.done_bind, Program.pure_eq_done]
  cases (head.epoch slotsPerEpoch : Outcome Unit UInt64) with
  | panicked => trivial
  | err error => trivial
  | ok epoch =>
  refine ⟨trivial, fun dutiesEpoch => ⟨trivial, fun dutiesNextEpoch => ?_⟩⟩
  cases dutiesEpoch with
  | none => trivial
  | some current =>
  cases dutiesNextEpoch with
  | none => trivial
  | some next =>
  dsimp only
  apply callOutline_bind (within_intoDuties (current ++ next))
  rintro past (duties | error | _)
  · by_cases empty : duties = []
    · simp only [empty, if_true]
      trivial
    · simp only [empty, if_false]
      exact ⟨trivial, fun _ => trivial⟩
  · trivial
  · trivial

end Routes

section Requests

variable [Crates]

/-- The auction that a request is part of. -/
def Request.auction? : Request → Option SlotHashKey
  | .submitBlock request =>
      match request.bidTrace.map BidTrace.tryFrom with
      | some (.ok bid) => some ⟨bid.slot, bid.parentHash, bid.proposerPubkey⟩
      | _ => none
  | .postBids submission => some submission.key
  | .getHeader slot parentHash pubkey => some ⟨slot, parentHash, pubkey⟩
  | _ => none

/-- The request may read what other auctions have filed. -/
def Request.readsFiled : Request → Bool
  | .postBlindedBlocks _ | .getBids _ => true
  | _ => false

/-- The request has to do with the given auctions, or with none in particular. -/
def Request.Concerns (auctions : SlotHashKey → Prop) (request : Request) : Prop :=
  request.readsFiled = false ∧ ∀ key ∈ request.auction?, auctions key

instance : DecidablePred (Request.Concerns auctions) :=
  fun _ => inferInstanceAs (Decidable (_ ∧ _))

omit [DecidablePred auctions] in
theorem within_handler (config : Config) {request : Request}
    (concerns : request.Concerns auctions) :
    (callOutline (Call.Within auctions)).Holds [] (handler config request) := by
  obtain ⟨unfiled, own⟩ := concerns
  have renamed : ∀ {Result : Type} {program : Program Calls Result} (rename : Result → Reply),
      (callOutline (Call.Within auctions)).Holds [] program →
      (callOutline (Call.Within auctions)).Holds [] (rename <$> program) :=
    fun rename holds => callOutline_bind holds fun _ _ => trivial
  cases request with
  | submitBlock _ =>
      refine renamed _ (within_submitBlock config.service fun trace bid given read => own _ ?_)
      simp only [Request.auction?, given, Option.map_some, read]
      rfl
  | postBids submission => exact renamed _ (within_postBids (own _ rfl))
  | postValidators apiKey registrations => exact renamed _ (within_postValidators apiKey registrations)
  | getHeader slot parentHash pubkey => exact renamed _ (within_getHeader config.signer (own _ rfl))
  | getValidators => exact renamed _ within_getValidators
  | headEvent slot => exact renamed _ (within_onHeadEvent slot)
  | payloadAttributesEvent attrs => exact renamed _ (within_onPayloadAttributes attrs)
  | refreshDuties head => exact renamed _ (within_refreshDuties config.slotsPerEpoch head)
  | postBlindedBlocks _ | getBids _ => cases unfiled

/-- A submission is filed in the auction that its request is part of. -/
theorem auction?_of_submission? {request : Request} {submission : BidSubmission}
    (carried : request.submission? = some submission) : request.auction? = some submission.key := by
  cases request with
  | submitBlock request =>
      obtain ⟨trace, _, _, bid, _, _, _, given, _, _, read, _, _, _, rfl⟩ :=
        Grpc.of_submission? carried
      simp only [Request.auction?, given, Option.map_some, read]
      rfl
  | postBids other =>
      cases carried
      rfl
  | _ => cases carried

omit [DecidablePred auctions] in
/-- The kinds of calls that requests make which do not concern an auction. -/
theorem kind_of_not_concerns {request : Request} (other : ¬ request.Concerns auctions) :
    request.kind = .bid ∨ request.kind = .read ∨ request.kind = .delivery := by
  cases request with
  | submitBlock _ | postBids _ => exact .inl rfl
  | getHeader _ _ _ | getBids _ | getValidators => exact .inr (.inl rfl)
  | postBlindedBlocks _ => exact .inr (.inr rfl)
  | postValidators _ _ | headEvent _ | payloadAttributesEvent _ | refreshDuties _ =>
      exact absurd ⟨rfl, by simp [Request.auction?]⟩ other

omit [Crates] [DecidablePred auctions] in
theorem outside_of_kind {c : Call} (kind : c.kind = .bid ∨ c.kind = .read ∨ c.kind = .delivery)
    (filed : ∀ slot bid, c = .storage (.setBestBid slot bid) →
      ¬ auctions ⟨slot, bid.message.parentHash, bid.message.proposerPubkey⟩) :
    c.Outside auctions := by
  rcases c with c | _ | _ | _ | _ | _
  case storage =>
    cases c with
    | setBestBid slot bid => exact filed slot bid rfl
    | setHeadSlot _ | writePayloadAttributes _ | setValidatorRegistrations _
    | setProposerDuties _ => simp [Call.kind] at kind
    | _ => trivial
  all_goals trivial

section Runs

variable {config : Config} {init other : InMemoryStorage} {trace : List RelayEvent}
  {world : RelayWorld}

omit [DecidablePred auctions] in
theorem outside_of_not_concerns (run : RunFrom config init trace world) {event : RelayEvent}
    (membership : event ∈ trace) (apart : ¬ event.request.Concerns auctions) :
    event.call.Outside auctions := by
  obtain ⟨front, later, split⟩ := List.append_of_mem membership
  have kinds := run.outline_atCall (holds_kinds config) split
  apply outside_of_kind
  · rcases kinds with read | own
    · exact .inr (.inl read)
    · rw [own]
      exact kind_of_not_concerns apart
  · rintro slot bid call inside
    obtain ⟨submits, _, carried, rfl, _⟩ := setBestBid_event run split call
    apply apart
    refine ⟨?_, fun key own => ?_⟩
    · cases same : event.request <;> rw [same] at submits <;> first | rfl | cases submits
    · rw [auction?_of_submission? carried] at own
      cases own
      exact inside

omit [DecidablePred auctions] in
theorem within_of_concerns (run : RunFrom config init trace world) {event : RelayEvent}
    (membership : event ∈ trace) (concerns : event.request.Concerns auctions) :
    event.call.Within auctions := by
  obtain ⟨front, later, split⟩ := List.append_of_mem membership
  have allowed : ∀ request : Request, (callOutline fun c =>
      request.Concerns auctions → c.Within auctions).Holds [] (handler config request) := by
    intro request
    by_cases own : request.Concerns auctions
    · exact (within_handler config own).mono (fun _ _ within _ => within) fun _ _ _ => trivial
    · exact callOutline_of_all (fun _ concerns => absurd concerns own) _ _
  exact run.outline_atCall allowed split concerns

variable (auctions) in
/-- An auction goes by its own bids alone: without all the requests that are
part of other auctions, post blinded blocks or query data, and from a store that
differs only in what these have filed, the others make the same calls, get the
same answers and give the same replies, in any interleaving. -/
theorem auctions_isolated (run : RunFrom config init trace world)
    (alike : AuctionsAlike auctions init other) :
    ∃ shorter others, RunFrom config other shorter others ∧
      List.Forall₂ (Event.Alike (auctionView auctions))
        (trace.filter fun event => event.request.Concerns auctions) shorter ∧
      AuctionsAlike auctions world.store others.store ∧
      ∀ (task : Nat) request program, world.tasks[task]? = some ⟨request, program⟩ →
        others.tasks[task]? = some ⟨request,
          if request.Concerns auctions then program else handler config request⟩ := by
  obtain ⟨shorter, others, purged, same, left, _, tasks⟩ := run.purge (auctionView auctions)
    (fun _ request => ¬ request.Concerns auctions) (auctionView_eq_iff.mpr alike)
    (fun event membership apart =>
      preserves_of_outside (outside_of_not_concerns run membership apart))
    (fun event membership concerns =>
      dependsOn_of_within (within_of_concerns run membership (not_not.mp concerns)))
  refine ⟨shorter, others, purged, ?_, auctionView_eq_iff.mp left, ?_⟩
  · simpa only [not_not] using same
  · intro task request program found
    rw [tasks task request program found, ite_not]

end Runs

end Requests

section Demo

open Demo

attribute [local instance] standIn

/-- A higher bid on another parent. -/
def elsewhere : BidSubmission := bidWith 7 2 6 .empty

/-- The bids of two auctions are filed in turns before a header is served. -/
@[irreducible]
def twoAuctions : Played Calls Request Reply InMemoryStorage :=
  play [.postBids (bid 5 6), .postBids elsewhere, .getHeader 1 (Demo.hash 1) (pubkey 3)]
    ((List.replicate 8 [2, 3]).flatten ++ [4, 4, 4])

theorem twoAuctions_run : RunFrom config config.init twoAuctions.trace twoAuctions.world := by
  unfold twoAuctions
  exact playFrom_run _ _ _

/-- Without the other bid the same header is served. -/
theorem twoAuctions_isolated :
    AcceptedBy twoAuctions.world 3 elsewhere ∧
    ∃ shorter others, RunFrom config config.init shorter others ∧
      others.tasks[3]? = some ⟨.postBids elsewhere, handler config (.postBids elsewhere)⟩ ∧
      others.store.bestBidPerSlot.lookup (bid 5 6).key = some (bid 5 6) ∧
      others.tasks[4]? = some ⟨.getHeader 1 (Demo.hash 1) (pubkey 3),
        .done (.getHeader (.ok ⟨.deneb, signedHeader (bid 5 6)⟩))⟩ := by
  have filed := World.returned?_eq_some.mp
    (show twoAuctions.world.returned? 3 = some (.postBids elsewhere, .postBids (.ok ())) by
      decide +kernel)
  have served := World.returned?_eq_some.mp
    (show twoAuctions.world.returned? 4 = some (.getHeader 1 (Demo.hash 1) (pubkey 3),
      .getHeader (.ok ⟨.deneb, signedHeader (bid 5 6)⟩)) by decide +kernel)
  have stored : twoAuctions.world.store.bestBidPerSlot.lookup (bid 5 6).key = some (bid 5 6) := by
    decide +kernel
  refine ⟨⟨_, _, filed, rfl, rfl⟩, ?_⟩
  obtain ⟨shorter, others, run, _, alike, tasks⟩ :=
    auctions_isolated (· = (bid 5 6).key) twoAuctions_run (.refl _)
  have apart := tasks 3 _ _ filed
  have kept := tasks 4 _ _ served
  rw [if_neg (by decide +kernel)] at apart
  rw [if_pos (by decide +kernel)] at kept
  exact ⟨shorter, others, run, apart, (alike.bestBid _ rfl).trans stored, kept⟩

end Demo

end MevRelay
