import MevRelay.Relay.Checks

/-!
# The two submission paths

What both paths have checked when they file a bid, as an outline: the checks
made so far are facts about the answers got so far.
-/

namespace MevRelay

open Concurrent

/-- The checks that do not depend on other bids or on a signature. -/
structure Validated (past : List (Record Calls)) (bid : BidTrace)
    (executionPayload : ExecutionPayload) (duty : Validator) : Prop where
  nonzero : bid.value ≠ 0
  whitelisted : answered (.isWhitelistedBuilder bid.builderPubkey) true ∈ past
  nextSlot : ∃ head : HeadSlot, answered .readHeadSlot head ∈ past ∧ head.isNextSlot bid.slot = true
  attributes : ∃ attrs : PayloadAttributes, answered .readPayloadAttributes attrs ∈ past ∧
    attrs.validateBid bid.slot executionPayload.prevRandao = .ok ()
  onDuty : answered (.findDutyBySlot bid.slot) (some duty) ∈ past

/-- The bid is worth more than the best one that was read. -/
def Higher (past : List (Record Calls)) (bid : BidTrace) : Prop :=
  ∃ best : Option BidSubmission,
    answered (.readBestBid bid.slot bid.parentHash bid.proposerPubkey) best ∈ past ∧
      ∀ held, best = some held → held.message.value < bid.value

variable [Crates]

/-- The trace is signed in the builder domain of the fork data in use. -/
def Signed (forks : ForkDatas) (past : List (Record Calls)) (bid : BidSubmission) : Prop :=
  ∃ used, (used = forks ∨ answered .forkData used ∈ past) ∧
    bid.message.verifySignature bid.signature used.computeBuilderDomain = true

/-- Everything that a submission path checks before it files a bid. -/
structure Checked (forks : ForkDatas) (past : List (Record Calls)) (bid : BidSubmission)
    (duty : Validator) : Prop where
  validated : Validated past bid.message bid.executionPayload duty
  higher : Higher past bid.message
  signed : Signed forks past bid

section Mono

omit [Crates]

theorem Validated.mono {past later : List (Record Calls)} {bid : BidTrace}
    {executionPayload : ExecutionPayload} {duty : Validator}
    (validated : Validated past bid executionPayload duty) (grown : past ⊆ later) :
    Validated later bid executionPayload duty where
  nonzero := validated.nonzero
  whitelisted := grown validated.whitelisted
  nextSlot := validated.nextSlot.imp fun _ found => ⟨grown found.1, found.2⟩
  attributes := validated.attributes.imp fun _ found => ⟨grown found.1, found.2⟩
  onDuty := grown validated.onDuty

theorem Higher.mono {past later : List (Record Calls)} {bid : BidTrace}
    (higher : Higher past bid) (grown : past ⊆ later) : Higher later bid :=
  higher.imp fun _ found => ⟨grown found.1, found.2⟩

end Mono

/-- The calls of both submission paths: reads come first, then the two writes of
a checked submission, which the request carries. -/
def submissionCall (forks : ForkDatas) (submission? : Option BidSubmission)
    (past : List (Record Calls)) : Call → Prop
  | .storage (.setBestBid slot bid) =>
      Reads past ∧ submission? = some bid ∧ slot = bid.message.slot ∧
        ∃ duty, Checked forks past bid duty
  | .storage (.setBlindedBlockResponse proposer response) =>
      ∃ reads bid duty, past = reads ++ [answered (.setBestBid bid.message.slot bid) ()] ∧
        Reads reads ∧ submission? = some bid ∧ Checked forks reads bid duty ∧
        proposer = duty.pubkey ∧ response = bid.toBlindedBlockResponse
  | c => Reads past ∧ c.isRead = true

/-- The outline of both submission paths: success comes after both writes, and
any other answer before them. -/
def submissionOutline {Result : Type} (forks : ForkDatas) (submission? : Option BidSubmission)
    (isAccepted : Result → Bool) : Outline Calls Result where
  atCall := submissionCall forks submission?
  atResult past result :=
    if isAccepted result then
      ∃ reads bid duty, past = reads ++ [answered (.setBestBid bid.message.slot bid) (),
          answered (.setBlindedBlockResponse duty.pubkey bid.toBlindedBlockResponse) ()] ∧
        Reads reads ∧ submission? = some bid ∧ Checked forks reads bid duty
    else Reads past

/-- Outlines that let a program read as long as it has only read. -/
def ReadsAllowed {Result : Type} (outline : Outline Calls Result) : Prop :=
  ∀ past (c : StorageCall), Reads past → c.isRead = true → outline.atCall past (.storage c)

theorem submissionOutline_reads {Result : Type} (forks : ForkDatas)
    (submission? : Option BidSubmission) (isAccepted : Result → Bool) :
    ReadsAllowed (submissionOutline forks submission? isAccepted) := by
  intro past c reads read
  cases c <;> first | exact ⟨reads, rfl⟩ | cases read

section Checks

omit [Crates]

variable {Result : Type} {outline : Outline Calls Result} {past : List (Record Calls)}

theorem holds_read (allowed : ReadsAllowed outline) (reads : Reads past) {c : StorageCall}
    (read : c.isRead = true) {next : c.Response → Program Calls Result}
    (rest : ∀ answer, Reads (past ++ [answered c answer]) →
      outline.Holds (past ++ [answered c answer]) (next answer)) :
    outline.Holds past (.call (.storage c) next) :=
  ⟨allowed past c reads read, fun answer => rest answer (reads.concat read answer)⟩

theorem holds_isBidHigher (allowed : ReadsAllowed outline) (reads : Reads past) (bid : BidTrace)
    {rest : Bool → Program Calls Result}
    (lower : ∀ later, Reads later → outline.Holds later (rest false))
    (higher : ∀ later, past ⊆ later → Reads later → Higher later bid →
      outline.Holds later (rest true)) :
    outline.Holds past (isBidHigher bid >>= rest) := by
  rw [isBidHigher_bind]
  refine holds_read allowed reads rfl ?_
  intro best readsBest
  cases above : best.all fun held => held.message.value < bid.value with
  | false => exact lower _ readsBest
  | true =>
      refine higher _ (List.subset_append_left _ _) readsBest ⟨best, by simp, ?_⟩
      simpa [Option.all_eq_true] using above

/-- The shared checks: whatever fails one is rejected by a program that has only
read, and whatever passes them all goes on with a duty for its slot. -/
theorem holds_validating (allowed : ReadsAllowed outline) (reads : Reads past)
    {reject : Rejection → Result} {bid : BidTrace} {executionPayload : ExecutionPayload}
    {accept : Validator → Program Calls Result}
    (rejected : ∀ later reason, Reads later → outline.Holds later (.done (reject reason)))
    (valid : ∀ later duty, past ⊆ later → Reads later →
      Validated later bid executionPayload duty → outline.Holds later (accept duty)) :
    outline.Holds past (validating reject bid executionPayload accept) := by
  simp only [validating, Program.call_bind, Program.done_bind, Program.pure_eq_done]
  by_cases zero : bid.value = 0
  · rw [if_pos zero]
    exact rejected _ _ reads
  rw [if_neg zero]
  apply holds_read allowed reads rfl
  rintro (_ | _) reads
  · exact rejected _ .unauthorizedBuilder reads
  apply holds_read allowed reads rfl
  intro head reads
  cases next : HeadSlot.isNextSlot head bid.slot with
  | false => exact rejected _ .pastSlot reads
  | true =>
  apply holds_read allowed reads rfl
  intro attrs reads
  cases validation : PayloadAttributes.validateBid attrs bid.slot executionPayload.prevRandao with
  | error error => exact rejected _ (.payloadAttributes error) reads
  | ok _ =>
      apply holds_read allowed reads rfl
      rintro (_ | duty) reads
      · exact rejected _ .dutyNotFound reads
      apply valid _ duty (by simp) reads
      exact {
        nonzero := zero
        whitelisted := by simp
        nextSlot := ⟨head, by simp, next⟩
        attributes := ⟨attrs, by simp, validation⟩
        onDuty := by simp }

theorem holds_validateBidAndPayload (allowed : ReadsAllowed outline) (reads : Reads past)
    (bid : BidTrace) (executionPayload : ExecutionPayload)
    {rest : Except Status Validator → Program Calls Result}
    (rejected : ∀ later status, Reads later → outline.Holds later (rest (.error status)))
    (valid : ∀ later duty, past ⊆ later → Reads later →
      Validated later bid executionPayload duty → outline.Holds later (rest (.ok duty))) :
    outline.Holds past (Grpc.validateBidAndPayload bid executionPayload >>= rest) := by
  rw [Grpc.validateBidAndPayload_eq]
  refine Outline.Holds.bind (holds_validating ?_ reads ?_ ?_)
  · exact allowed
  · exact fun later reason reads => rejected later _ reads
  · exact valid

end Checks

section Paths

variable {Result : Type} {forks : ForkDatas} {submission? : Option BidSubmission}
  {isAccepted : Result → Bool} {past : List (Record Calls)} {result : Result}

theorem holds_rejected (reads : Reads past) (rejected : isAccepted result = false) :
    (submissionOutline forks submission? isAccepted).Holds past (.done result) := by
  simpa [submissionOutline, rejected] using reads

/-- The two writes of a checked submission, and the answer after them. -/
theorem holds_filed {bid : BidSubmission} {duty : Validator} (reads : Reads past)
    (carried : submission? = some bid) (checked : Checked forks past bid duty)
    (accepted : isAccepted result = true) :
    (submissionOutline forks submission? isAccepted).Holds past
      (.call (.storage (.setBestBid bid.message.slot bid)) fun _ =>
        .call (.storage (.setBlindedBlockResponse duty.pubkey bid.toBlindedBlockResponse)) fun _ =>
          .done result) := by
  refine ⟨⟨reads, carried, rfl, duty, checked⟩, fun _ => ⟨?_, fun _ => ?_⟩⟩
  · exact ⟨past, bid, duty, rfl, reads, carried, checked, rfl, rfl⟩
  · simp only [Outline.holds_done, submissionOutline, accepted, if_true]
    exact ⟨past, bid, duty, by simp, reads, carried, checked⟩

theorem holds_postBids (forks : ForkDatas) (submission : BidSubmission) :
    (submissionOutline forks (some submission) fun result => (Reply.postBids result).isAccepted).Holds
      [] (Http.postBids submission) := by
  have allowed := submissionOutline_reads forks (some submission)
    fun result => (Reply.postBids result).isAccepted
  rw [Http.postBids_eq]
  refine holds_isBidHigher allowed reads_nil submission.message ?_ ?_
  · intro past reads
    exact holds_rejected reads rfl
  intro past _ reads higher
  simp only [Bool.not_true, Bool.false_eq_true, if_false]
  refine holds_validating allowed reads ?_ ?_
  · intro past reason reads
    exact holds_rejected reads rfl
  intro past duty grown reads validated
  simp only [Program.call_bind, Program.done_bind, Program.pure_eq_done]
  apply holds_read allowed reads rfl
  intro forkData reads
  cases verified : submission.message.verifySignature submission.signature
      (ForkDatas.computeBuilderDomain forkData) with
  | false => exact holds_rejected reads rfl
  | true =>
  refine holds_filed reads rfl ?_ rfl
  exact {
    validated := validated.mono (List.subset_append_left _ _)
    higher := higher.mono fun _ earlier => List.mem_append_left _ (grown earlier)
    signed := ⟨forkData, .inr (by simp), verified⟩ }

theorem holds_submitBlock (service : Grpc.RelayService) (request : Gen.SubmitBlockRequest) :
    (submissionOutline service.forkData request.submission? fun outcome =>
      (Reply.submitBlock outcome).isAccepted).Holds [] (Grpc.submitBlock service request) := by
  have allowed := submissionOutline_reads service.forkData request.submission? fun outcome =>
    (Reply.submitBlock outcome).isAccepted
  unfold Grpc.submitBlock
  cases traceGiven : request.bidTrace with
  | none => exact holds_rejected reads_nil rfl
  | some wireTrace =>
  cases payloadGiven : request.executionPayload with
  | none => exact holds_rejected reads_nil rfl
  | some wirePayload =>
  cases blobsGiven : request.blobsBundle with
  | none => exact holds_rejected reads_nil rfl
  | some wireBlobs =>
  dsimp only
  cases traceRead : BidTrace.tryFrom wireTrace with
  | panicked => exact holds_rejected reads_nil rfl
  | err error => exact holds_rejected reads_nil rfl
  | ok bid =>
  refine holds_isBidHigher allowed reads_nil bid ?_ ?_
  · intro past reads
    exact holds_rejected reads rfl
  intro past _ reads higher
  simp only [Bool.not_true, Bool.false_eq_true, if_false]
  cases payloadRead : ExecutionPayload.tryFrom wirePayload with
  | error error => exact holds_rejected reads rfl
  | ok executionPayload =>
  refine holds_validateBidAndPayload allowed reads bid executionPayload ?_ ?_
  · intro past status reads
    exact holds_rejected reads rfl
  intro past duty grown reads validated
  dsimp only
  cases signatureRead : (BlsSignature.ofBytes request.signature : Outcome Status BlsSignature) with
  | panicked => exact holds_rejected reads rfl
  | err status => exact holds_rejected reads rfl
  | ok signature =>
  dsimp only
  cases verified : Grpc.verifySignature service bid signature with
  | error status => exact holds_rejected reads rfl
  | ok _ =>
  dsimp only
  cases blobsRead : BlobsBundle.tryFrom wireBlobs with
  | error error => exact holds_rejected reads rfl
  | ok blobsBundle =>
  have carried : request.submission? = some (.new bid executionPayload blobsBundle signature) := by
    simp [Gen.SubmitBlockRequest.submission?, traceGiven, payloadGiven, blobsGiven, traceRead,
      payloadRead, blobsRead, signatureRead]
  refine holds_filed reads carried ?_ rfl
  exact {
    validated := validated
    higher := higher.mono grown
    signed := ⟨service.forkData, .inl rfl, Grpc.verifySignature_eq_ok.mp verified⟩ }

end Paths

end MevRelay
