import MevRelay.Relay.System

/-!
# The checks that both submission paths share

Both paths check the value of a bid, its builder, its slot, the payload
attributes and the duty for its slot in the same order.  They differ in what
they answer when a check fails.
-/

namespace MevRelay

open Concurrent

inductive Rejection where
  | zeroBid
  | unauthorizedBuilder
  | pastSlot
  | payloadAttributes (error : ValidationErrors)
  | dutyNotFound

def Grpc.rejected : Rejection → Status
  | .zeroBid => .invalidArgument "Block value 0."
  | .unauthorizedBuilder => .invalidArgument "Invalid builder address."
  | .pastSlot => .invalidArgument "Submission for past slot."
  | .payloadAttributes error => .invalidArgument error.toString
  | .dutyNotFound => .invalidArgument "No duty found."

def Http.rejected : Rejection → PostBidsError
  | .zeroBid => .zeroBid
  | .unauthorizedBuilder => .unauthorizedBuilder
  | .pastSlot => .pastSlotSubmission
  | .payloadAttributes error => .invalidPayloadAttrs error.toString
  | .dutyNotFound => .dutyNotFound

section Programs

variable {Result : Type}

/-- The checks as a program, given what it answers to a bid that fails one and
what it does with the duty of a bid that passes them all. -/
def validating (reject : Rejection → Result) (bid : BidTrace) (executionPayload : ExecutionPayload)
    (accept : Validator → Program Calls Result) : Program Calls Result := do
  if bid.value = 0 then
    return reject .zeroBid
  if !(← storage (.isWhitelistedBuilder bid.builderPubkey)) then
    return reject .unauthorizedBuilder
  let headSlot ← storage .readHeadSlot
  if !headSlot.isNextSlot bid.slot then
    return reject .pastSlot
  let attrs ← storage .readPayloadAttributes
  if let .error error := attrs.validateBid bid.slot executionPayload.prevRandao then
    return reject (.payloadAttributes error)
  let some duty ← storage (.findDutyBySlot bid.slot)
    | return reject .dutyNotFound
  accept duty

theorem Grpc.validateBidAndPayload_eq (bid : BidTrace) (executionPayload : ExecutionPayload) :
    validateBidAndPayload bid executionPayload =
      validating (fun reason => .error (rejected reason)) bid executionPayload
        fun duty => .done (.ok duty) := rfl

theorem Http.postBids_eq [Crates] (submission : BidSubmission) :
    postBids submission = isBidHigher submission.message >>= fun higher =>
      if !higher then .done (.error .belowFloor)
      else validating (fun reason => .error (rejected reason)) submission.message
        submission.executionPayload fun duty => do
          let forkData ← storage .forkData
          if !submission.message.verifySignature submission.signature
              forkData.computeBuilderDomain then
            return .error .invalidSignature
          storage (.setBestBid submission.message.slot submission)
          storage (.setBlindedBlockResponse duty.pubkey submission.toBlindedBlockResponse)
          return .ok () := rfl

end Programs

section Stores

/-- What the checks say about a bid and a store. -/
def validation (store : InMemoryStorage) (bid : BidTrace) (executionPayload : ExecutionPayload) :
    Except Rejection Validator :=
  if bid.value = 0 then .error .zeroBid
  else if bid.builderPubkey ∉ store.wlistBuilders then .error .unauthorizedBuilder
  else if store.slot.isNextSlot bid.slot = false then .error .pastSlot
  else
    match store.payloadAttributes.validateBid bid.slot executionPayload.prevRandao with
    | .error error => .error (.payloadAttributes error)
    | .ok () => (store.findDutyBySlot bid.slot).elim (.error .dutyNotFound) .ok

variable {Result : Type} {store after : InMemoryStorage} {bid : BidTrace}
  {executionPayload : ExecutionPayload}

theorem validation_eq_ok {duty : Validator} :
    validation store bid executionPayload = .ok duty ↔
      bid.value ≠ 0 ∧ bid.builderPubkey ∈ store.wlistBuilders ∧
      store.slot.isNextSlot bid.slot = true ∧
      store.payloadAttributes.validateBid bid.slot executionPayload.prevRandao = .ok () ∧
      store.findDutyBySlot bid.slot = some duty := by
  unfold validation
  by_cases zero : bid.value = 0
  · simp [zero]
  rw [if_neg zero]
  by_cases whitelisted : bid.builderPubkey ∈ store.wlistBuilders
  case neg => simp [whitelisted]
  cases next : store.slot.isNextSlot bid.slot with
  | false => simp [whitelisted]
  | true =>
  cases validated : store.payloadAttributes.validateBid bid.slot executionPayload.prevRandao with
  | error error => simp [whitelisted]
  | ok _ =>
  cases store.findDutyBySlot bid.slot with
  | none => simp [whitelisted]
  | some found => simpa [whitelisted] using fun _ => zero

/-- The program answers what the checks say, and leaves the store as it is. -/
theorem yields_validating_iff {reject : Rejection → Result}
    {accept : Validator → Program Calls Result} {result : Result} :
    Yields exec (validating reject bid executionPayload accept) store result after ↔
      (∃ reason, validation store bid executionPayload = .error reason ∧
        result = reject reason ∧ after = store) ∨
      ∃ duty, validation store bid executionPayload = .ok duty ∧
        Yields exec (accept duty) store result after := by
  simp only [validating, validation, Program.call_bind, Program.done_bind, Program.pure_eq_done]
  by_cases zero : bid.value = 0
  · simp [zero]
  rw [if_neg zero, if_neg zero, yields_storage]
  by_cases whitelisted : bid.builderPubkey ∈ store.wlistBuilders
  case neg => simp [StorageCall.apply, whitelisted]
  cases next : store.slot.isNextSlot bid.slot with
  | false => simp [StorageCall.apply, whitelisted, next]
  | true =>
  cases validated : store.payloadAttributes.validateBid bid.slot executionPayload.prevRandao with
  | error error => simp [StorageCall.apply, whitelisted, next, validated]
  | ok _ =>
  cases found : store.findDutyBySlot bid.slot with
  | none => simp [StorageCall.apply, whitelisted, next, validated, found]
  | some duty => simp [StorageCall.apply, whitelisted, next, validated, found]

theorem yields_validateBidAndPayload_iff {verdict : Except Status Validator} :
    Yields exec (Grpc.validateBidAndPayload bid executionPayload) store verdict after ↔
      verdict = (validation store bid executionPayload).mapError Grpc.rejected ∧ after = store := by
  rw [Grpc.validateBidAndPayload_eq, yields_validating_iff]
  cases validation store bid executionPayload <;> simp [Except.mapError]

end Stores

end MevRelay
