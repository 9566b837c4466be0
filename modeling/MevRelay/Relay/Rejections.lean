import MevRelay.Grpc.Wire
import MevRelay.Relay.Traces
import MevRelay.Relay.Surroundings

/-!
# Rejected requests

A request that is rejected has only read the storage, whatever check it failed
and whatever other requests did meanwhile.
-/

namespace MevRelay

open Concurrent

/-- Submissions, header requests and blinded blocks that end in an error, in a
rejection, in a panic or in the reply to a bid that is too low. -/
def Reply.isRejection : Reply → Bool
  | .submitBlock (.ok response) => response.code != 200
  | .submitBlock (.err _) | .submitBlock .panicked => true
  | .postBids (.error _) => true
  | .getHeader (.err _) | .getHeader .panicked => true
  | .postBlindedBlocks (.err _) | .postBlindedBlocks .panicked => true
  | _ => false

theorem exec_of_isRead {c : Call} (read : c.isRead = true) {store after : InMemoryStorage}
    {answer : c.Response} (executed : exec c store answer after) : after = store := by
  rcases c with c | _ | _ | _ | _ | _
  case storage =>
    rw [(exec_storage.mp executed).2]
    exact StorageCall.apply_of_isRead read store
  all_goals cases read

theorem not_publishBlock_of_isRead {c : Call} (read : c.isRead = true)
    (block : SignedBeaconBlockContent) (submissionType : SubmissionType) :
    c ≠ .publishBlock block submissionType := by
  rintro rfl
  cases read

section Handlers

variable [Crates] {config : Config} {request : Request} {reply : Reply}

/-- Every exit with a rejection comes before the first call that is not a read. -/
theorem outline_rejection {past : List (Record Calls)}
    (ended : (outline config request).atResult past reply) (rejected : reply.isRejection = true) :
    Reads past := by
  cases request with
  | submitBlock _ | postBids _ =>
      have result := outline_submission_result rfl ended
      obtain ⟨outcome, rfl, _⟩ := ended
      rw [if_neg ?_] at result
      · exact result
      · cases outcome <;> simp_all [Reply.isRejection, Reply.isAccepted]
  | getHeader slot parentHash pubkey =>
      obtain ⟨result, rfl, reads, _⟩ := ended
      exact reads
  | postBlindedBlocks block =>
      obtain ⟨result, rfl, ended⟩ := ended
      cases result with
      | err error => exact ended
      | panicked => exact ended
      | ok served => cases rejected
  | postValidators | getBids | getValidators | headEvent | payloadAttributesEvent | refreshDuties =>
      obtain ⟨result, rfl, _⟩ := ended
      cases rejected

/-- A rejected request leaves every field of the storage as it was and hands no
block to the beacon node: when it runs alone, and call by call among others. -/
theorem rejection_changes_nothing (rejected : reply.isRejection = true) :
    (∀ store calls after, Exec exec (handler config request) store calls reply after →
      after = store ∧ ∀ record ∈ calls, ∀ block submissionType,
        record.1 ≠ .publishBlock block submissionType) ∧
    (∀ init trace world (task : Nat), RunFrom config init trace world →
      world.tasks[task]? = some ⟨request, .done reply⟩ → ∀ event ∈ trace, event.task = task →
        event.after = event.before ∧ ∀ block submissionType,
          event.call ≠ .publishBlock block submissionType) := by
  constructor
  · intro store calls after executed
    have reads := outline_rejection (executed.atResult (holds_handler config request)) rejected
    refine ⟨?_, fun record membership => not_publishBlock_of_isRead (reads record membership)⟩
    rw [List.nil_append] at reads
    exact (exec_of_reads executed reads).1
  · rintro init trace world task run returned event membership rfl
    have reads := outline_rejection (run.outline_atResult (holds_handler config) returned) rejected
    have read : event.call.isRead = true :=
      reads event.record (mem_past.mpr ⟨event, membership, rfl, rfl⟩)
    exact ⟨exec_of_isRead read (run.executed membership), not_publishBlock_of_isRead read⟩

end Handlers

section Demo

open Demo

attribute [local instance] standIn

/-- A bid as a gRPC message, with its value as a text and the given blobs. -/
def wireBid (bid : BidSubmission) (value : String) (blobsBundle : Gen.BlobsBundle) :
    Gen.SubmitBlockRequest where
  bidTrace := some {
    slot := bid.message.slot
    parentHash := bid.message.parentHash.bytes.toList
    blockHash := bid.message.blockHash.bytes.toList
    builderPubkey := bid.message.builderPubkey.serialize
    proposerPubkey := bid.message.proposerPubkey.serialize
    proposerFeeRecipient := bid.message.proposerFeeRecipient.bytes.toList
    gasLimit := bid.message.gasLimit
    gasUsed := bid.message.gasUsed
    value }
  executionPayload := some bid.executionPayload.toWire
  signature := bid.signature.serialize
  blobsBundle := some blobsBundle

/-- A signed bid whose one proof is a byte too short. -/
def shortProof : Gen.SubmitBlockRequest := wireBid (bid 7 5) "7" ⟨[], [List.replicate 47 0], []⟩

/-- It passes every check between the calls of another bid, until its blobs do not convert. -/
@[irreducible]
def unconverted : Played Calls Request Reply InMemoryStorage :=
  play [.submitBlock shortProof, .postBids (bid 5 6)] [3, 3, 2, 2, 3, 2, 2, 2, 3, 3, 3, 3, 3]

theorem unconverted_run : RunFrom config config.init unconverted.trace unconverted.world := by
  unfold unconverted
  exact playFrom_run _ _ _

theorem unconverted_changes_nothing :
    (unconverted.trace.countP fun event => event.task = 2) = 5 ∧
    unconverted.world.returned? 2 = some (.submitBlock shortProof,
      .submitBlock (.err (.invalidArgument "Failed to parse ssz types"))) ∧
    ∀ event ∈ unconverted.trace, event.task = 2 → event.after = event.before := by
  have reads : (unconverted.trace.countP fun event => event.task = 2) = 5 := by decide +kernel
  have returned : unconverted.world.returned? 2 = some (.submitBlock shortProof,
      .submitBlock (.err (.invalidArgument "Failed to parse ssz types"))) := by decide +kernel
  refine ⟨reads, returned, fun event membership own => ?_⟩
  exact ((rejection_changes_nothing rfl).2 _ _ _ 2 unconverted_run
    (World.returned?_eq_some.mp returned) event membership own).1

end Demo

end MevRelay
