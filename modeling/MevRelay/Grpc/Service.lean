import MevRelay.Grpc.Gen
import MevRelay.Storage.Calls

/-!
# The submission service

`submitBlock` with the checks it makes in the order it makes them.
-/

namespace MevRelay

open Concurrent

/-- A gRPC status with the code for invalid arguments, the only one in use. -/
structure Status where
  message : String
  deriving DecidableEq

def Status.invalidArgument (message : String) : Status := ⟨message⟩

namespace Grpc

structure RelayService where
  forkData : ForkDatas

/-- Static validation on the bid and the execution payload. -/
def validateBidAndPayload (bid : BidTrace) (executionPayload : ExecutionPayload) :
    Program Calls (Except Status Validator) := do
  if bid.value = 0 then
    return .error (.invalidArgument "Block value 0.")
  if !(← storage (.isWhitelistedBuilder bid.builderPubkey)) then
    return .error (.invalidArgument "Invalid builder address.")
  let headSlot ← storage .readHeadSlot
  if !headSlot.isNextSlot bid.slot then
    return .error (.invalidArgument "Submission for past slot.")
  let attrs ← storage .readPayloadAttributes
  if let .error message := attrs.validateBid bid.slot executionPayload.prevRandao then
    return .error (.invalidArgument message.toString)
  let some duty ← storage (.findDutyBySlot bid.slot)
    | return .error (.invalidArgument "No duty found.")
  return .ok duty

def updateBest (bid : BidTrace) (executionPayload : ExecutionPayload) (blobsBundle : BlobsBundle)
    (signature : BlsSignature) (proposerKey : BlsPublicKey) : Program Calls Unit := do
  let submission := BidSubmission.new bid executionPayload blobsBundle signature
  storage (.setBestBid bid.slot submission)
  storage (.setBlindedBlockResponse proposerKey submission.toBlindedBlockResponse)

section Crates

variable [Crates]

def verifySignature (service : RelayService) (bid : BidTrace) (signature : BlsSignature) :
    Except Status Unit :=
  if bid.verifySignature signature service.forkData.computeBuilderDomain then .ok ()
  else .error (.invalidArgument "Invalid signature")

theorem verifySignature_eq_ok {service : RelayService} {bid : BidTrace} {signature : BlsSignature} :
    verifySignature service bid signature = .ok () ↔
      bid.verifySignature signature service.forkData.computeBuilderDomain = true := by
  cases verified : bid.verifySignature signature service.forkData.computeBuilderDomain <;>
    simp [verifySignature, verified]

/-- The handler of a block submission. -/
def submitBlock (service : RelayService) (request : Gen.SubmitBlockRequest) :
    Program Calls (Outcome Status Gen.SubmitBlockResponse) := do
  let some bid := request.bidTrace
    | return .err (.invalidArgument "Missing bid")
  let some executionPayload := request.executionPayload
    | return .err (.invalidArgument "Missing Execution Payload")
  let some blobs := request.blobsBundle
    | return .err (.invalidArgument "Missing Blobs Bundle")
  match BidTrace.tryFrom bid with
  | .panicked => return .panicked
  | .err error => return .err (.invalidArgument error.toString)
  | .ok bid =>
  if !(← isBidHigher bid) then
    return .ok { code := 400, message := "Bid below best." }
  match ExecutionPayload.tryFrom executionPayload with
  | .error error => return .err (.invalidArgument error.toString)
  | .ok executionPayload =>
  match ← validateBidAndPayload bid executionPayload with
  | .error status => return .err status
  | .ok duty =>
  match (BlsSignature.ofBytes request.signature : Outcome Status BlsSignature) with
  | .panicked => return .panicked
  | .err status => return .err status
  | .ok signature =>
  match verifySignature service bid signature with
  | .error status => return .err status
  | .ok () =>
  match BlobsBundle.tryFrom blobs with
  | .error error => return .err (.invalidArgument error.toString)
  | .ok blobs =>
  updateBest bid executionPayload blobs signature duty.entry.message.pubkey
  return .ok { code := 200, message := "Success" }

end Crates

end Grpc

end MevRelay
