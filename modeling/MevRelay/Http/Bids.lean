import MevRelay.Storage.Calls

/-!
# The routes for builders and data

Submitting a bid, and reading the duties and the received bids.
-/

namespace MevRelay

open Concurrent

inductive PostBidsError where
  | belowFloor
  | zeroBid
  | unauthorizedBuilder
  | pastSlotSubmission
  | dutyNotFound
  | invalidSignature
  | invalidPayloadAttrs (message : String)
  deriving DecidableEq

def PostBidsError.toString : PostBidsError → String
  | .belowFloor => "Bid value is below floor."
  | .zeroBid => "Bid value 0."
  | .unauthorizedBuilder => "Builder is not allowed to submit bids."
  | .pastSlotSubmission => "Submission is for past slot."
  | .dutyNotFound => "No duty found from slot."
  | .invalidSignature => "Invalid signature."
  | .invalidPayloadAttrs message => s!"Invalid payload attributes: {message}."

structure QueryParams where
  slot : Option UInt64
  blockNumber : Option UInt64
  deriving DecidableEq

namespace Http

/-- Route for POST `/relay/v1/builder/blocks`. -/
def postBids [Crates] (submission : BidSubmission) : Program Calls (Except PostBidsError Unit) := do
  let bid := submission.message
  if !(← isBidHigher bid) then
    return .error .belowFloor
  if bid.value = 0 then
    return .error .zeroBid
  if !(← storage (.isWhitelistedBuilder bid.builderPubkey)) then
    return .error .unauthorizedBuilder
  let headSlot ← storage .readHeadSlot
  if !headSlot.isNextSlot bid.slot then
    return .error .pastSlotSubmission
  let attrs ← storage .readPayloadAttributes
  if let .error message := attrs.validateBid bid.slot submission.executionPayload.prevRandao then
    return .error (.invalidPayloadAttrs message.toString)
  let some duty ← storage (.findDutyBySlot bid.slot)
    | return .error .dutyNotFound
  let forkData ← storage .forkData
  if !bid.verifySignature submission.signature forkData.computeBuilderDomain then
    return .error .invalidSignature
  let submission := BidSubmission.new bid submission.executionPayload submission.blobsBundle
    submission.signature
  storage (.setBestBid bid.slot submission)
  storage (.setBlindedBlockResponse duty.entry.message.pubkey submission.toBlindedBlockResponse)
  return .ok ()

/-- Route for GET `/relay/v1/builder/validators`. -/
def getValidators : Program Calls (List Validator) :=
  storage .readProposerDuties

/-- Route for GET `/relay/v1/data/bidtraces/builder_blocks_received`.  The reply
carries whole submissions. -/
def getBids (params : QueryParams) : Program Calls (List BidSubmission) := do
  if let some slot := params.slot then
    if let some bid ← storage (.readBestBidBySlot slot) then
      return [bid]
  if let some blockNumber := params.blockNumber then
    if let some bid ← storage (.readBestBidByBlockNumber blockNumber) then
      return [bid]
  return []

end Http

end MevRelay
