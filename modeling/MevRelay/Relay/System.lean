import MevRelay.Grpc.Service
import MevRelay.Http.Bids
import MevRelay.Http.Proposer
import MevRelay.Relay.Events
import MevRelay.Concurrent.CheckThenAct
import MevRelay.Concurrent.Schedule

/-!
# The relay

Every request the relay handles with the program that handles it, and the
state it starts from.  A run lets any number of requests make their calls in
any order; a serial run handles them one after the other.
-/

namespace MevRelay

open Concurrent

structure Config where
  slot : HeadSlot
  payloadAttributes : PayloadAttributes
  wlistBuilders : List BlsPublicKey
  forkData : ForkDatas
  secretKey : Blst.SecretKey
  slotsPerEpoch : UInt64

/-- The storage at the start: no registrations, no duties and no bids. -/
def Config.init (config : Config) : InMemoryStorage :=
  .new config.slot config.payloadAttributes config.wlistBuilders config.forkData ∅ []

/-- The service and the signer work with the fork data the storage was given. -/
def Config.service (config : Config) : Grpc.RelayService := ⟨config.forkData⟩

def Config.signer (config : Config) : BlsSigner := ⟨config.secretKey, config.forkData⟩

/-- The requests and events that the relay handles. -/
inductive Request where
  | submitBlock (request : Gen.SubmitBlockRequest)
  | postBids (submission : BidSubmission)
  | postValidators (apiKey : String) (registrations : List ValidatorRegistration)
  | getHeader (slot : UInt64) (parentHash : B256) (pubkey : BlsPublicKey)
  | postBlindedBlocks (block : SignedBlindedBlock)
  | getBids (params : QueryParams)
  | getValidators
  | headEvent (slot : UInt64)
  | payloadAttributesEvent (attrs : PayloadAttributes)
  | refreshDuties (head : HeadSlot)
  deriving DecidableEq

/-- How each of them ends. -/
inductive Reply where
  | submitBlock (outcome : Outcome Status Gen.SubmitBlockResponse)
  | postBids (result : Except PostBidsError Unit)
  | postValidators (result : Except PostValidatorsError Unit)
  | getHeader (outcome : Outcome GetHeaderError (Versioned SignedHeader))
  | postBlindedBlocks (outcome : Outcome PostBlindedBlockErr (Versioned BlindedBlockResponse))
  | getBids (bids : List BidSubmission)
  | getValidators (duties : List Validator)
  | handled
  | refreshed (outcome : Outcome Unit Unit)
  deriving DecidableEq

/-- The answers of the two submission paths that mean success. -/
def Reply.isAccepted : Reply → Bool
  | .submitBlock (.ok response) => response.code == 200
  | .postBids (.ok ()) => true
  | _ => false

variable [Crates]

/-- The program that handles a request. -/
def handler (config : Config) : Request → Program Calls Reply
  | .submitBlock request => Reply.submitBlock <$> Grpc.submitBlock config.service request
  | .postBids submission => Reply.postBids <$> Http.postBids submission
  | .postValidators apiKey registrations =>
      Reply.postValidators <$> Http.postValidators apiKey registrations
  | .getHeader slot parentHash pubkey =>
      Reply.getHeader <$> Http.getHeader config.signer slot parentHash pubkey
  | .postBlindedBlocks block => Reply.postBlindedBlocks <$> Http.postBlindedBlocks block
  | .getBids params => Reply.getBids <$> Http.getBids params
  | .getValidators => Reply.getValidators <$> Http.getValidators
  | .headEvent slot => (fun _ => Reply.handled) <$> onHeadEvent slot
  | .payloadAttributesEvent attrs => (fun _ => Reply.handled) <$> onPayloadAttributes attrs
  | .refreshDuties head => Reply.refreshed <$> refreshDuties config.slotsPerEpoch head

/-- The submission a gRPC message carries, where every part of it converts. -/
def Gen.SubmitBlockRequest.submission? (request : Gen.SubmitBlockRequest) :
    Option BidSubmission := do
  let .ok bid := BidTrace.tryFrom (← request.bidTrace) | none
  let .ok executionPayload := ExecutionPayload.tryFrom (← request.executionPayload) | none
  let .ok signature := (BlsSignature.ofBytes request.signature : Outcome Status _) | none
  let .ok blobsBundle := BlobsBundle.tryFrom (← request.blobsBundle) | none
  return .new bid executionPayload blobsBundle signature

/-- The submission a request carries. -/
def Request.submission? : Request → Option BidSubmission
  | .submitBlock request => request.submission?
  | .postBids submission => some submission
  | _ => none

abbrev RelayEvent := Event Calls Request InMemoryStorage

abbrev RelayWorld := World Calls Request Reply InMemoryStorage

/-- Runs of the relay from a given store. -/
abbrev RunFrom (config : Config) (init : InMemoryStorage) :
    List RelayEvent → RelayWorld → Prop :=
  Run (handler config) exec init

abbrev RelayHistory := List (Completed Calls Request Reply InMemoryStorage)

/-- Runs of the relay with atomic handlers from a given store. -/
abbrev SerialFrom (config : Config) (init : InMemoryStorage) :
    RelayHistory → InMemoryStorage → Prop :=
  Serial (handler config) exec init

def AcceptedBy (world : RelayWorld) (task : Nat) (bid : BidSubmission) : Prop :=
  ∃ (request : Request) (reply : Reply), world.tasks[task]? = some ⟨request, .done reply⟩ ∧
    reply.isAccepted = true ∧ request.submission? = some bid

def Finished (world : RelayWorld) : Prop :=
  ∀ task ∈ world.tasks, ∃ reply, task.program = .done reply

omit [Crates] in
theorem finished_of_returned {world : RelayWorld}
    (returned : ∀ task ∈ world.tasks, task.returned?.isSome = true) : Finished world := by
  intro task membership
  obtain ⟨⟨request, reply⟩, found⟩ := Option.isSome_iff_exists.mp (returned task membership)
  exact ⟨reply, congrArg Task.program (Task.returned?_eq_some.mp found)⟩

/-- The key under which a bid is filed. -/
def BidSubmission.key (bid : BidSubmission) : SlotHashKey :=
  ⟨bid.message.slot, bid.message.parentHash, bid.message.proposerPubkey⟩

def BidSubmission.value (bid : BidSubmission) : Nat := bid.message.value.toNat

abbrev Validator.pubkey (duty : Validator) : BlsPublicKey := duty.entry.message.pubkey

/-- The best bid a call files, with its key. -/
def bestWrite? (record : Record Calls) : Option (SlotHashKey × BidSubmission) :=
  match record.1 with
  | .storage (.setBestBid slot bid) =>
      some (⟨slot, bid.message.parentHash, bid.message.proposerPubkey⟩, bid)
  | _ => none

def numberWrite? (record : Record Calls) : Option (UInt64 × BidSubmission) :=
  match record.1 with
  | .storage (.setBestBid _ bid) => some (bid.executionPayload.blockNumber, bid)
  | _ => none

def responseWrite? (record : Record Calls) : Option (BlsPublicKey × BlindedBlockResponse) :=
  match record.1 with
  | .storage (.setBlindedBlockResponse proposer response) => some (proposer, response)
  | _ => none

/-- The hash a call records as delivered. -/
def deliveredWrite? (record : Record Calls) : Option B256 :=
  match record.1 with
  | .storage (.setDeliveredBlocks blockHash) => some blockHash
  | _ => none

section Frames

omit [Crates]

theorem of_bestWrite? {record : Record Calls} {key : SlotHashKey} {bid : BidSubmission}
    (write : bestWrite? record = some (key, bid)) :
    ∃ slot, record.1 = .storage (.setBestBid slot bid) ∧
      key = ⟨slot, bid.message.parentHash, bid.message.proposerPubkey⟩ := by
  simp only [bestWrite?] at write
  split at write
  case h_1 slot found call =>
    cases write
    exact ⟨slot, call, rfl⟩
  case h_2 => cases write

theorem of_numberWrite? {record : Record Calls} {blockNumber : UInt64} {bid : BidSubmission}
    (write : numberWrite? record = some (blockNumber, bid)) :
    ∃ slot, record.1 = .storage (.setBestBid slot bid) ∧
      blockNumber = bid.executionPayload.blockNumber := by
  simp only [numberWrite?] at write
  split at write
  case h_1 slot found call =>
    cases write
    exact ⟨slot, call, rfl⟩
  case h_2 => cases write

theorem of_responseWrite? {record : Record Calls} {proposer : BlsPublicKey}
    {response : BlindedBlockResponse} (write : responseWrite? record = some (proposer, response)) :
    record.1 = .storage (.setBlindedBlockResponse proposer response) := by
  simp only [responseWrite?] at write
  split at write
  case h_1 call =>
    cases write
    exact call
  case h_2 => cases write

theorem bestBids_written : WrittenBy exec InMemoryStorage.bestBidPerSlot bestWrite? := by
  rintro (c | _ | _ | _ | _ | _) store answer after executed
  case storage => obtain ⟨rfl, rfl⟩ := exec_storage.mp executed; cases c <;> rfl
  all_goals cases executed; rfl

theorem bestBidNumbers_written :
    WrittenBy exec InMemoryStorage.bestBidByBlockNumber numberWrite? := by
  rintro (c | _ | _ | _ | _ | _) store answer after executed
  case storage => obtain ⟨rfl, rfl⟩ := exec_storage.mp executed; cases c <;> rfl
  all_goals cases executed; rfl

theorem responses_written : WrittenBy exec InMemoryStorage.blindedBlockResp responseWrite? := by
  rintro (c | _ | _ | _ | _ | _) store answer after executed
  case storage => obtain ⟨rfl, rfl⟩ := exec_storage.mp executed; cases c <;> rfl
  all_goals cases executed; rfl

/-- No call touches the whitelist, the fork data or the bids indexed by slot. -/
theorem exec_frame {c : Call} {store after : InMemoryStorage} {answer : c.Response}
    (executed : exec c store answer after) :
    after.wlistBuilders = store.wlistBuilders ∧ after.forkData = store.forkData ∧
      after.bestBidBySlot = store.bestBidBySlot := by
  rcases c with c | _ | _ | _ | _ | _
  case storage => obtain ⟨rfl, rfl⟩ := exec_storage.mp executed; cases c <;> exact ⟨rfl, rfl, rfl⟩
  all_goals cases executed; exact ⟨rfl, rfl, rfl⟩

theorem deliveredBlocks_exec {c : Call} {store after : InMemoryStorage} {answer : c.Response}
    (executed : exec c store answer after) :
    after.deliveredBlocks = store.deliveredBlocks ++ (deliveredWrite? ⟨c, answer⟩).toList := by
  rcases c with c | _ | _ | _ | _ | _
  case storage =>
    obtain ⟨rfl, rfl⟩ := exec_storage.mp executed
    cases c <;> first | rfl | exact (List.append_nil _).symm
  all_goals cases executed; exact (List.append_nil _).symm

end Frames

end MevRelay
