import MevRelay.Concurrent.RwLock
import MevRelay.Storage.InMemory

/-!
# The storage behind its lock

The methods of the in-memory storage step by step: taking the lock, looking at
or changing what is behind it, and giving the lock back.  The counters of the
metrics are advanced outside the lock.
-/

namespace MevRelay

open Concurrent

/-- In-memory storage inner structure. -/
structure InMemoryStorageInner where
  slot : HeadSlot
  payloadAttributes : PayloadAttributes
  proposerDuties : List Validator
  validatorRegistrations : ValidatorRegistrations
  wlistBuilders : List BlsPublicKey
  bestBidPerSlot : HashMap SlotHashKey BidSubmission
  bestBidBySlot : HashMap UInt64 BidSubmission
  bestBidByBlockNumber : HashMap UInt64 BidSubmission
  forkData : ForkDatas
  blindedBlockResp : HashMap BlsPublicKey BlindedBlockResponse
  deliveredBlocks : List B256

/-- What is behind the lock: everything but the counters. -/
def InMemoryStorage.inner (store : InMemoryStorage) : InMemoryStorageInner where
  slot := store.slot
  payloadAttributes := store.payloadAttributes
  proposerDuties := store.proposerDuties
  validatorRegistrations := store.validatorRegistrations
  wlistBuilders := store.wlistBuilders
  bestBidPerSlot := store.bestBidPerSlot
  bestBidBySlot := store.bestBidBySlot
  bestBidByBlockNumber := store.bestBidByBlockNumber
  forkData := store.forkData
  blindedBlockResp := store.blindedBlockResp
  deliveredBlocks := store.deliveredBlocks

/-- The counters that storage methods advance. -/
inductive Counter where
  | relayedBlocks
  | nonRelayedBlocks
  | blindedBlocks
  deriving DecidableEq

inductive StorageStep where
  | lock (c : LockCall InMemoryStorageInner)
  | count (counter : Counter)

abbrev StorageStep.Response : StorageStep → Type
  | .lock c => c.Response
  | .count _ => Unit

abbrev StorageSteps : Signature := ⟨StorageStep, StorageStep.Response⟩

namespace InMemoryStorageInner

/-- Look at the storage under the shared lock. -/
def read {Result : Type} (view : InMemoryStorageInner → Result) : Program StorageSteps Result :=
  .call (.lock .lockShared) fun _ =>
    .call (.lock .look) fun inner =>
      .call (.lock .unlockShared) fun _ => .done (view inner)

/-- Make changes one after the other and give the exclusive lock back. -/
def changeAll : List (InMemoryStorageInner → InMemoryStorageInner) → Program StorageSteps Unit
  | [] => .call (.lock .unlockExclusive) .done
  | change :: rest => .call (.lock (.change change)) fun _ => changeAll rest

/-- Change the storage under the exclusive lock. -/
def write (changes : List (InMemoryStorageInner → InMemoryStorageInner)) :
    Program StorageSteps Unit :=
  .call (.lock .lockExclusive) fun _ => changeAll changes

end InMemoryStorageInner

open InMemoryStorageInner

/-- The methods of the storage, with every step they take. -/
def StorageCall.steps : (c : StorageCall) → Program StorageSteps c.Response
  | .recordRelayedBlock blockHash =>
      read (fun inner => decide (blockHash ∈ inner.deliveredBlocks)) >>= fun delivered =>
        .call (.count (if delivered then .relayedBlocks else .nonRelayedBlocks)) .done
  | .setDeliveredBlocks blockHash =>
      .call (.count .blindedBlocks) fun _ =>
        write [fun inner => { inner with deliveredBlocks := inner.deliveredBlocks ++ [blockHash] }]
  | .forkData => read InMemoryStorageInner.forkData
  | .setHeadSlot slot => write [fun inner => { inner with slot }]
  | .readHeadSlot => read InMemoryStorageInner.slot
  | .writePayloadAttributes payloadAttributes =>
      write [fun inner => { inner with payloadAttributes }]
  | .readPayloadAttributes => read InMemoryStorageInner.payloadAttributes
  | .emptyValidatorRegs => read fun inner => decide (inner.validatorRegistrations = ∅)
  | .setValidatorRegistrations registrations =>
      write [fun inner => { inner with validatorRegistrations := registrations }]
  | .readValidatorRegistration key => read fun inner => inner.validatorRegistrations.lookup key
  | .setProposerDuties duties => write [fun inner => { inner with proposerDuties := duties }]
  | .findDutyBySlot slot => read fun inner => inner.proposerDuties.find? fun duty => duty.slot = slot
  | .readProposerDuties => read InMemoryStorageInner.proposerDuties
  | .isWhitelistedBuilder key => read fun inner => decide (key ∈ inner.wlistBuilders)
  | .setBestBid slot bid =>
      write [
        fun inner => { inner with
          bestBidPerSlot := inner.bestBidPerSlot.insert
            ⟨slot, bid.message.parentHash, bid.message.proposerPubkey⟩ bid },
        fun inner => { inner with
          bestBidByBlockNumber :=
            inner.bestBidByBlockNumber.insert bid.executionPayload.blockNumber bid }]
  | .readBestBidByBlockNumber blockNumber =>
      read fun inner => inner.bestBidByBlockNumber.lookup blockNumber
  | .readBestBidBySlot slot => read fun inner => inner.bestBidBySlot.lookup slot
  | .setBlindedBlockResponse proposer response =>
      write [fun inner => { inner with
        blindedBlockResp := inner.blindedBlockResp.insert proposer response }]
  | .readBlindedBlockResponse proposer => read fun inner => inner.blindedBlockResp.lookup proposer
  | .readBestBid slot parentHash validator =>
      read fun inner => inner.bestBidPerSlot.lookup ⟨slot, parentHash, validator⟩

end MevRelay
