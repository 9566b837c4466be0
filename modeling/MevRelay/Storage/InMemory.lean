import MevRelay.Primitives.Bids
import MevRelay.Concurrent.LastWrite

/-!
# The in-memory storage

The store of the relay and its operations.  Each operation takes the lock of
the store once, so each is one atomic call.
-/

namespace MevRelay

open Concurrent

structure SlotHashKey where
  slot : UInt64
  hash : B256
  validator : BlsPublicKey
  deriving DecidableEq

abbrev ValidatorRegistrations := HashMap BlsPublicKey ValidatorRegistration

/-- The storage together with the counters its operations advance. -/
structure InMemoryStorage where
  slot : HeadSlot
  payloadAttributes : PayloadAttributes
  proposerDuties : List Validator
  validatorRegistrations : ValidatorRegistrations
  wlistBuilders : List BlsPublicKey
  bestBidPerSlot : HashMap SlotHashKey BidSubmission
  bestBidBySlot : HashMap UInt64 BidSubmission
  bestBidByBlockNumber : HashMap UInt64 BidSubmission
  forkData : ForkDatas
  blindedBlockResp : HashMap BlsPublicKey BlindedBlockResponse
  deliveredBlocks : List B256
  relayedBlocks : Nat
  nonRelayedBlocks : Nat
  blindedBlocks : Nat

/-- Creates a new in-memory storage. -/
def InMemoryStorage.new (slot : HeadSlot) (payloadAttributes : PayloadAttributes)
    (wlistBuilders : List BlsPublicKey) (forkData : ForkDatas)
    (validatorRegistrations : ValidatorRegistrations) (proposerDuties : List Validator) :
    InMemoryStorage where
  slot := slot
  payloadAttributes := payloadAttributes
  proposerDuties := proposerDuties
  validatorRegistrations := validatorRegistrations
  wlistBuilders := wlistBuilders
  bestBidPerSlot := ∅
  bestBidBySlot := ∅
  bestBidByBlockNumber := ∅
  forkData := forkData
  blindedBlockResp := ∅
  deliveredBlocks := []
  relayedBlocks := 0
  nonRelayedBlocks := 0
  blindedBlocks := 0

/-- The atomic operations of the storage.  Setting the payload attributes is
two of them, as the source counts the parent block before it takes the lock. -/
inductive StorageCall where
  | recordRelayedBlock (blockHash : B256)
  | setDeliveredBlocks (blockHash : B256)
  | forkData
  | setHeadSlot (slot : HeadSlot)
  | readHeadSlot
  | writePayloadAttributes (payloadAttributes : PayloadAttributes)
  | readPayloadAttributes
  | emptyValidatorRegs
  | setValidatorRegistrations (registrations : ValidatorRegistrations)
  | readValidatorRegistration (key : BlsPublicKey)
  | setProposerDuties (duties : List Validator)
  | findDutyBySlot (slot : UInt64)
  | readProposerDuties
  | isWhitelistedBuilder (key : BlsPublicKey)
  | setBestBid (slot : UInt64) (bid : BidSubmission)
  | readBestBidByBlockNumber (blockNumber : UInt64)
  | readBestBidBySlot (slot : UInt64)
  | setBlindedBlockResponse (proposer : BlsPublicKey) (response : BlindedBlockResponse)
  | readBlindedBlockResponse (proposer : BlsPublicKey)
  | readBestBid (slot : UInt64) (parentHash : B256) (validator : BlsPublicKey)

/-- What each operation answers. -/
abbrev StorageCall.Response : StorageCall → Type
  | .forkData => ForkDatas
  | .readHeadSlot => HeadSlot
  | .readPayloadAttributes => PayloadAttributes
  | .emptyValidatorRegs => Bool
  | .readValidatorRegistration _ => Option ValidatorRegistration
  | .findDutyBySlot _ => Option Validator
  | .readProposerDuties => List Validator
  | .isWhitelistedBuilder _ => Bool
  | .readBestBidByBlockNumber _ => Option BidSubmission
  | .readBestBidBySlot _ => Option BidSubmission
  | .readBlindedBlockResponse _ => Option BlindedBlockResponse
  | .readBestBid _ _ _ => Option BidSubmission
  | .recordRelayedBlock _ | .setDeliveredBlocks _ | .setHeadSlot _ | .writePayloadAttributes _
  | .setValidatorRegistrations _ | .setProposerDuties _ | .setBestBid _ _
  | .setBlindedBlockResponse _ _ => Unit

namespace InMemoryStorage

variable (store : InMemoryStorage)

def recordRelayedBlock (blockHash : B256) : InMemoryStorage :=
  let delivered := blockHash ∈ store.deliveredBlocks
  { store with
    relayedBlocks := store.relayedBlocks + if delivered then 1 else 0
    nonRelayedBlocks := store.nonRelayedBlocks + if delivered then 0 else 1 }

def setDeliveredBlocks (blockHash : B256) : InMemoryStorage :=
  { store with
    deliveredBlocks := store.deliveredBlocks ++ [blockHash]
    blindedBlocks := store.blindedBlocks + 1 }

def setHeadSlot (slot : HeadSlot) : InMemoryStorage := { store with slot }

def writePayloadAttributes (payloadAttributes : PayloadAttributes) : InMemoryStorage :=
  { store with payloadAttributes }

def setValidatorRegistrations (registrations : ValidatorRegistrations) : InMemoryStorage :=
  { store with validatorRegistrations := registrations }

def setProposerDuties (duties : List Validator) : InMemoryStorage :=
  { store with proposerDuties := duties }

def findDutyBySlot (slot : UInt64) : Option Validator :=
  store.proposerDuties.find? fun duty => duty.slot = slot

/-- Files a bid under its key and under its block number. -/
def setBestBid (slot : UInt64) (bid : BidSubmission) : InMemoryStorage :=
  { store with
    bestBidPerSlot := store.bestBidPerSlot.insert
      ⟨slot, bid.message.parentHash, bid.message.proposerPubkey⟩ bid
    bestBidByBlockNumber :=
      store.bestBidByBlockNumber.insert bid.executionPayload.blockNumber bid }

def setBlindedBlockResponse (proposer : BlsPublicKey) (response : BlindedBlockResponse) :
    InMemoryStorage :=
  { store with blindedBlockResp := store.blindedBlockResp.insert proposer response }

end InMemoryStorage

/-- What each operation answers and what it leaves in the store. -/
def StorageCall.apply : (c : StorageCall) → InMemoryStorage → c.Response × InMemoryStorage
  | .recordRelayedBlock blockHash, store => ((), store.recordRelayedBlock blockHash)
  | .setDeliveredBlocks blockHash, store => ((), store.setDeliveredBlocks blockHash)
  | .forkData, store => (store.forkData, store)
  | .setHeadSlot slot, store => ((), store.setHeadSlot slot)
  | .readHeadSlot, store => (store.slot, store)
  | .writePayloadAttributes attrs, store => ((), store.writePayloadAttributes attrs)
  | .readPayloadAttributes, store => (store.payloadAttributes, store)
  | .emptyValidatorRegs, store => (decide (store.validatorRegistrations = ∅), store)
  | .setValidatorRegistrations registrations, store =>
      ((), store.setValidatorRegistrations registrations)
  | .readValidatorRegistration key, store => (store.validatorRegistrations.lookup key, store)
  | .setProposerDuties duties, store => ((), store.setProposerDuties duties)
  | .findDutyBySlot slot, store => (store.findDutyBySlot slot, store)
  | .readProposerDuties, store => (store.proposerDuties, store)
  | .isWhitelistedBuilder key, store => (decide (key ∈ store.wlistBuilders), store)
  | .setBestBid slot bid, store => ((), store.setBestBid slot bid)
  | .readBestBidByBlockNumber blockNumber, store =>
      (store.bestBidByBlockNumber.lookup blockNumber, store)
  | .readBestBidBySlot slot, store => (store.bestBidBySlot.lookup slot, store)
  | .setBlindedBlockResponse proposer response, store =>
      ((), store.setBlindedBlockResponse proposer response)
  | .readBlindedBlockResponse proposer, store => (store.blindedBlockResp.lookup proposer, store)
  | .readBestBid slot parentHash validator, store =>
      (store.bestBidPerSlot.lookup ⟨slot, parentHash, validator⟩, store)

end MevRelay
