import MevRelay.Primitives.Bids

/-!
# The messages of the submission service

The generated message types and their conversions.  Lists convert element by
element and stop at the first error.
-/

namespace MevRelay

open Ssz

namespace Gen

structure BidTrace where
  slot : UInt64
  parentHash : List UInt8
  blockHash : List UInt8
  builderPubkey : List UInt8
  proposerPubkey : List UInt8
  proposerFeeRecipient : List UInt8
  gasLimit : UInt64
  gasUsed : UInt64
  value : String
  deriving DecidableEq

structure Withdrawal where
  index : UInt64
  validatorIndex : UInt64
  address : List UInt8
  amount : UInt64
  deriving DecidableEq

structure BlobsBundle where
  commitments : List (List UInt8)
  proofs : List (List UInt8)
  blobs : List (List UInt8)
  deriving DecidableEq

structure CompressTx where
  rawData : List UInt8
  deriving DecidableEq

structure ExecutionPayload where
  parentHash : List UInt8
  stateRoot : List UInt8
  receiptsRoot : List UInt8
  logsBloom : List UInt8
  prevRandao : List UInt8
  extraData : List UInt8
  baseFeePerGas : List UInt8
  feeRecipient : List UInt8
  blockHash : List UInt8
  transactions : List CompressTx
  withdrawals : List Withdrawal
  blockNumber : UInt64
  gasLimit : UInt64
  timestamp : UInt64
  gasUsed : UInt64
  blobGasUsed : UInt64
  excessBlobGas : UInt64
  deriving DecidableEq

structure SubmitBlockRequest where
  bidTrace : Option BidTrace
  executionPayload : Option ExecutionPayload
  signature : List UInt8
  blobsBundle : Option BlobsBundle
  deriving DecidableEq

structure SubmitBlockResponse where
  code : Int
  message : String
  deriving DecidableEq

end Gen

/-- A collection that does not fit its type is an error that says no more. -/
def orSszTypes {Value : Type} : Option Value → Except ConversionError Value
  | some value => .ok value
  | none => .error .sszTypes

def U256.fromStr [Crates] (text : String) : Except ConversionError U256 :=
  match Crates.u256FromStr text with
  | some value => .ok value
  | none => .error (.parseError "U256" text)

/-- The trace of a bid.  The two public keys have no fallible conversion. -/
def BidTrace.tryFrom [Crates] (trace : Gen.BidTrace) : Outcome ConversionError BidTrace := do
  let value ← .ofExcept (U256.fromStr trace.value)
  let parentHash ← .ofExcept (B256.tryFrom trace.parentHash)
  let blockHash ← .ofExcept (B256.tryFrom trace.blockHash)
  let builderPubkey ← BlsPublicKey.ofBytes trace.builderPubkey
  let proposerPubkey ← BlsPublicKey.ofBytes trace.proposerPubkey
  let proposerFeeRecipient ← .ofExcept (Address.tryFrom trace.proposerFeeRecipient)
  return {
    slot := trace.slot
    parentHash
    blockHash
    builderPubkey
    proposerPubkey
    proposerFeeRecipient
    gasLimit := trace.gasLimit
    gasUsed := trace.gasUsed
    value }

/-- A withdrawal.  The validator index is taken from the amount. -/
def Withdrawal.tryFrom (withdrawal : Gen.Withdrawal) : Except ConversionError Withdrawal := do
  let address ← Address.tryFrom withdrawal.address
  return {
    index := withdrawal.index
    validatorIndex := withdrawal.amount
    address
    amount := withdrawal.amount }

def BlobsBundle.tryFrom (bundle : Gen.BlobsBundle) : Except ConversionError BlobsBundle := do
  let commitments ← bundle.commitments.mapM Bytes48.tryFrom
  let proofs ← bundle.proofs.mapM fun proof => orSszTypes (KzgCommitment.mk <$> FixedVector.new proof)
  let blobs ← bundle.blobs.mapM fun blob =>
    orSszTypes (FixedVector.unchecked <$> FixedVector.new blob)
  return {
    commitments
    proofs := ← orSszTypes (VariableList.unchecked <$> VariableList.new proofs)
    blobs := ← orSszTypes (VariableList.unchecked <$> VariableList.new blobs) }

/-- An execution payload.  The bloom is resized, and the extra data and each
transaction are truncated to fit; every other length is checked. -/
def ExecutionPayload.tryFrom (payload : Gen.ExecutionPayload) :
    Except ConversionError ExecutionPayload := do
  let withdrawals ← payload.withdrawals.mapM Withdrawal.tryFrom
  return {
    parentHash := ← B256.tryFrom payload.parentHash
    feeRecipient := ← Address.tryFrom payload.feeRecipient
    stateRoot := ← B256.tryFrom payload.stateRoot
    receiptsRoot := ← B256.tryFrom payload.receiptsRoot
    logsBloom := FixedVector.resize 0 payload.logsBloom
    prevRandao := ← B256.tryFrom payload.prevRandao
    blockNumber := payload.blockNumber
    gasLimit := payload.gasLimit
    gasUsed := payload.gasUsed
    timestamp := payload.timestamp
    extraData := VariableList.truncate payload.extraData
    baseFeePerGas := ← U256.tryFrom payload.baseFeePerGas
    blockHash := ← B256.tryFrom payload.blockHash
    transactions := ← orSszTypes (VariableList.new
      (payload.transactions.map fun transaction => VariableList.truncate transaction.rawData))
    withdrawals := ← orSszTypes (VariableList.unchecked <$> VariableList.new withdrawals)
    blobGasUsed := payload.blobGasUsed
    excessBlobGas := payload.excessBlobGas }

end MevRelay
