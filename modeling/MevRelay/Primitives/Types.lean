import MevRelay.Outcome
import MevRelay.Primitives.TreeHash

/-!
# Execution-layer types

Payloads, their headers and blobs, and the errors of converting bytes to them.
-/

namespace MevRelay

open Ssz

abbrev U256 := BitVec 256

structure Address where
  bytes : FixedVector UInt8 20
  deriving DecidableEq

/-- A commitment or proof as it travels in JSON. -/
structure Bytes48 where
  bytes : FixedVector UInt8 48
  deriving DecidableEq

structure KzgCommitment where
  bytes : FixedVector UInt8 48
  deriving DecidableEq

abbrev Blob := UncheckedVector UInt8 131072

/-- Errors that can occur while converting grpc types to relay types. -/
inductive ConversionError where
  | incorrectLength (dataType : String) (expected actual : Nat)
  | parseError (dataType value : String)
  | sszTypes
  deriving DecidableEq

def ConversionError.toString : ConversionError → String
  | .incorrectLength dataType expected actual =>
      s!"{dataType} length mismatch: expected {expected}, got {actual}"
  | .parseError dataType value => s!"Failed to parse {dataType} from provided value: {value}"
  | .sszTypes => "Failed to parse ssz types"

/-- Bytes of one exact length; the error names the type and both lengths. -/
def exactBytes (dataType : String) (expected : Nat) (bytes : List UInt8) :
    Except ConversionError (FixedVector UInt8 expected) :=
  if exactly : bytes.length = expected then .ok ⟨bytes, exactly⟩
  else .error (.incorrectLength dataType expected bytes.length)

def B256.tryFrom (bytes : List UInt8) : Except ConversionError B256 :=
  B256.mk <$> exactBytes "HASH" 32 bytes

def Address.tryFrom (bytes : List UInt8) : Except ConversionError Address :=
  Address.mk <$> exactBytes "Address" 20 bytes

def Bytes48.tryFrom (bytes : List UInt8) : Except ConversionError Bytes48 :=
  Bytes48.mk <$> exactBytes "Bytes48" 48 bytes

/-- A number from its 32 bytes, most significant first. -/
def U256.tryFrom (bytes : List UInt8) : Except ConversionError U256 := do
  let exactly ← exactBytes "U256" 32 bytes
  return BitVec.ofNat 256 (exactly.toList.foldl (fun number byte => 256 * number + byte.toNat) 0)

def Bytes48.asKzgCommitment (bytes48 : Bytes48) : KzgCommitment := ⟨bytes48.bytes⟩

structure Withdrawal where
  index : UInt64
  validatorIndex : UInt64
  address : Address
  amount : UInt64
  deriving DecidableEq

/-- The transactions of a payload, as raw bytes.  Their decoders check both bounds. -/
abbrev Transactions := VariableList (VariableList UInt8 1073741824) 1048576

/-- An execution payload.  JSON is read into it without a look at the number of
withdrawals; all other lengths are checked. -/
structure ExecutionPayload where
  parentHash : B256
  feeRecipient : Address
  stateRoot : B256
  receiptsRoot : B256
  logsBloom : FixedVector UInt8 256
  prevRandao : B256
  blockNumber : UInt64
  gasLimit : UInt64
  gasUsed : UInt64
  timestamp : UInt64
  extraData : VariableList UInt8 32
  baseFeePerGas : U256
  blockHash : B256
  transactions : Transactions
  withdrawals : UncheckedList Withdrawal 16
  blobGasUsed : UInt64
  excessBlobGas : UInt64
  deriving DecidableEq

structure ExecutionPayloadHeader where
  parentHash : B256
  feeRecipient : Address
  stateRoot : B256
  receiptsRoot : B256
  logsBloom : FixedVector UInt8 256
  prevRandao : B256
  blockNumber : UInt64
  gasLimit : UInt64
  gasUsed : UInt64
  timestamp : UInt64
  extraData : VariableList UInt8 32
  baseFeePerGas : U256
  blockHash : B256
  transactionsRoot : B256
  withdrawalsRoot : B256
  blobGasUsed : UInt64
  excessBlobGas : UInt64
  deriving DecidableEq

/-- Blobs as they come with a bid.  No length in it is checked when it is read from JSON. -/
structure BlobsBundle where
  commitments : List Bytes48
  proofs : UncheckedList KzgCommitment 4096
  blobs : UncheckedList Blob 4096
  deriving DecidableEq

/-- Proofs, blobs and each single blob have the lengths that their types declare. -/
structure BlobsBundle.Fits (bundle : BlobsBundle) : Prop where
  proofs : bundle.proofs.Fits
  blobs : bundle.blobs.Fits
  each : ∀ blob ∈ bundle.blobs.toList, blob.Fits

/-- The execution payload and blobs that unblind a block. -/
structure BlindedBlockResponse where
  executionPayload : ExecutionPayload
  blobsBundle : BlobsBundle
  deriving DecidableEq

variable [Crates]

instance : TreeHash U256 where
  packed := some (fun number => littleEndian 32 number.toNat, 1)
  treeHashRoot number := B256.ofList (littleEndian 32 number.toNat)

instance : TreeHash Address where
  packed := none
  treeHashRoot address := B256.ofList address.bytes.toList

instance : TreeHash KzgCommitment :=
  .byteVector 48 fun commitment => commitment.bytes.toList

instance : TreeHash Withdrawal :=
  .container fun withdrawal =>
    [treeHashRoot withdrawal.index, treeHashRoot withdrawal.validatorIndex,
      treeHashRoot withdrawal.address, treeHashRoot withdrawal.amount]

instance : TreeHash ExecutionPayload :=
  .container fun payload =>
    [treeHashRoot payload.parentHash, treeHashRoot payload.feeRecipient,
      treeHashRoot payload.stateRoot, treeHashRoot payload.receiptsRoot,
      treeHashRoot payload.logsBloom, treeHashRoot payload.prevRandao,
      treeHashRoot payload.blockNumber, treeHashRoot payload.gasLimit,
      treeHashRoot payload.gasUsed, treeHashRoot payload.timestamp,
      treeHashRoot payload.extraData, treeHashRoot payload.baseFeePerGas,
      treeHashRoot payload.blockHash, treeHashRoot payload.transactions,
      treeHashRoot payload.withdrawals, treeHashRoot payload.blobGasUsed,
      treeHashRoot payload.excessBlobGas]

instance : TreeHash ExecutionPayloadHeader :=
  .container fun header =>
    [treeHashRoot header.parentHash, treeHashRoot header.feeRecipient,
      treeHashRoot header.stateRoot, treeHashRoot header.receiptsRoot,
      treeHashRoot header.logsBloom, treeHashRoot header.prevRandao,
      treeHashRoot header.blockNumber, treeHashRoot header.gasLimit,
      treeHashRoot header.gasUsed, treeHashRoot header.timestamp,
      treeHashRoot header.extraData, treeHashRoot header.baseFeePerGas,
      treeHashRoot header.blockHash, treeHashRoot header.transactionsRoot,
      treeHashRoot header.withdrawalsRoot, treeHashRoot header.blobGasUsed,
      treeHashRoot header.excessBlobGas]

/-- The values of a payload's header: transactions and withdrawals become their roots. -/
def ExecutionPayloadHeader.ofPayload (payload : ExecutionPayload) : ExecutionPayloadHeader where
  parentHash := payload.parentHash
  feeRecipient := payload.feeRecipient
  stateRoot := payload.stateRoot
  receiptsRoot := payload.receiptsRoot
  logsBloom := payload.logsBloom
  prevRandao := payload.prevRandao
  blockNumber := payload.blockNumber
  gasLimit := payload.gasLimit
  gasUsed := payload.gasUsed
  timestamp := payload.timestamp
  extraData := payload.extraData
  baseFeePerGas := payload.baseFeePerGas
  blockHash := payload.blockHash
  transactionsRoot := treeHashRoot payload.transactions
  withdrawalsRoot := treeHashRoot payload.withdrawals
  blobGasUsed := payload.blobGasUsed
  excessBlobGas := payload.excessBlobGas

omit [Crates] in
/-- Set up for 16 withdrawals, a hasher takes 49. -/
theorem ExecutionPayload.hashable_iff {payload : ExecutionPayload} :
    payload.withdrawals.Hashable ↔ payload.withdrawals.toList.length ≤ 49 := by
  rw [UncheckedList.Hashable, show maximumLeaves 16 = 49 by decide +kernel]

/-- The header of a payload; one more withdrawal than the hasher takes is a panic. -/
def ExecutionPayload.toHeader {Error : Type} (payload : ExecutionPayload) :
    Outcome Error ExecutionPayloadHeader :=
  if payload.withdrawals.Hashable then .ok (.ofPayload payload) else .panicked

theorem ExecutionPayload.toHeader_eq_ok {Error : Type} {payload : ExecutionPayload}
    {header : ExecutionPayloadHeader} :
    (payload.toHeader : Outcome Error ExecutionPayloadHeader) = .ok header ↔
      payload.withdrawals.Hashable ∧ ExecutionPayloadHeader.ofPayload payload = header := by
  unfold toHeader
  split <;> simp_all

/-- The payload has a header, and it is this one. -/
def ExecutionPayload.HasHeader (payload : ExecutionPayload) (header : ExecutionPayloadHeader) :
    Prop :=
  (payload.toHeader : Outcome Unit ExecutionPayloadHeader) = .ok header

instance (payload : ExecutionPayload) (header : ExecutionPayloadHeader) :
    Decidable (payload.HasHeader header) :=
  inferInstanceAs (Decidable (_ = _))

theorem ExecutionPayload.hasHeader_iff {payload : ExecutionPayload}
    {header : ExecutionPayloadHeader} :
    payload.HasHeader header ↔
      payload.withdrawals.Hashable ∧ ExecutionPayloadHeader.ofPayload payload = header :=
  toHeader_eq_ok

end MevRelay
