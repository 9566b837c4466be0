import MevRelay.Primitives.Types
import MevRelay.Ssz.Decoding

/-!
# Encodings of payloads

The bytes that payloads are published as.  Hashes, numbers and addresses
declare their lengths by hand.
-/

namespace MevRelay

open Ssz

instance : Encode B256 where
  isSszFixedLen := true
  sszFixedLen := 32
  sszBytesLen _ := 32
  sszAppend hash := hash.bytes.toList

instance : Encode U256 where
  isSszFixedLen := true
  sszFixedLen := 32
  sszBytesLen _ := 32
  sszAppend number := littleEndian 32 number.toNat

instance : Encode Address where
  isSszFixedLen := true
  sszFixedLen := 20
  sszBytesLen _ := 20
  sszAppend address := address.bytes.toList

def Withdrawal.fields : List (Encode Withdrawal) :=
  [.field (·.index), .field (·.validatorIndex), .field (·.address), .field (·.amount)]

instance : Encode Withdrawal := .container Withdrawal.fields

def ExecutionPayload.fields : List (Encode ExecutionPayload) :=
  [.field (·.parentHash), .field (·.feeRecipient), .field (·.stateRoot),
    .field (·.receiptsRoot), .field (·.logsBloom), .field (·.prevRandao),
    .field (·.blockNumber), .field (·.gasLimit), .field (·.gasUsed), .field (·.timestamp),
    .field (·.extraData), .field (·.baseFeePerGas), .field (·.blockHash),
    .field (·.transactions), .field (·.withdrawals), .field (·.blobGasUsed),
    .field (·.excessBlobGas)]

instance : Encode ExecutionPayload := .container ExecutionPayload.fields

instance : Decode B256 where
  lengthsHold :=
    { length_of_fixed := fun _ hash _ => hash.bytes.length_eq
      fixedLen_of_variable := fun variable_ => Bool.noConfusion variable_
      fixedLen_pos := Nat.succ_pos 31
      bytesLen_eq := fun hash _ => hash.bytes.length_eq.symm }
  fromSszBytes bytes := B256.mk <$> FixedVector.new bytes
  fromSszBytes_append hash _ := by simp [sszAppend]

instance : Decode Address where
  lengthsHold :=
    { length_of_fixed := fun _ address _ => address.bytes.length_eq
      fixedLen_of_variable := fun variable_ => Bool.noConfusion variable_
      fixedLen_pos := Nat.succ_pos 19
      bytesLen_eq := fun address _ => address.bytes.length_eq.symm }
  fromSszBytes bytes := Address.mk <$> FixedVector.new bytes
  fromSszBytes_append address _ := by simp [sszAppend]

instance : Decode U256 where
  lengthsHold :=
    { length_of_fixed := fun _ _ _ => length_littleEndian _ _
      fixedLen_of_variable := fun variable_ => Bool.noConfusion variable_
      fixedLen_pos := Nat.succ_pos 31
      bytesLen_eq := fun _ _ => (length_littleEndian _ _).symm }
  fromSszBytes bytes :=
    if bytes.length = 32 then some (BitVec.ofNat 256 (readLittleEndian bytes)) else none
  fromSszBytes_append number _ := by
    have within : number.toNat % 256 ^ 32 = number.toNat := Nat.mod_eq_of_lt number.isLt
    simp only [sszAppend, length_littleEndian, if_true, readLittleEndian_littleEndian, within,
      BitVec.ofNat_toNat, BitVec.setWidth_eq]

/-- A withdrawal from the bytes of its fields. -/
def Withdrawal.ofFields : List (List UInt8) → Option Withdrawal
  | [index, validatorIndex, address, amount] => do
      return {
        index := ← fromSszBytes index
        validatorIndex := ← fromSszBytes validatorIndex
        address := ← fromSszBytes address
        amount := ← fromSszBytes amount }
  | _ => none

theorem Withdrawal.lengthsHold_fields :
    ∀ field ∈ Withdrawal.fields, field.LengthsHold fun _ => True := by
  simp [Withdrawal.fields, Encode.LengthsHold.decoded]

instance : Decode Withdrawal :=
  .container Withdrawal.lengthsHold_fields (List.cons_ne_nil _ _) Withdrawal.ofFields <| by
    intro withdrawal short
    simp only [Withdrawal.fields, List.forall_mem_cons] at short
    simp only [Withdrawal.fields, Withdrawal.ofFields, List.map_cons, List.map_nil,
      fromSszBytes_field, short, Option.bind_eq_bind, Option.bind_some, Option.pure_def]

/-- A payload from the bytes of its fields. -/
def ExecutionPayload.ofFields : List (List UInt8) → Option ExecutionPayload
  | [parentHash, feeRecipient, stateRoot, receiptsRoot, logsBloom, prevRandao, blockNumber,
      gasLimit, gasUsed, timestamp, extraData, baseFeePerGas, blockHash, transactions,
      withdrawals, blobGasUsed, excessBlobGas] => do
      return {
        parentHash := ← fromSszBytes parentHash
        feeRecipient := ← fromSszBytes feeRecipient
        stateRoot := ← fromSszBytes stateRoot
        receiptsRoot := ← fromSszBytes receiptsRoot
        logsBloom := ← fromSszBytes logsBloom
        prevRandao := ← fromSszBytes prevRandao
        blockNumber := ← fromSszBytes blockNumber
        gasLimit := ← fromSszBytes gasLimit
        gasUsed := ← fromSszBytes gasUsed
        timestamp := ← fromSszBytes timestamp
        extraData := ← fromSszBytes extraData
        baseFeePerGas := ← fromSszBytes baseFeePerGas
        blockHash := ← fromSszBytes blockHash
        transactions := ← fromSszBytes transactions
        withdrawals := ← fromSszBytes withdrawals
        blobGasUsed := ← fromSszBytes blobGasUsed
        excessBlobGas := ← fromSszBytes excessBlobGas }
  | _ => none

theorem ExecutionPayload.lengthsHold_fields :
    ∀ field ∈ ExecutionPayload.fields, field.LengthsHold fun _ => True := by
  simp [ExecutionPayload.fields, Encode.LengthsHold.decoded]

instance : Decode ExecutionPayload :=
  .container ExecutionPayload.lengthsHold_fields (List.cons_ne_nil _ _)
    ExecutionPayload.ofFields <| by
      intro payload short
      simp only [ExecutionPayload.fields, List.forall_mem_cons] at short
      simp only [ExecutionPayload.fields, ExecutionPayload.ofFields, List.map_cons, List.map_nil,
        fromSszBytes_field, short, Option.bind_eq_bind, Option.bind_some, Option.pure_def]

theorem length_withdrawal (withdrawal : Withdrawal) : (asSszBytes withdrawal).length = 44 :=
  (Decode.lengthsHold : (Encode.container Withdrawal.fields).LengthsHold _).length_of_fixed rfl
    withdrawal trivial

/-- A short encoding of a payload is that of no other payload: every field is
read back from it, and withdrawals stand in it at every 44 bytes. -/
theorem payload_encoding_unambiguous :
    (∀ first second : ExecutionPayload, (asSszBytes first).length < 2 ^ 32 →
      (asSszBytes second).length < 2 ^ 32 → asSszBytes first = asSszBytes second →
        first = second) ∧
    (∀ payload : ExecutionPayload, (asSszBytes payload).length < 2 ^ 32 →
      fromSszBytes (asSszBytes payload) = some payload) ∧
    ∀ withdrawal : Withdrawal, (asSszBytes withdrawal).length = 44 := by
  refine ⟨?injective, ?readBack, length_withdrawal⟩
  case injective =>
    intro first second short _ same
    exact asSszBytes_injective short same
  case readBack =>
    intro payload short
    exact fromSszBytes_append payload short

namespace Demo

/-- A payload with extra data, an empty transaction among others, and two withdrawals. -/
def filledPayload : ExecutionPayload where
  parentHash := ⟨.replicate 1⟩
  feeRecipient := ⟨.replicate 2⟩
  stateRoot := ⟨.replicate 3⟩
  receiptsRoot := ⟨.replicate 4⟩
  logsBloom := .replicate 5
  prevRandao := ⟨.replicate 6⟩
  blockNumber := 7
  gasLimit := 30000000
  gasUsed := 42000
  timestamp := 1700000000
  extraData := ⟨[8, 9], by decide⟩
  baseFeePerGas := 2 ^ 200
  blockHash := ⟨.replicate 10⟩
  transactions := ⟨[⟨[2, 11], by decide⟩, .empty, ⟨[2, 12, 13], by decide⟩], by decide⟩
  withdrawals := ⟨[⟨0, 14, ⟨.replicate 15⟩, 16⟩, ⟨1, 17, ⟨.replicate 18⟩, 19⟩]⟩
  blobGasUsed := 131072
  excessBlobGas := 0

/-- The payload with a byte of its first transaction moved to the next one. -/
def regroupedPayload : ExecutionPayload :=
  { filledPayload with
    transactions := ⟨[⟨[2], by decide⟩, ⟨[11], by decide⟩, ⟨[2, 12, 13], by decide⟩], by decide⟩ }

end Demo

theorem filledPayload_read_back :
    fromSszBytes (asSszBytes Demo.filledPayload) = some Demo.filledPayload ∧
    (asSszBytes Demo.filledPayload).length = (asSszBytes Demo.regroupedPayload).length ∧
    asSszBytes Demo.filledPayload ≠ asSszBytes Demo.regroupedPayload := by
  have filled : (asSszBytes Demo.filledPayload).length = 635 := by decide +kernel
  have regrouped : (asSszBytes Demo.regroupedPayload).length = 635 := by decide +kernel
  have short : (asSszBytes Demo.filledPayload).length < 2 ^ 32 := by rw [filled]; decide
  refine ⟨payload_encoding_unambiguous.2.1 _ short, filled.trans regrouped.symm, fun same => ?_⟩
  have equal := payload_encoding_unambiguous.1 _ _ short (same ▸ short) same
  exact absurd equal (by decide +kernel)

end MevRelay
