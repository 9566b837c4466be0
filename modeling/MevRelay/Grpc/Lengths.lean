import MevRelay.Grpc.Wire

/-!
# Lengths on the wire

Which payloads the conversion accepts, and which of their bytes it keeps.
-/

namespace MevRelay

open Ssz

/-- The lengths that the conversion checks. -/
structure CheckedLengths (wire : Gen.ExecutionPayload) : Prop where
  parentHash : wire.parentHash.length = 32
  feeRecipient : wire.feeRecipient.length = 20
  stateRoot : wire.stateRoot.length = 32
  receiptsRoot : wire.receiptsRoot.length = 32
  prevRandao : wire.prevRandao.length = 32
  baseFeePerGas : wire.baseFeePerGas.length = 32
  blockHash : wire.blockHash.length = 32
  transactions : wire.transactions.length ≤ 1048576
  withdrawals : wire.withdrawals.length ≤ 16
  addresses : ∀ withdrawal ∈ wire.withdrawals, withdrawal.address.length = 20

/-- The lengths that it makes fit where they do not. -/
structure FittingLengths (wire : Gen.ExecutionPayload) : Prop where
  logsBloom : wire.logsBloom.length = 256
  extraData : wire.extraData.length ≤ 32
  rawData : ∀ transaction ∈ wire.transactions, transaction.rawData.length ≤ 1073741824

/-- All lengths of a payload are as its type demands. -/
structure WellFormed (wire : Gen.ExecutionPayload) : Prop where
  checked : CheckedLengths wire
  fitting : FittingLengths wire

/-- Every byte string of a payload, in the order of the fields. -/
def Gen.ExecutionPayload.byteStrings (wire : Gen.ExecutionPayload) : List (List UInt8) :=
  [wire.parentHash, wire.feeRecipient, wire.stateRoot, wire.receiptsRoot, wire.logsBloom,
    wire.prevRandao, wire.extraData, wire.baseFeePerGas, wire.blockHash] ++
  wire.transactions.map Gen.CompressTx.rawData ++ wire.withdrawals.map Gen.Withdrawal.address

/-- What the conversion reads of a payload. -/
def Gen.ExecutionPayload.fitted (wire : Gen.ExecutionPayload) : Gen.ExecutionPayload :=
  { wire with
    logsBloom := (FixedVector.resize 0 wire.logsBloom : FixedVector UInt8 256).toList
    extraData := wire.extraData.take 32
    transactions := wire.transactions.map fun transaction =>
      ⟨transaction.rawData.take 1073741824⟩
    withdrawals := wire.withdrawals.map fun withdrawal =>
      { withdrawal with validatorIndex := withdrawal.amount } }

section Leaves

theorem exactBytes_eq_ok {dataType : String} {expected : Nat} {bytes : List UInt8}
    {exactly : FixedVector UInt8 expected} :
    exactBytes dataType expected bytes = .ok exactly ↔ exactly.toList = bytes := by
  constructor
  · intro made
    simp only [exactBytes] at made
    split at made
    · cases made
      rfl
    · cases made
  · rintro rfl
    exact exactBytes_toList dataType exactly

theorem B256.tryFrom_eq_ok {bytes : List UInt8} {hash : B256} :
    B256.tryFrom bytes = .ok hash ↔ hash.bytes.toList = bytes := by
  constructor
  · intro made
    rw [tryFrom, except_map_eq_ok] at made
    obtain ⟨exactly, found, rfl⟩ := made
    exact exactBytes_eq_ok.mp found
  · rintro rfl
    exact tryFrom_toList hash

theorem Address.tryFrom_eq_ok {bytes : List UInt8} {address : Address} :
    Address.tryFrom bytes = .ok address ↔ address.bytes.toList = bytes := by
  constructor
  · intro made
    rw [tryFrom, except_map_eq_ok] at made
    obtain ⟨exactly, found, rfl⟩ := made
    exact exactBytes_eq_ok.mp found
  · rintro rfl
    exact tryFrom_toList address

theorem U256.tryFrom_eq_ok {bytes : List UInt8} {number : U256} :
    U256.tryFrom bytes = .ok number ↔ number.toWire = bytes := by
  constructor
  · intro made
    rw [tryFrom, except_bind_eq_ok] at made
    obtain ⟨exactly, found, same⟩ := made
    cases same
    rw [← exactBytes_eq_ok.mp found]
    have length : exactly.toList.reverse.length = 32 := by simp [exactly.length_eq]
    have digits := littleEndian_foldr exactly.toList.reverse
    have bounded := foldr_lt_pow exactly.toList.reverse
    rw [length, List.foldr_reverse] at digits bounded
    have fits : exactly.toList.foldl (fun number byte => 256 * number + byte.toNat) 0 < 2 ^ 256 :=
      lt_of_lt_of_eq bounded (by decide)
    rw [toWire, BitVec.toNat_ofNat, Nat.mod_eq_of_lt fits, digits, List.reverse_reverse]
  · rintro rfl
    exact tryFrom_toWire number

theorem U256.length_toWire (number : U256) : number.toWire.length = 32 := by
  simp [toWire]

theorem U256.tryFrom_succeeds {bytes : List UInt8} (length : bytes.length = 32) :
    ∃ number, U256.tryFrom bytes = .ok number := by
  have exactly : exactBytes "U256" 32 bytes = .ok ⟨bytes, length⟩ := exactBytes_eq_ok.mpr rfl
  exact ⟨_, by rw [tryFrom, exactly]; rfl⟩

theorem Withdrawal.toWire_of_tryFrom {wire : Gen.Withdrawal} {withdrawal : Withdrawal}
    (made : Withdrawal.tryFrom wire = .ok withdrawal) :
    withdrawal.toWire = { wire with validatorIndex := wire.amount } := by
  rw [tryFrom, except_bind_eq_ok] at made
  obtain ⟨address, found, same⟩ := made
  cases same
  rw [toWire, Address.tryFrom_eq_ok.mp found]

/-- Conversions element by element succeed together, and each undoes an encoding. -/
theorem map_of_mapM {Element Wire : Type} {convert : Wire → Except ConversionError Element}
    {encode : Element → Wire} {read : Wire → Wire}
    (elements : ∀ wire element, convert wire = .ok element → encode element = read wire)
    {wires : List Wire} {list : List Element} (made : wires.mapM convert = .ok list) :
    list.map encode = wires.map read := by
  induction wires generalizing list with
  | nil =>
      cases made
      rfl
  | cons wire wires inductionHypothesis =>
      rw [List.mapM_cons, except_bind_eq_ok] at made
      obtain ⟨element, first, rest⟩ := made
      rw [except_bind_eq_ok] at rest
      obtain ⟨others, later, same⟩ := rest
      cases same
      rw [List.map_cons, List.map_cons, elements wire element first, inductionHypothesis later]

theorem mapM_succeeds {Element Wire : Type} {convert : Wire → Except ConversionError Element}
    {wires : List Wire} (elements : ∀ wire ∈ wires, ∃ element, convert wire = .ok element) :
    ∃ list, wires.mapM convert = .ok list ∧ list.length = wires.length := by
  induction wires with
  | nil => exact ⟨[], rfl, rfl⟩
  | cons wire wires inductionHypothesis =>
      obtain ⟨element, first⟩ := elements wire List.mem_cons_self
      obtain ⟨list, rest, length⟩ := inductionHypothesis fun wire membership =>
        elements wire (List.mem_cons_of_mem _ membership)
      refine ⟨element :: list, ?_, by simp [length]⟩
      rw [List.mapM_cons, first, rest]
      rfl

end Leaves

/-- An accepted payload carries what the conversion reads. -/
theorem ExecutionPayload.toWire_of_tryFrom {wire : Gen.ExecutionPayload}
    {payload : ExecutionPayload} (made : ExecutionPayload.tryFrom wire = .ok payload) :
    payload.toWire = wire.fitted := by
  simp only [tryFrom, except_bind_eq_ok, orSszTypes_eq_ok] at made
  obtain ⟨withdrawals, addressed, parentHash, isParentHash, feeRecipient, isFeeRecipient,
    stateRoot, isStateRoot, receiptsRoot, isReceiptsRoot, prevRandao, isPrevRandao, baseFeePerGas,
    isBaseFeePerGas, blockHash, isBlockHash, transactions, isTransactions, bounded, isBounded,
    same⟩ := made
  cases same
  have addresses := map_of_mapM (fun _ _ => Withdrawal.toWire_of_tryFrom) addressed
  have rawData : transactions.toList.map (fun transaction => (⟨transaction.toList⟩ : Gen.CompressTx)) =
      wire.transactions.map fun transaction => ⟨transaction.rawData.take 1073741824⟩ := by
    rw [VariableList.toList_of_new isTransactions, List.map_map]
    rfl
  rw [← (unchecked_new_eq_some.mp isBounded).1] at addresses
  simp only [toWire, Gen.ExecutionPayload.fitted, B256.tryFrom_eq_ok.mp isParentHash,
    Address.tryFrom_eq_ok.mp isFeeRecipient, B256.tryFrom_eq_ok.mp isStateRoot,
    B256.tryFrom_eq_ok.mp isReceiptsRoot, B256.tryFrom_eq_ok.mp isPrevRandao,
    U256.tryFrom_eq_ok.mp isBaseFeePerGas, B256.tryFrom_eq_ok.mp isBlockHash, rawData, addresses]
  rfl

theorem length_fitted {wire : Gen.ExecutionPayload} {payload : ExecutionPayload}
    (carried : payload.toWire = wire.fitted) (field : Gen.ExecutionPayload → List UInt8)
    {length : Nat} (fixed : (field payload.toWire).length = length) :
    (field wire.fitted).length = length := by
  rwa [carried] at fixed

theorem CheckedLengths.of_toWire {wire : Gen.ExecutionPayload} {payload : ExecutionPayload}
    (carried : payload.toWire = wire.fitted) (fits : payload.withdrawals.Fits) :
    CheckedLengths wire where
  parentHash := length_fitted carried (·.parentHash) payload.parentHash.bytes.length_eq
  feeRecipient := length_fitted carried (·.feeRecipient) payload.feeRecipient.bytes.length_eq
  stateRoot := length_fitted carried (·.stateRoot) payload.stateRoot.bytes.length_eq
  receiptsRoot := length_fitted carried (·.receiptsRoot) payload.receiptsRoot.bytes.length_eq
  prevRandao := length_fitted carried (·.prevRandao) payload.prevRandao.bytes.length_eq
  baseFeePerGas := length_fitted carried (·.baseFeePerGas) payload.baseFeePerGas.length_toWire
  blockHash := length_fitted carried (·.blockHash) payload.blockHash.bytes.length_eq
  transactions := by
    have same := congrArg (fun wire : Gen.ExecutionPayload => wire.transactions.length) carried
    simp only [ExecutionPayload.toWire, Gen.ExecutionPayload.fitted, List.length_map] at same
    exact same ▸ payload.transactions.length_le
  withdrawals := by
    have same := congrArg (fun wire : Gen.ExecutionPayload => wire.withdrawals.length) carried
    simp only [ExecutionPayload.toWire, Gen.ExecutionPayload.fitted, List.length_map] at same
    exact same ▸ fits
  addresses := by
    intro withdrawal membership
    have same := congrArg Gen.ExecutionPayload.withdrawals carried
    have fitted : { withdrawal with validatorIndex := withdrawal.amount } ∈
        payload.toWire.withdrawals := by
      rw [same]
      exact List.mem_map.mpr ⟨withdrawal, membership, rfl⟩
    obtain ⟨converted, _, encoded⟩ := List.mem_map.mp fitted
    have bytes : converted.address.bytes.toList = withdrawal.address :=
      congrArg Gen.Withdrawal.address encoded
    rw [← bytes]
    exact converted.address.bytes.length_eq

/-- The conversion succeeds exactly when the lengths that it checks are right. -/
theorem ExecutionPayload.tryFrom_succeeds_iff {wire : Gen.ExecutionPayload} :
    (∃ payload, ExecutionPayload.tryFrom wire = .ok payload) ↔ CheckedLengths wire := by
  constructor
  · rintro ⟨payload, made⟩
    exact .of_toWire (toWire_of_tryFrom made) (fits_of_tryFrom made)
  · intro checked
    have hash : ∀ bytes : List UInt8, bytes.length = 32 → ∃ hash, B256.tryFrom bytes = .ok hash :=
      fun bytes length => ⟨⟨bytes, length⟩, B256.tryFrom_eq_ok.mpr rfl⟩
    have address : ∀ bytes : List UInt8, bytes.length = 20 →
        ∃ address, Address.tryFrom bytes = .ok address :=
      fun bytes length => ⟨⟨bytes, length⟩, Address.tryFrom_eq_ok.mpr rfl⟩
    obtain ⟨parentHash, isParentHash⟩ := hash _ checked.parentHash
    obtain ⟨feeRecipient, isFeeRecipient⟩ := address _ checked.feeRecipient
    obtain ⟨stateRoot, isStateRoot⟩ := hash _ checked.stateRoot
    obtain ⟨receiptsRoot, isReceiptsRoot⟩ := hash _ checked.receiptsRoot
    obtain ⟨prevRandao, isPrevRandao⟩ := hash _ checked.prevRandao
    obtain ⟨blockHash, isBlockHash⟩ := hash _ checked.blockHash
    obtain ⟨baseFeePerGas, isBaseFeePerGas⟩ := U256.tryFrom_succeeds checked.baseFeePerGas
    obtain ⟨withdrawals, addressed, count⟩ : ∃ withdrawals,
        wire.withdrawals.mapM Withdrawal.tryFrom = .ok withdrawals ∧
          withdrawals.length = wire.withdrawals.length := by
      apply mapM_succeeds
      intro withdrawal membership
      obtain ⟨converted, found⟩ := address _ (checked.addresses withdrawal membership)
      exact ⟨_, by rw [Withdrawal.tryFrom, found]; rfl⟩
    have transactions : (wire.transactions.map fun transaction =>
        (VariableList.truncate transaction.rawData : VariableList UInt8 1073741824)).length ≤
          1048576 := by simpa using checked.transactions
    have bounded : withdrawals.length ≤ 16 := count.trans_le checked.withdrawals
    simp only [tryFrom, except_bind_eq_ok, orSszTypes_eq_ok]
    exact ⟨_, withdrawals, addressed, parentHash, isParentHash, feeRecipient, isFeeRecipient,
      stateRoot, isStateRoot, receiptsRoot, isReceiptsRoot, prevRandao, isPrevRandao, baseFeePerGas,
      isBaseFeePerGas, blockHash, isBlockHash, _, VariableList.new_of_le transactions, _,
      unchecked_new_eq_some.mpr ⟨rfl, bounded⟩, rfl⟩

/-- What the conversion reads is everything exactly when all that it makes fit fits. -/
theorem Gen.ExecutionPayload.byteStrings_fitted {wire : Gen.ExecutionPayload}
    (fitting : FittingLengths wire) : wire.fitted.byteStrings = wire.byteStrings := by
  have logsBloom : (FixedVector.resize 0 wire.logsBloom : FixedVector UInt8 256).toList =
      wire.logsBloom :=
    congrArg FixedVector.toList (FixedVector.resize_toList 0 ⟨wire.logsBloom, fitting.logsBloom⟩)
  have rawData : ∀ transaction ∈ wire.transactions,
      transaction.rawData.take 1073741824 = transaction.rawData :=
    fun transaction membership => List.take_of_length_le (fitting.rawData transaction membership)
  simp only [byteStrings, fitted, logsBloom, List.take_of_length_le fitting.extraData, List.map_map]
  congr 2
  exact List.map_congr_left rawData

/-- A payload is accepted exactly when it is well formed, and accepting it
neither cuts nor pads any of its byte strings. -/
structure DecodesExactly (wire : Gen.ExecutionPayload) : Prop where
  accepts : (∃ payload, ExecutionPayload.tryFrom wire = .ok payload) ↔ WellFormed wire
  keeps : ∀ payload, ExecutionPayload.tryFrom wire = .ok payload →
    payload.toWire.byteStrings = wire.byteStrings

/-- A payload is decoded exactly if the bloom, the extra data and the
transactions fit or some length that is checked is wrong, and only then. -/
theorem decodes_exactly_iff (wire : Gen.ExecutionPayload) :
    DecodesExactly wire ↔ (CheckedLengths wire → FittingLengths wire) := by
  constructor
  · intro exactly checked
    exact (exactly.accepts.mp (ExecutionPayload.tryFrom_succeeds_iff.mpr checked)).fitting
  · intro fits
    constructor
    · rw [ExecutionPayload.tryFrom_succeeds_iff]
      exact ⟨fun checked => ⟨checked, fits checked⟩, WellFormed.checked⟩
    · intro payload made
      have checked := ExecutionPayload.tryFrom_succeeds_iff.mp ⟨payload, made⟩
      rw [ExecutionPayload.toWire_of_tryFrom made,
        Gen.ExecutionPayload.byteStrings_fitted (fits checked)]

/-- A payload with an empty bloom. -/
def bloomless : Gen.ExecutionPayload := { withdrawing.toWire with logsBloom := [] }

theorem bloomless_padded : ¬ DecodesExactly bloomless := by
  intro exactly
  have checked : CheckedLengths bloomless := by constructor <;> decide
  have wellFormed := exactly.accepts.mp (ExecutionPayload.tryFrom_succeeds_iff.mpr checked)
  exact absurd wellFormed.fitting.logsBloom (by decide)

end MevRelay
