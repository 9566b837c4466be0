import MevRelay.Grpc.Gen

/-!
# Payloads on the wire

The messages that carry a payload and a bundle of blobs field by field, and
what the conversions make of them.
-/

namespace MevRelay

open Ssz

/-- The 32 bytes of a number, most significant first. -/
def U256.toWire (number : U256) : List UInt8 := (littleEndian 32 number.toNat).reverse

def Withdrawal.toWire (withdrawal : Withdrawal) : Gen.Withdrawal where
  index := withdrawal.index
  validatorIndex := withdrawal.validatorIndex
  address := withdrawal.address.bytes.toList
  amount := withdrawal.amount

def BlobsBundle.toWire (bundle : BlobsBundle) : Gen.BlobsBundle where
  commitments := bundle.commitments.map fun commitment => commitment.bytes.toList
  proofs := bundle.proofs.toList.map fun proof => proof.bytes.toList
  blobs := bundle.blobs.toList.map UncheckedVector.toList

def ExecutionPayload.toWire (payload : ExecutionPayload) : Gen.ExecutionPayload where
  parentHash := payload.parentHash.bytes.toList
  stateRoot := payload.stateRoot.bytes.toList
  receiptsRoot := payload.receiptsRoot.bytes.toList
  logsBloom := payload.logsBloom.toList
  prevRandao := payload.prevRandao.bytes.toList
  extraData := payload.extraData.toList
  baseFeePerGas := payload.baseFeePerGas.toWire
  feeRecipient := payload.feeRecipient.bytes.toList
  blockHash := payload.blockHash.bytes.toList
  transactions := payload.transactions.toList.map fun transaction => ⟨transaction.toList⟩
  withdrawals := payload.withdrawals.toList.map Withdrawal.toWire
  blockNumber := payload.blockNumber
  gasLimit := payload.gasLimit
  timestamp := payload.timestamp
  gasUsed := payload.gasUsed
  blobGasUsed := payload.blobGasUsed
  excessBlobGas := payload.excessBlobGas

section Leaves

@[simp]
theorem exactBytes_toList (dataType : String) {expected : Nat}
    (bytes : FixedVector UInt8 expected) :
    exactBytes dataType expected bytes.toList = .ok bytes := by
  simp [exactBytes, bytes.length_eq]

@[simp]
theorem B256.tryFrom_toList (hash : B256) : B256.tryFrom hash.bytes.toList = .ok hash := by
  simp [tryFrom]

@[simp]
theorem Address.tryFrom_toList (address : Address) :
    Address.tryFrom address.bytes.toList = .ok address := by
  simp [tryFrom]

@[simp]
theorem Bytes48.tryFrom_toList (bytes48 : Bytes48) :
    Bytes48.tryFrom bytes48.bytes.toList = .ok bytes48 := by
  simp [tryFrom]

@[simp]
theorem U256.tryFrom_toWire (number : U256) : U256.tryFrom number.toWire = .ok number := by
  have exactly : number.toWire.length = 32 := by simp [toWire]
  have bounded : number.toNat < 256 ^ 32 := lt_of_lt_of_eq number.isLt (by decide)
  have digits : number.toWire.foldl (fun number byte => 256 * number + byte.toNat) 0 =
      number.toNat := by
    rw [toWire, List.foldl_reverse, foldr_littleEndian, Nat.mod_eq_of_lt bounded]
  simp [tryFrom, exactBytes, exactly, digits]

@[simp]
theorem orSszTypes_some {Value : Type} (value : Value) : orSszTypes (some value) = .ok value := rfl

theorem orSszTypes_eq_ok {Value : Type} {result : Option Value} {value : Value} :
    orSszTypes result = .ok value ↔ result = some value := by
  cases result <;> simp [orSszTypes]

/-- A list passes `new` exactly if it has no more elements than its type declares. -/
theorem unchecked_new_eq_some {Element : Type} {maximum : Nat} {elements : List Element}
    {list : UncheckedList Element maximum} :
    (VariableList.unchecked <$> VariableList.new elements) = some list ↔
      list.toList = elements ∧ list.Fits := by
  constructor
  · intro made
    obtain ⟨checked, found, rfl⟩ := Option.map_eq_some_iff.mp made
    exact ⟨VariableList.toList_of_new found, checked.fits_unchecked⟩
  · rintro ⟨rfl, fits⟩
    exact Option.map_eq_some_iff.mpr ⟨⟨list.toList, fits⟩, VariableList.new_of_le fits, rfl⟩

/-- A vector passes `new` exactly if it has the length that its type declares. -/
theorem unchecked_newVector_eq_some {Element : Type} {capacity : Nat} {elements : List Element}
    {vector : UncheckedVector Element capacity} :
    (FixedVector.unchecked <$> FixedVector.new elements) = some vector ↔
      vector.toList = elements ∧ vector.Fits := by
  constructor
  · intro made
    obtain ⟨checked, found, rfl⟩ := Option.map_eq_some_iff.mp made
    exact ⟨FixedVector.toList_of_new found, checked.fits_unchecked⟩
  · rintro ⟨rfl, fits⟩
    exact Option.map_eq_some_iff.mpr
      ⟨⟨vector.toList, fits⟩, FixedVector.new_toList ⟨vector.toList, fits⟩, rfl⟩

/-- Element by element, a list converts to the list of its conversions. -/
theorem mapM_of_elements {Element Wire Value : Type} {convert : Wire → Except ConversionError Value}
    {encode : Element → Wire} {decoded : Element → Value} {list : List Element}
    (elements : ∀ element ∈ list, convert (encode element) = .ok (decoded element)) :
    (list.map encode).mapM convert = .ok (list.map decoded) := by
  induction list with
  | nil => rfl
  | cons element list inductionHypothesis =>
      rw [List.forall_mem_cons] at elements
      rw [List.map_cons, List.mapM_cons, elements.1, inductionHypothesis elements.2]
      rfl

/-- Each element of a converted list was converted. -/
theorem mem_of_mapM {Wire Value : Type} {convert : Wire → Except ConversionError Value}
    {wires : List Wire} {list : List Value} (made : wires.mapM convert = .ok list) :
    ∀ value ∈ list, ∃ wire, convert wire = .ok value := by
  induction wires generalizing list with
  | nil =>
      cases made
      exact fun value among => absurd among List.not_mem_nil
  | cons wire wires inductionHypothesis =>
      rw [List.mapM_cons, except_bind_eq_ok] at made
      obtain ⟨first, converted, rest⟩ := made
      rw [except_bind_eq_ok] at rest
      obtain ⟨others, later, same⟩ := rest
      cases same
      exact List.forall_mem_cons.mpr ⟨⟨wire, converted⟩, inductionHypothesis later⟩

end Leaves

/-- A withdrawal as it arrives: its validator index is its amount. -/
def Withdrawal.arriving (withdrawal : Withdrawal) : Withdrawal :=
  { withdrawal with validatorIndex := withdrawal.amount }

theorem Withdrawal.arriving_eq_iff {withdrawal : Withdrawal} :
    withdrawal.arriving = withdrawal ↔ withdrawal.validatorIndex = withdrawal.amount := by
  obtain ⟨index, validatorIndex, address, amount⟩ := withdrawal
  simp [arriving, eq_comm]

theorem Withdrawal.tryFrom_toWire (withdrawal : Withdrawal) :
    Withdrawal.tryFrom withdrawal.toWire = .ok withdrawal.arriving := by
  simp [tryFrom, toWire, arriving]

theorem BlobsBundle.tryFrom_toWire {bundle : BlobsBundle} (fits : bundle.Fits) :
    BlobsBundle.tryFrom bundle.toWire = .ok bundle := by
  have commitments : bundle.toWire.commitments.mapM Bytes48.tryFrom = .ok bundle.commitments :=
    (mapM_of_elements fun commitment _ => commitment.tryFrom_toList).trans (by simp)
  have proofs : bundle.toWire.proofs.mapM (fun proof =>
      orSszTypes (KzgCommitment.mk <$> FixedVector.new proof)) = .ok bundle.proofs.toList :=
    (mapM_of_elements fun proof _ => by simp; rfl).trans (by simp)
  have blobs : (bundle.blobs.toList.map UncheckedVector.toList).mapM (fun blob =>
      orSszTypes (FixedVector.unchecked <$> FixedVector.new blob)) =
        .ok (bundle.blobs.toList.map id) :=
    mapM_of_elements fun blob among => orSszTypes_eq_ok.mpr
      (unchecked_newVector_eq_some.mpr ⟨rfl, fits.each blob among⟩)
  have sameBlobs : bundle.toWire.blobs = bundle.blobs.toList.map UncheckedVector.toList := rfl
  rw [List.map_id, ← sameBlobs] at blobs
  have proofsFit : (VariableList.new bundle.proofs.toList).map VariableList.unchecked =
      some bundle.proofs := unchecked_new_eq_some.mpr ⟨rfl, fits.proofs⟩
  have blobsFit : (VariableList.new bundle.blobs.toList).map VariableList.unchecked =
      some bundle.blobs := unchecked_new_eq_some.mpr ⟨rfl, fits.blobs⟩
  simp only [tryFrom, commitments, proofs, blobs]
  simp [bind, Except.bind, pure, Except.pure, proofsFit, blobsFit]

/-- Blobs that come over the wire have the lengths that are declared for them. -/
theorem BlobsBundle.fits_of_tryFrom {wire : Gen.BlobsBundle} {bundle : BlobsBundle}
    (made : BlobsBundle.tryFrom wire = .ok bundle) : bundle.Fits := by
  simp only [tryFrom, except_bind_eq_ok, orSszTypes_eq_ok] at made
  obtain ⟨commitments, _, proofs, _, blobs, converted, checkedProofs, proofsMade, checkedBlobs,
    blobsMade, same⟩ := made
  cases same
  obtain ⟨rfl, blobsFit⟩ := unchecked_new_eq_some.mp blobsMade
  refine ⟨(unchecked_new_eq_some.mp proofsMade).2, blobsFit, fun blob among => ?_⟩
  obtain ⟨bytes, found⟩ := mem_of_mapM converted blob among
  exact (unchecked_newVector_eq_some.mp (orSszTypes_eq_ok.mp found)).2

/-- A payload as it arrives, with its withdrawals as they arrive. -/
def ExecutionPayload.arriving (payload : ExecutionPayload) : ExecutionPayload :=
  { payload with withdrawals := ⟨payload.withdrawals.toList.map Withdrawal.arriving⟩ }

theorem ExecutionPayload.tryFrom_toWire {payload : ExecutionPayload}
    (fits : payload.withdrawals.Fits) :
    ExecutionPayload.tryFrom payload.toWire = .ok payload.arriving := by
  have withdrawals : payload.toWire.withdrawals.mapM Withdrawal.tryFrom =
      .ok payload.arriving.withdrawals.toList :=
    mapM_of_elements fun withdrawal _ => withdrawal.tryFrom_toWire
  have bounded : (VariableList.new payload.arriving.withdrawals.toList).map VariableList.unchecked =
      some payload.arriving.withdrawals := by
    refine unchecked_new_eq_some.mpr ⟨rfl, ?_⟩
    rw [UncheckedList.Fits, arriving, List.length_map]
    exact fits
  have transactions : (payload.toWire.transactions.map fun transaction =>
      (VariableList.truncate transaction.rawData : VariableList UInt8 1073741824)) =
        payload.transactions.toList := by
    simp [toWire, Function.comp_def]
  simp only [tryFrom, withdrawals, transactions]
  simp [toWire, bind, Except.bind, pure, Except.pure, bounded]
  rfl

theorem ExecutionPayload.fits_of_tryFrom {wire : Gen.ExecutionPayload} {payload : ExecutionPayload}
    (made : ExecutionPayload.tryFrom wire = .ok payload) : payload.withdrawals.Fits := by
  simp only [tryFrom, except_bind_eq_ok, orSszTypes_eq_ok] at made
  obtain ⟨_, _, _, _, _, _, _, _, _, _, _, _, _, _, _, _, _, _, withdrawals, bounded, same⟩ := made
  cases same
  exact (unchecked_new_eq_some.mp bounded).2

theorem ExecutionPayload.arriving_eq_iff {payload : ExecutionPayload} :
    payload.arriving = payload ↔
      ∀ withdrawal ∈ payload.withdrawals.toList, withdrawal.validatorIndex = withdrawal.amount := by
  have same : payload.arriving = payload ↔
      payload.withdrawals.toList.map Withdrawal.arriving = payload.withdrawals.toList := by
    constructor
    · intro same
      exact congrArg (fun payload : ExecutionPayload => payload.withdrawals.toList) same
    · intro same
      have withdrawals : payload.arriving.withdrawals = payload.withdrawals :=
        UncheckedList.ext same
      show { payload with withdrawals := payload.arriving.withdrawals } = payload
      rw [withdrawals]
  have pointwise : payload.withdrawals.toList.map Withdrawal.arriving =
      payload.withdrawals.toList.map id ↔
        ∀ withdrawal ∈ payload.withdrawals.toList, withdrawal.arriving = id withdrawal :=
    List.map_inj_left
  rw [List.map_id] at pointwise
  simp only [same, pointwise, id, Withdrawal.arriving_eq_iff]

/-- A payload and its blobs survive the wire. -/
def RoundTrips (payload : ExecutionPayload) (bundle : BlobsBundle) : Prop :=
  ExecutionPayload.tryFrom payload.toWire = .ok payload ∧
    BlobsBundle.tryFrom bundle.toWire = .ok bundle

theorem roundTrips_iff_arriving {payload : ExecutionPayload} {bundle : BlobsBundle}
    (fits : payload.withdrawals.Fits) (bundleFits : bundle.Fits) :
    RoundTrips payload bundle ↔ payload.arriving = payload := by
  rw [RoundTrips, ExecutionPayload.tryFrom_toWire fits, BlobsBundle.tryFrom_toWire bundleFits,
    Except.ok.injEq]
  exact and_iff_left rfl

/-- Everything survives the wire exactly when it has the lengths that are
declared for it and the validator index of every withdrawal happens to be its amount. -/
theorem round_trips_iff (payload : ExecutionPayload) (bundle : BlobsBundle) :
    RoundTrips payload bundle ↔ payload.withdrawals.Fits ∧ bundle.Fits ∧
      ∀ withdrawal ∈ payload.withdrawals.toList, withdrawal.validatorIndex = withdrawal.amount := by
  constructor
  · intro trips
    have fits := ExecutionPayload.fits_of_tryFrom trips.1
    have bundleFits := BlobsBundle.fits_of_tryFrom trips.2
    exact ⟨fits, bundleFits, ExecutionPayload.arriving_eq_iff.mp
      ((roundTrips_iff_arriving fits bundleFits).mp trips)⟩
  · rintro ⟨fits, bundleFits, indices⟩
    exact (roundTrips_iff_arriving fits bundleFits).mpr
      (ExecutionPayload.arriving_eq_iff.mpr indices)

/-- A payload with one withdrawal, of 32 by the validator 5. -/
def withdrawing : ExecutionPayload where
  parentHash := .zero
  feeRecipient := ⟨.replicate 0⟩
  stateRoot := .zero
  receiptsRoot := .zero
  logsBloom := .replicate 0
  prevRandao := .zero
  blockNumber := 1
  gasLimit := 30000000
  gasUsed := 0
  timestamp := 0
  extraData := .empty
  baseFeePerGas := 7
  blockHash := .zero
  transactions := .empty
  withdrawals := ⟨[⟨0, 5, ⟨.replicate 0⟩, 32⟩]⟩
  blobGasUsed := 0
  excessBlobGas := 0

theorem BlobsBundle.fits_empty : (⟨[], .empty, .empty⟩ : BlobsBundle).Fits where
  proofs := UncheckedList.fits_empty
  blobs := UncheckedList.fits_empty
  each _ among := absurd among List.not_mem_nil

theorem withdrawal_index_lost : ¬ RoundTrips withdrawing ⟨[], .empty, .empty⟩ := by
  rw [roundTrips_iff_arriving (by decide) BlobsBundle.fits_empty]
  decide +kernel

end MevRelay
