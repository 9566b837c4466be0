import MevRelay.Primitives.Bids
import MevRelay.Ssz.Binding
import MevRelay.Ssz.Chunks

/-!
# What the tree hashes bind

Values with one root are equal, as long as no two of the pairs hashed on the
way to it collide.
-/

namespace MevRelay

open Ssz

theorem B256.eq_of_ofList_eq {first second : List UInt8} (length : first.length = second.length)
    (fits : first.length ≤ 32) (same : B256.ofList first = B256.ofList second) : first = second := by
  have padded := congrArg (fun hash => hash.bytes.toList) same
  simp only [ofList, FixedVector.resize] at padded
  rw [List.take_of_length_le fits, List.take_of_length_le (length ▸ fits), length] at padded
  exact List.append_cancel_right padded

theorem eq_of_leavesOf_eq {first second : List UInt8} (length : first.length = second.length)
    (same : leavesOf first = leavesOf second) : first = second :=
  eq_of_map_toChunks (by decide) B256.ofList (fun _ _ => B256.eq_of_ofList_eq) length same

theorem length_leavesOf (bytes : List UInt8) : (leavesOf bytes).length = (bytes.length + 31) / 32 := by
  rw [leavesOf, List.length_map, length_toChunks (by decide)]
  rfl

abbrev HashPair := Hash256 × Hash256

/-- Values of a basic type fill a leaf, and are told apart by their bytes. -/
structure Packs {Value : Type} (encode : Value → List UInt8) (factor : Nat) : Prop where
  width : ∃ width, 0 < width ∧ width * factor = 32 ∧ ∀ value, (encode value).length = width
  injective : Function.Injective encode

theorem Packs.eq_of_flatMap_eq {Value : Type} {encode : Value → List UInt8} {factor : Nat}
    (packs : Packs encode factor) {first second : List Value} (length : first.length = second.length)
    (same : first.flatMap encode = second.flatMap encode) : first = second := by
  obtain ⟨width, _, _, constant⟩ := packs.width
  induction first generalizing second with
  | nil => exact (List.eq_nil_of_length_eq_zero length.symm).symm
  | cons value rest inductionHypothesis =>
      cases second with
      | nil => cases length
      | cons other others =>
          rw [List.flatMap_cons, List.flatMap_cons] at same
          obtain ⟨head, tail⟩ := List.append_inj same (by rw [constant, constant])
          rw [packs.injective head, inductionHypothesis (Nat.succ.inj length) tail]

/-- As many values as there is room for fill as many leaves. -/
theorem Packs.fits {Value : Type}
    {encode : Value → List UInt8} {factor maximum : Nat} (packs : Packs encode factor)
    {values : List Value} (room : values.length ≤ maximum) :
    (leavesOf (values.flatMap encode)).length ≤ (maximum + factor - 1) / factor := by
  obtain ⟨width, positive, product, constant⟩ := packs.width
  have bytes : (values.flatMap encode).length = width * values.length := by
    simp [List.length_flatMap, constant, Nat.mul_comm]
  have some : 0 < factor := Nat.pos_of_ne_zero (by rintro rfl; simp at product)
  have total : width * values.length + 31 = width * (values.length + factor) - (0 + 1) := by
    rw [Nat.mul_add, product]
    rfl
  have inside : 0 < width * (values.length + factor) := Nat.mul_pos positive (by omega)
  calc
    (leavesOf (values.flatMap encode)).length = (width * values.length + 31) / (width * factor) := by
      rw [length_leavesOf, bytes, product]
    _ = (width * (values.length + factor) - (0 + 1)) / width / factor := by
      rw [total, Nat.div_div_eq_div_mul]
    _ = (values.length + factor - 1) / factor := by
      rw [Nat.mul_sub_div 0 width _ inside, Nat.zero_div]
    _ ≤ (maximum + factor - 1) / factor := Nat.div_le_div_right (by omega)

theorem packs_uint8 : Packs (fun byte : UInt8 => [byte]) 32 where
  width := ⟨1, by decide, rfl, fun _ => rfl⟩
  injective _ _ same := List.cons.inj same |>.1

theorem packs_uint64 : Packs (fun number : UInt64 => littleEndian 8 number.toNat) 4 where
  width := ⟨8, by decide, rfl, fun _ => length_littleEndian _ _⟩
  injective first second same :=
    UInt64.toNat_inj.mp (littleEndian_injective first.toNat_lt second.toNat_lt same)

theorem packs_u256 : Packs (fun number : U256 => littleEndian 32 number.toNat) 1 where
  width := ⟨32, by decide, rfl, fun _ => length_littleEndian _ _⟩
  injective first second same :=
    BitVec.eq_of_toNat_eq (littleEndian_injective first.isLt second.isLt same)

/-- A basic type is hashed as one leaf. -/
theorem Packs.eq_of_ofList_eq {Value : Type} {encode : Value → List UInt8} {factor : Nat}
    (packs : Packs encode factor) {first second : Value}
    (same : B256.ofList (encode first) = B256.ofList (encode second)) : first = second := by
  obtain ⟨width, positive, product, constant⟩ := packs.width
  have some : 1 ≤ factor := Nat.pos_of_ne_zero (by rintro rfl; simp at product)
  refine packs.injective (B256.eq_of_ofList_eq (by rw [constant, constant]) ?_ same)
  rw [constant, ← product]
  exact Nat.le_mul_of_pos_right width some

section Crates

variable [Crates]

/-- The pairs that have been hashed have different parents. -/
abbrev NoCollision (known : Set HashPair) : Prop := CollisionFree Crates.hash32Concat known

/-- Types whose values are determined by their roots. -/
class Binding (Value : Type) [TreeHash Value] where
  /-- The pairs hashed for the root of a value. -/
  pairs : Value → List HashPair
  packs : ∀ encode factor, (TreeHash.packed : Option ((Value → List UInt8) × Nat)) =
    some (encode, factor) → Packs encode factor
  eq_of_root_eq : ∀ {known : Set HashPair} {first second : Value}, NoCollision known →
    (∀ pair ∈ pairs first, pair ∈ known) → (∀ pair ∈ pairs second, pair ∈ known) →
    treeHashRoot first = treeHashRoot second → first = second

/-- The pairs hashed by `merkleHash`. -/
def merkleHashPairs (minimum : Nat) (leaves : List Hash256) : List HashPair :=
  merkleizePairs Crates.hash32Concat B256.zero minimum leaves

section Sequences

variable {Value : Type} [TreeHash Value] [Binding Value]

/-- The pairs hashed by `vecTreeHashRoot`. -/
def vecPairs (maximum : Nat) (values : List Value) : List HashPair :=
  match (TreeHash.packed : Option ((Value → List UInt8) × Nat)) with
  | some (encode, factor) =>
      merkleHashPairs ((maximum + factor - 1) / factor) (leavesOf (values.flatMap encode))
  | none =>
      merkleHashPairs maximum (values.map treeHashRoot) ++ values.flatMap Binding.pairs

theorem eq_of_map_treeHashRoot_eq {known : Set HashPair} (free : NoCollision known)
    {first second : List Value}
    (firstKnown : ∀ pair ∈ first.flatMap Binding.pairs, pair ∈ known)
    (secondKnown : ∀ pair ∈ second.flatMap Binding.pairs, pair ∈ known)
    (same : first.map treeHashRoot = second.map treeHashRoot) : first = second := by
  induction first generalizing second with
  | nil => exact (List.map_eq_nil_iff.mp same.symm).symm
  | cons value rest inductionHypothesis =>
      cases second with
      | nil => cases same
      | cons other others =>
          obtain ⟨head, tail⟩ := List.cons.inj same
          rw [List.flatMap_cons, List.forall_mem_append] at firstKnown secondKnown
          rw [Binding.eq_of_root_eq free firstKnown.1 secondKnown.1 head,
            inductionHypothesis firstKnown.2 secondKnown.2 tail]

/-- As many values as there are bind their root. -/
theorem eq_of_vecTreeHashRoot_eq {known : Set HashPair} (free : NoCollision known) {maximum : Nat}
    {first second : List Value} (length : first.length = second.length)
    (room : first.length ≤ maximum) (firstKnown : ∀ pair ∈ vecPairs maximum first, pair ∈ known)
    (secondKnown : ∀ pair ∈ vecPairs maximum second, pair ∈ known)
    (same : vecTreeHashRoot maximum first = vecTreeHashRoot maximum second) : first = second := by
  unfold vecPairs at firstKnown secondKnown
  unfold vecTreeHashRoot at same
  split at same
  · rename_i encode factor packed
    have packs := Binding.packs encode factor packed
    rw [packed] at firstKnown secondKnown
    have bytes : (first.flatMap encode).length = (second.flatMap encode).length := by
      obtain ⟨width, _, _, constant⟩ := packs.width
      simp [List.length_flatMap, constant, length]
    have leaves := eq_of_hasherRoot_eq free (by rw [length_leavesOf, length_leavesOf, bytes])
      (packs.fits room) firstKnown secondKnown same
    exact packs.eq_of_flatMap_eq length (eq_of_leavesOf_eq bytes leaves)
  · rename_i single
    rw [single] at firstKnown secondKnown
    simp only [List.forall_mem_append] at firstKnown secondKnown
    exact eq_of_map_treeHashRoot_eq free firstKnown.2 secondKnown.2
      (eq_of_hasherRoot_eq free (by simp [length]) (by simpa using room) firstKnown.1 secondKnown.1
        same)

end Sequences

section Containers

/-- A field of a container, with what its root binds of the container. -/
structure BoundField (Container : Type) where
  root : Container → Hash256
  pairs : Container → List HashPair
  Same : Container → Container → Prop
  same : ∀ {known : Set HashPair} {first second : Container}, NoCollision known →
    (∀ pair ∈ pairs first, pair ∈ known) → (∀ pair ∈ pairs second, pair ∈ known) →
    root first = root second → Same first second

def BoundField.of {Container Value : Type} [TreeHash Value] [Binding Value]
    (project : Container → Value) : BoundField Container where
  root container := treeHashRoot (project container)
  pairs container := Binding.pairs (project container)
  Same first second := project first = project second
  same := Binding.eq_of_root_eq

/-- The pairs hashed by `containerRoot`. -/
def containerPairs (fields : List Hash256) : List HashPair := merkleHashPairs fields.length fields

theorem eq_of_containerRoot_eq {known : Set HashPair} (free : NoCollision known)
    {first second : List Hash256} (length : first.length = second.length)
    (firstKnown : ∀ pair ∈ containerPairs first, pair ∈ known)
    (secondKnown : ∀ pair ∈ containerPairs second, pair ∈ known)
    (same : containerRoot first = containerRoot second) : first = second := by
  rw [containerPairs, length] at firstKnown
  rw [containerRoot, length] at same
  exact eq_of_hasherRoot_eq free length length.le firstKnown secondKnown same

variable {Container : Type} (fields : List (BoundField Container))

/-- The pairs hashed for the root of a container. -/
def fieldPairs (container : Container) : List HashPair :=
  containerPairs (fields.map fun field => field.root container) ++
    fields.flatMap fun field => field.pairs container

theorem same_of_containerRoot_eq {known : Set HashPair} (free : NoCollision known)
    {first second : Container} (firstKnown : ∀ pair ∈ fieldPairs fields first, pair ∈ known)
    (secondKnown : ∀ pair ∈ fieldPairs fields second, pair ∈ known)
    (same : containerRoot (fields.map fun field => field.root first) =
      containerRoot (fields.map fun field => field.root second)) :
    ∀ field ∈ fields, field.Same first second := by
  rw [fieldPairs, List.forall_mem_append] at firstKnown secondKnown
  have roots := eq_of_containerRoot_eq free (by simp) firstKnown.1 secondKnown.1 same
  intro field listed
  refine field.same free (fun pair inside => ?_) (fun pair inside => ?_)
    (List.map_inj_left.mp roots field listed)
  · exact firstKnown.2 pair (List.mem_flatMap.mpr ⟨field, listed, inside⟩)
  · exact secondKnown.2 pair (List.mem_flatMap.mpr ⟨field, listed, inside⟩)

/-- A container whose fields make it up is determined by its root. -/
@[reducible]
def Binding.container (whole : ∀ first second : Container,
    (∀ field ∈ fields, field.Same first second) → first = second) :
    @Binding _ Container
      (TreeHash.container fun container => fields.map fun field => field.root container) :=
  let _ := TreeHash.container fun container => fields.map fun field => field.root container
  { pairs := fieldPairs fields
    packs := fun _ _ packed => by cases packed
    eq_of_root_eq := fun free firstKnown secondKnown same =>
      whole _ _ (same_of_containerRoot_eq fields free firstKnown secondKnown same) }

end Containers

section Instances

theorem eq_of_bytesRoot_eq {known : Set HashPair} (free : NoCollision known)
    {minimum : Nat} {first second : List UInt8} (length : first.length = second.length)
    (firstKnown : ∀ pair ∈ merkleHashPairs (max (leavesOf first).length minimum) (leavesOf first),
      pair ∈ known)
    (secondKnown : ∀ pair ∈ merkleHashPairs (max (leavesOf second).length minimum)
      (leavesOf second), pair ∈ known)
    (same : bytesRoot first minimum = bytesRoot second minimum) : first = second := by
  have leaves : (leavesOf first).length = (leavesOf second).length := by
    rw [length_leavesOf, length_leavesOf, length]
  rw [leaves] at firstKnown
  rw [bytesRoot, leaves] at same
  exact eq_of_leavesOf_eq length (eq_of_hasherRoot_eq free leaves
    (leaves.le.trans (le_max_left _ _)) firstKnown secondKnown same)

/-- A type hashed as bytes that tell its values apart is determined by its root. -/
@[reducible]
def Binding.byteVector {Value : Type} (width : Nat) (bytes : Value → List UInt8)
    (length : ∀ value, (bytes value).length = width) (injective : Function.Injective bytes) :
    @Binding _ Value (TreeHash.byteVector width bytes) :=
  let _ := TreeHash.byteVector width bytes
  { pairs := fun value =>
      let leaves := leavesOf (bytes value)
      merkleHashPairs (max leaves.length ((width + 31) / 32)) leaves
    packs := fun _ _ packed => by cases packed
    eq_of_root_eq := fun free firstKnown secondKnown same =>
      injective (eq_of_bytesRoot_eq free (by rw [length, length]) firstKnown secondKnown same) }

instance : Binding UInt8 where
  pairs _ := []
  packs _ _ packed := by
    cases packed
    exact packs_uint8
  eq_of_root_eq _ _ _ same := packs_uint8.eq_of_ofList_eq same

instance : Binding UInt64 where
  pairs _ := []
  packs _ _ packed := by
    cases packed
    exact packs_uint64
  eq_of_root_eq _ _ _ same := packs_uint64.eq_of_ofList_eq same

instance : Binding U256 where
  pairs _ := []
  packs _ _ packed := by
    cases packed
    exact packs_u256
  eq_of_root_eq _ _ _ same := packs_u256.eq_of_ofList_eq same

instance : Binding B256 where
  pairs _ := []
  packs _ _ packed := by cases packed
  eq_of_root_eq _ _ _ same := same

instance : Binding Address where
  pairs _ := []
  packs _ _ packed := by cases packed
  eq_of_root_eq {_ first second} _ _ _ same := by
    have length : first.bytes.toList.length = second.bytes.toList.length := by
      rw [first.bytes.length_eq, second.bytes.length_eq]
    have bytes := B256.eq_of_ofList_eq length (by rw [first.bytes.length_eq]; decide) same
    obtain ⟨first⟩ := first
    obtain ⟨second⟩ := second
    exact congrArg Address.mk (FixedVector.ext bytes)

variable {Value : Type} [TreeHash Value] [Binding Value]

instance (capacity : Nat) : Binding (FixedVector Value capacity) where
  pairs vector := vecPairs capacity vector.toList
  packs _ _ packed := by cases packed
  eq_of_root_eq {_ first second} free firstKnown secondKnown same :=
    FixedVector.ext (eq_of_vecTreeHashRoot_eq free (by rw [first.length_eq, second.length_eq])
      first.length_eq.le firstKnown secondKnown same)

/-- The pairs hashed by `mixInLength`. -/
def lengthPair (root : Hash256) (length : Nat) : HashPair :=
  (root, B256.ofList (littleEndian 32 length))

theorem eq_of_mixInLength_eq {known : Set HashPair} (free : NoCollision known)
    {root otherRoot : Hash256} {length otherLength : Nat} (small : length < 256 ^ 32)
    (otherSmall : otherLength < 256 ^ 32) (first : lengthPair root length ∈ known)
    (second : lengthPair otherRoot otherLength ∈ known)
    (same : mixInLength root length = mixInLength otherRoot otherLength) :
    root = otherRoot ∧ length = otherLength := by
  obtain ⟨roots, lengths⟩ := free.eq first second same
  refine ⟨roots, littleEndian_injective small otherSmall (B256.eq_of_ofList_eq ?_ ?_ lengths)⟩
  · rw [length_littleEndian, length_littleEndian]
  · rw [length_littleEndian]

/-- The pairs hashed for the root of a list that is declared for `maximum` values. -/
def listPairs (maximum : Nat) (values : List Value) : List HashPair :=
  lengthPair (vecTreeHashRoot maximum values) values.length :: vecPairs maximum values

/-- The root of a list binds its values if there are not more of them than are
declared, and the length of the other list fits into a leaf. -/
theorem eq_of_listRoot_eq {known : Set HashPair} (free : NoCollision known) {maximum : Nat}
    {first second : List Value} (room : first.length ≤ maximum) (small : maximum < 256 ^ 32)
    (otherSmall : second.length < 256 ^ 32) (firstKnown : ∀ pair ∈ listPairs maximum first, pair ∈ known)
    (secondKnown : ∀ pair ∈ listPairs maximum second, pair ∈ known)
    (same : mixInLength (vecTreeHashRoot maximum first) first.length =
      mixInLength (vecTreeHashRoot maximum second) second.length) : first = second := by
  rw [listPairs, List.forall_mem_cons] at firstKnown secondKnown
  obtain ⟨roots, lengths⟩ := eq_of_mixInLength_eq free (room.trans_lt small) otherSmall
    firstKnown.1 secondKnown.1 same
  exact eq_of_vecTreeHashRoot_eq free lengths room firstKnown.2 secondKnown.2 roots

/-- A list is bound by its root as long as its length fits into a leaf. -/
@[reducible]
def Binding.variableList {maximum : Nat} (small : maximum < 256 ^ 32) :
    Binding (VariableList Value maximum) where
  pairs list := listPairs maximum list.toList
  packs _ _ packed := by cases packed
  eq_of_root_eq {_ first second} free firstKnown secondKnown same :=
    VariableList.ext (eq_of_listRoot_eq free first.length_le small (second.length_le.trans_lt small)
      firstKnown secondKnown same)

end Instances

section Messages

instance : Binding (VariableList UInt8 32) := .variableList (by decide)

instance : Binding (VariableList UInt8 1073741824) := .variableList (by decide)

instance : Binding Transactions := .variableList (by decide)

instance : Binding KzgCommitment :=
  .byteVector 48 _ (fun commitment : KzgCommitment => commitment.bytes.length_eq)
    fun first second same => by
      obtain ⟨first⟩ := first
      obtain ⟨second⟩ := second
      exact congrArg KzgCommitment.mk (FixedVector.ext same)

instance : Binding BlsPublicKey :=
  .byteVector 48 BlsPublicKey.serialize (fun key => key.point.compressed.length_eq)
    fun first second same => by
      obtain ⟨⟨first⟩⟩ := first
      obtain ⟨⟨second⟩⟩ := second
      exact congrArg (fun compressed => BlsPublicKey.mk ⟨compressed⟩) (FixedVector.ext same)

def Withdrawal.boundFields : List (BoundField Withdrawal) :=
  [.of (·.index), .of (·.validatorIndex), .of (·.address), .of (·.amount)]

instance : Binding Withdrawal :=
  .container Withdrawal.boundFields <| by
    rintro ⟨⟩ ⟨⟩ same
    simpa [Withdrawal.boundFields, BoundField.of] using same

instance : Binding (VariableList KzgCommitment 4096) := .variableList (by decide)

def ExecutionPayloadHeader.boundFields : List (BoundField ExecutionPayloadHeader) :=
  [.of (·.parentHash), .of (·.feeRecipient), .of (·.stateRoot), .of (·.receiptsRoot),
    .of (·.logsBloom), .of (·.prevRandao), .of (·.blockNumber), .of (·.gasLimit), .of (·.gasUsed),
    .of (·.timestamp), .of (·.extraData), .of (·.baseFeePerGas), .of (·.blockHash),
    .of (·.transactionsRoot), .of (·.withdrawalsRoot), .of (·.blobGasUsed), .of (·.excessBlobGas)]

instance : Binding ExecutionPayloadHeader :=
  .container ExecutionPayloadHeader.boundFields <| by
    rintro ⟨⟩ ⟨⟩ same
    simpa [ExecutionPayloadHeader.boundFields, BoundField.of] using same

def BidTrace.boundFields : List (BoundField BidTrace) :=
  [.of (·.slot), .of (·.parentHash), .of (·.blockHash), .of (·.builderPubkey),
    .of (·.proposerPubkey), .of (·.proposerFeeRecipient), .of (·.gasLimit), .of (·.gasUsed),
    .of (·.value)]

instance : Binding BidTrace :=
  .container BidTrace.boundFields <| by
    rintro ⟨⟩ ⟨⟩ same
    simpa [BidTrace.boundFields, BoundField.of] using same

def ValidatorRegistrationMessage.boundFields : List (BoundField ValidatorRegistrationMessage) :=
  [.of (·.feeRecipient), .of (·.gasLimit), .of (·.timestamp), .of (·.pubkey)]

instance : Binding ValidatorRegistrationMessage :=
  .container ValidatorRegistrationMessage.boundFields <| by
    rintro ⟨⟩ ⟨⟩ same
    simpa [ValidatorRegistrationMessage.boundFields, BoundField.of] using same

def Header.boundFields : List (BoundField Header) :=
  [.of (·.header), .of (·.blobKzgCommitments), .of (·.value), .of (·.pubkey)]

instance : Binding Header :=
  .container Header.boundFields <| by
    rintro ⟨⟩ ⟨⟩ same
    simpa [Header.boundFields, BoundField.of] using same

end Messages

end Crates

end MevRelay
