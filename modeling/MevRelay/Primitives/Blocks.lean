import MevRelay.Primitives.Beacon
import MevRelay.Primitives.Encoding
import MevRelay.Primitives.Signatures
import MevRelay.Ssz.Layouts

/-!
# Encodings of beacon blocks

The bytes that a block is published as, with every container in it.  Signatures
and keys are written compressed, so a block is read back from its bytes if its
signatures are canonical, its keys pass the checks and its vectors have the
lengths that are declared for them.
-/

namespace MevRelay

open Ssz

section Bytes

instance : Encode KzgCommitment where
  isSszFixedLen := true
  sszFixedLen := 48
  sszBytesLen _ := 48
  sszAppend commitment := commitment.bytes.toList

instance : Encode BlsPublicKey where
  isSszFixedLen := true
  sszFixedLen := 48
  sszBytesLen _ := 48
  sszAppend key := key.serialize

instance : Encode BlsSignature where
  isSszFixedLen := true
  sszFixedLen := 96
  sszBytesLen _ := 96
  sszAppend signature := signature.serialize

instance (capacity : Nat) : Encode (BitVector capacity) where
  isSszFixedLen := true
  sszFixedLen := max 1 ((capacity + 7) / 8)
  sszBytesLen _ := max 1 ((capacity + 7) / 8)
  sszAppend vector := packBits vector.bits.toList

/-- A list of bits ends with one more bit, which is set. -/
instance (maximum : Nat) : Encode (BitList maximum) where
  isSszFixedLen := false
  sszFixedLen := bytesPerLengthOffset
  sszBytesLen list := list.bits.toList.length / 8 + 1
  sszAppend list := packBits (list.bits.toList ++ [true])

instance : Decode KzgCommitment where
  lengthsHold :=
    { length_of_fixed := fun _ commitment _ => commitment.bytes.length_eq
      fixedLen_of_variable := fun variable_ => Bool.noConfusion variable_
      fixedLen_pos := Nat.succ_pos 47
      bytesLen_eq := fun commitment _ => commitment.bytes.length_eq.symm }
  fromSszBytes bytes := KzgCommitment.mk <$> FixedVector.new bytes
  fromSszBytes_append commitment _ := by simp [sszAppend]

theorem length_packBits_bitVector {capacity : Nat} [NeZero capacity]
    (vector : BitVector capacity) :
    (packBits vector.bits.toList).length = max 1 ((capacity + 7) / 8) := by
  have positive := Nat.pos_of_neZero capacity
  rw [length_packBits, vector.bits.length_eq]
  omega

instance (capacity : Nat) [NeZero capacity] : Decode (BitVector capacity) where
  lengthsHold :=
    { length_of_fixed := fun _ vector _ => length_packBits_bitVector vector
      fixedLen_of_variable := fun variable_ => Bool.noConfusion variable_
      fixedLen_pos := Nat.lt_of_lt_of_le Nat.one_pos (Nat.le_max_left _ _)
      bytesLen_eq := fun vector _ => (length_packBits_bitVector vector).symm }
  fromSszBytes bytes := BitVector.mk <$> FixedVector.new ((bytes.flatMap unpackByte).take capacity)
  fromSszBytes_append vector _ := by
    have read := take_unpack_packBits vector.bits.toList
    rw [vector.bits.length_eq] at read
    simp only [sszAppend, read, FixedVector.new_toList]
    rfl

instance (maximum : Nat) : Decode (BitList maximum) where
  lengthsHold :=
    { length_of_fixed := fun fixed => Bool.noConfusion fixed
      fixedLen_of_variable := fun _ => rfl
      fixedLen_pos := Nat.succ_pos 3
      bytesLen_eq := by
        intro list _
        change _ = (packBits _).length
        rw [length_packBits, List.length_append, List.length_singleton]
        exact (Nat.add_div_right _ (Nat.succ_pos 7)).symm }
  fromSszBytes bytes := BitList.mk <$> VariableList.new (undelimited (bytes.flatMap unpackByte))
  fromSszBytes_append list _ := by
    simp only [sszAppend, undelimited_packBits, VariableList.new_toList]
    rfl

theorem BlsPublicKey.length_serialize (key : BlsPublicKey) : key.serialize.length = 48 :=
  key.point.compressed.length_eq

theorem BlsSignature.length_serialize (signature : BlsSignature) :
    signature.serialize.length = 96 := by
  unfold serialize
  split
  · exact FixedVector.length_eq _
  · exact List.length_replicate

variable [Crates] [KeyCrates]

/-- A key from its encoding, which has exactly 48 bytes. -/
def BlsPublicKey.fromSszBytes (bytes : List UInt8) : Except DecodeError BlsPublicKey :=
  if bytes.length ≠ 48 then .error (.invalidByteLength bytes.length 48)
  else (deserialize bytes).mapError fun error => .bytesInvalid error.toString

theorem BlsPublicKey.fromSszBytes_eq_ok {bytes : List UInt8} {key : BlsPublicKey} :
    fromSszBytes bytes = .ok key ↔ bytes.length = 48 ∧ deserialize bytes = .ok key := by
  unfold fromSszBytes
  by_cases length : bytes.length = 48
  · rw [if_neg (not_not_intro length), mapError_eq_ok]
    simp [length]
  · rw [if_pos length]
    simp [length]

instance : Readable BlsPublicKey where
  Admissible := BlsPublicKey.Validated
  lengthsHold :=
    { length_of_fixed := fun _ key _ => key.length_serialize
      fixedLen_of_variable := fun variable_ => Bool.noConfusion variable_
      fixedLen_pos := Nat.succ_pos 47
      bytesLen_eq := fun key _ => key.length_serialize.symm }
  ofSszBytes bytes := (BlsPublicKey.fromSszBytes bytes).toOption
  ofSszBytes_append key validated _ :=
    toOption_eq_some.mpr (BlsPublicKey.fromSszBytes_eq_ok.mpr ⟨key.length_serialize, validated⟩)

instance : Readable BlsSignature where
  Admissible := BlsSignature.Canonical
  lengthsHold :=
    { length_of_fixed := fun _ signature _ => signature.length_serialize
      fixedLen_of_variable := fun variable_ => Bool.noConfusion variable_
      fixedLen_pos := Nat.succ_pos 95
      bytesLen_eq := fun signature _ => signature.length_serialize.symm }
  ofSszBytes bytes := (BlsSignature.fromSszBytes bytes).toOption
  ofSszBytes_append signature canonical _ :=
    toOption_eq_some.mpr
      (BlsSignature.fromSszBytes_eq_ok.mpr ⟨signature.length_serialize, canonical.readBack⟩)

end Bytes

section Fields

def Eth1Data.fields : List (Encode Eth1Data) :=
  [.field (·.depositRoot), .field (·.depositCount), .field (·.blockHash)]

instance : Encode Eth1Data := .container Eth1Data.fields

def BeaconBlockHeader.fields : List (Encode BeaconBlockHeader) :=
  [.field (·.slot), .field (·.proposerIndex), .field (·.parentRoot), .field (·.stateRoot),
    .field (·.bodyRoot)]

instance : Encode BeaconBlockHeader := .container BeaconBlockHeader.fields

def SignedBeaconBlockHeader.fields : List (Encode SignedBeaconBlockHeader) :=
  [.field (·.message), .field (·.signature)]

instance : Encode SignedBeaconBlockHeader := .container SignedBeaconBlockHeader.fields

def ProposerSlashing.fields : List (Encode ProposerSlashing) :=
  [.field (·.signedHeader1), .field (·.signedHeader2)]

instance : Encode ProposerSlashing := .container ProposerSlashing.fields

def Checkpoint.fields : List (Encode Checkpoint) := [.field (·.epoch), .field (·.root)]

instance : Encode Checkpoint := .container Checkpoint.fields

def AttestationData.fields : List (Encode AttestationData) :=
  [.field (·.slot), .field (·.index), .field (·.beaconBlockRoot), .field (·.source),
    .field (·.target)]

instance : Encode AttestationData := .container AttestationData.fields

def IndexedAttestation.fields : List (Encode IndexedAttestation) :=
  [.field (·.attestingIndices), .field (·.data), .field (·.signature)]

instance : Encode IndexedAttestation := .container IndexedAttestation.fields

def AttesterSlashing.fields : List (Encode AttesterSlashing) :=
  [.field (·.attestation1), .field (·.attestation2)]

instance : Encode AttesterSlashing := .container AttesterSlashing.fields

def Attestation.fields : List (Encode Attestation) :=
  [.field (·.aggregationBits), .field (·.data), .field (·.signature)]

instance : Encode Attestation := .container Attestation.fields

def DepositData.fields : List (Encode DepositData) :=
  [.field (·.pubkey), .field (·.withdrawalCredentials), .field (·.amount), .field (·.signature)]

instance : Encode DepositData := .container DepositData.fields

def Deposit.fields : List (Encode Deposit) := [.field (·.proof), .field (·.data)]

instance : Encode Deposit := .container Deposit.fields

def VoluntaryExit.fields : List (Encode VoluntaryExit) :=
  [.field (·.epoch), .field (·.validatorIndex)]

instance : Encode VoluntaryExit := .container VoluntaryExit.fields

def SignedVoluntaryExit.fields : List (Encode SignedVoluntaryExit) :=
  [.field (·.message), .field (·.signature)]

instance : Encode SignedVoluntaryExit := .container SignedVoluntaryExit.fields

def SyncAggregate.fields : List (Encode SyncAggregate) :=
  [.field (·.syncCommitteeBits), .field (·.syncCommitteeSignature)]

instance : Encode SyncAggregate := .container SyncAggregate.fields

def BlsToExecutionChange.fields : List (Encode BlsToExecutionChange) :=
  [.field (·.validatorIndex), .field (·.fromBlsPubkey), .field (·.toExecutionAddress)]

instance : Encode BlsToExecutionChange := .container BlsToExecutionChange.fields

def SignedBlsToExecutionChange.fields : List (Encode SignedBlsToExecutionChange) :=
  [.field (·.message), .field (·.signature)]

instance : Encode SignedBlsToExecutionChange := .container SignedBlsToExecutionChange.fields

def BeaconBlockBody.fields : List (Encode BeaconBlockBody) :=
  [.field (·.randaoReveal), .field (·.eth1Data), .field (·.graffiti),
    .field (·.proposerSlashings), .field (·.attesterSlashings), .field (·.attestations),
    .field (·.deposits), .field (·.voluntaryExits), .field (·.syncAggregate),
    .field (·.executionPayload), .field (·.blsToExecutionChanges),
    .field (·.blobKzgCommitments)]

instance : Encode BeaconBlockBody := .container BeaconBlockBody.fields

def BeaconBlock.fields : List (Encode BeaconBlock) :=
  [.field (·.slot), .field (·.proposerIndex), .field (·.parentRoot), .field (·.stateRoot),
    .field (·.body)]

instance : Encode BeaconBlock := .container BeaconBlock.fields

def SignedBeaconBlock.fields : List (Encode SignedBeaconBlock) :=
  [.field (·.message), .field (·.signature)]

instance : Encode SignedBeaconBlock := .container SignedBeaconBlock.fields

def SignedBeaconBlockContent.fields : List (Encode SignedBeaconBlockContent) :=
  [.field (·.signedBlock), .field (·.kzgProofs), .field (·.blobs)]

instance : Encode SignedBeaconBlockContent := .container SignedBeaconBlockContent.fields

end Fields

section Reading

variable [Crates] [KeyCrates]

def Eth1Data.layout : Layout Eth1Data Eth1Data :=
  Layout.start Eth1Data.mk |>.field (·.depositRoot) |>.field (·.depositCount)
    |>.field (·.blockHash)

instance : Readable Eth1Data :=
  .container Eth1Data.layout rfl (List.cons_ne_nil _ _) fun _ => rfl

def BeaconBlockHeader.layout : Layout BeaconBlockHeader BeaconBlockHeader :=
  Layout.start BeaconBlockHeader.mk |>.field (·.slot) |>.field (·.proposerIndex)
    |>.field (·.parentRoot) |>.field (·.stateRoot) |>.field (·.bodyRoot)

instance : Readable BeaconBlockHeader :=
  .container BeaconBlockHeader.layout rfl (List.cons_ne_nil _ _) fun _ => rfl

def SignedBeaconBlockHeader.layout : Layout SignedBeaconBlockHeader SignedBeaconBlockHeader :=
  Layout.start SignedBeaconBlockHeader.mk |>.field (·.message) |>.field (·.signature)

instance : Readable SignedBeaconBlockHeader :=
  .container SignedBeaconBlockHeader.layout rfl (List.cons_ne_nil _ _) fun _ => rfl

def ProposerSlashing.layout : Layout ProposerSlashing ProposerSlashing :=
  Layout.start ProposerSlashing.mk |>.field (·.signedHeader1) |>.field (·.signedHeader2)

instance : Readable ProposerSlashing :=
  .container ProposerSlashing.layout rfl (List.cons_ne_nil _ _) fun _ => rfl

def Checkpoint.layout : Layout Checkpoint Checkpoint :=
  Layout.start Checkpoint.mk |>.field (·.epoch) |>.field (·.root)

instance : Readable Checkpoint :=
  .container Checkpoint.layout rfl (List.cons_ne_nil _ _) fun _ => rfl

def AttestationData.layout : Layout AttestationData AttestationData :=
  Layout.start AttestationData.mk |>.field (·.slot) |>.field (·.index)
    |>.field (·.beaconBlockRoot) |>.field (·.source) |>.field (·.target)

instance : Readable AttestationData :=
  .container AttestationData.layout rfl (List.cons_ne_nil _ _) fun _ => rfl

def IndexedAttestation.layout : Layout IndexedAttestation IndexedAttestation :=
  Layout.start IndexedAttestation.mk |>.field (·.attestingIndices) |>.field (·.data)
    |>.field (·.signature)

instance : Readable IndexedAttestation :=
  .container IndexedAttestation.layout rfl (List.cons_ne_nil _ _) fun _ => rfl

def AttesterSlashing.layout : Layout AttesterSlashing AttesterSlashing :=
  Layout.start AttesterSlashing.mk |>.field (·.attestation1) |>.field (·.attestation2)

instance : Readable AttesterSlashing :=
  .container AttesterSlashing.layout rfl (List.cons_ne_nil _ _) fun _ => rfl

def Attestation.layout : Layout Attestation Attestation :=
  Layout.start Attestation.mk |>.field (·.aggregationBits) |>.field (·.data)
    |>.field (·.signature)

instance : Readable Attestation :=
  .container Attestation.layout rfl (List.cons_ne_nil _ _) fun _ => rfl

def DepositData.layout : Layout DepositData DepositData :=
  Layout.start DepositData.mk |>.field (·.pubkey) |>.field (·.withdrawalCredentials)
    |>.field (·.amount) |>.field (·.signature)

instance : Readable DepositData :=
  .container DepositData.layout rfl (List.cons_ne_nil _ _) fun _ => rfl

def Deposit.layout : Layout Deposit Deposit :=
  Layout.start Deposit.mk |>.field (·.proof) |>.field (·.data)

instance : Readable Deposit :=
  .container Deposit.layout rfl (List.cons_ne_nil _ _) fun _ => rfl

def VoluntaryExit.layout : Layout VoluntaryExit VoluntaryExit :=
  Layout.start VoluntaryExit.mk |>.field (·.epoch) |>.field (·.validatorIndex)

instance : Readable VoluntaryExit :=
  .container VoluntaryExit.layout rfl (List.cons_ne_nil _ _) fun _ => rfl

def SignedVoluntaryExit.layout : Layout SignedVoluntaryExit SignedVoluntaryExit :=
  Layout.start SignedVoluntaryExit.mk |>.field (·.message) |>.field (·.signature)

instance : Readable SignedVoluntaryExit :=
  .container SignedVoluntaryExit.layout rfl (List.cons_ne_nil _ _) fun _ => rfl

def SyncAggregate.layout : Layout SyncAggregate SyncAggregate :=
  Layout.start SyncAggregate.mk |>.field (·.syncCommitteeBits)
    |>.field (·.syncCommitteeSignature)

instance : Readable SyncAggregate :=
  .container SyncAggregate.layout rfl (List.cons_ne_nil _ _) fun _ => rfl

def BlsToExecutionChange.layout : Layout BlsToExecutionChange BlsToExecutionChange :=
  Layout.start BlsToExecutionChange.mk |>.field (·.validatorIndex) |>.field (·.fromBlsPubkey)
    |>.field (·.toExecutionAddress)

instance : Readable BlsToExecutionChange :=
  .container BlsToExecutionChange.layout rfl (List.cons_ne_nil _ _) fun _ => rfl

def SignedBlsToExecutionChange.layout : Layout SignedBlsToExecutionChange SignedBlsToExecutionChange :=
  Layout.start SignedBlsToExecutionChange.mk |>.field (·.message) |>.field (·.signature)

instance : Readable SignedBlsToExecutionChange :=
  .container SignedBlsToExecutionChange.layout rfl (List.cons_ne_nil _ _) fun _ => rfl

def BeaconBlockBody.layout : Layout BeaconBlockBody BeaconBlockBody :=
  Layout.start BeaconBlockBody.mk |>.field (·.randaoReveal) |>.field (·.eth1Data)
    |>.field (·.graffiti) |>.field (·.proposerSlashings) |>.field (·.attesterSlashings)
    |>.field (·.attestations) |>.field (·.deposits) |>.field (·.voluntaryExits)
    |>.field (·.syncAggregate) |>.field (·.executionPayload) |>.field (·.blsToExecutionChanges)
    |>.field (·.blobKzgCommitments)

instance : Readable BeaconBlockBody :=
  .container BeaconBlockBody.layout rfl (List.cons_ne_nil _ _) fun _ => rfl

def BeaconBlock.layout : Layout BeaconBlock BeaconBlock :=
  Layout.start BeaconBlock.mk |>.field (·.slot) |>.field (·.proposerIndex)
    |>.field (·.parentRoot) |>.field (·.stateRoot) |>.field (·.body)

instance : Readable BeaconBlock :=
  .container BeaconBlock.layout rfl (List.cons_ne_nil _ _) fun _ => rfl

def SignedBeaconBlock.layout : Layout SignedBeaconBlock SignedBeaconBlock :=
  Layout.start SignedBeaconBlock.mk |>.field (·.message) |>.field (·.signature)

instance : Readable SignedBeaconBlock :=
  .container SignedBeaconBlock.layout rfl (List.cons_ne_nil _ _) fun _ => rfl

def SignedBeaconBlockContent.layout : Layout SignedBeaconBlockContent SignedBeaconBlockContent :=
  Layout.start SignedBeaconBlockContent.mk |>.field (·.signedBlock) |>.field (·.kzgProofs)
    |>.field (·.blobs)

instance : Readable SignedBeaconBlockContent :=
  .container SignedBeaconBlockContent.layout rfl (List.cons_ne_nil _ _) fun _ => rfl

/-- The signatures in a body, those of its operations among them. -/
def BeaconBlockBody.signatures (body : BeaconBlockBody) : List BlsSignature :=
  [body.randaoReveal, body.syncAggregate.syncCommitteeSignature] ++
    (body.proposerSlashings.toList.flatMap fun slashing =>
      [slashing.signedHeader1.signature, slashing.signedHeader2.signature]) ++
    (body.attesterSlashings.toList.flatMap fun slashing =>
      [slashing.attestation1.signature, slashing.attestation2.signature]) ++
    body.attestations.toList.map (·.signature) ++
    body.deposits.toList.map (·.data.signature) ++
    body.voluntaryExits.toList.map (·.signature) ++
    body.blsToExecutionChanges.toList.map (·.signature)

/-- The keys in a body. -/
def BeaconBlockBody.keys (body : BeaconBlockBody) : List BlsPublicKey :=
  body.deposits.toList.map (·.data.pubkey) ++
    body.blsToExecutionChanges.toList.map (·.message.fromBlsPubkey)

theorem BeaconBlockBody.admissible_iff {body : BeaconBlockBody} :
    Admissible body ↔ (∀ signature ∈ body.signatures, signature.Canonical) ∧
      (∀ key ∈ body.keys, key.Validated) ∧
      ∀ deposit ∈ body.deposits.toList, deposit.proof.Fits := by
  simp only [Readable.Admissible, layout, signatures, keys, Eth1Data.layout, ProposerSlashing.layout,
    SignedBeaconBlockHeader.layout, BeaconBlockHeader.layout, AttesterSlashing.layout,
    IndexedAttestation.layout, AttestationData.layout, Checkpoint.layout, Attestation.layout,
    Deposit.layout, DepositData.layout, SignedVoluntaryExit.layout, VoluntaryExit.layout,
    SyncAggregate.layout, SignedBlsToExecutionChange.layout, BlsToExecutionChange.layout,
    Layout.holds_start, Layout.holds_field, List.forall_mem_append, List.forall_mem_cons,
    List.forall_mem_map, List.forall_mem_flatMap, List.not_mem_nil, false_implies, implies_true,
    true_and, and_true, imp_and, forall_and]
  -- the same conditions, in another order
  apply iff_of_eq
  ac_rfl

/-- The signatures of a block are canonical and its keys pass the checks, and the
proofs of its deposits and its blobs are as long as their types declare. -/
structure SignedBeaconBlockContent.Checked (content : SignedBeaconBlockContent) : Prop where
  signature : content.signedBlock.signature.Canonical
  signatures : ∀ signature ∈ content.signedBlock.message.body.signatures, signature.Canonical
  keys : ∀ key ∈ content.signedBlock.message.body.keys, key.Validated
  proofs : ∀ deposit ∈ content.signedBlock.message.body.deposits.toList, deposit.proof.Fits
  blobs : ∀ blob ∈ content.blobs.toList, blob.Fits

theorem SignedBeaconBlockContent.admissible_iff {content : SignedBeaconBlockContent} :
    Admissible content ↔ content.Checked := by
  have body : Admissible content.signedBlock.message.body ↔ _ := BeaconBlockBody.admissible_iff
  have fields : Admissible content ↔ (Admissible content.signedBlock.message.body ∧
      content.signedBlock.signature.Canonical) ∧ ∀ blob ∈ content.blobs.toList, blob.Fits := by
    simp only [Readable.Admissible, layout, SignedBeaconBlock.layout, BeaconBlock.layout,
      Layout.holds_start, Layout.holds_field, implies_true, true_and, and_true]
  rw [fields, body]
  constructor
  · rintro ⟨⟨⟨signatures, keys, proofs⟩, signature⟩, blobs⟩
    exact ⟨signature, signatures, keys, proofs, blobs⟩
  · intro checked
    exact ⟨⟨⟨checked.signatures, checked.keys, checked.proofs⟩, checked.signature⟩, checked.blobs⟩

/-- A block is read back from the bytes it is published as, which have the
length declared for them, and no other checked block has these bytes. -/
theorem content_read_back {content : SignedBeaconBlockContent} (checked : content.Checked)
    (short : (asSszBytes content).length < 2 ^ 32) :
    ofSszBytes (asSszBytes content) = some content ∧
    sszBytesLen content = (asSszBytes content).length ∧
    ∀ other : SignedBeaconBlockContent, other.Checked → asSszBytes other = asSszBytes content →
      other = content := by
  have admissible := SignedBeaconBlockContent.admissible_iff.mpr checked
  refine ⟨ofSszBytes_append content admissible short, ?length, ?unambiguous⟩
  case length =>
    have hold : (Encode.container SignedBeaconBlockContent.fields).LengthsHold Admissible :=
      Readable.lengthsHold
    exact hold.bytesLen_eq content admissible
  case unambiguous =>
    intro other otherChecked same
    have otherAdmissible := SignedBeaconBlockContent.admissible_iff.mpr otherChecked
    exact (eq_of_asSszBytes_eq admissible otherAdmissible short same.symm).symm

end Reading

/-! ## A block with operations -/

namespace Demo

/-- A stand-in in which keys are the 48-byte strings whose first bit is set. -/
@[reducible]
def compressedPoints : Crates :=
  { flaggedPoints with
    publicKeyFromBytes := fun bytes =>
      match FixedVector.new bytes with
      | some compressed => if 0x80 ≤ bytes.headD 0 then .ok ⟨compressed⟩ else .error .badEncoding
      | none => .error .badEncoding }

def flaggedSignature (number : UInt8) : BlsSignature :=
  .fromPoint ⟨.resize 0 [0x80, number]⟩ false

def flaggedKey (number : UInt8) : BlsPublicKey := ⟨⟨.resize 0 [0x80, number]⟩⟩

def blockHeader (number : UInt8) : SignedBeaconBlockHeader :=
  ⟨⟨5, 6, ⟨.replicate 0⟩, ⟨.replicate 1⟩, ⟨.replicate number⟩⟩, flaggedSignature number⟩

def attestationData : AttestationData :=
  ⟨5, 0, ⟨.replicate 2⟩, ⟨0, ⟨.replicate 3⟩⟩, ⟨1, ⟨.replicate 4⟩⟩⟩

/-- A published block with a slashing, an attestation by nine validators, a
deposit and a filled payload, under the given signature. -/
def operationsBlock (signature : BlsSignature) : SignedBeaconBlockContent where
  signedBlock := ⟨⟨7, 8, ⟨.replicate 5⟩, ⟨.replicate 6⟩, {
      randaoReveal := flaggedSignature 1
      eth1Data := ⟨⟨.replicate 7⟩, 1, ⟨.replicate 8⟩⟩
      graffiti := ⟨.replicate 9⟩
      proposerSlashings := ⟨[⟨blockHeader 2, blockHeader 3⟩]⟩
      attesterSlashings := .empty
      attestations := ⟨[⟨⟨⟨List.replicate 9 true, by decide⟩⟩, attestationData,
        flaggedSignature 4⟩]⟩
      deposits := ⟨[⟨⟨List.replicate 33 ⟨.replicate 10⟩⟩, ⟨flaggedKey 5, ⟨.replicate 11⟩,
        32000000000, flaggedSignature 5⟩⟩]⟩
      voluntaryExits := .empty
      syncAggregate := ⟨⟨.replicate true⟩, flaggedSignature 6⟩
      executionPayload := filledPayload
      blsToExecutionChanges := .empty
      blobKzgCommitments := ⟨[⟨.replicate 12⟩]⟩ }⟩, signature⟩
  kzgProofs := ⟨[⟨.replicate 13⟩]⟩
  blobs := .empty

attribute [local instance] compressedPoints noTexts

theorem canonical_flaggedSignature (number : UInt8) : (flaggedSignature number).Canonical where
  readBack := by rfl
  infinity := by
    simp [flaggedSignature, BlsSignature.fromPoint, BlsSignature.serialize, infinitySignature,
      FixedVector.resize]
  absent := by
    simp [flaggedSignature, BlsSignature.fromPoint, BlsSignature.serialize, noneSignature,
      FixedVector.resize]

theorem validated_flaggedKey (number : UInt8) : (flaggedKey number).Validated := by
  apply BlsPublicKey.deserialize_eq_ok.mpr
  refine ⟨?finite, by rfl, by rfl, rfl, rfl⟩
  simp [flaggedKey, BlsPublicKey.serialize, infinityPublicKey, FixedVector.resize]

theorem checked_operationsBlock {signature : BlsSignature} (canonical : signature.Canonical) :
    (operationsBlock signature).Checked where
  signature := canonical
  signatures := by
    simp [operationsBlock, BeaconBlockBody.signatures, blockHeader, canonical_flaggedSignature,
      UncheckedList.empty]
  keys := by
    simp [operationsBlock, BeaconBlockBody.keys, validated_flaggedKey, UncheckedList.empty]
  proofs := by simp [operationsBlock, UncheckedVector.Fits]
  blobs _ among := absurd among List.not_mem_nil

theorem length_operationsBlock : ∀ number ∈ [7, 8],
    (asSszBytes (operationsBlock (flaggedSignature number))).length = 3209 := by
  decide +kernel

end Demo

section Operations

open Demo

attribute [local instance] compressedPoints noTexts

/-- The block is read back; but unless infinity is flagged, another block has the
same bytes, and so have blobs of other lengths that are cut elsewhere. -/
theorem operationsBlock_read_back :
    ofSszBytes (asSszBytes (operationsBlock (flaggedSignature 7))) =
      some (operationsBlock (flaggedSignature 7)) ∧
    sszBytesLen (operationsBlock (flaggedSignature 7)) = 3209 ∧
    (let cut : UncheckedList Blob 4096 := ⟨[⟨[1]⟩, ⟨[2, 3]⟩]⟩
     let whole : UncheckedList Blob 4096 := ⟨[⟨[1, 2, 3]⟩]⟩
     asSszBytes cut = asSszBytes whole ∧ sszBytesLen whole ≠ (asSszBytes whole).length) ∧
    asSszBytes (operationsBlock (.fromPoint .infinity false)) =
      asSszBytes (operationsBlock (.fromPoint .infinity true)) ∧
    operationsBlock (.fromPoint .infinity false) ≠ operationsBlock (.fromPoint .infinity true) := by
  have checked := checked_operationsBlock (canonical_flaggedSignature 7)
  have length := length_operationsBlock 7 (by decide)
  have readBack := content_read_back checked (by rw [length]; decide)
  refine ⟨readBack.1, readBack.2.1.trans length, ⟨by rfl, by decide⟩, by rfl, fun same => ?_⟩
  have flags := congrArg (·.signedBlock.signature.isInfinity) same
  exact Bool.noConfusion flags

end Operations

end MevRelay
