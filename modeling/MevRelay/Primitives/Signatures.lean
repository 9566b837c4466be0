import MevRelay.Primitives.PublicKeys

/-!
# Canonical signatures

The constructors of signatures.  A signature is canonical if deserialising its
bytes gives it back: the flag then tells infinity, and the point is absent for
zeros only.
-/

namespace MevRelay

open Ssz

/-- The compressed bytes of the signature at infinity. -/
def infinitySignature : List UInt8 := 0xc0 :: List.replicate 95 0

/-- The compressed bytes of the empty signature. -/
def noneSignature : List UInt8 := List.replicate 96 0

theorem infinitySignature_ne_none : infinitySignature ≠ noneSignature := by decide

/-- The point that the infinity bytes stand for. -/
def Blst.Signature.infinity : Blst.Signature := ⟨⟨infinitySignature, rfl⟩⟩

theorem Blst.Signature.eq_infinity_iff {point : Blst.Signature} :
    point = infinity ↔ point.compressed.toList = infinitySignature := by
  constructor
  · rintro rfl
    rfl
  · intro same
    obtain ⟨compressed⟩ := point
    exact congrArg Blst.Signature.mk (FixedVector.ext same)

/-- Why bytes are no encoding of a value. -/
inductive DecodeError where
  | invalidByteLength (len expected : Nat)
  | bytesInvalid (message : String)
  deriving DecidableEq

namespace BlsSignature

/-- The signature without a point, which is also the default. -/
def empty : BlsSignature := ⟨none, false⟩

variable [Crates]

/-- A signature from its compressed bytes. -/
def deserialize (bytes : List UInt8) : Except KeyError BlsSignature := do
  let point ← (if bytes = noneSignature then .ok none
    else some <$> (Crates.signatureFromBytes bytes).mapError .blst : Except KeyError _)
  return ⟨point, bytes = infinitySignature⟩

/-- A signature from its encoding, which has exactly 96 bytes. -/
def fromSszBytes (bytes : List UInt8) : Except DecodeError BlsSignature :=
  if bytes.length ≠ 96 then .error (.invalidByteLength bytes.length 96)
  else (deserialize bytes).mapError fun error => .bytesInvalid error.toString

/-- The signature that a secret key gives a message. -/
def sign (secretKey : Blst.SecretKey) (message : Hash256) : BlsSignature :=
  fromPoint (Crates.sign secretKey message) false

/-- A signature from its hex text. -/
def fromStr [KeyCrates] (text : String) : Except String BlsSignature := do
  let bytes ← KeyCrates.hexDecode text
  (deserialize bytes).mapError KeyError.toString

/-- A signature out of a serialised value, if a text is found there. -/
def ofVisited [KeyCrates] (visited : Except String String) : Except String BlsSignature := do
  let text ← visited
  fromStr text

theorem deserialize_eq_ok {bytes : List UInt8} {signature : BlsSignature} :
    deserialize bytes = .ok signature ↔
      (bytes = noneSignature ∧ signature = empty) ∨
        bytes ≠ noneSignature ∧ ∃ point, Crates.signatureFromBytes bytes = .ok point ∧
          signature = ⟨some point, bytes = infinitySignature⟩ := by
  rw [deserialize, except_bind_eq_ok]
  by_cases none : bytes = noneSignature
  · subst none
    simp [empty, infinitySignature_ne_none.symm, eq_comm, pure, Except.pure]
  · simp only [if_neg none, except_map_eq_ok, mapError_eq_ok]
    constructor
    · rintro ⟨_, ⟨point, decoded, rfl⟩, same⟩
      cases same
      exact .inr ⟨none, point, decoded, rfl⟩
    · rintro (⟨zeros, _⟩ | ⟨_, point, decoded, rfl⟩)
      · exact absurd zeros none
      · exact ⟨_, ⟨point, decoded, rfl⟩, rfl⟩

theorem ofBytes_eq_ok {Error : Type} {bytes : List UInt8} {signature : BlsSignature} :
    (ofBytes bytes : Outcome Error BlsSignature) = .ok signature ↔
      ∃ point, Crates.signatureFromBytes bytes = .ok point ∧ signature = fromPoint point false := by
  rw [ofBytes, Outcome.expect_eq_ok, except_map_eq_ok]
  simp only [eq_comm]

theorem fromStr_eq_ok [KeyCrates] {text : String} {signature : BlsSignature} :
    fromStr text = .ok signature ↔
      ∃ bytes, KeyCrates.hexDecode text = .ok bytes ∧ deserialize bytes = .ok signature := by
  simp only [fromStr, except_bind_eq_ok, mapError_eq_ok]

theorem fromSszBytes_eq_ok {bytes : List UInt8} {signature : BlsSignature} :
    fromSszBytes bytes = .ok signature ↔
      bytes.length = 96 ∧ deserialize bytes = .ok signature := by
  unfold fromSszBytes
  by_cases length : bytes.length = 96
  · rw [if_neg (not_not_intro length), mapError_eq_ok]
    simp [length]
  · rw [if_pos length]
    simp [length]

/-- Deserialising the bytes of a signature gives it back: the flag says that
they are those of infinity, and the point is absent if they are zeros. -/
structure Canonical (signature : BlsSignature) : Prop where
  readBack : deserialize signature.serialize = .ok signature
  infinity : signature.isInfinity = true ↔ signature.serialize = infinitySignature
  absent : signature.point = none ↔ signature.serialize = noneSignature

end BlsSignature

/-- What the relay relies on: points that were decoded or signed are decoded
from their compressed bytes, those of infinity among them, and zeros are not. -/
structure SignatureDecoding [Crates] : Prop where
  roundTrip : ∀ bytes point, Crates.signatureFromBytes bytes = .ok point →
    Crates.signatureFromBytes point.compressed.toList = .ok point
  signed : ∀ secretKey message,
    Crates.signatureFromBytes (Crates.sign secretKey message).compressed.toList =
      .ok (Crates.sign secretKey message)
  infinity : Crates.signatureFromBytes infinitySignature = .ok .infinity
  zeros : ∀ point, Crates.signatureFromBytes noneSignature ≠ .ok point

namespace BlsSignature

variable [Crates]

theorem canonical_empty : Canonical empty where
  readBack := deserialize_eq_ok.mpr (.inl ⟨rfl, rfl⟩)
  infinity := by
    simp only [empty, Bool.false_eq_true, false_iff]
    exact infinitySignature_ne_none.symm
  absent := by simp [empty, serialize, noneSignature]

/-- A signature with a point is canonical if its flag tells whether this is infinity. -/
theorem canonical_iff (decoding : SignatureDecoding) {point : Blst.Signature} {isInfinity : Bool}
    (decoded : Crates.signatureFromBytes point.compressed.toList = .ok point) :
    Canonical (fromPoint point isInfinity) ↔ (isInfinity = true ↔ point = .infinity) := by
  have nonzero : point.compressed.toList ≠ noneSignature := by
    intro zeros
    rw [zeros] at decoded
    exact decoding.zeros point decoded
  constructor
  · intro canonical
    rw [Blst.Signature.eq_infinity_iff]
    exact canonical.infinity
  · intro flag
    have told : isInfinity = decide (point.compressed.toList = infinitySignature) := by
      rw [Bool.eq_iff_iff, decide_eq_true_eq, flag, Blst.Signature.eq_infinity_iff]
    refine ⟨?readBack, ?infinity, ?absent⟩
    case readBack =>
      refine deserialize_eq_ok.mpr (.inr ⟨nonzero, point, decoded, ?_⟩)
      rw [fromPoint, told]
      rfl
    case infinity => exact flag.trans Blst.Signature.eq_infinity_iff
    case absent =>
      exact ⟨fun absent => absurd absent (Option.some_ne_none point),
        fun zeros => absurd zeros nonzero⟩

/-- The bytes are those of infinity whenever they are decoded to infinity. -/
def CompressedInfinity (bytes : List UInt8) : Prop :=
  Crates.signatureFromBytes bytes = .ok .infinity → bytes = infinitySignature

theorem canonical_deserialize_iff (decoding : SignatureDecoding) {bytes : List UInt8}
    {signature : BlsSignature} (accepted : deserialize bytes = .ok signature) :
    signature.Canonical ↔ CompressedInfinity bytes := by
  rcases deserialize_eq_ok.mp accepted with ⟨rfl, rfl⟩ | ⟨_, point, decoded, rfl⟩
  · have undecoded : CompressedInfinity noneSignature := fun found =>
      absurd found (decoding.zeros _)
    exact iff_of_true canonical_empty undecoded
  · apply (canonical_iff decoding (decoding.roundTrip bytes point decoded)).trans
    rw [decide_eq_true_eq, CompressedInfinity, decoded, Except.ok.injEq]
    constructor
    · exact fun flag => flag.mpr
    · intro only
      refine ⟨fun infinite => ?_, only⟩
      rw [infinite, decoding.infinity] at decoded
      exact (Except.ok.inj decoded).symm

theorem canonical_unflagged_iff (decoding : SignatureDecoding) {point : Blst.Signature}
    (decoded : Crates.signatureFromBytes point.compressed.toList = .ok point) :
    Canonical (fromPoint point false) ↔ point ≠ .infinity := by
  rw [canonical_iff decoding decoded]
  simp

theorem canonical_ofBytes_iff {Error : Type} (decoding : SignatureDecoding) {bytes : List UInt8}
    {signature : BlsSignature}
    (read : (ofBytes bytes : Outcome Error BlsSignature) = .ok signature) :
    signature.Canonical ↔ Crates.signatureFromBytes bytes ≠ .ok .infinity := by
  obtain ⟨point, decoded, rfl⟩ := ofBytes_eq_ok.mp read
  rw [canonical_unflagged_iff decoding (decoding.roundTrip bytes point decoded), decoded]
  simp only [ne_eq, Except.ok.injEq]

/-- Where deserialising succeeds, the plain conversion gives the same signature
except for the two special encodings. -/
theorem ofBytes_eq_deserialized_iff {Error : Type} (decoding : SignatureDecoding)
    {bytes : List UInt8} {signature : BlsSignature}
    (accepted : deserialize bytes = .ok signature) :
    (ofBytes bytes : Outcome Error BlsSignature) = .ok signature ↔
      bytes ≠ noneSignature ∧ bytes ≠ infinitySignature := by
  rw [ofBytes_eq_ok]
  rcases deserialize_eq_ok.mp accepted with ⟨rfl, rfl⟩ | ⟨nonzero, point, decoded, rfl⟩
  · simp [decoding.zeros]
  · simp only [decoded, Except.ok.injEq, fromPoint, BlsSignature.mk.injEq]
    simp [nonzero]

end BlsSignature

section Constructions

variable [Crates] [KeyCrates]

/-- The ways to a signature, each with what it is made from. -/
inductive SignatureSource where
  | empty
  | deserialize (bytes : List UInt8)
  | fromStr (text : String)
  | serde (visited : Except String String)
  | ssz (bytes : List UInt8)
  | sign (secretKey : Blst.SecretKey) (message : Hash256)
  | ofBytes (bytes : List UInt8)

/-- The signature that is made, unless the construction fails. -/
def SignatureSource.signature? : SignatureSource → Option BlsSignature
  | empty => some .empty
  | deserialize bytes => (BlsSignature.deserialize bytes).toOption
  | fromStr text => (BlsSignature.fromStr text).toOption
  | serde visited => (BlsSignature.ofVisited visited).toOption
  | ssz bytes => (BlsSignature.fromSszBytes bytes).toOption
  | sign secretKey message => some (BlsSignature.sign secretKey message)
  | ofBytes bytes =>
      match (BlsSignature.ofBytes bytes : Outcome Unit BlsSignature) with
      | .ok signature => some signature
      | _ => none

/-- Infinity comes in the one encoding that is flagged, to a constructor that
flags it. -/
def SignatureSource.FlagsInfinity : SignatureSource → Prop
  | empty => True
  | deserialize bytes => BlsSignature.CompressedInfinity bytes
  | fromStr text => ∀ bytes, KeyCrates.hexDecode text = .ok bytes →
      BlsSignature.CompressedInfinity bytes
  | serde visited => ∀ text, visited = .ok text → ∀ bytes, KeyCrates.hexDecode text = .ok bytes →
      BlsSignature.CompressedInfinity bytes
  | ssz bytes => BlsSignature.CompressedInfinity bytes
  | sign secretKey message => Crates.sign secretKey message ≠ .infinity
  | ofBytes bytes => Crates.signatureFromBytes bytes ≠ .ok .infinity

theorem SignatureSource.canonical_iff (decoding : SignatureDecoding) {source : SignatureSource}
    {signature : BlsSignature} (made : source.signature? = some signature) :
    signature.Canonical ↔ source.FlagsInfinity := by
  cases source with
  | empty =>
      cases made
      exact iff_of_true BlsSignature.canonical_empty trivial
  | deserialize bytes =>
      exact BlsSignature.canonical_deserialize_iff decoding (toOption_eq_some.mp made)
  | fromStr text =>
      obtain ⟨bytes, read, accepted⟩ := BlsSignature.fromStr_eq_ok.mp (toOption_eq_some.mp made)
      rw [BlsSignature.canonical_deserialize_iff decoding accepted, FlagsInfinity, read]
      simp only [Except.ok.injEq, forall_eq']
  | serde visited =>
      obtain ⟨text, rfl, parsed⟩ := except_bind_eq_ok.mp (toOption_eq_some.mp made)
      obtain ⟨bytes, read, accepted⟩ := BlsSignature.fromStr_eq_ok.mp parsed
      rw [BlsSignature.canonical_deserialize_iff decoding accepted, FlagsInfinity]
      simp only [Except.ok.injEq, forall_eq', read]
  | ssz bytes =>
      have accepted := (BlsSignature.fromSszBytes_eq_ok.mp (toOption_eq_some.mp made)).2
      exact BlsSignature.canonical_deserialize_iff decoding accepted
  | sign secretKey message =>
      cases made
      exact BlsSignature.canonical_unflagged_iff decoding (decoding.signed secretKey message)
  | ofBytes bytes =>
      simp only [signature?] at made
      split at made
      case h_1 signature read =>
        cases made
        exact BlsSignature.canonical_ofBytes_iff decoding read
      case h_2 => cases made

/-- A signature is canonical exactly if its construction flags infinity, and
deserialising and plain conversion agree exactly off the special encodings. -/
theorem signatures_canonical_iff (decoding : SignatureDecoding) :
    (∀ (source : SignatureSource) (signature : BlsSignature),
      source.signature? = some signature → (signature.Canonical ↔ source.FlagsInfinity)) ∧
    ∀ (bytes : List UInt8) (signature : BlsSignature),
      BlsSignature.deserialize bytes = .ok signature →
        ((BlsSignature.ofBytes bytes : Outcome Unit BlsSignature) = .ok signature ↔
          bytes ≠ noneSignature ∧ bytes ≠ infinitySignature) := by
  refine ⟨fun source signature made => ?_, fun bytes signature accepted => ?_⟩
  · exact source.canonical_iff decoding made
  · exact BlsSignature.ofBytes_eq_deserialized_iff decoding accepted

end Constructions

/-! ## Infinity over gRPC -/

namespace Demo

/-- The uncompressed encoding of infinity. -/
def uncompressedInfinity : List UInt8 := 0x40 :: List.replicate 191 0

/-- A stand-in in which points are the 96-byte strings whose first bit is set,
and infinity has an uncompressed encoding too. -/
@[reducible]
def flaggedPoints : Crates where
  hash32Concat left _ := left
  publicKeyFromBytes _ := .error .badEncoding
  signatureFromBytes bytes :=
    match FixedVector.new bytes with
    | some compressed => if 0x80 ≤ bytes.headD 0 then .ok ⟨compressed⟩ else .error .badEncoding
    | none => if bytes = uncompressedInfinity then .ok .infinity else .error .badEncoding
  verify _ _ _ := false
  skToPk _ := ⟨.replicate 0⟩
  sign _ message := ⟨.resize 0 (0x80 :: message.bytes.toList)⟩
  u256FromStr _ := none

/-- A stand-in that reads no texts. -/
@[reducible]
def noTexts : KeyCrates where
  isInfinity _ := false
  inGroup _ := true
  hexDecode _ := .error "hex must have 0x prefix"

attribute [local instance] flaggedPoints noTexts

theorem flaggedPoints_compressed {point : Blst.Signature}
    (flagged : 0x80 ≤ point.compressed.toList.headD 0) :
    Crates.signatureFromBytes point.compressed.toList = .ok point := by
  simp only [Crates.signatureFromBytes, FixedVector.new_toList, if_pos flagged]

theorem flaggedPoints_decoding : SignatureDecoding where
  roundTrip bytes point decoded := by
    apply flaggedPoints_compressed
    simp only [Crates.signatureFromBytes] at decoded
    split at decoded
    case h_1 compressed exactly =>
      by_cases flagged : 0x80 ≤ bytes.headD 0
      · rw [if_pos flagged] at decoded
        cases decoded
        rw [FixedVector.toList_of_new exactly]
        exact flagged
      · rw [if_neg flagged] at decoded
        cases decoded
    case h_2 =>
      split at decoded
      case isTrue =>
        cases decoded
        decide
      case isFalse => cases decoded
  signed secretKey message := by
    apply flaggedPoints_compressed
    simp [Crates.sign, FixedVector.resize]
  infinity := rfl
  zeros _ decoded := by
    have undecoded : Crates.signatureFromBytes noneSignature = .error .badEncoding := rfl
    rw [undecoded] at decoded
    cases decoded

/-- Infinity read by the deserialiser is canonical, and the plain conversion misses it. -/
theorem infinity_deserialized :
    (BlsSignature.fromPoint .infinity true).Canonical ∧
    (BlsSignature.ofBytes infinitySignature : Outcome Unit BlsSignature) ≠
      .ok (.fromPoint .infinity true) := by
  have known := signatures_canonical_iff flaggedPoints_decoding
  refine ⟨(known.1 (.deserialize infinitySignature) (.fromPoint .infinity true) rfl).mpr ?_, ?_⟩
  · exact fun _ => rfl
  · rw [Ne, known.2 infinitySignature (.fromPoint .infinity true) rfl]
    exact fun special => special.2 rfl

/-- Over gRPC infinity is a signature without the flag, and zeros are none at all. -/
theorem infinity_unflagged :
    SignatureDecoding ∧
    (SignatureSource.ofBytes infinitySignature).signature? = some (.fromPoint .infinity false) ∧
    BlsSignature.deserialize (BlsSignature.fromPoint .infinity false).serialize =
      .ok (.fromPoint .infinity true) ∧
    BlsSignature.deserialize noneSignature = .ok .empty ∧
    (BlsSignature.ofBytes noneSignature : Outcome Unit BlsSignature) = .panicked ∧
    ¬ ((∀ (source : SignatureSource) (signature : BlsSignature),
        source.signature? = some signature → signature.Canonical) ∧
      ∀ (bytes : List UInt8) (signature : BlsSignature),
        BlsSignature.deserialize bytes = .ok signature →
          (BlsSignature.ofBytes bytes : Outcome Unit BlsSignature) = .ok signature) := by
  refine ⟨flaggedPoints_decoding, rfl, rfl, rfl, rfl, fun all => ?_⟩
  have canonical := all.1 (.ofBytes infinitySignature) (.fromPoint .infinity false) rfl
  rw [BlsSignature.canonical_unflagged_iff flaggedPoints_decoding rfl] at canonical
  exact canonical rfl

end Demo

end MevRelay
