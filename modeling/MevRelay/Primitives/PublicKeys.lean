import MevRelay.Primitives.Blst

/-!
# Checked public keys

The deserialiser of public keys, which rejects infinity and points outside the
subgroup, next to the plain conversions, which only decode a point.
-/

namespace MevRelay

open Ssz

/-- What the crates tell of a point that was decoded, and of a text. -/
class KeyCrates where
  isInfinity : Blst.PublicKey → Bool
  inGroup : Blst.PublicKey → Bool
  /-- Decode a hex text with its prefix; an error carries its message. -/
  hexDecode : String → Except String (List UInt8)

/-- The compressed bytes of the point at infinity. -/
def infinityPublicKey : List UInt8 := 0xc0 :: List.replicate 47 0

/-- Why bytes are no public key. -/
inductive KeyError where
  | blst (error : Blst.BlstError)
  | invalidByteLength (got expected : Nat)
  | invalidInfinityPublicKey
  deriving DecidableEq

def Blst.BlstError.toString : Blst.BlstError → String
  | .badEncoding => "BLST_BAD_ENCODING"
  | .pointNotOnCurve => "BLST_POINT_NOT_ON_CURVE"
  | .pointNotInGroup => "BLST_POINT_NOT_IN_GROUP"
  | .aggrTypeMismatch => "BLST_AGGR_TYPE_MISMATCH"
  | .verifyFail => "BLST_VERIFY_FAIL"
  | .pkIsInfinity => "BLST_PK_IS_INFINITY"
  | .badScalar => "BLST_BAD_SCALAR"

def KeyError.toString : KeyError → String
  | .blst error => "Blst(" ++ error.toString ++ ")"
  | .invalidByteLength got expected =>
      "InvalidByteLength \x7b got: " ++ Nat.repr got ++ ", expected: " ++ Nat.repr expected ++ " \x7d"
  | .invalidInfinityPublicKey => "InvalidInfinityPublicKey"

section Checks

variable [KeyCrates]

/-- The point is neither infinity nor outside the subgroup. -/
structure Blst.PublicKey.Valid (point : Blst.PublicKey) : Prop where
  finite : KeyCrates.isInfinity point = false
  inGroup : KeyCrates.inGroup point = true

def Blst.PublicKey.validate (point : Blst.PublicKey) : Except Blst.BlstError Unit :=
  if KeyCrates.isInfinity point then .error .pkIsInfinity
  else if KeyCrates.inGroup point then .ok ()
  else .error .pointNotInGroup

theorem Blst.PublicKey.validate_eq_ok {point : Blst.PublicKey} :
    point.validate = .ok () ↔ point.Valid := by
  unfold validate
  constructor
  · intro valid
    by_cases infinite : KeyCrates.isInfinity point = true
    · rw [if_pos infinite] at valid
      cases valid
    · rw [if_neg infinite] at valid
      by_cases inside : KeyCrates.inGroup point = true
      · exact ⟨Bool.eq_false_of_not_eq_true infinite, inside⟩
      · rw [if_neg inside] at valid
        cases valid
  · intro valid
    rw [valid.finite, valid.inGroup]
    rfl

variable [Crates]

/-- Decode a point and validate it. -/
def Blst.PublicKey.keyValidate (bytes : List UInt8) : Except Blst.BlstError Blst.PublicKey := do
  let point ← Crates.publicKeyFromBytes bytes
  point.validate
  return point

/-- A point from its compressed bytes, validated.  The length is enforced here,
as validation alone takes uncompressed bytes too. -/
def Blst.PublicKey.deserialize (bytes : List UInt8) : Except KeyError Blst.PublicKey :=
  if bytes.length ≠ 48 then .error (.invalidByteLength bytes.length 48)
  else (keyValidate bytes).mapError .blst

/-- A key from its compressed bytes, checked. -/
def BlsPublicKey.deserialize (bytes : List UInt8) : Except KeyError BlsPublicKey :=
  if bytes = infinityPublicKey then .error .invalidInfinityPublicKey
  else BlsPublicKey.mk <$> Blst.PublicKey.deserialize bytes

/-- A key from its hex text, as in JSON bodies and paths. -/
def BlsPublicKey.fromStr (text : String) : Except String BlsPublicKey := do
  let bytes ← KeyCrates.hexDecode text
  (deserialize bytes).mapError KeyError.toString

/-- The checked deserialiser accepts the key from its own bytes. -/
def BlsPublicKey.Validated (key : BlsPublicKey) : Prop := deserialize key.serialize = .ok key

theorem Blst.PublicKey.keyValidate_eq_ok {bytes : List UInt8} {point : Blst.PublicKey} :
    keyValidate bytes = .ok point ↔ Crates.publicKeyFromBytes bytes = .ok point ∧ point.Valid := by
  simp only [keyValidate, except_bind_eq_ok]
  constructor
  · rintro ⟨found, decoded, _, valid, same⟩
    cases same
    exact ⟨decoded, validate_eq_ok.mp valid⟩
  · rintro ⟨decoded, valid⟩
    exact ⟨point, decoded, (), validate_eq_ok.mpr valid, rfl⟩

theorem Blst.PublicKey.deserialize_eq_ok {bytes : List UInt8} {point : Blst.PublicKey} :
    deserialize bytes = .ok point ↔
      bytes.length = 48 ∧ Crates.publicKeyFromBytes bytes = .ok point ∧ point.Valid := by
  unfold deserialize
  by_cases length : bytes.length = 48
  · rw [if_neg (not_not_intro length), mapError_eq_ok, keyValidate_eq_ok]
    simp [length]
  · rw [if_pos length]
    simp [length]

theorem BlsPublicKey.deserialize_eq_ok {bytes : List UInt8} {key : BlsPublicKey} :
    deserialize bytes = .ok key ↔ bytes ≠ infinityPublicKey ∧ bytes.length = 48 ∧
      Crates.publicKeyFromBytes bytes = .ok key.point ∧ key.point.Valid := by
  unfold deserialize
  by_cases infinite : bytes = infinityPublicKey
  · rw [if_pos infinite]
    simp [infinite]
  · rw [if_neg infinite, except_map_eq_ok]
    simp only [Blst.PublicKey.deserialize_eq_ok]
    constructor
    · rintro ⟨point, found, rfl⟩
      exact ⟨infinite, found⟩
    · rintro ⟨_, found⟩
      exact ⟨key.point, found, rfl⟩

/-- What the relay relies on: a point that was decoded is decoded again from its
compressed bytes, and those of infinity are the ones the deserialiser rejects. -/
structure KeyDecoding : Prop where
  roundTrip : ∀ bytes point, Crates.publicKeyFromBytes bytes = .ok point →
    Crates.publicKeyFromBytes point.compressed.toList = .ok point
  infinity : ∀ point : Blst.PublicKey, point.compressed.toList = infinityPublicKey →
    KeyCrates.isInfinity point = true

/-- A key made of a decoded point passes the checks exactly if its point is valid. -/
theorem BlsPublicKey.validated_iff (decoding : KeyDecoding) {bytes : List UInt8}
    {key : BlsPublicKey} (decoded : Crates.publicKeyFromBytes bytes = .ok key.point) :
    key.Validated ↔ key.point.Valid := by
  unfold Validated
  rw [deserialize_eq_ok]
  constructor
  · exact fun accepted => accepted.2.2.2
  · intro valid
    refine ⟨fun infinite => ?_, key.point.compressed.length_eq, decoding.roundTrip bytes _ decoded,
      valid⟩
    have rejected := decoding.infinity key.point infinite
    rw [valid.finite] at rejected
    cases rejected

/-- Every key that comes from a text passes the checks. -/
theorem BlsPublicKey.validated_of_fromStr (decoding : KeyDecoding) {text : String}
    {key : BlsPublicKey} (parsed : fromStr text = .ok key) : key.Validated := by
  rw [fromStr, except_bind_eq_ok] at parsed
  obtain ⟨bytes, _, checked⟩ := parsed
  rw [mapError_eq_ok, deserialize_eq_ok] at checked
  exact (validated_iff decoding checked.2.2.1).mpr checked.2.2.2

/-- The builders enabled on the command line, whose keys are any 48 bytes. -/
def enabledBuilders : List (FixedVector UInt8 48) → Outcome Unit (List BlsPublicKey)
  | [] => return []
  | builder :: rest => do
      let key ← BlsPublicKey.ofBytes builder.toList
      return key :: (← enabledBuilders rest)

omit [KeyCrates] in
theorem decoded_of_enabled {builders : List (FixedVector UInt8 48)} {keys : List BlsPublicKey}
    (enabled : enabledBuilders builders = .ok keys) :
    ∀ key ∈ keys, ∃ bytes, Crates.publicKeyFromBytes bytes = .ok key.point := by
  induction builders generalizing keys with
  | nil =>
      cases enabled
      exact fun key membership => by cases membership
  | cons builder rest inductionHypothesis =>
      rw [enabledBuilders, Outcome.bind_eq_ok] at enabled
      obtain ⟨own, first, enabled⟩ := enabled
      obtain ⟨others, remaining, same⟩ := Outcome.bind_eq_ok.mp enabled
      cases same
      intro key membership
      rcases List.mem_cons.mp membership with rfl | inside
      · exact ⟨_, BlsPublicKey.ofBytes_eq_ok.mp first⟩
      · exact inductionHypothesis remaining key inside

end Checks

end MevRelay
