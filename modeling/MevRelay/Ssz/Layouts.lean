import MevRelay.Ssz.Chunks
import MevRelay.Ssz.Decoding

/-!
# Containers read field by field

Some types have values that their bytes do not tell apart.  A type is readable
if its admissible values are read back from their encodings.  A layout lists
the fields of a container together with what is made of their values, so that
writing and reading follow one description.
-/

namespace Ssz

variable {Value Container Result : Type}

/-- Types whose admissible values are read back from their encodings. -/
class Readable (Value : Type) [encoding : Encode Value] where
  Admissible : Value → Prop
  lengthsHold : encoding.LengthsHold Admissible
  ofSszBytes : List UInt8 → Option Value
  ofSszBytes_append : ∀ value, Admissible value → (sszAppend value).length < 2 ^ 32 →
    ofSszBytes (sszAppend value) = some value

export Readable (Admissible ofSszBytes ofSszBytes_append)

instance [Encode Value] [Decode Value] : Readable Value where
  Admissible _ := True
  lengthsHold := Decode.lengthsHold
  ofSszBytes := fromSszBytes
  ofSszBytes_append value _ := fromSszBytes_append value

/-- Admissible values with one encoding are equal. -/
theorem eq_of_asSszBytes_eq [Encode Value] [Readable Value] {first second : Value}
    (firstAdmissible : Admissible first) (secondAdmissible : Admissible second)
    (short : (asSszBytes first).length < 2 ^ 32) (same : asSszBytes first = asSszBytes second) :
    first = second := by
  have read : ofSszBytes (asSszBytes first) = some first :=
    ofSszBytes_append first firstAdmissible short
  rw [same] at short read
  have other : ofSszBytes (asSszBytes second) = some second :=
    ofSszBytes_append second secondAdmissible short
  exact Option.some.inj (read.symm.trans other)

section Containers

/-- The fields of a container in declared order, and what is made of their values. -/
structure Layout (Container Result : Type) where
  fields : List (Encode Container)
  Holds : Container → Prop
  lengthsHold : ∀ field ∈ fields, field.LengthsHold Holds
  /-- What is made of the values of a container's fields. -/
  result : Container → Result
  /-- What is made of the fields' bytes, and the bytes of further fields. -/
  read : List (List UInt8) → Option (Result × List (List UInt8))
  read_fields : ∀ container, Holds container →
    (∀ field ∈ fields, (field.sszAppend container).length < 2 ^ 32) → ∀ further,
      read (fields.map (·.sszAppend container) ++ further) = some (result container, further)

namespace Layout

/-- No field so far. -/
def start (make : Result) : Layout Container Result where
  fields := []
  Holds _ := True
  lengthsHold _ listed := absurd listed List.not_mem_nil
  result _ := make
  read pieces := some (make, pieces)
  read_fields _ _ _ _ := rfl

/-- One more field, whose value is given to what was made so far. -/
def field [encoding : Encode Value] [Readable Value] (layout : Layout Container (Value → Result))
    (project : Container → Value) : Layout Container Result where
  fields := layout.fields ++ [.field project]
  Holds container := layout.Holds container ∧ Admissible (project container)
  lengthsHold := by
    have hold : encoding.LengthsHold Admissible := Readable.lengthsHold
    rw [List.forall_mem_append]
    refine ⟨fun field listed => ?_, List.forall_mem_singleton.mpr ?_⟩
    · exact (layout.lengthsHold field listed).mono fun _ holds => holds.1
    · exact (hold.field project).mono fun _ holds => holds.2
  result container := layout.result container (project container)
  read pieces := do
    let (make, further) ← layout.read pieces
    let piece ← further.head?
    let value ← ofSszBytes piece
    return (make value, further.tail)
  read_fields := by
    intro container holds short further
    let last : Encode Container := .field project
    have before := layout.read_fields container holds.1 (fun field listed =>
      short field (List.mem_append_left _ listed)) (last.sszAppend container :: further)
    have own : ofSszBytes (last.sszAppend container) = some (project container) :=
      ofSszBytes_append _ holds.2
        (short last (List.mem_append_right _ (List.mem_singleton_self last)))
    rw [List.map_append, List.append_assoc, List.map_singleton, List.singleton_append, before]
    simp only [Option.bind_eq_bind, Option.bind_some, List.head?_cons, List.tail_cons, own]
    rfl

@[simp]
theorem holds_start (make : Result) (container : Container) :
    (start make).Holds container ↔ True := Iff.rfl

@[simp]
theorem holds_field [Encode Value] [Readable Value] (layout : Layout Container (Value → Result))
    (project : Container → Value) (container : Container) :
    (layout.field project).Holds container ↔
      layout.Holds container ∧ Admissible (project container) := Iff.rfl

end Layout

/-- A container is readable if its layout makes it of its declared fields. -/
@[reducible]
def Readable.container {fields : List (Encode Container)} (layout : Layout Container Container)
    (declared : layout.fields = fields) (nonempty : fields ≠ [])
    (whole : ∀ container, layout.result container = container) :
    @Readable Container (Encode.container fields) :=
  let _ := Encode.container fields
  have hold : ∀ field ∈ fields, field.LengthsHold layout.Holds := declared ▸ layout.lengthsHold
  { Admissible := layout.Holds
    lengthsHold := .container hold nonempty
    ofSszBytes := fun bytes =>
      Prod.fst <$> layout.read (splitParts (fields.map (·.toShape)) bytes)
    ofSszBytes_append := by
      intro container holds short
      have read := layout.read_fields container holds (by
        intro field listed
        rw [declared] at listed
        exact (length_field_le listed container).trans_lt short) []
      rw [splitParts_container hold holds short, ← declared, ← List.append_nil (List.map _ _), read]
      exact congrArg some (whole container) }

end Containers

section Sequences

variable [encoding : Encode Value] {admissible : Value → Prop}

/-- The values' bytes are found again in the encoding of a sequence. -/
theorem splitParts_sequence (hold : encoding.LengthsHold admissible) {values : List Value}
    (allowed : ∀ value ∈ values, admissible value)
    (short : (sequenceAppend values).length < 2 ^ 32) :
    splitParts
        (List.replicate (sequenceCount (shapeOf Value) (sequenceAppend values)) (shapeOf Value))
        (sequenceAppend values) =
      values.map sszAppend := by
  have sized := wellSized_values hold allowed
  rw [sequenceCount_append hold allowed short]
  rw [sequenceAppend_eq hold] at short ⊢
  rw [← map_toShape_values, splitParts_encodeParts sized short, List.map_map]
  rfl

theorem length_sszAppend_le (hold : encoding.LengthsHold admissible) {values : List Value} {value : Value}
    (among : value ∈ values) : (sszAppend value).length ≤ (sequenceAppend values).length := by
  rw [sequenceAppend_eq hold]
  exact Part.length_le _ (List.mem_map_of_mem (f := encoding.part) among)

variable [Readable Value]

/-- The values of a sequence, each read from its own bytes. -/
def readSequence (bytes : List UInt8) : Option (List Value) :=
  (splitParts (List.replicate (sequenceCount (shapeOf Value) bytes) (shapeOf Value)) bytes).mapM
    ofSszBytes

theorem mapM_ofSszBytes {values : List Value} (admissible : ∀ value ∈ values, Admissible value)
    (short : ∀ value ∈ values, (sszAppend value).length < 2 ^ 32) :
    (values.map sszAppend).mapM ofSszBytes = some values := by
  induction values with
  | nil => rfl
  | cons value values inductionHypothesis =>
      rw [List.forall_mem_cons] at admissible short
      rw [List.map_cons, List.mapM_cons, ofSszBytes_append value admissible.1 short.1,
        inductionHypothesis admissible.2 short.2]
      rfl

theorem readSequence_append {values : List Value}
    (admissible : ∀ value ∈ values, Admissible value)
    (short : (sequenceAppend values).length < 2 ^ 32) :
    readSequence (sequenceAppend values) = some values := by
  have hold : encoding.LengthsHold Admissible := Readable.lengthsHold
  rw [readSequence, splitParts_sequence hold admissible short]
  apply mapM_ofSszBytes admissible
  intro value among
  exact (length_sszAppend_le hold among).trans_lt short

theorem lengthsHold_vector (capacity : Nat) [NeZero capacity] :
    (inferInstance : Encode (UncheckedVector Value capacity)).LengthsHold fun vector =>
      vector.Fits ∧ ∀ value ∈ vector.toList, Admissible value :=
  have hold : encoding.LengthsHold Admissible := Readable.lengthsHold
  { length_of_fixed := by
      intro fixed vector allowed
      have inPlace : (shapeOf Value).isSszFixedLen = true := fixed
      apply (sequenceBytesLen_eq hold allowed.2).symm.trans
      rw [sequenceBytesLen, if_pos inPlace, allowed.1]
      exact (if_pos inPlace).symm
    fixedLen_of_variable := fun variable_ => if_neg (ne_true_of_eq_false variable_)
    fixedLen_pos := by
      change 0 < if (shapeOf Value).isSszFixedLen then _ else _
      split
      · exact Nat.mul_pos hold.fixedLen_pos (Nat.pos_of_neZero capacity)
      · exact Nat.succ_pos 3
    bytesLen_eq := fun _ allowed => sequenceBytesLen_eq hold allowed.2 }

/-- A vector is read back if it has the length that is declared for it. -/
instance (priority := low) (capacity : Nat) [NeZero capacity] :
    Readable (UncheckedVector Value capacity) where
  Admissible vector := vector.Fits ∧ ∀ value ∈ vector.toList, Admissible value
  lengthsHold := lengthsHold_vector capacity
  ofSszBytes bytes := UncheckedVector.mk <$> readSequence bytes
  ofSszBytes_append vector admissible short := by
    have read : readSequence (sszAppend vector) = some vector.toList :=
      readSequence_append admissible.2 short
    simp only [read, Option.map_eq_map, Option.map_some]

/-- A list is read back however many elements it has. -/
instance (priority := low) (maximum : Nat) : Readable (UncheckedList Value maximum) where
  Admissible list := ∀ value ∈ list.toList, Admissible value
  lengthsHold :=
    { length_of_fixed := fun fixed => Bool.noConfusion fixed
      fixedLen_of_variable := fun _ => rfl
      fixedLen_pos := Nat.succ_pos 3
      bytesLen_eq := fun _ => sequenceBytesLen_eq Readable.lengthsHold }
  ofSszBytes bytes := UncheckedList.mk <$> readSequence bytes
  ofSszBytes_append list admissible short := by
    have read : readSequence (sszAppend list) = some list.toList :=
      readSequence_append admissible short
    simp only [read, Option.map_eq_map, Option.map_some]

end Sequences

section Bitfields

/-- The bits in front of the last set one. -/
def undelimited (bits : List Bool) : List Bool := (bits.reverse.dropWhile (!·)).tail.reverse

theorem undelimited_append (bits : List Bool) (padding : Nat) :
    undelimited (bits ++ true :: List.replicate padding false) = bits := by
  have clear : ∀ bit ∈ List.replicate padding false, (!bit) = true := by
    intro bit among
    rw [List.eq_of_mem_replicate among]
    rfl
  have trimmed : (bits ++ true :: List.replicate padding false).reverse =
      List.replicate padding false ++ true :: bits.reverse := by simp
  rw [undelimited, trimmed, List.dropWhile_append_of_pos clear]
  simp

/-- Packed bits are read back up to the bit that ends them. -/
theorem undelimited_packBits (bits : List Bool) :
    undelimited ((packBits (bits ++ [true])).flatMap unpackByte) = bits := by
  obtain ⟨padding, unpacked⟩ := flatMap_unpackByte_packBits (bits ++ [true])
  rw [unpacked, List.append_assoc, List.singleton_append, undelimited_append]

theorem take_unpack_packBits (bits : List Bool) :
    ((packBits bits).flatMap unpackByte).take bits.length = bits := by
  obtain ⟨padding, unpacked⟩ := flatMap_unpackByte_packBits bits
  rw [unpacked, List.take_left]

end Bitfields

end Ssz
