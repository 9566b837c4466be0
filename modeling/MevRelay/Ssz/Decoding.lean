import MevRelay.Ssz.Encoding

/-!
# Decoding by offsets

A type is decodable if its declared lengths are those of its bytes and its
values are read back from their encodings, where four bytes hold every offset.
Containers and sequences of decodable types are decodable.
-/

namespace Ssz

variable {Value Container : Type}

/-- The lengths a type declares are those of the bytes it writes for admissible values. -/
structure Encode.LengthsHold (encoding : Encode Value) (admissible : Value → Prop) : Prop where
  length_of_fixed : encoding.isSszFixedLen = true →
    ∀ value, admissible value → (encoding.sszAppend value).length = encoding.sszFixedLen
  fixedLen_of_variable : encoding.isSszFixedLen = false →
    encoding.sszFixedLen = bytesPerLengthOffset
  fixedLen_pos : 0 < encoding.sszFixedLen
  bytesLen_eq : ∀ value, admissible value →
    encoding.sszBytesLen value = (encoding.sszAppend value).length

theorem Encode.LengthsHold.wellSized {encoding : Encode Value} {admissible : Value → Prop}
    (hold : encoding.LengthsHold admissible) {value : Value} (allowed : admissible value) :
    (encoding.part value).WellSized := by
  rw [Part.WellSized]
  cases fixed : encoding.isSszFixedLen with
  | true => simp [Encode.part, fixed, hold.length_of_fixed fixed value allowed]
  | false => simp [Encode.part, fixed, hold.fixedLen_of_variable fixed]

/-- Lengths that hold for some values hold for fewer. -/
theorem Encode.LengthsHold.mono {encoding : Encode Value} {admissible fewer : Value → Prop}
    (hold : encoding.LengthsHold admissible) (among : ∀ value, fewer value → admissible value) :
    encoding.LengthsHold fewer :=
  { hold with
    length_of_fixed := fun fixed value allowed =>
      hold.length_of_fixed fixed value (among value allowed)
    bytesLen_eq := fun value allowed => hold.bytesLen_eq value (among value allowed) }

/-- Types whose values are read back from their encodings. -/
class Decode (Value : Type) [encoding : Encode Value] where
  lengthsHold : encoding.LengthsHold fun _ => True
  fromSszBytes : List UInt8 → Option Value
  fromSszBytes_append : ∀ value, (sszAppend value).length < 2 ^ 32 →
    fromSszBytes (sszAppend value) = some value

export Decode (fromSszBytes fromSszBytes_append)

/-- Values with one encoding are equal. -/
theorem asSszBytes_injective [Encode Value] [Decode Value] {first second : Value}
    (short : (asSszBytes first).length < 2 ^ 32) (same : asSszBytes first = asSszBytes second) :
    first = second := by
  have read : fromSszBytes (asSszBytes first) = some first := fromSszBytes_append first short
  rw [same] at short read
  have other : fromSszBytes (asSszBytes second) = some second := fromSszBytes_append second short
  exact Option.some.inj (read.symm.trans other)

/-- The length a part adds to an encoding, with its offset if it has one. -/
def Part.fullLen (part : Part) : Nat :=
  if part.isSszFixedLen then part.sszFixedLen else bytesPerLengthOffset + part.bytes.length

theorem length_encodeParts_eq_sum {parts : List Part} (sized : ∀ part ∈ parts, part.WellSized)
    (numFixedBytes : Nat) :
    (encodeParts numFixedBytes parts).length = (parts.map Part.fullLen).sum := by
  rw [length_encodeParts sized]
  induction parts with
  | nil => rfl
  | cons part parts inductionHypothesis =>
      have declared := sized part List.mem_cons_self
      have remaining := inductionHypothesis fun other among =>
        sized other (List.mem_cons_of_mem _ among)
      simp only [fixedBytes, List.map_cons, List.sum_cons] at remaining ⊢
      cases fixed : part.isSszFixedLen with
      | true =>
          simp only [tails, Part.fullLen, fixed, if_true]
          omega
      | false =>
          simp only [Part.WellSized, fixed, Bool.false_eq_true, if_false] at declared
          simp only [tails, Part.fullLen, fixed, declared, Bool.false_eq_true, if_false,
            List.length_append]
          omega

section Containers

variable {fields : List (Encode Container)} {admissible : Container → Prop}

/-- A field has the lengths its type has. -/
theorem Encode.LengthsHold.field [encoding : Encode Value] {admissible : Value → Prop}
    (hold : encoding.LengthsHold admissible) (project : Container → Value) :
    (Encode.field project).LengthsHold fun container => admissible (project container) :=
  { length_of_fixed := fun fixed container => hold.length_of_fixed fixed (project container)
    fixedLen_of_variable := hold.fixedLen_of_variable
    fixedLen_pos := hold.fixedLen_pos
    bytesLen_eq := fun container => hold.bytesLen_eq (project container) }

theorem Encode.LengthsHold.decoded [encoding : Encode Value] [Decode Value]
    (project : Container → Value) : (Encode.field project).LengthsHold fun _ => True :=
  let hold : encoding.LengthsHold fun _ => True := Decode.lengthsHold
  hold.field project

/-- A field is read back as the type of its values is. -/
theorem fromSszBytes_field [Encode Value] [Decode Value] (project : Container → Value)
    {container : Container}
    (short : ((Encode.field project).sszAppend container).length < 2 ^ 32) :
    fromSszBytes ((Encode.field project).sszAppend container) = some (project container) :=
  fromSszBytes_append (project container) short

@[simp]
theorem map_toShape_part (fields : List (Encode Container)) (container : Container) :
    (fields.map (·.part container)).map (·.toShape) = fields.map (·.toShape) := by
  rw [List.map_map]
  rfl

theorem wellSized_fields (hold : ∀ field ∈ fields, field.LengthsHold admissible)
    {container : Container} (allowed : admissible container) :
    ∀ part ∈ fields.map (·.part container), part.WellSized := by
  rw [List.forall_mem_map]
  intro field listed
  exact (hold field listed).wellSized allowed

theorem Encode.LengthsHold.container (hold : ∀ field ∈ fields, field.LengthsHold admissible)
    (nonempty : fields ≠ []) : (Encode.container fields).LengthsHold admissible := by
  have inPlace : fields.all (·.isSszFixedLen) = true → ∀ container, admissible container →
      (encodeParts (fixedBytes (fields.map (·.toShape))) (fields.map (·.part container))).length =
        fixedBytes (fields.map (·.toShape)) := by
    intro allFixed container allowed
    have fixed : ∀ part ∈ fields.map (·.part container), part.isSszFixedLen = true :=
      List.forall_mem_map.mpr (List.all_eq_true.mp allFixed)
    rw [length_encodeParts (wellSized_fields hold allowed), tails_of_fixed fixed,
      map_toShape_part]
    rfl
  refine ⟨?fixed, ?varying, ?positive, ?bytesLen⟩
  case fixed =>
    intro allFixed container allowed
    exact (inPlace allFixed container allowed).trans (if_pos allFixed).symm
  case varying =>
    intro someVariable
    exact if_neg (ne_true_of_eq_false someVariable)
  case positive =>
    change 0 < if fields.all (·.isSszFixedLen) then _ else _
    split
    · obtain ⟨field, rest, rfl⟩ := List.exists_cons_of_ne_nil nonempty
      have first := (hold field List.mem_cons_self).fixedLen_pos
      simp only [fixedBytes, List.map_cons, List.sum_cons]
      omega
    · exact Nat.succ_pos 3
  case bytesLen =>
    intro container allowed
    change (if fields.all (·.isSszFixedLen) then _ else _) = _
    split
    case isTrue allFixed => exact (inPlace allFixed container allowed).symm
    case isFalse =>
      have full := length_encodeParts_eq_sum (wellSized_fields hold allowed)
        (fixedBytes (fields.map (·.toShape)))
      refine Eq.trans ?_ full.symm
      rw [List.map_map]
      congr 1
      apply List.map_congr_left
      intro field listed
      simp only [Function.comp_apply, Part.fullLen, Encode.part,
        (hold field listed).bytesLen_eq container allowed]

/-- The fields are found again in the encoding of the container. -/
theorem splitParts_container (hold : ∀ field ∈ fields, field.LengthsHold admissible)
    {container : Container} (allowed : admissible container)
    (short : ((Encode.container fields).sszAppend container).length < 2 ^ 32) :
    splitParts (fields.map (·.toShape)) ((Encode.container fields).sszAppend container) =
      fields.map (·.sszAppend container) := by
  have split := splitParts_encodeParts (wellSized_fields hold allowed)
  rw [map_toShape_part, List.map_map] at split
  exact split short

theorem length_field_le {field : Encode Container} (listed : field ∈ fields)
    (container : Container) :
    (field.sszAppend container).length ≤
      ((Encode.container fields).sszAppend container).length :=
  Part.length_le (fixedBytes (fields.map (·.toShape)))
    (List.mem_map_of_mem (f := fun field => field.part container) listed)

/-- A container is decodable if it is built from the bytes of its fields. -/
@[reducible]
def Decode.container (hold : ∀ field ∈ fields, field.LengthsHold fun _ => True) (nonempty : fields ≠ [])
    (build : List (List UInt8) → Option Container)
    (built : ∀ container, (∀ field ∈ fields, (field.sszAppend container).length < 2 ^ 32) →
      build (fields.map (·.sszAppend container)) = some container) :
    @Decode Container (Encode.container fields) :=
  let _ := Encode.container fields
  { lengthsHold := .container hold nonempty
    fromSszBytes := fun bytes => build (splitParts (fields.map (·.toShape)) bytes)
    fromSszBytes_append := by
      intro container short
      rw [splitParts_container hold trivial short]
      apply built
      intro field listed
      exact (length_field_le listed container).trans_lt short }

end Containers

section Sequences

variable [encoding : Encode Value] {admissible : Value → Prop}

theorem fixed_values (fixed : encoding.isSszFixedLen = true) (values : List Value) :
    ∀ part ∈ values.map encoding.part, part.isSszFixedLen = true :=
  List.forall_mem_map.mpr fun _ _ => fixed

/-- A sequence is its parts, whether their length is fixed or not. -/
theorem sequenceAppend_eq (hold : encoding.LengthsHold admissible) (values : List Value) :
    sequenceAppend values =
      encodeParts (fixedBytes ((values.map encoding.part).map (·.toShape)))
        (values.map encoding.part) := by
  rw [sequenceAppend]
  cases fixed : encoding.isSszFixedLen with
  | true =>
      rw [if_pos rfl, encodeParts_of_fixed]
      · rw [List.flatMap_map]
        rfl
      · exact fixed_values fixed values
  | false =>
      rw [if_neg Bool.false_ne_true]
      congr 1
      rw [List.map_map, ← hold.fixedLen_of_variable fixed]
      simp [fixedBytes, Function.comp_def, Encode.part]

theorem wellSized_values (hold : encoding.LengthsHold admissible) {values : List Value}
    (allowed : ∀ value ∈ values, admissible value) :
    ∀ part ∈ values.map encoding.part, part.WellSized := by
  rw [List.forall_mem_map]
  intro value among
  exact hold.wellSized (allowed value among)

theorem fixedBytes_replicate (count : Nat) :
    fixedBytes (List.replicate count (shapeOf Value)) =
      count * (shapeOf Value).sszFixedLen := by
  simp [fixedBytes]

theorem map_toShape_values (values : List Value) :
    (values.map encoding.part).map (·.toShape) = List.replicate values.length (shapeOf Value) := by
  simp [List.map_map, Function.comp_def, Encode.part]

theorem sequenceBytesLen_eq (hold : encoding.LengthsHold admissible) {values : List Value}
    (allowed : ∀ value ∈ values, admissible value) :
    sequenceBytesLen values = (sequenceAppend values).length := by
  rw [sequenceAppend_eq hold, length_encodeParts_eq_sum (wellSized_values hold allowed),
    sequenceBytesLen, List.map_map]
  cases fixed : encoding.isSszFixedLen with
  | true => simp [Function.comp_def, Part.fullLen, Encode.part, fixed, Nat.mul_comm]
  | false =>
      have lengths : values.map sszBytesLen = values.map fun value => (sszAppend value).length :=
        List.map_congr_left fun value among => hold.bytesLen_eq value (allowed value among)
      simp [Function.comp_def, Part.fullLen, Encode.part, fixed, lengths, List.sum_map_add,
        Nat.add_comm, Nat.mul_comm]

/-- The number of values in a sequence: variable ones start where the offsets end. -/
def sequenceCount (shape : Shape) (bytes : List UInt8) : Nat :=
  if shape.isSszFixedLen then bytes.length / shape.sszFixedLen
  else readLittleEndian (bytes.take bytesPerLengthOffset) / bytesPerLengthOffset

theorem sequenceCount_append (hold : encoding.LengthsHold admissible) {values : List Value}
    (allowed : ∀ value ∈ values, admissible value)
    (short : (sequenceAppend values).length < 2 ^ 32) :
    sequenceCount (shapeOf Value) (sequenceAppend values) = values.length := by
  have sized := wellSized_values hold allowed
  rw [sequenceAppend_eq hold] at short ⊢
  rw [map_toShape_values, fixedBytes_replicate] at short ⊢
  rw [length_encodeParts sized, map_toShape_values, fixedBytes_replicate] at short
  cases fixed : encoding.isSszFixedLen with
  | true =>
      rw [sequenceCount, if_pos fixed, length_encodeParts sized,
        tails_of_fixed (fixed_values fixed values), map_toShape_values, fixedBytes_replicate,
        List.length_nil, Nat.add_zero]
      exact Nat.mul_div_cancel _ hold.fixedLen_pos
  | false =>
      have width : (shapeOf Value).sszFixedLen = bytesPerLengthOffset :=
        hold.fixedLen_of_variable fixed
      rw [width] at short ⊢
      rw [sequenceCount, if_neg (ne_true_of_eq_false fixed), encodeParts_eq]
      cases values with
      | nil => simp [heads, tails, readLittleEndian]
      | cons value values =>
          have variable_ : (encoding.part value).isSszFixedLen = false := fixed
          -- the first offset is the length of all offsets
          rw [List.map_cons, heads, if_neg (ne_true_of_eq_false variable_), List.append_assoc,
            List.take_left' (length_encodeLength _), readLittleEndian_encodeLength (by omega)]
          exact Nat.mul_div_cancel _ (Nat.succ_pos 3)

/-- The values of a sequence, each from its own bytes. -/
def decodeSequence [Decode Value] (bytes : List UInt8) : Option (List Value) :=
  (splitParts (List.replicate (sequenceCount (shapeOf Value) bytes) (shapeOf Value)) bytes).mapM
    fromSszBytes

theorem mapM_fromSszBytes [Decode Value] {values : List Value}
    (short : ∀ value ∈ values, (sszAppend value).length < 2 ^ 32) :
    (values.map sszAppend).mapM fromSszBytes = some values := by
  induction values with
  | nil => rfl
  | cons value values inductionHypothesis =>
      rw [List.map_cons, List.mapM_cons, fromSszBytes_append value (short value List.mem_cons_self),
        inductionHypothesis fun other among => short other (List.mem_cons_of_mem _ among)]
      rfl

theorem decodeSequence_append [Decode Value] {values : List Value}
    (short : (sequenceAppend values).length < 2 ^ 32) :
    decodeSequence (sequenceAppend values) = some values := by
  have hold : encoding.LengthsHold fun _ => True := Decode.lengthsHold
  have sized : ∀ part ∈ values.map encoding.part, part.WellSized :=
    wellSized_values hold fun _ _ => trivial
  have each : ∀ value ∈ values, (sszAppend value).length < 2 ^ 32 := by
    intro value among
    rw [sequenceAppend_eq hold] at short
    exact (Part.length_le _ (List.mem_map_of_mem (f := encoding.part) among)).trans_lt short
  rw [decodeSequence, sequenceCount_append hold (fun _ _ => trivial) short]
  rw [sequenceAppend_eq hold] at short ⊢
  rw [← map_toShape_values, splitParts_encodeParts sized short, List.map_map]
  exact mapM_fromSszBytes each

end Sequences

section Instances

instance : Decode UInt8 where
  lengthsHold :=
    { length_of_fixed := fun _ _ _ => rfl
      fixedLen_of_variable := fun variable_ => Bool.noConfusion variable_
      fixedLen_pos := Nat.one_pos
      bytesLen_eq := fun _ _ => rfl }
  fromSszBytes
    | [byte] => some byte
    | _ => none
  fromSszBytes_append _ _ := rfl

instance : Decode UInt64 where
  lengthsHold :=
    { length_of_fixed := fun _ _ _ => length_littleEndian _ _
      fixedLen_of_variable := fun variable_ => Bool.noConfusion variable_
      fixedLen_pos := Nat.succ_pos 7
      bytesLen_eq := fun _ _ => (length_littleEndian _ _).symm }
  fromSszBytes bytes :=
    if bytes.length = 8 then some (UInt64.ofNat (readLittleEndian bytes)) else none
  fromSszBytes_append number _ := by
    have within : number.toNat % 256 ^ 8 = number.toNat := Nat.mod_eq_of_lt number.toNat_lt
    simp only [sszAppend, length_littleEndian, if_true, readLittleEndian_littleEndian, within,
      UInt64.ofNat_toNat]

variable [encoding : Encode Value] [Decode Value]

instance (capacity : Nat) [NeZero capacity] : Decode (FixedVector Value capacity) where
  lengthsHold :=
    let hold : encoding.LengthsHold fun _ => True := Decode.lengthsHold
    { length_of_fixed := by
        intro fixed vector _
        have inPlace : (shapeOf Value).isSszFixedLen = true := fixed
        apply (sequenceBytesLen_eq hold fun _ _ => trivial).symm.trans
        rw [sequenceBytesLen, if_pos inPlace, vector.length_eq]
        exact (if_pos inPlace).symm
      fixedLen_of_variable := fun variable_ => if_neg (ne_true_of_eq_false variable_)
      fixedLen_pos := by
        change 0 < if (shapeOf Value).isSszFixedLen then _ else _
        split
        · exact Nat.mul_pos hold.fixedLen_pos (Nat.pos_of_neZero capacity)
        · exact Nat.succ_pos 3
      bytesLen_eq := fun _ _ => sequenceBytesLen_eq hold fun _ _ => trivial }
  fromSszBytes bytes := (decodeSequence bytes).bind FixedVector.new
  fromSszBytes_append vector short := by
    have read : decodeSequence (sszAppend vector) = some vector.toList :=
      decodeSequence_append short
    simp only [read, Option.bind_some, FixedVector.new_toList]

instance (maximum : Nat) : Decode (VariableList Value maximum) where
  lengthsHold :=
    { length_of_fixed := fun fixed => Bool.noConfusion fixed
      fixedLen_of_variable := fun _ => rfl
      fixedLen_pos := Nat.succ_pos 3
      bytesLen_eq := fun _ _ => sequenceBytesLen_eq Decode.lengthsHold fun _ _ => trivial }
  fromSszBytes bytes := (decodeSequence bytes).bind VariableList.new
  fromSszBytes_append list short := by
    have read : decodeSequence (sszAppend list) = some list.toList := decodeSequence_append short
    simp only [read, Option.bind_some, VariableList.new_toList]

instance (maximum : Nat) : Decode (UncheckedList Value maximum) where
  lengthsHold :=
    { length_of_fixed := fun fixed => Bool.noConfusion fixed
      fixedLen_of_variable := fun _ => rfl
      fixedLen_pos := Nat.succ_pos 3
      bytesLen_eq := fun _ _ => sequenceBytesLen_eq Decode.lengthsHold fun _ _ => trivial }
  fromSszBytes bytes := UncheckedList.mk <$> decodeSequence bytes
  fromSszBytes_append list short := by
    have read : decodeSequence (sszAppend list) = some list.toList := decodeSequence_append short
    simp only [read, Option.map_eq_map, Option.map_some]

end Instances

end Ssz
