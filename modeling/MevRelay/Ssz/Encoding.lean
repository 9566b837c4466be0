import MevRelay.Ssz.Collections
import MevRelay.Ssz.Merkle
import Mathlib.Algebra.BigOperators.Group.List.Basic
import Mathlib.Algebra.GroupWithZero.Nat

/-!
# Encodings by offsets

An encoding puts the fixed-length parts of a value in place and the variable
ones behind them, each announced in its place by an offset.  Lengths are what
the types declare, so a decoder works as far as these declarations hold.
-/

namespace Ssz

/-- The number that little-endian bytes stand for. -/
def readLittleEndian (bytes : List UInt8) : Nat :=
  bytes.foldr (fun byte rest => 256 * rest + byte.toNat) 0

@[simp]
theorem readLittleEndian_littleEndian (width number : Nat) :
    readLittleEndian (littleEndian width number) = number % 256 ^ width :=
  foldr_littleEndian width number

def bytesPerLengthOffset : Nat := 4

def encodeLength (length : Nat) : List UInt8 := littleEndian bytesPerLengthOffset length

@[simp]
theorem length_encodeLength (length : Nat) : (encodeLength length).length = bytesPerLengthOffset :=
  length_littleEndian _ _

theorem readLittleEndian_encodeLength {length : Nat} (short : length < 2 ^ 32) :
    readLittleEndian (encodeLength length) = length := by
  rw [encodeLength, readLittleEndian_littleEndian, bytesPerLengthOffset]
  exact Nat.mod_eq_of_lt short

/-- The length that a type declares for the place of its values in an encoding. -/
structure Shape where
  isSszFixedLen : Bool
  sszFixedLen : Nat

/-- Types whose values are written as bytes. -/
class Encode (Value : Type) extends Shape where
  sszBytesLen : Value → Nat
  /-- The bytes that a value adds to the buffer. -/
  sszAppend : Value → List UInt8

export Encode (sszAppend sszBytesLen)

/-- The shape of the values of a type. -/
abbrev shapeOf (Value : Type) [encoding : Encode Value] : Shape := encoding.toShape

/-- The encoding of a value on its own. -/
def asSszBytes {Value : Type} [Encode Value] (value : Value) : List UInt8 := sszAppend value

section Layout

/-- The state of an encoder: the part in front and the part behind it. -/
structure SszEncoder where
  offset : Nat
  buf : List UInt8
  variableBytes : List UInt8

namespace SszEncoder

def container (numFixedBytes : Nat) : SszEncoder := ⟨numFixedBytes, [], []⟩

def append (encoder : SszEncoder) (isSszFixedLen : Bool) (bytes : List UInt8) : SszEncoder :=
  if isSszFixedLen then { encoder with buf := encoder.buf ++ bytes }
  else
    { encoder with
      buf := encoder.buf ++ encodeLength (encoder.offset + encoder.variableBytes.length)
      variableBytes := encoder.variableBytes ++ bytes }

def finalize (encoder : SszEncoder) : List UInt8 := encoder.buf ++ encoder.variableBytes

end SszEncoder

/-- The bytes of a value, with the shape its type declares. -/
structure Part extends Shape where
  bytes : List UInt8

/-- The parts one after the other, in an encoding whose front has `numFixedBytes` bytes. -/
def encodeParts (numFixedBytes : Nat) (parts : List Part) : List UInt8 :=
  (parts.foldl (fun (encoder : SszEncoder) part => encoder.append part.isSszFixedLen part.bytes)
    (.container numFixedBytes)).finalize

/-- The length that the declared shapes give to the front. -/
def fixedBytes (shapes : List Shape) : Nat := (shapes.map (·.sszFixedLen)).sum

/-- The front of an encoding whose next variable part starts at `start`. -/
def heads : Nat → List Part → List UInt8
  | _, [] => []
  | start, part :: parts =>
      if part.isSszFixedLen then part.bytes ++ heads start parts
      else encodeLength start ++ heads (start + part.bytes.length) parts

/-- The variable parts, in order. -/
def tails : List Part → List UInt8
  | [] => []
  | part :: parts => if part.isSszFixedLen then tails parts else part.bytes ++ tails parts

theorem finalize_foldl_append (parts : List Part) (encoder : SszEncoder) :
    (parts.foldl (fun (encoder : SszEncoder) part =>
        encoder.append part.isSszFixedLen part.bytes) encoder).finalize =
      encoder.buf ++ heads (encoder.offset + encoder.variableBytes.length) parts ++
        (encoder.variableBytes ++ tails parts) := by
  induction parts generalizing encoder with
  | nil => simp [heads, tails, SszEncoder.finalize]
  | cons part parts inductionHypothesis =>
      rw [List.foldl_cons, inductionHypothesis]
      cases fixed : part.isSszFixedLen with
      | true => simp [SszEncoder.append, heads, tails, fixed]
      | false => simp [SszEncoder.append, heads, tails, fixed, Nat.add_assoc]

/-- The encoder writes the front, then what the front announces. -/
theorem encodeParts_eq (numFixedBytes : Nat) (parts : List Part) :
    encodeParts numFixedBytes parts = heads numFixedBytes parts ++ tails parts := by
  rw [encodeParts, finalize_foldl_append]
  simp [SszEncoder.container]

/-- The part takes as much room in front as its shape declares. -/
def Part.WellSized (part : Part) : Prop :=
  part.sszFixedLen =
    if part.isSszFixedLen then part.bytes.length else bytesPerLengthOffset

variable {parts : List Part}

theorem length_heads (sized : ∀ part ∈ parts, part.WellSized) (start : Nat) :
    (heads start parts).length = fixedBytes (parts.map (·.toShape)) := by
  induction parts generalizing start with
  | nil => rfl
  | cons part parts inductionHypothesis =>
      have declared := sized part List.mem_cons_self
      have remaining := inductionHypothesis fun other among =>
        sized other (List.mem_cons_of_mem _ among)
      simp only [fixedBytes, List.map_cons, List.sum_cons] at remaining ⊢
      rw [declared]
      cases fixed : part.isSszFixedLen with
      | true => simp [heads, fixed, remaining]
      | false => simp [heads, fixed, remaining]

theorem heads_of_fixed (fixed : ∀ part ∈ parts, part.isSszFixedLen = true) (start : Nat) :
    heads start parts = parts.flatMap (·.bytes) := by
  induction parts generalizing start with
  | nil => rfl
  | cons part parts inductionHypothesis =>
      rw [heads, if_pos (fixed part List.mem_cons_self), List.flatMap_cons,
        inductionHypothesis fun other among => fixed other (List.mem_cons_of_mem _ among)]

theorem tails_of_fixed (fixed : ∀ part ∈ parts, part.isSszFixedLen = true) : tails parts = [] := by
  induction parts with
  | nil => rfl
  | cons part parts inductionHypothesis =>
      rw [tails, if_pos (fixed part List.mem_cons_self),
        inductionHypothesis fun other among => fixed other (List.mem_cons_of_mem _ among)]

/-- Parts of fixed length alone are just put together. -/
theorem encodeParts_of_fixed (fixed : ∀ part ∈ parts, part.isSszFixedLen = true)
    (numFixedBytes : Nat) : encodeParts numFixedBytes parts = parts.flatMap (·.bytes) := by
  rw [encodeParts_eq, heads_of_fixed fixed, tails_of_fixed fixed, List.append_nil]

theorem length_encodeParts (sized : ∀ part ∈ parts, part.WellSized) (numFixedBytes : Nat) :
    (encodeParts numFixedBytes parts).length =
      fixedBytes (parts.map (·.toShape)) + (tails parts).length := by
  rw [encodeParts_eq, List.length_append, length_heads sized]

/-- No part is longer than the encoding it stands in. -/
theorem Part.length_le (numFixedBytes : Nat) {part : Part} (among : part ∈ parts) :
    part.bytes.length ≤ (encodeParts numFixedBytes parts).length := by
  rw [encodeParts_eq, List.length_append]
  induction parts generalizing numFixedBytes with
  | nil => cases among
  | cons first parts inductionHypothesis =>
      rcases List.mem_cons.mp among with rfl | among
      · cases fixed : part.isSszFixedLen with
        | true => simp only [heads, fixed, if_true, List.length_append]; omega
        | false => simp only [tails, fixed, Bool.false_eq_true, if_false, List.length_append]; omega
      · cases fixed : first.isSszFixedLen with
        | true =>
            have within := inductionHypothesis numFixedBytes among
            simp only [heads, tails, fixed, if_true, List.length_append]
            omega
        | false =>
            have within := inductionHypothesis (numFixedBytes + first.bytes.length) among
            simp only [heads, tails, fixed, Bool.false_eq_true, if_false, List.length_append]
            omega

end Layout

section Splitting

/-- What stands in front for a part: its bytes, or where they start. -/
inductive Slot where
  | inline (bytes : List UInt8)
  | offset (start : Nat)

/-- The front of an encoding of parts of the given shapes. -/
def readSlots : List Shape → List UInt8 → List Slot
  | [], _ => []
  | shape :: shapes, bytes =>
      let head := bytes.take shape.sszFixedLen
      (if shape.isSszFixedLen then .inline head else .offset (readLittleEndian head)) ::
        readSlots shapes (bytes.drop shape.sszFixedLen)

/-- The parts that some slots stand for, and where the first variable one
starts.  Each variable part ends where the next one starts. -/
def cutSlots (whole : List UInt8) : List Slot → List (List UInt8) × Nat
  | [] => ([], whole.length)
  | .inline bytes :: slots =>
      let (parts, stop) := cutSlots whole slots
      (bytes :: parts, stop)
  | .offset start :: slots =>
      let (parts, stop) := cutSlots whole slots
      ((whole.take stop).drop start :: parts, start)

/-- The bytes of the parts of the given shapes, out of their encoding. -/
def splitParts (shapes : List Shape) (whole : List UInt8) : List (List UInt8) :=
  (cutSlots whole (readSlots shapes whole)).1

/-- What the front says of the parts if their variable bytes start at `start`. -/
def slots : Nat → List Part → List Slot
  | _, [] => []
  | start, part :: parts =>
      if part.isSszFixedLen then .inline part.bytes :: slots start parts
      else .offset start :: slots (start + part.bytes.length) parts

theorem readSlots_heads {parts : List Part} (sized : ∀ part ∈ parts, part.WellSized)
    {start : Nat} (short : start + (tails parts).length < 2 ^ 32) (rest : List UInt8) :
    readSlots (parts.map (·.toShape)) (heads start parts ++ rest) = slots start parts := by
  induction parts generalizing start with
  | nil => rfl
  | cons part parts inductionHypothesis =>
      have declared := sized part List.mem_cons_self
      have others : ∀ other ∈ parts, other.WellSized := fun other among =>
        sized other (List.mem_cons_of_mem _ among)
      rw [List.map_cons, readSlots]
      cases fixed : part.isSszFixedLen with
      | true =>
          simp only [Part.WellSized, fixed, if_true] at declared
          simp only [tails, fixed, if_true] at short
          simp only [heads, slots, fixed, if_true, declared, List.append_assoc,
            List.take_left', List.drop_left']
          rw [inductionHypothesis others short]
      | false =>
          simp only [Part.WellSized, fixed, Bool.false_eq_true, if_false] at declared
          simp only [tails, fixed, Bool.false_eq_true, if_false, List.length_append] at short
          have started : readLittleEndian (encodeLength start) = start :=
            readLittleEndian_encodeLength (by omega)
          have further : start + part.bytes.length + (tails parts).length < 2 ^ 32 := by omega
          simp only [heads, slots, fixed, Bool.false_eq_true, if_false, declared,
            List.append_assoc]
          rw [List.take_left' (length_encodeLength start),
            List.drop_left' (length_encodeLength start), started,
            inductionHypothesis others further]

/-- The variable parts are cut out where the front says they are. -/
theorem cutSlots_slots (parts : List Part) (front : List UInt8) :
    cutSlots (front ++ tails parts) (slots front.length parts) =
      (parts.map (·.bytes), front.length) := by
  induction parts generalizing front with
  | nil => simp [slots, cutSlots, tails]
  | cons part parts inductionHypothesis =>
      cases fixed : part.isSszFixedLen with
      | true =>
          simp only [slots, tails, cutSlots, fixed, if_true, inductionHypothesis front,
            List.map_cons]
      | false =>
          -- the parts further behind see this one as the end of their front
          have remaining := inductionHypothesis (front ++ part.bytes)
          rw [List.append_assoc, List.length_append] at remaining
          have piece : ((front ++ (part.bytes ++ tails parts)).take
              (front.length + part.bytes.length)).drop front.length = part.bytes := by
            rw [← List.append_assoc, List.take_left' (by simp), List.drop_left]
          simp only [slots, tails, cutSlots, fixed, Bool.false_eq_true, if_false, remaining, piece,
            List.map_cons]

/-- A short encoding is split into the parts it was made of. -/
theorem splitParts_encodeParts {parts : List Part} (sized : ∀ part ∈ parts, part.WellSized)
    (short : (encodeParts (fixedBytes (parts.map (·.toShape))) parts).length < 2 ^ 32) :
    splitParts (parts.map (·.toShape)) (encodeParts (fixedBytes (parts.map (·.toShape))) parts) =
      parts.map (·.bytes) := by
  rw [length_encodeParts sized] at short
  have front := length_heads sized (fixedBytes (parts.map (·.toShape)))
  rw [splitParts, encodeParts_eq, readSlots_heads sized short]
  have cut := cutSlots_slots parts (heads (fixedBytes (parts.map (·.toShape))) parts)
  rw [front] at cut
  rw [cut]

end Splitting

section Instances

variable {Value Container : Type}

/-- The part that a value is in a larger encoding. -/
def Encode.part (encoding : Encode Value) (value : Value) : Part where
  toShape := encoding.toShape
  bytes := encoding.sszAppend value

/-- A container with only this field of it written. -/
@[reducible]
def Encode.field [encoding : Encode Value] (project : Container → Value) : Encode Container where
  toShape := encoding.toShape
  sszBytesLen container := sszBytesLen (project container)
  sszAppend container := sszAppend (project container)

/-- A container, whose fields are written in declared order. -/
@[reducible]
def Encode.container (fields : List (Encode Container)) : Encode Container where
  isSszFixedLen := fields.all (·.isSszFixedLen)
  sszFixedLen :=
    if fields.all (·.isSszFixedLen) then fixedBytes (fields.map (·.toShape))
    else bytesPerLengthOffset
  sszBytesLen container :=
    if fields.all (·.isSszFixedLen) then fixedBytes (fields.map (·.toShape))
    else
      (fields.map fun field =>
        if field.isSszFixedLen then field.sszFixedLen
        else bytesPerLengthOffset + field.sszBytesLen container).sum
  sszAppend container :=
    encodeParts (fixedBytes (fields.map (·.toShape))) (fields.map (·.part container))

def sequenceBytesLen [Encode Value] (values : List Value) : Nat :=
  if (shapeOf Value).isSszFixedLen then (shapeOf Value).sszFixedLen * values.length
  else (values.map sszBytesLen).sum + bytesPerLengthOffset * values.length

def sequenceAppend [encoding : Encode Value] (values : List Value) : List UInt8 :=
  if (shapeOf Value).isSszFixedLen then values.flatMap sszAppend
  else encodeParts (values.length * bytesPerLengthOffset) (values.map encoding.part)

instance : Encode UInt8 where
  isSszFixedLen := true
  sszFixedLen := 1
  sszBytesLen _ := 1
  sszAppend byte := [byte]

instance : Encode UInt64 where
  isSszFixedLen := true
  sszFixedLen := 8
  sszBytesLen _ := 8
  sszAppend number := littleEndian 8 number.toNat

instance [Encode Value] (capacity : Nat) : Encode (FixedVector Value capacity) where
  isSszFixedLen := (shapeOf Value).isSszFixedLen
  sszFixedLen :=
    if (shapeOf Value).isSszFixedLen then (shapeOf Value).sszFixedLen * capacity
    else bytesPerLengthOffset
  sszBytesLen vector := sequenceBytesLen vector.toList
  sszAppend vector := sequenceAppend vector.toList

instance [Encode Value] (maximum : Nat) : Encode (VariableList Value maximum) where
  isSszFixedLen := false
  sszFixedLen := bytesPerLengthOffset
  sszBytesLen list := sequenceBytesLen list.toList
  sszAppend list := sequenceAppend list.toList

/-- The length declared for a vector is that of `capacity` values, however many it has. -/
instance [Encode Value] (capacity : Nat) : Encode (UncheckedVector Value capacity) where
  isSszFixedLen := (shapeOf Value).isSszFixedLen
  sszFixedLen :=
    if (shapeOf Value).isSszFixedLen then (shapeOf Value).sszFixedLen * capacity
    else bytesPerLengthOffset
  sszBytesLen vector := sequenceBytesLen vector.toList
  sszAppend vector := sequenceAppend vector.toList

instance [Encode Value] (maximum : Nat) : Encode (UncheckedList Value maximum) where
  isSszFixedLen := false
  sszFixedLen := bytesPerLengthOffset
  sszBytesLen list := sequenceBytesLen list.toList
  sszAppend list := sequenceAppend list.toList

end Instances

end Ssz
