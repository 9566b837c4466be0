import MevRelay.Ssz.Merkle
import Mathlib.Data.List.Induction

/-!
# Chunks

Lists cut into pieces of one length, of which the last may be shorter, and bits
packed into bytes eight at a time.
-/

namespace Ssz

section Chunks

variable {Element : Type}

theorem toChunks_cons_eq_go {size : Nat} (positive : 0 < size) (element : Element)
    (rest : List Element) :
    (element :: rest).toChunks size = List.toChunks.go size rest #[element] #[] := by
  rw [List.toChunks]
  exact positive.ne'

theorem toChunks_go {size : Nat} (positive : 0 < size) (rest : List Element)
    (chunk : Array Element) (fits : chunk.size ≤ size) (done : Array (List Element)) :
    List.toChunks.go size rest chunk done =
      done.toList ++ (chunk.toList ++ rest.take (size - chunk.size)) ::
        (rest.drop (size - chunk.size)).toChunks size := by
  induction rest generalizing chunk done with
  | nil => simp [List.toChunks.go, List.toChunks]
  | cons element rest inductionHypothesis =>
      rw [List.toChunks.go]
      by_cases full : chunk.size = size
      · have fresh : (#[element] : Array Element).size ≤ size := positive
        have next := inductionHypothesis #[element] fresh #[]
        rw [if_pos (by simpa using full)]
        apply (inductionHypothesis #[element] fresh _).trans
        rw [full, Nat.sub_self, List.take_zero, List.drop_zero, toChunks_cons_eq_go positive, next]
        simp
      · have room : size - chunk.size = size - (chunk.size + 1) + 1 := by omega
        rw [if_neg (by simpa using full), inductionHypothesis _ (by simp; omega), room]
        simp

/-- The first chunk, and those of the rest. -/
theorem toChunks_of_ne_nil {size : Nat} (positive : 0 < size) {elements : List Element}
    (nonempty : elements ≠ []) :
    elements.toChunks size = elements.take size :: (elements.drop size).toChunks size := by
  obtain ⟨element, rest, rfl⟩ := List.exists_cons_of_ne_nil nonempty
  obtain ⟨size, rfl⟩ := Nat.exists_eq_succ_of_ne_zero positive.ne'
  have fresh : (#[element] : Array Element).size ≤ size + 1 := positive
  rw [toChunks_cons_eq_go positive, toChunks_go positive _ _ fresh]
  simp

/-- What holds of the empty list and is kept by putting a chunk in front holds of every list. -/
theorem chunkInduction {size : Nat} (positive : 0 < size) {motive : List Element → Prop}
    (nil : motive [])
    (chunk : ∀ elements, elements ≠ [] → motive (elements.drop size) → motive elements)
    (elements : List Element) : motive elements := by
  induction count : elements.length using Nat.strong_induction_on generalizing elements with
  | _ count inductionHypothesis =>
      by_cases empty : elements = []
      · rwa [empty]
      · refine chunk elements empty (inductionHypothesis _ ?_ _ rfl)
        have inside := List.length_pos_iff.mpr empty
        rw [List.length_drop]
        omega

theorem length_toChunks {size : Nat} (positive : 0 < size) (elements : List Element) :
    (elements.toChunks size).length = (elements.length + size - 1) / size := by
  induction elements using chunkInduction positive with
  | nil => simp [List.toChunks, Nat.div_eq_of_lt (Nat.sub_lt positive Nat.one_pos)]
  | chunk elements nonempty inductionHypothesis =>
      have inside := List.length_pos_iff.mpr nonempty
      rw [toChunks_of_ne_nil positive nonempty, List.length_cons, inductionHypothesis,
        List.length_drop]
      by_cases last : elements.length ≤ size
      · rw [Nat.div_eq_of_lt (by omega), Nat.div_eq_of_lt_le] <;> omega
      · have more : elements.length + size - 1 = (elements.length - size + size - 1) + size := by
          omega
        rw [more, Nat.add_div_right _ positive]

/-- Chunks of lists of one length that agree after an injective reading are the same. -/
theorem eq_of_map_toChunks {size : Nat} (positive : 0 < size) {Code : Type}
    (code : List Element → Code)
    (injective : ∀ first second : List Element, first.length = second.length →
      first.length ≤ size → code first = code second → first = second)
    {first second : List Element} (length : first.length = second.length)
    (same : (first.toChunks size).map code = (second.toChunks size).map code) :
    first = second := by
  induction first using chunkInduction positive generalizing second with
  | nil => exact (List.eq_nil_of_length_eq_zero length.symm).symm
  | chunk first nonempty inductionHypothesis =>
      have other : second ≠ [] := by
        rintro rfl
        exact nonempty (List.eq_nil_of_length_eq_zero length)
      rw [toChunks_of_ne_nil positive nonempty, toChunks_of_ne_nil positive other, List.map_cons,
        List.map_cons] at same
      obtain ⟨head, rest⟩ := List.cons.inj same
      have front := injective _ _ (by simp [length]) (List.length_take_le _ _) head
      have behind := inductionHypothesis (by simp [length]) rest
      rw [← List.take_append_drop size first, front, behind, List.take_append_drop]

end Chunks

section Bits

/-- The bits of a byte, lowest first. -/
def unpackByte (byte : UInt8) : List Bool :=
  (List.range 8).map fun position => byte.toNat.testBit position

/-- The number whose binary digits are the given bits, lowest first. -/
abbrev bitsToNat (bits : List Bool) : Nat :=
  bits.foldr (fun bit rest => bit.toNat + 2 * rest) 0

theorem bitsToNat_lt (bits : List Bool) : bitsToNat bits < 2 ^ bits.length := by
  induction bits with
  | nil => simp [bitsToNat]
  | cons bit rest inductionHypothesis =>
      have below : bit.toNat ≤ 1 := bit.toNat_le
      simp only [bitsToNat, List.foldr_cons, List.length_cons, Nat.pow_succ] at *
      omega

theorem testBit_bitsToNat (bits : List Bool) (position : Nat) :
    (bitsToNat bits).testBit position = bits.getD position false := by
  induction bits generalizing position with
  | nil => simp [bitsToNat]
  | cons bit rest inductionHypothesis =>
      cases position with
      | zero => cases bit <;> simp [bitsToNat, Nat.testBit_zero]
      | succ position =>
          have half : (bit.toNat + 2 * bitsToNat rest) / 2 = bitsToNat rest := by
            have below : bit.toNat ≤ 1 := bit.toNat_le
            omega
          rw [bitsToNat, List.foldr_cons, Nat.testBit_succ]
          exact (congrArg (Nat.testBit · position) half).trans (inductionHypothesis position)

/-- A byte holds up to eight bits, and zeros after them. -/
theorem unpackByte_ofNat {bits : List Bool} (fits : bits.length ≤ 8) :
    unpackByte (UInt8.ofNat (bitsToNat bits)) = bits ++ List.replicate (8 - bits.length) false := by
  have small : bitsToNat bits < 256 :=
    (bitsToNat_lt bits).trans_le (Nat.pow_le_pow_right (by decide) fits)
  apply List.ext_getElem
  · simp [unpackByte]
    omega
  · intro position inside _
    simp only [unpackByte, List.getElem_map, List.getElem_range, UInt8.toNat_ofNat_of_lt' small,
      testBit_bitsToNat]
    by_cases own : position < bits.length
    · rw [List.getElem_append_left own, List.getD_eq_getElem?_getD,
        List.getElem?_eq_getElem own, Option.getD_some]
    · have beyond := Nat.le_of_not_lt own
      rw [List.getElem_append_right beyond, List.getElem_replicate, List.getD_eq_getElem?_getD,
        List.getElem?_eq_none beyond, Option.getD_none]

/-- Packed bits are found again, with zeros after them. -/
theorem flatMap_unpackByte_packBits (bits : List Bool) :
    ∃ padding, (packBits bits).flatMap unpackByte = bits ++ List.replicate padding false := by
  induction bits using chunkInduction (show 0 < 8 by decide) with
  | nil => exact ⟨0, rfl⟩
  | chunk bits nonempty inductionHypothesis =>
      have packed : packBits bits =
          UInt8.ofNat (bitsToNat (bits.take 8)) :: packBits (bits.drop 8) := by
        rw [packBits, toChunks_of_ne_nil (by decide) nonempty]
        rfl
      have first := unpackByte_ofNat (List.length_take_le 8 bits)
      obtain ⟨padding, rest⟩ := inductionHypothesis
      by_cases whole : 8 ≤ bits.length
      · refine ⟨padding, ?_⟩
        rw [packed, List.flatMap_cons, first, rest, List.length_take_of_le whole, Nat.sub_self,
          List.replicate_zero, List.append_nil, ← List.append_assoc, List.take_append_drop]
      · have short : bits.length ≤ 8 := by omega
        refine ⟨8 - bits.length, ?_⟩
        rw [packed, List.flatMap_cons, first, List.take_of_length_le short,
          List.drop_of_length_le short]
        simp [packBits, List.toChunks]

theorem length_packBits (bits : List Bool) : (packBits bits).length = (bits.length + 7) / 8 := by
  rw [packBits, List.length_map, length_toChunks (by decide)]
  rfl

end Bits

end Ssz
