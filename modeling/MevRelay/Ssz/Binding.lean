import MevRelay.Ssz.Merkle
import Mathlib.Data.Set.Function

/-!
# What a root binds

As long as no two different pairs among those hashed have the same parent, the
root of a tree determines its leaves.  Which pairs are hashed is part of the
computation of the root.
-/

namespace Ssz

variable {Node : Type} (combine : Node → Node → Node) (zero : Node)

/-- Different pairs have different parents. -/
def CollisionFree (known : Set (Node × Node)) : Prop := known.InjOn fun pair => combine pair.1 pair.2

theorem CollisionFree.eq {combine : Node → Node → Node} {known : Set (Node × Node)}
    (free : CollisionFree combine known) {left right otherLeft otherRight : Node}
    (first : (left, right) ∈ known) (second : (otherLeft, otherRight) ∈ known)
    (same : combine left right = combine otherLeft otherRight) :
    left = otherLeft ∧ right = otherRight :=
  Prod.mk.inj (free first second same)

/-- The pairs hashed for the root of an empty tree. -/
def zeroPairs : Nat → List (Node × Node)
  | 0 => []
  | depth + 1 =>
      (zeroRoot combine zero depth, zeroRoot combine zero depth) :: zeroPairs depth

/-- The pairs hashed for the root of a tree over the leaves. -/
def merklePairs : Nat → List Node → List (Node × Node)
  | depth, [] => zeroPairs combine zero depth
  | 0, _ :: _ => []
  | depth + 1, leaf :: rest =>
      let first := (leaf :: rest).take (2 ^ depth)
      let second := (leaf :: rest).drop (2 ^ depth)
      (merkleRoot combine zero depth first, merkleRoot combine zero depth second) ::
        (merklePairs depth first ++ merklePairs depth second)

/-- The pairs hashed by `merkleize`. -/
def merkleizePairs (minimum : Nat) (leaves : List Node) : List (Node × Node) :=
  merklePairs combine zero (Nat.clog 2 minimum) leaves

variable {combine zero}

/-- A root binds its leaves, if their number is known. -/
theorem eq_of_merkleRoot_eq {known : Set (Node × Node)} (free : CollisionFree combine known)
    {depth : Nat} {first second : List Node} (length : first.length = second.length)
    (fits : first.length ≤ 2 ^ depth)
    (firstKnown : ∀ pair ∈ merklePairs combine zero depth first, pair ∈ known)
    (secondKnown : ∀ pair ∈ merklePairs combine zero depth second, pair ∈ known)
    (same : merkleRoot combine zero depth first = merkleRoot combine zero depth second) :
    first = second := by
  induction depth generalizing first second with
  | zero =>
      match first, second with
      | [], second => exact (List.eq_nil_of_length_eq_zero length.symm).symm
      | _ :: _, [] => cases length
      | [_], [_] => exact congrArg (fun leaf => [leaf]) same
      | [_], _ :: _ :: _ => cases length
      | _ :: _ :: _, _ => simp at fits
  | succ depth inductionHypothesis =>
      match first, second with
      | [], second => exact (List.eq_nil_of_length_eq_zero length.symm).symm
      | _ :: _, [] => cases length
      | leaf :: rest, other :: others =>
          simp only [merklePairs, List.forall_mem_cons, List.forall_mem_append] at *
          obtain ⟨firstRoot, firstLeft, firstRight⟩ := firstKnown
          obtain ⟨secondRoot, secondLeft, secondRight⟩ := secondKnown
          obtain ⟨leftSame, rightSame⟩ := free.eq firstRoot secondRoot same
          have left := inductionHypothesis (by simp only [List.length_take, length])
            (List.length_take_le _ _) firstLeft secondLeft leftSame
          have right := inductionHypothesis (by simp only [List.length_drop, length])
            (by rw [List.length_drop, Nat.pow_succ] at *; omega) firstRight secondRight rightSame
          rw [← List.take_append_drop (2 ^ depth) (leaf :: rest), left, right,
            List.take_append_drop]

theorem eq_of_merkleize_eq {known : Set (Node × Node)} (free : CollisionFree combine known)
    {minimum : Nat} {first second : List Node} (length : first.length = second.length)
    (fits : first.length ≤ minimum)
    (firstKnown : ∀ pair ∈ merkleizePairs combine zero minimum first, pair ∈ known)
    (secondKnown : ∀ pair ∈ merkleizePairs combine zero minimum second, pair ∈ known)
    (same : merkleize combine zero minimum first = merkleize combine zero minimum second) :
    first = second :=
  eq_of_merkleRoot_eq free length (fits.trans (Nat.le_pow_clog Nat.one_lt_two minimum)) firstKnown
    secondKnown same

/-- The root of a hasher binds the leaves it was given, if it was set up for as many. -/
theorem eq_of_hasherRoot_eq {known : Set (Node × Node)} (free : CollisionFree combine known)
    {minimum : Nat} {first second : List Node} (length : first.length = second.length)
    (fits : first.length ≤ minimum)
    (firstKnown : ∀ pair ∈ merkleizePairs combine zero minimum first, pair ∈ known)
    (secondKnown : ∀ pair ∈ merkleizePairs combine zero minimum second, pair ∈ known)
    (same : hasherRoot combine zero minimum first = hasherRoot combine zero minimum second) :
    first = second := by
  rw [hasherRoot_of_fits combine zero fits, hasherRoot_of_fits combine zero (length ▸ fits)] at same
  exact eq_of_merkleize_eq free length fits firstKnown secondKnown same

theorem littleEndian_injective {width first second : Nat} (small : first < 256 ^ width)
    (otherSmall : second < 256 ^ width) (same : littleEndian width first = littleEndian width second) :
    first = second := by
  have read := foldr_littleEndian width first
  rw [same, foldr_littleEndian, Nat.mod_eq_of_lt small, Nat.mod_eq_of_lt otherSmall] at read
  exact read.symm

end Ssz
