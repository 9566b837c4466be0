import MevRelay.Ssz.Collections
import Mathlib.Algebra.Group.Nat.Defs
import Mathlib.Data.Nat.Log
import Mathlib.Data.List.Defs

/-!
# Merkle trees of bounded depth

The root of a binary tree whose missing leaves are zero, over any node type
and any way to combine two nodes into their parent.
-/

namespace Ssz

section Tree

variable {Node : Type} (combine : Node → Node → Node) (zero : Node)

def zeroRoot : Nat → Node
  | 0 => zero
  | depth + 1 => let child := zeroRoot depth; combine child child

/-- The root of the tree of the given depth over the leaves. -/
def merkleRoot : Nat → List Node → Node
  | depth, [] => zeroRoot combine zero depth
  | 0, leaf :: _ => leaf
  | depth + 1, leaves =>
      combine (merkleRoot depth (leaves.take (2 ^ depth)))
        (merkleRoot depth (leaves.drop (2 ^ depth)))

/-- The root over the leaves in the smallest tree with room for `minimum` of them. -/
def merkleize (minimum : Nat) (leaves : List Node) : Node :=
  merkleRoot combine zero (Nat.clog 2 minimum) leaves

/-- The root that a hasher ends with after it was set up for `minimum` leaves
and then given these.  Leaves beyond its tree are ignored until they fill the
next level of it, whose root then takes the place of the one before. -/
def hasherRoot (minimum : Nat) (leaves : List Node) : Node :=
  let room := 2 ^ Nat.clog 2 minimum
  if 3 * room ≤ leaves.length then
    merkleRoot combine zero (Nat.clog 2 minimum + 1) (leaves.drop room)
  else merkleize combine zero minimum leaves

/-- A hasher that is given no more leaves than it was set up for has their root. -/
theorem hasherRoot_of_fits {minimum : Nat} {leaves : List Node} (fits : leaves.length ≤ minimum) :
    hasherRoot combine zero minimum leaves = merkleize combine zero minimum leaves := by
  have room := Nat.le_pow_clog Nat.one_lt_two minimum
  have some : 0 < 2 ^ Nat.clog 2 minimum := Nat.two_pow_pos _
  exact if_neg (by omega)

end Tree

/-- The most leaves that a hasher takes which was set up for `minimum`; the next one is an error. -/
def maximumLeaves (minimum : Nat) : Nat := 3 * 2 ^ Nat.clog 2 minimum + 1

section Unchecked

variable {Element : Type} {capacity maximum : Nat}

/-- The hasher for a vector takes all its elements, each of which is a leaf of its own. -/
def UncheckedVector.Hashable (vector : UncheckedVector Element capacity) : Prop :=
  vector.toList.length ≤ maximumLeaves capacity

/-- The hasher for a list takes all its elements, each of which is a leaf of its own. -/
def UncheckedList.Hashable (list : UncheckedList Element maximum) : Prop :=
  list.toList.length ≤ maximumLeaves maximum

instance (vector : UncheckedVector Element capacity) : Decidable vector.Hashable :=
  inferInstanceAs (Decidable (_ ≤ _))

instance (list : UncheckedList Element maximum) : Decidable list.Hashable :=
  inferInstanceAs (Decidable (_ ≤ _))

end Unchecked

/-- The little-endian digits of a number in base 256. -/
def littleEndian : Nat → Nat → List UInt8
  | 0, _ => []
  | width + 1, number => UInt8.ofNat (number % 256) :: littleEndian width (number / 256)

@[simp]
theorem length_littleEndian (width number : Nat) : (littleEndian width number).length = width := by
  induction width generalizing number with
  | zero => rfl
  | succ width inductionHypothesis => simp [littleEndian, inductionHypothesis]

/-- Reading the digits back gives the number, reduced to its width. -/
theorem foldr_littleEndian (width number : Nat) :
    (littleEndian width number).foldr (fun byte rest => 256 * rest + byte.toNat) 0 =
      number % 256 ^ width := by
  induction width generalizing number with
  | zero => simp [littleEndian, Nat.mod_one]
  | succ width inductionHypothesis =>
      have digit : (UInt8.ofNat (number % 256)).toNat = number % 256 := by
        rw [UInt8.toNat_ofNat']
        omega
      rw [littleEndian, List.foldr_cons, inductionHypothesis, digit, Nat.pow_succ', Nat.mod_mul,
        Nat.add_comm]

/-- The digits of the number that some bytes read as are these bytes. -/
theorem littleEndian_foldr (bytes : List UInt8) :
    littleEndian bytes.length (bytes.foldr (fun byte rest => 256 * rest + byte.toNat) 0) = bytes := by
  induction bytes with
  | nil => rfl
  | cons byte rest inductionHypothesis =>
      have below := byte.toNat_lt
      have digit : (256 * rest.foldr (fun byte rest => 256 * rest + byte.toNat) 0 + byte.toNat) % 256 =
          byte.toNat := by omega
      have others : (256 * rest.foldr (fun byte rest => 256 * rest + byte.toNat) 0 + byte.toNat) / 256 =
          rest.foldr (fun byte rest => 256 * rest + byte.toNat) 0 := by omega
      rw [List.length_cons, List.foldr_cons, littleEndian, digit, others, inductionHypothesis,
        UInt8.ofNat_toNat]

theorem foldr_lt_pow (bytes : List UInt8) :
    bytes.foldr (fun byte rest => 256 * rest + byte.toNat) 0 < 256 ^ bytes.length := by
  induction bytes with
  | nil => simp
  | cons byte rest inductionHypothesis =>
      have below := byte.toNat_lt
      rw [List.foldr_cons, List.length_cons, Nat.pow_succ']
      omega

/-- Bits packed into bytes, lowest bit first. -/
def packBits (bits : List Bool) : List UInt8 :=
  (bits.toChunks 8).map fun byte =>
    UInt8.ofNat (byte.foldr (fun bit rest => bit.toNat + 2 * rest) 0)

end Ssz
