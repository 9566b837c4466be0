import MevRelay.Primitives.Crates
import MevRelay.Ssz.Merkle
import Mathlib.Data.BitVec

/-!
# Tree hashes

The tree hash of the basic types and collections.  Containers hash the roots
of their fields in declared order.
-/

namespace MevRelay

open Ssz

variable [Crates]

/-- Types with a tree hash.  Several values of a basic type share one leaf. -/
class TreeHash (Value : Type) where
  /-- The encoding of a basic type and the number of values in a leaf. -/
  packed : Option ((Value → List UInt8) × Nat)
  treeHashRoot : Value → Hash256

export TreeHash (treeHashRoot)

/-- The root over the leaves by a hasher set up for `minimum` of them. -/
def merkleHash (minimum : Nat) (leaves : List Hash256) : Hash256 :=
  hasherRoot Crates.hash32Concat B256.zero minimum leaves

/-- The bytes cut into leaves. -/
def leavesOf (bytes : List UInt8) : List Hash256 := (bytes.toChunks 32).map B256.ofList

/-- The root of plain bytes in a tree with room for at least `minimum` leaves. -/
def bytesRoot (bytes : List UInt8) (minimum : Nat) : Hash256 :=
  merkleHash (max (leavesOf bytes).length minimum) (leavesOf bytes)

def mixInLength (root : Hash256) (length : Nat) : Hash256 :=
  Crates.hash32Concat root (B256.ofList (littleEndian 32 length))

/-- The root of a container with the given field roots. -/
def containerRoot (fields : List Hash256) : Hash256 := merkleHash fields.length fields

/-- The root of the elements of a collection declared for `maximum` of them. -/
def vecTreeHashRoot {Value : Type} [TreeHash Value] (maximum : Nat) (values : List Value) :
    Hash256 :=
  match (TreeHash.packed : Option ((Value → List UInt8) × Nat)) with
  | some (encode, factor) =>
      merkleHash ((maximum + factor - 1) / factor) (leavesOf (values.flatMap encode))
  | none => merkleHash maximum (values.map treeHashRoot)

/-- The root of the packed bits of a bitfield with room for `maximum` of them. -/
def bitfieldBytesTreeHashRoot (maximum : Nat) (bits : List Bool) : Hash256 :=
  merkleHash (((maximum + 7) / 8 + 31) / 32) (leavesOf (packBits bits))

instance : TreeHash UInt8 where
  packed := some (fun byte => [byte], 32)
  treeHashRoot byte := B256.ofList [byte]

instance : TreeHash UInt64 where
  packed := some (fun number => littleEndian 8 number.toNat, 4)
  treeHashRoot number := B256.ofList (littleEndian 8 number.toNat)

instance : TreeHash B256 where
  packed := none
  treeHashRoot hash := hash

instance {Value : Type} [TreeHash Value] (capacity : Nat) :
    TreeHash (FixedVector Value capacity) where
  packed := none
  treeHashRoot vector := vecTreeHashRoot capacity vector.toList

instance {Value : Type} [TreeHash Value] (maximum : Nat) :
    TreeHash (VariableList Value maximum) where
  packed := none
  treeHashRoot list := mixInLength (vecTreeHashRoot maximum list.toList) list.toList.length

instance {Value : Type} [TreeHash Value] (capacity : Nat) :
    TreeHash (UncheckedVector Value capacity) where
  packed := none
  treeHashRoot vector := vecTreeHashRoot capacity vector.toList

instance {Value : Type} [TreeHash Value] (maximum : Nat) :
    TreeHash (UncheckedList Value maximum) where
  packed := none
  treeHashRoot list := mixInLength (vecTreeHashRoot maximum list.toList) list.toList.length

/-- A container, whose root is that of its fields. -/
@[reducible]
def TreeHash.container {Value : Type} (fields : Value → List Hash256) : TreeHash Value where
  packed := none
  treeHashRoot value := containerRoot (fields value)

/-- A type hashed as `width` bytes. -/
@[reducible]
def TreeHash.byteVector {Value : Type} (width : Nat) (bytes : Value → List UInt8) :
    TreeHash Value where
  packed := none
  treeHashRoot value := bytesRoot (bytes value) ((width + 31) / 32)

/-- The root that is signed: the tree hash of a message together with the domain. -/
def signingRoot {Message : Type} [TreeHash Message] (message : Message) (domain : Hash256) :
    Hash256 :=
  containerRoot [treeHashRoot message, domain]

end MevRelay
