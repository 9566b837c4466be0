import MevRelay.Ssz.Collections

/-!
# The crates the relay builds on

The byte types of the chain and the functions of third-party crates that the
relay calls.  A point of `blst` is represented by its compressed encoding,
which is what the relay compares and hashes.
-/

namespace MevRelay

open Ssz

/-- A 32-byte hash. -/
structure B256 where
  bytes : FixedVector UInt8 32
  deriving DecidableEq

/-- The hash type of the tree hash; both conversions keep the bytes. -/
abbrev Hash256 := B256

/-- The bytes padded with zeros, or cut, to 32. -/
def B256.ofList (bytes : List UInt8) : B256 := ⟨FixedVector.resize 0 bytes⟩

def B256.zero : B256 := ⟨FixedVector.replicate 0⟩

namespace Blst

structure PublicKey where
  compressed : FixedVector UInt8 48
  deriving DecidableEq

structure Signature where
  compressed : FixedVector UInt8 96
  deriving DecidableEq

structure SecretKey where
  bytes : FixedVector UInt8 32

inductive BlstError where
  | badEncoding
  | pointNotOnCurve
  | pointNotInGroup
  | aggrTypeMismatch
  | verifyFail
  | pkIsInfinity
  | badScalar
  deriving DecidableEq

end Blst

/-- The functions of other crates that the relay calls. -/
class Crates where
  /-- The parent of two nodes in a tree hash. -/
  hash32Concat : Hash256 → Hash256 → Hash256
  publicKeyFromBytes : List UInt8 → Except Blst.BlstError Blst.PublicKey
  signatureFromBytes : List UInt8 → Except Blst.BlstError Blst.Signature
  /-- Whether `blst` reports success for a signature of the message under the key. -/
  verify : Blst.Signature → Hash256 → Blst.PublicKey → Bool
  skToPk : Blst.SecretKey → Blst.PublicKey
  sign : Blst.SecretKey → Hash256 → Blst.Signature
  /-- Parse a 256-bit number; the texts of parse errors are dropped by the relay. -/
  u256FromStr : String → Option (BitVec 256)

end MevRelay
