import MevRelay.Primitives.Types
import MevRelay.Outcome

/-!
# Keys, signatures and signing domains
-/

namespace MevRelay

open Ssz

structure BlsPublicKey where
  point : Blst.PublicKey
  deriving DecidableEq

/-- A BLS signature; the empty signature has no point. -/
structure BlsSignature where
  point : Option Blst.Signature
  isInfinity : Bool
  deriving DecidableEq

def BlsPublicKey.serialize (key : BlsPublicKey) : List UInt8 := key.point.compressed.toList

/-- The compressed bytes; those of the empty signature are all zero. -/
def BlsSignature.serialize (signature : BlsSignature) : List UInt8 :=
  match signature.point with
  | some point => point.compressed.toList
  | none => List.replicate 96 0

def BlsSignature.fromPoint (point : Blst.Signature) (isInfinity : Bool) : BlsSignature :=
  ⟨some point, isInfinity⟩

section Crates

variable [Crates]

/-- A key from its bytes.  Bytes that are no encoding of a point panic. -/
def BlsPublicKey.ofBytes {Error : Type} (bytes : List UInt8) : Outcome Error BlsPublicKey :=
  .expect (BlsPublicKey.mk <$> Crates.publicKeyFromBytes bytes)

theorem BlsPublicKey.ofBytes_eq_ok {Error : Type} {bytes : List UInt8} {key : BlsPublicKey} :
    (ofBytes bytes : Outcome Error BlsPublicKey) = .ok key ↔
      Crates.publicKeyFromBytes bytes = .ok key.point := by
  rw [ofBytes, Outcome.expect_eq_ok, except_map_eq_ok]
  constructor
  · rintro ⟨point, decoded, rfl⟩
    exact decoded
  · intro decoded
    exact ⟨key.point, decoded, rfl⟩

theorem BlsPublicKey.ofBytes_ne_err {Error : Type} {bytes : List UInt8} {error : Error} :
    (ofBytes bytes : Outcome Error BlsPublicKey) ≠ .err error :=
  Outcome.expect_ne_err

theorem BlsPublicKey.ofBytes_eq_panicked {Error : Type} {bytes : List UInt8} :
    (ofBytes bytes : Outcome Error BlsPublicKey) = .panicked ↔
      (Crates.publicKeyFromBytes bytes).isOk = false := by
  rw [ofBytes, expect_map_eq_panicked]

/-- A signature from its bytes.  Bytes that are no encoding of a point panic. -/
def BlsSignature.ofBytes {Error : Type} (bytes : List UInt8) : Outcome Error BlsSignature :=
  .expect ((fun point => BlsSignature.fromPoint point false) <$> Crates.signatureFromBytes bytes)

theorem BlsSignature.ofBytes_eq_panicked {Error : Type} {bytes : List UInt8} :
    (ofBytes bytes : Outcome Error BlsSignature) = .panicked ↔
      (Crates.signatureFromBytes bytes).isOk = false := by
  rw [ofBytes, expect_map_eq_panicked]

/-- Whether this is a signature of the message by the key. -/
def BlsSignature.verify (signature : BlsSignature) (pubkey : BlsPublicKey) (message : Hash256) :
    Bool :=
  match signature.point with
  | some point => Crates.verify point message pubkey.point
  | none => false

instance : TreeHash BlsPublicKey := .byteVector 48 BlsPublicKey.serialize

instance : TreeHash BlsSignature := .byteVector 96 BlsSignature.serialize

structure ForkData where
  currentVersion : FixedVector UInt8 4
  genesisValidatorsRoot : Hash256
  deriving DecidableEq

instance : TreeHash ForkData :=
  .container fun fork =>
    [treeHashRoot fork.currentVersion, treeHashRoot fork.genesisValidatorsRoot]

/-- A signing domain: a four-byte tag followed by the front of the fork's root. -/
def ForkData.domain (fork : ForkData) (tag : List UInt8) : Hash256 :=
  B256.ofList (tag ++ (treeHashRoot fork).bytes.toList.take 28)

def ForkData.computeBuilderDomain (fork : ForkData) : Hash256 := fork.domain [0, 0, 0, 1]

def ForkData.computeProposerDomain (fork : ForkData) : Hash256 := fork.domain [0, 0, 0, 0]

/-- The fork used for builder signatures and the one used for proposer signatures. -/
structure ForkDatas where
  builder : ForkData
  proposer : ForkData
  deriving DecidableEq

def ForkDatas.computeBuilderDomain (forks : ForkDatas) : Hash256 :=
  forks.builder.computeBuilderDomain

def ForkDatas.computeProposerDomain (forks : ForkDatas) : Hash256 :=
  forks.proposer.computeProposerDomain

structure BlsSigner where
  secretKey : Blst.SecretKey
  forkData : ForkDatas

def BlsSigner.publicKey (signer : BlsSigner) : BlsPublicKey := ⟨Crates.skToPk signer.secretKey⟩

/-- Sign a message in the builder domain. -/
def BlsSigner.sign {Message : Type} [TreeHash Message] (signer : BlsSigner) (message : Message) :
    BlsSignature :=
  .fromPoint (Crates.sign signer.secretKey
    (signingRoot message signer.forkData.computeBuilderDomain)) false

/-- Where verifying accepts what signing produces, it accepts the signer's
signature under the signer's key. -/
theorem BlsSigner.verify_sign {Message : Type} [TreeHash Message]
    (verifies : ∀ secretKey message,
      Crates.verify (Crates.sign secretKey message) message (Crates.skToPk secretKey) = true)
    (signer : BlsSigner) (message : Message) :
    (signer.sign message).verify signer.publicKey
      (signingRoot message signer.forkData.computeBuilderDomain) = true :=
  verifies _ _

end Crates

end MevRelay
