import MevRelay.Primitives.Beacon

/-!
# Bids, registrations and the headers served for them
-/

namespace MevRelay

open Ssz

structure BidTrace where
  slot : UInt64
  parentHash : B256
  blockHash : B256
  builderPubkey : BlsPublicKey
  proposerPubkey : BlsPublicKey
  proposerFeeRecipient : Address
  gasLimit : UInt64
  gasUsed : UInt64
  value : U256
  deriving DecidableEq

structure BidSubmission where
  message : BidTrace
  executionPayload : ExecutionPayload
  blobsBundle : BlobsBundle
  signature : BlsSignature
  deriving DecidableEq

def BidSubmission.new (bid : BidTrace) (executionPayload : ExecutionPayload)
    (blobsBundle : BlobsBundle) (signature : BlsSignature) : BidSubmission :=
  ⟨bid, executionPayload, blobsBundle, signature⟩

def BidSubmission.toBlindedBlockResponse (submission : BidSubmission) : BlindedBlockResponse :=
  ⟨submission.executionPayload, submission.blobsBundle⟩

structure ValidatorRegistrationMessage where
  feeRecipient : Address
  gasLimit : UInt64
  timestamp : UInt64
  pubkey : BlsPublicKey
  deriving DecidableEq

structure ValidatorRegistration where
  message : ValidatorRegistrationMessage
  signature : BlsSignature
  deriving DecidableEq

/-- A proposer duty together with the registration of its proposer. -/
structure Validator where
  slot : UInt64
  validatorIndex : UInt64
  entry : ValidatorRegistration
  deriving DecidableEq

structure HeadSlot where
  slot : UInt64
  deriving DecidableEq

/-- Ensures the proposal slot is the next slot. -/
def HeadSlot.isNextSlot (head : HeadSlot) (proposalSlot : UInt64) : Bool :=
  head.slot + 1 == proposalSlot

/-- The epoch of the slot; dividing by zero panics. -/
def HeadSlot.epoch {Error : Type} (head : HeadSlot) (slotsPerEpoch : UInt64) :
    Outcome Error UInt64 :=
  if slotsPerEpoch = 0 then .panicked else .ok (head.slot / slotsPerEpoch)

/-- The part of a payload attributes event that the relay reads. -/
structure PayloadAttributes where
  proposalSlot : UInt64
  parentBlockHash : B256
  prevRandao : B256
  deriving DecidableEq

/-- Errors that can occur during the validation of a bid against the payload attributes. -/
inductive ValidationErrors where
  | slot
  | prevRandao
  deriving DecidableEq

def ValidationErrors.toString : ValidationErrors → String
  | .slot => "Payload attributes: Invalid slot."
  | .prevRandao => "Payload attributes: Invalid prev_randao."

/-- Validates the bid against the payload attributes. -/
def PayloadAttributes.validateBid (attrs : PayloadAttributes) (slot : UInt64)
    (prevRandao : B256) : Except ValidationErrors Unit :=
  if attrs.proposalSlot ≠ slot then .error .slot
  else if attrs.prevRandao ≠ prevRandao then .error .prevRandao
  else .ok ()

theorem PayloadAttributes.validateBid_eq_ok {attrs : PayloadAttributes} {slot : UInt64}
    {prevRandao : B256} :
    attrs.validateBid slot prevRandao = .ok () ↔
      attrs.proposalSlot = slot ∧ attrs.prevRandao = prevRandao := by
  simp only [validateBid]
  split <;> simp_all

/-- A head slot admits the slot after it and no other. -/
theorem HeadSlot.isNextSlot_iff {head : HeadSlot} {slot : UInt64} :
    head.isNextSlot slot = true ↔ slot = head.slot + 1 := by
  rw [isNextSlot, beq_iff_eq, eq_comm]

theorem HeadSlot.toNat_of_isNextSlot {head : HeadSlot} {slot : UInt64}
    (next : head.isNextSlot slot = true) (below : head.slot.toNat < 2 ^ 64 - 1) :
    slot.toNat = head.slot.toNat + 1 := by
  rw [isNextSlot_iff.mp next, UInt64.toNat_add]
  have one : (1 : UInt64).toNat = 1 := rfl
  omega

structure Header where
  header : ExecutionPayloadHeader
  blobKzgCommitments : VariableList KzgCommitment 4096
  value : U256
  pubkey : BlsPublicKey
  deriving DecidableEq

/-- Response object of GET `/eth/v1/builder/header/{slot}/{parent_hash}/{pubkey}`. -/
structure SignedHeader where
  message : Header
  signature : BlsSignature
  deriving DecidableEq

inductive ForkName where
  | base
  | altair
  | merge
  | capella
  | deneb
  deriving DecidableEq

/-- Data tagged with its fork. -/
structure Versioned (Data : Type) where
  version : ForkName
  data : Data
  deriving DecidableEq

section Crates

variable [Crates]

instance : TreeHash BidTrace :=
  .container fun trace =>
    [treeHashRoot trace.slot, treeHashRoot trace.parentHash, treeHashRoot trace.blockHash,
      treeHashRoot trace.builderPubkey, treeHashRoot trace.proposerPubkey,
      treeHashRoot trace.proposerFeeRecipient, treeHashRoot trace.gasLimit,
      treeHashRoot trace.gasUsed, treeHashRoot trace.value]

instance : TreeHash ValidatorRegistrationMessage :=
  .container fun message =>
    [treeHashRoot message.feeRecipient, treeHashRoot message.gasLimit,
      treeHashRoot message.timestamp, treeHashRoot message.pubkey]

instance : TreeHash Header :=
  .container fun header =>
    [treeHashRoot header.header, treeHashRoot header.blobKzgCommitments,
      treeHashRoot header.value, treeHashRoot header.pubkey]

/-- Verify the signature of the bid trace. -/
def BidTrace.verifySignature (trace : BidTrace) (signature : BlsSignature) (domain : Hash256) :
    Bool :=
  signature.verify trace.builderPubkey (signingRoot trace domain)

/-- The header of a submission, signed by the relay. -/
def SignedHeader.tryFrom (submission : BidSubmission) (signer : BlsSigner) :
    Outcome ConversionError SignedHeader := do
  let header ← submission.executionPayload.toHeader
  let kzgCommitments := submission.blobsBundle.commitments.map Bytes48.asKzgCommitment
  match VariableList.new kzgCommitments with
  | none => .err .sszTypes
  | some blobKzgCommitments =>
      let message : Header :=
        ⟨header, blobKzgCommitments, submission.message.value, signer.publicKey⟩
      return ⟨message, signer.sign message⟩

/-- What a signed header says of the submission it was made from. -/
theorem SignedHeader.of_tryFrom {submission : BidSubmission} {signer : BlsSigner}
    {signed : SignedHeader} (made : tryFrom submission signer = .ok signed) :
    signed.message.header = .ofPayload submission.executionPayload ∧
      signed.message.blobKzgCommitments.toList =
        submission.blobsBundle.commitments.map Bytes48.asKzgCommitment ∧
      signed.message.value = submission.message.value ∧
      signed.message.pubkey = signer.publicKey ∧ signed.signature = signer.sign signed.message := by
  obtain ⟨header, converted, made⟩ := Outcome.bind_eq_ok.mp made
  obtain ⟨_, rfl⟩ := ExecutionPayload.toHeader_eq_ok.mp converted
  dsimp only at made
  split at made
  · cases made
  · rename_i commitments fits
    cases made
    exact ⟨rfl, VariableList.toList_of_new fits, rfl, rfl, rfl⟩

end Crates

end MevRelay
