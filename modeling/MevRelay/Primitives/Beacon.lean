import MevRelay.Primitives.Blst

/-!
# Beacon blocks

The blinded block a proposer signs and the full block the relay publishes.
-/

namespace MevRelay

open Ssz

structure BitList (maximum : Nat) where
  bits : VariableList Bool maximum
  deriving DecidableEq

structure BitVector (capacity : Nat) where
  bits : FixedVector Bool capacity
  deriving DecidableEq

structure Eth1Data where
  depositRoot : B256
  depositCount : UInt64
  blockHash : B256
  deriving DecidableEq

structure BeaconBlockHeader where
  slot : UInt64
  proposerIndex : UInt64
  parentRoot : B256
  stateRoot : B256
  bodyRoot : B256
  deriving DecidableEq

structure SignedBeaconBlockHeader where
  message : BeaconBlockHeader
  signature : BlsSignature
  deriving DecidableEq

structure ProposerSlashing where
  signedHeader1 : SignedBeaconBlockHeader
  signedHeader2 : SignedBeaconBlockHeader
  deriving DecidableEq

structure Checkpoint where
  epoch : UInt64
  root : B256
  deriving DecidableEq

structure AttestationData where
  slot : UInt64
  index : UInt64
  beaconBlockRoot : B256
  source : Checkpoint
  target : Checkpoint
  deriving DecidableEq

structure IndexedAttestation where
  attestingIndices : VariableList UInt64 2048
  data : AttestationData
  signature : BlsSignature
  deriving DecidableEq

structure AttesterSlashing where
  attestation1 : IndexedAttestation
  attestation2 : IndexedAttestation
  deriving DecidableEq

structure Attestation where
  aggregationBits : BitList 2048
  data : AttestationData
  signature : BlsSignature
  deriving DecidableEq

structure DepositData where
  pubkey : BlsPublicKey
  withdrawalCredentials : B256
  amount : UInt64
  signature : BlsSignature
  deriving DecidableEq

structure Deposit where
  proof : UncheckedVector B256 33
  data : DepositData
  deriving DecidableEq

structure VoluntaryExit where
  epoch : UInt64
  validatorIndex : UInt64
  deriving DecidableEq

structure SignedVoluntaryExit where
  message : VoluntaryExit
  signature : BlsSignature
  deriving DecidableEq

structure SyncAggregate where
  syncCommitteeBits : BitVector 512
  syncCommitteeSignature : BlsSignature
  deriving DecidableEq

structure BlsToExecutionChange where
  validatorIndex : UInt64
  fromBlsPubkey : BlsPublicKey
  toExecutionAddress : Address
  deriving DecidableEq

structure SignedBlsToExecutionChange where
  message : BlsToExecutionChange
  signature : BlsSignature
  deriving DecidableEq

/-- The body that a proposer signs.  The lengths of its lists are not checked
when it is read from JSON. -/
structure BlindedBlockBody where
  randaoReveal : BlsSignature
  eth1Data : Eth1Data
  graffiti : B256
  proposerSlashings : UncheckedList ProposerSlashing 16
  attesterSlashings : UncheckedList AttesterSlashing 2
  attestations : UncheckedList Attestation 128
  deposits : UncheckedList Deposit 16
  voluntaryExits : UncheckedList SignedVoluntaryExit 16
  syncAggregate : SyncAggregate
  executionPayloadHeader : ExecutionPayloadHeader
  blsToExecutionChanges : UncheckedList SignedBlsToExecutionChange 16
  blobKzgCommitments : UncheckedList KzgCommitment 4096
  deriving DecidableEq

/-- A blinded block is a block without its transactions but with the root of the transactions. -/
structure BlindedBlock where
  slot : UInt64
  proposerIndex : UInt64
  parentRoot : B256
  stateRoot : B256
  body : BlindedBlockBody
  deriving DecidableEq

/-- The hashers for the root of a body take all elements of its lists. -/
structure BlindedBlockBody.Hashable (body : BlindedBlockBody) : Prop where
  proposerSlashings : body.proposerSlashings.Hashable
  attesterSlashings : body.attesterSlashings.Hashable
  attestations : body.attestations.Hashable
  deposits : body.deposits.Hashable
  proofs : ∀ deposit ∈ body.deposits.toList, deposit.proof.Hashable
  voluntaryExits : body.voluntaryExits.Hashable
  blsToExecutionChanges : body.blsToExecutionChanges.Hashable
  blobKzgCommitments : body.blobKzgCommitments.Hashable

instance (body : BlindedBlockBody) : Decidable body.Hashable :=
  decidable_of_iff
    (body.proposerSlashings.Hashable ∧ body.attesterSlashings.Hashable ∧
      body.attestations.Hashable ∧ body.deposits.Hashable ∧
      (∀ deposit ∈ body.deposits.toList, deposit.proof.Hashable) ∧
      body.voluntaryExits.Hashable ∧ body.blsToExecutionChanges.Hashable ∧
      body.blobKzgCommitments.Hashable)
    ⟨fun ⟨proposer, attester, attestations, deposits, proofs, exits, changes, commitments⟩ =>
        ⟨proposer, attester, attestations, deposits, proofs, exits, changes, commitments⟩,
      fun hashable =>
        ⟨hashable.proposerSlashings, hashable.attesterSlashings, hashable.attestations,
          hashable.deposits, hashable.proofs, hashable.voluntaryExits,
          hashable.blsToExecutionChanges, hashable.blobKzgCommitments⟩⟩

/-- Request object of POST `/eth/v1/builder/blinded_blocks`. -/
structure SignedBlindedBlock where
  message : BlindedBlock
  signature : BlsSignature
  deriving DecidableEq

structure BeaconBlockBody where
  randaoReveal : BlsSignature
  eth1Data : Eth1Data
  graffiti : B256
  proposerSlashings : UncheckedList ProposerSlashing 16
  attesterSlashings : UncheckedList AttesterSlashing 2
  attestations : UncheckedList Attestation 128
  deposits : UncheckedList Deposit 16
  voluntaryExits : UncheckedList SignedVoluntaryExit 16
  syncAggregate : SyncAggregate
  executionPayload : ExecutionPayload
  blsToExecutionChanges : UncheckedList SignedBlsToExecutionChange 16
  blobKzgCommitments : UncheckedList KzgCommitment 4096
  deriving DecidableEq

structure BeaconBlock where
  slot : UInt64
  proposerIndex : UInt64
  parentRoot : B256
  stateRoot : B256
  body : BeaconBlockBody
  deriving DecidableEq

structure SignedBeaconBlock where
  message : BeaconBlock
  signature : BlsSignature
  deriving DecidableEq

/-- The block handed to the beacon node. -/
structure SignedBeaconBlockContent where
  signedBlock : SignedBeaconBlock
  kzgProofs : UncheckedList KzgCommitment 4096
  blobs : UncheckedList Blob 4096
  deriving DecidableEq

/-- The blinded body with its header replaced by the payload. -/
def BeaconBlockBody.new (executionPayload : ExecutionPayload) (body : BlindedBlockBody) :
    BeaconBlockBody where
  randaoReveal := body.randaoReveal
  eth1Data := body.eth1Data
  graffiti := body.graffiti
  proposerSlashings := body.proposerSlashings
  attesterSlashings := body.attesterSlashings
  attestations := body.attestations
  deposits := body.deposits
  voluntaryExits := body.voluntaryExits
  syncAggregate := body.syncAggregate
  executionPayload := executionPayload
  blsToExecutionChanges := body.blsToExecutionChanges
  blobKzgCommitments := body.blobKzgCommitments

def BeaconBlock.new (executionPayload : ExecutionPayload) (block : BlindedBlock) :
    BeaconBlock where
  slot := block.slot
  proposerIndex := block.proposerIndex
  parentRoot := block.parentRoot
  stateRoot := block.stateRoot
  body := .new executionPayload block.body

def SignedBeaconBlock.new (executionPayload : ExecutionPayload) (block : BlindedBlock)
    (signature : BlsSignature) : SignedBeaconBlock :=
  ⟨.new executionPayload block, signature⟩

def SignedBeaconBlockContent.new (executionPayload : ExecutionPayload) (block : BlindedBlock)
    (signature : BlsSignature) (blobsData : BlobsBundle) : SignedBeaconBlockContent :=
  ⟨.new executionPayload block signature, blobsData.proofs, blobsData.blobs⟩

def SignedBeaconBlockContent.executionPayload (content : SignedBeaconBlockContent) :
    ExecutionPayload :=
  content.signedBlock.message.body.executionPayload

def SignedBeaconBlockContent.blockHash (content : SignedBeaconBlockContent) : B256 :=
  content.executionPayload.blockHash

@[simp]
theorem SignedBeaconBlockContent.executionPayload_new (executionPayload : ExecutionPayload)
    (block : BlindedBlock) (signature : BlsSignature) (blobsData : BlobsBundle) :
    (new executionPayload block signature blobsData).executionPayload = executionPayload := rfl

@[simp]
theorem SignedBeaconBlockContent.blockHash_new (executionPayload : ExecutionPayload)
    (block : BlindedBlock) (signature : BlsSignature) (blobsData : BlobsBundle) :
    (new executionPayload block signature blobsData).blockHash = executionPayload.blockHash := rfl

section TreeHash

variable [Crates]

instance (maximum : Nat) : TreeHash (BitList maximum) where
  packed := none
  treeHashRoot list :=
    mixInLength (bitfieldBytesTreeHashRoot maximum list.bits.toList) list.bits.toList.length

instance (capacity : Nat) : TreeHash (BitVector capacity) where
  packed := none
  treeHashRoot vector := bitfieldBytesTreeHashRoot capacity vector.bits.toList

instance : TreeHash Eth1Data :=
  .container fun data =>
    [treeHashRoot data.depositRoot, treeHashRoot data.depositCount, treeHashRoot data.blockHash]

instance : TreeHash BeaconBlockHeader :=
  .container fun header =>
    [treeHashRoot header.slot, treeHashRoot header.proposerIndex, treeHashRoot header.parentRoot,
      treeHashRoot header.stateRoot, treeHashRoot header.bodyRoot]

instance : TreeHash SignedBeaconBlockHeader :=
  .container fun signed => [treeHashRoot signed.message, treeHashRoot signed.signature]

instance : TreeHash ProposerSlashing :=
  .container fun slashing =>
    [treeHashRoot slashing.signedHeader1, treeHashRoot slashing.signedHeader2]

instance : TreeHash Checkpoint :=
  .container fun checkpoint => [treeHashRoot checkpoint.epoch, treeHashRoot checkpoint.root]

instance : TreeHash AttestationData :=
  .container fun data =>
    [treeHashRoot data.slot, treeHashRoot data.index, treeHashRoot data.beaconBlockRoot,
      treeHashRoot data.source, treeHashRoot data.target]

instance : TreeHash IndexedAttestation :=
  .container fun attestation =>
    [treeHashRoot attestation.attestingIndices, treeHashRoot attestation.data,
      treeHashRoot attestation.signature]

instance : TreeHash AttesterSlashing :=
  .container fun slashing =>
    [treeHashRoot slashing.attestation1, treeHashRoot slashing.attestation2]

instance : TreeHash Attestation :=
  .container fun attestation =>
    [treeHashRoot attestation.aggregationBits, treeHashRoot attestation.data,
      treeHashRoot attestation.signature]

instance : TreeHash DepositData :=
  .container fun data =>
    [treeHashRoot data.pubkey, treeHashRoot data.withdrawalCredentials, treeHashRoot data.amount,
      treeHashRoot data.signature]

instance : TreeHash Deposit :=
  .container fun deposit => [treeHashRoot deposit.proof, treeHashRoot deposit.data]

instance : TreeHash VoluntaryExit :=
  .container fun exit => [treeHashRoot exit.epoch, treeHashRoot exit.validatorIndex]

instance : TreeHash SignedVoluntaryExit :=
  .container fun signed => [treeHashRoot signed.message, treeHashRoot signed.signature]

instance : TreeHash SyncAggregate :=
  .container fun aggregate =>
    [treeHashRoot aggregate.syncCommitteeBits, treeHashRoot aggregate.syncCommitteeSignature]

instance : TreeHash BlsToExecutionChange :=
  .container fun change =>
    [treeHashRoot change.validatorIndex, treeHashRoot change.fromBlsPubkey,
      treeHashRoot change.toExecutionAddress]

instance : TreeHash SignedBlsToExecutionChange :=
  .container fun signed => [treeHashRoot signed.message, treeHashRoot signed.signature]

instance : TreeHash BlindedBlockBody :=
  .container fun body =>
    [treeHashRoot body.randaoReveal, treeHashRoot body.eth1Data, treeHashRoot body.graffiti,
      treeHashRoot body.proposerSlashings, treeHashRoot body.attesterSlashings,
      treeHashRoot body.attestations, treeHashRoot body.deposits,
      treeHashRoot body.voluntaryExits, treeHashRoot body.syncAggregate,
      treeHashRoot body.executionPayloadHeader, treeHashRoot body.blsToExecutionChanges,
      treeHashRoot body.blobKzgCommitments]

instance : TreeHash BlindedBlock :=
  .container fun block =>
    [treeHashRoot block.slot, treeHashRoot block.proposerIndex, treeHashRoot block.parentRoot,
      treeHashRoot block.stateRoot, treeHashRoot block.body]

end TreeHash

end MevRelay
