import MevRelay.Relay.Surroundings

/-!
# Roots of unblinded blocks

The proposer signs the root of a blinded block, in which the header stands for
the payload.  A block over that payload has the same root.  Full blocks are only
ever serialised by the relay, so their SSZ roots are stated here.
-/

namespace MevRelay

section Roots

variable [Crates]

/-- The SSZ root of a full body, over its fields in declared order. -/
def BeaconBlockBody.sszRoot (body : BeaconBlockBody) : Hash256 :=
  containerRoot
    [treeHashRoot body.randaoReveal, treeHashRoot body.eth1Data, treeHashRoot body.graffiti,
      treeHashRoot body.proposerSlashings, treeHashRoot body.attesterSlashings,
      treeHashRoot body.attestations, treeHashRoot body.deposits,
      treeHashRoot body.voluntaryExits, treeHashRoot body.syncAggregate,
      treeHashRoot body.executionPayload, treeHashRoot body.blsToExecutionChanges,
      treeHashRoot body.blobKzgCommitments]

/-- The SSZ root of a full block, over its fields in declared order. -/
def BeaconBlock.sszRoot (block : BeaconBlock) : Hash256 :=
  containerRoot
    [treeHashRoot block.slot, treeHashRoot block.proposerIndex, treeHashRoot block.parentRoot,
      treeHashRoot block.stateRoot, block.body.sszRoot]

/-- What the signature of a full block has to sign. -/
def BeaconBlock.sszSigningRoot (block : BeaconBlock) (domain : Hash256) : Hash256 :=
  containerRoot [block.sszRoot, domain]

variable {payload : ExecutionPayload} {block : BlindedBlock}

/-- The roots that stand for transactions and withdrawals are their own roots. -/
theorem treeHashRoot_ofPayload (payload : ExecutionPayload) :
    treeHashRoot (ExecutionPayloadHeader.ofPayload payload) = treeHashRoot payload := rfl

theorem sszRoot_newBody {body : BlindedBlockBody}
    (blinds : body.executionPayloadHeader = .ofPayload payload) :
    (BeaconBlockBody.new payload body).sszRoot = treeHashRoot body := by
  have header : treeHashRoot body.executionPayloadHeader = treeHashRoot payload := by
    rw [blinds, treeHashRoot_ofPayload]
  simp only [BeaconBlockBody.sszRoot, BeaconBlockBody.new, ← header]
  rfl

theorem sszRoot_new (blinds : block.body.executionPayloadHeader = .ofPayload payload) :
    (BeaconBlock.new payload block).sszRoot = treeHashRoot block := by
  simp only [BeaconBlock.sszRoot, BeaconBlock.new, sszRoot_newBody blinds]
  rfl

theorem sszSigningRoot_new (blinds : block.body.executionPayloadHeader = .ofPayload payload)
    (domain : Hash256) :
    (BeaconBlock.new payload block).sszSigningRoot domain = signingRoot block domain := by
  rw [BeaconBlock.sszSigningRoot, sszRoot_new blinds, signingRoot]

/-- Putting the payload in place of its header changes no root, so a signature
of the blinded block is one of the block that is published. -/
theorem unblinding_preserves_root
    (blinds : block.body.executionPayloadHeader = .ofPayload payload) :
    treeHashRoot payload = treeHashRoot block.body.executionPayloadHeader ∧
      (BeaconBlock.new payload block).sszRoot = treeHashRoot block ∧
      ∀ signature pubkey domain blobsBundle,
        signature.verify pubkey (signingRoot block domain) = true →
        let published :=
          (SignedBeaconBlockContent.new payload block signature blobsBundle).signedBlock
        published.signature.verify pubkey (published.message.sszSigningRoot domain) = true := by
  refine ⟨by rw [blinds, treeHashRoot_ofPayload], sszRoot_new blinds, ?_⟩
  intro signature pubkey domain blobsBundle verified
  show signature.verify pubkey ((BeaconBlock.new payload block).sszSigningRoot domain) = true
  rw [sszSigningRoot_new blinds]
  exact verified

end Roots

section Demo

open Demo

attribute [local instance] standIn

def demoBlock : SignedBlindedBlock := blindedBlock (.ofPayload (payload 6))

theorem demo_signature_carries_over :
    demoBlock.signature.verify (pubkey 3) ((BeaconBlock.new (payload 6) demoBlock.message).sszSigningRoot
      config.forkData.computeProposerDomain) = true :=
  (unblinding_preserves_root (show demoBlock.message.body.executionPayloadHeader =
      .ofPayload (payload 6) from rfl)).2.2 demoBlock.signature (pubkey 3)
    config.forkData.computeProposerDomain ⟨[], .empty, .empty⟩
    (verify_signWith standIn_verify_sign (secretKey 3) config.forkData.computeProposerDomain
      demoBlock.message)

end Demo

end MevRelay
