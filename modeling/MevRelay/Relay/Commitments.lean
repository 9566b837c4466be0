import MevRelay.Primitives.Binding
import MevRelay.Relay.Delivery
import MevRelay.Relay.Unblinding

/-!
# What signatures commit to

A header stands for one payload, a signature for one message in one domain, and
a block over another payload than the signed one has another root.  All of this
holds up to a collision among the pairs that are hashed for the values at hand.
-/

namespace MevRelay

open Concurrent Ssz

section Commitments

variable [Crates]

/-- Two different ones of the pairs have the same parent. -/
def Collision (pairs : List HashPair) : Prop :=
  ∃ first ∈ pairs, ∃ second ∈ pairs, first ≠ second ∧
    Crates.hash32Concat first.1 first.2 = Crates.hash32Concat second.1 second.2

/-- What holds as long as nothing collides holds up to a collision. -/
theorem or_collision {pairs : List HashPair} {Holds : Prop}
    (held : ∀ known : Set HashPair, NoCollision known → (∀ pair ∈ pairs, pair ∈ known) → Holds) :
    Holds ∨ Collision pairs := by
  by_cases collides : Collision pairs
  · exact .inr collides
  · refine .inl (held {pair | pair ∈ pairs} ?_ fun pair inside => inside)
    intro first firstInside second secondInside same
    by_contra distinct
    exact collides ⟨first, firstInside, second, secondInside, distinct, same⟩

section Payloads

/-- The pairs hashed for the header of a payload. -/
def ExecutionPayload.pairs (payload : ExecutionPayload) : List HashPair :=
  Binding.pairs payload.transactions ++ listPairs 16 payload.withdrawals.toList

/-- A payload with no more withdrawals than its type declares is the only one
from which its header is made. -/
theorem payload_of_header {known : Set HashPair} (free : NoCollision known)
    {payload other : ExecutionPayload} (fits : payload.withdrawals.Fits)
    (hashable : other.withdrawals.Hashable) (payloadKnown : ∀ pair ∈ payload.pairs, pair ∈ known)
    (otherKnown : ∀ pair ∈ other.pairs, pair ∈ known)
    (same : ExecutionPayloadHeader.ofPayload payload = .ofPayload other) : payload = other := by
  rw [ExecutionPayload.pairs, List.forall_mem_append] at payloadKnown otherKnown
  have transactions : payload.transactions = other.transactions :=
    Binding.eq_of_root_eq free payloadKnown.1 otherKnown.1
      (congrArg ExecutionPayloadHeader.transactionsRoot same)
  have small : other.withdrawals.toList.length < 256 ^ 32 :=
    (ExecutionPayload.hashable_iff.mp hashable).trans_lt (by decide)
  have withdrawals : payload.withdrawals = other.withdrawals :=
    UncheckedList.ext (eq_of_listRoot_eq free fits (by decide) small payloadKnown.2 otherKnown.2
      (congrArg ExecutionPayloadHeader.withdrawalsRoot same))
  obtain ⟨⟩ := payload
  obtain ⟨⟩ := other
  simp only [ExecutionPayloadHeader.ofPayload, ExecutionPayloadHeader.mk.injEq] at same
  simp only at transactions withdrawals
  simp only [transactions, withdrawals, same]

end Payloads

section Blocks

/-- The roots of the fields of a blinded body, with a root in the place of its payload. -/
def BlindedBlockBody.rootsWith (body : BlindedBlockBody) (payloadRoot : Hash256) : List Hash256 :=
  [treeHashRoot body.randaoReveal, treeHashRoot body.eth1Data, treeHashRoot body.graffiti,
    treeHashRoot body.proposerSlashings, treeHashRoot body.attesterSlashings,
    treeHashRoot body.attestations, treeHashRoot body.deposits, treeHashRoot body.voluntaryExits,
    treeHashRoot body.syncAggregate, payloadRoot, treeHashRoot body.blsToExecutionChanges,
    treeHashRoot body.blobKzgCommitments]

/-- The roots of the fields of a blinded block, with a root in the place of its payload. -/
def BlindedBlock.rootsWith (block : BlindedBlock) (payloadRoot : Hash256) : List Hash256 :=
  [treeHashRoot block.slot, treeHashRoot block.proposerIndex, treeHashRoot block.parentRoot,
    treeHashRoot block.stateRoot, containerRoot (block.body.rootsWith payloadRoot)]

/-- The pairs hashed above the root that stands in the place of the payload. -/
def BlindedBlock.pairsWith (block : BlindedBlock) (domain payloadRoot : Hash256) : List HashPair :=
  containerPairs [containerRoot (block.rootsWith payloadRoot), domain] ++
    (containerPairs (block.rootsWith payloadRoot) ++
      containerPairs (block.body.rootsWith payloadRoot))

theorem payloadRoot_of_signingRoot {known : Set HashPair} (free : NoCollision known)
    {block : BlindedBlock} {domain root other : Hash256}
    (rootKnown : ∀ pair ∈ block.pairsWith domain root, pair ∈ known)
    (otherKnown : ∀ pair ∈ block.pairsWith domain other, pair ∈ known)
    (same : containerRoot [containerRoot (block.rootsWith root), domain] =
      containerRoot [containerRoot (block.rootsWith other), domain]) : root = other := by
  simp only [BlindedBlock.pairsWith, List.forall_mem_append] at rootKnown otherKnown
  have blocks := eq_of_containerRoot_eq free (by simp) rootKnown.1 otherKnown.1 same
  have roots : containerRoot (block.rootsWith root) = containerRoot (block.rootsWith other) :=
    (List.cons.inj blocks).1
  have fields := eq_of_containerRoot_eq free (by simp [BlindedBlock.rootsWith]) rootKnown.2.1
    otherKnown.2.1 roots
  simp only [BlindedBlock.rootsWith, List.cons.injEq, true_and, and_true] at fields
  have bodies := eq_of_containerRoot_eq free (by simp [BlindedBlockBody.rootsWith]) rootKnown.2.2
    otherKnown.2.2 fields
  simpa [BlindedBlockBody.rootsWith] using bodies

/-- The pairs hashed to compare what is signed for a blinded block with what a
block over a payload has to have signed. -/
def BlindedBlock.unblindingPairs (block : BlindedBlock) (domain : Hash256)
    (payload : ExecutionPayload) : List HashPair :=
  block.pairsWith domain (treeHashRoot payload) ++
    (block.pairsWith domain (treeHashRoot block.body.executionPayloadHeader) ++
      (Binding.pairs (ExecutionPayloadHeader.ofPayload payload) ++
        Binding.pairs block.body.executionPayloadHeader))

/-- A block over a payload has what was signed for the blinded block only if
this was signed over the header of the payload. -/
theorem header_of_signingRoot {known : Set HashPair} (free : NoCollision known)
    {block : BlindedBlock} {domain : Hash256} {payload : ExecutionPayload}
    (allKnown : ∀ pair ∈ block.unblindingPairs domain payload, pair ∈ known)
    (same : (BeaconBlock.new payload block).sszSigningRoot domain = signingRoot block domain) :
    block.body.executionPayloadHeader = .ofPayload payload := by
  simp only [BlindedBlock.unblindingPairs, List.forall_mem_append] at allKnown
  have roots := payloadRoot_of_signingRoot free allKnown.1 allKnown.2.1 same
  exact (Binding.eq_of_root_eq free allKnown.2.2.1 allKnown.2.2.2 roots).symm

end Blocks

section Messages

/-- The pairs hashed for what is signed of a message. -/
def signingPairs {Message : Type} [TreeHash Message] [Binding Message] (message : Message)
    (domain : Hash256) : List HashPair :=
  containerPairs [treeHashRoot message, domain] ++ Binding.pairs message

/-- What is signed determines the message and the domain. -/
theorem message_of_signingRoot {Message : Type} [TreeHash Message] [Binding Message]
    {message other : Message} {domain otherDomain : Hash256}
    (same : signingRoot message domain = signingRoot other otherDomain) :
    (message = other ∧ domain = otherDomain) ∨
      Collision (signingPairs message domain ++ signingPairs other otherDomain) := by
  refine or_collision fun known free allKnown => ?_
  simp only [signingPairs, List.forall_mem_append] at allKnown
  obtain ⟨⟨messageRoots, messagePairs⟩, otherRoots, otherPairs⟩ := allKnown
  have parts := eq_of_containerRoot_eq free (by rfl) messageRoots otherRoots same
  simp only [List.cons.injEq, and_true] at parts
  exact ⟨Binding.eq_of_root_eq free messagePairs otherPairs parts.1, parts.2⟩

theorem length_domain (fork : ForkData) {tag : List UInt8} (four : tag.length = 4) :
    (tag ++ (treeHashRoot fork).bytes.toList.take 28).length = 32 := by
  rw [List.length_append, four, List.length_take, (treeHashRoot fork).bytes.length_eq]
  rfl

/-- Domains with different tags differ, whatever the forks are. -/
theorem domain_ne_domain {tag otherTag : List UInt8} (four : tag.length = 4)
    (otherFour : otherTag.length = 4) (different : tag ≠ otherTag) (fork otherFork : ForkData) :
    fork.domain tag ≠ otherFork.domain otherTag := by
  intro same
  have bytes := B256.eq_of_ofList_eq
    ((length_domain fork four).trans (length_domain otherFork otherFour).symm)
    (length_domain fork four).le same
  exact different (List.append_inj bytes (four.trans otherFour.symm)).1

/-- Nothing is signed in both domains: what a builder, a validator or the relay
signs in the builder domain is never what a proposer signs for a block. -/
theorem domains_separate {Message Other : Type} [TreeHash Message] [TreeHash Other]
    (message : Message) (other : Other) (fork otherFork : ForkDatas) :
    signingRoot message fork.computeBuilderDomain ≠
        signingRoot other otherFork.computeProposerDomain ∨
      Collision (containerPairs [treeHashRoot message, fork.computeBuilderDomain] ++
        containerPairs [treeHashRoot other, otherFork.computeProposerDomain]) := by
  refine or_collision fun known free allKnown same => ?_
  rw [List.forall_mem_append] at allKnown
  have parts := eq_of_containerRoot_eq free (by rfl) allKnown.1 allKnown.2 same
  simp only [List.cons.injEq, and_true] at parts
  exact domain_ne_domain rfl rfl (by decide) fork.builder otherFork.proposer parts.2

/-- The signature of a bid, a registration or a header is one of this message alone. -/
theorem messages_signed_apart (domain : Hash256) :
    (∀ bid other : BidTrace, signingRoot bid domain = signingRoot other domain →
      bid = other ∨ Collision (signingPairs bid domain ++ signingPairs other domain)) ∧
    (∀ registration other : ValidatorRegistrationMessage,
      signingRoot registration domain = signingRoot other domain → registration = other ∨
        Collision (signingPairs registration domain ++ signingPairs other domain)) ∧
    ∀ header other : Header, signingRoot header domain = signingRoot other domain →
      header = other ∨ Collision (signingPairs header domain ++ signingPairs other domain) :=
  ⟨fun _ _ same => (message_of_signingRoot same).imp_left And.left,
    fun _ _ same => (message_of_signingRoot same).imp_left And.left,
    fun _ _ same => (message_of_signingRoot same).imp_left And.left⟩

end Messages

section Runs

variable {config : Config} {trace : List RelayEvent} {world : RelayWorld}

/-- A published block has what the proposer has signed exactly if it holds the
payload from which the signed header was made, as long as it holds no more
withdrawals than its type declares: the hasher ignores some that are beyond. -/
theorem published_signed_iff (run : RunFrom config config.init trace world) {publish : RelayEvent}
    (membership : publish ∈ trace) {block : SignedBlindedBlock}
    (request : publish.request = .postBlindedBlocks block) {content : SignedBeaconBlockContent}
    {submissionType : SubmissionType} (publishes : publish.call = .publishBlock content submissionType)
    (fits : content.executionPayload.withdrawals.Fits) (other : ExecutionPayload)
    (described : other.HasHeader block.header) :
    let domain := config.forkData.computeProposerDomain
    (content.signedBlock.message.sszSigningRoot domain = signingRoot block.message domain ↔
        content.executionPayload = other) ∨
      Collision (block.message.unblindingPairs domain content.executionPayload ++
        (content.executionPayload.pairs ++ other.pairs)) := by
  intro domain
  obtain ⟨hashable, header⟩ := ExecutionPayload.hasHeader_iff.mp described
  obtain ⟨front, later, split⟩ := List.append_of_mem membership
  obtain ⟨_, _, response, own, _, rfl⟩ := publish_event run split publishes
  rw [request] at own
  cases own
  refine or_collision fun known free allKnown => ?_
  simp only [List.forall_mem_append] at allKnown
  obtain ⟨blockKnown, payloadKnown, otherKnown⟩ := allKnown
  constructor
  · intro same
    have own := header_of_signingRoot free blockKnown same
    exact payload_of_header free fits hashable payloadKnown otherKnown
      (own.symm.trans header.symm)
  · rintro rfl
    exact sszSigningRoot_new header.symm domain

end Runs

end Commitments

section Redeemed

open Demo

attribute [local instance] standIn

theorem redeemed_signed_iff :
    (bid 5 6).executionPayload.withdrawals.Fits ∧
    ∃ content : SignedBeaconBlockContent, content.executionPayload = payload 6 ∧
      let domain := config.forkData.computeProposerDomain
      let block := (blindedBlock (.ofPayload (payload 6))).message
      (content.signedBlock.message.sszSigningRoot domain = signingRoot block domain ↔
          content.executionPayload = payload 6) ∨
        Collision (block.unblindingPairs domain content.executionPayload ++
          (content.executionPayload.pairs ++ (payload 6).pairs)) := by
  have fits : (bid 5 6).executionPayload.withdrawals.Fits := by decide
  have returned : (redeemed 6).world.tasks[3]? = some ⟨_, .done (.postBlindedBlocks
      (.ok ⟨.deneb, (bid 5 6).toBlindedBlockResponse⟩))⟩ :=
    World.returned?_eq_some.mp (show _ = some
      (.postBlindedBlocks (blindedBlock (.ofPayload (payload 6))), _) by decide +kernel)
  obtain ⟨_, same, publish, membership, own, publishes⟩ :=
    publish_of_returned (redeemed_run 6) returned
  have request := (redeemed_run 6).request_of_task membership own returned
  have described : (payload 6).HasHeader (.ofPayload (payload 6)) :=
    ExecutionPayload.hasHeader_iff.mpr ⟨by decide, rfl⟩
  exact ⟨fits, _, rfl, published_signed_iff (redeemed_run 6) membership request publishes fits
    (payload 6) described⟩

end Redeemed

end MevRelay
