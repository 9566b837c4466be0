import MevRelay.Relay.Admission

/-!
# Whom an accepted bid pays

No check on either submission path compares the proposer and the fee recipient
that a bid names with the duty found for its slot.
-/

namespace MevRelay

open Concurrent

/-- The bid names the proposer on duty and pays to its registered address. -/
structure PaysProposer (bid : BidTrace) (duty : Validator) : Prop where
  pubkey : bid.proposerPubkey = duty.pubkey
  feeRecipient : bid.proposerFeeRecipient = duty.entry.message.feeRecipient

/-- The bid and its payload are filed under one proposer. -/
def FiledUnder (store : InMemoryStorage) (bid : BidSubmission) (proposer : BlsPublicKey)
    (after : InMemoryStorage) : Prop :=
  after.bestBidPerSlot =
      store.bestBidPerSlot.insert ⟨bid.message.slot, bid.message.parentHash, proposer⟩ bid ∧
    after.blindedBlockResp = store.blindedBlockResp.insert proposer bid.toBlindedBlockResponse

section Accepted

variable [Crates] {config : Config} {request : Request} {store after : InMemoryStorage}

/-- If the request is accepted, its bid pays the proposer on duty, under which
both the bid and its payload are filed. -/
def PaysIfAccepted (config : Config) (request : Request) (store : InMemoryStorage) : Prop :=
  ∀ reply after, Yields exec (handler config request) store reply after →
    reply.isAccepted = true →
    ∃ bid duty, request.submission? = some bid ∧
      store.findDutyBySlot bid.message.slot = some duty ∧ PaysProposer bid.message duty ∧
      FiledUnder store bid duty.pubkey after

/-- A request pays the proposer on duty if accepted exactly when its submission
fails a check against the store or names that proposer and its fee recipient. -/
theorem pays_if_accepted_iff :
    PaysIfAccepted config request store ↔
      ∀ bid duty, request.submission? = some bid →
        Admitted (forksUsed config store request) store bid duty →
        PaysProposer bid.message duty := by
  constructor
  · intro pays bid duty carried admitted
    obtain ⟨reply, yields, accepted⟩ := accepted_yields_iff.mpr ⟨bid, duty, carried, admitted, rfl⟩
    obtain ⟨paid, found, same, onDuty, paysProposer, _⟩ := pays reply _ yields accepted
    rw [carried] at same
    cases same
    rw [admitted.valid.onDuty] at onDuty
    cases onDuty
    exact paysProposer
  · intro names reply after yields accepted
    obtain ⟨bid, duty, carried, admitted, rfl⟩ := accepted_yields_iff.mp ⟨reply, yields, accepted⟩
    have pays := names bid duty carried admitted
    refine ⟨bid, duty, carried, admitted.valid.onDuty, pays, ?_, rfl⟩
    rw [← pays.pubkey]
    rfl

end Accepted

section Demo

open Demo

attribute [local instance] standIn

/-- A bid for slot 1 that names the proposer 4 and pays to an address of its own. -/
def misdirected : BidSubmission :=
  let trace : BidTrace := ⟨1, hash 1, hash 6, pubkey 2, pubkey 4, ⟨.replicate 1⟩, 30000000, 0, 5⟩
  .new trace (payload 6) ⟨[], .empty, .empty⟩
    (signWith (secretKey 2) config.forkData.computeBuilderDomain trace)

/-- The proposer 3 is on duty, and the bid is accepted all the same. -/
theorem misdirected_bid_accepted :
    ¬ PaysIfAccepted config (.postBids misdirected) (serve []).2 := by
  intro pays
  have accepted : (complete (.postBids misdirected) (serve []).2).result.isAccepted = true := by
    decide +kernel
  obtain ⟨bid, duty, carried, onDuty, paid, _⟩ :=
    pays _ _ ⟨_, surroundings.responder.complete_exec (handler config) (.postBids misdirected)
      (serve []).2⟩ accepted
  cases carried
  have found : (serve []).2.findDutyBySlot 1 = some Demo.duty := by decide +kernel
  obtain rfl : Demo.duty = duty := Option.some.inj (found.symm.trans onDuty)
  have other : misdirected.message.proposerPubkey ≠ Demo.duty.pubkey := by decide +kernel
  exact other paid.pubkey

end Demo

end MevRelay
