import MevRelay.Relay.Authenticity

/-!
# Queries for received bids

The index by block number is kept by both submission paths.  The index by slot
is read and never written.
-/

namespace MevRelay

open Concurrent

/-- A query names a slot, a block number or both. -/
def QueryParams.Given (params : QueryParams) : Prop :=
  params.slot.isSome = true ∨ params.blockNumber.isSome = true

/-- A bid agrees with every parameter of a query. -/
structure QueryParams.Matches (params : QueryParams) (bid : BidSubmission) : Prop where
  slot : ∀ slot, params.slot = some slot → bid.message.slot = slot
  blockNumber : ∀ blockNumber, params.blockNumber = some blockNumber →
    bid.executionPayload.blockNumber = blockNumber

/-- As long as no bid is indexed by slot, a query answers what is indexed by
block number. -/
theorem yields_getBids {store after : InMemoryStorage} (empty : store.bestBidBySlot = ∅)
    {params : QueryParams} {bids : List BidSubmission} :
    Yields exec (Http.getBids params) store bids after ↔
      bids = (params.blockNumber.bind fun blockNumber =>
        store.bestBidByBlockNumber.lookup blockNumber).toList ∧ after = store := by
  have bySlot : ∀ slot, (StorageCall.readBestBidBySlot slot).apply store = (none, store) := by
    intro slot
    simp [StorageCall.apply, empty]
  have byNumber : ∀ blockNumber, (StorageCall.readBestBidByBlockNumber blockNumber).apply store =
      (store.bestBidByBlockNumber.lookup blockNumber, store) := fun _ => rfl
  rcases params with ⟨_ | slot, _ | blockNumber⟩
  · simp [Http.getBids]
  · simp only [Http.getBids, Program.call_bind, Program.done_bind, yields_storage, byNumber]
    cases found : store.bestBidByBlockNumber.lookup blockNumber <;> simp [found]
  · simp [Http.getBids, bySlot]
  · simp only [Http.getBids, Program.call_bind, Program.done_bind, yields_storage, bySlot, byNumber]
    cases found : store.bestBidByBlockNumber.lookup blockNumber <;> simp [found]

section Reachable

variable [Crates] {config : Config} {trace : List RelayEvent} {world : RelayWorld}

theorem indexed_of_accepted (run : RunFrom config config.init trace world) {task : Nat}
    {bid : BidSubmission} (accepted : AcceptedBy world task bid) :
    ∃ held, world.store.bestBidByBlockNumber.lookup bid.executionPayload.blockNumber = some held := by
  obtain ⟨request, reply, returned, success, carried⟩ := accepted
  obtain ⟨reads, filedBid, duty, made, _, own, _⟩ := filed_of_accepted run returned success
  obtain rfl : filedBid = bid := Option.some.inj (own.symm.trans carried)
  obtain ⟨event, membership, _, record⟩ := mem_past.mp (show filed filedBid ∈ past task trace by
    simp [made])
  rw [run.lastWrite_of_lookup bestBidNumbers_written rfl]
  apply Option.ne_none_iff_exists'.mp
  intro missing
  have written : (filedBid.executionPayload.blockNumber, filedBid) ∈ writesOf numberWrite? trace :=
    mem_writesOf.mpr ⟨event, membership, by rw [record]; rfl⟩
  exact lastWrite_eq_none_iff.mp missing _ written rfl

/-- A query is answered with bids that match it, and with some bid if one that
matches it has been accepted. -/
structure AnswersQuery (world : RelayWorld) (params : QueryParams) : Prop where
  sound : ∀ bids after, Yields exec (Http.getBids params) world.store bids after →
    ∀ bid ∈ bids, params.Matches bid
  complete : ∀ (task : Nat) bid, AcceptedBy world task bid → params.Matches bid →
    ∀ bids after, Yields exec (Http.getBids params) world.store bids after → bids ≠ []

/-- The index by block number answers for the index by slot: a query for a slot
alone is for a slot without accepted bids, and a query for both finds under its
block number only a bid for its slot. -/
structure Indexed (world : RelayWorld) (params : QueryParams) : Prop where
  slotAlone : params.blockNumber = none → ∀ slot, params.slot = some slot →
    ∀ (task : Nat) bid, AcceptedBy world task bid → bid.message.slot ≠ slot
  both : ∀ slot blockNumber bid, params.slot = some slot → params.blockNumber = some blockNumber →
    world.store.bestBidByBlockNumber.lookup blockNumber = some bid → bid.message.slot = slot

theorem query_answered_iff (run : RunFrom config config.init trace world) {params : QueryParams}
    (given : params.Given) : AnswersQuery world params ↔ Indexed world params := by
  have empty := (run_frame run).2.2
  constructor
  · intro answers
    constructor
    · intro missing slot asked task bid accepted same
      have matching : params.Matches bid := {
        slot := fun other named => by rw [same, ← Option.some.inj (named.symm.trans asked)]
        blockNumber := fun blockNumber named => by rw [missing] at named; cases named }
      exact answers.complete task bid accepted matching [] world.store
        ((yields_getBids empty).mpr ⟨by simp [missing], rfl⟩) rfl
    · intro slot blockNumber bid asked named found
      refine (answers.sound [bid] world.store ((yields_getBids empty).mpr ⟨?_, rfl⟩) bid ?_).slot
        slot asked
      · simp [named, found]
      · simp
  · intro indexed
    constructor
    · intro bids after yields bid membership
      obtain ⟨rfl, _⟩ := (yields_getBids empty).mp yields
      obtain ⟨blockNumber, named, found⟩ := Option.bind_eq_some_iff.mp (Option.mem_toList.mp membership)
      have own := (indexed_number run found).2
      exact {
        slot := fun slot asked => indexed.both slot blockNumber bid asked named found
        blockNumber := fun other same => by rw [← own, ← Option.some.inj (named.symm.trans same)] }
    · rintro task bid accepted matching bids after yields rfl
      obtain ⟨unanswered, _⟩ := (yields_getBids empty).mp yields
      cases named : params.blockNumber with
      | none =>
          rcases given with bySlot | byNumber
          · obtain ⟨slot, asked⟩ := Option.isSome_iff_exists.mp bySlot
            exact indexed.slotAlone named slot asked task bid accepted (matching.slot slot asked)
          · rw [named] at byNumber
            cases byNumber
      | some blockNumber =>
          obtain ⟨held, found⟩ := indexed_of_accepted run accepted
          rw [matching.blockNumber blockNumber named] at found
          simp [named, found] at unanswered

end Reachable

section Demo

open Demo

attribute [local instance] standIn

theorem submitted_query_iff :
    AnswersQuery submitted.world ⟨some 1, none⟩ ↔ Indexed submitted.world ⟨some 1, none⟩ :=
  query_answered_iff (playFrom_run _ _ _ : RunFrom config config.init submitted.trace submitted.world)
    (.inl rfl)

/-- A bid accepted for slot 1 is not found under its slot, and is found under a
slot that is not its own. -/
theorem slot_not_indexed :
    RunFrom config config.init submitted.trace submitted.world ∧
      ¬ AnswersQuery submitted.world ⟨some 1, none⟩ ∧
      ¬ AnswersQuery submitted.world ⟨some 2, some 1⟩ := by
  have run : RunFrom config config.init submitted.trace submitted.world := playFrom_run _ _ _
  have empty := (run_frame run).2.2
  refine ⟨run, fun answers => ?_, fun answers => ?_⟩
  · have accepted : AcceptedBy submitted.world 2 (bid 5 6) :=
      ⟨.postBids (bid 5 6), .postBids (.ok ()), World.returned?_eq_some.mp (by decide +kernel), rfl,
        rfl⟩
    exact answers.complete 2 (bid 5 6) accepted ⟨by rintro _ ⟨⟩; rfl, by rintro _ ⟨⟩⟩ [] _
      ((yields_getBids empty).mpr ⟨rfl, rfl⟩) rfl
  · have found : submitted.world.store.bestBidByBlockNumber.lookup 1 = some (bid 5 6) := by
      decide +kernel
    have matching := answers.sound [bid 5 6] _
      ((yields_getBids empty).mpr ⟨by simp [found], rfl⟩) (bid 5 6) (by simp)
    exact absurd (matching.slot 2 rfl) (by decide +kernel)

end Demo

end MevRelay
