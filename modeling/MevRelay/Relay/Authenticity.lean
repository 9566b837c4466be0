import MevRelay.Relay.Traces
import MevRelay.Relay.Surroundings

/-!
# Stored bids are authentic

Every bid in the store passed all checks of its submission path, each at the
moment the path made it.
-/

namespace MevRelay

open Concurrent

section Reachable

variable [Crates] {config : Config}

/-- At some moment of a task the store passed a test.  The moment is the call `c`. -/
def AtMoment (trace : List RelayEvent) (task : Nat) (c : StorageCall)
    (test : InMemoryStorage → Prop) : Prop :=
  ∃ event ∈ trace, event.task = task ∧ event.call = .storage c ∧ test event.before

/-- The checks of one task that concern the moment at which they are made. -/
structure CheckedBy (trace : List RelayEvent) (task : Nat) (bid : BidSubmission) : Prop where
  nextSlot : AtMoment trace task .readHeadSlot fun store =>
    bid.message.slot = store.slot.slot + 1 ∧
      (store.slot.slot.toNat < 2 ^ 64 - 1 → bid.message.slot.toNat = store.slot.slot.toNat + 1)
  attributes : AtMoment trace task .readPayloadAttributes fun store =>
    store.payloadAttributes.proposalSlot = bid.message.slot ∧
      store.payloadAttributes.prevRandao = bid.executionPayload.prevRandao
  onDuty : AtMoment trace task (.findDutyBySlot bid.message.slot) fun store =>
    ∃ duty ∈ store.proposerDuties, duty.slot = bid.message.slot

/-- A bid that is whitelisted, not worthless and signed by its builder, and that
passed the checks of the task of the run whose request submitted it. -/
structure Authentic (store : InMemoryStorage) (trace : List RelayEvent) (bid : BidSubmission) :
    Prop where
  whitelisted : bid.message.builderPubkey ∈ store.wlistBuilders
  nonzero : bid.message.value ≠ 0
  signed : bid.message.verifySignature bid.signature store.forkData.computeBuilderDomain = true
  submitted : ∃ event ∈ trace, event.request.submission? = some bid ∧
    CheckedBy trace event.task bid

omit [Crates] in
theorem InMemoryStorage.findDutyBySlot_eq_some {store : InMemoryStorage} {slot : UInt64}
    {duty : Validator} (found : store.findDutyBySlot slot = some duty) :
    duty ∈ store.proposerDuties ∧ duty.slot = slot := by
  refine ⟨List.mem_of_find?_eq_some found, ?_⟩
  simpa using List.find?_some found

variable {trace : List RelayEvent} {world : RelayWorld}

theorem run_frame (run : RunFrom config config.init trace world) :
    world.store.wlistBuilders = config.wlistBuilders ∧ world.store.forkData = config.forkData ∧
      world.store.bestBidBySlot = ∅ :=
  ⟨run.unchanged InMemoryStorage.wlistBuilders fun _ _ _ _ executed => (exec_frame executed).1,
    run.unchanged InMemoryStorage.forkData fun _ _ _ _ executed => (exec_frame executed).2.1,
    run.unchanged InMemoryStorage.bestBidBySlot fun _ _ _ _ executed => (exec_frame executed).2.2⟩

/-- What a submission path has checked was true of the store when it was read. -/
theorem authentic_of_checked (run : RunFrom config config.init trace world) {event : RelayEvent}
    (membership : event ∈ trace) {bid : BidSubmission}
    (carried : event.request.submission? = some bid) {past : List (Record Calls)}
    (made : past ⊆ Concurrent.past event.task trace) {duty : Validator}
    (checked : Checked config.forkData past bid duty) : Authentic world.store trace bid := by
  obtain ⟨whitelist, forks, _⟩ := run_frame run
  refine ⟨?_, checked.validated.nonzero, ?_, event, membership, carried, ?_, ?_, ?_⟩
  · obtain ⟨read, inside, _, _, answer⟩ := read_event run (made checked.validated.whitelisted)
    have same := run.unchanged_before InMemoryStorage.wlistBuilders
      (fun _ _ _ _ executed => (exec_frame executed).1) inside
    rw [whitelist, ← show read.before.wlistBuilders = config.wlistBuilders from same]
    exact of_decide_eq_true answer.symm
  · obtain ⟨used, origin, verified⟩ := checked.signed
    rw [forks]
    rcases origin with rfl | found
    · exact verified
    · rwa [forkData_read run (made found)] at verified
  · obtain ⟨head, found, next⟩ := checked.validated.nextSlot
    obtain ⟨read, inside, same, call, answer⟩ := read_event run (made found)
    obtain rfl : head = read.before.slot := answer
    exact ⟨read, inside, same, call, HeadSlot.isNextSlot_iff.mp next,
      HeadSlot.toNat_of_isNextSlot next⟩
  · obtain ⟨attrs, found, valid⟩ := checked.validated.attributes
    obtain ⟨read, inside, same, call, answer⟩ := read_event run (made found)
    obtain rfl : attrs = read.before.payloadAttributes := answer
    exact ⟨read, inside, same, call, PayloadAttributes.validateBid_eq_ok.mp valid⟩
  · obtain ⟨read, inside, same, call, answer⟩ := read_event run (made checked.validated.onDuty)
    have found : read.before.findDutyBySlot bid.message.slot = some duty := answer.symm
    exact ⟨read, inside, same, call, duty, InMemoryStorage.findDutyBySlot_eq_some found⟩

theorem authentic_of_filed (run : RunFrom config config.init trace world) {event : RelayEvent}
    (membership : event ∈ trace) {slot : UInt64} {bid : BidSubmission}
    (call : event.call = .storage (.setBestBid slot bid)) :
    Authentic world.store trace bid ∧ slot = bid.message.slot := by
  obtain ⟨front, later, split⟩ := List.append_of_mem membership
  obtain ⟨_, _, carried, own, duty, checked⟩ := setBestBid_event run split call
  exact ⟨authentic_of_checked run membership carried (past_subset split event.task) checked, own⟩

theorem authentic_of_responded (run : RunFrom config config.init trace world) {event : RelayEvent}
    (membership : event ∈ trace) {proposer : BlsPublicKey} {response : BlindedBlockResponse}
    (call : event.call = .storage (.setBlindedBlockResponse proposer response)) :
    ∃ bid, Authentic world.store trace bid ∧ response = bid.toBlindedBlockResponse := by
  obtain ⟨front, later, split⟩ := List.append_of_mem membership
  obtain ⟨_, reads, bid, duty, made, _, carried, checked, _, same⟩ :=
    setBlindedBlockResponse_event run split call
  have earlier : reads ⊆ past event.task trace := by
    refine List.Subset.trans ?_ (past_subset split event.task)
    rw [made]
    exact List.subset_append_left _ _
  exact ⟨bid, authentic_of_checked run membership carried earlier checked, same⟩

theorem authentic_of_accepted (run : RunFrom config config.init trace world) {task : Nat}
    {bid : BidSubmission} (accepted : AcceptedBy world task bid) :
    Authentic world.store trace bid := by
  obtain ⟨request, reply, returned, succeeded, carried⟩ := accepted
  obtain ⟨reads, filedBid, duty, made, _, own, _⟩ := filed_of_accepted run returned succeeded
  cases carried.symm.trans own
  obtain ⟨event, membership, _, record⟩ := mem_past.mp (show filed bid ∈ past task trace by
    simp [made])
  have call : event.call = .storage (.setBestBid bid.message.slot bid) :=
    congrArg Sigma.fst record
  exact (authentic_of_filed run membership call).1

/-- A bid is indexed under the number of the block it is for. -/
theorem indexed_number (run : RunFrom config config.init trace world) {blockNumber : UInt64}
    {bid : BidSubmission}
    (stored : world.store.bestBidByBlockNumber.lookup blockNumber = some bid) :
    Authentic world.store trace bid ∧ blockNumber = bid.executionPayload.blockNumber := by
  obtain ⟨event, membership, write⟩ := run.event_of_lookup bestBidNumbers_written rfl stored
  obtain ⟨slot, call, rfl⟩ := of_numberWrite? write
  exact ⟨(authentic_of_filed run membership call).1, rfl⟩

/-- In every reachable state every stored bid is authentic and sits under its
own key, and every stored response is that of an authentic bid.  What is
authentic was submitted, and checked by the very task that submitted it. -/
theorem stored_bids_authentic (run : RunFrom config config.init trace world) :
    (∀ key bid, world.store.bestBidPerSlot.lookup key = some bid →
      Authentic world.store trace bid ∧ key = bid.key) ∧
    (∀ slot bid, world.store.bestBidBySlot.lookup slot = some bid →
      Authentic world.store trace bid) ∧
    (∀ blockNumber bid, world.store.bestBidByBlockNumber.lookup blockNumber = some bid →
      Authentic world.store trace bid ∧ blockNumber = bid.executionPayload.blockNumber) ∧
    (∀ proposer response, world.store.blindedBlockResp.lookup proposer = some response →
      ∃ bid, Authentic world.store trace bid ∧ response = bid.toBlindedBlockResponse) := by
  refine ⟨?_, ?_, ?_, ?_⟩
  · intro key bid stored
    obtain ⟨event, membership, write⟩ := run.event_of_lookup bestBids_written rfl stored
    obtain ⟨slot, call, rfl⟩ := of_bestWrite? write
    obtain ⟨authentic, rfl⟩ := authentic_of_filed run membership call
    exact ⟨authentic, rfl⟩
  · intro slot bid stored
    rw [(run_frame run).2.2] at stored
    cases stored
  · intro blockNumber bid stored
    exact indexed_number run stored
  · intro proposer response stored
    obtain ⟨event, membership, write⟩ := run.event_of_lookup responses_written rfl stored
    exact authentic_of_responded run membership (of_responseWrite? write)

end Reachable

section Demo

open Demo

attribute [local instance] standIn

def submitted : Played Calls Request Reply InMemoryStorage :=
  play [.postBids (bid 5 6)] (List.replicate 8 2)

/-- The bid is authentic, and as it is the only one submitted, no other one is. -/
theorem demo_bid_authentic :
    Authentic submitted.world.store submitted.trace (bid 5 6) ∧
      (∀ other, Authentic submitted.world.store submitted.trace other → other = bid 5 6) ∧
      ∃ accepted, Authentic submitted.world.store submitted.trace accepted ∧
        (bid 5 6).toBlindedBlockResponse = accepted.toBlindedBlockResponse := by
  have run : RunFrom config config.init submitted.trace submitted.world := playFrom_run _ _ _
  obtain ⟨perSlot, _, _, responses⟩ := stored_bids_authentic run
  have only : ∀ event ∈ submitted.trace,
      event.request.submission? = none ∨ event.request.submission? = some (bid 5 6) := by
    decide +kernel
  refine ⟨(perSlot (bid 5 6).key (bid 5 6) (by decide +kernel)).1, fun other authentic => ?_,
    responses (pubkey 3) (bid 5 6).toBlindedBlockResponse (by decide +kernel)⟩
  obtain ⟨event, membership, carried, _⟩ := authentic.submitted
  rcases only event membership with none | same
  · cases none.symm.trans carried
  · exact Option.some.inj (carried.symm.trans same)

end Demo

end MevRelay
