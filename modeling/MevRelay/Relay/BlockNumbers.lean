import MevRelay.Relay.Auction

/-!
# The index by block number

With atomic handlers the index holds the bid accepted last with a block number,
whichever key it was accepted for.
-/

namespace MevRelay

open Concurrent

def BidSubmission.blockNumber (bid : BidSubmission) : UInt64 := bid.executionPayload.blockNumber

/-- No bid where none was accepted, and otherwise an accepted one of the largest value. -/
def HoldsHighest (held : Option BidSubmission) (accepted : List BidSubmission) : Prop :=
  match held with
  | none => accepted = []
  | some bid => bid ∈ accepted ∧ ∀ other ∈ accepted, other.value ≤ bid.value

theorem holdsHighest_some {bid : BidSubmission} {accepted : List BidSubmission} :
    HoldsHighest (some bid) accepted ↔ bid ∈ accepted ∧ ∀ other ∈ accepted, other.value ≤ bid.value :=
  Iff.rfl

theorem HoldsHighest.concat {held : Option BidSubmission} {accepted : List BidSubmission}
    (highest : HoldsHighest held accepted) {bid : BidSubmission}
    (above : ∀ best, held = some best → best.value ≤ bid.value) :
    HoldsHighest (some bid) (accepted ++ [bid]) := by
  refine ⟨by simp, fun other membership => ?_⟩
  rcases List.mem_append.mp membership with earlier | last
  · cases held with
    | none =>
        rw [show accepted = [] from highest] at earlier
        cases earlier
    | some best => exact (highest.2 other earlier).trans (above best rfl)
  · rw [List.mem_singleton.mp last]

section Atomic

variable [Crates] {config : Config} {history : RelayHistory} {store : InMemoryStorage}

/-- The bids accepted with a block number, oldest first. -/
def acceptedWith (blockNumber : UInt64) (history : RelayHistory) : List BidSubmission :=
  (history.filterMap acceptedBid?).filter fun bid => bid.blockNumber = blockNumber

theorem acceptedWith_concat (blockNumber : UInt64) (history : RelayHistory)
    (entry : Completed Calls Request Reply InMemoryStorage) :
    acceptedWith blockNumber (history ++ [entry]) = acceptedWith blockNumber history ++
      (acceptedBid? entry).toList.filter fun bid => bid.blockNumber = blockNumber := by
  cases found : acceptedBid? entry <;> simp [acceptedWith, found]

/-- In every state reached the index holds, under every block number, a highest
bid accepted with it so far. -/
def IndexHighest (history : RelayHistory) : Prop :=
  ∀ earlier entry later, history = earlier ++ entry :: later → ∀ blockNumber,
    HoldsHighest (entry.after.bestBidByBlockNumber.lookup blockNumber)
      (acceptedWith blockNumber (earlier ++ [entry]))

/-- No bid is accepted that is worth less than the one indexed under its block number. -/
def NeverBelowIndexed (history : RelayHistory) : Prop :=
  ∀ entry ∈ history, ∀ bid, acceptedBid? entry = some bid → ∀ held,
    entry.before.bestBidByBlockNumber.lookup bid.blockNumber = some held → held.value ≤ bid.value

/-- A request leaves the index as it was, or puts the bid accepted under its number. -/
theorem index_exec {request : Request} {after : InMemoryStorage} {calls : List (Record Calls)}
    {reply : Reply} (executed : Exec exec (handler config request) store calls reply after) :
    after.bestBidByBlockNumber = match acceptedBid? ⟨request, store, calls, reply, after⟩ with
      | some bid => store.bestBidByBlockNumber.insert bid.blockNumber bid
      | none => store.bestBidByBlockNumber := by
  cases accepted : reply.isAccepted with
  | false =>
      rw [(unchanged_of_not_accepted executed accepted).2.1]
      simp [acceptedBid?, accepted]
  | true =>
      obtain ⟨bid, duty, found⟩ := accepted_exec executed accepted
      simp only [acceptedBid?, accepted, found.carried, if_true]
      rw [found.stored]
      rfl

/-- The index holds the bid accepted last with each block number. -/
theorem index_last (serial : SerialFrom config config.init history store) (blockNumber : UInt64) :
    store.bestBidByBlockNumber.lookup blockNumber =
      (acceptedWith blockNumber history).getLast? := by
  induction serial with
  | start => rfl
  | @finish history store request calls reply after serial executed inductionHypothesis =>
      rw [index_exec executed, acceptedWith_concat]
      cases added : acceptedBid? ⟨request, store, calls, reply, after⟩ with
      | none => simpa using inductionHypothesis
      | some bid =>
          by_cases own : bid.blockNumber = blockNumber
          · simp [own]
          · simpa [own, Finmap.lookup_insert_of_ne _ (Ne.symm own)] using inductionHypothesis

theorem holdsHighest_of_neverBelow (serial : SerialFrom config config.init history store)
    (never : NeverBelowIndexed history) (blockNumber : UInt64) :
    HoldsHighest (store.bestBidByBlockNumber.lookup blockNumber)
      (acceptedWith blockNumber history) := by
  induction serial with
  | start => exact rfl
  | @finish history store request calls reply after serial executed inductionHypothesis =>
      have highest := inductionHypothesis fun entry membership =>
        never entry (List.mem_append_left _ membership)
      rw [index_exec executed, acceptedWith_concat]
      cases added : acceptedBid? ⟨request, store, calls, reply, after⟩ with
      | none => simpa using highest
      | some bid =>
          by_cases own : bid.blockNumber = blockNumber
          · subst own
            have above := never ⟨request, store, calls, reply, after⟩ (by simp) bid added
            simpa using highest.concat above
          · simpa [own, Finmap.lookup_insert_of_ne _ (Ne.symm own)] using highest

/-- The index holds the highest bid in every state reached exactly when no bid
accepted is worth less than the one it replaces there. -/
theorem index_highest_iff (serial : SerialFrom config config.init history store) :
    IndexHighest history ↔ NeverBelowIndexed history := by
  constructor
  · intro highest entry membership bid accepted held indexed
    obtain ⟨earlier, later, split⟩ := List.append_of_mem membership
    have stored := index_exec (serial.executed membership)
    rw [show acceptedBid? ⟨entry.request, entry.before, entry.calls, entry.result, entry.after⟩ =
      some bid from accepted] at stored
    have holds := highest earlier entry later split bid.blockNumber
    rw [stored, Finmap.lookup_insert, acceptedWith_concat] at holds
    refine holds.2 held (List.mem_append_left _ (List.mem_of_getLast? ?_))
    rw [← index_last (serial.prefix_serial split), indexed]
  · intro never earlier entry later split blockNumber
    have membership : entry ∈ history := by simp [split]
    refine holdsHighest_of_neverBelow
      ((serial.prefix_serial split).finish (serial.executed membership)) ?_ blockNumber
    intro other inside
    apply never other
    rw [split]
    rcases List.mem_append.mp inside with before | last
    · exact List.mem_append_left _ before
    · rw [List.mem_singleton.mp last]
      simp

/-- Bids that share a block number only if they compete for one key never fall
below the indexed one. -/
theorem neverBelowIndexed_of_one_key (serial : SerialFrom config config.init history store)
    (oneKey : ∀ bid ∈ history.filterMap acceptedBid?, ∀ other ∈ history.filterMap acceptedBid?,
      other.blockNumber = bid.blockNumber → other.key = bid.key) : NeverBelowIndexed history := by
  intro entry membership bid accepted held indexed
  obtain ⟨earlier, later, split⟩ := List.append_of_mem membership
  rw [index_last (serial.prefix_serial split)] at indexed
  obtain ⟨before, sameNumber⟩ := List.mem_filter.mp (List.mem_of_getLast? indexed)
  have sameKey : held.key = bid.key := by
    refine oneKey bid ?_ held ?_ (of_decide_eq_true sameNumber)
    · exact List.mem_filterMap.mpr ⟨entry, membership, accepted⟩
    · rw [split, List.filterMap_append]
      exact List.mem_append_left _ before
  have rising := (bestBid_last
    ((serial.prefix_serial split).finish (serial.executed membership)) bid.key).2
  rw [acceptedFor_concat, show acceptedBid? ⟨entry.request, entry.before, entry.calls, entry.result,
    entry.after⟩ = some bid from accepted] at rising
  have lower := (List.pairwise_append.mp rising).2.2 held
    (List.mem_filter.mpr ⟨before, decide_eq_true sameKey⟩) bid (by simp)
  exact Nat.le_of_lt lower

end Atomic

section Forks

open Demo

attribute [local instance] standIn

/-- A bid of value 5 on parent 1, accepted. -/
@[irreducible]
def mainBid : RelayHistory × InMemoryStorage := serve [.postBids (bidWith 5 1 5 .empty)]

/-- Then a bid of value 2 with the same block number, on parent 2. -/
@[irreducible]
def forkBid : Completed Calls Request Reply InMemoryStorage :=
  complete (.postBids (bidWith 2 2 6 .empty)) mainBid.2

theorem forkBid_serial :
    SerialFrom config config.init (mainBid.1 ++ [forkBid]) forkBid.after := by
  unfold forkBid mainBid
  exact complete_serial (serve_serial _) _

theorem forkBid_highest_iff :
    IndexHighest (mainBid.1 ++ [forkBid]) ↔ NeverBelowIndexed (mainBid.1 ++ [forkBid]) :=
  index_highest_iff forkBid_serial

/-- The bid on the other fork replaces the higher one in the index. -/
theorem higher_bid_unindexed :
    SerialFrom config config.init (mainBid.1 ++ [forkBid]) forkBid.after ∧
      ¬ IndexHighest (mainBid.1 ++ [forkBid]) := by
  refine ⟨forkBid_serial, fun highest => ?_⟩
  have holds := highest mainBid.1 forkBid [] rfl 1
  have indexed : forkBid.after.bestBidByBlockNumber.lookup 1 = some (bidWith 2 2 6 .empty) := by
    decide +kernel
  have higher : bidWith 5 1 5 .empty ∈ acceptedWith 1 (mainBid.1 ++ [forkBid]) := by
    decide +kernel
  rw [indexed, holdsHighest_some] at holds
  have lower : (bidWith 5 1 5 .empty).value ≤ (bidWith 2 2 6 .empty).value := holds.2 _ higher
  exact absurd lower (by decide +kernel)

end Forks

end MevRelay
