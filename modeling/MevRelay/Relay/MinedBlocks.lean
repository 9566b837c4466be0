import MevRelay.Relay.Traces
import MevRelay.Relay.Surroundings
import Mathlib.Data.Finset.Card

/-!
# Counting mined blocks

Each payload attributes event counts its parent block as relayed or as not
relayed.  Nothing remembers which blocks have been counted.
-/

namespace MevRelay

open Concurrent

/-- The block on which the payload attributes of an event build. -/
def Request.parentHash? : Request → Option B256
  | .payloadAttributesEvent attrs => some attrs.parentBlockHash
  | _ => none

/-- The block that a call counts. -/
def recorded? (record : Record Calls) : Option B256 :=
  match record.1 with
  | .storage (.recordRelayedBlock blockHash) => some blockHash
  | _ => none

/-- The blocks counted in a trace, oldest first. -/
def recordedIn (trace : List RelayEvent) : List B256 :=
  trace.filterMap fun event => recorded? event.record

/-- All blocks counted as mined. -/
def InMemoryStorage.minedBlocks (store : InMemoryStorage) : Nat :=
  store.relayedBlocks + store.nonRelayedBlocks

/-- What the events with a given parent block have added to the counters. -/
def addedFor (blockHash : B256) (trace : List RelayEvent) : Nat :=
  ((trace.filter fun event => event.request.parentHash? = some blockHash).map fun event =>
    event.after.minedBlocks - event.before.minedBlocks).sum

/-- No more blocks are relayed than have been delivered, and no block counts twice. -/
structure CountedOnce (trace : List RelayEvent) (store : InMemoryStorage) : Prop where
  relayed : store.relayedBlocks ≤ store.deliveredBlocks.toFinset.card
  once : ∀ blockHash, addedFor blockHash trace ≤ 1

/-- In every state of an interleaving mined blocks are counted once. -/
def AlwaysCountedOnce (config : Config) (trace : List RelayEvent) : Prop :=
  ∀ front later, trace = front ++ later → CountedOnce front (storeAfter config.init front)

/-- No two payload attributes events that the relay has started to handle name the same parent. -/
def ParentsDiffer (trace : List RelayEvent) : Prop :=
  ∀ first ∈ trace, ∀ second ∈ trace, first.task ≠ second.task → ∀ blockHash,
    first.request.parentHash? = some blockHash → second.request.parentHash? ≠ some blockHash

/-- The outline of payload attributes events: the parent is counted first. -/
def attributesOutline (attrs : PayloadAttributes) : Outline Calls Unit where
  atCall past c :=
    past = [] ∧ c = .storage (.recordRelayedBlock attrs.parentBlockHash) ∨
      past = [answered (.recordRelayedBlock attrs.parentBlockHash) ()] ∧
        c = .storage (.writePayloadAttributes attrs)
  atResult _ _ := True

theorem of_recorded? {record : Record Calls} {blockHash : B256}
    (counts : recorded? record = some blockHash) :
    record.1 = .storage (.recordRelayedBlock blockHash) := by
  simp only [recorded?] at counts
  split at counts
  case h_1 call =>
    cases counts
    exact call
  case h_2 => cases counts

theorem recordedIn_concat (trace : List RelayEvent) (event : RelayEvent) :
    recordedIn (trace ++ [event]) = recordedIn trace ++ (recorded? event.record).toList := by
  cases found : recorded? event.record <;> simp [recordedIn, found]

theorem mem_recordedIn {trace : List RelayEvent} {blockHash : B256} :
    blockHash ∈ recordedIn trace ↔ ∃ event ∈ trace, recorded? event.record = some blockHash := by
  simp [recordedIn]

/-- What a call makes of the counters. -/
theorem counters_exec {c : Call} {store after : InMemoryStorage} {answer : c.Response}
    (executed : exec c store answer after) :
    (∃ blockHash, recorded? ⟨c, answer⟩ = some blockHash ∧
      after = store.recordRelayedBlock blockHash) ∨
    recorded? ⟨c, answer⟩ = none ∧ after.relayedBlocks = store.relayedBlocks ∧
      after.nonRelayedBlocks = store.nonRelayedBlocks := by
  rcases c with c | _ | _ | _ | _ | _
  case storage =>
    obtain ⟨rfl, rfl⟩ := exec_storage.mp executed
    cases c <;> first | exact .inl ⟨_, rfl, rfl⟩ | exact .inr ⟨rfl, rfl, rfl⟩
  all_goals cases executed; exact .inr ⟨rfl, rfl, rfl⟩

/-- Counting a block adds one to the counters together. -/
theorem minedBlocks_exec {c : Call} {store after : InMemoryStorage} {answer : c.Response}
    (executed : exec c store answer after) :
    after.minedBlocks = store.minedBlocks + (recorded? ⟨c, answer⟩).toList.length := by
  rcases counters_exec executed with ⟨blockHash, counts, rfl⟩ | ⟨counts, relayed, others⟩
  · rw [counts]
    by_cases delivered : blockHash ∈ store.deliveredBlocks <;>
      simp [InMemoryStorage.minedBlocks, InMemoryStorage.recordRelayedBlock, delivered] <;> omega
  · rw [counts, InMemoryStorage.minedBlocks, relayed, others]
    rfl

theorem addedFor_concat (blockHash : B256) (trace : List RelayEvent) (event : RelayEvent) :
    addedFor blockHash (trace ++ [event]) = addedFor blockHash trace +
      if event.request.parentHash? = some blockHash
      then event.after.minedBlocks - event.before.minedBlocks else 0 := by
  by_cases own : event.request.parentHash? = some blockHash <;> simp [addedFor, own]

section Runs

variable [Crates] {config : Config} {trace front later : List RelayEvent} {world : RelayWorld}
  {event : RelayEvent} {blockHash : B256}

omit [Crates] in
theorem holds_onPayloadAttributes_exact (attrs : PayloadAttributes) :
    (attributesOutline attrs).Holds [] (onPayloadAttributes attrs) :=
  ⟨.inl ⟨rfl, rfl⟩, fun _ => ⟨.inr ⟨rfl, rfl⟩, fun _ => trivial⟩⟩

/-- The outline of every handler, as far as counting is concerned. -/
def countingOutline : Request → Outline Calls Reply
  | .payloadAttributesEvent attrs => (attributesOutline attrs).map fun _ => Reply.handled
  | request => kindOutline request.kind

theorem holds_counting (config : Config) (request : Request) :
    (countingOutline request).Holds [] (handler config request) := by
  cases request
  case payloadAttributesEvent attrs => exact (holds_onPayloadAttributes_exact attrs).map _
  all_goals exact holds_kinds config _

/-- Only the first call of a payload attributes event counts a block, its parent. -/
theorem recorded_event (run : RunFrom config config.init trace world)
    (split : trace = front ++ event :: later) (counts : recorded? event.record = some blockHash) :
    event.request.parentHash? = some blockHash ∧ past event.task front = [] := by
  have allowed := run.outline_atCall (holds_counting config) split
  rw [show event.call = _ from of_recorded? counts] at allowed
  cases request : event.request with
  | payloadAttributesEvent attrs =>
      rw [request] at allowed
      rcases allowed with ⟨first, same⟩ | ⟨_, same⟩
      · cases same
        exact ⟨rfl, first⟩
      · cases same
  | _ =>
      rw [request] at allowed
      rcases allowed with read | own
      · cases read
      · cases own

/-- A payload attributes event that is being handled has counted its parent. -/
theorem counted_of_event (run : RunFrom config config.init trace world)
    (membership : event ∈ trace) (asked : event.request.parentHash? = some blockHash) :
    ∃ counting ∈ trace, counting.task = event.task ∧
      recorded? counting.record = some blockHash := by
  obtain ⟨front, later, split⟩ := List.append_of_mem membership
  have allowed := run.outline_atCall (holds_counting config) split
  cases request : event.request with
  | payloadAttributesEvent attrs =>
      rw [request] at allowed asked
      cases asked
      rcases allowed with ⟨_, call⟩ | ⟨made, _⟩
      · refine ⟨event, membership, rfl, ?_⟩
        simp only [recorded?, Event.record, call]
      · have earlier : answered (.recordRelayedBlock attrs.parentBlockHash) () ∈
            past event.task front := by simp [made]
        obtain ⟨counting, inside, own, record⟩ := mem_past.mp earlier
        refine ⟨counting, by simp [split, inside], own, ?_⟩
        rw [record]
        rfl
  | _ =>
      rw [request] at asked
      cases asked

/-- The events with a given parent have added as many blocks as it was counted times. -/
theorem addedFor_eq_count (run : RunFrom config config.init trace world) (blockHash : B256) :
    addedFor blockHash trace = (recordedIn trace).count blockHash := by
  refine run.invariant (fun trace _ =>
    addedFor blockHash trace = (recordedIn trace).count blockHash) rfl ?_
  rintro front event ⟨middle, shorter⟩ executed held
  have mined : event.after.minedBlocks = event.before.minedBlocks +
    (recorded? event.record).toList.length := minedBlocks_exec executed
  rw [addedFor_concat, recordedIn_concat, List.count_append, held, mined]
  congr 1
  cases counts : recorded? event.record with
  | none => simp
  | some counted =>
      obtain ⟨parent, _⟩ := recorded_event shorter rfl counts
      rw [parent]
      by_cases same : counted = blockHash <;> simp [same]

/-- The blocks counted as relayed are among those counted and among those delivered. -/
theorem relayed_sublist (run : RunFrom config config.init trace world) :
    ∃ relayed : List B256, world.store.relayedBlocks = relayed.length ∧
      relayed.Sublist (recordedIn trace) ∧
      ∀ blockHash ∈ relayed, blockHash ∈ world.store.deliveredBlocks := by
  refine run.invariant (fun trace store => ∃ relayed : List B256,
    store.relayedBlocks = relayed.length ∧ relayed.Sublist (recordedIn trace) ∧
      ∀ blockHash ∈ relayed, blockHash ∈ store.deliveredBlocks)
    ⟨[], rfl, List.nil_sublist _, by simp⟩ ?_
  rintro front event _ executed ⟨relayed, length, among, delivered⟩
  have kept : ∀ blockHash ∈ relayed, blockHash ∈ event.after.deliveredBlocks := by
    intro blockHash membership
    rw [deliveredBlocks_exec executed]
    exact List.mem_append_left _ (delivered blockHash membership)
  rw [recordedIn_concat]
  have counters := counters_exec executed
  rcases counters with ⟨counted, counts, after⟩ | ⟨counts, same, _⟩
  · have counts : recorded? event.record = some counted := counts
    rw [counts]
    by_cases known : counted ∈ event.before.deliveredBlocks
    · refine ⟨relayed ++ [counted], ?_, among.append (List.Sublist.refl _), ?_⟩
      · rw [after]
        simp [InMemoryStorage.recordRelayedBlock, known, length]
      · intro blockHash membership
        rcases List.mem_append.mp membership with earlier | last
        · exact kept blockHash earlier
        · rw [List.mem_singleton.mp last, after]
          exact known
    · refine ⟨relayed, ?_, among.trans (List.sublist_append_left _ _), kept⟩
      rw [after]
      simp [InMemoryStorage.recordRelayedBlock, known, length]
  · exact ⟨relayed, same.trans length, among.trans (List.sublist_append_left _ _), kept⟩

/-- If the parents of the events differ, no block has been counted twice. -/
theorem recorded_nodup (run : RunFrom config config.init trace world)
    (differ : ParentsDiffer trace) : (recordedIn trace).Nodup := by
  refine run.invariant (fun trace _ => ParentsDiffer trace → (recordedIn trace).Nodup)
    (fun _ => List.nodup_nil) ?_ differ
  rintro front event ⟨middle, shorter⟩ _ held differ
  have earlier := held fun first inFront second inFront' =>
    differ first (List.mem_append_left _ inFront) second (List.mem_append_left _ inFront')
  rw [recordedIn_concat]
  cases counts : recorded? event.record with
  | none => simpa using earlier
  | some blockHash =>
      obtain ⟨parent, fresh⟩ := recorded_event shorter rfl counts
      rw [Option.toList_some]
      refine List.nodup_append.mpr ⟨earlier, List.nodup_singleton _, ?_⟩
      rintro counted membership _ last rfl
      rw [List.mem_singleton.mp last] at membership
      obtain ⟨other, inside, others⟩ := mem_recordedIn.mp membership
      by_cases own : other.task = event.task
      · have made : other.record ∈ past event.task front := mem_past.mpr ⟨other, inside, own, rfl⟩
        rw [fresh] at made
        cases made
      · obtain ⟨first, second, split⟩ := List.append_of_mem (List.mem_append_left [event] inside)
        have same := (recorded_event shorter split others).1
        exact differ other (by simp [inside]) event (by simp) own blockHash same parent

/-- If no block has been counted twice, the parents of the events differ. -/
theorem differ_of_nodup (run : RunFrom config config.init trace world)
    (once : (recordedIn trace).Nodup) : ParentsDiffer trace := by
  intro first isFirst second isSecond different blockHash parent same
  obtain ⟨one, inside, oneTask, oneCounts⟩ := counted_of_event run isFirst parent
  obtain ⟨two, inside', twoTask, twoCounts⟩ := counted_of_event run isSecond same
  have others : two ≠ one := by
    rintro rfl
    exact different (oneTask.symm.trans twoTask)
  obtain ⟨front, later, rfl⟩ := List.append_of_mem inside
  have unfolded : recordedIn (front ++ one :: later) =
      recordedIn front ++ blockHash :: recordedIn later := by
    simp [recordedIn, oneCounts]
  rw [unfolded] at once
  obtain ⟨_, rest, apart⟩ := List.nodup_append.mp once
  rcases List.mem_append.mp inside' with before | after
  · exact apart blockHash (mem_recordedIn.mpr ⟨two, before, twoCounts⟩) blockHash
      List.mem_cons_self rfl
  · rcases List.mem_cons.mp after with same | after
    · exact others same
    · exact (List.nodup_cons.mp rest).1 (mem_recordedIn.mpr ⟨two, after, twoCounts⟩)

theorem countedOnce_of_nodup (run : RunFrom config config.init trace world)
    (once : (recordedIn trace).Nodup) : CountedOnce trace world.store := by
  refine ⟨?_, fun blockHash => ?_⟩
  · obtain ⟨relayed, length, among, delivered⟩ := relayed_sublist run
    rw [length, ← List.toFinset_card_of_nodup (once.sublist among)]
    apply Finset.card_le_card
    intro blockHash membership
    exact List.mem_toFinset.mpr (delivered blockHash (List.mem_toFinset.mp membership))
  · rw [addedFor_eq_count run]
    exact List.nodup_iff_count_le_one.mp once blockHash

/-- Mined blocks are counted once in every state exactly when no two payload
attributes events name the same parent. -/
theorem mined_counted_once_iff (run : RunFrom config config.init trace world) :
    AlwaysCountedOnce config trace ↔ ParentsDiffer trace := by
  constructor
  · intro counted
    have once := (counted trace [] (List.append_nil _).symm).once
    refine differ_of_nodup run (List.nodup_iff_count_le_one.mpr fun blockHash => ?_)
    rw [← addedFor_eq_count run]
    exact once blockHash
  · rintro differ front later rfl
    obtain ⟨middle, shorter⟩ := run.prefix_run rfl
    have once : (recordedIn front).Nodup := recorded_nodup shorter fun first inside second inside' =>
      differ first (List.mem_append_left _ inside) second (List.mem_append_left _ inside')
    rw [← shorter.store_eq]
    exact countedOnce_of_nodup shorter once

end Runs

section Repeated

open Demo

attribute [local instance] standIn

/-- A block is delivered, and two payload attributes events build on it. -/
@[irreducible]
def repeatedParent : Played Calls Request Reply InMemoryStorage :=
  play [.postBids (bid 5 6), .postBlindedBlocks (blindedBlock (.ofPayload (payload 6))),
      .payloadAttributesEvent ⟨2, hash 6, hash 4⟩, .payloadAttributesEvent ⟨3, hash 6, hash 4⟩]
    (List.replicate 8 2 ++ List.replicate 7 3 ++ [4, 4, 5, 5])

theorem repeatedParent_run :
    RunFrom config config.init repeatedParent.trace repeatedParent.world := by
  unfold repeatedParent
  exact playFrom_run _ _ _

theorem repeatedParent_counted_iff :
    AlwaysCountedOnce config repeatedParent.trace ↔ ParentsDiffer repeatedParent.trace :=
  mined_counted_once_iff repeatedParent_run

/-- One block has been delivered and two are counted as relayed. -/
theorem parent_counted_twice :
    RunFrom config config.init repeatedParent.trace repeatedParent.world ∧
      ¬ AlwaysCountedOnce config repeatedParent.trace := by
  refine ⟨repeatedParent_run, fun counted => ?_⟩
  have relayed := (counted repeatedParent.trace [] (List.append_nil _).symm).relayed
  rw [← repeatedParent_run.store_eq] at relayed
  have counters : repeatedParent.world.store.relayedBlocks = 2 ∧
      repeatedParent.world.store.deliveredBlocks = [Demo.hash 6] := by decide +kernel
  rw [counters.1, counters.2] at relayed
  exact absurd relayed (by decide)

end Repeated

end MevRelay
