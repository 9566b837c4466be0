import MevRelay.Relay.Duties
import MevRelay.Relay.Surroundings

/-!
# Racing refreshes

A refresh stores its duties without looking at what is stored, so of several
refreshes in flight the one that stores last prevails.
-/

namespace MevRelay

open Concurrent

section Calls

variable [Crates]

/-- Among its calls a refresh got both replies and filtered them down to the given duties. -/
def Computed (past : List (Record Calls)) (duties : List Validator) : Prop :=
  ∃ calls later epoch current next lookups, past = calls ++ later ∧
    Filtered calls epoch current next lookups duties

omit [Crates] in
/-- The calls of a refresh determine what it asked, what it was answered and
what it looked up, as far as the shorter of two readings goes. -/
theorem refreshCalls_inj {epoch otherEpoch : UInt64}
    {current next otherCurrent otherNext : List ProposerDutiesData} {lookups otherLookups : Lookups}
    {rest later : List (Record Calls)}
    (same : refreshCalls epoch current next lookups ++ rest =
      refreshCalls otherEpoch otherCurrent otherNext otherLookups ++ later) :
    current = otherCurrent ∧ next = otherNext ∧
      lookupCalls lookups ++ rest = lookupCalls otherLookups ++ later := by
  simp only [refreshCalls, repliesOf, List.cons_append, List.nil_append, List.cons.injEq] at same
  obtain ⟨first, second, _, remaining⟩ := same
  cases first
  cases second
  exact ⟨rfl, rfl, remaining⟩

omit [Crates] in
theorem lookups_eq_of_length {lookups otherLookups : Lookups} {rest later : List (Record Calls)}
    (same : lookupCalls lookups ++ rest = lookupCalls otherLookups ++ later)
    (length : lookups.length = otherLookups.length) : lookups = otherLookups ∧ rest = later := by
  obtain ⟨calls, remaining⟩ := List.append_inj same (by simp [lookupCalls, length])
  refine ⟨List.map_injective_iff.mpr ?_ calls, remaining⟩
  rintro ⟨pubkey, answer⟩ ⟨otherPubkey, otherAnswer⟩ equal
  cases equal
  rfl

theorem Computed.unique {past : List (Record Calls)} {duties other : List Validator}
    (one : Computed past duties) (two : Computed past other) : duties = other := by
  obtain ⟨_, rest, epoch, current, next, lookups, rfl, rfl, lookedUp, rfl⟩ := one
  obtain ⟨_, later, _, _, _, otherLookups, same, rfl, otherLookedUp, rfl⟩ := two
  obtain ⟨rfl, rfl, remaining⟩ := refreshCalls_inj same
  obtain ⟨rfl, _⟩ := lookups_eq_of_length remaining
    (lookedUp.length_eq.symm.trans otherLookedUp.length_eq)
  rfl

/-- A refresh that has ended with a list of duties that is not empty has stored it. -/
theorem RefreshEnded.written {slotsPerEpoch : UInt64} {head : HeadSlot}
    {past : List (Record Calls)} {outcome : Outcome Unit Unit} {duties : List Validator}
    (ended : RefreshEnded slotsPerEpoch head past outcome) (computed : Computed past duties)
    (some : duties ≠ []) : answered (.setProposerDuties duties) () ∈ past := by
  cases ended with
  | @stored epoch current next lookups calls stored asked filtered nonempty =>
      have own : Computed (calls ++ [answered (.setProposerDuties stored) ()]) stored :=
        ⟨calls, _, epoch, current, next, lookups, rfl, filtered⟩
      rw [computed.unique own]
      simp
  | nothing asked filtered =>
      have own : Computed past [] := ⟨past, [], _, _, _, _, (List.append_nil past).symm, filtered⟩
      exact absurd (computed.unique own) some
  | noEpoch =>
      obtain ⟨_, later, _, _, _, _, same, rfl, _⟩ := computed
      cases same
  | unanswered asked missing =>
      obtain ⟨_, later, _, _, _, _, same, rfl, _⟩ := computed
      cases same
  | unregistered asked =>
      obtain ⟨_, later, _, _, _, _, same, rfl, _⟩ := computed
      cases same
  | @undecodable epoch current next seen duty rest lookups asked split lookedUp panics =>
      obtain ⟨_, later, _, _, _, allLookups, same, rfl, allLookedUp, _⟩ := computed
      rw [← List.append_nil (refreshCalls _ _ _ lookups)] at same
      obtain ⟨rfl, rfl, remaining⟩ := refreshCalls_inj same
      have lengths := congrArg List.length remaining
      have short := lookedUp.length_eq
      have full := allLookedUp.length_eq
      rw [split] at full
      simp only [List.length_append, List.length_cons, List.length_nil, lookupCalls,
        List.length_map] at lengths full
      omega

end Calls

section Runs

variable [Crates] {config : Config} {trace front later : List RelayEvent} {world : RelayWorld}
  {event : RelayEvent}

/-- All refreshes have finished, and this one is for the highest head slot. -/
structure Newest (world : RelayWorld) (task : Nat) (head : HeadSlot) : Prop where
  returned : ∃ reply, world.tasks[task]? = some ⟨.refreshDuties head, .done reply⟩
  highest : ∀ (other : Nat) otherHead program, other ≠ task →
    world.tasks[other]? = some ⟨.refreshDuties otherHead, program⟩ →
    otherHead.slot < head.slot ∧ ∃ reply, program = .done reply

/-- If the newest refresh has computed duties, these are the stored ones. -/
def NewestWins (trace : List RelayEvent) (world : RelayWorld) : Prop :=
  ∀ task head duties, Newest world task head → Computed (past task trace) duties → duties ≠ [] →
    world.store.proposerDuties = duties

/-- If the newest refresh has computed duties, the last refresh to store any is
this one, or has computed the same. -/
def NewestLast (trace : List RelayEvent) (world : RelayWorld) : Prop :=
  ∀ task head duties, Newest world task head → Computed (past task trace) duties → duties ≠ [] →
    ∀ front event later stored, trace = front ++ event :: later →
      dutiesSet? event.record = some stored →
      (∀ other ∈ later, dutiesSet? other.record = none) → event.task = task ∨ stored = duties

/-- A refresh stores what it has computed. -/
theorem computed_of_set (run : RunFrom config config.init trace world)
    (split : trace = front ++ event :: later) {duties : List Validator}
    (set : dutiesSet? event.record = some duties) : Computed (past event.task trace) duties := by
  obtain ⟨_, epoch, current, next, lookups, _, _, filtered, _⟩ :=
    setProposerDuties_event run split (of_dutiesSet? set)
  refine ⟨past event.task front, past event.task (event :: later), epoch, current, next, lookups, ?_,
    filtered⟩
  rw [split, past_append]

theorem Newest.set (run : RunFrom config config.init trace world) {task : Nat} {head : HeadSlot}
    {duties : List Validator} (newest : Newest world task head)
    (computed : Computed (past task trace) duties) (some : duties ≠ []) :
    ∃ event ∈ trace, event.task = task ∧ event.request = .refreshDuties head ∧
      dutiesSet? event.record = .some duties := by
  obtain ⟨reply, returned⟩ := newest.returned
  obtain ⟨outcome, _, ended⟩ := run.outline_atResult (holds_duties config) returned
  obtain ⟨event, membership, own, record⟩ := mem_past.mp (ended.written computed some)
  refine ⟨event, membership, own, run.request_of_task membership own returned, ?_⟩
  rw [record]
  rfl

/-- The newest refresh prevails exactly when nothing different is stored after it. -/
theorem newest_wins_iff (run : RunFrom config config.init trace world) :
    NewestWins trace world ↔ NewestLast trace world := by
  constructor
  · intro wins task head duties newest computed nonempty front event later stored split set never
    subst split
    rw [← wins task head duties newest computed nonempty]
    exact .inr (run.view_of_last_set duties_set set never).symm
  · intro last task head duties newest computed nonempty
    obtain ⟨written, inside, _, _, own⟩ := newest.set run computed nonempty
    rcases run.last_set duties_set with ⟨_, never⟩ | ⟨front, event, later, split, set, never⟩
    · rw [never written inside] at own
      cases own
    rcases last task head duties newest computed nonempty front event later _ split set never with
      rfl | same
    · exact (computed_of_set run split set).unique computed
    · exact same

/-- No refresh stores duties after one for a higher head slot. -/
def StoredInHeadOrder (trace : List RelayEvent) : Prop :=
  trace.Pairwise fun earlier later => ∀ head newer, earlier.request = .refreshDuties head →
    later.request = .refreshDuties newer → (dutiesSet? earlier.record).isSome = true →
    (dutiesSet? later.record).isSome = true → head.slot ≤ newer.slot

/-- Refreshes that store in the order of their heads leave the newest duties. -/
theorem newestLast_of_headOrder (run : RunFrom config config.init trace world)
    (ordered : StoredInHeadOrder trace) : NewestLast trace world := by
  intro task head duties newest computed nonempty front event later stored split set never
  by_contra other
  rw [not_or] at other
  obtain ⟨written, inside, own, request, wrote⟩ := newest.set run computed nonempty
  obtain ⟨older, _, _, _, _, olderRequest, _⟩ :=
    setProposerDuties_event run split (of_dutiesSet? set)
  have earlier : written ∈ front := by
    rw [split] at inside
    rcases List.mem_append.mp inside with before | after
    · exact before
    · rcases List.mem_cons.mp after with same | beyond
      · exact absurd (same ▸ own) other.1
      · rw [never written beyond] at wrote
        cases wrote
  obtain ⟨program, found⟩ := run.event_task (show event ∈ trace by simp [split])
  rw [olderRequest] at found
  have below := (newest.highest event.task older program other.1 found).1
  rw [StoredInHeadOrder, split] at ordered
  have above := (List.pairwise_append.mp ordered).2.2 written earlier event (by simp) head older
    request olderRequest (by simp [wrote]) (by simp [set])
  exact absurd below (UInt64.not_lt.mpr above)

omit [Crates] in
/-- A task is the newest refresh if all tasks have returned and every other
refresh among them is for a lower slot. -/
theorem newest_of_returned {task : Nat} {head : HeadSlot} {reply : Reply}
    (returned : world.returned? task = some (.refreshDuties head, reply))
    (others : ∀ other < world.tasks.length, other ≠ task →
      (world.returned? other).any (fun answer =>
        answer.1.refreshHead?.all fun older => older.slot < head.slot) = true) :
    Newest world task head := by
  refine ⟨⟨reply, World.returned?_eq_some.mp returned⟩, ?_⟩
  intro other otherHead program different found
  have inside := (List.getElem?_eq_some_iff.mp found).1
  obtain ⟨⟨request, result⟩, answer, lower⟩ :=
    (Option.any_eq_true _ _).mp (others other inside different)
  rw [World.returned?_eq_some.mp answer] at found
  cases found
  exact ⟨by simpa [Request.refreshHead?] using lower, result, rfl⟩

end Runs

section Late

open Demo

attribute [local instance] standIn

/-- Proposer 3 is on duty for one slot of every epoch. -/
def oncePerEpoch : Surroundings :=
  { surroundings with
    proposerDuties := fun epoch => some [⟨32 * epoch + 1, (pubkey 3).serialize, 7⟩] }

/-- The heads 0 and 32 each start a refresh, and that of the head 0 finishes last. -/
@[irreducible]
def lateRefresh : Played Calls Request Reply InMemoryStorage :=
  oncePerEpoch.responder.play (handler config) config.init <| .flatten [
    .arrive (.postValidators "" [registration 3]) :: .replicate 4 (.step 0),
    [.arrive (.headEvent 0), .step 1, .step 1, .arrive (.refreshDuties ⟨0⟩)],
    [.arrive (.headEvent 32), .step 3, .step 3, .arrive (.refreshDuties ⟨32⟩)],
    .replicate 6 (.step 4), .replicate 6 (.step 2)]

theorem lateRefresh_run : RunFrom config config.init lateRefresh.trace lateRefresh.world := by
  unfold lateRefresh
  exact oncePerEpoch.responder.play_run _ _ _

theorem lateRefresh_newest_iff :
    NewestWins lateRefresh.trace lateRefresh.world ↔ NewestLast lateRefresh.trace lateRefresh.world :=
  newest_wins_iff lateRefresh_run

/-- The duties of the later head are overwritten with those of the earlier one. -/
theorem late_refresh_overwrites :
    RunFrom config config.init lateRefresh.trace lateRefresh.world ∧
      ¬ NewestWins lateRefresh.trace lateRefresh.world := by
  refine ⟨lateRefresh_run, fun wins => ?_⟩
  have newest : Newest lateRefresh.world 4 ⟨32⟩ :=
    newest_of_returned (show lateRefresh.world.returned? 4 =
        some (.refreshDuties ⟨32⟩, .refreshed (.ok ())) by decide +kernel) (by decide +kernel)
  let newer : List Validator := [⟨33, 7, registration 3⟩, ⟨65, 7, registration 3⟩]
  have stores : lateRefresh.trace.any (fun event =>
      event.task = 4 ∧ dutiesSet? event.record = some newer) = true := by
    decide +kernel
  obtain ⟨event, membership, facts⟩ := List.any_eq_true.mp stores
  obtain ⟨own, set⟩ := of_decide_eq_true facts
  obtain ⟨front, later, split⟩ := List.append_of_mem membership
  have computed := computed_of_set lateRefresh_run split set
  rw [own] at computed
  have stored := wins 4 ⟨32⟩ newer newest computed (List.cons_ne_nil _ _)
  have other : lateRefresh.world.store.proposerDuties ≠ newer := by decide +kernel
  exact other stored

end Late

end MevRelay
