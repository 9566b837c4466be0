import MevRelay.Relay.Refreshes
import MevRelay.Relay.Traces

/-!
# Which slots have a known duty

A refresh starts only at a head slot that is a multiple of 32, and covers the
epoch of that slot and the next one.  Epochs have the configured length.
-/

namespace MevRelay

open Concurrent

/-- The slot a call makes the head. -/
def headSlot? (record : Record Calls) : Option UInt64 :=
  match record.1 with
  | .storage (.setHeadSlot head) => some head.slot
  | _ => none

/-- The head for which a call starts a refresh. -/
def spawned? (record : Record Calls) : Option HeadSlot :=
  match record.1 with
  | .spawnRefresh head => some head
  | _ => none

/-- The slots of the head events of a trace, oldest first. -/
def headsOf (trace : List RelayEvent) : List UInt64 :=
  trace.filterMap fun event => headSlot? event.record

def spawnsOf (trace : List RelayEvent) : List HeadSlot :=
  trace.filterMap fun event => spawned? event.record

/-- Head events and the refreshes they start all finish, and each refresh runs
between its own head event and the next one. -/
structure Orderly (trace : List RelayEvent) (world : RelayWorld) : Prop where
  handled : ∀ (task : Nat) slot program,
    world.tasks[task]? = some ⟨.headEvent slot, program⟩ → ∃ reply, program = .done reply
  refreshed : ∀ head ∈ spawnsOf trace, ∃ (task : Nat) (reply : Reply),
    world.tasks[task]? = some ⟨.refreshDuties head, .done reply⟩
  caused : ∀ front event later head, trace = front ++ event :: later →
    event.request = .refreshDuties head → head ∈ spawnsOf front
  timely : ∀ front event later slot, trace = front ++ event :: later →
    headSlot? event.record = some slot → ∀ other ∈ later, ∀ head,
    other.request = .refreshDuties head → slot ≤ head.slot

/-- A reply with a duty for each slot of the epoch and for no other slot. -/
def FullReply (slotsPerEpoch epoch : UInt64) (reply : List ProposerDutiesData) : Prop :=
  ∀ slot, (∃ duty ∈ reply, duty.slot = slot) ↔ slot / slotsPerEpoch = epoch

/-- The beacon node answers every request for duties in full, and while a
refresh works on its replies all proposers in them are registered. -/
structure BeaconComplete [Crates] (slotsPerEpoch : UInt64) (trace : List RelayEvent) : Prop where
  replies : ∀ event ∈ trace, ∀ epoch answer,
    event.record = (⟨.proposerDuties epoch, answer⟩ : Record Calls) →
    ∃ reply, answer = some reply ∧ FullReply slotsPerEpoch epoch reply
  registered : ∀ event ∈ trace, ∀ c, event.call = .storage c →
    ∀ epoch reply, (⟨.proposerDuties epoch, some reply⟩ : Record Calls) ∈ past event.task trace →
    ∀ duty ∈ reply, ∃ pubkey,
      (BlsPublicKey.ofBytes duty.pubkey : Outcome Unit BlsPublicKey) = .ok pubkey ∧
      pubkey ∈ event.before.validatorRegistrations

section Filtering

variable [Crates] {config : Config} {trace : List RelayEvent} {world : RelayWorld}

omit [Crates] in
/-- The slots of the filtered duties, where every lookup found a registration. -/
theorem slots_registeredOf {duties : List ProposerDutiesData} {lookups : Lookups}
    (same : duties.length = lookups.length) (found : ∀ lookup ∈ lookups, lookup.2.isSome = true)
    (slot : UInt64) :
    (∃ duty ∈ registeredOf duties lookups, duty.slot = slot) ↔ ∃ duty ∈ duties, duty.slot = slot := by
  constructor
  · rintro ⟨duty, membership, rfl⟩
    obtain ⟨⟨assigned, pubkey, answer⟩, paired, made⟩ := List.mem_filterMap.mp membership
    obtain ⟨registration, rfl, rfl⟩ := Option.map_eq_some_iff.mp made
    exact ⟨assigned, (List.of_mem_zip paired).1, rfl⟩
  · rintro ⟨assigned, membership, rfl⟩
    have firsts : (duties.zip lookups).map Prod.fst = duties := List.map_fst_zip same.le
    rw [← firsts] at membership
    obtain ⟨⟨_, pubkey, answer⟩, paired, rfl⟩ := List.mem_map.mp membership
    obtain ⟨registration, rfl⟩ :=
      Option.isSome_iff_exists.mp (found _ (List.of_mem_zip paired).2)
    exact ⟨_, List.mem_filterMap.mpr ⟨_, paired, rfl⟩, rfl⟩

theorem registered_at_lookup (complete : BeaconComplete config.slotsPerEpoch trace) {task : Nat}
    {epoch : UInt64} {current next : List ProposerDutiesData}
    (asked : ∀ record ∈ repliesOf epoch (some current) (some next), record ∈ past task trace)
    {event : RelayEvent} (membership : event ∈ trace) (own : event.task = task) {c : StorageCall}
    (call : event.call = .storage c) {duty : ProposerDutiesData} (listed : duty ∈ current ++ next) :
    ∃ pubkey, (BlsPublicKey.ofBytes duty.pubkey : Outcome Unit BlsPublicKey) = .ok pubkey ∧
      pubkey ∈ event.before.validatorRegistrations := by
  subst own
  rcases List.mem_append.mp listed with inCurrent | inNext
  · exact complete.registered event membership c call epoch current
      (asked _ (by simp [repliesOf])) duty inCurrent
  · exact complete.registered event membership c call (epoch + 1) next
      (asked _ (by simp [repliesOf])) duty inNext

theorem fullReplies (complete : BeaconComplete config.slotsPerEpoch trace) {task : Nat}
    {epoch : UInt64} {current next : List ProposerDutiesData}
    (asked : ∀ record ∈ repliesOf epoch (some current) (some next), record ∈ past task trace) :
    FullReply config.slotsPerEpoch epoch current ∧
      FullReply config.slotsPerEpoch (epoch + 1) next := by
  constructor
  · obtain ⟨event, membership, _, record⟩ := mem_past.mp (asked _ (List.mem_cons_self))
    obtain ⟨reply, same, full⟩ := complete.replies event membership epoch _ record
    cases same
    exact full
  · obtain ⟨event, membership, _, record⟩ :=
      mem_past.mp (asked _ (List.mem_cons_of_mem _ (List.mem_singleton_self _)))
    obtain ⟨reply, same, full⟩ := complete.replies event membership (epoch + 1) _ record
    cases same
    exact full

/-- What a refresh filters covers its two epochs and nothing else. -/
theorem Filtered.covers (run : RunFrom config config.init trace world)
    (complete : BeaconComplete config.slotsPerEpoch trace) {task : Nat}
    {calls : List (Record Calls)} (made : calls ⊆ past task trace) {epoch : UInt64}
    {current next : List ProposerDutiesData} {lookups : Lookups} {duties : List Validator}
    (filtered : Filtered calls epoch current next lookups duties) (slot : UInt64) :
    (∃ duty ∈ duties, duty.slot = slot) ↔
      slot / config.slotsPerEpoch = epoch ∨ slot / config.slotsPerEpoch = epoch + 1 := by
  have asked : ∀ record ∈ repliesOf epoch (some current) (some next), record ∈ past task trace := by
    intro record membership
    apply made
    rw [filtered.calls, refreshCalls, List.append_assoc]
    exact List.mem_append_left _ membership
  have found : ∀ lookup ∈ lookups, lookup.2.isSome = true := by
    rintro ⟨pubkey, answer⟩ membership
    have record : answered (.readValidatorRegistration pubkey) answer ∈ past task trace := by
      apply made
      rw [filtered.calls]
      exact List.mem_append_right _ (List.mem_map.mpr ⟨_, membership, rfl⟩)
    obtain ⟨read, inside, own, call, answered⟩ := read_event run record
    have seconds : ((current ++ next).zip lookups).map Prod.snd = lookups :=
      List.map_snd_zip filtered.lookedUp.length_eq.ge
    rw [← seconds] at membership
    obtain ⟨⟨assigned, _⟩, paired, rfl⟩ := List.mem_map.mp membership
    obtain ⟨other, decoded, registered⟩ :=
      registered_at_lookup complete asked inside own call (List.of_mem_zip paired).1
    have same : (BlsPublicKey.ofBytes assigned.pubkey : Outcome Unit BlsPublicKey) = .ok pubkey :=
      apply_eq_of_mem_zip filtered.lookedUp paired
    rw [decoded] at same
    cases same
    rw [answered]
    exact Finmap.lookup_isSome.mpr registered
  obtain ⟨inCurrent, inNext⟩ := fullReplies complete asked
  rw [filtered.registered, slots_registeredOf filtered.lookedUp.length_eq found, ← inCurrent slot,
    ← inNext slot]
  simp only [List.mem_append, or_and_right, exists_or]

omit [Crates] in
theorem epochOf_iff {slotsPerEpoch epoch : UInt64} {head : HeadSlot} :
    EpochOf slotsPerEpoch head epoch ↔
      slotsPerEpoch ≠ 0 ∧ head.slot / slotsPerEpoch = epoch := by
  by_cases zero : slotsPerEpoch = 0 <;> simp [EpochOf, HeadSlot.epoch, zero]

/-- With full replies a refresh that has ended has stored duties. -/
theorem RefreshEnded.stores (run : RunFrom config config.init trace world)
    (complete : BeaconComplete config.slotsPerEpoch trace) (positive : config.slotsPerEpoch ≠ 0)
    {task : Nat} {head : HeadSlot} {outcome : Outcome Unit Unit}
    (ended : RefreshEnded config.slotsPerEpoch head (past task trace) outcome) :
    ∃ event ∈ trace, event.task = task ∧ (dutiesSet? event.record).isSome = true := by
  generalize same : past task trace = calls at ended
  -- Every other end contradicts a full reply or a registered proposer.
  cases ended with
  | noEpoch zero => exact absurd zero positive
  | @unanswered epoch current next asked missing =>
      have answered : ∀ epoch answer,
          (⟨.proposerDuties epoch, answer⟩ : Record Calls) ∈ past task trace → answer ≠ none := by
        rintro epoch answer membership rfl
        obtain ⟨event, inside, _, record⟩ := mem_past.mp membership
        obtain ⟨reply, impossible, _⟩ := complete.replies event inside epoch none record
        cases impossible
      rcases missing with missing | missing
      · exact absurd missing (answered epoch current (by simp [same, repliesOf]))
      · exact absurd missing (answered (epoch + 1) next (by simp [same, repliesOf]))
  | @unregistered epoch current next asked =>
      have replied : ∀ record ∈ repliesOf epoch (some current) (some next),
          record ∈ past task trace := by
        intro record membership
        rw [same]
        exact List.mem_append_left _ membership
      have empty : answered .emptyValidatorRegs true ∈ past task trace := by simp [same]
      obtain ⟨read, inside, own, call, answer⟩ := read_event run empty
      have none : read.before.validatorRegistrations = ∅ := of_decide_eq_true answer.symm
      obtain ⟨duty, listed, _⟩ := ((fullReplies complete replied).1 head.slot).mpr
        (epochOf_iff.mp asked).2
      obtain ⟨pubkey, _, registered⟩ := registered_at_lookup complete replied inside own call
        (List.mem_append_left next listed)
      rw [none] at registered
      exact absurd registered Finmap.notMem_empty
  | @undecodable epoch current next seen duty rest lookups asked split lookedUp panics =>
      have replied : ∀ record ∈ repliesOf epoch (some current) (some next),
          record ∈ past task trace := by
        intro record membership
        rw [same, refreshCalls, List.append_assoc]
        exact List.mem_append_left _ membership
      have looks : answered .emptyValidatorRegs false ∈ past task trace := by
        simp [same, refreshCalls]
      obtain ⟨read, inside, own, call, _⟩ := read_event run looks
      obtain ⟨pubkey, decoded, _⟩ := registered_at_lookup complete replied inside own call
        (show duty ∈ current ++ next by simp [split])
      rw [panics] at decoded
      cases decoded
  | @nothing epoch current next lookups _ asked filtered =>
      rw [← same] at filtered
      obtain ⟨duty, impossible, _⟩ :=
        (filtered.covers run complete (List.Subset.refl _) head.slot).mpr
          (.inl (epochOf_iff.mp asked).2)
      cases impossible
  | @stored epoch current next lookups before duties asked filtered some =>
      have written : answered (.setProposerDuties duties) () ∈ past task trace := by simp [same]
      obtain ⟨event, inside, own, record⟩ := mem_past.mp written
      exact ⟨event, inside, own, by rw [record]; rfl⟩

end Filtering

section Runs

variable [Crates] {config : Config} {trace front later : List RelayEvent} {world : RelayWorld}
  {event : RelayEvent}

/-- The last head slot that starts a refresh. -/
def lastBoundary? (heads : List UInt64) : Option UInt64 :=
  (heads.filter fun slot => slot % 32 = 0).getLast?

omit [Crates] in
theorem of_headSlot? {record : Record Calls} {slot : UInt64} (moved : headSlot? record = some slot) :
    record.1 = .storage (.setHeadSlot ⟨slot⟩) := by
  simp only [headSlot?] at moved
  split at moved
  case h_1 call =>
    cases moved
    exact call
  case h_2 => cases moved

omit [Crates] in
theorem of_spawned? {record : Record Calls} {head : HeadSlot} (spawned : spawned? record = some head) :
    record.1 = .spawnRefresh head := by
  simp only [spawned?] at spawned
  split at spawned
  case h_1 call =>
    cases spawned
    exact call
  case h_2 => cases spawned

omit [Crates] in
theorem mem_headsOf {slot : UInt64} :
    slot ∈ headsOf trace ↔ ∃ event ∈ trace, headSlot? event.record = some slot := by
  simp [headsOf]

omit [Crates] in
theorem mem_spawnsOf {head : HeadSlot} :
    head ∈ spawnsOf trace ↔ ∃ event ∈ trace, spawned? event.record = some head := by
  simp [spawnsOf]

/-- A refresh is started at a multiple of 32, after its head event has stored the slot. -/
theorem head_of_spawned (run : RunFrom config config.init trace world) {head : HeadSlot}
    (spawned : head ∈ spawnsOf trace) : head.slot % 32 = 0 ∧ head.slot ∈ headsOf trace := by
  obtain ⟨event, membership, found⟩ := mem_spawnsOf.mp spawned
  obtain ⟨front, later, split⟩ := List.append_of_mem membership
  obtain ⟨first, made⟩ := spawnRefresh_event run split (of_spawned? found)
  have earlier : answered (.setHeadSlot head) () ∈ past event.task front := by simp [made]
  obtain ⟨moved, inside, _, record⟩ := mem_past.mp earlier
  refine ⟨first, mem_headsOf.mpr ⟨moved, by simp [split, inside], ?_⟩⟩
  rw [record]
  rfl

/-- A head event at a multiple of 32 that has been handled has started a refresh. -/
theorem spawned_of_head (run : RunFrom config config.init trace world)
    (orderly : Orderly trace world) {slot : UInt64} (head : slot ∈ headsOf trace)
    (boundary : slot % 32 = 0) : ⟨slot⟩ ∈ spawnsOf trace := by
  obtain ⟨event, membership, moved⟩ := mem_headsOf.mp head
  obtain ⟨front, later, split⟩ := List.append_of_mem membership
  have request : event.request = .headEvent slot := setHeadSlot_event run split (of_headSlot? moved)
  obtain ⟨program, found⟩ := run.event_task membership
  rw [request] at found
  obtain ⟨reply, rfl⟩ := orderly.handled event.task slot program found
  obtain ⟨_, _, calls⟩ := run.outline_atResult (holds_duties config) found
  have spawned : (⟨.spawnRefresh ⟨slot⟩, ()⟩ : Record Calls) ∈ past event.task trace := by
    rw [calls, if_pos boundary]
    simp
  obtain ⟨spawning, inside, _, record⟩ := mem_past.mp spawned
  exact mem_spawnsOf.mpr ⟨spawning, inside, by rw [record]; rfl⟩

omit [Crates] in
theorem lastBoundary_greatest {heads : List UInt64} (increasing : heads.Pairwise (· < ·))
    {first : UInt64} (last : lastBoundary? heads = some first) :
    (first ∈ heads ∧ first % 32 = 0) ∧ ∀ slot ∈ heads, slot % 32 = 0 → slot ≤ first := by
  obtain ⟨earlier, split⟩ := List.getLast?_eq_some_iff.mp last
  have membership : first ∈ heads.filter fun slot => slot % 32 = 0 := by simp [split]
  refine ⟨by simpa using membership, fun slot inside boundary => ?_⟩
  have kept : slot ∈ earlier ++ [first] := by
    rw [← split]
    exact List.mem_filter.mpr ⟨inside, decide_eq_true boundary⟩
  have ordered := increasing.filter fun slot => decide (slot % 32 = 0)
  rw [split] at ordered
  rcases List.mem_append.mp kept with before | same
  · exact UInt64.le_of_lt ((List.pairwise_append.mp ordered).2.2 slot before first (by simp))
  · rw [List.mem_singleton.mp same]
    exact UInt64.le_refl _

/-- In an orderly run whose last boundary is some head slot, the stored duties
are those of the refresh started there. -/
theorem stored_by_last_boundary (run : RunFrom config config.init trace world)
    (orderly : Orderly trace world) (complete : BeaconComplete config.slotsPerEpoch trace)
    (positive : config.slotsPerEpoch ≠ 0) (increasing : (headsOf trace).Pairwise (· < ·))
    {first : UInt64} (last : lastBoundary? (headsOf trace) = some first) :
    ∃ front event later, trace = front ++ event :: later ∧
      event.request = .refreshDuties ⟨first⟩ ∧
      dutiesSet? event.record = some world.store.proposerDuties := by
  obtain ⟨⟨head, boundary⟩, greatest⟩ := lastBoundary_greatest increasing last
  obtain ⟨task, reply, returned⟩ :=
    orderly.refreshed ⟨first⟩ (spawned_of_head run orderly head boundary)
  obtain ⟨_, _, ended⟩ := run.outline_atResult (holds_duties config) returned
  obtain ⟨written, inside, own, wrote⟩ := ended.stores run complete positive
  have request : written.request = .refreshDuties ⟨first⟩ := run.request_of_task inside own returned
  rcases run.last_set duties_set with ⟨_, never⟩ | ⟨front, event, later, split, set, never⟩
  · rw [never written inside] at wrote
    cases wrote
  obtain ⟨head', _, _, _, _, stores, _⟩ := setProposerDuties_event run split (of_dutiesSet? set)
  refine ⟨front, event, later, split, ?_, set⟩
  -- No later boundary has a refresh, and the refresh of no earlier one runs after this.
  have spawned := orderly.caused front event later head' split stores
  have fromTrace : head' ∈ spawnsOf trace := by
    rw [split, spawnsOf, List.filterMap_append]
    exact List.mem_append_left _ spawned
  obtain ⟨otherBoundary, otherHead⟩ := head_of_spawned run fromTrace
  have upper : head'.slot ≤ first := greatest head'.slot otherHead otherBoundary
  have lower : first ≤ head'.slot := by
    rw [split] at inside
    rcases List.mem_append.mp inside with before | after
    · obtain ⟨early, between, rfl⟩ := List.append_of_mem before
      have startedBefore := orderly.caused early written (between ++ event :: later) ⟨first⟩
        (by simp [split]) request
      obtain ⟨middle, shorter⟩ := run.prefix_run (show trace = early ++ _ by simp [split]; rfl)
      obtain ⟨moved, earliest, slot⟩ := mem_headsOf.mp (head_of_spawned shorter startedBefore).2
      obtain ⟨one, two, around⟩ := List.append_of_mem earliest
      exact orderly.timely one moved (two ++ written :: between ++ event :: later) first
        (by simp [split, around]) slot event (by simp) head' stores
    · rcases List.mem_cons.mp after with same | beyond
      · subst same
        rw [request] at stores
        cases stores
        exact UInt64.le_refl _
      · rw [never written beyond] at wrote
        cases wrote
  rw [stores, show head' = ⟨first⟩ from congrArg HeadSlot.mk (UInt64.le_antisymm upper lower)]

/-- In an orderly run a slot has a known duty exactly if it lies in the epoch of
the last boundary or in the one after it. -/
theorem duty_known_iff (run : RunFrom config config.init trace world)
    (orderly : Orderly trace world) (complete : BeaconComplete config.slotsPerEpoch trace)
    (positive : config.slotsPerEpoch ≠ 0) (increasing : (headsOf trace).Pairwise (· < ·))
    (slot : UInt64) :
    (world.store.findDutyBySlot slot).isSome = true ↔
      ∃ first, lastBoundary? (headsOf trace) = some first ∧
        (slot / config.slotsPerEpoch = first / config.slotsPerEpoch ∨
          slot / config.slotsPerEpoch = first / config.slotsPerEpoch + 1) := by
  have known : (world.store.findDutyBySlot slot).isSome = true ↔
      ∃ duty ∈ world.store.proposerDuties, duty.slot = slot := by
    simp [InMemoryStorage.findDutyBySlot, List.find?_isSome]
  rw [known]
  cases last : lastBoundary? (headsOf trace) with
  | some first =>
      obtain ⟨front, event, later, split, request, set⟩ :=
        stored_by_last_boundary run orderly complete positive increasing last
      obtain ⟨head, epoch, current, next, lookups, stores, asked, filtered, _⟩ :=
        setProposerDuties_event run split (of_dutiesSet? set)
      rw [request] at stores
      cases stores
      rw [filtered.covers run complete (past_subset split event.task) slot, ← (epochOf_iff.mp asked).2]
      simp
  | none =>
      have unset : world.store.proposerDuties = [] := by
        rcases run.last_set duties_set with ⟨unchanged, _⟩ | ⟨front, event, later, split, set, _⟩
        · exact unchanged
        · obtain ⟨head, _, _, _, _, stores, _⟩ :=
            setProposerDuties_event run split (of_dutiesSet? set)
          obtain ⟨middle, shorter⟩ := run.prefix_run split
          obtain ⟨boundary, inside⟩ := head_of_spawned shorter
            (orderly.caused front event later head split stores)
          have fromTrace : head.slot ∈ headsOf trace := by
            rw [split, headsOf, List.filterMap_append]
            exact List.mem_append_left _ inside
          have none := List.filter_eq_nil_iff.mp (List.getLast?_eq_none_iff.mp last)
          exact absurd (decide_eq_true boundary) (none head.slot fromTrace)
      simp [unset]

end Runs

section Arithmetic

theorem toNat_mod_32 {slot : UInt64} : slot % 32 = 0 ↔ slot.toNat % 32 = 0 := by
  rw [← UInt64.toNat_inj, UInt64.toNat_mod]
  rfl

/-- The two epochs of a boundary, as numbers. -/
theorem epochs_of_boundary {slot first length : UInt64} (boundary : first % 32 = 0) :
    (slot / length = first / length ∨ slot / length = first / length + 1) ↔
      slot.toNat / length.toNat = first.toNat / length.toNat ∨
        slot.toNat / length.toNat = first.toNat / length.toNat + 1 := by
  have below := first.toNat_lt
  have whole := toNat_mod_32.mp boundary
  have quotient := Nat.div_le_self first.toNat length.toNat
  have one : (1 : UInt64).toNat = 1 := rfl
  rw [← UInt64.toNat_inj, ← UInt64.toNat_inj, UInt64.toNat_add, UInt64.toNat_div, UInt64.toNat_div,
    one, Nat.mod_eq_of_lt (by omega)]

theorem le_last_of_increasing {heads : List UInt64} (increasing : heads.Pairwise (· < ·))
    {head : UInt64} (last : heads.getLast? = some head) {slot : UInt64} (inside : slot ∈ heads) :
    slot ≤ head := by
  obtain ⟨earlier, rfl⟩ := List.getLast?_eq_some_iff.mp last
  rcases List.mem_append.mp inside with before | same
  · exact UInt64.le_of_lt ((List.pairwise_append.mp increasing).2.2 slot before head (by simp))
  · rw [List.mem_singleton.mp same]
    exact UInt64.le_refl _

theorem lastBoundary_exists {heads : List UInt64} {slot : UInt64} (inside : slot ∈ heads)
    (boundary : slot % 32 = 0) : ∃ first, lastBoundary? heads = some first := by
  apply Option.ne_none_iff_exists'.mp
  intro none
  exact List.filter_eq_nil_iff.mp (List.getLast?_eq_none_iff.mp none) slot inside
    (decide_eq_true boundary)

theorem lastBoundary_of_consecutive {heads : List UInt64} {last : Nat}
    (consecutive : heads.map UInt64.toNat = List.range (last + 1)) :
    heads.Pairwise (· < ·) ∧
      ∃ first, lastBoundary? heads = some first ∧ first.toNat = last - last % 32 := by
  have increasing : heads.Pairwise (· < ·) := by
    have ordered : (heads.map UInt64.toNat).Pairwise (· < ·) := by
      rw [consecutive]
      exact List.pairwise_lt_range
    simpa only [List.pairwise_map, ← UInt64.lt_iff_toNat_lt] using ordered
  have range : ∀ slot : Nat, (∃ head ∈ heads, head.toNat = slot) ↔ slot < last + 1 := by
    intro slot
    rw [← List.mem_range, ← consecutive, List.mem_map]
  obtain ⟨slot, inside, value⟩ := (range (last - last % 32)).mpr (by omega)
  have boundary : slot % 32 = 0 := toNat_mod_32.mpr (by omega)
  obtain ⟨first, found⟩ := lastBoundary_exists inside boundary
  obtain ⟨⟨firstInside, firstBoundary⟩, greatest⟩ := lastBoundary_greatest increasing found
  have above := UInt64.le_iff_toNat_le.mp (greatest slot inside boundary)
  have below := (range first.toNat).mp ⟨first, firstInside, rfl⟩
  have whole := toNat_mod_32.mp firstBoundary
  exact ⟨increasing, first, found, by omega⟩

/-- The slot after a head lies in the epoch of the last boundary or in the next one. -/
def NextCovered (length head : Nat) : Prop :=
  (head + 1) / length ≤ (head - head % 32) / length + 1

/-- The literal 32 serves epochs of 32 slots and longer ones, and no shorter ones. -/
theorem nextCovered_always_iff {length : Nat} (positive : 0 < length) :
    (∀ head, NextCovered length head) ↔ 32 ≤ length := by
  constructor
  · intro covered
    by_contra short
    -- A boundary as late in its epoch as possible, and the last head before the next one.
    have late : ∀ length < 32, 0 < length → ∃ count < 32,
        (32 * count) / length + 1 < (32 * count + 32) / length := by
      decide
    obtain ⟨count, _, beyond⟩ := late length (by omega) positive
    have next := covered (32 * count + 31)
    rw [NextCovered, show (32 * count + 31) % 32 = 31 by omega] at next
    exact absurd beyond (Nat.not_lt.mpr next)
  · intro long head
    calc (head + 1) / length
        ≤ (head - head % 32 + length) / length := Nat.div_le_div_right (by omega)
      _ = (head - head % 32) / length + 1 := Nat.add_div_right _ positive

end Arithmetic

section Checks

variable [Crates] {config : Config} {trace : List RelayEvent} {world : RelayWorld}

omit [Crates] in
theorem mem_refreshHead? {request : Request} {head : HeadSlot} :
    head ∈ request.refreshHead? ↔ request = .refreshDuties head := by
  cases request <;> simp [Request.refreshHead?]

theorem not_spawned_by_refresh (run : RunFrom config config.init trace world) {event : RelayEvent}
    (membership : event ∈ trace) {head : HeadSlot} (request : event.request = .refreshDuties head)
    (other : HeadSlot) : spawned? event.record ≠ some other := by
  intro spawned
  obtain ⟨front, later, split⟩ := List.append_of_mem membership
  have allowed := run.outline_atCall (holds_duties config) split
  rw [request, show event.call = _ from of_spawned? spawned] at allowed
  cases allowed

/-- A run in which every task has returned is orderly if its refreshes and head
events are in order, which can be checked event by event. -/
theorem orderly_of_returned (run : RunFrom config config.init trace world)
    (returned : ∀ task ∈ world.tasks, task.returned?.isSome = true)
    (refreshed : ∀ head ∈ spawnsOf trace, ∃ task < world.tasks.length,
      (world.returned? task).any (fun answer => answer.1 = .refreshDuties head) = true)
    (spawned : ∀ event ∈ trace, ∀ head ∈ event.request.refreshHead?, head ∈ spawnsOf trace)
    (caused : trace.Pairwise fun event other =>
      ∀ head ∈ event.request.refreshHead?, spawned? other.record ≠ some head)
    (timely : trace.Pairwise fun earlier later => (headSlot? earlier.record).all (fun slot =>
      later.request.refreshHead?.all fun head => slot ≤ head.slot) = true) :
    Orderly trace world where
  handled task slot program found := finished_of_returned returned _ (List.mem_of_getElem? found)
  refreshed head started := by
    obtain ⟨task, _, ended⟩ := refreshed head started
    obtain ⟨⟨request, reply⟩, answer, same⟩ := (Option.any_eq_true _ _).mp ended
    rw [World.returned?_eq_some, show request = _ from of_decide_eq_true same] at answer
    exact ⟨task, reply, answer⟩
  caused front event later head split request := by
    have started := spawned event (by simp [split]) head (mem_refreshHead?.mpr request)
    rw [split, spawnsOf, List.filterMap_append] at started
    rcases List.mem_append.mp started with before | after
    · exact before
    obtain ⟨other, inside, found⟩ := List.mem_filterMap.mp after
    rcases List.mem_cons.mp inside with rfl | beyond
    · exact absurd found (not_spawned_by_refresh run (by simp [split]) request head)
    · rw [split] at caused
      have never := (List.pairwise_cons.mp (List.pairwise_append.mp caused).2.1).1
      exact absurd found (never other beyond head (mem_refreshHead?.mpr request))
  timely front event later slot split moved other beyond head request := by
    rw [split] at timely
    have ordered := (List.pairwise_cons.mp (List.pairwise_append.mp timely).2.1).1
    simpa [moved, request, Request.refreshHead?] using ordered other beyond

end Checks

section TwoHeads

open Demo

attribute [local instance] standIn

/-- A beacon node that has validator 3 propose in every slot of every epoch. -/
def assignments (length epoch : UInt64) : List ProposerDutiesData :=
  ((List.range' (length.toNat * epoch.toNat) length.toNat).filter (· < 2 ^ 64)).map fun slot =>
    ⟨UInt64.ofNat slot, (pubkey 3).serialize, 7⟩

theorem assignments_full {length : UInt64} (positive : length ≠ 0) (epoch : UInt64) :
    FullReply length epoch (assignments length epoch) := by
  intro slot
  have some : 0 < length.toNat := Nat.pos_of_ne_zero fun zero => positive (UInt64.toNat_inj.mp zero)
  have inEpoch : slot / length = epoch ↔
      length.toNat * epoch.toNat ≤ slot.toNat ∧
        slot.toNat < length.toNat * epoch.toNat + length.toNat := by
    rw [← UInt64.toNat_inj, UInt64.toNat_div, Nat.div_eq_iff some, Nat.mul_comm]
    omega
  rw [inEpoch]
  simp only [assignments, List.mem_map, List.mem_filter, List.mem_range'_1, decide_eq_true_eq]
  constructor
  · rintro ⟨duty, ⟨number, ⟨inside, bounded⟩, rfl⟩, rfl⟩
    have value : (UInt64.ofNat number).toNat = number := UInt64.toNat_ofNat_of_lt' bounded
    simpa only [value] using inside
  · intro inside
    exact ⟨_, ⟨slot.toNat, ⟨inside, slot.toNat_lt⟩, rfl⟩, UInt64.ofNat_toNat⟩

def fullBeacon (length : UInt64) : Surroundings :=
  { surroundings with proposerDuties := fun epoch => some (assignments length epoch) }

def withLength (length : UInt64) : Config := { config with slotsPerEpoch := length }

/-- The validator registers, the head 0 starts a refresh, and another head follows. -/
@[irreducible]
def twoHeads (length second : UInt64) : Played Calls Request Reply InMemoryStorage :=
  (fullBeacon length).responder.play (handler (withLength length)) config.init <| .flatten [
    .arrive (.postValidators "" [registration 3]) :: .replicate 4 (.step 0),
    [.arrive (.headEvent 0), .step 1, .step 1],
    .arrive (.refreshDuties ⟨0⟩) :: .replicate (2 * length.toNat + 4) (.step 2),
    [.arrive (.headEvent second), .step 3]]

/-- The run of the two heads, as a trace with its final world. -/
theorem twoHeads_run (length second : UInt64) :
    RunFrom (withLength length) (withLength length).init (twoHeads length second).trace
      (twoHeads length second).world := by
  unfold twoHeads
  exact (fullBeacon length).responder.play_run _ _ _

theorem twoHeads_replies {length second : UInt64} (event : RelayEvent)
    (membership : event ∈ (twoHeads length second).trace) {epoch : UInt64}
    {answer : Option (List ProposerDutiesData)}
    (record : event.record = (⟨.proposerDuties epoch, answer⟩ : Record Calls)) :
    answer = some (assignments length epoch) := by
  unfold twoHeads at membership
  have responds := (fullBeacon length).responder.play_responds _ _ _ event membership
  obtain ⟨_, _, call, response, before, after⟩ := event
  cases record
  exact responds

def Call.asksDuties : Call → Bool
  | .proposerDuties _ => true
  | _ => false

/-- The replies are complete if only tasks after the registration ask for them. -/
theorem twoHeads_complete {length second : UInt64} (positive : length ≠ 0)
    (quiet : ∀ event ∈ (twoHeads length second).trace, event.task = 0 →
      event.call.asksDuties = false)
    (registered : ∀ event ∈ (twoHeads length second).trace, event.task ≠ 0 →
      pubkey 3 ∈ event.before.validatorRegistrations) :
    BeaconComplete length (twoHeads length second).trace where
  replies event membership epoch answer record :=
    ⟨_, twoHeads_replies event membership record, assignments_full positive epoch⟩
  registered event membership c call epoch reply asked duty listed := by
    obtain ⟨asking, inside, own, record⟩ := mem_past.mp asked
    obtain rfl : reply = assignments length epoch :=
      Option.some.inj (twoHeads_replies asking inside record)
    obtain ⟨slot, _, rfl⟩ := List.mem_map.mp listed
    refine ⟨pubkey 3, rfl, registered event membership fun first => ?_⟩
    have silent := quiet asking inside (own.trans first)
    rw [show asking.call = _ from congrArg Sigma.fst record] at silent
    cases silent

end TwoHeads

section SkippedSlots

variable [Crates] {config : Config} {trace : List RelayEvent} {world : RelayWorld}

/-- With 32 slots per epoch and any slots skipped, the duty of the next slot is
known exactly if some head slot at a multiple of 32 is less than 64 slots back. -/
theorem next_duty_known_iff (run : RunFrom config config.init trace world)
    (orderly : Orderly trace world) (complete : BeaconComplete config.slotsPerEpoch trace)
    (length : config.slotsPerEpoch = 32) (increasing : (headsOf trace).Pairwise (· < ·))
    {head next : UInt64} (last : (headsOf trace).getLast? = some head)
    (follows : next.toNat = head.toNat + 1) :
    (world.store.findDutyBySlot next).isSome = true ↔
      ∃ slot ∈ headsOf trace, slot % 32 = 0 ∧ next.toNat < slot.toNat + 64 := by
  have positive : config.slotsPerEpoch ≠ 0 := by simp [length]
  have thirtyTwo : (32 : UInt64).toNat = 32 := rfl
  rw [duty_known_iff run orderly complete positive increasing next]
  constructor
  · rintro ⟨first, found, epochs⟩
    obtain ⟨⟨inside, boundary⟩, _⟩ := lastBoundary_greatest increasing found
    rw [epochs_of_boundary boundary, length, thirtyTwo] at epochs
    have whole := toNat_mod_32.mp boundary
    exact ⟨first, inside, boundary, by omega⟩
  · rintro ⟨slot, inside, boundary, near⟩
    obtain ⟨first, found⟩ := lastBoundary_exists inside boundary
    obtain ⟨⟨firstInside, firstBoundary⟩, greatest⟩ := lastBoundary_greatest increasing found
    have above := UInt64.le_iff_toNat_le.mp (greatest slot inside boundary)
    have below := UInt64.le_iff_toNat_le.mp (le_last_of_increasing increasing last firstInside)
    have whole := toNat_mod_32.mp firstBoundary
    refine ⟨first, found, ?_⟩
    rw [epochs_of_boundary firstBoundary, length, thirtyTwo]
    omega

end SkippedSlots

section SkippedBoundary

open Demo

attribute [local instance] standIn

theorem skippedBoundary_orderly : Orderly (twoHeads 32 63).trace (twoHeads 32 63).world :=
  orderly_of_returned (twoHeads_run 32 63) (by decide +kernel) (by decide +kernel)
    (by decide +kernel) (by decide +kernel) (by decide +kernel)

theorem skippedBoundary_complete : BeaconComplete 32 (twoHeads 32 63).trace :=
  twoHeads_complete (by decide) (by decide +kernel) (by decide +kernel)

theorem skippedBoundary_heads : headsOf (twoHeads 32 63).trace = [0, 63] := by decide +kernel

theorem skippedBoundary_known_iff :
    ((twoHeads 32 63).world.store.findDutyBySlot 64).isSome = true ↔
      ∃ slot ∈ headsOf (twoHeads 32 63).trace,
        slot % 32 = 0 ∧ (64 : UInt64).toNat < slot.toNat + 64 := by
  refine next_duty_known_iff (twoHeads_run 32 63) skippedBoundary_orderly skippedBoundary_complete
    rfl ?_ (show (headsOf (twoHeads 32 63).trace).getLast? = some 63 by
      rw [skippedBoundary_heads]; rfl) rfl
  rw [skippedBoundary_heads]
  decide

/-- Heads from a boundary on, in order, with one or more in every epoch of 32 slots. -/
structure EveryEpochHasHead (heads : List UInt64) : Prop where
  increasing : heads.Pairwise (· < ·)
  starts : ∃ first, heads.head? = some first ∧ first % 32 = 0
  attended : ∀ first last, heads.head? = some first → heads.getLast? = some last →
    ∀ epoch, first / 32 ≤ epoch → epoch ≤ last / 32 → ∃ slot ∈ heads, slot / 32 = epoch

/-- The heads 0 and 63 leave no epoch out, but the slot 64 has no known duty. -/
theorem skipped_boundary_unknown :
    RunFrom (withLength 32) (withLength 32).init (twoHeads 32 63).trace (twoHeads 32 63).world ∧
      Orderly (twoHeads 32 63).trace (twoHeads 32 63).world ∧
      BeaconComplete (withLength 32).slotsPerEpoch (twoHeads 32 63).trace ∧
      EveryEpochHasHead (headsOf (twoHeads 32 63).trace) ∧
      (headsOf (twoHeads 32 63).trace).getLast? = some 63 ∧
      (twoHeads 32 63).world.store.findDutyBySlot (63 + 1) = none := by
  refine ⟨twoHeads_run 32 63, skippedBoundary_orderly, skippedBoundary_complete, ?_, ?_, ?_⟩
  · rw [skippedBoundary_heads]
    refine ⟨by decide, ⟨0, rfl, rfl⟩, ?_⟩
    rintro first last start stop epoch _ upper
    obtain rfl : 63 = last := Option.some.inj stop
    have bound : epoch.toNat ≤ 1 := UInt64.le_iff_toNat_le.mp upper
    rcases Nat.le_one_iff_eq_zero_or_eq_one.mp bound with zero | one
    · exact ⟨0, by simp, UInt64.toNat_inj.mp zero.symm⟩
    · exact ⟨63, by simp, UInt64.toNat_inj.mp one.symm⟩
  · rw [skippedBoundary_heads]
    rfl
  · have unknown : ((twoHeads 32 63).world.store.findDutyBySlot (63 + 1)).isSome = false := by
      decide +kernel
    simpa using unknown

end SkippedBoundary

section ConsecutiveHeads

variable [Crates] {config : Config} {trace : List RelayEvent} {world : RelayWorld}

/-- After the heads 0 to `last` the duty of the next slot is known exactly if
the two epochs of the last boundary reach it, which they always do exactly if
an epoch has at least 32 slots. -/
theorem consecutive_next_duty_known_iff (run : RunFrom config config.init trace world)
    (orderly : Orderly trace world) (complete : BeaconComplete config.slotsPerEpoch trace)
    (positive : config.slotsPerEpoch ≠ 0) {last : Nat}
    (consecutive : (headsOf trace).map UInt64.toNat = List.range (last + 1)) {next : UInt64}
    (follows : next.toNat = last + 1) :
    ((world.store.findDutyBySlot next).isSome = true ↔
      NextCovered config.slotsPerEpoch.toNat last) ∧
    ((∀ head, NextCovered config.slotsPerEpoch.toNat head) ↔ 32 ≤ config.slotsPerEpoch.toNat) := by
  obtain ⟨increasing, first, found, value⟩ := lastBoundary_of_consecutive consecutive
  obtain ⟨⟨_, boundary⟩, _⟩ := lastBoundary_greatest increasing found
  have some : 0 < config.slotsPerEpoch.toNat :=
    Nat.pos_of_ne_zero fun zero => positive (UInt64.toNat_inj.mp zero)
  refine ⟨?_, nextCovered_always_iff some⟩
  rw [duty_known_iff run orderly complete positive increasing next, found]
  have reached : first.toNat / config.slotsPerEpoch.toNat ≤ next.toNat / config.slotsPerEpoch.toNat :=
    Nat.div_le_div_right (by omega)
  simp only [Option.some.injEq, exists_eq_left', epochs_of_boundary boundary, NextCovered]
  rw [value] at reached ⊢
  rw [follows] at reached ⊢
  omega

end ConsecutiveHeads

section ShortEpochs

open Demo

attribute [local instance] standIn

theorem shortEpochs_orderly : Orderly (twoHeads 1 1).trace (twoHeads 1 1).world :=
  orderly_of_returned (twoHeads_run 1 1) (by decide +kernel) (by decide +kernel)
    (by decide +kernel) (by decide +kernel) (by decide +kernel)

theorem shortEpochs_complete : BeaconComplete 1 (twoHeads 1 1).trace :=
  twoHeads_complete (by decide) (by decide +kernel) (by decide +kernel)

theorem shortEpochs_heads : (headsOf (twoHeads 1 1).trace).map UInt64.toNat = List.range 2 := by
  decide +kernel

theorem shortEpochs_known_iff :
    (((twoHeads 1 1).world.store.findDutyBySlot 2).isSome = true ↔
      NextCovered (withLength 1).slotsPerEpoch.toNat 1) ∧
    ((∀ head, NextCovered (withLength 1).slotsPerEpoch.toNat head) ↔
      32 ≤ (withLength 1).slotsPerEpoch.toNat) :=
  consecutive_next_duty_known_iff (twoHeads_run 1 1) shortEpochs_orderly shortEpochs_complete
    (by decide) shortEpochs_heads rfl

/-- With one slot per epoch the heads 0 and 1 leave the slot 2 without a known duty. -/
theorem short_epoch_unknown :
    RunFrom (withLength 1) (withLength 1).init (twoHeads 1 1).trace (twoHeads 1 1).world ∧
      Orderly (twoHeads 1 1).trace (twoHeads 1 1).world ∧
      BeaconComplete (withLength 1).slotsPerEpoch (twoHeads 1 1).trace ∧
      (headsOf (twoHeads 1 1).trace).map UInt64.toNat = List.range 2 ∧
      (twoHeads 1 1).world.store.findDutyBySlot (1 + 1) = none := by
  have unknown : ((twoHeads 1 1).world.store.findDutyBySlot (1 + 1)).isSome = false := by
    decide +kernel
  exact ⟨twoHeads_run 1 1, shortEpochs_orderly, shortEpochs_complete, shortEpochs_heads,
    by simpa using unknown⟩

end ShortEpochs

end MevRelay
