import MevRelay.Relay.Proposers

/-!
# Duties and the registrations they copy

A duty holds the registration that was found for it when the duties were
filtered.  It stays current exactly as long as each later batch repeats it.
-/

namespace MevRelay

open Concurrent

/-- The validator of a duty is registered, and the duty shows its registration. -/
def CurrentDuty (store : InMemoryStorage) (duty : Validator) : Prop :=
  store.validatorRegistrations.lookup duty.pubkey = some duty.entry

/-- Whatever duty is found for a slot or listed is current. -/
structure DutiesCurrent (store : InMemoryStorage) : Prop where
  found : ∀ slot duty, store.findDutyBySlot slot = some duty → CurrentDuty store duty
  listed : ∀ duties, Ends exec Http.getValidators store duties →
    ∀ duty ∈ duties, CurrentDuty store duty

theorem dutiesCurrent_iff {store : InMemoryStorage} :
    DutiesCurrent store ↔ ∀ duty ∈ store.proposerDuties, CurrentDuty store duty := by
  constructor
  · intro current
    exact current.listed store.proposerDuties (ends_storage.mpr (ends_done_iff.mpr rfl))
  · intro current
    refine ⟨?_, ?_⟩
    · intro slot duty found
      exact current duty (List.mem_of_find?_eq_some found)
    · intro duties ends
      rw [Http.getValidators, ends_storage, ends_done_iff] at ends
      subst ends
      exact current

/-- In every state of an interleaving the duties are current. -/
def AlwaysCurrent (config : Config) (trace : List RelayEvent) : Prop :=
  ∀ front later, trace = front ++ later → DutiesCurrent (storeAfter config.init front)

/-- The registrations that duties show when a batch is installed, and those that
a refresh has found by then and stores before the next batch. -/
inductive InUse (trace front : List RelayEvent) (event : RelayEvent) :
    ValidatorRegistration → Prop where
  | onDuty {duty} : duty ∈ event.before.proposerDuties → InUse trace front event duty.entry
  | found {between storing later pubkey registration} :
      trace = front ++ event :: (between ++ storing :: later) →
      (∀ other ∈ between, registrationsSet? other.record = none) →
      (dutiesSet? storing.record).isSome = true →
      answered (.readValidatorRegistration pubkey) (some registration) ∈
        past storing.task front →
      InUse trace front event registration

theorem dutiesSet?_of_registrationsSet? {record : Record Calls}
    {registrations : ValidatorRegistrations}
    (set : registrationsSet? record = some registrations) : dutiesSet? record = none := by
  simp only [dutiesSet?, of_registrationsSet? set]

theorem registrationsSet?_of_dutiesSet? {record : Record Calls} {duties : List Validator}
    (set : dutiesSet? record = some duties) : registrationsSet? record = none := by
  simp only [registrationsSet?, of_dutiesSet? set]

section Runs

variable [Crates] {config : Config} {trace front later : List RelayEvent} {world : RelayWorld}
  {event : RelayEvent}

/-- Every batch carries, as its last valid entry for the key, each registration in use. -/
def BatchesRepeat (config : Config) (trace : List RelayEvent) : Prop :=
  ∀ front event batch, Installs trace front event batch →
    ∀ registration, InUse trace front event registration →
      lastWrite registration.message.pubkey (validBy config front event.task batch) =
        some registration

/-- The duties that a refresh stores show exactly the registrations it has found. -/
theorem shown_iff_found (run : RunFrom config config.init trace world)
    (split : trace = front ++ event :: later) {duties : List Validator}
    (set : dutiesSet? event.record = some duties) {registration : ValidatorRegistration} :
    (∃ duty ∈ duties, duty.entry = registration) ↔
      ∃ pubkey, answered (.readValidatorRegistration pubkey) (some registration) ∈
        past event.task front := by
  obtain ⟨_, _, _, _, _, _, _, filtered, _⟩ :=
    setProposerDuties_event run split (of_dutiesSet? set)
  rw [filtered.registered, filtered.calls]
  simp only [lookup_made_iff]
  constructor
  · rintro ⟨duty, membership, rfl⟩
    obtain ⟨_, _, pubkey, _, _, _, found⟩ := of_mem_registeredOf filtered.lookedUp membership
    exact ⟨pubkey, found⟩
  · rintro ⟨pubkey, found⟩
    exact mem_registeredOf_of_lookup filtered.lookedUp found

/-- What a task has found under a key belongs to that key. -/
theorem found_under_own_key (run : RunFrom config config.init trace world)
    {pubkey : BlsPublicKey} {registration : ValidatorRegistration} {read : RelayEvent}
    (split : trace = front ++ read :: later)
    (found : read.before.validatorRegistrations.lookup pubkey = some registration) :
    registration.message.pubkey = pubkey := by
  obtain ⟨middle, shorter, started⟩ := run.prefix_before split
  rw [← started] at found
  exact (registration_authentic shorter found).own

/-- A registration in use when a batch is installed is shown by some duty later,
with no batch in between. -/
theorem InUse.shown {registration : ValidatorRegistration}
    (use : InUse trace front event registration)
    (run : RunFrom config config.init trace world) (split : trace = front ++ event :: later)
    {registrations : ValidatorRegistrations}
    (set : registrationsSet? event.record = some registrations) :
    ∃ between rest, trace = front ++ [event] ++ between ++ rest ∧
      (∀ other ∈ between, registrationsSet? other.record = none) ∧
      ∃ duty ∈ (storeAfter config.init (front ++ [event] ++ between)).proposerDuties,
        duty.entry = registration := by
  cases use with
  | @onDuty duty membership =>
      have kept : event.after.proposerDuties =
          (dutiesSet? event.record).getD event.before.proposerDuties :=
        duties_set _ _ _ _ (run.event_at front event later split).1
      rw [dutiesSet?_of_registrationsSet? set, Option.getD_none] at kept
      refine ⟨[], later, by simp [split], by simp, duty, ?_, rfl⟩
      rw [List.append_nil, storeAfter_concat, kept]
      exact membership
  | @found between storing rest pubkey _ whole never stores looked =>
      obtain ⟨duties, stored⟩ := Option.isSome_iff_exists.mp stores
      have at_storing : trace = (front ++ event :: between) ++ storing :: rest := by simp [whole]
      have earlier : past storing.task front ⊆ past storing.task (front ++ event :: between) :=
        past_subset rfl storing.task
      have shown := (shown_iff_found run at_storing stored).mpr ⟨pubkey, earlier looked⟩
      have after : storing.after.proposerDuties =
          (dutiesSet? storing.record).getD storing.before.proposerDuties :=
        duties_set _ _ _ _ (run.event_at _ storing rest at_storing).1
      rw [stored, Option.getD_some] at after
      refine ⟨between ++ [storing], rest, by simp [whole], ?_, ?_⟩
      · intro other membership
        rcases List.mem_append.mp membership with inside | last
        · exact never other inside
        · rw [List.mem_singleton.mp last]
          exact registrationsSet?_of_dutiesSet? stored
      · rw [← List.append_assoc, storeAfter_concat, after]
        exact shown

/-- A batch that is installed while the duties stay current repeats what is in use. -/
theorem batchesRepeat_of_current (run : RunFrom config config.init trace world)
    (current : AlwaysCurrent config trace) : BatchesRepeat config trace := by
  intro front event batch installs registration use
  obtain ⟨later, split⟩ := installs.split
  obtain ⟨collected, call⟩ := installs.call
  have set : registrationsSet? event.record = some collected := by
    simp only [registrationsSet?, Event.record, call]
  obtain ⟨between, rest, whole, never, duty, shown, rfl⟩ := use.shown run split set
  have held := dutiesCurrent_iff.mp (current _ _ whole) duty shown
  obtain ⟨middle, shorter⟩ := run.prefix_run whole
  rw [CurrentDuty, Run.view_over_unset registrations_set shorter never, storeAfter_concat,
    installs.lookup run] at held
  exact held

/-- If batches repeat what is in use, a refresh stores current duties. -/
theorem stored_current (run : RunFrom config config.init trace world)
    (repeats : BatchesRepeat config trace) (split : trace = front ++ event :: later)
    {duties : List Validator} (stored : dutiesSet? event.record = some duties) :
    ∀ duty ∈ duties, CurrentDuty (storeAfter config.init front) duty := by
  intro duty membership
  obtain ⟨pubkey, looked⟩ := (shown_iff_found run split stored).mp ⟨duty, membership, rfl⟩
  obtain ⟨_, shorter⟩ := run.prefix_run split
  obtain ⟨read, inside, own, record⟩ := mem_past.mp looked
  obtain ⟨call, answer⟩ := answer_of_record (shorter.executed inside) record
  obtain ⟨first, second, rfl⟩ := List.append_of_mem inside
  obtain rfl : duty.pubkey = pubkey := found_under_own_key shorter rfl answer.symm
  have reads : registrationsSet? read.record = none := by
    simp only [registrationsSet?, Event.record, call]
  rw [CurrentDuty]
  rcases split_at_last_set registrationsSet? second with never |
    ⟨before, installer, between, registrations, rfl, set, never⟩
  · rw [Run.view_over_unset registrations_set shorter (List.forall_mem_cons.mpr ⟨reads, never⟩),
      ← (shorter.event_at first read second rfl).2]
    exact answer.symm
  · have whole : trace = (first ++ read :: before) ++ installer :: (between ++ event :: later) := by
      simp [split]
    obtain ⟨batch, installs⟩ := installs_of_set run whole set
    have found : answered (.readValidatorRegistration duty.pubkey) (some duty.entry) ∈
        past event.task (first ++ read :: before) :=
      mem_past.mpr ⟨read, by simp, own, record⟩
    have use : InUse trace (first ++ read :: before) installer duty.entry :=
      .found whole never (Option.isSome_iff_exists.mpr ⟨duties, stored⟩) found
    have front_eq : first ++ read :: (before ++ installer :: between) =
        (first ++ read :: before ++ [installer]) ++ between := by simp
    rw [front_eq] at shorter ⊢
    rw [Run.view_over_unset registrations_set shorter never, storeAfter_concat,
      installs.lookup run]
    exact repeats _ _ _ installs _ use

/-- Duties always show the current registrations exactly when every batch that is
installed repeats those in use. -/
theorem duties_current_iff (run : RunFrom config config.init trace world) :
    AlwaysCurrent config trace ↔ BatchesRepeat config trace := by
  constructor
  · exact batchesRepeat_of_current run
  intro repeats front
  induction front using List.reverseRecOn with
  | nil =>
      intro later split
      apply dutiesCurrent_iff.mpr
      intro duty membership
      exact by cases membership
  | append_singleton front event inductionHypothesis =>
      intro later split
      rw [List.append_assoc, List.singleton_append] at split
      have before := dutiesCurrent_iff.mp (inductionHypothesis _ split)
      obtain ⟨executed, start⟩ := run.event_at front event later split
      have duties : event.after.proposerDuties =
          (dutiesSet? event.record).getD event.before.proposerDuties :=
        duties_set _ _ _ _ executed
      have registrations : event.after.validatorRegistrations =
          (registrationsSet? event.record).getD event.before.validatorRegistrations :=
        registrations_set _ _ _ _ executed
      rw [storeAfter_concat, dutiesCurrent_iff]
      intro duty membership
      rw [duties] at membership
      cases set : registrationsSet? event.record with
      | some collected =>
          rw [dutiesSet?_of_registrationsSet? set, Option.getD_none] at membership
          obtain ⟨batch, installs⟩ := installs_of_set run split set
          rw [CurrentDuty, installs.lookup run]
          exact repeats front event batch installs duty.entry (.onDuty membership)
      | none =>
          rw [set, Option.getD_none, start] at registrations
          rw [CurrentDuty, registrations]
          cases stores : dutiesSet? event.record with
          | some stored =>
              rw [stores, Option.getD_some] at membership
              exact stored_current run repeats split stores duty membership
          | none =>
              rw [stores, Option.getD_none, start] at membership
              exact before duty membership

end Runs

section Dropped

open Demo

attribute [local instance] standIn

theorem registeredTwice_current_iff :
    AlwaysCurrent config registeredTwice.trace ↔ BatchesRepeat config registeredTwice.trace :=
  duties_current_iff registeredTwice_run

/-- Validator 3 stays on duty although the batch of validator 4 has dropped its registration. -/
theorem dropped_validator_on_duty :
    RunFrom config config.init registeredTwice.trace registeredTwice.world ∧
      ¬ AlwaysCurrent config registeredTwice.trace := by
  refine ⟨registeredTwice_run, fun current => ?_⟩
  have listed : duty ∈ registeredTwice.world.store.proposerDuties := by decide +kernel
  have dropped : registeredTwice.world.store.validatorRegistrations.lookup duty.pubkey = none := by
    decide +kernel
  have held := current registeredTwice.trace [] (List.append_nil _).symm
  rw [← registeredTwice_run.store_eq] at held
  have shows := dutiesCurrent_iff.mp held duty listed
  rw [CurrentDuty, dropped] at shows
  cases shows

end Dropped

end MevRelay
