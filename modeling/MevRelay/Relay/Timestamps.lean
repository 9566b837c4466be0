import MevRelay.Relay.Registrations

/-!
# Which registration of a validator is stored

A batch decides by its last valid entry for a key, and no code compares the
timestamps of registrations.
-/

namespace MevRelay

open Concurrent

section Batches

variable [Crates] {config : Config} {trace front later : List RelayEvent} {world : RelayWorld}
  {event : RelayEvent} {batch : List ValidatorRegistration} {pubkey : BlsPublicKey}

/-- A registration has been accepted: it is a valid entry of a batch that was installed. -/
def AcceptedFor (config : Config) (trace : List RelayEvent) (pubkey : BlsPublicKey)
    (entry : ValidatorRegistration) : Prop :=
  ∃ front event batch, Installs trace front event batch ∧
    (pubkey, entry) ∈ validBy config front event.task batch

/-- In every state the registered validators are those with a valid entry in the
batch installed last, and the last such entry is the one stored. -/
def LastStored (config : Config) (trace : List RelayEvent) : Prop :=
  ∀ front later, trace = front ++ later →
    (storeAfter config.init front).validatorRegistrations = ∅ ∧
        (∀ other ∈ front, registrationsSet? other.record = none) ∨
      ∃ earlier event rest batch, front = earlier ++ event :: rest ∧
        Installs front earlier event batch ∧
        (∀ other ∈ rest, registrationsSet? other.record = none) ∧
        ∀ pubkey, (storeAfter config.init front).validatorRegistrations.lookup pubkey =
          lastWrite pubkey (validBy config earlier event.task batch)

/-- No registration is ever replaced by an older one, and the one stored has the
largest timestamp of all that have been accepted for its key. -/
structure LatestWins (config : Config) (trace : List RelayEvent) : Prop where
  replaced : ∀ front event later, trace = front ++ event :: later → ∀ pubkey earlier next,
    event.before.validatorRegistrations.lookup pubkey = some earlier →
    event.after.validatorRegistrations.lookup pubkey = some next →
    earlier.message.timestamp ≤ next.message.timestamp
  greatest : ∀ front later, trace = front ++ later → ∀ pubkey stored,
    (storeAfter config.init front).validatorRegistrations.lookup pubkey = some stored →
    AcceptedFor config front pubkey stored ∧ ∀ entry, AcceptedFor config front pubkey entry →
      entry.message.timestamp ≤ stored.message.timestamp

/-- In every installed batch the last valid entry of a key is at least as new as
all that have been accepted for the key in this batch or before. -/
def BatchesAdvance (config : Config) (trace : List RelayEvent) : Prop :=
  ∀ front event batch, Installs trace front event batch → ∀ pubkey last,
    lastWrite pubkey (validBy config front event.task batch) = some last →
    ∀ entry, AcceptedFor config (front ++ [event]) pubkey entry →
      entry.message.timestamp ≤ last.message.timestamp

omit [Crates] in
theorem Installs.set (installs : Installs trace front event batch) :
    (registrationsSet? event.record).isSome = true := by
  obtain ⟨collected, call⟩ := installs.call
  simp only [registrationsSet?, Event.record, call, Option.isSome_some]

omit [Crates] in
/-- Whether a batch is installed does not depend on what comes later. -/
theorem Installs.of_append (installs : Installs trace front event batch) (later : List RelayEvent) :
    Installs (trace ++ later) front event batch := by
  obtain ⟨rest, rfl⟩ := installs.split
  exact ⟨⟨rest ++ later, by simp⟩, installs.request, installs.call⟩

omit [Crates] in
/-- No batch is installed by events that set no registrations. -/
theorem Installs.of_append_unset {rest : List RelayEvent}
    (installs : Installs (trace ++ rest) front event batch)
    (never : ∀ other ∈ rest, registrationsSet? other.record = none) :
    Installs trace front event batch := by
  obtain ⟨later, split⟩ := installs.split
  have elsewhere : event ∉ rest := by
    intro membership
    have set := installs.set
    rw [never event membership] at set
    cases set
  rcases List.append_eq_append_iff.mp split with ⟨between, _, rest_eq⟩ | ⟨between, split, event_eq⟩
  · exact (elsewhere (by simp [rest_eq])).elim
  · cases between with
    | nil =>
        rw [List.nil_append] at event_eq
        exact (elsewhere (by simp [← event_eq])).elim
    | cons first between =>
        obtain ⟨rfl, _⟩ := List.cons.inj event_eq
        exact ⟨⟨between, split⟩, installs.request, installs.call⟩

/-- What was accepted is accepted for good. -/
theorem AcceptedFor.of_append {entry : ValidatorRegistration}
    (accepted : AcceptedFor config trace pubkey entry) (later : List RelayEvent) :
    AcceptedFor config (trace ++ later) pubkey entry := by
  obtain ⟨front, event, batch, installs, valid⟩ := accepted
  exact ⟨front, event, batch, installs.of_append later, valid⟩

theorem AcceptedFor.of_append_unset {rest : List RelayEvent} {entry : ValidatorRegistration}
    (accepted : AcceptedFor config (trace ++ rest) pubkey entry)
    (never : ∀ other ∈ rest, registrationsSet? other.record = none) :
    AcceptedFor config trace pubkey entry := by
  obtain ⟨front, event, batch, installs, valid⟩ := accepted
  exact ⟨front, event, batch, installs.of_append_unset never, valid⟩

/-- The last valid entry for a key in the batch installed last is the one stored. -/
theorem last_stored (run : RunFrom config config.init trace world) : LastStored config trace := by
  rintro front later rfl
  obtain ⟨middle, shorter⟩ := run.prefix_run rfl
  rcases shorter.last_set registrations_set with ⟨kept, never⟩ |
    ⟨earlier, event, rest, rfl, set, never⟩
  · exact .inl ⟨shorter.store_eq ▸ kept, never⟩
  · obtain ⟨batch, installs⟩ := installs_of_set shorter rfl set
    refine .inr ⟨earlier, event, rest, batch, rfl, installs, never, fun pubkey => ?_⟩
    rw [← installs.lookup shorter]
    rw [List.append_cons] at shorter ⊢
    rw [Run.view_over_unset registrations_set shorter never, storeAfter_concat]

/-- What is stored has been accepted. -/
theorem accepted_of_stored (run : RunFrom config config.init trace world)
    (split : trace = front ++ later) {stored : ValidatorRegistration}
    (found : (storeAfter config.init front).validatorRegistrations.lookup pubkey = some stored) :
    AcceptedFor config front pubkey stored := by
  rcases last_stored run front later split with ⟨empty, _⟩ |
    ⟨earlier, event, rest, batch, rfl, installs, _, stores⟩
  · rw [empty, Finmap.lookup_empty] at found
    cases found
  · rw [stores] at found
    exact ⟨earlier, event, batch, installs, mem_of_lastWrite found⟩

/-- If batches advance, what is stored is at least as new as all that was accepted. -/
theorem greatest_of_advance (run : RunFrom config config.init trace world)
    (advance : BatchesAdvance config trace) (split : trace = front ++ later)
    {stored entry : ValidatorRegistration}
    (found : (storeAfter config.init front).validatorRegistrations.lookup pubkey = some stored)
    (accepted : AcceptedFor config front pubkey entry) :
    entry.message.timestamp ≤ stored.message.timestamp := by
  rcases last_stored run front later split with ⟨empty, _⟩ |
    ⟨earlier, event, rest, batch, rfl, installs, never, stores⟩
  · rw [empty, Finmap.lookup_empty] at found
    cases found
  · rw [stores] at found
    rw [List.append_cons] at accepted
    refine advance earlier event batch ?_ pubkey stored found entry
      (accepted.of_append_unset never)
    rw [split]
    exact installs.of_append later

/-- The stored registration of a validator is the last one accepted, whatever the
timestamps, and it is always the newest one exactly when batches advance. -/
theorem last_registration_stored (run : RunFrom config config.init trace world) :
    LastStored config trace ∧ (LatestWins config trace ↔ BatchesAdvance config trace) := by
  refine ⟨last_stored run, ?_, ?_⟩
  · intro wins front event batch installs pubkey last isLast entry accepted
    obtain ⟨later, split⟩ := installs.split
    have whole : trace = front ++ [event] ++ later := by simp [split]
    refine (wins.greatest _ later whole pubkey last ?_).2 entry accepted
    rw [storeAfter_concat, installs.lookup run, isLast]
  · intro advance
    refine ⟨?_, ?_⟩
    · intro front event later split pubkey earlier next before after
      have whole : trace = front ++ [event] ++ later := by simp [split]
      rw [(run.event_at front event later split).2] at before
      have accepted := (accepted_of_stored run split before).of_append [event]
      refine greatest_of_advance run advance whole ?_ accepted
      rw [storeAfter_concat, after]
    · intro front later split pubkey stored found
      exact ⟨accepted_of_stored run split found,
        fun entry accepted => greatest_of_advance run advance split found accepted⟩

end Batches

section Replay

open Demo

attribute [local instance] standIn

/-- A registration of validator 3, signed. -/
def registrationAt (timestamp : UInt64) (feeRecipient : UInt8) : ValidatorRegistration :=
  let message : ValidatorRegistrationMessage :=
    ⟨⟨.replicate feeRecipient⟩, 30000000, timestamp, pubkey 3⟩
  ⟨message, signWith (secretKey 3) config.forkData.computeBuilderDomain message⟩

/-- Validator 3 registers anew, and then its earlier registration is posted. -/
@[irreducible]
def replayed : Played Calls Request Reply InMemoryStorage :=
  play [.postValidators "" [registrationAt 2 1], .postValidators "" [registrationAt 1 2]]
    (List.replicate 4 2 ++ List.replicate 4 3)

theorem replayed_run : RunFrom config config.init replayed.trace replayed.world := by
  unfold replayed
  exact playFrom_run _ _ _

theorem replayed_last_stored :
    LastStored config replayed.trace ∧
      (LatestWins config replayed.trace ↔ BatchesAdvance config replayed.trace) :=
  last_registration_stored replayed_run

/-- The timestamps of validator 3 before and after the event with the given number. -/
def timestampsAt (number : Nat) : Option (Option UInt64 × Option UInt64) :=
  replayed.trace[number]?.map fun event =>
    ((event.before.validatorRegistrations.lookup (pubkey 3)).map fun entry => entry.message.timestamp,
      (event.after.validatorRegistrations.lookup (pubkey 3)).map fun entry => entry.message.timestamp)

/-- The registration with timestamp 2 is replaced by the one with timestamp 1. -/
theorem old_registration_restored :
    RunFrom config config.init replayed.trace replayed.world ∧
      ¬ LatestWins config replayed.trace := by
  refine ⟨replayed_run, fun wins => ?_⟩
  have stamps : timestampsAt 16 = some (some 2, some 1) := by decide +kernel
  obtain ⟨event, found, same⟩ := Option.map_eq_some_iff.mp stamps
  obtain ⟨front, later, split⟩ := List.append_of_mem (List.mem_of_getElem? found)
  obtain ⟨before, after⟩ := Prod.mk.inj same
  obtain ⟨earlier, held, two⟩ := Option.map_eq_some_iff.mp before
  obtain ⟨next, stored, one⟩ := Option.map_eq_some_iff.mp after
  have rises := wins.replaced front event later split (pubkey 3) earlier next held stored
  rw [two, one] at rises
  exact absurd rises (by decide)

end Replay

end MevRelay
