import MevRelay.Relay.Authenticity
import MevRelay.Relay.Surroundings

/-!
# Registrations after a batch

What posting a batch of registrations leaves in the store, for any interleaving
of batches with each other and with everything else.
-/

namespace MevRelay

open Concurrent

section Batches

variable [Crates] {config : Config}

theorem outline_setValidatorRegistrations {request : Request} {past : List (Record Calls)}
    {collected : ValidatorRegistrations}
    (allowed : (outline config request).atCall past
      (.storage (.setValidatorRegistrations collected))) :
    ∃ apiKey batch forks, request = .postValidators apiKey batch ∧
      Collected past apiKey forks batch collected := by
  cases request
  case postValidators apiKey batch =>
    obtain ⟨forks, found⟩ := allowed
    exact ⟨apiKey, batch, forks, rfl, found⟩
  case submitBlock | postBids | getHeader | postBlindedBlocks | getBids | getValidators =>
    cases allowed.2
  all_goals cases allowed

/-- The entries of a batch that are valid by what a task has asked the beacon
node about them, in the order of the batch. -/
def validBy (config : Config) (trace : List RelayEvent) (task : Nat)
    (batch : List ValidatorRegistration) : List (BlsPublicKey × ValidatorRegistration) :=
  validEntries config.forkData.computeBuilderDomain batch (knownValidators (past task trace))

/-- A task installs the registrations of a batch. -/
structure Installs (trace front : List RelayEvent) (event : RelayEvent)
    (batch : List ValidatorRegistration) : Prop where
  split : ∃ later, trace = front ++ event :: later
  request : ∃ apiKey, event.request = .postValidators apiKey batch
  call : ∃ collected, event.call = .storage (.setValidatorRegistrations collected)

variable {trace front : List RelayEvent} {world : RelayWorld} {event : RelayEvent}
  {batch : List ValidatorRegistration}

theorem Installs.installed (installs : Installs trace front event batch)
    (run : RunFrom config config.init trace world) :
    (knownValidators (past event.task front)).map Prod.fst =
        batch.map (fun entry => entry.message.pubkey) ∧
      event.after.validatorRegistrations = replay ∅ (validBy config front event.task batch) := by
  obtain ⟨later, split⟩ := installs.split
  obtain ⟨apiKey, request⟩ := installs.request
  obtain ⟨collected, call⟩ := installs.call
  have allowed := run.outline_atCall (holds_handler config) split
  have membership : event ∈ trace := by simp [split]
  have executed := run.executed membership
  rw [call] at allowed
  obtain ⟨_, _, forks, same, found⟩ := outline_setValidatorRegistrations allowed
  rw [request] at same
  cases same
  obtain ⟨middle, shorter⟩ := run.prefix_run split
  obtain rfl : forks = config.forkData := forkData_read shorter found.forkData
  refine ⟨found.asked, ?_⟩
  rw [validBy, ← found.entries]
  obtain ⟨_, _, c, _, _, _⟩ := event
  cases call
  rw [(exec_storage.mp executed).2]
  rfl

/-- The registrations a call stores. -/
def registrationsSet? (record : Record Calls) : Option ValidatorRegistrations :=
  match record.1 with
  | .storage (.setValidatorRegistrations registrations) => some registrations
  | _ => none

omit [Crates] in
theorem of_registrationsSet? {record : Record Calls} {registrations : ValidatorRegistrations}
    (set : registrationsSet? record = some registrations) :
    record.1 = .storage (.setValidatorRegistrations registrations) := by
  simp only [registrationsSet?] at set
  split at set
  case h_1 call =>
    cases set
    exact call
  case h_2 => cases set

omit [Crates] in
theorem registrations_set :
    SetBy exec InMemoryStorage.validatorRegistrations registrationsSet? := by
  rintro (c | _ | _ | _ | _ | _) store answer after executed
  case storage => obtain ⟨rfl, rfl⟩ := exec_storage.mp executed; cases c <;> rfl
  all_goals cases executed; rfl

/-- Every batch overrides the registrations it finds by its valid entries, the
last one of each key, and no validator once registered is ever forgotten. -/
structure RegistrationsKept (config : Config) (trace : List RelayEvent) (world : RelayWorld) :
    Prop where
  overridden : ∀ front event batch, Installs trace front event batch → ∀ pubkey,
    event.after.validatorRegistrations.lookup pubkey =
      (lastWrite pubkey (validBy config front event.task batch)).or
        (event.before.validatorRegistrations.lookup pubkey)
  remembered : ∀ front later, trace = front ++ later → ∀ pubkey,
    pubkey ∈ (storeAfter config.init front).validatorRegistrations →
      pubkey ∈ world.store.validatorRegistrations

/-- Every batch that is installed has a valid entry for each validator already
registered. -/
def BatchesCover (config : Config) (trace : List RelayEvent) : Prop :=
  ∀ front event batch, Installs trace front event batch →
    ∀ pubkey ∈ event.before.validatorRegistrations,
      ∃ entry, (pubkey, entry) ∈ validBy config front event.task batch

theorem Installs.lookup (installs : Installs trace front event batch)
    (run : RunFrom config config.init trace world) (pubkey : BlsPublicKey) :
    event.after.validatorRegistrations.lookup pubkey =
      lastWrite pubkey (validBy config front event.task batch) := by
  rw [(installs.installed run).2, lookup_replay, Finmap.lookup_empty, Option.or_none]

theorem lastWrite_of_covered {pubkey : BlsPublicKey} {entry : ValidatorRegistration} {task : Nat}
    (covered : (pubkey, entry) ∈ validBy config front task batch) :
    ∃ last, lastWrite pubkey (validBy config front task batch) = some last := by
  apply Option.ne_none_iff_exists'.mp
  intro missing
  exact lastWrite_eq_none_iff.mp missing _ covered rfl

/-- Only batches replace the registrations. -/
theorem installs_of_set (run : RunFrom config config.init trace world) {later : List RelayEvent}
    (split : trace = front ++ event :: later) {registrations : ValidatorRegistrations}
    (set : registrationsSet? event.record = some registrations) :
    ∃ batch, Installs trace front event batch := by
  have call : event.call = .storage (.setValidatorRegistrations registrations) :=
    of_registrationsSet? set
  have allowed := run.outline_atCall (holds_handler config) split
  rw [call] at allowed
  obtain ⟨apiKey, batch, _, request, _⟩ := outline_setValidatorRegistrations allowed
  exact ⟨batch, ⟨later, split⟩, ⟨apiKey, request⟩, ⟨registrations, call⟩⟩

/-- With covering batches the set of registered validators never shrinks. -/
theorem registered_grows (run : RunFrom config config.init trace world)
    (covers : BatchesCover config trace) (membership : event ∈ trace) :
    {pubkey | pubkey ∈ event.before.validatorRegistrations} ⊆
      {pubkey | pubkey ∈ event.after.validatorRegistrations} := by
  intro pubkey registered
  cases set : registrationsSet? event.record with
  | some collected =>
    obtain ⟨front, later, split⟩ := List.append_of_mem membership
    obtain ⟨batch, installs⟩ := installs_of_set run split set
    obtain ⟨entry, covered⟩ := covers front event batch installs pubkey registered
    obtain ⟨last, found⟩ := lastWrite_of_covered covered
    exact Finmap.mem_of_lookup_eq_some ((installs.lookup run pubkey).trans found)
  | none =>
    have kept : event.after.validatorRegistrations =
        (registrationsSet? event.record).getD event.before.validatorRegistrations :=
      registrations_set _ _ _ _ (run.executed membership)
    rw [set, Option.getD_none] at kept
    show pubkey ∈ event.after.validatorRegistrations
    rw [kept]
    exact registered

/-- Registrations are kept in an interleaving exactly when every batch covers
the validators registered before it. -/
theorem registrations_kept_iff (run : RunFrom config config.init trace world) :
    RegistrationsKept config trace world ↔ BatchesCover config trace := by
  constructor
  · intro kept front event batch installs pubkey registered
    obtain ⟨stored, found⟩ := Finmap.mem_iff.mp registered
    have overridden := kept.overridden front event batch installs pubkey
    rw [installs.lookup run, found] at overridden
    cases last : lastWrite pubkey (validBy config front event.task batch) with
    | none =>
        rw [last] at overridden
        cases overridden
    | some entry => exact ⟨entry, mem_of_lastWrite last⟩
  · intro covers
    refine ⟨?_, ?_⟩
    · intro front event batch installs pubkey
      rw [installs.lookup run]
      cases last : lastWrite pubkey (validBy config front event.task batch) with
      | some entry => rfl
      | none =>
          cases stored : event.before.validatorRegistrations.lookup pubkey with
          | none => rfl
          | some registration =>
              obtain ⟨entry, covered⟩ := covers front event batch installs pubkey
                (Finmap.mem_of_lookup_eq_some stored)
              exact absurd rfl (lastWrite_eq_none_iff.mp last _ covered)
    · intro front later split pubkey registered
      have grown := run.monotone (fun store => {pubkey | pubkey ∈ store.validatorRegistrations})
        (fun event membership => registered_grows run covers membership) front later []
        (by simpa using split)
      rw [run.store_eq, split]
      exact grown registered

end Batches

section Forgetting

open Demo

attribute [local instance] standIn

/-- After the registration of validator 3, validator 4 registers. -/
@[irreducible]
def registeredTwice : Played Calls Request Reply InMemoryStorage :=
  play [.postValidators "" [registration 4]] (List.replicate 4 2)

theorem registeredTwice_run :
    RunFrom config config.init registeredTwice.trace registeredTwice.world := by
  unfold registeredTwice
  exact playFrom_run _ _ _

theorem registeredTwice_kept_iff :
    RegistrationsKept config registeredTwice.trace registeredTwice.world ↔
      BatchesCover config registeredTwice.trace :=
  registrations_kept_iff registeredTwice_run

/-- The second batch drops the validator of the first. -/
theorem first_registration_lost :
    RunFrom config config.init registeredTwice.trace registeredTwice.world ∧
      ¬ RegistrationsKept config registeredTwice.trace registeredTwice.world := by
  refine ⟨registeredTwice_run, fun kept => ?_⟩
  have before : pubkey 3 ∈
      (storeAfter config.init (registeredTwice.trace.take 9)).validatorRegistrations := by
    decide +kernel
  have lost : pubkey 3 ∉ registeredTwice.world.store.validatorRegistrations := by decide +kernel
  exact lost (kept.remembered (registeredTwice.trace.take 9) (registeredTwice.trace.drop 9)
    (List.take_append_drop 9 registeredTwice.trace).symm (pubkey 3) before)

end Forgetting

end MevRelay
