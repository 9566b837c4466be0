import MevRelay.Relay.Duties
import MevRelay.Relay.Registrations

/-!
# Registrations and duties are authentic

Every stored registration is signed by its validator and was posted with a
valid API key while the beacon node held the validator active.  Every stored
duty joins an assignment of the beacon node with a registration that was
stored under the assigned key.
-/

namespace MevRelay

open Concurrent

section Registrations

variable [Crates] {config : Config} {trace : List RelayEvent} {world : RelayWorld}

/-- A registration that its validator signed and some authorised batch carried
while the validator was active. -/
structure AuthenticRegistration (config : Config) (trace : List RelayEvent) (pubkey : BlsPublicKey)
    (registration : ValidatorRegistration) : Prop where
  own : registration.message.pubkey = pubkey
  signed : registration.signature.verify pubkey
    (signingRoot registration.message config.forkData.computeBuilderDomain) = true
  posted : ∃ event ∈ trace, ∃ apiKey batch, event.request = .postValidators apiKey batch ∧
    registration ∈ batch ∧
    (⟨.validateApiKey apiKey, true⟩ : Record Calls) ∈ past event.task trace ∧
    ∃ known : KnownValidatorResponse, known.isActive = true ∧
      (⟨.getKnownValidator pubkey, some known⟩ : Record Calls) ∈ past event.task trace

theorem AuthenticRegistration.mono {front later : List RelayEvent} {pubkey : BlsPublicKey}
    {registration : ValidatorRegistration}
    (authentic : AuthenticRegistration config front pubkey registration)
    (split : trace = front ++ later) : AuthenticRegistration config trace pubkey registration := by
  obtain ⟨event, membership, apiKey, batch, request, inside, authorised, known, active, answered⟩ :=
    authentic.posted
  have grown := past_subset split event.task
  exact ⟨authentic.own, authentic.signed, event, by simp [split, membership], apiKey, batch,
    request, inside, grown authorised, known, active, grown answered⟩

omit [Crates] in
theorem mem_knownValidators {past : List (Record Calls)} {pubkey : BlsPublicKey}
    {known : Option KnownValidatorResponse} (asked : (pubkey, known) ∈ knownValidators past) :
    (⟨.getKnownValidator pubkey, known⟩ : Record Calls) ∈ past := by
  simp only [knownValidators, List.mem_filterMap] at asked
  obtain ⟨record, membership, found⟩ := asked
  split at found
  case h_1 => cases found; exact membership
  case h_2 => cases found

/-- A valid entry of a batch belongs to a validator known to be active, and is signed by it. -/
theorem of_mem_validEntries {domain : Hash256} {registrations : List ValidatorRegistration}
    {known : List (BlsPublicKey × Option KnownValidatorResponse)}
    (asked : known.map Prod.fst = registrations.map fun entry => entry.message.pubkey)
    {pubkey : BlsPublicKey} {registration : ValidatorRegistration}
    (entry : (pubkey, registration) ∈ validEntries domain registrations known) :
    registration ∈ registrations ∧ registration.message.pubkey = pubkey ∧
      registration.signature.verify pubkey (signingRoot registration.message domain) = true ∧
      ∃ validator : KnownValidatorResponse, validator.isActive = true ∧
        (pubkey, some validator) ∈ known := by
  obtain ⟨⟨found, key, answer⟩, membership, same⟩ := List.mem_map.mp entry
  obtain ⟨rfl, rfl⟩ := Prod.ext_iff.mp same
  obtain ⟨paired, valid⟩ := List.mem_filter.mp membership
  obtain rfl : key = found.message.pubkey := (apply_eq_of_mem_zip asked.symm paired).symm
  simp only [Http.validEntry, Bool.and_eq_true, Option.any_eq_true] at valid
  obtain ⟨⟨validator, rfl, active⟩, signed⟩ := valid
  exact ⟨(List.of_mem_zip paired).1, rfl, signed, validator, active, (List.of_mem_zip paired).2⟩

theorem registration_authentic (run : RunFrom config config.init trace world)
    {pubkey : BlsPublicKey} {registration : ValidatorRegistration}
    (stored : world.store.validatorRegistrations.lookup pubkey = some registration) :
    AuthenticRegistration config trace pubkey registration := by
  rcases run.last_set registrations_set with ⟨unchanged, _⟩ | ⟨front, event, later, split, set, _⟩
  · rw [unchanged] at stored
    cases stored
  have allowed := run.outline_atCall (holds_handler config) split
  rw [show event.call = _ from of_registrationsSet? set] at allowed
  obtain ⟨apiKey, batch, forks, request, collected⟩ := outline_setValidatorRegistrations allowed
  obtain ⟨middle, shorter⟩ := run.prefix_run split
  obtain rfl : forks = config.forkData := forkData_read shorter collected.forkData
  rw [collected.entries, lookup_replay, Finmap.lookup_empty, Option.or_none] at stored
  obtain ⟨carried, own, signed, validator, active, asked⟩ :=
    of_mem_validEntries collected.asked (mem_of_lastWrite stored)
  have earlier := past_subset split event.task
  exact ⟨own, signed, event, by simp [split], apiKey, batch, request, carried,
    earlier collected.authorised, validator, active, earlier (mem_knownValidators asked)⟩

end Registrations

section Duties

variable [Crates] {config : Config} {trace : List RelayEvent} {world : RelayWorld}

/-- A duty that the beacon node assigned to some validator, with a registration
that was stored under the key of that validator when the duty was filtered. -/
def AuthenticDuty (config : Config) (trace : List RelayEvent) (duty : Validator) : Prop :=
  ∃ event ∈ trace, ∃ head epoch reply assigned pubkey,
    event.request = .refreshDuties head ∧
    (⟨.proposerDuties epoch, some reply⟩ : Record Calls) ∈ past event.task trace ∧
    assigned ∈ reply ∧ assigned.slot = duty.slot ∧ assigned.validatorIndex = duty.validatorIndex ∧
    (BlsPublicKey.ofBytes assigned.pubkey : Outcome Unit BlsPublicKey) = .ok pubkey ∧
    AtMoment trace event.task (.readValidatorRegistration pubkey) (fun store =>
      store.validatorRegistrations.lookup pubkey = some duty.entry) ∧
    AuthenticRegistration config trace pubkey duty.entry

/-- An entry of the filtered duties comes from a duty and the lookup made for it. -/
theorem of_mem_registeredOf {duties : List ProposerDutiesData} {lookups : Lookups}
    (lookedUp : LookedUpFor duties lookups) {duty : Validator}
    (membership : duty ∈ registeredOf duties lookups) :
    ∃ assigned ∈ duties, ∃ pubkey, assigned.slot = duty.slot ∧
      assigned.validatorIndex = duty.validatorIndex ∧
      (BlsPublicKey.ofBytes assigned.pubkey : Outcome Unit BlsPublicKey) = .ok pubkey ∧
      (pubkey, some duty.entry) ∈ lookups := by
  obtain ⟨⟨assigned, pubkey, answer⟩, paired, found⟩ := List.mem_filterMap.mp membership
  obtain ⟨registration, rfl, rfl⟩ := Option.map_eq_some_iff.mp found
  exact ⟨assigned, (List.of_mem_zip paired).1, pubkey, rfl, rfl,
    apply_eq_of_mem_zip lookedUp paired, (List.of_mem_zip paired).2⟩

/-- Every registration that was found belongs to an entry of the filtered duties. -/
theorem mem_registeredOf_of_lookup {duties : List ProposerDutiesData} {lookups : Lookups}
    (lookedUp : LookedUpFor duties lookups) {pubkey : BlsPublicKey}
    {registration : ValidatorRegistration} (found : (pubkey, some registration) ∈ lookups) :
    ∃ duty ∈ registeredOf duties lookups, duty.entry = registration := by
  rw [← List.map_snd_zip lookedUp.length_eq.ge] at found
  obtain ⟨⟨assigned, lookup⟩, paired, rfl⟩ := List.mem_map.mp found
  exact ⟨⟨assigned.slot, assigned.validatorIndex, registration⟩,
    List.mem_filterMap.mpr ⟨_, paired, rfl⟩, rfl⟩

theorem duty_authentic (run : RunFrom config config.init trace world) {duty : Validator}
    (stored : duty ∈ world.store.proposerDuties) : AuthenticDuty config trace duty := by
  rcases run.last_set duties_set with ⟨unchanged, _⟩ | ⟨front, event, later, split, set, _⟩
  · rw [unchanged] at stored
    cases stored
  obtain ⟨head, epoch, current, next, lookups, request, _, filtered, _⟩ :=
    setProposerDuties_event run split (of_dutiesSet? set)
  rw [filtered.registered] at stored
  obtain ⟨assigned, listed, pubkey, slot, index, decoded, found⟩ :=
    of_mem_registeredOf filtered.lookedUp stored
  have made := past_subset split event.task
  have looked : answered (.readValidatorRegistration pubkey) (some duty.entry) ∈
      past event.task front := by
    rw [filtered.calls]
    exact lookup_made_iff.mpr found
  have replied : ∃ epoch reply, (⟨.proposerDuties epoch, some reply⟩ : Record Calls) ∈
      past event.task front ∧ assigned ∈ reply := by
    rw [filtered.calls]
    rcases List.mem_append.mp listed with inCurrent | inNext
    · exact ⟨epoch, current, by simp [refreshCalls, repliesOf], inCurrent⟩
    · exact ⟨epoch + 1, next, by simp [refreshCalls, repliesOf], inNext⟩
  obtain ⟨asked, reply, answer, inReply⟩ := replied
  obtain ⟨read, membership, same, call, answered⟩ := read_event run (made looked)
  have moment : AtMoment trace event.task (.readValidatorRegistration pubkey) fun store =>
      store.validatorRegistrations.lookup pubkey = some duty.entry :=
    ⟨read, membership, same, call, answered.symm⟩
  obtain ⟨before, after, around⟩ := List.append_of_mem membership
  obtain ⟨middle, shorter, started⟩ := run.prefix_before around
  have authentic : AuthenticRegistration config before pubkey duty.entry := by
    apply registration_authentic shorter
    rw [started]
    exact answered.symm
  exact ⟨event, by simp [split], head, asked, reply, assigned, pubkey, request, made answer, inReply,
    slot, index, decoded, moment, authentic.mono around⟩

/-- In every reachable state every stored registration and every stored duty is authentic. -/
theorem registrations_and_duties_authentic (run : RunFrom config config.init trace world) :
    (∀ pubkey registration,
      world.store.validatorRegistrations.lookup pubkey = some registration →
      AuthenticRegistration config trace pubkey registration) ∧
    ∀ duty ∈ world.store.proposerDuties, AuthenticDuty config trace duty :=
  ⟨fun _ _ => registration_authentic run, fun _ => duty_authentic run⟩

end Duties

section Demo

open Demo

attribute [local instance] standIn

/-- The setup alone: one validator registers and is put on duty. -/
@[irreducible]
def installed : Played Calls Request Reply InMemoryStorage := play [] []

theorem installed_run : RunFrom config config.init installed.trace installed.world := by
  unfold installed
  exact playFrom_run _ _ _

theorem demo_registration_and_duty_authentic :
    AuthenticRegistration config installed.trace (pubkey 3) (registration 3) ∧
      AuthenticDuty config installed.trace duty := by
  obtain ⟨registrations, duties⟩ := registrations_and_duties_authentic installed_run
  exact ⟨registrations (pubkey 3) (registration 3) (by decide +kernel),
    duties duty (by decide +kernel)⟩

end Demo

end MevRelay
