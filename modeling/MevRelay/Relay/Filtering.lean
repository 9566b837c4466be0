import MevRelay.Relay.Duties
import MevRelay.Relay.Surroundings

/-!
# What a refresh stores

A refresh that runs alone stores an entry for every duty whose proposer is
registered, in the order of the replies, or nothing at all.
-/

namespace MevRelay

open Concurrent

section Alone

variable [Crates]

def ProposerDutiesData.Decodes (duty : ProposerDutiesData) : Prop :=
  ∃ pubkey, (BlsPublicKey.ofBytes duty.pubkey : Outcome Unit BlsPublicKey) = .ok pubkey

/-- The registration stored for the proposer of a duty. -/
def InMemoryStorage.registrationFor (store : InMemoryStorage) (duty : ProposerDutiesData) :
    Option ValidatorRegistration :=
  match (BlsPublicKey.ofBytes duty.pubkey : Outcome Unit BlsPublicKey) with
  | .ok pubkey => store.validatorRegistrations.lookup pubkey
  | _ => none

/-- The entry for a duty, if its proposer is registered. -/
def InMemoryStorage.entryFor (store : InMemoryStorage) (duty : ProposerDutiesData) :
    Option Validator :=
  (store.registrationFor duty).map fun registration =>
    ⟨duty.slot, duty.validatorIndex, registration⟩

section Programs

variable {store after : InMemoryStorage} {duties : List ProposerDutiesData}
  {result : Outcome Unit (List Validator)}

theorem yields_registeredDuties (decodes : ∀ duty ∈ duties, duty.Decodes)
    {validators : List Validator} :
    Yields exec (registeredDuties duties validators) store result after ↔
      result = .ok (validators ++ duties.filterMap store.entryFor) ∧ after = store := by
  induction duties generalizing validators with
  | nil => simp [registeredDuties]
  | cons duty rest inductionHypothesis =>
      obtain ⟨pubkey, decoded⟩ := decodes duty List.mem_cons_self
      have others : ∀ duty ∈ rest, duty.Decodes :=
        fun duty membership => decodes duty (List.mem_cons_of_mem _ membership)
      have read : (StorageCall.readValidatorRegistration pubkey).apply store =
        (store.validatorRegistrations.lookup pubkey, store) := rfl
      have own : store.registrationFor duty = store.validatorRegistrations.lookup pubkey := by
        rw [InMemoryStorage.registrationFor, decoded]
      unfold registeredDuties
      simp only [decoded, Program.call_bind, Program.done_bind, yields_storage, read]
      cases registered : store.validatorRegistrations.lookup pubkey with
      | none =>
          simp only [inductionHypothesis others]
          simp [InMemoryStorage.entryFor, own, registered]
      | some registration =>
          simp only [inductionHypothesis others]
          simp [InMemoryStorage.entryFor, own, registered]

theorem yields_intoDuties (decodes : ∀ duty ∈ duties, duty.Decodes) :
    Yields exec (intoDuties duties) store result after ↔
      result = .ok (duties.filterMap store.entryFor) ∧ after = store := by
  have read : StorageCall.emptyValidatorRegs.apply store =
    (decide (store.validatorRegistrations = ∅), store) := rfl
  simp only [intoDuties, Program.call_bind, Program.done_bind, yields_storage, read]
  by_cases empty : store.validatorRegistrations = ∅
  · have nobody : duties.filterMap store.entryFor = [] := by
      apply List.filterMap_eq_nil_iff.mpr
      intro duty membership
      obtain ⟨pubkey, decoded⟩ := decodes duty membership
      simp [InMemoryStorage.entryFor, InMemoryStorage.registrationFor, decoded, empty]
    simp [empty, nobody]
  · simp only [empty, decide_false, Bool.false_eq_true, if_false]
    exact yields_registeredDuties decodes

end Programs

/-- The duties of both replies, those of the current epoch first. -/
def listedIn (current next : Option (List ProposerDutiesData)) : List ProposerDutiesData :=
  current.getD [] ++ next.getD []

/-- The store after a refresh with the given replies. -/
def InMemoryStorage.refreshed (store : InMemoryStorage)
    (current next : Option (List ProposerDutiesData)) : InMemoryStorage :=
  if current.isSome && next.isSome then
    match (listedIn current next).filterMap store.entryFor with
    | [] => store
    | duties => store.setProposerDuties duties
  else store

section Replies

variable {store after : InMemoryStorage} {slotsPerEpoch epoch : UInt64} {head : HeadSlot}
  {current next : Option (List ProposerDutiesData)} {rest : List (Record Calls)}
  {outcome : Outcome Unit Unit}

theorem refreshed_of_exec
    (executed : Exec exec (refreshDuties slotsPerEpoch head) store
      (repliesOf epoch current next ++ rest) outcome after)
    (decodes : ∀ duty ∈ listedIn current next, duty.Decodes) :
    after = store.refreshed current next := by
  unfold refreshDuties at executed
  cases asked : (head.epoch slotsPerEpoch : Outcome Unit UInt64) with
  | panicked =>
      rw [asked] at executed
      cases executed
  | err error =>
      rw [asked] at executed
      cases executed
  | ok own =>
  simp only [asked, Program.call_bind, Program.done_bind, repliesOf, List.cons_append,
    List.nil_append, exec_call_iff] at executed
  obtain ⟨first, middle, _, unchanged, split, second, last, _, alike, remaining, later⟩ := executed
  obtain rfl : middle = store := unchanged
  obtain rfl : last = middle := alike
  subst remaining
  cases split
  cases current with
  | none =>
      cases later
      rfl
  | some current =>
  cases next with
  | none =>
      cases later
      rfl
  | some next =>
  dsimp only at later
  have yields : Yields exec _ last outcome after := ⟨_, later⟩
  rw [yields_bind_iff] at yields
  obtain ⟨duties, store, filtered, ends⟩ := yields
  obtain ⟨rfl, rfl⟩ := (yields_intoDuties decodes).mp filtered
  unfold InMemoryStorage.refreshed
  simp only [Option.isSome_some, Bool.and_self, if_true]
  cases found : (listedIn (some current) (some next)).filterMap store.entryFor with
  | nil =>
      rw [found] at ends
      exact (yields_done_iff.mp ends).2
  | cons duty others =>
      rw [found] at ends
      dsimp only at ends
      rw [if_neg (List.cons_ne_nil _ _), yields_storage] at ends
      exact (yields_done_iff.mp ends).2

/-- The stored duties are an entry for each registered duty of a list, in its
order, and the first one for a slot counts. -/
structure RefreshedTo (store after : InMemoryStorage) (duties : List ProposerDutiesData) :
    Prop where
  listed : after.proposerDuties = duties.filterMap store.entryFor
  covered : ∀ slot, (after.findDutyBySlot slot).isSome = true ↔
    ∃ duty ∈ duties, duty.slot = slot ∧ (store.registrationFor duty).isSome = true
  first : ∀ slot validator, after.findDutyBySlot slot = some validator ↔
    ∃ earlier duty later registration, duties = earlier ++ duty :: later ∧ duty.slot = slot ∧
      store.registrationFor duty = some registration ∧
      (∀ other ∈ earlier, other.slot = slot → store.registrationFor other = none) ∧
      validator = ⟨slot, duty.validatorIndex, registration⟩

/-- A refresh changes nothing but the duties.  It leaves these alone if a reply
is missing or no listed proposer is registered, and otherwise replaces them. -/
structure ExactRefresh (store after : InMemoryStorage)
    (current next : Option (List ProposerDutiesData)) : Prop where
  frame : after = { store with proposerDuties := after.proposerDuties }
  unchanged : current = none ∨ next = none ∨
      (∀ duty ∈ listedIn current next, store.registrationFor duty = none) →
    after.proposerDuties = store.proposerDuties
  replaced : current.isSome = true → next.isSome = true →
    (∃ duty ∈ listedIn current next, (store.registrationFor duty).isSome = true) →
    RefreshedTo store after (listedIn current next)

theorem entryFor_isSome {duty : ProposerDutiesData} :
    (store.entryFor duty).isSome = (store.registrationFor duty).isSome := by
  rw [InMemoryStorage.entryFor, Option.isSome_map]

theorem refreshed_eq_of_registered (answered : current.isSome = true ∧ next.isSome = true)
    (registered : ∃ duty ∈ listedIn current next, (store.registrationFor duty).isSome = true) :
    store.refreshed current next =
      store.setProposerDuties ((listedIn current next).filterMap store.entryFor) := by
  unfold InMemoryStorage.refreshed
  rw [answered.1, answered.2]
  cases found : (listedIn current next).filterMap store.entryFor with
  | nil =>
      obtain ⟨duty, listed, isRegistered⟩ := registered
      rw [← entryFor_isSome, List.filterMap_eq_nil_iff.mp found duty listed] at isRegistered
      cases isRegistered
  | cons duty others => rfl

theorem refreshed_eq_self (idle : current = none ∨ next = none ∨
      (∀ duty ∈ listedIn current next, store.registrationFor duty = none)) :
    store.refreshed current next = store := by
  unfold InMemoryStorage.refreshed
  rcases idle with rfl | rfl | nobody
  · rfl
  · rw [Option.isSome_none, Bool.and_false, if_neg Bool.false_ne_true]
  · have nothing : (listedIn current next).filterMap store.entryFor = [] := by
      apply List.filterMap_eq_nil_iff.mpr
      intro duty listed
      rw [InMemoryStorage.entryFor, nobody duty listed, Option.map_none]
    rw [nothing]
    exact ite_self store

/-- The first entry for a slot is that of the first registered duty for it. -/
theorem find_entryFor {duties : List ProposerDutiesData} {slot : UInt64} {validator : Validator} :
    (duties.filterMap store.entryFor).find? (fun entry => entry.slot = slot) = some validator ↔
      ∃ earlier duty later registration, duties = earlier ++ duty :: later ∧ duty.slot = slot ∧
        store.registrationFor duty = some registration ∧
        (∀ other ∈ earlier, other.slot = slot → store.registrationFor other = none) ∧
        validator = ⟨slot, duty.validatorIndex, registration⟩ := by
  have shown : ∀ duty : ProposerDutiesData,
      ((store.entryFor duty).any fun entry => entry.slot = slot) = true ↔
        duty.slot = slot ∧ ∃ registration, store.registrationFor duty = some registration := by
    intro duty
    cases found : store.registrationFor duty <;> simp [InMemoryStorage.entryFor, found]
  rw [List.find?_filterMap, Option.bind_eq_some_iff]
  constructor
  · rintro ⟨duty, first, made⟩
    obtain ⟨shows, earlier, later, split, others⟩ := List.find?_eq_some_iff_append.mp first
    obtain ⟨rfl, registration, found⟩ := (shown duty).mp shows
    refine ⟨earlier, duty, later, registration, split, rfl, found, ?_, ?_⟩
    · intro other before same
      by_contra registered
      have hidden := others other before
      rw [(shown other).mpr ⟨same, Option.ne_none_iff_exists'.mp registered⟩] at hidden
      cases hidden
    · rw [InMemoryStorage.entryFor, found] at made
      exact (Option.some.inj made).symm
  · rintro ⟨earlier, duty, later, registration, split, rfl, found, others, rfl⟩
    refine ⟨duty, List.find?_eq_some_iff_append.mpr ⟨?_, earlier, later, split, ?_⟩, ?_⟩
    · exact (shown duty).mpr ⟨rfl, registration, found⟩
    · intro other before
      rw [Bool.not_eq_true', ← Bool.not_eq_true, shown]
      rintro ⟨same, _, registered⟩
      rw [others other before same] at registered
      cases registered
    · rw [InMemoryStorage.entryFor, found, Option.map_some]

theorem refreshedTo_of_listed {duties : List ProposerDutiesData}
    (listed : after.proposerDuties = duties.filterMap store.entryFor) :
    RefreshedTo store after duties where
  listed := listed
  covered := by
    intro slot
    rw [InMemoryStorage.findDutyBySlot, listed, List.find?_isSome]
    constructor
    · rintro ⟨entry, membership, own⟩
      obtain ⟨duty, inside, made⟩ := List.mem_filterMap.mp membership
      obtain ⟨registration, found, rfl⟩ := Option.map_eq_some_iff.mp made
      exact ⟨duty, inside, of_decide_eq_true own, by rw [found]; rfl⟩
    · rintro ⟨duty, inside, own, registered⟩
      rw [← entryFor_isSome] at registered
      obtain ⟨entry, made⟩ := Option.isSome_iff_exists.mp registered
      refine ⟨entry, List.mem_filterMap.mpr ⟨duty, inside, made⟩, decide_eq_true ?_⟩
      obtain ⟨registration, _, rfl⟩ := Option.map_eq_some_iff.mp made
      exact own
  first := by
    intro slot validator
    rw [InMemoryStorage.findDutyBySlot, listed]
    exact find_entryFor

/-- Whatever was stored before and whatever the replies are, a refresh is exact. -/
theorem refresh_exact
    (executed : Exec exec (refreshDuties slotsPerEpoch head) store
      (repliesOf epoch current next ++ rest) outcome after)
    (decodes : ∀ duty ∈ listedIn current next, duty.Decodes) :
    ExactRefresh store after current next := by
  have refreshed := refreshed_of_exec executed decodes
  constructor
  · rw [refreshed]
    unfold InMemoryStorage.refreshed
    split
    · split <;> rfl
    · rfl
  · intro idle
    rw [refreshed, refreshed_eq_self idle]
  · intro first second registered
    apply refreshedTo_of_listed
    rw [refreshed, refreshed_eq_of_registered ⟨first, second⟩ registered]
    rfl

end Replies

end Alone

section Demo

open Demo

attribute [local instance] standIn

/-- In epoch 0 slot 1 is listed for validators 4, 3 and 5, in epoch 1 a slot each
for 4 and 5. -/
def contested (epoch : UInt64) : List ProposerDutiesData :=
  if epoch = 0 then
    [⟨1, (pubkey 4).serialize, 6⟩, ⟨1, (pubkey 3).serialize, 7⟩, ⟨1, (pubkey 5).serialize, 8⟩]
  else [⟨32, (pubkey 4).serialize, 6⟩, ⟨33, (pubkey 5).serialize, 8⟩]

def competing : Surroundings :=
  { surroundings with proposerDuties := fun epoch => some (contested epoch) }

/-- The duty of validator 3 is stored, and then validator 5 registers as well. -/
def settled : InMemoryStorage := (serve [.postValidators "" [registration 3, registration 5]]).2

/-- The calls of a refresh at slot 0 with the contested duties, its outcome and
the store it leaves. -/
def refreshing : List (Record Calls) × Outcome Unit Unit × InMemoryStorage :=
  competing.responder.evaluate (refreshDuties 32 ⟨0⟩) settled

theorem contested_decodes :
    ∀ duty ∈ listedIn (some (contested 0)) (some (contested 1)), duty.Decodes := by
  have known : ∀ duty ∈ listedIn (some (contested 0)) (some (contested 1)),
      ∃ number ∈ [3, 4, 5],
        (BlsPublicKey.ofBytes duty.pubkey : Outcome Unit BlsPublicKey) = .ok (pubkey number) := by
    decide +kernel
  intro duty listed
  obtain ⟨number, _, decoded⟩ := known duty listed
  exact ⟨pubkey number, decoded⟩

/-- Validator 4 is passed over, and of the two others the first is on duty. -/
theorem contested_refresh_exact :
    ExactRefresh settled refreshing.2.2 (some (contested 0)) (some (contested 1)) ∧
      refreshing.2.2.proposerDuties =
        [⟨1, 7, registration 3⟩, ⟨1, 8, registration 5⟩, ⟨33, 8, registration 5⟩] ∧
      refreshing.2.2.findDutyBySlot 1 = some ⟨1, 7, registration 3⟩ := by
  refine ⟨?_, by decide +kernel, by decide +kernel⟩
  have split : refreshing.1 =
      repliesOf 0 (some (contested 0)) (some (contested 1)) ++ refreshing.1.drop 2 := rfl
  have executed : Exec exec (refreshDuties 32 ⟨0⟩) settled refreshing.1 refreshing.2.1
      refreshing.2.2 :=
    competing.responder.evaluate_exec _ _
  rw [split] at executed
  exact refresh_exact executed contested_decodes

end Demo

end MevRelay
