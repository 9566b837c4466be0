import MevRelay.Relay.Outlines

/-!
# Outlines of duty refreshes

What a refresh has asked for and what it stores, exactly, and that no other
handler stores duties.
-/

namespace MevRelay

open Concurrent

/-- Lists with equal images pair elements with equal images. -/
theorem apply_eq_of_mem_zip {First Second Image : Type} {f : First → Image} {g : Second → Image}
    {firsts : List First} {seconds : List Second} (same : firsts.map f = seconds.map g)
    {first : First} {second : Second} (paired : (first, second) ∈ firsts.zip seconds) :
    f first = g second := by
  induction firsts generalizing seconds with
  | nil => cases paired
  | cons head firsts inductionHypothesis =>
      cases seconds with
      | nil => cases paired
      | cons other seconds =>
          obtain ⟨heads, tails⟩ := List.cons.inj same
          rcases List.mem_cons.mp paired with here | inside
          · cases here
            exact heads
          · exact inductionHypothesis tails inside

/-- Registrations that were looked up, with the keys asked for. -/
abbrev Lookups := List (BlsPublicKey × Option ValidatorRegistration)

/-- The calls that look the registrations up. -/
def lookupCalls (lookups : Lookups) : List (Record Calls) :=
  lookups.map fun lookup => answered (.readValidatorRegistration lookup.1) lookup.2

/-- The duties of those validators whose registration was found, in order. -/
def registeredOf (duties : List ProposerDutiesData) (lookups : Lookups) : List Validator :=
  (duties.zip lookups).filterMap fun entry =>
    entry.2.2.map fun registration => ⟨entry.1.slot, entry.1.validatorIndex, registration⟩

theorem registeredOf_concat {duties : List ProposerDutiesData} {lookups : Lookups}
    (same : duties.length = lookups.length) (duty : ProposerDutiesData)
    (lookup : BlsPublicKey × Option ValidatorRegistration) :
    registeredOf (duties ++ [duty]) (lookups ++ [lookup]) =
      registeredOf duties lookups ++
        (lookup.2.map fun registration =>
          (⟨duty.slot, duty.validatorIndex, registration⟩ : Validator)).toList := by
  rw [registeredOf, List.zip_append same, List.filterMap_append]
  obtain ⟨pubkey, answer⟩ := lookup
  cases answer <;> rfl

/-- The calls that move the head, start a refresh or store duties. -/
def Call.steersDuties : Call → Bool
  | .storage (.setHeadSlot _) | .storage (.setProposerDuties _) | .spawnRefresh _ => true
  | _ => false

theorem Call.kind_of_steersDuties {c : Call} (steers : c.steersDuties = true) :
    c.kind = .head ∨ c.kind = .duties := by
  rcases c with c | _ | _ | _ | _ | _
  case storage => cases c <;> first | exact .inl rfl | exact .inr rfl | cases steers
  all_goals first | exact .inl rfl | cases steers

/-- Outlines of handlers that have nothing to do with duties. -/
def steadyOutline {Result : Type} : Outline Calls Result where
  atCall _ c := c.steersDuties = false
  atResult _ _ := True

/-- The outline of head events: the slot is stored, and every 32 slots a refresh
is started. -/
def headOutline (slot : UInt64) : Outline Calls Unit where
  atCall past c :=
    match c with
    | .storage (.setHeadSlot head) => past = [] ∧ head = ⟨slot⟩
    | .spawnRefresh head =>
        past = [answered (.setHeadSlot ⟨slot⟩) ()] ∧ head = ⟨slot⟩ ∧ slot % 32 = 0
    | _ => False
  atResult past _ := past = answered (.setHeadSlot ⟨slot⟩) () ::
    if slot % 32 = 0 then [⟨.spawnRefresh ⟨slot⟩, ()⟩] else []

variable [Crates]

/-- The registrations were looked up under the keys of the duties, in order. -/
def LookedUpFor (duties : List ProposerDutiesData) (lookups : Lookups) : Prop :=
  duties.map (fun duty => (BlsPublicKey.ofBytes duty.pubkey : Outcome Unit BlsPublicKey)) =
    lookups.map fun lookup => .ok lookup.1

theorem LookedUpFor.length_eq {duties : List ProposerDutiesData} {lookups : Lookups}
    (lookedUp : LookedUpFor duties lookups) : duties.length = lookups.length := by
  simpa using congrArg List.length lookedUp

theorem LookedUpFor.concat {duties : List ProposerDutiesData} {lookups : Lookups}
    (lookedUp : LookedUpFor duties lookups) {duty : ProposerDutiesData} {pubkey : BlsPublicKey}
    (decoded : (BlsPublicKey.ofBytes duty.pubkey : Outcome Unit BlsPublicKey) = .ok pubkey)
    (answer : Option ValidatorRegistration) :
    LookedUpFor (duties ++ [duty]) (lookups ++ [(pubkey, answer)]) := by
  simp only [LookedUpFor, List.map_append, List.map_cons, List.map_nil, decoded]
  rw [show _ = _ from lookedUp]

/-- The replies a refresh of an epoch has got. -/
def repliesOf (epoch : UInt64) (current next : Option (List ProposerDutiesData)) :
    List (Record Calls) :=
  [⟨.proposerDuties epoch, current⟩, ⟨.proposerDuties (epoch + 1), next⟩]

/-- The calls of a refresh up to the last lookup. -/
def refreshCalls (epoch : UInt64) (current next : List ProposerDutiesData) (lookups : Lookups) :
    List (Record Calls) :=
  repliesOf epoch (some current) (some next) ++ [answered .emptyValidatorRegs false] ++
    lookupCalls lookups

omit [Crates] in
theorem lookup_made_iff {epoch : UInt64} {current next : List ProposerDutiesData}
    {lookups : Lookups} {pubkey : BlsPublicKey} {answer : Option ValidatorRegistration} :
    answered (.readValidatorRegistration pubkey) answer ∈ refreshCalls epoch current next lookups ↔
      (pubkey, answer) ∈ lookups := by
  constructor
  · intro made
    rcases List.mem_append.mp made with asked | looked
    · simp [repliesOf] at asked
    · obtain ⟨⟨key, found⟩, membership, same⟩ := List.mem_map.mp looked
      cases same
      exact membership
  · intro membership
    exact List.mem_append_right _ (List.mem_map.mpr ⟨_, membership, rfl⟩)

/-- A refresh has got both replies and has filtered them down to the given duties. -/
structure Filtered (past : List (Record Calls)) (epoch : UInt64)
    (current next : List ProposerDutiesData) (lookups : Lookups) (duties : List Validator) :
    Prop where
  calls : past = refreshCalls epoch current next lookups
  lookedUp : LookedUpFor (current ++ next) lookups
  registered : duties = registeredOf (current ++ next) lookups

/-- The epoch that a refresh for a head asks for first. -/
def EpochOf (slotsPerEpoch : UInt64) (head : HeadSlot) (epoch : UInt64) : Prop :=
  (head.epoch slotsPerEpoch : Outcome Unit UInt64) = .ok epoch

/-- How a refresh ends, in terms of all its calls. -/
inductive RefreshEnded (slotsPerEpoch : UInt64) (head : HeadSlot) :
    List (Record Calls) → Outcome Unit Unit → Prop where
  | noEpoch : slotsPerEpoch = 0 → RefreshEnded slotsPerEpoch head [] .panicked
  | unanswered {epoch current next} : EpochOf slotsPerEpoch head epoch →
      current = none ∨ next = none →
      RefreshEnded slotsPerEpoch head (repliesOf epoch current next) (.err ())
  | unregistered {epoch current next} : EpochOf slotsPerEpoch head epoch →
      RefreshEnded slotsPerEpoch head
        (repliesOf epoch (some current) (some next) ++ [answered .emptyValidatorRegs true]) (.ok ())
  | undecodable {epoch current next seen duty rest lookups} : EpochOf slotsPerEpoch head epoch →
      current ++ next = seen ++ duty :: rest → LookedUpFor seen lookups →
      (BlsPublicKey.ofBytes duty.pubkey : Outcome Unit BlsPublicKey) = .panicked →
      RefreshEnded slotsPerEpoch head (refreshCalls epoch current next lookups) .panicked
  | nothing {epoch current next lookups past} : EpochOf slotsPerEpoch head epoch →
      Filtered past epoch current next lookups [] → RefreshEnded slotsPerEpoch head past (.ok ())
  | stored {epoch current next lookups past duties} : EpochOf slotsPerEpoch head epoch →
      Filtered past epoch current next lookups duties → duties ≠ [] →
      RefreshEnded slotsPerEpoch head (past ++ [answered (.setProposerDuties duties) ()]) (.ok ())

/-- The outline of a refresh. -/
def refreshOutline (slotsPerEpoch : UInt64) (head : HeadSlot) :
    Outline Calls (Outcome Unit Unit) where
  atCall past c :=
    match c with
    | .storage (.setProposerDuties duties) =>
        ∃ epoch current next lookups, EpochOf slotsPerEpoch head epoch ∧
          Filtered past epoch current next lookups duties ∧ duties ≠ []
    | c => c.steersDuties = false
  atResult := RefreshEnded slotsPerEpoch head

omit [Crates] in
theorem lookupCalls_concat (lookups : Lookups) (pubkey : BlsPublicKey)
    (answer : Option ValidatorRegistration) :
    lookupCalls (lookups ++ [(pubkey, answer)]) =
      lookupCalls lookups ++ [answered (.readValidatorRegistration pubkey) answer] := by
  simp [lookupCalls]

/-- The loop over the duties: it panics on a key that does not decode, and
whatever follows it goes on from all duties. -/
theorem holds_registeredDuties_exact {outline : Outline Calls (Outcome Unit (List Validator))}
    {front : List (Record Calls)} {earlier rest : List ProposerDutiesData} {lookups : Lookups}
    (asks : ∀ past pubkey, outline.atCall past (.storage (.readValidatorRegistration pubkey)))
    (panics : ∀ seen duty later lookups, earlier ++ rest = seen ++ duty :: later →
      LookedUpFor seen lookups →
      (BlsPublicKey.ofBytes duty.pubkey : Outcome Unit BlsPublicKey) = .panicked →
      outline.atResult (front ++ lookupCalls lookups) .panicked)
    (ends : ∀ lookups, LookedUpFor (earlier ++ rest) lookups →
      outline.atResult (front ++ lookupCalls lookups)
        (.ok (registeredOf (earlier ++ rest) lookups)))
    (lookedUp : LookedUpFor earlier lookups) :
    outline.Holds (front ++ lookupCalls lookups)
      (registeredDuties rest (registeredOf earlier lookups)) := by
  induction rest generalizing earlier lookups with
  | nil =>
      have ended := ends lookups (by simpa using lookedUp)
      rw [List.append_nil] at ended
      exact ended
  | cons duty rest inductionHypothesis =>
      unfold registeredDuties
      cases decoded : (BlsPublicKey.ofBytes duty.pubkey : Outcome Unit BlsPublicKey) with
      | panicked => exact panics earlier duty rest lookups rfl lookedUp decoded
      | err error => exact absurd decoded BlsPublicKey.ofBytes_ne_err
      | ok pubkey =>
          have step : ∀ answer, outline.Holds
              (front ++ lookupCalls (lookups ++ [(pubkey, answer)]))
              (registeredDuties rest
                (registeredOf (earlier ++ [duty]) (lookups ++ [(pubkey, answer)]))) := by
            intro answer
            refine inductionHypothesis ?_ ?_ (lookedUp.concat decoded answer)
            · simpa using panics
            · simpa using ends
          refine ⟨asks _ _, fun answer => ?_⟩
          have continued := step answer
          rw [lookupCalls_concat, ← List.append_assoc,
            registeredOf_concat lookedUp.length_eq] at continued
          cases answer with
          | none =>
              rw [Option.map_none, Option.toList_none, List.append_nil] at continued
              exact continued
          | some registration => exact continued

theorem holds_refreshDuties_exact (slotsPerEpoch : UInt64) (head : HeadSlot) :
    (refreshOutline slotsPerEpoch head).Holds [] (refreshDuties slotsPerEpoch head) := by
  simp only [refreshDuties, Program.call_bind, Program.done_bind, Program.pure_eq_done]
  cases asked : (head.epoch slotsPerEpoch : Outcome Unit UInt64) with
  | panicked =>
      refine .noEpoch ?_
      by_contra positive
      simp [HeadSlot.epoch, positive] at asked
  | err error =>
      simp only [HeadSlot.epoch] at asked
      split at asked <;> cases asked
  | ok epoch =>
  refine ⟨rfl, fun dutiesEpoch => ⟨rfl, fun dutiesNextEpoch => ?_⟩⟩
  cases dutiesEpoch with
  | none => exact .unanswered asked (.inl rfl)
  | some current =>
  cases dutiesNextEpoch with
  | none => exact .unanswered asked (.inr rfl)
  | some next =>
  dsimp only
  refine Outline.Holds.bind ⟨rfl, ?_⟩
  rintro (_ | _)
  · have start : LookedUpFor [] [] := rfl
    show Outline.Holds _ (repliesOf epoch (some current) (some next) ++
      [answered .emptyValidatorRegs false] ++ lookupCalls [])
        (registeredDuties (current ++ next) (registeredOf [] []))
    refine holds_registeredDuties_exact ?_ ?_ ?_ start
    · exact fun _ _ => rfl
    · intro seen duty later lookups split lookedUp panics
      exact .undecodable asked split lookedUp panics
    · intro lookups lookedUp
      have filtered : Filtered (refreshCalls epoch current next lookups) epoch current next lookups
          (registeredOf (current ++ next) lookups) := ⟨rfl, lookedUp, rfl⟩
      by_cases empty : registeredOf (current ++ next) lookups = []
      · rw [empty] at filtered
        simp only [List.nil_append, empty, if_true]
        exact .nothing asked filtered
      · simp only [List.nil_append, empty, if_false]
        exact ⟨⟨epoch, current, next, lookups, asked, filtered, empty⟩,
          fun _ => .stored asked filtered empty⟩
  · exact .unregistered asked

/-- The head for which a request refreshes the duties. -/
def Request.refreshHead? : Request → Option HeadSlot
  | .refreshDuties head => some head
  | _ => none

/-- The outline of every handler, as far as duties are concerned. -/
def dutyOutline (config : Config) : Request → Outline Calls Reply
  | .headEvent slot => (headOutline slot).map fun _ => Reply.handled
  | .refreshDuties head => (refreshOutline config.slotsPerEpoch head).map Reply.refreshed
  | _ => steadyOutline

omit [Crates] in
theorem holds_onHeadEvent_exact (slot : UInt64) : (headOutline slot).Holds [] (onHeadEvent slot) := by
  refine ⟨⟨rfl, rfl⟩, fun _ => ?_⟩
  by_cases first : slot % 32 = 0
  · simp only [Program.pure_eq_done, first, if_true]
    exact ⟨⟨rfl, rfl, first⟩, fun _ => by simp [headOutline, first]⟩
  · simp only [Program.pure_eq_done, first, if_false]
    show (headOutline slot).atResult _ ()
    simp [headOutline, first]

/-- Handlers of other requests have nothing to do with duties. -/
theorem steady_of_kind (config : Config) {request : Request}
    (other : request.kind ≠ .head ∧ request.kind ≠ .duties) :
    steadyOutline.Holds [] (handler config request) := by
  refine (holds_kinds config request).mono ?_ fun _ _ _ => trivial
  intro past c own
  apply Bool.eq_false_of_not_eq_true
  intro steers
  have kind := Call.kind_of_steersDuties steers
  rcases own with read | same
  · rw [read] at kind
    rcases kind with kind | kind <;> cases kind
  · rw [same] at kind
    rcases kind with kind | kind
    · exact other.1 kind
    · exact other.2 kind

theorem holds_duties (config : Config) (request : Request) :
    (dutyOutline config request).Holds [] (handler config request) := by
  cases request with
  | headEvent slot => exact (holds_onHeadEvent_exact slot).map _
  | refreshDuties head => exact (holds_refreshDuties_exact config.slotsPerEpoch head).map _
  | submitBlock _ | postBids _ | postValidators _ _ | getHeader _ _ _ | postBlindedBlocks _
  | getBids _ | getValidators | payloadAttributesEvent _ =>
      exact steady_of_kind config ⟨by simp [Request.kind], by simp [Request.kind]⟩

section Events

variable {config : Config} {trace front later : List RelayEvent} {world : RelayWorld}
  {event : RelayEvent}

/-- The duties a call stores. -/
def dutiesSet? (record : Record Calls) : Option (List Validator) :=
  match record.1 with
  | .storage (.setProposerDuties duties) => some duties
  | _ => none

omit [Crates] in
theorem of_dutiesSet? {record : Record Calls} {duties : List Validator}
    (set : dutiesSet? record = some duties) : record.1 = .storage (.setProposerDuties duties) := by
  simp only [dutiesSet?] at set
  split at set
  case h_1 call =>
    cases set
    exact call
  case h_2 => cases set

omit [Crates] in
theorem duties_set : SetBy exec InMemoryStorage.proposerDuties dutiesSet? := by
  rintro (c | _ | _ | _ | _ | _) store answer after executed
  case storage => obtain ⟨rfl, rfl⟩ := exec_storage.mp executed; cases c <;> rfl
  all_goals cases executed; rfl

/-- Only a refresh stores duties, and those it has filtered. -/
theorem setProposerDuties_event (run : RunFrom config config.init trace world)
    (split : trace = front ++ event :: later) {duties : List Validator}
    (call : event.call = .storage (.setProposerDuties duties)) :
    ∃ head epoch current next lookups, event.request = .refreshDuties head ∧
      EpochOf config.slotsPerEpoch head epoch ∧
      Filtered (past event.task front) epoch current next lookups duties ∧ duties ≠ [] := by
  have allowed := run.outline_atCall (holds_duties config) split
  rw [call] at allowed
  cases request : event.request with
  | refreshDuties head =>
      rw [request] at allowed
      obtain ⟨epoch, current, next, lookups, found⟩ := allowed
      exact ⟨head, epoch, current, next, lookups, rfl, found⟩
  | headEvent slot =>
      rw [request] at allowed
      cases allowed
  | _ =>
      rw [request] at allowed
      cases allowed

theorem setHeadSlot_event (run : RunFrom config config.init trace world)
    (split : trace = front ++ event :: later) {head : HeadSlot}
    (call : event.call = .storage (.setHeadSlot head)) :
    event.request = .headEvent head.slot := by
  have allowed := run.outline_atCall (holds_duties config) split
  rw [call] at allowed
  cases request : event.request with
  | headEvent slot =>
      rw [request] at allowed
      obtain ⟨_, rfl⟩ := allowed
      rfl
  | _ =>
      rw [request] at allowed
      cases allowed

/-- Only a head event at a multiple of 32 starts a refresh, after it has stored its slot. -/
theorem spawnRefresh_event (run : RunFrom config config.init trace world)
    (split : trace = front ++ event :: later) {head : HeadSlot}
    (call : event.call = .spawnRefresh head) :
    head.slot % 32 = 0 ∧ past event.task front = [answered (.setHeadSlot head) ()] := by
  have allowed := run.outline_atCall (holds_duties config) split
  rw [call] at allowed
  cases request : event.request with
  | headEvent slot =>
      rw [request] at allowed
      obtain ⟨made, rfl, first⟩ := allowed
      exact ⟨first, made⟩
  | _ =>
      rw [request] at allowed
      cases allowed

end Events

end MevRelay
