import MevRelay.Relay.Service
import MevRelay.Relay.Surroundings
import Mathlib.Data.List.ReduceOption

/-!
# Setting up the storage

At the start the relay polls the merged stream until it has heard an event of
each kind, and builds the storage from the first ones.
-/

namespace MevRelay

open Concurrent BeaconEventsStream

/-- The events that the set-up has kept so far. -/
structure Heard where
  payloadAttributesEvent : Option PayloadAttributesEvent
  headEvent : Option HeadEvent

namespace Heard

/-- The loop goes on while an event of some kind is missing. -/
def incomplete (heard : Heard) : Bool :=
  heard.payloadAttributesEvent.isNone || heard.headEvent.isNone

/-- Keep the first event of each kind and skip everything else. -/
def hear (heard : Heard) : Option BeaconEvent → Heard
  | some (.payloadAttribute event) =>
      if heard.payloadAttributesEvent.isNone then { heard with payloadAttributesEvent := some event }
      else heard
  | some (.head event) =>
      if heard.headEvent.isNone then { heard with headEvent := some event } else heard
  | none => heard

end Heard

/-- The loop, for a bounded number of polls, with the results of `next()` it consumes. -/
def listen : Nat → BeaconEventsStream → Heard → Option (List (Option BeaconEvent) × Heard)
  | fuel, stream, heard =>
      if heard.incomplete then
        match fuel with
        | 0 => none
        | fuel + 1 =>
            match stream.poll.result with
            | .pending => listen fuel stream.poll.after heard
            | .ready next =>
                (listen fuel stream.poll.after (heard.hear next)).map fun listened =>
                  (next :: listened.1, listened.2)
      else some ([], heard)

/-- Listen for the first slots and head events and set up the storage. -/
def setupStorage (fuel : Nat) (stream : BeaconEventsStream) (wlistBuilders : List BlsPublicKey)
    (forkData : ForkDatas) : Option (List (Option BeaconEvent) × Outcome Unit InMemoryStorage) := do
  let (consumed, heard) ← listen fuel stream ⟨none, none⟩
  match heard.payloadAttributesEvent, heard.headEvent with
  | some attr, some head =>
      return (consumed, .ok (.new ⟨head.slot⟩ attr.data wlistBuilders forkData ∅ []))
  | _, _ => return (consumed, .panicked)

/-- The slot of a head event. -/
def BeaconEvent.slot? : BeaconEvent → Option HeadSlot
  | .head event => some ⟨event.slot⟩
  | .payloadAttribute _ => none

/-- The data of a payload attributes event. -/
def BeaconEvent.attributes? : BeaconEvent → Option PayloadAttributes
  | .payloadAttribute event => some event.data
  | .head _ => none

section Listening

variable {fuel : Nat} {stream : BeaconEventsStream} {heard final : Heard}
  {results consumed : List (Option BeaconEvent)}

theorem listen_of_complete (complete : heard.incomplete = false) :
    listen fuel stream heard = some ([], heard) := by
  unfold listen
  rw [complete]
  rfl

theorem listen_succ (incomplete : heard.incomplete = true) :
    listen (fuel + 1) stream heard =
      match stream.poll.result with
      | .pending => listen fuel stream.poll.after heard
      | .ready next =>
          (listen fuel stream.poll.after (heard.hear next)).map fun listened =>
            (next :: listened.1, listened.2) := by
  conv_lhs => unfold listen
  rw [incomplete, if_pos rfl]

/-- The loop ends when what it has consumed completes what it has heard. -/
theorem of_listen (listened : listen fuel stream heard = some (consumed, final)) :
    Gives stream consumed ∧ final = consumed.foldl Heard.hear heard ∧
      final.incomplete = false := by
  induction fuel generalizing stream heard consumed with
  | zero =>
      cases complete : heard.incomplete with
      | false =>
          rw [listen_of_complete complete] at listened
          cases listened
          exact ⟨.nothing, rfl, complete⟩
      | true =>
          simp only [listen, complete, if_true] at listened
          cases listened
  | succ fuel inductionHypothesis =>
      cases complete : heard.incomplete with
      | false =>
          rw [listen_of_complete complete] at listened
          cases listened
          exact ⟨.nothing, rfl, complete⟩
      | true =>
          rw [listen_succ complete] at listened
          cases given : stream.poll.result with
          | pending =>
              rw [given] at listened
              obtain ⟨gives, same, ended⟩ := inductionHypothesis listened
              exact ⟨.pending given gives, same, ended⟩
          | ready next =>
              rw [given] at listened
              obtain ⟨⟨rest, _⟩, later, same⟩ := Option.map_eq_some_iff.mp listened
              cases same
              obtain ⟨gives, same, ended⟩ := inductionHypothesis later
              exact ⟨.ready given gives, same, ended⟩

/-- If a stream gives enough to complete what was heard, the loop ends. -/
theorem listen_ends (gives : Gives stream results)
    (complete : (results.foldl Heard.hear heard).incomplete = false) :
    ∃ fuel consumed final, listen fuel stream heard = some (consumed, final) := by
  induction gives generalizing heard with
  | nothing => exact ⟨0, [], heard, listen_of_complete complete⟩
  | pending given _ inductionHypothesis =>
      cases already : heard.incomplete with
      | false => exact ⟨0, [], heard, listen_of_complete already⟩
      | true =>
          obtain ⟨fuel, consumed, final, listened⟩ := inductionHypothesis complete
          refine ⟨fuel + 1, consumed, final, ?_⟩
          rw [listen_succ already, given]
          exact listened
  | @ready _ next _ given _ inductionHypothesis =>
      cases already : heard.incomplete with
      | false => exact ⟨0, [], heard, listen_of_complete already⟩
      | true =>
          obtain ⟨fuel, consumed, final, listened⟩ := inductionHypothesis complete
          refine ⟨fuel + 1, next :: consumed, final, ?_⟩
          rw [listen_succ already, given]
          exact Option.map_eq_some_iff.mpr ⟨_, listened, rfl⟩

end Listening

section FirstWins

def Heard.slot? (heard : Heard) : Option HeadSlot := heard.headEvent.map fun event => ⟨event.slot⟩

def Heard.attributes? (heard : Heard) : Option PayloadAttributes :=
  heard.payloadAttributesEvent.map PayloadAttributesEvent.data

theorem Heard.slot?_hear (heard : Heard) (next : Option BeaconEvent) :
    (heard.hear next).slot? = heard.slot?.or (next.bind BeaconEvent.slot?) := by
  obtain ⟨payloadAttributesEvent, headEvent⟩ := heard
  rcases next with _ | event | event <;> cases payloadAttributesEvent <;> cases headEvent <;> rfl

theorem Heard.attributes?_hear (heard : Heard) (next : Option BeaconEvent) :
    (heard.hear next).attributes? = heard.attributes?.or (next.bind BeaconEvent.attributes?) := by
  obtain ⟨payloadAttributesEvent, headEvent⟩ := heard
  rcases next with _ | event | event <;> cases payloadAttributesEvent <;> cases headEvent <;> rfl

/-- What is kept once is the first of its kind among the events. -/
theorem Heard.foldl_hear {Value : Type} {kept : Heard → Option Value}
    {part : BeaconEvent → Option Value}
    (keeps : ∀ heard next, kept (hear heard next) = (kept heard).or (next.bind part))
    (heard : Heard) (results : List (Option BeaconEvent)) :
    kept (results.foldl hear heard) =
      (kept heard).or (results.reduceOption.filterMap part).head? := by
  induction results generalizing heard with
  | nil => simp
  | cons next rest inductionHypothesis =>
      rw [List.foldl_cons, inductionHypothesis, keeps, Option.or_assoc]
      cases next with
      | none => rw [List.reduceOption_cons_of_none, Option.bind_none, Option.none_or]
      | some event =>
          rw [List.reduceOption_cons_of_some, List.filterMap_cons, Option.bind_some]
          cases part event <;> rfl

theorem Heard.incomplete_eq_false {heard : Heard} :
    heard.incomplete = false ↔ (∃ slot, heard.slot? = some slot) ∧
      ∃ attributes, heard.attributes? = some attributes := by
  obtain ⟨payloadAttributesEvent, headEvent⟩ := heard
  cases payloadAttributesEvent <;> cases headEvent <;> simp [incomplete, slot?, attributes?]

end FirstWins

section LastWins

variable {store after : InMemoryStorage}

theorem onEvent_yields {event : BeaconEvent}
    (yields : Yields exec (RelayService.onEvent event) store () after) :
    after.slot = event.slot?.getD store.slot ∧
      after.payloadAttributes = event.attributes?.getD store.payloadAttributes := by
  cases event with
  | payloadAttribute event =>
      simp only [RelayService.onEvent, onPayloadAttributes, Program.call_bind, Program.done_bind,
        yields_storage, yields_done_iff] at yields
      obtain ⟨_, rfl⟩ := yields
      exact ⟨rfl, rfl⟩
  | head event =>
      simp only [RelayService.onEvent, onHeadEvent, Program.call_bind, Program.done_bind,
        yields_storage] at yields
      by_cases first : event.slot % 32 = 0
      · simp only [first, if_true, yields_call_iff, yields_done_iff] at yields
        obtain ⟨_, middle, rfl, _, rfl⟩ := yields
        exact ⟨rfl, rfl⟩
      · simp only [first, if_false, Program.pure_eq_done, yields_done_iff] at yields
        obtain ⟨_, rfl⟩ := yields
        exact ⟨rfl, rfl⟩

/-- What events replace is left as the last of its kind has it. -/
theorem onEvents_yields {events : List BeaconEvent}
    (yields : Yields exec (RelayService.onEvents events) store () after) :
    after.slot = (events.filterMap BeaconEvent.slot?).getLast?.getD store.slot ∧
      after.payloadAttributes =
        (events.filterMap BeaconEvent.attributes?).getLast?.getD store.payloadAttributes := by
  induction events generalizing store with
  | nil =>
      obtain ⟨_, rfl⟩ := yields_done_iff.mp yields
      exact ⟨rfl, rfl⟩
  | cons event rest inductionHypothesis =>
      obtain ⟨_, middle, first, later⟩ := yields_bind_iff.mp yields
      obtain ⟨slot, attributes⟩ := inductionHypothesis later
      obtain ⟨firstSlot, firstAttributes⟩ := onEvent_yields first
      have last : ∀ {Value : Type} (part : BeaconEvent → Option Value) (before : Value),
          (rest.filterMap part).getLast?.getD ((part event).getD before) =
            ((event :: rest).filterMap part).getLast?.getD before := by
        intro Value part before
        rw [List.filterMap_cons]
        cases part event with
        | none => rfl
        | some value => rw [List.getLast?_cons]; rfl
      rw [slot, attributes, firstSlot, firstAttributes]
      exact ⟨last _ _, last _ _⟩

end LastWins

/-- The slots of the head events, in order. -/
def slots (events : List BeaconEvent) : List HeadSlot := events.filterMap BeaconEvent.slot?

/-- The data of the payload attributes events, in order. -/
def attributes (events : List BeaconEvent) : List PayloadAttributes :=
  events.filterMap BeaconEvent.attributes?

section Setup

variable {fuel : Nat} {stream : BeaconEventsStream} {wlistBuilders : List BlsPublicKey}
  {forkData : ForkDatas} {consumed : List (Option BeaconEvent)}
  {outcome : Outcome Unit InMemoryStorage} {storage : InMemoryStorage}

/-- A set-up that ends has a storage, with the first events it has consumed. -/
theorem of_setupStorage
    (ended : setupStorage fuel stream wlistBuilders forkData = some (consumed, outcome)) :
    Gives stream consumed ∧ ∃ slot attrs, (slots consumed.reduceOption).head? = some slot ∧
      (attributes consumed.reduceOption).head? = some attrs ∧
      outcome = .ok (.new slot attrs wlistBuilders forkData ∅ []) := by
  obtain ⟨⟨results, heard⟩, listened, made⟩ := Option.bind_eq_some_iff.mp ended
  obtain ⟨gives, rfl, complete⟩ := of_listen listened
  obtain ⟨⟨slot, hasSlot⟩, attrs, hasAttributes⟩ := Heard.incomplete_eq_false.mp complete
  have first := Heard.foldl_hear Heard.slot?_hear ⟨none, none⟩ results
  have second := Heard.foldl_hear Heard.attributes?_hear ⟨none, none⟩ results
  rw [hasSlot] at first
  rw [hasAttributes] at second
  obtain ⟨head, isHead, rfl⟩ := Option.map_eq_some_iff.mp hasSlot
  obtain ⟨event, isEvent, rfl⟩ := Option.map_eq_some_iff.mp hasAttributes
  simp only [isHead, isEvent] at made
  cases made
  exact ⟨gives, _, _, first.symm, second.symm, rfl⟩

/-- The running service would hold the same after these events, whatever it held before. -/
def StartupAgrees (storage : InMemoryStorage) (events : List BeaconEvent) : Prop :=
  ∀ store after, Yields exec (RelayService.onEvents events) store () after →
    storage.slot = after.slot ∧ storage.payloadAttributes = after.payloadAttributes

/-- The set-up stores the first head slot and the first payload attributes it
consumes, and agrees with the running service exactly if they are the last as well. -/
theorem startup_stores_first
    (ended : setupStorage fuel stream wlistBuilders forkData = some (consumed, .ok storage)) :
    (slots consumed.reduceOption).head? = some storage.slot ∧
    (attributes consumed.reduceOption).head? = some storage.payloadAttributes ∧
    (StartupAgrees storage consumed.reduceOption ↔
      (slots consumed.reduceOption).getLast? = some storage.slot ∧
        (attributes consumed.reduceOption).getLast? = some storage.payloadAttributes) := by
  obtain ⟨_, slot, attrs, firstSlot, firstAttributes, made⟩ := of_setupStorage ended
  cases made
  refine ⟨firstSlot, firstAttributes, ?_⟩
  have last : ∀ {Value : Type} {values : List Value} {value : Value} (before : Value),
      values.head? = some value →
      (value = values.getLast?.getD before ↔ values.getLast? = some value) := by
    intro Value values value before first
    cases values with
    | nil => cases first
    | cons other rest =>
        rw [List.getLast?_cons, Option.getD_some, Option.some.injEq]
        exact eq_comm
  constructor
  · intro agrees
    obtain ⟨_, after, yields⟩ := yields_total exec_total
      (RelayService.onEvents consumed.reduceOption) (.new slot attrs wlistBuilders forkData ∅ [])
    obtain ⟨sameSlot, sameAttributes⟩ := agrees _ after yields
    obtain ⟨lastSlot, lastAttributes⟩ := onEvents_yields yields
    rw [lastSlot] at sameSlot
    rw [lastAttributes] at sameAttributes
    exact ⟨(last _ firstSlot).mp sameSlot, (last _ firstAttributes).mp sameAttributes⟩
  · rintro ⟨isLastSlot, isLastAttributes⟩ store after yields
    obtain ⟨lastSlot, lastAttributes⟩ := onEvents_yields yields
    rw [lastSlot, lastAttributes]
    exact ⟨(last _ firstSlot).mpr isLastSlot, (last _ firstAttributes).mpr isLastAttributes⟩

/-- Events of both kinds. -/
def BothKinds (events : List BeaconEvent) : Prop :=
  (∃ event, .payloadAttribute event ∈ events) ∧ ∃ event, .head event ∈ events

/-- The set-up ends after finitely many polls, with a storage if there were
events of both kinds and with an error otherwise. -/
def SetupEnds (stream : BeaconEventsStream) (events : List BeaconEvent)
    (wlistBuilders : List BlsPublicKey) (forkData : ForkDatas) : Prop :=
  ∃ fuel consumed outcome,
    setupStorage fuel stream wlistBuilders forkData = some (consumed, outcome) ∧
      (BothKinds events → ∃ storage, outcome = .ok storage) ∧
      (¬ BothKinds events → ∃ error, outcome = .err error)

/-- The stream gives the events and has then ended: every further result is nothing. -/
def EndsAfter (stream : BeaconEventsStream) (events : List BeaconEvent) : Prop :=
  ∀ count, Gives stream (events.map some ++ List.replicate count none)

theorem bothKinds_iff {events : List BeaconEvent} :
    BothKinds events ↔ (∃ slot, (slots events).head? = some slot) ∧
      ∃ attrs, (attributes events).head? = some attrs := by
  have first : ∀ {Value : Type} {values : List Value},
      (∃ value, values.head? = some value) ↔ ∃ value, value ∈ values := by
    intro Value values
    cases values with
    | nil => simp
    | cons value rest => exact ⟨fun _ => ⟨value, List.mem_cons_self⟩, fun _ => ⟨value, rfl⟩⟩
  simp only [first, slots, attributes, List.mem_filterMap]
  constructor
  · rintro ⟨⟨event, inside⟩, head, present⟩
    exact ⟨⟨_, _, present, rfl⟩, _, _, inside, rfl⟩
  · rintro ⟨⟨_, first, present, isHead⟩, _, second, inside, isAttributes⟩
    cases first <;> cases second <;> cases isHead <;> cases isAttributes
    exact ⟨⟨_, inside⟩, _, present⟩

/-- A loop that ends makes the set-up end. -/
theorem setupStorage_of_listen {final : Heard}
    (listened : listen fuel stream ⟨none, none⟩ = some (consumed, final)) :
    ∃ outcome, setupStorage fuel stream wlistBuilders forkData = some (consumed, outcome) := by
  unfold setupStorage
  rw [listened]
  obtain ⟨payloadAttributesEvent, headEvent⟩ := final
  cases payloadAttributesEvent <;> cases headEvent <;> exact ⟨_, rfl⟩

/-- On a stream that ends, a set-up that ends has been given both kinds. -/
theorem bothKinds_of_setup {events : List BeaconEvent} (endsAfter : EndsAfter stream events)
    (ended : setupStorage fuel stream wlistBuilders forkData = some (consumed, outcome)) :
    BothKinds events := by
  obtain ⟨gives, slot, attrs, firstSlot, firstAttributes, _⟩ := of_setupStorage ended
  have whole := gives.prefix_of_length_le (endsAfter consumed.length) (by simp)
  have given : ∀ event ∈ consumed.reduceOption, event ∈ events := by
    intro event membership
    have inside := whole.subset (List.reduceOption_mem_iff.mp membership)
    simpa using inside
  obtain ⟨⟨payload, isPayload⟩, head, isHead⟩ :=
    bothKinds_iff.mpr ⟨⟨slot, firstSlot⟩, attrs, firstAttributes⟩
  exact ⟨⟨payload, given _ isPayload⟩, head, given _ isHead⟩

/-- On a stream that ends, the set-up ends exactly if the stream gives both kinds. -/
theorem setup_ends_iff {events : List BeaconEvent} (endsAfter : EndsAfter stream events) :
    SetupEnds stream events wlistBuilders forkData ↔ BothKinds events := by
  constructor
  · rintro ⟨fuel, consumed, outcome, ended, _⟩
    exact bothKinds_of_setup endsAfter ended
  · intro both
    have gives : Gives stream (events.map some) := by simpa using endsAfter 0
    have all : (events.map some).reduceOption = events := by simp [List.reduceOption]
    have complete : ((events.map some).foldl Heard.hear ⟨none, none⟩).incomplete = false := by
      rw [Heard.incomplete_eq_false, Heard.foldl_hear Heard.slot?_hear,
        Heard.foldl_hear Heard.attributes?_hear, all]
      exact bothKinds_iff.mp both
    obtain ⟨fuel, consumed, final, listened⟩ := listen_ends gives complete
    obtain ⟨outcome, ended⟩ := setupStorage_of_listen listened
    obtain ⟨_, slot, attrs, _, _, made⟩ := of_setupStorage ended
    exact ⟨fuel, consumed, outcome, ended, fun _ => ⟨_, made⟩, fun missing => absurd both missing⟩

end Setup

section Streams

/-- Two payload attributes arrive before the first head. -/
def changing : BeaconEventsStream where
  payloadAttributes
    | 0 => .ready (some (.ok ⟨Demo.attributes⟩))
    | 1 => .ready (some (.ok ⟨⟨2, .zero, .zero⟩⟩))
    | _ => .pending
  newHead _ := .ready (some (.ok ⟨0⟩))

def changingEvents : List BeaconEvent :=
  [.payloadAttribute ⟨Demo.attributes⟩, .payloadAttribute ⟨⟨2, .zero, .zero⟩⟩, .head ⟨0⟩]

theorem changing_setup :
    setupStorage 3 changing Demo.config.wlistBuilders Demo.config.forkData =
      some (changingEvents.map some, .ok Demo.config.init) := rfl

theorem changing_stores_first :
    (slots (changingEvents.map some).reduceOption).head? = some Demo.config.init.slot ∧
    (attributes (changingEvents.map some).reduceOption).head? =
      some Demo.config.init.payloadAttributes ∧
    (StartupAgrees Demo.config.init (changingEvents.map some).reduceOption ↔
      (slots (changingEvents.map some).reduceOption).getLast? = some Demo.config.init.slot ∧
        (attributes (changingEvents.map some).reduceOption).getLast? =
          some Demo.config.init.payloadAttributes) :=
  startup_stores_first changing_setup

/-- The set-up keeps the first payload attributes, the service would hold the second. -/
theorem changing_disagrees :
    setupStorage 3 changing Demo.config.wlistBuilders Demo.config.forkData =
        some (changingEvents.map some, .ok Demo.config.init) ∧
      ¬ StartupAgrees Demo.config.init (changingEvents.map some).reduceOption := by
  refine ⟨changing_setup, fun agrees => ?_⟩
  obtain ⟨_, after, yields⟩ := yields_total exec_total
    (RelayService.onEvents (changingEvents.map some).reduceOption) Demo.config.init
  have same := (agrees _ after yields).2
  rw [(onEvents_yields yields).2] at same
  exact absurd same (by decide +kernel)

/-- Both subscriptions have ended. -/
def closed : BeaconEventsStream := ⟨fun _ => .ready none, fun _ => .ready none⟩

theorem gives_closed (count : Nat) : Gives closed (List.replicate count none) := by
  induction count with
  | zero => exact .nothing
  | succ count inductionHypothesis => exact .ready rfl inductionHypothesis

/-- Both subscriptions end, after a head and before any payload attributes. -/
def headOnly : BeaconEventsStream where
  payloadAttributes _ := .ready none
  newHead
    | 0 => .ready (some (.ok ⟨1⟩))
    | _ => .ready none

theorem headOnly_endsAfter : EndsAfter headOnly [.head ⟨1⟩] :=
  fun count => .ready rfl (gives_closed count)

theorem headOnly_setup_ends_iff :
    SetupEnds headOnly [.head ⟨1⟩] Demo.config.wlistBuilders Demo.config.forkData ↔
      BothKinds [.head ⟨1⟩] :=
  setup_ends_iff headOnly_endsAfter

/-- The set-up goes on for ever when the stream ends before both kinds have come. -/
theorem headOnly_never_set_up :
    EndsAfter headOnly [.head ⟨1⟩] ∧
      ¬ SetupEnds headOnly [.head ⟨1⟩] Demo.config.wlistBuilders Demo.config.forkData := by
  refine ⟨headOnly_endsAfter, ?_⟩
  rintro ⟨fuel, consumed, outcome, ended, _⟩
  obtain ⟨⟨event, membership⟩, _⟩ := bothKinds_of_setup headOnly_endsAfter ended
  simp at membership

end Streams

end MevRelay
