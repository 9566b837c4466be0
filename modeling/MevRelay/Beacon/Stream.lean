import MevRelay.Concurrent.Schedule
import MevRelay.Primitives.Bids
import Mathlib.Data.Stream.Init

/-!
# The merged stream of beacon events

Two subscriptions are polled as one stream.  A subscription is given by its
answers to successive polls, which may be any, so a poll is a program whose
calls poll one subscription each.
-/

namespace MevRelay

open Concurrent

/-- The answer of a stream or a future to a poll. -/
inductive Poll (Value : Type) where
  | ready (value : Value)
  | pending
  deriving DecidableEq

/-- The part of a head event that the relay reads. -/
structure HeadEvent where
  slot : UInt64
  deriving DecidableEq

structure PayloadAttributesEvent where
  data : PayloadAttributes
  deriving DecidableEq

inductive BeaconEvent where
  | payloadAttribute (event : PayloadAttributesEvent)
  | head (event : HeadEvent)
  deriving DecidableEq

/-- An error of a subscription, of which the relay logs the text. -/
structure SseError where
  message : String
  deriving DecidableEq

/-- The two subscriptions. -/
inductive Source where
  | payloadAttributes
  | newHead
  deriving DecidableEq

abbrev Source.Event : Source → Type
  | .payloadAttributes => PayloadAttributesEvent
  | .newHead => HeadEvent

/-- What a subscription answers to a poll: an event, an error or its end, if anything. -/
abbrev Source.Answer (source : Source) : Type := Poll (Option (Except SseError source.Event))

abbrev Sources : Signature := ⟨Source, Source.Answer⟩

/-- The answers of a subscription to successive polls. -/
abbrev EventStream (source : Source) : Type := Stream' source.Answer

structure BeaconEventsStream where
  payloadAttributes : EventStream .payloadAttributes
  newHead : EventStream .newHead

namespace BeaconEventsStream

/-- Poll one subscription. -/
def pollSource (stream : BeaconEventsStream) : (source : Source) → source.Answer × BeaconEventsStream
  | .payloadAttributes =>
      (stream.payloadAttributes.head,
        { stream with payloadAttributes := stream.payloadAttributes.tail })
  | .newHead => (stream.newHead.head, { stream with newHead := stream.newHead.tail })

def sources : Semantics Sources BeaconEventsStream := fun source stream answer after =>
  (answer, after) = stream.pollSource source

def responder : Responder sources where
  respond source stream := stream.pollSource source
  sound _ _ := rfl

/-- Poll the payload attributes first, and the heads unless that gave an event or an error. -/
def pollNext : Program Sources (Poll (Option BeaconEvent)) := do
  let payloadAttributes : Source.Answer .payloadAttributes ← .call .payloadAttributes .done
  match payloadAttributes with
  | .ready (some (.ok event)) => return .ready (some (.payloadAttribute event))
  | .ready (some (.error _)) => return .ready none
  | .ready none | .pending =>
  let newHead : Source.Answer .newHead ← .call .newHead .done
  match newHead with
  | .ready (some (.ok event)) => return .ready (some (.head event))
  | .ready (some (.error _)) => return .ready none
  | .ready none => return .ready none
  | .pending => return .pending

/-- A poll of the merged stream, with the polls of the subscriptions it makes. -/
abbrev Polled := Completed Sources Unit (Poll (Option BeaconEvent)) BeaconEventsStream

def poll (stream : BeaconEventsStream) : Polled :=
  responder.complete (fun _ => pollNext) () stream

/-- Polls of the merged stream one after the other. -/
abbrev Polls (stream : BeaconEventsStream) : List Polled → BeaconEventsStream → Prop :=
  Serial (fun _ => pollNext) sources stream

section Specification

variable {stream after : BeaconEventsStream} {history : List Polled} {polled : Polled}

/-- An event or an error of the payload attributes is the result, and the heads are not polled. -/
theorem poll_of_item {item : Except SseError PayloadAttributesEvent}
    (answer : stream.payloadAttributes.head = .ready (some item)) :
    stream.poll.calls = [⟨.payloadAttributes, .ready (some item)⟩] ∧
      stream.poll.result = .ready (item.toOption.map .payloadAttribute) := by
  have answers : stream.pollSource .payloadAttributes =
      (.ready (some item), { stream with payloadAttributes := stream.payloadAttributes.tail }) := by
    rw [pollSource, answer]
  cases item <;>
    simp only [poll, Responder.complete, pollNext, Program.call_bind, Program.done_bind,
      Responder.evaluate, responder, answers] <;> exact ⟨rfl, rfl⟩

/-- The payload attributes have neither an event nor an error. -/
def Quiet (stream : BeaconEventsStream) : Prop :=
  ∀ item, stream.payloadAttributes.head ≠ .ready (some item)

theorem Quiet.answer (quiet : Quiet stream) :
    stream.payloadAttributes.head = .ready none ∨ stream.payloadAttributes.head = .pending := by
  cases first : stream.payloadAttributes.head with
  | pending => exact .inr rfl
  | ready item? =>
      cases item? with
      | none => exact .inl rfl
      | some item => exact absurd first (quiet item)

theorem quiet_of_ended (ended : stream.payloadAttributes.head = .ready none) : Quiet stream := by
  intro item found
  rw [ended] at found
  cases found

theorem not_quiet_iff :
    ¬ Quiet stream ↔ ∃ item, stream.payloadAttributes.head = .ready (some item) := by
  simp only [Quiet, ne_eq, not_forall, not_not]

/-- If they are quiet the heads are polled, and their answer is the result; an
error is the end. -/
theorem poll_of_quiet (quiet : Quiet stream) :
    stream.poll.calls = [⟨.payloadAttributes, stream.payloadAttributes.head⟩,
        ⟨.newHead, stream.newHead.head⟩] ∧
      stream.poll.result =
        match stream.newHead.head with
        | .ready item => .ready ((item.bind Except.toOption).map .head)
        | .pending => .pending := by
  rcases quiet.answer with first | first <;>
    rcases second : stream.newHead.head with (_ | _ | _) | _ <;>
    simp [poll, Responder.complete, pollNext, Responder.evaluate, responder, pollSource, first,
      second, Except.toOption]

theorem mem_calls_payloadAttributes {answer : Source.Answer .payloadAttributes} :
    (⟨.payloadAttributes, answer⟩ : Record Sources) ∈ stream.poll.calls ↔
      stream.payloadAttributes.head = answer := by
  by_cases quiet : Quiet stream
  · rw [(poll_of_quiet quiet).1]
    simp [eq_comm]
  · obtain ⟨item, found⟩ := not_quiet_iff.mp quiet
    rw [(poll_of_item found).1, found]
    simp [eq_comm]

theorem mem_calls_newHead {answer : Source.Answer .newHead} :
    (⟨.newHead, answer⟩ : Record Sources) ∈ stream.poll.calls ↔
      Quiet stream ∧ stream.newHead.head = answer := by
  by_cases quiet : Quiet stream
  · rw [(poll_of_quiet quiet).1]
    simp [quiet, eq_comm]
  · obtain ⟨item, found⟩ := not_quiet_iff.mp quiet
    rw [(poll_of_item found).1]
    simp [quiet]

/-- No subscription is polled twice in one poll. -/
theorem calls_pairwise :
    stream.poll.calls.Pairwise fun earlier later => later.1 ≠ earlier.1 := by
  by_cases quiet : Quiet stream
  · rw [(poll_of_quiet quiet).1]
    simp
  · obtain ⟨item, found⟩ := not_quiet_iff.mp quiet
    rw [(poll_of_item found).1]
    simp

theorem result_pending_iff :
    stream.poll.result = .pending ↔ Quiet stream ∧ stream.newHead.head = .pending := by
  by_cases quiet : Quiet stream
  · rw [(poll_of_quiet quiet).2]
    cases second : stream.newHead.head <;> simp [quiet]
  · obtain ⟨item, found⟩ := not_quiet_iff.mp quiet
    rw [(poll_of_item found).2]
    simp [quiet]

theorem Polls.eq_poll (polls : Polls stream history after) (membership : polled ∈ history) :
    polled = polled.before.poll := by
  have unique := responder.evaluate_unique (fun _ _ _ _ executed => executed)
    (polls.executed membership)
  obtain ⟨_, before, calls, result, after⟩ := polled
  simp only [poll, Responder.complete, ← unique]

theorem Polls.mem_payloadAttributes (polls : Polls stream history after)
    (membership : polled ∈ history) {answer : Source.Answer .payloadAttributes} :
    (⟨.payloadAttributes, answer⟩ : Record Sources) ∈ polled.calls ↔
      polled.before.payloadAttributes.head = answer := by
  rw [congrArg Completed.calls (polls.eq_poll membership)]
  exact mem_calls_payloadAttributes

theorem Polls.mem_newHead (polls : Polls stream history after) (membership : polled ∈ history)
    {answer : Source.Answer .newHead} :
    (⟨.newHead, answer⟩ : Record Sources) ∈ polled.calls ↔
      Quiet polled.before ∧ polled.before.newHead.head = answer := by
  rw [congrArg Completed.calls (polls.eq_poll membership)]
  exact mem_calls_newHead

theorem Polls.pending_iff (polls : Polls stream history after) (membership : polled ∈ history) :
    polled.result = .pending ↔ Quiet polled.before ∧ polled.before.newHead.head = .pending := by
  rw [congrArg Completed.result (polls.eq_poll membership)]
  exact result_pending_iff

theorem Polls.pairwise (polls : Polls stream history after) (membership : polled ∈ history) :
    polled.calls.Pairwise fun earlier later => later.1 ≠ earlier.1 := by
  rw [congrArg Completed.calls (polls.eq_poll membership)]
  exact calls_pairwise

end Specification

section Answers

variable {stream before middle after : BeaconEventsStream} {first second : List (Record Sources)}

/-- The answers of a subscription that are still to come. -/
def answers (stream : BeaconEventsStream) : (source : Source) → EventStream source
  | .payloadAttributes => stream.payloadAttributes
  | .newHead => stream.newHead

/-- The answer of one subscription, if that is the one polled. -/
def answer? : (source : Source) → Record Sources → Option source.Answer
  | .payloadAttributes, ⟨.payloadAttributes, answer⟩ => some answer
  | .newHead, ⟨.newHead, answer⟩ => some answer
  | _, _ => none

def answersIn (source : Source) (calls : List (Record Sources)) : List source.Answer :=
  calls.filterMap (answer? source)

/-- The event in an answer. -/
def ok? {source : Source} : source.Answer → Option source.Event
  | .ready (some (.ok event)) => some event
  | _ => none

/-- The event that a poll of a subscription has taken from it. -/
def event? : Record Sources → Option BeaconEvent
  | ⟨.payloadAttributes, answer⟩ => (ok? answer).map .payloadAttribute
  | ⟨.newHead, answer⟩ => (ok? answer).map .head

/-- The events of one kind. -/
def ofSource? : (source : Source) → BeaconEvent → Option source.Event
  | .payloadAttributes, .payloadAttribute event => some event
  | .newHead, .head event => some event
  | _, _ => none

theorem ofSource?_event? (source : Source) (record : Record Sources) :
    (event? record).bind (ofSource? source) = (answer? source record).bind ok? := by
  obtain ⟨polled, answer⟩ := record
  cases source <;> cases polled <;> rcases answer with (_ | _ | _) | _ <;> rfl

/-- The events of a kind that were taken are those in the answers of its subscription. -/
theorem filterMap_ofSource? (source : Source) (calls : List (Record Sources)) :
    (calls.filterMap event?).filterMap (ofSource? source) =
      (answersIn source calls).filterMap ok? := by
  rw [answersIn, List.filterMap_filterMap, List.filterMap_filterMap]
  exact congrArg (calls.filterMap ·) (funext (ofSource?_event? source))

/-- Between two states each subscription has given the answers recorded, in its own order. -/
def Advances (before after : BeaconEventsStream) (calls : List (Record Sources)) : Prop :=
  ∀ source, before.answers source = answersIn source calls ++ₛ after.answers source

theorem Advances.refl (stream : BeaconEventsStream) : Advances stream stream [] := fun _ => rfl

theorem Advances.trans (one : Advances before middle first) (two : Advances middle after second) :
    Advances before after (first ++ second) := by
  intro source
  rw [one source, two source, answersIn, answersIn, answersIn, List.filterMap_append,
    Stream'.append_append_stream]

theorem advances_pollSource (stream : BeaconEventsStream) (source : Source) :
    Advances stream (stream.pollSource source).2 [⟨source, (stream.pollSource source).1⟩] := by
  intro other
  cases source <;> cases other <;>
    first
    | rfl
    | exact (Stream'.eta _).symm

/-- Whatever a program polls, it finds the answers of each subscription in their order. -/
theorem advances_evaluate {Result : Type} (program : Program Sources Result)
    (stream : BeaconEventsStream) :
    Advances stream (responder.evaluate program stream).2.2 (responder.evaluate program stream).1 := by
  induction program generalizing stream with
  | done result => exact .refl stream
  | call source next inductionHypothesis =>
      exact (advances_pollSource stream source).trans (inductionHypothesis _ _)

theorem poll_advances (stream : BeaconEventsStream) :
    Advances stream stream.poll.after stream.poll.calls :=
  advances_evaluate pollNext stream

/-- A poll takes the event it gives and no other. -/
theorem filterMap_event?_poll (stream : BeaconEventsStream) :
    stream.poll.calls.filterMap event? =
      match stream.poll.result with
      | .ready (some event) => [event]
      | _ => [] := by
  by_cases quiet : Quiet stream
  · obtain ⟨calls, result⟩ := poll_of_quiet quiet
    rw [calls, result]
    rcases quiet.answer with first | first <;>
      rcases second : stream.newHead.head with (_ | _ | _) | _ <;> rw [first] <;> rfl
  · obtain ⟨item, found⟩ := not_quiet_iff.mp quiet
    obtain ⟨calls, result⟩ := poll_of_item found
    rw [calls, result]
    cases item <;> rfl

end Answers

/-- The results that `next()` gives one after the other, each by polling until
the stream is ready. -/
inductive Gives : BeaconEventsStream → List (Option BeaconEvent) → Prop where
  | nothing {stream} : Gives stream []
  | pending {stream results} : stream.poll.result = .pending → Gives stream.poll.after results →
      Gives stream results
  | ready {stream result results} : stream.poll.result = .ready result →
      Gives stream.poll.after results → Gives stream (result :: results)

/-- What a stream gives is determined, as far as the shorter of two readings goes. -/
theorem Gives.prefix_of_length_le {stream : BeaconEventsStream}
    {first second : List (Option BeaconEvent)} (one : Gives stream first)
    (two : Gives stream second) (shorter : first.length ≤ second.length) : first <+: second := by
  induction one generalizing second with
  | nothing => exact List.nil_prefix
  | pending waits _ inductionHypothesis =>
      cases two with
      | nothing =>
          rw [List.eq_nil_of_length_eq_zero (Nat.le_zero.mp shorter)]
      | pending _ rest => exact inductionHypothesis rest shorter
      | ready given rest =>
          rw [waits] at given
          cases given
  | ready given _ inductionHypothesis =>
      cases two with
      | nothing => cases shorter
      | pending waits _ =>
          rw [waits] at given
          cases given
      | ready other rest =>
          rw [given] at other
          cases other
          exact List.cons_prefix_cons.mpr
            ⟨rfl, inductionHypothesis rest (Nat.le_of_succ_le_succ shorter)⟩

end BeaconEventsStream

end MevRelay
