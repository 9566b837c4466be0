import MevRelay.Beacon.Stream
import MevRelay.Relay.Events

/-!
# The relay service

The service polls the merged stream, handles its events, and reconnects when it
ends.  Whether it can tell that a subscription has ended depends on which one.
-/

namespace MevRelay

open Concurrent BeaconEventsStream

/-- A future that gives a new stream, by its answers to successive polls. -/
abbrev Connection : Type := Stream' (Poll BeaconEventsStream)

/-- The inner state of the relay service used to handle reconnections. -/
inductive Inner where
  | beaconEvents (stream : BeaconEventsStream)
  | pendingConnection (connection : Connection)

/-- The service with the connections that it makes one after the other. -/
structure RelayService where
  inner : Inner
  beaconEvents : Stream' Connection

namespace RelayService

def onEvent : BeaconEvent → Program Calls Unit
  | .payloadAttribute event => onPayloadAttributes event.data
  | .head event => onHeadEvent event.slot

/-- Poll the service once. -/
def poll (service : RelayService) : Program Calls RelayService :=
  match service.inner with
  | .beaconEvents stream =>
      match stream.poll.result with
      | .ready (some event) => do
          onEvent event
          return { service with inner := .beaconEvents stream.poll.after }
      | .ready none =>
          return ⟨.pendingConnection service.beaconEvents.head, service.beaconEvents.tail⟩
      | .pending => return { service with inner := .beaconEvents stream.poll.after }
  | .pendingConnection connection =>
      match connection.head with
      | .ready stream => return { service with inner := .beaconEvents stream }
      | .pending => return { service with inner := .pendingConnection connection.tail }

/-- Handle events one after the other. -/
def onEvents : List BeaconEvent → Program Calls Unit
  | [] => return ()
  | event :: rest => do
      onEvent event
      onEvents rest

end RelayService

section Subscriptions

variable {stream after : BeaconEventsStream} {history : List Polled}

/-- A subscription reports its end in a poll. -/
def Reports (polled : Polled) (source : Source) : Prop := ⟨source, .ready none⟩ ∈ polled.calls

/-- A service that makes this poll starts to reconnect. -/
def Reconnects (polled : Polled) : Prop :=
  ∀ connections, RelayService.poll ⟨.beaconEvents polled.before, connections⟩ =
    .done ⟨.pendingConnection connections.head, connections.tail⟩

/-- The merged stream never runs on a dead subscription: it is pending only if
both subscriptions are, none is polled again after its end, and with one at its
end and the other pending it ends as well, so that the service reconnects. -/
structure NeverDead (history : List Polled) : Prop where
  pending : ∀ polled ∈ history, polled.result = .pending →
    ∀ source : Source, ⟨source, .pending⟩ ∈ polled.calls
  notAgain : ∀ source : Source, (history.flatMap Completed.calls).Pairwise fun earlier later =>
    earlier = ⟨source, .ready none⟩ → later.1 ≠ source
  reconnects : ∀ front polled later, history = front ++ polled :: later →
    ∀ source other, source ≠ other → (∃ reporting ∈ front ++ [polled], Reports reporting source) →
      ⟨other, .pending⟩ ∈ polled.calls → polled.result = .ready none ∧ Reconnects polled

/-- The payload attributes end in the last poll if at all, with the heads not
pending, and after the end of the heads they always have an event or an error. -/
structure EndsLast (history : List Polled) : Prop where
  last : history.Pairwise fun earlier _ => earlier.before.payloadAttributes.head ≠ .ready none
  together : ∀ polled ∈ history, polled.before.payloadAttributes.head = .ready none →
    polled.before.newHead.head ≠ .pending
  newHead : history.Pairwise fun earlier later => Reports earlier .newHead →
    ∃ item, later.before.payloadAttributes.head = .ready (some item)

theorem endsLast_of_neverDead (polls : Polls stream history after) (never : NeverDead history) :
    EndsLast history := by
  have across := fun source => (List.pairwise_flatMap.mp (never.notAgain source)).2
  refine ⟨?_, ?_, ?_⟩
  · apply (across .payloadAttributes).imp_of_mem
    intro earlier later before behind again ended
    have reports := (polls.mem_payloadAttributes before).mpr ended
    exact again _ reports _ ((polls.mem_payloadAttributes behind).mpr rfl) rfl rfl
  · intro polled membership ended pending
    have result := (polls.pending_iff membership).mpr ⟨quiet_of_ended ended, pending⟩
    have waits := (polls.mem_payloadAttributes membership).mp
      (never.pending polled membership result .payloadAttributes)
    rw [ended] at waits
    cases waits
  · apply (across .newHead).imp_of_mem
    intro earlier later before behind again reports
    apply not_quiet_iff.mp
    intro quiet
    exact again _ reports _ ((polls.mem_newHead behind).mpr ⟨quiet, rfl⟩) rfl rfl

/-- Where the subscriptions end last, a subscription that has ended is not polled again. -/
theorem EndsLast.notAgain (ends : EndsLast history) (polls : Polls stream history after)
    (source : Source) :
    (history.flatMap Completed.calls).Pairwise fun earlier later =>
      earlier = ⟨source, .ready none⟩ → later.1 ≠ source := by
  refine List.pairwise_flatMap.mpr ⟨?_, ?_⟩
  · intro polled membership
    apply (polls.pairwise membership).imp
    rintro earlier later distinct rfl
    exact distinct
  · cases source with
    | payloadAttributes =>
        apply ends.last.imp_of_mem
        rintro earlier later before _ goes _ reports _ _ rfl
        exact absurd ((polls.mem_payloadAttributes before).mp reports) goes
    | newHead =>
        apply ends.newHead.imp_of_mem
        rintro earlier later before behind busy _ reports ⟨_, answer⟩ asked rfl rfl
        obtain ⟨item, found⟩ := busy reports
        exact ((polls.mem_newHead behind).mp asked).1 item found

theorem EndsLast.pending (ends : EndsLast history) (polls : Polls stream history after)
    {polled : Polled} (membership : polled ∈ history) (result : polled.result = .pending)
    (source : Source) : ⟨source, .pending⟩ ∈ polled.calls := by
  obtain ⟨quiet, pending⟩ := (polls.pending_iff membership).mp result
  cases source with
  | payloadAttributes =>
      rcases quiet.answer with ended | waits
      · exact absurd pending (ends.together polled membership ended)
      · exact (polls.mem_payloadAttributes membership).mpr waits
  | newHead => exact (polls.mem_newHead membership).mpr ⟨quiet, pending⟩

/-- A poll that gives the end of the merged stream makes the service reconnect. -/
theorem reconnects_of_ended (polls : Polls stream history after) {polled : Polled}
    (membership : polled ∈ history) (ended : polled.result = .ready none) : Reconnects polled := by
  intro connections
  have result : polled.before.poll.result = .ready none := by
    rw [← polls.eq_poll membership]
    exact ended
  simp only [RelayService.poll, result]
  rfl

theorem EndsLast.reconnects (ends : EndsLast history) (polls : Polls stream history after)
    {front later : List Polled} {polled : Polled} (split : history = front ++ polled :: later)
    {source other : Source} (different : source ≠ other)
    (reported : ∃ reporting ∈ front ++ [polled], Reports reporting source)
    (waits : ⟨other, .pending⟩ ∈ polled.calls) : polled.result = .ready none := by
  obtain ⟨reporting, inside, reports⟩ := reported
  have now : polled ∈ history := by simp [split]
  have before : reporting ∈ history := by
    rw [split, List.append_cons]
    exact List.mem_append_left _ inside
  have earlier : ∀ {R : Polled → Polled → Prop}, history.Pairwise R → reporting ∈ front →
      R reporting polled := by
    intro R pairwise membership
    rw [split] at pairwise
    exact (List.pairwise_append.mp pairwise).2.2 reporting membership polled List.mem_cons_self
  rcases List.mem_append.mp inside with past | present
  · cases source with
    | payloadAttributes =>
        exact absurd ((polls.mem_payloadAttributes before).mp reports) (earlier ends.last past)
    | newHead =>
        obtain ⟨item, found⟩ := earlier ends.newHead past reports
        cases other with
        | payloadAttributes =>
            rw [(polls.mem_payloadAttributes now).mp waits] at found
            cases found
        | newHead => exact absurd rfl different
  · obtain rfl := List.mem_singleton.mp present
    cases source with
    | payloadAttributes =>
        cases other with
        | payloadAttributes => exact absurd rfl different
        | newHead =>
            have ended := (polls.mem_payloadAttributes now).mp reports
            exact absurd ((polls.mem_newHead now).mp waits).2 (ends.together reporting now ended)
    | newHead =>
        obtain ⟨quiet, ended⟩ := (polls.mem_newHead now).mp reports
        rw [congrArg Completed.result (polls.eq_poll now), (poll_of_quiet quiet).2, ended]
        rfl

/-- The merged stream never runs on a dead subscription exactly when the
subscriptions end last. -/
theorem never_dead_iff (polls : Polls stream history after) :
    NeverDead history ↔ EndsLast history := by
  constructor
  · exact endsLast_of_neverDead polls
  · intro ends
    refine ⟨?_, ends.notAgain polls, ?_⟩
    · exact fun polled membership result source => ends.pending polls membership result source
    · intro front polled later split source other different reported waits
      have ended := ends.reconnects polls split different reported waits
      exact ⟨ended, reconnects_of_ended polls (by simp [split]) ended⟩

end Subscriptions

section Frozen

/-- The payload attributes give one event and end, while heads keep coming. -/
def frozen : BeaconEventsStream where
  payloadAttributes
    | 0 => .ready (some (.ok ⟨⟨1, .zero, .zero⟩⟩))
    | _ => .ready none
  newHead
    | 0 => .pending
    | number => .ready (some (.ok ⟨number.toUInt64⟩))

/-- Three polls of this stream. -/
def frozenPolls : List Polled × BeaconEventsStream :=
  responder.serve (fun _ => pollNext) frozen [(), (), ()]

theorem frozenPolls_polls : Polls frozen frozenPolls.1 frozenPolls.2 :=
  responder.serve_serial _ _ _

theorem frozen_never_dead_iff : NeverDead frozenPolls.1 ↔ EndsLast frozenPolls.1 :=
  never_dead_iff frozenPolls_polls

/-- The second poll finds the payload attributes ended, and is pending all the same. -/
theorem end_unnoticed : Polls frozen frozenPolls.1 frozenPolls.2 ∧ ¬ NeverDead frozenPolls.1 := by
  refine ⟨frozenPolls_polls, fun never => ?_⟩
  have second : frozen.poll.after.poll ∈ frozenPolls.1 := List.mem_of_getElem? (i := 1) rfl
  have asked := never.pending _ second rfl .payloadAttributes
  have waits := (frozenPolls_polls.mem_payloadAttributes second).mp asked
  cases waits

end Frozen

end MevRelay
