import MevRelay.Relay.Service
import MevRelay.Relay.Coverage

/-!
# Polling the service

The service as a task of the relay: it is polled again and again while requests
are handled beside it.  What it stores is what its subscriptions have told it,
event by event.
-/

namespace MevRelay

open Concurrent BeaconEventsStream

/-- What a poll of the service answers, whether it has woken its task, and the
service before and after it. -/
structure ServicePolled where
  before : RelayService
  result : Poll Unit
  woken : Bool
  after : RelayService

namespace RelayService

/-- Whether a poll wakes the task of the service again before it returns. -/
def wakes (service : RelayService) : Bool :=
  match service.inner with
  | .beaconEvents stream =>
      match stream.poll.result with
      | .ready (some _) => true
      | .ready none => true
      | .pending => false
  | .pendingConnection connection =>
      match connection.head with
      | .ready _ => true
      | .pending => false

/-- Poll the service as a task.  It never finishes: every arm answers pending. -/
def pollTask (service : RelayService) : Program Calls ServicePolled := do
  let after ← service.poll
  return ⟨service, .pending, service.wakes, after⟩

/-- Poll the task of the service a number of times. -/
def pollTasks : Nat → RelayService → Program Calls (List ServicePolled)
  | 0, _ => return []
  | count + 1, service => do
      let polled ← service.pollTask
      let rest ← pollTasks count polled.after
      return polled :: rest

/-- The subscriptions that a poll of the service polls, with their answers. -/
def asked (service : RelayService) : List (Record Sources) :=
  match service.inner with
  | .beaconEvents stream => stream.poll.calls
  | .pendingConnection _ => []

/-- A poll finds the stream or the connection that it polls pending, and with
the stream one of its subscriptions. -/
def FindsPending (service : RelayService) : Prop :=
  match service.inner with
  | .beaconEvents stream =>
      stream.poll.result = .pending ∧ ∃ source : Source, ⟨source, .pending⟩ ∈ stream.poll.calls
  | .pendingConnection connection => connection.head = .pending

end RelayService

/-- What the subscriptions have answered over a number of polls. -/
def askedIn (polls : List ServicePolled) : List (Record Sources) :=
  polls.flatMap fun polled => polled.before.asked

/-- The events taken from the subscriptions, in the order taken. -/
def takenIn (polls : List ServicePolled) : List BeaconEvent := (askedIn polls).filterMap event?

/-- The head slot and the payload attributes. -/
def InMemoryStorage.chain (store : InMemoryStorage) : HeadSlot × PayloadAttributes :=
  (store.slot, store.payloadAttributes)

/-- Apply an event to the head slot and the payload attributes. -/
def BeaconEvent.applyTo : HeadSlot × PayloadAttributes → BeaconEvent →
    HeadSlot × PayloadAttributes
  | (_, attributes), .head event => (⟨event.slot⟩, attributes)
  | (slot, _), .payloadAttribute event => (slot, event.data)

/-- The head for which an event calls for a refresh. -/
def BeaconEvent.refresh? : BeaconEvent → Option HeadSlot
  | .head event => if event.slot % 32 = 0 then some ⟨event.slot⟩ else none
  | .payloadAttribute _ => none

/-- The calls with which the service handles an event. -/
def BeaconEvent.calls : BeaconEvent → List (Record Calls)
  | .payloadAttribute event =>
      [answered (.recordRelayedBlock event.data.parentBlockHash) (),
        answered (.writePayloadAttributes event.data) ()]
  | .head event =>
      answered (.setHeadSlot ⟨event.slot⟩) () ::
        if event.slot % 32 = 0 then [⟨.spawnRefresh ⟨event.slot⟩, ()⟩] else []

/-- Successive polls of one connection, whose stream is at first the given one. -/
structure OneConnection (stream : BeaconEventsStream) (polls : List ServicePolled) : Prop where
  starts : ∀ first ∈ polls.head?, first.before.inner = .beaconEvents stream
  stays : ∀ polled ∈ polls, ∃ current, polled.before.inner = .beaconEvents current

/-- How a poll takes the service from one state to the next. -/
structure Stepped (service : RelayService) (polled : ServicePolled) : Prop where
  before : polled.before = service
  wakes : polled.result = .pending → polled.woken = true ∨ service.FindsPending
  onward : ∀ stream next, service.inner = .beaconEvents stream →
    polled.after.inner = .beaconEvents next → next = stream.poll.after
  reconnected : ∀ connection stream, service.inner = .pendingConnection connection →
    connection.head = .ready stream → polled.after.inner = .beaconEvents stream

/-- Polls of a service one after the other. -/
inductive Stepwise : RelayService → List ServicePolled → Prop where
  | nil {service} : Stepwise service []
  | cons {service polled rest} : Stepped service polled → Stepwise polled.after rest →
      Stepwise service (polled :: rest)

section Poll

variable {service : RelayService} {past : List (Record Calls)}

/-- A poll that does not wake its task has found something pending. -/
theorem RelayService.findsPending_of_not_wakes (asleep : service.wakes = false) :
    service.FindsPending := by
  obtain ⟨inner, connections⟩ := service
  cases inner with
  | beaconEvents stream =>
      simp only [wakes] at asleep
      split at asleep
      · cases asleep
      · cases asleep
      · rename_i waits
        obtain ⟨quiet, pending⟩ := result_pending_iff.mp waits
        exact ⟨waits, .newHead, mem_calls_newHead.mpr ⟨quiet, pending⟩⟩
  | pendingConnection connection =>
      simp only [wakes] at asleep
      split at asleep
      · cases asleep
      · rename_i waits
        exact waits

theorem holds_onEvent (event : BeaconEvent) :
    (Outline.mk (fun _ _ => True) fun calls (_ : Unit) => calls = past ++ event.calls).Holds past
      (RelayService.onEvent event) := by
  cases event with
  | payloadAttribute event =>
      refine ⟨trivial, fun _ => ⟨trivial, fun _ => ?_⟩⟩
      simp [BeaconEvent.calls]
  | head event =>
      refine ⟨trivial, fun _ => ?_⟩
      by_cases first : event.slot % 32 = 0
      · simp only [Program.pure_eq_done, first, if_true]
        exact ⟨trivial, fun _ => by simp [BeaconEvent.calls, first]⟩
      · simp only [Program.pure_eq_done, first, if_false]
        show past ++ [_] = past ++ BeaconEvent.calls (.head event)
        simp [BeaconEvent.calls, first]

/-- One poll: the calls are those that handle the event it takes, if any. -/
theorem holds_pollTask (service : RelayService) :
    (Outline.mk (fun _ _ => True) fun calls polled =>
      calls = past ++ (service.asked.filterMap event?).flatMap BeaconEvent.calls ∧
        Stepped service polled).Holds past service.pollTask := by
  have wakes : service.wakes = true ∨ service.FindsPending := by
    cases asleep : service.wakes with
    | true => exact .inl rfl
    | false => exact .inr (RelayService.findsPending_of_not_wakes asleep)
  obtain ⟨inner, connections⟩ := service
  cases inner with
  | beaconEvents stream =>
      have taken := filterMap_event?_poll stream
      have onward : ∀ after : Inner, (∀ next, after = .beaconEvents next → next = stream.poll.after) →
          ∀ others, Stepped ⟨.beaconEvents stream, connections⟩
            ⟨⟨.beaconEvents stream, connections⟩, .pending,
              RelayService.wakes ⟨.beaconEvents stream, connections⟩, ⟨after, others⟩⟩ := by
        intro after same others
        refine ⟨rfl, fun _ => wakes, ?_, ?_⟩
        · rintro _ next ⟨⟩ found
          exact same next found
        · rintro connection _ ⟨⟩
      simp only [RelayService.asked, taken, RelayService.pollTask, RelayService.poll]
      cases result : stream.poll.result with
      | pending => exact ⟨by simp, onward _ (by rintro _ ⟨⟩; rfl) _⟩
      | ready event? =>
          cases event? with
          | none => exact ⟨by simp, onward _ (by rintro _ ⟨⟩) _⟩
          | some event =>
              rw [Program.bind_assoc]
              refine Outline.Holds.bind ((holds_onEvent event).mono (fun _ _ _ => trivial) ?_)
              rintro calls _ rfl
              exact ⟨by simp, onward _ (by rintro _ ⟨⟩; rfl) _⟩
  | pendingConnection connection =>
      simp only [RelayService.asked, RelayService.pollTask, RelayService.poll]
      cases answer : connection.head with
      | pending =>
          refine ⟨by simp, rfl, fun _ => wakes, ?_, ?_⟩
          · rintro _ _ ⟨⟩
          · rintro _ stream ⟨⟩ ready
            rw [answer] at ready
            cases ready
      | ready stream =>
          refine ⟨by simp, rfl, fun _ => wakes, ?_, ?_⟩
          · rintro _ _ ⟨⟩
          · rintro _ other ⟨⟩ ready
            rw [answer] at ready
            cases ready
            rfl

/-- Any number of polls: the calls are those that handle the events taken, in order. -/
theorem holds_pollTasks (count : Nat) (service : RelayService) :
    (Outline.mk (fun _ _ => True) fun calls polls =>
      calls = past ++ (takenIn polls).flatMap BeaconEvent.calls ∧ polls.length = count ∧
        Stepwise service polls).Holds past (RelayService.pollTasks count service) := by
  induction count generalizing past service with
  | zero => exact ⟨by simp [takenIn, askedIn], rfl, .nil⟩
  | succ count inductionHypothesis =>
      refine Outline.Holds.bind ((holds_pollTask service).mono (fun _ _ _ => trivial) ?_)
      rintro calls polled ⟨rfl, stepped⟩
      refine Outline.Holds.bind ((inductionHypothesis polled.after).mono (fun _ _ _ => trivial) ?_)
      rintro calls polls ⟨rfl, length, stepwise⟩
      refine ⟨?_, congrArg Nat.succ length, .cons stepped stepwise⟩
      simp [takenIn, askedIn, stepped.before]

end Poll

section Order

variable {service : RelayService} {polls stretch : List ServicePolled}
  {stream : BeaconEventsStream}

/-- What follows the first polls are polls of the service these have left. -/
theorem Stepwise.drop {front : List ServicePolled} (stepwise : Stepwise service (front ++ polls)) :
    ∃ later, Stepwise later polls := by
  induction front generalizing service with
  | nil => exact ⟨service, stepwise⟩
  | cons polled front inductionHypothesis =>
      cases stepwise with
      | cons _ rest => exact inductionHypothesis rest

/-- Over the polls of one connection each subscription gives its answers in its own order. -/
theorem Stepwise.advances (stepwise : Stepwise service (stretch ++ polls))
    (connection : OneConnection stream stretch) :
    ∃ later, Advances stream later (askedIn stretch) := by
  induction stretch generalizing service stream with
  | nil => exact ⟨stream, .refl stream⟩
  | cons polled rest inductionHypothesis =>
      cases stepwise with
      | cons stepped stepwise =>
          have first := connection.starts polled (by simp)
          have asked : polled.before.asked = stream.poll.calls := by
            rw [RelayService.asked, first]
          have continues : OneConnection stream.poll.after rest := by
            refine ⟨?_, fun other membership =>
              connection.stays other (List.mem_cons_of_mem _ membership)⟩
            intro next isNext
            obtain ⟨others, rfl⟩ : ∃ others, rest = next :: others := by
              cases rest with
              | nil => cases isNext
              | cons => cases isNext; exact ⟨_, rfl⟩
            obtain ⟨current, found⟩ := connection.stays next (by simp)
            cases stepwise with
            | cons nextStepped _ =>
                rw [stepped.before] at first
                have onward := nextStepped.before ▸ found
                rw [found, stepped.onward stream current first onward]
          obtain ⟨later, advances⟩ := inductionHypothesis stepwise continues
          refine ⟨later, ?_⟩
          rw [askedIn, List.flatMap_cons, asked]
          exact (poll_advances stream).trans advances

/-- After a connection has been re-established the next poll starts with its stream. -/
theorem Stepwise.reconnected {front later : List ServicePolled} {polled next : ServicePolled}
    (stepwise : Stepwise service (front ++ polled :: next :: later)) {connection : Connection}
    (waiting : polled.before.inner = .pendingConnection connection)
    (ready : connection.head = .ready stream) : next.before.inner = .beaconEvents stream := by
  obtain ⟨_, rest⟩ := stepwise.drop
  cases rest with
  | cons stepped rest =>
      cases rest with
      | cons nextStepped _ =>
          rw [stepped.before] at waiting
          rw [nextStepped.before]
          exact stepped.reconnected connection stream waiting ready

theorem Stepwise.wakes (stepwise : Stepwise service polls) {polled : ServicePolled}
    (membership : polled ∈ polls) (pending : polled.result = .pending) :
    polled.woken = true ∨ polled.before.FindsPending := by
  obtain ⟨front, later, rfl⟩ := List.append_of_mem membership
  obtain ⟨_, rest⟩ := stepwise.drop
  cases rest with
  | cons stepped _ =>
      rw [stepped.before]
      exact stepped.wakes pending

end Order

section Processes

variable [Crates]

/-- The requests that are beacon events, which the service handles itself. -/
def Request.isBeaconEvent : Request → Bool
  | .headEvent _ | .payloadAttributesEvent _ => true
  | _ => false

/-- What runs in the relay: the service, polled a number of times, and the
handlers of all other requests. -/
inductive Process where
  | service (count : Nat) (service : RelayService)
  | request (request : Request) (other : request.isBeaconEvent = false)

inductive ProcessEnd where
  | polled (polls : List ServicePolled)
  | replied (reply : Reply)

def Process.program (config : Config) : Process → Program Calls ProcessEnd
  | .service count start => ProcessEnd.polled <$> start.pollTasks count
  | .request asked _ => ProcessEnd.replied <$> handler config asked

/-- What the tasks of the relay keep to. -/
def processOutline : Process → Outline Calls ProcessEnd
  | .service count service =>
      (Outline.mk (fun _ _ => True) fun calls polls =>
        calls = (takenIn polls).flatMap BeaconEvent.calls ∧ polls.length = count ∧
          Stepwise service polls).map ProcessEnd.polled
  | .request request _ => (kindOutline request.kind).map ProcessEnd.replied

theorem holds_process (config : Config) (task : Process) :
    (processOutline task).Holds [] (task.program config) := by
  cases task with
  | service count service =>
      have holds : Outline.Holds _ [] (service.pollTasks count) := holds_pollTasks count service
      simp only [List.nil_append] at holds
      exact holds.map _
  | request request other => exact (holds_kinds config request).map _

abbrev ProcessEvent := Event Calls Process InMemoryStorage

abbrev ProcessWorld := World Calls Process ProcessEnd InMemoryStorage

/-- The service runs as one task, and every other task handles a request. -/
def OneService (world : ProcessWorld) (service : Nat) : Prop :=
  ∀ (task : Nat) process program, world.tasks[task]? = some ⟨process, program⟩ → task ≠ service →
    ∃ request other, process = .request request other

/-- What the service has stored is the result of the events taken, each applied
once and in the order taken. -/
structure AppliedOnce (init : InMemoryStorage) (trace : List ProcessEvent) (store : InMemoryStorage)
    (service : RelayService) (polls : List ServicePolled) : Prop where
  stored : store.chain = (takenIn polls).foldl BeaconEvent.applyTo init.chain
  /-- Within a connection the events of a kind are those of the first answers of
  their subscription, none left out and none repeated. -/
  inOrder : ∀ front stretch later stream, polls = front ++ stretch ++ later →
    OneConnection stream stretch → ∀ source, ∃ rest,
      stream.answers source = answersIn source (askedIn stretch) ++ₛ rest ∧
      (takenIn stretch).filterMap (ofSource? source) =
        (answersIn source (askedIn stretch)).filterMap ok?
  starts : ∀ first ∈ polls.head?, first.before = service
  reconnected : ∀ front polled next later connection stream,
    polls = front ++ polled :: next :: later →
    polled.before.inner = .pendingConnection connection → connection.head = .ready stream →
    next.before.inner = .beaconEvents stream
  refreshes : trace.filterMap (fun event => spawned? event.record) =
    (takenIn polls).filterMap BeaconEvent.refresh?
  wakes : ∀ polled ∈ polls, polled.result = .pending →
    polled.woken = true ∨ polled.before.FindsPending

end Processes

section Chain

/-- What a call makes of the head slot and the payload attributes. -/
def chainChange (record : Record Calls) (held : HeadSlot × PayloadAttributes) :
    HeadSlot × PayloadAttributes :=
  match record.1 with
  | .storage (.setHeadSlot slot) => (slot, held.2)
  | .storage (.writePayloadAttributes attributes) => (held.1, attributes)
  | _ => held

theorem chain_changes (c : Call) (store : InMemoryStorage) (answer : c.Response)
    (after : InMemoryStorage) (executed : exec c store answer after) :
    after.chain = chainChange ⟨c, answer⟩ store.chain := by
  rcases c with c | _ | _ | _ | _ | _
  case storage => obtain ⟨rfl, rfl⟩ := exec_storage.mp executed; cases c <;> rfl
  all_goals cases executed; rfl

/-- The calls that handle an event apply it. -/
theorem foldl_calls (event : BeaconEvent) (held : HeadSlot × PayloadAttributes) :
    event.calls.foldl (fun held record => chainChange record held) held = event.applyTo held := by
  cases event with
  | payloadAttribute event => rfl
  | head event =>
      by_cases first : event.slot % 32 = 0 <;> simp [BeaconEvent.calls, first] <;> rfl

theorem filterMap_calls (event : BeaconEvent) :
    event.calls.filterMap spawned? = event.refresh?.toList := by
  cases event with
  | payloadAttribute event => rfl
  | head event =>
      by_cases first : event.slot % 32 = 0 <;>
        simp [BeaconEvent.calls, BeaconEvent.refresh?, first] <;> rfl

end Chain

section Runs

variable [Crates] {config : Config} {init : InMemoryStorage} {trace : List ProcessEvent}
  {world : ProcessWorld} {task count : Nat} {service : RelayService} {polls : List ServicePolled}

omit [Crates] in
theorem kind_of_isBeaconEvent {request : Request} (other : request.isBeaconEvent = false) :
    request.kind ≠ .head ∧ request.kind ≠ .attributes := by
  cases request
  case headEvent | payloadAttributesEvent => cases other
  all_goals exact ⟨by simp [Request.kind], by simp [Request.kind]⟩

/-- No task but the service moves the head, sets the attributes or starts a refresh. -/
theorem kind_of_other (run : Run (Process.program config) exec init trace world)
    (only : OneService world task) {event : ProcessEvent} (membership : event ∈ trace)
    (other : event.task ≠ task) : event.call.kind ≠ .head ∧ event.call.kind ≠ .attributes := by
  obtain ⟨program, found⟩ := run.event_task membership
  obtain ⟨request, notEvent, asked⟩ := only _ _ _ found other
  obtain ⟨front, later, split⟩ := List.append_of_mem membership
  have own := run.outline_atCall (holds_process config) split
  rw [asked] at own
  obtain ⟨head, attributes⟩ := kind_of_isBeaconEvent notEvent
  rcases own with read | same
  · rw [read]
    exact ⟨by simp, by simp⟩
  · rw [same]
    exact ⟨head, attributes⟩

omit [Crates] in
theorem chainChange_of_kind {record : Record Calls}
    (kind : record.1.kind ≠ .head ∧ record.1.kind ≠ .attributes)
    (held : HeadSlot × PayloadAttributes) : chainChange record held = held := by
  obtain ⟨c, answer⟩ := record
  rcases c with c | _ | _ | _ | _ | _
  case storage => cases c <;> first | rfl | simp [Call.kind] at kind
  all_goals rfl

omit [Crates] in
theorem spawned?_of_kind {record : Record Calls} (kind : record.1.kind ≠ .head) :
    spawned? record = none := by
  apply Option.eq_none_iff_forall_ne_some.mpr
  intro head spawned
  rw [of_spawned? spawned] at kind
  exact kind rfl

/-- Events are applied exactly once and in order: in every run, with any requests
handled beside the service, after any number of polls. -/
theorem events_applied_once (run : Run (Process.program config) exec init trace world)
    (only : OneService world task)
    (polled : world.tasks[task]? = some ⟨.service count service, .done (.polled polls)⟩) :
    polls.length = count ∧ AppliedOnce init trace world.store service polls := by
  obtain ⟨_, same, calls, length, stepwise⟩ := run.outline_atResult (holds_process config) polled
  cases same
  refine ⟨length, ?_, ?_, ?_, ?_, ?_, ?_⟩
  · rw [run.view_of_task InMemoryStorage.chain chainChange chain_changes task fun event membership
      other held => chainChange_of_kind (kind_of_other run only membership other) held, calls,
      List.foldl_flatMap]
    exact congrArg (fun apply => (takenIn polls).foldl apply init.chain)
      (funext fun held => funext fun event => foldl_calls event held)
  · rintro front stretch later stream rfl connection source
    rw [List.append_assoc] at stepwise
    obtain ⟨_, remaining⟩ := stepwise.drop
    obtain ⟨rest, advances⟩ := remaining.advances connection
    exact ⟨rest.answers source, advances source, filterMap_ofSource? source _⟩
  · intro first isFirst
    cases stepwise with
    | nil => cases isFirst
    | cons stepped _ =>
        cases isFirst
        exact stepped.before
  · rintro front polled next later connection stream rfl waiting ready
    exact stepwise.reconnected waiting ready
  · rw [filterMap_past fun event membership other =>
      spawned?_of_kind (kind_of_other run only membership other).1, calls, List.filterMap_flatMap,
      List.filterMap_eq_flatMap_toList]
    exact congrArg (fun f => (takenIn polls).flatMap f) (funext filterMap_calls)
  · exact fun polled membership pending => stepwise.wakes membership pending

end Runs

section Reconnecting

open Demo

attribute [local instance] standIn

/-- A connection that gives payload attributes and then an error. -/
def failing : BeaconEventsStream where
  payloadAttributes
    | 0 => .ready (some (.ok ⟨Demo.attributes⟩))
    | _ => .ready (some (.error ⟨"max retries exceeded"⟩))
  newHead _ := .pending

/-- A connection that gives the head slot 32. -/
def recovered : BeaconEventsStream where
  payloadAttributes _ := .pending
  newHead
    | 0 => .ready (some (.ok ⟨32⟩))
    | _ => .pending

/-- A service whose first connection fails. -/
def reconnecting : RelayService where
  inner := .beaconEvents failing
  beaconEvents _
    | 0 => .pending
    | _ => .ready recovered

/-- Six polls of this service, with another request handled during them. -/
def reconnectingPlayed : Played Calls Process ProcessEnd InMemoryStorage :=
  surroundings.responder.play (Process.program config) config.init
    [.arrive (.service 6 reconnecting), .arrive (.request .getValidators rfl), .step 0, .step 1,
      .step 0, .step 0, .step 0]

theorem reconnectingPlayed_run : Run (Process.program config) exec config.init reconnectingPlayed.trace
    reconnectingPlayed.world :=
  surroundings.responder.play_run _ _ _

theorem reconnectingPlayed_only : OneService reconnectingPlayed.world 0 := by
  intro task process program found other
  have requests : reconnectingPlayed.world.tasks.map Task.request =
      [.service 6 reconnecting, .request .getValidators rfl] := rfl
  have asked := congrArg (fun tasks => tasks[task]?) requests
  simp only [List.getElem?_map, found, Option.map_some] at asked
  rcases task with _ | _ | task
  · exact absurd rfl other
  · cases asked
    exact ⟨_, _, rfl⟩
  · cases asked

theorem reconnecting_applied :
    ∃ polls, polls.length = 6 ∧ AppliedOnce config.init reconnectingPlayed.trace
      reconnectingPlayed.world.store reconnecting polls := by
  obtain ⟨polls, polled⟩ : ∃ polls, reconnectingPlayed.world.tasks[0]? =
      some ⟨.service 6 reconnecting, .done (.polled polls)⟩ := ⟨_, rfl⟩
  exact ⟨polls, events_applied_once reconnectingPlayed_run reconnectingPlayed_only polled⟩

end Reconnecting

end MevRelay
