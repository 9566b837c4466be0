import MevRelay.Beacon.Service

/-!
# Calls through the beacon service

Any number of callers use handles while the service is polled again and again,
and the service may be dropped at any point.  Whatever the order of the steps,
the callers get what they would have got by calling the beacon node's interface
themselves.
-/

namespace MevRelay

open Concurrent

/-- What goes on around the service. -/
inductive ServiceRequest where
  | handle (command : BeaconCommands)
  | poll (budget : Nat)
  | drop

inductive ServiceResult where
  | handled (command : BeaconCommands) (result : Except HandleError command.method.Output)
  | polled (poll : Poll Unit)
  | dropped

def serviceHandler : ServiceRequest → Program BeaconCalls ServiceResult
  | .handle command => ServiceResult.handled command <$> BeaconHandle.request command
  | .poll budget => ServiceResult.polled <$> BeaconService.poll budget
  | .drop => .call (.channel .close) fun _ => .done .dropped

/-- A call that has reached the interface of the beacon node. -/
structure ApiCall where
  method : BeaconMethod
  future : BoxedFuture method
  answer : Except String method.Output

/-- The channels, and all calls that have reached the interface. -/
structure ServiceState where
  mailbox : Mailbox beaconProtocol
  reached : List ApiCall

def ServiceState.new : ServiceState := ⟨.new, []⟩

/-- A future that is driven calls the interface, which may answer anything. -/
def serviceExec : Semantics BeaconCalls ServiceState
  | .channel c, state, answer, after =>
      Mailbox.exec c state.mailbox answer after.mailbox ∧ after.reached = state.reached
  | .drive method future, state, answer, after =>
      after = { state with reached := state.reached ++ [⟨method, future, answer⟩] }

abbrev ServiceEvent := Event BeaconCalls ServiceRequest ServiceState

abbrev ServiceWorld := World BeaconCalls ServiceRequest ServiceResult ServiceState

/-- Runs of callers and service. -/
abbrev ServiceRun : List ServiceEvent → ServiceWorld → Prop :=
  Run serviceHandler serviceExec .new

abbrev DirectCalls : Signature :=
  ⟨BeaconCommands, fun command => Except HandleError command.method.Output⟩

/-- Callers that call the interface themselves, or fail without calling it. -/
def directExec : Semantics DirectCalls (List ApiCall) := fun command reached answer after =>
  (∃ reply, answer = reply.mapError .report ∧
    after = reached ++ [⟨command.method, BeaconService.future command, reply⟩]) ∨
  (answer = .error .brokenSendChannel ∨ answer = .error .brokenRecvChannel) ∧ after = reached

def directHandler : ServiceRequest → Program DirectCalls ServiceResult
  | .handle command => .call command fun result => .done (.handled command result)
  | .poll _ => .done (.polled .pending)
  | .drop => .done .dropped

abbrev DirectRun : List (Event DirectCalls ServiceRequest (List ApiCall)) →
    World DirectCalls ServiceRequest ServiceResult (List ApiCall) → Prop :=
  Run directHandler directExec []

/-- The call on the channels that a step makes. -/
def channelCall? : Record BeaconCalls → Option (Record (MailboxCalls beaconProtocol))
  | ⟨.channel c, answer⟩ => some ⟨c, answer⟩
  | ⟨.drive _ _, _⟩ => none

def serviceMailbox : Component serviceExec (Mailbox.exec (P := beaconProtocol)) where
  state := ServiceState.mailbox
  record? := channelCall?
  acts c store answer after record executed found := by
    cases c with
    | channel c =>
        cases found
        exact executed.1
    | drive method future => cases found
  rests c store answer after executed found := by
    cases c with
    | channel c => cases found
    | drive method future =>
        cases executed
        rfl

/-- How the steps of callers and service relate to direct calls. -/
def serviceLink : Link BeaconCalls DirectCalls where
  possible past record := ∀ command receiver (answer : Option (BoxedFuture command.method)),
    past.getLast? = some ⟨.channel (.send command), some receiver⟩ →
    record = ⟨.channel (.receive command.method receiver), answer⟩ →
    answer = some (BeaconService.future command) ∨ answer = none
  silent _ record := ∃ c, record.1 = .channel c
  commits _ record direct :=
    (∃ command, record = ⟨.channel (.send command), none⟩ ∧
      direct = ⟨command, .error .brokenSendChannel⟩) ∨
    (∃ command receiver, record = ⟨.channel (.receive command.method receiver), none⟩ ∧
      direct = ⟨command, .error .brokenRecvChannel⟩) ∨
    ∃ command reply, record = ⟨.drive command.method (BeaconService.future command), reply⟩ ∧
      direct = ⟨command, reply.mapError .report⟩

section Handlers

variable (past : List (Record BeaconCalls))

theorem request_follows (command : BeaconCommands) :
    Follows serviceLink past (BeaconHandle.request command) (.call command .done) := by
  intro sent _
  cases sent with
  | none => exact .inr ⟨command, _, _, rfl, .inl ⟨command, rfl, rfl⟩, rfl⟩
  | some receiver =>
      refine .inl ⟨⟨_, rfl⟩, fun received possible => ?_⟩
      rcases possible command receiver received (by simp) rfl with rfl | rfl
      · refine .inl ⟨⟨_, rfl⟩, Follows.commit fun reply _ => ⟨_, ?_, rfl⟩⟩
        exact .inr (.inr ⟨command, reply, rfl, rfl⟩)
      · exact .inr ⟨command, _, _, rfl, .inr (.inl ⟨command, receiver, rfl, rfl⟩), rfl⟩

theorem poll_follows (budget : Nat) :
    Follows serviceLink past (BeaconService.poll budget) (.done .pending) := by
  induction budget generalizing past with
  | zero => exact .done _
  | succ budget inductionHypothesis =>
      refine .quiet fun taken _ => ⟨⟨_, rfl⟩, ?_⟩
      cases taken with
      | none => exact .done _
      | some command => exact .quiet fun _ _ => ⟨⟨_, rfl⟩, inductionHypothesis _⟩

theorem serviceHandler_follows (request : ServiceRequest) :
    Follows serviceLink past (serviceHandler request) (directHandler request) := by
  cases request with
  | handle command =>
      exact (request_follows past command).bind fun past result => .done _
  | poll budget =>
      exact (poll_follows past budget).bind fun past result => .done _
  | drop => exact .quiet fun _ _ => ⟨⟨_, rfl⟩, .done _⟩

theorem poll_honest (budget : Nat) :
    serviceMailbox.honest.Holds past (BeaconService.poll budget) := by
  induction budget generalizing past with
  | zero => trivial
  | succ budget inductionHypothesis =>
      refine ⟨fun _ _ _ same => (by cases same), fun taken => ?_⟩
      cases taken with
      | none => trivial
      | some command =>
          refine ⟨fun _ replied job same => ?_, fun _ => inductionHypothesis _⟩
          cases same
          rfl

theorem request_honest (command : BeaconCommands) :
    serviceMailbox.honest.Holds past (BeaconHandle.request command) := by
  refine ⟨fun _ _ _ same => (by cases same), fun sent => ?_⟩
  cases sent with
  | none => trivial
  | some receiver =>
      refine ⟨fun _ _ _ same => (by cases same), fun received => ?_⟩
      cases received with
      | none => trivial
      | some future => exact ⟨fun _ _ _ same => (by cases same), fun _ => trivial⟩

theorem serviceHandler_honest (request : ServiceRequest) :
    serviceMailbox.honest.Holds past (serviceHandler request) := by
  cases request with
  | handle command => exact (request_honest past command).map _ |>.mono (fun _ _ allowed => allowed) fun _ _ _ => trivial
  | poll budget => exact (poll_honest past budget).map _ |>.mono (fun _ _ allowed => allowed) fun _ _ _ => trivial
  | drop => exact ⟨fun _ _ _ same => (by cases same), fun _ => trivial⟩

/-- The steps of a handle: send the command, receive the future, drive it. -/
def requestOutline (command : BeaconCommands) :
    Outline BeaconCalls (Except HandleError command.method.Output) where
  atCall past c :=
    past = [] ∧ c = .channel (.send command) ∨
    (∃ receiver, past = [⟨.channel (.send command), some receiver⟩] ∧
      c = .channel (.receive command.method receiver)) ∨
    ∃ future, c = .drive command.method future
  atResult past result :=
    (result = .error .brokenSendChannel → ⟨.channel (.send command), none⟩ ∈ past) ∧
    (result = .error .brokenRecvChannel → ∃ receiver,
      ⟨.channel (.send command), some receiver⟩ ∈ past ∧
        ⟨.channel (.receive command.method receiver), none⟩ ∈ past)

theorem holds_request (command : BeaconCommands) :
    (requestOutline command).Holds [] (BeaconHandle.request command) := by
  refine ⟨.inl ⟨rfl, rfl⟩, fun sent => ?_⟩
  cases sent with
  | none => exact ⟨fun _ => by simp, fun broken => by cases broken⟩
  | some receiver =>
      refine ⟨.inr (.inl ⟨receiver, rfl, rfl⟩), fun received => ?_⟩
      cases received with
      | none => exact ⟨fun broken => (by cases broken), fun _ => ⟨receiver, by simp⟩⟩
      | some future =>
          refine ⟨.inr (.inr ⟨future, rfl⟩), fun reply => ?_⟩
          cases reply <;> exact ⟨fun broken => (by cases broken), fun broken => by cases broken⟩

/-- The service and its end leave sending and receiving to the handles. -/
def idleOutline : Outline BeaconCalls ServiceResult where
  atCall _ c := (∀ command, c ≠ .channel (.send command)) ∧
    ∀ method receiver, c ≠ .channel (.receive method receiver)
  atResult _ _ := True

theorem holds_poll (budget : Nat) :
    idleOutline.Holds past (ServiceResult.polled <$> BeaconService.poll budget) := by
  induction budget generalizing past with
  | zero => trivial
  | succ budget inductionHypothesis =>
      refine ⟨⟨fun _ same => (by cases same), fun _ _ same => (by cases same)⟩, fun taken => ?_⟩
      cases taken with
      | none => trivial
      | some command => exact ⟨⟨fun _ same => (by cases same), fun _ _ same => (by cases same)⟩, fun _ => inductionHypothesis _⟩

/-- The outline of every request. -/
def serviceOutline : ServiceRequest → Outline BeaconCalls ServiceResult
  | .handle command => (requestOutline command).map (.handled command)
  | .poll _ | .drop => idleOutline

theorem holds_serviceHandler (request : ServiceRequest) :
    (serviceOutline request).Holds [] (serviceHandler request) := by
  cases request with
  | handle command => exact (holds_request command).map _
  | poll budget => exact holds_poll [] budget
  | drop => exact ⟨⟨fun _ same => (by cases same), fun _ _ same => (by cases same)⟩, fun _ => trivial⟩

end Handlers

/-- With definite answers of the interface, every step that does not wait is definite. -/
def serviceStepper (api : (method : BeaconMethod) → BoxedFuture method → Except String method.Output) :
    Stepper serviceExec where
  step?
    | .channel c, state =>
        (Mailbox.step? c state.mailbox).map fun stepped =>
          (stepped.1, { state with mailbox := stepped.2 })
    | .drive method future, state =>
        some (api method future,
          { state with reached := state.reached ++ [⟨method, future, api method future⟩] })
  sound c state answer after stepped := by
    cases c with
    | channel c =>
        obtain ⟨⟨response, box⟩, found, same⟩ := Option.map_eq_some_iff.mp stepped
        cases same
        exact ⟨Mailbox.step?_sound c _ _ _ found, rfl⟩
    | drive method future =>
        cases stepped
        rfl

namespace Demo

/-- A beacon node at slot 5 that does not know of duties. -/
def beaconNode : (method : BeaconMethod) → BoxedFuture method → Except String method.Output
  | .syncStatus, _ => .ok ⟨⟨5, false⟩⟩
  | _, _ => .error "unavailable"

/-- Two callers whose commands are answered in one poll, and who go on in the other order. -/
@[irreducible]
def overtaking : Played BeaconCalls ServiceRequest ServiceResult ServiceState :=
  (serviceStepper beaconNode).play serviceHandler .new
    [.arrive (.handle .syncStatus), .arrive (.handle (.proposerDuties 7)), .step 0, .step 1,
      .arrive (.poll 3), .step 2, .step 2, .step 2, .step 2, .step 2, .step 1, .step 1, .step 0, .step 0]

theorem overtaking_run : ServiceRun overtaking.trace overtaking.world := by
  unfold overtaking
  exact (serviceStepper beaconNode).play_run serviceHandler .new _

theorem overtaking_returned :
    overtaking.world.tasks[0]? = some ⟨.handle .syncStatus,
      .done (.handled .syncStatus (.ok ⟨⟨5, false⟩⟩))⟩ ∧
    overtaking.world.tasks[1]? = some ⟨.handle (.proposerDuties 7),
      .done (.handled (.proposerDuties 7) (.error (.report "unavailable")))⟩ ∧
    overtaking.world.store.reached.map ApiCall.method = [.proposerDuties, .syncStatus] := by
  unfold overtaking
  exact ⟨rfl, rfl, rfl⟩

/-- A caller whose command is still in the queue when the service is dropped. -/
@[irreducible]
def abandoned : Played BeaconCalls ServiceRequest ServiceResult ServiceState :=
  (serviceStepper beaconNode).play serviceHandler .new
    [.arrive (.handle .syncStatus), .step 0, .arrive .drop, .step 1, .step 0]

theorem abandoned_run : ServiceRun abandoned.trace abandoned.world := by
  unfold abandoned
  exact (serviceStepper beaconNode).play_run serviceHandler .new _

theorem abandoned_returned :
    abandoned.world.tasks[0]? = some ⟨.handle .syncStatus,
      .done (.handled .syncStatus (.error .brokenRecvChannel))⟩ := by
  unfold abandoned
  rfl

/-- Two callers, and a poll that answers both and runs out of commands. -/
@[irreducible]
def drained : Played BeaconCalls ServiceRequest ServiceResult ServiceState :=
  (serviceStepper beaconNode).play serviceHandler .new
    [.arrive (.handle .syncStatus), .arrive (.handle .forkData), .step 0, .step 1,
      .arrive (.poll 3), .step 2, .step 2, .step 2, .step 2, .step 2]

theorem drained_run : ServiceRun drained.trace drained.world := by
  unfold drained
  exact (serviceStepper beaconNode).play_run serviceHandler .new _

theorem drained_ends :
    drained.trace.getLast?.map Event.record = some ⟨.channel .next, none⟩ := by
  unfold drained
  rfl

theorem drained_waits : ∃ next, drained.world.tasks[1]? = some ⟨.handle .forkData,
    .call (.channel (.receive .getForkData 1)) next⟩ := by
  unfold drained
  exact ⟨_, rfl⟩

end Demo

section Runs

variable {trace front : List ServiceEvent} {world : ServiceWorld} {event : ServiceEvent}

theorem service_served (run : ServiceRun trace world) :
    Mailbox.Served (serviceMailbox.history trace) world.store.mailbox :=
  serviceMailbox.served run rfl (serviceHandler_honest [])

/-- The mailbox serves its commands also right before a step. -/
theorem service_served_before (run : ServiceRun (front ++ [event]) world) :
    Mailbox.Served (serviceMailbox.history front) event.before.mailbox := by
  obtain ⟨⟨middle, shorter, same⟩, _⟩ := run.of_concat
  rw [← same]
  exact service_served shorter

theorem mem_history_of_past {c : MailboxCall beaconProtocol} {answer : c.Response} {task : Nat}
    (membership : ⟨.channel c, answer⟩ ∈ past task trace) :
    ⟨c, answer⟩ ∈ serviceMailbox.history trace := by
  obtain ⟨event, inside, _, same⟩ := mem_past.mp membership
  exact List.mem_filterMap.mpr ⟨event, inside, by rw [same]; rfl⟩

theorem serviceLink_sound : serviceLink.Sound serviceHandler serviceExec .new directExec
    (fun _ state reached => reached = state.reached) where
  possible front event middle run := by
    intro command receiver answer last same
    have sent := mem_history_of_past (List.mem_of_getLast? last)
    have executed := run.of_concat.2
    obtain ⟨task, request, c, response, before, after⟩ := event
    cases same
    rcases (service_served_before run).received sent executed.1 with found | ⟨none, _⟩
    · exact .inl found
    · exact .inr none
  silent front event middle reached run silent related := by
    have executed := run.of_concat.2
    obtain ⟨task, request, c, response, before, after⟩ := event
    obtain ⟨c, rfl⟩ := silent
    rw [related]
    exact executed.2.symm
  commits front event middle reached call response run commits related := by
    have executed := run.of_concat.2
    obtain ⟨task, request, c, answer, before, after⟩ := event
    rcases commits with ⟨command, same, direct⟩ | ⟨command, receiver, same, direct⟩ |
      ⟨command, reply, same, direct⟩
    · cases same
      cases direct
      exact ⟨reached, .inr ⟨.inl rfl, rfl⟩, related.trans executed.2.symm⟩
    · cases same
      cases direct
      exact ⟨reached, .inr ⟨.inr rfl, rfl⟩, related.trans executed.2.symm⟩
    · cases same
      cases direct
      refine ⟨_, .inl ⟨_, rfl, rfl⟩, ?_⟩
      rw [related]
      exact (congrArg ServiceState.reached executed).symm

/-- Calls through the service are direct calls: the same calls reach the
interface in the same order, and every caller gets the same result. -/
theorem service_refines_direct_calls (run : ServiceRun trace world) :
    ∃ directTrace directWorld, DirectRun directTrace directWorld ∧
      directWorld.store = world.store.reached ∧
      ∀ (task : Nat) request result, world.tasks[task]? = some ⟨request, .done result⟩ →
        directWorld.tasks[task]? = some ⟨request, .done result⟩ := by
  obtain ⟨directTrace, directWorld, direct, related, tracks, _⟩ :=
    run.refine serviceLink_sound (serviceHandler_follows []) rfl
  exact ⟨directTrace, directWorld, direct, related,
    fun task request result => tracks.returned⟩

/-- The commands that have been sent, with their reply channels. -/
def sentIn (trace : List ServiceEvent) : List (Command beaconProtocol) :=
  (serviceMailbox.history trace).filterMap Mailbox.sent?

/-- The commands that the service has answered. -/
def repliedIn (trace : List ServiceEvent) : List (Command beaconProtocol) :=
  (serviceMailbox.history trace).filterMap Mailbox.replied?

/-- The service has been dropped. -/
def Dropped (trace : List ServiceEvent) : Prop := ∃ event ∈ trace, event.call = .channel .close

/-- The channel of commands is open until the service is dropped. -/
theorem isOpen_of_not_dropped (run : ServiceRun trace world) (kept : ¬ Dropped trace) :
    world.store.mailbox.isOpen = true := by
  refine run.invariant (fun trace state => ¬ Dropped trace → state.mailbox.isOpen = true)
    (fun _ => rfl) ?_ kept
  rintro front event ⟨middle, reached⟩ executed open? kept
  have before := open? fun ⟨closing, membership, close⟩ =>
    kept ⟨closing, List.mem_append_left _ membership, close⟩
  obtain ⟨task, request, c, answer, state, after⟩ := event
  cases c with
  | drive method future =>
      exact (congrArg (fun state => state.mailbox.isOpen) executed).trans before
  | channel c =>
      obtain ⟨executed, _⟩ := executed
      cases c with
      | send body =>
          simp only [Mailbox.exec] at executed
          split at executed <;> (rw [executed.2]; exact before)
      | receive kind channel =>
          obtain ⟨_, _, _, same⟩ := executed
          rw [same]
          exact before
      | next =>
          obtain ⟨_, _, rest⟩ := executed
          split at rest <;> (rw [rest.2]; exact before)
      | reply command job =>
          rw [executed.2]
          exact before
      | close => exact absurd ⟨_, List.mem_append_right _ (List.mem_singleton_self _), rfl⟩ kept

/-- Commands are answered in the order in which they were sent, each once and
with its own future; and until the service is dropped, those not answered are
all with the service. -/
theorem service_answers_in_order (run : ServiceRun trace world) :
    (∃ waiting, repliedIn trace ++ waiting = sentIn trace ∧
      (¬ Dropped trace → waiting = world.store.mailbox.pending)) ∧
    ∀ event ∈ trace, ∀ command future, event.call = .channel (.reply command future) →
      future = BeaconService.future command.body := by
  constructor
  · obtain ⟨waiting, balance, level⟩ := (service_served run).replies
    exact ⟨waiting, balance, fun kept => level (isOpen_of_not_dropped run kept)⟩
  · intro event membership command future same
    obtain ⟨front, later, split⟩ := List.append_of_mem membership
    have honest := run.outline_atCall (serviceHandler_honest []) split
    rw [same] at honest
    exact honest () command future rfl

/-- Whoever receives has sent a command and is at its reply. -/
theorem sent_of_receive (run : ServiceRun trace world) {later : List ServiceEvent}
    (split : trace = front ++ event :: later) {method : BeaconMethod} {receiver : Nat}
    (receives : event.call = .channel (.receive method receiver)) :
    ∃ command, event.request = .handle command ∧ method = command.method ∧
      past event.task front = [⟨.channel (.send command), some receiver⟩] := by
  have allowed := run.outline_atCall holds_serviceHandler split
  rw [receives] at allowed
  cases asked : event.request with
  | handle command =>
      rw [asked] at allowed
      rcases allowed with ⟨_, other⟩ | ⟨_, before, same⟩ | ⟨_, other⟩
      · cases other
      · cases same
        exact ⟨command, rfl, rfl, before⟩
      · cases other
  | poll budget =>
      rw [asked] at allowed
      exact absurd rfl (allowed.2 method receiver)
  | drop =>
      rw [asked] at allowed
      exact absurd rfl (allowed.2 method receiver)

theorem dropped_before (run : ServiceRun trace world) (membership : event ∈ trace)
    (shut : event.before.mailbox.isOpen = false) : Dropped trace := by
  obtain ⟨front, later, rfl⟩ := List.append_of_mem membership
  obtain ⟨middle, shorter, same⟩ := run.prefix_before rfl
  by_contra kept
  have isOpen := isOpen_of_not_dropped shorter fun ⟨closing, inside, close⟩ =>
    kept ⟨closing, List.mem_append_left _ inside, close⟩
  rw [same, shut] at isOpen
  cases isOpen

/-- A handle reports a broken channel only if the service has been dropped. -/
theorem broken_channels_mean_dropped (run : ServiceRun trace world) {task : Nat}
    {command : BeaconCommands} {result : Except HandleError command.method.Output}
    (returned : world.tasks[task]? = some ⟨.handle command, .done (.handled command result)⟩)
    (broken : result = .error .brokenSendChannel ∨ result = .error .brokenRecvChannel) :
    Dropped trace := by
  obtain ⟨_, same, sendBroken, receiveBroken⟩ :=
    run.outline_atResult holds_serviceHandler returned
  injection same with _ same
  subst same
  rcases broken with broken | broken
  · obtain ⟨event, membership, _, record⟩ := mem_past.mp (sendBroken broken)
    have executed := run.executed membership
    refine dropped_before run membership ?_
    by_contra isOpen
    obtain ⟨task, request, c, answer, before, after⟩ := event
    cases record
    have sent := executed.1
    simp only [Mailbox.exec, if_pos (Bool.eq_true_of_not_eq_false isOpen)] at sent
    cases sent.1
  · obtain ⟨receiver, _, received⟩ := receiveBroken broken
    obtain ⟨event, membership, _, record⟩ := mem_past.mp received
    have executed := run.executed membership
    refine dropped_before run membership ?_
    obtain ⟨front, later, split⟩ := List.append_of_mem membership
    obtain ⟨middle, shorter, same⟩ := run.prefix_before split
    have served := service_served shorter
    rw [same] at served
    obtain ⟨asked, _, method, before⟩ := sent_of_receive run split
      (show event.call = .channel (.receive command.method receiver) from congrArg Sigma.fst record)
    have sent := mem_history_of_past (before ▸ List.mem_singleton_self _)
    obtain ⟨task, request, c, answer, state, after⟩ := event
    cases record
    have received := executed.1
    rw [method] at received
    rcases served.received sent received with found | ⟨_, shut⟩
    · cases found
    · exact shut

/-- A reply channel belongs to one task. -/
theorem sender_unique (run : ServiceRun trace world) {first second : ServiceEvent}
    (firstMember : first ∈ trace) (secondMember : second ∈ trace) {asked other : BeaconCommands}
    {receiver : Nat} (firstSends : first.record = ⟨.channel (.send asked), some receiver⟩)
    (secondSends : second.record = ⟨.channel (.send other), some receiver⟩) :
    first.task = second.task := by
  by_contra distinct
  have differ := (service_served run).sends_differ
  rw [Component.history, List.filterMap_filterMap, List.pairwise_filterMap] at differ
  have apart := @List.Pairwise.forall _ _ _
    ⟨fun _ _ apart _ found _ present => (apart _ present _ found).symm⟩ differ
  refine apart firstMember secondMember (fun same => distinct (by rw [same])) ⟨asked, receiver⟩ ?_
    ⟨other, receiver⟩ ?_ rfl
  · rw [firstSends]
    rfl
  · rw [secondSends]
    rfl

/-- Right after a poll of the service that ran out of commands no handle waits. -/
theorem no_handle_waits_after_poll (run : ServiceRun (front ++ [event]) world)
    (polled : event.record = ⟨.channel .next, none⟩) {task : Nat} {command : BeaconCommands}
    {c : BeaconCall} {next : c.Response → Program BeaconCalls ServiceResult}
    (present : world.tasks[task]? = some ⟨.handle command, .call c next⟩) :
    ∃ answer after, serviceExec c world.store answer after := by
  have served := service_served run
  have same : world.store.mailbox = event.before.mailbox ∧
      ∀ (channel : Nat) (body : BeaconCommands),
        event.before.mailbox.channels[channel]? ≠ some ⟨body, .waiting⟩ := by
    have stored := run.store_eq
    rw [storeAfter_concat] at stored
    have executed := run.of_concat.2
    have before := service_served_before run
    obtain ⟨task, request, c, answer, state, after⟩ := event
    cases polled
    refine ⟨?_, before.none_waits executed.1⟩
    obtain ⟨⟨_, _, rest⟩, _⟩ := executed
    rw [stored]
    split at rest
    · exact rest.2
    · cases rest.1
  rcases (run.outline_holds holds_serviceHandler present).1 with
    ⟨_, rfl⟩ | ⟨receiver, past, rfl⟩ | ⟨future, rfl⟩
  · obtain ⟨answer, after, sent⟩ := Mailbox.send_enabled world.store.mailbox command
    exact ⟨answer, ⟨after, world.store.reached⟩, sent, rfl⟩
  · have own : (⟨.channel (.send command), some receiver⟩ : Record BeaconCalls) ∈
        Concurrent.past task (front ++ [event]) := by simp [past]
    have sent := mem_history_of_past own
    -- whoever had received here would be the task itself, which has only sent
    have untaken : ∀ method answer,
        ⟨.receive method receiver, answer⟩ ∉ serviceMailbox.history (front ++ [event]) := by
      intro method answer membership
      obtain ⟨receiving, inside, found⟩ := List.mem_filterMap.mp membership
      have receives : receiving.call = .channel (.receive method receiver) := by
        obtain ⟨_, _, c, _, _, _⟩ := receiving
        cases c <;> cases found
        rfl
      obtain ⟨before, later, split⟩ := List.append_of_mem inside
      obtain ⟨asked, _, _, earlier⟩ := sent_of_receive run split receives
      have sender : (⟨.channel (.send asked), some receiver⟩ : Record BeaconCalls) ∈
          Concurrent.past receiving.task (front ++ [event]) :=
        past_subset split _ (by rw [earlier]; exact List.mem_singleton_self _)
      obtain ⟨first, firstMember, firstTask, firstSends⟩ := mem_past.mp own
      obtain ⟨second, secondMember, secondTask, secondSends⟩ := mem_past.mp sender
      have unique := sender_unique run firstMember secondMember firstSends secondSends
      rw [firstTask, secondTask] at unique
      have done : receiving.record ∈ Concurrent.past task (front ++ [event]) :=
        mem_past.mpr ⟨receiving, inside, unique.symm, rfl⟩
      rw [past, List.mem_singleton] at done
      have call := congrArg Sigma.fst done
      change receiving.call = _ at call
      rw [receives] at call
      cases call
    obtain ⟨answer, after, received⟩ := served.receive_enabled sent
      (fun body => by rw [same.1]; exact same.2 receiver body) untaken
    exact ⟨answer, ⟨after, world.store.reached⟩, received, rfl⟩
  · exact ⟨.error "", _, rfl⟩

end Runs

theorem overtaking_refines_direct_calls :
    ∃ directTrace directWorld, DirectRun directTrace directWorld ∧
      directWorld.store.map ApiCall.method = [.proposerDuties, .syncStatus] ∧
      directWorld.tasks[0]? = some ⟨.handle .syncStatus,
        .done (.handled .syncStatus (.ok ⟨⟨5, false⟩⟩))⟩ := by
  obtain ⟨first, _, reached⟩ := Demo.overtaking_returned
  obtain ⟨directTrace, directWorld, direct, same, returned⟩ :=
    service_refines_direct_calls Demo.overtaking_run
  exact ⟨directTrace, directWorld, direct, by rw [same, reached], returned 0 _ _ first⟩

theorem overtaking_answers_in_order :
    ∃ waiting, repliedIn Demo.overtaking.trace ++ waiting = sentIn Demo.overtaking.trace := by
  obtain ⟨⟨waiting, balance, _⟩, _⟩ := service_answers_in_order Demo.overtaking_run
  exact ⟨waiting, balance⟩

theorem abandoned_dropped : Dropped Demo.abandoned.trace :=
  broken_channels_mean_dropped Demo.abandoned_run Demo.abandoned_returned (.inr rfl)

theorem drained_no_handle_waits : ∃ answer after, serviceExec (.channel (.receive .getForkData 1))
    Demo.drained.world.store answer after := by
  obtain ⟨event, last, polled⟩ := Option.map_eq_some_iff.mp Demo.drained_ends
  obtain ⟨front, split⟩ := List.getLast?_eq_some_iff.mp last
  obtain ⟨next, waits⟩ := Demo.drained_waits
  have run := Demo.drained_run
  rw [split] at run
  exact no_handle_waits_after_poll run polled waits

end MevRelay
