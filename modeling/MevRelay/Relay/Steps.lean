import MevRelay.Beacon.Commands
import MevRelay.Storage.Locks
import MevRelay.Relay.Surroundings

/-!
# The steps of the relay

The handlers with every call taken apart: the storage is reached through its
lock, and a validator is looked up through the beacon service, which runs
beside the handlers and which other callers use as well.  Every interleaving of
these steps is, as far as the storage and the replies go, an interleaving of the
handlers whose calls are atomic.
-/

namespace MevRelay

open Concurrent

inductive RelayStep where
  | storage (step : StorageStep)
  | beacon (c : BeaconCall)
  /-- A call of neither the storage nor the beacon service. -/
  | direct (c : Call)

abbrev RelayStep.Response : RelayStep → Type
  | .storage step => step.Response
  | .beacon c => c.Response
  | .direct c => c.Response

abbrev RelaySteps : Signature := ⟨RelayStep, RelayStep.Response⟩

/-- What the tasks share: the storage behind its lock, the counters of the
metrics and the beacon service. -/
structure RelayState where
  storage : RwLock InMemoryStorageInner
  counters : Counter → Nat
  beacon : ServiceState

def RelayState.new (config : Config) : RelayState :=
  ⟨.new config.init.inner, fun _ => 0, .new⟩

def relayExec : Semantics RelaySteps RelayState
  | .storage (.lock c), state, answer, after =>
      RwLock.exec c state.storage answer after.storage ∧ after.counters = state.counters ∧
        after.beacon = state.beacon
  | .storage (.count counter), state, _, after =>
      after = { state with
        counters := Function.update state.counters counter (state.counters counter + 1) }
  | .beacon c, state, answer, after =>
      serviceExec c state.beacon answer after.beacon ∧ after.storage = state.storage ∧
        after.counters = state.counters
  | .direct _, state, _, after => after = state

def storageStep (step : StorageStep) : Program RelaySteps step.Response :=
  .call (.storage step) .done

def beaconStep (c : BeaconCall) : Program RelaySteps c.Response := .call (.beacon c) .done

/-- The calls of the handlers, with every step they take.  The duties are asked
for by two handles at once, of which the order does not matter here; they and
the tasks that a handler starts are left as they are. -/
def Call.steps : (c : Call) → Program RelaySteps c.Response
  | .storage c => c.steps.expand storageStep
  | .validateApiKey apiKey => .call (.direct (.validateApiKey apiKey)) .done
  | .getKnownValidator pubkey =>
      (Except.toOption <$> BeaconHandle.getKnownValidator pubkey).expand beaconStep
  | .proposerDuties epoch => .call (.direct (.proposerDuties epoch)) .done
  | .spawnRefresh head => .call (.direct (.spawnRefresh head)) .done
  | .publishBlock block submissionType =>
      .call (.direct (.publishBlock block submissionType)) .done

/-- The tasks: requests to the relay, and what goes on around the beacon service. -/
inductive RelayTask where
  | request (request : Request)
  | service (request : ServiceRequest)

def RelayTask.request? : RelayTask → Option Request
  | .request asked => some asked
  | .service _ => none

section Handlers

variable [Crates]

def stepHandler (config : Config) : RelayTask → Program RelaySteps Reply
  | .request request => (handler config request).expand Call.steps
  | .service request => (fun _ => Reply.handled) <$> (serviceHandler request).expand beaconStep

abbrev StepEvent := Event RelaySteps RelayTask RelayState

abbrev StepWorld := World RelaySteps RelayTask Reply RelayState

/-- Runs of the relay step by step. -/
abbrev StepRun (config : Config) : List StepEvent → StepWorld → Prop :=
  Run (stepHandler config) relayExec (.new config)

/-- The handlers with atomic calls.  What goes on around the service makes none. -/
def callHandler (config : Config) : RelayTask → Program Calls Reply
  | .request request => handler config request
  | .service _ => .done .handled

end Handlers

def lockRecord? : Record RelaySteps → Option (Record (LockCalls InMemoryStorageInner))
  | ⟨.storage (.lock c), answer⟩ => some ⟨c, answer⟩
  | _ => none

/-- The lock of the storage as a part of the relay. -/
def relayLock : Component relayExec (@RwLock.exec InMemoryStorageInner) where
  state := RelayState.storage
  record? := lockRecord?
  acts c store answer after record executed found := by
    rcases c with (c | counter) | c | c
    case storage.lock =>
      cases found
      exact executed.1
    all_goals cases found
  rests c store answer after executed found := by
    rcases c with (c | counter) | c | c
    case storage.lock => cases found
    case storage.count =>
      cases executed
      rfl
    case beacon => exact executed.2.1
    case direct =>
      cases executed
      rfl

def mailboxRecord? : Record RelaySteps → Option (Record (MailboxCalls beaconProtocol))
  | ⟨.beacon c, answer⟩ => channelCall? ⟨c, answer⟩
  | _ => none

/-- The channels of the beacon service as a part of the relay. -/
def relayMailbox : Component relayExec (Mailbox.exec (P := beaconProtocol)) where
  state state := state.beacon.mailbox
  record? := mailboxRecord?
  acts c store answer after record executed found := by
    rcases c with (c | counter) | c | c
    case beacon => exact serviceMailbox.acts c _ answer _ record executed.1 found
    all_goals cases found
  rests c store answer after executed found := by
    rcases c with (c | counter) | c | c
    case storage.lock => exact congrArg ServiceState.mailbox executed.2.2
    case storage.count =>
      cases executed
      rfl
    case beacon => exact serviceMailbox.rests c _ answer _ executed.1 found
    case direct =>
      cases executed
      rfl

/-- Definite surroundings of the relay: the auth service, and the interface of
the beacon node. -/
def relayStepper (surroundings : Surroundings)
    (api : (method : BeaconMethod) → BoxedFuture method → Except String method.Output) :
    Stepper relayExec where
  step?
    | .storage (.lock c), state =>
        (RwLock.step? c state.storage).map fun stepped =>
          (stepped.1, { state with storage := stepped.2 })
    | .storage (.count counter), state =>
        some ((), { state with
          counters := Function.update state.counters counter (state.counters counter + 1) })
    | .beacon c, state =>
        ((serviceStepper api).step? c state.beacon).map fun stepped =>
          (stepped.1, { state with beacon := stepped.2 })
    | .direct (.validateApiKey apiKey), state => some (surroundings.validateApiKey apiKey, state)
    | .direct (.proposerDuties epoch), state => some (surroundings.proposerDuties epoch, state)
    | .direct (.spawnRefresh _), state | .direct (.publishBlock _ _), state => some ((), state)
    | .direct _, _ => none
  sound c state answer after stepped := by
    rcases c with (c | counter) | c | c
    case storage.lock =>
      obtain ⟨⟨response, lock⟩, found, same⟩ := Option.map_eq_some_iff.mp stepped
      cases same
      exact ⟨RwLock.step?_sound c _ _ _ found, rfl, rfl⟩
    case storage.count =>
      cases stepped
      rfl
    case beacon =>
      obtain ⟨⟨response, service⟩, found, same⟩ := Option.map_eq_some_iff.mp stepped
      cases same
      exact ⟨(serviceStepper api).sound c _ _ _ found, rfl, rfl⟩
    case direct => cases c <;> cases stepped <;> rfl

namespace Demo

attribute [local instance] standIn

/-- A beacon node that knows of every validator. -/
def validatorNode : (method : BeaconMethod) → BoxedFuture method → Except String method.Output
  | .getKnownValidator, _ => .ok ⟨"active_ongoing"⟩
  | _, _ => .error "unavailable"

def playSteps (moves : List (Move RelayTask)) : Played RelaySteps RelayTask Reply RelayState :=
  (relayStepper surroundings validatorNode).play (stepHandler config) (.new config) moves

/-- A registration of proposer 3, and a head event that comes while it writes
and finds the lock taken. -/
def contention : List (Move RelayTask) :=
  .arrive (.request (.postValidators "" [registration 3])) :: .replicate 5 (.step 0) ++
    .arrive (.service (.poll 2)) :: .replicate 2 (.step 1) ++ .replicate 4 (.step 0) ++
    .arrive (.request (.headEvent 4)) :: .replicate 2 (.step 2)

@[irreducible]
def contended : Played RelaySteps RelayTask Reply RelayState := playSteps contention

/-- The same, until both are done. -/
@[irreducible]
def resolved : Played RelaySteps RelayTask Reply RelayState :=
  playSteps (contention ++ .step 0 :: .replicate 4 (.step 2))

theorem playSteps_run (moves : List (Move RelayTask)) :
    StepRun config (playSteps moves).trace (playSteps moves).world :=
  (relayStepper surroundings validatorNode).play_run (stepHandler config) (.new config) moves

end Demo

end MevRelay
