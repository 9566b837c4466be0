import MevRelay.Beacon.Api
import MevRelay.Relay.Atomicity
import MevRelay.Relay.Proposers

/-!
# The relay over the wire

The relay step by step, with the futures that handles drive taken apart as
well: what reaches the beacon node are HTTP requests, and what the relay goes by
is made of the responses.
-/

namespace MevRelay

open Concurrent

inductive WireCall where
  | relay (step : RelayStep)
  | send (request : HttpRequest)

abbrev WireCall.Response : WireCall → Type
  | .relay step => step.Response
  | .send _ => Except String HttpResponse

abbrev WireCalls : Signature := ⟨WireCall, WireCall.Response⟩

/-- The beacon node may respond anything, or not at all. -/
def wireExec : Semantics WireCalls RelayState
  | .relay step, state, answer, after => relayExec step state answer after
  | .send _, state, _, after => after = state

def sendStep (request : HttpRequest) : Program WireCalls (Except String HttpResponse) :=
  .call (.send request) .done

abbrev WireEvent := Event WireCalls RelayTask RelayState

abbrev WireWorld := World WireCalls RelayTask Reply RelayState

section Handlers

variable [JsonCrates] (api : BeaconNodeApi)

/-- A future that is driven sends the request it is for. -/
def RelayStep.overWire : (step : RelayStep) → Program WireCalls step.Response
  | .storage step => .call (.relay (.storage step)) .done
  | .beacon (.channel c) => .call (.relay (.beacon (.channel c))) .done
  | .beacon (.drive _ future) => (api.await future).expand sendStep
  | .direct c => .call (.relay (.direct c)) .done

/-- How the steps over the wire relate to those of the relay. -/
inductive Exchanges : Record WireCalls → Record RelaySteps → Prop where
  | step {step : RelayStep} {answer : step.Response}
      (kept : ∀ method future, step ≠ .beacon (.drive method future)) :
      Exchanges ⟨.relay step, answer⟩ ⟨step, answer⟩
  | driven {method : BeaconMethod} {future : BoxedFuture method}
      {reply : Except String HttpResponse} :
      Exchanges ⟨.send (api.request future), reply⟩
        ⟨.beacon (.drive method future), BeaconNodeApi.result method reply⟩

def wireLink : Link WireCalls RelaySteps where
  possible _ _ := True
  silent _ _ := False
  commits _ := Exchanges api

theorem overWire_follows (past : List (Record WireCalls)) (step : RelayStep) :
    Follows (wireLink api) past (step.overWire api) (.call step .done) := by
  rcases step with step | (c | ⟨method, future⟩) | c
  case beacon.drive =>
    rw [RelayStep.overWire, api.await_eq future]
    exact .commit fun reply _ => ⟨BeaconNodeApi.result method reply, .driven, .done _⟩
  all_goals
    exact .commit fun answer _ => ⟨answer, .step fun _ _ same => (by cases same), .done answer⟩

variable [Crates] (config : Config)

def wireHandler (task : RelayTask) : Program WireCalls Reply :=
  (stepHandler config task).expand (RelayStep.overWire api)

/-- Runs of the relay over the wire. -/
abbrev WireRun : List WireEvent → WireWorld → Prop :=
  Run (wireHandler api config) wireExec (.new config)

theorem wireHandler_follows (task : RelayTask) :
    Follows (wireLink api) [] (wireHandler api config task) (stepHandler config task) :=
  (stepHandler config task).expand_follows (overWire_follows api) []

end Handlers

/-- States that agree but for the calls that have reached the interface. -/
structure RelayState.SameButReached (state other : RelayState) : Prop where
  storage : state.storage = other.storage
  counters : state.counters = other.counters
  mailbox : state.beacon.mailbox = other.beacon.mailbox

theorem relayExec_of_same {step : RelayStep} {state after other : RelayState}
    {answer : step.Response} (executed : relayExec step state answer after)
    (same : other.SameButReached state) :
    ∃ otherAfter, relayExec step other answer otherAfter ∧ otherAfter.SameButReached after := by
  obtain ⟨storage, counters, beacon⟩ := state
  obtain ⟨otherStorage, otherCounters, otherBeacon⟩ := other
  obtain ⟨rfl, rfl, mailbox⟩ := same
  rcases step with (c | counter) | (c | ⟨method, future⟩) | c
  case storage.lock =>
    exact ⟨⟨after.storage, after.counters, otherBeacon⟩, ⟨executed.1, executed.2.1, rfl⟩,
      rfl, rfl, mailbox.trans (congrArg ServiceState.mailbox executed.2.2).symm⟩
  case storage.count =>
    cases executed
    exact ⟨_, rfl, rfl, rfl, mailbox⟩
  case beacon.channel =>
    obtain ⟨⟨moved, kept⟩, sameStorage, sameCounters⟩ := executed
    refine ⟨⟨after.storage, after.counters, ⟨after.beacon.mailbox, otherBeacon.reached⟩⟩,
      ⟨⟨?_, rfl⟩, sameStorage, sameCounters⟩, rfl, rfl, rfl⟩
    rw [mailbox]
    exact moved
  case beacon.drive =>
    obtain ⟨driven, sameStorage, sameCounters⟩ := executed
    refine ⟨⟨after.storage, after.counters, ⟨otherBeacon.mailbox, _⟩⟩,
      ⟨rfl, sameStorage, sameCounters⟩, rfl, rfl, ?_⟩
    rw [driven]
    exact mailbox
  case direct =>
    cases executed
    exact ⟨_, rfl, rfl, rfl, mailbox⟩

/-- The answer of the interface to a future that was driven is made of the
response to the request for it. -/
theorem Exchanges.sent [JsonCrates] {api : BeaconNodeApi} {wire : Record WireCalls}
    {method : BeaconMethod} {future : BoxedFuture method} {answer : Except String method.Output}
    (exchanges : Exchanges api wire ⟨.beacon (.drive method future), answer⟩) :
    ∃ reply, wire = ⟨.send (api.request future), reply⟩ ∧
      BeaconNodeApi.result method reply = answer := by
  generalize driven : (⟨.beacon (.drive method future), answer⟩ : Record RelaySteps) = step
    at exchanges
  cases exchanges with
  | step kept =>
      cases driven
      exact absurd rfl (kept method future)
  | @driven _ _ reply =>
      cases driven
      exact ⟨reply, rfl, rfl⟩

section Runs

variable [JsonCrates] [Crates] {api : BeaconNodeApi} {config : Config} {trace : List WireEvent}
  {world : WireWorld}

theorem wireLink_sound : (wireLink api).Sound (wireHandler api config) wireExec (.new config)
    relayExec (fun _ state steps => steps.SameButReached state) where
  possible _ _ _ _ := trivial
  silent _ _ _ _ _ silent := silent.elim
  commits front event middle store call response run carries related := by
    have executed := run.of_concat.2
    obtain ⟨task, request, c, answer, before, after⟩ := event
    generalize carried : (⟨c, answer⟩ : Record WireCalls) = record at carries
    generalize carriedOut : (⟨call, response⟩ : Record RelaySteps) = coarse at carries
    cases carries with
    | step kept =>
        cases carried
        cases carriedOut
        exact relayExec_of_same executed related
    | driven =>
        cases carried
        cases carriedOut
        cases executed
        exact ⟨⟨store.storage, store.counters, store.beacon.mailbox, store.beacon.reached ++ [_]⟩,
          ⟨rfl, rfl, rfl⟩, related.storage, related.counters, related.mailbox⟩

/-- The replies of the relay over the wire are those of a run step by step, in
which every answer of the interface is made of the response to its request. -/
theorem wire_refines_steps (run : WireRun api config trace world) :
    ∃ stepTrace steps, StepRun config stepTrace steps ∧ steps.store.SameButReached world.store ∧
      List.Forall₂ (fun wire task => wire.request = task.request ∧
        ∀ reply, wire.program = .done reply → task.program = .done reply) world.tasks steps.tasks ∧
      ∀ step ∈ stepTrace, ∃ event ∈ trace, Exchanges api event.record step.record := by
  obtain ⟨stepTrace, steps, coarse, related, tracks, justified⟩ :=
    run.refine wireLink_sound (wireHandler_follows api config) ⟨rfl, rfl, rfl⟩
  refine ⟨stepTrace, steps, coarse, related, tracks.forall₂, fun step membership => ?_⟩
  obtain ⟨front, event, later, rfl, _, carries⟩ := justified step membership
  exact ⟨event, by simp, carries⟩

/-- A registration is in force only if the beacon node has responded to the
request for this very validator with success, and holds it active. -/
theorem registered_on_wire (run : WireRun api config trace world) {pubkey : BlsPublicKey}
    {registration : ValidatorRegistration}
    (stored : world.store.storage.settled.validatorRegistrations.lookup pubkey =
      some registration) :
    registration.message.pubkey = pubkey ∧
    registration.signature.verify pubkey
      (signingRoot registration.message config.forkData.computeBuilderDomain) = true ∧
    ∃ event ∈ trace, ∃ response body, event.record =
        ⟨.send ⟨.get, api.url ++ ("eth/v1/beacon/states/head/validators/" ++ pubkey.toString), [], []⟩,
          .ok response⟩ ∧
      response.isSuccess = true ∧ response.body = .ok body ∧
      ∃ known, JsonCrates.decode .getKnownValidator body = .ok known ∧ known.isActive = true := by
  obtain ⟨stepTrace, steps, stepRun, related, _, exchanged⟩ := wire_refines_steps run
  obtain ⟨callTrace, calls, callRun, settled, _, carriedOut⟩ := StepRun.carriedOut stepRun
  rw [← related.storage, ← settled] at stored
  have authentic := registration_authentic callRun stored
  refine ⟨authentic.own, authentic.signed, ?_⟩
  obtain ⟨_, _, _, _, _, _, _, known, active, answered⟩ := authentic.posted
  obtain ⟨call, inside, _, record⟩ := mem_past.mp answered
  obtain ⟨_, step, stepped, carries⟩ :=
    carriedOut _ (List.mem_map.mpr ⟨call, inside, record⟩)
  obtain ⟨event, membership, exchanges⟩ := exchanged step stepped
  rw [carries.drove] at exchanges
  obtain ⟨reply, sent, same⟩ := exchanges.sent
  obtain ⟨response, rfl, read⟩ := BeaconNodeApi.result_getKnownValidator_eq_ok.mp same
  obtain ⟨success, body, arrived, decoded⟩ := BeaconNodeApi.readResponse_eq_ok.mp read
  exact ⟨event, membership, response, body, sent, success, arrived, known, decoded, active⟩

end Runs

/-- Definite surroundings of the relay over the wire: the auth service, and the
responses of the beacon node. -/
def wireStepper (surroundings : Surroundings)
    (respond : HttpRequest → Except String HttpResponse) : Stepper wireExec where
  step?
    | .relay step, state => (relayStepper surroundings fun _ _ => .error "").step? step state
    | .send request, state => some (respond request, state)
  sound c state answer after stepped := by
    cases c with
    | relay step => exact (relayStepper surroundings _).sound step _ _ _ stepped
    | send request =>
        cases stepped
        rfl

namespace Demo

attribute [local instance] standIn standInJson

/-- A beacon node that holds proposer 3 active. -/
def respond (request : HttpRequest) : Except String HttpResponse :=
  if request = localNode.request (.getKnownValidator (pubkey 3)) then
    .ok ⟨200, .ok (textBytes (activeText (pubkey 3)))⟩
  else .ok ⟨404, .error "connection closed"⟩

/-- A registration of proposer 3 and a head event, until both are done. -/
@[irreducible]
def resolvedOnWire : Played WireCalls RelayTask Reply RelayState :=
  (wireStepper surroundings respond).play (wireHandler localNode config) (.new config)
    (contention ++ .step 0 :: .replicate 4 (.step 2))

theorem resolvedOnWire_run :
    WireRun localNode config resolvedOnWire.trace resolvedOnWire.world := by
  unfold resolvedOnWire
  exact (wireStepper surroundings respond).play_run (wireHandler localNode config) (.new config) _

/-- Proposer 3 is registered, so the beacon node has responded to the request for it. -/
theorem registered_by_response :
    resolvedOnWire.world.store.storage.settled.validatorRegistrations.lookup (pubkey 3) =
      some (registration 3) ∧
    ∃ event ∈ resolvedOnWire.trace, ∃ response, event.record =
      ⟨.send (localNode.request (.getKnownValidator (pubkey 3))), .ok response⟩ ∧
        response.isSuccess = true := by
  have stored : resolvedOnWire.world.store.storage.settled.validatorRegistrations.lookup
      (pubkey 3) = some (registration 3) := by
    unfold resolvedOnWire
    decide +kernel
  obtain ⟨_, _, event, membership, response, _, sent, success, _⟩ :=
    registered_on_wire resolvedOnWire_run stored
  exact ⟨stored, event, membership, response, sent, success⟩

end Demo

end MevRelay
