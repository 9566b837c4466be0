import MevRelay.Relay.Atomicity

/-!
# Waiting for the storage

No handler waits for anything else while it holds the lock of the storage, so
no handler waits for the lock forever.
-/

namespace MevRelay

open Concurrent

theorem RelayStep.answered (config : Config) (step : RelayStep) : Nonempty step.Response := by
  rcases step with (c | counter) | c | c
  case storage.lock => cases c <;> first | exact ⟨()⟩ | exact ⟨config.init.inner⟩
  case storage.count => exact ⟨()⟩
  case beacon =>
    cases c with
    | drive method future => exact ⟨.error ""⟩
    | channel c => cases c <;> first | exact ⟨()⟩ | exact ⟨none⟩
  case direct =>
    cases c with
    | storage c => exact ⟨(c.apply config.init).1⟩
    | validateApiKey => exact ⟨true⟩
    | getKnownValidator | proposerDuties => exact ⟨none⟩
    | spawnRefresh | publishBlock => exact ⟨()⟩

theorem relayLock_waitsForLock : relayLock.WaitsForLock := by
  intro c store answer own found enabled
  rcases c with (c | counter) | c | c
  case storage.lock =>
    cases found
    obtain ⟨reply, after, executed⟩ := enabled
    exact ⟨reply, { store with storage := after }, ⟨c, reply⟩, ⟨executed, rfl, rfl⟩, rfl⟩
  all_goals cases found

section Runs

variable [Crates] {config : Config} {trace : List StepEvent} {world : StepWorld}

/-- While nobody holds the lock, a task at a step on the storage can make it. -/
theorem storage_enabled (run : StepRun config trace world)
    (free : ∀ task, relayLock.phase (past task trace) = .outside) {task : Nat} {request : RelayTask}
    {step : StorageStep} {next : step.Response → Program RelaySteps Reply}
    (present : world.tasks[task]? = some ⟨request, .call (.storage step) next⟩) :
    ∃ answer after, relayExec (.storage step) world.store answer after := by
  have outline := run.outline_holds (stepHandler_disciplined config) present
  cases step with
  | count counter => exact ⟨(), _, rfl⟩
  | lock c =>
      obtain ⟨answer⟩ := RelayStep.answered config (.storage (.lock c))
      by_contra blocked
      obtain ⟨holder, holds⟩ := (relay_exclusion run).holder_of_blocked (outline.1 answer)
        fun reply after executed =>
          blocked ⟨reply, { world.store with storage := after }, executed, rfl, rfl⟩
      exact holds (free holder)

/-- From every state the relay reaches, the tasks that hold the lock of the
storage can give it back by steps on the lock alone, and then every task that
is at a step on the storage can make it. -/
theorem storage_never_deadlocks (run : StepRun config trace world) :
    ∃ later after, StepRun config (trace ++ later) after ∧
      (∀ event ∈ later, relayLock.phase (past event.task trace) ≠ .outside ∧
        ∃ c, event.call = .storage (.lock c)) ∧
      ∀ (task : Nat) request step next,
        after.tasks[task]? = some ⟨request, .call (.storage step) next⟩ →
          ∃ answer ended, relayExec (.storage step) after.store answer ended := by
  obtain ⟨later, after, ended, outside, own⟩ := relayLock.release_all relayLock_waitsForLock run
    ⟨_, rfl⟩ (stepHandler_disciplined config) (RelayStep.answered config)
  refine ⟨later, after, ended, fun event membership => ?_, fun task request step next present => ?_⟩
  · obtain ⟨inside, found⟩ := own event membership
    refine ⟨inside, ?_⟩
    obtain ⟨task, request, c, answer, before, after⟩ := event
    rcases c with (c | counter) | c | c
    case storage.lock => exact ⟨c, rfl⟩
    all_goals cases found
  · exact storage_enabled ended outside present

end Runs

section Contention

attribute [local instance] standIn

theorem Demo.contended_run : StepRun Demo.config Demo.contended.trace Demo.contended.world := by
  unfold Demo.contended
  exact Demo.playSteps_run _

theorem contention_resolves :
    RwLock.step? .lockExclusive Demo.contended.world.store.storage = none ∧
      ∃ later after, StepRun Demo.config (Demo.contended.trace ++ later) after ∧
        ∀ (task : Nat) request step next,
          after.tasks[task]? = some ⟨request, .call (.storage step) next⟩ →
            ∃ answer ended, relayExec (.storage step) after.store answer ended := by
  have taken : (RwLock.step? .lockExclusive Demo.contended.world.store.storage).isNone = true := by
    unfold Demo.contended
    decide +kernel
  obtain ⟨later, after, ended, _, enabled⟩ := storage_never_deadlocks Demo.contended_run
  exact ⟨Option.isNone_iff_eq_none.mp taken, later, after, ended, enabled⟩

end Contention

end MevRelay
