import MevRelay.Concurrent.Serial

/-!
# Schedules

Once every call has a definite answer, a list of moves determines an
interleaved run and a list of requests determines a serial one.  Both are
computed here, so that a run can be given by its schedule.
-/

namespace Concurrent

variable {sig : Signature} {Request Result Store : Type}

/-- One definite way to answer every call. -/
structure Responder (exec : Semantics sig Store) where
  respond : (c : sig.Call) → Store → sig.Response c × Store
  sound : ∀ c store, exec c store (respond c store).1 (respond c store).2

/-- A move of a schedule: a request arrives, or a task makes its next call. -/
inductive Move (Request : Type) where
  | arrive (request : Request)
  | step (task : Nat)

structure Played (sig : Signature) (Request Result Store : Type) where
  trace : List (Event sig Request Store)
  world : World sig Request Result Store

/-- The request and the result of a task that has returned. -/
def Task.returned? (task : Task sig Request Result) : Option (Request × Result) :=
  match task.program with
  | .done result => some (task.request, result)
  | .call _ _ => none

theorem Task.returned?_eq_some {task : Task sig Request Result} {request : Request}
    {result : Result} : task.returned? = some (request, result) ↔ task = ⟨request, .done result⟩ := by
  obtain ⟨asked, program⟩ := task
  cases program <;> simp [returned?]

/-- The request and the result of the task with the given number, if it has returned. -/
def World.returned? (world : World sig Request Result Store) (task : Nat) :
    Option (Request × Result) :=
  world.tasks[task]?.bind Task.returned?

theorem World.returned?_eq_some {world : World sig Request Result Store} {task : Nat}
    {request : Request} {result : Result} :
    world.returned? task = some (request, result) ↔
      world.tasks[task]? = some ⟨request, .done result⟩ := by
  simp [returned?, Option.bind_eq_some_iff, Task.returned?_eq_some]

namespace Responder

variable {exec : Semantics sig Store} (responder : Responder exec)
  (handler : Request → Program sig Result)

/-- Make one move.  A step of a task that has returned changes nothing. -/
def move (played : Played sig Request Result Store) : Move Request → Played sig Request Result Store
  | .arrive request =>
      ⟨played.trace, played.world.store, played.world.tasks ++ [⟨request, handler request⟩]⟩
  | .step task =>
      match played.world.tasks[task]? with
      | some ⟨request, .call c next⟩ =>
          let answered := responder.respond c played.world.store
          ⟨played.trace ++ [⟨task, request, c, answered.1, played.world.store, answered.2⟩],
            answered.2, played.world.tasks.set task ⟨request, next answered.1⟩⟩
      | _ => played

/-- Make the moves of a schedule from the store `init`. -/
def play (init : Store) (moves : List (Move Request)) : Played sig Request Result Store :=
  moves.foldl (responder.move handler) ⟨[], init, []⟩

theorem move_run {init : Store} {played : Played sig Request Result Store}
    (run : Run handler exec init played.trace played.world) (move : Move Request) :
    Run handler exec init (responder.move handler played move).trace
      (responder.move handler played move).world := by
  cases move with
  | arrive request => exact .arrive request run
  | step task =>
      simp only [Responder.move]
      split
      · rename_i request c next present
        exact .step run present (responder.sound c played.world.store)
      · exact run

/-- What a schedule plays is a run. -/
theorem play_run (init : Store) (moves : List (Move Request)) :
    Run handler exec init (responder.play handler init moves).trace
      (responder.play handler init moves).world := by
  suffices general : ∀ played : Played sig Request Result Store,
      Run handler exec init played.trace played.world →
      Run handler exec init (moves.foldl (responder.move handler) played).trace
        (moves.foldl (responder.move handler) played).world from
    general ⟨[], init, []⟩ .start
  induction moves with
  | nil => exact fun _ run => run
  | cons move rest inductionHypothesis =>
      exact fun played run => inductionHypothesis _ (responder.move_run handler run move)

theorem move_responds {played : Played sig Request Result Store}
    (responds : ∀ event ∈ played.trace,
      event.response = (responder.respond event.call event.before).1) (move : Move Request) :
    ∀ event ∈ (responder.move handler played move).trace,
      event.response = (responder.respond event.call event.before).1 := by
  cases move with
  | arrive request => exact responds
  | step task =>
      simp only [Responder.move]
      split
      · intro event membership
        rcases List.mem_append.mp membership with earlier | last
        · exact responds event earlier
        · rw [List.mem_singleton.mp last]
      · exact responds

/-- In a played run every call is answered by the responder. -/
theorem play_responds (init : Store) (moves : List (Move Request)) :
    ∀ event ∈ (responder.play handler init moves).trace,
      event.response = (responder.respond event.call event.before).1 := by
  suffices general : ∀ played : Played sig Request Result Store,
      (∀ event ∈ played.trace, event.response = (responder.respond event.call event.before).1) →
      ∀ event ∈ (moves.foldl (responder.move handler) played).trace,
        event.response = (responder.respond event.call event.before).1 from
    general ⟨[], init, []⟩ (by simp)
  induction moves with
  | nil => exact fun _ responds => responds
  | cons move rest inductionHypothesis =>
      exact fun played responds =>
        inductionHypothesis _ (responder.move_responds handler responds move)

/-- Run a program to its end. -/
def evaluate : Program sig Result → Store → List (Record sig) × Result × Store
  | .done result, store => ([], result, store)
  | .call c next, store =>
      let answered := responder.respond c store
      let rest := evaluate (next answered.1) answered.2
      (⟨c, answered.1⟩ :: rest.1, rest.2)

theorem evaluate_exec (program : Program sig Result) (store : Store) :
    Exec exec program store (responder.evaluate program store).1
      (responder.evaluate program store).2.1 (responder.evaluate program store).2.2 := by
  induction program generalizing store with
  | done result => exact .done
  | call c next inductionHypothesis =>
      exact .call (responder.sound c store) (inductionHypothesis _ _)

/-- Where calls can be answered in this way only, so can whole programs. -/
theorem evaluate_unique {program : Program sig Result} {store after : Store}
    {calls : List (Record sig)} {result : Result}
    (definite : ∀ c store answer after, exec c store answer after →
      (answer, after) = responder.respond c store)
    (executed : Exec exec program store calls result after) :
    (calls, result, after) = responder.evaluate program store := by
  induction executed with
  | done => rfl
  | call first rest inductionHypothesis =>
      simp only [evaluate, ← definite _ _ _ _ first, ← inductionHypothesis]

def complete (request : Request) (store : Store) : Completed sig Request Result Store :=
  let ended := responder.evaluate (handler request) store
  ⟨request, store, ended.1, ended.2.1, ended.2.2⟩

theorem complete_exec (request : Request) (store : Store) :
    Exec exec (handler request) store (responder.complete handler request store).calls
      (responder.complete handler request store).result
      (responder.complete handler request store).after :=
  responder.evaluate_exec _ _

theorem complete_serial {init store : Store} {history : List (Completed sig Request Result Store)}
    (serial : Serial handler exec init history store) (request : Request) :
    Serial handler exec init (history ++ [responder.complete handler request store])
      (responder.complete handler request store).after :=
  .finish serial (responder.complete_exec handler request store)

def serve (init : Store) (requests : List Request) :
    List (Completed sig Request Result Store) × Store :=
  requests.foldl (fun served request =>
    let completed := responder.complete handler request served.2
    (served.1 ++ [completed], completed.after)) ([], init)

/-- What is served one after the other is a serial run. -/
theorem serve_serial (init : Store) (requests : List Request) :
    Serial handler exec init (responder.serve handler init requests).1
      (responder.serve handler init requests).2 := by
  induction requests using List.reverseRecOn with
  | nil => exact .start
  | append_singleton front request inductionHypothesis =>
      simp only [serve, List.foldl_append, List.foldl_cons, List.foldl_nil]
      exact responder.complete_serial handler inductionHypothesis request

end Responder

/-- One definite way to answer every call that does not have to wait. -/
structure Stepper (exec : Semantics sig Store) where
  step? : (c : sig.Call) → Store → Option (sig.Response c × Store)
  sound : ∀ c store answer after, step? c store = some (answer, after) → exec c store answer after

namespace Stepper

variable {exec : Semantics sig Store} (stepper : Stepper exec)
  (handler : Request → Program sig Result)

/-- Make one move.  A step of a task that has returned or has to wait changes nothing. -/
def move (played : Played sig Request Result Store) : Move Request → Played sig Request Result Store
  | .arrive request =>
      ⟨played.trace, played.world.store, played.world.tasks ++ [⟨request, handler request⟩]⟩
  | .step task =>
      match played.world.tasks[task]? with
      | some ⟨request, .call c next⟩ =>
          match stepper.step? c played.world.store with
          | some (answer, after) =>
              ⟨played.trace ++ [⟨task, request, c, answer, played.world.store, after⟩],
                after, played.world.tasks.set task ⟨request, next answer⟩⟩
          | none => played
      | _ => played

/-- Make the moves of a schedule from the store `init`. -/
def play (init : Store) (moves : List (Move Request)) : Played sig Request Result Store :=
  moves.foldl (stepper.move handler) ⟨[], init, []⟩

theorem move_run {init : Store} {played : Played sig Request Result Store}
    (run : Run handler exec init played.trace played.world) (move : Move Request) :
    Run handler exec init (stepper.move handler played move).trace
      (stepper.move handler played move).world := by
  cases move with
  | arrive request => exact .arrive request run
  | step task =>
      simp only [Stepper.move]
      split
      · rename_i request c next present
        split
        · rename_i answer after stepped
          exact .step run present (stepper.sound c _ _ _ stepped)
        · exact run
      · exact run

/-- What a schedule plays is a run. -/
theorem play_run (init : Store) (moves : List (Move Request)) :
    Run handler exec init (stepper.play handler init moves).trace
      (stepper.play handler init moves).world := by
  induction moves using List.reverseRecOn with
  | nil => exact .start
  | append_singleton front move inductionHypothesis =>
      simp only [play, List.foldl_append, List.foldl_cons, List.foldl_nil]
      exact stepper.move_run handler inductionHypothesis move

end Stepper

end Concurrent
