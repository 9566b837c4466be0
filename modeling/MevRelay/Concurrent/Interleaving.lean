import MevRelay.Concurrent.Program
import Mathlib.Data.List.Induction
import Mathlib.Order.Basic

/-!
# Interleaved runs

Any number of tasks, each working off the program of its request, share one
store.  A step lets one task make its next call; requests may arrive between
any two steps.  The trace of a run records every call with the store before and
after it, oldest first.
-/

namespace Concurrent

/-- What a call does: the store before, the answer and the store after. -/
abbrev Semantics (sig : Signature) (Store : Type) :=
  (c : sig.Call) → Store → sig.Response c → Store → Prop

/-- One call of one task, with the stores around it. -/
structure Event (sig : Signature) (Request Store : Type) where
  task : Nat
  request : Request
  call : sig.Call
  response : sig.Response call
  before : Store
  after : Store

structure Task (sig : Signature) (Request Result : Type) where
  request : Request
  program : Program sig Result

structure World (sig : Signature) (Request Result Store : Type) where
  store : Store
  tasks : List (Task sig Request Result)

variable {sig : Signature} {Request Result Store : Type}

def Event.record (event : Event sig Request Store) : Record sig := ⟨event.call, event.response⟩

/-- The calls of one task in a trace. -/
def past (task : Nat) (trace : List (Event sig Request Store)) : List (Record sig) :=
  (trace.filter fun event => event.task = task).map Event.record

@[simp]
theorem past_nil (task : Nat) : past task ([] : List (Event sig Request Store)) = [] := rfl

theorem past_append (task : Nat) (first second : List (Event sig Request Store)) :
    past task (first ++ second) = past task first ++ past task second := by
  simp [past]

theorem past_subset {trace front later : List (Event sig Request Store)}
    (split : trace = front ++ later) (task : Nat) : past task front ⊆ past task trace := by
  rw [split, past_append]
  exact List.subset_append_left _ _

theorem past_concat_self (trace : List (Event sig Request Store))
    (event : Event sig Request Store) :
    past event.task (trace ++ [event]) = past event.task trace ++ [event.record] := by
  simp [past]

theorem past_concat_of_ne {task : Nat} (trace : List (Event sig Request Store))
    {event : Event sig Request Store} (other : event.task ≠ task) :
    past task (trace ++ [event]) = past task trace := by
  simp [past, other]

theorem past_append_of_ne {task : Nat} (trace : List (Event sig Request Store))
    {later : List (Event sig Request Store)} (others : ∀ event ∈ later, event.task ≠ task) :
    past task (trace ++ later) = past task trace := by
  rw [past_append, List.append_right_eq_self, past, List.map_eq_nil_iff, List.filter_eq_nil_iff]
  exact fun event membership => by simpa using others event membership

theorem past_cons_self {task : Nat} {event : Event sig Request Store} (own : event.task = task)
    (trace : List (Event sig Request Store)) :
    past task (event :: trace) = event.record :: past task trace := by
  simp [past, own]

theorem past_cons_of_ne {task : Nat} {event : Event sig Request Store} (other : event.task ≠ task)
    (trace : List (Event sig Request Store)) : past task (event :: trace) = past task trace := by
  simp [past, other]

theorem mem_past {task : Nat} {trace : List (Event sig Request Store)} {record : Record sig} :
    record ∈ past task trace ↔ ∃ event ∈ trace, event.task = task ∧ event.record = record := by
  simp [past, and_assoc]

/-- What only one task has done is found in the calls of that task. -/
theorem filterMap_past {Value : Type} {f : Record sig → Option Value} {task : Nat}
    {trace : List (Event sig Request Store)}
    (others : ∀ event ∈ trace, event.task ≠ task → f event.record = none) :
    trace.filterMap (fun event => f event.record) = (past task trace).filterMap f := by
  induction trace with
  | nil => rfl
  | cons event trace inductionHypothesis =>
      have rest := inductionHypothesis fun other membership =>
        others other (List.mem_cons_of_mem _ membership)
      by_cases own : event.task = task
      · rw [past_cons_self own, List.filterMap_cons, List.filterMap_cons, rest]
      · rw [past_cons_of_ne own, List.filterMap_cons, others event List.mem_cons_self own, rest]

/-- A call in the past of a task is an event of the trace, with the calls before
and after it on either side. -/
theorem past_split {task : Nat} {trace : List (Event sig Request Store)}
    {first second : List (Record sig)} {record : Record sig}
    (split : past task trace = first ++ record :: second) :
    ∃ front event later, trace = front ++ event :: later ∧ event.task = task ∧
      event.record = record ∧ past task front = first ∧ past task later = second := by
  induction trace generalizing first with
  | nil => simp at split
  | cons event trace inductionHypothesis =>
      by_cases own : event.task = task
      · rw [past_cons_self own] at split
        cases first with
        | nil =>
            obtain ⟨rfl, rfl⟩ := List.cons.inj split
            exact ⟨[], event, trace, rfl, own, rfl, rfl, rfl⟩
        | cons earlier first =>
            obtain ⟨rfl, rest⟩ := List.cons.inj split
            obtain ⟨front, found, later, rfl, task, record, before, after⟩ :=
              inductionHypothesis rest
            exact ⟨event :: front, found, later, rfl, task, record, by simp [past, own, ← before],
              after⟩
      · rw [past_cons_of_ne own] at split
        obtain ⟨front, found, later, rfl, task, record, before, after⟩ := inductionHypothesis split
        exact ⟨event :: front, found, later, rfl, task, record, by simp [past, own, ← before],
          after⟩

/-- The store at the end of a trace that started in `init`. -/
def storeAfter (init : Store) (trace : List (Event sig Request Store)) : Store :=
  (trace.getLast?.map Event.after).getD init

@[simp]
theorem storeAfter_nil (init : Store) :
    storeAfter init ([] : List (Event sig Request Store)) = init := rfl

@[simp]
theorem storeAfter_concat (init : Store) (trace : List (Event sig Request Store))
    (event : Event sig Request Store) : storeAfter init (trace ++ [event]) = event.after := by
  simp [storeAfter]

/-- The runs of a system from the store `init`. -/
inductive Run (handler : Request → Program sig Result) (exec : Semantics sig Store) (init : Store) :
    List (Event sig Request Store) → World sig Request Result Store → Prop where
  | start : Run handler exec init [] ⟨init, []⟩
  | arrive {trace world} (request : Request) :
      Run handler exec init trace world →
      Run handler exec init trace
        { world with tasks := world.tasks ++ [⟨request, handler request⟩] }
  | step {trace world} {task : Nat} {request : Request} {c : sig.Call}
      {next : sig.Response c → Program sig Result} {answer : sig.Response c} {after : Store} :
      Run handler exec init trace world →
      world.tasks[task]? = some ⟨request, .call c next⟩ →
      exec c world.store answer after →
      Run handler exec init (trace ++ [⟨task, request, c, answer, world.store, after⟩])
        ⟨after, world.tasks.set task ⟨request, next answer⟩⟩

namespace Run

variable {handler : Request → Program sig Result} {exec : Semantics sig Store} {init : Store}
  {trace : List (Event sig Request Store)} {world : World sig Request Result Store}

theorem store_eq (run : Run handler exec init trace world) :
    world.store = storeAfter init trace := by
  induction run with
  | start => rfl
  | arrive request run inductionHypothesis => exact inductionHypothesis
  | step run present executed inductionHypothesis => simp

/-- Every initial part of a trace is the trace of a run. -/
theorem prefix_run {later : List (Event sig Request Store)} {whole : List (Event sig Request Store)}
    (run : Run handler exec init whole world) (split : whole = trace ++ later) :
    ∃ middle, Run handler exec init trace middle := by
  induction run generalizing later with
  | start =>
      obtain ⟨rfl, rfl⟩ := List.append_eq_nil_iff.mp split.symm
      exact ⟨_, .start⟩
  | arrive request run inductionHypothesis => exact inductionHypothesis split
  | @step before middle task request c next answer after run present executed inductionHypothesis =>
      rcases List.eq_nil_or_concat later with rfl | ⟨front, last, rfl⟩
      · rw [List.append_nil] at split
        subst split
        exact ⟨_, .step run present executed⟩
      · rw [List.concat_eq_append, ← List.append_assoc] at split
        exact inductionHypothesis (List.append_inj' split rfl).1

/-- Invariant rule: what holds at the start and is kept by every call that a
run makes holds at its end. -/
theorem invariant (Inv : List (Event sig Request Store) → Store → Prop)
    (run : Run handler exec init trace world) (initial : Inv [] init)
    (kept : ∀ (front : List (Event sig Request Store)) (event : Event sig Request Store),
      (∃ middle, Run handler exec init (front ++ [event]) middle) →
      exec event.call event.before event.response event.after →
      Inv front event.before → Inv (front ++ [event]) event.after) :
    Inv trace world.store := by
  induction run with
  | start => exact initial
  | arrive request run inductionHypothesis => exact inductionHypothesis
  | step run present executed inductionHypothesis =>
      exact kept _ ⟨_, _, _, _, _, _⟩ ⟨_, .step run present executed⟩ executed inductionHypothesis

/-- Each event is a step of a task that was at its call, in a run of its own. -/
theorem step_at (run : Run handler exec init trace world)
    {front later : List (Event sig Request Store)} {event : Event sig Request Store}
    (split : trace = front ++ event :: later) :
    ∃ middle next, Run handler exec init front middle ∧
      middle.tasks[event.task]? = some ⟨event.request, .call event.call next⟩ ∧
      exec event.call event.before event.response event.after ∧ middle.store = event.before := by
  obtain ⟨middle, shorter⟩ : ∃ middle, Run handler exec init (front ++ [event]) middle :=
    run.prefix_run (by simpa using split)
  generalize same : front ++ [event] = whole at shorter
  induction shorter with
  | start => simp at same
  | arrive request run inductionHypothesis => exact inductionHypothesis same
  | @step _ world _ _ _ next _ _ run present executed inductionHypothesis =>
      obtain ⟨rfl, rest⟩ := List.append_inj' same rfl
      cases rest
      exact ⟨world, next, run, present, executed, rfl⟩

/-- Each event happened as its call says, in the store its predecessor left. -/
theorem event_at (run : Run handler exec init trace world)
    (front : List (Event sig Request Store)) (event : Event sig Request Store)
    (later : List (Event sig Request Store)) (split : trace = front ++ event :: later) :
    exec event.call event.before event.response event.after ∧
      event.before = storeAfter init front := by
  obtain ⟨middle, _, shorter, _, executed, found⟩ := run.step_at split
  exact ⟨executed, found.symm.trans shorter.store_eq⟩

/-- An event happened in the store of a run of its own. -/
theorem prefix_before (run : Run handler exec init trace world)
    {front later : List (Event sig Request Store)} {event : Event sig Request Store}
    (split : trace = front ++ event :: later) :
    ∃ middle, Run handler exec init front middle ∧ middle.store = event.before := by
  obtain ⟨middle, _, shorter, _, _, found⟩ := run.step_at split
  exact ⟨middle, shorter, found⟩

theorem executed (run : Run handler exec init trace world) {event : Event sig Request Store}
    (membership : event ∈ trace) : exec event.call event.before event.response event.after := by
  obtain ⟨front, later, split⟩ := List.append_of_mem membership
  exact (run.event_at front event later split).1

/-- The run up to its last event, and this event. -/
theorem of_concat {front : List (Event sig Request Store)} {event : Event sig Request Store}
    (run : Run handler exec init (front ++ [event]) world) :
    (∃ middle, Run handler exec init front middle ∧ middle.store = event.before) ∧
      exec event.call event.before event.response event.after :=
  ⟨run.prefix_before rfl,
    run.executed (List.mem_append_right front (List.mem_singleton_self event))⟩

theorem unchanged_in {View : Type} (view : Store → View) (run : Run handler exec init trace world)
    (kept : ∀ event ∈ trace, view event.after = view event.before) :
    view world.store = view init ∧ ∀ event ∈ trace, view event.before = view init := by
  induction run with
  | start => simp
  | arrive request run inductionHypothesis => exact inductionHypothesis kept
  | @step trace world task request c next answer after run present executed inductionHypothesis =>
      obtain ⟨reached, earlier⟩ :=
        inductionHypothesis fun event membership => kept event (List.mem_append_left _ membership)
      have last := kept ⟨task, request, c, answer, world.store, after⟩ (by simp)
      refine ⟨last.trans reached, fun event membership => ?_⟩
      rcases List.mem_append.mp membership with before | final
      · exact earlier event before
      · rw [List.mem_singleton] at final
        subst final
        exact reached

/-- A component that no other task changes is what the calls of this task make of it. -/
theorem view_of_task {View : Type} (view : Store → View) (change : Record sig → View → View)
    (changes : ∀ c store answer after, exec c store answer after →
      view after = change ⟨c, answer⟩ (view store))
    (run : Run handler exec init trace world) (task : Nat)
    (others : ∀ event ∈ trace, event.task ≠ task → ∀ held, change event.record held = held) :
    view world.store = (past task trace).foldl (fun held record => change record held) (view init) := by
  induction run with
  | start => rfl
  | arrive request run inductionHypothesis => exact inductionHypothesis others
  | @step trace world acting request c next answer after run present executed inductionHypothesis =>
      have earlier := inductionHypothesis fun event membership =>
        others event (List.mem_append_left _ membership)
      have changed := changes _ _ _ _ executed
      by_cases own : acting = task
      · subst own
        rw [past_concat_self trace ⟨acting, request, c, answer, world.store, after⟩,
          List.foldl_append, ← earlier]
        exact changed
      · have kept := others ⟨acting, request, c, answer, world.store, after⟩ (by simp) own
        rw [past_concat_of_ne trace own, ← earlier, changed]
        exact kept _

theorem unchanged {View : Type} (view : Store → View)
    (kept : ∀ c store answer after, exec c store answer after → view after = view store)
    (run : Run handler exec init trace world) : view world.store = view init :=
  (run.unchanged_in view fun _ membership => kept _ _ _ _ (run.executed membership)).1

theorem unchanged_before {View : Type} (view : Store → View)
    (kept : ∀ c store answer after, exec c store answer after → view after = view store)
    (run : Run handler exec init trace world) {event : Event sig Request Store}
    (membership : event ∈ trace) : view event.before = view init :=
  (run.unchanged_in view fun _ inside => kept _ _ _ _ (run.executed inside)).2 event membership

/-- A component that no event lets shrink never shrinks along the run. -/
theorem monotone {View : Type*} [Preorder View] (view : Store → View)
    (run : Run handler exec init trace world)
    (grows : ∀ event ∈ trace, view event.before ≤ view event.after)
    (front between later : List (Event sig Request Store))
    (split : trace = front ++ (between ++ later)) :
    view (storeAfter init front) ≤ view (storeAfter init (front ++ between)) := by
  induction between using List.reverseRecOn generalizing later with
  | nil => simp
  | append_singleton between event inductionHypothesis =>
      have started := (run.event_at (front ++ between) event later (by simpa using split)).2
      have step := grows event (by simp [split])
      rw [started] at step
      rw [← List.append_assoc, storeAfter_concat]
      exact (inductionHypothesis (event :: later) (by simpa using split)).trans step

theorem event_task (run : Run handler exec init trace world) {event : Event sig Request Store}
    (membership : event ∈ trace) :
    ∃ program, world.tasks[event.task]? = some ⟨event.request, program⟩ := by
  induction run with
  | start => simp at membership
  | arrive request run inductionHypothesis =>
      obtain ⟨program, found⟩ := inductionHypothesis membership
      exact ⟨program, by rw [List.getElem?_append_left (List.getElem?_eq_some_iff.mp found).1, found]⟩
  | @step trace world task request c next answer after run present executed inductionHypothesis =>
      have inside := (List.getElem?_eq_some_iff.mp present).1
      rcases List.mem_append.mp membership with earlier | last
      · obtain ⟨program, found⟩ := inductionHypothesis earlier
        by_cases same : task = event.task
        · subst same
          rw [present] at found
          cases found
          exact ⟨next answer, by simp [inside]⟩
        · exact ⟨program, by rw [List.getElem?_set_ne same, found]⟩
      · rw [List.mem_singleton] at last
        subst last
        exact ⟨next answer, by simp [inside]⟩

theorem request_of_task (run : Run handler exec init trace world)
    {event : Event sig Request Store} (membership : event ∈ trace) {task : Nat}
    (own : event.task = task) {request : Request} {program : Program sig Result}
    (found : world.tasks[task]? = some ⟨request, program⟩) : event.request = request := by
  obtain ⟨_, same⟩ := run.event_task membership
  rw [own, found] at same
  exact (congrArg Task.request (Option.some.inj same)).symm

theorem request_eq (run : Run handler exec init trace world)
    {first second : Event sig Request Store} (firstMember : first ∈ trace)
    (secondMember : second ∈ trace) (same : first.task = second.task) :
    first.request = second.request := by
  obtain ⟨_, found⟩ := run.event_task secondMember
  exact run.request_of_task firstMember same found

theorem past_eq_nil_of_length_le (run : Run handler exec init trace world) {task : Nat}
    (fresh : world.tasks.length ≤ task) : past task trace = [] := by
  rw [past, List.map_eq_nil_iff, List.filter_eq_nil_iff]
  intro event membership
  obtain ⟨program, found⟩ := run.event_task membership
  have inside := (List.getElem?_eq_some_iff.mp found).1
  simp only [decide_eq_true_eq]
  omega

variable {outline : Request → Outline sig Result}

/-- Soundness of outlines for the tasks of an interleaved run: whatever the
other tasks do, each task is at a point its outline allows. -/
theorem outline_holds (run : Run handler exec init trace world)
    (kept : ∀ request, (outline request).Holds [] (handler request))
    {task : Nat} {request : Request} {program : Program sig Result}
    (present : world.tasks[task]? = some ⟨request, program⟩) :
    (outline request).Holds (past task trace) program := by
  induction run generalizing task request program with
  | start => simp at present
  | @arrive trace world arrived run inductionHypothesis =>
      by_cases inside : task < world.tasks.length
      · rw [List.getElem?_append_left inside] at present
        exact inductionHypothesis present
      · rw [run.past_eq_nil_of_length_le (Nat.le_of_not_lt inside)]
        rw [List.getElem?_append_right (Nat.le_of_not_lt inside)] at present
        obtain ⟨_, same⟩ := List.getElem?_eq_some_iff.mp present
        simp only [List.getElem_singleton] at same
        cases same
        exact kept arrived
  | @step trace world acting acted c next answer after run found executed inductionHypothesis =>
      have inside := (List.getElem?_eq_some_iff.mp found).1
      by_cases same : acting = task
      · subst same
        rw [List.getElem?_set_self inside] at present
        cases present
        rw [past_concat_self trace ⟨acting, acted, c, answer, world.store, after⟩]
        exact (inductionHypothesis found).2 answer
      · rw [List.getElem?_set_ne same] at present
        rw [past_concat_of_ne trace same]
        exact inductionHypothesis present

theorem outline_atCall (run : Run handler exec init trace world)
    (kept : ∀ request, (outline request).Holds [] (handler request))
    {front later : List (Event sig Request Store)} {event : Event sig Request Store}
    (split : trace = front ++ event :: later) :
    (outline event.request).atCall (past event.task front) event.call := by
  obtain ⟨_, _, shorter, present, _⟩ := run.step_at split
  exact (shorter.outline_holds kept present).1

theorem outline_atLast {front : List (Event sig Request Store)} {event : Event sig Request Store}
    (run : Run handler exec init (front ++ [event]) world)
    (kept : ∀ request, (outline request).Holds [] (handler request)) :
    (outline event.request).atCall (past event.task front) event.call :=
  run.outline_atCall kept rfl

theorem outline_atResult (run : Run handler exec init trace world)
    (kept : ∀ request, (outline request).Holds [] (handler request))
    {task : Nat} {request : Request} {result : Result}
    (returned : world.tasks[task]? = some ⟨request, .done result⟩) :
    (outline request).atResult (past task trace) result :=
  run.outline_holds kept returned

end Run

end Concurrent
