import MevRelay.Concurrent.Interleaving
import Mathlib.Data.List.Forall2

/-!
# Tasks that others do not notice

A view is what some tasks know of the store.  If the calls of these tasks depend
on the view alone, and the calls of the other tasks preserve it, then the other
tasks can be held back altogether.
-/

namespace Concurrent

variable {sig : Signature} {Request Result Store View : Type}

/-- The call does the same in stores with the same view. -/
def DependsOn (exec : Semantics sig Store) (view : Store → View) (c : sig.Call) : Prop :=
  ∀ store answer after other, exec c store answer after → view other = view store →
    ∃ otherAfter, exec c other answer otherAfter ∧ view otherAfter = view after

/-- The call leaves the view as it is. -/
def Preserves (exec : Semantics sig Store) (view : Store → View) (c : sig.Call) : Prop :=
  ∀ store answer after, exec c store answer after → view after = view store

/-- The same call of the same task with the same answer, in stores with the same view. -/
structure Event.Alike (view : Store → View) (event other : Event sig Request Store) : Prop where
  task : other.task = event.task
  request : other.request = event.request
  record : other.record = event.record
  before : view other.before = view event.before
  after : view other.after = view event.after

theorem dependsOn_id (exec : Semantics sig Store) (c : sig.Call) : DependsOn exec id c := by
  rintro store answer after other executed rfl
  exact ⟨after, executed, rfl⟩

theorem Event.Alike.eq {event other : Event sig Request Store} (alike : event.Alike id other) :
    event = other := by
  obtain ⟨task, request, record, before, after⟩ := alike
  cases event
  cases other
  cases record
  cases task
  cases request
  cases before
  cases after
  rfl

variable {exec : Semantics sig Store} {handler : Request → Program sig Result}
  {init otherInit : Store} {trace : List (Event sig Request Store)}
  {world : World sig Request Result Store}

/-- Hidden tasks that preserve a view are not noticed by the others, whose calls
depend on it alone: without the hidden tasks, and from any store with the same
view, the others make the same calls and get the same answers. -/
theorem Run.purge (run : Run handler exec init trace world) (view : Store → View)
    (hidden : Nat → Request → Prop) [∀ task, DecidablePred (hidden task)]
    (started : view otherInit = view init)
    (preserves : ∀ event ∈ trace, hidden event.task event.request → Preserves exec view event.call)
    (depends : ∀ event ∈ trace, ¬ hidden event.task event.request → DependsOn exec view event.call) :
    ∃ shorter others, Run handler exec otherInit shorter others ∧
      List.Forall₂ (Event.Alike view) (trace.filter fun event => ¬ hidden event.task event.request) shorter ∧
      view others.store = view world.store ∧ others.tasks.length = world.tasks.length ∧
      ∀ (task : Nat) request program, world.tasks[task]? = some ⟨request, program⟩ →
        others.tasks[task]? =
          some ⟨request, if hidden task request then handler request else program⟩ := by
  induction run with
  | start => exact ⟨[], ⟨otherInit, []⟩, .start, .nil, started, rfl, by simp⟩
  | @arrive trace world request run inductionHypothesis =>
      obtain ⟨shorter, others, purged, alike, same, length, tasks⟩ :=
        inductionHypothesis preserves depends
      refine ⟨shorter, _, purged.arrive request, alike, same, by simp [length],
        fun task asked program found => ?_⟩
      by_cases inside : task < world.tasks.length
      · rw [List.getElem?_append_left inside] at found
        rw [List.getElem?_append_left (by rw [length]; exact inside)]
        exact tasks task asked program found
      · have last : task = world.tasks.length := by
          have bound := (List.getElem?_eq_some_iff.mp found).1
          simp only [List.length_append, List.length_singleton] at bound
          omega
        subst last
        rw [List.getElem?_concat_length] at found
        cases found
        rw [← length, List.getElem?_concat_length, ite_self]
  | @step trace world task request c next answer after run present executed inductionHypothesis =>
      obtain ⟨shorter, others, purged, alike, same, length, tasks⟩ := inductionHypothesis
        (fun event membership => preserves event (List.mem_append_left _ membership))
        (fun event membership => depends event (List.mem_append_left _ membership))
      have inside := (List.getElem?_eq_some_iff.mp present).1
      have known := tasks task request _ present
      have last := List.mem_append_right trace (List.mem_singleton_self
        (⟨task, request, c, answer, world.store, after⟩ : Event sig Request Store))
      by_cases held : hidden task request
      · -- the call is left out, and the view is as before it
        have kept : view after = view world.store :=
          preserves _ last held world.store answer after executed
        refine ⟨shorter, others, purged, ?_, same.trans kept.symm, by simp [length],
          fun acting asked program found => ?_⟩
        · rw [List.filter_append, List.filter_cons_of_neg (by simpa using held), List.filter_nil,
            List.append_nil]
          exact alike
        · by_cases own : task = acting
          · subst own
            rw [List.getElem?_set_self inside] at found
            cases found
            rw [known, if_pos held, if_pos held]
          · rw [List.getElem?_set_ne own] at found
            exact tasks acting asked program found
      · rw [if_neg held] at known
        obtain ⟨otherAfter, further, agree⟩ :=
          depends _ last held world.store answer after others.store executed same
        refine ⟨_, _, purged.step known further, ?_, agree, by simp [length],
          fun acting asked program found => ?_⟩
        · rw [List.filter_append, List.filter_cons_of_pos (by simpa using held), List.filter_nil]
          exact List.rel_append alike (.cons ⟨rfl, rfl, rfl, same, agree⟩ .nil)
        · by_cases own : task = acting
          · subst own
            rw [List.getElem?_set_self inside] at found
            cases found
            rw [List.getElem?_set_self (by rw [length]; exact inside), if_neg held]
          · rw [List.getElem?_set_ne own] at found
            rw [List.getElem?_set_ne own]
            exact tasks acting asked program found

/-- Tasks whose calls change nothing can be held back: the others make the same
calls, with the same answers and in the same stores. -/
theorem Run.without (run : Run handler exec init trace world) (hidden : Nat → Prop)
    [DecidablePred hidden]
    (silent : ∀ event ∈ trace, hidden event.task → Preserves exec id event.call) :
    ∃ others : World sig Request Result Store,
      Run handler exec init (trace.filter fun event => ¬ hidden event.task) others ∧
      others.store = world.store ∧
      ∀ (task : Nat) request program, world.tasks[task]? = some ⟨request, program⟩ →
        others.tasks[task]? =
          some ⟨request, if hidden task then handler request else program⟩ := by
  obtain ⟨shorter, others, purged, alike, same, _, tasks⟩ :=
    run.purge id (fun task _ => hidden task) rfl silent
      fun event _ _ => dependsOn_id exec event.call
  have equal : trace.filter (fun event => ¬ hidden event.task) = shorter :=
    List.forall₂_eq_eq_eq ▸ alike.imp fun event other => Event.Alike.eq
  rw [equal]
  exact ⟨others, purged, same, tasks⟩

end Concurrent
