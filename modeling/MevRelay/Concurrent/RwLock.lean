import MevRelay.Concurrent.Refinement
import Mathlib.Data.Finset.Card

/-!
# A readers-writer lock

Data behind a lock that admits either any number of readers or one writer.
Looking at the data and changing it are calls of their own and ask for no lock,
so what is safe about them follows from the programs: a program is disciplined
when it looks only between locking and unlocking and changes only under the
exclusive lock.

While a writer is at work the settled data is what it found when it locked.
-/

namespace Concurrent

variable {Data : Type}

inductive LockCall (Data : Type) where
  | lockShared
  | lockExclusive
  | look
  | change (f : Data → Data)
  | unlockShared
  | unlockExclusive

abbrev LockCall.Response : LockCall Data → Type
  | .look => Data
  | _ => Unit

abbrev LockCalls (Data : Type) : Signature := ⟨LockCall Data, LockCall.Response⟩

/-- Who holds the lock.  For a writer, the data it found is kept. -/
inductive Holders (Data : Type) where
  | shared (readers : Nat)
  | exclusive (before : Data)

structure RwLock (Data : Type) where
  data : Data
  holders : Holders Data

namespace RwLock

def new (data : Data) : RwLock Data := ⟨data, .shared 0⟩

/-- The data as it is outside the section of a writer. -/
def settled : RwLock Data → Data
  | ⟨data, .shared _⟩ => data
  | ⟨_, .exclusive before⟩ => before

/-- Both kinds of locking wait until the lock admits them. -/
def exec : Semantics (LockCalls Data) (RwLock Data)
  | .lockShared, lock, _, after =>
      ∃ readers, lock.holders = .shared readers ∧ after = ⟨lock.data, .shared (readers + 1)⟩
  | .lockExclusive, lock, _, after =>
      lock.holders = .shared 0 ∧ after = ⟨lock.data, .exclusive lock.data⟩
  | .look, lock, answer, after => answer = lock.data ∧ after = lock
  | .change f, lock, _, after => after = ⟨f lock.data, lock.holders⟩
  | .unlockShared, lock, _, after =>
      ∃ readers, lock.holders = .shared (readers + 1) ∧ after = ⟨lock.data, .shared readers⟩
  | .unlockExclusive, lock, _, after =>
      (∃ before, lock.holders = .exclusive before) ∧ after = ⟨lock.data, .shared 0⟩

/-- Make a call, unless it has to wait. -/
def step? : (c : LockCall Data) → RwLock Data → Option (c.Response × RwLock Data)
  | .lockShared, ⟨data, .shared readers⟩ => some ((), ⟨data, .shared (readers + 1)⟩)
  | .lockExclusive, ⟨data, .shared 0⟩ => some ((), ⟨data, .exclusive data⟩)
  | .look, lock => some (lock.data, lock)
  | .change f, lock => some ((), ⟨f lock.data, lock.holders⟩)
  | .unlockShared, ⟨data, .shared (readers + 1)⟩ => some ((), ⟨data, .shared readers⟩)
  | .unlockExclusive, ⟨data, .exclusive _⟩ => some ((), ⟨data, .shared 0⟩)
  | .lockShared, _ | .lockExclusive, _ | .unlockShared, _ | .unlockExclusive, _ => none

theorem step?_sound (c : LockCall Data) (lock : RwLock Data) (answer : c.Response)
    (after : RwLock Data) (stepped : step? c lock = some (answer, after)) :
    exec c lock answer after := by
  obtain ⟨data, holders⟩ := lock
  cases c with
  | lockShared =>
      cases holders <;> cases stepped
      exact ⟨_, rfl, rfl⟩
  | lockExclusive =>
      rcases holders with (_ | readers) | before <;> cases stepped
      exact ⟨rfl, rfl⟩
  | look =>
      cases stepped
      exact ⟨rfl, rfl⟩
  | change f =>
      cases stepped
      rfl
  | unlockShared =>
      rcases holders with (_ | readers) | before <;> cases stepped
      exact ⟨_, rfl, rfl⟩
  | unlockExclusive =>
      cases holders <;> cases stepped
      exact ⟨⟨_, rfl⟩, rfl⟩

end RwLock

/-- Where a task is with respect to the lock.  A writer is known by its changes so far. -/
inductive Phase (Data : Type) where
  | outside
  | shared
  | exclusive (changes : List (Data → Data))

namespace Phase

def next : Phase Data → LockCall Data → Phase Data
  | _, .lockShared => .shared
  | _, .lockExclusive => .exclusive []
  | .exclusive changes, .change f => .exclusive (changes ++ [f])
  | phase, .change _ | phase, .look => phase
  | _, .unlockShared | _, .unlockExclusive => .outside

/-- What a disciplined program may do at a phase. -/
def Allows : Phase Data → LockCall Data → Prop
  | .outside, .lockShared | .outside, .lockExclusive => True
  | .shared, .look | .shared, .unlockShared => True
  | .exclusive _, .look | .exclusive _, .change _ | .exclusive _, .unlockExclusive => True
  | _, _ => False

end Phase

/-- The lock agrees with where the tasks are. -/
structure Exclusion (phase : Nat → Phase Data) (lock : RwLock Data) : Prop where
  shared : ∀ readers, lock.holders = .shared readers → ∃ tasks : Finset Nat,
    tasks.card = readers ∧ ∀ task, phase task = if task ∈ tasks then .shared else .outside
  exclusive : ∀ before, lock.holders = .exclusive before → ∃ owner changes,
    phase owner = .exclusive changes ∧
      lock.data = changes.foldl (fun data change => change data) before ∧
      ∀ task, task ≠ owner → phase task = .outside

namespace Exclusion

variable {phase : Nat → Phase Data} {lock after : RwLock Data} {task : Nat}

theorem new (data : Data) : Exclusion (fun _ => .outside) (RwLock.new data) where
  shared readers held := by
    cases held
    exact ⟨∅, rfl, by simp⟩
  exclusive before held := by cases held

/-- While a task reads, the data is settled. -/
theorem of_shared (exclusion : Exclusion phase lock) (reads : phase task = .shared) :
    lock.settled = lock.data ∧ ∃ readers, lock.holders = .shared (readers + 1) := by
  obtain ⟨data, holders⟩ := lock
  cases holders with
  | shared readers =>
      obtain ⟨tasks, rfl, phases⟩ := exclusion.shared readers rfl
      have inside : task ∈ tasks := by
        by_contra outside
        rw [phases, if_neg outside] at reads
        cases reads
      refine ⟨rfl, tasks.card - 1, ?_⟩
      have positive := Finset.card_pos.mpr ⟨task, inside⟩
      rw [Nat.sub_add_cancel positive]
  | exclusive before =>
      obtain ⟨owner, changes, writes, _, others⟩ := exclusion.exclusive before rfl
      by_cases same : task = owner
      · rw [same, writes] at reads
        cases reads
      · rw [others task same] at reads
        cases reads

/-- While a task writes, the data is the settled data with its changes, and
every other task is outside. -/
theorem of_exclusive (exclusion : Exclusion phase lock) {changes : List (Data → Data)}
    (writes : phase task = .exclusive changes) :
    lock.holders = .exclusive lock.settled ∧
      lock.data = changes.foldl (fun data change => change data) lock.settled ∧
      ∀ other, other ≠ task → phase other = .outside := by
  obtain ⟨data, holders⟩ := lock
  cases holders with
  | shared readers =>
      obtain ⟨tasks, _, phases⟩ := exclusion.shared readers rfl
      rw [phases] at writes
      split at writes <;> cases writes
  | exclusive before =>
      obtain ⟨owner, made, held, data, others⟩ := exclusion.exclusive before rfl
      have same : task = owner := by
        by_contra other
        rw [others task other] at writes
        cases writes
      subst same
      rw [held] at writes
      cases writes
      exact ⟨rfl, data, others⟩

omit lock after in
theorem notMem_of_outside {tasks : Finset Nat}
    (phases : ∀ task, phase task = if task ∈ tasks then .shared else .outside)
    (waits : phase task = .outside) : task ∉ tasks := by
  intro inside
  rw [phases, if_pos inside] at waits
  cases waits

theorem lockShared (exclusion : Exclusion phase lock) (waits : phase task = .outside)
    {readers : Nat} (held : lock.holders = .shared readers) :
    Exclusion (Function.update phase task .shared) ⟨lock.data, .shared (readers + 1)⟩ where
  shared count counted := by
    cases counted
    obtain ⟨tasks, rfl, phases⟩ := exclusion.shared readers held
    have fresh := notMem_of_outside phases waits
    refine ⟨insert task tasks, Finset.card_insert_of_notMem fresh, fun other => ?_⟩
    by_cases same : other = task
    · subst same
      simp
    · simp [same, phases]
  exclusive before writer := by cases writer

theorem unlockShared (exclusion : Exclusion phase lock) (reads : phase task = .shared)
    {readers : Nat} (held : lock.holders = .shared (readers + 1)) :
    Exclusion (Function.update phase task .outside) ⟨lock.data, .shared readers⟩ where
  shared count counted := by
    cases counted
    obtain ⟨tasks, size, phases⟩ := exclusion.shared _ held
    have inside : task ∈ tasks := by
      by_contra outside
      rw [phases, if_neg outside] at reads
      cases reads
    refine ⟨tasks.erase task, by rw [Finset.card_erase_of_mem inside, size]; rfl, fun other => ?_⟩
    by_cases same : other = task
    · subst same
      simp
    · simp [same, phases]
  exclusive before writer := by cases writer

theorem lockExclusive (exclusion : Exclusion phase lock) (free : lock.holders = .shared 0) :
    Exclusion (Function.update phase task (.exclusive [])) ⟨lock.data, .exclusive lock.data⟩ where
  shared count counted := by cases counted
  exclusive before writer := by
    cases writer
    obtain ⟨tasks, empty, phases⟩ := exclusion.shared 0 free
    refine ⟨task, [], by simp, rfl, fun other distinct => ?_⟩
    rw [Finset.card_eq_zero.mp empty] at phases
    simp [distinct, phases]

theorem change (exclusion : Exclusion phase lock) {changes : List (Data → Data)}
    (writes : phase task = .exclusive changes) (f : Data → Data) :
    Exclusion (Function.update phase task (.exclusive (changes ++ [f])))
      ⟨f lock.data, lock.holders⟩ where
  shared readers counted := by
    rw [(exclusion.of_exclusive writes).1] at counted
    cases counted
  exclusive before writer := by
    obtain ⟨held, data, others⟩ := exclusion.of_exclusive writes
    rw [held] at writer
    cases writer
    refine ⟨task, changes ++ [f], by simp, ?_, fun other distinct => ?_⟩
    · rw [data, List.foldl_append]
      rfl
    · simp [distinct, others other distinct]

theorem unlockExclusive (exclusion : Exclusion phase lock) {changes : List (Data → Data)}
    (writes : phase task = .exclusive changes) :
    Exclusion (Function.update phase task .outside) ⟨lock.data, .shared 0⟩ where
  shared readers counted := by
    cases counted
    refine ⟨∅, rfl, fun other => ?_⟩
    by_cases same : other = task
    · subst same
      simp
    · simp [same, (exclusion.of_exclusive writes).2.2 other same]
  exclusive before writer := by cases writer

/-- A disciplined call keeps the lock in agreement with the tasks. -/
theorem step (exclusion : Exclusion phase lock) {c : LockCall Data} {answer : c.Response}
    (allowed : (phase task).Allows c) (executed : RwLock.exec c lock answer after) :
    Exclusion (Function.update phase task ((phase task).next c)) after := by
  cases c with
  | lockShared =>
      obtain ⟨readers, held, rfl⟩ := executed
      cases here : phase task with
      | outside => exact exclusion.lockShared here held
      | shared => rw [here] at allowed; cases allowed
      | exclusive changes => rw [here] at allowed; cases allowed
  | lockExclusive =>
      obtain ⟨free, rfl⟩ := executed
      exact exclusion.lockExclusive free
  | look =>
      obtain ⟨_, rfl⟩ := executed
      have stays : (phase task).next .look = phase task := by cases phase task <;> rfl
      rw [stays, Function.update_eq_self]
      exact exclusion
  | change f =>
      cases executed
      cases here : phase task with
      | outside => rw [here] at allowed; cases allowed
      | shared => rw [here] at allowed; cases allowed
      | exclusive changes => exact exclusion.change here f
  | unlockShared =>
      obtain ⟨readers, held, rfl⟩ := executed
      cases here : phase task with
      | outside => rw [here] at allowed; cases allowed
      | shared => exact exclusion.unlockShared here held
      | exclusive changes => rw [here] at allowed; cases allowed
  | unlockExclusive =>
      obtain ⟨_, rfl⟩ := executed
      cases here : phase task with
      | outside => rw [here] at allowed; cases allowed
      | shared => rw [here] at allowed; cases allowed
      | exclusive changes => exact exclusion.unlockExclusive here

/-- Nothing but the end of a writer's section changes the settled data. -/
theorem settled_step (exclusion : Exclusion phase lock) {c : LockCall Data} {answer : c.Response}
    (allowed : (phase task).Allows c) (executed : RwLock.exec c lock answer after)
    (goesOn : c ≠ .unlockExclusive) : after.settled = lock.settled := by
  obtain ⟨data, holders⟩ := lock
  cases c with
  | lockShared =>
      obtain ⟨readers, rfl, rfl⟩ := executed
      rfl
  | lockExclusive =>
      obtain ⟨rfl, rfl⟩ := executed
      rfl
  | look =>
      obtain ⟨_, rfl⟩ := executed
      rfl
  | change f =>
      cases here : phase task with
      | outside => rw [here] at allowed; cases allowed
      | shared => rw [here] at allowed; cases allowed
      | exclusive changes =>
          have held := (exclusion.of_exclusive here).1
          cases holders with
          | shared readers => cases held
          | exclusive before =>
              cases executed
              rfl
  | unlockShared =>
      obtain ⟨readers, rfl, rfl⟩ := executed
      rfl
  | unlockExclusive => exact absurd rfl goesOn

/-- Whoever holds the lock can go on. -/
theorem enabled (exclusion : Exclusion phase lock) (holds : phase task ≠ .outside)
    {c : LockCall Data} (allowed : (phase task).Allows c) :
    ∃ answer after, RwLock.exec c lock answer after := by
  cases here : phase task with
  | outside => exact absurd here holds
  | shared =>
      rw [here] at allowed
      obtain ⟨_, readers, held⟩ := exclusion.of_shared here
      cases c with
      | look => exact ⟨lock.data, lock, rfl, rfl⟩
      | unlockShared => exact ⟨(), _, readers, held, rfl⟩
      | lockShared | lockExclusive | change | unlockExclusive => cases allowed
  | exclusive changes =>
      rw [here] at allowed
      have held := (exclusion.of_exclusive here).1
      cases c with
      | look => exact ⟨lock.data, lock, rfl, rfl⟩
      | change f => exact ⟨(), _, rfl⟩
      | unlockExclusive => exact ⟨(), _, ⟨_, held⟩, rfl⟩
      | lockShared | lockExclusive | unlockShared => cases allowed

/-- Locking waits only for a task that holds the lock. -/
theorem holder_of_blocked (exclusion : Exclusion phase lock) {c : LockCall Data}
    (allowed : (phase task).Allows c) (blocked : ∀ answer after, ¬ RwLock.exec c lock answer after) :
    ∃ holder, phase holder ≠ .outside := by
  by_contra free
  rw [not_exists] at free
  have everyone : ∀ other, phase other = .outside := fun other => not_not.mp (free other)
  rw [everyone] at allowed
  obtain ⟨data, holders⟩ := lock
  cases holders with
  | shared readers =>
      have none : readers = 0 := by
        obtain ⟨tasks, rfl, phases⟩ := exclusion.shared readers rfl
        rw [Finset.card_eq_zero, Finset.eq_empty_iff_forall_notMem]
        exact fun other => notMem_of_outside phases (everyone other)
      subst none
      cases c with
      | lockShared => exact blocked () _ ⟨0, rfl, rfl⟩
      | lockExclusive => exact blocked () _ ⟨rfl, rfl⟩
      | look | change | unlockShared | unlockExclusive => cases allowed
  | exclusive before =>
      obtain ⟨owner, changes, writes, _⟩ := exclusion.exclusive before rfl
      rw [everyone] at writes
      cases writes

end Exclusion

namespace Component

variable {sig : Signature} {Request Result Store : Type} {exec : Semantics sig Store}
  (part : Component exec (@RwLock.exec Data))

/-- The phase that the calls of a task have brought it to. -/
def phase (past : List (Record sig)) : Phase Data :=
  (past.filterMap part.record?).foldl (fun phase record => phase.next record.1) .outside

@[simp]
theorem phase_nil : part.phase [] = .outside := rfl

theorem phase_concat_own {record : Record sig} {own : Record (LockCalls Data)}
    (found : part.record? record = some own) (past : List (Record sig)) :
    part.phase (past ++ [record]) = (part.phase past).next own.1 := by
  simp [phase, List.filterMap_append, found]

theorem phase_concat_other {record : Record sig} (found : part.record? record = none)
    (past : List (Record sig)) : part.phase (past ++ [record]) = part.phase past := by
  simp [phase, List.filterMap_append, found]

/-- Lock before use, unlock at the end, and do nothing else in between. -/
def disciplined : Outline sig Result where
  atCall past c := ∀ answer, match part.record? ⟨c, answer⟩ with
    | some own => (part.phase past).Allows own.1
    | none => part.phase past = .outside
  atResult past _ := part.phase past = .outside

/-- In every interleaving of disciplined programs the lock agrees with the tasks. -/
theorem exclusion {handler : Request → Program sig Result} {init : Store}
    {trace : List (Event sig Request Store)} {world : World sig Request Result Store}
    (run : Run handler exec init trace world)
    (free : ∃ data, part.state init = RwLock.new data)
    (kept : ∀ request, part.disciplined.Holds [] (handler request)) :
    Exclusion (fun task => part.phase (past task trace)) (part.state world.store) := by
  refine run.invariant (fun trace store =>
    Exclusion (fun task => part.phase (past task trace)) (part.state store)) ?_ ?_
  · obtain ⟨data, same⟩ := free
    rw [same]
    exact .new data
  · rintro front event ⟨middle, reached⟩ executed exclusion
    have allowed := reached.outline_atLast kept event.response
    cases found : part.record? ⟨event.call, event.response⟩ with
    | none =>
        rw [part.rests _ _ _ _ executed found]
        convert exclusion using 2 with task
        by_cases own : event.task = task
        · subst own
          rw [past_concat_self]
          exact part.phase_concat_other found _
        · rw [past_concat_of_ne front own]
    | some own =>
        rw [found] at allowed
        have stepped := exclusion.step allowed (part.acts _ _ _ _ own executed found)
        convert stepped using 1
        funext task
        by_cases same : event.task = task
        · subst same
          rw [Function.update_self, past_concat_self]
          exact part.phase_concat_own found _
        · rw [Function.update_of_ne (Ne.symm same), past_concat_of_ne front same]

section Release

variable {handler : Request → Program sig Result} {init : Store}
  {trace : List (Event sig Request Store)} {world : World sig Request Result Store}

theorem lt_length_of_holds (run : Run handler exec init trace world) {task : Nat}
    (holds : part.phase (past task trace) ≠ .outside) : task < world.tasks.length := by
  by_contra beyond
  rw [run.past_eq_nil_of_length_le (Nat.le_of_not_lt beyond)] at holds
  exact holds rfl

/-- Whoever holds the lock is at a call of the lock that is admitted. -/
theorem at_lock (run : Run handler exec init trace world)
    (free : ∃ data, part.state init = RwLock.new data)
    (kept : ∀ request, part.disciplined.Holds [] (handler request))
    (answered : ∀ c, Nonempty (sig.Response c)) {task : Nat} {request : Request}
    {program : Program sig Result} (present : world.tasks[task]? = some ⟨request, program⟩)
    (holds : part.phase (past task trace) ≠ .outside) :
    ∃ c next answer own, program = .call c next ∧ part.record? ⟨c, answer⟩ = some own ∧
      ∃ reply after, RwLock.exec own.1 (part.state world.store) reply after := by
  have outline := run.outline_holds kept present
  cases program with
  | done result => exact absurd outline holds
  | call c next =>
      obtain ⟨answer⟩ := answered c
      have allowed := outline.1 answer
      cases found : part.record? ⟨c, answer⟩ with
      | none =>
          rw [found] at allowed
          exact absurd allowed holds
      | some own =>
          rw [found] at allowed
          exact ⟨c, next, answer, own, rfl, found, (part.exclusion run free kept).enabled holds allowed⟩

/-- Calls of the lock wait for the lock only. -/
def WaitsForLock : Prop :=
  ∀ c store answer own, part.record? ⟨c, answer⟩ = some own →
    (∃ reply after, RwLock.exec own.1 (part.state store) reply after) →
    ∃ answer after own, exec c store answer after ∧ part.record? ⟨c, answer⟩ = some own

/-- A task gives the lock back on its own. -/
theorem release (able : part.WaitsForLock) (run : Run handler exec init trace world)
    (free : ∃ data, part.state init = RwLock.new data)
    (kept : ∀ request, part.disciplined.Holds [] (handler request))
    (answered : ∀ c, Nonempty (sig.Response c)) {task : Nat} {request : Request}
    {program : Program sig Result} (present : world.tasks[task]? = some ⟨request, program⟩) :
    ∃ later after, Run handler exec init (trace ++ later) after ∧
      part.phase (past task (trace ++ later)) = .outside ∧
      ∀ event ∈ later, event.task = task ∧ (part.record? event.record).isSome = true := by
  induction program generalizing trace world with
  | done result =>
      refine ⟨[], world, by rwa [List.append_nil], ?_, by simp⟩
      rw [List.append_nil]
      exact run.outline_holds kept present
  | call c next inductionHypothesis =>
      by_cases holds : part.phase (past task trace) = .outside
      · exact ⟨[], world, by rwa [List.append_nil], by rwa [List.append_nil], by simp⟩
      · obtain ⟨c, next, answer, own, same, found, enabled⟩ :=
          part.at_lock run free kept answered present holds
        cases same
        obtain ⟨answer, after, own, executed, found⟩ := able c world.store answer own found enabled
        have inside := (List.getElem?_eq_some_iff.mp present).1
        obtain ⟨later, ended, released, outside, own⟩ :=
          inductionHypothesis answer (.step run present executed) (by simp [inside])
        rw [List.append_assoc] at released outside
        refine ⟨_, ended, released, outside, fun event membership => ?_⟩
        rcases List.mem_append.mp membership with first | rest
        · rw [List.mem_singleton.mp first]
          exact ⟨rfl, by rw [Event.record, found]; rfl⟩
        · exact own event rest

/-- From every state that disciplined programs reach, those who hold the lock
can give it back, by calls of the lock alone. -/
theorem release_all (able : part.WaitsForLock) (run : Run handler exec init trace world)
    (free : ∃ data, part.state init = RwLock.new data)
    (kept : ∀ request, part.disciplined.Holds [] (handler request))
    (answered : ∀ c, Nonempty (sig.Response c)) :
    ∃ later after, Run handler exec init (trace ++ later) after ∧
      (∀ task, part.phase (past task (trace ++ later)) = .outside) ∧
      ∀ event ∈ later, part.phase (past event.task trace) ≠ .outside ∧
        (part.record? event.record).isSome = true := by
  suffices general : ∀ (holders : Finset Nat) trace world, Run handler exec init trace world →
      (∀ task, part.phase (past task trace) ≠ .outside → task ∈ holders) →
      ∃ later after, Run handler exec init (trace ++ later) after ∧
        (∀ task, part.phase (past task (trace ++ later)) = .outside) ∧
        ∀ event ∈ later, part.phase (past event.task trace) ≠ .outside ∧
          (part.record? event.record).isSome = true by
    exact general (Finset.range world.tasks.length) trace world run fun task holds =>
      Finset.mem_range.mpr (part.lt_length_of_holds run holds)
  intro holders
  induction holders using Finset.induction with
  | empty =>
      intro trace world run only
      refine ⟨[], world, by rwa [List.append_nil], fun task => ?_, by simp⟩
      rw [List.append_nil]
      exact not_not.mp fun holds => absurd (only task holds) (Finset.notMem_empty task)
  | insert holder rest fresh inductionHypothesis =>
      intro trace world run only
      by_cases holds : part.phase (past holder trace) = .outside
      · refine inductionHypothesis trace world run fun task inside => ?_
        rcases Finset.mem_insert.mp (only task inside) with same | member
        · rw [same, holds] at inside
          exact absurd rfl inside
        · exact member
      · obtain ⟨front, middle, released, outside, own⟩ := part.release able run free kept answered
          (List.getElem?_eq_getElem (part.lt_length_of_holds run holds))
        have others : ∀ task, task ≠ holder → past task (trace ++ front) = past task trace :=
          fun task other => past_append_of_ne trace fun event membership => by
            rw [(own event membership).1]
            exact Ne.symm other
        obtain ⟨later, after, ended, free, allowed⟩ :=
          inductionHypothesis (trace ++ front) middle released fun task inside => by
            by_cases same : task = holder
            · rw [same, outside] at inside
              exact absurd rfl inside
            · rw [others task same] at inside
              exact (Finset.mem_insert.mp (only task inside)).resolve_left same
        rw [List.append_assoc] at ended free
        refine ⟨front ++ later, after, ended, free, fun event membership => ?_⟩
        rcases List.mem_append.mp membership with first | last
        · rw [(own event first).1]
          exact ⟨holds, (own event first).2⟩
        · obtain ⟨inside, call⟩ := allowed event last
          by_cases same : event.task = holder
          · rw [same, outside] at inside
            exact absurd rfl inside
          · rw [others _ same] at inside
            exact ⟨inside, call⟩

end Release

end Component

end Concurrent
