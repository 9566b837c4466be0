import MevRelay.Concurrent.Serial
import Mathlib.Data.Finmap

/-!
# Maps written entry by entry

A map in the store that calls change one entry at a time holds, under each
key, the value of the last write to that key, and what it held at the start
where there was none.  Maps are compared entry by entry.
-/

namespace Concurrent

abbrev HashMap (Key Value : Type) := Finmap fun _ : Key => Value

variable {Key Value : Type} [DecidableEq Key]

/-- The value written last under a key. -/
def lastWrite (key : Key) (writes : List (Key × Value)) : Option Value :=
  (writes.filter fun write => write.1 = key).getLast?.map Prod.snd

def replay (map : HashMap Key Value) (writes : List (Key × Value)) : HashMap Key Value :=
  writes.foldl (fun map write => map.insert write.1 write.2) map

@[simp]
theorem lastWrite_nil (key : Key) : lastWrite key ([] : List (Key × Value)) = none := rfl

@[simp]
theorem lastWrite_concat_self (key : Key) (value : Value) (writes : List (Key × Value)) :
    lastWrite key (writes ++ [(key, value)]) = some value := by
  simp [lastWrite]

theorem lastWrite_concat_of_ne {key : Key} (writes : List (Key × Value)) {write : Key × Value}
    (other : write.1 ≠ key) : lastWrite key (writes ++ [write]) = lastWrite key writes := by
  simp [lastWrite, other]

theorem lastWrite_eq_none_iff {key : Key} {writes : List (Key × Value)} :
    lastWrite key writes = none ↔ ∀ write ∈ writes, write.1 ≠ key := by
  simp [lastWrite]

theorem mem_of_lastWrite {key : Key} {value : Value} {writes : List (Key × Value)}
    (last : lastWrite key writes = some value) : (key, value) ∈ writes := by
  simp only [lastWrite, Option.map_eq_some_iff] at last
  obtain ⟨⟨found, _⟩, isLast, rfl⟩ := last
  have membership := List.mem_of_getLast? isLast
  simp only [List.mem_filter, decide_eq_true_eq] at membership
  obtain ⟨membership, rfl⟩ := membership
  exact membership

theorem lastWrite_split {key : Key} {value : Value} {writes : List (Key × Value)}
    (last : lastWrite key writes = some value) :
    ∃ front later, writes = front ++ (key, value) :: later ∧ ∀ write ∈ later, write.1 ≠ key := by
  induction writes using List.reverseRecOn with
  | nil => simp at last
  | append_singleton front write inductionHypothesis =>
      by_cases same : write.1 = key
      · obtain ⟨found, stored⟩ := write
        subst same
        simp only [lastWrite_concat_self, Option.some.injEq] at last
        subst last
        exact ⟨front, [], rfl, by simp⟩
      · rw [lastWrite_concat_of_ne front same] at last
        obtain ⟨before, between, rfl, others⟩ := inductionHypothesis last
        refine ⟨before, between ++ [write], by simp, ?_⟩
        intro later membership
        rcases List.mem_append.mp membership with earlier | final
        · exact others later earlier
        · rw [List.mem_singleton] at final
          subst final
          exact same

@[simp]
theorem replay_nil (map : HashMap Key Value) : replay map [] = map := rfl

theorem replay_concat (map : HashMap Key Value) (writes : List (Key × Value))
    (write : Key × Value) :
    replay map (writes ++ [write]) = (replay map writes).insert write.1 write.2 := by
  simp [replay]

theorem lookup_replay (map : HashMap Key Value) (writes : List (Key × Value)) (key : Key) :
    (replay map writes).lookup key = (lastWrite key writes).or (map.lookup key) := by
  induction writes using List.reverseRecOn with
  | nil => simp
  | append_singleton front write inductionHypothesis =>
      rw [replay_concat]
      by_cases same : write.1 = key
      · obtain ⟨found, stored⟩ := write
        subst same
        simp
      · rw [Finmap.lookup_insert_of_ne _ (Ne.symm same), lastWrite_concat_of_ne front same,
          inductionHypothesis]

/-- Maps with the same keys whose values are related. -/
def SameEntries (same : Value → Value → Prop) (first second : HashMap Key Value) : Prop :=
  ∀ key, Option.Rel same (first.lookup key) (second.lookup key)

theorem SameEntries.refl {same : Value → Value → Prop} (reflexive : ∀ value, same value value)
    (map : HashMap Key Value) : SameEntries same map map := by
  intro key
  cases map.lookup key with
  | none => exact .none
  | some value => exact .some (reflexive value)

theorem SameEntries.insert {same : Value → Value → Prop} {first second : HashMap Key Value}
    (entries : SameEntries same first second) (key : Key) {firstValue secondValue : Value}
    (values : same firstValue secondValue) :
    SameEntries same (first.insert key firstValue) (second.insert key secondValue) := by
  intro other
  by_cases own : other = key
  · subst own
    rw [Finmap.lookup_insert, Finmap.lookup_insert]
    exact .some values
  · rw [Finmap.lookup_insert_of_ne _ own, Finmap.lookup_insert_of_ne _ own]
    exact entries other

section Runs

variable {sig : Signature} {Request Result Store : Type}
  {handler : Request → Program sig Result} {exec : Semantics sig Store} {init : Store}
  {view : Store → HashMap Key Value} {write? : Record sig → Option (Key × Value)}

/-- A map in the store to which a call writes at most one entry. -/
def WrittenBy (exec : Semantics sig Store) (view : Store → HashMap Key Value)
    (write? : Record sig → Option (Key × Value)) : Prop :=
  ∀ c store answer after, exec c store answer after →
    view after = replay (view store) (write? ⟨c, answer⟩).toList

def writesOf (write? : Record sig → Option (Key × Value))
    (trace : List (Event sig Request Store)) : List (Key × Value) :=
  trace.filterMap fun event => write? event.record

omit [DecidableEq Key] in
theorem writesOf_append (first second : List (Event sig Request Store)) :
    writesOf write? (first ++ second) = writesOf write? first ++ writesOf write? second := by
  simp [writesOf]

omit [DecidableEq Key] in
theorem mem_writesOf {trace : List (Event sig Request Store)} {write : Key × Value} :
    write ∈ writesOf write? trace ↔ ∃ event ∈ trace, write? event.record = some write := by
  simp [writesOf]

/-- The last write to a key is an event of the trace, and no later event writes to it. -/
theorem lastWrite_event {trace : List (Event sig Request Store)} {key : Key} {value : Value}
    (last : lastWrite key (writesOf write? trace) = some value) :
    ∃ front event later, trace = front ++ event :: later ∧
      write? event.record = some (key, value) ∧
      ∀ other ∈ later, ∀ write, write? other.record = some write → write.1 ≠ key := by
  obtain ⟨first, second, split, others⟩ := lastWrite_split last
  obtain ⟨front, rest, rfl, _, rest_split⟩ := List.filterMap_eq_append_iff.mp split
  obtain ⟨between, event, later, rfl, _, write, second_eq⟩ := List.filterMap_eq_cons_iff.mp rest_split
  refine ⟨front ++ between, event, later, by simp, write, ?_⟩
  intro other membership found writes
  apply others found
  rw [← second_eq]
  exact mem_writesOf.mpr ⟨other, membership, writes⟩

theorem Run.view_eq_replay {trace : List (Event sig Request Store)}
    {world : World sig Request Result Store} (written : WrittenBy exec view write?)
    (run : Run handler exec init trace world) :
    view world.store = replay (view init) (writesOf write? trace) := by
  refine run.invariant (fun trace store =>
    view store = replay (view init) (writesOf write? trace)) rfl ?_
  intro front event _ executed held
  rw [written _ _ _ _ executed, held, writesOf_append]
  simp only [replay, ← List.foldl_append]
  cases found : write? event.record <;> simp_all [writesOf, Event.record]

/-- What is found in a map that was empty at the start was the last write to its key. -/
theorem Run.lastWrite_of_lookup {trace : List (Event sig Request Store)}
    {world : World sig Request Result Store} (written : WrittenBy exec view write?)
    (run : Run handler exec init trace world) (empty : view init = ∅) (key : Key) :
    (view world.store).lookup key = lastWrite key (writesOf write? trace) := by
  rw [run.view_eq_replay written, lookup_replay, empty, Finmap.lookup_empty, Option.or_none]

theorem Run.event_of_lookup {trace : List (Event sig Request Store)}
    {world : World sig Request Result Store} (written : WrittenBy exec view write?)
    (run : Run handler exec init trace world) (empty : view init = ∅) {key : Key} {value : Value}
    (found : (view world.store).lookup key = some value) :
    ∃ event ∈ trace, write? event.record = some (key, value) := by
  rw [run.lastWrite_of_lookup written empty] at found
  exact mem_writesOf.mp (mem_of_lastWrite found)

theorem Exec.view_eq_replay {program : Program sig Result} {store after : Store}
    {calls : List (Record sig)} {result : Result} (written : WrittenBy exec view write?)
    (executed : Exec exec program store calls result after) :
    view after = replay (view store) (calls.filterMap write?) := by
  induction executed with
  | done => rfl
  | @call c next store answer middle calls result after first rest inductionHypothesis =>
      rw [inductionHypothesis, written _ _ _ _ first]
      simp only [replay, ← List.foldl_append]
      cases write : write? ⟨c, answer⟩ <;> simp [write]

/-- An execution none of whose calls write to a map leaves it as it was. -/
theorem Exec.view_of_unwritten {program : Program sig Result} {store after : Store}
    {calls : List (Record sig)} {result : Result} (written : WrittenBy exec view write?)
    (executed : Exec exec program store calls result after)
    (unwritten : ∀ record ∈ calls, ∀ write, write? record ≠ some write) :
    view after = view store := by
  have none_written : calls.filterMap write? = [] := by
    apply List.filterMap_eq_nil_iff.mpr
    intro record membership
    exact Option.eq_none_iff_forall_ne_some.mpr (unwritten record membership)
  rw [executed.view_eq_replay written, none_written]
  rfl

end Runs

section Components

variable {Value : Type} {sig : Signature} {Request Result Store : Type}
  {handler : Request → Program sig Result} {exec : Semantics sig Store} {init : Store}
  {view : Store → Value} {set? : Record sig → Option Value}

/-- A component of the store that a call replaces as a whole or leaves alone. -/
def SetBy (exec : Semantics sig Store) (view : Store → Value)
    (set? : Record sig → Option Value) : Prop :=
  ∀ c store answer after, exec c store answer after →
    view after = (set? ⟨c, answer⟩).getD (view store)

/-- Over events that do not replace it such a component stays as it is. -/
theorem Run.view_over_unset {front later : List (Event sig Request Store)}
    {world : World sig Request Result Store} (replaced : SetBy exec view set?)
    (run : Run handler exec init (front ++ later) world)
    (never : ∀ other ∈ later, set? other.record = none) :
    view (storeAfter init (front ++ later)) = view (storeAfter init front) := by
  induction later using List.reverseRecOn generalizing world with
  | nil => rw [List.append_nil]
  | append_singleton later event inductionHypothesis =>
      rw [← List.append_assoc] at run ⊢
      obtain ⟨executed, before⟩ := run.event_at (front ++ later) event [] rfl
      obtain ⟨middle, shorter⟩ := run.prefix_run rfl
      have kept : view event.after = (set? event.record).getD (view event.before) :=
        replaced _ _ _ _ executed
      rw [storeAfter_concat, kept, never event (by simp), Option.getD_none, before]
      exact inductionHypothesis shorter fun other membership =>
        never other (List.mem_append_left _ membership)

/-- Either no event of a trace replaces the component, or there is a last one that does. -/
theorem split_at_last_set (set? : Record sig → Option Value)
    (trace : List (Event sig Request Store)) :
    (∀ event ∈ trace, set? event.record = none) ∨
      ∃ front event later value, trace = front ++ event :: later ∧
        set? event.record = some value ∧ ∀ other ∈ later, set? other.record = none := by
  induction trace using List.reverseRecOn with
  | nil => exact .inl (by simp)
  | append_singleton trace last inductionHypothesis =>
      cases sets : set? last.record with
      | some value => exact .inr ⟨trace, last, [], value, rfl, sets, by simp⟩
      | none =>
          have concat : ∀ {events : List (Event sig Request Store)},
              (∀ other ∈ events, set? other.record = none) →
              ∀ other ∈ events ++ [last], set? other.record = none := by
            intro events never other membership
            rcases List.mem_append.mp membership with earlier | final
            · exact never other earlier
            · rw [List.mem_singleton.mp final]
              exact sets
          rcases inductionHypothesis with never | ⟨front, event, later, value, rfl, set, never⟩
          · exact .inl (concat never)
          · exact .inr ⟨front, event, later ++ [last], value, by simp, set, concat never⟩

theorem Run.view_of_last_set {front later : List (Event sig Request Store)}
    {event : Event sig Request Store} {world : World sig Request Result Store}
    (replaced : SetBy exec view set?)
    (run : Run handler exec init (front ++ event :: later) world) {value : Value}
    (set : set? event.record = some value) (never : ∀ other ∈ later, set? other.record = none) :
    view world.store = value := by
  have written : view event.after = (set? event.record).getD (view event.before) :=
    replaced _ _ _ _ (run.event_at front event later rfl).1
  rw [List.append_cons] at run
  rw [run.store_eq, run.view_over_unset replaced never, storeAfter_concat, written, set]
  rfl

/-- Such a component is as it was at the start, or as the last event to replace it left it. -/
theorem Run.last_set {trace : List (Event sig Request Store)}
    {world : World sig Request Result Store} (replaced : SetBy exec view set?)
    (run : Run handler exec init trace world) :
    (view world.store = view init ∧ ∀ event ∈ trace, set? event.record = none) ∨
      ∃ front event later, trace = front ++ event :: later ∧
        set? event.record = some (view world.store) ∧ ∀ other ∈ later, set? other.record = none := by
  rcases split_at_last_set set? trace with never | ⟨front, event, later, value, rfl, set, never⟩
  · have kept : view (storeAfter init ([] ++ trace)) = view (storeAfter init []) :=
      Run.view_over_unset replaced run never
    rw [List.nil_append, ← run.store_eq, storeAfter_nil] at kept
    exact .inl ⟨kept, never⟩
  · rw [run.view_of_last_set replaced set never]
    exact .inr ⟨front, event, later, rfl, set, never⟩

end Components

end Concurrent
