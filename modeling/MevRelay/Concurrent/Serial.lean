import MevRelay.Concurrent.Interleaving

/-!
# Runs with atomic handlers

A serial run lets each request run to its end before the next one starts.
Serial runs are interleaved runs, so whatever holds of every interleaving
holds of them.
-/

namespace Concurrent

variable {sig : Signature} {Request Result Store : Type}

/-- A program run to its end with nothing in between. -/
inductive Exec (exec : Semantics sig Store) :
    Program sig Result → Store → List (Record sig) → Result → Store → Prop where
  | done {result store} : Exec exec (.done result) store [] result store
  | call {c next store answer middle calls result after} :
      exec c store answer middle →
      Exec exec (next answer) middle calls result after →
      Exec exec (.call c next) store (⟨c, answer⟩ :: calls) result after

structure Completed (sig : Signature) (Request Result Store : Type) where
  request : Request
  before : Store
  calls : List (Record sig)
  result : Result
  after : Store

/-- Runs in which the handlers are atomic. -/
inductive Serial (handler : Request → Program sig Result) (exec : Semantics sig Store)
    (init : Store) : List (Completed sig Request Result Store) → Store → Prop where
  | start : Serial handler exec init [] init
  | finish {history store request calls result after} :
      Serial handler exec init history store →
      Exec exec (handler request) store calls result after →
      Serial handler exec init (history ++ [⟨request, store, calls, result, after⟩]) after

variable {handler : Request → Program sig Result} {exec : Semantics sig Store} {init : Store}

@[simp]
theorem exec_done_iff {result outcome : Result} {store after : Store} {calls : List (Record sig)} :
    Exec exec (.done result) store calls outcome after ↔
      calls = [] ∧ outcome = result ∧ after = store := by
  constructor
  · intro executed
    cases executed
    exact ⟨rfl, rfl, rfl⟩
  · rintro ⟨rfl, rfl, rfl⟩
    exact .done

@[simp]
theorem exec_call_iff {c : sig.Call} {next : sig.Response c → Program sig Result} {result : Result}
    {store after : Store} {calls : List (Record sig)} :
    Exec exec (.call c next) store calls result after ↔
      ∃ answer middle later, exec c store answer middle ∧ calls = ⟨c, answer⟩ :: later ∧
        Exec exec (next answer) middle later result after := by
  constructor
  · intro executed
    cases executed with
    | call first rest => exact ⟨_, _, _, first, rfl, rest⟩
  · rintro ⟨answer, middle, later, first, rfl, rest⟩
    exact .call first rest

theorem Exec.atResult {outline : Outline sig Result} {past calls : List (Record sig)}
    {program : Program sig Result} {store after : Store} {result : Result}
    (executed : Exec exec program store calls result after)
    (kept : outline.Holds past program) : outline.atResult (past ++ calls) result := by
  induction executed generalizing past with
  | done => simpa using kept
  | @call c next store answer middle calls result after first rest inductionHypothesis =>
      have ended := inductionHypothesis (kept.2 answer)
      rwa [List.append_assoc, List.singleton_append] at ended

theorem Exec.atCall {outline : Outline sig Result} {past calls front later : List (Record sig)}
    {record : Record sig} {program : Program sig Result} {store after : Store} {result : Result}
    (executed : Exec exec program store calls result after) (kept : outline.Holds past program)
    (split : calls = front ++ record :: later) : outline.atCall (past ++ front) record.1 := by
  induction executed generalizing past front with
  | done => simp at split
  | call first rest inductionHypothesis =>
      cases front with
      | nil =>
          obtain ⟨rfl, _⟩ := List.cons.inj split
          simpa using kept.1
      | cons earlier front =>
          obtain ⟨rfl, remaining⟩ := List.cons.inj split
          have allowed := inductionHypothesis (kept.2 _) remaining
          rwa [List.append_assoc, List.singleton_append] at allowed

/-- A program run alone from a store may end with a result. -/
def Ends (exec : Semantics sig Store) (program : Program sig Result) (store : Store)
    (result : Result) : Prop :=
  ∃ calls after, Exec exec program store calls result after

@[simp]
theorem ends_done_iff {result outcome : Result} {store : Store} :
    Ends exec (.done result) store outcome ↔ outcome = result := by
  simp [Ends]

@[simp]
theorem ends_call_iff {c : sig.Call} {next : sig.Response c → Program sig Result} {result : Result}
    {store : Store} :
    Ends exec (.call c next) store result ↔
      ∃ answer after, exec c store answer after ∧ Ends exec (next answer) after result := by
  simp only [Ends, exec_call_iff]
  constructor
  · rintro ⟨_, after, answer, middle, later, first, rfl, rest⟩
    exact ⟨answer, middle, first, later, after, rest⟩
  · rintro ⟨answer, middle, first, later, after, rest⟩
    exact ⟨_, after, answer, middle, later, first, rfl, rest⟩

theorem ends_map_iff {Other : Type} {rename : Result → Other} {program : Program sig Result}
    {store : Store} {outcome : Other} :
    Ends exec (rename <$> program) store outcome ↔
      ∃ result, Ends exec program store result ∧ outcome = rename result := by
  induction program generalizing store with
  | done result => simp
  | call c next inductionHypothesis =>
      simp only [Program.map_eq_bind] at inductionHypothesis
      simp only [Program.map_eq_bind, Program.call_bind, ends_call_iff, inductionHypothesis]
      constructor
      · rintro ⟨answer, after, executed, result, ends, same⟩
        exact ⟨result, ⟨answer, after, executed, ends⟩, same⟩
      · rintro ⟨result, ⟨answer, after, executed, ends⟩, same⟩
        exact ⟨answer, after, executed, result, ends, same⟩

theorem ends_total (answers : ∀ c store, ∃ answer after, exec c store answer after)
    (program : Program sig Result) (store : Store) : ∃ result, Ends exec program store result := by
  induction program generalizing store with
  | done result => exact ⟨result, ends_done_iff.mpr rfl⟩
  | call c next inductionHypothesis =>
      obtain ⟨answer, after, executed⟩ := answers c store
      obtain ⟨result, ends⟩ := inductionHypothesis answer after
      exact ⟨result, ends_call_iff.mpr ⟨answer, after, executed, ends⟩⟩

/-- A program run alone from a store may end with a result and leave a store. -/
def Yields (exec : Semantics sig Store) (program : Program sig Result) (store : Store)
    (result : Result) (after : Store) : Prop :=
  ∃ calls, Exec exec program store calls result after

@[simp]
theorem yields_done_iff {result outcome : Result} {store after : Store} :
    Yields exec (.done result) store outcome after ↔ outcome = result ∧ after = store := by
  simp [Yields]

@[simp]
theorem yields_call_iff {c : sig.Call} {next : sig.Response c → Program sig Result} {result : Result}
    {store after : Store} :
    Yields exec (.call c next) store result after ↔
      ∃ answer middle, exec c store answer middle ∧ Yields exec (next answer) middle result after := by
  simp only [Yields, exec_call_iff]
  constructor
  · rintro ⟨_, answer, middle, later, first, rfl, rest⟩
    exact ⟨answer, middle, first, later, rest⟩
  · rintro ⟨answer, middle, first, later, rest⟩
    exact ⟨_, answer, middle, later, first, rfl, rest⟩

theorem yields_bind_iff {Other : Type} {program : Program sig Result}
    {rest : Result → Program sig Other} {store after : Store} {outcome : Other} :
    Yields exec (program >>= rest) store outcome after ↔
      ∃ result middle, Yields exec program store result middle ∧
        Yields exec (rest result) middle outcome after := by
  induction program generalizing store with
  | done result => simp
  | call c next inductionHypothesis =>
      simp only [Program.call_bind, yields_call_iff, inductionHypothesis]
      constructor
      · rintro ⟨answer, middle, executed, result, left, yields, later⟩
        exact ⟨result, left, ⟨answer, middle, executed, yields⟩, later⟩
      · rintro ⟨result, left, ⟨answer, middle, executed, yields⟩, later⟩
        exact ⟨answer, middle, executed, result, left, yields, later⟩

theorem ends_bind_iff {Other : Type} {program : Program sig Result}
    {rest : Result → Program sig Other} {store : Store} {outcome : Other} :
    Ends exec (program >>= rest) store outcome ↔
      ∃ result middle, Yields exec program store result middle ∧
        Ends exec (rest result) middle outcome := by
  have yields : ∀ (program : Program sig Other) (store : Store),
      Ends exec program store outcome ↔ ∃ after, Yields exec program store outcome after :=
    fun _ _ => exists_comm
  simp only [yields, yields_bind_iff]
  constructor
  · rintro ⟨after, result, middle, first, later⟩
    exact ⟨result, middle, first, after, later⟩
  · rintro ⟨result, middle, first, after, later⟩
    exact ⟨after, result, middle, first, later⟩

theorem yields_map_iff {Other : Type} {rename : Result → Other} {program : Program sig Result}
    {store after : Store} {outcome : Other} :
    Yields exec (rename <$> program) store outcome after ↔
      ∃ result, Yields exec program store result after ∧ outcome = rename result := by
  simp only [Program.map_eq_bind, yields_bind_iff, yields_done_iff]
  constructor
  · rintro ⟨result, middle, yields, same, rfl⟩
    exact ⟨result, yields, same⟩
  · rintro ⟨result, yields, same⟩
    exact ⟨result, after, yields, same, rfl⟩

theorem yields_total (answers : ∀ c store, ∃ answer after, exec c store answer after)
    (program : Program sig Result) (store : Store) :
    ∃ result after, Yields exec program store result after := by
  obtain ⟨result, calls, after, executed⟩ := ends_total answers program store
  exact ⟨result, after, calls, executed⟩

theorem Run.extend {trace : List (Event sig Request Store)} {world : World sig Request Result Store}
    {task : Nat} {request : Request} {program : Program sig Result} {store after : Store}
    {calls : List (Record sig)} {result : Result}
    (executed : Exec exec program store calls result after)
    (run : Run handler exec init trace world) (current : world.store = store)
    (present : world.tasks[task]? = some ⟨request, program⟩) :
    ∃ later, Run handler exec init (trace ++ later)
        ⟨after, world.tasks.set task ⟨request, .done result⟩⟩ ∧
      later.map Event.record = calls := by
  induction executed generalizing trace world with
  | done =>
      refine ⟨[], ?_, rfl⟩
      subst current
      obtain ⟨inside, same⟩ := List.getElem?_eq_some_iff.mp present
      rw [List.append_nil, ← same, List.set_getElem_self inside]
      exact run
  | @call c next store answer middle calls result after first rest inductionHypothesis =>
      subst current
      have inside := (List.getElem?_eq_some_iff.mp present).1
      obtain ⟨later, extended, records⟩ :=
        inductionHypothesis (.step run present first) rfl (List.getElem?_set_self inside)
      refine ⟨⟨task, request, c, answer, world.store, middle⟩ :: later, ?_, ?_⟩
      · simpa using extended
      · simp [records, Event.record]

namespace Serial

variable {history : List (Completed sig Request Result Store)} {store : Store}

/-- A serial run is an interleaved run in which every task has returned. -/
theorem run (serial : Serial handler exec init history store) :
    ∃ trace, Run handler exec init trace
        ⟨store, history.map fun entry => ⟨entry.request, .done entry.result⟩⟩ ∧
      trace.map Event.record = history.flatMap Completed.calls := by
  induction serial with
  | start => exact ⟨[], .start, rfl⟩
  | @finish history store request calls result after serial executed inductionHypothesis =>
      obtain ⟨trace, run, records⟩ := inductionHypothesis
      obtain ⟨later, extended, added⟩ :=
        Run.extend executed (.arrive request run) rfl List.getElem?_concat_length
      refine ⟨trace ++ later, ?_, ?_⟩
      · simpa using extended
      · simp [records, added]

theorem executed (serial : Serial handler exec init history store)
    {entry : Completed sig Request Result Store} (membership : entry ∈ history) :
    Exec exec (handler entry.request) entry.before entry.calls entry.result entry.after := by
  induction serial with
  | start => simp at membership
  | finish serial executed inductionHypothesis =>
      rcases List.mem_append.mp membership with earlier | last
      · exact inductionHypothesis earlier
      · rw [List.mem_singleton] at last
        subst last
        exact executed

theorem of_nil (serial : Serial handler exec init [] store) : store = init := by
  generalize same : ([] : List (Completed sig Request Result Store)) = whole at serial
  cases serial with
  | start => rfl
  | finish shorter executed => simp at same

theorem of_concat {front : List (Completed sig Request Result Store)}
    {entry : Completed sig Request Result Store}
    (serial : Serial handler exec init (front ++ [entry]) store) :
    Serial handler exec init front entry.before ∧ store = entry.after := by
  generalize same : front ++ [entry] = whole at serial
  cases serial with
  | start => simp at same
  | finish shorter executed =>
      obtain ⟨rfl, rest⟩ := List.append_inj' same rfl
      cases rest
      exact ⟨shorter, rfl⟩

theorem unchanged_over {View : Type} (view : Store → View)
    {front between : List (Completed sig Request Result Store)}
    (serial : Serial handler exec init (front ++ between) store)
    (kept : ∀ entry ∈ between, view entry.after = view entry.before) :
    ∃ middle, Serial handler exec init front middle ∧ view store = view middle := by
  induction between using List.reverseRecOn generalizing store with
  | nil => exact ⟨store, by simpa using serial, rfl⟩
  | append_singleton between entry inductionHypothesis =>
      rw [← List.append_assoc] at serial
      obtain ⟨shorter, rfl⟩ := serial.of_concat
      obtain ⟨middle, started, reached⟩ := inductionHypothesis shorter
        fun earlier membership => kept earlier (List.mem_append_left _ membership)
      exact ⟨middle, started, (kept entry (by simp)).trans reached⟩

theorem prefix_serial {front later : List (Completed sig Request Result Store)}
    {entry : Completed sig Request Result Store}
    (serial : Serial handler exec init history store) (split : history = front ++ entry :: later) :
    Serial handler exec init front entry.before := by
  induction serial generalizing later with
  | start => simp at split
  | finish serial executed inductionHypothesis =>
      rcases List.eq_nil_or_concat later with rfl | ⟨between, last, rfl⟩
      · obtain ⟨rfl, same⟩ := List.append_inj' split rfl
        cases same
        exact serial
      · rw [List.concat_eq_append, ← List.cons_append, ← List.append_assoc] at split
        exact inductionHypothesis (List.append_inj' split rfl).1

end Serial

end Concurrent
