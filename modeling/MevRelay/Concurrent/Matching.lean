import MevRelay.Concurrent.Interleaving

/-!
# Programs that can be exchanged

A program matches another one if the other can answer each of its calls by
calls that leave the same store.  Exchanging programs for ones they match turns
runs into runs that the other tasks cannot tell from them.
-/

namespace Concurrent

variable {sig : Signature} {Request Kept Result Other Store : Type}

/-- The calls that a program makes with nothing in between. -/
inductive Advances (exec : Semantics sig Store) :
    Program sig Result → Store → List (Record sig) → Program sig Result → Store → Prop where
  | stay {program store} : Advances exec program store [] program store
  | call {c next store answer middle calls rest after} :
      exec c store answer middle →
      Advances exec (next answer) middle calls rest after →
      Advances exec (.call c next) store (⟨c, answer⟩ :: calls) rest after

namespace Advances

variable {exec : Semantics sig Store} {program middle rest : Program sig Result}
  {store between after : Store} {first second : List (Record sig)}

theorem single {c : sig.Call} {next : sig.Response c → Program sig Result}
    {answer : sig.Response c} (executed : exec c store answer after) :
    Advances exec (.call c next) store [⟨c, answer⟩] (next answer) after :=
  .call executed .stay

theorem trans (advances : Advances exec program store first middle between)
    (further : Advances exec middle between second rest after) :
    Advances exec program store (first ++ second) rest after := by
  induction advances with
  | stay => exact further
  | call executed _ inductionHypothesis => exact .call executed (inductionHypothesis further)

theorem bind (advances : Advances exec program store first middle after)
    (continuation : Result → Program sig Other) :
    Advances exec (program >>= continuation) store first (middle >>= continuation) after := by
  induction advances with
  | stay => exact .stay
  | call executed _ inductionHypothesis => exact .call executed inductionHypothesis

end Advances

section Matching

variable (exec : Semantics sig Store) (invariant : Store → Prop) (visible : Record sig → Bool)

/-- Each call of a program is answered by calls of another one that leave the
same store and show the same, in the stores that keep an invariant.  In the
end the results agree. -/
def Matches (agrees : Result → Other → Prop) : Program sig Result → Program sig Other → Prop
  | .done result, other => ∀ store, invariant store → ∃ calls outcome,
      Advances exec other store calls (.done outcome) store ∧ calls.filter visible = [] ∧
        agrees result outcome
  | .call c next, other => ∀ store answer after, invariant store → exec c store answer after →
      ∃ calls rest, Advances exec other store calls rest after ∧
        calls.filter visible = [⟨c, answer⟩].filter visible ∧
          Matches agrees (next answer) rest

namespace Matches

variable {exec invariant visible} {agrees : Result → Other → Prop} {program : Program sig Result}
  {other : Program sig Other}

theorem done {result : Result} {outcome : Other} (agree : agrees result outcome) :
    Matches exec invariant visible agrees (.done result) (.done outcome) :=
  fun _ _ => ⟨[], outcome, .stay, rfl, agree⟩

/-- Both programs make the same call. -/
theorem call {c : sig.Call} {next : sig.Response c → Program sig Result}
    {otherNext : sig.Response c → Program sig Other}
    (rest : ∀ answer, Matches exec invariant visible agrees (next answer) (otherNext answer)) :
    Matches exec invariant visible agrees (.call c next) (.call c otherNext) :=
  fun _ answer _ _ executed => ⟨[⟨c, answer⟩], otherNext answer, .single executed, rfl, rest answer⟩

/-- The other program first makes calls that change and show nothing. -/
theorem absorb (quiet : ∀ store, invariant store → ∃ calls rest,
      Advances exec other store calls rest store ∧ calls.filter visible = [] ∧
        Matches exec invariant visible agrees program rest) :
    Matches exec invariant visible agrees program other := by
  cases program with
  | done result =>
      intro store holds
      obtain ⟨calls, rest, advances, hidden, matched⟩ := quiet store holds
      obtain ⟨further, outcome, ended, still, agree⟩ := matched store holds
      refine ⟨calls ++ further, outcome, advances.trans ended, ?_, agree⟩
      rw [List.filter_append, hidden, still, List.append_nil]
  | call c next =>
      intro store answer after holds executed
      obtain ⟨calls, rest, advances, hidden, matched⟩ := quiet store holds
      obtain ⟨further, last, answered, same, remaining⟩ := matched store answer after holds executed
      refine ⟨calls ++ further, last, advances.trans answered, ?_, remaining⟩
      rw [List.filter_append, hidden, same, List.nil_append]

/-- The program makes a call that changes and shows nothing. -/
theorem skip {c : sig.Call} {next : sig.Response c → Program sig Result}
    (quiet : ∀ store answer after, invariant store → exec c store answer after →
      after = store ∧ visible ⟨c, answer⟩ = false ∧
        Matches exec invariant visible agrees (next answer) other) :
    Matches exec invariant visible agrees (.call c next) other := by
  intro store answer after holds executed
  obtain ⟨rfl, hidden, matched⟩ := quiet store answer after holds executed
  exact ⟨[], other, .stay, (List.filter_cons_of_neg (by simp [hidden])).symm, matched⟩

/-- A program matches itself. -/
theorem self {agrees : Result → Result → Prop} (agree : ∀ result, agrees result result)
    (program : Program sig Result) :
    Matches exec invariant visible agrees program program := by
  induction program with
  | done result => exact done (agree result)
  | call c next inductionHypothesis => exact call inductionHypothesis

/-- A program whose results are renamed matches the program itself. -/
theorem renamed {Value : Type} {agrees : Value → Result → Prop} {rename : Result → Value}
    (agree : ∀ result, agrees (rename result) result) (program : Program sig Result) :
    Matches exec invariant visible agrees (rename <$> program) program := by
  induction program with
  | done result => exact done (agree result)
  | call c next inductionHypothesis => exact call inductionHypothesis

theorem renames {Value : Type} {agrees : Result → Value → Prop} {rename : Result → Value}
    (agree : ∀ result, agrees result (rename result)) (program : Program sig Result) :
    Matches exec invariant visible agrees program (rename <$> program) := by
  induction program with
  | done result => exact done (agree result)
  | call c next inductionHypothesis => exact call inductionHypothesis

/-- Matching programs are continued by matching ones. -/
theorem bind {Last Final : Type} {ends : Last → Final → Prop} {next : Result → Program sig Last}
    {otherNext : Other → Program sig Final}
    (matched : Matches exec invariant visible agrees program other)
    (rest : ∀ result outcome, agrees result outcome →
      Matches exec invariant visible ends (next result) (otherNext outcome)) :
    Matches exec invariant visible ends (program >>= next) (other >>= otherNext) := by
  induction program generalizing other with
  | done result =>
      apply absorb
      intro store holds
      obtain ⟨calls, outcome, ended, hidden, agree⟩ := matched store holds
      exact ⟨calls, otherNext outcome, ended.bind otherNext, hidden, rest result outcome agree⟩
  | call c continuation inductionHypothesis =>
      intro store answer after holds executed
      obtain ⟨calls, last, advances, same, remaining⟩ := matched store answer after holds executed
      exact ⟨calls, last >>= otherNext, advances.bind otherNext, same,
        inductionHypothesis answer remaining⟩

theorem map {Last Final : Type} {ends : Last → Final → Prop} {first : Result → Last}
    {second : Other → Final} (matched : Matches exec invariant visible agrees program other)
    (agree : ∀ result outcome, agrees result outcome → ends (first result) (second outcome)) :
    Matches exec invariant visible ends (first <$> program) (second <$> other) :=
  matched.bind fun result outcome known => .done (agree result outcome known)

end Matches

/-- A program matches another one, which has ended if the first has. -/
structure Settled (agrees : Result → Other → Prop) (program : Program sig Result)
    (other : Program sig Other) : Prop where
  matched : Matches exec invariant visible agrees program other
  ended : ∀ result, program = .done result → ∃ outcome, other = .done outcome ∧
    agrees result outcome

/-- The tasks of a world stand for those of another one with the same store. -/
structure Exchanged (agrees : Request → Kept → Result → Other → Prop)
    (rename : Nat → Request → Kept) (world : World sig Request Result Store) (other : World sig Kept Other Store) : Prop where
  store : other.store = world.store
  length : other.tasks.length = world.tasks.length
  tasks : ∀ (task : Nat) request program, world.tasks[task]? = some ⟨request, program⟩ →
    ∃ rest, other.tasks[task]? = some ⟨rename task request, rest⟩ ∧
      Settled exec invariant visible (agrees request (rename task request)) program rest

/-- The calls of a trace that are visible, with the tasks that made them. -/
def shown (trace : List (Event sig Request Store)) : List (Nat × Record sig) :=
  (trace.map fun event => (event.task, event.record)).filter fun entry => visible entry.2

end Matching

section Exchange

variable {exec : Semantics sig Store} {invariant : Store → Prop} {visible : Record sig → Bool}
  {handler : Request → Program sig Result} {init : Store}
  {trace : List (Event sig Request Store)} {world : World sig Request Result Store}

/-- The other program can end as soon as the first one has. -/
theorem Matches.settle {agrees : Result → Other → Prop} {program : Program sig Result}
    {other : Program sig Other} {store : Store}
    (matched : Matches exec invariant visible agrees program other) (holds : invariant store) :
    ∃ calls rest, Advances exec other store calls rest store ∧ calls.filter visible = [] ∧
      Settled exec invariant visible agrees program rest := by
  cases program with
  | done result =>
      obtain ⟨calls, outcome, ended, hidden, agree⟩ := matched store holds
      refine ⟨calls, .done outcome, ended, hidden, .done agree, fun other same => ?_⟩
      cases same
      exact ⟨outcome, rfl, agree⟩
  | call c next => exact ⟨[], other, .stay, rfl, matched, fun _ same => by cases same⟩

/-- A task makes calls with nothing in between. -/
theorem Run.advance (run : Run handler exec init trace world) {task : Nat} {request : Request}
    {program rest : Program sig Result} {calls : List (Record sig)} {after : Store}
    (found : world.tasks[task]? = some ⟨request, program⟩)
    (advances : Advances exec program world.store calls rest after) :
    ∃ events, Run handler exec init (trace ++ events)
        ⟨after, world.tasks.set task ⟨request, rest⟩⟩ ∧
      events.map (fun event => (event.task, event.record)) = calls.map fun record => (task, record) := by
  generalize started : world.store = store at advances
  induction advances generalizing trace world with
  | stay =>
      obtain ⟨inside, same⟩ := List.getElem?_eq_some_iff.mp found
      refine ⟨[], ?_, rfl⟩
      rw [List.append_nil, ← same, List.set_getElem_self, ← started]
      exact run
  | @call c next store answer middle calls rest after executed further inductionHypothesis =>
      subst started
      have inside := (List.getElem?_eq_some_iff.mp found).1
      have stepped := run.step found executed
      obtain ⟨events, later, records⟩ :=
        inductionHypothesis stepped (List.getElem?_set_self inside) rfl
      rw [List.set_set, List.append_assoc] at later
      exact ⟨_, later, congrArg (_ :: ·) records⟩

theorem shown_append (front later : List (Event sig Request Store)) :
    shown visible (front ++ later) = shown visible front ++ shown visible later := by
  rw [shown, List.map_append, List.filter_append]
  rfl

/-- What the calls of one task show. -/
theorem shown_of_calls {events : List (Event sig Request Store)} {task : Nat}
    {calls : List (Record sig)}
    (records : events.map (fun event => (event.task, event.record)) =
      calls.map fun record => (task, record)) :
    shown visible events = (calls.filter visible).map fun record => (task, record) := by
  rw [shown, records, List.filter_map]
  rfl

namespace Exchanged

variable {agrees : Request → Kept → Result → Other → Prop} {rename : Nat → Request → Kept}
  {other : World sig Kept Other Store}

theorem arrive (exchanged : Exchanged exec invariant visible agrees rename world other)
    {request : Request} {program : Program sig Result} {rest : Program sig Other}
    (settled : Settled exec invariant visible
      (agrees request (rename world.tasks.length request)) program rest) :
    Exchanged exec invariant visible agrees rename
      { world with tasks := world.tasks ++ [⟨request, program⟩] }
      { other with tasks := other.tasks ++ [⟨rename world.tasks.length request, rest⟩] } where
  store := exchanged.store
  length := by simp [exchanged.length]
  tasks task asked running found := by
    by_cases inside : task < world.tasks.length
    · rw [List.getElem?_append_left inside] at found
      rw [List.getElem?_append_left (by rw [exchanged.length]; exact inside)]
      exact exchanged.tasks task asked running found
    · have last : task = world.tasks.length := by
        have bound := (List.getElem?_eq_some_iff.mp found).1
        simp only [List.length_append, List.length_singleton] at bound
        omega
      subst last
      rw [List.getElem?_concat_length] at found
      cases found
      refine ⟨rest, ?_, settled⟩
      rw [← exchanged.length, List.getElem?_concat_length]

theorem step (exchanged : Exchanged exec invariant visible agrees rename world other) {task : Nat}
    {request : Request} {program : Program sig Result} {rest : Program sig Other} {after : Store}
    (inside : task < world.tasks.length)
    (settled : Settled exec invariant visible (agrees request (rename task request)) program rest) :
    Exchanged exec invariant visible agrees rename
      ⟨after, world.tasks.set task ⟨request, program⟩⟩
      ⟨after, other.tasks.set task ⟨rename task request, rest⟩⟩ where
  store := rfl
  length := by simp [exchanged.length]
  tasks acting asked running found := by
    by_cases own : task = acting
    · subst own
      rw [List.getElem?_set_self inside] at found
      cases found
      rw [List.getElem?_set_self (by rw [exchanged.length]; exact inside)]
      exact ⟨rest, rfl, settled⟩
    · rw [List.getElem?_set_ne own] at found
      rw [List.getElem?_set_ne own]
      exact exchanged.tasks acting asked running found

end Exchanged

/-- If the programs of requests match those of other requests, then every run
is one of the other requests: in it the same is shown by the same tasks, and
results agree. -/
theorem Run.exchange {agrees : Request → Kept → Result → Other → Prop}
    {rename : Nat → Request → Kept} {otherHandler : Kept → Program sig Other}
    (run : Run handler exec init trace world)
    (matched : ∀ task request, Matches exec invariant visible (agrees request (rename task request))
      (handler request) (otherHandler (rename task request)))
    (initial : invariant init)
    (kept : ∀ c store answer after, exec c store answer after → invariant store →
      invariant after) :
    ∃ otherTrace other, Run otherHandler exec init otherTrace other ∧
      Exchanged exec invariant visible agrees rename world other ∧
        shown visible otherTrace = shown visible trace := by
  suffices general : invariant world.store ∧ ∃ otherTrace other,
      Run otherHandler exec init otherTrace other ∧
        Exchanged exec invariant visible agrees rename world other ∧
          shown visible otherTrace = shown visible trace from general.2
  induction run with
  | start => exact ⟨initial, [], ⟨init, []⟩, .start, ⟨rfl, rfl, by simp⟩, rfl⟩
  | @arrive trace world request run inductionHypothesis =>
      obtain ⟨holds, otherTrace, other, otherRun, exchanged, same⟩ := inductionHypothesis
      refine ⟨holds, ?_⟩
      obtain ⟨calls, rest, advances, hidden, settled⟩ :=
        (matched world.tasks.length request).settle holds
      rw [← exchanged.store] at advances
      obtain ⟨events, further, records⟩ := (otherRun.arrive (rename _ request)).advance
        (List.getElem?_concat_length) advances
      rw [List.set_append_right _ _ (Nat.le_refl _), Nat.sub_self, List.set_cons_zero] at further
      refine ⟨_, _, further, ?_, ?_⟩
      · have arrived := exchanged.arrive settled
        exact arrived
      · rw [shown_append, shown_of_calls records, hidden, same]
        exact List.append_nil _
  | @step trace world task request c next answer after run present executed inductionHypothesis =>
      obtain ⟨holds, otherTrace, other, otherRun, exchanged, same⟩ := inductionHypothesis
      have inside := (List.getElem?_eq_some_iff.mp present).1
      have holdsAfter := kept c world.store answer after executed holds
      refine ⟨holdsAfter, ?_⟩
      obtain ⟨program, found, settled⟩ := exchanged.tasks task request _ present
      obtain ⟨calls, middle, advances, shows, remaining⟩ :=
        settled.matched world.store answer after holds executed
      obtain ⟨quiet, rest, further, hidden, ended⟩ := remaining.settle holdsAfter
      have whole := advances.trans further
      rw [← exchanged.store] at whole
      obtain ⟨events, later, records⟩ := otherRun.advance found whole
      refine ⟨_, _, later, exchanged.step inside ended, ?_⟩
      rw [shown_append, shown_append, shown_of_calls records, List.filter_append, hidden, shows,
        same, List.append_nil]
      congr 1
      exact (shown_of_calls rfl).symm

end Exchange

end Concurrent
