import MevRelay.Concurrent.Interleaving
import Mathlib.Data.List.Forall2

/-!
# Refinement of interleaved programs

A program over fine calls follows a program over coarse ones when each of its
calls is either silent or carries out the next coarse call.  Then every
interleaving of the fine programs is, coarse call by coarse call, an
interleaving of the programs they follow.

What an answer may be is known from the run and not from the program, so a
program has to follow another on the possible answers only.
-/

namespace Concurrent

variable {low high : Signature} {Request Result Other Low High : Type}

/-- How the calls of a fine program relate to coarse calls, in terms of the
calls the program has made before. -/
structure Link (low high : Signature) where
  possible : List (Record low) → Record low → Prop
  silent : List (Record low) → Record low → Prop
  commits : List (Record low) → Record low → Record high → Prop

/-- A program that has made the calls `past` follows another from here on. -/
def Follows (link : Link low high) :
    List (Record low) → Program low Result → Program high Result → Prop
  | _, .done result, coarse => coarse = .done result
  | past, .call c next, coarse => ∀ answer, link.possible past ⟨c, answer⟩ →
      (link.silent past ⟨c, answer⟩ ∧
        Follows link (past ++ [⟨c, answer⟩]) (next answer) coarse) ∨
      ∃ call response rest, coarse = .call call rest ∧
        link.commits past ⟨c, answer⟩ ⟨call, response⟩ ∧
        Follows link (past ++ [⟨c, answer⟩]) (next answer) (rest response)

namespace Follows

variable {link : Link low high} {past : List (Record low)}

theorem done (result : Result) : Follows link past (.done result) (.done result) := rfl

/-- The next call is silent. -/
theorem quiet {c : low.Call} {next : low.Response c → Program low Result}
    {coarse : Program high Result}
    (rest : ∀ answer, link.possible past ⟨c, answer⟩ → link.silent past ⟨c, answer⟩ ∧
      Follows link (past ++ [⟨c, answer⟩]) (next answer) coarse) :
    Follows link past (.call c next) coarse :=
  fun answer possible => .inl (rest answer possible)

/-- The next call carries out the next coarse call. -/
theorem commit {c : low.Call} {next : low.Response c → Program low Result}
    {call : high.Call} {rest : high.Response call → Program high Result}
    (carries : ∀ answer, link.possible past ⟨c, answer⟩ → ∃ response,
      link.commits past ⟨c, answer⟩ ⟨call, response⟩ ∧
        Follows link (past ++ [⟨c, answer⟩]) (next answer) (rest response)) :
    Follows link past (.call c next) (.call call rest) := by
  intro answer possible
  obtain ⟨response, commits, later⟩ := carries answer possible
  exact .inr ⟨call, response, rest, rfl, commits, later⟩

/-- Sequential composition. -/
theorem bind {fine : Program low Result} {coarse : Program high Result}
    {fineRest : Result → Program low Other} {coarseRest : Result → Program high Other}
    (first : Follows link past fine coarse)
    (rest : ∀ past result, Follows link past (fineRest result) (coarseRest result)) :
    Follows link past (fine >>= fineRest) (coarse >>= coarseRest) := by
  induction fine generalizing past coarse with
  | done result =>
      rw [show coarse = .done result from first]
      exact rest past result
  | call c next inductionHypothesis =>
      intro answer possible
      rcases first answer possible with ⟨silent, later⟩ | ⟨call, response, after, rfl, commits, later⟩
      · exact .inl ⟨silent, inductionHypothesis answer later⟩
      · exact .inr ⟨call, response, _, rfl, commits, inductionHypothesis answer later⟩

end Follows

namespace Program

/-- Carry out every call of a program by a program over other calls. -/
def expand (implement : (c : high.Call) → Program low (high.Response c)) :
    Program high Result → Program low Result
  | .done result => .done result
  | .call c next => implement c >>= fun answer => (next answer).expand implement

variable {implement : (c : high.Call) → Program low (high.Response c)}

@[simp]
theorem expand_done (result : Result) :
    (Program.done result : Program high Result).expand implement = .done result := rfl

@[simp]
theorem expand_call (c : high.Call) (next : high.Response c → Program high Result) :
    (Program.call c next).expand implement =
      implement c >>= fun answer => (next answer).expand implement := rfl

/-- If every single call is carried out by a program that follows it, then so
is every program. -/
theorem expand_follows {link : Link low high} (program : Program high Result)
    (implements : ∀ past c, Follows link past (implement c) (.call c .done))
    (past : List (Record low)) : Follows link past (program.expand implement) program := by
  induction program generalizing past with
  | done result => exact .done result
  | call c next inductionHypothesis =>
      exact (implements past c).bind fun past answer => inductionHypothesis answer past

/-- An outline of the expansions of single calls, which hand on a condition, is
one of every expansion. -/
theorem expand_holds {outline : Outline low Result} (ready : List (Record low) → Prop)
    (implements : ∀ past c, ready past →
      (Outline.mk outline.atCall fun past _ => ready past).Holds past (implement c))
    (results : ∀ past result, ready past → outline.atResult past result)
    (program : Program high Result) {past : List (Record low)} (started : ready past) :
    outline.Holds past (program.expand implement) := by
  induction program generalizing past with
  | done result => exact results past result started
  | call c next inductionHypothesis =>
      exact Outline.Holds.bind ((implements past c started).mono (fun _ _ allowed => allowed)
        fun past answer handedOn => inductionHypothesis answer handedOn)

end Program

/-- What a link has to do with the steps of a fine system and of a coarse one,
whose stores are related in terms of the trace of the fine one. -/
structure Link.Sound (link : Link low high) (handler : Request → Program low Result)
    (exec : Semantics low Low) (init : Low) (coarseExec : Semantics high High)
    (Related : List (Event low Request Low) → Low → High → Prop) : Prop where
  possible : ∀ front event middle, Run handler exec init (front ++ [event]) middle →
    link.possible (past event.task front) event.record
  silent : ∀ front event middle store, Run handler exec init (front ++ [event]) middle →
    link.silent (past event.task front) event.record → Related front event.before store →
    Related (front ++ [event]) event.after store
  commits : ∀ front event middle store call response,
    Run handler exec init (front ++ [event]) middle →
    link.commits (past event.task front) event.record ⟨call, response⟩ →
    Related front event.before store →
    ∃ after, coarseExec call store response after ∧ Related (front ++ [event]) event.after after

/-- The tasks of a fine world follow those of a coarse one. -/
structure Tracks (link : Link low high) (trace : List (Event low Request Low))
    (world : World low Request Result Low) (coarse : World high Request Result High) : Prop where
  length : coarse.tasks.length = world.tasks.length
  follows : ∀ (task : Nat) request program, world.tasks[task]? = some ⟨request, program⟩ →
    ∃ coarseProgram, coarse.tasks[task]? = some ⟨request, coarseProgram⟩ ∧
      Follows link (past task trace) program coarseProgram

namespace Tracks

variable {link : Link low high} {trace : List (Event low Request Low)}
  {world : World low Request Result Low} {coarse : World high Request Result High}

/-- A task that has returned has the same result in both worlds. -/
theorem returned (tracks : Tracks link trace world coarse) {task : Nat} {request : Request}
    {result : Result} (found : world.tasks[task]? = some ⟨request, .done result⟩) :
    coarse.tasks[task]? = some ⟨request, .done result⟩ := by
  obtain ⟨program, present, follows⟩ := tracks.follows task request _ found
  rw [present, show program = .done result from follows]

theorem arrive (tracks : Tracks link trace world coarse) {request : Request}
    {program : Program low Result} {coarseProgram : Program high Result}
    (fresh : past world.tasks.length trace = [])
    (follows : Follows link [] program coarseProgram) :
    Tracks link trace { world with tasks := world.tasks ++ [⟨request, program⟩] }
      { coarse with tasks := coarse.tasks ++ [⟨request, coarseProgram⟩] } where
  length := by simp [tracks.length]
  follows task asked other found := by
    by_cases inside : task < world.tasks.length
    · rw [List.getElem?_append_left inside] at found
      rw [List.getElem?_append_left (by rw [tracks.length]; exact inside)]
      exact tracks.follows task asked other found
    · have last : task = world.tasks.length := by
        have bound := (List.getElem?_eq_some_iff.mp found).1
        simp only [List.length_append, List.length_singleton] at bound
        omega
      subst last
      rw [List.getElem?_concat_length] at found
      cases found
      rw [← tracks.length, List.getElem?_concat_length]
      exact ⟨coarseProgram, rfl, by rw [tracks.length, fresh]; exact follows⟩

/-- A step of one task leaves what the other tasks follow as it is. -/
theorem step (tracks : Tracks link trace world coarse) {event : Event low Request Low}
    {program : Program low Result} {coarseProgram : Program high Result} {store : High}
    (inside : event.task < world.tasks.length)
    (follows : Follows link (past event.task trace ++ [event.record]) program coarseProgram) :
    Tracks link (trace ++ [event])
      ⟨event.after, world.tasks.set event.task ⟨event.request, program⟩⟩
      ⟨store, coarse.tasks.set event.task ⟨event.request, coarseProgram⟩⟩ where
  length := by simp [tracks.length]
  follows task asked other found := by
    by_cases own : event.task = task
    · subst own
      rw [List.getElem?_set_self inside] at found
      cases found
      rw [List.getElem?_set_self (by rw [tracks.length]; exact inside), past_concat_self]
      exact ⟨coarseProgram, rfl, follows⟩
    · rw [List.getElem?_set_ne own] at found
      rw [List.getElem?_set_ne own, past_concat_of_ne trace own]
      exact tracks.follows task asked other found

end Tracks

/-- Every coarse call has been carried out by a fine one. -/
def Justified (link : Link low high) (trace : List (Event low Request Low))
    (coarseTrace : List (Event high Request High)) : Prop :=
  ∀ coarse ∈ coarseTrace, ∃ front event later, trace = front ++ event :: later ∧
    event.task = coarse.task ∧ link.commits (past event.task front) event.record coarse.record

theorem Justified.weaken {link : Link low high} {trace : List (Event low Request Low)}
    {coarseTrace : List (Event high Request High)} (justified : Justified link trace coarseTrace)
    (event : Event low Request Low) : Justified link (trace ++ [event]) coarseTrace := by
  intro coarse membership
  obtain ⟨front, found, later, rfl, task, commits⟩ := justified coarse membership
  exact ⟨front, found, later ++ [event], by simp, task, commits⟩

/-- Every interleaving of programs that follow coarse ones is matched by an
interleaving of the coarse ones, with related stores and equal results. -/
theorem Run.refine {link : Link low high} {handler : Request → Program low Result}
    {coarseHandler : Request → Program high Result} {exec : Semantics low Low} {init : Low}
    {coarseExec : Semantics high High} {coarseInit : High}
    {Related : List (Event low Request Low) → Low → High → Prop}
    {trace : List (Event low Request Low)} {world : World low Request Result Low}
    (run : Run handler exec init trace world)
    (sound : link.Sound handler exec init coarseExec Related)
    (follows : ∀ request, Follows link [] (handler request) (coarseHandler request))
    (initial : Related [] init coarseInit) :
    ∃ coarseTrace coarse, Run coarseHandler coarseExec coarseInit coarseTrace coarse ∧
      Related trace world.store coarse.store ∧ Tracks link trace world coarse ∧
        Justified link trace coarseTrace := by
  induction run with
  | start => exact ⟨[], ⟨coarseInit, []⟩, .start, initial, ⟨by simp, by simp⟩, by simp [Justified]⟩
  | arrive request run inductionHypothesis =>
      obtain ⟨coarseTrace, coarse, coarseRun, related, tracks, justified⟩ := inductionHypothesis
      exact ⟨coarseTrace, _, .arrive request coarseRun, related,
        tracks.arrive (run.past_eq_nil_of_length_le (Nat.le_refl _)) (follows request), justified⟩
  | @step trace world task request c next answer after run present executed inductionHypothesis =>
      obtain ⟨coarseTrace, coarse, coarseRun, related, tracks, justified⟩ := inductionHypothesis
      have inside := (List.getElem?_eq_some_iff.mp present).1
      have stepped := Run.step run present executed
      obtain ⟨coarseProgram, found, carried⟩ := tracks.follows task request _ present
      have possible := sound.possible trace ⟨task, request, c, answer, world.store, after⟩ _ stepped
      rcases carried answer possible with
        ⟨silent, later⟩ | ⟨call, response, rest, rfl, commits, later⟩
      · have same : coarse.tasks.set task ⟨request, coarseProgram⟩ = coarse.tasks := by
          obtain ⟨bound, value⟩ := List.getElem?_eq_some_iff.mp found
          rw [← value, List.set_getElem_self]
        refine ⟨coarseTrace, coarse, coarseRun,
          sound.silent _ ⟨task, request, c, answer, world.store, after⟩ _ _ stepped silent related, ?_,
          justified.weaken _⟩
        have tracked : Tracks link (trace ++ [⟨task, request, c, answer, world.store, after⟩]) _
            { coarse with tasks := coarse.tasks.set task _ } := tracks.step inside later
        rw [same] at tracked
        exact tracked
      · obtain ⟨coarseAfter, performed, relatedAfter⟩ :=
          sound.commits _ ⟨task, request, c, answer, world.store, after⟩ _ _ _ _ stepped commits related
        refine ⟨_, _, .step coarseRun found performed, relatedAfter,
          tracks.step inside later, ?_⟩
        intro carried membership
        rcases List.mem_append.mp membership with earlier | last
        · exact justified.weaken _ carried earlier
        · rw [List.mem_singleton] at last
          subst last
          exact ⟨trace, _, [], rfl, rfl, commits⟩

/-- An entry that a filter keeps has a place in the filtered list, and
overwriting one overwrites the other. -/
theorem exists_filterMap_set {Entry Image : Type} {f : Entry → Option Image} {entries : List Entry}
    {i : Nat} {entry : Entry} {image : Image} (found : entries[i]? = some entry)
    (kept : f entry = some image) :
    ∃ j, (entries.filterMap f)[j]? = some image ∧ ∀ other otherImage, f other = some otherImage →
      (entries.set i other).filterMap f = (entries.filterMap f).set j otherImage := by
  induction entries generalizing i with
  | nil => simp at found
  | cons head entries inductionHypothesis =>
      cases i with
      | zero =>
          rw [List.getElem?_cons_zero, Option.some.injEq] at found
          subst found
          refine ⟨0, by simp [kept], fun other otherImage keeps => ?_⟩
          simp [keeps, kept]
      | succ i =>
          rw [List.getElem?_cons_succ] at found
          obtain ⟨j, present, overwrite⟩ := inductionHypothesis found
          cases dropped : f head with
          | none =>
              refine ⟨j, by simpa [dropped] using present, fun other otherImage keeps => ?_⟩
              simpa [dropped] using overwrite other otherImage keeps
          | some first =>
              refine ⟨j + 1, by simpa [dropped] using present, fun other otherImage keeps => ?_⟩
              simpa [dropped] using overwrite other otherImage keeps

section Idle

variable {sig : Signature} {Kept Store : Type} (keep : Request → Option Kept)

def Task.kept? (task : Task sig Request Result) : Option (Task sig Kept Result) :=
  (keep task.request).map fun request => ⟨request, task.program⟩

/-- Tasks that make no calls can be left out of a run. -/
theorem Run.without_idle (keptHandler : Kept → Program sig Result)
    {handler : Request → Program sig Result}
    {exec : Semantics sig Store} {init : Store} {trace : List (Event sig Request Store)}
    {world : World sig Request Result Store} (run : Run handler exec init trace world)
    (kept : ∀ request found, keep request = some found → handler request = keptHandler found)
    (idle : ∀ request, keep request = none → ∃ result, handler request = .done result) :
    ∃ keptTrace, Run keptHandler exec init keptTrace
      ⟨world.store, world.tasks.filterMap (Task.kept? keep)⟩ ∧
        keptTrace.map Event.record = trace.map Event.record := by
  suffices general : (∀ task ∈ world.tasks, keep task.request = none →
      ∃ result, task.program = .done result) ∧ ∃ keptTrace, Run keptHandler exec init keptTrace
        ⟨world.store, world.tasks.filterMap (Task.kept? keep)⟩ ∧
          keptTrace.map Event.record = trace.map Event.record from general.2
  induction run with
  | start => exact ⟨by simp, [], .start, rfl⟩
  | @arrive trace world request run inductionHypothesis =>
      obtain ⟨done, keptTrace, keptRun, records⟩ := inductionHypothesis
      constructor
      · intro task membership dropped
        rcases List.mem_append.mp membership with earlier | last
        · exact done task earlier dropped
        · rw [List.mem_singleton] at last
          subst last
          exact idle request dropped
      · cases found : keep request with
        | none => exact ⟨keptTrace, by simpa [Task.kept?, found] using keptRun, records⟩
        | some asked =>
            refine ⟨keptTrace, ?_, records⟩
            simpa [Task.kept?, found, kept request asked found] using keptRun.arrive asked
  | @step trace world task request c next answer after run present executed inductionHypothesis =>
      obtain ⟨done, keptTrace, keptRun, records⟩ := inductionHypothesis
      have membership := List.mem_of_getElem? present
      obtain ⟨asked, found⟩ : ∃ asked, keep request = some asked := by
        rw [← Option.isSome_iff_exists, Option.isSome_iff_ne_none]
        intro dropped
        obtain ⟨result, stuck⟩ := done _ membership dropped
        cases stuck
      obtain ⟨place, present, overwrite⟩ :=
        exists_filterMap_set (f := Task.kept? keep) present (by rw [Task.kept?, found]; rfl)
      have same := overwrite ⟨request, next answer⟩ ⟨asked, next answer⟩
        (by rw [Task.kept?, found]; rfl)
      constructor
      · intro other inside dropped
        rcases List.mem_or_eq_of_mem_set inside with earlier | last
        · exact done other earlier dropped
        · subst last
          rw [found] at dropped
          cases dropped
      · refine ⟨keptTrace ++ [⟨place, asked, c, answer, world.store, after⟩], ?_, ?_⟩
        · simp only [same]
          exact keptRun.step present executed
        · rw [List.map_append, List.map_append, records]
          rfl

end Idle

theorem Tracks.forall₂ {link : Link low high} {trace : List (Event low Request Low)}
    {world : World low Request Result Low} {coarse : World high Request Result High}
    (tracks : Tracks link trace world coarse) :
    List.Forall₂ (fun fine task => fine.request = task.request ∧
      ∀ result, fine.program = .done result → task.program = .done result)
      world.tasks coarse.tasks := by
  refine List.forall₂_iff_get.mpr ⟨tracks.length.symm, fun task inside coarseInside => ?_⟩
  obtain ⟨program, present, follows⟩ :=
    tracks.follows task _ _ (List.getElem?_eq_getElem inside)
  rw [List.getElem?_eq_getElem coarseInside, Option.some.injEq] at present
  simp only [List.get_eq_getElem] at present follows ⊢
  rw [present]
  refine ⟨rfl, fun result returned => ?_⟩
  rw [returned] at follows
  exact follows

/-- The kept tasks of a coarse world are those of the fine one, in order. -/
theorem Tracks.kept {Kept : Type} {link : Link low high} {trace : List (Event low Request Low)}
    {world : World low Request Result Low} {coarse : World high Request Result High}
    (tracks : Tracks link trace world coarse) (keep : Request → Option Kept) :
    List.Forall₂ (fun fine task => keep fine.request = some task.request ∧
      ∀ result, fine.program = .done result → task.program = .done result)
      (world.tasks.filter fun task => (keep task.request).isSome)
      (coarse.tasks.filterMap (Task.kept? keep)) := by
  have all := tracks.forall₂
  generalize world.tasks = fine at all
  generalize coarse.tasks = tasks at all
  induction all with
  | nil => exact .nil
  | @cons first second _ _ same rest inductionHypothesis =>
      cases found : keep first.request with
      | none =>
          have dropped : keep second.request = none := by rw [← same.1, found]
          simpa [Task.kept?, found, dropped] using inductionHypothesis
      | some request =>
          have kept : keep second.request = some request := by rw [← same.1, found]
          rw [List.filter_cons_of_pos (by simp [found]),
            List.filterMap_cons_some (b := ⟨request, second.program⟩) (by simp [Task.kept?, kept])]
          exact .cons ⟨found, same.2⟩ inductionHypothesis

/-- A part of the store with calls of its own: it changes by them only. -/
structure Component {sig own : Signature} {Store State : Type} (exec : Semantics sig Store)
    (ownExec : Semantics own State) where
  state : Store → State
  record? : Record sig → Option (Record own)
  acts : ∀ c store answer after record, exec c store answer after →
    record? ⟨c, answer⟩ = some record → ownExec record.1 (state store) record.2 (state after)
  rests : ∀ c store answer after, exec c store answer after → record? ⟨c, answer⟩ = none →
    state after = state store

end Concurrent
