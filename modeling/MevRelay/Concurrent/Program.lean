import Mathlib.Data.List.Basic

/-!
# Programs over atomic calls

A program is a tree of atomic calls on shared state: each node names one call
and continues on its answer.  Nothing is said here about what a call does, so
one program can be run alone, in a sequence of whole programs, or interleaved
call by call with others.

An outline attaches an assertion to every call and to every result of a
program, in terms of the calls already made and their answers.
-/

namespace Concurrent

universe u

/-- The atomic calls a program may make and the type of each answer. -/
structure Signature where
  Call : Type
  Response : Call → Type

abbrev Record (sig : Signature) := Σ call : sig.Call, sig.Response call

/-- A computation that interacts with its surroundings through atomic calls. -/
inductive Program (sig : Signature) (Result : Type u) : Type u where
  | done (result : Result)
  | call (c : sig.Call) (next : sig.Response c → Program sig Result)

namespace Program

variable {sig : Signature} {Result Other : Type u}

def bind : Program sig Result → (Result → Program sig Other) → Program sig Other
  | .done result, rest => rest result
  | .call c next, rest => .call c fun answer => (next answer).bind rest

instance : Monad (Program sig) where
  pure := .done
  bind := bind

@[simp]
theorem pure_eq_done (result : Result) : (pure result : Program sig Result) = .done result := rfl

@[simp]
theorem done_bind (result : Result) (rest : Result → Program sig Other) :
    (Program.done result >>= rest) = rest result := rfl

@[simp]
theorem call_bind (c : sig.Call) (next : sig.Response c → Program sig Result)
    (rest : Result → Program sig Other) :
    (Program.call c next >>= rest) = .call c fun answer => next answer >>= rest := rfl

theorem bind_assoc {Last : Type u} (program : Program sig Result)
    (next : Result → Program sig Other) (rest : Other → Program sig Last) :
    program >>= next >>= rest = program >>= fun result => next result >>= rest := by
  induction program with
  | done result => rfl
  | call c continuation inductionHypothesis =>
      simp only [call_bind]
      congr 1
      funext answer
      exact inductionHypothesis answer

@[simp]
theorem map_eq_bind (f : Result → Other) (program : Program sig Result) :
    f <$> program = program >>= fun result => .done (f result) := rfl

end Program

/-- What is known at each call and at each result of a program.  `atCall` and
`atResult` speak about the calls made so far, oldest first. -/
structure Outline (sig : Signature) (Result : Type u) where
  atCall : List (Record sig) → sig.Call → Prop
  atResult : List (Record sig) → Result → Prop

namespace Outline

variable {sig : Signature} {Result Other : Type u}

/-- A program that has already made the calls `past` keeps to an outline
whatever its further calls answer. -/
def Holds (outline : Outline sig Result) : List (Record sig) → Program sig Result → Prop
  | past, .done result => outline.atResult past result
  | past, .call c next =>
      outline.atCall past c ∧ ∀ answer, outline.Holds (past ++ [⟨c, answer⟩]) (next answer)

@[simp]
theorem holds_done (outline : Outline sig Result) (past : List (Record sig)) (result : Result) :
    outline.Holds past (.done result) ↔ outline.atResult past result := Iff.rfl

@[simp]
theorem holds_call (outline : Outline sig Result) (past : List (Record sig)) (c : sig.Call)
    (next : sig.Response c → Program sig Result) :
    outline.Holds past (.call c next) ↔
      outline.atCall past c ∧ ∀ answer, outline.Holds (past ++ [⟨c, answer⟩]) (next answer) :=
  Iff.rfl

/-- Sequential composition: an outline that holds of the first program up to
its results, and of the rest from each of them, holds of the whole. -/
theorem Holds.bind {outline : Outline sig Other} {past : List (Record sig)}
    {program : Program sig Result} {rest : Result → Program sig Other}
    (first : (Outline.mk outline.atCall fun past result =>
      outline.Holds past (rest result)).Holds past program) :
    outline.Holds past (program >>= rest) := by
  induction program generalizing past with
  | done result => exact first
  | call c next inductionHypothesis =>
      exact ⟨first.1, fun answer => inductionHypothesis answer (first.2 answer)⟩

theorem Holds.mono {weak strong : Outline sig Result} {past : List (Record sig)}
    {program : Program sig Result} (holds : strong.Holds past program)
    (calls : ∀ past c, strong.atCall past c → weak.atCall past c)
    (results : ∀ past result, strong.atResult past result → weak.atResult past result) :
    weak.Holds past program := by
  induction program generalizing past with
  | done result => exact results past result holds
  | call c next inductionHypothesis =>
      exact ⟨calls past c holds.1, fun answer => inductionHypothesis answer (holds.2 answer)⟩

def map (outline : Outline sig Result) (rename : Result → Other) : Outline sig Other where
  atCall := outline.atCall
  atResult past other := ∃ result, other = rename result ∧ outline.atResult past result

theorem Holds.map {outline : Outline sig Result} {past : List (Record sig)}
    {program : Program sig Result} (holds : outline.Holds past program)
    (rename : Result → Other) : (outline.map rename).Holds past (rename <$> program) := by
  induction program generalizing past with
  | done result => exact ⟨result, rfl, holds⟩
  | call c next inductionHypothesis =>
      exact ⟨holds.1, fun answer => inductionHypothesis answer (holds.2 answer)⟩

end Outline

end Concurrent
