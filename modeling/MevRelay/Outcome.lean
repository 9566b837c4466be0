import Mathlib.Data.List.Basic

/-!
# Outcomes of fallible code

A function that may fail either returns, reports an error, or panics and never
reports anything.
-/

/-- How a call ends: with a value, with an error, or in a panic. -/
inductive Outcome (Error Value : Type) where
  | ok (value : Value)
  | err (error : Error)
  | panicked
  deriving DecidableEq

namespace Outcome

variable {Error Other Value Next : Type}

def bind : Outcome Error Value → (Value → Outcome Error Next) → Outcome Error Next
  | .ok value, next => next value
  | .err error, _ => .err error
  | .panicked, _ => .panicked

instance : Monad (Outcome Error) where
  pure := .ok
  bind := bind

def ofExcept : Except Error Value → Outcome Error Value
  | .ok value => .ok value
  | .error error => .err error

/-- Insist on a value and panic where there is none. -/
def expect : Except Other Value → Outcome Error Value
  | .ok value => .ok value
  | .error _ => .panicked

@[simp]
theorem pure_eq_ok (value : Value) : (pure value : Outcome Error Value) = .ok value := rfl

@[simp]
theorem ok_bind (value : Value) (next : Value → Outcome Error Next) :
    (ok value >>= next) = next value := rfl

@[simp]
theorem err_bind (error : Error) (next : Value → Outcome Error Next) :
    (err error >>= next) = err error := rfl

@[simp]
theorem panicked_bind (next : Value → Outcome Error Next) :
    (panicked >>= next) = panicked := rfl

@[simp]
theorem expect_eq_panicked {result : Except Other Value} :
    (expect result : Outcome Error Value) = panicked ↔ ∀ value, result ≠ .ok value := by
  cases result <;> simp [expect]

@[simp]
theorem expect_eq_ok {result : Except Other Value} {value : Value} :
    (expect result : Outcome Error Value) = ok value ↔ result = .ok value := by
  cases result <;> simp [expect]

@[simp]
theorem expect_ne_err {result : Except Other Value} {error : Error} : expect result ≠ err error := by
  cases result <;> simp [expect]

@[simp]
theorem ofExcept_ne_panicked (result : Except Error Value) : ofExcept result ≠ panicked := by
  cases result <;> simp [ofExcept]

@[simp]
theorem ofExcept_eq_ok {result : Except Error Value} {value : Value} :
    ofExcept result = ok value ↔ result = .ok value := by
  cases result <;> simp [ofExcept]

/-- A sequence panics in its first part, or in what follows on its value. -/
theorem bind_eq_panicked {first : Outcome Error Value} {next : Value → Outcome Error Next} :
    (first >>= next) = panicked ↔
      first = panicked ∨ ∃ value, first = ok value ∧ next value = panicked := by
  cases first <;> simp

theorem bind_eq_ok {first : Outcome Error Value} {next : Value → Outcome Error Next}
    {result : Next} :
    (first >>= next) = ok result ↔ ∃ value, first = ok value ∧ next value = ok result := by
  cases first <;> simp

end Outcome

section Except

variable {Error Other Value Next : Type}

theorem except_bind_eq_ok {first : Except Error Value} {next : Value → Except Error Next}
    {result : Next} :
    (first >>= next) = .ok result ↔ ∃ value, first = .ok value ∧ next value = .ok result := by
  cases first <;> simp [bind, Except.bind]

theorem except_map_eq_ok {f : Value → Next} {first : Except Error Value} {result : Next} :
    f <$> first = .ok result ↔ ∃ value, first = .ok value ∧ f value = result := by
  cases first <;> simp [Functor.map, Except.map]

@[simp]
theorem mapError_eq_ok {f : Error → Other} {first : Except Error Value} {value : Value} :
    first.mapError f = .ok value ↔ first = .ok value := by
  cases first <;> simp [Except.mapError]

theorem toOption_eq_some {first : Except Error Value} {value : Value} :
    first.toOption = some value ↔ first = .ok value := by
  cases first <;> simp [Except.toOption]

/-- Insisting on the image of a result panics exactly where there is no result. -/
theorem expect_map_eq_panicked {f : Value → Next} {first : Except Other Value} :
    (Outcome.expect (f <$> first) : Outcome Error Next) = .panicked ↔ first.isOk = false := by
  cases first <;> simp [Outcome.expect, Functor.map, Except.map, Except.isOk, Except.toBool]

end Except
