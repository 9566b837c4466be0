import MevRelay.Concurrent.Interleaving
import Mathlib.Order.WithBot
import Mathlib.Data.List.Induction

/-!
# Registers that are checked first and written later

A task looks at a register, finds it worth less than its own offer, and puts
the offer there in a later call.  Between the two calls other tasks may put
offers of their own.  The register never loses worth exactly when no task is
overtaken by a better offer between its look and its put.
-/

namespace Concurrent

variable {Offer Value : Type} [LinearOrder Value]

/-- The worth of what a register holds; an empty register is worth nothing. -/
def worth (value : Offer → Value) (held : Option Offer) : WithBot Value :=
  held.elim ⊥ fun offer => (value offer : WithBot Value)

omit [LinearOrder Value] in
@[simp]
theorem worth_none (value : Offer → Value) : worth value none = ⊥ := rfl

omit [LinearOrder Value] in
@[simp]
theorem worth_some (value : Offer → Value) (offer : Offer) :
    worth value (some offer) = (value offer : WithBot Value) := rfl

/-- A place in the store that some calls look at and some calls overwrite. -/
structure Register {sig : Signature} {Store : Type} (exec : Semantics sig Store)
    (Offer : Type) where
  held : Store → Option Offer
  looks : sig.Call → Prop
  put? : sig.Call → Option Offer
  not_put_of_looks : ∀ c, looks c → put? c = none
  held_after : ∀ c store answer after, exec c store answer after →
    held after = (put? c).or (held store)

namespace Register

variable {sig : Signature} {Request Result Store : Type} {exec : Semantics sig Store}
  {handler : Request → Program sig Result} {init : Store}
  {trace : List (Event sig Request Store)} {world : World sig Request Result Store}
  (register : Register exec Offer) (value : Offer → Value)

/-- The register is never worth less after a call than before it. -/
def NeverLoses (trace : List (Event sig Request Store)) : Prop :=
  ∀ event ∈ trace, worth value (register.held event.before) ≤ worth value (register.held event.after)

/-- Some task put its offer although, since its look, another task had put a
better one. -/
def Overtaken (trace : List (Event sig Request Store)) : Prop :=
  ∃ front look between put later offer better,
    trace = front ++ look :: (between ++ put :: later) ∧
    look.task = put.task ∧ register.looks look.call ∧ register.put? put.call = some offer ∧
    (∃ rival ∈ between, register.put? rival.call = some better) ∧ value offer < value better

/-- Every put follows a look of the same task that found less. -/
def Checked (trace : List (Event sig Request Store)) : Prop :=
  ∀ front put later offer, trace = front ++ put :: later → register.put? put.call = some offer →
    ∃ look ∈ front, look.task = put.task ∧ register.looks look.call ∧
      worth value (register.held look.before) < (value offer : WithBot Value)

variable {register value}

theorem held_after_event (run : Run handler exec init trace world)
    {event : Event sig Request Store} (membership : event ∈ trace) :
    register.held event.after = (register.put? event.call).or (register.held event.before) :=
  register.held_after _ _ _ _ (run.executed membership)

/-- Over a stretch of a run the register keeps what it held, or holds what some
call of the stretch put there. -/
theorem held_kept_or_put (register : Register exec Offer) (run : Run handler exec init trace world)
    (front between later : List (Event sig Request Store))
    (split : trace = front ++ (between ++ later)) :
    register.held (storeAfter init (front ++ between)) = register.held (storeAfter init front) ∨
      ∃ put ∈ between, ∃ offer, register.put? put.call = some offer ∧
        register.held (storeAfter init (front ++ between)) = some offer := by
  induction between using List.reverseRecOn generalizing later with
  | nil => simp
  | append_singleton between event inductionHypothesis =>
      have membership : event ∈ trace := by simp [split]
      have started := (run.event_at (front ++ between) event later (by simpa using split)).2
      rw [← List.append_assoc, storeAfter_concat, held_after_event run membership, started]
      cases found : register.put? event.call with
      | some offer => exact .inr ⟨event, by simp, offer, found, rfl⟩
      | none =>
          simp only [Option.none_or]
          rcases inductionHypothesis (event :: later) (by simpa using split) with same | changed
          · exact .inl same
          · obtain ⟨put, inside, offer, put_offer, held_offer⟩ := changed
            exact .inr ⟨put, List.mem_append_left _ inside, offer, put_offer, held_offer⟩

theorem value_le_worth_of_neverLoses (run : Run handler exec init trace world)
    (kept : register.NeverLoses value trace) {put : Event sig Request Store}
    (membership : put ∈ trace) {offer : Offer} (stored : register.put? put.call = some offer) :
    (value offer : WithBot Value) ≤ worth value (register.held world.store) := by
  obtain ⟨front, later, split⟩ := List.append_of_mem membership
  have held : register.held put.after = some offer := by
    rw [held_after_event run membership, stored, Option.some_or]
  have grown := run.monotone (fun store => worth value (register.held store)) kept
    (front ++ [put]) later [] (by simpa using split)
  rw [storeAfter_concat, held] at grown
  rw [run.store_eq]
  simpa [split] using grown

theorem not_overtaken_of_neverLoses (run : Run handler exec init trace world)
    (kept : register.NeverLoses value trace) : ¬ register.Overtaken value trace := by
  rintro ⟨front, look, between, put, later, offer, better, split, _, _, stored,
    ⟨rival, inside, rivalStored⟩, lower⟩
  obtain ⟨first, rest, rfl⟩ := List.append_of_mem inside
  have rivalMember : rival ∈ trace := by simp [split]
  have putMember : put ∈ trace := by simp [split]
  have rivalHeld : register.held rival.after = some better := by
    rw [held_after_event run rivalMember, rivalStored, Option.some_or]
  have putHeld : register.held put.after = some offer := by
    rw [held_after_event run putMember, stored, Option.some_or]
  have started := (run.event_at (front ++ look :: (first ++ rival :: rest)) put later
    (by simpa using split)).2
  have grown := run.monotone (fun store => worth value (register.held store)) kept
    (front ++ look :: (first ++ [rival])) rest (put :: later) (by simpa using split)
  have last := kept put putMember
  rw [started, putHeld] at last
  have rivalStore : storeAfter init (front ++ look :: (first ++ [rival])) = rival.after := by
    rw [show front ++ look :: (first ++ [rival]) = (front ++ look :: first) ++ [rival] by simp,
      storeAfter_concat]
  rw [rivalStore, rivalHeld] at grown
  have worse : (value better : WithBot Value) ≤ value offer := by
    apply le_trans grown
    simpa using last
  exact absurd (WithBot.coe_le_coe.mp worse) (not_le_of_gt lower)

theorem neverLoses_of_not_overtaken (run : Run handler exec init trace world)
    (checked : register.Checked value trace) (clear : ¬ register.Overtaken value trace) :
    register.NeverLoses value trace := by
  intro put membership
  obtain ⟨front, later, split⟩ := List.append_of_mem membership
  rw [held_after_event run membership]
  cases stored : register.put? put.call with
  | none => simp
  | some offer =>
      simp only [Option.some_or, worth_some]
      obtain ⟨look, lookMember, sameTask, looks, lower⟩ := checked front put later offer split stored
      obtain ⟨earlier, between, rfl⟩ := List.append_of_mem lookMember
      have lookStart := (run.event_at earlier look (between ++ put :: later)
        (by simpa using split)).2
      have putStart := (run.event_at (earlier ++ look :: between) put later split).2
      have kept := held_kept_or_put register run earlier (look :: between) (put :: later)
        (by simpa using split)
      rcases kept with same | ⟨rival, inside, better, rivalStored, rivalHeld⟩
      · rw [putStart, same, ← lookStart]
        exact lower.le
      · rw [putStart, rivalHeld, worth_some, WithBot.coe_le_coe]
        by_contra higher
        rcases List.mem_cons.mp inside with rfl | rivalInside
        · rw [register.not_put_of_looks _ looks] at rivalStored
          cases rivalStored
        · exact clear ⟨earlier, look, between, put, later, offer, better, by simpa using split,
            sameTask, looks, stored, ⟨rival, rivalInside, rivalStored⟩, not_le.mp higher⟩

/-- A register that is checked before it is written never loses worth exactly
when no task is overtaken between its look and its put. -/
theorem neverLoses_iff_not_overtaken (run : Run handler exec init trace world)
    (checked : register.Checked value trace) :
    register.NeverLoses value trace ↔ ¬ register.Overtaken value trace :=
  ⟨not_overtaken_of_neverLoses run, neverLoses_of_not_overtaken run checked⟩

end Register

end Concurrent
