import Mathlib.Data.List.Basic

/-!
# Computations that read memory

A computation over memory ends with a value or with an error of its own, or it
accesses what lies outside the memory it was given. A cursor is the list of what
is left to read.
-/
namespace Checked

variable {α β γ ε : Type}

/-- The outcome of a computation; `none` is an access outside the memory. -/
abbrev Outcome (ε α : Type) := Option (Except ε α)

def ok (a : α) : Outcome ε α := some (.ok a)

def error (e : ε) : Outcome ε α := some (.error e)

/-- One computation after the other. -/
def andThen (x : Outcome ε α) (f : α → Outcome ε β) : Outcome ε β :=
  match x with
  | none => none
  | some (.error e) => some (.error e)
  | some (.ok a) => f a

/-- `k` elements are read at the cursor, which moves behind them. -/
def read (k : Nat) (p : List γ) : Outcome ε (List γ × List γ) :=
  if k ≤ p.length then ok (p.take k, p.drop k) else none

@[simp]
theorem ok_andThen (a : α) (f : α → Outcome ε β) : andThen (ok a) f = f a := rfl

@[simp]
theorem error_andThen (e : ε) (f : α → Outcome ε β) : andThen (error e) f = error e := rfl

@[simp]
theorem none_andThen (f : α → Outcome ε β) : andThen none f = none := rfl

theorem ok_inj {a b : α} : (ok a : Outcome ε α) = ok b ↔ a = b := by
  constructor
  · intro h
    exact Except.ok.inj (Option.some.inj h)
  · intro h
    rw [h]

theorem error_ne_ok {e : ε} {a : α} : error e ≠ ok a := by
  intro h
  cases h

/-- A value at the end is a value on the way. -/
theorem andThen_ok_iff {x : Outcome ε α} {f : α → Outcome ε β} {b : β} :
    andThen x f = ok b ↔ ∃ a, x = ok a ∧ f a = ok b := by
  constructor
  · intro h
    match x, h with
    | some (.ok a), h => exact ⟨a, rfl, h⟩
  · intro h
    obtain ⟨a, rfl, h⟩ := h
    exact h

/-- No access outside the memory in both parts, none in the whole. -/
theorem andThen_ne_none {x : Outcome ε α} {f : α → Outcome ε β} (first : x ≠ none)
    (second : ∀ a, x = ok a → f a ≠ none) : andThen x f ≠ none := by
  match x, first with
  | some (.error _), _ => exact Option.some_ne_none _
  | some (.ok a), _ => exact second a rfl

theorem read_of_le {k : Nat} {p : List γ} (h : k ≤ p.length) :
    read k p = (ok (p.take k, p.drop k) : Outcome ε (List γ × List γ)) := if_pos h

/-- Reading the elements the cursor begins with. -/
theorem read_append {xs : List γ} {k : Nat} (h : xs.length = k) (p : List γ) :
    read k (xs ++ p) = (ok (xs, p) : Outcome ε (List γ × List γ)) := by
  rw [read_of_le (by rw [List.length_append]; omega), List.take_left' h, List.drop_left' h]

theorem read_one (x : γ) (p : List γ) :
    read 1 (x :: p) = (ok ([x], p) : Outcome ε (List γ × List γ)) :=
  read_append (List.length_singleton (a := x)) p

/-! ## Computations that stay inside -/

/-- `x` stays inside the memory and computes `y`, whose errors are in `E` and whose values in `P`. -/
structure Computes (E : ε → Prop) (P : α → Prop) (x : Outcome ε α) (y : Except ε α) : Prop where
  eq : x = some y
  error : ∀ e, y = .error e → E e
  value : ∀ a, y = .ok a → P a

section
variable {E : ε → Prop} {P : α → Prop} {Q : β → Prop}

theorem Computes.ok {a : α} (h : P a) : Computes E P (Checked.ok a) (.ok a) := by
  refine ⟨rfl, fun e he => ?_, fun b hb => ?_⟩
  · cases he
  · obtain rfl := Except.ok.inj hb
    exact h

theorem Computes.err {e : ε} (h : E e) : Computes E P (Checked.error e) (.error e) := by
  refine ⟨rfl, fun e' he => ?_, fun b hb => ?_⟩
  · obtain rfl := Except.error.inj he
    exact h
  · cases hb

theorem Computes.bind {x : Outcome ε α} {y : Except ε α} {f : α → Outcome ε β} {g : α → Except ε β}
    (h : Computes E P x y) (hf : ∀ a, P a → Computes E Q (f a) (g a)) :
    Computes E Q (andThen x f) (y.bind g) := by
  rw [h.eq]
  cases y with
  | error e => exact .err (h.error e rfl)
  | ok a => exact hf a (h.value a rfl)

/-- Both sides branch on the same condition. -/
theorem Computes.ite {c : Prop} [Decidable c] {x x' : Outcome ε α} {y y' : Except ε α}
    (pos : c → Computes E P x y) (neg : ¬c → Computes E P x' y') :
    Computes E P (if c then x else x') (if c then y else y') := by
  by_cases hc : c
  · rw [if_pos hc, if_pos hc]
    exact pos hc
  · rw [if_neg hc, if_neg hc]
    exact neg hc

/-- A part that succeeds is a computation of its value. -/
theorem Computes.step {x : Outcome ε β} {b : β} {f : β → Outcome ε α} {y : Except ε α}
    (h : x = Checked.ok b)
    (hf : Computes E P (f b) y) : Computes E P (andThen x f) y := by
  rw [h]
  exact hf

end

end Checked
