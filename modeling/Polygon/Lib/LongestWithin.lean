import Mathlib.Algebra.Order.Ring.Nat
import Mathlib.Data.List.Basic

/-!
# The longest prefix within a bound

Elements have sizes, and a list is taken from its front as long as the sizes stay
within a bound.
-/
namespace LongestWithin

variable {α : Type} {size : α → Nat} {room : Nat} {x : α} {xs ys zs : List α}

/-- `ys` is the longest prefix of `xs` whose sizes add up to at most `room`. -/
structure Longest (size : α → Nat) (room : Nat) (xs ys : List α) : Prop where
  initial : ys <+: xs
  within : (ys.map size).sum ≤ room
  longest : ∀ zs, zs <+: xs → (zs.map size).sum ≤ room → zs <+: ys

theorem Longest.unique (h : Longest size room xs ys) (h' : Longest size room xs zs) : ys = zs :=
  (h'.longest ys h.initial h.within).eq_of_length
    (Nat.le_antisymm (h'.longest ys h.initial h.within).length_le
      (h.longest zs h'.initial h'.within).length_le)

/-- The elements from the front, until one is too large for what is left. -/
def takeWithin (size : α → Nat) : Nat → List α → List α
  | _, [] => []
  | room, x :: xs => if room < size x then [] else x :: takeWithin size (room - size x) xs

@[simp] theorem takeWithin_nil : takeWithin size room [] = [] := rfl

theorem takeWithin_of_lt (h : room < size x) : takeWithin size room (x :: xs) = [] := if_pos h

theorem takeWithin_of_le (h : size x ≤ room) :
    takeWithin size room (x :: xs) = x :: takeWithin size (room - size x) xs :=
  if_neg (Nat.not_lt_of_le h)

theorem takeWithin_eq_nil_iff :
    takeWithin size room xs = [] ↔ ∀ x, xs.head? = some x → room < size x := by
  cases xs with
  | nil => simp
  | cons x xs =>
    rcases Nat.lt_or_ge room (size x) with h | h
    · simp [takeWithin_of_lt h, h]
    · simp [takeWithin_of_le h, h]

theorem takeWithin_initial (size : α → Nat) (room : Nat) (xs : List α) :
    takeWithin size room xs <+: xs := by
  induction xs generalizing room with
  | nil => exact List.nil_prefix
  | cons x xs ih =>
    unfold takeWithin
    split
    · exact List.nil_prefix
    · exact List.cons_prefix_cons.mpr ⟨rfl, ih _⟩

theorem takeWithin_longest (size : α → Nat) (room : Nat) (xs : List α) :
    Longest size room xs (takeWithin size room xs) := by
  refine ⟨takeWithin_initial size room xs, ?_, fun zs hzs hroom => ?_⟩
  · induction xs generalizing room with
    | nil => simp
    | cons x xs ih =>
      rcases Nat.lt_or_ge room (size x) with h | h
      · simp [takeWithin_of_lt h]
      · have hrest := ih (room - size x)
        rw [takeWithin_of_le h, List.map_cons, List.sum_cons]
        omega
  · induction xs generalizing room zs with
    | nil => exact hzs
    | cons x xs ih =>
      cases zs with
      | nil => exact List.nil_prefix
      | cons z zs =>
        obtain ⟨rfl, htail⟩ := List.cons_prefix_cons.mp hzs
        rw [List.map_cons, List.sum_cons] at hroom
        rw [takeWithin_of_le (by omega)]
        exact List.cons_prefix_cons.mpr ⟨rfl, ih _ zs htail (by omega)⟩

/-- There is exactly one longest prefix. -/
theorem longest_iff : Longest size room xs ys ↔ ys = takeWithin size room xs := by
  constructor
  · exact fun h => h.unique (takeWithin_longest size room xs)
  · rintro rfl
    exact takeWithin_longest size room xs

theorem mem_of_mem_takeWithin (h : x ∈ takeWithin size room xs) : x ∈ xs :=
  (takeWithin_initial size room xs).subset h

end LongestWithin
