import Mathlib.Data.List.Basic

/-!
# Buffers

Memory of a fixed size that is filled from the front. A write behind the end would
make the memory longer, so its size tells whether there was one.
-/

/-- Memory and the position of the next write. -/
structure Buffer (α : Type) where
  mem : List α
  last : Nat

namespace Buffer

variable {α : Type} {b : Buffer α} {xs : List α} {k : Nat}

/-- What was written. -/
def content (b : Buffer α) : List α := b.mem.take b.last

/-- The room behind what was written. -/
def left (b : Buffer α) : Nat := b.mem.length - b.last

/-- Elements are written at the position, which moves behind them. -/
def write (b : Buffer α) (xs : List α) : Buffer α :=
  { mem := b.mem.take b.last ++ xs ++ b.mem.drop (b.last + xs.length), last := b.last + xs.length }

/-- The position is set back. -/
def rewind (b : Buffer α) (k : Nat) : Buffer α := { b with last := k }

theorem content_length (h : b.last ≤ b.mem.length) : b.content.length = b.last := by
  rw [content, List.length_take, Nat.min_eq_left h]

@[simp]
theorem write_last : (b.write xs).last = b.last + xs.length := rfl

/-- A write with enough room stays inside. -/
theorem write_length (h : b.last + xs.length ≤ b.mem.length) :
    (b.write xs).mem.length = b.mem.length := by
  simp only [write, List.length_append, List.length_take, List.length_drop]
  omega

/-- What was written before stays. -/
theorem write_content (h : b.last ≤ b.mem.length) : (b.write xs).content = b.content ++ xs := by
  have hlen : (b.mem.take b.last ++ xs).length = b.last + xs.length := by
    rw [List.length_append, List.length_take, Nat.min_eq_left h]
  exact List.take_left' hlen

theorem rewind_content (h : k ≤ b.last) : (b.rewind k).content = b.content.take k := by
  rw [content, content, List.take_take, Nat.min_eq_left h]
  rfl

end Buffer
