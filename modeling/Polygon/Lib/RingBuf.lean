import Mathlib.Data.List.Basic
import Mathlib.Data.Nat.ModEq

/-!
# Ring buffers

An array whose size is a power of two, with 64-bit indices that are masked. The ring
holds a list: an item is pushed to its front, and a full ring loses its last item.
-/

/-- The slots, how many there are, the slot of the front and the number of items. -/
structure RingBuf (α : Type) where
  buf : Nat → α
  nmemb : Nat
  first : Nat
  len : Nat

namespace RingBuf

variable {α : Type} {rb : RingBuf α} {xs : List α}

/-- The slot of the item at `offset`. -/
def slot (rb : RingBuf α) (offset : Nat) : Nat := (rb.first + offset) &&& (rb.nmemb - 1)

def get (rb : RingBuf α) (offset : Nat) : α := rb.buf (rb.slot offset)

def pushFront (rb : RingBuf α) (x : α) : RingBuf α :=
  let first := ((rb.first + (2 ^ 64 - 1)) % 2 ^ 64) &&& (rb.nmemb - 1)
  { rb with buf := fun i => if i = first then x else rb.buf i, first, len := min rb.nmemb (rb.len + 1) }

def resize (rb : RingBuf α) (len : Nat) : RingBuf α := { rb with len }

/-- The ring holds the items, the front first. -/
structure Holds (rb : RingBuf α) (xs : List α) : Prop where
  pow : ∃ k ≤ 64, rb.nmemb = 2 ^ k
  len : rb.len = xs.length
  fits : xs.length ≤ rb.nmemb
  items : ∀ i (hi : i < xs.length), rb.get i = xs.get ⟨i, hi⟩

theorem slot_eq {k : Nat} (hk : rb.nmemb = 2 ^ k) (i : Nat) :
    rb.slot i = (rb.first + i) % rb.nmemb := by
  rw [slot, hk, Nat.and_two_pow_sub_one_eq_mod]

/-- An empty ring, wherever its front is. -/
theorem holds_nil (buf : Nat → α) {k : Nat} (hk : k ≤ 64) (first : Nat) :
    Holds ⟨buf, 2 ^ k, first, 0⟩ [] :=
  ⟨⟨k, hk, rfl⟩, rfl, Nat.zero_le _, fun i hi => absurd hi (Nat.not_lt_zero i)⟩

theorem Holds.get (h : Holds rb xs) {i : Nat} (hi : i < rb.len) : xs[i]? = some (rb.get i) := by
  have hlt : i < xs.length := h.len ▸ hi
  rw [h.items i hlt]
  exact List.getElem?_eq_getElem hlt

theorem Holds.resize (h : Holds rb xs) {len : Nat} (hlen : len ≤ rb.len) :
    Holds (rb.resize len) (xs.take len) := by
  have hle : len ≤ xs.length := h.len ▸ hlen
  have hlength : (xs.take len).length = len := by rw [List.length_take, Nat.min_eq_left hle]
  refine ⟨h.pow, hlength.symm, ?_, fun i hi => ?_⟩
  · rw [hlength]
    exact Nat.le_trans hle h.fits
  have hi' : i < xs.length := by omega
  rw [List.get_eq_getElem, List.getElem_take]
  exact h.items i hi'

/-- The front moves one slot down, and every item one place up. -/
theorem slot_pushFront {k : Nat} (hk : k ≤ 64) (hpow : rb.nmemb = 2 ^ k) (x : α) :
    (rb.pushFront x).slot 0 = (rb.pushFront x).first ∧
    ∀ i, (rb.pushFront x).slot (i + 1) = rb.slot i := by
  have hpos : 0 < 2 ^ k := Nat.two_pow_pos k
  have hdvd : 2 ^ k ∣ 2 ^ 64 := Nat.pow_dvd_pow 2 hk
  have hfirst : (rb.pushFront x).first = (rb.first + (2 ^ 64 - 1)) % 2 ^ k := by
    rw [pushFront, hpow, Nat.and_two_pow_sub_one_eq_mod, Nat.mod_mod_of_dvd _ hdvd]
  have hnmemb : (rb.pushFront x).nmemb = 2 ^ k := hpow
  refine ⟨?_, fun i => ?_⟩
  · rw [slot_eq hnmemb, hnmemb, hfirst, Nat.add_zero, Nat.mod_mod]
  · rw [slot_eq hnmemb, slot_eq hpow, hnmemb, hpow, hfirst, Nat.mod_add_mod]
    obtain ⟨q, hq⟩ := hdvd
    have hsum : rb.first + (2 ^ 64 - 1) + (i + 1) = rb.first + i + 2 ^ k * q := by omega
    rw [hsum, Nat.add_mul_mod_self_left]

theorem pushFront_eq {first : Nat}
    (hfirst : ((rb.first + (2 ^ 64 - 1)) % 2 ^ 64) &&& (rb.nmemb - 1) = first) (x : α) :
    rb.pushFront x = ⟨fun i => if i = first then x else rb.buf i, rb.nmemb, first,
      min rb.nmemb (rb.len + 1)⟩ := by
  subst hfirst
  rfl

/-- The new front takes the slot of the last item of a full ring and of no other. -/
theorem slot_eq_first_iff {k : Nat} (hk : k ≤ 64) (hpow : rb.nmemb = 2 ^ k) (x : α) {i : Nat}
    (hi : i < rb.nmemb) : rb.slot i = (rb.pushFront x).first ↔ i + 1 = rb.nmemb := by
  obtain ⟨hzero, hsucc⟩ := slot_pushFront hk hpow x
  have hpow' : (rb.pushFront x).nmemb = 2 ^ k := hpow
  have hnmemb : (rb.pushFront x).nmemb = rb.nmemb := rfl
  rw [← hsucc i, ← hzero, slot_eq hpow', slot_eq hpow', hnmemb]
  constructor
  · intro heq
    have hmod := Nat.ModEq.add_left_cancel' _ heq
    rw [Nat.ModEq, Nat.zero_mod] at hmod
    have := Nat.le_of_dvd (Nat.succ_pos i) (Nat.dvd_of_mod_eq_zero hmod)
    omega
  · intro hlast
    rw [hlast, Nat.add_mod_right, Nat.add_zero]

theorem Holds.pushFront (h : Holds rb xs) (x : α) :
    Holds (rb.pushFront x) ((x :: xs).take rb.nmemb) := by
  obtain ⟨k, hk, hpow⟩ := h.pow
  obtain ⟨hzero, hsucc⟩ := slot_pushFront hk hpow x
  have hpos : 0 < rb.nmemb := hpow ▸ Nat.two_pow_pos k
  have hlength : ((x :: xs).take rb.nmemb).length = min rb.nmemb (xs.length + 1) := by
    rw [List.length_take, List.length_cons]
  refine ⟨⟨k, hk, hpow⟩, ?_, ?_, fun i hi => ?_⟩
  · rw [hlength, ← h.len]
    rfl
  · rw [hlength]
    exact Nat.min_le_left _ _
  rw [List.get_eq_getElem, List.getElem_take]
  cases i with
  | zero =>
    rw [RingBuf.get, hzero]
    exact if_pos rfl
  | succ i =>
    -- The item keeps its slot, which is not the new front.
    have hi' : i < xs.length := by omega
    have hlt : i + 1 < rb.nmemb := Nat.lt_of_lt_of_le (hlength ▸ hi) (Nat.min_le_left _ _)
    have hne : rb.slot i ≠ (rb.pushFront x).first := fun heq =>
      Nat.ne_of_lt hlt ((slot_eq_first_iff hk hpow x (by omega)).1 heq)
    rw [RingBuf.get, hsucc]
    exact (if_neg hne).trans (h.items i hi')

end RingBuf
