import Polygon.Frame
import Polygon.Lib.RingBuf
import Polygon.Lib.Runs

/-!
# The ring buffer

`ngtcp2_ringbuf` of any capacity. A slot is written by whoever pushed it. Over the calls so
far stands the list of the pushes that are still in the ring, with the slot of each.
-/
namespace Ngtcp2

/-- `buf` by its slots: the element at a slot starts at `slot * size`. -/
structure Ringbuf (α : Type) where
  buf : Nat → α
  nmemb : Nat
  size : Nat
  first : Nat
  len : Nat

/-- `__builtin_popcount` of 32 bits. -/
def popcount (x : Nat) : Nat := ((List.range 32).filter fun i => x.testBit i).length

variable {α : Type}

/-- What `ngtcp2_ringbuf_init` writes: `first` comes from the size of an element. -/
def ringbufFresh (buf : Nat → α) (nmemb size : Nat) : Ringbuf α :=
  { buf, nmemb, size, first := subU64 size 1, len := 0 }

/-- Nothing where the assertion fails. -/
def ringbufInit (buf : Nat → α) (nmemb size : Nat) : Option (Ringbuf α) :=
  if popcount (nmemb % 2 ^ 32) = 1 then some (ringbufFresh buf nmemb size) else none

/-- The ring and the slot to write. -/
def ringbufPushFront (rb : Ringbuf α) : Ringbuf α × Nat :=
  let first := subU64 rb.first 1 &&& (rb.nmemb - 1)
  ({ rb with first, len := min rb.nmemb ((rb.len + 1) % 2 ^ 64) }, first)

/-- The caller stores to the slot it was given. -/
def Ringbuf.store (rb : Ringbuf α) (slot : Nat) (x : α) : Ringbuf α :=
  { rb with buf := fun i => if i = slot then x else rb.buf i }

def ringbufResize (rb : Ringbuf α) (len : Nat) : Option (Ringbuf α) :=
  if len ≤ rb.nmemb then some { rb with len } else none

/-- The slot at `offset`. -/
def ringbufGet (rb : Ringbuf α) (offset : Nat) : Option Nat :=
  if offset < rb.len then some ((rb.first + offset) % 2 ^ 64 &&& (rb.nmemb - 1)) else none

def ringbufLen (rb : Ringbuf α) : Nat := rb.len

/-- A call with what it returned and what the caller stored there. -/
inductive RingbufCall (α : Type) where
  | pushFront (slot : Nat) (x : α)
  | resize (len : Nat)

/-- One call. A resize only shrinks. -/
inductive RingbufStep : List (RingbufCall α) → Ringbuf α → RingbufCall α → Ringbuf α → Prop where
  | pushFront {calls : List (RingbufCall α)} {rb : Ringbuf α} (x : α) :
    RingbufStep calls rb (.pushFront (ringbufPushFront rb).2 x)
      ((ringbufPushFront rb).1.store (ringbufPushFront rb).2 x)
  | resize {calls : List (RingbufCall α)} {rb rb' : Ringbuf α} {len : Nat} (shrinks : len ≤ rb.len)
    (call : ringbufResize rb len = some rb') : RingbufStep calls rb (.resize len) rb'

/-- A bounded deque under a call: the oldest items leave. -/
def retainedStep (nmemb : Nat) (d : List (Nat × α)) : RingbufCall α → List (Nat × α)
  | .pushFront slot x => ((slot, x) :: d).take nmemb
  | .resize len => d.take len

/-- The pushes still in the deque, the most recent first. -/
def retained (nmemb : Nat) (calls : List (RingbufCall α)) : List (Nat × α) :=
  calls.foldl (retainedStep nmemb) []

theorem retained_snoc (nmemb : Nat) (calls : List (RingbufCall α)) (c : RingbufCall α) :
    retained nmemb (calls ++ [c]) = retainedStep nmemb (retained nmemb calls) c :=
  List.foldl_concat _ _ _ _

/-- The ring with the number of each slot beside its content. -/
def Ringbuf.numbered (rb : Ringbuf α) : RingBuf (Nat × α) :=
  ⟨fun i => (i, rb.buf i), rb.nmemb, rb.first, rb.len⟩

/-- The ring has its capacity and holds the pushes. -/
structure Ringbuf.Keeps (k : Nat) (rb : Ringbuf α) (d : List (Nat × α)) : Prop where
  nmemb : rb.nmemb = 2 ^ k
  holds : rb.numbered.Holds d

theorem subU64_one (a : Nat) : subU64 a 1 = (a + (2 ^ 64 - 1)) % 2 ^ 64 := by
  rw [subU64, Nat.add_sub_assoc Nat.one_le_two_pow]

theorem ringbufPushFront_slot (rb : Ringbuf α) :
    (ringbufPushFront rb).2 = (rb.first + (2 ^ 64 - 1)) % 2 ^ 64 &&& (rb.nmemb - 1) := by
  rw [ringbufPushFront, subU64_one]

theorem Ringbuf.Keeps.len_le {k : Nat} {rb : Ringbuf α} {d : List (Nat × α)} (h : rb.Keeps k d) :
    rb.len ≤ rb.nmemb := by
  have hlen : rb.len = d.length := h.holds.len
  rw [hlen]
  exact h.holds.fits

theorem ringbufPushFront_ring {k : Nat} (hk : k < 64) {rb : Ringbuf α} {d : List (Nat × α)}
    (h : rb.Keeps k d) : (ringbufPushFront rb).1 =
      { rb with first := (ringbufPushFront rb).2, len := min rb.nmemb (rb.len + 1) } := by
  have hlen := h.len_le
  have hhalf : 2 ^ k ≤ 2 ^ 63 := Nat.pow_le_pow_right Nat.two_pos (Nat.le_of_lt_succ hk)
  rw [h.nmemb] at hlen
  have hroom : (rb.len + 1) % 2 ^ 64 = rb.len + 1 := Nat.mod_eq_of_lt (by omega)
  simp only [ringbufPushFront, hroom]

/-- A push is one of the library on the numbered ring. -/
theorem numbered_pushFront {k : Nat} (hk : k < 64) {rb : Ringbuf α} {d : List (Nat × α)}
    (h : rb.Keeps k d) (x : α) :
    ((ringbufPushFront rb).1.store (ringbufPushFront rb).2 x).numbered =
      rb.numbered.pushFront ((ringbufPushFront rb).2, x) := by
  have hring := ringbufPushFront_ring hk h
  have hslot := ringbufPushFront_slot rb
  have hfirst : rb.first = rb.numbered.first := rfl
  have hnmemb : rb.nmemb = rb.numbered.nmemb := rfl
  rw [hfirst, hnmemb] at hslot
  rw [hring]
  generalize (ringbufPushFront rb).2 = s at hslot
  rw [RingBuf.pushFront_eq hslot.symm, RingBuf.mk.injEq]
  refine ⟨funext fun i => ?_, rfl, rfl, rfl⟩
  change (i, if i = s then x else rb.buf i) = if i = s then (s, x) else (i, rb.buf i)
  by_cases hi : i = s
  · rw [if_pos hi, if_pos hi, hi]
  · rw [if_neg hi, if_neg hi]

theorem RingbufStep.keeps {k : Nat} (hk : k < 64) {calls : List (RingbufCall α)}
    {rb rb' : Ringbuf α} {c : RingbufCall α} {d : List (Nat × α)} (h : rb.Keeps k d)
    (hstep : RingbufStep calls rb c rb') : rb'.Keeps k (retainedStep (2 ^ k) d c) := by
  cases hstep with
  | pushFront x =>
    have hholds := h.holds.pushFront ((ringbufPushFront rb).2, x)
    have hcap : rb.numbered.nmemb = 2 ^ k := h.nmemb
    rw [← numbered_pushFront hk h, hcap] at hholds
    refine ⟨?_, hholds⟩
    rw [ringbufPushFront_ring hk h]
    exact h.nmemb
  | resize shrinks call =>
    rw [ringbufResize, if_pos (Nat.le_trans shrinks h.len_le)] at call
    obtain rfl := Option.some.inj call
    exact ⟨h.nmemb, h.holds.resize shrinks⟩

theorem keeps_run {k : Nat} (hk : k < 64) {buf : Nat → α} {size : Nat}
    {calls : List (RingbufCall α)} {rb : Ringbuf α}
    (hrun : Runs.Run RingbufStep (ringbufFresh buf (2 ^ k) size) calls rb) :
    rb.Keeps k (retained (2 ^ k) calls) := by
  refine hrun.invariant (fun calls rb => rb.Keeps k (retained (2 ^ k) calls)) ?_ ?_
  · exact ⟨rfl, RingBuf.holds_nil _ (Nat.le_of_lt hk) _⟩
  · intro calls rb c rb' h hstep
    rw [retained_snoc]
    exact hstep.keeps hk h

theorem ringbufGet_eq {k : Nat} (hk : k < 64) {rb : Ringbuf α} {d : List (Nat × α)}
    (h : rb.Keeps k d) {i : Nat} (hi : i < rb.len) :
    ringbufGet rb i = some (rb.numbered.slot i) := by
  have hdvd : 2 ^ k ∣ 2 ^ 64 := Nat.pow_dvd_pow 2 (Nat.le_of_lt hk)
  have hslot : rb.numbered.slot i = (rb.first + i) % 2 ^ k := by
    rw [@RingBuf.slot_eq _ rb.numbered _ h.nmemb]
    exact congrArg ((rb.first + i) % ·) h.nmemb
  rw [ringbufGet, if_pos hi, h.nmemb, Nat.and_two_pow_sub_one_eq_mod, Nat.mod_mod_of_dvd _ hdvd,
    hslot]

theorem popcount_two_pow {k : Nat} (hk : k < 32) : popcount (2 ^ k % 2 ^ 32) = 1 := by
  revert k
  decide

/-- What a ring of `nmemb` slots is to its callers, when the pushes `d` are the ones retained. -/
structure Ringbuf.IsDeque (nmemb : Nat) (rb : Ringbuf α) (d : List (Nat × α)) : Prop where
  len_le : ringbufLen rb ≤ nmemb
  length : ringbufLen rb = d.length
  /-- The slot of every retained push, with what was stored there. -/
  get : ∀ i < ringbufLen rb, ∃ slot x, d[i]? = some (slot, x) ∧ ringbufGet rb i = some slot ∧
    slot < nmemb ∧ rb.buf slot = x
  push_lt : (ringbufPushFront rb).2 < nmemb
  /-- The next push writes to the slot of the oldest of `nmemb` pushes, and to no other. -/
  overwrites : ∀ i < ringbufLen rb,
    (ringbufGet rb i = some (ringbufPushFront rb).2 ↔ i + 1 = nmemb)
  resize : ∀ n ≤ ringbufLen rb, (ringbufResize rb n).isSome

theorem Ringbuf.Keeps.isDeque {k : Nat} (hk : k < 64) {rb : Ringbuf α} {d : List (Nat × α)}
    (h : rb.Keeps k d) : rb.IsDeque (2 ^ k) d := by
  have hpos : 0 < 2 ^ k := Nat.two_pow_pos k
  have hle := h.len_le
  have hcap : rb.numbered.nmemb = 2 ^ k := h.nmemb
  rw [h.nmemb] at hle
  refine ⟨hle, h.holds.len, fun i hi => ?_, ?_, fun i hi => ?_, fun n hn => ?_⟩
  · refine ⟨rb.numbered.slot i, rb.buf (rb.numbered.slot i), h.holds.get hi,
      ringbufGet_eq hk h hi, ?_, rfl⟩
    rw [RingBuf.slot_eq hcap, hcap]
    exact Nat.mod_lt _ hpos
  · rw [ringbufPushFront_slot, h.nmemb, Nat.and_two_pow_sub_one_eq_mod]
    exact Nat.mod_lt _ hpos
  · have hi' : i < rb.numbered.nmemb := by
      rw [hcap]
      exact Nat.lt_of_lt_of_le hi hle
    have hslot := ringbufPushFront_slot rb
    have hfirst : rb.first = rb.numbered.first := rfl
    have hnmemb : rb.nmemb = rb.numbered.nmemb := rfl
    rw [hfirst, hnmemb] at hslot
    have hiff := RingBuf.slot_eq_first_iff (Nat.le_of_lt hk) hcap
      ((ringbufPushFront rb).2, rb.buf 0) hi'
    rw [RingBuf.pushFront_eq hslot.symm, hcap] at hiff
    rw [ringbufGet_eq hk h hi, Option.some.injEq]
    exact hiff
  · have hlen : n ≤ rb.nmemb := Nat.le_trans hn h.len_le
    rw [ringbufResize, if_pos hlen]
    rfl

/-- After any pushes and shrinking resizes the ring is a deque of at most `2 ^ k` items. -/
theorem ringbuf_isDeque {k : Nat} (hk : k < 64) (size : Nat) (buf : Nat → α) :
    (k < 32 → ringbufInit buf (2 ^ k) size = some (ringbufFresh buf (2 ^ k) size)) ∧
    ∀ {calls : List (RingbufCall α)} {rb : Ringbuf α},
      Runs.Run RingbufStep (ringbufFresh buf (2 ^ k) size) calls rb →
      rb.IsDeque (2 ^ k) (retained (2 ^ k) calls) := by
  refine ⟨fun hsmall => ?_, fun hrun => (keeps_run hk hrun).isDeque hk⟩
  rw [ringbufInit, if_pos (popcount_two_pow hsmall)]

/-- The front of a fresh ring with elements of three bytes is in slot 1, then in slot 0. -/
theorem ringbuf_isDeque_two : ∃ rb : Ringbuf Nat,
    ringbufGet rb 0 = some 0 ∧ ringbufGet rb 1 = some 1 ∧ rb.IsDeque 2 [(0, 6), (1, 5)] := by
  refine ⟨_, ?_, ?_, (ringbuf_isDeque (k := 1) (by decide) 3 fun _ => 0).2
    ((Runs.Run.nil.snoc (.pushFront 5)).snoc (.pushFront 6))⟩
  · decide
  · decide

end Ngtcp2
