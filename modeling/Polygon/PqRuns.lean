import Polygon.Lib.Runs
import Polygon.PqIndex
import Polygon.PqOrder

/-!
# Runs of the heap

What `ngtcp2_pq` is after any calls. The ordering test reads the items in memory, to which the
callback of `ngtcp2_pq_update` writes, and the callers between two calls.
-/
namespace Pq

variable {α M : Type} [DecidableEq α]

/-- `fun` on the items in turn: whether some call returned nonzero, and the memory after them. -/
def updateEach (fn : α → M → Bool × M) : List α → M → Bool × M
  | [], m => (false, m)
  | x :: xs, m =>
    let r := fn x m
    let r' := updateEach fn xs r.2
    (r.1 || r'.1, r'.2)

/-- `bubble_down` at every position below the given one, the last of them first. -/
def Indexed.rebuild (less : α → α → Bool) : Nat → Indexed α → Indexed α
  | 0, p => p
  | i + 1, p => rebuild less i (bubbleDown less p.q.length p i)

def Indexed.update (less : M → α → α → Bool) (fn : α → M → Bool × M) (p : Indexed α) (m : M) :
    Indexed α × M :=
  if p.q.length = 0 then (p, m)
  else
    let r := updateEach fn p.q m
    (if r.1 then rebuild (less r.2) p.q.length p else p, r.2)

/-- The heap and the memory of its items. -/
structure PqState (α M : Type) where
  pq : Indexed α
  mem : M

/-- A call, or a write of the callers. What is popped was the top. -/
inductive PqCall (α : Type) where
  | push (item : α)
  | pop (item : Option α)
  | remove (item : α)
  | update
  | write

/-- The items are in the same order in both memories. -/
def SameOrder (le : M → α → α → Prop) (q : List α) (m m' : M) : Prop :=
  ∀ x ∈ q, ∀ y ∈ q, le m x y ↔ le m' x y

/-- One call. An item is pushed while it is not contained; `fun` returns nonzero where it affects
the order, as its documentation asks; no other write affects the order of the contained items. -/
inductive PqStep (less : M → α → α → Bool) (le : M → α → α → Prop) :
    List (PqCall α) → PqState α M → PqCall α → PqState α M → Prop where
  | push {calls : List (PqCall α)} {p : Indexed α} {m : M} {item : α} (new : item ∉ p.q) :
    PqStep less le calls ⟨p, m⟩ (.push item) ⟨p.push (less m) item, m⟩
  | pop {calls : List (PqCall α)} {p : Indexed α} {m : M} :
    PqStep less le calls ⟨p, m⟩ (.pop (top p.q)) ⟨p.pop (less m), m⟩
  | remove {calls : List (PqCall α)} {p p' : Indexed α} {m : M} {item : α}
    (contained : item ∈ p.q) (call : p.remove (less m) item = some p') :
    PqStep less le calls ⟨p, m⟩ (.remove item) ⟨p', m⟩
  | update {calls : List (PqCall α)} {p : Indexed α} {m : M} {fn : α → M → Bool × M}
    (affects : ∀ x ∈ p.q, ∀ m, (fn x m).1 = false → SameOrder le p.q m (fn x m).2) :
    PqStep less le calls ⟨p, m⟩ .update ⟨(p.update less fn m).1, (p.update less fn m).2⟩
  | write {calls : List (PqCall α)} {p : Indexed α} {m m' : M} (same : SameOrder le p.q m m') :
    PqStep less le calls ⟨p, m⟩ .write ⟨p, m'⟩

def heldStep (held : List α) : PqCall α → List α
  | .push item => item :: held
  | .pop none => held
  | .pop (some item) => held.erase item
  | .remove item => held.erase item
  | .update => held
  | .write => held

/-- The items pushed and not removed since. -/
def held (calls : List (PqCall α)) : List α := calls.foldl heldStep []

theorem held_snoc (calls : List (PqCall α)) (c : PqCall α) :
    held (calls ++ [c]) = heldStep (held calls) c :=
  List.foldl_concat _ _ _ _

/-- What the heap is to its callers, who hold the items `held`. -/
structure PqHolds (less : α → α → Bool) (le : α → α → Prop) (p : Indexed α) (held : List α) :
    Prop where
  heap : HeapFrom le 0 p.q
  index : ∀ i x, p.q[i]? = some x → p.index x = i
  contents : p.q.Perm held
  remove : ∀ item ∈ held, (p.remove less item).isSome
  top_least : ∀ x, top p.q = some x → x ∈ held ∧ ∀ y ∈ held, le x y
  top_none : top p.q = none ↔ held = []

/-! ## Rebuilding the heap -/

section
variable {less : α → α → Bool} {le : α → α → Prop} {p : Indexed α}

theorem rebuild_heap (hless : Compares less le) {n : Nat} (h : HeapFrom le n p.q) :
    HeapFrom le 0 (p.rebuild less n).q := by
  induction n generalizing p with
  | zero => exact h
  | succ n ih =>
    apply ih
    rw [Indexed.bubbleDown_q]
    exact sink_heap hless h

theorem rebuild_ok (h : p.Ok) (n : Nat) : (p.rebuild less n).Ok := by
  induction n generalizing p with
  | zero => exact h
  | succ n ih => exact ih (h.bubbleDown less _ _)

theorem rebuild_perm (less : α → α → Bool) (p : Indexed α) (n : Nat) :
    (p.rebuild less n).q.Perm p.q := by
  induction n generalizing p with
  | zero => exact List.Perm.refl _
  | succ n ih =>
    refine (ih _).trans ?_
    rw [Indexed.bubbleDown_q]
    exact bubbleDown_perm less _ _ _

end

/-! ## What one call keeps -/

section
variable {less : M → α → α → Bool} {le : M → α → α → Prop} {p : Indexed α} {m m' : M}

omit [DecidableEq α] in
theorem HeapFrom.congr {q : List α} (h : HeapFrom (le m) 0 q) (hsame : SameOrder le q m m') :
    HeapFrom (le m') 0 q := by
  intro i x y hi hlo hx hy
  exact (hsame y (List.mem_of_getElem? hy) x (List.mem_of_getElem? hx)).mp (h i x y hi hlo hx hy)

omit [DecidableEq α] in
/-- Where `fun` returned zero for every item the order is the old one. -/
theorem updateEach_same {fn : α → M → Bool × M} {q xs : List α} (hsub : xs ⊆ q)
    (haffects : ∀ x ∈ q, ∀ m, (fn x m).1 = false → SameOrder le q m (fn x m).2)
    (hzero : (updateEach fn xs m).1 = false) : SameOrder le q m (updateEach fn xs m).2 := by
  induction xs generalizing m with
  | nil => exact fun x _ y _ => Iff.rfl
  | cons x xs ih =>
    rw [updateEach, Bool.or_eq_false_iff] at hzero
    have hfirst := haffects x (hsub (.head _)) m hzero.1
    have hrest := ih (fun y hy => hsub (.tail _ hy)) hzero.2
    exact fun y hy z hz => (hfirst y hy z hz).trans (hrest y hy z hz)

/-- The heap order, the positions and the items. -/
structure Keeps (le : M → α → α → Prop) (s : PqState α M) (held : List α) : Prop where
  heap : HeapFrom (le s.mem) 0 s.pq.q
  index : s.pq.Ok
  contents : s.pq.q.Perm held

theorem update_keeps (hless : ∀ m, Compares (less m) (le m)) {fn : α → M → Bool × M} {l : List α}
    (h : Keeps le ⟨p, m⟩ l)
    (haffects : ∀ x ∈ p.q, ∀ m, (fn x m).1 = false → SameOrder le p.q m (fn x m).2) :
    Keeps le ⟨(p.update less fn m).1, (p.update less fn m).2⟩ l := by
  unfold Indexed.update
  dsimp only
  split
  · exact h
  cases hrv : (updateEach fn p.q m).1 with
  | false =>
    have hsame := updateEach_same (List.Subset.refl _) haffects hrv
    exact ⟨h.heap.congr hsame, h.index, h.contents⟩
  | true =>
    exact ⟨rebuild_heap (hless _) (heapFrom_length _), rebuild_ok h.index _,
      (rebuild_perm _ _ _).trans h.contents⟩

theorem pop_perm_erase {less : α → α → Bool} {l : List α} (h : p.q.Perm l) :
    (p.pop less).q.Perm (heldStep l (.pop (top p.q))) := by
  rw [Indexed.pop_q]
  cases htop : top p.q with
  | none =>
    have hnil : p.q = [] := List.head?_eq_none_iff.mp htop
    rw [hnil] at h ⊢
    exact h
  | some x => exact (List.cons_perm_iff_perm_erase.mp ((pop_perm less htop).trans h)).2

theorem remove_keeps (hless : ∀ m, Compares (less m) (le m)) {p' : Indexed α} {item : α}
    {l : List α} (h : Keeps le ⟨p, m⟩ l) (hmem : item ∈ p.q)
    (hcall : p.remove (less m) item = some p') : Keeps le ⟨p', m⟩ (l.erase item) := by
  obtain ⟨p'', hcall', hq, hok⟩ := h.index.remove hmem (less m)
  obtain rfl := Option.some.inj (hcall.symm.trans hcall')
  obtain ⟨i, hi⟩ := List.getElem?_of_mem hmem
  obtain rfl := h.index i item hi
  obtain ⟨hlt, hget⟩ := List.getElem?_eq_some_iff.mp hi
  refine ⟨?_, hok, ?_⟩
  · show HeapFrom (le m) 0 p'.q
    rw [hq]
    exact removeAt_heap (hless m) h.heap _
  · have hperm := removeAt_perm (less m) hlt
    rw [hget, ← hq] at hperm
    exact (List.cons_perm_iff_perm_erase.mp (hperm.trans h.contents)).2

theorem PqStep.keeps (hless : ∀ m, Compares (less m) (le m)) {calls : List (PqCall α)}
    {s s' : PqState α M} {c : PqCall α} {l : List α} (h : Keeps le s l)
    (hstep : PqStep less le calls s c s') : Keeps le s' (heldStep l c) := by
  cases hstep with
  | @push p m item new =>
    refine ⟨?_, h.index.push new _, ?_⟩
    · show HeapFrom (le m) 0 (p.push (less m) item).q
      rw [Indexed.push_q]
      exact push_heap (hless m) h.heap item
    · show (p.push (less m) item).q.Perm (item :: l)
      rw [Indexed.push_q]
      exact (push_perm _ _ _).trans (h.contents.cons _)
  | @pop p m =>
    refine ⟨?_, h.index.pop _, pop_perm_erase h.contents⟩
    show HeapFrom (le m) 0 (p.pop (less m)).q
    rw [Indexed.pop_q]
    exact pop_heap (hless m) h.heap
  | remove contained call => exact remove_keeps hless h contained call
  | update affects => exact update_keeps hless h affects
  | write same => exact ⟨h.heap.congr same, h.index, h.contents⟩

theorem Keeps.holds (hless : ∀ m, Compares (less m) (le m)) {s : PqState α M} {l : List α}
    (h : Keeps le s l) : PqHolds (less s.mem) (le s.mem) s.pq l where
  heap := h.heap
  index := h.index
  contents := h.contents
  remove item hitem := by
    obtain ⟨p', hcall, -⟩ := h.index.remove (h.contents.symm.subset hitem) (less s.mem)
    rw [hcall]
    rfl
  top_least x htop :=
    ⟨h.contents.subset (List.mem_of_mem_head? htop),
      fun y hy => h.heap.top_least (hless _) htop y (h.contents.symm.subset hy)⟩
  top_none := by
    rw [top, List.head?_eq_none_iff]
    exact ⟨fun hnil => (hnil ▸ h.contents).nil_eq.symm, fun hnil => (hnil ▸ h.contents).eq_nil⟩

/-- Whatever was called, the heap holds the items pushed and not removed, and the top is least. -/
theorem pq_holds (hless : ∀ m, Compares (less m) (le m)) {index : α → Nat} {mem : M}
    {calls : List (PqCall α)} {s : PqState α M}
    (hrun : Runs.Run (PqStep less le) ⟨⟨[], index⟩, mem⟩ calls s) :
    PqHolds (less s.mem) (le s.mem) s.pq (held calls) := by
  refine Keeps.holds hless (hrun.invariant (fun calls s => Keeps le s (held calls)) ?_ ?_)
  · exact ⟨heapFrom_length [], fun i x hx => (by cases hx), List.Perm.refl _⟩
  · intro calls s c s' h hstep
    rw [held_snoc]
    exact hstep.keeps hless h

end

/-- Two items by what the memory has for them, the smaller one pushed last. -/
theorem pq_holds_two : ∃ s : PqState Nat (Nat → Nat), top s.pq.q = some 1 ∧
    PqHolds (fun x y => decide (s.mem x < s.mem y)) (fun x y => s.mem x ≤ s.mem y) s.pq [1, 0] := by
  have hless : ∀ m : Nat → Nat, Compares (fun x y => decide (m x < m y)) fun x y => m x ≤ m y :=
    fun m => compares_strict (fun _ _ => Nat.le_total _ _) Nat.le_trans fun x y => by simp
  refine ⟨_, ?_, pq_holds hless ((Runs.Run.nil.snoc (.push (p := ⟨[], id⟩) (m := (5 - ·)) ?_)).snoc
    (.push ?_))⟩
  · decide
  · decide
  · decide

end Pq
