import Mathlib.Data.List.Perm.Basic

/-!
# Binary heaps in an array

The array form of `ngtcp2_pq` over an arbitrary ordering test: an item moves by
swaps with its parent or its children.
-/
namespace Pq

variable {α : Type}

/-- Exchanges the items at two positions. -/
def swap (q : List α) (i j : Nat) : List α :=
  match q[i]?, q[j]? with
  | some a, some b => (q.set i b).set j a
  | _, _ => q

/-- Moves the item at `index` towards the root; the fuel bounds the depth. -/
def bubbleUp (less : α → α → Bool) : Nat → List α → Nat → List α
  | 0, q, _ => q
  | fuel + 1, q, index =>
    if index = 0 then q
    else
      let parent := (index - 1) / 2
      match q[index]?, q[parent]? with
      | some x, some p => if less x p then bubbleUp less fuel (swap q parent index) parent else q
      | _, _ => q

/-- The position `j` if its item is less than the one at `minindex`. -/
def pickMin (less : α → α → Bool) (q : List α) (minindex j : Nat) : Nat :=
  match q[j]?, q[minindex]? with
  | some x, some m => if less x m then j else minindex
  | _, _ => minindex

/-- Moves the item at `index` towards the leaves; the fuel bounds the depth. -/
def bubbleDown (less : α → α → Bool) : Nat → List α → Nat → List α
  | 0, q, _ => q
  | fuel + 1, q, index =>
    let minindex := pickMin less q (pickMin less q index (index * 2 + 1)) (index * 2 + 2)
    if minindex = index then q else bubbleDown less fuel (swap q index minindex) minindex

def push (less : α → α → Bool) (q : List α) (item : α) : List α :=
  bubbleUp less q.length (q ++ [item]) q.length

def top (q : List α) : Option α := q.head?

/-- Removes the item at the root, whose place the last item takes. -/
def pop (less : α → α → Bool) (q : List α) : List α :=
  match q.getLast? with
  | none => q
  | some l => let q' := (q.set 0 l).dropLast; bubbleDown less q'.length q' 0

/-- Removes the item at `index`. -/
def removeAt (less : α → α → Bool) (q : List α) (index : Nat) : List α :=
  if index = 0 then pop less q
  else if index = q.length - 1 then q.dropLast
  else
    match q[index]?, q.getLast? with
    | some item, some l =>
      let q' := (q.set index l).dropLast
      if less item l then bubbleDown less q'.length q' index else bubbleUp less q'.length q' index
    | _, _ => q

theorem swap_perm (q : List α) (i j : Nat) : (swap q i j).Perm q := by
  unfold swap
  split
  · next a b ha hb =>
    obtain ⟨hi, rfl⟩ := List.getElem?_eq_some_iff.mp ha
    obtain ⟨hj, rfl⟩ := List.getElem?_eq_some_iff.mp hb
    exact List.set_set_perm hi hj
  · exact List.Perm.refl _

theorem bubbleUp_perm (less : α → α → Bool) (fuel : Nat) (q : List α) (index : Nat) :
    (bubbleUp less fuel q index).Perm q := by
  induction fuel generalizing q index with
  | zero => exact List.Perm.refl _
  | succ fuel ih =>
    simp only [bubbleUp]
    split
    · exact List.Perm.refl _
    · split
      · split
        · exact (ih _ _).trans (swap_perm q _ _)
        · exact List.Perm.refl _
      · exact List.Perm.refl _

theorem bubbleDown_perm (less : α → α → Bool) (fuel : Nat) (q : List α) (index : Nat) :
    (bubbleDown less fuel q index).Perm q := by
  induction fuel generalizing q index with
  | zero => exact List.Perm.refl _
  | succ fuel ih =>
    simp only [bubbleDown]
    split
    · exact List.Perm.refl _
    · exact (ih _ _).trans (swap_perm q _ _)

theorem push_perm (less : α → α → Bool) (q : List α) (item : α) :
    (push less q item).Perm (item :: q) :=
  (bubbleUp_perm less _ _ _).trans (List.perm_append_singleton _ _)

/-- Overwriting a position with the last item and cutting the end removes that position. -/
theorem set_getLast_dropLast_perm {q : List α} {index : Nat} (hi : index < q.length)
    (hne : q ≠ []) :
    (q[index] :: (q.set index (q.getLast hne)).dropLast).Perm q := by
  obtain ⟨q', l, rfl⟩ : ∃ q' l, q = q' ++ [l] := ⟨_, _, (List.dropLast_append_getLast hne).symm⟩
  rw [List.getLast_append_singleton]
  by_cases hlt : index < q'.length
  · rw [List.set_append_left _ _ hlt, List.dropLast_concat, List.getElem_append_left hlt]
    have hset := List.set_perm_cons_eraseIdx hlt l
    have hget := List.getElem_cons_eraseIdx_perm hlt
    refine ((hset.cons _).trans (List.Perm.swap _ _ _)).trans ?_
    exact (hget.cons l).trans (List.perm_append_singleton _ _).symm
  · have he : index = q'.length := by
      rw [List.length_append, List.length_singleton] at hi
      omega
    subst he
    simp only [List.getElem_concat_length, List.set_append_right _ _ (Nat.le_refl _), Nat.sub_self,
      List.set_cons_zero, List.dropLast_concat]
    exact (List.perm_append_singleton _ _).symm

theorem pop_perm (less : α → α → Bool) {q : List α} {x : α} (h : top q = some x) :
    (x :: pop less q).Perm q := by
  obtain ⟨q', rfl⟩ : ∃ q', q = x :: q' := List.head?_eq_some_iff.mp h
  have hlast : (x :: q').getLast? = some ((x :: q').getLast (by simp)) :=
    List.getLast?_eq_some_getLast (by simp)
  simp only [pop, hlast]
  exact ((bubbleDown_perm less _ _ _).cons x).trans
    (@set_getLast_dropLast_perm _ (x :: q') 0 (by simp) (by simp))

theorem removeAt_perm (less : α → α → Bool) {q : List α} {index : Nat} (hi : index < q.length) :
    (q[index] :: removeAt less q index).Perm q := by
  have hne : q ≠ [] := by
    rintro rfl
    simp at hi
  unfold removeAt
  split
  · next h0 =>
    subst h0
    refine pop_perm less ?_
    rw [top, List.head?_eq_getElem?, List.getElem?_eq_getElem hi]
  split
  · next hl =>
    have hlast : q[index] = q.getLast hne := by
      rw [List.getLast_eq_getElem]
      congr 1
    rw [hlast]
    exact (List.perm_append_singleton _ _).symm.trans (by rw [List.dropLast_append_getLast hne])
  · rw [List.getElem?_eq_getElem hi, List.getLast?_eq_some_getLast hne]
    dsimp only
    split
    · exact ((bubbleDown_perm less _ _ _).cons _).trans (set_getLast_dropLast_perm hi hne)
    · exact ((bubbleUp_perm less _ _ _).cons _).trans (set_getLast_dropLast_perm hi hne)

end Pq
