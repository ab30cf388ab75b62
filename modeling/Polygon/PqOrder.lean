import Mathlib.Algebra.Order.Ring.Nat
import Polygon.Pq

/-!
# The order of the heap

No item is before its parent, so none is before the top. While an item moves, only the pairs it
belongs to can be out of order.
-/
namespace Pq

variable {α β : Type} {less : α → α → Bool} {le : α → α → Prop} {q : List α} {x : α}

/-- The test answers as a total preorder, strictly or not: which of the two it says of items
that are equal to the order is left open. -/
structure Compares (less : α → α → Bool) (le : α → α → Prop) : Prop where
  trans : ∀ {x y z}, le x y → le y z → le x z
  le_of_less : ∀ {x y}, less x y = true → le x y
  le_of_not_less : ∀ {x y}, ¬less x y = true → le y x

theorem Compares.refl (h : Compares less le) (x : α) : le x x := by
  by_cases hx : less x x = true
  · exact h.le_of_less hx
  · exact h.le_of_not_less hx

/-- A test that is a total preorder itself. -/
theorem compares_weak (total : ∀ x y, less x y = true ∨ less y x = true)
    (trans : ∀ {x y z}, less x y = true → less y z = true → less x z = true) :
    Compares less fun x y => less x y = true where
  trans := trans
  le_of_less hless := hless
  le_of_not_less hless := (total _ _).resolve_left hless

/-- A test for the strict part of a total preorder. -/
theorem compares_strict (total : ∀ x y, le x y ∨ le y x)
    (trans : ∀ {x y z}, le x y → le y z → le x z) (hless : ∀ x y, less x y = true ↔ ¬le y x) :
    Compares less le where
  trans := trans
  le_of_less h := (total _ _).resolve_right ((hless _ _).mp h)
  le_of_not_less h := by
    rw [hless] at h
    exact not_not.mp h

/-- No item is before its parent, for the parents from `lo` on. -/
def HeapFrom (le : α → α → Prop) (lo : Nat) (q : List α) : Prop :=
  ∀ i x p, 0 < i → lo ≤ (i - 1) / 2 → q[i]? = some x → q[(i - 1) / 2]? = some p → le p x

/-- The children of `k` and its parent are in order. -/
def Spans (le : α → α → Prop) (lo : Nat) (q : List α) (k : Nat) : Prop :=
  ∀ i x p, 0 < i → (i - 1) / 2 = k → 0 < k → lo ≤ (k - 1) / 2 → q[i]? = some x →
    q[(k - 1) / 2]? = some p → le p x

/-- Only the item at `k` and its parent may be out of order. -/
structure UpTo (le : α → α → Prop) (q : List α) (k : Nat) : Prop where
  other : ∀ i x p, 0 < i → i ≠ k → q[i]? = some x → q[(i - 1) / 2]? = some p → le p x
  spans : Spans le 0 q k

/-- Only the item at `k` and its children may be out of order. -/
structure DownFrom (le : α → α → Prop) (lo : Nat) (q : List α) (k : Nat) : Prop where
  other : ∀ i x p, 0 < i → (i - 1) / 2 ≠ k → lo ≤ (i - 1) / 2 → q[i]? = some x →
    q[(i - 1) / 2]? = some p → le p x
  spans : Spans le lo q k

/-! ## The top -/

theorem HeapFrom.least (hless : Compares less le) (h : HeapFrom le 0 q) {i : Nat}
    (htop : top q = some x) {y : α} (hy : q[i]? = some y) : le x y := by
  rw [top, List.head?_eq_getElem?] at htop
  induction i using Nat.strongRecOn generalizing y with
  | ind i ih =>
    by_cases hi : i = 0
    · subst hi
      obtain rfl := Option.some.inj (htop.symm.trans hy)
      exact hless.refl _
    · have hlt : i < q.length := (List.getElem?_eq_some_iff.mp hy).1
      have hparent : (i - 1) / 2 < i := by omega
      have hp : q[(i - 1) / 2]? = some q[(i - 1) / 2] :=
        List.getElem?_eq_getElem (Nat.lt_trans hparent hlt)
      exact hless.trans (ih _ hparent hp)
        (h i y _ (Nat.pos_of_ne_zero hi) (Nat.zero_le _) hy hp)

/-- No item is before the top. -/
theorem HeapFrom.top_least (hless : Compares less le) (h : HeapFrom le 0 q)
    (htop : top q = some x) : ∀ y ∈ q, le x y := by
  intro y hy
  obtain ⟨i, hi⟩ := List.getElem?_of_mem hy
  exact h.least hless htop hi

/-! ## Moving towards the root -/

theorem swap_getElem? {i j : Nat} {a b : α} (hi : q[i]? = some a) (hj : q[j]? = some b) (n : Nat) :
    (swap q i j)[n]? = if n = j then some a else if n = i then some b else q[n]? := by
  obtain ⟨hilt, -⟩ := List.getElem?_eq_some_iff.mp hi
  obtain ⟨hjlt, -⟩ := List.getElem?_eq_some_iff.mp hj
  unfold swap
  rw [hi, hj]
  dsimp only
  rw [List.getElem?_set, List.getElem?_set, List.length_set]
  by_cases hnj : n = j
  · rw [if_pos hnj.symm, if_pos hjlt, if_pos hnj]
  · rw [if_neg (Ne.symm hnj), if_neg hnj]
    by_cases hni : n = i
    · rw [if_pos hni.symm, if_pos hilt, if_pos hni]
    · rw [if_neg (Ne.symm hni), if_neg hni]

/-- An item that is less than its parent moves one level up. -/
theorem UpTo.move (hless : Compares less le) {k : Nat} {p : α} (h : UpTo le q k) (hk : k ≠ 0)
    (hx : q[k]? = some x) (hp : q[(k - 1) / 2]? = some p) (hle : le x p) :
    UpTo le (swap q ((k - 1) / 2) k) ((k - 1) / 2) := by
  have hget := swap_getElem? hp hx
  constructor
  · intro i y r hi hne hy hr
    rw [hget] at hy hr
    by_cases hik : i = k
    · subst hik
      rw [if_pos rfl] at hy
      rw [if_neg (by omega), if_pos rfl] at hr
      obtain rfl := Option.some.inj hy
      obtain rfl := Option.some.inj hr
      exact hle
    rw [if_neg hik, if_neg hne] at hy
    by_cases hpar : (i - 1) / 2 = k
    · rw [if_pos hpar] at hr
      obtain rfl := Option.some.inj hr
      exact h.spans i y p hi hpar (Nat.pos_of_ne_zero hk) (Nat.zero_le _) hy hp
    rw [if_neg hpar] at hr
    by_cases hsib : (i - 1) / 2 = (k - 1) / 2
    · rw [if_pos hsib] at hr
      obtain rfl := Option.some.inj hr
      exact hless.trans hle (h.other i y p hi hik hy (hsib ▸ hp))
    · rw [if_neg hsib] at hr
      exact h.other i y r hi hik hy hr
  · intro i y r hi hpar hpos _ hy hr
    rw [hget] at hy hr
    rw [if_neg (by omega), if_neg (by omega)] at hr
    have hgrand : le r p := h.other _ p r hpos (by omega) hp hr
    by_cases hik : i = k
    · rw [if_pos hik] at hy
      obtain rfl := Option.some.inj hy
      exact hgrand
    · rw [if_neg hik, if_neg (by omega)] at hy
      exact hless.trans hgrand (h.other i y p hi hik hy (hpar ▸ hp))

theorem UpTo.finish {k : Nat} (h : UpTo le q k)
    (hstop : ∀ x p, 0 < k → q[k]? = some x → q[(k - 1) / 2]? = some p → le p x) :
    HeapFrom le 0 q := by
  intro i x p hi _ hx hp
  by_cases hik : i = k
  · subst hik
    exact hstop x p hi hx hp
  · exact h.other i x p hi hik hx hp

theorem bubbleUp_heap (hless : Compares less le) {fuel k : Nat} (hfuel : k ≤ fuel)
    (h : UpTo le q k) : HeapFrom le 0 (bubbleUp less fuel q k) := by
  induction fuel generalizing q k with
  | zero => exact h.finish fun _ _ hk => by omega
  | succ fuel ih =>
    unfold bubbleUp
    dsimp only
    split
    · next hk => exact h.finish fun _ _ hpos => by omega
    next hk =>
    split
    · next x p hx hp =>
      split
      · next hlt => exact ih (by omega) (h.move hless hk hx hp (hless.le_of_less hlt))
      · next hge =>
        apply h.finish
        intro x' p' _ hx' hp'
        obtain rfl := Option.some.inj (hx.symm.trans hx')
        obtain rfl := Option.some.inj (hp.symm.trans hp')
        exact hless.le_of_not_less hge
    · next hnone => exact h.finish fun x p _ hx hp => absurd hp (hnone x p hx)

/-! ## Moving towards the leaves -/

/-- The position that was picked, with an item not above either of the two. -/
theorem pickMin_cases (hless : Compares less le) (q : List α) {m j : Nat} (hm : q[m]? = some x) :
    ∃ y, q[pickMin less q m j]? = some y ∧ le y x ∧ (∀ z, q[j]? = some z → le y z) ∧
      (pickMin less q m j = m ∨ pickMin less q m j = j) := by
  unfold pickMin
  rw [hm]
  cases hj : q[j]? with
  | none => exact ⟨x, hm, hless.refl _, nofun, .inl rfl⟩
  | some z =>
    dsimp only
    split
    · next hlt =>
      refine ⟨z, hj, hless.le_of_less hlt, fun w hw => ?_, .inr rfl⟩
      obtain rfl := Option.some.inj hw
      exact hless.refl _
    · next hge =>
      refine ⟨x, hm, hless.refl _, fun w hw => ?_, .inl rfl⟩
      obtain rfl := Option.some.inj hw
      exact hless.le_of_not_less hge

/-- The child that takes the place of a larger item. -/
theorem DownFrom.move {lo k m : Nat} {y : α} (h : DownFrom le lo q k) (hlo : lo ≤ k)
    (hchild : 0 < m ∧ (m - 1) / 2 = k) (hx : q[k]? = some x) (hy : q[m]? = some y) (hle : le y x)
    (hmin : ∀ i z, 0 < i → (i - 1) / 2 = k → q[i]? = some z → le y z) :
    DownFrom le lo (swap q k m) m := by
  have hget := swap_getElem? hx hy
  obtain ⟨hm, hpar⟩ := hchild
  constructor
  · intro i z r hi hne hpos hz hr
    rw [hget] at hz hr
    rw [if_neg hne] at hr
    by_cases him : i = m
    · subst him
      rw [if_pos rfl] at hz
      rw [if_pos hpar] at hr
      obtain rfl := Option.some.inj hz
      obtain rfl := Option.some.inj hr
      exact hle
    rw [if_neg him] at hz
    by_cases hik : i = k
    · subst hik
      rw [if_pos rfl] at hz
      rw [if_neg (by omega)] at hr
      obtain rfl := Option.some.inj hz
      exact h.spans m y r hm hpar hi hpos hy hr
    rw [if_neg hik] at hz
    by_cases hpar' : (i - 1) / 2 = k
    · rw [if_pos hpar'] at hr
      obtain rfl := Option.some.inj hr
      exact hmin i z hi hpar' hz
    · rw [if_neg hpar'] at hr
      exact h.other i z r hi hpar' hpos hz hr
  · intro i z r hi hpar' hpos _ hz hr
    rw [hget] at hz hr
    rw [if_neg (by omega), if_neg (by omega)] at hz
    rw [if_neg (by omega), if_pos hpar] at hr
    obtain rfl := Option.some.inj hr
    exact h.other i z y hi (by omega) (by omega) hz (hpar' ▸ hy)

theorem DownFrom.finish {lo k : Nat} (h : DownFrom le lo q k)
    (hstop : ∀ i x p, 0 < i → (i - 1) / 2 = k → q[i]? = some x → q[k]? = some p → le p x) :
    HeapFrom le lo q := by
  intro i x p hi hpos hx hp
  by_cases hpar : (i - 1) / 2 = k
  · exact hstop i x p hi hpar hx (hpar ▸ hp)
  · exact h.other i x p hi hpar hpos hx hp

theorem bubbleDown_heap (hless : Compares less le) {fuel lo k : Nat}
    (hfuel : q.length ≤ fuel + k) (hlo : lo ≤ k) (h : DownFrom le lo q k) :
    HeapFrom le lo (bubbleDown less fuel q k) := by
  induction fuel generalizing q k with
  | zero =>
    apply h.finish
    intro i x p hi hpar hx hp
    have := (List.getElem?_eq_some_iff.mp hp).1
    omega
  | succ fuel ih =>
    unfold bubbleDown
    dsimp only
    cases hx : q[k]? with
    | none =>
      have hpick : ∀ j, pickMin less q k j = k := fun j => by
        unfold pickMin
        rw [hx]
        split <;> simp_all
      rw [hpick, hpick, if_pos rfl]
      exact h.finish fun i x p _ _ _ hp => by cases hx.symm.trans hp
    | some x =>
      obtain ⟨y, hy, hyx, hleft, hpick⟩ := pickMin_cases hless q (j := k * 2 + 1) hx
      obtain ⟨z, hz, hzy, hright, hpick'⟩ := pickMin_cases hless q (j := k * 2 + 2) hy
      generalize pickMin less q k (k * 2 + 1) = m at hy hpick hz hright hpick' ⊢
      generalize pickMin less q m (k * 2 + 2) = m' at hz hpick' ⊢
      have hchildren : ∀ i w, 0 < i → (i - 1) / 2 = k → q[i]? = some w → le z w := by
        intro i w hi hpar hw
        have hside : i = k * 2 + 1 ∨ i = k * 2 + 2 := by omega
        rcases hside with rfl | rfl
        · exact hless.trans hzy (hleft w hw)
        · exact hright w hw
      split
      · next hstay =>
        subst hstay
        obtain rfl := Option.some.inj (hx.symm.trans hz)
        apply h.finish
        intro i w p hi hpar hw hp
        obtain rfl := Option.some.inj (hx.symm.trans hp)
        exact hchildren i w hi hpar hw
      · next hmove =>
        have hchild : 0 < m' ∧ (m' - 1) / 2 = k := by
          rcases hpick' with rfl | rfl
          · rcases hpick with rfl | rfl
            · exact absurd rfl hmove
            · exact ⟨by omega, by omega⟩
          · exact ⟨by omega, by omega⟩
        have hlength := (swap_perm q k m').length_eq
        exact ih (by omega) (by omega)
          (h.move hlo hchild hx hz (hless.trans hzy hyx) hchildren)

/-- Above a heap from `k + 1` on, the item at `k` sinks. -/
theorem sink_heap (hless : Compares less le) {k : Nat} (h : HeapFrom le (k + 1) q) :
    HeapFrom le k (bubbleDown less q.length q k) := by
  apply bubbleDown_heap hless (Nat.le_add_right _ _) (Nat.le_refl _)
  constructor
  · intro i x y hi hne hk hx hy
    exact h i x y hi (by omega) hx hy
  · intro i x y hi hpar hpos hk
    omega

/-- Nothing is below the last position. -/
theorem heapFrom_length (q : List α) : HeapFrom le q.length q := by
  intro i x y hi hlen hx hy
  have := (List.getElem?_eq_some_iff.mp hy).1
  omega

/-! ## The operations -/

theorem push_heap (hless : Compares less le) (h : HeapFrom le 0 q) (item : α) :
    HeapFrom le 0 (push less q item) := by
  apply bubbleUp_heap hless (Nat.le_refl _)
  have hlength : (q ++ [item]).length = q.length + 1 := List.length_append
  have hlt : ∀ {i : Nat} {x : α}, (q ++ [item])[i]? = some x → i ≠ q.length → q[i]? = some x := by
    intro i x hx hne
    have := (List.getElem?_eq_some_iff.mp hx).1
    rwa [List.getElem?_append_left (by omega)] at hx
  constructor
  · intro i x p hi hne hx hp
    have hx' := hlt hx hne
    have := (List.getElem?_eq_some_iff.mp hx').1
    exact h i x p hi (Nat.zero_le _) hx' (hlt hp (by omega))
  · intro i x p hi hpar hpos _ hx hp
    have := (List.getElem?_eq_some_iff.mp hx).1
    omega

/-- An item is overwritten with the last one, and the end is cut off. -/
theorem getElem?_set_dropLast {k i : Nat} {l y : α} (hy : (q.set k l).dropLast[i]? = some y) :
    (i = k ∧ y = l) ∨ (i ≠ k ∧ q[i]? = some y) := by
  obtain ⟨hlt, hget⟩ := List.getElem?_eq_some_iff.mp hy
  rw [List.getElem_dropLast, List.getElem_set] at hget
  rw [List.length_dropLast, List.length_set] at hlt
  by_cases hik : i = k
  · rw [if_pos hik.symm] at hget
    exact .inl ⟨hik, hget.symm⟩
  · rw [if_neg (Ne.symm hik)] at hget
    exact .inr ⟨hik, List.getElem?_eq_some_iff.mpr ⟨by omega, hget⟩⟩

theorem pop_heap (hless : Compares less le) (h : HeapFrom le 0 q) :
    HeapFrom le 0 (pop less q) := by
  unfold pop
  split
  · exact h
  · next l _ =>
    apply bubbleDown_heap hless (Nat.le_add_right _ _) (Nat.le_refl _)
    constructor
    · intro i x p hi hpar hpos hx hp
      obtain ⟨rfl, -⟩ | ⟨-, hx⟩ := getElem?_set_dropLast hx
      · exact absurd rfl hpar
      obtain ⟨hzero, -⟩ | ⟨-, hp⟩ := getElem?_set_dropLast hp
      · exact absurd hzero hpar
      · exact h i x p hi hpos hx hp
    · intro i x p hi hpar hpos
      exact absurd hpos (Nat.lt_irrefl 0)

theorem HeapFrom.dropLast (h : HeapFrom le 0 q) : HeapFrom le 0 q.dropLast := by
  intro i x p hi hpos hx hp
  have hsub : ∀ {n : Nat} {y : α}, q.dropLast[n]? = some y → q[n]? = some y := by
    intro n y hy
    obtain ⟨hlt, hget⟩ := List.getElem?_eq_some_iff.mp hy
    rw [List.getElem_dropLast] at hget
    rw [List.length_dropLast] at hlt
    exact List.getElem?_eq_some_iff.mpr ⟨by omega, hget⟩
  exact h i x p hi hpos (hsub hx) (hsub hp)

theorem removeAt_heap (hless : Compares less le) (h : HeapFrom le 0 q) (k : Nat) :
    HeapFrom le 0 (removeAt less q k) := by
  unfold removeAt
  split
  · exact pop_heap hless h
  next hk =>
  split
  · exact h.dropLast
  split
  · next item l hitem _ =>
    -- The children of the item and its parent are in order.
    have hspans : Spans le 0 (q.set k l).dropLast k := by
      intro i x p hi hpar hpos _ hx hp
      obtain ⟨rfl, -⟩ | ⟨-, hx⟩ := getElem?_set_dropLast hx
      · omega
      obtain ⟨hpk, -⟩ | ⟨-, hp⟩ := getElem?_set_dropLast hp
      · omega
      exact hless.trans (h k item p hpos (Nat.zero_le _) hitem hp)
        (h i x item hi (Nat.zero_le _) hx (hpar ▸ hitem))
    dsimp only
    split
    · next hlt =>
      have hle := hless.le_of_less hlt
      refine bubbleDown_heap hless (Nat.le_add_right _ _) (Nat.zero_le _)
        ⟨fun i x p hi hpar hpos hx hp => ?_, hspans⟩
      obtain ⟨hpk, -⟩ | ⟨-, hp'⟩ := getElem?_set_dropLast hp
      · exact absurd hpk hpar
      obtain ⟨rfl, rfl⟩ | ⟨-, hx'⟩ := getElem?_set_dropLast hx
      · exact hless.trans (h i item p hi hpos hitem hp') hle
      · exact h i x p hi hpos hx' hp'
    · next hge =>
      have hle := hless.le_of_not_less hge
      have hlt := (List.getElem?_eq_some_iff.mp hitem).1
      have hlength : (q.set k l).dropLast.length = q.length - 1 := by
        rw [List.length_dropLast, List.length_set]
      refine bubbleUp_heap hless (by omega) ⟨fun i x p hi hne hx hp => ?_, hspans⟩
      obtain ⟨hik, -⟩ | ⟨-, hx'⟩ := getElem?_set_dropLast hx
      · exact absurd hik hne
      obtain ⟨hpar, rfl⟩ | ⟨-, hp'⟩ := getElem?_set_dropLast hp
      · exact hless.trans hle (h i x item hi (Nat.zero_le _) hx' (hpar ▸ hitem))
      · exact h i x p hi (Nat.zero_le _) hx' hp'
  · exact h

/-! ## Heaps of items with keys -/

section
variable [LinearOrder β] {key : α → β}

/-- The test compares keys. -/
def ByKey (less : α → α → Bool) (key : α → β) : Prop := ∀ x y, less x y = true ↔ key x < key y

/-- No item has a smaller key than its parent. -/
def Ordered (key : α → β) (q : List α) : Prop :=
  ∀ i x p, 0 < i → q[i]? = some x → q[(i - 1) / 2]? = some p → key p ≤ key x

theorem ByKey.compares (h : ByKey less key) : Compares less fun x y => key x ≤ key y := by
  refine compares_strict (fun _ _ => le_total _ _) le_trans fun x y => ?_
  rw [h x y, not_le]

theorem ordered_iff_heap : Ordered key q ↔ HeapFrom (fun x y => key x ≤ key y) 0 q :=
  ⟨fun h i x p hi _ => h i x p hi, fun h i x p hi => h i x p hi (Nat.zero_le _)⟩

/-- The top has the least key. -/
theorem Ordered.top_least (hless : ByKey less key) (h : Ordered key q) (htop : top q = some x) :
    ∀ y ∈ q, key x ≤ key y :=
  (ordered_iff_heap.mp h).top_least hless.compares htop

theorem push_ordered (hless : ByKey less key) (h : Ordered key q) (item : α) :
    Ordered key (push less q item) :=
  ordered_iff_heap.mpr (push_heap hless.compares (ordered_iff_heap.mp h) item)

theorem pop_ordered (hless : ByKey less key) (h : Ordered key q) : Ordered key (pop less q) :=
  ordered_iff_heap.mpr (pop_heap hless.compares (ordered_iff_heap.mp h))

theorem removeAt_ordered (hless : ByKey less key) (h : Ordered key q) (k : Nat) :
    Ordered key (removeAt less q k) :=
  ordered_iff_heap.mpr (removeAt_heap hless.compares (ordered_iff_heap.mp h) k)

end

end Pq
