import Polygon.Pq

/-!
# Where the items of the heap are

Every item of `ngtcp2_pq` knows its position, which each write to the array keeps up to date.
So an item can be removed from the middle of the heap.
-/
namespace Pq

variable {α γ : Type}

/-- The array, and the position that each item knows. -/
structure Indexed (α : Type) where
  q : List α
  index : α → Nat

/-! ## Heaps of other items with the same order -/

section
variable {less : α → α → Bool} {less' : γ → γ → Bool} {f : α → γ} {q : List α}

/-- The items of `q` compare as their images. -/
def Agrees (less : α → α → Bool) (less' : γ → γ → Bool) (f : α → γ) (q : List α) : Prop :=
  ∀ x ∈ q, ∀ y ∈ q, less' (f x) (f y) = less x y

theorem Agrees.subset {q' : List α} (h : Agrees less less' f q) (hsub : q' ⊆ q) :
    Agrees less less' f q' :=
  fun x hx y hy => h x (hsub hx) y (hsub hy)

theorem Agrees.get (h : Agrees less less' f q) {i j : Nat} {x y : α} (hx : q[i]? = some x)
    (hy : q[j]? = some y) :
    less' (f x) (f y) = less x y :=
  h x (List.mem_of_getElem? hx) y (List.mem_of_getElem? hy)

theorem swap_map (f : α → γ) (q : List α) (i j : Nat) :
    swap (q.map f) i j = (swap q i j).map f := by
  unfold swap
  rw [List.getElem?_map, List.getElem?_map]
  cases q[i]? with
  | none => rfl
  | some a =>
    cases q[j]? with
    | none => rfl
    | some b => simp [List.map_set]

theorem bubbleUp_map (h : Agrees less less' f q) (fuel k : Nat) :
    bubbleUp less' fuel (q.map f) k = (bubbleUp less fuel q k).map f := by
  induction fuel generalizing q k with
  | zero => rfl
  | succ fuel ih =>
    unfold bubbleUp
    dsimp only
    by_cases hk : k = 0
    · rw [if_pos hk, if_pos hk]
    rw [if_neg hk, if_neg hk, List.getElem?_map, List.getElem?_map]
    cases hx : q[k]? with
    | none => rfl
    | some x =>
      cases hp : q[(k - 1) / 2]? with
      | none => rfl
      | some p =>
        dsimp only [Option.map_some]
        rw [h.get hx hp, swap_map, ih (h.subset (swap_perm q _ _).subset)]
        split <;> rfl

theorem pickMin_map (h : Agrees less less' f q) (m j : Nat) :
    pickMin less' (q.map f) m j = pickMin less q m j := by
  unfold pickMin
  rw [List.getElem?_map, List.getElem?_map]
  cases hx : q[j]? with
  | none => rfl
  | some x =>
    cases hm : q[m]? with
    | none => rfl
    | some y =>
      dsimp only [Option.map_some]
      rw [h.get hx hm]

theorem bubbleDown_map (h : Agrees less less' f q) (fuel k : Nat) :
    bubbleDown less' fuel (q.map f) k = (bubbleDown less fuel q k).map f := by
  induction fuel generalizing q k with
  | zero => rfl
  | succ fuel ih =>
    unfold bubbleDown
    dsimp only
    rw [pickMin_map h, pickMin_map h, swap_map, ih (h.subset (swap_perm q _ _).subset)]
    split <;> rfl

theorem push_map {item : α} (h : Agrees less less' f (q ++ [item])) :
    push less' (q.map f) (f item) = (push less q item).map f := by
  unfold push
  rw [← bubbleUp_map h, List.map_append, List.length_map]
  rfl

/-- Overwriting a position with the last item and cutting the end keeps to the items. -/
theorem set_dropLast_subset {k : Nat} {l : α} (hl : q.getLast? = some l) :
    (q.set k l).dropLast ⊆ q := by
  intro x hx
  rcases List.mem_or_eq_of_mem_set ((List.dropLast_sublist _).subset hx) with hx | hx
  · exact hx
  · exact hx ▸ List.mem_of_getLast? hl

theorem pop_map (h : Agrees less less' f q) : pop less' (q.map f) = (pop less q).map f := by
  unfold pop
  rw [List.getLast?_map]
  cases hl : q.getLast? with
  | none => rfl
  | some l =>
    dsimp only [Option.map_some]
    rw [← bubbleDown_map (h.subset (set_dropLast_subset hl)), List.map_dropLast, List.map_set]
    simp

theorem removeAt_map (h : Agrees less less' f q) (k : Nat) :
    removeAt less' (q.map f) k = (removeAt less q k).map f := by
  unfold removeAt
  rw [List.length_map, List.getLast?_map, List.getElem?_map]
  split
  · exact pop_map h
  split
  · exact List.map_dropLast.symm
  cases hitem : q[k]? with
  | none => rfl
  | some item =>
    cases hl : q.getLast? with
    | none => rfl
    | some l =>
      dsimp only [Option.map_some]
      have hset : ((q.map f).set k (f l)).dropLast = ((q.set k l).dropLast).map f := by
        rw [List.map_dropLast, List.map_set]
      have hagrees := h.subset (set_dropLast_subset (k := k) hl)
      rw [h item (List.mem_of_getElem? hitem) l (List.mem_of_getLast? hl), hset, List.length_map,
        bubbleDown_map hagrees,
        bubbleUp_map hagrees]
      split <;> rfl

end

/-! ## The operations with the positions -/

namespace Indexed

/-- `pq->q[i] = x`, and `x` is told its position. -/
def put [DecidableEq α] (p : Indexed α) (i : Nat) (x : α) : Indexed α :=
  { q := p.q.set i x, index := fun y => if y = x then i else p.index y }

variable [DecidableEq α]

def swap (p : Indexed α) (i j : Nat) : Indexed α :=
  match p.q[i]?, p.q[j]? with
  | some a, some b => (p.put i b).put j a
  | _, _ => p

def bubbleUp (less : α → α → Bool) : Nat → Indexed α → Nat → Indexed α
  | 0, p, _ => p
  | fuel + 1, p, index =>
    if index = 0 then p
    else
      let parent := (index - 1) / 2
      match p.q[index]?, p.q[parent]? with
      | some x, some y => if less x y then bubbleUp less fuel (p.swap parent index) parent else p
      | _, _ => p

def bubbleDown (less : α → α → Bool) : Nat → Indexed α → Nat → Indexed α
  | 0, p, _ => p
  | fuel + 1, p, index =>
    let minindex := pickMin less p.q (pickMin less p.q index (index * 2 + 1)) (index * 2 + 2)
    if minindex = index then p else bubbleDown less fuel (p.swap index minindex) minindex

/-- `--pq->length`. -/
def cut (p : Indexed α) : Indexed α := { p with q := p.q.dropLast }

def push (less : α → α → Bool) (p : Indexed α) (item : α) : Indexed α :=
  bubbleUp less p.q.length
    { q := p.q ++ [item], index := fun y => if y = item then p.q.length else p.index y } p.q.length

def pop (less : α → α → Bool) (p : Indexed α) : Indexed α :=
  match p.q.getLast? with
  | none => p
  | some l => let p := (p.put 0 l).cut; bubbleDown less p.q.length p 0

/-- `ngtcp2_pq_remove`; `none` is its failed assertion. -/
def remove (less : α → α → Bool) (p : Indexed α) (item : α) : Option (Indexed α) :=
  let index := p.index item
  if p.q[index]? = some item then
    if index = 0 then some (pop less p)
    else if index = p.q.length - 1 then some p.cut
    else
      match p.q.getLast? with
      | none => none
      | some l =>
        let p := (p.put index l).cut
        some (if less item l then bubbleDown less p.q.length p index else bubbleUp less p.q.length p index)
  else none

/-- Every item knows its position. -/
def Ok (p : Indexed α) : Prop := ∀ i x, p.q[i]? = some x → p.index x = i

section
variable {less : α → α → Bool} {p : Indexed α} {item : α}

omit [DecidableEq α] in
theorem Ok.inj (h : p.Ok) {i j : Nat} {x : α} (hi : p.q[i]? = some x) (hj : p.q[j]? = some x) :
    i = j :=
  (h i x hi).symm.trans (h j x hj)

@[simp] theorem swap_q (p : Indexed α) (i j : Nat) : (p.swap i j).q = Pq.swap p.q i j := by
  unfold swap Pq.swap
  cases p.q[i]? with
  | none => rfl
  | some a =>
    cases p.q[j]? with
    | none => rfl
    | some b => rfl

theorem Ok.swap (h : p.Ok) (i j : Nat) : (p.swap i j).Ok := by
  unfold Indexed.swap
  split
  · next a b ha hb =>
    intro n x hx
    have hx : ((p.q.set i b).set j a)[n]? = some x := hx
    show (if x = a then j else if x = b then i else p.index x) = n
    rw [List.getElem?_set, List.getElem?_set, List.length_set] at hx
    obtain ⟨hi, -⟩ := List.getElem?_eq_some_iff.mp ha
    obtain ⟨hj, -⟩ := List.getElem?_eq_some_iff.mp hb
    by_cases hnj : j = n
    · rw [if_pos hnj, if_pos hj] at hx
      rw [if_pos (Option.some.inj hx).symm, hnj]
    rw [if_neg hnj] at hx
    by_cases hni : i = n
    · rw [if_pos hni, if_pos hi] at hx
      obtain rfl := Option.some.inj hx
      have hne : b ≠ a := by
        intro he
        rw [← he] at ha
        exact hnj ((h.inj hb ha).trans hni)
      rw [if_neg hne, if_pos rfl, hni]
    · rw [if_neg hni] at hx
      have hxa : x ≠ a := by
        intro he
        rw [← he] at ha
        exact hni (h.inj ha hx)
      have hxb : x ≠ b := by
        intro he
        rw [← he] at hb
        exact hnj (h.inj hb hx)
      rw [if_neg hxa, if_neg hxb]
      exact h n x hx
  · exact h

theorem bubbleUp_q (less : α → α → Bool) (fuel : Nat) (p : Indexed α) (k : Nat) :
    (bubbleUp less fuel p k).q = Pq.bubbleUp less fuel p.q k := by
  induction fuel generalizing p k with
  | zero => rfl
  | succ fuel ih =>
    unfold bubbleUp Pq.bubbleUp
    dsimp only
    split
    · rfl
    cases p.q[k]? with
    | none => rfl
    | some x =>
      cases p.q[(k - 1) / 2]? with
      | none => rfl
      | some y =>
        dsimp only
        split
        · rw [ih, swap_q]
        · rfl

theorem Ok.bubbleUp (h : p.Ok) (less : α → α → Bool) (fuel k : Nat) :
    (bubbleUp less fuel p k).Ok := by
  induction fuel generalizing p k with
  | zero => exact h
  | succ fuel ih =>
    unfold Indexed.bubbleUp
    dsimp only
    split
    · exact h
    split
    · split
      · exact ih (h.swap _ _) _
      · exact h
    · exact h

theorem bubbleDown_q (less : α → α → Bool) (fuel : Nat) (p : Indexed α) (k : Nat) :
    (bubbleDown less fuel p k).q = Pq.bubbleDown less fuel p.q k := by
  induction fuel generalizing p k with
  | zero => rfl
  | succ fuel ih =>
    unfold bubbleDown Pq.bubbleDown
    dsimp only
    split
    · rfl
    · rw [ih, swap_q]

theorem Ok.bubbleDown (h : p.Ok) (less : α → α → Bool) (fuel k : Nat) :
    (bubbleDown less fuel p k).Ok := by
  induction fuel generalizing p k with
  | zero => exact h
  | succ fuel ih =>
    unfold Indexed.bubbleDown
    dsimp only
    split
    · exact h
    · exact ih (h.swap _ _) _

theorem push_q (less : α → α → Bool) (p : Indexed α) (item : α) :
    (push less p item).q = Pq.push less p.q item :=
  bubbleUp_q less _ _ _

theorem Ok.push (h : p.Ok) (hnew : item ∉ p.q) (less : α → α → Bool) : (push less p item).Ok := by
  apply Ok.bubbleUp
  intro n x hx
  replace hx : (p.q ++ [item])[n]? = some x := hx
  show (if x = item then p.q.length else p.index x) = n
  rw [List.getElem?_append] at hx
  split at hx
  · have hne : x ≠ item := by
      rintro rfl
      exact hnew (List.mem_of_getElem? hx)
    rw [if_neg hne]
    exact h n x hx
  · next hge =>
    obtain ⟨hlt, hget⟩ := List.getElem?_eq_some_iff.mp hx
    rw [List.length_singleton] at hlt
    rw [List.getElem_singleton] at hget
    rw [if_pos hget.symm]
    omega

omit [DecidableEq α] in
theorem Ok.cut (h : p.Ok) : p.cut.Ok := by
  intro n x hx
  obtain ⟨hlt, hget⟩ := List.getElem?_eq_some_iff.mp hx
  have hlt : n < p.q.length - 1 := List.length_dropLast ▸ hlt
  apply h n x
  rw [← hget]
  exact (List.getElem?_eq_getElem (by omega)).trans (congrArg some (List.getElem_dropLast _).symm)

/-- The last item takes the place of another one. -/
theorem Ok.replace (h : p.Ok) {k : Nat} {l : α} (hl : p.q.getLast? = some l) :
    ((p.put k l).cut).Ok := by
  intro n x hx
  have hx : (p.q.set k l).dropLast[n]? = some x := hx
  show (if x = l then k else p.index x) = n
  obtain ⟨hlt, hget⟩ := List.getElem?_eq_some_iff.mp hx
  rw [List.length_dropLast, List.length_set] at hlt
  rw [List.getElem_dropLast, List.getElem_set] at hget
  split at hget
  · next hk => rw [if_pos hget.symm, hk]
  · have hx : p.q[n]? = some x := List.getElem?_eq_some_iff.mpr ⟨by omega, hget⟩
    have hne : x ≠ l := by
      intro he
      rw [← he, List.getLast?_eq_getElem?] at hl
      have := h.inj hl hx
      omega
    rw [if_neg hne]
    exact h n x hx

theorem pop_q (less : α → α → Bool) (p : Indexed α) : (pop less p).q = Pq.pop less p.q := by
  unfold pop Pq.pop
  cases p.q.getLast? with
  | none => rfl
  | some l => exact bubbleDown_q less _ _ _

theorem Ok.pop (h : p.Ok) (less : α → α → Bool) : (pop less p).Ok := by
  unfold Indexed.pop
  split
  · exact h
  · next l hl => exact (h.replace hl).bubbleDown less _ _

/-- An item of the heap is found at its position and removed there. -/
theorem Ok.remove (h : p.Ok) (hmem : item ∈ p.q) (less : α → α → Bool) :
    ∃ p', p.remove less item = some p' ∧ p'.q = Pq.removeAt less p.q (p.index item) ∧ p'.Ok := by
  obtain ⟨i, hi⟩ := List.getElem?_of_mem hmem
  have hindex : p.q[p.index item]? = some item := h i item hi ▸ hi
  unfold Indexed.remove Pq.removeAt
  dsimp only
  rw [if_pos hindex, hindex]
  split
  · exact ⟨_, rfl, pop_q less p, h.pop less⟩
  split
  · exact ⟨_, rfl, rfl, h.cut⟩
  cases hl : p.q.getLast? with
  | none =>
    rw [List.getLast?_eq_none_iff.mp hl] at hmem
    cases hmem
  | some l =>
    refine ⟨_, rfl, ?_, ?_⟩
    · dsimp only
      split
      · exact bubbleDown_q less _ _ _
      · exact bubbleUp_q less _ _ _
    · split
      · exact (h.replace hl).bubbleDown less _ _
      · exact (h.replace hl).bubbleUp less _ _

end

end Indexed

end Pq
