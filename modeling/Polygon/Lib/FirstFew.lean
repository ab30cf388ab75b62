import Mathlib.Data.List.Induction

/-!
# The first few elements with a property

Which elements of a list are among the first `k` that have a property, without
building the list of them.
-/
namespace FirstFew

variable {α β : Type} {p q : α → Bool} {k : Nat} {xs : List α} {x y : α}

/-- `x` has the property, and at some place fewer than `k` elements before it have it. -/
def Among (p : α → Bool) (k : Nat) (xs : List α) (x : α) : Prop :=
  ∃ before after, xs = before ++ x :: after ∧ p x = true ∧ before.countP p < k

theorem Among.holds (h : Among p k xs x) : p x = true := by
  obtain ⟨before, after, hsplit, hx, hcount⟩ := h
  exact hx

theorem not_among_nil : ¬Among p k [] x := by
  rintro ⟨before, after, hsplit, -, -⟩
  simp at hsplit

theorem not_among_zero : ¬Among p 0 xs x := by
  rintro ⟨before, after, -, -, hcount⟩
  exact Nat.not_lt_zero _ hcount

theorem among_cons_pos (hy : p y = true) :
    Among p (k + 1) (y :: xs) x ↔ x = y ∨ Among p k xs x := by
  constructor
  · rintro ⟨before, after, hsplit, hx, hcount⟩
    cases before with
    | nil => exact .inl (List.cons.inj hsplit).1.symm
    | cons z before =>
      obtain ⟨rfl, hrest⟩ := List.cons.inj hsplit
      rw [List.countP_cons_of_pos hy] at hcount
      exact .inr ⟨before, after, hrest, hx, Nat.lt_of_succ_lt_succ hcount⟩
  · rintro (rfl | ⟨before, after, rfl, hx, hcount⟩)
    · exact ⟨[], xs, rfl, hy, Nat.succ_pos k⟩
    · refine ⟨y :: before, after, rfl, hx, ?_⟩
      rw [List.countP_cons_of_pos hy]
      exact Nat.succ_lt_succ hcount

theorem among_cons_neg (hy : ¬p y = true) : Among p k (y :: xs) x ↔ Among p k xs x := by
  constructor
  · rintro ⟨before, after, hsplit, hx, hcount⟩
    cases before with
    | nil =>
      obtain ⟨rfl, -⟩ := List.cons.inj hsplit
      exact absurd hx hy
    | cons z before =>
      obtain ⟨rfl, hrest⟩ := List.cons.inj hsplit
      rw [List.countP_cons_of_neg hy] at hcount
      exact ⟨before, after, hrest, hx, hcount⟩
  · rintro ⟨before, after, rfl, hx, hcount⟩
    refine ⟨y :: before, after, rfl, hx, ?_⟩
    rw [List.countP_cons_of_neg hy]
    exact hcount

/-- The list of the first `k` elements with the property. -/
theorem mem_take_filter : x ∈ (xs.filter p).take k ↔ Among p k xs x := by
  induction xs generalizing k with
  | nil => simp [not_among_nil]
  | cons y xs ih =>
    by_cases hy : p y = true
    · rw [List.filter_cons_of_pos hy]
      cases k with
      | zero => simp [not_among_zero]
      | succ k => rw [List.take_succ_cons, List.mem_cons, ih, among_cons_pos hy]
    · rw [List.filter_cons_of_neg hy, ih, among_cons_neg hy]

/-- Where the first `k` elements with one property have the other, the first is no more frequent. -/
theorem countP_le (h : ∀ y, Among p k xs y → q y = true) (hcount : xs.countP q < k) :
    xs.countP p ≤ xs.countP q := by
  induction xs using List.reverseRecOn with
  | nil => simp
  | append_singleton xs y ih =>
    rw [List.countP_append] at hcount
    have hle : xs.countP p ≤ xs.countP q := by
      refine ih (fun z hz => h z ?_) (by omega)
      obtain ⟨before, after, rfl, hz, hbefore⟩ := hz
      exact ⟨before, after ++ [y], by simp, hz, hbefore⟩
    rw [List.countP_append, List.countP_append]
    by_cases hy : p y = true
    · have hq : q y = true := h y ⟨xs, [], rfl, hy, by omega⟩
      simp [hy, hq, hle]
    · simp only [List.countP_singleton, if_neg hy]
      omega

/-- Such an element among the first `k` with the other property is among those with the first one. -/
theorem Among.of_among (h : ∀ y, Among p k xs y → q y = true) (hx : p x = true)
    (hamong : Among q k xs x) :
    Among p k xs x := by
  obtain ⟨before, after, rfl, -, hcount⟩ := hamong
  refine ⟨before, after, rfl, hx, Nat.lt_of_le_of_lt (countP_le (fun y hy => h y ?_) hcount) hcount⟩
  obtain ⟨left, right, rfl, hy, hleft⟩ := hy
  exact ⟨left, right ++ x :: after, by simp, hy, hleft⟩

/-- The images of the first `k` elements are distinct and not yet seen, if none of these elements has an
image that was seen or that any element before it has. -/
theorem nodup_take_filter {f : α → β} {seen : List β}
    (hpair : xs.Pairwise fun y x => p x = true → f y = f x → p y = true) :
    ((((xs.filter p).take k).map f).Nodup ∧ ∀ b ∈ ((xs.filter p).take k).map f, b ∉ seen) ↔
      ∀ before x after, xs = before ++ x :: after → p x = true → before.countP p < k →
        f x ∉ seen ∧ f x ∉ before.map f := by
  induction xs generalizing k seen with
  | nil => simp
  | cons y xs ih =>
    obtain ⟨hy, hrest⟩ := List.pairwise_cons.mp hpair
    by_cases hp : p y = true
    · rw [List.filter_cons_of_pos hp]
      cases k with
      | zero => simp
      | succ k =>
        rw [List.take_succ_cons, List.map_cons, List.nodup_cons]
        have hiff := @ih k (f y :: seen) hrest
        constructor
        · rintro ⟨⟨hnew, hnodup⟩, hseen⟩ before x after hsplit hx hcount
          cases before with
          | nil =>
            obtain ⟨rfl, -⟩ := List.cons.inj hsplit
            exact ⟨hseen _ List.mem_cons_self, List.not_mem_nil⟩
          | cons z before =>
            obtain ⟨rfl, hxs⟩ := List.cons.inj hsplit
            rw [List.countP_cons_of_pos hp] at hcount
            have hlater : ∀ b ∈ ((xs.filter p).take k).map f, b ∉ f y :: seen := by
              intro b hb hmem
              rcases List.mem_cons.mp hmem with rfl | hmem
              · exact hnew hb
              · exact hseen b (List.mem_cons_of_mem _ hb) hmem
            have := hiff.mp ⟨hnodup, hlater⟩ before x after hxs hx (Nat.lt_of_succ_lt_succ hcount)
            simp only [List.mem_cons, not_or, List.map_cons] at this ⊢
            exact ⟨this.1.2, this.1.1, this.2⟩
        · intro h
          have hfirst := h [] y xs rfl hp (Nat.succ_pos k)
          have hlater := hiff.mpr fun before x after hxs hx hcount => by
            have := h (y :: before) x after (by rw [hxs]; rfl) hx (by
              rw [List.countP_cons_of_pos hp]
              exact Nat.succ_lt_succ hcount)
            simp only [List.mem_cons, not_or, List.map_cons] at this ⊢
            exact ⟨⟨this.2.1, this.1⟩, this.2.2⟩
          refine ⟨⟨fun hmem => hlater.2 _ hmem List.mem_cons_self, hlater.1⟩, fun b hb => ?_⟩
          rcases List.mem_cons.mp hb with rfl | hb
          · exact hfirst.1
          · exact fun hmem => hlater.2 b hb (List.mem_cons_of_mem _ hmem)
    · rw [List.filter_cons_of_neg hp, ih hrest]
      constructor
      · intro h before x after hsplit hx hcount
        cases before with
        | nil =>
          obtain ⟨rfl, -⟩ := List.cons.inj hsplit
          exact absurd hx hp
        | cons z before =>
          obtain ⟨rfl, hxs⟩ := List.cons.inj hsplit
          rw [List.countP_cons_of_neg hp] at hcount
          have hmem : x ∈ xs := by rw [hxs]; simp
          have := h before x after hxs hx hcount
          rw [List.map_cons, List.mem_cons, not_or]
          exact ⟨this.1, fun heq => hp (hy x hmem hx heq.symm), this.2⟩
      · intro h before x after hxs hx hcount
        have := h (y :: before) x after (by rw [hxs]; rfl) hx (by
          rw [List.countP_cons_of_neg hp]
          exact hcount)
        rw [List.map_cons, List.mem_cons, not_or] at this
        exact ⟨this.1, this.2.2⟩

end FirstFew
