import Mathlib.Data.List.Basic

/-!
# Half-open ranges and lists of gaps

A gap list records which naturals are still missing: an ordered list of
nonempty, pairwise disjoint half-open ranges. Subtracting a range from the list
is the only operation; everything else is read off membership.
-/
namespace Ranges

/-- The half-open range `[begin, end_)`. -/
structure Range where
  begin : Nat
  end_ : Nat
  deriving DecidableEq, Repr

instance : Membership Nat Range where
  mem r n := r.begin ≤ n ∧ n < r.end_

theorem mem_range (r : Range) (n : Nat) : n ∈ r ↔ r.begin ≤ n ∧ n < r.end_ := Iff.rfl

instance (r : Range) (n : Nat) : Decidable (n ∈ r) :=
  decidable_of_iff (r.begin ≤ n ∧ n < r.end_) (mem_range r n).symm

@[simp] theorem mem_mk (b e n : Nat) : n ∈ Range.mk b e ↔ b ≤ n ∧ n < e := Iff.rfl

/-- The position is missing: some range of the list contains it. -/
def InGap (gs : List Range) (n : Nat) : Prop := ∃ g ∈ gs, n ∈ g

instance (gs : List Range) (n : Nat) : Decidable (InGap gs n) :=
  inferInstanceAs (Decidable (∃ g ∈ gs, n ∈ g))

@[simp] theorem inGap_nil (n : Nat) : ¬InGap [] n := by simp [InGap]

@[simp] theorem inGap_cons (g : Range) (gs : List Range) (n : Nat) :
    InGap (g :: gs) n ↔ n ∈ g ∨ InGap gs n := by simp [InGap]

@[simp] theorem inGap_append (gs hs : List Range) (n : Nat) :
    InGap (gs ++ hs) n ↔ InGap gs n ∨ InGap hs n := by
  induction gs with
  | nil => simp
  | cons g gs ih => simp [ih, or_assoc]

/-- Sorted and disjoint, all of them from `lo` upwards; empty ranges may occur. -/
def Sorted : Nat → List Range → Prop
  | _, [] => True
  | lo, g :: gs => lo ≤ g.begin ∧ g.begin ≤ g.end_ ∧ Sorted g.end_ gs

theorem Sorted.mono {lo lo' : Nat} {gs : List Range} (h : Sorted lo gs) (hl : lo' ≤ lo) :
    Sorted lo' gs := by
  cases gs with
  | nil => trivial
  | cons g gs => exact ⟨Nat.le_trans hl h.1, h.2⟩

/-- Every missing position of a sorted list is at least its lower bound. -/
theorem Sorted.le_of_inGap {lo n : Nat} {gs : List Range} (h : Sorted lo gs) (hn : InGap gs n) :
    lo ≤ n := by
  induction gs generalizing lo with
  | nil => simp at hn
  | cons g gs ih =>
    obtain ⟨hlo, hne, hgs⟩ := h
    rcases (inGap_cons g gs n).mp hn with hg | hg
    · exact Nat.le_trans hlo hg.1
    · have := ih hgs hg
      omega

/-- Sorted, disjoint and without empty ranges, all of them from `lo` upwards. -/
def Ordered : Nat → List Range → Prop
  | _, [] => True
  | lo, g :: gs => lo ≤ g.begin ∧ g.begin < g.end_ ∧ Ordered g.end_ gs

@[simp] theorem ordered_nil (lo : Nat) : Ordered lo [] := trivial

@[simp] theorem ordered_cons (lo : Nat) (g : Range) (gs : List Range) :
    Ordered lo (g :: gs) ↔ lo ≤ g.begin ∧ g.begin < g.end_ ∧ Ordered g.end_ gs := Iff.rfl

instance decidableOrdered : (lo : Nat) → (gs : List Range) → Decidable (Ordered lo gs)
  | _, [] => .isTrue trivial
  | lo, g :: gs =>
    have := decidableOrdered g.end_ gs
    inferInstanceAs (Decidable (lo ≤ g.begin ∧ g.begin < g.end_ ∧ Ordered g.end_ gs))

theorem Ordered.sorted {lo : Nat} {gs : List Range} (h : Ordered lo gs) : Sorted lo gs := by
  induction gs generalizing lo with
  | nil => trivial
  | cons g gs ih => exact ⟨h.1, Nat.le_of_lt h.2.1, ih h.2.2⟩

theorem Ordered.mono {lo lo' : Nat} {gs : List Range} (h : Ordered lo gs) (hl : lo' ≤ lo) :
    Ordered lo' gs := by
  cases gs with
  | nil => trivial
  | cons g gs => exact ⟨Nat.le_trans hl h.1, h.2⟩

theorem Ordered.le_of_inGap {lo n : Nat} {gs : List Range} (h : Ordered lo gs) (hn : InGap gs n) :
    lo ≤ n := h.sorted.le_of_inGap hn

/-- The beginning of the first range; `top` stands in for an empty list. -/
def firstGap (top : Nat) : List Range → Nat
  | [] => top
  | g :: _ => g.begin

@[simp] theorem firstGap_cons (top : Nat) (g : Range) (gs : List Range) :
    firstGap top (g :: gs) = g.begin := rfl

theorem Ordered.inGap_firstGap {lo top : Nat} {gs : List Range} (h : Ordered lo gs)
    (hne : gs ≠ []) :
    InGap gs (firstGap top gs) := by
  cases gs with
  | nil => exact absurd rfl hne
  | cons g gs => exact (inGap_cons g gs _).mpr (.inl ⟨Nat.le_refl _, h.2.1⟩)

/-- Nothing below the first gap is missing. -/
theorem Ordered.firstGap_le {lo top n : Nat} {gs : List Range} (h : Ordered lo gs)
    (hn : InGap gs n) :
    firstGap top gs ≤ n := by
  cases gs with
  | nil => simp at hn
  | cons g gs =>
    have hg : Ordered g.begin (g :: gs) := ⟨Nat.le_refl _, h.2⟩
    exact hg.le_of_inGap hn

/-- The first gap is determined by which positions are missing. -/
theorem Ordered.firstGap_eq {lo top n : Nat} {gs : List Range} (h : Ordered lo gs) (hn : InGap gs n)
    (hlt : ∀ m < n, ¬InGap gs m) : firstGap top gs = n := by
  have hne : gs ≠ [] := by rintro rfl; simp at hn
  have hle : firstGap top gs ≤ n := h.firstGap_le hn
  by_contra hc
  exact hlt _ (Nat.lt_of_le_of_ne hle hc) (h.inGap_firstGap hne)

/-- What is left of `g` once `q` has been taken out. -/
def cutOne (q g : Range) : List Range :=
  (if g.begin < min g.end_ q.begin then [⟨g.begin, min g.end_ q.begin⟩] else []) ++
    (if max g.begin q.end_ < g.end_ then [⟨max g.begin q.end_, g.end_⟩] else [])

/-- Takes the range `q` out of every gap; an empty range changes nothing. -/
def subtract (q : Range) (gs : List Range) : List Range :=
  if q.begin < q.end_ then gs.flatMap (cutOne q) else gs

theorem inGap_cutOne (q g : Range) (n : Nat) :
    InGap (cutOne q g) n ↔ n ∈ g ∧ n ∉ q := by
  have hl : InGap (if g.begin < min g.end_ q.begin then [⟨g.begin, min g.end_ q.begin⟩] else []) n ↔
      n ∈ g ∧ n < q.begin := by
    split <;> simp [mem_range] <;> omega
  have hr : InGap (if max g.begin q.end_ < g.end_ then [⟨max g.begin q.end_, g.end_⟩] else []) n ↔
      n ∈ g ∧ q.end_ ≤ n := by
    split <;> simp [mem_range] <;> omega
  rw [cutOne, inGap_append, hl, hr, mem_range g, mem_range q]
  omega

theorem ordered_append {lo mid : Nat} {gs hs : List Range} (hgs : Ordered lo gs)
    (hmid : ∀ g ∈ gs, g.end_ ≤ mid) (hlo : lo ≤ mid) (hhs : Ordered mid hs) :
    Ordered lo (gs ++ hs) := by
  induction gs generalizing lo with
  | nil => exact hhs.mono hlo
  | cons g gs ih =>
    obtain ⟨h₁, h₂, h₃⟩ := hgs
    exact ⟨h₁, h₂, ih h₃ (fun g' hg' => hmid g' (by simp [hg'])) (hmid g (by simp))⟩

theorem cutOne_ordered (q g : Range) (hq : q.begin < q.end_) : Ordered g.begin (cutOne q g) := by
  unfold cutOne
  split <;> split <;> simp <;> omega

theorem cutOne_end_le (q g g' : Range) (h : g' ∈ cutOne q g) : g'.end_ ≤ g.end_ := by
  rcases List.mem_append.mp h with h | h
  · split at h
    · obtain rfl := List.mem_singleton.mp h
      exact Nat.min_le_left _ _
    · simp at h
  · split at h
    · obtain rfl := List.mem_singleton.mp h
      exact Nat.le_refl _
    · simp at h

/-- A range that lies beyond `q` is left alone. -/
theorem cutOne_of_le (q g : Range) (hq : q.begin < q.end_) (hg : g.begin < g.end_)
    (h : q.end_ ≤ g.begin) : cutOne q g = [g] := by
  have h₁ : ¬g.begin < min g.end_ q.begin := by omega
  have h₂ : max g.begin q.end_ = g.begin := by omega
  simp only [cutOne, h₁, ↓reduceIte, h₂, hg, List.nil_append]

theorem flatMap_cutOne_of_le (q : Range) (gs : List Range) (hq : q.begin < q.end_)
    (h : Ordered q.end_ gs) : gs.flatMap (cutOne q) = gs := by
  induction gs with
  | nil => rfl
  | cons g gs ih =>
    obtain ⟨h₁, h₂, h₃⟩ := h
    rw [List.flatMap_cons, cutOne_of_le q g hq h₂ h₁, ih (h₃.mono (by omega)),
      List.singleton_append]

theorem inGap_subtract (q : Range) (gs : List Range) (n : Nat) :
    InGap (subtract q gs) n ↔ InGap gs n ∧ n ∉ q := by
  unfold subtract
  split
  · next hq =>
    induction gs with
    | nil => simp
    | cons g gs ih =>
      rw [List.flatMap_cons, inGap_append, inGap_cutOne q g n, ih, inGap_cons, or_and_right]
  · next hq =>
    have : n ∉ q := by rw [mem_range]; omega
    simp [this]

theorem ordered_subtract {lo : Nat} (q : Range) {gs : List Range} (h : Ordered lo gs) :
    Ordered lo (subtract q gs) := by
  unfold subtract
  split
  · next hq =>
    induction gs generalizing lo with
    | nil => trivial
    | cons g gs ih =>
      obtain ⟨h₁, h₂, h₃⟩ := h
      rw [List.flatMap_cons]
      exact ordered_append ((cutOne_ordered q g hq).mono h₁) (cutOne_end_le q g) (by omega) (ih h₃)
  · exact h

end Ranges
