import Polygon.Lib.Ranges

/-!
# Gap lists in one form

A gap list whose ranges are not empty and do not touch is determined by what is missing.
-/
namespace Ranges

/-- Sorted, without empty ranges, and something is present between two ranges. -/
def Apart : Nat → List Range → Prop
  | _, [] => True
  | lo, g :: gs => lo ≤ g.begin ∧ g.begin < g.end_ ∧ Apart (g.end_ + 1) gs

theorem Apart.mono {lo lo' : Nat} {gs : List Range} (h : Apart lo gs) (hl : lo' ≤ lo) :
    Apart lo' gs := by
  cases gs with
  | nil => trivial
  | cons g gs => exact ⟨Nat.le_trans hl h.1, h.2⟩

theorem Apart.ordered {lo : Nat} {gs : List Range} (h : Apart lo gs) : Ordered lo gs := by
  induction gs generalizing lo with
  | nil => trivial
  | cons g gs ih => exact ⟨h.1, h.2.1, ih (h.2.2.mono (Nat.le_succ _))⟩

theorem Apart.le_of_inGap {lo n : Nat} {gs : List Range} (h : Apart lo gs) (hn : InGap gs n) :
    lo ≤ n := h.ordered.le_of_inGap hn

theorem Apart.inGap_begin {lo : Nat} {g : Range} {gs : List Range} (h : Apart lo (g :: gs)) :
    InGap (g :: gs) g.begin :=
  (inGap_cons ..).mpr (.inl ⟨Nat.le_refl _, h.2.1⟩)

theorem Apart.begin_le {lo n : Nat} {g : Range} {gs : List Range} (h : Apart lo (g :: gs))
    (hn : InGap (g :: gs) n) : g.begin ≤ n :=
  have hg : Apart g.begin (g :: gs) := ⟨Nat.le_refl _, h.2⟩
  hg.le_of_inGap hn

/-- A gap and the position behind it: nothing else reaches that far. -/
theorem Apart.inGap_of_le {lo n : Nat} {g : Range} {gs : List Range} (h : Apart lo (g :: gs))
    (hn : n ≤ g.end_) : InGap (g :: gs) n ↔ n ∈ g := by
  rw [inGap_cons, or_iff_left]
  intro hgs
  have := h.2.2.le_of_inGap hgs
  omega

/-- No range of an ordered list is empty. -/
theorem Ordered.begin_lt {lo : Nat} {gs : List Range} (h : Ordered lo gs) {g : Range}
    (hg : g ∈ gs) : g.begin < g.end_ := by
  induction gs generalizing lo with
  | nil => cases hg
  | cons g' gs ih =>
    cases hg with
    | head => exact h.2.1
    | tail _ hg => exact ih h.2.2 hg

theorem apart_append {lo mid : Nat} {gs hs : List Range} (hgs : Apart lo gs)
    (hmid : ∀ g ∈ gs, g.end_ < mid) (hlo : lo ≤ mid) (hhs : Apart mid hs) :
    Apart lo (gs ++ hs) := by
  induction gs generalizing lo with
  | nil => exact hhs.mono hlo
  | cons g gs ih =>
    obtain ⟨h₁, h₂, h₃⟩ := hgs
    exact ⟨h₁, h₂, ih h₃ (fun g' hg' => hmid g' (.tail _ hg')) (hmid g (.head _))⟩

theorem cutOne_apart (q g : Range) (hq : q.begin < q.end_) : Apart g.begin (cutOne q g) := by
  unfold cutOne
  split <;> split <;> simp [Apart] <;> omega

/-- What is taken out lies between the parts that stay. -/
theorem Apart.subtract {lo : Nat} (q : Range) {gs : List Range} (h : Apart lo gs) :
    Apart lo (subtract q gs) := by
  unfold Ranges.subtract
  split
  · next hq =>
    induction gs generalizing lo with
    | nil => trivial
    | cons g gs ih =>
      obtain ⟨h₁, h₂, h₃⟩ := h
      rw [List.flatMap_cons]
      refine apart_append ((cutOne_apart q g hq).mono h₁) (fun g' hg' => ?_) (by omega) (ih h₃)
      exact Nat.lt_succ_of_le (cutOne_end_le q g g' hg')
  · exact h

/-- The first ranges of two lists with the same gaps end together. -/
theorem Apart.end_le {lo : Nat} {g h : Range} {gs hs : List Range}
    (hh : Apart lo (h :: hs)) (hbegin : g.begin = h.begin)
    (hiff : ∀ n, InGap (g :: gs) n → InGap (h :: hs) n) : g.end_ ≤ h.end_ := by
  by_contra hlt
  have hlt' : h.begin < h.end_ := hh.2.1
  have hin : h.end_ ∈ g := (mem_range _ _).mpr (by omega)
  have hmem := (hh.inGap_of_le (Nat.le_refl _)).mp (hiff _ ((inGap_cons ..).mpr (.inl hin)))
  exact Nat.lt_irrefl _ hmem.2

/-- The form is unique. -/
theorem Apart.ext {lo lo' : Nat} {gs hs : List Range} (hgs : Apart lo gs) (hhs : Apart lo' hs)
    (hiff : ∀ n, InGap gs n ↔ InGap hs n) : gs = hs := by
  induction gs generalizing lo lo' hs with
  | nil =>
    cases hs with
    | nil => rfl
    | cons h hs => exact absurd ((hiff _).mpr hhs.inGap_begin) (inGap_nil _)
  | cons g gs ih =>
    cases hs with
    | nil => exact absurd ((hiff _).mp hgs.inGap_begin) (inGap_nil _)
    | cons h hs =>
      have hbegin : g.begin = h.begin :=
        Nat.le_antisymm (hgs.begin_le ((hiff _).mpr hhs.inGap_begin))
          (hhs.begin_le ((hiff _).mp hgs.inGap_begin))
      have hend : g.end_ = h.end_ :=
        Nat.le_antisymm (hhs.end_le hbegin fun n => (hiff n).mp)
          (hgs.end_le hbegin.symm fun n => (hiff n).mpr)
      obtain rfl : g = h := by
        cases g
        cases h
        congr
      -- Behind the first range both lists are read alone.
      have hrest : ∀ {xs : List Range}, Apart (g.end_ + 1) xs → ∀ n,
          InGap xs n ↔ InGap (g :: xs) n ∧ g.end_ ≤ n := by
        intro xs hxs n
        rw [inGap_cons, mem_range]
        constructor
        · intro hn
          have := hxs.le_of_inGap hn
          exact ⟨.inr hn, by omega⟩
        · rintro ⟨hn | hn, hle⟩
          · omega
          · exact hn
      rw [ih hgs.2.2 hhs.2.2 fun n => by rw [hrest hgs.2.2, hrest hhs.2.2, hiff]]

end Ranges
