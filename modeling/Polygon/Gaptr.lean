import Polygon.Lib.Ranges
import Polygon.Frame

/-!
# Ranges, the gap tracker and the stream ID tracker

`ngtcp2_range`, `ngtcp2_gaptr` (which transmitted bytes are not acknowledged
yet) and `ngtcp2_idtr` (which remote stream IDs are not used yet). Both trackers
keep a linked list of gaps, here a list; the cursor of each loop is the
recursion over it. Opening the last index of a gap leaves an empty gap behind in
the ID tracker, so its list is sorted but not free of empty ranges.
-/
namespace Ngtcp2

open Ranges

def rangeIntersect (a b : Range) : Range :=
  if max a.begin b.begin < min a.end_ b.end_ then ⟨max a.begin b.begin, min a.end_ b.end_⟩ else ⟨0,
    0⟩

def rangeLen (r : Range) : Nat := r.end_ - r.begin

/-- `ngtcp2_range_cut`: what lies left and right of `b`, which is included in `a`. -/
def rangeCut (a b : Range) : Range × Range := (⟨a.begin, b.begin⟩, ⟨b.end_, a.end_⟩)

def rangeNotAfter (a b : Range) : Bool := a.end_ ≤ b.end_

/-- The nodes that take the place of gap `g` once `m` is cut out of it: those the cursor moves
past and the one it rests on. -/
def cutGap (g m : Range) : List Range × Range :=
  let (l, r) := rangeCut g m
  if 0 < rangeLen l then
    if 0 < rangeLen r then ([l], r) else ([], l)
  else if 0 < rangeLen r then ([], r)
  else ([], g)

/-- The list of a fresh tracker. -/
def gapsInit : List Range := [⟨0, uint64Max⟩]

/-- The loop of `ngtcp2_gaptr_push` for the pushed range `q`. -/
def gaptrPushLoop (q : Range) : List Range → List Range
  | [] => []
  | g :: gs =>
    let m := rangeIntersect q g
    if 0 < rangeLen m then
      if g = m then gaptrPushLoop q gs
      else
        let (past, cur) := cutGap g m
        past ++ cur :: (if rangeNotAfter q cur then gs else gaptrPushLoop q gs)
    else g :: (if rangeNotAfter q g then gs else gaptrPushLoop q gs)

def gaptrPush (gaptr : List Range) (offset datalen : Nat) : List Range :=
  gaptrPushLoop ⟨offset, offset + datalen⟩ gaptr

def gaptrFirstGapOffset (gaptr : List Range) : Nat := firstGap uint64Max gaptr

theorem rangeIntersect_len_pos (q g : Range) :
    0 < rangeLen (rangeIntersect q g) ↔ max q.begin g.begin < min q.end_ g.end_ := by
  unfold rangeIntersect rangeLen
  split <;> simp only <;> omega

theorem rangeIntersect_of_pos {q g : Range} (h : 0 < rangeLen (rangeIntersect q g)) :
    rangeIntersect q g = ⟨max q.begin g.begin, min q.end_ g.end_⟩ :=
  if_pos ((rangeIntersect_len_pos q g).mp h)

/-- A gap the pushed range does not meet is left as it is. -/
theorem cutOne_of_disjoint {q g : Range} (hg : g.begin < g.end_) (hq : q.begin < q.end_)
    (h : ¬0 < rangeLen (rangeIntersect q g)) : cutOne q g = [g] := by
  rw [rangeIntersect_len_pos] at h
  by_cases hb : g.begin < min g.end_ q.begin
  · have he : ¬max g.begin q.end_ < g.end_ := by omega
    have hm : min g.end_ q.begin = g.end_ := by omega
    simp only [cutOne, he, hm, hg, ↓reduceIte, List.append_nil]
  · have hm : max g.begin q.end_ = g.begin := by omega
    simp only [cutOne, hb, hm, hg, ↓reduceIte, List.nil_append]

/-- A gap the pushed range covers is removed. -/
theorem cutOne_of_eq {q g : Range} (h : 0 < rangeLen (rangeIntersect q g))
    (he : g = rangeIntersect q g) : cutOne q g = [] := by
  rw [rangeIntersect_of_pos h] at he
  obtain ⟨b, e⟩ := g
  simp only [Range.mk.injEq] at he
  have h₁ : ¬b < min e q.begin := by omega
  have h₂ : ¬max b q.end_ < e := by omega
  simp [cutOne, h₁, h₂]

/-- Otherwise the two parts that stay are the nodes left by `cutGap`. -/
theorem cutOne_of_ne {q g : Range} (h : 0 < rangeLen (rangeIntersect q g))
    (hne : g ≠ rangeIntersect q g) :
    cutOne q g = (cutGap g (rangeIntersect q g)).1 ++ [(cutGap g (rangeIntersect q g)).2] := by
  have hm := (rangeIntersect_len_pos q g).mp h
  rw [rangeIntersect_of_pos h] at hne ⊢
  obtain ⟨b, e⟩ := g
  have hne' : ¬(b = max q.begin b ∧ e = min q.end_ e) := by
    rintro ⟨hb, he⟩
    exact hne (by rw [← hb, ← he])
  simp only at hm
  have hl : min e q.begin = q.begin := by omega
  have hr : max b q.end_ = q.end_ := by omega
  simp only [cutOne, cutGap, rangeCut, rangeLen, hl, hr]
  by_cases h₁ : b < q.begin <;> by_cases h₂ : q.end_ < e
  · have h₅ : max q.begin b = q.begin := by omega
    have h₆ : min q.end_ e = q.end_ := by omega
    simp [h₁, h₂, h₅, h₆, Nat.sub_pos_of_lt]
  · have h₅ : max q.begin b = q.begin := by omega
    have h₆ : min q.end_ e = e := by omega
    simp [h₁, h₂, h₅, h₆, Nat.sub_pos_of_lt]
  · have h₅ : max q.begin b = b := by omega
    have h₆ : min q.end_ e = q.end_ := by omega
    simp [h₁, h₂, h₅, h₆, Nat.sub_pos_of_lt]
  · exact absurd ⟨by omega, by omega⟩ hne'

/-- After its break test the loop leaves the rest of an ordered list as `subtract` does. -/
theorem rest_of_notAfter {q cur : Range} {gs rest : List Range} (hq : q.begin < q.end_)
    (hgs : Ordered cur.end_ gs) (hrest : rest = gs.flatMap (cutOne q)) :
    (if rangeNotAfter q cur then gs else rest) = gs.flatMap (cutOne q) := by
  split
  · next h =>
    have hle : q.end_ ≤ cur.end_ := by simpa [rangeNotAfter] using h
    exact (flatMap_cutOne_of_le q gs hq (hgs.mono hle)).symm
  · exact hrest

theorem cutGap_end (g m : Range) (hm : m.begin ≤ g.end_) : (cutGap g m).2.end_ ≤ g.end_ := by
  unfold cutGap rangeCut rangeLen
  dsimp only
  split
  · split
    · exact Nat.le_refl _
    · exact hm
  · split <;> exact Nat.le_refl _

/-- Pushing a nonempty range subtracts it from the gaps. -/
theorem gaptrPushLoop_eq {lo : Nat} {q : Range} {gs : List Range} (hq : q.begin < q.end_)
    (h : Ordered lo gs) : gaptrPushLoop q gs = gs.flatMap (cutOne q) := by
  induction gs generalizing lo with
  | nil => rfl
  | cons g gs ih =>
    obtain ⟨hlo, hg, hgs⟩ := h
    have ih' := ih hgs
    simp only [gaptrPushLoop, List.flatMap_cons]
    split
    · next hm =>
      split
      · next he => rw [cutOne_of_eq hm he, ih', List.nil_append]
      · next hne =>
        rw [cutOne_of_ne hm hne, List.append_assoc, List.singleton_append]
        have hend : (cutGap g (rangeIntersect q g)).2.end_ ≤ g.end_ := by
          refine cutGap_end _ _ ?_
          have hlt := (rangeIntersect_len_pos q g).mp hm
          rw [rangeIntersect_of_pos hm]
          dsimp only
          omega
        congr 2
        by_cases hna : rangeNotAfter q (cutGap g (rangeIntersect q g)).2
        · have hle : q.end_ ≤ (cutGap g (rangeIntersect q g)).2.end_ := by
            simpa [rangeNotAfter] using hna
          rw [if_pos hna, flatMap_cutOne_of_le q gs hq (hgs.mono (by omega))]
        · rw [if_neg hna, ih']
    · next hm =>
      rw [cutOne_of_disjoint hg hq hm, List.singleton_append, rest_of_notAfter hq hgs ih']

/-- Pushing an empty range changes nothing. -/
theorem gaptrPushLoop_empty {q : Range} {gs : List Range} (hq : ¬q.begin < q.end_) :
    gaptrPushLoop q gs = gs := by
  induction gs with
  | nil => rfl
  | cons g gs ih =>
    have hm : ¬0 < rangeLen (rangeIntersect q g) := by
      rw [rangeIntersect_len_pos]
      omega
    simp only [gaptrPushLoop, hm, ↓reduceIte, ih, ite_self]

theorem gaptrPush_eq_subtract {lo : Nat} {gs : List Range} (offset datalen : Nat)
    (h : Ordered lo gs) : gaptrPush gs offset datalen = subtract ⟨offset, offset + datalen⟩ gs := by
  unfold gaptrPush subtract
  split
  · next hq => exact gaptrPushLoop_eq hq h
  · next hq => exact gaptrPushLoop_empty hq

/-! ## The stream ID tracker -/

/-- `ngtcp2_idtr`: `gap` holds the stream indices that are not used yet. -/
structure Idtr where
  gap : List Range
  server : Bool
  deriving DecidableEq, Repr

def idtrInit (server : Bool) : Idtr := ⟨gapsInit, server⟩

def idFromStreamId (streamId : Nat) : Nat := streamId / 4

/-- The loop of `ngtcp2_idtr_open`; `none` is `NGTCP2_ERR_STREAM_IN_USE`. -/
def idtrOpenLoop (q : Nat) : List Range → Option (List Range)
  | [] => none
  | g :: gs =>
    if q < g.begin then none
    else if g.end_ ≤ q then (idtrOpenLoop q gs).map (g :: ·)
    else if q = g.begin then
      if rangeLen g = 1 then some gs else some (⟨g.begin + 1, g.end_⟩ :: gs)
    else some (⟨g.begin, q⟩ :: ⟨q + 1, g.end_⟩ :: gs)

def idtrOpen (idtr : Idtr) (streamId : Nat) : Option Idtr :=
  (idtrOpenLoop (idFromStreamId streamId) idtr.gap).map fun gap => { idtr with gap }

/-- The loop of `ngtcp2_idtr_is_open`, true for `NGTCP2_ERR_STREAM_IN_USE`. -/
def idtrIsOpenLoop (q : Nat) : List Range → Bool
  | [] => false
  | g :: gs =>
    if q < g.begin then true
    else if g.end_ ≤ q then idtrIsOpenLoop q gs
    else false

def idtrIsOpen (idtr : Idtr) (streamId : Nat) : Bool :=
  idtrIsOpenLoop (idFromStreamId streamId) idtr.gap

def idtrFirstGap (idtr : Idtr) : Nat := firstGap uint64Max idtr.gap

/-- A gap and what is behind it, with one index taken out of the gap. -/
theorem inGap_or_ne {g : Range} {gs : List Range} {q n : Nat} {P : Prop} (hgs : Sorted g.end_ gs)
    (hq : q < g.end_) (hP : P ↔ n ∈ g ∧ n ≠ q) :
    P ∨ InGap gs n ↔ InGap (g :: gs) n ∧ n ≠ q := by
  rw [inGap_cons, hP, or_and_right]
  refine or_congr_right ⟨fun hn => ⟨hn, ?_⟩, And.left⟩
  have := hgs.le_of_inGap hn
  omega

/-- An index inside some gap is opened by taking it out of the gaps. -/
theorem idtrOpenLoop_some {lo q : Nat} {gs gs' : List Range} (h : Sorted lo gs)
    (ho : idtrOpenLoop q gs = some gs') :
    InGap gs q ∧ Sorted lo gs' ∧ ∀ n, InGap gs' n ↔ InGap gs n ∧ n ≠ q := by
  induction gs generalizing lo gs' with
  | nil => simp [idtrOpenLoop] at ho
  | cons g gs ih =>
    obtain ⟨b, e⟩ := g
    obtain ⟨hlo, hg, hgs⟩ := h
    dsimp only at hlo hg hgs
    simp only [idtrOpenLoop] at ho
    split at ho
    · simp at ho
    split at ho
    · obtain ⟨gs₁, h₁, rfl⟩ := Option.map_eq_some_iff.mp ho
      obtain ⟨hin, hord, hiff⟩ := ih hgs h₁
      refine ⟨(inGap_cons ..).mpr (.inr hin), ⟨hlo, hg, hord⟩, fun n => ?_⟩
      rw [inGap_cons, inGap_cons, hiff, or_and_right]
      refine or_congr_left ⟨fun hn => ⟨hn, ?_⟩, And.left⟩
      have := hn.2
      dsimp only at this
      omega
    have hin : InGap (⟨b, e⟩ :: gs) q := by
      rw [inGap_cons, mem_mk]
      omega
    refine ⟨hin, ?_⟩
    split at ho
    · split at ho
      · next hl =>
        simp only [rangeLen] at hl
        obtain rfl := Option.some.inj ho
        refine ⟨hgs.mono (by omega), fun n => ?_⟩
        have hb : False ↔ n ∈ (⟨b, e⟩ : Range) ∧ n ≠ q := by
          rw [mem_mk, false_iff]
          omega
        rw [← inGap_or_ne hgs (by dsimp only; omega) hb, false_or]
      · next hl =>
        simp only [rangeLen] at hl
        obtain rfl := Option.some.inj ho
        refine ⟨⟨by dsimp only; omega, by dsimp only; omega, hgs⟩, fun n => ?_⟩
        rw [inGap_cons]
        refine inGap_or_ne hgs (by dsimp only; omega) ?_
        rw [mem_mk, mem_mk]
        omega
    · obtain rfl := Option.some.inj ho
      have hord : Sorted q (⟨q + 1, e⟩ :: gs) := ⟨by dsimp only; omega, by dsimp only; omega, hgs⟩
      have hbq : b < q := by omega
      refine ⟨⟨hlo, Nat.le_of_lt hbq, hord⟩, fun n => ?_⟩
      rw [inGap_cons, inGap_cons, ← or_assoc]
      refine inGap_or_ne hgs (by dsimp only; omega) ?_
      rw [mem_mk, mem_mk, mem_mk]
      omega

theorem idtrOpenLoop_none {lo q : Nat} {gs : List Range} (h : Sorted lo gs)
    (ho : idtrOpenLoop q gs = none) : ¬InGap gs q := by
  induction gs generalizing lo with
  | nil => simp
  | cons g gs ih =>
    obtain ⟨hlo, hg, hgs⟩ := h
    rw [inGap_cons, mem_range]
    simp only [idtrOpenLoop] at ho
    split at ho
    · rintro (hn | hn)
      · omega
      · have := hgs.le_of_inGap hn
        omega
    split at ho
    · rintro (hn | hn)
      · omega
      · exact ih hgs (by simpa using ho) hn
    split at ho
    · split at ho <;> simp at ho
    · simp at ho

/-- `ngtcp2_idtr_is_open` answers whether the index has left the gaps. -/
theorem idtrIsOpenLoop_iff {lo q : Nat} {gs : List Range} (h : Sorted lo gs)
    (hq : ∃ n, q ≤ n ∧ InGap gs n) : idtrIsOpenLoop q gs = true ↔ ¬InGap gs q := by
  induction gs generalizing lo with
  | nil => obtain ⟨n, _, hn⟩ := hq; simp at hn
  | cons g gs ih =>
    obtain ⟨hlo, hg, hgs⟩ := h
    simp only [idtrIsOpenLoop, inGap_cons, mem_range]
    split
    · next hlt =>
      simp only [true_iff]
      rintro (hn | hn)
      · omega
      · have := hgs.le_of_inGap hn
        omega
    split
    · next hle =>
      have hq' : ∃ n, q ≤ n ∧ InGap gs n := by
        obtain ⟨n, hqn, hn⟩ := hq
        rcases (inGap_cons ..).mp hn with hn | hn
        · have := hn.2
          omega
        · exact ⟨n, hqn, hn⟩
      rw [ih hgs hq']
      constructor
      · rintro hn (hc | hc)
        · omega
        · exact hn hc
      · exact fun hn hc => hn (.inr hc)
    · simp only [Bool.false_eq_true, false_iff, not_not]
      exact .inl ⟨by omega, by omega⟩

end Ngtcp2
