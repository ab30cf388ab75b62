import Polygon.ServerLocations

/-!
# The short form of a server's name

The comment of `getStdLocation` gives a Python expression for its value. The loop records a part of
the name only at the dash behind it, and the positions of the last two characters are computed
without a check, so the function throws for many names.
-/
namespace Balancer

/-- `t[:2] + t[-2:]`. -/
def ends (t : List Char) : List Char := t.take 2 ++ t.drop (t.length - 2)

/-- `'-'.join(t[:2] + t[-2:] for t in dc.split('-')[:2])`. -/
def pythonLocation (dc : String) : String :=
  String.ofList (['-'].intercalate (((dc.toList.splitOn '-').take 2).map ends))

/-- The first two of three or more parts have two characters each. -/
def LongParts (dc : String) : Prop :=
  ∃ a b c rest, dc.toList.splitOn '-' = a :: b :: c :: rest ∧ 2 ≤ a.length ∧ 2 ≤ b.length

/-- The loop sees the parts that end in a dash, and stops after the second. -/
theorem dashParts_eq {cnt : Nat} (hcnt : cnt < 2) (part s : List Char) :
    dashParts cnt part s = (((s.splitOn '-').modifyHead (part ++ ·)).dropLast).take (2 - cnt) := by
  induction s generalizing cnt part with
  | nil =>
    rw [List.splitOn_nil, dashParts]
    simp
  | cons c rest ih =>
    rw [dashParts]
    by_cases hc : c = '-'
    · have hsplit : (c :: rest).splitOn '-' = [] :: rest.splitOn '-' := by
        rw [List.splitOn_cons_eq_if_modifyHead, if_pos (by simpa using hc)]
      obtain ⟨a, parts, hrest⟩ := List.exists_cons_of_ne_nil (List.splitOn_ne_nil '-' rest)
      rw [if_pos hc, hsplit, List.modifyHead_cons, List.append_nil, hrest, List.dropLast_cons_cons]
      split
      · next hsecond =>
        obtain rfl : cnt = 1 := by omega
        rfl
      · next hfirst =>
        obtain rfl : cnt = 0 := by omega
        rw [ih (by decide) [], hrest]
        rfl
    · have hsplit : (c :: rest).splitOn '-' = (rest.splitOn '-').modifyHead (c :: ·) := by
        rw [List.splitOn_cons_eq_if_modifyHead, if_neg (by simpa using hc)]
      rw [if_neg hc, ih hcnt (part ++ [c]), hsplit, List.modifyHead_modifyHead]
      congr 3
      funext t
      simp

/-- The last two characters of a part; a shorter part is an exception. -/
theorem substr_lastTwo {s : List Char} (n : Nat) (hsize : s.length < 2 ^ 64) :
    substr s (lastTwo s) n =
      if 2 ≤ s.length then some ((s.drop (s.length - 2)).take n) else none := by
  unfold substr lastTwo
  by_cases hlong : 2 ≤ s.length
  · have hpos : (s.length + 2 ^ 64 - 2) % 2 ^ 64 = s.length - 2 := by omega
    rw [hpos, if_pos hlong, if_pos (Nat.sub_le _ _)]
  · rw [if_neg hlong, if_neg (by omega)]

theorem splitOn_length_le {a s : List Char} (h : a ∈ s.splitOn '-') : a.length ≤ s.length := by
  induction s generalizing a with
  | nil =>
    rw [List.splitOn_nil, List.mem_singleton] at h
    rw [h]
  | cons c rest ih =>
    rw [List.splitOn_cons_eq_if_modifyHead] at h
    rw [List.length_cons]
    obtain ⟨b, parts, hrest⟩ := List.exists_cons_of_ne_nil (List.splitOn_ne_nil '-' rest)
    split at h
    · rcases List.mem_cons.mp h with rfl | hmem
      · exact Nat.zero_le _
      · exact Nat.le_succ_of_le (ih hmem)
    · rw [hrest, List.modifyHead_cons] at h
      rcases List.mem_cons.mp h with rfl | hmem
      · rw [List.length_cons]
        exact Nat.succ_le_succ (ih (by rw [hrest]; exact List.mem_cons_self))
      · exact Nat.le_succ_of_le (ih (by rw [hrest]; exact List.mem_cons_of_mem _ hmem))

/-- The end of `getStdLocation`, from its two parts on. -/
def locationOf (pre0 pre1 : List Char) : Option String := do
  let a ← substr pre0 0 2
  let b ← substr pre0 (lastTwo pre0) pre0.length
  let c ← substr pre1 0 2
  let d ← substr pre1 (lastTwo pre1) pre0.length
  return String.ofList (a ++ b ++ ['-'] ++ c ++ d)

theorem getStdLocation_eq (dc : String) : getStdLocation dc =
    locationOf ((((dc.toList.splitOn '-').dropLast).take 2).getD 0 [])
      ((((dc.toList.splitOn '-').dropLast).take 2).getD 1 []) := by
  have hparts : (dc.toList.splitOn '-').modifyHead ([] ++ ·) = dc.toList.splitOn '-' := by
    obtain ⟨a, parts, h⟩ := List.exists_cons_of_ne_nil (List.splitOn_ne_nil '-' dc.toList)
    rw [h]
    rfl
  unfold getStdLocation
  dsimp only
  rw [dashParts_eq (by decide), hparts]
  rfl

theorem locationOf_eq {pre0 pre1 : List Char} (h₀ : pre0.length < 2 ^ 64)
    (h₁ : pre1.length < 2 ^ 64) : locationOf pre0 pre1 =
      if 2 ≤ pre0.length ∧ 2 ≤ pre1.length then
        some (String.ofList (ends pre0 ++ ['-'] ++ ends pre1))
      else none := by
  have hfirst : ∀ s : List Char, substr s 0 2 = some (s.take 2) := fun s =>
    if_pos (Nat.zero_le _)
  unfold locationOf
  rw [hfirst, hfirst, substr_lastTwo _ h₀, substr_lastTwo _ h₁]
  by_cases hlong₀ : 2 ≤ pre0.length
  · by_cases hlong₁ : 2 ≤ pre1.length
    · -- two characters are taken of the second part, whatever the length of the first is
      have htake₀ : (pre0.drop (pre0.length - 2)).take pre0.length = pre0.drop (pre0.length - 2) :=
        List.take_of_length_le (by rw [List.length_drop]; omega)
      have htake₁ : (pre1.drop (pre1.length - 2)).take pre0.length = pre1.drop (pre1.length - 2) :=
        List.take_of_length_le (by rw [List.length_drop]; omega)
      rw [if_pos hlong₀, if_pos hlong₁, if_pos ⟨hlong₀, hlong₁⟩, htake₀, htake₁]
      simp [ends]
    · rw [if_pos hlong₀, if_neg hlong₁, if_neg fun h => hlong₁ h.2]
      rfl
  · have hnot : ¬(2 ≤ pre0.length ∧ 2 ≤ pre1.length) := fun h => hlong₀ h.1
    rw [if_neg hlong₀, if_neg hnot]
    rfl

/-- The function gives the value of the expression for a name with two dashes and two characters in
each of the first two parts; for other names it throws. -/
theorem getStdLocation_cases (dc : String) (hsize : dc.length < 2 ^ 64) :
    (LongParts dc ∧ getStdLocation dc = some (pythonLocation dc)) ∨
      (¬LongParts dc ∧ getStdLocation dc = none) := by
  have hle : ∀ a ∈ dc.toList.splitOn '-', a.length < 2 ^ 64 := fun a ha =>
    Nat.lt_of_le_of_lt ((splitOn_length_le ha).trans_eq String.length_toList) hsize
  rw [getStdLocation_eq]
  unfold LongParts pythonLocation
  rcases hparts : dc.toList.splitOn '-' with _ | ⟨a, _ | ⟨b, _ | ⟨c, rest⟩⟩⟩
  · exact absurd hparts (List.splitOn_ne_nil _ _)
  · refine .inr ⟨by simp, ?_⟩
    change locationOf [] [] = none
    exact (locationOf_eq (by decide) (by decide)).trans (if_neg fun h => by simp at h)
  · refine .inr ⟨by simp, ?_⟩
    rw [hparts] at hle
    change locationOf a [] = none
    exact (locationOf_eq (hle a (by simp)) (by decide)).trans (if_neg fun h => by simp at h)
  · rw [hparts] at hle
    change _ ∧ locationOf a b = _ ∨ _ ∧ locationOf a b = _
    rw [locationOf_eq (hle a (by simp)) (hle b (by simp))]
    by_cases hlong : 2 ≤ a.length ∧ 2 ≤ b.length
    · left
      rw [if_pos hlong]
      refine ⟨⟨a, b, c, rest, rfl, hlong⟩, ?_⟩
      simp [List.intercalate]
    · right
      rw [if_neg hlong]
      refine ⟨?_, rfl⟩
      rintro ⟨a', b', c', rest', heq, hlong'⟩
      obtain ⟨rfl, rfl, -⟩ : a = a' ∧ b = b' ∧ _ := by simpa using heq
      exact hlong hlong'

/-- The value is that of the expression exactly for these names. -/
theorem getStdLocation_iff (dc : String) (hsize : dc.length < 2 ^ 64) :
    getStdLocation dc = some (pythonLocation dc) ↔ LongParts dc := by
  rcases getStdLocation_cases dc hsize with ⟨hlong, heq⟩ | ⟨hshort, hnone⟩
  · exact iff_of_true heq hlong
  · rw [hnone]
    exact iff_of_false nofun hshort

/-- A name with one dash, one without, and one with a short part. -/
theorem getStdLocation_throws :
    getStdLocation "asia-southeast1" = none ∧ pythonLocation "asia-southeast1" = "asia-sot1" ∧
      getStdLocation "tokyo" = none ∧ pythonLocation "tokyo" = "toyo" ∧
      getStdLocation "asia-x-c" = none ∧ pythonLocation "asia-x-c" = "asia-xx" := by
  decide +kernel

theorem getStdLocation_iff_southeast :
    getStdLocation "asia-southeast1-c" = some (pythonLocation "asia-southeast1-c") :=
  (getStdLocation_iff "asia-southeast1-c" (by decide)).mpr
    ⟨"asia".toList, "southeast1".toList, ['c'], [], by decide +kernel, by decide, by decide⟩

end Balancer
