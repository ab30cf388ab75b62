import Mathlib.Data.List.Induction
import Mathlib.Order.Bounds.Basic
import Polygon.Gaptr
import Polygon.Lib.ApartRanges

/-!
# Runs of the stream ID tracker

What `ngtcp2_idtr` knows after any opened IDs. The return values are right in every run, the
list and its first gap as long as no call opens the last index of a gap of two or more:
`ngtcp2_idtr_open` splits that gap into what is left and an empty range, which stays.
-/
namespace Ngtcp2

open Ranges

/-- The assertion of `ngtcp2_idtr_open` and `ngtcp2_idtr_is_open`, with its parentheses. -/
def idtrAssert (server : Bool) (streamId : Nat) : Bool :=
  (server && streamId % 2 != 0) || ((!server && streamId % 2 != 0) == false)

/-- The loop of `ngtcp2_idtr_open`, with the list it leaves behind either way. -/
def idtrOpenWalk (q : Nat) : List Range → Except Err Unit × List Range
  | [] => (.error .streamInUse, [])
  | g :: gs =>
    if q < g.begin then (.error .streamInUse, g :: gs)
    else if g.end_ ≤ q then ((idtrOpenWalk q gs).1, g :: (idtrOpenWalk q gs).2)
    else if q = g.begin then
      if rangeLen g = 1 then (.ok (), gs) else (.ok (), ⟨g.begin + 1, g.end_⟩ :: gs)
    else (.ok (), ⟨g.begin, q⟩ :: ⟨q + 1, g.end_⟩ :: gs)

/-- The return value of `ngtcp2_idtr_open` and the tracker after the call. -/
def idtrOpenCall (idtr : Idtr) (streamId : Nat) : Except Err Unit × Idtr :=
  let r := idtrOpenWalk (idFromStreamId streamId) idtr.gap
  (r.1, { idtr with gap := r.2 })

/-- The tracker after the calls. -/
def idtrRun (server : Bool) (ids : List Nat) : Idtr :=
  ids.foldl (fun idtr id => (idtrOpenCall idtr id).2) (idtrInit server)

/-- The stream IDs `ngtcp2_idtr` takes. -/
def TrackerId (server : Bool) (id : Nat) : Prop := id < 2 ^ 64 ∧ idtrAssert server id = true

/-- The tracker tells which indices are opened. -/
structure IdtrTracks (idtr : Idtr) (opened : List Nat) : Prop where
  fresh : ∀ id, TrackerId idtr.server id → idFromStreamId id ∉ opened →
    (idtrOpenCall idtr id).1 = .ok ()
  again : ∀ id, TrackerId idtr.server id → idFromStreamId id ∈ opened →
    idtrOpenCall idtr id = (.error .streamInUse, idtr)
  isOpen : ∀ id, TrackerId idtr.server id →
    (idtrIsOpen idtr id = true ↔ idFromStreamId id ∈ opened)
  ordered : Ordered 0 idtr.gap
  firstGap : IsLeast { n | n ∉ opened } (idtrFirstGap idtr)

/-- The index behind is opened before this one, and the one in front of it is not. -/
def EndsGap (opened : List Nat) (q : Nat) : Prop :=
  q ∉ opened ∧ q + 1 ∈ opened ∧ 0 < q ∧ q - 1 ∉ opened

instance (opened : List Nat) (q : Nat) : Decidable (EndsGap opened q) :=
  inferInstanceAs (Decidable (_ ∧ _))

/-- IDs of the side of the tracker pass the assertion. -/
theorem trackerId_of_side {server : Bool} {id : Nat} (hid : id < 2 ^ 64)
    (hside : id % 2 = if server then 1 else 0) : TrackerId server id := by
  refine ⟨hid, ?_⟩
  cases server <;> simp_all [idtrAssert]

theorem idtrOpenWalk_eq (q : Nat) (gs : List Range) :
    idtrOpenWalk q gs = match idtrOpenLoop q gs with
      | some gs' => (.ok (), gs')
      | none => (.error .streamInUse, gs) := by
  induction gs with
  | nil => rfl
  | cons g gs ih =>
    rw [idtrOpenWalk, idtrOpenLoop]
    split
    · rfl
    split
    · rw [ih]
      cases idtrOpenLoop q gs <;> rfl
    split
    · split <;> rfl
    · rfl

/-- The last index of a gap that has more than it. -/
def LastOf (gs : List Range) (q : Nat) : Prop := 0 < q ∧ InGap gs (q - 1) ∧ ¬InGap gs (q + 1)

theorem idtrOpenLoop_apart {lo q : Nat} {gs gs' : List Range} (h : Apart lo gs)
    (ho : idtrOpenLoop q gs = some gs') (hlast : ¬LastOf gs q) : Apart lo gs' := by
  induction gs generalizing lo gs' with
  | nil => simp [idtrOpenLoop] at ho
  | cons g gs ih =>
    have hapart := h
    obtain ⟨hlo, hg, hgs⟩ := h
    simp only [idtrOpenLoop] at ho
    split at ho
    · simp at ho
    split at ho
    · next hbehind =>
      obtain ⟨gs₁, h₁, rfl⟩ := Option.map_eq_some_iff.mp ho
      refine ⟨hlo, hg, ih hgs h₁ ?_⟩
      rintro ⟨hpos, hin, hout⟩
      refine hlast ⟨hpos, (inGap_cons ..).mpr (.inr hin), ?_⟩
      rw [inGap_cons, mem_range]
      rintro (hmem | hmem)
      · omega
      · exact hout hmem
    split at ho
    · split at ho
      · obtain rfl := Option.some.inj ho
        exact hgs.mono (by omega)
      · next hlen =>
        obtain rfl := Option.some.inj ho
        simp only [rangeLen] at hlen
        exact ⟨by dsimp only; omega, by dsimp only; omega, hgs⟩
    · obtain rfl := Option.some.inj ho
      refine ⟨hlo, by dsimp only; omega, Nat.le_refl _, ?_, hgs⟩
      -- Were the right part empty, the index would be the last of its gap.
      by_contra hend
      dsimp only at hend
      refine hlast ⟨by omega, (inGap_cons ..).mpr (.inl ((mem_range _ _).mpr (by omega))), ?_⟩
      rw [hapart.inGap_of_le (by omega), mem_range]
      omega

/-- Opening the last index of a gap leaves an empty range. -/
theorem idtrOpenLoop_lastOf {lo q : Nat} {gs gs' : List Range} (h : Apart lo gs)
    (ho : idtrOpenLoop q gs = some gs') (hlast : LastOf gs q) : ∃ g ∈ gs', g.end_ ≤ g.begin := by
  induction gs generalizing lo gs' with
  | nil => simp [idtrOpenLoop] at ho
  | cons g gs ih =>
    have hin := (idtrOpenLoop_some h.ordered.sorted ho).1
    have hapart := h
    obtain ⟨hlo, hg, hgs⟩ := h
    obtain ⟨hpos, hprev, hnext⟩ := hlast
    simp only [idtrOpenLoop] at ho
    split at ho
    · simp at ho
    split at ho
    · next hbehind =>
      obtain ⟨gs₁, h₁, rfl⟩ := Option.map_eq_some_iff.mp ho
      have hq : g.end_ + 1 ≤ q := hgs.le_of_inGap (idtrOpenLoop_some hgs.ordered.sorted h₁).1
      have hprev' : InGap gs (q - 1) := by
        rcases (inGap_cons ..).mp hprev with hmem | hmem
        · have := hmem.2
          omega
        · exact hmem
      have hnext' : ¬InGap gs (q + 1) := fun hmem => hnext ((inGap_cons ..).mpr (.inr hmem))
      obtain ⟨g', hg', hempty⟩ := ih hgs h₁ ⟨hpos, hprev', hnext'⟩
      exact ⟨g', .tail _ hg', hempty⟩
    split at ho
    · have := hapart.begin_le hprev
      omega
    · obtain rfl := Option.some.inj ho
      refine ⟨⟨q + 1, g.end_⟩, .tail _ (.head _), ?_⟩
      by_contra hlt
      dsimp only at hlt
      exact hnext ((inGap_cons ..).mpr (.inl ((mem_range _ _).mpr (by omega))))

/-- An empty range is never removed. -/
theorem idtrOpenLoop_empty {q : Nat} {gs gs' : List Range} (ho : idtrOpenLoop q gs = some gs')
    (hempty : ∃ g ∈ gs, g.end_ ≤ g.begin) : ∃ g ∈ gs', g.end_ ≤ g.begin := by
  induction gs generalizing gs' with
  | nil => simp [idtrOpenLoop] at ho
  | cons g gs ih =>
    obtain ⟨g', hg', hle⟩ := hempty
    simp only [idtrOpenLoop] at ho
    split at ho
    · simp at ho
    split at ho
    · obtain ⟨gs₁, h₁, rfl⟩ := Option.map_eq_some_iff.mp ho
      cases hg' with
      | head => exact ⟨g, .head _, hle⟩
      | tail _ hg' =>
        obtain ⟨g'', hg'', hle'⟩ := ih h₁ ⟨g', hg', hle⟩
        exact ⟨g'', .tail _ hg'', hle'⟩
    have htail : g' ∈ gs := by
      cases hg' with
      | head => omega
      | tail _ hg' => exact hg'
    split at ho
    · split at ho
      all_goals
        obtain rfl := Option.some.inj ho
      · exact ⟨g', htail, hle⟩
      · exact ⟨g', .tail _ htail, hle⟩
    · obtain rfl := Option.some.inj ho
      exact ⟨g', .tail _ (.tail _ htail), hle⟩

/-- What every run keeps, with or without empty ranges. -/
structure IdtrInv (idtr : Idtr) (opened : List Nat) : Prop where
  sorted : Sorted 0 idtr.gap
  inGap : ∀ n, InGap idtr.gap n ↔ n < uint64Max ∧ n ∉ opened
  small : ∀ n ∈ opened, n < 2 ^ 62

theorem idFromStreamId_lt {id : Nat} (hid : id < 2 ^ 64) : idFromStreamId id < 2 ^ 62 := by
  unfold idFromStreamId
  omega

theorem two_pow_62_lt : 2 ^ 62 + 1 < uint64Max := by decide

theorem IdtrInv.init (server : Bool) : IdtrInv (idtrInit server) [] where
  sorted := ⟨Nat.le_refl _, Nat.zero_le _, trivial⟩
  inGap n := by simp [idtrInit, gapsInit]
  small n hn := by cases hn

theorem IdtrInv.inGap_iff {idtr : Idtr} {opened : List Nat} (h : IdtrInv idtr opened) {n : Nat}
    (hn : n ≤ 2 ^ 62) : InGap idtr.gap n ↔ n ∉ opened := by
  rw [h.inGap, and_iff_right]
  have := two_pow_62_lt
  omega

theorem idtrOpenCall_fresh {idtr : Idtr} {opened : List Nat} (h : IdtrInv idtr opened) {id : Nat}
    (hid : id < 2 ^ 64) (hnew : idFromStreamId id ∉ opened) :
    ∃ gap, idtrOpenLoop (idFromStreamId id) idtr.gap = some gap ∧
      idtrOpenCall idtr id = (.ok (), { idtr with gap }) := by
  cases ho : idtrOpenLoop (idFromStreamId id) idtr.gap with
  | none =>
    have hin := (h.inGap_iff (Nat.le_of_lt (idFromStreamId_lt hid))).mpr hnew
    exact absurd hin (idtrOpenLoop_none h.sorted ho)
  | some gap =>
    refine ⟨gap, rfl, ?_⟩
    rw [idtrOpenCall, idtrOpenWalk_eq, ho]

theorem idtrOpenCall_again {idtr : Idtr} {opened : List Nat} (h : IdtrInv idtr opened) {id : Nat}
    (hid : id < 2 ^ 64) (hold : idFromStreamId id ∈ opened) :
    idtrOpenCall idtr id = (.error .streamInUse, idtr) := by
  cases ho : idtrOpenLoop (idFromStreamId id) idtr.gap with
  | none => rw [idtrOpenCall, idtrOpenWalk_eq, ho]
  | some gap =>
    have hin := (h.inGap_iff (Nat.le_of_lt (idFromStreamId_lt hid))).mp
      (idtrOpenLoop_some h.sorted ho).1
    exact absurd hold hin

theorem idtrIsOpen_iff {idtr : Idtr} {opened : List Nat} (h : IdtrInv idtr opened) {id : Nat}
    (hid : id < 2 ^ 64) : idtrIsOpen idtr id = true ↔ idFromStreamId id ∈ opened := by
  have hsmall := idFromStreamId_lt hid
  have hfree : InGap idtr.gap (2 ^ 62) :=
    (h.inGap_iff (Nat.le_refl _)).mpr fun hmem => Nat.lt_irrefl _ (h.small _ hmem)
  rw [idtrIsOpen, idtrIsOpenLoop_iff h.sorted ⟨_, Nat.le_of_lt hsmall, hfree⟩,
    h.inGap_iff (Nat.le_of_lt hsmall), not_not]

theorem IdtrInv.call {idtr : Idtr} {opened : List Nat} (h : IdtrInv idtr opened) {id : Nat}
    (hid : id < 2 ^ 64) :
    IdtrInv (idtrOpenCall idtr id).2 (opened ++ [idFromStreamId id]) := by
  have hsmall : ∀ n ∈ opened ++ [idFromStreamId id], n < 2 ^ 62 := by
    intro n hn
    rcases List.mem_append.mp hn with hn | hn
    · exact h.small n hn
    · rw [List.mem_singleton.mp hn]
      exact idFromStreamId_lt hid
  by_cases hmem : idFromStreamId id ∈ opened
  · rw [idtrOpenCall_again h hid hmem]
    refine ⟨h.sorted, fun n => ?_, hsmall⟩
    rw [h.inGap, List.mem_append, List.mem_singleton]
    constructor
    · rintro ⟨hlt, hn⟩
      refine ⟨hlt, ?_⟩
      rintro (hn' | rfl)
      · exact hn hn'
      · exact hn hmem
    · rintro ⟨hlt, hn⟩
      exact ⟨hlt, fun hn' => hn (.inl hn')⟩
  · obtain ⟨gap, ho, hcall⟩ := idtrOpenCall_fresh h hid hmem
    obtain ⟨-, hsorted, hiff⟩ := idtrOpenLoop_some h.sorted ho
    rw [hcall]
    refine ⟨hsorted, fun n => ?_, hsmall⟩
    rw [hiff, h.inGap, List.mem_append, List.mem_singleton, not_or, and_assoc]

theorem idtrRun_snoc (server : Bool) (ids : List Nat) (id : Nat) :
    idtrRun server (ids ++ [id]) = (idtrOpenCall (idtrRun server ids) id).2 :=
  List.foldl_concat _ _ _ _

theorem idtrRun_inv (server : Bool) {ids : List Nat} (hids : ∀ id ∈ ids, id < 2 ^ 64) :
    IdtrInv (idtrRun server ids) (ids.map idFromStreamId) := by
  induction ids using List.reverseRecOn with
  | nil => exact .init server
  | append_singleton ids id ih =>
    rw [idtrRun_snoc, List.map_append]
    exact (ih fun i hi => hids i (List.mem_append_left _ hi)).call (hids id (by simp))

theorem IdtrInv.lastOf_iff {idtr : Idtr} {opened : List Nat} (h : IdtrInv idtr opened) {id : Nat}
    (hid : id < 2 ^ 64) (hnew : idFromStreamId id ∉ opened) :
    LastOf idtr.gap (idFromStreamId id) ↔ EndsGap opened (idFromStreamId id) := by
  have hsmall := idFromStreamId_lt hid
  rw [LastOf, EndsGap, h.inGap_iff (by omega), h.inGap_iff (by omega), not_not]
  constructor
  · rintro ⟨hpos, hprev, hnext⟩
    exact ⟨hnew, hnext, hpos, hprev⟩
  · rintro ⟨-, hnext, hpos, hprev⟩
    exact ⟨hpos, hprev, hnext⟩

/-- A call keeps the list apart, unless it ends a gap. -/
theorem idtrOpenCall_apart {idtr : Idtr} {opened : List Nat} (h : IdtrInv idtr opened)
    (hapart : Apart 0 idtr.gap) {id : Nat} (hid : id < 2 ^ 64)
    (hends : ¬EndsGap opened (idFromStreamId id)) : Apart 0 (idtrOpenCall idtr id).2.gap := by
  by_cases hmem : idFromStreamId id ∈ opened
  · rw [idtrOpenCall_again h hid hmem]
    exact hapart
  · obtain ⟨gap, ho, hcall⟩ := idtrOpenCall_fresh h hid hmem
    rw [hcall]
    exact idtrOpenLoop_apart hapart ho fun hlast => hends ((h.lastOf_iff hid hmem).mp hlast)

/-- A call that ends a gap leaves an empty range. -/
theorem idtrOpenCall_endsGap {idtr : Idtr} {opened : List Nat} (h : IdtrInv idtr opened)
    (hapart : Apart 0 idtr.gap) {id : Nat} (hid : id < 2 ^ 64)
    (hends : EndsGap opened (idFromStreamId id)) :
    ∃ g ∈ (idtrOpenCall idtr id).2.gap, g.end_ ≤ g.begin := by
  obtain ⟨gap, ho, hcall⟩ := idtrOpenCall_fresh h hid hends.1
  rw [hcall]
  exact idtrOpenLoop_lastOf hapart ho ((h.lastOf_iff hid hends.1).mpr hends)

theorem idtrOpenCall_empty {idtr : Idtr} {opened : List Nat} (h : IdtrInv idtr opened)
    (hempty : ∃ g ∈ idtr.gap, g.end_ ≤ g.begin) {id : Nat} (hid : id < 2 ^ 64) :
    ∃ g ∈ (idtrOpenCall idtr id).2.gap, g.end_ ≤ g.begin := by
  by_cases hmem : idFromStreamId id ∈ opened
  · rw [idtrOpenCall_again h hid hmem]
    exact hempty
  · obtain ⟨gap, ho, hcall⟩ := idtrOpenCall_fresh h hid hmem
    rw [hcall]
    exact idtrOpenLoop_empty ho hempty

/-- In every run the list is apart or has an empty range. -/
theorem idtrRun_apart_or_empty (server : Bool) {ids : List Nat} (hids : ∀ id ∈ ids, id < 2 ^ 64) :
    Apart 0 (idtrRun server ids).gap ∨ ∃ g ∈ (idtrRun server ids).gap, g.end_ ≤ g.begin := by
  induction ids using List.reverseRecOn with
  | nil => exact .inl ⟨Nat.le_refl _, by decide, trivial⟩
  | append_singleton ids id ih =>
    have hpast : ∀ i ∈ ids, i < 2 ^ 64 := fun i hi => hids i (List.mem_append_left _ hi)
    have hid : id < 2 ^ 64 := hids id (by simp)
    have hinv := idtrRun_inv server hpast
    rw [idtrRun_snoc]
    rcases ih hpast with hapart | hempty
    · by_cases hends : EndsGap (ids.map idFromStreamId) (idFromStreamId id)
      · exact .inr (idtrOpenCall_endsGap hinv hapart hid hends)
      · exact .inl (idtrOpenCall_apart hinv hapart hid hends)
    · exact .inr (idtrOpenCall_empty hinv hempty hid)

theorem idtrRun_apart_of_ordered {server : Bool} {ids : List Nat} (hids : ∀ id ∈ ids, id < 2 ^ 64)
    (h : Ordered 0 (idtrRun server ids).gap) : Apart 0 (idtrRun server ids).gap := by
  rcases idtrRun_apart_or_empty server hids with hapart | ⟨g, hg, hempty⟩
  · exact hapart
  · have := h.begin_lt hg
    omega

/-- The rest of what the tracker tells follows from the order of its list. -/
theorem IdtrInv.tracks {idtr : Idtr} {opened : List Nat} (h : IdtrInv idtr opened)
    (hordered : Ordered 0 idtr.gap) : IdtrTracks idtr opened where
  fresh id hid hnew := by
    obtain ⟨_, -, hcall⟩ := idtrOpenCall_fresh h hid.1 hnew
    rw [hcall]
  again _ hid hold := idtrOpenCall_again h hid.1 hold
  isOpen _ hid := idtrIsOpen_iff h hid.1
  ordered := hordered
  firstGap := by
    have hfree : InGap idtr.gap (2 ^ 62) :=
      (h.inGap_iff (Nat.le_refl _)).mpr fun hmem => Nat.lt_irrefl _ (h.small _ hmem)
    have hne : idtr.gap ≠ [] := by
      intro hnil
      rw [hnil] at hfree
      exact inGap_nil _ hfree
    refine ⟨((h.inGap _).mp (hordered.inGap_firstGap hne)).2, fun n hn => ?_⟩
    by_cases hlt : n < uint64Max
    · exact hordered.firstGap_le ((h.inGap n).mpr ⟨hlt, hn⟩)
    · have hle : idtrFirstGap idtr ≤ 2 ^ 62 := hordered.firstGap_le hfree
      have := two_pow_62_lt
      omega

/-- The tracker is right all the way exactly when no call ends a gap. -/
theorem idtrRun_tracks_iff (server : Bool) {ids : List Nat}
    (hids : ∀ id ∈ ids, TrackerId server id) :
    (∀ before after, ids = before ++ after →
      IdtrTracks (idtrRun server before) (before.map idFromStreamId)) ↔
    ∀ before id after, ids = before ++ id :: after →
      ¬EndsGap (before.map idFromStreamId) (idFromStreamId id) := by
  constructor
  · intro htracks before id after hsplit hends
    have hbefore : ∀ i ∈ before, i < 2 ^ 64 := fun i hi => (hids i (by simp [hsplit, hi])).1
    have hid : id < 2 ^ 64 := (hids id (by simp [hsplit])).1
    have hordered := (htracks before _ hsplit).ordered
    obtain ⟨g, hg, hempty⟩ := idtrOpenCall_endsGap (idtrRun_inv server hbefore)
      (idtrRun_apart_of_ordered hbefore hordered) hid hends
    have hafter := (htracks (before ++ [id]) after (by simp [hsplit])).ordered
    rw [idtrRun_snoc] at hafter
    have := hafter.begin_lt hg
    omega
  · intro hnone before after hsplit
    have hbefore : ∀ i ∈ before, i < 2 ^ 64 := fun i hi => (hids i (by simp [hsplit, hi])).1
    refine (idtrRun_inv server hbefore).tracks (Apart.ordered ?_)
    clear hids
    induction before using List.reverseRecOn generalizing after with
    | nil => exact ⟨Nat.le_refl _, by decide, trivial⟩
    | append_singleton before id ih =>
      have hpast : ∀ i ∈ before, i < 2 ^ 64 := fun i hi => hbefore i (List.mem_append_left _ hi)
      have hsplit' : ids = before ++ id :: after := by simp [hsplit]
      rw [idtrRun_snoc]
      exact idtrOpenCall_apart (idtrRun_inv server hpast) (ih _ hsplit' hpast)
        (hbefore id (by simp)) (hnone before id after hsplit')

/-- The indices 1 and 0, each at the left of its gap. -/
theorem idtrRun_tracks_iff_one :
    (∀ before after, [4, 0] = before ++ after →
      IdtrTracks (idtrRun false before) (before.map idFromStreamId)) ↔
    ∀ before id after, [4, 0] = before ++ id :: after →
      ¬EndsGap (before.map idFromStreamId) (idFromStreamId id) :=
  idtrRun_tracks_iff false fun id hid => trackerId_of_side (by simp at hid; omega)
    (by simp at hid; rcases hid with rfl | rfl <;> rfl)

/-- The indices 3, 2, 1, 0 in this order: an empty range after two calls, and in the end the
first gap is an index that is opened. -/
theorem idtrRun_not_tracks :
    ¬IdtrTracks (idtrRun false [12, 8]) ([12, 8].map idFromStreamId) ∧
    ¬IdtrTracks (idtrRun false [12, 8, 4, 0]) ([12, 8, 4, 0].map idFromStreamId) ∧
    idtrFirstGap (idtrRun false [12, 8, 4, 0]) = 2 := by
  refine ⟨fun h => ?_, fun h => ?_, by decide⟩
  · exact absurd h.ordered (by decide)
  · exact absurd h.firstGap.1 (by decide)

end Ngtcp2
