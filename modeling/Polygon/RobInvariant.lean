import Polygon.Rob

/-!
# What the reorder buffer holds

For a delivery position `rx` and a content function `w`, every position from
`rx` on that is not in a gap is stored in a chunk with its byte of `w`. Pushing,
cutting the prefix and reading in order keep this.
-/
namespace Ngtcp2

open Ranges

theorem robPushLoop_gaps (rob : Rob) (offset : Nat) (data : List UInt8) (gs : List Range)
    (ds : List RobData) :
    (robPushLoop rob offset data gs ds).1 = gaptrPushLoop ⟨offset, offset + data.length⟩ gs := by
  induction gs generalizing ds with
  | nil => rfl
  | cons g gs ih =>
    simp only [robPushLoop, gaptrPushLoop]
    split
    · split
      · exact ih _
      · split <;> simp_all
    · split <;> simp_all

/-- The write of one gap's share of a pushed frame. -/
theorem robWrite_spec {rob : Rob} {lo : Nat} {m : Range} {ds : List RobData} (offset : Nat)
    (data : List UInt8)
    (hc : 0 < rob.chunk) (hds : ChunksFrom rob.chunk lo ds)
    (hlo : lo ≤ m.begin / rob.chunk * rob.chunk)
    (hm : m.begin < m.end_) (hbeg : offset ≤ m.begin) (hend : m.end_ ≤ offset + data.length) :
    ChunksFrom rob.chunk lo (robWrite rob offset data m ds) ∧
      (∀ i (hi : i < data.length), offset + i ∈ m →
        Stored rob.chunk (robWrite rob offset data m ds) (offset + i) data[i]) ∧
      ∀ n b, n ∉ m → Stored rob.chunk ds n b →
        Stored rob.chunk (robWrite rob offset data m ds) n b := by
  have hlen : ((data.drop (m.begin - offset)).take (rangeLen m)).length = m.end_ - m.begin := by
    rw [List.length_take, List.length_drop, rangeLen]
    omega
  have hspec := robWriteData_spec rob.mem hc
    (((data.drop (m.begin - offset)).take (rangeLen m)).length + ds.length) ds m.begin
    ((data.drop (m.begin - offset)).take (rangeLen m)) (Nat.le_refl _) (by omega) hds hlo
  refine ⟨hspec.chunks, fun i hi him => ?_, fun n b hn hs => hspec.kept n b ?_ hs⟩
  · rw [mem_range] at him
    have hw := hspec.written (offset + i - m.begin) (by omega)
    have he : m.begin + (offset + i - m.begin) = offset + i := by omega
    have hb : m.begin - offset + (offset + i - m.begin) = i := by omega
    simp only [List.getElem_take, List.getElem_drop, he, hb] at hw
    exact hw
  · rw [mem_range] at hn
    omega

/-- Every byte of the pushed range that was missing is stored, and no other byte changes. -/
theorem robPushLoop_spec {lo top : Nat} {gs : List Range} {ds : List RobData} (rob : Rob)
    (offset : Nat)
    (data : List UInt8) (hc : 0 < rob.chunk) (hgs : Ordered top gs)
    (hds : ChunksFrom rob.chunk lo ds)
    (hlo : lo ≤ top / rob.chunk * rob.chunk) :
    ChunksFrom rob.chunk lo (robPushLoop rob offset data gs ds).2 ∧
      (∀ i (hi : i < data.length), InGap gs (offset + i) →
        Stored rob.chunk (robPushLoop rob offset data gs ds).2 (offset + i) data[i]) ∧
      ∀ n b, ¬(InGap gs n ∧ offset ≤ n ∧ n < offset + data.length) → Stored rob.chunk ds n b →
        Stored rob.chunk (robPushLoop rob offset data gs ds).2 n b := by
  induction gs generalizing ds top with
  | nil => exact ⟨hds, fun i hi hg => by simp at hg, fun n b _ hs => hs⟩
  | cons g gs ih =>
    obtain ⟨htop, hg, hgs⟩ := hgs
    have hloe : lo ≤ g.end_ / rob.chunk * rob.chunk :=
      Nat.le_trans hlo (Nat.mul_le_mul_right _ (Nat.div_le_div_right (by omega)))
    -- The rest of the loop, or nothing when the break test ends it.
    have hrest : ∀ (cur : Range) (ds₁ : List RobData), cur.end_ ≤ g.end_ →
      ChunksFrom rob.chunk lo ds₁ →
        ∀ out, out = (if rangeNotAfter ⟨offset, offset + data.length⟩ cur then (gs, ds₁)
          else robPushLoop rob offset data gs ds₁) →
        ChunksFrom rob.chunk lo out.2 ∧
          (∀ i (hi : i < data.length), InGap gs (offset + i) →
            Stored rob.chunk out.2 (offset + i) data[i]) ∧
          ∀ n b, ¬(InGap gs n ∧ offset ≤ n ∧ n < offset + data.length) → Stored rob.chunk ds₁ n b →
            Stored rob.chunk out.2 n b := by
      rintro cur ds₁ hcur hds₁ out rfl
      split
      · next hna =>
        have hle : offset + data.length ≤ cur.end_ := by simpa [rangeNotAfter] using hna
        refine ⟨hds₁, fun i hi hgi => ?_, fun n b _ hs => hs⟩
        have := hgs.le_of_inGap hgi
        omega
      · exact ih hgs hds₁ hloe
    have hin : ∀ n, InGap gs n → g.end_ ≤ n := fun n hn => hgs.le_of_inGap hn
    simp only [robPushLoop]
    split
    · next hm =>
      have hlt := (rangeIntersect_len_pos _ _).mp hm
      have heq := rangeIntersect_of_pos hm
      dsimp only at hlt heq
      have hmem : ∀ n, n ∈ rangeIntersect ⟨offset, offset + data.length⟩ g ↔
          n ∈ g ∧ offset ≤ n ∧ n < offset + data.length := by
        intro n
        rw [heq, mem_mk, mem_range]
        omega
      have hlom : lo ≤ (rangeIntersect ⟨offset,
        offset + data.length⟩ g).begin / rob.chunk * rob.chunk := by
        refine Nat.le_trans hlo (Nat.mul_le_mul_right _ (Nat.div_le_div_right ?_))
        rw [heq]
        dsimp only
        omega
      obtain ⟨hch, hwr, hke⟩ := robWrite_spec offset data hc hds hlom
        (by rw [heq]; exact hlt) (by rw [heq]; dsimp only; omega) (by rw [heq]; dsimp only; omega)
      -- What the write and the rest of the loop do together.
      have hjoin : ∀ out : List RobData,
          (ChunksFrom rob.chunk lo out ∧
            (∀ i (hi : i < data.length), InGap gs (offset + i) →
              Stored rob.chunk out (offset + i) data[i]) ∧
            ∀ n b, ¬(InGap gs n ∧ offset ≤ n ∧ n < offset + data.length) →
              Stored rob.chunk (robWrite rob offset data
                (rangeIntersect ⟨offset, offset + data.length⟩ g) ds) n b →
                Stored rob.chunk out n b) →
          ChunksFrom rob.chunk lo out ∧
            (∀ i (hi : i < data.length), InGap (g :: gs) (offset + i) →
              Stored rob.chunk out (offset + i) data[i]) ∧
            ∀ n b, ¬(InGap (g :: gs) n ∧ offset ≤ n ∧ n < offset + data.length) →
              Stored rob.chunk ds n b → Stored rob.chunk out n b := by
        rintro out ⟨h₁, h₂, h₃⟩
        refine ⟨h₁, fun i hi hgi => ?_, fun n b hn hs => ?_⟩
        · rcases (inGap_cons ..).mp hgi with hgi | hgi
          · have hgi' := hgi.2
            refine h₃ _ _ (fun hc' => ?_) (hwr i hi ((hmem _).mpr ⟨hgi, by omega, by omega⟩))
            have := hin _ hc'.1
            omega
          · exact h₂ i hi hgi
        · rw [inGap_cons] at hn
          refine h₃ n b (fun hc' => hn ⟨.inr hc'.1, hc'.2⟩) (hke n b (fun hc' => ?_) hs)
          exact hn ⟨.inl ((hmem n).mp hc').1, ((hmem n).mp hc').2⟩
      split
      · exact hjoin _ (ih hgs hch hloe)
      · have hcut := cutGap_end g (rangeIntersect ⟨offset, offset + data.length⟩ g)
          (by rw [heq]; dsimp only; omega)
        have hstep := hrest _ _ hcut hch _ rfl
        exact hjoin _ hstep
    · next hm =>
      rw [rangeIntersect_len_pos] at hm
      dsimp only at hm
      obtain ⟨h₁, h₂, h₃⟩ := hrest g ds (Nat.le_refl _) hds _ rfl
      refine ⟨h₁, fun i hi hgi => h₂ i hi ?_, fun n b hn hs => h₃ n b ?_ hs⟩
      · rcases (inGap_cons ..).mp hgi with hgi | hgi
        · rw [mem_range] at hgi
          omega
        · exact hgi
      · exact fun hc' => hn ⟨(inGap_cons ..).mpr (.inr hc'.1), hc'.2⟩

/-- The buffer of a stream delivered up to `rx` whose bytes are those of `w`, none of them at or
behind `top`. -/
structure RobUpTo (top : Nat) (w : Nat → UInt8) (rx : Nat) (rob : Rob) : Prop where
  top_lt : top < uint64Max
  chunk_pos : 0 < rob.chunk
  gaps : Ordered rx rob.gap
  open_top : ∀ n, top ≤ n → n < uint64Max → InGap rob.gap n
  chunks : ChunksFrom rob.chunk (rx / rob.chunk * rob.chunk) rob.data
  stored : ∀ n, rx ≤ n → n < top → ¬InGap rob.gap n → Stored rob.chunk rob.data n (w n)

/-- The buffer of a stream delivered up to `rx` whose bytes are those of `w`. -/
abbrev RobInv : (Nat → UInt8) → Nat → Rob → Prop := RobUpTo maxVarint

theorem robInit_upTo {top : Nat} (htop : top < uint64Max) (w : Nat → UInt8) (chunk : Nat)
    (mem : Nat → UInt8)
    (hc : 0 < chunk) : RobUpTo top w 0 (robInit chunk mem) := by
  refine ⟨htop, hc, ?_, fun n hn hlt => ?_, trivial, fun n hn hlt hg => absurd ?_ hg⟩
  · simp [robInit, gapsInit, uint64Max]
  · simpa [robInit, gapsInit] using hlt
  · have : n < uint64Max := Nat.lt_trans hlt htop
    simpa [robInit, gapsInit] using this

theorem robInit_inv (w : Nat → UInt8) (chunk : Nat) (mem : Nat → UInt8) (hc : 0 < chunk) :
    RobInv w 0 (robInit chunk mem) := robInit_upTo (by decide) w chunk mem hc

section
variable {top : Nat} {w : Nat → UInt8} {rx : Nat} {rob : Rob}

theorem RobUpTo.gap_ne_nil (h : RobUpTo top w rx rob) : rob.gap ≠ [] := by
  intro hc
  have := h.open_top top (Nat.le_refl _) h.top_lt
  simp [hc] at this

theorem RobUpTo.le_firstGap (h : RobUpTo top w rx rob) : rx ≤ robFirstGapOffset rob :=
  h.gaps.le_of_inGap (h.gaps.inGap_firstGap h.gap_ne_nil)

theorem RobUpTo.inGap_firstGap (h : RobUpTo top w rx rob) : InGap rob.gap (robFirstGapOffset rob) :=
  h.gaps.inGap_firstGap h.gap_ne_nil

theorem RobUpTo.not_inGap_of_lt (h : RobUpTo top w rx rob) {n : Nat}
    (hn : n < robFirstGapOffset rob) :
    ¬InGap rob.gap n := by
  intro hg
  have : robFirstGapOffset rob ≤ n := h.gaps.firstGap_le hg
  omega

theorem RobUpTo.firstGap_le_max (h : RobUpTo top w rx rob) : robFirstGapOffset rob ≤ top :=
  h.gaps.firstGap_le (h.open_top top (Nat.le_refl _) h.top_lt)

/-- Only the content at received positions from `rx` on matters. -/
theorem RobUpTo.congr {w' : Nat → UInt8} (h : RobUpTo top w rx rob)
    (hw : ∀ n, rx ≤ n → ¬InGap rob.gap n → w' n = w n) : RobUpTo top w' rx rob :=
  ⟨h.top_lt, h.chunk_pos, h.gaps, h.open_top, h.chunks, fun n hn hlt hg => by
    rw [hw n hn hg]
    exact h.stored n hn hlt hg⟩

theorem robPush_gap (rob : Rob) {lo : Nat} (h : Ordered lo rob.gap) (offset : Nat)
    (data : List UInt8) :
    (robPush rob offset data).gap = subtract ⟨offset, offset + data.length⟩ rob.gap := by
  rw [robPush, ← gaptrPush_eq_subtract offset data.length h, gaptrPush,
    ← robPushLoop_gaps rob offset data rob.gap rob.data]

/-- A frame pushed into the buffer stores exactly its missing bytes. -/
theorem RobUpTo.push (h : RobUpTo top w rx rob) {offset : Nat} {data : List UInt8}
    (hend : offset + data.length ≤ top)
    (hdata : ∀ i (hi : i < data.length), InGap rob.gap (offset + i) → w (offset + i) = data[i]) :
    RobUpTo top w rx (robPush rob offset data) ∧
      ∀ n, InGap (robPush rob offset data).gap n ↔
        InGap rob.gap n ∧ ¬(offset ≤ n ∧ n < offset + data.length) := by
  have hgap := robPush_gap rob h.gaps offset data
  have hiff : ∀ n, InGap (robPush rob offset data).gap n ↔
      InGap rob.gap n ∧ ¬(offset ≤ n ∧ n < offset + data.length) := by
    intro n
    rw [hgap, inGap_subtract, mem_mk]
  obtain ⟨hch, hwr, hke⟩ := robPushLoop_spec rob offset data h.chunk_pos
    h.gaps h.chunks (Nat.le_refl _)
  refine ⟨⟨h.top_lt, h.chunk_pos, ?_, fun n hn hlt => ?_, hch, fun n hn hlt hg => ?_⟩, hiff⟩
  · rw [hgap]
    exact ordered_subtract _ h.gaps
  · exact (hiff n).mpr ⟨h.open_top n hn hlt, by omega⟩
  · rw [hiff] at hg
    by_cases hold : InGap rob.gap n
    · have hq : offset ≤ n ∧ n < offset + data.length := by
        by_contra hc
        exact hg ⟨hold, hc⟩
      have he : offset + (n - offset) = n := by omega
      have hst := hwr (n - offset) (by omega) (by rw [he]; exact hold)
      rw [← hdata (n - offset) (by omega) (by rw [he]; exact hold), he] at hst
      exact hst
    · exact hke n _ (fun hc => hold hc.1) (h.stored n hn hlt hold)

/-- Whatever bytes are pushed, the buffer holds the content of some stream. -/
theorem RobUpTo.push_any (h : RobUpTo top w rx rob) {offset : Nat} {data : List UInt8}
    (hend : offset + data.length ≤ top) :
    ∃ w', RobUpTo top w' rx (robPush rob offset data) := by
  classical
  have hsame :
      RobUpTo top (fun n => if InGap rob.gap n then data.getD (n - offset) 0 else w n) rx rob :=
    h.congr fun n _ hn => if_neg hn
  refine ⟨_, (hsame.push hend fun i hi hg => ?_).1⟩
  show (if InGap rob.gap (offset + i) then data.getD (offset + i - offset) 0 else w (offset + i)) =
    data[i]
  rw [if_pos hg, Nat.add_sub_cancel_left, List.getD_eq_getElem?_getD, List.getElem?_eq_getElem hi,
    Option.getD_some]

theorem robRemovePrefixGaps_spec {offset : Nat} {gs : List Range} (hgs : Ordered rx gs)
    (hle : rx ≤ offset) :
    Ordered offset (robRemovePrefixGaps offset gs) ∧
      ∀ n, InGap (robRemovePrefixGaps offset gs) n ↔ InGap gs n ∧ offset ≤ n := by
  induction gs generalizing rx with
  | nil => simp [robRemovePrefixGaps]
  | cons g gs ih =>
    obtain ⟨hlo, hg, hgs⟩ := hgs
    have hin : ∀ n, InGap gs n → g.end_ ≤ n := fun n hn => hgs.le_of_inGap hn
    simp only [robRemovePrefixGaps]
    split
    · next hb =>
      have hall : Ordered offset (g :: gs) := ⟨hb, hg, hgs⟩
      exact ⟨hall, fun n => ⟨fun hn => ⟨hn, hall.le_of_inGap hn⟩, And.left⟩⟩
    split
    · next hb he =>
      refine ⟨⟨Nat.le_refl _, he, hgs⟩, fun n => ?_⟩
      rw [inGap_cons, inGap_cons, mem_mk, mem_range, or_and_right]
      refine or_congr ⟨fun hn => ⟨⟨by omega, hn.2⟩, hn.1⟩, fun hn => ⟨hn.2, hn.1.2⟩⟩
        ⟨fun hn => ⟨hn, ?_⟩, And.left⟩
      have := hin n hn
      omega
    · next hb he =>
      obtain ⟨hord, hiff⟩ := ih hgs (by omega)
      refine ⟨hord, fun n => ?_⟩
      rw [hiff, inGap_cons, mem_range]
      constructor
      · exact fun hn => ⟨.inr hn.1, hn.2⟩
      · rintro ⟨hn | hn, hle'⟩
        · omega
        · exact ⟨hn, hle'⟩

theorem robRemovePrefixData_spec {chunk lo : Nat} {ds : List RobData} (offset : Nat)
    (hds : ChunksFrom chunk lo ds) :
    ChunksFrom chunk (offset / chunk * chunk) (robRemovePrefixData chunk offset ds) ∧
      ∀ n b, offset ≤ n → Stored chunk ds n b →
      Stored chunk (robRemovePrefixData chunk offset ds) n b := by
  have hfl : offset / chunk * chunk ≤ offset := Nat.div_mul_le_self _ _
  have hfd : chunk ∣ offset / chunk * chunk := Nat.dvd_mul_left _ _
  induction ds generalizing lo with
  | nil => exact ⟨trivial, fun n b _ hs => hs⟩
  | cons d ds ih =>
    obtain ⟨hlo, hal, hds⟩ := hds
    simp only [robRemovePrefixData]
    split
    · exact ⟨⟨by omega, hal, hds⟩, fun n b _ hs => hs⟩
    split
    · next hb he =>
      refine ⟨⟨?_, hal, hds⟩, fun n b _ hs => hs⟩
      by_contra hc'
      have := aligned_le hal hfd (by omega)
      omega
    · next hb he =>
      obtain ⟨h₁, h₂⟩ := ih hds
      refine ⟨h₁, fun n b hn hs => h₂ n b hn ?_⟩
      rcases (stored_cons ..).mp hs with hs | hs
      · omega
      · exact hs

/-- Cutting the prefix moves the delivery position forward. -/
theorem RobUpTo.removePrefix (h : RobUpTo top w rx rob) {offset : Nat} (hle : rx ≤ offset)
    (hmax : offset ≤ top) :
    RobUpTo top w offset (robRemovePrefix rob offset) ∧
      ∀ n, InGap (robRemovePrefix rob offset).gap n ↔ InGap rob.gap n ∧ offset ≤ n := by
  obtain ⟨hord, hiff⟩ := robRemovePrefixGaps_spec h.gaps hle
  obtain ⟨hch, hke⟩ := robRemovePrefixData_spec offset h.chunks
  refine ⟨⟨h.top_lt, h.chunk_pos, hord, fun n hn hlt => ?_, hch, fun n hn hlt hg => ?_⟩, hiff⟩
  · exact (hiff n).mpr ⟨h.open_top n hn hlt, by omega⟩
  · have hg' : ¬InGap rob.gap n := fun hc => hg ((hiff n).mpr ⟨hc, hn⟩)
    exact hke n _ hn (h.stored n (by omega) hlt hg')

/-- Reading at a gap yields nothing. -/
theorem RobUpTo.dataAt_gap (h : RobUpTo top w rx rob) (hrx : rx = robFirstGapOffset rob) :
    robDataAt rob rx = some [] := by
  unfold robDataAt
  cases hg : rob.gap with
  | nil => exact absurd hg h.gap_ne_nil
  | cons g gs =>
    have : g.begin ≤ rx := by
      rw [hrx, robFirstGapOffset, hg]
      exact Nat.le_refl _
    simp only [this, ↓reduceIte]

/-- Reading below the first gap yields the next bytes of `w`, and popping them leaves the rest. -/
theorem RobUpTo.dataAt (h : RobUpTo top w rx rob) (hrx : rx < robFirstGapOffset rob) :
    ∃ k rob', 0 < k ∧ rx + k ≤ robFirstGapOffset rob ∧
      robDataAt rob rx = some ((List.range k).map fun i => w (rx + i)) ∧
      robPop rob rx k = some rob' ∧ RobUpTo top w (rx + k) rob' ∧ rob'.gap = rob.gap ∧
      (rx + k < robFirstGapOffset rob → rob'.data.length < rob.data.length) := by
  have hmax := h.firstGap_le_max
  have hst := h.stored rx (Nat.le_refl _) (by omega) (h.not_inGap_of_lt hrx)
  have hfl : rx / rob.chunk * rob.chunk ≤ rx := Nat.div_mul_le_self _ _
  have hfu : rx < rx / rob.chunk * rob.chunk + rob.chunk := Nat.lt_div_mul_add h.chunk_pos
  have hfd : rob.chunk ∣ rx / rob.chunk * rob.chunk := Nat.dvd_mul_left _ _
  cases hd : rob.data with
  | nil => rw [hd] at hst; simp [Stored] at hst
  | cons d ds =>
    have hch := h.chunks
    rw [hd] at hch hst
    obtain ⟨hlo, hal, hds⟩ := hch
    have hdo : d.offset ≤ rx := by
      rcases (stored_cons ..).mp hst with hs | hs
      · exact hs.1
      · have := hds.le_of_stored hs
        omega
    have hoff : d.offset = rx / rob.chunk * rob.chunk := by
      by_contra hc
      have := aligned_le hfd hal (by omega)
      omega
    cases hg : rob.gap with
    | nil => exact absurd hg h.gap_ne_nil
    | cons g gs =>
      have hfirst : robFirstGapOffset rob = g.begin := by rw [robFirstGapOffset, hg, firstGap_cons]
      rw [hfirst] at hrx
      have hk : 0 < min g.begin (d.offset + rob.chunk) - rx := by omega
      have hbytes : ∀ i, i < min g.begin (d.offset + rob.chunk) - rx →
          d.bytes (rx - d.offset + i) = w (rx + i) := by
        intro i hi
        have hs := h.stored (rx + i) (by omega) (by omega)
          (h.not_inGap_of_lt (by rw [hfirst]; omega))
        rw [hd] at hs
        rcases (stored_cons ..).mp hs with hs | hs
        · rw [← hs.2.2]
          congr 1
          omega
        · have := hds.le_of_stored hs
          omega
      have hinv : ∀ rx', rx < rx' → rx' ≤ g.begin →
        ∀ ds', (∀ n b, rx' ≤ n → Stored rob.chunk rob.data n b →
          Stored rob.chunk ds' n b) → ChunksFrom rob.chunk (rx' / rob.chunk * rob.chunk) ds' →
          RobUpTo top w rx' { rob with data := ds' } := by
        intro rx' hlt hle ds' hkeep hch'
        refine ⟨h.top_lt, h.chunk_pos, ?_, h.open_top, hch', fun n hn hlt' hgn => ?_⟩
        · have hord := h.gaps
          rw [hg] at hord
          change Ordered rx' rob.gap
          rw [hg]
          exact ⟨hle, hord.2⟩
        · exact hkeep n _ hn (h.stored n (by omega) hlt' hgn)
      have hdata : robDataAt rob rx =
          some ((List.range (min g.begin (d.offset + rob.chunk) - rx)).map fun i => w (rx + i)) := by
        have hng : ¬g.begin ≤ rx := by omega
        have hin : d.offset ≤ rx ∧ rx < d.offset + rob.chunk := by omega
        unfold robDataAt
        simp only [hg, hd, hng, hin, and_self, ↓reduceIte, Option.some.injEq]
        exact List.map_congr_left fun i hi => hbytes i (List.mem_range.mp hi)
      refine ⟨_, _, hk, by omega, hdata, by rw [robPop, hd], ?_, by split <;> exact hg, ?_⟩
      · split
        · next hlt =>
          have hrob := hinv (rx + (min g.begin (d.offset + rob.chunk) - rx)) (by omega) (by omega)
            rob.data (fun n b _ hs => hs) ?_
          · exact hrob
          · rw [hd]
            refine ⟨?_, hal, hds⟩
            have hle : (rx + (min g.begin (d.offset + rob.chunk) - rx)) / rob.chunk * rob.chunk ≤
                rx + (min g.begin (d.offset + rob.chunk) - rx) := Nat.div_mul_le_self _ _
            by_contra hc
            have := aligned_le hal (Nat.dvd_mul_left rob.chunk _) (Nat.lt_of_not_le hc)
            omega
        · next hge =>
          have he : rx + (min g.begin (d.offset + rob.chunk) - rx) = d.offset + rob.chunk := by
            omega
          refine hinv _ (by omega) (by omega) ds (fun n b hn hs => ?_) ?_
          · rw [hd] at hs
            rcases (stored_cons ..).mp hs with hs | hs
            · omega
            · exact hs
          · rw [he, Nat.div_mul_cancel (Nat.dvd_add hal (Nat.dvd_refl _))]
            exact hds
      · intro hlt
        have hge : ¬rx + (min g.begin (d.offset + rob.chunk) - rx) < d.offset + rob.chunk := by
          omega
        rw [if_neg hge]
        simp
end

end Ngtcp2
