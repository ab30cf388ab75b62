import Polygon.Gaptr

/-!
# The reorder buffer

`ngtcp2_rob` keeps the gaps of a received stream and the out-of-order bytes in
fixed-size chunks. A chunk comes from the allocator with arbitrary content, so
its bytes are a function of the position inside the chunk.
-/
namespace Ngtcp2

open Ranges

/-- `ngtcp2_rob_data`. -/
structure RobData where
  offset : Nat
  bytes : Nat → UInt8

/-- `ngtcp2_rob`; `mem` gives the content of freshly allocated memory. -/
structure Rob where
  gap : List Range
  data : List RobData
  chunk : Nat
  mem : Nat → UInt8

def robInit (chunk : Nat) (mem : Nat → UInt8) : Rob := ⟨gapsInit, [], chunk, mem⟩

/-- `memcpy` of `src` to position `at_` of a chunk. -/
def memcpyAt (bytes : Nat → UInt8) (at_ : Nat) (src : List UInt8) : Nat → UInt8 :=
  fun i => if at_ ≤ i then src.getD (i - at_) (bytes i) else bytes i

/-- `rob_write_data`. The fuel bounds the turns of its loop: each one skips a chunk or writes
at least one byte. -/
def robWriteData (chunk : Nat) (mem : Nat → UInt8) :
    Nat → List RobData → Nat → List UInt8 → List RobData
  | 0, ds, _, _ => ds
  | fuel + 1, ds, offset, data =>
    let write (d : RobData) (rest : List RobData) : List RobData :=
      let n := min data.length (d.offset + chunk - offset)
      let d' := { d with bytes := memcpyAt d.bytes (offset - d.offset) (data.take n) }
      if data.length - n = 0 then d' :: rest
      else d' :: robWriteData chunk mem fuel rest (offset + n) (data.drop n)
    match ds with
    | [] => write ⟨offset / chunk * chunk, mem⟩ []
    | d :: rest =>
      if offset < d.offset then write ⟨offset / chunk * chunk, mem⟩ (d :: rest)
      else if d.offset + chunk < offset then d :: robWriteData chunk mem fuel rest offset data
      else write d rest

/-- The bytes of the pushed range `q` that fall into its part `m`, written from the first chunk. -/
def robWrite (rob : Rob) (offset : Nat) (data : List UInt8) (m : Range) (ds : List RobData) :
    List RobData :=
  let src := (data.drop (m.begin - offset)).take (rangeLen m)
  robWriteData rob.chunk rob.mem (src.length + ds.length) ds m.begin src

/-- The loop of `ngtcp2_rob_push` over the gaps; `ds` is the chunk list at `rob->data`. -/
def robPushLoop (rob : Rob) (offset : Nat) (data : List UInt8) :
    List Range → List RobData → List Range × List RobData
  | [], ds => ([], ds)
  | g :: gs, ds =>
    let q : Range := ⟨offset, offset + data.length⟩
    let m := rangeIntersect q g
    if 0 < rangeLen m then
      let ds' := robWrite rob offset data m ds
      if g = m then robPushLoop rob offset data gs ds'
      else
        let (past, cur) := cutGap g m
        let (gs', ds'') := if rangeNotAfter q cur then (gs,
          ds') else robPushLoop rob offset data gs ds'
        (past ++ cur :: gs', ds'')
    else
      let (gs', ds') := if rangeNotAfter q g then (gs, ds) else robPushLoop rob offset data gs ds
      (g :: gs', ds')

def robPush (rob : Rob) (offset : Nat) (data : List UInt8) : Rob :=
  let (gap, ds) := robPushLoop rob offset data rob.gap rob.data
  { rob with gap, data := ds }

def robRemovePrefixGaps (offset : Nat) : List Range → List Range
  | [] => []
  | g :: gs =>
    if offset ≤ g.begin then g :: gs
    else if offset < g.end_ then ⟨offset, g.end_⟩ :: gs
    else robRemovePrefixGaps offset gs

def robRemovePrefixData (chunk offset : Nat) : List RobData → List RobData
  | [] => []
  | d :: ds =>
    if offset ≤ d.offset then d :: ds
    else if offset < d.offset + chunk then d :: ds
    else robRemovePrefixData chunk offset ds

def robRemovePrefix (rob : Rob) (offset : Nat) : Rob :=
  { rob with
    gap := robRemovePrefixGaps offset rob.gap
    data := robRemovePrefixData rob.chunk offset rob.data }

/-- `ngtcp2_rob_data_at`: the bytes at `offset`, none of them at a gap. `none` is a failed
assertion or the use of the null gap. -/
def robDataAt (rob : Rob) (offset : Nat) : Option (List UInt8) :=
  match rob.gap with
  | [] => none
  | g :: _ =>
    if g.begin ≤ offset then some []
    else
      match rob.data with
      | [] => none
      | d :: _ =>
        if d.offset ≤ offset ∧ offset < d.offset + rob.chunk then
          some ((List.range (min g.begin (d.offset + rob.chunk) - offset)).map
            fun i => d.bytes (offset - d.offset + i))
        else none

/-- `ngtcp2_rob_pop`; `none` is its failed assertion. -/
def robPop (rob : Rob) (offset len : Nat) : Option Rob :=
  match rob.data with
  | [] => none
  | d :: ds => some (if offset + len < d.offset + rob.chunk then rob else { rob with data := ds })

def robFirstGapOffset (rob : Rob) : Nat := firstGap uint64Max rob.gap

/-! ## Writing into the chunks -/

/-- The chunk list is sorted, without overlaps, aligned, and starts at `lo` or later. -/
def ChunksFrom (chunk : Nat) : Nat → List RobData → Prop
  | _, [] => True
  | lo, d :: ds => lo ≤ d.offset ∧ chunk ∣ d.offset ∧ ChunksFrom chunk (d.offset + chunk) ds

/-- Position `n` lies in a chunk that holds the byte `b` there. -/
def Stored (chunk : Nat) (ds : List RobData) (n : Nat) (b : UInt8) : Prop :=
  ∃ d ∈ ds, d.offset ≤ n ∧ n < d.offset + chunk ∧ d.bytes (n - d.offset) = b

theorem stored_cons (chunk : Nat) (d : RobData) (ds : List RobData) (n : Nat) (b : UInt8) :
    Stored chunk (d :: ds) n b ↔
      (d.offset ≤ n ∧ n < d.offset + chunk ∧ d.bytes (n - d.offset) = b) ∨ Stored chunk ds n b := by
  simp [Stored]

theorem ChunksFrom.mono {chunk lo lo' : Nat} {ds : List RobData} (h : ChunksFrom chunk lo ds)
    (hl : lo' ≤ lo) : ChunksFrom chunk lo' ds := by
  cases ds with
  | nil => trivial
  | cons d ds => exact ⟨Nat.le_trans hl h.1, h.2⟩

theorem ChunksFrom.le_of_stored {chunk lo n : Nat} {b : UInt8} {ds : List RobData}
    (h : ChunksFrom chunk lo ds) (hs : Stored chunk ds n b) : lo ≤ n := by
  induction ds generalizing lo with
  | nil => simp [Stored] at hs
  | cons d ds ih =>
    obtain ⟨hlo, _, hds⟩ := h
    rcases (stored_cons ..).mp hs with hd | hd
    · omega
    · have := ih hds hd
      omega

/-- Two chunks aligned to the same size do not overlap unless they are equal. -/
theorem aligned_le {chunk a b : Nat} (ha : chunk ∣ a) (hb : chunk ∣ b) (h : a < b) :
    a + chunk ≤ b := by
  obtain ⟨x, rfl⟩ := ha
  obtain ⟨y, rfl⟩ := hb
  have hxy : x < y := Nat.lt_of_mul_lt_mul_left h
  calc chunk * x + chunk = chunk * (x + 1) := (Nat.mul_succ chunk x).symm
    _ ≤ chunk * y := Nat.mul_le_mul_left _ hxy

theorem memcpyAt_of_mem {bytes : Nat → UInt8} {at_ i : Nat} {src : List UInt8}
    (hi : i < src.length) :
    memcpyAt bytes at_ src (at_ + i) = src[i] := by
  simp [memcpyAt, hi]

theorem memcpyAt_of_not_mem {bytes : Nat → UInt8} {at_ i : Nat} {src : List UInt8}
    (hi : i < at_ ∨ at_ + src.length ≤ i) : memcpyAt bytes at_ src i = bytes i := by
  unfold memcpyAt
  split
  · have : src.length ≤ i - at_ := by omega
    simp [this]
  · rfl

/-- `rob_write_data` writes exactly the given bytes, whatever the chunks are. -/
structure WriteSpec (chunk lo : Nat) (ds ds' : List RobData) (offset : Nat) (data : List UInt8) :
    Prop where
  chunks : ChunksFrom chunk lo ds'
  written : ∀ i (hi : i < data.length), Stored chunk ds' (offset + i) data[i]
  kept : ∀ n b, n < offset ∨ offset + data.length ≤ n → Stored chunk ds n b → Stored chunk ds' n b

/-- One turn of the write loop inside the chunk `d`, given what the rest of the loop does. -/
theorem writeSpec_chunk {chunk lo offset : Nat} (d : RobData) (rest rest' : List RobData)
    (data : List UInt8) (hlo : lo ≤ d.offset) (hal : chunk ∣ d.offset)
    (hds : ChunksFrom chunk (d.offset + chunk) rest) (hbeg : d.offset ≤ offset)
    (hend : offset ≤ d.offset + chunk) (n : Nat)
    (hn : n = min data.length (d.offset + chunk - offset))
    (hrest : if data.length - n = 0 then rest' = rest
      else WriteSpec chunk (d.offset + chunk) rest rest' (offset + n) (data.drop n)) :
    WriteSpec chunk lo (d :: rest)
      ({ d with bytes := memcpyAt d.bytes (offset - d.offset) (data.take n) } :: rest') offset data := by
  have hlen : (data.take n).length = n := by
    rw [List.length_take]
    omega
  have hrest' : ChunksFrom chunk (d.offset + chunk) rest' ∧
      (∀ i (hi : i < data.length), n ≤ i → Stored chunk rest' (offset + i) data[i]) ∧
      ∀ m b, m < offset ∨ offset + data.length ≤ m → Stored chunk rest m b →
        Stored chunk rest' m b := by
    split at hrest
    · subst hrest
      exact ⟨hds, fun i hi hni => by omega, fun m b _ hs => hs⟩
    · refine ⟨hrest.chunks, fun i hi hni => ?_, fun m b hm hs => hrest.kept m b ?_ hs⟩
      · have hi' : i - n < (data.drop n).length := by
          rw [List.length_drop]
          omega
        have hw := hrest.written (i - n) hi'
        have he : offset + n + (i - n) = offset + i := by omega
        have hd : (data.drop n)[i - n] = data[i] := by
          rw [List.getElem_drop]
          congr 1
          omega
        rwa [he, hd] at hw
      · rw [List.length_drop]
        omega
  obtain ⟨hchunks, hwritten, hkept⟩ := hrest'
  refine ⟨⟨hlo, hal, hchunks⟩, fun i hi => ?_, fun m b hm hs => ?_⟩
  · rw [stored_cons]
    by_cases hin : i < n
    · left
      refine ⟨by dsimp only; omega, by dsimp only; omega, ?_⟩
      have he : offset + i - d.offset = offset - d.offset + i := by omega
      dsimp only
      rw [he, memcpyAt_of_mem (by omega), List.getElem_take]
    · exact .inr (hwritten i hi (by omega))
  · rw [stored_cons]
    rcases (stored_cons ..).mp hs with hd | hd
    · left
      refine ⟨hd.1, hd.2.1, ?_⟩
      dsimp only
      rw [memcpyAt_of_not_mem (by omega)]
      exact hd.2.2
    · exact .inr (hkept m b hm hd)

theorem robWriteData_spec {chunk lo : Nat} (mem : Nat → UInt8) (hc : 0 < chunk) :
    ∀ (fuel : Nat) (ds : List RobData) (offset : Nat) (data : List UInt8),
      data.length + ds.length ≤ fuel → 0 < data.length → ChunksFrom chunk lo ds →
      lo ≤ offset / chunk * chunk →
      WriteSpec chunk lo ds (robWriteData chunk mem fuel ds offset data) offset data := by
  intro fuel
  induction fuel generalizing lo with
  | zero =>
    intro ds offset data hf hd
    omega
  | succ fuel ih =>
    intro ds offset data hf hd hds hlo
    have hfl : offset / chunk * chunk ≤ offset := Nat.div_mul_le_self _ _
    have hfu : offset < offset / chunk * chunk + chunk := Nat.lt_div_mul_add hc
    have hfd : chunk ∣ offset / chunk * chunk := Nat.dvd_mul_left _ _
    -- The turn that allocates a chunk in front of `ds`.
    have hnew : ∀ ds' : List RobData, ds'.length + data.length ≤ fuel + 1 →
        ChunksFrom chunk (offset / chunk * chunk + chunk) ds' →
        WriteSpec chunk lo ds'
          (let d : RobData := ⟨offset / chunk * chunk, mem⟩
            let n := min data.length (d.offset + chunk - offset)
            let d' := { d with bytes := memcpyAt d.bytes (offset - d.offset) (data.take n) }
            if data.length - n = 0 then d' :: ds'
            else d' :: robWriteData chunk mem fuel ds' (offset + n) (data.drop n)) offset data := by
      intro ds' hf' hds'
      have hspec := fun rest' hrest => writeSpec_chunk ⟨offset / chunk * chunk, mem⟩
        ds' rest' data hlo hfd hds' hfl (Nat.le_of_lt hfu) _ rfl hrest
      have hkeep : ∀ out, WriteSpec chunk lo
        (⟨offset / chunk * chunk, mem⟩ :: ds') out offset data →
          WriteSpec chunk lo ds' out offset data := fun out h =>
        ⟨h.chunks, h.written, fun n b hn hs => h.kept n b hn ((stored_cons ..).mpr (.inr hs))⟩
      dsimp only
      split
      · next hz => exact hkeep _ (hspec ds' (by rw [if_pos hz]))
      · next hz =>
        refine hkeep _ (hspec _ ?_)
        rw [if_neg hz]
        have hend : offset + min data.length (offset / chunk * chunk + chunk - offset) =
            offset / chunk * chunk + chunk := by omega
        refine ih ds' _ _ ?_ ?_ hds' ?_
        · rw [List.length_drop]
          omega
        · rw [List.length_drop]
          omega
        · dsimp only
          exact Nat.le_of_eq (by rw [hend, Nat.div_mul_cancel (Nat.dvd_add hfd (Nat.dvd_refl _))])
    cases ds with
    | nil => exact hnew [] (by simpa using hf) trivial
    | cons d rest =>
      simp only [List.length_cons] at hf
      obtain ⟨hdlo, hdal, hrest⟩ := hds
      simp only [robWriteData]
      split
      · next hlt =>
        refine hnew (d :: rest) (by rw [List.length_cons]; omega) ⟨?_, hdal, hrest⟩
        exact aligned_le hfd hdal (by omega)
      · next hge =>
        split
        · next hskip =>
          have hlo' : d.offset + chunk ≤ offset / chunk * chunk := by
            have := aligned_le (Nat.dvd_add hdal (Nat.dvd_refl _)) hfd
            by_contra hc'
            have hle := aligned_le hfd (Nat.dvd_add hdal (Nat.dvd_refl chunk)) (by omega)
            omega
          have hsp := ih rest offset data (by omega) hd hrest hlo'
          refine ⟨⟨hdlo, hdal, hsp.chunks⟩, fun i hi => ?_, fun n b hn hs => ?_⟩
          · exact (stored_cons ..).mpr (.inr (hsp.written i hi))
          · rcases (stored_cons ..).mp hs with hs | hs
            · exact (stored_cons ..).mpr (.inl hs)
            · exact (stored_cons ..).mpr (.inr (hsp.kept n b hn hs))
        · next hin =>
          have hspec := fun rest' hrest' => writeSpec_chunk d rest rest' data hdlo hdal hrest
            (Nat.le_of_not_lt hge) (Nat.le_of_not_lt hin) _ rfl hrest'
          split
          · next hz => exact hspec rest (by rw [if_pos hz])
          · next hz =>
            refine hspec _ ?_
            rw [if_neg hz]
            have hend : offset + min data.length (d.offset + chunk - offset) =
              d.offset + chunk := by
              omega
            refine ih rest _ _ ?_ ?_ hrest ?_
            · rw [List.length_drop]
              omega
            · rw [List.length_drop]
              omega
            · exact Nat.le_of_eq (by rw [hend,
                Nat.div_mul_cancel (Nat.dvd_add hdal (Nat.dvd_refl _))])

end Ngtcp2
