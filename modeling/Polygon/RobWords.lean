import Polygon.RobInvariant

/-!
# The reorder buffer in 64 bits

`ngtcp2_rob` with the sums of `uint64_t` as they wrap around. Where the chunks of the pushed
bytes end below 2^64 no sum does, and the buffer is the one of unbounded numbers.
-/
namespace Ngtcp2

open Ranges

/-- One turn of the loop of `rob_write_data`: `n` bytes go to the chunk `d`. `more` is what the
loop makes of the chunks behind it while bytes remain. -/
def robWriteTurn (d : RobData) (offset : Nat) (data : List UInt8) (n : Nat)
    (rest more : List RobData) : List RobData :=
  let d' := { d with bytes := memcpyAt d.bytes (offset - d.offset) (data.take n) }
  if data.length - n = 0 then d' :: rest else d' :: more

/-- `rob_write_data`. -/
def robWriteData64 (chunk : Nat) (mem : Nat → UInt8) :
    Nat → List RobData → Nat → List UInt8 → List RobData
  | 0, ds, _, _ => ds
  | fuel + 1, ds, offset, data =>
    let write (d : RobData) (rest : List RobData) : List RobData :=
      let n := min data.length (subU64 (addU64 d.offset chunk) offset)
      robWriteTurn d offset data n rest
        (robWriteData64 chunk mem fuel rest (addU64 offset n) (data.drop n))
    match ds with
    | [] => write ⟨offset / chunk * chunk, mem⟩ []
    | d :: rest =>
      if offset < d.offset then write ⟨offset / chunk * chunk, mem⟩ (d :: rest)
      else if addU64 d.offset chunk < offset then
        d :: robWriteData64 chunk mem fuel rest offset data
      else write d rest

def robWrite64 (rob : Rob) (offset : Nat) (data : List UInt8) (m : Range) (ds : List RobData) :
    List RobData :=
  let src := (data.drop (m.begin - offset)).take (rangeLen m)
  robWriteData64 rob.chunk rob.mem (src.length + ds.length) ds m.begin src

/-- The loop of `ngtcp2_rob_push`. -/
def robPushLoop64 (rob : Rob) (offset : Nat) (data : List UInt8) :
    List Range → List RobData → List Range × List RobData
  | [], ds => ([], ds)
  | g :: gs, ds =>
    let q : Range := ⟨offset, addU64 offset data.length⟩
    let m := rangeIntersect q g
    if 0 < rangeLen m then
      let ds' := robWrite64 rob offset data m ds
      if g = m then robPushLoop64 rob offset data gs ds'
      else
        let (past, cur) := cutGap g m
        let (gs', ds'') :=
          if rangeNotAfter q cur then (gs, ds') else robPushLoop64 rob offset data gs ds'
        (past ++ cur :: gs', ds'')
    else
      let (gs', ds') :=
        if rangeNotAfter q g then (gs, ds) else robPushLoop64 rob offset data gs ds
      (g :: gs', ds')

def robPush64 (rob : Rob) (offset : Nat) (data : List UInt8) : Rob :=
  let (gap, ds) := robPushLoop64 rob offset data rob.gap rob.data
  { rob with gap, data := ds }

def robRemovePrefixData64 (chunk offset : Nat) : List RobData → List RobData
  | [] => []
  | d :: ds =>
    if offset ≤ d.offset then d :: ds
    else if offset < addU64 d.offset chunk then d :: ds
    else robRemovePrefixData64 chunk offset ds

def robRemovePrefix64 (rob : Rob) (offset : Nat) : Rob :=
  { rob with
    gap := robRemovePrefixGaps offset rob.gap
    data := robRemovePrefixData64 rob.chunk offset rob.data }

/-- `ngtcp2_rob_data_at`; `none` is a failed assertion or the use of the null gap. -/
def robDataAt64 (rob : Rob) (offset : Nat) : Option (List UInt8) :=
  match rob.gap with
  | [] => none
  | g :: _ =>
    if g.begin ≤ offset then some []
    else
      match rob.data with
      | [] => none
      | d :: _ =>
        if d.offset ≤ offset ∧ offset < addU64 d.offset rob.chunk then
          some ((List.range (subU64 (min g.begin (addU64 d.offset rob.chunk)) offset)).map
            fun i => d.bytes (offset - d.offset + i))
        else none

/-- `ngtcp2_rob_pop`; `none` is its failed assertion. -/
def robPop64 (rob : Rob) (offset len : Nat) : Option Rob :=
  match rob.data with
  | [] => none
  | d :: ds =>
    some (if addU64 offset len < addU64 d.offset rob.chunk then rob else { rob with data := ds })

/-! ## No sum wraps around -/

/-- Every chunk ends below 2^64. -/
def ChunksFit (chunk : Nat) (ds : List RobData) : Prop := ∀ d ∈ ds, d.offset + chunk < 2 ^ 64

/-- The chunk of every byte from `offset` on ends below 2^64. -/
def BytesFit (chunk offset len : Nat) : Prop :=
  ∀ n, offset ≤ n → n < offset + len → n / chunk * chunk + chunk < 2 ^ 64

theorem ChunksFit.cons {chunk : Nat} {d : RobData} {ds : List RobData}
    (hd : d.offset + chunk < 2 ^ 64) (h : ChunksFit chunk ds) : ChunksFit chunk (d :: ds) := by
  intro d' hd'
  rcases List.mem_cons.mp hd' with rfl | hd'
  · exact hd
  · exact h d' hd'

theorem ChunksFit.tail {chunk : Nat} {d : RobData} {ds : List RobData}
    (h : ChunksFit chunk (d :: ds)) : ChunksFit chunk ds := fun d' hd' => h d' (.tail _ hd')

/-- A byte is before the end of its chunk. -/
theorem BytesFit.lt {chunk offset len n : Nat} (hc : 0 < chunk) (h : BytesFit chunk offset len)
    (hle : offset ≤ n) (hlt : n < offset + len) : n < 2 ^ 64 := by
  have hfit := h n hle hlt
  have hmod := Nat.lt_div_mul_add hc (a := n)
  omega

theorem robWriteData64_eq {chunk : Nat} (hc : 0 < chunk) (mem : Nat → UInt8) (fuel : Nat)
    (ds : List RobData) (offset : Nat) (data : List UInt8) (hdata : 0 < data.length)
    (hds : ChunksFit chunk ds) (hbytes : BytesFit chunk offset data.length) :
    robWriteData64 chunk mem fuel ds offset data = robWriteData chunk mem fuel ds offset data ∧
      ChunksFit chunk (robWriteData chunk mem fuel ds offset data) := by
  induction fuel generalizing ds offset data with
  | zero => exact ⟨rfl, hds⟩
  | succ fuel ih =>
    -- The turn that writes to the chunk `d`.
    have hwrite : ∀ (d : RobData) (rest : List RobData), d.offset + chunk < 2 ^ 64 →
        offset ≤ d.offset + chunk → ChunksFit chunk rest → ∀ n,
        n = min data.length (d.offset + chunk - offset) →
        robWriteTurn d offset data n rest
          (robWriteData64 chunk mem fuel rest (addU64 offset n) (data.drop n)) =
        robWriteTurn d offset data n rest
          (robWriteData chunk mem fuel rest (offset + n) (data.drop n)) ∧
        ChunksFit chunk (robWriteTurn d offset data n rest
          (robWriteData chunk mem fuel rest (offset + n) (data.drop n))) := by
      intro d rest hd hoff hrest n hn
      unfold robWriteTurn
      dsimp only
      split
      · exact ⟨rfl, ChunksFit.cons hd hrest⟩
      · next hmore =>
        have hlen : (data.drop n).length = data.length - n := List.length_drop
        have hsum : addU64 offset n = offset + n :=
          addU64_of_lt (hbytes.lt hc (Nat.le_add_right _ _) (by omega))
        obtain ⟨heq, hfit⟩ := ih rest (offset + n) (data.drop n) (by omega) hrest
          fun m hle hlt => hbytes m (by omega) (by omega)
        rw [hsum, heq]
        exact ⟨rfl, ChunksFit.cons hd hfit⟩
    have hnew : offset / chunk * chunk + chunk < 2 ^ 64 :=
      hbytes offset (Nat.le_refl _) (by omega)
    have hfl : offset < offset / chunk * chunk + chunk := Nat.lt_div_mul_add hc
    have hroom : ∀ d : RobData, d.offset + chunk < 2 ^ 64 → offset ≤ d.offset + chunk →
        subU64 (addU64 d.offset chunk) offset = d.offset + chunk - offset := by
      intro d hd hoff
      rw [addU64_of_lt hd, subU64_of_le hoff hd]
    unfold robWriteData64 robWriteData
    dsimp only
    cases ds with
    | nil =>
      dsimp only
      rw [hroom ⟨offset / chunk * chunk, mem⟩ hnew (Nat.le_of_lt hfl)]
      exact hwrite ⟨_, mem⟩ [] hnew (Nat.le_of_lt hfl) hds _ rfl
    | cons d rest =>
      have hd : d.offset + chunk < 2 ^ 64 := hds d (.head _)
      dsimp only
      split
      · rw [hroom ⟨offset / chunk * chunk, mem⟩ hnew (Nat.le_of_lt hfl)]
        exact hwrite ⟨_, mem⟩ (d :: rest) hnew (Nat.le_of_lt hfl) hds _ rfl
      rw [addU64_of_lt hd]
      split
      · obtain ⟨heq, hfit⟩ := ih rest offset data hdata hds.tail hbytes
        rw [heq]
        exact ⟨rfl, ChunksFit.cons hd hfit⟩
      · next hin =>
        rw [subU64_of_le (Nat.le_of_not_lt hin) hd]
        exact hwrite d rest hd (Nat.le_of_not_lt hin) hds.tail _ rfl

theorem robWrite64_eq {rob : Rob} {offset : Nat} {data : List UInt8} {m : Range}
    {ds : List RobData} (hc : 0 < rob.chunk) (hds : ChunksFit rob.chunk ds)
    (hbytes : BytesFit rob.chunk offset data.length) (hm : 0 < rangeLen m)
    (hbegin : offset ≤ m.begin) (hend : m.end_ ≤ offset + data.length) :
    robWrite64 rob offset data m ds = robWrite rob offset data m ds ∧
      ChunksFit rob.chunk (robWrite rob offset data m ds) := by
  have hlen : ((data.drop (m.begin - offset)).take (rangeLen m)).length = rangeLen m := by
    rw [List.length_take, List.length_drop, rangeLen]
    omega
  refine robWriteData64_eq hc rob.mem _ ds m.begin _ (hlen.symm ▸ hm) hds fun n hle hlt => ?_
  rw [hlen, rangeLen] at hlt
  exact hbytes n (by omega) (by omega)

theorem robPushLoop64_eq {rob : Rob} {offset : Nat} {data : List UInt8} (hc : 0 < rob.chunk)
    (hq : offset + data.length < 2 ^ 64) (hbytes : BytesFit rob.chunk offset data.length)
    (gs : List Range) {ds : List RobData} (hds : ChunksFit rob.chunk ds) :
    robPushLoop64 rob offset data gs ds = robPushLoop rob offset data gs ds ∧
      ChunksFit rob.chunk (robPushLoop rob offset data gs ds).2 := by
  induction gs generalizing ds with
  | nil => exact ⟨rfl, hds⟩
  | cons g gs ih =>
    unfold robPushLoop64 robPushLoop
    dsimp only
    rw [addU64_of_lt hq]
    split
    · next hm =>
      have hinter := rangeIntersect_of_pos hm
      have hbegin : offset ≤ (rangeIntersect ⟨offset, offset + data.length⟩ g).begin := by
        rw [hinter]
        exact Nat.le_max_left _ _
      have hend : (rangeIntersect ⟨offset, offset + data.length⟩ g).end_ ≤
          offset + data.length := by
        rw [hinter]
        exact Nat.min_le_left _ _
      obtain ⟨hwrite, hfit⟩ := robWrite64_eq hc hds hbytes hm hbegin hend
      rw [hwrite, (ih hfit).1]
      split
      · exact ⟨rfl, (ih hfit).2⟩
      · refine ⟨rfl, ?_⟩
        split
        · exact hfit
        · exact (ih hfit).2
    · rw [(ih hds).1]
      refine ⟨rfl, ?_⟩
      split
      · exact hds
      · exact (ih hds).2

theorem robPush64_eq {rob : Rob} {offset : Nat} {data : List UInt8} (hc : 0 < rob.chunk)
    (hq : offset + data.length < 2 ^ 64) (hbytes : BytesFit rob.chunk offset data.length)
    (hds : ChunksFit rob.chunk rob.data) :
    robPush64 rob offset data = robPush rob offset data ∧
      ChunksFit rob.chunk (robPush rob offset data).data := by
  obtain ⟨heq, hfit⟩ := robPushLoop64_eq hc hq hbytes rob.gap hds
  rw [robPush64, heq]
  exact ⟨rfl, hfit⟩

theorem robRemovePrefixData64_eq {chunk : Nat} (offset : Nat) {ds : List RobData}
    (hds : ChunksFit chunk ds) :
    robRemovePrefixData64 chunk offset ds = robRemovePrefixData chunk offset ds ∧
      ChunksFit chunk (robRemovePrefixData chunk offset ds) := by
  induction ds with
  | nil => exact ⟨rfl, hds⟩
  | cons d ds ih =>
    rw [robRemovePrefixData64, robRemovePrefixData, addU64_of_lt (hds d (.head _))]
    split
    · exact ⟨rfl, hds⟩
    split
    · exact ⟨rfl, hds⟩
    · exact ih hds.tail

theorem robRemovePrefix64_eq {rob : Rob} (offset : Nat) (hds : ChunksFit rob.chunk rob.data) :
    robRemovePrefix64 rob offset = robRemovePrefix rob offset ∧
      ChunksFit rob.chunk (robRemovePrefix rob offset).data := by
  obtain ⟨heq, hfit⟩ := robRemovePrefixData64_eq offset hds
  rw [robRemovePrefix64, heq]
  exact ⟨rfl, hfit⟩

theorem robDataAt64_eq {rob : Rob} (offset : Nat) (hds : ChunksFit rob.chunk rob.data) :
    robDataAt64 rob offset = robDataAt rob offset := by
  unfold robDataAt64 robDataAt
  cases rob.gap with
  | nil => rfl
  | cons g gs =>
    dsimp only
    split
    · rfl
    · next hgap =>
      cases hd : rob.data with
      | nil => rfl
      | cons d ds =>
        have hfit : d.offset + rob.chunk < 2 ^ 64 := hds d (hd ▸ .head _)
        dsimp only
        rw [addU64_of_lt hfit]
        split
        · next hin =>
          have hmin : min g.begin (d.offset + rob.chunk) < 2 ^ 64 :=
            Nat.lt_of_le_of_lt (Nat.min_le_right _ _) hfit
          rw [subU64_of_le (by omega) hmin]
        · rfl

theorem robPop64_eq {rob : Rob} {offset len : Nat} (hds : ChunksFit rob.chunk rob.data)
    (hend : offset + len < 2 ^ 64) : robPop64 rob offset len = robPop rob offset len := by
  unfold robPop64 robPop
  cases hd : rob.data with
  | nil => rfl
  | cons d ds =>
    dsimp only
    rw [addU64_of_lt hend, addU64_of_lt (hds d (hd ▸ .head _))]

theorem robPop_fit {rob rob' : Rob} {offset len : Nat} (hds : ChunksFit rob.chunk rob.data)
    (h : robPop rob offset len = some rob') : ChunksFit rob'.chunk rob'.data := by
  unfold robPop at h
  split at h
  · cases h
  · next d ds hd =>
    obtain rfl := Option.some.inj h
    split
    · exact hds
    · rw [hd] at hds
      exact hds.tail

end Ngtcp2
