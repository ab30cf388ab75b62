import Polygon.Lib.ApartRanges
import Polygon.Lib.Runs
import Polygon.RobWords

/-!
# Runs of the reorder buffer

Slices of a byte string are pushed in any order, the prefix is cut at the first gap or beyond,
and the bytes in front of the first gap are read in order, as `conn_emit_pending_stream_data`
does. Whatever the run, the gaps are what was not received and the reads are the string.
-/
namespace Ngtcp2

open Ranges

/-- The buffer, and the offset from which its callers read on. -/
structure RobState where
  rob : Rob
  rx : Nat

inductive RobCall where
  | push (offset len : Nat)
  | removePrefix (offset : Nat)
  | read (bytes : List UInt8)

def robSlice (w : List UInt8) (offset len : Nat) : List UInt8 := (w.drop offset).take len

/-- One call, or the pair of `ngtcp2_rob_data_at` and `ngtcp2_rob_pop`. `UINT64_MAX` is the offset
of no gap. -/
inductive RobStep (w : List UInt8) : List RobCall → RobState → RobCall → RobState → Prop where
  | push {calls : List RobCall} {s : RobState} {offset len : Nat} (le : offset + len ≤ w.length) :
    RobStep w calls s (.push offset len)
      { s with rob := robPush64 s.rob offset (robSlice w offset len) }
  | removePrefix {calls : List RobCall} {s : RobState} {offset : Nat}
    (beyond : robFirstGapOffset s.rob ≤ offset) (lt : offset < uint64Max) :
    RobStep w calls s (.removePrefix offset) ⟨robRemovePrefix64 s.rob offset, offset⟩
  | read {calls : List RobCall} {s : RobState} {bytes : List UInt8} {rob' : Rob}
    (dataAt : robDataAt64 s.rob s.rx = some bytes) (found : bytes ≠ [])
    (pop : robPop64 s.rob s.rx bytes.length = some rob') :
    RobStep w calls s (.read bytes) ⟨rob', s.rx + bytes.length⟩

/-- The call brings the byte at `n`, or gives up on it. -/
def RobCall.Covers : RobCall → Nat → Prop
  | .push offset len, n => offset ≤ n ∧ n < offset + len
  | .removePrefix offset, n => n < offset
  | .read _, _ => False

def RobReceived (calls : List RobCall) (n : Nat) : Prop := ∃ c ∈ calls, c.Covers n

theorem robReceived_snoc (calls : List RobCall) (c : RobCall) (n : Nat) :
    RobReceived (calls ++ [c]) n ↔ RobReceived calls n ∨ c.Covers n := by
  simp [RobReceived, or_and_right, exists_or]

/-- What the buffer is to its callers. -/
structure RobReads (w : List UInt8) (chunk : Nat) (calls : List RobCall) (s : RobState) :
    Prop where
  apart : Apart 0 s.rob.gap
  gaps : ∀ n, InGap s.rob.gap n ↔ n < uint64Max ∧ ¬RobReceived calls n
  chunks : ChunksFrom chunk 0 s.rob.data
  dataAt : ∃ bytes, robDataAt64 s.rob s.rx = some bytes ∧
    (bytes = [] ↔ s.rx = robFirstGapOffset s.rob) ∧ bytes = robSlice w s.rx bytes.length ∧
    (bytes ≠ [] → (robPop64 s.rob s.rx bytes.length).isSome)

theorem robRemovePrefixGaps_apart {lo : Nat} (offset : Nat) {gs : List Range} (h : Apart lo gs) :
    Apart lo (robRemovePrefixGaps offset gs) := by
  induction gs generalizing lo with
  | nil => trivial
  | cons g gs ih =>
    obtain ⟨hlo, hg, hgs⟩ := h
    rw [robRemovePrefixGaps]
    split
    · exact ⟨hlo, hg, hgs⟩
    split
    · next hin hlt => exact ⟨by dsimp only; omega, hlt, hgs⟩
    · exact (ih hgs).mono (by omega)

theorem robSlice_length {w : List UInt8} {offset len : Nat} (h : offset + len ≤ w.length) :
    (robSlice w offset len).length = len := by
  rw [robSlice, List.length_take, List.length_drop]
  omega

theorem robSlice_getElem {w : List UInt8} {offset len i : Nat}
    (hi : i < (robSlice w offset len).length) :
    (robSlice w offset len)[i] = w.getD (offset + i) 0 := by
  have hlt : offset + i < w.length := by
    rw [robSlice, List.length_take, List.length_drop] at hi
    omega
  rw [List.getD_eq_getElem?_getD, List.getElem?_eq_getElem hlt, Option.getD_some]
  simp only [robSlice, List.getElem_take, List.getElem_drop]

/-- The reads of a run of positions are a slice. -/
theorem map_range_eq_robSlice {w : List UInt8} {offset len : Nat} (h : offset + len ≤ w.length) :
    (List.range len).map (fun i => w.getD (offset + i) 0) = robSlice w offset len := by
  have hlen := robSlice_length h
  refine List.ext_getElem ?_ fun i _ hi => ?_
  · rw [List.length_map, List.length_range, hlen]
  · rw [List.getElem_map, List.getElem_range, robSlice_getElem hi]

/-- What a run keeps. `passed`: nothing from `rx` on was given up. -/
structure RobKeeps (w : List UInt8) (chunk : Nat) (calls : List RobCall) (s : RobState) :
    Prop where
  upTo : RobUpTo (uint64Max - 1) (fun n => w.getD n 0) s.rx s.rob
  apart : Apart 0 s.rob.gap
  gaps : ∀ n, InGap s.rob.gap n ↔ n < uint64Max ∧ ¬RobReceived calls n
  fit : ChunksFit s.rob.chunk s.rob.data
  chunk_eq : s.rob.chunk = chunk
  passed : ∀ n, s.rx ≤ n → RobReceived calls n → n < w.length

section
variable {w : List UInt8} {chunk : Nat} {calls : List RobCall} {s : RobState}

theorem robKeeps_init (w : List UInt8) {chunk : Nat} (hc : 0 < chunk) (mem : Nat → UInt8) :
    RobKeeps w chunk [] ⟨robInit chunk mem, 0⟩ where
  upTo := robInit_upTo (by decide) _ chunk mem hc
  apart := ⟨Nat.le_refl _, by decide, trivial⟩
  gaps n := by simp [robInit, gapsInit, RobReceived]
  fit d hd := by cases hd
  chunk_eq := rfl
  passed n _ h := by simp [RobReceived] at h

theorem uint64Max_eq : uint64Max + 1 = 2 ^ 64 := by decide

theorem RobKeeps.push (h : RobKeeps w chunk calls s) (hw : w.length < uint64Max)
    (hfit : BytesFit chunk 0 w.length) {offset len : Nat} (hle : offset + len ≤ w.length) :
    RobKeeps w chunk (calls ++ [.push offset len])
      { s with rob := robPush64 s.rob offset (robSlice w offset len) } := by
  have hlen := robSlice_length hle
  have htop := uint64Max_eq
  have hbytes : BytesFit s.rob.chunk offset (robSlice w offset len).length := by
    intro n hn hlt
    rw [h.chunk_eq]
    exact hfit n (Nat.zero_le _) (by omega)
  obtain ⟨heq, hchunks⟩ := robPush64_eq h.upTo.chunk_pos (by omega) hbytes h.fit
  have hdata : ∀ i (hi : i < (robSlice w offset len).length), InGap s.rob.gap (offset + i) →
      w.getD (offset + i) 0 = (robSlice w offset len)[i] := fun i hi _ => (robSlice_getElem hi).symm
  obtain ⟨hupTo, hiff⟩ := h.upTo.push (by omega) hdata
  rw [heq]
  refine ⟨hupTo, ?_, fun n => ?_, hchunks, h.chunk_eq, fun n hn hrec => ?_⟩
  · dsimp only
    rw [robPush_gap s.rob h.apart.ordered]
    exact h.apart.subtract _
  · rw [hiff, h.gaps, robReceived_snoc, not_or, and_assoc, hlen]
    exact Iff.rfl
  · rcases (robReceived_snoc ..).mp hrec with hrec | hrec
    · exact h.passed n hn hrec
    · have := hrec.2
      omega

theorem RobKeeps.removePrefix (h : RobKeeps w chunk calls s) {offset : Nat}
    (hbeyond : robFirstGapOffset s.rob ≤ offset) (hlt : offset < uint64Max) :
    RobKeeps w chunk (calls ++ [.removePrefix offset])
      ⟨robRemovePrefix64 s.rob offset, offset⟩ := by
  obtain ⟨heq, hchunks⟩ := robRemovePrefix64_eq offset h.fit
  have hrx := h.upTo.le_firstGap
  obtain ⟨hupTo, hiff⟩ := h.upTo.removePrefix (Nat.le_trans hrx hbeyond) (Nat.le_sub_one_of_lt hlt)
  rw [heq]
  refine ⟨hupTo, robRemovePrefixGaps_apart offset h.apart, fun n => ?_, hchunks, h.chunk_eq,
    fun n hn hrec => ?_⟩
  · rw [hiff, h.gaps, robReceived_snoc, not_or, and_assoc, RobCall.Covers, Nat.not_lt]
  · dsimp only at hn
    rcases (robReceived_snoc ..).mp hrec with hrec | hrec
    · exact h.passed n (by omega) hrec
    · exact absurd hrec (Nat.not_lt.mpr hn)

/-- What a read finds in front of the first gap, and the buffer behind it. -/
theorem RobKeeps.read (h : RobKeeps w chunk calls s) (hrx : s.rx < robFirstGapOffset s.rob) :
    ∃ k rob', 0 < k ∧ robDataAt64 s.rob s.rx = some (robSlice w s.rx k) ∧
      (robSlice w s.rx k).length = k ∧ robPop64 s.rob s.rx k = some rob' ∧
      RobKeeps w chunk (calls ++ [.read (robSlice w s.rx k)]) ⟨rob', s.rx + k⟩ := by
  obtain ⟨k, rob', hk, hgap, hdata, hpop, hupTo, hsame, -⟩ := h.upTo.dataAt hrx
  have htop := uint64Max_eq
  have hmax := h.upTo.firstGap_le_max
  -- The last byte that is read was pushed.
  have hrec : RobReceived calls (s.rx + k - 1) := by
    by_contra hnot
    exact h.upTo.not_inGap_of_lt (by omega) ((h.gaps _).mpr ⟨by omega, hnot⟩)
  have hlast := h.passed _ (by omega) hrec
  have hle : s.rx + k ≤ w.length := by omega
  refine ⟨k, rob', hk, ?_, robSlice_length hle, ?_, hupTo, ?_, fun n => ?_,
    robPop_fit h.fit hpop, ?_, fun n hn hn' => ?_⟩
  · rw [robDataAt64_eq _ h.fit, hdata, map_range_eq_robSlice hle]
  · rw [robPop64_eq h.fit (by omega), hpop]
  · rw [hsame]
    exact h.apart
  · rw [hsame, h.gaps, robReceived_snoc]
    simp [RobCall.Covers]
  · unfold robPop at hpop
    split at hpop
    · cases hpop
    · obtain rfl := Option.some.inj hpop
      split <;> exact h.chunk_eq
  · rcases (robReceived_snoc ..).mp hn' with hn' | hn'
    · exact h.passed n (by dsimp only at hn; omega) hn'
    · cases hn'

theorem RobStep.keeps (hw : w.length < uint64Max) (hfit : BytesFit chunk 0 w.length)
    {s' : RobState} {c : RobCall} (h : RobKeeps w chunk calls s) (hstep : RobStep w calls s c s') :
    RobKeeps w chunk (calls ++ [c]) s' := by
  cases hstep with
  | push le => exact h.push hw hfit le
  | removePrefix beyond lt => exact h.removePrefix beyond lt
  | @read bytes rob' dataAt found pop =>
    have hrx : s.rx < robFirstGapOffset s.rob := by
      refine Nat.lt_of_le_of_ne h.upTo.le_firstGap fun heq => found ?_
      rw [robDataAt64_eq _ h.fit, h.upTo.dataAt_gap heq] at dataAt
      exact (Option.some.inj dataAt).symm
    obtain ⟨k, rob₁, -, hdata, hlen, hpop, hkeeps⟩ := h.read hrx
    obtain rfl := Option.some.inj (dataAt.symm.trans hdata)
    rw [hlen] at pop ⊢
    obtain rfl := Option.some.inj (pop.symm.trans hpop)
    exact hkeeps

theorem RobKeeps.reads (h : RobKeeps w chunk calls s) : RobReads w chunk calls s where
  apart := h.apart
  gaps := h.gaps
  chunks := h.chunk_eq ▸ h.upTo.chunks.mono (Nat.zero_le _)
  dataAt := by
    rcases Nat.lt_or_eq_of_le h.upTo.le_firstGap with hrx | hrx
    · obtain ⟨k, rob', hk, hdata, hlen, hpop, -⟩ := h.read hrx
      have hne : robSlice w s.rx k ≠ [] := by
        intro hnil
        rw [hnil] at hlen
        exact Nat.ne_of_lt hk hlen
      refine ⟨_, hdata, ⟨fun hnil => absurd hnil hne, fun heq => absurd heq (Nat.ne_of_lt hrx)⟩, ?_,
        fun _ => ?_⟩
      · rw [hlen]
      · rw [hlen, hpop]
        rfl
    · refine ⟨[], ?_, ⟨fun _ => hrx, fun _ => rfl⟩, rfl, fun hne => absurd rfl hne⟩
      rw [robDataAt64_eq _ h.fit, h.upTo.dataAt_gap hrx]

end

/-- No run of pushes, cuts and reads goes wrong, while no chunk of the string wraps around. -/
theorem rob_reads {w : List UInt8} {chunk : Nat} (hc : 1 ≤ chunk) (hw : w.length < uint64Max)
    (hfit : BytesFit chunk 0 w.length) {mem : Nat → UInt8} {calls : List RobCall} {s : RobState}
    (hrun : Runs.Run (RobStep w) ⟨robInit chunk mem, 0⟩ calls s) : RobReads w chunk calls s := by
  refine RobKeeps.reads (hrun.invariant (RobKeeps w chunk) (robKeeps_init w hc mem) ?_)
  intro calls s c s' h hstep
  exact hstep.keeps hw hfit h

/-- Three bytes in chunks of two. -/
theorem rob_reads_three : RobReads [5, 6, 7] 2 [.push 0 3]
    ⟨robPush64 (robInit 2 fun _ => 0) 0 [5, 6, 7], 0⟩ := by
  have hfit : BytesFit 2 0 [5, 6, 7].length := by
    intro n _ hn
    simp only [List.length_cons, List.length_nil] at hn
    omega
  exact rob_reads (by decide) (by decide) hfit (Runs.Run.nil.snoc (.push (by decide)))

end Ngtcp2
