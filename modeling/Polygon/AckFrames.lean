import Mathlib.Data.List.TakeWhile
import Polygon.ConnRetransmit

/-!
# The ACK frames of the tracker

`conn_create_ack_frame` encodes the runs of consecutive packet numbers of the tracker.
So its frames are valid, and what does not fit lies below everything they acknowledge.
-/
namespace Ngtcp2

/-! ## What an ACK frame acknowledges -/

/-- The packet number is in one of the blocks that follow a block ending at `minAck`. -/
def InAckBlks : Int → List AckBlk → Nat → Prop
  | _, [], _ => False
  | minAck, blk :: blks, n =>
    let largestAck := minAck - blk.gap - 2
    (largestAck - blk.blklen ≤ n ∧ (n : Int) ≤ largestAck) ∨
      InAckBlks (largestAck - blk.blklen) blks n

/-- The ACK frame acknowledges the packet number. -/
def AckFrame.Covers (fr : AckFrame) (n : Nat) : Prop :=
  ((fr.largestAck : Int) - fr.firstAckBlklen ≤ n ∧ n ≤ fr.largestAck) ∨
    InAckBlks (fr.largestAck - fr.firstAckBlklen) fr.blks n

instance decidableInAckBlks :
    (minAck : Int) → (blks : List AckBlk) → (n : Nat) → Decidable (InAckBlks minAck blks n)
  | _, [], _ => inferInstanceAs (Decidable False)
  | minAck, blk :: blks, n =>
    have := decidableInAckBlks (minAck - blk.gap - 2 - blk.blklen) blks n
    inferInstanceAs (Decidable (_ ∨ _))

instance (fr : AckFrame) (n : Nat) : Decidable (fr.Covers n) := inferInstanceAs (Decidable (_ ∨ _))

/-- A valid frame with 64-bit packet numbers. -/
structure AckFrame.Wf (fr : AckFrame) : Prop where
  valid : pktValidateAck fr = true
  largest : fr.largestAck < 2 ^ 64

section
variable {minAck lo n : Nat} {blk : AckBlk} {blks : List AckBlk} {fr : AckFrame}

/-- In a valid frame no subtraction wraps. -/
theorem validateAckBlks_cons (h : validateAckBlks minAck (blk :: blks) = true)
    (hmin : minAck < 2 ^ 64) :
    (ackBlkRange minAck blk).2 + blk.gap + 2 = minAck ∧
      (ackBlkRange minAck blk).1 + blk.blklen = (ackBlkRange minAck blk).2 ∧
        validateAckBlks (ackBlkRange minAck blk).1 blks = true := by
  unfold validateAckBlks at h
  split at h
  · cases h
  next hgap =>
  split at h
  · cases h
  next hlen =>
  have hfirst : subU64 minAck blk.gap = minAck - blk.gap := subU64_of_le (by omega) (by omega)
  have hlargest : subU64 (subU64 minAck blk.gap) 2 = minAck - (blk.gap + 2) := by
    rw [hfirst, subU64_of_le (by omega) (by omega)]
    omega
  have hleast : (ackBlkRange minAck blk).1 = minAck - (blk.gap + 2) - blk.blklen := by
    rw [ackBlkRange, hlargest]
    exact subU64_of_le (by omega) (by omega)
  refine ⟨?_, ?_, ?_⟩
  · rw [ackBlkRange, hlargest]
    omega
  · rw [hleast, ackBlkRange, hlargest]
    omega
  · rw [hleast]
    exact h

theorem inAckBlks_cons (h : validateAckBlks minAck (blk :: blks) = true) (hmin : minAck < 2 ^ 64) :
    InAckBlks minAck (blk :: blks) n ↔
      ((ackBlkRange minAck blk).1 ≤ n ∧ n ≤ (ackBlkRange minAck blk).2) ∨
      InAckBlks (ackBlkRange minAck blk).1 blks n := by
  obtain ⟨hgap, hlen, -⟩ := validateAckBlks_cons h hmin
  have hlargest : (minAck : Int) - blk.gap - 2 = (ackBlkRange minAck blk).2 := by omega
  have hleast : (minAck : Int) - blk.gap - 2 - blk.blklen = (ackBlkRange minAck blk).1 := by omega
  rw [InAckBlks, hleast, hlargest, Int.ofNat_le, Int.ofNat_le]

theorem AckFrame.Wf.first (h : fr.Wf) :
    subU64 fr.largestAck fr.firstAckBlklen = fr.largestAck - fr.firstAckBlklen ∧
    fr.firstAckBlklen ≤ fr.largestAck ∧
    validateAckBlks (fr.largestAck - fr.firstAckBlklen) fr.blks = true := by
  have hvalid := h.valid
  unfold pktValidateAck at hvalid
  split at hvalid
  · cases hvalid
  · next hle =>
    exact ⟨subU64_of_le (Nat.le_of_not_lt hle) h.largest, Nat.le_of_not_lt hle, hvalid⟩

theorem AckFrame.Wf.covers (h : fr.Wf) : fr.Covers n ↔
    (subU64 fr.largestAck fr.firstAckBlklen ≤ n ∧ n ≤ fr.largestAck) ∨
      InAckBlks (subU64 fr.largestAck fr.firstAckBlklen : Nat) fr.blks n := by
  obtain ⟨hsub, hle, -⟩ := h.first
  have hcast : ((subU64 fr.largestAck fr.firstAckBlklen : Nat) : Int) =
    (fr.largestAck : Int) - fr.firstAckBlklen := by omega
  rw [AckFrame.Covers, ← hcast, Int.ofNat_le]

end

/-! ## Runs of packet numbers -/

/-- The runs of consecutive numbers of a decreasing list, the largest and the smallest of each: the
smallest number of the run that has come down to `lo`, and the runs below it. -/
def ackRuns : Nat → List Nat → Nat × List (Nat × Nat)
  | lo, [] => (lo, [])
  | lo, n :: ns =>
    let (lo', rs) := ackRuns n ns
    if n + 1 = lo then (lo', rs) else (lo, (n, lo') :: rs)

/-- The first runs whole, of the next one its largest number. -/
def cutRuns : Nat → List (Nat × Nat) → List (Nat × Nat)
  | _, [] => []
  | 0, r :: _ => [(r.1, r.1)]
  | k + 1, r :: rs => r :: cutRuns k rs

theorem cutRuns_nil (k : Nat) : cutRuns k [] = [] := by cases k <;> rfl

/-- The blocks of runs that follow a run ending at `lo`. -/
def ackBlksOf : Nat → List (Nat × Nat) → List AckBlk
  | _, [] => []
  | lo, r :: rs => ⟨lo - r.1 - 2, r.1 - r.2⟩ :: ackBlksOf r.2 rs

/-- The numbers that a frame of this kind acknowledges. -/
def AcktrEntry.visible (unprotected : Bool) (e : AcktrEntry) : Bool :=
    !(unprotected && !e.unprotected)

/-- The visible packet numbers, largest first. -/
def visibleNums (unprotected : Bool) (es : List AcktrEntry) : List Nat :=
  (es.filter (AcktrEntry.visible unprotected)).map (·.pktNum)

theorem mem_visibleNums {unprotected : Bool} {es : List AcktrEntry} {n : Nat}
    (h : n ∈ visibleNums unprotected es) :
    ∃ e ∈ es, e.pktNum = n := by
  obtain ⟨e, he, rfl⟩ := List.mem_map.mp h
  exact ⟨e, List.mem_of_mem_filter he, rfl⟩

theorem Descending.visibleNums {es : List AcktrEntry} (h : Descending (es.map (·.pktNum)))
    (unprotected : Bool) :
    Descending (visibleNums unprotected es) :=
  h.sublist (List.filter_sublist.map _)

/-- Runs below `lo`, with a gap above each of them. -/
def RunsBelow : Nat → List (Nat × Nat) → Prop
  | _, [] => True
  | lo, r :: rs => r.1 + 2 ≤ lo ∧ r.2 ≤ r.1 ∧ RunsBelow r.2 rs

theorem ackRuns_below {lo : Nat} {ns : List Nat} (h : Descending (lo :: ns)) :
    (ackRuns lo ns).1 ≤ lo ∧ RunsBelow (ackRuns lo ns).1 (ackRuns lo ns).2 := by
  induction ns generalizing lo with
  | nil => exact ⟨Nat.le_refl _, trivial⟩
  | cons n ns ih =>
    obtain ⟨hlt, hrest⟩ := List.pairwise_cons.mp h
    obtain ⟨hle, hbelow⟩ := ih hrest
    have hn : n < lo := hlt n List.mem_cons_self
    unfold ackRuns
    generalize ackRuns n ns = res at hle hbelow ⊢
    obtain ⟨lo', rs⟩ := res
    dsimp only at hle hbelow ⊢
    split
    · exact ⟨by omega, hbelow⟩
    · refine ⟨Nat.le_refl _, ?_, hle, hbelow⟩
      dsimp only
      omega

theorem RunsBelow.cut {lo : Nat} {rs : List (Nat × Nat)} (k : Nat) (h : RunsBelow lo rs) :
    RunsBelow lo (cutRuns k rs) := by
  induction rs generalizing lo k with
  | nil => cases k <;> exact h
  | cons r rs ih =>
    obtain ⟨hgap, hle, hrest⟩ := h
    cases k with
    | zero => exact ⟨hgap, Nat.le_refl _, trivial⟩
    | succ k => exact ⟨hgap, hle, ih k hrest⟩

theorem RunsBelow.valid {lo : Nat} {rs : List (Nat × Nat)} (h : RunsBelow lo rs) :
    validateAckBlks lo (ackBlksOf lo rs) = true := by
  induction rs generalizing lo with
  | nil => rfl
  | cons r rs ih =>
    obtain ⟨hgap, hle, hrest⟩ := h
    rw [ackBlksOf, validateAckBlks, if_neg (by dsimp only; omega), if_neg (by dsimp only; omega)]
    have hsub : lo - (lo - r.1 - 2 + 2) - (r.1 - r.2) = r.2 := by omega
    rw [hsub]
    exact ih hrest

/-! ## The block loop -/

/-- The smallest number of the lowest run. -/
def lowest : Nat → List (Nat × Nat) → Nat
  | lo, [] => lo
  | _, r :: rs => lowest r.2 rs

/-- The runs below the current one that still fit when the loop has written the blocks of `b`. -/
def AckBuild.below (b : AckBuild) (ns : List Nat) : List (Nat × Nat) :=
  cutRuns (if b.initial then maxAckBlks else maxAckBlks - 1 - b.blks.length)
    (ackRuns b.lastPktNum ns).2

/-- What the loop makes of the numbers `ns` of the entries `es`, and the entries it leaves behind. -/
structure Built (b : AckBuild) (ns : List Nat) (es : List AcktrEntry) (b' : AckBuild)
    (rest : List AcktrEntry) : Prop where
  first : b'.close.firstAckBlklen =
    if b.initial then b.firstPktNum - (ackRuns b.lastPktNum ns).1 else b.firstAckBlklen
  blks : b'.close.blks =
    (if b.initial then [] else b.blks ++ [⟨b.gap, b.firstPktNum - (ackRuns b.lastPktNum ns).1⟩]) ++
      ackBlksOf (ackRuns b.lastPktNum ns).1 (b.below ns)
  suffix : rest <:+ es
  full : rest ≠ [] → b'.close.blks.length = maxAckBlks + 1
  rest_le : ∀ e ∈ rest, e.pktNum ≤ lowest (ackRuns b.lastPktNum ns).1 (b.below ns)

/-- The loop may go on: the run it is in can still be written down. -/
structure AckBuild.Ready (b : AckBuild) : Prop where
  le : b.lastPktNum ≤ b.firstPktNum
  lt : b.firstPktNum < 2 ^ 64
  room : b.blks.length < maxAckBlks
  initial : b.initial = true → b.blks = []

section
variable {b b' : AckBuild} {e : AcktrEntry} {es rest : List AcktrEntry} {unprotected : Bool} {n : Nat}

theorem AckBuild.Ready.close (h : b.Ready) : b.close.firstAckBlklen =
      (if b.initial then b.firstPktNum - b.lastPktNum else b.firstAckBlklen) ∧
    b.close.blks = (if b.initial then [] else b.blks ++ [⟨b.gap, b.firstPktNum - b.lastPktNum⟩]) ∧
      b.close.initial = false := by
  have hsub : subU64 b.firstPktNum b.lastPktNum = b.firstPktNum - b.lastPktNum :=
    subU64_of_le h.le h.lt
  unfold AckBuild.close
  rw [hsub]
  split
  · next hinit => exact ⟨rfl, h.initial hinit, rfl⟩
  · next hinit => exact ⟨rfl, rfl, Bool.eq_false_iff.mpr hinit⟩

/-- The next run begins at a number that leaves a gap. -/
def AckBuild.next (b : AckBuild) (n : Nat) : AckBuild :=
  { b.close with gap := subU64 (subU64 b.lastPktNum n) 2, firstPktNum := n, lastPktNum := n }

theorem AckBuild.Ready.next_gap (h : b.Ready) (hgap : n + 2 ≤ b.lastPktNum) :
    (b.next n).gap = b.lastPktNum - n - 2 := by
  have hle := h.le
  have hlt := h.lt
  have hfirst : subU64 b.lastPktNum n = b.lastPktNum - n := subU64_of_le (by omega) (by omega)
  rw [AckBuild.next, hfirst]
  exact subU64_of_le (by omega) (by omega)

theorem ackRuns_gap {lo : Nat} (ns : List Nat) (hgap : n + 1 ≠ lo) :
    ackRuns lo (n :: ns) = (lo, (n, (ackRuns n ns).1) :: (ackRuns n ns).2) := by
  rw [ackRuns]
  exact if_neg hgap

theorem ackRuns_consecutive {lo : Nat} (ns : List Nat) (hnext : n + 1 = lo) :
    ackRuns lo (n :: ns) = ackRuns n ns := by
  rw [ackRuns]
  exact if_pos hnext

/-- An entry that the frame does not show is passed over. -/
theorem Built.skip {ns : List Nat} (h : Built b ns es b' rest) (e : AcktrEntry) :
    Built b ns (e :: es) b' rest :=
  ⟨h.first, h.blks, h.suffix.trans (List.suffix_cons e es), h.full, h.rest_le⟩

/-- The run grows by the number below it. -/
theorem Built.grow {ns : List Nat} (h : Built { b with lastPktNum := n } ns es b' rest)
    (hnext : n + 1 = b.lastPktNum)
    (e : AcktrEntry) : Built b (n :: ns) (e :: es) b' rest := by
  have hruns := ackRuns_consecutive ns hnext
  have hbelow : b.below (n :: ns) = AckBuild.below { b with lastPktNum := n } ns := by
    rw [AckBuild.below, hruns, AckBuild.below]
  refine ⟨?_, ?_, h.suffix.trans (List.suffix_cons e es), h.full, ?_⟩
  · rw [hruns]
    exact h.first
  · rw [hruns, hbelow]
    exact h.blks
  · rw [hruns, hbelow]
    exact h.rest_le

/-- The run is written down and the loop goes on with the next one. -/
theorem Built.next {ns : List Nat} (hready : b.Ready) (hgap : n + 2 ≤ b.lastPktNum)
    (hroom : (b.next n).blks.length < maxAckBlks)
    (h : Built (b.next n) ns es b' rest) (e : AcktrEntry) :
    Built b (n :: ns) (e :: es) b' rest := by
  obtain ⟨hfirst, hblks, hinitial⟩ := hready.close
  have hruns := ackRuns_gap ns (Nat.ne_of_lt hgap)
  have hnot : (b.next n).initial = false := hinitial
  have hlen : (b.next n).blks =
    if b.initial then [] else b.blks ++ [⟨b.gap, b.firstPktNum - b.lastPktNum⟩] := hblks
  have hbelow : b.below (n :: ns) = (n, (ackRuns n ns).1) :: (b.next n).below ns := by
    unfold AckBuild.below
    rw [hruns, hnot, hlen]
    cases hinit : b.initial with
    | true => rfl
    | false =>
      rw [hlen, hinit] at hroom
      have hsucc : maxAckBlks - 1 - b.blks.length =
          (maxAckBlks - 1 - (b.blks ++ [(⟨b.gap, b.firstPktNum - b.lastPktNum⟩ : AckBlk)]).length) + 1 := by
        simp only [Bool.false_eq_true, if_false, List.length_append,
          List.length_singleton] at hroom ⊢
        omega
      simp only [Bool.false_eq_true, if_false]
      rw [hsucc]
      rfl
  refine ⟨?_, ?_, h.suffix.trans (List.suffix_cons e es), h.full, ?_⟩
  · rw [h.first, hnot, hruns]
    exact hfirst
  · rw [h.blks, hnot, hbelow, hlen, hruns, hready.next_gap hgap]
    simp only [Bool.false_eq_true, if_false, List.append_assoc]
    rfl
  · rw [hbelow, hruns]
    exact h.rest_le

/-- The frame is full: of the next run it only gets the first number. -/
theorem Built.last {ns : List Nat} (hready : b.Ready) (hgap : n + 2 ≤ b.lastPktNum)
    (hlt : n < 2 ^ 64)
    (hfull : (b.next n).blks.length = maxAckBlks) (hrest : ∀ e ∈ rest, e.pktNum ≤ n) :
    Built b (n :: ns) rest (b.next n) rest := by
  obtain ⟨hfirst, hblks, hinitial⟩ := hready.close
  have hruns := ackRuns_gap ns (Nat.ne_of_lt hgap)
  have hnot : (b.next n).initial = false := hinitial
  have hlen : (b.next n).blks =
    if b.initial then [] else b.blks ++ [⟨b.gap, b.firstPktNum - b.lastPktNum⟩] := hblks
  have hinit : b.initial = false := by
    cases hinit : b.initial with
    | true =>
      rw [hlen, hinit] at hfull
      cases hfull
    | false => rfl
  have hbelow : b.below (n :: ns) = [(n, n)] := by
    rw [hlen, hinit] at hfull
    have hzero : maxAckBlks - 1 - b.blks.length = 0 := by
      simp only [Bool.false_eq_true, if_false, List.length_append, List.length_singleton] at hfull
      omega
    unfold AckBuild.below
    rw [hruns, hinit]
    simp only [Bool.false_eq_true, if_false, hzero]
    rfl
  have hclose : (b.next n).close.blks = (b.next n).blks ++ [⟨b.lastPktNum - n - 2, n - n⟩] := by
    have hsub : subU64 n n = n - n := subU64_of_le (Nat.le_refl n) hlt
    rw [← hready.next_gap hgap, ← hsub]
    unfold AckBuild.close
    rw [hnot]
    rfl
  have hfirst' : (b.next n).close.firstAckBlklen = b.close.firstAckBlklen := by
    unfold AckBuild.close
    rw [hnot]
    rfl
  refine ⟨?_, ?_, List.suffix_refl rest, fun _ => ?_, fun e he => ?_⟩
  · rw [hfirst', hruns]
    exact hfirst
  · rw [hclose, hlen, hbelow, hruns]
    rfl
  · rw [hclose, List.length_append, hfull]
    rfl
  · rw [hbelow, hruns]
    exact hrest e he

theorem AckBuild.Ready.next (h : b.Ready) (hlt : n < 2 ^ 64)
    (hne : (b.next n).blks.length ≠ maxAckBlks) :
    (b.next n).Ready := by
  obtain ⟨-, hblks, hinitial⟩ := h.close
  have hlen : (b.next n).blks =
    if b.initial then [] else b.blks ++ [⟨b.gap, b.firstPktNum - b.lastPktNum⟩] := hblks
  have hroom := h.room
  refine ⟨Nat.le_refl n, hlt, ?_, fun hi => ?_⟩
  · rw [hlen] at hne ⊢
    cases hinit : b.initial with
    | true => exact Nat.zero_lt_of_lt hroom
    | false =>
      simp only [hinit, Bool.false_eq_true, if_false, List.length_append,
        List.length_singleton] at hne ⊢
      omega
  · rw [show (b.next n).initial = false from hinitial] at hi
    cases hi

theorem createAckLoop_built (hready : b.Ready)
    (hdesc : Descending (b.lastPktNum :: es.map (·.pktNum)))
    (h : createAckLoop unprotected b es = (b', rest)) :
    Built b (visibleNums unprotected es) es b' rest := by
  induction es generalizing b with
  | nil =>
    obtain ⟨rfl, rfl⟩ := Prod.mk.inj h
    obtain ⟨hfirst, hblks, -⟩ := hready.close
    refine ⟨hfirst, ?_, List.suffix_refl [], fun hne => absurd rfl hne, by simp⟩
    have hbelow : b.below [] = [] := cutRuns_nil _
    rw [hblks, show visibleNums unprotected [] = [] from rfl, hbelow, ackBlksOf, List.append_nil]
    rfl
  | cons e es ih =>
    obtain ⟨hlast, hrest⟩ := List.pairwise_cons.mp hdesc
    have hlt : e.pktNum < b.lastPktNum := hlast e.pktNum (by simp)
    have hsub : Descending (b.lastPktNum :: es.map (·.pktNum)) :=
      List.pairwise_cons.mpr ⟨fun n hn => hlast n (List.mem_cons_of_mem _ hn),
        (List.pairwise_cons.mp hrest).2⟩
    have hadd : addU64 e.pktNum 1 = e.pktNum + 1 :=
      addU64_of_lt (by have := hready.le; have := hready.lt; omega)
    unfold createAckLoop at h
    split at h
    · next hhidden =>
      have hvisible : visibleNums unprotected (e :: es) = visibleNums unprotected es := by
        rw [visibleNums, List.filter_cons_of_neg (by rw [AcktrEntry.visible, hhidden]; simp)]
        rfl
      rw [hvisible]
      exact (ih hready hsub h).skip e
    next hshown =>
    have hvisible : visibleNums unprotected (e :: es) = e.pktNum :: visibleNums unprotected es := by
      rw [visibleNums, List.filter_cons_of_pos (by rw [AcktrEntry.visible, Bool.eq_false_iff.mpr hshown]; rfl)]
      rfl
    rw [hvisible]
    rw [hadd] at h
    split at h
    · next hnext =>
      have hready' : AckBuild.Ready { b with lastPktNum := e.pktNum } :=
        ⟨Nat.le_trans (Nat.le_of_lt hlt) hready.le, hready.lt, hready.room, hready.initial⟩
      exact (ih hready' hrest h).grow hnext e
    next hgap =>
    have hgap : e.pktNum + 2 ≤ b.lastPktNum := by omega
    have hlt64 : e.pktNum < 2 ^ 64 := by have := hready.le; have := hready.lt; omega
    change (if (b.next e.pktNum).blks.length = maxAckBlks then (b.next e.pktNum, e :: es)
      else createAckLoop unprotected (b.next e.pktNum) es) = (b', rest) at h
    split at h
    · next hfull =>
      obtain ⟨rfl, rfl⟩ := Prod.mk.inj h
      refine Built.last hready hgap hlt64 hfull fun e' he' => ?_
      rcases List.mem_cons.mp he' with rfl | he'
      · exact Nat.le_refl _
      · exact Nat.le_of_lt ((List.pairwise_cons.mp hrest).1 e'.pktNum (List.mem_map_of_mem he'))
    · next hmore =>
      have hready' := hready.next hlt64 hmore
      exact (ih hready' hrest h).next hready hgap hready'.room e

end

/-! ## The frame -/

/-- The frame built from the visible numbers `n :: ns`, and the entries it leaves in the tracker. -/
structure AckCreated (acktr : Acktr) (n : Nat) (ns : List Nat) (fr : AckFrame) (acktr' : Acktr) :
    Prop where
  largest : fr.largestAck = n
  first : fr.firstAckBlklen = n - (ackRuns n ns).1
  blks : fr.blks = ackBlksOf (ackRuns n ns).1 (cutRuns maxAckBlks (ackRuns n ns).2)
  kept : ∃ rest, acktr.ent = acktr'.ent ++ rest ∧ (rest ≠ [] → fr.blks.length = maxAckBlks + 1) ∧
    ∀ e ∈ rest, e.pktNum ≤ lowest (ackRuns n ns).1 (cutRuns maxAckBlks (ackRuns n ns).2)
  acks : acktr'.acks = acktr.acks

/-- The packet numbers of the tracker, largest first, are 64-bit numbers. -/
structure Acktr.Wf (acktr : Acktr) : Prop where
  desc : Descending (acktr.ent.map (·.pktNum))
  lt : ∀ e ∈ acktr.ent, e.pktNum < 2 ^ 64

theorem connCreateAckFrame_cases {conn conn' : Conn} {ts : Nat} {unprotected : Bool}
    {r : Option AckFrame}
    (hwf : conn.acktr.Wf) (h : connCreateAckFrame conn ts unprotected = (r, conn')) :
    (r = none ∧ conn'.acktr = conn.acktr) ∨ ∃ fr n ns, r = some fr ∧
      visibleNums unprotected conn.acktr.ent = n :: ns ∧
      AckCreated conn.acktr n ns fr conn'.acktr := by
  unfold connCreateAckFrame at h
  split at h
  · obtain ⟨rfl, rfl⟩ := Prod.mk.inj h
    exact .inl ⟨rfl, rfl⟩
  split at h
  · obtain ⟨rfl, rfl⟩ := Prod.mk.inj h
    exact .inl ⟨rfl, rfl⟩
  next rpkt es hents =>
  obtain ⟨hidden, hhidden, hsplit⟩ : ∃ hidden :
    List AcktrEntry, (∀ e ∈ hidden, (unprotected && !e.unprotected) = true) ∧
      hidden ++ rpkt :: es = conn.acktr.ent :=
    ⟨_, fun e he => List.mem_takeWhile_imp (p := fun e : AcktrEntry => unprotected && !e.unprotected) he, by rw [← hents, List.takeWhile_append_dropWhile]⟩
  have hmem : rpkt ∈ conn.acktr.ent := hsplit ▸ List.mem_append_right _ List.mem_cons_self
  have hshown : (unprotected && !rpkt.unprotected) = false := by
    have := List.head?_dropWhile_not
      (fun e : AcktrEntry => unprotected && !e.unprotected) conn.acktr.ent
    rw [hents] at this
    simpa using this
  -- The entries before the first visible one do not count.
  have hnums : visibleNums unprotected conn.acktr.ent =
    rpkt.pktNum :: visibleNums unprotected es := by
    unfold visibleNums
    rw [← hsplit, List.filter_append,
      List.filter_cons_of_pos (by rw [AcktrEntry.visible, hshown]; rfl)]
    have hnone : hidden.filter (AcktrEntry.visible unprotected) = [] := by
      rw [List.filter_eq_nil_iff]
      intro e he
      rw [AcktrEntry.visible, hhidden e he]
      simp
    rw [hnone]
    rfl
  have hdesc : Descending (rpkt.pktNum :: es.map (·.pktNum)) := by
    have hd := hwf.desc
    rw [← hsplit, List.map_append] at hd
    exact (List.pairwise_append.mp hd).2.1
  generalize hloop : createAckLoop unprotected ⟨rpkt.pktNum, rpkt.pktNum, true, 0, 0, []⟩ es =
    res at h
  obtain ⟨b, rest⟩ := res
  have hbuilt := createAckLoop_built (b := ⟨rpkt.pktNum, rpkt.pktNum, true, 0, 0, []⟩)
    ⟨Nat.le_refl _, hwf.lt rpkt hmem, (by decide : 0 < maxAckBlks), fun _ => rfl⟩ hdesc hloop
  obtain ⟨rfl, rfl⟩ := Prod.mk.inj h
  obtain ⟨kept, hkept⟩ := hbuilt.suffix
  refine .inr ⟨_, _, _, rfl, hnums, rfl, hbuilt.first, hbuilt.blks,
    ⟨rest, ?_, hbuilt.full, hbuilt.rest_le⟩, rfl⟩
  have htotal : conn.acktr.ent = (hidden ++ rpkt :: kept) ++ rest := by
    rw [List.append_assoc, List.cons_append, hkept, hsplit]
  change conn.acktr.ent = conn.acktr.ent.take (conn.acktr.ent.length - rest.length) ++ rest
  rw [htotal, List.length_append, Nat.add_sub_cancel, List.take_left]

section
variable {acktr acktr' : Acktr} {fr : AckFrame} {n : Nat} {ns : List Nat}

theorem AckCreated.wf (h : AckCreated acktr n ns fr acktr') (hdesc : Descending (n :: ns))
    (hlt : n < 2 ^ 64) : fr.Wf := by
  obtain ⟨hle, hbelow⟩ := ackRuns_below hdesc
  refine ⟨?_, h.largest ▸ hlt⟩
  rw [pktValidateAck, h.largest, h.first, if_neg (by omega), h.blks]
  have hsub : n - (n - (ackRuns n ns).1) = (ackRuns n ns).1 := by omega
  rw [hsub]
  exact (hbelow.cut _).valid

theorem RunsBelow.lowest_le {lo : Nat} {rs : List (Nat × Nat)} (h : RunsBelow lo rs) :
    lowest lo rs ≤ lo := by
  induction rs generalizing lo with
  | nil => exact Nat.le_refl lo
  | cons r rs ih =>
    obtain ⟨hgap, hle, hrest⟩ := h
    exact Nat.le_trans (ih hrest) (by omega)

theorem RunsBelow.inAckBlks {lo m : Nat} {rs : List (Nat × Nat)} (h : RunsBelow lo rs)
    (hm : InAckBlks lo (ackBlksOf lo rs) m) : lowest lo rs ≤ m := by
  induction rs generalizing lo with
  | nil => exact hm.elim
  | cons r rs ih =>
    obtain ⟨hgap, hle, hrest⟩ := h
    have hlargest : (lo : Int) - (lo - r.1 - 2 : Nat) - 2 = r.1 := by omega
    have hleast : (lo : Int) - (lo - r.1 - 2 : Nat) - 2 - (r.1 - r.2 : Nat) = r.2 := by omega
    rw [ackBlksOf, InAckBlks, hleast] at hm
    rcases hm with ⟨hge, -⟩ | hm
    · exact Nat.le_trans hrest.lowest_le (by omega)
    · exact ih hrest hm

/-- What the frame acknowledges is not below its lowest run. -/
theorem AckCreated.lowest_le (h : AckCreated acktr n ns fr acktr') (hdesc : Descending (n :: ns))
    {m : Nat}
    (hm : fr.Covers m) : lowest (ackRuns n ns).1 (cutRuns maxAckBlks (ackRuns n ns).2) ≤ m := by
  obtain ⟨hle, hbelow⟩ := ackRuns_below hdesc
  have hcut := hbelow.cut maxAckBlks
  have hleast : (n : Int) - (n - (ackRuns n ns).1 : Nat) = (ackRuns n ns).1 := by omega
  rw [AckFrame.Covers, h.largest, h.first, h.blks, hleast] at hm
  rcases hm with ⟨hge, -⟩ | hm
  · exact Nat.le_trans hcut.lowest_le (by omega)
  · exact hcut.inAckBlks hm

end

end Ngtcp2
