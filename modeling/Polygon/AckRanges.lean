import Polygon.AckOfAck
import Polygon.AckRoom

/-!
# The ranges of an ACK frame

A frame that holds every run of the tracker acknowledges the packets of the tracker and no
others. The limit on its blocks is tested before the last block is written.
-/
namespace Ngtcp2

/-! ## Maximal runs -/

/-- The numbers that end a maximal run of consecutive numbers at its upper end. -/
def runTops (ns : List Nat) : List Nat := ns.filter fun n => n + 1 ∉ ns

section
variable {lo n m : Nat} {ns : List Nat} {rs : List (Nat × Nat)}

theorem runTops_cons (h : Descending (n :: ns)) :
    runTops (n :: ns) = n :: ns.filter fun m => m + 1 ∉ n :: ns := by
  have hlt := (List.pairwise_cons.mp h).1
  have htop : n + 1 ∉ n :: ns := by
    intro hmem
    rcases List.mem_cons.mp hmem with heq | hmem
    · omega
    · have := hlt _ hmem
      omega
  unfold runTops
  rw [List.filter_cons_of_pos (p := fun m => decide (m + 1 ∉ n :: ns)) (decide_eq_true htop)]

/-- A larger number at the front only extends the run of the next one. -/
theorem filter_runTops (h : Descending (lo :: n :: ns)) :
    (ns.filter fun m => m + 1 ∉ lo :: n :: ns) = ns.filter fun m => m + 1 ∉ n :: ns := by
  obtain ⟨hlo, hrest⟩ := List.pairwise_cons.mp h
  have hn := (List.pairwise_cons.mp hrest).1
  apply List.filter_congr
  intro m hm
  have hlt : n < lo := hlo n List.mem_cons_self
  have hbelow : m < n := hn m hm
  have hne : m + 1 ≠ lo := by omega
  simp only [List.mem_cons, hne, false_or]

theorem runTops_length (h : Descending (lo :: ns)) :
    (runTops (lo :: ns)).length = (ackRuns lo ns).2.length + 1 := by
  induction ns generalizing lo with
  | nil =>
    rw [runTops_cons h]
    rfl
  | cons n ns ih =>
    obtain ⟨hlo, hrest⟩ := List.pairwise_cons.mp h
    have hlt : n < lo := hlo n List.mem_cons_self
    have hcount := ih hrest
    rw [runTops_cons hrest, List.length_cons] at hcount
    rw [runTops_cons h]
    by_cases hnext : n + 1 = lo
    · have hin : ¬(decide (n + 1 ∉ lo :: n :: ns) = true) := by
        rw [hnext]
        simp
      rw [List.filter_cons_of_neg (p := fun m => decide (m + 1 ∉ lo :: n :: ns)) hin,
        filter_runTops h, ackRuns_consecutive ns hnext, List.length_cons]
      exact hcount
    · have hout : n + 1 ∉ lo :: n :: ns := by
        intro hmem
        rcases List.mem_cons.mp hmem with heq | hmem
        · exact hnext heq
        · rcases List.mem_cons.mp hmem with heq | hmem
          · omega
          · have := (List.pairwise_cons.mp hrest).1 _ hmem
            omega
      rw [List.filter_cons_of_pos (p := fun m => decide (m + 1 ∉ lo :: n :: ns)) (decide_eq_true hout), filter_runTops h,
        ackRuns_gap ns hnext, List.length_cons, List.length_cons, List.length_cons, hcount]

/-- The runs hold the numbers of the list and no others. -/
theorem mem_ackRuns (h : Descending (lo :: ns)) :
    m ∈ lo :: ns ↔ ((ackRuns lo ns).1 ≤ m ∧ m ≤ lo) ∨ ∃ r ∈ (ackRuns lo ns).2, r.2 ≤ m ∧
    m ≤ r.1 := by
  induction ns generalizing lo with
  | nil =>
    simp only [ackRuns, List.mem_singleton, List.not_mem_nil, false_and, exists_false, or_false]
    omega
  | cons n ns ih =>
    obtain ⟨hlo, hrest⟩ := List.pairwise_cons.mp h
    have hlt : n < lo := hlo n List.mem_cons_self
    have hle := (ackRuns_below hrest).1
    rw [List.mem_cons, ih hrest]
    by_cases hnext : n + 1 = lo
    · rw [ackRuns_consecutive ns hnext]
      constructor
      · rintro (rfl | ⟨hge, hle'⟩ | hin)
        · exact .inl ⟨by omega, Nat.le_refl _⟩
        · exact .inl ⟨hge, by omega⟩
        · exact .inr hin
      · rintro (⟨hge, hle'⟩ | hin)
        · by_cases heq : m = lo
          · exact .inl heq
          · exact .inr (.inl ⟨hge, by omega⟩)
        · exact .inr (.inr hin)
    · rw [ackRuns_gap ns hnext, List.exists_mem_cons_iff]
      have hone : lo ≤ m ∧ m ≤ lo ↔ m = lo := by omega
      rw [hone]

/-- The blocks of the runs stand for the runs. -/
theorem RunsBelow.inAckBlks_iff (h : RunsBelow lo rs) :
    InAckBlks lo (ackBlksOf lo rs) m ↔ ∃ r ∈ rs, r.2 ≤ m ∧ m ≤ r.1 := by
  induction rs generalizing lo with
  | nil => simp [ackBlksOf, InAckBlks]
  | cons r rs ih =>
    obtain ⟨hgap, hle, hrest⟩ := h
    have hlargest : (lo : Int) - (lo - r.1 - 2 : Nat) - 2 = r.1 := by omega
    have hleast : (lo : Int) - (lo - r.1 - 2 : Nat) - 2 - (r.1 - r.2 : Nat) = r.2 := by omega
    rw [ackBlksOf, InAckBlks, hleast, hlargest, ih hrest, List.exists_mem_cons_iff, Int.ofNat_le,
      Int.ofNat_le]

theorem cutRuns_of_le {k : Nat} (h : rs.length ≤ k) : cutRuns k rs = rs := by
  induction rs generalizing k with
  | nil => exact cutRuns_nil k
  | cons r rs ih =>
    cases k with
    | zero => cases h
    | succ k => rw [cutRuns, ih (Nat.le_of_succ_le_succ h)]

theorem cutRuns_length_of_lt {k : Nat} (h : k < rs.length) : (cutRuns k rs).length = k + 1 := by
  induction rs generalizing k with
  | nil => cases h
  | cons r rs ih =>
    cases k with
    | zero => rfl
    | succ k => rw [cutRuns, List.length_cons, ih (Nat.lt_of_succ_lt_succ h)]

end

/-! ## The builder without wraps -/

/-- The difference, if it does not wrap. -/
def checkedSub (a b : Nat) : Option Nat := if b ≤ a then some (a - b) else none

/-- `AckBuild.close` with a checked subtraction. -/
def AckBuild.closeChecked (b : AckBuild) : Option AckBuild :=
  (checkedSub b.firstPktNum b.lastPktNum).map fun blklen =>
    if b.initial then { b with initial := false, firstAckBlklen := blklen }
    else { b with blks := b.blks ++ [⟨b.gap, blklen⟩] }

/-- The block loop of `conn_create_ack_frame` with checked subtractions. -/
def createAckLoopChecked (unprotected : Bool) : AckBuild → List AcktrEntry → Option AckBuild
  | b, [] => some b
  | b, e :: es =>
    if unprotected && !e.unprotected then createAckLoopChecked unprotected b es
    else if addU64 e.pktNum 1 = b.lastPktNum then
      createAckLoopChecked unprotected { b with lastPktNum := e.pktNum } es
    else
      b.closeChecked.bind fun closed =>
        ((checkedSub b.lastPktNum e.pktNum).bind (checkedSub · 2)).bind fun gap =>
          let b := { closed with
            gap := gap
            firstPktNum := e.pktNum
            lastPktNum := e.pktNum }
          if b.blks.length = maxAckBlks then some b else createAckLoopChecked unprotected b es

/-- The length and gap fields that `conn_create_ack_frame` computes, if no subtraction wraps. -/
def ackFieldsChecked (unprotected : Bool) (ents : List AcktrEntry) : Option (Nat × List AckBlk) :=
  match ents.dropWhile fun e => unprotected && !e.unprotected with
  | [] => none
  | rpkt :: es =>
    (createAckLoopChecked unprotected ⟨rpkt.pktNum, rpkt.pktNum, true, 0, 0, []⟩ es).bind fun b =>
      b.closeChecked.map fun b => (b.firstAckBlklen, b.blks)

section
variable {b : AckBuild} {es : List AcktrEntry} {unprotected : Bool}

/-- The bounds that keep the subtractions from wrapping. -/
structure AckBuild.Ordered (b : AckBuild) : Prop where
  le : b.lastPktNum ≤ b.firstPktNum
  lt : b.firstPktNum < 2 ^ 64

theorem checkedSub_of_le {x y : Nat} (hle : y ≤ x) (hlt : x < 2 ^ 64) :
    checkedSub x y = some (subU64 x y) := by
  rw [checkedSub, if_pos hle, subU64_of_le hle hlt]

theorem AckBuild.Ordered.close (h : b.Ordered) : b.closeChecked = some b.close := by
  rw [AckBuild.closeChecked, checkedSub_of_le h.le h.lt]
  rfl

theorem createAckLoop_checked (unprotected : Bool) (hordered : b.Ordered)
    (hdesc : Descending (b.lastPktNum :: es.map (·.pktNum))) :
    createAckLoopChecked unprotected b es = some (createAckLoop unprotected b es).1 ∧
      (createAckLoop unprotected b es).1.Ordered := by
  induction es generalizing b with
  | nil => exact ⟨rfl, hordered⟩
  | cons e es ih =>
    obtain ⟨hlast, hrest⟩ := List.pairwise_cons.mp hdesc
    have hlt : e.pktNum < b.lastPktNum := hlast e.pktNum (by simp)
    have hskip : Descending (b.lastPktNum :: es.map (·.pktNum)) :=
      List.pairwise_cons.mpr ⟨fun n hn => hlast n (List.mem_cons_of_mem _ hn),
        (List.pairwise_cons.mp hrest).2⟩
    have hle := hordered.le
    have hmax := hordered.lt
    have hadd : addU64 e.pktNum 1 = e.pktNum + 1 := addU64_of_lt (by omega)
    unfold createAckLoopChecked createAckLoop
    by_cases hhidden : (unprotected && !e.unprotected) = true
    · rw [if_pos hhidden, if_pos hhidden]
      exact ih hordered hskip
    rw [if_neg hhidden, if_neg hhidden]
    by_cases hnext : addU64 e.pktNum 1 = b.lastPktNum
    · rw [if_pos hnext, if_pos hnext]
      exact ih ⟨Nat.le_trans (Nat.le_of_lt hlt) hle, hmax⟩ hrest
    rw [if_neg hnext, if_neg hnext, hordered.close, checkedSub_of_le (Nat.le_of_lt hlt) (by omega),
      Option.bind_some,
      Option.bind_some]
    have hsub : subU64 b.lastPktNum e.pktNum = b.lastPktNum - e.pktNum :=
      subU64_of_le (Nat.le_of_lt hlt) (by omega)
    rw [checkedSub_of_le (by omega) (by omega), Option.bind_some]
    have hordered' : AckBuild.Ordered { b.close with
        gap := subU64 (subU64 b.lastPktNum e.pktNum) 2
        firstPktNum := e.pktNum
        lastPktNum := e.pktNum } := ⟨Nat.le_refl _, by dsimp only; omega⟩
    dsimp only
    split
    · exact ⟨rfl, hordered'⟩
    · exact ih hordered' hrest

/-- On a decreasing tracker the fields of the frame come from subtractions that do not wrap. -/
theorem connCreateAckFrame_checked {conn conn' : Conn} {ts : Nat} {fr : AckFrame}
    (hwf : conn.acktr.Wf)
    (h : connCreateAckFrame conn ts unprotected = (some fr, conn')) :
    ackFieldsChecked unprotected conn.acktr.ent = some (fr.firstAckBlklen, fr.blks) := by
  unfold connCreateAckFrame at h
  split at h
  · cases h
  split at h
  · cases h
  next rpkt es hents =>
  unfold ackFieldsChecked
  rw [hents]
  dsimp only
  have hsub : (rpkt :: es).Sublist conn.acktr.ent := hents ▸ List.dropWhile_sublist _
  have hdesc : Descending (rpkt.pktNum :: es.map (·.pktNum)) := hwf.desc.sublist (hsub.map _)
  have hstart : AckBuild.Ordered ⟨rpkt.pktNum, rpkt.pktNum, true, 0, 0, []⟩ :=
    ⟨Nat.le_refl _, hwf.lt rpkt (hsub.subset List.mem_cons_self)⟩
  obtain ⟨hloop, hordered⟩ := createAckLoop_checked unprotected hstart hdesc
  rw [hloop, Option.bind_some, hordered.close]
  obtain ⟨hfr, -⟩ := Prod.mk.inj h
  obtain rfl := Option.some.inj hfr
  rfl

end

/-! ## A frame that holds every run -/

section
variable {acktr acktr' : Acktr} {fr : AckFrame} {n m : Nat} {ns : List Nat}

theorem AckCreated.blks_length (h : AckCreated acktr n ns fr acktr')
    (hdesc : Descending (n :: ns)) :
    fr.blks.length ≤ maxAckBlks ↔ (runTops (n :: ns)).length ≤ maxAckBlks + 1 := by
  rw [runTops_length hdesc, h.blks, ackBlksOf_length]
  by_cases hfew : (ackRuns n ns).2.length ≤ maxAckBlks
  · rw [cutRuns_of_le hfew]
    omega
  · rw [cutRuns_length_of_lt (Nat.lt_of_not_le hfew)]
    omega

theorem AckCreated.covers (h : AckCreated acktr n ns fr acktr') (hdesc : Descending (n :: ns))
    (hblks : fr.blks.length ≤ maxAckBlks) : fr.Covers m ↔ m ∈ n :: ns := by
  obtain ⟨hle, hbelow⟩ := ackRuns_below hdesc
  have hfew : (ackRuns n ns).2.length ≤ maxAckBlks := by
    have := (h.blks_length hdesc).mp hblks
    rw [runTops_length hdesc] at this
    omega
  have hleast : (n : Int) - (n - (ackRuns n ns).1 : Nat) = (ackRuns n ns).1 := by omega
  rw [AckFrame.Covers, h.largest, h.first, h.blks, cutRuns_of_le hfew, hleast, hbelow.inAckBlks_iff,
    Int.ofNat_le]
  exact (mem_ackRuns hdesc).symm

/-- Only a frame with a block too many makes the tracker forget. -/
theorem AckCreated.kept_all (h : AckCreated acktr n ns fr acktr')
    (hblks : fr.blks.length ≤ maxAckBlks) :
    acktr'.ent = acktr.ent := by
  obtain ⟨rest, hsplit, hfull, -⟩ := h.kept
  cases rest with
  | nil => rw [hsplit, List.append_nil]
  | cons e rest =>
    have := hfull (List.cons_ne_nil e rest)
    omega

/-- The fields of the frame fit into varints. -/
theorem AckCreated.wireRange (h : AckCreated acktr n ns fr acktr') (hdesc : Descending (n :: ns))
    (hblks : fr.blks.length ≤ maxAckBlks) (hlargest : fr.largestAck ≤ maxVarint)
    (hdelay : fr.ackDelay ≤ maxVarint) :
    fr.WireRange := by
  obtain ⟨hle, hbelow⟩ := ackRuns_below hdesc
  have hn : n ≤ maxVarint := h.largest ▸ hlargest
  constructor
  · exact hlargest
  · exact hdelay
  · rw [h.first]
    omega
  · exact hblks
  · intro blk hblk
    rw [h.blks] at hblk
    obtain ⟨hgap, hlen⟩ := (hbelow.cut maxAckBlks).blks_le blk hblk
    exact ⟨by omega, by omega⟩

end

/-- What is encoded has fields that fit into varints. -/
theorem pktEncodeAckFrame_le {fr : AckFrame} {outlen : Nat} {e : Encoded}
    (h : pktEncodeAckFrame outlen fr = .ok e) :
    fr.largestAck ≤ maxVarint ∧ fr.ackDelay ≤ maxVarint := by
  unfold pktEncodeAckFrame encodeBytes at h
  cases hlen : frameLen (.ack fr) with
  | none =>
    rw [hlen] at h
    cases h
  | some len =>
    rw [frameLen] at hlen
    obtain ⟨l, hvar, -⟩ := Option.map_eq_some_iff.mp hlen
    have hle := le_of_putVarintsLen hvar
    exact ⟨hle _ (by simp), hle _ (by simp)⟩

section
variable {conn conn' : Conn} {ts : Nat} {fr : AckFrame} {unprotected : Bool}

/-- Something to acknowledge is acknowledged. -/
theorem connCreateAckFrame_some (ts : Nat) (hactive : conn.acktr.activeAck = true)
    (hne : visibleNums unprotected conn.acktr.ent ≠ []) :
    ∃ fr conn', connCreateAckFrame conn ts unprotected = (some fr, conn') := by
  unfold connCreateAckFrame
  rw [hactive, if_neg (by decide)]
  split
  · next hnone =>
    refine absurd ?_ hne
    rw [visibleNums, List.map_eq_nil_iff, List.filter_eq_nil_iff]
    intro e he
    have := List.dropWhile_eq_nil_iff.mp hnone e he
    rw [AcktrEntry.visible, this]
    decide
  · exact ⟨_, _, rfl⟩

/-- The frame says what the tracker holds: its numbers come from exact subtractions, and what it
acknowledges is what the entries that it may show have. -/
structure AckFrame.Exact (unprotected : Bool) (ents : List AcktrEntry) (fr : AckFrame) : Prop where
  valid : pktValidateAck fr = true
  checked : ackFieldsChecked unprotected ents = some (fr.firstAckBlklen, fr.blks)
  covers : ∀ n, fr.Covers n ↔ n ∈ visibleNums unprotected ents
  largest : fr.largestAck ∈ visibleNums unprotected ents
  greatest : ∀ n ∈ visibleNums unprotected ents, n ≤ fr.largestAck

/-- With at most 256 runs the frame is valid and exact, and the tracker keeps its entries. -/
theorem connCreateAckFrame_exact (hwf : conn.acktr.Wf)
    (hruns : (runTops (visibleNums unprotected conn.acktr.ent)).length ≤ 256) :
    (conn.acktr.activeAck = true → visibleNums unprotected conn.acktr.ent ≠ [] →
        ∃ fr conn', connCreateAckFrame conn ts unprotected = (some fr, conn')) ∧
      ∀ fr conn', connCreateAckFrame conn ts unprotected = (some fr, conn') →
        fr.Exact unprotected conn.acktr.ent ∧ conn'.acktr.ent = conn.acktr.ent := by
  constructor
  · exact connCreateAckFrame_some ts
  intro fr conn' h
  rcases connCreateAckFrame_cases hwf h with ⟨hnone, -⟩ | ⟨fr', n, ns, hfr, hnums, hcreated⟩
  · cases hnone
  obtain rfl := Option.some.inj hfr
  have hdesc : Descending (n :: ns) := hnums ▸ hwf.desc.visibleNums unprotected
  obtain ⟨ent, hent, hn⟩ :=
    mem_visibleNums (hnums ▸ List.mem_cons_self : n ∈ visibleNums unprotected conn.acktr.ent)
  rw [hnums] at hruns
  have hblks : fr.blks.length ≤ maxAckBlks := (hcreated.blks_length hdesc).mpr hruns
  refine ⟨?_, hcreated.kept_all hblks⟩
  constructor
  · exact (hcreated.wf hdesc (hn ▸ hwf.lt ent hent)).valid
  · exact connCreateAckFrame_checked hwf h
  · intro m
    rw [hnums]
    exact hcreated.covers hdesc hblks
  · rw [hnums, hcreated.largest]
    exact List.mem_cons_self
  · rw [hnums, hcreated.largest]
    intro m hm
    rcases List.mem_cons.mp hm with rfl | hm
    · exact Nat.le_refl _
    · exact Nat.le_of_lt ((List.pairwise_cons.mp hdesc).1 m hm)

/-- A filtered entry lies between two entries that the frame shows. -/
theorem connCreateAckFrame_exact_filtered :
    let conn := handshakeServer.setAcktr ⟨[⟨7, 0, true⟩, ⟨6, 0, false⟩, ⟨5, 0, true⟩], [], true⟩
    ∀ fr conn', connCreateAckFrame conn 0 true = (some fr, conn') →
      fr.Exact true conn.acktr.ent ∧ conn'.acktr.ent = conn.acktr.ent :=
  (connCreateAckFrame_exact ⟨by unfold Descending; decide, by decide⟩ (by decide)).2

/-! ## What a peer reads of the frame -/

/-- A peer that runs this library reads all of the frame, and what its builder takes from the tracker
is acknowledged or older. -/
structure AckFrame.Whole (conn conn' : Conn) (fr : AckFrame) : Prop where
  blks : fr.blks.length ≤ 255
  encode : fr.largestAck ≤ maxVarint → fr.ackDelay ≤ maxVarint →
    ∃ len, ∀ outlen, len ≤ outlen → ∃ e, pktEncodeAckFrame outlen fr = .ok e
  decode : ∀ outlen e, pktEncodeAckFrame outlen fr = .ok e → ∀ rest, ∃ fr',
    pktDecodeAckFrame (e.bytes ++ rest) = .ok ⟨e.len, .ack fr', 0⟩ ∧ ∀ n, fr'.Covers n ↔ fr.Covers n
  forgotten : ∀ e ∈ conn.acktr.ent, e ∉ conn'.acktr.ent → fr.Covers e.pktNum ∨ ∀ n, fr.Covers n →
    e.pktNum < n

theorem pktEncodeAckFrame_eq (h : fr.WireRange) (outlen : Nat) :
    pktEncodeAckFrame outlen fr =
      if outlen < (ackBytes fr).length then .error .noBuf else .ok ⟨(ackBytes fr).length,
      ackBytes fr, 0⟩ := by
  rw [pktEncodeAckFrame, (onWire_ack h).len, encodeBytes, if_pos rfl]

/-- What is forgotten is acknowledged or older, however many runs there are. -/
theorem connCreateAckFrame_forgotten (hwf : conn.acktr.Wf)
    (h : connCreateAckFrame conn ts unprotected = (some fr, conn')) :
    ∀ e ∈ conn.acktr.ent, e ∉ conn'.acktr.ent → fr.Covers e.pktNum ∨ ∀ n, fr.Covers n →
    e.pktNum < n := by
  intro e he hgone
  obtain ⟨-, -, -, hkeeps⟩ := createAck_keeps hwf h
  rcases hkeeps e he with hkept | ⟨fr', hfr, -, hle⟩
  · exact absurd hkept hgone
  obtain rfl := Option.some.inj hfr
  by_cases hcov : fr.Covers e.pktNum
  · exact .inl hcov
  · refine .inr fun n hn => Nat.lt_of_le_of_ne (hle n hn) ?_
    rintro rfl
    exact hcov hn

/-- The frame is read whole exactly when the tracker has at most 256 runs. -/
theorem connCreateAckFrame_whole (hwf : conn.acktr.Wf)
    (h : connCreateAckFrame conn ts unprotected = (some fr, conn')) :
    fr.Whole conn conn' ↔ (runTops (visibleNums unprotected conn.acktr.ent)).length ≤ 256 := by
  rcases connCreateAckFrame_cases hwf h with ⟨hnone, -⟩ | ⟨fr', n, ns, hfr, hnums, hcreated⟩
  · cases hnone
  obtain rfl := Option.some.inj hfr
  have hdesc : Descending (n :: ns) := hnums ▸ hwf.desc.visibleNums unprotected
  rw [hnums]
  constructor
  · intro hwhole
    exact (hcreated.blks_length hdesc).mp hwhole.blks
  · intro hruns
    have hblks : fr.blks.length ≤ maxAckBlks := (hcreated.blks_length hdesc).mpr hruns
    constructor
    · exact hblks
    · intro hlargest hdelay
      have hrange := hcreated.wireRange hdesc hblks hlargest hdelay
      refine ⟨(ackBytes fr).length, fun outlen hle => ?_⟩
      rw [pktEncodeAckFrame_eq hrange, if_neg (Nat.not_lt.mpr hle)]
      exact ⟨_, rfl⟩
    · intro outlen e he rest
      obtain ⟨hlargest, hdelay⟩ := pktEncodeAckFrame_le he
      have hrange := hcreated.wireRange hdesc hblks hlargest hdelay
      have hbytes : e = ⟨(ackBytes fr).length, ackBytes fr, 0⟩ := by
        rw [pktEncodeAckFrame_eq hrange] at he
        split at he
        · cases he
        · exact (Except.ok.inj he).symm
      rw [hbytes]
      exact ⟨fr, pktDecodeAckFrame_put hrange rest, fun _ => Iff.rfl⟩
    · exact connCreateAckFrame_forgotten hwf h

end

/-- Three packets, the second one with a gap on both sides. -/
theorem connCreateAckFrame_whole_three :
    let conn := handshakeServer.setAcktr ⟨[⟨7, 0, true⟩, ⟨5, 0, true⟩, ⟨3, 0, true⟩], [], true⟩
    ∀ fr conn', connCreateAckFrame conn 0 false = (some fr, conn') →
      (fr.Whole conn conn' ↔ (runTops (visibleNums false conn.acktr.ent)).length ≤ 256) :=
  fun _ _ h => connCreateAckFrame_whole ⟨by unfold Descending; decide, by decide⟩ h

/-- What a peer reads of the encoded frame. -/
def peerReads (outlen : Nat) (fr : AckFrame) : Option AckFrame :=
  match pktEncodeAckFrame outlen fr with
  | .error _ => none
  | .ok e =>
    match pktDecodeAckFrame e.bytes with
    | .ok ⟨_, .ack fr', _⟩ => some fr'
    | _ => none

/-- 257 packets with a gap between any two of them: the frame has 256 blocks, and its reader does not see
that packet 0 is acknowledged. -/
theorem connCreateAckFrame_truncated :
    let conn := handshakeServer.setAcktr ⟨evens 257, [], true⟩
    ∃ fr conn' fr', connCreateAckFrame conn 0 false = (some fr, conn') ∧ ¬fr.Whole conn conn' ∧
    fr.blks.length = 256 ∧
      fr.Covers 0 ∧ peerReads 1200 fr = some fr' ∧ ¬fr'.Covers 0 := by
  intro conn
  obtain ⟨fr, conn', h⟩ := @connCreateAckFrame_some conn false 0 rfl (by decide +kernel)
  have hrun : ∀ fr ∈ (connCreateAckFrame conn 0 false).1,
      fr.blks.length = 256 ∧ fr.Covers 0 ∧ ∃ fr' ∈ peerReads 1200 fr, ¬fr'.Covers 0 := by
    decide +kernel
  rw [h] at hrun
  obtain ⟨hblks, hcov, fr', hread, hnot⟩ := hrun fr rfl
  refine ⟨fr, conn', fr', h, fun hwhole => ?_, hblks, hcov, hread, hnot⟩
  have := hwhole.blks
  omega

end Ngtcp2
