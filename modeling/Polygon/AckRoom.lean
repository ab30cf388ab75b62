import Polygon.AckFrames
import Polygon.FrameRoundTrip
import Polygon.StepChanges

/-!
# Room for the ACK frame

`conn_create_ack_frame` bounds the number of blocks and not their size. A frame that does
not fit into a packet is built again at every attempt, and nothing else is sent.
-/
namespace Ngtcp2

/-- `NGTCP2_MAX_PKTLEN_IPV4`. -/
def maxPktlenIpv4 : Nat := 1252

/-! ## The size of the frame -/

/-- The bytes of the numbers as varints. -/
def varintsLen (ns : List Nat) : Nat := (ns.flatMap putVarint).length

/-- The delay that the frame reports, from the newest entry. -/
def ackDelayAt (conn : Conn) (ts : Nat) (ent : AcktrEntry) : Nat :=
  subU64 ts ent.tstamp >>> conn.localSettings.ackDelayExponent

/-- The bytes of an ACK frame for the runs of the packet numbers `n :: ns`. -/
def ackLen (delay n : Nat) (ns : List Nat) : Nat :=
  let (lo, rs) := ackRuns n ns
  let rs := cutRuns maxAckBlks rs
  1 + varintsLen ([n, delay, rs.length, n - lo] ++ (ackBlksOf lo rs).flatMap fun blk => [blk.gap,
    blk.blklen])

/-- The bytes of the header of the next packet. -/
def shortHdLen (conn : Conn) : Nat :=
  match connSelectPktType conn conn.nextPktNum with
  | .pkt01 => 10
  | .pkt02 => 11
  | _ => 13

/-- The bytes of a packet with nothing but the ACK frame of the tracker. -/
def ackPktLen (conn : Conn) (ts : Nat) : Nat :=
  match conn.acktr.ent with
  | [] => 0
  | ent :: es => shortHdLen conn + ackLen (ackDelayAt conn ts ent) ent.pktNum (es.map (·.pktNum)) + conn.aeadOverhead

/-- The call comes to write an ACK frame: it has a packet number, sends nothing again, and an ACK is due. -/
structure AcksNow (conn : Conn) (ts : Nat) : Prop where
  numbers : conn.lastTxPktNum ≠ uint64Max
  nothing : (connRetransmit conn maxPktlenIpv4 ts).1 = .ok none
  expired : connNextAckExpired conn ts = true
  active : conn.acktr.activeAck = true
  pending : conn.acktr.ent ≠ []
  delay : ∀ ent ∈ conn.acktr.ent.head?, ackDelayAt conn ts ent ≤ maxVarint
  list : (queueMaxStreamData conn.fcStrms conn).isSome

section
variable {lo n : Nat} {ns : List Nat} {rs : List (Nat × Nat)}

theorem ackBlksOf_length (lo : Nat) (rs : List (Nat × Nat)) :
    (ackBlksOf lo rs).length = rs.length := by
  induction rs generalizing lo with
  | nil => rfl
  | cons r rs ih => rw [ackBlksOf, List.length_cons, List.length_cons, ih]

theorem cutRuns_length (k : Nat) (rs : List (Nat × Nat)) : (cutRuns k rs).length ≤ k + 1 := by
  induction rs generalizing k with
  | nil =>
    rw [cutRuns_nil]
    exact Nat.zero_le _
  | cons r rs ih =>
    cases k with
    | zero => exact Nat.le_refl 1
    | succ k => exact Nat.succ_le_succ (ih k)

theorem RunsBelow.blks_le (h : RunsBelow lo rs) :
    ∀ blk ∈ ackBlksOf lo rs, blk.gap ≤ lo ∧ blk.blklen ≤ lo := by
  induction rs generalizing lo with
  | nil => simp [ackBlksOf]
  | cons r rs ih =>
    obtain ⟨hgap, hle, hrest⟩ := h
    intro blk hblk
    rcases List.mem_cons.mp hblk with rfl | hblk
    · exact ⟨by dsimp only; omega, by dsimp only; omega⟩
    · obtain ⟨h₁, h₂⟩ := ih hrest blk hblk
      exact ⟨by omega, by omega⟩

/-- The encoder needs exactly these bytes for the frame. -/
theorem AckCreated.frameLen {acktr acktr' : Acktr} {fr : AckFrame}
    (h : AckCreated acktr n ns fr acktr')
    (hdesc : Descending (n :: ns)) (hn : n ≤ maxVarint) (hdelay : fr.ackDelay ≤ maxVarint) :
    frameLen (.ack fr) = some (ackLen fr.ackDelay n ns) := by
  obtain ⟨hle, hbelow⟩ := ackRuns_below hdesc
  have hcut := hbelow.cut maxAckBlks
  have hlength := cutRuns_length maxAckBlks (ackRuns n ns).2
  unfold Ngtcp2.frameLen ackLen
  dsimp only
  rw [h.largest, h.first, h.blks]
  generalize ackRuns n ns = res at hle hcut hlength ⊢
  obtain ⟨lo, rs⟩ := res
  dsimp only at hle hcut hlength ⊢
  rw [ackBlksOf_length, putVarintsLen_eq, Option.map_some]
  · rfl
  · intro m hm
    rcases List.mem_append.mp hm with hm | hm
    · have hmax : maxAckBlks + 1 ≤ maxVarint := by decide
      simp only [List.mem_cons, List.not_mem_nil, or_false] at hm
      rcases hm with rfl | rfl | rfl | rfl
      · exact hn
      · exact hdelay
      · omega
      · omega
    · obtain ⟨blk, hblk, hm⟩ := List.mem_flatMap.mp hm
      obtain ⟨h₁, h₂⟩ := hcut.blks_le blk hblk
      simp only [List.mem_cons, List.not_mem_nil, or_false] at hm
      rcases hm with rfl | rfl <;> omega

end

/-! ## The write call -/

section
variable {conn conn' : Conn} {ts : Nat} {ent : AcktrEntry} {es : List AcktrEntry}

/-- An ACK is due, and its frame reports the delay of the newest packet. -/
theorem connCreateAckFrame_due (ts : Nat) (hactive : conn.acktr.activeAck = true)
    (hent : conn.acktr.ent = ent :: es) :
    ∃ fr acktr, connCreateAckFrame conn ts false = (some fr, conn.setAcktr acktr) ∧
    fr.ackDelay = ackDelayAt conn ts ent := by
  unfold connCreateAckFrame
  rw [hactive, hent]
  simp only [Bool.not_true, Bool.false_eq_true, if_false, Bool.false_and,
    List.dropWhile_cons_of_neg, not_false_eq_true]
  exact ⟨_, _, rfl, rfl⟩

theorem GaveUp.state {ents : List RtbEntry} (h : GaveUp ts conn ents conn') :
    ∃ rtb, conn' = conn.setRtb rtb ∧ rtb.largestAcked = conn.rtb.largestAcked := by
  induction h with
  | nil conn => exact ⟨conn.rtb, rfl, rfl⟩
  | @cons conn conn' ent rtb ents popped alive why rest ih =>
    obtain ⟨rtb', rfl, hlargest⟩ := ih
    refine ⟨rtb', rfl, hlargest.trans ?_⟩
    have hpop := popped.pop
    unfold rtbPop at hpop
    split at hpop
    · obtain rfl := Option.some.inj hpop
      rfl
    · cases hpop

/-- Where nothing was sent again, only entries were given up. -/
theorem connRetransmit_none {destlen : Nat} (hinv : RtbInv conn.rtb)
    (h : connRetransmit conn destlen ts = (.ok none, conn')) :
    ∃ rtb, conn' = conn.setRtb rtb ∧ rtb.largestAcked = conn.rtb.largestAcked := by
  obtain ⟨ents, conn₁, hgave, hend⟩ := connRetransmit_cases hinv h
  cases hend with
  | idle => exact hgave.state

/-- Whether the list can be walked depends on the streams only. -/
theorem queueMaxStreamData_isSome {ids : List Nat} (hstrms : conn'.strms = conn.strms) :
    (queueMaxStreamData ids conn').isSome = (queueMaxStreamData ids conn).isSome := by
  induction ids generalizing conn conn' with
  | nil => rfl
  | cons id ids ih =>
    rw [queueMaxStreamData, queueMaxStreamData, hstrms]
    cases hfind : conn.strms id with
    | none => rfl
    | some strm =>
      dsimp only
      split
      · apply ih
        funext id'
        rw [Conn.setStrm_strms, Conn.setStrm_strms]
        exact congrArg _ (congrFun hstrms id')
      · rfl

theorem hdLen_shortHd (conn : Conn) : hdLen conn.shortHd = .ok (shortHdLen conn) := by
  unfold shortHdLen hdLen Conn.shortHd pktHdInit
  rcases connSelectPktType_short conn conn.nextPktNum with h | h | h <;> rw [h] <;> rfl

/-- Whether the first frame of a packet has room. -/
theorem ppeEncodeFrame_noBuf {ppe : Ppe} {fr : Frame} {len : Nat}
    (hroom : ppe.len + ppe.aeadOverhead ≤ ppe.destlen)
    (hlen : frameLen fr = some len) :
    ppeEncodeFrame ppe fr = .error .noBuf ↔ ppe.destlen < ppe.len + len + ppe.aeadOverhead := by
  unfold ppeEncodeFrame
  rw [if_neg (by omega), hlen]
  dsimp only
  split
  · exact ⟨fun _ => by omega, fun _ => rfl⟩
  · exact ⟨nofun, fun _ => by omega⟩

theorem not_fatal_noBuf {α : Type} {r : Except Err α} (hr : r = .error .noBuf) : ¬Fatal r := by
  rintro ⟨e, he, hfatal⟩
  obtain rfl := Except.error.inj (he.symm.trans hr)
  cases hfatal

/-- Behind an ACK frame that was written there is always a packet to send. -/
theorem writePkt_afterAck {ppe : Ppe} {fr : AckFrame} {r : Except Err (Option Pkt)}
    (h : ((writePktFrames conn ppe).andThen fun w conn =>
      if (some fr).isNone = true ∧ w.done = [] then
        (if w.full then .error .noBuf else .ok none, conn.setFrq (w.done ++ w.rest))
      else
        (ppeFinal (conn.setFrq (w.done ++ w.rest)) w.ppe).andThen fun pkt conn =>
        (.ok (some pkt), (if w.done = [] then conn
          else (conn.setFrq w.rest).addEntry fun addr =>
            rtbEntryNew addr w.ppe.hd w.done ts
            (ts + pktDeadlinePeriod) pkt.len false).incLastTxPktNum)) = (r, conn')) :
    r ≠ .error .noBuf := by
  intro hr
  rcases andThen_cases h with ⟨e, h₁, rfl⟩ | ⟨w, conn₁, h₁, h⟩
  · rcases writePktFrames_cases h₁ with hfatal | ⟨_, _, _, he, -⟩
    · exact not_fatal_noBuf hr hfatal.cast
    · cases he
  rw [if_neg (by simp)] at h
  rcases andThen_cases h with ⟨e, h₂, rfl⟩ | ⟨pkt, conn₂, h₂, h⟩
  · exact not_fatal_noBuf hr (ppeFinal_error h₂).fatal_error
  · obtain ⟨rfl, -⟩ := Prod.mk.inj h
    cases hr

theorem connWritePkt_noBuf_iff {fr : AckFrame} {acktr : Acktr} {len : Nat}
    (hexpired : connNextAckExpired conn ts = true)
    (hcreate : connCreateAckFrame conn ts false = (some fr, conn.setAcktr acktr))
    (hlist : (queueMaxStreamData conn.fcStrms conn).isSome) (hover : conn.aeadOverhead ≤ 16)
    (hlen : frameLen (.ack fr) = some len) :
    (connWritePkt conn maxPktlenIpv4 ts).1 = .error .noBuf ↔
      maxPktlenIpv4 < shortHdLen conn + len + conn.aeadOverhead := by
  have hhd : shortHdLen conn ≤ 13 := by
    unfold shortHdLen
    split <;> decide
  generalize hres : connWritePkt conn maxPktlenIpv4 ts = res
  obtain ⟨r, conn'⟩ := res
  unfold connWritePkt at hres
  dsimp only at hres
  rw [if_pos hexpired, hcreate] at hres
  dsimp only at hres
  obtain ⟨frq, maxRxOffset, hdata⟩ := queueMaxData_state (conn.setAcktr acktr) (some fr)
  rw [hdata] at hres
  have hsome : (queueMaxStreamData conn.fcStrms { conn.setAcktr acktr with frq, maxRxOffset }).isSome :=
    (queueMaxStreamData_isSome (by rfl)).trans hlist
  obtain ⟨conn₂, hqueue⟩ := Option.isSome_iff_exists.mp hsome
  obtain ⟨frq', strms, fcStrms, hstate⟩ := queueMaxStreamData_state hqueue
  have hqueue' : queueMaxStreamData ({ conn.setAcktr acktr with frq, maxRxOffset } : Conn).fcStrms
      { conn.setAcktr acktr with frq, maxRxOffset } = some conn₂ := hqueue
  rw [hqueue'] at hres
  dsimp only at hres
  rw [if_neg (by simp)] at hres
  -- The header fits.
  have hover₂ : conn₂.aeadOverhead = conn.aeadOverhead := by rw [hstate]; rfl
  have hhd₂ : hdLen conn₂.shortHd = .ok (shortHdLen conn) := by
    rw [← hdLen_shortHd conn, hstate]
    rfl
  have henc : ppeEncodeHd maxPktlenIpv4 conn₂.aeadOverhead conn₂.txCkm conn₂.shortHd =
      .ok ⟨maxPktlenIpv4, conn.aeadOverhead, conn₂.txCkm, conn₂.shortHd, shortHdLen conn, [],
        false⟩ := by
    unfold ppeEncodeHd
    rw [hhd₂, hover₂, if_neg (by unfold maxPktlenIpv4; omega)]
    dsimp only
    rw [if_neg (by unfold maxPktlenIpv4; omega)]
  rw [henc] at hres
  dsimp only at hres
  generalize hppe : (⟨maxPktlenIpv4, conn.aeadOverhead, conn₂.txCkm, conn₂.shortHd, shortHdLen conn,
    [], false⟩ : Ppe) = ppe
    at hres
  have hframe : ppeEncodeFrame ppe (.ack fr) = .error .noBuf ↔
      maxPktlenIpv4 < shortHdLen conn + len + conn.aeadOverhead := by
    rw [← hppe]
    exact ppeEncodeFrame_noBuf (by unfold maxPktlenIpv4; dsimp only; omega) hlen
  rw [← hframe]
  constructor
  · intro hr
    rcases andThen_cases hres with ⟨e, h₁, rfl⟩ | ⟨ppe', conn₃, h₁, h⟩
    · rcases andThen_cases h₁ with ⟨e', h₂, he⟩ | ⟨_, _, _, h₂⟩
      · obtain rfl := Except.error.inj he
        obtain ⟨-, ⟨-, -, henc⟩ | ⟨e', he', hhard⟩ | ⟨_, he', -⟩⟩ := connPpeWriteFrame_cases h₂
        · exact henc
        · obtain rfl := Except.error.inj he'
          exact absurd hhard.fatal_error (not_fatal_noBuf hr)
        · cases he'
      · cases (Prod.mk.inj h₂).1
    · exact absurd hr (writePkt_afterAck h)
  · intro hno
    unfold writeAckFrame connPpeWriteFrame at hres
    dsimp only at hres
    rw [hno] at hres
    exact (Prod.mk.inj hres).1.symm

theorem connSelectPktType_congr (h : conn'.rtb.largestAcked = conn.rtb.largestAcked)
    (pktNum : Nat) :
    connSelectPktType conn' pktNum = connSelectPktType conn pktNum := by
  unfold connSelectPktType
  rw [h]

theorem shortHdLen_setRtb {rtb : Rtb} (h : rtb.largestAcked = conn.rtb.largestAcked) :
    shortHdLen (conn.setRtb rtb) = shortHdLen conn := by
  unfold shortHdLen
  rw [connSelectPktType_congr (show (conn.setRtb rtb).rtb.largestAcked = conn.rtb.largestAcked from h)]
  rfl

end

/-! ## The order of the tracker in every run -/

section
variable {H : List Frame} {conn conn' : Conn}

theorem Change.sorted {k : Kind} (h : Change H k conn conn') (hsorted : conn.acktr.Sorted) :
    conn'.acktr.Sorted := by
  have hids : ∀ (conn : Conn) (bidi : Bool) (ids : StreamIds), (conn.setIds bidi ids).acktr =
    conn.acktr := fun _ bidi _ => by
    cases bidi <;> rfl
  cases h with
  | idle same => exact same.acktr ▸ hsorted
  | timer conn keeps => exact keeps hsorted
  | openRemote => exact (hids _ _ _).symm ▸ hsorted
  | openLocal => exact (hids _ _ _).symm ▸ hsorted
  | consume => exact (hids _ _ _).symm ▸ hsorted
  | close => exact (hids _ _ _).symm ▸ hsorted
  | raiseIds => exact (hids _ _ _).symm ▸ hsorted
  | tx =>
    unfold trackStreamPkt
    split <;> exact hsorted
  | _ => exact hsorted

/-- The packet numbers of the tracker get smaller in every state. -/
theorem Reachable.sorted (h : Reachable conn) : conn.acktr.Sorted := by
  obtain ⟨conn₀, ops, hinit, hrun⟩ := h
  have hall : WellFormed conn ∧ conn.acktr.Sorted := by
    apply hrun.invariant (fun _ conn => WellFormed conn ∧ conn.acktr.Sorted)
    · refine ⟨hinit.wellFormed, ?_⟩
      cases hinit <;> exact acktrInit_sorted
    · intro ops conn op conn' ⟨hwf, hsorted⟩ hstep
      have hch := Step.changes hwf hstep
      exact ⟨hwf.changes hch, hch.keeps (·.acktr.Sorted) (fun _ _ _ _ hP hc => hc.sorted hP) hsorted⟩
  exact hall.2

/-! ## The room of the frame -/

/-- The write call has no room for its ACK frame exactly where the packet is larger than the buffer. -/
theorem connWritePkt_ackRoom {ts : Nat} (hreach : Reachable conn)
    (hstate : conn.state = .postHandshake) (hover : conn.aeadOverhead ≤ 16)
    (hnum : ∀ e ∈ conn.acktr.ent, e.pktNum < 2 ^ 62) (hacks : AcksNow conn ts) :
    (ngtcp2ConnWritePkt conn maxPktlenIpv4 ts).1 = .error .noBuf ↔
    maxPktlenIpv4 < ackPktLen conn ts := by
  obtain ⟨ent, es, hent⟩ := List.exists_cons_of_ne_nil hacks.pending
  have hmax : 2 ^ 62 ≤ maxVarint + 1 := by decide
  have hlt : ∀ e ∈ conn.acktr.ent, e.pktNum < 2 ^ 64 := fun e he => (hnum e he).trans (by decide)
  have hn : ent.pktNum ≤ maxVarint := by
    have := hnum ent (hent ▸ List.mem_cons_self)
    omega
  -- Nothing is sent again, so only given up entries are gone.
  generalize hretransmit : connRetransmit conn maxPktlenIpv4 ts = res
  obtain ⟨r, conn₁⟩ := res
  have hnothing := hacks.nothing
  rw [hretransmit] at hnothing
  obtain rfl : r = .ok none := hnothing
  obtain ⟨rtb, rfl, hlargest⟩ := connRetransmit_none hreach.wellFormed.inv.rtb hretransmit
  have hwrite : (ngtcp2ConnWritePkt conn maxPktlenIpv4 ts).1 =
    (connWritePkt (conn.setRtb rtb) maxPktlenIpv4 ts).1 := by
    unfold ngtcp2ConnWritePkt
    rw [if_neg hacks.numbers, hretransmit]
    unfold Result.andThen
    dsimp only
    rw [show (conn.setRtb rtb).state = .postHandshake from hstate]
  -- The frame is that of the tracker.
  have hactive : (conn.setRtb rtb).acktr.activeAck = true := hacks.active
  obtain ⟨fr, acktr, hcreate, hdelay⟩ := connCreateAckFrame_due ts hactive hent
  have hwf : (conn.setRtb rtb).acktr.Wf := ⟨hreach.sorted, hlt⟩
  rcases connCreateAckFrame_cases hwf hcreate with ⟨hnone, -⟩ | ⟨fr', n, ns, hfr, hnums, hcreated⟩
  · cases hnone
  obtain rfl := Option.some.inj hfr
  have hvisible : visibleNums false conn.acktr.ent = ent.pktNum :: es.map (·.pktNum) := by
    have hall : conn.acktr.ent.filter (AcktrEntry.visible false) = conn.acktr.ent :=
      List.filter_eq_self.mpr fun _ _ => rfl
    rw [visibleNums, hall, hent, List.map_cons]
  obtain ⟨rfl, rfl⟩ := List.cons.inj (hvisible.symm.trans hnums)
  have hsorted : Descending (ent.pktNum :: es.map (·.pktNum)) := by
    have hsorted := hreach.sorted
    rwa [Acktr.Sorted, hent, List.map_cons] at hsorted
  have hdelay' : fr.ackDelay ≤ maxVarint := by
    rw [hdelay]
    exact hacks.delay ent (by rw [hent, List.head?_cons, Option.mem_some_iff])
  have hlen := hcreated.frameLen hsorted hn hdelay'
  have hexpired : connNextAckExpired (conn.setRtb rtb) ts = true := hacks.expired
  have hlist : (queueMaxStreamData (conn.setRtb rtb).fcStrms (conn.setRtb rtb)).isSome := by
    have hstrms : (conn.setRtb rtb).strms = conn.strms := rfl
    exact (queueMaxStreamData_isSome hstrms).trans hacks.list
  rw [hwrite, connWritePkt_noBuf_iff hexpired hcreate hlist hover hlen, shortHdLen_setRtb hlargest,
    hdelay]
  unfold ackPktLen
  rw [hent]
  rfl

/-- A due ACK frame keeps the connection from sending exactly where it does not fit. -/
theorem ackFrame_wedges {ts : Nat} (hreach : Reachable conn) (hstate : conn.state = .postHandshake)
    (hover : conn.aeadOverhead ≤ 16)
    (hnum : ∀ e ∈ conn.acktr.ent, e.pktNum < 2 ^ 62) :
    ¬(AcksNow conn ts ∧ (ngtcp2ConnWritePkt conn maxPktlenIpv4 ts).1 = .error .noBuf) ↔
      (AcksNow conn ts → ackPktLen conn ts ≤ maxPktlenIpv4) := by
  rw [not_and]
  apply forall_congr'
  intro hacks
  rw [connWritePkt_ackRoom hreach hstate hover hnum hacks, Nat.not_lt]

end

/-! ## A peer that spaces its packet numbers -/

/-- An established server whose AEAD adds 16 bytes. -/
def ackServer : Conn := runOps establishedServer [.setAeadOverhead 16]

/-- Entries for `k` packets with numbers `2 ^ 30 + 2` apart. -/
def spaced : Nat → List AcktrEntry
  | 0 => []
  | k + 1 => ⟨k * (2 ^ 30 + 2), 1, false⟩ :: spaced k

/-- The server with these packets received at time 1. -/
def spacedServer (k : Nat) : Conn :=
  { ackServer with
    acktr := ⟨spaced k, [], k != 0⟩
    maxRxPktNum := (k - 1) * (2 ^ 30 + 2)
    nextAckExpiry := if k = 0 then 0 else 25001 }

theorem spaced_length (k : Nat) : (spaced k).length = k := by
  induction k with
  | zero => rfl
  | succ k ih => rw [spaced, List.length_cons, ih]

/-- A packet to acknowledge comes in while the timer runs. -/
theorem connRecvPktEnd_added {conn : Conn} {pktNum ts : Nat} {acktr : Acktr}
    (htimer : (conn.nextAckExpiry == 0) = false)
    (hadd : acktrAdd conn.acktr ⟨pktNum, ts, false⟩ true = some acktr) :
    connRecvPktEnd conn pktNum true false ts =
      (.ok (), { conn with maxRxPktNum := max conn.maxRxPktNum pktNum, acktr }) := by
  have hidle : ¬(!conn.immediateAck && conn.nextAckExpiry == 0 && acktr.activeAck) = true := by
    simp [htimer]
  unfold connRecvPktEnd ngtcp2ConnSchedAck
  dsimp only
  rw [hadd]
  exact if_neg hidle

theorem spacedServer_recv {k : Nat} (hk : k < acktrMaxEnt) :
    (Op.recvPktEnd (k * (2 ^ 30 + 2)) true false 1).run
    (spacedServer k) = (.ok (), spacedServer (k + 1)) := by
  have hins : acktrInsert ⟨k * (2 ^ 30 + 2), 1, false⟩ (spaced k) = some (spaced (k + 1)) := by
    cases k with
    | zero => rfl
    | succ k =>
      rw [spaced, acktrInsert, if_neg (by dsimp only; omega), if_neg (by dsimp only; omega)]
      rfl
  have hadd : acktrAdd (spacedServer k).acktr ⟨k * (2 ^ 30 + 2), 1, false⟩ true =
    some ⟨spaced (k + 1), [], true⟩ := by
    show (acktrInsert _ (spaced k)).map _ = _
    rw [hins, Option.map_some, if_neg (by rw [spaced_length]; omega)]
    rfl
  show connRecvPktEnd _ _ _ _ _ = _
  cases k with
  | zero => rfl
  | succ k =>
    have hmax : max (k * (2 ^ 30 + 2)) ((k + 1) * (2 ^ 30 + 2)) = (k + 1) * (2 ^ 30 + 2) :=
      Nat.max_eq_right (Nat.mul_le_mul_right _ (Nat.le_succ k))
    rw [connRecvPktEnd_added rfl hadd]
    show (_, { spacedServer (k + 2) with maxRxPktNum := max (k * (2 ^ 30 + 2)) ((k + 1) * (2 ^ 30 + 2)) }) = _
    rw [hmax]
    rfl

theorem spacedServer_reachable {k : Nat} (hk : k ≤ acktrMaxEnt) : Reachable (spacedServer k) := by
  induction k with
  | zero => exact establishedServer_reachable.runOps [.setAeadOverhead 16] (by decide)
  | succ k ih =>
    obtain ⟨conn₀, ops, hinit, hrun⟩ := ih (Nat.le_of_succ_le hk)
    exact ⟨conn₀, _, hinit, hrun.snoc ⟨.ok (), spacedServer_recv hk, rfl⟩⟩

theorem spacedServer_acks (k : Nat) : AcksNow (spacedServer (k + 1)) 25001 := by
  have hnumbers : ackServer.lastTxPktNum ≠ uint64Max := by decide
  have hdelay : subU64 25001 1 >>> ackServer.localSettings.ackDelayExponent ≤ maxVarint := by decide
  constructor
  · exact hnumbers
  · rfl
  · rfl
  · rfl
  · exact List.cons_ne_nil _ _
  · intro ent hent
    obtain rfl := Option.some.inj hent
    exact hdelay
  · rfl

theorem ackFrame_wedges_spaced : ¬(AcksNow (spacedServer 2) 25001 ∧
    (ngtcp2ConnWritePkt (spacedServer 2) maxPktlenIpv4 25001).1 = .error .noBuf) :=
  (ackFrame_wedges (spacedServer_reachable (by decide)) rfl (by decide) (by decide)).mpr fun _ =>
    by decide

/-- 136 packets with a gap of `2 ^ 30` numbers between any two of them: the frame needs more than the packet has. -/
theorem spaced_wedge : ¬∀ (conn : Conn) (ts : Nat), Reachable conn → conn.state = .postHandshake →
    conn.aeadOverhead ≤ 16 →
    (∀ e ∈ conn.acktr.ent, e.pktNum < 2 ^ 62) →
    ¬(AcksNow conn ts ∧ (ngtcp2ConnWritePkt conn maxPktlenIpv4 ts).1 = .error .noBuf) := by
  intro h
  have hreach : Reachable (spacedServer 136) := spacedServer_reachable (by decide)
  have hnum : ∀ e ∈ (spacedServer 136).acktr.ent, e.pktNum < 2 ^ 62 := by decide +kernel
  have hlarge : maxPktlenIpv4 < ackPktLen (spacedServer 136) 25001 := by decide +kernel
  have hacks := spacedServer_acks 135
  exact h _ 25001 hreach rfl (by decide) hnum
    ⟨hacks, (connWritePkt_ackRoom hreach rfl (by decide) hnum hacks).mpr hlarge⟩

end Ngtcp2
