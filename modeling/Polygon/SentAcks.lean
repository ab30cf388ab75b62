import Polygon.AckOfAck
import Polygon.AckRanges
import Polygon.EmittedPackets

/-!
# The ACK frames in a packet

A writer builds its ACK frames from the tracker and takes all other frames from the queue and the
lost entries. So a packet acknowledges nothing but what the tracker held.
-/
namespace Ngtcp2

/-- An ACK frame is valid and acknowledges only packets of `S`. -/
def Frame.AcksIn (S : Nat → Prop) : Frame → Prop
  | .ack fr => fr.Wf ∧ ∀ n, fr.Covers n → S n
  | _ => True

/-- The ACK frames among these acknowledge only packets of `S`. -/
def AcksIn (S : Nat → Prop) (frs : List Frame) : Prop := ∀ fr ∈ frs, fr.AcksIn S

/-- The tracker holds, and the queue acknowledges, only packets of `S`. -/
structure TracksIn (S : Nat → Prop) (conn : Conn) : Prop where
  wf : conn.acktr.Wf
  nums : ∀ e ∈ conn.acktr.ent, S e.pktNum
  frq : AcksIn S conn.frq

/-- A call that leaves the tracker so, and whose value is good. -/
def Acks (S : Nat → Prop) {α : Type} (Good : α → Prop) (r : Result α) : Prop :=
  TracksIn S r.2 ∧ ∀ a, r.1 = .ok a → Good a

section
variable {S : Nat → Prop} {α β : Type} {Good : α → Prop} {Good' : β → Prop} {conn conn' : Conn}
  {frs frs' : List Frame} {fr : Frame} {ppe : Ppe}

theorem AcksIn.nil : AcksIn S [] := nofun

theorem AcksIn.append (h : AcksIn S frs) (h' : AcksIn S frs') : AcksIn S (frs ++ frs') := by
  intro fr hfr
  rcases List.mem_append.mp hfr with hfr | hfr
  · exact h fr hfr
  · exact h' fr hfr

theorem AcksIn.cons (hfr : fr.AcksIn S) (h : AcksIn S frs) : AcksIn S (fr :: frs) := by
  intro fr' hfr'
  rcases List.mem_cons.mp hfr' with rfl | hfr'
  · exact hfr
  · exact h fr' hfr'

theorem AcksIn.snoc (h : AcksIn S frs) (hfr : fr.AcksIn S) : AcksIn S (frs ++ [fr]) :=
  h.append (AcksIn.nil.cons hfr)

theorem AcksIn.tail (h : AcksIn S (fr :: frs)) : AcksIn S frs :=
  fun fr' hfr' => h fr' (List.mem_cons_of_mem _ hfr')

theorem AcksIn.of_subset (h : AcksIn S frs) (hsub : frs' ⊆ frs) : AcksIn S frs' :=
  fun fr hfr => h fr (hsub hfr)

theorem Frame.AcksIn.mono {S' : Nat → Prop} (h : fr.AcksIn S) (hS : ∀ n, S n → S' n) :
    fr.AcksIn S' := by
  cases fr with
  | ack fr => exact ⟨h.1, fun n hn => hS n (h.2 n hn)⟩
  | _ => trivial

theorem Acks.ok {a : α} (h : TracksIn S conn) (ha : Good a) : Acks S Good (.ok a, conn) := by
  refine ⟨h, fun a' he => ?_⟩
  obtain rfl := Except.ok.inj he
  exact ha

theorem Acks.error {e : Err} (h : TracksIn S conn) : Acks S Good (.error e, conn) :=
  ⟨h, nofun⟩

theorem Acks.andThen {r : Result α} {f : α → Conn → Result β} (h : Acks S Good r)
    (hf : ∀ a conn, TracksIn S conn → Good a → Acks S Good' (f a conn)) :
    Acks S Good' (r.andThen f) := by
  obtain ⟨x, conn⟩ := r
  cases x with
  | error e => exact .error h.1
  | ok a => exact hf a conn h.1 (h.2 a rfl)

theorem Acks.ite {c : Prop} [Decidable c] {r r' : Result α} (h : Acks S Good r)
    (h' : Acks S Good r') : Acks S Good (if c then r else r') := by
  split
  · exact h
  · exact h'

theorem Acks.call (h : TracksIn S conn) (ev : Event) :
    Acks S (fun _ => True) (connCall conn ev) := by
  unfold connCall
  split
  · exact .ok ⟨h.wf, h.nums, h.frq⟩ trivial
  · exact .error ⟨h.wf, h.nums, h.frq⟩

/-! ## The tracker -/

theorem mem_cutRuns {k : Nat} {rs : List (Nat × Nat)} {r : Nat × Nat} (h : r ∈ cutRuns k rs) :
    ∃ r' ∈ rs, r.1 = r'.1 ∧ (r.2 = r'.2 ∨ r.2 = r'.1) := by
  induction rs generalizing k with
  | nil =>
    rw [cutRuns_nil] at h
    cases h
  | cons r₀ rs ih =>
    cases k with
    | zero =>
      obtain rfl := List.mem_singleton.mp h
      exact ⟨r₀, List.mem_cons_self, rfl, .inr rfl⟩
    | succ k =>
      rcases List.mem_cons.mp h with rfl | h
      · exact ⟨r, List.mem_cons_self, rfl, .inl rfl⟩
      · obtain ⟨r', hr', hsame⟩ := ih h
        exact ⟨r', List.mem_cons_of_mem _ hr', hsame⟩

theorem RunsBelow.le_of_mem {lo : Nat} {rs : List (Nat × Nat)} {r : Nat × Nat}
    (h : RunsBelow lo rs) (hr : r ∈ rs) : r.2 ≤ r.1 := by
  induction rs generalizing lo with
  | nil => cases hr
  | cons r₀ rs ih =>
    rcases List.mem_cons.mp hr with rfl | hr
    · exact h.2.1
    · exact ih h.2.2 hr

/-- Also a frame with a block too many acknowledges only numbers of the tracker. -/
theorem AckCreated.covers_mem {acktr acktr' : Acktr} {fr : AckFrame} {n m : Nat} {ns : List Nat}
    (h : AckCreated acktr n ns fr acktr') (hdesc : Descending (n :: ns)) (hm : fr.Covers m) :
    m ∈ n :: ns := by
  obtain ⟨hle, hbelow⟩ := ackRuns_below hdesc
  have hleast : (n : Int) - (n - (ackRuns n ns).1 : Nat) = (ackRuns n ns).1 := by omega
  rw [AckFrame.Covers, h.largest, h.first, h.blks, hleast, (hbelow.cut _).inAckBlks_iff,
    Int.ofNat_le] at hm
  rw [mem_ackRuns hdesc]
  refine hm.imp_right ?_
  rintro ⟨r, hr, hge, hle'⟩
  obtain ⟨r', hr', hfst, hsnd⟩ := mem_cutRuns hr
  have hle₂ := hbelow.le_of_mem hr'
  refine ⟨r', hr', ?_, by omega⟩
  rcases hsnd with heq | heq <;> omega

theorem connCreateAckFrame_in (h : TracksIn S conn) {ts : Nat} {unprotected : Bool}
    {r : Option AckFrame} (hcall : connCreateAckFrame conn ts unprotected = (r, conn')) :
    TracksIn S conn' ∧ ∀ fr, r = some fr → (Frame.ack fr).AcksIn S := by
  obtain ⟨hsub, -, hwf, -⟩ := createAck_keeps h.wf hcall
  have hfrq : conn'.frq = conn.frq := by
    obtain ⟨evs, acktr, nextAckExpiry, immediateAck, -, -, heq⟩ :=
      connCreateAckFrame_quiet conn ts unprotected
    rw [hcall] at heq
    obtain rfl : conn' = _ := heq
    rfl
  refine ⟨⟨h.wf.sublist hsub, fun e he => h.nums e (hsub.subset he), hfrq ▸ h.frq⟩,
    fun fr hfr => ?_⟩
  refine ⟨hwf fr hfr, fun n hn => ?_⟩
  rcases connCreateAckFrame_cases h.wf hcall with ⟨hnone, -⟩ | ⟨fr', k, ns, hsome, hnums, hcreated⟩
  · rw [hnone] at hfr
    cases hfr
  · rw [hsome] at hfr
    obtain rfl := Option.some.inj hfr
    have hdesc : Descending (k :: ns) := hnums ▸ h.wf.desc.visibleNums unprotected
    obtain ⟨e, he, rfl⟩ := mem_visibleNums (hnums ▸ hcreated.covers_mem hdesc hn)
    exact h.nums e he

theorem connAckSent_in (h : TracksIn S conn) (pktNum : Nat) (ackfr : AckFrame)
    (unprotected : Bool) : TracksIn S (connAckSent conn pktNum ackfr unprotected) :=
  ⟨⟨h.wf.desc, h.wf.lt⟩, h.nums, h.frq⟩

/-! ## Filling a packet -/

theorem ppeEncodeHd_acks {destlen aeadOverhead : Nat} {ckm : Option CryptoKm} {hd : PktHd}
    (h : ppeEncodeHd destlen aeadOverhead ckm hd = .ok ppe) : AcksIn S ppe.frames := by
  rw [(ppeEncodeHd_ok h).2.1]
  exact .nil

theorem ppeEncodeFrame_acks {ppe' : Ppe} (h : ppeEncodeFrame ppe fr = .ok ppe')
    (hppe : AcksIn S ppe.frames) (hfr : fr.AcksIn S) : AcksIn S ppe'.frames := by
  obtain ⟨len, -, -, rfl⟩ := ppeEncodeFrame_ok h
  exact hppe.snoc hfr

theorem ppePadding_acks (hppe : AcksIn S ppe.frames) : AcksIn S (ppePadding ppe).frames :=
  hppe.snoc trivial

theorem ppeFinal_acks (h : TracksIn S conn) (hppe : AcksIn S ppe.frames) :
    Acks S (fun pkt => AcksIn S pkt.frames) (ppeFinal conn ppe) := by
  unfold ppeFinal
  split
  · exact .error h
  · exact (Acks.call h _).andThen fun _ _ h _ => .ok h hppe

theorem connPpeWriteFrame_acks (h : TracksIn S conn) (hppe : AcksIn S ppe.frames)
    (hfr : fr.AcksIn S) :
    Acks S (fun ppe => AcksIn S ppe.frames) (connPpeWriteFrame conn ppe fr) := by
  unfold connPpeWriteFrame
  split
  · exact .error h
  · next ppe' henc =>
    have hfirst : Acks S (fun _ => True)
        (if ppe'.sendPktCbCalled then (.ok (), conn) else connCallSendPkt conn ppe'.hd) := by
      split
      · exact .ok h trivial
      · exact .call h _
    refine hfirst.andThen fun _ _ h _ => ?_
    have hppe' : AcksIn S ppe'.frames := ppeEncodeFrame_acks henc hppe hfr
    exact (Acks.call h _).andThen fun _ _ h _ => .ok h hppe'

/-- The packet and what goes back to the chain acknowledge only packets of `S`. -/
def Written.AcksIn (S : Nat → Prop) (w : Written) : Prop :=
  Ngtcp2.AcksIn S w.ppe.frames ∧ Ngtcp2.AcksIn S (w.done ++ w.rest)

theorem writeFrame_acks {frc : List Frame} {next : Ppe → Conn → Result Written}
    (h : TracksIn S conn) (hppe : AcksIn S ppe.frames) (hfrc : AcksIn S (fr :: frc))
    (hnext : ∀ ppe conn, TracksIn S conn → AcksIn S ppe.frames →
      Acks S (Written.AcksIn S) (next ppe conn)) :
    Acks S (Written.AcksIn S) (writeFrame fr frc ppe conn next) := by
  have hfr := hfrc fr List.mem_cons_self
  have hwritten := connPpeWriteFrame_acks h hppe hfr
  unfold writeFrame
  generalize connPpeWriteFrame conn ppe fr = res at hwritten
  split
  · exact .ok hwritten.1 ⟨hppe, hfrc⟩
  · exact .error hwritten.1
  · next ppe' conn' =>
    refine (hnext ppe' conn' hwritten.1 (hwritten.2 ppe' rfl)).andThen fun w conn h hw => ?_
    exact .ok h ⟨hw.1, hw.2.cons hfr⟩

theorem writeFrames_acks {cancel : Frame → Bool} {frc : List Frame} (h : TracksIn S conn)
    (hppe : AcksIn S ppe.frames) (hfrc : AcksIn S frc) :
    Acks S (Written.AcksIn S) (writeFrames cancel frc ppe conn) := by
  induction frc generalizing ppe conn with
  | nil => exact .ok h ⟨hppe, .nil⟩
  | cons fr frc ih =>
    unfold writeFrames
    split
    · exact ih h hppe hfrc.tail
    · exact writeFrame_acks h hppe hfrc fun ppe conn h hppe => ih h hppe hfrc.tail

/-! ## Handshake packets -/

variable {destlen ts : Nat} {pktType : PktType}

theorem handshakeAck_acks (h : TracksIn S conn) (hppe : AcksIn S ppe.frames) :
    Acks S (fun ppe => AcksIn S ppe.frames) (handshakeAck conn ppe ts) := by
  unfold handshakeAck
  generalize hcall : connCreateAckFrame conn ts true = res
  obtain ⟨ackfr, conn₁⟩ := res
  obtain ⟨h₁, hack⟩ := connCreateAckFrame_in h hcall
  cases ackfr with
  | none => exact .ok h₁ hppe
  | some ackfr =>
    dsimp only
    split
    · exact .error h₁
    · next ppe' henc =>
      refine (Acks.call h₁ _).andThen fun _ _ h _ => ?_
      exact .ok (connAckSent_in h _ _ _) (ppeEncodeFrame_acks henc hppe (hack ackfr rfl))

theorem handshakeStream_acks (h : TracksIn S conn) (hppe : AcksIn S ppe.frames) :
    Acks S (fun v => AcksIn S v.1.frames) (handshakeStream conn ppe) := by
  unfold handshakeStream
  split
  · exact .error h
  dsimp only
  split
  · exact .error h
  split
  · exact .ok h hppe
  split
  · exact .error h
  · next ppe' henc =>
    refine (Acks.call h _).andThen fun _ _ h _ => ?_
    exact .ok ⟨h.wf, h.nums, h.frq⟩ (ppeEncodeFrame_acks henc hppe trivial)

theorem handshakeTail_acks {frc : List Frame} (h : TracksIn S conn) (hppe : AcksIn S ppe.frames) :
    Acks S (fun v => AcksIn S v.1.frames) (handshakeTail conn ppe frc) := by
  unfold handshakeTail
  split
  · split
    · exact (Acks.call h _).andThen fun _ _ h _ => .ok h (ppePadding_acks hppe)
    · exact .ok h (ppePadding_acks hppe)
  split
  · dsimp only
    split
    · exact .error h
    · next ppe' henc =>
      exact (Acks.call h _).andThen fun _ _ h _ => .ok h (ppeEncodeFrame_acks henc hppe trivial)
  · exact .ok h hppe

theorem sendTracked_acks {frc : List Frame} {unprotected : Bool} (h : TracksIn S conn)
    (hppe : AcksIn S ppe.frames) :
    Acks S (fun pkt => AcksIn S pkt.frames) (sendTracked conn ppe frc ts unprotected) := by
  unfold sendTracked
  refine (ppeFinal_acks h hppe).andThen fun pkt conn h hpkt => .ok ?_ hpkt
  split <;> exact ⟨h.wf, h.nums, h.frq⟩

theorem connWriteHandshakePkt_acks (h : TracksIn S conn) :
    Acks S (fun pkt => AcksIn S pkt.frames) (connWriteHandshakePkt conn destlen pktType ts) := by
  unfold connWriteHandshakePkt
  dsimp only
  split
  · exact .error h
  next ppe hhd =>
  have hppe : AcksIn S ppe.frames := ppeEncodeHd_acks hhd
  refine (Acks.call h _).andThen fun _ conn h _ => ?_
  refine (Acks.ite (handshakeAck_acks h hppe) (.ok h hppe)).andThen fun ppe conn h hppe => ?_
  split
  · exact ppeFinal_acks ⟨h.wf, h.nums, h.frq⟩ hppe
  refine (handshakeStream_acks h hppe).andThen fun v conn h hppe => ?_
  exact (handshakeTail_acks h hppe).andThen fun v conn h hppe => sendTracked_acks h hppe

/-- A packet, if there is one, acknowledges only packets of `S`. -/
def PktAcksIn (S : Nat → Prop) (pkt : Option Pkt) : Prop := ∀ p, pkt = some p → AcksIn S p.frames

theorem PktAcksIn.none : PktAcksIn S none := nofun

theorem PktAcksIn.some {pkt : Pkt} (h : AcksIn S pkt.frames) : PktAcksIn S (.some pkt) := by
  intro p hp
  obtain rfl := Option.some.inj hp
  exact h

theorem Acks.some {r : Result Pkt} (h : Acks S (fun pkt => AcksIn S pkt.frames) r) :
    Acks S (PktAcksIn S) (r.andThen fun pkt conn => (.ok (.some pkt), conn)) :=
  h.andThen fun _ _ h hpkt => .ok h (.some hpkt)

theorem connWriteHandshakeAckPkt_acks (h : TracksIn S conn) :
    Acks S (PktAcksIn S) (connWriteHandshakeAckPkt conn destlen pktType ts) := by
  unfold connWriteHandshakeAckPkt
  split
  · exact .ok h .none
  generalize hcall : connCreateAckFrame conn ts true = res
  obtain ⟨ackfr, conn₁⟩ := res
  obtain ⟨h₁, hack⟩ := connCreateAckFrame_in h hcall
  cases ackfr with
  | none => exact .ok h₁ .none
  | some ackfr =>
  dsimp only
  split
  · exact .error h₁
  next ppe hhd =>
  refine (Acks.call h₁ _).andThen fun _ conn h _ => ?_
  split
  · exact .error h
  next ppe' henc =>
  have hppe : AcksIn S ppe'.frames :=
    ppeEncodeFrame_acks henc (ppeEncodeHd_acks hhd) (hack ackfr rfl)
  refine (Acks.call h _).andThen fun _ conn h _ => .some ?_
  have hsent := connAckSent_in h ppe'.hd.pktNum ackfr true
  exact ppeFinal_acks ⟨hsent.wf, hsent.nums, hsent.frq⟩ hppe

theorem setTxBuf0_in (h : TracksIn S conn) (payload : List UInt8) :
    TracksIn S (setTxBuf0 conn payload) := by
  unfold setTxBuf0
  split <;> exact ⟨h.wf, h.nums, h.frq⟩

theorem TracksIn.setLastTxPktNum (h : TracksIn S conn) (n : Nat) :
    TracksIn S (conn.setLastTxPktNum n) := ⟨h.wf, h.nums, h.frq⟩

theorem connWriteClientInitial_acks (h : TracksIn S conn) :
    Acks S (fun pkt => AcksIn S pkt.frames) (connWriteClientInitial conn destlen ts) := by
  have htell : TracksIn S (conn.tell .sendClientInitial) := ⟨h.wf, h.nums, h.frq⟩
  unfold connWriteClientInitial
  dsimp only
  split
  · exact .error htell
  · exact .error htell
  · next pktNum payload _ _ =>
    have hbuf := setTxBuf0_in htell payload
    apply connWriteHandshakePkt_acks
    split
    · exact hbuf
    · exact hbuf.setLastTxPktNum _

theorem connWriteClientHandshake_acks (h : TracksIn S conn) :
    Acks S (PktAcksIn S) (connWriteClientHandshake conn destlen ts) := by
  have htell : TracksIn S (conn.tell .sendClientHandshake) := ⟨h.wf, h.nums, h.frq⟩
  unfold connWriteClientHandshake
  split
  · dsimp only
    split
    · exact .error htell
    · split
      · exact .error htell
      · exact connWriteHandshakeAckPkt_acks htell
    · exact (connWriteHandshakePkt_acks (setTxBuf0_in htell _)).some
  · exact (connWriteHandshakePkt_acks h).some

theorem connWriteServerHandshake_acks {initial : Bool} (h : TracksIn S conn) :
    Acks S (PktAcksIn S) (connWriteServerHandshake conn destlen initial ts) := by
  have htell : TracksIn S (conn.tell .sendServerHandshake) := ⟨h.wf, h.nums, h.frq⟩
  have hinit : ∀ {conn : Conn} (n : Nat), TracksIn S conn →
      TracksIn S (if initial then setInitialPktNum conn n else conn) := by
    intro conn n h
    split
    · exact ⟨h.wf, h.nums, h.frq⟩
    · exact h
  unfold connWriteServerHandshake
  split
  · dsimp only
    split
    · exact .error htell
    · split
      · exact .error htell
      split
      · exact .error htell
      · exact connWriteHandshakeAckPkt_acks htell
    · exact (connWriteHandshakePkt_acks (hinit _ (setTxBuf0_in htell _))).some
  · exact (connWriteHandshakePkt_acks (hinit _ h)).some

/-! ## Protected packets -/

theorem queueMaxData_in (h : TracksIn S conn) (ackfr : Option AckFrame) :
    TracksIn S (queueMaxData conn ackfr) := by
  unfold queueMaxData
  split
  · have hnew : (Frame.maxData conn.unsentMaxRxOffset).AcksIn S := trivial
    exact ⟨h.wf, h.nums, h.frq.cons hnew⟩
  · exact h

theorem queueMaxStreamData_in {ids : List Nat} (h : TracksIn S conn)
    (hcall : queueMaxStreamData ids conn = some conn') : TracksIn S conn' := by
  induction ids generalizing conn with
  | nil =>
    obtain rfl := Option.some.inj hcall
    exact ⟨h.wf, h.nums, h.frq⟩
  | cons id ids ih =>
    unfold queueMaxStreamData at hcall
    split at hcall
    · cases hcall
    next strm _ =>
    have hnew : (Frame.maxStreamData ⟨strm.streamId, strm.unsentMaxRxOffset⟩).AcksIn S := trivial
    split at hcall
    · have hqueued : TracksIn S (conn.setFrq (.maxStreamData
          ⟨strm.streamId, strm.unsentMaxRxOffset⟩ :: conn.frq)) := ⟨h.wf, h.nums, h.frq.cons hnew⟩
      refine ih ?_ hcall
      exact ⟨hqueued.wf, hqueued.nums, hqueued.frq⟩
    · cases hcall

theorem writeMaxStreamId_acks {bidi : Bool} {w : Written} (h : TracksIn S conn)
    (hw : w.AcksIn S) : Acks S (Written.AcksIn S) (writeMaxStreamId conn bidi w) := by
  unfold writeMaxStreamId
  dsimp only
  split
  · next hnew =>
    have hids : TracksIn S (conn.setIds bidi { conn.ids bidi with
        maxRemoteStreamId := (conn.ids bidi).unsentMaxRemoteStreamId }) := by
      cases bidi <;> exact ⟨h.wf, h.nums, h.frq⟩
    have hfr : (Frame.maxStreamId (conn.ids bidi).unsentMaxRemoteStreamId).AcksIn S := trivial
    have hwritten := connPpeWriteFrame_acks hids hw.1 hfr
    generalize connPpeWriteFrame _ w.ppe _ = res at hwritten
    have hdone : AcksIn S w.done := hw.2.of_subset (List.subset_append_left _ _)
    split
    · exact .ok hwritten.1 ⟨hw.1, hdone.snoc hfr⟩
    · exact .error hwritten.1
    · next ppe' conn' =>
      have hrest : AcksIn S w.rest := hw.2.of_subset (List.subset_append_right _ _)
      exact .ok hwritten.1 ⟨hwritten.2 ppe' rfl, (hdone.snoc hfr).append hrest⟩
  · exact .ok h hw

theorem writeAckFrame_acks {ackfr : Option AckFrame} (h : TracksIn S conn)
    (hppe : AcksIn S ppe.frames) (hack : ∀ fr, ackfr = some fr → (Frame.ack fr).AcksIn S) :
    Acks S (fun ppe => AcksIn S ppe.frames) (writeAckFrame conn ppe ackfr) := by
  unfold writeAckFrame
  split
  · exact .ok h hppe
  · next fr =>
    refine (connPpeWriteFrame_acks h hppe (hack fr rfl)).andThen fun ppe conn h hppe => ?_
    exact .ok (connAckSent_in h _ _ _) hppe

theorem writePktFrames_acks (h : TracksIn S conn) (hppe : AcksIn S ppe.frames) :
    Acks S (Written.AcksIn S) (writePktFrames conn ppe) := by
  have hfrq : Acks S (Written.AcksIn S) (writeFrq conn ppe) := by
    have hw := @writeFrames_acks S conn ppe (frqCancelled conn) conn.frq h hppe h.frq
    unfold writeFrq
    generalize writeFrames (frqCancelled conn) conn.frq ppe conn = res at hw
    split
    · exact .error hw.1
    · next w conn' => exact .ok hw.1 (hw.2 w rfl)
  unfold writePktFrames
  refine hfrq.andThen fun w conn h hw => ?_
  refine (writeMaxStreamId_acks h hw).andThen fun w conn h hw => ?_
  exact writeMaxStreamId_acks h hw

theorem connWritePkt_acks (h : TracksIn S conn) :
    Acks S (PktAcksIn S) (connWritePkt conn destlen ts) := by
  have hcreated : ∀ ackfr conn₁, (if connNextAckExpired conn ts then
      connCreateAckFrame conn ts false else (none, conn)) = (ackfr, conn₁) →
      TracksIn S conn₁ ∧ ∀ fr, ackfr = some fr → (Frame.ack fr).AcksIn S := by
    intro ackfr conn₁ hcall
    split at hcall
    · exact connCreateAckFrame_in h hcall
    · obtain ⟨rfl, rfl⟩ := Prod.mk.inj hcall
      exact ⟨h, nofun⟩
  unfold connWritePkt
  dsimp only
  generalize (if connNextAckExpired conn ts then connCreateAckFrame conn ts false else (none,
    conn)) = res at hcreated
  obtain ⟨ackfr, conn₁⟩ := res
  obtain ⟨h₁, hack⟩ := hcreated ackfr conn₁ rfl
  dsimp only
  split
  · exact .error (queueMaxData_in h₁ ackfr)
  next conn₂ hqueue =>
  have h₂ := queueMaxStreamData_in (queueMaxData_in h₁ ackfr) hqueue
  split
  · exact .ok h₂ .none
  split
  · exact .error h₂
  next ppe hhd =>
  refine (writeAckFrame_acks h₂ (ppeEncodeHd_acks hhd) hack).andThen fun ppe conn h hppe => ?_
  refine (writePktFrames_acks h hppe).andThen fun w conn h hw => ?_
  have hfrq : TracksIn S (conn.setFrq (w.done ++ w.rest)) := ⟨h.wf, h.nums, hw.2⟩
  split
  · split
    · exact .error hfrq
    · exact .ok hfrq .none
  refine (ppeFinal_acks hfrq hw.1).andThen fun pkt conn h hpkt => .ok ?_ (.some hpkt)
  split
  · exact ⟨h.wf, h.nums, h.frq⟩
  · exact ⟨h.wf, h.nums, hw.2.of_subset (List.subset_append_right _ _)⟩

theorem connWriteSingleFramePkt_acks (h : TracksIn S conn) (hfr : fr.AcksIn S) :
    Acks S (fun pkt => AcksIn S pkt.frames) (connWriteSingleFramePkt conn destlen fr) := by
  unfold connWriteSingleFramePkt
  split
  · exact .error h
  next ppe hhd =>
  refine (Acks.call h _).andThen fun _ conn h _ => ?_
  split
  · exact .error h
  next ppe' henc =>
  refine (Acks.call h _).andThen fun _ conn h _ => ?_
  refine (ppeFinal_acks h (ppeEncodeFrame_acks henc (ppeEncodeHd_acks hhd) hfr)).andThen
    fun pkt conn h hpkt => .ok ?_ hpkt
  cases fr with
  | ack fr => exact ⟨⟨h.wf.desc, h.wf.lt⟩, h.nums, h.frq⟩
  | _ => exact ⟨h.wf, h.nums, h.frq⟩

theorem connWriteProtectedAckPkt_acks (h : TracksIn S conn) :
    Acks S (PktAcksIn S) (connWriteProtectedAckPkt conn destlen ts) := by
  unfold connWriteProtectedAckPkt
  split
  · exact .ok h .none
  generalize hcall : connCreateAckFrame conn ts false = res
  obtain ⟨ackfr, conn₁⟩ := res
  obtain ⟨h₁, hack⟩ := connCreateAckFrame_in h hcall
  cases ackfr with
  | none => exact .ok h₁ .none
  | some ackfr =>
    refine (connWriteSingleFramePkt_acks h₁ (hack ackfr rfl)).andThen fun pkt conn h hpkt => ?_
    exact .ok ⟨⟨h.wf.desc, h.wf.lt⟩, h.nums, h.frq⟩ (.some hpkt)

/-! ## Retransmission -/

/-- The value of a retransmission function and the connection it leaves. -/
def Retransmit.result (x : Retransmit) : Result (Option Pkt) := (x.1, x.2.2)

variable {ent ent' : RtbEntry}

theorem retransmitFrames_acks {lookup : Conn} {frc : List Frame} (h : TracksIn S conn)
    (hppe : AcksIn S ppe.frames) (hfrc : AcksIn S frc) :
    Acks S (Written.AcksIn S) (retransmitFrames lookup frc ppe conn) := by
  obtain ⟨n, hn⟩ : ∃ n, frc.length ≤ n := ⟨_, Nat.le_refl _⟩
  induction n generalizing frc ppe conn with
  | zero =>
    obtain rfl := List.length_eq_zero_iff.mp (Nat.le_zero.mp hn)
    exact .ok h ⟨hppe, .nil⟩
  | succ n ih =>
    -- One frame is written, and the loop goes on behind it.
    have hwrite : ∀ {fr : Frame} {frc : List Frame}, frc.length ≤ n → AcksIn S (fr :: frc) →
        Acks S (Written.AcksIn S) (writeFrame fr frc ppe conn (retransmitFrames lookup frc)) :=
      fun hlen hfrc => writeFrame_acks h hppe hfrc fun _ _ h hppe => ih h hppe hfrc.tail hlen
    cases frc with
    | nil => exact .ok h ⟨hppe, .nil⟩
    | cons fr frc =>
      have hlen : frc.length ≤ n := Nat.le_of_succ_le_succ hn
      unfold retransmitFrames
      split
      · exact ih h hppe hfrc.tail hlen
      split
      · split
        · exact .error h
        · exact hwrite (Nat.le_of_succ_le hlen) hfrc.tail
      · exact hwrite hlen hfrc

theorem retransmitPartial_acks {w : Written} {unprotected : Bool} (h : TracksIn S conn)
    (hppe : AcksIn S w.ppe.frames) :
    Acks S (PktAcksIn S) (retransmitPartial conn ent w ts unprotected).result := by
  have hfinal := ppeFinal_acks h hppe
  unfold retransmitPartial
  generalize ppeFinal conn w.ppe = res at hfinal
  split
  · exact .error hfinal.1
  · next pkt conn' =>
    obtain ⟨⟨hwf, hnums, hfrq⟩, hpkt⟩ := hfinal
    exact .ok ⟨hwf, hnums, hfrq⟩ (.some (hpkt pkt rfl))

theorem retransmitPadding_acks (h : TracksIn S conn) (hppe : AcksIn S ppe.frames) :
    Acks S (fun ppe => AcksIn S ppe.frames) (retransmitPadding conn ppe) := by
  unfold retransmitPadding
  split
  · exact (Acks.call h _).andThen fun _ _ h _ => .ok h (ppePadding_acks hppe)
  · exact .ok h hppe

theorem connRetransmitUnprotected_acks (h : TracksIn S conn) (hfrc : AcksIn S ent.frc) :
    Acks S (PktAcksIn S) (connRetransmitUnprotected conn destlen ent ts).result := by
  unfold connRetransmitUnprotected
  split
  · exact .error h
  next ppe hhd =>
  have hw := @writeFrames_acks S conn ppe (fun _ => false) ent.frc h (ppeEncodeHd_acks hhd) hfrc
  generalize writeFrames (fun _ => false) ent.frc ppe conn = res at hw
  split
  · exact .error hw.1
  next w conn₁ =>
  obtain ⟨h₁, hgood⟩ := hw
  have hwritten := hgood w rfl
  split
  · split
    · exact .error h₁
    · exact .ok h₁ .none
  split
  · have hpadded := retransmitPadding_acks h₁ hwritten.1
    dsimp only
    generalize retransmitPadding conn₁ w.ppe = res at hpadded
    split
    · exact .error hpadded.1
    next ppe conn₂ =>
    obtain ⟨h₂, hgood₂⟩ := hpadded
    have hfinal := ppeFinal_acks (h₂.setLastTxPktNum conn₂.nextPktNum) (hgood₂ ppe rfl)
    change Acks S _ (ppeFinal conn₂.incLastTxPktNum ppe) at hfinal
    generalize ppeFinal conn₂.incLastTxPktNum ppe = res at hfinal
    split
    · exact .error hfinal.1
    · next pkt conn₃ => exact .ok hfinal.1 (.some (hfinal.2 pkt rfl))
  · exact retransmitPartial_acks h₁ hwritten.1

theorem retransmitAck_acks {ackExpired : Bool} (h : TracksIn S conn)
    (hppe : AcksIn S ppe.frames) :
    Acks S (fun ppe => AcksIn S ppe.frames) (retransmitAck conn ppe ackExpired ts) := by
  unfold retransmitAck
  split
  · generalize hcall : connCreateAckFrame conn ts false = res
    obtain ⟨ackfr, conn₁⟩ := res
    obtain ⟨h₁, hack⟩ := connCreateAckFrame_in h hcall
    cases ackfr with
    | none => exact .ok h₁ hppe
    | some ackfr =>
      have hwritten := connPpeWriteFrame_acks h₁ hppe (hack ackfr rfl)
      dsimp only
      generalize connPpeWriteFrame conn₁ ppe (.ack ackfr) = res at hwritten
      split
      · exact .ok hwritten.1 hppe
      · exact .error hwritten.1
      · next ppe' conn₂ => exact .ok (connAckSent_in hwritten.1 _ _ _) (hwritten.2 ppe' rfl)
  · exact .ok h hppe

theorem connRetransmitProtected_acks (h : TracksIn S conn) (hfrc : AcksIn S ent.frc) :
    Acks S (PktAcksIn S) (connRetransmitProtected conn destlen ent ts).result := by
  unfold connRetransmitProtected
  dsimp only
  split
  · exact .error h
  next ppe hhd =>
  have hw := @retransmitFrames_acks S conn ppe conn ent.frc h (ppeEncodeHd_acks hhd) hfrc
  generalize retransmitFrames conn ent.frc ppe conn = res at hw
  split
  · exact .error hw.1
  next w conn₁ =>
  obtain ⟨h₁, hgood⟩ := hw
  have hwritten := hgood w rfl
  split
  · split
    · exact .error h₁
    · exact .ok h₁ .none
  have hacked := @retransmitAck_acks S conn₁ w.ppe ts (connNextAckExpired conn ts) h₁ hwritten.1
  generalize retransmitAck conn₁ w.ppe (connNextAckExpired conn ts) ts = res at hacked
  split
  · exact .error hacked.1
  next ppe' conn₂ =>
  obtain ⟨h₂, hgood₂⟩ := hacked
  split
  · have hfinal := ppeFinal_acks h₂ (hgood₂ ppe' rfl)
    generalize ppeFinal conn₂ ppe' = res at hfinal
    split
    · exact .error hfinal.1
    · next pkt conn₃ =>
      exact .ok (hfinal.1.setLastTxPktNum _) (.some (hfinal.2 pkt rfl))
  · exact retransmitPartial_acks h₂ (hgood₂ ppe' rfl)

theorem retransmitEntry_acks (h : TracksIn S conn) (hfrc : AcksIn S ent.frc) :
    Acks S (PktAcksIn S) (retransmitEntry conn destlen ent ts).result := by
  unfold retransmitEntry
  split
  · split
    · exact .ok h .none
    · exact connRetransmitUnprotected_acks h hfrc
  · exact connRetransmitProtected_acks h hfrc

/-- The frames of the entries acknowledge only packets of `S`. -/
def EntriesAckIn (S : Nat → Prop) (ents : List RtbEntry) : Prop := ∀ ent ∈ ents, AcksIn S ent.frc

theorem connRetransmitLoop_acks (fuel : Nat) (hinv : RtbInv conn.rtb) (h : TracksIn S conn)
    (hents : EntriesAckIn S conn.rtb.head) :
    Acks S (PktAcksIn S) (connRetransmitLoop fuel conn destlen ts) := by
  induction fuel generalizing conn with
  | zero => exact .error h
  | succ fuel ih =>
    simp only [connRetransmitLoop]
    split
    · exact .ok h .none
    next ent htop =>
    split
    · exact .ok h .none
    obtain ⟨rtb, hpop, hun⟩ := hinv.pop htop
    rw [hpop]
    dsimp only
    have hset : TracksIn S (conn.setRtb rtb) := ⟨h.wf, h.nums, h.frq⟩
    split
    · exact .error hset
    split
    · exact .error hset
    have hent : ent ∈ conn.rtb.head := hun.perm.subset List.mem_cons_self
    have hone := @retransmitEntry_acks S (conn.setRtb rtb) destlen ts ent hset (hents ent hent)
    generalize hcall : retransmitEntry (conn.setRtb rtb) destlen ent ts = res at hone
    split
    · next ent' conn₁ =>
      rcases retransmitEntry_cases hcall with hf | hres
      · exact absurd hf (not_fatal_ok _)
      cases hres with
      | nothing why =>
        exact ih hun.inv hone.1 fun ent hent => hents ent (hun.sublist.subset hent)
    · next ent' conn₁ =>
      obtain ⟨⟨hwf, hnums, hfrq⟩, -⟩ := hone
      exact .error ⟨hwf, hnums, hfrq⟩
    · exact .error hone.1
    · next pkt ent' conn₁ =>
      obtain ⟨⟨hwf, hnums, hfrq⟩, hpkt⟩ := hone
      split
      · exact .ok ⟨hwf, hnums, hfrq⟩ (hpkt _ rfl)
      · exact .ok ⟨hwf, hnums, hfrq⟩ (hpkt _ rfl)

theorem connRetransmit_acks (hinv : RtbInv conn.rtb) (h : TracksIn S conn)
    (hents : EntriesAckIn S conn.rtb.head) :
    Acks S (PktAcksIn S) (connRetransmit conn destlen ts) :=
  connRetransmitLoop_acks _ hinv h hents

/-! ## Steps -/

theorem EntriesAckIn.emitted (hents : EntriesAckIn S (unacked conn))
    (h : EmittedOnly conn none conn') : EntriesAckIn S (unacked conn') := by
  intro ent hent
  rcases h.kept ent hent with ⟨old, hold, -, hsub⟩ | ⟨_, he, -⟩
  · exact (hents old hold).of_subset hsub
  · cases he

theorem EntriesAckIn.head (hents : EntriesAckIn S (unacked conn)) :
    EntriesAckIn S conn.rtb.head := fun ent hent => hents ent (List.mem_append_left _ hent)

/-- A handshake writer that returns nothing wrote nothing. -/
theorem HsCall.quiet_none (h : HsCall conn (.ok none) conn') : Quiet conn conn' := by
  generalize hx : Except.ok none = x at h
  cases h with
  | @written _ _ r prepared written => cases r <;> simp [Except.map] at hx
  | acked written =>
    cases written with
    | nothing quiet => exact quiet
    | noBuf quiet => exact quiet
    | sent sends => simp at hx
  | failed quiet => exact quiet

theorem ngtcp2ConnWritePkt_acks (hinv : EntriesInv conn) (h : TracksIn S conn)
    (hents : EntriesAckIn S (unacked conn)) :
    Acks S (PktAcksIn S) (ngtcp2ConnWritePkt conn destlen ts) := by
  have hagain := @connRetransmit_acks S conn destlen ts hinv.rtb h hents.head
  unfold ngtcp2ConnWritePkt
  split
  · exact .error h
  generalize hcall : connRetransmit conn destlen ts = res at hagain
  obtain ⟨x, conn₁⟩ := res
  obtain ⟨h₁, hpkt⟩ := hagain
  cases x with
  | error e => exact .error h₁
  | ok pkt =>
  cases pkt with
  | some pkt => exact .ok h₁ (hpkt _ rfl)
  | none =>
  have hinv₁ := connRetransmit_entriesInv hinv hcall (not_fatal_ok _)
  have hents₁ := hents.emitted (connRetransmit_emitted hinv.rtb hcall (not_fatal_ok _))
  have hstate : ∀ {c : Conn} (state : ConnState), TracksIn S c → TracksIn S (c.setState state) :=
    fun _ h => ⟨h.wf, h.nums, h.frq⟩
  rw [andThen_ok]
  dsimp only
  split
  · exact (connWriteClientInitial_acks h₁).andThen fun _ _ h hpkt => .ok (hstate _ h) (.some hpkt)
  · exact connWriteClientHandshake_acks h₁
  · -- The handshake is over, and early data is retransmitted.
    have hclient := @connWriteClientHandshake_acks S conn₁ destlen ts h₁
    generalize hcall₂ : connWriteClientHandshake conn₁ destlen ts = res at hclient
    obtain ⟨x, conn₂⟩ := res
    obtain ⟨h₂, hpkt⟩ := hclient
    cases x with
    | error e => exact .error h₂
    | ok pkt =>
    cases pkt with
    | some pkt => exact .ok h₂ (hpkt _ rfl)
    | none =>
    rw [andThen_ok]
    dsimp only
    split
    · exact .error (hstate _ h₂)
    split
    · exact .ok (hstate _ h₂) .none
    have hwritten := (connWriteClientHandshake_cases hcall₂).resolve_left (not_fatal_ok _)
    have hquiet := hwritten.quiet_none
    have hinv₂ := hquiet.entriesInv hinv₁
    have hinv₃ : EntriesInv (conn₂.setState .postHandshake) :=
      ⟨hinv₂.rtb, hinv₂.nodup, hinv₂.fresh⟩
    have hearly := connProcessEarlyRtb_emitted hinv₃
    have hents₂ := hents₁.emitted (Logs.emitted hquiet)
    have hents₃ : EntriesAckIn S (unacked (conn₂.setState .postHandshake)) := hents₂
    exact connRetransmit_acks (connProcessEarlyRtb_spec hinv₃).1.rtb ⟨h₂.wf, h₂.nums, h₂.frq⟩
      (hents₃.emitted hearly).head
  · exact connWriteClientHandshake_acks h₁
  · exact (connWriteServerHandshake_acks h₁).andThen fun _ _ h hpkt => .ok (hstate _ h) hpkt
  · exact connWriteServerHandshake_acks h₁
  · exact connWriteServerHandshake_acks h₁
  · exact connWritePkt_acks h₁
  · exact .ok h₁ .none
  · exact .ok h₁ .none

theorem ngtcp2ConnWriteAckPkt_acks (hinv : EntriesInv conn) (h : TracksIn S conn)
    (hents : EntriesAckIn S (unacked conn)) :
    Acks S (PktAcksIn S) (ngtcp2ConnWriteAckPkt conn destlen ts) := by
  have hagain := @connRetransmit_acks S conn destlen ts hinv.rtb h hents.head
  unfold ngtcp2ConnWriteAckPkt
  split
  · exact .error h
  refine hagain.andThen fun pkt conn₁ h₁ hpkt => ?_
  split
  · exact .ok h₁ hpkt
  split
  · exact connWriteHandshakeAckPkt_acks h₁
  · exact connWriteHandshakeAckPkt_acks h₁
  · exact connWriteHandshakeAckPkt_acks h₁
  · exact connWriteHandshakeAckPkt_acks h₁
  · exact connWriteHandshakeAckPkt_acks h₁
  · exact connWriteProtectedAckPkt_acks h₁
  · exact .ok h₁ .none

theorem ngtcp2ConnWriteStream_acks {streamId : Nat} {fin : Bool} {data : List UInt8}
    (h : TracksIn S conn) :
    Acks S (fun v => AcksIn S v.1.frames)
      (ngtcp2ConnWriteStream conn destlen streamId fin data ts) := by
  unfold ngtcp2ConnWriteStream
  split
  · exact .error h
  split
  · exact .error h
  split
  · exact .error h
  split
  · exact .error h
  split
  · exact .error h
  next ppe hhd =>
  split
  · exact .error h
  dsimp only
  split
  · exact .error h
  refine (Acks.call h _).andThen fun _ conn₁ h₁ _ => ?_
  split
  · exact .error h₁
  next ppe' henc =>
  have hppe : AcksIn S ppe'.frames := ppeEncodeFrame_acks henc (ppeEncodeHd_acks hhd) trivial
  refine (Acks.call h₁ _).andThen fun _ conn₂ h₂ _ => ?_
  refine (ppeFinal_acks h₂ hppe).andThen fun pkt conn₃ h₃ hpkt => .ok ?_ hpkt
  unfold chargeStream trackStreamPkt
  dsimp only
  split <;> exact ⟨h₃.wf, h₃.nums, h₃.frq⟩

/-- The two calls that close the connection share their packet. -/
theorem closePkt_acks (h : TracksIn S conn) (hfr : fr.AcksIn S) :
    Acks S (fun pkt => AcksIn S pkt.frames)
      (if conn.lastTxPktNum = uint64Max then (.error .pktNumExhausted, conn)
        else if conn.state = .postHandshake then
          (connWriteSingleFramePkt conn destlen fr).andThen fun pkt conn =>
          (.ok pkt, conn.setState .closing)
        else (.error .invalidState, conn)) := by
  split
  · exact .error h
  split
  · exact (connWriteSingleFramePkt_acks h hfr).andThen fun _ _ h hpkt =>
      .ok ⟨h.wf, h.nums, h.frq⟩ hpkt
  · exact .error h

theorem void_in {r : Result α} (h : TracksIn S r.2) : TracksIn S r.void.2 := by
  rw [void_snd]
  exact h

/-- A call that writes a packet. -/
theorem Op.acksSent {op : Op} (hw : op.writesPkt = true) (hinv : EntriesInv conn)
    (h : TracksIn S conn) (hents : EntriesAckIn S (unacked conn)) :
    TracksIn S (op.run conn).2 ∧ PktAcksIn S (op.pkt conn) := by
  have hjoin : ∀ {r : Result (Option Pkt)}, Acks S (PktAcksIn S) r →
      TracksIn S r.void.2 ∧ PktAcksIn S r.1.toOption.join := by
    rintro ⟨x, c⟩ ⟨h, hpkt⟩
    refine ⟨void_in h, fun p hp => ?_⟩
    exact hpkt _ (toOption_join hp) p rfl
  have hone : ∀ {r : Result Pkt}, Acks S (fun pkt => AcksIn S pkt.frames) r →
      TracksIn S r.void.2 ∧ PktAcksIn S r.1.toOption := by
    rintro ⟨x, c⟩ ⟨h, hpkt⟩
    exact ⟨void_in h, fun p hp => hpkt p (toOption_some hp)⟩
  cases op with
  | writeStream destlen streamId fin data ts =>
    have hwritten := @ngtcp2ConnWriteStream_acks S conn destlen ts streamId fin data h
    refine ⟨void_in hwritten.1, fun p hp => ?_⟩
    rw [Op.pkt] at hp
    generalize ngtcp2ConnWriteStream conn destlen streamId fin data ts = r at hwritten hp
    obtain ⟨x, c⟩ := r
    cases x with
    | error e => cases hp
    | ok v =>
      obtain rfl := Option.some.inj hp
      exact hwritten.2 v rfl
  | writePkt destlen ts => exact hjoin (ngtcp2ConnWritePkt_acks hinv h hents)
  | writeAckPkt destlen ts => exact hjoin (ngtcp2ConnWriteAckPkt_acks hinv h hents)
  | writeConnectionClose destlen errorCode =>
    exact hone (closePkt_acks h (trivial : (Frame.connectionClose errorCode []).AcksIn S))
  | writeApplicationClose destlen appErrorCode =>
    refine hone ?_
    unfold ngtcp2ConnWriteApplicationClose
    split
    · exact .error h
    · exact closePkt_acks h (trivial : (Frame.applicationClose appErrorCode []).AcksIn S)
  | _ => cases hw

end

end Ngtcp2
