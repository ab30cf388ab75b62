import Polygon.ConnWrite

/-!
# Filling packets

What the encoder and its loops do with a chain of frames: which frames are written,
which are left, and that nothing but the log changes on the way.
-/
namespace Ngtcp2

/-- The event is none of those that say something about a stream. -/
def Event.neutral : Event → Bool
  | .recvStreamData .. | .recvStream0Data _ | .streamClose .. | .strmInit _ | .rstQueued _ | .pktAcked .. => false
  | _ => true

/-- The headers of the encrypted packets. -/
def encrypted (evs : List Event) : List PktHd :=
  evs.filterMap fun
    | .encrypt hd => some hd
    | _ => none

@[simp] theorem encrypted_append (evs evs' : List Event) :
    encrypted (evs ++ evs') = encrypted evs ++ encrypted evs' :=
  List.filterMap_append

/-- Neutral events, of which `hds` are the encrypted packets. -/
structure Neutral (hds : List PktHd) (evs : List Event) : Prop where
  neutral : ∀ ev ∈ evs, ev.neutral = true
  encrypted : encrypted evs = hds

/-- Only such events were logged, and only the ACK tracker and its timer changed. -/
def Logs (hds : List PktHd) (conn conn' : Conn) : Prop :=
  ∃ evs acktr nextAckExpiry immediateAck, Neutral hds evs ∧ (conn.acktr.Sorted → acktr.Sorted) ∧
    conn' = { conn with log := conn.log ++ evs, acktr, nextAckExpiry, immediateAck }

/-- And no packet was encrypted. -/
abbrev Quiet (conn conn' : Conn) : Prop := Logs [] conn conn'

theorem Neutral.nil : Neutral [] [] := ⟨by simp, rfl⟩

theorem Neutral.append {hds hds' : List PktHd} {evs evs' : List Event} (h : Neutral hds evs)
    (h' : Neutral hds' evs') :
    Neutral (hds ++ hds') (evs ++ evs') := by
  refine ⟨fun ev hev => ?_, by rw [encrypted_append, h.encrypted, h'.encrypted]⟩
  rcases List.mem_append.mp hev with hev | hev
  · exact h.neutral ev hev
  · exact h'.neutral ev hev

theorem Logs.append {conn conn₁ conn₂ : Conn} {hds hds' : List PktHd} (h₁ : Logs hds conn conn₁)
    (h₂ : Logs hds' conn₁ conn₂) : Logs (hds ++ hds') conn conn₂ := by
  obtain ⟨evs₁, _, _, _, hn₁, hs₁, rfl⟩ := h₁
  obtain ⟨evs₂, a, n, i, hn₂, hs₂, rfl⟩ := h₂
  exact ⟨evs₁ ++ evs₂, a, n, i, hn₁.append hn₂, fun h => hs₂ (hs₁ h), by simp⟩

theorem Logs.refl (conn : Conn) : Quiet conn conn :=
  ⟨[], conn.acktr, conn.nextAckExpiry, conn.immediateAck, .nil, id, by simp⟩

theorem Logs.trans {conn conn₁ conn₂ : Conn} {hds : List PktHd} (h₁ : Quiet conn conn₁)
    (h₂ : Logs hds conn₁ conn₂) :
    Logs hds conn conn₂ := h₁.append h₂

theorem Logs.quiet {conn conn₁ conn₂ : Conn} {hds : List PktHd} (h₁ : Logs hds conn conn₁)
    (h₂ : Quiet conn₁ conn₂) :
    Logs hds conn conn₂ := by
  have h := h₁.append h₂
  rwa [List.append_nil] at h

theorem Logs.tell {conn : Conn} {ev : Event} (h : ev.neutral = true) :
    Logs (encrypted [ev]) conn (conn.tell ev) :=
  ⟨[ev], conn.acktr, conn.nextAckExpiry, conn.immediateAck, ⟨by simpa using h, rfl⟩, id, rfl⟩

/-- A failure that ends the connection, or that no buffer is too small for. -/
def hard (e : Err) : Prop := e = .callbackFailure ∨ e = .abort

theorem hard.fatal {e : Err} (h : hard e) : e.isFatal = true := by
  rcases h with rfl | rfl <;> rfl

theorem hard.ne_noBuf {e : Err} (h : hard e) : e ≠ .noBuf := by
  rcases h with rfl | rfl <;> simp

/-- A neutral call into the application. -/
theorem connCall_quiet {conn conn' : Conn} {ev : Event} {r : Except Err Unit}
    (hev : ev.neutral = true)
    (h : connCall conn ev = (r, conn')) :
    Logs (encrypted [ev]) conn conn' ∧ ∀ e, r = .error e → e = .callbackFailure := by
  unfold connCall at h
  split at h
  · obtain ⟨rfl, rfl⟩ := Prod.mk.inj h
    exact ⟨.tell hev, by simp⟩
  · obtain ⟨rfl, rfl⟩ := Prod.mk.inj h
    exact ⟨.tell hev, fun e he => (Except.error.inj he).symm⟩

/-- Changes of the ACK tracker and its timer. -/
theorem Logs.ackState (conn : Conn) {acktr : Acktr} (hsorted : conn.acktr.Sorted → acktr.Sorted)
    (nextAckExpiry : Nat)
    (immediateAck : Bool) : Quiet conn { conn with acktr, nextAckExpiry, immediateAck } :=
  ⟨[], acktr, nextAckExpiry, immediateAck, .nil, hsorted, by simp⟩

theorem connCreateAckFrame_quiet (conn : Conn) (ts : Nat) (unprotected : Bool) :
    Quiet conn (connCreateAckFrame conn ts unprotected).2 := by
  unfold connCreateAckFrame
  split
  · exact .ackState conn id 0 false
  split
  · exact .ackState conn id 0 false
  · exact .ackState conn (fun hs => hs.sublist (List.take_sublist _ _)) conn.nextAckExpiry conn.immediateAck

theorem connCommitTxAck_quiet (conn : Conn) : Quiet conn (connCommitTxAck conn) := by
  have hsorted : conn.acktr.Sorted → (connCommitTxAck conn).acktr.Sorted := id
  exact .ackState conn hsorted 0 false

theorem connAckSent_quiet (conn : Conn) (pktNum : Nat) (ackfr : AckFrame) (unprotected : Bool) :
    Quiet conn (connAckSent conn pktNum ackfr unprotected) := by
  have hsorted : conn.acktr.Sorted → (connAckSent conn pktNum ackfr unprotected).acktr.Sorted := id
  exact .ackState conn hsorted 0 false

theorem ppeEncodeFrame_ok {ppe ppe' : Ppe} {fr : Frame} (h : ppeEncodeFrame ppe fr = .ok ppe') :
    ∃ len, frameLen fr = some len ∧ len ≤ ppeLeft ppe ∧
      ppe' = { ppe with len := ppe.len + len, frames := ppe.frames ++ [fr] } := by
  unfold ppeEncodeFrame at h
  split at h
  · simp at h
  split at h
  · simp at h
  · next len hlen =>
    split at h
    · simp at h
    · next hfits => exact ⟨len, hlen, Nat.le_of_not_lt hfits, (Except.ok.inj h).symm⟩

theorem ppeEncodeFrame_error {ppe : Ppe} {fr : Frame} {e : Err}
    (h : ppeEncodeFrame ppe fr = .error e) :
    e = .noBuf ∨ e = .abort := by
  unfold ppeEncodeFrame at h
  split at h
  · exact .inl (Except.error.inj h).symm
  split at h
  · exact .inr (Except.error.inj h).symm
  split at h
  · exact .inl (Except.error.inj h).symm
  · simp at h

/-- `conn_ppe_write_frame` appends the frame, or has no room and changes nothing, or fails hard. -/
theorem connPpeWriteFrame_cases {conn conn' : Conn} {ppe : Ppe} {fr : Frame} {r : Except Err Ppe}
    (h : connPpeWriteFrame conn ppe fr = (r, conn')) :
    Quiet conn conn' ∧ ((r = .error .noBuf ∧ conn' = conn ∧ ppeEncodeFrame ppe fr = .error .noBuf) ∨
      (∃ e, r = .error e ∧ hard e) ∨
      ∃ ppe', r = .ok { ppe' with sendPktCbCalled := true } ∧
      ppeEncodeFrame ppe fr = .ok ppe') := by
  unfold connPpeWriteFrame at h
  split at h
  · next e he =>
    obtain ⟨rfl, rfl⟩ := Prod.mk.inj h
    rcases ppeEncodeFrame_error he with rfl | rfl
    · exact ⟨.refl _, .inl ⟨rfl, rfl, he⟩⟩
    · exact ⟨.refl _, .inr (.inl ⟨_, rfl, .inr rfl⟩)⟩
  · next ppe' hppe =>
    have hfirst : ∀ {r₁ : Except Err Unit} {conn₁ : Conn},
        (if ppe'.sendPktCbCalled then (.ok (), conn) else connCallSendPkt conn ppe'.hd) =
        (r₁, conn₁) →
        Quiet conn conn₁ ∧ ∀ e, r₁ = .error e → e = .callbackFailure := by
      intro r₁ conn₁ h₁
      split at h₁
      · obtain ⟨rfl, rfl⟩ := Prod.mk.inj h₁
        exact ⟨.refl _, by simp⟩
      · exact connCall_quiet rfl h₁
    rcases andThen_cases h with ⟨e, h₁, rfl⟩ | ⟨_, conn₁, h₁, h⟩
    · obtain ⟨hq, he⟩ := hfirst h₁
      exact ⟨hq, .inr (.inl ⟨e, rfl, .inl (he e rfl)⟩)⟩
    obtain ⟨hq₁, _⟩ := hfirst h₁
    rcases andThen_cases h with ⟨e, h₂, rfl⟩ | ⟨_, conn₂, h₂, h⟩
    · obtain ⟨hq, he⟩ := connCall_quiet rfl h₂
      exact ⟨hq₁.trans hq, .inr (.inl ⟨e, rfl, .inl (he e rfl)⟩)⟩
    obtain ⟨hq₂, _⟩ := connCall_quiet rfl h₂
    obtain ⟨rfl, rfl⟩ := Prod.mk.inj h
    exact ⟨hq₁.trans hq₂, .inr (.inr ⟨ppe', rfl, hppe⟩)⟩

theorem ppeFinal_error {conn conn' : Conn} {ppe : Ppe} {e : Err}
    (h : ppeFinal conn ppe = (.error e, conn')) :
    hard e := by
  unfold ppeFinal at h
  split at h
  · obtain ⟨he, -⟩ := Prod.mk.inj h
    exact .inr (Except.error.inj he).symm
  · rcases andThen_cases h with ⟨e', h₁, he⟩ | ⟨_, conn₁, h₁, h⟩
    · obtain rfl := Except.error.inj he
      exact .inl ((connCall_quiet rfl h₁).2 e rfl)
    · simp at h

/-- The packet, and that it was encrypted. -/
theorem ppeFinal_ok {conn conn' : Conn} {ppe : Ppe} {pkt : Pkt}
    (h : ppeFinal conn ppe = (.ok pkt, conn')) :
    Logs [ppe.hd] conn conn' ∧
      ∃ ckm, ppe.ckm = some ckm ∧ pkt = ⟨ppe.hd, ppe.frames, ppe.len + ppe.aeadOverhead, ckm⟩ := by
  unfold ppeFinal at h
  split at h
  · simp at h
  · next ckm hckm =>
    obtain ⟨_, conn₁, h₁, h⟩ := andThen_eq_ok h
    obtain ⟨hpkt, rfl⟩ := Prod.mk.inj h
    exact ⟨(connCall_quiet rfl h₁).1, ckm, hckm, (Except.ok.inj hpkt).symm⟩

/-- What a loop that fills a packet from the chain `frc` leaves behind. `gone` are the frames it
cancelled. -/
structure Fills (cancel : Frame → Bool) (frc : List Frame) (ppe : Ppe) (w : Written)
    (gone : List Frame) :
    Prop where
  perm : frc.Perm (w.done ++ w.rest ++ gone)
  sublist : (w.done ++ w.rest).Sublist frc
  cancelled : ∀ fr ∈ gone, cancel fr = true
  frames : w.ppe.frames = ppe.frames ++ w.done
  hd : w.ppe.hd = ppe.hd
  ckm : w.ppe.ckm = ppe.ckm
  full : w.full = false ↔ w.rest = []

theorem Fills.nil (cancel : Frame → Bool) (ppe : Ppe) :
    Fills cancel [] ppe ⟨ppe, [], [], false⟩ [] :=
  ⟨.refl _, by simp, by simp, by simp, rfl, rfl, by simp⟩

theorem Fills.stop (cancel : Frame → Bool) (ppe : Ppe) (fr : Frame) (frc : List Frame) :
    Fills cancel (fr :: frc) ppe ⟨ppe, [], fr :: frc, true⟩ [] :=
  ⟨by simp, by simp, by simp, by simp, rfl, rfl, by simp⟩

section
variable {cancel : Frame → Bool} {fr : Frame} {frc : List Frame} {ppe : Ppe} {w : Written} {gone : List Frame}
  {conn conn' : Conn}

theorem Fills.skip (h : Fills cancel frc ppe w gone) (hc : cancel fr = true) :
    Fills cancel (fr :: frc) ppe w (fr :: gone) := by
  refine ⟨?_, h.sublist.cons fr, fun fr' hfr' => ?_, h.frames, h.hd, h.ckm, h.full⟩
  · exact (h.perm.cons fr).trans List.perm_middle.symm
  · rcases List.mem_cons.mp hfr' with rfl | hfr'
    · exact hc
    · exact h.cancelled fr' hfr'

theorem Fills.write {ppe' : Ppe} (h : Fills cancel frc { ppe' with sendPktCbCalled := true } w gone)
    (henc : ppeEncodeFrame ppe fr = .ok ppe') :
    Fills cancel (fr :: frc) ppe { w with done := fr :: w.done } gone := by
  obtain ⟨len, _, _, rfl⟩ := ppeEncodeFrame_ok henc
  refine ⟨h.perm.cons fr, h.sublist.cons_cons fr, h.cancelled, ?_, h.hd, h.ckm, h.full⟩
  rw [h.frames]
  simp

/-- Where nothing was cancelled the chain is what was written and what is left. -/
theorem Fills.eq (h : Fills cancel frc ppe w []) : w.done ++ w.rest = frc := by
  refine h.sublist.eq_of_length ?_
  rw [h.perm.length_eq, List.append_nil]

/-- One turn that writes a frame. -/
theorem writeFrame_cases {r : Except Err Written} {next : Ppe → Conn → Result Written}
    (h : writeFrame fr frc ppe conn next = (r, conn')) :
    (Quiet conn conn' ∧ ∃ e, r = .error e ∧ hard e) ∨
      (conn' = conn ∧ r = .ok ⟨ppe, [], fr :: frc, true⟩) ∨
      ∃ ppe' conn₁, Quiet conn conn₁ ∧ ppeEncodeFrame ppe fr = .ok ppe' ∧
        ((next { ppe' with sendPktCbCalled := true } conn₁).andThen fun w conn =>
          (.ok { w with done := fr :: w.done }, conn)) = (r, conn') := by
  unfold writeFrame at h
  split at h
  · next conn₁ hw =>
    obtain ⟨rfl, rfl⟩ := Prod.mk.inj h
    obtain ⟨hq, hcases⟩ := connPpeWriteFrame_cases hw
    rcases hcases with ⟨_, hconn, _⟩ | ⟨e, he, hhard⟩ | ⟨ppe', he, _⟩
    · exact .inr (.inl ⟨hconn, rfl⟩)
    · exact absurd (Except.error.inj he).symm hhard.ne_noBuf
    · simp at he
  · next e conn₁ hne hw =>
    obtain ⟨rfl, rfl⟩ := Prod.mk.inj h
    obtain ⟨hq, hcases⟩ := connPpeWriteFrame_cases hw
    rcases hcases with ⟨he, _, _⟩ | ⟨e', he, hhard⟩ | ⟨ppe', he, _⟩
    · exact absurd (Except.error.inj he) hne
    · obtain rfl := Except.error.inj he
      exact .inl ⟨hq, e, rfl, hhard⟩
    · simp at he
  · next ppe₁ conn₁ hw =>
    obtain ⟨hq, hcases⟩ := connPpeWriteFrame_cases hw
    rcases hcases with ⟨he, _, _⟩ | ⟨e', he, _⟩ | ⟨ppe', he, henc⟩
    · simp at he
    · simp at he
    · obtain rfl := Except.ok.inj he
      exact .inr (.inr ⟨ppe', conn₁, hq, henc, h⟩)

theorem writeFrames_cases {r : Except Err Written}
    (h : writeFrames cancel frc ppe conn = (r, conn')) :
    Quiet conn conn' ∧ ((∃ e, r = .error e ∧ hard e) ∨ ∃ w gone,
    r = .ok w ∧ Fills cancel frc ppe w gone) := by
  induction frc generalizing ppe conn r conn' with
  | nil =>
    obtain ⟨rfl, rfl⟩ := Prod.mk.inj h
    exact ⟨.refl _, .inr ⟨_, [], rfl, .nil cancel ppe⟩⟩
  | cons fr frc ih =>
    simp only [writeFrames] at h
    split at h
    · next hc =>
      obtain ⟨hq, he | ⟨w, gone, rfl, hf⟩⟩ := ih h
      · exact ⟨hq, .inl he⟩
      · exact ⟨hq, .inr ⟨w, fr :: gone, rfl, hf.skip hc⟩⟩
    rcases writeFrame_cases h with ⟨hq, he⟩ | ⟨rfl, rfl⟩ | ⟨ppe', conn₁, hq₁, henc, h⟩
    · exact ⟨hq, .inl he⟩
    · exact ⟨.refl _, .inr ⟨_, [], rfl, .stop cancel ppe fr frc⟩⟩
    rcases andThen_cases h with ⟨e, h₁, rfl⟩ | ⟨w, conn₂, h₁, h⟩
    · obtain ⟨hq, ⟨e', he, hhard⟩ | ⟨w, gone, he, _⟩⟩ := ih h₁
      · obtain rfl := Except.error.inj he
        exact ⟨hq₁.trans hq, .inl ⟨e, rfl, hhard⟩⟩
      · simp at he
    · obtain ⟨hq, ⟨e', he, _⟩ | ⟨w', gone, he, hf⟩⟩ := ih h₁
      · simp at he
      · obtain rfl := Except.ok.inj he
        obtain ⟨rfl, rfl⟩ := Prod.mk.inj h
        exact ⟨hq₁.trans hq, .inr ⟨_, gone, rfl, hf.write henc⟩⟩

/-- Where no frame was written the application was told nothing. -/
theorem writeFrame_same {next : Ppe → Conn → Result Written}
    (h : writeFrame fr frc ppe conn next = (.ok w, conn')) (hdone : w.done = []) :
    conn' = conn := by
  rcases writeFrame_cases h with ⟨-, e, he, -⟩ | ⟨rfl, -⟩ | ⟨ppe', conn₁, -, -, h⟩
  · simp at he
  · rfl
  · obtain ⟨w', conn₂, -, h⟩ := andThen_eq_ok h
    obtain ⟨hw, -⟩ := Prod.mk.inj h
    obtain rfl := Except.ok.inj hw
    simp at hdone

theorem writeFrames_same (h : writeFrames cancel frc ppe conn = (.ok w, conn'))
    (hdone : w.done = []) :
    conn' = conn := by
  induction frc with
  | nil => exact (Prod.mk.inj h).2.symm
  | cons fr frc ih =>
    simp only [writeFrames] at h
    split at h
    · exact ih h
    · exact writeFrame_same h hdone

end

/-- A frame that `conn_retransmit_protected` deletes. -/
def retransmitDrops (conn : Conn) (fr : Frame) : Bool :=
    retransmitCancelled conn fr || stopSendingCancelled conn fr

theorem retransmitFrames_cases {lookup conn conn' : Conn} {frc : List Frame} {ppe : Ppe}
    {r : Except Err Written}
    (h : retransmitFrames lookup frc ppe conn = (r, conn')) :
    Quiet conn conn' ∧ ((∃ e, r = .error e ∧ hard e) ∨
      ∃ w gone, r = .ok w ∧ Fills (retransmitDrops lookup) frc ppe w gone) := by
  obtain ⟨n, hn⟩ : ∃ n, frc.length ≤ n := ⟨_, Nat.le_refl _⟩
  induction n generalizing frc ppe conn r conn' with
  | zero =>
    obtain rfl := List.length_eq_zero_iff.mp (Nat.le_zero.mp hn)
    obtain ⟨rfl, rfl⟩ := Prod.mk.inj h
    exact ⟨.refl _, .inr ⟨_, [], rfl, .nil _ ppe⟩⟩
  | succ n ih =>
    -- One frame is written, and the loop goes on behind it.
    have hwrite : ∀ {fr : Frame} {frc : List Frame}, frc.length ≤ n →
        writeFrame fr frc ppe conn (retransmitFrames lookup frc) = (r, conn') →
        Quiet conn conn' ∧ ((∃ e, r = .error e ∧ hard e) ∨
          ∃ w gone, r = .ok w ∧ Fills (retransmitDrops lookup) (fr :: frc) ppe w gone) := by
      intro fr frc hlen h
      rcases writeFrame_cases h with ⟨hq, he⟩ | ⟨rfl, rfl⟩ | ⟨ppe', conn₁, hq₁, henc, h⟩
      · exact ⟨hq, .inl he⟩
      · exact ⟨.refl _, .inr ⟨_, [], rfl, .stop _ ppe fr frc⟩⟩
      rcases andThen_cases h with ⟨e, h₁, rfl⟩ | ⟨w, conn₂, h₁, h⟩
      · obtain ⟨hq, ⟨e', he, hhard⟩ | ⟨w, gone, he, _⟩⟩ := ih h₁ hlen
        · obtain rfl := Except.error.inj he
          exact ⟨hq₁.trans hq, .inl ⟨e, rfl, hhard⟩⟩
        · simp at he
      · obtain ⟨hq, ⟨e', he, _⟩ | ⟨w', gone, he, hf⟩⟩ := ih h₁ hlen
        · simp at he
        · obtain rfl := Except.ok.inj he
          obtain ⟨rfl, rfl⟩ := Prod.mk.inj h
          exact ⟨hq₁.trans hq, .inr ⟨_, gone, rfl, hf.write henc⟩⟩
    cases frc with
    | nil =>
      obtain ⟨rfl, rfl⟩ := Prod.mk.inj h
      exact ⟨.refl _, .inr ⟨_, [], rfl, .nil _ ppe⟩⟩
    | cons fr frc =>
      have hlen : frc.length ≤ n := Nat.le_of_succ_le_succ hn
      unfold retransmitFrames at h
      split at h
      · next hc =>
        obtain ⟨hq, he | ⟨w, gone, rfl, hf⟩⟩ := ih h hlen
        · exact ⟨hq, .inl he⟩
        · exact ⟨hq, .inr ⟨w, fr :: gone, rfl, hf.skip (by simp [retransmitDrops, hc])⟩⟩
      split at h
      · next hc =>
        split at h
        · obtain ⟨rfl, rfl⟩ := Prod.mk.inj h
          exact ⟨.refl _, .inl ⟨_, rfl, .inr rfl⟩⟩
        · next fr' frc' =>
          obtain ⟨hq, he | ⟨w, gone, rfl, hf⟩⟩ := hwrite (by simp at hlen; omega) h
          · exact ⟨hq, .inl he⟩
          · exact ⟨hq, .inr ⟨w, fr :: gone, rfl, hf.skip (by simp [retransmitDrops, hc])⟩⟩
      · exact hwrite hlen h

theorem retransmitFrames_same {lookup conn conn' : Conn} {frc : List Frame} {ppe : Ppe}
    {w : Written}
    (h : retransmitFrames lookup frc ppe conn = (.ok w, conn')) (hdone : w.done = []) :
    conn' = conn := by
  induction frc with
  | nil => exact (Prod.mk.inj h).2.symm
  | cons fr frc ih =>
    unfold retransmitFrames at h
    split at h
    · exact ih h
    split at h
    · split at h
      · simp at h
      · exact writeFrame_same h hdone
    · exact writeFrame_same h hdone

end Ngtcp2
