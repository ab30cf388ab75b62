import Polygon.RetransmitSpec
import Polygon.ConnWrite

/-!
# What writing a packet does

The outcomes of the packet writers: which frames they take from where, and in which
entry the frames of an emitted packet are kept.
-/
namespace Ngtcp2

/-- The entry of a packet that was sent for the first time. -/
def Fresh (ent : RtbEntry) : Prop :=
  ∃ ts, ent.expiry = ts + initialExpiry ∧ ent.deadline = ts + pktDeadlinePeriod ∧ ent.count = 0

/-- A packet goes out under the next number. Its frames `frc` are kept in a new entry. -/
inductive Sends (conn : Conn) (unprotected : Bool) (frc : List Frame) (pkt : Pkt) (conn' : Conn) :
    Prop where
  | untracked (nil : frc = []) (num : pkt.hd.pktNum = conn.nextPktNum)
      (frames : ∀ fr ∈ pkt.frames, fr.untracked = true)
      (logs : Logs [pkt.hd] conn.incLastTxPktNum conn')
  | tracked (ent : RtbEntry) (frc_eq : ent.frc = frc) (addr : ent.addr = conn.nextAddr)
      (flag : ent.unprotected = unprotected) (fresh : Fresh ent)
      (num : pkt.hd.pktNum = conn.nextPktNum)
      (form : pkt.hd.longForm = unprotected) (known : retransmittable pkt.hd = true)
      (tracks : Tracks ent pkt)
      (logs : Logs [pkt.hd] (conn.addEntry fun _ => ent).incLastTxPktNum conn')

/-- Apart from `frc` there are only ACK and PADDING frames in the packet under construction. -/
def PpeCarries (ppe : Ppe) (frc : List Frame) : Prop :=
  ∃ pre post, ppe.frames = pre ++ frc ++ post ∧ ∀ fr ∈ pre ++ post, fr.untracked = true

section
variable {conn conn₁ conn' : Conn} {ppe : Ppe} {pkt : Pkt} {frc : List Frame} {ts : Nat} {unprotected : Bool}

theorem Sends.of_quiet (hq : Quiet conn conn₁) (h : Sends conn₁ unprotected frc pkt conn') :
    Sends conn unprotected frc pkt conn' := by
  obtain ⟨evs, a, n, i, hn, hs, rfl⟩ := hq
  cases h with
  | untracked nil num frames logs =>
    exact .untracked nil num frames (.trans ⟨evs, a, n, i, hn, hs, rfl⟩ logs)
  | tracked ent frc_eq addr flag fresh num form known tracks logs =>
    exact .tracked ent frc_eq addr flag fresh num form known tracks
      (.trans ⟨evs, a, n, i, hn, hs, rfl⟩ logs)

theorem sendTracked_cases {r : Except Err Pkt} (hnum : ppe.hd.pktNum = conn.nextPktNum)
    (hform : ppe.hd.longForm = unprotected) (hknown : retransmittable ppe.hd = true)
    (hcarries : PpeCarries ppe frc) (h : sendTracked conn ppe frc ts unprotected = (r, conn')) :
    Fatal r ∨ ∃ pkt, r = .ok pkt ∧ Sends conn unprotected frc pkt conn' := by
  obtain ⟨pre, post, hframes, hun⟩ := hcarries
  unfold sendTracked at h
  rcases andThen_cases h with ⟨e, hfin, rfl⟩ | ⟨pkt, conn₁, hfin, h⟩
  · exact .inl (ppeFinal_error hfin).fatal_error
  obtain ⟨⟨evs, a, n, i, hn, hs, rfl⟩, ckm, -, rfl⟩ := ppeFinal_ok hfin
  obtain ⟨rfl, rfl⟩ := Prod.mk.inj h
  refine .inr ⟨_, rfl, ?_⟩
  split
  · next hnil =>
    subst hnil
    exact .untracked rfl hnum (by simpa [hframes] using hun) ⟨evs, a, n, i, hn, hs, rfl⟩
  · next hne =>
    exact .tracked _ rfl rfl rfl ⟨ts, rfl, rfl, rfl⟩ hnum hform hknown ⟨rfl,
      ⟨pre, post, hframes, hun⟩, hne⟩ ⟨evs, a, n, i, hn, hs, rfl⟩

end

/-! ## Handshake packets -/

/-- The bytes that stream 0 gives to a handshake packet, and the frame that carries them. -/
inductive HsAdvance (conn : Conn) : List Frame → Conn → Prop where
  | none : HsAdvance conn [] conn
  | some (strm0 : Strm) (n : Nat) (find : conn.strms 0 = some strm0) (pos : 0 < n)
      (le : n ≤ strm0.txBuf.length) :
    HsAdvance conn [.stream ⟨0, strm0.txOffset, strm0.txBuf.take n, false⟩]
      (conn.setStrm ((strm0.setTxBuf (strm0.txBuf.drop n)).setTxOffset (strm0.txOffset + n)))

/-- What `connWriteHandshakePkt` does, short of a fatal error. -/
inductive HsWritten (conn : Conn) : Except Err Pkt → Conn → Prop where
  | noBuf {frc : List Frame} {conn₁ conn' : Conn} (adv : HsAdvance conn frc conn₁)
      (quiet : Quiet conn₁ conn') :
    HsWritten conn (.error .noBuf) conn'
  | sent {frc close : List Frame} {conn₁ conn' : Conn} {pkt : Pkt} (adv : HsAdvance conn frc conn₁)
      (close_eq : close = [] ∨ close = [.connectionClose tlsHandshakeFailed []])
      (sends : Sends conn₁ true (frc ++ close) pkt conn') : HsWritten conn (.ok pkt) conn'

theorem HsAdvance.quiet {conn conn₁ conn' : Conn} {frc : List Frame} (hq : Quiet conn conn₁)
    (h : HsAdvance conn₁ frc conn') : ∃ conn₂, HsAdvance conn frc conn₂ ∧ Quiet conn₂ conn' := by
  obtain ⟨evs, a, n, i, hn, hs, rfl⟩ := hq
  cases h with
  | none => exact ⟨conn, .none, evs, a, n, i, hn, hs, rfl⟩
  | some strm0 k find pos le => exact ⟨_, .some strm0 k find pos le, evs, a, n, i, hn, hs, rfl⟩

/-- A handshake packet built on a quietly changed connection. -/
theorem HsWritten.of_quiet {conn conn₁ conn' : Conn} {r : Except Err Pkt} (hq : Quiet conn conn₁)
    (h : HsWritten conn₁ r conn') : HsWritten conn r conn' := by
  cases h with
  | noBuf adv quiet =>
    obtain ⟨conn₂, adv', hq'⟩ := adv.quiet hq
    exact .noBuf adv' (hq'.trans quiet)
  | sent adv close_eq sends =>
    obtain ⟨conn₂, adv', hq'⟩ := adv.quiet hq
    exact .sent adv' close_eq (sends.of_quiet hq')

section
variable {conn conn' : Conn} {ppe : Ppe} {destlen ts : Nat}

theorem connCallSendPkt_quiet {hd : PktHd} {r : Except Err Unit}
    (h : connCallSendPkt conn hd = (r, conn')) :
    Quiet conn conn' ∧ ∀ e, r = .error e → e = .callbackFailure := connCall_quiet rfl h

theorem connCallSendFrame_quiet {hd : PktHd} {fr : Frame} {r : Except Err Unit}
    (h : connCallSendFrame conn hd fr = (r, conn')) :
    Quiet conn conn' ∧ ∀ e, r = .error e → e = .callbackFailure := connCall_quiet rfl h

theorem handshakeAck_cases {r : Except Err Ppe} (h : handshakeAck conn ppe ts = (r, conn')) :
    Quiet conn conn' ∧ (Fatal r ∨ r = .error .noBuf ∨ ∃ ppe' post, r = .ok ppe' ∧ ppe'.hd = ppe.hd ∧
      ppe'.frames = ppe.frames ++ post ∧ ∀ fr ∈ post, fr.untracked = true) := by
  unfold handshakeAck at h
  have hq := connCreateAckFrame_quiet conn ts true
  generalize connCreateAckFrame conn ts true = res at h hq
  obtain ⟨ackfr, conn₁⟩ := res
  cases ackfr with
  | none =>
    obtain ⟨rfl, rfl⟩ := Prod.mk.inj h
    exact ⟨hq, .inr (.inr ⟨ppe, [], rfl, rfl, by simp, by simp⟩)⟩
  | some ackfr =>
    dsimp only at h hq
    split at h
    · next e he =>
      obtain ⟨rfl, rfl⟩ := Prod.mk.inj h
      rcases ppeEncodeFrame_error he with rfl | rfl
      · exact ⟨hq, .inr (.inl rfl)⟩
      · exact ⟨hq, .inl ⟨_, rfl, rfl⟩⟩
    · next ppe' henc =>
      obtain ⟨len, -, -, rfl⟩ := ppeEncodeFrame_ok henc
      rcases andThen_cases h with ⟨e, h₁, rfl⟩ | ⟨_, conn₂, h₁, h⟩
      · obtain ⟨hq₂, he⟩ := connCallSendFrame_quiet h₁
        obtain rfl := he e rfl
        exact ⟨hq.trans hq₂, .inl ⟨_, rfl, rfl⟩⟩
      · obtain ⟨hq₂, -⟩ := connCallSendFrame_quiet h₁
        obtain ⟨rfl, rfl⟩ := Prod.mk.inj h
        exact ⟨(hq.trans hq₂).trans (connAckSent_quiet ..),
          .inr (.inr ⟨_, [.ack ackfr], rfl, rfl, rfl,
          by simp [Frame.untracked]⟩)⟩

theorem handshakeStream_cases {r : Except Err (Ppe × List Frame)}
    (h : handshakeStream conn ppe = (r, conn')) :
    Fatal r ∨ (r = .error .noBuf ∧ Quiet conn conn') ∨ ∃ ppe' frc conn₁, r = .ok (ppe', frc) ∧
      HsAdvance conn frc conn₁ ∧ Quiet conn₁ conn' ∧ ppe'.hd = ppe.hd ∧
      ppe'.frames = ppe.frames ++ frc := by
  unfold handshakeStream at h
  split at h
  · obtain ⟨rfl, rfl⟩ := Prod.mk.inj h
    exact .inl ⟨_, rfl, rfl⟩
  next strm0 hfind =>
  dsimp only at h
  split at h
  · obtain ⟨rfl, rfl⟩ := Prod.mk.inj h
    exact .inr (.inl ⟨rfl, .refl _⟩)
  split at h
  · obtain ⟨rfl, rfl⟩ := Prod.mk.inj h
    exact .inr (.inr ⟨ppe, [], conn, rfl, .none, .refl _, rfl, by simp⟩)
  next hpos =>
  split at h
  · next e he =>
    obtain ⟨rfl, rfl⟩ := Prod.mk.inj h
    rcases ppeEncodeFrame_error he with rfl | rfl
    · exact .inr (.inl ⟨rfl, .refl _⟩)
    · exact .inl ⟨_, rfl, rfl⟩
  next ppe' henc =>
  obtain ⟨len, -, -, rfl⟩ := ppeEncodeFrame_ok henc
  rcases andThen_cases h with ⟨e, h₁, rfl⟩ | ⟨_, conn₁, h₁, h⟩
  · obtain ⟨-, he⟩ := connCallSendFrame_quiet h₁
    obtain rfl := he e rfl
    exact .inl ⟨_, rfl, rfl⟩
  · obtain ⟨⟨evs, a, n, i, hn, hs, rfl⟩, -⟩ := connCallSendFrame_quiet h₁
    obtain ⟨rfl, rfl⟩ := Prod.mk.inj h
    exact .inr (.inr ⟨_, _, _, rfl,
      .some strm0 _ hfind (Nat.pos_of_ne_zero hpos) (Nat.min_le_left ..),
      ⟨evs, a, n, i, hn, hs, rfl⟩, rfl, rfl⟩)

/-- `frc` is followed by PADDING, by a CONNECTION_CLOSE frame, or by nothing. -/
theorem handshakeTail_cases {frc pre : List Frame} {r : Except Err (Ppe × List Frame)}
    (hframes : ppe.frames = pre ++ frc) (hun : ∀ fr ∈ pre, fr.untracked = true)
    (h : handshakeTail conn ppe frc = (r, conn')) :
    Quiet conn conn' ∧ (Fatal r ∨ r = .error .noBuf ∨ ∃ ppe' close, r = .ok (ppe', frc ++ close) ∧
      ppe'.hd = ppe.hd ∧ (close = [] ∨ close = [.connectionClose tlsHandshakeFailed []]) ∧
      PpeCarries ppe' (frc ++ close)) := by
  have hpadded : PpeCarries (ppePadding ppe) (frc ++ []) := by
    refine ⟨pre, [.padding (ppeLeft ppe)], by simp [ppePadding, hframes], fun fr hfr => ?_⟩
    rcases List.mem_append.mp hfr with hfr | hfr
    · exact hun fr hfr
    · obtain rfl := List.mem_singleton.mp hfr
      rfl
  unfold handshakeTail at h
  split at h
  · split at h
    · rcases andThen_cases h with ⟨e, h₁, rfl⟩ | ⟨_, conn₁, h₁, h⟩
      · obtain ⟨hq, he⟩ := connCallSendFrame_quiet h₁
        obtain rfl := he e rfl
        exact ⟨hq, .inl ⟨_, rfl, rfl⟩⟩
      · obtain ⟨hq, -⟩ := connCallSendFrame_quiet h₁
        obtain ⟨rfl, rfl⟩ := Prod.mk.inj h
        exact ⟨hq, .inr (.inr ⟨ppePadding ppe, [], by simp, rfl, .inl rfl, hpadded⟩)⟩
    · obtain ⟨rfl, rfl⟩ := Prod.mk.inj h
      exact ⟨.refl _, .inr (.inr ⟨ppePadding ppe, [], by simp, rfl, .inl rfl, hpadded⟩)⟩
  split at h
  · dsimp only at h
    split at h
    · next e he =>
      obtain ⟨rfl, rfl⟩ := Prod.mk.inj h
      rcases ppeEncodeFrame_error he with rfl | rfl
      · exact ⟨.refl _, .inr (.inl rfl)⟩
      · exact ⟨.refl _, .inl ⟨_, rfl, rfl⟩⟩
    next ppe' henc =>
    obtain ⟨len, -, -, rfl⟩ := ppeEncodeFrame_ok henc
    rcases andThen_cases h with ⟨e, h₁, rfl⟩ | ⟨_, conn₁, h₁, h⟩
    · obtain ⟨hq, he⟩ := connCallSendFrame_quiet h₁
      obtain rfl := he e rfl
      exact ⟨hq, .inl ⟨_, rfl, rfl⟩⟩
    · obtain ⟨hq, -⟩ := connCallSendFrame_quiet h₁
      obtain ⟨rfl, rfl⟩ := Prod.mk.inj h
      exact ⟨hq, .inr (.inr ⟨_, _, rfl, rfl, .inr rfl, pre, [], by simp [hframes], by simpa using hun⟩)⟩
  · obtain ⟨rfl, rfl⟩ := Prod.mk.inj h
    exact ⟨.refl _, .inr (.inr ⟨ppe, [], by simp, rfl, .inl rfl, pre, [], by simp [hframes], by simpa using hun⟩)⟩

theorem connWriteHandshakePkt_cases {type : PktType} {r : Except Err Pkt}
    (htype : type = .initial ∨ type = .handshake)
    (h : connWriteHandshakePkt conn destlen type ts = (r, conn')) :
    Fatal r ∨ HsWritten conn r conn' := by
  unfold connWriteHandshakePkt at h
  dsimp only at h
  split at h
  · next e he =>
    obtain ⟨rfl, rfl⟩ := Prod.mk.inj h
    obtain rfl := encodable.error_eq (show encodable (conn.longHd type) from .inl rfl) he
    exact .inr (.noBuf .none (.refl _))
  next ppe hppe =>
  obtain ⟨hhd, hnil, -⟩ := ppeEncodeHd_ok hppe
  have hnum : ppe.hd.pktNum = conn.nextPktNum := by rw [hhd]; rfl
  have hform : ppe.hd.longForm = true := by rw [hhd]; rfl
  have hknown : retransmittable ppe.hd = true := by
    rw [hhd]
    rcases htype with rfl | rfl <;> rfl
  rcases andThen_cases h with ⟨e, h₁, rfl⟩ | ⟨_, conn₁, h₁, h⟩
  · obtain ⟨-, he⟩ := connCallSendPkt_quiet h₁
    obtain rfl := he e rfl
    exact .inl ⟨_, rfl, rfl⟩
  obtain ⟨hq₁, -⟩ := connCallSendPkt_quiet h₁
  rcases andThen_cases h with ⟨e, h₂, rfl⟩ | ⟨ppe₁, conn₂, h₂, h⟩
  · split at h₂
    · obtain ⟨hq₂, ⟨e', he, hfatal⟩ | he | ⟨_, _, he, -⟩⟩ := handshakeAck_cases h₂
      · obtain rfl := Except.error.inj he
        exact .inl ⟨e, rfl, hfatal⟩
      · obtain rfl := Except.error.inj he
        exact .inr (.noBuf .none (hq₁.trans hq₂))
      · simp at he
    · simp at h₂
  -- The packet holds an ACK frame at most.
  obtain ⟨hq₂, pre, hhd₁, hframes₁, hun⟩ :
    Quiet conn₁ conn₂ ∧ ∃ pre, ppe₁.hd = ppe.hd ∧ ppe₁.frames = pre ∧
      ∀ fr ∈ pre, fr.untracked = true := by
    split at h₂
    · obtain ⟨hq₂, ⟨e', he, -⟩ | he | ⟨ppe', post, he, hhd', hframes, hun⟩⟩ := handshakeAck_cases h₂
      · simp at he
      · simp at he
      · obtain rfl := Except.ok.inj he
        exact ⟨hq₂, post, hhd', by rw [hframes, hnil, List.nil_append], hun⟩
    · obtain ⟨he, rfl⟩ := Prod.mk.inj h₂
      obtain rfl := Except.ok.inj he
      exact ⟨.refl _, [], rfl, hnil, by simp⟩
  have hq := hq₁.trans hq₂
  split at h
  · cases r with
    | error e => exact .inl (ppeFinal_error h).fatal_error
    | ok pkt =>
      obtain ⟨hq₃, ckm, -, rfl⟩ := ppeFinal_ok h
      refine .inr (.sent .none (.inl rfl) (.untracked rfl ?_ ?_ (hq.incLastTxPktNum.trans hq₃)))
      · rw [← hnum, ← hhd₁]
      · rw [← hframes₁] at hun
        exact hun
  rcases andThen_cases h with ⟨e, h₃, rfl⟩ | ⟨⟨ppe₂, frc⟩, conn₃, h₃, h⟩
  · rcases handshakeStream_cases h₃ with ⟨e', he, hfatal⟩ | ⟨he, hq₃⟩ | ⟨_, _, _, he, -⟩
    · obtain rfl := Except.error.inj he
      exact .inl ⟨e, rfl, hfatal⟩
    · obtain rfl := Except.error.inj he
      exact .inr (.noBuf .none (hq.trans hq₃))
    · simp at he
  rcases handshakeStream_cases h₃ with ⟨e', he, -⟩ | ⟨he, -⟩
      | ⟨ppe', frc', conn₃', he, hadv, hq₃, hhd₂, hframes₂⟩
  · simp at he
  · simp at he
  obtain ⟨rfl, rfl⟩ := Prod.mk.inj (Except.ok.inj he)
  obtain ⟨conn₄, hadv, hq₄⟩ := hadv.quiet hq
  have hq₅ := hq₄.trans hq₃
  rw [hframes₁] at hframes₂
  rcases andThen_cases h with ⟨e, h₄, rfl⟩ | ⟨⟨ppe₃, frc'⟩, conn₅, h₄, h⟩
  · obtain ⟨hq₆, ⟨e', he, hfatal⟩ | he | ⟨_, _, he, -⟩⟩ := handshakeTail_cases hframes₂ hun h₄
    · obtain rfl := Except.error.inj he
      exact .inl ⟨e, rfl, hfatal⟩
    · obtain rfl := Except.error.inj he
      exact .inr (.noBuf hadv (hq₅.trans hq₆))
    · simp at he
  obtain ⟨hq₆, ⟨e', he, -⟩ | he | ⟨ppe', close, he, hhd₃, hclose, hcarries⟩⟩ :=
    handshakeTail_cases hframes₂ hun h₄
  · simp at he
  · simp at he
  obtain ⟨rfl, rfl⟩ := Prod.mk.inj (Except.ok.inj he)
  have hnum₅ : ppe₃.hd.pktNum = conn₅.nextPktNum := by
    rw [hhd₃, hhd₂, hhd₁, hnum]
    obtain ⟨_, _, _, _, _, _, rfl⟩ := hq₅.trans hq₆
    cases hadv <;> rfl
  have hhd₅ : ppe₃.hd = ppe.hd := hhd₃.trans (hhd₂.trans hhd₁)
  rcases sendTracked_cases hnum₅ (hhd₅ ▸ hform) (hhd₅ ▸ hknown) hcarries h with hfatal
      | ⟨pkt, rfl, hsends⟩
  · exact .inl hfatal
  · exact .inr (.sent hadv hclose (hsends.of_quiet (hq₅.trans hq₆)))

/-- What writing a packet with at most an ACK frame does, short of a fatal error. -/
inductive AckWritten (conn : Conn) : Except Err (Option Pkt) → Conn → Prop where
  | nothing {conn' : Conn} (quiet : Quiet conn conn') : AckWritten conn (.ok none) conn'
  | noBuf {conn' : Conn} (quiet : Quiet conn conn') : AckWritten conn (.error .noBuf) conn'
  | sent {conn' : Conn} {pkt : Pkt} {unprotected : Bool}
      (sends : Sends conn unprotected [] pkt conn') :
    AckWritten conn (.ok (some pkt)) conn'

theorem connWriteHandshakeAckPkt_cases {type : PktType} {r : Except Err (Option Pkt)}
    (h : connWriteHandshakeAckPkt conn destlen type ts = (r, conn')) :
    Fatal r ∨ AckWritten conn r conn' := by
  unfold connWriteHandshakeAckPkt at h
  split at h
  · obtain ⟨rfl, rfl⟩ := Prod.mk.inj h
    exact .inr (.nothing (.refl _))
  have hq := connCreateAckFrame_quiet conn ts true
  generalize connCreateAckFrame conn ts true = res at h hq
  obtain ⟨ackfr, conn₁⟩ := res
  cases ackfr with
  | none =>
    obtain ⟨rfl, rfl⟩ := Prod.mk.inj h
    exact .inr (.nothing hq)
  | some ackfr =>
  dsimp only at h hq
  split at h
  · next e he =>
    obtain ⟨rfl, rfl⟩ := Prod.mk.inj h
    obtain rfl := encodable.error_eq (show encodable (conn₁.longHd type) from .inl rfl) he
    exact .inr (.noBuf hq)
  next ppe hppe =>
  obtain ⟨hhd, hnil, -⟩ := ppeEncodeHd_ok hppe
  rcases andThen_cases h with ⟨e, h₁, rfl⟩ | ⟨_, conn₂, h₁, h⟩
  · obtain ⟨-, he⟩ := connCallSendPkt_quiet h₁
    obtain rfl := he e rfl
    exact .inl ⟨_, rfl, rfl⟩
  have hq₂ := hq.trans (connCallSendPkt_quiet h₁).1
  split at h
  · next e he =>
    obtain ⟨rfl, rfl⟩ := Prod.mk.inj h
    rcases ppeEncodeFrame_error he with rfl | rfl
    · exact .inr (.noBuf hq₂)
    · exact .inl ⟨_, rfl, rfl⟩
  next ppe' henc =>
  obtain ⟨len, -, -, rfl⟩ := ppeEncodeFrame_ok henc
  rcases andThen_cases h with ⟨e, h₂, rfl⟩ | ⟨_, conn₃, h₂, h⟩
  · obtain ⟨-, he⟩ := connCallSendFrame_quiet h₂
    obtain rfl := he e rfl
    exact .inl ⟨_, rfl, rfl⟩
  have hq₃ := (hq₂.trans (connCallSendFrame_quiet h₂).1).trans
    (connAckSent_quiet conn₃ ppe.hd.pktNum ackfr true)
  rcases andThen_cases h with ⟨e, h₃, rfl⟩ | ⟨pkt, conn₄, h₃, h⟩
  · exact .inl (ppeFinal_error h₃).fatal_error
  obtain ⟨hq₄, ckm, -, rfl⟩ := ppeFinal_ok h₃
  obtain ⟨rfl, rfl⟩ := Prod.mk.inj h
  refine .inr (.sent (show Sends conn true [] _ _ from .untracked rfl ?_ ?_ (hq₃.incLastTxPktNum.trans hq₄)))
  · obtain ⟨_, _, _, _, _, _, rfl⟩ := hq
    rw [hhd]
    rfl
  · rw [hnil]
    simp [Frame.untracked]

end

/-! ## Protected packets -/

/-- The connection after the two MAX_STREAM_ID credits were used, or not. -/
def Conn.setMaxRemoteStreamIds (conn : Conn) (bidi uni : Nat) : Conn :=
  { conn with
    bidi := { conn.bidi with maxRemoteStreamId := bidi }
    uni := { conn.uni with maxRemoteStreamId := uni } }

/-- The credit for new streams is the old one, or the new one and told by one of the frames. -/
def IdsAnnounced (ids : StreamIds) (maxRemoteStreamId : Nat) (frs : List Frame) : Prop :=
  maxRemoteStreamId = ids.maxRemoteStreamId ∨ (ids.maxRemoteStreamId < ids.unsentMaxRemoteStreamId ∧
    maxRemoteStreamId = ids.unsentMaxRemoteStreamId ∧
      .maxStreamId ids.unsentMaxRemoteStreamId ∈ frs)

theorem IdsAnnounced.mono {ids : StreamIds} {n : Nat} {frs frs' : List Frame}
    (h : IdsAnnounced ids n frs)
    (hsub : frs ⊆ frs') : IdsAnnounced ids n frs' :=
  h.imp_right fun ⟨hlt, hn, hmem⟩ => ⟨hlt, hn, hsub hmem⟩

/-- What filling a packet from the queue leaves: the frames that are neither written nor left were
cancelled, and the new ones announce stream IDs. -/
structure FrqWritten (conn : Conn) (ppe : Ppe) (w : Written) (new cancelled : List Frame)
    (conn' : Conn) :
    Prop where
  perm : (w.done ++ w.rest ++ cancelled).Perm (conn.frq ++ new)
  created : ∀ fr ∈ new, ∃ n, fr = .maxStreamId n
  cancelled : ∀ fr ∈ cancelled, frqCancelled conn fr = true
  frames : w.ppe.frames = ppe.frames ++ w.done
  hd : w.ppe.hd = ppe.hd
  state : ∃ bidi uni, IdsAnnounced conn.bidi bidi new ∧ IdsAnnounced conn.uni uni new ∧
    Quiet (conn.setMaxRemoteStreamIds bidi uni) conn'

section
variable {conn conn' : Conn} {ppe : Ppe} {destlen ts : Nat}

theorem writeAckFrame_cases {ackfr : Option AckFrame} {r : Except Err Ppe}
    (h : writeAckFrame conn ppe ackfr = (r, conn')) :
    Quiet conn conn' ∧ (Fatal r ∨ r = .error .noBuf ∨ ∃ ppe' post, r = .ok ppe' ∧ ppe'.hd = ppe.hd ∧
      ppe'.frames = ppe.frames ++ post ∧ ∀ fr ∈ post, fr.untracked = true) := by
  unfold writeAckFrame at h
  cases ackfr with
  | none =>
    obtain ⟨rfl, rfl⟩ := Prod.mk.inj h
    exact ⟨.refl _, .inr (.inr ⟨ppe, [], rfl, rfl, by simp, by simp⟩)⟩
  | some ackfr =>
    rcases andThen_cases h with ⟨e, h₁, rfl⟩ | ⟨ppe₁, conn₁, h₁, h⟩
    · obtain ⟨hq, ⟨he, -, -⟩ | he | ⟨_, he, -⟩⟩ := connPpeWriteFrame_cases h₁
      · obtain rfl := Except.error.inj he
        exact ⟨hq, .inr (.inl rfl)⟩
      · obtain ⟨e', he, hhard⟩ := he
        obtain rfl := Except.error.inj he
        exact ⟨hq, .inl ⟨e, rfl, hhard.fatal⟩⟩
      · simp at he
    · obtain ⟨hq, ⟨he, -, -⟩ | ⟨e', he, -⟩ | ⟨ppe', he, henc⟩⟩ := connPpeWriteFrame_cases h₁
      · simp at he
      · simp at he
      obtain rfl := Except.ok.inj he
      obtain ⟨len, -, -, rfl⟩ := ppeEncodeFrame_ok henc
      obtain ⟨rfl, rfl⟩ := Prod.mk.inj h
      exact ⟨hq.trans (connAckSent_quiet ..), .inr (.inr ⟨_, [.ack ackfr], rfl, rfl, rfl,
        by simp [Frame.untracked]⟩)⟩

theorem writeFrq_cases {r : Except Err Written} (h : writeFrq conn ppe = (r, conn')) :
    Fatal r ∨ ∃ w cancelled, r = .ok w ∧ Quiet conn conn' ∧
      Fills (frqCancelled conn) conn.frq ppe w cancelled := by
  unfold writeFrq at h
  split at h
  · obtain ⟨rfl, rfl⟩ := Prod.mk.inj h
    exact .inl ⟨_, rfl, rfl⟩
  · next w conn₁ hw =>
    obtain ⟨rfl, rfl⟩ := Prod.mk.inj h
    obtain ⟨hq, ⟨e, he, -⟩ | ⟨w', cancelled, he, hf⟩⟩ := writeFrames_cases hw
    · simp at he
    · obtain rfl := Except.ok.inj he
      exact .inr ⟨w, cancelled, rfl, hq, hf⟩

/-- A MAX_STREAM_ID frame is written, or queued, or not wanted. -/
theorem writeMaxStreamId_cases {bidi : Bool} {w : Written} {r : Except Err Written}
    (h : writeMaxStreamId conn bidi w = (r, conn')) :
    Fatal r ∨ (r = .ok w ∧ conn' = conn) ∨ ∃ w', r = .ok w' ∧ w.rest = [] ∧
      (conn.ids bidi).maxRemoteStreamId < (conn.ids bidi).unsentMaxRemoteStreamId ∧
      Quiet (conn.setIds bidi { conn.ids bidi with
        maxRemoteStreamId := (conn.ids bidi).unsentMaxRemoteStreamId }) conn' ∧
      w'.done ++ w'.rest = w.done ++ [.maxStreamId (conn.ids bidi).unsentMaxRemoteStreamId] ∧
      w'.ppe.hd = w.ppe.hd ∧
      ∀ frames, w.ppe.frames = frames ++ w.done → w'.ppe.frames = frames ++ w'.done := by
  unfold writeMaxStreamId at h
  dsimp only at h
  split at h
  · next hc =>
    simp only [Bool.and_eq_true, List.isEmpty_iff, decide_eq_true_eq] at hc
    split at h
    · next conn₁ hw =>
      obtain ⟨rfl, rfl⟩ := Prod.mk.inj h
      exact .inr (.inr ⟨_, rfl, hc.1.2, hc.2, (connPpeWriteFrame_cases hw).1, rfl, rfl,
        fun _ h => h⟩)
    · obtain ⟨rfl, rfl⟩ := Prod.mk.inj h
      exact .inl ⟨_, rfl, rfl⟩
    · next ppe' conn₁ hw =>
      obtain ⟨rfl, rfl⟩ := Prod.mk.inj h
      obtain ⟨hq, ⟨he, -, -⟩ | ⟨e', he, -⟩ | ⟨ppe'', he, henc⟩⟩ := connPpeWriteFrame_cases hw
      · simp at he
      · simp at he
      obtain rfl := Except.ok.inj he
      obtain ⟨len, -, -, rfl⟩ := ppeEncodeFrame_ok henc
      refine .inr (.inr ⟨_, rfl, hc.1.2, hc.2, hq, by simp [hc.1.2], rfl, fun frames hframes => ?_⟩)
      simp [hframes]
  · obtain ⟨rfl, rfl⟩ := Prod.mk.inj h
    exact .inr (.inl ⟨rfl, rfl⟩)

theorem FrqWritten.maxStreamId {w : Written} {created cancelled : List Frame} {conn₁ : Conn}
    {bidi : Bool}
    {r : Except Err Written} (hf : FrqWritten conn ppe w created cancelled conn₁)
    (h : writeMaxStreamId conn₁ bidi w = (r, conn')) :
    Fatal r ∨ ∃ w' created', r = .ok w' ∧ FrqWritten conn ppe w' created' cancelled conn' := by
  rcases writeMaxStreamId_cases h with hfatal | ⟨rfl, rfl⟩
      | ⟨w', rfl, hrest, hlt, hq, happ, hhd, hframes⟩
  · exact .inl hfatal
  · exact .inr ⟨w, created, rfl, hf⟩
  refine .inr ⟨w', created ++ [.maxStreamId (conn₁.ids bidi).unsentMaxRemoteStreamId], rfl, ?_, ?_,
    hf.cancelled,
    hframes _ hf.frames, hhd.trans hf.hd, ?_⟩
  · have hperm := hf.perm
    rw [hrest, List.append_nil] at hperm
    rw [happ, List.append_assoc, ← List.append_assoc conn.frq]
    refine ((List.perm_append_comm.append_left w.done).trans ?_)
    rw [← List.append_assoc]
    exact hperm.append_right _
  · intro fr hfr
    rcases List.mem_append.mp hfr with hfr | hfr
    · exact hf.created fr hfr
    · exact ⟨_, List.mem_singleton.mp hfr⟩
  · obtain ⟨b, u, hb, hu, evs, a, k, i, hn, hs, rfl⟩ := hf.state
    have hlast := List.mem_append_right created (List.mem_singleton_self (Frame.maxStreamId
      ((conn.setMaxRemoteStreamIds b u).ids bidi).unsentMaxRemoteStreamId))
    have hsub := List.subset_append_left created [Frame.maxStreamId
      ((conn.setMaxRemoteStreamIds b u).ids bidi).unsentMaxRemoteStreamId]
    cases bidi with
    | true =>
      have hlt : b < conn.bidi.unsentMaxRemoteStreamId := hlt
      have hold : b = conn.bidi.maxRemoteStreamId :=
        hb.resolve_right fun ⟨_, heq, _⟩ => Nat.ne_of_lt hlt heq
      exact ⟨_, u, .inr ⟨hold ▸ hlt, rfl, hlast⟩, hu.mono hsub,
        .trans ⟨evs, a, k, i, hn, hs, rfl⟩ hq⟩
    | false =>
      have hlt : u < conn.uni.unsentMaxRemoteStreamId := hlt
      have hold : u = conn.uni.maxRemoteStreamId :=
        hu.resolve_right fun ⟨_, heq, _⟩ => Nat.ne_of_lt hlt heq
      exact ⟨b, _, hb.mono hsub, .inr ⟨hold ▸ hlt, rfl, hlast⟩,
        .trans ⟨evs, a, k, i, hn, hs, rfl⟩ hq⟩

theorem writePktFrames_cases {r : Except Err Written} (h : writePktFrames conn ppe = (r, conn')) :
    Fatal r ∨ ∃ w created cancelled, r = .ok w ∧ FrqWritten conn ppe w created cancelled conn' := by
  unfold writePktFrames at h
  rcases andThen_cases h with ⟨e, h₁, rfl⟩ | ⟨w₁, conn₁, h₁, h⟩
  · rcases writeFrq_cases h₁ with ⟨e', he, hfatal⟩ | ⟨_, _, he, -⟩
    · obtain rfl := Except.error.inj he
      exact .inl ⟨e, rfl, hfatal⟩
    · simp at he
  rcases writeFrq_cases h₁ with ⟨e', he, -⟩ | ⟨w, cancelled, he, hq, hf⟩
  · simp at he
  obtain rfl := Except.ok.inj he
  have hbase : FrqWritten conn ppe w₁ [] cancelled conn₁ := by
    refine ⟨by simpa using hf.perm.symm, by simp, hf.cancelled, hf.frames, hf.hd, _, _, .inl rfl, .inl rfl, ?_⟩
    exact hq
  rcases andThen_cases h with ⟨e, h₂, rfl⟩ | ⟨w₂, conn₂, h₂, h⟩
  · rcases hbase.maxStreamId h₂ with ⟨e', he, hfatal⟩ | ⟨_, _, he, -⟩
    · obtain rfl := Except.error.inj he
      exact .inl ⟨e, rfl, hfatal⟩
    · simp at he
  rcases hbase.maxStreamId h₂ with ⟨e', he, -⟩ | ⟨w', created, he, hbidi⟩
  · simp at he
  obtain rfl := Except.ok.inj he
  rcases hbidi.maxStreamId h with hfatal | ⟨w'', created', rfl, huni⟩
  · exact .inl hfatal
  · exact .inr ⟨w'', created', cancelled, rfl, huni⟩

/-- Queueing MAX_STREAM_DATA and MAX_DATA frames touches neither entries nor numbers. -/
theorem queueMaxStreamData_state {ids : List Nat} (h : queueMaxStreamData ids conn = some conn') :
    ∃ frq strms fcStrms, conn' = { conn with frq, strms, fcStrms } := by
  induction ids generalizing conn with
  | nil =>
    obtain rfl := Option.some.inj h
    exact ⟨_, _, _, rfl⟩
  | cons id ids ih =>
    rw [queueMaxStreamData] at h
    split at h
    · cases h
    split at h
    · obtain ⟨frq, strms, fcStrms, rfl⟩ := ih h
      exact ⟨frq, strms, fcStrms, rfl⟩
    · cases h

theorem queueMaxData_state (conn : Conn) (ackfr : Option AckFrame) :
    ∃ frq maxRxOffset, queueMaxData conn ackfr = { conn with frq, maxRxOffset } := by
  unfold queueMaxData
  split
  · exact ⟨_, _, rfl⟩
  · exact ⟨_, _, rfl⟩

/-- What `connWritePkt` does once the frames that announce credit are queued, short of a fatal
error. -/
inductive PktWritten (conn : Conn) : Except Err (Option Pkt) → Conn → Prop where
  | nothing : PktWritten conn (.ok none) conn
  | noBuf {conn' : Conn} (quiet : Quiet conn conn') : PktWritten conn (.error .noBuf) conn'
  | empty {ppe : Ppe} {w : Written} {created cancelled : List Frame} {conn₁ : Conn}
      {r : Except Err (Option Pkt)}
      (filled : FrqWritten conn ppe w created cancelled conn₁)
      (result : r = .ok none ∨ r = .error .noBuf) :
    PktWritten conn r (conn₁.setFrq (w.done ++ w.rest))
  | sent {ppe : Ppe} {w : Written} {created cancelled : List Frame} {conn₁ conn' : Conn} {pkt : Pkt}
      (filled : FrqWritten conn ppe w created cancelled conn₁)
      (sends : Sends (conn₁.setFrq w.rest) false w.done pkt conn') :
        PktWritten conn (.ok (some pkt)) conn'

theorem connWritePkt_cases {r : Except Err (Option Pkt)}
    (h : connWritePkt conn destlen ts = (r, conn')) :
    Fatal r ∨ ∃ conn₁ ackfr conn₂, Quiet conn conn₁ ∧
      queueMaxStreamData (queueMaxData conn₁ ackfr).fcStrms (queueMaxData conn₁ ackfr) =
      some conn₂ ∧
      PktWritten conn₂ r conn' := by
  unfold connWritePkt at h
  have hq : Quiet conn (if connNextAckExpired conn ts then connCreateAckFrame conn ts false else (none, conn)).2 := by
    split
    · exact connCreateAckFrame_quiet conn ts false
    · exact .refl _
  dsimp only at h
  generalize (if connNextAckExpired conn ts then connCreateAckFrame conn ts false else (none,
    conn)) = res at h hq
  obtain ⟨ackfr, conn₁⟩ := res
  dsimp only at h hq
  split at h
  · obtain ⟨rfl, rfl⟩ := Prod.mk.inj h
    exact .inl ⟨_, rfl, rfl⟩
  next conn₂ hqueue =>
  split at h
  · obtain ⟨rfl, rfl⟩ := Prod.mk.inj h
    exact .inr ⟨conn₁, ackfr, conn₂, hq, hqueue, .nothing⟩
  split at h
  · next e he =>
    obtain ⟨rfl, rfl⟩ := Prod.mk.inj h
    have henc : encodable conn₂.shortHd := .inr (connSelectPktType_short conn₂ conn₂.nextPktNum)
    obtain rfl := henc.error_eq he
    exact .inr ⟨conn₁, ackfr, conn₂, hq, hqueue, .noBuf (.refl _)⟩
  next ppe hppe =>
  obtain ⟨hhd, hnil, -⟩ := ppeEncodeHd_ok hppe
  rcases andThen_cases h with ⟨e, h₃, rfl⟩ | ⟨ppe₁, conn₃, h₃, h⟩
  · obtain ⟨hq₃, ⟨e', he, hfatal⟩ | he | ⟨_, _, he, -⟩⟩ := writeAckFrame_cases h₃
    · obtain rfl := Except.error.inj he
      exact .inl ⟨e, rfl, hfatal⟩
    · obtain rfl := Except.error.inj he
      exact .inr ⟨conn₁, ackfr, conn₂, hq, hqueue, .noBuf hq₃⟩
    · simp at he
  obtain ⟨hq₃, ⟨e', he, -⟩ | he | ⟨ppe', post, he, hhd₁, hframes₁, hun⟩⟩ := writeAckFrame_cases h₃
  · simp at he
  · simp at he
  obtain rfl := Except.ok.inj he
  rcases andThen_cases h with ⟨e, h₄, rfl⟩ | ⟨w, conn₄, h₄, h⟩
  · rcases writePktFrames_cases h₄ with ⟨e', he, hfatal⟩ | ⟨_, _, _, he, -⟩
    · obtain rfl := Except.error.inj he
      exact .inl ⟨e, rfl, hfatal⟩
    · simp at he
  rcases writePktFrames_cases h₄ with ⟨e', he, -⟩ | ⟨w', created, cancelled, he, hf⟩
  · simp at he
  obtain rfl := Except.ok.inj he
  have hf' : FrqWritten conn₂ ppe₁ w created cancelled conn₄ := by
    obtain ⟨evs, a, n, i, hn, hs, rfl⟩ := hq₃
    obtain ⟨b, u, hb, hu, hq₄⟩ := hf.state
    exact ⟨hf.perm, hf.created, hf.cancelled, hf.frames, hf.hd, b, u, hb, hu,
      .trans ⟨evs, a, n, i, hn, hs, rfl⟩ hq₄⟩
  split at h
  · next hempty =>
    obtain ⟨rfl, rfl⟩ := Prod.mk.inj h
    refine .inr ⟨conn₁, ackfr, conn₂, hq, hqueue, .empty hf' ?_⟩
    split
    · exact .inr rfl
    · exact .inl rfl
  rcases andThen_cases h with ⟨e, h₅, rfl⟩ | ⟨pkt, conn₅, h₅, h⟩
  · exact .inl (ppeFinal_error h₅).fatal_error
  obtain ⟨⟨evs, a, n, i, hn, hs, rfl⟩, ckm, -, rfl⟩ := ppeFinal_ok h₅
  obtain ⟨rfl, rfl⟩ := Prod.mk.inj h
  refine .inr ⟨conn₁, ackfr, conn₂, hq, hqueue, .sent hf' ?_⟩
  have hframes : w.ppe.frames = post ++ w.done ++ [] := by
    rw [hf.frames, hframes₁, hnil, List.nil_append, List.append_nil]
  have hwhd : w.ppe.hd = conn₂.shortHd := by rw [hf'.hd, hhd₁, hhd]
  have hknown : retransmittable w.ppe.hd = true := by
    rw [hwhd]
    exact retransmittable_short rfl (connSelectPktType_short conn₂ conn₂.nextPktNum)
  have hnum : w.ppe.hd.pktNum = conn₄.nextPktNum := by
    rw [hwhd]
    obtain ⟨b, u, -, -, _, _, _, _, _, _, rfl⟩ := hf'.state
    rfl
  split
  · next hdone =>
    rw [hdone, List.append_nil, List.append_nil] at hframes
    refine .untracked hdone hnum (by simpa [hframes] using hun) ?_
    rw [hdone, List.nil_append]
    exact ⟨evs, a, n, i, hn, hs, rfl⟩
  · next hdone =>
    have hform : w.ppe.hd.longForm = false := by rw [hwhd]; rfl
    exact .tracked _ rfl rfl rfl ⟨ts, rfl, rfl, rfl⟩ hnum hform hknown ⟨rfl,
      ⟨post, [], hframes, by simpa using hun⟩, hdone⟩
      ⟨evs, a, n, i, hn, hs, rfl⟩

end

/-! ## Packets with one frame -/

section
variable {conn conn' : Conn} {destlen ts : Nat}

/-- A packet with one frame, which no entry keeps. -/
theorem connWriteSingleFramePkt_cases {fr : Frame} {r : Except Err Pkt}
    (h : connWriteSingleFramePkt conn destlen fr = (r, conn')) :
    Fatal r ∨ (r = .error .noBuf ∧ Quiet conn conn') ∨
      ∃ pkt, r = .ok pkt ∧ pkt.hd = conn.shortHd ∧ pkt.frames = [fr] ∧
      Logs [pkt.hd] conn.incLastTxPktNum conn' := by
  unfold connWriteSingleFramePkt at h
  split at h
  · next e he =>
    obtain ⟨rfl, rfl⟩ := Prod.mk.inj h
    have henc : encodable conn.shortHd := .inr (connSelectPktType_short conn conn.nextPktNum)
    obtain rfl := henc.error_eq he
    exact .inr (.inl ⟨rfl, .refl _⟩)
  next ppe hppe =>
  obtain ⟨hhd, hnil, -⟩ := ppeEncodeHd_ok hppe
  rcases andThen_cases h with ⟨e, h₁, rfl⟩ | ⟨_, conn₁, h₁, h⟩
  · obtain ⟨-, he⟩ := connCallSendPkt_quiet h₁
    obtain rfl := he e rfl
    exact .inl ⟨_, rfl, rfl⟩
  obtain ⟨hq₁, -⟩ := connCallSendPkt_quiet h₁
  split at h
  · next e he =>
    obtain ⟨rfl, rfl⟩ := Prod.mk.inj h
    rcases ppeEncodeFrame_error he with rfl | rfl
    · exact .inr (.inl ⟨rfl, hq₁⟩)
    · exact .inl ⟨_, rfl, rfl⟩
  next ppe' henc =>
  obtain ⟨len, -, -, rfl⟩ := ppeEncodeFrame_ok henc
  rcases andThen_cases h with ⟨e, h₂, rfl⟩ | ⟨_, conn₂, h₂, h⟩
  · obtain ⟨-, he⟩ := connCallSendFrame_quiet h₂
    obtain rfl := he e rfl
    exact .inl ⟨_, rfl, rfl⟩
  obtain ⟨hq₂, -⟩ := connCallSendFrame_quiet h₂
  rcases andThen_cases h with ⟨e, h₃, rfl⟩ | ⟨pkt, conn₃, h₃, h⟩
  · exact .inl (ppeFinal_error h₃).fatal_error
  obtain ⟨hlogs, ckm, -, rfl⟩ := ppeFinal_ok h₃
  obtain ⟨rfl, rfl⟩ := Prod.mk.inj h
  refine .inr (.inr ⟨_, rfl, hhd, by simp [hnil], ?_⟩)
  obtain ⟨evs, a, n, i, hn, hs, rfl⟩ := (hq₁.trans hq₂).trans hlogs
  split <;>
  · refine ⟨evs, _, n, i, hn, ?_, rfl⟩
    exact hs

theorem connWriteProtectedAckPkt_cases {r : Except Err (Option Pkt)}
    (h : connWriteProtectedAckPkt conn destlen ts = (r, conn')) :
    Fatal r ∨ AckWritten conn r conn' := by
  unfold connWriteProtectedAckPkt at h
  split at h
  · obtain ⟨rfl, rfl⟩ := Prod.mk.inj h
    exact .inr (.nothing (.refl _))
  have hq := connCreateAckFrame_quiet conn ts false
  generalize connCreateAckFrame conn ts false = res at h hq
  obtain ⟨ackfr, conn₁⟩ := res
  cases ackfr with
  | none =>
    obtain ⟨rfl, rfl⟩ := Prod.mk.inj h
    exact .inr (.nothing hq)
  | some ackfr =>
  dsimp only at h hq
  rcases andThen_cases h with ⟨e, h₁, rfl⟩ | ⟨pkt, conn₂, h₁, h⟩
  · rcases connWriteSingleFramePkt_cases h₁ with hfatal | ⟨he, hq₁⟩ | ⟨_, he, -⟩
    · exact .inl hfatal.cast
    · obtain rfl := Except.error.inj he
      exact .inr (.noBuf (hq.trans hq₁))
    · simp at he
  rcases connWriteSingleFramePkt_cases h₁ with hfatal | ⟨he, -⟩ | ⟨pkt', he, hhd, hframes, hlogs⟩
  · exact absurd hfatal (not_fatal_ok _)
  · simp at he
  obtain rfl := Except.ok.inj he
  obtain ⟨rfl, rfl⟩ := Prod.mk.inj h
  refine .inr (.sent (show Sends conn false [] _ _ from .untracked rfl ?_ ?_
    (hq.incLastTxPktNum.trans (hlogs.quiet (connCommitTxAck_quiet conn₂)))))
  · rw [hhd]
    obtain ⟨_, _, _, _, _, _, rfl⟩ := hq
    rfl
  · rw [hframes]
    simp [Frame.untracked]

end

/-! ## `ngtcp2_conn_write_pkt` -/

/-- The next handshake packet of a server is its first one. -/
def FirstServerPkt (conn : Conn) : Prop :=
  conn.state = .serverInitial ∨
    (conn.state = .serverTlsHandshakeFailed ∧ ∀ strm0,
      conn.strms 0 = some strm0 → strm0.txOffset = 0)

/-- The transmit buffer of stream 0 and the packet number as a handshake packet finds them. -/
inductive HsPrepared (conn : Conn) : Conn → Prop where
  | buffered (rest : txBuf0Empty conn = false) : HsPrepared conn conn
  | clientInitial {pktNum : Nat} {payload : List UInt8} (state : conn.state = .clientInitial)
      (answer : conn.callbacks.sendClientInitial conn.log = some (pktNum, payload)) :
    HsPrepared conn (if conn.statelessRetry then setTxBuf0 (conn.tell .sendClientInitial) payload
      else (setTxBuf0 (conn.tell .sendClientInitial) payload).setLastTxPktNum (subU64 pktNum 1))
  | clientHandshake {payload : List UInt8} (empty : txBuf0Empty conn = true)
      (answer : conn.callbacks.sendClientHandshake conn.log = some payload) :
    HsPrepared conn (setTxBuf0 (conn.tell .sendClientHandshake) payload)
  | serverHandshake {pktNum : Nat} {payload : List UInt8} (empty : txBuf0Empty conn = true)
      (answer : conn.callbacks.sendServerHandshake conn.log = some (pktNum, payload)) :
    HsPrepared conn (setTxBuf0 (conn.tell .sendServerHandshake) payload)
  | serverInitial {pktNum : Nat} {payload : List UInt8} (empty : txBuf0Empty conn = true)
      (first : FirstServerPkt conn)
      (answer : conn.callbacks.sendServerHandshake conn.log = some (pktNum, payload)) :
    HsPrepared conn (setInitialPktNum (setTxBuf0 (conn.tell .sendServerHandshake) payload) (subU64 pktNum 1))
  | serverRest (rest : txBuf0Empty conn = false) (first : FirstServerPkt conn) :
    HsPrepared conn (setInitialPktNum conn (subU64 0 1))

/-- What a handshake writer does, short of a fatal error. -/
inductive HsCall (conn : Conn) : Except Err (Option Pkt) → Conn → Prop where
  | written {conn₁ conn' : Conn} {r : Except Err Pkt} (prepared : HsPrepared conn conn₁)
      (written : HsWritten conn₁ r conn') : HsCall conn (r.map some) conn'
  | acked {conn' : Conn} {r : Except Err (Option Pkt)} (written : AckWritten conn r conn') :
      HsCall conn r conn'
  | failed {conn' : Conn} (quiet : Quiet conn conn') : HsCall conn (.error .tlsHandshake) conn'

section
variable {conn conn' : Conn} {destlen ts : Nat}

theorem AckWritten.of_quiet {conn₁ : Conn} {r : Except Err (Option Pkt)} (hq : Quiet conn conn₁)
    (h : AckWritten conn₁ r conn') : AckWritten conn r conn' := by
  cases h with
  | nothing quiet => exact .nothing (hq.trans quiet)
  | noBuf quiet => exact .noBuf (hq.trans quiet)
  | sent sends => exact .sent (sends.of_quiet hq)

/-- A value is passed on as an optional one. -/
theorem andThen_some {r : Result Pkt} {x : Except Err (Option Pkt)}
    (h : (r.andThen fun pkt conn => (.ok (some pkt), conn)) = (x, conn')) :
    ∃ y, r = (y, conn') ∧ x = y.map some := by
  rcases andThen_cases h with ⟨e, hr, rfl⟩ | ⟨pkt, conn₁, hr, h⟩
  · exact ⟨.error e, hr, rfl⟩
  · obtain ⟨rfl, rfl⟩ := Prod.mk.inj h
    exact ⟨.ok pkt, hr, rfl⟩

/-- A handshake packet on a prepared connection. -/
theorem HsPrepared.call {conn₁ : Conn} {x : Except Err (Option Pkt)} (hprep : HsPrepared conn conn₁)
    (h : ((connWriteHandshakePkt conn₁ destlen .handshake ts).andThen fun pkt conn => (.ok (some pkt), conn)) = (x, conn')) :
    Fatal x ∨ HsCall conn x conn' := by
  obtain ⟨y, hy, rfl⟩ := andThen_some h
  rcases connWriteHandshakePkt_cases (.inr rfl) hy with ⟨e, rfl, hfatal⟩ | hw
  · exact .inl ⟨e, rfl, hfatal⟩
  · exact .inr (.written hprep hw)

theorem connWriteClientInitial_cases {r : Except Err Pkt} (hstate : conn.state = .clientInitial)
    (h : connWriteClientInitial conn destlen ts = (r, conn')) :
    Fatal r ∨ ∃ conn₁, HsPrepared conn conn₁ ∧ HsWritten conn₁ r conn' := by
  unfold connWriteClientInitial at h
  dsimp only at h
  split at h
  · obtain ⟨rfl, rfl⟩ := Prod.mk.inj h
    exact .inl ⟨_, rfl, rfl⟩
  · obtain ⟨rfl, rfl⟩ := Prod.mk.inj h
    exact .inl ⟨_, rfl, rfl⟩
  · next pktNum payload _ hanswer =>
    rcases connWriteHandshakePkt_cases (.inl rfl) h with hfatal | hw
    · exact .inl hfatal
    · refine .inr ⟨_, .clientInitial hstate hanswer, ?_⟩
      have hretry : (setTxBuf0 (conn.tell .sendClientInitial) payload).statelessRetry =
        conn.statelessRetry := by
        unfold setTxBuf0
        split <;> rfl
      rwa [hretry] at hw

theorem connWriteClientHandshake_cases {r : Except Err (Option Pkt)}
    (h : connWriteClientHandshake conn destlen ts = (r, conn')) :
    Fatal r ∨ HsCall conn r conn' := by
  unfold connWriteClientHandshake at h
  split at h
  · next hempty =>
    have htell : Quiet conn (conn.tell .sendClientHandshake) :=
      (Logs.tell rfl : Logs (encrypted [.sendClientHandshake]) conn _)
    dsimp only at h
    split at h
    · obtain ⟨rfl, rfl⟩ := Prod.mk.inj h
      exact .inl ⟨_, rfl, rfl⟩
    · split at h
      · obtain ⟨rfl, rfl⟩ := Prod.mk.inj h
        exact .inr (.failed htell)
      · exact (connWriteHandshakeAckPkt_cases h).imp_right fun hw => .acked (hw.of_quiet htell)
    · next hanswer => exact HsPrepared.call (.clientHandshake hempty hanswer) h
  · next hrest => exact HsPrepared.call (.buffered (by simpa using hrest)) h

theorem connWriteServerHandshake_cases {initial : Bool} {r : Except Err (Option Pkt)}
    (hfirst : initial = true → FirstServerPkt conn)
    (h : connWriteServerHandshake conn destlen initial ts = (r, conn')) :
    Fatal r ∨ HsCall conn r conn' := by
  unfold connWriteServerHandshake at h
  split at h
  · next hempty =>
    have htell : Quiet conn (conn.tell .sendServerHandshake) :=
      (Logs.tell rfl : Logs (encrypted [.sendServerHandshake]) conn _)
    dsimp only at h
    split at h
    · obtain ⟨rfl, rfl⟩ := Prod.mk.inj h
      exact .inl ⟨_, rfl, rfl⟩
    · split at h
      · obtain ⟨rfl, rfl⟩ := Prod.mk.inj h
        exact .inl ⟨_, rfl, rfl⟩
      split at h
      · obtain ⟨rfl, rfl⟩ := Prod.mk.inj h
        exact .inr (.failed htell)
      · exact (connWriteHandshakeAckPkt_cases h).imp_right fun hw => .acked (hw.of_quiet htell)
    · next hanswer =>
      split at h
      · next hinit => exact HsPrepared.call (.serverInitial hempty (hfirst hinit) hanswer) h
      · exact HsPrepared.call (.serverHandshake hempty hanswer) h
  · next hrest =>
    dsimp only at h
    split at h
    · next hinit => exact HsPrepared.call (.serverRest (by simpa using hrest) (hfirst hinit)) h
    · exact HsPrepared.call (.buffered (by simpa using hrest)) h

/-- How `ngtcp2_conn_write_pkt` goes on when nothing was to be sent again, short of a fatal error. -/
inductive GoesOn (destlen ts : Nat) (conn : Conn) : Except Err (Option Pkt) → Conn → Prop where
  | handshake {conn₁ : Conn} {r : Except Err (Option Pkt)} (call : HsCall conn r conn₁)
      (state : ConnState) :
    GoesOn destlen ts conn r (conn₁.setState state)
  | early {conn₁ conn' : Conn} {r : Except Err (Option Pkt)} (quiet : Quiet conn conn₁)
      (state : conn.state = .clientHandshakeAlmostFinished)
      (call : connRetransmit (connProcessEarlyRtb (conn₁.setState .postHandshake)) destlen ts = (r,
        conn')) :
    GoesOn destlen ts conn r conn'
  | refused {conn₁ : Conn} (quiet : Quiet conn conn₁) :
    GoesOn destlen ts conn (.error .requiredTransportParam) (conn₁.setState .postHandshake)
  | pkt {r : Except Err (Option Pkt)} {conn' : Conn} (state : conn.state = .postHandshake)
      (call : connWritePkt conn destlen ts = (r, conn')) : GoesOn destlen ts conn r conn'
  | idle : GoesOn destlen ts conn (.ok none) conn

theorem ngtcp2ConnWritePkt_cases {r : Except Err (Option Pkt)}
    (h : ngtcp2ConnWritePkt conn destlen ts = (r, conn')) :
    Fatal r ∨ (r = .error .pktNumExhausted ∧ conn' = conn) ∨
      (r ≠ .ok none ∧ connRetransmit conn destlen ts = (r, conn')) ∨
      ∃ conn₁, connRetransmit conn destlen ts = (.ok none, conn₁) ∧
      GoesOn destlen ts conn₁ r conn' := by
  unfold ngtcp2ConnWritePkt at h
  split at h
  · obtain ⟨rfl, rfl⟩ := Prod.mk.inj h
    exact .inr (.inl ⟨rfl, rfl⟩)
  rcases andThen_cases h with ⟨e, hr, rfl⟩ | ⟨pkt, conn₁, hr, h⟩
  · exact .inr (.inr (.inl ⟨by simp, hr⟩))
  cases pkt with
  | some pkt =>
    obtain ⟨rfl, rfl⟩ := Prod.mk.inj h
    exact .inr (.inr (.inl ⟨by simp, hr⟩))
  | none =>
  -- A handshake call that does not change the state afterwards.
  have hcall : ∀ {r : Except Err (Option Pkt)} {conn' : Conn}, Fatal r ∨ HsCall conn₁ r conn' →
      Fatal r ∨ GoesOn destlen ts conn₁ r conn' := fun hc =>
    hc.imp_right fun hc => .handshake hc _
  suffices Fatal r ∨ GoesOn destlen ts conn₁ r conn' from
    this.imp_right fun hgoes => .inr (.inr ⟨conn₁, hr, hgoes⟩)
  dsimp only at h
  cases hstate : conn₁.state <;> simp only [hstate] at h
  case clientInitial =>
    unfold andSetState at h
    rcases andThen_cases h with ⟨e, hw, rfl⟩ | ⟨pkt, conn₂, hw, h⟩
    · rcases connWriteClientInitial_cases hstate hw with ⟨e', he, hfatal⟩ | ⟨conn₂, hprep, hwritten⟩
      · obtain rfl := Except.error.inj he
        exact .inl ⟨e, rfl, hfatal⟩
      · exact hcall (.inr (.written hprep hwritten))
    · obtain ⟨rfl, rfl⟩ := Prod.mk.inj h
      rcases connWriteClientInitial_cases hstate hw with ⟨e', he, -⟩ | ⟨conn₃, hprep, hwritten⟩
      · simp at he
      · exact .inr (.handshake (.written hprep hwritten) _)
  case clientWaitHandshake => exact hcall (connWriteClientHandshake_cases h)
  case clientTlsHandshakeFailed => exact hcall (connWriteClientHandshake_cases h)
  case clientHandshakeAlmostFinished =>
    rcases andThen_cases h with ⟨e, hw, rfl⟩ | ⟨pkt, conn₂, hw, h⟩
    · exact hcall (connWriteClientHandshake_cases hw)
    cases pkt with
    | some pkt =>
      obtain ⟨rfl, rfl⟩ := Prod.mk.inj h
      exact hcall (connWriteClientHandshake_cases hw)
    | none =>
    have hq : Quiet conn₁ conn₂ := by
      rcases connWriteClientHandshake_cases hw with ⟨e, he, -⟩ | hc
      · simp at he
      · generalize hx : Except.ok none = x at hc
        cases hc with
        | written prepared written =>
          rename_i r
          cases r <;> simp [Except.map] at hx
        | acked written =>
          cases written with
          | nothing quiet => exact quiet
          | noBuf quiet => simp at hx
          | sent sends => simp at hx
        | failed quiet => simp at hx
    dsimp only at h
    split at h
    · obtain ⟨rfl, rfl⟩ := Prod.mk.inj h
      exact .inr (.refused hq)
    split at h
    · next hnone =>
      obtain ⟨rfl, rfl⟩ := Prod.mk.inj h
      exact .inr (.handshake (.acked (.nothing hq)) _)
    · exact .inr (.early hq hstate h)
  case serverInitial =>
    rcases andThen_cases h with ⟨e, hw, rfl⟩ | ⟨pkt, conn₂, hw, h⟩
    · exact hcall (connWriteServerHandshake_cases (fun _ => .inl hstate) hw)
    · obtain ⟨rfl, rfl⟩ := Prod.mk.inj h
      rcases connWriteServerHandshake_cases (fun _ => .inl hstate) hw with ⟨e, he, -⟩ | hc
      · simp at he
      · exact .inr (.handshake hc _)
  case serverWaitHandshake => exact hcall (connWriteServerHandshake_cases (by simp) h)
  case serverTlsHandshakeFailed =>
    refine hcall (connWriteServerHandshake_cases (fun hinit => .inr ⟨hstate, fun strm0 hfind => ?_⟩) h)
    simpa [hfind] using hinit
  case postHandshake => exact .inr (.pkt hstate h)
  case closing =>
    obtain ⟨rfl, rfl⟩ := Prod.mk.inj h
    exact .inr .idle
  case draining =>
    obtain ⟨rfl, rfl⟩ := Prod.mk.inj h
    exact .inr .idle

/-- How `ngtcp2_conn_write_ack_pkt` goes on when nothing was to be sent again, short of a fatal error. -/
theorem ngtcp2ConnWriteAckPkt_cases {r : Except Err (Option Pkt)}
    (h : ngtcp2ConnWriteAckPkt conn destlen ts = (r, conn')) :
    Fatal r ∨ (r = .error .pktNumExhausted ∧ conn' = conn) ∨
      (r ≠ .ok none ∧ connRetransmit conn destlen ts = (r, conn')) ∨
      ∃ conn₁, connRetransmit conn destlen ts = (.ok none, conn₁) ∧ AckWritten conn₁ r conn' := by
  unfold ngtcp2ConnWriteAckPkt at h
  split at h
  · obtain ⟨rfl, rfl⟩ := Prod.mk.inj h
    exact .inr (.inl ⟨rfl, rfl⟩)
  rcases andThen_cases h with ⟨e, hr, rfl⟩ | ⟨pkt, conn₁, hr, h⟩
  · exact .inr (.inr (.inl ⟨by simp, hr⟩))
  cases pkt with
  | some pkt =>
    obtain ⟨rfl, rfl⟩ := Prod.mk.inj h
    exact .inr (.inr (.inl ⟨by simp, hr⟩))
  | none =>
    suffices Fatal r ∨ AckWritten conn₁ r conn' from this.imp_right fun hw =>
      .inr (.inr ⟨conn₁, hr, hw⟩)
    dsimp only at h
    split at h
    · exact connWriteHandshakeAckPkt_cases h
    · exact connWriteHandshakeAckPkt_cases h
    · exact connWriteHandshakeAckPkt_cases h
    · exact connWriteHandshakeAckPkt_cases h
    · exact connWriteHandshakeAckPkt_cases h
    · exact connWriteProtectedAckPkt_cases h
    · obtain ⟨rfl, rfl⟩ := Prod.mk.inj h
      exact .inr (.nothing (.refl _))

end

/-! ## `ngtcp2_conn_write_stream` -/

/-- What `ngtcp2_conn_write_stream` sends: the frame with the next bytes of the stream, within the
credit of the stream and of the connection. -/
structure StreamSent (conn : Conn) (streamId : Nat) (strm : Strm) (fin : Bool) (data : List UInt8)
    (n : Nat)
    (fr : StreamFrame) (hd : PktHd) : Prop where
  find : conn.strms streamId = some strm
  unshut : strm.shutWr = false
  fr_eq : fr = ⟨streamId, strm.txOffset, data.take n, fin && n == data.length⟩
  strmCredit : n ≤ subU64 strm.maxTxOffset strm.txOffset
  connCredit : n ≤ subU64 conn.maxTxOffset conn.txOffset
  le : n ≤ data.length
  pos : 0 < data.length → 0 < n
  num : hd.pktNum = conn.nextPktNum
  form : hd.type = .zeroRttProtected ∨ (hd.longForm = false ∧ retransmittable hd = true)

section
variable {conn conn' : Conn} {destlen streamId ts : Nat} {fin : Bool} {data : List UInt8}

theorem writeStreamHd_ok {hd : PktHd} {ckm : CryptoKm} (h : writeStreamHd conn = .ok (hd, ckm)) :
    encodable hd ∧ hd.pktNum = conn.nextPktNum ∧
      (hd.type = .zeroRttProtected ∨ (hd.longForm = false ∧ retransmittable hd = true)) := by
  unfold writeStreamHd at h
  have hshort := connSelectPktType_short conn conn.nextPktNum
  split at h
  · obtain ⟨rfl, -⟩ := Prod.mk.inj (Except.ok.inj h)
    exact ⟨.inr hshort, rfl, .inr ⟨rfl, retransmittable_short rfl hshort⟩⟩
  · split at h
    · simp at h
    split at h
    · simp at h
    · obtain ⟨rfl, -⟩ := Prod.mk.inj (Except.ok.inj h)
      exact ⟨.inl rfl, rfl, .inl rfl⟩
  · simp at h

theorem ngtcp2ConnWriteStream_cases {r : Except Err (Pkt × Nat)}
    (h : ngtcp2ConnWriteStream conn destlen streamId fin data ts = (r, conn')) :
    Fatal r ∨ (∃ e, r = .error e ∧ Quiet conn conn') ∨ ∃ pkt n strm fr conn₁, r = .ok (pkt, n) ∧
      StreamSent conn streamId strm fin data n fr pkt.hd ∧ pkt.frames = [.stream fr] ∧
      Logs [pkt.hd] conn conn₁ ∧
      conn' = chargeStream (trackStreamPkt conn₁ pkt.hd fr ts pkt.len) strm fr := by
  have hsame : ∀ {e : Err}, (.error e, conn) = (r, conn') →
    Fatal r ∨ (∃ e, r = .error e ∧ Quiet conn conn') ∨
      ∃ pkt n strm fr conn₁, r = .ok (pkt, n) ∧ StreamSent conn streamId strm fin data n fr pkt.hd ∧
        pkt.frames = [.stream fr] ∧ Logs [pkt.hd] conn conn₁ ∧
        conn' = chargeStream (trackStreamPkt conn₁ pkt.hd fr ts pkt.len) strm fr := by
    intro e he
    obtain ⟨rfl, rfl⟩ := Prod.mk.inj he
    exact .inr (.inl ⟨e, rfl, .refl _⟩)
  unfold ngtcp2ConnWriteStream at h
  split at h
  · exact hsame h
  split at h
  · exact hsame h
  next strm hfind =>
  split at h
  · exact hsame h
  next hunshut =>
  split at h
  · exact hsame h
  next hd ckm hhd =>
  obtain ⟨henc, hnum, hform⟩ := writeStreamHd_ok hhd
  split at h
  · exact hsame h
  next ppe hppe =>
  obtain ⟨hppehd, hnil, -⟩ := ppeEncodeHd_ok hppe
  split at h
  · exact hsame h
  dsimp only at h
  split at h
  · exact hsame h
  next hblocked =>
  have hle : writeStreamLen conn strm (ppeLeft ppe) data.length ≤ data.length ∧
      writeStreamLen conn strm (ppeLeft ppe) data.length ≤ subU64 strm.maxTxOffset strm.txOffset ∧
      writeStreamLen conn strm (ppeLeft ppe) data.length ≤ subU64 conn.maxTxOffset conn.txOffset := by
    unfold writeStreamLen
    generalize subU64 strm.maxTxOffset strm.txOffset = a
    generalize subU64 conn.maxTxOffset conn.txOffset = b
    omega
  generalize writeStreamLen conn strm (ppeLeft ppe) data.length = n at h hle hblocked
  obtain ⟨hlen, hstrm, hconn⟩ := hle
  rcases andThen_cases h with ⟨e, h₁, rfl⟩ | ⟨_, conn₁, h₁, h⟩
  · obtain ⟨-, he⟩ := connCallSendPkt_quiet h₁
    obtain rfl := he e rfl
    exact .inl ⟨_, rfl, rfl⟩
  obtain ⟨hq₁, -⟩ := connCallSendPkt_quiet h₁
  split at h
  · next e he =>
    obtain ⟨rfl, rfl⟩ := Prod.mk.inj h
    exact .inr (.inl ⟨e, rfl, hq₁⟩)
  next ppe' henc =>
  obtain ⟨len, -, -, rfl⟩ := ppeEncodeFrame_ok henc
  rcases andThen_cases h with ⟨e, h₂, rfl⟩ | ⟨_, conn₂, h₂, h⟩
  · obtain ⟨-, he⟩ := connCallSendFrame_quiet h₂
    obtain rfl := he e rfl
    exact .inl ⟨_, rfl, rfl⟩
  obtain ⟨hq₂, -⟩ := connCallSendFrame_quiet h₂
  rcases andThen_cases h with ⟨e, h₃, rfl⟩ | ⟨pkt, conn₃, h₃, h⟩
  · exact .inl (ppeFinal_error h₃).fatal_error
  obtain ⟨hlogs, ckm', -, rfl⟩ := ppeFinal_ok h₃
  obtain ⟨rfl, rfl⟩ := Prod.mk.inj h
  refine .inr (.inr ⟨_, n, strm, ⟨streamId, strm.txOffset, data.take n, fin && n == data.length⟩,
    conn₃, rfl, ?_,
    by simp [hnil], (hq₁.trans hq₂).trans hlogs, ?_⟩)
  · rw [hppehd]
    exact ⟨hfind, by simpa using hunshut, rfl, hstrm, hconn, hlen, fun hpos => Nat.pos_of_ne_zero fun hz =>
      hblocked ⟨hpos, hz⟩, hnum, hform⟩
  · dsimp only
    rw [hppehd]

end

end Ngtcp2
