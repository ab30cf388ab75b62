import Polygon.PacketFrames
import Polygon.RtbInvariant

/-!
# What one retransmission does

The outcomes of the retransmission functions on one lost entry: it is given up, it
goes back for want of room, it goes out whole, or a part of it goes out.
-/
namespace Ngtcp2

/-- ACK and PADDING frames, which are not sent again. -/
def Frame.untracked : Frame → Bool
  | .ack _ | .padding _ => true
  | _ => false

/-- The frames of a packet are `frc`, with only ACK and PADDING frames around them. -/
def Carries (pkt : Pkt) (frc : List Frame) : Prop :=
  ∃ pre post, pkt.frames = pre ++ frc ++ post ∧ ∀ fr ∈ pre ++ post, fr.untracked = true

/-- The result is a fatal error. -/
def Fatal {α : Type} (r : Except Err α) : Prop := ∃ e, r = .error e ∧ e.isFatal = true

theorem Fatal.of_hard {α : Type} {r : Except Err α} (h : ∃ e, r = .error e ∧ hard e) : Fatal r := by
  obtain ⟨e, rfl, he⟩ := h
  exact ⟨e, rfl, he.fatal⟩

theorem hard.fatal_error {α : Type} {e : Err} (h : hard e) : Fatal (.error e : Except Err α) :=
    ⟨e, rfl, h.fatal⟩

theorem not_fatal_ok {α : Type} (a : α) : ¬Fatal (.ok a : Except Err α) := by
  rintro ⟨e, he, -⟩
  simp at he

theorem fatal_abort {α : Type} : Fatal (.error .abort : Except Err α) := ⟨_, rfl, rfl⟩

theorem Fatal.cast {α β : Type} {e : Err} (h : Fatal (.error e : Except Err α)) :
    Fatal (.error e : Except Err β) := by
  obtain ⟨e', he, hfatal⟩ := h
  obtain rfl := Except.error.inj he
  exact ⟨e, rfl, hfatal⟩

theorem ppeEncodeHd_ok {destlen aeadOverhead : Nat} {ckm : Option CryptoKm} {hd : PktHd} {ppe : Ppe}
    (h : ppeEncodeHd destlen aeadOverhead ckm hd = .ok ppe) :
    ppe.hd = hd ∧ ppe.frames = [] ∧ ppe.ckm = ckm := by
  unfold ppeEncodeHd at h
  split at h
  · simp at h
  split at h
  · simp at h
  split at h
  · simp at h
  · obtain rfl := Except.ok.inj h
    exact ⟨rfl, rfl, rfl⟩

theorem ppeEncodeHd_error {destlen aeadOverhead : Nat} {ckm : Option CryptoKm} {hd : PktHd}
    {e : Err}
    (h : ppeEncodeHd destlen aeadOverhead ckm hd = .error e) :
    e = .noBuf ∨ hdLen hd = .error e := by
  unfold ppeEncodeHd at h
  split at h
  · exact .inl (Except.error.inj h).symm
  split at h
  · next heq => exact .inr (Except.error.inj h ▸ heq)
  split at h
  · exact .inl (Except.error.inj h).symm
  · simp at h

/-- Long headers and headers of the short types can be encoded. -/
def encodable (hd : PktHd) : Prop :=
    hd.longForm = true ∨ hd.type = .pkt01 ∨ hd.type = .pkt02 ∨ hd.type = .pkt03

theorem encodable.hdLen_ok {hd : PktHd} (h : encodable hd) (e : Err) : hdLen hd ≠ .error e := by
  unfold hdLen
  split
  · simp
  · next hlong =>
    rcases h.resolve_left hlong with ht | ht | ht <;> simp [ht]

theorem connSelectPktType_short (conn : Conn) (pktNum : Nat) :
    connSelectPktType conn pktNum = .pkt01 ∨ connSelectPktType conn pktNum = .pkt02 ∨
      connSelectPktType conn pktNum = .pkt03 := by
  unfold connSelectPktType
  dsimp only
  split
  · exact .inr (.inr rfl)
  split
  · exact .inr (.inr rfl)
  split
  · exact .inr (.inl rfl)
  · exact .inl rfl

theorem retransmittable_short {hd : PktHd} (hlong : hd.longForm = false)
    (htype : hd.type = .pkt01 ∨ hd.type = .pkt02 ∨ hd.type = .pkt03) :
    retransmittable hd = true := by
  rcases htype with ht | ht | ht <;> simp [retransmittable, hlong, ht]

theorem encodable.error_eq {destlen aeadOverhead : Nat} {ckm : Option CryptoKm} {hd : PktHd}
    {e : Err}
    (hd_ok : encodable hd) (h : ppeEncodeHd destlen aeadOverhead ckm hd = .error e) : e = .noBuf :=
  (ppeEncodeHd_error h).resolve_right (hd_ok.hdLen_ok e)

/-- Why an entry is given up: a packet that protected ones made obsolete, or a chain that is not
needed any more. -/
def GivenUp (conn : Conn) (ent : RtbEntry) : Prop :=
  (ent.hd.longForm = true ∧ conn.recvProtectedPkt = true) ∨
    ∀ fr ∈ ent.frc, retransmitDrops conn fr = true

/-- The packet carries the frames of the entry, which is kept under the packet's header. -/
structure Tracks (ent : RtbEntry) (pkt : Pkt) : Prop where
  hd : ent.hd = pkt.hd
  carries : Carries pkt ent.frc
  nonempty : ent.frc ≠ []

/-- The packet is the next one, in the form of the lost one. -/
structure NextPkt (conn : Conn) (ent : RtbEntry) (pkt : Pkt) : Prop where
  pktNum : pkt.hd.pktNum = conn.nextPktNum
  longForm : pkt.hd.longForm = ent.hd.longForm
  known : retransmittable ent.hd = true → retransmittable pkt.hd = true

/-- A frame that may travel in an unprotected packet. -/
def Frame.handshake : Frame → Bool
  | .stream fr => fr.streamId == 0
  | .connectionClose .. => true
  | _ => false

/-- The packet of the entry has a form that can be sent again, and only an unprotected packet has
a long header. -/
structure EntryOk (ent : RtbEntry) : Prop where
  known : retransmittable ent.hd = true
  unprotected : ent.unprotected = ent.hd.longForm
  handshake : ent.unprotected = true → ∀ fr ∈ ent.frc, fr.handshake = true

/-- The entry of a packet sent again at `ts` waits twice as long, up to the same deadline. -/
structure BackedOff (ts : Nat) (ent ent' : RtbEntry) : Prop where
  expiry : ent'.expiry = ts + initialExpiry * 2 ^ (ent.count + 1)
  count : ent'.count = ent.count + 1
  deadline : ent'.deadline = ent.deadline

/-- What becomes of a lost entry, short of a fatal error: the value, the entry and the
connection that `retransmitEntry` leaves. -/
inductive Resent (ts : Nat) (conn : Conn) (ent : RtbEntry) :
    Except Err (Option Pkt) → RtbEntry → Conn → Prop where
  | nothing {ent' : RtbEntry} (why : GivenUp conn ent) : Resent ts conn ent (.ok none) ent' conn
  | noBuf (rest gone : List Frame) (perm : ent.frc.Perm (rest ++ gone))
      (cancelled : ∀ fr ∈ gone, retransmitDrops conn fr = true) :
    Resent ts conn ent (.error .noBuf) { ent with frc := rest } conn
  | whole {ent' : RtbEntry} {pkt : Pkt} {conn' : Conn} (gone : List Frame)
      (logs : Logs [pkt.hd] conn.incLastTxPktNum conn') (perm : ent.frc.Perm (ent'.frc ++ gone))
      (cancelled : ∀ fr ∈ gone, retransmitDrops conn fr = true) (addr : ent'.addr = ent.addr)
      (flag : ent'.unprotected = ent.unprotected) (backoff : BackedOff ts ent ent')
      (tracks : Tracks ent' pkt) (next : NextPkt conn ent pkt) :
    Resent ts conn ent (.ok (some pkt)) ent' conn'
  | part {pkt : Pkt} {conn' : Conn} (new : RtbEntry) (rest gone : List Frame)
      (logs : Logs [pkt.hd] (conn.addEntry fun _ => new).incLastTxPktNum conn')
      (perm : ent.frc.Perm (new.frc ++ rest ++ gone))
      (cancelled : ∀ fr ∈ gone, retransmitDrops conn fr = true) (addr : new.addr = conn.nextAddr)
      (flag : new.unprotected = ent.hd.longForm) (backoff : BackedOff ts ent new)
      (tracks : Tracks new pkt) (next : NextPkt conn ent pkt) (left : rest ≠ []) :
    Resent ts conn ent (.ok (some pkt)) { ent with frc := rest } conn'

/-- What goes on behind a lost entry keeps its form. -/
theorem EntryOk.of_subset {ent ent' : RtbEntry} (h : EntryOk ent)
    (known : retransmittable ent'.hd = true)
    (longForm : ent'.hd.longForm = ent.hd.longForm) (flag : ent'.unprotected = ent.unprotected)
    (sub : ent'.frc ⊆ ent.frc) : EntryOk ent' := by
  refine ⟨known, ?_, fun hun fr hfr => ?_⟩
  · rw [flag, longForm, h.unprotected]
  · exact h.handshake (flag ▸ hun) fr (sub hfr)

theorem Logs.incLastTxPktNum {conn conn' : Conn} {hds : List PktHd} (h : Logs hds conn conn') :
    Logs hds conn.incLastTxPktNum conn'.incLastTxPktNum := by
  obtain ⟨evs, a, n, i, hn, hs, rfl⟩ := h
  exact ⟨evs, a, n, i, hn, hs, rfl⟩

section
variable {conn conn₁ conn' : Conn} {ent ent' : RtbEntry} {destlen ts : Nat} {r : Except Err (Option Pkt)}

/-- The end of a retransmission whose chain was not used up. -/
theorem retransmitPartial_cases (w : Written) {unprotected : Bool} {frc gone : List Frame}
    (post : List Frame)
    (hq : Quiet conn conn₁) (perm : ent.frc.Perm (w.done ++ w.rest ++ gone))
    (cancelled : ∀ fr ∈ gone, retransmitDrops conn fr = true) (hdone : w.done ≠ [])
    (hrest : w.rest ≠ [])
    (hframes : w.ppe.frames = w.done ++ post) (hun : ∀ fr ∈ post, fr.untracked = true)
    (hnext : NextPkt conn ent ⟨w.ppe.hd, [], 0, ⟨[], []⟩⟩) (hflag : unprotected = ent.hd.longForm)
    (h : retransmitPartial conn₁ { ent with frc } w ts unprotected = (r, ent', conn')) :
    Fatal r ∨ Resent ts conn ent r ent' conn' := by
  unfold retransmitPartial at h
  split at h
  · next e conn₂ hfin =>
    obtain ⟨rfl, -⟩ := Prod.mk.inj h
    exact .inl (ppeFinal_error hfin).fatal_error
  · next pkt conn₂ hfin =>
    simp only [Prod.mk.injEq] at h
    obtain ⟨rfl, rfl, rfl⟩ := h
    obtain ⟨hq', ckm, -, rfl⟩ := ppeFinal_ok hfin
    obtain ⟨evs, a, n, i, hn, hs, rfl⟩ := hq.trans hq'
    exact .inr (.part _ w.rest gone ⟨evs, a, n, i, hn, hs, rfl⟩ perm cancelled rfl hflag ⟨rfl, rfl,
      rfl⟩
      ⟨rfl, ⟨[], post, hframes, hun⟩, hdone⟩ ⟨hnext.pktNum, hnext.longForm, hnext.known⟩ hrest)

theorem retransmitPadding_cases {ppe : Ppe} {r : Except Err Ppe}
    (h : retransmitPadding conn ppe = (r, conn')) :
    Quiet conn conn' ∧ ((∃ e, r = .error e ∧ hard e) ∨ ∃ ppe' post,
    r = .ok ppe' ∧ ppe'.hd = ppe.hd ∧
      ppe'.frames = ppe.frames ++ post ∧ ∀ fr ∈ post, fr.untracked = true) := by
  unfold retransmitPadding at h
  split at h
  · rcases andThen_cases h with ⟨e, h₁, rfl⟩ | ⟨_, conn₁, h₁, h⟩
    · obtain ⟨hq, he⟩ := connCall_quiet rfl h₁
      exact ⟨hq, .inl ⟨e, rfl, .inl (he e rfl)⟩⟩
    · obtain ⟨hq, -⟩ := connCall_quiet rfl h₁
      obtain ⟨rfl, rfl⟩ := Prod.mk.inj h
      exact ⟨hq, .inr ⟨_, [.padding (ppeLeft ppe)], rfl, rfl, rfl, by simp [Frame.untracked]⟩⟩
  · obtain ⟨rfl, rfl⟩ := Prod.mk.inj h
    exact ⟨.refl _, .inr ⟨ppe, [], rfl, rfl, by simp, by simp⟩⟩

theorem connRetransmitUnprotected_cases (hlong : ent.hd.longForm = true)
    (h : connRetransmitUnprotected conn destlen ent ts = (r, ent', conn')) :
    Fatal r ∨ Resent ts conn ent r ent' conn' := by
  unfold connRetransmitUnprotected at h
  split at h
  · next e he =>
    simp only [Prod.mk.injEq] at h
    obtain ⟨rfl, rfl, rfl⟩ := h
    obtain rfl := encodable.error_eq (show encodable (resentHd conn ent) from .inl hlong) he
    exact .inr (.noBuf ent.frc [] (by simp) (by simp))
  next ppe hppe =>
  obtain ⟨hppehd, hframes, -⟩ := ppeEncodeHd_ok hppe
  split at h
  · next e conn₁ hw =>
    obtain ⟨rfl, -⟩ := Prod.mk.inj h
    obtain ⟨-, he | ⟨w, gone, he, -⟩⟩ := writeFrames_cases hw
    · exact .inl (.of_hard (he.imp fun e' he' => ⟨by simpa using he'.1, he'.2⟩))
    · simp at he
  next w conn₁ hw =>
  obtain ⟨hq, ⟨e, he, -⟩ | ⟨w', gone, he, hf⟩⟩ := writeFrames_cases hw
  · simp at he
  obtain rfl := Except.ok.inj he
  -- Nothing is cancelled here.
  obtain rfl : gone = [] :=
    List.eq_nil_iff_forall_not_mem.mpr fun fr hfr => by simpa using hf.cancelled fr hfr
  have hfrc : w.done ++ w.rest = ent.frc := hf.eq
  have hwframes : w.ppe.frames = w.done := by rw [hf.frames, hframes, List.nil_append]
  have hwhd : w.ppe.hd = resentHd conn ent := hf.hd.trans hppehd
  have hnext : NextPkt conn ent ⟨w.ppe.hd, [], 0, ⟨[], []⟩⟩ := by
    rw [hwhd]
    exact ⟨rfl, rfl, id⟩
  split at h
  · next hdone =>
    simp only [Prod.mk.injEq] at h
    obtain ⟨hr, rfl, rfl⟩ := h
    obtain rfl := writeFrames_same hw hdone
    cases hfull : w.full with
    | true =>
      obtain rfl : .error .noBuf = r := by simpa [hfull] using hr
      exact .inr (.noBuf ent.frc [] (by simp) (by simp))
    | false =>
      obtain rfl : .ok none = r := by simpa [hfull] using hr
      rw [hdone, hf.full.mp hfull] at hfrc
      exact .inr (.nothing (.inr (by simp [← hfrc])))
  next hdone =>
  split at h
  · next hrest =>
    rw [hrest, List.append_nil] at hfrc
    split at h
    · next e conn₂ hpad =>
      obtain ⟨rfl, -⟩ := Prod.mk.inj h
      obtain ⟨-, he | ⟨_, _, he, -⟩⟩ := retransmitPadding_cases hpad
      · exact .inl (.of_hard (he.imp fun e' he' => ⟨by simpa using he'.1, he'.2⟩))
      · simp at he
    next ppe' conn₂ hpad =>
    obtain ⟨hq₂, ⟨e, he, -⟩ | ⟨ppe₂, post, he, hhd₂, hframes₂, hun⟩⟩ := retransmitPadding_cases hpad
    · simp at he
    obtain rfl := Except.ok.inj he
    dsimp only at h
    split at h
    · next e conn₃ hfin =>
      obtain ⟨rfl, -⟩ := Prod.mk.inj h
      exact .inl (ppeFinal_error hfin).fatal_error
    · next pkt conn₃ hfin =>
      simp only [Prod.mk.injEq] at h
      obtain ⟨rfl, rfl, rfl⟩ := h
      obtain ⟨hq₃, ckm, -, rfl⟩ := ppeFinal_ok hfin
      refine .inr (.whole [] ((hq.trans hq₂).incLastTxPktNum.trans hq₃) (by simp [rtbEntryExtendExpiry])
        (by simp) rfl rfl ⟨rfl, rfl, rfl⟩ ⟨hhd₂.symm, ⟨[], post, ?_, by simpa using hun⟩, ?_⟩ ?_)
      · simp [hframes₂, hwframes, rtbEntryExtendExpiry, hfrc]
      · exact hfrc ▸ hdone
      · rw [← hhd₂] at hnext
        exact ⟨hnext.pktNum, hnext.longForm, hnext.known⟩
  · next hrest =>
    have hperm : ent.frc.Perm (w.done ++ w.rest ++ []) := by rw [List.append_nil, hfrc]
    exact retransmitPartial_cases w [] hq hperm (by simp) hdone hrest (by simp [hwframes])
      (by simp) hnext
      hlong.symm h

/-- The ACK frame that may join the retransmitted frames. -/
theorem retransmitAck_cases {ppe : Ppe} {ackExpired : Bool} {r : Except Err Ppe}
    (h : retransmitAck conn ppe ackExpired ts = (r, conn')) :
    Quiet conn conn' ∧ ((∃ e, r = .error e ∧ hard e) ∨ ∃ ppe' post,
    r = .ok ppe' ∧ ppe'.hd = ppe.hd ∧
      ppe'.frames = ppe.frames ++ post ∧ ∀ fr ∈ post, fr.untracked = true) := by
  unfold retransmitAck at h
  split at h
  · have hq := connCreateAckFrame_quiet conn ts false
    generalize connCreateAckFrame conn ts false = res at h hq
    obtain ⟨ackfr, conn₁⟩ := res
    dsimp only at h hq
    cases ackfr with
    | none =>
      obtain ⟨rfl, rfl⟩ := Prod.mk.inj h
      exact ⟨hq, .inr ⟨ppe, [], rfl, rfl, by simp, by simp⟩⟩
    | some ackfr =>
    dsimp only at h
    split at h
    · next conn₂ hw =>
      obtain ⟨rfl, rfl⟩ := Prod.mk.inj h
      exact ⟨hq.trans (connPpeWriteFrame_cases hw).1, .inr ⟨ppe, [], rfl, rfl, by simp, by simp⟩⟩
    · next e conn₂ hne hw =>
      obtain ⟨rfl, rfl⟩ := Prod.mk.inj h
      obtain ⟨hq₂, hcases⟩ := connPpeWriteFrame_cases hw
      rcases hcases with ⟨he, -, -⟩ | ⟨e', he, hhard⟩ | ⟨ppe', he, -⟩
      · exact absurd (Except.error.inj he) hne
      · obtain rfl := Except.error.inj he
        exact ⟨hq.trans hq₂, .inl ⟨e, rfl, hhard⟩⟩
      · simp at he
    · next ppe₂ conn₂ hw =>
      obtain ⟨rfl, rfl⟩ := Prod.mk.inj h
      obtain ⟨hq₂, hcases⟩ := connPpeWriteFrame_cases hw
      rcases hcases with ⟨he, -, -⟩ | ⟨e', he, -⟩ | ⟨ppe', he, henc⟩
      · simp at he
      · simp at he
      obtain rfl := Except.ok.inj he
      obtain ⟨len, -, -, rfl⟩ := ppeEncodeFrame_ok henc
      exact ⟨(hq.trans hq₂).trans (connAckSent_quiet ..), .inr ⟨_, [.ack ackfr], rfl, rfl, rfl,
        by simp [Frame.untracked]⟩⟩
  · obtain ⟨rfl, rfl⟩ := Prod.mk.inj h
    exact ⟨.refl _, .inr ⟨ppe, [], rfl, rfl, by simp, by simp⟩⟩

theorem connRetransmitProtected_cases (hlong : ent.hd.longForm = false)
    (h : connRetransmitProtected conn destlen ent ts = (r, ent', conn')) :
    Fatal r ∨ Resent ts conn ent r ent' conn' := by
  unfold connRetransmitProtected at h
  dsimp only at h
  generalize hhd : ({ resentHd conn ent with type := connSelectPktType conn conn.nextPktNum } : PktHd) = hd at h
  have hshort : encodable hd := by
    rw [← hhd]
    exact .inr (connSelectPktType_short conn conn.nextPktNum)
  split at h
  · next e he =>
    simp only [Prod.mk.injEq] at h
    obtain ⟨rfl, rfl, rfl⟩ := h
    obtain rfl := hshort.error_eq he
    exact .inr (.noBuf ent.frc [] (by simp) (by simp))
  next ppe hppe =>
  obtain ⟨hppehd, hframes, -⟩ := ppeEncodeHd_ok hppe
  split at h
  · next e conn₁ hw =>
    obtain ⟨rfl, -⟩ := Prod.mk.inj h
    obtain ⟨-, he | ⟨w, gone, he, -⟩⟩ := retransmitFrames_cases hw
    · exact .inl (.of_hard (he.imp fun e' he' => ⟨by simpa using he'.1, he'.2⟩))
    · simp at he
  next w conn₁ hw =>
  obtain ⟨hq, ⟨e, he, -⟩ | ⟨w', gone, he, hf⟩⟩ := retransmitFrames_cases hw
  · simp at he
  obtain rfl := Except.ok.inj he
  have hwframes : w.ppe.frames = w.done := by rw [hf.frames, hframes, List.nil_append]
  have hwhd : w.ppe.hd = hd := hf.hd.trans hppehd
  have hnext : NextPkt conn ent ⟨hd, [], 0, ⟨[], []⟩⟩ := by
    rw [← hhd]
    refine ⟨rfl, rfl, fun _ => retransmittable_short ?_ (connSelectPktType_short conn conn.nextPktNum)⟩
    exact hlong
  split at h
  · next hdone =>
    simp only [Prod.mk.injEq] at h
    obtain ⟨hr, rfl, rfl⟩ := h
    obtain rfl := retransmitFrames_same hw hdone
    have hperm := hf.perm
    rw [hdone, List.nil_append] at hperm ⊢
    cases hfull : w.full with
    | true =>
      obtain rfl : .error .noBuf = r := by simpa [hfull] using hr
      exact .inr (.noBuf w.rest gone hperm hf.cancelled)
    | false =>
      obtain rfl : .ok none = r := by simpa [hfull] using hr
      rw [hf.full.mp hfull, List.nil_append] at hperm
      exact .inr (.nothing (.inr fun fr hfr => hf.cancelled fr (hperm.subset hfr)))
  next hdone =>
  split at h
  · next e conn₂ hack =>
    obtain ⟨rfl, -⟩ := Prod.mk.inj h
    obtain ⟨-, he | ⟨_, _, he, -⟩⟩ := retransmitAck_cases hack
    · exact .inl (.of_hard (he.imp fun e' he' => ⟨by simpa using he'.1, he'.2⟩))
    · simp at he
  next ppe₂ conn₂ hack =>
  obtain ⟨hq₂, ⟨e, he, -⟩ | ⟨ppe', post, he, hhd₂, hframes₂, hun⟩⟩ := retransmitAck_cases hack
  · simp at he
  obtain rfl := Except.ok.inj he
  rw [hwhd] at hhd₂
  rw [hwframes] at hframes₂
  split at h
  · next hrest =>
    split at h
    · next e conn₃ hfin =>
      obtain ⟨rfl, -⟩ := Prod.mk.inj h
      exact .inl (ppeFinal_error hfin).fatal_error
    · next pkt conn₃ hfin =>
      simp only [Prod.mk.injEq] at h
      obtain ⟨rfl, rfl, rfl⟩ := h
      obtain ⟨hq₃, ckm, -, rfl⟩ := ppeFinal_ok hfin
      refine .inr (.whole gone ((hq.trans hq₂).trans hq₃).incLastTxPktNum ?_ hf.cancelled rfl rfl
        ⟨rfl, rfl, rfl⟩ ⟨rfl, ⟨[], post, ?_, by simpa using hun⟩, ?_⟩ ?_)
      · exact hf.perm
      · simp [hframes₂, rtbEntryExtendExpiry, hrest]
      · simpa [rtbEntryExtendExpiry, hrest] using hdone
      · rw [← hhd₂] at hnext
        exact ⟨hnext.pktNum, hnext.longForm, hnext.known⟩
  · next hrest =>
    exact retransmitPartial_cases { w with ppe := ppe₂ } post
      (hq.trans hq₂) hf.perm hf.cancelled hdone hrest hframes₂ hun
      (hhd₂ ▸ hnext) hlong.symm h

/-- One lost entry. -/
theorem retransmitEntry_cases (h : retransmitEntry conn destlen ent ts = (r, ent', conn')) :
    Fatal r ∨ Resent ts conn ent r ent' conn' := by
  unfold retransmitEntry at h
  split at h
  · next hlong =>
    split at h
    · next hprot =>
      simp only [Prod.mk.injEq] at h
      obtain ⟨rfl, rfl, rfl⟩ := h
      exact .inr (.nothing (.inl ⟨hlong, hprot⟩))
    · exact connRetransmitUnprotected_cases hlong h
  · next hshort => exact connRetransmitProtected_cases (by simpa using hshort) h

end

/-! ## The loop over the lost entries -/

/-- The top entry is due and goes out of the buffer. -/
structure Popped (ts : Nat) (conn : Conn) (ent : RtbEntry) (rtb : Rtb) : Prop where
  top : rtbTop conn.rtb = some ent
  due : ent.expiry ≤ ts
  pop : rtbPop conn.rtb ent = some rtb

/-- Lost entries are given up one after the other. -/
inductive GaveUp (ts : Nat) : Conn → List RtbEntry → Conn → Prop where
  | nil (conn : Conn) : GaveUp ts conn [] conn
  | cons {conn conn' : Conn} {ent : RtbEntry} {rtb : Rtb} {ents : List RtbEntry}
      (popped : Popped ts conn ent rtb) (alive : ts < ent.deadline)
      (why : GivenUp (conn.setRtb rtb) ent)
      (rest : GaveUp ts (conn.setRtb rtb) ents conn') :
    GaveUp ts conn (ent :: ents) conn'

/-- How `connRetransmit` ends when it does not give up one more entry. -/
inductive RetransmitEnd (destlen ts : Nat) (conn : Conn) :
    Except Err (Option Pkt) → Conn → Prop where
  | idle (later : ∀ ent, rtbTop conn.rtb = some ent → ts < ent.expiry) :
    RetransmitEnd destlen ts conn (.ok none) conn
  | refused {ent : RtbEntry} {rtb : Rtb} {e : Err} (popped : Popped ts conn ent rtb)
      (why : (e = .pktTimeout ∧ ent.deadline ≤ ts) ∨
      (e = .invalidArgument ∧ retransmittable ent.hd = false)) :
    RetransmitEnd destlen ts conn (.error e) (conn.setRtb rtb)
  | failed {ent ent' : RtbEntry} {rtb : Rtb} {e : Err} {conn₁ : Conn}
      (popped : Popped ts conn ent rtb)
      (alive : ts < ent.deadline)
      (call : retransmitEntry (conn.setRtb rtb) destlen ent ts = (.error e, ent', conn₁))
      (fatal : e.isFatal = true) :
    RetransmitEnd destlen ts conn (.error e) conn₁
  | noBuf {ent ent' : RtbEntry} {rtb : Rtb} {conn₁ : Conn} (popped : Popped ts conn ent rtb)
      (alive : ts < ent.deadline)
      (resent : Resent ts (conn.setRtb rtb) ent (.error .noBuf) ent' conn₁) :
    RetransmitEnd destlen ts conn (.error .noBuf) (conn₁.setRtb (rtbAdd conn₁.rtb ent'))
  | sent {ent ent' : RtbEntry} {rtb : Rtb} {conn₁ : Conn} {pkt : Pkt}
      (popped : Popped ts conn ent rtb)
      (alive : ts < ent.deadline)
      (resent : Resent ts (conn.setRtb rtb) ent (.ok (some pkt)) ent' conn₁) :
    RetransmitEnd destlen ts conn (.ok (some pkt))
      (conn₁.setRtb (rtbAdd conn₁.rtb { ent' with pktlen := pkt.len }))

section
variable {conn conn' : Conn} {destlen ts : Nat} {r : Except Err (Option Pkt)}

theorem Popped.unlinked {ent : RtbEntry} {rtb : Rtb} (h : Popped ts conn ent rtb)
    (hinv : RtbInv conn.rtb) :
    Unlinked conn.rtb ent rtb := by
  obtain ⟨rtb', hpop, hun⟩ := hinv.pop h.top
  obtain rfl := Option.some.inj (h.pop.symm.trans hpop)
  exact hun

theorem Popped.length_lt {ent : RtbEntry} {rtb : Rtb} (h : Popped ts conn ent rtb)
    (hinv : RtbInv conn.rtb) :
    rtb.pq.length < conn.rtb.pq.length := by
  have hun := h.unlinked hinv
  have hlen := hun.perm.length_eq
  have hpq := hinv.perm.length_eq
  have hpq' := hun.inv.perm.length_eq
  rw [List.length_cons] at hlen
  omega

/-- The loop ends as described, and never for want of turns. -/
theorem connRetransmitLoop_cases (fuel : Nat) (hinv : RtbInv conn.rtb)
    (hfuel : conn.rtb.pq.length < fuel)
    (h : connRetransmitLoop fuel conn destlen ts = (r, conn')) :
    ∃ ents conn₁, GaveUp ts conn ents conn₁ ∧ RetransmitEnd destlen ts conn₁ r conn' := by
  induction fuel generalizing conn with
  | zero => omega
  | succ fuel ih =>
    simp only [connRetransmitLoop] at h
    split at h
    · next hnone =>
      obtain ⟨rfl, rfl⟩ := Prod.mk.inj h
      exact ⟨[], conn, .nil conn, .idle fun ent htop => by rw [hnone] at htop; cases htop⟩
    next ent htop =>
    split at h
    · next hlater =>
      obtain ⟨rfl, rfl⟩ := Prod.mk.inj h
      refine ⟨[], conn, .nil conn, .idle fun ent' htop' => ?_⟩
      obtain rfl := Option.some.inj (htop.symm.trans htop')
      exact hlater
    next hdue =>
    obtain ⟨rtb, hpop, hun⟩ := hinv.pop htop
    have hpopped : Popped ts conn ent rtb := ⟨htop, Nat.le_of_not_lt hdue, hpop⟩
    rw [hpop] at h
    dsimp only at h
    split at h
    · next hdead =>
      obtain ⟨rfl, rfl⟩ := Prod.mk.inj h
      exact ⟨[], conn, .nil conn, .refused hpopped (.inl ⟨rfl, hdead⟩)⟩
    next hlive =>
    have halive : ts < ent.deadline := Nat.lt_of_not_le hlive
    split at h
    · next hbad =>
      obtain ⟨rfl, rfl⟩ := Prod.mk.inj h
      exact ⟨[], conn, .nil conn, .refused hpopped (.inr ⟨rfl, by simpa using hbad⟩)⟩
    split at h
    · next ent' conn₁ hent =>
      rcases retransmitEntry_cases hent with ⟨e, he, -⟩ | hres
      · simp at he
      cases hres with
      | nothing why =>
        have hlen := hpopped.length_lt hinv
        obtain ⟨ents, conn₂, hgave, hend⟩ :=
          ih hun.inv (Nat.lt_of_lt_of_le hlen (Nat.le_of_lt_succ hfuel)) h
        exact ⟨ent :: ents, conn₂, .cons hpopped halive why hgave, hend⟩
    · next ent' conn₁ hent =>
      obtain ⟨rfl, rfl⟩ := Prod.mk.inj h
      rcases retransmitEntry_cases hent with ⟨e, he, hfatal⟩ | hres
      · obtain rfl := Except.error.inj he
        simp [Err.isFatal] at hfatal
      · exact ⟨[], conn, .nil conn, .noBuf hpopped halive hres⟩
    · next e ent' conn₁ hne hent =>
      obtain ⟨rfl, rfl⟩ := Prod.mk.inj h
      rcases retransmitEntry_cases hent with ⟨e', he, hfatal⟩ | hres
      · obtain rfl := Except.error.inj he
        exact ⟨[], conn, .nil conn, .failed hpopped halive hent hfatal⟩
      · cases hres with
        | noBuf => exact absurd rfl hne
    · next pkt ent' conn₁ hent =>
      rcases retransmitEntry_cases hent with ⟨e, he, -⟩ | hres
      · simp at he
      have hnonempty : ent'.frc ≠ [] := by
        cases hres with
        | whole gone logs perm cancelled addr flag backoff tracks next => exact tracks.nonempty
        | part new rest gone logs perm cancelled addr flag backoff tracks next left => exact left
      rw [if_neg hnonempty] at h
      obtain ⟨rfl, rfl⟩ := Prod.mk.inj h
      exact ⟨[], conn, .nil conn, .sent hpopped halive hres⟩

theorem connRetransmit_cases (hinv : RtbInv conn.rtb)
    (h : connRetransmit conn destlen ts = (r, conn')) :
    ∃ ents conn₁, GaveUp ts conn ents conn₁ ∧ RetransmitEnd destlen ts conn₁ r conn' :=
  connRetransmitLoop_cases _ hinv (Nat.lt_succ_self _) h

end

end Ngtcp2
