import Mathlib.Data.List.Perm.Subperm
import Polygon.WriteSpec

/-!
# No frame is lost or duplicated

The frames that wait in the queue, in the retransmission buffer and among the 0-RTT
entries, and what `ngtcp2_conn_write_pkt` does with them.
-/
namespace Ngtcp2

/-- The frames of some entries. -/
def frames (ents : List RtbEntry) : List Frame := ents.flatMap (·.frc)

/-- All frames that wait to be sent or acknowledged. -/
def held (conn : Conn) : List Frame := conn.frq ++ frames (conn.rtb.head ++ conn.earlyRtb)

/-- The chains of the unprotected packets that a protected packet made obsolete. -/
def obsoleteChains (conn : Conn) : List (List Frame) :=
  if conn.recvProtectedPkt then ((conn.rtb.head ++ conn.earlyRtb).filter (·.hd.longForm)).map
    (·.frc) else []

/-- The frame is deleted by one of the cancel rules. -/
def mayCancel (conn : Conn) (fr : Frame) : Prop :=
    retransmitDrops conn fr = true ∨ frqCancelled conn fr = true

/-- The frames that `conn_write_pkt` and the handshake create. -/
def Frame.creatable : Frame → Bool
  | .maxData _ | .maxStreamData _ | .maxStreamId _ | .connectionClose .. => true
  | .stream fr => fr.streamId == 0
  | _ => false

/-- The books of a call: frames were created, cancelled or dropped with their entries, and all
others are still held. -/
structure Accounts (conn conn' : Conn) (created cancelled : List Frame)
    (dropped : List (List Frame)) : Prop where
  perm : (held conn' ++ cancelled ++ dropped.flatten).Perm (held conn ++ created)
  created : ∀ fr ∈ created, fr.creatable = true
  cancelled : ∀ fr ∈ cancelled, mayCancel conn fr
  dropped : dropped.Subperm (obsoleteChains conn)

/-- The entries have addresses of their own, below the next one. -/
structure EntriesInv (conn : Conn) : Prop where
  rtb : RtbInv conn.rtb
  nodup : (addrs (conn.rtb.head ++ conn.earlyRtb)).Nodup
  fresh : ∀ a ∈ addrs (conn.rtb.head ++ conn.earlyRtb), a < conn.nextAddr

@[simp] theorem frames_nil : frames [] = [] := rfl

@[simp] theorem frames_cons (ent : RtbEntry) (ents : List RtbEntry) :
    frames (ent :: ents) = ent.frc ++ frames ents := rfl

@[simp] theorem frames_append (ents ents' : List RtbEntry) :
    frames (ents ++ ents') = frames ents ++ frames ents' :=
  List.flatMap_append

theorem frames_perm {ents ents' : List RtbEntry} (h : ents.Perm ents') :
    (frames ents).Perm (frames ents') :=
  h.flatMap_right _

/-! ## Quiet steps -/

section
variable {conn conn' : Conn} {hds : List PktHd}

theorem Logs.held (h : Logs hds conn conn') : held conn' = held conn := by
  obtain ⟨_, _, _, _, _, _, rfl⟩ := h
  rfl

theorem Logs.retransmitDrops (h : Logs hds conn conn') :
    retransmitDrops conn' = retransmitDrops conn := by
  obtain ⟨_, _, _, _, _, _, rfl⟩ := h
  funext fr
  cases fr <;> rfl

theorem Logs.mayCancel (h : Logs hds conn conn') (fr : Frame) :
    mayCancel conn' fr ↔ mayCancel conn fr := by
  obtain ⟨_, _, _, _, _, _, rfl⟩ := h
  cases fr <;> exact Iff.rfl

theorem Logs.obsoleteChains (h : Logs hds conn conn') :
    obsoleteChains conn' = obsoleteChains conn := by
  obtain ⟨_, _, _, _, _, _, rfl⟩ := h
  rfl

theorem Logs.entriesInv (h : Logs hds conn conn') (hinv : EntriesInv conn) : EntriesInv conn' := by
  obtain ⟨_, _, _, _, _, _, rfl⟩ := h
  exact ⟨hinv.rtb, hinv.nodup, hinv.fresh⟩

theorem retransmitDrops_setRtb (conn : Conn) (rtb : Rtb) :
    retransmitDrops (conn.setRtb rtb) = retransmitDrops conn := by
  funext fr
  cases fr <;> rfl

/-! ## Entries given up -/

/-- Entries given up left the buffer, which is all that changed. -/
theorem GaveUp.spec {ts : Nat} {ents : List RtbEntry} (h : GaveUp ts conn ents conn')
    (hinv : RtbInv conn.rtb) :
    ∃ rtb, conn' = conn.setRtb rtb ∧ RtbInv rtb ∧ (ents ++ rtb.head).Perm conn.rtb.head ∧
      rtb.head.Sublist conn.rtb.head ∧ ∀ ent ∈ ents, GivenUp conn ent := by
  induction h with
  | nil conn => exact ⟨conn.rtb, rfl, hinv, .refl _, .refl _, by simp⟩
  | @cons conn conn' ent rtb ents popped alive why rest ih =>
    have hun := popped.unlinked hinv
    obtain ⟨rtb', rfl, hinv', hperm, hsub, hwhy⟩ := ih hun.inv
    refine ⟨rtb', rfl, hinv', (hperm.cons ent).trans hun.perm, hsub.trans hun.sublist,
      fun e he => ?_⟩
    have hgiven : ∀ ent, GivenUp (conn.setRtb rtb) ent → GivenUp conn ent := by
      intro ent h
      rwa [GivenUp, retransmitDrops_setRtb] at h
    rcases List.mem_cons.mp he with rfl | he
    · exact hgiven e why
    · exact hgiven e (hwhy e he)

theorem EntriesInv.of_sublist {rtb : Rtb} (hinv : EntriesInv conn) (hrtb : RtbInv rtb)
    (hsub : rtb.head.Sublist conn.rtb.head) : EntriesInv (conn.setRtb rtb) := by
  have hsub' : (addrs (rtb.head ++ conn.earlyRtb)).Sublist
    (addrs (conn.rtb.head ++ conn.earlyRtb)) :=
    (hsub.append_right _).map _
  exact ⟨hrtb, hinv.nodup.sublist hsub', fun a ha => hinv.fresh a (hsub'.subset ha)⟩

theorem GaveUp.accounts {ts : Nat} {ents : List RtbEntry} (h : GaveUp ts conn ents conn')
    (hinv : EntriesInv conn) :
    EntriesInv conn' ∧ ∃ cancelled dropped, Accounts conn conn' [] cancelled dropped ∧
      (dropped ++ obsoleteChains conn').Subperm (obsoleteChains conn) := by
  obtain ⟨rtb, rfl, hrtb, hperm, hsub, hwhy⟩ := h.spec hinv.rtb
  refine ⟨hinv.of_sublist hrtb hsub, ?_⟩
  have hsplit := List.filter_append_perm
    (fun ent : RtbEntry => ent.hd.longForm && conn.recvProtectedPkt) ents
  have hflat : ((ents.filter fun ent => ent.hd.longForm && conn.recvProtectedPkt).map (·.frc)).flatten =
      frames (ents.filter fun ent => ent.hd.longForm && conn.recvProtectedPkt) :=
        List.flatMap_def.symm
  have hchains : (((ents.filter fun ent => ent.hd.longForm && conn.recvProtectedPkt).map (·.frc)) ++
      obsoleteChains (conn.setRtb rtb)).Subperm (obsoleteChains conn) := by
    have hsame : (conn.setRtb rtb).recvProtectedPkt = conn.recvProtectedPkt := rfl
    rw [obsoleteChains, obsoleteChains, hsame]
    cases hprot : conn.recvProtectedPkt with
    | false => simp
    | true =>
      simp only [Bool.and_true, if_true]
      rw [← List.map_append, ← List.filter_append, ← List.append_assoc]
      exact (((hperm.append_right conn.earlyRtb).filter _).map _).subperm
  refine ⟨frames (ents.filter fun ent => !(ent.hd.longForm && conn.recvProtectedPkt)), _,
    ⟨?_, by simp, ?_, ?_⟩, hchains⟩
  · rw [hflat, List.append_nil]
    have h₁ := frames_perm hperm
    have h₂ := frames_perm hsplit
    rw [frames_append] at h₁ h₂
    rw [List.perm_iff_count] at h₁ h₂ ⊢
    intro fr
    have h₁ := h₁ fr
    have h₂ := h₂ fr
    simp only [held, frames_append, List.count_append, Conn.setRtb] at h₁ h₂ ⊢
    omega
  · intro fr hfr
    obtain ⟨ent, hent, hmem⟩ := List.mem_flatMap.mp hfr
    obtain ⟨hent, hnot⟩ := List.mem_filter.mp hent
    rcases hwhy ent hent with hlong | hdrop
    · simp [hlong.1, hlong.2] at hnot
    · exact .inl (hdrop fr hmem)
  · exact (List.sublist_append_left ..).subperm.trans hchains

/-! ## Entries sent again -/

theorem EntriesInv.popped {ts : Nat} {ent : RtbEntry} {rtb : Rtb} (hinv : EntriesInv conn)
    (h : Popped ts conn ent rtb) : EntriesInv (conn.setRtb rtb) ∧
      ent.addr ∉ addrs (rtb.head ++ conn.earlyRtb) ∧ ent.addr < conn.nextAddr := by
  have hun := h.unlinked hinv.rtb
  have hperm : (addrs (ent :: rtb.head ++ conn.earlyRtb)).Perm
    (addrs (conn.rtb.head ++ conn.earlyRtb)) :=
    (hun.perm.append_right _).map _
  have hnodup := hperm.nodup_iff.mpr hinv.nodup
  refine ⟨hinv.of_sublist hun.inv hun.sublist, (List.nodup_cons.mp hnodup).1, ?_⟩
  exact hinv.fresh _ (hperm.subset (List.mem_cons_self ..))

theorem EntriesInv.add {ent : RtbEntry} (hinv : EntriesInv conn)
    (hnot : ent.addr ∉ addrs (conn.rtb.head ++ conn.earlyRtb)) (hlt : ent.addr < conn.nextAddr) :
    EntriesInv (conn.setRtb (rtbAdd conn.rtb ent)) := by
  have hnot' : ent.addr ∉ addrs conn.rtb.head := fun hc => hnot (by
    rw [addrs, List.map_append]
    exact List.mem_append_left _ hc)
  refine ⟨hinv.rtb.add hnot', List.nodup_cons.mpr ⟨hnot, hinv.nodup⟩, fun a ha => ?_⟩
  rcases List.mem_cons.mp ha with rfl | ha
  · exact hlt
  · exact hinv.fresh a ha

theorem EntriesInv.addEntry {ent : RtbEntry} (hinv : EntriesInv conn)
    (haddr : ent.addr = conn.nextAddr) :
    EntriesInv (conn.addEntry fun _ => ent) := by
  have hinv' : EntriesInv { conn with nextAddr := conn.nextAddr + 1 } :=
    ⟨hinv.rtb, hinv.nodup, fun a ha => Nat.lt_succ_of_lt (hinv.fresh a ha)⟩
  refine hinv'.add (fun hc => ?_) (Nat.lt_succ_of_le (Nat.le_of_eq haddr))
  exact absurd (hinv.fresh _ hc) (Nat.not_lt.mpr (Nat.le_of_eq haddr.symm))

theorem EntriesInv.incLastTxPktNum (hinv : EntriesInv conn) : EntriesInv conn.incLastTxPktNum :=
  ⟨hinv.rtb, hinv.nodup, hinv.fresh⟩

/-- A popped entry goes back to the buffer. -/
theorem EntriesInv.back {ent ent' : RtbEntry} (hinv : EntriesInv conn)
    (hnot : ent.addr ∉ addrs (conn.rtb.head ++ conn.earlyRtb)) (hlt : ent.addr < conn.nextAddr)
    (haddr : ent'.addr = ent.addr) : EntriesInv (conn.setRtb (rtbAdd conn.rtb ent')) :=
  hinv.add (haddr ▸ hnot) (haddr ▸ hlt)

theorem RetransmitEnd.entriesInv {destlen ts : Nat} {r : Except Err (Option Pkt)}
    (hinv : EntriesInv conn)
    (h : RetransmitEnd destlen ts conn r conn') (hr : ¬Fatal r) : EntriesInv conn' := by
  cases h with
  | idle later => exact hinv
  | refused popped why => exact (hinv.popped popped).1
  | failed popped alive call fatal => exact absurd ⟨_, rfl, fatal⟩ hr
  | noBuf popped alive resent =>
    obtain ⟨hinv₁, hnot, hlt⟩ := hinv.popped popped
    cases resent with
    | noBuf rest gone perm cancelled => exact hinv₁.back hnot hlt rfl
  | sent popped alive resent =>
    obtain ⟨hinv₁, hnot, hlt⟩ := hinv.popped popped
    cases resent with
    | whole gone logs perm cancelled addr flag backoff tracks next =>
      have hinv₂ := logs.entriesInv hinv₁.incLastTxPktNum
      obtain ⟨_, _, _, _, _, _, rfl⟩ := logs
      exact hinv₂.back hnot hlt addr
    | part new rest gone logs perm cancelled addr flag backoff tracks next left =>
      have hinv₂ := logs.entriesInv (hinv₁.addEntry addr).incLastTxPktNum
      obtain ⟨_, _, _, _, _, _, rfl⟩ := logs
      refine hinv₂.back (fun hc => ?_) (Nat.lt_succ_of_lt hlt) rfl
      rcases List.mem_cons.mp hc with hc | hc
      · have haddr : conn.nextAddr = new.addr := addr.symm
        exact absurd (hc.trans haddr.symm) (Nat.ne_of_lt hlt)
      · exact hnot hc

/-- An entry is kept for the packet, if it carries more than ACK and PADDING frames. -/
def Kept (conn : Conn) (pkt : Pkt) : Prop :=
  (∀ fr ∈ pkt.frames, fr.untracked = true) ∨ ∃ ent ∈ conn.rtb.head, Tracks ent pkt

/-- A popped entry went back as some entries, but for the cancelled frames. -/
theorem Popped.accounts {ts : Nat} {ent : RtbEntry} {rtb : Rtb} {gone : List Frame}
    (popped : Popped ts conn ent rtb) (ents : List RtbEntry) (hinv : RtbInv conn.rtb)
    (hfrq : conn'.frq = conn.frq)
    (hearly : conn'.earlyRtb = conn.earlyRtb) (hhead : conn'.rtb.head = ents ++ rtb.head)
    (hperm : ent.frc.Perm (frames ents ++ gone))
    (hgone : ∀ fr ∈ gone, retransmitDrops conn fr = true) :
    Accounts conn conn' [] gone [] := by
  refine ⟨?_, by simp, fun fr hfr => .inl (hgone fr hfr), List.nil_subperm⟩
  have h₁ := frames_perm (popped.unlinked hinv).perm
  rw [List.perm_iff_count] at h₁ hperm ⊢
  intro fr
  have h₁ := h₁ fr
  have h₂ := hperm fr
  simp only [held, hfrq, hearly, hhead, frames_append, frames_cons, List.count_append,
    List.flatten_nil,
    List.count_nil] at h₁ h₂ ⊢
  omega

/-- The last entry that was looked at: its frames are held again, but for the cancelled ones. -/
theorem RetransmitEnd.accounts {destlen ts : Nat} {r : Except Err (Option Pkt)}
    (hinv : RtbInv conn.rtb)
    (h : RetransmitEnd destlen ts conn r conn') (hr : (∃ v, r = .ok v) ∨ r = .error .noBuf) :
    (∃ cancelled, Accounts conn conn' [] cancelled []) ∧ ∀ pkt, r = .ok (some pkt) →
    Kept conn' pkt := by
  cases h with
  | idle later => exact ⟨⟨[], by simp, by simp, by simp, List.nil_subperm⟩, by simp⟩
  | refused popped why => rcases why with ⟨rfl, -⟩ | ⟨rfl, -⟩ <;> simp at hr
  | failed popped alive call fatal =>
    obtain ⟨v, hv⟩ | hnb := hr
    · simp at hv
    · obtain rfl := Except.error.inj hnb
      simp [Err.isFatal] at fatal
  | @noBuf ent ent' rtb conn₁ popped alive resent =>
    cases resent with
    | noBuf rest gone perm cancelled =>
      rw [retransmitDrops_setRtb] at cancelled
      refine ⟨⟨gone, popped.accounts [{ ent with frc := rest }] hinv rfl rfl rfl ?_ cancelled⟩,
        by simp⟩
      simpa using perm
  | @sent ent ent' rtb conn₁ pkt popped alive resent =>
    cases resent with
    | whole gone logs perm cancelled addr flag backoff tracks next =>
      rw [retransmitDrops_setRtb] at cancelled
      obtain ⟨_, _, _, _, _, _, rfl⟩ := logs
      refine ⟨⟨gone, popped.accounts [{ ent' with pktlen := pkt.len }] hinv rfl rfl rfl ?_ cancelled⟩, ?_⟩
      · simpa using perm
      · intro pkt' hpkt
        obtain rfl := Option.some.inj (Except.ok.inj hpkt)
        exact .inr ⟨_, List.mem_cons_self .., tracks.hd, tracks.carries, tracks.nonempty⟩
    | part new rest gone logs perm cancelled addr flag backoff tracks next left =>
      rw [retransmitDrops_setRtb] at cancelled
      obtain ⟨_, _, _, _, _, _, rfl⟩ := logs
      refine ⟨⟨gone, popped.accounts [{ ent with frc := rest, pktlen := pkt.len }, new] hinv rfl rfl
        rfl ?_ cancelled⟩, ?_⟩
      · refine perm.trans ?_
        simp only [frames_cons, frames_nil, List.append_nil]
        exact List.perm_append_comm.append_right gone
      · intro pkt' hpkt
        obtain rfl := Option.some.inj (Except.ok.inj hpkt)
        exact .inr ⟨new, List.mem_cons_of_mem _ (List.mem_cons_self ..), tracks⟩

/-! ## One call after the other -/

/-- Nothing was created or lost so far, and the obsolete chains are dropped at most once. -/
structure Settled (conn conn' : Conn) (cancelled : List Frame) (dropped : List (List Frame)) :
    Prop where
  accounts : Accounts conn conn' [] cancelled dropped
  obsolete : (dropped ++ obsoleteChains conn').Subperm (obsoleteChains conn)
  mayCancel : ∀ fr, mayCancel conn' fr → mayCancel conn fr

theorem Settled.trans {conn₁ : Conn} {created c₁ c₂ : List Frame} {d₁ d₂ : List (List Frame)}
    (h₁ : Settled conn conn₁ c₁ d₁) (h₂ : Accounts conn₁ conn' created c₂ d₂) :
    Accounts conn conn' created (c₁ ++ c₂) (d₁ ++ d₂) := by
  refine ⟨?_, h₂.created, fun fr hfr => ?_, ?_⟩
  · have hp₁ := h₁.accounts.perm
    have hp₂ := h₂.perm
    rw [List.perm_iff_count] at hp₁ hp₂ ⊢
    intro fr
    have hp₁ := hp₁ fr
    have hp₂ := hp₂ fr
    simp only [List.count_append, List.flatten_append, List.count_nil] at hp₁ hp₂ ⊢
    omega
  · rcases List.mem_append.mp hfr with hfr | hfr
    · exact h₁.accounts.cancelled fr hfr
    · exact h₁.mayCancel fr (h₂.cancelled fr hfr)
  · exact ((List.subperm_append_left d₁).mpr h₂.dropped).trans h₁.obsolete

theorem mayCancel_setRtb (conn : Conn) (rtb : Rtb) (fr : Frame) :
    mayCancel (conn.setRtb rtb) fr ↔ mayCancel conn fr := by
  cases fr <;> exact Iff.rfl

theorem GaveUp.settled {ts : Nat} {ents : List RtbEntry} (h : GaveUp ts conn ents conn')
    (hinv : EntriesInv conn) :
    EntriesInv conn' ∧ ∃ cancelled dropped, Settled conn conn' cancelled dropped := by
  obtain ⟨hinv', cancelled, dropped, hacc, hobs⟩ := h.accounts hinv
  obtain ⟨rtb, rfl, -⟩ := h.spec hinv.rtb
  exact ⟨hinv', cancelled, dropped, hacc, hobs, fun fr hfr => (mayCancel_setRtb conn rtb fr).mp hfr⟩

theorem connRetransmit_entriesInv {destlen ts : Nat} {r : Except Err (Option Pkt)}
    (hinv : EntriesInv conn)
    (h : connRetransmit conn destlen ts = (r, conn')) (hr : ¬Fatal r) : EntriesInv conn' := by
  obtain ⟨ents, conn₁, hgave, hend⟩ := connRetransmit_cases hinv.rtb h
  exact hend.entriesInv (hgave.settled hinv).1 hr

theorem connRetransmit_accounts {destlen ts : Nat} {r : Except Err (Option Pkt)}
    (hinv : EntriesInv conn)
    (h : connRetransmit conn destlen ts = (r, conn')) (hr : (∃ v, r = .ok v) ∨ r = .error .noBuf) :
    (∃ cancelled dropped, Accounts conn conn' [] cancelled dropped) ∧
      ∀ pkt, r = .ok (some pkt) → Kept conn' pkt := by
  obtain ⟨ents, conn₁, hgave, hend⟩ := connRetransmit_cases hinv.rtb h
  obtain ⟨hinv₁, c₁, d₁, hsettled⟩ := hgave.settled hinv
  obtain ⟨⟨c₂, hacc⟩, hkept⟩ := hend.accounts hinv₁.rtb hr
  exact ⟨⟨_, _, hsettled.trans hacc⟩, hkept⟩

/-- Nothing was due any more: only entries that are not needed went. -/
theorem connRetransmit_settled {destlen ts : Nat} (hinv : EntriesInv conn)
    (h : connRetransmit conn destlen ts = (.ok none, conn')) :
    EntriesInv conn' ∧ conn'.strms = conn.strms ∧
    ∃ cancelled dropped, Settled conn conn' cancelled dropped := by
  obtain ⟨ents, conn₁, hgave, hend⟩ := connRetransmit_cases hinv.rtb h
  cases hend with
  | idle later =>
    obtain ⟨hinv', hsettled⟩ := hgave.settled hinv
    obtain ⟨rtb, rfl, -⟩ := hgave.spec hinv.rtb
    exact ⟨hinv', rfl, hsettled⟩

/-! ## Packets written -/

theorem Sends.entriesInv {unprotected : Bool} {frc : List Frame} {pkt : Pkt}
    (hinv : EntriesInv conn)
    (h : Sends conn unprotected frc pkt conn') :
    EntriesInv conn' := by
  cases h with
  | untracked nil num frames logs => exact logs.entriesInv hinv.incLastTxPktNum
  | tracked ent frc_eq addr flag fresh num form known tracks logs =>
    exact logs.entriesInv (hinv.addEntry addr).incLastTxPktNum

/-- The frames of a packet are held by its entry. -/
theorem Sends.held {unprotected : Bool} {frc : List Frame} {pkt : Pkt}
    (h : Sends conn unprotected frc pkt conn') :
    (held conn').Perm (held conn ++ frc) ∧ Kept conn' pkt := by
  cases h with
  | untracked nil num frames logs =>
    obtain rfl := nil
    refine ⟨?_, .inl frames⟩
    rw [logs.held, List.append_nil]
    exact .refl _
  | tracked ent frc_eq addr flag fresh num form known tracks logs =>
    obtain rfl := frc_eq
    obtain ⟨_, _, _, _, _, _, rfl⟩ := logs
    refine ⟨?_, .inr ⟨ent, List.mem_cons_self .., tracks⟩⟩
    refine List.Perm.trans (List.Perm.append_left conn.frq ?_) (.of_eq (List.append_assoc ..).symm)
    exact List.perm_append_comm

theorem Accounts.of_perm {created : List Frame} (h : (held conn').Perm (held conn ++ created))
    (hcreated : ∀ fr ∈ created, fr.creatable = true) : Accounts conn conn' created [] [] :=
  ⟨by simpa using h, hcreated, by simp, List.nil_subperm⟩

theorem Accounts.of_held (h : held conn' = held conn) : Accounts conn conn' [] [] [] :=
  .of_perm (.of_eq (by simp [h])) (by simp)

theorem HsAdvance.held {frc : List Frame} (h : HsAdvance conn frc conn') :
    held conn' = held conn ∧ (EntriesInv conn → EntriesInv conn') ∧
    ∀ fr ∈ frc, fr.creatable = true := by
  cases h with
  | none => exact ⟨rfl, id, by simp⟩
  | some strm0 n find pos le =>
    exact ⟨rfl, fun hinv => ⟨hinv.rtb, hinv.nodup, hinv.fresh⟩, by simp [Frame.creatable]⟩

theorem HsWritten.entriesInv {r : Except Err Pkt} (hinv : EntriesInv conn)
    (h : HsWritten conn r conn') :
    EntriesInv conn' := by
  cases h with
  | noBuf adv quiet => exact quiet.entriesInv (adv.held.2.1 hinv)
  | sent adv close_eq sends => exact sends.entriesInv (adv.held.2.1 hinv)

theorem HsWritten.accounts {r : Except Err Pkt} (h : HsWritten conn r conn') :
    (∃ created, Accounts conn conn' created [] []) ∧ ∀ pkt, r = .ok pkt → Kept conn' pkt := by
  cases h with
  | noBuf adv quiet => exact ⟨⟨[], .of_held (quiet.held.trans adv.held.1)⟩, by simp⟩
  | sent adv close_eq sends =>
    obtain ⟨hperm, hkept⟩ := sends.held
    obtain ⟨hheld, -, hcreated⟩ := adv.held
    rw [hheld] at hperm
    refine ⟨⟨_, .of_perm hperm fun fr hfr => ?_⟩, fun pkt hpkt => ?_⟩
    · rcases List.mem_append.mp hfr with hfr | hfr
      · exact hcreated fr hfr
      · rcases close_eq with rfl | rfl
        · simp at hfr
        · obtain rfl := List.mem_singleton.mp hfr
          rfl
    · obtain rfl := Except.ok.inj hpkt
      exact hkept

theorem AckWritten.entriesInv {r : Except Err (Option Pkt)} (hinv : EntriesInv conn)
    (h : AckWritten conn r conn') :
    EntriesInv conn' := by
  cases h with
  | nothing quiet => exact quiet.entriesInv hinv
  | noBuf quiet => exact quiet.entriesInv hinv
  | sent sends => exact sends.entriesInv hinv

theorem AckWritten.accounts {r : Except Err (Option Pkt)} (h : AckWritten conn r conn') :
    Accounts conn conn' [] [] [] ∧ ∀ pkt, r = .ok (some pkt) → Kept conn' pkt := by
  cases h with
  | nothing quiet => exact ⟨.of_held quiet.held, by simp⟩
  | noBuf quiet => exact ⟨.of_held quiet.held, by simp⟩
  | sent sends =>
    obtain ⟨hperm, hkept⟩ := sends.held
    refine ⟨.of_perm hperm (by simp), fun pkt hpkt => ?_⟩
    obtain rfl := Option.some.inj (Except.ok.inj hpkt)
    exact hkept

end

/-! ## Frames that announce credit -/

/-- Every stream object is stored at its own ID. -/
def StrmsKeyed (conn : Conn) : Prop := ∀ id strm, conn.strms id = some strm → strm.streamId = id

/-- A stream, or the stream after its credit was announced. -/
def Announced (strm strm' : Option Strm) : Prop :=
  strm' = strm ∨ ∃ s, strm = some s ∧
    strm' = some ((s.setMaxRxOffset s.unsentMaxRxOffset).setOnFc false)

/-- The queue and the streams after the credit of streams was announced. -/
structure StreamsAnnounced (conn : Conn) (created : List Frame) (conn' : Conn) : Prop where
  frq : conn'.frq = created ++ conn.frq
  created : ∀ fr ∈ created, ∃ mfr, fr = .maxStreamData mfr
  strms : ∀ id, Announced (conn.strms id) (conn'.strms id)
  rest : conn' = { conn with frq := conn'.frq, strms := conn'.strms, fcStrms := [] }

theorem Announced.trans {a b c : Option Strm} (h₁ : Announced a b) (h₂ : Announced b c) :
    Announced a c := by
  rcases h₁ with rfl | ⟨s, rfl, rfl⟩
  · exact h₂
  · rcases h₂ with rfl | ⟨s', hs', rfl⟩
    · exact .inr ⟨s, rfl, rfl⟩
    · obtain rfl := Option.some.inj hs'
      exact .inr ⟨s, rfl, rfl⟩

theorem queueMaxStreamData_spec {ids : List Nat} {conn conn' : Conn} (hkeyed : StrmsKeyed conn)
    (h : queueMaxStreamData ids conn = some conn') :
    ∃ created, StreamsAnnounced conn created conn' := by
  induction ids generalizing conn with
  | nil =>
    obtain rfl := Option.some.inj h
    exact ⟨[], rfl, by simp, fun _ => .inl rfl, rfl⟩
  | cons id ids ih =>
    simp only [queueMaxStreamData] at h
    split at h
    · simp at h
    next strm hfind =>
    split at h
    · next hon =>
      have hid := hkeyed id strm hfind
      have hstrms : ∀ id', Announced (conn.strms id') (((conn.setFrq (.maxStreamData
          ⟨strm.streamId, strm.unsentMaxRxOffset⟩ :: conn.frq)).setStrm
          ((strm.setMaxRxOffset strm.unsentMaxRxOffset).setOnFc false)).strms id') := by
        intro id'
        by_cases hc : id' = strm.streamId
        · subst hc
          exact .inr ⟨strm, hid ▸ hfind, if_pos rfl⟩
        · exact .inl (if_neg hc)
      have hkeyed' : StrmsKeyed ((conn.setFrq (.maxStreamData
          ⟨strm.streamId, strm.unsentMaxRxOffset⟩ :: conn.frq)).setStrm
          ((strm.setMaxRxOffset strm.unsentMaxRxOffset).setOnFc false)) := by
        intro id' strm' hfind'
        rcases hstrms id' with heq | ⟨s, hs, heq⟩
        · exact hkeyed id' strm' (heq ▸ hfind')
        · obtain rfl := Option.some.inj (heq.symm.trans hfind')
          exact hkeyed id' s hs
      obtain ⟨created, hfrq, hcreated, hann, hrest⟩ := ih hkeyed' h
      refine ⟨created ++ [.maxStreamData ⟨strm.streamId, strm.unsentMaxRxOffset⟩], ?_, ?_,
        fun id' => (hstrms id').trans (hann id'), hrest⟩
      · rw [hfrq, List.append_assoc]
        rfl
      · intro fr hfr
        rcases List.mem_append.mp hfr with hfr | hfr
        · exact hcreated fr hfr
        · exact ⟨_, List.mem_singleton.mp hfr⟩
    · simp at h

theorem queueMaxData_cases (conn : Conn) (ackfr : Option AckFrame) :
    queueMaxData conn ackfr = conn ∨ (conn.maxRxOffset < conn.unsentMaxRxOffset ∧
      queueMaxData conn ackfr = { conn with
        frq := .maxData conn.unsentMaxRxOffset :: conn.frq
        maxRxOffset := conn.unsentMaxRxOffset }) := by
  unfold queueMaxData
  split
  · next hc =>
    simp only [Bool.and_eq_true, decide_eq_true_eq] at hc
    exact .inr ⟨hc.2, rfl⟩
  · exact .inl rfl

section
variable {conn conn₁ conn₂ conn' : Conn}

theorem frqCancelled_of_announced (hstrms : ∀ id, Announced (conn.strms id) (conn'.strms id))
    (fr : Frame)
    (h : frqCancelled conn' fr = true) : frqCancelled conn fr = true := by
  cases fr with
  | rstStream fr =>
    simp only [Ngtcp2.frqCancelled] at h ⊢
    rcases hstrms fr.streamId with heq | ⟨s, hs, heq⟩
    · rwa [heq] at h
    · rw [heq] at h
      simp at h
  | stopSending fr =>
    simp only [Ngtcp2.frqCancelled, stopSendingCancelled] at h ⊢
    rcases hstrms fr.streamId with heq | ⟨s, hs, heq⟩
    · rwa [heq] at h
    · rw [heq] at h
      rw [hs]
      exact h
  | _ => exact h

/-- Everything that `conn_write_pkt` queues first. -/
theorem queued_spec {ackfr : Option AckFrame} (hkeyed : StrmsKeyed conn)
    (h : queueMaxStreamData (queueMaxData conn ackfr).fcStrms (queueMaxData conn ackfr) = some conn') :
    ∃ created, (held conn').Perm (held conn ++ created) ∧ (∀ fr ∈ created, fr.creatable = true) ∧
      (EntriesInv conn → EntriesInv conn') ∧ ∀ fr, frqCancelled conn' fr = true →
      frqCancelled conn fr = true := by
  have hkeyed' : StrmsKeyed (queueMaxData conn ackfr) := by
    rcases queueMaxData_cases conn ackfr with heq | ⟨-, heq⟩ <;> rw [heq] <;> exact hkeyed
  obtain ⟨created, hfrq, hcreated, hann, hrest⟩ := queueMaxStreamData_spec hkeyed' h
  have hcancel : ∀ fr, frqCancelled conn' fr = true → frqCancelled conn fr = true := by
    intro fr hfr
    refine frqCancelled_of_announced (fun id => ?_) fr hfr
    have := hann id
    rcases queueMaxData_cases conn ackfr with heq | ⟨-, heq⟩ <;> rwa [heq] at this
  obtain ⟨fs, m, hfs, heq⟩ : ∃ fs m, (∀ fr ∈ fs, fr.creatable = true) ∧
      queueMaxData conn ackfr = { conn with frq := fs ++ conn.frq, maxRxOffset := m } := by
    rcases queueMaxData_cases conn ackfr with heq | ⟨-, heq⟩
    · exact ⟨[], conn.maxRxOffset, by simp, heq⟩
    · exact ⟨[.maxData conn.unsentMaxRxOffset], _, by simp [Frame.creatable], heq⟩
  rw [heq] at hfrq hrest
  refine ⟨created ++ fs, ?_, fun fr hfr => ?_, fun hinv => ?_, hcancel⟩
  · have hheld : held conn' =
      created ++ (fs ++ conn.frq) ++ frames (conn.rtb.head ++ conn.earlyRtb) := by
      rw [held, hfrq, hrest]
    rw [hheld, held, List.perm_iff_count]
    intro fr
    simp only [List.count_append]
    omega
  · rcases List.mem_append.mp hfr with hfr | hfr
    · obtain ⟨mfr, rfl⟩ := hcreated fr hfr
      rfl
    · exact hfs fr hfr
  · rw [hrest]
    exact ⟨hinv.rtb, hinv.nodup, hinv.fresh⟩

theorem FrqWritten.state_spec {ppe : Ppe} {w : Written} {created cancelled : List Frame}
    (h : FrqWritten conn ppe w created cancelled conn') :
    conn'.frq = conn.frq ∧ conn'.rtb = conn.rtb ∧
      conn'.earlyRtb = conn.earlyRtb ∧ conn'.nextAddr = conn.nextAddr := by
  obtain ⟨b, u, -, -, _, _, _, _, _, _, rfl⟩ := h.state
  exact ⟨rfl, rfl, rfl, rfl⟩

theorem PktWritten.entriesInv {r : Except Err (Option Pkt)} (hinv : EntriesInv conn)
    (h : PktWritten conn r conn') :
    EntriesInv conn' := by
  have hfilled : ∀ {ppe w created cancelled conn₁} (frq : List Frame),
      FrqWritten conn ppe w created cancelled conn₁ → EntriesInv (conn₁.setFrq frq) := by
    intro ppe w created cancelled conn₁ frq hf
    obtain ⟨-, hrtb, hearly, hnext⟩ := hf.state_spec
    refine ⟨?_, ?_, ?_⟩
    · exact hrtb ▸ hinv.rtb
    · change (addrs (conn₁.rtb.head ++ conn₁.earlyRtb)).Nodup
      rw [hrtb, hearly]
      exact hinv.nodup
    · change ∀ a ∈ addrs (conn₁.rtb.head ++ conn₁.earlyRtb), a < conn₁.nextAddr
      rw [hrtb, hearly, hnext]
      exact hinv.fresh
  cases h with
  | nothing => exact hinv
  | noBuf quiet => exact quiet.entriesInv hinv
  | empty filled result => exact hfilled _ filled
  | sent filled sends => exact sends.entriesInv (hfilled _ filled)

theorem PktWritten.accounts {r : Except Err (Option Pkt)} (h : PktWritten conn r conn') :
    (∃ created cancelled, (held conn' ++ cancelled).Perm (held conn ++ created) ∧
      (∀ fr ∈ created, fr.creatable = true) ∧ ∀ fr ∈ cancelled, frqCancelled conn fr = true) ∧
      ∀ pkt, r = .ok (some pkt) → Kept conn' pkt := by
  cases h with
  | nothing => exact ⟨⟨[], [], by simp, by simp, by simp⟩, by simp⟩
  | noBuf quiet => exact ⟨⟨[], [], by simp [quiet.held], by simp, by simp⟩, by simp⟩
  | @empty ppe w created cancelled conn₁ r filled result =>
    obtain ⟨-, hrtb, hearly, -⟩ := filled.state_spec
    refine ⟨⟨created, cancelled, ?_, fun fr hfr => ?_, filled.cancelled⟩, fun pkt hpkt => ?_⟩
    · have hperm := filled.perm
      rw [List.perm_iff_count] at hperm ⊢
      intro fr
      have hperm := hperm fr
      simp only [held, Conn.setFrq, hrtb, hearly, List.count_append] at hperm ⊢
      omega
    · obtain ⟨n, rfl⟩ := filled.created fr hfr
      rfl
    · rcases result with rfl | rfl <;> simp at hpkt
  | @sent ppe w created cancelled conn₁ conn' pkt filled sends =>
    obtain ⟨-, hrtb, hearly, -⟩ := filled.state_spec
    obtain ⟨hsent, hkept⟩ := sends.held
    refine ⟨⟨created, cancelled, ?_, fun fr hfr => ?_, filled.cancelled⟩, fun pkt' hpkt => ?_⟩
    · have hperm := filled.perm
      rw [List.perm_iff_count] at hperm hsent ⊢
      intro fr
      have hperm := hperm fr
      have hsent := hsent fr
      simp only [held, Conn.setFrq, hrtb, hearly, List.count_append] at hperm hsent ⊢
      omega
    · obtain ⟨n, rfl⟩ := filled.created fr hfr
      rfl
    · obtain rfl := Option.some.inj (Except.ok.inj hpkt)
      exact hkept

/-- `conn_write_pkt`. -/
theorem connWritePkt_accounts {destlen ts : Nat} {r : Except Err (Option Pkt)}
    (hkeyed : StrmsKeyed conn)
    (h : connWritePkt conn destlen ts = (r, conn')) (hr : ¬Fatal r) :
    (EntriesInv conn → EntriesInv conn') ∧
    (∃ created cancelled, Accounts conn conn' created cancelled []) ∧
      ∀ pkt, r = .ok (some pkt) → Kept conn' pkt := by
  rcases connWritePkt_cases h with hfatal | ⟨conn₁, ackfr, conn₂, hq, hqueue, hw⟩
  · exact absurd hfatal hr
  have hkeyed₁ : StrmsKeyed conn₁ := by
    obtain ⟨_, _, _, _, _, _, rfl⟩ := hq
    exact hkeyed
  obtain ⟨created₁, hperm₁, hcreated₁, hinv₁, hcancel₁⟩ := queued_spec hkeyed₁ hqueue
  obtain ⟨⟨created₂, cancelled, hperm₂, hcreated₂, hcancel₂⟩, hkept⟩ := hw.accounts
  refine ⟨fun hinv => hw.entriesInv (hinv₁ (hq.entriesInv hinv)),
    ⟨created₁ ++ created₂, cancelled, ?_, ?_, ?_,
    List.nil_subperm⟩, hkept⟩
  · rw [hq.held] at hperm₁
    rw [List.perm_iff_count] at hperm₁ hperm₂ ⊢
    intro fr
    have h₁ := hperm₁ fr
    have h₂ := hperm₂ fr
    simp only [List.count_append, List.flatten_nil, List.count_nil] at h₁ h₂ ⊢
    omega
  · intro fr hfr
    rcases List.mem_append.mp hfr with hfr | hfr
    · exact hcreated₁ fr hfr
    · exact hcreated₂ fr hfr
  · intro fr hfr
    exact (hq.mayCancel fr).mp (.inr (hcancel₁ fr (hcancel₂ fr hfr)))

end

/-! ## The whole call -/

/-- An entry of the 0-RTT list as it enters the buffer. -/
def earlyEntry (rejected : Bool) (ent : RtbEntry) : RtbEntry :=
    if rejected then { ent with expiry := 0 } else ent

section
variable {conn conn₁ conn' : Conn} {destlen ts : Nat} {r : Except Err (Option Pkt)}

@[simp] theorem earlyEntry_addr (rejected : Bool) (ent : RtbEntry) :
    (earlyEntry rejected ent).addr = ent.addr := by
  unfold earlyEntry
  split <;> rfl

@[simp] theorem earlyEntry_frc (rejected : Bool) (ent : RtbEntry) :
    (earlyEntry rejected ent).frc = ent.frc := by
  unfold earlyEntry
  split <;> rfl

@[simp] theorem earlyEntry_hd (rejected : Bool) (ent : RtbEntry) :
    (earlyEntry rejected ent).hd = ent.hd := by
  unfold earlyEntry
  split <;> rfl

/-- The 0-RTT entries are pushed one after the other. -/
theorem foldl_rtbAdd_spec (f : RtbEntry → RtbEntry) (haddr : ∀ ent, (f ent).addr = ent.addr)
    (ents : List RtbEntry)
    {rtb : Rtb} (hinv : RtbInv rtb) (hnodup : (addrs (rtb.head ++ ents)).Nodup) :
    RtbInv (ents.foldl (fun rtb ent => rtbAdd rtb (f ent)) rtb) ∧
      (ents.foldl (fun rtb ent => rtbAdd rtb (f ent)) rtb).head =
      (ents.map f).reverse ++ rtb.head := by
  induction ents generalizing rtb with
  | nil => exact ⟨hinv, rfl⟩
  | cons ent ents ih =>
    have hperm : (addrs (rtb.head ++ ent :: ents)).Perm (ent.addr :: addrs (rtb.head ++ ents)) :=
      List.Perm.map RtbEntry.addr List.perm_middle
    obtain ⟨hnot, hrest⟩ := List.nodup_cons.mp (hperm.nodup_iff.mp hnodup)
    have hnew : (f ent).addr ∉ addrs rtb.head := by
      rw [haddr]
      intro hc
      apply hnot
      rw [addrs, List.map_append]
      exact List.mem_append_left _ hc
    have hnodup' : (addrs ((rtbAdd rtb (f ent)).head ++ ents)).Nodup := by
      change (((f ent).addr :: addrs (rtb.head ++ ents))).Nodup
      rw [haddr]
      exact List.nodup_cons.mpr ⟨hnot, hrest⟩
    obtain ⟨hinv', hhead⟩ := ih (hinv.add hnew) hnodup'
    refine ⟨hinv', ?_⟩
    rw [List.foldl_cons, hhead]
    simp [rtbAdd]

theorem connProcessEarlyRtb_spec (hinv : EntriesInv conn) : EntriesInv (connProcessEarlyRtb conn) ∧
    (connProcessEarlyRtb conn).rtb.head =
    (conn.earlyRtb.map (earlyEntry conn.earlyDataRejected)).reverse ++
      conn.rtb.head := by
  obtain ⟨hrtb, hhead⟩ := foldl_rtbAdd_spec (earlyEntry conn.earlyDataRejected)
    (earlyEntry_addr _) conn.earlyRtb
    hinv.rtb hinv.nodup
  have hperm : (addrs ((connProcessEarlyRtb conn).rtb.head ++ [])).Perm
    (addrs (conn.rtb.head ++ conn.earlyRtb)) := by
    have hhead' : (connProcessEarlyRtb conn).rtb.head = _ := hhead
    rw [hhead', List.append_nil, addrs, addrs, List.map_append, List.map_append, List.map_reverse,
      List.map_map]
    refine (List.perm_append_comm.trans (List.Perm.append_left _ ?_))
    refine (List.reverse_perm _).trans (.of_eq (List.map_congr_left fun ent _ => ?_))
    simp
  refine ⟨⟨hrtb, hperm.nodup_iff.mpr hinv.nodup, fun a ha => ?_⟩, hhead⟩
  exact hinv.fresh a (hperm.subset ha)

/-- The hand-over of the 0-RTT entries keeps the books. -/
theorem connProcessEarlyRtb_settled (hinv : EntriesInv conn) :
    Settled conn (connProcessEarlyRtb conn) [] [] := by
  obtain ⟨-, hhead⟩ := connProcessEarlyRtb_spec hinv
  have hframes : frames (conn.earlyRtb.map (earlyEntry conn.earlyDataRejected)) =
    frames conn.earlyRtb := by
    rw [frames, List.flatMap_map]
    exact congrArg (fun f => List.flatMap f conn.earlyRtb) (funext fun ent => earlyEntry_frc _ ent)
  refine ⟨⟨?_, by simp, by simp, List.nil_subperm⟩, ?_, fun fr hfr => ?_⟩
  · have hrev := frames_perm
      (List.reverse_perm (conn.earlyRtb.map (earlyEntry conn.earlyDataRejected)))
    rw [hframes, List.perm_iff_count] at hrev
    rw [List.perm_iff_count]
    intro fr
    have hrev := hrev fr
    have hearly : (connProcessEarlyRtb conn).earlyRtb = [] := rfl
    have hfrq : (connProcessEarlyRtb conn).frq = conn.frq := rfl
    simp only [held, hhead, hearly, hfrq, frames_append, frames_nil, List.count_append,
      List.flatten_nil,
      List.count_nil] at hrev ⊢
    omega
  · rw [List.nil_append, obsoleteChains, obsoleteChains, hhead]
    have hprot : (connProcessEarlyRtb conn).recvProtectedPkt = conn.recvProtectedPkt := rfl
    have hearly : (connProcessEarlyRtb conn).earlyRtb = [] := rfl
    rw [hprot, hearly, List.append_nil]
    split
    · refine List.Perm.subperm ?_
      have hmap : ∀ ents : List RtbEntry,
          ((ents.map (earlyEntry conn.earlyDataRejected)).filter (·.hd.longForm)).map (·.frc) =
            (ents.filter (·.hd.longForm)).map (·.frc) := by
        intro ents
        induction ents with
        | nil => rfl
        | cons ent ents ih =>
          by_cases hlong : ent.hd.longForm <;> simp [hlong] at ih ⊢ <;> exact ih
      rw [List.filter_append, List.filter_append, List.map_append, List.map_append,
        List.filter_reverse,
        List.map_reverse, hmap]
      exact List.perm_append_comm.trans (List.Perm.append_left _ (List.reverse_perm _))
    · exact .refl _
  · cases fr <;> exact hfr

theorem setTxBuf0_held (conn : Conn) (payload : List UInt8) :
    held (setTxBuf0 conn payload) = held conn ∧
    (EntriesInv conn → EntriesInv (setTxBuf0 conn payload)) := by
  unfold setTxBuf0
  split
  · exact ⟨rfl, id⟩
  · exact ⟨rfl, fun hinv => ⟨hinv.rtb, hinv.nodup, hinv.fresh⟩⟩

theorem setLastTxPktNum_held (conn : Conn) (lastTxPktNum : Nat) :
    held (conn.setLastTxPktNum lastTxPktNum) = held conn ∧
      (EntriesInv conn → EntriesInv (conn.setLastTxPktNum lastTxPktNum)) :=
  ⟨rfl, fun hinv => ⟨hinv.rtb, hinv.nodup, hinv.fresh⟩⟩

theorem setInitialPktNum_held (conn : Conn) (lastTxPktNum : Nat) :
    held (setInitialPktNum conn lastTxPktNum) = held conn ∧
      (EntriesInv conn → EntriesInv (setInitialPktNum conn lastTxPktNum)) :=
  ⟨rfl, fun hinv => ⟨⟨hinv.rtb.perm, hinv.rtb.nodup, hinv.rtb.bytes⟩, hinv.nodup, hinv.fresh⟩⟩

theorem HsPrepared.held (h : HsPrepared conn conn') :
    held conn' = held conn ∧ (EntriesInv conn → EntriesInv conn') := by
  have htell : ∀ ev payload, Ngtcp2.held (setTxBuf0 (conn.tell ev) payload) = Ngtcp2.held conn ∧
      (EntriesInv conn → EntriesInv (setTxBuf0 (conn.tell ev) payload)) := fun ev payload =>
    ⟨(setTxBuf0_held _ _).1, fun hinv => (setTxBuf0_held _ _).2 ⟨hinv.rtb, hinv.nodup, hinv.fresh⟩⟩
  cases h with
  | buffered rest => exact ⟨rfl, id⟩
  | clientInitial state answer =>
    obtain ⟨hheld, hinv⟩ := htell .sendClientInitial _
    split
    · exact ⟨hheld, hinv⟩
    · exact ⟨(setLastTxPktNum_held _ _).1.trans hheld,
        fun h => (setLastTxPktNum_held _ _).2 (hinv h)⟩
  | clientHandshake empty answer => exact htell _ _
  | serverHandshake empty answer => exact htell _ _
  | serverInitial empty state answer =>
    obtain ⟨hheld, hinv⟩ := htell .sendServerHandshake _
    exact ⟨(setInitialPktNum_held _ _).1.trans hheld,
      fun h => (setInitialPktNum_held _ _).2 (hinv h)⟩
  | serverRest rest state => exact setInitialPktNum_held conn _

theorem HsCall.entriesInv (hinv : EntriesInv conn) (h : HsCall conn r conn') :
    EntriesInv conn' := by
  cases h with
  | written prepared written => exact written.entriesInv (prepared.held.2 hinv)
  | acked written => exact written.entriesInv hinv
  | failed quiet => exact quiet.entriesInv hinv

theorem HsCall.accounts (h : HsCall conn r conn') :
    (∃ created, Accounts conn conn' created [] []) ∧ ∀ pkt, r = .ok (some pkt) →
    Kept conn' pkt := by
  cases h with
  | @written conn₁ conn' r prepared written =>
    obtain ⟨⟨created, hacc⟩, hkept⟩ := written.accounts
    refine ⟨⟨created, .of_perm ?_ hacc.created⟩, fun pkt hpkt => ?_⟩
    · have hperm := hacc.perm
      rw [prepared.held.1] at hperm
      simpa using hperm
    · cases r with
      | error e => simp [Except.map] at hpkt
      | ok pkt' =>
        obtain rfl := Option.some.inj (Except.ok.inj hpkt)
        exact hkept pkt' rfl
  | acked written => exact ⟨⟨[], written.accounts.1⟩, written.accounts.2⟩
  | failed quiet => exact ⟨⟨[], .of_held quiet.held⟩, by simp⟩

theorem GoesOn.entriesInv (hinv : EntriesInv conn) (hkeyed : StrmsKeyed conn)
    (h : GoesOn destlen ts conn r conn')
    (hr : ¬Fatal r) : EntriesInv conn' := by
  cases h with
  | handshake call state =>
    have := call.entriesInv hinv
    exact ⟨this.rtb, this.nodup, this.fresh⟩
  | @early conn₁ conn' r quiet state call =>
    have hinv₁ := quiet.entriesInv hinv
    have hinv₂ : EntriesInv (conn₁.setState .postHandshake) := ⟨hinv₁.rtb, hinv₁.nodup, hinv₁.fresh⟩
    exact connRetransmit_entriesInv (connProcessEarlyRtb_spec hinv₂).1 call hr
  | refused quiet =>
    have := quiet.entriesInv hinv
    exact ⟨this.rtb, this.nodup, this.fresh⟩
  | pkt state call => exact (connWritePkt_accounts hkeyed call hr).1 hinv
  | idle => exact hinv

theorem GoesOn.accounts (hinv : EntriesInv conn) (hkeyed : StrmsKeyed conn)
    (h : GoesOn destlen ts conn r conn')
    (hr : (∃ v, r = .ok v) ∨ r = .error .noBuf) :
    (∃ created cancelled dropped, Accounts conn conn' created cancelled dropped) ∧
      ∀ pkt, r = .ok (some pkt) → Kept conn' pkt := by
  have hr' : ¬Fatal r := by
    rintro ⟨e, rfl, hfatal⟩
    rcases hr with ⟨v, hv⟩ | he
    · simp at hv
    · obtain rfl := Except.error.inj he
      simp [Err.isFatal] at hfatal
  cases h with
  | handshake call state =>
    obtain ⟨⟨created, hacc⟩, hkept⟩ := call.accounts
    exact ⟨⟨created, [], [], hacc.perm, hacc.created, hacc.cancelled, hacc.dropped⟩, hkept⟩
  | @early conn₁ conn' r quiet state call =>
    have hinv₁ := quiet.entriesInv hinv
    have hinv₂ : EntriesInv (conn₁.setState .postHandshake) := ⟨hinv₁.rtb, hinv₁.nodup, hinv₁.fresh⟩
    obtain ⟨⟨cancelled, dropped, hacc⟩, hkept⟩ :=
      connRetransmit_accounts (connProcessEarlyRtb_spec hinv₂).1 call hr
    have hsettled := connProcessEarlyRtb_settled hinv₂
    have hstart : Settled conn (connProcessEarlyRtb (conn₁.setState .postHandshake)) [] [] := by
      have hobs : obsoleteChains (conn₁.setState .postHandshake) = obsoleteChains conn :=
        quiet.obsoleteChains
      have hheld : Ngtcp2.held (conn₁.setState .postHandshake) = Ngtcp2.held conn := quiet.held
      refine ⟨⟨?_, by simp, by simp, List.nil_subperm⟩, hobs ▸ hsettled.obsolete, fun fr hfr => ?_⟩
      · have := hsettled.accounts.perm
        rwa [hheld] at this
      · refine (quiet.mayCancel fr).mp ?_
        have := hsettled.mayCancel fr hfr
        cases fr <;> exact this
    exact ⟨⟨[], _, _, hstart.trans hacc⟩, hkept⟩
  | refused quiet => simp at hr
  | pkt state call =>
    obtain ⟨-, ⟨created, cancelled, hacc⟩, hkept⟩ := connWritePkt_accounts hkeyed call hr'
    exact ⟨⟨created, cancelled, [], hacc⟩, hkept⟩
  | idle => exact ⟨⟨[], [], [], .of_held rfl⟩, by simp⟩

/-- Every call that returns bytes, 0 or `NGTCP2_ERR_NOBUF` keeps all frames that it has no reason
to delete, and an emitted packet has its frames in its entry. -/
theorem ngtcp2ConnWritePkt_accounts (hinv : EntriesInv conn) (hkeyed : StrmsKeyed conn)
    (h : ngtcp2ConnWritePkt conn destlen ts = (r, conn'))
    (hr : (∃ v, r = .ok v) ∨ r = .error .noBuf) :
    (∃ created cancelled dropped, Accounts conn conn' created cancelled dropped) ∧
      ∀ pkt, r = .ok (some pkt) → Kept conn' pkt := by
  rcases ngtcp2ConnWritePkt_cases h with ⟨e, rfl, hfatal⟩ | ⟨rfl, -⟩ | ⟨-, hcall⟩
      | ⟨conn₁, hcall, hgoes⟩
  · rcases hr with ⟨v, hv⟩ | he
    · simp at hv
    · obtain rfl := Except.error.inj he
      simp [Err.isFatal] at hfatal
  · simp at hr
  · obtain ⟨⟨cancelled, dropped, hacc⟩, hkept⟩ := connRetransmit_accounts hinv hcall hr
    exact ⟨⟨[], cancelled, dropped, hacc⟩, hkept⟩
  · obtain ⟨hinv₁, hstrms, c₁, d₁, hsettled⟩ := connRetransmit_settled hinv hcall
    have hkeyed₁ : StrmsKeyed conn₁ := by
      rw [StrmsKeyed, hstrms]
      exact hkeyed
    obtain ⟨⟨created, c₂, d₂, hacc⟩, hkept⟩ := hgoes.accounts hinv₁ hkeyed₁ hr
    exact ⟨⟨created, c₁ ++ c₂, d₁ ++ d₂, hsettled.trans hacc⟩, hkept⟩

end

/-- A server after the handshake that has to answer a PING. -/
def pongServer : Conn :=
  { ngtcp2ConnServerNew (fun _ => 0) 1 1 quietCallbacks ⟨100, 100, 100, 100, 0⟩ with
    state := .postHandshake
    txCkm := some ⟨[], []⟩
    frq := [.pong [1]] }

theorem pongServer_entriesInv : EntriesInv pongServer := ⟨rtbInit_inv, by decide, by decide⟩

theorem pongServer_keyed : StrmsKeyed pongServer := by
  intro id strm h
  have h : (if id = 0 then some (strmInit 0 100 strm0MaxStreamData fun _ => 0) else none) =
    some strm := h
  split at h
  · next hid =>
    obtain rfl := Option.some.inj h
    exact hid.symm
  · cases h

theorem ngtcp2ConnWritePkt_accounts_pong :
    (∃ created cancelled dropped,
    Accounts pongServer (ngtcp2ConnWritePkt pongServer 100 0).2 created cancelled dropped) ∧
      ∀ pkt, (ngtcp2ConnWritePkt pongServer 100 0).1 = .ok (some pkt) →
        Kept (ngtcp2ConnWritePkt pongServer 100 0).2 pkt :=
  ngtcp2ConnWritePkt_accounts pongServer_entriesInv pongServer_keyed (Prod.eta _).symm
    (.inl ⟨_, rfl⟩)

/-- A server whose TLS handshake failed, with an alert to send. -/
def failedServer : Conn :=
  { ngtcp2ConnServerNew (fun _ => 0) 1 1
      { quietCallbacks with sendServerHandshake := fun _ => some (0, [21]) } ⟨100, 100, 100, 100,
        0⟩ with
    state := .serverTlsHandshakeFailed
    hsTxCkm := some ⟨[], []⟩ }

theorem ngtcp2ConnWritePkt_creates_close :
    (∃ pkt, (ngtcp2ConnWritePkt failedServer 100 0).1 = .ok (some pkt)) ∧
      ¬∃ created cancelled dropped,
        Accounts failedServer (ngtcp2ConnWritePkt failedServer 100 0).2 created cancelled dropped ∧
          ∀ code reason, Frame.connectionClose code reason ∉ created := by
  refine ⟨⟨_, rfl⟩, ?_⟩
  rintro ⟨created, cancelled, dropped, hacc, hnone⟩
  have hheld : held failedServer = [] := rfl
  have hmem : Frame.connectionClose tlsHandshakeFailed [] ∈ held
    (ngtcp2ConnWritePkt failedServer 100 0).2 := by decide
  have hmem' := hacc.perm.subset (List.mem_append_left _ (List.mem_append_left _ hmem))
  rw [hheld, List.nil_append] at hmem'
  exact hnone _ _ hmem'

end Ngtcp2
