import Polygon.SentAcks

/-!
# The packets that are reported as acknowledged

The end of a received packet puts its number into the tracker. A received ACK frame reports only
packets with an entry in the retransmission buffer, under a number that it covers.
-/
namespace Ngtcp2

/-- The packet whose processing a step ends. -/
def Op.finishes : Op → Option Nat
  | recvPktEnd pktNum .. => some pktNum
  | recvHandshakePktEnd _ _ pktNum .. => some pktNum
  | _ => none

/-- The changes that touch the tracker, queue frames of any type or report a packet. -/
def Kind.acks : Kind → Bool
  | .timer | .push | .frq | .pktAcked => true
  | _ => false

/-- The kind of the changes that log the event, for closed streams and acknowledged packets. -/
def Event.madeBy : Event → Kind
  | .streamClose .. => .close
  | .pktAcked .. => .pktAcked
  | _ => .idle

/-- The tracker is the same, no ACK frame was queued, and the packets that are reported as
acknowledged have entries with `P`. -/
structure Reports (P : RtbEntry → Prop) (conn conn' : Conn) : Prop where
  acktr : conn'.acktr = conn.acktr
  frq : ∀ fr, .ack fr ∈ conn'.frq → .ack fr ∈ conn.frq
  acked : ∀ n frc, .pktAcked n frc ∈ conn'.log →
    .pktAcked n frc ∈ conn.log ∨ ∃ ent, P ent ∧ ent.hd.pktNum = n ∧ ent.frc = frc

section
variable {H : List Frame} {K : List Kind} {k : Kind} {S : Nat → Prop} {P : RtbEntry → Prop}
  {conn conn₁ conn' : Conn} {n : Nat} {frc : List Frame} {ent : RtbEntry} {ents : List RtbEntry}

theorem Reports.refl (conn : Conn) : Reports P conn conn := ⟨rfl, fun _ => id, fun _ _ => .inl⟩

theorem Reports.trans (h : Reports P conn conn₁) (h' : Reports P conn₁ conn') :
    Reports P conn conn' := by
  refine ⟨h'.acktr.trans h.acktr, fun fr hfr => h.frq fr (h'.frq fr hfr), fun n frc hev => ?_⟩
  rcases h'.acked n frc hev with hev | hent
  · exact h.acked n frc hev
  · exact .inr hent

theorem TracksIn.reports (h : TracksIn S conn) (hrep : Reports P conn conn') :
    TracksIn S conn' := by
  refine ⟨hrep.acktr ▸ h.wf, hrep.acktr ▸ h.nums, fun fr hfr => ?_⟩
  cases fr with
  | ack fr => exact h.frq _ (hrep.frq fr hfr)
  | _ => trivial

theorem TracksIn.mono {S' : Nat → Prop} (h : TracksIn S conn) (hS : ∀ n, S n → S' n) :
    TracksIn S' conn :=
  ⟨h.wf, fun e he => hS _ (h.nums e he), fun fr hfr => (h.frq fr hfr).mono hS⟩

/-! ## Changes that report nothing -/

/-- Only changes of one kind log the event. -/
theorem Change.event_old {ev : Event} (h : Change H k conn conn') (hev : ev.madeBy ≠ .idle)
    (hk : k ≠ ev.madeBy) (hmem : ev ∈ conn'.log) : ev ∈ conn.log := by
  have happend : ∀ {evs : List Event}, conn'.log = conn.log ++ evs → (∀ ev' ∈ evs, ev' ≠ ev) →
      ev ∈ conn.log := by
    intro evs hlog hevs
    rw [hlog] at hmem
    exact (List.mem_append.mp hmem).resolve_right fun hin => hevs _ hin rfl
  have hone : ∀ {ev' : Event}, conn'.log = conn.log ++ [ev'] →
      ev'.madeBy = .idle ∨ ev'.madeBy = k → ev ∈ conn.log := by
    intro ev' hlog hmade
    refine happend hlog fun ev'' hin heq => ?_
    obtain rfl := heq ▸ List.mem_singleton.mp hin
    exact hmade.elim hev fun hkind => hk hkind.symm
  have hloud : ev.silent = false := by
    cases ev with
    | pktAcked => rfl
    | streamClose => rfl
    | _ => exact absurd rfl hev
  cases h with
  | idle same =>
    obtain ⟨evs, hsilent, hlog⟩ := same.log
    refine happend hlog ?_
    rintro ev' hin rfl
    exact Bool.false_ne_true (hloud.symm.trans (hsilent _ hin))
  | encrypt => exact hone rfl (.inl rfl)
  | rx find tx zero rxOffset evs told fc =>
    refine happend rfl ?_
    rintro ev' hin rfl
    rcases told _ hin with hs | ⟨_, _, rfl⟩ | ⟨-, _, rfl⟩
    · exact Bool.false_ne_true (hloud.symm.trans hs)
    · exact hev rfl
    · exact hev rfl
  | openRemote => exact hone (openRemote_log ..) (.inl rfl)
  | openLocal => exact hone (openLocal_log ..) (.inl rfl)
  | consume =>
    rw [consumeId_log] at hmem
    exact hmem
  | close => exact hone (closeStrm_log ..) (.inr rfl)
  | raiseIds =>
    rw [Conn.setIds_log] at hmem
    exact hmem
  | rst => exact hone rfl (.inl rfl)
  | pktAcked => exact hone rfl (.inr rfl)
  | @tx _ strm fr hd find id unshut offset strmCredit connCredit num form ts pktlen =>
    have hlog : (trackStreamPkt conn hd fr ts pktlen).log = conn.log := by
      unfold trackStreamPkt
      split <;> rfl
    exact hlog ▸ (show _ ∈ (trackStreamPkt conn hd fr ts pktlen).log from hmem)
  | _ => exact hmem

theorem Changes.event_old {ev : Event} (h : Changes H K conn conn') (hev : ev.madeBy ≠ .idle)
    (hK : ev.madeBy ∉ K) (hmem : ev ∈ conn'.log) : ev ∈ conn.log :=
  h.keeps (fun c => ev ∈ c.log → ev ∈ conn.log)
    (fun _ hk _ _ hP hc hin => hP (hc.event_old hev (fun he => hK (he ▸ hk)) hin)) id hmem

theorem Change.reports (h : Change H k conn conn') (hk : k.acks = false) :
    Reports P conn conn' := by
  have hacked : ∀ n frc, .pktAcked n frc ∈ conn'.log → .pktAcked n frc ∈ conn.log ∨
      ∃ ent, P ent ∧ ent.hd.pktNum = n ∧ ent.frc = frc := by
    intro n frc hev
    refine .inl (h.event_old nofun ?_ hev)
    rintro rfl
    cases hk
  have hids : ∀ (conn₁ : Conn) (bidi : Bool) (ids : StreamIds),
      (conn₁.setIds bidi ids).acktr = conn₁.acktr ∧ (conn₁.setIds bidi ids).frq = conn₁.frq := by
    intro conn₁ bidi ids
    cases bidi <;> exact ⟨rfl, rfl⟩
  have hsame : conn'.acktr = conn.acktr ∧ conn'.frq = conn.frq → Reports P conn conn' :=
    fun heq => ⟨heq.1, fun fr hfr => heq.2 ▸ hfr, hacked⟩
  have hcons : ∀ {fr₀ : Frame}, conn'.acktr = conn.acktr → conn'.frq = fr₀ :: conn.frq →
      (∀ fr, .ack fr ≠ fr₀) → Reports P conn conn' := by
    intro fr₀ hacktr hfrq hne
    refine ⟨hacktr, fun fr hfr => ?_, hacked⟩
    rw [hfrq] at hfr
    exact (List.mem_cons.mp hfr).resolve_left (hne fr)
  cases h with
  | idle same => exact hsame ⟨same.acktr, same.frq⟩
  | announce => exact hcons rfl rfl nofun
  | announceStrm => exact hcons rfl rfl nofun
  | rst => exact hcons rfl rfl nofun
  | openRemote => exact hsame (hids _ _ _)
  | openLocal => exact hsame (hids _ _ _)
  | consume => exact hsame (hids _ _ _)
  | close => exact hsame (hids _ _ _)
  | raiseIds => exact hsame (hids _ _ _)
  | @tx _ strm fr hd find id unshut offset strmCredit connCredit num form ts pktlen =>
    have hkept : (trackStreamPkt conn hd fr ts pktlen).acktr = conn.acktr ∧
        (trackStreamPkt conn hd fr ts pktlen).frq = conn.frq := by
      unfold trackStreamPkt
      split <;> exact ⟨rfl, rfl⟩
    exact hsame hkept
  | timer => cases hk
  | push => cases hk
  | pktAcked => cases hk
  | frq => cases hk
  | _ => exact hsame ⟨rfl, rfl⟩

theorem Changes.reports (h : Changes H K conn conn') (hK : ∀ k ∈ K, k.acks = false) :
    Reports P conn conn' :=
  h.keeps (Reports P conn ·) (fun k hk _ _ hP hc => hP.trans (hc.reports (hK k hk))) (.refl conn)

/-! ## A received ACK frame -/

theorem rtbOnAcked_reports {r : Except Err Unit} (hkeyed : StrmsKeyed conn) (hP : P ent)
    (h : rtbOnAcked conn ent = (r, conn')) (hr : ¬Fatal r) :
    Reports P conn conn' ∧ StrmsKeyed conn' := by
  unfold rtbOnAcked at h
  dsimp only at h
  generalize hev : Event.pktAcked ent.hd.pktNum ent.frc = ev at h
  have htell : Reports P conn (conn.tell ev) := by
    refine ⟨rfl, fun _ => id, fun n frc hmem => ?_⟩
    rcases List.mem_append.mp hmem with hmem | hmem
    · exact .inl hmem
    · obtain ⟨rfl, rfl⟩ := Event.pktAcked.inj ((List.mem_singleton.mp hmem).trans hev.symm)
      exact .inr ⟨ent, hP, rfl, rfl⟩
  have hpkt : Event.pktAcked ent.hd.pktNum ent.frc ∈ (conn.tell ev).log :=
    hev ▸ List.mem_append_right _ (List.mem_singleton_self _)
  have hcall : ∀ {x : Except Err Unit} {conn₁ : Conn},
      (if (conn.tell ev).callbacks.ackedStreamDataOffset then
        callAckedStreamOffset ent.frc (conn.tell ev) else (.ok (), conn.tell ev)) = (x, conn₁) →
      ¬Fatal x → Reports P conn conn₁ ∧ StrmsKeyed conn₁ := by
    intro x conn₁ hx hne
    split at hx
    · have hkeyed₁ : StrmsKeyed (conn.tell ev) := hkeyed
      have hch := callAckedStreamOffset_changes (H := ent.frc) hkeyed₁ (fun _ => id) hpkt
        (List.Subset.refl _) hx hne
      exact ⟨htell.trans (hch.reports (by simp [Kind.acks])), hch.keyed hkeyed⟩
    · obtain ⟨-, rfl⟩ := Prod.mk.inj hx
      exact ⟨htell, hkeyed⟩
  rcases andThen_cases h with ⟨e, hx, rfl⟩ | ⟨x, conn₁, hx, h⟩
  · exact hcall hx hr
  · obtain ⟨hrep, hkeyed₁⟩ := hcall hx (not_fatal_ok _)
    split at h
    · obtain ⟨-, rfl⟩ := Prod.mk.inj h
      exact ⟨hrep, hkeyed₁⟩
    · obtain ⟨-, rfl⟩ := Prod.mk.inj h
      exact ⟨⟨hrep.acktr, hrep.frq, hrep.acked⟩, hkeyed₁⟩

/-- The loop over a range reports entries in the range, and leaves entries of the list. -/
structure RangeDone (P : RtbEntry → Prop) (ents : List RtbEntry) (conn : Conn)
    (r : Except Err (List RtbEntry)) (conn' : Conn) : Prop where
  reports : Reports P conn conn'
  keyed : StrmsKeyed conn'
  rest : ∀ ents', r = .ok ents' → ents' ⊆ ents

theorem RangeDone.stop (hkeyed : StrmsKeyed conn) : RangeDone P ents conn (.ok ents) conn := by
  refine ⟨.refl conn, hkeyed, fun ents' he => ?_⟩
  obtain rfl := Except.ok.inj he
  exact List.Subset.refl _

theorem RangeDone.cons {r : Except Err (List RtbEntry)} (hrep : Reports P conn conn₁)
    (h : RangeDone P ents conn₁ r conn') : RangeDone P (ent :: ents) conn r conn' :=
  ⟨hrep.trans h.reports, h.keyed, fun ents' he => List.subset_cons_of_subset _ (h.rest ents' he)⟩

/-- An entry of the range is reported before the loop goes on behind it. -/
theorem RangeDone.acked {r : Except Err (List RtbEntry)} {f : Conn → Result (List RtbEntry)}
    (hkeyed : StrmsKeyed conn) (hP : P ent) (hr : ¬Fatal r)
    (h : ((rtbOnAcked conn ent).andThen fun _ conn => f conn) = (r, conn'))
    (hnext : ∀ conn₁, StrmsKeyed conn₁ → f conn₁ = (r, conn') →
      RangeDone P ents conn₁ r conn') : RangeDone P (ent :: ents) conn r conn' := by
  rcases andThen_cases h with ⟨e, hx, rfl⟩ | ⟨x, conn₁, hx, h⟩
  · obtain ⟨hrep, hkeyed'⟩ := rtbOnAcked_reports hkeyed hP hx fun hf => hr hf.cast
    exact ⟨hrep, hkeyed', nofun⟩
  · obtain ⟨hrep, hkeyed₁⟩ := rtbOnAcked_reports hkeyed hP hx (not_fatal_ok _)
    exact .cons hrep (hnext conn₁ hkeyed₁ h)

variable {unprotected : Bool} {minAck largestAck : Nat} {blks : List AckBlk}

theorem rtbRecvAckFirst_reports {r : Except Err (List RtbEntry)} (hkeyed : StrmsKeyed conn)
    (hP : ∀ ent ∈ ents, minAck ≤ ent.hd.pktNum → ent.hd.pktNum ≤ largestAck → P ent)
    (h : rtbRecvAckFirst unprotected minAck largestAck ents conn = (r, conn')) (hr : ¬Fatal r) :
    RangeDone P ents conn r conn' := by
  induction ents generalizing conn with
  | nil =>
    obtain ⟨rfl, rfl⟩ := Prod.mk.inj h
    exact .stop hkeyed
  | cons ent ents ih =>
    have hP' : ∀ e ∈ ents, minAck ≤ e.hd.pktNum → e.hd.pktNum ≤ largestAck → P e :=
      fun e he => hP e (List.mem_cons_of_mem _ he)
    unfold rtbRecvAckFirst at h
    split at h
    · next hrange =>
      split at h
      · exact .cons (.refl conn) (ih hkeyed hP' h)
      · exact .acked hkeyed (hP ent List.mem_cons_self hrange.1 hrange.2) hr h
          fun conn₁ hkeyed₁ h => ih hkeyed₁ hP' h
    · obtain ⟨rfl, rfl⟩ := Prod.mk.inj h
      exact .stop hkeyed

theorem rtbRecvAckBlk_reports {r : Except Err (List RtbEntry)} (hkeyed : StrmsKeyed conn)
    (hP : ∀ ent ∈ ents, minAck ≤ ent.hd.pktNum → ent.hd.pktNum ≤ largestAck → P ent)
    (h : rtbRecvAckBlk unprotected minAck largestAck ents conn = (r, conn')) (hr : ¬Fatal r) :
    RangeDone P ents conn r conn' := by
  induction ents generalizing conn with
  | nil =>
    obtain ⟨rfl, rfl⟩ := Prod.mk.inj h
    exact .stop hkeyed
  | cons ent ents ih =>
    have hP' : ∀ e ∈ ents, minAck ≤ e.hd.pktNum → e.hd.pktNum ≤ largestAck → P e :=
      fun e he => hP e (List.mem_cons_of_mem _ he)
    unfold rtbRecvAckBlk at h
    split at h
    · exact .cons (.refl conn) (ih hkeyed hP' h)
    next hhi =>
    split at h
    · obtain ⟨rfl, rfl⟩ := Prod.mk.inj h
      exact .stop hkeyed
    next hlo =>
    split at h
    · exact .cons (.refl conn) (ih hkeyed hP' h)
    · exact .acked hkeyed
        (hP ent List.mem_cons_self (Nat.le_of_not_lt hlo) (Nat.le_of_not_lt hhi)) hr h
        fun conn₁ hkeyed₁ h => ih hkeyed₁ hP' h

theorem rtbRecvAckBlks_reports {r : Except Err Unit} (hkeyed : StrmsKeyed conn)
    (hvalid : validateAckBlks minAck blks = true) (hmin : minAck < 2 ^ 64)
    (hP : ∀ ent ∈ ents, InAckBlks minAck blks ent.hd.pktNum → P ent)
    (h : rtbRecvAckBlks unprotected minAck blks ents conn = (r, conn')) (hr : ¬Fatal r) :
    Reports P conn conn' := by
  induction blks generalizing minAck ents conn with
  | nil =>
    obtain ⟨-, rfl⟩ := Prod.mk.inj h
    exact .refl conn
  | cons blk blks ih =>
    cases ents with
    | nil =>
      obtain ⟨-, rfl⟩ := Prod.mk.inj h
      exact .refl conn
    | cons ent ents =>
      obtain ⟨hgap, hlen, hrest⟩ := validateAckBlks_cons hvalid hmin
      have hin := fun n => inAckBlks_cons (n := n) hvalid hmin
      unfold rtbRecvAckBlks at h
      generalize ackBlkRange minAck blk = range at h hgap hlen hrest hin
      obtain ⟨lo, hi⟩ := range
      dsimp only at h hgap hlen hrest hin
      have hrange : ∀ e ∈ ent :: ents, lo ≤ e.hd.pktNum → e.hd.pktNum ≤ hi → P e :=
        fun e he hge hle => hP e he ((hin _).mpr (.inl ⟨hge, hle⟩))
      rcases andThen_cases h with ⟨e, hx, rfl⟩ | ⟨ents', conn₁, hx, h⟩
      · exact (rtbRecvAckBlk_reports hkeyed hrange hx fun hf => hr hf.cast).reports
      · have hdone := rtbRecvAckBlk_reports hkeyed hrange hx (not_fatal_ok _)
        refine hdone.reports.trans (ih hdone.keyed hrest (by omega) (fun e he hbelow => ?_) h)
        exact hP e (hdone.rest _ rfl he) ((hin _).mpr (.inr hbelow))

/-- An ACK frame that is not valid is refused, any other one reports entries that it covers. -/
theorem connRecvAck_reports {fr : AckFrame} {r : Except Err Unit} (hkeyed : StrmsKeyed conn)
    (hlt : fr.largestAck < 2 ^ 64) (h : connRecvAck conn fr unprotected = (r, conn'))
    (hr : ¬Fatal r) : ∃ acktr, acktr.ent.Sublist conn.acktr.ent ∧
      Reports (fun ent => ent ∈ unacked conn ∧ fr.Covers ent.hd.pktNum) (conn.setAcktr acktr)
        conn' := by
  unfold connRecvAck at h
  split at h
  · next hvalid =>
    have hwf : fr.Wf := ⟨hvalid, hlt⟩
    obtain ⟨hsub, hle, hblks⟩ := hwf.first
    refine ⟨_, acktrRecvAck_sublist conn.acktr fr unprotected, ?_⟩
    unfold ngtcp2RtbRecvAck at h
    dsimp only at h
    rw [hsub] at h
    generalize acktrRecvAck conn.acktr fr unprotected = acktr at h ⊢
    have hmem : ∀ ent ∈ (conn.setAcktr acktr).rtb.head.dropWhile
        fun ent => fr.largestAck < ent.hd.pktNum, ent ∈ unacked conn :=
      fun ent hent => List.mem_append_left _ ((List.dropWhile_sublist _).subset hent)
    generalize (conn.setAcktr acktr).rtb.head.dropWhile _ = ents at h hmem
    have hkeyed₁ : StrmsKeyed (conn.setAcktr acktr) := hkeyed
    generalize conn.setAcktr acktr = conn₁ at h hkeyed₁ ⊢
    have hfirst : ∀ ent ∈ ents, fr.largestAck - fr.firstAckBlklen ≤ ent.hd.pktNum →
        ent.hd.pktNum ≤ fr.largestAck → ent ∈ unacked conn ∧ fr.Covers ent.hd.pktNum := by
      intro ent hent hge hle
      refine ⟨hmem ent hent, ?_⟩
      rw [hwf.covers, hsub]
      exact .inl ⟨hge, hle⟩
    rcases andThen_cases h with ⟨e, hx, rfl⟩ | ⟨ents', conn₂, hx, h⟩
    · exact (rtbRecvAckFirst_reports hkeyed₁ hfirst hx fun hf => hr hf.cast).reports
    · have hdone := rtbRecvAckFirst_reports hkeyed₁ hfirst hx (not_fatal_ok _)
      refine hdone.reports.trans
        (rtbRecvAckBlks_reports hdone.keyed hblks (by omega) (fun ent hent hbelow => ?_) h hr)
      refine ⟨hmem ent (hdone.rest _ rfl hent), ?_⟩
      rw [hwf.covers, hsub]
      exact .inr hbelow
  · obtain ⟨-, rfl⟩ := Prod.mk.inj h
    exact ⟨conn.acktr, .refl _, .refl conn⟩

/-! ## Steps -/

theorem acktrAdd_mem {acktr acktr' : Acktr} {ent : AcktrEntry} {activeAck : Bool}
    (hwf : acktr.Wf) (h : acktrAdd acktr ent activeAck = some acktr') :
    ∀ e ∈ acktr'.ent, e = ent ∨ e ∈ acktr.ent := by
  obtain ⟨es, hes, rfl⟩ := Option.map_eq_some_iff.mp h
  have hmem : ∀ e ∈ es, e = ent ∨ e ∈ acktr.ent := fun e he =>
    List.mem_cons.mp ((acktrInsert_some hwf.desc hes).1.subset he)
  intro e he
  dsimp only at he
  split at he
  · exact hmem e (List.mem_of_mem_dropLast he)
  · exact hmem e he

/-- The number of the packet is the only one that the tracker gets. -/
theorem ngtcp2ConnSchedAck_in {pktNum ts : Nat} {activeAck : Bool} {r : Except Err Unit}
    (h : TracksIn S conn) (hlt : pktNum < 2 ^ 64)
    (hcall : ngtcp2ConnSchedAck conn pktNum activeAck ts unprotected = (r, conn')) :
    TracksIn (fun n => S n ∨ n = pktNum) conn' := by
  have hold : TracksIn (fun n => S n ∨ n = pktNum) conn := h.mono fun n => .inl
  unfold ngtcp2ConnSchedAck at hcall
  split at hcall
  · obtain ⟨-, rfl⟩ := Prod.mk.inj hcall
    exact hold
  · next acktr hadd =>
    have hwf := (acktrAdd_cases h.wf hlt hadd).1
    have hnums : ∀ e ∈ acktr.ent, S e.pktNum ∨ e.pktNum = pktNum := by
      intro e he
      rcases acktrAdd_mem h.wf hadd e he with rfl | he
      · exact .inr rfl
      · exact .inl (h.nums e he)
    dsimp only at hcall
    split at hcall
    · obtain ⟨-, rfl⟩ := Prod.mk.inj hcall
      exact ⟨hwf, hnums, hold.frq⟩
    · obtain ⟨-, rfl⟩ := Prod.mk.inj hcall
      exact ⟨hwf, hnums, hold.frq⟩

theorem connRecvAck_in {fr : AckFrame} {r : Except Err Unit} (h : TracksIn S conn)
    (hkeyed : StrmsKeyed conn) (hlt : fr.largestAck < 2 ^ 64)
    (hcall : connRecvAck conn fr unprotected = (r, conn')) (hr : ¬Fatal r) : TracksIn S conn' := by
  obtain ⟨acktr, hsub, hrep⟩ := connRecvAck_reports hkeyed hlt hcall hr
  have hless : TracksIn S (conn.setAcktr acktr) :=
    ⟨h.wf.sublist hsub, fun e he => h.nums e (hsub.subset he), h.frq⟩
  exact hless.reports hrep

theorem TracksIn.push {fr : Frame} (h : TracksIn S conn) (hfr : fr.AcksIn S) :
    TracksIn S (conn.setFrq (fr :: conn.frq)) := ⟨h.wf, h.nums, h.frq.cons hfr⟩

theorem connShutdownStreamWrite_in {strm : Strm} (h : TracksIn S conn) (appErrorCode : Nat) :
    TracksIn S (connShutdownStreamWrite conn strm appErrorCode).2 := by
  unfold connShutdownStreamWrite
  split
  · exact h
  · exact ⟨h.wf, h.nums, h.frq.cons trivial⟩

theorem connShutdownStreamRead_in {strm : Strm} (h : TracksIn S conn) (appErrorCode : Nat) :
    TracksIn S (connShutdownStreamRead conn strm appErrorCode).2 := by
  unfold connShutdownStreamRead connStopSending fcUnlink
  split
  · exact h
  dsimp only
  split <;> exact ⟨h.wf, h.nums, h.frq.cons trivial⟩

theorem withShutdownStrm_in {streamId appErrorCode : Nat} {f : Strm → Conn} {r : Except Err Unit}
    (h : TracksIn S conn) (hf : ∀ strm, TracksIn S (f strm))
    (hcall : withShutdownStrm conn streamId appErrorCode f = (r, conn')) : TracksIn S conn' := by
  unfold withShutdownStrm at hcall
  split at hcall
  · obtain ⟨-, rfl⟩ := Prod.mk.inj hcall
    exact h
  split at hcall
  · obtain ⟨-, rfl⟩ := Prod.mk.inj hcall
    exact h
  · obtain ⟨-, rfl⟩ := Prod.mk.inj hcall
    exact hf _

/-- The ACK frames that a step reads have numbers of 64 bits, as have the packets it ends. -/
structure Op.AckSized (op : Op) : Prop where
  acks : ∀ fr, .ack fr ∈ op.readFrames → fr.largestAck < 2 ^ 64
  finishes : ∀ n, op.finishes = some n → n < 2 ^ 64

/-- The number of a handshake packet whose end is no accepted Retry. -/
theorem connRecvHandshakePktEnd_in {type : PktType} {failed requireAck : Bool} {pktNum ts : Nat}
    {r : Except Err Unit} (h : TracksIn S conn) (hlt : pktNum < 2 ^ 64)
    (hretry : (Op.recvHandshakePktEnd type failed pktNum requireAck ts).completesRetry conn = false)
    (hcall : connRecvHandshakePktEnd conn type failed pktNum requireAck ts = (r, conn')) :
    TracksIn (fun n => S n ∨ n = pktNum) conn' := by
  have hmax : TracksIn S { conn with maxRxPktNum := max conn.maxRxPktNum pktNum } :=
    ⟨h.wf, h.nums, h.frq⟩
  rw [connRecvHandshakePktEnd_eq] at hcall
  split at hcall
  · obtain ⟨-, rfl⟩ := Prod.mk.inj hcall
    exact h.mono fun n => .inl
  next hempty =>
  split at hcall
  · next htype =>
    cases hfailed : failed with
    | true =>
      rw [if_pos hfailed] at hcall
      obtain ⟨-, rfl⟩ := Prod.mk.inj hcall
      exact hmax.mono fun n => .inl
    | false =>
      have hsome : stream0Empty conn = false :=
        Bool.eq_false_iff.mpr fun hc => hempty ⟨.inr htype, hc⟩
      rw [htype, hfailed, Op.completesRetry, hsome] at hretry
      cases hretry
  · rcases andThen_cases hcall with ⟨e, hsched, rfl⟩ | ⟨a, conn₁, hsched, hcall⟩
    · exact ngtcp2ConnSchedAck_in hmax hlt hsched
    · have hin := ngtcp2ConnSchedAck_in hmax hlt hsched
      split at hcall
      · obtain ⟨-, rfl⟩ := Prod.mk.inj hcall
        exact hin
      · obtain ⟨-, rfl⟩ := Prod.mk.inj hcall
        exact hin

variable {ops : List Op} {op : Op}

/-- A step that reads an ACK frame processes it, or leaves the connection as it is. -/
theorem Step.readsAck {fr : AckFrame} (hstep : Step ops conn op conn')
    (hread : .ack fr ∈ op.readFrames) : conn' = conn ∨ ∃ unprotected r,
      connRecvAck conn fr unprotected = (r, conn') ∧ ¬Fatal r := by
  obtain ⟨rv, hrun, hs⟩ := hstep
  have hrv := not_fatal_of_survives hs
  cases op with
  | recvFrame longForm fr' =>
    obtain rfl := List.mem_singleton.mp hread
    exact .inr ⟨_, rv, hrun, hrv⟩
  | recvDelayedHandshakeFrame type fr' =>
    obtain rfl := List.mem_singleton.mp hread
    simp only [Op.run, connRecvDelayedHandshakeFrame] at hrun
    split at hrun
    · obtain ⟨-, rfl⟩ := Prod.mk.inj hrun
      exact .inl rfl
    · exact .inr ⟨_, rv, hrun, hrv⟩
  | recvHandshakeFrame type failed fr' =>
    obtain rfl := List.mem_singleton.mp hread
    obtain ⟨x, hx, herr⟩ := void_cases hrun
    have hne := not_fatal_of_void herr hrv
    simp only [connRecvHandshakeFrame] at hx
    split at hx
    · obtain ⟨-, rfl⟩ := Prod.mk.inj hx
      exact .inl rfl
    rcases andThen_cases hx with ⟨e, hcall, rfl⟩ | ⟨a, conn₁, hcall, hx⟩
    · exact .inr ⟨_, _, hcall, fun hf => hne hf.cast⟩
    · obtain ⟨-, rfl⟩ := Prod.mk.inj hx
      exact .inr ⟨_, _, hcall, not_fatal_ok _⟩
  | _ => cases hread

theorem Op.kinds_pktAcked (h : ∀ fr, .ack fr ∉ op.readFrames) : .pktAcked ∉ op.kinds := by
  cases op with
  | recvFrame longForm fr =>
    cases fr with
    | ack fr => exact absurd (List.mem_singleton_self _) (h fr)
    | _ => simp [Op.kinds, Frame.recvKinds, streamKinds]
  | recvDelayedHandshakeFrame type fr =>
    cases fr with
    | ack fr => exact absurd (List.mem_singleton_self _) (h fr)
    | _ => simp [Op.kinds, Frame.recvDelayedKinds, streamKinds]
  | recvHandshakeFrame type failed fr =>
    cases fr with
    | ack fr => exact absurd (List.mem_singleton_self _) (h fr)
    | _ => simp [Op.kinds, Frame.recvHandshakeKinds]
  | _ =>
    simp [Op.kinds, retryKinds, streamTxKinds, writeKinds, resendKinds, closeKinds, shutdownKinds]

/-- A step that sends no packet puts only the number of the packet it ends into the tracker. -/
theorem Step.tracksIn (hwf : WellFormed conn) (hstep : Step ops conn op conn')
    (hw : op.writesPkt = false) (hretry : op.completesRetry conn = false) (hsize : op.AckSized)
    (h : TracksIn S conn) : TracksIn (fun n => S n ∨ op.finishes = some n) conn' := by
  have hsame : TracksIn S conn' → TracksIn (fun n => S n ∨ op.finishes = some n) conn' :=
    fun h => h.mono fun n => .inl
  have hkinds : (∀ k ∈ op.kinds, k.acks = false) →
      TracksIn (fun n => S n ∨ op.finishes = some n) conn' := by
    intro hK
    have hrep : Reports (fun _ => False) conn conn' := by
      refine (Step.changes hwf hstep).reports fun k hk => ?_
      rcases List.mem_cons.mp hk with rfl | hk
      · rfl
      · exact hK k hk
    exact hsame (h.reports hrep)
  have hack : ∀ fr, .ack fr ∈ op.readFrames →
      TracksIn (fun n => S n ∨ op.finishes = some n) conn' := by
    intro fr hread
    rcases hstep.readsAck hread with rfl | ⟨unprotected, r, hcall, hr⟩
    · exact hsame h
    · exact hsame (connRecvAck_in h hwf.keyed (hsize.acks fr hread) hcall hr)
  have hend : ∀ {pktNum : Nat}, op.finishes = some pktNum →
      TracksIn (fun n => S n ∨ n = pktNum) conn' →
      TracksIn (fun n => S n ∨ op.finishes = some n) conn' := by
    intro pktNum hfin h
    refine h.mono fun n hn => ?_
    rw [hfin]
    exact hn.imp_right fun heq => congrArg some heq.symm
  obtain ⟨rv, hrun, -⟩ := hstep
  cases op with
  | recvFrame longForm fr =>
    cases fr with
    | ack fr => exact hack fr (List.mem_singleton_self _)
    | ping data =>
      obtain ⟨-, rfl⟩ := Prod.mk.inj hrun
      refine hsame ?_
      unfold connRecvPing
      split
      · exact h
      · exact h.push trivial
    | _ => exact hkinds (by simp [Op.kinds, Frame.recvKinds, streamKinds, Kind.acks])
  | recvDelayedHandshakeFrame type fr =>
    cases fr with
    | ack fr => exact hack fr (List.mem_singleton_self _)
    | _ => exact hkinds (by simp [Op.kinds, Frame.recvDelayedKinds, streamKinds, Kind.acks])
  | recvHandshakeFrame type failed fr =>
    cases fr with
    | ack fr => exact hack fr (List.mem_singleton_self _)
    | _ => exact hkinds (by simp [Op.kinds, Frame.recvHandshakeKinds, Kind.acks])
  | recvPktEnd pktNum requireAck unprotected ts =>
    have hmax : TracksIn S { conn with maxRxPktNum := max conn.maxRxPktNum pktNum } :=
      ⟨h.wf, h.nums, h.frq⟩
    exact hend rfl (ngtcp2ConnSchedAck_in hmax (hsize.finishes pktNum rfl) hrun)
  | recvHandshakePktEnd type failed pktNum requireAck ts =>
    exact hend rfl (connRecvHandshakePktEnd_in h (hsize.finishes pktNum rfl) hretry hrun)
  | shutdownStream streamId appErrorCode =>
    refine hsame (withShutdownStrm_in h (fun strm => ?_) hrun)
    exact connShutdownStreamWrite_in (connShutdownStreamRead_in h appErrorCode) appErrorCode
  | shutdownStreamWrite streamId appErrorCode =>
    exact hsame (withShutdownStrm_in h (fun _ => connShutdownStreamWrite_in h appErrorCode) hrun)
  | shutdownStreamRead streamId appErrorCode =>
    exact hsame (withShutdownStrm_in h (fun _ => connShutdownStreamRead_in h appErrorCode) hrun)
  | writeStream => cases hw
  | writePkt => cases hw
  | writeAckPkt => cases hw
  | writeConnectionClose => cases hw
  | writeApplicationClose => cases hw
  | _ => exact hkinds (by simp [Op.kinds, Kind.acks])

/-- A packet that is reported as acknowledged has an entry, and the step reads an ACK frame that
covers it. -/
theorem Step.acked (hwf : WellFormed conn) (hstep : Step ops conn op conn')
    (hsize : op.AckSized) (hev : .pktAcked n frc ∈ conn'.log) :
    .pktAcked n frc ∈ conn.log ∨ ∃ fr, .ack fr ∈ op.readFrames ∧ fr.Covers n ∧
      ∃ ent ∈ unacked conn, ent.hd.pktNum = n ∧ ent.frc = frc := by
  by_cases hreads : ∃ fr, .ack fr ∈ op.readFrames
  · obtain ⟨fr, hread⟩ := hreads
    rcases hstep.readsAck hread with rfl | ⟨unprotected, r, hcall, hr⟩
    · exact .inl hev
    obtain ⟨acktr, -, hrep⟩ := connRecvAck_reports hwf.keyed (hsize.acks fr hread) hcall hr
    rcases hrep.acked n frc hev with hold | ⟨ent, ⟨hent, hcovers⟩, rfl, rfl⟩
    · exact .inl hold
    · exact .inr ⟨fr, hread, hcovers, ent, hent, rfl, rfl⟩
  · have hK : .pktAcked ∉ .timeout :: op.kinds := by
      simpa using Op.kinds_pktAcked (not_exists.mp hreads)
    refine .inl ((Step.changes hwf hstep).event_old ?_ hK hev)
    simp [Event.madeBy]

end

end Ngtcp2
