import Mathlib.Logic.Function.Iterate
import Polygon.StopSendingOrder

/-!
# Credit for the peer's streams

Closing a stream of the peer gives it credit for another one, under a condition on the
ID tracker at that time. The credit of a whole run is what its steps earn.
-/
namespace Ngtcp2

open Ranges

/-- The stream that the event closes. -/
def Event.closed : Event → Option Nat
  | .streamClose id _ => some id
  | _ => none

/-- The streams that were closed, in order. -/
def closedIds (log : List Event) : List Nat := log.filterMap Event.closed

/-- The ID is the peer's, and of this type. -/
def peerStrm (conn : Conn) (bidi : Bool) (id : Nat) : Bool :=
    !connLocalStream conn id && bidiStream id == bidi

/-- What `handle_remote_stream_id_extension` does when its window condition holds. -/
def addCredit (unsent : Nat) : Nat := if unsent ≤ maxVarint - 4 then unsent + 4 else unsent

@[simp] theorem closedIds_append (log evs : List Event) :
    closedIds (log ++ evs) = closedIds log ++ closedIds evs :=
  List.filterMap_append

theorem mem_closedIds {log : List Event} {id : Nat} :
    id ∈ closedIds log ↔ ∃ code, .streamClose id code ∈ log := by
  unfold closedIds
  rw [List.mem_filterMap]
  constructor
  · rintro ⟨ev, hev, hid⟩
    cases ev with
    | streamClose i code =>
      obtain rfl := Option.some.inj hid
      exact ⟨code, hev⟩
    | _ => cases hid
  · rintro ⟨code, hev⟩
    exact ⟨_, hev, rfl⟩

theorem closedIds_count (log : List Event) (id : Nat) :
    (closedIds log).count id = closeCount id log := by
  induction log with
  | nil => rfl
  | cons ev log ih =>
    have hcons : closedIds (ev :: log) = closedIds [ev] ++ closedIds log :=
      closedIds_append [ev] log
    rw [hcons, List.count_append, ih]
    show _ = closeCount id ([ev] ++ log)
    rw [closeCount_append]
    congr 1
    cases ev <;> rfl

theorem closedIds_quiet {evs : List Event} (h : ∀ ev ∈ evs, ev.closed = none) :
    closedIds evs = [] :=
  List.filterMap_eq_nil_iff.mpr h

theorem Event.closed_of_neutral {ev : Event} (h : ev.neutral = true) : ev.closed = none := by
  cases ev <;> first | rfl | simp [Event.neutral] at h

section
variable {H : List Frame} {K : List Kind} {conn conn₁ conn' : Conn} {bidi : Bool} {id : Nat}

theorem peerStrm_congr (h : conn'.server = conn.server) (bidi : Bool) (id : Nat) :
    peerStrm conn' bidi id = peerStrm conn bidi id := by
  rw [peerStrm, peerStrm, connLocalStream_congr h]

theorem peerStrm_iff : peerStrm conn bidi id = true ↔ connLocalStream conn id = false ∧
    bidiStream id = bidi := by
  simp [peerStrm]

theorem handleRemoteStreamIdExtension_unsent (ids : StreamIds)
    (hstart : ids.remoteStreamIdWindowStart = 0) :
    (handleRemoteStreamIdExtension ids).unsentMaxRemoteStreamId =
      if 0 < idtrFirstGap ids.remoteIdtr then addCredit ids.unsentMaxRemoteStreamId else ids.unsentMaxRemoteStreamId := by
  unfold handleRemoteStreamIdExtension addCredit
  rw [hstart]
  split
  · next h => rw [if_pos h.2, if_pos h.1]
  · next h =>
    split
    · next hgap => rw [if_neg fun hle => h ⟨hle, hgap⟩]
    · rfl

/-! ## What a change does to the credit -/

/-- The credit for streams of the type and its window are the same. -/
structure SameCredit (bidi : Bool) (conn conn' : Conn) : Prop where
  unsent : (conn'.ids bidi).unsentMaxRemoteStreamId = (conn.ids bidi).unsentMaxRemoteStreamId
  start : (conn'.ids bidi).remoteStreamIdWindowStart = (conn.ids bidi).remoteStreamIdWindowStart
  closed : closedIds conn'.log = closedIds conn.log

/-- Trackers and counters written back. -/
theorem SameCredit.setIds (conn : Conn) (b : Bool) {ids : StreamIds}
    (unsent : ids.unsentMaxRemoteStreamId = (conn.ids b).unsentMaxRemoteStreamId)
    (start : ids.remoteStreamIdWindowStart = (conn.ids b).remoteStreamIdWindowStart) :
    SameCredit bidi conn (conn.setIds b ids) := by
  refine ⟨?_, ?_, by rw [Conn.setIds_log]⟩ <;> rw [Conn.ids_setIds] <;> split
  · next h => rw [h, unsent]
  · rfl
  · next h => rw [h, start]
  · rfl

/-- Nothing but the trackers changes the credit, unless a stream is closed. -/
theorem Change.sameCredit {k : Kind} (h : Change H k conn conn') (hk : k ≠ .close) (bidi : Bool) :
    SameCredit bidi conn conn' := by
  have hadd : ∀ {evs}, (∀ b, conn'.ids b = conn.ids b) → conn'.log = conn.log ++ evs →
    (∀ ev ∈ evs, ev.closed = none) →
      SameCredit bidi conn conn' := by
    intro evs hids hlog hevs
    refine ⟨by rw [hids], by rw [hids], ?_⟩
    rw [hlog, closedIds_append, closedIds_quiet hevs, List.append_nil]
  cases h with
  | idle same =>
    obtain ⟨evs, hsilent, hlog⟩ := same.log
    refine hadd (fun b => ?_) hlog fun ev hev =>
      Event.closed_of_neutral (Bool.and_eq_true_iff.mp (hsilent ev hev)).1
    simp only [Conn.ids, same.bidi, same.uni]
  | encrypt conn hd =>
    have hquiet : ∀ ev ∈ [Event.encrypt hd], ev.closed = none := by simp [Event.closed]
    exact hadd (fun _ => rfl) rfl hquiet
  | rx find tx zero rxOffset evs told =>
    refine hadd (fun _ => rfl) rfl fun ev hev => ?_
    rcases told ev hev with hsilent | ⟨fin, d, rfl⟩ | ⟨-, d, rfl⟩
    · exact Event.closed_of_neutral (Bool.and_eq_true_iff.mp hsilent).1
    · rfl
    · rfl
  | @openRemote _ streamId idtr none remote credit opens =>
    have hids : SameCredit bidi conn (conn.setIds (bidiStream streamId)
        { conn.ids (bidiStream streamId) with remoteIdtr := idtr }) := .setIds conn _ rfl rfl
    exact ⟨hids.unsent, hids.start,
      by rw [openRemote_log, closedIds_append]; exact List.append_nil _⟩
  | @openLocal _ strm b credit none init =>
    have hids : SameCredit bidi ((conn.setStrm strm).tell (.strmInit strm.streamId))
      (Ngtcp2.openLocal conn b strm) :=
      .setIds _ b rfl rfl
    exact ⟨hids.unsent, hids.start,
      by rw [openLocal_log, closedIds_append]; exact List.append_nil _⟩
  | @consume _ streamId nonzero none remote rxOffset =>
    have hids : SameCredit bidi conn (conn.setIds (bidiStream streamId)
        { conn.ids (bidiStream streamId) with
          remoteIdtr := (idtrOpen (conn.ids (bidiStream streamId)).remoteIdtr streamId).getD
            (conn.ids (bidiStream streamId)).remoteIdtr }) := .setIds conn _ rfl rfl
    exact ⟨hids.unsent, hids.start, by rw [consumeId_log]⟩
  | raiseIds conn b maxStreamId => exact .setIds conn b rfl rfl
  | limits => exact ⟨by cases bidi <;> rfl, by cases bidi <;> rfl, rfl⟩
  | @rst _ strm find code code' =>
    have hquiet : ∀ ev ∈ [Event.rstQueued strm.streamId], ev.closed = none := by simp [Event.closed]
    exact hadd (fun _ => rfl) rfl hquiet
  | @pktAcked _ pktNum frc held =>
    have hquiet : ∀ ev ∈ [Event.pktAcked pktNum frc], ev.closed = none := by simp [Event.closed]
    exact hadd (fun _ => rfl) rfl hquiet
  | tx =>
    unfold trackStreamPkt
    split <;> exact ⟨rfl, rfl, rfl⟩
  | frq => exact ⟨by cases bidi <;> rfl, by cases bidi <;> rfl, rfl⟩
  | close => exact absurd rfl hk
  | _ => exact ⟨rfl, rfl, rfl⟩

/-! ## The first ID of a type -/

theorem idtrOpenLoop_ends {q : Nat} {gs gs' : List Range} (ho : idtrOpenLoop q gs = some gs')
    (h : ∀ g ∈ gs, 0 < g.end_) : ∀ g ∈ gs', 0 < g.end_ := by
  induction gs generalizing gs' with
  | nil => simp [idtrOpenLoop] at ho
  | cons g gs ih =>
    obtain ⟨hg, hgs⟩ := List.forall_mem_cons.mp h
    simp only [idtrOpenLoop] at ho
    split at ho
    · cases ho
    split at ho
    · obtain ⟨gs₁, h₁, rfl⟩ := Option.map_eq_some_iff.mp ho
      exact List.forall_mem_cons.mpr ⟨hg, ih h₁ hgs⟩
    split at ho
    · split at ho
      · obtain rfl := Option.some.inj ho
        exact hgs
      · obtain rfl := Option.some.inj ho
        exact List.forall_mem_cons.mpr ⟨hg, hgs⟩
    · obtain rfl := Option.some.inj ho
      refine List.forall_mem_cons.mpr ⟨?_, List.forall_mem_cons.mpr ⟨hg, hgs⟩⟩
      show 0 < q
      omega

/-- The tracker's first gap is behind index 0 once index 0 is used. -/
theorem idtrFirstGap_pos {idtr : Idtr} (hs : Sorted 0 idtr.gap) (h : ∀ g ∈ idtr.gap, 0 < g.end_) :
    0 < idtrFirstGap idtr ↔ ¬InGap idtr.gap 0 := by
  unfold idtrFirstGap
  cases hgap : idtr.gap with
  | nil => simp [firstGap, uint64Max]
  | cons g gs =>
    rw [hgap] at hs h
    rw [firstGap_cons, inGap_cons, mem_range]
    have hg : 0 < g.end_ := h g List.mem_cons_self
    constructor
    · rintro hpos (hin | hin)
      · omega
      · have := hs.2.2.le_of_inGap hin
        omega
    · intro hn
      by_contra hzero
      exact hn (.inl ⟨by omega, hg⟩)

/-- What the credit relies on: the IDs are tracked, and stream 0 is never closed. -/
structure PeerInv (conn : Conn) : Prop where
  used : StrmsUsed conn
  crypto : ∃ strm0, conn.strms 0 = some strm0 ∧ strm0.shutRd = false
  ends : ∀ bidi, ∀ g ∈ (conn.ids bidi).remoteIdtr.gap, 0 < g.end_
  start : ∀ bidi, (conn.ids bidi).remoteStreamIdWindowStart = 0
  unclosed : 0 ∉ closedIds conn.log

/-- The first ID of the type was used. -/
theorem PeerInv.firstUsed (h : PeerInv conn) (bidi : Bool) :
    0 < idtrFirstGap (conn.ids bidi).remoteIdtr ↔ ¬InGap (conn.ids bidi).remoteIdtr.gap 0 :=
  idtrFirstGap_pos (h.used.ids.sorted bidi) (h.ends bidi)

/-- The end of the receive side of stream 0 never comes. -/
theorem Change.crypto {k : Kind} (h : Change H k conn conn')
    (hcrypto : ∃ strm0, conn.strms 0 = some strm0 ∧ strm0.shutRd = false) :
    ∃ strm0, conn'.strms 0 = some strm0 ∧ strm0.shutRd = false := by
  obtain ⟨strm0, hzero, hopen⟩ := hcrypto
  have hkeep : conn'.strms 0 = conn.strms 0 →
    ∃ strm0, conn'.strms 0 = some strm0 ∧ strm0.shutRd = false :=
    fun heq => ⟨strm0, heq.trans hzero, hopen⟩
  have hset : ∀ {strm strm' : Strm}, conn.strms strm.streamId = some strm →
    conn'.strms = (conn.setStrm strm').strms →
      strm'.streamId = strm.streamId → (strm.streamId = 0 → strm'.shutRd = strm.shutRd) →
      ∃ strm0, conn'.strms 0 = some strm0 ∧ strm0.shutRd = false := by
    intro strm strm' find hstrms hid hshut
    have h0 : conn'.strms 0 = if 0 = strm'.streamId then some strm' else conn.strms 0 := by
      rw [hstrms, Conn.setStrm_strms]
    by_cases heq : strm.streamId = 0
    · rw [heq, hzero] at find
      obtain rfl := Option.some.inj find
      rw [if_pos (hid.trans heq).symm] at h0
      exact ⟨strm', h0, (hshut heq).trans hopen⟩
    · rw [if_neg (by rw [hid]; exact Ne.symm heq)] at h0
      exact hkeep h0
  cases h with
  | idle same => exact hkeep (congrFun same.strms 0)
  | rx find tx zero => exact hset find rfl tx.streamId zero
  | window find tx rx => exact hset find rfl tx.streamId fun _ => rx.shutRd
  | announceStrm find => exact hset find rfl rfl fun _ => rfl
  | extend find tx rx => exact hset find rfl tx.streamId fun _ => rx.shutRd
  | @openRemote _ streamId idtr none remote credit opens =>
    have hne : (0 : Nat) ≠ streamId := by
      rintro rfl
      rw [hzero] at none
      cases none
    refine hkeep ?_
    show ((conn.setIds _ _).setStrm (openedStrm conn streamId)).strms 0 = _
    rw [Conn.setStrm_strms, openedStrm_streamId, if_neg hne, Conn.setIds_strms]
  | @openLocal _ strm b credit none init =>
    have hstrm : strm.streamId = (conn.ids b).nextLocalStreamId := by
      rcases init with rfl | rfl <;> rfl
    have hne : (0 : Nat) ≠ strm.streamId := by
      intro heq
      rw [← hstrm, ← heq, hzero] at none
      cases none
    refine hkeep ?_
    show (Conn.setIds _ b _).strms 0 = _
    rw [Conn.setIds_strms]
    show (conn.setStrm strm).strms 0 = _
    rw [Conn.setStrm_strms, if_neg hne]
  | consume => exact hkeep (congrFun (Conn.setIds_strms _ _ _) 0)
  | @close _ strm find shut code b unsent _ =>
    have hne : (0 : Nat) ≠ strm.streamId := by
      intro heq
      rw [← heq, hzero] at find
      obtain rfl := Option.some.inj find
      simp [strmShutRdwr, hopen] at shut
    refine hkeep ?_
    show (Conn.setIds _ b _).strms 0 = _
    rw [Conn.setIds_strms]
    exact if_neg hne
  | raiseStrm find => exact hset find rfl rfl fun _ => rfl
  | raiseIds => exact hkeep (congrFun (Conn.setIds_strms _ _ _) 0)
  | @limits0 _ strm0 find zero =>
    exact hset (zero ▸ find : conn.strms strm0.streamId = _) rfl rfl fun _ => rfl
  | rst find => exact hset find rfl rfl fun _ => rfl
  | acked find => exact hset find rfl rfl fun _ => rfl
  | @refill _ strm0 find zero =>
    exact hset (zero ▸ find : conn.strms strm0.streamId = _) rfl rfl fun _ => rfl
  | @advance _ strm0 find zero =>
    exact hset (zero ▸ find : conn.strms strm0.streamId = _) rfl rfl fun _ => rfl
  | restart =>
    have hfind : ∀ c : Conn, (c.setStrm (strmInit 0 conn.localSettings.maxStreamData.toNat strm0MaxStreamData conn.mem)).strms 0 =
      some (strmInit 0 conn.localSettings.maxStreamData.toNat strm0MaxStreamData conn.mem) :=
        fun c => setStrm_find c _
    exact ⟨_, hfind _, rfl⟩
  | @tx _ strm fr hd find =>
    have hsent : ∀ s : Strm, s =
      (if fr.fin then (strm.setTxOffset (strm.txOffset + fr.data.length)).shutdownWr
        else strm.setTxOffset (strm.txOffset + fr.data.length)) → s.streamId = strm.streamId ∧ s.shutRd = strm.shutRd := by
      rintro s rfl
      split <;> exact ⟨rfl, rfl⟩
    refine hset find ?_ (hsent _ rfl).1 fun _ => (hsent _ rfl).2
    unfold trackStreamPkt
    split <;> rfl
  | _ => exact hkeep rfl

/-- One stream was closed. -/
structure ClosesStrm (id : Nat) (conn conn' : Conn) : Prop where
  live : (conn.strms id).isSome = true
  nonzero : id ≠ 0
  closed : closedIds conn'.log = closedIds conn.log ++ [id]
  credit : ∀ bidi, (conn'.ids bidi).unsentMaxRemoteStreamId =
    if peerStrm conn bidi id = true ∧ 0 < idtrFirstGap (conn.ids bidi).remoteIdtr then
      addCredit (conn.ids bidi).unsentMaxRemoteStreamId else (conn.ids bidi).unsentMaxRemoteStreamId

theorem Change.closesStrm (h : Change H .close conn conn')
    (hcrypto : ∃ strm0, conn.strms 0 = some strm0 ∧ strm0.shutRd = false)
    (hstart : ∀ b, (conn.ids b).remoteStreamIdWindowStart = 0) :
    ∃ id, ClosesStrm id conn conn' := by
  cases h with
  | @close _ strm find shut code b unsent credit =>
    refine ⟨strm.streamId, by rw [find]; rfl, ?_, by rw [closeStrm_log, closedIds_append]; rfl, fun bidi => ?_⟩
    · intro hid
      obtain ⟨strm0, hzero, hopen⟩ := hcrypto
      rw [hid, hzero] at find
      obtain rfl := Option.some.inj find
      simp [strmShutRdwr, hopen] at shut
    · refine (congrArg StreamIds.unsentMaxRemoteStreamId (Conn.ids_setIds _ b bidi _)).trans ?_
      unfold CloseCredit at credit
      split at credit
      · next hloc =>
        have hpeer : ¬(peerStrm conn bidi strm.streamId = true ∧
          0 < idtrFirstGap (conn.ids bidi).remoteIdtr) := by
          rintro ⟨hp, -⟩
          rw [(peerStrm_iff.mp hp).1] at hloc
          cases hloc
        rw [if_neg hpeer]
        split
        · next hb => rw [hb, credit]
        · rfl
      · next hloc =>
        obtain ⟨rfl, rfl⟩ := credit
        rw [handleRemoteStreamIdExtension_unsent _ (hstart _)]
        by_cases hb : bidi = bidiStream strm.streamId
        · have hp : peerStrm conn bidi strm.streamId = true :=
            peerStrm_iff.mpr ⟨by simpa using hloc, hb.symm⟩
          rw [if_pos hb, ← hb]
          simp only [hp, true_and]
        · have hp : ¬(peerStrm conn bidi strm.streamId = true ∧
            0 < idtrFirstGap (conn.ids bidi).remoteIdtr) :=
            fun hp => hb (peerStrm_iff.mp hp.1).2.symm
          rw [if_neg hb, if_neg hp]
          rfl

theorem openId_ends (streamId : Nat) (h : ∀ b, ∀ g ∈ (conn.ids b).remoteIdtr.gap, 0 < g.end_) :
    ∀ b, ∀ g ∈ ((openId conn streamId).ids b).remoteIdtr.gap, 0 < g.end_ := by
  intro b
  unfold openId
  rw [Conn.ids_setIds]
  split
  · unfold idtrOpen
    cases ho : idtrOpenLoop (idFromStreamId streamId)
      (conn.ids (bidiStream streamId)).remoteIdtr.gap with
    | none => exact h _
    | some gs => exact idtrOpenLoop_ends ho (h _)
  · exact h b

theorem Change.ends {k : Kind} (h : Change H k conn conn')
    (hends : ∀ b, ∀ g ∈ (conn.ids b).remoteIdtr.gap, 0 < g.end_) :
    ∀ b, ∀ g ∈ (conn'.ids b).remoteIdtr.gap, 0 < g.end_ := by
  by_cases hk : k.keepsIds = true
  · intro b
    rw [(h.sameIds hk).remoteIdtr]
    exact hends b
  cases h with
  | @openRemote _ streamId idtr none remote credit opens =>
    rw [openRemote_eq opens]
    exact openId_ends streamId hends
  | @openLocal _ strm b' credit none init =>
    have hsame : ∀ b, ((Ngtcp2.openLocal conn b' strm).ids b).remoteIdtr =
      (conn.ids b).remoteIdtr := by
      intro b
      refine (congrArg StreamIds.remoteIdtr (Conn.ids_setIds _ b' b _)).trans ?_
      split
      · next h => rw [h]
      · rfl
    intro b
    rw [hsame]
    exact hends b
  | @consume _ streamId => exact openId_ends streamId hends
  | _ => simp [Kind.keepsIds] at hk

theorem Change.strmsUsed {k : Kind} (h : Change H k conn conn') (hused : StrmsUsed conn) :
    StrmsUsed conn' := by
  refine ⟨h.keyed hused.keyed, h.idsInv hused.ids, h.used hused.ids hused.zero,
    fun i hi hsome => ?_⟩
  cases h.idStep hused.ids hi with
  | keep evs used obj => exact used.mpr (hused.live i hi (obj.symm.trans hsome))
  | consume used => exact used
  | create _ used => exact used
  | close _ used obj => exact used.mpr (hused.live i hi obj)

theorem Change.start {k : Kind} (h : Change H k conn conn') (b : Bool) :
    (conn'.ids b).remoteStreamIdWindowStart = (conn.ids b).remoteStreamIdWindowStart := by
  by_cases hk : k = .close
  · cases h with
    | @close _ strm find shut code b' unsent credit =>
      refine (congrArg StreamIds.remoteStreamIdWindowStart (Conn.ids_setIds _ b' b _)).trans ?_
      split
      · next h => rw [h]
      · rfl
    | _ => cases hk
  · exact (h.sameCredit hk b).start

theorem Change.peerInv {k : Kind} (h : Change H k conn conn') (hinv : PeerInv conn) :
    PeerInv conn' := by
  refine ⟨h.strmsUsed hinv.used, h.crypto hinv.crypto, h.ends hinv.ends,
    fun b => (h.start b).trans (hinv.start b), ?_⟩
  by_cases hk : k = .close
  · subst hk
    obtain ⟨id, hclose⟩ := h.closesStrm hinv.crypto hinv.start
    rw [hclose.closed, List.mem_append, List.mem_singleton, not_or]
    exact ⟨hinv.unclosed, hclose.nonzero.symm⟩
  · rw [(h.sameCredit hk true).closed]
    exact hinv.unclosed

theorem Initial.peerInv (h : Initial conn) : PeerInv conn := by
  refine ⟨h.reachable.strmsUsed, ?_, ?_, ?_, by rw [h.log]; exact List.not_mem_nil⟩
  · cases h with
    | client => exact ⟨_, rfl, rfl⟩
    | server => exact ⟨_, rfl, rfl⟩
  · have hinit : ∀ g ∈ gapsInit, 0 < g.end_ := by decide
    cases h with
    | client =>
      intro b
      cases b <;> exact hinit
    | server mem connId version callbacks settings =>
      have hzero : ∀ b, ∀ g ∈ ((openId (connNew mem connId version callbacks settings true) 0).ids b).remoteIdtr.gap,
          0 < g.end_ := openId_ends 0 fun b => by cases b <;> exact hinit
      intro b
      cases b with
      | false => exact hinit
      | true => exact hzero true
  · cases h <;> (intro b; cases b <;> rfl)

theorem Reachable.peerInv (h : Reachable conn) : PeerInv conn := by
  obtain ⟨conn₀, ops, hinit, hrun⟩ := h
  refine (hrun.invariant (fun _ c => WellFormed c ∧ PeerInv c) ⟨hinit.wellFormed, hinit.peerInv⟩
    fun _ _ _ _ hP hstep => ⟨Step.wellFormed hP.1 hstep, ?_⟩).2
  exact (Step.changes hP.1 hstep).keeps PeerInv (fun _ _ _ _ hP hc => hc.peerInv hP) hP.2

/-! ## The IDs of the peer -/

/-- The ID with the given index among the peer's IDs of the type. -/
def peerId (conn : Conn) (bidi : Bool) (n : Nat) : Nat :=
  4 * n + (if bidi then 0 else 2) + if conn.server then 0 else 1

theorem peerId_peerStrm (conn : Conn) (bidi : Bool) (n : Nat) :
    peerStrm conn bidi (peerId conn bidi n) = true := by
  rw [peerStrm_iff]
  unfold peerId connLocalStream bidiStream
  cases conn.server <;> cases bidi <;> simp <;> omega

theorem idFromStreamId_peerId (conn : Conn) (bidi : Bool) (n : Nat) :
    idFromStreamId (peerId conn bidi n) = n := by
  unfold idFromStreamId peerId
  split <;> split <;> omega

theorem eq_peerId (h : peerStrm conn bidi id = true) :
    id = peerId conn bidi (idFromStreamId id) := by
  obtain ⟨hloc, hbidi⟩ := peerStrm_iff.mp h
  obtain ⟨hloc', hbidi'⟩ := peerStrm_iff.mp (peerId_peerStrm conn bidi (idFromStreamId id))
  exact idFromStreamId_inj (hloc.trans hloc'.symm) (hbidi.trans hbidi'.symm)
    (idFromStreamId_peerId ..).symm

theorem used_peerId (conn : Conn) (bidi : Bool) (n : Nat) :
    Used conn (peerId conn bidi n) ↔ ¬InGap (conn.ids bidi).remoteIdtr.gap n := by
  obtain ⟨hloc, hbidi⟩ := peerStrm_iff.mp (peerId_peerStrm conn bidi n)
  unfold Used
  rw [hloc, hbidi, idFromStreamId_peerId, if_neg Bool.false_ne_true]

theorem PeerInv.firstUsed_iff (h : PeerInv conn) (bidi : Bool) :
    0 < idtrFirstGap (conn.ids bidi).remoteIdtr ↔ Used conn (peerId conn bidi 0) := by
  rw [h.firstUsed, used_peerId]

/-! ## What a step earns -/

/-- The peer's streams of the type that the step closes. -/
def closedBy (bidi : Bool) (conn : Conn) (op : Op) : List Nat :=
  ((closedIds (op.run conn).2.log).drop (closedIds conn.log).length).filter (peerStrm conn bidi)

/-- When the step closes the stream, the first ID of its type is in use. -/
def earnsCredit (conn : Conn) (id : Nat) : Bool :=
  decide (0 < idtrFirstGap (conn.ids (bidiStream id)).remoteIdtr) || idFromStreamId id == 0

/-- The credit after the given streams of the type were closed, as far as the step can tell from where it starts. -/
structure Earned (bidi : Bool) (conn : Conn) (ids : List Nat) (conn' : Conn) : Prop where
  inv : PeerInv conn'
  server : conn'.server = conn.server
  used : ∀ id, Used conn id → Used conn' id
  closed : closedIds conn'.log = closedIds conn.log ++ ids
  unsent : (∃ id ∈ ids.filter (peerStrm conn bidi),
    earnsCredit conn id = false ∧ Used conn' (peerId conn bidi 0)) ∨
    (conn'.ids bidi).unsentMaxRemoteStreamId =
      addCredit^[(ids.filter (peerStrm conn bidi)).countP (earnsCredit conn)]
        (conn.ids bidi).unsentMaxRemoteStreamId

theorem Change.server {k : Kind} (h : Change H k conn conn') : conn'.server = conn.server := by
  by_cases hk : k.keepsIds = true
  · exact (h.sameIds hk).server
  cases h with
  | openRemote => exact Conn.setIds_server _ _ _
  | openLocal => exact Conn.setIds_server _ _ _
  | consume => exact Conn.setIds_server _ _ _
  | _ => simp [Kind.keepsIds] at hk

theorem peerId_congr (h : conn'.server = conn.server) (bidi : Bool) (n : Nat) :
    peerId conn' bidi n = peerId conn bidi n := by
  rw [peerId, peerId, h]

theorem Earned.change {k : Kind} {ids : List Nat} (h : Earned bidi conn ids conn₁)
    (hinv : PeerInv conn)
    (hch : Change H k conn₁ conn') : ∃ ids', Earned bidi conn ids' conn' := by
  have hserver := hch.server.trans h.server
  have hused : ∀ id, Used conn id → Used conn' id :=
    fun id hid => hch.used h.inv.used.ids (h.used id hid)
  have hfirst : Used conn₁ (peerId conn bidi 0) → Used conn' (peerId conn bidi 0) :=
    hch.used h.inv.used.ids
  by_cases hk : k = .close
  · subst hk
    obtain ⟨id, hclose⟩ := hch.closesStrm h.inv.crypto h.inv.start
    have hpeer : peerStrm conn₁ bidi id = peerStrm conn bidi id := peerStrm_congr h.server bidi id
    refine ⟨ids ++ [id], hch.peerInv h.inv, hserver, hused,
      by rw [hclose.closed, h.closed, List.append_assoc], ?_⟩
    rcases h.unsent with ⟨i, hi, hearn, hu⟩ | heq
    · exact .inl ⟨i, by rw [List.filter_append]; exact List.mem_append_left _ hi, hearn, hfirst hu⟩
    rw [hclose.credit, heq, List.filter_append, hpeer]
    cases hp : peerStrm conn bidi id with
    | false =>
      right
      simp [hp]
    | true =>
      rw [List.filter_cons_of_pos hp, List.filter_nil, List.countP_append, List.countP_singleton]
      have hfirst₁ : 0 < idtrFirstGap (conn₁.ids bidi).remoteIdtr ↔
        Used conn₁ (peerId conn bidi 0) := by
        rw [h.inv.firstUsed_iff, peerId_congr h.server]
      cases hearn : earnsCredit conn id with
      | false =>
        by_cases hgap : 0 < idtrFirstGap (conn₁.ids bidi).remoteIdtr
        · left
          exact ⟨id, by simp, hearn, hfirst (hfirst₁.mp hgap)⟩
        · right
          simp [hgap]
      | true =>
        have hgap : 0 < idtrFirstGap (conn₁.ids bidi).remoteIdtr := by
          rw [hfirst₁]
          simp only [earnsCredit, Bool.or_eq_true, decide_eq_true_eq, beq_iff_eq] at hearn
          rcases hearn with hgap | hzero
          · rw [(peerStrm_iff.mp hp).2] at hgap
            exact h.used _ ((hinv.firstUsed_iff bidi).mp hgap)
          · have hid := eq_peerId hp
            rw [hzero] at hid
            exact hid ▸ h.inv.used.live id hclose.nonzero hclose.live
        right
        simp only [hgap, and_self, if_true]
        rw [Function.iterate_succ_apply']
  · have hsame := hch.sameCredit hk bidi
    refine ⟨ids, hch.peerInv h.inv, hserver, hused, hsame.closed.trans h.closed, ?_⟩
    rcases h.unsent with ⟨i, hi, hearn, hu⟩ | heq
    · exact .inl ⟨i, hi, hearn, hfirst hu⟩
    · exact .inr (hsame.unsent.trans heq)

theorem Changes.earned (h : Changes H K conn conn') (hinv : PeerInv conn) (bidi : Bool) :
    ∃ ids, Earned bidi conn ids conn' := by
  refine h.keeps (fun c => ∃ ids, Earned bidi conn ids c) (fun k _ c c' hP hc => ?_)
    ⟨[], hinv, rfl, fun _ hid => hid, (List.append_nil _).symm, .inr rfl⟩
  obtain ⟨ids, hids⟩ := hP
  exact hids.change hinv hc

/-! ## Which streams a step finishes -/

/-- The IDs that the step uses up without a stream. -/
def resetBy (bidi : Bool) (conn : Conn) : Op → List Nat
  | .recvFrame _ (.rstStream fr) =>
    if unopened conn bidi fr.streamId && decide
      (fr.finalOffset ≤ conn.localSettings.maxStreamData.toNat) &&
        !connMaxDataViolated conn fr.finalOffset then [fr.streamId]
    else []
  | .recvFrame _ (.stopSending fr) => if unopened conn bidi fr.streamId then [fr.streamId] else []
  | _ => []
where
  /-- An ID of the peer that it may use and has not used. -/
  unopened (conn : Conn) (bidi : Bool) (id : Nat) : Bool :=
    peerStrm conn bidi id && (connCheckStreamId conn id).isNone &&
      (idtrOpen (conn.ids bidi).remoteIdtr id).isSome

theorem unopened_iff : resetBy.unopened conn bidi id = true ↔ peerStrm conn bidi id = true ∧
    connCheckStreamId conn id = none ∧ (idtrOpen (conn.ids bidi).remoteIdtr id).isSome = true := by
  simp [resetBy.unopened, and_assoc]

/-- The ID was not used, and nothing stops it from being used up. -/
theorem unopened_spec (h : resetBy.unopened conn bidi id = true) (hinv : PeerInv conn) :
    ¬Used conn id ∧ id ≠ 0 ∧
    conn.strms id = none ∧ connLocalStream conn id = false ∧
      ∃ idtr, idtrOpen (conn.ids (bidiStream id)).remoteIdtr id = some idtr ∧
        idtrIsOpen (conn.ids (bidiStream id)).remoteIdtr id = false := by
  obtain ⟨hpeer, -, hopen⟩ := unopened_iff.mp h
  obtain ⟨hloc, rfl⟩ := peerStrm_iff.mp hpeer
  obtain ⟨idtr, ho⟩ := Option.isSome_iff_exists.mp hopen
  have hnot := not_used_of_idtrOpen hinv.used.ids hloc ho
  have hne : id ≠ 0 := by
    rintro rfl
    exact hnot hinv.used.zero
  have hnone : conn.strms id = none := by
    cases hs : conn.strms id with
    | none => rfl
    | some strm => exact absurd (hinv.used.live id hne (by rw [hs]; rfl)) hnot
  refine ⟨hnot, hne, hnone, hloc, idtr, ho, ?_⟩
  obtain ⟨gs, hgs, -⟩ := Option.map_eq_some_iff.mp ho
  have hin := (idtrOpenLoop_some (hinv.used.ids.sorted _) hgs).1
  have hiff := idtrIsOpenLoop_iff (hinv.used.ids.sorted (bidiStream id)) ⟨_, Nat.le_refl _, hin⟩
  exact Bool.eq_false_iff.mpr fun hc => hiff.mp hc hin

theorem consumeId_used {rxOffset : Nat} (hinv : IdsInv conn)
    (hremote : connLocalStream conn id = false) (i : Nat) :
    Used (consumeId conn id rxOffset) i ↔ Used conn i ∨ i = id := by
  have hsame : SameIds (openId conn id) (consumeId conn id rxOffset) :=
    ⟨rfl, fun _ => rfl, fun _ => rfl⟩
  rw [hsame.used, openId_used hinv hremote]

theorem consumeId_strms (conn : Conn) (id rxOffset : Nat) :
    (consumeId conn id rxOffset).strms = conn.strms :=
  Conn.setIds_strms _ _ _

/-- A stream whose object and ID are as before was not closed. -/
theorem not_closed_of_same {ids : List Nat} (hlife : LifeInv id conn) (hid : id ≠ 0)
    (hch : Changes H K conn conn')
    (hlog : closedIds conn'.log = closedIds conn.log ++ ids) (hused : Used conn' id ↔ Used conn id)
    (hstrms : conn'.strms id = conn.strms id) : id ∉ ids := by
  intro hmem
  have hcount : closeCount id conn'.log = closeCount id conn.log + ids.count id := by
    rw [← closedIds_count, ← closedIds_count, hlog, List.count_append]
  have hpos : 0 < ids.count id := List.count_pos_iff.mpr hmem
  cases (hch.life hid hlife).phase with
  | unused _ _ quiet =>
    have := (quiet_counts quiet).2
    omega
  | live _ _ _ unclosed => omega
  | gone used noObj =>
    obtain ⟨-, evs, hlog', hquiet⟩ := hch.staysRetired hid hlife.ids ⟨hused.mp used, hstrms ▸ noObj⟩
    have hsame : closeCount id conn'.log = closeCount id conn.log := by
      rw [hlog', closeCount_append, (quiet_counts hquiet).2]
      rfl
    omega

/-- A STREAM frame leaves the other streams and IDs alone, and delivers nothing of another kind of stream. -/
theorem connRecvStream_elsewhere {fr : StreamFrame} {r : Except Err Unit} (hc : StrmsUsed conn)
    (h : connRecvStream conn fr = (r, conn')) {i : Nat} (hi : i ≠ fr.streamId) :
    conn'.strms i = conn.strms i ∧ (Used conn' i ↔ Used conn i) ∧
      ∃ evs, conn'.log = conn.log ++ evs ∧ ∀ ev ∈ evs, ev.fits fr.streamId := by
  by_cases hzero : fr.streamId = 0
  · have hon := connRecvStream_zero hc hzero h
    refine ⟨hon.others i (hzero ▸ hi), hon.ids.used i, ?_⟩
    rw [hzero]
    exact hon.told
  have hsame : ∀ {α : Type} {x y : Except Err α}, (x, conn) = (y, conn') →
      conn'.strms i = conn.strms i ∧ (Used conn' i ↔ Used conn i) ∧
        ∃ evs, conn'.log = conn.log ++ evs ∧ ∀ ev ∈ evs, ev.fits fr.streamId := fun h => by
    obtain ⟨-, rfl⟩ := Prod.mk.inj h
    exact ⟨rfl, Iff.rfl, [], (List.append_nil _).symm, by simp⟩
  have hfound : ∀ {c : Conn} {strm : Strm}, c.strms strm.streamId = some strm →
    strm.streamId = fr.streamId →
      ((connRecvStreamCharge c strm fr.endOffset).andThen fun _ c =>
        if fr.fin then connRecvStreamFin c strm fr else connRecvStreamNoFin c strm fr) = (r,
          conn') →
      conn'.strms i = c.strms i ∧ (Used conn' i ↔ Used c i) ∧
        ∃ evs, conn'.log = c.log ++ evs ∧ ∀ ev ∈ evs, ev.fits fr.streamId := by
    intro c strm find hid h
    have hcharge : ∀ {r₁ c₁}, connRecvStreamCharge c strm fr.endOffset = (r₁, c₁) →
        SameIds c c₁ ∧ c₁.strms = c.strms ∧ c₁.log = c.log :=
      fun h₁ => by
        rcases connRecvStreamCharge_cases h₁ with ⟨rfl, -⟩ | ⟨-, -, -, rfl⟩ <;>
          exact ⟨⟨rfl, fun _ => rfl, fun _ => rfl⟩, rfl, rfl⟩
    rcases andThen_cases h with ⟨e, h₁, rfl⟩ | ⟨_, c₁, h₁, h₂⟩
    · obtain ⟨hids, hstrms, hlog⟩ := hcharge h₁
      exact ⟨congrFun hstrms i, hids.used i, [], hlog.trans (List.append_nil _).symm, by simp⟩
    · obtain ⟨hids, hstrms, hlog⟩ := hcharge h₁
      have hon := connRecvStreamBranch_onStrm (by rw [hstrms]; exact find) (fun _ => hid ▸ hzero) h₂
      refine ⟨(hon.others i (hid ▸ hi)).trans (congrFun hstrms i),
        (hon.ids.used i).trans (hids.used i), ?_⟩
      rw [← hlog, ← hid]
      exact hon.told
  unfold connRecvStream at h
  split at h
  · exact hsame h
  cases hfind : conn.strms fr.streamId with
  | some strm =>
    have hstrm := hc.keyed _ _ hfind
    rw [connFindOrOpenStream_find hfind, andThen_ok] at h
    exact hfound (hstrm ▸ hfind) hstrm h
  | none =>
    by_cases hloc : connLocalStream conn fr.streamId = true
    · rw [connFindOrOpenStream_closed hfind (.inl hloc), andThen_ok] at h
      exact hsame h
    have hremote : connLocalStream conn fr.streamId = false := by simpa using hloc
    cases ho : idtrOpen (conn.ids (bidiStream fr.streamId)).remoteIdtr fr.streamId with
    | none =>
      rw [connFindOrOpenStream_closed hfind (.inr ho), andThen_ok] at h
      exact hsame h
    | some idtr =>
      rw [connFindOrOpenStream_open hfind hremote ho, andThen_ok] at h
      have hopened : (openRemote conn fr.streamId idtr).strms
        (openedStrm conn fr.streamId).streamId =
          some (openedStrm conn fr.streamId) := setStrm_find _ (openedStrm conn fr.streamId)
      obtain ⟨hstrms, hused, evs, hlog, hfits⟩ := hfound hopened (openedStrm_streamId _ _) h
      refine ⟨hstrms.trans ?_, hused.trans ((openRemote_usedId hc.ids hremote ho i).trans (or_iff_left hi)), ?_⟩
      · show ((conn.setIds _ _).setStrm (openedStrm conn fr.streamId)).strms i = _
        rw [Conn.setStrm_strms, openedStrm_streamId, if_neg hi, Conn.setIds_strms]
      · rw [openRemote_log, List.append_assoc] at hlog
        refine ⟨_, hlog, fun ev hev => ?_⟩
        rcases List.mem_append.mp hev with hev | hev
        · obtain rfl := List.mem_singleton.mp hev
          trivial
        · exact hfits ev hev

/-- A RST_STREAM frame writes to its own stream, which is not stream 0. -/
theorem connRecvRstStream_elsewhere {fr : RstStreamFrame} {r : Except Err Unit}
    (hkeyed : StrmsKeyed conn)
    (h : connRecvRstStream conn fr = (r, conn')) {i : Nat} (hi : i = 0 ∨ i ≠ fr.streamId) :
    conn'.strms i = conn.strms i ∧
      ∃ evs, conn'.log = conn.log ++ evs ∧ ∀ ev ∈ evs, fr.streamId ≠ 0 ∧ ev.fits fr.streamId := by
  have hsame : ∀ {c : Conn} {x : Except Err Unit}, (x, c) = (r, conn') → c.strms = conn.strms →
    c.log = conn.log →
      conn'.strms i = conn.strms i ∧
        ∃ evs, conn'.log = conn.log ++ evs ∧ ∀ ev ∈ evs, fr.streamId ≠ 0 ∧ ev.fits fr.streamId := by
    intro c x hx hstrms hlog
    obtain ⟨-, rfl⟩ := Prod.mk.inj hx
    exact ⟨congrFun hstrms i, [], hlog.trans (List.append_nil _).symm, by simp⟩
  unfold connRecvRstStream at h
  split at h
  · exact hsame h rfl rfl
  next hid =>
  have hi : i ≠ fr.streamId := hi.elim (fun hzero heq => hid (heq ▸ hzero)) id
  split at h
  · exact hsame h rfl rfl
  dsimp only at h
  cases hs : conn.strms fr.streamId with
  | none =>
    simp only [hs] at h
    split at h
    · split at h <;> exact hsame h rfl rfl
    split at h
    · exact hsame h rfl rfl
    split at h
    · exact hsame h rfl rfl
    · split at h
      · exact hsame h rfl rfl
      · exact hsame h (Conn.setIds_strms _ _ _) (Conn.setIds_log _ _ _)
  | some strm =>
    simp only [hs] at h
    split at h
    · exact hsame h rfl rfl
    split at h
    · exact hsame h rfl rfl
    split at h
    · exact hsame h rfl rfl
    have hstrm : strm.streamId = fr.streamId := hkeyed _ _ hs
    have hon : OnStrm strm.markRecvRst.streamId _ conn' := ngtcp2ConnCloseStreamIfShutRdwr_onStrm h
    obtain ⟨evs, hlog, hfits⟩ := hon.told
    refine ⟨(hon.others i (hstrm ▸ hi)).trans ?_, evs, hlog,
      fun ev hev => ⟨hid, hstrm ▸ hfits ev hev⟩⟩
    exact if_neg (hstrm ▸ hi)

theorem Changes.sameIds (h : Changes H K conn conn') (hK : ∀ k ∈ K, k.keepsIds = true) :
    SameIds conn conn' :=
  h.keeps (SameIds conn) (fun k hk _ _ hP hc => hP.trans (hc.sameIds (hK k hk))) ⟨rfl, fun _ => rfl,
    fun _ => rfl⟩

theorem Changes.closedIds_eq (h : Changes H K conn conn') (hK : .close ∉ K) :
    closedIds conn'.log = closedIds conn.log :=
  h.keeps (fun c => closedIds c.log = closedIds conn.log)
    (fun _ hk _ _ hP hc => (hc.sameCredit (fun heq => hK (heq ▸ hk)) true).closed.trans hP) rfl

/-- The steps that can both use an ID and close a stream. -/
def Op.opensAndCloses : Op → Bool
  | .recvFrame _ (.stream _) | .recvFrame _ (.rstStream _) | .recvFrame _ (.stopSending _) => true
  | .recvDelayedHandshakeFrame _ (.stream _) => true
  | _ => false

theorem Op.kinds_of_not_opensAndCloses (op : Op) (h : op.opensAndCloses = false) :
    .close ∉ .timeout :: op.kinds ∨ ∀ k ∈ .timeout :: op.kinds, k.keepsIds = true := by
  cases op with
  | recvFrame longForm fr =>
    cases fr <;> simp [Op.opensAndCloses, Op.kinds, Frame.recvKinds, ackKinds, Kind.keepsIds] at h ⊢
  | recvDelayedHandshakeFrame type fr =>
    cases fr <;> simp [Op.opensAndCloses, Op.kinds, Frame.recvDelayedKinds, ackKinds,
      Kind.keepsIds] at h ⊢
  | recvHandshakeFrame type handshakeFailed fr =>
    cases fr <;> simp [Op.kinds, Frame.recvHandshakeKinds, ackKinds, Kind.keepsIds]
  | _ => simp [Op.kinds, retryKinds, streamTxKinds, writeKinds, resendKinds, closeKinds, shutdownKinds]

/-- A step that uses a new ID closes no other stream. -/
theorem Step.closes_opened {ops : List Op} {op : Op} (hreach : Reachable conn)
    (hstep : Step ops conn op conn')
    {ids : List Nat} (hlog : closedIds conn'.log = closedIds conn.log ++ ids) {i j : Nat}
    (hnew : ¬Used conn i)
    (hused : Used conn' i) (hj : j ∈ ids) : j = i := by
  have hwf := hreach.wellFormed
  have hinv := hreach.peerInv
  have hch := Step.changes hwf hstep
  have hclosed : closedIds conn'.log = closedIds conn.log → j = i := by
    intro hsame
    rw [hsame] at hlog
    have hnil : ids = [] := List.self_eq_append_right.mp hlog
    rw [hnil] at hj
    cases hj
  have hids : SameIds conn conn' → j = i := fun hsame => absurd ((hsame.used i).mp hused) hnew
  have hj0 : j ≠ 0 := by
    rintro rfl
    have hinv' : PeerInv conn' := hch.keeps PeerInv (fun _ _ _ _ hP hc => hc.peerInv hP) hinv
    exact hinv'.unclosed (hlog ▸ List.mem_append_right _ hj)
  -- A frame that leaves the other streams alone closes none of them.
  have helse : ∀ id, (∀ k, k ≠ id → conn'.strms k = conn.strms k ∧ (Used conn' k ↔ Used conn k)) →
    j = i := by
    intro id hsame
    have hi : i = id := by
      by_contra hne
      exact hnew ((hsame i hne).2.mp hused)
    by_contra hne
    obtain ⟨hstrms, hiff⟩ := hsame j (hi ▸ hne)
    exact not_closed_of_same (hreach.lifeInv hj0) hj0 hch hlog hiff hstrms hj
  have hrst : ∀ {fr r}, connRecvRstStream conn fr = (r, conn') → ¬Fatal r → j = i := by
    intro fr r h hr
    rcases connRecvRstStream_cases (H := []) hwf.keyed h hr with rfl | ⟨-, -, -, -, -, -, rfl⟩
        | ⟨strm, -, hch'⟩
    · exact hclosed rfl
    · exact hclosed (by rw [consumeId_log])
    · exact hids (hch'.sameIds (by simp [Kind.keepsIds]))
  have hstop : ∀ {fr r}, connRecvStopSending conn fr = (r, conn') → ¬Fatal r → j = i := by
    intro fr r h hr
    rcases connRecvStopSending_cases (H := []) hwf.keyed h hr with rfl | ⟨-, -, -, -, rfl⟩
        | ⟨strm, -, hch'⟩
    · exact hclosed rfl
    · exact hclosed (by rw [consumeId_log])
    · exact hids (hch'.sameIds (by simp [Kind.keepsIds]))
  cases hop : op.opensAndCloses with
  | false =>
    rcases op.kinds_of_not_opensAndCloses hop with hK | hK
    · exact hclosed (hch.closedIds_eq hK)
    · exact hids (hch.sameIds hK)
  | true =>
    obtain ⟨rv, hrun, hs⟩ := hstep
    have hr := not_fatal_of_survives hs
    cases op with
    | recvFrame longForm fr =>
      cases fr with
      | stream fr =>
        have hrun : (if fr.streamId = 0 ∧ longForm = true then _ else connRecvStream conn fr) =
          (rv, conn') := hrun
        split at hrun
        · exact hclosed (by rw [(Prod.mk.inj hrun).2])
        · exact helse fr.streamId fun k hk =>
            (connRecvStream_elsewhere hinv.used hrun hk).imp_right And.left
      | rstStream fr => exact hrst hrun hr
      | stopSending fr => exact hstop hrun hr
      | _ => cases hop
    | recvDelayedHandshakeFrame type fr =>
      cases fr with
      | stream fr => exact helse fr.streamId fun k hk => (connRecvStream_elsewhere hinv.used hrun hk).imp_right And.left
      | _ => cases hop
    | _ => cases hop

theorem closedBy_eq {op : Op} {ids : List Nat} (hop : (op.run conn).2 = conn')
    (hlog : closedIds conn'.log = closedIds conn.log ++ ids) :
    closedBy bidi conn op = ids.filter (peerStrm conn bidi) := by
  rw [closedBy, hop, hlog, List.drop_left]

/-- The closed streams for which the step earns credit. -/
def earnedBy (bidi : Bool) (conn : Conn) (op : Op) : List Nat :=
    (closedBy bidi conn op).filter (earnsCredit conn)

/-- The credit grows by one for each stream that earns it. -/
theorem Step.unsent {ops : List Op} {op : Op} (hreach : Reachable conn)
    (hstep : Step ops conn op conn') (bidi : Bool) :
    (conn'.ids bidi).unsentMaxRemoteStreamId =
      addCredit^[(earnedBy bidi conn op).length] (conn.ids bidi).unsentMaxRemoteStreamId := by
  have hinv := hreach.peerInv
  obtain ⟨ids, hearned⟩ := (Step.changes hreach.wellFormed hstep).earned hinv bidi
  have hop : (op.run conn).2 = conn' := by
    obtain ⟨rv, hrun, -⟩ := hstep
    rw [hrun]
  rw [earnedBy, ← List.countP_eq_length_filter, closedBy_eq hop hearned.closed]
  rcases hearned.unsent with ⟨id, hid, hearn, hused⟩ | heq
  · -- The first ID was opened by the step that closed another stream.
    obtain ⟨hmem, hpeer⟩ := List.mem_filter.mp hid
    obtain ⟨hgap, hidx⟩ := Bool.or_eq_false_iff.mp hearn
    rw [(peerStrm_iff.mp hpeer).2] at hgap
    have hnew : ¬Used conn (peerId conn bidi 0) := fun hc =>
      absurd ((hinv.firstUsed_iff bidi).mpr hc) (by simpa using hgap)
    have hfirst := Step.closes_opened hreach hstep hearned.closed hnew hused hmem
    rw [hfirst, idFromStreamId_peerId] at hidx
    cases hidx
  · exact heq

theorem Change.retired {k : Kind} (h : Change H k conn conn') (hk : k ≠ .consume)
    (hinv : IdsInv conn) (hid : id ≠ 0)
    (hgone : Retired id conn') :
    Retired id conn ∨ closedIds conn'.log = closedIds conn.log ++ [id] := by
  cases h.idStep hinv hid with
  | keep evs used obj =>
    refine .inl ⟨used.mp hgone.1, ?_⟩
    rw [hgone.2] at obj
    exact Option.isNone_iff_eq_none.mp (by simpa using obj.symm)
  | consume used noObj noObj' log =>
    by_cases hids : k.keepsIds = true
    · exact .inl ⟨((h.sameIds hids).used id).mp used, noObj⟩
    cases h with
    | openRemote => simp at log
    | openLocal => simp at log
    | consume => exact absurd rfl hk
    | _ => simp [Kind.keepsIds] at hids
  | create _ _ obj =>
    rw [hgone.2] at obj
    cases obj
  | close code _ _ _ log =>
    right
    rw [log, closedIds_append]
    rfl

theorem Changes.retired (h : Changes H K conn conn') (hK : .consume ∉ K) (hinv : IdsInv conn)
    (hid : id ≠ 0)
    (hgone : Retired id conn') :
    Retired id conn ∨ ∃ ids, closedIds conn'.log = closedIds conn.log ++ ids ∧ id ∈ ids := by
  have hP : IdsInv conn' ∧ ∃ ids, closedIds conn'.log = closedIds conn.log ++ ids ∧
      (Retired id conn' → Retired id conn ∨ id ∈ ids) := by
    refine h.keeps (fun c => IdsInv c ∧ ∃ ids, closedIds c.log = closedIds conn.log ++ ids ∧
      (Retired id c → Retired id conn ∨ id ∈ ids)) (fun k hk c c' hP hc => ?_)
      ⟨hinv, [], (List.append_nil _).symm, .inl⟩
    obtain ⟨hids, ids, hlog, hret⟩ := hP
    obtain ⟨new, hnew⟩ := hc.log
    refine ⟨hc.idsInv hids, ids ++ closedIds new, ?_, fun hg => ?_⟩
    · rw [← hnew, closedIds_append, hlog, List.append_assoc]
    rcases hc.retired (fun heq => hK (heq ▸ hk)) hids hid hg with hold | hclosed
    · exact (hret hold).imp_right (List.mem_append_left _)
    · right
      rw [← hnew, closedIds_append, List.append_cancel_left_eq] at hclosed
      exact List.mem_append_right _ (hclosed ▸ List.mem_singleton_self id)
  obtain ⟨-, ids, hlog, hret⟩ := hP
  exact (hret hgone).imp_right fun hmem => ⟨ids, hlog, hmem⟩

theorem used_of_idtrOpen_none (hinv : IdsInv conn) (hremote : connLocalStream conn id = false)
    (h : idtrOpen (conn.ids (bidiStream id)).remoteIdtr id = none) : Used conn id := by
  unfold Used
  rw [hremote, if_neg Bool.false_ne_true]
  exact idtrOpenLoop_none (hinv.sorted _) (Option.map_eq_none_iff.mp h)

/-- The ID just used up is the only new one. -/
theorem consumeId_retired {rxOffset i : Nat} (hinv : IdsInv conn)
    (hremote : connLocalStream conn id = false)
    (hpeer : peerStrm conn bidi i = true) (hcheck : connCheckStreamId conn id = none)
    (hgone : Retired i (consumeId conn id rxOffset)) :
    Retired i conn ∨ i = id ∧ resetBy.unopened conn bidi id = true := by
  by_cases hused : Used conn i
  · left
    exact ⟨hused, by rw [← hgone.2, consumeId_strms]⟩
  obtain rfl := ((consumeId_used hinv hremote i).mp hgone.1).resolve_left hused
  refine .inr ⟨rfl, unopened_iff.mpr ⟨hpeer, hcheck, ?_⟩⟩
  rw [← (peerStrm_iff.mp hpeer).2, ← Option.ne_none_iff_isSome]
  exact fun hnone => hused (used_of_idtrOpen_none hinv hremote hnone)

/-- Streams and IDs of the peer are finished when they are closed or used up. -/
theorem Step.retired {ops : List Op} {op : Op} (hreach : Reachable conn)
    (hstep : Step ops conn op conn')
    (hid : id ≠ 0) (hpeer : peerStrm conn bidi id = true) (hgone : Retired id conn') :
    Retired id conn ∨ id ∈ closedBy bidi conn op ∨ id ∈ resetBy bidi conn op := by
  have hwf := hreach.wellFormed
  have hids := hreach.peerInv.used.ids
  have hch := Step.changes hwf hstep
  obtain ⟨rv, hrun, hs⟩ := hstep
  have hop : (op.run conn).2 = conn' := by rw [hrun]
  have hr := not_fatal_of_survives hs
  have hkinds : ∀ {K}, Changes (held conn) K conn conn' → .consume ∉ K →
      Retired id conn ∨ id ∈ closedBy bidi conn op ∨ id ∈ resetBy bidi conn op := by
    intro K hch hK
    refine (hch.retired hK hids hid hgone).imp_right fun ⟨ids, hlog, hmem⟩ => .inl ?_
    rw [closedBy_eq hop hlog]
    exact List.mem_filter.mpr ⟨hmem, hpeer⟩
  cases op with
  | recvFrame longForm fr =>
    cases fr with
    | rstStream fr =>
      rcases connRecvRstStream_cases (H := held conn) hwf.keyed hrun hr with
        rfl | ⟨-, -, hremote, hcheck, hmax, hdata, rfl⟩ | ⟨strm, -, hch'⟩
      · exact .inl hgone
      · refine (consumeId_retired hids hremote hpeer hcheck hgone).imp_right fun ⟨heq,
          hopen⟩ => .inr ?_
        simp [resetBy, hopen, hmax, hdata, heq]
      · exact hkinds hch' (by simp)
    | stopSending fr =>
      rcases connRecvStopSending_cases (H := held conn) hwf.keyed hrun hr with
        rfl | ⟨-, -, hremote, hcheck, rfl⟩ | ⟨strm, -, hch'⟩
      · exact .inl hgone
      · refine (consumeId_retired hids hremote hpeer hcheck hgone).imp_right fun ⟨heq,
          hopen⟩ => .inr ?_
        simp [resetBy, hopen, heq]
      · exact hkinds hch' (by simp)
    | _ => exact hkinds hch (by simp [Op.kinds, Frame.recvKinds, ackKinds, streamKinds])
  | recvDelayedHandshakeFrame type fr =>
    cases fr <;> exact hkinds hch
      (by simp [Op.kinds, Frame.recvDelayedKinds, ackKinds, streamKinds])
  | recvHandshakeFrame type handshakeFailed fr =>
    cases fr <;> exact hkinds hch (by simp [Op.kinds, Frame.recvHandshakeKinds, ackKinds])
  | _ =>
    exact hkinds hch (by
      simp [Op.kinds, retryKinds, streamTxKinds, writeKinds, resendKinds, closeKinds,
        shutdownKinds])

/-- The peer's streams of the type that the step finishes. -/
def finishedBy (bidi : Bool) (conn : Conn) (op : Op) : List Nat :=
    closedBy bidi conn op ++ resetBy bidi conn op

theorem Reachable.closedIds_nodup (h : Reachable conn) : (closedIds conn.log).Nodup := by
  rw [List.nodup_iff_count_le_one]
  intro id
  by_cases hid : id = 0
  · rw [hid, List.count_eq_zero_of_not_mem h.peerInv.unclosed]
    exact Nat.zero_le 1
  rw [closedIds_count]
  cases (h.lifeInv hid).phase with
  | unused _ _ quiet =>
    have := (quiet_counts quiet).2
    omega
  | live _ _ _ unclosed => omega
  | gone _ _ _ closedOnce => exact closedOnce

/-- A frame for an ID that is still unused only uses it up. -/
theorem resetBy_cases (bidi : Bool) (op : Op) (hinv : PeerInv conn) : resetBy bidi conn op = [] ∨
    ∃ id rxOffset, resetBy bidi conn op = [id] ∧ resetBy.unopened conn bidi id = true ∧
      (op.run conn).2 = consumeId conn id rxOffset := by
  cases op with
  | recvFrame longForm fr =>
    cases fr with
    | rstStream fr =>
      simp only [resetBy]
      split
      · next h =>
        simp only [Bool.and_eq_true, decide_eq_true_eq, Bool.not_eq_true'] at h
        obtain ⟨⟨hopen, hmax⟩, hdata⟩ := h
        obtain ⟨-, hne, hnone, hloc, idtr, ho, hunused⟩ := unopened_spec hopen hinv
        refine .inr ⟨_, conn.rxOffset + fr.finalOffset, rfl, hopen, ?_⟩
        show (connRecvRstStream conn fr).2 = _
        have hflow : ¬(conn.localSettings.maxStreamData.toNat < fr.finalOffset ∨
            connMaxDataViolated conn fr.finalOffset = true) := by
          rw [hdata]
          simpa using hmax
        have hrx : ∀ ids : StreamIds, (conn.setIds (bidiStream fr.streamId) ids).rxOffset =
          conn.rxOffset := by
          intro ids
          unfold Conn.setIds
          split <;> rfl
        simp only [connRecvRstStream, hne, if_false, (unopened_iff.mp hopen).2.1, hnone, hloc,
          Bool.false_eq_true,
          hunused, hflow, ho]
        rw [consumeId_some _ ho, hrx]
      · exact .inl rfl
    | stopSending fr =>
      simp only [resetBy]
      split
      · next hopen =>
        obtain ⟨-, hne, hnone, hloc, idtr, ho, hunused⟩ := unopened_spec hopen hinv
        refine .inr ⟨_, conn.rxOffset, rfl, hopen, ?_⟩
        show (connRecvStopSending conn fr).2 = _
        simp only [connRecvStopSending, hne, if_false, (unopened_iff.mp hopen).2.1, hnone, hloc,
          hunused, ho,
          Bool.not_false, Bool.and_self, if_true]
        rw [consumeId_some _ ho]
        unfold Conn.setIds
        split <;> rfl
      · exact .inl rfl
    | _ => exact .inl rfl
  | _ => exact .inl rfl

/-- What a step finishes was not finished before, and is finished once. -/
theorem Step.finished {ops : List Op} {op : Op} (hreach : Reachable conn)
    (hstep : Step ops conn op conn') (bidi : Bool) :
    (finishedBy bidi conn op).Nodup ∧ ∀ id ∈ finishedBy bidi conn op,
      id ≠ 0 ∧ peerStrm conn bidi id = true ∧ ¬Retired id conn ∧ Retired id conn' := by
  have hinv := hreach.peerInv
  have hch := Step.changes hreach.wellFormed hstep
  have hreach' : Reachable conn' := by
    obtain ⟨conn₀, ops₀, hinit, hrun⟩ := hreach
    exact ⟨conn₀, _, hinit, hrun.snoc hstep⟩
  have hop : (op.run conn).2 = conn' := by
    obtain ⟨rv, hrun, -⟩ := hstep
    rw [hrun]
  obtain ⟨new, hnew⟩ := hch.log
  have hlog : closedIds conn'.log = closedIds conn.log ++ closedIds new := by
    rw [← hnew, closedIds_append]
  have hclosed : closedBy bidi conn op = (closedIds new).filter (peerStrm conn bidi) :=
    closedBy_eq hop hlog
  have hnodup : (closedBy bidi conn op).Nodup := by
    rw [hclosed]
    have hall := hreach'.closedIds_nodup
    rw [hlog] at hall
    exact (List.Nodup.of_append_right hall).filter _
  have hmem : ∀ id ∈ closedBy bidi conn op, id ≠ 0 ∧ peerStrm conn bidi id = true ∧
    ¬Retired id conn ∧ Retired id conn' := by
    intro id hid
    rw [hclosed] at hid
    obtain ⟨hin, hpeer⟩ := List.mem_filter.mp hid
    have hin' : id ∈ closedIds conn'.log := hlog ▸ List.mem_append_right _ hin
    have hne : id ≠ 0 := by
      rintro rfl
      exact hreach'.peerInv.unclosed hin'
    refine ⟨hne, hpeer, fun hgone => ?_, (hreach'.lifeInv hne).gone (.inl (mem_closedIds.mp hin'))⟩
    obtain ⟨hgone', -⟩ := hch.staysRetired hne hinv.used.ids hgone
    have hsame : conn'.strms id = conn.strms id := hgone'.2.trans hgone.2.symm
    exact not_closed_of_same (hreach.lifeInv hne) hne hch hlog ⟨fun _ => hgone.1,
      fun _ => hgone'.1⟩ hsame hin
  unfold finishedBy
  rcases resetBy_cases bidi op hinv with hreset | ⟨id, rxOffset, hreset, hopen, hcons⟩
  · rw [hreset, List.append_nil]
    exact ⟨hnodup, hmem⟩
  · have hnil : closedBy bidi conn op = [] := by
      rw [closedBy, hcons, consumeId_log, List.drop_length, List.filter_nil]
    obtain ⟨hnot, hne, hnone, hloc, -⟩ := unopened_spec hopen hinv
    rw [hnil, hreset, List.nil_append]
    refine ⟨List.nodup_singleton id, fun i hi => ?_⟩
    obtain rfl := List.mem_singleton.mp hi
    refine ⟨hne, (unopened_iff.mp hopen).1, fun hgone => hnot hgone.1, ?_⟩
    rw [← hop, hcons]
    exact ⟨(consumeId_used hinv.used.ids hloc i).mpr (.inr rfl), by rw [consumeId_strms, hnone]⟩

end

end Ngtcp2
