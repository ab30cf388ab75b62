import Polygon.StreamEffects

/-!
# STREAM and STOP_SENDING frames that change places

A STREAM frame creates the object of a new remote stream. A STOP_SENDING frame that
comes before it only marks the ID as used, and the data of the stream is ignored then.
-/
namespace Ngtcp2

open Ranges

/-! ## What the order can change -/

/-- The event delivers data of the stream. -/
def Event.deliversOn (id : Nat) : Event → Bool
  | .recvStreamData i _ _ => i == id
  | _ => false

/-- The fields of a stream that receiving uses. -/
structure RecvSide where
  lastRxOffset : Nat
  rob : Rob
  maxRxOffset : Nat
  unsentMaxRxOffset : Nat
  shutRd : Bool
  recvRst : Bool
  stopSending : Bool

def Strm.recvSide (strm : Strm) : RecvSide :=
  { lastRxOffset := strm.lastRxOffset, rob := strm.rob, maxRxOffset := strm.maxRxOffset
    unsentMaxRxOffset := strm.unsentMaxRxOffset, shutRd := strm.shutRd, recvRst := strm.recvRst
    stopSending := strm.stopSending }

/-- The same data of the stream was delivered, and its receive side is the same. -/
structure SameRecvSide (id : Nat) (conn conn' : Conn) : Prop where
  delivered : conn'.log.filter (Event.deliversOn id) = conn.log.filter (Event.deliversOn id)
  strm : (conn'.strms id).map Strm.recvSide = (conn.strms id).map Strm.recvSide

/-- The connection after a STREAM and then a STOP_SENDING frame. -/
def streamThenStop (conn : Conn) (fr : StreamFrame) (stop : StopSendingFrame) : Conn :=
  (connRecvStopSending (connRecvStream conn fr).2 stop).2

/-- The connection after a STOP_SENDING and then a STREAM frame. -/
def stopThenStream (conn : Conn) (fr : StreamFrame) (stop : StopSendingFrame) : Conn :=
  (connRecvStream (connRecvStopSending conn stop).2 fr).2

/-- A remote bidirectional stream that the peer may open and has not used. -/
structure NewRemoteBidi (conn : Conn) (id : Nat) : Prop where
  nonzero : id ≠ 0
  bidi : bidiStream id = true
  remote : connLocalStream conn id = false
  allowed : id ≤ conn.bidi.maxRemoteStreamId
  unused : ¬Used conn id

section
variable {conn conn' : Conn} {id : Nat} {fr : StreamFrame} {stop : StopSendingFrame}

theorem NewRemoteBidi.checkId (h : NewRemoteBidi conn id) : connCheckStreamId conn id = none := by
  unfold connCheckStreamId
  dsimp only
  rw [h.remote, if_neg Bool.false_ne_true, h.bidi]
  exact if_neg (Nat.not_lt.mpr h.allowed)

/-- It has no object and its ID can be opened. -/
theorem NewRemoteBidi.opens (h : NewRemoteBidi conn id) (hc : StrmsUsed conn) :
    conn.strms id = none ∧
    idtrIsOpen (conn.ids (bidiStream id)).remoteIdtr id = false ∧
      ∃ idtr, idtrOpen (conn.ids (bidiStream id)).remoteIdtr id = some idtr := by
  have hgap : InGap (conn.ids (bidiStream id)).remoteIdtr.gap (idFromStreamId id) := by
    have hunused := h.unused
    unfold Used at hunused
    rw [h.remote] at hunused
    exact not_not.mp hunused
  refine ⟨?_, ?_, ?_⟩
  · cases hfind : conn.strms id with
    | none => rfl
    | some strm => exact absurd (hc.live id h.nonzero (by rw [hfind]; rfl)) h.unused
  · have hiff := idtrIsOpenLoop_iff (hc.ids.sorted (bidiStream id)) ⟨_, Nat.le_refl _, hgap⟩
    rw [Bool.eq_false_iff]
    exact fun ho => hiff.mp ho hgap
  · cases ho : idtrOpen (conn.ids (bidiStream id)).remoteIdtr id with
    | none => exact absurd hgap (idtrOpenLoop_none (hc.ids.sorted _) (Option.map_eq_none_iff.mp ho))
    | some idtr => exact ⟨idtr, rfl⟩

/-- STOP_SENDING first: the ID is used up. -/
theorem connRecvStopSending_new {idtr : Idtr} (h : NewRemoteBidi conn stop.streamId)
    (hnone : conn.strms stop.streamId = none)
    (hclosed : idtrIsOpen (conn.ids (bidiStream stop.streamId)).remoteIdtr stop.streamId = false)
    (hopen : idtrOpen (conn.ids (bidiStream stop.streamId)).remoteIdtr stop.streamId = some idtr) :
    connRecvStopSending conn stop = (.ok (), conn.setIds (bidiStream stop.streamId)
      { conn.ids (bidiStream stop.streamId) with remoteIdtr := idtr }) := by
  unfold connRecvStopSending
  rw [if_neg h.nonzero, h.checkId]
  dsimp only
  rw [hnone, h.remote, hclosed, hopen]
  rfl

/-- The checks of a STREAM frame do not look at the trackers of used IDs. -/
theorem connCheckStreamFrame_setIds (bidi : Bool) (idtr : Idtr) :
    connCheckStreamFrame (conn.setIds bidi { conn.ids bidi with remoteIdtr := idtr }) fr =
    connCheckStreamFrame conn fr := by
  have hserver : (conn.setIds bidi { conn.ids bidi with remoteIdtr := idtr }).server =
    conn.server :=
    Conn.setIds_server _ _ _
  have hid : connCheckStreamId
    (conn.setIds bidi { conn.ids bidi with remoteIdtr := idtr }) fr.streamId =
      connCheckStreamId conn fr.streamId := by
    unfold connCheckStreamId
    rw [connLocalStream_congr hserver, Conn.ids_setIds]
    split
    · next h => rw [h]
    · rfl
  unfold connCheckStreamFrame
  rw [hid, connLocalStream_congr hserver]

/-- The first node left of a gap whose beginning is not cut off. -/
theorem firstGap_cutGap {g m : Range} (h : 0 < rangeLen (rangeCut g m).1) (top : Nat)
    (gs : List Range) :
    firstGap top ((cutGap g m).1 ++ (cutGap g m).2 :: gs) = g.begin := by
  unfold cutGap
  dsimp only
  rw [if_pos h]
  split <;> rfl

/-- A frame behind the delivered bytes leaves the first gap of a fresh buffer where it is. -/
theorem robPush_fresh {rob : Rob} {offset : Nat} (hgap : rob.gap = gapsInit) (hpos : 0 < offset)
    (data : List UInt8) :
    robFirstGapOffset (robPush rob offset data) = 0 := by
  have hpush : (robPush rob offset data).gap = gaptrPush gapsInit offset data.length := by
    rw [← hgap]
    exact robPushLoop_gaps rob offset data rob.gap rob.data
  rw [robFirstGapOffset, hpush]
  unfold gaptrPush gapsInit gaptrPushLoop
  dsimp only
  split
  · next hlen =>
    have hm := rangeIntersect_of_pos hlen
    split
    · next heq =>
      rw [hm, Range.mk.injEq] at heq
      have hzero : 0 = max offset 0 := heq.1
      omega
    · refine firstGap_cutGap ?_ _ _
      rw [hm]
      simp only [rangeCut, rangeLen]
      omega
  · rfl

/-! ## Both orders -/

theorem deliversOn_filter_lt {evs : List Event} {fin : Bool} {data : List UInt8}
    (hev : .recvStreamData id fin data ∈ evs) : 0 < (evs.filter (Event.deliversOn id)).length :=
  List.length_pos_of_mem (List.mem_filter.mpr ⟨hev, by simp [Event.deliversOn]⟩)

/-- Data of the stream was delivered, or its object can still receive some. -/
inductive Opened (id : Nat) (conn conn' : Conn) : Prop where
  | told (evs : List Event) (log : conn'.log = conn.log ++ evs) (fin : Bool) (data : List UInt8)
      (mem : .recvStreamData id fin data ∈ evs)
  | waiting (strm : Strm) (find : conn'.strms id = some strm) (sid : strm.streamId = id)
      (undone : strm.shutRd = false ∨
      (strm.recvRst = false ∧ strmRxOffset strm ≠ strm.lastRxOffset))

/-- What follows is told after what was told before. -/
theorem Opened.after {conn₁ : Conn} (h : Opened id conn₁ conn')
    (hlog : ∃ evs, conn₁.log = conn.log ++ evs) :
    Opened id conn conn' := by
  obtain ⟨evs₁, hlog⟩ := hlog
  cases h with
  | told evs log fin data mem =>
    exact .told (evs₁ ++ evs) (by rw [log, hlog, List.append_assoc]) fin data
      (List.mem_append_right _ mem)
  | waiting strm find sid undone => exact .waiting strm find sid undone

theorem Opened.of_log {conn₁ : Conn} (h : Opened id conn₁ conn') (hlog : conn₁.log = conn.log) :
    Opened id conn conn' :=
  h.after ⟨[], by rw [hlog, List.append_nil]⟩

theorem OnStrm.told_mem {conn₁ : Conn} {fin : Bool} {data : List UInt8} (h : OnStrm id conn₁ conn')
    (hlog : ∃ evs, conn₁.log = conn.log ++ evs ∧ .recvStreamData id fin data ∈ evs) :
    Opened id conn conn' := by
  obtain ⟨evs, hlog₁, hmem⟩ := hlog
  obtain ⟨evs', hlog', -⟩ := h.told
  exact .told (evs ++ evs') (by rw [hlog', hlog₁, List.append_assoc]) fin data
    (List.mem_append_left _ hmem)

/-- The end of `conn_recv_stream` on a stream that has received nothing. -/
theorem connRecvStreamDeliver_opened {strm : Strm} {r : Except Err Unit} (hid : strm.streamId ≠ 0)
    (hgap : strm.rob.gap = gapsInit) (hopen : strm.shutWr = false) (hrst : strm.recvRst = false)
    (hlast : strm.shutRd = true → 0 < strm.lastRxOffset)
    (h : connRecvStreamDeliver conn strm fr 0 = (r, conn')) :
    Opened strm.streamId conn conn' := by
  unfold connRecvStreamDeliver at h
  by_cases hoff : fr.offset ≤ 0
  · rw [if_pos hoff] at h
    extract_lets data rx strm₁ conn₁ fin at h
    have hid₁ : strm₁.streamId = strm.streamId := rfl
    rw [if_neg (hid₁ ▸ hid)] at h
    have htold : ∃ evs, (conn₁.tell (.recvStreamData strm₁.streamId fin data)).log =
      conn.log ++ evs ∧
        .recvStreamData strm.streamId fin data ∈ evs := ⟨[_], rfl, List.mem_singleton_self _⟩
    have find₁ : (conn₁.tell (.recvStreamData strm₁.streamId fin data)).strms strm₁.streamId =
      some strm₁ :=
      setStrm_find conn strm₁
    have hemits : ∀ {x conn₂},
      ((connCallRecvStreamData conn₁ strm₁.streamId fin data).andThen fun _ conn =>
        connEmitPendingStreamData (emitFuel strm₁.rob) conn strm₁ rx) = (x, conn₂) →
        OnStrm strm.streamId (conn₁.tell (.recvStreamData strm₁.streamId fin data)) conn₂ ∧
          ∀ strm', x = .ok strm' → strm'.streamId = strm.streamId := by
      intro x conn₂ hx
      rcases andThen_cases hx with ⟨e, hcall, rfl⟩ | ⟨_, conn₃, hcall, hemit⟩
      · rw [connCall_tell hcall]
        exact ⟨.refl _ _, by simp⟩
      · rw [connCall_tell hcall] at hemit
        obtain ⟨hon, hend⟩ := connEmitPendingStreamData_onStrm _ find₁ (hid₁ ▸ hid) hemit
        exact ⟨hon, fun strm' hs => (hend strm' hs).1⟩
    rcases andThen_cases h with ⟨e, h₁, rfl⟩ | ⟨strm₂, conn₂, h₁, h₂⟩
    · exact (hemits h₁).1.told_mem htold
    · obtain ⟨hon, hend⟩ := hemits h₁
      have hclose := ngtcp2ConnCloseStreamIfShutRdwr_onStrm h₂
      rw [hend strm₂ rfl] at hclose
      exact (hon.trans hclose).told_mem htold
  · rw [if_neg hoff, andThen_ok] at h
    have hnot : strmShutRdwr (strmRecvReordering strm fr) = false := by
      have hwr : (strmRecvReordering strm fr).shutWr = false := hopen
      simp [strmShutRdwr, hwr]
    unfold ngtcp2ConnCloseStreamIfShutRdwr at h
    rw [hnot] at h
    obtain ⟨-, rfl⟩ := Prod.mk.inj h
    refine .waiting (strmRecvReordering strm fr)
      (setStrm_find conn (strmRecvReordering strm fr)) rfl ?_
    cases hshut : strm.shutRd with
    | false => exact .inl hshut
    | true =>
      refine .inr ⟨hrst, ?_⟩
      change robFirstGapOffset (robPush strm.rob fr.offset fr.data) ≠ strm.lastRxOffset
      rw [robPush_fresh hgap (Nat.pos_of_ne_zero fun hc => hoff (Nat.le_of_eq hc))]
      exact Nat.ne_of_lt (hlast hshut)

/-- A stream that has received nothing and is open in both directions. -/
structure FreshStrm (strm : Strm) : Prop where
  gap : strm.rob.gap = gapsInit
  lastRxOffset : strm.lastRxOffset = 0
  shutRd : strm.shutRd = false
  shutWr : strm.shutWr = false
  recvRst : strm.recvRst = false
  stopSending : strm.stopSending = false
  onFc : strm.onFc = false

theorem openedStrm_receivedNothing {id : Nat} (h : bidiStream id = true) :
    FreshStrm (openedStrm conn id) := by
  have heq : openedStrm conn id =
    strmInit id conn.localSettings.maxStreamData.toNat conn.remoteSettings.maxStreamData.toNat
      conn.mem := if_pos h
  rw [heq]
  exact ⟨rfl, rfl, rfl, rfl, rfl, rfl, rfl⟩

/-- Both branches of `conn_recv_stream` on a fresh stream. -/
theorem connRecvStreamFin_opened {strm : Strm} {r : Except Err Unit} (hs : FreshStrm strm)
    (hid : strm.streamId ≠ 0)
    (h : connRecvStreamFin conn strm fr = (r, conn')) : Opened strm.streamId conn conn' := by
  unfold connRecvStreamFin at h
  rw [hs.shutRd, if_neg Bool.false_ne_true, hs.lastRxOffset, if_neg (Nat.not_lt_zero _)] at h
  have hfc : fcUnlink (conn.setStrm (strm.setLastRxOffset fr.endOffset).shutdownRd)
      (strm.setLastRxOffset fr.endOffset).shutdownRd =
      ((strm.setLastRxOffset fr.endOffset).shutdownRd,
        conn.setStrm (strm.setLastRxOffset fr.endOffset).shutdownRd) := by
    unfold fcUnlink
    exact if_neg (by
      change ¬strm.onFc = true
      rw [hs.onFc]
      exact Bool.false_ne_true)
  have hstop : (strm.setLastRxOffset fr.endOffset).shutdownRd.stopSending = false := hs.stopSending
  have hrx : strmRxOffset (strm.setLastRxOffset fr.endOffset).shutdownRd = 0 := by
    change robFirstGapOffset strm.rob = 0
    rw [robFirstGapOffset, hs.gap]
    rfl
  dsimp only at h
  rw [hstop, if_neg Bool.false_ne_true, hfc] at h
  dsimp only at h
  rw [hrx] at h
  split at h
  · have htold : ∃ evs, ((conn.setStrm (strm.setLastRxOffset fr.endOffset).shutdownRd).tell
        (.recvStreamData strm.streamId true [])).log = conn.log ++ evs ∧ .recvStreamData strm.streamId true [] ∈ evs :=
      ⟨[_], rfl, List.mem_singleton_self _⟩
    rcases andThen_cases h with ⟨e, hcall, rfl⟩ | ⟨_, conn₃, hcall, hclose⟩
    · rw [connCall_tell hcall]
      exact (OnStrm.refl strm.streamId _).told_mem htold
    · rw [connCall_tell hcall] at hclose
      exact (ngtcp2ConnCloseStreamIfShutRdwr_onStrm hclose).told_mem htold
  · next hend =>
    have ho : Opened (strm.setLastRxOffset fr.endOffset).shutdownRd.streamId _ _ :=
      connRecvStreamDeliver_opened hid hs.gap hs.shutWr hs.recvRst
        (fun _ => Nat.pos_of_ne_zero hend) h
    exact ho.of_log rfl

theorem connRecvStreamNoFin_opened {strm : Strm} {r : Except Err Unit} (hs : FreshStrm strm)
    (hid : strm.streamId ≠ 0)
    (hdata : 0 < fr.endOffset) (h : connRecvStreamNoFin conn strm fr = (r, conn')) :
    Opened strm.streamId conn conn' := by
  unfold connRecvStreamNoFin at h
  rw [hs.shutRd, if_neg (fun hc => Bool.false_ne_true hc.1)] at h
  have hstop : (strm.setLastRxOffset (max strm.lastRxOffset fr.endOffset)).stopSending = false :=
    hs.stopSending
  have hrx : strmRxOffset (strm.setLastRxOffset (max strm.lastRxOffset fr.endOffset)) = 0 := by
    change robFirstGapOffset strm.rob = 0
    rw [robFirstGapOffset, hs.gap]
    rfl
  dsimp only at h
  rw [hrx, if_neg (Nat.not_le.mpr hdata), hstop, if_neg Bool.false_ne_true] at h
  have ho : Opened (strm.setLastRxOffset (max strm.lastRxOffset fr.endOffset)).streamId _ _ :=
    connRecvStreamDeliver_opened hid hs.gap hs.shutWr hs.recvRst
      (fun hc => absurd (hs.shutRd.symm.trans hc) Bool.false_ne_true) h
  exact ho.of_log rfl

/-- STREAM first: a frame that passes the checks opens the stream. -/
theorem connRecvStream_new {r : Except Err Unit} {idtr : Idtr} (h : NewRemoteBidi conn fr.streamId)
    (hcheck : connCheckStreamFrame conn fr = none) (hnone : conn.strms fr.streamId = none)
    (hopen : idtrOpen (conn.ids (bidiStream fr.streamId)).remoteIdtr fr.streamId = some idtr)
    (hrecv : connRecvStream conn fr = (r, conn')) : Opened fr.streamId conn conn' := by
  unfold connRecvStream at hrecv
  rw [hcheck] at hrecv
  dsimp only at hrecv
  rw [connFindOrOpenStream_open hnone h.remote hopen, andThen_ok] at hrecv
  have hfresh : FreshStrm (openedStrm conn fr.streamId) := openedStrm_receivedNothing h.bidi
  have hsid := openedStrm_streamId conn fr.streamId
  have hfound : (openRemote conn fr.streamId idtr).strms (openedStrm conn fr.streamId).streamId =
      some (openedStrm conn fr.streamId) := setStrm_find _ _
  have hlog := openRemote_log conn fr.streamId idtr
  have hlogged : ∃ evs, (openRemote conn fr.streamId idtr).log = conn.log ++ evs := ⟨_, hlog⟩
  generalize openRemote conn fr.streamId idtr = conn₁ at hrecv hlogged hfound
  generalize openedStrm conn fr.streamId = strm at hrecv hfresh hsid hfound
  dsimp only at hrecv
  have hid : strm.streamId ≠ 0 := hsid ▸ h.nonzero
  rw [← hsid]
  refine Opened.after ?_ hlogged
  rcases andThen_cases hrecv with ⟨e, h₁, rfl⟩ | ⟨_, conn₂, h₁, h₂⟩
  · refine .waiting strm ?_ rfl (.inl hfresh.shutRd)
    rcases connRecvStreamCharge_cases h₁ with ⟨rfl, -⟩ | ⟨-, -, -, rfl⟩
    · exact hfound
    · exact hfound
  have hcharge : conn₂.log = conn₁.log := by
    rcases connRecvStreamCharge_cases h₁ with ⟨rfl, -⟩ | ⟨-, -, -, rfl⟩
    · rfl
    · rfl
  refine Opened.of_log ?_ hcharge
  split at h₂
  · exact connRecvStreamFin_opened hfresh hid h₂
  · next hfin =>
    refine connRecvStreamNoFin_opened hfresh hid ?_ h₂
    -- A frame without data and without FIN does not pass the checks.
    unfold connCheckStreamFrame at hcheck
    rw [if_neg (fun hc => hfin hc.2)] at hcheck
    have hlen : fr.data.length ≠ 0 := by
      intro hc
      rw [if_pos ⟨by simpa using hfin, hc⟩] at hcheck
      cases hcheck
    rw [StreamFrame.endOffset]
    omega

theorem connRecvStopSending_log (conn : Conn) (stop : StopSendingFrame) :
    ∃ evs, (connRecvStopSending conn stop).2.log = conn.log ++ evs := by
  have hsame : ∃ evs, conn.log = conn.log ++ evs := ⟨[], (List.append_nil _).symm⟩
  unfold connRecvStopSending
  split
  · exact hsame
  dsimp only
  split
  · exact hsame
  split
  · split
    · split
      · exact hsame
      · exact ⟨[], by rw [Conn.setIds_log, List.append_nil]⟩
    · exact hsame
  · next strm _ =>
    obtain ⟨evs, hlog, -⟩ := (ngtcp2ConnCloseStreamIfShutRdwr_onStrm (Prod.eta (ngtcp2ConnCloseStreamIfShutRdwr
      ((connRstStream conn strm 0).setStrm strm.markSentRst) strm.markSentRst stop.appErrorCode)).symm).told
    exact ⟨.rstQueued strm.streamId :: evs, hlog.trans (List.append_assoc _ _ _)⟩

/-- A STOP_SENDING frame does not close a stream that can still receive. -/
theorem connRecvStopSending_opened {conn₁ : Conn} (hid : stop.streamId ≠ 0)
    (ho : Opened stop.streamId conn conn₁) :
    Opened stop.streamId conn (connRecvStopSending conn₁ stop).2 := by
  cases ho with
  | told evs log fin data mem =>
    obtain ⟨evs', hlog⟩ := connRecvStopSending_log conn₁ stop
    exact .told (evs ++ evs') (by rw [hlog, log, List.append_assoc]) fin data
      (List.mem_append_left _ mem)
  | waiting strm find sid undone =>
    have hnot : strmShutRdwr strm.markSentRst = false := by
      unfold strmShutRdwr
      rcases undone with hrd | ⟨hrst, hrx⟩
      · have hrd' : strm.markSentRst.shutRd = false := hrd
        simp [hrd']
      · have hrst' : strm.markSentRst.recvRst = false := hrst
        have hrx' : robFirstGapOffset strm.markSentRst.rob ≠ strm.markSentRst.lastRxOffset := hrx
        simp [hrst', hrx']
    unfold connRecvStopSending
    rw [if_neg hid]
    cases connCheckStreamId conn₁ stop.streamId with
    | some e => exact .waiting strm find sid undone
    | none =>
      dsimp only
      rw [find]
      dsimp only
      unfold ngtcp2ConnCloseStreamIfShutRdwr
      rw [hnot]
      refine .waiting strm.markSentRst ?_ sid undone
      have hkey : strm.markSentRst.streamId = stop.streamId := sid
      rw [← hkey]
      exact setStrm_find _ _

/-- The STREAM frame is refused for its format, without a look at the stream. -/
def RefusedFormat (fr : StreamFrame) : Prop :=
  (fr.fin = false ∧ fr.data.length = 0) ∨ subU64 maxVarint fr.data.length < fr.offset

theorem connCheckStreamFrame_isSome_iff (h : NewRemoteBidi conn fr.streamId) :
    (connCheckStreamFrame conn fr).isSome = true ↔ RefusedFormat fr := by
  unfold connCheckStreamFrame RefusedFormat
  rw [if_neg (fun hc => h.nonzero hc.1), h.checkId]
  dsimp only
  have hbidi : ¬((!bidiStream fr.streamId) = true ∧ connLocalStream conn fr.streamId = true ∧
    fr.endOffset ≠ 0) := by
    rw [h.bidi]
    exact fun hc => Bool.false_ne_true hc.1
  rw [if_neg hbidi]
  by_cases hempty : (!fr.fin) = true ∧ fr.data.length = 0
  · rw [if_pos hempty]
    have hfin : fr.fin = false := by simpa using hempty.1
    exact iff_of_true rfl (.inl ⟨hfin, hempty.2⟩)
  · rw [if_neg hempty]
    have hnot : ¬(fr.fin = false ∧ fr.data.length = 0) := fun hc => hempty ⟨by rw [hc.1]; rfl, hc.2⟩
    by_cases hoff : subU64 maxVarint fr.data.length < fr.offset
    · rw [if_pos hoff]
      exact iff_of_true rfl (.inr hoff)
    · rw [if_neg hoff]
      exact iff_of_false Bool.false_ne_true fun hc => hc.elim hnot hoff

/-- A refused STREAM frame changes nothing in either order. -/
theorem streamThenStop_refused (h : NewRemoteBidi conn stop.streamId) (hc : StrmsUsed conn)
    (hcheck : (connCheckStreamFrame conn fr).isSome = true) :
    streamThenStop conn fr stop = stopThenStream conn fr stop := by
  obtain ⟨hnone, hclosed, idtr, hopen⟩ := h.opens hc
  obtain ⟨e, he⟩ := Option.isSome_iff_exists.mp hcheck
  have hfirst : connRecvStream conn fr = (.error e, conn) := by
    unfold connRecvStream
    rw [he]
  have hsecond : (connRecvStream (connRecvStopSending conn stop).2 fr).2 =
    (connRecvStopSending conn stop).2 := by
    rw [connRecvStopSending_new h hnone hclosed hopen]
    unfold connRecvStream
    rw [connCheckStreamFrame_setIds, he]
  unfold streamThenStop stopThenStream
  rw [hfirst, hsecond]

/-- STOP_SENDING first: the STREAM frame is ignored. -/
theorem stopThenStream_ignored (h : NewRemoteBidi conn stop.streamId)
    (hid : fr.streamId = stop.streamId)
    (hc : StrmsUsed conn) : (stopThenStream conn fr stop).log = conn.log ∧
      (stopThenStream conn fr stop).strms stop.streamId = none := by
  obtain ⟨hnone, hclosed, idtr, hopen⟩ := h.opens hc
  obtain ⟨hfind, -⟩ : (conn.setIds (bidiStream stop.streamId)
      { conn.ids (bidiStream stop.streamId) with remoteIdtr := idtr }).strms stop.streamId = none ∧ True := by
    rw [Conn.setIds_strms]
    exact ⟨hnone, trivial⟩
  have hagain : idtrOpen ((conn.setIds (bidiStream stop.streamId)
      { conn.ids (bidiStream stop.streamId) with remoteIdtr := idtr }).ids (bidiStream stop.streamId)).remoteIdtr
        stop.streamId = none := by
    rw [Conn.ids_setIds, if_pos rfl]
    exact idtrOpen_used (hc.ids.sorted _) hopen
  unfold stopThenStream
  rw [connRecvStopSending_new h hnone hclosed hopen]
  unfold connRecvStream
  rw [connCheckStreamFrame_setIds]
  cases hcheck : connCheckStreamFrame conn fr with
  | some e => exact ⟨Conn.setIds_log _ _ _, hfind⟩
  | none =>
    dsimp only
    rw [hid, connFindOrOpenStream_closed hfind (.inr hagain), andThen_ok]
    exact ⟨Conn.setIds_log _ _ _, hfind⟩

/-- The two frames commute exactly if the STREAM frame is refused for its format. -/
theorem stopSending_stream_order (hreach : Reachable conn) (h : NewRemoteBidi conn fr.streamId)
    (hid : stop.streamId = fr.streamId) :
    SameRecvSide fr.streamId (streamThenStop conn fr stop) (stopThenStream conn fr stop) ↔
    RefusedFormat fr := by
  have hc := hreach.strmsUsed
  have h' : NewRemoteBidi conn stop.streamId := hid ▸ h
  rw [← connCheckStreamFrame_isSome_iff h]
  constructor
  · intro hsame
    by_contra hcheck
    have hcheck : connCheckStreamFrame conn fr = none := Option.not_isSome_iff_eq_none.mp hcheck
    obtain ⟨hnone, -, idtr, hopen⟩ := h.opens hc
    obtain ⟨hlog, hfind⟩ := stopThenStream_ignored h' hid.symm hc
    have ho := connRecvStream_new h hcheck hnone hopen (Prod.eta (connRecvStream conn fr)).symm
    rw [← hid] at ho hsame
    have ho := connRecvStopSending_opened h'.nonzero ho
    cases ho with
    | told evs log fin data mem =>
      have hlen := congrArg List.length hsame.delivered
      have hlog' : (streamThenStop conn fr stop).log = conn.log ++ evs := log
      rw [hlog, hlog', List.filter_append, List.length_append] at hlen
      have hpos := deliversOn_filter_lt mem
      omega
    | waiting strm find sid undone =>
      have hstrm := hsame.strm
      have hfind' : (streamThenStop conn fr stop).strms stop.streamId = some strm := find
      rw [hfind, hfind'] at hstrm
      cases hstrm
  · intro hcheck
    rw [streamThenStop_refused h' hc hcheck]
    exact ⟨rfl, rfl⟩

end

theorem smallServer_reachable : Reachable smallServer := (Initial.server ..).reachable

theorem smallServer_new_four : NewRemoteBidi smallServer 4 where
  nonzero := by decide
  bidi := rfl
  remote := rfl
  allowed := by decide
  unused := not_used_of_idtrOpen (smallServer_reachable.strmsUsed).ids rfl rfl

/-- The data of stream 4 is lost if its STOP_SENDING frame comes first. -/
theorem stopSending_stream_lost :
    ¬∀ (conn : Conn) (fr : StreamFrame) (stop : StopSendingFrame), Reachable conn →
    NewRemoteBidi conn fr.streamId → stop.streamId = fr.streamId →
      SameRecvSide fr.streamId (streamThenStop conn fr stop) (stopThenStream conn fr stop) := by
  intro h
  have hsame := (h smallServer ⟨4, 0, [8], false⟩ ⟨4,
    7⟩ smallServer_reachable smallServer_new_four rfl).delivered
  have hlost : (stopThenStream smallServer ⟨4, 0, [8], false⟩ ⟨4, 7⟩).log.filter
    (Event.deliversOn 4) = [] := by decide
  have htold : (streamThenStop smallServer ⟨4, 0, [8], false⟩ ⟨4, 7⟩).log.filter
    (Event.deliversOn 4) =
      [.recvStreamData 4 false [8]] := by decide
  dsimp only at hsame
  rw [hlost, htold] at hsame
  cases hsame

/-- A STREAM frame without data and without FIN. -/
def emptyStream : StreamFrame := ⟨4, 0, [], false⟩

/-- It is refused in both orders. -/
theorem stopSending_stream_order_empty :
    SameRecvSide emptyStream.streamId (streamThenStop smallServer emptyStream ⟨4, 7⟩)
    (stopThenStream smallServer emptyStream ⟨4, 7⟩) :=
  (stopSending_stream_order smallServer_reachable smallServer_new_four rfl).mpr (.inl ⟨rfl, rfl⟩)

end Ngtcp2
