import Polygon.Changes

/-!
# What received frames change

The changes that each frame handler makes, whatever it returns short of a fatal error.
-/
namespace Ngtcp2

open Ranges

section
variable {H : List Frame} {K : List Kind} {conn conn₁ conn' : Conn} {strm strm' : Strm}

/-- A call into the application that does not end the connection is logged, and the work goes on. -/
theorem connCall_andThen {α : Type} {ev : Event} {f : Unit → Conn → Result α} {r : Except Err α}
    (h : (connCall conn ev).andThen f = (r, conn')) (hr : ¬Fatal r) :
    f () (conn.tell ev) = (r, conn') := by
  rcases connCall_cases conn ev with hc | hc
  · rw [hc] at h
    exact h
  · rw [hc] at h
    obtain ⟨rfl, -⟩ := Prod.mk.inj h
    exact absurd ⟨_, rfl, rfl⟩ hr

/-- A sequence of two parts that both make changes of some kinds. -/
theorem Changes.andThen {α β : Type} {x : Result α} {f : α → Conn → Result β} {r : Except Err β}
    (h : x.andThen f = (r, conn')) (hr : ¬Fatal r)
    (first : ∀ a conn₁, x = (a, conn₁) → ¬Fatal a → Changes H K conn conn₁)
    (second : ∀ a conn₁, x = (.ok a, conn₁) → f a conn₁ = (r, conn') → Changes H K conn₁ conn') :
    Changes H K conn conn' := by
  rcases andThen_cases h with ⟨e, hx, rfl⟩ | ⟨a, conn₁, hx, h⟩
  · exact first _ _ hx fun hc => hr hc.cast
  · exact (first _ _ hx (not_fatal_ok a)).trans (second a conn₁ hx h)

theorem Idle.tell (conn : Conn) {ev : Event} (hev : ev.silent = true) : Idle conn (conn.tell ev) := by
  constructor <;> first | rfl | exact id | exact ⟨[ev], by simpa using hev, rfl⟩

/-- The receive side of a stream is written back, and the stream may leave or join the list. -/
theorem Changes.moveStrm {fcStrms : List Nat} (find : conn.strms strm.streamId = some strm)
    (tx : SameTx strm strm')
    (zero : strm.streamId = 0 → strm'.shutRd = strm.shutRd)
    (fc : FcMove conn.fcStrms strm strm' fcStrms)
    (hk : Kind.rx ∈ K) : Changes H K conn ((conn.setFcStrms fcStrms).setStrm strm') := by
  have h := Change.rx (H := H) find tx zero conn.rxOffset [] (by simp) fc
  rw [Conn.tells_nil] at h
  exact .one h hk

theorem Changes.setStrm (find : conn.strms strm.streamId = some strm) (tx : SameTx strm strm')
    (zero : strm.streamId = 0 → strm'.shutRd = strm.shutRd) (onFc : strm'.onFc = strm.onFc)
    (hk : Kind.rx ∈ K) :
    Changes H K conn (conn.setStrm strm') := .moveStrm find tx zero (.same onFc) hk

theorem Changes.deliver {ev : Event} (find : conn.strms strm.streamId = some strm)
    (tx : SameTx strm strm')
    (zero : strm.streamId = 0 → strm'.shutRd = strm.shutRd) (hev : ev.deliversTo strm.streamId)
    {fcStrms : List Nat}
    (fc : FcMove conn.fcStrms strm strm' fcStrms) (hk : Kind.rx ∈ K) :
    Changes H K conn (((conn.setFcStrms fcStrms).setStrm strm').tell ev) := by
  have htold : ∀ e ∈ [ev], e.deliversTo strm.streamId := by simpa using hev
  exact .one (Change.rx find tx zero conn.rxOffset [ev] htold fc) hk

theorem SameTx.trans {strm₁ : Strm} (h : SameTx strm strm₁) (h' : SameTx strm₁ strm') :
    SameTx strm strm' :=
  ⟨h'.streamId.trans h.streamId, h'.txOffset.trans h.txOffset,
    h'.ackedTxOffset.trans h.ackedTxOffset,
    h'.maxTxOffset.trans h.maxTxOffset, h'.txBuf.trans h.txBuf, h'.shutWr.trans h.shutWr,
    h'.sentRst.trans h.sentRst, h'.maxRxOffset.trans h.maxRxOffset⟩

theorem SameTx.setRob (strm : Strm) (rob : Rob) : SameTx strm (strm.setRob rob) := by
  constructor <;> rfl

theorem setStrm_find (conn : Conn) (strm : Strm) :
    (conn.setStrm strm).strms strm.streamId = some strm := if_pos rfl

/-- The credit of a stream extended, and the stream put on the list of those that owe a frame. -/
theorem connExtendMaxStreamOffset_cases (conn : Conn) (strm : Strm) (datalen : Nat) :
    ∃ strm' fcStrms, connExtendMaxStreamOffset conn strm datalen =
        (strm', (conn.setFcStrms fcStrms).setStrm strm') ∧ SameTx strm strm' ∧ SameRx strm strm' ∧
      FcMove conn.fcStrms strm strm' fcStrms := by
  unfold connExtendMaxStreamOffset
  dsimp only
  generalize hs : (if strm.unsentMaxRxOffset ≤ subU64 maxVarint datalen then
    strm.setUnsentMaxRxOffset (addU64 strm.unsentMaxRxOffset datalen) else strm) = s
  obtain ⟨htx, hrx, hfc⟩ : SameTx strm s ∧ SameRx strm s ∧ s.onFc = strm.onFc := by
    rw [← hs]
    split <;> exact ⟨(by constructor <;> rfl),
      (by constructor <;> first | rfl | exact id | exact fun _ => rfl), rfl⟩
  split
  · next hlink =>
    have hoff : strm.onFc = false := by
      rw [← hfc]
      simp only [Bool.and_eq_true, Bool.not_eq_true'] at hlink
      exact hlink.1.2
    have hid : (s.setOnFc true).streamId = strm.streamId := htx.streamId
    rw [hid]
    refine ⟨s.setOnFc true, _, rfl, ?_, ?_, .link hoff rfl⟩
    · exact htx.trans (by constructor <;> rfl)
    · exact ⟨hrx.streamId, hrx.lastRxOffset, hrx.rob, hrx.shutRd, hrx.recvRst, hrx.zero, hrx.stop⟩
  · exact ⟨s, conn.fcStrms, rfl, htx, hrx, .same hfc⟩

/-! ## Closing -/

theorem ngtcp2ConnCloseStream_changes {code : Nat} {r : Except Err Unit}
    (find : conn.strms strm.streamId = some strm)
    (shut : strmShutRdwr strm = true) (h : ngtcp2ConnCloseStream conn strm code = (r, conn'))
    (hr : ¬Fatal r) :
    Changes H [.close, .idle] conn conn' := by
  unfold ngtcp2ConnCloseStream at h
  simp only [find, connCallStreamClose] at h
  have h := connCall_andThen h hr
  obtain ⟨-, rfl⟩ := Prod.mk.inj h
  generalize hcode : (if strm.appErrorCode = 0 then strm.appErrorCode else code) = code'
  have hend : ∀ conn₂ : Conn, conn₂.fcStrms = conn.fcStrms →
    Changes H [.close, .idle] conn (conn₂.setFcStrms
        (if strm.onFc then conn.fcStrms.erase strm.streamId else conn.fcStrms)) →
      Changes H [.close, .idle] conn (connImmediateAck
        (if strm.onFc then conn₂.setFcStrms (conn₂.fcStrms.erase strm.streamId) else conn₂)) := by
    intro conn₂ hfc hch
    refine hch.trans (Idle.changes ?_ (by simp))
    split
    · rw [hfc]
      constructor <;> first | rfl | exact fun _ => rfl | exact log_same _
    · constructor <;> first | rfl | exact hfc | exact fun _ => rfl | exact log_same _
  have hfc : ∀ (conn : Conn) bidi ids, (conn.setIds bidi ids).fcStrms = conn.fcStrms :=
    fun _ bidi _ => by
    cases bidi <;> rfl
  apply hend
  · split
    · rfl
    · exact hfc _ _ _
  generalize hconn : (conn.removeStrm strm.streamId).tell (.streamClose strm.streamId code') = conn₁
  have hclose : ∀ {bidi unsent}, CloseCredit conn₁ strm.streamId bidi unsent →
    Changes H [.close, .idle] conn
      ((conn₁.setIds bidi { conn₁.ids bidi with unsentMaxRemoteStreamId := unsent }).setFcStrms
        (if strm.onFc then conn.fcStrms.erase strm.streamId else conn.fcStrms)) := by
    intro bidi unsent credit
    rw [← hconn] at credit ⊢
    have hch := Change.close (H := H) find shut code' credit
    unfold closeStrm at hch
    generalize (if strm.onFc then conn.fcStrms.erase strm.streamId else conn.fcStrms) =
      fcStrms at hch ⊢
    have hset : ∀ (conn : Conn) ids, (conn.setFcStrms fcStrms).setIds bidi ids =
      (conn.setIds bidi ids).setFcStrms fcStrms := by
      cases bidi <;> exact fun _ _ => rfl
    have hch : Change H .close conn
      ((((conn.removeStrm strm.streamId).tell (.streamClose strm.streamId code')).setFcStrms
        fcStrms).setIds bidi { conn.ids bidi with unsentMaxRemoteStreamId := unsent }) := hch
    rw [hset] at hch
    exact .one hch (by simp)
  -- Only a stream of the peer gives it credit for another one.
  split
  · next hloc =>
    have hkeep : CloseCredit conn₁ strm.streamId true (conn₁.ids true).unsentMaxRemoteStreamId := by
      unfold CloseCredit
      rw [if_pos hloc]
    exact hclose hkeep
  · next hloc =>
    have hextend : CloseCredit conn₁ strm.streamId (bidiStream strm.streamId)
        (handleRemoteStreamIdExtension (conn₁.ids (bidiStream strm.streamId))).unsentMaxRemoteStreamId := by
      unfold CloseCredit
      rw [if_neg hloc]
      exact ⟨rfl, rfl⟩
    have heq : ∀ ids : StreamIds, handleRemoteStreamIdExtension ids =
        { ids with unsentMaxRemoteStreamId := (handleRemoteStreamIdExtension ids).unsentMaxRemoteStreamId } := by
      intro ids
      unfold handleRemoteStreamIdExtension
      split <;> rfl
    rw [heq]
    exact hclose hextend

theorem ngtcp2ConnCloseStreamIfShutRdwr_changes {code : Nat} {r : Except Err Unit}
    (find : conn.strms strm.streamId = some strm)
    (h : ngtcp2ConnCloseStreamIfShutRdwr conn strm code = (r, conn')) (hr : ¬Fatal r) :
    Changes H [.close, .idle] conn conn' := by
  unfold ngtcp2ConnCloseStreamIfShutRdwr at h
  split at h
  · next shut => exact ngtcp2ConnCloseStream_changes find shut h hr
  · obtain ⟨-, rfl⟩ := Prod.mk.inj h
    exact .refl _

/-! ## STREAM frames -/

theorem connEmitPendingStreamData_changes (fuel : Nat) {rxOffset : Nat} {r : Except Err Strm}
    (find : conn.strms strm.streamId = some strm)
    (h : connEmitPendingStreamData fuel conn strm rxOffset = (r, conn')) (hr : ¬Fatal r) :
    Changes H [.rx, .idle] conn conn' ∧ ∀ strm', r = .ok strm' →
    conn'.strms strm'.streamId = some strm' := by
  induction fuel generalizing conn strm rxOffset with
  | zero =>
    obtain ⟨rfl, -⟩ := Prod.mk.inj h
    exact absurd fatal_abort hr
  | succ fuel ih =>
    unfold connEmitPendingStreamData at h
    split at h
    · obtain ⟨rfl, -⟩ := Prod.mk.inj h
      exact absurd fatal_abort hr
    next data _ =>
    split at h
    · split at h
      · obtain ⟨rfl, rfl⟩ := Prod.mk.inj h
        refine ⟨.refl _, fun strm' hs => ?_⟩
        obtain rfl := Except.ok.inj hs
        exact find
      · obtain ⟨rfl, -⟩ := Prod.mk.inj h
        exact absurd fatal_abort hr
    have h := connCall_andThen h hr
    split at h
    · obtain ⟨rfl, -⟩ := Prod.mk.inj h
      exact absurd fatal_abort hr
    next rob _ =>
    obtain ⟨hch, hend⟩ := ih (setStrm_find (conn.tell _) (strm.setRob rob)) h
    exact ⟨.trans (.deliver find (SameTx.setRob strm rob) (fun _ => rfl) (.inr (.inl ⟨_, data, rfl⟩)) (.same rfl) (by simp)) hch, hend⟩

theorem connCallRecvStream0Data_tell {data : List UInt8} {r : Except Err Unit}
    (h : connCallRecvStream0Data conn data = (r, conn')) :
    conn' = conn.tell (.recvStream0Data data) := by
  unfold connCallRecvStream0Data at h
  dsimp only at h
  split at h <;> exact (Prod.mk.inj h).2.symm

/-- The next bytes of stream 0 are delivered. -/
theorem Changes.deliver0 (find : conn.strms strm.streamId = some strm) (hid : strm.streamId = 0)
    (data : List UInt8)
    (hk : Kind.rx ∈ K) : Changes H K conn (conn.tell (.recvStream0Data data)) := by
  have h : Changes H K conn ((conn.setStrm strm).tell (.recvStream0Data data)) :=
    .deliver find (by constructor <;> rfl) (fun _ => rfl) (.inr (.inr ⟨hid, data, rfl⟩))
      (.same rfl) hk
  rwa [Conn.setStrm_of_eq find] at h

theorem connEmitPendingStream0Data_changes (fuel : Nat) {rxOffset : Nat} {r : Except Err Strm}
    (find : conn.strms strm.streamId = some strm) (hid : strm.streamId = 0)
    (h : connEmitPendingStream0Data fuel conn strm rxOffset = (r, conn')) (hr : ¬Fatal r) :
    Changes H [.rx, .idle] conn conn' ∧ ∀ strm', r = .ok strm' →
    conn'.strms strm'.streamId = some strm' := by
  induction fuel generalizing conn strm rxOffset with
  | zero =>
    obtain ⟨rfl, -⟩ := Prod.mk.inj h
    exact absurd fatal_abort hr
  | succ fuel ih =>
    unfold connEmitPendingStream0Data at h
    split at h
    · obtain ⟨rfl, -⟩ := Prod.mk.inj h
      exact absurd fatal_abort hr
    next data _ =>
    split at h
    · split at h
      · obtain ⟨rfl, rfl⟩ := Prod.mk.inj h
        refine ⟨.refl _, fun strm' hs => ?_⟩
        obtain rfl := Except.ok.inj hs
        exact find
      · obtain ⟨rfl, -⟩ := Prod.mk.inj h
        exact absurd fatal_abort hr
    rcases andThen_cases h with ⟨e, hcall, rfl⟩ | ⟨_, conn₁, hcall, h⟩
    · obtain rfl := connCallRecvStream0Data_tell hcall
      exact ⟨.deliver0 find hid data (by simp), by simp⟩
    obtain rfl := connCallRecvStream0Data_tell hcall
    obtain ⟨strm₁, fcStrms, heq, htx, hrx, hfc⟩ :=
      connExtendMaxStreamOffset_cases (conn.tell (.recvStream0Data data))
      (strm.setUnsentMaxRxOffset (strm.unsentMaxRxOffset + data.length)) data.length
    dsimp only at h
    rw [heq] at h
    dsimp only at h
    split at h
    · obtain ⟨rfl, -⟩ := Prod.mk.inj h
      exact absurd fatal_abort hr
    next rob _ =>
    obtain ⟨hch, hend⟩ := ih (setStrm_find _ (strm₁.setRob rob)) (htx.streamId.trans hid) h
    have htx' : SameTx strm (strm₁.setRob rob) :=
      ⟨htx.streamId, htx.txOffset, htx.ackedTxOffset, htx.maxTxOffset,
      htx.txBuf, htx.shutWr, htx.sentRst, htx.maxRxOffset⟩
    have hmove : FcMove conn.fcStrms strm (strm₁.setRob rob) fcStrms := by
      cases hfc with
      | same onFc => exact .same onFc
      | link off on => exact .link off on
      | unlink on off => exact .unlink on off
    have hdeliver : Changes H [.rx, .idle] conn
        (((conn.setFcStrms fcStrms).setStrm (strm₁.setRob rob)).tell (.recvStream0Data data)) :=
      .deliver find htx' (fun _ => hrx.shutRd) (.inr (.inr ⟨hid, data, rfl⟩)) hmove (by simp)
    rw [Conn.setStrm_setStrm _ (by rfl)] at hch
    exact ⟨hdeliver.trans hch, hend⟩

/-- The kinds of changes that processing a STREAM frame makes. -/
def streamKinds : List Kind := [.idle, .rx, .openRemote, .close]

/-- The delivery part of `conn_recv_stream`, before the stream is closed. -/
theorem connRecvStreamDeliver_inner {data : List UInt8} {rob : Rob} {fin : Bool} {rxOffset : Nat}
    {r : Except Err Strm}
    (find : conn.strms strm.streamId = some strm)
    (h : (if (strm.setRob rob).streamId = 0 then
        (connCallRecvStream0Data (conn.setStrm (strm.setRob rob)) data).andThen fun _ conn =>
        connEmitPendingStream0Data (emitFuel (strm.setRob rob).rob) conn (strm.setRob rob) rxOffset
      else
        (connCallRecvStreamData (conn.setStrm (strm.setRob rob)) (strm.setRob rob).streamId fin data).andThen
          fun _ conn =>
        connEmitPendingStreamData (emitFuel (strm.setRob rob).rob) conn
        (strm.setRob rob) rxOffset) = (r, conn'))
    (hr : ¬Fatal r) :
    Changes H [.rx, .idle] conn conn' ∧ ∀ strm', r = .ok strm' →
    conn'.strms strm'.streamId = some strm' := by
  have hset : Changes H [.rx, .idle] conn (conn.setStrm (strm.setRob rob)) :=
    .setStrm find (SameTx.setRob strm rob) (fun _ => rfl) rfl (by simp)
  split at h
  · next hid =>
    have hdeliver : Changes H [.rx, .idle] (conn.setStrm (strm.setRob rob))
        ((conn.setStrm (strm.setRob rob)).tell (.recvStream0Data data)) :=
      .deliver0 (setStrm_find conn (strm.setRob rob)) hid data (by simp)
    rcases andThen_cases h with ⟨e, hcall, rfl⟩ | ⟨_, conn₁, hcall, h⟩
    · obtain rfl := connCallRecvStream0Data_tell hcall
      exact ⟨hset.trans hdeliver, by simp⟩
    · obtain rfl := connCallRecvStream0Data_tell hcall
      obtain ⟨hch, hend⟩ :=
        connEmitPendingStream0Data_changes (H := H) _
          (setStrm_find (conn.tell _) (strm.setRob rob)) hid h hr
      exact ⟨hset.trans (hdeliver.trans hch), hend⟩
  · have h := connCall_andThen h hr
    obtain ⟨hch, hend⟩ := connEmitPendingStreamData_changes (H := H) _
      (setStrm_find (conn.tell _) (strm.setRob rob)) h hr
    exact ⟨.trans (.deliver find (SameTx.setRob strm rob) (fun _ => rfl) (.inr (.inl ⟨fin, data, rfl⟩)) (.same rfl) (by simp)) hch, hend⟩

theorem connRecvStreamDeliver_changes {fr : StreamFrame} {rxOffset : Nat} {r : Except Err Unit}
    (find : conn.strms strm.streamId = some strm)
    (h : connRecvStreamDeliver conn strm fr rxOffset = (r, conn')) (hr : ¬Fatal r) :
    Changes H streamKinds conn conn' := by
  unfold connRecvStreamDeliver at h
  split at h
  · refine Changes.andThen h hr (fun x conn₁ hx hne => ?_) fun strm₁ conn₁ hx h => ?_
    · exact (connRecvStreamDeliver_inner find hx hne).1.mono (by simp [streamKinds])
    · have hfind := (connRecvStreamDeliver_inner (H := H) find hx (not_fatal_ok _)).2 _ rfl
      exact (ngtcp2ConnCloseStreamIfShutRdwr_changes hfind h hr).mono (by simp [streamKinds])
  · refine .trans (.setStrm find (SameTx.setRob strm (strmRecvReordering strm fr).rob) (fun _ => rfl) rfl (by simp [streamKinds])) ?_
    exact (ngtcp2ConnCloseStreamIfShutRdwr_changes (setStrm_find _ (strmRecvReordering strm fr)) h hr).mono
      (by simp [streamKinds])

theorem connRecvStreamFin_changes {fr : StreamFrame} {r : Except Err Unit}
    (find : conn.strms strm.streamId = some strm)
    (hid : strm.streamId ≠ 0) (h : connRecvStreamFin conn strm fr = (r, conn')) (hr : ¬Fatal r) :
    Changes H streamKinds conn conn' := by
  unfold connRecvStreamFin at h
  split at h
  · split at h <;>
    · obtain ⟨-, rfl⟩ := Prod.mk.inj h
      exact .refl _
  split at h
  · obtain ⟨-, rfl⟩ := Prod.mk.inj h
    exact .refl _
  dsimp only at h
  have hfirst : Changes H streamKinds conn
    (conn.setStrm (strm.setLastRxOffset fr.endOffset).shutdownRd) :=
    .setStrm find (by constructor <;> rfl) (fun hzero => absurd hzero hid) rfl
      (by simp [streamKinds])
  have hfind := setStrm_find conn (strm.setLastRxOffset fr.endOffset).shutdownRd
  generalize (strm.setLastRxOffset fr.endOffset).shutdownRd = strm₁ at h hfirst hfind
  split at h
  · exact hfirst.trans ((ngtcp2ConnCloseStreamIfShutRdwr_changes hfind h hr).mono (by simp [streamKinds]))
  obtain ⟨strm₂, conn₂, hun, hch, hfind₂⟩ :
    ∃ strm₂ conn₂, fcUnlink (conn.setStrm strm₁) strm₁ = (strm₂, conn₂) ∧
      Changes H streamKinds (conn.setStrm strm₁) conn₂ ∧
        conn₂.strms strm₂.streamId = some strm₂ := by
    unfold fcUnlink
    split
    · next hon =>
      refine ⟨_, _, rfl, ?_, setStrm_find _ _⟩
      exact Changes.moveStrm hfind (by constructor <;> rfl) (fun _ => rfl) (.unlink hon rfl)
        (by simp [streamKinds])
    · exact ⟨_, _, rfl, .refl _, hfind⟩
  rw [hun] at h
  dsimp only at h
  refine hfirst.trans (hch.trans ?_)
  split at h
  · have h := connCall_andThen h hr
    have htell : Changes H streamKinds conn₂
      (conn₂.tell (.recvStreamData strm₂.streamId true [])) := by
      have hdel : Changes H streamKinds conn₂
        ((conn₂.setStrm strm₂).tell (.recvStreamData strm₂.streamId true [])) :=
        .deliver hfind₂ (by constructor <;> rfl) (fun _ => rfl) (.inr (.inl ⟨true, [], rfl⟩))
          (.same rfl) (by simp [streamKinds])
      rwa [Conn.setStrm_of_eq hfind₂] at hdel
    have hfind₃ : (conn₂.tell (.recvStreamData strm₂.streamId true [])).strms strm₂.streamId =
      some strm₂ := hfind₂
    exact htell.trans ((ngtcp2ConnCloseStreamIfShutRdwr_changes hfind₃ h hr).mono (by simp [streamKinds]))
  · exact connRecvStreamDeliver_changes hfind₂ h hr

theorem connRecvStreamNoFin_changes {fr : StreamFrame} {r : Except Err Unit}
    (find : conn.strms strm.streamId = some strm)
    (h : connRecvStreamNoFin conn strm fr = (r, conn'))
    (hr : ¬Fatal r) : Changes H streamKinds conn conn' := by
  unfold connRecvStreamNoFin at h
  split at h
  · obtain ⟨-, rfl⟩ := Prod.mk.inj h
    exact .refl _
  dsimp only at h
  have hfirst : Changes H streamKinds conn
      (conn.setStrm (strm.setLastRxOffset (max strm.lastRxOffset fr.endOffset))) :=
    .setStrm find (by constructor <;> rfl) (fun _ => rfl) rfl (by simp [streamKinds])
  have hfind := setStrm_find conn (strm.setLastRxOffset (max strm.lastRxOffset fr.endOffset))
  split at h
  · obtain ⟨-, rfl⟩ := Prod.mk.inj h
    exact hfirst
  split at h
  · obtain ⟨-, rfl⟩ := Prod.mk.inj h
    exact hfirst
  · exact hfirst.trans (connRecvStreamDeliver_changes hfind h hr)

theorem connFindOrOpenStream_changes {streamId : Nat} {r : Except Err (Option Strm)}
    (hkeyed : StrmsKeyed conn)
    (hcheck : connCheckStreamId conn streamId = none)
    (h : connFindOrOpenStream conn streamId = (r, conn')) :
    ∃ found, r = .ok found ∧ Changes H [.openRemote] conn conn' ∧
      ∀ strm, found = some strm →
      conn'.strms strm.streamId = some strm ∧ strm.streamId = streamId := by
  cases hs : conn.strms streamId with
  | some strm =>
    rw [connFindOrOpenStream_find hs] at h
    obtain ⟨rfl, rfl⟩ := Prod.mk.inj h
    refine ⟨some strm, rfl, .refl _, fun strm' hstrm => ?_⟩
    obtain rfl := Option.some.inj hstrm
    have hid := hkeyed _ _ hs
    exact ⟨hid.symm ▸ hs, hid⟩
  | none =>
    by_cases hloc : connLocalStream conn streamId = true
    · rw [connFindOrOpenStream_closed hs (.inl hloc)] at h
      obtain ⟨rfl, rfl⟩ := Prod.mk.inj h
      exact ⟨none, rfl, .refl _, by simp⟩
    have hremote : connLocalStream conn streamId = false := by simpa using hloc
    cases ho : idtrOpen (conn.ids (bidiStream streamId)).remoteIdtr streamId with
    | none =>
      rw [connFindOrOpenStream_closed hs (.inr ho)] at h
      obtain ⟨rfl, rfl⟩ := Prod.mk.inj h
      exact ⟨none, rfl, .refl _, by simp⟩
    | some idtr =>
      rw [connFindOrOpenStream_open hs hremote ho] at h
      obtain ⟨rfl, rfl⟩ := Prod.mk.inj h
      have hcredit : streamId ≤ (conn.ids (bidiStream streamId)).maxRemoteStreamId := by
        simp only [connCheckStreamId, hremote] at hcheck
        simpa using hcheck
      refine ⟨_, rfl, .one (.openRemote hs hremote hcredit ho) (by simp), fun strm' hstrm => ?_⟩
      obtain rfl := Option.some.inj hstrm
      exact ⟨setStrm_find _ (openedStrm conn streamId), openedStrm_streamId conn streamId⟩

theorem connCheckStreamFrame_id {fr : StreamFrame} (h : connCheckStreamFrame conn fr = none) :
    connCheckStreamId conn fr.streamId = none := by
  unfold connCheckStreamFrame at h
  split at h
  · simp at h
  split at h
  · simp at h
  split at h
  · simp at h
  · assumption

/-- Stream 0 has no end. -/
theorem connCheckStreamFrame_fin {fr : StreamFrame} (h : connCheckStreamFrame conn fr = none)
    (hfin : fr.fin = true) :
    fr.streamId ≠ 0 := by
  intro hid
  unfold connCheckStreamFrame at h
  rw [if_pos ⟨hid, hfin⟩] at h
  cases h

/-- `conn_recv_stream`, for any stream. -/
theorem connRecvStream_changes {fr : StreamFrame} {r : Except Err Unit} (hkeyed : StrmsKeyed conn)
    (h : connRecvStream conn fr = (r, conn')) (hr : ¬Fatal r) :
    Changes H streamKinds conn conn' := by
  unfold connRecvStream at h
  split at h
  · obtain ⟨-, rfl⟩ := Prod.mk.inj h
    exact .refl _
  next hcheck =>
  obtain ⟨found, conn₁, hfound⟩ :
    ∃ found conn₁, connFindOrOpenStream conn fr.streamId = (found, conn₁) := ⟨_, _, rfl⟩
  obtain ⟨found, rfl, hch, hfind⟩ :=
    connFindOrOpenStream_changes (H := H) hkeyed (connCheckStreamFrame_id hcheck) hfound
  rw [hfound, andThen_ok] at h
  refine (hch.mono (by simp [streamKinds])).trans ?_
  cases found with
  | none =>
    obtain ⟨-, rfl⟩ := Prod.mk.inj h
    exact .refl _
  | some strm =>
    obtain ⟨hfind, hid⟩ := hfind strm rfl
    dsimp only at h
    have hcharge : ∀ r conn₂, connRecvStreamCharge conn₁ strm fr.endOffset = (r, conn₂) →
        Changes H streamKinds conn₁ conn₂ ∧ conn₂.strms strm.streamId = some strm := by
      intro r conn₂ hc
      unfold connRecvStreamCharge at hc
      split at hc
      · obtain ⟨-, rfl⟩ := Prod.mk.inj hc
        exact ⟨.refl _, hfind⟩
      split at hc
      · dsimp only at hc
        split at hc
        · obtain ⟨-, rfl⟩ := Prod.mk.inj hc
          exact ⟨.refl _, hfind⟩
        · obtain ⟨-, rfl⟩ := Prod.mk.inj hc
          refine ⟨?_, hfind⟩
          have hsame : (conn₁.setRxOffset (conn₁.rxOffset + (fr.endOffset - strm.lastRxOffset))).setStrm strm =
              conn₁.setRxOffset (conn₁.rxOffset + (fr.endOffset - strm.lastRxOffset)) :=
                Conn.setStrm_of_eq hfind
          have hrx := Change.rx (H := H) hfind (by constructor <;> rfl : SameTx strm strm)
            (fun _ => rfl)
            (conn₁.rxOffset + (fr.endOffset - strm.lastRxOffset)) [] (by simp) (.same rfl)
          rw [Conn.tells_nil] at hrx
          have hrx : Change H .rx conn₁
            ((conn₁.setRxOffset (conn₁.rxOffset + (fr.endOffset - strm.lastRxOffset))).setStrm strm) := hrx
          rw [hsame] at hrx
          exact .one hrx (by simp [streamKinds])
      · obtain ⟨-, rfl⟩ := Prod.mk.inj hc
        exact ⟨.refl _, hfind⟩
    refine Changes.andThen h hr (fun a conn₂ ha _ => (hcharge a conn₂ ha).1) fun a conn₂ ha h => ?_
    obtain ⟨-, hfind₂⟩ := hcharge _ _ ha
    split at h
    · next hfin => exact connRecvStreamFin_changes hfind₂ (hid ▸ connCheckStreamFrame_fin hcheck hfin) h hr
    · exact connRecvStreamNoFin_changes hfind₂ h hr

/-! ## The other frames -/

theorem setIds_self (conn : Conn) (bidi : Bool) : conn.setIds bidi (conn.ids bidi) = conn := by
  cases bidi <;> rfl

theorem consumeId_none {streamId : Nat} (rxOffset : Nat)
    (h : idtrOpen (conn.ids (bidiStream streamId)).remoteIdtr streamId = none) :
    consumeId conn streamId rxOffset = conn.setRxOffset rxOffset := by
  simp only [consumeId, h, Option.getD_none]
  exact congrArg (Conn.setRxOffset · rxOffset) (setIds_self conn (bidiStream streamId))

theorem consumeId_some {streamId : Nat} {idtr : Idtr} (rxOffset : Nat)
    (h : idtrOpen (conn.ids (bidiStream streamId)).remoteIdtr streamId = some idtr) :
    consumeId conn streamId rxOffset = (conn.setIds (bidiStream streamId)
      { conn.ids (bidiStream streamId) with remoteIdtr := idtr }).setRxOffset rxOffset := by
  simp only [consumeId, h, Option.getD_some]

/-- A RST_STREAM frame is refused or ignored, uses up the ID, or ends the receive side of the stream. -/
theorem connRecvRstStream_cases {fr : RstStreamFrame} {r : Except Err Unit}
    (hkeyed : StrmsKeyed conn)
    (h : connRecvRstStream conn fr = (r, conn')) (hr : ¬Fatal r) : conn' = conn ∨
      (fr.streamId ≠ 0 ∧ conn.strms fr.streamId = none ∧ connLocalStream conn fr.streamId = false ∧
        connCheckStreamId conn fr.streamId = none ∧
        fr.finalOffset ≤ conn.localSettings.maxStreamData.toNat ∧
        connMaxDataViolated conn fr.finalOffset = false ∧
        conn' = consumeId conn fr.streamId (conn.rxOffset + fr.finalOffset)) ∨
      (∃ strm, conn.strms fr.streamId = some strm ∧ Changes H [.rx, .close, .idle] conn conn') := by
  have hsame : ∀ {e : Except Err Unit}, (e, conn) = (r, conn') → conn' = conn :=
    fun he => (Prod.mk.inj he).2.symm
  unfold connRecvRstStream at h
  split at h
  · exact .inl (hsame h)
  next hid =>
  split at h
  · exact .inl (hsame h)
  next hcheck =>
  dsimp only at h
  cases hs : conn.strms fr.streamId with
  | none =>
    simp only [hs] at h
    split at h
    · split at h <;> exact .inl (hsame h)
    next hremote =>
    split at h
    · exact .inl (hsame h)
    split at h
    · exact .inl (hsame h)
    next hflow =>
    obtain ⟨-, rfl⟩ := Prod.mk.inj h
    obtain ⟨hmax, hdata⟩ := not_or.mp hflow
    refine .inr (.inl ⟨hid, rfl, by simpa using hremote, hcheck, Nat.le_of_not_lt hmax, by simpa using hdata, ?_⟩)
    cases ho : idtrOpen (conn.ids (bidiStream fr.streamId)).remoteIdtr fr.streamId with
    | none => exact (consumeId_none _ ho).symm
    | some idtr =>
      have hrx : (conn.setIds (bidiStream fr.streamId) { conn.ids (bidiStream fr.streamId) with
          remoteIdtr := idtr }).rxOffset = conn.rxOffset := by
        unfold Conn.setIds
        split <;> rfl
      rw [consumeId_some _ ho]
      simp only [hrx]
  | some strm =>
    simp only [hs] at h
    split at h
    · exact .inl (hsame h)
    split at h
    · exact .inl (hsame h)
    split at h
    · exact .inl (hsame h)
    have hstrm := hkeyed _ _ hs
    have hfind : conn.strms strm.streamId = some strm := by rw [hstrm, hs]
    have hrx : Changes H [.rx, .close, .idle] conn
        ((conn.setRxOffset (conn.rxOffset + (fr.finalOffset - strm.lastRxOffset))).setStrm strm.markRecvRst) := by
      have hch := Change.rx (H := H) hfind (by constructor <;> rfl : SameTx strm strm.markRecvRst)
        (fun hzero => absurd (hstrm.symm.trans hzero) hid)
        (conn.rxOffset + (fr.finalOffset - strm.lastRxOffset)) [] (by simp)
        (.same rfl)
      rw [Conn.tells_nil] at hch
      exact .one hch (by simp)
    exact .inr (.inr ⟨strm, rfl,
      hrx.trans ((ngtcp2ConnCloseStreamIfShutRdwr_changes (setStrm_find _ strm.markRecvRst) h hr).mono (by simp))⟩)

theorem connRecvRstStream_changes {fr : RstStreamFrame} {r : Except Err Unit}
    (hkeyed : StrmsKeyed conn)
    (h : connRecvRstStream conn fr = (r, conn')) (hr : ¬Fatal r) :
    Changes H [.consume, .rx, .close, .idle] conn conn' := by
  rcases connRecvRstStream_cases (H := H) hkeyed h hr with rfl | ⟨hid, hs, hremote, -, -, -, rfl⟩
      | ⟨-, -, hch⟩
  · exact .refl _
  · exact .one (.consume hid hs hremote _) (by simp)
  · exact hch.mono (by simp)

/-- A STOP_SENDING frame is refused or ignored, uses up the ID, or resets the stream. -/
theorem connRecvStopSending_cases {fr : StopSendingFrame} {r : Except Err Unit}
    (hkeyed : StrmsKeyed conn)
    (h : connRecvStopSending conn fr = (r, conn')) (hr : ¬Fatal r) : conn' = conn ∨
      (fr.streamId ≠ 0 ∧ conn.strms fr.streamId = none ∧ connLocalStream conn fr.streamId = false ∧
        connCheckStreamId conn fr.streamId = none ∧
        conn' = consumeId conn fr.streamId conn.rxOffset) ∨
      (∃ strm, conn.strms fr.streamId = some strm ∧
      Changes H [.rst, .close, .idle] conn conn') := by
  have hsame : ∀ {e : Except Err Unit}, (e, conn) = (r, conn') → conn' = conn :=
    fun he => (Prod.mk.inj he).2.symm
  unfold connRecvStopSending at h
  split at h
  · exact .inl (hsame h)
  next hid =>
  split at h
  · exact .inl (hsame h)
  next hcheck =>
  dsimp only at h
  cases hs : conn.strms fr.streamId with
  | none =>
    simp only [hs] at h
    split at h
    · next hopen =>
      simp only [Bool.and_eq_true, Bool.not_eq_true'] at hopen
      split at h
      · exact .inl (hsame h)
      · next idtr ho =>
        obtain ⟨-, rfl⟩ := Prod.mk.inj h
        have hrx : ∀ ids : StreamIds,
          (conn.setIds (bidiStream fr.streamId) ids).setRxOffset conn.rxOffset =
            conn.setIds (bidiStream fr.streamId) ids := by
          intro ids
          unfold Conn.setIds
          split <;> rfl
        exact .inr (.inl ⟨hid, rfl, hopen.1, hcheck, by rw [consumeId_some _ ho, hrx]⟩)
    · exact .inl (hsame h)
  | some strm =>
    simp only [hs] at h
    have hfind : conn.strms strm.streamId = some strm := by rw [hkeyed _ _ hs, hs]
    have hrst : Changes H [.rst, .close,
      .idle] conn ((connRstStream conn strm 0).setStrm strm.markSentRst) :=
      .one (.rst hfind 0 strm.appErrorCode) (by simp)
    exact .inr (.inr ⟨strm, rfl,
      hrst.trans ((ngtcp2ConnCloseStreamIfShutRdwr_changes (setStrm_find _ strm.markSentRst) h hr).mono (by simp))⟩)

theorem connRecvStopSending_changes {fr : StopSendingFrame} {r : Except Err Unit}
    (hkeyed : StrmsKeyed conn)
    (h : connRecvStopSending conn fr = (r, conn')) (hr : ¬Fatal r) :
    Changes H [.consume, .rst, .close, .idle] conn conn' := by
  rcases connRecvStopSending_cases (H := H) hkeyed h hr with rfl | ⟨hid, hs, hremote, -, rfl⟩
      | ⟨-, -, hch⟩
  · exact .refl _
  · exact .one (.consume hid hs hremote _) (by simp)
  · exact hch.mono (by simp)

theorem connRecvMaxStreamData_changes {fr : MaxStreamDataFrame} {r : Except Err Unit}
    (hkeyed : StrmsKeyed conn)
    (h : connRecvMaxStreamData conn fr = (r, conn')) :
    Changes H [.openRemote, .raise] conn conn' := by
  unfold connRecvMaxStreamData at h
  split at h
  · obtain ⟨-, rfl⟩ := Prod.mk.inj h
    exact .refl _
  next hcheck =>
  obtain ⟨found, conn₁, hfound⟩ :
    ∃ found conn₁, connFindOrOpenStream conn fr.streamId = (found, conn₁) := ⟨_, _, rfl⟩
  obtain ⟨found, rfl, hch, hfind⟩ := connFindOrOpenStream_changes (H := H) hkeyed hcheck hfound
  rw [hfound, andThen_ok] at h
  refine (hch.mono (by simp)).trans ?_
  cases found with
  | none =>
    obtain ⟨-, rfl⟩ := Prod.mk.inj h
    exact .refl _
  | some strm =>
    obtain ⟨-, rfl⟩ := Prod.mk.inj h
    exact .one (.raiseStrm (hfind strm rfl).1 fr.maxStreamData) (by simp)

theorem connRecvMaxStreamId_changes {maxStreamId : Nat} {r : Except Err Unit}
    (h : connRecvMaxStreamId conn maxStreamId = (r, conn')) (hr : ¬Fatal r) :
    Changes H [.raise, .idle] conn conn' := by
  unfold connRecvMaxStreamId at h
  dsimp only at h
  rcases connCall_cases (conn.setIds (bidiStream maxStreamId) { conn.ids (bidiStream maxStreamId) with
      maxLocalStreamId := max (conn.ids (bidiStream maxStreamId)).maxLocalStreamId maxStreamId })
      (.extendMaxStreamId maxStreamId) with hc | hc
  · unfold connCallExtendMaxStreamId at h
    rw [hc] at h
    obtain ⟨rfl, rfl⟩ := Prod.mk.inj h
    exact .trans (.one (.raiseIds conn (bidiStream maxStreamId) maxStreamId) (by simp))
      ((Idle.tell _ rfl).changes (by simp))
  · unfold connCallExtendMaxStreamId at h
    rw [hc] at h
    obtain ⟨rfl, rfl⟩ := Prod.mk.inj h
    exact absurd ⟨_, rfl, rfl⟩ hr

end

end Ngtcp2
