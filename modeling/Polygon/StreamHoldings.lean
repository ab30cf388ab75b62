import Polygon.StoppedStream
import Polygon.Stream0Order

/-!
# Delivered and stored

What arrived of a stream of the application is delivered up to the first gap, and stored behind
it. The invariant is kept by every step whose lengths are those of data.
-/
namespace Ngtcp2

open Ranges

/-! ## What does not receive -/

/-- The buffer of a stream is the same, and its limit was announced before. -/
structure SameBuf (strm strm' : Strm) : Prop where
  streamId : strm'.streamId = strm.streamId := by rfl
  rob : strm'.rob = strm.rob := by rfl
  lastRxOffset : strm'.lastRxOffset = strm.lastRxOffset := by rfl
  recvRst : strm.recvRst = true → strm'.recvRst = true := by exact fun h => h
  shutRd : (strm.recvRst = true → strm.shutRd = true) → strm'.recvRst = true →
    strm'.shutRd = true := by exact fun h => h
  max : strm'.maxRxOffset = strm.maxRxOffset ∨
    strm'.maxRxOffset = strm.unsentMaxRxOffset := by exact .inl rfl
  unsent : strm'.unsentMaxRxOffset = strm.unsentMaxRxOffset ∨
    (strm.unsentMaxRxOffset ≤ strm'.unsentMaxRxOffset ∧
      strm'.unsentMaxRxOffset ≤ maxVarint) := by exact .inl rfl

/-- Nothing was received on the stream, and its credit fits into a frame. -/
structure Blank (strm : Strm) : Prop where
  fresh : RecvFresh strm
  unsent : strm.unsentMaxRxOffset = strm.maxRxOffset

theorem Blank.unsent_le {strm : Strm} (h : Blank strm) : strm.unsentMaxRxOffset ≤ maxVarint :=
  h.unsent ▸ h.fresh.max_le

/-- Nothing is received in between: the buffers are the same, and new streams have empty ones. -/
structure Aside (conn conn' : Conn) : Prop where
  strms : ∀ id strm', id ≠ 0 → conn'.strms id = some strm' →
    (∃ strm, conn.strms id = some strm ∧ SameBuf strm strm') ∨ (¬Used conn id ∧ Blank strm')
  data : ∀ id, deliveredData id conn'.log = deliveredData id conn.log

section
variable {H : List Frame} {K : List Kind} {conn conn₁ conn' : Conn} {strm strm' : Strm} {id : Nat}

theorem Aside.of_same (hstrms : ∀ id, id ≠ 0 → conn'.strms id = conn.strms id)
    (hdata : ∀ id, deliveredData id conn'.log = deliveredData id conn.log) : Aside conn conn' :=
  ⟨fun id strm' hid hfind => .inl ⟨strm', (hstrms id hid).symm.trans hfind, {}⟩, hdata⟩

theorem Aside.refl (conn : Conn) : Aside conn conn := .of_same (fun _ _ => rfl) fun _ => rfl

theorem Aside.congr (h : Aside conn conn₁) (hstrms : conn'.strms = conn₁.strms)
    (hlog : conn'.log = conn₁.log) : Aside conn conn' := by
  constructor
  · rw [hstrms]
    exact h.strms
  · rw [hlog]
    exact h.data

/-- A stream object is written back. -/
theorem Aside.of_set (find : conn.strms strm.streamId = some strm) (hsame : SameBuf strm strm')
    (hstrms : conn'.strms = (conn.setStrm strm').strms)
    (hdata : ∀ id, deliveredData id conn'.log = deliveredData id conn.log) : Aside conn conn' := by
  constructor
  · intro id s' hid hfind
    rw [hstrms, Conn.setStrm_strms, hsame.streamId] at hfind
    by_cases heq : id = strm.streamId
    · rw [if_pos heq] at hfind
      obtain rfl := Option.some.inj hfind
      exact .inl ⟨strm, heq ▸ find, hsame⟩
    · rw [if_neg heq] at hfind
      exact .inl ⟨s', hfind, {}⟩
  · exact hdata

/-- A stream is opened. -/
theorem Aside.of_open (hused : ¬Used conn strm.streamId) (hblank : Blank strm)
    (hstrms : conn'.strms = (conn.setStrm strm).strms)
    (hdata : ∀ id, deliveredData id conn'.log = deliveredData id conn.log) : Aside conn conn' := by
  constructor
  · intro id s' hid hfind
    rw [hstrms, Conn.setStrm_strms] at hfind
    by_cases heq : id = strm.streamId
    · rw [if_pos heq] at hfind
      obtain rfl := Option.some.inj hfind
      exact .inr ⟨heq ▸ hused, hblank⟩
    · rw [if_neg heq] at hfind
      exact .inl ⟨s', hfind, {}⟩
  · exact hdata

/-- A stream is removed. -/
theorem Aside.of_removed (streamId : Nat)
    (hstrms : ∀ id, conn'.strms id = if id = streamId then none else conn.strms id)
    (hdata : ∀ id, deliveredData id conn'.log = deliveredData id conn.log) : Aside conn conn' := by
  constructor
  · intro id s' hid hfind
    rw [hstrms] at hfind
    split at hfind
    · cases hfind
    · exact .inl ⟨s', hfind, {}⟩
  · exact hdata

theorem deliveredData_quiet {log evs : List Event} (h : ∀ ev ∈ evs, evData id ev = []) :
    deliveredData id (log ++ evs) = deliveredData id log := by
  have hnil : deliveredData id evs = [] := List.flatMap_eq_nil_iff.mpr h
  rw [deliveredData_append, hnil, List.append_nil]

theorem evData_of_silent {ev : Event} (h : ev.silent = true) : evData id ev = [] := by
  cases ev with
  | recvStreamData => simp [Event.silent, Event.neutral] at h
  | _ => rfl

theorem openedStrm_blank (conn : Conn) (id : Nat) : Blank (openedStrm conn id) := by
  refine ⟨openedStrm_fresh conn id, ?_⟩
  unfold openedStrm
  dsimp only
  split <;> rfl

theorem openRemote_aside {idtr : Idtr} (hinv : IdsInv conn)
    (hremote : connLocalStream conn id = false)
    (hopen : idtrOpen (conn.ids (bidiStream id)).remoteIdtr id = some idtr) :
    Aside conn (openRemote conn id idtr) := by
  have hunused : ¬Used conn (openedStrm conn id).streamId := by
    rw [openedStrm_streamId]
    exact not_used_of_idtrOpen hinv hremote hopen
  apply Aside.of_open hunused (openedStrm_blank conn id)
  · funext i
    show ((conn.setIds (bidiStream id) _).setStrm (openedStrm conn id)).strms i = _
    rw [Conn.setStrm_strms, Conn.setStrm_strms, Conn.setIds_strms]
  · intro i
    rw [openRemote_log]
    exact deliveredData_quiet fun ev hev => List.mem_singleton.mp hev ▸ rfl

/-- The changes that receive nothing. -/
theorem Change.aside {k : Kind} (h : Change H k conn conn') (hk : k ≠ .rx) (hext : k ≠ .extend)
    (hinv : IdsInv conn) : Aside conn conn' := by
  have htold : ∀ {log : List Event} (ev : Event), log = conn.log ++ [ev] →
      (∀ id, evData id ev = []) → ∀ id, deliveredData id log = deliveredData id conn.log := by
    rintro log ev rfl hev id
    exact deliveredData_quiet fun e he => List.mem_singleton.mp he ▸ hev id
  cases h with
  | idle same =>
    apply Aside.of_same
    · intro id _
      rw [same.strms]
    · intro id
      obtain ⟨evs, hsilent, hlog⟩ := same.log
      rw [hlog]
      exact deliveredData_quiet fun ev hev => evData_of_silent (hsilent ev hev)
  | encrypt hd => exact .of_same (fun _ _ => rfl) (htold _ rfl fun _ => rfl)
  | rx => exact absurd rfl hk
  | window find tx rx unsent =>
    have hsame := SameBuf.mk tx.streamId rx.rob rx.lastRxOffset (fun h => rx.recvRst.trans h)
      (fun h hr => rx.shutRd.trans (h (rx.recvRst.symm.trans hr))) (.inl tx.maxRxOffset)
      (.inl unsent)
    exact .of_set find hsame rfl fun _ => rfl
  | @announceStrm _ strm find =>
    have hsame : SameBuf strm ((strm.setMaxRxOffset strm.unsentMaxRxOffset).setOnFc false) :=
      ⟨rfl, rfl, rfl, fun h => h, fun h => h, .inr rfl, .inl rfl⟩
    exact .of_set find hsame rfl fun _ => rfl
  | extend => exact absurd rfl hext
  | extendConn => exact absurd rfl hext
  | openRemote none remote credit opens => exact openRemote_aside hinv remote opens
  | @openLocal _ strm bidi credit none init =>
    have hid : strm.streamId = (conn.ids bidi).nextLocalStreamId := by
      rcases init with rfl | rfl <;> rfl
    have hmax : conn.localSettings.maxStreamData.toNat ≤ maxVarint :=
      Nat.le_of_lt (Nat.lt_trans conn.localSettings.maxStreamData.toNat_lt (by decide))
    have hunused : ¬Used conn strm.streamId := by
      unfold Used
      rw [hid, hinv.isLocal, hinv.kind]
      exact Nat.lt_irrefl _
    have hblank : Blank strm := by
      rcases init with rfl | rfl <;> exact ⟨⟨⟨_, rfl⟩, rfl, hmax, rfl⟩, rfl⟩
    apply Aside.of_open hunused hblank
    · exact Conn.setIds_strms _ _ _
    · exact htold _ (openLocal_log _ _ _) fun _ => rfl
  | consume =>
    exact .of_same (fun id _ => congrFun (Conn.setIds_strms _ _ _) id) fun id => by
      rw [consumeId_log]
  | @close _ strm find shut code bidi unsent credit =>
    apply Aside.of_removed strm.streamId
    · intro id
      unfold closeStrm
      rw [Conn.setIds_strms]
      rfl
    · exact htold _ (closeStrm_log _ _ _ _ _ _) fun _ => rfl
  | raiseIds =>
    exact .of_same (fun id _ => congrFun (Conn.setIds_strms _ _ _) id) fun id => by
      rw [Conn.setIds_log]
  | raiseStrm find => exact .of_set find {} rfl fun _ => rfl
  | limits0 find id | refill find id | advance find id =>
    rw [← id] at find
    exact .of_set find {} rfl fun _ => rfl
  | rst find => exact .of_set find {} rfl (htold _ rfl fun _ => rfl)
  | pktAcked => exact .of_same (fun _ _ => rfl) (htold _ rfl fun _ => rfl)
  | acked find => exact .of_set find {} rfl fun _ => rfl
  | @tx _ strm fr hd find id unshut offset strmCredit connCredit num form ts pktlen =>
    have htrack : (trackStreamPkt conn hd fr ts pktlen).strms = conn.strms ∧
        (trackStreamPkt conn hd fr ts pktlen).log = conn.log := by
      unfold trackStreamPkt
      split <;> exact ⟨rfl, rfl⟩
    have hsame : SameBuf strm
        (if fr.fin then (strm.setTxOffset (strm.txOffset + fr.data.length)).shutdownWr
          else strm.setTxOffset (strm.txOffset + fr.data.length)) := by
      split <;> exact {}
    apply Aside.of_set find hsame
    · funext i
      show (Conn.setStrm _ _).strms i = _
      rw [Conn.setStrm_strms, Conn.setStrm_strms]
      exact if_congr Iff.rfl rfl (congrFun htrack.1 i)
    · intro i
      exact congrArg (deliveredData i) htrack.2
  | restart =>
    apply Aside.of_same
    · intro id hid
      rw [Conn.setStrm_strms]
      exact if_neg hid
    · exact fun _ => rfl
  | _ => exact .of_same (fun _ _ => rfl) fun _ => rfl

theorem setIds_rxOffset (conn : Conn) (bidi : Bool) (ids : StreamIds) :
    (conn.setIds bidi ids).rxOffset = conn.rxOffset := by cases bidi <;> rfl

/-- Only STREAM and RST_STREAM frames are charged. -/
theorem Change.rxOffset {k : Kind} (h : Change H k conn conn') (hk : k ≠ .rx)
    (hconsume : k ≠ .consume) : conn'.rxOffset = conn.rxOffset := by
  cases h with
  | idle same => exact same.rxOffset
  | rx => exact absurd rfl hk
  | openRemote => exact setIds_rxOffset _ _ _
  | openLocal bidi => exact setIds_rxOffset _ _ _
  | consume => exact absurd rfl hconsume
  | close => exact setIds_rxOffset _ _ _
  | raiseIds => exact setIds_rxOffset _ _ _
  | tx =>
    unfold chargeStream trackStreamPkt
    dsimp only
    split <;> rfl
  | _ => rfl

theorem Changes.rxOffset (h : Changes H K conn conn') (hK : ∀ k ∈ K, k ≠ .rx ∧ k ≠ .consume) :
    conn'.rxOffset = conn.rxOffset :=
  h.keeps (fun c => c.rxOffset = conn.rxOffset)
    (fun k hk _ _ hP hc => (hc.rxOffset (hK k hk).1 (hK k hk).2).trans hP) rfl

/-! ## The invariant -/

/-- What arrived of a stream is delivered up to the first gap, and stored behind it. -/
structure Holding (conn : Conn) (strm : Strm) : Prop where
  rx : ∃ w, StrmRx w strm
  unsent_le : strm.unsentMaxRxOffset ≤ maxVarint
  delivered : (deliveredData strm.streamId conn.log).length = strmRxOffset strm

/-- So it is with all streams of the application, and nothing was delivered of unused ones. -/
structure Collects (conn : Conn) : Prop where
  used : StrmsUsed conn
  quiet : ∀ id, id ≠ 0 → ¬Used conn id → deliveredData id conn.log = []
  holding : ∀ id strm, id ≠ 0 → conn.strms id = some strm → Holding conn strm

theorem Holding.same (h : Holding conn strm) (hsame : SameBuf strm strm')
    (hdata : deliveredData strm.streamId conn'.log = deliveredData strm.streamId conn.log) :
    Holding conn' strm' := by
  have hrx : strmRxOffset strm' = strmRxOffset strm := by
    rw [strmRxOffset, strmRxOffset, hsame.rob]
  obtain ⟨w, hw⟩ := h.rx
  constructor
  · refine ⟨w, ?_, ?_, ?_, ?_⟩
    · rw [hrx, hsame.rob]
      exact hw.rob
    · rw [hsame.lastRxOffset]
      exact hw.last_le
    · rw [hsame.rob, hsame.lastRxOffset]
      exact hw.nothing
    · rcases hsame.max with hmax | hmax
      · rw [hmax]
        exact hw.max_le
      · rw [hmax]
        exact h.unsent_le
  · rcases hsame.unsent with hunsent | ⟨-, hle⟩
    · rw [hunsent]
      exact h.unsent_le
    · exact hle
  · rw [hsame.streamId, hdata, hrx]
    exact h.delivered

theorem Blank.holding (h : Blank strm) (hdata : deliveredData strm.streamId conn.log = []) :
    Holding conn strm := by
  constructor
  · exact ⟨fun _ => 0, h.fresh.rx _⟩
  · exact h.unsent_le
  · rw [hdata, h.fresh.rxOffset]
    rfl

theorem Aside.holding (h : Aside conn conn') (hc : Collects conn) (hkeyed : StrmsKeyed conn')
    (hid : id ≠ 0) (hfind : conn'.strms id = some strm') : Holding conn' strm' := by
  have hsid := hkeyed _ _ hfind
  rcases h.strms id strm' hid hfind with ⟨strm, hold, hsame⟩ | ⟨hunused, hblank⟩
  · exact (hc.holding id strm hid hold).same hsame (h.data _)
  · apply hblank.holding
    rw [hsid, h.data]
    exact hc.quiet id hid hunused

theorem Aside.collects (h : Aside conn conn') (hc : Collects conn) (hused : StrmsUsed conn')
    (hmono : ∀ id, Used conn id → Used conn' id) : Collects conn' := by
  constructor
  · exact hused
  · intro id hid hunused
    rw [h.data]
    exact hc.quiet id hid fun hu => hunused (hmono id hu)
  · exact fun id strm hid hfind => h.holding hc hused.keyed hid hfind

theorem Change.collects {k : Kind} (h : Change H k conn conn') (hk : k ≠ .rx)
    (hext : k ≠ .extend) (hc : Collects conn) : Collects conn' :=
  (h.aside hk hext hc.used.ids).collects hc (h.strmsUsed hc.used) fun _ hu => h.used hc.used.ids hu

theorem Changes.collects (h : Changes H K conn conn')
    (hK : ∀ k ∈ K, k ≠ .rx ∧ k ≠ .extend) (hc : Collects conn) : Collects conn' :=
  h.keeps Collects (fun k hk _ _ hP hch => hch.collects (hK k hk).1 (hK k hk).2 hP) hc

/-! ## STREAM frames -/

/-- How a STREAM frame of the application's streams is processed. -/
inductive FrameTaken (conn : Conn) (fr : StreamFrame) (r : Except Err Unit) (conn' : Conn) :
    Prop where
  | aside (aside : Aside conn conn') (keyed : StrmsKeyed conn')
      (refused : r = .ok () → ∀ strm conn₁,
        connFindOrOpenStream conn fr.streamId ≠ (.ok (some strm), conn₁))
  | taken (conn₁ : Conn) (strm strm' : Strm) (w : Nat → UInt8) (rxOffset : Nat)
      (fcStrms : List Nat) (evs : List Event)
      (found : connFindOrOpenStream conn fr.streamId = (.ok (some strm), conn₁))
      (aside : Aside conn conn₁) (keyed : StrmsKeyed conn₁) (holding : Holding conn₁ strm)
      (streamId : strm.streamId = fr.streamId) (find : conn₁.strms fr.streamId = some strm)
      (received : Received w strm strm' fr evs) (writes : ∃ w₀, Writes w₀ w strm fr)
      (ok : r = .ok ())
      (charge : rxOffset = conn₁.rxOffset + (fr.endOffset - strm.lastRxOffset))
      (end_le : fr.endOffset ≤ strm.maxRxOffset)
      (room : strm.lastRxOffset < fr.endOffset →
        connMaxDataViolated conn₁ (fr.endOffset - strm.lastRxOffset) = false)
      (total : conn'.rxOffset = rxOffset)
      (ends : conn' = frameDone (conn₁.setRxOffset rxOffset) fcStrms strm' evs ∨
        strmShutRdwr strm' = true ∧
          Closed (frameDone (conn₁.setRxOffset rxOffset) fcStrms strm' evs) fr.streamId conn')

theorem connFindOrOpenStream_aside (hc : Collects conn) (id : Nat) :
    ∃ found conn₁, connFindOrOpenStream conn id = (.ok found, conn₁) ∧ Aside conn conn₁ ∧
      StrmsKeyed conn₁ ∧
      ∀ strm, found = some strm → strm.streamId = id ∧ conn₁.strms id = some strm := by
  cases hfind : conn.strms id with
  | some strm =>
    refine ⟨_, _, connFindOrOpenStream_find hfind, .refl conn, hc.used.keyed, fun s hs => ?_⟩
    obtain rfl := Option.some.inj hs
    exact ⟨hc.used.keyed _ _ hfind, hfind⟩
  | none =>
    by_cases hloc : connLocalStream conn id = true
    · exact ⟨_, _, connFindOrOpenStream_closed hfind (.inl hloc), .refl conn, hc.used.keyed, nofun⟩
    have hremote : connLocalStream conn id = false := Bool.eq_false_iff.mpr hloc
    cases ho : idtrOpen (conn.ids (bidiStream id)).remoteIdtr id with
    | none =>
      exact ⟨_, _, connFindOrOpenStream_closed hfind (.inr ho), .refl conn, hc.used.keyed, nofun⟩
    | some idtr =>
      have hsid := openedStrm_streamId conn id
      have hstrms : ∀ i, (openRemote conn id idtr).strms i =
          if i = id then some (openedStrm conn id) else conn.strms i := by
        intro i
        show ((conn.setIds (bidiStream id) _).setStrm (openedStrm conn id)).strms i = _
        rw [Conn.setStrm_strms, Conn.setIds_strms, hsid]
      refine ⟨_, _, connFindOrOpenStream_open hfind hremote ho,
        openRemote_aside hc.used.ids hremote ho, ?_, fun s hs => ?_⟩
      · intro i strm hi
        rw [hstrms] at hi
        split at hi
        · next heq =>
          obtain rfl := Option.some.inj hi
          rw [heq]
          exact hsid
        · exact hc.used.keyed i strm hi
      · obtain rfl := Option.some.inj hs
        exact ⟨hsid, (hstrms id).trans (if_pos rfl)⟩

/-- The end of a call that goes on, whose stream is in the map. -/
theorem closeIfShut_ends {code : Nat} {r : Except Err Unit}
    (find : conn.strms strm.streamId = some strm')
    (h : ngtcp2ConnCloseStreamIfShutRdwr conn strm code = (r, conn')) (hr : ¬Fatal r) :
    r = .ok () ∧ (conn' = conn ∨
      strmShutRdwr strm = true ∧ Closed conn strm.streamId conn') := by
  unfold ngtcp2ConnCloseStreamIfShutRdwr at h
  split at h
  · next hshut =>
    rcases ngtcp2ConnCloseStream_spec strm code find with href | ⟨conn₁, hok, hclosed⟩
    · have hcall := h
      unfold ngtcp2ConnCloseStream connCallStreamClose at hcall
      rw [find] at hcall
      obtain ⟨rfl, -⟩ := Prod.mk.inj (connCall_andThen hcall hr)
      obtain ⟨e, c, heq, -⟩ := href
      rw [heq] at h
      cases h
    · rw [hok] at h
      obtain ⟨rfl, rfl⟩ := Prod.mk.inj h
      exact ⟨rfl, .inr ⟨hshut, hclosed⟩⟩
  · obtain ⟨rfl, rfl⟩ := Prod.mk.inj h
    exact ⟨rfl, .inl rfl⟩

theorem connEmitPendingStreamData_ends (fuel : Nat) {rx : Nat} {r : Except Err Strm}
    (find : conn.strms strm.streamId = some strm)
    (h : connEmitPendingStreamData fuel conn strm rx = (r, conn')) (hr : ¬Fatal r) :
    ∃ strm', r = .ok strm' ∧ conn'.strms strm'.streamId = some strm' := by
  induction fuel generalizing conn strm rx with
  | zero =>
    obtain ⟨rfl, -⟩ := Prod.mk.inj h
    exact absurd fatal_abort hr
  | succ fuel ih =>
    unfold connEmitPendingStreamData at h
    split at h
    · obtain ⟨rfl, -⟩ := Prod.mk.inj h
      exact absurd fatal_abort hr
    dsimp only at h
    split at h
    · split at h
      · obtain ⟨rfl, rfl⟩ := Prod.mk.inj h
        exact ⟨strm, rfl, find⟩
      · obtain ⟨rfl, -⟩ := Prod.mk.inj h
        exact absurd fatal_abort hr
    have hrest := connCall_andThen h hr
    split at hrest
    · obtain ⟨rfl, -⟩ := Prod.mk.inj hrest
      exact absurd fatal_abort hr
    · next rob _ => exact ih (setStrm_find _ (strm.setRob rob)) hrest

/-- The bytes that come next are delivered, and what is in the buffer behind them. -/
theorem connCallRecvStreamData_ends {fuel rx : Nat} {fin : Bool} {data : List UInt8}
    {r : Except Err Strm} (find : conn.strms strm.streamId = some strm)
    (h : ((connCallRecvStreamData conn strm.streamId fin data).andThen fun _ conn =>
      connEmitPendingStreamData fuel conn strm rx) = (r, conn')) (hr : ¬Fatal r) :
    ∃ strm', r = .ok strm' ∧ conn'.strms strm'.streamId = some strm' := by
  have hfind : (conn.tell (.recvStreamData strm.streamId fin data)).strms strm.streamId =
      some strm := find
  exact connEmitPendingStreamData_ends fuel hfind (connCall_andThen h hr) hr

theorem connRecvStreamDeliver_ends {fr : StreamFrame} {rx : Nat} {r : Except Err Unit}
    (hid : strm.streamId ≠ 0)
    (h : connRecvStreamDeliver conn strm fr rx = (r, conn')) (hr : ¬Fatal r) : r = .ok () := by
  unfold connRecvStreamDeliver at h
  dsimp only at h
  generalize hcut : strm.setRob (robRemovePrefix strm.rob
    (rx + (fr.data.drop (rx - fr.offset)).length)) = strm₀ at h
  have hid₀ : strm₀.streamId ≠ 0 := by
    rw [← hcut]
    exact hid
  rw [if_neg hid₀] at h
  rcases andThen_cases h with ⟨e, hfirst, rfl⟩ | ⟨strm₁, conn₁, hfirst, hclose⟩
  · split at hfirst
    · have hr' : ¬Fatal (.error e : Except Err Strm) := fun hf => hr hf.cast
      obtain ⟨strm', heq, -⟩ := connCallRecvStreamData_ends (setStrm_find _ strm₀) hfirst hr'
      cases heq
    · cases hfirst
  · have hfind : conn₁.strms strm₁.streamId = some strm₁ := by
      split at hfirst
      · obtain ⟨strm', heq, hfind⟩ :=
          connCallRecvStreamData_ends (setStrm_find _ strm₀) hfirst (not_fatal_ok _)
        obtain rfl := Except.ok.inj heq
        exact hfind
      · obtain ⟨hs, rfl⟩ := Prod.mk.inj hfirst
        obtain rfl := Except.ok.inj hs
        exact setStrm_find _ _
    exact (closeIfShut_ends hfind hclose hr).1

/-- A refused frame changes nothing behind the charge. -/
theorem connRecvStreamBranch_refused {fr : StreamFrame} {e : Err} (hid : strm.streamId ≠ 0)
    (h : (if fr.fin then connRecvStreamFin conn strm fr else connRecvStreamNoFin conn strm fr) =
      (.error e, conn')) (he : ¬Fatal (.error e : Except Err Unit)) : conn' = conn := by
  split at h
  · unfold connRecvStreamFin at h
    split at h
    · split at h
      · exact (Prod.mk.inj h).2.symm
      · cases h
    split at h
    · exact (Prod.mk.inj h).2.symm
    dsimp only at h
    split at h
    · cases (closeIfShut_ends (setStrm_find _ _) h he).1
    · generalize hunlink : fcUnlink (conn.setStrm (strm.setLastRxOffset fr.endOffset).shutdownRd)
        (strm.setLastRxOffset fr.endOffset).shutdownRd = x at h
      obtain ⟨strm₁, conn₁⟩ := x
      have hstrm₁ : strm₁.streamId = strm.streamId ∧ conn₁.strms strm₁.streamId = some strm₁ := by
        unfold fcUnlink at hunlink
        split at hunlink <;> obtain ⟨rfl, rfl⟩ := Prod.mk.inj hunlink
        · exact ⟨rfl, setStrm_find _ _⟩
        · exact ⟨rfl, setStrm_find _ _⟩
      dsimp only at h
      split at h
      · have hfind : (conn₁.tell (.recvStreamData strm₁.streamId true [])).strms strm₁.streamId =
            some strm₁ := hstrm₁.2
        cases (closeIfShut_ends hfind (connCall_andThen h he) he).1
      · cases connRecvStreamDeliver_ends (hstrm₁.1 ▸ hid) h he
  · unfold connRecvStreamNoFin at h
    split at h
    · exact (Prod.mk.inj h).2.symm
    dsimp only at h
    split at h
    · cases h
    split at h
    · cases h
    · have hid₁ : (strm.setLastRxOffset (max strm.lastRxOffset fr.endOffset)).streamId ≠ 0 := hid
      cases connRecvStreamDeliver_ends hid₁ h he

/-- New bytes are accepted within the credit of the connection. -/
theorem connRecvStream_room {fr : StreamFrame} (hid : strm.streamId ≠ 0)
    (hfound : connFindOrOpenStream conn fr.streamId = (.ok (some strm), conn₁))
    (h : connRecvStream conn fr = (.ok (), conn')) (hlt : strm.lastRxOffset < fr.endOffset) :
    connMaxDataViolated conn₁ (fr.endOffset - strm.lastRxOffset) = false := by
  unfold connRecvStream at h
  split at h
  · cases h
  rw [hfound, andThen_ok] at h
  rcases andThen_cases h with ⟨e, -, he⟩ | ⟨_, conn₂, hcharge, -⟩
  · cases he
  unfold connRecvStreamCharge at hcharge
  split at hcharge
  · cases hcharge
  rw [if_pos ⟨hlt, hid⟩] at hcharge
  dsimp only at hcharge
  split at hcharge
  · cases hcharge
  · next hnot => exact Bool.eq_false_iff.mpr hnot

theorem connRecvStream_taken {fr : StreamFrame} {r : Except Err Unit} (hc : Collects conn)
    (hid : fr.streamId ≠ 0) (h : connRecvStream conn fr = (r, conn')) (hr : ¬Fatal r) :
    FrameTaken conn fr r conn' := by
  obtain ⟨found, conn₁, hfound, haside, hkeyed, hstrm⟩ :=
    connFindOrOpenStream_aside hc fr.streamId
  cases r with
  | error e =>
    have hrefused : Except.error e = (.ok () : Except Err Unit) → ∀ strm c,
        connFindOrOpenStream conn fr.streamId ≠ (.ok (some strm), c) := nofun
    unfold connRecvStream at h
    split at h
    · obtain ⟨-, rfl⟩ := Prod.mk.inj h
      exact .aside (.refl conn) hc.used.keyed hrefused
    rw [hfound, andThen_ok] at h
    cases found with
    | none => cases h
    | some strm =>
      obtain ⟨hsid, -⟩ := hstrm strm rfl
      have hsame : ∀ {c : Conn}, c.strms = conn₁.strms → c.log = conn₁.log →
          FrameTaken conn fr (.error e) c := by
        intro c hstrms hlog
        refine .aside (haside.congr hstrms hlog) ?_ hrefused
        intro id s hs
        exact hkeyed id s (by rw [← hstrms]; exact hs)
      dsimp only at h
      rcases andThen_cases h with ⟨e', hcharge, -⟩ | ⟨_, conn₂, hcharge, hbranch⟩
      · rcases connRecvStreamCharge_cases hcharge with ⟨rfl, -⟩ | ⟨-, -, -, rfl⟩
        · exact hsame rfl rfl
        · exact hsame rfl rfl
      · obtain rfl := connRecvStreamBranch_refused (hsid.symm ▸ hid) hbranch hr
        rcases connRecvStreamCharge_cases hcharge with ⟨rfl, -⟩ | ⟨-, -, -, rfl⟩
        · exact hsame rfl rfl
        · exact hsame rfl rfl
  | ok _ =>
    cases found with
    | none =>
      have hconn : conn' = conn₁ := by
        unfold connRecvStream at h
        split at h
        · cases h
        rw [hfound, andThen_ok] at h
        exact (Prod.mk.inj h).2.symm
      rw [hconn]
      refine .aside haside hkeyed fun _ strm c heq => ?_
      rw [hfound] at heq
      cases (Prod.mk.inj heq).1
    | some strm =>
      obtain ⟨hsid, hfind⟩ := hstrm strm rfl
      have hholding : Holding conn₁ strm := haside.holding hc hkeyed hid hfind
      obtain ⟨w, hw⟩ := hholding.rx
      rcases connRecvStream_spec hfound (hsid.symm ▸ hfind) (hsid.symm ▸ hid) hw
        (overwrite_writes w strm fr) with ⟨e, c, heq, -⟩ | ⟨strm', evs, fcStrms, hrec, hmax, hends⟩
      · rw [heq] at h
        cases h
      have hsid' : strm'.streamId = fr.streamId := by
        rw [hrec.same]
        exact hsid
      have hdone : (frameDone (conn₁.setRxOffset (conn₁.rxOffset +
          (fr.endOffset - strm.lastRxOffset))) fcStrms strm' evs).strms strm'.streamId =
            some strm' := setStrm_find _ strm'
      refine .taken conn₁ strm strm' _ (conn₁.rxOffset + (fr.endOffset - strm.lastRxOffset))
        fcStrms evs hfound haside hkeyed hholding hsid hfind hrec
        ⟨w, overwrite_writes w strm fr⟩ rfl rfl hmax
        (connRecvStream_room (hsid.symm ▸ hid) hfound h) ?_ ?_
      · rcases hends with hends | ⟨code, hends⟩
        · rw [hends] at h
          obtain ⟨-, rfl⟩ := Prod.mk.inj h
          rfl
        · rw [hends] at h
          have hclose : Changes [] [.close, .idle] _ conn' :=
            ngtcp2ConnCloseStreamIfShutRdwr_changes hdone h hr
          exact hclose.rxOffset (by simp)
      · rcases hends with hends | ⟨code, hends⟩
        · rw [hends] at h
          exact .inl (Prod.mk.inj h).2.symm
        · rw [hends] at h
          obtain ⟨-, hconn | ⟨hshut, hclosed⟩⟩ := closeIfShut_ends hdone h hr
          · exact .inl hconn
          · exact .inr ⟨hshut, hsid' ▸ hclosed⟩

theorem Received.mono {w w' : Nat → UInt8} {fr : StreamFrame} {evs : List Event}
    (h : Received w' strm strm' fr evs) (hw : StrmRx w strm) :
    strmRxOffset strm ≤ strmRxOffset strm' :=
  hw.rob.gaps.firstGap_le ((h.gap _).mp h.rx.rob.inGap_firstGap).1

/-- The stream after an accepted frame. -/
theorem Holding.received {w' : Nat → UInt8} {fr : StreamFrame} {evs : List Event}
    (h : Holding conn strm) (hrec : Received w' strm strm' fr evs)
    (hlog : deliveredData strm.streamId conn'.log =
      deliveredData strm.streamId conn.log ++ deliveredData strm.streamId evs) :
    Holding conn' strm' := by
  obtain ⟨w, hw⟩ := h.rx
  have hsid : strm'.streamId = strm.streamId := by rw [hrec.same]
  have hunsent : strm'.unsentMaxRxOffset = strm.unsentMaxRxOffset := by rw [hrec.same]
  constructor
  · exact ⟨w', hrec.rx⟩
  · rw [hunsent]
    exact h.unsent_le
  · rw [hsid, hlog, hrec.told.data_eq, List.length_append, h.delivered, slice_length]
    exact Nat.add_sub_cancel' (hrec.mono hw)

theorem deliveredData_told {streamId : Nat} {evs : List Event} {data : List UInt8} {fins : Nat}
    (h : Told streamId evs data fins) (hne : id ≠ streamId) : deliveredData id evs = [] := by
  apply List.flatMap_eq_nil_iff.mpr
  intro ev hev
  obtain ⟨fin, d, rfl⟩ := h.only ev hev
  exact if_neg (Ne.symm hne)

theorem FrameTaken.holding {fr : StreamFrame} {r : Except Err Unit}
    (h : FrameTaken conn fr r conn') (hc : Collects conn) (hid : id ≠ 0)
    (hfind : conn'.strms id = some strm) : Holding conn' strm := by
  cases h with
  | aside aside keyed => exact aside.holding hc keyed hid hfind
  | taken conn₁ strm₁ strm' w rxOffset fcStrms evs found aside keyed holding streamId find
      received writes ok charge end_le room total ends =>
    have hsid : strm'.streamId = fr.streamId := by
      rw [received.same]
      exact streamId
    have hstrms : ∀ i, (frameDone (conn₁.setRxOffset rxOffset) fcStrms strm' evs).strms i =
        if i = fr.streamId then some strm' else conn₁.strms i := by
      intro i
      show (if i = strm'.streamId then some strm' else conn₁.strms i) = _
      rw [hsid]
    -- Closing the stream removes it, and says nothing about data.
    obtain ⟨hfind', hdata⟩ : (frameDone (conn₁.setRxOffset rxOffset) fcStrms strm' evs).strms id =
        some strm ∧ ∀ i, deliveredData i conn'.log = deliveredData i (conn₁.log ++ evs) := by
      rcases ends with rfl | ⟨-, hclosed⟩
      · exact ⟨hfind, fun _ => rfl⟩
      · rw [hclosed.strms] at hfind
        obtain ⟨code, hlog⟩ := hclosed.log
        refine ⟨?_, fun i => ?_⟩
        · change (if id = fr.streamId then none else _) = some strm at hfind
          split at hfind
          · cases hfind
          · exact hfind
        · rw [hlog]
          exact deliveredData_quiet fun ev hev => List.mem_singleton.mp hev ▸ rfl
    rw [hstrms] at hfind'
    by_cases heq : id = fr.streamId
    · rw [if_pos heq] at hfind'
      obtain rfl := Option.some.inj hfind'
      apply holding.received received
      rw [hdata, deliveredData_append]
    · rw [if_neg heq] at hfind'
      apply (aside.holding hc keyed hid hfind').same {}
      have hsid' : strm.streamId = id := keyed _ _ hfind'
      rw [hdata, deliveredData_append, hsid',
        deliveredData_told received.told (streamId.symm ▸ heq), List.append_nil]

/-! ## Steps -/

/-- The lengths that the caller passes are those of data, and frames are as they can be read from a
packet. -/
def Op.Sized : Op → Prop
  | extendMaxStreamOffset _ datalen => datalen ≤ maxVarint
  | recvFrame _ (.stream fr) | recvDelayedHandshakeFrame _ (.stream fr)
  | recvHandshakeFrame _ _ (.stream fr) => fr.WireRange
  | _ => True

/-- A frame of stream 0 leaves the other streams alone. -/
theorem OnStrm.aside (h : OnStrm 0 conn conn') : Aside conn conn' := by
  obtain ⟨evs, hlog, hfits⟩ := h.told
  refine .of_same (fun id hid => h.others id hid) fun id => ?_
  rw [hlog]
  refine deliveredData_quiet fun ev hev => ?_
  have hfit := hfits ev hev
  cases ev with
  | recvStreamData => exact absurd rfl hfit
  | _ => rfl

theorem connRecvRstStream_aside {fr : RstStreamFrame} {r : Except Err Unit}
    (hkeyed : StrmsKeyed conn) (h : connRecvRstStream conn fr = (r, conn')) (hr : ¬Fatal r) :
    Aside conn conn' := by
  have hsame : ∀ {x : Except Err Unit} {c : Conn}, (x, c) = (r, conn') → c.strms = conn.strms →
      c.log = conn.log → Aside conn conn' := by
    intro x c heq hstrms hlog
    obtain ⟨-, rfl⟩ := Prod.mk.inj heq
    exact (Aside.refl conn).congr hstrms hlog
  unfold connRecvRstStream at h
  split at h
  · exact hsame h rfl rfl
  split at h
  · exact hsame h rfl rfl
  dsimp only at h
  cases hfind : conn.strms fr.streamId with
  | none =>
    rw [hfind] at h
    dsimp only at h
    split at h
    · split at h <;> exact hsame h rfl rfl
    split at h
    · exact hsame h rfl rfl
    split at h
    · exact hsame h rfl rfl
    cases ho : idtrOpen (conn.ids (bidiStream fr.streamId)).remoteIdtr fr.streamId with
    | none =>
      rw [ho] at h
      exact hsame h rfl rfl
    | some idtr =>
      rw [ho] at h
      exact hsame h (Conn.setIds_strms _ _ _) (Conn.setIds_log _ _ _)
  | some strm =>
    rw [hfind] at h
    dsimp only at h
    split at h
    · exact hsame h rfl rfl
    split at h
    · exact hsame h rfl rfl
    split at h
    · exact hsame h rfl rfl
    have hsid := hkeyed _ _ hfind
    have hmark : Aside conn ((conn.setRxOffset (conn.rxOffset +
        (fr.finalOffset - strm.lastRxOffset))).setStrm strm.markRecvRst) :=
      .of_set (hsid.symm ▸ hfind) { recvRst := fun _ => rfl, shutRd := fun _ _ => rfl } rfl fun _ =>
        rfl
    obtain ⟨-, rfl | ⟨-, hclosed⟩⟩ := closeIfShut_ends (setStrm_find _ strm.markRecvRst) h hr
    · exact hmark
    · obtain ⟨code, hlog⟩ := hclosed.log
      constructor
      · intro id strm' hid hfind'
        rw [hclosed.strms] at hfind'
        change (if id = strm.streamId then none else _) = some strm' at hfind'
        split at hfind'
        · cases hfind'
        · exact hmark.strms id strm' hid hfind'
      · intro id
        rw [hlog, deliveredData_quiet fun ev hev => List.mem_singleton.mp hev ▸ rfl]
        exact hmark.data id

theorem connExtendMaxStreamOffset_aside {datalen : Nat}
    (find : conn.strms strm.streamId = some strm)
    (hle : datalen ≤ maxVarint) (hunsent : strm.unsentMaxRxOffset ≤ maxVarint) :
    Aside conn (connExtendMaxStreamOffset conn strm datalen).2 := by
  obtain ⟨strm', fcStrms, heq, htx, hrx, -⟩ := connExtendMaxStreamOffset_cases conn strm datalen
  have hbound : strm.unsentMaxRxOffset ≤ strm'.unsentMaxRxOffset ∧
      strm'.unsentMaxRxOffset ≤ maxVarint := by
    have hstrm' : (connExtendMaxStreamOffset conn strm datalen).1 = strm' := by rw [heq]
    rw [← hstrm']
    have hmax : strm.unsentMaxRxOffset ≤ (if strm.unsentMaxRxOffset ≤ subU64 maxVarint datalen then
        strm.setUnsentMaxRxOffset (addU64 strm.unsentMaxRxOffset datalen)
          else strm).unsentMaxRxOffset ∧
        (if strm.unsentMaxRxOffset ≤ subU64 maxVarint datalen then
        strm.setUnsentMaxRxOffset (addU64 strm.unsentMaxRxOffset datalen)
          else strm).unsentMaxRxOffset ≤ maxVarint := by
      split
      · next hroom =>
        rw [subU64_of_le hle (by decide)] at hroom
        show _ ≤ addU64 strm.unsentMaxRxOffset datalen ∧
          addU64 strm.unsentMaxRxOffset datalen ≤ maxVarint
        have hsum : strm.unsentMaxRxOffset + datalen ≤ maxVarint := by omega
        rw [addU64_of_lt (Nat.lt_of_le_of_lt hsum (by decide))]
        exact ⟨Nat.le_add_right _ _, hsum⟩
      · exact ⟨Nat.le_refl _, hunsent⟩
    unfold connExtendMaxStreamOffset
    dsimp only
    generalize (if strm.unsentMaxRxOffset ≤ subU64 maxVarint datalen then
        strm.setUnsentMaxRxOffset (addU64 strm.unsentMaxRxOffset datalen) else strm) = s at hmax ⊢
    split <;> exact hmax
  rw [heq]
  have hsame := SameBuf.mk htx.streamId hrx.rob hrx.lastRxOffset (fun h => hrx.recvRst.trans h)
    (fun h hr => hrx.shutRd.trans (h (hrx.recvRst.symm.trans hr))) (.inl htx.maxRxOffset)
    (.inr hbound)
  exact .of_set find hsame rfl fun _ => rfl

theorem Reachable.quietIds (h : Reachable conn) (hid : id ≠ 0) (hunused : ¬Used conn id) :
    deliveredData id conn.log = [] := by
  cases (h.lifeInv hid).phase with
  | unused _ _ quiet =>
    apply List.flatMap_eq_nil_iff.mpr
    intro ev hev
    have habout := quiet ev hev
    cases ev with
    | recvStreamData i fin data =>
      have hne : i ≠ id := by simpa [Event.about] using habout
      exact if_neg hne
    | _ => rfl
  | live used => exact absurd used hunused
  | gone used => exact absurd used hunused

/-- What a step does to the streams of the application: nothing is received, or a STREAM frame is
processed. -/
inductive StepTaken (conn conn' : Conn) : Prop where
  | changes {H : List Frame} {K : List Kind} (changes : Changes H K conn conn')
      (other : ∀ k ∈ K, k ≠ .rx ∧ k ≠ .extend)
  | aside (aside : Aside conn conn')
  | frame {fr : StreamFrame} {r : Except Err Unit} (nonzero : fr.streamId ≠ 0)
      (taken : FrameTaken conn fr r conn')

theorem Step.taken {ops : List Op} {op : Op} (hreach : Reachable conn)
    (hstep : Step ops conn op conn') (hsized : op.Sized) (hc : Collects conn) :
    StepTaken conn conn' := by
  have hkinds : (∀ k ∈ Kind.timeout :: op.kinds, k ≠ .rx ∧ k ≠ .extend) → StepTaken conn conn' :=
    fun hK => .changes (Step.changes hreach.wellFormed hstep) hK
  have hstream : ∀ {fr : StreamFrame} {r : Except Err Unit}, connRecvStream conn fr = (r, conn') →
      ¬Fatal r → StepTaken conn conn' := by
    intro fr r hrun hr
    by_cases hzero : fr.streamId = 0
    · exact .aside (connRecvStream_zero hc.used hzero hrun).aside
    · exact .frame hzero (connRecvStream_taken hc hzero hrun hr)
  obtain ⟨rv, hrun, hs⟩ := hstep
  have hrv := not_fatal_of_survives hs
  cases op with
  | recvFrame longForm fr =>
    cases fr with
    | stream fr =>
      have hrun : (if fr.streamId = 0 ∧ longForm then (.error .proto, conn)
        else connRecvStream conn fr) = (rv, conn') := hrun
      split at hrun
      · obtain ⟨-, rfl⟩ := Prod.mk.inj hrun
        exact .aside (.refl conn)
      · exact hstream hrun hrv
    | rstStream fr => exact .aside (connRecvRstStream_aside hc.used.keyed hrun hrv)
    | _ => exact hkinds (by simp [Op.kinds, Frame.recvKinds, ackKinds])
  | recvDelayedHandshakeFrame type fr =>
    cases fr with
    | stream fr => exact hstream hrun hrv
    | _ => exact hkinds (by simp [Op.kinds, Frame.recvDelayedKinds, ackKinds])
  | recvHandshakeFrame type failed fr =>
    cases fr with
    | stream fr =>
      obtain ⟨x, hrun, -⟩ := void_cases hrun
      exact .aside (connRecvHandshakeStream_onStrm hc.used.keyed hrun).aside
    | _ => exact hkinds (by simp [Op.kinds, Frame.recvHandshakeKinds, ackKinds])
  | extendMaxStreamOffset streamId datalen =>
    have hrun : ngtcp2ConnExtendMaxStreamOffset conn streamId datalen = (rv, conn') := hrun
    unfold ngtcp2ConnExtendMaxStreamOffset at hrun
    split at hrun
    · obtain ⟨-, rfl⟩ := Prod.mk.inj hrun
      exact .aside (.refl conn)
    next strm hfind =>
    obtain ⟨-, rfl⟩ := Prod.mk.inj hrun
    have hsid := hc.used.keyed _ _ hfind
    by_cases hzero : streamId = 0
    · -- The credit of stream 0 is about no other stream.
      obtain ⟨strm', fcStrms, heq, htx, -, -⟩ := connExtendMaxStreamOffset_cases conn strm datalen
      rw [heq]
      refine .aside (.of_same (fun id hid => ?_) fun _ => rfl)
      rw [Conn.setStrm_strms, htx.streamId, hsid, hzero]
      exact if_neg hid
    · exact .aside (connExtendMaxStreamOffset_aside (hsid.symm ▸ hfind) hsized
        (hc.holding streamId strm hzero hfind).unsent_le)
  | extendMaxOffset datalen =>
    obtain ⟨-, rfl⟩ := Prod.mk.inj hrun
    have hsame : (ngtcp2ConnExtendMaxOffset conn datalen).strms = conn.strms ∧
        (ngtcp2ConnExtendMaxOffset conn datalen).log = conn.log := by
      unfold ngtcp2ConnExtendMaxOffset
      split <;> exact ⟨rfl, rfl⟩
    exact .aside ((Aside.refl conn).congr hsame.1 hsame.2)
  | _ =>
    exact hkinds (by simp [Op.kinds, shutdownKinds, streamTxKinds, writeKinds, resendKinds,
      closeKinds, retryKinds])

theorem Step.collects {ops : List Op} {op : Op} (hreach : Reachable conn)
    (hstep : Step ops conn op conn') (hsized : op.Sized) (hc : Collects conn) : Collects conn' := by
  have hreach' := hreach.step hstep
  have hdone : (∀ id strm, id ≠ 0 → conn'.strms id = some strm → Holding conn' strm) →
      Collects conn' :=
    fun hholding => ⟨hreach'.strmsUsed, fun id hid hunused => hreach'.quietIds hid hunused,
      hholding⟩
  cases hstep.taken hreach hsized hc with
  | changes hch hK => exact hch.collects hK hc
  | aside h => exact hdone fun id strm hid hfind => h.holding hc hreach'.strmsUsed.keyed hid hfind
  | frame hzero h => exact hdone fun id strm hid hfind => h.holding hc hid hfind

/-! ## Runs -/

variable {conn₀ : Conn} {ops : List Op}

theorem collects_of_run (init : Initial conn₀)
    (hrun : Runs.Run (Runs.Guarded Step fun _ _ op => op.Sized) conn₀ ops conn) :
    Collects conn := by
  have hstart : Collects conn₀ := by
    refine ⟨init.reachable.strmsUsed, fun id hid hunused => init.reachable.quietIds hid hunused,
      fun id strm hid hfind => ?_⟩
    have hnone : conn₀.strms id = none := by cases init <;> exact if_neg hid
    rw [hnone] at hfind
    cases hfind
  refine (hrun.invariant (fun _ conn => Reachable conn ∧ Collects conn)
    ⟨init.reachable, hstart⟩ ?_).2
  rintro ops conn₁ op conn₂ ⟨hreach, hc⟩ ⟨hstep, hsized⟩
  exact ⟨hreach.step hstep, hstep.collects hreach hsized hc⟩

end

end Ngtcp2
