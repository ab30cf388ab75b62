import Polygon.StreamArrivals
import Polygon.StreamSource

/-!
# From one application to the other

Two endpoints and a network between them that loses, repeats and reorders frames: of a stream, the
application at one end gets a prefix of what the application at the other end wrote, and where the
end is reported without a reset, all of it.
-/
namespace Ngtcp2

open Ranges

/-- A stream whose bytes are `s`, received up to the first gap. Unless it was reset, it is shut only
at the end of `s`, and with `noRst` it was not. -/
structure ReceivesStrm (s : List UInt8) (ended : Bool) (noRst : Prop) (conn : Conn) (strm : Strm) :
    Prop where
  rx : StrmRx (content s) strm
  last_le : strm.lastRxOffset ≤ s.length
  data : deliveredData strm.streamId conn.log = slice (content s) 0 (strmRxOffset strm)
  unreset : noRst → strm.recvRst = false
  ending : strm.recvRst = false → strm.shutRd = true →
    strm.lastRxOffset = s.length ∧ (ended = true ∨ s = [])

/-- What the application got of a stream whose bytes are `s`. -/
structure Receives (id : Nat) (s : List UInt8) (ended : Bool) (noRst : Prop) (conn : Conn) :
    Prop where
  live : ∀ strm, conn.strms id = some strm → ReceivesStrm s ended noRst conn strm
  delivered : deliveredData id conn.log <+: s
  fins : noRst → finCount id conn.log ≠ 0 → deliveredData id conn.log = s ∧ ended = true

section
variable {conn conn₁ conn' : Conn} {strm strm' : Strm} {id : Nat} {s : List UInt8} {ended : Bool}
  {noRst : Prop} {rst : Bool} {fr : StreamFrame} {evs : List Event} {op : Op} {ops : List Op}

/-! ## What is not heard -/

theorem SameHeard.receivesStrm (h : SameHeard rst strm strm') (hrst : noRst → rst = false)
    (hr : ReceivesStrm s ended noRst conn strm) (hsid : strm'.streamId = strm.streamId)
    (hmax : strm'.maxRxOffset ≤ maxVarint)
    (hdata : deliveredData strm.streamId conn'.log = deliveredData strm.streamId conn.log) :
    ReceivesStrm s ended noRst conn' strm' := by
  have hrx : strmRxOffset strm' = strmRxOffset strm := by
    rw [strmRxOffset, strmRxOffset, h.rob]
  constructor
  · refine ⟨?_, ?_, ?_, hmax⟩
    · rw [hrx, h.rob]
      exact hr.rx.rob
    · rw [h.lastRxOffset]
      exact hr.rx.last_le
    · rw [h.rob, h.lastRxOffset]
      exact hr.rx.nothing
  · rw [h.lastRxOffset]
    exact hr.last_le
  · rw [hsid, hdata, hrx]
    exact hr.data
  · intro hno
    have hkept := h.ending.resolve_right fun hreset =>
      Bool.false_ne_true ((hrst hno).symm.trans hreset.1)
    exact hkept.2.trans (hr.unreset hno)
  · intro hnone hs
    rcases h.ending with ⟨hshut, hrecv⟩ | ⟨-, hmarked⟩
    · rw [h.lastRxOffset]
      exact hr.ending (hrecv.symm.trans hnone) (hshut.symm.trans hs)
    · exact absurd (hnone.symm.trans hmarked) Bool.false_ne_true

theorem Unread.receivesStrm {conn₀ : Conn} (h : Unread conn₀ id strm)
    (huni : connLocalStream conn₀ id = true → bidiStream id = false → s = [])
    (hmax : strm.maxRxOffset ≤ maxVarint) (hdata : deliveredData strm.streamId conn.log = []) :
    ReceivesStrm s ended noRst conn strm := by
  obtain ⟨mem, hrob⟩ := h.rob
  have hfresh : RecvFresh strm := ⟨⟨mem, hrob⟩, h.last, hmax, h.noRst⟩
  constructor
  · exact hfresh.rx _
  · rw [h.last]
    exact Nat.zero_le _
  · rw [hdata, hfresh.rxOffset]
    rfl
  · exact fun _ => h.noRst
  · intro _ hs
    obtain ⟨hlocal, hbidi⟩ := h.shutRd hs
    obtain rfl := huni hlocal hbidi
    exact ⟨h.last, .inr rfl⟩

/-- A stretch in which nothing of the stream is heard. -/
theorem Receives.unheard (hr : Receives id s ended noRst conn)
    (h : Unheard rst id conn conn') (hrst : noRst → rst = false)
    (huni : connLocalStream conn id = true → bidiStream id = false → s = [])
    (hkeyed : StrmsKeyed conn) (hkeyed' : StrmsKeyed conn')
    (hquiet : ¬Used conn id → deliveredData id conn.log = [])
    (hmax : ∀ strm', conn'.strms id = some strm' → strm'.maxRxOffset ≤ maxVarint) :
    Receives id s ended noRst conn' := by
  obtain ⟨hdata, hfins⟩ := h.quiet
  constructor
  · intro strm' hfind
    have hsid' := hkeyed' _ _ hfind
    rcases h.strms strm' hfind with ⟨strm, hold, hsame⟩ | ⟨hunused, hunread⟩
    · have hsid := hkeyed _ _ hold
      refine hsame.receivesStrm hrst (hr.live strm hold) (hsid'.trans hsid.symm)
        (hmax strm' hfind) ?_
      rw [hsid]
      exact hdata
    · refine hunread.receivesStrm huni (hmax strm' hfind) ?_
      rw [hsid', hdata]
      exact hquiet hunused
  · rw [hdata]
    exact hr.delivered
  · rw [hdata, hfins]
    exact hr.fins

/-! ## STREAM frames -/

/-- The stream after a frame with bytes of `s`. -/
theorem ReceivesStrm.received (hr : ReceivesStrm s ended noRst conn strm)
    (hfr : Conveys s ended fr) (hrec : Received (content s) strm strm' fr evs)
    (hlog : deliveredData strm.streamId conn'.log =
      deliveredData strm.streamId conn.log ++ deliveredData strm.streamId evs) :
    ReceivesStrm s ended noRst conn' strm' := by
  have hsid : strm'.streamId = strm.streamId := by rw [hrec.same]
  have hlast : strm'.lastRxOffset = max strm.lastRxOffset fr.endOffset := by rw [hrec.same]
  have hrecv : strm'.recvRst = strm.recvRst := by rw [hrec.same]
  have hend := hfr.slice.end_le
  constructor
  · exact hrec.rx
  · rw [hlast]
    exact Nat.max_le.mpr ⟨hr.last_le, hend⟩
  · rw [hsid, hlog, hr.data, hrec.told.data_eq]
    exact slice_append _ (Nat.zero_le _) (hrec.mono hr.rx)
  · exact fun hno => hrecv.trans (hr.unreset hno)
  · intro hnone hs
    have hshut : strm'.shutRd = (strm.shutRd || fr.fin) := by rw [hrec.same]
    rw [hlast]
    rw [hshut, Bool.or_eq_true] at hs
    rcases hs with hs | hfin
    · obtain ⟨hall, hgiven⟩ := hr.ending (hrecv.symm.trans hnone) hs
      exact ⟨by rw [hall, Nat.max_eq_left hend], hgiven⟩
    · obtain ⟨hgiven, hall⟩ := hfr.fin hfin
      exact ⟨by rw [hall, Nat.max_eq_right hr.last_le], .inl hgiven⟩

/-- The end is reported with the last byte of `s`. -/
theorem ReceivesStrm.reported (hr : ReceivesStrm s ended noRst conn strm)
    (hr' : ReceivesStrm s ended noRst conn' strm') (hfr : Conveys s ended fr)
    (hrec : Received (content s) strm strm' fr evs) (hno : noRst)
    (hrep : FinReported strm strm' fr) : strmRxOffset strm' = s.length ∧ ended = true := by
  have hmono := hrec.mono hr.rx
  have hle' : strmRxOffset strm' ≤ s.length := Nat.le_trans hr'.rx.rx_le hr'.last_le
  rcases hrep with ⟨-, hfin, hend⟩ | ⟨hmore, hshut, hlast⟩
  · obtain ⟨hgiven, hall⟩ := hfr.fin hfin
    have hrx : strmRxOffset strm = s.length := hend.symm.trans hall
    exact ⟨Nat.le_antisymm hle' (hrx ▸ hmono), hgiven⟩
  · obtain ⟨hall, hgiven⟩ := hr'.ending (hr'.unreset hno) hshut
    refine ⟨hlast.trans hall, hgiven.resolve_right ?_⟩
    rintro rfl
    exact Nat.not_lt_zero _ (Nat.lt_of_lt_of_le hmore hle')

theorem ReceivesStrm.delivered_take (hr : ReceivesStrm s ended noRst conn strm) :
    deliveredData strm.streamId conn.log = s.take (strmRxOffset strm) := by
  rw [hr.data]
  exact slice_content (Nat.le_trans hr.rx.rx_le hr.last_le)

/-- The state behind an accepted frame, before the check whether the stream is done. -/
theorem Receives.received (fcStrms : List Nat) (rxOffset : Nat)
    (hr : Receives id s ended noRst conn) (hsid : strm.streamId = id) (hfind : conn.strms id = some strm) (hfr : Conveys s ended fr)
    (hrec : Received (content s) strm strm' fr evs) :
    Receives id s ended noRst (frameDone (conn.setRxOffset rxOffset) fcStrms strm' evs) := by
  have hstrm := hr.live strm hfind
  have hsid' : strm'.streamId = id := by
    rw [hrec.same]
    exact hsid
  have hlog : (frameDone (conn.setRxOffset rxOffset) fcStrms strm' evs).log = conn.log ++ evs := rfl
  have hstrm' : ReceivesStrm s ended noRst (frameDone (conn.setRxOffset rxOffset) fcStrms strm' evs)
      strm' := by
    refine hstrm.received hfr hrec ?_
    rw [hlog, deliveredData_append]
  have htake := hstrm'.delivered_take
  rw [hsid'] at htake
  constructor
  · intro s' hs'
    change (if id = strm'.streamId then some strm' else conn.strms id) = some s' at hs'
    rw [if_pos hsid'.symm] at hs'
    obtain rfl := Option.some.inj hs'
    exact hstrm'
  · rw [htake]
    exact List.take_prefix _ _
  · intro hno hfins
    have htold := hrec.told.fins_eq
    rw [hsid] at htold
    rw [hlog, finCount_append, htold] at hfins
    by_cases hrep : FinReported strm strm' fr
    · obtain ⟨hall, hgiven⟩ := hstrm.reported hstrm' hfr hrec hno hrep
      refine ⟨?_, hgiven⟩
      rw [htake, hall]
      exact List.take_length
    · rw [if_neg hrep, Nat.add_zero] at hfins
      obtain ⟨hall, hgiven⟩ := hr.fins hno hfins
      refine ⟨?_, hgiven⟩
      -- All was delivered before, and nothing but `s` is delivered.
      have hmore : s <+: deliveredData id (conn.log ++ evs) := by
        rw [deliveredData_append, hall]
        exact List.prefix_append _ _
      have hless : deliveredData id (conn.log ++ evs) <+: s := by
        rw [← hlog, htake]
        exact List.take_prefix _ _
      exact hless.eq_of_length_le hmore.length_le

/-- The stream is done with. -/
theorem Receives.closed (hr : Receives id s ended noRst conn) (h : Closed conn id conn') :
    Receives id s ended noRst conn' := by
  obtain ⟨code, hlog⟩ := h.log
  have hdata : deliveredData id conn'.log = deliveredData id conn.log := by
    rw [hlog, deliveredData_append]
    exact List.append_nil _
  have hfins : finCount id conn'.log = finCount id conn.log := by
    rw [hlog, finCount_append]
    rfl
  constructor
  · intro strm hfind
    rw [h.strms] at hfind
    change (if id = id then none else conn.strms id) = some strm at hfind
    rw [if_pos rfl] at hfind
    cases hfind
  · rw [hdata]
    exact hr.delivered
  · rw [hdata, hfins]
    exact hr.fins

/-- A STREAM frame of the stream. -/
theorem connRecvStream_receives (hc : Collects conn) (hid : id ≠ 0)
    (huni : connLocalStream conn id = true → bidiStream id = false → s = [])
    (hr : Receives id s ended noRst conn) (hsid : fr.streamId = id) (hfr : Conveys s ended fr)
    (h : connRecvStream conn fr = (.ok (), conn')) : Receives id s ended noRst conn' := by
  obtain ⟨found, conn₁, hfound, haside, hkeyed, hstrm⟩ := connFindOrOpenStream_aside hc fr.streamId
  have hr₁ : Receives id s ended noRst conn₁ := by
    refine hr.unheard (connFindOrOpenStream_unheard hc hfound id).1 (fun _ => rfl) huni
      hc.used.keyed hkeyed (hc.quiet id hid) fun strm₁ hfind₁ => ?_
    obtain ⟨w, hw⟩ := (haside.holding hc hkeyed hid hfind₁).rx
    exact hw.max_le
  cases found with
  | none =>
    unfold connRecvStream at h
    split at h
    · cases h
    rw [hfound, andThen_ok] at h
    obtain ⟨-, rfl⟩ := Prod.mk.inj h
    exact hr₁
  | some strm =>
    obtain ⟨hstrmId, hfind⟩ := hstrm strm rfl
    rw [hsid] at hstrmId hfind
    rcases connRecvStream_spec hfound (hstrmId.symm ▸ hfind) (hstrmId.symm ▸ hid)
      (hr₁.live strm hfind).rx (Writes.of_agree hfr.slice.agree) with
      ⟨e, c, heq, -⟩ | ⟨strm', evs, fcStrms, hrec, -, hends⟩
    · rw [h] at heq
      cases heq
    have hdone := hr₁.received fcStrms (conn₁.rxOffset + (fr.endOffset - strm.lastRxOffset)) hstrmId
      hfind hfr hrec
    generalize hconn : frameDone (conn₁.setRxOffset _) fcStrms strm' evs = conn₂ at hdone hends
    have hkeyed₂ : StrmsKeyed conn₂ := by
      rw [← hconn]
      exact StrmsKeyed.setStrm hkeyed strm'
    have hfind₂ : conn₂.strms strm'.streamId = some strm' := by
      rw [← hconn]
      exact setStrm_find _ strm'
    rcases hends with heq | ⟨code, heq⟩
    · rw [h] at heq
      obtain ⟨-, rfl⟩ := Prod.mk.inj heq
      exact hdone
    · rw [h] at heq
      obtain ⟨-, rfl | ⟨-, hclosed⟩⟩ := closeIfShut_ends hfind₂ heq.symm (not_fatal_ok _)
      · exact hdone
      · have hsid' : strm'.streamId = id := by
          rw [hrec.same]
          exact hstrmId
        exact hdone.closed (hsid' ▸ hclosed)

/-- One step of the receiver, which reads only what carries bytes of `s`. -/
theorem Step.receives (hreach : Reachable conn) (hstep : Step ops conn op conn') (hc : Collects conn)
    (hc' : Collects conn') (hid : id ≠ 0)
    (huni : connLocalStream conn id = true → bidiStream id = false → s = [])
    (hread : ∀ fr, .stream fr ∈ op.readFrames → fr.streamId = id → Conveys s ended fr)
    (hrst : noRst → op.resets id = false) (hr : Receives id s ended noRst conn) :
    Receives id s ended noRst conn' := by
  cases hstep.heard hreach hc hid with
  | nothing unheard =>
    refine hr.unheard unheard hrst huni hc.used.keyed hc'.used.keyed (hc.quiet id hid)
      fun strm' hfind => ?_
    obtain ⟨w, hw⟩ := (hc'.holding id strm' hid hfind).rx
    exact hw.max_le
  | frame fr read streamId run =>
    exact connRecvStream_receives hc hid huni hr streamId (hread fr read streamId) run

theorem Initial.receives (h : Initial conn) (hid : id ≠ 0) : Receives id s ended noRst conn := by
  constructor
  · intro strm hfind
    have hnone : conn.strms id = none := by cases h <;> exact if_neg hid
    rw [hnone] at hfind
    cases hfind
  · cases h <;> exact List.nil_prefix
  · intro _ hfins
    cases h <;> exact absurd rfl hfins

/-! ## Runs of both endpoints -/

/-- Nothing is written to a unidirectional stream of the peer. -/
theorem Reachable.written_peerUni (hreach : Reachable conn)
    (hremote : connLocalStream conn id = false) (huni : bidiStream id = false) (op : Op) :
    op.written id conn = [] :=
  Op.written_shut (fun _ find => hreach.peerUniShut _ _ find huni hremote) op

/-- Two endpoints that exchange frames as they can be read from packets. -/
abbrev Exchange : Network.Net Conn Frame → List (Bool × Op) → Network.Net Conn Frame → Prop :=
  Network.Run fun _ => endpoint fun _ op => op.Sized

/-- The bytes of the stream that the application of an endpoint wrote. -/
def writtenBy (side : Bool) (id : Nat) (net₀ : Network.Net Conn Frame) (ls : List (Bool × Op)) :
    List UInt8 :=
  written id (net₀.state side) (Network.own side ls)

variable {net₀ net : Network.Net Conn Frame} {ls : List (Bool × Op)}

theorem Step.server (hreach : Reachable conn) (hstep : Step ops conn op conn') :
    conn'.server = conn.server := by
  refine (Step.changes hreach.wellFormed hstep).keeps (fun c => c.server = conn.server)
    (fun _ _ _ _ hP hc => hc.server.trans hP) rfl

theorem writtenBy_peerUni (hrun : Exchange net₀ ls net) (hstart : Connected net₀) (side : Bool)
    (hremote : connLocalStream (net₀.state side) id = false) (huni : bidiStream id = false) :
    writtenBy side id net₀ ls = [] := by
  have hown := Network.run_own hrun side
  refine (hown.invariant (fun ops c => Reachable c ∧ runOps (net₀.state side) ops = c ∧
    c.server = (net₀.state side).server ∧ written id (net₀.state side) ops = [])
    ⟨(hstart.initial side).reachable, rfl, rfl, rfl⟩ ?_).2.2.2
  rintro ops c op c' ⟨hreach, rfl, hserver, hnil⟩ ⟨⟨hstep, -⟩, -⟩
  refine ⟨hreach.step hstep, ?_, (hstep.server hreach).trans hserver, ?_⟩
  · rw [runOps_snoc]
    obtain ⟨rv, hop, -⟩ := hstep
    exact congrArg Prod.snd hop
  · rw [written_snoc, hnil, List.nil_append]
    exact hreach.written_peerUni ((connLocalStream_congr hserver id).trans hremote) huni op

theorem Connected.peer (h : Connected net₀) (side : Bool) :
    (net₀.state !side).server = !(net₀.state side).server := by
  obtain ⟨hserver, hclient⟩ := h.roles
  cases side
  · exact hclient.trans (congrArg (!·) hserver).symm
  · exact hserver.trans (congrArg (!·) hclient).symm

/-- What an endpoint has of a stream is what its peer wrote, up to the first gap. -/
theorem exchange_receives (noRst : Prop) (hrun : Exchange net₀ ls net) (hstart : Connected net₀) (side : Bool)
    (hid : id ≠ 0)
    (hrst : noRst → ∀ fr, .rstStream fr ∈ net.sent (!side) → fr.streamId ≠ id) :
    Receives id (writtenBy (!side) id net₀ ls)
      (ends id (net₀.state !side) (Network.own (!side) ls)) noRst (net.state side) := by
  have hsent := (sent_conveys hrun hstart (!side) hid).2
  have hown := Network.run_own hrun side
  have init := hstart.initial side
  refine (hown.invariant (fun _ c => Reachable c ∧ Collects c ∧
    c.server = (net₀.state side).server ∧ Receives id (writtenBy (!side) id net₀ ls)
      (ends id (net₀.state !side) (Network.own (!side) ls)) noRst c)
    ⟨init.reachable, collects_of_run init .nil, rfl, init.receives hid⟩ ?_).2.2.2
  rintro ops c op c' ⟨hreach, hc, hserver, hr⟩ ⟨⟨hstep, hsized⟩, hreads⟩
  have hc' := hstep.collects hreach hsized hc
  refine ⟨hreach.step hstep, hc', (hstep.server hreach).trans hserver, ?_⟩
  refine hstep.receives hreach hc hc' hid (fun hlocal huni => ?_) (fun fr hfr hsid => ?_)
    (fun hno => ?_) hr
  · apply writtenBy_peerUni hrun hstart
    · rw [connLocalStream_role (hstart.peer side), ← connLocalStream_congr hserver, hlocal]
      rfl
    · exact huni
  · exact hsent _ (hreads _ hfr) fr rfl hsid
  · apply Bool.eq_false_iff.mpr
    intro hres
    obtain ⟨m, hm, hmatch⟩ := List.any_eq_true.mp hres
    cases m with
    | rstStream fr =>
      have heq : fr.streamId = id := by simpa using hmatch
      exact hrst hno fr (hreads _ hm) heq
    | _ => cases hmatch

/-- Of every stream, an application gets a prefix of what the application at the other end wrote,
whatever the network does. -/
theorem stream_delivered (hrun : Exchange net₀ ls net) (hstart : Connected net₀) (side : Bool)
    (hid : id ≠ 0) :
    deliveredData id (net.state side).log <+: writtenBy (!side) id net₀ ls :=
  (exchange_receives False hrun hstart side hid False.elim).delivered

/-- Where the end of a stream that was not reset is reported, the application has all that was
written to it, and the other application ended the stream. -/
theorem stream_complete (hrun : Exchange net₀ ls net) (hstart : Connected net₀) (side : Bool)
    (hid : id ≠ 0) (hrst : ∀ fr, .rstStream fr ∈ net.sent (!side) → fr.streamId ≠ id)
    (hfin : finCount id (net.state side).log ≠ 0) :
    deliveredData id (net.state side).log = writtenBy (!side) id net₀ ls ∧
      ends id (net₀.state !side) (Network.own (!side) ls) = true :=
  (exchange_receives True hrun hstart side hid fun _ => hrst).fins trivial hfin

end

/-! ## A client and a server -/

/-- The values of the step are such as its guard asks for. -/
def Op.sized : Op → Bool
  | extendMaxStreamOffset _ datalen => datalen ≤ maxVarint
  | recvFrame _ (.stream fr) | recvDelayedHandshakeFrame _ (.stream fr)
  | recvHandshakeFrame _ _ (.stream fr) =>
    fr.streamId ≤ maxVarint && fr.offset ≤ maxVarint && fr.data.length ≤ maxVarint
  | _ => true

theorem Op.sized_spec {op : Op} (h : op.sized = true) : op.Sized := by
  have hframe : ∀ {fr : StreamFrame}, (decide (fr.streamId ≤ maxVarint) &&
      decide (fr.offset ≤ maxVarint) && decide (fr.data.length ≤ maxVarint)) = true →
      fr.WireRange := by
    intro fr hall
    simp only [Bool.and_eq_true, decide_eq_true_eq] at hall
    exact ⟨hall.1.1, hall.1.2, hall.2⟩
  cases op with
  | recvFrame longForm fr | recvDelayedHandshakeFrame type fr | recvHandshakeFrame type failed fr =>
    cases fr with
    | stream fr => exact hframe h
    | _ => trivial
  | extendMaxStreamOffset streamId datalen =>
    show datalen ≤ maxVarint
    exact of_decide_eq_true h
  | _ => trivial

/-- A new client and a new server. -/
def smallNet : Network.Net Conn Frame where
  state side := bif side then
      ngtcp2ConnClientNew (fun _ => 0) 1 1 quietCallbacks ⟨100, 1000, 40, 40, 3⟩
    else smallServer
  sent _ := []

theorem smallNet_connected : Connected smallNet := by
  refine ⟨fun side => ?_, fun _ => rfl, rfl, rfl⟩
  cases side
  · exact .server ..
  · exact .client ..

/-- The client writes to its stream and ends it; the frames arrive in the other order, one of them
twice. -/
def smallExchange : List (Bool × Op) :=
  [(true, .setRemoteTransportParams .encryptedExtensions ⟨100, 1000, 40, 40, 3, 1, [1]⟩),
    (true, .setKeys .tx ⟨[2], [2]⟩), (true, .openBidiStream),
    (true, .writeStream 100 4 false [7, 8] 1), (true, .writeStream 100 4 true [9] 1),
    (false, .recvFrame false (.stream ⟨4, 2, [9], true⟩)),
    (false, .recvFrame false (.stream ⟨4, 0, [7, 8], false⟩)),
    (false, .recvFrame false (.stream ⟨4, 2, [9], true⟩))]

theorem smallExchange_run :
    Exchange smallNet smallExchange (smallExchange.foldl exchangeStep smallNet) :=
  exchange_allowed (fun _ _ _ => Op.sized_spec) (by decide)

theorem stream_delivered_reordered :
    deliveredData 4 ((smallExchange.foldl exchangeStep smallNet).state false).log <+:
        writtenBy true 4 smallNet smallExchange ∧
      writtenBy true 4 smallNet smallExchange = [7, 8, 9] :=
  ⟨stream_delivered smallExchange_run smallNet_connected false (by decide), by decide⟩

theorem smallExchange_sent : (smallExchange.foldl exchangeStep smallNet).sent true =
    [.stream ⟨4, 0, [7, 8], false⟩, .stream ⟨4, 2, [9], true⟩] := by decide

theorem stream_complete_reordered :
    deliveredData 4 ((smallExchange.foldl exchangeStep smallNet).state false).log =
        writtenBy true 4 smallNet smallExchange ∧
      ends 4 (smallNet.state true) (Network.own true smallExchange) = true := by
  refine stream_complete smallExchange_run smallNet_connected false (by decide)
    (fun fr hfr => ?_) (by decide)
  have hfr : .rstStream fr ∈ (smallExchange.foldl exchangeStep smallNet).sent true := hfr
  rw [smallExchange_sent] at hfr
  simp at hfr

end Ngtcp2
