import Polygon.StreamDelivery
import Polygon.Lib.Runs

/-!
# Streams that are reset

Runs of STREAM and RST_STREAM frames on one stream. The receiver derives `fin` from
a flag and an offset that both kinds of frames set; what it reports is right as
long as no late data completes a stream that was reset.
-/
namespace Ngtcp2

open Ranges Runs

/-- The frames that end or fill the receive side of a stream. -/
inductive RxFrame where
  | stream (fr : StreamFrame)
  | rst (fr : RstStreamFrame)

namespace RxFrame

def streamId : RxFrame → Nat
  | stream fr => fr.streamId
  | rst fr => fr.streamId

def recv (conn : Conn) : RxFrame → Result Unit
  | stream fr => connRecvStream conn fr
  | rst fr => connRecvRstStream conn fr

end RxFrame

/-- A STREAM frame with FIN was processed. -/
def FinSeen (frs : List RxFrame) : Prop := ∃ fr, .stream fr ∈ frs ∧ fr.fin = true

/-- Every report of the end comes after a FIN, with exactly the bytes before its final offset. -/
def FinHonest (id : Nat) (frs : List RxFrame) (evs : List Event) : Prop :=
  ∀ pre d post, evs = pre ++ .recvStreamData id true d :: post →
    ∃ fr, .stream fr ∈ frs ∧ fr.fin = true ∧
      (deliveredData id (pre ++ [.recvStreamData id true d])).length = fr.endOffset

section
variable {id : Nat} {frs : List RxFrame} {fr : RxFrame} {evs evs' : List Event} {conn conn' : Conn}
  {strm : Strm}

theorem FinHonest.mono (h : FinHonest id frs evs) : FinHonest id (frs ++ [fr]) evs :=
  fun pre d post heq =>
    let ⟨fr', hmem, hfin, hlen⟩ := h pre d post heq
    ⟨fr', List.mem_append_left _ hmem, hfin, hlen⟩

/-- New events are honest if each report among them is. -/
theorem FinHonest.append (h : FinHonest id (frs ++ [fr]) evs)
    (hnew : ∀ pre d post, evs' = pre ++ .recvStreamData id true d :: post →
      ∃ fr', .stream fr' ∈ frs ++ [fr] ∧ fr'.fin = true ∧
        (deliveredData id (evs ++ pre ++ [.recvStreamData id true d])).length = fr'.endOffset) :
    FinHonest id (frs ++ [fr]) (evs ++ evs') := by
  intro pre d post heq
  rcases List.append_eq_append_iff.mp heq with ⟨mid, rfl, hmid⟩ | ⟨mid, rfl, hmid⟩
  · exact hnew mid d post hmid
  · cases mid with
    | nil =>
      obtain ⟨fr', hmem, hfin, hlen⟩ := hnew [] d post hmid.symm
      exact ⟨fr', hmem, hfin, by simpa using hlen⟩
    | cons ev mid =>
      obtain ⟨rfl, rfl⟩ := List.cons.inj hmid
      exact h pre d mid rfl

theorem FinHonest.of_finCount (h : finCount id evs = 0) : FinHonest id frs evs := by
  intro pre d post heq
  rw [heq, finCount_append] at h
  simp [finCount, isFinEv] at h

/-- The stream has its object. -/
structure Resetting (id : Nat) (frs : List RxFrame) (evs : List Event) (conn : Conn) (strm : Strm) :
    Prop where
  find : conn.strms id = some strm
  sid : strm.streamId = id
  used : UsedId conn id
  rx : ∃ w, StrmRx w strm ∧ deliveredData id evs = slice w 0 (strmRxOffset strm)
  shut : strm.recvRst = true ∨ FinSeen frs → strm.shutRd = true
  ended : strm.shutRd = true → strm.recvRst = true ∨ FinSeen frs ∨ strm.lastRxOffset = 0
  fin_eq : ∀ fr, .stream fr ∈ frs → fr.fin = true → fr.endOffset = strm.lastRxOffset
  honest : FinHonest id frs evs

/-- The stream was closed, or its ID was consumed by a RST_STREAM. -/
structure Gone (id : Nat) (frs : List RxFrame) (evs : List Event) (conn : Conn) : Prop where
  closed : conn.strms id = none
  used : UsedId conn id
  honest : FinHonest id frs evs

/-- The state of the stream between two frames. -/
inductive ResetState (id : Nat) (frs : List RxFrame) (evs : List Event) (conn : Conn) : Prop where
  | unused (start : StreamStart conn id) (noStrm : conn.strms id = none)
      (noStream : ∀ fr, .stream fr ∉ frs) (quiet : deliveredData id evs = [] ∧ finCount id evs = 0)
  | resetting (strm : Strm) (h : Resetting id frs evs conn strm)
  | gone (h : Gone id frs evs conn)

/-- A STREAM frame without FIN that brings the last missing byte before `last_rx_offset` of a
stream that was reset before any FIN. -/
def completesReset (frs : List RxFrame) (conn : Conn) : RxFrame → Prop
  | .rst _ => False
  | .stream fr => ∃ strm, conn.strms fr.streamId = some strm ∧ strm.recvRst = true ∧ ¬FinSeen frs ∧
      fr.fin = false ∧ strm.stopSending = false ∧ strmRxOffset strm < strm.lastRxOffset ∧
      ∀ n, n < strm.lastRxOffset → InGap strm.rob.gap n → fr.offset ≤ n ∧ n < fr.endOffset

theorem FinReported.rx_eq {w' : Nat → UInt8} {strm' : Strm} {fr : StreamFrame} {evs' : List Event}
    (h : FinReported strm strm' fr) (hrec : Received w' strm strm' fr evs') {w : Nat → UInt8}
    (hrx : StrmRx w strm) : strmRxOffset strm' = strm'.lastRxOffset := by
  rcases h with ⟨_, hfin, hend⟩ | ⟨_, _, heq⟩
  · have hlast : strm'.lastRxOffset = max strm.lastRxOffset fr.endOffset := by rw [hrec.same]
    have hle := hrec.le_fin hfin
    have hrx' := hrec.rx.rx_le
    have hmono : strmRxOffset strm ≤ strmRxOffset strm' :=
      hrx.rob.gaps.firstGap_le ((hrec.gap _).mp hrec.rx.rob.inGap_firstGap).1
    omega
  · exact heq

/-- A report without FIN happens only when late data completes a reset stream. -/
theorem FinReported.finSeen {w w' : Nat → UInt8} {strm' : Strm} {fr : StreamFrame}
    {evs' : List Event}
    (h : FinReported strm strm' fr) (hrec : Received w' strm strm' fr evs') (hrx : StrmRx w strm)
    (hshut : strm.shutRd = true → strm.recvRst = true ∨ FinSeen frs ∨ strm.lastRxOffset = 0)
    (hsome : conn.strms fr.streamId = some strm ∨ strm.recvRst = false)
    (hok : ¬completesReset frs conn (.stream fr)) : FinSeen (frs ++ [.stream fr]) := by
  rcases h with ⟨_, hfin, _⟩ | ⟨hlt, hshut', heq⟩
  · exact ⟨fr, by simp, hfin⟩
  have hs : strm'.shutRd = (strm.shutRd || fr.fin) := by rw [hrec.same]
  have hlast : strm'.lastRxOffset = max strm.lastRxOffset fr.endOffset := by rw [hrec.same]
  rw [hs, Bool.or_eq_true] at hshut'
  cases hfin : fr.fin with
  | true => exact ⟨fr, by simp, hfin⟩
  | false =>
    have hshutRd : strm.shutRd = true := hshut'.resolve_right (by simp [hfin])
    have hle := hrec.shut_le hshutRd
    rcases hshut hshutRd with hrst | ⟨fr', hmem, hfin'⟩ | hzero
    · by_contra hno
      have hfind' : conn.strms fr.streamId = some strm := hsome.resolve_right (by simp [hrst])
      refine hok ⟨strm, hfind', hrst, fun ⟨fr', hmem, hfin'⟩ =>
        hno ⟨fr', List.mem_append_left _ hmem, hfin'⟩, hfin, ?_, by omega, fun n hn hg => ?_⟩
      · -- A frame that is thrown away does not move the delivered prefix.
        by_contra hstop
        have hd : frameDropped strm fr = true := by simp [frameDropped, Bool.not_eq_false _ ▸ hstop]
        have hg : InGap strm'.rob.gap (strmRxOffset strm) :=
          (hrec.gap _).mpr ⟨hrx.rob.inGap_firstGap, fun hc => by simp [hd] at hc⟩
        exact hrec.rx.rob.not_inGap_of_lt hlt hg
      · have hn' : n < strmRxOffset strm' := by omega
        by_contra hc
        exact hrec.rx.rob.not_inGap_of_lt hn' ((hrec.gap n).mpr ⟨hg, fun h => hc h.2⟩)
    · exact ⟨fr', List.mem_append_left _ hmem, hfin'⟩
    · omega

theorem Refused.not_ok {r : Result Unit} {conn' : Conn} (h : Refused r) : r ≠ (.ok (), conn') := by
  obtain ⟨e, conn, rfl, _⟩ := h
  simp

/-- The end of a call that did its work in `conn`: the stream is kept, or closed. -/
theorem EndsIn.cases {r : Result Unit} (h : EndsIn conn strm r) (hr : r = (.ok (), conn'))
    (hfind : conn.strms strm.streamId = some strm) :
    conn' = conn ∨ Closed conn strm.streamId conn' := by
  rcases h with heq | ⟨code, heq⟩
  · rw [heq] at hr
    exact .inl (Prod.mk.inj hr).2.symm
  rw [heq, ngtcp2ConnCloseStreamIfShutRdwr] at hr
  split at hr
  · rcases ngtcp2ConnCloseStream_spec strm code hfind with href | ⟨conn'', hok, hclosed⟩
    · exact absurd hr href.not_ok
    · rw [hok] at hr
      rw [← (Prod.mk.inj hr).2]
      exact .inr hclosed
  · exact .inl (Prod.mk.inj hr).2.symm

/-- After its last frame a stream is kept or closed; both fit. -/
theorem Resetting.ends {conn₁ : Conn} {r : Result Unit} (h : Resetting id frs evs conn₁ strm)
    (hends : EndsIn conn₁ strm r) (hr : r = (.ok (), conn')) :
    ∃ evs', conn'.log = conn₁.log ++ evs' ∧ ResetState id frs (evs ++ evs') conn' := by
  rcases hends.cases hr (h.sid ▸ h.find) with rfl | hclosed
  · refine ⟨[], by simp, ?_⟩
    rw [List.append_nil]
    exact .resetting strm h
  · rw [h.sid] at hclosed
    obtain ⟨code, hlog⟩ := hclosed.log
    refine ⟨[.streamClose id code], hlog, .gone ⟨?_, ?_, fun pre d post heq => ?_⟩⟩
    · rw [hclosed.strms]
      simp [Conn.removeStrm]
    · rw [UsedId, connLocalStream, hclosed.server, hclosed.remoteIdtr]
      exact h.used
    · -- The report lies before the closing event.
      rcases List.append_eq_append_iff.mp heq with ⟨mid, rfl, hmid⟩ | ⟨mid, rfl, hmid⟩
      · cases mid with
        | nil => simp at hmid
        | cons ev mid => simp at hmid
      · cases mid with
        | nil => simp at hmid
        | cons ev mid =>
          obtain ⟨rfl, rfl⟩ := List.cons.inj hmid
          exact h.honest pre d mid rfl

/-- A STREAM frame for a stream that has its object, or gets it now. -/
theorem Resetting.stream {conn₁ : Conn} {fr : StreamFrame} (hid : id ≠ 0) (hfr : fr.streamId = id)
    (h : Resetting id frs evs conn₁ strm)
    (hfind : connFindOrOpenStream conn fr.streamId = (.ok (some strm), conn₁))
    (hsome : conn.strms fr.streamId = some strm ∨ strm.recvRst = false)
    (hok : ¬completesReset frs conn (.stream fr)) (hr : connRecvStream conn fr = (.ok (), conn')) :
    ∃ evs', conn'.log = conn₁.log ++ evs' ∧
    ResetState id (frs ++ [.stream fr]) (evs ++ evs') conn' := by
  obtain ⟨w, hrx, hdata⟩ := h.rx
  have hw := overwrite_writes w strm fr
  rcases connRecvStream_spec hfind (h.sid ▸ h.find) (h.sid ▸ hid) hrx hw with
    href | ⟨strm', evs', fc, hrec, _, hends⟩
  · exact absurd hr href.not_ok
  have hshut : strm'.shutRd = (strm.shutRd || fr.fin) := by rw [hrec.same]
  have hlast : strm'.lastRxOffset = max strm.lastRxOffset fr.endOffset := by rw [hrec.same]
  have hsid : strm'.streamId = id := by
    rw [hrec.same]
    exact h.sid
  have hmono : strmRxOffset strm ≤ strmRxOffset strm' :=
    hrx.rob.gaps.firstGap_le ((hrec.gap _).mp hrec.rx.rob.inGap_firstGap).1
  have hdata' : deliveredData id (evs ++ evs') =
    slice (overwrite w strm fr) 0 (strmRxOffset strm') := by
    have htold := hrec.told.data_eq
    rw [h.sid] at htold
    rw [deliveredData_append, hdata, htold,
      slice_congr (overwrite w strm fr) fun n _ hn => (hw.old n (.inr (.inl hn))).symm,
      slice_append _ (Nat.zero_le _) hmono]
  have hfin_eq : ∀ fr', .stream fr' ∈ frs ++ [.stream fr] → fr'.fin = true →
      fr'.endOffset = strm'.lastRxOffset := by
    intro fr' hfr' hfin'
    rw [hlast]
    rcases List.mem_append.mp hfr' with hfr' | hfr'
    · have hend := hrec.shut_le (h.shut (.inr ⟨fr', hfr', hfin'⟩))
      have := h.fin_eq fr' hfr' hfin'
      omega
    · obtain rfl := RxFrame.stream.inj (List.mem_singleton.mp hfr')
      have := hrec.le_fin hfin'
      omega
  have hresetting : Resetting id (frs ++ [.stream fr]) (evs ++ evs')
      (frameDone (conn₁.setRxOffset (conn₁.rxOffset + (fr.endOffset - strm.lastRxOffset))) fc strm' evs')
      strm' := by
    refine ⟨?_, hsid, h.used, ⟨_, hrec.rx, hdata'⟩, ?_, ?_, hfin_eq, h.honest.mono.append ?_⟩
    · rw [← hsid]
      exact if_pos rfl
    · rw [hshut, Bool.or_eq_true, hrec.same]
      rintro (hrst | ⟨fr', hmem, hfin⟩)
      · exact .inl (h.shut (.inl hrst))
      · rcases List.mem_append.mp hmem with hmem | hmem
        · exact .inl (h.shut (.inr ⟨fr', hmem, hfin⟩))
        · obtain rfl := RxFrame.stream.inj (List.mem_singleton.mp hmem)
          exact .inr hfin
    · rw [hshut, Bool.or_eq_true, hlast]
      intro hs
      rcases hs with hs | hfin
      · have hle := hrec.shut_le hs
        rcases h.ended hs with hrst | ⟨fr', hmem, hfin⟩ | hzero
        · rw [hrec.same]
          exact .inl hrst
        · exact .inr (.inl ⟨fr', List.mem_append_left _ hmem, hfin⟩)
        · exact .inr (.inr (by omega))
      · exact .inr (.inl ⟨fr, by simp, hfin⟩)
    · intro pre d post heq
      have hcount := hrec.told.fins_eq
      have hrep : FinReported strm strm' fr := by
        by_contra hno
        rw [if_neg hno, h.sid, heq, finCount_append] at hcount
        simp [finCount, isFinEv] at hcount
      obtain ⟨fr', hmem, hfin⟩ := hrep.finSeen hrec hrx h.ended hsome hok
      refine ⟨fr', hmem, hfin, ?_⟩
      have hended := hrec.told.ended pre d post (h.sid ▸ heq)
      rw [h.sid] at hended
      have hall : deliveredData id (evs ++ pre ++ [.recvStreamData id true d]) =
          deliveredData id (evs ++ evs') := by
        rw [heq, ← List.append_nil (deliveredData id (_ ++ _ ++ _)), ← hended,
          ← deliveredData_append]
        simp
      rw [hall, hdata', slice_length, Nat.sub_zero, hrep.rx_eq hrec hrx, hfin_eq fr' hmem hfin]
  obtain ⟨evs'', hlog, hstate⟩ := hresetting.ends hends hr
  refine ⟨evs' ++ evs'', ?_, by rwa [← List.append_assoc]⟩
  rw [hlog, ← List.append_assoc]
  rfl
/-- A RST_STREAM for a stream that has its object. -/
theorem Resetting.rst {fr : RstStreamFrame} (hfr : fr.streamId = id)
    (h : Resetting id frs evs conn strm)
    (hr : connRecvRstStream conn fr = (.ok (), conn')) :
    ∃ evs', conn'.log = conn.log ++ evs' ∧
    ResetState id (frs ++ [.rst fr]) (evs ++ evs') conn' := by
  subst hfr
  obtain ⟨w, hrx, hdata⟩ := h.rx
  unfold connRecvRstStream at hr
  split at hr
  · simp at hr
  split at hr
  · simp at hr
  dsimp only at hr
  simp only [h.find] at hr
  split at hr
  · simp at hr
  split at hr
  · simp at hr
  split at hr
  · simp at hr
  have hstate : Resetting fr.streamId (frs ++ [.rst fr]) evs
      ((conn.setRxOffset (conn.rxOffset + (fr.finalOffset - strm.lastRxOffset))).setStrm strm.markRecvRst)
      strm.markRecvRst := by
    have hsid : strm.markRecvRst.streamId = fr.streamId := h.sid
    refine ⟨?_, hsid, h.used, ⟨w, ⟨hrx.rob, hrx.last_le, hrx.nothing, hrx.max_le⟩, hdata⟩,
      fun _ => rfl,
      fun _ => .inl rfl, ?_, h.honest.mono⟩
    · rw [← hsid]
      exact if_pos rfl
    · intro fr' hfr' hfin'
      refine h.fin_eq fr' ?_ hfin'
      simpa using hfr'
  exact hstate.ends (.inr ⟨_, rfl⟩) hr

/-- A RST_STREAM for a stream without an object at most consumes its ID. -/
theorem connRecvRstStream_none {fr : RstStreamFrame} (hnone : conn.strms fr.streamId = none)
    (hr : connRecvRstStream conn fr = (.ok (), conn')) :
    conn' = conn ∨ ∃ rxOffset, conn' = conn.setRxOffset rxOffset ∧ UsedId conn fr.streamId ∨
      ∃ idtr, connLocalStream conn fr.streamId = false ∧
        idtrOpen (conn.ids (bidiStream fr.streamId)).remoteIdtr fr.streamId = some idtr ∧
        conn' = (conn.setIds (bidiStream fr.streamId)
          { conn.ids (bidiStream fr.streamId) with remoteIdtr := idtr }).setRxOffset rxOffset := by
  unfold connRecvRstStream at hr
  split at hr
  · simp at hr
  split at hr
  · simp at hr
  dsimp only at hr
  simp only [hnone] at hr
  split at hr
  · split at hr
    · simp at hr
    · exact .inl (Prod.mk.inj hr).2.symm
  next hremote =>
  split at hr
  · exact .inl (Prod.mk.inj hr).2.symm
  split at hr
  · simp at hr
  obtain rfl := (Prod.mk.inj hr).2
  cases ho : idtrOpen (conn.ids (bidiStream fr.streamId)).remoteIdtr fr.streamId with
  | none => exact .inr ⟨_, .inl ⟨rfl, .inr ho⟩⟩
  | some idtr => exact .inr ⟨_, .inr ⟨idtr, by simpa using hremote, rfl, rfl⟩⟩

theorem Gone.rst {fr : RstStreamFrame} (hfr : fr.streamId = id) (h : Gone id frs evs conn)
    (hr : connRecvRstStream conn fr = (.ok (), conn')) :
    ∃ evs', conn'.log = conn.log ++ evs' ∧
    ResetState id (frs ++ [.rst fr]) (evs ++ evs') conn' := by
  subst hfr
  rcases connRecvRstStream_none h.closed hr with rfl | ⟨rx, ⟨rfl, hused⟩ | ⟨idtr, hremote, ho, rfl⟩⟩
  · exact ⟨[], by simp, by simpa using .gone ⟨h.closed, h.used, h.honest.mono⟩⟩
  · exact ⟨[], by simp [Conn.setRxOffset], by simpa using .gone ⟨h.closed, hused, h.honest.mono⟩⟩
  · rcases h.used with hlocal | hnone
    · simp [hremote] at hlocal
    · simp [ho] at hnone

theorem StreamStart.rst {fr : RstStreamFrame} (hfr : fr.streamId = id)
    (hstart : StreamStart conn id)
    (hnone : conn.strms id = none) (hno : ∀ fr, .stream fr ∉ frs)
    (hquiet : deliveredData id evs = [] ∧ finCount id evs = 0)
    (hr : connRecvRstStream conn fr = (.ok (), conn')) :
    ∃ evs', conn'.log = conn.log ++ evs' ∧
    ResetState id (frs ++ [.rst fr]) (evs ++ evs') conn' := by
  subst hfr
  cases hstart with
  | opened strm find => simp [hnone] at find
  | unused idtr none remote sorted canOpen =>
  rcases connRecvRstStream_none none hr with rfl | ⟨rx, ⟨rfl, hused⟩ | ⟨idtr', -, ho, rfl⟩⟩
  · refine ⟨[], by simp, ?_⟩
    rw [List.append_nil]
    exact .unused (.unused idtr none remote sorted canOpen) none (by simpa using hno) hquiet
  · rcases hused with hlocal | hnone'
    · simp [remote] at hlocal
    · simp [canOpen] at hnone'
  · refine ⟨[], by simp [Conn.setRxOffset], .gone ⟨?_, .inr ?_, ?_⟩⟩
    · simpa [Conn.setRxOffset] using none
    · change idtrOpen ((Conn.ids (conn.setIds _ _) _).remoteIdtr) _ = Option.none
      rw [Conn.ids_setIds, if_pos rfl]
      exact idtrOpen_used sorted ho
    · rw [List.append_nil]
      exact .of_finCount hquiet.2

/-- One accepted frame that does not complete a reset stream. -/
theorem ResetState.step (hid : id ≠ 0) (hfr : fr.streamId = id) (h : ResetState id frs evs conn)
    (hok : ¬completesReset frs conn fr) (hr : fr.recv conn = (.ok (), conn')) :
    ∃ evs', conn'.log = conn.log ++ evs' ∧ ResetState id (frs ++ [fr]) (evs ++ evs') conn' := by
  cases fr with
  | rst fr =>
    cases h with
    | unused start noStrm noStream quiet => exact start.rst hfr noStrm noStream quiet hr
    | resetting strm h => exact h.rst hfr hr
    | gone h => exact h.rst hfr hr
  | stream fr =>
    change fr.streamId = id at hfr
    subst hfr
    cases h with
    | resetting strm h =>
      exact h.stream hid rfl (connFindOrOpenStream_find h.find) (.inl h.find) hok hr
    | gone h =>
      rcases connRecvStream_closed h.closed h.used with href | heq
      · exact absurd hr href.not_ok
      · obtain rfl := (Prod.mk.inj (heq.symm.trans hr)).2
        exact ⟨[], by simp, by simpa using .gone ⟨h.closed, h.used, h.honest.mono⟩⟩
    | unused start noStrm noStream quiet =>
      cases start with
      | opened strm find => simp [noStrm] at find
      | unused idtr none remote sorted canOpen =>
      have hopened : Resetting fr.streamId frs (evs ++ [.strmInit fr.streamId])
          (openRemote conn fr.streamId idtr) (openedStrm conn fr.streamId) := by
        have hrecv := openRemote_receiving (s := []) sorted canOpen
        have hfresh := openedStrm_fresh conn fr.streamId
        have hfirst := hrecv.data
        refine ⟨hrecv.find, hrecv.sid, hrecv.used, ⟨_, hrecv.rx, ?_⟩, ?_,
          fun _ => .inr (.inr hfresh.last),
          ?_, .of_finCount ?_⟩
        · rw [deliveredData_append, quiet.1, ← hfirst]
          rfl
        · rintro (hrst | ⟨fr', hmem, _⟩)
          · simp [hfresh.noRst] at hrst
          · exact absurd hmem (noStream fr')
        · exact fun fr' hmem => absurd hmem (noStream fr')
        · rw [finCount_append, quiet.2]
          rfl
      obtain ⟨evs', hlog, hstate⟩ := hopened.stream hid rfl
        (connFindOrOpenStream_open none remote canOpen)
        (.inr (openedStrm_fresh conn fr.streamId).noRst)
        hok hr
      refine ⟨.strmInit fr.streamId :: evs', ?_, by simpa using hstate⟩
      rw [hlog]
      simp [openRemote, Conn.tell]
end

/-! ## Runs -/

/-- A frame of the stream is accepted. -/
def RxStep (id : Nat) (_ : List RxFrame) (conn : Conn) (fr : RxFrame) (conn' : Conn) : Prop :=
  fr.streamId = id ∧ fr.recv conn = (.ok (), conn')

theorem StreamStart.resetState {id : Nat} {conn : Conn} (h : StreamStart conn id) :
    ResetState id [] [] conn := by
  cases h with
  | opened strm find sid used fresh =>
    refine .resetting strm ⟨find, sid, used, ⟨fun _ => 0, fresh.rx _, ?_⟩, ?_,
      fun _ => .inr (.inr fresh.last), by simp, .of_finCount rfl⟩
    · rw [fresh.rxOffset, slice_self]
      rfl
    · simp [fresh.noRst, FinSeen]
  | unused idtr none remote sorted canOpen =>
    exact .unused (.unused idtr none remote sorted canOpen) none (by simp) ⟨rfl, rfl⟩

theorem RxStep.det (id : Nat) (frs : List RxFrame) (conn : Conn) (fr : RxFrame) (conn₁ conn₂ : Conn)
    (h₁ : RxStep id frs conn fr conn₁) (h₂ : RxStep id frs conn fr conn₂) : conn₁ = conn₂ :=
  (Prod.mk.inj (h₁.2.symm.trans h₂.2)).2

/-- The application was told honestly since `conn`. -/
def ToldHonestly (id : Nat) (conn : Conn) (frs : List RxFrame) (conn' : Conn) : Prop :=
  ∃ evs, conn'.log = conn.log ++ evs ∧ FinHonest id frs evs

/-- The steps that do not complete a reset stream. -/
def RxStepOk (id : Nat) : List RxFrame → Conn → RxFrame → Conn → Prop :=
  Guarded (RxStep id) fun frs conn fr => ¬completesReset frs conn fr

section
variable {id : Nat} {frs : List RxFrame} {conn conn₁ conn' : Conn}

theorem rxRun_state (hid : id ≠ 0) (hstart : StreamStart conn id)
    (hrun : Run (RxStepOk id) conn frs conn') :
    ∃ evs, conn'.log = conn.log ++ evs ∧ ResetState id frs evs conn' := by
  refine hrun.invariant (fun frs conn₁ => ∃ evs, conn₁.log = conn.log ++ evs ∧
    ResetState id frs evs conn₁) ⟨[], by simp, hstart.resetState⟩ ?_
  rintro frs conn₁ fr conn₂ ⟨evs, hlog, h⟩ ⟨⟨hfr, hr⟩, hok⟩
  obtain ⟨evs', hlog', h'⟩ := h.step hid hfr hok hr
  exact ⟨evs ++ evs', by rw [hlog', hlog, List.append_assoc], h'⟩

theorem ResetState.honest {evs : List Event} (h : ResetState id frs evs conn) :
    FinHonest id frs evs := by
  cases h with
  | unused _ _ _ quiet => exact .of_finCount quiet.2
  | resetting strm h => exact h.honest
  | gone h => exact h.honest

/-- Completing a reset stream tells the application that it ended. -/
theorem completesReset_finCount {fr : StreamFrame} {evs : List Event} (hid : id ≠ 0)
    (hfr : fr.streamId = id) (h : ResetState id frs evs conn)
    (hbad : completesReset frs conn (.stream fr))
    (hr : connRecvStream conn fr = (.ok (), conn')) :
    ∃ evs', conn'.log = conn.log ++ evs' ∧ 0 < finCount id evs' := by
  subst hfr
  obtain ⟨strm, hfind, hrst, hno, hfin, hstop, hlt, hfill⟩ := hbad
  obtain ⟨strm', h⟩ : ∃ strm', Resetting fr.streamId frs evs conn strm' := by
    cases h with
    | unused _ noStrm => simp [hfind] at noStrm
    | resetting strm' h => exact ⟨strm', h⟩
    | gone h => exact absurd h.closed (by simp [hfind])
  obtain rfl : strm = strm' := Option.some.inj (hfind.symm.trans h.find)
  obtain ⟨w, hrx, -⟩ := h.rx
  rcases connRecvStream_spec (connFindOrOpenStream_find hfind) (h.sid ▸ hfind) (h.sid ▸ hid) hrx
    (overwrite_writes w strm fr) with href | ⟨strm', evs', fc, hrec, _, hends⟩
  · exact absurd hr href.not_ok
  have hshut : strm.shutRd = true := h.shut (.inl hrst)
  have hd : frameDropped strm fr = false := by simp [frameDropped, hstop, hfin]
  have hlast : strm'.lastRxOffset = max strm.lastRxOffset fr.endOffset := by rw [hrec.same]
  have hle := hrec.shut_le hshut
  have hend : strm.lastRxOffset ≤ strmRxOffset strm' := by
    by_contra hc
    obtain ⟨hg, hnot⟩ := (hrec.gap _).mp hrec.rx.rob.inGap_firstGap
    exact hnot ⟨hd, hfill _ (Nat.lt_of_not_le hc) hg⟩
  have hrep : FinReported strm strm' fr := by
    have hrx' := hrec.rx.rx_le
    refine .inr ⟨by omega, ?_, by omega⟩
    rw [hrec.same]
    simp [hshut]
  have hcount := hrec.told.fins_eq
  rw [if_pos hrep, h.sid] at hcount
  have hsid : strm'.streamId = fr.streamId := by
    rw [hrec.same]
    exact h.sid
  rcases hends.cases hr (if_pos rfl) with rfl | hclosed
  · exact ⟨evs', rfl, by omega⟩
  · obtain ⟨code, hlog⟩ := hclosed.log
    refine ⟨evs' ++ [.streamClose strm'.streamId code], ?_, ?_⟩
    · rw [hlog, ← List.append_assoc]
      rfl
    · rw [finCount_append, hcount]
      omega

/-- The end of a stream is reported honestly all along a run exactly when no frame of the run
completes a stream that was reset before any FIN. -/
theorem rxRun_finHonest_iff (hid : id ≠ 0) (hstart : StreamStart conn id)
    (hrun : Run (RxStep id) conn frs conn') :
    (∀ ls conn₁, ls <+: frs → Run (RxStep id) conn ls conn₁ → ToldHonestly id conn ls conn₁) ↔
      Run (RxStepOk id) conn frs conn' := by
  constructor
  · intro hall
    induction hrun with
    | nil => exact .nil
    | @snoc ls fr conn₁ conn₂ run last ih =>
      have hrun₁ := ih fun ls' conn₁ hpre => hall ls' conn₁ (hpre.trans (List.prefix_append ..))
      refine hrun₁.snoc ⟨last, fun hbad => ?_⟩
      cases fr with
      | rst fr => exact hbad
      | stream fr =>
        obtain ⟨evs₁, hlog₁, hstate⟩ := rxRun_state hid hstart hrun₁
        obtain ⟨evs', hlog', hcount⟩ := completesReset_finCount hid last.1 hstate hbad last.2
        obtain ⟨evs, hlog, hhonest⟩ := hall _ _ (List.prefix_refl _) (run.snoc last)
        obtain ⟨strm, -, -, hno, hfin, -⟩ := hbad
        have hevs : evs = evs₁ ++ evs' := by
          rw [hlog', hlog₁, List.append_assoc] at hlog
          exact (List.append_cancel_left hlog).symm
        have hpos : 0 < finCount id evs := by
          rw [hevs, finCount_append]
          omega
        obtain ⟨ev, hmem, hev⟩ := List.countP_pos_iff.mp hpos
        obtain ⟨pre, post, hsplit⟩ := List.append_of_mem hmem
        obtain ⟨d, rfl⟩ : ∃ d, ev = .recvStreamData id true d := by
          cases ev with
          | recvStreamData i b d =>
            simp only [isFinEv, Bool.and_eq_true, beq_iff_eq] at hev
            obtain ⟨rfl, rfl⟩ := hev
            exact ⟨d, rfl⟩
          | _ => simp [isFinEv] at hev
        obtain ⟨fr', hfr', hfin', -⟩ := hhonest pre d post hsplit
        rcases List.mem_append.mp hfr' with hfr' | hfr'
        · exact hno ⟨fr', hfr', hfin'⟩
        · obtain rfl := RxFrame.stream.inj (List.mem_singleton.mp hfr')
          simp [hfin] at hfin'
  · intro hok
    induction hok with
    | nil =>
      intro ls conn₁ hpre run
      obtain rfl := List.prefix_nil.mp hpre
      obtain rfl := Run.unique (RxStep.det id) run .nil
      exact ⟨[], by simp, .of_finCount rfl⟩
    | @snoc frs fr conn₁ conn₂ run last ih =>
      intro ls conn₃ hpre run'
      rcases List.prefix_concat_iff.mp hpre with rfl | hpre
      · obtain rfl := Run.unique (RxStep.det id) run' (run.snoc last).unguarded
        obtain ⟨evs, hlog, hstate⟩ := rxRun_state hid hstart (run.snoc last)
        exact ⟨evs, hlog, hstate.honest⟩
      · exact ih run.unguarded ls conn₃ hpre run'
end

theorem RxStep.of_ok {id : Nat} {conn : Conn} {fr : RxFrame} (frs : List RxFrame)
    (hfr : fr.streamId = id)
    (hok : (fr.recv conn).1 = .ok ()) : RxStep id frs conn fr (fr.recv conn).2 :=
    ⟨hfr, Prod.ext hok rfl⟩

/-- A stream is reset after its second byte, then its first byte arrives late. -/
def lateFrames : List RxFrame :=
    [.stream ⟨4, 1, [9], false⟩, .rst ⟨4, 0, 5⟩, .stream ⟨4, 0, [8], false⟩]

/-- The connection after each of the late frames. -/
def lateConn (k : Nat) : Conn :=
  (lateFrames.take k).foldl (fun conn fr => (fr.recv conn).2) smallServer

theorem lateRun : Run (RxStep 4) smallServer lateFrames (lateConn 3) :=
  ((Run.nil.snoc (.of_ok [] rfl rfl)).snoc (.of_ok [.stream ⟨4, 1, [9], false⟩] rfl rfl)).snoc
    (.of_ok [.stream ⟨4, 1, [9], false⟩, .rst ⟨4, 0, 5⟩] rfl rfl)

/-- The reset stream is reported as finished, without any FIN. -/
theorem lateRun_reported : Run (RxStep 4) smallServer lateFrames (lateConn 3) ∧
    .recvStreamData 4 true [9] ∈ (lateConn 3).log ∧ ¬FinSeen lateFrames := by
  refine ⟨lateRun, by decide, ?_⟩
  rintro ⟨fr, hmem, hfin⟩
  simp only [lateFrames, List.mem_cons, RxFrame.stream.injEq, reduceCtorEq, List.not_mem_nil,
    or_false,
    false_or] at hmem
  rcases hmem with rfl | rfl <;> simp at hfin

/-- A stream that is delivered, then reset. -/
theorem rxRun_finHonest_reset :
    (∀ ls conn₁, ls <+: [.stream ⟨4, 0, [8], false⟩, .rst ⟨4, 0, 5⟩] →
    Run (RxStep 4) smallServer ls conn₁ →
      ToldHonestly 4 smallServer ls conn₁) ↔
    Run (RxStepOk 4) smallServer [.stream ⟨4, 0, [8], false⟩, .rst ⟨4, 0, 5⟩]
      (RxFrame.recv (RxFrame.recv smallServer (.stream ⟨4, 0, [8], false⟩)).2 (.rst ⟨4, 0, 5⟩)).2 :=
  rxRun_finHonest_iff (by decide) (smallServer_start 4 rfl rfl (.inr rfl) rfl)
    ((Run.nil.snoc (.of_ok [] rfl rfl)).snoc (.of_ok [.stream ⟨4, 0, [8], false⟩] rfl rfl))

end Ngtcp2
