import Polygon.StreamCredit

/-!
# Stream 0

What the application is given of stream 0. Its frames come in by two functions, which do the
same to its buffer; nothing else touches what was received.
-/
namespace Ngtcp2

open Ranges

/-- The bytes an event passes to `recv_stream0_data`. -/
def evData0 : Event → List UInt8
  | .recvStream0Data data => data
  | _ => []

/-- All bytes passed to `recv_stream0_data`. -/
def stream0Data (log : List Event) : List UInt8 := log.flatMap evData0

/-- The receive side of stream 0 is the same, but for its credit. -/
structure SameRx0 (strm0 strm0' : Strm) : Prop where
  streamId : strm0'.streamId = strm0.streamId := by rfl
  rob : strm0'.rob = strm0.rob := by rfl
  shutRd : strm0'.shutRd = strm0.shutRd := by rfl
  stopSending : strm0'.stopSending = strm0.stopSending := by rfl

/-- Nothing of stream 0 was received in between; `Q` says what else is left of its object. -/
def Quiet0 (Q : Strm → Strm → Prop) (strm0 : Strm) (conn conn' : Conn) : Prop :=
  (∃ strm0', conn'.strms 0 = some strm0' ∧ SameRx0 strm0 strm0' ∧ Q strm0 strm0') ∧
    ∃ evs, conn'.log = conn.log ++ evs ∧ stream0Data evs = []

/-- The credit of stream 0 is the same. -/
def SameCredit0 (strm0 strm0' : Strm) : Prop := strm0'.unsentMaxRxOffset = strm0.unsentMaxRxOffset

@[simp] theorem stream0Data_append (log evs : List Event) :
    stream0Data (log ++ evs) = stream0Data log ++ stream0Data evs := by
  simp [stream0Data]

theorem stream0Data_quiet {evs : List Event} (h : ∀ ev ∈ evs, evData0 ev = []) :
    stream0Data evs = [] :=
  List.flatMap_eq_nil_iff.mpr h

theorem evData0_of_silent {ev : Event} (h : ev.silent = true) : evData0 ev = [] := by
  cases ev with
  | recvStream0Data => simp [Event.silent, Event.neutral] at h
  | _ => rfl

theorem evData0_of_fits {ev : Event} {id : Nat} (h : ev.fits id) (hid : id ≠ 0) :
    evData0 ev = [] := by
  cases ev with
  | recvStream0Data => exact absurd h hid
  | _ => rfl

section
variable {H : List Frame} {K : List Kind} {conn conn₁ conn' : Conn} {strm0 strm strm' : Strm}

theorem SameRx0.trans {strm₁ : Strm} (h : SameRx0 strm0 strm₁) (h' : SameRx0 strm₁ strm') :
    SameRx0 strm0 strm' :=
  ⟨h'.streamId.trans h.streamId, h'.rob.trans h.rob, h'.shutRd.trans h.shutRd,
    h'.stopSending.trans h.stopSending⟩

/-! ## What does not receive stream 0 -/

/-- The changes that may bring bytes of stream 0. -/
def Kind.receives : Kind → Bool
  | .rx | .restart => true
  | _ => false

/-- A stream object is written back. -/
theorem setStrm_rx0 (h0 : conn.strms 0 = some strm0) (find : conn.strms strm.streamId = some strm)
    (hc : conn₁.strms = conn.strms) (hid : strm'.streamId = strm.streamId) {Q : Prop}
    (hsame : strm.streamId = 0 → SameRx0 strm strm') (hcredit : Q → SameCredit0 strm strm') :
    ∃ strm0', (conn₁.setStrm strm').strms 0 = some strm0' ∧ SameRx0 strm0 strm0' ∧
    (Q → SameCredit0 strm0 strm0') := by
  rw [Conn.setStrm_strms, hid, hc]
  by_cases hzero : 0 = strm.streamId
  · rw [if_pos hzero]
    rw [hzero, find] at h0
    obtain rfl := Option.some.inj h0
    exact ⟨strm', rfl, hsame hzero.symm, hcredit⟩
  · rw [if_neg hzero]
    exact ⟨strm0, h0, by constructor <;> rfl, fun _ => rfl⟩

/-- The other changes leave what was received of stream 0 alone, and its credit but for extensions. -/
theorem Change.quiet0 {k : Kind} (h : Change H k conn conn') (hk : k.receives = false)
    (h0 : conn.strms 0 = some strm0)
    (hopen : strm0.shutRd = false) :
    Quiet0 (fun s s' => k ≠ .extend → SameCredit0 s s') strm0 conn conn' := by
  have hsame : ∀ {c : Conn}, c.strms = conn.strms →
      ∃ strm0', c.strms 0 = some strm0' ∧ SameRx0 strm0 strm0' ∧
        (k ≠ .extend → SameCredit0 strm0 strm0') := by
    intro c hstrms
    rw [hstrms]
    exact ⟨strm0, h0, by constructor <;> rfl, fun _ => rfl⟩
  have hquiet : ∃ evs, conn.log = conn.log ++ evs ∧ stream0Data evs = [] :=
    ⟨[], (List.append_nil _).symm, rfl⟩
  have htold : ∀ {log : List Event} (ev : Event), log = conn.log ++ [ev] → evData0 ev = [] →
      ∃ evs, log = conn.log ++ evs ∧ stream0Data evs = [] := fun ev hlog hev =>
    ⟨[ev], hlog, stream0Data_quiet fun e he => List.mem_singleton.mp he ▸ hev⟩
  have hne : ∀ {id : Nat}, conn.strms id = none → ¬0 = id := fun hnone he => by
    rw [← he, h0] at hnone
    cases hnone
  cases h with
  | idle same =>
    obtain ⟨evs, hsilent, hlog⟩ := same.log
    exact ⟨hsame same.strms, evs, hlog,
      stream0Data_quiet fun ev hev => evData0_of_silent (hsilent ev hev)⟩
  | encrypt hd => exact ⟨hsame rfl, htold _ rfl rfl⟩
  | rx => cases hk
  | window find tx rx unsent =>
    refine ⟨setStrm_rx0 h0 find rfl tx.streamId (fun hzero => ?_) fun _ => unsent, hquiet⟩
    exact ⟨tx.streamId, rx.rob, rx.shutRd, rx.zero hzero⟩
  | announceStrm find =>
    refine ⟨setStrm_rx0 h0 find ?_ ?_ (fun _ => ?_) fun _ => ?_,
      hquiet⟩ <;> first | rfl | (constructor <;> rfl)
  | extend find tx rx =>
    refine ⟨setStrm_rx0 h0 find rfl tx.streamId (fun hzero => ?_) fun hc => absurd rfl hc, hquiet⟩
    exact ⟨tx.streamId, rx.rob, rx.shutRd, rx.zero hzero⟩
  | @openRemote _ streamId idtr none remote credit opens =>
    refine ⟨⟨strm0, ?_, by constructor <;> rfl, fun _ => rfl⟩, htold _ (openRemote_log _ _ _) rfl⟩
    show ((conn.setIds (bidiStream streamId)
      { conn.ids (bidiStream streamId) with remoteIdtr := idtr }).setStrm (openedStrm conn streamId)).strms 0 = _
    rw [Conn.setStrm_strms, Conn.setIds_strms, openedStrm_streamId, if_neg (hne none), h0]
  | @openLocal _ strm bidi credit none init =>
    have hid : strm.streamId = (conn.ids bidi).nextLocalStreamId := by
      rcases init with rfl | rfl <;> rfl
    refine ⟨⟨strm0, ?_, by constructor <;> rfl, fun _ => rfl⟩, htold _ (openLocal_log _ _ _) rfl⟩
    unfold Ngtcp2.openLocal
    rw [Conn.setIds_strms]
    show (conn.setStrm strm).strms 0 = _
    rw [Conn.setStrm_strms, if_neg (hid ▸ hne none), h0]
  | consume => exact ⟨hsame (Conn.setIds_strms _ _ _), [], by simp, rfl⟩
  | @close _ strm find shut code bidi unsent credit =>
    have hzero : ¬0 = strm.streamId := by
      intro hzero
      rw [← hzero, h0] at find
      obtain rfl := Option.some.inj find
      unfold strmShutRdwr at shut
      rw [hopen] at shut
      cases shut
    refine ⟨⟨strm0, ?_, by constructor <;> rfl, fun _ => rfl⟩,
      htold _ (closeStrm_log _ _ _ _ _ _) rfl⟩
    unfold closeStrm
    rw [Conn.setIds_strms]
    show (if 0 = strm.streamId then _ else conn.strms 0) = _
    rw [if_neg hzero, h0]
  | raiseIds => exact ⟨hsame (Conn.setIds_strms _ _ _), [], by simp, rfl⟩
  | raiseStrm find =>
    refine ⟨setStrm_rx0 h0 find ?_ ?_ (fun _ => ?_) fun _ => ?_,
      hquiet⟩ <;> first | rfl | (constructor <;> rfl)
  | limits0 find id | refill find id | advance find id =>
    rw [← id] at find
    refine ⟨setStrm_rx0 h0 find ?_ ?_ (fun _ => ?_) fun _ => ?_,
      hquiet⟩ <;> first | rfl | (constructor <;> rfl)
  | rst find =>
    refine ⟨setStrm_rx0 h0 find ?_ ?_ (fun _ => ?_) fun _ => ?_,
      htold _ rfl rfl⟩ <;> first | rfl | (constructor <;> rfl)
  | pktAcked => exact ⟨hsame rfl, htold _ rfl rfl⟩
  | acked find =>
    refine ⟨setStrm_rx0 h0 find ?_ ?_ (fun _ => ?_) fun _ => ?_,
      hquiet⟩ <;> first | rfl | (constructor <;> rfl)
  | @tx _ strm fr hd find id unshut offset strmCredit connCredit num form ts pktlen =>
    have htrack : (trackStreamPkt conn hd fr ts pktlen).strms = conn.strms ∧
        (trackStreamPkt conn hd fr ts pktlen).log = conn.log := by
      unfold trackStreamPkt
      split <;> exact ⟨rfl, rfl⟩
    refine ⟨setStrm_rx0 h0 find htrack.1 ?_ (fun _ => ?_) fun _ => ?_, [], ?_, rfl⟩
    · split <;> rfl
    · split <;> constructor <;> rfl
    · unfold SameCredit0
      split <;> rfl
    · rw [List.append_nil]
      exact htrack.2
  | restart => cases hk
  | _ => exact ⟨hsame rfl, hquiet⟩

theorem Quiet0.refl {Q : Strm → Strm → Prop} (h0 : conn.strms 0 = some strm0) (hQ : Q strm0 strm0) :
    Quiet0 Q strm0 conn conn :=
  ⟨⟨strm0, h0, by constructor <;> rfl, hQ⟩, [], (List.append_nil _).symm, rfl⟩

/-- The same object of stream 0, and no delivery of its bytes. -/
theorem Quiet0.of_same {Q : Strm → Strm → Prop} (h0 : conn.strms 0 = some strm0)
    (hQ : Q strm0 strm0)
    (hstrm : conn'.strms 0 = conn.strms 0) {evs : List Event} (hlog : conn'.log = conn.log ++ evs)
    (hevs : stream0Data evs = []) :
    Quiet0 Q strm0 conn conn' :=
  ⟨⟨strm0, hstrm.trans h0, by constructor <;> rfl, hQ⟩, evs, hlog, hevs⟩

theorem Changes.quiet0 (h : Changes H K conn conn') (hK : ∀ k ∈ K, k.receives = false ∧ k ≠ .extend)
    (h0 : conn.strms 0 = some strm0) (hopen : strm0.shutRd = false) :
    Quiet0 SameCredit0 strm0 conn conn' := by
  apply h.keeps (Quiet0 SameCredit0 strm0 conn) _ (.refl h0 rfl)
  rintro k hk conn₁ conn₂ ⟨⟨strm₁, h₁, hsame, hcredit⟩, evs, hlog, hevs⟩ hc
  obtain ⟨⟨strm₂, h₂, hsame', hcredit'⟩, evs', hlog', hevs'⟩ :=
    hc.quiet0 (hK k hk).1 h₁ (hsame.shutRd.trans hopen)
  refine ⟨⟨strm₂, h₂, hsame.trans hsame', (hcredit' (hK k hk).2).trans hcredit⟩, evs ++ evs', ?_,
    ?_⟩
  · rw [hlog', hlog, List.append_assoc]
  · rw [stream0Data_append, hevs, hevs']
    rfl

/-- The STREAM frame of stream 0 that the step processes. -/
def Op.stream0Frame : Op → Option StreamFrame
  | recvFrame _ (.stream fr) | recvDelayedHandshakeFrame _ (.stream fr) | recvHandshakeFrame _ _ (.stream fr) =>
    if fr.streamId = 0 then some fr else none
  | _ => none

/-- The application gives the peer more credit on stream 0. -/
def Op.extendsStream0 : Op → Bool
  | extendMaxStreamOffset streamId _ => streamId == 0
  | _ => false

/-- A step that is about something else leaves what was received of stream 0 alone. -/
theorem Step.quiet0 {ops : List Op} {op : Op} (hwf : WellFormed conn) (hused : StrmsUsed conn)
    (h0 : conn.strms 0 = some strm0) (hopen : strm0.shutRd = false) (hstep : Step ops conn op conn')
    (hretry : op.completesRetry conn = false) (hframe : op.stream0Frame = none) :
    Quiet0 (fun s s' => op.extendsStream0 = false → SameCredit0 s s') strm0 conn conn' := by
  have hch := Step.changes_noRetry hwf hstep hretry
  have hkinds : (∀ k ∈ Kind.timeout :: op.kinds, k = .restart ∨ k.receives = false ∧ k ≠ .extend) →
      Quiet0 (fun s s' => op.extendsStream0 = false → SameCredit0 s s') strm0 conn conn' := by
    intro hK
    obtain ⟨⟨strm0', h0', hsame, hcredit⟩, hlog⟩ := hch.quiet0 (fun k hk => by
      obtain ⟨hk, hne⟩ := List.mem_filter.mp hk
      exact (hK k hk).resolve_left (bne_iff_ne.mp hne)) h0 hopen
    exact ⟨⟨strm0', h0', hsame, fun _ => hcredit⟩, hlog⟩
  have hstream : ∀ {fr : StreamFrame} {r : Except Err Unit}, fr.streamId ≠ 0 →
    connRecvStream conn fr = (r, conn') →
      Quiet0 (fun s s' => op.extendsStream0 = false → SameCredit0 s s') strm0 conn conn' := by
    intro fr r hid hrun
    obtain ⟨hstrm, -, evs, hlog, hfits⟩ := connRecvStream_elsewhere hused hrun hid.symm
    exact .of_same h0 (fun _ => rfl) hstrm hlog
      (stream0Data_quiet fun ev hev => evData0_of_fits (hfits ev hev) hid)
  have hother : ∀ {fr : StreamFrame}, (if fr.streamId = 0 then some fr else none) = none →
    fr.streamId ≠ 0 := by
    intro fr hnone hid
    rw [if_pos hid] at hnone
    cases hnone
  obtain ⟨rv, hrun, -⟩ := hstep
  cases op with
  | recvFrame longForm fr =>
    cases fr with
    | stream fr =>
      have hid := hother hframe
      have hrun : (if fr.streamId = 0 ∧
        longForm then (.error .proto, conn) else connRecvStream conn fr) = (rv, conn') := hrun
      rw [if_neg fun hc => hid hc.1] at hrun
      exact hstream hid hrun
    | rstStream fr =>
      obtain ⟨hstrm, evs, hlog, hfits⟩ := connRecvRstStream_elsewhere hwf.keyed hrun (.inl rfl)
      refine .of_same h0 (fun _ => rfl) hstrm hlog (stream0Data_quiet fun ev hev => ?_)
      exact evData0_of_fits (hfits ev hev).2 (hfits ev hev).1
    | _ => exact hkinds (by simp [Op.kinds, Frame.recvKinds, ackKinds, Kind.receives])
  | recvDelayedHandshakeFrame type fr =>
    cases fr with
    | stream fr => exact hstream (hother hframe) hrun
    | _ => exact hkinds (by simp [Op.kinds, Frame.recvDelayedKinds, ackKinds, Kind.receives])
  | recvHandshakeFrame type failed fr =>
    cases fr with
    | stream fr =>
      have hid := hother hframe
      obtain ⟨y, hy, -⟩ := void_cases hrun
      have hy : connRecvHandshakeStream conn type failed fr = (y, conn') := hy
      unfold connRecvHandshakeStream at hy
      rw [if_pos hid] at hy
      obtain ⟨-, rfl⟩ := Prod.mk.inj hy
      exact .refl h0 fun _ => rfl
    | _ => exact hkinds (by simp [Op.kinds, Frame.recvHandshakeKinds, ackKinds, Kind.receives])
  | extendMaxStreamOffset streamId datalen =>
    have hrun : ngtcp2ConnExtendMaxStreamOffset conn streamId datalen = (rv, conn') := hrun
    unfold ngtcp2ConnExtendMaxStreamOffset at hrun
    split at hrun
    · obtain ⟨-, rfl⟩ := Prod.mk.inj hrun
      exact .refl h0 fun _ => rfl
    next strm hfind =>
    have hid : strm.streamId = streamId := hwf.keyed _ _ hfind
    obtain ⟨strm', fcStrms, heq, htx, hrx, -⟩ := connExtendMaxStreamOffset_cases conn strm datalen
    rw [heq] at hrun
    obtain ⟨-, rfl⟩ := Prod.mk.inj hrun
    refine ⟨?_, [], (List.append_nil _).symm, rfl⟩
    by_cases hzero : streamId = 0
    · rw [hzero, h0] at hfind
      obtain rfl := Option.some.inj hfind
      refine ⟨strm', ?_, ⟨htx.streamId, hrx.rob, hrx.shutRd, hrx.zero (hid.trans hzero)⟩,
        fun hc => ?_⟩
      · rw [Conn.setStrm_strms, htx.streamId, hid, hzero, if_pos rfl]
      · rw [hzero] at hc
        cases hc
    · refine ⟨strm0, ?_, by constructor <;> rfl, fun _ => rfl⟩
      rw [Conn.setStrm_strms, htx.streamId, hid, if_neg (Ne.symm hzero)]
      exact h0
  | extendMaxOffset datalen =>
    obtain ⟨-, rfl⟩ := Prod.mk.inj hrun
    have hstrms : (ngtcp2ConnExtendMaxOffset conn datalen).strms = conn.strms ∧
        (ngtcp2ConnExtendMaxOffset conn datalen).log = conn.log := by
      unfold ngtcp2ConnExtendMaxOffset
      split <;> exact ⟨rfl, rfl⟩
    exact .of_same h0 (fun _ => rfl) (congrFun hstrms.1 0)
      (hstrms.2.trans (List.append_nil _).symm) rfl
  | _ => exact hkinds (by simp [Op.kinds, Kind.receives, shutdownKinds, streamTxKinds, writeKinds, resendKinds, closeKinds, retryKinds])

/-! ## Frames of stream 0 -/

/-- The bytes of the frame are those of `w`. -/
def BytesOf (w : Nat → UInt8) (fr : StreamFrame) : Prop :=
    ∀ i (hi : i < fr.data.length), w (fr.offset + i) = fr.data[i]

/-- The content after the frame: `w'` has its bytes where they are used, and is `w` elsewhere. -/
structure Writes0 (w w' : Nat → UInt8) (strm : Strm) (fr : StreamFrame) : Prop where
  new : ∀ i (hi : i < fr.data.length), strmRxOffset strm ≤ fr.offset + i →
    (fr.offset ≤ strmRxOffset strm ∨ InGap strm.rob.gap (fr.offset + i)) →
      w' (fr.offset + i) = fr.data[i]
  old : ∀ n, (¬(fr.offset ≤ n ∧ n < fr.endOffset) ∨
    (strmRxOffset strm < fr.offset ∧ ¬InGap strm.rob.gap n)) → w' n = w n

theorem BytesOf.writes {w : Nat → UInt8} {fr : StreamFrame} (h : BytesOf w fr) (strm : Strm) :
    Writes0 w w strm fr :=
  ⟨fun i hi _ _ => h i hi, fun _ _ => rfl⟩

/-- How many bytes of the frame come next. -/
def directBytes (strm : Strm) (fr : StreamFrame) : Nat :=
  if fr.offset ≤ strmRxOffset strm then fr.endOffset - strmRxOffset strm else 0

/-- How many bytes the frame lets out of the buffer. -/
def releasedBytes (strm : Strm) (fr : StreamFrame) : Nat :=
  if directBytes strm fr = 0 then 0 else robFirstGapOffset
    (robRemovePrefix strm.rob fr.endOffset) - fr.endOffset

/-- The buffer of stream 0 was emptied from `rx` on, up to its first gap. -/
structure Emitted0 (top : Nat) (w : Nat → UInt8) (rx : Nat) (strm strm' : Strm) (evs : List Event) :
    Prop where
  rob : RobUpTo top w (strmRxOffset strm) strm'.rob
  gap : strm'.rob.gap = strm.rob.gap
  streamId : strm'.streamId = strm.streamId
  shutRd : strm'.shutRd = strm.shutRd
  stopSending : strm'.stopSending = strm.stopSending
  data : stream0Data evs = slice w rx (strmRxOffset strm)
  credit : rx = strmRxOffset strm ∨
    strm.unsentMaxRxOffset + 2 * (strmRxOffset strm - rx) ≤ maxVarint →
    strm'.unsentMaxRxOffset = strm.unsentMaxRxOffset + 2 * (strmRxOffset strm - rx)

theorem connExtendMaxStreamOffset_unsent (conn : Conn) (strm : Strm) (datalen : Nat)
    (hle : strm.unsentMaxRxOffset + datalen ≤ maxVarint) :
    (connExtendMaxStreamOffset conn strm datalen).1.unsentMaxRxOffset =
    strm.unsentMaxRxOffset + datalen := by
  have hsub : strm.unsentMaxRxOffset ≤ subU64 maxVarint datalen := by
    unfold subU64
    unfold maxVarint at *
    omega
  have hadd : addU64 strm.unsentMaxRxOffset datalen = strm.unsentMaxRxOffset + datalen :=
    addU64_of_lt (Nat.lt_of_le_of_lt hle (by decide))
  unfold connExtendMaxStreamOffset
  dsimp only
  rw [if_pos hsub, hadd]
  split <;> rfl

theorem connEmitPendingStream0Data_spec {top : Nat} {w : Nat → UInt8} (fuel : Nat) {rx : Nat}
    (hrob : RobUpTo top w rx strm.rob) (find : conn.strms strm.streamId = some strm)
    (hid : strm.streamId = 0)
    (h : connEmitPendingStream0Data fuel conn strm rx = (.ok strm', conn')) :
    conn'.strms strm.streamId = some strm' ∧ ∃ evs, conn'.log = conn.log ++ evs ∧
    Emitted0 top w rx strm strm' evs := by
  induction fuel generalizing conn strm rx with
  | zero => cases h
  | succ fuel ih =>
    unfold connEmitPendingStream0Data at h
    by_cases hrx : rx < strmRxOffset strm
    · obtain ⟨k, rob', hk, hle, hdata, hpop, hrob', hgap, -⟩ := hrob.dataAt hrx
      have hslice : (List.range k).map (fun i => w (rx + i)) = slice w rx (rx + k) := by
        simp [slice]
      rw [hslice] at hdata
      have hlen : (slice w rx (rx + k)).length = k := by simp
      rw [hdata] at h
      dsimp only at h
      rw [hlen, if_neg (Nat.ne_of_gt hk)] at h
      rcases andThen_cases h with ⟨e, -, he⟩ | ⟨_, conn₁, hcall, h⟩
      · cases he
      obtain rfl := connCallRecvStream0Data_tell hcall
      obtain ⟨strm₁, fcStrms, heq, htx, hsame, -⟩ := connExtendMaxStreamOffset_cases
        (conn.tell (.recvStream0Data (slice w rx (rx + k))))
        (strm.setUnsentMaxRxOffset (strm.unsentMaxRxOffset + k)) k
      have hcredit : strm.unsentMaxRxOffset + 2 * k ≤ maxVarint →
        strm₁.unsentMaxRxOffset = strm.unsentMaxRxOffset + 2 * k := by
        intro hle
        have hext := connExtendMaxStreamOffset_unsent
          (conn.tell (.recvStream0Data (slice w rx (rx + k))))
          (strm.setUnsentMaxRxOffset (strm.unsentMaxRxOffset + k)) k (by
            show strm.unsentMaxRxOffset + k + k ≤ maxVarint
            omega)
        rw [heq] at hext
        rw [hext]
        show strm.unsentMaxRxOffset + k + k = _
        omega
      have hrob₁ : strm₁.rob = strm.rob := hsame.rob
      have hid₁ : strm₁.streamId = strm.streamId := htx.streamId
      rw [heq] at h
      dsimp only at h
      rw [hrob₁, hpop] at h
      dsimp only at h
      have hfirst : strmRxOffset (strm₁.setRob rob') = strmRxOffset strm := by
        show robFirstGapOffset rob' = robFirstGapOffset strm.rob
        rw [robFirstGapOffset, robFirstGapOffset, hgap]
      have hrob₂ : RobUpTo top w (rx + k) (strm₁.setRob rob').rob := hrob'
      obtain ⟨hfind, evs, hlog, hem⟩ :=
        ih hrob₂ (setStrm_find _ (strm₁.setRob rob')) (hid₁.trans hid) h
      rw [Strm.setRob_streamId, hid₁] at hfind
      have hmid : rx + k ≤ strmRxOffset strm := hle
      refine ⟨hfind, .recvStream0Data (slice w rx (rx + k)) :: evs, ?_, ?_, hem.gap.trans hgap,
        hem.streamId.trans hid₁,
        hem.shutRd.trans hsame.shutRd, hem.stopSending.trans (hsame.zero hid), ?_, fun hc => ?_⟩
      · rw [hlog]
        exact List.append_assoc conn.log [_] evs
      · exact hfirst ▸ hem.rob
      · have hdata' := hem.data
        rw [hfirst] at hdata'
        rw [← slice_append w (Nat.le_add_right rx k) hmid, ← hdata']
        rfl
      · have hle' : strm.unsentMaxRxOffset + 2 * (strmRxOffset strm - rx) ≤ maxVarint :=
          hc.resolve_left (Nat.ne_of_lt hrx)
        have hk' := hcredit (by omega)
        have hrest := hem.credit
        rw [hfirst] at hrest
        have hrest := hrest (.inr (by
          show strm₁.unsentMaxRxOffset + _ ≤ _
          omega))
        rw [hrest]
        show strm₁.unsentMaxRxOffset + _ = _
        omega
    · have heq : rx = strmRxOffset strm := Nat.le_antisymm hrob.le_firstGap (Nat.le_of_not_lt hrx)
      rw [hrob.dataAt_gap heq] at h
      dsimp only at h
      rw [List.length_nil, if_pos rfl, if_pos heq] at h
      obtain ⟨hs, rfl⟩ := Prod.mk.inj h
      obtain rfl := Except.ok.inj hs
      refine ⟨find, [], (List.append_nil _).symm, heq ▸ hrob, rfl, rfl, rfl, rfl, ?_, fun _ => ?_⟩
      · rw [heq, slice_self]
        rfl
      · rw [← heq, Nat.sub_self]
        rfl

/-- Where the emission loop fails and the connection goes on, the application refused some of the bytes. -/
theorem connEmitPendingStream0Data_refused {top : Nat} {w : Nat → UInt8} (fuel : Nat) {rx : Nat}
    {e : Err}
    (hrob : RobUpTo top w rx strm.rob)
    (h : connEmitPendingStream0Data fuel conn strm rx = (.error e, conn')) :
    e.isFatal = true ∨ ∃ evs data, 0 < data.length ∧
    (stream0Data evs).length + data.length ≤ strmRxOffset strm - rx ∧
      conn.callbacks.reply (conn.log ++ evs) (.recvStream0Data data) ≠ none := by
  induction fuel generalizing conn strm rx with
  | zero =>
    obtain ⟨he, -⟩ := Prod.mk.inj h
    obtain rfl := Except.error.inj he
    exact .inl rfl
  | succ fuel ih =>
    unfold connEmitPendingStream0Data at h
    by_cases hrx : rx < strmRxOffset strm
    · obtain ⟨k, rob', hk, hle, hdata, hpop, hrob', hgap, -⟩ := hrob.dataAt hrx
      have hle : rx + k ≤ strmRxOffset strm := hle
      have hslice : (List.range k).map (fun i => w (rx + i)) = slice w rx (rx + k) := by
        simp [slice]
      have hlen : (slice w rx (rx + k)).length = k := by simp
      rw [hdata, hslice] at h
      dsimp only at h
      rw [hlen, if_neg (Nat.ne_of_gt hk)] at h
      rcases andThen_cases h with ⟨e', hcall, he⟩ | ⟨_, conn₁, hcall, h⟩
      · refine .inr ⟨[], slice w rx (rx + k), Nat.lt_of_lt_of_eq hk hlen.symm, ?_, fun hnone => ?_⟩
        · show 0 + (slice w rx (rx + k)).length ≤ _
          omega
        · rw [List.append_nil] at hnone
          unfold connCallRecvStream0Data at hcall
          dsimp only at hcall
          rw [hnone] at hcall
          cases hcall
      obtain rfl := connCallRecvStream0Data_tell hcall
      obtain ⟨strm₁, fcStrms, heq, -, hsame, -⟩ := connExtendMaxStreamOffset_cases
        (conn.tell (.recvStream0Data (slice w rx (rx + k))))
        (strm.setUnsentMaxRxOffset (strm.unsentMaxRxOffset + k)) k
      have hrob₁ : strm₁.rob = strm.rob := hsame.rob
      rw [heq] at h
      dsimp only at h
      rw [hrob₁, hpop] at h
      dsimp only at h
      have hfirst : strmRxOffset (strm₁.setRob rob') = strmRxOffset strm := by
        show robFirstGapOffset rob' = robFirstGapOffset strm.rob
        rw [robFirstGapOffset, robFirstGapOffset, hgap]
      have hrob₂ : RobUpTo top w (rx + k) (strm₁.setRob rob').rob := hrob'
      refine (ih hrob₂ h).imp_right ?_
      rintro ⟨evs, data, hpos, hroom, hreply⟩
      rw [hfirst] at hroom
      refine ⟨.recvStream0Data (slice w rx (rx + k)) :: evs, data, hpos, ?_, fun hnone => hreply ?_⟩
      · show (slice w rx (rx + k) ++ stream0Data evs).length + data.length ≤ _
        rw [List.length_append, hlen]
        omega
      · show conn.callbacks.reply ((conn.log ++ [_]) ++ evs) _ = none
        rw [List.append_assoc]
        exact hnone
    · have heq : rx = strmRxOffset strm := Nat.le_antisymm hrob.le_firstGap (Nat.le_of_not_lt hrx)
      rw [hrob.dataAt_gap heq] at h
      dsimp only at h
      rw [List.length_nil, if_pos rfl, if_pos heq] at h
      cases h

/-- What an accepted frame does to stream 0; `base` is the credit it gives besides that of the emission loop. -/
structure Took0 (top : Nat) (w : Nat → UInt8) (base : Nat) (fr : StreamFrame) (strm strm' : Strm)
    (evs : List Event) : Prop where
  rob : RobUpTo top w (strmRxOffset strm') strm'.rob
  gap : ∀ n, InGap strm'.rob.gap n ↔ InGap strm.rob.gap n ∧ ¬(fr.offset ≤ n ∧ n < fr.endOffset)
  streamId : strm'.streamId = strm.streamId
  shutRd : strm'.shutRd = strm.shutRd
  stopSending : strm'.stopSending = strm.stopSending
  data : stream0Data evs = slice w (strmRxOffset strm) (strmRxOffset strm')
  advance : strmRxOffset strm' = strmRxOffset strm + directBytes strm fr + releasedBytes strm fr
  credit : releasedBytes strm fr = 0 ∨
    strm.unsentMaxRxOffset + base + 2 * releasedBytes strm fr ≤ maxVarint →
    strm'.unsentMaxRxOffset = strm.unsentMaxRxOffset + base + 2 * releasedBytes strm fr

section
variable {top base : Nat} {w w' : Nat → UInt8} {fr : StreamFrame} {evs : List Event}

theorem directBytes_of_old (hle : fr.endOffset ≤ strmRxOffset strm) : directBytes strm fr = 0 := by
  unfold directBytes
  split
  · exact Nat.sub_eq_zero_of_le hle
  · rfl

/-- Behind the frame the buffer is as before. -/
theorem RobUpTo.cut (h : RobUpTo top w (strmRxOffset strm) strm.rob) (hw : Writes0 w w' strm fr)
    (hle : strmRxOffset strm ≤ fr.endOffset) (htop : fr.endOffset ≤ top) :
    RobUpTo top w' fr.endOffset (robRemovePrefix strm.rob fr.endOffset) :=
  (h.removePrefix hle htop).1.congr fun n hn _ =>
    hw.old n (.inl fun hc => Nat.not_lt_of_le hn hc.2)

/-- The frame brings nothing behind the first gap. -/
theorem Took0.old (hrob : RobUpTo top w (strmRxOffset strm) strm.rob)
    (hle : fr.endOffset ≤ strmRxOffset strm) (hw : Writes0 w w' strm fr)
    (hsame : SameRx0 strm strm') (hcredit : SameCredit0 strm strm') (hevs : stream0Data evs = []) :
    Took0 top w' 0 fr strm strm' evs := by
  have hdirect : directBytes strm fr = 0 := directBytes_of_old hle
  have hreleased : releasedBytes strm fr = 0 := if_pos hdirect
  have hrx : strmRxOffset strm' = strmRxOffset strm := by rw [strmRxOffset, strmRxOffset, hsame.rob]
  refine ⟨?_, fun n => ?_, hsame.streamId, hsame.shutRd, hsame.stopSending, ?_, ?_, fun _ => ?_⟩
  · rw [hrx, hsame.rob]
    refine hrob.congr fun n hn _ => hw.old n (.inl fun hc => ?_)
    exact Nat.not_lt_of_le hn (Nat.lt_of_lt_of_le hc.2 hle)
  · rw [hsame.rob]
    refine ⟨fun hn => ⟨hn, fun hc => ?_⟩, And.left⟩
    exact hrob.not_inGap_of_lt (Nat.lt_of_lt_of_le hc.2 hle) hn
  · rw [hrx, slice_self]
    exact hevs
  · rw [hrx, hdirect, hreleased, Nat.add_zero]
  · rw [hreleased]
    exact hcredit

/-- The frame is behind the first gap. -/
theorem Took0.buffered (hrob : RobUpTo top w (strmRxOffset strm) strm.rob)
    (hw : Writes0 w w' strm fr) (hout : strmRxOffset strm < fr.offset) (htop : fr.endOffset ≤ top)
    (hpush : strm'.rob = robPush strm.rob fr.offset fr.data)
    (hid : strm'.streamId = strm.streamId) (hshut : strm'.shutRd = strm.shutRd)
    (hstop : strm'.stopSending = strm.stopSending)
    (hcredit : SameCredit0 strm strm') : Took0 top w' 0 fr strm strm' [] := by
  have hdirect : directBytes strm fr = 0 := if_neg (Nat.not_le_of_lt hout)
  have hreleased : releasedBytes strm fr = 0 := if_pos hdirect
  have hrob₁ : RobUpTo top w' (strmRxOffset strm) strm.rob :=
    hrob.congr fun n _ hn => hw.old n (.inr ⟨hout, hn⟩)
  obtain ⟨hrob', hgap⟩ := hrob₁.push htop fun i hi hg =>
    hw.new i hi (Nat.le_trans (Nat.le_of_lt hout) (Nat.le_add_right _ _)) (.inr hg)
  have hrx : strmRxOffset strm' = strmRxOffset strm := by
    rw [strmRxOffset, hpush]
    refine hrob'.gaps.firstGap_eq ((hgap _).mpr ⟨hrob.inGap_firstGap, fun hc => ?_⟩) fun m hm hg =>
      ?_
    · exact Nat.not_le_of_lt hout hc.1
    · exact hrob.not_inGap_of_lt hm ((hgap m).mp hg).1
  refine ⟨?_, fun n => ?_, hid, hshut, hstop, ?_, ?_, fun _ => ?_⟩
  · rw [hrx, hpush]
    exact hrob'
  · rw [hpush]
    exact hgap n
  · rw [hrx, slice_self]
    rfl
  · rw [hrx, hdirect, hreleased, Nat.add_zero]
  · rw [hreleased]
    exact hcredit

/-- The frame continues what was delivered: its new bytes are passed on, and the buffer behind them. -/
theorem Took0.inOrder {strm₁ : Strm} (hrob : RobUpTo top w (strmRxOffset strm) strm.rob)
    (hw : Writes0 w w' strm fr)
    (hin : fr.offset ≤ strmRxOffset strm) (hlt : strmRxOffset strm < fr.endOffset)
    (htop : fr.endOffset ≤ top)
    (hcut : strm₁.rob = robRemovePrefix strm.rob fr.endOffset)
    (hid : strm₁.streamId = strm.streamId) (hshut : strm₁.shutRd = strm.shutRd)
    (hstop : strm₁.stopSending = strm.stopSending)
    (hbase : strm₁.unsentMaxRxOffset = strm.unsentMaxRxOffset + base)
    (hem : Emitted0 top w' fr.endOffset strm₁ strm' evs) :
    Took0 top w' base fr strm strm'
    (.recvStream0Data (fr.data.drop (strmRxOffset strm - fr.offset)) :: evs) := by
  obtain ⟨hrob₁, hgap₁⟩ := hrob.removePrefix (Nat.le_of_lt hlt) htop
  rw [← hcut] at hrob₁ hgap₁
  have hdirect : directBytes strm fr = fr.endOffset - strmRxOffset strm := if_pos hin
  have hpos : directBytes strm fr ≠ 0 := by
    rw [hdirect]
    exact Nat.sub_ne_zero_of_lt hlt
  have hrx₁ : robFirstGapOffset strm₁.rob = strmRxOffset strm' := by
    rw [strmRxOffset, robFirstGapOffset, robFirstGapOffset, hem.gap]
  have hge : fr.endOffset ≤ strmRxOffset strm' := hrx₁ ▸ hrob₁.le_firstGap
  have hreleased : releasedBytes strm fr = strmRxOffset strm' - fr.endOffset := by
    rw [← hrx₁, hcut]
    exact if_neg hpos
  refine ⟨?_, fun n => ?_, hem.streamId.trans hid, hem.shutRd.trans hshut,
    hem.stopSending.trans hstop, ?_, ?_, fun hc => ?_⟩
  · have hrob' := hem.rob
    rwa [strmRxOffset, hrx₁] at hrob'
  · rw [hem.gap, hgap₁]
    refine and_congr_right fun hn => ?_
    have hle : strmRxOffset strm ≤ n := hrob.gaps.firstGap_le hn
    omega
  · have hdata := hem.data
    rw [strmRxOffset, hrx₁] at hdata
    have hslice : fr.data.drop (strmRxOffset strm - fr.offset) =
      slice w' (strmRxOffset strm) fr.endOffset :=
      list_drop_eq_slice w' hin fun i hi hle => hw.new i hi hle (.inl hin)
    rw [← slice_append w' (Nat.le_of_lt hlt) hge, ← hdata, ← hslice]
    rfl
  · rw [hdirect, hreleased]
    omega
  · have hcredit := hem.credit
    rw [strmRxOffset, hrx₁, hbase] at hcredit
    rw [hreleased] at hc ⊢
    exact hcredit (hc.imp_left fun hz => by omega)

/-! ### The two functions that receive them -/

/-- The bytes of the frame that come next, where it continues what was delivered. -/
def newBytes (strm : Strm) (fr : StreamFrame) : List UInt8 :=
    fr.data.drop (strmRxOffset strm - fr.offset)

/-- The stream whose buffer starts at the end of the frame. -/
def cutFrame (strm : Strm) (fr : StreamFrame) : Strm :=
  (strm.setLastRxOffset (max strm.lastRxOffset fr.endOffset)).setRob
  (robRemovePrefix strm.rob fr.endOffset)

/-- The stream with the frame in its buffer. -/
def pushFrame (strm : Strm) (fr : StreamFrame) : Strm :=
  strmRecvReordering (strm.setLastRxOffset (max strm.lastRxOffset fr.endOffset)) fr

/-- The checks of `conn_recv_handshake_pkt`. -/
def handshakePasses (type : PktType) (strm : Strm) (fr : StreamFrame) : Bool :=
  !(decide (type = .initial) && decide (fr.offset ≠ 0)) && !fr.fin && decide
    (fr.endOffset ≤ strm.maxRxOffset)

/-- What `conn_recv_handshake_pkt` does with bytes that come next. -/
def handshakeDeliver (conn : Conn) (strm0 : Strm) (handshakeFailed : Bool) (data : List UInt8)
    (rxOffset : Nat) : Result Bool :=
  let (res, conn) := connCallRecvStream0Data (conn.setStrm strm0) data
  let strm0' := strm0.setUnsentMaxRxOffset (strm0.unsentMaxRxOffset + data.length)
  match res with
  | .error .tlsHandshake => (.ok true, conn.setStrm strm0')
  | .error e => (.error e, conn)
  | .ok _ =>
    let conn := conn.setStrm strm0'
    if handshakeFailed then (.ok handshakeFailed, conn)
    else (connEmitPendingStream0Data (emitFuel strm0'.rob) conn strm0' rxOffset).andThen fun _ conn => (.ok handshakeFailed, conn)

/-- What `conn_recv_stream` does with bytes of stream 0 that come next. -/
def stream0Deliver (conn : Conn) (strm0 : Strm) (data : List UInt8) (rxOffset : Nat) :
    Result Unit :=
  ((connCallRecvStream0Data (conn.setStrm strm0) data).andThen fun _ conn =>
    connEmitPendingStream0Data (emitFuel strm0.rob) conn strm0 rxOffset).andThen fun strm conn =>
  ngtcp2ConnCloseStreamIfShutRdwr conn strm 0

theorem newBytes_length (hin : fr.offset ≤ strmRxOffset strm)
    (hlt : strmRxOffset strm < fr.endOffset) :
    (newBytes strm fr).length = directBytes strm fr := by
  unfold newBytes directBytes
  rw [if_pos hin, List.length_drop]
  unfold StreamFrame.endOffset at hlt ⊢
  omega

theorem newBytes_end (hin : fr.offset ≤ strmRxOffset strm)
    (hlt : strmRxOffset strm < fr.endOffset) :
    strmRxOffset strm + (newBytes strm fr).length = fr.endOffset := by
  rw [newBytes_length hin hlt, directBytes, if_pos hin]
  omega

/-- A frame of stream 0 in a handshake packet is passed over, goes into the buffer, or is delivered. -/
theorem connRecvHandshakeStream_cases {type : PktType} {failed : Bool} {x : Except Err Bool}
    (h0 : conn.strms 0 = some strm0)
    (hid : strm0.streamId = 0) (hfr : fr.streamId = 0)
    (h : connRecvHandshakeStream conn type failed fr = (x, conn')) :
    Quiet0 SameCredit0 strm0 conn conn' ∧ (x = .ok false → fr.endOffset ≤ strmRxOffset strm0) ∨
    strmRxOffset strm0 < fr.offset ∧ conn'.strms 0 = some (pushFrame strm0 fr) ∧
    conn'.log = conn.log ∨
    fr.offset ≤ strmRxOffset strm0 ∧ strmRxOffset strm0 < fr.endOffset ∧
    handshakePasses type strm0 fr = true ∧
      handshakeDeliver conn (cutFrame strm0 fr) failed (newBytes strm0 fr) fr.endOffset =
      (x, conn') := by
  have hseen : Quiet0 SameCredit0 strm0 conn
    (conn.setStrm (strm0.setLastRxOffset (max strm0.lastRxOffset fr.endOffset))) :=
    ⟨⟨_, if_pos hid.symm, by constructor <;> rfl, rfl⟩, [], (List.append_nil _).symm, rfl⟩
  unfold connRecvHandshakeStream at h
  rw [if_neg (not_not_intro hfr)] at h
  split at h
  · obtain ⟨rfl, rfl⟩ := Prod.mk.inj h
    exact .inl ⟨.refl h0 rfl, by simp⟩
  split at h
  · obtain ⟨rfl, rfl⟩ := Prod.mk.inj h
    exact .inl ⟨.refl h0 rfl, by simp⟩
  next hinitial =>
  split at h
  · obtain ⟨rfl, rfl⟩ := Prod.mk.inj h
    exact .inl ⟨.refl h0 rfl, by simp⟩
  next hfin =>
  rw [h0] at h
  dsimp only at h
  by_cases hold : fr.endOffset ≤ strmRxOffset strm0
  · rw [if_pos hold] at h
    obtain ⟨-, rfl⟩ := Prod.mk.inj h
    exact .inl ⟨.refl h0 rfl, fun _ => hold⟩
  rw [if_neg hold] at h
  split at h
  · obtain ⟨rfl, rfl⟩ := Prod.mk.inj h
    exact .inl ⟨hseen, by simp⟩
  next hflow =>
  by_cases hin : fr.offset ≤ strmRxOffset strm0
  · rw [if_pos hin] at h
    have hend := newBytes_end hin (Nat.lt_of_not_le hold)
    unfold newBytes at hend
    rw [hend] at h
    have hpasses : handshakePasses type strm0 fr = true := by
      have hle : fr.endOffset ≤ strm0.maxRxOffset := Nat.le_of_not_lt hflow
      unfold handshakePasses
      simp only [Bool.and_eq_true, Bool.not_eq_true', decide_eq_true_eq]
      refine ⟨⟨?_, Bool.eq_false_iff.mpr hfin⟩, hle⟩
      rw [← Bool.decide_and]
      exact decide_eq_false hinitial
    refine .inr (.inr ⟨hin, Nat.lt_of_not_le hold, hpasses, ?_⟩)
    have hset : (conn.setStrm (strm0.setLastRxOffset (max strm0.lastRxOffset fr.endOffset))).setStrm
      (cutFrame strm0 fr) =
        conn.setStrm (cutFrame strm0 fr) := Conn.setStrm_setStrm conn rfl
    unfold handshakeDeliver
    rw [← hset]
    exact h
  · rw [if_neg hin] at h
    split at h
    · next hfailed =>
      obtain ⟨rfl, rfl⟩ := Prod.mk.inj h
      refine .inl ⟨hseen, fun hx => ?_⟩
      rw [hfailed] at hx
      cases Except.ok.inj hx
    · obtain ⟨-, rfl⟩ := Prod.mk.inj h
      exact .inr (.inl ⟨Nat.lt_of_not_le hin, if_pos hid.symm, rfl⟩)

/-- So is a frame that `conn_recv_stream` gets. -/
theorem connRecvStream_cases0 {x : Except Err Unit} (h0 : conn.strms 0 = some strm0)
    (hid : strm0.streamId = 0)
    (hopen : strm0.shutRd = false) (hgoes : strm0.stopSending = false) (hfr : fr.streamId = 0)
    (h : connRecvStream conn fr = (x, conn')) :
    Quiet0 SameCredit0 strm0 conn conn' ∧ (x = .ok () → fr.endOffset ≤ strmRxOffset strm0) ∨
    strmRxOffset strm0 < fr.offset ∧ conn'.strms 0 = some (pushFrame strm0 fr) ∧
    conn'.log = conn.log ∨
    fr.offset ≤ strmRxOffset strm0 ∧ strmRxOffset strm0 < fr.endOffset ∧
    connCheckStreamFrame conn fr = none ∧
      fr.endOffset ≤ strm0.maxRxOffset ∧
      stream0Deliver conn (cutFrame strm0 fr) (newBytes strm0 fr) fr.endOffset = (x, conn') := by
  unfold connRecvStream at h
  split at h
  · obtain ⟨rfl, rfl⟩ := Prod.mk.inj h
    exact .inl ⟨.refl h0 rfl, by simp⟩
  next hcheck =>
  have hfin : fr.fin = false := by
    cases hfin : fr.fin with
    | false => rfl
    | true =>
      unfold connCheckStreamFrame at hcheck
      rw [if_pos ⟨hfr, hfin⟩] at hcheck
      cases hcheck
  rw [connFindOrOpenStream_find (hfr ▸ h0), andThen_ok] at h
  dsimp only at h
  rcases andThen_cases h with ⟨e, hcharge, rfl⟩ | ⟨_, conn₁, hcharge, hbranch⟩
  · obtain rfl : conn' = conn := by
      rcases connRecvStreamCharge_cases hcharge with ⟨rfl, -⟩ | ⟨-, hne, -⟩
      · rfl
      · exact absurd hid hne
    exact .inl ⟨.refl h0 rfl, by simp⟩
  have hflow : fr.endOffset ≤ strm0.maxRxOffset := by
    refine Nat.le_of_not_lt fun hlt => ?_
    unfold connRecvStreamCharge at hcharge
    rw [if_pos hlt] at hcharge
    cases hcharge
  obtain rfl : conn₁ = conn := by
    rcases connRecvStreamCharge_cases hcharge with ⟨rfl, -⟩ | ⟨-, hne, -⟩
    · rfl
    · exact absurd hid hne
  clear h
  rw [hfin, if_neg Bool.false_ne_true] at hbranch
  unfold connRecvStreamNoFin at hbranch
  rw [hopen] at hbranch
  rw [if_neg (fun hc => Bool.false_ne_true hc.1)] at hbranch
  dsimp only at hbranch
  rw [strmRxOffset_setLastRxOffset] at hbranch
  by_cases hold : fr.endOffset ≤ strmRxOffset strm0
  · rw [if_pos hold] at hbranch
    obtain ⟨-, rfl⟩ := Prod.mk.inj hbranch
    refine .inl ⟨⟨⟨_, if_pos hid.symm, by constructor <;> rfl, rfl⟩, [], (List.append_nil _).symm,
      rfl⟩, fun _ => hold⟩
  rw [if_neg hold, Strm.setLastRxOffset_stopSending, hgoes, if_neg Bool.false_ne_true] at hbranch
  unfold connRecvStreamDeliver at hbranch
  by_cases hin : fr.offset ≤ strmRxOffset strm0
  · have hend := newBytes_end hin (Nat.lt_of_not_le hold)
    unfold newBytes at hend
    rw [if_pos hin] at hbranch
    dsimp only at hbranch
    rw [hend] at hbranch
    have hzero : ((strm0.setLastRxOffset (max strm0.lastRxOffset fr.endOffset)).setRob
        (robRemovePrefix (strm0.setLastRxOffset (max strm0.lastRxOffset fr.endOffset)).rob fr.endOffset)).streamId = 0 := hid
    have hset : (conn₁.setStrm (strm0.setLastRxOffset (max strm0.lastRxOffset fr.endOffset))).setStrm (cutFrame strm0 fr) =
        conn₁.setStrm (cutFrame strm0 fr) := Conn.setStrm_setStrm conn₁ rfl
    rw [if_pos hzero] at hbranch
    refine .inr (.inr ⟨hin, Nat.lt_of_not_le hold, hcheck, hflow, ?_⟩)
    unfold stream0Deliver
    rw [← hset]
    exact hbranch
  · rw [if_neg hin, andThen_ok] at hbranch
    have hnot : ¬strmShutRdwr (pushFrame strm0 fr) = true := by
      unfold strmShutRdwr
      have hshut : (pushFrame strm0 fr).shutRd = false := hopen
      rw [hshut]
      exact Bool.false_ne_true
    unfold ngtcp2ConnCloseStreamIfShutRdwr at hbranch
    unfold pushFrame at hnot
    rw [if_neg hnot] at hbranch
    obtain ⟨-, rfl⟩ := Prod.mk.inj hbranch
    exact .inr (.inl ⟨Nat.lt_of_not_le hin, if_pos hid.symm, rfl⟩)

/-- A stream that the emission loop leaves open is not closed behind it. -/
theorem Emitted0.close {rx : Nat} {x : Except Err Unit} (h : Emitted0 top w rx strm strm' evs)
    (hopen : strm.shutRd = false)
    (hclose : ngtcp2ConnCloseStreamIfShutRdwr conn strm' 0 = (x, conn')) :
    x = .ok () ∧ conn' = conn := by
  have hnot : ¬strmShutRdwr strm' = true := by
    unfold strmShutRdwr
    rw [h.shutRd, hopen]
    exact Bool.false_ne_true
  unfold ngtcp2ConnCloseStreamIfShutRdwr at hclose
  rw [if_neg hnot] at hclose
  obtain ⟨rfl, rfl⟩ := Prod.mk.inj hclose
  exact ⟨rfl, rfl⟩

/-- `conn_recv_handshake_pkt` gives credit for the bytes that come next besides that of the emission loop. -/
theorem connRecvHandshakeStream_took0 {type : PktType} (h0 : conn.strms 0 = some strm0)
    (hid : strm0.streamId = 0)
    (hrob : RobUpTo top w (strmRxOffset strm0) strm0.rob) (hw : Writes0 w w' strm0 fr)
    (htop : fr.endOffset ≤ top)
    (hfr : fr.streamId = 0) (h : connRecvHandshakeStream conn type false fr = (.ok false, conn')) :
    ∃ strm' evs, conn'.strms 0 = some strm' ∧ conn'.log = conn.log ++ evs ∧
      Took0 top w' (directBytes strm0 fr) fr strm0 strm' evs := by
  rcases connRecvHandshakeStream_cases h0 hid hfr h with
    ⟨⟨⟨strm', hfind, hsame, hcredit⟩, evs, hlog, hevs⟩, hold⟩ |
    ⟨hout, hfind, hlog⟩ | ⟨hin, hlt, -, h⟩
  · have hold := hold rfl
    rw [directBytes_of_old hold]
    exact ⟨strm', evs, hfind, hlog, .old hrob hold hw hsame hcredit hevs⟩
  · have hdirect : directBytes strm0 fr = 0 := if_neg (Nat.not_le_of_lt hout)
    rw [hdirect]
    exact ⟨_, [], hfind, hlog.trans (List.append_nil _).symm,
      .buffered hrob hw hout htop rfl rfl rfl rfl rfl⟩
  · unfold handshakeDeliver at h
    generalize hcall : connCallRecvStream0Data (conn.setStrm (cutFrame strm0 fr))
      (newBytes strm0 fr) = y at h
    obtain ⟨res, conn₁⟩ := y
    have htold := connCallRecvStream0Data_tell hcall
    dsimp only at h
    cases res with
    | error e => cases e <;> cases h
    | ok _ =>
      dsimp only at h
      rw [if_neg Bool.false_ne_true, newBytes_length hin hlt] at h
      rcases andThen_cases h with ⟨e, -, he⟩ | ⟨strm', conn₂, hemit, h⟩
      · cases he
      obtain ⟨-, rfl⟩ := Prod.mk.inj h
      have hrob₁ : RobUpTo top w' fr.endOffset
          ((cutFrame strm0 fr).setUnsentMaxRxOffset ((cutFrame strm0 fr).unsentMaxRxOffset + directBytes strm0 fr)).rob :=
        hrob.cut hw (Nat.le_of_lt hlt) htop
      obtain ⟨hfind, evs, hlog, hem⟩ :=
        connEmitPendingStream0Data_spec _ hrob₁ (setStrm_find _ _) hid hemit
      have hzero : (cutFrame strm0 fr).streamId = 0 := hid
      refine ⟨strm', .recvStream0Data (newBytes strm0 fr) :: evs, hzero ▸ hfind, ?_, ?_⟩
      · rw [hlog, htold]
        exact List.append_assoc conn.log [_] evs
      · refine .inOrder hrob hw hin hlt htop ?_ ?_ ?_ ?_ ?_ hem <;> rfl

/-- `conn_recv_stream` gives no credit but that of the emission loop. -/
theorem connRecvStream_took0 (h0 : conn.strms 0 = some strm0) (hid : strm0.streamId = 0)
    (hopen : strm0.shutRd = false)
    (hgoes : strm0.stopSending = false) (hrob : RobUpTo top w (strmRxOffset strm0) strm0.rob)
    (hw : Writes0 w w' strm0 fr)
    (htop : fr.endOffset ≤ top) (hfr : fr.streamId = 0)
    (h : connRecvStream conn fr = (.ok (), conn')) :
    ∃ strm' evs, conn'.strms 0 = some strm' ∧ conn'.log = conn.log ++ evs ∧
    Took0 top w' 0 fr strm0 strm' evs := by
  rcases connRecvStream_cases0 h0 hid hopen hgoes hfr h with
    ⟨⟨⟨strm', hfind, hsame, hcredit⟩, evs, hlog, hevs⟩, hold⟩ |
    ⟨hout, hfind, hlog⟩ | ⟨hin, hlt, -, -, h⟩
  · exact ⟨strm', evs, hfind, hlog, .old hrob (hold rfl) hw hsame hcredit hevs⟩
  · exact ⟨_, [], hfind, hlog.trans (List.append_nil _).symm,
      .buffered hrob hw hout htop rfl rfl rfl rfl rfl⟩
  · rcases andThen_cases h with ⟨e, -, he⟩ | ⟨strm', conn₂, hdeliver, hclose⟩
    · cases he
    rcases andThen_cases hdeliver with ⟨e, -, he⟩ | ⟨_, conn₁, hcall, hemit⟩
    · cases he
    have htold := connCallRecvStream0Data_tell hcall
    have hfind₁ : conn₁.strms (cutFrame strm0 fr).streamId = some (cutFrame strm0 fr) := by
      rw [htold]
      exact setStrm_find _ _
    have hrob₁ : RobUpTo top w' fr.endOffset (cutFrame strm0 fr).rob :=
      hrob.cut hw (Nat.le_of_lt hlt) htop
    obtain ⟨hfind, evs, hlog, hem⟩ := connEmitPendingStream0Data_spec _ hrob₁ hfind₁ hid hemit
    obtain ⟨-, rfl⟩ := hem.close hopen hclose
    have hzero : (cutFrame strm0 fr).streamId = 0 := hid
    refine ⟨strm', .recvStream0Data (newBytes strm0 fr) :: evs, hzero ▸ hfind, ?_, ?_⟩
    · rw [hlog, htold]
      exact List.append_assoc conn.log [_] evs
    · have hcut : (cutFrame strm0 fr).rob = robRemovePrefix strm0.rob fr.endOffset := rfl
      exact .inOrder hrob hw hin hlt htop hcut rfl rfl rfl rfl hem

end

end

end Ngtcp2
