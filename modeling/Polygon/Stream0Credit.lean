import Polygon.Stream0Order

/-!
# The credit of stream 0

`conn_recv_handshake_pkt` gives credit for the bytes that come next, the emission loop gives it twice
for every byte it takes out of the buffer, and `conn_recv_stream` gives none of its own. The credit
is the number of delivered bytes where these come out even.
-/
namespace Ngtcp2

open Ranges

/-- The application accepts the next `n` bytes of stream 0. -/
def Accepts0 (conn : Conn) (n : Nat) : Prop :=
  ∀ evs data, 0 < data.length → (stream0Data evs).length + data.length ≤ n →
    conn.callbacks.reply (conn.log ++ evs) (.recvStream0Data data) = none

/-- A frame in a handshake packet lets no byte out of the buffer, or the TLS handshake fails. -/
def HandshakeEven (conn : Conn) (strm0 : Strm) (type : PktType) (handshakeFailed : Bool)
    (fr : StreamFrame) : Prop :=
  handshakePasses type strm0 fr = true → directBytes strm0 fr ≠ 0 →
    conn.callbacks.reply conn.log (.recvStream0Data (newBytes strm0 fr)) = some .tlsHandshake ∨
    conn.callbacks.reply conn.log (.recvStream0Data (newBytes strm0 fr)) = none ∧
      (handshakeFailed = true ∨ releasedBytes strm0 fr = 0)

/-- A frame in another packet lets as many bytes out of the buffer as it brings new ones in front of them. -/
def StreamEven (conn : Conn) (strm0 : Strm) (fr : StreamFrame) : Prop :=
  connCheckStreamFrame conn fr = none → fr.endOffset ≤ strm0.maxRxOffset →
    directBytes strm0 fr ≠ 0 →
    directBytes strm0 fr = releasedBytes strm0 fr ∧
      Accepts0 conn (directBytes strm0 fr + releasedBytes strm0 fr) ∧
      strm0.unsentMaxRxOffset + 2 * releasedBytes strm0 fr ≤ maxVarint

/-- The step gives as much credit on stream 0 as it delivers bytes of it. -/
def Op.Even0 (conn : Conn) (strm0 : Strm) : Op → Prop
  | recvHandshakeFrame type handshakeFailed (.stream fr) =>
    fr.streamId = 0 → HandshakeEven conn strm0 type handshakeFailed fr
  | recvDelayedHandshakeFrame _ (.stream fr) => fr.streamId = 0 → StreamEven conn strm0 fr
  | recvFrame longForm (.stream fr) => fr.streamId = 0 → longForm = false → StreamEven conn strm0 fr
  | extendMaxStreamOffset streamId _ => streamId ≠ 0
  | _ => True

/-- A step whose frame of stream 0, if it has one, can be read from a packet. -/
def WireStep (ops : List Op) (conn : Conn) (op : Op) (conn' : Conn) : Prop :=
  Step ops conn op conn' ∧ op.completesRetry conn = false ∧ ∀ fr, op.stream0Frame = some fr →
    fr.WireRange

/-- Such a step that comes out even. -/
def EvenStep (ops : List Op) (conn : Conn) (op : Op) (conn' : Conn) : Prop :=
  WireStep ops conn op conn' ∧ ∀ strm0, conn.strms 0 = some strm0 → op.Even0 conn strm0

/-- Stream 0 after the events `evs`, its credit counted from `base`. -/
structure Counted0 (base : Nat) (evs : List Event) (strm0 : Strm) : Prop where
  streamId : strm0.streamId = 0
  shutRd : strm0.shutRd = false
  stopSending : strm0.stopSending = false
  rob : ∃ w rx, RobUpTo stream0Top w rx strm0.rob
  credit : strm0.unsentMaxRxOffset = base + (stream0Data evs).length

section
variable {base : Nat} {evs evs' : List Event} {conn conn' : Conn} {strm0 strm' : Strm} {fr : StreamFrame}

theorem Taken0.counted {w : List UInt8} (h : Taken0 w [] [] strm0) :
    Counted0 strm0.unsentMaxRxOffset [] strm0 :=
  ⟨h.streamId, h.shutRd, h.stopSending, ⟨_, _, h.rob⟩, rfl⟩

theorem Counted0.quiet (h : Counted0 base evs strm0)
    (hquiet : Quiet0 SameCredit0 strm0 conn conn') :
    ∃ strm' evs', conn'.strms 0 = some strm' ∧ conn'.log = conn.log ++ evs' ∧
    Counted0 base (evs ++ evs') strm' := by
  obtain ⟨⟨strm', hfind, hsame, hcredit⟩, evs', hlog, hevs⟩ := hquiet
  refine ⟨strm', evs', hfind, hlog, hsame.streamId.trans h.streamId, hsame.shutRd.trans h.shutRd,
    hsame.stopSending.trans h.stopSending, ?_, ?_⟩
  · rw [hsame.rob]
    exact h.rob
  · rw [stream0Data_append, hevs, List.append_nil]
    exact hcredit.trans h.credit

/-- The frame goes into the buffer. -/
theorem Counted0.push (h : Counted0 base evs strm0) (hwire : fr.WireRange)
    (hfind : conn'.strms 0 = some (pushFrame strm0 fr))
    (hlog : conn'.log = conn.log) :
    ∃ strm' evs', conn'.strms 0 = some strm' ∧ conn'.log = conn.log ++ evs' ∧
    Counted0 base (evs ++ evs') strm' := by
  refine ⟨_, [], hfind, hlog.trans (List.append_nil _).symm, h.streamId, h.shutRd, h.stopSending,
    ?_, ?_⟩
  · obtain ⟨w, rx, hrob⟩ := h.rob
    obtain ⟨w', hrob'⟩ := hrob.push_any hwire.le_top
    exact ⟨w', rx, hrob'⟩
  · rw [List.append_nil]
    exact h.credit

/-- The new bytes of the frame are delivered, and no others. -/
theorem Counted0.direct (h : Counted0 base evs strm0) (hin : fr.offset ≤ strmRxOffset strm0)
    (hlt : strmRxOffset strm0 < fr.endOffset)
    (hwire : fr.WireRange) (hid : strm'.streamId = strm0.streamId)
    (hshut : strm'.shutRd = strm0.shutRd)
    (hstop : strm'.stopSending = strm0.stopSending)
    (hcut : strm'.rob = robRemovePrefix strm0.rob fr.endOffset)
    (hcredit : strm'.unsentMaxRxOffset = strm0.unsentMaxRxOffset + directBytes strm0 fr) :
    Counted0 base (evs ++ [.recvStream0Data (newBytes strm0 fr)]) strm' := by
  refine ⟨hid.trans h.streamId, hshut.trans h.shutRd, hstop.trans h.stopSending, ?_, ?_⟩
  · obtain ⟨w, rx, hrob⟩ := h.rob
    rw [hcut]
    exact ⟨w, _, (hrob.removePrefix (Nat.le_trans hrob.le_firstGap (Nat.le_of_lt hlt)) hwire.le_top).1⟩
  · have hone : stream0Data [.recvStream0Data (newBytes strm0 fr)] = newBytes strm0 fr :=
      List.append_nil _
    rw [hcredit, h.credit, stream0Data_append, hone, List.length_append, newBytes_length hin hlt,
      Nat.add_assoc]

theorem directBytes_ne_zero (hin : fr.offset ≤ strmRxOffset strm0)
    (hlt : strmRxOffset strm0 < fr.endOffset) :
    directBytes strm0 fr ≠ 0 := by
  rw [directBytes, if_pos hin]
  exact Nat.sub_ne_zero_of_lt hlt

theorem releasedBytes_inOrder (hin : fr.offset ≤ strmRxOffset strm0)
    (hlt : strmRxOffset strm0 < fr.endOffset) :
    strmRxOffset (cutFrame strm0 fr) - fr.endOffset = releasedBytes strm0 fr := by
  rw [releasedBytes, if_neg (directBytes_ne_zero hin hlt)]
  rfl

/-- Bytes that are accepted leave the buffer up to its first gap. -/
theorem connEmitPendingStream0Data_accepted {top fuel rx : Nat} {w : Nat → UInt8}
    {x : Except Err Strm}
    (hrob : RobUpTo top w rx strm0.rob) (find : conn.strms strm0.streamId = some strm0)
    (hid : strm0.streamId = 0)
    (haccepts : Accepts0 conn (strmRxOffset strm0 - rx))
    (hrun : connEmitPendingStream0Data fuel conn strm0 rx = (x, conn'))
    (hx : ¬Fatal x) :
    ∃ strm' evs, x = .ok strm' ∧ conn'.strms 0 = some strm' ∧ conn'.log = conn.log ++ evs ∧
    Emitted0 top w rx strm0 strm' evs := by
  cases x with
  | error e =>
    rcases connEmitPendingStream0Data_refused fuel hrob hrun with hfatal
        | ⟨evs, data, hpos, hroom, hreply⟩
    · exact absurd ⟨e, rfl, hfatal⟩ hx
    · exact absurd (haccepts evs data hpos hroom) hreply
  | ok strm' =>
    obtain ⟨hfind, evs, hlog, hem⟩ := connEmitPendingStream0Data_spec fuel hrob find hid hrun
    exact ⟨strm', evs, rfl, hid ▸ hfind, hlog, hem⟩

/-- The emission loop took `n` bytes out of the buffer, and the credit is even behind it. -/
theorem Counted0.emit {rx n : Nat} {w : Nat → UInt8} {strm₁ : Strm} (hid : strm₁.streamId = 0)
    (hopen : strm₁.shutRd = false)
    (hgoes : strm₁.stopSending = false) (hn : strmRxOffset strm₁ - rx = n)
    (hle : rx ≤ strmRxOffset strm₁)
    (hroom : n = 0 ∨ strm₁.unsentMaxRxOffset + 2 * n ≤ maxVarint)
    (heven : strm₁.unsentMaxRxOffset + n = base + (stream0Data evs).length)
    (hem : Emitted0 stream0Top w rx strm₁ strm' evs') : Counted0 base (evs ++ evs') strm' := by
  refine ⟨hem.streamId.trans hid, hem.shutRd.trans hopen, hem.stopSending.trans hgoes,
    ⟨w, _, hem.rob⟩, ?_⟩
  have hcredit := hem.credit
  rw [hn] at hcredit
  rw [hcredit (hroom.imp_left fun hz => by omega), stream0Data_append, List.length_append, hem.data,
    slice_length, hn]
  omega

/-- A frame of a handshake packet that comes out even. -/
theorem Counted0.handshake {type : PktType} {failed : Bool} {x : Except Err Bool}
    (h : Counted0 base evs strm0)
    (h0 : conn.strms 0 = some strm0) (hfr : fr.streamId = 0) (hwire : fr.WireRange)
    (heven : HandshakeEven conn strm0 type failed fr)
    (hrun : connRecvHandshakeStream conn type failed fr = (x, conn')) (hx : ¬Fatal x) :
    ∃ strm' evs', conn'.strms 0 = some strm' ∧ conn'.log = conn.log ++ evs' ∧
    Counted0 base (evs ++ evs') strm' := by
  rcases connRecvHandshakeStream_cases h0 h.streamId hfr hrun with ⟨hquiet, -⟩ | ⟨-, hfind, hlog⟩
      | ⟨hin, hlt, hpasses, hrun⟩
  · exact h.quiet hquiet
  · exact h.push hwire hfind hlog
  have heven := heven hpasses (directBytes_ne_zero hin hlt)
  have hdirect : Counted0 base (evs ++ [.recvStream0Data (newBytes strm0 fr)])
      ((cutFrame strm0 fr).setUnsentMaxRxOffset ((cutFrame strm0 fr).unsentMaxRxOffset + directBytes strm0 fr)) := by
    apply h.direct hin hlt hwire <;> rfl
  unfold handshakeDeliver connCallRecvStream0Data at hrun
  dsimp only at hrun
  rw [newBytes_length hin hlt] at hrun
  obtain ⟨w, rx, hrob⟩ := h.rob
  have hrob₁ := (hrob.removePrefix (Nat.le_trans hrob.le_firstGap (Nat.le_of_lt hlt)) hwire.le_top).1
  have hrob₁ : RobUpTo stream0Top w fr.endOffset
    ((cutFrame strm0 fr).setUnsentMaxRxOffset ((cutFrame strm0 fr).unsentMaxRxOffset + directBytes strm0 fr)).rob := hrob₁
  have hlen : strmRxOffset
      ((cutFrame strm0 fr).setUnsentMaxRxOffset ((cutFrame strm0 fr).unsentMaxRxOffset + directBytes strm0 fr)) - fr.endOffset =
      releasedBytes strm0 fr := releasedBytes_inOrder hin hlt
  generalize (cutFrame strm0 fr).setUnsentMaxRxOffset _ = strm₁ at hrun hdirect hrob₁ hlen
  have hreply : (conn.setStrm (cutFrame strm0 fr)).callbacks.reply
    (conn.setStrm (cutFrame strm0 fr)).log
      (.recvStream0Data (newBytes strm0 fr)) = conn.callbacks.reply conn.log
      (.recvStream0Data (newBytes strm0 fr)) := rfl
  rw [hreply] at hrun
  rcases heven with htls | ⟨hnone, heven⟩
  · rw [htls] at hrun
    obtain ⟨-, rfl⟩ := Prod.mk.inj hrun
    exact ⟨_, _, if_pos hdirect.streamId.symm, rfl, hdirect⟩
  rw [hnone] at hrun
  dsimp only at hrun
  split at hrun
  · obtain ⟨-, rfl⟩ := Prod.mk.inj hrun
    exact ⟨_, _, if_pos hdirect.streamId.symm, rfl, hdirect⟩
  next hfailed =>
  rw [heven.resolve_left hfailed] at hlen
  generalize hemit : connEmitPendingStream0Data _ _ strm₁ fr.endOffset = y at hrun
  obtain ⟨res, conn₂⟩ := y
  have hres : ¬Fatal res := by
    rintro ⟨e, rfl, he⟩
    obtain ⟨rfl, -⟩ := Prod.mk.inj hrun
    exact hx ⟨e, rfl, he⟩
  have haccepts : ∀ c : Conn, Accepts0 c (strmRxOffset strm₁ - fr.endOffset) := by
    intro c evs data hpos hroom
    omega
  obtain ⟨strm', evs', rfl, hfind, hlog, hem⟩ :=
    connEmitPendingStream0Data_accepted hrob₁ (setStrm_find _ _) hdirect.streamId
      (haccepts _) hemit hres
  obtain ⟨-, rfl⟩ := Prod.mk.inj hrun
  refine ⟨strm', [.recvStream0Data (newBytes strm0 fr)] ++ evs', hfind, ?_, ?_⟩
  · rw [hlog]
    exact List.append_assoc conn.log _ evs'
  · rw [← List.append_assoc]
    exact .emit hdirect.streamId hdirect.shutRd hdirect.stopSending hlen hrob₁.le_firstGap
      (.inl rfl) hdirect.credit hem

/-- A frame that `conn_recv_stream` gets and that comes out even. -/
theorem Counted0.stream {x : Except Err Unit} (h : Counted0 base evs strm0)
    (h0 : conn.strms 0 = some strm0)
    (hfr : fr.streamId = 0) (hwire : fr.WireRange) (heven : StreamEven conn strm0 fr)
    (hrun : connRecvStream conn fr = (x, conn'))
    (hx : ¬Fatal x) :
    ∃ strm' evs', conn'.strms 0 = some strm' ∧ conn'.log = conn.log ++ evs' ∧
    Counted0 base (evs ++ evs') strm' := by
  rcases connRecvStream_cases0 h0 h.streamId h.shutRd h.stopSending hfr hrun with ⟨hquiet, -⟩
      | ⟨-, hfind, hlog⟩ |
    ⟨hin, hlt, hcheck, hflow, hrun⟩
  · exact h.quiet hquiet
  · exact h.push hwire hfind hlog
  have hpos := directBytes_ne_zero hin hlt
  obtain ⟨heq, haccepts, hroom⟩ := heven hcheck hflow hpos
  have hlen := releasedBytes_inOrder hin hlt
  have hnew := newBytes_length hin hlt
  obtain ⟨w, rx, hrob⟩ := h.rob
  have hrob₁ : RobUpTo stream0Top w fr.endOffset (cutFrame strm0 fr).rob :=
    (hrob.removePrefix (Nat.le_trans hrob.le_firstGap (Nat.le_of_lt hlt)) hwire.le_top).1
  have hcall : connCallRecvStream0Data (conn.setStrm (cutFrame strm0 fr)) (newBytes strm0 fr) =
      (.ok (), (conn.setStrm (cutFrame strm0 fr)).tell (.recvStream0Data (newBytes strm0 fr))) := by
    have hnone := haccepts [] (newBytes strm0 fr) (by omega) (by
      show 0 + _ ≤ _
      omega)
    rw [List.append_nil] at hnone
    have hnone : (conn.setStrm (cutFrame strm0 fr)).callbacks.reply
      (conn.setStrm (cutFrame strm0 fr)).log
      (.recvStream0Data (newBytes strm0 fr)) = none := hnone
    unfold connCallRecvStream0Data
    dsimp only
    rw [hnone]
  unfold stream0Deliver at hrun
  rw [hcall, andThen_ok] at hrun
  generalize hemit : connEmitPendingStream0Data _ _ (cutFrame strm0 fr) fr.endOffset = y at hrun
  obtain ⟨res, conn₂⟩ := y
  have hres : ¬Fatal res := by
    rintro ⟨e, rfl, he⟩
    obtain ⟨rfl, -⟩ := Prod.mk.inj hrun
    exact hx ⟨e, rfl, he⟩
  have hrest : Accepts0 ((conn.setStrm (cutFrame strm0 fr)).tell (.recvStream0Data (newBytes strm0 fr)))
      (strmRxOffset (cutFrame strm0 fr) - fr.endOffset) := by
    intro evs data hpos hlt
    have haccept := haccepts (.recvStream0Data (newBytes strm0 fr) :: evs) data hpos (by
      show (newBytes strm0 fr ++ stream0Data evs).length + _ ≤ _
      rw [List.length_append]
      omega)
    show conn.callbacks.reply ((conn.log ++ [_]) ++ evs) _ = none
    rw [List.append_assoc]
    exact haccept
  have hfind₁ : ((conn.setStrm (cutFrame strm0 fr)).tell (.recvStream0Data (newBytes strm0 fr))).strms
      (cutFrame strm0 fr).streamId = some (cutFrame strm0 fr) := setStrm_find _ _
  obtain ⟨strm', evs', rfl, hfind, hlog, hem⟩ :=
    connEmitPendingStream0Data_accepted hrob₁ hfind₁ h.streamId hrest hemit hres
  obtain ⟨-, rfl⟩ := hem.close h.shutRd hrun
  refine ⟨strm', [.recvStream0Data (newBytes strm0 fr)] ++ evs', hfind, ?_, ?_⟩
  · rw [hlog]
    exact List.append_assoc conn.log _ evs'
  · rw [← List.append_assoc]
    have hid : (cutFrame strm0 fr).streamId = 0 := h.streamId
    refine .emit hid h.shutRd h.stopSending hlen hrob₁.le_firstGap (.inr hroom) ?_ hem
    have hcredit : (cutFrame strm0 fr).unsentMaxRxOffset = base + (stream0Data evs).length :=
      h.credit
    have hone : stream0Data [.recvStream0Data (newBytes strm0 fr)] = newBytes strm0 fr :=
      List.append_nil _
    rw [stream0Data_append, hone, List.length_append, hcredit, hnew, heq, Nat.add_assoc]

theorem Op.Even0.not_extends {op : Op} (h : op.Even0 conn strm0) : op.extendsStream0 = false := by
  cases op with
  | extendMaxStreamOffset streamId datalen => exact beq_false_of_ne h
  | _ => rfl

/-- One step. -/
theorem Counted0.step {ops : List Op} {op : Op} (h : Counted0 base evs strm0)
    (hreach : Reachable conn)
    (h0 : conn.strms 0 = some strm0) (hstep : EvenStep ops conn op conn') :
    ∃ strm' evs', conn'.strms 0 = some strm' ∧ conn'.log = conn.log ++ evs' ∧
    Counted0 base (evs ++ evs') strm' := by
  obtain ⟨⟨hstep, hretry, hwire⟩, heven⟩ := hstep
  have heven := heven strm0 h0
  cases hstream : op.stream0Frame with
  | none =>
    obtain ⟨⟨strm', hfind, hsame, hcredit⟩, hlog⟩ :=
      Step.quiet0 hreach.wellFormed hreach.strmsUsed h0 h.shutRd hstep hretry hstream
    exact h.quiet ⟨⟨strm', hfind, hsame, hcredit heven.not_extends⟩, hlog⟩
  | some fr =>
    have hwire := hwire fr hstream
    have hframe : ∀ {fr' : StreamFrame}, (if fr'.streamId = 0 then some fr' else none) = some fr →
        fr' = fr ∧ fr.streamId = 0 := by
      intro fr' heq
      split at heq
      · next hid =>
        obtain rfl := Option.some.inj heq
        exact ⟨rfl, hid⟩
      · cases heq
    obtain ⟨rv, hrun, hs⟩ := hstep
    have hrv := not_fatal_of_survives hs
    cases op with
    | recvFrame longForm fr' =>
      cases fr' with
      | stream fr' =>
        obtain ⟨rfl, hid⟩ := hframe hstream
        have hrun : (if fr'.streamId = 0 ∧
          longForm then (.error .proto, conn) else connRecvStream conn fr') = (rv, conn') := hrun
        cases hlong : longForm with
        | true =>
          rw [if_pos ⟨hid, hlong⟩] at hrun
          obtain ⟨-, rfl⟩ := Prod.mk.inj hrun
          exact h.quiet (.refl h0 rfl)
        | false =>
          rw [if_neg (by simp [hlong])] at hrun
          exact h.stream h0 hid hwire (heven hid hlong) hrun hrv
      | _ => cases hstream
    | recvDelayedHandshakeFrame type fr' =>
      cases fr' with
      | stream fr' =>
        obtain ⟨rfl, hid⟩ := hframe hstream
        exact h.stream h0 hid hwire (heven hid) hrun hrv
      | _ => cases hstream
    | recvHandshakeFrame type failed fr' =>
      cases fr' with
      | stream fr' =>
        obtain ⟨rfl, hid⟩ := hframe hstream
        obtain ⟨x, hrun, hx⟩ := void_cases hrun
        refine h.handshake h0 hid hwire (heven hid) hrun ?_
        rintro ⟨e, he, hfatal⟩
        exact hrv ⟨e, (hx e).mpr he, hfatal⟩
      | _ => cases hstream
    | _ => cases hstream

/-- In every run of such steps, the credit of stream 0 grew by the number of bytes of it that were delivered. -/
theorem stream0_credit {conn₀ : Conn} {ops : List Op} (hstart : Stream0Start conn₀)
    (h0 : conn₀.strms 0 = some strm0)
    (hrun : Runs.Run EvenStep conn₀ ops conn) :
    ∃ evs strm', conn.log = conn₀.log ++ evs ∧ conn.strms 0 = some strm' ∧
      strm'.unsentMaxRxOffset = strm0.unsentMaxRxOffset + (stream0Data evs).length := by
  obtain ⟨hreach₀, strm₀, h0', htaken⟩ := hstart.taken (w := [])
  obtain rfl := Option.some.inj (h0.symm.trans h0')
  have hinv : Reachable conn ∧ ∃ evs strm', conn.log = conn₀.log ++ evs ∧
    conn.strms 0 = some strm' ∧
      Counted0 strm0.unsentMaxRxOffset evs strm' := by
    refine hrun.invariant (fun _ conn => Reachable conn ∧ ∃ evs strm', conn.log = conn₀.log ++ evs ∧
      conn.strms 0 = some strm' ∧ Counted0 strm0.unsentMaxRxOffset evs strm')
      ⟨hreach₀, [], strm0, (List.append_nil _).symm, h0, htaken.counted⟩ ?_
    rintro ops conn₁ op conn₂ ⟨hreach, evs, strm₁, hlog, h₁, hcounted⟩ hstep
    obtain ⟨strm₂, evs', h₂, hlog', hcounted'⟩ := hcounted.step hreach h₁ hstep
    refine ⟨hreach.step hstep.1.1, evs ++ evs', strm₂, ?_, h₂, hcounted'⟩
    rw [hlog', hlog, List.append_assoc]
  obtain ⟨-, evs, strm', hlog, hfind, hcounted⟩ := hinv
  exact ⟨evs, strm', hlog, hfind, hcounted.credit⟩

end

/-- A byte in a handshake packet, and two in protected packets, the last one first. -/
def evenOps : List Op :=
  [.recvHandshakeFrame .initial false (.stream ⟨0, 0, [1], false⟩),
    .recvFrame false (.stream ⟨0, 2, [3], false⟩),
    .recvFrame false (.stream ⟨0, 1, [2], false⟩)]

theorem stream0_credit_even :
    ∃ evs strm', (runOps smallServer evenOps).log = smallServer.log ++ evs ∧
    (runOps smallServer evenOps).strms 0 = some strm' ∧
    strm'.unsentMaxRxOffset = (strmInit 0 smallServer.localSettings.maxStreamData.toNat strm0MaxStreamData smallServer.mem).unsentMaxRxOffset +
      (stream0Data evs).length := by
  have hstep : ∀ {ops : List Op} {conn : Conn} {op : Op} {fr : StreamFrame} {strm0 : Strm},
    survives (op.run conn).1 = true →
      op.completesRetry conn = false → op.stream0Frame = some fr → fr.WireRange →
        conn.strms 0 = some strm0 →
      op.Even0 conn strm0 → EvenStep ops conn op (op.run conn).2 := by
    intro ops conn op fr strm0 hs hretry hstream hwire h0 heven
    refine ⟨⟨⟨_, rfl, hs⟩, hretry, fun fr' hfr' => ?_⟩, fun strm0' h0' => ?_⟩
    · obtain rfl := Option.some.inj (hstream.symm.trans hfr')
      exact hwire
    · obtain rfl := Option.some.inj (h0.symm.trans h0')
      exact heven
  have hwire : ∀ {offset : Nat} {byte : UInt8}, offset ≤ 2 →
    (StreamFrame.mk 0 offset [byte] false).WireRange := by
    intro offset byte hle
    exact ⟨Nat.zero_le _, Nat.le_trans hle (by decide), show 1 ≤ maxVarint by decide⟩
  have hfirst : EvenStep [] smallServer
    (.recvHandshakeFrame .initial false (.stream ⟨0, 0, [1], false⟩))
      (runOps smallServer (evenOps.take 1)) :=
    hstep rfl rfl rfl (hwire (by decide)) rfl fun _ _ _ => .inr ⟨rfl, .inr (by decide)⟩
  have hsecond : EvenStep (evenOps.take 1) (runOps smallServer (evenOps.take 1))
    (.recvFrame false (.stream ⟨0, 2, [3], false⟩))
      (runOps smallServer (evenOps.take 2)) :=
    hstep rfl rfl rfl (hwire (by decide)) rfl fun _ _ _ _ hdirect => absurd (by decide) hdirect
  have hthird : EvenStep (evenOps.take 2) (runOps smallServer (evenOps.take 2))
    (.recvFrame false (.stream ⟨0, 1, [2], false⟩))
      (runOps smallServer evenOps) :=
    hstep rfl rfl rfl (hwire (by decide)) rfl fun _ _ _ _ _ => ⟨by decide, fun _ _ _ _ => rfl, by decide⟩
  have hrun : Runs.Run EvenStep smallServer evenOps (runOps smallServer evenOps) :=
    ((Runs.Run.nil.snoc hfirst).snoc hsecond).snoc hthird
  exact stream0_credit (.initial (.server ..)) rfl hrun

/-- The last two bytes in handshake packets, in the wrong order. -/
def reorderedOps : List Op :=
  [.recvHandshakeFrame .initial false (.stream ⟨0, 0, [1], false⟩),
    .recvHandshakeFrame .handshake false (.stream ⟨0, 2, [3], false⟩),
    .recvHandshakeFrame .handshake false (.stream ⟨0, 1, [2], false⟩)]

/-- The byte taken out of the buffer gives credit twice. -/
theorem stream0_credit_twice :
    ¬∀ (conn₀ conn : Conn) (ops : List Op) (evs : List Event) (strm0 strm' : Strm),
    Stream0Start conn₀ → (∀ op ∈ ops, op.extendsStream0 = false) →
    Runs.Run WireStep conn₀ ops conn →
    conn₀.strms 0 = some strm0 → conn.log = conn₀.log ++ evs → conn.strms 0 = some strm' →
    strm'.unsentMaxRxOffset = strm0.unsentMaxRxOffset + (stream0Data evs).length := by
  intro h
  have hstep : ∀ {ops : List Op} {conn : Conn} {op : Op} {fr : StreamFrame},
    survives (op.run conn).1 = true →
      op.completesRetry conn = false → op.stream0Frame = some fr → fr.WireRange →
        WireStep ops conn op (op.run conn).2 := by
    intro ops conn op fr hs hretry hstream hwire
    refine ⟨⟨_, rfl, hs⟩, hretry, fun fr' hfr' => ?_⟩
    obtain rfl := Option.some.inj (hstream.symm.trans hfr')
    exact hwire
  have hfirst : WireStep [] smallServer
    (.recvHandshakeFrame .initial false (.stream ⟨0, 0, [1], false⟩))
      (runOps smallServer (reorderedOps.take 1)) :=
    hstep rfl rfl rfl ⟨by decide, by decide, by decide⟩
  have hsecond : WireStep (reorderedOps.take 1) (runOps smallServer (reorderedOps.take 1))
      (.recvHandshakeFrame .handshake false (.stream ⟨0, 2, [3], false⟩))
      (runOps smallServer (reorderedOps.take 2)) :=
    hstep rfl rfl rfl ⟨by decide, by decide, by decide⟩
  have hthird : WireStep (reorderedOps.take 2) (runOps smallServer (reorderedOps.take 2))
      (.recvHandshakeFrame .handshake false (.stream ⟨0, 1, [2], false⟩))
      (runOps smallServer reorderedOps) :=
    hstep rfl rfl rfl ⟨by decide, by decide, by decide⟩
  have hrun : Runs.Run WireStep smallServer reorderedOps (runOps smallServer reorderedOps) :=
    ((Runs.Run.nil.snoc hfirst).snoc hsecond).snoc hthird
  have heq := h smallServer _ _ [.recvStream0Data [1], .recvStream0Data [2],
    .recvStream0Data [3]] _ _ (.initial (.server ..))
    (by decide) hrun rfl rfl rfl
  exact absurd heq (by decide)

end Ngtcp2
