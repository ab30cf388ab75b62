import Polygon.FrameRoundTrip
import Polygon.Stream0

/-!
# Stream 0 is delivered in order

Frames of stream 0 come in handshake packets, in delayed handshake packets and in protected
packets, in any order. The bytes given to the application are the first ones, each once.
-/
namespace Ngtcp2

open Ranges

/-- The frames of stream 0 that were processed. -/
def stream0Frames (ops : List Op) : List StreamFrame := ops.filterMap Op.stream0Frame

/-- The call returns 0, and the handshake has not failed. -/
def Op.succeeds (conn : Conn) : Op → Prop
  | recvHandshakeFrame type handshakeFailed fr =>
    handshakeFailed = false ∧ (connRecvHandshakeFrame type handshakeFailed conn fr).1 = .ok false
  | op => (op.run conn).1 = .ok ()

/-- A step in which a frame of stream 0, as it can be read from a packet, carries bytes of `w` and is accepted. -/
def Stream0Step (w : List UInt8) (ops : List Op) (conn : Conn) (op : Op) (conn' : Conn) : Prop :=
  Step ops conn op conn' ∧ op.completesRetry conn = false ∧
    ∀ fr, op.stream0Frame = some fr → SliceOf w fr ∧ fr.WireRange ∧ op.succeeds conn

/-- Stream 0 begins: the connection is new, or a Retry packet was just accepted. -/
inductive Stream0Start : Conn → Prop where
  | initial {conn : Conn} (init : Initial conn) : Stream0Start conn
  | retry {conn conn' : Conn} {ops : List Op} {op : Op} (reach : Reachable conn)
      (retry : op.completesRetry conn = true)
      (step : Step ops conn op conn') : Stream0Start conn'

/-- The offsets that frames on the wire can reach. -/
def stream0Top : Nat := 2 * maxVarint

/-- Stream 0 after some frames of the string `w`, of which `evs` told the application. -/
structure Taken0 (w : List UInt8) (frs : List StreamFrame) (evs : List Event) (strm0 : Strm) :
    Prop where
  streamId : strm0.streamId = 0
  shutRd : strm0.shutRd = false
  stopSending : strm0.stopSending = false
  rob : RobUpTo stream0Top (content w) (strmRxOffset strm0) strm0.rob
  gap : ∀ n, n < uint64Max → (InGap strm0.rob.gap n ↔ covered frs n = false)
  slices : ∀ fr ∈ frs, SliceOf w fr
  data : stream0Data evs = slice (content w) 0 (strmRxOffset strm0)

section
variable {w : List UInt8} {frs : List StreamFrame} {evs evs' : List Event} {conn conn' : Conn} {strm0 strm' : Strm} {fr : StreamFrame}

theorem StreamFrame.WireRange.le_top (h : fr.WireRange) : fr.endOffset ≤ stream0Top := by
  have hoffset := h.offset
  have hlen := h.datalen
  unfold StreamFrame.endOffset stream0Top
  omega

/-- A new stream 0 has taken nothing. -/
theorem Taken0.start (hid : strm0.streamId = 0) (hopen : strm0.shutRd = false)
    (hgoes : strm0.stopSending = false)
    {chunk : Nat} {mem : Nat → UInt8} (hchunk : 0 < chunk) (hrob : strm0.rob = robInit chunk mem) :
    Taken0 w [] [] strm0 := by
  have hrx : strmRxOffset strm0 = 0 := by
    rw [strmRxOffset, hrob]
    rfl
  refine ⟨hid, hopen, hgoes, ?_, fun n hn => ?_, by simp, ?_⟩
  · rw [hrx, hrob]
    exact robInit_upTo (by decide) _ chunk mem hchunk
  · rw [hrob]
    simp [robInit, gapsInit, covered, hn]
  · rw [hrx, slice_self]
    rfl

theorem Taken0.quiet (h : Taken0 w frs evs strm0) (hsame : SameRx0 strm0 strm')
    (hevs : stream0Data evs' = []) :
    Taken0 w frs (evs ++ evs') strm' := by
  have hrx : strmRxOffset strm' = strmRxOffset strm0 := by
    rw [strmRxOffset, strmRxOffset, hsame.rob]
  refine ⟨hsame.streamId.trans h.streamId, hsame.shutRd.trans h.shutRd,
    hsame.stopSending.trans h.stopSending, ?_, ?_,
    h.slices, ?_⟩
  · rw [hrx, hsame.rob]
    exact h.rob
  · rw [hsame.rob]
    exact h.gap
  · rw [stream0Data_append, hevs, List.append_nil, hrx]
    exact h.data

/-- One more frame. -/
theorem Taken0.took {base : Nat} (h : Taken0 w frs evs strm0) (hfr : SliceOf w fr)
    (htook : Took0 stream0Top (content w) base fr strm0 strm' evs') :
    Taken0 w (frs ++ [fr]) (evs ++ evs') strm' := by
  refine ⟨htook.streamId.trans h.streamId, htook.shutRd.trans h.shutRd,
    htook.stopSending.trans h.stopSending, htook.rob,
    fun n hn => ?_, fun fr' hmem => ?_, ?_⟩
  · rw [htook.gap, h.gap n hn, covered_append_one, Bool.or_eq_false_iff]
    refine and_congr_right fun _ => ?_
    rw [← Bool.not_eq_true, Bool.and_eq_true, decide_eq_true_eq, decide_eq_true_eq]
  · rcases List.mem_append.mp hmem with hmem | hmem
    · exact h.slices fr' hmem
    · rw [List.mem_singleton.mp hmem]
      exact hfr
  · rw [stream0Data_append, h.data, htook.data]
    have hle : strmRxOffset strm0 ≤ strmRxOffset strm' := by
      rw [htook.advance, Nat.add_assoc]
      exact Nat.le_add_right _ _
    exact slice_append _ (Nat.zero_le _) hle

/-- The bytes given to the application end at the first one that no frame covers. -/
theorem Taken0.rx_eq (h : Taken0 w frs evs strm0) : firstUncovered frs = strmRxOffset strm0 := by
  have hmax : strmRxOffset strm0 < uint64Max := Nat.lt_of_le_of_lt h.rob.firstGap_le_max (by decide)
  refine firstUncovered_eq ((h.gap _ hmax).mp h.rob.inGap_firstGap) fun n hn => ?_
  by_contra hc
  exact h.rob.not_inGap_of_lt hn ((h.gap n (Nat.lt_trans hn hmax)).mpr (by simpa using hc))

theorem Taken0.delivered (h : Taken0 w frs evs strm0) :
    stream0Data evs = w.take (firstUncovered frs) := by
  have hle : firstUncovered frs ≤ w.length := by
    refine Nat.le_of_not_lt fun hlt => ?_
    obtain ⟨fr, hfr, hcov⟩ := List.any_eq_true.mp ((firstUncovered_spec frs).1 _ hlt)
    have hend := (h.slices fr hfr).end_le
    simp only [Bool.and_eq_true, decide_eq_true_eq] at hcov
    omega
  rw [h.data, ← h.rx_eq, slice_content hle]

/-- Where stream 0 begins, nothing of it was received. -/
theorem Stream0Start.taken (h : Stream0Start conn) :
    Reachable conn ∧ ∃ strm0, conn.strms 0 = some strm0 ∧ Taken0 w [] [] strm0 := by
  cases h with
  | initial init =>
    refine ⟨init.reachable, ?_⟩
    cases init <;> exact ⟨_, rfl, .start rfl rfl rfl (by decide) rfl⟩
  | @retry conn₀ _ ops op reach retry step =>
    exact ⟨reach.step step, _, step.restarted retry, .start rfl rfl rfl (by decide) rfl⟩

/-- A frame of stream 0 is accepted. -/
theorem Op.takes0 {op : Op} (h0 : conn.strms 0 = some strm0) (h : Taken0 w frs evs strm0)
    (hstream0 : op.stream0Frame = some fr)
    (hfr : SliceOf w fr) (hwire : fr.WireRange) (hok : op.succeeds conn) :
    ∃ strm' evs', (op.run conn).2.strms 0 = some strm' ∧ (op.run conn).2.log = conn.log ++ evs' ∧
      Taken0 w (frs ++ [fr]) (evs ++ evs') strm' := by
  -- Both ways into the buffer do the same to it.
  have htake : ∀ {base : Nat} {c : Conn},
    (∃ strm' evs', c.strms 0 = some strm' ∧ c.log = conn.log ++ evs' ∧
      Took0 stream0Top (content w) base fr strm0 strm' evs') →
      ∃ strm' evs', c.strms 0 = some strm' ∧ c.log = conn.log ++ evs' ∧
        Taken0 w (frs ++ [fr]) (evs ++ evs') strm' := by
    rintro base c ⟨strm', evs', hfind, hlog, htook⟩
    exact ⟨strm', evs', hfind, hlog, h.took hfr htook⟩
  have hstream : ∀ {fr' : StreamFrame}, (if fr'.streamId = 0 then some fr' else none) = some fr →
      fr' = fr ∧ fr.streamId = 0 := by
    intro fr' heq
    split at heq
    · next hid =>
      obtain rfl := Option.some.inj heq
      exact ⟨rfl, hid⟩
    · cases heq
  have hrecv : ∀ {c : Conn}, fr.streamId = 0 → connRecvStream conn fr = (.ok (), c) →
      ∃ strm' evs', c.strms 0 = some strm' ∧ c.log = conn.log ++ evs' ∧
        Taken0 w (frs ++ [fr]) (evs ++ evs') strm' :=
    fun hid hrun => htake (connRecvStream_took0 h0 h.streamId h.shutRd h.stopSending h.rob
      (BytesOf.writes hfr.agree strm0) hwire.le_top hid hrun)
  cases op with
  | recvFrame longForm fr' =>
    cases fr' with
    | stream fr' =>
      obtain ⟨rfl, hid⟩ := hstream hstream0
      have hok : (if fr'.streamId = 0 ∧
        longForm then (.error .proto, conn) else connRecvStream conn fr').1 = .ok () := hok
      show ∃ strm' evs', (if fr'.streamId = 0 ∧
        longForm then (.error .proto, conn) else connRecvStream conn fr').2.strms 0 =
        some strm' ∧ (if fr'.streamId = 0 ∧
          longForm then (.error .proto, conn) else connRecvStream conn fr').2.log =
          conn.log ++ evs' ∧ _
      by_cases hlong : fr'.streamId = 0 ∧ longForm
      · rw [if_pos hlong] at hok
        cases hok
      · rw [if_neg hlong] at hok ⊢
        exact hrecv hid (Prod.ext hok rfl)
    | _ => cases hstream0
  | recvDelayedHandshakeFrame type fr' =>
    cases fr' with
    | stream fr' =>
      obtain ⟨rfl, hid⟩ := hstream hstream0
      exact hrecv hid (Prod.ext hok rfl)
    | _ => cases hstream0
  | recvHandshakeFrame type failed fr' =>
    cases fr' with
    | stream fr' =>
      obtain ⟨rfl, hid⟩ := hstream hstream0
      obtain ⟨rfl, hok⟩ := hok
      have hsnd : ((Op.recvHandshakeFrame type false (.stream fr')).run conn).2 =
          (connRecvHandshakeStream conn type false fr').2 :=
            void_snd (connRecvHandshakeStream conn type false fr')
      rw [hsnd]
      exact htake (connRecvHandshakeStream_took0 h0 h.streamId h.rob
        (BytesOf.writes hfr.agree strm0) hwire.le_top hid (Prod.ext hok rfl))
    | _ => cases hstream0
  | _ => cases hstream0

/-- The invariant of a run. -/
theorem stream0Run_taken {conn₀ : Conn} {ops : List Op} (hstart : Stream0Start conn₀)
    (hrun : Runs.Run (Stream0Step w) conn₀ ops conn) :
    ∃ evs strm0, conn.log = conn₀.log ++ evs ∧ conn.strms 0 = some strm0 ∧
    Taken0 w (stream0Frames ops) evs strm0 := by
  obtain ⟨hreach₀, strm0, h0, hstart⟩ := hstart.taken
  have hinv : Reachable conn ∧ ∃ evs strm0, conn.log = conn₀.log ++ evs ∧
    conn.strms 0 = some strm0 ∧
      Taken0 w (stream0Frames ops) evs strm0 := by
    refine hrun.invariant (fun ops conn => Reachable conn ∧ ∃ evs strm0,
      conn.log = conn₀.log ++ evs ∧
      conn.strms 0 = some strm0 ∧ Taken0 w (stream0Frames ops) evs strm0)
      ⟨hreach₀, [], strm0, (List.append_nil _).symm, h0, hstart⟩ ?_
    rintro ops conn₁ op conn₂ ⟨hreach, evs, strm0, hlog, h0, htaken⟩ ⟨hstep, hretry, hframe⟩
    refine ⟨hreach.step hstep, ?_⟩
    cases hstream : op.stream0Frame with
    | none =>
      obtain ⟨⟨strm', h0', hsame, -⟩, evs', hlog', hevs⟩ :=
        Step.quiet0 hreach.wellFormed hreach.strmsUsed h0 htaken.shutRd hstep hretry hstream
      have hframes : stream0Frames (ops ++ [op]) = stream0Frames ops := by
        rw [stream0Frames, List.filterMap_append, List.filterMap_cons_none hstream]
        exact List.append_nil _
      refine ⟨evs ++ evs', strm', ?_, h0', ?_⟩
      · rw [hlog', hlog, List.append_assoc]
      · rw [hframes]
        exact htaken.quiet hsame hevs
    | some fr =>
      obtain ⟨hfr, hwire, hok⟩ := hframe fr hstream
      obtain ⟨rv, hrun, -⟩ := hstep
      obtain ⟨strm', evs', h0', hlog', htaken'⟩ := Op.takes0 h0 htaken hstream hfr hwire hok
      rw [hrun] at h0' hlog'
      have hframes : stream0Frames (ops ++ [op]) = stream0Frames ops ++ [fr] := by
        rw [stream0Frames, List.filterMap_append, List.filterMap_cons_some hstream]
        rfl
      refine ⟨evs ++ evs', strm', ?_, h0', ?_⟩
      · rw [hlog', hlog, List.append_assoc]
      · rw [hframes]
        exact htaken'
  exact hinv.2

/-- The application gets the bytes of stream 0 up to the first one that no frame has brought, each once and in order,
whichever packets the frames come in. -/
theorem stream0_in_order {conn₀ : Conn} {ops : List Op} (hstart : Stream0Start conn₀)
    (hrun : Runs.Run (Stream0Step w) conn₀ ops conn) :
    ∃ evs, conn.log = conn₀.log ++ evs ∧
    stream0Data evs = w.take (firstUncovered (stream0Frames ops)) := by
  obtain ⟨evs, strm0, hlog, -, htaken⟩ := stream0Run_taken hstart hrun
  exact ⟨evs, hlog, htaken.delivered⟩

end

/-- The last bytes in a handshake packet, the ones before in a delayed handshake packet, the first in a protected one. -/
def acrossOps : List Op :=
  [.recvHandshakeFrame .handshake false (.stream ⟨0, 2, [3, 4], false⟩),
    .recvDelayedHandshakeFrame .handshake (.stream ⟨0, 1, [2, 3], false⟩),
      .recvFrame false (.stream ⟨0, 0, [1, 2], false⟩)]

theorem stream0_in_order_across :
    ∃ evs, (runOps smallServer acrossOps).log = smallServer.log ++ evs ∧
    stream0Data evs = [1, 2, 3, 4] := by
  have hstep : ∀ {ops : List Op} {conn : Conn} {op : Op} {fr : StreamFrame},
    survives (op.run conn).1 = true →
      op.completesRetry conn = false → op.stream0Frame = some fr → SliceOf [1, 2, 3, 4] fr →
        fr.WireRange →
      op.succeeds conn → Stream0Step [1, 2, 3, 4] ops conn op (op.run conn).2 := by
    intro ops conn op fr hs hretry hstream hslice hwire hok
    refine ⟨⟨_, rfl, hs⟩, hretry, fun fr' hfr' => ?_⟩
    obtain rfl := Option.some.inj (hstream.symm.trans hfr')
    exact ⟨hslice, hwire, hok⟩
  have hfirst : Stream0Step [1, 2, 3,
    4] [] smallServer (.recvHandshakeFrame .handshake false (.stream ⟨0, 2, [3, 4], false⟩))
      (runOps smallServer (acrossOps.take 1)) :=
    hstep rfl rfl rfl ⟨by decide, by decide⟩ ⟨by decide, by decide, by decide⟩ ⟨rfl, rfl⟩
  have hsecond : Stream0Step [1, 2, 3, 4] (acrossOps.take 1) (runOps smallServer (acrossOps.take 1))
      (.recvDelayedHandshakeFrame .handshake (.stream ⟨0, 1, [2, 3], false⟩))
      (runOps smallServer (acrossOps.take 2)) :=
    hstep rfl rfl rfl ⟨by decide, by decide⟩ ⟨by decide, by decide, by decide⟩ rfl
  have hthird : Stream0Step [1, 2, 3, 4] (acrossOps.take 2) (runOps smallServer (acrossOps.take 2))
      (.recvFrame false (.stream ⟨0, 0, [1, 2], false⟩)) (runOps smallServer acrossOps) :=
    hstep rfl rfl rfl ⟨by decide, by decide⟩ ⟨by decide, by decide, by decide⟩ rfl
  have hrun : Runs.Run (Stream0Step [1, 2, 3, 4]) smallServer acrossOps
    (runOps smallServer acrossOps) :=
    ((Runs.Run.nil.snoc hfirst).snoc hsecond).snoc hthird
  exact stream0_in_order (.initial (.server ..)) hrun

end Ngtcp2
