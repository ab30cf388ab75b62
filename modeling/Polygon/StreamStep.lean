import Polygon.StreamRecv

/-!
# One STREAM frame on a live stream

The whole of `conn_recv_stream` for a stream that has its object: which bytes
it keeps, what it tells the application, and that no assertion fails.
-/
namespace Ngtcp2

open Ranges

/-- The receive side of a stream of content `w`, delivered up to its first gap. -/
structure StrmRx (w : Nat → UInt8) (strm : Strm) : Prop where
  rob : RobInv w (strmRxOffset strm) strm.rob
  last_le : strm.lastRxOffset ≤ maxVarint
  nothing : NothingFrom strm.rob.gap strm.lastRxOffset
  max_le : strm.maxRxOffset ≤ maxVarint

theorem StrmRx.rx_le {w : Nat → UInt8} {strm : Strm} (h : StrmRx w strm) :
    strmRxOffset strm ≤ strm.lastRxOffset :=
  h.nothing.firstGap_le h.rob h.last_le

@[simp] theorem strmRxOffset_setLastRxOffset (strm : Strm) (last : Nat) :
    strmRxOffset (strm.setLastRxOffset last) = strmRxOffset strm := rfl

@[simp] theorem strmRxOffset_shutdownRd (strm : Strm) :
    strmRxOffset strm.shutdownRd = strmRxOffset strm := rfl

@[simp] theorem strmRxOffset_setOnFc (strm : Strm) (b : Bool) :
    strmRxOffset (strm.setOnFc b) = strmRxOffset strm := rfl

@[simp] theorem Strm.setLastRxOffset_stopSending (strm : Strm) (last : Nat) :
    (strm.setLastRxOffset last).stopSending = strm.stopSending := rfl

@[simp] theorem Strm.shutdownRd_stopSending (strm : Strm) :
    strm.shutdownRd.stopSending = strm.stopSending := rfl

/-- The frame's bytes are thrown away: the application refused them, or the final offset was
already known. -/
def frameDropped (strm : Strm) (fr : StreamFrame) : Bool :=
    strm.stopSending || (fr.fin && strm.shutRd)

/-- The content after the frame, `w'`, has the frame's bytes where they are used: all new ones
when they continue the delivered prefix, else those at positions not yet received. -/
structure Writes (w w' : Nat → UInt8) (strm : Strm) (fr : StreamFrame) : Prop where
  new : frameDropped strm fr = false →
    ∀ i (hi : i < fr.data.length), strmRxOffset strm ≤ fr.offset + i →
    (fr.offset ≤ strmRxOffset strm ∨ InGap strm.rob.gap (fr.offset + i)) →
      w' (fr.offset + i) = fr.data[i]
  old : ∀ n, (frameDropped strm fr = true ∨ n < strmRxOffset strm ∨
    ¬(fr.offset ≤ n ∧ n < fr.endOffset) ∨
    (strmRxOffset strm < fr.offset ∧ ¬InGap strm.rob.gap n)) → w' n = w n

/-- The content after the frame. -/
def overwrite (w : Nat → UInt8) (strm : Strm) (fr : StreamFrame) (n : Nat) : UInt8 :=
  if frameDropped strm fr = false ∧ strmRxOffset strm ≤ n ∧ fr.offset ≤ n ∧
      (fr.offset ≤ strmRxOffset strm ∨ ∃ g ∈ strm.rob.gap, n ∈ g) then
    fr.data.getD (n - fr.offset) (w n)
  else w n

theorem overwrite_writes (w : Nat → UInt8) (strm : Strm) (fr : StreamFrame) :
    Writes w (overwrite w strm fr) strm fr := by
  refine ⟨fun hd i hi hrx hg => ?_, fun n hn => ?_⟩
  · unfold overwrite
    rw [if_pos ⟨hd, hrx, Nat.le_add_right _ _, hg⟩, Nat.add_sub_cancel_left]
    simp [hi]
  · unfold overwrite
    split
    · next hc =>
      obtain ⟨hd, hrx, ho, hg⟩ := hc
      have hout : fr.data.length ≤ n - fr.offset := by
        unfold StreamFrame.endOffset at hn
        rcases hn with hn | hn | hn | ⟨hlt, hn⟩
        · simp [hd] at hn
        · omega
        · omega
        · rcases hg with hg | hg
          · omega
          · exact absurd hg hn
      simp [List.getD, List.getElem?_eq_none hout]
    · rfl

/-- A frame whose bytes are those of the content changes nothing of it. -/
theorem Writes.of_agree {w : Nat → UInt8} {strm : Strm} {fr : StreamFrame}
    (h : ∀ i (hi : i < fr.data.length), w (fr.offset + i) = fr.data[i]) : Writes w w strm fr :=
  ⟨fun _ i hi _ _ => h i hi, fun _ _ => rfl⟩

/-- The end of the stream is reported: by an empty call when the FIN brings nothing new, else
with the byte before `last_rx_offset`. -/
def FinReported (strm strm' : Strm) (fr : StreamFrame) : Prop :=
  (frameDropped strm fr = false ∧ fr.fin = true ∧ fr.endOffset = strmRxOffset strm) ∨
    (strmRxOffset strm < strmRxOffset strm' ∧ strm'.shutRd = true ∧
      strmRxOffset strm' = strm'.lastRxOffset)

instance (strm strm' : Strm) (fr : StreamFrame) : Decidable (FinReported strm strm' fr) := by
  unfold FinReported
  infer_instance

/-- What an accepted frame does to its stream, and what the application is told. -/
structure Received (w' : Nat → UInt8) (strm strm' : Strm) (fr : StreamFrame) (evs : List Event) :
    Prop where
  same : strm' = { strm with
    lastRxOffset := max strm.lastRxOffset fr.endOffset
    shutRd := strm.shutRd || fr.fin
    onFc := strm'.onFc
    rob := strm'.rob }
  rx : StrmRx w' strm'
  shut_le : strm.shutRd = true → fr.endOffset ≤ strm.lastRxOffset
  le_fin : fr.fin = true → strm.lastRxOffset ≤ fr.endOffset
  gap : ∀ n, InGap strm'.rob.gap n ↔
    InGap strm.rob.gap n ∧ ¬(frameDropped strm fr = false ∧ fr.offset ≤ n ∧ n < fr.endOffset)
  told : Told strm.streamId evs (slice w' (strmRxOffset strm) (strmRxOffset strm'))
    (if FinReported strm strm' fr then 1 else 0)

/-- The call ends with the connection `conn`, or with the check whether the stream is done. -/
def EndsIn (conn : Conn) (strm : Strm) (r : Result Unit) : Prop :=
  r = (.ok (), conn) ∨ ∃ code, r = ngtcp2ConnCloseStreamIfShutRdwr conn strm code

/-- The call is refused, and not by a failed assertion. -/
def Refused (r : Result Unit) : Prop := ∃ e conn, r = (.error e, conn) ∧ e ≠ .abort

section
variable {w w' : Nat → UInt8} {conn : Conn} {strm : Strm} {fr : StreamFrame}

/-- A frame that leaves the buffer alone. -/
theorem Received.of_rob_eq {strm' : Strm} {evs : List Event} (h : StrmRx w strm)
    (hw : Writes w w' strm fr) (hmax : fr.endOffset ≤ maxVarint)
    (hsame : strm' = { strm with
      lastRxOffset := max strm.lastRxOffset fr.endOffset
      shutRd := strm.shutRd || fr.fin
      onFc := strm'.onFc })
    (hshut : strm.shutRd = true → fr.endOffset ≤ strm.lastRxOffset)
    (hfin : fr.fin = true → strm.lastRxOffset ≤ fr.endOffset)
    (hkeep : frameDropped strm fr = true ∨ fr.endOffset ≤ strmRxOffset strm)
    (htold : Told strm.streamId evs [] (if FinReported strm strm' fr then 1 else 0)) :
    Received w' strm strm' fr evs := by
  have hrob : strm'.rob = strm.rob := by rw [hsame]
  have hlast : strm'.lastRxOffset = max strm.lastRxOffset fr.endOffset := by rw [hsame]
  have hrx : strmRxOffset strm' = strmRxOffset strm := by rw [strmRxOffset, strmRxOffset, hrob]
  refine ⟨?_, ⟨?_, ?_, ?_, ?_⟩, hshut, hfin, fun n => ?_, ?_⟩
  · rw [hrob]
    exact hsame
  · rw [hrx, hrob]
    refine h.rob.congr fun n hn _ => hw.old n ?_
    rcases hkeep with hd | hle
    · exact .inl hd
    · exact .inr (.inr (.inl (by omega)))
  · rw [hlast]
    exact Nat.max_le.mpr ⟨h.last_le, hmax⟩
  · rw [hrob, hlast]
    exact fun n hn hlt => h.nothing n (by omega) hlt
  · rw [hsame]
    exact h.max_le
  · rw [hrob]
    refine ⟨fun hg => ⟨hg, ?_⟩, And.left⟩
    rintro ⟨hd, -, hlt⟩
    rcases hkeep with hd' | hle
    · simp [hd] at hd'
    · exact h.rob.not_inGap_of_lt (Nat.lt_of_lt_of_le hlt hle) hg
  · rw [hrx, slice_self]
    exact htold

/-- The last part of `conn_recv_stream` on a stream whose flags and final offset are updated. -/
theorem Received.of_delivery {strm₁ : Strm} {rob' : Rob} {evs : List Event} (h : StrmRx w strm)
    (hmax : fr.endOffset ≤ maxVarint) (hd : frameDropped strm fr = false)
    (hne : fr.endOffset ≠ strmRxOffset strm)
    (hsame : strm₁ = { strm with
      lastRxOffset := max strm.lastRxOffset fr.endOffset
      shutRd := strm.shutRd || fr.fin
      onFc := strm₁.onFc })
    (hshut : strm.shutRd = true → fr.endOffset ≤ strm.lastRxOffset)
    (hfin : fr.fin = true → strm.lastRxOffset ≤ fr.endOffset)
    (hdel : Delivery w' strm₁ fr rob' evs) : Received w' strm (strm₁.setRob rob') fr evs := by
  have hrob : strm₁.rob = strm.rob := by rw [hsame]
  have hid : strm₁.streamId = strm.streamId := by rw [hsame]
  have hlast : strm₁.lastRxOffset = max strm.lastRxOffset fr.endOffset := by rw [hsame]
  have hrx : strmRxOffset strm₁ = strmRxOffset strm := by rw [strmRxOffset, strmRxOffset, hrob]
  have hgap := hdel.gap
  rw [hrob] at hgap
  refine ⟨?_, ⟨hdel.rob, ?_, fun n hn hlt => ?_, ?_⟩, hshut, hfin, fun n => ?_, ?_⟩
  · rw [hsame]
    rfl
  · change strm₁.lastRxOffset ≤ _
    rw [hlast]
    exact Nat.max_le.mpr ⟨h.last_le, hmax⟩
  · change strm₁.lastRxOffset ≤ n at hn
    exact (hgap n).mpr ⟨h.nothing n (by omega) hlt, by omega⟩
  · rw [hsame]
    exact h.max_le
  · rw [Strm.setRob_rob, hgap]
    simp [hd]
  · have htold := hdel.told
    rw [hid, hrx] at htold
    refine ⟨htold.only, htold.data_eq, htold.fins_eq.trans ?_, htold.ended⟩
    have hiff : FinReported strm (strm₁.setRob rob') fr ↔
      strmRxOffset strm < robFirstGapOffset rob' ∧
        strm₁.shutRd = true ∧ robFirstGapOffset rob' = strm₁.lastRxOffset :=
      ⟨fun hf => hf.resolve_left fun hc => hne hc.2.2, .inr⟩
    simp only [hiff]

variable (conn) in
/-- Delivering a frame ends well or with a failing callback. -/
theorem connRecvStreamDeliver_spec {strm₁ : Strm} (h : StrmRx w strm) (hid : strm.streamId ≠ 0)
    (hw : Writes w w' strm fr) (hmax : fr.endOffset ≤ maxVarint) (hd : frameDropped strm fr = false)
    (hlt : strmRxOffset strm < fr.endOffset)
    (hsame : strm₁ = { strm with
      lastRxOffset := max strm.lastRxOffset fr.endOffset
      shutRd := strm.shutRd || fr.fin
      onFc := strm₁.onFc })
    (hshut : strm.shutRd = true → fr.endOffset ≤ strm.lastRxOffset)
    (hfin : fr.fin = true → strm.lastRxOffset ≤ fr.endOffset) :
    Refused (connRecvStreamDeliver conn strm₁ fr (strmRxOffset strm)) ∨
      ∃ strm' evs, strm'.onFc = strm₁.onFc ∧ Received w' strm strm' fr evs ∧
        EndsIn ((conn.setStrm strm').tells evs) strm'
          (connRecvStreamDeliver conn strm₁ fr (strmRxOffset strm)) := by
  have hrob : strm₁.rob = strm.rob := by rw [hsame]
  have hid₁ : strm₁.streamId ≠ 0 := by rw [hsame]; exact hid
  have hlast : strm₁.lastRxOffset = max strm.lastRxOffset fr.endOffset := by rw [hsame]
  have hrx : strmRxOffset strm₁ = strmRxOffset strm := by rw [strmRxOffset, strmRxOffset, hrob]
  have hrob₁ : RobInv w (strmRxOffset strm₁) strm₁.rob := by
    rw [hrx, hrob]
    exact h.rob
  have hnot : fr.endOffset ≠ strmRxOffset strm := by omega
  rw [← hrx]
  by_cases hin : fr.offset ≤ strmRxOffset strm
  · have hnothing : NothingFrom strm₁.rob.gap strm₁.lastRxOffset := by
      rw [hrob, hlast]
      exact fun n hn hlt => h.nothing n (by omega) hlt
    rcases connRecvStreamDeliver_inOrder w' conn hid₁ hrob₁ (hrx ▸ hin) (hrx ▸ hlt)
      (by omega) (by rw [hlast]; exact Nat.max_le.mpr ⟨h.last_le, hmax⟩) hnothing
      (fun i hi hle => hw.new hd i hi (hrx ▸ hle) (.inl hin))
      (fun n hn _ => hw.old n (.inr (.inr (.inl (by omega))))) with ⟨conn', herr⟩ | ⟨rob', evs, heq,
        hdel⟩
    · exact .inl ⟨_, conn', herr, by simp⟩
    · refine .inr ⟨strm₁.setRob rob', evs, rfl, .of_delivery h hmax hd hnot hsame hshut hfin hdel,
        .inr ⟨0, heq⟩⟩
  · obtain ⟨rob', heq, hdel⟩ := connRecvStreamDeliver_buffered w' conn hrob₁
      (by omega) hmax
      (fun i hi hg => by
        rw [hrob] at hg
        exact hw.new hd i hi (h.rob.gaps.firstGap_le hg) (.inr hg))
      (fun n hg => hw.old n (.inr (.inr (.inr ⟨by omega, by rwa [hrob] at hg⟩))))
    exact .inr ⟨strm₁.setRob rob', [], rfl, .of_delivery h hmax hd hnot hsame hshut hfin hdel,
      .inr ⟨0, heq⟩⟩

/-- The connection after an accepted frame: the stream written back, the events appended, the
stream possibly off the list of streams that owe a MAX_STREAM_DATA. -/
def frameDone (conn : Conn) (fcStrms : List Nat) (strm' : Strm) (evs : List Event) : Conn :=
  ((conn.setFcStrms fcStrms).setStrm strm').tells evs

theorem frameDone_nil (conn : Conn) (strm' : Strm) :
    frameDone conn conn.fcStrms strm' [] = conn.setStrm strm' := Conn.tells_nil _

theorem connRecvStreamNoFin_spec (h : StrmRx w strm) (hid : strm.streamId ≠ 0)
    (hw : Writes w w' strm fr) (hmax : fr.endOffset ≤ maxVarint) (hfin : fr.fin = false) :
    Refused (connRecvStreamNoFin conn strm fr) ∨
      ∃ strm' evs, strm'.onFc = strm.onFc ∧ Received w' strm strm' fr evs ∧
        EndsIn (frameDone conn conn.fcStrms strm' evs) strm'
        (connRecvStreamNoFin conn strm fr) := by
  unfold connRecvStreamNoFin
  split
  · exact .inl ⟨_, conn, rfl, by simp⟩
  next hnot =>
  have hshut : strm.shutRd = true → fr.endOffset ≤ strm.lastRxOffset := fun hs =>
    Nat.le_of_not_lt fun hlt => hnot ⟨hs, hlt⟩
  have hnofin : fr.fin = true → strm.lastRxOffset ≤ fr.endOffset := fun hf => by simp [hfin] at hf
  dsimp only
  have hsame : strm.setLastRxOffset (max strm.lastRxOffset fr.endOffset) = { strm with
      lastRxOffset := max strm.lastRxOffset fr.endOffset
      shutRd := strm.shutRd || fr.fin } := by simp [hfin, Strm.setLastRxOffset]
  have hquiet : frameDropped strm fr = true ∨ fr.endOffset ≤ strmRxOffset strm →
      Received w' strm (strm.setLastRxOffset (max strm.lastRxOffset fr.endOffset)) fr [] := by
    intro hkeep
    refine .of_rob_eq h hw hmax hsame hshut hnofin hkeep ?_
    have hno : ¬FinReported strm
      (strm.setLastRxOffset (max strm.lastRxOffset fr.endOffset)) fr := by
      rintro (⟨_, hf, _⟩ | ⟨hlt, _⟩)
      · simp [hfin] at hf
      · exact Nat.lt_irrefl _ hlt
    rw [if_neg hno]
    exact Told.nil _
  by_cases hle : fr.endOffset ≤ strmRxOffset strm
  · rw [strmRxOffset_setLastRxOffset, if_pos hle]
    exact .inr ⟨strm.setLastRxOffset (max strm.lastRxOffset fr.endOffset), [], rfl,
      hquiet (.inr hle),
      .inl (by rw [frameDone_nil])⟩
  rw [strmRxOffset_setLastRxOffset, if_neg hle]
  by_cases hstop : strm.stopSending
  · rw [Strm.setLastRxOffset_stopSending, if_pos hstop]
    have hd : frameDropped strm fr = true := by simp [frameDropped, hstop]
    exact .inr ⟨strm.setLastRxOffset (max strm.lastRxOffset fr.endOffset), [], rfl,
      hquiet (.inl hd),
      .inl (by rw [frameDone_nil])⟩
  rw [Strm.setLastRxOffset_stopSending, if_neg hstop]
  have hd : frameDropped strm fr = false := by simp [frameDropped, hstop, hfin]
  rcases connRecvStreamDeliver_spec (conn.setStrm (strm.setLastRxOffset _)) h hid hw hmax hd
    (by omega) hsame hshut hnofin with href | ⟨strm', evs, hfc, hrec, hends⟩
  · exact .inl href
  · refine .inr ⟨strm', evs, hfc, hrec, ?_⟩
    have hid' : strm'.streamId =
      (strm.setLastRxOffset (max strm.lastRxOffset fr.endOffset)).streamId := by
      rw [hrec.same]
      rfl
    rw [Conn.setStrm_setStrm _ hid'] at hends
    exact hends

variable (conn) in
theorem connRecvStreamFin_spec (h : StrmRx w strm) (hid : strm.streamId ≠ 0)
    (hfind : conn.strms strm.streamId = some strm)
    (hw : Writes w w' strm fr) (hmax : fr.endOffset ≤ maxVarint) (hfin : fr.fin = true) :
    Refused (connRecvStreamFin conn strm fr) ∨
      ∃ strm' evs fcStrms, Received w' strm strm' fr evs ∧
        EndsIn (frameDone conn fcStrms strm' evs) strm' (connRecvStreamFin conn strm fr) := by
  unfold connRecvStreamFin
  split
  · next hshut =>
    -- The final offset is known: the frame is compared with it and thrown away.
    split
    · exact .inl ⟨_, conn, rfl, by simp⟩
    · next heq =>
      have heq : strm.lastRxOffset = fr.endOffset := by simpa using heq
      refine .inr ⟨strm, [], conn.fcStrms, .of_rob_eq h hw hmax ?_
        (fun _ => Nat.le_of_eq heq.symm) (fun _ => Nat.le_of_eq heq) (.inl ?_) ?_, .inl ?_⟩
      · obtain ⟨⟩ := strm
        simp_all
      · simp [frameDropped, hfin, hshut]
      · have hno : ¬FinReported strm strm fr := by
          rintro (⟨hd, _⟩ | ⟨hlt, _⟩)
          · simp [frameDropped, hfin, hshut] at hd
          · exact Nat.lt_irrefl _ hlt
        rw [if_neg hno]
        exact Told.nil _
      · rw [frameDone_nil, Conn.setStrm_of_eq hfind]
  next hshut =>
  split
  · exact .inl ⟨_, conn, rfl, by simp⟩
  next hge =>
  have hmaxeq : max strm.lastRxOffset fr.endOffset = fr.endOffset := by omega
  have hnoshut : strm.shutRd = true → fr.endOffset ≤ strm.lastRxOffset := fun hs => absurd hs hshut
  have hle : fr.fin = true → strm.lastRxOffset ≤ fr.endOffset := fun _ => Nat.le_of_not_lt hge
  dsimp only
  by_cases hstop : strm.stopSending
  · rw [Strm.shutdownRd_stopSending, Strm.setLastRxOffset_stopSending, if_pos hstop]
    refine .inr ⟨(strm.setLastRxOffset fr.endOffset).shutdownRd, [], conn.fcStrms,
      .of_rob_eq h hw hmax ?_ hnoshut hle (.inl ?_) ?_, .inr ⟨strm.appErrorCode, ?_⟩⟩
    · simp [hmaxeq, hfin, Strm.setLastRxOffset, Strm.shutdownRd]
    · simp [frameDropped, hstop]
    · have hno : ¬FinReported strm (strm.setLastRxOffset fr.endOffset).shutdownRd fr := by
        rintro (⟨hd, _⟩ | ⟨hlt, _⟩)
        · simp [frameDropped, hstop] at hd
        · exact Nat.lt_irrefl _ hlt
      rw [if_neg hno]
      exact Told.nil _
    · rw [frameDone_nil]
      rfl
  rw [Strm.shutdownRd_stopSending, Strm.setLastRxOffset_stopSending, if_neg hstop]
  have hd : frameDropped strm fr = false := by simp [frameDropped, hstop, hshut]
  obtain ⟨fc, b, hunlink⟩ :
    ∃ fc b, fcUnlink (conn.setStrm (strm.setLastRxOffset fr.endOffset).shutdownRd)
      (strm.setLastRxOffset fr.endOffset).shutdownRd =
        (((strm.setLastRxOffset fr.endOffset).shutdownRd.setOnFc b),
          (conn.setFcStrms fc).setStrm
          ((strm.setLastRxOffset fr.endOffset).shutdownRd.setOnFc b)) := by
    unfold fcUnlink
    split
    · refine ⟨conn.fcStrms.erase strm.streamId, false, ?_⟩
      refine Prod.ext rfl ?_
      exact Conn.setStrm_setStrm (conn.setFcStrms (conn.fcStrms.erase strm.streamId)) rfl
    · next hon => exact ⟨conn.fcStrms, strm.onFc, rfl⟩
  rw [hunlink]
  dsimp only
  have hsame : (strm.setLastRxOffset fr.endOffset).shutdownRd.setOnFc b = { strm with
      lastRxOffset := max strm.lastRxOffset fr.endOffset
      shutRd := strm.shutRd || fr.fin
      onFc := b } := by
    simp [hmaxeq, hfin, Strm.setLastRxOffset, Strm.shutdownRd, Strm.setOnFc]
  by_cases heq : fr.endOffset = strmRxOffset strm
  · rw [strmRxOffset_setOnFc, strmRxOffset_shutdownRd, strmRxOffset_setLastRxOffset, if_pos heq]
    rcases connCall_cases ((conn.setFcStrms fc).setStrm
      ((strm.setLastRxOffset fr.endOffset).shutdownRd.setOnFc b))
      (.recvStreamData strm.streamId true []) with hcall | hcall
    · refine .inr ⟨(strm.setLastRxOffset fr.endOffset).shutdownRd.setOnFc b,
        [.recvStreamData strm.streamId true []], fc,
        .of_rob_eq h hw hmax hsame hnoshut hle (.inr (Nat.le_of_eq heq)) ?_, .inr ⟨0, ?_⟩⟩
      · rw [if_pos (.inl ⟨hd, hfin, heq⟩)]
        exact (Told.nil strm.streamId).cons true [] fun _ => rfl
      · exact congrArg (Result.andThen · _) hcall
    · exact .inl ⟨_, _, congrArg (Result.andThen · _) hcall, by simp⟩
  · rw [strmRxOffset_setOnFc, strmRxOffset_shutdownRd, strmRxOffset_setLastRxOffset, if_neg heq]
    have hrx := h.rx_le
    rcases connRecvStreamDeliver_spec ((conn.setFcStrms fc).setStrm _) h hid hw hmax hd
      (by omega) hsame hnoshut hle with href | ⟨strm', evs, hfc, hrec, hends⟩
    · exact .inl href
    · refine .inr ⟨strm', evs, fc, hrec, ?_⟩
      have hid' : strm'.streamId =
        ((strm.setLastRxOffset fr.endOffset).shutdownRd.setOnFc b).streamId := by
        rw [hrec.same]
        rfl
      rw [Conn.setStrm_setStrm _ hid'] at hends
      exact hends
end

/-! ## Finding, opening and closing the stream -/

namespace Conn

@[simp] theorem setIds_strms (conn : Conn) (bidi : Bool) (ids : StreamIds) :
    (conn.setIds bidi ids).strms = conn.strms := by
  unfold setIds
  split <;> rfl

@[simp] theorem setIds_log (conn : Conn) (bidi : Bool) (ids : StreamIds) :
    (conn.setIds bidi ids).log = conn.log := by
  unfold setIds
  split <;> rfl

@[simp] theorem setIds_server (conn : Conn) (bidi : Bool) (ids : StreamIds) :
    (conn.setIds bidi ids).server = conn.server := by
  unfold setIds
  split <;> rfl

@[simp] theorem setIds_state (conn : Conn) (bidi : Bool) (ids : StreamIds) :
    (conn.setIds bidi ids).state = conn.state := by
  unfold setIds
  split <;> rfl

@[simp] theorem setIds_localSettings (conn : Conn) (bidi : Bool) (ids : StreamIds) :
    (conn.setIds bidi ids).localSettings = conn.localSettings := by
  unfold setIds
  split <;> rfl

@[simp] theorem setIds_remoteSettings (conn : Conn) (bidi : Bool) (ids : StreamIds) :
    (conn.setIds bidi ids).remoteSettings = conn.remoteSettings := by
  unfold setIds
  split <;> rfl

@[simp] theorem setIds_mem (conn : Conn) (bidi : Bool) (ids : StreamIds) :
    (conn.setIds bidi ids).mem = conn.mem := by
  unfold setIds
  split <;> rfl

@[simp] theorem ids_setIds (conn : Conn) (bidi bidi' : Bool) (ids : StreamIds) :
    (conn.setIds bidi ids).ids bidi' = if bidi' = bidi then ids else conn.ids bidi' := by
  cases bidi <;> cases bidi' <;> rfl

@[simp] theorem setStrm_log (conn : Conn) (strm : Strm) : (conn.setStrm strm).log = conn.log := rfl

@[simp] theorem setStrm_ids (conn : Conn) (strm : Strm) (bidi : Bool) :
    (conn.setStrm strm).ids bidi = conn.ids bidi := rfl

end Conn

/-- The object that a remote stream gets with its first frame. -/
def openedStrm (conn : Conn) (streamId : Nat) : Strm :=
  let strm := strmInit streamId conn.localSettings.maxStreamData.toNat
    conn.remoteSettings.maxStreamData.toNat conn.mem
  if bidiStream streamId then strm else strm.shutdownWr

/-- The connection with the remote stream opened. -/
def openRemote (conn : Conn) (streamId : Nat) (idtr : Idtr) : Conn :=
  ((conn.setIds (bidiStream streamId)
    { conn.ids (bidiStream streamId) with remoteIdtr := idtr }).setStrm (openedStrm conn streamId)).tell
      (.strmInit streamId)

theorem openedStrm_streamId (conn : Conn) (streamId : Nat) :
    (openedStrm conn streamId).streamId = streamId := by
  unfold openedStrm
  dsimp only
  split <;> rfl

theorem connFindOrOpenStream_find {conn : Conn} {streamId : Nat} {strm : Strm}
    (h : conn.strms streamId = some strm) :
    connFindOrOpenStream conn streamId = (.ok (some strm), conn) := by
  simp only [connFindOrOpenStream, h]

/-- A local stream or a remote one whose ID was used before is not opened again. -/
def UsedId (conn : Conn) (streamId : Nat) : Prop :=
  connLocalStream conn streamId = true ∨
    idtrOpen (conn.ids (bidiStream streamId)).remoteIdtr streamId = none

theorem connFindOrOpenStream_closed {conn : Conn} {streamId : Nat} (h : conn.strms streamId = none)
    (hused : UsedId conn streamId) : connFindOrOpenStream conn streamId = (.ok none, conn) := by
  simp only [connFindOrOpenStream, h]
  split
  · rfl
  · next hloc => simp only [hused.resolve_left hloc]

theorem connFindOrOpenStream_open {conn : Conn} {streamId : Nat} {idtr : Idtr}
    (h : conn.strms streamId = none) (hremote : connLocalStream conn streamId = false)
    (hopen : idtrOpen (conn.ids (bidiStream streamId)).remoteIdtr streamId = some idtr) :
    connFindOrOpenStream conn streamId =
      (.ok (some (openedStrm conn streamId)), openRemote conn streamId idtr) := by
  simp only [connFindOrOpenStream, h, hremote, hopen, Bool.false_eq_true, ↓reduceIte,
    ngtcp2ConnInitStream, Conn.setIds_strms, andThen_ok, Conn.setIds_localSettings,
    Conn.setIds_remoteSettings, Conn.setIds_mem]
  by_cases hb : bidiStream streamId = true
  · simp only [hb, ↓reduceIte, openRemote, openedStrm]
  · simp only [hb, Bool.false_eq_true, ↓reduceIte, openRemote, openedStrm, Conn.tell_setStrm]
    rw [Conn.setStrm_setStrm _ (by rfl)]

/-- The index of an opened stream cannot be opened again. -/
theorem idtrOpen_used {idtr idtr' : Idtr} {streamId : Nat} (hs : Sorted 0 idtr.gap)
    (h : idtrOpen idtr streamId = some idtr') : idtrOpen idtr' streamId = none := by
  obtain ⟨gs', hgs', rfl⟩ := Option.map_eq_some_iff.mp h
  obtain ⟨-, hs', hiff⟩ := idtrOpenLoop_some hs hgs'
  cases ho : idtrOpenLoop (idFromStreamId streamId) gs' with
  | none => simp [idtrOpen, ho]
  | some gs'' => exact absurd rfl ((hiff _).mp (idtrOpenLoop_some hs' ho).1).2

/-- Closing a stream removes it from the map and reports it once. -/
structure Closed (conn : Conn) (streamId : Nat) (conn' : Conn) : Prop where
  strms : conn'.strms = (conn.removeStrm streamId).strms
  log : ∃ code, conn'.log = conn.log ++ [.streamClose streamId code]
  server : conn'.server = conn.server
  remoteIdtr : ∀ bidi, (conn'.ids bidi).remoteIdtr = (conn.ids bidi).remoteIdtr

theorem handleRemoteStreamIdExtension_idtr (ids : StreamIds) :
    (handleRemoteStreamIdExtension ids).remoteIdtr = ids.remoteIdtr := by
  unfold handleRemoteStreamIdExtension
  split <;> rfl

theorem ngtcp2ConnCloseStream_spec {conn : Conn} {strm₁ : Strm} (strm : Strm) (code : Nat)
    (h : conn.strms strm.streamId = some strm₁) :
    Refused (ngtcp2ConnCloseStream conn strm code) ∨
      ∃ conn', ngtcp2ConnCloseStream conn strm code = (.ok (), conn') ∧
        Closed conn strm.streamId conn' := by
  simp only [ngtcp2ConnCloseStream, h, connCallStreamClose]
  generalize hcode : (if strm.appErrorCode = 0 then strm.appErrorCode else code) = code'
  rcases connCall_cases (conn.removeStrm strm.streamId) (.streamClose strm.streamId code')
    with hcall | hcall
  · right
    rw [hcall, andThen_ok]
    refine ⟨_, rfl, ⟨?_, ⟨code', ?_⟩, ?_, fun bidi => ?_⟩⟩
    · split <;> split <;> simp [connImmediateAck, Conn.setFcStrms, Conn.tell]
    · split <;> split <;> simp [connImmediateAck, Conn.setFcStrms, Conn.tell, Conn.removeStrm]
    · split <;> split <;> simp [connImmediateAck, Conn.setFcStrms, Conn.tell, Conn.removeStrm]
    · generalize hb : bidiStream strm.streamId = b
      have hids : ∀ c : Conn, ((c.setIds b (handleRemoteStreamIdExtension (c.ids b))).ids bidi).remoteIdtr =
          (c.ids bidi).remoteIdtr := by
        intro c
        rw [Conn.ids_setIds]
        split
        · next h => rw [h, handleRemoteStreamIdExtension_idtr]
        · rfl
      split <;> split
      · rfl
      · exact hids _
      · rfl
      · exact hids _
  · left
    rw [hcall, andThen_error]
    exact ⟨_, _, rfl, by simp⟩

/-! ## The whole call -/

theorem connCheckStreamFrame_ne_abort {conn : Conn} {fr : StreamFrame} {e : Err}
    (h : connCheckStreamFrame conn fr = some e) : e ≠ .abort := by
  have hid : connCheckStreamId conn fr.streamId ≠ some .abort := by
    unfold connCheckStreamId
    dsimp only
    split <;> split <;> simp
  rintro rfl
  unfold connCheckStreamFrame at h
  split at h
  · simp at h
  split at h
  · simp at h
  split at h
  · next heq => exact hid (heq.trans h)
  split at h
  · simp at h
  split at h <;> simp at h

/-- The charge for new bytes, which only moves `rx_offset`. -/
theorem connRecvStreamCharge_spec (conn : Conn) {strm : Strm} (frEndOffset : Nat)
    (hid : strm.streamId ≠ 0) :
    Refused (connRecvStreamCharge conn strm frEndOffset) ∨
      (frEndOffset ≤ strm.maxRxOffset ∧ connRecvStreamCharge conn strm frEndOffset =
        (.ok (), conn.setRxOffset (conn.rxOffset + (frEndOffset - strm.lastRxOffset)))) := by
  unfold connRecvStreamCharge
  split
  · exact .inl ⟨_, conn, rfl, by simp⟩
  next hmax =>
  split
  · dsimp only
    split
    · exact .inl ⟨_, conn, rfl, by simp⟩
    · exact .inr ⟨Nat.le_of_not_lt hmax, rfl⟩
  · next hnew =>
    have hle : frEndOffset - strm.lastRxOffset = 0 := by omega
    refine .inr ⟨Nat.le_of_not_lt hmax, ?_⟩
    rw [hle]
    rfl

/-- `conn_recv_stream` once the stream object is there. -/
theorem connRecvStream_spec {w w' : Nat → UInt8} {conn conn₁ : Conn} {strm : Strm}
    {fr : StreamFrame}
    (hfind : connFindOrOpenStream conn fr.streamId = (.ok (some strm), conn₁))
    (hstrm : conn₁.strms strm.streamId = some strm) (hid : strm.streamId ≠ 0)
    (h : StrmRx w strm) (hw : Writes w w' strm fr) :
    Refused (connRecvStream conn fr) ∨ ∃ strm' evs fcStrms,
      Received w' strm strm' fr evs ∧ fr.endOffset ≤ strm.maxRxOffset ∧
        EndsIn (frameDone (conn₁.setRxOffset (conn₁.rxOffset + (fr.endOffset - strm.lastRxOffset)))
          fcStrms strm' evs) strm' (connRecvStream conn fr) := by
  unfold connRecvStream
  split
  · next e he => exact .inl ⟨e, conn, rfl, connCheckStreamFrame_ne_abort he⟩
  rw [hfind, andThen_ok]
  dsimp only
  rcases connRecvStreamCharge_spec conn₁ fr.endOffset hid with
    ⟨e, conn₂, he, hne⟩ | ⟨hmax, hcharge⟩
  · rw [he, andThen_error]
    exact .inl ⟨e, conn₂, rfl, hne⟩
  rw [hcharge, andThen_ok]
  have hend : fr.endOffset ≤ maxVarint := Nat.le_trans hmax h.max_le
  split
  · next hfin =>
    refine (connRecvStreamFin_spec (conn₁.setRxOffset
      (conn₁.rxOffset + (fr.endOffset - strm.lastRxOffset))) h hid hstrm hw hend hfin).imp_right ?_
    exact fun ⟨strm', evs, fc, hrec, hends⟩ => ⟨strm', evs, fc, hrec, hmax, hends⟩
  · next hfin =>
    refine (connRecvStreamNoFin_spec h hid hw hend (by simpa using hfin)).imp_right ?_
    exact fun ⟨strm', evs, _, hrec, hends⟩ => ⟨strm', evs, _, hrec, hmax, hends⟩

theorem connRecvStream_closed {conn : Conn} {fr : StreamFrame} (h : conn.strms fr.streamId = none)
    (hused : UsedId conn fr.streamId) :
    Refused (connRecvStream conn fr) ∨ connRecvStream conn fr = (.ok (), conn) := by
  unfold connRecvStream
  split
  · next e he => exact .inl ⟨e, conn, rfl, connCheckStreamFrame_ne_abort he⟩
  · rw [connFindOrOpenStream_closed h hused]
    exact .inr rfl

end Ngtcp2
