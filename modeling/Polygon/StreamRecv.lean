import Polygon.ConnRecv

/-!
# One STREAM frame on one stream

What the application is told for a non-zero stream while `conn_recv_stream`
delivers in-order data and empties the reorder buffer, for any content of the
stream and any order of its frames.
-/
namespace Ngtcp2

open Ranges

/-- The bytes an event passes to `recv_stream_data` for the stream. -/
def evData (streamId : Nat) : Event → List UInt8
  | .recvStreamData id _ data => if id = streamId then data else []
  | _ => []

/-- The event is a call of `recv_stream_data` for the stream with `fin` set. -/
def isFinEv (streamId : Nat) : Event → Bool
  | .recvStreamData id fin _ => id == streamId && fin
  | _ => false

/-- All data passed to `recv_stream_data` for the stream. -/
def deliveredData (streamId : Nat) (log : List Event) : List UInt8 := log.flatMap (evData streamId)

/-- How often `recv_stream_data` was called for the stream with `fin` set. -/
def finCount (streamId : Nat) (log : List Event) : Nat := log.countP (isFinEv streamId)

@[simp] theorem deliveredData_append (streamId : Nat) (log evs : List Event) :
    deliveredData streamId (log ++ evs) =
    deliveredData streamId log ++ deliveredData streamId evs := by
  simp [deliveredData]

@[simp] theorem finCount_append (streamId : Nat) (log evs : List Event) :
    finCount streamId (log ++ evs) = finCount streamId log + finCount streamId evs := by
  simp [finCount]

/-- The bytes of the content `w` between two positions. -/
def slice (w : Nat → UInt8) (b e : Nat) : List UInt8 := (List.range (e - b)).map fun i => w (b + i)

@[simp] theorem slice_length (w : Nat → UInt8) (b e : Nat) : (slice w b e).length = e - b := by
  simp [slice]

@[simp] theorem slice_self (w : Nat → UInt8) (b : Nat) : slice w b b = [] := by simp [slice]

theorem slice_of_le (w : Nat → UInt8) {b e : Nat} (h : e ≤ b) : slice w b e = [] := by
  simp [slice, Nat.sub_eq_zero_of_le h]

theorem slice_append (w : Nat → UInt8) {b m e : Nat} (hbm : b ≤ m) (hme : m ≤ e) :
    slice w b m ++ slice w m e = slice w b e := by
  obtain ⟨k, rfl⟩ := Nat.exists_eq_add_of_le hbm
  obtain ⟨l, rfl⟩ := Nat.exists_eq_add_of_le hme
  have h₁ : b + k - b = k := by omega
  have h₂ : b + k + l - (b + k) = l := by omega
  have h₃ : b + k + l - b = k + l := by omega
  simp only [slice, h₁, h₂, h₃, List.range_add, List.map_append, List.map_map]
  congr 1
  exact List.map_congr_left fun i _ => by simp [Nat.add_assoc]

theorem slice_congr {w : Nat → UInt8} {b e : Nat} (w' : Nat → UInt8)
    (h : ∀ n, b ≤ n → n < e → w n = w' n) :
    slice w b e = slice w' b e := by
  refine List.map_congr_left fun i hi => h _ (Nat.le_add_right _ _) ?_
  have := List.mem_range.mp hi
  omega

/-- The events tell the application about one stream only, `data` in total and `fin` so often.
After `fin` nothing more is delivered. -/
structure Told (streamId : Nat) (evs : List Event) (data : List UInt8) (fins : Nat) : Prop where
  only : ∀ ev ∈ evs, ∃ fin d, ev = .recvStreamData streamId fin d
  data_eq : deliveredData streamId evs = data
  fins_eq : finCount streamId evs = fins
  ended : ∀ pre d post, evs = pre ++ .recvStreamData streamId true d :: post →
    deliveredData streamId post = []

theorem Told.nil (streamId : Nat) : Told streamId [] [] 0 := ⟨by simp, rfl, rfl, by simp⟩

theorem Told.cons {streamId : Nat} {evs : List Event} {data : List UInt8} {fins : Nat}
    (h : Told streamId evs data fins) (fin : Bool) (d : List UInt8)
    (hfin : fin = true → data = []) :
    Told streamId (.recvStreamData streamId fin d :: evs) (d ++ data)
    (fins + if fin then 1 else 0) := by
  refine ⟨fun ev hev => ?_, ?_, ?_, fun pre d' post heq => ?_⟩
  · rcases List.mem_cons.mp hev with rfl | hev
    · exact ⟨fin, d, rfl⟩
    · exact h.only ev hev
  · simp [deliveredData, evData, ← h.data_eq]
  · simp [finCount, isFinEv, List.countP_cons, ← h.fins_eq]
  · cases pre with
    | nil =>
      obtain ⟨hev, rfl⟩ := List.cons.inj heq
      obtain ⟨-, rfl, -⟩ := Event.recvStreamData.inj hev
      exact h.data_eq.trans (hfin rfl)
    | cons ev pre => exact h.ended pre d' post (List.cons.inj heq).2

namespace Conn

/-- Events appended to what the application was told. -/
def tells (conn : Conn) (evs : List Event) : Conn := { conn with log := conn.log ++ evs }

@[simp] theorem tells_nil (conn : Conn) : conn.tells [] = conn := by simp [tells]

@[simp] theorem tell_tells (conn : Conn) (ev : Event) (evs : List Event) :
    (conn.tell ev).tells evs = conn.tells (ev :: evs) := by simp [tells, tell]

@[simp] theorem tell_setStrm (conn : Conn) (ev : Event) (strm : Strm) :
    (conn.tell ev).setStrm strm = (conn.setStrm strm).tell ev := rfl

theorem setStrm_setStrm (conn : Conn) {strm strm' : Strm} (h : strm'.streamId = strm.streamId) :
    (conn.setStrm strm).setStrm strm' = conn.setStrm strm' := by
  simp only [setStrm, mk.injEq, true_and, and_true]
  funext id
  by_cases hid : id = strm.streamId <;> simp [h, hid]

@[simp] theorem setStrm_strms (conn : Conn) (strm : Strm) (id : Nat) :
    (conn.setStrm strm).strms id = if id = strm.streamId then some strm else conn.strms id := rfl

/-- Writing back what the map already holds changes nothing. -/
theorem setStrm_of_eq {conn : Conn} {strm : Strm} (h : conn.strms strm.streamId = some strm) :
    conn.setStrm strm = conn := by
  obtain ⟨⟩ := conn
  simp only [setStrm, mk.injEq, true_and, and_true]
  funext id
  by_cases hid : id = strm.streamId
  · subst hid
    simpa using h.symm
  · simp [hid]

@[simp] theorem tells_strms (conn : Conn) (evs : List Event) :
    (conn.tells evs).strms = conn.strms := rfl

@[simp] theorem tells_log (conn : Conn) (evs : List Event) :
    (conn.tells evs).log = conn.log ++ evs := rfl

end Conn

@[simp] theorem Strm.setRob_setRob (strm : Strm) (rob rob' : Rob) :
    (strm.setRob rob).setRob rob' = strm.setRob rob' := rfl

@[simp] theorem Strm.setRob_self (strm : Strm) : strm.setRob strm.rob = strm := rfl

@[simp] theorem Strm.setRob_rob (strm : Strm) (rob : Rob) : (strm.setRob rob).rob = rob := rfl

@[simp] theorem Strm.setRob_streamId (strm : Strm) (rob : Rob) :
    (strm.setRob rob).streamId = strm.streamId := rfl

@[simp] theorem Strm.setRob_shutRd (strm : Strm) (rob : Rob) :
    (strm.setRob rob).shutRd = strm.shutRd := rfl

@[simp] theorem Strm.setRob_lastRxOffset (strm : Strm) (rob : Rob) :
    (strm.setRob rob).lastRxOffset = strm.lastRxOffset := rfl

/-- A call into the application succeeds or fails; it is logged in both cases. -/
theorem connCall_cases (conn : Conn) (ev : Event) :
    connCall conn ev = (.ok (), conn.tell ev) ∨
      connCall conn ev = (.error .callbackFailure, conn.tell ev) := by
  unfold connCall
  split
  · exact .inl rfl
  · exact .inr rfl

/-- No byte at or beyond `last` was received. -/
def NothingFrom (gap : List Range) (last : Nat) : Prop :=
  ∀ n, last ≤ n → n < uint64Max → InGap gap n

theorem NothingFrom.firstGap_le {w : Nat → UInt8} {rx last : Nat} {rob : Rob}
    (h : NothingFrom rob.gap last)
    (hrob : RobInv w rx rob) (hl : last ≤ maxVarint) : robFirstGapOffset rob ≤ last :=
  hrob.gaps.firstGap_le (h last (Nat.le_refl _) (by unfold maxVarint uint64Max at *; omega))

/-- The emission loop delivers up to the first gap, or a callback fails on the way. It reports
the end of the stream with the last byte before `last_rx_offset`. -/
theorem connEmitPendingStreamData_spec (w : Nat → UInt8) :
    ∀ (fuel : Nat) (conn : Conn) (strm : Strm) (rx : Nat),
      RobInv w rx strm.rob → strm.rob.data.length +
      (if rx < strmRxOffset strm then 2 else 1) ≤ fuel →
      conn.strms strm.streamId = some strm → strmRxOffset strm ≤ strm.lastRxOffset →
      (∃ conn', connEmitPendingStreamData fuel conn strm rx = (.error .callbackFailure, conn')) ∨
        ∃ rob' evs,
          connEmitPendingStreamData fuel conn strm rx =
            (.ok (strm.setRob rob'), (conn.setStrm (strm.setRob rob')).tells evs) ∧
          RobInv w (strmRxOffset strm) rob' ∧ rob'.gap = strm.rob.gap ∧
          Told strm.streamId evs (slice w rx (strmRxOffset strm))
            (if rx < strmRxOffset strm ∧ strm.shutRd ∧ strmRxOffset strm = strm.lastRxOffset
              then 1 else 0) := by
  intro fuel
  induction fuel with
  | zero =>
    intro conn strm rx _ hf
    split at hf <;> omega
  | succ fuel ih =>
    intro conn strm rx hrob hf hfind hlast
    by_cases hrx : rx < strmRxOffset strm
    · obtain ⟨k, rob', hk, hle, hdata, hpop, hrob', hgap, hdec⟩ := hrob.dataAt hrx
      have hfirst : robFirstGapOffset rob' = strmRxOffset strm := by
        rw [strmRxOffset, robFirstGapOffset, robFirstGapOffset, hgap]
      have hle' : rx + k ≤ strmRxOffset strm := hle
      have hslice : (List.range k).map (fun i => w (rx + i)) = slice w rx (rx + k) := by
        simp [slice]
      have hlen : (slice w rx (rx + k)).length = k := by simp
      rw [hslice] at hdata
      unfold connEmitPendingStreamData
      simp only [hdata, hlen, Nat.ne_of_gt hk, ↓reduceIte]
      generalize hev : Event.recvStreamData strm.streamId
        (strm.shutRd && rx + k == strm.lastRxOffset)
        (slice w rx (rx + k)) = ev
      rcases connCall_cases conn ev with hcall | hcall
      · simp only [connCallRecvStreamData, hev, hcall, andThen_ok, hpop]
        have hfuel : rob'.data.length +
          (if rx + k < robFirstGapOffset rob' then 2 else 1) ≤ fuel := by
          rw [hfirst]
          rw [if_pos hrx] at hf
          by_cases hlt : rx + k < strmRxOffset strm
          · have := hdec hlt
            rw [if_pos hlt]
            omega
          · rw [if_neg hlt]
            have : rob'.data.length ≤ strm.rob.data.length := by
              unfold robPop at hpop
              split at hpop
              · simp at hpop
              · next d ds hd =>
                obtain rfl := Option.some.inj hpop
                split <;> simp [hd]
            omega
        rcases ih ((conn.tell ev).setStrm (strm.setRob rob')) (strm.setRob rob') (rx + k)
          hrob' hfuel (if_pos rfl) (Nat.le_trans (Nat.le_of_eq hfirst) hlast) with ⟨conn',
            herr⟩ | hok
        · exact .inl ⟨conn', herr⟩
        · right
          obtain ⟨rob'', evs, heq, hrob'', hgap'', htold⟩ := hok
          have hrx' : strmRxOffset (strm.setRob rob') = strmRxOffset strm := hfirst
          rw [hrx'] at hrob'' htold
          refine ⟨rob'', ev :: evs, ?_, hrob'', hgap''.trans hgap, ?_⟩
          · rw [heq, Strm.setRob_setRob, Conn.setStrm_setStrm _ (by rfl), Conn.tell_setStrm,
              Conn.tell_tells]
          · change Told strm.streamId evs _ (if rx + k < strmRxOffset strm ∧ strm.shutRd = true ∧
              strmRxOffset strm = strm.lastRxOffset then 1 else 0) at htold
            have hcons := htold.cons (strm.shutRd && rx + k == strm.lastRxOffset)
              (slice w rx (rx + k)) fun hf => slice_of_le w (by
                simp only [Bool.and_eq_true, beq_iff_eq] at hf
                omega)
            rw [slice_append w (Nat.le_add_right _ _) hle', hev] at hcons
            refine ⟨hcons.only, hcons.data_eq, hcons.fins_eq.trans ?_, hcons.ended⟩
            by_cases hend : rx + k = strmRxOffset strm
            · rw [← hend]
              simp [hk]
            · have hlt : rx + k < strmRxOffset strm := by omega
              have hne : rx + k ≠ strm.lastRxOffset := by omega
              simp [hlt, hne, hrx]
      · left
        simp only [connCallRecvStreamData, hev, hcall, andThen_error]
        exact ⟨_, rfl⟩
    · have heq : rx = strmRxOffset strm := by
        have := hrob.le_firstGap
        exact Nat.le_antisymm this (Nat.le_of_not_lt hrx)
      right
      refine ⟨strm.rob, [], ?_, heq ▸ hrob, rfl, ?_⟩
      · unfold connEmitPendingStreamData
        simp only [hrob.dataAt_gap heq, List.length_nil, ↓reduceIte, ← heq, Conn.tells_nil]
        rw [Strm.setRob_self, Conn.setStrm_of_eq hfind]
      · have hnot : ¬(rx < strmRxOffset strm ∧ strm.shutRd = true ∧
            strmRxOffset strm = strm.lastRxOffset) := fun hc => hrx hc.1
        rw [if_neg hnot, heq, slice_self]
        exact Told.nil _

theorem list_drop_eq_slice (w : Nat → UInt8) {data : List UInt8} {offset rx : Nat}
    (hle : offset ≤ rx)
    (hw : ∀ i (hi : i < data.length), rx ≤ offset + i → w (offset + i) = data[i]) :
    data.drop (rx - offset) = slice w rx (offset + data.length) := by
  refine List.ext_getElem ?_ fun i h₁ h₂ => ?_
  · rw [List.length_drop, slice_length]
    omega
  · rw [List.length_drop] at h₁
    have he : offset + (rx - offset + i) = rx + i := by omega
    rw [List.getElem_drop, ← hw (rx - offset + i) (by omega) (by omega), he]
    simp [slice]

/-- What delivering one frame leaves behind: the new buffer and the events. -/
structure Delivery (w : Nat → UInt8) (strm : Strm) (fr : StreamFrame) (rob' : Rob)
    (evs : List Event) :
    Prop where
  rob : RobInv w (robFirstGapOffset rob') rob'
  gap : ∀ n, InGap rob'.gap n ↔ InGap strm.rob.gap n ∧ ¬(fr.offset ≤ n ∧ n < fr.endOffset)
  told : Told strm.streamId evs (slice w (strmRxOffset strm) (robFirstGapOffset rob'))
    (if strmRxOffset strm < robFirstGapOffset rob' ∧ strm.shutRd ∧
      robFirstGapOffset rob' = strm.lastRxOffset then 1 else 0)

section
variable {w₀ : Nat → UInt8} (w : Nat → UInt8) (conn : Conn) {strm : Strm} {fr : StreamFrame}

/-- A frame that continues the delivered prefix: its new bytes are passed on as they are. -/
theorem connRecvStreamDeliver_inOrder (hid : strm.streamId ≠ 0)
    (hrob : RobInv w₀ (strmRxOffset strm) strm.rob) (hin : fr.offset ≤ strmRxOffset strm)
    (hlt : strmRxOffset strm < fr.endOffset) (hend : fr.endOffset ≤ strm.lastRxOffset)
    (hlast : strm.lastRxOffset ≤ maxVarint) (hnothing : NothingFrom strm.rob.gap strm.lastRxOffset)
    (hw : ∀ i (hi : i < fr.data.length), strmRxOffset strm ≤ fr.offset + i →
      w (fr.offset + i) = fr.data[i])
    (hw₀ : ∀ n, fr.endOffset ≤ n → ¬InGap strm.rob.gap n → w n = w₀ n) :
    (∃ conn', connRecvStreamDeliver conn strm fr (strmRxOffset strm) = (.error .callbackFailure,
    conn')) ∨
      ∃ rob' evs, connRecvStreamDeliver conn strm fr (strmRxOffset strm) =
          ngtcp2ConnCloseStreamIfShutRdwr ((conn.setStrm (strm.setRob rob')).tells evs)
            (strm.setRob rob') 0 ∧ Delivery w strm fr rob' evs := by
  have hdata := list_drop_eq_slice w hin hw
  have hrx' : strmRxOffset strm + (slice w (strmRxOffset strm) fr.endOffset).length =
    fr.endOffset := by
    rw [slice_length]
    omega
  obtain ⟨hrob₁, hgap₁⟩ := hrob.removePrefix (Nat.le_of_lt hlt) (Nat.le_trans hend hlast)
  have hrob₂ : RobInv w fr.endOffset (robRemovePrefix strm.rob fr.endOffset) :=
    hrob₁.congr fun n hn hg => hw₀ n hn fun hc => hg ((hgap₁ n).mpr ⟨hc, hn⟩)
  have hle₁ : robFirstGapOffset (robRemovePrefix strm.rob fr.endOffset) ≤ strm.lastRxOffset :=
    hrob₁.gaps.firstGap_le ((hgap₁ _).mpr ⟨hnothing _ (Nat.le_refl _)
      (by unfold maxVarint uint64Max at *; omega), hend⟩)
  have hge₁ := hrob₂.le_firstGap
  unfold connRecvStreamDeliver
  change fr.data.drop _ = slice w _ fr.endOffset at hdata
  simp only [hin, ↓reduceIte, hdata, hrx', Strm.setRob_streamId, hid, Strm.setRob_shutRd,
    Strm.setRob_lastRxOffset, Strm.setRob_rob, connCallRecvStreamData]
  generalize hev : Event.recvStreamData strm.streamId
    (strm.shutRd && fr.endOffset == strm.lastRxOffset)
    (slice w (strmRxOffset strm) fr.endOffset) = ev
  rcases connCall_cases (conn.setStrm (strm.setRob (robRemovePrefix strm.rob fr.endOffset))) ev
    with hcall | hcall
  · simp only [hcall, andThen_ok]
    rcases connEmitPendingStreamData_spec w (emitFuel (robRemovePrefix strm.rob fr.endOffset))
      ((conn.setStrm (strm.setRob (robRemovePrefix strm.rob fr.endOffset))).tell ev)
      (strm.setRob (robRemovePrefix strm.rob fr.endOffset)) fr.endOffset hrob₂
      (by rw [Strm.setRob_rob]; unfold emitFuel; split <;> omega)
      (if_pos rfl) hle₁ with ⟨conn', herr⟩ | hok
    · left
      simp only [herr, andThen_error]
      exact ⟨_, rfl⟩
    · right
      obtain ⟨rob', evs, heq, hrob', hgap', htold⟩ := hok
      rw [Strm.setRob_rob] at hgap'
      have hfirst : robFirstGapOffset rob' =
          robFirstGapOffset (robRemovePrefix strm.rob fr.endOffset) := by
        rw [robFirstGapOffset, robFirstGapOffset, hgap']
      refine ⟨rob', ev :: evs, ?_, ⟨by rw [hfirst]; exact hrob', fun n => ?_, ?_⟩⟩
      · rw [heq, andThen_ok, Strm.setRob_setRob, Conn.tell_setStrm, Conn.setStrm_setStrm _ (by rfl),
          Conn.tell_tells]
      · rw [hgap', hgap₁]
        refine and_congr_right fun hn => ?_
        have : strmRxOffset strm ≤ n := hrob.gaps.firstGap_le hn
        omega
      · change Told strm.streamId evs (slice w fr.endOffset
            (robFirstGapOffset (robRemovePrefix strm.rob fr.endOffset)))
          (if fr.endOffset < robFirstGapOffset (robRemovePrefix strm.rob fr.endOffset) ∧
            strm.shutRd = true ∧ robFirstGapOffset (robRemovePrefix strm.rob fr.endOffset) =
              strm.lastRxOffset then 1 else 0) at htold
        have hcons := htold.cons (strm.shutRd && fr.endOffset == strm.lastRxOffset)
          (slice w (strmRxOffset strm) fr.endOffset) fun hf => slice_of_le w (by
            simp only [Bool.and_eq_true, beq_iff_eq] at hf
            omega)
        rw [slice_append w (Nat.le_of_lt hlt) hge₁, hev] at hcons
        rw [hfirst]
        refine ⟨hcons.only, hcons.data_eq, hcons.fins_eq.trans ?_, hcons.ended⟩
        simp only [strmRxOffset] at hge₁ ⊢
        by_cases he : fr.endOffset = strm.lastRxOffset
        · have hf : robFirstGapOffset (robRemovePrefix strm.rob fr.endOffset) =
            strm.lastRxOffset := by
            omega
          have hlt' : robFirstGapOffset strm.rob < strm.lastRxOffset := by
            have : robFirstGapOffset strm.rob < fr.endOffset := hlt
            omega
          rw [hf, he]
          simp [hlt']
        · have hlt' : robFirstGapOffset strm.rob <
              robFirstGapOffset (robRemovePrefix strm.rob fr.endOffset) := by
            have : robFirstGapOffset strm.rob < fr.endOffset := hlt
            omega
          simp only [he, hlt', true_and, beq_iff_eq, Bool.and_eq_true, and_false, ↓reduceIte,
            Nat.add_zero]
          by_cases hf : robFirstGapOffset (robRemovePrefix strm.rob fr.endOffset) =
            strm.lastRxOffset
          · have : fr.endOffset < robFirstGapOffset (robRemovePrefix strm.rob fr.endOffset) := by
              omega
            simp only [this, true_and]
          · simp only [hf, and_false, ↓reduceIte]
  · left
    simp only [hcall, andThen_error]
    exact ⟨_, rfl⟩

/-- A frame beyond the first gap is only stored. -/
theorem connRecvStreamDeliver_buffered (hrob : RobInv w₀ (strmRxOffset strm) strm.rob)
    (hout : strmRxOffset strm < fr.offset) (hmax : fr.endOffset ≤ maxVarint)
    (hw : ∀ i (hi : i < fr.data.length), InGap strm.rob.gap (fr.offset + i) →
      w (fr.offset + i) = fr.data[i])
    (hw₀ : ∀ n, ¬InGap strm.rob.gap n → w n = w₀ n) :
    ∃ rob', connRecvStreamDeliver conn strm fr (strmRxOffset strm) =
        ngtcp2ConnCloseStreamIfShutRdwr ((conn.setStrm (strm.setRob rob')).tells [])
          (strm.setRob rob') 0 ∧ Delivery w strm fr rob' [] := by
  obtain ⟨hrob', hgap'⟩ := (hrob.congr fun n _ hg => hw₀ n hg).push hmax hw
  have hfirst : robFirstGapOffset (robPush strm.rob fr.offset fr.data) = strmRxOffset strm := by
    refine hrob'.gaps.firstGap_eq ((hgap' _).mpr ⟨hrob.inGap_firstGap, ?_⟩) fun m hm hg => ?_
    · have : robFirstGapOffset strm.rob = strmRxOffset strm := rfl
      omega
    · exact hrob.not_inGap_of_lt hm ((hgap' m).mp hg).1
  refine ⟨robPush strm.rob fr.offset fr.data, ?_, ⟨hfirst ▸ hrob', fun n => hgap' n, ?_⟩⟩
  · unfold connRecvStreamDeliver
    have hnot : ¬fr.offset ≤ strmRxOffset strm := by omega
    simp only [hnot, ↓reduceIte, andThen_ok, strmRecvReordering, Conn.tells_nil]
  · rw [hfirst, slice_self, if_neg fun hc => Nat.lt_irrefl _ hc.1]
    exact Told.nil _
end

end Ngtcp2
