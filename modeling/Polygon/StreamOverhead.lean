import Polygon.StreamAccepted

/-!
# The room for the header of a STREAM frame

`ngtcp2_conn_write_stream` keeps `NGTCP2_STREAM_OVERHEAD` bytes of the packet free for what stands
before the data. That is one type byte and three varints, which can need more: the bound holds as
long as at most one of them is a wide one.
-/
namespace Ngtcp2

/-- At most one of the three takes eight bytes, and if one does, not both others four. -/
def NarrowHeader (streamId offset datalen : Nat) : Prop :=
  ¬(2 ^ 30 ≤ streamId ∧ 2 ^ 30 ≤ offset) ∧ ¬(2 ^ 30 ≤ streamId ∧ 2 ^ 30 ≤ datalen) ∧
    ¬(2 ^ 30 ≤ offset ∧ 2 ^ 30 ≤ datalen) ∧
    ¬(2 ^ 14 ≤ streamId ∧ 2 ^ 14 ≤ offset ∧ 2 ^ 14 ≤ datalen ∧
      (2 ^ 30 ≤ streamId ∨ 2 ^ 30 ≤ offset ∨ 2 ^ 30 ≤ datalen))

/-- The bytes before the data of a STREAM frame; an offset of zero is left out. -/
def streamHeaderLen (streamId offset datalen : Nat) : Nat :=
  1 + (putVarint streamId).length + (if offset ≠ 0 then (putVarint offset).length else 0) +
    (putVarint datalen).length

section
variable {conn : Conn} {destlen streamId offset datalen ts n : Nat} {fin : Bool}
  {data : List UInt8} {strm : Strm} {hd : PktHd} {ckm : CryptoKm} {ppe : Ppe}

/-- The widths of a varint. -/
theorem putVarint_width (n : Nat) :
    (n < 2 ^ 6 ∧ (putVarint n).length = 1) ∨
      (2 ^ 6 ≤ n ∧ n < 2 ^ 14 ∧ (putVarint n).length = 2) ∨
      (2 ^ 14 ≤ n ∧ n < 2 ^ 30 ∧ (putVarint n).length = 4) ∨
      (2 ^ 30 ≤ n ∧ (putVarint n).length = 8) := by
  unfold putVarint
  split
  · next h₁ => exact .inl ⟨h₁, rfl⟩
  next h₁ =>
  split
  · next h₂ => exact .inr (.inl ⟨Nat.le_of_not_lt h₁, h₂, by rw [orFirst_length]; rfl⟩)
  next h₂ =>
  split
  · next h₃ => exact .inr (.inr (.inl ⟨Nat.le_of_not_lt h₂, h₃, by rw [orFirst_length]; rfl⟩))
  · next h₃ => exact .inr (.inr (.inr ⟨Nat.le_of_not_lt h₃, by rw [orFirst_length]; rfl⟩))

theorem streamHeaderLen_le_iff (streamId offset datalen : Nat) :
    streamHeaderLen streamId offset datalen ≤ streamOverhead ↔
      NarrowHeader streamId offset datalen := by
  have hid := putVarint_width streamId
  have hlen := putVarint_width datalen
  have hoffset : (offset = 0 ∧ (if offset ≠ 0 then (putVarint offset).length else 0) = 0) ∨
      (if offset ≠ 0 then (putVarint offset).length else 0) = (putVarint offset).length := by
    by_cases hzero : offset = 0
    · exact .inl ⟨hzero, if_neg (fun hne => hne hzero)⟩
    · exact .inr (if_pos hzero)
  have hwidth := putVarint_width offset
  have hmax : streamOverhead = 15 := rfl
  unfold streamHeaderLen NarrowHeader
  omega

theorem streamBytes_length (fr : StreamFrame) : (streamBytes fr).length =
    streamHeaderLen fr.streamId fr.offset fr.data.length + fr.data.length := by
  unfold streamBytes streamHeaderLen
  split <;> simp <;> omega

theorem frameLen_stream {fr : StreamFrame} (hid : fr.streamId < 2 ^ 62) (hoffset : fr.offset < 2 ^ 62)
    (hlen : fr.data.length < 2 ^ 62) :
    frameLen (.stream fr) =
      some (streamHeaderLen fr.streamId fr.offset fr.data.length + fr.data.length) := by
  have hvarints : ∀ n ∈ (if fr.offset = 0 then [] else [fr.offset]) ++ [fr.streamId, fr.data.length],
      n ≤ maxVarint := by
    intro n hn
    unfold maxVarint
    split at hn <;> simp at hn <;> omega
  simp only [frameLen]
  rw [putVarintsLen_eq hvarints, Option.map_some]
  unfold streamHeaderLen
  split <;> simp_all <;> omega

/-- A call of `ngtcp2_conn_write_stream` that comes to its frame. -/
structure WritesStream (conn : Conn) (destlen streamId : Nat) (data : List UInt8) (strm : Strm)
    (hd : PktHd) (ckm : CryptoKm) (ppe : Ppe) : Prop where
  pktNum : conn.lastTxPktNum ≠ uint64Max
  find : conn.strms streamId = some strm
  unshut : strm.shutWr = false
  header : writeStreamHd conn = .ok (hd, ckm)
  begun : ppeEncodeHd destlen conn.aeadOverhead (some ckm) hd = .ok ppe
  room : streamOverhead < ppeLeft ppe
  unblocked : ¬(0 < data.length ∧ writeStreamLen conn strm (ppeLeft ppe) data.length = 0)
  sent : (connCallSendPkt conn hd).1 = .ok ()

theorem writeStreamLen_le (conn : Conn) (strm : Strm) (left datalen : Nat) :
    writeStreamLen conn strm left datalen ≤ datalen := by
  unfold writeStreamLen
  exact Nat.le_trans (Nat.min_le_left _ _)
    (Nat.le_trans (Nat.min_le_left _ _) (Nat.min_le_left _ _))

/-- The encoder has no room left exactly when the frame is longer than what is left. -/
theorem ppeEncodeFrame_noBuf_iff {fr : Frame} {len : Nat} (hroom : 0 < ppeLeft ppe)
    (hlen : frameLen fr = some len) : ppeEncodeFrame ppe fr = .error .noBuf ↔ ppeLeft ppe < len := by
  have hoverhead : ¬ppe.destlen - ppe.len < ppe.aeadOverhead := by
    unfold ppeLeft at hroom
    omega
  unfold ppeEncodeFrame
  rw [if_neg hoverhead, hlen]
  dsimp only
  change (if ppeLeft ppe < len then _ else _) = _ ↔ _
  split
  · next hlt => exact iff_of_true rfl hlt
  · next hle => exact iff_of_false nofun hle

/-- What happens behind the frame does not lack room. -/
theorem WritesStream.noBuf_iff (h : WritesStream conn destlen streamId data strm hd ckm ppe)
    (fin : Bool) (ts : Nat) :
    (ngtcp2ConnWriteStream conn destlen streamId fin data ts).1 = .error .noBuf ↔
      ppeEncodeFrame ppe (.stream ⟨streamId, strm.txOffset,
        data.take (writeStreamLen conn strm (ppeLeft ppe) data.length),
        fin && writeStreamLen conn strm (ppeLeft ppe) data.length == data.length⟩) =
          .error .noBuf := by
  unfold ngtcp2ConnWriteStream
  rw [if_neg h.pktNum, h.find]
  dsimp only
  rw [if_neg (by simp [h.unshut]), h.header]
  dsimp only
  rw [h.begun]
  dsimp only
  rw [if_neg (Nat.not_le_of_lt h.room), if_neg h.unblocked]
  generalize writeStreamLen conn strm (ppeLeft ppe) data.length = n
  obtain ⟨_, hcall⟩ : ∃ conn₁, connCallSendPkt conn hd = (.ok (), conn₁) :=
    ⟨_, Prod.ext h.sent rfl⟩
  rw [hcall, andThen_ok]
  split
  · next e henc =>
    rw [henc]
    exact ⟨fun he => congrArg Except.error (Except.error.inj he),
      fun he => congrArg Except.error (Except.error.inj he)⟩
  next ppe' henc =>
  refine iff_of_false (fun hno => ?_) (by rw [henc]; nofun)
  -- the callbacks and the last step report other errors
  generalize hend : Result.andThen (connCallSendFrame _ _ _) _ = r at hno
  obtain ⟨rv, conn₂⟩ := r
  obtain rfl : rv = .error .noBuf := hno
  rcases andThen_cases hend with ⟨e, hframe, he⟩ | ⟨_, conn₃, -, hend⟩
  · have hcallback := (connCallSendFrame_quiet hframe).2 e rfl
    rw [hcallback] at he
    cases he
  rcases andThen_cases hend with ⟨e, hfinal, he⟩ | ⟨pkt, conn₄, -, hend⟩
  · rcases ppeFinal_error hfinal with hhard | hhard <;> rw [hhard] at he <;> cases he
  · cases hend

/-- The bound holds for narrow headers, and a call that found more room than the bound encodes its
frame when the header is narrow or the data leaves more room. -/
theorem streamOverhead_iff (fr : StreamFrame) (conn : Conn) (destlen streamId : Nat) (fin : Bool)
    (data : List UInt8) (ts : Nat) :
    (fr.streamId < 2 ^ 62 → fr.offset < 2 ^ 62 → fr.data.length < 2 ^ 62 →
      ((streamBytes fr).length ≤ fr.data.length + streamOverhead ↔
        NarrowHeader fr.streamId fr.offset fr.data.length)) ∧
    ∀ strm hd ckm ppe n,
      WritesStream conn destlen streamId data strm hd ckm ppe →
      n = writeStreamLen conn strm (ppeLeft ppe) data.length →
      streamId < 2 ^ 62 → strm.txOffset < 2 ^ 62 → data.length < 2 ^ 62 →
        ((ngtcp2ConnWriteStream conn destlen streamId fin data ts).1 ≠ .error .noBuf ↔
          (NarrowHeader streamId strm.txOffset n ∨
            streamHeaderLen streamId strm.txOffset n + n ≤ ppeLeft ppe)) := by
  refine ⟨fun _ _ _ => ?_, fun strm hd ckm ppe n h hn hid hoffset hlen => ?_⟩
  · rw [streamBytes_length, ← streamHeaderLen_le_iff]
    omega
  · have hle := writeStreamLen_le conn strm (ppeLeft ppe) data.length
    have hleft : writeStreamLen conn strm (ppeLeft ppe) data.length ≤
        ppeLeft ppe - streamOverhead := by
      unfold writeStreamLen
      exact Nat.le_trans (Nat.min_le_left _ _)
        (Nat.le_trans (Nat.min_le_left _ _) (Nat.min_le_right _ _))
    have hroom := h.room
    rw [Ne, h.noBuf_iff fin ts, ← streamHeaderLen_le_iff]
    rw [← hn] at hle hleft ⊢
    have htake : (data.take n).length = n := by
      rw [List.length_take]
      omega
    have hframe : frameLen (.stream ⟨streamId, strm.txOffset, data.take n, fin && n == data.length⟩) =
        some (streamHeaderLen streamId strm.txOffset n + n) := by
      rw [frameLen_stream hid hoffset (by dsimp only; omega)]
      dsimp only
      rw [htake]
    rw [ppeEncodeFrame_noBuf_iff (by omega) hframe]
    omega

end

/-- An established server with a stream of the peer on which it has sent `2 ^ 30` bytes. -/
def longLived : Conn :=
  { establishedServer.setStrm
      ((strmInit (2 ^ 30) (2 ^ 31) (2 ^ 31) fun _ => 0).setTxOffset (2 ^ 30)) with
    maxTxOffset := 2 ^ 31
    txOffset := 2 ^ 30 }

/-- One byte of data does not go into a packet with room for it and the bound. -/
theorem streamOverhead_exceeded :
    ¬(streamBytes ⟨2 ^ 30, 2 ^ 30, [1], false⟩).length ≤ 1 + streamOverhead ∧
      ∃ strm hd ckm ppe, WritesStream longLived 26 (2 ^ 30) [1] strm hd ckm ppe ∧
        streamOverhead < ppeLeft ppe ∧
        (ngtcp2ConnWriteStream longLived 26 (2 ^ 30) false [1] 5).1 = .error .noBuf := by
  refine ⟨by decide, _, _, _, _, ⟨by decide, rfl, rfl, rfl, rfl, ?_, ?_, rfl⟩, ?_, rfl⟩
  · decide
  · decide
  · decide

/-- It goes into a larger one, with the same header. -/
theorem streamOverhead_iff_larger :
    (ngtcp2ConnWriteStream longLived 100 (2 ^ 30) false [1] 5).1 ≠ .error .noBuf ∧
      (streamBytes ⟨4, 100, [1], true⟩).length ≤ 1 + streamOverhead :=
  have h := streamOverhead_iff ⟨4, 100, [1], true⟩ longLived 100 (2 ^ 30) false [1] 5
  ⟨(h.2 _ _ _ _ 1 ⟨by decide, rfl, rfl, rfl, rfl, by decide, by decide, rfl⟩ rfl (by decide)
      (by decide) (by decide)).mpr (.inr (by decide)),
    (h.1 (by decide) (by decide) (by decide)).mpr (by unfold NarrowHeader; decide)⟩

end Ngtcp2
