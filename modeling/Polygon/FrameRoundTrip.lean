import Polygon.FrameCodec

/-!
# Frames survive the wire

Every frame whose fields are in the range of the wire format is encoded into the
bytes its length promises, and decoding these bytes, whatever follows them, gives
the same frame and the same length.
-/
namespace Ngtcp2

/-! ## Varints inside a frame -/

section
variable {n len payloadlen : Nat} (h : n ≤ maxVarint)
include h

theorem getVarint_put (rest : List UInt8) : getVarint (putVarint n ++ rest) = (n, rest) :=
  (getVarint_putVarint h rest).1

theorem checkVarint_put (rest : List UInt8) (hlen : len + ((putVarint n).length - 1) ≤ payloadlen) :
    checkVarint payloadlen len (putVarint n ++ rest) =
    .ok (len + ((putVarint n).length - 1), rest) := by
  unfold checkVarint
  dsimp only
  rw [(getVarint_putVarint h rest).2, List.drop_left]
  exact if_neg (Nat.not_lt.mpr hlen)

theorem checkNextVarint_put (rest : List UInt8) (hlen : len + (putVarint n).length ≤ payloadlen) :
    checkNextVarint payloadlen len (putVarint n ++ rest) =
    .ok (len + (putVarint n).length, rest) := by
  have hpos := putVarint_length_pos n
  unfold checkNextVarint
  rw [if_neg (by omega), checkVarint_put h rest (by omega)]
  congr 2
  omega

end

/-- A decoder whose cursor has moved over the bytes it counted. -/
theorem decodedFrame_read {payload p : List UInt8} {len : Nat} (fr : Frame) (flags : Nat)
    (h : payload.length = len + p.length) :
    decodedFrame payload len p fr flags = .ok ⟨len, fr, flags⟩ := by
  unfold decodedFrame
  exact if_pos (by omega)

/-! ## One lemma for each layout -/

theorem decodeVarintFrame_put {n : Nat} (h : n ≤ maxVarint) (frame : Nat → Frame) (type : UInt8)
    (rest : List UInt8) :
    decodeVarintFrame (type :: putVarint n ++ rest) frame =
      .ok ⟨(type :: putVarint n).length, frame n, 0⟩ := by
  have hpos := putVarint_length_pos n
  unfold decodeVarintFrame
  simp only [List.cons_append, List.drop_succ_cons, List.drop_zero, List.length_cons,
    List.length_append]
  rw [if_neg (by omega), checkVarint_put h rest (by omega)]
  simp only [Except.bind, getVarint_put h]
  rw [decodedFrame_read]
  · congr 2
    omega
  · simp only [List.length_cons, List.length_append]
    omega

theorem decodeVarintsFrame_put {n₁ n₂ : Nat} (h₁ : n₁ ≤ maxVarint) (h₂ : n₂ ≤ maxVarint)
    (frame : Nat → Nat → Frame) (type : UInt8) (rest : List UInt8) :
    decodeVarintsFrame (type :: putVarint n₁ ++ putVarint n₂ ++ rest) frame =
      .ok ⟨(type :: putVarint n₁ ++ putVarint n₂).length, frame n₁ n₂, 0⟩ := by
  have hpos₁ := putVarint_length_pos n₁
  have hpos₂ := putVarint_length_pos n₂
  unfold decodeVarintsFrame
  simp only [List.cons_append, List.append_assoc, List.drop_succ_cons, List.drop_zero,
    List.length_cons,
    List.length_append]
  rw [if_neg (by omega), checkVarint_put h₁ _ (by omega)]
  simp only [Except.bind]
  rw [checkVarint_put h₂ _ (by omega)]
  simp only [getVarint_put h₁, getVarint_put h₂]
  rw [decodedFrame_read]
  · congr 2
    omega
  · simp only [List.length_cons, List.length_append]
    omega

theorem decodePing_put {data : List UInt8} (h : data.length ≤ 255) (frame : List UInt8 → Frame)
    (type : UInt8) (rest : List UInt8) :
    decodePing (pingBytes type data ++ rest) frame =
    .ok ⟨(pingBytes type data).length, frame data, 0⟩ := by
  have hlen : (UInt8.ofNat data.length).toNat = data.length := by
    rw [UInt8.toNat_ofNat']
    omega
  unfold decodePing pingBytes
  simp only [List.cons_append, List.drop_succ_cons, List.drop_zero, List.length_cons,
    List.length_append,
    List.headD_cons, hlen, List.drop_left, List.take_left]
  rw [if_neg (by omega), if_neg (by omega), decodedFrame_read]
  · congr 2
    omega
  · simp only [List.length_cons, List.length_append]
    omega

theorem decodeClose_put {code : Nat} {reason : List UInt8} (hcode : code < 2 ^ 16)
    (h : reason.length ≤ maxVarint) (frame : Nat → List UInt8 → Frame) (type : UInt8)
    (rest : List UInt8) :
    decodeClose (closeBytes type code reason ++ rest) frame =
      .ok ⟨(closeBytes type code reason).length, frame code reason, 0⟩ := by
  have hpos := putVarint_length_pos reason.length
  have hcodelen : (putUint16be code).length = 2 := BigEndian.put_length 2 code
  unfold decodeClose closeBytes
  have hdrop : (putUint16be code ++ (putVarint reason.length ++ (reason ++ rest))).drop 2 =
      putVarint reason.length ++ (reason ++ rest) := List.drop_left' hcodelen
  simp only [List.cons_append, List.append_assoc, List.drop_succ_cons, List.drop_zero,
    List.length_cons,
    List.length_append, hcodelen, hdrop, Nat.reduceAdd, getUint16_put hcode]
  rw [if_neg (by omega), checkVarint_put h _ (by omega)]
  simp only [Except.bind, getVarint_put h, List.drop_left, List.take_left]
  rw [if_neg (by omega), decodedFrame_read]
  · congr 2
    omega
  · simp only [List.length_cons, List.length_append, hcodelen]
    omega

theorem pktDecodeRstStreamFrame_put {fr : RstStreamFrame} (hid : fr.streamId ≤ maxVarint)
    (hcode : fr.appErrorCode < 2 ^ 16) (hoff : fr.finalOffset ≤ maxVarint) (type : UInt8)
    (rest : List UInt8) :
    pktDecodeRstStreamFrame (type :: putVarint fr.streamId ++ putUint16be fr.appErrorCode ++
        putVarint fr.finalOffset ++ rest) =
      .ok ⟨(type :: putVarint fr.streamId ++ putUint16be fr.appErrorCode ++
        putVarint fr.finalOffset).length, .rstStream fr, 0⟩ := by
  have hpos := putVarint_length_pos fr.streamId
  have hpos' := putVarint_length_pos fr.finalOffset
  have hcodelen : (putUint16be fr.appErrorCode).length = 2 := BigEndian.put_length 2 _
  have hdrop : (putUint16be fr.appErrorCode ++ (putVarint fr.finalOffset ++ rest)).drop 2 =
      putVarint fr.finalOffset ++ rest := List.drop_left' hcodelen
  unfold pktDecodeRstStreamFrame
  simp only [List.cons_append, List.append_assoc, List.drop_succ_cons, List.drop_zero,
    List.length_cons,
    List.length_append, hcodelen]
  rw [if_neg (by omega), checkVarint_put hid _ (by omega)]
  simp only [Except.bind, hdrop]
  rw [checkVarint_put hoff _ (by omega)]
  simp only [getVarint_put hid, getUint16_put hcode, hdrop, getVarint_put hoff]
  rw [decodedFrame_read]
  · congr 2
    omega
  · simp only [List.length_cons, List.length_append, hcodelen]
    omega

theorem pktDecodeStopSendingFrame_put {fr : StopSendingFrame} (hid : fr.streamId ≤ maxVarint)
    (hcode : fr.appErrorCode < 2 ^ 16) (type : UInt8) (rest : List UInt8) :
    pktDecodeStopSendingFrame (type :: putVarint fr.streamId ++ putUint16be fr.appErrorCode ++ rest) =
      .ok ⟨(type :: putVarint fr.streamId ++ putUint16be fr.appErrorCode).length, .stopSending fr,
      0⟩ := by
  have hpos := putVarint_length_pos fr.streamId
  have hcodelen : (putUint16be fr.appErrorCode).length = 2 := BigEndian.put_length 2 _
  have hdrop : (putUint16be fr.appErrorCode ++ rest).drop 2 = rest := List.drop_left' hcodelen
  unfold pktDecodeStopSendingFrame
  simp only [List.cons_append, List.append_assoc, List.drop_succ_cons, List.drop_zero,
    List.length_cons,
    List.length_append, hcodelen]
  rw [if_neg (by omega), checkVarint_put hid _ (by omega)]
  simp only [Except.bind, getVarint_put hid, getUint16_put hcode, hdrop]
  rw [decodedFrame_read]
  · congr 2
    omega
  · simp only [List.length_cons, List.length_append, hcodelen]
    omega

theorem pktDecodeNewConnectionIdFrame_put {seq connId : Nat} {token : List UInt8}
    (hseq : seq < 2 ^ 16)
    (hconnId : connId < 2 ^ 64) (htoken : token.length = statelessResetTokenLen) (type : UInt8)
    (rest : List UInt8) :
    pktDecodeNewConnectionIdFrame (type :: putVarint seq ++ putUint64be connId ++ token ++ rest) =
      .ok ⟨(type :: putVarint seq ++ putUint64be connId ++ token).length,
        .newConnectionId seq connId token, 0⟩ := by
  have hpos := putVarint_length_pos seq
  have hvar : seq ≤ maxVarint := by
    unfold maxVarint
    omega
  have hidlen : (putUint64be connId).length = 8 := BigEndian.put_length 8 _
  have hdrop : (putUint64be connId ++ (token ++ rest)).drop 8 = token ++ rest :=
    List.drop_left' hidlen
  have htake : (token ++ rest).take statelessResetTokenLen = token := List.take_left' htoken
  have hrest : (token ++ rest).drop statelessResetTokenLen = rest := List.drop_left' htoken
  unfold statelessResetTokenLen at htoken
  unfold pktDecodeNewConnectionIdFrame
  simp only [List.cons_append, List.append_assoc, List.drop_succ_cons, List.drop_zero,
    List.length_cons,
    List.length_append, hidlen]
  rw [if_neg (by omega), checkVarint_put hvar _ (by omega)]
  simp only [Except.bind, getVarint_put hvar, getUint64_put hconnId, hdrop, htake, hrest,
    Nat.mod_eq_of_lt hseq]
  rw [decodedFrame_read]
  · congr 2
    omega
  · simp only [List.length_cons, List.length_append, hidlen]
    omega

/-! ## STREAM frames -/

/-- The first byte of a STREAM frame holds the three bits. -/
theorem streamFlags_bits (fr : StreamFrame) :
    let type := (UInt8.ofNat (streamFlags fr ||| 0x10)).toNat
    hasMask type 0x10 = true ∧ decide (type &&& 0x04 ≠ 0) = decide (fr.offset ≠ 0) ∧
      decide (type &&& 0x02 ≠ 0) = true ∧ decide (type &&& 0x01 ≠ 0) = fr.fin ∧
      type &&& (0xff - 0x10) = streamFlags fr := by
  unfold streamFlags
  cases fr.fin <;> by_cases hoff : fr.offset = 0 <;> simp [hoff] <;> decide

/-- The offset of a STREAM frame is there when its bit is set, and is 0 otherwise. -/
theorem check_offset {offset len payloadlen : Nat} (h : offset ≤ maxVarint) (rest : List UInt8)
    (hlen : len + (if offset ≠ 0 then putVarint offset else []).length ≤ payloadlen) :
    (if decide (offset ≠ 0) = true then
        checkNextVarint payloadlen len ((if offset ≠ 0 then putVarint offset else []) ++ rest)
      else .ok (len, (if offset ≠ 0 then putVarint offset else []) ++ rest)) =
      .ok (len + (if offset ≠ 0 then putVarint offset else []).length, rest) := by
  by_cases hoff : offset = 0
  · simp [hoff]
  · simp only [hoff, ne_eq, not_false_eq_true, decide_true, if_true] at hlen ⊢
    exact checkNextVarint_put h rest hlen

theorem get_offset {offset : Nat} (h : offset ≤ maxVarint) (rest : List UInt8) :
    (if decide (offset ≠ 0) = true then getVarint ((if offset ≠ 0 then putVarint offset else []) ++ rest)
      else (0, (if offset ≠ 0 then putVarint offset else []) ++ rest)) = (offset, rest) := by
  by_cases hoff : offset = 0
  · simp [hoff]
  · simp only [hoff, ne_eq, not_false_eq_true, decide_true, if_true]
    exact getVarint_put h rest

/-- The values of a STREAM frame that the wire can carry. -/
structure StreamFrame.WireRange (fr : StreamFrame) : Prop where
  streamId : fr.streamId ≤ maxVarint
  offset : fr.offset ≤ maxVarint
  datalen : fr.data.length ≤ maxVarint

theorem pktDecodeStreamFrame_put {fr : StreamFrame} (h : fr.WireRange) (rest : List UInt8) :
    pktDecodeStreamFrame (streamBytes fr ++ rest) =
      .ok ⟨(streamBytes fr).length, .stream fr, streamFlags fr⟩ := by
  have hpos := putVarint_length_pos fr.streamId
  have hpos' := putVarint_length_pos fr.data.length
  obtain ⟨-, hoff, hlen, hfin, hflags⟩ := streamFlags_bits fr
  unfold pktDecodeStreamFrame streamBytes
  simp only [List.cons_append, List.append_assoc, List.drop_succ_cons, List.drop_zero,
    List.length_cons,
    List.length_append, List.headD_cons, hoff, hlen, hfin, hflags]
  rw [if_neg (by omega), checkVarint_put h.streamId _ (by omega)]
  simp only [Except.bind]
  rw [check_offset h.offset _ (by omega)]
  simp only [if_true]
  rw [checkNextVarint_put h.datalen _ (by omega)]
  simp only [getVarint_put h.datalen, getVarint_put h.streamId, get_offset h.offset, List.take_left,
    List.drop_left]
  rw [if_neg (by omega)]
  dsimp only
  rw [decodedFrame_read]
  · congr 2
    omega
  · simp only [List.length_cons, List.length_append]
    omega

/-! ## ACK frames -/

/-- The values of an ACK frame that the wire can carry. -/
structure AckFrame.WireRange (fr : AckFrame) : Prop where
  largestAck : fr.largestAck ≤ maxVarint
  ackDelay : fr.ackDelay ≤ maxVarint
  firstAckBlklen : fr.firstAckBlklen ≤ maxVarint
  numBlks : fr.blks.length ≤ maxAckBlks
  blks : ∀ blk ∈ fr.blks, blk.gap ≤ maxVarint ∧ blk.blklen ≤ maxVarint

theorem putAckBlks_length (blks : List AckBlk) :
    2 * blks.length ≤ (blks.flatMap putAckBlk).length := by
  induction blks with
  | nil => exact le_refl _
  | cons blk blks ih =>
    have hpos := putVarint_length_pos blk.gap
    have hpos' := putVarint_length_pos blk.blklen
    simp only [List.flatMap_cons, List.length_cons, List.length_append, putAckBlk]
    omega

section
variable {blks : List AckBlk} (h : ∀ blk ∈ blks, blk.gap ≤ maxVarint ∧ blk.blklen ≤ maxVarint)
include h

theorem getAckBlks_put (rest : List UInt8) :
    getAckBlks blks.length (blks.flatMap putAckBlk ++ rest) = (blks, rest) := by
  induction blks with
  | nil => rfl
  | cons blk blks ih =>
    obtain ⟨hgap, hlen⟩ := h blk List.mem_cons_self
    have hrest := ih fun b hb => h b (List.mem_cons_of_mem _ hb)
    simp only [List.flatMap_cons, List.length_cons, List.append_assoc, putAckBlk, getAckBlks,
      getVarint_put hgap, getVarint_put hlen]
    rw [hrest]

/-- Two bytes were counted for each block; the check adds what its varints take beyond them. -/
theorem checkVarints_blks {len payloadlen : Nat} (rest : List UInt8)
    (hlen : len + (blks.flatMap putAckBlk).length ≤ payloadlen + 2 * blks.length) :
    checkVarints payloadlen (2 * blks.length) len (blks.flatMap putAckBlk ++ rest) =
      .ok (len + ((blks.flatMap putAckBlk).length - 2 * blks.length), rest) := by
  induction blks generalizing len with
  | nil => rfl
  | cons blk blks ih =>
    obtain ⟨hgap, hblk⟩ := h blk List.mem_cons_self
    have hpos := putVarint_length_pos blk.gap
    have hpos' := putVarint_length_pos blk.blklen
    simp only [List.flatMap_cons, List.length_cons, List.append_assoc, List.length_append,
      putAckBlk] at hlen ⊢
    have hrest := @ih (fun b hb => h b (List.mem_cons_of_mem _ hb))
      (len + ((putVarint blk.gap).length - 1) + ((putVarint blk.blklen).length - 1)) (by omega)
    have hcount := putAckBlks_length blks
    have htwo : 2 * (blks.length + 1) = 2 * blks.length + 1 + 1 := by omega
    rw [htwo, checkVarints, checkVarint_put hgap _ (by omega)]
    simp only [Except.bind]
    rw [checkVarints, checkVarint_put hblk _ (by omega)]
    simp only [Except.bind]
    rw [hrest]
    congr 2
    omega

end

theorem pktDecodeAckFrame_put {fr : AckFrame} (h : fr.WireRange) (rest : List UInt8) :
    pktDecodeAckFrame (ackBytes fr ++ rest) = .ok ⟨(ackBytes fr).length, .ack fr, 0⟩ := by
  have hnum : fr.blks.length ≤ maxVarint := le_trans h.numBlks (by decide)
  have hpos₁ := putVarint_length_pos fr.largestAck
  have hpos₂ := putVarint_length_pos fr.ackDelay
  have hpos₃ := putVarint_length_pos fr.blks.length
  have hpos₄ := putVarint_length_pos fr.firstAckBlklen
  have hmin : min maxAckBlks fr.blks.length = fr.blks.length := Nat.min_eq_right h.numBlks
  have hblks := putAckBlks_length fr.blks
  unfold pktDecodeAckFrame ackBytes
  simp only [List.cons_append, List.append_assoc, List.drop_succ_cons, List.drop_zero,
    List.length_cons,
    List.length_append]
  rw [if_neg (by omega), checkVarint_put h.largestAck _ (by omega)]
  simp only [Except.bind]
  rw [checkVarint_put h.ackDelay _ (by omega)]
  simp only
  rw [checkVarint_put hnum _ (by omega)]
  simp only [getVarint_put hnum]
  rw [if_neg (by omega), checkVarint_put h.firstAckBlklen _ (by omega)]
  simp only
  rw [checkVarints_blks h.blks _ (by omega)]
  simp only [getVarint_put h.largestAck, getVarint_put h.ackDelay, (getVarint_putVarint hnum _).2,
    List.drop_left, getVarint_put h.firstAckBlklen, hmin, getAckBlks_put h.blks, Nat.sub_self,
      getAckBlks]
  rw [decodedFrame_read]
  · congr 2
    omega
  · simp only [List.length_cons, List.length_append]
    omega

/-! ## All frames -/

/-- The frames that the wire format can carry: varints below 2^62, the fields of the width of
their C type, at most 255 bytes in a PING, 255 additional blocks in an ACK. -/
def Frame.WireRange : Frame → Prop
  | .stream fr => fr.WireRange
  | .ack fr => fr.WireRange
  | .padding len => 0 < len
  | .rstStream fr => fr.streamId ≤ maxVarint ∧ fr.appErrorCode < 2 ^ 16 ∧ fr.finalOffset ≤ maxVarint
  | .connectionClose code reason => code < 2 ^ 16 ∧ reason.length ≤ maxVarint
  | .applicationClose code reason => code < 2 ^ 16 ∧ reason.length ≤ maxVarint
  | .maxData n => n ≤ maxVarint
  | .maxStreamData fr => fr.streamId ≤ maxVarint ∧ fr.maxStreamData ≤ maxVarint
  | .maxStreamId n => n ≤ maxVarint
  | .ping data => data.length ≤ 255
  | .blocked offset => offset ≤ maxVarint
  | .streamBlocked streamId offset => streamId ≤ maxVarint ∧ offset ≤ maxVarint
  | .streamIdBlocked streamId => streamId ≤ maxVarint
  | .newConnectionId seq connId token =>
    seq < 2 ^ 16 ∧ connId < 2 ^ 64 ∧ token.length = statelessResetTokenLen
  | .stopSending fr => fr.streamId ≤ maxVarint ∧ fr.appErrorCode < 2 ^ 16
  | .pong data => data.length ≤ 255

/-- PADDING takes every zero byte that follows it; no other frame looks at what follows. -/
def Frame.follows : Frame → List UInt8 → Prop
  | .padding _, rest => rest.head? ≠ some 0
  | _, _ => True

/-- The two sides of a frame: it is written as `bytes`, and read back from them. -/
structure OnWire (fr : Frame) (bytes : List UInt8) (flags : Nat) : Prop where
  len : frameLen fr = some bytes.length
  encode : ∀ outlen, pktEncodeFrame outlen fr = encodeBytes outlen (frameLen fr) bytes flags
  decode : ∀ rest, fr.follows rest →
    pktDecodeFrame (bytes ++ rest) = .ok (some ⟨bytes.length, fr, flags⟩)

/-- Values that have a length as varints are below `2 ^ 62`. -/
theorem le_of_putVarintLen {n l : Nat} (h : putVarintLen n = some l) : n ≤ maxVarint := by
  unfold putVarintLen at h
  unfold maxVarint
  split_ifs at h <;> omega

theorem le_of_putVarintsLen {ns : List Nat} {l : Nat} (h : putVarintsLen ns = some l) :
    ∀ n ∈ ns, n ≤ maxVarint := by
  induction ns generalizing l with
  | nil => exact fun n hn => absurd hn List.not_mem_nil
  | cons n ns ih =>
    unfold putVarintsLen at h
    rw [List.foldr_cons] at h
    obtain ⟨l₁, hn, h⟩ := Option.bind_eq_some_iff.mp h
    obtain ⟨l₂, hns, -⟩ := Option.map_eq_some_iff.mp h
    intro m hm
    rcases List.mem_cons.mp hm with rfl | hm
    · exact le_of_putVarintLen hn
    · exact ih hns m hm

/-- The lengths the encoders add up are those of the varints they write. -/
theorem putVarintsLen_eq {ns : List Nat} (h : ∀ n ∈ ns, n ≤ maxVarint) :
    putVarintsLen ns = some (ns.flatMap putVarint).length := by
  induction ns with
  | nil => rfl
  | cons n ns ih =>
    have hrest := ih fun m hm => h m (List.mem_cons_of_mem _ hm)
    unfold putVarintsLen at hrest ⊢
    rw [List.foldr_cons, hrest, putVarintLen_eq (h n List.mem_cons_self)]
    simp

theorem flatMap_ackBlks (blks : List AckBlk) :
    (blks.flatMap fun blk => [blk.gap, blk.blklen]).flatMap putVarint = blks.flatMap putAckBlk := by
  rw [List.flatMap_assoc]
  congr 1
  funext blk
  simp [putAckBlk]

/-- The decoder that the first byte selects decides. -/
theorem decode_selected {payload : List UInt8} {dec : Except Err Decoded} {d : Decoded}
    (hsel : pktDecodeFrame payload = Except.map some dec) (hdec : dec = .ok d) :
    pktDecodeFrame payload = .ok (some d) := by
  rw [hsel, hdec]
  rfl

theorem onWire_stream {fr : StreamFrame} (h : fr.WireRange) :
    OnWire (.stream fr) (streamBytes fr) (streamFlags fr) where
  len := by
    have hvar : ∀ n ∈ (if fr.offset = 0 then [] else [fr.offset]) ++ [fr.streamId, fr.data.length],
        n ≤ maxVarint := by
      intro n hn
      have := h.streamId
      have := h.offset
      have := h.datalen
      split at hn <;> simp at hn <;> omega
    simp only [frameLen]
    rw [putVarintsLen_eq hvar]
    unfold streamBytes
    by_cases hoff : fr.offset = 0 <;> simp [hoff] <;> omega
  encode := fun _ => rfl
  decode := by
    intro rest _
    obtain ⟨hmask, -⟩ := streamFlags_bits fr
    refine decode_selected ?_ (pktDecodeStreamFrame_put h rest)
    simp only [streamBytes, List.cons_append, pktDecodeFrame]
    rw [hmask, if_pos rfl]

theorem onWire_ack {fr : AckFrame} (h : fr.WireRange) : OnWire (.ack fr) (ackBytes fr) 0 where
  len := by
    have hvar : ∀ n ∈ [fr.largestAck, fr.ackDelay, fr.blks.length, fr.firstAckBlklen] ++
        fr.blks.flatMap fun blk => [blk.gap, blk.blklen], n ≤ maxVarint := by
      intro n hn
      have hnum : fr.blks.length ≤ maxVarint := le_trans h.numBlks (by decide)
      rcases List.mem_append.mp hn with hn | hn
      · simp only [List.mem_cons, List.not_mem_nil, or_false] at hn
        rcases hn with rfl | rfl | rfl | rfl
        · exact h.largestAck
        · exact h.ackDelay
        · exact hnum
        · exact h.firstAckBlklen
      · obtain ⟨blk, hblk, hn⟩ := List.mem_flatMap.mp hn
        obtain ⟨hgap, hlen⟩ := h.blks blk hblk
        simp only [List.mem_cons, List.not_mem_nil, or_false] at hn
        rcases hn with rfl | rfl
        · exact hgap
        · exact hlen
    simp only [frameLen]
    rw [putVarintsLen_eq hvar, List.flatMap_append, flatMap_ackBlks]
    unfold ackBytes
    simp
    omega
  encode := fun _ => rfl
  decode := by
    intro rest _
    exact decode_selected rfl (pktDecodeAckFrame_put h rest)

theorem takeWhile_zeros {rest : List UInt8} (h : rest.head? ≠ some 0) (n : Nat) :
    (List.replicate n 0 ++ rest).takeWhile (· == 0) = List.replicate n 0 := by
  induction n with
  | zero =>
    cases rest with
    | nil => rfl
    | cons b rest =>
      have hb : b ≠ 0 := fun hb => h (by rw [List.head?_cons, hb])
      simp [hb]
  | succ n ih => simpa [List.replicate_succ] using ih

theorem onWire_padding {len : Nat} (h : 0 < len) :
    OnWire (.padding len) (List.replicate len 0) 0 where
  len := by
    rw [List.length_replicate]
    rfl
  encode := fun _ => rfl
  decode := by
    intro rest hrest
    obtain ⟨n, rfl⟩ : ∃ n, len = n + 1 := ⟨len - 1, by omega⟩
    have hdec : pktDecodePaddingFrame (0 :: (List.replicate n 0 ++ rest)) =
      ⟨n + 1, .padding (n + 1), 0⟩ := by
      unfold pktDecodePaddingFrame
      simp only [List.drop_succ_cons, List.drop_zero, takeWhile_zeros hrest, List.length_replicate,
        Nat.add_comm 1 n]
    rw [List.length_replicate, List.replicate_succ, List.cons_append]
    exact decode_selected rfl (congrArg Except.ok hdec)

theorem onWire_rstStream {fr : RstStreamFrame} (hid : fr.streamId ≤ maxVarint)
    (hcode : fr.appErrorCode < 2 ^ 16) (hoff : fr.finalOffset ≤ maxVarint) :
    OnWire (.rstStream fr) (0x01 :: putVarint fr.streamId ++ putUint16be fr.appErrorCode ++
      putVarint fr.finalOffset) 0 where
  len := by
    have hvar : ∀ n ∈ [fr.streamId, fr.finalOffset], n ≤ maxVarint := by simp [hid, hoff]
    have hcodelen : (putUint16be fr.appErrorCode).length = 2 := BigEndian.put_length 2 _
    simp only [frameLen]
    rw [putVarintsLen_eq hvar]
    simp [hcodelen]
    omega
  encode := fun _ => rfl
  decode := fun rest _ => decode_selected rfl (pktDecodeRstStreamFrame_put hid hcode hoff _ rest)

theorem closeBytes_length {code : Nat} {reason : List UInt8} (h : reason.length ≤ maxVarint)
    (type : UInt8) :
    (putVarintLen reason.length).map (1 + 2 + · + reason.length) = some
    (closeBytes type code reason).length := by
  have hcodelen : (putUint16be code).length = 2 := BigEndian.put_length 2 _
  rw [putVarintLen_eq h]
  simp [closeBytes, hcodelen]
  omega

theorem onWire_connectionClose {code : Nat} {reason : List UInt8} (hcode : code < 2 ^ 16)
    (h : reason.length ≤ maxVarint) :
    OnWire (.connectionClose code reason) (closeBytes 0x02 code reason) 0 where
  len := closeBytes_length h _
  encode := fun _ => rfl
  decode := fun rest _ => decode_selected rfl (decodeClose_put hcode h _ _ rest)

theorem onWire_applicationClose {code : Nat} {reason : List UInt8} (hcode : code < 2 ^ 16)
    (h : reason.length ≤ maxVarint) :
    OnWire (.applicationClose code reason) (closeBytes 0x03 code reason) 0 where
  len := closeBytes_length h _
  encode := fun _ => rfl
  decode := fun rest _ => decode_selected rfl (decodeClose_put hcode h _ _ rest)

theorem varintBytes_length {n : Nat} (h : n ≤ maxVarint) (type : UInt8) :
    (putVarintLen n).map (1 + ·) = some (type :: putVarint n).length := by
  rw [putVarintLen_eq h]
  simp [Nat.add_comm]

theorem onWire_maxData {n : Nat} (h : n ≤ maxVarint) :
    OnWire (.maxData n) (0x04 :: putVarint n) 0 where
  len := varintBytes_length h _
  encode := fun _ => rfl
  decode := fun rest _ => decode_selected rfl (decodeVarintFrame_put h _ _ rest)

theorem onWire_maxStreamId {n : Nat} (h : n ≤ maxVarint) :
    OnWire (.maxStreamId n) (0x06 :: putVarint n) 0 where
  len := varintBytes_length h _
  encode := fun _ => rfl
  decode := fun rest _ => decode_selected rfl (decodeVarintFrame_put h _ _ rest)

theorem onWire_blocked {n : Nat} (h : n ≤ maxVarint) :
    OnWire (.blocked n) (0x08 :: putVarint n) 0 where
  len := varintBytes_length h _
  encode := fun _ => rfl
  decode := fun rest _ => decode_selected rfl (decodeVarintFrame_put h _ _ rest)

theorem onWire_streamIdBlocked {n : Nat} (h : n ≤ maxVarint) :
    OnWire (.streamIdBlocked n) (0x0a :: putVarint n) 0 where
  len := varintBytes_length h _
  encode := fun _ => rfl
  decode := fun rest _ => decode_selected rfl (decodeVarintFrame_put h _ _ rest)

theorem varintsBytes_length {n₁ n₂ : Nat} (h₁ : n₁ ≤ maxVarint) (h₂ : n₂ ≤ maxVarint)
    (type : UInt8) :
    (putVarintsLen [n₁, n₂]).map (1 + ·) = some (type :: putVarint n₁ ++ putVarint n₂).length := by
  have hvar : ∀ n ∈ [n₁, n₂], n ≤ maxVarint := by simp [h₁, h₂]
  rw [putVarintsLen_eq hvar]
  simp [Nat.add_comm]

theorem onWire_maxStreamData {fr : MaxStreamDataFrame} (hid : fr.streamId ≤ maxVarint)
    (hmax : fr.maxStreamData ≤ maxVarint) :
    OnWire (.maxStreamData fr) (0x05 :: putVarint fr.streamId ++ putVarint fr.maxStreamData) 0 where
  len := varintsBytes_length hid hmax _
  encode := fun _ => rfl
  decode := fun rest _ => decode_selected rfl
    (decodeVarintsFrame_put hid hmax (fun streamId maxStreamData => .maxStreamData ⟨streamId, maxStreamData⟩)
      _ rest)

theorem onWire_streamBlocked {streamId offset : Nat} (hid : streamId ≤ maxVarint)
    (hoff : offset ≤ maxVarint) :
    OnWire (.streamBlocked streamId offset) (0x09 :: putVarint streamId ++ putVarint offset) 0 where
  len := varintsBytes_length hid hoff _
  encode := fun _ => rfl
  decode := fun rest _ => decode_selected rfl (decodeVarintsFrame_put hid hoff _ _ rest)

theorem pingBytes_length (type : UInt8) (data : List UInt8) :
    some (1 + 1 + data.length) = some (pingBytes type data).length := by
  simp [pingBytes]
  omega

theorem onWire_ping {data : List UInt8} (h : data.length ≤ 255) :
    OnWire (.ping data) (pingBytes 0x07 data) 0 where
  len := pingBytes_length _ data
  encode := fun _ => rfl
  decode := fun rest _ => decode_selected rfl (decodePing_put h _ _ rest)

theorem onWire_pong {data : List UInt8} (h : data.length ≤ 255) :
    OnWire (.pong data) (pingBytes 0x0d data) 0 where
  len := pingBytes_length _ data
  encode := fun _ => rfl
  decode := fun rest _ => decode_selected rfl (decodePing_put h _ _ rest)

theorem onWire_newConnectionId {seq connId : Nat} {token : List UInt8} (hseq : seq < 2 ^ 16)
    (hconnId : connId < 2 ^ 64) (htoken : token.length = statelessResetTokenLen) :
    OnWire (.newConnectionId seq connId token)
    (0x0b :: putVarint seq ++ putUint64be connId ++ token) 0 where
  len := by
    have hvar : seq ≤ maxVarint := by
      unfold maxVarint
      omega
    have hidlen : (putUint64be connId).length = 8 := BigEndian.put_length 8 _
    unfold statelessResetTokenLen at htoken
    simp only [frameLen]
    rw [putVarintLen_eq hvar]
    simp [hidlen, htoken]
    omega
  encode := by
    intro outlen
    have htake : token.take statelessResetTokenLen = token :=
      List.take_of_length_le (le_of_eq htoken)
    simp only [pktEncodeFrame, pktEncodeNewConnectionIdFrame, htake]
  decode := fun rest _ =>
    decode_selected rfl (pktDecodeNewConnectionIdFrame_put hseq hconnId htoken _ rest)

theorem onWire_stopSending {fr : StopSendingFrame} (hid : fr.streamId ≤ maxVarint)
    (hcode : fr.appErrorCode < 2 ^ 16) :
    OnWire (.stopSending fr) (0x0c :: putVarint fr.streamId ++ putUint16be fr.appErrorCode) 0 where
  len := by
    have hcodelen : (putUint16be fr.appErrorCode).length = 2 := BigEndian.put_length 2 _
    simp only [frameLen]
    rw [putVarintLen_eq hid]
    simp [hcodelen]
    omega
  encode := fun _ => rfl
  decode := fun rest _ => decode_selected rfl (pktDecodeStopSendingFrame_put hid hcode _ rest)

theorem Frame.WireRange.onWire {fr : Frame} (h : fr.WireRange) :
    ∃ bytes flags, OnWire fr bytes flags := by
  cases fr with
  | stream fr => exact ⟨_, _, onWire_stream h⟩
  | ack fr => exact ⟨_, _, onWire_ack h⟩
  | padding len => exact ⟨_, _, onWire_padding h⟩
  | rstStream fr => exact ⟨_, _, onWire_rstStream h.1 h.2.1 h.2.2⟩
  | connectionClose code reason => exact ⟨_, _, onWire_connectionClose h.1 h.2⟩
  | applicationClose code reason => exact ⟨_, _, onWire_applicationClose h.1 h.2⟩
  | maxData n => exact ⟨_, _, onWire_maxData h⟩
  | maxStreamData fr => exact ⟨_, _, onWire_maxStreamData h.1 h.2⟩
  | maxStreamId n => exact ⟨_, _, onWire_maxStreamId h⟩
  | ping data => exact ⟨_, _, onWire_ping h⟩
  | blocked offset => exact ⟨_, _, onWire_blocked h⟩
  | streamBlocked streamId offset => exact ⟨_, _, onWire_streamBlocked h.1 h.2⟩
  | streamIdBlocked streamId => exact ⟨_, _, onWire_streamIdBlocked h⟩
  | newConnectionId seq connId token => exact ⟨_, _, onWire_newConnectionId h.1 h.2.1 h.2.2⟩
  | stopSending fr => exact ⟨_, _, onWire_stopSending h.1 h.2⟩
  | pong data => exact ⟨_, _, onWire_pong h⟩

/-- The round trip of every frame the wire can carry: a buffer of the frame's length is enough, an
encoder returns the number of bytes it wrote, and the decoder returns that number and the same
fields from these bytes, whatever follows them. -/
theorem pktDecodeFrame_encode {fr : Frame} (h : fr.WireRange) :
    (∃ len, frameLen fr = some len ∧ ∀ outlen, len ≤ outlen → ∃ e,
    pktEncodeFrame outlen fr = .ok e) ∧
    ∀ outlen e, pktEncodeFrame outlen fr = .ok e →
      e.bytes.length = e.len ∧
      ∀ rest, fr.follows rest → pktDecodeFrame (e.bytes ++ rest) =
      .ok (some ⟨e.len, fr, e.flags⟩) := by
  obtain ⟨bytes, flags, wire⟩ := h.onWire
  have hfits : ∀ outlen, bytes.length ≤ outlen →
    pktEncodeFrame outlen fr = .ok ⟨bytes.length, bytes, flags⟩ := by
    intro outlen hle
    rw [wire.encode, wire.len]
    simp [encodeBytes, Nat.not_lt.mpr hle]
  refine ⟨⟨bytes.length, wire.len, fun outlen hle => ⟨_, hfits outlen hle⟩⟩, ?_⟩
  intro outlen e he
  by_cases hle : bytes.length ≤ outlen
  · obtain rfl := Except.ok.inj ((hfits outlen hle).symm.trans he)
    exact ⟨rfl, wire.decode⟩
  · rw [wire.encode, wire.len, encodeBytes, if_pos (Nat.lt_of_not_le hle)] at he
    cases he

/-- A STREAM frame with an offset of two bytes and a FIN. -/
theorem pktDecodeFrame_encode_stream :
    (∃ len, frameLen (.stream ⟨4, 300, [7, 8], true⟩) = some len ∧ ∀ outlen, len ≤ outlen →
      ∃ e, pktEncodeFrame outlen (.stream ⟨4, 300, [7, 8], true⟩) = .ok e) ∧
    ∀ outlen e, pktEncodeFrame outlen (.stream ⟨4, 300, [7, 8], true⟩) = .ok e →
      e.bytes.length = e.len ∧
      ∀ rest, Frame.follows (.stream ⟨4, 300, [7, 8], true⟩) rest →
        pktDecodeFrame (e.bytes ++ rest) =
        .ok (some ⟨e.len, .stream ⟨4, 300, [7, 8], true⟩, e.flags⟩) :=
  pktDecodeFrame_encode (⟨by decide, by decide, by decide⟩ : StreamFrame.WireRange ⟨4, 300, [7, 8],
    true⟩)

end Ngtcp2
