import Polygon.ConnRecvPkt
import Polygon.Lib.Checked

/-!
# The memory the frame decoders read

The frame decoders once more, with every access to the payload and every addition of
`size_t` values as the source has them. They stay inside the payload, and compute
what the decoders of the codec compute.
-/
namespace Ngtcp2

open Checked

/-! ## Reading at a cursor -/

/-- `ngtcp2_get_varint_len`. -/
def readVarintLen (p : List UInt8) : Outcome Err Nat :=
    andThen (read 1 p) fun (byte, _) => ok (getVarintLen byte)

/-- `ngtcp2_get_varint` and `p += n`. -/
def readVarint (p : List UInt8) : Outcome Err (Nat × List UInt8) :=
  andThen (readVarintLen p) fun n => andThen (read n p) fun (bytes, p) => ok ((getVarint bytes).1,
    p)

/-- `p += n`. -/
def advance (n : Nat) (p : List UInt8) : Outcome Err (List UInt8) :=
    andThen (read n p) fun (_, p) => ok p

/-- The varint at `p` is made part of a frame that counted one byte for it. -/
def countVarint (payloadlen len : Nat) (p : List UInt8) : Outcome Err (Nat × List UInt8) :=
  andThen (readVarintLen p) fun n =>
  let len := addU64 len (n - 1)
  if payloadlen < len then error .frameFormat else andThen (advance n p) fun p => ok (len, p)

/-- An optional varint, not counted before. -/
def countNextVarint (payloadlen len : Nat) (p : List UInt8) : Outcome Err (Nat × List UInt8) :=
  let len := addU64 len 1
  if payloadlen < len then error .frameFormat else countVarint payloadlen len p

/-- `k` varints in a row. -/
def countVarints (payloadlen : Nat) : Nat → Nat → List UInt8 → Outcome Err (Nat × List UInt8)
  | 0, len, p => ok (len, p)
  | k + 1, len, p => andThen (countVarint payloadlen len p) fun (len, p) => countVarints payloadlen k len p

/-! ## The decoders -/

/-- `ngtcp2_pkt_decode_stream_frame`. -/
def readStreamFrame (payload : List UInt8) : Outcome Err Decoded :=
  let payloadlen := payload.length
  if payloadlen < 1 + 1 then error .frameFormat
  else
    andThen (read 1 payload) fun (byte, start) =>
    let type := (byte.headD 0).toNat
    let offBit := decide (type &&& 0x04 ≠ 0)
    let lenBit := decide (type &&& 0x02 ≠ 0)
    andThen (countVarint payloadlen (1 + 1) start) fun (len, p) =>
    andThen (if offBit then countNextVarint payloadlen len p else ok (len, p)) fun (len, p) =>
    andThen (if lenBit then
      andThen (countNextVarint payloadlen len p) fun (len, _) =>
      andThen (readVarint p) fun (datalen, _) =>
      let len := addU64 len datalen
      if payloadlen < len then error .frameFormat else ok len
    else ok len) fun len =>
    let flags := type &&& (0xff - 0x10)
    let fin := decide (type &&& 0x01 ≠ 0)
    andThen (readVarint start) fun (streamId, p) =>
    andThen (if offBit then readVarint p else ok (0, p)) fun (offset, p) =>
    if lenBit then
      andThen (readVarint p) fun (datalen, p) =>
      andThen (read datalen p) fun (data, p) =>
      some (decodedFrame payload len p (.stream ⟨streamId, offset, data, fin⟩) flags)
    else ok { len := payloadlen, fr := .stream ⟨streamId, offset, p, fin⟩, flags }

/-- The blocks of an ACK frame. -/
def readAckBlks : Nat → List UInt8 → Outcome Err (List AckBlk × List UInt8)
  | 0, p => ok ([], p)
  | k + 1, p =>
    andThen (readVarint p) fun (gap, p) =>
    andThen (readVarint p) fun (blklen, p) =>
    andThen (readAckBlks k p) fun (blks, p) => ok (⟨gap, blklen⟩ :: blks, p)

/-- `p += ngtcp2_get_varint_len(p)`, `k` times. -/
def skipVarints : Nat → List UInt8 → Outcome Err (List UInt8)
  | 0, p => ok p
  | k + 1, p => andThen (readVarintLen p) fun n => andThen (advance n p) fun p => skipVarints k p

/-- `ngtcp2_pkt_decode_ack_frame`. -/
def readAckFrame (payload : List UInt8) : Outcome Err Decoded :=
  let payloadlen := payload.length
  if payloadlen < 1 + 1 + 1 + 1 + 1 then error .frameFormat
  else
    andThen (advance 1 payload) fun start =>
    andThen (countVarint payloadlen (1 + 1 + 1 + 1 + 1) start) fun (len, p) =>
    andThen (countVarint payloadlen len p) fun (len, blkCount) =>
    andThen (countVarint payloadlen len blkCount) fun (len, p) =>
    andThen (readVarint blkCount) fun (numBlks, _) =>
    let len := addU64 len (numBlks * (1 + 1) % 2 ^ 64)
    if payloadlen < len then error .frameFormat
    else
      andThen (countVarint payloadlen len p) fun (len, p) =>
      andThen (countVarints payloadlen (2 * numBlks) len p) fun (len, _) =>
      let maxNumBlks := min maxAckBlks numBlks
      andThen (readVarint start) fun (largestAck, p) =>
      andThen (readVarint p) fun (ackDelay, p) =>
      andThen (skipVarints 1 p) fun p =>
      andThen (readVarint p) fun (firstAckBlklen, p) =>
      andThen (readAckBlks maxNumBlks p) fun (blks, p) =>
      andThen (skipVarints (2 * (numBlks - maxNumBlks)) p) fun p =>
      some (decodedFrame payload len p (.ack ⟨largestAck, ackDelay, firstAckBlklen, blks⟩) 0)

/-- The loop of `ngtcp2_pkt_decode_padding_frame`: the number of bytes it passes. -/
def readPadding : Nat → List UInt8 → Outcome Err Nat
  | 0, _ => error .abort
  | fuel + 1, p =>
    if p.length = 0 then ok 0
    else
      andThen (read 1 p) fun (byte, p) =>
      if byte.headD 0 == 0 then andThen (readPadding fuel p) fun n => ok (n + 1) else ok 0

/-- `ngtcp2_pkt_decode_padding_frame`. -/
def readPaddingFrame (payload : List UInt8) : Outcome Err Decoded :=
  andThen (advance 1 payload) fun p =>
  andThen (readPadding (p.length + 1) p) fun n =>
    ok { len := 1 + n, fr := .padding (1 + n), flags := 0 }

/-- `ngtcp2_pkt_decode_rst_stream_frame`. -/
def readRstStreamFrame (payload : List UInt8) : Outcome Err Decoded :=
  let payloadlen := payload.length
  if payloadlen < 1 + 1 + 2 + 1 then error .frameFormat
  else
    andThen (advance 1 payload) fun start =>
    andThen (countVarint payloadlen (1 + 1 + 2 + 1) start) fun (len, p) =>
    andThen (advance 2 p) fun p =>
    andThen (countVarint payloadlen len p) fun (len, _) =>
    andThen (readVarint start) fun (streamId, p) =>
    andThen (read 2 p) fun (code, p) =>
    andThen (readVarint p) fun (finalOffset, p) =>
    some (decodedFrame payload len p (.rstStream ⟨streamId, getUint16 code, finalOffset⟩) 0)

/-- The two decoders of the closing frames. -/
def readClose (payload : List UInt8) (frame : Nat → List UInt8 → Frame) : Outcome Err Decoded :=
  let payloadlen := payload.length
  if payloadlen < 1 + 2 + 1 then error .frameFormat
  else
    andThen (advance (1 + 2) payload) fun p =>
    andThen (countVarint payloadlen (1 + 2 + 1) p) fun (len, _) =>
    andThen (readVarint p) fun (reasonlen, _) =>
    let len := addU64 len reasonlen
    if payloadlen < len then error .frameFormat
    else
      andThen (advance 1 payload) fun p =>
      andThen (read 2 p) fun (code, p) =>
      andThen (readVarint p) fun (_, p) =>
      andThen (read reasonlen p) fun (reason, p) =>
      some (decodedFrame payload len p (frame (getUint16 code) reason) 0)

/-- The decoders of a frame that is one varint. -/
def readVarintFrame (payload : List UInt8) (frame : Nat → Frame) : Outcome Err Decoded :=
  let payloadlen := payload.length
  if payloadlen < 1 + 1 then error .frameFormat
  else
    andThen (advance 1 payload) fun start =>
    andThen (countVarint payloadlen (1 + 1) start) fun (len, _) =>
    andThen (readVarint start) fun (n, p) => some (decodedFrame payload len p (frame n) 0)

/-- The decoders of a frame that is two varints. -/
def readVarintsFrame (payload : List UInt8) (frame : Nat → Nat → Frame) : Outcome Err Decoded :=
  let payloadlen := payload.length
  if payloadlen < 1 + 1 + 1 then error .frameFormat
  else
    andThen (advance 1 payload) fun start =>
    andThen (countVarint payloadlen (1 + 1 + 1) start) fun (len, p) =>
    andThen (countVarint payloadlen len p) fun (len, _) =>
    andThen (readVarint start) fun (n₁, p) =>
    andThen (readVarint p) fun (n₂, p) => some (decodedFrame payload len p (frame n₁ n₂) 0)

/-- The decoders of PING and PONG. -/
def readPing (payload : List UInt8) (frame : List UInt8 → Frame) : Outcome Err Decoded :=
  let payloadlen := payload.length
  if payloadlen < 1 + 1 then error .frameFormat
  else
    andThen (advance 1 payload) fun p =>
    andThen (read 1 p) fun (byte, p) =>
    let datalen := (byte.headD 0).toNat
    let len := addU64 (1 + 1) datalen
    if payloadlen < len then error .frameFormat
    else andThen (read datalen p) fun (data, p) => some (decodedFrame payload len p (frame data) 0)

/-- `ngtcp2_pkt_decode_new_connection_id_frame`. -/
def readNewConnectionIdFrame (payload : List UInt8) : Outcome Err Decoded :=
  let payloadlen := payload.length
  if payloadlen < 1 + 1 + 8 + 16 then error .frameFormat
  else
    andThen (advance 1 payload) fun start =>
    andThen (countVarint payloadlen (1 + 1 + 8 + 16) start) fun (len, _) =>
    andThen (readVarint start) fun (seq, p) =>
    andThen (read 8 p) fun (connId, p) =>
    andThen (read statelessResetTokenLen p) fun (token, p) =>
    some (decodedFrame payload len p (.newConnectionId (seq % 2 ^ 16) (getUint64 connId) token) 0)

/-- `ngtcp2_pkt_decode_stop_sending_frame`. -/
def readStopSendingFrame (payload : List UInt8) : Outcome Err Decoded :=
  let payloadlen := payload.length
  if payloadlen < 1 + 1 + 2 then error .frameFormat
  else
    andThen (advance 1 payload) fun start =>
    andThen (countVarint payloadlen (1 + 1 + 2) start) fun (len, _) =>
    andThen (readVarint start) fun (streamId, p) =>
    andThen (read 2 p) fun (code, p) =>
    some (decodedFrame payload len p (.stopSending ⟨streamId, getUint16 code⟩) 0)

/-- `ngtcp2_pkt_decode_frame`, for a payload that is not empty. -/
def readFrame (payload : List UInt8) : Outcome Err Decoded :=
  andThen (read 1 payload) fun (byte, _) =>
  let type := byte.headD 0
  if hasMask type.toNat 0x10 then readStreamFrame payload
  else if hasMask type.toNat 0x0e then readAckFrame payload
  else if type = 0x00 then readPaddingFrame payload
  else if type = 0x01 then readRstStreamFrame payload
  else if type = 0x02 then readClose payload .connectionClose
  else if type = 0x03 then readClose payload .applicationClose
  else if type = 0x04 then readVarintFrame payload .maxData
  else if type = 0x05 then readVarintsFrame payload fun streamId maxStreamData =>
    .maxStreamData ⟨streamId, maxStreamData⟩
  else if type = 0x06 then readVarintFrame payload .maxStreamId
  else if type = 0x07 then readPing payload .ping
  else if type = 0x08 then readVarintFrame payload .blocked
  else if type = 0x09 then readVarintsFrame payload .streamBlocked
  else if type = 0x0a then readVarintFrame payload .streamIdBlocked
  else if type = 0x0b then readNewConnectionIdFrame payload
  else if type = 0x0c then readStopSendingFrame payload
  else if type = 0x0d then readPing payload .pong
  else error .frameFormat

/-! ## Reading inside the payload -/

theorem getVarintLen_range (p : List UInt8) : 1 ≤ getVarintLen p ∧ getVarintLen p ≤ 8 := by
  have hsmall : ∀ k < 4, 1 ≤ varintlenDef.getD k 0 ∧ varintlenDef.getD k 0 ≤ 8 := by decide
  apply hsmall
  have hbyte : (p.headD 0).toNat < 256 := (p.headD 0).toNat_lt
  rw [Nat.shiftRight_eq_div_pow]
  omega

/-- What is left of a varint without its tag is below `2 ^ 62`. -/
theorem get_clearTag_lt {bs : List UInt8} (h : bs.length ≤ 8) :
    BigEndian.get (clearTag bs) < 2 ^ 62 := by
  cases bs with
  | nil => decide
  | cons b bs =>
    have hmask : b.toNat &&& 0x3f < 64 := Nat.and_lt_two_pow (n := 6) _ (by decide)
    have hfirst : (UInt8.ofNat (b.toNat &&& 0x3f)).toNat ≤ 63 := by
      rw [UInt8.toNat_ofNat']
      omega
    have hrest := BigEndian.get_lt bs
    have hlen : bs.length ≤ 7 := by
      rw [List.length_cons] at h
      omega
    have hpow : 256 ^ bs.length ≤ 256 ^ 7 := Nat.pow_le_pow_right (by decide) hlen
    rw [clearTag, BigEndian.get]
    calc (UInt8.ofNat (b.toNat &&& 0x3f)).toNat * 256 ^ bs.length + BigEndian.get bs
        ≤ 63 * 256 ^ bs.length + BigEndian.get bs :=
          Nat.add_le_add_right (Nat.mul_le_mul_right _ hfirst) _
      _ < 64 * 256 ^ bs.length := by omega
      _ ≤ 64 * 256 ^ 7 := Nat.mul_le_mul_left _ hpow
      _ = 2 ^ 62 := by norm_num

theorem getVarint_lt (p : List UInt8) : (getVarint p).1 < 2 ^ 62 := by
  unfold getVarint
  dsimp only
  split_ifs with hlen
  · have hbyte : (p.headD 0).toNat < 256 := (p.headD 0).toNat_lt
    omega
  · apply get_clearTag_lt
    rw [List.length_take]
    exact le_trans (Nat.min_le_left _ _) (getVarintLen_range p).2

theorem readVarintLen_eq {p : List UInt8} (h : 1 ≤ p.length) :
    readVarintLen p = ok (getVarintLen p) := by
  cases p with
  | nil => cases h
  | cons b p =>
    rw [readVarintLen, read_one, ok_andThen]
    rfl

theorem advance_eq {n : Nat} {p : List UInt8} (h : n ≤ p.length) : advance n p = ok (p.drop n) := by
  rw [advance, read_of_le h, ok_andThen]

/-- A varint depends on its own bytes. -/
theorem getVarint_take (p : List UInt8) :
    (getVarint (p.take (getVarintLen p))).1 = (getVarint p).1 := by
  obtain ⟨hpos, _⟩ := getVarintLen_range p
  have hhead : (p.take (getVarintLen p)).headD 0 = p.headD 0 := by
    cases p with
    | nil => rfl
    | cons b p =>
      obtain ⟨n, hn⟩ := Nat.exists_eq_add_of_le' hpos
      rw [hn]
      rfl
  have hlen : getVarintLen (p.take (getVarintLen p)) = getVarintLen p := by
    rw [getVarintLen, hhead]
    rfl
  unfold getVarint
  dsimp only
  rw [hlen, hhead, List.take_take, Nat.min_self]

theorem readVarint_eq {p : List UInt8} (h : getVarintLen p ≤ p.length) :
    readVarint p = ok ((getVarint p).1, p.drop (getVarintLen p)) := by
  obtain ⟨hpos, _⟩ := getVarintLen_range p
  rw [readVarint, readVarintLen_eq (by omega), ok_andThen, read_of_le h, ok_andThen]
  dsimp only
  rw [getVarint_take]

theorem getUint16_take (p : List UInt8) : getUint16 (p.take 2) = getUint16 p := by
  rw [getUint16, getUint16, List.take_take]
  rfl

theorem getUint64_take (p : List UInt8) : getUint64 (p.take 8) = getUint64 p := by
  rw [getUint64, getUint64, List.take_take]
  rfl

/-! ## Counting and reading -/

/-- The error of a decoder. -/
abbrev FormatError : Err → Prop := fun e => e = .frameFormat

/-- The frame lies inside the payload. -/
def Decoded.Within (payload : List UInt8) (d : Decoded) : Prop := 1 ≤ d.len ∧ d.len ≤ payload.length

/-- A counted varint at the cursor: the bytes counted but not passed are one fewer behind it. -/
theorem countVarint_computes (extra : Nat) {L len : Nat} {p : List UInt8} (hL : L < 2 ^ 63)
    (hlen : len + p.length = L + (extra + 1)) (hle : len ≤ L) :
    Computes FormatError (fun x => x.2 = p.drop (getVarintLen p) ∧ getVarintLen p ≤ p.length ∧
      x.1 + x.2.length = L + extra ∧ len ≤ x.1 ∧
      x.1 ≤ L) (countVarint L len p) (checkVarint L len p) := by
  obtain ⟨hpos, h8⟩ := getVarintLen_range p
  have hwrap : addU64 len (getVarintLen p - 1) = len + (getVarintLen p - 1) :=
    Nat.mod_eq_of_lt (by omega)
  unfold countVarint checkVarint
  dsimp only
  apply Computes.step (readVarintLen_eq (by omega))
  rw [hwrap]
  apply Computes.ite
  · intro _
    exact .err rfl
  · intro hfit
    have hin : getVarintLen p ≤ p.length := by omega
    apply Computes.step (advance_eq hin)
    apply Computes.ok
    refine ⟨rfl, hin, ?_, by omega, by omega⟩
    rw [List.length_drop]
    omega

theorem countNextVarint_computes (extra : Nat) {L len : Nat} {p : List UInt8} (hL : L < 2 ^ 63)
    (hlen : len + p.length = L + extra) (hle : len ≤ L) :
    Computes FormatError (fun x => x.2 = p.drop (getVarintLen p) ∧ getVarintLen p ≤ p.length ∧
      x.1 + x.2.length = L + extra ∧ len ≤ x.1 ∧
      x.1 ≤ L) (countNextVarint L len p) (checkNextVarint L len p) := by
  have hwrap : addU64 len 1 = len + 1 := Nat.mod_eq_of_lt (by omega)
  unfold countNextVarint checkNextVarint
  dsimp only
  rw [hwrap]
  apply Computes.ite
  · intro _
    exact .err rfl
  · intro hfit
    have hnext : len + 1 + p.length = L + (extra + 1) := by omega
    have hrest := countVarint_computes extra hL hnext (by omega)
    refine ⟨hrest.eq, hrest.error, fun x hx => ?_⟩
    obtain ⟨hend, hin, hlen', hpos, hle'⟩ := hrest.value x hx
    exact ⟨hend, hin, hlen', by omega, hle'⟩

/-- The offset of a STREAM frame, which is there if its bit is set. -/
theorem countOffset_computes (offBit : Bool) {L len : Nat} {p : List UInt8} (hL : L < 2 ^ 63)
    (hlen : len + p.length = L) (hle : len ≤ L) :
    Computes FormatError (fun x => x.2 = (if offBit then getVarint p else (0, p)).2 ∧
      (offBit = true → getVarintLen p ≤ p.length) ∧ x.1 + x.2.length = L ∧ len ≤ x.1 ∧ x.1 ≤ L)
      (if offBit then countNextVarint L len p else ok (len, p))
      (if offBit then checkNextVarint L len p else .ok (len, p)) := by
  cases offBit with
  | true =>
    have hnext := countNextVarint_computes 0 hL hlen hle
    refine ⟨hnext.eq, hnext.error, fun x hx => ?_⟩
    obtain ⟨hend, hin, hcount⟩ := hnext.value x hx
    exact ⟨hend, fun _ => hin, hcount⟩
  | false => exact .ok ⟨rfl, fun h => (Bool.false_ne_true h).elim, hlen, Nat.le_refl _, hle⟩

theorem readOffset_eq {offBit : Bool} {p : List UInt8}
    (h : offBit = true → getVarintLen p ≤ p.length) :
    (if offBit then readVarint p else ok (0, p)) = ok (if offBit then getVarint p else (0, p)) := by
  cases offBit with
  | true => exact readVarint_eq (h rfl)
  | false => rfl

/-- The data of a STREAM frame, which ends before the payload if the bit of the length is set. -/
theorem countData_computes (lenBit : Bool) {L len : Nat} {p : List UInt8} (hL : L < 2 ^ 63)
    (hlen : len + p.length = L) (hle : len ≤ L) :
    Computes FormatError (fun n => (lenBit = true → getVarintLen p ≤ p.length ∧
      (getVarint p).1 ≤ (getVarint p).2.length ∧
      n + ((getVarint p).2.drop (getVarint p).1).length = L) ∧ len ≤ n)
      (if lenBit then
        andThen (countNextVarint L len p) fun (len, _) =>
        andThen (readVarint p) fun (datalen, _) =>
        let len := addU64 len datalen
        if L < len then error .frameFormat else ok len
      else ok len)
      (if lenBit then
        (checkNextVarint L len p).bind fun (len, _) =>
        let len := len + (getVarint p).1
        if L < len then .error .frameFormat else .ok len
      else .ok len) := by
  cases lenBit with
  | false => exact .ok ⟨fun h => (Bool.false_ne_true h).elim, Nat.le_refl _⟩
  | true =>
    apply Computes.bind (countNextVarint_computes 0 hL hlen hle)
    rintro ⟨len', p'⟩ ⟨rfl, hin, hlen', hpos', hle'⟩
    dsimp only at hlen' hpos' hle'
    have hdata := getVarint_lt p
    have hwrap : addU64 len' (getVarint p).1 = len' + (getVarint p).1 := Nat.mod_eq_of_lt (by omega)
    apply Computes.step (readVarint_eq hin)
    simp only [hwrap]
    apply Computes.ite
    · intro _
      exact .err rfl
    · intro hfit
      have hrest : (getVarint p).2.length = (p.drop (getVarintLen p)).length := rfl
      apply Computes.ok
      refine ⟨fun _ => ⟨hin, by omega, ?_⟩, by omega⟩
      rw [List.length_drop]
      omega

/-- The cursor behind `k` varints. -/
def varintsEnd : Nat → List UInt8 → List UInt8
  | 0, p => p
  | k + 1, p => varintsEnd k (p.drop (getVarintLen p))

/-- `k` varints fit behind the cursor. -/
def VarintsFit : Nat → List UInt8 → Prop
  | 0, _ => True
  | k + 1, p => getVarintLen p ≤ p.length ∧ VarintsFit k (p.drop (getVarintLen p))

theorem varintsEnd_add (j k : Nat) (p : List UInt8) :
    varintsEnd (j + k) p = varintsEnd k (varintsEnd j p) := by
  induction j generalizing p with
  | zero =>
    rw [Nat.zero_add]
    rfl
  | succ j ih => rw [Nat.succ_add, varintsEnd, varintsEnd, ih]

theorem varintsFit_add {j k : Nat} {p : List UInt8} :
    VarintsFit (j + k) p ↔ VarintsFit j p ∧ VarintsFit k (varintsEnd j p) := by
  induction j generalizing p with
  | zero =>
    rw [Nat.zero_add]
    exact (iff_of_eq (true_and _)).symm
  | succ j ih => rw [Nat.succ_add, VarintsFit, VarintsFit, varintsEnd, ih, and_assoc]

theorem countVarints_computes (extra k : Nat) {L len : Nat} {p : List UInt8} (hL : L < 2 ^ 63)
    (hlen : len + p.length = L + (extra + k)) (hle : len ≤ L) :
    Computes FormatError (fun x => x.2 = varintsEnd k p ∧ VarintsFit k p ∧
      x.1 + x.2.length = L + extra ∧ len ≤ x.1 ∧
      x.1 ≤ L) (countVarints L k len p) (checkVarints L k len p) := by
  induction k generalizing len p with
  | zero => exact .ok ⟨rfl, trivial, hlen, Nat.le_refl _, hle⟩
  | succ k ih =>
    apply Computes.bind (countVarint_computes (extra + k) hL hlen hle)
    rintro ⟨len', p'⟩ ⟨rfl, hin, hlen', hpos', hle'⟩
    have hrest := ih hlen' hle'
    refine ⟨hrest.eq, hrest.error, fun x hx => ?_⟩
    obtain ⟨hend, hfit, hcount, hpos, hle''⟩ := hrest.value x hx
    exact ⟨hend, ⟨hin, hfit⟩, hcount, le_trans hpos' hpos, hle''⟩

theorem skipVarints_eq {k : Nat} {p : List UInt8} (h : VarintsFit k p) :
    skipVarints k p = ok (varintsEnd k p) := by
  induction k generalizing p with
  | zero => rfl
  | succ k ih =>
    obtain ⟨hpos, _⟩ := getVarintLen_range p
    obtain ⟨hin, hfit⟩ := h
    rw [skipVarints, readVarintLen_eq (by omega), ok_andThen, advance_eq hin, ok_andThen, ih hfit]
    rfl

theorem getAckBlks_end (k : Nat) (p : List UInt8) : (getAckBlks k p).2 = varintsEnd (2 * k) p := by
  induction k generalizing p with
  | zero => rfl
  | succ k ih => exact ih _

theorem readAckBlks_eq {k : Nat} {p : List UInt8} (h : VarintsFit (2 * k) p) :
    readAckBlks k p = ok (getAckBlks k p) := by
  induction k generalizing p with
  | zero => rfl
  | succ k ih =>
    obtain ⟨hgap, hblklen, hfit⟩ := h
    have hrest := ih hfit
    unfold readAckBlks
    rw [readVarint_eq hgap, ok_andThen]
    dsimp only
    rw [readVarint_eq hblklen, ok_andThen]
    dsimp only
    rw [hrest]
    rfl

/-- The loop over the padding passes the zero bytes. -/
theorem readPadding_eq {fuel : Nat} {p : List UInt8} (h : p.length < fuel) :
    readPadding fuel p = ok (p.takeWhile (· == 0)).length := by
  induction fuel generalizing p with
  | zero => cases h
  | succ fuel ih =>
    cases p with
    | nil => rfl
    | cons b p =>
      have hturn : readPadding (fuel + 1) (b :: p) =
          if (b == 0) = true then andThen (readPadding fuel p) fun n => ok (n + 1) else ok 0 := by
        rw [readPadding, if_neg (by simp), read_one]
        rfl
      rw [hturn]
      cases hb : b == 0 with
      | true =>
        rw [if_pos rfl, ih (by simpa using h), ok_andThen]
        simp only [List.takeWhile_cons, hb]
        rfl
      | false =>
        rw [if_neg (by decide)]
        simp only [List.takeWhile_cons, hb]
        rfl

/-- The end of a decoder whose cursor and length agree. -/
theorem decodedFrame_computes {payload p : List UInt8} {len : Nat}
    (hlen : len + p.length = payload.length)
    (hpos : 1 ≤ len) (fr : Frame) (flags : Nat) :
    Computes FormatError (Decoded.Within payload) (some (decodedFrame payload len p fr flags))
      (decodedFrame payload len p fr flags) := by
  rw [decodedFrame, if_pos (by omega)]
  exact .ok ⟨hpos, by dsimp only; omega⟩

/-! ## The decoders stay inside the payload -/

section
variable {payload : List UInt8} (hL : payload.length < 2 ^ 63)
include hL

theorem readVarintFrame_computes (frame : Nat → Frame) :
    Computes FormatError (Decoded.Within payload) (readVarintFrame payload frame)
    (decodeVarintFrame payload frame) := by
  unfold readVarintFrame decodeVarintFrame
  dsimp only
  apply Computes.ite
  · intro _
    exact .err rfl
  · intro hmin
    apply Computes.step (advance_eq (by omega))
    apply Computes.bind (countVarint_computes 0 hL (by rw [List.length_drop]; omega) (by omega))
    rintro ⟨len, p⟩ ⟨rfl, hin, hlen, hpos, hle⟩
    apply Computes.step (readVarint_eq hin)
    exact decodedFrame_computes hlen (le_trans (by decide) hpos) _ 0

theorem readVarintsFrame_computes (frame : Nat → Nat → Frame) :
    Computes FormatError (Decoded.Within payload) (readVarintsFrame payload frame)
    (decodeVarintsFrame payload frame) := by
  unfold readVarintsFrame decodeVarintsFrame
  dsimp only
  apply Computes.ite
  · intro _
    exact .err rfl
  · intro hmin
    apply Computes.step (advance_eq (by omega))
    apply Computes.bind (countVarint_computes 1 hL (by rw [List.length_drop]; omega) (by omega))
    rintro ⟨len₁, p₁⟩ ⟨rfl, hin₁, hlen₁, hpos₁, hle₁⟩
    apply Computes.bind (countVarint_computes 0 hL hlen₁ hle₁)
    rintro ⟨len₂, p₂⟩ ⟨rfl, hin₂, hlen₂, hpos₂, hle₂⟩
    apply Computes.step (readVarint_eq hin₁)
    apply Computes.step (readVarint_eq hin₂)
    exact decodedFrame_computes hlen₂ (le_trans (by decide) (le_trans hpos₁ hpos₂)) _ 0

theorem readPing_computes (frame : List UInt8 → Frame) :
    Computes FormatError (Decoded.Within payload) (readPing payload frame)
    (decodePing payload frame) := by
  unfold readPing decodePing
  dsimp only
  apply Computes.ite
  · intro _
    exact .err rfl
  · intro hmin
    apply Computes.step (advance_eq (by omega))
    match hp : payload.drop 1 with
    | [] =>
      have hlen := congrArg List.length hp
      rw [List.length_drop, List.length_nil] at hlen
      omega
    | byte :: p =>
      have hlen := congrArg List.length hp
      rw [List.length_drop, List.length_cons] at hlen
      have hbyte : byte.toNat < 256 := byte.toNat_lt
      have hwrap : addU64 (1 + 1) byte.toNat = 1 + 1 + byte.toNat := Nat.mod_eq_of_lt (by omega)
      apply Computes.step (read_one byte p)
      simp only [List.headD_cons, hwrap]
      apply Computes.ite
      · intro _
        exact .err rfl
      · intro hfit
        apply Computes.step (read_of_le (by omega))
        apply decodedFrame_computes
        · dsimp only
          rw [List.length_drop]
          omega
        · exact le_trans (by decide) (Nat.le_add_right _ _)

theorem readStopSendingFrame_computes :
    Computes FormatError (Decoded.Within payload) (readStopSendingFrame payload)
    (pktDecodeStopSendingFrame payload) := by
  unfold readStopSendingFrame pktDecodeStopSendingFrame
  dsimp only
  apply Computes.ite
  · intro _
    exact .err rfl
  · intro hmin
    apply Computes.step (advance_eq (by omega))
    apply Computes.bind (countVarint_computes 2 hL (by rw [List.length_drop]; omega) (by omega))
    rintro ⟨len, p⟩ ⟨rfl, hin, hlen, hpos, hle⟩
    dsimp only at hlen hpos hle
    apply Computes.step (readVarint_eq hin)
    apply Computes.step (read_of_le (by dsimp only; omega))
    dsimp only
    rw [getUint16_take]
    apply decodedFrame_computes
    · rw [List.length_drop]
      omega
    · exact le_trans (by decide) hpos

theorem readNewConnectionIdFrame_computes :
    Computes FormatError (Decoded.Within payload) (readNewConnectionIdFrame payload)
      (pktDecodeNewConnectionIdFrame payload) := by
  unfold readNewConnectionIdFrame pktDecodeNewConnectionIdFrame
  dsimp only
  apply Computes.ite
  · intro _
    exact .err rfl
  · intro hmin
    apply Computes.step (advance_eq (by omega))
    apply Computes.bind (countVarint_computes (8 + 16) hL (by rw [List.length_drop]; omega) (by omega))
    rintro ⟨len, p⟩ ⟨rfl, hin, hlen, hpos, hle⟩
    dsimp only at hlen hpos hle
    apply Computes.step (readVarint_eq hin)
    apply Computes.step (read_of_le (by dsimp only; omega))
    dsimp only
    rw [getUint64_take]
    apply Computes.step (read_of_le (by rw [List.length_drop, statelessResetTokenLen]; omega))
    apply decodedFrame_computes
    · dsimp only [statelessResetTokenLen]
      rw [List.length_drop, List.length_drop]
      omega
    · exact le_trans (by decide) hpos

theorem readRstStreamFrame_computes :
    Computes FormatError (Decoded.Within payload) (readRstStreamFrame payload)
    (pktDecodeRstStreamFrame payload) := by
  unfold readRstStreamFrame pktDecodeRstStreamFrame
  dsimp only
  apply Computes.ite
  · intro _
    exact .err rfl
  · intro hmin
    apply Computes.step (advance_eq (by omega))
    apply Computes.bind (countVarint_computes 3 hL (by rw [List.length_drop]; omega) (by omega))
    rintro ⟨len₁, p₁⟩ ⟨rfl, hin₁, hlen₁, hpos₁, hle₁⟩
    dsimp only at hlen₁ hpos₁ hle₁
    apply Computes.step (advance_eq (by dsimp only; omega))
    apply Computes.bind (countVarint_computes 0 hL (by rw [List.length_drop]; dsimp only; omega) hle₁)
    rintro ⟨len₂, p₂⟩ ⟨rfl, hin₂, hlen₂, hpos₂, hle₂⟩
    dsimp only at hin₂ hlen₂ hpos₂ hle₂
    apply Computes.step (readVarint_eq hin₁)
    apply Computes.step (read_of_le (by dsimp only; omega))
    dsimp only
    rw [getUint16_take]
    apply Computes.step (readVarint_eq hin₂)
    exact decodedFrame_computes (by dsimp only; omega)
      (le_trans (by decide) (le_trans hpos₁ hpos₂)) _ 0

theorem readClose_computes (frame : Nat → List UInt8 → Frame) :
    Computes FormatError (Decoded.Within payload) (readClose payload frame)
    (decodeClose payload frame) := by
  unfold readClose decodeClose
  dsimp only
  apply Computes.ite
  · intro _
    exact .err rfl
  · intro hmin
    have hstart : (payload.drop 1).drop 2 = payload.drop (1 + 2) := List.drop_drop
    apply Computes.step (advance_eq (by omega))
    apply Computes.bind (countVarint_computes 0 hL (by rw [List.length_drop]; omega) (by omega))
    rintro ⟨len, p⟩ ⟨rfl, hin, hlen, hpos, hle⟩
    dsimp only at hlen hpos hle
    apply Computes.step (readVarint_eq hin)
    have hreason := getVarint_lt (payload.drop (1 + 2))
    have hwrap : addU64 len (getVarint (payload.drop (1 + 2))).1 =
      len + (getVarint (payload.drop (1 + 2))).1 :=
      Nat.mod_eq_of_lt (by omega)
    simp only [hwrap]
    apply Computes.ite
    · intro _
      exact .err rfl
    · intro hfit
      apply Computes.step (advance_eq (by omega))
      apply Computes.step (read_of_le (by rw [List.length_drop]; omega))
      dsimp only
      rw [getUint16_take, hstart]
      apply Computes.step (readVarint_eq hin)
      apply Computes.step (read_of_le (by dsimp only; omega))
      apply decodedFrame_computes
      · dsimp only
        rw [List.length_drop]
        omega
      · exact le_trans (le_trans (by decide) hpos) (Nat.le_add_right _ _)

theorem readPaddingFrame_computes (hne : payload ≠ []) :
    Computes FormatError (Decoded.Within payload) (readPaddingFrame payload)
    (.ok (pktDecodePaddingFrame payload)) := by
  have hpos : 1 ≤ payload.length := List.length_pos_iff.mpr hne
  have hzeros := ((payload.drop 1).takeWhile_sublist (· == 0)).length_le
  rw [List.length_drop] at hzeros
  unfold readPaddingFrame
  apply Computes.step (advance_eq hpos)
  apply Computes.step (readPadding_eq (Nat.lt_succ_self _))
  apply Computes.ok
  refine ⟨Nat.le_add_right _ _, ?_⟩
  show 1 + _ ≤ payload.length
  omega

theorem readAckFrame_computes :
    Computes FormatError (Decoded.Within payload) (readAckFrame payload)
    (pktDecodeAckFrame payload) := by
  unfold readAckFrame pktDecodeAckFrame
  dsimp only
  apply Computes.ite
  · intro _
    exact .err rfl
  · intro hmin
    apply Computes.step (advance_eq (by omega))
    -- the type, the four varints, and nothing more are counted
    apply Computes.bind (countVarint_computes 3 hL (by rw [List.length_drop]; omega) (by omega))
    rintro ⟨len₁, delay⟩ ⟨rfl, hlargest, hlen₁, hpos₁, hle₁⟩
    apply Computes.bind (countVarint_computes 2 hL hlen₁ hle₁)
    rintro ⟨len₂, blkCount⟩ ⟨hblkCount, hdelay, hlen₂, hpos₂, hle₂⟩
    apply Computes.bind (countVarint_computes 1 hL hlen₂ hle₂)
    rintro ⟨len₃, first⟩ ⟨hfirst, hcount, hlen₃, hpos₃, hle₃⟩
    dsimp only at hlargest hlen₁ hpos₁ hle₁ hblkCount hdelay hlen₂ hpos₂ hle₂ hfirst hcount hlen₃ hpos₃ hle₃
    apply Computes.step (readVarint_eq hcount)
    dsimp only
    generalize hnum : (getVarint blkCount).1 = numBlks
    have hsmall : numBlks < 2 ^ 62 := hnum ▸ getVarint_lt blkCount
    have hmul : numBlks * (1 + 1) % 2 ^ 64 = numBlks * (1 + 1) := Nat.mod_eq_of_lt (by omega)
    have hwrap : addU64 len₃ (numBlks * (1 + 1)) = len₃ + numBlks * (1 + 1) :=
      Nat.mod_eq_of_lt (by omega)
    simp only [hmul, hwrap]
    apply Computes.ite
    · intro _
      exact .err rfl
    · intro hfit
      -- the blocks are counted now, and none of them is passed
      apply Computes.bind (countVarint_computes (2 * numBlks) hL (by omega) (by omega))
      rintro ⟨len₄, blks⟩ ⟨hblks, hfirstIn, hlen₄, hpos₄, hle₄⟩
      apply Computes.bind (countVarints_computes 0 (2 * numBlks) hL (by dsimp only at hlen₄ ⊢; omega) hle₄)
      rintro ⟨len₅, rest⟩ ⟨hrest, hblksIn, hlen₅, hpos₅, hle₅⟩
      dsimp only at hblks hfirstIn hlen₄ hpos₄ hle₄ hrest hblksIn hlen₅ hpos₅ hle₅
      have hsplit : 2 * numBlks =
        2 * min maxAckBlks numBlks + 2 * (numBlks - min maxAckBlks numBlks) := by omega
      rw [hsplit, varintsFit_add] at hblksIn
      rw [hsplit, varintsEnd_add] at hrest
      obtain ⟨hkept, hskipped⟩ := hblksIn
      apply Computes.step (readVarint_eq hlargest)
      apply Computes.step (readVarint_eq hdelay)
      dsimp only
      rw [← hblkCount]
      apply Computes.step (skipVarints_eq (k := 1) ⟨hcount, trivial⟩)
      dsimp only [varintsEnd]
      rw [← hfirst]
      apply Computes.step (readVarint_eq hfirstIn)
      dsimp only
      rw [← hblks]
      apply Computes.step (readAckBlks_eq hkept)
      rw [getAckBlks_end]
      apply Computes.step (skipVarints_eq hskipped)
      rw [← hrest]
      -- the decoder of the codec ends at the same places
      have hfirst' : (getVarint (getVarint (payload.drop 1)).2).2.drop
          (getVarintLen (getVarint (getVarint (payload.drop 1)).2).2) = first := by
        rw [hfirst, hblkCount]
        rfl
      have hblks' : (getVarint first).2 = blks := hblks.symm
      have hend : (getAckBlks (numBlks - min maxAckBlks numBlks) (getAckBlks (min maxAckBlks numBlks) blks).2).2 =
          rest := by
        rw [getAckBlks_end, getAckBlks_end, hrest]
      simp only [hfirst', hblks', hend]
      exact decodedFrame_computes hlen₅ (by omega) _ 0

theorem readStreamFrame_computes :
    Computes FormatError (Decoded.Within payload) (readStreamFrame payload)
    (pktDecodeStreamFrame payload) := by
  unfold readStreamFrame pktDecodeStreamFrame
  dsimp only
  apply Computes.ite
  · intro _
    exact .err rfl
  · intro hmin
    match payload, hL, hmin with
    | [], _, hmin => exact absurd hmin (by decide)
    | byte :: start, hL, hmin =>
      apply Computes.step (read_one byte start)
      dsimp only [List.headD_cons, List.drop_one, List.tail_cons]
      rw [List.length_cons] at hmin hL
      apply Computes.bind (countVarint_computes 0 hL (by omega) (by omega))
      rintro ⟨len₁, p₁⟩ ⟨rfl, hid, hlen₁, hpos₁, hle₁⟩
      apply Computes.bind (countOffset_computes _ hL hlen₁ hle₁)
      rintro ⟨len₂, p₂⟩ ⟨rfl, hoffset, hlen₂, hpos₂, hle₂⟩
      apply Computes.bind (countData_computes _ hL hlen₂ hle₂)
      rintro len₃ ⟨hdata, hpos₃⟩
      apply Computes.step (readVarint_eq hid)
      apply Computes.step (readOffset_eq hoffset)
      apply Computes.ite
      · intro hlenBit
        obtain ⟨hdatalen, hdata, hlen₃⟩ := hdata hlenBit
        apply Computes.step (readVarint_eq hdatalen)
        apply Computes.step (read_of_le hdata)
        exact decodedFrame_computes hlen₃
          (le_trans (by decide) (le_trans hpos₁ (le_trans hpos₂ hpos₃))) _ _
      · intro _
        exact .ok ⟨Nat.le_add_left _ _, Nat.le_refl _⟩

/-- The decoder of a frame reads nothing behind the payload, computes what the decoder of the codec computes, and
its value lies inside the payload. -/
theorem readFrame_computes (hne : payload ≠ []) : ∃ y : Except Err Decoded,
    pktDecodeFrame payload = y.map some ∧
    Computes FormatError (Decoded.Within payload) (readFrame payload) y := by
  match payload, hne, hL with
  | type :: p, hne, hL =>
    refine ⟨_, rfl, ?_⟩
    unfold readFrame
    apply Computes.step (read_one type p)
    apply Computes.ite (fun _ => readStreamFrame_computes hL)
    intro _
    apply Computes.ite (fun _ => readAckFrame_computes hL)
    intro _
    apply Computes.ite (fun _ => readPaddingFrame_computes hL hne)
    intro _
    apply Computes.ite (fun _ => readRstStreamFrame_computes hL)
    intro _
    apply Computes.ite (fun _ => readClose_computes hL _)
    intro _
    apply Computes.ite (fun _ => readClose_computes hL _)
    intro _
    apply Computes.ite (fun _ => readVarintFrame_computes hL _)
    intro _
    apply Computes.ite (fun _ => readVarintsFrame_computes hL _)
    intro _
    apply Computes.ite (fun _ => readVarintFrame_computes hL _)
    intro _
    apply Computes.ite (fun _ => readPing_computes hL _)
    intro _
    apply Computes.ite (fun _ => readVarintFrame_computes hL _)
    intro _
    apply Computes.ite (fun _ => readVarintsFrame_computes hL _)
    intro _
    apply Computes.ite (fun _ => readVarintFrame_computes hL _)
    intro _
    apply Computes.ite (fun _ => readNewConnectionIdFrame_computes hL)
    intro _
    apply Computes.ite (fun _ => readStopSendingFrame_computes hL)
    intro _
    apply Computes.ite (fun _ => readPing_computes hL _)
    intro _
    exact .err rfl

end

/-! ## The loops over the frames -/

/-- The loop over the frames of a payload with its accesses to the memory, given up after `turns` turns. -/
def readFrames {σ : Type} (rx : RxCallbacks) (hd : PktHd) (handle : σ → Conn → Frame → Result σ) :
    Nat → List UInt8 → σ → Conn → Option (Result σ)
  | 0, _, _, _ => none
  | turns + 1, payload, s, conn =>
    if payload.length = 0 then some (.ok s, conn)
    else
      match readFrame payload with
      | none => none
      | some (.error e) => some (.error e, conn)
      | some (.ok fr) =>
        if !rx.recvFrame conn.log hd fr.fr then some (.error .callbackFailure, conn)
        else
          match handle s conn fr.fr with
          | (.error e, conn) => some (.error e, conn)
          | (.ok s, conn) =>
            match runTls (rx.tlsCalls conn.log) conn with
            | (.error e, conn) => some (.error e, conn)
            | (.ok _, conn) => readFrames rx hd handle turns (payload.drop fr.len) s conn

/-- The loop ends within one turn for each byte, and never reads behind the payload. -/
theorem readFrames_eq {σ : Type} (rx : RxCallbacks) (hd : PktHd)
    (handle : σ → Conn → Frame → Result σ)
    {turns fuel : Nat} {payload : List UInt8} (hL : payload.length < 2 ^ 63)
    (hturns : payload.length < turns)
    (hfuel : payload.length < fuel) (s : σ) (conn : Conn) :
    readFrames rx hd handle turns payload s conn =
    some (recvFrames rx hd handle fuel payload s conn) := by
  induction turns generalizing fuel payload s conn with
  | zero => cases hturns
  | succ turns ih =>
    obtain ⟨fuel, rfl⟩ : ∃ k, fuel = k + 1 := Nat.exists_eq_add_of_le' (Nat.one_le_of_lt hfuel)
    unfold readFrames recvFrames
    by_cases hlen : payload.length = 0
    · rw [if_pos hlen, List.length_eq_zero_iff.mp hlen]
      rfl
    · rw [if_neg hlen]
      have hne : payload ≠ [] := fun h => hlen (List.length_eq_zero_iff.mpr h)
      obtain ⟨y, hdec, hread⟩ := readFrame_computes hL hne
      rw [hdec, hread.eq]
      cases y with
      | error e => rfl
      | ok fr =>
        obtain ⟨hpos, hin⟩ := hread.value fr rfl
        dsimp only [Except.map]
        by_cases hcall : (!rx.recvFrame conn.log hd fr.fr) = true
        · rw [if_pos hcall, if_pos hcall]
        · rw [if_neg hcall, if_neg hcall]
          rcases handle s conn fr.fr with ⟨_ | s, conn⟩
          · rfl
          · dsimp only
            rw [andThen_ok]
            rcases runTls (rx.tlsCalls conn.log) conn with ⟨_ | _, conn⟩
            · rfl
            · -- the next turn begins behind the frame, which is not empty
              have hdrop : (payload.drop fr.len).length < payload.length := by
                rw [List.length_drop]
                omega
              exact ih (by omega) (by omega) (by omega) s conn

/-- The decoder of a frame returns a negative error or a length inside the payload, without an access behind the
payload and without a failed assertion; and the loops of `conn_recv_pkt`, `conn_recv_handshake_pkt` and
`conn_recv_delayed_handshake_pkt` end on every payload. -/
theorem pktDecodeFrame_safe (payload : List UInt8) (hne : payload ≠ [])
    (hL : payload.length < 2 ^ 63) :
    (∃ y : Except Err Decoded, pktDecodeFrame payload = y.map some ∧
      Computes FormatError (Decoded.Within payload) (readFrame payload) y) ∧
    ∀ (rx : RxCallbacks) (hd : PktHd) (conn : Conn) (turns : Nat), payload.length < turns →
      (readFrames rx hd (handleFrame hd.longForm) turns payload false conn =
        some (recvFrames rx hd (handleFrame hd.longForm) (payload.length + 1) payload false conn)) ∧
      (readFrames rx hd (handleHandshakeFrame hd.type) turns payload (false, false) conn =
        some (recvFrames rx hd (handleHandshakeFrame hd.type) (payload.length + 1) payload (false,
        false) conn)) ∧
      (readFrames rx hd (handleDelayedFrame hd.type) turns payload false conn =
        some (recvFrames rx hd (handleDelayedFrame hd.type) (payload.length + 1) payload false conn)) := by
  refine ⟨readFrame_computes hL hne, fun rx hd conn turns hturns => ?_⟩
  have hfuel : payload.length < payload.length + 1 := Nat.lt_succ_self _
  refine ⟨?_, ?_, ?_⟩
  · exact readFrames_eq rx hd _ hL hturns hfuel false conn
  · exact readFrames_eq rx hd _ hL hturns hfuel (false, false) conn
  · exact readFrames_eq rx hd _ hL hturns hfuel false conn

/-- A PING whose data would end behind the payload. -/
theorem pktDecodeFrame_safe_ping : ∃ y :
    Except Err Decoded, pktDecodeFrame [0x07, 0x02, 0x00] = y.map some ∧
    Computes FormatError (Decoded.Within [0x07, 0x02, 0x00]) (readFrame [0x07, 0x02, 0x00]) y :=
  (pktDecodeFrame_safe [0x07, 0x02, 0x00] (by decide) (by decide)).1

end Ngtcp2
