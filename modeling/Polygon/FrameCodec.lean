import Polygon.Conv

/-!
# The frame codec

The frame encoders and decoders of `ngtcp2_pkt.c` over byte strings. An encoder
gives the length it returns next to the bytes it wrote, a decoder first adds up
the length of the frame and then reads the fields, as the source does. Each
ends in the source's assertion that the two agree.
-/
namespace Ngtcp2

/-- `NGTCP2_STATELESS_RESET_TOKENLEN`. -/
def statelessResetTokenLen : Nat := 16

/-! ## Encoders -/

/-- The value of an encoder, the bytes it wrote and the `flags` it left in a STREAM frame (the
other frames have none). -/
structure Encoded where
  len : Nat
  bytes : List UInt8
  flags : Nat
  deriving DecidableEq, Repr

/-- The frame of every encoder: the length, the check of the buffer, the bytes and the assertion. -/
def encodeBytes (outlen : Nat) (len : Option Nat) (bytes : List UInt8) (flags : Nat) :
    Except Err Encoded :=
  match len with
  | none => .error .abort
  | some len =>
    if outlen < len then .error .noBuf
    else if bytes.length = len then .ok { len, bytes, flags }
    else .error .abort

/-- The `flags` of an encoded STREAM frame. -/
def streamFlags (fr : StreamFrame) : Nat :=
  let flags := 0x02
  let flags := if fr.fin then flags ||| 0x01 else flags
  if fr.offset ≠ 0 then flags ||| 0x04 else flags

/-- What the encoder of a STREAM frame writes. -/
def streamBytes (fr : StreamFrame) : List UInt8 :=
  UInt8.ofNat (streamFlags fr ||| 0x10) :: putVarint fr.streamId ++
    (if fr.offset ≠ 0 then putVarint fr.offset else []) ++ putVarint fr.data.length ++ fr.data

/-- `ngtcp2_pkt_encode_stream_frame`. -/
def pktEncodeStreamFrame (outlen : Nat) (fr : StreamFrame) : Except Err Encoded :=
  encodeBytes outlen (frameLen (.stream fr)) (streamBytes fr) (streamFlags fr)

def putAckBlk (blk : AckBlk) : List UInt8 := putVarint blk.gap ++ putVarint blk.blklen

/-- What the encoder of an ACK frame writes. -/
def ackBytes (fr : AckFrame) : List UInt8 :=
  0x0e :: putVarint fr.largestAck ++ putVarint fr.ackDelay ++ putVarint fr.blks.length ++
    putVarint fr.firstAckBlklen ++ fr.blks.flatMap putAckBlk

/-- `ngtcp2_pkt_encode_ack_frame`. -/
def pktEncodeAckFrame (outlen : Nat) (fr : AckFrame) : Except Err Encoded :=
  encodeBytes outlen (frameLen (.ack fr)) (ackBytes fr) 0

/-- `ngtcp2_pkt_encode_padding_frame`. -/
def pktEncodePaddingFrame (outlen len : Nat) : Except Err Encoded :=
  encodeBytes outlen (some len) (List.replicate len 0) 0

/-- `ngtcp2_pkt_encode_rst_stream_frame`. -/
def pktEncodeRstStreamFrame (outlen : Nat) (fr : RstStreamFrame) : Except Err Encoded :=
  encodeBytes outlen (frameLen (.rstStream fr))
    (0x01 :: putVarint fr.streamId ++ putUint16be fr.appErrorCode ++ putVarint fr.finalOffset) 0

/-- What the encoders of the two closing frames write. -/
def closeBytes (type : UInt8) (code : Nat) (reason : List UInt8) : List UInt8 :=
  type :: putUint16be code ++ putVarint reason.length ++ reason

/-- `ngtcp2_pkt_encode_connection_close_frame`. -/
def pktEncodeConnectionCloseFrame (outlen errorCode : Nat) (reason : List UInt8) :
    Except Err Encoded :=
  encodeBytes outlen (frameLen (.connectionClose errorCode reason))
    (closeBytes 0x02 errorCode reason) 0

/-- `ngtcp2_pkt_encode_application_close_frame`. -/
def pktEncodeApplicationCloseFrame (outlen appErrorCode : Nat) (reason : List UInt8) :
    Except Err Encoded :=
  encodeBytes outlen (frameLen (.applicationClose appErrorCode reason))
    (closeBytes 0x03 appErrorCode reason) 0

/-- `ngtcp2_pkt_encode_max_data_frame`. -/
def pktEncodeMaxDataFrame (outlen maxData : Nat) : Except Err Encoded :=
  encodeBytes outlen (frameLen (.maxData maxData)) (0x04 :: putVarint maxData) 0

/-- `ngtcp2_pkt_encode_max_stream_data_frame`. -/
def pktEncodeMaxStreamDataFrame (outlen : Nat) (fr : MaxStreamDataFrame) : Except Err Encoded :=
  encodeBytes outlen (frameLen (.maxStreamData fr))
    (0x05 :: putVarint fr.streamId ++ putVarint fr.maxStreamData) 0

/-- `ngtcp2_pkt_encode_max_stream_id_frame`. -/
def pktEncodeMaxStreamIdFrame (outlen maxStreamId : Nat) : Except Err Encoded :=
  encodeBytes outlen (frameLen (.maxStreamId maxStreamId)) (0x06 :: putVarint maxStreamId) 0

/-- What the encoders of PING and PONG write. -/
def pingBytes (type : UInt8) (data : List UInt8) : List UInt8 :=
  type :: UInt8.ofNat data.length :: data

/-- `ngtcp2_pkt_encode_ping_frame`. -/
def pktEncodePingFrame (outlen : Nat) (data : List UInt8) : Except Err Encoded :=
  encodeBytes outlen (frameLen (.ping data)) (pingBytes 0x07 data) 0

/-- `ngtcp2_pkt_encode_blocked_frame`. -/
def pktEncodeBlockedFrame (outlen offset : Nat) : Except Err Encoded :=
  encodeBytes outlen (frameLen (.blocked offset)) (0x08 :: putVarint offset) 0

/-- `ngtcp2_pkt_encode_stream_blocked_frame`. -/
def pktEncodeStreamBlockedFrame (outlen streamId offset : Nat) : Except Err Encoded :=
  encodeBytes outlen (frameLen (.streamBlocked streamId offset))
    (0x09 :: putVarint streamId ++ putVarint offset) 0

/-- `ngtcp2_pkt_encode_stream_id_blocked_frame`. -/
def pktEncodeStreamIdBlockedFrame (outlen streamId : Nat) : Except Err Encoded :=
  encodeBytes outlen (frameLen (.streamIdBlocked streamId)) (0x0a :: putVarint streamId) 0

/-- `ngtcp2_pkt_encode_new_connection_id_frame`. -/
def pktEncodeNewConnectionIdFrame (outlen seq connId : Nat) (token : List UInt8) :
    Except Err Encoded :=
  encodeBytes outlen (frameLen (.newConnectionId seq connId token))
    (0x0b :: putVarint seq ++ putUint64be connId ++ token.take statelessResetTokenLen) 0

/-- `ngtcp2_pkt_encode_stop_sending_frame`. -/
def pktEncodeStopSendingFrame (outlen : Nat) (fr : StopSendingFrame) : Except Err Encoded :=
  encodeBytes outlen (frameLen (.stopSending fr))
    (0x0c :: putVarint fr.streamId ++ putUint16be fr.appErrorCode) 0

/-- `ngtcp2_pkt_encode_pong_frame`. -/
def pktEncodePongFrame (outlen : Nat) (data : List UInt8) : Except Err Encoded :=
  encodeBytes outlen (frameLen (.pong data)) (pingBytes 0x0d data) 0

/-- `ngtcp2_pkt_encode_frame`. -/
def pktEncodeFrame (outlen : Nat) : Frame → Except Err Encoded
  | .stream fr => pktEncodeStreamFrame outlen fr
  | .ack fr => pktEncodeAckFrame outlen fr
  | .padding len => pktEncodePaddingFrame outlen len
  | .rstStream fr => pktEncodeRstStreamFrame outlen fr
  | .connectionClose code reason => pktEncodeConnectionCloseFrame outlen code reason
  | .applicationClose code reason => pktEncodeApplicationCloseFrame outlen code reason
  | .maxData n => pktEncodeMaxDataFrame outlen n
  | .maxStreamData fr => pktEncodeMaxStreamDataFrame outlen fr
  | .maxStreamId n => pktEncodeMaxStreamIdFrame outlen n
  | .ping data => pktEncodePingFrame outlen data
  | .blocked offset => pktEncodeBlockedFrame outlen offset
  | .streamBlocked streamId offset => pktEncodeStreamBlockedFrame outlen streamId offset
  | .streamIdBlocked streamId => pktEncodeStreamIdBlockedFrame outlen streamId
  | .newConnectionId seq connId token => pktEncodeNewConnectionIdFrame outlen seq connId token
  | .stopSending fr => pktEncodeStopSendingFrame outlen fr
  | .pong data => pktEncodePongFrame outlen data

/-! ## Decoders -/

/-- The value of a decoder, the frame it filled in and the `flags` of a STREAM frame. -/
structure Decoded where
  len : Nat
  fr : Frame
  flags : Nat
  deriving DecidableEq, Repr

/-- The end of a decoder that has read up to `p`, with the assertion on the length. -/
def decodedFrame (payload : List UInt8) (len : Nat) (p : List UInt8) (fr : Frame) (flags : Nat) :
    Except Err Decoded :=
  if payload.length - p.length = len then .ok { len, fr, flags } else .error .abort

/-- The varint at `p` is made part of a frame that counted one byte for it; the cursor moves
behind it. -/
def checkVarint (payloadlen len : Nat) (p : List UInt8) : Except Err (Nat × List UInt8) :=
  let n := getVarintLen p
  let len := len + (n - 1)
  if payloadlen < len then .error .frameFormat else .ok (len, p.drop n)

/-- An optional varint, not counted before. -/
def checkNextVarint (payloadlen len : Nat) (p : List UInt8) : Except Err (Nat × List UInt8) :=
  if payloadlen < len + 1 then .error .frameFormat else checkVarint payloadlen (len + 1) p

/-- `k` varints in a row. -/
def checkVarints (payloadlen : Nat) : Nat → Nat → List UInt8 → Except Err (Nat × List UInt8)
  | 0, len, p => .ok (len, p)
  | k + 1, len, p => (checkVarint payloadlen len p).bind fun (len, p) => checkVarints payloadlen k len p

/-- `ngtcp2_pkt_decode_stream_frame`. -/
def pktDecodeStreamFrame (payload : List UInt8) : Except Err Decoded :=
  let payloadlen := payload.length
  if payloadlen < 1 + 1 then .error .frameFormat
  else
    let type := (payload.headD 0).toNat
    let offBit := decide (type &&& 0x04 ≠ 0)
    let lenBit := decide (type &&& 0x02 ≠ 0)
    let p := payload.drop 1
    (checkVarint payloadlen (1 + 1) p).bind fun (len, p) =>
    (if offBit then checkNextVarint payloadlen len p else .ok (len, p)).bind fun (len, p) =>
    (if lenBit then
      (checkNextVarint payloadlen len p).bind fun (len, _) =>
      let len := len + (getVarint p).1
      if payloadlen < len then .error .frameFormat else .ok len
    else .ok len).bind fun len =>
    let p := payload.drop 1
    let flags := type &&& (0xff - 0x10)
    let fin := decide (type &&& 0x01 ≠ 0)
    let (streamId, p) := getVarint p
    let (offset, p) := if offBit then getVarint p else (0, p)
    if lenBit then
      let (datalen, p) := getVarint p
      decodedFrame payload len (p.drop datalen)
        (.stream ⟨streamId, offset, p.take datalen, fin⟩) flags
    else .ok { len := payloadlen, fr := .stream ⟨streamId, offset, p, fin⟩, flags }

/-- The blocks of an ACK frame. -/
def getAckBlks : Nat → List UInt8 → List AckBlk × List UInt8
  | 0, p => ([], p)
  | k + 1, p =>
    let (gap, p) := getVarint p
    let (blklen, p) := getVarint p
    let (blks, p) := getAckBlks k p
    (⟨gap, blklen⟩ :: blks, p)

/-- `ngtcp2_pkt_decode_ack_frame`; blocks beyond `NGTCP2_MAX_ACK_BLKS` are skipped. -/
def pktDecodeAckFrame (payload : List UInt8) : Except Err Decoded :=
  let payloadlen := payload.length
  if payloadlen < 1 + 1 + 1 + 1 + 1 then .error .frameFormat
  else
    (checkVarint payloadlen (1 + 1 + 1 + 1 + 1) (payload.drop 1)).bind fun (len, p) =>
    (checkVarint payloadlen len p).bind fun (len, p) =>
    let blkCount := p
    (checkVarint payloadlen len p).bind fun (len, p) =>
    let numBlks := (getVarint blkCount).1
    let len := len + numBlks * (1 + 1)
    if payloadlen < len then .error .frameFormat
    else
      (checkVarint payloadlen len p).bind fun (len, p) =>
      (checkVarints payloadlen (2 * numBlks) len p).bind fun (len, _) =>
      let maxNumBlks := min maxAckBlks numBlks
      let (largestAck, p) := getVarint (payload.drop 1)
      let (ackDelay, p) := getVarint p
      let p := p.drop (getVarintLen p)
      let (firstAckBlklen, p) := getVarint p
      let (blks, p) := getAckBlks maxNumBlks p
      let (_, p) := getAckBlks (numBlks - maxNumBlks) p
      decodedFrame payload len p (.ack ⟨largestAck, ackDelay, firstAckBlklen, blks⟩) 0

/-- `ngtcp2_pkt_decode_padding_frame`. -/
def pktDecodePaddingFrame (payload : List UInt8) : Decoded :=
  let len := 1 + ((payload.drop 1).takeWhile (· == 0)).length
  { len, fr := .padding len, flags := 0 }

/-- `ngtcp2_pkt_decode_rst_stream_frame`. -/
def pktDecodeRstStreamFrame (payload : List UInt8) : Except Err Decoded :=
  let payloadlen := payload.length
  if payloadlen < 1 + 1 + 2 + 1 then .error .frameFormat
  else
    (checkVarint payloadlen (1 + 1 + 2 + 1) (payload.drop 1)).bind fun (len, p) =>
    (checkVarint payloadlen len (p.drop 2)).bind fun (len, _) =>
    let (streamId, p) := getVarint (payload.drop 1)
    let appErrorCode := getUint16 p
    let (finalOffset, p) := getVarint (p.drop 2)
    decodedFrame payload len p (.rstStream ⟨streamId, appErrorCode, finalOffset⟩) 0

/-- The two decoders of the closing frames, which make their frame from the code and the reason. -/
def decodeClose (payload : List UInt8) (frame : Nat → List UInt8 → Frame) : Except Err Decoded :=
  let payloadlen := payload.length
  if payloadlen < 1 + 2 + 1 then .error .frameFormat
  else
    let p := payload.drop (1 + 2)
    (checkVarint payloadlen (1 + 2 + 1) p).bind fun (len, _) =>
    let (reasonlen, _) := getVarint p
    let len := len + reasonlen
    if payloadlen < len then .error .frameFormat
    else
      let p := payload.drop 1
      let code := getUint16 p
      let p := (getVarint (p.drop 2)).2
      decodedFrame payload len (p.drop reasonlen) (frame code (p.take reasonlen)) 0

/-- `ngtcp2_pkt_decode_connection_close_frame`. -/
def pktDecodeConnectionCloseFrame (payload : List UInt8) : Except Err Decoded :=
  decodeClose payload .connectionClose

/-- `ngtcp2_pkt_decode_application_close_frame`. -/
def pktDecodeApplicationCloseFrame (payload : List UInt8) : Except Err Decoded :=
  decodeClose payload .applicationClose

/-- The decoders of a frame that is one varint. -/
def decodeVarintFrame (payload : List UInt8) (frame : Nat → Frame) : Except Err Decoded :=
  let payloadlen := payload.length
  if payloadlen < 1 + 1 then .error .frameFormat
  else
    (checkVarint payloadlen (1 + 1) (payload.drop 1)).bind fun (len, _) =>
    let (n, p) := getVarint (payload.drop 1)
    decodedFrame payload len p (frame n) 0

/-- The decoders of a frame that is two varints. -/
def decodeVarintsFrame (payload : List UInt8) (frame : Nat → Nat → Frame) : Except Err Decoded :=
  let payloadlen := payload.length
  if payloadlen < 1 + 1 + 1 then .error .frameFormat
  else
    (checkVarint payloadlen (1 + 1 + 1) (payload.drop 1)).bind fun (len, p) =>
    (checkVarint payloadlen len p).bind fun (len, _) =>
    let (n₁, p) := getVarint (payload.drop 1)
    let (n₂, p) := getVarint p
    decodedFrame payload len p (frame n₁ n₂) 0

/-- `ngtcp2_pkt_decode_max_data_frame`. -/
def pktDecodeMaxDataFrame (payload : List UInt8) : Except Err Decoded :=
  decodeVarintFrame payload .maxData

/-- `ngtcp2_pkt_decode_max_stream_data_frame`. -/
def pktDecodeMaxStreamDataFrame (payload : List UInt8) : Except Err Decoded :=
  decodeVarintsFrame payload fun streamId maxStreamData => .maxStreamData ⟨streamId, maxStreamData⟩

/-- `ngtcp2_pkt_decode_max_stream_id_frame`. -/
def pktDecodeMaxStreamIdFrame (payload : List UInt8) : Except Err Decoded :=
  decodeVarintFrame payload .maxStreamId

/-- The decoders of PING and PONG. -/
def decodePing (payload : List UInt8) (frame : List UInt8 → Frame) : Except Err Decoded :=
  let payloadlen := payload.length
  if payloadlen < 1 + 1 then .error .frameFormat
  else
    let p := payload.drop 1
    let datalen := (p.headD 0).toNat
    let len := 1 + 1 + datalen
    if payloadlen < len then .error .frameFormat
    else
      let p := p.drop 1
      decodedFrame payload len (p.drop datalen) (frame (p.take datalen)) 0

/-- `ngtcp2_pkt_decode_ping_frame`. -/
def pktDecodePingFrame (payload : List UInt8) : Except Err Decoded := decodePing payload .ping

/-- `ngtcp2_pkt_decode_blocked_frame`. -/
def pktDecodeBlockedFrame (payload : List UInt8) : Except Err Decoded :=
  decodeVarintFrame payload .blocked

/-- `ngtcp2_pkt_decode_stream_blocked_frame`. -/
def pktDecodeStreamBlockedFrame (payload : List UInt8) : Except Err Decoded :=
  decodeVarintsFrame payload .streamBlocked

/-- `ngtcp2_pkt_decode_stream_id_blocked_frame`. -/
def pktDecodeStreamIdBlockedFrame (payload : List UInt8) : Except Err Decoded :=
  decodeVarintFrame payload .streamIdBlocked

/-- `ngtcp2_pkt_decode_new_connection_id_frame`. -/
def pktDecodeNewConnectionIdFrame (payload : List UInt8) : Except Err Decoded :=
  let payloadlen := payload.length
  if payloadlen < 1 + 1 + 8 + 16 then .error .frameFormat
  else
    (checkVarint payloadlen (1 + 1 + 8 + 16) (payload.drop 1)).bind fun (len, _) =>
    let (seq, p) := getVarint (payload.drop 1)
    let connId := getUint64 p
    let p := p.drop 8
    decodedFrame payload len (p.drop statelessResetTokenLen)
      (.newConnectionId (seq % 2 ^ 16) connId (p.take statelessResetTokenLen)) 0

/-- `ngtcp2_pkt_decode_stop_sending_frame`. -/
def pktDecodeStopSendingFrame (payload : List UInt8) : Except Err Decoded :=
  let payloadlen := payload.length
  if payloadlen < 1 + 1 + 2 then .error .frameFormat
  else
    (checkVarint payloadlen (1 + 1 + 2) (payload.drop 1)).bind fun (len, _) =>
    let (streamId, p) := getVarint (payload.drop 1)
    decodedFrame payload len (p.drop 2) (.stopSending ⟨streamId, getUint16 p⟩) 0

/-- `ngtcp2_pkt_decode_pong_frame`. -/
def pktDecodePongFrame (payload : List UInt8) : Except Err Decoded := decodePing payload .pong

/-- `has_mask`. -/
def hasMask (b mask : Nat) : Bool := b &&& mask == mask

/-- `ngtcp2_pkt_decode_frame`; nothing is decoded from an empty payload. -/
def pktDecodeFrame (payload : List UInt8) : Except Err (Option Decoded) :=
  match payload with
  | [] => .ok none
  | type :: _ =>
    Except.map some <|
      if hasMask type.toNat 0x10 then pktDecodeStreamFrame payload
      else if hasMask type.toNat 0x0e then pktDecodeAckFrame payload
      else if type = 0x00 then .ok (pktDecodePaddingFrame payload)
      else if type = 0x01 then pktDecodeRstStreamFrame payload
      else if type = 0x02 then pktDecodeConnectionCloseFrame payload
      else if type = 0x03 then pktDecodeApplicationCloseFrame payload
      else if type = 0x04 then pktDecodeMaxDataFrame payload
      else if type = 0x05 then pktDecodeMaxStreamDataFrame payload
      else if type = 0x06 then pktDecodeMaxStreamIdFrame payload
      else if type = 0x07 then pktDecodePingFrame payload
      else if type = 0x08 then pktDecodeBlockedFrame payload
      else if type = 0x09 then pktDecodeStreamBlockedFrame payload
      else if type = 0x0a then pktDecodeStreamIdBlockedFrame payload
      else if type = 0x0b then pktDecodeNewConnectionIdFrame payload
      else if type = 0x0c then pktDecodeStopSendingFrame payload
      else if type = 0x0d then pktDecodePongFrame payload
      else .error .frameFormat

end Ngtcp2
