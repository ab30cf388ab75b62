import Polygon.ConnRetransmit

/-!
# Writing packets

The packet writers of `ngtcp2_conn.c`. A writer that returns the number of bytes
returns the packet here, and none for 0.
-/
namespace Ngtcp2

/-- `NGTCP2_STREAM_OVERHEAD`. -/
def streamOverhead : Nat := 15

/-- `NGTCP2_TLS_HANDSHAKE_FAILED`. -/
def tlsHandshakeFailed : Nat := 0x201

/-- `NGTCP2_STOPPING`. -/
def stopping : Nat := 0

/-- `ngtcp2_pkt_hd_init`. -/
def pktHdInit (longForm : Bool) (type : PktType) (connId pktNum version : Nat) : PktHd :=
  { longForm, type, connId, pktNum, version }

namespace Conn

/-- The header of the next long packet. -/
def longHd (conn : Conn) (type : PktType) : PktHd :=
  pktHdInit true type conn.connId conn.nextPktNum conn.version

/-- The header of the next short packet. -/
def shortHd (conn : Conn) : PktHd :=
  pktHdInit false (connSelectPktType conn conn.nextPktNum) conn.connId conn.nextPktNum conn.version

end Conn

/-! ## Handshake packets -/

/-- The ACK part of `conn_write_handshake_pkt`. -/
def handshakeAck (conn : Conn) (ppe : Ppe) (ts : Nat) : Result Ppe :=
  let (ackfr, conn) := connCreateAckFrame conn ts true
  match ackfr with
  | none => (.ok ppe, conn)
  | some ackfr =>
    match ppeEncodeFrame ppe (.ack ackfr) with
    | .error e => (.error e, conn)
    | .ok ppe =>
      (connCallSendFrame conn ppe.hd (.ack ackfr)).andThen fun _ conn =>
      (.ok ppe, connAckSent conn ppe.hd.pktNum ackfr true)

/-- The STREAM frame of `conn_write_handshake_pkt`, with the frames to be retransmitted. -/
def handshakeStream (conn : Conn) (ppe : Ppe) : Result (Ppe × List Frame) :=
  match conn.strms 0 with
  | none => (.error .abort, conn)
  | some strm0 =>
    let nwrite := min strm0.txBuf.length (subU64 (ppeLeft ppe) streamOverhead)
    if nwrite ≠ strm0.txBuf.length ∧ ppe.hd.type = .initial then (.error .noBuf, conn)
    else if nwrite = 0 then (.ok (ppe, []), conn)
    else
      let fr := Frame.stream ⟨0, strm0.txOffset, strm0.txBuf.take nwrite, false⟩
      match ppeEncodeFrame ppe fr with
      | .error e => (.error e, conn)
      | .ok ppe =>
        (connCallSendFrame conn ppe.hd fr).andThen fun _ conn =>
        let strm0 := (strm0.setTxBuf (strm0.txBuf.drop nwrite)).setTxOffset
          (strm0.txOffset + nwrite)
        (.ok (ppe, [fr]), conn.setStrm strm0)

/-- The padding or the CONNECTION_CLOSE frame that ends a handshake packet. -/
def handshakeTail (conn : Conn) (ppe : Ppe) (frc : List Frame) : Result (Ppe × List Frame) :=
  if ppe.hd.type = .initial then
    if 0 < ppeLeft ppe then
      (connCallSendFrame conn ppe.hd (.padding (ppeLeft ppe))).andThen fun _ conn =>
      (.ok (ppePadding ppe, frc), conn)
    else (.ok (ppePadding ppe, frc), conn)
  else if conn.state = .clientTlsHandshakeFailed ∨ conn.state = .serverTlsHandshakeFailed then
    let fr := Frame.connectionClose tlsHandshakeFailed []
    match ppeEncodeFrame ppe fr with
    | .error e => (.error e, conn)
    | .ok ppe =>
      (connCallSendFrame conn ppe.hd fr).andThen fun _ conn => (.ok (ppe, frc ++ [fr]), conn)
  else (.ok (ppe, frc), conn)

/-- The end of a packet writer: the packet is encrypted, and its frames are kept in a new entry
if there are any. -/
def sendTracked (conn : Conn) (ppe : Ppe) (frc : List Frame) (ts : Nat) (unprotected : Bool) :
    Result Pkt :=
  (ppeFinal conn ppe).andThen fun pkt conn =>
  let conn :=
    if frc = [] then conn
    else conn.addEntry fun addr =>
      rtbEntryNew addr ppe.hd frc ts (ts + pktDeadlinePeriod) pkt.len unprotected
  (.ok pkt, conn.incLastTxPktNum)

/-- `conn_write_handshake_pkt`; `tx_buf` is always the one of stream 0. -/
def connWriteHandshakePkt (conn : Conn) (destlen : Nat) (type : PktType) (ts : Nat) : Result Pkt :=
  let withAck := type ≠ .initial ∧ connNextAckExpired conn ts
  match ppeEncodeHd destlen handshakeAeadOverhead conn.hsTxCkm (conn.longHd type) with
  | .error e => (.error e, conn)
  | .ok ppe =>
    (connCallSendPkt conn ppe.hd).andThen fun _ conn =>
    Result.andThen (if withAck then handshakeAck conn ppe ts else (.ok ppe, conn)) fun ppe conn =>
    if withAck ∧ ppeLeft ppe < streamOverhead + 1 then ppeFinal conn.incLastTxPktNum ppe
    else
      (handshakeStream conn ppe).andThen fun (ppe, frc) conn =>
      (handshakeTail conn ppe frc).andThen fun (ppe, frc) conn =>
      sendTracked conn ppe frc ts true

/-- `conn_write_handshake_ack_pkt`. -/
def connWriteHandshakeAckPkt (conn : Conn) (destlen : Nat) (type : PktType) (ts : Nat) :
    Result (Option Pkt) :=
  if !connNextAckExpired conn ts then (.ok none, conn)
  else
    let (ackfr, conn) := connCreateAckFrame conn ts true
    match ackfr with
    | none => (.ok none, conn)
    | some ackfr =>
      match ppeEncodeHd destlen handshakeAeadOverhead conn.hsTxCkm (conn.longHd type) with
      | .error e => (.error e, conn)
      | .ok ppe =>
        (connCallSendPkt conn ppe.hd).andThen fun _ conn =>
        match ppeEncodeFrame ppe (.ack ackfr) with
        | .error e => (.error e, conn)
        | .ok ppe =>
          (connCallSendFrame conn ppe.hd (.ack ackfr)).andThen fun _ conn =>
          (ppeFinal (connAckSent conn ppe.hd.pktNum ackfr true).incLastTxPktNum ppe).andThen fun pkt conn =>
          (.ok (some pkt), conn)

/-- The transmit buffer of stream 0 refilled. -/
def setTxBuf0 (conn : Conn) (payload : List UInt8) : Conn :=
  match conn.strms 0 with
  | none => conn
  | some strm0 => conn.setStrm (strm0.setTxBuf payload)

/-- Whether the transmit buffer of stream 0 is empty. -/
def txBuf0Empty (conn : Conn) : Bool :=
  match conn.strms 0 with
  | none => true
  | some strm0 => strm0.txBuf.isEmpty

/-- `conn_write_client_initial`. -/
def connWriteClientInitial (conn : Conn) (destlen ts : Nat) : Result Pkt :=
  let answer := conn.callbacks.sendClientInitial conn.log
  let conn := conn.tell .sendClientInitial
  match answer with
  | none | some (_, []) => (.error .callbackFailure, conn)
  | some (pktNum, payload) =>
    let conn := setTxBuf0 conn payload
    let conn := if conn.statelessRetry then conn else conn.setLastTxPktNum (subU64 pktNum 1)
    connWriteHandshakePkt conn destlen .initial ts

/-- `conn_write_client_handshake`. -/
def connWriteClientHandshake (conn : Conn) (destlen ts : Nat) : Result (Option Pkt) :=
  if txBuf0Empty conn then
    let answer := conn.callbacks.sendClientHandshake conn.log
    let conn := conn.tell .sendClientHandshake
    match answer with
    | none => (.error .callbackFailure, conn)
    | some [] =>
      if conn.state = .clientTlsHandshakeFailed then (.error .tlsHandshake, conn)
      else connWriteHandshakeAckPkt conn destlen .handshake ts
    | some payload =>
      (connWriteHandshakePkt (setTxBuf0 conn payload) destlen .handshake ts).andThen fun pkt conn =>
      (.ok (some pkt), conn)
  else
    (connWriteHandshakePkt conn destlen .handshake ts).andThen fun pkt conn => (.ok (some pkt),
      conn)

/-- The number before the server's initial packet number, which is also taken as acknowledged. -/
def setInitialPktNum (conn : Conn) (lastTxPktNum : Nat) : Conn :=
  (conn.setLastTxPktNum lastTxPktNum).setRtb { conn.rtb with largestAcked := lastTxPktNum }

/-- `conn_write_server_handshake`. -/
def connWriteServerHandshake (conn : Conn) (destlen : Nat) (initial : Bool) (ts : Nat) :
    Result (Option Pkt) :=
  if txBuf0Empty conn then
    let answer := conn.callbacks.sendServerHandshake conn.log
    let conn := conn.tell .sendServerHandshake
    match answer with
    | none => (.error .callbackFailure, conn)
    | some (_, []) =>
      if initial then (.error .callbackFailure, conn)
      else if conn.state = .serverTlsHandshakeFailed then (.error .tlsHandshake, conn)
      else connWriteHandshakeAckPkt conn destlen .handshake ts
    | some (pktNum, payload) =>
      let conn := setTxBuf0 conn payload
      let conn := if initial then setInitialPktNum conn (subU64 pktNum 1) else conn
      (connWriteHandshakePkt conn destlen .handshake ts).andThen fun pkt conn => (.ok (some pkt),
        conn)
  else
    -- `pkt_num` keeps its initial value 0.
    let conn := if initial then setInitialPktNum conn (subU64 0 1) else conn
    (connWriteHandshakePkt conn destlen .handshake ts).andThen fun pkt conn => (.ok (some pkt),
      conn)

/-! ## Protected packets -/

/-- The MAX_DATA frame that `conn_write_pkt` queues. -/
def queueMaxData (conn : Conn) (ackfr : Option AckFrame) : Conn :=
  if (ackfr.isSome || !conn.frq.isEmpty || connShouldSendMaxData conn) &&
      conn.maxRxOffset < conn.unsentMaxRxOffset then
    { conn with
      frq := .maxData conn.unsentMaxRxOffset :: conn.frq
      maxRxOffset := conn.unsentMaxRxOffset }
  else conn

/-- The loop over `fc_strms`; `none` is the use of a stream that left the map or the list. -/
def queueMaxStreamData : List Nat → Conn → Option Conn
  | [], conn => some (conn.setFcStrms [])
  | id :: ids, conn =>
    match conn.strms id with
    | none => none
    | some strm =>
      if strm.onFc then
        let conn := conn.setFrq (.maxStreamData ⟨strm.streamId, strm.unsentMaxRxOffset⟩ :: conn.frq)
        queueMaxStreamData ids (conn.setStrm ((strm.setMaxRxOffset strm.unsentMaxRxOffset).setOnFc false))
      else none

/-- The cancel rules of `conn_write_pkt`. -/
def frqCancelled (conn : Conn) : Frame → Bool
  | .rstStream fr => (conn.strms fr.streamId).isNone && fr.appErrorCode != stopping
  | fr => stopSendingCancelled conn fr

/-- A MAX_STREAM_ID frame is appended when the whole queue was written and there is new credit. -/
def writeMaxStreamId (conn : Conn) (bidi : Bool) (w : Written) : Result Written :=
  let ids := conn.ids bidi
  if !w.full && w.rest.isEmpty && ids.maxRemoteStreamId < ids.unsentMaxRemoteStreamId then
    let fr := Frame.maxStreamId ids.unsentMaxRemoteStreamId
    let conn := conn.setIds bidi { ids with maxRemoteStreamId := ids.unsentMaxRemoteStreamId }
    match connPpeWriteFrame conn w.ppe fr with
    | (.error .noBuf, conn) => (.ok { w with rest := [fr], full := true }, conn)
    | (.error _, conn) => (.error .abort, conn)
    | (.ok ppe, conn) => (.ok { w with ppe, done := w.done ++ [fr] }, conn)
  else (.ok w, conn)

/-- The ACK frame at the head of a protected packet. -/
def writeAckFrame (conn : Conn) (ppe : Ppe) (ackfr : Option AckFrame) : Result Ppe :=
  match ackfr with
  | none => (.ok ppe, conn)
  | some ackfr =>
    (connPpeWriteFrame conn ppe (.ack ackfr)).andThen fun ppe conn =>
    (.ok ppe, connAckSent conn ppe.hd.pktNum ackfr false)

/-- The loop over `conn->frq`; a failure that is not `NGTCP2_ERR_NOBUF` fails an assertion. The
queue is left with the frames before the cursor and those from it on. -/
def writeFrq (conn : Conn) (ppe : Ppe) : Result Written :=
  match writeFrames (frqCancelled conn) conn.frq ppe conn with
  | (.error _, conn) => (.error .abort, conn)
  | (.ok w, conn) => (.ok w, conn)

/-- The frames of `conn_write_pkt`: the queue and the MAX_STREAM_ID frames behind it. -/
def writePktFrames (conn : Conn) (ppe : Ppe) : Result Written :=
  (writeFrq conn ppe).andThen fun w conn =>
  (writeMaxStreamId conn true w).andThen fun w conn =>
  writeMaxStreamId conn false w

/-- `conn_write_pkt`. -/
def connWritePkt (conn : Conn) (destlen ts : Nat) : Result (Option Pkt) :=
  let ackExpired := connNextAckExpired conn ts
  let (ackfr, conn) := if ackExpired then connCreateAckFrame conn ts false else (none, conn)
  let conn := queueMaxData conn ackfr
  match queueMaxStreamData conn.fcStrms conn with
  | none => (.error .abort, conn)
  | some conn =>
    if ackfr.isNone ∧ conn.bidi.unsentMaxRemoteStreamId = conn.bidi.maxRemoteStreamId ∧
        conn.uni.unsentMaxRemoteStreamId = conn.uni.maxRemoteStreamId ∧ conn.frq = [] then
      (.ok none, conn)
    else
      match ppeEncodeHd destlen conn.aeadOverhead conn.txCkm conn.shortHd with
      | .error e => (.error e, conn)
      | .ok ppe =>
        (writeAckFrame conn ppe ackfr).andThen fun ppe conn =>
        (writePktFrames conn ppe).andThen fun w conn =>
        let conn := conn.setFrq (w.done ++ w.rest)
        if ackfr.isNone ∧ w.done = [] then (if w.full then .error .noBuf else .ok none, conn)
        else
          (ppeFinal conn w.ppe).andThen fun pkt conn =>
          let conn :=
            if w.done = [] then conn
            else (conn.setFrq w.rest).addEntry fun addr =>
              rtbEntryNew addr w.ppe.hd w.done ts (ts + pktDeadlinePeriod) pkt.len false
          (.ok (some pkt), conn.incLastTxPktNum)

/-- `conn_write_single_frame_pkt`. -/
def connWriteSingleFramePkt (conn : Conn) (destlen : Nat) (fr : Frame) : Result Pkt :=
  match ppeEncodeHd destlen conn.aeadOverhead conn.txCkm conn.shortHd with
  | .error e => (.error e, conn)
  | .ok ppe =>
    (connCallSendPkt conn ppe.hd).andThen fun _ conn =>
    match ppeEncodeFrame ppe fr with
    | .error e => (.error e, conn)
    | .ok ppe =>
      (connCallSendFrame conn ppe.hd fr).andThen fun _ conn =>
      (ppeFinal conn ppe).andThen fun pkt conn =>
      let conn :=
        match fr with
        | .ack ackfr => conn.setAcktr (acktrAddAck conn.acktr ppe.hd.pktNum ackfr false)
        | _ => conn
      (.ok pkt, conn.incLastTxPktNum)

/-- `conn_write_protected_ack_pkt`. -/
def connWriteProtectedAckPkt (conn : Conn) (destlen ts : Nat) : Result (Option Pkt) :=
  if !connNextAckExpired conn ts then (.ok none, conn)
  else
    let (ackfr, conn) := connCreateAckFrame conn ts false
    match ackfr with
    | none => (.ok none, conn)
    | some ackfr =>
      (connWriteSingleFramePkt conn destlen (.ack ackfr)).andThen fun pkt conn =>
      (.ok (some pkt), connCommitTxAck conn)

/-- `conn_process_early_rtb`: entries that the server rejected expire at once. -/
def connProcessEarlyRtb (conn : Conn) : Conn :=
  let add rtb (ent : RtbEntry) :=
    rtbAdd rtb (if conn.earlyDataRejected then { ent with expiry := 0 } else ent)
  { conn with rtb := conn.earlyRtb.foldl add conn.rtb, earlyRtb := [] }

/-- A handshake packet was written, and the state changes. -/
def andSetState (r : Result Pkt) (state : ConnState) : Result (Option Pkt) :=
  r.andThen fun pkt conn => (.ok (some pkt), conn.setState state)

/-- `ngtcp2_conn_write_pkt`. -/
def ngtcp2ConnWritePkt (conn : Conn) (destlen ts : Nat) : Result (Option Pkt) :=
  if conn.lastTxPktNum = uint64Max then (.error .pktNumExhausted, conn)
  else
    (connRetransmit conn destlen ts).andThen fun pkt conn =>
    match pkt with
    | some pkt => (.ok (some pkt), conn)
    | none =>
      match conn.state with
      | .clientInitial => andSetState (connWriteClientInitial conn destlen ts) .clientWaitHandshake
      | .clientWaitHandshake => connWriteClientHandshake conn destlen ts
      | .clientHandshakeAlmostFinished =>
        (connWriteClientHandshake conn destlen ts).andThen fun pkt conn =>
        match pkt with
        | some pkt => (.ok (some pkt), conn)
        | none =>
          let conn := conn.setState .postHandshake
          if !conn.transportParamRecved then (.error .requiredTransportParam, conn)
          else if conn.earlyRtb = [] then (.ok none, conn)
          else connRetransmit (connProcessEarlyRtb conn) destlen ts
      | .clientTlsHandshakeFailed => connWriteClientHandshake conn destlen ts
      | .serverInitial =>
        (connWriteServerHandshake conn destlen true ts).andThen fun pkt conn =>
        (.ok pkt, conn.setState .serverWaitHandshake)
      | .serverWaitHandshake => connWriteServerHandshake conn destlen false ts
      | .serverTlsHandshakeFailed =>
        let initial := match conn.strms 0 with
          | none => true
          | some strm0 => strm0.txOffset == 0
        connWriteServerHandshake conn destlen initial ts
      | .postHandshake => connWritePkt conn destlen ts
      | .closing | .draining => (.ok none, conn)

/-- `ngtcp2_conn_write_ack_pkt`. -/
def ngtcp2ConnWriteAckPkt (conn : Conn) (destlen ts : Nat) : Result (Option Pkt) :=
  if conn.lastTxPktNum = uint64Max then (.error .pktNumExhausted, conn)
  else
    (connRetransmit conn destlen ts).andThen fun pkt conn =>
    match pkt with
    | some pkt => (.ok (some pkt), conn)
    | none =>
      match conn.state with
      | .clientInitial | .clientWaitHandshake | .clientHandshakeAlmostFinished | .serverInitial
      | .serverWaitHandshake => connWriteHandshakeAckPkt conn destlen .handshake ts
      | .postHandshake => connWriteProtectedAckPkt conn destlen ts
      | _ => (.ok none, conn)

/-! ## Streams -/

/-- The key and header form that `ngtcp2_conn_write_stream` chooses. -/
def writeStreamHd (conn : Conn) : Except Err (PktHd × CryptoKm) :=
  match conn.txCkm, conn.earlyCkm with
  | some ckm, _ => .ok (conn.shortHd, ckm)
  | none, some ckm =>
    if conn.server then .error .noKey
    else if conn.earlyDataRejected then .error .earlyDataRejected
    else .ok (pktHdInit true .zeroRttProtected conn.clientConnId conn.nextPktNum conn.version, ckm)
  | none, none => .error .noKey

/-- The new entry of a stream packet: 0-RTT packets wait as short packets for the handshake. -/
def trackStreamPkt (conn : Conn) (hd : PktHd) (fr : StreamFrame) (ts pktlen : Nat) : Conn :=
  if hd.type = .zeroRttProtected then
    let ent := rtbEntryNew conn.nextAddr { hd with longForm := false, type := .pkt01 } [.stream fr] ts
      (ts + pktDeadlinePeriod) pktlen false
    { conn with earlyRtb := conn.earlyRtb ++ [ent], nextAddr := conn.nextAddr + 1 }
  else conn.addEntry fun addr =>
    rtbEntryNew addr hd [.stream fr] ts (ts + pktDeadlinePeriod) pktlen false

/-- The stream and the connection are charged for the bytes of a STREAM frame. -/
def chargeStream (conn : Conn) (strm : Strm) (fr : StreamFrame) : Conn :=
  let strm := strm.setTxOffset (strm.txOffset + fr.data.length)
  let strm := if fr.fin then strm.shutdownWr else strm
  let txOffset := if fr.streamId = 0 then conn.txOffset else conn.txOffset + fr.data.length
  ({ conn with txOffset }.setStrm strm).incLastTxPktNum

/-- How many of the bytes `ngtcp2_conn_write_stream` can send. -/
def writeStreamLen (conn : Conn) (strm : Strm) (left datalen : Nat) : Nat :=
  min (min (min datalen (left - streamOverhead)) (subU64 strm.maxTxOffset strm.txOffset))
    (subU64 conn.maxTxOffset conn.txOffset)

/-- `ngtcp2_conn_write_stream`, with the packet and `*pdatalen`. -/
def ngtcp2ConnWriteStream (conn : Conn) (destlen streamId : Nat) (fin : Bool) (data : List UInt8)
    (ts : Nat) :
    Result (Pkt × Nat) :=
  if conn.lastTxPktNum = uint64Max then (.error .pktNumExhausted, conn)
  else
    match conn.strms streamId with
    | none => (.error .streamNotFound, conn)
    | some strm =>
      if strm.shutWr then (.error .streamShutWr, conn)
      else
        match writeStreamHd conn with
        | .error e => (.error e, conn)
        | .ok (hd, ckm) =>
          match ppeEncodeHd destlen conn.aeadOverhead (some ckm) hd with
          | .error e => (.error e, conn)
          | .ok ppe =>
            if ppeLeft ppe ≤ streamOverhead then (.error .noBuf, conn)
            else
              let ndatalen := writeStreamLen conn strm (ppeLeft ppe) data.length
              if 0 < data.length ∧ ndatalen = 0 then (.error .streamDataBlocked, conn)
              else
                let fr : StreamFrame :=
                  ⟨streamId, strm.txOffset, data.take ndatalen, fin && ndatalen == data.length⟩
                (connCallSendPkt conn hd).andThen fun _ conn =>
                match ppeEncodeFrame ppe (.stream fr) with
                | .error e => (.error e, conn)
                | .ok ppe =>
                  (connCallSendFrame conn hd (.stream fr)).andThen fun _ conn =>
                  (ppeFinal conn ppe).andThen fun pkt conn =>
                  (.ok (pkt, ndatalen), chargeStream (trackStreamPkt conn hd fr ts pkt.len) strm fr)

end Ngtcp2
