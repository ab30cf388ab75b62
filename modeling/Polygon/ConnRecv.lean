import Polygon.Conn

/-!
# Receiving frames

The frame handlers of `ngtcp2_conn.c`. A handler that finds a stream object keeps
its value and writes it back where the source changes the object.
-/
namespace Ngtcp2

/-- `conn_max_data_violated`. -/
def connMaxDataViolated (conn : Conn) (datalen : Nat) : Bool :=
  subU64 conn.maxRxOffset conn.rxOffset < datalen

/-- The stream ID checks at the head of the handlers of stream frames. -/
def connCheckStreamId (conn : Conn) (streamId : Nat) : Option Err :=
  let ids := conn.ids (bidiStream streamId)
  if connLocalStream conn streamId then
    if ids.nextLocalStreamId ≤ streamId then some .streamState else none
  else if ids.maxRemoteStreamId < streamId then some .streamId
  else none

/-- Looks the stream up and creates it when its ID was never used; `none` is a closed stream. -/
def connFindOrOpenStream (conn : Conn) (streamId : Nat) : Result (Option Strm) :=
  match conn.strms streamId with
  | some strm => (.ok (some strm), conn)
  | none =>
    if connLocalStream conn streamId then (.ok none, conn)
    else
      let bidi := bidiStream streamId
      let ids := conn.ids bidi
      match idtrOpen ids.remoteIdtr streamId with
      | none => (.ok none, conn)
      | some idtr =>
        (ngtcp2ConnInitStream (conn.setIds bidi { ids with remoteIdtr := idtr }) streamId).andThen
          fun strm conn =>
        if bidi then (.ok (some strm), conn)
        else
          let strm := strm.shutdownWr
          (.ok (some strm), conn.setStrm strm)

/-- `conn_emit_pending_stream_data`, with the stream object as it is afterwards. The fuel bounds
the turns of its loop. -/
def connEmitPendingStreamData : Nat → Conn → Strm → Nat → Result Strm
  | 0, conn, _, _ => (.error .abort, conn)
  | fuel + 1, conn, strm, rxOffset =>
    match robDataAt strm.rob rxOffset with
    | none => (.error .abort, conn)
    | some data =>
      if data.length = 0 then
        if rxOffset = strmRxOffset strm then (.ok strm, conn) else (.error .abort, conn)
      else
        let fin := strm.shutRd && rxOffset + data.length == strm.lastRxOffset
        (connCallRecvStreamData conn strm.streamId fin data).andThen fun _ conn =>
        match robPop strm.rob rxOffset data.length with
        | none => (.error .abort, conn)
        | some rob =>
          let strm := strm.setRob rob
          connEmitPendingStreamData fuel (conn.setStrm strm) strm (rxOffset + data.length)

/-- `conn_emit_pending_stream0_data`. -/
def connEmitPendingStream0Data : Nat → Conn → Strm → Nat → Result Strm
  | 0, conn, _, _ => (.error .abort, conn)
  | fuel + 1, conn, strm, rxOffset =>
    match robDataAt strm.rob rxOffset with
    | none => (.error .abort, conn)
    | some data =>
      if data.length = 0 then
        if rxOffset = strmRxOffset strm then (.ok strm, conn) else (.error .abort, conn)
      else
        (connCallRecvStream0Data conn data).andThen fun _ conn =>
        let strm := strm.setUnsentMaxRxOffset (strm.unsentMaxRxOffset + data.length)
        let (strm, conn) := connExtendMaxStreamOffset conn strm data.length
        match robPop strm.rob rxOffset data.length with
        | none => (.error .abort, conn)
        | some rob =>
          let strm := strm.setRob rob
          connEmitPendingStream0Data fuel (conn.setStrm strm) strm (rxOffset + data.length)

/-- The turns of an emission loop that the chunks of a buffer can need. -/
def emitFuel (rob : Rob) : Nat := rob.data.length + 2

/-- The end of `conn_recv_stream`: the frame's new bytes are delivered or buffered. -/
def connRecvStreamDeliver (conn : Conn) (strm : Strm) (fr : StreamFrame) (rxOffset : Nat) :
    Result Unit :=
  (if fr.offset ≤ rxOffset then
    let data := fr.data.drop (rxOffset - fr.offset)
    let rxOffset := rxOffset + data.length
    let strm := strm.setRob (robRemovePrefix strm.rob rxOffset)
    let conn := conn.setStrm strm
    if strm.streamId = 0 then
      (connCallRecvStream0Data conn data).andThen fun _ conn =>
      connEmitPendingStream0Data (emitFuel strm.rob) conn strm rxOffset
    else
      let fin := strm.shutRd && rxOffset == strm.lastRxOffset
      (connCallRecvStreamData conn strm.streamId fin data).andThen fun _ conn =>
      connEmitPendingStreamData (emitFuel strm.rob) conn strm rxOffset
  else
    let strm := strmRecvReordering strm fr
    (.ok strm, conn.setStrm strm)).andThen fun strm conn =>
  ngtcp2ConnCloseStreamIfShutRdwr conn strm 0

/-- The FIN branch of `conn_recv_stream`. -/
def connRecvStreamFin (conn : Conn) (strm : Strm) (fr : StreamFrame) : Result Unit :=
  if strm.shutRd then
    if strm.lastRxOffset ≠ fr.endOffset then (.error .finalOffset, conn) else (.ok (), conn)
  else if fr.endOffset < strm.lastRxOffset then (.error .finalOffset, conn)
  else
    let strm := (strm.setLastRxOffset fr.endOffset).shutdownRd
    let conn := conn.setStrm strm
    if strm.stopSending then ngtcp2ConnCloseStreamIfShutRdwr conn strm strm.appErrorCode
    else
      let (strm, conn) := fcUnlink conn strm
      let rxOffset := strmRxOffset strm
      if fr.endOffset = rxOffset then
        (connCallRecvStreamData conn strm.streamId true []).andThen fun _ conn =>
        ngtcp2ConnCloseStreamIfShutRdwr conn strm 0
      else connRecvStreamDeliver conn strm fr rxOffset

/-- The branch of `conn_recv_stream` for a frame without FIN. -/
def connRecvStreamNoFin (conn : Conn) (strm : Strm) (fr : StreamFrame) : Result Unit :=
  if strm.shutRd ∧ strm.lastRxOffset < fr.endOffset then (.error .finalOffset, conn)
  else
    let strm := strm.setLastRxOffset (max strm.lastRxOffset fr.endOffset)
    let conn := conn.setStrm strm
    let rxOffset := strmRxOffset strm
    if fr.endOffset ≤ rxOffset then (.ok (), conn)
    else if strm.stopSending then (.ok (), conn)
    else connRecvStreamDeliver conn strm fr rxOffset

/-- The flow control checks of `conn_recv_stream`, which charge the connection for new bytes. -/
def connRecvStreamCharge (conn : Conn) (strm : Strm) (frEndOffset : Nat) : Result Unit :=
  if strm.maxRxOffset < frEndOffset then (.error .flowControl, conn)
  else if strm.lastRxOffset < frEndOffset ∧ strm.streamId ≠ 0 then
    let datalen := frEndOffset - strm.lastRxOffset
    if connMaxDataViolated conn datalen then (.error .flowControl, conn)
    else (.ok (), conn.setRxOffset (conn.rxOffset + datalen))
  else (.ok (), conn)

/-- The checks `conn_recv_stream` makes before it looks the stream up. -/
def connCheckStreamFrame (conn : Conn) (fr : StreamFrame) : Option Err :=
  if fr.streamId = 0 ∧ fr.fin then some .proto
  else if !fr.fin ∧ fr.data.length = 0 then some .frameFormat
  else
    match connCheckStreamId conn fr.streamId with
    | some e => some e
    | none =>
      if !bidiStream fr.streamId ∧ connLocalStream conn fr.streamId ∧ fr.endOffset ≠ 0 then
        some .finalOffset
      else if subU64 maxVarint fr.data.length < fr.offset then some .proto
      else none

/-- `conn_recv_stream`. -/
def connRecvStream (conn : Conn) (fr : StreamFrame) : Result Unit :=
  match connCheckStreamFrame conn fr with
  | some e => (.error e, conn)
  | none =>
    (connFindOrOpenStream conn fr.streamId).andThen fun strm conn =>
    match strm with
    | none => (.ok (), conn)
    | some strm =>
      (connRecvStreamCharge conn strm fr.endOffset).andThen fun _ conn =>
      if fr.fin then connRecvStreamFin conn strm fr else connRecvStreamNoFin conn strm fr

/-- `conn_rst_stream`. -/
def connRstStream (conn : Conn) (strm : Strm) (appErrorCode : Nat) : Conn :=
  (conn.setFrq (.rstStream ⟨strm.streamId, appErrorCode, strm.txOffset⟩ :: conn.frq)).tell
    (.rstQueued strm.streamId)

/-- `conn_stop_sending`, with the stream object as it is afterwards. -/
def connStopSending (conn : Conn) (strm : Strm) (appErrorCode : Nat) : Strm × Conn :=
  fcUnlink (conn.setFrq (.stopSending ⟨strm.streamId, appErrorCode⟩ :: conn.frq)) strm

/-- `conn_recv_rst_stream`. -/
def connRecvRstStream (conn : Conn) (fr : RstStreamFrame) : Result Unit :=
  if fr.streamId = 0 then (.error .proto, conn)
  else
    match connCheckStreamId conn fr.streamId with
    | some e => (.error e, conn)
    | none =>
      let bidi := bidiStream fr.streamId
      match conn.strms fr.streamId with
      | none =>
        if connLocalStream conn fr.streamId then
          if !bidi ∧ fr.finalOffset ≠ 0 then (.error .finalOffset, conn) else (.ok (), conn)
        else
          let ids := conn.ids bidi
          if idtrIsOpen ids.remoteIdtr fr.streamId then (.ok (), conn)
          else if conn.localSettings.maxStreamData.toNat < fr.finalOffset ∨
              connMaxDataViolated conn fr.finalOffset then (.error .flowControl, conn)
          else
            let conn :=
              match idtrOpen ids.remoteIdtr fr.streamId with
              | none => conn
              | some idtr => conn.setIds bidi { ids with remoteIdtr := idtr }
            (.ok (), conn.setRxOffset (conn.rxOffset + fr.finalOffset))
      | some strm =>
        if strm.shutRd ∧ strm.lastRxOffset ≠ fr.finalOffset then (.error .finalOffset, conn)
        else if ¬strm.shutRd ∧ fr.finalOffset < strm.lastRxOffset then (.error .finalOffset, conn)
        else
          let datalen := fr.finalOffset - strm.lastRxOffset
          if strm.maxRxOffset < fr.finalOffset ∨ connMaxDataViolated conn datalen then
            (.error .flowControl, conn)
          else
            let strm := strm.markRecvRst
            let conn := (conn.setRxOffset (conn.rxOffset + datalen)).setStrm strm
            ngtcp2ConnCloseStreamIfShutRdwr conn strm fr.appErrorCode

/-- `conn_recv_stop_sending`. -/
def connRecvStopSending (conn : Conn) (fr : StopSendingFrame) : Result Unit :=
  if fr.streamId = 0 then (.error .proto, conn)
  else
    match connCheckStreamId conn fr.streamId with
    | some e => (.error e, conn)
    | none =>
      let bidi := bidiStream fr.streamId
      match conn.strms fr.streamId with
      | none =>
        let ids := conn.ids bidi
        if !connLocalStream conn fr.streamId && !idtrIsOpen ids.remoteIdtr fr.streamId then
          match idtrOpen ids.remoteIdtr fr.streamId with
          | none => (.ok (), conn)
          | some idtr => (.ok (), conn.setIds bidi { ids with remoteIdtr := idtr })
        else (.ok (), conn)
      | some strm =>
        let conn := connRstStream conn strm 0
        let strm := strm.markSentRst
        ngtcp2ConnCloseStreamIfShutRdwr (conn.setStrm strm) strm fr.appErrorCode

/-- `conn_recv_max_stream_data`. -/
def connRecvMaxStreamData (conn : Conn) (fr : MaxStreamDataFrame) : Result Unit :=
  match connCheckStreamId conn fr.streamId with
  | some e => (.error e, conn)
  | none =>
    (connFindOrOpenStream conn fr.streamId).andThen fun strm conn =>
    match strm with
    | none => (.ok (), conn)
    | some strm =>
      (.ok (), conn.setStrm (strm.setMaxTxOffset (max strm.maxTxOffset fr.maxStreamData)))

/-- `conn_recv_max_data`. -/
def connRecvMaxData (conn : Conn) (maxData : Nat) : Conn :=
  { conn with maxTxOffset := max conn.maxTxOffset maxData }

/-- `conn_recv_max_stream_id`. -/
def connRecvMaxStreamId (conn : Conn) (maxStreamId : Nat) : Result Unit :=
  let bidi := bidiStream maxStreamId
  let ids := conn.ids bidi
  let conn := conn.setIds bidi { ids with maxLocalStreamId := max ids.maxLocalStreamId maxStreamId }
  connCallExtendMaxStreamId conn maxStreamId

/-- `conn_recv_ping`. -/
def connRecvPing (conn : Conn) (data : List UInt8) : Conn :=
  if data.length = 0 then conn else conn.setFrq (.pong data :: conn.frq)

/-- `conn_recv_pong`. -/
def connRecvPong (conn : Conn) (data : List UInt8) : Result Unit :=
  if data.length = 0 then (.error .frameFormat, conn) else (.ok (), conn)

/-- `conn_recv_connection_close`. -/
def connRecvConnectionClose (conn : Conn) : Conn := conn.setState .draining

/-! ## Acknowledgements -/

/-- `call_acked_stream_offset` for the frames of an acknowledged packet. -/
def callAckedStreamOffset : List Frame → Conn → Result Unit
  | [], conn => (.ok (), conn)
  | .stream fr :: frc, conn =>
    match conn.strms fr.streamId with
    | none => callAckedStreamOffset frc conn
    | some strm =>
      let prevStreamOffset := gaptrFirstGapOffset strm.ackedTxOffset
      let strm := strm.setAckedTxOffset (gaptrPush strm.ackedTxOffset fr.offset fr.data.length)
      let conn := conn.setStrm strm
      let datalen := subU64 (gaptrFirstGapOffset strm.ackedTxOffset) prevStreamOffset
      if datalen = 0 ∧ !fr.fin then callAckedStreamOffset frc conn
      else
        (connCall conn (.ackedStreamDataOffset strm.streamId prevStreamOffset datalen)).andThen
          fun _ conn =>
        (ngtcp2ConnCloseStreamIfShutRdwr conn strm 0).andThen fun _ conn =>
        callAckedStreamOffset frc conn
  | _ :: frc, conn => callAckedStreamOffset frc conn

/-- An entry that the received ACK frame covers: the streams are told and the entry is removed. -/
def rtbOnAcked (conn : Conn) (ent : RtbEntry) : Result Unit :=
  let conn := conn.tell (.pktAcked ent.hd.pktNum ent.frc)
  (if conn.callbacks.ackedStreamDataOffset then callAckedStreamOffset ent.frc conn
    else (.ok (), conn)).andThen fun _ conn =>
  match rtbRemove { conn.rtb with largestAcked := max conn.rtb.largestAcked ent.hd.pktNum } ent with
  | none => (.error .abort, conn)
  | some rtb => (.ok (), conn.setRtb rtb)

/-- The first range of an ACK frame, from the first entry it may cover on. Returns the entries
from the cursor on. -/
def rtbRecvAckFirst (unprotected : Bool) (minAck largestAck : Nat) :
    List RtbEntry → Conn → Result (List RtbEntry)
  | [], conn => (.ok [], conn)
  | ent :: ents, conn =>
    if minAck ≤ ent.hd.pktNum ∧ ent.hd.pktNum ≤ largestAck then
      if unprotected && !ent.unprotected then rtbRecvAckFirst unprotected minAck largestAck ents conn
      else
        (rtbOnAcked conn ent).andThen fun _ conn =>
        rtbRecvAckFirst unprotected minAck largestAck ents conn
    else (.ok (ent :: ents), conn)

/-- One further range of an ACK frame. -/
def rtbRecvAckBlk (unprotected : Bool) (minAck largestAck : Nat) :
    List RtbEntry → Conn → Result (List RtbEntry)
  | [], conn => (.ok [], conn)
  | ent :: ents, conn =>
    if largestAck < ent.hd.pktNum then rtbRecvAckBlk unprotected minAck largestAck ents conn
    else if ent.hd.pktNum < minAck then (.ok (ent :: ents), conn)
    else if unprotected && !ent.unprotected then rtbRecvAckBlk unprotected minAck largestAck ents conn
    else
      (rtbOnAcked conn ent).andThen fun _ conn =>
      rtbRecvAckBlk unprotected minAck largestAck ents conn

def rtbRecvAckBlks (unprotected : Bool) : Nat → List AckBlk → List RtbEntry → Conn → Result Unit
  | _, [], _, conn => (.ok (), conn)
  | _, _, [], conn => (.ok (), conn)
  | minAck, blk :: blks, ents, conn =>
    let (minAck, largestAck) := ackBlkRange minAck blk
    (rtbRecvAckBlk unprotected minAck largestAck ents conn).andThen fun ents conn =>
    rtbRecvAckBlks unprotected minAck blks ents conn

/-- `ngtcp2_rtb_recv_ack`. -/
def ngtcp2RtbRecvAck (conn : Conn) (fr : AckFrame) (unprotected : Bool) : Result Unit :=
  let ents := conn.rtb.head.dropWhile fun ent => fr.largestAck < ent.hd.pktNum
  let minAck := subU64 fr.largestAck fr.firstAckBlklen
  (rtbRecvAckFirst unprotected minAck fr.largestAck ents conn).andThen fun ents conn =>
  rtbRecvAckBlks unprotected minAck fr.blks ents conn

/-- `conn_recv_ack`. -/
def connRecvAck (conn : Conn) (fr : AckFrame) (unprotected : Bool) : Result Unit :=
  if pktValidateAck fr then
    ngtcp2RtbRecvAck (conn.setAcktr (acktrRecvAck conn.acktr fr unprotected)) fr unprotected
  else (.error .ackFrame, conn)

/-- `conn_set_next_ack_expiry`, with `NGTCP2_DELAYED_ACK_TIMEOUT`. -/
def connSetNextAckExpiry (conn : Conn) (ts : Nat) : Conn :=
  { conn with nextAckExpiry := ts + 25000, immediateAck := false }

/-- `ngtcp2_conn_sched_ack`. -/
def ngtcp2ConnSchedAck (conn : Conn) (pktNum : Nat) (activeAck : Bool) (ts : Nat)
    (unprotected : Bool) :
    Result Unit :=
  match acktrAdd conn.acktr ⟨pktNum, ts, unprotected⟩ activeAck with
  | none => (.error .proto, conn)
  | some acktr =>
    let conn := conn.setAcktr acktr
    if !conn.immediateAck && conn.nextAckExpiry == 0 && conn.acktr.activeAck then
      (.ok (), connSetNextAckExpiry conn ts)
    else (.ok (), conn)

/-- The frame switch of `conn_recv_pkt`; `longForm` says that the packet is 0-RTT Protected. -/
def connRecvPktFrame (longForm : Bool) (conn : Conn) : Frame → Result Unit
  | .ack fr => connRecvAck conn fr false
  | .stream fr => if fr.streamId = 0 ∧ longForm then (.error .proto, conn) else connRecvStream conn fr
  | .rstStream fr => connRecvRstStream conn fr
  | .stopSending fr => connRecvStopSending conn fr
  | .maxStreamData fr => connRecvMaxStreamData conn fr
  | .maxData maxData => (.ok (), connRecvMaxData conn maxData)
  | .maxStreamId maxStreamId => connRecvMaxStreamId conn maxStreamId
  | .ping data => (.ok (), connRecvPing conn data)
  | .pong data => connRecvPong conn data
  | .connectionClose .. => (.ok (), connRecvConnectionClose conn)
  | .applicationClose .. => (.ok (), connRecvConnectionClose conn)
  | _ => (.ok (), conn)

/-- The frame switch of `conn_recv_delayed_handshake_pkt`. -/
def connRecvDelayedHandshakeFrame (type : PktType) (conn : Conn) : Frame → Result Unit
  | .ack fr => if type = .initial then (.error .proto, conn) else connRecvAck conn fr true
  | .padding _ => (.ok (), conn)
  | .stream fr => connRecvStream conn fr
  | _ => (.error .proto, conn)

/-! ## The handshake -/

/-- A STREAM frame in `conn_recv_handshake_pkt`; `handshakeFailed` is the local of that name,
returned as it is afterwards. -/
def connRecvHandshakeStream (conn : Conn) (type : PktType) (handshakeFailed : Bool)
    (fr : StreamFrame) : Result Bool :=
  if fr.streamId ≠ 0 then (.ok handshakeFailed, conn)
  else if fr.data.length = 0 then (.error .frameFormat, conn)
  else if type = .initial ∧ fr.offset ≠ 0 then (.error .proto, conn)
  else if fr.fin then (.error .proto, conn)
  else
    match conn.strms 0 with
    | none => (.error .abort, conn)
    | some strm0 =>
      let rxOffset := strmRxOffset strm0
      if fr.endOffset ≤ rxOffset then (.ok handshakeFailed, conn)
      else
        let strm0 := strm0.setLastRxOffset (max strm0.lastRxOffset fr.endOffset)
        let conn := conn.setStrm strm0
        if strm0.maxRxOffset < fr.endOffset then (.error .flowControl, conn)
        else if fr.offset ≤ rxOffset then
          let data := fr.data.drop (rxOffset - fr.offset)
          let rxOffset := rxOffset + data.length
          let strm0 := strm0.setRob (robRemovePrefix strm0.rob rxOffset)
          let (res, conn) := connCallRecvStream0Data (conn.setStrm strm0) data
          let strm0' := strm0.setUnsentMaxRxOffset (strm0.unsentMaxRxOffset + data.length)
          match res with
          | .error .tlsHandshake => (.ok true, conn.setStrm strm0')
          | .error e => (.error e, conn)
          | .ok _ =>
            let conn := conn.setStrm strm0'
            if handshakeFailed then (.ok handshakeFailed, conn)
            else
              (connEmitPendingStream0Data (emitFuel strm0'.rob) conn strm0' rxOffset).andThen
                fun _ conn => (.ok handshakeFailed, conn)
        else if handshakeFailed then (.ok handshakeFailed, conn)
        else (.ok handshakeFailed, conn.setStrm (strmRecvReordering strm0 fr))

/-- The frame switch of `conn_recv_handshake_pkt`. -/
def connRecvHandshakeFrame (type : PktType) (handshakeFailed : Bool) (conn : Conn) :
    Frame → Result Bool
  | .ack fr =>
    if type = .initial ∨ type = .retry then (.error .proto, conn)
    else (connRecvAck conn fr true).andThen fun _ conn => (.ok handshakeFailed, conn)
  | .padding _ => if type = .retry then (.error .proto, conn) else (.ok handshakeFailed, conn)
  | .stream fr => connRecvHandshakeStream conn type handshakeFailed fr
  | .connectionClose .. =>
    if type = .handshake then (.ok handshakeFailed,
      connRecvConnectionClose conn) else (.error .proto, conn)
  | _ => (.error .proto, conn)

/-- `conn_recv_server_stateless_retry`. -/
def connRecvServerStatelessRetry (conn : Conn) : Result Unit :=
  (connCall { conn with statelessRetry := true } .recvServerStatelessRetry).andThen fun _ conn =>
  let strm0 := strmInit 0 conn.localSettings.maxStreamData.toNat strm0MaxStreamData conn.mem
  (.ok (), { conn with
    lastTxPktNum := 0
    maxRxPktNum := 0
    rtb := rtbInit
    acktr := acktrInit
    connIdNegotiated := false
    state := .clientInitial }.setStrm strm0)

end Ngtcp2
