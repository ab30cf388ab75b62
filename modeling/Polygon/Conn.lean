import Polygon.RobInvariant
import Polygon.Acktr
import Polygon.Rtb

/-!
# The connection object

`ngtcp2_conn`, `ngtcp2_strm` and the application's callbacks. Every function of
`ngtcp2_conn.c` becomes a function from the connection to a result and the next
connection; the log records what the application was told, in order.
-/
namespace Ngtcp2

open Ranges

inductive ConnState where
  | clientInitial | clientWaitHandshake | clientHandshakeAlmostFinished | clientTlsHandshakeFailed
  | serverInitial | serverWaitHandshake | serverTlsHandshakeFailed
  | postHandshake | closing | draining
  deriving DecidableEq, Repr

/-- `ngtcp2_settings`, as far as the connection reads it. -/
structure Settings where
  maxStreamData : UInt32
  maxData : UInt32
  maxStreamIdBidi : UInt32
  maxStreamIdUni : UInt32
  ackDelayExponent : Nat
  deriving DecidableEq, Repr

/-- Key and initialization vector of one direction and epoch. -/
structure CryptoKm where
  key : List UInt8
  iv : List UInt8
  deriving DecidableEq, Repr

/-- A packet handed to the application for sending, with the frames encoded in it. -/
structure Pkt where
  hd : PktHd
  frames : List Frame
  len : Nat
  ckm : CryptoKm
  deriving DecidableEq, Repr

/-- The calls into the application and, for the record, the stream objects created, the
RST_STREAM frames queued and the packets acknowledged. -/
inductive Event where
  | recvStreamData (streamId : Nat) (fin : Bool) (data : List UInt8)
  | recvStream0Data (data : List UInt8)
  | streamClose (streamId appErrorCode : Nat)
  | ackedStreamDataOffset (streamId offset datalen : Nat)
  | extendMaxStreamId (maxStreamId : Nat)
  | handshakeCompleted
  | recvServerStatelessRetry
  | recvStatelessReset
  | sendPkt (hd : PktHd)
  | sendFrame (hd : PktHd) (fr : Frame)
  | encrypt (hd : PktHd)
  | sendClientInitial | sendClientHandshake | sendServerHandshake
  | strmInit (streamId : Nat)
  | rstQueued (streamId : Nat)
  | pktAcked (pktNum : Nat) (frc : List Frame)
  deriving DecidableEq, Repr

/-- The application's answers, each given everything it was told before. `reply` is `none` for
the value 0, also where a callback is not set. -/
structure Callbacks where
  reply : List Event → Event → Option Err
  ackedStreamDataOffset : Bool
  sendClientInitial : List Event → Option (Nat × List UInt8)
  sendClientHandshake : List Event → Option (List UInt8)
  sendServerHandshake : List Event → Option (Nat × List UInt8)

/-- `ngtcp2_strm`; the five flags are the bits of its `flags`, `onFc` says that `fc_pprev` is
set, and `txBuf` holds the unsent bytes of its transmit buffer. -/
structure Strm where
  streamId : Nat
  txOffset : Nat
  ackedTxOffset : List Range
  maxTxOffset : Nat
  lastRxOffset : Nat
  rob : Rob
  maxRxOffset : Nat
  unsentMaxRxOffset : Nat
  txBuf : List UInt8
  shutRd : Bool
  shutWr : Bool
  sentRst : Bool
  recvRst : Bool
  stopSending : Bool
  onFc : Bool
  appErrorCode : Nat

namespace Strm

def setRob (strm : Strm) (rob : Rob) : Strm := { strm with rob }

def setLastRxOffset (strm : Strm) (lastRxOffset : Nat) : Strm := { strm with lastRxOffset }

def setUnsentMaxRxOffset (strm : Strm) (unsentMaxRxOffset : Nat) : Strm :=
  { strm with unsentMaxRxOffset }

def setMaxRxOffset (strm : Strm) (maxRxOffset : Nat) : Strm := { strm with maxRxOffset }

def setTxOffset (strm : Strm) (txOffset : Nat) : Strm := { strm with txOffset }

def setMaxTxOffset (strm : Strm) (maxTxOffset : Nat) : Strm := { strm with maxTxOffset }

def setAckedTxOffset (strm : Strm) (ackedTxOffset : List Range) : Strm :=
    { strm with ackedTxOffset }

def setTxBuf (strm : Strm) (txBuf : List UInt8) : Strm := { strm with txBuf }

def setOnFc (strm : Strm) (onFc : Bool) : Strm := { strm with onFc }

def setAppErrorCode (strm : Strm) (appErrorCode : Nat) : Strm := { strm with appErrorCode }

/-- `NGTCP2_STRM_FLAG_SHUT_RD` set. -/
def shutdownRd (strm : Strm) : Strm := { strm with shutRd := true }

/-- `NGTCP2_STRM_FLAG_SHUT_WR` set. -/
def shutdownWr (strm : Strm) : Strm := { strm with shutWr := true }

/-- `NGTCP2_STRM_FLAG_SHUT_RD` and `NGTCP2_STRM_FLAG_RECV_RST` set. -/
def markRecvRst (strm : Strm) : Strm := { strm with shutRd := true, recvRst := true }

/-- `NGTCP2_STRM_FLAG_SHUT_WR` and `NGTCP2_STRM_FLAG_SENT_RST` set. -/
def markSentRst (strm : Strm) : Strm := { strm with shutWr := true, sentRst := true }

/-- `NGTCP2_STRM_FLAG_STOP_SENDING` set. -/
def markStopSending (strm : Strm) : Strm := { strm with stopSending := true }

end Strm

/-- The chunk size of a stream's reorder buffer. -/
def strmRobChunk : Nat := 8 * 1024

def strmInit (streamId maxRxOffset maxTxOffset : Nat) (mem : Nat → UInt8) : Strm :=
  { streamId, txOffset := 0, ackedTxOffset := gapsInit, maxTxOffset, lastRxOffset := 0
    rob := robInit strmRobChunk mem, maxRxOffset, unsentMaxRxOffset := maxRxOffset, txBuf := []
    shutRd := false, shutWr := false, sentRst := false, recvRst := false, stopSending := false
    onFc := false, appErrorCode := 0 }

def strmRxOffset (strm : Strm) : Nat := robFirstGapOffset strm.rob

def strmRecvReordering (strm : Strm) (fr : StreamFrame) : Strm :=
  strm.setRob (robPush strm.rob fr.offset fr.data)

/-- The fields the connection keeps once for bidirectional and once for unidirectional streams. -/
structure StreamIds where
  unsentMaxRemoteStreamId : Nat
  maxRemoteStreamId : Nat
  remoteStreamIdWindowStart : Nat
  maxLocalStreamId : Nat
  nextLocalStreamId : Nat
  remoteIdtr : Idtr
  deriving DecidableEq, Repr

/-- `ngtcp2_conn`. Stream 0, `conn->strm0`, is the entry of `strms` at 0; `nextAddr` numbers
the allocations of retransmission entries. -/
structure Conn where
  state : ConnState
  callbacks : Callbacks
  log : List Event
  strms : Nat → Option Strm
  fcStrms : List Nat
  bidi : StreamIds
  uni : StreamIds
  connId : Nat
  clientConnId : Nat
  lastTxPktNum : Nat
  maxRxPktNum : Nat
  unsentMaxRxOffset : Nat
  maxRxOffset : Nat
  rxOffset : Nat
  txOffset : Nat
  maxTxOffset : Nat
  frq : List Frame
  mem : Nat → UInt8
  nextAddr : Nat
  acktr : Acktr
  rtb : Rtb
  version : Nat
  handshakeCompleted : Bool
  connIdNegotiated : Bool
  transportParamRecved : Bool
  recvProtectedPkt : Bool
  statelessRetry : Bool
  earlyDataRejected : Bool
  server : Bool
  hsTxCkm : Option CryptoKm
  hsRxCkm : Option CryptoKm
  earlyCkm : Option CryptoKm
  txCkm : Option CryptoKm
  rxCkm : Option CryptoKm
  aeadOverhead : Nat
  earlyRtb : List RtbEntry
  localSettings : Settings
  remoteSettings : Settings
  nextAckExpiry : Nat
  immediateAck : Bool

/-- `NGTCP2_STRM0_MAX_STREAM_DATA`. -/
def strm0MaxStreamData : Nat := 65535

def settingsZero : Settings := ⟨0, 0, 0, 0, 0⟩

/-- The IDs of one kind of streams in a new connection. -/
def streamIdsInit (server : Bool) (maxStreamId nextLocalStreamId : Nat) : StreamIds :=
  { unsentMaxRemoteStreamId := maxStreamId, maxRemoteStreamId := maxStreamId
    remoteStreamIdWindowStart := 0, maxLocalStreamId := 0, nextLocalStreamId
    remoteIdtr := idtrInit !server }

/-- `conn_new`; `mem` is what newly allocated chunks of reorder buffers hold. -/
def connNew (mem : Nat → UInt8) (connId version : Nat) (callbacks : Callbacks) (settings : Settings)
    (server : Bool) : Conn :=
  { state := if server then .serverInitial else .clientInitial
    callbacks, log := []
    strms := fun id =>
      if id = 0 then some (strmInit 0 settings.maxStreamData.toNat strm0MaxStreamData mem) else none
    fcStrms := []
    bidi := streamIdsInit server settings.maxStreamIdBidi.toNat 0
    uni := streamIdsInit server settings.maxStreamIdUni.toNat 0
    connId, clientConnId := 0, lastTxPktNum := 0, maxRxPktNum := 0
    unsentMaxRxOffset := settings.maxData.toNat, maxRxOffset := settings.maxData.toNat, rxOffset :=
      0
    txOffset := 0, maxTxOffset := 0, frq := [], mem, nextAddr := 0, acktr := acktrInit, rtb :=
      rtbInit
    version, handshakeCompleted := false, connIdNegotiated := false, transportParamRecved := false
    recvProtectedPkt := false, statelessRetry := false, earlyDataRejected := false, server
    hsTxCkm := none, hsRxCkm := none, earlyCkm := none, txCkm := none, rxCkm := none
    aeadOverhead := 0, earlyRtb := [], localSettings := settings, remoteSettings := settingsZero
    nextAckExpiry := 0, immediateAck := false }

/-- `ngtcp2_conn_client_new`. -/
def ngtcp2ConnClientNew (mem : Nat → UInt8) (connId version : Nat) (callbacks : Callbacks)
    (settings : Settings) : Conn :=
  let conn := connNew mem connId version callbacks settings false
  { conn with
    clientConnId := connId
    bidi := { conn.bidi with nextLocalStreamId := 4 }
    uni := { conn.uni with nextLocalStreamId := 2 } }

/-- `ngtcp2_conn_server_new`, where the client's stream 0 is in use from the start. -/
def ngtcp2ConnServerNew (mem : Nat → UInt8) (connId version : Nat) (callbacks : Callbacks)
    (settings : Settings) : Conn :=
  let conn := connNew mem connId version callbacks settings true
  { conn with
    bidi := { conn.bidi with
      nextLocalStreamId := 1
      remoteIdtr := (idtrOpen conn.bidi.remoteIdtr 0).getD conn.bidi.remoteIdtr }
    uni := { conn.uni with nextLocalStreamId := 3 } }

/-- An application that accepts everything and sends no handshake data. -/
def quietCallbacks : Callbacks :=
  { reply := fun _ _ => none, ackedStreamDataOffset := true, sendClientInitial := fun _ => none
    sendClientHandshake := fun _ => none, sendServerHandshake := fun _ => none }

/-- What a function of the connection returns, and the connection it leaves behind. -/
abbrev Result (α : Type) : Type := Except Err α × Conn

/-- Continues after a success, returns a failure. -/
def Result.andThen {α β : Type} (r : Result α) (f : α → Conn → Result β) : Result β :=
  match r with
  | (.ok a, conn) => f a conn
  | (.error e, conn) => (.error e, conn)

@[simp] theorem andThen_ok {α β : Type} (a : α) (conn : Conn) (f : α → Conn → Result β) :
    Result.andThen (.ok a, conn) f = f a conn := rfl

@[simp] theorem andThen_error {α β : Type} (e : Err) (conn : Conn) (f : α → Conn → Result β) :
    Result.andThen (.error e, conn) f = (.error e, conn) := rfl

/-- A sequence either stops at a failure of its first part or goes on. -/
theorem andThen_cases {α β : Type} {r : Result α} {f : α → Conn → Result β} {x : Except Err β}
    {conn' : Conn} (h : r.andThen f = (x, conn')) :
    (∃ e, r = (.error e, conn') ∧ x = .error e) ∨
      ∃ a conn₁, r = (.ok a, conn₁) ∧ f a conn₁ = (x, conn') := by
  obtain ⟨res, conn₁⟩ := r
  cases res with
  | error e =>
    obtain ⟨rfl, rfl⟩ := Prod.mk.inj h
    exact .inl ⟨e, rfl, rfl⟩
  | ok a => exact .inr ⟨a, conn₁, rfl, h⟩

theorem andThen_eq_ok {α β : Type} {r : Result α} {f : α → Conn → Result β} {b : β} {conn' : Conn}
    (h : r.andThen f = (.ok b, conn')) :
    ∃ a conn₁, r = (.ok a, conn₁) ∧ f a conn₁ = (.ok b, conn') := by
  rcases andThen_cases h with ⟨e, _, he⟩ | h
  · cases he
  · exact h

namespace Conn

/-- The fields for the bidirectional or for the unidirectional streams. -/
def ids (conn : Conn) (bidi : Bool) : StreamIds := if bidi then conn.bidi else conn.uni

def setIds (conn : Conn) (bidi : Bool) (ids : StreamIds) : Conn :=
  if bidi then { conn with bidi := ids } else { conn with uni := ids }

/-- The stream object at its own ID, written back. -/
def setStrm (conn : Conn) (strm : Strm) : Conn :=
  { conn with strms := fun id => if id = strm.streamId then some strm else conn.strms id }

def removeStrm (conn : Conn) (streamId : Nat) : Conn :=
  { conn with strms := fun id => if id = streamId then none else conn.strms id }

/-- The event appended to what the application was told. -/
def tell (conn : Conn) (ev : Event) : Conn := { conn with log := conn.log ++ [ev] }

def setFcStrms (conn : Conn) (fcStrms : List Nat) : Conn := { conn with fcStrms }

def setFrq (conn : Conn) (frq : List Frame) : Conn := { conn with frq }

def setRtb (conn : Conn) (rtb : Rtb) : Conn := { conn with rtb }

def setAcktr (conn : Conn) (acktr : Acktr) : Conn := { conn with acktr }

def setRxOffset (conn : Conn) (rxOffset : Nat) : Conn := { conn with rxOffset }

def setState (conn : Conn) (state : ConnState) : Conn := { conn with state }

end Conn

/-- `conn_local_stream`. -/
def connLocalStream (conn : Conn) (streamId : Nat) : Bool :=
  if conn.server then streamId % 2 != 0 else streamId % 2 == 0

/-- `bidi_stream`. -/
def bidiStream (streamId : Nat) : Bool := streamId / 2 % 2 == 0

/-- Tells the application and turns every failure into `NGTCP2_ERR_CALLBACK_FAILURE`. -/
def connCall (conn : Conn) (ev : Event) : Result Unit :=
  match conn.callbacks.reply conn.log ev with
  | none => (.ok (), conn.tell ev)
  | some _ => (.error .callbackFailure, conn.tell ev)

def connCallSendPkt (conn : Conn) (hd : PktHd) : Result Unit := connCall conn (.sendPkt hd)

def connCallSendFrame (conn : Conn) (hd : PktHd) (fr : Frame) : Result Unit :=
  connCall conn (.sendFrame hd fr)

def connCallRecvStreamData (conn : Conn) (streamId : Nat) (fin : Bool) (data : List UInt8) :
    Result Unit :=
  connCall conn (.recvStreamData streamId fin data)

/-- `conn_call_recv_stream0_data`, which passes the TLS errors on. -/
def connCallRecvStream0Data (conn : Conn) (data : List UInt8) : Result Unit :=
  let ev := Event.recvStream0Data data
  match conn.callbacks.reply conn.log ev with
  | none => (.ok (), conn.tell ev)
  | some .tlsHandshake => (.error .tlsHandshake, conn.tell ev)
  | some .tlsFatalAlertGenerated => (.error .tlsFatalAlertGenerated, conn.tell ev)
  | some .tlsFatalAlertReceived => (.error .tlsFatalAlertReceived, conn.tell ev)
  | some _ => (.error .callbackFailure, conn.tell ev)

def connCallStreamClose (conn : Conn) (streamId appErrorCode : Nat) : Result Unit :=
  connCall conn (.streamClose streamId appErrorCode)

def connCallExtendMaxStreamId (conn : Conn) (maxStreamId : Nat) : Result Unit :=
  connCall conn (.extendMaxStreamId maxStreamId)

def connCallHandshakeCompleted (conn : Conn) : Result Unit := connCall conn .handshakeCompleted

def connImmediateAck (conn : Conn) : Conn := { conn with immediateAck := true }

/-- The pointer updates that take a stream off `conn->fc_strms`. -/
def fcUnlink (conn : Conn) (strm : Strm) : Strm × Conn :=
  if strm.onFc then
    let strm := strm.setOnFc false
    (strm, (conn.setFcStrms (conn.fcStrms.erase strm.streamId)).setStrm strm)
  else (strm, conn)

/-- `ngtcp2_conn_init_stream`: the stream object is set up and inserted into the map. -/
def ngtcp2ConnInitStream (conn : Conn) (streamId : Nat) : Result Strm :=
  match conn.strms streamId with
  | some _ => (.error .abort, conn)
  | none =>
    let strm := strmInit streamId conn.localSettings.maxStreamData.toNat
      conn.remoteSettings.maxStreamData.toNat conn.mem
    (.ok strm, (conn.setStrm strm).tell (.strmInit streamId))

/-- `ngtcp2_conn_open_bidi_stream`. -/
def ngtcp2ConnOpenBidiStream (conn : Conn) : Result Nat :=
  let ids := conn.ids true
  if ids.maxLocalStreamId < ids.nextLocalStreamId then (.error .streamIdBlocked, conn)
  else
    (ngtcp2ConnInitStream conn ids.nextLocalStreamId).andThen fun _ conn =>
    (.ok ids.nextLocalStreamId,
      conn.setIds true { ids with nextLocalStreamId := ids.nextLocalStreamId + 4 })

/-- `ngtcp2_conn_open_uni_stream`. -/
def ngtcp2ConnOpenUniStream (conn : Conn) : Result Nat :=
  let ids := conn.ids false
  if ids.maxLocalStreamId < ids.nextLocalStreamId then (.error .streamIdBlocked, conn)
  else
    (ngtcp2ConnInitStream conn ids.nextLocalStreamId).andThen fun strm conn =>
    (.ok ids.nextLocalStreamId, (conn.setStrm strm.shutdownRd).setIds false
      { ids with nextLocalStreamId := ids.nextLocalStreamId + 4 })

/-- `handle_remote_stream_id_extension`. It advances its pointer to the window start and not
the window start. -/
def handleRemoteStreamIdExtension (ids : StreamIds) : StreamIds :=
  if ids.unsentMaxRemoteStreamId ≤ maxVarint - 4 ∧
      ids.remoteStreamIdWindowStart < idtrFirstGap ids.remoteIdtr then
    { ids with unsentMaxRemoteStreamId := ids.unsentMaxRemoteStreamId + 4 }
  else ids

/-- `ngtcp2_conn_close_stream`. -/
def ngtcp2ConnCloseStream (conn : Conn) (strm : Strm) (appErrorCode : Nat) : Result Unit :=
  let appErrorCode := if strm.appErrorCode = 0 then strm.appErrorCode else appErrorCode
  match conn.strms strm.streamId with
  | none => (.error .invalidArgument, conn)
  | some _ =>
    (connCallStreamClose (conn.removeStrm strm.streamId) strm.streamId appErrorCode).andThen
      fun _ conn =>
    let conn :=
      if connLocalStream conn strm.streamId then conn
      else
        let bidi := bidiStream strm.streamId
        conn.setIds bidi (handleRemoteStreamIdExtension (conn.ids bidi))
    let conn :=
      if strm.onFc then conn.setFcStrms (conn.fcStrms.erase strm.streamId) else conn
    (.ok (), connImmediateAck conn)

/-- The condition of `ngtcp2_conn_close_stream_if_shut_rdwr`. -/
def strmShutRdwr (strm : Strm) : Bool :=
  (strm.shutRd && strm.shutWr) &&
    (strm.recvRst || robFirstGapOffset strm.rob == strm.lastRxOffset) &&
    (strm.sentRst || gaptrFirstGapOffset strm.ackedTxOffset == strm.txOffset)

/-- `ngtcp2_conn_close_stream_if_shut_rdwr`. -/
def ngtcp2ConnCloseStreamIfShutRdwr (conn : Conn) (strm : Strm) (appErrorCode : Nat) :
    Result Unit :=
  if strmShutRdwr strm then ngtcp2ConnCloseStream conn strm appErrorCode else (.ok (), conn)

/-- `conn_should_send_max_stream_data`. -/
def connShouldSendMaxStreamData (conn : Conn) (strm : Strm) : Bool :=
  conn.localSettings.maxStreamData.toNat / 2 < subU64 strm.unsentMaxRxOffset strm.maxRxOffset

/-- `conn_should_send_max_data`. -/
def connShouldSendMaxData (conn : Conn) : Bool :=
  conn.localSettings.maxData.toNat / 2 < subU64 conn.unsentMaxRxOffset conn.maxRxOffset

/-- `conn_extend_max_stream_offset`, with the stream object as it is afterwards. -/
def connExtendMaxStreamOffset (conn : Conn) (strm : Strm) (datalen : Nat) : Strm × Conn :=
  let strm :=
    if strm.unsentMaxRxOffset ≤ subU64 maxVarint datalen then
      strm.setUnsentMaxRxOffset (addU64 strm.unsentMaxRxOffset datalen)
    else strm
  if !(strm.shutRd || strm.stopSending) && !strm.onFc && connShouldSendMaxStreamData conn strm then
    let strm := strm.setOnFc true
    (strm, (conn.setFcStrms (strm.streamId :: conn.fcStrms)).setStrm strm)
  else (strm, conn.setStrm strm)

end Ngtcp2
