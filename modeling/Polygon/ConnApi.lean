import Polygon.ConnRecv
import Polygon.ConnWrite
import Polygon.Lib.Runs

/-!
# The application's calls, and the connection as a transition system

The rest of the API of `ngtcp2_conn.c`, and the steps a connection can take: each
call, each frame of a received packet and each end of a packet is one step.
-/
namespace Ngtcp2

/-! ## Closing and shutting down -/

/-- `ngtcp2_conn_write_connection_close`. -/
def ngtcp2ConnWriteConnectionClose (conn : Conn) (destlen errorCode : Nat) : Result Pkt :=
  if conn.lastTxPktNum = uint64Max then (.error .pktNumExhausted, conn)
  else if conn.state = .postHandshake then
    (connWriteSingleFramePkt conn destlen (.connectionClose errorCode [])).andThen fun pkt conn =>
    (.ok pkt, conn.setState .closing)
  else (.error .invalidState, conn)

/-- `ngtcp2_conn_write_application_close`. -/
def ngtcp2ConnWriteApplicationClose (conn : Conn) (destlen appErrorCode : Nat) : Result Pkt :=
  if appErrorCode = stopping then (.error .invalidArgument, conn)
  else if conn.lastTxPktNum = uint64Max then (.error .pktNumExhausted, conn)
  else if conn.state = .postHandshake then
    (connWriteSingleFramePkt conn destlen (.applicationClose appErrorCode [])).andThen fun pkt conn =>
    (.ok pkt, conn.setState .closing)
  else (.error .invalidState, conn)

/-- `conn_shutdown_stream_write`, with the stream object as it is afterwards. -/
def connShutdownStreamWrite (conn : Conn) (strm : Strm) (appErrorCode : Nat) : Strm × Conn :=
  if strm.sentRst then (strm, conn)
  else
    let strm := strm.markSentRst.setAppErrorCode appErrorCode
    (strm, connRstStream (conn.setStrm strm) strm appErrorCode)

/-- `conn_shutdown_stream_read`, with the stream object as it is afterwards. -/
def connShutdownStreamRead (conn : Conn) (strm : Strm) (appErrorCode : Nat) : Strm × Conn :=
  if strm.stopSending then (strm, conn)
  else
    let strm := strm.markStopSending.setAppErrorCode appErrorCode
    connStopSending (conn.setStrm strm) strm appErrorCode

/-- The checks and the lookup that the shutdown functions share. -/
def withShutdownStrm (conn : Conn) (streamId appErrorCode : Nat) (f : Strm → Conn) : Result Unit :=
  if streamId = 0 ∨ appErrorCode = stopping then (.error .invalidArgument, conn)
  else
    match conn.strms streamId with
    | none => (.error .streamNotFound, conn)
    | some strm => (.ok (), f strm)

/-- `ngtcp2_conn_shutdown_stream`. -/
def ngtcp2ConnShutdownStream (conn : Conn) (streamId appErrorCode : Nat) : Result Unit :=
  withShutdownStrm conn streamId appErrorCode fun strm =>
    let (strm, conn) := connShutdownStreamRead conn strm appErrorCode
    (connShutdownStreamWrite conn strm appErrorCode).2

/-- `ngtcp2_conn_shutdown_stream_write`. -/
def ngtcp2ConnShutdownStreamWrite (conn : Conn) (streamId appErrorCode : Nat) : Result Unit :=
  withShutdownStrm conn streamId appErrorCode fun strm =>
    (connShutdownStreamWrite conn strm appErrorCode).2

/-- `ngtcp2_conn_shutdown_stream_read`. -/
def ngtcp2ConnShutdownStreamRead (conn : Conn) (streamId appErrorCode : Nat) : Result Unit :=
  withShutdownStrm conn streamId appErrorCode fun strm =>
    (connShutdownStreamRead conn strm appErrorCode).2

/-! ## Flow control -/

/-- `ngtcp2_conn_extend_max_stream_offset`. -/
def ngtcp2ConnExtendMaxStreamOffset (conn : Conn) (streamId datalen : Nat) : Result Unit :=
  match conn.strms streamId with
  | none => (.error .streamNotFound, conn)
  | some strm => (.ok (), (connExtendMaxStreamOffset conn strm datalen).2)

/-- `ngtcp2_conn_extend_max_offset`. -/
def ngtcp2ConnExtendMaxOffset (conn : Conn) (datalen : Nat) : Conn :=
  if maxVarint < datalen ∨ maxVarint - datalen < conn.unsentMaxRxOffset then
    { conn with unsentMaxRxOffset := maxVarint }
  else { conn with unsentMaxRxOffset := conn.unsentMaxRxOffset + datalen }

/-! ## Transport parameters and keys -/

inductive TransportParamsType where
  | clientHello | encryptedExtensions | newSessionTicket
  deriving DecidableEq, Repr

/-- `ngtcp2_transport_params`, as far as the connection uses it. -/
structure TransportParams where
  initialMaxStreamData : UInt32
  initialMaxData : UInt32
  initialMaxStreamIdBidi : UInt32
  initialMaxStreamIdUni : UInt32
  ackDelayExponent : Nat
  negotiatedVersion : Nat
  supportedVersions : List Nat
  deriving DecidableEq, Repr

/-- `settings_copy_from_transport_params`. -/
def settingsCopyFromTransportParams (params : TransportParams) : Settings :=
  { maxStreamData := params.initialMaxStreamData
    maxData := params.initialMaxData
    maxStreamIdBidi := params.initialMaxStreamIdBidi
    maxStreamIdUni := params.initialMaxStreamIdUni
    ackDelayExponent := params.ackDelayExponent }

/-- `conn_client_validate_transport_params`. -/
def connClientValidateTransportParams (conn : Conn) (params : TransportParams) : Bool :=
  params.negotiatedVersion == conn.version && params.supportedVersions.contains conn.version

/-- The remote settings and the limits they start. -/
def applyRemoteSettings (conn : Conn) (params : TransportParams) : Conn :=
  let settings := settingsCopyFromTransportParams params
  { conn with
    remoteSettings := settings
    bidi := { conn.bidi with maxLocalStreamId := settings.maxStreamIdBidi.toNat }
    uni := { conn.uni with maxLocalStreamId := settings.maxStreamIdUni.toNat }
    maxTxOffset := settings.maxData.toNat }

/-- The checks of `ngtcp2_conn_set_remote_transport_params`. -/
def checkRemoteTransportParams (conn : Conn) (exttype : TransportParamsType)
    (params : TransportParams) :
    Option Err :=
  match exttype with
  | .clientHello => if conn.server then none else some .invalidArgument
  | .encryptedExtensions =>
    if conn.server then some .invalidArgument
    else if connClientValidateTransportParams conn params then none
    else some .versionNegotiation
  | .newSessionTicket => if conn.server then some .invalidArgument else none

/-- `ngtcp2_conn_set_remote_transport_params`. -/
def ngtcp2ConnSetRemoteTransportParams (conn : Conn) (exttype : TransportParamsType)
    (params : TransportParams) : Result Unit :=
  match checkRemoteTransportParams conn exttype params with
  | some e => (.error e, conn)
  | none =>
    let conn := applyRemoteSettings conn params
    match conn.strms 0 with
    | none => (.error .abort, conn)
    | some strm0 =>
      (.ok (), { conn.setStrm (strm0.setMaxTxOffset conn.remoteSettings.maxStreamData.toNat) with
        transportParamRecved := true })

/-- `ngtcp2_conn_set_early_remote_transport_params`. -/
def ngtcp2ConnSetEarlyRemoteTransportParams (conn : Conn) (params : TransportParams) :
    Result Unit :=
  if conn.server then (.error .invalidState, conn) else (.ok (), applyRemoteSettings conn params)

/-- The keys that can be set, each once. -/
inductive KeySlot where
  | handshakeTx | handshakeRx | early | tx | rx
  deriving DecidableEq, Repr

/-- `ngtcp2_conn_set_handshake_tx_keys`, `ngtcp2_conn_set_handshake_rx_keys`,
`ngtcp2_conn_update_early_keys`, `ngtcp2_conn_update_tx_keys` and `ngtcp2_conn_update_rx_keys`. -/
def ngtcp2ConnSetKeys (conn : Conn) (slot : KeySlot) (ckm : CryptoKm) : Result Unit :=
  match slot with
  | .handshakeTx =>
    if conn.hsTxCkm.isSome then (.error .invalidState, conn) else (.ok (),
      { conn with hsTxCkm := some ckm })
  | .handshakeRx =>
    if conn.hsRxCkm.isSome then (.error .invalidState, conn) else (.ok (),
      { conn with hsRxCkm := some ckm })
  | .early =>
    if conn.earlyCkm.isSome then (.error .invalidState, conn) else (.ok (),
      { conn with earlyCkm := some ckm })
  | .tx => if conn.txCkm.isSome then (.error .invalidState, conn) else (.ok (), { conn with txCkm := some ckm })
  | .rx => if conn.rxCkm.isSome then (.error .invalidState, conn) else (.ok (), { conn with rxCkm := some ckm })

/-! ## The ends of received packets -/

/-- The end of `conn_recv_pkt` and of `conn_recv_delayed_handshake_pkt`. -/
def connRecvPktEnd (conn : Conn) (pktNum : Nat) (requireAck unprotected : Bool) (ts : Nat) :
    Result Unit :=
  ngtcp2ConnSchedAck { conn with maxRxPktNum := max conn.maxRxPktNum pktNum } pktNum requireAck ts unprotected

/-- The end of `conn_recv_handshake_pkt`. -/
def connRecvHandshakePktEnd (conn : Conn) (type : PktType) (handshakeFailed : Bool) (pktNum : Nat)
    (requireAck : Bool) (ts : Nat) : Result Unit :=
  let empty : Bool := match conn.strms 0 with
    | none => true
    | some strm0 => robFirstGapOffset strm0.rob == 0
  if (type = .initial ∨ type = .retry) ∧ empty then (.error .proto, conn)
  else
    let conn := { conn with maxRxPktNum := max conn.maxRxPktNum pktNum }
    if type = .retry then
      if handshakeFailed then (.error .proto, conn) else connRecvServerStatelessRetry conn
    else
      (ngtcp2ConnSchedAck conn pktNum requireAck ts true).andThen fun _ conn =>
      if handshakeFailed then (.error .tlsHandshake, conn) else (.ok (), conn)

/-- `conn_handshake_completed`. -/
def connHandshakeCompleted (conn : Conn) : Result Unit :=
  (connCallHandshakeCompleted conn).andThen fun _ conn =>
  Result.andThen (if 0 < conn.bidi.maxLocalStreamId then connCallExtendMaxStreamId conn conn.bidi.maxLocalStreamId
    else (.ok (), conn)) fun _ conn =>
  if 0 < conn.uni.maxLocalStreamId then connCallExtendMaxStreamId conn conn.uni.maxLocalStreamId
  else (.ok (), conn)

/-- What `ngtcp2_conn_recv`, called in `state`, does after a handshake packet whose processing
returned `rv`. The state is not read again but for buffered 0-RTT packets, which are processed first. -/
def connRecvHandshakeDone (state : ConnState) (conn : Conn) (rv : Except Err Unit) : Result Unit :=
  match state with
  | .clientWaitHandshake =>
    match rv with
    | .error .tlsHandshake => (.ok (), conn.setState .clientTlsHandshakeFailed)
    | .error e => (.error e, conn)
    | .ok _ =>
      if !conn.handshakeCompleted then (.ok (), conn)
      else
        (connHandshakeCompleted conn).andThen fun _ conn =>
        (.ok (), conn.setState .clientHandshakeAlmostFinished)
  | .serverInitial | .serverWaitHandshake =>
    match rv with
    | .error .tlsHandshake => (.ok (), conn.setState .serverTlsHandshakeFailed)
    | .error e => (.error e, conn)
    | .ok _ =>
      if conn.state = .serverInitial ∧ conn.connIdNegotiated then (.ok (), conn)
      else if !conn.handshakeCompleted then (.ok (), conn)
      else
        (connHandshakeCompleted conn).andThen fun _ conn =>
        let conn := conn.setState .postHandshake
        if !conn.transportParamRecved then (.error .requiredTransportParam, conn) else (.ok (),
          conn)
  | _ => (rv, conn)

/-- `conn_on_stateless_reset` once the token matched. -/
def connOnStatelessReset (conn : Conn) : Result Unit :=
  connCall (conn.setState .draining) .recvStatelessReset

/-! ## Runs -/

/-- The steps of a connection. -/
inductive Op where
  | recvFrame (longForm : Bool) (fr : Frame)
  | recvDelayedHandshakeFrame (type : PktType) (fr : Frame)
  | recvHandshakeFrame (type : PktType) (handshakeFailed : Bool) (fr : Frame)
  | recvProtectedPkt
  | recvPktEnd (pktNum : Nat) (requireAck unprotected : Bool) (ts : Nat)
  | recvHandshakePktEnd (type : PktType) (handshakeFailed : Bool) (pktNum : Nat) (requireAck : Bool)
      (ts : Nat)
  | recvHandshakeDone (state : ConnState) (rv : Except Err Unit)
  | negotiateConnId (connId : Nat)
  | statelessReset
  | openBidiStream
  | openUniStream
  | writeStream (destlen streamId : Nat) (fin : Bool) (data : List UInt8) (ts : Nat)
  | writePkt (destlen ts : Nat)
  | writeAckPkt (destlen ts : Nat)
  | writeConnectionClose (destlen errorCode : Nat)
  | writeApplicationClose (destlen appErrorCode : Nat)
  | shutdownStream (streamId appErrorCode : Nat)
  | shutdownStreamWrite (streamId appErrorCode : Nat)
  | shutdownStreamRead (streamId appErrorCode : Nat)
  | extendMaxStreamOffset (streamId datalen : Nat)
  | extendMaxOffset (datalen : Nat)
  | setRemoteTransportParams (exttype : TransportParamsType) (params : TransportParams)
  | setEarlyRemoteTransportParams (params : TransportParams)
  | setKeys (slot : KeySlot) (ckm : CryptoKm)
  | setAeadOverhead (aeadOverhead : Nat)
  | handshakeCompleted
  | earlyDataRejected

/-- The value of a call thrown away. -/
def Result.void {α : Type} (r : Result α) : Result Unit := r.andThen fun _ conn => (.ok (), conn)

theorem void_snd {α : Type} (r : Result α) : r.void.2 = r.2 := by
  obtain ⟨_ | _, conn⟩ := r <;> rfl

/-- One step. -/
def Op.run (conn : Conn) : Op → Result Unit
  | recvFrame longForm fr => connRecvPktFrame longForm conn fr
  | recvDelayedHandshakeFrame type fr => connRecvDelayedHandshakeFrame type conn fr
  | recvHandshakeFrame type handshakeFailed fr =>
    (connRecvHandshakeFrame type handshakeFailed conn fr).void
  | recvProtectedPkt => (.ok (), { conn with recvProtectedPkt := true })
  | recvPktEnd pktNum requireAck unprotected ts =>
    connRecvPktEnd conn pktNum requireAck unprotected ts
  | recvHandshakePktEnd type handshakeFailed pktNum requireAck ts =>
    connRecvHandshakePktEnd conn type handshakeFailed pktNum requireAck ts
  | recvHandshakeDone state rv => connRecvHandshakeDone state conn rv
  | negotiateConnId connId =>
    if conn.server then (.ok (), { conn with connIdNegotiated := true, clientConnId := connId })
    else (.ok (), { conn with connIdNegotiated := true, connId })
  | statelessReset =>
    match connOnStatelessReset conn with
    | (.ok _, conn) => (.ok (), conn)
    -- The packet could not be decrypted, whatever the application thinks of the reset.
    | (.error _, conn) => (.error .tlsDecrypt, conn)
  | openBidiStream => (ngtcp2ConnOpenBidiStream conn).void
  | openUniStream => (ngtcp2ConnOpenUniStream conn).void
  | writeStream destlen streamId fin data ts =>
    (ngtcp2ConnWriteStream conn destlen streamId fin data ts).void
  | writePkt destlen ts => (ngtcp2ConnWritePkt conn destlen ts).void
  | writeAckPkt destlen ts => (ngtcp2ConnWriteAckPkt conn destlen ts).void
  | writeConnectionClose destlen errorCode =>
    (ngtcp2ConnWriteConnectionClose conn destlen errorCode).void
  | writeApplicationClose destlen appErrorCode =>
    (ngtcp2ConnWriteApplicationClose conn destlen appErrorCode).void
  | shutdownStream streamId appErrorCode => ngtcp2ConnShutdownStream conn streamId appErrorCode
  | shutdownStreamWrite streamId appErrorCode =>
    ngtcp2ConnShutdownStreamWrite conn streamId appErrorCode
  | shutdownStreamRead streamId appErrorCode =>
    ngtcp2ConnShutdownStreamRead conn streamId appErrorCode
  | extendMaxStreamOffset streamId datalen => ngtcp2ConnExtendMaxStreamOffset conn streamId datalen
  | extendMaxOffset datalen => (.ok (), ngtcp2ConnExtendMaxOffset conn datalen)
  | setRemoteTransportParams exttype params =>
    ngtcp2ConnSetRemoteTransportParams conn exttype params
  | setEarlyRemoteTransportParams params => ngtcp2ConnSetEarlyRemoteTransportParams conn params
  | setKeys slot ckm => ngtcp2ConnSetKeys conn slot ckm
  | setAeadOverhead aeadOverhead => (.ok (), { conn with aeadOverhead })
  | handshakeCompleted => (.ok (), { conn with handshakeCompleted := true })
  | earlyDataRejected => (.ok (), { conn with earlyDataRejected := true })

/-- The call may return an error, but none after which the connection is not used any more. -/
def survives : Except Err Unit → Bool
  | .ok _ => true
  | .error e => !e.isFatal

/-- A step that the connection survives. -/
def Step (_ : List Op) (conn : Conn) (op : Op) (conn' : Conn) : Prop :=
  ∃ rv, op.run conn = (rv, conn') ∧ survives rv = true

/-- A new connection. -/
inductive Initial : Conn → Prop where
  | client (mem : Nat → UInt8) (connId version : Nat) (callbacks : Callbacks)
      (settings : Settings) :
    Initial (ngtcp2ConnClientNew mem connId version callbacks settings)
  | server (mem : Nat → UInt8) (connId version : Nat) (callbacks : Callbacks)
      (settings : Settings) :
    Initial (ngtcp2ConnServerNew mem connId version callbacks settings)

/-- A connection after some steps. -/
def Reachable (conn : Conn) : Prop := ∃ conn₀ ops, Initial conn₀ ∧ Runs.Run Step conn₀ ops conn

/-- The connection after the given steps. -/
def runOps (conn : Conn) (ops : List Op) : Conn := ops.foldl (fun conn op => (op.run conn).2) conn

/-- The connection survives each of the given steps. -/
def survivesAll : Conn → List Op → Bool
  | _, [] => true
  | conn, op :: ops => survives (op.run conn).1 && survivesAll (op.run conn).2 ops

theorem run_snoc_runOps {conn₀ conn : Conn} {ops₀ : List Op} (ops : List Op)
    (h : Runs.Run Step conn₀ ops₀ conn)
    (hs : survivesAll conn ops = true) : Runs.Run Step conn₀ (ops₀ ++ ops) (runOps conn ops) := by
  induction ops generalizing ops₀ conn with
  | nil =>
    rw [List.append_nil]
    exact h
  | cons op ops ih =>
    obtain ⟨hop, hops⟩ := Bool.and_eq_true_iff.mp hs
    have hrun := ih (h.snoc (l := op) ⟨_, rfl, hop⟩) hops
    rwa [List.append_assoc] at hrun

theorem run_runOps (conn : Conn) (ops : List Op) (hs : survivesAll conn ops = true) :
    Runs.Run Step conn ops (runOps conn ops) :=
  run_snoc_runOps ops (.nil : Runs.Run Step conn [] conn) hs

/-- The connection survives each of the given steps, and each of them is allowed. -/
def allowedAll (ok : Conn → Op → Bool) : Conn → List Op → Bool
  | _, [] => true
  | conn, op :: ops => survives (op.run conn).1 && ok conn op && allowedAll ok (op.run conn).2 ops

theorem run_snoc_allowed {ok : Conn → Op → Bool} {conn₀ conn : Conn} {ops₀ : List Op}
    (ops : List Op)
    (h : Runs.Run (Runs.Guarded Step fun _ conn op => ok conn op = true) conn₀ ops₀ conn)
    (hs : allowedAll ok conn ops = true) :
    Runs.Run (Runs.Guarded Step fun _ conn op => ok conn op = true) conn₀ (ops₀ ++ ops)
    (runOps conn ops) := by
  induction ops generalizing ops₀ conn with
  | nil =>
    rw [List.append_nil]
    exact h
  | cons op ops ih =>
    obtain ⟨hop, hops⟩ := Bool.and_eq_true_iff.mp hs
    obtain ⟨hsurvives, hok⟩ := Bool.and_eq_true_iff.mp hop
    have hrun := ih (h.snoc (l := op) ⟨⟨_, rfl, hsurvives⟩, hok⟩) hops
    rwa [List.append_assoc] at hrun

theorem run_allowed {ok : Conn → Op → Bool} (conn : Conn) (ops : List Op)
    (hs : allowedAll ok conn ops = true) :
    Runs.Run (Runs.Guarded Step fun _ conn op => ok conn op = true) conn ops (runOps conn ops) :=
  run_snoc_allowed ops (.nil : Runs.Run (Runs.Guarded Step fun _ conn op => ok conn op = true) conn [] conn) hs

theorem Initial.reachable {conn : Conn} (h : Initial conn) : Reachable conn := ⟨conn, [], h, .nil⟩

theorem Reachable.step {conn conn' : Conn} {ops : List Op} {op : Op} (h : Reachable conn)
    (hstep : Step ops conn op conn') :
    Reachable conn' := by
  obtain ⟨conn₀, ops₀, hinit, hrun⟩ := h
  exact ⟨conn₀, ops₀ ++ [op], hinit, hrun.snoc hstep⟩

theorem Reachable.runOps {conn : Conn} (h : Reachable conn) (ops : List Op)
    (hs : survivesAll conn ops = true) :
    Reachable (runOps conn ops) := by
  obtain ⟨conn₀, ops₀, hinit, hrun⟩ := h
  exact ⟨conn₀, ops₀ ++ ops, hinit, run_snoc_runOps ops hrun hs⟩

/-- A server whose application has one byte for every handshake packet. -/
def handshakeServer : Conn :=
  ngtcp2ConnServerNew (fun _ => 0) 1 1 { quietCallbacks with sendServerHandshake := fun _ => some (1, [21]) }
    ⟨100, 1000, 40, 40, 3⟩

/-- The steps of a handshake. -/
def handshakeOps : List Op :=
  [.setKeys .handshakeTx ⟨[1], [1]⟩, .writePkt 1200 1, .setKeys .tx ⟨[2], [2]⟩,
    .setRemoteTransportParams .clientHello ⟨100, 1000, 40, 40, 3, 1, [1]⟩, .handshakeCompleted,
    .recvHandshakeDone .serverWaitHandshake (.ok ())]

/-- The server after its handshake. -/
def establishedServer : Conn := runOps handshakeServer handshakeOps

theorem establishedServer_reachable : Reachable establishedServer :=
  (Initial.server ..).reachable.runOps handshakeOps (by decide)

end Ngtcp2
