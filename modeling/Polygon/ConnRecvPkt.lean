import Polygon.ConnApi
import Polygon.FrameCodec
import Polygon.PktHeader

/-!
# Receiving packets

`ngtcp2_conn_recv` on the bytes of a packet: the header, the keys, the decryption, the
packets that come too early, and the loops that hand the frames to their handlers.
-/
namespace Ngtcp2

/-! ## Long headers -/

/-- `NGTCP2_LONG_HEADERLEN`. -/
def longHeaderlen : Nat := 17

/-- The long type of the lower bits of the first byte. -/
def longTypeOf (code : Nat) : Option PktType :=
  if code = 0x7f then some .initial
  else if code = 0x7e then some .retry
  else if code = 0x7d then some .handshake
  else if code = 0x7c then some .zeroRttProtected
  else none

/-- `ngtcp2_pkt_decode_hd_long`: the bytes it read and the header. -/
def pktDecodeHdLong (pkt : List UInt8) : Except Err (Nat × PktHd) :=
  let b := (pkt.headD 0).toNat
  if pkt.length < longHeaderlen then .error .invalidArgument
  else if b &&& 0x80 = 0 then .error .invalidArgument
  else
    let version := getUint32 (pkt.drop 9)
    let hd (type : PktType) : PktHd :=
      { longForm := true, type, connId := getUint64 (pkt.drop 1), pktNum := getUint32 (pkt.drop 13), version }
    match longTypeOf (b &&& 0x7f) with
    | some type => .ok (longHeaderlen, hd type)
    | none => if version = 0 then .ok (longHeaderlen, hd .versionNegotiation) else .error .unknownPktType

/-! ## The application's part -/

/-- A decryption callback, given the payload, the key, the nonce and the additional data. -/
abbrev Decrypt : Type := List Event → List UInt8 → List UInt8 → List UInt8 → List UInt8 →
    Except Err (List UInt8)

/-- The calls that TLS makes from inside the callbacks. -/
def Op.isTls : Op → Bool
  | setRemoteTransportParams .. | setEarlyRemoteTransportParams _ | setKeys .. | setAeadOverhead _
  | handshakeCompleted | earlyDataRejected => true
  | _ => false

/-- The callbacks of the receive path, true for the value 0, and the calls they make back, after
`recv_client_initial` and after every frame. -/
structure RxCallbacks where
  recvPkt : List Event → PktHd → Bool
  recvFrame : List Event → PktHd → Frame → Bool
  recvClientInitial : List Event → Nat → Bool
  recvVersionNegotiation : List Event → PktHd → List UInt8 → Bool
  hsDecrypt : Decrypt
  decrypt : Decrypt
  tlsCalls : List Event → List Op
  isTls : ∀ log, ∀ op ∈ tlsCalls log, op.isTls = true

/-- The calls made back; only the end of the process stops them. -/
def runTls : List Op → Conn → Result Unit
  | [], conn => (.ok (), conn)
  | op :: ops, conn =>
    match op.run conn with
    | (.ok _, conn) => runTls ops conn
    | (.error e, conn) => if e.isFatal then (.error e, conn) else runTls ops conn

/-- `ngtcp2_crypto_create_nonce`, for an initialization vector of at least 8 bytes. -/
def cryptoCreateNonce (iv : List UInt8) (pktNum : Nat) : List UInt8 :=
  iv.take (iv.length - 8) ++ List.zipWith (· ^^^ ·) (iv.drop (iv.length - 8)) (putUint64be pktNum)

/-- `conn_decrypt_pkt`. -/
def connDecryptPkt (conn : Conn) (payload ad : List UInt8) (pktNum : Nat) (ckm : Option CryptoKm)
    (decrypt : Decrypt) : Except Err (List UInt8) :=
  match ckm with
  | none => .error .abort
  | some ckm =>
    if 64 < ckm.iv.length then .error .abort
    else
      match decrypt conn.log payload ckm.key (cryptoCreateNonce ckm.iv pktNum) ad with
      | .ok plain => .ok plain
      | .error .tlsDecrypt => .error .tlsDecrypt
      | .error _ => .error .callbackFailure

/-! ## The frames of a packet -/

/-- The loop over the frames of a payload; `handle` keeps the local variables of its function. The
fuel bounds the turns. -/
def recvFrames {σ : Type} (rx : RxCallbacks) (hd : PktHd) (handle : σ → Conn → Frame → Result σ) :
    Nat → List UInt8 → σ → Conn → Result σ
  | 0, _, _, conn => (.error .abort, conn)
  | fuel + 1, payload, s, conn =>
    match pktDecodeFrame payload with
    | .error e => (.error e, conn)
    | .ok none => (.ok s, conn)
    | .ok (some fr) =>
      if !rx.recvFrame conn.log hd fr.fr then (.error .callbackFailure, conn)
      else
        (handle s conn fr.fr).andThen fun s conn =>
        (runTls (rx.tlsCalls conn.log) conn).andThen fun _ conn =>
        recvFrames rx hd handle fuel (payload.drop fr.len) s conn

/-- The `require_ack` of the handshake functions. -/
def Frame.requiresAckHs : Frame → Bool
  | .stream _ | .connectionClose .. => true
  | _ => false

/-- The `require_ack` of `conn_recv_pkt`. -/
def Frame.requiresAck : Frame → Bool
  | .ack _ | .padding _ | .connectionClose .. => false
  | _ => true

/-- The frames of `conn_recv_handshake_pkt`, with `require_ack` and `handshake_failed`. -/
def handleHandshakeFrame (type : PktType) (s : Bool × Bool) (conn : Conn) (fr : Frame) :
    Result (Bool × Bool) :=
  (connRecvHandshakeFrame type s.2 conn fr).andThen fun handshakeFailed conn =>
  (.ok (s.1 || fr.requiresAckHs, handshakeFailed), conn)

/-- The frames of `conn_recv_delayed_handshake_pkt`, with `require_ack`. -/
def handleDelayedFrame (type : PktType) (requireAck : Bool) (conn : Conn) (fr : Frame) :
    Result Bool :=
  (connRecvDelayedHandshakeFrame type conn fr).andThen fun _ conn =>
  (.ok (requireAck || fr.requiresAckHs), conn)

/-- The frames of `conn_recv_pkt`, with `require_ack`. -/
def handleFrame (longForm requireAck : Bool) (conn : Conn) (fr : Frame) : Result Bool :=
  (connRecvPktFrame longForm conn fr).andThen fun _ conn => (.ok (requireAck || fr.requiresAck),
    conn)

/-! ## Packets after the handshake -/

/-- `ngtcp2_conn` with the fields that only the receive path uses: its callbacks, the token of a
stateless reset, and `buffed_rx_ppkts`. -/
structure RxConn where
  conn : Conn
  rx : RxCallbacks
  omitConnectionId : Bool
  statelessResetToken : List UInt8
  buffedRxPpkts : List (List UInt8)

/-- What a function of the receive path returns, and what it leaves behind. -/
abbrev RxResult : Type := Except Err Unit × RxConn

/-- A function that leaves the buffered packets alone. -/
def RxConn.lift (c : RxConn) (r : Result Unit) : RxResult := (r.1, { c with conn := r.2 })

/-- `conn_recv_delayed_handshake_pkt`. -/
def connRecvDelayedHandshakePkt (rx : RxCallbacks) (conn : Conn) (hd : PktHd)
    (payload ad : List UInt8) (ts : Nat) :
    Result Unit :=
  if hd.type = .initial ∧ (!conn.server ∨ conn.clientConnId ≠ hd.connId) then (.ok (), conn)
  else if hd.type ≠ .initial ∧ conn.connId ≠ hd.connId then (.ok (), conn)
  else
    match connDecryptPkt conn payload ad hd.pktNum conn.hsRxCkm rx.hsDecrypt with
    | .error e => (.error e, conn)
    | .ok payload =>
      (recvFrames rx hd (handleDelayedFrame hd.type) (payload.length + 1) payload false conn).andThen
        fun requireAck conn => connRecvPktEnd conn hd.pktNum requireAck true ts

/-- The token at the end of a stateless reset, compared as `conn_on_stateless_reset` does. -/
def statelessResetMatches (token payload : List UInt8) : Bool :=
  statelessResetTokenLen ≤ payload.length && payload.drop
    (payload.length - statelessResetTokenLen) == token

/-- The frames of a packet that was decrypted, and the end of `conn_recv_pkt`. -/
def connRecvPktPayload (rx : RxCallbacks) (conn : Conn) (hd : PktHd) (payload : List UInt8)
    (ts : Nat) : Result Unit :=
  let conn := if hd.longForm then conn else { conn with recvProtectedPkt := true }
  if !hd.longForm ∧ !hd.omitConnId ∧ conn.connId ≠ hd.connId then (.ok (), conn)
  else
    (recvFrames rx hd (handleFrame hd.longForm) (payload.length + 1) payload false conn).andThen
      fun requireAck conn => connRecvPktEnd conn hd.pktNum requireAck false ts

/-- `conn_recv_pkt` for a packet with a short header. -/
def connRecvShortPkt (c : RxConn) (pkt : List UInt8) (ts : Nat) : Result Unit :=
  let conn := c.conn
  match pktDecodeHdShort pkt with
  | .error e => (.error e, conn)
  | .ok (nread, hd) =>
    if !c.omitConnectionId ∧ hd.omitConnId then (.error .proto, conn)
    else
      let payload := pkt.drop nread
      let hd := { hd with pktNum := pktAdjustPktNum conn.maxRxPktNum hd.pktNum (pktNumBits hd) }
      if !c.rx.recvPkt conn.log hd then (.error .callbackFailure, conn)
      else
        match connDecryptPkt conn payload (pkt.take nread) hd.pktNum conn.rxCkm c.rx.decrypt with
        | .error .tlsDecrypt =>
          if statelessResetMatches c.statelessResetToken payload then
            match connOnStatelessReset conn with
            | (.ok _, conn) => (.ok (), conn)
            | (.error _, conn) => (.error .tlsDecrypt, conn)
          else (.error .tlsDecrypt, conn)
        | .error e => (.error e, conn)
        | .ok payload => connRecvPktPayload c.rx conn hd payload ts

/-- `conn_recv_pkt` for a packet with a long header. -/
def connRecvLongPkt (c : RxConn) (pkt : List UInt8) (ts : Nat) : Result Unit :=
  let conn := c.conn
  match pktDecodeHdLong pkt with
  | .error e => (.error e, conn)
  | .ok (nread, hd) =>
    if hd.version = 0 then
      if conn.server ∨ conn.clientConnId ≠ hd.connId then (.ok (), conn)
      else if !c.rx.recvPkt conn.log { hd with type := .versionNegotiation, pktNum := 0 } then
        (.error .callbackFailure, conn)
      else (.ok (), conn)
    else if conn.version ≠ hd.version then (.ok (), conn)
    else
      let payload := pkt.drop nread
      let ad := pkt.take nread
      let hd := { hd with pktNum := pktAdjustPktNum conn.maxRxPktNum hd.pktNum (pktNumBits hd) }
      if !c.rx.recvPkt conn.log hd then (.error .callbackFailure, conn)
      else if hd.type = .initial ∨ hd.type = .handshake then
        connRecvDelayedHandshakePkt c.rx conn hd payload ad ts
      else if hd.type = .zeroRttProtected then
        if !conn.server ∨ conn.clientConnId ≠ hd.connId ∨ conn.earlyCkm.isNone then (.ok (), conn)
        else
          match connDecryptPkt conn payload ad hd.pktNum conn.earlyCkm c.rx.decrypt with
          | .error e => (.error e, conn)
          | .ok payload => connRecvPktPayload c.rx conn hd payload ts
      else (.ok (), conn)

/-- `NGTCP2_HEADER_FORM_BIT` of the first byte. -/
def longHeader (pkt : List UInt8) : Bool := (pkt.headD 0).toNat &&& 0x80 != 0

/-- `conn_recv_pkt`. -/
def connRecvPkt (c : RxConn) (pkt : List UInt8) (ts : Nat) : Result Unit :=
  if longHeader pkt then connRecvLongPkt c pkt ts else connRecvShortPkt c pkt ts

/-! ## Packets during the handshake -/

/-- `NGTCP2_MAX_NUM_BUFFED_RX_PPKTS`. -/
def maxNumBuffedRxPpkts : Nat := 16

/-- `conn_buffer_protected_pkt`. -/
def connBufferProtectedPkt (c : RxConn) (pkt : List UInt8) : RxConn :=
  if maxNumBuffedRxPpkts ≤ c.buffedRxPpkts.length then c
  else { c with buffedRxPpkts := c.buffedRxPpkts ++ [pkt] }

/-- What a server does with a handshake packet before it decrypts it; a value is returned at once. -/
def serverAcceptsPkt (c : RxConn) (hd : PktHd) (pkt : List UInt8) :
    Option (Except Err Unit) × RxConn :=
  let conn := c.conn
  match hd.type with
  | .initial =>
    if conn.connIdNegotiated then (none, c)
    else
      let conn := { conn with connIdNegotiated := true, clientConnId := hd.connId }
      if !c.rx.recvClientInitial conn.log conn.clientConnId then (some (.error .callbackFailure),
        { c with conn })
      else
        match runTls (c.rx.tlsCalls conn.log) conn with
        | (.ok _, conn) => (none, { c with conn })
        | (.error e, conn) => (some (.error e), { c with conn })
  | .handshake => if conn.connId ≠ hd.connId then (some (.ok ()), c) else (none, c)
  | .zeroRttProtected =>
    if !conn.connIdNegotiated then (some (.ok ()),
      connBufferProtectedPkt c pkt) else (some (.ok ()), c)
  | _ => (some (.error .proto), c)

/-- What a client does with a handshake packet before it decrypts it. -/
def clientAcceptsPkt (c : RxConn) (hd : PktHd) (payload : List UInt8) :
    Option (Except Err Unit) × RxConn :=
  let conn := c.conn
  match hd.type with
  | .handshake =>
    if conn.connIdNegotiated then
      if conn.connId ≠ hd.connId then (some (.ok ()), c) else (none, c)
    else (none, { c with conn := { conn with connIdNegotiated := true, connId := hd.connId } })
  | .retry =>
    match conn.strms 0 with
    | none => (some (.error .abort), c)
    | some strm0 =>
      if strm0.lastRxOffset ≠ 0 then (some (.error .proto), c)
      else if conn.connId ≠ hd.connId then (some (.ok ()), c)
      else (none, c)
  | .versionNegotiation =>
    if conn.clientConnId ≠ hd.connId then (some (.ok ()), c)
    else if payload.length % 4 ≠ 0 then (some (.error .proto), c)
    else if !c.rx.recvVersionNegotiation conn.log hd payload then (some (.error .callbackFailure),
      c)
    else (some (.error .versionNegotiation), c)
  | _ => (some (.error .proto), c)

/-- The frames of a handshake packet that was decrypted, and the end of `conn_recv_handshake_pkt`. -/
def connRecvHandshakePayload (rx : RxCallbacks) (conn : Conn) (hd : PktHd) (payload : List UInt8)
    (ts : Nat) :
    Result Unit :=
  (recvFrames rx hd (handleHandshakeFrame hd.type) (payload.length + 1) payload (false,
    false) conn).andThen
    fun s conn => connRecvHandshakePktEnd conn hd.type s.2 hd.pktNum s.1 ts

/-- `conn_recv_handshake_pkt` from the header on. -/
def connRecvLongHandshakePkt (c : RxConn) (pkt : List UInt8) (nread : Nat) (hd : PktHd) (ts : Nat) :
    RxResult :=
  if hd.version ≠ 0 ∧ c.conn.version ≠ hd.version then (.ok (), c)
  else
    let hdpktlen := if hd.version = 0 then nread - 4 else nread
    let hd :=
      if hd.version = 0 then { hd with type := .versionNegotiation, pktNum := 0 }
      else { hd with pktNum := pktAdjustPktNum c.conn.maxRxPktNum hd.pktNum 32 }
    let payload := pkt.drop hdpktlen
    if !c.rx.recvPkt c.conn.log hd then (.error .callbackFailure, c)
    else
      match if c.conn.server then serverAcceptsPkt c hd pkt else clientAcceptsPkt c hd payload with
      | (some rv, c) => (rv, c)
      | (none, c) =>
        match connDecryptPkt c.conn payload
          (pkt.take hdpktlen) hd.pktNum c.conn.hsRxCkm c.rx.hsDecrypt with
        | .error e => (.error e, c)
        | .ok payload => c.lift (connRecvHandshakePayload c.rx c.conn hd payload ts)

/-- `conn_recv_handshake_pkt`. -/
def connRecvHandshakePkt (c : RxConn) (pkt : List UInt8) (ts : Nat) : RxResult :=
  if !longHeader pkt then
    if c.conn.state = .serverInitial then (.ok (), c) else (.ok (), connBufferProtectedPkt c pkt)
  else
    match pktDecodeHdLong pkt with
    | .error e => (.error e, c)
    | .ok (nread, hd) =>
      if c.conn.server ∧ c.conn.earlyCkm.isSome ∧ c.conn.clientConnId = hd.connId ∧
        hd.type = .zeroRttProtected then
        c.lift (connRecvPkt c pkt ts)
      else connRecvLongHandshakePkt c pkt nread hd ts

/-- The loops over `buffed_rx_ppkts`, which is emptied at the end. The fuel bounds the turns. -/
def processBufferedPkts (recv : RxConn → List UInt8 → RxResult) : Nat → Nat → RxConn → RxResult
  | 0, _, c => (.error .abort, c)
  | fuel + 1, i, c =>
    match c.buffedRxPpkts[i]? with
    | none => (.ok (), { c with buffedRxPpkts := [] })
    | some pkt =>
      match recv c pkt with
      | (.error e, c) => (.error e, c)
      | (.ok _, c) => processBufferedPkts recv fuel (i + 1) c

/-- The turns that the loops can need, packets buffered meanwhile included. -/
def bufferedFuel (c : RxConn) : Nat := c.buffedRxPpkts.length + maxNumBuffedRxPpkts + 1

/-- `conn_process_buffered_protected_pkt`. -/
def connProcessBufferedProtectedPkt (c : RxConn) (ts : Nat) : RxResult :=
  processBufferedPkts (fun c pkt => c.lift (connRecvPkt c pkt ts)) (bufferedFuel c) 0 c

/-- `conn_process_buffered_0rtt_pkt`. -/
def connProcessBuffered0rttPkt (c : RxConn) (ts : Nat) : RxResult :=
  processBufferedPkts (fun c pkt => connRecvHandshakePkt c pkt ts) (bufferedFuel c) 0 c

/-- The rest of `ngtcp2_conn_recv`, called in `state`, after a handshake packet. -/
def connRecvRest (state : ConnState) (r : RxResult) (ts : Nat) : RxResult :=
  let (rv, c) := r
  match connRecvHandshakeDone state c.conn rv with
  | (.error e, conn) => (.error e, { c with conn })
  | (.ok _, conn) =>
    match rv with
    | .error _ => (.ok (), { c with conn })
    | .ok _ =>
      if state ≠ .clientWaitHandshake ∧ c.conn.state = .serverInitial ∧ c.conn.connIdNegotiated then
        connProcessBuffered0rttPkt { c with conn } ts
      else if c.conn.handshakeCompleted then connProcessBufferedProtectedPkt { c with conn } ts
      else (.ok (), { c with conn })

/-- The function that processes a packet in each state. -/
def connRecvOne (c : RxConn) (pkt : List UInt8) (ts : Nat) : RxResult :=
  match c.conn.state with
  | .clientWaitHandshake | .serverInitial | .serverWaitHandshake | .clientTlsHandshakeFailed
  | .serverTlsHandshakeFailed => connRecvHandshakePkt c pkt ts
  | .clientHandshakeAlmostFinished | .postHandshake => c.lift (connRecvPkt c pkt ts)
  | .clientInitial | .closing | .draining => (.ok (), c)

/-- `ngtcp2_conn_recv`. -/
def ngtcp2ConnRecv (c : RxConn) (pkt : List UInt8) (ts : Nat) : RxResult :=
  if pkt = [] then (.error .invalidArgument, c)
  else
    match c.conn.state with
    | .clientWaitHandshake | .serverInitial | .serverWaitHandshake =>
      connRecvRest c.conn.state (connRecvOne c pkt ts) ts
    | _ => connRecvOne c pkt ts

end Ngtcp2
