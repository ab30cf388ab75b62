import Polygon.Conn
import Polygon.Lib.Runs

/-!
# The connection handler of the server

How `Handler` of `server.cc` writes packets: the send buffer that it shares between all
packets, the queues of its streams, and what acknowledgements take from them. The library
behind `conn_` and the socket are a parameter.
-/
namespace Server

open Ngtcp2

/-! ## Buffers -/

/-- `Buffer`: the bytes from `begin` to `tail`, how many of them lie before `head`, and `buf.size()`. -/
structure Buffer where
  data : List UInt8
  head : Nat
  cap : Nat
  deriving DecidableEq, Repr

namespace Buffer

/-- A buffer that holds a copy of the data. -/
def ofData (data : List UInt8) : Buffer := ⟨data, 0, data.length⟩

/-- An empty buffer with space for `datalen` bytes. -/
def ofLen (datalen : Nat) : Buffer := ⟨[], 0, datalen⟩

def size (b : Buffer) : Nat := b.data.length - b.head

/-- The space behind `tail`; the difference wraps when `tail` is behind the end. -/
def left (b : Buffer) : Nat := subU64 b.cap b.data.length

/-- The bytes from `rpos()` on. -/
def rpos (b : Buffer) : List UInt8 := b.data.drop b.head

def seek (b : Buffer) (len : Nat) : Buffer := { b with head := b.head + len }

/-- The bytes were written at `wpos()`. -/
def push (b : Buffer) (bytes : List UInt8) : Buffer := { b with data := b.data ++ bytes }

def reset (b : Buffer) : Buffer := { b with data := [], head := 0 }

def bufsize (b : Buffer) : Nat := b.data.length

end Buffer

/-! ## What the handler calls -/

/-- `network_error`, the `-1` of failed functions, the end of the process at an assertion, and a loop
that is not over. -/
inductive Rv where
  | ok | sendFatal | sendNonFatal | closeWait | failure | abort | running
  deriving DecidableEq, Repr

inductive Errno where
  | again | intr | zero | other
  deriving DecidableEq, Repr

/-- The functions of the library on `conn_`, `debug::packet_lost` and `sendto`, over whatever state they have. -/
structure Env (ε : Type) where
  inClosingPeriod : ε → Bool
  bytesInFlight : ε → Nat
  writePkt : ε → Nat → Except Err (List UInt8) × ε
  writeAckPkt : ε → Nat → Except Err (List UInt8) × ε
  writeStream : ε → Nat → Nat → Bool → List UInt8 → Except Err (List UInt8 × Nat) × ε
  writeConnectionClose : ε → Nat → Err → Except Err (List UInt8) × ε
  shutdownStreamRead : ε → Nat → Except Err Unit × ε
  packetLost : ε → Bool × ε
  sendto : ε → List UInt8 → Except Errno Nat × ε

/-- What the library promises: it writes at most `destlen` bytes, and takes at most the data it is given. -/
structure Env.Lawful {ε : Type} (env : Env ε) : Prop where
  writePkt : ∀ e destlen pkt e', env.writePkt e destlen = (.ok pkt, e') → pkt.length ≤ destlen
  writeAckPkt : ∀ e destlen pkt e', env.writeAckPkt e destlen = (.ok pkt, e') → pkt.length ≤ destlen
  writeStream : ∀ e destlen streamId fin data pkt ndatalen e',
    env.writeStream e destlen streamId fin data = (.ok (pkt, ndatalen), e') →
      pkt.length ≤ destlen ∧ ndatalen ≤ data.length

/-- A call of a function that writes a packet at `sendbuf_.wpos()`. -/
structure Call where
  room : Nat
  destlen : Nat
  /-- The bytes of the buffer at `streambuf_idx` that were passed. -/
  queued : Option (List UInt8)
  /-- How many of them were taken, and what became of the packet. -/
  answer : Option (Nat × Rv)
  deriving DecidableEq, Repr

/-- The state outside of the handler, and for the record the calls so far. -/
structure Outside (ε : Type) where
  state : ε
  calls : List Call

variable {ε : Type}

/-- `MAX_BYTES_IN_FLIGHT`. -/
def maxBytesInFlight : Nat := 1460 * 10

/-- The `do` loop of `Server::send_packet`, with the retries that are left. -/
def sendtoLoop (env : Env ε) (bytes : List UInt8) : Nat → ε → Except Errno Nat × ε
  | 0, e => env.sendto e bytes
  | retries + 1, e =>
    match env.sendto e bytes with
    | (.error .intr, e) => sendtoLoop env bytes retries e
    | r => r

/-- `Server::send_packet`. -/
def sendPacket (env : Env ε) (buf : Buffer) (e : ε) : Rv × Buffer × ε :=
  match env.packetLost e with
  | (true, e) => (.ok, buf.reset, e)
  | (false, e) =>
    match sendtoLoop env buf.rpos 5 e with
    | (.error .other, e) => (.sendFatal, buf, e)
    | (.error _, e) => (.sendNonFatal, buf, e)
    | (.ok nwrite, e) => if nwrite = buf.size then (.ok, buf.reset, e) else (.abort, buf, e)

/-! ## State -/

inductive RespState where
  | idle | started | completed
  deriving DecidableEq, Repr

/-- `Stream`, as far as its responses are concerned. For the record: the buffers that were popped and
the number of bytes that the library took. -/
structure Stream where
  streamId : Nat
  streambuf : List Buffer
  streambufIdx : Nat
  txStreamOffset : Nat
  shouldSendFin : Bool
  respState : RespState
  popped : List Buffer
  taken : Nat
  deriving DecidableEq, Repr

def Stream.new (streamId : Nat) : Stream := ⟨streamId, [], 0, 0, false, .idle, [], 0⟩

/-- `Handler`, as far as it sends; `streams_` is in the order of its keys. -/
structure Handler where
  maxPktlen : Nat
  sendbuf : Buffer
  connClosebuf : Option Buffer
  streams : List (Nat × Stream)
  shandshake : List Buffer
  shandshakeIdx : Nat
  txStream0Offset : Nat
  deriving DecidableEq, Repr

/-- `NGTCP2_MAX_PKTLEN_IPV4`. -/
def maxPktlenIpv4 : Nat := 1252

/-- `NGTCP2_MAX_PKTLEN_IPV6`. -/
def maxPktlenIpv6 : Nat := 1232

/-- The handler after `Handler::init`, for a peer of the address family. -/
def Handler.init (inet6 : Bool) : Handler :=
  { maxPktlen := if inet6 then maxPktlenIpv6 else maxPktlenIpv4
    sendbuf := Buffer.ofLen maxPktlenIpv4
    connClosebuf := none
    streams := []
    shandshake := []
    shandshakeIdx := 0
    txStream0Offset := 0 }

namespace Handler

/-! ## Closing -/

/-- `start_closing_period`; the timers are left out. -/
def startClosingPeriod (env : Env ε) (h : Handler) (liberr : Err) (e : ε) : Rv × Handler × ε :=
  if env.inClosingPeriod e then (.ok, h, e)
  else
    let h := { h with sendbuf := h.sendbuf.reset }
    if h.sendbuf.left < h.maxPktlen then (.abort, h, e)
    else
      let closebuf := Buffer.ofLen maxPktlenIpv4
      match env.writeConnectionClose e h.maxPktlen liberr with
      | (.error _, e) => (.failure, { h with connClosebuf := some closebuf }, e)
      | (.ok pkt, e) => (.ok, { h with connClosebuf := some (closebuf.push pkt) }, e)

/-- `send_conn_close`. -/
def sendConnClose (env : Env ε) (h : Handler) (e : ε) : Rv × Handler × ε :=
  match h.connClosebuf with
  | none => (.abort, h, e)
  | some closebuf =>
    if closebuf.size = 0 then (.abort, h, e)
    else
      let sendbuf := if h.sendbuf.size = 0 then h.sendbuf.push closebuf.rpos else h.sendbuf
      let (rv, sendbuf, e) := sendPacket env sendbuf e
      (rv, { h with sendbuf }, e)

/-- `handle_error`. -/
def handleError (env : Env ε) (h : Handler) (liberr : Err) (e : ε) : Rv × Handler × ε :=
  match h.startClosingPeriod env liberr e with
  | (.ok, h, e) =>
    match h.sendConnClose env e with
    | (.ok, h, e) => (.closeWait, h, e)
    | r => r
  | (.abort, h, e) => (.abort, h, e)
  | (_, h, e) => (.failure, h, e)

/-! ## Writing -/

/-- `write_stream_data`; `running` when it takes more than `fuel` turns. -/
def writeStreamData (env : Env ε) (fin : Bool) :
    Nat → Handler → Stream → Buffer → Outside ε → Rv × Handler × Stream × Buffer × Outside ε
  | 0, h, stream, data, o => (.running, h, stream, data, o)
  | fuel + 1, h, stream, data, o =>
    if maxBytesInFlight ≤ env.bytesInFlight o.state then (.ok, h, stream, data, o)
    else
      let queued := if stream.streambufIdx = stream.streambuf.length then none else some data.rpos
      let call : Call := ⟨h.sendbuf.left, h.maxPktlen, queued, none⟩
      match env.writeStream o.state h.maxPktlen stream.streamId fin data.rpos with
      | (.error .streamDataBlocked, e) | (.error .streamShutWr, e) =>
        (.ok, h, stream, data, ⟨e, o.calls ++ [call]⟩)
      | (.error liberr, e) =>
        let (rv, h, e) := h.handleError env liberr e
        (rv, h, stream, data, ⟨e, o.calls ++ [call]⟩)
      | (.ok (pkt, ndatalen), e) =>
        let data := data.seek ndatalen
        let stream := { stream with taken := stream.taken + ndatalen }
        let (rv, sendbuf, e) := sendPacket env (h.sendbuf.push pkt) e
        let h := { h with sendbuf }
        let o : Outside ε := ⟨e, o.calls ++ [{ call with answer := some (ndatalen, rv) }]⟩
        if rv ≠ .ok then (rv, h, stream, data, o)
        else if data.size = 0 then (.ok, h, stream, data, o)
        else writeStreamData env fin fuel h stream data o

/-- The loop of `on_write_stream`, with the buffers before the cursor and those from it on. -/
def writeBuffers (env : Env ε) (fuel : Nat) :
    List Buffer → List Buffer → Handler → Stream → Outside ε → Rv × Handler × Stream × Outside ε
  | _, [], h, stream, o => (.ok, h, stream, o)
  | before, v :: rest, h, stream, o =>
    let fin := stream.shouldSendFin && stream.streambufIdx == stream.streambuf.length - 1
    let (rv, h, stream, v, o) := writeStreamData env fin fuel h stream v o
    let stream := { stream with streambuf := before ++ v :: rest }
    if rv ≠ .ok then (rv, h, stream, o)
    else if 0 < v.size then (.ok, h, stream, o)
    else
      let stream := { stream with
        streambufIdx := stream.streambufIdx + 1
        shouldSendFin := stream.shouldSendFin && !fin }
      writeBuffers env fuel (before ++ [v]) rest h stream o

/-- `on_write_stream`. -/
def onWriteStream (env : Env ε) (fuel : Nat) (h : Handler) (stream : Stream) (o : Outside ε) :
    Rv × Handler × Stream × Outside ε :=
  if stream.streambufIdx = stream.streambuf.length then
    if stream.shouldSendFin then
      if maxBytesInFlight ≤ env.bytesInFlight o.state then (.ok, h, stream, o)
      else
        let stream := { stream with shouldSendFin := false }
        let (rv, h, stream, _, o) := writeStreamData env true fuel h stream (Buffer.ofLen 0) o
        match rv with
        | .ok => (.ok, h, stream, o)
        | .abort => (.abort, h, stream, o)
        | .running => (.running, h, stream, o)
        | _ => (.failure, h, stream, o)
    else (.ok, h, stream, o)
  else
    writeBuffers env fuel (stream.streambuf.take stream.streambufIdx)
      (stream.streambuf.drop stream.streambufIdx) h stream o

/-- The loop of `on_write` over `streams_`. -/
def writeStreams (env : Env ε) (fuel : Nat) :
    List (Nat × Stream) → Handler → Outside ε → Rv × List (Nat × Stream) × Handler × Outside ε
  | [], h, o => (.ok, [], h, o)
  | (id, stream) :: rest, h, o =>
    let (rv, h, stream, o) := h.onWriteStream env fuel stream o
    if rv ≠ .ok then (rv, (id, stream) :: rest, h, o)
    else
      let (rv, rest, h, o) := writeStreams env fuel rest h o
      (rv, (id, stream) :: rest, h, o)

/-- The packet that `on_write` asks the library for next. -/
def nextPkt (env : Env ε) (destlen : Nat) (e : ε) : Except Err (List UInt8) × ε :=
  if env.bytesInFlight e < maxBytesInFlight then env.writePkt e destlen else env.writeAckPkt e destlen

/-- The first loop of `on_write`, and what it returns if it does not only break. -/
def writePkts (env : Env ε) : Nat → Handler → Outside ε → Option Rv × Handler × Outside ε
  | 0, h, o => (some .running, h, o)
  | fuel + 1, h, o =>
    let calls := o.calls ++ [⟨h.sendbuf.left, h.maxPktlen, none, none⟩]
    match nextPkt env h.maxPktlen o.state with
    | (.error liberr, e) =>
      let (rv, h, e) := h.handleError env liberr e
      (some rv, h, ⟨e, calls⟩)
    | (.ok pkt, e) =>
      if pkt = [] then (none, h, ⟨e, calls⟩)
      else
        match sendPacket env (h.sendbuf.push pkt) e with
        | (.ok, sendbuf, e) => writePkts env fuel { h with sendbuf } ⟨e, calls⟩
        | (.sendNonFatal, sendbuf, e) => (none, { h with sendbuf }, ⟨e, calls⟩)
        | (rv, sendbuf, e) => (some rv, { h with sendbuf }, ⟨e, calls⟩)

/-- The packet that waits in the send buffer is sent. -/
def resend (env : Env ε) (h : Handler) (e : ε) : Rv × Handler × ε :=
  if 0 < h.sendbuf.size then
    let (rv, sendbuf, e) := sendPacket env h.sendbuf e
    (rv, { h with sendbuf }, e)
  else (.ok, h, e)

/-- `on_write`; the retransmission timer is left out. -/
def onWrite (env : Env ε) (fuel : Nat) (h : Handler) (o : Outside ε) : Rv × Handler × Outside ε :=
  if env.inClosingPeriod o.state then (.ok, h, o)
  else
    match h.resend env o.state with
    | (.ok, h, e) =>
      if h.sendbuf.left < h.maxPktlen then (.abort, h, ⟨e, o.calls⟩)
      else
        match h.writePkts env fuel ⟨e, o.calls⟩ with
        | (some rv, h, o) => (rv, h, o)
        | (none, h, o) =>
          let (rv, streams, h, o) := writeStreams env fuel h.streams h o
          (rv, { h with streams }, o)
    | (rv, h, e) => (rv, h, ⟨e, o.calls⟩)

end Handler

/-! ## Acknowledgements -/

/-- `--idx` on a `size_t`. -/
def decSize (idx : Nat) : Nat := if idx = 0 then uint64Max else idx - 1

/-- `remove_tx_stream_data`: the queue, the index and the offset after it, and the buffers it popped. -/
def removeTxStreamData : List Buffer → Nat → Nat → Nat → List Buffer × Nat × Nat × List Buffer
  | [], idx, txOffset, _ => ([], idx, txOffset, [])
  | v :: d, idx, txOffset, offset =>
    if txOffset + v.bufsize ≤ offset then
      let (d, idx, txOffset, popped) :=
        removeTxStreamData d (decSize idx) (txOffset + v.bufsize) offset
      (d, idx, txOffset, v :: popped)
    else (v :: d, idx, txOffset, [])

/-- The stream's part of `Handler::remove_tx_stream_data`. -/
def Stream.removeTxStreamData (s : Stream) (offset : Nat) : Stream :=
  let (streambuf, streambufIdx, txStreamOffset, popped) :=
    Server.removeTxStreamData s.streambuf s.streambufIdx s.txStreamOffset offset
  { s with streambuf, streambufIdx, txStreamOffset, popped := s.popped ++ popped }

/-- The value of a key changes. -/
def setStream (streamId : Nat) (s : Stream) (streams : List (Nat × Stream)) : List (Nat × Stream) :=
  streams.map fun p => if p.1 = streamId then (p.1, s) else p

/-- A new key, in order. -/
def emplaceStream (streamId : Nat) (s : Stream) : List (Nat × Stream) → List (Nat × Stream)
  | [] => [(streamId, s)]
  | p :: streams => if streamId < p.1 then (streamId, s) :: p :: streams else p :: emplaceStream streamId s streams

namespace Handler

def findStream (h : Handler) (streamId : Nat) : Option Stream :=
  (h.streams.find? fun p => p.1 = streamId).map (·.2)

/-- `Handler::remove_tx_stream_data`. -/
def removeTxStreamData (env : Env ε) (h : Handler) (streamId offset datalen : Nat) (e : ε) :
    Rv × Handler × ε :=
  if streamId = 0 then
    let (shandshake, shandshakeIdx, txStream0Offset, _) :=
      Server.removeTxStreamData h.shandshake h.shandshakeIdx h.txStream0Offset (offset + datalen)
    (.ok, { h with shandshake, shandshakeIdx, txStream0Offset }, e)
  else
    match h.findStream streamId with
    | none => (.abort, h, e)
    | some stream =>
      let stream := stream.removeTxStreamData (offset + datalen)
      let h := { h with streams := setStream streamId stream h.streams }
      if stream.streambuf = [] ∧ stream.respState = .completed then
        match env.shutdownStreamRead e streamId with
        | (.ok _, e) | (.error .streamNotFound, e) => (.ok, h, e)
        | (.error _, e) => (.failure, h, e)
      else (.ok, h, e)

/-- What requests, the greeting and the handshake put into a stream: new buffers, and maybe the end. -/
def queueData (h : Handler) (streamId : Nat) (data : List (List UInt8)) (fin : Bool)
    (respState : RespState) : Handler :=
  let add (s : Stream) : Stream :=
    { s with streambuf := s.streambuf ++ data.map Buffer.ofData, shouldSendFin := s.shouldSendFin || fin, respState }
  match h.findStream streamId with
  | some s => { h with streams := setStream streamId (add s) h.streams }
  | none => { h with streams := emplaceStream streamId (add (Stream.new streamId)) h.streams }

/-- `write_server_handshake`. -/
def writeServerHandshake (h : Handler) (data : List UInt8) : Handler :=
  { h with shandshake := h.shandshake ++ [Buffer.ofData data] }

/-- `read_server_handshake`: the next piece of handshake data for the library. -/
def readServerHandshake (h : Handler) : List UInt8 × Handler :=
  match h.shandshake[h.shandshakeIdx]? with
  | none => ([], h)
  | some v => (v.rpos, { h with shandshakeIdx := h.shandshakeIdx + 1 })

/-- `on_stream_close`. -/
def onStreamClose (h : Handler) (streamId : Nat) : Handler :=
  if streamId = 0 then h else { h with streams := h.streams.filter fun p => p.1 ≠ streamId }

end Handler

/-! ## Runs -/

/-- What happens to a handler; the library and the socket may be in any state at each of these. -/
inductive Op (ε : Type) where
  | onWrite (e : ε)
  | handleError (liberr : Err) (e : ε)
  | sendConnClose (e : ε)
  | ack (streamId offset datalen : Nat) (e : ε)
  | queue (streamId : Nat) (data : List (List UInt8)) (fin : Bool) (respState : RespState)
  | close (streamId : Nat)
  | writeServerHandshake (data : List UInt8)
  | readServerHandshake

/-- The results after which the server keeps the handler. -/
def Rv.kept : Rv → Bool
  | .ok | .sendNonFatal | .closeWait => true
  | _ => false

/-- The library reports only data as acknowledged that it has taken from the stream. -/
def Handler.Acked (h : Handler) (streamId offset datalen : Nat) : Prop :=
  ∀ p ∈ h.streams, p.1 = streamId → offset + datalen ≤ p.2.taken

instance (h : Handler) (streamId offset datalen : Nat) :
    Decidable (h.Acked streamId offset datalen) :=
  inferInstanceAs (Decidable (∀ p ∈ h.streams, _))

/-- One event, after which the handler still exists. -/
inductive Step (env : Env ε) : List (Op ε) → Handler → Op ε → Handler → Prop where
  | onWrite {ops : List (Op ε)} {h h' : Handler} {e : ε} {fuel : Nat} {rv : Rv} {o : Outside ε}
      (call : h.onWrite env fuel ⟨e, []⟩ = (rv, h', o)) (kept : rv.kept) :
        Step env ops h (.onWrite e) h'
  | handleError {ops : List (Op ε)} {h h' : Handler} {liberr : Err} {e e' : ε} {rv : Rv}
      (call : h.handleError env liberr e = (rv, h', e')) (kept : rv.kept) :
        Step env ops h (.handleError liberr e) h'
  | sendConnClose {ops : List (Op ε)} {h h' : Handler} {e e' : ε} {rv : Rv}
      (call : h.sendConnClose env e = (rv, h', e')) (kept : rv.kept) :
        Step env ops h (.sendConnClose e) h'
  | ack {ops : List (Op ε)} {h h' : Handler} {streamId offset datalen : Nat} {e e' : ε} {rv : Rv}
      (acked : h.Acked streamId offset datalen)
      (call : h.removeTxStreamData env streamId offset datalen e = (rv, h', e'))
      (kept : rv.kept) : Step env ops h (.ack streamId offset datalen e) h'
  | queue {ops : List (Op ε)} (h : Handler) (streamId : Nat) (data : List (List UInt8)) (fin : Bool)
      (respState : RespState) :
      Step env ops h (.queue streamId data fin respState) (h.queueData streamId data fin respState)
  | close {ops : List (Op ε)} (h : Handler) (streamId : Nat) :
      Step env ops h (.close streamId) (h.onStreamClose streamId)
  | writeServerHandshake {ops : List (Op ε)} (h : Handler) (data : List UInt8) :
      Step env ops h (.writeServerHandshake data) (h.writeServerHandshake data)
  | readServerHandshake {ops : List (Op ε)} (h : Handler) :
      Step env ops h .readServerHandshake h.readServerHandshake.2

theorem Step.write {env : Env ε} {ops : List (Op ε)} {h : Handler} {e : ε} (fuel : Nat)
    (kept : (h.onWrite env fuel ⟨e, []⟩).1.kept) :
    Step env ops h (.onWrite e) (h.onWrite env fuel ⟨e, []⟩).2.1 :=
  .onWrite rfl kept

theorem Step.remove {env : Env ε} {ops : List (Op ε)} {h : Handler} {e : ε}
    {streamId offset datalen : Nat}
    (acked : h.Acked streamId offset datalen)
    (kept : (h.removeTxStreamData env streamId offset datalen e).1.kept) :
    Step env ops h (.ack streamId offset datalen e)
    (h.removeTxStreamData env streamId offset datalen e).2.1 :=
  .ack acked rfl kept

/-! ## A scripted library and socket -/

/-- The packets that the library writes next, and whether the socket takes what is sent to it. -/
structure Script where
  pkts : List (List UInt8)
  socket : List Bool
  deriving DecidableEq, Repr

/-- The length of the header and the authentication tag of a packet with stream data. -/
def scriptOverhead : Nat := 29

/-- Stream data goes out as far as a packet can hold it, nothing is lost and nothing fails. -/
def scripted : Env Script where
  inClosingPeriod _ := false
  bytesInFlight _ := 0
  writePkt s destlen :=
    match s.pkts with
    | [] => (.ok [], s)
    | pkt :: pkts => (.ok (pkt.take destlen), { s with pkts })
  writeAckPkt s _ := (.ok [], s)
  writeStream s destlen _ _ data :=
    let ndatalen := min data.length (destlen - scriptOverhead)
    (.ok ((List.replicate scriptOverhead 0 ++ data.take ndatalen).take destlen, ndatalen), s)
  writeConnectionClose s destlen _ := (.ok ((List.replicate scriptOverhead 0).take destlen), s)
  shutdownStreamRead s _ := (.ok (), s)
  packetLost s := (false, s)
  sendto s bytes :=
    match s.socket with
    | [] => (.ok bytes.length, s)
    | true :: socket => (.ok bytes.length, { s with socket })
    | false :: socket => (.error .again, { s with socket })

theorem scripted_lawful : scripted.Lawful := by
  constructor
  · intro s destlen pkt s' hpkt
    unfold scripted at hpkt
    dsimp only at hpkt
    split at hpkt
    · obtain ⟨h, -⟩ := Prod.mk.inj hpkt
      obtain rfl := Except.ok.inj h
      exact Nat.zero_le _
    · obtain ⟨h, -⟩ := Prod.mk.inj hpkt
      obtain rfl := Except.ok.inj h
      exact List.length_take_le _ _
  · intro s destlen pkt s' hpkt
    obtain ⟨h, -⟩ := Prod.mk.inj hpkt
    obtain rfl := Except.ok.inj h
    exact Nat.zero_le _
  · intro s destlen streamId fin data pkt ndatalen s' hpkt
    obtain ⟨h, -⟩ := Prod.mk.inj hpkt
    obtain ⟨rfl, rfl⟩ := Prod.mk.inj (Except.ok.inj h)
    exact ⟨List.length_take_le _ _, Nat.min_le_left _ _⟩

end Server
