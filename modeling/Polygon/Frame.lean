import Mathlib.Algebra.Order.Ring.Nat
/-!
# Frames, packet headers and their encoded lengths

The value types of `ngtcp2.h` that the connection exchanges with the packet
codec, the library's error codes, and the exact lengths its encoders need.
-/
namespace Ngtcp2

/-- `UINT64_MAX`. -/
def uint64Max : Nat := 2 ^ 64 - 1

/-- `NGTCP2_MAX_VARINT`. -/
def maxVarint : Nat := 2 ^ 62 - 1

/-- Subtraction of `uint64_t` values, with its wrap-around. -/
def subU64 (a b : Nat) : Nat := (a + 2 ^ 64 - b) % 2 ^ 64

/-- Addition of `uint64_t` values, with its wrap-around. -/
def addU64 (a b : Nat) : Nat := (a + b) % 2 ^ 64

theorem addU64_of_lt {a b : Nat} (h : a + b < 2 ^ 64) : addU64 a b = a + b := Nat.mod_eq_of_lt h

theorem subU64_of_le {a b : Nat} (h : b ≤ a) (ha : a < 2 ^ 64) : subU64 a b = a - b := by
  unfold subU64
  omega

/-- The `NGTCP2_ERR_*` codes the connection returns; `abort` is a failed assertion or the
use of a null pointer. -/
inductive Err where
  | invalidArgument | unknownPktType | noBuf | proto | invalidState | ackFrame | streamIdBlocked
  | streamInUse | streamDataBlocked | flowControl | pktTimeout | streamId | finalOffset
  | tlsHandshake | pktNumExhausted | requiredTransportParam | malformedTransportParam
  | frameFormat | tlsDecrypt | streamShutWr | streamNotFound | versionNegotiation
  | tlsFatalAlertGenerated | tlsFatalAlertReceived | streamState | noKey | earlyDataRejected
  | noMem | callbackFailure | internal | abort
  deriving DecidableEq, Repr

/-- `ngtcp2_err_is_fatal`, with the end of the process among the fatal outcomes. -/
def Err.isFatal : Err → Bool
  | .noMem | .callbackFailure | .internal | .abort => true
  | _ => false

structure StreamFrame where
  streamId : Nat
  offset : Nat
  data : List UInt8
  fin : Bool
  deriving DecidableEq, Repr

/-- `fr->offset + fr->datalen`. -/
def StreamFrame.endOffset (fr : StreamFrame) : Nat := fr.offset + fr.data.length

structure AckBlk where
  gap : Nat
  blklen : Nat
  deriving DecidableEq, Repr

/-- `NGTCP2_MAX_ACK_BLKS`. -/
def maxAckBlks : Nat := 255

structure AckFrame where
  largestAck : Nat
  ackDelay : Nat
  firstAckBlklen : Nat
  blks : List AckBlk
  deriving DecidableEq, Repr

structure RstStreamFrame where
  streamId : Nat
  appErrorCode : Nat
  finalOffset : Nat
  deriving DecidableEq, Repr

structure MaxStreamDataFrame where
  streamId : Nat
  maxStreamData : Nat
  deriving DecidableEq, Repr

structure StopSendingFrame where
  streamId : Nat
  appErrorCode : Nat
  deriving DecidableEq, Repr

/-- `ngtcp2_frame`. -/
inductive Frame where
  | stream (fr : StreamFrame)
  | ack (fr : AckFrame)
  | padding (len : Nat)
  | rstStream (fr : RstStreamFrame)
  | connectionClose (errorCode : Nat) (reason : List UInt8)
  | applicationClose (appErrorCode : Nat) (reason : List UInt8)
  | maxData (maxData : Nat)
  | maxStreamData (fr : MaxStreamDataFrame)
  | maxStreamId (maxStreamId : Nat)
  | ping (data : List UInt8)
  | blocked (offset : Nat)
  | streamBlocked (streamId offset : Nat)
  | streamIdBlocked (streamId : Nat)
  | newConnectionId (seq connId : Nat) (statelessResetToken : List UInt8)
  | stopSending (fr : StopSendingFrame)
  | pong (data : List UInt8)
  deriving DecidableEq, Repr

/-- `ngtcp2_put_varint_len`; `none` is its assertion on values of 2^62 and more. -/
def putVarintLen (n : Nat) : Option Nat :=
  if n < 64 then some 1
  else if n < 16384 then some 2
  else if n < 1073741824 then some 4
  else if n < 4611686018427387904 then some 8
  else none

/-- The varint lengths of a list of values added up. -/
def putVarintsLen (ns : List Nat) : Option Nat :=
  ns.foldr (fun n acc => (putVarintLen n).bind fun l => acc.map (l + ·)) (some 0)

/-- The buffer space each `ngtcp2_pkt_encode_*_frame` asks for and uses. -/
def frameLen : Frame → Option Nat
  | .stream fr =>
    (putVarintsLen ((if fr.offset = 0 then [] else [fr.offset]) ++ [fr.streamId, fr.data.length])).map
      (1 + · + fr.data.length)
  | .ack fr =>
    (putVarintsLen ([fr.largestAck, fr.ackDelay, fr.blks.length, fr.firstAckBlklen] ++
      fr.blks.flatMap fun blk => [blk.gap, blk.blklen])).map (1 + ·)
  | .padding len => some len
  | .rstStream fr => (putVarintsLen [fr.streamId, fr.finalOffset]).map (1 + 2 + ·)
  | .connectionClose _ reason => (putVarintLen reason.length).map (1 + 2 + · + reason.length)
  | .applicationClose _ reason => (putVarintLen reason.length).map (1 + 2 + · + reason.length)
  | .maxData n => (putVarintLen n).map (1 + ·)
  | .maxStreamData fr => (putVarintsLen [fr.streamId, fr.maxStreamData]).map (1 + ·)
  | .maxStreamId n => (putVarintLen n).map (1 + ·)
  | .ping data => some (1 + 1 + data.length)
  | .blocked offset => (putVarintLen offset).map (1 + ·)
  | .streamBlocked streamId offset => (putVarintsLen [streamId, offset]).map (1 + ·)
  | .streamIdBlocked streamId => (putVarintLen streamId).map (1 + ·)
  | .newConnectionId seq _ _ => (putVarintLen seq).map (1 + · + 8 + 16)
  | .stopSending fr => (putVarintLen fr.streamId).map (1 + · + 2)
  | .pong data => some (1 + 1 + data.length)

/-- The long header types and the three short ones. -/
inductive PktType where
  | initial | retry | handshake | zeroRttProtected | pkt01 | pkt02 | pkt03 | versionNegotiation
  deriving DecidableEq, Repr

/-- `ngtcp2_pkt_hd`. -/
structure PktHd where
  longForm : Bool
  omitConnId : Bool := false
  keyPhase : Bool := false
  type : PktType
  connId : Nat
  pktNum : Nat
  version : Nat
  deriving DecidableEq, Repr

/-- What `ngtcp2_pkt_encode_hd_long` and `ngtcp2_pkt_encode_hd_short` need; a short header has
one of the three short types. -/
def hdLen (hd : PktHd) : Except Err Nat :=
  if hd.longForm then .ok 17
  else
    let len := if hd.omitConnId then 1 else 1 + 8
    match hd.type with
    | .pkt01 => .ok (len + 1)
    | .pkt02 => .ok (len + 2)
    | .pkt03 => .ok (len + 4)
    | _ => .error .invalidArgument

/-- The blocks of an ACK frame walked downwards from `largestAck`. -/
def validateAckBlks (largestAck : Nat) : List AckBlk → Bool
  | [] => true
  | blk :: blks =>
    if largestAck < blk.gap + 2 then false
    else if largestAck - (blk.gap + 2) < blk.blklen then false
    else validateAckBlks (largestAck - (blk.gap + 2) - blk.blklen) blks

/-- `ngtcp2_pkt_validate_ack`, true when it returns 0. -/
def pktValidateAck (fr : AckFrame) : Bool :=
  if fr.largestAck < fr.firstAckBlklen then false
  else validateAckBlks (fr.largestAck - fr.firstAckBlklen) fr.blks

end Ngtcp2
