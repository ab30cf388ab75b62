import Polygon.Ppe

/-!
# Acknowledgements and retransmission

How `ngtcp2_conn.c` builds ACK frames and sends the frames of lost packets again.
The retransmission functions change the entry they are given, so they return it.
-/
namespace Ngtcp2

/-! ## ACK frames -/

/-- `conn_next_ack_expired`. -/
def connNextAckExpired (conn : Conn) (ts : Nat) : Bool :=
  conn.immediateAck || (conn.nextAckExpiry != 0 && conn.nextAckExpiry ≤ ts)

/-- `conn_invalidate_next_ack_expiry`. -/
def connInvalidateNextAckExpiry (conn : Conn) : Conn :=
  { conn with nextAckExpiry := 0, immediateAck := false }

/-- The local variables of the block loop in `conn_create_ack_frame`. -/
structure AckBuild where
  firstPktNum : Nat
  lastPktNum : Nat
  initial : Bool
  gap : Nat
  firstAckBlklen : Nat
  blks : List AckBlk

/-- The current range becomes the first block or one more block. -/
def AckBuild.close (b : AckBuild) : AckBuild :=
  if b.initial then { b with initial := false, firstAckBlklen := subU64 b.firstPktNum b.lastPktNum }
  else { b with blks := b.blks ++ [⟨b.gap, subU64 b.firstPktNum b.lastPktNum⟩] }

/-- The block loop, with the entries from its cursor on. -/
def createAckLoop (unprotected : Bool) : AckBuild → List AcktrEntry → AckBuild × List AcktrEntry
  | b, [] => (b, [])
  | b, e :: es =>
    if unprotected && !e.unprotected then createAckLoop unprotected b es
    else if addU64 e.pktNum 1 = b.lastPktNum then
      createAckLoop unprotected { b with lastPktNum := e.pktNum } es
    else
      let b := { b.close with
        gap := subU64 (subU64 b.lastPktNum e.pktNum) 2
        firstPktNum := e.pktNum
        lastPktNum := e.pktNum }
      if b.blks.length = maxAckBlks then (b, e :: es) else createAckLoop unprotected b es

/-- `conn_create_ack_frame`, with the frame if there is one. -/
def connCreateAckFrame (conn : Conn) (ts : Nat) (unprotected : Bool) : Option AckFrame × Conn :=
  if !conn.acktr.activeAck then (none, connInvalidateNextAckExpiry conn)
  else
    match conn.acktr.ent.dropWhile fun e => unprotected && !e.unprotected with
    | [] => (none, connInvalidateNextAckExpiry conn)
    | rpkt :: es =>
      let (b, rest) := createAckLoop unprotected ⟨rpkt.pktNum, rpkt.pktNum, true, 0, 0, []⟩ es
      let b := b.close
      let ack : AckFrame :=
        { largestAck := rpkt.pktNum
          ackDelay := subU64 ts rpkt.tstamp >>> conn.localSettings.ackDelayExponent
          firstAckBlklen := b.firstAckBlklen
          blks := b.blks }
      -- The entries from the cursor on do not fit and are forgotten.
      (some ack, conn.setAcktr { conn.acktr with ent := conn.acktr.ent.take (conn.acktr.ent.length - rest.length) })

/-- `conn_commit_tx_ack`. -/
def connCommitTxAck (conn : Conn) : Conn :=
  let conn := connInvalidateNextAckExpiry conn
  conn.setAcktr { conn.acktr with activeAck := false }

/-- The ACK frame is in packet `pktNum`: the tracker is told. -/
def connAckSent (conn : Conn) (pktNum : Nat) (ackfr : AckFrame) (unprotected : Bool) : Conn :=
  let conn := connCommitTxAck conn
  conn.setAcktr (acktrAddAck conn.acktr pktNum ackfr unprotected)

/-! ## Retransmission -/

/-- `conn_select_pkt_type`. -/
def connSelectPktType (conn : Conn) (pktNum : Nat) : PktType :=
  if uint64Max / 2 ≤ pktNum then .pkt03
  else
    let n := (subU64 pktNum conn.rtb.largestAcked * 2 + 1) % 2 ^ 64
    if 0xffff < n then .pkt03 else if 0xff < n then .pkt02 else .pkt01

namespace Conn

def setLastTxPktNum (conn : Conn) (lastTxPktNum : Nat) : Conn := { conn with lastTxPktNum }

/-- `conn->last_tx_pkt_num + 1`. -/
def nextPktNum (conn : Conn) : Nat := addU64 conn.lastTxPktNum 1

/-- `++conn->last_tx_pkt_num`. -/
def incLastTxPktNum (conn : Conn) : Conn := conn.setLastTxPktNum conn.nextPktNum

/-- An allocated entry gets its address and is added to the retransmission buffer. -/
def addEntry (conn : Conn) (ent : Nat → RtbEntry) : Conn :=
  { conn with rtb := rtbAdd conn.rtb (ent conn.nextAddr), nextAddr := conn.nextAddr + 1 }

end Conn

/-- The value of a retransmission function, the lost entry and the connection it leaves. -/
abbrev Retransmit : Type := Except Err (Option Pkt) × RtbEntry × Conn

/-- The end of a retransmission that stopped within the chain: the frames that were sent get an
entry of their own, the others stay in the old one. -/
def retransmitPartial (conn : Conn) (ent : RtbEntry) (w : Written) (ts : Nat) (unprotected : Bool) :
    Retransmit :=
  match ppeFinal conn w.ppe with
  | (.error e, conn) => (.error e, ent, conn)
  | (.ok pkt, conn) =>
    let conn := conn.addEntry fun addr =>
      { rtbEntryExtendExpiry { rtbEntryNew addr w.ppe.hd [] ts ent.deadline pkt.len unprotected with
          count := ent.count } ts with frc := w.done }
    (.ok (some pkt), { ent with frc := w.rest }, conn.incLastTxPktNum)

/-- The header under which a lost packet is sent again. -/
def resentHd (conn : Conn) (ent : RtbEntry) : PktHd :=
  { ent.hd with
    version := conn.version
    connId := conn.connId
    pktNum := conn.nextPktNum }

/-- An Initial packet is padded. -/
def retransmitPadding (conn : Conn) (ppe : Ppe) : Result Ppe :=
  if ppe.hd.type = .initial then
    (connCallSendFrame conn ppe.hd (.padding (ppeLeft ppe))).andThen fun _ conn =>
    (.ok (ppePadding ppe), conn)
  else (.ok ppe, conn)

/-- `conn_retransmit_unprotected`. -/
def connRetransmitUnprotected (conn : Conn) (destlen : Nat) (ent : RtbEntry) (ts : Nat) :
    Retransmit :=
  match ppeEncodeHd destlen handshakeAeadOverhead conn.hsTxCkm (resentHd conn ent) with
  | .error e => (.error e, ent, conn)
  | .ok ppe =>
    match writeFrames (fun _ => false) ent.frc ppe conn with
    | (.error e, conn) => (.error e, ent, conn)
    | (.ok w, conn) =>
      if w.done = [] then (if w.full then .error .noBuf else .ok none, ent, conn)
      else if w.rest = [] then
        let ent := rtbEntryExtendExpiry { ent with hd := w.ppe.hd } ts
        match retransmitPadding conn w.ppe with
        | (.error e, conn) => (.error e, ent, conn)
        | (.ok ppe, conn) =>
          match ppeFinal conn.incLastTxPktNum ppe with
          | (.error e, conn) => (.error e, ent, conn)
          | (.ok pkt, conn) => (.ok (some pkt), ent, conn)
      else retransmitPartial conn ent w ts true

/-- The cancel rules of `conn_retransmit_protected` that go on with the next frame. -/
def retransmitCancelled (conn : Conn) : Frame → Bool
  | .stream fr =>
    match conn.strms fr.streamId with
    | none => true
    | some strm => strm.sentRst
  | .maxStreamId maxStreamId =>
    maxStreamId < (conn.ids (bidiStream maxStreamId)).maxRemoteStreamId
  | .maxStreamData fr =>
    match conn.strms fr.streamId with
    | none => true
    | some strm => fr.maxStreamData < strm.maxRxOffset
  | .maxData maxData => maxData < conn.maxRxOffset
  | _ => false

/-- A STOP_SENDING frame that is not needed any more. -/
def stopSendingCancelled (conn : Conn) : Frame → Bool
  | .stopSending fr =>
    match conn.strms fr.streamId with
    | none => true
    | some strm => strm.shutRd
  | _ => false

/-- The loop of `conn_retransmit_protected`. Behind a cancelled STOP_SENDING frame the frame at
the cursor is written without a check, also where the chain has ended. -/
def retransmitFrames (lookup : Conn) : List Frame → Ppe → Conn → Result Written
  | [], ppe, conn => (.ok ⟨ppe, [], [], false⟩, conn)
  | fr :: frc, ppe, conn =>
    if retransmitCancelled lookup fr then retransmitFrames lookup frc ppe conn
    else if stopSendingCancelled lookup fr then
      match frc with
      | [] => (.error .abort, conn)
      | fr' :: frc' => writeFrame fr' frc' ppe conn (retransmitFrames lookup frc')
    else writeFrame fr frc ppe conn (retransmitFrames lookup frc)

/-- The ACK frame that is added last to a protected packet when one is due and fits. -/
def retransmitAck (conn : Conn) (ppe : Ppe) (ackExpired : Bool) (ts : Nat) : Result Ppe :=
  if ackExpired then
    let (ackfr, conn) := connCreateAckFrame conn ts false
    match ackfr with
    | none => (.ok ppe, conn)
    | some ackfr =>
      match connPpeWriteFrame conn ppe (.ack ackfr) with
      | (.error .noBuf, conn) => (.ok ppe, conn)
      | (.error e, conn) => (.error e, conn)
      | (.ok ppe, conn) => (.ok ppe, connAckSent conn ppe.hd.pktNum ackfr false)
  else (.ok ppe, conn)

/-- `conn_retransmit_protected`. -/
def connRetransmitProtected (conn : Conn) (destlen : Nat) (ent : RtbEntry) (ts : Nat) :
    Retransmit :=
  let ackExpired := connNextAckExpired conn ts
  match ppeEncodeHd destlen conn.aeadOverhead conn.txCkm
    { resentHd conn ent with type := connSelectPktType conn conn.nextPktNum } with
  | .error e => (.error e, ent, conn)
  | .ok ppe =>
    match retransmitFrames conn ent.frc ppe conn with
    | (.error e, conn) => (.error e, ent, conn)
    | (.ok w, conn) =>
      let ent := { ent with frc := w.done ++ w.rest }
      if w.done = [] then (if w.full then .error .noBuf else .ok none, ent, conn)
      else
        match retransmitAck conn w.ppe ackExpired ts with
        | (.error e, conn) => (.error e, ent, conn)
        | (.ok ppe, conn) =>
          if w.rest = [] then
            let ent := rtbEntryExtendExpiry { ent with hd := ppe.hd } ts
            match ppeFinal conn ppe with
            | (.error e, conn) => (.error e, ent, conn)
            | (.ok pkt, conn) => (.ok (some pkt), ent, conn.incLastTxPktNum)
          else retransmitPartial conn ent { w with ppe } ts false

/-- The packet types that `conn_retransmit` knows for each header form. -/
def retransmittable (hd : PktHd) : Bool :=
  if hd.longForm then hd.type == .initial || hd.type == .handshake
  else hd.type == .pkt01 || hd.type == .pkt02 || hd.type == .pkt03

/-- What `conn_retransmit` does with one lost entry. -/
def retransmitEntry (conn : Conn) (destlen : Nat) (ent : RtbEntry) (ts : Nat) : Retransmit :=
  if ent.hd.longForm then
    if conn.recvProtectedPkt then (.ok none, ent, conn)
    else connRetransmitUnprotected conn destlen ent ts
  else connRetransmitProtected conn destlen ent ts

/-- The loop of `conn_retransmit`; the fuel bounds the entries it gives up. -/
def connRetransmitLoop : Nat → Conn → Nat → Nat → Result (Option Pkt)
  | 0, conn, _, _ => (.error .abort, conn)
  | fuel + 1, conn, destlen, ts =>
    match rtbTop conn.rtb with
    | none => (.ok none, conn)
    | some ent =>
      if ts < ent.expiry then (.ok none, conn)
      else
        match rtbPop conn.rtb ent with
        | none => (.error .abort, conn)
        | some rtb =>
          let conn := conn.setRtb rtb
          if ent.deadline ≤ ts then (.error .pktTimeout, conn)
          else if !retransmittable ent.hd then (.error .invalidArgument, conn)
          else
            match retransmitEntry conn destlen ent ts with
            | (.ok none, _, conn) => connRetransmitLoop fuel conn destlen ts
            | (.error .noBuf, ent, conn) => (.error .noBuf, conn.setRtb (rtbAdd conn.rtb ent))
            | (.error e, _, conn) => (.error e, conn)
            | (.ok (some pkt), ent, conn) =>
              if ent.frc = [] then (.ok (some pkt), conn)
              else (.ok (some pkt), conn.setRtb (rtbAdd conn.rtb { ent with pktlen := pkt.len }))

/-- `conn_retransmit`; a value `none` is 0. -/
def connRetransmit (conn : Conn) (destlen ts : Nat) : Result (Option Pkt) :=
  connRetransmitLoop (conn.rtb.pq.length + 1) conn destlen ts

end Ngtcp2
