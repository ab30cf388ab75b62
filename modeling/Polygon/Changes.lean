import Mathlib.Logic.Relation
import Polygon.ConnApi
import Polygon.FrameAccounting
import Polygon.StreamStep

/-!
# The changes a connection goes through

Every call and every frame changes the connection by a few kinds of small changes.
What holds of all states follows from what each kind does.
-/
namespace Ngtcp2

open Ranges Relation

/-- What a change is about. -/
inductive Kind where
  | idle | timer | state | encrypt | rx | window | announce | extend | openRemote | openLocal | consume | close
  | raise | limits | push | rst | pktAcked | acked | unlink | tx | hs | restart | pkts | frq | timeout
  deriving DecidableEq, Repr

/-- A neutral event, and no packet was encrypted. -/
def Event.silent (ev : Event) : Bool :=
  ev.neutral && match ev with
    | .encrypt _ => false
    | _ => true

/-- The send side of a stream and the credit given to its peer are the same. -/
structure SameTx (strm strm' : Strm) : Prop where
  streamId : strm'.streamId = strm.streamId := by rfl
  txOffset : strm'.txOffset = strm.txOffset := by rfl
  ackedTxOffset : strm'.ackedTxOffset = strm.ackedTxOffset := by rfl
  maxTxOffset : strm'.maxTxOffset = strm.maxTxOffset := by rfl
  txBuf : strm'.txBuf = strm.txBuf := by rfl
  shutWr : strm'.shutWr = strm.shutWr := by rfl
  sentRst : strm'.sentRst = strm.sentRst := by rfl
  maxRxOffset : strm'.maxRxOffset = strm.maxRxOffset := by rfl

/-- The receive side of a stream is the same, but for its credit. -/
structure SameRx (strm strm' : Strm) : Prop where
  streamId : strm'.streamId = strm.streamId := by rfl
  lastRxOffset : strm'.lastRxOffset = strm.lastRxOffset := by rfl
  rob : strm'.rob = strm.rob := by rfl
  shutRd : strm'.shutRd = strm.shutRd := by rfl
  recvRst : strm'.recvRst = strm.recvRst := by rfl
  zero : strm.streamId = 0 → strm'.stopSending = strm.stopSending := by exact fun _ => rfl
  stop : strm.stopSending = true → strm'.stopSending = true := by exact fun hs => hs

/-- What becomes of the list of streams that owe a MAX_STREAM_DATA frame when one of them changes. -/
inductive FcMove (fcStrms : List Nat) (strm strm' : Strm) : List Nat → Prop where
  | same (onFc : strm'.onFc = strm.onFc) : FcMove fcStrms strm strm' fcStrms
  | link (off : strm.onFc = false) (on : strm'.onFc = true) :
      FcMove fcStrms strm strm' (strm.streamId :: fcStrms)
  | unlink (on : strm.onFc = true) (off : strm'.onFc = false) :
    FcMove fcStrms strm strm' (fcStrms.erase strm.streamId)

/-- The call says nothing about a stream, or it delivers data of this one. -/
def Event.deliversTo (streamId : Nat) (ev : Event) : Prop :=
  ev.silent = true ∨ (∃ fin d, ev = .recvStreamData streamId fin d) ∨
    (streamId = 0 ∧ ∃ d, ev = .recvStream0Data d)

/-- Nothing that concerns streams, credit, sent frames or acknowledgements has changed. -/
structure Idle (conn conn' : Conn) : Prop where
  state : conn'.state = conn.state := by rfl
  strms : conn'.strms = conn.strms := by rfl
  bidi : conn'.bidi = conn.bidi := by rfl
  uni : conn'.uni = conn.uni := by rfl
  lastTxPktNum : conn'.lastTxPktNum = conn.lastTxPktNum := by rfl
  unsentMaxRxOffset : conn'.unsentMaxRxOffset = conn.unsentMaxRxOffset := by rfl
  maxRxOffset : conn'.maxRxOffset = conn.maxRxOffset := by rfl
  rxOffset : conn'.rxOffset = conn.rxOffset := by rfl
  txOffset : conn'.txOffset = conn.txOffset := by rfl
  maxTxOffset : conn'.maxTxOffset = conn.maxTxOffset := by rfl
  frq : conn'.frq = conn.frq := by rfl
  fcStrms : conn'.fcStrms = conn.fcStrms := by rfl
  nextAddr : conn'.nextAddr = conn.nextAddr := by rfl
  rtb : conn'.rtb = conn.rtb := by rfl
  earlyRtb : conn'.earlyRtb = conn.earlyRtb := by rfl
  server : conn'.server = conn.server := by rfl
  callbacks : conn'.callbacks = conn.callbacks := by rfl
  localSettings : conn'.localSettings = conn.localSettings := by rfl
  remoteSettings : conn'.remoteSettings = conn.remoteSettings := by rfl
  mem : conn'.mem = conn.mem := by rfl
  acktr : conn'.acktr = conn.acktr := by rfl
  nextAckExpiry : conn'.nextAckExpiry = conn.nextAckExpiry := by rfl
  immediateAck : conn.immediateAck = true → conn'.immediateAck = true := by exact id
  log : ∃ evs, (∀ ev ∈ evs, ev.silent = true) ∧ conn'.log = conn.log ++ evs := by
    exact ⟨[], by simp, (List.append_nil _).symm⟩

theorem log_same (conn : Conn) :
    ∃ evs, (∀ ev ∈ evs, ev.silent = true) ∧ conn.log = conn.log ++ evs :=
  ⟨[], by simp, (List.append_nil _).symm⟩

/-- A local stream opened. -/
def openLocal (conn : Conn) (bidi : Bool) (strm : Strm) : Conn :=
  ((conn.setStrm strm).tell (.strmInit strm.streamId)).setIds bidi
    { conn.ids bidi with nextLocalStreamId := (conn.ids bidi).nextLocalStreamId + 4 }

/-- A closed stream out of the map and the list, reported, with the credit for one more remote stream. -/
def closeStrm (conn : Conn) (fcStrms : List Nat) (streamId code : Nat) (bidi : Bool)
    (unsentMaxRemoteStreamId : Nat) : Conn :=
  (((conn.setFcStrms fcStrms).removeStrm streamId).tell (.streamClose streamId code)).setIds bidi
    { conn.ids bidi with unsentMaxRemoteStreamId }

/-- The credit after the stream is closed: a stream of the peer may give it one more. -/
def CloseCredit (conn : Conn) (streamId : Nat) (bidi : Bool) (unsent : Nat) : Prop :=
  if connLocalStream conn streamId then unsent = (conn.ids bidi).unsentMaxRemoteStreamId
  else bidi = bidiStream streamId ∧
    unsent = (handleRemoteStreamIdExtension (conn.ids bidi)).unsentMaxRemoteStreamId

/-- The ID of a stream without an object, used from now on. -/
def consumeId (conn : Conn) (streamId rxOffset : Nat) : Conn :=
  let ids := conn.ids (bidiStream streamId)
  (conn.setIds (bidiStream streamId)
    { ids with remoteIdtr := (idtrOpen ids.remoteIdtr streamId).getD ids.remoteIdtr }).setRxOffset rxOffset

@[simp] theorem openRemote_log (conn : Conn) (streamId : Nat) (idtr : Idtr) :
    (openRemote conn streamId idtr).log = conn.log ++ [.strmInit streamId] := by
  simp [openRemote, Conn.tell]

@[simp] theorem openLocal_log (conn : Conn) (bidi : Bool) (strm : Strm) :
    (openLocal conn bidi strm).log = conn.log ++ [.strmInit strm.streamId] := by
  simp [openLocal, Conn.tell]

@[simp] theorem closeStrm_log (conn : Conn) (fcStrms : List Nat) (streamId code : Nat) (bidi : Bool)
    (unsent : Nat) :
    (closeStrm conn fcStrms streamId code bidi unsent).log = conn.log ++
    [.streamClose streamId code] := by
  simp [closeStrm, Conn.tell, Conn.removeStrm, Conn.setFcStrms]

@[simp] theorem consumeId_log (conn : Conn) (streamId rxOffset : Nat) :
    (consumeId conn streamId rxOffset).log = conn.log := by simp [consumeId, Conn.setRxOffset]

/-- The STREAM frames of the streams of the application are among `H`. -/
def StreamFramesIn (H frs : List Frame) : Prop :=
    ∀ fr, fr.streamId ≠ 0 → .stream fr ∈ frs → .stream fr ∈ H

/-- A held frame stays held unless a cancel rule deletes it or its packet became obsolete. -/
def KeepsFrames (conn conn' : Conn) : Prop :=
  ∀ fr ∈ held conn, fr ∈ held conn' ∨ mayCancel conn fr ∨ ∃ frc ∈ obsoleteChains conn, fr ∈ frc

/-- What writing packets does to the queue, the entries and the credit for new streams. -/
def wrote (conn : Conn) (bidi uni : Nat) (frq : List Frame) (rtb : Rtb)
    (nextAddr lastTxPktNum : Nat) : Conn :=
  { conn.setMaxRemoteStreamIds bidi uni with frq, rtb, nextAddr, lastTxPktNum }

/-- The entries are those of packets that can be sent again. -/
def EntriesOk (conn : Conn) : Prop := ∀ ent ∈ conn.rtb.head ++ conn.earlyRtb, EntryOk ent

/-- One change; `H` are the frames held when the call began. -/
inductive Change (H : List Frame) : Kind → Conn → Conn → Prop where
  | idle {conn conn' : Conn} (same : Idle conn conn') : Change H .idle conn conn'
  | timer (conn : Conn) {acktr : Acktr} (sorted : conn.acktr.Sorted → acktr.Sorted)
      (nextAckExpiry : Nat)
      (immediateAck : Bool) :
    Change H .timer conn { conn with acktr, nextAckExpiry, immediateAck }
  | state (conn : Conn) (state : ConnState) : Change H .state conn (conn.setState state)
  | encrypt (conn : Conn) (hd : PktHd) : Change H .encrypt conn (conn.tell (.encrypt hd))
  | rx {conn : Conn} {strm strm' : Strm} (find : conn.strms strm.streamId = some strm)
      (tx : SameTx strm strm')
      (zero : strm.streamId = 0 → strm'.shutRd = strm.shutRd) (rxOffset : Nat) (evs : List Event)
      (told : ∀ ev ∈ evs, ev.deliversTo strm.streamId) {fcStrms : List Nat}
      (fc : FcMove conn.fcStrms strm strm' fcStrms) :
    Change H .rx conn ((((conn.setRxOffset rxOffset).setFcStrms fcStrms).setStrm strm').tells evs)
  | window {conn : Conn} {strm strm' : Strm} (find : conn.strms strm.streamId = some strm)
      (tx : SameTx strm strm')
      (rx : SameRx strm strm') (unsent : strm'.unsentMaxRxOffset = strm.unsentMaxRxOffset)
      {fcStrms : List Nat}
      (fc : FcMove conn.fcStrms strm strm' fcStrms) :
    Change H .window conn ((conn.setFcStrms fcStrms).setStrm strm')
  | announce (conn : Conn) (ahead : conn.maxRxOffset < conn.unsentMaxRxOffset) :
    Change H .announce conn { conn with
      frq := .maxData conn.unsentMaxRxOffset :: conn.frq
      maxRxOffset := conn.unsentMaxRxOffset }
  | announceStrm {conn : Conn} {strm : Strm} (find : conn.strms strm.streamId = some strm)
      {fcStrms : List Nat}
      (first : conn.fcStrms = strm.streamId :: fcStrms) :
    Change H .announce conn
      (((conn.setFrq (.maxStreamData ⟨strm.streamId, strm.unsentMaxRxOffset⟩ :: conn.frq)).setFcStrms fcStrms).setStrm
        ((strm.setMaxRxOffset strm.unsentMaxRxOffset).setOnFc false))
  | extend {conn : Conn} {strm strm' : Strm} (find : conn.strms strm.streamId = some strm)
      (tx : SameTx strm strm')
      (rx : SameRx strm strm') {fcStrms : List Nat} (fc : FcMove conn.fcStrms strm strm' fcStrms) :
    Change H .extend conn ((conn.setFcStrms fcStrms).setStrm strm')
  | extendConn (conn : Conn) (unsentMaxRxOffset : Nat) :
      Change H .extend conn { conn with unsentMaxRxOffset }
  | openRemote {conn : Conn} {streamId : Nat} {idtr : Idtr} (none : conn.strms streamId = none)
      (remote : connLocalStream conn streamId = false)
      (credit : streamId ≤ (conn.ids (bidiStream streamId)).maxRemoteStreamId)
      (opens : idtrOpen (conn.ids (bidiStream streamId)).remoteIdtr streamId = some idtr) :
    Change H .openRemote conn (openRemote conn streamId idtr)
  | openLocal {conn : Conn} {strm : Strm} (bidi : Bool)
      (credit : (conn.ids bidi).nextLocalStreamId ≤ (conn.ids bidi).maxLocalStreamId)
      (none : conn.strms (conn.ids bidi).nextLocalStreamId = none)
      (init : strm = strmInit (conn.ids bidi).nextLocalStreamId conn.localSettings.maxStreamData.toNat
        conn.remoteSettings.maxStreamData.toNat conn.mem ∨
          strm = (strmInit (conn.ids bidi).nextLocalStreamId conn.localSettings.maxStreamData.toNat
            conn.remoteSettings.maxStreamData.toNat conn.mem).shutdownRd) :
    Change H .openLocal conn (openLocal conn bidi strm)
  | consume {conn : Conn} {streamId : Nat} (nonzero : streamId ≠ 0)
      (none : conn.strms streamId = none)
      (remote : connLocalStream conn streamId = false) (rxOffset : Nat) :
    Change H .consume conn (consumeId conn streamId rxOffset)
  | close {conn : Conn} {strm : Strm} (find : conn.strms strm.streamId = some strm)
      (shut : strmShutRdwr strm = true) (code : Nat) {bidi : Bool} {unsent : Nat}
      (credit : CloseCredit conn strm.streamId bidi unsent) :
    Change H .close conn (closeStrm conn (if strm.onFc then conn.fcStrms.erase strm.streamId else conn.fcStrms)
      strm.streamId code bidi unsent)
  | raiseData (conn : Conn) (maxData : Nat) : Change H .raise conn (connRecvMaxData conn maxData)
  | raiseIds (conn : Conn) (bidi : Bool) (maxStreamId : Nat) :
    Change H .raise conn (conn.setIds bidi
      { conn.ids bidi with maxLocalStreamId := max (conn.ids bidi).maxLocalStreamId maxStreamId })
  | raiseStrm {conn : Conn} {strm : Strm} (find : conn.strms strm.streamId = some strm) (n : Nat) :
    Change H .raise conn (conn.setStrm (strm.setMaxTxOffset (max strm.maxTxOffset n)))
  | limits (conn : Conn) (params : TransportParams) :
      Change H .limits conn (applyRemoteSettings conn params)
  | limits0 {conn : Conn} {strm0 : Strm} (find : conn.strms 0 = some strm0)
      (id : strm0.streamId = 0) (n : Nat) :
    Change H .limits conn (conn.setStrm (strm0.setMaxTxOffset n))
  | push {conn : Conn} {fr : Frame} (other : ∀ fr', fr ≠ .stream fr') :
    Change H .push conn (conn.setFrq (fr :: conn.frq))
  | rst {conn : Conn} {strm : Strm} (find : conn.strms strm.streamId = some strm)
      (code code' : Nat) :
    Change H .rst conn ((connRstStream conn strm code).setStrm (strm.markSentRst.setAppErrorCode code'))
  | pktAcked (conn : Conn) (pktNum : Nat) {frc : List Frame} (held : ∀ fr ∈ frc, fr ∈ H) :
    Change H .pktAcked conn (conn.tell (.pktAcked pktNum frc))
  | acked {conn : Conn} {strm : Strm} {fr : StreamFrame} {pktNum : Nat} {frc : List Frame}
      (find : conn.strms strm.streamId = some strm) (id : fr.streamId = strm.streamId)
      (held : .stream fr ∈ H)
      (pkt : .pktAcked pktNum frc ∈ conn.log) (mem : .stream fr ∈ frc) :
    Change H .acked conn
      (conn.setStrm (strm.setAckedTxOffset (gaptrPush strm.ackedTxOffset fr.offset fr.data.length)))
  | unlink {conn : Conn} {rtb : Rtb} {ent : RtbEntry} (inv : EntriesInv (conn.setRtb rtb))
      (sub : rtb.head.Sublist conn.rtb.head) (perm : (ent :: rtb.head).Perm conn.rtb.head)
      (acked : .pktAcked ent.hd.pktNum ent.frc ∈ conn.log) : Change H .unlink conn (conn.setRtb rtb)
  | tx {conn : Conn} {strm : Strm} {fr : StreamFrame} {hd : PktHd}
      (find : conn.strms strm.streamId = some strm)
      (id : fr.streamId = strm.streamId) (unshut : strm.shutWr = false)
      (offset : fr.offset = strm.txOffset)
      (strmCredit : fr.data.length ≤ subU64 strm.maxTxOffset strm.txOffset)
      (connCredit : fr.data.length ≤ subU64 conn.maxTxOffset conn.txOffset)
      (num : hd.pktNum = conn.nextPktNum)
      (form : hd.type = .zeroRttProtected ∨ (hd.longForm = false ∧ retransmittable hd = true))
      (ts pktlen : Nat) :
    Change H .tx conn (chargeStream (trackStreamPkt conn hd fr ts pktlen) strm fr)
  | refill {conn : Conn} {strm0 : Strm} (find : conn.strms 0 = some strm0) (id : strm0.streamId = 0)
      (payload : List UInt8) : Change H .hs conn (conn.setStrm (strm0.setTxBuf payload))
  | advance {conn : Conn} {strm0 : Strm} (find : conn.strms 0 = some strm0)
      (id : strm0.streamId = 0) (n : Nat) :
    Change H .hs conn (conn.setStrm ((strm0.setTxBuf (strm0.txBuf.drop n)).setTxOffset (strm0.txOffset + n)))
  | restart (conn : Conn) :
    Change H .restart conn ({ conn with lastTxPktNum := 0, rtb := rtbInit }.setStrm
      (strmInit 0 conn.localSettings.maxStreamData.toNat strm0MaxStreamData conn.mem))
  | pkts {conn : Conn} {rtb : Rtb} {earlyRtb : List RtbEntry} {nextAddr lastTxPktNum : Nat}
      (inv : EntriesInv { conn with rtb, earlyRtb, nextAddr, lastTxPktNum })
      (ok : EntriesOk conn → EntriesOk { conn with rtb, earlyRtb, nextAddr, lastTxPktNum })
      (sub : StreamFramesIn H (held { conn with rtb, earlyRtb, nextAddr, lastTxPktNum }))
      (keeps : KeepsFrames conn { conn with rtb, earlyRtb, nextAddr, lastTxPktNum }) :
    Change H .pkts conn { conn with rtb, earlyRtb, nextAddr, lastTxPktNum }
  | frq {conn : Conn} {bidi uni : Nat} {frq : List Frame} {rtb : Rtb} {nextAddr lastTxPktNum : Nat}
      (inv : EntriesInv (wrote conn bidi uni frq rtb nextAddr lastTxPktNum))
      (ok : EntriesOk conn → EntriesOk (wrote conn bidi uni frq rtb nextAddr lastTxPktNum))
      (sub : StreamFramesIn H (held (wrote conn bidi uni frq rtb nextAddr lastTxPktNum)))
      (keeps : KeepsFrames conn (wrote conn bidi uni frq rtb nextAddr lastTxPktNum))
      (bidi_ids : IdsAnnounced conn.bidi bidi (held (wrote conn bidi uni frq rtb nextAddr lastTxPktNum)))
      (uni_ids : IdsAnnounced conn.uni uni (held (wrote conn bidi uni frq rtb nextAddr lastTxPktNum))) :
    Change H .frq conn (wrote conn bidi uni frq rtb nextAddr lastTxPktNum)
  | timeout {conn : Conn} {rtb : Rtb} (inv : EntriesInv (conn.setRtb rtb))
      (sub : rtb.head.Sublist conn.rtb.head) :
    Change H .timeout conn (conn.setRtb rtb)

/-- Changes of the given kinds, one after the other. -/
def Changes (H : List Frame) (K : List Kind) : Conn → Conn → Prop :=
  ReflTransGen fun conn conn' => ∃ k ∈ K, Change H k conn conn'

section
variable {H : List Frame} {K K' : List Kind} {conn conn₁ conn' : Conn}

theorem Changes.refl (conn : Conn) : Changes H K conn conn := ReflTransGen.refl

theorem Changes.trans (h : Changes H K conn conn₁) (h' : Changes H K conn₁ conn') :
    Changes H K conn conn' :=
  ReflTransGen.trans h h'

theorem Changes.one {k : Kind} (h : Change H k conn conn') (hk : k ∈ K) : Changes H K conn conn' :=
  ReflTransGen.single ⟨k, hk, h⟩

theorem Changes.mono (h : Changes H K conn conn') (hK : K ⊆ K') : Changes H K' conn conn' := by
  induction h with
  | refl => exact .refl _
  | tail _ last ih =>
    obtain ⟨k, hk, hc⟩ := last
    exact ih.tail ⟨k, hK hk, hc⟩

/-- What every change of these kinds keeps holds after all of them. -/
theorem Changes.keeps (P : Conn → Prop) (h : Changes H K conn conn')
    (keep : ∀ k ∈ K, ∀ conn conn', P conn → Change H k conn conn' → P conn') (hP : P conn) :
    P conn' := by
  induction h with
  | refl => exact hP
  | tail _ last ih =>
    obtain ⟨k, hk, hc⟩ := last
    exact keep k hk _ _ ih hc

theorem Idle.changes (h : Idle conn conn') (hk : Kind.idle ∈ K) : Changes H K conn conn' :=
    .one (.idle h) hk

/-- Neutral events are silent ones and encrypted packets. -/
theorem Changes.tells {evs : List Event} (conn : Conn) (hn : ∀ ev ∈ evs, ev.neutral = true)
    (hidle : Kind.idle ∈ K)
    (henc : encrypted evs ≠ [] → Kind.encrypt ∈ K) : Changes H K conn (conn.tells evs) := by
  induction evs generalizing conn with
  | nil =>
    have hnil : conn.tells [] = conn := by simp [Conn.tells]
    rw [hnil]
    exact .refl _
  | cons ev evs ih =>
    have hcons : conn.tells (ev :: evs) = (conn.tell ev).tells evs := by
      simp [Conn.tells, Conn.tell]
    have hev := hn ev List.mem_cons_self
    have hrest : Changes H K (conn.tell ev) ((conn.tell ev).tells evs) := by
      refine ih (conn.tell ev) (fun e he => hn e (List.mem_cons_of_mem _ he)) fun hne => henc ?_
      have happ := encrypted_append [ev] evs
      rw [List.singleton_append] at happ
      rw [happ]
      exact List.append_ne_nil_of_right_ne_nil _ hne
    rw [hcons]
    refine Changes.trans ?_ hrest
    by_cases hsilent : ev.silent = true
    · refine Idle.changes ?_ hidle
      constructor <;> first | rfl | exact id | exact ⟨[ev], by simpa using hsilent, rfl⟩
    · cases ev with
      | encrypt hd => exact .one (.encrypt conn hd) (henc (by simp [encrypted]))
      | _ => exact absurd ((Bool.and_true _).trans hev) hsilent

/-- What filling and encrypting packets leaves behind besides the packets. -/
theorem Logs.changes {hds : List PktHd} (h : Logs hds conn conn') (hidle : Kind.idle ∈ K)
    (htimer : Kind.timer ∈ K)
    (henc : hds ≠ [] → Kind.encrypt ∈ K) : Changes H K conn conn' := by
  obtain ⟨evs, acktr, nextAckExpiry, immediateAck, hn, hsorted, rfl⟩ := h
  have htells : Changes H K conn (conn.tells evs) :=
    .tells conn hn.neutral hidle (hn.encrypted ▸ henc)
  exact htells.trans (.one (.timer (conn.tells evs) hsorted nextAckExpiry immediateAck) htimer)

theorem Idle.trans (h : Idle conn conn₁) (h' : Idle conn₁ conn') : Idle conn conn' := by
  obtain ⟨evs, hn, hlog⟩ := h.log
  obtain ⟨evs', hn', hlog'⟩ := h'.log
  refine ⟨h'.state.trans h.state, h'.strms.trans h.strms, h'.bidi.trans h.bidi, h'.uni.trans h.uni,
    h'.lastTxPktNum.trans h.lastTxPktNum,
    h'.unsentMaxRxOffset.trans h.unsentMaxRxOffset, h'.maxRxOffset.trans h.maxRxOffset,
      h'.rxOffset.trans h.rxOffset,
    h'.txOffset.trans h.txOffset, h'.maxTxOffset.trans h.maxTxOffset, h'.frq.trans h.frq,
      h'.fcStrms.trans h.fcStrms,
    h'.nextAddr.trans h.nextAddr, h'.rtb.trans h.rtb, h'.earlyRtb.trans h.earlyRtb,
      h'.server.trans h.server,
    h'.callbacks.trans h.callbacks, h'.localSettings.trans h.localSettings,
    h'.remoteSettings.trans h.remoteSettings, h'.mem.trans h.mem, h'.acktr.trans h.acktr,
    h'.nextAckExpiry.trans h.nextAckExpiry, fun hi => h'.immediateAck (h.immediateAck hi),
    evs ++ evs', fun ev hev => ?_, ?_⟩
  · rcases List.mem_append.mp hev with hev | hev
    · exact hn ev hev
    · exact hn' ev hev
  · rw [hlog', hlog, List.append_assoc]

/-! ## What every change keeps -/

theorem StrmsKeyed.setStrm (h : StrmsKeyed conn) (strm : Strm) :
    StrmsKeyed (conn.setStrm strm) := by
  intro id strm' hfind
  rw [Conn.setStrm_strms] at hfind
  split at hfind
  · next hid =>
    obtain rfl := Option.some.inj hfind
    exact hid.symm
  · exact h id strm' hfind

theorem StrmsKeyed.of_eq (h : StrmsKeyed conn) (hstrms : conn'.strms = conn.strms) :
    StrmsKeyed conn' := by
  rw [StrmsKeyed, hstrms]
  exact h

/-- Streams stay at their own IDs. -/
theorem Change.keyed {k : Kind} (h : Change H k conn conn') (hkeyed : StrmsKeyed conn) :
    StrmsKeyed conn' := by
  cases h with
  | idle same => exact hkeyed.of_eq same.strms
  | timer => exact hkeyed
  | state => exact hkeyed
  | encrypt => exact hkeyed
  | rx => exact StrmsKeyed.setStrm hkeyed _
  | window => exact StrmsKeyed.setStrm hkeyed _
  | announce => exact hkeyed
  | announceStrm => exact StrmsKeyed.setStrm hkeyed _
  | extend => exact StrmsKeyed.setStrm hkeyed _
  | extendConn => exact hkeyed
  | openRemote =>
    refine StrmsKeyed.setStrm (hkeyed.of_eq ?_) _
    exact Conn.setIds_strms conn _ _
  | @openLocal _ strm bidi => exact (hkeyed.setStrm strm).of_eq (Conn.setIds_strms _ bidi _)
  | @consume _ streamId => exact hkeyed.of_eq (Conn.setIds_strms conn (bidiStream streamId) _)
  | @close _ strm find shut code bidi unsent _ =>
    refine StrmsKeyed.of_eq (fun id strm' hfind => ?_) (Conn.setIds_strms _ bidi _)
    have hfind : (if id = strm.streamId then none else conn.strms id) = some strm' := hfind
    split at hfind
    · simp at hfind
    · exact hkeyed id strm' hfind
  | raiseData => exact hkeyed
  | raiseIds => exact hkeyed.of_eq (Conn.setIds_strms _ _ _)
  | raiseStrm => exact hkeyed.setStrm _
  | limits => exact hkeyed
  | limits0 => exact hkeyed.setStrm _
  | push => exact hkeyed
  | rst => exact StrmsKeyed.setStrm hkeyed _
  | pktAcked => exact hkeyed
  | acked => exact hkeyed.setStrm _
  | unlink => exact hkeyed
  | tx =>
    refine StrmsKeyed.setStrm (hkeyed.of_eq ?_) _
    unfold trackStreamPkt
    split <;> rfl
  | refill => exact hkeyed.setStrm _
  | advance => exact hkeyed.setStrm _
  | restart => exact StrmsKeyed.setStrm hkeyed _
  | pkts => exact hkeyed
  | frq => exact hkeyed
  | timeout => exact hkeyed

theorem Changes.keyed (h : Changes H K conn conn') (hkeyed : StrmsKeyed conn) : StrmsKeyed conn' :=
  h.keeps StrmsKeyed (fun _ _ _ _ hP hc => hc.keyed hP) hkeyed

/-- What was logged stays logged. -/
theorem Change.log {k : Kind} (h : Change H k conn conn') : conn.log <+: conn'.log := by
  cases h with
  | idle same =>
    obtain ⟨evs, -, hlog⟩ := same.log
    exact ⟨evs, hlog.symm⟩
  | encrypt => exact ⟨[_], rfl⟩
  | rx find tx zero rxOffset evs => exact ⟨evs, rfl⟩
  | openRemote => exact ⟨[_], (openRemote_log _ _ _).symm⟩
  | openLocal => exact ⟨[_], (openLocal_log _ _ _).symm⟩
  | consume => exact ⟨[], by simp⟩
  | close => exact ⟨[_], (closeStrm_log _ _ _ _ _ _).symm⟩
  | raiseIds => exact ⟨[], (List.append_nil _).trans (Conn.setIds_log conn _ _).symm⟩
  | rst => exact ⟨[_], rfl⟩
  | pktAcked => exact ⟨[_], rfl⟩
  | tx =>
    refine ⟨[], ?_⟩
    rw [List.append_nil]
    unfold trackStreamPkt
    split <;> rfl
  | _ => exact List.prefix_rfl

theorem Changes.log (h : Changes H K conn conn') : conn.log <+: conn'.log :=
  h.keeps (conn.log <+: ·.log) (fun _ _ _ _ hP hc => hP.trans hc.log) List.prefix_rfl

/-- The changes that leave the entries alone. -/
def Kind.packetless : Kind → Bool
  | .unlink | .tx | .restart | .pkts | .frq | .timeout => false
  | _ => true

/-- The entries and their next address are the same. -/
structure SameEntries (conn conn' : Conn) : Prop where
  rtb : conn'.rtb = conn.rtb := by rfl
  earlyRtb : conn'.earlyRtb = conn.earlyRtb := by rfl
  nextAddr : conn'.nextAddr = conn.nextAddr := by rfl

theorem SameEntries.setIds (conn : Conn) (bidi : Bool) (ids : StreamIds) :
    SameEntries conn (conn.setIds bidi ids) := by
  cases bidi <;> (constructor <;> rfl)

theorem SameEntries.trans (h : SameEntries conn conn₁) (h' : SameEntries conn₁ conn') :
    SameEntries conn conn' :=
  ⟨h'.rtb.trans h.rtb, h'.earlyRtb.trans h.earlyRtb, h'.nextAddr.trans h.nextAddr⟩

theorem SameEntries.inv (h : SameEntries conn conn') (hinv : EntriesInv conn) :
    EntriesInv conn' := by
  refine ⟨?_, ?_, ?_⟩
  · rw [h.rtb]
    exact hinv.rtb
  · rw [h.rtb, h.earlyRtb]
    exact hinv.nodup
  · rw [h.rtb, h.earlyRtb, h.nextAddr]
    exact hinv.fresh

theorem Change.sameEntries {k : Kind} (h : Change H k conn conn') (hk : k.packetless = true) :
    SameEntries conn conn' := by
  cases h with
  | idle same => exact ⟨same.rtb, same.earlyRtb, same.nextAddr⟩
  | openRemote => exact (SameEntries.setIds conn _ _).trans (by constructor <;> rfl)
  | @openLocal _ strm bidi =>
    have hopen : SameEntries conn ((conn.setStrm strm).tell (.strmInit strm.streamId)) :=
      ⟨rfl, rfl, rfl⟩
    exact hopen.trans (.setIds _ bidi _)
  | consume => exact (SameEntries.setIds conn _ _).trans (by constructor <;> rfl)
  | @close _ strm find shut code bidi unsent _ =>
    generalize (if strm.onFc then conn.fcStrms.erase strm.streamId else conn.fcStrms) = fcStrms
    have hclose : SameEntries conn (((conn.setFcStrms fcStrms).removeStrm strm.streamId).tell
        (.streamClose strm.streamId code)) := ⟨rfl, rfl, rfl⟩
    exact hclose.trans (.setIds _ bidi _)
  | raiseIds => exact .setIds _ _ _
  | unlink => simp [Kind.packetless] at hk
  | tx => simp [Kind.packetless] at hk
  | restart => simp [Kind.packetless] at hk
  | pkts => simp [Kind.packetless] at hk
  | frq => simp [Kind.packetless] at hk
  | timeout => simp [Kind.packetless] at hk
  | _ => constructor <;> rfl

theorem Changes.sameEntries (h : Changes H K conn conn') (hk : ∀ k ∈ K, k.packetless = true) :
    SameEntries conn conn' :=
  h.keeps (SameEntries conn) (fun k hk' _ _ hP hc => hP.trans (hc.sameEntries (hk k hk')))
    (by constructor <;> rfl)

/-- A 0-RTT packet gets an entry of its own. -/
theorem EntriesInv.addEarly {ent : RtbEntry} (hinv : EntriesInv conn)
    (haddr : ent.addr = conn.nextAddr) :
    EntriesInv { conn with earlyRtb := conn.earlyRtb ++ [ent], nextAddr := conn.nextAddr + 1 } := by
  have hperm : (addrs (conn.rtb.head ++ (conn.earlyRtb ++ [ent]))).Perm
      (conn.nextAddr :: addrs (conn.rtb.head ++ conn.earlyRtb)) := by
    rw [← List.append_assoc, ← haddr]
    exact (List.perm_append_singleton ent _).map _
  refine ⟨hinv.rtb, hperm.nodup_iff.mpr (List.nodup_cons.mpr ⟨fun hc => ?_, hinv.nodup⟩),
    fun a ha => ?_⟩
  · exact Nat.lt_irrefl _ (hinv.fresh _ hc)
  · rcases List.mem_cons.mp (hperm.subset ha) with rfl | ha
    · exact Nat.lt_succ_self _
    · exact Nat.lt_succ_of_lt (hinv.fresh a ha)

/-- The entries stay well formed. -/
theorem Change.entriesInv {k : Kind} (h : Change H k conn conn') (hinv : EntriesInv conn) :
    EntriesInv conn' := by
  by_cases hk : k.packetless = true
  · exact (h.sameEntries hk).inv hinv
  cases h with
  | unlink inv => exact inv
  | @tx _ strm fr hd find id unshut offset strmCredit connCredit num form ts pktlen =>
    have hsame : SameEntries (trackStreamPkt conn hd fr ts pktlen)
        (chargeStream (trackStreamPkt conn hd fr ts pktlen) strm fr) := by
      constructor <;> rfl
    refine hsame.inv ?_
    unfold trackStreamPkt
    split
    · exact hinv.addEarly rfl
    · exact hinv.addEntry rfl
  | restart =>
    have hsame : SameEntries (conn.setRtb rtbInit)
      ({ conn with lastTxPktNum := 0, rtb := rtbInit }.setStrm
        (strmInit 0 conn.localSettings.maxStreamData.toNat strm0MaxStreamData conn.mem)) := by
      constructor <;> rfl
    exact hsame.inv (hinv.of_sublist rtbInit_inv (List.nil_sublist _))
  | pkts inv => exact inv
  | frq inv => exact inv
  | timeout inv => exact inv
  | _ => simp [Kind.packetless] at hk

theorem SameEntries.ok (h : SameEntries conn conn') (hok : EntriesOk conn) : EntriesOk conn' := by
  rw [EntriesOk, h.rtb, h.earlyRtb]
  exact hok

/-- The entries stay those of packets that can be sent again. -/
theorem Change.entriesOk {k : Kind} (h : Change H k conn conn') (hok : EntriesOk conn) :
    EntriesOk conn' := by
  have hsub : ∀ rtb : Rtb, rtb.head.Sublist conn.rtb.head → EntriesOk (conn.setRtb rtb) :=
    fun rtb hsub ent hent =>
    hok ent ((hsub.append_right conn.earlyRtb).subset hent)
  by_cases hk : k.packetless = true
  · exact (h.sameEntries hk).ok hok
  cases h with
  | unlink inv sub => exact hsub _ sub
  | @tx _ strm fr hd find id unshut offset strmCredit connCredit num form ts pktlen =>
    intro ent hent
    have hent : ent ∈ (trackStreamPkt conn hd fr ts pktlen).rtb.head ++
      (trackStreamPkt conn hd fr ts pktlen).earlyRtb := hent
    unfold trackStreamPkt at hent
    split at hent
    · have hent : ent ∈ conn.rtb.head ++ (conn.earlyRtb ++ [_]) := hent
      rw [← List.append_assoc] at hent
      rcases List.mem_append.mp hent with hent | hent
      · exact hok ent hent
      · obtain rfl := List.mem_singleton.mp hent
        exact ⟨rfl, rfl, by simp [rtbEntryNew]⟩
    · next hshort =>
      obtain ⟨hlong, hknown⟩ := form.resolve_left hshort
      rcases List.mem_cons.mp hent with rfl | hent
      · exact ⟨hknown, hlong.symm, by simp [rtbEntryNew]⟩
      · exact hok ent hent
  | restart => exact fun ent hent => hok ent (List.mem_append_right _ hent)
  | pkts inv ok => exact ok hok
  | frq inv ok => exact ok hok
  | timeout inv sub => exact hsub _ sub
  | _ => simp [Kind.packetless] at hk

end

end Ngtcp2
