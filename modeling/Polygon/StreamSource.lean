import Polygon.Endpoints
import Polygon.ReceivedOffsets
import Polygon.StreamChanges
import Polygon.StreamDelivery

/-!
# What an endpoint sends of a stream

The STREAM frames of a stream carry bytes that `ngtcp2_conn_write_stream` took over, each at its
offset, and FIN only behind the last of them, however often they are sent again.
-/
namespace Ngtcp2

/-- How many bytes the call took over, if it wrote a packet. -/
def writtenLen (conn : Conn) (destlen streamId : Nat) (fin : Bool) (data : List UInt8) (ts : Nat) :
    Option Nat :=
  (ngtcp2ConnWriteStream conn destlen streamId fin data ts).1.toOption.map Prod.snd

/-- The bytes of the stream that the step takes over. -/
def Op.written (id : Nat) (conn : Conn) : Op → List UInt8
  | writeStream destlen streamId fin data ts =>
    if streamId = id then data.take ((writtenLen conn destlen streamId fin data ts).getD 0) else []
  | _ => []

/-- The step takes over the end of the stream. -/
def Op.ends (id : Nat) (conn : Conn) : Op → Bool
  | writeStream destlen streamId fin data ts =>
    streamId == id && fin && writtenLen conn destlen streamId fin data ts == some data.length
  | _ => false

/-- The bytes of the stream that some steps take over. -/
def written (id : Nat) : Conn → List Op → List UInt8
  | _, [] => []
  | conn, op :: ops => op.written id conn ++ written id (op.run conn).2 ops

/-- Some of the steps takes over the end of the stream. -/
def ends (id : Nat) : Conn → List Op → Bool
  | _, [] => false
  | conn, op :: ops => op.ends id conn || ends id (op.run conn).2 ops

/-- The frame carries bytes that were taken over, and the end only behind the last of them. -/
structure Conveys (given : List UInt8) (ended : Bool) (fr : StreamFrame) : Prop where
  slice : SliceOf given fr
  fin : fr.fin = true → ended = true ∧ fr.endOffset = given.length

/-- The connection holds the frames of what was taken over of a stream, and goes on behind it. -/
structure Sources (id : Nat) (given : List UInt8) (ended : Bool) (conn : Conn) : Prop where
  frames : ∀ fr : StreamFrame, fr.streamId = id → .stream fr ∈ held conn → Conveys given ended fr
  live : ∀ strm, conn.strms id = some strm →
    strm.txOffset = given.length ∧ (ended = true → strm.shutWr = true)
  unused : ¬Used conn id → given = [] ∧ ended = false

section
variable {H : List Frame} {K : List Kind} {conn conn₀ conn₁ conn' : Conn} {strm strm' : Strm}
  {id n ts destlen streamId : Nat} {k : Kind} {given data : List UInt8} {ended fin : Bool}
  {fr : StreamFrame} {ops : List Op} {op : Op}

theorem written_snoc (conn : Conn) (ops : List Op) (op : Op) :
    written id conn (ops ++ [op]) = written id conn ops ++ op.written id (runOps conn ops) := by
  induction ops generalizing conn with
  | nil => exact List.append_nil _
  | cons op' ops ih =>
    show op'.written id conn ++ written id (op'.run conn).2 (ops ++ [op]) = _
    rw [ih, ← List.append_assoc]
    rfl

theorem ends_snoc (conn : Conn) (ops : List Op) (op : Op) :
    ends id conn (ops ++ [op]) = (ends id conn ops || op.ends id (runOps conn ops)) := by
  induction ops generalizing conn with
  | nil => exact Bool.or_false _
  | cons op' ops ih =>
    show (op'.ends id conn || ends id (op'.run conn).2 (ops ++ [op])) = _
    rw [ih, ← Bool.or_assoc]
    rfl

/-! ## Frames -/

theorem SliceOf.append (h : SliceOf given fr) (more : List UInt8) : SliceOf (given ++ more) fr := by
  have hend := h.end_le
  constructor
  · rw [List.length_append]
    exact Nat.le_add_right_of_le hend
  · unfold StreamFrame.endOffset at hend
    have hoff : fr.offset ≤ given.length := by omega
    have hlen : fr.data.length ≤ (given.drop fr.offset).length := by
      rw [List.length_drop]
      omega
    rw [List.drop_append_of_le_length hoff, List.take_append_of_le_length hlen]
    exact h.data_eq

theorem Conveys.append (h : Conveys given ended fr) (more : List UInt8) (ends : Bool)
    (hmore : ended = true → more = []) : Conveys (given ++ more) (ended || ends) fr := by
  constructor
  · exact h.slice.append more
  · intro hfin
    obtain ⟨rfl, hend⟩ := h.fin hfin
    rw [hmore rfl, List.append_nil]
    exact ⟨rfl, hend⟩

/-- The frame of a call carries the bytes that it takes over. -/
theorem StreamSent.conveys {hd : PktHd} (h : StreamSent conn streamId strm fin data n fr hd)
    (hoff : strm.txOffset = given.length) :
    Conveys (given ++ data.take n) (fin && n == data.length) fr := by
  have hlen : fr.data.length = n := by
    rw [h.fr_eq]
    exact List.length_take_of_le h.le
  have hend : fr.endOffset = (given ++ data.take n).length := by
    unfold StreamFrame.endOffset
    rw [hlen, h.fr_eq, List.length_append, List.length_take_of_le h.le]
    exact congrArg (· + n) hoff
  refine ⟨⟨Nat.le_of_eq hend, ?_⟩, fun hfin => ⟨?_, hend⟩⟩
  · rw [hlen, h.fr_eq]
    show data.take n = ((given ++ data.take n).drop strm.txOffset).take n
    rw [hoff, List.drop_left, List.take_take, Nat.min_self]
  · rw [h.fr_eq] at hfin
    exact hfin

/-- A call that writes to a stream changes no other. -/
theorem chargeStream_strms (conn : Conn) (strm : Strm) (fr : StreamFrame) (i : Nat) :
    (chargeStream conn strm fr).strms i =
      if i = strm.streamId then
        some (if fr.fin then (strm.setTxOffset (strm.txOffset + fr.data.length)).shutdownWr
          else strm.setTxOffset (strm.txOffset + fr.data.length))
      else conn.strms i := by
  show (Conn.setStrm _ _).strms i = _
  rw [Conn.setStrm_strms]
  split <;> rfl

/-! ## Changes -/

/-- Only a call that writes to the stream moves its send side on. -/
theorem StrmChange.sent (h : StrmChange k strm strm') (hk : k ≠ .tx) :
    strm'.txOffset = strm.txOffset ∧ (strm.shutWr = true → strm'.shutWr = true) := by
  cases h with
  | rx tx | window tx | extend tx => exact ⟨tx.txOffset, fun h => tx.shutWr.trans h⟩
  | rst => exact ⟨rfl, fun _ => rfl⟩
  | tx => exact absurd rfl hk
  | _ => exact ⟨rfl, id⟩

theorem NewStrm.txOffset (h : NewStrm conn strm k) : strm.txOffset = 0 := by
  cases h with
  | remote remote opened =>
    rw [opened]
    unfold openedStrm
    dsimp only
    split <;> rfl
  | isLocal isLocal init => rcases init with h | h <;> rw [h] <;> rfl

/-- What was taken over, and where the stream stands. -/
structure SourcesAt (id : Nat) (given : List UInt8) (ended : Bool) (conn : Conn) : Prop where
  ids : IdsInv conn
  live : ∀ strm, conn.strms id = some strm →
    strm.txOffset = given.length ∧ (ended = true → strm.shutWr = true)
  unused : ¬Used conn id → given = [] ∧ ended = false

theorem Change.sourcesAt (h : Change H k conn conn') (hk : k ≠ .tx) (hid : id ≠ 0)
    (hs : SourcesAt id given ended conn) : SourcesAt id given ended conn' := by
  constructor
  · exact h.idsInv hs.ids
  · intro strm' hfind
    cases h.strmFrom hs.ids hid hfind with
    | kept strm find change =>
      obtain ⟨htx, hshut⟩ := change.sent hk
      obtain ⟨hoff, hended⟩ := hs.live strm find
      exact ⟨htx.trans hoff, fun he => hshut (hended he)⟩
    | opened unused streamId fresh =>
      obtain ⟨rfl, rfl⟩ := hs.unused unused
      exact ⟨fresh.txOffset, nofun⟩
  · exact fun hunused => hs.unused fun hu => hunused (h.used hs.ids hu)

theorem Changes.sources (h : Changes (held conn) K conn conn') (hK : .tx ∉ K) (hids : IdsInv conn)
    (hid : id ≠ 0) (hs : Sources id given ended conn) : Sources id given ended conn' := by
  have hat : SourcesAt id given ended conn' := by
    refine h.keeps (SourcesAt id given ended) (fun k hk _ _ hP hc => ?_) ⟨hids, hs.live, hs.unused⟩
    exact hc.sourcesAt (fun heq => hK (heq ▸ hk)) hid hP
  refine ⟨fun fr hfr hheld => ?_, hat.live, hat.unused⟩
  have hsub := h.streamFramesIn hK fun _ _ hin => hin
  exact hs.frames fr hfr (hsub fr (hfr ▸ hid) hheld)

/-! ## Steps -/

/-- The stream whose bytes a call takes over. -/
theorem StreamSent.sources {pkt : Pkt} (hused : StrmsUsed conn) (hused' : Used conn' streamId)
    (hs : Sources streamId given ended conn)
    (hsent : StreamSent conn streamId strm fin data n fr pkt.hd) (hlogs : Logs [pkt.hd] conn conn₁)
    (hconn : conn' = chargeStream (trackStreamPkt conn₁ pkt.hd fr ts pkt.len) strm fr) :
    Sources streamId (given ++ data.take n) (ended || (fin && n == data.length)) conn' := by
  obtain ⟨hoff, hshut⟩ := hs.live strm hsent.find
  have hopen : ended = false := by
    cases ended with
    | false => rfl
    | true => exact absurd (hsent.unshut.symm.trans (hshut rfl)) Bool.false_ne_true
  rw [hopen, Bool.false_or]
  have hlen : fr.data.length = n := by
    rw [hsent.fr_eq]
    exact List.length_take_of_le hsent.le
  constructor
  · intro fr' hfr' hheld
    have hmem : Frame.stream fr' ∈ .stream fr :: held conn₁ := by
      rw [hconn] at hheld
      exact (trackStreamPkt_held ..).subset hheld
    rw [hlogs.held] at hmem
    rcases List.mem_cons.mp hmem with heq | hmem
    · obtain rfl := Frame.stream.inj heq
      exact hsent.conveys hoff
    · have hold := (hs.frames fr' hfr' hmem).append (data.take n) (fin && n == data.length)
        fun he => absurd (hopen.symm.trans he) Bool.false_ne_true
      rw [hopen, Bool.false_or] at hold
      exact hold
  · intro strm' hfind
    have hsid : strm.streamId = streamId := hused.keyed _ _ hsent.find
    have hstrm' : strm' = if fr.fin then (strm.setTxOffset (strm.txOffset + n)).shutdownWr
        else strm.setTxOffset (strm.txOffset + n) := by
      rw [hconn, chargeStream_strms, if_pos hsid.symm, hlen] at hfind
      exact (Option.some.inj hfind).symm
    have hfin : fr.fin = (fin && n == data.length) := by rw [hsent.fr_eq]
    rw [hstrm', hfin, List.length_append, List.length_take_of_le hsent.le, ← hoff]
    constructor
    · split <;> rfl
    · intro he
      rw [if_pos he]
      rfl
  · exact fun hunused => absurd hused' hunused

/-- Another stream. -/
theorem StreamSent.others {pkt : Pkt} (hused : StrmsUsed conn) (hmono : Used conn id → Used conn' id)
    (hne : streamId ≠ id) (hs : Sources id given ended conn)
    (hsent : StreamSent conn streamId strm fin data n fr pkt.hd) (hlogs : Logs [pkt.hd] conn conn₁)
    (hconn : conn' = chargeStream (trackStreamPkt conn₁ pkt.hd fr ts pkt.len) strm fr) :
    Sources id given ended conn' := by
  constructor
  · intro fr' hfr' hheld
    have hmem : Frame.stream fr' ∈ .stream fr :: held conn₁ := by
      rw [hconn] at hheld
      exact (trackStreamPkt_held ..).subset hheld
    rw [hlogs.held] at hmem
    rcases List.mem_cons.mp hmem with heq | hmem
    · obtain rfl := Frame.stream.inj heq
      rw [hsent.fr_eq] at hfr'
      exact absurd hfr' hne
    · exact hs.frames fr' hfr' hmem
  · intro strm' hfind
    have hsid : strm.streamId = streamId := hused.keyed _ _ hsent.find
    rw [hconn, chargeStream_strms, if_neg fun heq => hne (hsid.symm.trans heq.symm),
      (trackStreamPkt_limits ..).1] at hfind
    obtain ⟨evs, acktr, nextAckExpiry, immediateAck, -, -, rfl⟩ := hlogs
    exact hs.live strm' hfind
  · exact fun hunused => hs.unused fun hu => hunused (hmono hu)

theorem Op.kinds_tx (h : ∀ destlen streamId fin data ts,
    op ≠ .writeStream destlen streamId fin data ts) : .tx ∉ op.kinds := by
  cases op with
  | writeStream destlen streamId fin data ts => exact absurd rfl (h _ _ _ _ _)
  | recvFrame longForm fr =>
    cases fr <;> simp [Op.kinds, Frame.recvKinds, ackKinds, streamKinds]
  | recvDelayedHandshakeFrame type fr =>
    cases fr <;> simp [Op.kinds, Frame.recvDelayedKinds, ackKinds, streamKinds]
  | recvHandshakeFrame type failed fr =>
    cases fr <;> simp [Op.kinds, Frame.recvHandshakeKinds, ackKinds]
  | _ => simp [Op.kinds, shutdownKinds, writeKinds, resendKinds, closeKinds, retryKinds]

/-- One step of the sender. -/
theorem Step.sources (hreach : Reachable conn) (hstep : Step ops conn op conn') (hid : id ≠ 0)
    (hs : Sources id given ended conn) :
    Sources id (given ++ op.written id conn) (ended || op.ends id conn) conn' := by
  have hused := hreach.strmsUsed
  have hch := Step.changes hreach.wellFormed hstep
  have hother : op.written id conn = [] → op.ends id conn = false → .tx ∉ op.kinds →
      Sources id (given ++ op.written id conn) (ended || op.ends id conn) conn' := by
    intro hw he hK
    rw [hw, he, List.append_nil, Bool.or_false]
    exact hch.sources (fun hin => hK ((List.mem_cons.mp hin).resolve_left nofun)) hused.ids hid hs
  obtain ⟨rv, hrun, hsurvives⟩ := hstep
  have hrv := not_fatal_of_survives hsurvives
  cases op with
  | writeStream destlen streamId fin data ts =>
    obtain ⟨x, hx, hve⟩ := void_cases hrun
    have hlen : writtenLen conn destlen streamId fin data ts = x.toOption.map Prod.snd :=
      congrArg (fun r => (Prod.fst r).toOption.map Prod.snd) hx
    rcases ngtcp2ConnWriteStream_cases hx with ⟨e, rfl, hf⟩ | ⟨e, rfl, hq⟩ |
      ⟨pkt, n, strm, fr, conn₁, rfl, hsent, -, hlogs, hconn⟩
    · exact absurd ⟨e, (hve e).mpr rfl, hf⟩ hrv
    · have hw : (Op.writeStream destlen streamId fin data ts).written id conn = [] := by
        rw [Op.written, hlen]
        exact ite_self _
      have he : (Op.writeStream destlen streamId fin data ts).ends id conn = false := by
        rw [Op.ends, hlen]
        exact Bool.and_false _
      rw [hw, he, List.append_nil, Bool.or_false]
      have hquiet : Changes (held conn) [.idle, .timer] conn conn' :=
        hq.changes (by simp) (by simp) fun hne => absurd rfl hne
      exact hquiet.sources (by simp) hused.ids hid hs
    · have hw : (Op.writeStream destlen streamId fin data ts).written id conn =
          if streamId = id then data.take n else [] := by
        rw [Op.written, hlen]
        rfl
      have he : (Op.writeStream destlen streamId fin data ts).ends id conn =
          (streamId == id && fin && n == data.length) := by
        rw [Op.ends, hlen]
        rfl
      rw [hw, he]
      by_cases heq : streamId = id
      · subst heq
        have hlive := hused.live streamId hid (Option.isSome_of_eq_some hsent.find)
        rw [if_pos rfl, beq_self_eq_true, Bool.true_and]
        exact hsent.sources hused (hch.usedMono hused.ids hlive) hs hlogs hconn
      · rw [if_neg heq, beq_false_of_ne heq, Bool.false_and, Bool.false_and, List.append_nil,
          Bool.or_false]
        exact hsent.others hused (hch.usedMono hused.ids) heq hs hlogs hconn
  | _ => exact hother rfl rfl (Op.kinds_tx nofun)

/-- Nothing is taken over of a stream that is shut for writing. -/
theorem Op.written_shut (hshut : ∀ strm, conn.strms id = some strm → strm.shutWr = true) (op : Op) :
    op.written id conn = [] := by
  cases op with
  | writeStream destlen streamId fin data ts =>
    generalize hx : ngtcp2ConnWriteStream conn destlen streamId fin data ts = x
    obtain ⟨r, conn'⟩ := x
    have hlen : writtenLen conn destlen streamId fin data ts = r.toOption.map Prod.snd :=
      congrArg (fun r => (Prod.fst r).toOption.map Prod.snd) hx
    rw [Op.written, hlen]
    rcases ngtcp2ConnWriteStream_cases hx with ⟨e, rfl, -⟩ | ⟨e, rfl, -⟩ |
      ⟨pkt, n, strm, fr, conn₁, rfl, hsent, -⟩
    · exact ite_self _
    · exact ite_self _
    · apply if_neg
      rintro rfl
      exact Bool.false_ne_true (hsent.unshut.symm.trans (hshut strm hsent.find))
  | _ => rfl

theorem Op.written_other (h : ∀ destlen streamId fin data ts,
    op ≠ .writeStream destlen streamId fin data ts) (id : Nat) (conn : Conn) :
    op.written id conn = [] := by
  cases op with
  | writeStream destlen streamId fin data ts => exact absurd rfl (h _ _ _ _ _)
  | _ => rfl

theorem Initial.sources (h : Initial conn) (hid : id ≠ 0) : Sources id [] false conn := by
  constructor
  · intro fr _ hheld
    cases h <;> cases hheld
  · intro strm hfind
    have hnone : conn.strms id = none := by cases h <;> exact if_neg hid
    rw [hnone] at hfind
    cases hfind
  · exact fun _ => ⟨rfl, rfl⟩

/-! ## Runs of both endpoints -/

variable {ok : Bool → Conn → Op → Prop} {net₀ net : Network.Net Conn Frame} {ls : List (Bool × Op)}

/-- What an endpoint has after some steps, and what they took over of a stream. -/
structure SourcesAfter (conn₀ : Conn) (id : Nat) (ops : List Op) (conn : Conn) : Prop where
  reach : Reachable conn
  last : runOps conn₀ ops = conn
  sources : Sources id (written id conn₀ ops) (ends id conn₀ ops) conn

/-- The frame, if it is a STREAM frame of this stream, carries what some steps took over. -/
def ConveysAfter (conn₀ : Conn) (id : Nat) (ops : List Op) (fr : Frame) : Prop :=
  ∀ fr', fr = .stream fr' → fr'.streamId = id →
    Conveys (written id conn₀ ops) (ends id conn₀ ops) fr'

theorem runOps_snoc (conn₀ : Conn) (ops : List Op) (op : Op) :
    runOps conn₀ (ops ++ [op]) = (op.run (runOps conn₀ ops)).2 :=
  List.foldl_concat _ _ _ _

theorem SourcesAfter.step {rest : List Op} (h : SourcesAfter conn₀ id ops conn) (hid : id ≠ 0)
    (hstep : Step rest conn op conn') : SourcesAfter conn₀ id (ops ++ [op]) conn' := by
  obtain ⟨hreach, rfl, hs⟩ := h
  refine ⟨hreach.step hstep, ?_, ?_⟩
  · rw [runOps_snoc]
    obtain ⟨rv, hrun, -⟩ := hstep
    exact congrArg Prod.snd hrun
  · rw [written_snoc, ends_snoc]
    exact hstep.sources hreach hid hs

theorem SourcesAfter.emits {rest : List Op} (h : SourcesAfter conn₀ id ops conn) (hid : id ≠ 0)
    (hstep : Step rest conn op conn') {fr : Frame} (hfr : fr ∈ op.emits conn) :
    ConveysAfter conn₀ id (ops ++ [op]) fr := by
  rintro fr' rfl hsid
  rcases hstep.emits_held h.reach.wellFormed hfr with hun | hclose | hheld
  · cases hun
  · cases hclose
  · exact (h.step hid hstep).sources.frames fr' hsid hheld

theorem SourcesAfter.stays (h : SourcesAfter conn₀ id ops conn) (op : Op) {fr : Frame}
    (hfr : ConveysAfter conn₀ id ops fr) : ConveysAfter conn₀ id (ops ++ [op]) fr := by
  intro fr' heq hsid
  obtain ⟨-, rfl, hs⟩ := h
  rw [written_snoc, ends_snoc]
  exact (hfr fr' heq hsid).append _ _ fun he =>
    Op.written_shut (fun strm find => (hs.live strm find).2 he) op

/-- Whatever an endpoint sends of a stream, it took over from its application. -/
theorem sent_conveys (hrun : Network.Run (fun side => endpoint (ok side)) net₀ ls net)
    (hstart : Connected net₀) (side : Bool) (hid : id ≠ 0) :
    SourcesAfter (net₀.state side) id (Network.own side ls) (net.state side) ∧
      ∀ fr ∈ net.sent side, ConveysAfter (net₀.state side) id (Network.own side ls) fr := by
  refine Network.run_sent hrun side (hstart.sent side) (SourcesAfter (net₀.state side) id)
    (fun ops _ => ConveysAfter (net₀.state side) id ops) ?_ ?_ ?_ ?_
  · have init := hstart.initial side
    exact ⟨init.reachable, rfl, init.sources hid⟩
  · exact fun _ _ _ _ h hstep => h.step hid hstep.1
  · exact fun _ _ _ _ h hstep _ hfr => h.emits hid hstep.1 hfr
  · exact fun _ _ op _ _ h _ hfr => h.stays op hfr

end

end Ngtcp2
