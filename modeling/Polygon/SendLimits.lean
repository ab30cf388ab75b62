import Polygon.StreamAccepted

/-!
# The limits of the sender

The peer limits what the connection and each stream may send, and how many streams may be
opened. Frames raise the limits, and `ngtcp2_conn_write_stream` keeps to them, so its
subtractions do not wrap; transport parameters replace them.
-/
namespace Ngtcp2

/-- The connection and the streams of the application are within the limits of the peer. Stream 0 is not
subject to them: the handshake is written whatever its limit is. -/
structure WithinLimits (conn : Conn) : Prop where
  total : conn.txOffset ≤ conn.maxTxOffset
  strms : ∀ id strm, id ≠ 0 → conn.strms id = some strm → strm.txOffset ≤ strm.maxTxOffset

/-- No limit of the connection is lower than before. -/
structure LimitsRaised (conn conn' : Conn) : Prop where
  maxTxOffset : conn.maxTxOffset ≤ conn'.maxTxOffset
  maxLocalStreamId : ∀ bidi, (conn.ids bidi).maxLocalStreamId ≤ (conn'.ids bidi).maxLocalStreamId

/-- The parameters lower none of the limits that are in force. -/
def keepsLimits (conn : Conn) (params : TransportParams) : Bool :=
  conn.maxTxOffset ≤ params.initialMaxData.toNat && conn.bidi.maxLocalStreamId ≤ params.initialMaxStreamIdBidi.toNat &&
    conn.uni.maxLocalStreamId ≤ params.initialMaxStreamIdUni.toNat

/-- The step does not lower a limit: transport parameters that are applied keep those in force. -/
def Op.keepsLimits (conn : Conn) : Op → Bool
  | setRemoteTransportParams _ params | setEarlyRemoteTransportParams params =>
    Ngtcp2.keepsLimits conn params
  | _ => true

section
variable {H : List Frame} {K : List Kind} {conn conn₁ conn' : Conn} {strm strm' : Strm}

theorem LimitsRaised.refl (conn : Conn) : LimitsRaised conn conn :=
    ⟨Nat.le_refl _, fun _ => Nat.le_refl _⟩

theorem LimitsRaised.trans (h : LimitsRaised conn conn₁) (h' : LimitsRaised conn₁ conn') :
    LimitsRaised conn conn' :=
  ⟨Nat.le_trans h.maxTxOffset h'.maxTxOffset,
    fun bidi => Nat.le_trans (h.maxLocalStreamId bidi) (h'.maxLocalStreamId bidi)⟩

theorem LimitsRaised.of_eq (hmax : conn'.maxTxOffset = conn.maxTxOffset)
    (hids : ∀ bidi, (conn'.ids bidi).maxLocalStreamId = (conn.ids bidi).maxLocalStreamId) :
    LimitsRaised conn conn' :=
  ⟨Nat.le_of_eq hmax.symm, fun bidi => Nat.le_of_eq (hids bidi).symm⟩

/-- IDs of a stream type that keep the limit. -/
theorem LimitsRaised.setIds (conn : Conn) (bidi : Bool) (ids : StreamIds)
    (h : (conn.ids bidi).maxLocalStreamId ≤ ids.maxLocalStreamId) :
    LimitsRaised conn (conn.setIds bidi ids) := by
  refine ⟨?_, fun bidi' => ?_⟩
  · unfold Conn.setIds
    split <;> exact Nat.le_refl _
  · rw [Conn.ids_setIds]
    split
    · next he => exact he ▸ h
    · exact Nat.le_refl _

theorem trackStreamPkt_limits (conn : Conn) (hd : PktHd) (fr : StreamFrame) (ts pktlen : Nat) :
    (trackStreamPkt conn hd fr ts pktlen).strms = conn.strms ∧
      (trackStreamPkt conn hd fr ts pktlen).txOffset = conn.txOffset ∧
      (trackStreamPkt conn hd fr ts pktlen).maxTxOffset = conn.maxTxOffset ∧
      ∀ bidi, (trackStreamPkt conn hd fr ts pktlen).ids bidi = conn.ids bidi := by
  unfold trackStreamPkt
  split <;> exact ⟨rfl, rfl, rfl, fun _ => rfl⟩

/-! ## One change -/

/-- Only transport parameters can lower a limit. -/
theorem Change.limitsRaised {k : Kind} (h : Change H k conn conn') (hk : k ≠ .limits) :
    LimitsRaised conn conn' := by
  cases h with
  | idle same => exact .of_eq same.maxTxOffset fun bidi => by cases bidi <;> simp [Conn.ids, same.bidi, same.uni]
  | limits => exact absurd rfl hk
  | limits0 => exact absurd rfl hk
  | @openRemote _ streamId idtr =>
    have hids : LimitsRaised conn (conn.setIds (bidiStream streamId)
      { conn.ids (bidiStream streamId) with remoteIdtr := idtr }) := .setIds conn _ _ (Nat.le_refl _)
    exact hids.trans (.of_eq rfl fun _ => rfl)
  | @openLocal _ strm bidi =>
    have hids := LimitsRaised.setIds ((conn.setStrm strm).tell (.strmInit strm.streamId)) bidi
      { conn.ids bidi with nextLocalStreamId := (conn.ids bidi).nextLocalStreamId + 4 }
      (Nat.le_refl _)
    have hopen : LimitsRaised conn ((conn.setStrm strm).tell (.strmInit strm.streamId)) :=
      .of_eq rfl fun _ => rfl
    exact hopen.trans hids
  | @consume _ streamId =>
    have hids := LimitsRaised.setIds conn
      (bidiStream streamId) { conn.ids (bidiStream streamId) with
      remoteIdtr := (idtrOpen (conn.ids (bidiStream streamId)).remoteIdtr streamId).getD
        (conn.ids (bidiStream streamId)).remoteIdtr } (Nat.le_refl _)
    exact hids.trans (.of_eq rfl fun _ => rfl)
  | @close _ strm _ _ code bidi unsent =>
    generalize (if strm.onFc then conn.fcStrms.erase strm.streamId else conn.fcStrms) = fcStrms
    have hids := LimitsRaised.setIds (((conn.setFcStrms fcStrms).removeStrm strm.streamId).tell
      (.streamClose strm.streamId code)) bidi { conn.ids bidi with unsentMaxRemoteStreamId := unsent } (Nat.le_refl _)
    have hclose : LimitsRaised conn (((conn.setFcStrms fcStrms).removeStrm strm.streamId).tell
        (.streamClose strm.streamId code)) := .of_eq rfl fun _ => rfl
    exact hclose.trans hids
  | raiseData => exact ⟨Nat.le_max_left .., fun _ => Nat.le_refl _⟩
  | raiseIds => exact .setIds conn _ _ (Nat.le_max_left ..)
  | @tx _ _ fr hd _ _ _ _ _ _ _ _ ts pktlen =>
    obtain ⟨-, -, hmax, hids⟩ := trackStreamPkt_limits conn hd fr ts pktlen
    refine .of_eq hmax fun bidi => ?_
    rw [← hids bidi]
    rfl
  | frq => exact .of_eq rfl fun bidi => by cases bidi <;> rfl
  | _ => exact .of_eq rfl fun _ => rfl

/-- A stream written back within its limit. -/
theorem WithinLimits.setStrm (h : WithinLimits conn)
    (hstrm : strm.streamId ≠ 0 → strm.txOffset ≤ strm.maxTxOffset) :
    WithinLimits (conn.setStrm strm) := by
  refine ⟨h.total, fun id strm' hid hfind => ?_⟩
  rw [Conn.setStrm_strms] at hfind
  split at hfind
  · next he =>
    obtain rfl := Option.some.inj hfind
    exact hstrm (he ▸ hid)
  · exact h.strms id strm' hid hfind

theorem WithinLimits.of_eq (h : WithinLimits conn) (hstrms : conn'.strms = conn.strms)
    (htx : conn'.txOffset = conn.txOffset) (hmax : conn.maxTxOffset ≤ conn'.maxTxOffset) :
    WithinLimits conn' :=
  ⟨htx ▸ Nat.le_trans h.total hmax, fun id strm hid hfind => h.strms id strm hid (hstrms ▸ hfind)⟩

theorem WithinLimits.setIds (h : WithinLimits conn) (bidi : Bool) (ids : StreamIds) :
    WithinLimits (conn.setIds bidi ids) := by
  unfold Conn.setIds
  split <;> exact ⟨h.total, h.strms⟩

theorem WithinLimits.found (h : WithinLimits conn) (find : conn.strms strm.streamId = some strm) :
    strm.streamId ≠ 0 → strm.txOffset ≤ strm.maxTxOffset := fun hid => h.strms _ _ hid find

theorem WithinLimits.sameTx (h : WithinLimits conn) (find : conn.strms strm.streamId = some strm)
    (tx : SameTx strm strm') :
    strm'.streamId ≠ 0 → strm'.txOffset ≤ strm'.maxTxOffset := by
  intro hid
  rw [tx.txOffset, tx.maxTxOffset]
  exact h.strms _ _ (tx.streamId ▸ hid) find

/-- Credit that did not wrap is enough for what it allows. -/
theorem add_le_of_le_subU64 {n tx max : Nat} (h : tx ≤ max) (hn : n ≤ subU64 max tx) :
    tx + n ≤ max := by
  unfold subU64 at hn
  have hmod : (max + 2 ^ 64 - tx) % 2 ^ 64 ≤ max - tx := by
    rw [Nat.sub_add_comm h, Nat.add_mod_right]
    exact Nat.mod_le _ _
  omega

/-- Bytes that fit the limits are charged. -/
theorem WithinLimits.charge {fr : StreamFrame} (h : WithinLimits conn)
    (hroom : conn.txOffset + fr.data.length ≤ conn.maxTxOffset)
    (hstrm : strm.streamId ≠ 0 → strm.txOffset + fr.data.length ≤ strm.maxTxOffset) :
    WithinLimits (chargeStream conn strm fr) := by
  have htotal : WithinLimits { conn with
      txOffset := if fr.streamId = 0 then conn.txOffset else conn.txOffset + fr.data.length } := by
    refine ⟨?_, h.strms⟩
    dsimp only
    split
    · exact h.total
    · exact hroom
  have hall : ∀ strm' : Strm, (strm'.streamId ≠ 0 → strm'.txOffset ≤ strm'.maxTxOffset) →
    WithinLimits (Conn.setStrm _ strm') :=
    fun strm' hstrm' => htotal.setStrm hstrm'
  refine (hall (if fr.fin then (strm.setTxOffset (strm.txOffset + fr.data.length)).shutdownWr
    else strm.setTxOffset (strm.txOffset + fr.data.length)) ?_).of_eq rfl rfl (Nat.le_refl _)
  cases fr.fin
  · exact hstrm
  · exact hstrm

theorem Change.withinLimits {k : Kind} (h : Change H k conn conn') (hk : k ≠ .limits)
    (hlim : WithinLimits conn) :
    WithinLimits conn' := by
  cases h with
  | idle same => exact hlim.of_eq same.strms same.txOffset (Nat.le_of_eq same.maxTxOffset.symm)
  | @rx _ _ strm' find tx zero rxOffset =>
    have hrx : WithinLimits (conn.setRxOffset rxOffset) := hlim.of_eq rfl rfl (Nat.le_refl _)
    exact (hrx.setStrm (hlim.sameTx find tx)).of_eq rfl rfl (Nat.le_refl _)
  | @window _ _ _ find tx rx unsent fcStrms =>
    have hfc : WithinLimits (conn.setFcStrms fcStrms) := hlim.of_eq rfl rfl (Nat.le_refl _)
    exact hfc.setStrm (hlim.sameTx find tx)
  | announceStrm find =>
    have hle := hlim.found find
    exact WithinLimits.setStrm (hlim.of_eq rfl rfl (Nat.le_refl _)) fun hid => hle hid
  | @extend _ _ _ find tx rx fcStrms =>
    have hfc : WithinLimits (conn.setFcStrms fcStrms) := hlim.of_eq rfl rfl (Nat.le_refl _)
    exact hfc.setStrm (hlim.sameTx find tx)
  | @openRemote _ streamId idtr =>
    have hzero : (openedStrm conn streamId).txOffset = 0 := by
      unfold openedStrm
      dsimp only
      split <;> rfl
    have hids := hlim.setIds (bidiStream streamId) { conn.ids (bidiStream streamId) with remoteIdtr := idtr }
    have hstrm : WithinLimits (Conn.setStrm _ (openedStrm conn streamId)) :=
      hids.setStrm fun _ => hzero ▸ Nat.zero_le _
    exact ⟨hstrm.total, hstrm.strms⟩
  | @openLocal _ strm bidi credit none init =>
    have hzero : strm.txOffset = 0 := by rcases init with rfl | rfl <;> rfl
    have hstrm : WithinLimits (conn.setStrm strm) := hlim.setStrm fun _ => hzero ▸ Nat.zero_le _
    have htold : WithinLimits ((conn.setStrm strm).tell (.strmInit strm.streamId)) :=
      ⟨hstrm.total, hstrm.strms⟩
    exact htold.setIds bidi _
  | @consume _ streamId =>
    have hids := hlim.setIds (bidiStream streamId) { conn.ids (bidiStream streamId) with
      remoteIdtr := (idtrOpen (conn.ids (bidiStream streamId)).remoteIdtr streamId).getD
        (conn.ids (bidiStream streamId)).remoteIdtr }
    exact ⟨hids.total, hids.strms⟩
  | @close _ strm find shut code bidi unsent =>
    generalize (if strm.onFc then conn.fcStrms.erase strm.streamId else conn.fcStrms) = fcStrms
    have hclosed : WithinLimits (((conn.setFcStrms fcStrms).removeStrm strm.streamId).tell
        (.streamClose strm.streamId code)) := by
      refine ⟨hlim.total, fun id strm' hid hfind => ?_⟩
      have hfind : (if id = strm.streamId then none else conn.strms id) = some strm' := hfind
      split at hfind
      · cases hfind
      · exact hlim.strms id strm' hid hfind
    exact hclosed.setIds bidi _
  | raiseData => exact hlim.of_eq rfl rfl (Nat.le_max_left ..)
  | raiseIds => exact hlim.setIds _ _
  | raiseStrm find =>
    have hle := hlim.found find
    exact hlim.setStrm fun hid => Nat.le_trans (hle hid) (Nat.le_max_left ..)
  | limits => exact absurd rfl hk
  | limits0 => exact absurd rfl hk
  | rst find =>
    have hle := hlim.found find
    exact WithinLimits.setStrm (hlim.of_eq rfl rfl (Nat.le_refl _)) fun hid => hle hid
  | acked find =>
    have hle := hlim.found find
    exact hlim.setStrm fun hid => hle hid
  | @tx _ strm fr hd find id _ _ strmCredit connCredit _ _ ts pktlen =>
    obtain ⟨hstrms, htx, hmax, -⟩ := trackStreamPkt_limits conn hd fr ts pktlen
    have hroom := add_le_of_le_subU64 hlim.total connCredit
    have htrack : WithinLimits (trackStreamPkt conn hd fr ts pktlen) :=
      hlim.of_eq hstrms htx (Nat.le_of_eq hmax.symm)
    exact htrack.charge (by rw [htx, hmax]; exact hroom) fun hid =>
      add_le_of_le_subU64 (hlim.found find hid) strmCredit
  | @refill _ strm0 find zero => exact hlim.setStrm fun hid => absurd zero hid
  | @advance _ strm0 find zero => exact hlim.setStrm fun hid => absurd zero hid
  | restart => exact WithinLimits.setStrm (hlim.of_eq rfl rfl (Nat.le_refl _)) fun hid => absurd rfl hid
  | _ => exact hlim.of_eq rfl rfl (Nat.le_refl _)

/-! ## Steps and runs -/

theorem applyRemoteSettings_raises {params : TransportParams} (h : keepsLimits conn params = true) :
    LimitsRaised conn (applyRemoteSettings conn params) := by
  unfold keepsLimits at h
  rw [Bool.and_eq_true, Bool.and_eq_true, decide_eq_true_eq, decide_eq_true_eq,
    decide_eq_true_eq] at h
  obtain ⟨⟨hdata, hbidi⟩, huni⟩ := h
  refine ⟨hdata, fun bidi => ?_⟩
  cases bidi
  · exact huni
  · exact hbidi

theorem applyRemoteSettings_withinLimits {params : TransportParams}
    (h : keepsLimits conn params = true)
    (hlim : WithinLimits conn) : WithinLimits (applyRemoteSettings conn params) :=
  hlim.of_eq rfl rfl (applyRemoteSettings_raises h).maxTxOffset

theorem setRemoteTransportParams_limits {exttype : TransportParamsType} {params : TransportParams}
    {r : Except Err Unit}
    (hkeyed : StrmsKeyed conn)
    (h : ngtcp2ConnSetRemoteTransportParams conn exttype params = (r, conn'))
    (hkeep : keepsLimits conn params = true) (hlim : WithinLimits conn) :
    WithinLimits conn' ∧ LimitsRaised conn conn' := by
  have hset := applyRemoteSettings_withinLimits hkeep hlim
  unfold ngtcp2ConnSetRemoteTransportParams at h
  split at h
  · obtain ⟨-, rfl⟩ := Prod.mk.inj h
    exact ⟨hlim, .refl _⟩
  dsimp only at h
  split at h
  · obtain ⟨-, rfl⟩ := Prod.mk.inj h
    exact ⟨hset, applyRemoteSettings_raises hkeep⟩
  · next strm0 hfind =>
    obtain ⟨-, rfl⟩ := Prod.mk.inj h
    have hid : strm0.streamId = 0 := hkeyed 0 strm0 hfind
    have hset0 : WithinLimits (Conn.setStrm _
        (strm0.setMaxTxOffset (applyRemoteSettings conn params).remoteSettings.maxStreamData.toNat)) :=
      hset.setStrm fun hne => absurd hid hne
    exact ⟨hset0.of_eq rfl rfl (Nat.le_refl _),
      (applyRemoteSettings_raises hkeep).trans (.of_eq rfl fun _ => rfl)⟩

theorem setEarlyRemoteTransportParams_limits {params : TransportParams} {r : Except Err Unit}
    (h : ngtcp2ConnSetEarlyRemoteTransportParams conn params = (r, conn'))
    (hkeep : keepsLimits conn params = true)
    (hlim : WithinLimits conn) : WithinLimits conn' ∧ LimitsRaised conn conn' := by
  unfold ngtcp2ConnSetEarlyRemoteTransportParams at h
  split at h
  · obtain ⟨-, rfl⟩ := Prod.mk.inj h
    exact ⟨hlim, .refl _⟩
  · obtain ⟨-, rfl⟩ := Prod.mk.inj h
    exact ⟨applyRemoteSettings_withinLimits hkeep hlim, applyRemoteSettings_raises hkeep⟩

theorem Step.limits {ops : List Op} {op : Op} (hwf : WellFormed conn)
    (hstep : Step ops conn op conn')
    (hkeep : op.keepsLimits conn = true) (hlim : WithinLimits conn) :
    WithinLimits conn' ∧ LimitsRaised conn conn' := by
  have hch := Step.changes hwf hstep
  have hkinds : Kind.limits ∉ op.kinds → WithinLimits conn' ∧ LimitsRaised conn conn' := by
    intro hno
    have hne : ∀ k ∈ Kind.timeout :: op.kinds, k ≠ .limits := by
      rintro k hk rfl
      exact hno ((List.mem_cons.mp hk).resolve_left nofun)
    refine hch.keeps (fun conn' => WithinLimits conn' ∧ LimitsRaised conn conn')
      (fun k hk _ _ hP hc => ?_) ⟨hlim, .refl _⟩
    exact ⟨hc.withinLimits (hne k hk) hP.1, hP.2.trans (hc.limitsRaised (hne k hk))⟩
  obtain ⟨rv, hrun, -⟩ := hstep
  cases op with
  | setRemoteTransportParams exttype params =>
    exact setRemoteTransportParams_limits hwf.keyed hrun hkeep hlim
  | setEarlyRemoteTransportParams params =>
    exact setEarlyRemoteTransportParams_limits hrun hkeep hlim
  | recvFrame longForm fr =>
    exact hkinds (by cases fr <;> simp [Op.kinds, Frame.recvKinds, ackKinds, streamKinds])
  | recvDelayedHandshakeFrame type fr =>
    exact hkinds (by cases fr <;> simp [Op.kinds, Frame.recvDelayedKinds, ackKinds, streamKinds])
  | recvHandshakeFrame type failed fr =>
    exact hkinds (by cases fr <;> simp [Op.kinds, Frame.recvHandshakeKinds, ackKinds])
  | _ => exact hkinds (by simp [Op.kinds, shutdownKinds, streamTxKinds, writeKinds, resendKinds, closeKinds, retryKinds])

/-- The steps that do not lower a limit. -/
def LimitStep : List Op → Conn → Op → Conn → Prop :=
    Runs.Guarded Step fun _ conn op => op.keepsLimits conn = true

theorem Initial.withinLimits (h : Initial conn) : WithinLimits conn := by
  have hnone : ∀ {init : Strm} {id : Nat}, id ≠ 0 → (if id = 0 then some init else none) = none :=
    fun hid => if_neg hid
  cases h <;>
  · refine ⟨Nat.le_refl _, fun id strm hid hfind => ?_⟩
    cases (hnone hid).symm.trans hfind

/-- What a call of `ngtcp2_conn_write_stream` emits is within the limits. -/
theorem ngtcp2ConnWriteStream_limits {destlen streamId ts n : Nat} {fin : Bool} {data : List UInt8}
    {pkt : Pkt}
    (hlim : WithinLimits conn) (hid : streamId ≠ 0)
    (h : ngtcp2ConnWriteStream conn destlen streamId fin data ts = (.ok (pkt, n), conn')) :
    ∃ strm, conn.strms streamId = some strm ∧ strm.txOffset + n ≤ strm.maxTxOffset ∧
      conn.txOffset + n ≤ conn.maxTxOffset := by
  obtain ⟨strm, fr, -, hemit⟩ := ngtcp2ConnWriteStream_emitted h
  have hroom : n ≤ writeStreamRoom conn strm destlen := hemit.len ▸ Nat.min_le_right ..
  have hconn : n ≤ subU64 conn.maxTxOffset conn.txOffset := hroom.trans (Nat.min_le_right ..)
  have hstrm : n ≤ subU64 strm.maxTxOffset strm.txOffset :=
    hroom.trans ((Nat.min_le_left ..).trans (Nat.min_le_right ..))
  exact ⟨strm, hemit.find, add_le_of_le_subU64 (hlim.strms _ _ hid hemit.find) hstrm,
    add_le_of_le_subU64 hlim.total hconn⟩

end

/-- Parameters with a limit of `maxData` bytes, for the connection and each stream. -/
def dataParams (maxData : UInt32) : TransportParams := ⟨maxData, maxData, 40, 40, 3, 1, [1]⟩

/-- A client that writes with the limits of an earlier connection. -/
def earlyOps : List Op :=
  [.setKeys .early ⟨[2], [2]⟩, .setEarlyRemoteTransportParams (dataParams 100), .openBidiStream,
    .writeStream 100 4 false [1, 2, 3] 1]

/-- The client before the parameters of its server are known. -/
def earlyClient : Conn :=
    runOps (ngtcp2ConnClientNew (fun _ => 0) 1 1 quietCallbacks ⟨100, 1000, 40, 40, 3⟩) earlyOps

end Ngtcp2
