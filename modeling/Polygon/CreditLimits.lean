import Polygon.SendLimits
import Polygon.SentFrames
import Polygon.StreamIntegrity

/-!
# Limits that the peer has granted

The limits under which an endpoint sends, for the connection, for its streams and for new
streams, are never above those that the other endpoint has announced, whatever the network does
to the frames between them.
-/
namespace Ngtcp2

open Ranges

/-- The endpoint takes so many bytes of the stream. -/
structure Within (peer : Conn) (id n : Nat) : Prop where
  live : ∀ strm, peer.strms id = some strm → n ≤ strm.maxRxOffset
  fresh : ¬Used peer id → n ≤ peer.localSettings.maxStreamData.toNat

/-- No limit is below the one that the settings offer. -/
structure Generous (conn : Conn) : Prop where
  data : conn.localSettings.maxData.toNat ≤ conn.maxRxOffset
  bidi : conn.localSettings.maxStreamIdBidi.toNat ≤ conn.bidi.maxRemoteStreamId
  uni : conn.localSettings.maxStreamIdUni.toNat ≤ conn.uni.maxRemoteStreamId
  strms : ∀ id strm, id ≠ 0 → conn.strms id = some strm →
    conn.localSettings.maxStreamData.toNat ≤ strm.maxRxOffset

/-- The limits in force, and the streams in use, are such as the peer allows. -/
structure Granted (peer conn : Conn) : Prop where
  data : conn.maxTxOffset ≤ peer.maxRxOffset
  strmData : conn.remoteSettings.maxStreamData.toNat ≤ peer.localSettings.maxStreamData.toNat
  ids : ∀ bidi, (conn.ids bidi).maxLocalStreamId ≤ (peer.ids bidi).maxRemoteStreamId
  strms : ∀ id strm, id ≠ 0 → conn.strms id = some strm → Within peer id strm.maxTxOffset
  opened : ∀ id, connLocalStream conn id = true → Used conn id → id ≠ 0 →
    id ≤ (peer.ids (bidiStream id)).maxRemoteStreamId

/-- The parameters offer no more than the settings. -/
structure Offers (settings : Settings) (params : TransportParams) : Prop where
  strmData : params.initialMaxStreamData.toNat ≤ settings.maxStreamData.toNat
  data : params.initialMaxData.toNat ≤ settings.maxData.toNat
  bidi : params.initialMaxStreamIdBidi.toNat ≤ settings.maxStreamIdBidi.toNat
  uni : params.initialMaxStreamIdUni.toNat ≤ settings.maxStreamIdUni.toNat

/-- Transport parameters that the step applies offer no more than the settings. -/
def Op.offered (settings : Settings) : Op → Prop
  | setRemoteTransportParams _ params | setEarlyRemoteTransportParams params =>
    Offers settings params
  | _ => True

section
variable {H : List Frame} {K : List Kind} {conn conn₁ conn' peer : Conn} {strm strm' : Strm}
  {k : Kind} {id n m : Nat}

theorem Within.max (h : Within peer id n) (h' : Within peer id m) : Within peer id (max n m) :=
  ⟨fun strm hfind => Nat.max_le.mpr ⟨h.live strm hfind, h'.live strm hfind⟩,
    fun hun => Nat.max_le.mpr ⟨h.fresh hun, h'.fresh hun⟩⟩

theorem Within.mono (h : Within peer id m) (hle : n ≤ m) : Within peer id n :=
  ⟨fun strm hfind => Nat.le_trans hle (h.live strm hfind), fun hun => Nat.le_trans hle (h.fresh hun)⟩

theorem Generous.within (h : Generous peer) (hid : id ≠ 0)
    (hle : n ≤ peer.localSettings.maxStreamData.toNat) : Within peer id n :=
  ⟨fun strm hfind => Nat.le_trans hle (h.strms id strm hid hfind), fun _ => hle⟩

/-! ## The side that grants -/

theorem Change.localSettings (h : Change H k conn conn') :
    conn'.localSettings = conn.localSettings := by
  cases h with
  | idle same => exact same.localSettings
  | openRemote => exact Conn.setIds_localSettings _ _ _
  | @openLocal _ _ bidi => cases bidi <;> rfl
  | consume => exact Conn.setIds_localSettings _ _ _
  | @close _ _ _ _ _ bidi => cases bidi <;> rfl
  | raiseIds _ bidi => cases bidi <;> rfl
  | tx =>
    unfold chargeStream trackStreamPkt
    dsimp only
    split <;> rfl
  | _ => rfl

theorem NewStrm.maxRxOffset (h : NewStrm conn strm k) :
    strm.maxRxOffset = conn.localSettings.maxStreamData.toNat := by
  cases h with
  | remote remote opened =>
    rw [opened]
    unfold openedStrm
    dsimp only
    split <;> rfl
  | isLocal isLocal init => rcases init with h | h <;> rw [h] <;> rfl

theorem Change.generous (h : Change H k conn conn') (hinv : IdsInv conn)
    (hahead : k = .announce → Ahead conn) (hg : Generous conn) : Generous conn' := by
  have hset := h.localSettings
  refine ⟨?_, ?_, ?_, fun id strm' hid hfind => ?_⟩ <;> rw [hset]
  · exact Nat.le_trans hg.data h.maxRxOffset_le
  · exact Nat.le_trans hg.bidi (h.maxRemoteStreamId_le true)
  · exact Nat.le_trans hg.uni (h.maxRemoteStreamId_le false)
  cases h.strmFrom hinv hid hfind with
  | kept strm find change =>
    have hle := change.maxRxOffset_le fun hk => hahead hk id strm hid find
    exact Nat.le_trans (hg.strms id strm hid find) hle
  | opened unused streamId fresh => exact Nat.le_of_eq fresh.maxRxOffset.symm

theorem Initial.generous (h : Initial conn) : Generous conn := by
  refine ⟨?_, ?_, ?_, fun id strm hid hfind => ?_⟩
  · cases h <;> exact Nat.le_refl _
  · cases h <;> exact Nat.le_refl _
  · cases h <;> exact Nat.le_refl _
  · have hnone : conn.strms id = none := by cases h <;> exact if_neg hid
    cases hnone.symm.trans hfind

theorem Step.generous {ops : List Op} {op : Op} (hreach : Reachable conn)
    (hstep : Step ops conn op conn') (hahead : Ahead conn) (hg : Generous conn) :
    Generous conn' := by
  have hch := Step.changes hreach.wellFormed hstep
  refine (hch.keeps (fun c => IdsInv c ∧ (.announce ∈ Kind.timeout :: op.kinds → Ahead c) ∧
    Generous c) ?_ ⟨hreach.strmsUsed.ids, fun _ => hahead, hg⟩).2.2
  rintro k hk c c' ⟨hinv, hah, hg⟩ hc
  refine ⟨hc.idsInv hinv, fun hin => ?_, hc.generous hinv (fun heq => hah (heq ▸ hk)) hg⟩
  obtain ⟨hrx, hext⟩ := Op.announces hin
  exact hc.ahead (fun heq => hrx (heq ▸ hk)) (fun heq => hext (heq ▸ hk)) hinv (hah hin)

theorem Step.localSettings {ops : List Op} {op : Op} (hreach : Reachable conn)
    (hstep : Step ops conn op conn') : conn'.localSettings = conn.localSettings :=
  (Step.changes hreach.wellFormed hstep).keeps (fun c => c.localSettings = conn.localSettings)
    (fun _ _ _ _ hP hc => hc.localSettings.trans hP) rfl

/-! ## The side that sends -/

theorem StrmChange.maxTxOffset (h : StrmChange k strm strm') (hk : k ≠ .raise) :
    strm'.maxTxOffset = strm.maxTxOffset := by
  cases h with
  | rx tx | window tx | extend tx => exact tx.maxTxOffset
  | raise => exact absurd rfl hk
  | tx => split <;> rfl
  | _ => rfl

theorem NewStrm.maxTxOffset (h : NewStrm conn strm k) :
    strm.maxTxOffset = conn.remoteSettings.maxStreamData.toNat := by
  cases h with
  | remote remote opened =>
    rw [opened]
    unfold openedStrm
    dsimp only
    split <;> rfl
  | isLocal isLocal init => rcases init with h | h <;> rw [h] <;> rfl

/-- Only credit from the peer changes the limits of the connection. -/
structure SameSendLimits (conn conn' : Conn) : Prop where
  data : conn'.maxTxOffset = conn.maxTxOffset := by rfl
  strmData : conn'.remoteSettings = conn.remoteSettings := by rfl
  ids : ∀ bidi, (conn'.ids bidi).maxLocalStreamId = (conn.ids bidi).maxLocalStreamId := by
    intro _; rfl

theorem Change.sameSendLimits (h : Change H k conn conn') (hk : k ≠ .raise) (hlim : k ≠ .limits) :
    SameSendLimits conn conn' := by
  cases h with
  | idle same =>
    exact ⟨same.maxTxOffset, same.remoteSettings, fun bidi => by
      cases bidi
      · exact congrArg _ same.uni
      · exact congrArg _ same.bidi⟩
  | @openRemote _ streamId =>
    generalize hb : bidiStream streamId = b
    unfold Ngtcp2.openRemote
    rw [hb]
    exact ⟨by cases b <;> rfl, by cases b <;> rfl, fun bidi => by cases b <;> cases bidi <;> rfl⟩
  | @openLocal _ _ b =>
    exact ⟨by cases b <;> rfl, by cases b <;> rfl, fun bidi => by cases b <;> cases bidi <;> rfl⟩
  | @consume _ streamId =>
    generalize hb : bidiStream streamId = b
    unfold consumeId
    rw [hb]
    exact ⟨by cases b <;> rfl, by cases b <;> rfl, fun bidi => by cases b <;> cases bidi <;> rfl⟩
  | @close _ _ _ _ _ b =>
    exact ⟨by cases b <;> rfl, by cases b <;> rfl, fun bidi => by cases b <;> cases bidi <;> rfl⟩
  | raiseData | raiseIds | raiseStrm => exact absurd rfl hk
  | limits | limits0 => exact absurd rfl hlim
  | tx =>
    unfold chargeStream trackStreamPkt
    dsimp only
    split <;> exact {}
  | frq => exact ⟨rfl, rfl, fun bidi => by cases bidi <;> rfl⟩
  | _ => exact {}

/-- A new ID of this endpoint is within its credit. -/
theorem Change.usedLocal (h : Change H k conn conn') (hinv : IdsInv conn)
    (hlocal : connLocalStream conn id = true) (hused : Used conn' id) :
    Used conn id ∨ id ≤ (conn.ids (bidiStream id)).maxLocalStreamId := by
  by_cases hk : k.keepsIds = true
  · exact .inl (((h.sameIds hk).used id).mp hused)
  have hother : ∀ {streamId : Nat}, connLocalStream conn streamId = false →
      Used conn id ∨ id = streamId → Used conn id := by
    rintro streamId hremote (hu | rfl)
    · exact hu
    · exact absurd (hremote.symm.trans hlocal) Bool.false_ne_true
  cases h with
  | @openRemote _ streamId idtr none remote credit opens =>
    rw [openRemote_eq opens] at hused
    have hsame : SameIds (openId conn streamId)
        (((openId conn streamId).setStrm (openedStrm conn streamId)).tell (.strmInit streamId)) :=
      ⟨rfl, fun _ => rfl, fun _ => rfl⟩
    rw [hsame.used, openId_used hinv remote] at hused
    exact .inl (hother remote hused)
  | @openLocal _ strm bidi credit none init =>
    rcases (openLocal_used hinv id).mp hused with hu | rfl
    · exact .inl hu
    · rw [hinv.kind bidi]
      exact .inr credit
  | @consume _ streamId nonzero none remote =>
    exact .inl (hother remote ((consumeId_used hinv remote id).mp hused))
  | _ => exact absurd rfl hk

/-- Apart from credit that comes from the peer, nothing reaches beyond what it granted. -/
theorem Change.granted (h : Change H k conn conn') (hk : k ≠ .raise) (hlim : k ≠ .limits)
    (hinv : IdsInv conn) (hg : Generous peer) (hgr : Granted peer conn) : Granted peer conn' := by
  have hsame := h.sameSendLimits hk hlim
  constructor
  · rw [hsame.data]
    exact hgr.data
  · rw [hsame.strmData]
    exact hgr.strmData
  · intro bidi
    rw [hsame.ids]
    exact hgr.ids bidi
  · intro id strm' hid hfind
    cases h.strmFrom hinv hid hfind with
    | kept strm find change =>
      rw [change.maxTxOffset hk]
      exact hgr.strms id strm hid find
    | opened unused streamId fresh =>
      rw [fresh.maxTxOffset]
      exact hg.within hid hgr.strmData
  · intro id hlocal hused hid
    rw [connLocalStream_congr h.server] at hlocal
    rcases h.usedLocal hinv hlocal hused with hu | hle
    · exact hgr.opened id hlocal hu hid
    · exact Nat.le_trans hle (hgr.ids _)

theorem Changes.granted (h : Changes H K conn conn') (hraise : .raise ∉ K) (hlim : .limits ∉ K)
    (hinv : IdsInv conn) (hg : Generous peer) (hgr : Granted peer conn) : Granted peer conn' := by
  refine (h.keeps (fun c => IdsInv c ∧ Granted peer c) ?_ ⟨hinv, hgr⟩).2
  rintro k hk c c' ⟨hinv, hgr⟩ hc
  exact ⟨hc.idsInv hinv, hc.granted (fun heq => hraise (heq ▸ hk)) (fun heq => hlim (heq ▸ hk))
    hinv hg hgr⟩

/-! ## Credit from the peer -/

theorem Granted.of_same (h : Granted peer conn) (hsame : SameSendLimits conn conn')
    (hids : SameIds conn conn') (hstrms : ∀ id, id ≠ 0 → conn'.strms id = conn.strms id) :
    Granted peer conn' := by
  constructor
  · rw [hsame.data]
    exact h.data
  · rw [hsame.strmData]
    exact h.strmData
  · intro bidi
    rw [hsame.ids]
    exact h.ids bidi
  · intro id strm hid hfind
    rw [hstrms id hid] at hfind
    exact h.strms id strm hid hfind
  · intro id hlocal hused hid
    rw [connLocalStream_congr hids.server] at hlocal
    exact h.opened id hlocal ((hids.used id).mp hused) hid

theorem Granted.raiseData (h : Granted peer conn) (hle : n ≤ peer.maxRxOffset) :
    Granted peer (connRecvMaxData conn n) :=
  ⟨Nat.max_le.mpr ⟨h.data, hle⟩, h.strmData, h.ids, h.strms, h.opened⟩

theorem Granted.raiseIds (h : Granted peer conn) (bidi : Bool)
    (hle : n ≤ (peer.ids bidi).maxRemoteStreamId) :
    Granted peer (conn.setIds bidi
      { conn.ids bidi with maxLocalStreamId := max (conn.ids bidi).maxLocalStreamId n }) := by
  have hids : SameIds conn (conn.setIds bidi
      { conn.ids bidi with maxLocalStreamId := max (conn.ids bidi).maxLocalStreamId n }) :=
    .setIds conn bidi rfl rfl
  constructor
  · cases bidi <;> exact h.data
  · cases bidi <;> exact h.strmData
  · intro b
    rw [Conn.ids_setIds]
    split
    · next heq =>
      subst heq
      exact Nat.max_le.mpr ⟨h.ids b, hle⟩
    · exact h.ids b
  · intro id strm hid hfind
    rw [Conn.setIds_strms] at hfind
    exact h.strms id strm hid hfind
  · intro id hlocal hused hid
    rw [connLocalStream_congr hids.server] at hlocal
    exact h.opened id hlocal ((hids.used id).mp hused) hid

theorem Granted.raiseStrm (h : Granted peer conn) (find : conn.strms strm.streamId = some strm)
    (hwithin : strm.streamId ≠ 0 → Within peer strm.streamId n) :
    Granted peer (conn.setStrm (strm.setMaxTxOffset (max strm.maxTxOffset n))) := by
  refine ⟨h.data, h.strmData, h.ids, fun id strm' hid hfind => ?_, h.opened⟩
  rw [Conn.setStrm_strms] at hfind
  split at hfind
  · next heq =>
    obtain rfl := Option.some.inj hfind
    have heq : id = strm.streamId := heq
    subst heq
    exact (h.strms _ strm hid find).max (hwithin hid)
  · exact h.strms id strm' hid hfind

theorem Granted.params {params : TransportParams} (h : Granted peer conn) (hg : Generous peer)
    (hoffers : Offers peer.localSettings params) : Granted peer (applyRemoteSettings conn params) := by
  refine ⟨Nat.le_trans hoffers.data hg.data, hoffers.strmData, fun bidi => ?_, h.strms, ?_⟩
  · cases bidi
    · exact Nat.le_trans hoffers.uni hg.uni
    · exact Nat.le_trans hoffers.bidi hg.bidi
  · have hids : SameIds conn (applyRemoteSettings conn params) :=
      ⟨rfl, fun b => by cases b <;> rfl, fun b => by cases b <;> rfl⟩
    exact fun id hlocal hused hid => h.opened id hlocal ((hids.used id).mp hused) hid

theorem setRemoteTransportParams_granted {exttype : TransportParamsType} {params : TransportParams}
    {r : Except Err Unit} (hkeyed : StrmsKeyed conn) (hgr : Granted peer conn)
    (hg : Generous peer) (hoffers : Offers peer.localSettings params)
    (h : ngtcp2ConnSetRemoteTransportParams conn exttype params = (r, conn')) :
    Granted peer conn' := by
  unfold ngtcp2ConnSetRemoteTransportParams at h
  split at h
  · obtain ⟨-, rfl⟩ := Prod.mk.inj h
    exact hgr
  dsimp only at h
  split at h
  · obtain ⟨-, rfl⟩ := Prod.mk.inj h
    exact hgr.params hg hoffers
  · next strm0 hfind =>
    obtain ⟨-, rfl⟩ := Prod.mk.inj h
    have hzero : strm0.streamId = 0 := hkeyed 0 strm0 hfind
    refine (hgr.params hg hoffers).of_same {} ⟨rfl, fun _ => rfl, fun _ => rfl⟩ fun id hid => ?_
    show (if id = strm0.streamId then _ else _) = _
    rw [hzero, if_neg hid]

theorem connRecvMaxStreamData_granted {fr : MaxStreamDataFrame} {r : Except Err Unit}
    (hused : StrmsUsed conn) (hgr : Granted peer conn) (hg : Generous peer)
    (hwithin : fr.streamId ≠ 0 → Within peer fr.streamId fr.maxStreamData)
    (h : connRecvMaxStreamData conn fr = (r, conn')) : Granted peer conn' := by
  unfold connRecvMaxStreamData at h
  split at h
  · obtain ⟨-, rfl⟩ := Prod.mk.inj h
    exact hgr
  next hcheck =>
  obtain ⟨found, conn₁, hfound⟩ :
    ∃ found conn₁, connFindOrOpenStream conn fr.streamId = (found, conn₁) := ⟨_, _, rfl⟩
  obtain ⟨found, rfl, hch, hfind⟩ :=
    connFindOrOpenStream_changes (H := []) hused.keyed hcheck hfound
  rw [hfound, andThen_ok] at h
  have hgr₁ := hch.granted (by simp) (by simp) hused.ids hg hgr
  cases found with
  | none =>
    obtain ⟨-, rfl⟩ := Prod.mk.inj h
    exact hgr₁
  | some strm =>
    obtain ⟨-, rfl⟩ := Prod.mk.inj h
    obtain ⟨find, hid⟩ := hfind strm rfl
    exact hgr₁.raiseStrm find (hid ▸ hwithin)

theorem connRecvMaxStreamId_granted {maxStreamId : Nat} {r : Except Err Unit}
    (hgr : Granted peer conn)
    (hle : maxStreamId ≤ (peer.ids (bidiStream maxStreamId)).maxRemoteStreamId)
    (h : connRecvMaxStreamId conn maxStreamId = (r, conn')) (hr : ¬Fatal r) :
    Granted peer conn' := by
  unfold connRecvMaxStreamId at h
  dsimp only at h
  have hraised := hgr.raiseIds (bidiStream maxStreamId) hle
  unfold connCallExtendMaxStreamId at h
  rcases connCall_cases (conn.setIds (bidiStream maxStreamId) { conn.ids (bidiStream maxStreamId) with
      maxLocalStreamId := max (conn.ids (bidiStream maxStreamId)).maxLocalStreamId maxStreamId })
      (.extendMaxStreamId maxStreamId) with hc | hc
  · rw [hc] at h
    obtain ⟨-, rfl⟩ := Prod.mk.inj h
    exact hraised.of_same {} ⟨rfl, fun _ => rfl, fun _ => rfl⟩ fun _ _ => rfl
  · rw [hc] at h
    obtain ⟨rfl, rfl⟩ := Prod.mk.inj h
    exact absurd ⟨_, rfl, rfl⟩ hr

/-! ## Steps -/

variable {lens : Nat → Nat} {ops : List Op} {op : Op}

theorem Backed.within {fr : MaxStreamDataFrame} (h : Backed lens peer (.maxStreamData fr))
    (hid : fr.streamId ≠ 0) : Within peer fr.streamId fr.maxStreamData :=
  ⟨h.2 hid, fun hun => absurd h.1 hun⟩

/-- A step that reads only what is true of the peer takes no credit that the peer has not given. -/
theorem Step.granted (hreach : Reachable conn) (hstep : Step ops conn op conn')
    (hread : ∀ fr ∈ op.readFrames, Backed lens peer fr) (hoffered : op.offered peer.localSettings)
    (hg : Generous peer) (hgr : Granted peer conn) : Granted peer conn' := by
  have hused := hreach.strmsUsed
  have hch := Step.changes hreach.wellFormed hstep
  have hother : .raise ∉ op.kinds → .limits ∉ op.kinds → Granted peer conn' := by
    intro hraise hlim
    exact hch.granted (List.not_mem_cons_of_ne_of_not_mem (by decide) hraise)
      (List.not_mem_cons_of_ne_of_not_mem (by decide) hlim) hused.ids hg hgr
  obtain ⟨rv, hrun, hsurvives⟩ := hstep
  have hrv := not_fatal_of_survives hsurvives
  cases op with
  | recvFrame longForm fr =>
    have hback := hread fr List.mem_cons_self
    cases fr with
    | maxData n =>
      obtain ⟨-, rfl⟩ := Prod.mk.inj hrun
      exact hgr.raiseData hback
    | maxStreamData fr =>
      exact connRecvMaxStreamData_granted hused hgr hg (fun hid => hback.within hid) hrun
    | maxStreamId n => exact connRecvMaxStreamId_granted hgr hback hrun hrv
    | _ =>
      exact hother (by simp [Op.kinds, Frame.recvKinds, ackKinds, streamKinds])
        (by simp [Op.kinds, Frame.recvKinds, ackKinds, streamKinds])
  | recvDelayedHandshakeFrame type fr =>
    refine hother ?_ ?_ <;>
    cases fr <;> simp [Op.kinds, Frame.recvDelayedKinds, ackKinds, streamKinds]
  | recvHandshakeFrame type failed fr =>
    refine hother ?_ ?_ <;> cases fr <;> simp [Op.kinds, Frame.recvHandshakeKinds, ackKinds]
  | setRemoteTransportParams exttype params =>
    exact setRemoteTransportParams_granted hused.keyed hgr hg hoffered hrun
  | setEarlyRemoteTransportParams params =>
    have hrun : ngtcp2ConnSetEarlyRemoteTransportParams conn params = (rv, conn') := hrun
    unfold ngtcp2ConnSetEarlyRemoteTransportParams at hrun
    split at hrun
    · obtain ⟨-, rfl⟩ := Prod.mk.inj hrun
      exact hgr
    · obtain ⟨-, rfl⟩ := Prod.mk.inj hrun
      exact hgr.params hg hoffered
  | _ =>
    exact hother (by simp [Op.kinds, shutdownKinds, streamTxKinds, writeKinds, resendKinds,
      closeKinds, retryKinds]) (by simp [Op.kinds, shutdownKinds, streamTxKinds, writeKinds,
      resendKinds, closeKinds, retryKinds])

/-- IDs of the peer that come into use are such as the peer uses. -/
theorem Step.heard_peer (hreach : Reachable conn) (hstep : Step ops conn op conn')
    (hread : ∀ fr ∈ op.readFrames, Backed lens peer fr)
    (hheard : connLocalStream conn id = false → Used conn id → Used peer id)
    (hremote : connLocalStream conn' id = false) (hused : Used conn' id) : Used peer id := by
  rw [connLocalStream_congr (hstep.server hreach)] at hremote
  rcases hstep.usedRemote hreach hremote hused with hu | hnames
  · exact hheard hremote hu
  have hframe : ∀ fr : Frame, Backed lens peer fr → fr.names id → Used peer id := by
    intro fr hback hn
    cases fr with
    | stream fr | stopSending fr =>
      obtain rfl := hn
      exact hback
    | rstStream fr | maxStreamData fr =>
      obtain rfl := hn
      exact hback.1
    | _ => cases hn
  cases op with
  | recvFrame longForm fr | recvDelayedHandshakeFrame type fr | recvHandshakeFrame type failed fr =>
    exact hframe fr (hread fr List.mem_cons_self) hnames
  | _ => cases hnames

/-! ## Bytes sent -/

/-- The connection is charged for what was sent of each stream but stream 0. -/
def SentTotal (lens : Nat → Nat) (conn : Conn) : Prop :=
  ∃ l, conn.txOffset = Tally.total l ∧ Tally.highest l 0 = 0 ∧
    ∀ id, id ≠ 0 → Tally.highest l id = lens id

theorem Change.txOffset (h : Change H k conn conn') (hk : k ≠ .tx) :
    conn'.txOffset = conn.txOffset := by
  cases h with
  | idle same => exact same.txOffset
  | @openRemote _ streamId =>
    generalize hb : bidiStream streamId = b
    unfold Ngtcp2.openRemote
    rw [hb]
    cases b <;> rfl
  | @openLocal _ _ bidi => cases bidi <;> rfl
  | @consume _ streamId =>
    generalize hb : bidiStream streamId = b
    unfold consumeId
    rw [hb]
    cases b <;> rfl
  | @close _ _ _ _ _ bidi => cases bidi <;> rfl
  | raiseIds _ bidi => cases bidi <;> rfl
  | tx => exact absurd rfl hk
  | _ => rfl

theorem SentTotal.of_same (h : SentTotal lens conn) (hch : Changes H K conn conn')
    (hK : .tx ∉ K) : SentTotal lens conn' := by
  have htx : conn'.txOffset = conn.txOffset :=
    hch.keeps (fun c => c.txOffset = conn.txOffset)
      (fun k hk _ _ hP hc => (hc.txOffset fun heq => hK (heq ▸ hk)).trans hP) rfl
  obtain ⟨l, htotal, hzero, hlens⟩ := h
  exact ⟨l, htx.trans htotal, hzero, hlens⟩

theorem SentTotal.congr {lens' : Nat → Nat} (h : SentTotal lens conn)
    (heq : ∀ id, id ≠ 0 → lens' id = lens id) : SentTotal lens' conn := by
  obtain ⟨l, htotal, hzero, hlens⟩ := h
  exact ⟨l, htotal, hzero, fun id hid => (hlens id hid).trans (heq id hid).symm⟩

/-- More bytes of a stream. -/
theorem SentTotal.send {streamId : Nat} {lens' : Nat → Nat} (h : SentTotal lens conn)
    (hid : streamId ≠ 0) (htx : conn'.txOffset = conn.txOffset + n)
    (hlens : ∀ id, id ≠ 0 → lens' id = lens id + if streamId = id then n else 0) :
    SentTotal lens' conn' := by
  obtain ⟨l, htotal, hzero, hl⟩ := h
  refine ⟨l ++ [(streamId, lens streamId + n)], ?_, ?_, fun id hid' => ?_⟩
  · rw [Tally.total_snoc, hl streamId hid, Nat.add_sub_cancel_left, htx, htotal]
  · rw [Tally.highest_snoc, if_neg hid, hzero]
  · rw [Tally.highest_snoc, hlens id hid', hl id hid']
    split
    · next heq =>
      subst heq
      exact Nat.max_eq_right (Nat.le_add_right _ _)
    · rfl

/-- What a step takes over of the streams, and what it is charged for. -/
theorem Step.sentTotal (hreach : Reachable conn) (hstep : Step ops conn op conn')
    (h : SentTotal lens conn) :
    SentTotal (fun id => lens id + (op.written id conn).length) conn' := by
  have hch := Step.changes hreach.wellFormed hstep
  by_cases hwrite : ∃ destlen streamId fin data ts, op = .writeStream destlen streamId fin data ts
  · obtain ⟨destlen, streamId, fin, data, ts, rfl⟩ := hwrite
    obtain ⟨rv, hrun, hsurvives⟩ := hstep
    have hrv := not_fatal_of_survives hsurvives
    obtain ⟨x, hx, hve⟩ := void_cases hrun
    have hlen : writtenLen conn destlen streamId fin data ts = x.toOption.map Prod.snd :=
      congrArg (fun r => (Prod.fst r).toOption.map Prod.snd) hx
    rcases ngtcp2ConnWriteStream_cases hx with ⟨e, rfl, hf⟩ | ⟨e, rfl, hq⟩ |
      ⟨pkt, n, strm, fr, conn₁, rfl, hsent, -, hlogs, hconn⟩
    · exact absurd ⟨e, (hve e).mpr rfl, hf⟩ hrv
    · have hquiet : Changes (held conn) [.idle, .timer] conn conn' :=
        hq.changes (by simp) (by simp) fun hne => absurd rfl hne
      refine (h.of_same hquiet (by simp)).congr fun id _ => ?_
      rw [Op.written, hlen]
      show lens id + (if streamId = id then data.take 0 else []).length = lens id
      split <;> rfl
    have hdata : fr.data.length = n := by
      rw [hsent.fr_eq]
      exact List.length_take_of_le hsent.le
    have hfrId : fr.streamId = streamId := by rw [hsent.fr_eq]
    have hwritten : ∀ id, ((Op.writeStream destlen streamId fin data ts).written id conn).length =
        if streamId = id then n else 0 := by
      intro id
      rw [Op.written, hlen]
      show (if streamId = id then data.take n else []).length = _
      split
      · exact List.length_take_of_le hsent.le
      · rfl
    have htx : conn'.txOffset = if streamId = 0 then conn.txOffset else conn.txOffset + n := by
      have htrack := (trackStreamPkt_limits conn₁ pkt.hd fr ts pkt.len).2.1
      have hsame : conn₁.txOffset = conn.txOffset := by
        obtain ⟨evs, acktr, nextAckExpiry, immediateAck, -, -, rfl⟩ := hlogs
        rfl
      rw [hconn, ← hfrId, ← hdata, ← hsame, ← htrack]
      rfl
    by_cases hzero : streamId = 0
    · rw [if_pos hzero] at htx
      obtain ⟨l, htotal, hfirst, hlens⟩ := h
      refine ⟨l, htx.trans htotal, hfirst, fun id hid => ?_⟩
      dsimp only
      rw [hwritten, if_neg fun heq => hid (heq.symm.trans hzero)]
      exact hlens id hid
    · rw [if_neg hzero] at htx
      refine h.send hzero htx fun id _ => ?_
      rw [hwritten]
  · have hother : ∀ id, op.written id conn = [] := fun id =>
      Op.written_other (fun _ _ _ _ _ heq => hwrite ⟨_, _, _, _, _, heq⟩) id conn
    refine (h.of_same hch ?_).congr fun id _ => by rw [hother]; rfl
    refine List.not_mem_cons_of_ne_of_not_mem (by decide) ?_
    cases op with
    | writeStream destlen streamId fin data ts => exact absurd ⟨_, _, _, _, _, rfl⟩ hwrite
    | recvFrame longForm fr => cases fr <;> simp [Op.kinds, Frame.recvKinds, ackKinds, streamKinds]
    | recvDelayedHandshakeFrame type fr =>
      cases fr <;> simp [Op.kinds, Frame.recvDelayedKinds, ackKinds, streamKinds]
    | recvHandshakeFrame type failed fr =>
      cases fr <;> simp [Op.kinds, Frame.recvHandshakeKinds, ackKinds]
    | _ => simp [Op.kinds, shutdownKinds, writeKinds, resendKinds, closeKinds, retryKinds]

/-- What a step takes over of a stream is within the limit of the stream. -/
theorem Step.written_le (hstep : Step ops conn op conn') (hlim : WithinLimits conn) (hid : id ≠ 0)
    (hpos : op.written id conn ≠ []) :
    ∃ strm, conn.strms id = some strm ∧
      strm.txOffset + (op.written id conn).length ≤ strm.maxTxOffset := by
  cases op with
  | writeStream destlen streamId fin data ts =>
    obtain ⟨rv, hrun, hsurvives⟩ := hstep
    obtain ⟨x, hx, -⟩ := void_cases hrun
    have hlen : writtenLen conn destlen streamId fin data ts = x.toOption.map Prod.snd :=
      congrArg (fun r => (Prod.fst r).toOption.map Prod.snd) hx
    rw [Op.written, hlen] at hpos
    rw [Op.written, hlen]
    by_cases heq : streamId = id
    · subst heq
      rw [if_pos rfl] at hpos ⊢
      cases x with
      | error e => exact absurd rfl hpos
      | ok res =>
        obtain ⟨pkt, n⟩ := res
        obtain ⟨strm, find, hle, -⟩ := ngtcp2ConnWriteStream_limits hlim hid hx
        refine ⟨strm, find, Nat.le_trans (Nat.add_le_add_left ?_ _) hle⟩
        exact List.length_take_le _ _
    · rw [if_neg heq] at hpos
      exact absurd rfl hpos
  | _ => exact absurd rfl hpos

/-! ## Runs -/

/-- An endpoint that has kept to what the peer grants. -/
structure Bounded (peer conn₀ : Conn) (ops : List Op) (conn : Conn) : Prop where
  reach : Reachable conn
  sources : ∀ id, id ≠ 0 → SourcesAfter conn₀ id ops conn
  within : WithinLimits conn
  granted : Granted peer conn
  heard : ∀ id, id ≤ maxVarint → connLocalStream conn id = false → Used conn id → Used peer id
  lens : ∀ id, id ≠ 0 → Within peer id (writtenLens conn₀ ops id)
  total : SentTotal (writtenLens conn₀ ops) conn

variable {conn₀ : Conn} {rest : List Op}

theorem Bounded.step (h : Bounded peer conn₀ ops conn) (hstep : Step rest conn op conn')
    (hg : Generous peer) (hkeeps : op.keepsLimits conn = true)
    (hoffered : op.offered peer.localSettings)
    (hread : ∀ fr ∈ op.readFrames, Backed lens peer fr) :
    Bounded peer conn₀ (ops ++ [op]) conn' := by
  have hlens := (h.sources 1 Nat.one_ne_zero).lens_snoc op
  constructor
  · exact h.reach.step hstep
  · exact fun id hid => (h.sources id hid).step hid hstep
  · exact (hstep.limits h.reach.wellFormed hkeeps h.within).1
  · exact hstep.granted h.reach hread hoffered hg h.granted
  · exact fun id hle => hstep.heard_peer h.reach hread (h.heard id hle)
  · intro id hid
    rw [hlens]
    by_cases hnil : op.written id conn = []
    · rw [hnil]
      exact h.lens id hid
    · obtain ⟨strm, find, hle⟩ := hstep.written_le h.within hid hnil
      have hoff : strm.txOffset = writtenLens conn₀ ops id :=
        ((h.sources id hid).sources.live strm find).1
      rw [hoff] at hle
      exact (h.granted.strms id strm hid find).mono hle
  · exact (hstep.sentTotal h.reach h.total).congr fun id _ => hlens id

theorem Initial.granted (init : Initial conn) : Granted peer conn := by
  refine ⟨?_, ?_, fun bidi => ?_, fun id strm hid hfind => ?_, fun id hlocal hused hid => ?_⟩
  · cases init <;> exact Nat.zero_le _
  · cases init <;> exact Nat.zero_le _
  · cases init <;> cases bidi <;> exact Nat.zero_le _
  · have hnone : conn.strms id = none := by cases init <;> exact if_neg hid
    cases hnone.symm.trans hfind
  · unfold Used at hused
    rw [if_pos hlocal] at hused
    unfold connLocalStream at hlocal
    unfold bidiStream at hused
    exfalso
    cases init with
    | client =>
      have hodd : id % 2 = 0 := by simpa [ngtcp2ConnClientNew, connNew] using hlocal
      cases hb : id / 2 % 2 == 0 with
      | true =>
        have hlt : id < 4 := by simpa [hb, ngtcp2ConnClientNew, Conn.ids] using hused
        have hb : id / 2 % 2 = 0 := by simpa using hb
        omega
      | false =>
        have hlt : id < 2 := by simpa [hb, ngtcp2ConnClientNew, Conn.ids] using hused
        omega
    | server =>
      have hodd : id % 2 = 1 := by simpa [ngtcp2ConnServerNew, connNew] using hlocal
      cases hb : id / 2 % 2 == 0 with
      | true =>
        have hlt : id < 1 := by simpa [hb, ngtcp2ConnServerNew, Conn.ids] using hused
        omega
      | false =>
        have hlt : id < 3 := by simpa [hb, ngtcp2ConnServerNew, Conn.ids] using hused
        have hb : id / 2 % 2 ≠ 0 := by simpa using hb
        omega

/-- At first, stream 0 is the only one of the peer that is in use. -/
theorem Initial.heard (init : Initial conn) (hle : id ≤ maxVarint)
    (hremote : connLocalStream conn id = false) (hused : Used conn id) : id = 0 := by
  unfold Used at hused
  rw [hremote, if_neg Bool.false_ne_true] at hused
  have hgap : ∀ start, ¬InGap [⟨start, uint64Max⟩] (idFromStreamId id) → id / 4 < start := by
    intro start hnot
    rw [inGap_cons, mem_mk] at hnot
    refine Nat.lt_of_not_le fun hge => hnot (.inl ⟨hge, ?_⟩)
    unfold maxVarint at hle
    unfold idFromStreamId uint64Max
    omega
  have hgaps : ∀ bidi, (conn.ids bidi).remoteIdtr.gap = [⟨0, uint64Max⟩] ∨
      (conn.server = true ∧ bidi = true ∧ (conn.ids bidi).remoteIdtr.gap = [⟨1, uint64Max⟩]) := by
    intro bidi
    cases init <;> cases bidi
    · exact .inl rfl
    · exact .inl rfl
    · exact .inl rfl
    · exact .inr ⟨rfl, rfl, rfl⟩
  rcases hgaps (bidiStream id) with heq | ⟨hserver, hbidi, heq⟩
  · rw [heq] at hused
    exact absurd (hgap 0 hused) (Nat.not_lt_zero _)
  · rw [heq] at hused
    have hlt := hgap 1 hused
    unfold connLocalStream at hremote
    rw [hserver, if_pos rfl] at hremote
    unfold bidiStream at hbidi
    simp only [bne_eq_false_iff_eq, beq_iff_eq] at hremote hbidi
    omega

theorem Initial.bounded (init : Initial conn) (hzero : Used peer 0) :
    Bounded peer conn [] conn := by
  refine ⟨init.reachable, fun id hid => ⟨init.reachable, rfl, init.sources hid⟩, init.withinLimits,
    init.granted, fun id hle hremote hused => ?_, fun id _ => ?_, ?_⟩
  · rw [init.heard hle hremote hused]
    exact hzero
  · exact ⟨fun _ _ => Nat.zero_le _, fun _ => Nat.zero_le _⟩
  · refine ⟨[], ?_, rfl, fun _ _ => rfl⟩
    cases init <;> rfl

/-! ## Runs of both endpoints -/

/-- What the two applications keep to: frames are such as can be read from a packet and are
accepted, and transport parameters lower no limit and offer what the peer's settings say. -/
structure Fair (net₀ : Network.Net Conn Frame) (side : Bool) (conn : Conn) (op : Op) : Prop where
  proper : op.Proper
  accepted : op.accepted conn
  keepsLimits : op.keepsLimits conn = true
  offered : op.offered (net₀.state !side).localSettings

/-- Two endpoints that keep to it. -/
abbrev FairExchange (net₀ : Network.Net Conn Frame) :
    List (Bool × Op) → Network.Net Conn Frame → Prop :=
  Network.Run (fun side => endpoint (Fair net₀ side)) net₀

variable {net₀ net : Network.Net Conn Frame} {ls : List (Bool × Op)}

theorem fairExchange_backed (hrun : FairExchange net₀ ls net) (hstart : Connected net₀)
    (side : Bool) (hkinds : LimitKinds (net₀.state side)) :
    Truthful (net₀.state side) (Network.own side ls) (net.state side) ∧
      ∀ fr ∈ net.sent side,
        Backed (writtenLens (net₀.state side) (Network.own side ls)) (net.state side) fr :=
  sent_backed (fun _ _ _ h => ⟨h.proper, h.accepted⟩) hrun hstart side hkinds

theorem fairExchange_generous (hrun : FairExchange net₀ ls net) (hstart : Connected net₀)
    (side : Bool) : Generous (net.state side) ∧
      (net.state side).localSettings = (net₀.state side).localSettings := by
  have init := hstart.initial side
  have hown := Network.run_own hrun side
  refine (hown.invariant (fun ops c => AcceptedRun (net₀.state side) ops c ∧ Generous c ∧
    c.localSettings = (net₀.state side).localSettings) ⟨.nil, init.generous, rfl⟩ ?_).2
  rintro ops c op c' ⟨haccepted, hg, hset⟩ ⟨⟨hstep, hfair⟩, -⟩
  have hcharged := init.chargedRun haccepted
  have hahead : Ahead c := fun id strm hid hfind =>
    (hcharged.charged.live id strm hid hfind).limits.max_le
  exact ⟨haccepted.snoc ⟨hstep, hfair.proper, hfair.accepted⟩,
    hstep.generous hcharged.reach hahead hg, (hstep.localSettings hcharged.reach).trans hset⟩

/-- Each endpoint keeps to what the other one grants. -/
theorem fairExchange_bounded (hrun : FairExchange net₀ ls net) (hstart : Connected net₀)
    (side : Bool) (hkinds : LimitKinds (net₀.state !side)) :
    Bounded (net.state !side) (net₀.state side) (Network.own side ls) (net.state side) := by
  obtain ⟨htruthful, hback⟩ := fairExchange_backed hrun hstart (!side) hkinds
  obtain ⟨hg, hset⟩ := fairExchange_generous hrun hstart (!side)
  have hpeer := ((hstart.initial (!side)).chargedRun htruthful.run).reach
  have hown := Network.run_own hrun side
  refine hown.invariant (Bounded (net.state !side) (net₀.state side))
    ((hstart.initial side).bounded hpeer.strmsUsed.zero) ?_
  rintro ops c op c' hb ⟨⟨hstep, hfair⟩, hreads⟩
  exact hb.step hstep hg hfair.keepsLimits (hset ▸ hfair.offered)
    fun fr hfr => hback fr (hreads fr hfr)

end

end Ngtcp2
