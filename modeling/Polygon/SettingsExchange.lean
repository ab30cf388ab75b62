import Polygon.TransportParamsRoundTrip

/-!
# Settings that reach the peer

The way of the local settings into the peer's remote settings: copied into transport
parameters, encoded, decoded on the other side and copied again. Both copies leave
out seven fields.
-/
namespace Ngtcp2

open Checked

/-- `ngtcp2_settings`. -/
structure Ngtcp2Settings where
  maxStreamData : UInt32
  maxData : UInt32
  maxStreamIdBidi : UInt32
  maxStreamIdUni : UInt32
  idleTimeout : UInt16
  omitConnectionId : UInt8
  maxPacketSize : UInt16
  statelessResetToken : ResetToken
  ackDelayExponent : UInt8
  serverUnicastIp : UInt32
  serverUnicastTtl : UInt32
  testMetadata : UInt32
  cpuSensitive : UInt32
  throughputSensitive : UInt32
  rttSensitive : UInt32
  clientIp : UInt64
  clientProcess : UInt64
  timeStamp : UInt64
  deriving DecidableEq

/-- `settings_copy_from_transport_params` into settings that hold `dest`. -/
def ngtcp2SettingsCopyFromTransportParams (dest : Ngtcp2Settings) (src : Ngtcp2TransportParams) :
    Ngtcp2Settings :=
  { dest with
    maxStreamData := src.initialMaxStreamData
    maxData := src.initialMaxData
    maxStreamIdBidi := src.initialMaxStreamIdBidi
    maxStreamIdUni := src.initialMaxStreamIdUni
    idleTimeout := src.idleTimeout
    omitConnectionId := src.omitConnectionId
    maxPacketSize := src.maxPacketSize
    statelessResetToken := src.statelessResetToken
    serverUnicastIp := src.serverUnicastIp
    serverUnicastTtl := src.serverUnicastTtl
    ackDelayExponent := src.ackDelayExponent }

/-- `transport_params_copy_from_settings` into parameters that hold `dest`. -/
def ngtcp2TransportParamsCopyFromSettings (dest : Ngtcp2TransportParams) (src : Ngtcp2Settings) :
    Ngtcp2TransportParams :=
  { dest with
    initialMaxStreamData := src.maxStreamData
    initialMaxData := src.maxData
    initialMaxStreamIdBidi := src.maxStreamIdBidi
    initialMaxStreamIdUni := src.maxStreamIdUni
    idleTimeout := src.idleTimeout
    omitConnectionId := src.omitConnectionId
    maxPacketSize := src.maxPacketSize
    statelessResetToken := src.statelessResetToken
    serverUnicastIp := src.serverUnicastIp
    serverUnicastTtl := src.serverUnicastTtl
    ackDelayExponent := src.ackDelayExponent }

/-- What a connection needs to exchange transport parameters. -/
structure ParamsEnd where
  server : Bool
  version : UInt32
  localSettings : Ngtcp2Settings
  remoteSettings : Ngtcp2Settings

/-- `ngtcp2_conn_get_local_transport_params` into parameters that hold `params`. -/
def getLocalTransportParams (e : ParamsEnd) (params : Ngtcp2TransportParams)
    (exttype : TransportParamsType) :
    Except Err Ngtcp2TransportParams :=
  match exttype with
  | .clientHello =>
    if e.server then .error .invalidArgument
    else .ok (ngtcp2TransportParamsCopyFromSettings { params with version := e.version } e.localSettings)
  | .encryptedExtensions =>
    if !e.server then .error .invalidArgument
    else .ok (ngtcp2TransportParamsCopyFromSettings
      { params with version := e.version, supportedVersions := ⟨[e.version], by simp⟩ } e.localSettings)
  | .newSessionTicket =>
    if !e.server then .error .invalidArgument
    else .ok (ngtcp2TransportParamsCopyFromSettings params e.localSettings)

/-- The checks of `ngtcp2_conn_set_remote_transport_params`, with those of
`conn_client_validate_transport_params`. -/
def checkRemoteParams (e : ParamsEnd) (exttype : TransportParamsType)
    (params : Ngtcp2TransportParams) : Option Err :=
  match exttype with
  | .clientHello => if !e.server then some .invalidArgument else none
  | .encryptedExtensions =>
    if e.server then some .invalidArgument
    else if params.version != e.version then some .versionNegotiation
    else if params.supportedVersions.1.contains e.version then none
    else some .versionNegotiation
  | .newSessionTicket => if e.server then some .invalidArgument else none

/-- `ngtcp2_conn_set_remote_transport_params`, as far as the settings go. -/
def setRemoteTransportParams (e : ParamsEnd) (exttype : TransportParamsType)
    (params : Ngtcp2TransportParams) :
    Except Err ParamsEnd :=
  match checkRemoteParams e exttype params with
  | some err => .error err
  | none =>
    .ok { e with remoteSettings := ngtcp2SettingsCopyFromTransportParams e.remoteSettings params }

/-! ## The connection -/

/-- The settings that the connection uses. -/
def Ngtcp2Settings.used (settings : Ngtcp2Settings) : Settings :=
  { maxStreamData := settings.maxStreamData, maxData := settings.maxData, maxStreamIdBidi := settings.maxStreamIdBidi
    maxStreamIdUni := settings.maxStreamIdUni, ackDelayExponent := settings.ackDelayExponent.toNat }

/-- The parameters that the connection uses. -/
def Ngtcp2TransportParams.used (params : Ngtcp2TransportParams) : TransportParams :=
  { initialMaxStreamData := params.initialMaxStreamData, initialMaxData := params.initialMaxData
    initialMaxStreamIdBidi := params.initialMaxStreamIdBidi, initialMaxStreamIdUni :=
      params.initialMaxStreamIdUni
    ackDelayExponent := params.ackDelayExponent.toNat, negotiatedVersion := params.version.toNat
    supportedVersions := params.supportedVersions.1.map UInt32.toNat }

/-- The connection has these settings. -/
structure HasSettings (conn : Conn) (e : ParamsEnd) : Prop where
  server : conn.server = e.server
  version : conn.version = e.version.toNat
  localSettings : conn.localSettings = e.localSettings.used
  remoteSettings : conn.remoteSettings = e.remoteSettings.used

theorem checkRemoteParams_used {conn : Conn} {e : ParamsEnd} (h : HasSettings conn e)
    (exttype : TransportParamsType)
    (params : Ngtcp2TransportParams) :
    checkRemoteTransportParams conn exttype params.used = checkRemoteParams e exttype params := by
  unfold checkRemoteTransportParams checkRemoteParams
  rw [h.server]
  cases exttype with
  | clientHello => cases e.server <;> rfl
  | encryptedExtensions =>
    have hversion : (params.used.negotiatedVersion == conn.version) =
      (params.version == e.version) := by
      rw [h.version, Bool.eq_iff_iff, beq_iff_eq, beq_iff_eq]
      exact UInt32.toNat_inj
    have hversions : params.used.supportedVersions.contains conn.version =
      params.supportedVersions.1.contains e.version := by
      rw [h.version, Bool.eq_iff_iff, List.contains_iff_mem, List.contains_iff_mem]
      exact List.mem_map_of_injective fun _ _ => UInt32.toNat_inj.mp
    unfold connClientValidateTransportParams
    rw [hversion, hversions]
    cases e.server with
    | true => rfl
    | false =>
      cases hv : params.version == e.version with
      | true =>
        have hne : (params.version != e.version) = false := by
          rw [bne, hv]
          rfl
        rw [hne]
        rfl
      | false =>
        have hne : (params.version != e.version) = true := by
          rw [bne, hv]
          rfl
        rw [hne]
        rfl
  | newSessionTicket => rfl

/-- The connection sets its remote settings as its part here does. -/
theorem setRemoteTransportParams_conn {conn conn' : Conn} {e e' : ParamsEnd}
    {exttype : TransportParamsType}
    {params : Ngtcp2TransportParams} (h : HasSettings conn e)
    (hset : setRemoteTransportParams e exttype params = .ok e')
    (hconn : ngtcp2ConnSetRemoteTransportParams conn exttype params.used = (.ok (), conn')) :
    HasSettings conn' e' := by
  unfold ngtcp2ConnSetRemoteTransportParams at hconn
  unfold setRemoteTransportParams at hset
  rw [checkRemoteParams_used h] at hconn
  cases hcheck : checkRemoteParams e exttype params with
  | some err =>
    rw [hcheck] at hset
    cases hset
  | none =>
    rw [hcheck] at hset hconn
    obtain rfl := Except.ok.inj hset
    dsimp only at hconn
    split at hconn
    · cases hconn
    · obtain ⟨-, rfl⟩ := Prod.mk.inj hconn
      exact ⟨h.server, h.version, h.localSettings, rfl⟩

/-! ## The seven fields -/

/-- The fields that neither copy knows. -/
structure AddedFields where
  testMetadata : UInt32
  cpuSensitive : UInt32
  throughputSensitive : UInt32
  rttSensitive : UInt32
  clientIp : UInt64
  clientProcess : UInt64
  timeStamp : UInt64
  deriving DecidableEq

def Ngtcp2Settings.added (settings : Ngtcp2Settings) : AddedFields :=
  { testMetadata := settings.testMetadata, cpuSensitive := settings.cpuSensitive
    throughputSensitive := settings.throughputSensitive, rttSensitive := settings.rttSensitive
    clientIp := settings.clientIp, clientProcess := settings.clientProcess, timeStamp :=
      settings.timeStamp }

def Ngtcp2TransportParams.added (params : Ngtcp2TransportParams) : AddedFields :=
  { testMetadata := params.testMetadata, cpuSensitive := params.cpuSensitive
    throughputSensitive := params.throughputSensitive, rttSensitive := params.rttSensitive
    clientIp := params.clientIp, clientProcess := params.clientProcess, timeStamp :=
      params.timeStamp }

/-- The parameters that both copies know. -/
def copiedIds : List TransportParamId :=
  [.initialMaxStreamData, .initialMaxData, .initialMaxStreamIdBidi, .initialMaxStreamIdUni,
    .idleTimeout,
   .omitConnectionId, .maxPacketSize, .statelessResetToken, .ackDelayExponent, .serverUnicastIp,
     .serverUnicastTtl]

section
variable {e peer : ParamsEnd} {exttype : TransportParamsType} {prior prior' peerPrior params params' back : Ngtcp2TransportParams}
variable {settings : Ngtcp2Settings}

/-- The seven parameters determine the seven fields. -/
theorem added_eq_iff : params.added = params'.added ↔
    ∀ id, id ∉ copiedIds → id.field params = id.field params' := by
  constructor
  · intro h id hid
    have h := AddedFields.mk.inj h
    cases id with
    | testMetadata => exact congrArg UInt32.toNat h.1
    | cpuSensitive => exact congrArg UInt32.toNat h.2.1
    | throughputSensitive => exact congrArg UInt32.toNat h.2.2.1
    | rttSensitive => exact congrArg UInt32.toNat h.2.2.2.1
    | clientIp => exact congrArg UInt64.toNat h.2.2.2.2.1
    | clientProcess => exact congrArg UInt64.toNat h.2.2.2.2.2.1
    | timeStamp => exact congrArg UInt64.toNat h.2.2.2.2.2.2
    | _ => exact absurd (by decide) hid
  · intro h
    unfold Ngtcp2TransportParams.added
    congr 1
    · exact UInt32.toNat_inj.mp (h .testMetadata (by decide))
    · exact UInt32.toNat_inj.mp (h .cpuSensitive (by decide))
    · exact UInt32.toNat_inj.mp (h .throughputSensitive (by decide))
    · exact UInt32.toNat_inj.mp (h .rttSensitive (by decide))
    · exact UInt64.toNat_inj.mp (h .clientIp (by decide))
    · exact UInt64.toNat_inj.mp (h .clientProcess (by decide))
    · exact UInt64.toNat_inj.mp (h .timeStamp (by decide))

/-- The settings as parameters, in the fields that are copied. -/
def settingsParams (settings : Ngtcp2Settings) : Ngtcp2TransportParams :=
  ngtcp2TransportParamsCopyFromSettings plainParams settings

theorem copied_field {id : TransportParamId} (hid : id ∈ copiedIds) (dest : Ngtcp2TransportParams) :
    id.field (ngtcp2TransportParamsCopyFromSettings dest settings) =
    id.field (settingsParams settings) := by
  cases id <;> first | rfl | exact absurd hid (by decide)

/-- Settings copied from parameters are equal to other settings exactly in the copied fields and the seven others. -/
theorem settings_copy_eq_iff {dest : Ngtcp2Settings} :
    ngtcp2SettingsCopyFromTransportParams dest back = settings ↔
      (∀ id ∈ copiedIds, id.field back = id.field (settingsParams settings)) ∧
      dest.added = settings.added := by
  constructor
  · rintro rfl
    refine ⟨fun id hid => ?_, rfl⟩
    cases id <;> first | rfl | exact absurd hid (by decide)
  · rintro ⟨h, hadded⟩
    have hadded := AddedFields.mk.inj hadded
    have htoken : back.statelessResetToken = settings.statelessResetToken :=
      Subtype.ext (BigEndian.get_inj
      (back.statelessResetToken.2.trans settings.statelessResetToken.2.symm)
      (h .statelessResetToken (by decide)))
    unfold ngtcp2SettingsCopyFromTransportParams
    cases settings
    congr 1
    · exact UInt32.toNat_inj.mp (h .initialMaxStreamData (by decide))
    · exact UInt32.toNat_inj.mp (h .initialMaxData (by decide))
    · exact UInt32.toNat_inj.mp (h .initialMaxStreamIdBidi (by decide))
    · exact UInt32.toNat_inj.mp (h .initialMaxStreamIdUni (by decide))
    · exact UInt16.toNat_inj.mp (h .idleTimeout (by decide))
    · exact UInt8.toNat_inj.mp (h .omitConnectionId (by decide))
    · exact UInt16.toNat_inj.mp (h .maxPacketSize (by decide))
    · exact UInt8.toNat_inj.mp (h .ackDelayExponent (by decide))
    · exact UInt32.toNat_inj.mp (h .serverUnicastIp (by decide))
    · exact UInt32.toNat_inj.mp (h .serverUnicastTtl (by decide))
    · exact hadded.1
    · exact hadded.2.1
    · exact hadded.2.2.1
    · exact hadded.2.2.2.1
    · exact hadded.2.2.2.2.1
    · exact hadded.2.2.2.2.2.1
    · exact hadded.2.2.2.2.2.2

/-! ## Both ends -/

/-- What is handed to the encoder. -/
theorem getLocalTransportParams_ok (h : getLocalTransportParams e prior exttype = .ok params) :
    (e.server = true ↔ exttype ≠ .clientHello) ∧
    ∃ dest, params = ngtcp2TransportParamsCopyFromSettings dest e.localSettings ∧
      dest.added = prior.added ∧ (exttype ≠ .newSessionTicket → dest.version = e.version) ∧
        (exttype = .encryptedExtensions → dest.supportedVersions.1 = [e.version]) := by
  unfold getLocalTransportParams at h
  cases exttype with
  | clientHello =>
    cases hserver : e.server with
    | true =>
      rw [hserver] at h
      cases h
    | false =>
      rw [hserver] at h
      obtain rfl := Except.ok.inj h
      refine ⟨by simp, _, rfl, rfl, fun _ => rfl, fun hc => ?_⟩
      cases hc
  | encryptedExtensions =>
    cases hserver : e.server with
    | false =>
      rw [hserver] at h
      cases h
    | true =>
      rw [hserver] at h
      obtain rfl := Except.ok.inj h
      exact ⟨by simp, _, rfl, rfl, fun _ => rfl, fun _ => rfl⟩
  | newSessionTicket =>
    cases hserver : e.server with
    | false =>
      rw [hserver] at h
      cases h
    | true =>
      rw [hserver] at h
      obtain rfl := Except.ok.inj h
      refine ⟨by simp, _, rfl, rfl, fun hc => absurd rfl hc, fun hc => ?_⟩
      cases hc

/-- The other end takes the parameters over. -/
theorem setRemoteTransportParams_ok (hlegal : peer.server = true ↔ exttype = .clientHello)
    (hversion : exttype = .encryptedExtensions → back.version = peer.version)
    (hversions : exttype = .encryptedExtensions → back.supportedVersions.1 = [peer.version]) :
    setRemoteTransportParams peer exttype back =
      .ok { peer with remoteSettings := ngtcp2SettingsCopyFromTransportParams peer.remoteSettings back } := by
  have hcheck : checkRemoteParams peer exttype back = none := by
    unfold checkRemoteParams
    cases exttype with
    | clientHello =>
      rw [hlegal.mpr rfl]
      rfl
    | encryptedExtensions =>
      have hclient : peer.server = false := Bool.eq_false_iff.mpr fun hc => by cases hlegal.mp hc
      rw [hclient, hversion rfl, hversions rfl]
      simp
    | newSessionTicket =>
      have hclient : peer.server = false := Bool.eq_false_iff.mpr fun hc => by cases hlegal.mp hc
      rw [hclient]
      rfl
  unfold setRemoteTransportParams
  rw [hcheck]

/-- The settings arrive, and what was in the caller's structure before is not sent. -/
structure SettingsReach (exttype : TransportParamsType) (settings remote : Ngtcp2Settings)
    (prior prior' peerPrior : Ngtcp2TransportParams) : Prop where
  valid : ValidParams exttype (settingsParams settings)
  omitConnectionId : settings.omitConnectionId.toNat ≤ 1
  statelessResetToken : exttype = .clientHello →
    peerPrior.statelessResetToken = settings.statelessResetToken
  serverUnicastIp : settings.serverUnicastIp = 0 → peerPrior.serverUnicastIp = 0
  serverUnicastTtl : settings.serverUnicastTtl = 0 → peerPrior.serverUnicastTtl = 0
  received : remote.added = settings.added
  sent : prior.added = prior'.added

theorem validParams_copy (dest : Ngtcp2TransportParams) :
    ValidParams exttype (ngtcp2TransportParamsCopyFromSettings dest settings) ↔
    ValidParams exttype (settingsParams settings) := by
  constructor
  · intro h
    exact ⟨h.bidi, h.uni, h.exponent⟩
  · intro h
    exact ⟨h.bidi, h.uni, h.exponent⟩

/-- The copied fields arrive. -/
theorem copied_back_iff (dest : Ngtcp2TransportParams)
    (hfields : ∀ id : TransportParamId, id.field back =
      if sent exttype (ngtcp2TransportParamsCopyFromSettings dest settings) id = true
      then received (ngtcp2TransportParamsCopyFromSettings dest settings) id else unsentField peerPrior id) :
    (∀ id ∈ copiedIds, id.field back = id.field (settingsParams settings)) ↔
      settings.omitConnectionId.toNat ≤ 1 ∧
      (exttype = .clientHello → peerPrior.statelessResetToken = settings.statelessResetToken) ∧
      (settings.serverUnicastIp = 0 → peerPrior.serverUnicastIp = 0) ∧
      (settings.serverUnicastTtl = 0 → peerPrior.serverUnicastTtl = 0) := by
  have hback : ∀ id ∈ copiedIds, CarriesParam exttype id →
    (id.field back = id.field (settingsParams settings) ↔
      (id ∈ addedIds → id.field (ngtcp2TransportParamsCopyFromSettings dest settings) = 0 →
        id.field peerPrior = 0) ∧
        (id = .omitConnectionId → settings.omitConnectionId.toNat ≤ 1)) := by
    intro id hid hcarries
    rw [hfields id, ← copied_field hid dest, field_back_iff _ peerPrior hcarries]
    rfl
  have htoken : exttype = .clientHello → (TransportParamId.statelessResetToken.field back =
      TransportParamId.statelessResetToken.field (settingsParams settings) ↔
        peerPrior.statelessResetToken = settings.statelessResetToken) := by
    rintro rfl
    rw [hfields, if_neg (by simp [sent])]
    constructor
    · intro h
      exact Subtype.ext (BigEndian.get_inj
        (peerPrior.statelessResetToken.2.trans settings.statelessResetToken.2.symm) h)
    · intro h
      exact congrArg (fun token : ResetToken => BigEndian.get token.1) h
  have hother : ∀ id, id ≠ .statelessResetToken → CarriesParam exttype id :=
    fun id hne hc => absurd hc hne
  constructor
  · intro h
    refine ⟨?_, ?_, ?_, ?_⟩
    · have homit := h .omitConnectionId (by decide)
      rw [hback _ (by decide) (hother _ (by decide))] at homit
      exact homit.2 rfl
    · intro hch
      exact (htoken hch).mp (h .statelessResetToken (by decide))
    · intro hzero
      have hip := h .serverUnicastIp (by decide)
      rw [hback _ (by decide) (hother _ (by decide))] at hip
      exact UInt32.toNat_inj.mp (hip.1 (by decide) (congrArg UInt32.toNat hzero))
    · intro hzero
      have httl := h .serverUnicastTtl (by decide)
      rw [hback _ (by decide) (hother _ (by decide))] at httl
      exact UInt32.toNat_inj.mp (httl.1 (by decide) (congrArg UInt32.toNat hzero))
  · rintro ⟨homit, hreset, hip, httl⟩ id hid
    by_cases hcarries : CarriesParam exttype id
    · rw [hback id hid hcarries]
      refine ⟨fun hadded hzero => ?_, fun _ => homit⟩
      cases id with
      | serverUnicastIp => exact congrArg UInt32.toNat (hip (UInt32.toNat_inj.mp hzero))
      | serverUnicastTtl => exact congrArg UInt32.toNat (httl (UInt32.toNat_inj.mp hzero))
      | _ => first | exact absurd hadded (by decide) | exact absurd hid (by decide)
    · unfold CarriesParam at hcarries
      simp only [Classical.not_imp, not_not] at hcarries
      obtain ⟨rfl, hch⟩ := hcarries
      exact (htoken hch).mpr (hreset hch)

/-- The bytes tell the seven fields. -/
theorem encodedParams_copy_iff {dest dest' : Ngtcp2TransportParams}
    (hvalid : ValidParams exttype (settingsParams settings))
    (hversion : exttype ≠ .newSessionTicket → dest.version = dest'.version)
    (hversions : exttype = .encryptedExtensions →
    dest.supportedVersions = dest'.supportedVersions) :
    encodedParams exttype (ngtcp2TransportParamsCopyFromSettings dest settings) =
        encodedParams exttype (ngtcp2TransportParamsCopyFromSettings dest' settings) ↔
        dest.added = dest'.added := by
  constructor
  · intro h
    obtain ⟨back, hdecode, hfields, -⟩ :=
      decode_encoded ((validParams_copy dest).mpr hvalid) plainParams
    obtain ⟨back', hdecode', hfields', -⟩ :=
      decode_encoded ((validParams_copy dest').mpr hvalid) plainParams
    rw [← h, hdecode, ok_inj] at hdecode'
    obtain rfl := hdecode'
    rw [added_eq_iff]
    intro id hid
    -- A field that was not sent is zero, and so is what comes back for it.
    have hone : ∀ dest : Ngtcp2TransportParams,
        (if sent exttype (ngtcp2TransportParamsCopyFromSettings dest settings) id = true
          then received (ngtcp2TransportParamsCopyFromSettings dest settings) id else unsentField plainParams id) =
            id.field dest := by
      intro dest
      have hcopy : id.field (ngtcp2TransportParamsCopyFromSettings dest settings) =
        id.field dest := by
        cases id <;> first | rfl | exact absurd (by decide) hid
      rw [← hcopy]
      refine (field_back_iff _ plainParams fun hc => ?_).mpr ⟨fun _ _ => ?_, fun hc => ?_⟩
      · exact absurd (hc ▸ by decide) hid
      · cases id <;> first | rfl | exact absurd (by decide) hid
      · exact absurd (hc ▸ by decide) hid
    rw [← hone dest, ← hone dest', ← hfields id, ← hfields' id]
  · intro h
    have hfield : ∀ id : TransportParamId,
      id.field (ngtcp2TransportParamsCopyFromSettings dest settings) =
        id.field (ngtcp2TransportParamsCopyFromSettings dest' settings) := by
      intro id
      by_cases hid : id ∈ copiedIds
      · rw [copied_field hid, copied_field hid]
      · exact added_eq_iff.mp (show (ngtcp2TransportParamsCopyFromSettings dest settings).added =
          (ngtcp2TransportParamsCopyFromSettings dest' settings).added from h) id hid
    have hpart : putVersionPart exttype (ngtcp2TransportParamsCopyFromSettings dest settings) =
        putVersionPart exttype (ngtcp2TransportParamsCopyFromSettings dest' settings) := by
      unfold putVersionPart ngtcp2TransportParamsCopyFromSettings
      cases exttype with
      | clientHello =>
        dsimp only
        rw [hversion (by decide)]
      | encryptedExtensions =>
        dsimp only
        rw [hversion (by decide), hversions rfl]
      | newSessionTicket => rfl
    unfold encodedParams
    rw [hpart, sentParams_congr hfield]

/-- The whole way: the parameters are encoded, decoded and taken over. -/
theorem exchange_iff (hget : getLocalTransportParams e prior exttype = .ok params)
    (hends : peer.server = !e.server)
    (hsame : peer.version = e.version) :
    (∃ back peer', ngtcp2DecodeTransportParams peerPrior exttype (encodedParams exttype params) = ok back ∧
      setRemoteTransportParams peer exttype back = .ok peer' ∧
      peer'.remoteSettings = e.localSettings) ↔
        ValidParams exttype (settingsParams e.localSettings) ∧
        e.localSettings.omitConnectionId.toNat ≤ 1 ∧
        (exttype = .clientHello → peerPrior.statelessResetToken = e.localSettings.statelessResetToken) ∧
        (e.localSettings.serverUnicastIp = 0 → peerPrior.serverUnicastIp = 0) ∧
        (e.localSettings.serverUnicastTtl = 0 → peerPrior.serverUnicastTtl = 0) ∧
        peer.remoteSettings.added = e.localSettings.added := by
  obtain ⟨hserver, dest, rfl, -, hversion, hversions⟩ := getLocalTransportParams_ok hget
  have hlegal : peer.server = true ↔ exttype = .clientHello := by
    rw [hends, Bool.not_eq_true', ← Bool.not_eq_true, hserver, not_not]
  have hset : ∀ {back}, back.version =
    (withVersion exttype (ngtcp2TransportParamsCopyFromSettings dest e.localSettings)
        peerPrior).version →
      back.supportedVersions = (withVersion exttype (ngtcp2TransportParamsCopyFromSettings dest e.localSettings)
        peerPrior).supportedVersions →
      setRemoteTransportParams peer exttype back =
        .ok { peer with remoteSettings := ngtcp2SettingsCopyFromTransportParams peer.remoteSettings back } := by
    intro back hv hvs
    apply setRemoteTransportParams_ok hlegal
    · rintro rfl
      rw [hv, hsame]
      exact hversion (by decide)
    · rintro rfl
      rw [hvs, hsame]
      exact hversions rfl
  constructor
  · rintro ⟨back, peer', hdecode, hremote, hreach⟩
    have hvalid := valid_of_decode hdecode
    obtain ⟨back', hdecode', hfields, hv, hvs⟩ := decode_encoded hvalid peerPrior
    rw [hdecode, ok_inj] at hdecode'
    obtain rfl := hdecode'
    rw [hset hv hvs] at hremote
    obtain rfl := Except.ok.inj hremote
    obtain ⟨hcopied, hadded⟩ := settings_copy_eq_iff.mp hreach
    obtain ⟨homit, htoken, hip, httl⟩ := (copied_back_iff dest hfields).mp hcopied
    exact ⟨(validParams_copy dest).mp hvalid, homit, htoken, hip, httl, hadded⟩
  · rintro ⟨hvalid, homit, htoken, hip, httl, hadded⟩
    obtain ⟨back, hdecode, hfields, hv, hvs⟩ :=
      decode_encoded ((validParams_copy dest).mpr hvalid) peerPrior
    refine ⟨back, _, hdecode, hset hv hvs, ?_⟩
    exact settings_copy_eq_iff.mpr ⟨(copied_back_iff dest hfields).mpr ⟨homit, htoken, hip, httl⟩,
      hadded⟩

/-- The settings reach the peer, and only they are sent, exactly under `SettingsReach`. -/
theorem settings_reach_peer {destlen destlen' : Nat} {bytes bytes' : List UInt8}
    (hget : getLocalTransportParams e prior exttype = .ok params)
    (hget' : getLocalTransportParams e prior' exttype = .ok params')
    (henc : ngtcp2EncodeTransportParams destlen exttype params = .ok bytes)
    (henc' : ngtcp2EncodeTransportParams destlen' exttype params' = .ok bytes')
    (hends : peer.server = !e.server) (hsame : peer.version = e.version)
    (peerPrior : Ngtcp2TransportParams) :
    ((∃ back peer', ngtcp2DecodeTransportParams peerPrior exttype bytes = ok back ∧
      setRemoteTransportParams peer exttype back = .ok peer' ∧
      peer'.remoteSettings = e.localSettings) ∧ bytes = bytes') ↔
        SettingsReach exttype e.localSettings peer.remoteSettings prior prior' peerPrior := by
  rw [ngtcp2EncodeTransportParams_eq] at henc henc'
  split at henc
  · cases henc
  split at henc'
  · cases henc'
  obtain rfl := Except.ok.inj henc
  obtain rfl := Except.ok.inj henc'
  rw [exchange_iff hget hends hsame]
  obtain ⟨-, dest, rfl, hadded, hversion, hversions⟩ := getLocalTransportParams_ok hget
  obtain ⟨-, dest', rfl, hadded', hversion', hversions'⟩ := getLocalTransportParams_ok hget'
  have hbytes : ValidParams exttype (settingsParams e.localSettings) →
      (encodedParams exttype (ngtcp2TransportParamsCopyFromSettings dest e.localSettings) =
        encodedParams exttype (ngtcp2TransportParamsCopyFromSettings dest' e.localSettings) ↔
          dest.added = dest'.added) :=
    fun hvalid => encodedParams_copy_iff hvalid
      (fun hne => (hversion hne).trans (hversion' hne).symm)
      fun heq => Subtype.ext ((hversions heq).trans (hversions' heq).symm)
  rw [hadded, hadded'] at hbytes
  constructor
  · rintro ⟨⟨hvalid, homit, htoken, hip, httl, hremote⟩, heq⟩
    exact ⟨hvalid, homit, htoken, hip, httl, hremote, (hbytes hvalid).mp heq⟩
  · intro h
    exact ⟨⟨h.valid, h.omitConnectionId, h.statelessResetToken, h.serverUnicastIp,
      h.serverUnicastTtl, h.received⟩,
      (hbytes h.valid).mpr h.sent⟩

end

/-- Settings with nothing optional. -/
def plainSettings : Ngtcp2Settings :=
  { maxStreamData := 9, maxData := 9, maxStreamIdBidi := 0, maxStreamIdUni := 0, idleTimeout := 30
    omitConnectionId := 0, maxPacketSize := maxPktSize, statelessResetToken :=
      plainParams.statelessResetToken
    ackDelayExponent := defaultAckDelayExponent, serverUnicastIp := 0, serverUnicastTtl :=
      0, testMetadata := 0
    cpuSensitive := 0, throughputSensitive := 0, rttSensitive := 0, clientIp := 0, clientProcess :=
      0, timeStamp := 0 }

/-- A client with the given settings, and the server it talks to. -/
def paramsClient (settings : Ngtcp2Settings) : ParamsEnd :=
  { server := false, version := 1, localSettings := settings, remoteSettings := plainSettings }
def paramsServer : ParamsEnd :=
  { server := true, version := 1, localSettings := plainSettings, remoteSettings := plainSettings }

/-- Settings without any of the seven fields reach the server. -/
theorem settings_reach_peer_plain :
    (∃ back peer', ngtcp2DecodeTransportParams plainParams .clientHello (encodedParams .clientHello plainParams) = ok back ∧
      setRemoteTransportParams paramsServer .clientHello back = .ok peer' ∧
        peer'.remoteSettings = (paramsClient plainSettings).localSettings) ∧
      encodedParams .clientHello plainParams = encodedParams .clientHello plainParams :=
  have hget : getLocalTransportParams (paramsClient plainSettings) plainParams .clientHello =
    .ok plainParams := rfl
  have henc : ngtcp2EncodeTransportParams 28 .clientHello plainParams =
    .ok (encodedParams .clientHello plainParams) := by
    decide
  have hends : paramsServer.server = !(paramsClient plainSettings).server := rfl
  (settings_reach_peer hget hget henc henc hends rfl plainParams).mpr
    { valid := plainParams_valid .clientHello, omitConnectionId := by decide, statelessResetToken := fun _ => rfl
      serverUnicastIp := fun _ => rfl, serverUnicastTtl := fun _ => rfl, received := rfl, sent :=
        rfl }

/-- A client that is sensitive to the CPU of its server cannot tell it. -/
theorem settings_lost : ¬∀ (e peer : ParamsEnd) (exttype : TransportParamsType)
    (prior prior' peerPrior params params' : Ngtcp2TransportParams) (destlen destlen' : Nat)
    (bytes bytes' : List UInt8),
    getLocalTransportParams e prior exttype = .ok params →
    getLocalTransportParams e prior' exttype = .ok params' →
    ngtcp2EncodeTransportParams destlen exttype params = .ok bytes →
    ngtcp2EncodeTransportParams destlen' exttype params' = .ok bytes' →
    peer.server = !e.server → peer.version = e.version →
    (∃ back peer', ngtcp2DecodeTransportParams peerPrior exttype bytes = ok back ∧
      setRemoteTransportParams peer exttype back = .ok peer' ∧
      peer'.remoteSettings = e.localSettings) ∧ bytes = bytes' := by
  intro h
  have hget : getLocalTransportParams
    (paramsClient { plainSettings with cpuSensitive := 1 }) plainParams .clientHello =
      .ok plainParams := rfl
  have henc : ngtcp2EncodeTransportParams 28 .clientHello plainParams =
    .ok (encodedParams .clientHello plainParams) := by
    decide
  have hends : paramsServer.server =
    !(paramsClient { plainSettings with cpuSensitive := 1 }).server := rfl
  have hreach := (h _ _ _ _ _ plainParams _ _ _ _ _ _ hget hget henc henc hends rfl).1
  obtain ⟨-, -, -, -, -, hremote⟩ := (exchange_iff hget hends rfl).mp hreach
  exact absurd hremote (by decide)

end Ngtcp2
