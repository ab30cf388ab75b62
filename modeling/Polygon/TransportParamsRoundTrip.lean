import Polygon.TransportParamsGrammar

/-!
# Transport parameters sent and received

What the decoder makes of the encoder's output: every parameter that was sent comes
back, and of those that were not sent five get their default. The others keep what
the structure held before.
-/
namespace Ngtcp2

open Checked

/-! ## Parameters as numbers -/

/-- The field of a parameter as a number. -/
def TransportParamId.field (id : TransportParamId) (params : Ngtcp2TransportParams) : Nat :=
  match id with
  | .initialMaxStreamData => params.initialMaxStreamData.toNat
  | .initialMaxData => params.initialMaxData.toNat
  | .initialMaxStreamIdBidi => params.initialMaxStreamIdBidi.toNat
  | .idleTimeout => params.idleTimeout.toNat
  | .omitConnectionId => params.omitConnectionId.toNat
  | .maxPacketSize => params.maxPacketSize.toNat
  | .statelessResetToken => BigEndian.get params.statelessResetToken.1
  | .ackDelayExponent => params.ackDelayExponent.toNat
  | .initialMaxStreamIdUni => params.initialMaxStreamIdUni.toNat
  | .serverUnicastIp => params.serverUnicastIp.toNat
  | .serverUnicastTtl => params.serverUnicastTtl.toNat
  | .testMetadata => params.testMetadata.toNat
  | .cpuSensitive => params.cpuSensitive.toNat
  | .throughputSensitive => params.throughputSensitive.toNat
  | .rttSensitive => params.rttSensitive.toNat
  | .clientIp => params.clientIp.toNat
  | .clientProcess => params.clientProcess.toNat
  | .timeStamp => params.timeStamp.toNat

/-- The encoder sends the parameter. -/
def sent (exttype : TransportParamsType) (params : Ngtcp2TransportParams) (id : TransportParamId) :
    Bool :=
  match id with
  | .initialMaxStreamData | .initialMaxData | .idleTimeout => true
  | .statelessResetToken => exttype != .clientHello
  | .maxPacketSize => id.field params != maxPktSize.toNat
  | .ackDelayExponent => id.field params != defaultAckDelayExponent.toNat
  | _ => id.field params != 0

/-- The order of the encoder. -/
def encoderOrder : List TransportParamId :=
  [.initialMaxStreamData, .initialMaxData, .idleTimeout, .statelessResetToken,
    .initialMaxStreamIdBidi,
   .initialMaxStreamIdUni, .omitConnectionId, .maxPacketSize, .serverUnicastIp, .serverUnicastTtl,
     .testMetadata,
   .cpuSensitive, .throughputSensitive, .rttSensitive, .clientIp, .clientProcess, .timeStamp,
     .ackDelayExponent]

/-- A parameter with the value of its field. -/
def wireParam (params : Ngtcp2TransportParams) (id : TransportParamId) : WireParam :=
  { type := id.code, value := BigEndian.put id.valueLen (id.field params) }

/-- The parameters that the encoder sends. -/
def sentParams (exttype : TransportParamsType) (params : Ngtcp2TransportParams) : List WireParam :=
  (encoderOrder.filter (sent exttype params)).map (wireParam params)

theorem encoderOrder_nodup : encoderOrder.Nodup := by decide

theorem mem_encoderOrder (id : TransportParamId) : id ∈ encoderOrder := by cases id <;> decide

/-! ## What the encoder writes -/

theorem wireParam_bytes (params : Ngtcp2TransportParams) (id : TransportParamId) :
    (wireParam params id).bytes = putParam id id.valueLen
    (BigEndian.put id.valueLen (id.field params)) := by
  unfold WireParam.bytes putParam wireParam
  dsimp only
  rw [BigEndian.put_length, List.append_assoc]

theorem flatMap_sent (exttype : TransportParamsType) (params : Ngtcp2TransportParams)
    (ids : List TransportParamId) :
    ((ids.filter (sent exttype params)).map (wireParam params)).flatMap WireParam.bytes =
      ids.flatMap fun id => if sent exttype params id =
      true then (wireParam params id).bytes else [] := by
  induction ids with
  | nil => rfl
  | cons id ids ih =>
    rw [List.filter_cons, List.flatMap_cons, ← ih]
    split
    · rfl
    · rfl

theorem putParams_eq (exttype : TransportParamsType) (params : Ngtcp2TransportParams) :
    putParams exttype params = (sentParams exttype params).flatMap WireParam.bytes := by
  have htoken : BigEndian.put 16 (BigEndian.get params.statelessResetToken.1) =
    params.statelessResetToken.1 := by
    have hput := BigEndian.put_get params.statelessResetToken.1
    rwa [params.statelessResetToken.2] at hput
  have hexp : BigEndian.put 1 params.ackDelayExponent.toNat = [params.ackDelayExponent] := by
    simp [BigEndian.put]
  have hnil : BigEndian.put 0 params.omitConnectionId.toNat = [] := rfl
  unfold sentParams
  rw [flatMap_sent]
  unfold putParams encoderOrder
  simp only [List.flatMap_cons, List.flatMap_nil, List.append_nil, wireParam_bytes, sent,
    TransportParamId.valueLen,
    TransportParamId.field, htoken, hexp, hnil, List.append_assoc, bne_iff_ne, ne_eq,
      ← UInt32.toNat_inj,
    ← UInt16.toNat_inj, ← UInt8.toNat_inj, ← UInt64.toNat_inj, UInt32.toNat_zero, UInt8.toNat_zero,
      UInt64.toNat_zero]
  cases exttype <;> rfl

/-- The encoder counts the bytes it writes. -/
theorem putParams_length (exttype : TransportParamsType) (params : Ngtcp2TransportParams) :
    versionPartLen exttype params + 2 + (putParams exttype params).length =
    transportParamsLen exttype params := by
  unfold putParams transportParamsLen putParam
  simp only [List.length_append, apply_ite List.length, List.length_nil, List.length_singleton,
    putUint32be, putUint64be, putUint16be, BigEndian.put_length]
  cases exttype
  all_goals
    simp only [List.length_append, List.length_nil, params.statelessResetToken.2,
      BigEndian.put_length]
    ring

theorem putVersionPart_length (exttype : TransportParamsType) (params : Ngtcp2TransportParams) :
    (putVersionPart exttype params).length = versionPartLen exttype params := by
  cases exttype with
  | clientHello => exact BigEndian.put_length 4 _
  | encryptedExtensions =>
    unfold putVersionPart versionPartLen
    dsimp only
    rw [List.length_append, List.length_cons, flatMap_putUint32be_length, putUint32be,
      BigEndian.put_length]
    ring
  | newSessionTicket => rfl

/-- The bytes that the encoder writes. -/
def encodedParams (exttype : TransportParamsType) (params : Ngtcp2TransportParams) : List UInt8 :=
  putVersionPart exttype params ++
    (putUint16be ((sentParams exttype params).flatMap WireParam.bytes).length ++
    (sentParams exttype params).flatMap WireParam.bytes)

/-- Into a buffer of the counted length the encoder writes; the assertion at its end holds. -/
theorem ngtcp2EncodeTransportParams_eq (destlen : Nat) (exttype : TransportParamsType)
    (params : Ngtcp2TransportParams) :
    ngtcp2EncodeTransportParams destlen exttype params =
      if destlen < transportParamsLen exttype params then .error .noBuf
      else .ok (encodedParams exttype params) := by
  have hlen := putParams_length exttype params
  have hcount : transportParamsLen exttype params - versionPartLen exttype params - 2 =
      (putParams exttype params).length := by omega
  unfold ngtcp2EncodeTransportParams
  dsimp only
  split
  · rfl
  · rw [hcount, if_pos]
    · rw [putParams_eq, List.append_assoc]
      rfl
    · rw [List.length_append, List.length_append, putUint16be_length, putVersionPart_length]
      omega

/-! ## What the decoder stores -/

/-- The number that is stored for a value. -/
def stored (id : TransportParamId) (value : List UInt8) : Nat :=
  if id = .omitConnectionId then 1 else BigEndian.get value

section
variable {exttype : TransportParamsType} {params prior params' : Ngtcp2TransportParams}

theorem ofNat_get_uint32 {value : List UInt8} (h : value.length = 4) :
    (UInt32.ofNat (BigEndian.get value)).toNat = BigEndian.get value := by
  have hlt := BigEndian.get_lt value
  rw [h] at hlt
  exact UInt32.toNat_ofNat_of_lt' hlt

theorem ofNat_get_uint64 {value : List UInt8} (h : value.length = 8) :
    (UInt64.ofNat (BigEndian.get value)).toNat = BigEndian.get value := by
  have hlt := BigEndian.get_lt value
  rw [h] at hlt
  exact UInt64.toNat_ofNat_of_lt' hlt

theorem ofNat_get_uint16 {value : List UInt8} (h : value.length = 2) :
    (UInt16.ofNat (BigEndian.get value)).toNat = BigEndian.get value := by
  have hlt := BigEndian.get_lt value
  rw [h] at hlt
  exact UInt16.toNat_ofNat_of_lt' hlt

theorem ofNat_get_uint8 {value : List UInt8} (h : value.length = 1) :
    (UInt8.ofNat (BigEndian.get value)).toNat = BigEndian.get value := by
  have hlt := BigEndian.get_lt value
  rw [h] at hlt
  exact UInt8.toNat_ofNat_of_lt' hlt

/-- The field of the parameter gets the value. -/
theorem storeParam_same {id : TransportParamId} {value : List UInt8}
    (hlen : value.length = id.valueLen)
    (h : storeParam exttype params id value = some params') :
    id.field params' = stored id value := by
  unfold storeParam at h
  cases id with
  | initialMaxStreamIdBidi | initialMaxStreamIdUni =>
    dsimp only at h
    split at h
    · obtain rfl := Option.some.inj h
      exact ofNat_get_uint32 hlen
    · cases h
  | statelessResetToken =>
    have hlen : value.length = 16 := hlen
    dsimp only at h
    rw [dif_pos hlen] at h
    obtain rfl := Option.some.inj h
    rfl
  | ackDelayExponent =>
    dsimp only at h
    split at h
    · cases h
    · obtain rfl := Option.some.inj h
      exact ofNat_get_uint8 hlen
  | omitConnectionId =>
    obtain rfl := Option.some.inj h
    rfl
  | idleTimeout | maxPacketSize =>
    obtain rfl := Option.some.inj h
    exact ofNat_get_uint16 hlen
  | clientIp | clientProcess | timeStamp =>
    obtain rfl := Option.some.inj h
    exact ofNat_get_uint64 hlen
  | _ =>
    obtain rfl := Option.some.inj h
    exact ofNat_get_uint32 hlen

/-- Everything but the field of the parameter stays. -/
theorem storeParam_others {id : TransportParamId} {value : List UInt8}
    (h : storeParam exttype params id value = some params') :
    (∀ id', id' ≠ id → id'.field params' = id'.field params) ∧
      params'.version = params.version ∧ params'.supportedVersions = params.supportedVersions := by
  unfold storeParam at h
  cases id with
  | initialMaxStreamIdBidi | initialMaxStreamIdUni =>
    dsimp only at h
    split at h
    · obtain rfl := Option.some.inj h
      refine ⟨fun id' hne => ?_, rfl, rfl⟩
      cases id' <;> first | rfl | exact absurd rfl hne
    · cases h
  | statelessResetToken =>
    dsimp only at h
    split at h
    · obtain rfl := Option.some.inj h
      refine ⟨fun id' hne => ?_, rfl, rfl⟩
      cases id' <;> first | rfl | exact absurd rfl hne
    · cases h
  | ackDelayExponent =>
    dsimp only at h
    split at h
    · cases h
    · obtain rfl := Option.some.inj h
      refine ⟨fun id' hne => ?_, rfl, rfl⟩
      cases id' <;> first | rfl | exact absurd rfl hne
  | _ =>
    obtain rfl := Option.some.inj h
    refine ⟨fun id' hne => ?_, rfl, rfl⟩
    cases id' <;> first | rfl | exact absurd rfl hne

theorem field_lt (id : TransportParamId) (params : Ngtcp2TransportParams)
    (h : id ≠ .omitConnectionId) :
    id.field params < 256 ^ id.valueLen := by
  have htoken := BigEndian.get_lt params.statelessResetToken.1
  rw [params.statelessResetToken.2] at htoken
  cases id with
  | omitConnectionId => exact absurd rfl h
  | statelessResetToken => exact htoken
  | ackDelayExponent => exact params.ackDelayExponent.toNat_lt
  | idleTimeout => exact params.idleTimeout.toNat_lt
  | maxPacketSize => exact params.maxPacketSize.toNat_lt
  | clientIp => exact params.clientIp.toNat_lt
  | clientProcess => exact params.clientProcess.toNat_lt
  | timeStamp => exact params.timeStamp.toNat_lt
  | _ => exact UInt32.toNat_lt _

/-- What comes back of a parameter that was sent. -/
def received (params : Ngtcp2TransportParams) (id : TransportParamId) : Nat :=
  if id = .omitConnectionId then 1 else id.field params

theorem stored_wireParam (params : Ngtcp2TransportParams) (id : TransportParamId) :
    stored id (wireParam params id).value = received params id := by
  unfold stored received
  split
  · rfl
  · next h => exact BigEndian.get_put_of_lt (field_lt id params h)

/-- A round on a parameter that was sent. -/
theorem wireParam_step {st st' : ParamsState} {id : TransportParamId}
    (h : (wireParam params id).step exttype st = some st') :
    id.field st'.params = received params id ∧
      (∀ id', id' ≠ id → id'.field st'.params = id'.field st.params) ∧
      st'.params.version = st.params.version ∧
      st'.params.supportedVersions = st.params.supportedVersions := by
  unfold WireParam.step at h
  have hid : TransportParamId.ofCode (wireParam params id).type = some id := ofCode_code id
  rw [hid] at h
  dsimp only at h
  split at h
  · next hlen =>
    obtain ⟨p, hstore, rfl⟩ := Option.map_eq_some_iff.mp h
    refine ⟨?_, storeParam_others hstore⟩
    rw [← stored_wireParam params id]
    exact storeParam_same hlen.1 hstore
  · cases h

/-- The loop over parameters that were sent. -/
theorem foldlM_wireParam {ids : List TransportParamId} (hnodup : ids.Nodup) {st st' : ParamsState}
    (h : (ids.map (wireParam params)).foldlM (WireParam.step exttype) st = some st') :
    (∀ id, id.field st'.params = if id ∈ ids then received params id else id.field st.params) ∧
      st'.params.version = st.params.version ∧
      st'.params.supportedVersions = st.params.supportedVersions := by
  induction ids generalizing st with
  | nil =>
    obtain rfl := Option.some.inj h
    exact ⟨fun id => (if_neg List.not_mem_nil).symm, rfl, rfl⟩
  | cons id₁ ids ih =>
    rw [List.map_cons, List.foldlM_cons] at h
    obtain ⟨st₁, hfirst, hrest⟩ := Option.bind_eq_some_iff.mp h
    obtain ⟨hnot, hnodup⟩ := List.nodup_cons.mp hnodup
    obtain ⟨hfields, hversion, hversions⟩ := ih hnodup hrest
    obtain ⟨hsame, hothers, hversion₁, hversions₁⟩ := wireParam_step hfirst
    refine ⟨fun id => ?_, hversion.trans hversion₁, hversions.trans hversions₁⟩
    rw [hfields id]
    by_cases heq : id = id₁
    · rw [heq, if_neg hnot, if_pos (List.mem_cons_self ..)]
      exact hsame
    · by_cases hmem : id ∈ ids
      · rw [if_pos hmem, if_pos (List.mem_cons_of_mem _ hmem)]
      · rw [if_neg hmem, if_neg, hothers id heq]
        rw [List.mem_cons]
        exact fun hc => hc.elim heq hmem

/-! ## The version part -/

theorem putUint32be_length (n : Nat) : (putUint32be n).length = 4 := BigEndian.put_length 4 n

theorem readUint32_put (n : UInt32) (q : List UInt8) :
    readUint32 (putUint32be n.toNat ++ q) = ok (n.toNat, q) := by
  have hget : BigEndian.get (putUint32be n.toNat) = n.toNat := BigEndian.get_put_of_lt n.toNat_lt
  unfold readUint32
  rw [read_append (putUint32be_length n.toNat), ok_andThen]
  dsimp only
  rw [hget]

theorem readVersions_put (versions : List UInt32) (q : List UInt8) :
    readVersions versions.length
    ((versions.flatMap fun version => putUint32be version.toNat) ++ q) = ok (versions, q) := by
  induction versions with
  | nil => rfl
  | cons version versions ih =>
    rw [List.length_cons, readVersions, List.flatMap_cons, List.append_assoc, readUint32_put,
      ok_andThen]
    dsimp only
    rw [ih, ok_andThen]
    dsimp only
    rw [UInt32.ofNat_toNat]

theorem putVersionPart_isVersionPart (exttype : TransportParamsType)
    (params : Ngtcp2TransportParams) :
    IsVersionPart exttype (putVersionPart exttype params) := by
  cases exttype with
  | clientHello => exact BigEndian.put_length 4 _
  | encryptedExtensions =>
    have hlen := flatMap_putUint32be_length params.supportedVersions.1
    have hle := params.supportedVersions.2
    refine ⟨putUint32be params.version.toNat,
      params.supportedVersions.1.flatMap fun version => putUint32be version.toNat,
      putUint32be_length _, by omega, by omega, ?_⟩
    rw [hlen]
    rfl
  | newSessionTicket => rfl

/-- What the version part of an extension type carries over. -/
def withVersion (exttype : TransportParamsType) (params prior : Ngtcp2TransportParams) :
    Ngtcp2TransportParams :=
  match exttype with
  | .clientHello => { prior with version := params.version }
  | .encryptedExtensions =>
    { prior with version := params.version, supportedVersions := params.supportedVersions }
  | .newSessionTicket => prior

theorem decodeVersionPart_put (exttype : TransportParamsType) (params prior : Ngtcp2TransportParams)
    (q : List UInt8) :
    decodeVersionPart exttype prior (putVersionPart exttype params ++ q) =
      ok ((putVersionPart exttype params).length, withVersion exttype params prior, q) := by
  have hput : (putUint32be params.version.toNat).length = 4 := putUint32be_length _
  cases exttype with
  | clientHello =>
    unfold decodeVersionPart putVersionPart
    dsimp only
    rw [if_neg (by rw [List.length_append]; omega), readUint32_put, ok_andThen, hput]
    dsimp only
    rw [UInt32.ofNat_toNat]
    rfl
  | encryptedExtensions =>
    have hlen := flatMap_putUint32be_length params.supportedVersions.1
    have hle := params.supportedVersions.2
    have hbyte : BigEndian.get [UInt8.ofNat (params.supportedVersions.1.length * 4)] =
        params.supportedVersions.1.length * 4 := by
      simp only [BigEndian.get, List.length_nil, UInt8.toNat_ofNat']
      omega
    have hdiv : params.supportedVersions.1.length * 4 / 4 = params.supportedVersions.1.length := by
      omega
    unfold decodeVersionPart putVersionPart
    dsimp only
    rw [if_neg (by simp only [List.length_append, List.length_cons]; omega), List.append_assoc,
      readUint32_put, ok_andThen]
    dsimp only
    rw [List.cons_append, read_one, ok_andThen]
    dsimp only
    rw [hbyte, if_neg (by rw [List.length_append]; omega), hdiv, readVersions_put, ok_andThen]
    dsimp only
    have hcount : 4 + 1 + params.supportedVersions.1.length * 4 =
      (putUint32be params.version.toNat ++
        (UInt8.ofNat (params.supportedVersions.1.length * 4) ::
          params.supportedVersions.1.flatMap fun version => putUint32be version.toNat)).length := by
      rw [List.length_append, List.length_cons, hlen, hput]
      omega
    rw [dif_pos hle, UInt32.ofNat_toNat, hcount]
    rfl
  | newSessionTicket => rfl

/-! ## The round trip -/

/-- The parameters that an extension type may carry. A stream ID of 0 is not sent. -/
structure ValidParams (exttype : TransportParamsType) (params : Ngtcp2TransportParams) : Prop where
  bidi : params.initialMaxStreamIdBidi = 0 ∨
    validStreamIdBidi params.initialMaxStreamIdBidi.toNat exttype = true
  uni : params.initialMaxStreamIdUni = 0 ∨
    validStreamIdUni params.initialMaxStreamIdUni.toNat exttype = true
  exponent : params.ackDelayExponent.toNat ≤ 20

theorem mem_sentParams {w : WireParam} :
    w ∈ sentParams exttype params ↔
    ∃ id, sent exttype params id = true ∧ wireParam params id = w := by
  unfold sentParams
  rw [List.mem_map]
  constructor
  · rintro ⟨id, hmem, rfl⟩
    exact ⟨id, (List.mem_filter.mp hmem).2, rfl⟩
  · rintro ⟨id, hsent, rfl⟩
    exact ⟨id, List.mem_filter.mpr ⟨mem_encoderOrder id, hsent⟩, rfl⟩

/-- What is sent depends on the fields of the parameters only. -/
theorem sentParams_congr (h : ∀ id : TransportParamId, id.field params = id.field params') :
    sentParams exttype params = sentParams exttype params' := by
  have hsent : sent exttype params = sent exttype params' := by
    funext id
    unfold sent
    rw [h id]
  have hwire : wireParam params = wireParam params' := by
    funext id
    unfold wireParam
    rw [h id]
  unfold sentParams
  rw [hsent, hwire]

theorem wireParam_fits (params : Ngtcp2TransportParams) (id : TransportParamId) :
    (wireParam params id).Fits := by
  have hcode := code_lt id
  have hlen := valueLen_le id
  constructor
  · unfold wireParam
    dsimp only
    omega
  · unfold wireParam
    dsimp only
    rw [BigEndian.put_length]
    omega

theorem wireParam_valid_iff (id : TransportParamId) :
    (wireParam params id).Valid exttype ↔ InRange exttype id (wireParam params id).value := by
  have hid : TransportParamId.ofCode (wireParam params id).type = some id := ofCode_code id
  unfold WireParam.Valid
  rw [hid]
  constructor
  · intro h
    exact (h id rfl).2
  · intro h id' heq
    obtain rfl := Option.some.inj heq
    exact ⟨BigEndian.put_length _ _, h⟩

/-- Valid parameters are sent as valid ones, and only they. -/
theorem sentParams_valid_iff :
    (∀ w ∈ sentParams exttype params, w.Valid exttype) ↔ ValidParams exttype params := by
  have hget : ∀ id, id ≠ .omitConnectionId →
    BigEndian.get (wireParam params id).value = id.field params :=
    fun id hne => BigEndian.get_put_of_lt (field_lt id params hne)
  have hbidi := hget .initialMaxStreamIdBidi (by decide)
  have huni := hget .initialMaxStreamIdUni (by decide)
  have hexp := hget .ackDelayExponent (by decide)
  have hsent : (∀ w ∈ sentParams exttype params, w.Valid exttype) ↔
      ∀ id, sent exttype params id = true → InRange exttype id (wireParam params id).value := by
    constructor
    · intro h id hid
      exact (wireParam_valid_iff id).mp (h _ (mem_sentParams.mpr ⟨id, hid, rfl⟩))
    · intro h w hw
      obtain ⟨id, hid, rfl⟩ := mem_sentParams.mp hw
      exact (wireParam_valid_iff id).mpr (h id hid)
  rw [hsent]
  constructor
  · intro h
    refine ⟨?_, ?_, ?_⟩
    · by_cases hzero : params.initialMaxStreamIdBidi = 0
      · exact .inl hzero
      · have hrange := h .initialMaxStreamIdBidi
          (bne_iff_ne.mpr fun hc => hzero (UInt32.toNat_inj.mp hc))
        unfold InRange at hrange
        dsimp only at hrange
        rw [hbidi] at hrange
        exact .inr hrange
    · by_cases hzero : params.initialMaxStreamIdUni = 0
      · exact .inl hzero
      · have hrange := h .initialMaxStreamIdUni
          (bne_iff_ne.mpr fun hc => hzero (UInt32.toNat_inj.mp hc))
        unfold InRange at hrange
        dsimp only at hrange
        rw [huni] at hrange
        exact .inr hrange
    · by_cases hdefault : params.ackDelayExponent = defaultAckDelayExponent
      · rw [hdefault]
        decide
      · have hrange := h .ackDelayExponent
          (bne_iff_ne.mpr fun hc => hdefault (UInt8.toNat_inj.mp hc))
        unfold InRange at hrange
        dsimp only at hrange
        rw [hexp] at hrange
        exact hrange
  · intro h id hid
    unfold InRange
    cases id with
    | initialMaxStreamIdBidi =>
      dsimp only
      rw [hbidi]
      refine h.bidi.resolve_left ?_
      rintro hzero
      exact bne_iff_ne.mp hid (congrArg UInt32.toNat hzero)
    | initialMaxStreamIdUni =>
      dsimp only
      rw [huni]
      refine h.uni.resolve_left ?_
      rintro hzero
      exact bne_iff_ne.mp hid (congrArg UInt32.toNat hzero)
    | ackDelayExponent =>
      dsimp only
      rw [hexp]
      exact h.exponent
    | statelessResetToken => exact bne_iff_ne.mp hid
    | _ => trivial

theorem sentParams_length_lt (exttype : TransportParamsType) (params : Ngtcp2TransportParams) :
    ((sentParams exttype params).flatMap WireParam.bytes).length < 2 ^ 16 := by
  have hbound : ∀ ids : List TransportParamId,
    ((ids.map (wireParam params)).flatMap WireParam.bytes).length ≤
      20 * ids.length := by
    intro ids
    induction ids with
    | nil => exact Nat.le_refl _
    | cons id ids ih =>
      have hlen : (wireParam params id).value.length = id.valueLen := BigEndian.put_length _ _
      have hle := valueLen_le id
      rw [List.map_cons, List.flatMap_cons, List.length_append, WireParam.bytes_length, hlen,
        List.length_cons]
      omega
  have hids := hbound (encoderOrder.filter (sent exttype params))
  have hfilter := List.length_filter_le (sent exttype params) encoderOrder
  have hcount : encoderOrder.length = 18 := rfl
  unfold sentParams
  omega

theorem wireParams_fits {w : WireParam} (hw : w ∈ sentParams exttype params) : w.Fits := by
  obtain ⟨id, -, rfl⟩ := mem_sentParams.mp hw
  exact wireParam_fits params id

/-- The encoder writes well-formed input for the decoder. -/
theorem encoded_wellFormed (h : ValidParams exttype params) :
    WellFormedParams exttype (encodedParams exttype params)
    (putVersionPart exttype params) (sentParams exttype params) where
  version := putVersionPart_isVersionPart exttype params
  length := sentParams_length_lt exttype params
  data := rfl
  fits := fun w hw => wireParams_fits hw
  valid := sentParams_valid_iff.mpr h
  required := by
    intro id hid
    refine ⟨wireParam params id, mem_sentParams.mpr ⟨id, ?_, rfl⟩, rfl⟩
    cases exttype <;> simp only [requiredIds, List.mem_cons, List.not_mem_nil, or_false] at hid
    · rcases hid with rfl | rfl | rfl <;> rfl
    · rcases hid with rfl | rfl | rfl | rfl <;> rfl
    · rcases hid with rfl | rfl | rfl | rfl <;> rfl

/-- What a parameter that was not sent is after decoding. -/
def unsentField (prior : Ngtcp2TransportParams) (id : TransportParamId) : Nat :=
  match id with
  | .initialMaxStreamIdBidi | .initialMaxStreamIdUni | .omitConnectionId => 0
  | .maxPacketSize => maxPktSize.toNat
  | .ackDelayExponent => defaultAckDelayExponent.toNat
  | _ => id.field prior

theorem restoreDefaults_field (flags : Nat) (params : Ngtcp2TransportParams)
    (id : TransportParamId) :
    id.field (restoreDefaults flags params) = if hasParam flags id =
    true then id.field params else unsentField params id := by
  unfold restoreDefaults
  cases id with
  | initialMaxStreamIdBidi => exact apply_ite UInt32.toNat _ _ _
  | initialMaxStreamIdUni => exact apply_ite UInt32.toNat _ _ _
  | omitConnectionId => exact apply_ite UInt8.toNat _ _ _
  | maxPacketSize => exact apply_ite UInt16.toNat _ _ _
  | ackDelayExponent => exact apply_ite UInt8.toNat _ _ _
  | _ => exact (ite_self _).symm

/-- Decoding what was encoded: the parameters that were sent, the defaults, and what was there before. -/
theorem decode_encoded (h : ValidParams exttype params) (prior : Ngtcp2TransportParams) :
    ∃ back, ngtcp2DecodeTransportParams prior exttype (encodedParams exttype params) = ok back ∧
      (∀ id, id.field back = if sent exttype params id = true then received params id else unsentField prior id) ∧
      back.version = (withVersion exttype params prior).version ∧
      back.supportedVersions = (withVersion exttype params prior).supportedVersions := by
  have hwf := encoded_wellFormed h
  obtain ⟨st, hst⟩ : ∃ st, (sentParams exttype params).foldlM (WireParam.step exttype)
      ⟨0, withVersion exttype params prior⟩ = some st := foldlM_isSome_iff.mpr hwf.valid
  obtain ⟨hfields, hversion, hversions⟩ := foldlM_wireParam (encoderOrder_nodup.filter _) hst
  refine ⟨_, hwf.decode (decodeVersionPart_put exttype params prior _) hst, fun id => ?_, hversion,
    hversions⟩
  have hprior : ∀ id : TransportParamId, id.field (withVersion exttype params prior) =
    id.field prior := by
    intro id
    cases exttype <;> cases id <;> rfl
  have hmem : id ∈ encoderOrder.filter (sent exttype params) ↔ sent exttype params id = true := by
    rw [List.mem_filter]
    exact and_iff_right (mem_encoderOrder id)
  have hflag : hasParam st.flags id = true ↔ sent exttype params id = true := by
    rw [foldlM_hasParam hst id, hasParam_eq, Nat.zero_testBit]
    constructor
    · rintro (hc | ⟨w, hw, htype⟩)
      · cases hc
      · obtain ⟨id', hsent, rfl⟩ := mem_sentParams.mp hw
        rwa [← code_inj htype]
    · intro hsent
      exact .inr ⟨wireParam params id, mem_sentParams.mpr ⟨id, hsent, rfl⟩, rfl⟩
  rw [restoreDefaults_field]
  by_cases hsent : sent exttype params id = true
  · rw [if_pos (hflag.mpr hsent), if_pos hsent, hfields id, if_pos (hmem.mpr hsent)]
  · have hsame : ∀ id', sent exttype params id' ≠ true → id'.field st.params = id'.field prior := by
      intro id' hid'
      rw [hfields id', if_neg, hprior id']
      intro hc
      exact hid' (List.mem_filter.mp hc).2
    rw [if_neg (fun hc => hsent (hflag.mp hc)), if_neg hsent]
    unfold unsentField
    cases id with
    | initialMaxStreamIdBidi | initialMaxStreamIdUni | omitConnectionId | maxPacketSize | ackDelayExponent => rfl
    | _ => exact hsame _ hsent

/-- The decoder refuses parameters that the extension type may not carry. -/
theorem valid_of_decode {prior back : Ngtcp2TransportParams}
    (h : ngtcp2DecodeTransportParams prior exttype (encodedParams exttype params) = ok back) :
    ValidParams exttype params := by
  have hshort := sentParams_length_lt exttype params
  unfold ngtcp2DecodeTransportParams encodedParams at h
  rw [decodeVersionPart_put, ok_andThen] at h
  dsimp only at h
  rw [if_neg (by rw [List.length_append, putUint16be_length]; omega), readUint16_put hshort,
    ok_andThen] at h
  dsimp only at h
  rw [if_neg (by simp only [List.length_append, putUint16be_length]; omega)] at h
  cases hst : (sentParams exttype params).foldlM (WireParam.step exttype) ⟨0,
    withVersion exttype params prior⟩ with
  | some st => exact sentParams_valid_iff.mp (foldlM_isSome_iff.mp ⟨st, hst⟩)
  | none =>
    rw [decodeParams_malformed (by simp only [List.length_append]; omega) (fun w hw => wireParams_fits hw) hst] at h
    cases h

/-- The fields of an extension type are equal. -/
structure SameParams (exttype : TransportParamsType) (params back : Ngtcp2TransportParams) :
    Prop where
  version : exttype ≠ .newSessionTicket → back.version = params.version
  supportedVersions : exttype = .encryptedExtensions →
    back.supportedVersions = params.supportedVersions
  initialMaxStreamData : back.initialMaxStreamData = params.initialMaxStreamData
  initialMaxData : back.initialMaxData = params.initialMaxData
  initialMaxStreamIdBidi : back.initialMaxStreamIdBidi = params.initialMaxStreamIdBidi
  initialMaxStreamIdUni : back.initialMaxStreamIdUni = params.initialMaxStreamIdUni
  idleTimeout : back.idleTimeout = params.idleTimeout
  omitConnectionId : back.omitConnectionId = params.omitConnectionId
  maxPacketSize : back.maxPacketSize = params.maxPacketSize
  statelessResetToken : exttype ≠ .clientHello →
    back.statelessResetToken = params.statelessResetToken
  ackDelayExponent : back.ackDelayExponent = params.ackDelayExponent
  serverUnicastIp : back.serverUnicastIp = params.serverUnicastIp
  serverUnicastTtl : back.serverUnicastTtl = params.serverUnicastTtl
  testMetadata : back.testMetadata = params.testMetadata
  cpuSensitive : back.cpuSensitive = params.cpuSensitive
  throughputSensitive : back.throughputSensitive = params.throughputSensitive
  rttSensitive : back.rttSensitive = params.rttSensitive
  clientIp : back.clientIp = params.clientIp
  clientProcess : back.clientProcess = params.clientProcess
  timeStamp : back.timeStamp = params.timeStamp

/-- The extension type has a field for the parameter. -/
def CarriesParam (exttype : TransportParamsType) (id : TransportParamId) : Prop :=
  id = .statelessResetToken → exttype ≠ .clientHello

theorem sameParams_iff {back : Ngtcp2TransportParams} : SameParams exttype params back ↔
    (exttype ≠ .newSessionTicket → back.version = params.version) ∧
      (exttype = .encryptedExtensions → back.supportedVersions = params.supportedVersions) ∧
        ∀ id, CarriesParam exttype id → id.field back = id.field params := by
  constructor
  · intro h
    refine ⟨h.version, h.supportedVersions, fun id hcarries => ?_⟩
    cases id with
    | initialMaxStreamData => exact congrArg UInt32.toNat h.initialMaxStreamData
    | initialMaxData => exact congrArg UInt32.toNat h.initialMaxData
    | initialMaxStreamIdBidi => exact congrArg UInt32.toNat h.initialMaxStreamIdBidi
    | idleTimeout => exact congrArg UInt16.toNat h.idleTimeout
    | omitConnectionId => exact congrArg UInt8.toNat h.omitConnectionId
    | maxPacketSize => exact congrArg UInt16.toNat h.maxPacketSize
    | statelessResetToken => exact congrArg (fun token => BigEndian.get token.1) (h.statelessResetToken (hcarries rfl))
    | ackDelayExponent => exact congrArg UInt8.toNat h.ackDelayExponent
    | initialMaxStreamIdUni => exact congrArg UInt32.toNat h.initialMaxStreamIdUni
    | serverUnicastIp => exact congrArg UInt32.toNat h.serverUnicastIp
    | serverUnicastTtl => exact congrArg UInt32.toNat h.serverUnicastTtl
    | testMetadata => exact congrArg UInt32.toNat h.testMetadata
    | cpuSensitive => exact congrArg UInt32.toNat h.cpuSensitive
    | throughputSensitive => exact congrArg UInt32.toNat h.throughputSensitive
    | rttSensitive => exact congrArg UInt32.toNat h.rttSensitive
    | clientIp => exact congrArg UInt64.toNat h.clientIp
    | clientProcess => exact congrArg UInt64.toNat h.clientProcess
    | timeStamp => exact congrArg UInt64.toNat h.timeStamp
  · rintro ⟨hversion, hversions, hfields⟩
    have hfield : ∀ id : TransportParamId, id ≠ .statelessResetToken →
      id.field back = id.field params :=
      fun id hne => hfields id fun hc => absurd hc hne
    exact {
      version := hversion
      supportedVersions := hversions
      initialMaxStreamData := UInt32.toNat_inj.mp (hfield .initialMaxStreamData (by decide))
      initialMaxData := UInt32.toNat_inj.mp (hfield .initialMaxData (by decide))
      initialMaxStreamIdBidi := UInt32.toNat_inj.mp (hfield .initialMaxStreamIdBidi (by decide))
      initialMaxStreamIdUni := UInt32.toNat_inj.mp (hfield .initialMaxStreamIdUni (by decide))
      idleTimeout := UInt16.toNat_inj.mp (hfield .idleTimeout (by decide))
      omitConnectionId := UInt8.toNat_inj.mp (hfield .omitConnectionId (by decide))
      maxPacketSize := UInt16.toNat_inj.mp (hfield .maxPacketSize (by decide))
      statelessResetToken := fun hne => Subtype.ext (BigEndian.get_inj
        (back.statelessResetToken.2.trans params.statelessResetToken.2.symm)
        (hfields .statelessResetToken fun _ => hne))
      ackDelayExponent := UInt8.toNat_inj.mp (hfield .ackDelayExponent (by decide))
      serverUnicastIp := UInt32.toNat_inj.mp (hfield .serverUnicastIp (by decide))
      serverUnicastTtl := UInt32.toNat_inj.mp (hfield .serverUnicastTtl (by decide))
      testMetadata := UInt32.toNat_inj.mp (hfield .testMetadata (by decide))
      cpuSensitive := UInt32.toNat_inj.mp (hfield .cpuSensitive (by decide))
      throughputSensitive := UInt32.toNat_inj.mp (hfield .throughputSensitive (by decide))
      rttSensitive := UInt32.toNat_inj.mp (hfield .rttSensitive (by decide))
      clientIp := UInt64.toNat_inj.mp (hfield .clientIp (by decide))
      clientProcess := UInt64.toNat_inj.mp (hfield .clientProcess (by decide))
      timeStamp := UInt64.toNat_inj.mp (hfield .timeStamp (by decide)) }

/-- The parameters whose default the decoder does not restore. -/
def addedIds : List TransportParamId :=
  [.serverUnicastIp, .serverUnicastTtl, .testMetadata, .cpuSensitive, .throughputSensitive,
    .rttSensitive, .clientIp,
   .clientProcess, .timeStamp]

/-- Nothing is left from before in a parameter that is not sent, and a flag is sent as 1. -/
structure NothingLeft (params prior : Ngtcp2TransportParams) : Prop where
  added : ∀ id ∈ addedIds, id.field params = 0 → id.field prior = 0
  omitConnectionId : params.omitConnectionId.toNat ≤ 1

/-- One parameter survives the round trip. -/
theorem field_back_iff (params prior : Ngtcp2TransportParams) {id : TransportParamId}
    (hcarries : CarriesParam exttype id) :
    ((if sent exttype params id = true then received params id else unsentField prior id) = id.field params) ↔
      (id ∈ addedIds → id.field params = 0 → id.field prior = 0) ∧
        (id = .omitConnectionId → params.omitConnectionId.toNat ≤ 1) := by
  have hzero : ∀ n : Nat, (n != 0) ≠ true → n = 0 := by
    intro n hn
    simpa using hn
  cases id with
  | initialMaxStreamData | initialMaxData | idleTimeout => simp [sent, received, addedIds]
  | statelessResetToken =>
    have hsent : sent exttype params .statelessResetToken = true := bne_iff_ne.mpr (hcarries rfl)
    rw [if_pos hsent]
    simp [received, addedIds]
  | omitConnectionId =>
    unfold sent received unsentField TransportParamId.field
    simp only [bne_iff_ne, ne_eq, ite_true, ite_not, reduceCtorEq, addedIds, List.mem_cons,
      List.not_mem_nil, or_self,
      false_imp_iff, true_and, forall_const]
    split
    · omega
    · omega
  | initialMaxStreamIdBidi | initialMaxStreamIdUni | maxPacketSize | ackDelayExponent =>
    unfold sent received unsentField TransportParamId.field
    simp only [bne_iff_ne, ne_eq, ite_not, reduceCtorEq, addedIds, List.mem_cons, List.not_mem_nil,
      or_self,
      false_imp_iff, ite_false, and_self, iff_true]
    split
    · next h => exact h.symm
    · rfl
  | _ =>
    unfold sent received unsentField
    simp only [bne_iff_ne, ne_eq, ite_not, reduceCtorEq, addedIds, List.mem_cons, true_or, or_true,
      false_imp_iff,
      ite_false, and_true, true_imp_iff]
    split
    · next h =>
      rw [h]
      simp
    · next h => simp [h]

theorem encoded_roundTrip_iff (hvalid : ValidParams exttype params)
    (prior : Ngtcp2TransportParams) :
    (∃ back, ngtcp2DecodeTransportParams prior exttype (encodedParams exttype params) = ok back ∧
      SameParams exttype params back) ↔
      NothingLeft params prior := by
  obtain ⟨back, hdecode, hfields, hversion, hversions⟩ := decode_encoded hvalid prior
  have hsame : SameParams exttype params back ↔ NothingLeft params prior := by
    rw [sameParams_iff]
    have hversion' : exttype ≠ .newSessionTicket → back.version = params.version := by
      intro hne
      rw [hversion]
      cases exttype <;> first | rfl | exact absurd rfl hne
    have hversions' : exttype = .encryptedExtensions →
      back.supportedVersions = params.supportedVersions := by
      rintro rfl
      exact hversions
    constructor
    · rintro ⟨-, -, h⟩
      constructor
      · intro id hid
        have hcarries : CarriesParam exttype id := by
          rintro rfl
          exact absurd hid (by decide)
        have hback := h id hcarries
        rw [hfields id, field_back_iff params prior hcarries] at hback
        exact hback.1 hid
      · have hcarries : CarriesParam exttype .omitConnectionId := fun hc => by cases hc
        have hback := h .omitConnectionId hcarries
        rw [hfields _, field_back_iff params prior hcarries] at hback
        exact hback.2 rfl
    · intro h
      refine ⟨hversion', hversions', fun id hcarries => ?_⟩
      rw [hfields id, field_back_iff params prior hcarries]
      exact ⟨h.added id, fun _ => h.omitConnectionId⟩
  constructor
  · rintro ⟨back', hdecode', hback'⟩
    rw [hdecode, ok_inj] at hdecode'
    obtain rfl := hdecode'
    exact hsame.mp hback'
  · intro h
    exact ⟨back, hdecode, hsame.mpr h⟩

/-- Encoding and decoding yields the same parameters exactly if nothing is left from before. -/
theorem transportParams_roundTrip {destlen : Nat} {bytes : List UInt8}
    (hvalid : ValidParams exttype params)
    (henc : ngtcp2EncodeTransportParams destlen exttype params = .ok bytes)
    (prior : Ngtcp2TransportParams) :
    (∃ back, ngtcp2DecodeTransportParams prior exttype bytes = ok back ∧
    SameParams exttype params back) ↔
      NothingLeft params prior := by
  rw [ngtcp2EncodeTransportParams_eq] at henc
  split at henc
  · cases henc
  obtain rfl := Except.ok.inj henc
  exact encoded_roundTrip_iff hvalid prior

end

/-- Parameters with nothing optional. -/
def plainParams : Ngtcp2TransportParams :=
  { version := 1, supportedVersions := ⟨[1], by decide⟩, initialMaxStreamData := 9, initialMaxData := 9
    initialMaxStreamIdBidi := 0, initialMaxStreamIdUni := 0, idleTimeout := 30, omitConnectionId :=
      0
    maxPacketSize := maxPktSize, statelessResetToken := ⟨List.replicate 16 0, by decide⟩
    ackDelayExponent := defaultAckDelayExponent, serverUnicastIp := 0, serverUnicastTtl :=
      0, testMetadata := 0
    cpuSensitive := 0, throughputSensitive := 0, rttSensitive := 0, clientIp := 0, clientProcess :=
      0, timeStamp := 0 }

theorem plainParams_valid (exttype : TransportParamsType) : ValidParams exttype plainParams where
  bidi := .inl rfl
  uni := .inl rfl
  exponent := by decide

/-- They come back into a structure of zeros. -/
theorem transportParams_roundTrip_plain :
    ∃ back, ngtcp2DecodeTransportParams plainParams .clientHello
      [0, 0, 0, 1, 0, 22, 0, 0, 0, 4, 0, 0, 0, 9, 0, 1, 0, 4, 0, 0, 0, 9, 0, 3, 0, 2, 0, 30] =
      ok back ∧
      SameParams .clientHello plainParams back :=
  have henc : ngtcp2EncodeTransportParams 28 .clientHello plainParams =
      .ok [0, 0, 0, 1, 0, 22, 0, 0, 0, 4, 0, 0, 0, 9, 0, 1, 0, 4, 0, 0, 0, 9, 0, 3, 0, 2, 0, 30] := by
        decide
  (transportParams_roundTrip (plainParams_valid .clientHello) henc plainParams).mpr ⟨by decide, by decide⟩

/-- An address that the structure held before is taken for one that was sent. -/
theorem transportParams_roundTrip_stale :
    ¬∀ (exttype : TransportParamsType) (params prior : Ngtcp2TransportParams)
    (destlen : Nat) (bytes : List UInt8), ValidParams exttype params →
      ngtcp2EncodeTransportParams destlen exttype params = .ok bytes →
        ∃ back, ngtcp2DecodeTransportParams prior exttype bytes = ok back ∧
        SameParams exttype params back := by
  intro h
  have hvalid := plainParams_valid .clientHello
  have henc := ngtcp2EncodeTransportParams_eq 28 .clientHello plainParams
  rw [if_neg (by decide)] at henc
  have hleft := (encoded_roundTrip_iff hvalid _).mp
    (h _ _ { plainParams with serverUnicastIp := 1 } _ _ hvalid henc)
  have hzero := hleft.added .serverUnicastIp (by decide) rfl
  exact absurd hzero (by decide)

end Ngtcp2
