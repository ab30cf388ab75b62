import Polygon.ConnApi
import Polygon.Conv
import Polygon.Lib.Checked

/-!
# Transport parameters

The encoder and the decoder of transport parameters in `ngtcp2_crypto.c`, with all
the fields that are exchanged. The decoder reads through a cursor, so that a read
behind the end of the input and a write behind the end of an array show.
-/
namespace Ngtcp2

open Checked

/-- `stateless_reset_token` of `NGTCP2_STATELESS_RESET_TOKENLEN` bytes. -/
abbrev ResetToken := { token : List UInt8 // token.length = 16 }

/-- The first `v.ee.len` elements of `v.ee.supported_versions`, an array of 63. -/
abbrev SupportedVersions := { versions : List UInt32 // versions.length ≤ 63 }

/-- `ngtcp2_transport_params`. `v.ch.initial_version` and `v.ee.negotiated_version` are the
same word of the union `v`. -/
structure Ngtcp2TransportParams where
  version : UInt32
  supportedVersions : SupportedVersions
  initialMaxStreamData : UInt32
  initialMaxData : UInt32
  initialMaxStreamIdBidi : UInt32
  initialMaxStreamIdUni : UInt32
  idleTimeout : UInt16
  omitConnectionId : UInt8
  maxPacketSize : UInt16
  statelessResetToken : ResetToken
  ackDelayExponent : UInt8
  serverUnicastIp : UInt32
  serverUnicastTtl : UInt32
  testMetadata : UInt32
  cpuSensitive : UInt32
  throughputSensitive : UInt32
  rttSensitive : UInt32
  clientIp : UInt64
  clientProcess : UInt64
  timeStamp : UInt64
  deriving DecidableEq

/-- `ngtcp2_transport_param_id`. -/
inductive TransportParamId where
  | initialMaxStreamData | initialMaxData | initialMaxStreamIdBidi | idleTimeout | omitConnectionId | maxPacketSize
  | statelessResetToken | ackDelayExponent | initialMaxStreamIdUni | serverUnicastIp | serverUnicastTtl
  | testMetadata | cpuSensitive | throughputSensitive | rttSensitive | clientIp | clientProcess | timeStamp
  deriving DecidableEq, Repr

/-- The values of the enumeration. -/
def TransportParamId.code : TransportParamId → Nat
  | .initialMaxStreamData => 0
  | .initialMaxData => 1
  | .initialMaxStreamIdBidi => 2
  | .idleTimeout => 3
  | .omitConnectionId => 4
  | .maxPacketSize => 5
  | .statelessResetToken => 6
  | .ackDelayExponent => 7
  | .initialMaxStreamIdUni => 8
  | .serverUnicastIp => 9
  | .serverUnicastTtl => 10
  | .testMetadata => 11
  | .cpuSensitive => 12
  | .throughputSensitive => 13
  | .rttSensitive => 14
  | .clientIp => 15
  | .clientProcess => 16
  | .timeStamp => 17

/-- The parameters in the order of their codes. -/
def transportParamIds : List TransportParamId :=
  [.initialMaxStreamData, .initialMaxData, .initialMaxStreamIdBidi, .idleTimeout, .omitConnectionId,
    .maxPacketSize,
   .statelessResetToken, .ackDelayExponent, .initialMaxStreamIdUni, .serverUnicastIp,
     .serverUnicastTtl,
   .testMetadata, .cpuSensitive, .throughputSensitive, .rttSensitive, .clientIp, .clientProcess,
     .timeStamp]

/-- The case of the decoder's `switch` for a type. -/
def TransportParamId.ofCode (type : Nat) : Option TransportParamId := transportParamIds[type]?

/-- `NGTCP2_MAX_PKT_SIZE` and `NGTCP2_DEFAULT_ACK_DELAY_EXPONENT`. -/
def maxPktSize : UInt16 := 65527
def defaultAckDelayExponent : UInt8 := 3

/-! ## The encoder -/

/-- `vlen` of the encoder. -/
def versionPartLen (exttype : TransportParamsType) (params : Ngtcp2TransportParams) : Nat :=
  match exttype with
  | .clientHello => 4
  | .encryptedExtensions => 4 + 1 + params.supportedVersions.1.length * 4
  | .newSessionTicket => 0

/-- `len` of the encoder. -/
def transportParamsLen (exttype : TransportParamsType) (params : Ngtcp2TransportParams) : Nat :=
  2 + 8 + 8 + 6 + (match exttype with
    | .clientHello => 0
    | _ => 20) + versionPartLen exttype params +
  (if params.initialMaxStreamIdBidi ≠ 0 then 8 else 0) +
  (if params.initialMaxStreamIdUni ≠ 0 then 8 else 0) +
  (if params.omitConnectionId ≠ 0 then 4 else 0) +
  (if params.maxPacketSize ≠ maxPktSize then 6 else 0) +
  (if params.ackDelayExponent ≠ defaultAckDelayExponent then 5 else 0) +
  (if params.serverUnicastIp ≠ 0 then 8 else 0) +
  (if params.serverUnicastTtl ≠ 0 then 8 else 0) +
  (if params.testMetadata ≠ 0 then 8 else 0) +
  (if params.cpuSensitive ≠ 0 then 8 else 0) +
  (if params.throughputSensitive ≠ 0 then 8 else 0) +
  (if params.rttSensitive ≠ 0 then 8 else 0) +
  (if params.clientIp ≠ 0 then 12 else 0) +
  (if params.clientProcess ≠ 0 then 12 else 0) +
  (if params.timeStamp ≠ 0 then 12 else 0)

/-- A parameter: its type, the length of its value, and the value. -/
def putParam (id : TransportParamId) (valuelen : Nat) (value : List UInt8) : List UInt8 :=
  putUint16be id.code ++ putUint16be valuelen ++ value

/-- The version part of the encoder. -/
def putVersionPart (exttype : TransportParamsType) (params : Ngtcp2TransportParams) : List UInt8 :=
  match exttype with
  | .clientHello => putUint32be params.version.toNat
  | .encryptedExtensions =>
    putUint32be params.version.toNat ++ UInt8.ofNat (params.supportedVersions.1.length * 4) ::
      params.supportedVersions.1.flatMap fun version => putUint32be version.toNat
  | .newSessionTicket => []

/-- The parameters in the encoder's order. -/
def putParams (exttype : TransportParamsType) (params : Ngtcp2TransportParams) : List UInt8 :=
  putParam .initialMaxStreamData 4 (putUint32be params.initialMaxStreamData.toNat) ++
  putParam .initialMaxData 4 (putUint32be params.initialMaxData.toNat) ++
  putParam .idleTimeout 2 (putUint16be params.idleTimeout.toNat) ++
  (match exttype with
    | .clientHello => []
    | _ => putParam .statelessResetToken 16 params.statelessResetToken.1) ++
  (if params.initialMaxStreamIdBidi ≠ 0 then
    putParam .initialMaxStreamIdBidi 4 (putUint32be params.initialMaxStreamIdBidi.toNat) else []) ++
  (if params.initialMaxStreamIdUni ≠ 0 then
    putParam .initialMaxStreamIdUni 4 (putUint32be params.initialMaxStreamIdUni.toNat) else []) ++
  (if params.omitConnectionId ≠ 0 then putParam .omitConnectionId 0 [] else []) ++
  (if params.maxPacketSize ≠ maxPktSize then
    putParam .maxPacketSize 2 (putUint16be params.maxPacketSize.toNat) else []) ++
  (if params.serverUnicastIp ≠ 0 then
    putParam .serverUnicastIp 4 (putUint32be params.serverUnicastIp.toNat) else []) ++
  (if params.serverUnicastTtl ≠ 0 then
    putParam .serverUnicastTtl 4 (putUint32be params.serverUnicastTtl.toNat) else []) ++
  (if params.testMetadata ≠ 0 then putParam .testMetadata 4 (putUint32be params.testMetadata.toNat) else []) ++
  (if params.cpuSensitive ≠ 0 then putParam .cpuSensitive 4 (putUint32be params.cpuSensitive.toNat) else []) ++
  (if params.throughputSensitive ≠ 0 then
    putParam .throughputSensitive 4 (putUint32be params.throughputSensitive.toNat) else []) ++
  (if params.rttSensitive ≠ 0 then putParam .rttSensitive 4 (putUint32be params.rttSensitive.toNat) else []) ++
  (if params.clientIp ≠ 0 then putParam .clientIp 8 (putUint64be params.clientIp.toNat) else []) ++
  (if params.clientProcess ≠ 0 then putParam .clientProcess 8 (putUint64be params.clientProcess.toNat) else []) ++
  (if params.timeStamp ≠ 0 then putParam .timeStamp 8 (putUint64be params.timeStamp.toNat) else []) ++
  (if params.ackDelayExponent ≠ defaultAckDelayExponent then
    putParam .ackDelayExponent 1 [params.ackDelayExponent] else [])

/-- `ngtcp2_encode_transport_params`: the bytes written, as many as it returns. -/
def ngtcp2EncodeTransportParams (destlen : Nat) (exttype : TransportParamsType)
    (params : Ngtcp2TransportParams) :
    Except Err (List UInt8) :=
  let len := transportParamsLen exttype params
  if destlen < len then .error .noBuf
  else
    let bytes := putVersionPart exttype params ++ putUint16be
      (len - versionPartLen exttype params - 2) ++
      putParams exttype params
    if bytes.length = len then .ok bytes else .error .abort

/-! ## The decoder -/

/-- `ngtcp2_get_uint16` at the cursor, and the cursor behind it. -/
def readUint16 (p : List UInt8) : Outcome Err (Nat × List UInt8) :=
  andThen (read 2 p) fun (bytes, p) => ok (BigEndian.get bytes, p)

/-- `ngtcp2_get_uint32` at the cursor, and the cursor behind it. -/
def readUint32 (p : List UInt8) : Outcome Err (Nat × List UInt8) :=
  andThen (read 4 p) fun (bytes, p) => ok (BigEndian.get bytes, p)

/-- `k` supported versions. -/
def readVersions : Nat → List UInt8 → Outcome Err (List UInt32 × List UInt8)
  | 0, p => ok ([], p)
  | k + 1, p =>
    andThen (readUint32 p) fun (version, p) =>
    andThen (readVersions k p) fun (versions, p) =>
    ok (UInt32.ofNat version :: versions, p)

/-- The version part: `vlen`, what is stored of it, and the cursor behind it. -/
def decodeVersionPart (exttype : TransportParamsType) (params : Ngtcp2TransportParams)
    (p : List UInt8) :
    Outcome Err (Nat × Ngtcp2TransportParams × List UInt8) :=
  match exttype with
  | .clientHello =>
    if p.length < 4 then error .malformedTransportParam
    else
      andThen (readUint32 p) fun (version, p) => ok (4,
        { params with version := UInt32.ofNat version }, p)
  | .encryptedExtensions =>
    if p.length < 4 + 1 then error .malformedTransportParam
    else
      andThen (readUint32 p) fun (version, p) =>
      andThen (read 1 p) fun (len, p) =>
      let supportedVersionslen := BigEndian.get len
      if p.length < supportedVersionslen ∨
        supportedVersionslen % 4 ≠ 0 then error .malformedTransportParam
      else
        andThen (readVersions (supportedVersionslen / 4) p) fun (versions, p) =>
        -- A 64th version is written behind the array.
        if h : versions.length ≤ 63 then
          ok (4 + 1 + supportedVersionslen,
            { params with version := UInt32.ofNat version, supportedVersions := ⟨versions, h⟩ }, p)
        else none
  | .newSessionTicket => ok (0, params, p)

/-- `valid_stream_id_bidi`. -/
def validStreamIdBidi (n : Nat) : TransportParamsType → Bool
  | .clientHello => n &&& 0x3 == 0x1
  | .encryptedExtensions | .newSessionTicket => n &&& 0x3 == 0x0

/-- `valid_stream_id_uni`. -/
def validStreamIdUni (n : Nat) : TransportParamsType → Bool
  | .clientHello => n &&& 0x3 == 0x3
  | .encryptedExtensions | .newSessionTicket => n &&& 0x3 == 0x2

/-- The length that the value of a known parameter must have. -/
def TransportParamId.valueLen : TransportParamId → Nat
  | .omitConnectionId => 0
  | .ackDelayExponent => 1
  | .idleTimeout | .maxPacketSize => 2
  | .statelessResetToken => 16
  | .clientIp | .clientProcess | .timeStamp => 8
  | _ => 4

/-- The value of a parameter is stored, unless it is out of the parameter's range. -/
def storeParam (exttype : TransportParamsType) (params : Ngtcp2TransportParams)
    (id : TransportParamId)
    (value : List UInt8) : Option Ngtcp2TransportParams :=
  let n := BigEndian.get value
  match id with
  | .initialMaxStreamData => some { params with initialMaxStreamData := UInt32.ofNat n }
  | .initialMaxData => some { params with initialMaxData := UInt32.ofNat n }
  | .initialMaxStreamIdBidi =>
    if validStreamIdBidi n exttype then some { params with initialMaxStreamIdBidi := UInt32.ofNat n } else none
  | .initialMaxStreamIdUni =>
    if validStreamIdUni n exttype then some { params with initialMaxStreamIdUni := UInt32.ofNat n } else none
  | .idleTimeout => some { params with idleTimeout := UInt16.ofNat n }
  | .omitConnectionId => some { params with omitConnectionId := 1 }
  | .maxPacketSize => some { params with maxPacketSize := UInt16.ofNat n }
  | .statelessResetToken =>
    if h : value.length = 16 then some { params with statelessResetToken := ⟨value, h⟩ } else none
  | .serverUnicastIp => some { params with serverUnicastIp := UInt32.ofNat n }
  | .serverUnicastTtl => some { params with serverUnicastTtl := UInt32.ofNat n }
  | .testMetadata => some { params with testMetadata := UInt32.ofNat n }
  | .cpuSensitive => some { params with cpuSensitive := UInt32.ofNat n }
  | .throughputSensitive => some { params with throughputSensitive := UInt32.ofNat n }
  | .rttSensitive => some { params with rttSensitive := UInt32.ofNat n }
  | .clientIp => some { params with clientIp := UInt64.ofNat n }
  | .clientProcess => some { params with clientProcess := UInt64.ofNat n }
  | .timeStamp => some { params with timeStamp := UInt64.ofNat n }
  | .ackDelayExponent => if n > 20 then none else some { params with ackDelayExponent := UInt8.ofNat n }

/-- `flags` and `params` of the decoder. -/
structure ParamsState where
  flags : Nat
  params : Ngtcp2TransportParams

/-- A known parameter: the length of its value is read and checked, then the value. -/
def decodeKnownParam (exttype : TransportParamsType) (st : ParamsState) (id : TransportParamId)
    (p : List UInt8) :
    Outcome Err (ParamsState × List UInt8) :=
  if id = .statelessResetToken ∧ exttype = .clientHello then error .malformedTransportParam
  else
    andThen (readUint16 p) fun (valuelen, p) =>
    if valuelen ≠ id.valueLen then error .malformedTransportParam
    else if p.length < id.valueLen then error .malformedTransportParam
    else
      andThen (read id.valueLen p) fun (value, p) =>
      match storeParam exttype st.params id value with
      | none => error .malformedTransportParam
      | some params => ok (⟨st.flags ||| 1 <<< id.code, params⟩, p)

/-- An unknown parameter is skipped. -/
def skipParam (st : ParamsState) (p : List UInt8) : Outcome Err (ParamsState × List UInt8) :=
  andThen (readUint16 p) fun (valuelen, p) =>
  if p.length < valuelen then error .malformedTransportParam else ok (st, p.drop valuelen)

/-- One round of the decoder's loop. -/
def decodeParam (exttype : TransportParamsType) (st : ParamsState) (p : List UInt8) :
    Outcome Err (ParamsState × List UInt8) :=
  andThen (readUint16 p) fun (paramType, p) =>
  match TransportParamId.ofCode paramType with
  | some id => decodeKnownParam exttype st id p
  | none => skipParam st p

/-- The decoder's loop; `none` also if it makes more than `fuel` rounds. -/
def decodeParams (exttype : TransportParamsType) : Nat → ParamsState → List UInt8 →
    Outcome Err (ParamsState × List UInt8)
  | 0, _, _ => none
  | fuel + 1, st, p =>
    if 2 * 2 ≤ p.length then
      andThen (decodeParam exttype st p) fun (st, p) => decodeParams exttype fuel st p
    else ok (st, p)

/-- `NGTCP2_REQUIRED_TRANSPORT_PARAMS`. -/
def requiredTransportParams : Nat :=
  1 <<< TransportParamId.initialMaxStreamData.code ||| 1 <<< TransportParamId.initialMaxData.code |||
    1 <<< TransportParamId.idleTimeout.code

/-- The bit of a parameter in `flags`. -/
def hasParam (flags : Nat) (id : TransportParamId) : Bool := flags &&& 1 <<< id.code != 0

/-- The defaults of the parameters that were not received. -/
def restoreDefaults (flags : Nat) (params : Ngtcp2TransportParams) : Ngtcp2TransportParams :=
  { params with
    initialMaxStreamIdBidi :=
      if hasParam flags .initialMaxStreamIdBidi then params.initialMaxStreamIdBidi else 0
    initialMaxStreamIdUni :=
      if hasParam flags .initialMaxStreamIdUni then params.initialMaxStreamIdUni else 0
    omitConnectionId := if hasParam flags .omitConnectionId then params.omitConnectionId else 0
    maxPacketSize := if hasParam flags .maxPacketSize then params.maxPacketSize else maxPktSize
    ackDelayExponent :=
      if hasParam flags .ackDelayExponent then params.ackDelayExponent else defaultAckDelayExponent }

/-- `ngtcp2_decode_transport_params` into a structure that holds `params`. What it holds after
an error is not given. -/
def ngtcp2DecodeTransportParams (params : Ngtcp2TransportParams) (exttype : TransportParamsType)
    (data : List UInt8) : Outcome Err Ngtcp2TransportParams :=
  andThen (decodeVersionPart exttype params data) fun (vlen, params, p) =>
  if p.length < 2 then error .malformedTransportParam
  else
    andThen (readUint16 p) fun (len, p) =>
    if vlen + 2 + len ≠ data.length then error .malformedTransportParam
    else
      andThen (decodeParams exttype (data.length + 1) ⟨0, params⟩ p) fun (st, p) =>
      if p.length ≠ 0 then error .malformedTransportParam
      else if st.flags &&& requiredTransportParams ≠ requiredTransportParams then error .requiredTransportParam
      else if exttype ≠ .clientHello ∧ hasParam st.flags .statelessResetToken = false then
        error .requiredTransportParam
      else ok (restoreDefaults st.flags st.params)

end Ngtcp2
