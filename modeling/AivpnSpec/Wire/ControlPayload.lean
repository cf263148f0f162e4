import AivpnSpec.Wire.MaskState

/-!
# Control messages and their encoder

`crates/aivpn-common/src/protocol.rs:65-1066`. A message is a subtype byte and the fields of its
variant. Lengths are 16-bit and checked, or 32-bit and cast; lists are cut to the number of
entries that a message may carry. A single-precision number is its bits.
-/

namespace AivpnSpec.Wire

open AivpnSpec.Base AivpnSpec.Common AivpnSpec.Server

/-- `f32`, as its bits. -/
structure F32 where
  bits : UInt32
  deriving DecidableEq

/-- `f32::is_finite`. -/
def F32.isFinite (x : F32) : Bool := (x.bits >>> 23) &&& 0xff ≠ 0xff

/-- `(0.0..=1.0).contains(&x)`: the bits of non-negative numbers are ordered as the numbers, and
negative zero equals zero. -/
def F32.inUnitInterval (x : F32) : Bool := x.bits ≤ 0x3f800000 || x.bits = 0x80000000

/-- `MaskOutcome`, `protocol.rs:638-642`. -/
structure MaskOutcome where
  maskId : String
  success : UInt16
  fail : UInt16
  deriving DecidableEq

/-- `ControlPayload`, `protocol.rs:355-633`. -/
inductive ControlPayload where
  | keyRotate (newEphPub : Bytes32)
  | maskUpdate (maskData : Bytes) (signature : Vector UInt8 64)
  | keepalive (sendTs : UInt64)
  | telemetryRequest (metricFlags : UInt8)
  | telemetryResponse (packetLoss rttMs jitterMs : UInt16) (bufferPct : UInt8)
  | timeSync (serverTsMs : UInt64)
  | shutdown (reason : UInt8)
  | handshakeReject (reason : UInt8)
  | controlAck (ackSeq : UInt16) (ackForSubtype : UInt8)
  | serverHello (serverEphPub : Bytes32) (signature : Vector UInt8 64)
      (networkConfig : Option ClientNetworkConfig)
  | recordingStart (service : String)
  | recordingAck (sessionId : Vector UInt8 16) (status : String)
  | recordingStop (sessionId : Vector UInt8 16)
  | recordingComplete (service maskId : String) (confidence : F32)
  | recordingFailed (reason : String)
  | recordingStatusRequest
  | recordingStatus (canRecord : Bool) (activeService : Option String)
  | bootstrapDescriptorUpdate (descriptorData : Bytes)
  | poolSync (clientsJson : Bytes)
  | poolStateDigest (digest : Bytes32)
  | poolBucketDigests (digests : Bytes) (replyRequested : Bool)
  | nodeEnrollment (nodeId : String) (nodePub : Bytes32) (timeWindow : UInt64)
      (signature : Vector UInt8 64)
  | routeSync (subnetsJson : Bytes)
  | chainForward (payload : Bytes)
  | clientCert (certBytes : Bytes)
  | certRejected
  | deviceEnrollment (staticPub dhProof : Bytes32)
  | keepaliveAck (echoTs : UInt64)
  | qualityReport (quality : UInt8) (rttMs : UInt16) (lossPpm : UInt32) (jitterMs : UInt16)
  | adaptiveHint (level : UInt8)
  | maskPreference (baseMaskId : String)
  | maskFeedback (entries : List MaskOutcome) (countryCode : Vector UInt8 2)
  | regionalMaskHints (countryCode : Vector UInt8 2) (masks : List (String × F32))
  | feedbackConfig (reportFailureThreshold : UInt8) (reportIntervalSecs : UInt32)
  | maskCatalog (masks : List (String × String × Bool))
  | capabilities (role : UInt8) (features : UInt32)
  | mgmtRequest (reqId : UInt32) (method : UInt8) (path : String) (body : Bytes)
  | mgmtResponse (reqId : UInt32) (status : UInt16) (body : Bytes)
  | partitionAnnounce (subnetCidr : String) (partitionIndex partitionSize numPartitions : UInt32)
      (explicit : Bool)
  | siteData (payload : Bytes)
  | clientHello (maskId : String)
  | maskState (state : MaskState)

/-- `ControlSubtype`, `protocol.rs:65-154`. -/
inductive ControlSubtype where
  | keyRotate | maskUpdate | keepalive | telemetryRequest | telemetryResponse | timeSync | shutdown
  | controlAck | serverHello | recordingStart | recordingAck | recordingStop | recordingComplete
  | recordingFailed | recordingStatusRequest | recordingStatus | bootstrapDescriptorUpdate
  | poolSync | routeSync | chainForward | clientCert | certRejected | deviceEnrollment
  | keepaliveAck | qualityReport | adaptiveHint | maskPreference | maskFeedback
  | regionalMaskHints | feedbackConfig | maskCatalog | handshakeReject | poolStateDigest
  | poolBucketDigests | nodeEnrollment | capabilities | mgmtRequest | mgmtResponse
  | partitionAnnounce | siteData | clientHello | maskState

namespace ControlSubtype

/-- The subtypes by their number, from 1 on. -/
def all : List ControlSubtype :=
  [keyRotate, maskUpdate, keepalive, telemetryRequest, telemetryResponse, timeSync, shutdown,
    controlAck, serverHello, recordingStart, recordingAck, recordingStop, recordingComplete,
    recordingFailed, recordingStatusRequest, recordingStatus, bootstrapDescriptorUpdate,
    poolSync, routeSync, chainForward, clientCert, certRejected, deviceEnrollment,
    keepaliveAck, qualityReport, adaptiveHint, maskPreference, maskFeedback,
    regionalMaskHints, feedbackConfig, maskCatalog, handshakeReject, poolStateDigest,
    poolBucketDigests, nodeEnrollment, capabilities, mgmtRequest, mgmtResponse,
    partitionAnnounce, siteData, clientHello, maskState]

/-- The discriminant, `protocol.rs:65-154`; the variants are declared in its order. -/
def toU8 (s : ControlSubtype) : UInt8 := UInt8.ofNat (s.ctorIdx + 1)

/-- `ControlSubtype::from_u8`, `protocol.rs:157-203`. -/
def fromU8 (value : UInt8) : Option ControlSubtype :=
  if value = 0 then none else all[value.toNat - 1]?

/-- Every subtype is read back from its discriminant. -/
theorem fromU8_toU8 (s : ControlSubtype) : fromU8 s.toU8 = some s := by
  cases s <;> rfl

example : [keyRotate.toU8, maskCatalog.toU8, handshakeReject.toU8, maskState.toU8] =
    [0x01, 0x1f, 0x20, 0x2a] := by decide

end ControlSubtype

namespace ControlPayload

/-- `u16::try_from(bytes.len())?.to_le_bytes()` and the bytes. -/
def u16Field (bytes : Bytes) : Except Error Bytes :=
  if bytes.length < 2 ^ 16 then .ok (leBytes 2 bytes.length ++ bytes)
  else .error (.invalidPacket "Поле управления длиннее u16")

/-- `(bytes.len() as u32).to_le_bytes()` and the bytes. -/
def u32Field (bytes : Bytes) : Bytes := leBytes 4 bytes.length ++ bytes

/-- The entries of a list, one after the other; the first that fails ends the loop. -/
def encodeEntries {α : Type} (entry : α → Except Error Bytes) : List α → Except Error Bytes
  | [] => .ok []
  | x :: xs => do
    let first ← entry x
    let rest ← encodeEntries entry xs
    return first ++ rest

/-- An entry of `MaskFeedback`. -/
def encodeOutcome (entry : MaskOutcome) : Except Error Bytes := do
  let id ← u16Field (utf8 entry.maskId)
  return id ++ u16Bytes entry.success ++ u16Bytes entry.fail

/-- An entry of `RegionalMaskHints`. -/
def encodeHint (entry : String × F32) : Except Error Bytes := do
  let id ← u16Field (utf8 entry.1)
  return id ++ u32Bytes entry.2.bits

/-- An entry of `MaskCatalog`. -/
def encodeCatalogEntry (entry : String × String × Bool) : Except Error Bytes := do
  let id ← u16Field (utf8 entry.1)
  let label ← u16Field (utf8 entry.2.1)
  return id ++ label ++ [entry.2.2.toUInt8]

/-- How many entries `MaskFeedback` carries. -/
def maxFeedbackEntries : Nat := 64

/-- How many entries `RegionalMaskHints` carries. -/
def maxHints : Nat := 32

/-- How many entries `MaskCatalog` carries. -/
def maxCatalogEntries : Nat := 64

/-- The network settings of a `ServerHello`; they are validated first. -/
def encodeNetworkConfig (text : Ipv6Text) : Option ClientNetworkConfig → Except Error Bytes
  | none => .ok []
  | some config =>
    match config.validate text with
    | .error e => .error e
    | .ok () => .ok (config.encodeWire text)

/-- The active service of a `RecordingStatus`. -/
def encodeActiveService : Option String → Except Error Bytes
  | none => .ok []
  | some service => u16Field (utf8 service)

/-- `ControlPayload::encode`, `protocol.rs:645-1066`. -/
def encode (text : Ipv6Text) : ControlPayload → Except Error Bytes
  | maskState state => state.encodeControl
  | keyRotate newEphPub =>
    .ok ([ControlSubtype.keyRotate.toU8, 0] ++ leBytes 2 32 ++ newEphPub.toList)
  | maskUpdate maskData signature => do
    let data ← u16Field maskData
    return [ControlSubtype.maskUpdate.toU8] ++ data ++ signature.toList
  | keepalive sendTs => .ok ([ControlSubtype.keepalive.toU8] ++ u64Bytes sendTs)
  | telemetryRequest metricFlags => .ok [ControlSubtype.telemetryRequest.toU8, metricFlags]
  | telemetryResponse packetLoss rttMs jitterMs bufferPct =>
    .ok ([ControlSubtype.telemetryResponse.toU8, 0] ++ u16Bytes packetLoss ++ u16Bytes rttMs ++
      u16Bytes jitterMs ++ [bufferPct, 0, 0, 0])
  | timeSync serverTsMs => .ok ([ControlSubtype.timeSync.toU8] ++ u64Bytes serverTsMs)
  | shutdown reason => .ok [ControlSubtype.shutdown.toU8, reason]
  | handshakeReject reason => .ok [ControlSubtype.handshakeReject.toU8, reason]
  | poolStateDigest digest => .ok ([ControlSubtype.poolStateDigest.toU8] ++ digest.toList)
  | poolBucketDigests digests replyRequested =>
    .ok ([ControlSubtype.poolBucketDigests.toU8] ++ leBytes 4 (1 + digests.length) ++
      [replyRequested.toUInt8] ++ digests)
  | nodeEnrollment nodeId nodePub timeWindow signature =>
    .ok ([ControlSubtype.nodeEnrollment.toU8] ++
      leBytes 4 (4 + (utf8 nodeId).length + 32 + 8 + 64) ++ u32Field (utf8 nodeId) ++
      nodePub.toList ++ u64Bytes timeWindow ++ signature.toList)
  | controlAck ackSeq ackForSubtype =>
    .ok ([ControlSubtype.controlAck.toU8] ++ u16Bytes ackSeq ++ [ackForSubtype])
  | serverHello serverEphPub signature networkConfig => do
    let config ← encodeNetworkConfig text networkConfig
    return [ControlSubtype.serverHello.toU8] ++ serverEphPub.toList ++ signature.toList ++ config
  | recordingStart service => do
    let field ← u16Field (utf8 service)
    return [ControlSubtype.recordingStart.toU8] ++ field
  | recordingAck sessionId status => do
    let field ← u16Field (utf8 status)
    return [ControlSubtype.recordingAck.toU8] ++ sessionId.toList ++ field
  | recordingStop sessionId => .ok ([ControlSubtype.recordingStop.toU8] ++ sessionId.toList)
  | recordingComplete service maskId confidence => do
    let serviceField ← u16Field (utf8 service)
    let maskField ← u16Field (utf8 maskId)
    return [ControlSubtype.recordingComplete.toU8] ++ serviceField ++ maskField ++
      u32Bytes confidence.bits
  | recordingFailed reason => do
    let field ← u16Field (utf8 reason)
    return [ControlSubtype.recordingFailed.toU8] ++ field
  | recordingStatusRequest => .ok [ControlSubtype.recordingStatusRequest.toU8]
  | recordingStatus canRecord activeService => do
    let flags : UInt8 := (if canRecord then 0x01 else 0) ||| (if activeService.isSome then 0x02 else 0)
    let service ← encodeActiveService activeService
    return [ControlSubtype.recordingStatus.toU8, flags] ++ service
  | bootstrapDescriptorUpdate descriptorData => do
    let field ← u16Field descriptorData
    return [ControlSubtype.bootstrapDescriptorUpdate.toU8] ++ field
  | poolSync clientsJson => .ok ([ControlSubtype.poolSync.toU8] ++ u32Field clientsJson)
  | routeSync subnetsJson => .ok ([ControlSubtype.routeSync.toU8] ++ u32Field subnetsJson)
  | chainForward payload => .ok ([ControlSubtype.chainForward.toU8] ++ u32Field payload)
  | clientCert certBytes => .ok ([ControlSubtype.clientCert.toU8] ++ u32Field certBytes)
  | certRejected => .ok [ControlSubtype.certRejected.toU8]
  | deviceEnrollment staticPub dhProof =>
    .ok ([ControlSubtype.deviceEnrollment.toU8] ++ staticPub.toList ++ dhProof.toList)
  | keepaliveAck echoTs => .ok ([ControlSubtype.keepaliveAck.toU8] ++ u64Bytes echoTs)
  | qualityReport quality rttMs lossPpm jitterMs =>
    .ok ([ControlSubtype.qualityReport.toU8, quality] ++ u16Bytes rttMs ++ u32Bytes lossPpm ++
      u16Bytes jitterMs)
  | adaptiveHint level => .ok [ControlSubtype.adaptiveHint.toU8, level]
  | clientHello maskId =>
    if (utf8 maskId).length = 0 ∨ 96 < (utf8 maskId).length then
      .error (.invalidPacket "Некорректная длина профиля ClientHello")
    else
      .ok ([ControlSubtype.clientHello.toU8, UInt8.ofNat (utf8 maskId).length] ++ utf8 maskId)
  | maskPreference baseMaskId => do
    let field ← u16Field (utf8 baseMaskId)
    return [ControlSubtype.maskPreference.toU8] ++ field
  | maskFeedback entries countryCode => do
    let count := min entries.length maxFeedbackEntries
    let body ← encodeEntries encodeOutcome (entries.take count)
    return [ControlSubtype.maskFeedback.toU8, UInt8.ofNat count] ++ body ++ countryCode.toList
  | regionalMaskHints countryCode masks => do
    let count := min masks.length maxHints
    let body ← encodeEntries encodeHint (masks.take count)
    return [ControlSubtype.regionalMaskHints.toU8] ++ countryCode.toList ++ [UInt8.ofNat count] ++
      body
  | feedbackConfig reportFailureThreshold reportIntervalSecs =>
    .ok ([ControlSubtype.feedbackConfig.toU8, reportFailureThreshold] ++
      u32Bytes reportIntervalSecs)
  | maskCatalog masks => do
    let count := min masks.length maxCatalogEntries
    let body ← encodeEntries encodeCatalogEntry (masks.take count)
    return [ControlSubtype.maskCatalog.toU8, UInt8.ofNat count] ++ body
  | capabilities role features =>
    .ok ([ControlSubtype.capabilities.toU8, role] ++ u32Bytes features)
  | mgmtRequest reqId method path body =>
    if maxMgmtPathSize < (utf8 path).length then
      .error (.invalidPacket "MgmtRequest path too long")
    else if maxMgmtBodySize < body.length then
      .error (.invalidPacket "MgmtRequest body too long")
    else do
      let pathField ← u16Field (utf8 path)
      return [ControlSubtype.mgmtRequest.toU8] ++ u32Bytes reqId ++ [method] ++ pathField ++
        u32Field body
  | mgmtResponse reqId status body =>
    if maxMgmtBodySize < body.length then .error (.invalidPacket "MgmtResponse body too long")
    else
      .ok ([ControlSubtype.mgmtResponse.toU8] ++ u32Bytes reqId ++ u16Bytes status ++
        u32Field body)
  | partitionAnnounce subnetCidr partitionIndex partitionSize numPartitions explicit =>
    if 2 ^ 16 ≤ (utf8 subnetCidr).length then
      .error (.invalidPacket "PartitionAnnounce subnet_cidr too long")
    else do
      let cidr ← u16Field (utf8 subnetCidr)
      return [ControlSubtype.partitionAnnounce.toU8] ++ cidr ++ u32Bytes partitionIndex ++
        u32Bytes partitionSize ++ u32Bytes numPartitions ++ [explicit.toUInt8]
  | siteData payload => .ok ([ControlSubtype.siteData.toU8] ++ u32Field payload)

end ControlPayload

end AivpnSpec.Wire
