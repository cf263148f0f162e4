import AivpnSpec.Wire.ControlPayload

/-!
# The decoder of control messages

`crates/aivpn-common/src/protocol.rs:1068-1752`. Every variant is read at absolute offsets behind
its own length checks; trailing bytes are ignored unless a variant says otherwise. Variants of one
shape share a reader.
-/

namespace AivpnSpec.Wire.ControlPayload

open AivpnSpec.Base AivpnSpec.Common AivpnSpec.Server

/-- `Error::InvalidPacket`. -/
def invalid {α : Type} (message : String) : Except Error α := .error (.invalidPacket message)

def decodeByte (name : String) (build : UInt8 → ControlPayload) (data : Bytes) :
    Except Error ControlPayload :=
  if data.length < 2 then invalid (name ++ " too short") else .ok (build (byteAt data 1))

def decodeU64 (name : String) (build : UInt64 → ControlPayload) (data : Bytes) :
    Except Error ControlPayload :=
  if data.length < 9 then invalid (name ++ " too short") else .ok (build (u64At data 1))

def decodeU16Field (name : String) (build : Bytes → ControlPayload) (data : Bytes) :
    Except Error ControlPayload :=
  if data.length < 3 then invalid (name ++ " too short")
  else
    let length := (u16At data 1).toNat
    if data.length < 3 + length then invalid (name ++ " invalid length")
    else .ok (build (slice data 3 length))

def decodeU32Field (name : String) (build : Bytes → ControlPayload) (data : Bytes) :
    Except Error ControlPayload :=
  if data.length < 5 then invalid (name ++ " too short")
  else
    let length := (u32At data 1).toNat
    if data.length - 5 < length then invalid (name ++ " invalid length")
    else .ok (build (slice data 5 length))

def decodeEntries {α : Type} (entry : Bytes → Nat → Except Error (α × Nat)) (data : Bytes) :
    Nat → Nat → Except Error (List α × Nat)
  | 0, offset => .ok ([], offset)
  | count + 1, offset => do
    let (first, next) ← entry data offset
    let (rest, stop) ← decodeEntries entry data count next
    return (first :: rest, stop)

variable (data : Bytes)

/-- `KeyRotate`, `protocol.rs:1080-1096`. -/
def decodeKeyRotate : Except Error ControlPayload :=
  if data.length < 6 then invalid "KeyRotate too short"
  else
    let length := (u16At data 2).toNat
    if length ≠ 32 then invalid "KeyRotate: invalid eph pub key length"
    else if data.length < 4 + length then invalid "KeyRotate invalid length"
    else .ok (keyRotate (arrayAt 32 data 4))

/-- `MaskUpdate`, `protocol.rs:1097-1112`. -/
def decodeMaskUpdate : Except Error ControlPayload :=
  if data.length < 4 then invalid "MaskUpdate too short"
  else
    let maskLen := (u16At data 1).toNat
    if data.length < 3 + maskLen + 64 then invalid "MaskUpdate invalid length"
    else .ok (maskUpdate (slice data 3 maskLen) (arrayAt 64 data (3 + maskLen)))

/-- `Keepalive`, `protocol.rs:1113-1120`: without a timestamp it is zero. -/
def decodeKeepalive : Except Error ControlPayload :=
  .ok (keepalive (if 9 ≤ data.length then u64At data 1 else 0))

/-- `TelemetryResponse`, `protocol.rs:1129-1139`. -/
def decodeTelemetryResponse : Except Error ControlPayload :=
  if data.length < 12 then invalid "TelemetryResponse too short"
  else
    .ok (telemetryResponse (u16At data 2) (u16At data 4) (u16At data 6) (byteAt data 8))

/-- `PoolStateDigest`, `protocol.rs:1160-1167`. -/
def decodePoolStateDigest : Except Error ControlPayload :=
  if data.length < 1 + 32 then invalid "PoolStateDigest too short"
  else .ok (poolStateDigest (arrayAt 32 data 1))

/-- `PoolBucketDigests`, `protocol.rs:1168-1186`. -/
def decodePoolBucketDigests : Except Error ControlPayload :=
  if data.length < 6 then invalid "PoolBucketDigests too short"
  else
    let payloadLen := (u32At data 1).toNat
    if payloadLen < 1 then invalid "PoolBucketDigests invalid length"
    else if data.length - 5 < payloadLen then invalid "PoolBucketDigests invalid length"
    else .ok (poolBucketDigests (slice data 6 (payloadLen - 1)) (byteAt data 5 ≠ 0))

/-- `NodeEnrollment`, `protocol.rs:1187-1239`. -/
def decodeNodeEnrollment : Except Error ControlPayload :=
  if data.length < 9 then invalid "NodeEnrollment too short"
  else
    let totalLen := (u32At data 1).toNat
    if data.length - 5 < totalLen then invalid "NodeEnrollment invalid length"
    else if totalLen < 4 + 32 + 8 + 64 then invalid "NodeEnrollment invalid length"
    else
      let nodeIdLen := (u32At data 5).toNat
      if nodeIdLen ≠ totalLen - (4 + 32 + 8 + 64) then invalid "NodeEnrollment length mismatch"
      else if data.length < 9 + nodeIdLen then invalid "NodeEnrollment node_id truncated"
      else if data.length < 9 + nodeIdLen + 32 + 8 + 64 then invalid "NodeEnrollment truncated"
      else
        .ok (nodeEnrollment (fromUtf8Lossy (slice data 9 nodeIdLen))
          (arrayAt 32 data (9 + nodeIdLen)) (u64At data (9 + nodeIdLen + 32))
          (arrayAt 64 data (9 + nodeIdLen + 32 + 8)))

/-- `ControlAck`, `protocol.rs:1240-1248`. -/
def decodeControlAck : Except Error ControlPayload :=
  if data.length < 4 then invalid "ControlAck too short"
  else .ok (controlAck (u16At data 1) (byteAt data 3))

/-- `ServerHello`, `protocol.rs:1249-1268`: settings follow if there is room for the shortest. -/
def decodeServerHello (text : Ipv6Text) (data : Bytes) : Except Error ControlPayload :=
  if data.length < 1 + 32 + 64 then invalid "ServerHello too short"
  else if 97 + 12 ≤ data.length then
    let stop := min (97 + ClientNetworkConfig.wireSize) data.length
    match ClientNetworkConfig.decodeWire text (slice data 97 (stop - 97)) with
    | .error e => .error e
    | .ok config => .ok (serverHello (arrayAt 32 data 1) (arrayAt 64 data 33) (some config))
  else .ok (serverHello (arrayAt 32 data 1) (arrayAt 64 data 33) none)

/-- `RecordingAck`, `protocol.rs:1280-1292`. -/
def decodeRecordingAck : Except Error ControlPayload :=
  if data.length < 1 + 16 + 2 then invalid "RecordingAck too short"
  else
    let statusLen := (u16At data 17).toNat
    if data.length < 19 + statusLen then invalid "RecordingAck invalid length"
    else .ok (recordingAck (arrayAt 16 data 1) (fromUtf8Lossy (slice data 19 statusLen)))

/-- `RecordingStop`, `protocol.rs:1293-1300`. -/
def decodeRecordingStop : Except Error ControlPayload :=
  if data.length < 17 then invalid "RecordingStop too short"
  else .ok (recordingStop (arrayAt 16 data 1))

/-- `RecordingComplete`, `protocol.rs:1301-1331`. -/
def decodeRecordingComplete : Except Error ControlPayload :=
  if data.length < 3 then invalid "RecordingComplete too short"
  else
    let serviceLen := (u16At data 1).toNat
    if data.length < 3 + serviceLen + 2 + 4 then invalid "RecordingComplete invalid length"
    else
      let maskIdLen := (u16At data (3 + serviceLen)).toNat
      if data.length < 3 + serviceLen + 2 + maskIdLen + 4 then
        invalid "RecordingComplete invalid mask_id"
      else
        .ok (recordingComplete (fromUtf8Lossy (slice data 3 serviceLen))
          (fromUtf8Lossy (slice data (3 + serviceLen + 2) maskIdLen))
          ⟨u32At data (3 + serviceLen + 2 + maskIdLen)⟩)

/-- `RecordingStatus`, `protocol.rs:1344-1371`. -/
def decodeRecordingStatus : Except Error ControlPayload :=
  if data.length < 2 then invalid "RecordingStatus too short"
  else
    let flags := byteAt data 1
    let canRecord : Bool := flags &&& 0x01 ≠ 0
    if flags &&& 0x02 ≠ 0 then
      if data.length < 4 then invalid "RecordingStatus missing service length"
      else
        let serviceLen := (u16At data 2).toNat
        if data.length < 4 + serviceLen then invalid "RecordingStatus invalid service length"
        else .ok (recordingStatus canRecord (some (fromUtf8Lossy (slice data 4 serviceLen))))
    else .ok (recordingStatus canRecord none)

/-- `DeviceEnrollment`, `protocol.rs:1453-1465`. -/
def decodeDeviceEnrollment : Except Error ControlPayload :=
  if data.length < 65 then invalid "DeviceEnrollment too short"
  else .ok (deviceEnrollment (arrayAt 32 data 1) (arrayAt 32 data 33))

/-- `QualityReport`, `protocol.rs:1473-1483`. -/
def decodeQualityReport : Except Error ControlPayload :=
  if data.length < 10 then invalid "QualityReport too short"
  else .ok (qualityReport (byteAt data 1) (u16At data 2) (u32At data 4) (u16At data 8))

/-- `ClientHello`, `protocol.rs:1490-1502`: the length is exact and the text well formed. -/
def decodeClientHello : Except Error ControlPayload :=
  if data.length < 2 ∨ byteAt data 1 = 0 ∨ 96 < byteAt data 1 ∨
      data.length ≠ 2 + (byteAt data 1).toNat then invalid "Некорректный ClientHello"
  else
    match fromUtf8 (data.drop 2) with
    | none => invalid "Некорректный ID профиля ClientHello"
    | some maskId => .ok (clientHello maskId)

/-- An entry of `MaskFeedback`, `protocol.rs:1528-1549`. -/
def outcomeAt (offset : Nat) : Except Error (MaskOutcome × Nat) :=
  if data.length < offset + 2 then invalid "MaskFeedback entry truncated"
  else
    let idLen := (u16At data offset).toNat
    if data.length < offset + 2 + idLen + 4 then invalid "MaskFeedback entry truncated"
    else
      .ok (⟨fromUtf8Lossy (slice data (offset + 2) idLen), u16At data (offset + 2 + idLen),
        u16At data (offset + 2 + idLen + 2)⟩, offset + 2 + idLen + 4)

/-- `MaskFeedback`, `protocol.rs:1514-1557`. -/
def decodeMaskFeedback : Except Error ControlPayload :=
  if data.length < 2 then invalid "MaskFeedback too short"
  else
    let entryCount := (byteAt data 1).toNat
    if 64 < entryCount then invalid "MaskFeedback entry_count exceeds cap"
    else
      match decodeEntries outcomeAt data entryCount 2 with
      | .error e => .error e
      | .ok (entries, offset) =>
        if data.length < offset + 2 then invalid "MaskFeedback missing country code"
        else .ok (maskFeedback entries (arrayAt 2 data offset))

/-- An entry of `RegionalMaskHints`, `protocol.rs:1569-1595`: a score that is not a success rate is
refused. -/
def hintAt (offset : Nat) : Except Error ((String × F32) × Nat) :=
  if data.length < offset + 2 then invalid "RegionalMaskHints entry truncated"
  else
    let idLen := (u16At data offset).toNat
    if data.length < offset + 2 + idLen + 4 then invalid "RegionalMaskHints entry truncated"
    else
      let score : F32 := ⟨u32At data (offset + 2 + idLen)⟩
      if !score.isFinite || !score.inUnitInterval then
        invalid "RegionalMaskHints score out of range"
      else .ok ((fromUtf8Lossy (slice data (offset + 2) idLen), score), offset + 2 + idLen + 4)

/-- `RegionalMaskHints`, `protocol.rs:1558-1600`. -/
def decodeRegionalMaskHints : Except Error ControlPayload :=
  if data.length < 4 then invalid "RegionalMaskHints too short"
  else
    let count := (byteAt data 3).toNat
    if 32 < count then invalid "RegionalMaskHints count exceeds cap"
    else
      match decodeEntries hintAt data count 4 with
      | .error e => .error e
      | .ok (masks, _) => .ok (regionalMaskHints (arrayAt 2 data 1) masks)

/-- `FeedbackConfig`, `protocol.rs:1601-1612`. -/
def decodeFeedbackConfig : Except Error ControlPayload :=
  if data.length < 6 then invalid "FeedbackConfig too short"
  else .ok (feedbackConfig (byteAt data 1) (u32At data 2))

/-- An entry of `MaskCatalog`, `protocol.rs:1623-1646`. -/
def catalogEntryAt (offset : Nat) : Except Error ((String × String × Bool) × Nat) :=
  if data.length < offset + 2 then invalid "MaskCatalog entry truncated"
  else
    let idLen := (u16At data offset).toNat
    if data.length < offset + 2 + idLen + 2 then invalid "MaskCatalog entry truncated"
    else
      let labelLen := (u16At data (offset + 2 + idLen)).toNat
      if data.length < offset + 2 + idLen + 2 + labelLen + 1 then
        invalid "MaskCatalog entry truncated"
      else
        .ok ((fromUtf8Lossy (slice data (offset + 2) idLen),
          fromUtf8Lossy (slice data (offset + 2 + idLen + 2) labelLen),
          byteAt data (offset + 2 + idLen + 2 + labelLen) ≠ 0),
          offset + 2 + idLen + 2 + labelLen + 1)

/-- `MaskCatalog`, `protocol.rs:1613-1648`. -/
def decodeMaskCatalog : Except Error ControlPayload :=
  if data.length < 2 then invalid "MaskCatalog too short"
  else
    let count := (byteAt data 1).toNat
    if 64 < count then invalid "MaskCatalog count exceeds cap"
    else
      match decodeEntries catalogEntryAt data count 2 with
      | .error e => .error e
      | .ok (masks, _) => .ok (maskCatalog masks)

/-- `Capabilities`, `protocol.rs:1649-1656`. -/
def decodeCapabilities : Except Error ControlPayload :=
  if data.length < 6 then invalid "Capabilities too short"
  else .ok (capabilities (byteAt data 1) (u32At data 2))

/-- `MgmtRequest`, `protocol.rs:1657-1697`. -/
def decodeMgmtRequest : Except Error ControlPayload :=
  if data.length < 8 then invalid "MgmtRequest too short"
  else
    let pathLen := (u16At data 6).toNat
    if maxMgmtPathSize < pathLen then invalid "MgmtRequest path too long"
    else if data.length - 8 < pathLen then invalid "MgmtRequest path truncated"
    else
      let pathEnd := 8 + pathLen
      if data.length - pathEnd < 4 then invalid "MgmtRequest missing body length"
      else
        let bodyLen := (u32At data pathEnd).toNat
        if maxMgmtBodySize < bodyLen then invalid "MgmtRequest body too long"
        else if data.length - (pathEnd + 4) < bodyLen then invalid "MgmtRequest body truncated"
        else
          .ok (mgmtRequest (u32At data 1) (byteAt data 5) (fromUtf8Lossy (slice data 8 pathLen))
            (slice data (pathEnd + 4) bodyLen))

/-- `MgmtResponse`, `protocol.rs:1698-1718`. -/
def decodeMgmtResponse : Except Error ControlPayload :=
  if data.length < 11 then invalid "MgmtResponse too short"
  else
    let bodyLen := (u32At data 7).toNat
    if maxMgmtBodySize < bodyLen then invalid "MgmtResponse body too long"
    else if data.length - 11 < bodyLen then invalid "MgmtResponse body truncated"
    else .ok (mgmtResponse (u32At data 1) (u16At data 5) (slice data 11 bodyLen))

/-- `PartitionAnnounce`, `protocol.rs:1719-1750`. -/
def decodePartitionAnnounce : Except Error ControlPayload :=
  if data.length < 3 then invalid "PartitionAnnounce too short"
  else
    let cidrLen := (u16At data 1).toNat
    if data.length - 3 < cidrLen then invalid "PartitionAnnounce subnet_cidr truncated"
    else
      let cidrEnd := 3 + cidrLen
      if data.length - cidrEnd < 13 then invalid "PartitionAnnounce truncated"
      else
        .ok (partitionAnnounce (fromUtf8Lossy (slice data 3 cidrLen)) (u32At data cidrEnd)
          (u32At data (cidrEnd + 4)) (u32At data (cidrEnd + 8)) (byteAt data (cidrEnd + 12) ≠ 0))

/-- The body of a message of a known subtype. -/
def decodeBody (text : Ipv6Text) : ControlSubtype → Bytes → Except Error ControlPayload
  | .maskState => fun data => (MaskState.decodeControl data).map maskState
  | .keyRotate => decodeKeyRotate
  | .maskUpdate => decodeMaskUpdate
  | .keepalive => decodeKeepalive
  | .telemetryRequest => decodeByte "TelemetryRequest" telemetryRequest
  | .telemetryResponse => decodeTelemetryResponse
  | .timeSync => decodeU64 "TimeSync" timeSync
  | .shutdown => decodeByte "Shutdown" shutdown
  | .handshakeReject => decodeByte "HandshakeReject" handshakeReject
  | .poolStateDigest => decodePoolStateDigest
  | .poolBucketDigests => decodePoolBucketDigests
  | .nodeEnrollment => decodeNodeEnrollment
  | .controlAck => decodeControlAck
  | .serverHello => decodeServerHello text
  | .recordingStart => decodeU16Field "RecordingStart" fun b => recordingStart (fromUtf8Lossy b)
  | .recordingAck => decodeRecordingAck
  | .recordingStop => decodeRecordingStop
  | .recordingComplete => decodeRecordingComplete
  | .recordingFailed => decodeU16Field "RecordingFailed" fun b => recordingFailed (fromUtf8Lossy b)
  | .recordingStatusRequest => fun _ => .ok recordingStatusRequest
  | .recordingStatus => decodeRecordingStatus
  | .bootstrapDescriptorUpdate =>
    decodeU16Field "BootstrapDescriptorUpdate" bootstrapDescriptorUpdate
  | .poolSync => decodeU32Field "PoolSync" poolSync
  | .routeSync => decodeU32Field "RouteSync" routeSync
  | .chainForward => decodeU32Field "ChainForward" chainForward
  | .siteData => decodeU32Field "SiteData" siteData
  | .clientCert => decodeU32Field "ClientCert" clientCert
  | .certRejected => fun _ => .ok certRejected
  | .deviceEnrollment => decodeDeviceEnrollment
  | .keepaliveAck => decodeU64 "KeepaliveAck" keepaliveAck
  | .qualityReport => decodeQualityReport
  | .adaptiveHint => decodeByte "AdaptiveHint" adaptiveHint
  | .clientHello => decodeClientHello
  | .maskPreference => decodeU16Field "MaskPreference" fun b => maskPreference (fromUtf8Lossy b)
  | .maskFeedback => decodeMaskFeedback
  | .regionalMaskHints => decodeRegionalMaskHints
  | .feedbackConfig => decodeFeedbackConfig
  | .maskCatalog => decodeMaskCatalog
  | .capabilities => decodeCapabilities
  | .mgmtRequest => decodeMgmtRequest
  | .mgmtResponse => decodeMgmtResponse
  | .partitionAnnounce => decodePartitionAnnounce

/-- `ControlPayload::decode`, `protocol.rs:1068-1752`. -/
def decode (text : Ipv6Text) (data : Bytes) : Except Error ControlPayload :=
  if data.isEmpty then invalid "Empty control payload"
  else
    match ControlSubtype.fromU8 (byteAt data 0) with
    | none => invalid "Unknown control subtype"
    | some subtype => decodeBody text subtype data

end AivpnSpec.Wire.ControlPayload
