import AivpnSpec.Wire.ControlDecode

/-!
# Control messages survive the wire

What the encoder writes, the decoder reads back, up to what the format does not carry: lists are
cut to their caps, and the network settings lose what 30 bytes do not hold. The decoder refuses
scores that are no success rates, and a 32-bit length does not hold more than four gigabytes.
-/

namespace AivpnSpec.Wire.ControlPayload

open AivpnSpec.Base AivpnSpec.Common AivpnSpec.Server
open List (length_append length_cons length_nil length_replicate mem_cons_of_mem mem_cons_self
  mem_singleton take_length take_take take_zero)

/-! ### What the format carries -/

def onWire (text : Ipv6Text) : ControlPayload → ControlPayload
  | serverHello serverEphPub signature networkConfig =>
    serverHello serverEphPub signature (networkConfig.map (ClientNetworkConfig.onWire text))
  | maskFeedback entries countryCode => maskFeedback (entries.take maxFeedbackEntries) countryCode
  | regionalMaskHints countryCode masks => regionalMaskHints countryCode (masks.take maxHints)
  | maskCatalog masks => maskCatalog (masks.take maxCatalogEntries)
  | p => p

/-- What the two sides do not check alike: 32-bit lengths hold, and scores are success rates. -/
def Carried : ControlPayload → Prop
  | poolSync bytes | routeSync bytes | chainForward bytes | siteData bytes | clientCert bytes =>
    bytes.length < 2 ^ 32
  | poolBucketDigests digests _ => 1 + digests.length < 2 ^ 32
  | nodeEnrollment nodeId _ _ _ => 4 + (utf8 nodeId).length + 32 + 8 + 64 < 2 ^ 32
  | regionalMaskHints _ masks =>
    ∀ mask ∈ masks.take maxHints, mask.2.isFinite ∧ mask.2.inUnitInterval
  | _ => True

/-! ### Fields -/

variable {field bytes : Bytes}

theorem u16Field_eq_ok (h : u16Field bytes = .ok field) :
    field = leBytes 2 bytes.length ++ bytes ∧ bytes.length < 2 ^ 16 := by
  unfold u16Field at h
  split at h
  · next hfits =>
    cases h
    exact ⟨rfl, hfits⟩
  · cases h

variable {data : Bytes}

variable (name : String)

variable {s : UInt8}

theorem decodeU64_eq (build : UInt64 → ControlPayload) {x : UInt64} (h : data = [s] ++ u64Bytes x) :
    decodeU64 name build data = .ok (build x) := by
  have hfields := fields_of_eq h
  simp only [fields_at, Nat.reduceAdd] at hfields
  obtain ⟨hfields, hlength⟩ := hfields
  rw [decodeU64, if_neg (by omega), hfields.2.u64At_eq]

variable (build : Bytes → ControlPayload)

theorem decodeU16Field_eq (hfield : u16Field bytes = .ok field) (h : data = [s] ++ field) :
    decodeU16Field name build data = .ok (build bytes) := by
  obtain ⟨rfl, hfits⟩ := u16Field_eq_ok hfield
  have hfields := fields_of_eq h
  simp only [fields_at, Nat.reduceAdd] at hfields
  obtain ⟨⟨-, hlen, hbytes⟩, hlength⟩ := hfields
  simp only [decodeU16Field, hlen.u16At_toNat hfits, hbytes.slice_eq]
  rw [if_neg (by omega), if_neg (by omega)]

variable {bytes : Bytes}

/-- A 32-bit length is cast: what it does not hold is cut off. -/
theorem decodeU32Field_cut (h : data = [s] ++ u32Field bytes) :
    decodeU32Field name build data = .ok (build (bytes.take (bytes.length % 2 ^ 32))) := by
  have hfields := fields_of_eq h
  simp only [u32Field, fields_at, Nat.reduceAdd] at hfields
  obtain ⟨⟨-, hlen, hbytes⟩, hlength⟩ := hfields
  have hcast : (u32At data 1).toNat = bytes.length % 2 ^ 32 := by
    rw [u32At, hlen.ofLe_eq, UInt32.toNat_ofNat', show 256 ^ 4 = 2 ^ 32 from rfl, Nat.mod_mod]
  have hcut : slice data 5 (bytes.length % 2 ^ 32) = bytes.take (bytes.length % 2 ^ 32) := by
    rw [slice, hbytes.drop_eq (by omega)]
  have hle := Nat.mod_le bytes.length (2 ^ 32)
  simp only [decodeU32Field, hcast, hcut]
  rw [if_neg (by omega), if_neg (by omega)]

/-! ### Lists -/

variable {body : Bytes} {offset : Nat} {α : Type}

/-- Entries that are read back one by one are read back as a list. -/
theorem decodeEntries_eq {encodeEntry : α → Except Error Bytes}
    {entryAt : Bytes → Nat → Except Error (α × Nat)} {entries : List α}
    (hentry : ∀ x ∈ entries, ∀ bytes offset, encodeEntry x = .ok bytes → HasAt data offset bytes →
      entryAt data offset = .ok (x, offset + bytes.length))
    (hbody : encodeEntries encodeEntry entries = .ok body) (h : HasAt data offset body) :
    decodeEntries entryAt data entries.length offset = .ok (entries, offset + body.length) := by
  induction entries generalizing body offset with
  | nil =>
    cases hbody
    rfl
  | cons x xs ih =>
    obtain ⟨first, hfirst, hbody⟩ := bind_eq_ok.mp hbody
    obtain ⟨rest, hrest, hbody⟩ := bind_eq_ok.mp hbody
    cases hbody
    obtain ⟨hatFirst, hatRest⟩ := hasAt_append.mp h
    have hhead := hentry x mem_cons_self first offset hfirst hatFirst
    have htail := ih (fun y hy => hentry y (mem_cons_of_mem x hy)) hrest hatRest
    simp only [length_cons, decodeEntries, hhead, bind, Except.bind, htail]
    rw [length_append, Nat.add_assoc]
    rfl

theorem outcomeAt_eq {entry : MaskOutcome} (hencode : encodeOutcome entry = .ok bytes)
    (h : HasAt data offset bytes) : outcomeAt data offset = .ok (entry, offset + bytes.length) := by
  obtain ⟨id, hid, hencode⟩ := bind_eq_ok.mp hencode
  cases hencode
  obtain ⟨rfl, hfits⟩ := u16Field_eq_ok hid
  have hend := h.end_le
  simp only [fields_at] at h hend ⊢
  obtain ⟨⟨⟨hlen, hidBytes⟩, hsuccess⟩, hfail⟩ := h
  simp only [outcomeAt, hlen.u16At_toNat hfits, hidBytes.slice_eq, fromUtf8Lossy_utf8,
    hsuccess.u16At_eq, hfail.u16At_eq]
  rw [if_neg (by omega), if_neg (by omega)]

theorem hintAt_eq {entry : String × F32} (hscore : entry.2.isFinite ∧ entry.2.inUnitInterval)
    (hencode : encodeHint entry = .ok bytes) (h : HasAt data offset bytes) :
    hintAt data offset = .ok (entry, offset + bytes.length) := by
  obtain ⟨id, hid, hencode⟩ := bind_eq_ok.mp hencode
  cases hencode
  obtain ⟨rfl, hfits⟩ := u16Field_eq_ok hid
  have hend := h.end_le
  simp only [fields_at] at h hend ⊢
  obtain ⟨⟨hlen, hidBytes⟩, hbits⟩ := h
  simp only [hintAt, hlen.u16At_toNat hfits, hidBytes.slice_eq, fromUtf8Lossy_utf8,
    hbits.u32At_eq, hscore.1, hscore.2]
  rw [if_neg (by omega), if_neg (by omega), if_neg (by decide)]

theorem toUInt8_ne_zero (b : Bool) : decide (b.toUInt8 ≠ 0) = b := by
  cases b <;> rfl

theorem catalogEntryAt_eq {entry : String × String × Bool}
    (hencode : encodeCatalogEntry entry = .ok bytes) (h : HasAt data offset bytes) :
    catalogEntryAt data offset = .ok (entry, offset + bytes.length) := by
  obtain ⟨id, hid, hencode⟩ := bind_eq_ok.mp hencode
  obtain ⟨label, hlabel, hencode⟩ := bind_eq_ok.mp hencode
  cases hencode
  obtain ⟨rfl, hidFits⟩ := u16Field_eq_ok hid
  obtain ⟨rfl, hlabelFits⟩ := u16Field_eq_ok hlabel
  have hend := h.end_le
  simp only [fields_at] at h hend ⊢
  obtain ⟨⟨⟨hidLen, hidBytes⟩, hlabelLen, hlabelBytes⟩, hflag⟩ := h
  simp only [catalogEntryAt, hidLen.u16At_toNat hidFits, hidBytes.slice_eq, fromUtf8Lossy_utf8,
    hlabelLen.u16At_toNat hlabelFits, hlabelBytes.slice_eq, hflag.byteAt_eq, toUInt8_ne_zero]
  rw [if_neg (by omega), if_neg (by omega), if_neg (by omega)]

/-! ### Variants -/

theorem decodeKeyRotate_eq {newEphPub : Bytes32}
    (h : data = [s, 0] ++ leBytes 2 32 ++ newEphPub.toList) :
    decodeKeyRotate data = .ok (keyRotate newEphPub) := by
  have hfields := fields_of_eq h
  simp only [fields_at, Nat.reduceAdd] at hfields
  obtain ⟨⟨⟨-, hlen⟩, hkey⟩, hlength⟩ := hfields
  simp only [decodeKeyRotate, hlen.u16At_toNat (by decide), hkey.arrayAt_eq, hlength]
  rfl

variable {signature : Vector UInt8 64} {countryCode : Vector UInt8 2}
  {sessionId : Vector UInt8 16} {maskId : String} {reqId : UInt32}

theorem decodeMaskUpdate_eq {maskData : Bytes} (hfield : u16Field maskData = .ok field)
    (h : data = [s] ++ field ++ signature.toList) :
    decodeMaskUpdate data = .ok (maskUpdate maskData signature) := by
  obtain ⟨rfl, hfits⟩ := u16Field_eq_ok hfield
  have hfields := fields_of_eq h
  simp only [fields_at, Nat.reduceAdd] at hfields
  obtain ⟨⟨⟨-, hlen, hmask⟩, hsignature⟩, hlength⟩ := hfields
  simp only [decodeMaskUpdate, hlen.u16At_toNat hfits, hmask.slice_eq, hsignature.arrayAt_eq]
  rw [if_neg (by omega), if_neg (by omega)]

theorem decodeKeepalive_eq {sendTs : UInt64} (h : data = [s] ++ u64Bytes sendTs) :
    decodeKeepalive data = .ok (keepalive sendTs) := by
  have hfields := fields_of_eq h
  simp only [fields_at, Nat.reduceAdd] at hfields
  obtain ⟨hfields, hlength⟩ := hfields
  rw [decodeKeepalive, if_pos (by omega), hfields.2.u64At_eq]

theorem decodeTelemetryResponse_eq {packetLoss rttMs jitterMs : UInt16} {bufferPct : UInt8}
    (h : data = [s, 0] ++ u16Bytes packetLoss ++ u16Bytes rttMs ++ u16Bytes jitterMs ++
      [bufferPct, 0, 0, 0]) :
    decodeTelemetryResponse data =
      .ok (telemetryResponse packetLoss rttMs jitterMs bufferPct) := by
  have hfields := fields_of_eq h
  simp only [fields_at, Nat.reduceAdd] at hfields
  obtain ⟨⟨⟨⟨⟨-, hloss⟩, hrtt⟩, hjitter⟩, hbuffer, -⟩, hlength⟩ := hfields
  rw [decodeTelemetryResponse, if_neg (by omega), hloss.u16At_eq, hrtt.u16At_eq,
    hjitter.u16At_eq, hbuffer.byteAt_eq]

theorem decodePoolStateDigest_eq {digest : Bytes32} (h : data = [s] ++ digest.toList) :
    decodePoolStateDigest data = .ok (poolStateDigest digest) := by
  have hfields := fields_of_eq h
  simp only [fields_at, Nat.reduceAdd] at hfields
  obtain ⟨hfields, hlength⟩ := hfields
  rw [decodePoolStateDigest, if_neg (by omega), hfields.2.arrayAt_eq]

theorem decodePoolBucketDigests_eq {digests : Bytes} {replyRequested : Bool}
    (hfits : 1 + digests.length < 2 ^ 32)
    (h : data = [s] ++ leBytes 4 (1 + digests.length) ++ [replyRequested.toUInt8] ++ digests) :
    decodePoolBucketDigests data = .ok (poolBucketDigests digests replyRequested) := by
  have hfields := fields_of_eq h
  simp only [fields_at, Nat.reduceAdd] at hfields
  obtain ⟨⟨⟨⟨-, hlen⟩, hflag⟩, hdigests⟩, hlength⟩ := hfields
  simp only [decodePoolBucketDigests, hlen.u32At_toNat hfits, hflag.byteAt_eq, toUInt8_ne_zero,
    Nat.add_sub_cancel_left, hdigests.slice_eq]
  rw [if_neg (by omega), if_neg (by omega), if_neg (by omega)]

theorem decodeNodeEnrollment_eq {nodeId : String} {nodePub : Bytes32} {timeWindow : UInt64}
    (hfits : 4 + (utf8 nodeId).length + 32 + 8 + 64 < 2 ^ 32)
    (h : data = [s] ++ leBytes 4 (4 + (utf8 nodeId).length + 32 + 8 + 64) ++
      u32Field (utf8 nodeId) ++ nodePub.toList ++ u64Bytes timeWindow ++ signature.toList) :
    decodeNodeEnrollment data = .ok (nodeEnrollment nodeId nodePub timeWindow signature) := by
  have hfields := fields_of_eq h
  simp only [u32Field, fields_at, Nat.reduceAdd] at hfields
  obtain ⟨⟨⟨⟨⟨⟨-, htotal⟩, hidLen, hid⟩, hpub⟩, hwindow⟩, hsignature⟩, hlength⟩ := hfields
  simp only [decodeNodeEnrollment, htotal.u32At_toNat hfits, hidLen.u32At_toNat (by omega),
    hid.slice_eq, fromUtf8Lossy_utf8, hpub.arrayAt_eq, hwindow.u64At_eq, hsignature.arrayAt_eq]
  rw [if_neg (by omega), if_neg (by omega), if_neg (by omega), if_neg (by omega),
    if_neg (by omega), if_neg (by omega)]

theorem decodeControlAck_eq {s ackForSubtype : UInt8} {ackSeq : UInt16}
    (h : data = [s] ++ u16Bytes ackSeq ++ [ackForSubtype]) :
    decodeControlAck data = .ok (controlAck ackSeq ackForSubtype) := by
  have hfields := fields_of_eq h
  simp only [fields_at, Nat.reduceAdd] at hfields
  obtain ⟨⟨⟨-, hseq⟩, hsubtype⟩, hlength⟩ := hfields
  rw [decodeControlAck, if_neg (by omega), hseq.u16At_eq, hsubtype.byteAt_eq]

theorem decodeServerHello_eq (text : Ipv6Text) {serverEphPub : Bytes32}
    {networkConfig : Option ClientNetworkConfig} {config : Bytes}
    (hconfig : encodeNetworkConfig text networkConfig = .ok config)
    (h : data = [s] ++ serverEphPub.toList ++ signature.toList ++ config) :
    decodeServerHello text data = .ok (serverHello serverEphPub signature
      (networkConfig.map (ClientNetworkConfig.onWire text))) := by
  have hfields := fields_of_eq h
  simp only [fields_at, Nat.reduceAdd] at hfields
  obtain ⟨⟨⟨⟨-, hkey⟩, hsignature⟩, hwire⟩, hlength⟩ := hfields
  rw [decodeServerHello, if_neg (by omega), hkey.arrayAt_eq, hsignature.arrayAt_eq]
  cases networkConfig with
  | none =>
    cases hconfig
    rw [if_neg (by rw [hlength]; decide)]
    rfl
  | some network =>
    simp only [encodeNetworkConfig] at hconfig
    split at hconfig
    · cases hconfig
    next hvalid =>
    cases hconfig
    rw [ClientNetworkConfig.length_encodeWire] at hlength
    have hslice := hwire.slice_eq
    rw [ClientNetworkConfig.length_encodeWire] at hslice
    simp only [hlength, Nat.min_self, Nat.add_sub_cancel_left, hslice,
      ClientNetworkConfig.decodeWire_encodeWire hvalid]
    rfl

theorem decodeRecordingAck_eq {status : String} (hfield : u16Field (utf8 status) = .ok field)
    (h : data = [s] ++ sessionId.toList ++ field) :
    decodeRecordingAck data = .ok (recordingAck sessionId status) := by
  obtain ⟨rfl, hfits⟩ := u16Field_eq_ok hfield
  have hfields := fields_of_eq h
  simp only [fields_at, Nat.reduceAdd] at hfields
  obtain ⟨⟨⟨-, hid⟩, hlen, hstatus⟩, hlength⟩ := hfields
  simp only [decodeRecordingAck, hid.arrayAt_eq, hlen.u16At_toNat hfits, hstatus.slice_eq,
    fromUtf8Lossy_utf8]
  rw [if_neg (by omega), if_neg (by omega)]

theorem decodeRecordingStop_eq (h : data = [s] ++ sessionId.toList) :
    decodeRecordingStop data = .ok (recordingStop sessionId) := by
  have hfields := fields_of_eq h
  simp only [fields_at, Nat.reduceAdd] at hfields
  obtain ⟨hfields, hlength⟩ := hfields
  rw [decodeRecordingStop, if_neg (by omega), hfields.2.arrayAt_eq]

theorem decodeRecordingComplete_eq {service : String} {confidence : F32}
    {serviceField maskField : Bytes} (hservice : u16Field (utf8 service) = .ok serviceField)
    (hmask : u16Field (utf8 maskId) = .ok maskField)
    (h : data = [s] ++ serviceField ++ maskField ++ u32Bytes confidence.bits) :
    decodeRecordingComplete data = .ok (recordingComplete service maskId confidence) := by
  obtain ⟨rfl, hserviceFits⟩ := u16Field_eq_ok hservice
  obtain ⟨rfl, hmaskFits⟩ := u16Field_eq_ok hmask
  have hfields := fields_of_eq h
  simp only [fields_at, Nat.reduceAdd] at hfields
  obtain ⟨⟨⟨⟨-, hserviceLen, hserviceBytes⟩, hmaskLen, hmaskBytes⟩, hbits⟩, hlength⟩ := hfields
  simp only [decodeRecordingComplete, hserviceLen.u16At_toNat hserviceFits,
    hserviceBytes.slice_eq, hmaskLen.u16At_toNat hmaskFits, hmaskBytes.slice_eq,
    fromUtf8Lossy_utf8, hbits.u32At_eq]
  rw [if_neg (by omega), if_neg (by omega), if_neg (by omega)]

theorem decodeRecordingStatus_eq {canRecord : Bool} {activeService : Option String}
    {service : Bytes} (hservice : encodeActiveService activeService = .ok service)
    (h : data = [s, (if canRecord then 0x01 else 0) ||| (if activeService.isSome then 0x02 else 0)]
      ++ service) : decodeRecordingStatus data = .ok (recordingStatus canRecord activeService) := by
  have hfields := fields_of_eq h
  simp only [fields_at, Nat.reduceAdd] at hfields
  obtain ⟨⟨⟨-, hflags⟩, hbytes⟩, hlength⟩ := hfields
  simp only [decodeRecordingStatus, hflags.byteAt_eq]
  rw [if_neg (by omega)]
  cases activeService with
  | none => cases canRecord <;> rfl
  | some name =>
    obtain ⟨rfl, hfits⟩ := u16Field_eq_ok hservice
    simp only [fields_at, Nat.reduceAdd] at hbytes hlength
    have hcan : decide (((if canRecord then 0x01 else 0) ||| 0x02 : UInt8) &&& 0x01 ≠ 0) =
        canRecord := by cases canRecord <;> rfl
    have hhas : ((if canRecord then 0x01 else 0) ||| 0x02 : UInt8) &&& 0x02 ≠ 0 := by
      cases canRecord <;> decide
    simp only [Option.isSome_some, if_true, hcan, hbytes.1.u16At_toNat hfits, hbytes.2.slice_eq,
      fromUtf8Lossy_utf8]
    rw [if_pos hhas, if_neg (by omega), if_neg (by omega)]

theorem decodeDeviceEnrollment_eq {staticPub dhProof : Bytes32}
    (h : data = [s] ++ staticPub.toList ++ dhProof.toList) :
    decodeDeviceEnrollment data = .ok (deviceEnrollment staticPub dhProof) := by
  have hfields := fields_of_eq h
  simp only [fields_at, Nat.reduceAdd] at hfields
  obtain ⟨hfields, hlength⟩ := hfields
  rw [decodeDeviceEnrollment, if_neg (by omega), hfields.1.2.arrayAt_eq, hfields.2.arrayAt_eq]

theorem decodeQualityReport_eq {s quality : UInt8} {rttMs jitterMs : UInt16} {lossPpm : UInt32}
    (h : data = [s, quality] ++ u16Bytes rttMs ++ u32Bytes lossPpm ++ u16Bytes jitterMs) :
    decodeQualityReport data = .ok (qualityReport quality rttMs lossPpm jitterMs) := by
  have hfields := fields_of_eq h
  simp only [fields_at, Nat.reduceAdd] at hfields
  obtain ⟨⟨⟨⟨⟨-, hquality⟩, hrtt⟩, hloss⟩, hjitter⟩, hlength⟩ := hfields
  rw [decodeQualityReport, if_neg (by omega), hquality.byteAt_eq, hrtt.u16At_eq, hloss.u32At_eq,
    hjitter.u16At_eq]

theorem decodeClientHello_eq (hlen : ¬((utf8 maskId).length = 0 ∨ 96 < (utf8 maskId).length))
    (h : data = [s, UInt8.ofNat (utf8 maskId).length] ++ utf8 maskId) :
    decodeClientHello data = .ok (clientHello maskId) := by
  have hfields := fields_of_eq h
  simp only [fields_at, Nat.reduceAdd] at hfields
  obtain ⟨⟨⟨-, hbyte⟩, hid⟩, hlength⟩ := hfields
  have hnat : (UInt8.ofNat (utf8 maskId).length).toNat = (utf8 maskId).length :=
    MaskState.toNat_ofNat_length (by omega)
  unfold decodeClientHello
  rw [hbyte.byteAt_eq, if_neg, hid.drop_eq (by omega), fromUtf8_utf8]
  rw [UInt8.lt_iff_toNat_lt, ← UInt8.toNat_inj, hnat]
  rintro (hshort | hzero | hlong | hother)
  · omega
  · exact hlen (.inl hzero)
  · exact hlen (.inr hlong)
  · exact hother hlength

theorem toNat_ofNat_min {n cap : Nat} (h : cap ≤ 64) :
    (UInt8.ofNat (min n cap)).toNat = min n cap := by
  exact Nat.mod_eq_of_lt (by omega)

theorem take_min_length (xs : List α) (cap : Nat) :
    (xs.take (min xs.length cap)).length = min xs.length cap ∧
      xs.take (min xs.length cap) = xs.take cap := by
  refine ⟨by simp, ?_⟩
  rw [min_comm, ← take_take, take_length]

theorem decodeMaskFeedback_eq {entries : List MaskOutcome}
    (hbody : encodeEntries encodeOutcome (entries.take (min entries.length maxFeedbackEntries)) =
      .ok body) (h : data = [s, UInt8.ofNat (min entries.length maxFeedbackEntries)] ++ body ++
      countryCode.toList) :
    decodeMaskFeedback data = .ok (maskFeedback (entries.take maxFeedbackEntries) countryCode) := by
  have hfields := fields_of_eq h
  simp only [fields_at, Nat.reduceAdd] at hfields
  obtain ⟨⟨⟨⟨-, hcount⟩, hentries⟩, hcode⟩, hlength⟩ := hfields
  obtain ⟨htake, hcut⟩ := take_min_length entries maxFeedbackEntries
  have hread : decodeEntries outcomeAt data _ 2 = _ :=
    decodeEntries_eq (fun x _ bytes offset => outcomeAt_eq) hbody hentries
  rw [htake, hcut] at hread
  simp only [decodeMaskFeedback, hcount.byteAt_eq]
  rw [toNat_ofNat_min (by decide), if_neg (by omega), if_neg (by rw [maxFeedbackEntries]; omega),
    hread]
  simp only
  rw [if_neg (by omega), hcode.arrayAt_eq]

theorem decodeRegionalMaskHints_eq {masks : List (String × F32)}
    (hscores : ∀ mask ∈ masks.take maxHints, mask.2.isFinite ∧ mask.2.inUnitInterval)
    (hbody : encodeEntries encodeHint (masks.take (min masks.length maxHints)) = .ok body)
    (h : data = [s] ++ countryCode.toList ++ [UInt8.ofNat (min masks.length maxHints)] ++ body) :
    decodeRegionalMaskHints data = .ok (regionalMaskHints countryCode (masks.take maxHints)) := by
  have hfields := fields_of_eq h
  simp only [fields_at, Nat.reduceAdd] at hfields
  obtain ⟨⟨⟨⟨-, hcode⟩, hcount⟩, hentries⟩, hlength⟩ := hfields
  obtain ⟨htake, hcut⟩ := take_min_length masks maxHints
  rw [← hcut] at hscores
  have hread : decodeEntries hintAt data _ 4 = _ :=
    decodeEntries_eq (fun x hx bytes offset => hintAt_eq (hscores x hx)) hbody hentries
  rw [htake, hcut] at hread
  simp only [decodeRegionalMaskHints, hcount.byteAt_eq]
  rw [toNat_ofNat_min (by decide), if_neg (by omega), if_neg (by rw [maxHints]; omega), hread,
    hcode.arrayAt_eq]

theorem decodeFeedbackConfig_eq {s reportFailureThreshold : UInt8} {reportIntervalSecs : UInt32}
    (h : data = [s, reportFailureThreshold] ++ u32Bytes reportIntervalSecs) :
    decodeFeedbackConfig data =
      .ok (feedbackConfig reportFailureThreshold reportIntervalSecs) := by
  have hfields := fields_of_eq h
  simp only [fields_at, Nat.reduceAdd] at hfields
  obtain ⟨hfields, hlength⟩ := hfields
  rw [decodeFeedbackConfig, if_neg (by omega), hfields.1.2.byteAt_eq, hfields.2.u32At_eq]

theorem decodeMaskCatalog_eq {masks : List (String × String × Bool)}
    (hbody : encodeEntries encodeCatalogEntry (masks.take (min masks.length maxCatalogEntries)) =
      .ok body) (h : data = [s, UInt8.ofNat (min masks.length maxCatalogEntries)] ++ body) :
    decodeMaskCatalog data = .ok (maskCatalog (masks.take maxCatalogEntries)) := by
  have hfields := fields_of_eq h
  simp only [fields_at, Nat.reduceAdd] at hfields
  obtain ⟨⟨⟨-, hcount⟩, hentries⟩, hlength⟩ := hfields
  obtain ⟨htake, hcut⟩ := take_min_length masks maxCatalogEntries
  have hread : decodeEntries catalogEntryAt data _ 2 = _ :=
    decodeEntries_eq (fun x _ bytes offset => catalogEntryAt_eq) hbody hentries
  rw [htake, hcut] at hread
  simp only [decodeMaskCatalog, hcount.byteAt_eq]
  rw [toNat_ofNat_min (by decide), if_neg (by omega), if_neg (by rw [maxCatalogEntries]; omega),
    hread]

theorem decodeCapabilities_eq {s role : UInt8} {features : UInt32}
    (h : data = [s, role] ++ u32Bytes features) :
    decodeCapabilities data = .ok (capabilities role features) := by
  have hfields := fields_of_eq h
  simp only [fields_at, Nat.reduceAdd] at hfields
  obtain ⟨hfields, hlength⟩ := hfields
  rw [decodeCapabilities, if_neg (by omega), hfields.1.2.byteAt_eq, hfields.2.u32At_eq]

theorem decodeMgmtRequest_eq {s method : UInt8} {path : String} {body pathField : Bytes}
    (hpathLen : (utf8 path).length ≤ maxMgmtPathSize) (hbodyLen : body.length ≤ maxMgmtBodySize)
    (hpath : u16Field (utf8 path) = .ok pathField)
    (h : data = [s] ++ u32Bytes reqId ++ [method] ++ pathField ++ u32Field body) :
    decodeMgmtRequest data = .ok (mgmtRequest reqId method path body) := by
  obtain ⟨rfl, hpathFits⟩ := u16Field_eq_ok hpath
  have hfields := fields_of_eq h
  simp only [u32Field, fields_at, Nat.reduceAdd] at hfields
  obtain ⟨⟨⟨⟨⟨-, hreq⟩, hmethod⟩, hlen, hpathBytes⟩, hbodyField, hbody⟩, hlength⟩ := hfields
  have hbodyFits : body.length < 2 ^ 32 := lt_of_le_of_lt hbodyLen (by decide)
  simp only [decodeMgmtRequest, hreq.u32At_eq, hmethod.byteAt_eq, hlen.u16At_toNat hpathFits,
    hpathBytes.slice_eq, fromUtf8Lossy_utf8, hbodyField.u32At_toNat hbodyFits, hbody.slice_eq]
  rw [if_neg (by omega), if_neg (by omega), if_neg (by omega), if_neg (by omega),
    if_neg (by omega), if_neg (by omega)]

theorem decodeMgmtResponse_eq {status : UInt16} (hbodyLen : body.length ≤ maxMgmtBodySize)
    (h : data = [s] ++ u32Bytes reqId ++ u16Bytes status ++ u32Field body) :
    decodeMgmtResponse data = .ok (mgmtResponse reqId status body) := by
  have hfields := fields_of_eq h
  simp only [u32Field, fields_at, Nat.reduceAdd] at hfields
  obtain ⟨⟨⟨⟨-, hreq⟩, hstatus⟩, hbodyField, hbody⟩, hlength⟩ := hfields
  have hbodyFits : body.length < 2 ^ 32 := lt_of_le_of_lt hbodyLen (by decide)
  simp only [decodeMgmtResponse, hreq.u32At_eq, hstatus.u16At_eq,
    hbodyField.u32At_toNat hbodyFits, hbody.slice_eq]
  rw [if_neg (by omega), if_neg (by omega), if_neg (by omega)]

theorem decodePartitionAnnounce_eq {subnetCidr : String}
    {partitionIndex partitionSize numPartitions : UInt32} {explicit : Bool} {cidr : Bytes}
    (hcidr : u16Field (utf8 subnetCidr) = .ok cidr)
    (h : data = [s] ++ cidr ++ u32Bytes partitionIndex ++ u32Bytes partitionSize ++
      u32Bytes numPartitions ++ [explicit.toUInt8]) :
    decodePartitionAnnounce data = .ok
      (partitionAnnounce subnetCidr partitionIndex partitionSize numPartitions explicit) := by
  obtain ⟨rfl, hfits⟩ := u16Field_eq_ok hcidr
  have hfields := fields_of_eq h
  simp only [fields_at, Nat.reduceAdd] at hfields
  obtain ⟨⟨⟨⟨⟨⟨-, hlen, hcidrBytes⟩, hindex⟩, hsize⟩, hnum⟩, hexplicit⟩, hlength⟩ := hfields
  simp only [decodePartitionAnnounce, hlen.u16At_toNat hfits, hcidrBytes.slice_eq,
    fromUtf8Lossy_utf8, hindex.u32At_eq]
  rw [if_neg (by omega), if_neg (by omega), if_neg (by omega)]
  rw [hsize.u32At_eq, hnum.u32At_eq, hexplicit.byteAt_eq, toUInt8_ne_zero]

theorem decode_of_head (text : Ipv6Text) (subtype : ControlSubtype)
    (h : data.head? = some subtype.toU8) : decode text data = decodeBody text subtype data := by
  cases data with
  | nil => cases h
  | cons first rest =>
    cases h
    have hfirst : byteAt (subtype.toU8 :: rest) 0 = subtype.toU8 := rfl
    unfold decode
    rw [if_neg (by simp), hfirst, ControlSubtype.fromU8_toU8]

/-- Whatever the encoder writes of a message that the format can carry, the decoder reads back as
the message on the wire. -/
theorem decode_encode (text : Ipv6Text) (p : ControlPayload) (data : Bytes)
    (h : p.encode text = .ok data) (hcarried : p.Carried) :
    decode text data = .ok (p.onWire text) := by
  cases p with
  | maskState state =>
    simp only [encode, MaskState.encodeControl] at h
    split at h
    · cases h
    next hvalid =>
    cases h
    rw [decode_of_head text .maskState rfl, decodeBody]
    simp only [MaskState.decodeControl_wire hvalid]
    rfl
  | keyRotate newEphPub =>
    cases h
    exact decodeKeyRotate_eq rfl
  | maskUpdate maskData signature =>
    obtain ⟨field, hfield, h⟩ := bind_eq_ok.mp h
    cases h
    exact decodeMaskUpdate_eq hfield rfl
  | keepalive sendTs =>
    cases h
    exact decodeKeepalive_eq rfl
  | telemetryRequest byte | shutdown byte | handshakeReject byte | adaptiveHint byte =>
    cases h
    rfl
  | telemetryResponse packetLoss rttMs jitterMs bufferPct =>
    cases h
    exact decodeTelemetryResponse_eq rfl
  | timeSync serverTsMs =>
    cases h
    rw [decode_of_head text .timeSync rfl]
    exact decodeU64_eq _ _ rfl
  | keepaliveAck echoTs =>
    cases h
    rw [decode_of_head text .keepaliveAck rfl]
    exact decodeU64_eq _ _ rfl
  | poolStateDigest digest =>
    cases h
    exact decodePoolStateDigest_eq rfl
  | poolBucketDigests digests replyRequested =>
    cases h
    exact decodePoolBucketDigests_eq hcarried rfl
  | nodeEnrollment nodeId nodePub timeWindow signature =>
    cases h
    exact decodeNodeEnrollment_eq hcarried rfl
  | controlAck ackSeq ackForSubtype =>
    cases h
    exact decodeControlAck_eq rfl
  | serverHello serverEphPub signature networkConfig =>
    obtain ⟨config, hconfig, h⟩ := bind_eq_ok.mp h
    cases h
    exact decodeServerHello_eq text hconfig rfl
  | recordingStart service =>
    obtain ⟨field, hfield, h⟩ := bind_eq_ok.mp h
    cases h
    rw [decode_of_head text .recordingStart rfl, decodeBody, decodeU16Field_eq _ _ hfield rfl,
      fromUtf8Lossy_utf8]
    rfl
  | recordingFailed reason =>
    obtain ⟨field, hfield, h⟩ := bind_eq_ok.mp h
    cases h
    rw [decode_of_head text .recordingFailed rfl, decodeBody, decodeU16Field_eq _ _ hfield rfl,
      fromUtf8Lossy_utf8]
    rfl
  | maskPreference baseMaskId =>
    obtain ⟨field, hfield, h⟩ := bind_eq_ok.mp h
    cases h
    rw [decode_of_head text .maskPreference rfl, decodeBody, decodeU16Field_eq _ _ hfield rfl,
      fromUtf8Lossy_utf8]
    rfl
  | recordingAck sessionId status =>
    obtain ⟨field, hfield, h⟩ := bind_eq_ok.mp h
    cases h
    exact decodeRecordingAck_eq hfield rfl
  | recordingStop sessionId =>
    cases h
    exact decodeRecordingStop_eq rfl
  | recordingComplete service maskId confidence =>
    obtain ⟨serviceField, hservice, h⟩ := bind_eq_ok.mp h
    obtain ⟨maskField, hmask, h⟩ := bind_eq_ok.mp h
    cases h
    exact decodeRecordingComplete_eq hservice hmask rfl
  | recordingStatusRequest | certRejected =>
    cases h
    rfl
  | recordingStatus canRecord activeService =>
    obtain ⟨service, hservice, h⟩ := bind_eq_ok.mp h
    cases h
    exact decodeRecordingStatus_eq hservice rfl
  | bootstrapDescriptorUpdate descriptorData =>
    obtain ⟨field, hfield, h⟩ := bind_eq_ok.mp h
    cases h
    exact decodeU16Field_eq _ _ hfield rfl
  | poolSync bytes | routeSync bytes | chainForward bytes | clientCert bytes | siteData bytes =>
    cases h
    exact (decodeU32Field_cut _ _ rfl).trans (by rw [Nat.mod_eq_of_lt hcarried, take_length]; rfl)
  | deviceEnrollment staticPub dhProof =>
    cases h
    exact decodeDeviceEnrollment_eq rfl
  | qualityReport quality rttMs lossPpm jitterMs =>
    cases h
    exact decodeQualityReport_eq rfl
  | maskFeedback entries countryCode =>
    obtain ⟨body, hbody, h⟩ := bind_eq_ok.mp h
    cases h
    exact decodeMaskFeedback_eq hbody rfl
  | regionalMaskHints countryCode masks =>
    obtain ⟨body, hbody, h⟩ := bind_eq_ok.mp h
    cases h
    exact decodeRegionalMaskHints_eq hcarried hbody rfl
  | feedbackConfig reportFailureThreshold reportIntervalSecs =>
    cases h
    exact decodeFeedbackConfig_eq rfl
  | maskCatalog masks =>
    obtain ⟨body, hbody, h⟩ := bind_eq_ok.mp h
    cases h
    exact decodeMaskCatalog_eq hbody rfl
  | capabilities role features =>
    cases h
    exact decodeCapabilities_eq rfl
  | mgmtRequest reqId method path body =>
    simp only [encode] at h
    split at h
    · cases h
    next hpathLen =>
    split at h
    · cases h
    next hbodyLen =>
    obtain ⟨pathField, hpath, h⟩ := bind_eq_ok.mp h
    cases h
    exact decodeMgmtRequest_eq (Nat.not_lt.mp hpathLen) (Nat.not_lt.mp hbodyLen) hpath rfl
  | mgmtResponse reqId status body =>
    simp only [encode] at h
    split at h
    · cases h
    next hbodyLen =>
    cases h
    exact decodeMgmtResponse_eq (Nat.not_lt.mp hbodyLen) rfl
  | partitionAnnounce subnetCidr partitionIndex partitionSize numPartitions explicit =>
    simp only [encode] at h
    split at h
    · cases h
    obtain ⟨cidr, hcidr, h⟩ := bind_eq_ok.mp h
    cases h
    exact decodePartitionAnnounce_eq hcidr rfl
  | clientHello maskId =>
    simp only [encode] at h
    split at h
    · cases h
    next hlen =>
    cases h
    exact decodeClientHello_eq hlen rfl

/-! ### Messages that change on the way -/

def sampleConfig (keepaliveSecs : Option UInt8) (mdhLen : UInt16) : ClientNetworkConfig where
  clientIp := 0x0a000002
  serverVpnIp := 0x0a000001
  prefixLen := 24
  mtu := 1280
  mdhLen := mdhLen
  keepaliveSecs := keepaliveSecs
  ipv6Address := none
  ipv6PrefixLen := none

/-- A `ServerHello` with these settings. -/
def sampleHello (config : ClientNetworkConfig) : ControlPayload :=
  serverHello (Vector.replicate 32 1) (Vector.replicate 64 2) (some config)

def sampleHints : ControlPayload :=
  regionalMaskHints (Vector.replicate 2 0x41) [("", ⟨0x3f000000⟩)]

theorem decode_encode_sampleHints :
    ∃ data, sampleHints.encode unaryText = .ok data ∧ decode unaryText data = .ok sampleHints := by
  refine ⟨_, rfl, ?_⟩
  exact decode_encode unaryText sampleHints _ rfl (by
    intro mask hmask
    rw [mem_singleton.mp hmask]
    decide)

def longSync : ControlPayload := poolSync (List.replicate (2 ^ 32) 0)

/-- A keepalive of zero seconds becomes none and a header length becomes the default; a score above
one is refused; and four gigabytes are cut to nothing. -/
theorem encode_not_inverted :
    (∃ data, (sampleHello (sampleConfig (some 0) 20)).encode unaryText = .ok data ∧
      decode unaryText data ≠ .ok (sampleHello (sampleConfig (some 0) 20))) ∧
    (∃ data, (sampleHello (sampleConfig none 1200)).encode unaryText = .ok data ∧
      decode unaryText data ≠ .ok (sampleHello (sampleConfig none 1200))) ∧
    (∃ data, (regionalMaskHints (Vector.replicate 2 0x41) [("", ⟨0x40000000⟩)]).encode unaryText =
        .ok data ∧
      decode unaryText data = .error (.invalidPacket "RegionalMaskHints score out of range")) ∧
    (∃ data, longSync.encode unaryText = .ok data ∧ decode unaryText data ≠ .ok longSync) := by
  have hhello : ∀ config : ClientNetworkConfig, config.validate unaryText = .ok () →
      config.onWire unaryText ≠ config →
      ∃ data, (sampleHello config).encode unaryText = .ok data ∧
        decode unaryText data ≠ .ok (sampleHello config) := by
    intro config hvalid hne
    have hconfig : encodeNetworkConfig unaryText (some config) =
        .ok (config.encodeWire unaryText) := by simp only [encodeNetworkConfig, hvalid]
    refine ⟨_, bind_eq_ok.mpr ⟨_, hconfig, rfl⟩, ?_⟩
    rw [decode_of_head unaryText .serverHello rfl, decodeBody,
      decodeServerHello_eq unaryText hconfig rfl]
    intro h
    injection h with h
    injection h with _ _ h
    injection h with h
    exact hne h
  refine ⟨hhello _ (by decide) (by decide), hhello _ (by decide) (by decide), ⟨_, rfl, rfl⟩,
    ⟨_, rfl, ?_⟩⟩
  rw [decode_of_head unaryText .poolSync rfl, decodeBody, decodeU32Field_cut _ _ rfl,
    length_replicate, Nat.mod_self, take_zero]
  intro h
  injection h with h
  injection h with h
  have hlength := congrArg List.length h
  rw [length_replicate, length_nil] at hlength
  omega

end AivpnSpec.Wire.ControlPayload
