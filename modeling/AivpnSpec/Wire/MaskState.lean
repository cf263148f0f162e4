import AivpnSpec.Wire.NetworkConfig

/-!
# Mask state messages

`crates/aivpn-common/src/mask_state.rs`. ICE parameters and the fingerprint or the SRTP secret of
a mask, in an exact binary form: the lengths are checked on both sides, and the decoder validates
what it has read as the encoder does what it writes.
-/

namespace AivpnSpec.Wire

open AivpnSpec.Base AivpnSpec.Common AivpnSpec.Server

/-- `SocketAddr`. -/
inductive SocketAddr where
  | v4 (ip : Ipv4Addr) (port : UInt16)
  | v6 (ip : Ipv6Addr) (port : UInt16) (flowinfo scopeId : UInt32)
  deriving DecidableEq

namespace SocketAddr

/-- `SocketAddr::port`. -/
def port : SocketAddr → UInt16
  | v4 _ port => port
  | v6 _ port _ _ => port

/-- `IpAddr::is_unspecified` of the address. -/
def isUnspecified : SocketAddr → Bool
  | v4 ip _ => ip = 0
  | v6 ip _ _ _ => isUnspecified6 ip

/-- `IpAddr::is_multicast` of the address. -/
def isMulticast : SocketAddr → Bool
  | v4 ip _ => ip >>> 28 = 0xe
  | v6 ip _ _ _ => isMulticast6 ip

/-- An IPv6 address with a scope or flow information. -/
def isScoped : SocketAddr → Bool
  | v4 _ _ => false
  | v6 _ _ flowinfo scopeId => scopeId ≠ 0 || flowinfo ≠ 0

/-- The family byte and the octets, `mask_state.rs:209-218`. -/
def encodeIp : SocketAddr → Bytes
  | v4 ip _ => 4 :: octets4 ip
  | v6 ip _ _ _ => 6 :: octets6 ip

def ipLen : SocketAddr → Nat
  | v4 _ _ => 4
  | v6 _ _ _ _ => 16

end SocketAddr

/-- `RtcParameters`, `mask_state.rs:18-27`. -/
structure RtcParameters where
  fingerprint : Bytes32
  iceUfrag : String
  icePassword : String
  ssrc : UInt32
  serverAddr : SocketAddr
  deriving DecidableEq

/-- `SrtpParameters`, `mask_state.rs:75-81`. -/
structure SrtpParameters where
  masterSecret : Bytes32
  iceUfrag : String
  icePassword : String
  ssrc : UInt32
  serverAddr : SocketAddr
  deriving DecidableEq

/-- `MaskParameters`, `mask_state.rs:114-118`. -/
inductive MaskParameters where
  | rtc (params : RtcParameters)
  | srtp (params : SrtpParameters)
  deriving DecidableEq

/-- `MaskState`, `mask_state.rs:153-159`. -/
structure MaskState where
  offerId : Vector UInt8 16
  answer : Bool
  maskId : String
  maskVersion : UInt16
  parameters : MaskParameters
  deriving DecidableEq

/-- `u8::is_ascii_alphanumeric`, or one of the two other characters of ICE. -/
def iceChar (b : UInt8) : Bool :=
  (0x30 ≤ b && b ≤ 0x39) || (0x41 ≤ b && b ≤ 0x5a) || (0x61 ≤ b && b ≤ 0x7a) || b = 0x2b ||
    b = 0x2f

/-- `validate_ice`, `mask_state.rs:57-72`. -/
def validateIce (ufrag password : String) (ssrc : UInt32) (serverAddr : SocketAddr) :
    Except Error Unit :=
  if ¬(4 ≤ (utf8 ufrag).length ∧ (utf8 ufrag).length ≤ 32) ∨
      ¬(22 ≤ (utf8 password).length ∧ (utf8 password).length ≤ 64) ∨
      ¬(utf8 ufrag).all iceChar ∨ ¬(utf8 password).all iceChar ∨ ssrc = 0 ∨ serverAddr.port = 0 ∨
      serverAddr.isUnspecified ∨ serverAddr.isMulticast ∨ serverAddr.isScoped then
    .error (.invalidPacket "Недопустимые параметры RTC-маски")
  else .ok ()

/-- `RtcParameters::validate`, `mask_state.rs:43-54`. -/
def RtcParameters.validate (params : RtcParameters) : Except Error Unit :=
  match validateIce params.iceUfrag params.icePassword params.ssrc params.serverAddr with
  | .error e => .error e
  | .ok () =>
    if params.fingerprint = Vector.replicate 32 0 then
      .error (.invalidPacket "Пустой отпечаток RTC")
    else .ok ()

/-- `SrtpParameters::validate`, `mask_state.rs:99-111`. -/
def SrtpParameters.validate (params : SrtpParameters) : Except Error Unit :=
  match validateIce params.iceUfrag params.icePassword params.ssrc params.serverAddr with
  | .error e => .error e
  | .ok () =>
    if params.masterSecret = Vector.replicate 32 0 then .error (.invalidPacket "Пустой SRTP secret")
    else .ok ()

namespace MaskParameters

/-- `MaskParameters::validate`, `mask_state.rs:144-149`. -/
def validate : MaskParameters → Except Error Unit
  | rtc params => params.validate
  | srtp params => params.validate

def format : MaskParameters → UInt8
  | rtc _ => 1
  | srtp _ => 2

def material : MaskParameters → Bytes32
  | rtc params => params.fingerprint
  | srtp params => params.masterSecret

def iceUfrag : MaskParameters → String
  | rtc params => params.iceUfrag
  | srtp params => params.iceUfrag

def icePassword : MaskParameters → String
  | rtc params => params.icePassword
  | srtp params => params.icePassword

def ssrc : MaskParameters → UInt32
  | rtc params => params.ssrc
  | srtp params => params.ssrc

/-- `MaskParameters::server_addr`, `mask_state.rs:138-143`. -/
def serverAddr : MaskParameters → SocketAddr
  | rtc params => params.serverAddr
  | srtp params => params.serverAddr

def ofFormat (format : UInt8) (material : Bytes32) (ufrag password : String) (ssrc : UInt32)
    (serverAddr : SocketAddr) : MaskParameters :=
  if format = 1 then .rtc ⟨material, ufrag, password, ssrc, serverAddr⟩
  else .srtp ⟨material, ufrag, password, ssrc, serverAddr⟩

theorem ofFormat_self (p : MaskParameters) :
    ofFormat p.format p.material p.iceUfrag p.icePassword p.ssrc p.serverAddr = p := by
  cases p <;> rfl

/-- Both kinds of parameters pass the same check of their ICE part. -/
theorem validateIce_of_validate {p : MaskParameters} (h : p.validate = .ok ()) :
    validateIce p.iceUfrag p.icePassword p.ssrc p.serverAddr = .ok () := by
  cases p <;>
  · simp only [validate, RtcParameters.validate, SrtpParameters.validate] at h
    split at h
    · cases h
    · next hice => exact hice

end MaskParameters

namespace MaskState

/-- `MAX_CONTROL`, `mask_state.rs:15`. -/
def maxControl : Nat := 512

/-- `ControlSubtype::MaskState as u8`, `protocol.rs:153`. -/
def subtype : UInt8 := 0x2a

/-- `MaskState::validate`, `mask_state.rs:162-174`. -/
def validate (m : MaskState) : Except Error Unit :=
  if m.maskVersion = 0 ∨ (utf8 m.maskId).length = 0 ∨ 128 < (utf8 m.maskId).length ∨
      ¬(utf8 m.maskId).all (fun b => 0x21 ≤ b && b ≤ 0x7e) then
    .error (.invalidPacket "Недопустимый профиль RTC-маски")
  else m.parameters.validate

/-- The bytes of a message, `mask_state.rs:196-225`. -/
def wire (m : MaskState) : Bytes :=
  [subtype, m.parameters.format, m.answer.toUInt8] ++ u16Bytes m.maskVersion ++
    m.offerId.toList ++
    [UInt8.ofNat (utf8 m.maskId).length, UInt8.ofNat (utf8 m.parameters.iceUfrag).length,
      UInt8.ofNat (utf8 m.parameters.icePassword).length] ++
    m.parameters.serverAddr.encodeIp ++ beBytes 2 m.parameters.serverAddr.port.toNat ++
    m.parameters.material.toList ++ beBytes 4 m.parameters.ssrc.toNat ++ utf8 m.maskId ++
    utf8 m.parameters.iceUfrag ++ utf8 m.parameters.icePassword

/-- `MaskState::encode_control`, `mask_state.rs:176-226`. -/
def encodeControl (m : MaskState) : Except Error Bytes :=
  match m.validate with
  | .error e => .error e
  | .ok () => .ok m.wire

/-- The text of so many bytes at an offset, `mask_state.rs:263-267`. -/
def textAt (data : Bytes) (offset length : Nat) : Except Error String :=
  match fromUtf8 (slice data offset length) with
  | none => .error (.invalidPacket "Некорректный текст параметров RTC")
  | some s => .ok s

def addressLen (family : UInt8) : Option Nat :=
  if family = 4 then some 4 else if family = 6 then some 16 else none

/-- The address at offset 25 and the port behind it, `mask_state.rs:252-258`. -/
def socketAddrAt (data : Bytes) (addressLen : Nat) : SocketAddr :=
  let port := UInt16.ofNat (ofBe (slice data (25 + addressLen) 2))
  if addressLen = 4 then .v4 (ipv4At data 25) port else .v6 (ipv6At data 25) port 0 0

/-- `MaskState::decode_control`, `mask_state.rs:228-295`. -/
def decodeControl (data : Bytes) : Except Error MaskState :=
  if data.length < 25 ∨ maxControl < data.length ∨ byteAt data 0 ≠ subtype ∨
      ¬(byteAt data 1 = 1 ∨ byteAt data 1 = 2) ∨ 1 < byteAt data 2 then
    .error (.invalidPacket "Некорректное сообщение RTC-маски")
  else
    let maskLen := (byteAt data 21).toNat
    let ufragLen := (byteAt data 22).toNat
    let passwordLen := (byteAt data 23).toNat
    match addressLen (byteAt data 24) with
    | none => .error (.invalidPacket "Неизвестное семейство адреса RTC")
    | some addressLen =>
      let fixedEnd := 25 + addressLen + 2 + 32 + 4
      if ¬(1 ≤ maskLen ∧ maskLen ≤ 128) ∨ ¬(4 ≤ ufragLen ∧ ufragLen ≤ 32) ∨
          ¬(22 ≤ passwordLen ∧ passwordLen ≤ 64) ∨
          data.length ≠ fixedEnd + maskLen + ufragLen + passwordLen then
        .error (.invalidPacket "Некорректная длина сообщения RTC")
      else do
        let material := arrayAt 32 data (25 + addressLen + 2)
        let ssrc := UInt32.ofNat (ofBe (slice data (25 + addressLen + 2 + 32) 4))
        let maskId ← textAt data fixedEnd maskLen
        let ufrag ← textAt data (fixedEnd + maskLen) ufragLen
        let password ← textAt data (fixedEnd + maskLen + ufragLen) passwordLen
        let result : MaskState :=
          { offerId := arrayAt 16 data 5
            answer := byteAt data 2 = 1
            maskVersion := u16At data 3
            maskId := maskId
            parameters := .ofFormat (byteAt data 1) material ufrag password ssrc
              (socketAddrAt data addressLen) }
        match result.validate with
        | .error e => .error e
        | .ok () => .ok result

end MaskState

/-- A chain of fallible steps has a result where each of its steps has one. -/
theorem bind_eq_ok {ε α β : Type} {x : Except ε α} {f : α → Except ε β} {b : β} :
    (x >>= f) = .ok b ↔ ∃ a, x = .ok a ∧ f a = .ok b := by
  cases x with
  | error e | ok a => simp [bind, Except.bind]

namespace MaskState

variable {m : MaskState}

/-- The lengths that a valid message keeps to. -/
theorem validate_lengths (h : m.validate = .ok ()) :
    (1 ≤ (utf8 m.maskId).length ∧ (utf8 m.maskId).length ≤ 128) ∧
    (4 ≤ (utf8 m.parameters.iceUfrag).length ∧ (utf8 m.parameters.iceUfrag).length ≤ 32) ∧
    (22 ≤ (utf8 m.parameters.icePassword).length ∧
      (utf8 m.parameters.icePassword).length ≤ 64) ∧
    m.parameters.serverAddr.isScoped = false := by
  unfold validate at h
  split at h
  · cases h
  next hid =>
  have hice := MaskParameters.validateIce_of_validate h
  unfold validateIce at hice
  split at hice
  · cases hice
  next hparams =>
  simp only [not_or, not_not] at hid hparams
  refine ⟨⟨?_, ?_⟩, hparams.1, hparams.2.1, ?_⟩
  · omega
  · omega
  · simpa using hparams.2.2.2.2.2.2.2.2

theorem length_encodeIp (a : SocketAddr) : a.encodeIp.length = 1 + a.ipLen := by
  cases a <;> simp [SocketAddr.encodeIp, SocketAddr.ipLen, Nat.add_comm]

variable {data : Bytes}

/-- Where the fields of a message stand. -/
theorem hasAt_wire (h : data = m.wire) :
    (HasAt data 0 [subtype] ∧ HasAt data 1 [m.parameters.format] ∧
      HasAt data 2 [m.answer.toUInt8] ∧ HasAt data 3 (u16Bytes m.maskVersion) ∧
      HasAt data 5 m.offerId.toList) ∧
    (HasAt data 21 [UInt8.ofNat (utf8 m.maskId).length] ∧
      HasAt data 22 [UInt8.ofNat (utf8 m.parameters.iceUfrag).length] ∧
      HasAt data 23 [UInt8.ofNat (utf8 m.parameters.icePassword).length] ∧
      HasAt data 24 m.parameters.serverAddr.encodeIp) ∧
    (HasAt data (25 + m.parameters.serverAddr.ipLen)
        (beBytes 2 m.parameters.serverAddr.port.toNat) ∧
      HasAt data (25 + m.parameters.serverAddr.ipLen + 2) m.parameters.material.toList ∧
      HasAt data (25 + m.parameters.serverAddr.ipLen + 2 + 32)
        (beBytes 4 m.parameters.ssrc.toNat)) ∧
    HasAt data (25 + m.parameters.serverAddr.ipLen + 2 + 32 + 4) (utf8 m.maskId) ∧
    HasAt data (25 + m.parameters.serverAddr.ipLen + 2 + 32 + 4 + (utf8 m.maskId).length)
      (utf8 m.parameters.iceUfrag) ∧
    HasAt data (25 + m.parameters.serverAddr.ipLen + 2 + 32 + 4 + (utf8 m.maskId).length +
      (utf8 m.parameters.iceUfrag).length) (utf8 m.parameters.icePassword) := by
  have hself := hasAt_of_eq h
  simp only [wire, fields_at, length_encodeIp, Nat.reduceAdd] at hself
  obtain ⟨⟨⟨⟨⟨⟨⟨⟨⟨⟨hhead, hversion⟩, hoffer⟩, hlens⟩, haddress⟩, hport⟩, hmaterial⟩, hssrc⟩,
    hmask⟩, hufrag⟩, hpassword⟩ := hself
  exact ⟨⟨hhead.1, hhead.2.1, hhead.2.2, hversion, hoffer⟩,
    ⟨hlens.1, hlens.2.1, hlens.2.2, haddress⟩, ⟨hport, hmaterial, hssrc⟩, hmask, hufrag, hpassword⟩

theorem length_wire (m : MaskState) :
    m.wire.length = 25 + m.parameters.serverAddr.ipLen + 2 + 32 + 4 + (utf8 m.maskId).length +
      (utf8 m.parameters.iceUfrag).length + (utf8 m.parameters.icePassword).length := by
  simp only [wire, List.length_append, List.length_cons, List.length_nil, length_u16Bytes,
    length_beBytes, length_encodeIp, Vector.length_toList]
  omega

theorem textAt_eq {offset : Nat} {s : String} (h : HasAt data offset (utf8 s)) :
    textAt data offset (utf8 s).length = .ok s := by
  rw [textAt, h.slice_eq, fromUtf8_utf8]

theorem toNat_ofNat_length {n : Nat} (h : n ≤ 128) : (UInt8.ofNat n).toNat = n := by
  rw [UInt8.toNat_ofNat']
  exact Nat.mod_eq_of_lt (by omega)

/-- The address and the port are read back from behind the family byte. -/
theorem socketAddrAt_eq {a : SocketAddr} (hscope : a.isScoped = false)
    (haddress : HasAt data 24 a.encodeIp)
    (hport : HasAt data (25 + a.ipLen) (beBytes 2 a.port.toNat)) :
    addressLen (byteAt data 24) = some a.ipLen ∧ socketAddrAt data a.ipLen = a := by
  have hportEq : UInt16.ofNat (ofBe (slice data (25 + a.ipLen) 2)) = a.port := by
    rw [hport.ofBe_eq, uint16_ofNat_mod]
  cases a with
  | v4 ip port =>
    have hsplit : HasAt data 24 [4] ∧ HasAt data 25 (octets4 ip) := hasAt_append.mp haddress
    refine ⟨by rw [hsplit.1.byteAt_eq]; rfl, ?_⟩
    rw [socketAddrAt, hportEq, ipv4At_eq hsplit.2]
    rfl
  | v6 ip port flowinfo scopeId =>
    have hsplit : HasAt data 24 [6] ∧ HasAt data 25 (octets6 ip) := hasAt_append.mp haddress
    refine ⟨by rw [hsplit.1.byteAt_eq]; rfl, ?_⟩
    simp only [SocketAddr.isScoped, Bool.or_eq_false_iff, decide_eq_false_iff_not, not_not,
      ne_eq] at hscope
    rw [socketAddrAt, hportEq, ipv6At_eq hsplit.2, hscope.1, hscope.2]
    rfl

/-- A valid message is read back from its bytes. -/
theorem decodeControl_wire (h : m.validate = .ok ()) : decodeControl m.wire = .ok m := by
  obtain ⟨hmaskLen, hufragLen, hpasswordLen, hscope⟩ := validate_lengths h
  obtain ⟨⟨hsubtype, hformat, hanswer, hversion, hoffer⟩, ⟨hmaskByte, hufragByte, hpasswordByte,
    haddress⟩, ⟨hport, hmaterial, hssrc⟩, hmask, hufrag, hpassword⟩ :=
    hasAt_wire (rfl : m.wire = m.wire)
  obtain ⟨hfamily, hsocket⟩ := socketAddrAt_eq hscope haddress hport
  have hlength := length_wire m
  have hip : m.parameters.serverAddr.ipLen ≤ 16 := by
    cases m.parameters.serverAddr <;> simp [SocketAddr.ipLen]
  generalize m.wire = data at *
  have hformats : m.parameters.format = 1 ∨ m.parameters.format = 2 := by
    cases m.parameters <;> simp [MaskParameters.format]
  have hanswers : ¬1 < m.answer.toUInt8 ∧ (m.answer.toUInt8 = 1 ↔ m.answer = true) := by
    cases m.answer <;> decide
  have hssrcEq : UInt32.ofNat (ofBe (slice data (25 + m.parameters.serverAddr.ipLen + 2 + 32) 4)) =
      m.parameters.ssrc := by
    rw [hssrc.ofBe_eq, show 256 ^ 4 = 2 ^ 32 from rfl, Nat.mod_eq_of_lt (UInt32.toNat_lt _),
      UInt32.ofNat_toNat]
  unfold decodeControl
  rw [if_neg (by
    rw [hsubtype.byteAt_eq, hformat.byteAt_eq, hanswer.byteAt_eq, maxControl]
    rintro (hshort | hlong | hother | hunknown | hflag)
    · omega
    · omega
    · exact hother rfl
    · exact hunknown hformats
    · exact hanswers.1 hflag)]
  simp only [hfamily, hmaskByte.byteAt_eq, hufragByte.byteAt_eq, hpasswordByte.byteAt_eq]
  rw [toNat_ofNat_length hmaskLen.2, toNat_ofNat_length (by omega), toNat_ofNat_length (by omega),
    if_neg (by omega)]
  rw [textAt_eq hmask, textAt_eq hufrag, textAt_eq hpassword, hmaterial.arrayAt_eq, hssrcEq,
    hoffer.arrayAt_eq, hversion.u16At_eq, hformat.byteAt_eq, hanswer.byteAt_eq, hsocket]
  simp only [bind, Except.bind, MaskParameters.ofFormat_self, decide_eq_decide.mpr hanswers.2,
    Bool.decide_eq_true, h]

end MaskState

end AivpnSpec.Wire
