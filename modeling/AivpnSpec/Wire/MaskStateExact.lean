import AivpnSpec.Wire.MaskState

/-!
# The wire form of a mask state is exact

`MaskState::decode_control` accepts no second form of a message: each check it makes pins the byte
the encoder would write there, and the four length bytes pin the length of the whole. Together with
the round trip of `MaskState.lean` this makes the wire form a bijection between the valid messages
and the accepted byte strings.
-/

namespace AivpnSpec.Wire

open AivpnSpec.Base AivpnSpec.Common AivpnSpec.Server

namespace MaskState

def announcedLength (data : Bytes) (addressLen : Nat) : Nat :=
  25 + addressLen + 2 + 32 + 4 + (byteAt data 21).toNat + (byteAt data 22).toNat +
    (byteAt data 23).toNat

variable {data : Bytes} {m : MaskState}

theorem textAt_eq_ok {offset length : Nat} {s : String} (h : textAt data offset length = .ok s) :
    utf8 s = slice data offset length := by
  unfold textAt at h
  split at h
  · cases h
  · next hread =>
    cases h
    exact utf8_of_fromUtf8 hread

/-- What an accepted message has passed, and the fields that were read from it. -/
theorem decodeControl_eq_ok (h : decodeControl data = .ok m) :
    byteAt data 0 = subtype ∧ (byteAt data 1 = 1 ∨ byteAt data 1 = 2) ∧ ¬1 < byteAt data 2 ∧
    m.validate = .ok () ∧
    ∃ addrLen maskId ufrag password, addressLen (byteAt data 24) = some addrLen ∧
      data.length = announcedLength data addrLen ∧
      utf8 maskId = slice data (25 + addrLen + 2 + 32 + 4) (byteAt data 21).toNat ∧
      utf8 ufrag = slice data (25 + addrLen + 2 + 32 + 4 + (byteAt data 21).toNat)
        (byteAt data 22).toNat ∧
      utf8 password = slice data (25 + addrLen + 2 + 32 + 4 + (byteAt data 21).toNat +
        (byteAt data 22).toNat) (byteAt data 23).toNat ∧
      m = { offerId := arrayAt 16 data 5
            answer := byteAt data 2 = 1
            maskVersion := u16At data 3
            maskId := maskId
            parameters := .ofFormat (byteAt data 1) (arrayAt 32 data (25 + addrLen + 2)) ufrag
              password (UInt32.ofNat (ofBe (slice data (25 + addrLen + 2 + 32) 4)))
              (socketAddrAt data addrLen) } := by
  unfold decodeControl at h
  split at h
  · cases h
  next hhead =>
  rw [not_or, not_or, not_or, not_or, not_not, not_not] at hhead
  obtain ⟨-, -, hsubtype, hformat, hanswer⟩ := hhead
  refine ⟨hsubtype, hformat, hanswer, ?_⟩
  dsimp only at h
  split at h
  · cases h
  next addrLen hfamily =>
  split at h
  · cases h
  next hlens =>
  simp only [not_or, not_not] at hlens
  obtain ⟨maskId, hmask, h⟩ := bind_eq_ok.mp h
  obtain ⟨ufrag, hufrag, h⟩ := bind_eq_ok.mp h
  obtain ⟨password, hpassword, h⟩ := bind_eq_ok.mp h
  split at h
  · cases h
  next hvalid =>
  cases h
  exact ⟨hvalid, addrLen, maskId, ufrag, password, hfamily, hlens.2.2.2, textAt_eq_ok hmask,
    textAt_eq_ok hufrag, textAt_eq_ok hpassword, rfl⟩

/-- The family byte, the address and the port of an accepted message stand as they are written. -/
theorem hasAt_socketAddrAt {addrLen : Nat} (hfamily : addressLen (byteAt data 24) = some addrLen)
    (hlen : 25 + addrLen + 2 ≤ data.length) :
    (socketAddrAt data addrLen).ipLen = addrLen ∧
    HasAt data 24 (socketAddrAt data addrLen).encodeIp ∧
    HasAt data (25 + addrLen) (beBytes 2 (socketAddrAt data addrLen).port.toNat) := by
  have hbyte := hasAt_byteAt (show 24 < data.length by omega)
  have hport : HasAt data (25 + addrLen)
      (beBytes 2 (UInt16.ofNat (ofBe (slice data (25 + addrLen) 2))).toNat) := by
    have hlt := ofBe_lt (slice data (25 + addrLen) 2)
    rw [length_slice (by omega)] at hlt
    rw [UInt16.toNat_ofNat_of_lt' hlt]
    exact hasAt_beBytes (by omega)
  unfold addressLen at hfamily
  split at hfamily
  · next hv4 =>
    cases hfamily
    rw [hv4] at hbyte
    have hoctets : HasAt data 25 (octets4 (ipv4At data 25)) := hasAt_octets4 (by omega)
    exact ⟨rfl, hasAt_append.mpr ⟨hbyte, hoctets⟩, hport⟩
  · split at hfamily
    · next hv6 =>
      cases hfamily
      rw [hv6] at hbyte
      have hoctets : HasAt data 25 (octets6 (ipv6At data 25)) := hasAt_octets6 (by omega)
      exact ⟨rfl, hasAt_append.mpr ⟨hbyte, hoctets⟩, hport⟩
    · cases hfamily

theorem toUInt8_decide_eq_one {b : UInt8} (h : ¬1 < b) : (decide (b = 1)).toUInt8 = b := by
  by_cases hone : b = 1
  · rw [hone]
    rfl
  · have hzero : b = 0 := by grind
    rw [hzero]
    rfl

/-- An accepted message is the bytes of what was read from it. -/
theorem wire_of_decodeControl (h : decodeControl data = .ok m) : m.wire = data := by
  obtain ⟨hsubtype, hformat, hanswer, -, addrLen, maskId, ufrag, password, hfamily, hlength, hmask,
    hufrag, hpassword, hm⟩ := decodeControl_eq_ok h
  unfold announcedLength at hlength
  obtain ⟨hip, haddress, hport⟩ := hasAt_socketAddrAt hfamily (by omega)
  -- The fields of the message, whichever of the two formats it has.
  have hparams : m.parameters.format = byteAt data 1 ∧
      m.parameters.material = arrayAt 32 data (25 + addrLen + 2) ∧
      m.parameters.iceUfrag = ufrag ∧ m.parameters.icePassword = password ∧
      m.parameters.ssrc = UInt32.ofNat (ofBe (slice data (25 + addrLen + 2 + 32) 4)) ∧
      m.parameters.serverAddr = socketAddrAt data addrLen := by
    subst hm
    rcases hformat with hformat | hformat <;> rw [hformat] <;> exact ⟨rfl, rfl, rfl, rfl, rfl, rfl⟩
  obtain ⟨hf, hmat, hu, hp, hs, ha⟩ := hparams
  have hlenMask : (utf8 maskId).length = (byteAt data 21).toNat := by
    rw [hmask, length_slice (by omega)]
  have hlenUfrag : (utf8 ufrag).length = (byteAt data 22).toNat := by
    rw [hufrag, length_slice (by omega)]
  have hlenPassword : (utf8 password).length = (byteAt data 23).toNat := by
    rw [hpassword, length_slice (by omega)]
  have hmaskId : m.maskId = maskId := by rw [hm]
  have hstands : HasAt data 0 m.wire := by
    have hssrcLt := ofBe_lt (slice data (25 + addrLen + 2 + 32) 4)
    rw [length_slice (by omega)] at hssrcLt
    have hanswerEq : m.answer = decide (byteAt data 2 = 1) := by rw [hm]
    have hofferEq : m.offerId = arrayAt 16 data 5 := by rw [hm]
    have hversionEq : m.maskVersion = u16At data 3 := by rw [hm]
    simp only [wire, fields_at, length_encodeIp, Nat.reduceAdd, hf, hmat, hu, hp, hs, ha, hip,
      hmaskId, hlenMask, hlenUfrag, hlenPassword, UInt8.ofNat_toNat, hanswerEq, hofferEq,
      hversionEq, toUInt8_decide_eq_one hanswer, UInt32.toNat_ofNat_of_lt' hssrcLt, ← hsubtype]
    rw [hmask, hufrag, hpassword]
    have hbyte : ∀ i < 25, HasAt data i [byteAt data i] := fun i hi => hasAt_byteAt (by omega)
    refine ⟨⟨⟨⟨⟨⟨⟨⟨⟨⟨⟨hbyte 0 (by omega), hbyte 1 (by omega), hbyte 2 (by omega)⟩, ?_⟩, ?_⟩,
      hbyte 21 (by omega), hbyte 22 (by omega), hbyte 23 (by omega)⟩, haddress⟩, hport⟩, ?_⟩, ?_⟩,
      hasAt_slice _ _ _⟩, hasAt_slice _ _ _⟩, hasAt_slice _ _ _⟩
    · exact hasAt_u16Bytes (by omega)
    · exact hasAt_arrayAt (by omega)
    · exact hasAt_arrayAt (by omega)
    · exact hasAt_beBytes (by omega)
  have hend : m.wire.length = data.length := by
    rw [length_wire, hu, hp, ha, hip, hmaskId, hlenMask, hlenUfrag, hlenPassword, hlength]
  have hall := hstands.drop_eq (by omega)
  exact hall.symm

theorem encodeControl_eq_ok : m.encodeControl = .ok data ↔ m.validate = .ok () ∧ m.wire = data := by
  unfold encodeControl
  cases m.validate with
  | error e => simp
  | ok u => simp

/-- The bytes up to the family byte decide how long an accepted message is. -/
theorem eq_of_extends {short long : Bytes} {m' : MaskState} (hshort : decodeControl short = .ok m)
    (hlong : decodeControl long = .ok m') (h : short <+: long) : short = long := by
  obtain ⟨-, -, -, -, addrLen, -, -, -, hfamily, hlength, -⟩ := decodeControl_eq_ok hshort
  obtain ⟨-, -, -, -, addrLen', -, -, -, hfamily', hlength', -⟩ := decodeControl_eq_ok hlong
  unfold announcedLength at hlength hlength'
  have hsame : ∀ i < 25, byteAt long i = byteAt short i := by
    intro i hi
    obtain ⟨tail, rfl⟩ := h
    rw [byteAt, byteAt, List.getD_eq_getElem?_getD, List.getElem?_append_left (by omega),
      List.getD_eq_getElem?_getD]
  rw [hsame 24 (by omega), hfamily] at hfamily'
  cases hfamily'
  rw [hsame 21 (by omega), hsame 22 (by omega), hsame 23 (by omega), ← hlength] at hlength'
  exact h.eq_of_length hlength'.symm

/-- The wire form is a bijection: a valid message is read back from its bytes, an accepted byte
string is the encoding of what was read from it, and no other prefix or extension of an encoding
is accepted. -/
theorem wire_form_exact :
    (∀ m : MaskState, m.validate = .ok () →
      ∃ data, m.encodeControl = .ok data ∧ decodeControl data = .ok m) ∧
    (∀ data m, decodeControl data = .ok m → m.encodeControl = .ok data) ∧
    ∀ (m : MaskState) data other, m.encodeControl = .ok data → other ≠ data →
      other <+: data ∨ data <+: other → ∃ e, decodeControl other = .error e := by
  refine ⟨?_, ?_, ?_⟩
  · intro m hvalid
    exact ⟨m.wire, encodeControl_eq_ok.mpr ⟨hvalid, rfl⟩, decodeControl_wire hvalid⟩
  · intro data m h
    obtain ⟨-, -, -, hvalid, -⟩ := decodeControl_eq_ok h
    exact encodeControl_eq_ok.mpr ⟨hvalid, wire_of_decodeControl h⟩
  · intro m data other hencode hne hpart
    obtain ⟨hvalid, rfl⟩ := encodeControl_eq_ok.mp hencode
    have hdecode := decodeControl_wire hvalid
    cases hother : decodeControl other with
    | error e => exact ⟨e, rfl⟩
    | ok m' =>
      rcases hpart with hpart | hpart
      · exact absurd (eq_of_extends hother hdecode hpart) hne
      · exact absurd (eq_of_extends hdecode hother hpart).symm hne

/-- The message of the tests, `rtc_mask_state_fixture`, `protocol.rs:1805-1814`. -/
def sampleMaskState : MaskState where
  offerId := Vector.replicate 16 7
  answer := false
  maskId := "video"
  maskVersion := 6
  parameters := .rtc
    { fingerprint := Vector.replicate 32 8
      iceUfrag := "abcdefghijklmnop"
      icePassword := "ABCDEFGHIJKLMNOPQRSTUVWX"
      ssrc := 0x01020304
      serverAddr := .v4 0xc0000202 443 }

theorem sampleMaskState_exact :
    sampleMaskState.validate = .ok () ∧ decodeControl sampleMaskState.wire = .ok sampleMaskState ∧
    (∃ e, decodeControl (sampleMaskState.wire ++ [0]) = .error e) ∧
    ∃ e, decodeControl (sampleMaskState.wire.take 40) = .error e := by
  have hvalid : sampleMaskState.validate = .ok () := by decide +kernel
  have hencode : sampleMaskState.encodeControl = .ok sampleMaskState.wire := by
    rw [encodeControl, hvalid]
  obtain ⟨hforth, -, hothers⟩ := wire_form_exact
  refine ⟨hvalid, ?_, ?_, ?_⟩
  · obtain ⟨data, hdata, hdecode⟩ := hforth _ hvalid
    rw [hencode] at hdata
    cases hdata
    exact hdecode
  · exact hothers _ _ _ hencode (by simp) (.inr ⟨[0], rfl⟩)
  · exact hothers _ _ _ hencode (by decide +kernel) (.inl (List.take_prefix _ _))

end MaskState

end AivpnSpec.Wire
