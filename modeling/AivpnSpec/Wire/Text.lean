import AivpnSpec.Server.ClientDb.Record
import Mathlib.Data.Countable.Basic
import Mathlib.Logic.Equiv.List

/-!
# Text on the wire

Strings are UTF-8; decoders read them with `str::from_utf8`, or with `String::from_utf8_lossy`,
which puts U+FFFD in the place of every broken sequence. Addresses are parsed and printed by the
standard library.
-/

namespace AivpnSpec.Wire

open AivpnSpec.Common AivpnSpec.Server

/-- `std::str::from_utf8`. -/
def fromUtf8 (bytes : Bytes) : Option String := String.fromUTF8? ⟨bytes.toArray⟩

def isContinuation (b : UInt8) : Bool := b &&& 0xc0 = 0x80

/-- The range of a second byte behind the first one. -/
def secondByteFits (first second : UInt8) : Bool :=
  if first = 0xe0 then 0xa0 ≤ second && second ≤ 0xbf
  else if first = 0xed then 0x80 ≤ second && second ≤ 0x9f
  else if first = 0xf0 then 0x90 ≤ second && second ≤ 0xbf
  else if first = 0xf4 then 0x80 ≤ second && second ≤ 0x8f
  else isContinuation second

/-- The character at the head of the bytes, or `none` for a broken sequence, and how many bytes
either takes: `Utf8Chunks::next`. -/
def nextSequence (bytes : Bytes) : Option Char × Nat :=
  let at' := fun i => bytes.getD i 0
  let low := fun i => (at' i &&& 0x3f).toNat
  let first := at' 0
  if first < 0x80 then (some (Char.ofNat first.toNat), 1)
  else if 0xc2 ≤ first ∧ first ≤ 0xdf then
    if !isContinuation (at' 1) then (none, 1)
    else (some (Char.ofNat ((first &&& 0x1f).toNat * 64 + low 1)), 2)
  else if 0xe0 ≤ first ∧ first ≤ 0xef then
    if !secondByteFits first (at' 1) then (none, 1)
    else if !isContinuation (at' 2) then (none, 2)
    else (some (Char.ofNat (((first &&& 0x0f).toNat * 64 + low 1) * 64 + low 2)), 3)
  else if 0xf0 ≤ first ∧ first ≤ 0xf4 then
    if !secondByteFits first (at' 1) then (none, 1)
    else if !isContinuation (at' 2) then (none, 2)
    else if !isContinuation (at' 3) then (none, 3)
    else
      (some (Char.ofNat ((((first &&& 0x07).toNat * 64 + low 1) * 64 + low 2) * 64 + low 3)), 4)
  else (none, 1)

/-- The characters of a byte string with broken sequences replaced; every round takes a byte. -/
def lossyChars : Nat → Bytes → List Char
  | 0, _ => []
  | _, [] => []
  | fuel + 1, bytes =>
    let next := nextSequence bytes
    next.1.getD (Char.ofNat 0xfffd) :: lossyChars fuel (bytes.drop next.2)

/-- `String::from_utf8_lossy`: text that is well formed is taken as it is. -/
def fromUtf8Lossy (bytes : Bytes) : String :=
  match fromUtf8 bytes with
  | some s => s
  | none => String.ofList (lossyChars bytes.length bytes)

/-- Text is read back from its bytes. -/
@[simp]
theorem fromUtf8_utf8 (s : String) : fromUtf8 (utf8 s) = some s := by
  have hbytes : (⟨(utf8 s).toArray⟩ : ByteArray) = s.toByteArray := by simp [utf8]
  rw [fromUtf8, hbytes, String.fromUTF8?, dif_pos s.isValidUTF8]
  rfl

/-- The bytes of a text that was read are those it was read from. -/
theorem utf8_of_fromUtf8 {bytes : Bytes} {s : String} (h : fromUtf8 bytes = some s) :
    utf8 s = bytes := by
  unfold fromUtf8 String.fromUTF8? at h
  split at h
  · cases h
    rfl
  · cases h

@[simp]
theorem fromUtf8Lossy_utf8 (s : String) : fromUtf8Lossy (utf8 s) = s := by
  rw [fromUtf8Lossy, fromUtf8_utf8]

example : fromUtf8Lossy [0x61, 0xe2, 0x82, 0x62, 0xff] = "a�b�" := by decide +kernel

abbrev Ipv6Addr := BitVec 128

/-- `Ipv6Addr::from_str` and `Ipv6Addr::to_string`: what is printed is read back. -/
structure Ipv6Text where
  parse : String → Option Ipv6Addr
  toText : Ipv6Addr → String
  parse_toText : ∀ address, parse (toText address) = some address

instance countableChar : Countable Char :=
  Function.Injective.countable fun _ _ h => Char.toNat_inj.mp h

/-- Texts can be numbered. -/
instance countableString : Countable String :=
  Function.Injective.countable fun _ _ h => String.toList_injective h

def unaryText : Ipv6Text where
  parse s := some (BitVec.ofNat 128 s.length)
  toText address := String.ofList (List.replicate address.toNat '1')
  parse_toText := by simp

end AivpnSpec.Wire
