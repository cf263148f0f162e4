import AivpnSpec.Base.Words

/-!
# Fields at offsets of a byte string

Decoders read fields at absolute offsets behind their own length checks. `HasAt data offset bytes`
says that the bytes stand at the offset; a concatenation stands where its parts stand one after
the other, and each kind of field is read back from where it stands.
-/

namespace AivpnSpec.Base

variable (data : List UInt8)

def byteAt (offset : Nat) : UInt8 := data.getD offset 0

/-- `data[offset..offset + length]`. -/
def slice (offset length : Nat) : List UInt8 := (data.drop offset).take length

/-- `u16::from_le_bytes` at an offset. -/
def u16At (offset : Nat) : UInt16 := UInt16.ofNat (ofLe (slice data offset 2))

/-- `u32::from_le_bytes` at an offset. -/
def u32At (offset : Nat) : UInt32 := UInt32.ofNat (ofLe (slice data offset 4))

/-- `u64::from_le_bytes` at an offset. -/
def u64At (offset : Nat) : UInt64 := UInt64.ofNat (ofLe (slice data offset 8))

/-- The array of `n` bytes at an offset. -/
def arrayAt (n : Nat) (data : List UInt8) (offset : Nat) : Vector UInt8 n :=
  Vector.ofFn fun i => byteAt data (offset + i)

/-- `u16::to_le_bytes`. -/
def u16Bytes (x : UInt16) : List UInt8 := leBytes 2 x.toNat

/-- `u32::to_le_bytes`. -/
def u32Bytes (x : UInt32) : List UInt8 := leBytes 4 x.toNat

/-- `u64::to_le_bytes`. -/
def u64Bytes (x : UInt64) : List UInt8 := leBytes 8 x.toNat

@[simp]
theorem length_u16Bytes (x : UInt16) : (u16Bytes x).length = 2 := length_leBytes 2 _

@[simp]
theorem length_u32Bytes (x : UInt32) : (u32Bytes x).length = 4 := length_leBytes 4 _

@[simp]
theorem length_u64Bytes (x : UInt64) : (u64Bytes x).length = 8 := length_leBytes 8 _

def HasAt (data : List UInt8) (offset : Nat) (bytes : List UInt8) : Prop :=
  bytes <+: data.drop offset

variable {data bytes rest : List UInt8} {offset n : Nat}

/-- A byte string stands in itself. -/
theorem hasAt_of_eq (h : data = bytes) : HasAt data 0 bytes := by
  rw [h]
  exact List.prefix_rfl

/-- Where the fields of a byte string stand, and where it ends. -/
theorem fields_of_eq (h : data = bytes) : HasAt data 0 bytes ∧ data.length = bytes.length :=
  ⟨hasAt_of_eq h, congrArg List.length h⟩

/-- A concatenation stands where its parts stand one after the other. -/
theorem hasAt_append :
    HasAt data offset (bytes ++ rest) ↔
      HasAt data offset bytes ∧ HasAt data (offset + bytes.length) rest := by
  unfold HasAt
  rw [← List.drop_drop]
  constructor
  · rintro ⟨tail, h⟩
    rw [← h]
    refine ⟨⟨rest ++ tail, by simp⟩, tail, ?_⟩
    simp
  · rintro ⟨⟨tail, h⟩, hrest⟩
    rw [← h, List.drop_left] at hrest
    obtain ⟨tail', h'⟩ := hrest
    exact ⟨tail', by rw [← h, ← h']; simp⟩

theorem length_slice (h : offset + n ≤ data.length) : (slice data offset n).length = n := by
  unfold slice
  rw [List.length_take, List.length_drop]
  omega

theorem hasAt_slice (data : List UInt8) (offset n : Nat) :
    HasAt data offset (slice data offset n) :=
  List.take_prefix _ _

theorem hasAt_byteAt (h : offset < data.length) : HasAt data offset [byteAt data offset] := by
  refine ⟨data.drop (offset + 1), ?_⟩
  rw [byteAt, List.getD_eq_getElem?_getD, List.getElem?_eq_getElem h, List.drop_eq_getElem_cons h]
  rfl

theorem hasAt_beBytes (h : offset + n ≤ data.length) :
    HasAt data offset (beBytes n (ofBe (slice data offset n))) := by
  have hback := beBytes_ofBe (slice data offset n)
  rw [length_slice h] at hback
  rw [hback]
  exact hasAt_slice data offset n

theorem hasAt_u16Bytes (h : offset + 2 ≤ data.length) :
    HasAt data offset (u16Bytes (u16At data offset)) := by
  have hlen : (slice data offset 2).reverse.length = 2 := by
    rw [List.length_reverse, length_slice h]
  have hlt := ofBe_lt (slice data offset 2).reverse
  have hback := beBytes_ofBe (slice data offset 2).reverse
  rw [hlen] at hlt hback
  rw [u16Bytes, u16At, ofLe, UInt16.toNat_ofNat_of_lt' hlt, leBytes, hback, List.reverse_reverse]
  exact hasAt_slice data offset 2

theorem hasAt_arrayAt (h : offset + n ≤ data.length) :
    HasAt data offset (arrayAt n data offset).toList := by
  have heq : (arrayAt n data offset).toList = slice data offset n := by
    apply List.ext_getElem
    · rw [Vector.length_toList, length_slice h]
    · intro i hi hi'
      rw [Vector.length_toList] at hi
      simp [arrayAt, byteAt, slice, List.getD_eq_getElem?_getD,
        List.getElem?_eq_getElem (show offset + i < data.length by omega)]
  rw [heq]
  exact hasAt_slice data offset n

/-- The rules that lay out a concatenation of fields: each field stands behind the lengths of those
before it. -/
theorem fields_at :
    (∀ data offset bytes rest, HasAt data offset (bytes ++ rest) ↔
      HasAt data offset bytes ∧ HasAt data (offset + bytes.length) rest) ∧
    (∀ data offset a b rest, HasAt data offset (a :: b :: rest) ↔
      HasAt data offset [a] ∧ HasAt data (offset + 1) (b :: rest)) ∧
    (∀ (a b : List UInt8), (a ++ b).length = a.length + b.length) ∧
    (∀ (b : UInt8) rest, (b :: rest).length = rest.length + 1) ∧
    ([] : List UInt8).length = 0 ∧ (∀ w x, (leBytes w x).length = w) ∧
    (∀ w x, (beBytes w x).length = w) ∧ (∀ x, (u16Bytes x).length = 2) ∧
    (∀ x, (u32Bytes x).length = 4) ∧ (∀ x, (u64Bytes x).length = 8) ∧
    (∀ n (v : Vector UInt8 n), v.toList.length = n) ∧ ∀ a b c : Nat, a + (b + c) = a + b + c := by
  refine ⟨fun _ _ _ _ => hasAt_append, fun data offset a b rest => ?_, fun _ _ => List.length_append,
    fun _ _ => rfl, rfl, length_leBytes, length_beBytes, length_u16Bytes, length_u32Bytes,
    length_u64Bytes, fun _ v => v.length_toList, fun a b c => (Nat.add_assoc a b c).symm⟩
  exact @hasAt_append data [a] (b :: rest) offset

namespace HasAt

theorem end_le (h : HasAt data offset bytes) : bytes.length ≤ data.length - offset := by
  have hle := List.IsPrefix.length_le h
  rwa [List.length_drop] at hle

theorem slice_eq (h : HasAt data offset bytes) : slice data offset bytes.length = bytes :=
  (List.prefix_iff_eq_take.mp h).symm

/-- Bytes that reach the end are the rest. -/
theorem drop_eq (h : HasAt data offset bytes) (hend : data.length ≤ offset + bytes.length) :
    data.drop offset = bytes := by
  refine (List.IsPrefix.eq_of_length h ?_).symm
  have := h.end_le
  rw [List.length_drop]
  omega

theorem byteAt_eq {b : UInt8} (h : HasAt data offset [b]) : byteAt data offset = b := by
  obtain ⟨tail, htail⟩ := h
  rw [byteAt, List.getD_eq_getElem?_getD, ← List.head?_drop, ← htail]
  rfl

theorem getElem?_eq (h : HasAt data offset bytes) {i : Nat} (hi : i < bytes.length) :
    data[offset + i]? = bytes[i]? := by
  obtain ⟨tail, htail⟩ := h
  rw [← List.getElem?_drop, ← htail, List.getElem?_append_left hi]

theorem arrayAt_eq {v : Vector UInt8 n} (h : HasAt data offset v.toList) :
    arrayAt n data offset = v := by
  apply Vector.ext
  intro i hi
  have hget := h.getElem?_eq (i := i) (by simpa using hi)
  simp only [arrayAt, Vector.getElem_ofFn, byteAt, List.getD_eq_getElem?_getD, hget]
  simp [hi]

theorem ofLe_eq {w x : Nat} (h : HasAt data offset (leBytes w x)) :
    ofLe (slice data offset w) = x % 256 ^ w := by
  have hslice := h.slice_eq
  rw [length_leBytes] at hslice
  rw [hslice, ofLe_leBytes]

theorem ofBe_eq {w x : Nat} (h : HasAt data offset (beBytes w x)) :
    ofBe (slice data offset w) = x % 256 ^ w := by
  have hslice := h.slice_eq
  rw [length_beBytes] at hslice
  rw [hslice, ofBe_beBytes]

theorem u16At_eq {x : UInt16} (h : HasAt data offset (u16Bytes x)) : u16At data offset = x := by
  rw [u16At, h.ofLe_eq, uint16_ofNat_mod]

theorem u32At_eq {x : UInt32} (h : HasAt data offset (u32Bytes x)) : u32At data offset = x := by
  rw [u32At, h.ofLe_eq, show 256 ^ 4 = 2 ^ 32 from rfl, Nat.mod_eq_of_lt (UInt32.toNat_lt x),
    UInt32.ofNat_toNat]

theorem u64At_eq {x : UInt64} (h : HasAt data offset (u64Bytes x)) : u64At data offset = x := by
  rw [u64At, h.ofLe_eq, uint64_ofNat_mod]

/-- A 16-bit length field. -/
theorem u16At_toNat (h : HasAt data offset (leBytes 2 n)) (hn : n < 2 ^ 16) :
    (u16At data offset).toNat = n := by
  rw [u16At, h.ofLe_eq, UInt16.toNat_ofNat', show 256 ^ 2 = 2 ^ 16 from rfl, Nat.mod_mod,
    Nat.mod_eq_of_lt hn]

/-- A 32-bit length field. -/
theorem u32At_toNat (h : HasAt data offset (leBytes 4 n)) (hn : n < 2 ^ 32) :
    (u32At data offset).toNat = n := by
  rw [u32At, h.ofLe_eq, UInt32.toNat_ofNat', show 256 ^ 4 = 2 ^ 32 from rfl, Nat.mod_mod,
    Nat.mod_eq_of_lt hn]

end HasAt

end AivpnSpec.Base
