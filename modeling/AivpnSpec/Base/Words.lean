import Mathlib.Algebra.Order.Ring.Nat
import Mathlib.Data.List.Induction
import Mathlib.Tactic.Ring

/-!
# Fixed-width words in byte strings

Big- and little-endian byte encodings of natural numbers and their inverse readings.
A width of `w` bytes keeps the value modulo `256 ^ w`, as a machine cast does.
-/

namespace AivpnSpec.Base

open List

/-- The low `w` bytes of `x`, most significant first. -/
def beBytes : Nat → Nat → List UInt8
  | 0, _ => []
  | w + 1, x => UInt8.ofNat (x / 256 ^ w) :: beBytes w x

/-- The low `w` bytes of `x`, least significant first. -/
def leBytes (w x : Nat) : List UInt8 := (beBytes w x).reverse

variable (bs : List UInt8)

/-- Read a byte string, most significant byte first. -/
def ofBe : Nat := bs.foldl (fun acc b => acc * 256 + b.toNat) 0

/-- Read a byte string, least significant byte first. -/
def ofLe : Nat := ofBe bs.reverse

/-- An encoding occupies exactly its width. -/
@[simp] theorem length_beBytes (w x : Nat) : (beBytes w x).length = w := by
  induction w with
  | zero => rfl
  | succ w ih => simp [beBytes, ih]

/-- An encoding occupies exactly its width. -/
@[simp] theorem length_leBytes (w x : Nat) : (leBytes w x).length = w := by
  simp [leBytes]

private theorem foldl_beBytes (w x acc : Nat) :
    (beBytes w x).foldl (fun acc b => acc * 256 + b.toNat) acc =
      acc * 256 ^ w + x % 256 ^ w := by
  induction w generalizing acc with
  | zero => simp [beBytes, Nat.mod_one]
  | succ w ih =>
    simp only [beBytes, foldl_cons, ih]
    have hm : x % 256 ^ (w + 1) = x % 256 ^ w + 256 ^ w * (x / 256 ^ w % 256) := by
      rw [Nat.pow_succ, Nat.mod_mul]
    have hb : (UInt8.ofNat (x / 256 ^ w)).toNat = x / 256 ^ w % 256 := by
      simp
    rw [hm, hb]
    ring

/-- Reading a big-endian encoding gives the value modulo the width. -/
theorem ofBe_beBytes (w x : Nat) : ofBe (beBytes w x) = x % 256 ^ w := by
  rw [ofBe, foldl_beBytes, Nat.zero_mul, Nat.zero_add]

/-- Reading a little-endian encoding gives the value modulo the width. -/
theorem ofLe_leBytes (w x : Nat) : ofLe (leBytes w x) = x % 256 ^ w := by
  rw [ofLe, leBytes, reverse_reverse, ofBe_beBytes]

private theorem ofBe_concat (b : UInt8) : ofBe (bs ++ [b]) = ofBe bs * 256 + b.toNat := by
  rw [ofBe, ofBe, foldl_append]
  rfl

/-- Byte strings of one length are told apart by the numbers they encode. -/
theorem ofBe_inj {xs ys : List UInt8} (hlen : xs.length = ys.length) (h : ofBe xs = ofBe ys) :
    xs = ys := by
  induction xs using reverseRecOn generalizing ys with
  | nil => exact (length_eq_zero_iff.mp hlen.symm).symm
  | append_singleton xs x ih =>
    rcases eq_nil_or_concat ys with rfl | ⟨ys, y, rfl⟩
    · simp at hlen
    rw [concat_eq_append] at hlen h ⊢
    rw [ofBe_concat, ofBe_concat] at h
    have hx := UInt8.toNat_lt x
    have hy := UInt8.toNat_lt y
    have htail : ofBe xs = ofBe ys := by omega
    have hlast : x = y := UInt8.toNat_inj.mp (by omega)
    rw [ih (by simpa using hlen) htail, hlast]

/-- A byte string encodes a number of its width. -/
theorem ofBe_lt : ofBe bs < 256 ^ bs.length := by
  induction bs using reverseRecOn with
  | nil => simp [ofBe]
  | append_singleton bs b ih =>
    have hb := UInt8.toNat_lt b
    rw [ofBe_concat, length_append, length_singleton, Nat.pow_succ]
    omega

/-- The bytes are those of the number that they encode. -/
theorem beBytes_ofBe : beBytes bs.length (ofBe bs) = bs := by
  apply ofBe_inj (length_beBytes _ _)
  rw [ofBe_beBytes, Nat.mod_eq_of_lt (ofBe_lt bs)]

/-- A 16-bit word survives two bytes. -/
theorem uint16_ofNat_mod (x : UInt16) : UInt16.ofNat (x.toNat % 256 ^ 2) = x := by
  rw [show 256 ^ 2 = 2 ^ 16 from rfl, Nat.mod_eq_of_lt (UInt16.toNat_lt x), UInt16.ofNat_toNat]

/-- A 64-bit word survives eight bytes. -/
theorem uint64_ofNat_mod (x : UInt64) : UInt64.ofNat (x.toNat % 256 ^ 8) = x := by
  rw [show 256 ^ 8 = 2 ^ 64 from rfl, Nat.mod_eq_of_lt (UInt64.toNat_lt x), UInt64.ofNat_toNat]

end AivpnSpec.Base
