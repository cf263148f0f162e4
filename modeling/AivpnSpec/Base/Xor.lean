import Mathlib

/-!
# XOR of byte strings of different lengths

A shorter string counts as padded with zeros. The parity of a family of strings is the
byte-wise XOR over an index set, and one member is the parity of all the others with the
whole parity.
-/

namespace AivpnSpec.Base

open List

/-- XOR the string into the buffer, as far as both reach. -/
def xorInto : List UInt8 → List UInt8 → List UInt8
  | a :: buf, b :: bytes => (a ^^^ b) :: xorInto buf bytes
  | buf, _ => buf

/-- The string with zeros up to length `n`. -/
def padTo (n : Nat) (bytes : List UInt8) : List UInt8 :=
  bytes ++ List.replicate (n - bytes.length) 0

/-- Byte `i` of the XOR of the strings with index in `s`. -/
def parity (s : Finset Nat) (member : Nat → List UInt8) (i : Nat) : UInt8 :=
  s.fold (· ^^^ ·) 0 fun k => (member k).getD i 0

/-- The length of the longest string with index in `s`. -/
def longest (s : Finset Nat) (member : Nat → List UInt8) : Nat :=
  s.sup fun k => (member k).length

@[simp]
theorem length_xorInto (buf bytes : List UInt8) : (xorInto buf bytes).length = buf.length := by
  induction buf generalizing bytes with
  | nil => rfl
  | cons a buf ih =>
    cases bytes with
    | nil => rfl
    | cons b bytes => simp [xorInto, ih]

/-- Inside the buffer every byte is XORed with the padded string. -/
theorem getD_xorInto {buf bytes : List UInt8} {i : Nat} (h : i < buf.length) :
    (xorInto buf bytes).getD i 0 = buf.getD i 0 ^^^ bytes.getD i 0 := by
  induction buf generalizing bytes i with
  | nil => cases h
  | cons a buf ih =>
    cases bytes with
    | nil => simp [xorInto]
    | cons b bytes =>
      cases i with
      | zero => rfl
      | succ i =>
        simp only [xorInto, getD_cons_succ]
        exact ih (Nat.lt_of_succ_lt_succ h)

/-- Padding does not change the bytes read with default zero. -/
theorem getD_padTo (n : Nat) (bytes : List UInt8) (i : Nat) :
    (padTo n bytes).getD i 0 = bytes.getD i 0 := by
  rw [padTo, getD_eq_getElem?_getD, getD_eq_getElem?_getD, getElem?_append]
  split
  · rfl
  · next h =>
    rw [getElem?_eq_none (Nat.not_lt.mp h), getElem?_replicate]
    split <;> rfl

theorem length_padTo {n : Nat} {bytes : List UInt8} (h : bytes.length ≤ n) :
    (padTo n bytes).length = n := by
  rw [padTo, length_append, length_replicate]
  omega

/-- Strings of one length are equal when all their bytes are. -/
theorem eq_of_getD {a b : List UInt8} (hlen : a.length = b.length)
    (h : ∀ i < a.length, a.getD i 0 = b.getD i 0) : a = b := by
  apply ext_getElem hlen
  intro i ha hb
  have hi := h i ha
  simpa [getD_eq_getElem?_getD, ha, hb] using hi

@[simp]
theorem parity_empty (member : Nat → List UInt8) (i : Nat) : parity ∅ member i = 0 := rfl

variable {s : Finset Nat} {k : Nat}

/-- Adding a string to the family. -/
theorem parity_insert (hk : k ∉ s) (member : Nat → List UInt8) (i : Nat) :
    parity (insert k s) member i = parity s member i ^^^ (member k).getD i 0 := by
  rw [parity, Finset.fold_insert hk, UInt8.xor_comm]
  rfl

/-- The missing string is the XOR of the whole parity and the parity of the others. -/
theorem parity_xor_erase (hk : k ∈ s) (member : Nat → List UInt8) (i : Nat) :
    parity s member i ^^^ parity (s.erase k) member i = (member k).getD i 0 := by
  have h := parity_insert (Finset.notMem_erase k s) member i
  rw [Finset.insert_erase hk] at h
  rw [h, UInt8.xor_comm, ← UInt8.xor_assoc, UInt8.xor_self, UInt8.zero_xor]

/-- The parity looks only at the strings of its index set. -/
theorem parity_congr {f g : Nat → List UInt8} (h : ∀ k ∈ s, f k = g k) (i : Nat) :
    parity s f i = parity s g i := by
  apply Finset.fold_congr
  intro k hk
  rw [h k hk]

end AivpnSpec.Base
