import Mathlib.Data.Nat.Bitwise

/-!
# Bitmaps over 64-bit words

A set of small numbers as an array of 64-bit words, bit `i % 64` of word `i / 64` for `i`.
Every operation has one lemma that says which bits its result has. The shift works in place,
from the last word down; a word it reads has not been written yet.
-/

namespace AivpnSpec.Base

/-- An array of `n` words read as a set of numbers below `64 * n`. -/
structure Bitmap (n : Nat) where
  words : Vector (BitVec 64) n
  deriving DecidableEq

namespace Bitmap

variable {n : Nat}

def zero (n : Nat) : Bitmap n := ⟨Vector.replicate n 0⟩

variable (b : Bitmap n)

variable (i : Nat)

/-- Whether the bit is set; bits past the end are not. -/
def testBit : Bool :=
  if h : i / 64 < n then (b.words[i / 64] &&& (1#64 <<< (i % 64))) != 0 else false

/-- Set one bit; a bit past the end is ignored. -/
def setBit : Bitmap n :=
  if h : i / 64 < n then ⟨b.words.set (i / 64) (b.words[i / 64] ||| (1#64 <<< (i % 64)))⟩ else b

def union (b c : Bitmap n) : Bitmap n := ⟨b.words.zipWith (· ||| ·) c.words⟩

def readBit : Bool := (b.words.getD (i / 64) 0 >>> (i % 64)) &&& 1#64 != 0

/-- A loop over `i`, at most `left` more rounds: it ends at the first `i` where `stop` holds, and
sets the bit `i + offset` where `keep` holds. -/
def collect (stop keep : Nat → Bool) (offset : Nat) : (left i : Nat) → Bitmap n → Bitmap n
  | 0, _, b => b
  | left + 1, i, b =>
    if stop i then b
    else collect stop keep offset left (i + 1) (if keep i then b.setBit (i + offset) else b)

/-- Write the words below `k` from the last one down, each from the words as they are then. -/
def writeDown (word : Vector (BitVec 64) n → Nat → BitVec 64) :
    Nat → Vector (BitVec 64) n → Vector (BitVec 64) n
  | 0, words => words
  | k + 1, words => writeDown word k (words.setIfInBounds k (word words k))

/-- Word `i` of a shift by `shift` bits, with whole words and single bits apart. -/
def shiftedWord (shift : Nat) (words : Vector (BitVec 64) n) (i : Nat) : BitVec 64 :=
  let wordShift := shift / 64
  let bitShift := shift % 64
  if bitShift = 0 then
    if wordShift ≤ i then words.getD (i - wordShift) 0 else 0
  else if wordShift ≤ i then
    let v := words.getD (i - wordShift) 0 <<< bitShift
    if wordShift < i then v ||| (words.getD (i - wordShift - 1) 0 >>> (64 - bitShift)) else v
  else 0

/-- Move every number up by `shift`; what leaves the array is dropped. -/
def shiftLeft (shift : Nat) : Bitmap n :=
  if shift = 0 then b
  else if 64 * n ≤ shift then zero n
  else ⟨writeDown (shiftedWord shift) n b.words⟩

private theorem getLsbD_one_shiftLeft (k : Nat) {j : Nat} (hj : j < 64) :
    (1#64 <<< k).getLsbD j = decide (k = j) := by
  rw [BitVec.getLsbD_shiftLeft, BitVec.getLsbD_one, Bool.eq_iff_iff]
  simp
  omega

private theorem and_one_shiftLeft (x : BitVec 64) {k : Nat} (hk : k < 64) :
    ((x &&& (1#64 <<< k)) != 0) = x.getLsbD k := by
  rw [Bool.eq_iff_iff, bne_iff_ne]
  constructor
  · intro h
    by_contra hbit
    apply h
    apply BitVec.eq_of_getLsbD_eq
    intro j hj
    rw [BitVec.getLsbD_and, getLsbD_one_shiftLeft k hj]
    by_cases hjk : k = j
    · subst hjk
      simp_all
    · simp [hjk]
  · intro h hzero
    have hbit := congrArg (fun y : BitVec 64 => y.getLsbD k) hzero
    simp [h, getLsbD_one_shiftLeft k hk] at hbit

/-- The bit as the word's own bit. -/
theorem testBit_eq {i : Nat} (h : i / 64 < n) : b.testBit i = b.words[i / 64].getLsbD (i % 64) := by
  rw [testBit, dif_pos h, and_one_shiftLeft _ (Nat.mod_lt _ (by decide))]

theorem testBit_of_le {b : Bitmap n} {i : Nat} (h : 64 * n ≤ i) : b.testBit i = false := by
  rw [testBit, dif_neg (by omega)]

@[simp]
theorem testBit_zero : (zero n).testBit i = false := by
  unfold testBit zero
  split <;> simp

/-- Setting a bit adds exactly that number. -/
theorem testBit_setBit {i : Nat} (hi : i < 64 * n) (j : Nat) :
    (b.setBit i).testBit j = (decide (i = j) || b.testBit j) := by
  have hin : i / 64 < n := by omega
  by_cases hj : j / 64 < n
  · rw [testBit_eq _ hj, testBit_eq _ hj, setBit, dif_pos hin]
    by_cases hw : i / 64 = j / 64
    · have hbit : i = j ↔ i % 64 = j % 64 := by omega
      have hlt : j % 64 < 64 := Nat.mod_lt _ (by decide)
      simp only [hw, Vector.getElem_set_self, BitVec.getLsbD_or,
        getLsbD_one_shiftLeft _ hlt, hbit, Bool.or_comm]
    · have hne : i ≠ j := fun h => hw (h ▸ rfl)
      simp [hw, hne]
  · have hne : i ≠ j := by omega
    simp [testBit, hj, hne]

/-- The words that `writeDown` writes are those computed from the words it started with. -/
theorem getD_writeDown {word : Vector (BitVec 64) n → Nat → BitVec 64}
    (hword : ∀ v w i, (∀ j ≤ i, v.getD j 0 = w.getD j 0) → word v i = word w i)
    (words : Vector (BitVec 64) n) {k i : Nat} (hi : i < n) :
    (writeDown word k words).getD i 0 = if i < k then word words i else words.getD i 0 := by
  induction k generalizing words with
  | zero => rfl
  | succ k ih =>
    unfold writeDown
    rw [ih]
    by_cases hik : i < k
    · rw [if_pos hik, if_pos (by omega)]
      apply hword
      intro j hj
      have hjk : k ≠ j := by omega
      simp [Vector.getD, hjk]
    · rw [if_neg hik]
      by_cases hk : i = k
      · subst hk
        rw [if_pos (by omega)]
        simp [Vector.getD, hi]
      · rw [if_neg (by omega)]
        have hki : k ≠ i := fun h => hk h.symm
        simp [Vector.getD, hki]

theorem shiftedWord_congr (shift : Nat) (v w : Vector (BitVec 64) n) (i : Nat)
    (h : ∀ j ≤ i, v.getD j 0 = w.getD j 0) : shiftedWord shift v i = shiftedWord shift w i := by
  unfold shiftedWord
  simp only [h (i - shift / 64) (by omega), h (i - shift / 64 - 1) (by omega)]

theorem testBit_getD : b.testBit i = (b.words.getD (i / 64) 0).getLsbD (i % 64) := by
  by_cases h : i / 64 < n
  · rw [testBit_eq b h]
    simp [Vector.getD, h]
  · simp [testBit, Vector.getD, h]

/-- Both ways to read a bit agree. -/
theorem readBit_eq : b.readBit i = b.testBit i := by
  have hlow : ∀ x : BitVec 64, (x &&& 1#64 != 0) = x.getLsbD 0 := by
    intro x
    have h := and_one_shiftLeft x (k := 0) (by decide)
    rwa [BitVec.shiftLeft_zero] at h
  rw [testBit_getD, readBit, hlow, BitVec.getLsbD_ushiftRight, Nat.add_zero]

/-- Two bitmaps with the same bits are the same. -/
theorem eq_of_testBit {b c : Bitmap n} (h : ∀ i < 64 * n, b.testBit i = c.testBit i) : b = c := by
  have hwords : b.words = c.words := by
    apply Vector.ext
    intro i hi
    apply BitVec.eq_of_getLsbD_eq
    intro j hj
    have hbit := h (64 * i + j) (by omega)
    have hdiv : (64 * i + j) / 64 = i := by omega
    have hmod : (64 * i + j) % 64 = j := by omega
    rw [testBit_eq b (by omega), testBit_eq c (by omega)] at hbit
    simpa only [hdiv, hmod] using hbit
  cases b
  cases c
  exact congrArg Bitmap.mk hwords

/-- What the loop sets, if it stays stopped once it has stopped and sets no bit past the end. -/
theorem testBit_collect {stop keep : Nat → Bool} {offset bound : Nat}
    (hstop : ∀ k, k + 1 < bound → stop k = true → stop (k + 1) = true)
    (hin : ∀ k < bound, stop k = false → keep k = true → k + offset < 64 * n)
    {left i : Nat} (hbound : i + left ≤ bound) (b : Bitmap n) (j : Nat) :
    (collect stop keep offset left i b).testBit j =
      (b.testBit j || (decide (i + offset ≤ j ∧ j < i + offset + left) &&
        !stop (j - offset) && keep (j - offset))) := by
  induction left generalizing i b with
  | zero => simp [collect]
  | succ left ih =>
    unfold collect
    split
    · next hnow =>
      have hrest : ∀ k, i + k < bound → stop (i + k) = true := fun k => by
        induction k with
        | zero => exact fun _ => hnow
        | succ k ihk => exact fun hk => hstop _ hk (ihk (by omega))
      by_cases hj : i + offset ≤ j ∧ j < i + offset + (left + 1)
      · have hlater := hrest (j - offset - i) (by omega)
        rw [show i + (j - offset - i) = j - offset by omega] at hlater
        simp [hlater]
      · simp [hj]
    · next hgo =>
      rw [ih (by omega)]
      by_cases hj : j = i + offset
      · subst hj
        by_cases hkeep : keep i = true
        · have hset := hin i (by omega) (by simpa using hgo) hkeep
          simp [hgo, hkeep, testBit_setBit b hset]
        · simp [hkeep]
      have hrange : (i + 1 + offset ≤ j ∧ j < i + 1 + offset + left) =
          (i + offset ≤ j ∧ j < i + offset + (left + 1)) := by
        apply propext
        omega
      simp only [hrange]
      by_cases hkeep : keep i = true
      · have hset := hin i (by omega) (by simpa using hgo) hkeep
        have hne : i + offset ≠ j := fun h => hj h.symm
        simp [hkeep, testBit_setBit b hset, hne]
      · simp [hkeep]

/-- The bits of a shifted word. -/
theorem getLsbD_shiftedWord (shift i : Nat) :
    (shiftedWord shift b.words (i / 64)).getLsbD (i % 64) =
      (decide (shift ≤ i) && b.testBit (i - shift)) := by
  have hlt : i % 64 < 64 := Nat.mod_lt _ (by decide)
  rw [testBit_getD]
  unfold shiftedWord
  by_cases hbits : shift % 64 = 0
  · by_cases hword : shift / 64 ≤ i / 64
    · have hle : shift ≤ i := by omega
      have hdiv : (i - shift) / 64 = i / 64 - shift / 64 := by omega
      have hmod : (i - shift) % 64 = i % 64 := by omega
      simp [hbits, hword, hle, hdiv, hmod]
    · have hle : ¬ shift ≤ i := by omega
      simp [hbits, hword, hle]
  by_cases hcarry : i % 64 < shift % 64
  · -- the bit comes from the word below
    by_cases hword : shift / 64 < i / 64
    · have hle : shift ≤ i := by omega
      have hword' : shift / 64 ≤ i / 64 := by omega
      have hdiv : (i - shift) / 64 = i / 64 - shift / 64 - 1 := by omega
      have hmod : (i - shift) % 64 = 64 - shift % 64 + i % 64 := by omega
      simp [hbits, hword, hword', hle, hdiv, hmod, hcarry]
    · have hle : ¬ shift ≤ i := by omega
      by_cases hword' : shift / 64 ≤ i / 64
      · simp [hbits, hword, hword', hle, hcarry]
      · simp [hbits, hword', hle]
  · by_cases hword : shift / 64 ≤ i / 64
    · have hle : shift ≤ i := by omega
      have hdiv : (i - shift) / 64 = i / 64 - shift / 64 := by omega
      have hmod : (i - shift) % 64 = i % 64 - shift % 64 := by omega
      have hnone : ∀ x : BitVec 64, x.getLsbD (64 - shift % 64 + i % 64) = false := by
        intro x
        apply BitVec.getLsbD_of_ge
        omega
      simp only [hbits, hword, hle, hdiv, hmod, if_true, if_false, decide_true, Bool.true_and]
      split
      · rw [BitVec.getLsbD_or, BitVec.getLsbD_shiftLeft, BitVec.getLsbD_ushiftRight, hnone]
        simp [hcarry, hlt]
      · rw [BitVec.getLsbD_shiftLeft]
        simp [hcarry, hlt]
    · have hle : ¬ shift ≤ i := by omega
      simp [hbits, hword, hle]

/-- A shift moves every number up. -/
theorem testBit_shiftLeft (shift : Nat) {i : Nat} (hi : i < 64 * n) :
    (b.shiftLeft shift).testBit i = (decide (shift ≤ i) && b.testBit (i - shift)) := by
  unfold shiftLeft
  split
  · next h => simp [h]
  split
  · next h =>
    have hlt : ¬ shift ≤ i := by omega
    simp [hlt]
  · rw [testBit_getD, getD_writeDown (shiftedWord_congr shift) _ (by omega), if_pos (by omega),
      getLsbD_shiftedWord]

end Bitmap

end AivpnSpec.Base
