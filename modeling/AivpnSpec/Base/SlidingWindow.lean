import AivpnSpec.Base.Bitmap

/-!
# Sliding windows over received numbers

The newest received number and a bitmap of the numbers just below it. A number is fresh if it is
newer than all received ones, or lies in the window and has not been received.
-/

namespace AivpnSpec.Base

/-- A 64-bit counter against the newest one: it is newer or it is not, and the difference taken in
that direction does not wrap. -/
theorem newer_or_older (newest counter : UInt64) :
    (newest < counter ∧ newest.toNat < counter.toNat ∧
      (counter - newest).toNat = counter.toNat - newest.toNat) ∨
    (¬newest < counter ∧ ¬newest.toNat < counter.toNat ∧
      (newest - counter).toNat = newest.toNat - counter.toNat) := by
  by_cases hnew : newest < counter
  · left
    exact ⟨hnew, UInt64.lt_iff_toNat_lt.mp hnew,
      UInt64.toNat_sub_of_le _ _ (UInt64.le_of_lt hnew)⟩
  · right
    have hle : counter ≤ newest := UInt64.not_lt.mp hnew
    exact ⟨hnew, Nat.not_lt.mpr (UInt64.le_iff_toNat_le.mp hle), UInt64.toNat_sub_of_le _ _ hle⟩

/-- The newest number and, at bit `i`, whether the number `i` below it was received. -/
structure SlidingWindow (n : Nat) where
  newest : Nat
  bits : Bitmap n

namespace SlidingWindow

variable {n : Nat}

def isFresh (w : SlidingWindow n) (c : Nat) : Bool :=
  decide (w.newest < c) || (decide (w.newest - c < 64 * n) && !w.bits.testBit (w.newest - c))

def isMarked (w : SlidingWindow n) (c : Nat) : Bool :=
  decide (c ≤ w.newest) && (decide (w.newest - c < 64 * n) && w.bits.testBit (w.newest - c))

def mark (w : SlidingWindow n) (c : Nat) : SlidingWindow n :=
  if w.newest < c then ⟨c, (w.bits.shiftLeft (c - w.newest)).setBit 0⟩
  else if w.newest - c < 64 * n then ⟨w.newest, w.bits.setBit (w.newest - c)⟩
  else w

variable {w : SlidingWindow n} {c d : Nat}

theorem isFresh_of_newer (h : w.newest < c) : w.isFresh c = true := by
  simp [isFresh, h]

theorem isFresh_of_older (h : ¬w.newest < c) :
    w.isFresh c = (decide (w.newest - c < 64 * n) && !w.bits.testBit (w.newest - c)) := by
  simp [isFresh, h]

theorem isMarked_of_newer (h : w.newest < c) : w.isMarked c = false := by
  simp [isMarked, h]

theorem isMarked_of_older (h : ¬w.newest < c) :
    w.isMarked c = (decide (w.newest - c < 64 * n) && w.bits.testBit (w.newest - c)) := by
  simp [isMarked, Nat.not_lt.mp h]

theorem newest_mark (w : SlidingWindow n) (c : Nat) : (w.mark c).newest = max w.newest c := by
  unfold mark
  split
  · next h => exact (Nat.max_eq_right h.le).symm
  · next h => split <;> exact (Nat.max_eq_left (Nat.le_of_not_lt h)).symm

/-- What is newer than the window, or in it and not received. -/
theorem isFresh_iff_isMarked : w.isFresh c = true ↔
    w.newest < c ∨ w.newest < c + 64 * n ∧ w.isMarked c = false := by
  by_cases hc : w.newest < c
  · simp [isFresh_of_newer hc, hc]
  rw [isFresh_of_older hc, isMarked_of_older hc]
  have hwithin : w.newest - c < 64 * n ↔ w.newest < c + 64 * n := by omega
  by_cases hnear : w.newest < c + 64 * n <;> simp [hc, hwithin, hnear]

/-- In the window after `c` was received, that is what is new. -/
theorem isMarked_mark (hd : d ≤ max w.newest c) (hnear : max w.newest c - d < 64 * n) :
    (w.mark c).isMarked d = true ↔ d = c ∨ w.isMarked d = true := by
  rw [isMarked_of_older (by rw [newest_mark]; omega), newest_mark, decide_eq_true hnear,
    Bool.true_and]
  unfold mark isMarked
  simp only [Bool.and_eq_true, decide_eq_true_eq]
  split
  · next hnew =>
    rw [Nat.max_eq_right hnew.le] at hd hnear ⊢
    rw [Bitmap.testBit_setBit _ (by omega), Bitmap.testBit_shiftLeft _ _ hnear]
    simp only [Bool.or_eq_true, Bool.and_eq_true, decide_eq_true_eq]
    have hshift : c - w.newest ≤ c - d ↔ d ≤ w.newest := by omega
    have hback : c - d - (c - w.newest) = w.newest - d := by omega
    have hwithin : w.newest - d < 64 * n := by omega
    have hzero : 0 = c - d ↔ d = c := by omega
    simp [hshift, hback, hwithin, hzero]
  · next hold =>
    rw [Nat.max_eq_left (by omega)] at hd hnear ⊢
    split
    · next hin =>
      have hsame : w.newest - c = w.newest - d ↔ d = c := by omega
      simp [Bitmap.testBit_setBit _ hin, hd, hnear, hsame]
    · have hne : d ≠ c := by omega
      simp [hd, hnear, hne]

/-- Marking `c` makes no other number received. -/
theorem isMarked_of_mark (h : (w.mark c).isMarked d = true) : d = c ∨ w.isMarked d = true := by
  have hin := h
  simp only [isMarked, newest_mark, Bool.and_eq_true, decide_eq_true_eq] at hin
  exact (isMarked_mark hin.1 hin.2.1).mp h

/-- A number that is fresh after `c` was received was so before, and is not `c`. -/
theorem isFresh_of_mark (h : (w.mark c).isFresh d = true) : w.isFresh d = true ∧ d ≠ c := by
  rw [isFresh_iff_isMarked, newest_mark] at h
  rw [isFresh_iff_isMarked]
  by_cases hd : max w.newest c < d
  · exact ⟨.inl (by omega), by omega⟩
  obtain ⟨hnear, hmark⟩ := h.resolve_left hd
  have hnot := (isMarked_mark (by omega) (by omega)).not.mp (Bool.eq_false_iff.mp hmark)
  obtain ⟨hne, hmark⟩ := not_or.mp hnot
  exact ⟨.inr ⟨by omega, Bool.eq_false_iff.mpr hmark⟩, hne⟩

/-- No bit stands for a number below 0. -/
def Grounded (w : SlidingWindow n) : Prop := ∀ i, w.bits.testBit i = true → i ≤ w.newest

theorem grounded_zero : (⟨0, Bitmap.zero n⟩ : SlidingWindow n).Grounded := by
  intro i hi
  simp at hi

theorem Grounded.mark (h : w.Grounded) (c : Nat) : (w.mark c).Grounded := by
  intro i hi
  rw [newest_mark]
  by_cases hin : i < 64 * n
  · unfold SlidingWindow.mark at hi
    split at hi
    · next hnew =>
      rw [Bitmap.testBit_setBit _ (by omega), Bitmap.testBit_shiftLeft _ _ hin] at hi
      simp only [Bool.or_eq_true, Bool.and_eq_true, decide_eq_true_eq] at hi
      rcases hi with hzero | ⟨hshift, hbit⟩
      · omega
      · have := h _ hbit
        omega
    · split at hi
      · next hnear =>
        rw [Bitmap.testBit_setBit _ hnear] at hi
        simp only [Bool.or_eq_true, decide_eq_true_eq] at hi
        rcases hi with heq | hbit
        · omega
        · exact (h i hbit).trans (le_max_left _ _)
      · exact (h i hi).trans (le_max_left _ _)
  · rw [Bitmap.testBit_of_le (by omega)] at hi
    simp at hi

/-- A number that is not fresh is at most the newest. -/
theorem le_newest (h : w.isFresh c = false) : c ≤ w.newest := by
  by_contra hlt
  simp [isFresh, show w.newest < c by omega] at h

/-- A window up to the newer of two newest numbers that knows what one of the two windows knows. -/
structure IsMerge (a b m : SlidingWindow n) : Prop where
  newest : m.newest = max a.newest b.newest
  bits : ∀ i < 64 * n, m.bits.testBit i =
    (decide (i ≤ m.newest) && (a.isMarked (m.newest - i) || b.isMarked (m.newest - i)))

namespace IsMerge

variable {a b c m m' ab bc : SlidingWindow n}

/-- Of what one of the two knows, a merged window knows what is not too old for it. -/
theorem isMarked_eq (h : IsMerge a b m) (x : Nat) :
    m.isMarked x = (decide (m.newest < x + 64 * n) && (a.isMarked x || b.isMarked x)) := by
  have hnewest := h.newest
  by_cases hx : m.newest < x
  · have ha : a.newest < x := by omega
    have hb : b.newest < x := by omega
    simp [isMarked_of_newer hx, isMarked_of_newer ha, isMarked_of_newer hb]
  rw [isMarked_of_older hx]
  by_cases hnear : m.newest - x < 64 * n
  · have hback : m.newest - (m.newest - x) = x := by omega
    have hwithin : m.newest < x + 64 * n := by omega
    simp [h.bits _ hnear, hback, hnear, hwithin]
  · have hwithin : ¬m.newest < x + 64 * n := by omega
    simp [hnear, hwithin]

/-- What is fresh for a merged window is fresh for both, and the other way round. -/
theorem isFresh_iff (h : IsMerge a b m) (x : Nat) :
    m.isFresh x = true ↔ a.isFresh x = true ∧ b.isFresh x = true := by
  have hnewest := h.newest
  have hnewer : ∀ w : SlidingWindow n, w.newest < x → w.isMarked x = false := fun w =>
    isMarked_of_newer
  rw [isFresh_iff_isMarked, isFresh_iff_isMarked, isFresh_iff_isMarked, h.isMarked_eq]
  by_cases hnear : m.newest < x + 64 * n
  · simp only [hnear, decide_true, Bool.true_and, Bool.or_eq_false_iff, true_and]
    constructor
    · rintro (hx | ⟨ha, hb⟩)
      · exact ⟨.inl (by omega), .inl (by omega)⟩
      · exact ⟨.inr ⟨by omega, ha⟩, .inr ⟨by omega, hb⟩⟩
    · rintro ⟨ha, hb⟩
      right
      constructor
      · exact ha.elim (hnewer a) (·.2)
      · exact hb.elim (hnewer b) (·.2)
  · -- too old for the merged window, hence for the one with its newest number
    constructor
    · rintro (hx | hwithin)
      · omega
      · exact absurd hwithin.1 hnear
    · rintro ⟨ha, hb⟩
      omega

theorem symm (h : IsMerge a b m) : IsMerge b a m where
  newest := h.newest.trans (max_comm _ _)
  bits := fun i hi => by rw [h.bits i hi, Bool.or_comm]

theorem unique (h : IsMerge a b m) (h' : IsMerge a b m') : m = m' := by
  have hnewest : m.newest = m'.newest := h.newest.trans h'.newest.symm
  have hbits : m.bits = m'.bits := by
    apply Bitmap.eq_of_testBit
    intro i hi
    rw [h.bits i hi, h'.bits i hi, hnewest]
  cases m
  cases m'
  simp only at hnewest hbits
  rw [hnewest, hbits]

/-- The order in which three windows are merged makes no difference. -/
theorem assoc (hab : IsMerge a b ab) (hm : IsMerge ab c m) (hbc : IsMerge b c bc) :
    IsMerge a bc m := by
  have hnewest := hm.newest
  have hab_newest := hab.newest
  have hbc_newest := hbc.newest
  constructor
  · rw [hnewest, hab_newest, hbc_newest, max_assoc]
  · intro i hi
    rw [hm.bits i hi]
    by_cases hle : i ≤ m.newest
    · -- what is near enough to the newest of all three is near enough to that of two
      have hab_near : ab.newest < m.newest - i + 64 * n := by omega
      have hbc_near : bc.newest < m.newest - i + 64 * n := by omega
      simp [hab.isMarked_eq, hbc.isMarked_eq, hab_near, hbc_near, Bool.or_assoc]
    · simp [hle]

theorem self (h : a.Grounded) : IsMerge a a a where
  newest := (max_self _).symm
  bits := by
    intro i hi
    by_cases hle : i ≤ a.newest
    · have hback : a.newest - (a.newest - i) = i := by omega
      have hold : ¬a.newest < a.newest - i := by omega
      simp [isMarked_of_older hold, hback, hle, hi]
    · cases hbit : a.bits.testBit i with
      | false => simp [hle]
      | true => exact absurd (h i hbit) hle

end IsMerge

end SlidingWindow

end AivpnSpec.Base
