import AivpnSpec.Base.SlidingWindow

/-!
# Replay windows of the kernel module

The counter windows of `linux-kernel/src/policy.h:279-433`, on which the kernel fast path and the
claims of userspace agree who may deliver a packet. Where no bit stands for a counter below 0,
marking a counter is marking it in the sliding window that the words encode.
-/

namespace AivpnSpec.Kernel

open AivpnSpec.Base

/-- `AIVPN_REPLAY_BITS`, `policy.h:36`. -/
def replayBits : Nat := 512

/-- The newest counter and the words, bit 0 for the newest itself. -/
structure ReplayWin where
  hi : UInt64
  words : Bitmap 8
  deriving DecidableEq

/-- What `aivpn_replay_observe_win` answers. -/
inductive Observed where
  | ok
  | dup
  | tooOld
  deriving DecidableEq

def ReplayWin.zero : ReplayWin := ⟨0, Bitmap.zero 8⟩

/-- `aivpn_replay_marked`, `policy.h:279-291`. -/
def replayMarked (w : ReplayWin) (counter : UInt64) : Bool :=
  if w.hi < counter then false
  else if replayBits ≤ (w.hi - counter).toNat then false
  else w.words.readBit (w.hi - counter).toNat

/-- `aivpn_replay_observe_win`, `policy.h:293-305`. -/
def replayObserveWin (w : ReplayWin) (counter : UInt64) : Observed :=
  if w.hi < counter then .ok
  else if replayBits ≤ (w.hi - counter).toNat then .tooOld
  else if replayMarked w counter then .dup
  else .ok

/-- `aivpn_replay_set`, `policy.h:312-343`: a newer counter moves the marked ones up bit by bit. -/
def replaySet (w : ReplayWin) (counter : UInt64) : ReplayWin :=
  if w.hi < counter then
    let diff := (counter - w.hi).toNat
    let words :=
      if replayBits ≤ diff then Bitmap.zero 8
      else
        -- for a bit above the newest counter the subtraction wraps, and that counter is not marked
        Bitmap.collect (fun i => decide (replayBits ≤ i + diff))
          (fun i => replayMarked w (w.hi - UInt64.ofNat i)) diff replayBits 0 (Bitmap.zero 8)
    ⟨counter, words.setBit 0⟩
  else if (w.hi - counter).toNat < replayBits then
    ⟨w.hi, w.words.setBit (w.hi - counter).toNat⟩
  else w

/-- `aivpn_replay_merge`, `policy.h:350-370`. -/
def replayMerge (w other : ReplayWin) : ReplayWin :=
  let newHi := if other.hi < w.hi then w.hi else other.hi
  let keep := fun i =>
    let counter := newHi - UInt64.ofNat i
    replayMarked w counter || replayMarked other counter
  ⟨newHi, Bitmap.collect (fun i => decide (newHi < UInt64.ofNat i)) keep 0 replayBits 0
    (Bitmap.zero 8)⟩

/-- `struct aivpn_epoch_win`, `policy.h:374-383`: the window of the installed key and that of the
key before it. -/
structure EpochWin where
  epoch : UInt32
  prevEpoch : UInt32
  prevValid : Bool
  current : ReplayWin
  previous : ReplayWin
  deriving DecidableEq

/-- The codes of `aivpn_epoch_claim`. -/
inductive ClaimResult where
  | ok
  | dup
  | tooOld
  | epoch
  deriving DecidableEq

def EpochWin.zero : EpochWin := ⟨0, 0, false, .zero, .zero⟩

/-- The code for an observation that is not `ok`, `policy.h:404-407`. -/
def claimCode : Observed → ClaimResult
  | .ok => .ok
  | .dup => .dup
  | .tooOld => .tooOld

/-- `aivpn_epoch_claim`, `policy.h:386-411`. -/
def epochClaim (w : EpochWin) (epoch : UInt32) (counter : UInt64) : ClaimResult × EpochWin :=
  if epoch = 0 ∨ w.epoch = 0 then (.epoch, w)
  else if epoch = w.epoch then
    match replayObserveWin w.current counter with
    | .ok => (.ok, { w with current := replaySet w.current counter })
    | seen => (claimCode seen, w)
  else if w.prevValid ∧ epoch = w.prevEpoch then
    match replayObserveWin w.previous counter with
    | .ok => (.ok, { w with previous := replaySet w.previous counter })
    | seen => (claimCode seen, w)
  else (.epoch, w)

/-- `aivpn_epoch_rotate`, `policy.h:415-433`: the new window, or nothing where it returns `-1`. -/
def epochRotate (w : EpochWin) (epoch : UInt32) : Option EpochWin :=
  if epoch = 0 then none
  else if w.epoch = epoch then some w
  else if w.epoch ≠ 0 ∧ epoch < w.epoch then none
  else if w.epoch ≠ 0 then
    some { epoch := epoch, prevEpoch := w.epoch, prevValid := true, current := .zero,
           previous := w.current }
  else some { w with epoch := epoch, current := .zero }

namespace ReplayWin

def window (w : ReplayWin) : SlidingWindow 8 := ⟨w.hi.toNat, w.words⟩

theorem grounded_zero : zero.window.Grounded := SlidingWindow.grounded_zero

end ReplayWin

theorem replayMarked_eq (w : ReplayWin) (counter : UInt64) :
    replayMarked w counter = w.window.isMarked counter.toNat := by
  unfold replayMarked
  rcases newer_or_older w.hi counter with ⟨hnew, hlt, -⟩ | ⟨hold, hnlt, hdiff⟩
  · rw [if_pos hnew, SlidingWindow.isMarked_of_newer (w := w.window) hlt]
  rw [if_neg hold, hdiff, Bitmap.readBit_eq,
    SlidingWindow.isMarked_of_older (w := w.window) hnlt]
  by_cases hfar : 512 ≤ w.hi.toNat - counter.toNat
  · simp [ReplayWin.window, replayBits, hfar, Nat.not_lt.mpr hfar]
  · simp [ReplayWin.window, replayBits, hfar, Nat.not_le.mp hfar]

/-- The kernel takes a counter exactly if the window holds it for fresh. -/
theorem replayObserveWin_ok_iff (w : ReplayWin) (counter : UInt64) :
    replayObserveWin w counter = .ok ↔ w.window.isFresh counter.toNat = true := by
  unfold replayObserveWin
  rw [replayMarked_eq]
  rcases newer_or_older w.hi counter with ⟨hnew, hlt, -⟩ | ⟨hold, hnlt, hdiff⟩
  · simp [hnew, SlidingWindow.isFresh_of_newer (w := w.window) hlt]
  rw [if_neg hold, hdiff, SlidingWindow.isMarked_of_older (w := w.window) hnlt,
    SlidingWindow.isFresh_of_older (w := w.window) hnlt]
  by_cases hfar : 512 ≤ w.hi.toNat - counter.toNat
  · simp [ReplayWin.window, replayBits, hfar, Nat.not_lt.mpr hfar]
  · cases hbit : w.words.testBit (w.hi.toNat - counter.toNat) <;>
      simp [ReplayWin.window, replayBits, hfar, Nat.not_le.mp hfar, hbit]

/-- The counter that stands `i` below the newest one, as the loops of `policy.h` compute it. -/
theorem marked_below (w : ReplayWin) {i : Nat} (hi : i < replayBits) :
    replayMarked w (w.hi - UInt64.ofNat i) = (decide (i ≤ w.hi.toNat) && w.words.testBit i) := by
  unfold replayBits at hi
  have hsmall : (UInt64.ofNat i).toNat = i := by
    rw [UInt64.toNat_ofNat']
    omega
  rw [replayMarked_eq]
  unfold SlidingWindow.isMarked ReplayWin.window
  by_cases hle : i ≤ w.hi.toNat
  · have hsub : (w.hi - UInt64.ofNat i).toNat = w.hi.toNat - i := by
      rw [UInt64.toNat_sub_of_le _ _ (UInt64.le_iff_toNat_le.mpr (by omega)), hsmall]
    have hback : w.hi.toNat - (w.hi.toNat - i) = i := by omega
    have hin : i < 64 * 8 := hi
    simp [hsub, hback, hle, hin]
  · -- the subtraction wraps to a counter above the newest
    have hwrap : ¬ (w.hi - UInt64.ofNat i).toNat ≤ w.hi.toNat := by
      have := w.hi.toNat_lt
      rw [UInt64.toNat_sub, hsmall]
      omega
    simp [hwrap, hle]

variable {w : ReplayWin}

/-- Without bits below counter 0 the kernel's marking is that of the sliding window. -/
theorem window_replaySet (hw : w.window.Grounded) (counter : UInt64) :
    (replaySet w counter).window = w.window.mark counter.toNat := by
  unfold replaySet SlidingWindow.mark
  rcases newer_or_older w.hi counter with ⟨hnew, hlt, hdiff⟩ | ⟨hold, hnlt, hdiff⟩
  · rw [if_pos hnew, if_pos (show w.window.newest < counter.toNat from hlt)]
    simp only [ReplayWin.window, hdiff, SlidingWindow.mk.injEq, true_and]
    congr 1
    apply Bitmap.eq_of_testBit
    intro j hj
    rw [Bitmap.testBit_shiftLeft _ _ hj]
    split
    · next hfar =>
      unfold replayBits at hfar
      have hnot : ¬ counter.toNat - w.hi.toNat ≤ j := by omega
      simp [hnot]
    next hnear =>
    rw [Bitmap.testBit_collect ?_ ?_ (le_refl (0 + replayBits))]
    · unfold replayBits at hnear ⊢
      by_cases hshift : counter.toNat - w.hi.toNat ≤ j
      · have hin : j - (counter.toNat - w.hi.toNat) < 512 := by omega
        have hrange : 0 + (counter.toNat - w.hi.toNat) ≤ j ∧
            j < 0 + (counter.toNat - w.hi.toNat) + 512 := by omega
        have hgo : ¬ 512 ≤ j - (counter.toNat - w.hi.toNat) + (counter.toNat - w.hi.toNat) := by
          omega
        rw [marked_below w hin]
        simp only [Bitmap.testBit_zero, Bool.false_or, hrange, and_self, decide_true,
          Bool.true_and, hgo, decide_false, Bool.not_false, hshift]
        cases hbit : w.words.testBit (j - (counter.toNat - w.hi.toNat)) with
        | false => simp
        | true =>
          have hground : j - (counter.toNat - w.hi.toNat) ≤ w.hi.toNat := hw _ hbit
          simp [hground]
      · simp [hshift]
    · intro k _ hk
      simp only [decide_eq_true_eq] at hk ⊢
      omega
    · intro k _ hk _
      unfold replayBits at hk
      simp only [decide_eq_false_iff_not] at hk
      omega
  · rw [if_neg hold, if_neg (show ¬ w.window.newest < counter.toNat from hnlt), hdiff]
    by_cases hnear : w.hi.toNat - counter.toNat < replayBits
    · rw [if_pos hnear, if_pos (show w.window.newest - counter.toNat < 64 * 8 from hnear)]
      rfl
    · rw [if_neg hnear, if_neg (show ¬ w.window.newest - counter.toNat < 64 * 8 from hnear)]

/-- A merged window marks what one of the two windows marks. -/
theorem testBit_replayMerge (w other : ReplayWin) {i : Nat} (hi : i < replayBits) :
    (replayMerge w other).words.testBit i =
      (decide (i ≤ (replayMerge w other).hi.toNat) &&
        (replayMarked w ((replayMerge w other).hi - UInt64.ofNat i) ||
          replayMarked other ((replayMerge w other).hi - UInt64.ofNat i))) := by
  unfold replayMerge
  dsimp only
  generalize (if other.hi < w.hi then w.hi else other.hi) = newHi
  have hsmall : ∀ k < replayBits, (newHi < UInt64.ofNat k ↔ newHi.toNat < k) := by
    intro k hk
    unfold replayBits at hk
    rw [UInt64.lt_iff_toNat_lt, UInt64.toNat_ofNat']
    omega
  rw [Bitmap.testBit_collect ?_ ?_ (le_refl (0 + replayBits))]
  · have hrange : 0 + 0 ≤ i ∧ i < 0 + 0 + replayBits := by omega
    simp only [Bitmap.testBit_zero, Bool.false_or, hrange, and_self, decide_true, Bool.true_and,
      Nat.sub_zero, hsmall i hi]
    by_cases hle : i ≤ newHi.toNat
    · simp [hle, Nat.not_lt.mpr hle]
    · simp [hle, Nat.not_le.mp hle]
  · intro k hk hstop
    simp only [decide_eq_true_eq] at hstop ⊢
    rw [hsmall (k + 1) (by omega)]
    rw [hsmall k (by omega)] at hstop
    omega
  · intro k hk _ _
    unfold replayBits at hk
    omega

/-- A merged window has no bit below counter 0, whatever the two windows were. -/
theorem grounded_replayMerge (w other : ReplayWin) : (replayMerge w other).window.Grounded := by
  intro i hbit
  by_cases hi : i < replayBits
  · have hmark := testBit_replayMerge w other hi
    rw [show (replayMerge w other).words.testBit i = true from hbit] at hmark
    have hand := hmark.symm
    rw [Bool.and_eq_true, decide_eq_true_eq] at hand
    exact hand.1
  · rw [Bitmap.testBit_of_le (Nat.not_lt.mp hi)] at hbit
    exact absurd hbit (by decide)

/-- The kernel's merge is that of the sliding windows. -/
theorem isMerge_replayMerge (w other : ReplayWin) :
    SlidingWindow.IsMerge w.window other.window (replayMerge w other).window where
  newest := by
    simp only [ReplayWin.window, replayMerge]
    split
    · next h => exact (Nat.max_eq_left (UInt64.lt_iff_toNat_lt.mp h).le).symm
    · next h =>
      exact (Nat.max_eq_right (UInt64.le_iff_toNat_le.mp (UInt64.not_lt.mp h))).symm
  bits := by
    intro i hi
    have hbit := testBit_replayMerge w other hi
    simp only [ReplayWin.window]
    rw [hbit, replayMarked_eq, replayMarked_eq]
    by_cases hle : i ≤ (replayMerge w other).hi.toNat
    · have hsmall : (UInt64.ofNat i).toNat = i := by
        rw [UInt64.toNat_ofNat']
        omega
      have hsub : ((replayMerge w other).hi - UInt64.ofNat i).toNat =
          (replayMerge w other).hi.toNat - i := by
        rw [UInt64.toNat_sub_of_le _ _ (UInt64.le_iff_toNat_le.mpr (by omega)), hsmall]
      rw [hsub]
      rfl
    · simp [hle]

theorem window_injective {v : ReplayWin} (h : w.window = v.window) : w = v := by
  have hhi : w.hi = v.hi := UInt64.toNat_inj.mp (congrArg SlidingWindow.newest h)
  have hwords : w.words = v.words := congrArg SlidingWindow.bits h
  cases w
  cases v
  rw [ReplayWin.mk.injEq]
  exact ⟨hhi, hwords⟩

theorem grounded_replaySet (hw : w.window.Grounded) (counter : UInt64) :
    (replaySet w counter).window.Grounded := by
  rw [window_replaySet hw]
  exact hw.mark _

end AivpnSpec.Kernel
