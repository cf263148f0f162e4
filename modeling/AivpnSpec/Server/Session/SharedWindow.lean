import AivpnSpec.Base.Runs
import AivpnSpec.Kernel.Replay
import AivpnSpec.Server.Session.State

/-!
# One replay window in userspace and in the kernel

The window of a server session, `session.rs:419-480` and `1043-1058` with the merge of
`kernel_accel.rs:462-494`, next to the kernel's. Userspace shifts whole words, the kernel moves
bits one by one; from the empty window on both hold the same words, because no bit ever stands for
a counter below 0. Userspace casts the distance of a counter to `usize`: on a target with 32-bit
pointers a jump of `2 ^ 32` or more is cut, and there the two windows part.
-/

namespace AivpnSpec.Server

open AivpnSpec.Base AivpnSpec.Kernel

/-- The width of `usize` on a target of the server. -/
inductive PointerWidth where
  | bits32
  | bits64
  deriving DecidableEq

namespace PointerWidth

def bits : PointerWidth → Nat
  | bits32 => 32
  | bits64 => 64

/-- `as usize`. -/
def asUsize (width : PointerWidth) (x : UInt64) : Nat := x.toNat % 2 ^ width.bits

theorem asUsize_of_lt {width : PointerWidth} {x : UInt64} (h : x.toNat < 2 ^ width.bits) :
    width.asUsize x = x.toNat := Nat.mod_eq_of_lt h

end PointerWidth

/-- The fields `counter` and `received_bitmap` of a session. -/
structure ReceiveWindow where
  counter : UInt64
  receivedBitmap : Bitmap 8
  deriving DecidableEq

namespace ReceiveWindow

def empty : ReceiveWindow := ⟨0, Bitmap.zero 8⟩

/-- `mark_tag_received`, `session.rs:1043-1058`. -/
def markTagReceived (width : PointerWidth) (w : ReceiveWindow) (counter : UInt64) :
    ReceiveWindow :=
  if w.counter < counter then
    let shift := width.asUsize (counter - w.counter)
    ⟨counter, (w.receivedBitmap.shiftLeft shift).setBit 0⟩
  else
    let bitIndex := width.asUsize (w.counter - counter)
    if bitIndex < tagWindowSize then ⟨w.counter, w.receivedBitmap.setBit bitIndex⟩ else w

/-- `counter_is_fresh`, `session.rs:563-569`. -/
def counterIsFresh (width : PointerWidth) (w : ReceiveWindow) (counter : UInt64) : Bool :=
  decide (w.counter < counter) ||
    (decide ((w.counter - counter).toNat < tagWindowSize) &&
      !w.receivedBitmap.testBit (width.asUsize (w.counter - counter)))

/-- `replay_marked`, `kernel_accel.rs:462-472`. -/
def replayMarked (w : ReceiveWindow) (counter : UInt64) : Bool :=
  if w.counter < counter then false
  else if replayBits ≤ (w.counter - counter).toNat then false
  else w.receivedBitmap.readBit (w.counter - counter).toNat

/-- `merge_replay_window`, `kernel_accel.rs:475-494`, as `absorb_shared_replay` calls it. -/
def mergeReplayWindow (w other : ReceiveWindow) : ReceiveWindow :=
  let newHi := max w.counter other.counter
  let keep := fun i =>
    let counter := newHi - UInt64.ofNat i
    w.replayMarked counter || other.replayMarked counter
  ⟨newHi, Bitmap.collect (fun i => decide (newHi < UInt64.ofNat i)) keep 0 replayBits 0
    (Bitmap.zero 8)⟩

def window (w : ReceiveWindow) : SlidingWindow 8 := ⟨w.counter.toNat, w.receivedBitmap⟩

/-- With pointers of 64 bits this is the window of the session model. -/
theorem markTagReceived_session (s : Session) (w : ReceiveWindow) (h : s.window = w.window)
    (counter : UInt64) :
    (s.markTagReceived counter.toNat).window = (w.markTagReceived .bits64 counter).window := by
  have hcounter : s.counter = w.counter.toNat := congrArg SlidingWindow.newest h
  have hbits : s.receivedBitmap = w.receivedBitmap := congrArg SlidingWindow.bits h
  have hcast : ∀ x : UInt64, PointerWidth.bits64.asUsize x = x.toNat := fun x =>
    PointerWidth.asUsize_of_lt x.toNat_lt
  have hhint : ∀ s : Session, s.clearConsumedTagHint.window = s.window := by
    intro s
    unfold Session.clearConsumedTagHint
    split <;> rfl
  unfold Session.markTagReceived markTagReceived
  rw [hcounter, hbits]
  rcases newer_or_older w.counter counter with ⟨hnew, hlt, hdiff⟩ | ⟨hold, hnlt, hdiff⟩
  · rw [if_pos hnew, if_pos hlt, hhint, hcast, hdiff]
    rfl
  rw [if_neg hold, if_neg hnlt, hcast, hdiff]
  dsimp only
  by_cases hnear : w.counter.toNat - counter.toNat < tagWindowSize
  · rw [if_pos hnear, if_pos hnear, hhint]
    simp only [Session.window, window]
  · rw [if_neg hnear, if_neg hnear, hhint]
    exact h

/-- Whether a counter is fresh does not depend on the width of pointers: it is looked up in the
window only if its distance is small. -/
theorem counterIsFresh_eq (width : PointerWidth) (w : ReceiveWindow) (counter : UInt64) :
    w.counterIsFresh width counter = w.window.isFresh counter.toNat := by
  unfold counterIsFresh
  rcases newer_or_older w.counter counter with ⟨hnew, hlt, -⟩ | ⟨hold, hnlt, hdiff⟩
  · simp [hnew, SlidingWindow.isFresh_of_newer (w := w.window) hlt]
  rw [SlidingWindow.isFresh_of_older (w := w.window) hnlt, hdiff]
  by_cases hnear : w.counter.toNat - counter.toNat < 512
  · have hcast : width.asUsize (w.counter - counter) = w.counter.toNat - counter.toNat := by
      rw [PointerWidth.asUsize_of_lt, hdiff]
      cases width <;> simp only [PointerWidth.bits] <;> omega
    simp [hold, hcast, hnear, window, tagWindowSize]
  · simp [hold, hnear, window, tagWindowSize]

/-- Userspace merges windows as the kernel does. -/
theorem window_mergeReplayWindow (w other : ReceiveWindow) :
    (w.mergeReplayWindow other).window =
      (replayMerge ⟨w.counter, w.receivedBitmap⟩ ⟨other.counter, other.receivedBitmap⟩).window := by
  have hmax : max w.counter other.counter =
      if other.counter < w.counter then w.counter else other.counter := by
    by_cases hlt : other.counter < w.counter
    · have hnle : ¬ w.counter ≤ other.counter := UInt64.not_le.mpr hlt
      simp [max, hlt, hnle]
    · have hle : w.counter ≤ other.counter := UInt64.not_lt.mp hlt
      simp [max, hlt, hle]
  simp only [mergeReplayWindow, replayMerge, hmax]
  rfl

end ReceiveWindow

/-- A counter is marked, or a foreign window is merged. -/
inductive WindowOp where
  | mark (counter : UInt64)
  | merge (hi : UInt64) (words : Bitmap 8)

def kernelStep (w : ReplayWin) : WindowOp → ReplayWin
  | .mark counter => replaySet w counter
  | .merge hi words => replayMerge w ⟨hi, words⟩

def kernelAfter (ops : List WindowOp) (k : Nat) : ReplayWin := stateAt kernelStep .zero ops k

/-- The distance of a marked counter from the newest one fits a pointer. -/
def InReach (width : PointerWidth) (w : ReplayWin) : WindowOp → Prop
  | .mark counter =>
    counter.toNat - w.hi.toNat < 2 ^ width.bits ∧ w.hi.toNat - counter.toNat < 2 ^ width.bits
  | .merge _ _ => True

/-- The kernel's window, without a bit below counter 0, and the same one in userspace. -/
structure Same (r : ReceiveWindow) (w : ReplayWin) : Prop where
  counter : r.counter = w.hi
  words : r.receivedBitmap = w.words
  grounded : w.window.Grounded

variable {r : ReceiveWindow} {w : ReplayWin} {counter : UInt64}

/-- Within reach userspace marks a counter as the sliding window does. -/
theorem window_markTagReceived {width : PointerWidth} (h : Same r w)
    (hreach : InReach width w (.mark counter)) :
    (r.markTagReceived width counter).window = r.window.mark counter.toNat := by
  obtain ⟨hahead, hbehind⟩ := hreach
  rw [← h.counter] at hahead hbehind
  unfold ReceiveWindow.markTagReceived SlidingWindow.mark
  rcases newer_or_older r.counter counter with ⟨hnew, hlt, hdiff⟩ | ⟨hold, hnlt, hdiff⟩
  · rw [if_pos hnew, if_pos (show r.window.newest < counter.toNat from hlt),
      PointerWidth.asUsize_of_lt (by omega), hdiff]
    rfl
  rw [if_neg hold, if_neg (show ¬ r.window.newest < counter.toNat from hnlt),
    PointerWidth.asUsize_of_lt (by omega), hdiff]
  by_cases hnear : r.counter.toNat - counter.toNat < tagWindowSize
  · rw [if_pos hnear, if_pos (show r.window.newest - counter.toNat < 64 * 8 from hnear)]
    rfl
  · rw [if_neg hnear, if_neg (show ¬ r.window.newest - counter.toNat < 64 * 8 from hnear)]

theorem Same.mark {width : PointerWidth} (h : Same r w) (hreach : InReach width w (.mark counter)) :
    Same (r.markTagReceived width counter) (replaySet w counter) := by
  have hsame : r.window = w.window := by
    simp only [ReceiveWindow.window, ReplayWin.window, h.counter, h.words]
  have hmark : (r.markTagReceived width counter).window = (replaySet w counter).window := by
    rw [window_markTagReceived h hreach, window_replaySet h.grounded, hsame]
  constructor
  · exact UInt64.toNat_inj.mp (congrArg SlidingWindow.newest hmark)
  · exact congrArg SlidingWindow.bits hmark
  · exact grounded_replaySet h.grounded counter

theorem Same.merge (h : Same r w) (hi : UInt64) (words : Bitmap 8) :
    Same (r.mergeReplayWindow ⟨hi, words⟩) (replayMerge w ⟨hi, words⟩) := by
  have hwindow := r.window_mergeReplayWindow ⟨hi, words⟩
  rw [h.counter, h.words] at hwindow
  constructor
  · exact UInt64.toNat_inj.mp (congrArg SlidingWindow.newest hwindow)
  · exact congrArg SlidingWindow.bits hwindow
  · exact grounded_replayMerge _ _

/-- Both give the same answer on every counter. -/
theorem Same.fresh_iff (h : Same r w) (width : PointerWidth) (counter : UInt64) :
    r.counterIsFresh width counter = true ↔ replayObserveWin w counter = .ok := by
  have hsame : r.window = w.window := by
    simp only [ReceiveWindow.window, ReplayWin.window, h.counter, h.words]
  rw [replayObserveWin_ok_iff, ReceiveWindow.counterIsFresh_eq, hsame]

end AivpnSpec.Server
