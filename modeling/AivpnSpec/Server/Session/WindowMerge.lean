import AivpnSpec.Server.Session.SharedWindow

/-!
# Merging replay windows

`merge_replay_window` of userspace, `kernel_accel.rs:475-494`, and `aivpn_replay_merge` of the
kernel, `policy.h:350-370`. A merged window holds exactly those counters for fresh that both windows
hold for fresh. Both merges are commutative and associative on any windows, and idempotent on the
windows that a session or the kernel can have: none of these has a bit for a counter below 0, which
a merge would drop.
-/

namespace AivpnSpec.Server

open AivpnSpec.Base AivpnSpec.Kernel

/-- What happens to the receive window of a session. -/
inductive ReceiveOp where
  | mark (counter : UInt64)
  /-- `absorb_shared_replay`, `session.rs:584-592`, of any window -/
  | absorb (hi : UInt64) (words : Bitmap 8)
  /-- `adopt_shared_replay`, `session.rs:595-599`, of the kernel's window after some operations -/
  | adopt (ops : List WindowOp)
  /-- the window of new keys, which has seen nothing -/
  | reset (counter : UInt64)

def receiveStep (width : PointerWidth) (w : ReceiveWindow) : ReceiveOp → ReceiveWindow
  | .mark counter => w.markTagReceived width counter
  | .absorb hi words => w.mergeReplayWindow ⟨hi, words⟩
  | .adopt ops => ⟨(kernelAfter ops ops.length).hi, (kernelAfter ops ops.length).words⟩
  | .reset counter => ⟨counter, Bitmap.zero 8⟩

def receiveAfter (width : PointerWidth) (ops : List ReceiveOp) : ReceiveWindow :=
  stateAt (receiveStep width) .empty ops ops.length

theorem grounded_kernelAfter (ops : List WindowOp) (k : Nat) :
    (kernelAfter ops k).window.Grounded := by
  apply stateAt_invariant (I := fun w : ReplayWin => w.window.Grounded) ReplayWin.grounded_zero
  intro w op h
  cases op with
  | mark counter => exact grounded_replaySet h counter
  | merge hi words => exact grounded_replayMerge w ⟨hi, words⟩

variable {w : ReceiveWindow} {width : PointerWidth}

/-- A cut distance moves the bits less far than the counter. -/
theorem grounded_markTagReceived (h : w.window.Grounded) (counter : UInt64) :
    (w.markTagReceived width counter).window.Grounded := by
  have hcut : ∀ x : UInt64, width.asUsize x ≤ x.toNat := fun x => Nat.mod_le _ _
  unfold ReceiveWindow.markTagReceived
  rcases newer_or_older w.counter counter with ⟨hnew, hlt, hdiff⟩ | ⟨hold, hnlt, hdiff⟩
  · rw [if_pos hnew]
    intro i hbit
    simp only [ReceiveWindow.window] at hbit ⊢
    by_cases hin : i < 64 * 8
    · rw [Bitmap.testBit_setBit _ (by decide), Bitmap.testBit_shiftLeft _ _ hin] at hbit
      simp only [Bool.or_eq_true, Bool.and_eq_true, decide_eq_true_eq] at hbit
      rcases hbit with hzero | ⟨hshift, hmoved⟩
      · omega
      · have hbefore : i - width.asUsize (counter - w.counter) ≤ w.counter.toNat := h _ hmoved
        have := hcut (counter - w.counter)
        omega
    · rw [Bitmap.testBit_of_le (by omega)] at hbit
      cases hbit
  · rw [if_neg hold]
    dsimp only
    split
    · next hnear =>
      intro i hbit
      simp only [ReceiveWindow.window] at hbit ⊢
      rw [Bitmap.testBit_setBit _ hnear] at hbit
      simp only [Bool.or_eq_true, decide_eq_true_eq] at hbit
      rcases hbit with heq | hbefore
      · have := hcut (w.counter - counter)
        omega
      · exact h i hbefore
    · exact h

theorem grounded_receiveStep (h : w.window.Grounded) (op : ReceiveOp) :
    (receiveStep width w op).window.Grounded := by
  cases op with
  | mark counter => exact grounded_markTagReceived h counter
  | absorb hi words =>
    simp only [receiveStep, ReceiveWindow.window_mergeReplayWindow]
    exact grounded_replayMerge _ _
  | adopt ops => exact grounded_kernelAfter ops ops.length
  | reset counter =>
    intro i hbit
    simp [receiveStep, ReceiveWindow.window] at hbit

theorem grounded_receiveAfter (width : PointerWidth) (ops : List ReceiveOp) :
    (receiveAfter width ops).window.Grounded := by
  have hempty : ReceiveWindow.empty.window.Grounded := by
    intro i hbit
    simp [ReceiveWindow.empty, ReceiveWindow.window] at hbit
  exact stateAt_invariant (I := fun w : ReceiveWindow => w.window.Grounded) hempty
    (fun _ op h => grounded_receiveStep h op) ops.length

theorem receiveWindow_injective {v : ReceiveWindow} (h : w.window = v.window) : w = v := by
  have hcounter : w.counter = v.counter := UInt64.toNat_inj.mp (congrArg SlidingWindow.newest h)
  have hbits : w.receivedBitmap = v.receivedBitmap := congrArg SlidingWindow.bits h
  cases w
  cases v
  rw [ReceiveWindow.mk.injEq]
  exact ⟨hcounter, hbits⟩

/-- What a merge of windows does to the counters that are fresh, and its algebra. -/
structure MergeLaws {W : Type} (merge : W → W → W) (fresh : W → UInt64 → Bool)
    (reachable : W → Prop) : Prop where
  fresh_iff : ∀ a b c, fresh (merge a b) c = true ↔ fresh a c = true ∧ fresh b c = true
  comm : ∀ a b, merge a b = merge b a
  assoc : ∀ a b c, merge (merge a b) c = merge a (merge b c)
  idem : ∀ a, reachable a → merge a a = a

/-- Windows that merge as sliding windows do. -/
theorem mergeLaws_of_isMerge {W : Type} {merge : W → W → W} {fresh : W → UInt64 → Bool}
    {window : W → SlidingWindow 8} (hinjective : ∀ {w v}, window w = window v → w = v)
    (hfresh : ∀ w c, fresh w c = (window w).isFresh c.toNat)
    (hmerge : ∀ a b, SlidingWindow.IsMerge (window a) (window b) (window (merge a b))) :
    MergeLaws merge fresh fun w => (window w).Grounded where
  fresh_iff := by
    intro a b c
    rw [hfresh, hfresh, hfresh]
    exact (hmerge a b).isFresh_iff c.toNat
  comm := fun a b => hinjective ((hmerge a b).unique (hmerge b a).symm)
  assoc := by
    intro a b c
    have hleft := (hmerge a b).assoc (hmerge (merge a b) c) (hmerge b c)
    exact hinjective (hleft.unique (hmerge a (merge b c)))
  idem := fun a ha => hinjective ((hmerge a a).unique (SlidingWindow.IsMerge.self ha))

/-- Merging windows is exact, in userspace and in the kernel: a counter is fresh afterwards exactly
if it was fresh in both, so that a seen or expired counter never becomes fresh again; the merge is
commutative and associative, and idempotent on every window that operations lead to. -/
theorem merge_exact (width : PointerWidth) :
    MergeLaws ReceiveWindow.mergeReplayWindow (ReceiveWindow.counterIsFresh width)
      (fun w => ∃ ops, w = receiveAfter width ops) ∧
    MergeLaws replayMerge (fun w c => decide (replayObserveWin w c = .ok))
      (fun w => ∃ ops k, w = kernelAfter ops k) := by
  constructor
  · have hlaws := mergeLaws_of_isMerge receiveWindow_injective
      (ReceiveWindow.counterIsFresh_eq width) fun w other => by
        rw [ReceiveWindow.window_mergeReplayWindow]
        exact isMerge_replayMerge ⟨w.counter, w.receivedBitmap⟩
          ⟨other.counter, other.receivedBitmap⟩
    refine ⟨hlaws.fresh_iff, hlaws.comm, hlaws.assoc, ?_⟩
    rintro _ ⟨ops, rfl⟩
    exact hlaws.idem _ (grounded_receiveAfter width ops)
  · have hfresh : ∀ (w : ReplayWin) c, decide (replayObserveWin w c = .ok) =
        w.window.isFresh c.toNat := by
      intro w c
      rw [Bool.eq_iff_iff, decide_eq_true_iff]
      exact replayObserveWin_ok_iff w c
    have hlaws := mergeLaws_of_isMerge window_injective hfresh isMerge_replayMerge
    refine ⟨hlaws.fresh_iff, hlaws.comm, hlaws.assoc, ?_⟩
    rintro _ ⟨ops, k, rfl⟩
    exact hlaws.idem _ (grounded_kernelAfter ops k)

/-- A bit for a counter below 0, which no run sets, is lost. -/
example : let w : ReplayWin := ⟨0, (Bitmap.zero 8).setBit 1⟩; replayMerge w w ≠ w := by
  decide +kernel

end AivpnSpec.Server
