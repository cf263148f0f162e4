import AivpnSpec.Base.SlidingWindow
import AivpnSpec.Common.Mask

/-!
# The client's receive window

`crates/aivpn-common/src/client_wire.rs:34-294`. The newest counter that was received and 256 bits
for the counters from it down, in two 128-bit halves. Once a counter was received the window is a
sliding window of four words; before, every counter is new.
-/

namespace AivpnSpec.Client

open AivpnSpec.Base AivpnSpec.Common

/-- `Bitset256`, `client_wire.rs:51-55`. -/
structure Bitset256 where
  lo : BitVec 128
  hi : BitVec 128
  deriving DecidableEq

namespace Bitset256

/-- `new`, `client_wire.rs:58-60`. -/
def new : Bitset256 := ⟨0, 0⟩

variable (b : Bitset256) {i : Nat}

/-- `shl`, `client_wire.rs:67-85`. -/
def shl (shift : Nat) : Bitset256 :=
  if 256 ≤ shift then new
  else if shift = 0 then b
  else if 128 ≤ shift then ⟨0, b.lo <<< (shift - 128)⟩
  else ⟨b.lo <<< shift, (b.hi <<< shift) ||| (b.lo >>> (128 - shift))⟩

/-- `set_bit`, `client_wire.rs:87-93`. -/
def setBit (bit : Nat) : Bitset256 :=
  if bit < 128 then { b with lo := b.lo ||| (1#128 <<< bit) }
  else if bit < 256 then { b with hi := b.hi ||| (1#128 <<< (bit - 128)) }
  else b

/-- `get_bit`, `client_wire.rs:95-103`. -/
def getBit (bit : Nat) : Bool :=
  if bit < 128 then (b.lo >>> bit) &&& 1 == 1
  else if bit < 256 then (b.hi >>> (bit - 128)) &&& 1 == 1
  else false

/-- The four words of the set, as `observation_counts` takes them, `client_wire.rs:206-213`. -/
def words : Bitmap 4 :=
  ⟨#v[b.lo.setWidth 64, (b.lo >>> 64).setWidth 64, b.hi.setWidth 64, (b.hi >>> 64).setWidth 64]⟩

/-- The bit read by shifting the half down. -/
theorem shiftRight_and_one (x : BitVec 128) (i : Nat) : ((x >>> i) &&& 1 == 1) = x.getLsbD i := by
  have hone : (x >>> i) &&& 1 = BitVec.setWidth 128 (BitVec.ofBool ((x >>> i).getLsbD 0)) :=
    BitVec.and_one_eq_setWidth_ofBool_getLsbD
  rw [hone, BitVec.getLsbD_ushiftRight, Nat.add_zero]
  cases x.getLsbD i <;> rfl

/-- A bit of the set, by halves. -/
theorem getBit_eq (i : Nat) :
    b.getBit i = if i < 128 then b.lo.getLsbD i else b.hi.getLsbD (i - 128) := by
  unfold getBit
  rw [shiftRight_and_one, shiftRight_and_one]
  split
  · rfl
  · split
    · rfl
    · next hfar => rw [BitVec.getLsbD_of_ge _ _ (by omega)]

theorem getLsbD_one_shiftLeft (i j : Nat) (hj : j < 128) :
    (1#128 <<< i).getLsbD j = decide (i = j) := by
  rw [BitVec.getLsbD_shiftLeft, BitVec.getLsbD_one]
  by_cases hij : j < i
  · simp [hij, show i ≠ j by omega]
  · simp [hij, hj]
    omega

theorem getBit_setBit {j : Nat} (hi : i < 256) (hj : j < 256) :
    (b.setBit i).getBit j = (decide (i = j) || b.getBit j) := by
  rw [getBit_eq, getBit_eq]
  unfold setBit
  by_cases hlow : i < 128 <;> by_cases hj' : j < 128
  · simp only [hlow, hj', if_true, BitVec.getLsbD_or, getLsbD_one_shiftLeft _ _ hj', Bool.or_comm]
  · have hne : i ≠ j := by omega
    simp [hlow, hj', hne]
  · have hne : i ≠ j := by omega
    simp [hlow, hj', hi, hne]
  · have heq : i - 128 = j - 128 ↔ i = j := by omega
    simp only [hlow, hj', hi, if_true, if_false, BitVec.getLsbD_or,
      getLsbD_one_shiftLeft _ _ (show j - 128 < 128 by omega), Bool.or_comm, heq]

theorem getBit_shl (shift : Nat) (hi : i < 256) :
    (b.shl shift).getBit i = (decide (shift ≤ i) && b.getBit (i - shift)) := by
  unfold shl
  split
  · next hall => simp [getBit_eq, new, show ¬shift ≤ i by omega]
  split
  · next hzero => simp [hzero]
  split
  · next hhalf =>
    rw [getBit_eq, getBit_eq]
    -- only the lower half moves, into the upper one
    by_cases hle : shift ≤ i
    · have hhigh : ¬i < 128 := by omega
      have hsub : i - 128 - (shift - 128) = i - shift := by omega
      simp [hle, hhigh, hsub, show i - shift < 128 by omega, show i - 128 < 128 by omega,
        show ¬i - 128 < shift - 128 by omega]
    · by_cases hlow : i < 128
      · simp [hle, hlow]
      · simp [hle, hlow, show i - 128 < shift - 128 by omega]
  · next hhalf =>
    rw [getBit_eq, getBit_eq]
    simp only [BitVec.getLsbD_or, BitVec.getLsbD_shiftLeft, BitVec.getLsbD_ushiftRight]
    by_cases hlow : i < 128
    · by_cases hle : shift ≤ i
      · simp [hlow, hle, show i - shift < 128 by omega, show ¬i < shift by omega]
      · simp [hlow, hle, show i < shift by omega]
    -- the upper half takes in the upper bits of the lower one
    have hhigh : i - 128 < 128 := by omega
    by_cases hnear : i - shift < 128
    · have hsum : 128 - shift + (i - 128) = i - shift := by omega
      simp [hlow, hnear, hhigh, hsum, show i - 128 < shift by omega,
        show shift ≤ i by omega]
    · have hsub : i - 128 - shift = i - shift - 128 := by omega
      rw [BitVec.getLsbD_of_ge b.lo _ (show 128 ≤ 128 - shift + (i - 128) by omega)]
      simp [hlow, hnear, hhigh, hsub, show ¬i - 128 < shift by omega,
        show shift ≤ i by omega]

/-- The words hold the bits of the set. -/
theorem testBit_words (hi : i < 256) : b.words.testBit i = b.getBit i := by
  have hword : i / 64 < 4 := by omega
  have hbit : i % 64 < 64 := Nat.mod_lt _ (by decide)
  rw [Bitmap.testBit_eq _ hword, getBit_eq]
  have hcases : i / 64 = 0 ∨ i / 64 = 1 ∨ i / 64 = 2 ∨ i / 64 = 3 := by omega
  unfold words
  rcases hcases with h | h | h | h
  · simp [h, show i < 128 by omega, show i % 64 = i by omega]
    intro
    omega
  · simp [h, hbit, show i < 128 by omega, show 64 + i % 64 = i by omega]
  · simp [h, show ¬i < 128 by omega, show i % 64 = i - 128 by omega]
    omega
  · simp [h, hbit, show ¬i < 128 by omega, show 64 + i % 64 = i - 128 by omega]

theorem words_setBit (hi : i < 256) : (b.setBit i).words = b.words.setBit i := by
  apply Bitmap.eq_of_testBit
  intro j hj
  rw [testBit_words _ hj, getBit_setBit _ hi hj, Bitmap.testBit_setBit _ hi, testBit_words _ hj]

theorem words_shl (shift : Nat) : (b.shl shift).words = b.words.shiftLeft shift := by
  apply Bitmap.eq_of_testBit
  intro i hi
  rw [testBit_words _ hi, getBit_shl _ _ hi, Bitmap.testBit_shiftLeft _ _ hi,
    testBit_words _ (show i - shift < 256 by omega)]

end Bitset256

/-- `RECV_REORDER_WINDOW`, `client_wire.rs:34`. -/
def recvReorderWindow : Nat := 256

/-- `RECV_FUTURE_SEARCH_WINDOW`, `client_wire.rs:37`. -/
def recvFutureSearchWindow : Nat := 1024

/-- `RECV_FUTURE_SEARCH_SYNCED`, `client_wire.rs:39`. -/
def recvFutureSearchSynced : Nat := 512

/-- `RECV_RECOVERY_CANDIDATES`, `client_wire.rs:41`. -/
def recvRecoveryCandidates : Nat := 65536

/-- `RECV_RECOVERY_INTERVAL`, `client_wire.rs:42`, in nanoseconds. -/
def recvRecoveryInterval : Nat := 1000000000

/-- `RecvWindow`, `client_wire.rs:106-115`; `lastAttempt` is the state of the recovery budget. -/
structure RecvWindow where
  highest : Option UInt64
  bitmap : Bitset256
  authenticatedCounterHint : Option UInt64
  preferredTagOffset : Option UInt16
  lastAttempt : Option Nat
  deriving DecidableEq

namespace RecvWindow

/-- `new`, `client_wire.rs:124-134`. -/
def new : RecvWindow := ⟨none, .new, none, none, none⟩

variable (w : RecvWindow)

/-- `reserve_counter_recovery`, `client_wire.rs:149-162`: at most one attempt per interval. -/
def reserveCounterRecovery (now : Nat) : Bool × RecvWindow :=
  if w.lastAttempt.any fun previous => now - previous < recvRecoveryInterval then (false, w)
  else (true, { w with lastAttempt := some now })

def anchor : Option UInt64 := max w.highest w.authenticatedCounterHint

/-- `search_bounds`, `client_wire.rs:196-204`. -/
def searchBounds : UInt64 × UInt64 :=
  match w.anchor with
  | none => (0, UInt64.ofNat (recvFutureSearchWindow - 1))
  | some anchor =>
    (UInt64.ofNat (anchor.toNat - (recvReorderWindow - 1)),
      saturatingAdd64 anchor.toNat recvFutureSearchSynced)

/-- `recovery_bounds`, `client_wire.rs:164-170`. -/
def recoveryBounds (layouts : Nat) : Option (UInt64 × UInt64) :=
  match w.anchor with
  | none => none
  | some _ =>
    let last := w.searchBounds.2.toNat
    if last + 1 < 2 ^ 64 then
      let count := max (recvRecoveryCandidates / max layouts 1) 1
      some (UInt64.ofNat (last + 1), saturatingAdd64 (last + 1) (count - 1))
    else none

/-- `is_new`, `client_wire.rs:280-294`. -/
def isNew (counter : UInt64) : Bool :=
  match w.highest with
  | none => true
  | some highest =>
    if highest < counter then true
    else
      let diff := (highest - counter).toNat
      if recvReorderWindow ≤ diff then false else !w.bitmap.getBit diff

/-- `mark`, `client_wire.rs:256-278`. -/
def mark (counter : UInt64) : RecvWindow :=
  if w.highest.all fun highest => highest < counter then
    let shift := w.highest.elim recvReorderWindow fun highest => (counter - highest).toNat
    { w with
      highest := some counter
      bitmap :=
        if recvReorderWindow ≤ shift then Bitset256.new.setBit 0 else (w.bitmap.shl shift).setBit 0
      authenticatedCounterHint := none }
  else
    let diff := (w.highest.getD 0 - counter).toNat
    { w with
      bitmap := if diff < recvReorderWindow then w.bitmap.setBit diff else w.bitmap
      authenticatedCounterHint := none }

def counters (bounds : UInt64 × UInt64) : List UInt64 :=
  (List.range' bounds.1.toNat (bounds.2.toNat + 1 - bounds.1.toNat)).map UInt64.ofNat

/-- `find_counter_in_bounds`, `client_wire.rs:219-254`: the first new counter with the given tag,
in the current time window or one of its neighbours. -/
def findCounterInBounds (resonanceTag : UInt64 → UInt64 → Tag) (baseTw : UInt64) (tag : Tag)
    (bounds : UInt64 × UInt64) : Option UInt64 :=
  [baseTw, baseTw - 1, baseTw + 1].findSome? fun tw =>
    (counters bounds).find? fun counter => w.isNew counter && resonanceTag counter tw == tag

/-- `find_counter`, `client_wire.rs:215-217`. -/
def findCounter (resonanceTag : UInt64 → UInt64 → Tag) (baseTw : UInt64) (tag : Tag) :
    Option UInt64 :=
  w.findCounterInBounds resonanceTag baseTw tag w.searchBounds

/-- The sliding window whose newest counter is `highest`. -/
def window (highest : UInt64) : SlidingWindow 4 :=
  ⟨highest.toNat, w.bitmap.words⟩

variable {w} {highest counter : UInt64}

theorem isNew_eq_isFresh (h : w.highest = some highest) (counter : UInt64) :
    w.isNew counter = (w.window highest).isFresh counter.toNat := by
  unfold isNew
  rw [h]
  rcases newer_or_older highest counter with ⟨hnew, hlt, -⟩ | ⟨hold, hnlt, hdiff⟩
  · simp [hnew, SlidingWindow.isFresh_of_newer (w := w.window highest) hlt]
  dsimp only
  rw [if_neg hold, hdiff, SlidingWindow.isFresh_of_older (w := w.window highest) hnlt]
  by_cases hfar : 256 ≤ highest.toNat - counter.toNat
  · simp [window, recvReorderWindow, hfar, Nat.not_lt.mpr hfar]
  · have hnear : highest.toNat - counter.toNat < 256 := Nat.not_le.mp hfar
    simp [window, recvReorderWindow, hfar, hnear, Bitset256.testBit_words _ hnear]

/-- A later one marks the sliding window. -/
theorem mark_of_some (h : w.highest = some highest) (counter : UInt64) :
    ∃ newest, (w.mark counter).highest = some newest ∧
      (w.mark counter).window newest = (w.window highest).mark counter.toNat := by
  unfold mark SlidingWindow.mark window
  simp only [h, Option.all_some, decide_eq_true_eq, Option.elim_some, Option.getD_some]
  rcases newer_or_older highest counter with ⟨hnew, hlt, hdiff⟩ | ⟨hold, hnlt, hdiff⟩
  · -- a shift past the end empties the set, so that the two branches of the source are one
    have hshift : (if recvReorderWindow ≤ counter.toNat - highest.toNat then
        Bitset256.new.setBit 0 else (w.bitmap.shl (counter.toNat - highest.toNat)).setBit 0) =
        (w.bitmap.shl (counter.toNat - highest.toNat)).setBit 0 := by
      split
      · next hfar =>
        rw [recvReorderWindow] at hfar
        rw [Bitset256.shl, if_pos hfar]
      · rfl
    refine ⟨counter, ?_⟩
    rw [if_pos hnew, if_pos hlt, hdiff, hshift, Bitset256.words_setBit _ (by decide),
      Bitset256.words_shl]
    exact ⟨rfl, rfl⟩
  · refine ⟨highest, ?_⟩
    rw [if_neg hold, if_neg hnlt, hdiff]
    refine ⟨rfl, ?_⟩
    by_cases hnear : highest.toNat - counter.toNat < recvReorderWindow
    · have hin : highest.toNat - counter.toNat < 64 * 4 := hnear
      rw [if_pos hnear, if_pos hin, Bitset256.words_setBit _ hnear]
    · have hout : ¬highest.toNat - counter.toNat < 64 * 4 := hnear
      rw [if_neg hnear, if_neg hout]

/-- What is new after `counter` was marked was so before, and is not `counter`. -/
theorem isNew_of_mark {other : UInt64} (h : (w.mark counter).isNew other = true) :
    w.isNew other = true ∧ other ≠ counter := by
  cases hhigh : w.highest with
  | none =>
    refine ⟨by rw [isNew, hhigh], ?_⟩
    rintro rfl
    simp [isNew, mark, hhigh, Bitset256.getBit_setBit] at h
  | some highest =>
    obtain ⟨newest, hmarked, hwindow⟩ := mark_of_some hhigh counter
    rw [isNew_eq_isFresh hmarked, hwindow] at h
    obtain ⟨hfresh, hne⟩ := SlidingWindow.isFresh_of_mark h
    rw [isNew_eq_isFresh hhigh]
    exact ⟨hfresh, fun heq => hne (congrArg UInt64.toNat heq)⟩

/-- Only new counters are found. -/
theorem isNew_of_findCounterInBounds {resonanceTag : UInt64 → UInt64 → Tag} {baseTw : UInt64}
    {tag : Tag} {bounds : UInt64 × UInt64}
    (h : w.findCounterInBounds resonanceTag baseTw tag bounds = some counter) :
    w.isNew counter = true := by
  obtain ⟨tw, -, hfind⟩ := List.exists_of_findSome?_eq_some h
  have hmatch := List.find?_some hfind
  exact (Bool.and_eq_true_iff.mp hmatch).1

end RecvWindow

end AivpnSpec.Client
