import AivpnSpec.Base.Runs
import AivpnSpec.Server.Session.State
import Mathlib

/-!
# No packet is accepted twice

A session under any interleaving of its locked steps. As long as every rekey is committed while
the newest received counter lies inside the precomputed window, no pair of a tag secret and a
counter is accepted twice. Outside it the newest counter is forgotten: the set of received
counters that the outgoing epoch keeps is drawn from the precomputed counters only, and its tag
window is rebuilt around the newest counter at once.
-/

namespace AivpnSpec.Server

open AivpnSpec.Base AivpnSpec.Common List

/-- A step under the session's lock. -/
inductive SessionStep where
  | accept (secret : Bytes32) (counter : UInt64) (now : Nat)
  | refreshTagWindowIfNeeded (now : Nat)
  | updateTagWindow (now : Nat)
  | updateRatchetedTagWindow
  | traffic (bytes : Nat)
  | observeClientRtt (rttMs : Nat)
  | startRekeying (now : Nat) (kp : KeyPair)
  | rekeyRetransmitsDue (now : Nat)
  | commitSessionRekey (now : Nat) (clientEphPub : Bytes32)
  | completeRatchet (now : Nat)
  | expireGrace (now : Nat)
  | remove

/-- A session, the packets it has accepted and the secrets of its epochs, both latest first. -/
structure Ingress where
  session : Session
  accepted : List (Bytes32 × Nat)
  epochs : List Bytes32

namespace Ingress

/-- An authenticated packet: `authenticated_counter_epoch` and then the mark of its epoch,
`packet_ingress.rs:1107-1124`. -/
def accept (w : Ingress) (secret : Bytes32) (counter now : Nat) : Ingress :=
  match w.session.authenticatedCounterEpoch now counter secret with
  | none => w
  | some previousEpoch =>
    { w with
      session :=
        if previousEpoch then w.session.markPreRatchetReceived counter
        else w.session.markTagReceived counter
      accepted := (secret, counter) :: w.accepted }

def setSession (w : Ingress) (s : Session) : Ingress := { w with session := s }

/-- The session replaced, with the secret of the epoch that it opens, if it does. -/
def openEpoch (w : Ingress) (s : Session) (newKeys : Option SessionKeys) : Ingress :=
  { w with session := s, epochs := (newKeys.map fun keys => keys.tagSecret).toList ++ w.epochs }

def perform (env : CryptoEnv) (w : Ingress) : SessionStep → Ingress
  | .accept secret counter now => w.accept secret counter.toNat now
  | .refreshTagWindowIfNeeded now => w.setSession (w.session.refreshTagWindowIfNeeded now)
  | .updateTagWindow now => w.setSession (w.session.updateTagWindow now)
  | .updateRatchetedTagWindow => w.setSession w.session.updateRatchetedTagWindow
  | .traffic bytes =>
    w.setSession
      { w.session with bytesSinceRekey := saturatingAdd w.session.bytesSinceRekey bytes }
  | .observeClientRtt rttMs => w.setSession (w.session.observeClientRtt rttMs)
  | .startRekeying now kp => w.setSession (w.session.startRekeying env now kp).1
  | .rekeyRetransmitsDue now => w.setSession (w.session.rekeyRetransmitsDue env now).1
  | .commitSessionRekey now clientEphPub =>
    w.openEpoch (w.session.commitSessionRekey env now clientEphPub)
      (w.session.rekeyedKeys env clientEphPub)
  | .completeRatchet now => w.openEpoch (w.session.completeRatchet now) w.session.ratchetedKeys
  | .expireGrace now => w.setSession (w.session.expireGrace now)
  | .remove => w.setSession { w.session with removed := true }

def opened (keys ratchetedKeys : SessionKeys) (now : Nat) : Ingress :=
  { session := Session.opened keys ratchetedKeys now, accepted := [], epochs := [keys.tagSecret] }

/-- The session after the first `k` steps. -/
def after (env : CryptoEnv) (start : Ingress) (steps : List SessionStep) (k : Nat) : Ingress :=
  stateAt (perform env) start steps k

end Ingress

/-! ### What the windows guarantee -/

namespace Session

def windowEnd (s : Session) : Nat := s.expectedTags.sup id

/-- A counter of the previous epoch that will not be accepted: it is known to be received, or it
has no tag and no rebuilt window will give it one. -/
def Retired (s : Session) (counter : Nat) : Prop :=
  counter ∈ s.preRatchetReceived ∨
    (counter ∉ s.preRatchetTags ∧
      (s.preRatchetMonotonic = true → counter < s.preRatchetWindowBase - (tagWindowSize - 1)))

/-- The precomputed tags are a range around the base, and the ratcheted ones start at 0. -/
structure WindowsSound (s : Session) : Prop where
  range : s.expectedTags = Finset.Icc (s.tagWindowBase - (tagWindowSize - 1)) s.windowEnd
  reach : min (s.tagWindowBase + (tagWindowSize - 1)) u64Max ≤ s.windowEnd
  bounded : s.tagSearchCenter ≤ u64Max
  ratcheted : s.ratchetedKeys.isSome = true →
    s.ratchetedExpectedTags = Finset.range tagWindowSize ∧ s.isRatcheted = false
  pending : s.pendingRekeyKeypair.isSome = true → s.isRatcheted = true

/-- A later state of the same epoch, with no packet accepted in between. -/
structure Continues (s s' : Session) : Prop where
  keys : s'.keys = s.keys
  window : s'.window = s.window
  previous : ∀ keys, s'.preRatchetKeys = some keys → s.preRatchetKeys = some keys
  retired : ∀ keys, s'.preRatchetKeys = some keys → ∀ c, s.Retired c → s'.Retired c
  ends : s.counter ≤ s.windowEnd → s'.counter ≤ s'.windowEnd

theorem sup_Icc {a b : Nat} (h : a ≤ b) : (Finset.Icc a b).sup id = b := by
  apply le_antisymm
  · apply Finset.sup_le
    intro c hc
    exact (Finset.mem_Icc.mp hc).2
  · exact Finset.le_sup (f := id) (Finset.mem_Icc.mpr ⟨h, le_rfl⟩)

theorem counter_le_center (s : Session) : s.counter ≤ s.tagSearchCenter := le_max_left _ _

variable {s : Session} {now c : Nat} {keys : SessionKeys} {env : CryptoEnv}

/-- A rebuilt window of the previous epoch does not bring a retired counter back. -/
theorem retired_rebuildPrevious (hbase : s.preRatchetWindowBase ≤ s.preRatchetCounter)
    (hmono : s.preRatchetMonotonic = true) (h : s.Retired c) : s.rebuildPrevious.Retired c := by
  unfold Retired at h ⊢
  simp only [rebuildPrevious, Finset.mem_filter, Finset.mem_Icc]
  by_cases hstart : s.preRatchetCounter - (tagWindowSize - 1) ≤ c
  · rcases h with h | ⟨-, h⟩
    · exact .inl ⟨h, hstart⟩
    · have := h hmono
      omega
  · exact .inr ⟨fun hin => hstart hin.1, fun _ => by omega⟩

/-- The window of the current epoch after an update. -/
theorem updateTagWindow_spec (s : Session) (now : Nat) (hcenter : s.tagSearchCenter ≤ u64Max) :
    (s.updateTagWindow now).expectedTags = Finset.Icc
        (s.tagSearchCenter - (tagWindowSize - 1)) (saturatingAdd s.tagSearchCenter s.windowForward) ∧
    (s.updateTagWindow now).tagWindowBase = s.tagSearchCenter ∧
    (s.updateTagWindow now).windowEnd = saturatingAdd s.tagSearchCenter s.windowForward := by
  have htags : (s.updateTagWindow now).expectedTags = Finset.Icc
      (s.tagSearchCenter - (tagWindowSize - 1))
      (saturatingAdd s.tagSearchCenter s.windowForward) := by
    unfold updateTagWindow
    split <;> rfl
  refine ⟨htags, ?_, ?_⟩
  · unfold updateTagWindow
    split <;> rfl
  · unfold windowEnd
    rw [htags]
    apply sup_Icc
    unfold saturatingAdd
    omega

theorem updateTagWindow_range (now : Nat) (hcenter : s.tagSearchCenter ≤ u64Max) :
    (s.updateTagWindow now).expectedTags =
      Finset.Icc ((s.updateTagWindow now).tagWindowBase - (tagWindowSize - 1))
        (s.updateTagWindow now).windowEnd ∧
    min ((s.updateTagWindow now).tagWindowBase + (tagWindowSize - 1)) u64Max ≤
      (s.updateTagWindow now).windowEnd := by
  obtain ⟨htags, hbase, hend⟩ := updateTagWindow_spec s now hcenter
  rw [htags, hbase, hend]
  refine ⟨rfl, ?_⟩
  unfold saturatingAdd windowForward
  omega

theorem counter_updateTagWindow (s : Session) (now : Nat) :
    (s.updateTagWindow now).counter = s.counter := by
  unfold updateTagWindow
  split <;> rfl

theorem counter_le_windowEnd_update (now : Nat) (hcenter : s.tagSearchCenter ≤ u64Max) :
    (s.updateTagWindow now).counter ≤ (s.updateTagWindow now).windowEnd := by
  rw [counter_updateTagWindow, (updateTagWindow_spec s now hcenter).2.2]
  have := s.counter_le_center
  unfold saturatingAdd
  omega

theorem Continues.refl (s : Session) : Continues s s :=
  ⟨rfl, rfl, fun _ hk => hk, fun _ _ _ hc => hc, id⟩

theorem Continues.trans {s t u : Session} (h : Continues s t) (h' : Continues t u) :
    Continues s u where
  keys := h'.keys.trans h.keys
  window := h'.window.trans h.window
  previous := fun keys hk => h.previous keys (h'.previous keys hk)
  retired := fun keys hk c hc => h'.retired keys hk c (h.retired keys (h'.previous keys hk) c hc)
  ends := fun hs => h'.ends (h.ends hs)

theorem continues_updateTagWindow (now : Nat) (hcenter : s.tagSearchCenter ≤ u64Max) :
    Continues s (s.updateTagWindow now) where
  keys := by
    unfold updateTagWindow
    split <;> rfl
  window := by
    unfold updateTagWindow
    split <;> rfl
  previous := by
    intro keys h
    unfold updateTagWindow at h
    split at h <;> exact h
  retired := by
    intro keys _ c hc
    unfold updateTagWindow
    split
    · next hadv =>
      unfold previousAdvanced at hadv
      simp only [Bool.and_eq_true, decide_eq_true_eq] at hadv
      exact retired_rebuildPrevious (s := { s with expectedTags := _, tagWindowBase := _ })
        (by show s.preRatchetWindowBase ≤ s.preRatchetCounter; omega) hadv.1.1 hc
    · exact hc
  ends := fun _ => counter_le_windowEnd_update now hcenter

theorem windowsSound_updateTagWindow (now : Nat) (hcenter : s.tagSearchCenter ≤ u64Max)
    (hratcheted : s.ratchetedKeys.isSome = true →
      s.ratchetedExpectedTags = Finset.range tagWindowSize ∧ s.isRatcheted = false)
    (hpending : s.pendingRekeyKeypair.isSome = true → s.isRatcheted = true) :
    WindowsSound (s.updateTagWindow now) := by
  obtain ⟨hrange, hreach⟩ := updateTagWindow_range now hcenter
  refine ⟨hrange, hreach, ?_, ?_, ?_⟩
  · unfold updateTagWindow
    split <;> exact hcenter
  · unfold updateTagWindow
    split <;> exact hratcheted
  · unfold updateTagWindow
    split <;> exact hpending

theorem clearConsumedTagHint_eq (s : Session) :
    ∃ hint, s.clearConsumedTagHint = { s with tagSearchHint := hint } ∧
      (hint = none ∨ hint = s.tagSearchHint) := by
  unfold clearConsumedTagHint
  split
  · exact ⟨none, rfl, .inl rfl⟩
  · exact ⟨s.tagSearchHint, rfl, .inr rfl⟩

/-- A mark moves the sliding window and may drop the hint. -/
theorem markTagReceived_eq (s : Session) (counter : Nat) :
    ∃ hint, s.markTagReceived counter =
      { s with counter := (s.window.mark counter).newest
               receivedBitmap := (s.window.mark counter).bits
               tagSearchHint := hint } ∧
      (hint = none ∨ hint = s.tagSearchHint) := by
  unfold markTagReceived SlidingWindow.mark
  by_cases hnew : s.counter < counter
  · rw [if_pos hnew, if_pos (show s.window.newest < counter from hnew)]
    exact clearConsumedTagHint_eq _
  rw [if_neg hnew, if_neg (show ¬ s.window.newest < counter from hnew)]
  by_cases hnear : s.counter - counter < tagWindowSize
  · rw [if_pos hnear, if_pos (show s.window.newest - counter < 64 * 8 from hnear)]
    exact clearConsumedTagHint_eq _
  · rw [if_neg hnear, if_neg (show ¬ s.window.newest - counter < 64 * 8 from hnear)]
    exact clearConsumedTagHint_eq _

/-- A mark in the previous epoch records the counter and may move the search forward to it. -/
theorem markPreRatchetReceived_eq (s : Session) (counter : Nat) :
    ∃ preCounter hint, s.markPreRatchetReceived counter =
      { s with preRatchetReceived := insert counter s.preRatchetReceived
               preRatchetCounter := preCounter
               tagSearchHint := hint } ∧
      max s.counter (hint.getD s.counter) ≤ max s.tagSearchCenter counter := by
  have hold : max s.counter (s.tagSearchHint.getD s.counter) ≤ max s.tagSearchCenter counter :=
    le_max_left _ _
  unfold markPreRatchetReceived
  split
  · by_cases hahead : s.counter < counter
    · refine ⟨_, some (max s.tagSearchCenter counter), by simp only [if_pos hahead]; rfl, ?_⟩
      have := s.counter_le_center
      rw [Option.getD_some]
      omega
    · exact ⟨_, s.tagSearchHint, by simp only [if_neg hahead]; rfl, hold⟩
  · exact ⟨s.preRatchetCounter, s.tagSearchHint, rfl, hold⟩

theorem preRatchetKeys_of_inGrace (h : s.preRatchetKeysInGrace now = some keys) :
    s.preRatchetKeys = some keys := by
  unfold preRatchetKeysInGrace at h
  split at h
  · exact h
  · cases h

/-- The two ways in which a packet is accepted. -/
theorem authenticatedCounterEpoch_cases {counter : Nat} {secret : Bytes32} {previousEpoch : Bool}
    (h : s.authenticatedCounterEpoch now counter secret = some previousEpoch) :
    (previousEpoch = false ∧ s.keys.tagSecret = secret ∧ s.counterIsFresh counter = true) ∨
    (previousEpoch = true ∧ ∃ keys, s.preRatchetKeysInGrace now = some keys ∧
      keys.tagSecret = secret ∧ counter ∈ s.preRatchetTags ∧
      counter ∉ s.preRatchetReceived) := by
  unfold authenticatedCounterEpoch at h
  split at h
  · cases h
  split at h
  · next hcurrent =>
    split at h
    · next hfresh =>
      cases h
      exact .inl ⟨rfl, hcurrent, hfresh⟩
    · cases h
  · split at h
    · cases h
    · next previous hgrace =>
      split at h
      · next hprev =>
        cases h
        exact .inr ⟨rfl, previous, hgrace, hprev⟩
      · cases h

section

variable (keys ratchetedKeys : SessionKeys) (now : Nat)

theorem opened_eq :
    opened keys ratchetedKeys now = { (new keys ratchetedKeys now).updateTagWindow now with
      ratchetedExpectedTags := Finset.range tagWindowSize } := by
  rfl

theorem opened_fields : (opened keys ratchetedKeys now).keys = keys ∧
    (opened keys ratchetedKeys now).preRatchetKeys = none ∧
    (opened keys ratchetedKeys now).counter = 0 := by
  obtain ⟨hkeys, hpre, -⟩ := updateTagWindow_frame (new keys ratchetedKeys now) now
  exact ⟨hkeys, hpre, counter_updateTagWindow _ now⟩

theorem windowsSound_opened : (opened keys ratchetedKeys now).WindowsSound := by
  rw [opened_eq]
  have hcenter : (new keys ratchetedKeys now).tagSearchCenter ≤ u64Max := Nat.zero_le _
  obtain ⟨-, -, hcenter', -, hratcheted, hpending⟩ :=
    updateTagWindow_frame (new keys ratchetedKeys now) now
  obtain ⟨hrange, hreach⟩ := updateTagWindow_range now hcenter
  generalize (new keys ratchetedKeys now).updateTagWindow now = s at *
  refine ⟨hrange, hreach, hcenter'.trans_le hcenter, fun _ => ⟨rfl, hratcheted⟩, ?_⟩
  rw [hpending]
  intro hsome
  cases hsome

end

/-- What an epoch takes into grace holds every precomputed counter that is not fresh. -/
theorem mem_stale (hc : c ∈ s.expectedTags) (hfresh : s.counterIsFresh c = false) :
    c ∈ s.expectedTags.filter fun counter => !s.counterIsFresh counter :=
  Finset.mem_filter.mpr ⟨hc, by simp [hfresh]⟩

/-- A commit inside the window retires every counter that is not fresh. -/
theorem retired_installRekeyed (h : s.WindowsSound) (hcond : s.counter ≤ s.windowEnd) (now : Nat)
    (newKeys : SessionKeys) (hfresh : s.counterIsFresh c = false) :
    (s.installRekeyed now newKeys).Retired c := by
  by_cases hc : c ∈ s.expectedTags
  · exact .inl (mem_stale hc hfresh)
  refine .inr ⟨hc, fun _ => ?_⟩
  show c < s.tagWindowBase - (tagWindowSize - 1)
  have hle : c ≤ s.counter := SlidingWindow.le_newest (w := s.window) hfresh
  rw [h.range, Finset.mem_Icc] at hc
  omega

theorem authenticatedCounterEpoch_previous (hpresent : s.removed = false)
    (hother : s.keys.tagSecret ≠ keys.tagSecret) (hin : s.preRatchetKeysInGrace now = some keys)
    (htags : c ∈ s.preRatchetTags) (hnew : c ∉ s.preRatchetReceived) :
    s.authenticatedCounterEpoch now c keys.tagSecret = some true := by
  unfold authenticatedCounterEpoch
  rw [hpresent, if_neg (by decide), if_neg hother, hin]
  exact if_pos ⟨rfl, htags, hnew⟩

/-- A counter past the precomputed ones is accepted in the previous epoch after a commit: the
rebuilt window gives it a tag and the received counters do not hold it. -/
theorem authenticatedCounterEpoch_forgotten {newKeys : SessionKeys} (hpresent : s.removed = false)
    (hgrace : now < now + s.inlineRekeyGrace) (hbase : 128 ≤ s.counter - s.tagWindowBase)
    (hbound : s.counter ≤ u64Max) (hforgotten : s.counter ∉ s.expectedTags)
    (hnew : newKeys.tagSecret ≠ s.keys.tagSecret) :
    ((s.installRekeyed now newKeys).updateTagWindow now).authenticatedCounterEpoch
      now s.counter s.keys.tagSecret = some true := by
  have hin : (s.installRekeyed now newKeys).preRatchetKeysInGrace now = some s.keys :=
    if_pos (by simpa [installRekeyed, preserveReplayForGrace] using hgrace)
  have hadvanced : (s.installRekeyed now newKeys).previousAdvanced now = true := by
    unfold previousAdvanced
    rw [hin]
    simpa [installRekeyed, preserveReplayForGrace] using hbase
  unfold updateTagWindow
  rw [if_pos hadvanced]
  refine authenticatedCounterEpoch_previous hpresent hnew ?_ ?_ ?_
  · unfold preRatchetKeysInGrace at hin ⊢
    exact hin
  · show s.counter ∈ Finset.Icc (s.counter - (tagWindowSize - 1)) (saturatingAdd s.counter _)
    rw [Finset.mem_Icc]
    unfold saturatingAdd
    omega
  · intro hmem
    exact hforgotten (Finset.mem_of_mem_filter _ (Finset.mem_of_mem_filter _ hmem))

/-! ### Steps within an epoch -/

/-- What the epoch and the windows do not read may change. -/
theorem continues_of_eq {s' : Session} (h : s.WindowsSound)
    (hs : s' = { s with
      removed := s'.removed, pendingRekeyAttempts := s'.pendingRekeyAttempts
      lastKeyrotateSentAt := s'.lastKeyrotateSentAt, bytesSinceRekey := s'.bytesSinceRekey
      clientSrttMs := s'.clientSrttMs }) : Continues s s' ∧ s'.WindowsSound := by
  rw [hs]
  exact ⟨⟨rfl, rfl, fun _ hk => hk, fun _ _ _ hc => hc, id⟩,
    ⟨h.range, h.reach, h.bounded, h.ratcheted, h.pending⟩⟩

/-- Steps that neither accept a packet nor change the keys. -/
theorem continues_refreshTagWindowIfNeeded (h : s.WindowsSound) (now : Nat) :
    Continues s (s.refreshTagWindowIfNeeded now) ∧
      (s.refreshTagWindowIfNeeded now).WindowsSound := by
  unfold refreshTagWindowIfNeeded
  split
  · exact ⟨continues_updateTagWindow now h.bounded,
      windowsSound_updateTagWindow now h.bounded h.ratcheted h.pending⟩
  · exact ⟨.refl s, h⟩

theorem continues_updateRatchetedTagWindow (h : s.WindowsSound) :
    Continues s s.updateRatchetedTagWindow ∧ s.updateRatchetedTagWindow.WindowsSound := by
  unfold updateRatchetedTagWindow
  split
  · exact ⟨⟨rfl, rfl, fun _ hk => hk, fun _ _ _ hc => hc, id⟩,
      ⟨h.range, h.reach, h.bounded, fun hk => ⟨rfl, (h.ratcheted hk).2⟩, h.pending⟩⟩
  · exact ⟨.refl s, h⟩

theorem continues_startRekeying (h : s.WindowsSound) (now : Nat) (kp : KeyPair) :
    Continues s (s.startRekeying env now kp).1 ∧ (s.startRekeying env now kp).1.WindowsSound := by
  unfold startRekeying
  split
  · exact ⟨.refl s, h⟩
  next hready =>
  split
  · exact ⟨.refl s, h⟩
  constructor
  · refine Continues.trans ?_ (continues_updateTagWindow now h.bounded)
    exact ⟨rfl, rfl, fun _ hk => hk, fun _ _ _ hc => hc, id⟩
  · refine windowsSound_updateTagWindow now h.bounded h.ratcheted fun _ => ?_
    simp only [Bool.or_eq_true, Bool.not_eq_true', not_or, Bool.not_eq_false] at hready
    exact hready.1

theorem continues_rekeyRetransmitsDue (h : s.WindowsSound) (now : Nat) :
    Continues s (s.rekeyRetransmitsDue env now).1 ∧
      (s.rekeyRetransmitsDue env now).1.WindowsSound := by
  unfold rekeyRetransmitsDue
  split
  · exact ⟨.refl s, h⟩
  split
  · exact ⟨.refl s, h⟩
  split
  · exact continues_of_eq h rfl
  · exact ⟨⟨rfl, rfl, fun _ hk => hk, fun _ _ _ hc => hc, id⟩,
      ⟨h.range, h.reach, h.bounded, h.ratcheted, fun hp => (by cases hp)⟩⟩

theorem continues_expireGrace (h : s.WindowsSound) (now : Nat) :
    Continues s (s.expireGrace now) ∧ (s.expireGrace now).WindowsSound := by
  unfold expireGrace
  split
  · exact ⟨⟨rfl, rfl, fun _ hk => (by cases hk), fun _ hk => (by cases hk), id⟩,
      ⟨h.range, h.reach, h.bounded, h.ratcheted, h.pending⟩⟩
  · exact ⟨.refl s, h⟩

end Session

/-! ### The invariant of an ingress -/

/-- What holds as long as every commit finds the newest counter inside the window. -/
structure Ingress.Sound (w : Ingress) : Prop where
  nodup : w.accepted.Nodup
  windows : w.session.WindowsSound
  epoch : ∃ older, w.epochs = w.session.keys.tagSecret :: older ∧
    ∀ keys, w.session.preRatchetKeys = some keys → keys.tagSecret ∈ older
  known : ∀ p ∈ w.accepted, p.1 ∈ w.epochs
  current : ∀ c, (w.session.keys.tagSecret, c) ∈ w.accepted → w.session.counterIsFresh c = false
  previous : ∀ keys, w.session.preRatchetKeys = some keys →
    ∀ c, (keys.tagSecret, c) ∈ w.accepted → w.session.Retired c
  reached : w.session.counter ≤ w.session.windowEnd ∨
    (w.session.keys.tagSecret, w.session.counter) ∈ w.accepted

namespace Ingress

variable {env : CryptoEnv} {w : Ingress} {counter : Nat}

/-- Within an epoch nothing accepted becomes acceptable again. -/
theorem Sound.continues (h : w.Sound) {s : Session}
    (hnext : Session.Continues w.session s ∧ s.WindowsSound) : (w.setSession s).Sound := by
  obtain ⟨hs, hwin⟩ := hnext
  have hcounter : s.counter = w.session.counter := congrArg (fun x => x.newest) hs.window
  obtain ⟨older, hepochs, hprev⟩ := h.epoch
  refine ⟨h.nodup, hwin, ⟨older, ?_, ?_⟩, h.known, ?_, ?_, ?_⟩
  · show w.epochs = s.keys.tagSecret :: older
    rw [hs.keys]
    exact hepochs
  · exact fun keys hk => hprev keys (hs.previous keys hk)
  · intro c hc
    change (s.keys.tagSecret, c) ∈ w.accepted at hc
    rw [hs.keys] at hc
    change s.window.isFresh c = false
    rw [hs.window]
    exact h.current c hc
  · intro keys hk c hc
    exact hs.retired keys hk c (h.previous keys (hs.previous keys hk) c hc)
  · show s.counter ≤ s.windowEnd ∨ (s.keys.tagSecret, s.counter) ∈ w.accepted
    rw [hs.keys]
    rcases h.reached with hle | hmem
    · exact .inl (hs.ends hle)
    · rw [hcounter]
      exact .inr hmem

/-- The previous epoch is none of the current one. -/
theorem Sound.previous_ne (h : w.Sound) (hdistinct : w.epochs.Nodup) {keys : SessionKeys}
    (hkeys : w.session.preRatchetKeys = some keys) :
    keys.tagSecret ≠ w.session.keys.tagSecret := by
  obtain ⟨older, hepochs, hprev⟩ := h.epoch
  intro heq
  rw [hepochs] at hdistinct
  exact (nodup_cons.mp hdistinct).1 (heq ▸ hprev keys hkeys)

/-- Accepting a packet of the current epoch. -/
theorem Sound.acceptCurrent (h : w.Sound) (hdistinct : w.epochs.Nodup) (hbound : counter ≤ u64Max)
    (hfresh : w.session.counterIsFresh counter = true) :
    Sound { w with session := w.session.markTagReceived counter
                   accepted := (w.session.keys.tagSecret, counter) :: w.accepted } := by
  obtain ⟨hint, hmark, hhint⟩ := w.session.markTagReceived_eq counter
  rw [hmark]
  obtain ⟨older, hepochs, hprev⟩ := h.epoch
  refine ⟨?_, ⟨h.windows.range, h.windows.reach, ?_, h.windows.ratcheted, h.windows.pending⟩,
    ⟨older, hepochs, hprev⟩, ?_, ?_, ?_, ?_⟩
  · rw [nodup_cons]
    refine ⟨fun hmem => ?_, h.nodup⟩
    rw [h.current counter hmem] at hfresh
    cases hfresh
  · have hcenter := h.windows.bounded
    unfold Session.tagSearchCenter at hcenter ⊢
    simp only [SlidingWindow.newest_mark]
    have : w.session.window.newest = w.session.counter := rfl
    rcases hhint with rfl | rfl
    · simp only [Option.getD_none]
      omega
    cases hh : w.session.tagSearchHint with
    | none =>
      simp only [Option.getD_none]
      omega
    | some x =>
      rw [hh] at hcenter
      simp only [Option.getD_some] at hcenter ⊢
      omega
  · intro p hp
    rcases mem_cons.mp hp with rfl | hp
    · rw [hepochs]
      exact mem_cons_self
    · exact h.known p hp
  · intro c hc
    by_contra hcontra
    obtain ⟨hold, hnec⟩ := SlidingWindow.isFresh_of_mark (eq_true_of_ne_false hcontra)
    rcases mem_cons.mp hc with heq | hc
    · exact hnec (Prod.mk.inj heq).2
    · cases (h.current c hc).symm.trans hold
  · intro keys hk c hc
    rcases mem_cons.mp hc with heq | hc
    · exact absurd (Prod.mk.inj heq).1 (h.previous_ne hdistinct hk)
    · exact h.previous keys hk c hc
  · rw [SlidingWindow.newest_mark]
    by_cases hnew : w.session.window.newest ≤ counter
    · rw [Nat.max_eq_right hnew]
      exact .inr mem_cons_self
    · rw [Nat.max_eq_left (show counter ≤ w.session.window.newest by omega)]
      exact h.reached.imp id (mem_cons_of_mem _)

/-- Accepting a packet of the previous epoch. -/
theorem Sound.acceptPrevious (h : w.Sound) (hdistinct : w.epochs.Nodup)
    (hbound : counter ≤ u64Max) {keys : SessionKeys}
    (hkeys : w.session.preRatchetKeys = some keys) (htags : counter ∈ w.session.preRatchetTags)
    (hnew : counter ∉ w.session.preRatchetReceived) :
    Sound { w with session := w.session.markPreRatchetReceived counter
                   accepted := (keys.tagSecret, counter) :: w.accepted } := by
  obtain ⟨preCounter, hint, hmark, hhint⟩ := w.session.markPreRatchetReceived_eq counter
  rw [hmark]
  obtain ⟨older, hepochs, hprev⟩ := h.epoch
  refine ⟨?_, ⟨h.windows.range, h.windows.reach, ?_, h.windows.ratcheted, h.windows.pending⟩,
    ⟨older, hepochs, hprev⟩, ?_, ?_, ?_, ?_⟩
  · rw [nodup_cons]
    refine ⟨fun hmem => ?_, h.nodup⟩
    rcases h.previous keys hkeys counter hmem with hin | ⟨hout, -⟩
    · exact hnew hin
    · exact hout htags
  · have hcenter := h.windows.bounded
    exact hhint.trans (max_le hcenter hbound)
  · intro p hp
    rcases mem_cons.mp hp with rfl | hp
    · rw [hepochs]
      exact mem_cons_of_mem _ (hprev keys hkeys)
    · exact h.known p hp
  · intro c hc
    rcases mem_cons.mp hc with heq | hc
    · exact absurd (Prod.mk.inj heq).1.symm (h.previous_ne hdistinct hkeys)
    · exact h.current c hc
  · intro keys' hk c hc
    rcases mem_cons.mp hc with heq | hc
    · rw [(Prod.mk.inj heq).2]
      exact .inl (Finset.mem_insert_self _ _)
    · rcases h.previous keys' hk c hc with hin | hout
      · exact .inl (Finset.mem_insert_of_mem hin)
      · exact .inr hout
  · exact h.reached.imp id (mem_cons_of_mem _)

theorem Sound.accept (h : w.Sound) (hdistinct : w.epochs.Nodup) (secret : Bytes32)
    (hbound : counter ≤ u64Max) (now : Nat) : (w.accept secret counter now).Sound := by
  unfold Ingress.accept
  cases hepoch : w.session.authenticatedCounterEpoch now counter secret with
  | none => exact h
  | some previousEpoch =>
    rcases Session.authenticatedCounterEpoch_cases hepoch with
      ⟨rfl, rfl, hfresh⟩ | ⟨rfl, keys, hgrace, rfl, htags, hnew⟩
    · exact h.acceptCurrent hdistinct hbound hfresh
    · exact h.acceptPrevious hdistinct hbound (Session.preRatchetKeys_of_inGrace hgrace) htags hnew

/-- The new epoch has accepted nothing; what the outgoing one has accepted is retired. -/
theorem Sound.installed (h : w.Sound) (now : Nat) (newKeys : SessionKeys)
    (hpending : ¬ w.session.pendingRekeyKeypair.isNone = true)
    (hnew : newKeys.tagSecret ∉ w.epochs) (hcond : w.session.counter ≤ w.session.windowEnd) :
    (w.openEpoch ((Session.installRekeyed { w.session with pendingRekeyKeypair := none
                                                           pendingRekeyAttempts := 0 }
      now newKeys).updateTagWindow now) (some newKeys)).Sound := by
  obtain ⟨older, hepochs, -⟩ := h.epoch
  have hratcheted : w.session.ratchetedKeys.isSome = false := by
    by_contra hsome
    have hfalse := (h.windows.ratcheted (eq_true_of_ne_false hsome)).2
    rw [h.windows.pending (Option.isSome_iff_ne_none.mpr (by simpa using hpending))] at hfalse
    cases hfalse
  generalize hs : Session.installRekeyed _ now newKeys = s
  have hcenter : s.tagSearchCenter ≤ u64Max := by
    rw [← hs]
    exact h.windows.bounded
  have hcont := Session.continues_updateTagWindow now hcenter
  have hkeys : s.keys = newKeys := by
    rw [← hs]
    rfl
  have hpre : s.preRatchetKeys = some w.session.keys := by
    rw [← hs]
    rfl
  refine ⟨h.nodup, ?_, ⟨w.epochs, ?_, ?_⟩, ?_, ?_, ?_, ?_⟩
  · refine Session.windowsSound_updateTagWindow now hcenter ?_ ?_
    · rw [← hs]
      intro hsome
      rw [show w.session.ratchetedKeys.isSome = true from hsome] at hratcheted
      cases hratcheted
    · rw [← hs]
      intro hsome
      cases hsome
  · show newKeys.tagSecret :: w.epochs = (s.updateTagWindow now).keys.tagSecret :: w.epochs
    rw [hcont.keys, hkeys]
  · intro keys hk
    have hold := hcont.previous keys hk
    rw [hpre] at hold
    cases hold
    rw [hepochs]
    exact mem_cons_self
  · exact fun p hp => mem_cons_of_mem _ (h.known p hp)
  · intro c hc
    change ((s.updateTagWindow now).keys.tagSecret, c) ∈ w.accepted at hc
    rw [hcont.keys, hkeys] at hc
    exact absurd (h.known _ hc) hnew
  · intro keys hk c hc
    have hold := hcont.previous keys hk
    rw [hpre] at hold
    cases hold
    refine hcont.retired _ hk c ?_
    rw [← hs]
    exact Session.retired_installRekeyed h.windows hcond now newKeys (h.current c hc)
  · exact .inl (Session.counter_le_windowEnd_update now hcenter)

/-- A committed rekey opens an epoch and retires what the outgoing one has accepted, if its
newest counter lies inside the window. -/
theorem Sound.commit (h : w.Sound) (now : Nat) (clientEphPub : Bytes32)
    (hcond : w.session.counter ≤ w.session.windowEnd)
    (hdistinct : (w.perform env (.commitSessionRekey now clientEphPub)).epochs.Nodup) :
    (w.perform env (.commitSessionRekey now clientEphPub)).Sound := by
  simp only [perform] at hdistinct ⊢
  unfold Session.commitSessionRekey
  split
  · next hnone =>
    have hkeys : w.session.rekeyedKeys env clientEphPub = none := by
      unfold Session.rekeyedKeys
      rw [Option.isNone_iff_eq_none.mp hnone]
      rfl
    rw [hkeys]
    exact h
  · next hsome =>
    cases hkeys : w.session.rekeyedKeys env clientEphPub with
    | none =>
      refine h.continues ⟨⟨rfl, rfl, fun _ hk => hk, fun _ _ _ hc => hc, id⟩, ?_⟩
      exact ⟨h.windows.range, h.windows.reach, h.windows.bounded, h.windows.ratcheted,
        fun hp => (by cases hp)⟩
    | some newKeys =>
      rw [hkeys] at hdistinct
      obtain ⟨hnew, -⟩ := nodup_cons.mp hdistinct
      exact h.installed now newKeys hsome hnew hcond

/-- The completed ratchet starts its counters anew under its own keys. -/
theorem Sound.complete (h : w.Sound) (now : Nat)
    (hdistinct : (w.perform env (.completeRatchet now)).epochs.Nodup) :
    (w.perform env (.completeRatchet now)).Sound := by
  simp only [perform] at hdistinct ⊢
  unfold Session.completeRatchet
  cases hkeys : w.session.ratchetedKeys with
  | none => exact h
  | some newKeys =>
    rw [hkeys] at hdistinct
    obtain ⟨hnew, -⟩ := nodup_cons.mp hdistinct
    obtain ⟨older, hepochs, -⟩ := h.epoch
    have htags : w.session.ratchetedExpectedTags = Finset.Icc 0 511 := by
      rw [(h.windows.ratcheted (by rw [hkeys]; rfl)).1]
      ext c
      rw [Finset.mem_range, Finset.mem_Icc]
      unfold tagWindowSize
      omega
    have hend : w.session.ratchetedExpectedTags.sup id = 511 := by
      rw [htags]
      exact Session.sup_Icc (by omega)
    refine ⟨h.nodup, ⟨?_, ?_, ?_, ?_, ?_⟩, ⟨w.epochs, rfl, ?_⟩, ?_, ?_, ?_, ?_⟩
    · show w.session.ratchetedExpectedTags = Finset.Icc (0 - (tagWindowSize - 1))
        (w.session.ratchetedExpectedTags.sup id)
      rw [hend, htags, Nat.zero_sub]
    · show min (0 + (tagWindowSize - 1)) u64Max ≤ w.session.ratchetedExpectedTags.sup id
      rw [hend]
      decide
    · exact Nat.zero_le _
    · intro hsome
      cases hsome
    · exact fun _ => rfl
    · intro keys hk
      cases hk
      rw [hepochs]
      exact mem_cons_self
    · exact fun p hp => mem_cons_of_mem _ (h.known p hp)
    · intro c hc
      exact absurd (h.known _ hc) hnew
    · intro keys hk c hc
      cases hk
      by_cases hmem : c ∈ w.session.expectedTags
      · exact .inl (Session.mem_stale hmem (h.current c hc))
      · exact .inr ⟨hmem, fun hmono => (by cases hmono)⟩
    · exact .inl (Nat.zero_le _)

/-! ### Runs -/

/-- If the step commits a rekey, the newest counter lies inside the precomputed window. -/
def insideWindow (w : Ingress) : SessionStep → Bool
  | .commitSessionRekey _ _ => decide (w.session.counter ≤ w.session.windowEnd)
  | _ => true

/-- If the step is a packet, the lookup of its tag can return its counter. -/
def found (w : Ingress) : SessionStep → Bool
  | .accept secret counter now => w.session.lookupFinds now secret counter.toNat
  | _ => true

theorem epochs_suffix (w : Ingress) (step : SessionStep) :
    w.epochs <:+ (w.perform env step).epochs := by
  cases step with
  | accept secret counter now =>
    simp only [perform, accept]
    split <;> exact suffix_rfl
  | commitSessionRekey now clientEphPub | completeRatchet now => exact suffix_append _ _
  | _ => exact suffix_rfl

/-- One step keeps the invariant. -/
theorem Sound.step (h : w.Sound) (step : SessionStep) (hcond : w.insideWindow step = true)
    (hdistinct : (w.perform env step).epochs.Nodup) : (w.perform env step).Sound := by
  cases step with
  | accept secret counter now =>
    apply h.accept ((epochs_suffix w _).sublist.nodup hdistinct)
    have := counter.toNat_lt
    unfold u64Max
    omega
  | commitSessionRekey now clientEphPub =>
    exact h.commit now clientEphPub (of_decide_eq_true hcond) hdistinct
  | completeRatchet now => exact h.complete now hdistinct
  | refreshTagWindowIfNeeded now =>
    exact h.continues (Session.continues_refreshTagWindowIfNeeded h.windows now)
  | updateTagWindow now =>
    exact h.continues ⟨Session.continues_updateTagWindow now h.windows.bounded,
      Session.windowsSound_updateTagWindow now h.windows.bounded h.windows.ratcheted
        h.windows.pending⟩
  | updateRatchetedTagWindow =>
    exact h.continues (Session.continues_updateRatchetedTagWindow h.windows)
  | startRekeying now kp =>
    exact h.continues (Session.continues_startRekeying h.windows now kp)
  | rekeyRetransmitsDue now =>
    exact h.continues (Session.continues_rekeyRetransmitsDue h.windows now)
  | expireGrace now =>
    exact h.continues (Session.continues_expireGrace h.windows now)
  | _ => exact h.continues (Session.continues_of_eq h.windows rfl)

theorem sound_opened (keys ratchetedKeys : SessionKeys) (now : Nat) :
    (opened keys ratchetedKeys now).Sound := by
  refine ⟨nodup_nil, Session.windowsSound_opened keys ratchetedKeys now, ⟨[], ?_, ?_⟩, ?_, ?_,
    ?_, .inl ?_⟩
  · show [keys.tagSecret] = [(Session.opened keys ratchetedKeys now).keys.tagSecret]
    rw [(Session.opened_fields keys ratchetedKeys now).1]
  · intro previous hk
    change (Session.opened keys ratchetedKeys now).preRatchetKeys = some previous at hk
    cases hk
  · intro p hp
    cases hp
  · intro c hc
    cases hc
  · intro previous _ c hc
    cases hc
  · show (Session.opened keys ratchetedKeys now).counter ≤ _
    exact Nat.zero_le _

/-- The epochs at one point of a run are the oldest of those at any later point. -/
theorem epochs_suffix_after (env : CryptoEnv) (start : Ingress) (steps : List SessionStep)
    {a b : Nat} (hab : a ≤ b) :
    (after env start steps a).epochs <:+ (after env start steps b).epochs :=
  stateAt_suffix epochs_suffix hab

/-- The invariant holds up to the first commit outside the window. -/
theorem sound_after {start : Ingress} (h : start.Sound) {steps : List SessionStep} {n : Nat}
    (hdistinct : (after env start steps steps.length).epochs.Nodup)
    (hcond : ∀ k step, k < n → steps[k]? = some step →
      (after env start steps k).insideWindow step = true) :
    (after env start steps n).Sound := by
  refine stateAt_keeps (P := Sound) (Nat.zero_le n) h ?_
  intro k step _ hk hstep hsound
  refine hsound.step step (hcond k step hk hstep) ?_
  have hlt : k < steps.length := (List.getElem?_eq_some_iff.mp hstep).1
  have hsuffix := epochs_suffix_after env start steps (Nat.succ_le_of_lt hlt)
  unfold after at hsuffix
  rw [stateAt_succ hstep] at hsuffix
  exact hsuffix.sublist.nodup hdistinct

/-- A commit outside the window forgets the newest counter of the outgoing epoch, which is
accepted again at once. -/
theorem Sound.accepted_again (h : w.Sound) {now : Nat} {clientEphPub : Bytes32}
    {newKeys : SessionKeys} (hkeys : w.session.rekeyedKeys env clientEphPub = some newKeys)
    (hout : w.session.windowEnd < w.session.counter) (hpresent : w.session.removed = false)
    (hdistinct : (w.perform env (.commitSessionRekey now clientEphPub)).epochs.Nodup) :
    ¬ ((w.perform env (.commitSessionRekey now clientEphPub)).accept w.session.keys.tagSecret
      w.session.counter now).accepted.Nodup := by
  have hmem : (w.session.keys.tagSecret, w.session.counter) ∈ w.accepted := by
    rcases h.reached with hle | hmem
    · omega
    · exact hmem
  have hbound : w.session.counter ≤ u64Max := w.session.counter_le_center.trans h.windows.bounded
  have hbase : 128 ≤ w.session.counter - w.session.tagWindowBase := by
    have hreach := h.windows.reach
    unfold tagWindowSize at hreach
    omega
  have hforgotten : w.session.counter ∉ w.session.expectedTags := by
    rw [h.windows.range, Finset.mem_Icc]
    omega
  have hpending : w.session.pendingRekeyKeypair.isNone = false := by
    cases hp : w.session.pendingRekeyKeypair with
    | none =>
      rw [Session.rekeyedKeys, hp] at hkeys
      cases hkeys
    | some kp => rfl
  have hnew : newKeys.tagSecret ≠ w.session.keys.tagSecret := by
    obtain ⟨older, hepochs, -⟩ := h.epoch
    have hdistinct : (newKeys.tagSecret :: w.epochs).Nodup := by
      simp only [perform, openEpoch, hkeys] at hdistinct
      exact hdistinct
    intro heq
    rw [heq, hepochs] at hdistinct
    exact (nodup_cons.mp hdistinct).1 mem_cons_self
  have hepoch : (w.session.commitSessionRekey env now clientEphPub).authenticatedCounterEpoch
      now w.session.counter w.session.keys.tagSecret = some true := by
    have hgrace : now < now + w.session.inlineRekeyGrace := by
      unfold Session.inlineRekeyGrace
      omega
    unfold Session.commitSessionRekey
    rw [hpending, hkeys]
    exact Session.authenticatedCounterEpoch_forgotten hpresent hgrace hbase hbound hforgotten hnew
  unfold Ingress.accept
  simp only [perform, openEpoch, hepoch]
  exact fun hnodup => (nodup_cons.mp hnodup).1 hmem

/-- No packet is accepted twice in a run whose epochs have distinct secrets, if every rekey is
committed inside the window; and the first commit outside it lets the newest packet of the
outgoing epoch in again. -/
theorem no_packet_accepted_twice (keys ratchetedKeys : SessionKeys) (t : Nat)
    (steps : List SessionStep)
    (hdistinct : (after env (opened keys ratchetedKeys t) steps steps.length).epochs.Nodup) :
    ((∀ k step, steps[k]? = some step →
        (after env (opened keys ratchetedKeys t) steps k).insideWindow step = true) →
      ∀ k, (after env (opened keys ratchetedKeys t) steps k).accepted.Nodup) ∧
    (∀ k now clientEphPub, steps[k]? = some (.commitSessionRekey now clientEphPub) →
      (∀ j step, j < k → steps[j]? = some step →
        (after env (opened keys ratchetedKeys t) steps j).insideWindow step = true) →
      (after env (opened keys ratchetedKeys t) steps k).insideWindow
        (.commitSessionRekey now clientEphPub) = false →
      (after env (opened keys ratchetedKeys t) steps k).session.removed = false →
      ((after env (opened keys ratchetedKeys t) steps k).session.rekeyedKeys env
        clientEphPub).isSome = true →
      ¬ ((after env (opened keys ratchetedKeys t) steps (k + 1)).accept
        (after env (opened keys ratchetedKeys t) steps k).session.keys.tagSecret
        (after env (opened keys ratchetedKeys t) steps k).session.counter now).accepted.Nodup) := by
  have hopened := sound_opened keys ratchetedKeys t
  constructor
  · intro hcond k
    exact (sound_after hopened hdistinct fun j step _ => hcond j step).nodup
  · intro k now clientEphPub hstep hcond hout hpresent hkeys
    have hsound := sound_after hopened hdistinct hcond
    obtain ⟨newKeys, hnew⟩ := Option.isSome_iff_exists.mp hkeys
    have hlt : k < steps.length := (List.getElem?_eq_some_iff.mp hstep).1
    have hsuffix := epochs_suffix_after env (opened keys ratchetedKeys t) steps
      (Nat.succ_le_of_lt hlt)
    have hnext : after env (opened keys ratchetedKeys t) steps (k + 1) = _ := stateAt_succ hstep
    have hnodup := hsuffix.sublist.nodup hdistinct
    rw [hnext] at hnodup ⊢
    refine hsound.accepted_again hnew ?_ hpresent hnodup
    exact Nat.lt_of_not_le (of_decide_eq_false hout)

/-- A ratchet and a rekey in which the packets keep inside the window; the packet of the old
epoch that is sent again after the commit is not accepted. -/
def insideRun : List SessionStep :=
  [.accept (sampleKey 1) 0 1, .completeRatchet 2,
    .startRekeying 200000000000 ⟨sampleKey 7⟩,
    .accept (sampleKey 2) 100 200000000001,
    .commitSessionRekey 200000000002 (sampleKey 3),
    .accept (sampleKey 2) 100 200000000003,
    .accept (sampleKey 12) 101 200000000004]

theorem no_packet_accepted_twice_insideRun :
    (after sampleCrypto (opened (sampleKeys 1) (sampleKeys 2) 0) insideRun 7).accepted.Nodup ∧
    (after sampleCrypto (opened (sampleKeys 1) (sampleKeys 2) 0) insideRun 7).accepted.length = 3 := by
  constructor
  · refine (no_packet_accepted_twice _ _ 0 insideRun (by decide +kernel)).1 ?_ 7
    intro k step hstep
    match k, hstep with
    | 0, hstep | 1, hstep | 2, hstep | 3, hstep | 5, hstep | 6, hstep => cases hstep; rfl
    | 4, hstep =>
      cases hstep
      have hmem : (after sampleCrypto (opened (sampleKeys 1) (sampleKeys 2) 0) insideRun
          4).session.counter ∈ (after sampleCrypto (opened (sampleKeys 1) (sampleKeys 2) 0)
            insideRun 4).session.expectedTags := by
        decide +kernel
      generalize after _ _ insideRun 4 = w at hmem ⊢
      exact decide_eq_true (Finset.le_sup (f := id) hmem)
    | k + 7, hstep => cases hstep
  · decide +kernel

/-- A packet far ahead is found on the fly while the rekey is pending, and the rekey is committed
before the window is refreshed. -/
def outsideRun : List SessionStep :=
  [.accept (sampleKey 1) 0 1, .completeRatchet 2,
    .startRekeying 200000000000 ⟨sampleKey 7⟩,
    .accept (sampleKey 2) 100 200000000001,
    .accept (sampleKey 2) 4700 200000000002,
    .commitSessionRekey 200000000003 (sampleKey 3),
    .accept (sampleKey 2) 4700 200000000004]

/-- Every packet of the run is one that the lookup returns, and one is accepted twice. -/
theorem packet_accepted_twice :
    (after sampleCrypto (opened (sampleKeys 1) (sampleKeys 2) 0) outsideRun 7).epochs.Nodup ∧
    (∀ k < 7, ∀ step ∈ outsideRun[k]?, (after sampleCrypto
      (opened (sampleKeys 1) (sampleKeys 2) 0) outsideRun k).found step = true) ∧
    ¬ (after sampleCrypto (opened (sampleKeys 1) (sampleKeys 2) 0) outsideRun 7).accepted.Nodup := by
  decide +kernel

end Ingress

end AivpnSpec.Server
