import AivpnSpec.Base.SlidingWindow
import AivpnSpec.Common.Crypto
import Mathlib.Order.Interval.Finset.Nat

/-!
# The server's session: keys, counters and tag windows

`crates/aivpn-server/src/session.rs`. A packet is named by the tag secret that authenticates it
and its counter. The current epoch keeps a sliding window of received counters; the previous one
is accepted during a grace period from an explicit set. Tags are precomputed for a range of
counters, of which only the counters matter here. Counters are 64-bit numbers and their sums
saturate; instants and durations are nanoseconds.
-/

namespace AivpnSpec.Server

open AivpnSpec.Base AivpnSpec.Common

/-- `TAG_WINDOW_SIZE`, `session.rs:48`. -/
def tagWindowSize : Nat := 512

/-- `REKEY_TAG_LOOKAHEAD`, `session.rs:114`. -/
def rekeyTagLookahead : Nat := 4096

/-- `u64::MAX`. -/
def u64Max : Nat := 2 ^ 64 - 1

/-- `saturating_add`. -/
def saturatingAdd (a b : Nat) : Nat := min (a + b) u64Max

/-- The fields of `Session` that tags, replay and rekeying depend on. -/
structure Session where
  removed : Bool
  keys : SessionKeys
  counter : Nat
  /-- the counters of the precomputed tags -/
  expectedTags : Finset Nat
  tagWindowBase : Nat
  tagSearchHint : Option Nat
  receivedBitmap : Bitmap 8
  ratchetedKeys : Option SessionKeys
  ratchetedExpectedTags : Finset Nat
  isRatcheted : Bool
  preRatchetTags : Finset Nat
  preRatchetExpire : Option Nat
  preRatchetMonotonic : Bool
  preRatchetCounter : Nat
  preRatchetWindowBase : Nat
  preRatchetReceived : Finset Nat
  preRatchetKeys : Option SessionKeys
  pendingRekeyKeypair : Option KeyPair
  pendingRekeyAttempts : Nat
  lastKeyrotateSentAt : Nat
  lastRekeyAt : Nat
  bytesSinceRekey : Nat
  clientSrttMs : Nat

namespace Session

variable (env : CryptoEnv) (s : Session) (now : Nat)

def window : SlidingWindow 8 := ⟨s.counter, s.receivedBitmap⟩

/-- `counter_is_fresh`, `session.rs:563-569`. -/
def counterIsFresh (counter : Nat) : Bool :=
  decide (s.counter < counter) ||
    (decide (s.counter - counter < tagWindowSize) &&
      !s.receivedBitmap.testBit (s.counter - counter))

/-- `pre_ratchet_keys_in_grace`, `session.rs:1070-1079`. -/
def preRatchetKeysInGrace : Option SessionKeys :=
  if s.preRatchetExpire.any fun expire => now < expire then s.preRatchetKeys else none

/-- `authenticated_counter_epoch`, `session.rs:544-560`: whether a packet that the given secret
authenticated is accepted, and if so whether it belongs to the previous epoch. -/
def authenticatedCounterEpoch (now counter : Nat) (secret : Bytes32) : Option Bool :=
  if s.removed then none
  else if s.keys.tagSecret = secret then
    if s.counterIsFresh counter then some false else none
  else
    match s.preRatchetKeysInGrace now with
    | none => none
    | some previous =>
      if previous.tagSecret = secret ∧ counter ∈ s.preRatchetTags ∧
          counter ∉ s.preRatchetReceived then some true
      else none

/-- `tag_search_center`, `session.rs:809-812`. -/
def tagSearchCenter : Nat := max s.counter (s.tagSearchHint.getD s.counter)

/-- `clear_consumed_tag_hint`, `session.rs:814-821`. -/
def clearConsumedTagHint : Session :=
  if s.tagSearchHint.any fun hint => hint ≤ s.counter then { s with tagSearchHint := none } else s

/-- `mark_tag_received`, `session.rs:1043-1058`. -/
def markTagReceived (counter : Nat) : Session :=
  if s.counter < counter then
    clearConsumedTagHint
      { s with counter := counter
               receivedBitmap := (s.receivedBitmap.shiftLeft (counter - s.counter)).setBit 0 }
  else if s.counter - counter < tagWindowSize then
    clearConsumedTagHint { s with receivedBitmap := s.receivedBitmap.setBit (s.counter - counter) }
  else s.clearConsumedTagHint

/-- `mark_pre_ratchet_received`, `session.rs:1082-1089`. -/
def markPreRatchetReceived (counter : Nat) : Session :=
  let marked := { s with preRatchetReceived := insert counter s.preRatchetReceived }
  if counter ∉ s.preRatchetReceived ∧ s.preRatchetMonotonic then
    { marked with
      preRatchetCounter := max s.preRatchetCounter counter
      tagSearchHint :=
        if s.counter < counter then some (max s.tagSearchCenter counter) else s.tagSearchHint }
  else marked

/-- `preserve_replay_for_grace`, `session.rs:572-583`. -/
def preserveReplayForGrace (now grace : Nat) : Session :=
  { s with
    preRatchetReceived := s.expectedTags.filter fun counter => !s.counterIsFresh counter
    preRatchetCounter := s.counter
    preRatchetWindowBase := s.tagWindowBase
    preRatchetTags := s.expectedTags
    expectedTags := ∅
    preRatchetExpire := some (now + grace) }

def windowForward : Nat :=
  tagWindowSize - 1 + if s.pendingRekeyKeypair.isSome then rekeyTagLookahead else 0

/-- The previous epoch's window follows its counter, `session.rs:875-898`. -/
def previousAdvanced : Bool :=
  s.preRatchetMonotonic && (s.preRatchetKeysInGrace now).isSome &&
    decide (128 ≤ s.preRatchetCounter - s.preRatchetWindowBase)

/-- The part of `update_tag_window` that rebuilds the previous epoch's window. -/
def rebuildPrevious : Session :=
  let center := s.preRatchetCounter
  let start := center - (tagWindowSize - 1)
  { s with
    preRatchetTags :=
      Finset.Icc start (saturatingAdd center (tagWindowSize - 1 + rekeyTagLookahead))
    preRatchetReceived := s.preRatchetReceived.filter fun counter => start ≤ counter
    preRatchetWindowBase := center }

/-- `update_tag_window`, `session.rs:843-899`. -/
def updateTagWindow : Session :=
  let center := s.tagSearchCenter
  let current :=
    { s with
      expectedTags :=
        Finset.Icc (center - (tagWindowSize - 1)) (saturatingAdd center s.windowForward)
      tagWindowBase := center }
  if s.previousAdvanced now then current.rebuildPrevious else current

/-- `refresh_tag_window_if_needed`, `session.rs:824-840`. -/
def refreshTagWindowIfNeeded : Session :=
  if 128 ≤ s.tagSearchCenter - s.tagWindowBase ∨ s.previousAdvanced now then s.updateTagWindow now
  else s

/-- `update_ratcheted_tag_window`, `session.rs:1119-1134`. -/
def updateRatchetedTagWindow : Session :=
  if s.ratchetedKeys.isSome then { s with ratchetedExpectedTags := Finset.range tagWindowSize }
  else s

/-- `RECOVERY_RANGE`, `session.rs:2091`. -/
def recoveryRange : Nat := 2048

/-- Whether the lookup of a tag made with the given secret and counter can return that counter:
from the index of precomputed tags (`find_session_by_tag`), from the search around the centre
(`validate_tag`) or from counter recovery (`recover_session_by_tag`). -/
def lookupFinds (secret : Bytes32) (counter : Nat) : Bool :=
  let inReach := decide (counter ≤ saturatingAdd s.tagSearchCenter s.windowForward)
  let indexed := decide (counter ∈ s.expectedTags) && inReach
  let onTheFly := decide (s.tagSearchCenter - (tagWindowSize - 1) ≤ counter) && inReach
  let recovered := decide (s.tagSearchCenter ≤ counter) &&
    decide (counter ≤ s.tagSearchCenter + recoveryRange)
  let current := decide (s.keys.tagSecret = secret) && s.counterIsFresh counter &&
    (indexed || onTheFly || recovered)
  let previous := (s.preRatchetKeysInGrace now).any fun keys =>
    decide (keys.tagSecret = secret) && decide (counter ∈ s.preRatchetTags) &&
      decide (counter ∉ s.preRatchetReceived)
  let ratcheted := !s.isRatcheted && s.ratchetedKeys.any fun keys =>
    decide (keys.tagSecret = secret) &&
      (decide (counter ∈ s.ratchetedExpectedTags) || decide (counter < tagWindowSize))
  !s.removed && (current || previous || ratcheted)

/-- `rekey_grace`, `session.rs:1152-1160`. -/
def rekeyGrace : Nat :=
  if s.clientSrttMs = 0 then 2000000000
  else max 2000000000 (min 30000000000 (s.clientSrttMs * 4 * 1000000))

/-- `inline_rekey_grace`, `session.rs:1165-1167`. -/
def inlineRekeyGrace : Nat := max s.rekeyGrace 20000000000

/-- `observe_client_rtt`, `session.rs:1138-1145`. -/
def observeClientRtt (rttMs : Nat) : Session :=
  let sample := max 1 (min 60000 rttMs)
  { s with clientSrttMs :=
      if s.clientSrttMs = 0 then sample else (s.clientSrttMs * 7 + sample) / 8 }

/-- `complete_ratchet`, `session.rs:1170-1204`. -/
def completeRatchet : Session :=
  match s.ratchetedKeys with
  | none => s
  | some ratchetedKeys =>
    let preserved := preserveReplayForGrace
      { s with ratchetedKeys := none, preRatchetMonotonic := false, tagSearchHint := none }
      now s.rekeyGrace
    { preserved with
      preRatchetKeys := some s.keys
      keys := ratchetedKeys
      counter := 0
      tagWindowBase := 0
      expectedTags := s.ratchetedExpectedTags
      ratchetedExpectedTags := ∅
      receivedBitmap := Bitmap.zero 8
      isRatcheted := true }

/-- `REKEY_INTERVAL_SECS`, `session.rs:65`. -/
def rekeyInterval : Nat := 120 * 1000000000

/-- `REKEY_BYTES_THRESHOLD`, `session.rs:74`. -/
def rekeyBytesThreshold : Nat := 64 * 1024 * 1024

/-- `REKEY_RETRANSMIT_SECS`, `session.rs:96`. -/
def rekeyRetransmit : Nat := 3 * 1000000000

/-- `MAX_REKEY_SEND_ATTEMPTS`, `session.rs:85`. -/
def maxRekeySendAttempts : Nat := 5

/-- `start_rekeying_sessions` for one session, `session.rs:2542-2598`, with the key pair it draws:
the session and the ephemeral key to send. -/
def startRekeying (kp : KeyPair) : Session × Option Bytes32 :=
  if !s.isRatcheted || s.pendingRekeyKeypair.isSome then (s, none)
  else if now - s.lastRekeyAt < rekeyInterval ∧ s.bytesSinceRekey < rekeyBytesThreshold then
    (s, none)
  else
    (updateTagWindow
      { s with pendingRekeyKeypair := some kp
               pendingRekeyAttempts := 1
               lastKeyrotateSentAt := now } now,
      some (kp.publicKeyBytes env))

/-- `rekey_retransmits_due` for one session, `session.rs:2621-2667`. -/
def rekeyRetransmitsDue : Session × Option Bytes32 :=
  match s.pendingRekeyKeypair with
  | none => (s, none)
  | some kp =>
    if now - s.lastKeyrotateSentAt < rekeyRetransmit then (s, none)
    else if s.pendingRekeyAttempts < maxRekeySendAttempts then
      ({ s with pendingRekeyAttempts := s.pendingRekeyAttempts + 1, lastKeyrotateSentAt := now },
        some (kp.publicKeyBytes env))
    else
      ({ s with pendingRekeyKeypair := none, pendingRekeyAttempts := 0, lastRekeyAt := now }, none)

variable (clientEphPub : Bytes32)

/-- The keys that a commit installs, `session.rs:2690-2708`. -/
def rekeyedKeys : Option SessionKeys :=
  s.pendingRekeyKeypair.bind fun kp =>
    (kp.computeShared env clientEphPub).map fun dh =>
      deriveSessionKeys env dh (some s.keys.sessionKey) clientEphPub

/-- The outgoing epoch goes into grace and the new keys are installed; both counters go on,
`session.rs:2711-2749`. -/
def installRekeyed (newKeys : SessionKeys) : Session :=
  { s.preserveReplayForGrace now s.inlineRekeyGrace with
    preRatchetMonotonic := true
    preRatchetKeys := some s.keys
    keys := newKeys
    bytesSinceRekey := 0
    lastRekeyAt := now
    ratchetedExpectedTags := ∅ }

/-- `commit_session_rekey`, `session.rs:2671-2758`. -/
def commitSessionRekey : Session :=
  if s.pendingRekeyKeypair.isNone then s
  else
    let taken := { s with pendingRekeyKeypair := none, pendingRekeyAttempts := 0 }
    match s.rekeyedKeys env clientEphPub with
    | none => taken
    | some newKeys => (taken.installRekeyed now newKeys).updateTagWindow now

/-- The end of the grace period in `cleanup_expired`, `session.rs:2266-2279`. -/
def expireGrace : Session :=
  if s.preRatchetExpire.any fun expire => expire ≤ now then
    { s with
      preRatchetTags := ∅
      preRatchetReceived := ∅
      preRatchetExpire := none
      preRatchetKeys := none
      preRatchetCounter := 0
      preRatchetWindowBase := 0
      preRatchetMonotonic := false }
  else s

/-- `Session::new`, `session.rs:608-703`, with the ratcheted keys that are prepared for it. -/
def new (keys ratchetedKeys : SessionKeys) (now : Nat) : Session where
  removed := false
  keys := keys
  counter := 0
  expectedTags := ∅
  tagWindowBase := 0
  tagSearchHint := none
  receivedBitmap := Bitmap.zero 8
  ratchetedKeys := some ratchetedKeys
  ratchetedExpectedTags := ∅
  isRatcheted := false
  preRatchetTags := ∅
  preRatchetExpire := none
  preRatchetMonotonic := false
  preRatchetCounter := 0
  preRatchetWindowBase := 0
  preRatchetReceived := ∅
  preRatchetKeys := none
  pendingRekeyKeypair := none
  pendingRekeyAttempts := 0
  lastKeyrotateSentAt := now
  lastRekeyAt := now
  bytesSinceRekey := 0
  clientSrttMs := 0

/-- The session as `build_and_insert_session` inserts it, `session.rs:1648-1672`. -/
def opened (keys ratchetedKeys : SessionKeys) (now : Nat) : Session :=
  ((new keys ratchetedKeys now).updateTagWindow now).updateRatchetedTagWindow

/-- What an update of the windows leaves alone. -/
theorem updateTagWindow_frame : (s.updateTagWindow now).keys = s.keys ∧
    (s.updateTagWindow now).preRatchetKeys = s.preRatchetKeys ∧
    (s.updateTagWindow now).tagSearchCenter = s.tagSearchCenter ∧
    (s.updateTagWindow now).ratchetedKeys = s.ratchetedKeys ∧
    (s.updateTagWindow now).isRatcheted = s.isRatcheted ∧
    (s.updateTagWindow now).pendingRekeyKeypair = s.pendingRekeyKeypair := by
  unfold updateTagWindow
  split <;> exact ⟨rfl, rfl, rfl, rfl, rfl, rfl⟩

/-- A rekey is started only if none is pending; the keys stay. -/
theorem startRekeying_cases (kp : KeyPair) :
    let r := s.startRekeying env now kp
    r = (s, none) ∨
      s.pendingRekeyKeypair = none ∧ r.1.pendingRekeyKeypair = some kp ∧ r.1.keys = s.keys ∧
        r.2 = some (kp.publicKeyBytes env) := by
  unfold startRekeying
  split
  · exact .inl rfl
  next hready =>
  split
  · exact .inl rfl
  refine .inr ⟨?_, ?_, ?_, rfl⟩
  · simp only [Bool.or_eq_true, not_or, Option.not_isSome_iff_eq_none] at hready
    exact hready.2
  · exact (updateTagWindow_frame _ now).2.2.2.2.2
  · exact (updateTagWindow_frame _ now).1

/-- A sweep sends the pending key again, gives the rekey up or does nothing; the keys stay. -/
theorem rekeyRetransmitsDue_cases :
    let r := s.rekeyRetransmitsDue env now
    r.1.keys = s.keys ∧
      ((r.1.pendingRekeyKeypair = s.pendingRekeyKeypair ∧ ∀ eph, r.2 = some eph →
          s.pendingRekeyKeypair.map (KeyPair.publicKeyBytes env) = some eph) ∨
        r.1.pendingRekeyKeypair = none ∧ r.2 = none) := by
  unfold rekeyRetransmitsDue
  split
  · exact ⟨rfl, .inl ⟨rfl, fun eph h => by cases h⟩⟩
  next kp hkp =>
  split
  · exact ⟨rfl, .inl ⟨rfl, fun eph h => by cases h⟩⟩
  split
  · refine ⟨rfl, .inl ⟨rfl, fun eph h => ?_⟩⟩
    rw [hkp]
    exact h
  · exact ⟨rfl, .inr ⟨rfl, rfl⟩⟩

/-- A commit ends the pending rekey and installs the keys it derives. -/
theorem commitSessionRekey_cases :
    (s.commitSessionRekey env now clientEphPub).pendingRekeyKeypair = none ∧
    (s.commitSessionRekey env now clientEphPub).keys =
      (s.rekeyedKeys env clientEphPub).getD s.keys := by
  unfold commitSessionRekey
  split
  · next hnone =>
    have hnone := Option.isNone_iff_eq_none.mp hnone
    refine ⟨hnone, ?_⟩
    unfold rekeyedKeys
    rw [hnone]
    rfl
  · cases hkeys : s.rekeyedKeys env clientEphPub with
    | none => exact ⟨rfl, rfl⟩
    | some newKeys =>
      obtain ⟨hkeys, -, -, -, -, hpending⟩ := updateTagWindow_frame
        (installRekeyed { s with pendingRekeyKeypair := none, pendingRekeyAttempts := 0 } now
          newKeys) now
      exact ⟨hpending, hkeys⟩

end Session

end AivpnSpec.Server
