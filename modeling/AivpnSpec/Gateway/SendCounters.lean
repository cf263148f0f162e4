import AivpnSpec.Base.Ledger
import AivpnSpec.Base.Runs
import AivpnSpec.Gateway.Reservation

/-!
# No counter twice under one key

`session.rs:748-754,1170-1204,2671-2758` and `kernel_offload.rs:153-202`: the counters of one
session towards its client, handed out to userspace singly and to the kernel in blocks, over the
ratchet, which starts them again at 0, and over rekeys, which go on counting. What a key was given
is a run of consecutive counters, and so is what was given since the last ratchet, under whatever
keys.
-/

namespace AivpnSpec.Gateway

open AivpnSpec.Base AivpnSpec.Common AivpnSpec.Kernel List

namespace SendSession

/-- `complete_ratchet`, `session.rs:1170-1204`: the send counter starts again with the new keys. -/
def completeRatchet (s : SendSession) (now : Nat) : SendSession :=
  { s with
    session := s.session.completeRatchet now
    sendCounter := if s.session.ratchetedKeys.isSome then 0 else s.sendCounter }

/-- `commit_session_rekey`, `session.rs:2671-2758`: the send counter goes on. -/
def commitSessionRekey (crypto : CryptoEnv) (s : SendSession) (now : Nat)
    (clientEphPub : Bytes32) : SendSession :=
  { s with session := s.session.commitSessionRekey crypto now clientEphPub }

end SendSession

/-- A step under the session's lock. -/
inductive SendStep where
  | nextSendNonce
  | makeKernelDownlink (armed : Bool) (rng : HeaderRng) (timeWindow : UInt64)
  | completeRatchet (now : Nat)
  | commitSessionRekey (now : Nat) (clientEphPub : Bytes32)
  /-- anything else that happens to the session; it has neither the keys nor the send counter in
  its hands -/
  | other (session : Server.Session) (sendSeq : UInt32) (mask : Option MaskProfile)

/-- What the steps take from outside of the session. -/
structure SenderEnv where
  crypto : CryptoEnv
  send : SendEnv
  /-- `session_key_s2c` of a key set -/
  sessionKeyS2c : SessionKeys → Bytes32

/-- A session with its server-to-client keys and the counters that were handed out under them, all
latest first, and the counters handed out since the send counter last started. -/
structure Sender where
  session : SendSession
  epochs : List Bytes32
  handedOut : List (Bytes32 × UInt64)
  sinceReset : List UInt64

namespace Sender

variable (env : SenderEnv)

variable (w : Sender)

def key : Bytes32 := env.sessionKeyS2c w.session.session.keys

def handOut (counters : List UInt64) (s : SendSession) : Sender :=
  { w with
    session := s
    handedOut := counters.map (w.key env, ·) ++ w.handedOut
    sinceReset := counters ++ w.sinceReset }

/-- The session replaced, with the key that it sends with from then on, if there is a new one. -/
def openEpoch (s : SendSession) (newKeys : Option SessionKeys) : Sender :=
  { w with session := s, epochs := (newKeys.map env.sessionKeyS2c).toList ++ w.epochs }

def perform : SendStep → Sender
  | .nextSendNonce =>
    let ((_, counter), s) := w.session.nextSendNonce
    w.handOut env [counter] s
  | .makeKernelDownlink armed rng timeWindow =>
    match w.session.makeKernelDownlink env.send armed rng timeWindow with
    | (none, s) => { w with session := s }
    | (some dl, s) => w.handOut env (dl.entries.map DlEntry.counter) s
  | .completeRatchet now =>
    let opened := w.openEpoch env (w.session.completeRatchet now) w.session.session.ratchetedKeys
    if w.session.session.ratchetedKeys.isSome then { opened with sinceReset := [] } else opened
  | .commitSessionRekey now clientEphPub =>
    w.openEpoch env (w.session.commitSessionRekey env.crypto now clientEphPub)
      (w.session.session.rekeyedKeys env.crypto clientEphPub)
  | .other session sendSeq mask =>
    if session.keys = w.session.session.keys then
      { w with session := { w.session with session := session, sendSeq := sendSeq, mask := mask } }
    else w

def start (s : SendSession) : Sender :=
  { session := s
    epochs := [env.sessionKeyS2c s.session.keys]
    handedOut := []
    sinceReset := [] }

/-- The session after the first `k` steps. -/
def after (s : SendSession) (steps : List SendStep) (k : Nat) : Sender :=
  stateAt (perform env) (start env s) steps k

/-- What each key was given is a run, that of the current one ends at the send counter, and so does
what was given since the counter last started. -/
structure Counted (w : Sender) : Prop where
  current : IsRun (givenTo w.handedOut (w.key env)) w.session.sendCounter
  every : ∀ key, ∃ next, IsRun (givenTo w.handedOut key) next
  known : ∀ entry ∈ w.handedOut, entry.1 ∈ w.epochs
  listed : w.key env ∈ w.epochs
  since : IsRun w.sinceReset w.session.sendCounter

variable {env w}

variable {s : SendSession} {k : Nat}

/-- The next counters handed out prolong the run of the current key. -/
theorem Counted.handOut (h : w.Counted env) (n : Nat)
    (hkeys : s.session.keys = w.session.session.keys)
    (hcounter : s.sendCounter = w.session.sendCounter + UInt64.ofNat n) :
    (w.handOut env (counterRun w.session.sendCounter n) s).Counted env := by
  have hkey : (w.handOut env (counterRun w.session.sendCounter n) s).key env = w.key env :=
    congrArg env.sessionKeyS2c hkeys
  have hrun := h.current.prolong n
  constructor
  · rw [hkey]
    simp only [Sender.handOut, givenTo_append, if_pos, hcounter]
    exact hrun
  · intro key
    simp only [Sender.handOut, givenTo_append]
    split
    · next heq =>
      subst heq
      exact ⟨_, hrun⟩
    · exact h.every key
  · intro entry hentry
    simp only [Sender.handOut, mem_append, mem_map] at hentry
    rcases hentry with ⟨counter, -, rfl⟩ | hentry
    · exact h.listed
    · exact h.known entry hentry
  · rw [hkey]
    exact h.listed
  · simp only [Sender.handOut, hcounter]
    exact h.since.prolong n

/-- A change of the session that leaves the keys and the counter. -/
theorem Counted.keep (h : w.Counted env) (hkeys : s.session.keys = w.session.session.keys)
    (hcounter : s.sendCounter = w.session.sendCounter) : Counted env { w with session := s } := by
  have hkey : key env { w with session := s } = w.key env := congrArg env.sessionKeyS2c hkeys
  constructor
  · rw [hkey, hcounter]
    exact h.current
  · exact h.every
  · exact h.known
  · rw [hkey]
    exact h.listed
  · rw [hcounter]
    exact h.since

/-- New keys begin a run at the send counter, wherever it stands. -/
theorem Counted.newEpoch (h : w.Counted env) {newKeys : SessionKeys} {since : List UInt64}
    (hkeys : s.session.keys = newKeys) (hnew : env.sessionKeyS2c newKeys ∉ w.epochs)
    (hsince : IsRun since s.sendCounter) :
    Counted env
      { session := s
        epochs := env.sessionKeyS2c newKeys :: w.epochs
        handedOut := w.handedOut
        sinceReset := since } := by
  subst hkeys
  constructor
  · have hnone : givenTo w.handedOut (env.sessionKeyS2c s.session.keys) = [] :=
      eq_nil_iff_forall_not_mem.mpr fun _ hmem => hnew (h.known _ (mem_givenTo.mp hmem))
    simp only [key, hnone]
    exact isRun_nil _
  · exact h.every
  · intro entry hentry
    exact mem_cons_of_mem _ (h.known entry hentry)
  · exact mem_cons_self
  · exact hsince

/-- One step keeps the runs. -/
theorem Counted.step (h : w.Counted env) (step : SendStep)
    (hdistinct : (w.perform env step).epochs.Nodup) : (w.perform env step).Counted env := by
  cases step with
  | nextSendNonce =>
    have hone := h.handOut (s := w.session.nextSendNonce.2) 1 rfl rfl
    rw [counterRun_one] at hone
    exact hone
  | makeKernelDownlink armed rng timeWindow =>
    simp only [perform]
    rcases w.session.makeKernelDownlink_cases env.send armed rng timeWindow with
      hnone | ⟨mask, dl, -, -, -, -, -, hentries, hsome⟩
    · rw [hnone]
      exact h
    · rw [hsome]
      simp only [hentries]
      exact h.handOut kernelDownlinkBlock rfl (by simp)
  | completeRatchet now =>
    simp only [perform, openEpoch] at hdistinct ⊢
    cases hkeys : w.session.session.ratchetedKeys with
    | none =>
      have hsame : w.session.completeRatchet now = w.session := by
        simp [SendSession.completeRatchet, Server.Session.completeRatchet, hkeys]
      simp only [hsame]
      exact h
    | some newKeys =>
      simp only [hkeys] at hdistinct
      have hnew := (nodup_cons.mp hdistinct).1
      apply h.newEpoch _ hnew
      · simp only [SendSession.completeRatchet, hkeys]
        exact isRun_nil 0
      · simp [SendSession.completeRatchet, Server.Session.completeRatchet, hkeys]
  | commitSessionRekey now clientEphPub =>
    have hinstalled := (w.session.session.commitSessionRekey_cases env.crypto now clientEphPub).2
    simp only [perform, openEpoch] at hdistinct ⊢
    cases hkeys : w.session.session.rekeyedKeys env.crypto clientEphPub with
    | none =>
      rw [hkeys] at hinstalled
      exact h.keep hinstalled rfl
    | some newKeys =>
      rw [hkeys] at hdistinct hinstalled
      exact h.newEpoch hinstalled (nodup_cons.mp hdistinct).1 h.since
  | other session sendSeq mask =>
    simp only [perform]
    split
    · next hkeys => exact h.keep hkeys rfl
    · exact h

/-- Keys are only ever added. -/
theorem epochs_suffix (w : Sender) (step : SendStep) :
    w.epochs <:+ (w.perform env step).epochs := by
  cases step with
  | nextSendNonce => exact suffix_rfl
  | makeKernelDownlink armed rng timeWindow | other session sendSeq mask =>
    simp only [perform]
    split <;> exact suffix_rfl
  | completeRatchet now =>
    simp only [perform]
    split <;> exact suffix_append _ _
  | commitSessionRekey now clientEphPub => exact suffix_append _ _

theorem after_succ {steps : List SendStep} {step : SendStep} (h : steps[k]? = some step) :
    after env s steps (k + 1) = (after env s steps k).perform env step := stateAt_succ h

/-- Over a whole run with distinct keys. -/
theorem counted_after (s : SendSession) (steps : List SendStep)
    (hdistinct : (after env s steps steps.length).epochs.Nodup) :
    (after env s steps steps.length).Counted env := by
  have hkeep : ∀ k step, 0 ≤ k → k < steps.length → steps[k]? = some step →
      (after env s steps k).Counted env → ((after env s steps k).perform env step).Counted env := by
    intro k step _ hk hstep hcounted
    apply hcounted.step step
    rw [← after_succ hstep]
    exact (stateAt_suffix epochs_suffix hk).sublist.nodup hdistinct
  exact stateAt_keeps (P := Counted env) (Nat.zero_le _)
    ⟨isRun_nil _, fun _ => ⟨0, isRun_nil 0⟩, nofun, mem_singleton_self _, isRun_nil _⟩ hkeep

/-- As long as the keys of the session are distinct, no counter is handed out twice under one key,
to userspace or to the kernel, exactly if no key is given more than `2 ^ 64` of them. The same holds
of all the counters since the ratchet, so that a block stays apart from the others even if the
kernel uses it after a rekey. -/
theorem send_counters_disjoint_iff (env : SenderEnv) (s : SendSession) (steps : List SendStep)
    (hdistinct : (after env s steps steps.length).epochs.Nodup) :
    ((after env s steps steps.length).handedOut.Nodup ↔
      ∀ key, (givenTo (after env s steps steps.length).handedOut key).length ≤ 2 ^ 64) ∧
    ((after env s steps steps.length).sinceReset.Nodup ↔
      (after env s steps steps.length).sinceReset.length ≤ 2 ^ 64) := by
  have hcounted := counted_after s steps hdistinct
  constructor
  · rw [nodup_iff_givenTo]
    constructor
    · intro h key
      obtain ⟨next, hrun⟩ := hcounted.every key
      exact hrun.nodup_iff.mp (h key)
    · intro h key
      obtain ⟨next, hrun⟩ := hcounted.every key
      exact hrun.nodup_iff.mpr (h key)
  · exact hcounted.since.nodup_iff

/-- Keys that are initial if their first byte is 1, and sent with as they are. -/
def sampleSender : SenderEnv where
  crypto := sampleCrypto
  send :=
    { isInitial := fun keys => keys = sampleKeys 1
      resonanceTag := fun _ _ _ => Vector.replicate 8 0xaa }
  sessionKeyS2c := fun keys => keys.sessionKey

def openedSend : SendSession where
  session := Server.Session.opened (sampleKeys 1) (sampleKeys 2) 0
  sessionId := Vector.replicate 16 1
  sendCounter := 0
  sendSeq := 0
  mask := some { stunMask .stunBinding with spoofProtocol := .dnsOverUdp }
  kernelDlWindow := 0

def rekeyingSession : Server.Session :=
  { openedSend.session.completeRatchet 2 with pendingRekeyKeypair := some ⟨sampleKey 7⟩ }

def mixedRun : List SendStep :=
  [.nextSendNonce, .makeKernelDownlink true ⟨fun _ _ => 0, fun _ => 0⟩ 5, .completeRatchet 2,
    .nextSendNonce, .makeKernelDownlink true ⟨fun _ _ => 0, fun _ => 0⟩ 5,
    .other rekeyingSession 0 openedSend.mask, .commitSessionRekey 3 (sampleKey 3), .nextSendNonce]

theorem send_counters_disjoint_iff_mixedRun :
    (after sampleSender openedSend mixedRun mixedRun.length).epochs.length = 3 ∧
    (after sampleSender openedSend mixedRun mixedRun.length).handedOut.length = 131 ∧
    (after sampleSender openedSend mixedRun mixedRun.length).handedOut.Nodup := by
  have hlength :
      (after sampleSender openedSend mixedRun mixedRun.length).handedOut.length = 131 := by
    decide +kernel
  refine ⟨by decide +kernel, hlength, ?_⟩
  apply (send_counters_disjoint_iff sampleSender openedSend mixedRun (by decide +kernel)).1.mpr
  intro key
  have hle : (givenTo (after sampleSender openedSend mixedRun
    mixedRun.length).handedOut key).length ≤ _ := length_filterMap_le _ _
  omega

/-- A session that only sends: one key, and a counter for each packet. -/
structure OnlySent (env : SenderEnv) (s : SendSession) (k : Nat) (w : Sender) : Prop where
  session : w.session.session = s.session
  epochs : w.epochs = [env.sessionKeyS2c s.session.keys]
  handedOut : w.handedOut = w.sinceReset.map (env.sessionKeyS2c s.session.keys, ·)
  count : w.sinceReset.length = k

theorem onlySent_after (s : SendSession) (n : Nat) (hk : k ≤ n) :
    OnlySent env s k (after env s (List.replicate n .nextSendNonce) k) := by
  induction k with
  | zero => exact ⟨rfl, rfl, rfl, rfl⟩
  | succ k ih =>
    have h := ih (by omega)
    have hstep : (replicate n SendStep.nextSendNonce)[k]? = some .nextSendNonce := by
      rw [getElem?_replicate, if_pos (by omega)]
    rw [after_succ hstep]
    constructor
    · exact h.session
    · exact h.epochs
    · have hkey : (after env s (replicate n .nextSendNonce) k).key env =
          env.sessionKeyS2c s.session.keys := by rw [key, h.session]
      simp only [perform, handOut, hkey, h.handedOut, map_append]
    · simp only [perform, handOut, length_append, h.count]
      exact Nat.add_comm 1 k

/-- More than `2 ^ 64` packets under one key repeat a counter. -/
theorem not_nodup_of_onlySent {n : Nat} (hn : 2 ^ 64 < n) :
    (after env s (List.replicate n .nextSendNonce) n).epochs.Nodup ∧
      ¬(after env s (List.replicate n .nextSendNonce) n).handedOut.Nodup := by
  have hsent : OnlySent env s n (after env s (replicate n .nextSendNonce) n) :=
    onlySent_after s n le_rfl
  have hdistinct : (after env s (replicate n .nextSendNonce) n).epochs.Nodup := by
    rw [hsent.epochs]
    exact nodup_singleton _
  refine ⟨hdistinct, ?_⟩
  intro hnodup
  have hcounted := counted_after s (replicate n .nextSendNonce)
    (by rw [length_replicate]; exact hdistinct)
  rw [length_replicate] at hcounted
  rw [hsent.handedOut] at hnodup
  have hle := hcounted.since.nodup_iff.mp (hnodup.of_map _)
  rw [hsent.count] at hle
  omega

/-- The send counter wraps around: without a rekey in between, the packet after `2 ^ 64` others has
the counter of the first. -/
theorem send_counter_wraps :
    (after sampleSender openedSend (List.replicate (2 ^ 64 + 1) .nextSendNonce)
      (2 ^ 64 + 1)).epochs.Nodup ∧
    ¬(after sampleSender openedSend (List.replicate (2 ^ 64 + 1) .nextSendNonce)
      (2 ^ 64 + 1)).handedOut.Nodup :=
  not_nodup_of_onlySent (Nat.lt_succ_self _)

end Sender

end AivpnSpec.Gateway
