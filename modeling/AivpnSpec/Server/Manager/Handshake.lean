import AivpnSpec.Server.Manager.Changes

/-!
# Failed and replayed handshakes

A creation that fails leaves the table and all indexes as they were. The cache of initial handshakes
keeps every entry until it expires and refuses new ones when it is full, so a keyspace is admitted
once in the lifetime of its entry.
-/

namespace AivpnSpec.Server

open AivpnSpec.Base AivpnSpec.Common AivpnSpec.Wire

namespace SessionManager

section Claim

variable {T : Type} {env : ManagerEnv T} {replays : Table Bytes32 Nat} {keys : SessionKeys}
  {now : Nat}

/-- The number of entries is bounded by the capacity. -/
theorem count_claimInitialKeyspace
    (h : (replays.count fun _ _ => true) ≤ handshakeReplayCapacity) :
    ((claimInitialKeyspace env replays keys now).2.count fun _ _ => true) ≤
      handshakeReplayCapacity := by
  have hretain : ((replays.retain fun _ deadline => now < deadline).count fun _ _ => true) ≤
      handshakeReplayCapacity := by
    refine le_trans (Table.count_le_count fun k v hlookup _ => ?_) h
    exact ⟨v, (Table.lookup_of_lookup_retain hlookup).1, rfl⟩
  unfold claimInitialKeyspace
  dsimp only
  split
  · exact hretain
  split
  · exact hretain
  next hroom =>
  refine le_trans (Table.count_le_succ (env.fingerprint keys.tagSecret)
    fun k v hlookup _ hk => ?_) (Nat.lt_of_not_le hroom)
  rw [Table.lookup_insert_eq, if_neg hk] at hlookup
  exact ⟨v, hlookup, rfl⟩

/-- An entry that has not expired stays. -/
theorem lookup_claimInitialKeyspace {fingerprint : Bytes32} {deadline : Nat}
    (h : replays.lookup fingerprint = some deadline) (hlive : now < deadline) :
    (claimInitialKeyspace env replays keys now).2.lookup fingerprint = some deadline := by
  have hretain : (replays.retain fun _ deadline => now < deadline).lookup fingerprint =
      some deadline :=
    Table.lookup_retain_of_keep h (decide_eq_true hlive)
  unfold claimInitialKeyspace
  dsimp only
  split
  · exact hretain
  next hnew =>
  split
  · exact hretain
  have hother : fingerprint ≠ env.fingerprint keys.tagSecret := by
    rintro rfl
    rw [hretain] at hnew
    exact hnew rfl
  rw [Table.lookup_insert_eq, if_neg hother]
  exact hretain

/-- A claim succeeds only if no live entry has the fingerprint, and leaves one. -/
theorem claimInitialKeyspace_ok (h : (claimInitialKeyspace env replays keys now).1 = .ok ()) :
    (∀ deadline, replays.lookup (env.fingerprint keys.tagSecret) = some deadline →
      deadline ≤ now) ∧
    (claimInitialKeyspace env replays keys now).2.lookup (env.fingerprint keys.tagSecret) =
      some (now + handshakeReplayTtl) := by
  unfold claimInitialKeyspace at h ⊢
  dsimp only at h ⊢
  split at h
  · cases h
  next hnew =>
  split at h
  · cases h
  next hroom =>
  rw [if_neg hnew, if_neg hroom, Table.lookup_insert_eq, if_pos rfl]
  refine ⟨fun deadline hlookup => ?_, rfl⟩
  by_contra hlive
  rw [Table.lookup_retain_of_keep hlookup (decide_eq_true (Nat.lt_of_not_le hlive))] at hnew
  exact hnew rfl

end Claim

variable {T : Type} [DecidableEq T] {env : ManagerEnv T} {m m' : SessionManager T}
  {time : Option Clock} {e : Error}

def Step.initialKeys (env : ManagerEnv T) : Step T → Option SessionKeys
  | .createClientSession call => call.initialKeys env
  | .createMaskedPoolPeerSession call => call.initialKeys env
  | _ => none

def Step.creationTime : Step T → Option Nat
  | .createClientSession call => some call.clock.now
  | .createMaskedPoolPeerSession call => some call.clock.now
  | _ => none

def admits (env : ManagerEnv T) (m : SessionManager T) : Step T → Bool
  | .createClientSession call => (m.createClientSession env call).1.isOk
  | .createMaskedPoolPeerSession call => (m.createMaskedPoolPeerSession env call).1.isOk
  | _ => false

theorem handshakeReplays_insertSession (m : SessionManager T) (clock : Clock) (id : SessionId)
    (x : ManagedSession) :
    (m.insertSession env clock id x).handshakeReplays = m.handshakeReplays := by
  unfold insertSession
  exact handshakeReplays_reindexSession m clock id x

theorem handshakeReplays_created (m : SessionManager T) (call : ClientCall) (own : OwnSessions)
    (keys ratchetedKeys : SessionKeys) :
    (m.created env call own keys ratchetedKeys).handshakeReplays =
      (claimInitialKeyspace env m.handshakeReplays keys call.clock.now).2 := by
  have hidentify : ∀ (m : SessionManager T) id clientId staticVpnIp,
      (m.identify id clientId staticVpnIp).handshakeReplays = m.handshakeReplays := by
    intro m id clientId staticVpnIp
    unfold identify
    split <;> rfl
  rw [created, hidentify, handshakeReplays_insertSession, handshakeReplays_removeAll, claimed,
    handshakeReplays_removeAll]

theorem handshakeReplays_change (hc : Change env time m m') :
    m'.handshakeReplays = m.handshakeReplays := by
  cases hc with
  | session clock id op => exact handshakeReplays_onSession m clock id op
  | remove id => exact handshakeReplays_removeSession m id
  | bind => rfl
  | detached clock p => exact handshakeReplays_reindexSession m clock p.1 p.2

/-- The cache is changed by claims only, and a session is created only after a claim. -/
theorem handshakeReplays_perform (env : ManagerEnv T) (m : SessionManager T) (step : Step T) :
    ((m.perform env step).handshakeReplays = m.handshakeReplays ∧ m.admits env step = false) ∨
    (∃ keys now, step.initialKeys env = some keys ∧ step.creationTime = some now ∧
      (m.perform env step).handshakeReplays =
        (claimInitialKeyspace env m.handshakeReplays keys now).2 ∧
      (m.admits env step = true →
        (claimInitialKeyspace env m.handshakeReplays keys now).1 = .ok ())) := by
  by_cases hquiet : step.quiet = true
  · refine .inl ⟨?_, by cases step <;> first | rfl | cases hquiet⟩
    exact (changes_perform m hquiet).keeps (P := fun m' => m'.handshakeReplays = m.handshakeReplays)
      (fun _ _ hc hm => (handshakeReplays_change hc).trans hm) rfl
  cases step with
  | createClientSession call =>
    simp only [perform, admits]
    rcases createClientSession_cases env m call with
      ⟨e, ids, -, herror | ⟨keys, hkeys, herror⟩⟩ |
        ⟨own, keys, ratchetedKeys, -, hkeys, hclaim, hok⟩
    · rw [herror]
      exact .inl ⟨handshakeReplays_removeAll m ids, rfl⟩
    · rw [herror]
      refine .inr ⟨keys, call.clock.now, hkeys, rfl, ?_, fun h => by cases h⟩
      rw [claimed, handshakeReplays_removeAll]
    · rw [hok]
      exact .inr ⟨keys, call.clock.now, hkeys, rfl, handshakeReplays_created m call own keys _,
        fun _ => hclaim⟩
  | createMaskedPoolPeerSession call =>
    simp only [perform, admits]
    rcases createMaskedPoolPeerSession_cases env m call with
      ⟨e, herror | ⟨keys, hkeys, herror⟩⟩ | ⟨keys, ratchetedKeys, -, hkeys, hclaim, hok⟩
    · rw [herror]
      exact .inl ⟨rfl, rfl⟩
    · rw [herror]
      exact .inr ⟨keys, call.clock.now, hkeys, rfl, rfl, fun h => by cases h⟩
    · rw [hok]
      refine .inr ⟨keys, call.clock.now, hkeys, rfl, ?_, fun _ => hclaim⟩
      exact handshakeReplays_insertSession _ _ _ _
  | onSession clock id op => exact .inl ⟨handshakeReplays_onSession m clock id op, rfl⟩
  | _ => exact absurd rfl hquiet

/-- No step drops an entry that has not expired. -/
theorem lookup_handshakeReplays_perform {step : Step T} {fingerprint : Bytes32} {deadline : Nat}
    (h : m.handshakeReplays.lookup fingerprint = some deadline)
    (hlive : ∀ now, step.creationTime = some now → now < deadline) :
    (m.perform env step).handshakeReplays.lookup fingerprint = some deadline := by
  rcases handshakeReplays_perform env m step with ⟨hsame, -⟩ | ⟨keys, now, -, htime, hclaim, -⟩
  · rw [hsame]
    exact h
  · rw [hclaim]
    exact lookup_claimInitialKeyspace h (hlive now htime)

/-- Without others a failed creation changes the cache of handshakes at most. -/
theorem createClientSession_error {call : ClientCall}
    (hsole : call.interference = ⟨[], [], [], []⟩)
    (h : (m.createClientSession env call).1 = .error e) :
    (m.createClientSession env call).2 =
      { m with handshakeReplays := (m.createClientSession env call).2.handshakeReplays } := by
  have hnone : ∀ ids, ids ⊆ call.interference.upTo 3 → m.removeAll ids = m := by
    intro ids hids
    rw [hsole] at hids
    rw [List.eq_nil_of_subset_nil hids]
    rfl
  rcases createClientSession_cases env m call with
    ⟨e, ids, hids, herror | ⟨keys, -, herror⟩⟩ | ⟨own, keys, ratchetedKeys, -, -, -, hok⟩
  · rw [herror, hnone ids hids]
  · rw [herror, hnone ids hids]
    rfl
  · rw [hok] at h
    cases h

theorem createMaskedPoolPeerSession_error {call : PeerCall}
    (h : (m.createMaskedPoolPeerSession env call).1 = .error e) :
    (m.createMaskedPoolPeerSession env call).2 =
      { m with
        handshakeReplays := (m.createMaskedPoolPeerSession env call).2.handshakeReplays } := by
  rcases createMaskedPoolPeerSession_cases env m call with
    ⟨e, herror | ⟨keys, -, herror⟩⟩ | ⟨keys, ratchetedKeys, -, -, -, hok⟩
  · rw [herror]
  · rw [herror]
    rfl
  · rw [hok] at h
    cases h

/-- The creations of a run read a clock that does not go back. -/
def CreationsInOrder (steps : List (Step T)) : Prop :=
  ∀ (i j : Nat) (first second : Step T) (a b : Nat), i ≤ j → steps[i]? = some first →
    steps[j]? = some second → first.creationTime = some a → second.creationTime = some b → a ≤ b

/-- A keyspace that was admitted is not admitted again before its entry expires. -/
theorem admitted_once {steps : List (Step T)} (horder : CreationsInOrder steps) {i j : Nat}
    (hij : i < j) {first second : Step T} (hfirst : steps[i]? = some first)
    (hsecond : steps[j]? = some second) {keys keys' : SessionKeys}
    (hkeys : first.initialKeys env = some keys) (hkeys' : second.initialKeys env = some keys')
    (hsame : keys.tagSecret = keys'.tagSecret) {a b : Nat} (ha : first.creationTime = some a)
    (hb : second.creationTime = some b) (hadmits : (after env steps i).admits env first = true)
    (hadmits' : (after env steps j).admits env second = true) : a + handshakeReplayTtl ≤ b := by
  by_contra hearly
  rcases handshakeReplays_perform env (after env steps i) first with
    ⟨-, hnot⟩ | ⟨keys₁, now₁, hkeys₁, hnow₁, hclaim, hok⟩
  · rw [hadmits] at hnot
    cases hnot
  rw [hkeys] at hkeys₁
  rw [ha] at hnow₁
  cases hkeys₁
  cases hnow₁
  let held (m : SessionManager T) : Prop :=
    m.handshakeReplays.lookup (env.fingerprint keys.tagSecret) = some (a + handshakeReplayTtl)
  have hentry : held (after env steps (i + 1)) := by
    have hstep : after env steps (i + 1) = (after env steps i).perform env first :=
      stateAt_succ hfirst
    dsimp only [held]
    rw [hstep, hclaim]
    exact (claimInitialKeyspace_ok (hok hadmits)).2
  -- every creation up to the second one comes before the deadline
  have hkept : held (after env steps j) := by
    refine stateAt_keeps (P := held) hij hentry ?_
    intro k step hik hkj hstep hlookup
    apply lookup_handshakeReplays_perform hlookup
    intro now hnow
    have hle := horder k j step second now b hkj.le hstep hsecond hnow hb
    omega
  rcases handshakeReplays_perform env (after env steps j) second with
    ⟨-, hnot⟩ | ⟨keys₂, now₂, hkeys₂, hnow₂, -, hok₂⟩
  · rw [hadmits'] at hnot
    cases hnot
  rw [hkeys'] at hkeys₂
  rw [hb] at hnow₂
  cases hkeys₂
  cases hnow₂
  have hexpired := (claimInitialKeyspace_ok (hok₂ hadmits')).1
  rw [← hsame] at hexpired
  exact hearly (hexpired _ hkept)

/-- A creation that fails changes nothing but the cache of handshakes; the cache keeps to its
capacity and drops no live entry, and a keyspace is admitted at most once in the lifetime of its
entry. -/
theorem failed_handshake_changes_nothing (env : ManagerEnv T) (steps : List (Step T))
    (horder : CreationsInOrder steps) :
    (∀ k call e, call.interference = ⟨[], [], [], []⟩ →
      ((after env steps k).createClientSession env call).1 = .error e →
      ((after env steps k).createClientSession env call).2 = { after env steps k with
        handshakeReplays :=
          ((after env steps k).createClientSession env call).2.handshakeReplays }) ∧
    (∀ k call e, ((after env steps k).createMaskedPoolPeerSession env call).1 = .error e →
      ((after env steps k).createMaskedPoolPeerSession env call).2 = { after env steps k with
        handshakeReplays :=
          ((after env steps k).createMaskedPoolPeerSession env call).2.handshakeReplays }) ∧
    (∀ (i j : Nat) (first second : Step T) keys keys' a b, i < j → steps[i]? = some first →
      steps[j]? = some second → first.initialKeys env = some keys →
      second.initialKeys env = some keys' → keys.tagSecret = keys'.tagSecret →
      first.creationTime = some a → second.creationTime = some b →
      (after env steps i).admits env first = true → (after env steps j).admits env second = true →
      a + handshakeReplayTtl ≤ b) ∧
    (∀ k, ((after env steps k).handshakeReplays.count fun _ _ => true) ≤ 8192) ∧
    (∀ (k : Nat) (step : Step T) fingerprint deadline, steps[k]? = some step →
      (after env steps k).handshakeReplays.lookup fingerprint = some deadline →
      (∀ now, step.creationTime = some now → now < deadline) →
      (after env steps (k + 1)).handshakeReplays.lookup fingerprint = some deadline) := by
  refine ⟨fun k call e hsole h => createClientSession_error hsole h,
    fun k call e h => createMaskedPoolPeerSession_error h, ?_, ?_, ?_⟩
  · intro i j first second keys keys' a b hij hfirst hsecond hkeys hkeys' hsame ha hb hadmits
      hadmits'
    exact admitted_once horder hij hfirst hsecond hkeys hkeys' hsame ha hb hadmits hadmits'
  · intro k
    refine stateAt_invariant (I := fun m : SessionManager T =>
      (m.handshakeReplays.count fun _ _ => true) ≤ 8192) (Nat.zero_le _) ?_ k
    intro m step hm
    rcases handshakeReplays_perform env m step with ⟨hsame, -⟩ | ⟨keys, now, -, -, hclaim, -⟩
    · rw [hsame]
      exact hm
    · rw [hclaim]
      exact count_claimInitialKeyspace hm
  · intro k step fingerprint deadline hstep h hlive
    have hafter : after env steps (k + 1) = (after env steps k).perform env step :=
      stateAt_succ hstep
    rw [hafter]
    exact lookup_handshakeReplays_perform h hlive

def repeatedHandshake : List (Step (Bytes32 × Nat × UInt64)) :=
  [.createClientSession (sampleCall ⟨0, 100⟩ 1 1 none),
    .createClientSession (sampleCall ⟨1000000000, 100⟩ 1 2 none),
    .createClientSession (sampleCall ⟨60000000000, 106⟩ 1 3 none)]

theorem failed_handshake_changes_nothing_repeatedHandshake :
    (after sampleEnv repeatedHandshake 0).admits sampleEnv
      (.createClientSession (sampleCall ⟨0, 100⟩ 1 1 none)) = true ∧
    ((after sampleEnv repeatedHandshake 1).createClientSession sampleEnv
      (sampleCall ⟨1000000000, 100⟩ 1 2 none)).1 =
        .error (.invalidPacket "Replayed initial handshake") ∧
    (after sampleEnv repeatedHandshake 2).admits sampleEnv
      (.createClientSession (sampleCall ⟨60000000000, 106⟩ 1 3 none)) = true ∧
    0 + handshakeReplayTtl ≤ 60000000000 := by
  have horder : CreationsInOrder repeatedHandshake := by
    intro i j first second a b hij hfirst hsecond ha hb
    match i, j with
    | 0, 0 | 0, 1 | 0, 2 | 1, 1 | 1, 2 | 2, 2 =>
      cases hfirst
      cases hsecond
      cases ha
      cases hb
      decide
    | i + 3, j => cases hfirst
    | 0, j + 3 | 1, j + 3 | 2, j + 3 => cases hsecond
    | 1, 0 | 2, 0 | 2, 1 => omega
  have hfirst : (after sampleEnv repeatedHandshake 0).admits sampleEnv
      (.createClientSession (sampleCall ⟨0, 100⟩ 1 1 none)) = true := by decide +kernel
  have hlast : (after sampleEnv repeatedHandshake 2).admits sampleEnv
      (.createClientSession (sampleCall ⟨60000000000, 106⟩ 1 3 none)) = true := by decide +kernel
  refine ⟨hfirst, by decide +kernel, hlast, ?_⟩
  obtain ⟨-, -, honce, -⟩ := failed_handshake_changes_nothing sampleEnv repeatedHandshake horder
  have hsome : ((sampleCall ⟨0, 100⟩ 1 1 none).initialKeys sampleEnv).isSome = true := by
    decide +kernel
  obtain ⟨keys, hkeys⟩ := Option.isSome_iff_exists.mp hsome
  exact honce 0 2 _ _ keys keys 0 60000000000 (by decide) rfl rfl hkeys hkeys rfl rfl rfl hfirst
    hlast

end SessionManager

end AivpnSpec.Server
