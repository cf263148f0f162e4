import AivpnSpec.Server.Manager.Index

/-!
# Sessions between packets

A packet is marked and the window of tags refreshed under one lock, so whoever looks at a session
finds the search centre less than a quarter of a window ahead of the precomputed tags, in the
current epoch and in the previous one. Therefore every rekey is committed inside the window, and the
session is one that accepts no packet twice.
-/

namespace AivpnSpec.Server

open AivpnSpec.Base AivpnSpec.Common AivpnSpec.Wire List

namespace Session

variable {s : Session}

/-- The windows are close to the counters that they are made for. -/
structure Settled (s : Session) : Prop where
  base : s.tagWindowBase ≤ s.tagSearchCenter
  near : s.tagSearchCenter < s.tagWindowBase + 128
  previous : s.preRatchetMonotonic = true → s.preRatchetCounter < s.preRatchetWindowBase + 128

/-- A rebuilt window is close, in the previous epoch too unless that one was not due. -/
theorem settled_updateTagWindow (now : Nat) (h : s.preRatchetMonotonic = true →
    s.previousAdvanced now = false → s.preRatchetCounter < s.preRatchetWindowBase + 128) :
    (s.updateTagWindow now).Settled := by
  have hbase : (s.updateTagWindow now).tagWindowBase = s.tagSearchCenter := by
    unfold updateTagWindow
    split <;> rfl
  have hcenter := (updateTagWindow_frame s now).2.2.1
  refine ⟨by omega, by omega, ?_⟩
  unfold updateTagWindow
  split
  · intro _
    show s.preRatchetCounter < s.preRatchetCounter + 128
    omega
  · next hnot => exact fun hmono => h hmono (by simpa using hnot)

theorem tagSearchCenter_clearConsumedTagHint (s : Session) :
    s.clearConsumedTagHint.tagSearchCenter = s.tagSearchCenter := by
  unfold clearConsumedTagHint
  split
  · next hconsumed =>
    obtain ⟨hint, hhint, hle⟩ := (Option.any_eq_true _ _).mp hconsumed
    have hle := of_decide_eq_true hle
    unfold tagSearchCenter
    rw [hhint, Option.getD_none, Option.getD_some]
    show max s.counter s.counter = max s.counter hint
    omega
  · rfl

/-- A mark does not take the search back. -/
theorem tagSearchCenter_markTagReceived (s : Session) (counter : Nat) :
    s.tagSearchCenter ≤ (s.markTagReceived counter).tagSearchCenter := by
  unfold markTagReceived
  split
  · next hnew =>
    rw [tagSearchCenter_clearConsumedTagHint]
    unfold tagSearchCenter
    cases s.tagSearchHint with
    | none =>
      simp only [Option.getD_none]
      omega
    | some hint =>
      simp only [Option.getD_some]
      omega
  · split
    · rw [tagSearchCenter_clearConsumedTagHint]
      exact le_rfl
    · rw [tagSearchCenter_clearConsumedTagHint]

theorem tagSearchCenter_markPreRatchetReceived (s : Session) (counter : Nat) :
    s.tagSearchCenter ≤ (s.markPreRatchetReceived counter).tagSearchCenter := by
  unfold markPreRatchetReceived
  dsimp only
  split
  · by_cases hahead : s.counter < counter
    · rw [if_pos hahead]
      show s.tagSearchCenter ≤ max s.counter (max s.tagSearchCenter counter)
      omega
    · rw [if_neg hahead]
      exact le_rfl
  · exact le_rfl

/-- After a mark the window is refreshed if the centre or the previous epoch has moved on. -/
theorem settled_refreshTagWindowIfNeeded (now : Nat) (hbase : s.tagWindowBase ≤ s.tagSearchCenter)
    (h : s.preRatchetMonotonic = true → s.previousAdvanced now = false →
      s.preRatchetCounter < s.preRatchetWindowBase + 128) :
    (s.refreshTagWindowIfNeeded now).Settled := by
  unfold refreshTagWindowIfNeeded
  split
  · exact settled_updateTagWindow now h
  next hnot =>
  have hfar : ¬128 ≤ s.tagSearchCenter - s.tagWindowBase := fun hle => hnot (.inl hle)
  have hprevious : s.previousAdvanced now = false := by
    simpa using fun hadvanced => hnot (.inr hadvanced)
  exact ⟨hbase, by omega, fun hmono => h hmono hprevious⟩

/-- An accepted packet with the refresh behind it. -/
theorem Settled.accept (h : s.Settled) {now counter : Nat} {secret : Bytes32} {previousEpoch : Bool}
    (hepoch : s.authenticatedCounterEpoch now counter secret = some previousEpoch) :
    ((if previousEpoch then s.markPreRatchetReceived counter
      else s.markTagReceived counter).refreshTagWindowIfNeeded now).Settled := by
  rcases authenticatedCounterEpoch_cases hepoch with ⟨rfl, -, -⟩ | ⟨rfl, keys, hgrace, -, -, -⟩
  · rw [if_neg Bool.false_ne_true]
    obtain ⟨hint, hmark, -⟩ := s.markTagReceived_eq counter
    have hcenter := s.tagSearchCenter_markTagReceived counter
    have hbase := h.base
    apply settled_refreshTagWindowIfNeeded
    · have hsame : (s.markTagReceived counter).tagWindowBase = s.tagWindowBase := by rw [hmark]
      omega
    · intro hmono _
      rw [hmark] at hmono ⊢
      exact h.previous hmono
  · rw [if_pos rfl]
    obtain ⟨preCounter, hint, hmark, -⟩ := s.markPreRatchetReceived_eq counter
    have hcenter := s.tagSearchCenter_markPreRatchetReceived counter
    have hbase := h.base
    apply settled_refreshTagWindowIfNeeded
    · have hsame : (s.markPreRatchetReceived counter).tagWindowBase = s.tagWindowBase := by
        rw [hmark]
      omega
    · -- the packet came within the grace period, so a window that fell behind is rebuilt
      intro hmono hnot
      have hin : (s.markPreRatchetReceived counter).preRatchetKeysInGrace now = some keys := by
        rw [hmark]
        exact hgrace
      unfold previousAdvanced at hnot
      rw [hmono, hin] at hnot
      have hfar := of_decide_eq_false hnot
      omega

/-- A commit takes a window into grace that is close to its counter. -/
theorem Settled.commitSessionRekey (h : s.Settled) (env : CryptoEnv) (now : Nat)
    (clientEphPub : Bytes32) : (s.commitSessionRekey env now clientEphPub).Settled := by
  unfold Session.commitSessionRekey
  split
  · exact h
  dsimp only
  split
  · exact ⟨h.base, h.near, h.previous⟩
  next newKeys _ =>
  apply settled_updateTagWindow
  intro _ _
  show s.counter < s.tagWindowBase + 128
  have hle := s.counter_le_center
  have hnear := h.near
  omega

theorem Settled.completeRatchet (h : s.Settled) (now : Nat) : (s.completeRatchet now).Settled := by
  unfold Session.completeRatchet
  split
  · exact h
  · exact ⟨Nat.zero_le _, by show (0 : Nat) < _; omega, fun hmono => by cases hmono⟩

theorem Settled.startRekeying (h : s.Settled) (env : CryptoEnv) (now : Nat) (kp : KeyPair) :
    (s.startRekeying env now kp).1.Settled := by
  unfold Session.startRekeying
  split
  · exact h
  · split
    · exact h
    · exact settled_updateTagWindow now fun hmono _ => h.previous hmono

theorem Settled.rekeyRetransmitsDue (h : s.Settled) (env : CryptoEnv) (now : Nat) :
    (s.rekeyRetransmitsDue env now).1.Settled := by
  unfold Session.rekeyRetransmitsDue
  split
  · exact h
  · split
    · exact h
    · split <;> exact ⟨h.base, h.near, h.previous⟩

theorem Settled.expireGrace (h : s.Settled) (now : Nat) : (s.expireGrace now).Settled := by
  unfold Session.expireGrace
  split
  · exact ⟨h.base, h.near, fun hmono => by cases hmono⟩
  · exact h

theorem settled_opened (keys ratchetedKeys : SessionKeys) (now : Nat) :
    (opened keys ratchetedKeys now).Settled := by
  rw [opened_eq]
  have hnew : ((new keys ratchetedKeys now).updateTagWindow now).Settled :=
    settled_updateTagWindow now fun hmono => by cases hmono
  generalize (new keys ratchetedKeys now).updateTagWindow now = s at hnew ⊢
  exact ⟨hnew.base, hnew.near, hnew.previous⟩

/-- The newest counter lies inside the precomputed window. -/
theorem Settled.counter_le_windowEnd (h : s.Settled) (hwindows : s.WindowsSound) :
    s.counter ≤ s.windowEnd := by
  have hnear := h.near
  have hle := s.counter_le_center
  have hbounded := hwindows.bounded
  have hreach := hwindows.reach
  unfold tagWindowSize at hreach
  omega

end Session

namespace ManagedSession

variable {x : ManagedSession}

/-- The secrets that a session has or has had, and the one that it is prepared for. -/
def secrets (x : ManagedSession) : List Bytes32 :=
  x.core.ratchetedKeys.toList.map SessionKeys.tagSecret ++ x.ingress.epochs

/-- What holds of a session whose lock is free. -/
structure Settled (x : ManagedSession) : Prop where
  sound : x.ingress.Sound
  windows : x.core.Settled
  distinct : x.secrets.Nodup

theorem epochs_nodup (h : x.secrets.Nodup) : x.ingress.epochs.Nodup :=
  (suffix_append _ _).sublist.nodup h

/-- A session answers to secrets that it has or is prepared for. -/
theorem liveSecrets_subset (h : x.ingress.Sound) : x.liveSecrets ⊆ x.secrets := by
  obtain ⟨older, hepochs, hprevious⟩ := h.epoch
  intro secret hsecret
  unfold secrets
  rw [hepochs]
  simp only [liveSecrets, mem_cons, map_append, mem_append, mem_map,
    Option.mem_toList] at hsecret ⊢
  rcases hsecret with rfl | ⟨keys, hkeys, rfl⟩ | ⟨keys, hkeys, rfl⟩
  · exact .inr (.inl rfl)
  · exact .inl ⟨keys, hkeys, rfl⟩
  · exact .inr (.inr (hprevious keys hkeys))

theorem Settled.step_sound (h : x.ingress.Sound) (hwindows : x.core.Settled) (env : CryptoEnv)
    (clock : Clock) (step : SessionStep) (hepochs : (x.step env clock step).ingress.epochs.Nodup) :
    (x.step env clock step).ingress.Sound := by
  refine h.step step ?_ hepochs
  cases step with
  | commitSessionRekey now clientEphPub =>
    exact decide_eq_true (hwindows.counter_le_windowEnd h.windows)
  | _ => rfl

/-- Every operation leaves the session settled, as long as it has no secret twice. -/
theorem Settled.apply (h : x.Settled) (env : CryptoEnv) (clock : Clock) (op : Op)
    (hdistinct : (x.apply env clock op).1.secrets.Nodup) : (x.apply env clock op).1.Settled := by
  have hepochs := epochs_nodup hdistinct
  have hbefore := epochs_nodup h.distinct
  have hstep := Settled.step_sound h.sound h.windows env clock
  cases op with
  | accept secret counter clientAddr bytes =>
    simp only [ManagedSession.apply, accept] at hepochs hdistinct ⊢
    cases hepoch : x.core.authenticatedCounterEpoch clock.now counter.toNat secret with
    | none => exact h
    | some previousEpoch =>
      rw [hepoch] at hdistinct
      dsimp only at hdistinct ⊢
      let marked := x.step env clock (.accept secret counter clock.now)
      have hsame : marked.ingress.epochs = x.ingress.epochs := by
        show (x.ingress.accept secret counter.toNat clock.now).epochs = _
        unfold Ingress.accept
        split <;> rfl
      rw [← hsame] at hbefore
      have hmarked := hstep (.accept secret counter clock.now) hbefore
      have hcore : marked.core =
          if previousEpoch then x.core.markPreRatchetReceived counter.toNat
          else x.core.markTagReceived counter.toNat := by
        show (x.ingress.accept secret counter.toNat clock.now).session = _
        have hepoch : x.ingress.session.authenticatedCounterEpoch clock.now counter.toNat secret =
          some previousEpoch := hepoch
        unfold Ingress.accept
        rw [hepoch]
        rfl
      have hwindows := h.windows.accept hepoch
      rw [← hcore] at hwindows
      let refreshed := marked.ingress.perform env (.refreshTagWindowIfNeeded clock.now)
      have hrefreshed : refreshed.Sound := hmarked.step _ rfl hbefore
      have hcounted : (refreshed.perform env (.traffic bytes)).Sound := hrefreshed.step _ rfl hbefore
      exact ⟨hcounted, ⟨hwindows.base, hwindows.near, hwindows.previous⟩, hdistinct⟩
  | observeClientRtt rttMs =>
    exact ⟨hstep _ hepochs, ⟨h.windows.base, h.windows.near, h.windows.previous⟩, hdistinct⟩
  | refreshStale =>
    simp only [ManagedSession.apply] at hdistinct ⊢
    split at hdistinct
    · next hcurrent =>
      rw [if_pos hcurrent]
      exact h
    next hstale =>
    rw [if_neg hstale]
    have hupdated := hstep (.updateTagWindow clock.now) hbefore
    have hwindows :=
      Session.settled_updateTagWindow clock.now fun hmono _ => h.windows.previous hmono
    have hratcheted : ((x.step env clock (.updateTagWindow clock.now)).ingress.perform env
        .updateRatchetedTagWindow).Sound := hupdated.step _ rfl hbefore
    refine ⟨hratcheted, ?_, hdistinct⟩
    show (x.core.updateTagWindow clock.now).updateRatchetedTagWindow.Settled
    unfold Session.updateRatchetedTagWindow
    split
    · exact ⟨hwindows.base, hwindows.near, hwindows.previous⟩
    · exact hwindows
  | reindex => exact h
  | completeRatchet => exact ⟨hstep _ hepochs, h.windows.completeRatchet clock.now, hdistinct⟩
  | startRekeying kp => exact ⟨hstep _ hepochs, h.windows.startRekeying env clock.now kp, hdistinct⟩
  | rekeyRetransmitsDue =>
    exact ⟨hstep _ hepochs, h.windows.rekeyRetransmitsDue env clock.now, hdistinct⟩
  | commitSessionRekey clientEphPub =>
    exact ⟨hstep _ hepochs, h.windows.commitSessionRekey env clock.now clientEphPub, hdistinct⟩
  | expireGrace => exact ⟨hstep _ hepochs, h.windows.expireGrace clock.now, hdistinct⟩
  | markAdmitted | verifyNode nodeId => exact ⟨h.sound, h.windows, h.distinct⟩

/-- A refresh and an admission leave all secrets. -/
theorem secrets_apply_quiet (env : CryptoEnv) (clock : Clock) (x : ManagedSession) {op : Op}
    (h : SessionManager.quietOp op = true) : (x.apply env clock op).1.secrets = x.secrets := by
  cases op with
  | refreshStale =>
    simp only [ManagedSession.apply]
    split
    · rfl
    have hratcheted := (Session.updateTagWindow_frame x.core clock.now).2.2.2.1
    unfold secrets
    rw [core_refreshed]
    unfold Session.updateRatchetedTagWindow
    split
    all_goals
      rw [hratcheted]
      rfl
  | markAdmitted => rfl
  | _ => cases h

/-- A new session, if its secrets are distinct. -/
theorem settled_opened (keys ratchetedKeys : SessionKeys) (clock : Clock) (clientAddr : SocketAddr)
    (isMaskedPoolPeer : Bool)
    (hdistinct : (opened keys ratchetedKeys clock clientAddr isMaskedPoolPeer).secrets.Nodup) :
    (opened keys ratchetedKeys clock clientAddr isMaskedPoolPeer).Settled :=
  ⟨Ingress.sound_opened keys ratchetedKeys clock.now,
    Session.settled_opened keys ratchetedKeys clock.now, hdistinct⟩

end ManagedSession

namespace SessionManager

variable {T : Type} [DecidableEq T] {env : ManagerEnv T} {m m' : SessionManager T}
  {time : Option Clock} {id : SessionId}

def everySession (m : SessionManager T) : List ManagedSession :=
  (m.sessions.entries.map fun e => e.2) ++ m.detached.map Prod.snd

/-- No secret was derived twice: neither for one session, nor for two of the table, nor for one of
the table and one that was removed. -/
structure KeysDistinct (m : SessionManager T) : Prop where
  own : ∀ id x, m.sessions.lookup id = some x → x.secrets.Nodup
  apart : ∀ id id' x x' secret, m.sessions.lookup id = some x → m.sessions.lookup id' = some x' →
    secret ∈ x.secrets → secret ∈ x'.secrets → id = id'
  past : ∀ id x secret, ∀ p ∈ m.detached, m.sessions.lookup id = some x → secret ∈ x.secrets →
    secret ∉ p.2.secrets

/-- Every session of the table is settled, and those that were removed had accepted packets of their
own epochs only. -/
structure AllSettled (m : SessionManager T) : Prop where
  settled : ∀ id x, m.sessions.lookup id = some x → x.Settled
  known : ∀ p ∈ m.detached, ∀ packet ∈ p.2.ingress.accepted, packet.1 ∈ p.2.ingress.epochs

/-- Secrets that can be compared one by one. -/
theorem keysDistinct_of_nodup (h : (m.everySession.flatMap ManagedSession.secrets).Nodup) :
    m.KeysDistinct := by
  obtain ⟨hown, hpairs⟩ := nodup_flatMap.mp h
  unfold everySession at hown hpairs
  obtain ⟨htable, -, hcross⟩ := pairwise_append.mp hpairs
  have hmem : ∀ {id x}, m.sessions.lookup id = some x →
      x ∈ m.sessions.entries.map fun e => e.2 :=
    fun hx => mem_map.mpr ⟨⟨_, _⟩, Table.mem_entries_iff.mpr hx, rfl⟩
  have hsymm : Std.Symm fun e e' : (Sigma fun _ : SessionId => ManagedSession) =>
      Function.onFun Disjoint ManagedSession.secrets e.2 e'.2 := ⟨fun _ _ hd => hd.symm⟩
  refine ⟨?_, ?_, ?_⟩
  · exact fun id x hx => hown x (mem_append_left _ (hmem hx))
  · intro id id' x x' secret hx hx' hsecret hsecret'
    by_contra hne
    have hdisjoint := (pairwise_map.mp htable).forall (Table.mem_entries_iff.mpr hx)
      (Table.mem_entries_iff.mpr hx') fun heq => hne (congrArg Sigma.fst heq)
    exact hdisjoint hsecret hsecret'
  · intro id x secret p hp hx hsecret hsecret'
    exact hcross x (hmem hx) p.2 (mem_map.mpr ⟨p, hp, rfl⟩) hsecret hsecret'

theorem AllSettled.secretsApart (hsettled : m.AllSettled) (h : m.KeysDistinct) :
    m.SecretsApart := by
  intro id id' x x' secret hx hx' hsecret hsecret'
  exact h.apart id id' x x' secret hx hx'
    (ManagedSession.liveSecrets_subset (hsettled.settled id x hx).sound hsecret)
    (ManagedSession.liveSecrets_subset (hsettled.settled id' x' hx').sound hsecret')

theorem allSettled_empty : (empty : SessionManager T).AllSettled where
  settled := fun id x h => by cases h
  known := fun p h => by cases h

section

variable (m : SessionManager T) (clock : Clock) (id : SessionId)

@[simp]
theorem detached_reindexSession (x : ManagedSession) :
    (m.reindexSession env clock id x).detached = m.detached := by
  unfold reindexSession
  split <;> rfl

theorem detached_onSession (op : ManagedSession.Op) :
    (m.onSession env clock id op).detached = m.detached := by
  unfold onSession
  split
  · rfl
  dsimp only
  split
  · exact detached_reindexSession _ _ _ _
  · rfl

theorem detached_insertSession (x : ManagedSession) :
    (m.insertSession env clock id x).detached = m.detached :=
  detached_reindexSession m clock id x

end

theorem detached_identify (m : SessionManager T) (id : SessionId) (clientId : Option String)
    (staticVpnIp : Option Ipv4Addr) :
    (m.identify id clientId staticVpnIp).detached = m.detached := by
  unfold identify
  split <;> rfl

/-- A session that is removed is kept as it was. -/
theorem mem_detached_removeSession {p : SessionId × ManagedSession}
    (h : p ∈ (m.removeSession id).detached) :
    p ∈ m.detached ∨ ∃ x, m.sessions.lookup id = some x ∧ p = (id, x.markRemoved) := by
  cases hlookup : m.sessions.lookup id with
  | none =>
    rw [removeSession, hlookup] at h
    exact .inl h
  | some x =>
    rw [removeSession, hlookup] at h
    rcases mem_cons.mp h with rfl | h
    · exact .inr ⟨x, rfl, rfl⟩
    · exact .inl h

/-- A session that is removed takes its packets along. -/
theorem AllSettled.removeSession (h : m.AllSettled) (id : SessionId) :
    (m.removeSession id).AllSettled where
  settled := by
    intro id' x hlookup
    exact h.settled id' x (of_lookup_removeSession hlookup).2
  known := by
    intro p hp
    rcases mem_detached_removeSession hp with hp | ⟨x, hx, rfl⟩
    · exact h.known p hp
    · exact (h.settled id x hx).sound.known

theorem AllSettled.removeAll (h : m.AllSettled) (ids : List SessionId) :
    (m.removeAll ids).AllSettled := by
  unfold SessionManager.removeAll
  induction ids generalizing m with
  | nil => exact h
  | cons first rest ih => exact ih (h.removeSession first)

/-- An operation leaves its session settled and the others alone. -/
theorem AllSettled.onSession (h : m.AllSettled) {clock : Clock} {op : ManagedSession.Op}
    (hdistinct : ∀ x, m.sessions.lookup id = some x →
      (x.apply env.crypto clock op).1.secrets.Nodup) :
    (m.onSession env clock id op).AllSettled where
  settled := by
    intro id' x' hlookup
    rw [lookup_onSession] at hlookup
    split at hlookup
    · obtain ⟨x, hx, rfl⟩ := Option.map_eq_some_iff.mp hlookup
      exact (h.settled id x hx).apply env.crypto clock op (hdistinct x hx)
    · exact h.settled id' x' hlookup
  known := by
    rw [detached_onSession]
    exact h.known

theorem AllSettled.change (h : m.AllSettled) (hc : Change env time m m') : m'.AllSettled := by
  cases hc with
  | session clock id op htime hquiet =>
    apply h.onSession
    intro x hlookup
    rw [ManagedSession.secrets_apply_quiet env.crypto clock x hquiet]
    exact (h.settled id x hlookup).distinct
  | remove id => exact h.removeSession id
  | bind vpnIp id x => exact ⟨h.settled, h.known⟩
  | detached clock p =>
    refine ⟨?_, ?_⟩
    · rw [sessions_reindexSession]
      exact h.settled
    · rw [detached_reindexSession]
      exact h.known

/-- A small change derives no secret. -/
theorem KeysDistinct.change (h : m.KeysDistinct) (hc : Change env time m m') : m'.KeysDistinct := by
  cases hc with
  | session clock id op htime hquiet =>
    have hbefore : ∀ id' x', (m.onSession env clock id op).sessions.lookup id' = some x' →
        ∃ x, m.sessions.lookup id' = some x ∧ x'.secrets = x.secrets := by
      intro id' x' hlookup
      rw [lookup_onSession] at hlookup
      split at hlookup
      · next hid =>
        rw [hid]
        obtain ⟨x, hx, rfl⟩ := Option.map_eq_some_iff.mp hlookup
        exact ⟨x, hx, ManagedSession.secrets_apply_quiet env.crypto clock x hquiet⟩
      · exact ⟨x', hlookup, rfl⟩
    refine ⟨?_, ?_, ?_⟩
    · intro id' x' hlookup
      obtain ⟨x, hx, heq⟩ := hbefore id' x' hlookup
      rw [heq]
      exact h.own id' x hx
    · intro id₁ id₂ x₁ x₂ secret hlookup₁ hlookup₂ hsecret₁ hsecret₂
      obtain ⟨y₁, hy₁, heq₁⟩ := hbefore id₁ x₁ hlookup₁
      obtain ⟨y₂, hy₂, heq₂⟩ := hbefore id₂ x₂ hlookup₂
      rw [heq₁] at hsecret₁
      rw [heq₂] at hsecret₂
      exact h.apart id₁ id₂ y₁ y₂ secret hy₁ hy₂ hsecret₁ hsecret₂
    · intro id' x' secret p hp hlookup hsecret
      obtain ⟨x, hx, heq⟩ := hbefore id' x' hlookup
      rw [detached_onSession] at hp
      rw [heq] at hsecret
      exact h.past id' x secret p hp hx hsecret
  | remove id =>
    refine ⟨fun id' x' hlookup => h.own id' x' (of_lookup_removeSession hlookup).2, ?_, ?_⟩
    · intro id₁ id₂ x₁ x₂ secret hlookup₁ hlookup₂
      exact h.apart id₁ id₂ x₁ x₂ secret (of_lookup_removeSession hlookup₁).2
        (of_lookup_removeSession hlookup₂).2
    · intro id' x' secret p hp hlookup hsecret
      obtain ⟨hne, hlookup⟩ := of_lookup_removeSession hlookup
      rcases mem_detached_removeSession hp with hp | ⟨x, hx, rfl⟩
      · exact h.past id' x' secret p hp hlookup hsecret
      · exact fun hsecret' => hne (h.apart id' id x' x secret hlookup hx hsecret hsecret')
  | bind vpnIp id x => exact ⟨h.own, h.apart, h.past⟩
  | detached clock p =>
    refine ⟨?_, ?_, ?_⟩ <;> rw [sessions_reindexSession]
    · exact h.own
    · exact h.apart
    · rw [detached_reindexSession]
      exact h.past

theorem AllSettled.created (h : m.AllSettled) {call : ClientCall} {own : OwnSessions}
    {keys ratchetedKeys : SessionKeys}
    (hdistinct : (m.created env call own keys ratchetedKeys).KeysDistinct) :
    (m.created env call own keys ratchetedKeys).AllSettled where
  settled := by
    intro id x hlookup
    have hsecrets := hdistinct.own id x hlookup
    rw [lookup_created] at hlookup
    split at hlookup
    · cases hlookup
      have hopened := ManagedSession.settled_opened keys ratchetedKeys call.clock
        call.clientAddr false hsecrets
      exact ⟨hopened.sound, hopened.windows, hopened.distinct⟩
    · split at hlookup
      · cases hlookup
      · exact h.settled id x hlookup
  known := by
    have hremoved := h.removeAll (call.interference.upTo 3)
    have hclaimed : ((m.removeAll (call.interference.upTo 3)).claimed env keys
        call.clock.now).AllSettled := ⟨hremoved.settled, hremoved.known⟩
    rw [SessionManager.created, detached_identify, detached_insertSession]
    exact (hclaimed.removeAll (own.abandoned.map Prod.fst)).known

/-- One step, after which no secret has been derived twice. -/
theorem AllSettled.perform (h : m.AllSettled) {step : Step T}
    (hdistinct : (m.perform env step).KeysDistinct) : (m.perform env step).AllSettled := by
  apply perform_keeps h
  · exact fun m m' hc hm => hm.change hc
  · exact fun m keys now hm => ⟨hm.settled, hm.known⟩
  · rintro call own keys ratchetedKeys rfl - hresult
    rw [hresult] at hdistinct
    exact h.created hdistinct
  · rintro call keys ratchetedKeys rfl - hresult
    rw [hresult] at hdistinct
    refine ⟨?_, ?_⟩
    · intro id x hlookup
      have hsecrets := hdistinct.own id x hlookup
      rw [createdPeer, lookup_insertSession] at hlookup
      split at hlookup
      · cases hlookup
        exact ManagedSession.settled_opened keys ratchetedKeys call.clock call.clientAddr true
          hsecrets
      · exact h.settled id x hlookup
    · rw [createdPeer, detached_insertSession]
      exact h.known
  · rintro clock id op rfl
    apply h.onSession
    intro x hlookup
    apply hdistinct.own id
    simp only [SessionManager.perform]
    rw [lookup_onSession, if_pos rfl, hlookup]
    rfl

end SessionManager

end AivpnSpec.Server
