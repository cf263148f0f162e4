import AivpnSpec.Server.Manager.Changes

/-!
# The index of tags

Whatever is done to sessions, the index has for each session of the table the tags of its maps, in
the windows around the moment at which it was last indexed, as long as no two sessions of the table
have a tag secret in common. The cache of handshakes keeps two sessions from starting with the same
secret only for a minute; a client that uses its ephemeral key again after that gets a second
session whose tags are those of the first.
-/

namespace AivpnSpec.Server

open AivpnSpec.Base AivpnSpec.Common AivpnSpec.Wire

/-! ### What steps leave alone -/

namespace Session

/-- The fields that the tags of a session are made from. -/
structure SameTags (s s' : Session) : Prop where
  keys : s'.keys = s.keys
  expectedTags : s'.expectedTags = s.expectedTags
  ratchetedKeys : s'.ratchetedKeys = s.ratchetedKeys
  ratchetedExpectedTags : s'.ratchetedExpectedTags = s.ratchetedExpectedTags
  isRatcheted : s'.isRatcheted = s.isRatcheted
  preRatchetTags : s'.preRatchetTags = s.preRatchetTags
  preRatchetExpire : s'.preRatchetExpire = s.preRatchetExpire
  preRatchetKeys : s'.preRatchetKeys = s.preRatchetKeys

theorem SameTags.refl (s : Session) : SameTags s s := ⟨rfl, rfl, rfl, rfl, rfl, rfl, rfl, rfl⟩

/-- A new session has tags for the first counters. -/
theorem mem_expectedTags_opened (keys ratchetedKeys : SessionKeys) (now : Nat) {counter : Nat}
    (h : counter < tagWindowSize) : counter ∈ (opened keys ratchetedKeys now).expectedTags := by
  show counter ∈ ((new keys ratchetedKeys now).updateTagWindow now).expectedTags
  rw [(updateTagWindow_spec _ now (Nat.zero_le _)).1, Finset.mem_Icc]
  have hcenter : (new keys ratchetedKeys now).tagSearchCenter = 0 := rfl
  unfold saturatingAdd windowForward u64Max
  unfold tagWindowSize at h ⊢
  omega

end Session

/-- An accepted packet leaves the tags as they are. -/
theorem Ingress.sameTags_accept (w : Ingress) (secret : Bytes32) (counter now : Nat) :
    Session.SameTags w.session (w.accept secret counter now).session := by
  unfold Ingress.accept
  split
  · exact .refl _
  split
  · obtain ⟨preCounter, hint, hmark, -⟩ := Session.markPreRatchetReceived_eq _ _
    rw [hmark]
    exact ⟨rfl, rfl, rfl, rfl, rfl, rfl, rfl, rfl⟩
  · obtain ⟨hint, hmark, -⟩ := Session.markTagReceived_eq _ _
    rw [hmark]
    exact ⟨rfl, rfl, rfl, rfl, rfl, rfl, rfl, rfl⟩

/-- No step but the removal marks a session as removed. -/
theorem Ingress.removed_perform (env : CryptoEnv) (w : Ingress) {step : SessionStep}
    (h : step ≠ .remove) : (w.perform env step).session.removed = w.session.removed := by
  have hupdate : ∀ (s : Session) now, (s.updateTagWindow now).removed = s.removed := by
    intro s now
    unfold Session.updateTagWindow
    split <;> rfl
  cases step with
  | accept secret counter now =>
    simp only [perform, accept]
    split
    · rfl
    split
    · obtain ⟨preCounter, hint, hmark, -⟩ := w.session.markPreRatchetReceived_eq counter.toNat
      rw [hmark]
    · obtain ⟨hint, hmark, -⟩ := w.session.markTagReceived_eq counter.toNat
      rw [hmark]
  | refreshTagWindowIfNeeded now =>
    simp only [perform, setSession, Session.refreshTagWindowIfNeeded]
    split
    · exact hupdate _ now
    · rfl
  | updateTagWindow now => exact hupdate _ now
  | updateRatchetedTagWindow =>
    simp only [perform, setSession, Session.updateRatchetedTagWindow]
    split <;> rfl
  | traffic bytes => rfl
  | observeClientRtt rttMs => rfl
  | startRekeying now kp =>
    simp only [perform, setSession, Session.startRekeying]
    split
    · rfl
    · split
      · rfl
      · exact hupdate _ now
  | rekeyRetransmitsDue now =>
    simp only [perform, setSession, Session.rekeyRetransmitsDue]
    split
    · rfl
    · split
      · rfl
      · split <;> rfl
  | commitSessionRekey now clientEphPub =>
    simp only [perform, openEpoch, Session.commitSessionRekey]
    split
    · rfl
    · split
      · rfl
      · exact hupdate _ now
  | completeRatchet now =>
    simp only [perform, openEpoch, Session.completeRatchet]
    split <;> rfl
  | expireGrace now =>
    simp only [perform, setSession, Session.expireGrace]
    split <;> rfl
  | remove => exact absurd rfl h

namespace ManagedSession

variable {T : Type} [DecidableEq T] {env : ManagerEnv T} {x x' : ManagedSession} {clock : Clock}
  {id : SessionId} {e : IndexedTag} {tag : T} {op : Op}

/-- The tags that are indexed stay. -/
theorem tagSources_eq (h : Session.SameTags x.core x'.core) (now : Nat) :
    x'.tagSources now = x.tagSources now := by
  unfold tagSources Session.preRatchetKeysInGrace
  rw [h.keys, h.expectedTags, h.ratchetedKeys, h.ratchetedExpectedTags, h.isRatcheted,
    h.preRatchetTags, h.preRatchetExpire, h.preRatchetKeys]

/-- An operation that does not index the session anew leaves its tags and their times. -/
theorem apply_unindexed {env : CryptoEnv} (h : (x.apply env clock op).2 = false) :
    Session.SameTags x.core (x.apply env clock op).1.core ∧
      (x.apply env clock op).1.times.tagWindowTw = x.times.tagWindowTw := by
  cases op with
  | accept secret counter clientAddr bytes =>
    simp only [apply, accept] at h ⊢
    cases hepoch : x.core.authenticatedCounterEpoch clock.now counter.toNat secret with
    | none => exact ⟨.refl _, rfl⟩
    | some previousEpoch =>
      rw [hepoch] at h
      have htags : Session.SameTags x.core
          (x.step env clock (.accept secret counter clock.now)).core :=
        x.ingress.sameTags_accept secret counter.toNat clock.now
      have htimes : (x.step env clock (.accept secret counter clock.now)).times = x.times := rfl
      generalize x.step env clock (.accept secret counter clock.now) = marked at h htags htimes ⊢
      refine ⟨?_, ?_⟩
      · have hsame : marked.core.refreshTagWindowIfNeeded clock.now = marked.core := by
          exact if_neg (by simpa [Session.refreshNeeded] using h)
        show Session.SameTags x.core { marked.core.refreshTagWindowIfNeeded clock.now with
          bytesSinceRekey := saturatingAdd
            (marked.core.refreshTagWindowIfNeeded clock.now).bytesSinceRekey bytes }
        rw [hsame]
        exact ⟨htags.1, htags.2, htags.3, htags.4, htags.5, htags.6, htags.7, htags.8⟩
      · show (TagTimes.after env marked.times clock.window marked.core
          (.refreshTagWindowIfNeeded clock.now)).tagWindowTw = _
        simp only [TagTimes.after]
        rw [if_neg (by simpa using h), htimes]
  | observeClientRtt rttMs => exact ⟨⟨rfl, rfl, rfl, rfl, rfl, rfl, rfl, rfl⟩, rfl⟩
  | refreshStale =>
    simp only [apply] at h ⊢
    split at h
    · next hcurrent =>
      rw [if_pos hcurrent]
      exact ⟨.refl _, rfl⟩
    · cases h
  | reindex => cases h
  | completeRatchet =>
    simp only [apply] at h ⊢
    have hnone := Option.isSome_eq_false_iff.mp h
    rw [Option.isNone_iff_eq_none] at hnone
    have hsame : (x.step env clock (.completeRatchet clock.now)).core = x.core := by
      show x.core.completeRatchet clock.now = x.core
      unfold Session.completeRatchet
      rw [hnone]
    refine ⟨by rw [hsame]; exact .refl _, ?_⟩
    simp [step, TagTimes.after, hnone]
  | startRekeying kp =>
    simp only [apply] at h ⊢
    have hsame : (x.step env clock (.startRekeying clock.now kp)).core = x.core := by
      show (x.core.startRekeying env clock.now kp).1 = x.core
      unfold Session.startRekeying at h ⊢
      split
      · rfl
      next hready =>
      rw [if_neg hready] at h
      split at h
      · next hdue => rw [if_pos hdue]
      · cases h
    refine ⟨by rw [hsame]; exact .refl _, ?_⟩
    simp [step, TagTimes.after, h]
  | rekeyRetransmitsDue =>
    refine ⟨?_, rfl⟩
    show Session.SameTags x.core (x.core.rekeyRetransmitsDue env clock.now).1
    unfold Session.rekeyRetransmitsDue
    split
    · exact .refl _
    · split
      · exact .refl _
      · split <;> exact ⟨rfl, rfl, rfl, rfl, rfl, rfl, rfl, rfl⟩
  | commitSessionRekey clientEphPub =>
    simp only [apply] at h ⊢
    have hnone := Option.isSome_eq_false_iff.mp h
    rw [Option.isNone_iff_eq_none] at hnone
    refine ⟨?_, by simp [step, TagTimes.after, hnone]⟩
    show Session.SameTags x.core (x.core.commitSessionRekey env clock.now clientEphPub)
    unfold Session.commitSessionRekey
    split
    · exact .refl _
    · rw [hnone]
      exact ⟨rfl, rfl, rfl, rfl, rfl, rfl, rfl, rfl⟩
  | expireGrace =>
    simp only [apply] at h ⊢
    refine ⟨?_, rfl⟩
    show Session.SameTags x.core (x.core.expireGrace clock.now)
    unfold Session.expireGrace
    rw [if_neg (by simpa using h)]
    exact .refl _
  | markAdmitted | verifyNode nodeId => exact ⟨.refl _, rfl⟩

theorem removed_apply (env : CryptoEnv) (clock : Clock) (x : ManagedSession) (op : Op) :
    (x.apply env clock op).1.core.removed = x.core.removed := by
  have hstep : ∀ (y : ManagedSession) (s : SessionStep), s ≠ .remove →
      (y.step env clock s).core.removed = y.core.removed :=
    fun y s hs => y.ingress.removed_perform env hs
  cases op with
  | accept secret counter clientAddr bytes =>
    simp only [apply, accept]
    split
    · rfl
    · show (((x.step env clock _).step env clock _).step env clock _).core.removed = _
      rw [hstep _ _ (by simp), hstep _ _ (by simp), hstep _ _ (by simp)]
  | refreshStale =>
    simp only [apply]
    split
    · rfl
    · rw [hstep _ _ (by simp), hstep _ _ (by simp)]
  | reindex | markAdmitted | verifyNode nodeId => rfl
  | _ => exact hstep _ _ (by simp)

/-- The window of the tags stays or becomes the current one. -/
theorem tagWindowTw_apply (env : CryptoEnv) (clock : Clock) (x : ManagedSession) (op : Op) :
    (x.apply env clock op).1.times.tagWindowTw = x.times.tagWindowTw ∨
      (x.apply env clock op).1.times.tagWindowTw = clock.window := by
  have hstep : ∀ (y : ManagedSession) (s : SessionStep),
      (y.step env clock s).times.tagWindowTw = y.times.tagWindowTw ∨
        (y.step env clock s).times.tagWindowTw = clock.window := by
    intro y s
    show (y.times.after env clock.window y.core s).tagWindowTw = _ ∨
      (y.times.after env clock.window y.core s).tagWindowTw = _
    cases s with
    | updateTagWindow now => exact .inr rfl
    | refreshTagWindowIfNeeded now | startRekeying now kp =>
      simp only [TagTimes.after]
      split
      · exact .inr rfl
      · exact .inl rfl
    | updateRatchetedTagWindow | completeRatchet now =>
      simp only [TagTimes.after]
      split <;> exact .inl rfl
    | commitSessionRekey now clientEphPub =>
      simp only [TagTimes.after]
      split
      · exact .inl rfl
      · exact .inr rfl
    | _ => exact .inl rfl
  have htwo : ∀ s s', ((x.step env clock s).step env clock s').times.tagWindowTw =
        x.times.tagWindowTw ∨
      ((x.step env clock s).step env clock s').times.tagWindowTw = clock.window := by
    intro s s'
    rcases hstep (x.step env clock s) s' with hsame | hnew
    · rw [hsame]
      exact hstep x s
    · exact .inr hnew
  cases op with
  | accept secret counter clientAddr bytes =>
    simp only [apply, accept]
    split
    · exact .inl rfl
    · exact htwo _ (.refreshTagWindowIfNeeded clock.now)
  | refreshStale =>
    simp only [apply]
    split
    · exact .inl rfl
    · exact htwo _ _
  | reindex | markAdmitted | verifyNode nodeId => exact .inl rfl
  | _ => exact hstep x _

/-! ### The tags of a session -/

def liveSecrets (x : ManagedSession) : List Bytes32 :=
  x.core.keys.tagSecret ::
    (x.core.ratchetedKeys.toList ++ x.core.preRatchetKeys.toList).map SessionKeys.tagSecret

theorem core_refreshed (env : CryptoEnv) (clock : Clock) (x : ManagedSession) :
    ((x.step env clock (.updateTagWindow clock.now)).step env clock
      .updateRatchetedTagWindow).core =
        (x.core.updateTagWindow clock.now).updateRatchetedTagWindow := rfl

/-- A refresh and an admission leave the secrets. -/
theorem liveSecrets_apply_quiet (env : CryptoEnv) (clock : Clock) (x : ManagedSession)
    (h : SessionManager.quietOp op = true) :
    (x.apply env clock op).1.liveSecrets = x.liveSecrets := by
  cases op with
  | refreshStale =>
    simp only [apply]
    split
    · rfl
    obtain ⟨hkeys, hprevious, -, hratcheted, -, -⟩ :=
      Session.updateTagWindow_frame x.core clock.now
    unfold liveSecrets
    rw [core_refreshed]
    unfold Session.updateRatchetedTagWindow
    split <;> simp only [hkeys, hprevious, hratcheted]
  | markAdmitted => rfl
  | _ => cases h

theorem removed_opened (keys ratchetedKeys : SessionKeys) (clock : Clock) (clientAddr : SocketAddr)
    (isMaskedPoolPeer : Bool) :
    (opened keys ratchetedKeys clock clientAddr isMaskedPoolPeer).core.removed = false := by
  show ((Session.new keys ratchetedKeys clock.now).updateTagWindow clock.now).removed = false
  unfold Session.updateTagWindow
  split <;> rfl

theorem active_mem_tagSources (x : ManagedSession) (now : Nat) :
    (TagEpoch.active, x.core.keys.tagSecret, x.core.expectedTags) ∈ x.tagSources now :=
  List.mem_cons_self

/-- A map that is indexed belongs to a secret of the session. -/
theorem secret_mem_liveSecrets {now : Nat} {source : TagEpoch × Bytes32 × Finset Nat}
    (h : source ∈ x.tagSources now) : source.2.1 ∈ x.liveSecrets := by
  unfold tagSources at h
  unfold liveSecrets
  simp only [List.cons_append, List.mem_cons, List.mem_append, Option.mem_toList,
    Option.map_eq_some_iff] at h
  rcases h with rfl | ⟨keys, hkeys, rfl⟩ | ⟨keys, hkeys, rfl⟩
  · exact List.mem_cons_self
  · have hratcheted : x.core.ratchetedKeys = some keys := by
      split at hkeys
      · cases hkeys
      · exact hkeys
    simp [hratcheted]
  · simp [Session.preRatchetKeys_of_inGrace hkeys]

omit [DecidableEq T] in
/-- The index of a session has the tags of its maps in the windows around the moment. -/
theorem mem_indexPairs :
    (tag, e) ∈ x.indexPairs env id clock ↔
      e.sessionId = id ∧ ∃ secret counters, (e.epoch, secret, counters) ∈ x.tagSources clock.now ∧
        e.counter ∈ counters ∧ e.timeWindow ∈ indexedWindows clock.window ∧
        env.generateResonanceTag secret e.counter e.timeWindow = tag := by
  simp only [indexPairs, List.mem_flatMap, List.mem_map, Finset.mem_sort, Prod.exists,
    Prod.mk.injEq]
  constructor
  · rintro ⟨epoch, secret, counters, hsource, counter, hcounter, window, hwindow, htag, rfl⟩
    exact ⟨rfl, secret, counters, hsource, hcounter, hwindow, htag⟩
  · rintro ⟨rfl, secret, counters, hsource, hcounter, hwindow, htag⟩
    exact ⟨e.epoch, secret, counters, hsource, e.counter, hcounter, e.timeWindow, hwindow, htag,
      rfl⟩

theorem of_lookup_indexEntries (h : (x.indexEntries env id clock).lookup tag = some e) :
    e.sessionId = id ∧ ∃ secret ∈ x.liveSecrets,
      env.generateResonanceTag secret e.counter e.timeWindow = tag := by
  obtain ⟨hid, secret, counters, hsource, -, -, htag⟩ :=
    mem_indexPairs.mp (Table.mem_of_lookup_ofList h)
  exact ⟨hid, secret, secret_mem_liveSecrets hsource, htag⟩

/-- Every counter of a map has a tag in the index for each of the windows. -/
theorem mem_indexEntries {epoch : TagEpoch} {secret : Bytes32} {counters : Finset Nat}
    {counter : Nat} {window : UInt64}
    (hsource : (epoch, secret, counters) ∈ x.tagSources clock.now) (hcounter : counter ∈ counters)
    (hwindow : window ∈ indexedWindows clock.window) :
    env.generateResonanceTag secret counter window ∈ x.indexEntries env id clock := by
  rw [Table.mem_iff_lookup]
  rcases Table.lookup_ofList (x.indexPairs env id clock)
      (env.generateResonanceTag secret counter window) with ⟨e, -, hlookup⟩ | ⟨hnone, -⟩
  · exact ⟨e, hlookup⟩
  · refine absurd (mem_indexPairs.mpr ?_) (hnone ⟨id, counter, window, epoch⟩)
    exact ⟨rfl, secret, counters, hsource, hcounter, hwindow, rfl⟩

end ManagedSession

/-- Tags made of different secrets, counters or time windows are different. -/
def ManagerEnv.TagsDistinct {T : Type} (env : ManagerEnv T) : Prop :=
  ∀ secret counter window secret' counter' window',
    env.generateResonanceTag secret counter window =
      env.generateResonanceTag secret' counter' window' →
    secret = secret' ∧ counter = counter' ∧ window = window'

namespace SessionManager

variable {T : Type} [DecidableEq T] {env : ManagerEnv T} {m m' : SessionManager T}
  {P : UInt64 → Clock → Prop} {time : Option Clock}

def SecretsApart (m : SessionManager T) : Prop :=
  ∀ id id' x x' secret, m.sessions.lookup id = some x → m.sessions.lookup id' = some x' →
    secret ∈ x.liveSecrets → secret ∈ x'.liveSecrets → id = id'

/-- Every session of the table is in the index as it would be indexed at some earlier moment, of
which `P` tells more from the window of its tags, and the index has nothing else. -/
structure IndexSound (env : ManagerEnv T) (P : UInt64 → Clock → Prop)
    (m : SessionManager T) : Prop where
  consistent : m.index.Consistent IndexedTag.sessionId
  present : ∀ id tag, m.index.Lists id tag → ∃ x, m.sessions.lookup id = some x
  alive : ∀ id x, m.sessions.lookup id = some x → x.core.removed = false
  mirror : ∀ id x, m.sessions.lookup id = some x → ∃ past, P x.times.tagWindowTw past ∧
    (∀ tag, m.index.Lists id tag → tag ∈ x.indexEntries env id past) ∧
    (∀ tag e, (x.indexEntries env id past).lookup tag = some e → m.tagMap.lookup tag = some e)
  gone : ∀ p ∈ m.detached, p.2.core.removed = true

/-- What `P` tells goes on when a session is indexed at a moment. -/
structure Renews (P : UInt64 → Clock → Prop) (clock : Clock) : Prop where
  rebuilt : P clock.window clock
  later : ∀ window past, P window past → P window clock

theorem indexSound_empty : (empty : SessionManager T).IndexSound env P where
  consistent := ⟨nofun, fun _ _ h => absurd h OwnedIndex.not_lists_empty⟩
  present := fun id tag h => absurd h OwnedIndex.not_lists_empty
  alive := fun id x h => by cases h
  mirror := fun id x h => by cases h
  gone := fun p h => by cases h

theorem IndexSound.mono {Q : UInt64 → Clock → Prop} (h : m.IndexSound env P)
    (hPQ : ∀ window past, P window past → Q window past) : m.IndexSound env Q where
  consistent := h.consistent
  present := h.present
  alive := h.alive
  mirror := by
    intro id x hlookup
    obtain ⟨past, hpast, hmirror⟩ := h.mirror id x hlookup
    exact ⟨past, hPQ _ past hpast, hmirror⟩
  gone := h.gone

variable {id : SessionId}

/-- A listed tag belongs to a secret of its session. -/
theorem IndexSound.secret_of_lists (h : m.IndexSound env P) {tag : T}
    (hlists : m.index.Lists id tag) : ∃ x, m.sessions.lookup id = some x ∧
      ∃ secret ∈ x.liveSecrets, ∃ counter window,
        env.generateResonanceTag secret counter window = tag := by
  obtain ⟨x, hlookup⟩ := h.present id tag hlists
  obtain ⟨past, -, hlisted, -⟩ := h.mirror id x hlookup
  obtain ⟨e, he⟩ := Table.mem_iff_lookup.mp (hlisted tag hlists)
  obtain ⟨-, secret, hsecret, htag⟩ := ManagedSession.of_lookup_indexEntries he
  exact ⟨x, hlookup, secret, hsecret, e.counter, e.timeWindow, htag⟩

/-! ### Steps -/

variable {clock : Clock} {x : ManagedSession} {op : ManagedSession.Op}

/-- A session is put into the table and indexed. -/
theorem IndexSound.put (hdistinct : env.TagsDistinct) (h : m.IndexSound env P)
    (halive : x.core.removed = false) (hP : P x.times.tagWindowTw clock)
    (hapart : SecretsApart { m with sessions := m.sessions.insert id x }) :
    IndexSound env P
      { m with
        sessions := m.sessions.insert id x
        index := m.index.publish IndexedTag.sessionId id (x.indexEntries env id clock) } := by
  have howner : ∀ tag e, (x.indexEntries env id clock).lookup tag = some e → e.sessionId = id :=
    fun tag e he => (ManagedSession.of_lookup_indexEntries he).1
  -- a tag that another session lists is not made of one of the secrets of this one
  have hothers : ∀ id', id' ≠ id → ∀ tag, m.index.Lists id' tag →
      tag ∉ x.indexEntries env id clock := by
    intro id' hid tag hlists hmem
    obtain ⟨x', hlookup, secret', hsecret', counter', window', htag'⟩ := h.secret_of_lists hlists
    obtain ⟨e, he⟩ := Table.mem_iff_lookup.mp hmem
    obtain ⟨-, secret, hsecret, htag⟩ := ManagedSession.of_lookup_indexEntries he
    obtain ⟨rfl, -, -⟩ := hdistinct _ _ _ _ _ _ (htag.trans htag'.symm)
    refine hid (hapart id' id x' x secret ?_ ?_ hsecret' hsecret)
    · exact (Table.lookup_insert_eq _ _ _ _).trans ((if_neg hid).trans hlookup)
    · exact (Table.lookup_insert_eq _ _ _ _).trans (if_pos rfl)
  refine ⟨h.consistent.publish howner hothers, ?_, ?_, ?_, h.gone⟩
  · intro id' tag hlists
    rw [OwnedIndex.lists_publish] at hlists
    rw [Table.lookup_insert_eq]
    split at hlists
    · next hid => exact ⟨x, if_pos hid⟩
    · next hid =>
      rw [if_neg hid]
      exact h.present id' tag hlists
  · intro id' x' hlookup
    rcases Table.cases_insert hlookup with ⟨-, rfl⟩ | hlookup
    · exact halive
    · exact h.alive id' x' hlookup
  · intro id' x' hlookup
    rw [Table.lookup_insert_eq] at hlookup
    by_cases hid : id' = id
    · rw [if_pos hid] at hlookup
      cases hlookup
      subst hid
      refine ⟨clock, hP, ?_, ?_⟩
      · intro tag hlists
        exact (if_pos rfl).mp (OwnedIndex.lists_publish.mp hlists)
      · exact fun tag e he => OwnedIndex.lookup_publish_new he
    · rw [if_neg hid] at hlookup
      obtain ⟨past, hpast, hlisted, hentries⟩ := h.mirror id' x' hlookup
      refine ⟨past, hpast, ?_, ?_⟩
      · intro tag hlists
        have hlists := OwnedIndex.lists_publish.mp hlists
        rw [if_neg hid] at hlists
        exact hlisted tag hlists
      · intro tag e he
        refine h.consistent.lookup_publish_other hothers (hentries tag e he) ?_
        rw [(ManagedSession.of_lookup_indexEntries he).1]
        exact hid

/-- A session is replaced by one with the same tags. -/
theorem IndexSound.replace (h : m.IndexSound env P) {x' : ManagedSession}
    (hlookup : m.sessions.lookup id = some x) (htags : Session.SameTags x.core x'.core)
    (hremoved : x'.core.removed = x.core.removed)
    (hwindow : x'.times.tagWindowTw = x.times.tagWindowTw) :
    IndexSound env P { m with sessions := m.sessions.insert id x' } where
  consistent := h.consistent
  present := by
    intro id' tag hlists
    rw [Table.lookup_insert_eq]
    split
    · exact ⟨x', rfl⟩
    · exact h.present id' tag hlists
  alive := by
    intro id' y hy
    rcases Table.cases_insert hy with ⟨-, rfl⟩ | hy
    · exact hremoved.trans (h.alive id x hlookup)
    · exact h.alive id' y hy
  mirror := by
    intro id' y hy
    rcases Table.cases_insert hy with ⟨rfl, rfl⟩ | hy
    · obtain ⟨past, hpast, hmirror⟩ := h.mirror id' x hlookup
      refine ⟨past, hwindow ▸ hpast, ?_⟩
      unfold ManagedSession.indexEntries ManagedSession.indexPairs
      rw [ManagedSession.tagSources_eq htags]
      exact hmirror
    · exact h.mirror id' y hy
  gone := h.gone

/-- An operation that indexes the session anew. -/
theorem onSession_indexed (hlookup : m.sessions.lookup id = some x)
    (halive : x.core.removed = false) (hflag : (x.apply env.crypto clock op).2 = true) :
    m.onSession env clock id op =
      { m with
        sessions := m.sessions.insert id (x.apply env.crypto clock op).1
        index := m.index.publish IndexedTag.sessionId id
          ((x.apply env.crypto clock op).1.indexEntries env id clock) } := by
  have halive' := (x.removed_apply env.crypto clock op).trans halive
  simp only [onSession, hlookup, hflag, reindexSession, halive']
  rfl

/-- The insertion of a session. -/
theorem insertSession_indexed (halive : x.core.removed = false) :
    m.insertSession env clock id x =
      { m with
        sessions := m.sessions.insert id x
        index := m.index.publish IndexedTag.sessionId id (x.indexEntries env id clock) } := by
  simp only [insertSession, reindexSession, halive]
  rfl

/-- An operation on a session. -/
theorem IndexSound.onSession (hdistinct : env.TagsDistinct) (h : m.IndexSound env P)
    (hrenews : Renews P clock) (hapart : (m.onSession env clock id op).SecretsApart) :
    (m.onSession env clock id op).IndexSound env P := by
  cases hlookup : m.sessions.lookup id with
  | none =>
    have hsame : m.onSession env clock id op = m := by rw [SessionManager.onSession, hlookup]
    rw [hsame]
    exact h
  | some x =>
    have hremoved := x.removed_apply env.crypto clock op
    have halive := h.alive id x hlookup
    cases hflag : (x.apply env.crypto clock op).2 with
    | false =>
      have hstep : m.onSession env clock id op =
          { m with sessions := m.sessions.insert id (x.apply env.crypto clock op).1 } := by
        simp only [SessionManager.onSession, hlookup, hflag]
        rfl
      rw [hstep]
      obtain ⟨htags, hwindow⟩ := ManagedSession.apply_unindexed hflag
      exact h.replace hlookup htags hremoved hwindow
    | true =>
      rw [onSession_indexed hlookup halive hflag] at hapart ⊢
      refine h.put hdistinct (hremoved.trans halive) ?_ hapart
      rcases x.tagWindowTw_apply env.crypto clock op with hsame | hnew
      · obtain ⟨past, hpast, -⟩ := h.mirror id x hlookup
        rw [hsame]
        exact hrenews.later _ past hpast
      · rw [hnew]
        exact hrenews.rebuilt

theorem IndexSound.removeSession (h : m.IndexSound env P) (id : SessionId) :
    (m.removeSession id).IndexSound env P := by
  cases hlookup : m.sessions.lookup id with
  | none =>
    have hsame : m.removeSession id = m := by rw [SessionManager.removeSession, hlookup]
    rw [hsame]
    exact h
  | some x =>
    have hindex : (m.removeSession id).index = m.index.withdraw IndexedTag.sessionId id := by
      rw [SessionManager.removeSession, hlookup]
    have hdetached : (m.removeSession id).detached = (id, x.markRemoved) :: m.detached := by
      rw [SessionManager.removeSession, hlookup]
    refine ⟨?_, ?_, ?_, ?_, ?_⟩
    · rw [hindex]
      exact h.consistent.withdraw
    · intro id' tag hlists
      rw [hindex] at hlists
      obtain ⟨hid, hlists⟩ := OwnedIndex.lists_withdraw.mp hlists
      rw [lookup_removeSession, if_neg hid]
      exact h.present id' tag hlists
    · intro id' x' hlookup'
      exact h.alive id' x' (of_lookup_removeSession hlookup').2
    · intro id' x' hlookup'
      obtain ⟨hid, hlookup'⟩ := of_lookup_removeSession hlookup'
      obtain ⟨past, hpast, hlisted, hentries⟩ := h.mirror id' x' hlookup'
      refine ⟨past, hpast, ?_, ?_⟩
      · intro tag hlists
        rw [hindex] at hlists
        exact hlisted tag (OwnedIndex.lists_withdraw.mp hlists).2
      intro tag e he
      rw [tagMap, hindex, h.consistent.lookup_withdraw]
      have howner : e.sessionId ≠ id := by
        rw [(ManagedSession.of_lookup_indexEntries he).1]
        exact hid
      have hentry : m.index.entries.lookup tag = some e := hentries tag e he
      simp [hentry, howner, Option.filter]
    · rw [hdetached]
      intro p hp
      rcases List.mem_cons.mp hp with rfl | hp
      · rfl
      · exact h.gone p hp

theorem IndexSound.removeAll (h : m.IndexSound env P) (ids : List SessionId) :
    (m.removeAll ids).IndexSound env P := by
  induction ids generalizing m with
  | nil => exact h
  | cons first rest ih => exact ih (h.removeSession first)

/-- Fewer sessions, or sessions with the same secrets, are as far apart. -/
theorem SecretsApart.of_lookup (h : m.SecretsApart) (hm : ∀ id x', m'.sessions.lookup id = some x' →
    ∃ x, m.sessions.lookup id = some x ∧ x'.liveSecrets = x.liveSecrets) : m'.SecretsApart := by
  intro id id' x x' secret hx hx' hsecret hsecret'
  obtain ⟨y, hy, heq⟩ := hm id x hx
  obtain ⟨y', hy', heq'⟩ := hm id' x' hx'
  rw [heq] at hsecret
  rw [heq'] at hsecret'
  exact h id id' y y' secret hy hy' hsecret hsecret'

/-- A session that was removed is not indexed again. -/
theorem IndexSound.reindexSession_gone (h : m.IndexSound env P) (clock : Clock)
    {p : SessionId × ManagedSession} (hp : p ∈ m.detached) :
    m.reindexSession env clock p.1 p.2 = m := by
  unfold reindexSession
  rw [h.gone p hp]
  rfl

/-- A small change. -/
theorem IndexSound.change (hdistinct : env.TagsDistinct) (h : m.IndexSound env P)
    (hapart : m.SecretsApart) (hrenews : ∀ clock, time = some clock → Renews P clock)
    (hc : Change env time m m') : m'.IndexSound env P ∧ m'.SecretsApart := by
  cases hc with
  | session clock id op htime hquiet =>
    have hapart' : (m.onSession env clock id op).SecretsApart := by
      apply hapart.of_lookup
      intro id' x' hlookup
      rw [lookup_onSession] at hlookup
      split at hlookup
      · next hid =>
        rw [hid]
        obtain ⟨x, hx, rfl⟩ := Option.map_eq_some_iff.mp hlookup
        exact ⟨x, hx, ManagedSession.liveSecrets_apply_quiet env.crypto clock x hquiet⟩
      · exact ⟨x', hlookup, rfl⟩
    exact ⟨h.onSession hdistinct (hrenews clock htime) hapart', hapart'⟩
  | remove id =>
    refine ⟨h.removeSession id, hapart.of_lookup fun id' x' hlookup => ?_⟩
    exact ⟨x', (of_lookup_removeSession hlookup).2, rfl⟩
  | bind vpnIp id x => exact ⟨⟨h.consistent, h.present, h.alive, h.mirror, h.gone⟩, hapart⟩
  | detached clock p hmem =>
    rw [h.reindexSession_gone clock hmem]
    exact ⟨h, hapart⟩

/-- The cache of handshakes is not part of the index. -/
theorem IndexSound.claimed (h : m.IndexSound env P) (keys : SessionKeys) (now : Nat) :
    (m.claimed env keys now).IndexSound env P :=
  ⟨h.consistent, h.present, h.alive, h.mirror, h.gone⟩

section

variable (hdistinct : env.TagsDistinct) (h : m.IndexSound env P)

include hdistinct h

/-- A new session is indexed and put into the table. -/
theorem IndexSound.insertSession (halive : x.core.removed = false)
    (hP : P x.times.tagWindowTw clock) (hapart : (m.insertSession env clock id x).SecretsApart) :
    (m.insertSession env clock id x).IndexSound env P := by
  rw [insertSession_indexed halive] at hapart ⊢
  exact h.put hdistinct halive hP hapart

theorem IndexSound.created {call : ClientCall} {own : OwnSessions}
    {keys ratchetedKeys : SessionKeys} (hP : P call.clock.window call.clock)
    (hapart : (m.created env call own keys ratchetedKeys).SecretsApart) :
    (m.created env call own keys ratchetedKeys).IndexSound env P := by
  have hready := ((h.removeAll (call.interference.upTo 3)).claimed keys call.clock.now).removeAll
    (own.abandoned.map Prod.fst)
  unfold SessionManager.created at hapart ⊢
  generalize (((m.removeAll (call.interference.upTo 3)).claimed env keys
    call.clock.now).removeAll (own.abandoned.map Prod.fst)) = ready at hready hapart ⊢
  let x : ManagedSession := .opened keys ratchetedKeys call.clock call.clientAddr false
  -- the identity is written afterwards and leaves the secrets
  have hinserted : (ready.insertSession env call.clock call.sessionId x).IndexSound env P := by
    refine hready.insertSession hdistinct (ManagedSession.removed_opened _ _ _ _ _) hP ?_
    apply hapart.of_lookup
    intro id x' hlookup
    rw [lookup_insertSession] at hlookup
    rw [lookup_identify, lookup_insertSession, lookup_insertSession, if_pos rfl]
    split at hlookup
    · next hid =>
      cases hlookup
      exact ⟨_, if_pos hid, rfl⟩
    · next hid => exact ⟨x', by rw [if_neg hid, if_neg hid, hlookup], rfl⟩
  have hlookup : (ready.insertSession env call.clock call.sessionId x).sessions.lookup
      call.sessionId = some x := by
    rw [lookup_insertSession, if_pos rfl]
  generalize ready.insertSession env call.clock call.sessionId x = inserted at hinserted hlookup ⊢
  have hreplaced : IndexSound env P { inserted with
      sessions := inserted.sessions.insert call.sessionId (call.session keys ratchetedKeys) } :=
    hinserted.replace hlookup (.refl _) rfl rfl
  unfold identify
  rw [hlookup]
  exact ⟨hreplaced.consistent, hreplaced.present, hreplaced.alive, hreplaced.mirror, hreplaced.gone⟩

/-- One step of the manager. -/
theorem IndexSound.perform (hapart : m.SecretsApart) {step : Step T}
    (hrenews : ∀ clock, step.clock = some clock → Renews P clock)
    (hapart' : (m.perform env step).SecretsApart) : (m.perform env step).IndexSound env P := by
  have hkeeps : (m.perform env step).IndexSound env P ∧ (m.perform env step).SecretsApart := by
    apply perform_keeps (P := fun m => m.IndexSound env P ∧ m.SecretsApart) ⟨h, hapart⟩
    · exact fun m m' hc hm => hm.1.change hdistinct hm.2 hrenews hc
    · exact fun m keys now hm => ⟨hm.1.claimed keys now, hm.2⟩
    · rintro call own keys ratchetedKeys rfl - hresult
      rw [hresult] at hapart'
      exact ⟨h.created hdistinct (hrenews call.clock rfl).rebuilt hapart', hapart'⟩
    · rintro call keys ratchetedKeys rfl - hresult
      rw [hresult] at hapart'
      exact ⟨(h.claimed keys call.clock.now).insertSession hdistinct
        (ManagedSession.removed_opened _ _ _ _ _) (hrenews call.clock rfl).rebuilt hapart', hapart'⟩
    · rintro clock id op rfl
      exact ⟨h.onSession hdistinct (hrenews clock rfl) hapart', hapart'⟩
  exact hkeeps.1

end

/-! ### Runs -/

/-- After every run in which no two sessions of the table share a secret, an entry of the index is
listed for a session of the table, a listed tag has an entry of its session, and a session that was
removed is not indexed again. -/
theorem tag_index_consistent (env : ManagerEnv T) (hdistinct : env.TagsDistinct)
    (steps : List (Step T)) (k : Nat) (hapart : ∀ j ≤ k, (after env steps j).SecretsApart) :
    (∀ tag e, (after env steps k).tagMap.lookup tag = some e →
      (after env steps k).index.Lists e.sessionId tag ∧
        ∃ x, (after env steps k).sessions.lookup e.sessionId = some x) ∧
    (∀ id tag, (after env steps k).index.Lists id tag →
      ∃ e, (after env steps k).tagMap.lookup tag = some e ∧ e.sessionId = id) ∧
    (∀ p ∈ (after env steps k).detached, ∀ clock,
      (after env steps k).reindexSession env clock p.1 p.2 = after env steps k) := by
  have hsound : (after env steps k).IndexSound env fun _ _ => True := by
    refine stateAt_keeps (P := IndexSound env fun _ _ => True) (Nat.zero_le k)
      indexSound_empty ?_
    intro j step _ hj hstep hm
    refine hm.perform hdistinct (hapart j (Nat.le_of_lt hj)) (fun _ _ => ⟨trivial, ?_⟩) ?_
    · exact fun _ _ _ => trivial
    · have hnext := hapart (j + 1) hj
      rwa [after, stateAt_succ hstep] at hnext
  refine ⟨?_, hsound.consistent.entry, fun p hp clock => hsound.reindexSession_gone clock hp⟩
  intro tag e hlookup
  have hlists := hsound.consistent.lists tag e hlookup
  exact ⟨hlists, hsound.present _ tag hlists⟩

/-- Secrets that can be compared one by one. -/
theorem secretsApart_of_entries (h : ∀ e ∈ m.sessions.entries, ∀ e' ∈ m.sessions.entries,
    e.1 ≠ e'.1 → ∀ secret ∈ e.2.liveSecrets, secret ∉ e'.2.liveSecrets) : m.SecretsApart := by
  intro id id' x x' secret hx hx' hsecret hsecret'
  by_contra hne
  exact h ⟨id, x⟩ (Table.mem_entries_iff.mpr hx) ⟨id', x'⟩ (Table.mem_entries_iff.mpr hx') hne
    secret hsecret hsecret'

theorem tagsDistinct_sampleEnv : sampleEnv.TagsDistinct := by
  intro secret counter window secret' counter' window' h
  simp only [sampleEnv, Prod.mk.injEq] at h
  exact h

/-- Two clients get sessions; the first is refreshed, ratchets, and is removed while a worker still
holds it. -/
def indexedRun : List (Step (Bytes32 × Nat × UInt64)) :=
  [.createClientSession (sampleCall ⟨0, 100⟩ 1 1 none),
    .createClientSession (sampleCall ⟨1, 100⟩ 3 2 none),
    .onSession ⟨10000000000, 101⟩ (sampleId 1) .refreshStale,
    .onSession ⟨10000000001, 101⟩ (sampleId 1) .completeRatchet,
    .removeSession (sampleId 1),
    .reindexDetached ⟨10000000002, 101⟩ 0]

theorem tag_index_consistent_indexedRun :
    (∀ j ≤ 6, (after sampleEnv indexedRun j).SecretsApart) ∧
    ∀ id tag, (after sampleEnv indexedRun 6).index.Lists id tag →
      ∃ e, (after sampleEnv indexedRun 6).tagMap.lookup tag = some e ∧ e.sessionId = id := by
  have hapart : ∀ j ≤ 6, (after sampleEnv indexedRun j).SecretsApart := by
    intro j hj
    apply secretsApart_of_entries
    match j, hj with
    | 0, _ | 1, _ | 2, _ | 3, _ | 4, _ | 5, _ | 6, _ => decide +kernel
  exact ⟨hapart,
    (tag_index_consistent sampleEnv tagsDistinct_sampleEnv indexedRun 6 hapart).2.1⟩

/-! ### A keyspace that is used again -/

def samplePeer (clock : Clock) (id : UInt8) : PeerCall where
  clock := clock
  clientAddr := sampleAddr
  ephPub := sampleKey 1
  poolKeys := ⟨sampleKey 5⟩
  poolPsk := sampleKey 6
  sessionId := sampleId id
  serverEph := ⟨sampleKey 9⟩

def peerSecret : Bytes32 :=
  (((samplePeer ⟨0, 100⟩ 1).initialKeys sampleEnv).map SessionKeys.tagSecret).getD (sampleKey 0)

/-- A peer opens a session and keeps it alive; a minute later it opens another one with the same
ephemeral key, and then the tags of the first session are refreshed. -/
def repeatedKeyspace : List (Step (Bytes32 × Nat × UInt64)) :=
  [.createMaskedPoolPeerSession (samplePeer ⟨0, 100⟩ 1),
    .onSession ⟨25000000000, 102⟩ (sampleId 1) (.accept peerSecret 0 sampleAddr 100),
    .onSession ⟨50000000000, 105⟩ (sampleId 1) (.accept peerSecret 1 sampleAddr 100),
    .createMaskedPoolPeerSession (samplePeer ⟨60000000000, 106⟩ 2),
    .onSession ⟨60000000001, 106⟩ (sampleId 1) .refreshStale]

/-- A tag of the second session leads to the first one. -/
theorem shared_keyspace_takes_tags :
    sampleEnv.TagsDistinct ∧
    (after sampleEnv repeatedKeyspace 5).index.Lists (sampleId 2) (peerSecret, 2, 106) ∧
    ¬∃ e, (after sampleEnv repeatedKeyspace 5).tagMap.lookup (peerSecret, 2, 106) = some e ∧
      e.sessionId = sampleId 2 := by
  -- the second session has its tags in the index when it is created
  have hcreated : (after sampleEnv repeatedKeyspace 4).index.Lists (sampleId 2)
      (peerSecret, 2, 106) := by
    have hanswer : ((after sampleEnv repeatedKeyspace 3).createMaskedPoolPeerSession sampleEnv
        (samplePeer ⟨60000000000, 106⟩ 2)).1.isOk = true := by decide +kernel
    have hstep : after sampleEnv repeatedKeyspace 4 =
        ((after sampleEnv repeatedKeyspace 3).createMaskedPoolPeerSession sampleEnv
          (samplePeer ⟨60000000000, 106⟩ 2)).2 := rfl
    rw [hstep]
    rcases createMaskedPoolPeerSession_cases sampleEnv (after sampleEnv repeatedKeyspace 3)
        (samplePeer ⟨60000000000, 106⟩ 2) with
      ⟨e, hfail | ⟨keys, -, hfail⟩⟩ | ⟨keys, ratchetedKeys, -, hkeys, -, hok⟩
    · rw [hfail] at hanswer
      cases hanswer
    · rw [hfail] at hanswer
      cases hanswer
    · have hsecret : keys.tagSecret = peerSecret := by
        have heq : ((samplePeer ⟨60000000000, 106⟩ 2).initialKeys sampleEnv).map
            SessionKeys.tagSecret = some peerSecret := by decide +kernel
        rw [hkeys] at heq
        exact Option.some.inj heq
      have hmem : (keys.tagSecret, 2, 106) ∈ (ManagedSession.opened keys ratchetedKeys
          ⟨60000000000, 106⟩ sampleAddr true).indexEntries sampleEnv (sampleId 2)
            ⟨60000000000, 106⟩ :=
        ManagedSession.mem_indexEntries (ManagedSession.active_mem_tagSources _ _)
          (Session.mem_expectedTags_opened keys ratchetedKeys _ (by decide)) (by decide)
      rw [hsecret] at hmem
      rw [hok, createdPeer, insertSession_indexed (ManagedSession.removed_opened _ _ _ _ _)]
      exact OwnedIndex.lists_publish.mpr ((if_pos rfl).mpr hmem)
  -- the refresh of the first session puts its own entries in their place
  have hfirst : ((after sampleEnv repeatedKeyspace 4).sessions.lookup (sampleId 1)).any (fun x =>
      let refreshed := x.apply sampleCrypto ⟨60000000001, 106⟩ .refreshStale
      x.core.removed = false && refreshed.2 && refreshed.1.core.keys.tagSecret = peerSecret &&
        2 ∈ refreshed.1.core.expectedTags) = true := by decide +kernel
  obtain ⟨x, hlookup, hx⟩ := exists_of_any hfirst
  simp only [Bool.and_eq_true, decide_eq_true_eq] at hx
  obtain ⟨⟨⟨hremoved, hflag⟩, hsecret⟩, hcounter⟩ := hx
  have hstep : after sampleEnv repeatedKeyspace 5 =
      (after sampleEnv repeatedKeyspace 4).onSession sampleEnv ⟨60000000001, 106⟩ (sampleId 1)
        .refreshStale := rfl
  rw [hstep, onSession_indexed hlookup hremoved hflag]
  refine ⟨tagsDistinct_sampleEnv, ?_, ?_⟩
  · exact OwnedIndex.lists_publish.mpr ((if_neg (by decide)).mpr hcreated)
  · rintro ⟨e, he, howner⟩
    have hmem : (peerSecret, 2, 106) ∈ (x.apply sampleCrypto ⟨60000000001, 106⟩
        .refreshStale).1.indexEntries sampleEnv (sampleId 1) ⟨60000000001, 106⟩ := by
      rw [← hsecret]
      exact ManagedSession.mem_indexEntries (ManagedSession.active_mem_tagSources _ _) hcounter
        (by decide)
    obtain ⟨e', he'⟩ := Table.mem_iff_lookup.mp hmem
    have heq : some e = some e' := he.symm.trans (OwnedIndex.lookup_publish_new he')
    cases heq
    rw [(ManagedSession.of_lookup_indexEntries he').1] at howner
    exact absurd howner (by decide)

end SessionManager

end AivpnSpec.Server
