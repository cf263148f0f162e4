import AivpnSpec.Server.Manager.Settled

/-!
# Finding the session of a packet

A tag is looked for in the index, then in the windows of the sessions of the same address, then in
the index again after all windows have been refreshed, and last in a search ahead of the counters.
Whatever is found belongs to a session of the table and has not been accepted yet. A tag that a
session waits for is found if the scan is allowed, whatever the address, unless another candidate of
the packet is a tag of a session too: an indexed tag that is no longer fresh ends the search.
-/

namespace AivpnSpec.Server

open AivpnSpec.Base AivpnSpec.Common AivpnSpec.Wire List

namespace ManagedSession

variable {T : Type} {env : ManagerEnv T} {clock past : Clock} {x : ManagedSession} {tag : T}
  {counter counter' now : Nat} {isRatcheted isRatcheted' : Bool} {keys : SessionKeys}
  {secret : Bytes32} {window : UInt64} {counters : Finset Nat} {s : Session}

/-! ### Sound answers -/

/-- What a tag may be found to be: a fresh counter under the current keys, one of the previous epoch
that was not received within its grace period, or one of the keys that the session is prepared
for. -/
inductive TagOf (env : ManagerEnv T) (clock : Clock) (x : ManagedSession) (tag : T) :
    Nat → Bool → Prop where
  | current (counter : Nat) (window : UInt64)
      (htag : env.generateResonanceTag x.core.keys.tagSecret counter window = tag)
      (hfresh : x.core.counterIsFresh counter = true) : TagOf env clock x tag counter false
  | previous (counter : Nat) (window : UInt64) (keys : SessionKeys)
      (hgrace : x.core.preRatchetKeysInGrace clock.now = some keys)
      (htag : env.generateResonanceTag keys.tagSecret counter window = tag)
      (hmem : counter ∈ x.core.preRatchetTags) (hnew : counter ∉ x.core.preRatchetReceived) :
      TagOf env clock x tag counter false
  | ratcheted (counter : Nat) (window : UInt64) (keys : SessionKeys)
      (hpending : x.core.isRatcheted = false) (hkeys : x.core.ratchetedKeys = some keys)
      (htag : env.generateResonanceTag keys.tagSecret counter window = tag) :
      TagOf env clock x tag counter true

section Search

variable [DecidableEq T]

theorem of_findStored (h : findStored env secret counters window tag = some counter) :
    counter ∈ counters ∧ env.generateResonanceTag secret counter window = tag := by
  have hmem := mem_of_find?_eq_some h
  have htag := find?_some h
  exact ⟨(Finset.mem_sort _).mp hmem, of_decide_eq_true htag⟩

theorem of_findComputed {first count : Nat} {windows : List UInt64}
    (h : findComputed env secret first count windows tag = some counter) :
    ∃ window, env.generateResonanceTag secret counter window = tag := by
  obtain ⟨window, -, hfind⟩ := exists_of_findSome?_eq_some h
  have htag := find?_some hfind
  exact ⟨window, of_decide_eq_true htag⟩

theorem of_findCurrent (h : x.findCurrent env clock tag = some counter) :
    ∃ window, env.generateResonanceTag x.core.keys.tagSecret counter window = tag := by
  rcases Option.or_eq_some_iff.mp h with hstored | ⟨-, hcomputed⟩
  · exact ⟨_, (of_findStored hstored).2⟩
  · exact of_findComputed hcomputed

theorem of_findRatcheted (h : x.findRatcheted env clock tag = some counter) :
    TagOf env clock x tag counter true := by
  obtain ⟨keys, hkeys, hfind⟩ := Option.bind_eq_some_iff.mp h
  split at hkeys
  · cases hkeys
  next hpending =>
  have hpending : x.core.isRatcheted = false := by simpa using hpending
  rcases Option.or_eq_some_iff.mp hfind with hstored | ⟨-, hcomputed⟩
  · exact .ratcheted counter _ keys hpending hkeys (of_findStored hstored).2
  · obtain ⟨window, htag⟩ := of_findComputed hcomputed
    exact .ratcheted counter window keys hpending hkeys htag

/-- What `validate_tag` answers. -/
theorem of_validateTag (h : x.validateTag env clock tag = some (counter, isRatcheted)) :
    TagOf env clock x tag counter isRatcheted := by
  unfold validateTag at h
  split at h
  · next found hfound =>
    obtain ⟨window, htag⟩ := of_findCurrent hfound
    split at h
    · next hfresh =>
      cases h
      exact .current counter window htag hfresh
    · cases h
  · split at h
    · next found hfound =>
      obtain ⟨keys, hgrace, hstored⟩ := Option.bind_eq_some_iff.mp hfound
      obtain ⟨hmem, htag⟩ := of_findStored hstored
      split at h
      · cases h
      · next hnew =>
        cases h
        exact .previous counter _ keys hgrace htag hmem hnew
    · obtain ⟨found, hfound, heq⟩ := Option.map_eq_some_iff.mp h
      cases heq
      exact of_findRatcheted hfound

end Search

def pendingSecret (x : ManagedSession) : Option Bytes32 :=
  (if x.core.isRatcheted then none else x.core.ratchetedKeys).map SessionKeys.tagSecret

def graceSecret (x : ManagedSession) (now : Nat) : Option Bytes32 :=
  (x.core.preRatchetKeysInGrace now).map SessionKeys.tagSecret

/-- The secrets of a settled session differ. -/
theorem Settled.ratcheted_not_mem (h : x.Settled) (hkeys : x.core.ratchetedKeys = some keys) :
    keys.tagSecret ∉ x.ingress.epochs := by
  have hdistinct := h.distinct
  unfold secrets at hdistinct
  rw [hkeys] at hdistinct
  exact (nodup_cons.mp hdistinct).1

theorem Settled.current_mem (h : x.Settled) : x.core.keys.tagSecret ∈ x.ingress.epochs := by
  obtain ⟨older, hepochs, -⟩ := h.sound.epoch
  rw [hepochs]
  exact mem_cons_self

theorem Settled.previous_mem (h : x.Settled) (hkeys : x.core.preRatchetKeys = some keys) :
    keys.tagSecret ∈ x.ingress.epochs ∧ keys.tagSecret ≠ x.core.keys.tagSecret := by
  obtain ⟨older, hepochs, hprevious⟩ := h.sound.epoch
  have hdistinct := epochs_nodup h.distinct
  have hmem := hprevious keys hkeys
  rw [hepochs] at hdistinct ⊢
  refine ⟨mem_cons_of_mem _ hmem, ?_⟩
  intro heq
  exact (nodup_cons.mp hdistinct).1 (heq ▸ hmem)

/-- The keys that a secret of the session belongs to. -/
def epochOf (x : ManagedSession) (secret : Bytes32) : TagEpoch :=
  if secret ∉ x.ingress.epochs then .ratcheted
  else if secret = x.core.keys.tagSecret then .active else .grace

theorem Settled.epochOf_current (h : x.Settled) : x.epochOf x.core.keys.tagSecret = .active := by
  simp [epochOf, h.current_mem]

theorem Settled.epochOf_ratcheted (h : x.Settled) (hkeys : x.core.ratchetedKeys = some keys) :
    x.epochOf keys.tagSecret = .ratcheted := by
  simp [epochOf, h.ratcheted_not_mem hkeys]

theorem Settled.epochOf_previous (h : x.Settled) (hkeys : x.core.preRatchetKeys = some keys) :
    x.epochOf keys.tagSecret = .grace := by
  simp [epochOf, h.previous_mem hkeys]

/-- What is found has not been accepted. -/
theorem TagOf.not_accepted (h : TagOf env clock x tag counter isRatcheted) (hx : x.Settled) :
    ∃ secret window, env.generateResonanceTag secret counter window = tag ∧
      secret ∈ x.secrets ∧
      (if isRatcheted then x.pendingSecret = some secret
        else secret = x.core.keys.tagSecret ∨ x.graceSecret clock.now = some secret) ∧
      (secret, counter) ∉ x.ingress.accepted := by
  cases h with
  | current window htag hfresh =>
    refine ⟨_, window, htag, mem_append_right _ hx.current_mem, .inl rfl, ?_⟩
    intro haccepted
    have hstale : x.core.counterIsFresh counter = false := hx.sound.current counter haccepted
    rw [hstale] at hfresh
    cases hfresh
  | previous window keys hgrace htag hmem hnew =>
    have hkeys := Session.preRatchetKeys_of_inGrace hgrace
    refine ⟨_, window, htag, mem_append_right _ (hx.previous_mem hkeys).1, .inr ?_, ?_⟩
    · rw [graceSecret, hgrace]
      rfl
    · intro haccepted
      rcases hx.sound.previous keys hkeys counter haccepted with hreceived | ⟨hnone, -⟩
      · exact hnew hreceived
      · exact hnone hmem
  | ratcheted window keys hpending hkeys htag =>
    refine ⟨_, window, htag, ?_, ?_, ?_⟩
    · simp [secrets, hkeys]
    · rw [pendingSecret, hpending, hkeys]
      rfl
    · exact fun haccepted => hx.ratcheted_not_mem hkeys (hx.sound.known _ haccepted)

/-- A tag that is found is one of a secret of the session, which tells whether the keys are the
pending ones. -/
theorem TagOf.live (h : TagOf env clock x tag counter isRatcheted) (hx : x.Settled) :
    ∃ secret ∈ x.liveSecrets, ∃ window, env.generateResonanceTag secret counter window = tag ∧
      isRatcheted = decide (x.epochOf secret = .ratcheted) := by
  unfold liveSecrets
  cases h with
  | current window htag =>
    exact ⟨_, mem_cons_self, window, htag, by rw [hx.epochOf_current]; rfl⟩
  | previous window keys hgrace htag =>
    have hkeys := Session.preRatchetKeys_of_inGrace hgrace
    exact ⟨_, by simp [hkeys], window, htag, by rw [hx.epochOf_previous hkeys]; rfl⟩
  | ratcheted window keys hpending hkeys htag =>
    exact ⟨_, by simp [hkeys], window, htag, by rw [hx.epochOf_ratcheted hkeys]; rfl⟩

/-- A tag is found in one way. -/
theorem TagOf.unique (hdistinct : env.TagsDistinct) (hx : x.Settled)
    (h : TagOf env clock x tag counter isRatcheted)
    (h' : TagOf env clock x tag counter' isRatcheted') :
    counter = counter' ∧ isRatcheted = isRatcheted' := by
  obtain ⟨secret, -, window, htag, hepoch⟩ := h.live hx
  obtain ⟨secret', -, window', htag', hepoch'⟩ := h'.live hx
  obtain ⟨rfl, rfl, -⟩ := hdistinct _ _ _ _ _ _ (htag.trans htag'.symm)
  exact ⟨rfl, hepoch.trans hepoch'.symm⟩

/-- The tag of a counter that is no longer fresh under the current keys is not found. -/
theorem Settled.not_tagOf (hdistinct : env.TagsDistinct) (hx : x.Settled)
    (htag : env.generateResonanceTag x.core.keys.tagSecret counter window = tag)
    (hstale : x.core.counterIsFresh counter = false) :
    ¬TagOf env clock x tag counter' isRatcheted := by
  intro h
  cases h with
  | current window' htag' hfresh =>
    obtain ⟨-, rfl, -⟩ := hdistinct _ _ _ _ _ _ (htag'.trans htag.symm)
    rw [hstale] at hfresh
    cases hfresh
  | previous window' keys hgrace htag' =>
    obtain ⟨hsecret, -, -⟩ := hdistinct _ _ _ _ _ _ (htag'.trans htag.symm)
    exact (hx.previous_mem (Session.preRatchetKeys_of_inGrace hgrace)).2 hsecret
  | ratcheted window' keys hpending hkeys htag' =>
    obtain ⟨hsecret, -, -⟩ := hdistinct _ _ _ _ _ _ (htag'.trans htag.symm)
    exact hx.ratcheted_not_mem hkeys (hsecret ▸ hx.current_mem)

/-! ### Tags that are waited for -/

/-- A tag of a window next to the current one that a session waits for: a fresh counter around the
centre under the current keys, one of the first counters under the keys that the session is prepared
for, or one of the previous epoch that was not received within its grace period. -/
inductive Awaits (env : ManagerEnv T) (clock : Clock) (x : ManagedSession) (tag : T) :
    Nat → Bool → Prop where
  | current (counter : Nat) (window : UInt64)
      (hwindow : SessionManager.windowsAdjacent window clock.window = true)
      (htag : env.generateResonanceTag x.core.keys.tagSecret counter window = tag)
      (hfresh : x.core.counterIsFresh counter = true)
      (hlow : x.core.tagSearchCenter - 511 ≤ counter)
      (hhigh : counter ≤ x.core.tagSearchCenter + 383) (hbound : counter ≤ u64Max) :
      Awaits env clock x tag counter false
  | ratcheted (counter : Nat) (window : UInt64) (keys : SessionKeys)
      (hwindow : SessionManager.windowsAdjacent window clock.window = true)
      (hpending : x.core.isRatcheted = false) (hkeys : x.core.ratchetedKeys = some keys)
      (htag : env.generateResonanceTag keys.tagSecret counter window = tag)
      (hlow : counter < 512) : Awaits env clock x tag counter true
  | previous (counter : Nat) (window : UInt64) (keys : SessionKeys)
      (hwindow : SessionManager.windowsAdjacent window clock.window = true)
      (hgrace : x.core.preRatchetKeysInGrace clock.now = some keys)
      (htag : env.generateResonanceTag keys.tagSecret counter window = tag)
      (hmem : counter ∈ x.core.preRatchetTags) (hnew : counter ∉ x.core.preRatchetReceived) :
      Awaits env clock x tag counter false

theorem Awaits.tagOf (h : Awaits env clock x tag counter isRatcheted) :
    TagOf env clock x tag counter isRatcheted := by
  cases h with
  | current window hwindow htag hfresh => exact .current counter window htag hfresh
  | ratcheted window keys hwindow hpending hkeys htag =>
    exact .ratcheted counter window keys hpending hkeys htag
  | previous window keys hwindow hgrace htag hmem hnew =>
    exact .previous counter window keys hgrace htag hmem hnew

/-- Adjacent windows are indexed. -/
theorem mem_indexedWindows {now : UInt64} (h : SessionManager.windowsAdjacent window now = true) :
    window ∈ indexedWindows now := by
  simp only [SessionManager.windowsAdjacent, Bool.and_eq_true, decide_eq_true_eq] at h
  simp only [indexedWindows, mem_cons, not_mem_nil, or_false]
  have hbound := window.toNat_lt
  have hbound' := now.toNat_lt
  rcases Nat.lt_trichotomy window.toNat now.toNat with hlt | heq | hgt
  · left
    apply UInt64.toNat_inj.mp
    rw [UInt64.toNat_sub]
    simp only [UInt64.toNat_one]
    omega
  · exact .inr (.inl (UInt64.toNat_inj.mp heq))
  · right
    right
    apply UInt64.toNat_inj.mp
    rw [UInt64.toNat_add]
    simp only [UInt64.toNat_one]
    omega

/-- A counter around the centre has a precomputed tag. -/
theorem Settled.mem_expectedTags (h : x.Settled) (hlow : x.core.tagSearchCenter - 511 ≤ counter)
    (hhigh : counter ≤ x.core.tagSearchCenter + 383) (hbound : counter ≤ u64Max) :
    counter ∈ x.core.expectedTags := by
  have hwindows : x.core.WindowsSound := h.sound.windows
  have hbase := h.windows.base
  have hnear := h.windows.near
  have hreach := hwindows.reach
  rw [hwindows.range, Finset.mem_Icc]
  unfold tagWindowSize at hreach ⊢
  omega

/-- The grace period that has not ended now had not ended before. -/
theorem preRatchetKeysInGrace_earlier {past : Nat} (hle : past ≤ now)
    (h : s.preRatchetKeysInGrace now = some keys) : s.preRatchetKeysInGrace past = some keys := by
  unfold Session.preRatchetKeysInGrace at h ⊢
  split at h
  · next hgrace =>
    obtain ⟨expire, hexpire, hlt⟩ := (Option.any_eq_true _ _).mp hgrace
    have hlt := of_decide_eq_true hlt
    rw [hexpire, Option.any_some, if_pos (decide_eq_true (by omega))]
    exact h
  · cases h

/-- The maps that are indexed at a moment. -/
theorem mem_tagSources {source : TagEpoch × Bytes32 × Finset Nat} :
    source ∈ x.tagSources now ↔
      source = (.active, x.core.keys.tagSecret, x.core.expectedTags) ∨
      (∃ keys, x.core.isRatcheted = false ∧ x.core.ratchetedKeys = some keys ∧
        source = (.ratcheted, keys.tagSecret, x.core.ratchetedExpectedTags)) ∨
      (∃ keys, x.core.preRatchetKeysInGrace now = some keys ∧
        source = (.grace, keys.tagSecret, x.core.preRatchetTags)) := by
  unfold tagSources
  cases hratcheted : x.core.isRatcheted with
  | false | true => simp [eq_comm]

theorem Settled.epoch_of_mem (h : x.Settled) {epoch : TagEpoch}
    (hsource : (epoch, secret, counters) ∈ x.tagSources now) : epoch = x.epochOf secret := by
  rcases mem_tagSources.mp hsource with heq | ⟨keys, -, hkeys, heq⟩ | ⟨keys, hgrace, heq⟩
  · cases heq
    exact h.epochOf_current.symm
  · cases heq
    exact (h.epochOf_ratcheted hkeys).symm
  · cases heq
    exact (h.epochOf_previous (Session.preRatchetKeys_of_inGrace hgrace)).symm

/-- What a session waits for is in its index if it was indexed in the current window. -/
theorem Awaits.mem_indexEntries [DecidableEq T] (hx : x.Settled)
    (h : Awaits env clock x tag counter isRatcheted) (id : SessionId)
    (hpast : past.window = clock.window) (hnow : past.now ≤ clock.now) :
    tag ∈ x.indexEntries env id past := by
  have hwindows : x.core.WindowsSound := hx.sound.windows
  cases h with
  | current window hwindow htag hfresh hlow hhigh hbound =>
    rw [← htag]
    exact ManagedSession.mem_indexEntries (x.active_mem_tagSources past.now)
      (hx.mem_expectedTags hlow hhigh hbound) (hpast ▸ mem_indexedWindows hwindow)
  | ratcheted window keys hwindow hpending hkeys htag hlow =>
    rw [← htag]
    refine ManagedSession.mem_indexEntries (mem_tagSources.mpr (.inr (.inl ⟨keys, hpending, hkeys,
      rfl⟩))) ?_ (hpast ▸ mem_indexedWindows hwindow)
    rw [(hwindows.ratcheted (by rw [hkeys]; rfl)).1]
    exact Finset.mem_range.mpr hlow
  | previous window keys hwindow hgrace htag hmem hnew =>
    rw [← htag]
    exact ManagedSession.mem_indexEntries (mem_tagSources.mpr (.inr (.inr ⟨keys,
      preRatchetKeysInGrace_earlier hnow hgrace, rfl⟩))) hmem (hpast ▸ mem_indexedWindows hwindow)

/-- A fresh counter around the centre passes the check of an indexed tag. -/
theorem indexedFresh_of_fresh (hfresh : s.counterIsFresh counter = true)
    (hhigh : counter ≤ s.tagSearchCenter + 383) (hbound : counter ≤ u64Max) :
    SessionManager.indexedFresh s counter = true := by
  unfold SessionManager.indexedFresh
  split
  · apply decide_eq_true
    unfold saturatingAdd Session.windowForward tagWindowSize
    omega
  · next hold =>
    unfold Session.counterIsFresh at hfresh
    rw [decide_eq_false hold, Bool.false_or] at hfresh
    exact hfresh

/-- An entry of the index for a tag that the session waits for passes all checks. -/
theorem Awaits.entry_valid [DecidableEq T] (hdistinct : env.TagsDistinct) (hx : x.Settled)
    (h : Awaits env clock x tag counter isRatcheted) {id : SessionId} {e : IndexedTag}
    (he : (x.indexEntries env id past).lookup tag = some e) :
    e.counter = counter ∧ decide (e.epoch = .ratcheted) = isRatcheted ∧
      SessionManager.windowsAdjacent e.timeWindow clock.window = true ∧
      ∃ keys, SessionManager.keysOfEntry x clock e = some keys ∧
        env.generateResonanceTag keys.tagSecret e.counter e.timeWindow = tag := by
  obtain ⟨-, secret, counters, hsource, -, -, htag'⟩ :=
    mem_indexPairs.mp (Table.mem_of_lookup_ofList he)
  have hepoch := hx.epoch_of_mem hsource
  unfold SessionManager.keysOfEntry
  cases h with
  | current window hwindow htag hfresh hlow hhigh hbound =>
    obtain ⟨rfl, rfl, rfl⟩ := hdistinct _ _ _ _ _ _ (htag'.trans htag.symm)
    rw [hepoch, hx.epochOf_current]
    exact ⟨rfl, rfl, hwindow, x.core.keys, if_pos (indexedFresh_of_fresh hfresh hhigh hbound),
      htag⟩
  | ratcheted window keys hwindow hpending hkeys htag hlow =>
    obtain ⟨rfl, rfl, rfl⟩ := hdistinct _ _ _ _ _ _ (htag'.trans htag.symm)
    rw [hepoch, hx.epochOf_ratcheted hkeys, hpending, hkeys]
    exact ⟨rfl, rfl, hwindow, keys, rfl, htag⟩
  | previous window keys hwindow hgrace htag hmem hnew =>
    obtain ⟨rfl, rfl, rfl⟩ := hdistinct _ _ _ _ _ _ (htag'.trans htag.symm)
    rw [hepoch, hx.epochOf_previous (Session.preRatchetKeys_of_inGrace hgrace)]
    exact ⟨rfl, rfl, hwindow, keys, (if_pos ⟨hmem, hnew⟩).trans hgrace, htag⟩

/-- A refresh rebuilds the tags of the current and of the pending keys only: those of the previous
epoch are up to date. -/
theorem core_refreshStale (env : CryptoEnv) (clock : Clock) (h : x.core.Settled) :
    ∃ tags base ratcheted, (x.apply env clock .refreshStale).1.core =
      { x.core with
        expectedTags := tags, tagWindowBase := base, ratchetedExpectedTags := ratcheted } := by
  have hprevious : x.core.previousAdvanced clock.now = false := by
    unfold Session.previousAdvanced
    cases hmono : x.core.preRatchetMonotonic with
    | false => rfl
    | true =>
      have hnear := h.previous hmono
      rw [decide_eq_false (by omega), Bool.and_false]
  have hupdated : ∃ tags base, x.core.updateTagWindow clock.now =
      { x.core with expectedTags := tags, tagWindowBase := base } := by
    unfold Session.updateTagWindow
    rw [if_neg (by rw [hprevious]; decide)]
    exact ⟨_, _, rfl⟩
  simp only [ManagedSession.apply]
  split
  · exact ⟨_, _, _, rfl⟩
  obtain ⟨tags, base, hupdated⟩ := hupdated
  show ∃ tags base ratcheted, (x.core.updateTagWindow clock.now).updateRatchetedTagWindow =
    { x.core with
      expectedTags := tags, tagWindowBase := base, ratchetedExpectedTags := ratcheted }
  rw [hupdated]
  unfold Session.updateRatchetedTagWindow
  split <;> exact ⟨_, _, _, rfl⟩

/-- A refresh does not lose what the session waits for. -/
theorem Awaits.refreshStale (h : Awaits env clock x tag counter isRatcheted) (hx : x.Settled) :
    Awaits env clock (x.apply env.crypto clock .refreshStale).1 tag counter isRatcheted := by
  obtain ⟨tags, base, ratcheted, hcore⟩ := core_refreshStale env.crypto clock hx.windows
  generalize (x.apply env.crypto clock .refreshStale).1 = refreshed at hcore ⊢
  obtain ⟨⟨core⟩⟩ := refreshed
  subst hcore
  cases h with
  | current window hwindow htag hfresh hlow hhigh hbound =>
    exact .current counter window hwindow htag hfresh hlow hhigh hbound
  | ratcheted window keys hwindow hpending hkeys htag hlow =>
    exact .ratcheted counter window keys hwindow hpending hkeys htag hlow
  | previous window keys hwindow hgrace htag hmem hnew =>
    exact .previous counter window keys hwindow hgrace htag hmem hnew

end ManagedSession

namespace SessionManager

variable {T : Type} [DecidableEq T] {env : ManagerEnv T} {m m' : SessionManager T} {clock : Clock}
  {tag first : T} {tags : List T} {id : SessionId} {counter : Nat} {isRatcheted : Bool}
  {clientIp : IpAddr} {order : List SessionId} {x : ManagedSession} {e : IndexedTag}
  {call : LookupCall T}

/-! ### What is found -/

omit [DecidableEq T] in
theorem of_keysOfEntry {keys : SessionKeys} (hkeys : keysOfEntry x clock e = some keys)
    (htag : env.generateResonanceTag keys.tagSecret e.counter e.timeWindow = tag) :
    x.TagOf env clock tag e.counter (decide (e.epoch = .ratcheted)) := by
  unfold keysOfEntry at hkeys
  split at hkeys
  · next hepoch =>
    rw [hepoch]
    split at hkeys
    · next hfresh =>
      cases hkeys
      apply ManagedSession.TagOf.current _ e.timeWindow htag
      unfold indexedFresh at hfresh
      unfold Session.counterIsFresh
      split at hfresh
      · next hahead => rw [decide_eq_true hahead, Bool.true_or]
      · rw [hfresh, Bool.or_true]
    · cases hkeys
  · next hepoch =>
    rw [hepoch]
    split at hkeys
    · cases hkeys
    · next hpending =>
      exact .ratcheted _ e.timeWindow keys (by simpa using hpending) hkeys htag
  · next hepoch =>
    rw [hepoch]
    split at hkeys
    · next hcounter => exact .previous _ e.timeWindow keys hkeys htag hcounter.1 hcounter.2
    · cases hkeys

/-- What the index answers. -/
theorem of_findSessionByTag
    (h : m.findSessionByTag env clock tag = .ok (some (id, counter, isRatcheted))) :
    ∃ x, m.sessions.lookup id = some x ∧ x.TagOf env clock tag counter isRatcheted := by
  unfold findSessionByTag at h
  split at h
  · cases h
  next entry hentry =>
  split at h
  · cases h
  next x hlookup =>
  split at h
  · next hvalid =>
    cases h
    simp only [Bool.and_eq_true] at hvalid
    obtain ⟨keys, hkeys, htag⟩ := (Option.any_eq_true _ _).mp hvalid.2
    exact ⟨x, hlookup, of_keysOfEntry hkeys (of_decide_eq_true htag)⟩
  · cases h

/-- An indexed tag that its session does not take is refused. -/
theorem findSessionByTag_refused (hentry : m.tagMap.lookup tag = some e)
    (hlookup : m.sessions.lookup e.sessionId = some x)
    (hnot : ∀ counter isRatcheted, ¬x.TagOf env clock tag counter isRatcheted) :
    m.findSessionByTag env clock tag = .error (.invalidPacket "Invalid indexed tag") := by
  unfold findSessionByTag
  rw [hentry]
  dsimp only
  rw [hlookup]
  dsimp only
  split
  · next hvalid =>
    rw [Bool.and_eq_true] at hvalid
    obtain ⟨keys, hkeys, htag⟩ := (Option.any_eq_true _ _).mp hvalid.2
    exact absurd (of_keysOfEntry hkeys (of_decide_eq_true htag)) (hnot _ _)
  · rfl

theorem of_probe (h : m.probe env clock tags = .ok (some (.found id counter isRatcheted tag))) :
    tag ∈ tags ∧ ∃ x, m.sessions.lookup id = some x ∧
      x.TagOf env clock tag counter isRatcheted := by
  induction tags with
  | nil => cases h
  | cons other rest ih =>
    unfold probe at h
    split at h
    · cases h
    · next hfound =>
      cases h
      exact ⟨mem_cons_self, of_findSessionByTag hfound⟩
    · obtain ⟨hmem, hx⟩ := ih h
      exact ⟨mem_cons_of_mem _ hmem, hx⟩

/-- What the refresh finds. -/
theorem of_refreshAndFindByTag
    (h : (refreshAndFindByTag env clock tag clientIp order m).1 = some (id, counter, isRatcheted)) :
    ∃ x, (refreshAndFindByTag env clock tag clientIp order m).2.sessions.lookup id = some x ∧
      x.TagOf env clock tag counter isRatcheted := by
  induction order generalizing m with
  | nil => cases h
  | cons candidate rest ih =>
    unfold refreshAndFindByTag at h ⊢
    dsimp only at h ⊢
    generalize m.onSession env clock candidate .refreshStale = refreshed at h ⊢
    cases hanswer : (refreshed.sessions.lookup candidate).bind fun x =>
        if x.clientAddr.ip = clientIp then x.validateTag env clock tag else none with
    | none =>
      rw [hanswer] at h
      exact ih h
    | some answer =>
      obtain ⟨found, flag⟩ := answer
      rw [hanswer] at h
      cases h
      obtain ⟨x, hlookup, hx⟩ := Option.bind_eq_some_iff.mp hanswer
      split at hx
      · exact ⟨x, hlookup, ManagedSession.of_validateTag hx⟩
      · cases hx

/-- What the recovery finds. -/
theorem of_recoverSessionByTag
    (h : m.recoverSessionByTag env clock tag clientIp order = some (id, counter, isRatcheted)) :
    ∃ x, m.sessions.lookup id = some x ∧ x.TagOf env clock tag counter isRatcheted := by
  induction order with
  | nil => cases h
  | cons candidate rest ih =>
    unfold recoverSessionByTag at h
    split at h
    · exact ih h
    next x hlookup =>
    dsimp only at h
    split at h
    · exact ih h
    next found hfound =>
    split at h
    · cases h
    next hvalid =>
    cases h
    obtain ⟨window, htag⟩ := ManagedSession.of_findComputed hfound
    have hfresh : x.core.counterIsFresh counter = true := by
      simp only [Bool.or_eq_true, not_or] at hvalid
      simpa using hvalid.2
    exact ⟨x, (Option.filter_eq_some_iff.mp hlookup).1, .current counter window htag hfresh⟩

theorem of_recover (h : m.recover env clock clientIp order tags =
      .found id counter isRatcheted tag) :
    tag ∈ tags ∧ ∃ x, m.sessions.lookup id = some x ∧
      x.TagOf env clock tag counter isRatcheted := by
  induction tags with
  | nil => cases h
  | cons other rest ih =>
    unfold recover at h
    split at h
    · next hfound =>
      cases h
      exact ⟨mem_cons_self, of_recoverSessionByTag hfound⟩
    · obtain ⟨hmem, hx⟩ := ih h
      exact ⟨mem_cons_of_mem _ hmem, hx⟩

/-- Whatever is found is a tag of a session of the table. -/
theorem of_findExistingSession
    (h : (m.findExistingSession env call).1 = .ok (.found id counter isRatcheted tag)) :
    tag ∈ call.tags ∧ ∃ x, (m.findExistingSession env call).2.sessions.lookup id = some x ∧
      x.TagOf env call.clock tag counter isRatcheted := by
  have hrefresh : (m.refreshWithFirst env call).1 = some (.found id counter isRatcheted tag) →
      tag ∈ call.tags ∧ ∃ x, (m.refreshWithFirst env call).2.sessions.lookup id = some x ∧
        x.TagOf env call.clock tag counter isRatcheted := by
    unfold refreshWithFirst
    cases htags : call.tags with
    | nil =>
      intro hfound
      cases hfound
    | cons first rest =>
      intro hfound
      rcases hresult : refreshAndFindByTag env call.clock first call.clientIp call.order m with
        ⟨_ | answer, refreshed⟩ <;> simp only [hresult] at hfound ⊢ <;> cases hfound
      have hsound := of_refreshAndFindByTag (congrArg Prod.fst hresult)
      rw [hresult] at hsound
      exact ⟨mem_cons_self, hsound⟩
  unfold findExistingSession at h ⊢
  split
  · next hprobe =>
    rw [hprobe] at h
    cases h
  · next found hprobe =>
    rw [hprobe] at h
    cases h
    exact of_probe hprobe
  · next hprobe =>
    rw [hprobe] at h
    split
    · next hlimited =>
      rw [if_pos hlimited] at h
      cases h
    next hallowed =>
    rw [if_neg hallowed] at h
    generalize m.refreshWithFirst env call = result at h hrefresh ⊢
    obtain ⟨answer, refreshed⟩ := result
    cases answer with
    | some found =>
      cases h
      exact hrefresh rfl
    | none =>
      dsimp only at h ⊢
      cases hagain : refreshed.probe env call.clock call.tags with
      | error e =>
        rw [hagain] at h
        cases h
      | ok answer =>
        rw [hagain] at h
        cases answer with
        | some found =>
          cases h
          exact of_probe hagain
        | none =>
          have hrecover : refreshed.recover env call.clock call.clientIp call.order call.tags =
              .found id counter isRatcheted tag := by
            simpa using h
          exact of_recover hrecover

/-! ### What must be found -/

/-- The last indexing was not before the window of the tags and not after now. -/
def IndexedBy (now : Clock) (window : UInt64) (past : Clock) : Prop :=
  window ≤ past.window ∧ past.window ≤ now.window ∧ past.now ≤ now.now

theorem renews_indexedBy (clock : Clock) : Renews (IndexedBy clock) clock where
  rebuilt := ⟨UInt64.le_refl _, UInt64.le_refl _, le_rfl⟩
  later := fun _ _ h => ⟨UInt64.le_trans h.1 h.2.1, UInt64.le_refl _, le_rfl⟩

def Unknown (env : ManagerEnv T) (m : SessionManager T) (tag : T) : Prop :=
  ∀ id x secret, m.sessions.lookup id = some x → secret ∈ x.liveSecrets →
    ∀ counter window, env.generateResonanceTag secret counter window ≠ tag

/-- A session of the table waits for a tag. -/
structure Waiting (env : ManagerEnv T) (clock : Clock) (m : SessionManager T) (id : SessionId)
    (tag : T) (counter : Nat) (isRatcheted : Bool) : Prop where
  index : m.IndexSound env (IndexedBy clock)
  settled : m.AllSettled
  apart : m.SecretsApart
  awaited : ∃ x, m.sessions.lookup id = some x ∧ x.Awaits env clock tag counter isRatcheted

/-- A tag of no session is not in the index. -/
theorem IndexSound.findSessionByTag_unknown {P : UInt64 → Clock → Prop} (h : m.IndexSound env P)
    (hunknown : Unknown env m tag) : m.findSessionByTag env clock tag = .ok none := by
  have hnone : m.tagMap.lookup tag = none := by
    cases hlookup : m.tagMap.lookup tag with
    | none => rfl
    | some e =>
      obtain ⟨x, hx, secret, hsecret, counter, window, htag⟩ :=
        h.secret_of_lists (h.consistent.lists tag e hlookup)
      exact absurd htag (hunknown _ x secret hx hsecret counter window)
  unfold findSessionByTag
  rw [hnone]

section

variable (hdistinct : env.TagsDistinct) (h : Waiting env clock m id tag counter isRatcheted)

include hdistinct h

/-- A tag that is waited for is found as soon as it is in the index. -/
theorem Waiting.findSessionByTag (hentry : m.tagMap.lookup tag = some e) :
    m.findSessionByTag env clock tag = .ok (some (id, counter, isRatcheted)) := by
  obtain ⟨x, hlookup, hawaits⟩ := h.awaited
  -- the entry belongs to a session with the secret of the tag, and there is only one
  have hlists := h.index.consistent.lists tag e hentry
  obtain ⟨x', hlookup'⟩ := h.index.present _ tag hlists
  obtain ⟨past, -, hlisted, hentries⟩ := h.index.mirror _ x' hlookup'
  obtain ⟨e', he'⟩ := Table.mem_iff_lookup.mp (hlisted tag hlists)
  have heq : e = e' := Option.some.inj (hentry.symm.trans (hentries tag e' he'))
  subst heq
  obtain ⟨-, secret', hsecret', htag'⟩ := ManagedSession.of_lookup_indexEntries he'
  have hsettled := h.settled.settled id x hlookup
  obtain ⟨secret, hsecret, window, htag, -⟩ := hawaits.tagOf.live hsettled
  obtain ⟨rfl, -, -⟩ := hdistinct _ _ _ _ _ _ (htag.trans htag'.symm)
  have hid := h.apart id e.sessionId x x' secret hlookup hlookup' hsecret hsecret'
  rw [← hid, hlookup] at hlookup'
  cases hlookup'
  obtain ⟨hcounter, hepoch, hwindow, keys, hkeys, hvalid⟩ :=
    hawaits.entry_valid hdistinct hsettled he'
  unfold SessionManager.findSessionByTag
  rw [hentry]
  dsimp only
  rw [← hid, hlookup]
  dsimp only
  rw [h.index.alive id x hlookup, hwindow, hkeys, Option.any_some, decide_eq_true hvalid, hcounter,
    hepoch]
  rfl

/-- The index is asked for a tag that is waited for and others that no session has. -/
theorem Waiting.probe (hothers : ∀ other ∈ tags, other ≠ tag → Unknown env m other) :
    (m.tagMap.lookup tag = none → m.probe env clock tags = .ok none) ∧
    (∀ e, m.tagMap.lookup tag = some e → tag ∈ tags →
      m.probe env clock tags = .ok (some (.found id counter isRatcheted tag))) := by
  induction tags with
  | nil => exact ⟨fun _ => rfl, fun _ _ hmem => absurd hmem not_mem_nil⟩
  | cons first rest ih =>
    obtain ⟨hmissing, hfound⟩ := ih fun other hother =>
      hothers other (mem_cons_of_mem _ hother)
    unfold SessionManager.probe
    by_cases hfirst : first = tag
    · subst hfirst
      refine ⟨?_, ?_⟩
      · intro hnone
        have hanswer : m.findSessionByTag env clock first = .ok none := by
          unfold SessionManager.findSessionByTag
          rw [hnone]
        rw [hanswer]
        exact hmissing hnone
      · intro e hentry _
        rw [h.findSessionByTag hdistinct hentry]
    · have hunknown := hothers first mem_cons_self hfirst
      rw [h.index.findSessionByTag_unknown hunknown]
      refine ⟨hmissing, ?_⟩
      intro e hentry hmem
      rcases mem_cons.mp hmem with heq | hmem
      · exact absurd heq.symm hfirst
      · exact hfound e hentry hmem

/-- The refresh of one session. -/
theorem Waiting.refreshStale (id' : SessionId) :
    Waiting env clock (m.onSession env clock id' .refreshStale) id tag counter isRatcheted := by
  have hchange : Change env (some clock) m (m.onSession env clock id' .refreshStale) :=
    .session m clock id' .refreshStale rfl rfl
  have hrenews : ∀ now, some clock = some now → Renews (IndexedBy clock) now := by
    rintro now ⟨⟩
    exact renews_indexedBy clock
  obtain ⟨hindex, hapart⟩ := h.index.change hdistinct h.apart hrenews hchange
  refine ⟨hindex, h.settled.change hchange, hapart, ?_⟩
  obtain ⟨x, hlookup, hawaits⟩ := h.awaited
  rw [lookup_onSession]
  split
  · next hid =>
    rw [← hid, hlookup]
    exact ⟨_, rfl, hawaits.refreshStale (h.settled.settled id x hlookup)⟩
  · exact ⟨x, hlookup, hawaits⟩

end

theorem Unknown.refreshStale (h : Unknown env m tag) (id' : SessionId) :
    Unknown env (m.onSession env clock id' .refreshStale) tag := by
  intro id x secret hlookup hsecret
  rw [lookup_onSession] at hlookup
  split at hlookup
  · obtain ⟨y, hy, rfl⟩ := Option.map_eq_some_iff.mp hlookup
    rw [ManagedSession.liveSecrets_apply_quiet env.crypto clock y rfl] at hsecret
    exact h id' y secret hy hsecret
  · exact h id x secret hlookup hsecret

def UpToDate (clock : Clock) (m : SessionManager T) (id : SessionId) : Prop :=
  ∀ x, m.sessions.lookup id = some x → x.times.tagWindowTw = clock.window

theorem upToDate_refreshStale (m : SessionManager T) (id : SessionId) :
    UpToDate clock (m.onSession env clock id .refreshStale) id := by
  intro x hlookup
  rw [lookup_onSession, if_pos rfl] at hlookup
  obtain ⟨y, hy, rfl⟩ := Option.map_eq_some_iff.mp hlookup
  simp only [ManagedSession.apply]
  split
  · next hcurrent => exact hcurrent
  show ((y.times.rebuilt clock.window _).after env.crypto clock.window _
    .updateRatchetedTagWindow).tagWindowTw = clock.window
  simp only [TagTimes.after]
  split <;> rfl

theorem UpToDate.refreshStale (h : UpToDate clock m id) (id' : SessionId) :
    UpToDate clock (m.onSession env clock id' .refreshStale) id := by
  by_cases hid : id = id'
  · subst hid
    exact upToDate_refreshStale m id
  · intro x hlookup
    rw [lookup_onSession, if_neg hid] at hlookup
    exact h x hlookup

/-- The refresh finds the tag, or it leaves all that is needed to find it in the index. -/
theorem Waiting.refreshAndFindByTag (hdistinct : env.TagsDistinct)
    (h : Waiting env clock m id tag counter isRatcheted) (clientIp : IpAddr)
    (hfirst : first ≠ tag → Unknown env m first) (horder : id ∈ order ∨ UpToDate clock m id) :
    let r := refreshAndFindByTag env clock first clientIp order m
    (r.1 = some (id, counter, isRatcheted) ∧ first = tag) ∨
    (r.1 = none ∧ Waiting env clock r.2 id tag counter isRatcheted ∧ UpToDate clock r.2 id ∧
      ∀ other, Unknown env m other → Unknown env r.2 other) := by
  induction order generalizing m with
  | nil =>
    refine .inr ⟨rfl, h, ?_, fun _ hother => hother⟩
    rcases horder with hmem | hcurrent
    · cases hmem
    · exact hcurrent
  | cons candidate rest ih =>
    unfold SessionManager.refreshAndFindByTag
    have hwaiting := h.refreshStale hdistinct candidate
    have hunknown : ∀ other, Unknown env m other →
        Unknown env (m.onSession env clock candidate .refreshStale) other :=
      fun other hother => hother.refreshStale candidate
    have horder' : id ∈ rest ∨
        UpToDate clock (m.onSession env clock candidate .refreshStale) id := by
      rcases horder with hmem | hcurrent
      · rcases mem_cons.mp hmem with rfl | hmem
        · exact .inr (upToDate_refreshStale m id)
        · exact .inl hmem
      · exact .inr (hcurrent.refreshStale candidate)
    dsimp only
    generalize m.onSession env clock candidate .refreshStale = refreshed at *
    have hfirst' := fun hne => hunknown first (hfirst hne)
    cases hanswer : (refreshed.sessions.lookup candidate).bind fun x =>
        if x.clientAddr.ip = clientIp then x.validateTag env clock first else none with
    | none =>
      rcases ih hwaiting hfirst' horder' with hfound | ⟨hnone, hrest, hcurrent, hothers⟩
      · exact .inl hfound
      · exact .inr ⟨hnone, hrest, hcurrent,
          fun other hother => hothers other (hunknown other hother)⟩
    | some answer =>
      -- whoever has the tag is the session that waits for it
      obtain ⟨y, hy, hvalid⟩ := Option.bind_eq_some_iff.mp hanswer
      obtain ⟨found, flag⟩ := answer
      split at hvalid
      · have htagOf := ManagedSession.of_validateTag hvalid
        have hsettled := hwaiting.settled.settled candidate y hy
        obtain ⟨secret, hsecret, window, htag, -⟩ := htagOf.live hsettled
        have heq : first = tag := by
          by_contra hne
          exact hfirst' hne candidate y secret hy hsecret found window htag
        subst heq
        obtain ⟨x, hlookup, hawaits⟩ := hwaiting.awaited
        obtain ⟨secret', hsecret', window', htag', -⟩ :=
          hawaits.tagOf.live (hwaiting.settled.settled id x hlookup)
        obtain ⟨rfl, -, -⟩ := hdistinct _ _ _ _ _ _ (htag.trans htag'.symm)
        have hid := hwaiting.apart candidate id y x secret hy hlookup hsecret hsecret'
        subst hid
        rw [hlookup] at hy
        cases hy
        obtain ⟨rfl, rfl⟩ := htagOf.unique hdistinct hsettled hawaits.tagOf
        exact .inl ⟨rfl, rfl⟩
      · cases hvalid

/-- In an index that is up to date a tag that is waited for has an entry. -/
theorem Waiting.indexed (h : Waiting env clock m id tag counter isRatcheted)
    (hcurrent : UpToDate clock m id) : ∃ e, m.tagMap.lookup tag = some e := by
  obtain ⟨x, hlookup, hawaits⟩ := h.awaited
  obtain ⟨past, ⟨hafter, hbefore, hnow⟩, -, hentries⟩ := h.index.mirror id x hlookup
  rw [hcurrent x hlookup] at hafter
  have hmem := hawaits.mem_indexEntries (h.settled.settled id x hlookup) id
    (UInt64.le_antisymm hbefore hafter) hnow
  obtain ⟨e, he⟩ := Table.mem_iff_lookup.mp hmem
  exact ⟨e, hentries tag e he⟩

/-- A tag that a session waits for is found if the scan is allowed and visits the session. -/
theorem Waiting.findExistingSession (hdistinct : env.TagsDistinct)
    (h : Waiting env call.clock m id tag counter isRatcheted) (hmem : tag ∈ call.tags)
    (hothers : ∀ other ∈ call.tags, other ≠ tag → Unknown env m other)
    (hallowed : call.fallbackAllowed = true) (horder : id ∈ call.order) :
    (m.findExistingSession env call).1 = .ok (.found id counter isRatcheted tag) := by
  obtain ⟨hmissing, hfound⟩ := h.probe hdistinct hothers
  unfold SessionManager.findExistingSession
  cases hentry : m.tagMap.lookup tag with
  | some e => rw [hfound e hentry hmem]
  | none =>
    rw [hmissing hentry]
    rw [hallowed, if_neg (by decide)]
    unfold refreshWithFirst
    cases htags : call.tags with
    | nil =>
      rw [htags] at hmem
      cases hmem
    | cons first rest =>
      have hfirst : first ≠ tag → Unknown env m first := by
        apply hothers
        rw [htags]
        exact mem_cons_self
      have hrefresh := h.refreshAndFindByTag hdistinct call.clientIp hfirst (.inl horder)
      dsimp only
      generalize SessionManager.refreshAndFindByTag env call.clock first call.clientIp call.order
        m = result at hrefresh ⊢
      obtain ⟨answer, refreshed⟩ := result
      rcases hrefresh with ⟨hanswer, rfl⟩ | ⟨hanswer, hwaiting, hcurrent, hunknown⟩
      · cases hanswer
        rfl
      cases hanswer
      dsimp only at hwaiting hcurrent hunknown ⊢
      obtain ⟨e, he⟩ := hwaiting.indexed hcurrent
      have hagain := (hwaiting.probe hdistinct fun other hother hne =>
        hunknown other (hothers other hother hne)).2 e he hmem
      rw [htags] at hagain
      rw [hagain]

/-! ### Runs -/

def ClocksAdvance (steps : List (Step T)) : Prop :=
  steps.Pairwise fun earlier later => ∀ past now, earlier.clock = some past →
    later.clock = some now → past.now ≤ now.now ∧ past.window ≤ now.window

section Runs

variable {steps : List (Step T)} {k : Nat} {now : Clock}

omit [DecidableEq T] in
theorem ClocksAdvance.le (h : ClocksAdvance steps) {i j : Nat} {earlier later : Step T}
    {past : Clock} (hij : i < j) (hearlier : steps[i]? = some earlier)
    (hlater : steps[j]? = some later) (hpast : earlier.clock = some past)
    (hnow : later.clock = some now) : past.now ≤ now.now ∧ past.window ≤ now.window := by
  obtain ⟨hi, rfl⟩ := List.getElem?_eq_some_iff.mp hearlier
  obtain ⟨hj, rfl⟩ := List.getElem?_eq_some_iff.mp hlater
  exact pairwise_iff_getElem.mp h i j hi hj hij past now hpast hnow

theorem allSettled_after (hkeys : ∀ j ≤ k, (after env steps j).KeysDistinct) :
    (after env steps k).AllSettled := by
  refine stateAt_keeps (P := AllSettled) (Nat.zero_le k) allSettled_empty ?_
  intro j step _ hj hstep hm
  have hnext := hkeys (j + 1) hj
  rw [after, stateAt_succ hstep] at hnext
  exact hm.perform hnext

/-- At every moment the sessions were indexed not before their windows and not after the latest
reading of the clock. -/
theorem indexSound_after (hdistinct : env.TagsDistinct) (hclocks : ClocksAdvance steps)
    (hkeys : ∀ j ≤ k, (after env steps j).KeysDistinct)
    (hnow : ∀ (j : Nat) step past, j < k → steps[j]? = some step → step.clock = some past →
      past.now ≤ now.now ∧ past.window ≤ now.window) :
    (after env steps k).IndexSound env (IndexedBy now) := by
  induction k generalizing now with
  | zero => exact indexSound_empty
  | succ k ih =>
    have hkeys' : ∀ j ≤ k, (after env steps j).KeysDistinct :=
      fun j hj => hkeys j (Nat.le_succ_of_le hj)
    cases hstep : steps[k]? with
    | none =>
      have hsame : after env steps (k + 1) = after env steps k := stateAt_of_none hstep
      rw [hsame]
      exact ih hkeys' fun j step past hj => hnow j step past (Nat.lt_succ_of_lt hj)
    | some step =>
      have hapart := (allSettled_after hkeys').secretsApart (hkeys k (Nat.le_succ k))
      have hapart' := (allSettled_after hkeys).secretsApart (hkeys (k + 1) le_rfl)
      have hnext : after env steps (k + 1) = (after env steps k).perform env step :=
        stateAt_succ hstep
      rw [hnext] at hapart' ⊢
      cases hclock : step.clock with
      | none =>
        have hbefore := ih hkeys' fun j step past hj => hnow j step past (Nat.lt_succ_of_lt hj)
        refine hbefore.perform hdistinct hapart ?_ hapart'
        intro clock heq
        rw [hclock] at heq
        cases heq
      | some clock =>
        have hbefore : (after env steps k).IndexSound env (IndexedBy clock) := by
          refine ih hkeys' fun j earlier past hj hearlier hpast => ?_
          exact hclocks.le hj hearlier hstep hpast hclock
        have hrenews : ∀ now, step.clock = some now → Renews (IndexedBy clock) now := by
          intro now heq
          rw [hclock] at heq
          cases heq
          exact renews_indexedBy clock
        refine (hbefore.perform hdistinct hapart hrenews hapart').mono fun window past hpast => ?_
        obtain ⟨hle, hle'⟩ := hnow k step clock (Nat.lt_succ_self k) hstep hclock
        exact ⟨hpast.1, UInt64.le_trans hpast.2.1 hle', hpast.2.2.trans hle⟩

/-- No session has accepted what a settled session still waits for. -/
theorem AllSettled.not_accepted (hsettled : m.AllSettled) (hkeys : m.KeysDistinct)
    {secret : Bytes32} (hlookup : m.sessions.lookup id = some x) (hsecret : secret ∈ x.secrets)
    (hown : (secret, counter) ∉ x.ingress.accepted) :
    ∀ y ∈ m.everySession, (secret, counter) ∉ y.ingress.accepted := by
  intro y hy haccepted
  rcases mem_append.mp hy with htable | hpast
  · obtain ⟨⟨id', y'⟩, hmem, rfl⟩ := mem_map.mp htable
    have hlookup' := Table.mem_entries_iff.mp hmem
    have hknown := (hsettled.settled id' _ hlookup').sound.known _ haccepted
    have hid := hkeys.apart id id' x _ secret hlookup hlookup' hsecret
      (mem_append_right _ hknown)
    subst hid
    rw [hlookup] at hlookup'
    cases hlookup'
    exact hown haccepted
  · obtain ⟨p, hp, rfl⟩ := mem_map.mp hpast
    exact hkeys.past id x secret p hp hlookup hsecret
      (mem_append_right _ (hsettled.known p hp _ haccepted))

end Runs

/-- A session that is found is in the table, the tag is one of its secrets', and its counter has not
been accepted under it by any session. And a packet that carries a tag that a session waits for is
found if the scan is allowed, unless another of its candidates is a tag of a session too. -/
theorem tag_lookup_sound_and_complete (env : ManagerEnv T) (hdistinct : env.TagsDistinct)
    (steps : List (Step T)) (hclocks : ClocksAdvance steps) (k : Nat) (call : LookupCall T)
    (offsets : List Nat) (packet : Bytes) (hstep : steps[k]? = some (.findExistingSession call))
    (htags : call.tags = candidateTags env offsets packet)
    (hkeys : ∀ j ≤ k, (after env steps j).KeysDistinct) :
    (∀ id counter isRatcheted tag,
      ((after env steps k).findExistingSession env call).1 =
        .ok (.found id counter isRatcheted tag) →
      ∃ x secret window, (after env steps (k + 1)).sessions.lookup id = some x ∧
        env.generateResonanceTag secret counter window = tag ∧
        (if isRatcheted then x.pendingSecret = some secret
          else secret = x.core.keys.tagSecret ∨ x.graceSecret call.clock.now = some secret) ∧
        ∀ y ∈ (after env steps (k + 1)).everySession, (secret, counter) ∉ y.ingress.accepted) ∧
    (call.fallbackAllowed = true →
      (∀ id x, (after env steps k).sessions.lookup id = some x → id ∈ call.order) →
      ∀ id x counter isRatcheted, ∀ offset ∈ offsets, offset + 8 ≤ packet.length →
        (after env steps k).sessions.lookup id = some x →
        x.Awaits env call.clock (env.readTag (slice packet offset 8)) counter isRatcheted →
        (∀ other ∈ call.tags, other ≠ env.readTag (slice packet offset 8) →
          Unknown env (after env steps k) other) →
        ((after env steps k).findExistingSession env call).1 =
          .ok (.found id counter isRatcheted (env.readTag (slice packet offset 8)))) := by
  have hnext : after env steps (k + 1) = ((after env steps k).findExistingSession env call).2 :=
    stateAt_succ hstep
  have hsettled := allSettled_after hkeys
  constructor
  · intro id counter isRatcheted tag hfound
    obtain ⟨-, x, hlookup, htagOf⟩ := of_findExistingSession hfound
    -- the lookup may have refreshed sessions, but it neither derives nor accepts anything
    have hchanges : Changes env (some call.clock) (after env steps k)
        (after env steps (k + 1)) := by
      rw [hnext]
      exact changes_findExistingSession _ call
    have hsettled' := hchanges.keeps (fun m m' hc hm => hm.change hc) hsettled
    have hkeys' := hchanges.keeps (fun m m' hc hm => hm.change hc) (hkeys k le_rfl)
    rw [← hnext] at hlookup
    obtain ⟨secret, window, htag, hsecret, hepoch, hown⟩ :=
      htagOf.not_accepted (hsettled'.settled id x hlookup)
    exact ⟨x, secret, window, hlookup, htag, hepoch,
      hsettled'.not_accepted hkeys' hlookup hsecret hown⟩
  · intro hallowed horder id x counter isRatcheted offset hoffset hlength hlookup hawaits hothers
    have hindex : (after env steps k).IndexSound env (IndexedBy call.clock) := by
      refine indexSound_after hdistinct hclocks hkeys fun j step past hj hearlier hpast => ?_
      exact hclocks.le hj hearlier hstep hpast rfl
    have hwaiting : Waiting env call.clock (after env steps k) id
        (env.readTag (slice packet offset 8)) counter isRatcheted :=
      ⟨hindex, hsettled, hsettled.secretsApart (hkeys k le_rfl), x, hlookup, hawaits⟩
    refine hwaiting.findExistingSession hdistinct ?_ hothers hallowed (horder id x hlookup)
    rw [htags]
    exact mem_filterMap.mpr ⟨offset, hoffset, if_neg (Nat.not_lt.mpr hlength)⟩

/-- A packet with a tag at its second offset, from another address than the session's. -/
def roamedPacket : Bytes := [0, 0, 0, 0, 0, 0, 0, 0, 30, 1, 103, 0, 0, 0, 0, 0]

def roamedCall : LookupCall (Bytes32 × Nat × UInt64) where
  clock := ⟨20000000000, 102⟩
  tags := candidateTags sampleEnv [0, 8] roamedPacket
  clientIp := .v4 1
  fallbackAllowed := true
  order := [sampleId 1]

/-- A client sends a packet, and two windows later another one from a new address. -/
def roamedRun : List (Step (Bytes32 × Nat × UInt64)) :=
  [.createClientSession (sampleCall ⟨0, 100⟩ 1 1 none),
    .onSession ⟨1000000000, 100⟩ (sampleId 1) (.accept (sampleKey 30) 0 sampleAddr 100),
    .findExistingSession roamedCall]

theorem tag_lookup_sound_and_complete_roamedRun :
    ((after sampleEnv roamedRun 2).findExistingSession sampleEnv roamedCall).1 =
      .ok (.found (sampleId 1) 1 false (sampleKey 30, 1, 103)) := by
  have hclocks : ClocksAdvance roamedRun := by
    simp [ClocksAdvance, roamedRun, Step.clock, roamedCall, sampleCall]
  have hkeys : ∀ j ≤ 2, (after sampleEnv roamedRun j).KeysDistinct := by
    intro j hj
    apply keysDistinct_of_nodup
    match j, hj with
    | 0, _ | 1, _ | 2, _ => decide +kernel
  have horder : ∀ id x, (after sampleEnv roamedRun 2).sessions.lookup id = some x →
      id ∈ roamedCall.order := by
    intro id x hlookup
    have hall : ∀ e ∈ (after sampleEnv roamedRun 2).sessions.entries, e.1 ∈ roamedCall.order := by
      decide +kernel
    exact hall ⟨id, x⟩ (Table.mem_entries_iff.mpr hlookup)
  have hsession : ((after sampleEnv roamedRun 2).sessions.lookup (sampleId 1)).any (fun x =>
      x.core.keys.tagSecret = sampleKey 30 && x.core.counterIsFresh 1 &&
        x.core.tagSearchCenter = 0) = true := by decide +kernel
  obtain ⟨x, hlookup, hx⟩ := exists_of_any hsession
  simp only [Bool.and_eq_true, decide_eq_true_eq] at hx
  obtain ⟨⟨hsecret, hfresh⟩, hcenter⟩ := hx
  have hawaits : x.Awaits sampleEnv roamedCall.clock
      (sampleEnv.readTag (slice roamedPacket 8 8)) 1 false := by
    apply ManagedSession.Awaits.current 1 103 (by decide)
    · rw [hsecret]
      decide
    · exact hfresh
    · omega
    · omega
    · decide
  have hothers : ∀ other ∈ roamedCall.tags,
      other ≠ sampleEnv.readTag (slice roamedPacket 8 8) →
        Unknown sampleEnv (after sampleEnv roamedRun 2) other := by
    intro other hother hne id x' secret hlookup' hsecret' counter window htag
    have hnone : ∀ e ∈ (after sampleEnv roamedRun 2).sessions.entries,
        sampleKey 0 ∉ e.2.liveSecrets := by decide +kernel
    have hzero : ∀ tag ∈ roamedCall.tags, tag ≠ sampleEnv.readTag (slice roamedPacket 8 8) →
        tag.1 = sampleKey 0 := by decide +kernel
    have heq : secret = sampleKey 0 := by
      rw [← hzero other hother hne, ← htag]
      rfl
    subst heq
    exact hnone ⟨id, x'⟩ (Table.mem_entries_iff.mpr hlookup') hsecret'
  exact (tag_lookup_sound_and_complete sampleEnv tagsDistinct_sampleEnv roamedRun hclocks 2
    roamedCall [0, 8] roamedPacket rfl rfl hkeys).2 rfl horder (sampleId 1) x 1 false 8
      (by decide) (by decide) hlookup hawaits hothers

/-! ### A packet with two tags -/

/-- A packet with the tag of a counter that was received and that of the next one. -/
def mixedPacket : Bytes := [30, 0, 100, 0, 0, 0, 0, 0, 30, 1, 100, 0, 0, 0, 0, 0]

def mixedCall : LookupCall (Bytes32 × Nat × UInt64) where
  clock := ⟨2000000000, 100⟩
  tags := candidateTags sampleEnv [0, 8] mixedPacket
  clientIp := sampleAddr.ip
  fallbackAllowed := true
  order := [sampleId 1]

def mixedRun : List (Step (Bytes32 × Nat × UInt64)) :=
  [.createClientSession (sampleCall ⟨0, 100⟩ 1 1 none),
    .onSession ⟨1000000000, 100⟩ (sampleId 1) (.accept (sampleKey 30) 0 sampleAddr 100),
    .findExistingSession mixedCall]

/-- The session waits for the second tag, but the first one ends the search. -/
theorem received_candidate_ends_search :
    sampleEnv.TagsDistinct ∧ ClocksAdvance mixedRun ∧
    (∃ x, (after sampleEnv mixedRun 2).sessions.lookup (sampleId 1) = some x ∧
      x.Awaits sampleEnv mixedCall.clock (sampleEnv.readTag (slice mixedPacket 8 8)) 1 false) ∧
    ((after sampleEnv mixedRun 2).findExistingSession sampleEnv mixedCall).1 =
      .error (.invalidPacket "Invalid indexed tag") := by
  have hclocks : ClocksAdvance mixedRun := by
    simp [ClocksAdvance, mixedRun, Step.clock, mixedCall, sampleCall]
  have hkeys : ∀ j ≤ 2, (after sampleEnv mixedRun j).KeysDistinct := by
    intro j hj
    apply keysDistinct_of_nodup
    match j, hj with
    | 0, _ | 1, _ | 2, _ => decide +kernel
  have hsession : ((after sampleEnv mixedRun 2).sessions.lookup (sampleId 1)).any (fun x =>
      x.core.keys.tagSecret = sampleKey 30 && x.core.counterIsFresh 1 &&
        x.core.tagSearchCenter = 0 && !x.core.counterIsFresh 0 && 0 ∈ x.core.expectedTags &&
        x.times.tagWindowTw = 100) = true := by decide +kernel
  obtain ⟨x, hlookup, hx⟩ := exists_of_any hsession
  simp only [Bool.and_eq_true, decide_eq_true_eq, Bool.not_eq_true'] at hx
  obtain ⟨⟨⟨⟨⟨hsecret, hfresh⟩, hcenter⟩, hstale⟩, htags⟩, hwindow⟩ := hx
  refine ⟨tagsDistinct_sampleEnv, hclocks, ⟨x, hlookup, ?_⟩, ?_⟩
  · apply ManagedSession.Awaits.current 1 100 (by decide)
    · rw [hsecret]
      decide
    · exact hfresh
    · omega
    · omega
    · decide
  have hindex : (after sampleEnv mixedRun 2).IndexSound sampleEnv
      (IndexedBy mixedCall.clock) := by
    refine indexSound_after tagsDistinct_sampleEnv hclocks hkeys ?_
    intro j step past hj hearlier hpast
    exact hclocks.le hj hearlier rfl hpast rfl
  -- the first tag is in the index
  obtain ⟨past, ⟨hafter, hbefore, -⟩, -, hentries⟩ := hindex.mirror _ x hlookup
  rw [hwindow] at hafter
  have hpast : past.window = 100 := UInt64.le_antisymm hbefore hafter
  have hmem : (sampleKey 30, 0, 100) ∈ x.indexEntries sampleEnv (sampleId 1) past := by
    rw [← hsecret]
    exact ManagedSession.mem_indexEntries (x.active_mem_tagSources past.now) htags
      (by rw [hpast]; decide)
  obtain ⟨e, he⟩ := Table.mem_iff_lookup.mp hmem
  have howner : (after sampleEnv mixedRun 2).sessions.lookup e.sessionId = some x := by
    rw [(ManagedSession.of_lookup_indexEntries he).1]
    exact hlookup
  -- and no longer fresh
  have hsettled := (allSettled_after hkeys).settled _ x hlookup
  have hrefused : (after sampleEnv mixedRun 2).findSessionByTag sampleEnv mixedCall.clock
      (sampleKey 30, 0, 100) = .error (.invalidPacket "Invalid indexed tag") := by
    have htag : sampleEnv.generateResonanceTag x.core.keys.tagSecret 0 100 =
        (sampleKey 30, 0, 100) := by
      rw [hsecret]
      rfl
    refine findSessionByTag_refused (hentries _ e he) howner fun counter isRatcheted => ?_
    exact hsettled.not_tagOf tagsDistinct_sampleEnv htag hstale
  have hcandidates : mixedCall.tags = [(sampleKey 30, 0, 100), (sampleKey 30, 1, 100)] := by
    decide +kernel
  unfold findExistingSession
  rw [hcandidates]
  unfold probe
  rw [hrefused]

end SessionManager

end AivpnSpec.Server
