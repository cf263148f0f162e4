import AivpnSpec.Server.Manager.Changes

/-!
# How many sessions there are

The limits on sessions are checked while other sessions are removed, and a client that comes back
gets a second session before the first is gone. Under every interleaving at most 500 sessions exist,
at most 2 of one client, at most 6 clients' sessions of one address and at most 11 of one /24.
-/

namespace AivpnSpec.Server

open AivpnSpec.Base AivpnSpec.Common AivpnSpec.Wire List

namespace SessionManager

variable {T : Type} [DecidableEq T] {env : ManagerEnv T} {m m' : SessionManager T}
  {time : Option Clock} {clientId : String}

def total (m : SessionManager T) : Nat := m.sessions.count fun _ _ => true

def ofClient (m : SessionManager T) (clientId : String) : Nat :=
  m.sessions.count fun _ x => x.clientId = some clientId

def fromIps (m : SessionManager T) (p : IpAddr → Bool) : Nat :=
  m.sessions.count fun _ x => !x.isMaskedPoolPeer && p x.clientAddr.ip

/-- The bounds on sessions. -/
structure WithinBounds (m : SessionManager T) : Prop where
  total : m.total ≤ 500
  client : ∀ clientId, m.ofClient clientId ≤ 2
  ip : ∀ ip, (m.fromIps fun other => other = ip) ≤ 6
  subnet : ∀ subnet, (m.fromIps fun other => subnet24 other = some subnet) ≤ 11

/-- The bounds, and that masked peers are no clients. -/
structure Bounded (m : SessionManager T) : Prop where
  bounds : m.WithinBounds
  masked : ∀ id x, m.sessions.lookup id = some x → x.isMaskedPoolPeer = true → x.clientId = none

/-- Every session was there before, with the same owner and at the same address. -/
def Shrinks (m m' : SessionManager T) : Prop :=
  ∀ id x', m'.sessions.lookup id = some x' → ∃ x, m.sessions.lookup id = some x ∧
    x.SameOwner x' ∧ x'.clientAddr = x.clientAddr

theorem Shrinks.refl (m : SessionManager T) : Shrinks m m :=
  fun _ x' h => ⟨x', h, .refl x', rfl⟩

theorem Shrinks.fromIps_le (hs : Shrinks m m') (p : IpAddr → Bool) :
    m'.fromIps p ≤ m.fromIps p := by
  apply Table.count_le_count
  intro id x' hlookup hp
  obtain ⟨x, hx, howner, haddr⟩ := hs id x' hlookup
  rw [howner.isMaskedPoolPeer, haddr] at hp
  exact ⟨x, hx, hp⟩

theorem Bounded.shrinks (h : m.Bounded) (hs : Shrinks m m') : m'.Bounded where
  bounds :=
    { total := by
        refine le_trans (Table.count_le_count fun id x' hlookup _ => ?_) h.bounds.total
        obtain ⟨x, hx, -⟩ := hs id x' hlookup
        exact ⟨x, hx, rfl⟩
      client := by
        intro clientId
        refine le_trans (Table.count_le_count fun id x' hlookup hp => ?_)
          (h.bounds.client clientId)
        obtain ⟨x, hx, howner, -⟩ := hs id x' hlookup
        rw [howner.clientId] at hp
        exact ⟨x, hx, hp⟩
      ip := fun ip => (hs.fromIps_le _).trans (h.bounds.ip ip)
      subnet := fun subnet => (hs.fromIps_le _).trans (h.bounds.subnet subnet) }
  masked := by
    intro id x' hlookup hmasked
    obtain ⟨x, hx, howner, -⟩ := hs id x' hlookup
    rw [howner.clientId]
    exact h.masked id x hx (howner.isMaskedPoolPeer ▸ hmasked)

theorem shrinks_onSession (m : SessionManager T) (clock : Clock) (id : SessionId)
    {op : ManagedSession.Op} (hop : ∀ x, m.sessions.lookup id = some x → op.keepsAddr x) :
    Shrinks m (m.onSession env clock id op) := by
  intro id' x' hlookup
  rw [lookup_onSession] at hlookup
  split at hlookup
  · next hid =>
    obtain ⟨x, hx, rfl⟩ := Option.map_eq_some_iff.mp hlookup
    exact ⟨x, hid ▸ hx, ManagedSession.sameOwner_apply _ _ x op,
      ManagedSession.clientAddr_apply (hop x hx)⟩
  · exact ⟨x', hlookup, .refl x', rfl⟩

theorem shrinks_removeAll (m : SessionManager T) (ids : List SessionId) :
    Shrinks m (m.removeAll ids) := by
  intro id x' hlookup
  rw [lookup_removeAll] at hlookup
  split at hlookup
  · cases hlookup
  · exact ⟨x', hlookup, .refl x', rfl⟩

theorem Bounded.change (h : m.Bounded) (hc : Change env time m m') : m'.Bounded := by
  cases hc with
  | session clock id op htime hquiet =>
    apply h.shrinks
    apply shrinks_onSession
    intro x _
    cases op with
    | accept => cases hquiet
    | _ => trivial
  | remove id => exact h.shrinks (shrinks_removeAll m [id])
  | bind vpnIp id x => exact h.shrinks (.refl m)
  | detached clock p =>
    apply h.shrinks
    intro id x' hlookup
    rw [sessions_reindexSession] at hlookup
    exact ⟨x', hlookup, .refl x', rfl⟩

def abandonedBy (clientId : String) (e : Sigma fun _ : SessionId => ManagedSession) : Bool :=
  e.2.clientId = some clientId && (!e.2.core.isRatcheted && !e.2.clientAdmitted)

def livingOf (clientId : String) (e : Sigma fun _ : SessionId => ManagedSession) : Bool :=
  e.2.clientId = some clientId && !(!e.2.core.isRatcheted && !e.2.clientAdmitted)

/-- The loop tells the sessions of the client apart and finds at most one that lives. -/
theorem scanOwn_ok {entries : List (Sigma fun _ : SessionId => ManagedSession)}
    {own own' : OwnSessions} (h : scanOwn clientId entries own = .ok own') :
    own'.abandoned = own.abandoned ++
      (entries.filter (abandonedBy clientId)).map (fun e => (e.1, e.2.clientAddr.ip)) ∧
    own'.previous.toList = own.previous.toList ++
      (entries.filter (livingOf clientId)).map (fun e => e.2.clientAddr.ip) := by
  induction entries generalizing own with
  | nil =>
    cases h
    simp
  | cons e rest ih =>
    obtain ⟨id, x⟩ := e
    unfold scanOwn at h
    split at h
    · next hclient =>
      split at h
      · next hleft =>
        obtain ⟨habandoned, hprevious⟩ := ih h
        rw [habandoned, hprevious]
        simp [abandonedBy, livingOf, hclient, hleft]
      next hleft =>
      split at h
      · cases h
      next hnone =>
      obtain ⟨habandoned, hprevious⟩ := ih h
      rw [Bool.not_eq_true, Option.isSome_eq_false_iff, Option.isNone_iff_eq_none] at hnone
      rw [habandoned, hprevious, hnone]
      simp [abandonedBy, livingOf, hclient, hleft]
    · next hclient =>
      obtain ⟨habandoned, hprevious⟩ := ih h
      rw [habandoned, hprevious]
      simp [abandonedBy, livingOf, hclient]

variable {call : ClientCall} {own : OwnSessions} {x : ManagedSession} {id : SessionId}

/-- An abandoned session is one of the client. -/
theorem ownSessions_abandoned (h : m.ownSessions call.clientId = .ok own) {ip : IpAddr}
    (hmem : (id, ip) ∈ own.abandoned) :
    ∃ clientId x, call.clientId = some clientId ∧ m.sessions.lookup id = some x ∧
      x.clientId = some clientId ∧ x.clientAddr.ip = ip := by
  cases hclient : call.clientId with
  | none =>
    rw [hclient] at h
    cases h
    cases hmem
  | some clientId =>
    rw [hclient] at h
    obtain ⟨habandoned, -⟩ := scanOwn_ok h
    rw [habandoned, nil_append] at hmem
    obtain ⟨⟨id', x⟩, he, heq⟩ := mem_map.mp hmem
    cases heq
    obtain ⟨hentry, hleft⟩ := mem_filter.mp he
    simp only [abandonedBy, Bool.and_eq_true, decide_eq_true_eq] at hleft
    exact ⟨clientId, x, rfl, Table.mem_entries_iff.mp hentry, hleft.1, rfl⟩

/-- At most one session of the client is not abandoned. -/
theorem ownSessions_living (hclient : call.clientId = some clientId)
    (h : m.ownSessions call.clientId = .ok own) {id' : SessionId} {x' : ManagedSession}
    (hx : m.sessions.lookup id = some x) (hx' : m.sessions.lookup id' = some x')
    (hown : x.clientId = some clientId) (hown' : x'.clientId = some clientId)
    (hlives : id ∉ own.abandoned.map Prod.fst) (hlives' : id' ∉ own.abandoned.map Prod.fst) :
    id = id' := by
  rw [hclient] at h
  obtain ⟨habandoned, hprevious⟩ := scanOwn_ok h
  have hliving : ∀ id x, m.sessions.lookup id = some x → x.clientId = some clientId →
      id ∉ own.abandoned.map Prod.fst →
      ⟨id, x⟩ ∈ m.sessions.entries.filter (livingOf clientId) := by
    intro id x hx hown hlives
    have hentry := Table.mem_entries_iff.mpr hx
    refine mem_filter.mpr ⟨hentry, ?_⟩
    by_contra hleft
    apply hlives
    rw [habandoned, nil_append, map_map]
    apply mem_map.mpr
    refine ⟨⟨id, x⟩, mem_filter.mpr ⟨hentry, ?_⟩, rfl⟩
    simp only [livingOf, abandonedBy, hown, decide_true, Bool.true_and, Bool.not_eq_true,
      Bool.not_eq_false'] at hleft ⊢
    exact hleft
  have hone : (m.sessions.entries.filter (livingOf clientId)).length ≤ 1 := by
    have hlength := congrArg length hprevious
    simp only [length_append, length_map, Option.toList_none, length_nil,
      Nat.zero_add] at hlength
    rw [← hlength]
    cases own.previous <;> simp
  have hfirst := hliving id x hx hown hlives
  have hsecond := hliving id' x' hx' hown' hlives'
  generalize m.sessions.entries.filter (livingOf clientId) = living at hone hfirst hsecond
  cases living with
  | nil => cases hfirst
  | cons e rest =>
    have hrest : rest = [] := eq_nil_of_length_eq_zero (by simp at hone; simp [hone])
    rw [hrest, mem_singleton] at hfirst hsecond
    exact congrArg Sigma.fst (hfirst.trans hsecond.symm)

/-- A client without sessions has only the smaller limit. -/
theorem globalLimit_of_none (hclient : call.clientId = some clientId)
    (h : m.ownSessions call.clientId = .ok own)
    (hnone : ∀ id x, m.sessions.lookup id = some x → x.clientId ≠ some clientId) :
    own.globalLimit call.clientId = 490 ∧ own.abandoned = [] := by
  rw [hclient] at h
  obtain ⟨habandoned, hprevious⟩ := scanOwn_ok h
  have hempty : ∀ p : (Sigma fun _ : SessionId => ManagedSession) → Bool,
      (∀ e, p e = true → e.2.clientId = some clientId) → m.sessions.entries.filter p = [] := by
    intro p hp
    apply filter_eq_nil_iff.mpr
    rintro ⟨id, x⟩ hmem hpe
    exact hnone id x (Table.mem_entries_iff.mp hmem) (hp _ hpe)
  rw [hempty _ fun e he => by simp [abandonedBy] at he; exact he.1] at habandoned
  rw [hempty _ fun e he => by simp [livingOf] at he; exact he.1] at hprevious
  have hnone : own.previous = none := by
    cases hprev : own.previous with
    | none => rfl
    | some ip =>
      rw [hprev] at hprevious
      cases hprevious
  rw [map_nil, append_nil] at habandoned
  refine ⟨?_, habandoned⟩
  rw [OwnSessions.globalLimit, hclient, hnone, habandoned]
  rfl

section Creation

variable {keys ratchetedKeys : SessionKeys}

/-- What is left of the table besides the new session was there at every check. -/
theorem lookup_created_other
    (h : (m.created env call own keys ratchetedKeys).sessions.lookup id = some x)
    (hid : id ≠ call.sessionId) :
    m.sessions.lookup id = some x ∧ id ∉ own.abandoned.map Prod.fst ∧
      ∀ n, (m.removeAll (call.interference.upTo n)).sessions.lookup id = some x := by
  rw [lookup_created, if_neg hid] at h
  split at h
  · cases h
  next hleft =>
  push Not at hleft
  refine ⟨h, hleft.1, fun n => ?_⟩
  have hnot : id ∉ call.interference.upTo n := by
    intro hmem
    apply hleft.2
    match n with
    | 0 | 1 | 2 => simp only [Interference.upTo, mem_append] at hmem ⊢; tauto
    | n + 3 => exact hmem
  rw [lookup_removeAll, if_neg hnot]
  exact h

/-- The new session takes the place of an abandoned one or is counted against the limit. -/
theorem total_created (h : m.total ≤ 500) (hadmissible : m.Admissible call own) :
    (m.created env call own keys ratchetedKeys).total ≤ 500 ∧
      (own.abandoned = [] → (m.created env call own keys ratchetedKeys).total ≤
        own.globalLimit call.clientId) := by
  have hbound : own.abandoned = [] → (m.created env call own keys ratchetedKeys).total ≤
      own.globalLimit call.clientId := by
    intro hnone
    have htotal := hadmissible.total
    rw [hnone, length_nil, Nat.sub_zero] at htotal
    refine le_trans (Table.count_le_succ call.sessionId fun id x hlookup _ hid => ?_) htotal
    exact ⟨x, (lookup_created_other hlookup hid).2.2 0, rfl⟩
  refine ⟨?_, hbound⟩
  cases habandoned : own.abandoned with
  | nil =>
    have hlimit : own.globalLimit call.clientId ≤ 500 := by
      unfold OwnSessions.globalLimit
      split <;> decide
    exact (hbound habandoned).trans hlimit
  | cons first rest =>
    have hmem : first ∈ own.abandoned := habandoned ▸ mem_cons_self
    obtain ⟨clientId, x, -, hx, -⟩ := ownSessions_abandoned hadmissible.scan hmem
    refine le_trans (Table.count_le_of_replace call.sessionId hx rfl
      fun id x' hlookup _ hid => ?_) h
    obtain ⟨hold, hleft, -⟩ := lookup_created_other hlookup hid
    refine ⟨?_, x', hold, rfl⟩
    rintro rfl
    exact hleft (mem_map_of_mem hmem)

/-- A client that has a session left may have the new one beside it. -/
theorem ofClient_created (h : ∀ clientId, m.ofClient clientId ≤ 2)
    (hadmissible : m.Admissible call own) (clientId : String) :
    (m.created env call own keys ratchetedKeys).ofClient clientId ≤ 2 := by
  by_cases hclient : call.clientId = some clientId
  · unfold ofClient
    rw [Table.count_eq_card]
    have hrest : (((m.created env call own keys ratchetedKeys).sessions.select
        fun _ x => x.clientId = some clientId).erase call.sessionId).card ≤ 1 := by
      apply Finset.card_le_one.mpr
      intro id hid id' hid'
      obtain ⟨hne, hid⟩ := Finset.mem_erase.mp hid
      obtain ⟨hne', hid'⟩ := Finset.mem_erase.mp hid'
      obtain ⟨x, hlookup, hx⟩ := Table.mem_select.mp hid
      obtain ⟨x', hlookup', hx'⟩ := Table.mem_select.mp hid'
      obtain ⟨hold, hlives, -⟩ := lookup_created_other hlookup hne
      obtain ⟨hold', hlives', -⟩ := lookup_created_other hlookup' hne'
      exact ownSessions_living hclient hadmissible.scan hold hold' (of_decide_eq_true hx)
        (of_decide_eq_true hx') hlives hlives'
    exact Nat.le_succ_of_pred_le (Finset.pred_card_le_card_erase.trans hrest)
  · refine le_trans (Table.count_le_count fun id x hlookup hx => ?_) (h clientId)
    by_cases hid : id = call.sessionId
    · rw [lookup_created, if_pos hid] at hlookup
      cases hlookup
      exact absurd (of_decide_eq_true hx) hclient
    · exact ⟨x, (lookup_created_other hlookup hid).1, hx⟩

/-- The same for the sessions of some addresses: if the new one is among them, it takes the place of
an abandoned one or is counted against the limit, up to the session it replaces. -/
theorem fromIps_created (hmasked : ∀ id x, m.sessions.lookup id = some x →
      x.isMaskedPoolPeer = true → x.clientId = none)
    (hadmissible : m.Admissible call own) {p : IpAddr → Bool} (n previous : Nat)
    {limit : Nat} (h : m.fromIps p ≤ limit + 1) (hprevious : previous ≤ 1)
    (hlimit : p call.clientAddr.ip = true →
      ((m.removeAll (call.interference.upTo n)).sessions.count fun _ x => p x.clientAddr.ip) -
        ((own.abandoned.countP fun left => p left.2) + previous) < limit) :
    (m.created env call own keys ratchetedKeys).fromIps p ≤ limit + 1 := by
  by_cases hnew : p call.clientAddr.ip = true
  · by_cases hleft : ∃ left ∈ own.abandoned, p left.2 = true
    · obtain ⟨left, hmem, hp⟩ := hleft
      obtain ⟨clientId, x, -, hx, hown, hip⟩ := ownSessions_abandoned hadmissible.scan hmem
      have hclient : x.isMaskedPoolPeer = false := by
        by_contra hpeer
        rw [Bool.not_eq_false] at hpeer
        rw [hmasked left.1 x hx hpeer] at hown
        cases hown
      refine le_trans (Table.count_le_of_replace call.sessionId hx (by simp [hclient, hip, hp])
        fun id x' hlookup hx' hid => ?_) h
      obtain ⟨hold, hlives, -⟩ := lookup_created_other hlookup hid
      refine ⟨?_, x', hold, hx'⟩
      rintro rfl
      exact hlives (mem_map_of_mem hmem)
    · have hzero : (own.abandoned.countP fun left => p left.2) = 0 := by
        apply countP_eq_zero.mpr
        intro left hmem hp
        exact hleft ⟨left, hmem, hp⟩
      have hcount := hlimit hnew
      rw [hzero] at hcount
      have hfew : ((m.removeAll (call.interference.upTo n)).sessions.count
          fun _ x => p x.clientAddr.ip) ≤ limit := by omega
      refine le_trans (Table.count_le_succ call.sessionId fun id x hlookup hx hid => ?_)
        (Nat.add_le_add_right hfew 1)
      rw [Bool.and_eq_true] at hx
      exact ⟨x, (lookup_created_other hlookup hid).2.2 n, hx.2⟩
  · refine le_trans (Table.count_le_count fun id x hlookup hx => ?_) h
    by_cases hid : id = call.sessionId
    · rw [lookup_created, if_pos hid] at hlookup
      cases hlookup
      rw [Bool.and_eq_true] at hx
      exact absurd hx.2 hnew
    · exact ⟨x, (lookup_created_other hlookup hid).1, hx⟩

theorem Bounded.created (h : m.Bounded) (hadmissible : m.Admissible call own) :
    (m.created env call own keys ratchetedKeys).Bounded where
  bounds :=
    { total := (total_created h.bounds.total hadmissible).1
      client := ofClient_created h.bounds.client hadmissible
      ip := by
        intro ip
        apply fromIps_created h.masked hadmissible 1 (if own.previous = some ip then 1 else 0)
          (h.bounds.ip ip)
        · split <;> decide
        · intro hip
          rw [decide_eq_true_eq] at hip
          subst hip
          exact hadmissible.ip
      subnet := by
        intro subnet
        apply fromIps_created h.masked hadmissible 2
          (if own.previous.bind subnet24 = some subnet then 1 else 0) (h.bounds.subnet subnet)
        · split <;> decide
        · intro hsubnet
          rw [decide_eq_true_eq] at hsubnet
          exact hadmissible.subnet subnet hsubnet }
  masked := by
    intro id x hlookup hpeer
    by_cases hid : id = call.sessionId
    · rw [lookup_created, if_pos hid] at hlookup
      cases hlookup
      cases hpeer
    · exact h.masked id x (lookup_created_other hlookup hid).1 hpeer

end Creation

/-- A masked peer is added below the limit. -/
theorem Bounded.insertPeer (h : m.Bounded) (hroom : m.total < 500) (clock : Clock)
    (id : SessionId) (hpeer : x.isMaskedPoolPeer = true) (hclient : x.clientId = none) :
    (m.insertSession env clock id x).Bounded := by
  have hother : ∀ id' x', (m.insertSession env clock id x).sessions.lookup id' = some x' →
      id' ≠ id → m.sessions.lookup id' = some x' := by
    intro id' x' hlookup hid
    rw [lookup_insertSession, if_neg hid] at hlookup
    exact hlookup
  have hself : ∀ x', (m.insertSession env clock id x).sessions.lookup id = some x' → x' = x := by
    intro x' hlookup
    rw [lookup_insertSession, if_pos rfl] at hlookup
    exact (Option.some.inj hlookup).symm
  have hips : ∀ p, (m.insertSession env clock id x).fromIps p ≤ m.fromIps p := by
    intro p
    apply Table.count_le_count
    intro id' x' hlookup hx'
    by_cases hid : id' = id
    · subst hid
      rw [hself x' hlookup, hpeer] at hx'
      cases hx'
    · exact ⟨x', hother id' x' hlookup hid, hx'⟩
  refine ⟨⟨?_, ?_, fun ip => (hips _).trans (h.bounds.ip ip),
    fun subnet => (hips _).trans (h.bounds.subnet subnet)⟩, ?_⟩
  · exact le_trans (Table.count_le_succ id fun id' x' hlookup _ hid =>
      ⟨x', hother id' x' hlookup hid, rfl⟩) hroom
  · intro clientId
    refine le_trans (Table.count_le_count fun id' x' hlookup hx' => ?_) (h.bounds.client clientId)
    by_cases hid : id' = id
    · subst hid
      rw [hself x' hlookup, hclient] at hx'
      cases hx'
    · exact ⟨x', hother id' x' hlookup hid, hx'⟩
  · intro id' x' hlookup hpeer'
    by_cases hid : id' = id
    · subst hid
      rw [hself x' hlookup]
      exact hclient
    · exact h.masked id' x' (hother id' x' hlookup hid) hpeer'

/-- If the step is a packet, it comes from the address that the session has. -/
def Step.keepsAddr (m : SessionManager T) : Step T → Prop
  | .onSession _ id op => ∀ x, m.sessions.lookup id = some x → op.keepsAddr x
  | _ => True

/-- One step keeps the bounds. -/
theorem Bounded.perform (h : m.Bounded) {step : Step T} (haddr : step.keepsAddr m) :
    (m.perform env step).Bounded := by
  apply perform_keeps h
  · exact fun m m' hc hm => hm.change hc
  · exact fun m keys now hm => hm.shrinks (.refl m)
  · exact fun call own keys ratchetedKeys _ hadmissible _ => h.created hadmissible
  · intro call keys ratchetedKeys _ hroom _
    have hclaimed : (m.claimed env keys call.clock.now).Bounded := h.shrinks (.refl m)
    exact hclaimed.insertPeer hroom call.clock call.sessionId rfl rfl
  · rintro clock id op rfl
    exact h.shrinks (shrinks_onSession m clock id haddr)

/-- As long as no client moves, the sessions stay within their bounds in every run; and a client
that has no session gets one only while there are at most 490. -/
theorem sessions_within_bounds (env : ManagerEnv T) (steps : List (Step T))
    (haddr : ∀ (k : Nat) (step : Step T), steps[k]? = some step →
      step.keepsAddr (after env steps k)) :
    (∀ k, (after env steps k).WithinBounds) ∧
    (∀ (k : Nat) call clientId id, steps[k]? = some (.createClientSession call) →
      call.clientId = some clientId → (after env steps k).ofClient clientId = 0 →
      ((after env steps k).createClientSession env call).1 = .ok id →
      (after env steps (k + 1)).total ≤ 490) := by
  have hbounded : ∀ k, (after env steps k).Bounded := by
    intro k
    refine stateAt_keeps (P := Bounded) (Nat.zero_le k) ⟨⟨Nat.zero_le _,
      fun _ => Nat.zero_le _, fun _ => Nat.zero_le _, fun _ => Nat.zero_le _⟩, fun _ _ h => by cases h⟩ ?_
    intro n step _ _ hstep hm
    exact hm.perform (haddr n step hstep)
  refine ⟨fun k => (hbounded k).bounds, ?_⟩
  intro k call clientId id hstep hclient hnone hanswer
  have hafter : after env steps (k + 1) = ((after env steps k).createClientSession env call).2 :=
    stateAt_succ hstep
  have hfree : ∀ id x, (after env steps k).sessions.lookup id = some x →
      x.clientId ≠ some clientId := by
    intro id x hlookup hx
    rw [ofClient, Table.count_eq_card, Finset.card_eq_zero] at hnone
    have hmem : id ∈ (after env steps k).sessions.select fun _ x => x.clientId = some clientId :=
      Table.mem_select.mpr ⟨x, hlookup, decide_eq_true hx⟩
    rw [hnone] at hmem
    cases hmem
  rcases createClientSession_cases env (after env steps k) call with
    ⟨e, ids, -, herror | ⟨keys, -, herror⟩⟩ | ⟨own, keys, ratchetedKeys, hadmissible, -, -, hok⟩
  · rw [herror] at hanswer
    cases hanswer
  · rw [herror] at hanswer
    cases hanswer
  · obtain ⟨hlimit, habandoned⟩ := globalLimit_of_none hclient hadmissible.scan hfree
    rw [hafter, hok, ← hlimit]
    exact (total_created (hbounded k).bounds.total hadmissible).2 habandoned

def returningClient : List (Step (Bytes32 × Nat × UInt64)) :=
  [.createClientSession (sampleCall ⟨0, 100⟩ 1 1 (some "phone")),
    .onSession ⟨1, 100⟩ (sampleId 1) .completeRatchet,
    .commitClientAdmission ⟨2, 100⟩ (sampleId 1) true,
    .createClientSession (sampleCall ⟨3, 100⟩ 2 2 (some "phone")),
    .onSession ⟨4, 100⟩ (sampleId 2) .completeRatchet,
    .commitClientAdmission ⟨5, 100⟩ (sampleId 2) true]

theorem sessions_within_bounds_returningClient :
    (after sampleEnv returningClient 4).WithinBounds ∧
    (after sampleEnv returningClient 4).ofClient "phone" = 2 ∧
    (after sampleEnv returningClient 6).WithinBounds ∧
    (after sampleEnv returningClient 6).ofClient "phone" = 1 := by
  have hbounds := (sessions_within_bounds sampleEnv returningClient (by
    intro k step hstep
    have hmem := mem_of_getElem? hstep
    simp only [returningClient, mem_cons, not_mem_nil, or_false] at hmem
    rcases hmem with rfl | rfl | rfl | rfl | rfl | rfl
    all_goals first | trivial | exact fun _ _ => trivial)).1
  exact ⟨hbounds 4, by decide +kernel, hbounds 6, by decide +kernel⟩

end SessionManager

end AivpnSpec.Server
