import AivpnSpec.Server.Manager.Changes

/-!
# Routing by VPN address

Several sessions may own one VPN address while a client comes back. The index of addresses leads
only to sessions of the table that own the address, and a removal takes only the session's own entry
out. A lookup therefore returns a session that owns the address and that packets are routed to.
-/

namespace AivpnSpec.Server

open AivpnSpec.Base AivpnSpec.Common AivpnSpec.Wire

namespace SessionManager

variable {T : Type} [DecidableEq T] {env : ManagerEnv T} {m m' : SessionManager T}
  {time : Option Clock}

/-- Every entry of the address index leads to a session that owns the address. -/
def Routed (m : SessionManager T) : Prop :=
  ∀ vpnIp id, m.vpnIpMap.lookup vpnIp = some id →
    ∃ x, m.sessions.lookup id = some x ∧ x.vpnIp = some vpnIp

variable {id : SessionId} {vpnIp : Ipv4Addr} {x : ManagedSession}

/-- A removal takes out the entry of the session's address, if it is the session's. -/
theorem lookup_vpnIpMap_removeSession (h : m.sessions.lookup id = some x) (vpnIp : Ipv4Addr) :
    (m.removeSession id).vpnIpMap.lookup vpnIp =
      if x.vpnIp = some vpnIp then (m.vpnIpMap.lookup vpnIp).filter (fun owner => owner ≠ id)
      else m.vpnIpMap.lookup vpnIp := by
  unfold removeSession
  rw [h]
  dsimp only
  cases hown : x.vpnIp with
  | none => simp
  | some own =>
    dsimp only
    rw [Table.lookup_removeIf]
    by_cases heq : vpnIp = own
    · simp [heq]
    · rw [if_neg heq, if_neg fun h => heq (Option.some.inj h).symm]

theorem vpnIpMap_removeSession_of_none (h : m.sessions.lookup id = none) :
    m.removeSession id = m := by
  rw [removeSession, h]

/-- The entry of another session survives. -/
theorem lookup_vpnIpMap_of_ne {id owner : SessionId} (h : m.vpnIpMap.lookup vpnIp = some owner)
    (hne : owner ≠ id) : (m.removeSession id).vpnIpMap.lookup vpnIp = some owner := by
  cases hlookup : m.sessions.lookup id with
  | none =>
    rw [vpnIpMap_removeSession_of_none hlookup]
    exact h
  | some x =>
    rw [lookup_vpnIpMap_removeSession hlookup, h]
    split
    · simp [hne, Option.filter]
    · rfl

section

variable (h : m.Routed)

include h

theorem Routed.removeSession (id : SessionId) : (m.removeSession id).Routed := by
  cases hlookup : m.sessions.lookup id with
  | none =>
    rw [vpnIpMap_removeSession_of_none hlookup]
    exact h
  | some x =>
    intro vpnIp owner hentry
    rw [lookup_vpnIpMap_removeSession hlookup] at hentry
    have hbefore : m.vpnIpMap.lookup vpnIp = some owner := by
      split at hentry
      · exact (Option.filter_eq_some_iff.mp hentry).1
      · exact hentry
    obtain ⟨y, hy, hip⟩ := h vpnIp owner hbefore
    have hne : owner ≠ id := by
      rintro rfl
      rw [hlookup] at hy
      cases hy
      rw [if_pos hip] at hentry
      have hkept := (Option.filter_eq_some_iff.mp hentry).2
      simp at hkept
    refine ⟨y, ?_, hip⟩
    rw [lookup_removeSession, if_neg hne]
    exact hy

theorem Routed.onSession (clock : Clock) (id : SessionId) (op : ManagedSession.Op) :
    (m.onSession env clock id op).Routed := by
  intro vpnIp owner hentry
  rw [vpnIpMap_onSession] at hentry
  obtain ⟨x, hx, hip⟩ := h vpnIp owner hentry
  rw [lookup_onSession]
  by_cases howner : owner = id
  · rw [if_pos howner, ← howner, hx]
    refine ⟨_, rfl, ?_⟩
    rw [(ManagedSession.sameOwner_apply env.crypto clock x op).vpnIp]
    exact hip
  · rw [if_neg howner]
    exact ⟨x, hx, hip⟩

theorem Routed.bind (hx : m.sessions.lookup id = some x) (hip : x.vpnIp = some vpnIp) :
    Routed { m with vpnIpMap := m.vpnIpMap.insert vpnIp id } := by
  intro ip owner hentry
  rcases Table.cases_insert hentry with ⟨rfl, rfl⟩ | hentry
  · exact ⟨x, hx, hip⟩
  · exact h ip owner hentry

theorem Routed.change (hc : Change env time m m') : m'.Routed := by
  cases hc with
  | session clock id op => exact h.onSession clock id op
  | remove id => exact h.removeSession id
  | bind vpnIp id x hx hip => exact h.bind hx hip
  | detached clock p =>
    intro vpnIp owner hentry
    rw [vpnIpMap_reindexSession] at hentry
    rw [sessions_reindexSession]
    exact h vpnIp owner hentry

theorem Routed.removeAll (ids : List SessionId) : (m.removeAll ids).Routed := by
  unfold SessionManager.removeAll
  induction ids generalizing m with
  | nil => exact h
  | cons id rest ih => exact ih (h.removeSession id)

/-- A new session under an id that is not in use takes no address from another. -/
theorem Routed.insertSession (clock : Clock) (x : ManagedSession)
    (hfresh : m.sessions.lookup id = none) : (m.insertSession env clock id x).Routed := by
  intro vpnIp owner hentry
  rw [SessionManager.insertSession, vpnIpMap_reindexSession] at hentry
  obtain ⟨y, hy, hip⟩ := h vpnIp owner hentry
  have hne : owner ≠ id := by
    rintro rfl
    rw [hfresh] at hy
    cases hy
  refine ⟨y, ?_, hip⟩
  rw [lookup_insertSession, if_neg hne]
  exact hy

/-- The identity of a session that has no address yet. -/
theorem Routed.identify (hx : m.sessions.lookup id = some x) (hnone : x.vpnIp = none)
    (clientId : Option String) (staticVpnIp : Option Ipv4Addr) :
    (m.identify id clientId staticVpnIp).Routed := by
  have hold : ∀ vpnIp owner, m.vpnIpMap.lookup vpnIp = some owner →
      ∃ y, (m.identify id clientId staticVpnIp).sessions.lookup owner = some y ∧
        y.vpnIp = some vpnIp := by
    intro vpnIp owner hentry
    obtain ⟨y, hy, hip⟩ := h vpnIp owner hentry
    have hne : owner ≠ id := by
      rintro rfl
      rw [hx] at hy
      cases hy
      rw [hnone] at hip
      cases hip
    refine ⟨y, ?_, hip⟩
    rw [lookup_identify, if_neg hne]
    exact hy
  intro vpnIp owner hentry
  cases staticVpnIp with
  | none =>
    simp only [SessionManager.identify, hx] at hentry
    exact hold vpnIp owner hentry
  | some own =>
    cases clientId with
    | some clientId =>
      simp only [SessionManager.identify, hx] at hentry
      exact hold vpnIp owner hentry
    | none =>
      simp only [SessionManager.identify, hx] at hentry
      rcases Table.cases_insert hentry with ⟨rfl, rfl⟩ | hentry
      · rw [lookup_identify, if_pos rfl, hx]
        exact ⟨_, rfl, rfl⟩
      · exact hold vpnIp owner hentry

theorem Routed.created {call : ClientCall} (hfresh : m.sessions.lookup call.sessionId = none)
    (own : OwnSessions) (keys ratchetedKeys : SessionKeys) :
    (m.created env call own keys ratchetedKeys).Routed := by
  have hclaimed : ((m.removeAll (call.interference.upTo 3)).claimed env keys
      call.clock.now).Routed := h.removeAll _
  have hunused : (((m.removeAll (call.interference.upTo 3)).claimed env keys
      call.clock.now).removeAll (own.abandoned.map Prod.fst)).sessions.lookup call.sessionId =
        none := by
    rw [lookup_removeAll, claimed, lookup_removeAll, hfresh]
    simp
  exact ((hclaimed.removeAll _).insertSession call.clock _ hunused).identify
    ((lookup_insertSession _ _ _ _ _).trans (if_pos rfl)) rfl _ _

end

def Step.drawsFreshId (m : SessionManager T) : Step T → Prop
  | .createClientSession call => m.sessions.lookup call.sessionId = none
  | .createMaskedPoolPeerSession call => m.sessions.lookup call.sessionId = none
  | _ => True

theorem Routed.perform (h : m.Routed) {step : Step T} (hfresh : step.drawsFreshId m) :
    (m.perform env step).Routed := by
  apply perform_keeps h
  · exact fun m m' hc hm => hm.change hc
  · exact fun m keys now hm => hm
  · rintro call own keys ratchetedKeys rfl - -
    exact h.created hfresh own keys ratchetedKeys
  · rintro call keys ratchetedKeys rfl - -
    have hclaimed : (m.claimed env keys call.clock.now).Routed := h
    exact hclaimed.insertSession call.clock _ hfresh
  · exact fun clock id op _ => h.onSession clock id op

/-- A lookup returns an owner of the address that packets are routed to. -/
theorem Routed.getSessionByVpnIp (h : m.Routed) {order : List SessionId}
    (hfound : (m.getSessionByVpnIp order vpnIp).1 = some id) :
    ∃ x, m.sessions.lookup id = some x ∧ x.vpnIp = some vpnIp ∧ x.routable = true := by
  unfold SessionManager.getSessionByVpnIp at hfound
  split at hfound
  · next owner hindexed =>
    cases hfound
    obtain ⟨hentry, hany⟩ := Option.filter_eq_some_iff.mp hindexed
    obtain ⟨x, hx, hip⟩ := h vpnIp id hentry
    rw [hx] at hany
    exact ⟨x, hx, hip, hany⟩
  · split at hfound
    · next owner hfind =>
      cases hfound
      have hany := List.find?_some hfind
      obtain ⟨x, hx, hp⟩ := exists_of_any hany
      rw [Bool.and_eq_true, decide_eq_true_eq] at hp
      exact ⟨x, hx, hp.1, hp.2⟩
    · cases hfound

/-- In every run in which no id is drawn twice at a time, the lookup of an address returns only
sessions that own it and are routable; and a removal leaves the entries of other sessions. -/
theorem vpn_routing_sound (env : ManagerEnv T) (steps : List (Step T))
    (hfresh : ∀ (k : Nat) (step : Step T), steps[k]? = some step →
      step.drawsFreshId (after env steps k)) :
    (∀ k order vpnIp id, ((after env steps k).getSessionByVpnIp order vpnIp).1 = some id →
      ∃ x, (after env steps k).sessions.lookup id = some x ∧ x.vpnIp = some vpnIp ∧
        x.routable = true) ∧
    (∀ k id owner vpnIp, (after env steps k).vpnIpMap.lookup vpnIp = some owner → owner ≠ id →
      ((after env steps k).removeSession id).vpnIpMap.lookup vpnIp = some owner) := by
  refine ⟨fun k order vpnIp id hfound => ?_, fun k id owner vpnIp h hne =>
    lookup_vpnIpMap_of_ne h hne⟩
  have hrouted : (after env steps k).Routed := by
    refine stateAt_keeps (P := Routed) (Nat.zero_le k) (fun vpnIp id h => by cases h) ?_
    intro n step _ _ hstep hm
    exact hm.perform (hfresh n step hstep)
  exact hrouted.getSessionByVpnIp hfound

/-- A client is admitted and comes back, and its address is looked up once more before the second
session is admitted. -/
def takenOver : List (Step (Bytes32 × Nat × UInt64)) :=
  [.createClientSession (sampleCall ⟨0, 100⟩ 1 1 (some "phone")),
    .onSession ⟨1, 100⟩ (sampleId 1) .completeRatchet,
    .commitClientAdmission ⟨2, 100⟩ (sampleId 1) true,
    .createClientSession (sampleCall ⟨3, 100⟩ 2 2 (some "phone")),
    .getSessionByVpnIp [sampleId 1, sampleId 2] 167772162,
    .onSession ⟨4, 100⟩ (sampleId 2) .completeRatchet,
    .commitClientAdmission ⟨5, 100⟩ (sampleId 2) true]

theorem vpn_routing_sound_takenOver :
    ((after sampleEnv takenOver 5).getSessionByVpnIp [] 167772162).1 = some (sampleId 1) ∧
    ((after sampleEnv takenOver 7).getSessionByVpnIp [] 167772162).1 = some (sampleId 2) ∧
    ∃ x, (after sampleEnv takenOver 7).sessions.lookup (sampleId 2) = some x ∧
      x.vpnIp = some 167772162 ∧ x.routable = true := by
  have hfresh : ∀ (k : Nat) (step : Step (Bytes32 × Nat × UInt64)), takenOver[k]? = some step →
      step.drawsFreshId (after sampleEnv takenOver k) := by
    intro k step hstep
    match k with
    | 0 | 3 =>
      cases hstep
      exact Option.isNone_iff_eq_none.mp (by decide +kernel)
    | 1 | 2 | 4 | 5 | 6 =>
      cases hstep
      trivial
    | k + 7 => cases hstep
  have hlast : ((after sampleEnv takenOver 7).getSessionByVpnIp [] 167772162).1 =
      some (sampleId 2) := by decide +kernel
  exact ⟨by decide +kernel, hlast,
    (vpn_routing_sound sampleEnv takenOver hfresh).1 7 [] 167772162 (sampleId 2) hlast⟩

end SessionManager

end AivpnSpec.Server
