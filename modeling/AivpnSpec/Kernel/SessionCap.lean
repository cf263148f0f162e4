import AivpnSpec.Base.Runs
import AivpnSpec.Kernel.SessionTable
import Mathlib

/-!
# The cap on the sessions of a client

A policy takes a slot of its client only if fewer other sessions of the client hold one than the
policy allows. Replacing a session publishes it without a slot, so the number of slots never
exceeds the cap that all policies of the client name.
-/

namespace AivpnSpec.Kernel

open AivpnSpec.Base

/-- What adds and removes sessions and their slots. -/
inductive SlotStep where
  | insertBegin (add : SessionAdd) (allocated : Bool)
  | insertEnd
  | removeBegin (id : SessionId)
  | removeEnd
  | policySet (id : SessionId) (input : SessionPolicy) (allocated : Bool)

namespace KernModule

def performSlot (m : KernModule) : SlotStep → KernModule
  | .insertBegin add allocated => m.insertBegin add allocated
  | .insertEnd => m.insertEnd
  | .removeBegin id => m.removeBegin id
  | .removeEnd => m.removeEnd
  | .policySet id input allocated => (m.sessionPolicySet id input allocated).2

def armedSlots (m : KernModule) (key : ClientKey) : Nat :=
  m.sessions.count fun _ s => decide (s.pol.clientKey = key) && polSlotArmed s.pol

variable {m m' : KernModule} {key : ClientKey} {cap : UInt32} {id : SessionId}

/-- Slots are only lost where every session is one of before or holds none. -/
theorem armedSlots_le (h : ∀ id s, m'.sessions.lookup id = some s → polSlotArmed s.pol = true →
    s.pol.clientKey = key → m.sessions.lookup id = some s) :
    m'.armedSlots key ≤ m.armedSlots key := by
  apply Table.count_le_count
  intro id s hs hp
  obtain ⟨hkey, harmed⟩ := Bool.and_eq_true_iff.mp hp
  exact ⟨s, h id s hs harmed (of_decide_eq_true hkey), hp⟩

theorem not_armed {p : Pol} (h : p.armed = false) : polSlotArmed p = false := by
  simp [polSlotArmed, h]

theorem armedSlots_setSession {s : KernSession}
    (hnone : polSlotArmed s.pol = true → s.pol.clientKey ≠ key) :
    (m.setSession id s).armedSlots key ≤ m.armedSlots key := by
  apply armedSlots_le
  intro id' s' hs harmed hkey
  rcases Table.cases_insert hs with ⟨-, rfl⟩ | hs
  · exact absurd hkey (hnone harmed)
  · exact hs

theorem armedSlots_detach (lifecycle : Lifecycle) :
    (m.detach id lifecycle).armedSlots key ≤ m.armedSlots key := by
  apply armedSlots_le
  intro id' s hs _ _
  exact (Table.of_lookup_erase hs).2

theorem othersArmed_eq (m : KernModule) (id : SessionId) (hkey : keyNonzero key = true) :
    m.othersArmed id key = m.sessions.count fun other s =>
      decide (other ≠ id) && (decide (s.pol.clientKey = key) && polSlotArmed s.pol) := by
  rw [othersArmed, if_neg (by simp [hkey])]
  congr 1
  funext other s
  by_cases hs : s.pol.clientKey = key <;> simp [hs, hkey]

/-- A slot is taken next to fewer others than the cap. -/
theorem armedSlots_policySet (hkey : keyNonzero key = true) (hcap : 0 < cap)
    (input : SessionPolicy) (allocated : Bool)
    (hsame : input.clientKey = key → input.maxSessions = cap)
    (h : m.armedSlots key ≤ cap.toNat) :
    (m.sessionPolicySet id input allocated).2.armedSlots key ≤ cap.toNat := by
  unfold sessionPolicySet
  split
  · exact h
  next s hs =>
  split
  · exact h
  next pol hpol =>
  have hunarmed : ∀ p : Pol, (m.setSession id { s with pol := unarmed p }).armedSlots key ≤
      cap.toNat := fun p =>
    (armedSlots_setSession fun harmed => by
      rw [not_armed rfl] at harmed
      cases harmed).trans h
  split
  · next qos hqos =>
    show (m.setSession id _).armedSlots key ≤ cap.toNat
    split
    · exact hunarmed pol
    next hfree =>
    obtain ⟨hclient, hmax⟩ : pol.clientKey = input.clientKey ∧
        pol.maxSessions = input.maxSessions := by
      unfold polApply at hpol
      split_ifs at hpol
      cases hpol
      exact ⟨rfl, rfl⟩
    by_cases hown : input.clientKey = key
    · -- one slot next to the others
      have hcount := m.othersArmed_eq id hkey
      have hothers : m.othersArmed id key ≤ m.armedSlots key := by
        rw [hcount]
        apply Table.count_le_count
        intro id' s' hs' hp
        exact ⟨s', hs', (Bool.and_eq_true_iff.mp hp).2⟩
      have hlt : m.othersArmed id key + 1 ≤ cap.toNat := by
        have := cap.toNat_lt
        rw [hmax, hsame hown, hown] at hfree
        simp only [polOverCap, Bool.and_eq_true, decide_eq_true_eq, hcap, true_and,
          UInt32.not_le, UInt32.lt_iff_toNat_lt, UInt32.toNat_ofNat'] at hfree
        omega
      rw [hcount] at hlt
      refine le_trans (Table.count_le_succ id ?_) hlt
      intro id' s' hs' hp hne
      rw [setSession, Table.lookup_insert_eq, if_neg hne] at hs'
      exact ⟨s', hs', by simpa [hne] using hp⟩
    · exact (armedSlots_setSession fun _ => hclient ▸ hown).trans h
  · exact hunarmed _

/-- However sessions come, go and change their policies, the sessions of a client hold no more slots
than the cap that all its policies name. -/
theorem armed_slots_within_cap (key : ClientKey) (cap : UInt32) (hkey : keyNonzero key = true)
    (hcap : 0 < cap) (steps : List SlotStep)
    (hsame : ∀ id input allocated, .policySet id input allocated ∈ steps →
      input.clientKey = key → input.maxSessions = cap) (k : Nat) :
    (stateAt performSlot .empty steps k).armedSlots key ≤ cap.toNat := by
  refine stateAt_keeps (P := fun m : KernModule => m.armedSlots key ≤ cap.toNat) (Nat.zero_le k)
    (Nat.zero_le _) ?_
  intro j step _ _ hstep h
  cases step with
  | insertBegin add allocated =>
    simp only [performSlot, KernModule.insertBegin]
    split
    · split
      · exact h
      · split
        · exact h
        · exact (armedSlots_detach _).trans h
    · exact h
  | insertEnd =>
    simp only [performSlot, KernModule.insertEnd]
    split
    · next add old _ =>
      split
      · exact h
      split
      · exact h
      · refine le_trans (armedSlots_setSession fun harmed => ?_) h
        rw [not_armed (by cases old <;> rfl)] at harmed
        cases harmed
    · exact h
  | removeBegin id =>
    simp only [performSlot, KernModule.removeBegin]
    split
    · split
      · exact h
      · exact (armedSlots_detach _).trans h
    · exact h
  | removeEnd =>
    simp only [performSlot, KernModule.removeEnd]
    split
    · split <;> exact h
    · exact h
  | policySet id input allocated =>
    exact armedSlots_policySet hkey hcap input allocated
      (hsame id input allocated (List.mem_of_getElem? hstep)) h

def twoSessions : List SlotStep :=
  let policy : SessionPolicy :=
    { policyVersion := policyVersion, role := roleServer, flags := 0
      clientIpv4 := sampleIpv4, ipv6Prefix := Vector.replicate 16 0, ipv6PrefixLen := 0
      rateUpBps := 0, rateDownBps := 0, quotaUpBytes := 0, quotaDownBytes := 0
      maxSessions := 1, clientKey := Vector.replicate 16 7 }
  let addr := Vector.replicate 28 0
  [.insertBegin ⟨Vector.replicate 16 1, addr⟩ true, .insertEnd,
    .insertBegin ⟨Vector.replicate 16 2, addr⟩ true, .insertEnd,
    .policySet (Vector.replicate 16 1) policy true, .policySet (Vector.replicate 16 2) policy true]

theorem armed_slots_within_cap_twoSessions :
    (stateAt performSlot .empty twoSessions 6).armedSlots (Vector.replicate 16 7) ≤ 1 ∧
      (stateAt performSlot .empty twoSessions 6).armedSlots (Vector.replicate 16 7) = 1 := by
  refine ⟨armed_slots_within_cap (Vector.replicate 16 7) 1 (by decide) (by decide) twoSessions ?_ 6,
    by decide +kernel⟩
  intro id input allocated hmem _
  simp only [twoSessions, List.mem_cons, reduceCtorEq, SlotStep.policySet.injEq, false_or] at hmem
  rcases hmem with ⟨-, rfl, -⟩ | ⟨-, rfl, -⟩ | hmem
  · rfl
  · rfl
  · cases hmem

end KernModule

end AivpnSpec.Kernel
