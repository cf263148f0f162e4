import AivpnSpec.Server.NodeRegistry

/-!
# Node revocation across processes

A saved revocation is in the file, and every operation of every process begins by reading
the file; a revocation that could not be saved is in the memory of the process that tried.
Both are invariants of the operations that do not lift them.
-/

namespace AivpnSpec.Server

open AivpnSpec.Base

/-- What the memory of a process satisfies between operations: it knows no node before it has
seen the file, and every unsaved revocation is in force. -/
structure RegistryState.Sound (state : RegistryState) : Prop where
  fresh : state.existed = false → ∀ id, state.nodes.lookup id = none
  unsaved : state.unsavedRevocations ⊆ state.revoked

namespace RegistryState

variable {env : RegistryEnv} {state state' : RegistryState} {file : Option PersistedStore}
  {faults : Faults}

theorem empty_sound : RegistryState.empty.Sound :=
  ⟨fun _ _ => AList.lookup_empty _, Finset.empty_subset _⟩

/-- The memory mirrors the file, with the unsaved revocations added; there is no file before
the first process has written one. -/
inductive Mirrors (state : RegistryState) (file : Option PersistedStore) : RegistryState → Prop
  | file (store : PersistedStore) (hf : file = some store) (state' : RegistryState)
      (hn : state'.nodes = store.nodes)
      (hr : state'.revoked = store.revoked ∪ state.unsavedRevocations)
      (hu : state'.unsavedRevocations = state.unsavedRevocations)
      (he : state'.existed = true) : Mirrors state file state'
  | absent (hf : file = none) (he : state.existed = false) : Mirrors state file state

/-- A successful reading of the file. -/
theorem checkHealth_ok (h : state.checkHealth env file faults = (.ok (), state')) :
    Mirrors state file state' := by
  unfold checkHealth at h
  split at h
  · cases h
  unfold refresh at h
  split at h
  · cases h
  unfold readFile at h
  by_cases hr : faults.read = true
  · simp [hr] at h
  simp only [hr, if_false, Bool.false_eq_true] at h
  cases file with
  | none =>
    cases he : state.existed with
    | true => simp [he] at h
    | false =>
      simp only [he, if_false, Bool.false_eq_true, Prod.mk.injEq, true_and] at h
      subst h
      exact .absent rfl he
  | some store =>
    by_cases hs : store.readable env = true
    · simp only [hs, if_true, Prod.mk.injEq, true_and] at h
      subst h
      exact .file store rfl _ rfl rfl rfl rfl
    · simp [hs] at h

/-- A failed reading changes nothing but the poison mark. -/
theorem checkHealth_error {e : RegistryError}
    (h : state.checkHealth env file faults = (.error e, state')) :
    state'.nodes = state.nodes ∧ state'.revoked = state.revoked ∧
    state'.unsavedRevocations = state.unsavedRevocations ∧ state'.existed = state.existed := by
  unfold checkHealth at h
  split at h
  · cases h
    exact ⟨rfl, rfl, rfl, rfl⟩
  unfold refresh at h
  split at h
  · cases h
    exact ⟨rfl, rfl, rfl, rfl⟩
  cases hr : state.readFile env file faults with
  | ok s =>
    rw [hr] at h
    cases h
  | error e' =>
    rw [hr] at h
    cases h
    exact ⟨rfl, rfl, rfl, rfl⟩

/-- A memory that is still sound and has the same unsaved revocations. -/
structure Keeps (state state' : RegistryState) : Prop where
  sound : state.Sound → state'.Sound
  unsaved : state'.unsavedRevocations = state.unsavedRevocations

theorem Mirrors.keeps (h : Mirrors state file state') : Keeps state state' := by
  cases h with
  | file store hf state' hn hr hu he =>
    refine ⟨fun _ => ⟨fun hc => ?_, ?_⟩, hu⟩
    · rw [he] at hc
      cases hc
    · rw [hr, hu]
      exact Finset.subset_union_right
  | absent hf he => exact ⟨id, rfl⟩

/-- With a file there, the memory holds its nodes and at least its revocations. -/
theorem Mirrors.of_some {store : PersistedStore} (h : Mirrors state (some store) state') :
    state'.nodes = store.nodes ∧
    state'.revoked = store.revoked ∪ state.unsavedRevocations := by
  cases h with
  | file store' hf state' hn hr hu he =>
    cases hf
    exact ⟨hn, hr⟩
  | absent hf he => cases hf

/-- A node the memory knows is in the file. -/
theorem Mirrors.lookup (h : Mirrors state file state') (hs : state.Sound) {id : String}
    {key : NodeKey} (hl : state'.nodes.lookup id = some key) :
    ∃ store, file = some store ∧ store.nodes.lookup id = some key := by
  cases h with
  | file store hf state' hn hr hu he => exact ⟨store, hf, by rw [← hn]; exact hl⟩
  | absent hf he =>
    rw [hs.fresh he id] at hl
    cases hl

/-- The file is read, or nothing of it is taken over. -/
theorem checkHealth_cases (env : RegistryEnv) (state : RegistryState)
    (file : Option PersistedStore) (faults : Faults) :
    (∃ e state', state.checkHealth env file faults = (.error e, state') ∧ Keeps state state') ∨
    ∃ state', state.checkHealth env file faults = (.ok (), state') ∧ Mirrors state file state' := by
  cases h : state.checkHealth env file faults with
  | mk result state' =>
    cases result with
    | ok u => exact .inr ⟨state', rfl, checkHealth_ok h⟩
    | error e =>
      obtain ⟨hn, hr, hu, he⟩ := checkHealth_error h
      refine .inl ⟨e, state', rfl, fun hs => ⟨?_, ?_⟩, hu⟩
      · rw [he, hn]
        exact hs.fresh
      · rw [hu, hr]
        exact hs.unsaved

theorem checkHealth_keeps : Keeps state (state.checkHealth env file faults).2 := by
  rcases checkHealth_cases env state file faults with ⟨e, state', h, hk⟩ | ⟨state', h, hm⟩
  · rw [h]
    exact hk
  · rw [h]
    exact hm.keeps

/-! ### The four operations -/

/-- What `authenticate` does: reject, verify a known node, or bind a new one. -/
inductive Authenticates (env : RegistryEnv) (state : RegistryState)
    (file : Option PersistedStore) (request : NodeEnrollment) :
    NodeAuthOutcome × RegistryState × Option PersistedStore → Prop where
  | rejected (reason : String) (state' : RegistryState) (hs : state.Sound → state'.Sound)
      (hu : state'.unsavedRevocations = state.unsavedRevocations) :
      Authenticates env state file request (.rejected reason, state', file)
  | verified (state' : RegistryState) (hm : Mirrors state file state')
      (hr : request.nodeId ∉ state'.revoked)
      (hl : state'.nodes.lookup request.nodeId = some request.nodePub) :
      Authenticates env state file request (.verified, state', file)
  | boundNew (state' : RegistryState) (hm : Mirrors state file state')
      (hr : request.nodeId ∉ state'.revoked)
      (hl : state'.nodes.lookup request.nodeId = none) :
      Authenticates env state file request
        (.boundNew,
          { state' with nodes := state'.nodes.insert request.nodeId request.nodePub
                        existed := true },
          some { nodes := state'.nodes.insert request.nodeId request.nodePub
                 revoked := state'.revoked })

theorem authenticate_spec (env : RegistryEnv) (allowAutoAdd : Bool) (state : RegistryState)
    (file : Option PersistedStore) (request : NodeEnrollment) (cur : Nat) (faults : Faults) :
    Authenticates env state file request
      (state.authenticate env allowAutoAdd file request cur faults) := by
  unfold authenticate
  split
  · exact .rejected _ _ id rfl
  split
  · exact .rejected _ _ id rfl
  rcases checkHealth_cases env state file faults with ⟨e, state', h, hk⟩ | ⟨state', h, hm⟩
  · rw [h]
    exact .rejected _ _ hk.sound hk.unsaved
  have hk := hm.keeps
  rw [h]
  simp only
  by_cases hr : request.nodeId ∈ state'.revoked
  · rw [if_pos hr]
    exact .rejected _ _ hk.sound hk.unsaved
  rw [if_neg hr]
  cases hl : state'.nodes.lookup request.nodeId with
  | some stored =>
    simp only
    by_cases heq : stored = request.nodePub
    · rw [if_pos heq]
      exact .verified state' hm hr (by rw [hl, heq])
    · rw [if_neg heq]
      exact .rejected _ _ hk.sound hk.unsaved
  | none =>
    by_cases ha : (!allowAutoAdd) = true
    · rw [if_pos ha]
      exact .rejected _ _ hk.sound hk.unsaved
    rw [if_neg ha]
    unfold persist
    by_cases hw : faults.write = true
    · simp only [if_pos hw]
      refine .rejected _ _ (fun hs => ⟨?_, (hk.sound hs).unsaved⟩) hk.unsaved
      intro he id
      rw [Table.lookup_erase_eq, Table.lookup_insert_eq]
      split
      · rfl
      · exact (hk.sound hs).fresh he id
    · simp only [if_neg hw]
      exact .boundNew state' hm hr hl

theorem keepRevoked_sound (hs : state.Sound) (id : String) : (state.keepRevoked id).Sound := by
  refine ⟨?_, Finset.insert_subset_insert _ hs.unsaved⟩
  intro he id'
  show (state.nodes.erase id).lookup id' = none
  rw [Table.lookup_erase_eq, hs.fresh he id']
  exact ite_self _

/-- What `try_revoke` does: save the revocation, or keep it in memory. -/
inductive Revokes (state : RegistryState) (file : Option PersistedStore) (id : String) :
    Except RegistryError Bool × RegistryState × Option PersistedStore → Prop where
  | saved (changed : Bool) (state' : RegistryState) (hm : Mirrors state file state') :
      Revokes state file id
        (.ok changed,
          { state' with nodes := state'.nodes.erase id
                        revoked := insert id state'.revoked
                        existed := true
                        unsavedRevocations := state'.unsavedRevocations.erase id },
          some { nodes := state'.nodes.erase id, revoked := insert id state'.revoked })
  | failed (e : RegistryError) (state' : RegistryState) (hs : state.Sound → state'.Sound)
      (hu : state'.unsavedRevocations = insert id state.unsavedRevocations) :
      Revokes state file id (.error e, state', file)

theorem tryRevoke_spec (env : RegistryEnv) (state : RegistryState)
    (file : Option PersistedStore) (id : String) (faults : Faults) :
    Revokes state file id (state.tryRevoke env file id faults) := by
  unfold tryRevoke
  rcases checkHealth_cases env state file faults with ⟨e, state', h, hk⟩ | ⟨state', h, hm⟩
  · rw [h]
    refine .failed e _ (fun hs => keepRevoked_sound (hk.sound hs) id) ?_
    show insert id state'.unsavedRevocations = _
    rw [hk.unsaved]
  have hk := hm.keeps
  rw [h]
  unfold persist
  by_cases hw : faults.write = true
  · simp only [if_pos hw]
    refine .failed _ _ (fun hs => keepRevoked_sound ⟨?_, ?_⟩ id) ?_
    · intro he id'
      rw [Table.lookup_erase_eq, (hk.sound hs).fresh he id']
      exact ite_self _
    · exact Finset.Subset.trans (hk.sound hs).unsaved (Finset.subset_insert _ _)
    · show insert id state'.unsavedRevocations = _
      rw [hk.unsaved]
  · simp only [if_neg hw]
    exact .saved _ state' hm

/-- What `try_unrevoke` does: save the approval, or change nothing. -/
inductive Unrevokes (state : RegistryState) (file : Option PersistedStore) (id : String) :
    Except RegistryError Bool × RegistryState × Option PersistedStore → Prop where
  | saved (state' : RegistryState) (hm : Mirrors state file state') :
      Unrevokes state file id
        (.ok true,
          { state' with revoked := state'.revoked.erase id
                        existed := true
                        unsavedRevocations := state'.unsavedRevocations.erase id },
          some { nodes := state'.nodes, revoked := state'.revoked.erase id })
  | unchanged (answer : Except RegistryError Bool) (state' : RegistryState)
      (ha : answer ≠ .ok true) (hs : state.Sound → state'.Sound)
      (hu : state'.unsavedRevocations = state.unsavedRevocations) :
      Unrevokes state file id (answer, state', file)

theorem tryUnrevoke_spec (env : RegistryEnv) (state : RegistryState)
    (file : Option PersistedStore) (id : String) (faults : Faults) :
    Unrevokes state file id (state.tryUnrevoke env file id faults) := by
  unfold tryUnrevoke
  rcases checkHealth_cases env state file faults with ⟨e, state', h, hk⟩ | ⟨state', h, hm⟩
  · rw [h]
    exact .unchanged _ _ (by simp) hk.sound hk.unsaved
  have hk := hm.keeps
  rw [h]
  simp only
  by_cases hr : id ∉ state'.revoked
  · rw [if_pos hr]
    exact .unchanged _ _ (by simp) hk.sound hk.unsaved
  rw [if_neg hr]
  unfold persist
  by_cases hw : faults.write = true
  · simp only [if_pos hw]
    refine .unchanged _ _ (by simp) (fun hs => ⟨(hk.sound hs).fresh, ?_⟩) hk.unsaved
    rw [Finset.insert_erase (not_not.mp hr)]
    exact (hk.sound hs).unsaved
  · simp only [if_neg hw]
    exact .saved state' hm

/-- An authorised node is in the memory and not revoked there. -/
theorem isAuthorized_spec (env : RegistryEnv) (state : RegistryState)
    (file : Option PersistedStore) (id : String) (key : NodeKey) (faults : Faults) :
    let r := state.isAuthorized env file id key faults
    (r.1 = true → Mirrors state file r.2 ∧ id ∉ r.2.revoked ∧ r.2.nodes.lookup id = some key) ∧
      Keeps state r.2 := by
  unfold isAuthorized
  rcases checkHealth_cases env state file faults with ⟨e, state', h, hk⟩ | ⟨state', h, hm⟩
  · rw [h]
    exact ⟨fun hc => (by cases hc), hk⟩
  rw [h]
  refine ⟨?_, hm.keeps⟩
  intro hok
  obtain ⟨hl, hr⟩ := of_decide_eq_true hok
  exact ⟨hm, hr, hl⟩

end RegistryState

/-! ### One operation -/

/-- What an operation and its answer mean to the node or process they are about. -/
inductive RegistryEvent where
  | admitted (p : Nat) (nodeId : String) (nodePub : NodeKey)
  | revoked (p : Nat) (nodeId : String)
  | revokeFailed (p : Nat) (nodeId : String)
  | unrevoked (p : Nat) (nodeId : String)
  | restarted (p : Nat)
  deriving DecidableEq

/-- The event of an operation with its answer; none if nothing was admitted or changed. -/
def eventOf : RegistryAction → RegistryAnswer → Option RegistryEvent
  | .authenticate p _ request _ _, .auth .verified =>
    some (.admitted p request.nodeId request.nodePub)
  | .authenticate p _ request _ _, .auth .boundNew =>
    some (.admitted p request.nodeId request.nodePub)
  | .isAuthorized p nodeId nodePub _, .authorized true => some (.admitted p nodeId nodePub)
  | .tryRevoke p nodeId _, .changed (.ok _) => some (.revoked p nodeId)
  | .tryRevoke p nodeId _, .changed (.error _) => some (.revokeFailed p nodeId)
  | .tryUnrevoke p nodeId _, .changed (.ok true) => some (.unrevoked p nodeId)
  | .restart p _, _ => some (.restarted p)
  | _, _ => none

namespace RegistryWorld

open RegistryState (Mirrors)

variable {env : RegistryEnv} {w w' : RegistryWorld} {event : Option RegistryEvent}
  {state : RegistryState} {p : Nat}

def Sound (w : RegistryWorld) : Prop := ∀ p, (w.procs p).Sound

/-- What an event does to the memory of its process and to the file. -/
inductive Effect (w : RegistryWorld) : Option RegistryEvent → RegistryWorld → Prop where
  | quiet (p : Nat) (state : RegistryState) (hs : (w.procs p).Sound → state.Sound)
      (hu : state.unsavedRevocations = (w.procs p).unsavedRevocations) :
      Effect w none (w.set p state w.file)
  | verified (p : Nat) (id : String) (key : NodeKey) (state : RegistryState)
      (hm : Mirrors (w.procs p) w.file state) (hr : id ∉ state.revoked)
      (hl : state.nodes.lookup id = some key) :
      Effect w (some (.admitted p id key)) (w.set p state w.file)
  | bound (p : Nat) (id : String) (key : NodeKey) (state : RegistryState)
      (hm : Mirrors (w.procs p) w.file state) (hr : id ∉ state.revoked)
      (hl : state.nodes.lookup id = none) :
      Effect w (some (.admitted p id key))
        (w.set p { state with nodes := state.nodes.insert id key, existed := true }
          (some { nodes := state.nodes.insert id key, revoked := state.revoked }))
  | revoked (p : Nat) (id : String) (state : RegistryState)
      (hm : Mirrors (w.procs p) w.file state) :
      Effect w (some (.revoked p id))
        (w.set p { state with nodes := state.nodes.erase id
                              revoked := insert id state.revoked
                              existed := true
                              unsavedRevocations := state.unsavedRevocations.erase id }
          (some { nodes := state.nodes.erase id, revoked := insert id state.revoked }))
  | revokeFailed (p : Nat) (id : String) (state : RegistryState)
      (hs : (w.procs p).Sound → state.Sound)
      (hu : state.unsavedRevocations = insert id (w.procs p).unsavedRevocations) :
      Effect w (some (.revokeFailed p id)) (w.set p state w.file)
  | unrevoked (p : Nat) (id : String) (state : RegistryState)
      (hm : Mirrors (w.procs p) w.file state) :
      Effect w (some (.unrevoked p id))
        (w.set p { state with revoked := state.revoked.erase id
                              existed := true
                              unsavedRevocations := state.unsavedRevocations.erase id }
          (some { nodes := state.nodes, revoked := state.revoked.erase id }))
  | restarted (p : Nat) (state : RegistryState) (hs : state.Sound) :
      Effect w (some (.restarted p)) (w.set p state w.file)

/-- Every operation has the effect of its event. -/
theorem perform_effect (env : RegistryEnv) (w : RegistryWorld) (action : RegistryAction) :
    Effect w (eventOf action (w.perform env action).1) (w.perform env action).2 := by
  cases action with
  | authenticate p allowAutoAdd request cur faults =>
    have hspec := RegistryState.authenticate_spec env allowAutoAdd (w.procs p) w.file request
      cur faults
    simp only [perform]
    generalize (w.procs p).authenticate env allowAutoAdd w.file request cur faults = out at hspec ⊢
    cases hspec with
    | rejected reason state hs hu => exact .quiet p state hs hu
    | verified state hm hr hl => exact .verified p _ _ state hm hr hl
    | boundNew state hm hr hl => exact .bound p _ _ state hm hr hl
  | isAuthorized p nodeId nodePub faults =>
    have hspec := RegistryState.isAuthorized_spec env (w.procs p) w.file nodeId nodePub faults
    simp only [perform]
    generalize (w.procs p).isAuthorized env w.file nodeId nodePub faults = out at hspec ⊢
    obtain ⟨ok, state⟩ := out
    cases ok with
    | false => exact .quiet p state hspec.2.sound hspec.2.unsaved
    | true =>
      obtain ⟨hm, hr, hl⟩ := hspec.1 rfl
      exact .verified p nodeId nodePub state hm hr hl
  | tryRevoke p nodeId faults =>
    have hspec := RegistryState.tryRevoke_spec env (w.procs p) w.file nodeId faults
    simp only [perform]
    generalize (w.procs p).tryRevoke env w.file nodeId faults = out at hspec ⊢
    cases hspec with
    | failed e state hs hu => exact .revokeFailed p nodeId state hs hu
    | saved changed state hm => exact .revoked p nodeId state hm
  | tryUnrevoke p nodeId faults =>
    have hspec := RegistryState.tryUnrevoke_spec env (w.procs p) w.file nodeId faults
    simp only [perform]
    generalize (w.procs p).tryUnrevoke env w.file nodeId faults = out at hspec ⊢
    cases hspec with
    | saved state hm => exact .unrevoked p nodeId state hm
    | unchanged answer state ha hs hu =>
      have hnone : eventOf (.tryUnrevoke p nodeId faults) (.changed answer) = none := by
        unfold eventOf
        split <;> simp_all
      simp only [hnone]
      exact .quiet p state hs hu
  | checkHealth p faults =>
    exact .quiet p _ RegistryState.checkHealth_keeps.sound RegistryState.checkHealth_keeps.unsaved
  | restart p faults =>
    exact .restarted p _ (RegistryState.checkHealth_keeps.sound RegistryState.empty_sound)

theorem set_sound (h : w.Sound) (hs : state.Sound) (file : Option PersistedStore) :
    Sound (w.set p state file) := by
  intro q
  apply SharedFile.set_forall (P := fun _ (s : RegistryState) => s.Sound)
  · intro r _
    exact h r
  · exact hs

/-- Operations keep the memories sound. -/
theorem Effect.sound (heff : Effect w event w') (h : w.Sound) : w'.Sound := by
  cases heff with
  | quiet p state hs hu | revokeFailed p id state hs hu => exact set_sound h (hs (h p)) _
  | verified p id key state hm hr hl => exact set_sound h (hm.keeps.sound (h p)) _
  | bound p id key state hm hr hl =>
    apply set_sound h
    exact ⟨fun hc => (by cases hc), (hm.keeps.sound (h p)).unsaved⟩
  | revoked p id state hm =>
    apply set_sound h
    refine ⟨fun hc => (by cases hc), ?_⟩
    exact Finset.Subset.trans (Finset.erase_subset _ _)
      (Finset.Subset.trans (hm.keeps.sound (h p)).unsaved (Finset.subset_insert _ _))
  | unrevoked p id state hm =>
    apply set_sound h
    exact ⟨fun hc => (by cases hc), Finset.erase_subset_erase _ (hm.keeps.sound (h p)).unsaved⟩
  | restarted p state hs => exact set_sound h hs _

/-- The file lists `id` as revoked. -/
def FileRevokes (w : RegistryWorld) (id : String) : Prop :=
  ∃ store, w.file = some store ∧ id ∈ store.revoked

/-- The file binds `id` to `key`. -/
def FileBinds (w : RegistryWorld) (id : String) (key : NodeKey) : Prop :=
  ∃ store, w.file = some store ∧ store.nodes.lookup id = some key

variable {id : String} {key : NodeKey} {q : Nat}

theorem mem_revoked_of_mirrors (h : w.FileRevokes id) (hm : Mirrors (w.procs p) w.file state) :
    id ∈ state.revoked := by
  obtain ⟨store, hf, hin⟩ := h
  rw [hf] at hm
  rw [hm.of_some.2]
  exact Finset.mem_union_left _ hin

theorem lookup_of_mirrors (h : w.FileBinds id key) (hm : Mirrors (w.procs p) w.file state) :
    state.nodes.lookup id = some key := by
  obtain ⟨store, hf, hl⟩ := h
  rw [hf] at hm
  rw [hm.of_some.1]
  exact hl

/-- Only an approval of the node takes its revocation out of the file. -/
theorem Effect.fileRevokes (heff : Effect w event w') (h : w.FileRevokes id)
    (hno : ∀ p, event ≠ some (.unrevoked p id)) : w'.FileRevokes id := by
  cases heff with
  | quiet | verified | revokeFailed | restarted => exact h
  | bound p id' key state hm hr hl => exact ⟨_, rfl, mem_revoked_of_mirrors h hm⟩
  | revoked p id' state hm =>
    exact ⟨_, rfl, Finset.mem_insert_of_mem (mem_revoked_of_mirrors h hm)⟩
  | unrevoked p id' state hm =>
    refine ⟨_, rfl, Finset.mem_erase.mpr ⟨?_, mem_revoked_of_mirrors h hm⟩⟩
    intro heq
    exact hno p (by rw [heq])

/-- Only a revocation of the node takes its key out of the file. -/
theorem Effect.fileBinds (heff : Effect w event w') (h : w.FileBinds id key)
    (hno : ∀ p, event ≠ some (.revoked p id)) : w'.FileBinds id key := by
  cases heff with
  | quiet | verified | revokeFailed | restarted => exact h
  | bound p id' key' state hm hr hl =>
    have hold := lookup_of_mirrors h hm
    refine ⟨_, rfl, ?_⟩
    rw [Table.lookup_insert_eq, if_neg]
    · exact hold
    · intro heq
      rw [heq, hl] at hold
      cases hold
  | revoked p id' state hm =>
    refine ⟨_, rfl, ?_⟩
    rw [Table.lookup_erase_eq, if_neg]
    · exact lookup_of_mirrors h hm
    · intro heq
      exact hno p (by rw [heq])
  | unrevoked p id' state hm => exact ⟨_, rfl, lookup_of_mirrors h hm⟩

theorem unsaved_set {file : Option PersistedStore} (h : id ∈ (w.procs p).unsavedRevocations)
    (hs : q = p → id ∈ state.unsavedRevocations) :
    id ∈ ((w.set q state file).procs p).unsavedRevocations := by
  refine SharedFile.set_forall
    (P := fun r (s : RegistryState) => r = p → id ∈ s.unsavedRevocations) ?_ hs p rfl
  intro r _ hr
  subst hr
  exact h

/-- A revocation that process `p` could not save stays with `p` until `p` saves one for the
node, approves the node or restarts. -/
theorem Effect.unsaved (heff : Effect w event w') (h : id ∈ (w.procs p).unsavedRevocations)
    (hrev : event ≠ some (.revoked p id)) (hun : event ≠ some (.unrevoked p id))
    (hre : event ≠ some (.restarted p)) : id ∈ (w'.procs p).unsavedRevocations := by
  cases heff with
  | quiet q state hs hu => exact unsaved_set h fun hq => by subst hq; rw [hu]; exact h
  | verified q id' key state hm hr hl | bound q id' key state hm hr hl =>
    exact unsaved_set h fun hq => by subst hq; rw [hm.keeps.unsaved]; exact h
  | revokeFailed q id' state hs hu =>
    exact unsaved_set h fun hq => by subst hq; rw [hu]; exact Finset.mem_insert_of_mem h
  | revoked q id' state hm | unrevoked q id' state hm =>
    refine unsaved_set h fun hq => ?_
    subst hq
    refine Finset.mem_erase.mpr ⟨?_, by rw [hm.keeps.unsaved]; exact h⟩
    rintro rfl
    first | exact hrev rfl | exact hun rfl
  | restarted q state hs =>
    refine unsaved_set h fun hq => ?_
    subst hq
    exact absurd rfl hre

/-- An admitted node is revoked neither in the file nor in the memory of the process, it is
not bound to another key, and it is bound to its key from then on. -/
theorem Effect.admitted (h : w.Sound) (heff : Effect w (some (.admitted p id key)) w') :
    ¬w.FileRevokes id ∧ id ∉ (w.procs p).unsavedRevocations ∧
    (∀ key', w.FileBinds id key' → key' = key) ∧ w'.FileBinds id key := by
  -- both kinds of admission read the memory right after it was refreshed
  have hmem : ∀ state, Mirrors (w.procs p) w.file state → id ∉ state.revoked →
      ¬w.FileRevokes id ∧ id ∉ (w.procs p).unsavedRevocations := by
    intro state hm hr
    constructor
    · intro hf
      exact hr (mem_revoked_of_mirrors hf hm)
    · intro hu
      rw [← hm.keeps.unsaved] at hu
      exact hr ((hm.keeps.sound (h p)).unsaved hu)
  cases heff with
  | verified p id key state hm hr hl =>
    obtain ⟨hf, hu⟩ := hmem state hm hr
    refine ⟨hf, hu, ?_, hm.lookup (h p) hl⟩
    intro key' hb
    have hl' := lookup_of_mirrors hb hm
    rw [hl] at hl'
    exact (Option.some.inj hl').symm
  | bound p id key state hm hr hl =>
    obtain ⟨hf, hu⟩ := hmem state hm hr
    refine ⟨hf, hu, ?_, _, rfl, ?_⟩
    · intro key' hb
      have hl' := lookup_of_mirrors hb hm
      rw [hl] at hl'
      cases hl'
    · rw [Table.lookup_insert_eq, if_pos rfl]

/-! ### Whole runs -/

section Runs

variable (env : RegistryEnv) (file : Option PersistedStore) (actions : List RegistryAction)

/-- The event of the `k`-th operation of the run. -/
def eventAt (k : Nat) : Option RegistryEvent :=
  actions[k]?.bind fun action =>
    eventOf action ((afterActions env file actions k).perform env action).1

variable {env file actions} {id : String} {k : Nat}

theorem effect_at {action : RegistryAction} (h : actions[k]? = some action) :
    Effect (afterActions env file actions k) (eventAt env file actions k)
      (afterActions env file actions (k + 1)) := by
  unfold afterActions
  rw [stateAt_succ h]
  unfold eventAt
  rw [h]
  exact perform_effect env _ action

theorem effect_of_event {e : RegistryEvent} (h : eventAt env file actions k = some e) :
    Effect (afterActions env file actions k) (some e) (afterActions env file actions (k + 1)) := by
  cases ha : actions[k]? with
  | none => simp [eventAt, ha] at h
  | some action =>
    rw [← h]
    exact effect_at ha

theorem afterActions_sound (k : Nat) : (afterActions env file actions k).Sound :=
  stateAt_invariant (I := Sound) (fun _ => RegistryState.empty_sound)
    (fun _ action hs => (perform_effect env _ action).sound hs) k

/-- A property that every effect between two operations keeps is carried from one to the
other. -/
theorem carried {P : RegistryWorld → Prop} {i j : Nat} (hij : i ≤ j)
    (hkeep : ∀ k, i ≤ k → k < j → ∀ w w', Effect w (eventAt env file actions k) w' → P w → P w')
    (h : P (afterActions env file actions i)) : P (afterActions env file actions j) := by
  refine stateAt_keeps hij h ?_
  intro k action hik hkj ha hP
  have heff := @effect_at env file _ _ _ ha
  unfold afterActions at heff
  rw [stateAt_succ ha] at heff
  exact hkeep k hik hkj _ _ heff hP

/-- After a saved revocation the node is admitted nowhere before it is approved again. -/
theorem unrevoked_between {i j : Nat} (hij : i < j)
    (hi : eventAt env file actions i = some (.revoked p id))
    (hj : eventAt env file actions j = some (.admitted q id key)) :
    ∃ m r, i < m ∧ m < j ∧ eventAt env file actions m = some (.unrevoked r id) := by
  by_contra hno
  push Not at hno
  have heff := effect_of_event hi
  have hstart : (afterActions env file actions (i + 1)).FileRevokes id := by
    generalize afterActions env file actions (i + 1) = w' at heff ⊢
    cases heff with
    | revoked p id state hm => exact ⟨_, rfl, Finset.mem_insert_self _ _⟩
  have hend := carried hij (P := fun w => w.FileRevokes id)
    (fun k hik hkj w w' heff h => heff.fileRevokes h fun r => hno k r hik hkj) hstart
  exact (Effect.admitted (afterActions_sound j) (effect_of_event hj)).1 hend

/-- After a revocation that `p` could not save, `p` does not admit the node before it has saved
one, approved the node or restarted. -/
theorem lifted_between {i j : Nat} (hij : i < j)
    (hi : eventAt env file actions i = some (.revokeFailed p id))
    (hj : eventAt env file actions j = some (.admitted p id key)) :
    ∃ m, i < m ∧ m < j ∧ (eventAt env file actions m = some (.unrevoked p id) ∨
      eventAt env file actions m = some (.revoked p id) ∨
      eventAt env file actions m = some (.restarted p)) := by
  by_contra hno
  push Not at hno
  have heff := effect_of_event hi
  have hstart : id ∈ ((afterActions env file actions (i + 1)).procs p).unsavedRevocations := by
    generalize afterActions env file actions (i + 1) = w' at heff ⊢
    cases heff with
    | revokeFailed p id state hs hu =>
      rw [SharedFile.set_procs_self, hu]
      exact Finset.mem_insert_self _ _
  have hend := carried hij (P := fun w => id ∈ (w.procs p).unsavedRevocations)
    (fun k hik hkj w w' heff h =>
      heff.unsaved h (hno k hik hkj).2.1 (hno k hik hkj).1 (hno k hik hkj).2.2) hstart
  exact (Effect.admitted (afterActions_sound j) (effect_of_event hj)).2.1 hend

/-- Between two admissions under different keys the node was revoked. -/
theorem revoked_between {i j : Nat} {key' : NodeKey} (hij : i < j)
    (hi : eventAt env file actions i = some (.admitted p id key))
    (hj : eventAt env file actions j = some (.admitted q id key')) (hne : key ≠ key') :
    ∃ m r, i < m ∧ m < j ∧ eventAt env file actions m = some (.revoked r id) := by
  by_contra hno
  push Not at hno
  have hstart := (Effect.admitted (afterActions_sound i) (effect_of_event hi)).2.2.2
  have hend := carried hij (P := fun w => w.FileBinds id key)
    (fun k hik hkj w w' heff h => heff.fileBinds h fun r => hno k r hik hkj) hstart
  exact hne ((Effect.admitted (afterActions_sound j) (effect_of_event hj)).2.2.1 key hend)

end Runs

/-! ### A run of two processes -/

def permissive : RegistryEnv where
  blank _ := false
  validKey _ := true
  jsonBytes _ := 0
  verifyNodeEnrollment _ := true

/-- The request of the node `exit` with the key whose bytes are all `b`. -/
def exitEnrolls (b : UInt8) : NodeEnrollment where
  nodeId := "exit"
  nodePub := Vector.replicate 32 b
  timeWindow := 0
  signature := Vector.replicate 64 0
  serverEphPub := Vector.replicate 32 0
  clientEphPub := Vector.replicate 32 0

/-- Process 0 fails to save a revocation and saves it at the second attempt, process 1 approves
the node, and the node enrolls with process 0; later it changes its key. -/
def twoProcesses : List RegistryAction :=
  [.tryRevoke 0 "exit" { Faults.none with write := true }, .tryRevoke 0 "exit" Faults.none,
    .tryUnrevoke 1 "exit" Faults.none, .authenticate 0 true (exitEnrolls 7) 0 Faults.none,
    .tryRevoke 1 "exit" Faults.none, .tryUnrevoke 1 "exit" Faults.none,
    .authenticate 1 true (exitEnrolls 9) 0 Faults.none]

theorem twoProcesses_events :
    eventAt permissive none twoProcesses 0 = some (.revokeFailed 0 "exit") ∧
    eventAt permissive none twoProcesses 1 = some (.revoked 0 "exit") ∧
    eventAt permissive none twoProcesses 2 = some (.unrevoked 1 "exit") ∧
    eventAt permissive none twoProcesses 3 = some (.admitted 0 "exit" (exitEnrolls 7).nodePub) ∧
    eventAt permissive none twoProcesses 6 = some (.admitted 1 "exit" (exitEnrolls 9).nodePub) := by
  decide +kernel

/-- Process 0 admits the node after its failed revocation, although it neither approved the node
nor restarted: its own second attempt was saved, and process 1 lifted that one. -/
theorem failed_revocation_lifted_elsewhere :
    ¬∀ p key, eventAt permissive none twoProcesses 0 = some (.revokeFailed p "exit") →
      eventAt permissive none twoProcesses 3 = some (.admitted p "exit" key) →
      ∃ m, 0 < m ∧ m < 3 ∧ (eventAt permissive none twoProcesses m = some (.unrevoked p "exit") ∨
        eventAt permissive none twoProcesses m = some (.restarted p)) := by
  intro h
  obtain ⟨h0, h1, h2, h3, -⟩ := twoProcesses_events
  obtain ⟨m, hm0, hm3, hm⟩ := h 0 _ h0 h3
  obtain rfl | rfl : m = 1 ∨ m = 2 := by omega
  · rw [h1] at hm
    simp at hm
  · rw [h2] at hm
    simp at hm

/-- In every run of the processes that share the file: a saved revocation bars the node from
every process until the node is approved again; one that could not be saved bars it from the
process that tried, until that process approves the node, saves a revocation of it or
restarts; and a node comes back under another key only after a revocation and an approval. -/
theorem revocation_holds_across_processes (env : RegistryEnv) (file : Option PersistedStore)
    (actions : List RegistryAction) (id : String) (i j : Nat) (hij : i < j) :
    (∀ p q key, eventAt env file actions i = some (.revoked p id) →
      eventAt env file actions j = some (.admitted q id key) →
      ∃ m r, i < m ∧ m < j ∧ eventAt env file actions m = some (.unrevoked r id)) ∧
    (∀ p key, eventAt env file actions i = some (.revokeFailed p id) →
      eventAt env file actions j = some (.admitted p id key) →
      ∃ m, i < m ∧ m < j ∧ (eventAt env file actions m = some (.unrevoked p id) ∨
        eventAt env file actions m = some (.revoked p id) ∨
        eventAt env file actions m = some (.restarted p))) ∧
    (∀ p q key key', eventAt env file actions i = some (.admitted p id key) →
      eventAt env file actions j = some (.admitted q id key') → key ≠ key' →
      ∃ m r m' r', i < m ∧ m < m' ∧ m' < j ∧
        eventAt env file actions m = some (.revoked r id) ∧
        eventAt env file actions m' = some (.unrevoked r' id)) := by
  refine ⟨?_, ?_, ?_⟩
  · intro p q key hi hj
    exact unrevoked_between hij hi hj
  · intro p key hi hj
    exact lifted_between hij hi hj
  · intro p q key key' hi hj hne
    obtain ⟨m, r, him, hmj, hrev⟩ := revoked_between hij hi hj hne
    obtain ⟨m', r', hmm, hm'j, hun⟩ := unrevoked_between hmj hrev hj
    exact ⟨m, r, m', r', him, hmm, hm'j, hrev, hun⟩

theorem revocation_holds_across_processes_twoProcesses :
    (∃ m r, 1 < m ∧ m < 3 ∧
      eventAt permissive none twoProcesses m = some (.unrevoked r "exit")) ∧
    (∃ m, 0 < m ∧ m < 3 ∧ (eventAt permissive none twoProcesses m = some (.unrevoked 0 "exit") ∨
      eventAt permissive none twoProcesses m = some (.revoked 0 "exit") ∨
      eventAt permissive none twoProcesses m = some (.restarted 0))) ∧
    (∃ m r m' r', 3 < m ∧ m < m' ∧ m' < 6 ∧
      eventAt permissive none twoProcesses m = some (.revoked r "exit") ∧
      eventAt permissive none twoProcesses m' = some (.unrevoked r' "exit")) := by
  obtain ⟨h0, h1, -, h3, h6⟩ := twoProcesses_events
  refine ⟨?_, ?_, ?_⟩
  · exact (revocation_holds_across_processes permissive none twoProcesses "exit" 1 3
      (by decide)).1 0 0 _ h1 h3
  · exact (revocation_holds_across_processes permissive none twoProcesses "exit" 0 3
      (by decide)).2.1 0 _ h0 h3
  · exact (revocation_holds_across_processes permissive none twoProcesses "exit" 3 6
      (by decide)).2.2 0 1 _ _ h3 h6 (by decide)

end RegistryWorld

end AivpnSpec.Server
