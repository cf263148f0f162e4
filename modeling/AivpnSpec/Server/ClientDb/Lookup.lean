import AivpnSpec.Server.ClientDb.Operations

/-!
# Records by id

The ids of a database's records are distinct, and stay so under every operation. What each
operation does to the record of one id: absorbing the file, merging a record, a local change.
-/

namespace AivpnSpec.Server

open AivpnSpec.Base AivpnSpec.Common List

def DistinctIds (clients : List ClientConfig) : Prop := (clients.map fun c => c.id).Nodup

variable {env : DbEnv} {clients clients' : List ClientConfig} {data : ClientDbFile}
  {file : Option ClientDbFile}

variable {c disk mem : ClientConfig} {id : String}

theorem DistinctIds.append (h : DistinctIds clients) (hc : ∀ d ∈ clients, d.id ≠ c.id) :
    DistinctIds (clients ++ [c]) := by
  unfold DistinctIds
  rw [map_append, map_singleton, nodup_append]
  refine ⟨h, nodup_singleton _, ?_⟩
  intro a ha b hb
  obtain ⟨d, hd, rfl⟩ := mem_map.mp ha
  rw [mem_singleton.mp hb]
  exact hc d hd

theorem DistinctIds.modify (h : DistinctIds clients) {p : ClientConfig → Bool}
    {f : ClientConfig → ClientConfig} (hf : ∀ a, clients.find? p = some a → (f a).id = a.id) :
    DistinctIds (modifyFirst p f clients) := by
  unfold DistinctIds
  rw [map_modifyFirst hf]
  exact h

theorem DistinctIds.filter (h : DistinctIds clients) (p : ClientConfig → Bool) :
    DistinctIds (clients.filter p) :=
  Nodup.sublist (filter_sublist.map _) h

theorem DistinctIds.congr (h : DistinctIds clients)
    (hs : clients'.map ClientConfig.eraseStats = clients.map ClientConfig.eraseStats) :
    DistinctIds clients' := by
  have hid : clients'.map (fun c => c.id) = clients.map fun c => c.id := by
    have := congrArg (map fun c : ClientConfig => c.id) hs
    simpa [map_map, Function.comp_def, ClientConfig.eraseStats] using this
  unfold DistinctIds
  rw [hid]
  exact h

/-- Two records of one id are the same record. -/
theorem DistinctIds.eq (h : DistinctIds clients) {a b : ClientConfig} (ha : a ∈ clients)
    (hb : b ∈ clients) (hid : a.id = b.id) : a = b :=
  inj_on_of_nodup_map h ha hb hid

/-- With distinct ids a search by id finds the record. -/
theorem DistinctIds.find (h : DistinctIds clients) (hc : c ∈ clients) :
    clients.find? (hasId c.id) = some c := by
  cases hf : clients.find? (hasId c.id) with
  | none =>
    have := find?_eq_none.mp hf c hc
    simp [hasId] at this
  | some d =>
    have hd := find?_some hf
    simp only [hasId, decide_eq_true_eq] at hd
    rw [h.eq (mem_of_find?_eq_some hf) hc hd]

/-- With distinct ids, the records of one id are the one that a search finds. -/
theorem DistinctIds.filter_hasId {clients : List ClientConfig} (h : DistinctIds clients)
    (id : String) : clients.filter (hasId id) = (clients.find? (hasId id)).toList := by
  induction clients with
  | nil => rfl
  | cons c clients ih =>
    obtain ⟨hnotin, hrest⟩ := nodup_cons.mp h
    by_cases hid : hasId id c = true
    · rw [filter_cons_of_pos hid, find?_cons_of_pos hid, Option.toList_some]
      congr 1
      rw [filter_eq_nil_iff]
      intro d hd hdid
      simp only [hasId, decide_eq_true_eq] at hid hdid
      exact hnotin (mem_map.mpr ⟨d, hd, hdid.trans hid.symm⟩)
    · rw [filter_cons_of_neg hid, find?_cons_of_neg hid]
      exact ih hrest

theorem id_of_find (h : clients.find? (hasId id) = some c) : c.id = id := by
  have := find?_some h
  simpa [hasId] using this

theorem ne_of_find_none (h : clients.find? (hasId id) = none) : ∀ c ∈ clients, c.id ≠ id := by
  intro c hc
  have := find?_eq_none.mp h c hc
  simpa [hasId] using this

theorem fields_of_eraseStats (h : mem.eraseStats = disk.eraseStats) :
    mem.id = disk.id ∧ mem.updatedAt = disk.updatedAt ∧ mem.deleted = disk.deleted ∧
    mem.canonical = disk.canonical ∧ mem.vpnIp = disk.vpnIp ∧ mem.createdAt = disk.createdAt := by
  cases mem
  cases disk
  simp only [ClientConfig.eraseStats, ClientConfig.mk.injEq] at h
  simp [ClientConfig.canonical, h]

theorem mem_of_map_eraseStats
    (h : clients'.map ClientConfig.eraseStats = clients.map ClientConfig.eraseStats)
    (hc : c ∈ clients) : ∃ c' ∈ clients', c'.eraseStats = c.eraseStats := by
  have hmem : c.eraseStats ∈ clients'.map ClientConfig.eraseStats := by
    rw [h]
    exact mem_map_of_mem hc
  exact mem_map.mp hmem

variable (hash : PoolHash) {change : DbChange} {now : Int}

theorem absorbOneClient_id (h : mem.id = disk.id) :
    (absorbOneClient hash mem disk).id = mem.id := by
  unfold absorbOneClient
  split
  · exact h.symm
  · rfl

theorem eraseStats_absorbOneClient (mem disk : ClientConfig) :
    (absorbOneClient hash mem disk).eraseStats = mem.eraseStats ∨
    (absorbOneClient hash mem disk).eraseStats = disk.eraseStats := by
  unfold absorbOneClient
  split
  · exact .inr rfl
  · exact .inl rfl

/-- Counters aside, absorbing brings in nothing but records of the file. -/
theorem eraseStats_foldl_absorbClient (disks : List ClientConfig)
    (h : c ∈ disks.foldl (absorbClient hash) clients) :
    (∃ mem ∈ clients, c.eraseStats = mem.eraseStats) ∨
    ∃ disk ∈ disks, c.eraseStats = disk.eraseStats := by
  induction disks generalizing clients with
  | nil => exact .inl ⟨c, h, rfl⟩
  | cons disk disks ih =>
    rcases ih h with ⟨mem, hmem, hs⟩ | ⟨d, hd, hs⟩
    · unfold absorbClient at hmem
      cases hf : clients.find? (hasId disk.id) with
      | none =>
        simp only [hf] at hmem
        rcases mem_append.mp hmem with hmem | hmem
        · exact .inl ⟨mem, hmem, hs⟩
        · rw [mem_singleton.mp hmem] at hs
          exact .inr ⟨disk, mem_cons_self, hs⟩
      | some a =>
        simp only [hf] at hmem
        rcases mem_modifyFirst hmem with hmem | ⟨b, hb, rfl⟩
        · exact .inl ⟨mem, hmem, hs⟩
        · rcases eraseStats_absorbOneClient hash b disk with hb' | hd'
          · exact .inl ⟨b, mem_of_find?_eq_some hb, hs.trans hb'⟩
          · exact .inr ⟨disk, mem_cons_self, hs.trans hd'⟩
    · exact .inr ⟨d, mem_cons_of_mem _ hd, hs⟩

def Held (data : ClientDbFile) (file : Option ClientDbFile) (c : ClientConfig) : Prop :=
  c ∈ data.clients ∨ ∃ f, file = some f ∧ c ∈ f.clients

theorem held_absorbDisk (h : c ∈ (absorbDisk env now data file).clients) :
    ∃ d, Held data file d ∧ c.eraseStats = d.eraseStats := by
  cases file with
  | none => exact ⟨c, .inl (mem_of_mem_filter h), rfl⟩
  | some f =>
    rcases eraseStats_foldl_absorbClient env.hash f.clients (mem_of_mem_filter h) with
      ⟨mem, hmem, hs⟩ | ⟨disk, hd, hs⟩
    · exact ⟨mem, .inl hmem, hs⟩
    · exact ⟨disk, .inr ⟨f, rfl, hd⟩, hs⟩

/-- Absorbing brings in no new ids. -/
theorem id_absorbDisk (h : c ∈ (absorbDisk env now data file).clients) :
    (∃ mem ∈ data.clients, mem.id = c.id) ∨
    ∃ f, file = some f ∧ ∃ disk ∈ f.clients, disk.id = c.id := by
  obtain ⟨d, hd, hs⟩ := held_absorbDisk h
  have hid : c.id = d.id := (fields_of_eraseStats hs).1
  rcases hd with hd | ⟨f, hf, hd⟩
  · exact .inl ⟨d, hd, hid.symm⟩
  · exact .inr ⟨f, hf, d, hd, hid.symm⟩

theorem DistinctIds.absorbClient (h : DistinctIds clients) (hash : PoolHash)
    (disk : ClientConfig) : DistinctIds (absorbClient hash clients disk) := by
  unfold Server.absorbClient
  cases hf : clients.find? (hasId disk.id) with
  | none => exact h.append (ne_of_find_none hf)
  | some mem =>
    refine h.modify ?_
    intro a ha
    exact absorbOneClient_id hash (id_of_find ha)

theorem DistinctIds.foldl_absorbClient (h : DistinctIds clients) (hash : PoolHash)
    (disks : List ClientConfig) : DistinctIds (disks.foldl (Server.absorbClient hash) clients) := by
  induction disks generalizing clients with
  | nil => exact h
  | cons disk disks ih => exact ih (h.absorbClient hash disk)

theorem DistinctIds.absorbDisk (h : DistinctIds data.clients) (now : Int) :
    DistinctIds (absorbDisk env now data file).clients := by
  cases file with
  | none => exact h.filter _
  | some disk => exact (h.foldl_absorbClient env.hash disk.clients).filter _

/-- The memory's record of an id after absorbing the file's one. -/
def absorbed (mem : Option ClientConfig) (disk : ClientConfig) : ClientConfig :=
  match mem with
  | some mem => absorbOneClient hash mem disk
  | none => disk

/-- Absorbing a record concerns the record of its id only. -/
theorem find_absorbClient (disk : ClientConfig) (id : String) :
    (absorbClient hash clients disk).find? (hasId id) =
      if id = disk.id then some (absorbed hash (clients.find? (hasId id)) disk)
      else clients.find? (hasId id) := by
  unfold absorbClient
  by_cases hid : id = disk.id
  · subst hid
    rw [if_pos rfl]
    cases hf : clients.find? (hasId disk.id) with
    | none =>
      simp only
      rw [find?_append, hf]
      simp [hasId, absorbed]
    | some mem =>
      simp only
      rw [find?_modifyFirst_self, hf]
      · rfl
      · intro a ha
        have hida := id_of_find ha
        simp [hasId, absorbOneClient_id hash hida, hida]
  · rw [if_neg hid]
    cases hf : clients.find? (hasId disk.id) with
    | none =>
      simp only
      rw [find?_append]
      simp [hasId, Ne.symm hid]
    | some mem =>
      simp only
      rw [find?_modifyFirst]
      intro a ha
      have hida := id_of_find ha
      simp only [hasId, absorbOneClient_id hash hida, hida, decide_eq_true_eq, true_and]
      intro h
      exact absurd h.symm hid

/-- Absorbing a file with distinct ids, one id at a time. -/
theorem find_foldl_absorbClient {disks : List ClientConfig} (hd : DistinctIds disks) (id : String) :
    (disks.foldl (absorbClient hash) clients).find? (hasId id) =
      match disks.find? (hasId id) with
      | some disk => some (absorbed hash (clients.find? (hasId id)) disk)
      | none => clients.find? (hasId id) := by
  induction disks generalizing clients with
  | nil => rfl
  | cons disk disks ih =>
    obtain ⟨hnotin, hd⟩ := nodup_cons.mp hd
    rw [foldl_cons, ih hd, find_absorbClient]
    by_cases hid : id = disk.id
    · have hnone : disks.find? (hasId id) = none := by
        rw [find?_eq_none]
        intro c hc hc'
        simp only [hasId, decide_eq_true_eq] at hc'
        exact hnotin (mem_map.mpr ⟨c, hc, by rw [hc', hid]⟩)
      rw [hnone, if_pos hid, find?_cons_of_pos (by simp [hasId, hid])]
    · rw [if_neg hid, find?_cons_of_neg (by simp [hasId, Ne.symm hid])]

theorem MergeEffect.ids {inc : ClientConfig} {out : MergeOutcome × ClientDbFile}
    (h : MergeEffect env data inc out) (hids : DistinctIds data.clients) :
    DistinctIds out.2.clients := by
  cases h with
  | unchanged existing hf hlose | noAddress hf => exact hids
  | adopted existing hf hpsk hwin => exact hids.modify fun _ _ => rfl
  | inserted ip hf hfree => exact hids.append (ne_of_find_none hf)
  | displaced resident ip hf hlive hserver hres hold hfree =>
    have hmoved : DistinctIds (modifyFirst (conflictsWith inc)
        (fun c => { c with vpnIp := ip }) data.clients) := hids.modify fun _ _ => rfl
    apply hmoved.append
    intro c hc
    rcases mem_modifyFirst hc with hc | ⟨a, ha, rfl⟩
    · exact ne_of_find_none hf c hc
    · exact ne_of_find_none hf a (mem_of_find?_eq_some ha)

theorem DistinctIds.mergeLoop {incoming : List ClientConfig} (h : DistinctIds data.clients) :
    DistinctIds (mergeLoop env data incoming).2.clients := by
  induction incoming generalizing data with
  | nil => exact h
  | cons inc incoming ih => exact ih ((mergeRecord_effect env data inc).ids h)

theorem ChangeEffect.ids {newId : Option String} (h : ChangeEffect env newId clients clients')
    (hnew : ∀ id, newId = some id → ∀ c ∈ clients, c.id ≠ id) (hids : DistinctIds clients) :
    DistinctIds clients' := by
  cases h with
  | inserted c hid hlive hfree => exact hids.append (hnew c.id hid)
  | edited p c c' hf hid hip hcreated hdel =>
    refine hids.modify ?_
    intro a ha
    rw [hf] at ha
    cases ha
    exact hid
  | same => exact hids

/-- A change keeps the ids distinct, if the one it draws is new. -/
theorem DistinctIds.apply {data' : ClientDbFile} {u : Unit} (hids : DistinctIds data.clients)
    (h : change.apply env data = .ok (u, data'))
    (hnew : ∀ id, change.newId = some id → ∀ c ∈ data.clients, c.id ≠ id) :
    DistinctIds data'.clients := by
  by_cases hm : ∃ incoming now, change = .merge incoming now
  · obtain ⟨incoming, now, rfl⟩ := hm
    cases h
    exact hids.mergeLoop.filter _
  · push Not at hm
    exact (apply_effect h hm).ids hnew hids

/-- The id a change draws is used neither in the memory nor in the file. -/
def FreshDraw (data : ClientDbFile) (file : Option ClientDbFile) (change : DbChange) : Prop :=
  ∀ id, change.newId = some id → (∀ mem ∈ data.clients, mem.id ≠ id) ∧
    ∀ f, file = some f → ∀ disk ∈ f.clients, disk.id ≠ id

theorem FreshDraw.absorbDisk (h : FreshDraw data file change) (hid : change.newId = some id) :
    ∀ c ∈ (absorbDisk env now data file).clients, c.id ≠ id := by
  intro c hc heq
  obtain ⟨hmemory, hstored⟩ := h id hid
  rcases id_absorbDisk hc with ⟨mem, hmem, hm⟩ | ⟨f, hf, disk, hd, hm⟩
  · exact hmemory mem hmem (hm.trans heq)
  · exact hstored f hf disk hd (hm.trans heq)

/-- Every step keeps the ids distinct in memory and file, if the one it draws is new. -/
theorem DistinctIds.perform (hids : DistinctIds data.clients)
    (hfile : ∀ f, file = some f → DistinctIds f.clients) (step : DbStep)
    (hfresh : ∀ change now faults, step = .mutate change now faults → FreshDraw data file change) :
    DistinctIds (step.perform env data file).1.clients ∧
    ∀ f, (step.perform env data file).2 = some f → DistinctIds f.clients := by
  have heff := step_effect env data file step
  generalize step.perform env data file = out at heff ⊢
  cases heff with
  | kept data' hs => exact ⟨hids.congr hs, hfile⟩
  | loaded now faults data' hstep hread =>
    refine ⟨?_, hfile⟩
    rw [hread]
    cases file with
    | none => exact nodup_nil
    | some f => exact (hfile f rfl).filter _
  | folded now data' hstep hs => exact ⟨(hids.absorbDisk now).congr hs, hfile⟩
  | saved change now faults data' hstep hf hw =>
    have hids' := (hids.absorbDisk now).apply hf fun id hid =>
      (hfresh change now faults hstep).absorbDisk hid
    refine ⟨hids', ?_⟩
    intro f hf
    cases hf
    exact hids'

instance (clients : List ClientConfig) : Decidable (DistinctIds clients) :=
  inferInstanceAs (Decidable (List.Nodup _))

/-- A node with the server at 10.0.0.1/24 and a hash that tells nothing apart. -/
def smallNode : DbEnv where
  networkConfig := { serverVpnIp := 0x0a000001, prefixLen := 24 }
  partition := none
  hash := { blake3 := fun _ => Vector.replicate 32 0, qosJson := fun _ => [] }
  blank := fun _ => false

/-- A live client of the given id and address that was created and edited at the given time. -/
def liveClient (id : String) (vpnIp : Ipv4Addr) (time : Int) : ClientConfig where
  id := id
  name := id
  psk := Vector.replicate 32 0
  vpnIp := vpnIp
  enabled := true
  createdAt := time
  stats := ClientStats.zero
  qos := none
  devicePubkey := none
  oneTime := false
  expiresAt := none
  updatedAt := some time
  deleted := false
  role := .user
  exitNode := none

def checksumNode : DbEnv :=
  { smallNode with
    hash :=
      { blake3 := fun bytes =>
          (Vector.replicate 32 0).setIfInBounds 0 (bytes.foldl (fun h b => h * 31 + b) 7)
        qosJson := fun _ => [] } }

def edited : ClientConfig := liveClient "a" 0x0a000002 5

def removed : ClientConfig := { liveClient "a" 0x0a000002 10 with deleted := true, enabled := false }

def deviceKey : Bytes32 := Vector.replicate 32 7

end AivpnSpec.Server
