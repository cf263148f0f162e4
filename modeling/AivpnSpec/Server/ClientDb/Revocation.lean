import AivpnSpec.Base.Runs
import AivpnSpec.Server.ClientDb.Lookup

/-!
# Revocation across processes

Several processes share the database file. A tombstone in the file stays one as long as no
process saves a live copy of the client that it holds in its memory with a later time: a merge
never lets a tombstone go, but absorbing the file compares times first.
-/

namespace AivpnSpec.Server

open AivpnSpec.Base AivpnSpec.Common List

def Alive (clients : List ClientConfig) (id : String) : Prop :=
  ∃ c ∈ clients, c.id = id ∧ c.deleted = false

def Tombstoned (clients : List ClientConfig) (id : String) : Prop :=
  ∃ c ∈ clients, c.id = id ∧ c.deleted = true

def FileTombstoned (file : Option ClientDbFile) (id : String) : Prop :=
  ∃ f, file = some f ∧ Tombstoned f.clients id

def FileAlive (file : Option ClientDbFile) (id : String) : Prop :=
  ∃ f, file = some f ∧ Alive f.clients id

section Lists

variable {env : DbEnv} {clients clients' : List ClientConfig} {id : String}

theorem DistinctIds.not_alive (h : DistinctIds clients) (ht : Tombstoned clients id) :
    ¬Alive clients id := by
  rintro ⟨c, hc, hid, hlive⟩
  obtain ⟨d, hd, hid', hdel⟩ := ht
  rw [h.eq hc hd (hid.trans hid'.symm), hdel] at hlive
  cases hlive

theorem Alive.of_map_eraseStats (h : Alive clients' id)
    (hs : clients'.map ClientConfig.eraseStats = clients.map ClientConfig.eraseStats) :
    Alive clients id := by
  obtain ⟨c, hc, hid, hlive⟩ := h
  obtain ⟨d, hd, heq⟩ := mem_of_map_eraseStats hs.symm hc
  obtain ⟨hid', -, hdel, -⟩ := fields_of_eraseStats heq
  exact ⟨d, hd, hid'.trans hid, hdel.trans hlive⟩

theorem alive_filter {p : ClientConfig → Bool} (h : Alive (clients.filter p) id) :
    Alive clients id := by
  obtain ⟨c, hc, hlive⟩ := h
  exact ⟨c, mem_of_mem_filter hc, hlive⟩

/-- The tombstones that reaping at `now` would drop. -/
def expiredIn (now : Int) (clients : List ClientConfig) : List ClientConfig :=
  clients.filter (expiredTombstone now)

/-- A tombstone survives reaping or is among the dropped ones. -/
theorem Tombstoned.reap (h : Tombstoned clients id) (now : Int) :
    Tombstoned (reapExpiredTombstones now clients) id ∨ ∃ t ∈ expiredIn now clients, t.id = id := by
  obtain ⟨c, hc, hid, hdel⟩ := h
  cases hexp : expiredTombstone now c with
  | true => exact .inr ⟨c, mem_filter.mpr ⟨hc, hexp⟩, hid⟩
  | false => exact .inl ⟨c, mem_filter.mpr ⟨hc, by simp [hexp]⟩, hid, hdel⟩

theorem MergeEffect.tombstoned {data : ClientDbFile} {inc : ClientConfig}
    {out : MergeOutcome × ClientDbFile} (h : MergeEffect env data inc out)
    (ht : Tombstoned data.clients id) : Tombstoned out.2.clients id := by
  obtain ⟨c, hc, hid, hdel⟩ := ht
  cases h with
  | unchanged existing hf hlose | noAddress hf => exact ⟨c, hc, hid, hdel⟩
  | adopted existing hf hpsk hwin =>
    by_cases heq : c = existing
    · subst heq
      have hinc : inc.deleted = true := deleted_of_outranked hwin hdel
      exact ⟨c.adopt inc, replaced_mem_modifyFirst hf, hid, hinc⟩
    · refine ⟨c, mem_modifyFirst_of_ne hc ?_, hid, hdel⟩
      intro a ha
      rw [hf] at ha
      cases ha
      exact heq
  | inserted ip hf hfree => exact ⟨c, mem_append_left _ hc, hid, hdel⟩
  | displaced resident ip hf hlive hserver hres hold hfree =>
    refine ⟨c, mem_append_left _ (mem_modifyFirst_of_ne hc ?_), hid, hdel⟩
    -- the displaced resident is live
    intro a ha heq
    have hconf := find?_some ha
    simp only [conflictsWith, decide_eq_true_eq] at hconf
    rw [heq, hconf.2.2] at hdel
    cases hdel

theorem Tombstoned.mergeLoop {incoming : List ClientConfig} {data : ClientDbFile}
    (ht : Tombstoned data.clients id) : Tombstoned (mergeLoop env data incoming).2.clients id := by
  induction incoming generalizing data with
  | nil => exact ht
  | cons inc incoming ih => exact ih ((mergeRecord_effect env data inc).tombstoned ht)

theorem ChangeEffect.tombstoned {newId : Option String}
    (h : ChangeEffect env newId clients clients') (ht : Tombstoned clients id) :
    Tombstoned clients' id := by
  obtain ⟨c, hc, hid, hdel⟩ := ht
  cases h with
  | inserted d hnew hlive hfree => exact ⟨c, mem_append_left _ hc, hid, hdel⟩
  | edited p d d' hf hid' hip hcreated hdel' =>
    by_cases heq : c = d
    · subst heq
      exact ⟨d', replaced_mem_modifyFirst hf, hid'.trans hid, hdel' hdel⟩
    refine ⟨c, mem_modifyFirst_of_ne hc ?_, hid, hdel⟩
    intro a ha
    rw [hf] at ha
    cases ha
    exact heq
  | same => exact ⟨c, hc, hid, hdel⟩

end Lists

/-- The memory with the file folded in, before old tombstones are reaped. -/
def absorbFile (env : DbEnv) (data : ClientDbFile) (file : Option ClientDbFile) :
    List ClientConfig :=
  match file with
  | none => data.clients
  | some disk => disk.clients.foldl (absorbClient env.hash) data.clients

theorem absorbDisk_clients (env : DbEnv) (now : Int) (data : ClientDbFile)
    (file : Option ClientDbFile) :
    (absorbDisk env now data file).clients =
      reapExpiredTombstones now (absorbFile env data file) := by
  cases file <;> rfl

/-- Against a tombstone of the file, only a live copy with a later time is kept. -/
theorem absorbed_live {hash : PoolHash} {mem : Option ClientConfig} {disk : ClientConfig}
    (hdel : disk.deleted = true) (hlive : (absorbed hash mem disk).deleted = false) :
    ∃ m, mem = some m ∧ m.deleted = false ∧ timeRank disk.updatedAt < timeRank m.updatedAt := by
  cases mem with
  | none =>
    simp only [absorbed, hdel] at hlive
    cases hlive
  | some m =>
    refine ⟨m, rfl, ?_⟩
    simp only [absorbed, absorbOneClient] at hlive
    cases htake : takeDisk hash m disk with
    | true =>
      rw [htake, if_pos rfl] at hlive
      simp only [hdel] at hlive
      cases hlive
    | false =>
      rw [htake, if_neg Bool.false_ne_true] at hlive
      refine ⟨hlive, ?_⟩
      unfold takeDisk at htake
      split at htake
      · cases htake
      split at htake
      · next hnewer => exact (strictlyNewer_iff _ _).mp hnewer
      · rw [if_pos (by rw [hdel, show m.deleted = false from hlive]; simp), hdel] at htake
        cases htake

/-- The memory holds no live copy of the client that is newer than the file's tombstone. -/
def NoNewerCopy (data : ClientDbFile) (file : Option ClientDbFile) (id : String) : Prop :=
  ∀ f, file = some f → ∀ disk ∈ f.clients, disk.id = id → disk.deleted = true →
    ∀ m ∈ data.clients, m.id = id → m.deleted = false →
      timeRank m.updatedAt ≤ timeRank disk.updatedAt

section Absorb

variable {env : DbEnv} {data : ClientDbFile} {file : Option ClientDbFile} {id : String}

/-- The record of a client that is tombstoned in the file, after the file was folded in. -/
theorem find_absorbFile (hfile : ∀ f, file = some f → DistinctIds f.clients)
    (ht : FileTombstoned file id) :
    ∃ f, file = some f ∧ ∃ disk ∈ f.clients, disk.id = id ∧ disk.deleted = true ∧
      (absorbFile env data file).find? (hasId id) =
        some (absorbed env.hash (data.clients.find? (hasId id)) disk) := by
  obtain ⟨f, rfl, disk, hd, rfl, hdel⟩ := ht
  refine ⟨f, rfl, disk, hd, rfl, hdel, ?_⟩
  show (f.clients.foldl (absorbClient env.hash) data.clients).find? (hasId disk.id) = _
  rw [find_foldl_absorbClient env.hash (hfile f rfl), (hfile f rfl).find hd]

/-- A client that is alive after absorbing a tombstone was alive before. -/
theorem alive_absorbFile (hids : DistinctIds data.clients)
    (hfile : ∀ f, file = some f → DistinctIds f.clients) (ht : FileTombstoned file id)
    (h : Alive (absorbFile env data file) id) :
    ∃ f, file = some f ∧ ∃ disk ∈ f.clients, disk.id = id ∧ disk.deleted = true ∧
      ∃ m ∈ data.clients, m.id = id ∧ m.deleted = false ∧
        timeRank disk.updatedAt < timeRank m.updatedAt := by
  obtain ⟨f, hf, disk, hd, hid, hdel, hfind⟩ := @find_absorbFile env data file id hfile ht
  refine ⟨f, hf, disk, hd, hid, hdel, ?_⟩
  obtain ⟨c, hc, hcid, hlive⟩ := h
  have hids' : DistinctIds (absorbFile env data file) := by
    rw [hf]
    exact hids.foldl_absorbClient env.hash f.clients
  have hfind' := hids'.find hc
  rw [hcid, hfind] at hfind'
  cases hfind'
  obtain ⟨m, hm, hmlive, hnewer⟩ := absorbed_live hdel hlive
  exact ⟨m, mem_of_find?_eq_some hm, id_of_find hm, hmlive, hnewer⟩

/-- Without a newer live copy the tombstone is taken over. -/
theorem tombstoned_absorbFile (hfile : ∀ f, file = some f → DistinctIds f.clients)
    (ht : FileTombstoned file id) (hnewer : NoNewerCopy data file id) :
    Tombstoned (absorbFile env data file) id := by
  obtain ⟨f, hf, disk, hd, hid, hdel, hfind⟩ := @find_absorbFile env data file id hfile ht
  refine ⟨_, mem_of_find?_eq_some hfind, id_of_find hfind, ?_⟩
  by_contra hlive
  obtain ⟨m, hm, hmlive, hlt⟩ := absorbed_live hdel (Bool.eq_false_iff.mpr hlive)
  have hle := hnewer f hf disk hd hid hdel m (mem_of_find?_eq_some hm) (id_of_find hm) hmlive
  exact absurd hlt (not_lt.mpr hle)

end Absorb

/-- The tombstones that a mutation which is saved drops, from what it reads and from what it
merges in. -/
def reapedBy (env : DbEnv) (data : ClientDbFile) (file : Option ClientDbFile) (now : Int)
    (change : DbChange) : List ClientConfig :=
  expiredIn now (absorbFile env data file) ++
    match change with
    | .merge incoming now' =>
      expiredIn now' (mergeLoop env (absorbDisk env now data file) incoming).2.clients
    | _ => []

/-- The step is a mutation, its writing does not fail, and it drops an expired tombstone of the
client. -/
def Reaps (env : DbEnv) (data : ClientDbFile) (file : Option ClientDbFile) (step : DbStep)
    (id : String) : Prop :=
  ∃ change now faults, step = .mutate change now faults ∧ faults.write = false ∧
    ∃ t ∈ reapedBy env data file now change, t.id = id

section Step

variable {env : DbEnv} {data : ClientDbFile} {file : Option ClientDbFile} {id : String}

/-- A change that is saved keeps a tombstone unless it drops an expired one. -/
theorem Tombstoned.apply {now : Int} {change : DbChange} {data' : ClientDbFile} {u : Unit}
    (ht : Tombstoned (absorbFile env data file) id)
    (h : change.apply env (absorbDisk env now data file) = .ok (u, data')) :
    Tombstoned data'.clients id ∨ ∃ t ∈ reapedBy env data file now change, t.id = id := by
  unfold reapedBy
  rcases ht.reap now with ht | ⟨t, ht, hid⟩
  · rw [← absorbDisk_clients] at ht
    by_cases hm : ∃ incoming now', change = .merge incoming now'
    · obtain ⟨incoming, now', rfl⟩ := hm
      cases h
      have hmerged := @Tombstoned.mergeLoop env id incoming _ ht
      rcases hmerged.reap now' with ht | ⟨t, ht, hid⟩
      · exact .inl ht
      · exact .inr ⟨t, mem_append_right _ ht, hid⟩
    · push Not at hm
      exact .inl ((apply_effect h hm).tombstoned ht)
  · exact .inr ⟨t, mem_append_left _ ht, hid⟩

/-- One step: the file keeps the tombstone unless the step reaps it, and the memory does not
bring the client back to life. -/
theorem perform_tombstoned (hids : DistinctIds data.clients)
    (hfile : ∀ f, file = some f → DistinctIds f.clients) (ht : FileTombstoned file id)
    (step : DbStep)
    (hfresh : ∀ change now faults, step = .mutate change now faults → FreshDraw data file change)
    (hnewer : ∀ change now faults, step = .mutate change now faults → NoNewerCopy data file id)
    (hreap : ¬Reaps env data file step id) :
    FileTombstoned (step.perform env data file).2 id ∧
    (Alive (step.perform env data file).1.clients id → Alive data.clients id) := by
  have habsorb : ∀ now, Alive (absorbDisk env now data file).clients id →
      Alive data.clients id := by
    intro now halive
    rw [absorbDisk_clients] at halive
    obtain ⟨f, -, disk, -, -, -, m, hm, hid, hlive, -⟩ :=
      alive_absorbFile hids hfile ht (alive_filter halive)
    exact ⟨m, hm, hid, hlive⟩
  have heff := step_effect env data file step
  generalize step.perform env data file = out at heff ⊢
  cases heff with
  | kept data' hs => exact ⟨ht, fun halive => halive.of_map_eraseStats hs⟩
  | loaded now faults data' hstep hread =>
    refine ⟨ht, fun halive => ?_⟩
    obtain ⟨f, rfl, htomb⟩ := ht
    rw [hread] at halive
    exact absurd (alive_filter halive) ((hfile f rfl).not_alive htomb)
  | folded now data' hstep hs => exact ⟨ht, fun halive => habsorb now (halive.of_map_eraseStats hs)⟩
  | saved change now faults data' hstep hf hw =>
    have htomb := @tombstoned_absorbFile env data file id hfile ht (hnewer change now faults hstep)
    rcases htomb.apply hf with htomb | hreaped
    · refine ⟨⟨data', rfl, htomb⟩, fun halive => ?_⟩
      have hids' := (hids.absorbDisk now).apply hf fun id hid =>
        (hfresh change now faults hstep).absorbDisk hid
      exact absurd halive (hids'.not_alive htomb)
    · exact absurd ⟨change, now, faults, hstep, hw, hreaped⟩ hreap

end Step

/-- The processes of a node, each with its copy of the database, and the database file. -/
abbrev DbWorld := SharedFile ClientDbFile ClientDbFile

namespace DbWorld

/-- Process `p` takes a step. -/
def perform (env : DbEnv) (w : DbWorld) (action : Nat × DbStep) : DbWorld :=
  let out := action.2.perform env (w.procs action.1) w.file
  w.set action.1 out.1 out.2

/-- The world after the first `k` steps; a process that has not loaded the file knows nobody. -/
def after (env : DbEnv) (file : Option ClientDbFile) (actions : List (Nat × DbStep)) (k : Nat) :
    DbWorld :=
  stateAt (perform env) (SharedFile.start ClientDbFile.empty file) actions k

def Fresh (w : DbWorld) (action : Nat × DbStep) : Prop :=
  ∀ change now faults, action.2 = .mutate change now faults →
    FreshDraw (w.procs action.1) w.file change

/-- A process about to change the database holds no live copy of the client that is newer than
the file's tombstone. -/
def Abreast (w : DbWorld) (action : Nat × DbStep) (id : String) : Prop :=
  ∀ change now faults, action.2 = .mutate change now faults →
    NoNewerCopy (w.procs action.1) w.file id

/-- Ids are distinct in every copy of the database. -/
structure Distinct (w : DbWorld) : Prop where
  memory : ∀ p, DistinctIds (w.procs p).clients
  file : ∀ f, w.file = some f → DistinctIds f.clients

variable {env : DbEnv} {w : DbWorld} {action : Nat × DbStep}

theorem Distinct.perform (h : w.Distinct) (hfresh : w.Fresh action) :
    Distinct (perform env w action) := by
  obtain ⟨hmemory, hfile⟩ := @DistinctIds.perform env _ _ (h.memory action.1) h.file action.2 hfresh
  refine ⟨?_, hfile⟩
  intro p
  apply SharedFile.set_forall (P := fun _ (data : ClientDbFile) => DistinctIds data.clients)
  · intro q _
    exact h.memory q
  · exact hmemory

section Runs

variable {file : Option ClientDbFile} {actions : List (Nat × DbStep)} {k : Nat}

theorem after_succ (h : actions[k]? = some action) :
    after env file actions (k + 1) = perform env (after env file actions k) action :=
  stateAt_succ h

theorem after_distinct (hids : ∀ f, file = some f → DistinctIds f.clients)
    (hfresh : ∀ k action, actions[k]? = some action → Fresh (after env file actions k) action)
    (k : Nat) : Distinct (after env file actions k) := by
  refine stateAt_keeps (P := Distinct) (Nat.zero_le k) ⟨fun _ => nodup_nil, hids⟩ ?_
  intro j action _ _ hj hd
  exact hd.perform (hfresh j action hj)

/-- The step at `k` reaps a tombstone of the client. -/
def ReapedAt (env : DbEnv) (file : Option ClientDbFile) (actions : List (Nat × DbStep)) (k : Nat)
    (id : String) : Prop :=
  ∃ action, actions[k]? = some action ∧
    Reaps env ((after env file actions k).procs action.1) (after env file actions k).file
      action.2 id

/-- One step of the run keeps the file's tombstone and revives no memory. -/
theorem step_tombstoned {id : String} (hd : Distinct (after env file actions k))
    (h : actions[k]? = some action) (hfresh : Fresh (after env file actions k) action)
    (habreast : Abreast (after env file actions k) action id)
    (hreap : ¬ReapedAt env file actions k id)
    (ht : FileTombstoned (after env file actions k).file id) :
    FileTombstoned (after env file actions (k + 1)).file id ∧
    ∀ p, Alive ((after env file actions (k + 1)).procs p).clients id →
      Alive ((after env file actions k).procs p).clients id := by
  obtain ⟨hfile, hmem⟩ := @perform_tombstoned env _ _ id (hd.memory action.1) hd.file ht action.2
    hfresh habreast fun hr => hreap ⟨action, h, hr⟩
  rw [after_succ h]
  refine ⟨hfile, ?_⟩
  intro p
  refine SharedFile.set_forall (P := fun p (data : ClientDbFile) => Alive data.clients id →
    Alive ((after env file actions k).procs p).clients id) ?_ hmem p
  intro q _ halive
  exact halive

end Runs

instance (clients : List ClientConfig) (id : String) : Decidable (Alive clients id) :=
  inferInstanceAs (Decidable (∃ c ∈ clients, c.id = id ∧ c.deleted = false))

instance (clients : List ClientConfig) (id : String) : Decidable (Tombstoned clients id) :=
  inferInstanceAs (Decidable (∃ c ∈ clients, c.id = id ∧ c.deleted = true))

instance (file : Option ClientDbFile) (id : String) : Decidable (FileAlive file id) :=
  match file with
  | none => isFalse fun h => by obtain ⟨f, hf, -⟩ := h; cases hf
  | some f => decidable_of_iff (Alive f.clients id)
      ⟨fun h => ⟨f, rfl, h⟩, fun ⟨g, hg, h⟩ => by cases hg; exact h⟩

instance (file : Option ClientDbFile) (id : String) : Decidable (FileTombstoned file id) :=
  match file with
  | none => isFalse fun h => by obtain ⟨f, hf, -⟩ := h; cases hf
  | some f => decidable_of_iff (Tombstoned f.clients id)
      ⟨fun h => ⟨f, rfl, h⟩, fun ⟨g, hg, h⟩ => by cases hg; exact h⟩

def editedAt (time : Int) : ClientDbFile where
  clients := [liveClient "a" 0x0a000002 time]
  nextHostOffset := 3

/-- Process 0 loads the database, process 1 merges a peer's tombstone of the client, deleted at
time 10, and process 0 saves its counters. -/
def deletedElsewhere : List (Nat × DbStep) :=
  [(0, .load 30 Faults.none),
    (1, .mutate (.merge [{ liveClient "a" 0x0a000002 10 with deleted := true, enabled := false }] 30)
      30 Faults.none),
    (0, .mutate .save 40 Faults.none)]

/-- The client was edited at time 20. The file has its tombstone after the merge, which nobody
reaps, and a live record again after process 0 saved. -/
theorem stale_copy_revives_client :
    FileTombstoned (after smallNode (some (editedAt 20)) deletedElsewhere 2).file "a" ∧
    reapedBy smallNode ((after smallNode (some (editedAt 20)) deletedElsewhere 2).procs 0)
      (after smallNode (some (editedAt 20)) deletedElsewhere 2).file 40 .save = [] ∧
    FileAlive (after smallNode (some (editedAt 20)) deletedElsewhere 3).file "a" := by
  decide +kernel

/-- Once the file holds a tombstone of a client, no step of any process makes the client live
again in the file or in a memory until a step reaps such a tombstone, provided that no process
changes the database while it holds a newer live copy of the client. -/
theorem tombstone_sticks (env : DbEnv) (file : Option ClientDbFile)
    (actions : List (Nat × DbStep)) (id : String)
    (hids : ∀ f, file = some f → DistinctIds f.clients)
    (hfresh : ∀ m action, actions[m]? = some action → Fresh (after env file actions m) action)
    (k j : Nat) (ht : FileTombstoned (after env file actions k).file id)
    (habreast : ∀ m action, k ≤ m → m < j → actions[m]? = some action →
      Abreast (after env file actions m) action id)
    (hreap : ∀ m, k ≤ m → m < j → ¬ReapedAt env file actions m id) :
    (∀ m, k ≤ m → m ≤ j → FileTombstoned (after env file actions m).file id ∧
      ¬FileAlive (after env file actions m).file id) ∧
    (∀ m p, k ≤ m → m < j → Alive ((after env file actions (m + 1)).procs p).clients id →
      Alive ((after env file actions m).procs p).clients id) := by
  have hdistinct := @after_distinct env file actions hids hfresh
  have htomb : ∀ m, k ≤ m → m ≤ j → FileTombstoned (after env file actions m).file id := by
    intro m hkm hmj
    refine stateAt_keeps (P := fun w : DbWorld => FileTombstoned w.file id) hkm ht ?_
    intro i action hki him ha hi
    have hnext := (step_tombstoned (hdistinct i) ha (hfresh i action ha)
      (habreast i action hki (by omega) ha) (hreap i hki (by omega)) hi).1
    rwa [after_succ ha] at hnext
  constructor
  · intro m hkm hmj
    refine ⟨htomb m hkm hmj, ?_⟩
    rintro ⟨f, hf, halive⟩
    obtain ⟨g, hg, htomb⟩ := htomb m hkm hmj
    rw [hf] at hg
    cases hg
    exact ((hdistinct m).file f hf).not_alive htomb halive
  · intro m p hkm hmj
    cases ha : actions[m]? with
    | none =>
      unfold after
      rw [stateAt_of_none ha]
      exact fun halive => halive
    | some action =>
      exact (step_tombstoned (hdistinct m) ha (hfresh m action ha) (habreast m action hkm hmj ha)
        (hreap m hkm hmj) (htomb m hkm (by omega))).2 p

theorem tombstone_sticks_deletedElsewhere :
    FileTombstoned (after smallNode (some (editedAt 5)) deletedElsewhere 3).file "a" ∧
    ¬FileAlive (after smallNode (some (editedAt 5)) deletedElsewhere 3).file "a" := by
  have hids : ∀ f, some (editedAt 5) = some f → DistinctIds f.clients := by
    intro f hf
    cases hf
    decide
  have hfresh : ∀ m action, deletedElsewhere[m]? = some action →
      Fresh (after smallNode (some (editedAt 5)) deletedElsewhere m) action := by
    intro m action hm change now faults hstep id hid
    match m, hm with
    | 0, hm => cases hm; cases hstep
    | 1, hm | 2, hm => cases hm; cases hstep; cases hid
    | m + 3, hm => cases hm
  have hreaped : reapedBy smallNode
      ((after smallNode (some (editedAt 5)) deletedElsewhere 2).procs 0)
      (after smallNode (some (editedAt 5)) deletedElsewhere 2).file 40 .save = [] := by
    decide +kernel
  -- the copy of process 0 is from time 5, the tombstone in the file from time 10
  have hfile : (after smallNode (some (editedAt 5)) deletedElsewhere 2).file.map
      (fun f => f.clients.map fun c => c.updatedAt) = some [some 10] := by
    decide +kernel
  have hmem : ((after smallNode (some (editedAt 5)) deletedElsewhere 2).procs 0).clients.map
      (fun c => c.updatedAt) = [some 5] := by
    decide +kernel
  refine (tombstone_sticks smallNode (some (editedAt 5)) deletedElsewhere "a" hids hfresh 2 3
    (by decide +kernel) ?_ ?_).1 3 (by decide) (by decide)
  · intro m action h2 h3 hm change now faults hstep f hf disk hd hid hdel c hc hcid hlive
    obtain rfl : m = 2 := by omega
    cases hm
    rw [hf] at hfile
    have hdt : disk.updatedAt ∈ [some 10] := by
      rw [← Option.some.inj hfile]
      exact mem_map_of_mem hd
    have hct : c.updatedAt ∈ [some (5 : Int)] := by
      rw [← hmem]
      exact mem_map_of_mem hc
    rw [mem_singleton.mp hdt, mem_singleton.mp hct]
    decide
  · rintro m h2 h3 ⟨action, hm, change, now, faults, hstep, -, t, ht, -⟩
    obtain rfl : m = 2 := by omega
    cases hm
    cases hstep
    rw [hreaped] at ht
    cases ht

end DbWorld

end AivpnSpec.Server
