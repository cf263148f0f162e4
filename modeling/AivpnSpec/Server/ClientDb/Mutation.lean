import AivpnSpec.Base.Runs
import AivpnSpec.Server.ClientDb.Lookup
import Mathlib.Order.Bounds.Basic

/-!
# A mutation moment by moment

`with_mutation` holds the write lock of the data while it folds the file in and runs its closure,
and gives it back while the file is written. Traffic and handshakes are counted meanwhile, and a
failed write then goes back to the data from before the closure. The closure is arbitrary here and
works in place, so it may change records and fail. Other mutations and reloads of the process, and
other processes, wait for the file lock.
-/

namespace AivpnSpec.Server

open AivpnSpec.Base AivpnSpec.Common List

/-- What `with_mutation` remembers while the file is written, `mod.rs:206-218`: the data to go back
to, the closure's result, and what was serialised. -/
structure Pending (α : Type) where
  rollback : ClientDbFile
  result : α
  content : Option ClientDbFile

/-- A process: its data, the file, the mutation that waits for its write, and what the last one
answered. -/
structure DbProcess (α : Type) where
  data : ClientDbFile
  file : Option ClientDbFile
  pending : Option (Pending α)
  answer : Option (Except Error α)

/-- What can happen between two moments. A mutation starts with the outcome of taking the lock and
reading the file, and its write ends with an outcome. -/
inductive DbMoment (α : Type) where
  | start (now : Int) (opened : Except Error Unit)
      (f : ClientDbFile → Except Error α × ClientDbFile)
  | serialise
  | finish (written : Except Error Unit)
  | handshake (clientId : String) (now : Int)
  | traffic (clientId : String) (bytesIn bytesOut : Nat) (now : Int)
  | external (file : Option ClientDbFile)

namespace DbProcess

variable {α : Type}

/-- The first part of `with_mutation`, under the write lock of the data, `mod.rs:203-216`. -/
def start (env : DbEnv) (now : Int) (f : ClientDbFile → Except Error α × ClientDbFile)
    (s : DbProcess α) : DbProcess α :=
  let rollback := absorbDisk env now s.data s.file
  match f rollback with
  | (.error e, data) =>
    { s with data := restorePreservingTraffic data rollback, answer := some (.error e) }
  | (.ok result, data) => { s with data, pending := some { rollback, result, content := none } }

/-- The second part, when the write has ended, `mod.rs:217-223`. -/
def finish (p : Pending α) (s : DbProcess α) : Except Error Unit → DbProcess α
  | .error e =>
    { s with
      data := restorePreservingTraffic s.data p.rollback
      pending := none
      answer := some (.error e) }
  | .ok () =>
    match p.content with
    | none => s
    | some content =>
      { s with file := some content, pending := none, answer := some (.ok p.result) }

/-- The process after a moment. While a mutation is pending no other one starts, and no other
process writes the file. -/
def step (env : DbEnv) (s : DbProcess α) : DbMoment α → DbProcess α
  | .start now opened f =>
    match s.pending, opened with
    | some _, _ => s
    | none, .error e => { s with answer := some (.error e) }
    | none, .ok () => s.start env now f
  | .serialise =>
    match s.pending with
    | none => s
    | some p => { s with pending := some { p with content := some s.data } }
  | .finish written =>
    match s.pending with
    | none => s
    | some p => s.finish p written
  | .handshake clientId now => { s with data := recordHandshake clientId now s.data }
  | .traffic clientId bytesIn bytesOut now =>
    { s with data := recordTraffic clientId bytesIn bytesOut now s.data }
  | .external file => if s.pending.isSome then s else { s with file }

end DbProcess

/-! ### Without anything in between -/

/-- A closure that leaves the data alone when it fails, as one that works in place. -/
def inPlace {α : Type} (f : ClientDbFile → Except Error (α × ClientDbFile)) (data : ClientDbFile) :
    Except Error α × ClientDbFile :=
  match f data with
  | .ok (result, data') => (.ok result, data')
  | .error e => (.error e, data)

def opened (faults : Faults) : Except Error Unit :=
  if faults.lock then .error (.session "Failed to open client DB lock")
  else if faults.read then .error (.session "Failed to read client DB")
  else .ok ()

def written (faults : Faults) : Except Error Unit :=
  if faults.write then .error (.session "Failed to write client DB") else .ok ()

/-- A mutation during which nothing else happens is the one that the operations of the database are
modelled with. -/
theorem uninterrupted_mutation {α : Type} (env : DbEnv) (now : Int) (faults : Faults)
    (data : ClientDbFile) (file : Option ClientDbFile)
    (f : ClientDbFile → Except Error (α × ClientDbFile)) :
    let out := withMutation env now faults data file f
    stateAt (DbProcess.step env) { data, file, pending := none, answer := none }
      [.start now (opened faults) (inPlace f), .serialise, .finish (written faults)] 3 =
      { data := out.data, file := out.file, pending := none, answer := some out.answer } := by
  intro out
  simp only [stateAt, take_succ_cons, take_zero, foldl_cons, foldl_nil]
  unfold out withMutation opened written
  cases faults.lock with
  | true => rfl
  | false =>
    cases faults.read with
    | true => rfl
    | false =>
      simp only [Bool.false_eq_true, if_false, DbProcess.step, DbProcess.start, inPlace]
      cases f (absorbDisk env now data file) with
      | error e => rfl
      | ok result =>
        cases faults.write with
        | true => rfl
        | false => rfl

/-! ### Counters -/

/-- The counters of a client. -/
inductive Counter where
  | bytesIn
  | bytesOut
  | totalConnections

def ClientStats.counter (stats : ClientStats) : Counter → Nat
  | .bytesIn => stats.bytesIn
  | .bytesOut => stats.bytesOut
  | .totalConnections => stats.totalConnections

def countOf (clients : List ClientConfig) (id : String) (k : Counter) : Option Nat :=
  (clients.find? (hasId id)).map fun c => c.stats.counter k

/-- The record at hand has room for what a moment adds to its counters. -/
def DbMoment.Fits {α : Type} (data : ClientDbFile) : DbMoment α → Prop
  | .handshake clientId _ => ∀ c, data.clients.find? (hasId clientId) = some c →
    c.stats.totalConnections + 1 < 2 ^ 64
  | .traffic clientId bytesIn bytesOut _ => ∀ c, data.clients.find? (hasId clientId) = some c →
    c.stats.bytesIn + bytesIn < 2 ^ 64 ∧ c.stats.bytesOut + bytesOut < 2 ^ 64
  | _ => True

theorem counter_maxStats (a b : ClientStats) (k : Counter) :
    (maxStats a b).counter k = max (a.counter k) (b.counter k) := by
  cases k <;> rfl

/-- No client is lost and no counter is lower. -/
def Grows (clients clients' : List ClientConfig) : Prop :=
  ∀ id k v, countOf clients id k = some v → ∃ v', countOf clients' id k = some v' ∧ v ≤ v'

theorem Grows.refl (clients : List ClientConfig) : Grows clients clients :=
  fun _ _ v h => ⟨v, h, le_refl v⟩

variable {clients clients'' clients' : List ClientConfig}

theorem Grows.trans (h : Grows clients clients') (h' : Grows clients' clients'') :
    Grows clients clients'' := by
  intro id k v hv
  obtain ⟨v', hv', hle⟩ := h id k v hv
  obtain ⟨v'', hv'', hle'⟩ := h' id k v' hv'
  exact ⟨v'', hv'', hle.trans hle'⟩

/-- A replacement that keeps the id and lowers no counter. -/
theorem grows_modifyFirst {p : ClientConfig → Bool} {f : ClientConfig → ClientConfig}
    (hf : ∀ c, clients.find? p = some c → (f c).id = c.id ∧
      ∀ k, c.stats.counter k ≤ (f c).stats.counter k) :
    Grows clients (modifyFirst p f clients) := by
  intro id k v hv
  obtain ⟨c, hc, rfl⟩ := Option.map_eq_some_iff.mp hv
  clear hv
  unfold countOf
  induction clients with
  | nil => cases hc
  | cons a clients ih =>
    unfold modifyFirst
    by_cases hp : p a = true
    · obtain ⟨hid, hle⟩ := hf a (find?_cons_of_pos hp)
      rw [if_pos hp]
      by_cases ha : a.id = id
      · rw [find?_cons_of_pos (by simp [hasId, ha])] at hc
        rw [find?_cons_of_pos (by simp [hasId, hid, ha])]
        cases hc
        exact ⟨_, rfl, hle k⟩
      · rw [find?_cons_of_neg (by simp [hasId, ha])] at hc
        rw [find?_cons_of_neg (by simp [hasId, hid, ha]), hc]
        exact ⟨_, rfl, le_refl _⟩
    · rw [if_neg hp]
      by_cases ha : a.id = id
      · rw [find?_cons_of_pos (by simp [hasId, ha])] at hc
        rw [find?_cons_of_pos (by simp [hasId, ha])]
        cases hc
        exact ⟨_, rfl, le_refl _⟩
      · rw [find?_cons_of_neg (by simp [hasId, ha])] at hc
        rw [find?_cons_of_neg (by simp [hasId, ha])]
        refine ih ?_ hc
        intro b hb
        exact hf b (by rw [find?_cons_of_neg hp, hb])

theorem grows_append (clients added : List ClientConfig) : Grows clients (clients ++ added) := by
  intro id k v hv
  obtain ⟨c, hc, rfl⟩ := Option.map_eq_some_iff.mp hv
  refine ⟨_, ?_, le_refl _⟩
  unfold countOf
  rw [find?_append, hc]
  rfl

theorem le_addU64 {a b : Nat} (h : a + b < 2 ^ 64) : a ≤ addU64 a b := by
  unfold addU64
  rw [Nat.mod_eq_of_lt h]
  exact Nat.le_add_right a b

/-! ### Going back -/

variable (current : ClientDbFile) {data snapshot : ClientDbFile} {now : Int} {k j : Nat}

/-- The counter of a record that a restoration goes back to. -/
def restoredCount (c : ClientConfig) (k : Counter) : Nat :=
  max (c.stats.counter k) ((countOf current.clients c.id k).getD 0)

/-- One record of a restoration, `mod.rs:1193-1197`. -/
def restoreClient (client : ClientConfig) : ClientConfig :=
  match current.clients.find? (hasId client.id) with
  | some live => { client with stats := maxStats client.stats live.stats }
  | none => client

theorem restorePreservingTraffic_clients (current snapshot : ClientDbFile) :
    (restorePreservingTraffic current snapshot).clients =
      snapshot.clients.map (restoreClient current) := rfl

theorem restoreClient_id (c : ClientConfig) : (restoreClient current c).id = c.id := by
  unfold restoreClient
  split <;> rfl

theorem counter_restoreClient (c : ClientConfig) (k : Counter) :
    (restoreClient current c).stats.counter k = restoredCount current c k := by
  unfold restoreClient restoredCount countOf
  cases current.clients.find? (hasId c.id) with
  | none => exact (Nat.max_eq_left (Nat.zero_le _)).symm
  | some live => exact counter_maxStats _ _ k

/-- What a failed mutation goes back to: everything of the absorbed data but the counters, and for
each record the largest counters among its own and those that its id had at the moments `seen`. -/
structure RestoredTo (absorbed : ClientDbFile) (seen : ClientDbFile → Prop) (data : ClientDbFile) :
    Prop where
  cursor : data.nextHostOffset = absorbed.nextHostOffset
  records : data.clients.map ClientConfig.eraseStats =
    absorbed.clients.map ClientConfig.eraseStats
  counters : ∀ (i : Nat) (c c' : ClientConfig), absorbed.clients[i]? = some c →
    data.clients[i]? = some c' → ∀ k, IsGreatest
      {v | v = c.stats.counter k ∨ ∃ d, seen d ∧ countOf d.clients c.id k = some v}
      (c'.stats.counter k)

/-- A restoration keeps the largest counters, if those of the data it starts from are the largest
since the closure. -/
theorem restoredTo_restore {absorbed current : ClientDbFile} {seen : ClientDbFile → Prop}
    (hcurrent : seen current) (hgrows : ∀ d, seen d → Grows d.clients current.clients) :
    RestoredTo absorbed seen (restorePreservingTraffic current absorbed) := by
  refine ⟨rfl, restorePreservingTraffic_eraseStats _ _, ?_⟩
  intro i c c' hc hc' k
  rw [restorePreservingTraffic_clients, getElem?_map, hc, Option.map_some,
    Option.some.injEq] at hc'
  rw [← hc', counter_restoreClient]
  unfold restoredCount
  constructor
  · cases hv : countOf current.clients c.id k with
    | none => exact .inl (Nat.max_eq_left (Nat.zero_le _))
    | some v =>
      rw [Option.getD_some]
      rcases Nat.le_total v (c.stats.counter k) with hle | hle
      · exact .inl (Nat.max_eq_left hle)
      · exact .inr ⟨current, hcurrent, by rw [hv, Nat.max_eq_right hle]⟩
  · rintro v (rfl | ⟨d, hd, hv⟩)
    · exact Nat.le_max_left _ _
    · obtain ⟨v', hv', hle⟩ := hgrows d hd c.id k v hv
      rw [hv', Option.getD_some]
      exact hle.trans (Nat.le_max_right _ _)

theorem countOf_restore (current snapshot : ClientDbFile) (id : String) (k : Counter) :
    countOf (restorePreservingTraffic current snapshot).clients id k =
      (snapshot.clients.find? (hasId id)).map fun c => restoredCount current c k := by
  have hhas : hasId id ∘ restoreClient current = hasId id := by
    funext c
    simp only [Function.comp, hasId, restoreClient_id]
  unfold countOf
  rw [restorePreservingTraffic_clients, find?_map, hhas, Option.map_map]
  congr 1
  funext c
  exact counter_restoreClient current c k

/-! ### While the file is written -/

def DbMoment.Ends {α : Type} : DbMoment α → Prop
  | .finish _ => True
  | _ => False

section During

variable {α : Type} {env : DbEnv} {s : DbProcess α} {clientId : String} {p : Pending α}

/-- Traffic and handshakes lower no counter that has room for them. -/
theorem grows_recordHandshake (h : (DbMoment.handshake clientId now : DbMoment α).Fits data) :
    Grows data.clients (recordHandshake clientId now data).clients := by
  refine grows_modifyFirst ?_
  intro c hc
  refine ⟨rfl, ?_⟩
  intro k
  cases k with
  | bytesIn | bytesOut => exact le_refl _
  | totalConnections => exact le_addU64 (h c hc)

theorem grows_recordTraffic {bytesIn bytesOut : Nat}
    (h : (DbMoment.traffic clientId bytesIn bytesOut now : DbMoment α).Fits data) :
    Grows data.clients (recordTraffic clientId bytesIn bytesOut now data).clients := by
  refine grows_modifyFirst ?_
  intro c hc
  refine ⟨rfl, ?_⟩
  intro k
  cases k with
  | bytesIn => exact le_addU64 (h c hc).1
  | bytesOut => exact le_addU64 (h c hc).2
  | totalConnections => exact le_refl _

/-- Until the write ends, the mutation stays pending, the file stays as it is and no counter gets
lower. -/
theorem step_during (hp : s.pending = some p) {m : DbMoment α} (hm : ¬m.Ends)
    (hfits : m.Fits s.data) :
    (∃ p', (s.step env m).pending = some p' ∧ p'.rollback = p.rollback) ∧
    (s.step env m).file = s.file ∧ Grows s.data.clients (s.step env m).data.clients := by
  unfold DbProcess.step
  cases m with
  | start now opened f =>
    simp only [hp]
    exact ⟨⟨p, rfl, rfl⟩, trivial, Grows.refl _⟩
  | serialise =>
    simp only [hp]
    exact ⟨⟨_, rfl, rfl⟩, trivial, Grows.refl _⟩
  | finish written => exact absurd trivial hm
  | handshake clientId now => exact ⟨⟨p, hp, rfl⟩, rfl, grows_recordHandshake hfits⟩
  | traffic clientId bytesIn bytesOut now => exact ⟨⟨p, hp, rfl⟩, rfl, grows_recordTraffic hfits⟩
  | external file =>
    simp only [hp, Option.isSome_some, if_true]
    exact ⟨⟨p, rfl, rfl⟩, trivial, Grows.refl _⟩

/-- The same over a whole write, from any moment of it on. -/
theorem run_during (hp : s.pending = some p) {during : List (DbMoment α)}
    (hends : ∀ m ∈ during, ¬m.Ends)
    (hfits : ∀ (k : Nat) m, during[k]? = some m →
      m.Fits (stateAt (DbProcess.step env) s during k).data)
    (k : Nat) :
    (∃ p', (stateAt (DbProcess.step env) s during k).pending = some p' ∧
      p'.rollback = p.rollback) ∧
    (stateAt (DbProcess.step env) s during k).file = s.file := by
  refine stateAt_keeps (P := fun t : DbProcess α => (∃ p', t.pending = some p' ∧
    p'.rollback = p.rollback) ∧ t.file = s.file) (Nat.zero_le k) ⟨⟨p, hp, rfl⟩, rfl⟩ ?_
  rintro j m - - hj ⟨⟨q, hq, hroll⟩, hfile⟩
  obtain ⟨⟨p', hp', hroll'⟩, hfile', -⟩ :=
    @step_during α env _ q hq m (hends m (mem_of_getElem? hj)) (hfits j m hj)
  exact ⟨⟨p', hp', hroll'.trans hroll⟩, hfile'.trans hfile⟩

theorem grows_during (hp : s.pending = some p) {during : List (DbMoment α)}
    (hends : ∀ m ∈ during, ¬m.Ends)
    (hfits : ∀ (k : Nat) m, during[k]? = some m →
      m.Fits (stateAt (DbProcess.step env) s during k).data)
    (hjk : j ≤ k) :
    Grows (stateAt (DbProcess.step env) s during j).data.clients
      (stateAt (DbProcess.step env) s during k).data.clients := by
  refine stateAt_keeps (P := fun t : DbProcess α =>
    Grows (stateAt (DbProcess.step env) s during j).data.clients t.data.clients) hjk
    (Grows.refl _) ?_
  intro i m _ _ hi hgrows
  obtain ⟨⟨q, hq, -⟩, -⟩ := @run_during α env s p hp during hends hfits i
  exact hgrows.trans
    (@step_during α env _ q hq m (hends m (mem_of_getElem? hi)) (hfits i m hi)).2.2

end During

/-! ### Closures of the code -/

section Code

variable {env : DbEnv} {clients clients' : List ClientConfig} {data : ClientDbFile}
  {change : DbChange} {id : String}

theorem grows_absorbClient (hash : PoolHash) (disk : ClientConfig) :
    Grows clients (absorbClient hash clients disk) := by
  unfold absorbClient
  cases clients.find? (hasId disk.id) with
  | none => exact grows_append _ _
  | some a =>
    refine grows_modifyFirst ?_
    intro c hc
    refine ⟨absorbOneClient_id hash (id_of_find hc), ?_⟩
    intro k
    have hstats : (absorbOneClient hash c disk).stats = maxStats c.stats disk.stats := by
      unfold absorbOneClient
      split <;> rfl
    rw [hstats, counter_maxStats]
    exact Nat.le_max_left _ _

theorem grows_foldl_absorbClient (hash : PoolHash) (disks : List ClientConfig) :
    Grows clients (disks.foldl (absorbClient hash) clients) := by
  induction disks generalizing clients with
  | nil => exact Grows.refl _
  | cons disk disks ih => exact (grows_absorbClient hash disk).trans ih

theorem LocalEffect.grows (h : LocalEffect env change clients clients') :
    Grows clients clients' := by
  cases h with
  | inserted c hnew hlive huser htime hfree hname => exact grows_append _ _
  | edited c c' hf hedit hname =>
    refine grows_modifyFirst ?_
    intro a ha
    rw [hf] at ha
    cases ha
    exact ⟨hedit.keeps.id, fun k => by rw [hedit.keeps.stats]⟩
  | same hsave => exact Grows.refl _

theorem MergeEffect.grows {inc : ClientConfig} {out : MergeOutcome × ClientDbFile}
    (h : MergeEffect env data inc out) : Grows data.clients out.2.clients := by
  cases h with
  | unchanged existing hf hlose | noAddress hf => exact Grows.refl _
  | adopted existing hf hpsk hwin =>
    exact grows_modifyFirst fun c _ => ⟨rfl, fun _ => le_refl _⟩
  | inserted ip hf hfree => exact grows_append _ _
  | displaced resident ip hf hlive hserver hres hold hfree =>
    have hmoved : Grows data.clients
        (modifyFirst (conflictsWith inc) (fun c => { c with vpnIp := ip }) data.clients) :=
      grows_modifyFirst fun c _ => ⟨rfl, fun _ => le_refl _⟩
    exact hmoved.trans (grows_append _ _)

theorem grows_mergeLoop {incoming : List ClientConfig} :
    Grows data.clients (mergeLoop env data incoming).2.clients := by
  induction incoming generalizing data with
  | nil => exact Grows.refl _
  | cons inc incoming ih => exact (mergeRecord_effect env data inc).grows.trans ih

/-- A client that reaping leaves there keeps its counters. -/
theorem countOf_reap (hids : DistinctIds clients) {k : Counter}
    (h : ∃ c ∈ reapExpiredTombstones now clients, c.id = id) :
    countOf (reapExpiredTombstones now clients) id k = countOf clients id k := by
  obtain ⟨c, hc, rfl⟩ := h
  unfold countOf
  rw [hids.find (mem_of_mem_filter hc)]
  rw [show (reapExpiredTombstones now clients).find? (hasId c.id) = some c from
    (hids.filter _).find hc]

def NoLower (clients clients' : List ClientConfig) (id : String) : Prop :=
  ∀ k v, countOf clients id k = some v → ∃ v', countOf clients' id k = some v' ∧ v ≤ v'

theorem Grows.reap (h : Grows clients clients') (hids : DistinctIds clients')
    (hkept : ∃ c ∈ reapExpiredTombstones now clients', c.id = id) :
    NoLower clients (reapExpiredTombstones now clients') id := by
  intro k v hv
  rw [countOf_reap hids hkept]
  exact h id k v hv

/-- A closure of the code lowers no counter of a client that is still there. -/
theorem noLower_apply {data' : ClientDbFile} {u : Unit} (hids : DistinctIds data.clients)
    (h : change.apply env data = .ok (u, data')) (hkept : ∃ c ∈ data'.clients, c.id = id) :
    NoLower data.clients data'.clients id := by
  by_cases hm : ∃ incoming now, change = .merge incoming now
  · obtain ⟨incoming, now, rfl⟩ := hm
    cases h
    exact grows_mergeLoop.reap hids.mergeLoop hkept
  · push Not at hm
    exact (apply_cases h hm).grows id

end Code

/-! ### Whole runs -/

/-- A mutation that starts runs a closure of the code, and what it draws is new. -/
def DbMoment.OfCode (env : DbEnv) (s : DbProcess Unit) : DbMoment Unit → Prop
  | .start _ _ f => ∃ change, f = inPlace (change.apply env) ∧ FreshDraw s.data s.file change
  | _ => True

/-- The client is there after the moment, and if a mutation starts, its record is not reaped when
the file has been folded in. -/
def DbProcess.HeldThrough (env : DbEnv) (s : DbProcess Unit) (m : DbMoment Unit) (id : String) :
    Prop :=
  (∃ c ∈ (s.step env m).data.clients, c.id = id) ∧
  ∀ now f, m = .start now (.ok ()) f → s.pending = none →
    ∃ c ∈ (absorbDisk env now s.data s.file).clients, c.id = id

/-- Ids are distinct in the data and in what a pending mutation would go back to. -/
structure DbProcess.Sound (s : DbProcess Unit) : Prop where
  data : DistinctIds s.data.clients
  rollback : ∀ p, s.pending = some p → DistinctIds p.rollback.clients

section Runs

variable {env : DbEnv} {s : DbProcess Unit} {m : DbMoment Unit} {id : String}
  {current : ClientDbFile}

theorem distinctIds_restore (h : DistinctIds snapshot.clients) :
    DistinctIds (restorePreservingTraffic current snapshot).clients :=
  h.congr (restorePreservingTraffic_eraseStats current snapshot)

theorem DbProcess.Sound.step (h : s.Sound) (hcode : m.OfCode env s) : (s.step env m).Sound := by
  unfold DbProcess.step
  cases m with
  | start now opened f =>
    cases hp : s.pending with
    | some p => exact h
    | none =>
      cases opened with
      | error e => exact ⟨h.data, nofun⟩
      | ok u =>
        obtain ⟨change, rfl, hfresh⟩ := hcode
        have habsorbed : DistinctIds (absorbDisk env now s.data s.file).clients :=
          h.data.absorbDisk now
        simp only [DbProcess.start, inPlace]
        cases happly : change.apply env (absorbDisk env now s.data s.file) with
        | error e => exact ⟨distinctIds_restore habsorbed, h.rollback⟩
        | ok out =>
          refine ⟨habsorbed.apply happly fun id hid => hfresh.absorbDisk hid, ?_⟩
          intro p hp'
          cases hp'
          exact habsorbed
  | serialise =>
    cases hp : s.pending with
    | none => exact h
    | some p =>
      refine ⟨h.data, ?_⟩
      intro q hq
      cases hq
      exact h.rollback p hp
  | finish written =>
    cases hp : s.pending with
    | none => exact h
    | some p =>
      cases written with
      | error e => exact ⟨distinctIds_restore (h.rollback p hp), nofun⟩
      | ok u =>
        simp only [DbProcess.finish]
        cases p.content with
        | none => exact h
        | some content => exact ⟨h.data, nofun⟩
  | handshake clientId now | traffic clientId bytesIn bytesOut now =>
    exact ⟨h.data.modify fun _ _ => rfl, h.rollback⟩
  | external file =>
    simp only
    split
    · exact h
    · exact ⟨h.data, h.rollback⟩

theorem NoLower.trans (h : NoLower clients clients' id) (h' : NoLower clients' clients'' id) :
    NoLower clients clients'' id := by
  intro k v hv
  obtain ⟨v', hv', hle⟩ := h k v hv
  obtain ⟨v'', hv'', hle'⟩ := h' k v' hv'
  exact ⟨v'', hv'', hle.trans hle'⟩

theorem noLower_absorbDisk {file : Option ClientDbFile} (hids : DistinctIds data.clients)
    (hkept : ∃ c ∈ (absorbDisk env now data file).clients, c.id = id) :
    NoLower data.clients (absorbDisk env now data file).clients id := by
  cases file with
  | none => exact (Grows.refl _).reap hids hkept
  | some disk =>
    exact (grows_foldl_absorbClient env.hash disk.clients).reap
      (hids.foldl_absorbClient env.hash disk.clients) hkept

theorem grows_restore (current snapshot : ClientDbFile) :
    Grows snapshot.clients (restorePreservingTraffic current snapshot).clients := by
  intro id k v hv
  obtain ⟨c, hc, rfl⟩ := Option.map_eq_some_iff.mp hv
  refine ⟨restoredCount current c k, ?_, Nat.le_max_left _ _⟩
  rw [countOf_restore, hc]
  rfl

/-- A client that is there after a restoration has at least the counters from before it. -/
theorem noLower_restore
    (hkept : ∃ c ∈ (restorePreservingTraffic current snapshot).clients, c.id = id) :
    NoLower current.clients (restorePreservingTraffic current snapshot).clients id := by
  intro k v hv
  obtain ⟨c', hc', rfl⟩ := hkept
  rw [restorePreservingTraffic_clients] at hc'
  obtain ⟨b, hb, rfl⟩ := mem_map.mp hc'
  rw [restoreClient_id] at hv ⊢
  have hfound : (snapshot.clients.find? (hasId b.id)).isSome := by
    rw [find?_isSome]
    exact ⟨b, hb, by simp [hasId]⟩
  obtain ⟨c, hc⟩ := Option.isSome_iff_exists.mp hfound
  refine ⟨restoredCount current c k, ?_, ?_⟩
  · rw [countOf_restore, hc]
    rfl
  · unfold restoredCount
    rw [id_of_find hc, hv, Option.getD_some]
    exact Nat.le_max_right _ _

/-- No moment lowers a counter of a client that is held through it. -/
theorem step_noLower (h : s.Sound) (hcode : m.OfCode env s) (hfits : m.Fits s.data)
    (hheld : s.HeldThrough env m id) : NoLower s.data.clients (s.step env m).data.clients id := by
  obtain ⟨hkept, habsorbed⟩ := hheld
  have hsame : NoLower s.data.clients s.data.clients id := Grows.refl _ id
  unfold DbProcess.step at hkept ⊢
  cases m with
  | start now opened f =>
    cases hp : s.pending with
    | some p => exact hsame
    | none =>
      cases opened with
      | error e => exact hsame
      | ok u =>
        obtain ⟨change, rfl, hfresh⟩ := hcode
        have hread := noLower_absorbDisk h.data (habsorbed now _ rfl hp)
        simp only [hp, DbProcess.start, inPlace] at hkept ⊢
        cases happly : change.apply env (absorbDisk env now s.data s.file) with
        | error e => exact hread.trans (grows_restore _ _ id)
        | ok out =>
          simp only [happly] at hkept
          exact hread.trans (noLower_apply (h.data.absorbDisk now) happly hkept)
  | serialise => cases hp : s.pending <;> exact hsame
  | finish written =>
    cases hp : s.pending with
    | none => exact hsame
    | some p =>
      simp only [hp] at hkept
      cases written with
      | error e => exact noLower_restore hkept
      | ok u =>
        simp only [DbProcess.finish]
        cases p.content <;> exact hsame
  | handshake clientId now => exact grows_recordHandshake hfits id
  | traffic clientId bytesIn bytesOut now => exact grows_recordTraffic hfits id
  | external file =>
    simp only
    split <;> exact hsame

/-- Over a run of the code's own mutations and of traffic, no counter of a client gets lower while
the client is held. -/
theorem run_noLower {moments : List (DbMoment Unit)} (hsound : s.Sound)
    (hcode : ∀ (k : Nat) m, moments[k]? = some m →
      m.OfCode env (stateAt (DbProcess.step env) s moments k))
    (hfits : ∀ (k : Nat) m, moments[k]? = some m →
      m.Fits (stateAt (DbProcess.step env) s moments k).data)
    (hjk : j ≤ k)
    (hheld : ∀ (i : Nat) m, j ≤ i → i < k → moments[i]? = some m →
      (stateAt (DbProcess.step env) s moments i).HeldThrough env m id) :
    NoLower (stateAt (DbProcess.step env) s moments j).data.clients
      (stateAt (DbProcess.step env) s moments k).data.clients id := by
  have hrun : ∀ i, (stateAt (DbProcess.step env) s moments i).Sound := fun i =>
    stateAt_keeps (P := fun t : DbProcess Unit => t.Sound) (Nat.zero_le i) hsound
      fun k m _ _ hk h => h.step (hcode k m hk)
  refine stateAt_keeps (P := fun t : DbProcess Unit =>
    NoLower (stateAt (DbProcess.step env) s moments j).data.clients t.data.clients id) hjk
    (Grows.refl _ id) ?_
  intro i m hi hik hm h
  exact h.trans (step_noLower (hrun i) (hcode i m hm) (hfits i m hm) (hheld i m hi hik hm))

end Runs

def saturated : ClientConfig :=
  { liveClient "a" 0x0a000002 5 with stats := { ClientStats.zero with bytesIn := 2 ^ 64 - 1 } }

def saturatedProcess : DbProcess Unit where
  data := { clients := [saturated], nextHostOffset := 3 }
  file := none
  pending := none
  answer := none

/-- One more byte takes the counter back to zero. -/
theorem full_counter_wraps :
    countOf saturatedProcess.data.clients "a" .bytesIn = some (2 ^ 64 - 1) ∧
    countOf (saturatedProcess.step smallNode (.traffic "a" 1 0 9)).data.clients "a" .bytesIn =
      some 0 := by
  decide +kernel

/-- A mutation fails in its closure, which may have changed anything, or when the file is written,
after any traffic in between for which the counters have room. Either way it answers with the error,
leaves the file alone, and leaves the data as it was after folding in the file, up to counters,
which are the largest that were seen. And over every run of the code's own mutations, of traffic and
of foreign writes in any order, the counters of a client never get lower while it is held. -/
theorem mutations_atomic (env : DbEnv) :
    (∀ {α : Type} (s : DbProcess α) (now : Int) (f : ClientDbFile → Except Error α × ClientDbFile),
      s.pending = none →
      (∀ e d, f (absorbDisk env now s.data s.file) = (.error e, d) →
        (s.step env (.start now (.ok ()) f)).answer = some (.error e) ∧
        (s.step env (.start now (.ok ()) f)).pending = none ∧
        (s.step env (.start now (.ok ()) f)).file = s.file ∧
        RestoredTo (absorbDisk env now s.data s.file) (fun t => t = d)
          (s.step env (.start now (.ok ()) f)).data) ∧
      ∀ result d (during : List (DbMoment α)) e,
        f (absorbDisk env now s.data s.file) = (.ok result, d) →
        (∀ m ∈ during, ¬m.Ends) →
        (∀ (k : Nat) m, during[k]? = some m → m.Fits (stateAt (DbProcess.step env)
          (s.step env (.start now (.ok ()) f)) during k).data) →
        let ended := (stateAt (DbProcess.step env) (s.step env (.start now (.ok ()) f)) during
          during.length).step env (.finish (.error e))
        ended.answer = some (.error e) ∧ ended.pending = none ∧ ended.file = s.file ∧
        RestoredTo (absorbDisk env now s.data s.file)
          (fun t => ∃ k ≤ during.length, t = (stateAt (DbProcess.step env)
            (s.step env (.start now (.ok ()) f)) during k).data) ended.data) ∧
    ∀ (s : DbProcess Unit) (moments : List (DbMoment Unit)), s.Sound →
      (∀ (k : Nat) m, moments[k]? = some m →
        m.OfCode env (stateAt (DbProcess.step env) s moments k)) →
      (∀ (k : Nat) m, moments[k]? = some m →
        m.Fits (stateAt (DbProcess.step env) s moments k).data) →
      ∀ (id : String) (j k : Nat), j ≤ k →
        (∀ (i : Nat) m, j ≤ i → i < k → moments[i]? = some m →
          (stateAt (DbProcess.step env) s moments i).HeldThrough env m id) →
        NoLower (stateAt (DbProcess.step env) s moments j).data.clients
          (stateAt (DbProcess.step env) s moments k).data.clients id := by
  constructor
  · intro α s now f hidle
    simp only [DbProcess.step, hidle]
    unfold DbProcess.start
    constructor
    · intro e d hf
      simp only [hf]
      refine ⟨trivial, hidle, trivial, restoredTo_restore rfl ?_⟩
      rintro t rfl
      exact Grows.refl _
    · intro result d during e hf hends hfits
      simp only [hf] at hfits ⊢
      obtain ⟨⟨p, hp, hroll⟩, hfile⟩ := run_during rfl hends hfits during.length
      simp only [hp, DbProcess.finish, hroll]
      refine ⟨trivial, trivial, hfile, ?_⟩
      refine restoredTo_restore ⟨during.length, le_refl _, rfl⟩ ?_
      rintro t ⟨k, hk, rfl⟩
      exact grows_during rfl hends hfits hk
  · intro s moments hsound hcode hfits id j k hjk hheld
    exact run_noLower hsound hcode hfits hjk hheld

def editedProcess : DbProcess Unit where
  data := { clients := [edited], nextHostOffset := 3 }
  file := none
  pending := none
  answer := none

def renameAll (data : ClientDbFile) : Except Error Unit × ClientDbFile :=
  (.ok (), { data with clients := data.clients.map fun c => { c with name := "other" } })

/-- Traffic arrives while the file is written, the write fails, and the old name is back. -/
theorem mutations_atomic_renameAll :
    let started := editedProcess.step smallNode (.start 6 (.ok ()) renameAll)
    let ended := (stateAt (DbProcess.step smallNode) started [.traffic "a" 7 9 20] 1).step smallNode
      (.finish (.error (.session "disk full")))
    ended.answer = some (.error (.session "disk full")) ∧
    RestoredTo (absorbDisk smallNode 6 editedProcess.data none)
      (fun t => ∃ k ≤ 1, t = (stateAt (DbProcess.step smallNode) started [.traffic "a" 7 9 20]
        k).data) ended.data := by
  have hends : ∀ m ∈ [(DbMoment.traffic "a" 7 9 20 : DbMoment Unit)], ¬m.Ends := by
    intro m hm
    rw [mem_singleton.mp hm]
    exact not_false
  have hfits : ∀ (k : Nat) m, [(DbMoment.traffic "a" 7 9 20 : DbMoment Unit)][k]? = some m →
      m.Fits (stateAt (DbProcess.step smallNode) (editedProcess.step smallNode
        (.start 6 (.ok ()) renameAll)) [.traffic "a" 7 9 20] k).data := by
    intro k m hm
    match k, hm with
    | 0, hm =>
      cases hm
      intro c hc
      cases hc
      decide
    | k + 1, hm => cases hm
  obtain ⟨hanswer, -, -, hrestored⟩ := ((mutations_atomic smallNode).1 editedProcess 6 renameAll
    rfl).2 () _ [.traffic "a" 7 9 20] (.session "disk full") rfl hends hfits
  exact ⟨hanswer, hrestored⟩

end AivpnSpec.Server
