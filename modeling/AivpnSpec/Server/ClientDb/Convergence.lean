import AivpnSpec.Base.Runs
import AivpnSpec.Server.ClientDb.Versions

/-!
# Convergence of the pool on one client

Nodes merge records of a client that come from outside or that another node holds. If deleted
records are disabled, no tombstone is reaped and no record lacks an address, a node's version of
the client is the highest-ranked one it has come to see, so nodes that have seen the same
versions hold the same content.
-/

namespace AivpnSpec.Server

open AivpnSpec.Base AivpnSpec.Common List

/-- A node of the pool: its database, its file, and every version of the observed client that
has reached it, directly or through the records of other nodes. -/
structure PoolNode where
  data : ClientDbFile
  file : Option ClientDbFile
  seen : List Version

/-- A merge: records from outside, or the wanted records of another node. -/
inductive PoolAction where
  | receive (node : Nat) (records : List ClientConfig) (now now' : Int)
  | relay (source node : Nat) (wanted : ClientConfig → Bool) (now now' : Int)

namespace PoolAction

def node : PoolAction → Nat
  | receive node _ _ _ => node
  | relay _ node _ _ _ => node

def now : PoolAction → Int
  | receive _ _ now _ => now
  | relay _ _ _ now _ => now

def now' : PoolAction → Int
  | receive _ _ _ now' => now'
  | relay _ _ _ _ now' => now'

def incoming (nodes : Nat → PoolNode) : PoolAction → List ClientConfig
  | receive _ records _ _ => records
  | relay source _ wanted _ _ => (nodes source).data.clients.filter wanted

def inflow (id : String) (nodes : Nat → PoolNode) : PoolAction → List Version
  | receive _ records _ _ => (records.filter (hasId id)).map ClientConfig.version
  | relay source _ wanted _ _ =>
    if ((nodes source).data.clients.filter wanted).any (hasId id) then (nodes source).seen else []

def perform (env : Nat → DbEnv) (id : String) (nodes : Nat → PoolNode) (action : PoolAction) :
    Nat → PoolNode :=
  let held := nodes action.node
  let out := mergeFromJson (env action.node) action.now action.now' Faults.none held.data held.file
    (action.incoming nodes)
  Function.update nodes action.node
    { data := out.data, file := out.file, seen := held.seen ++ action.inflow id nodes }

end PoolAction

/-- The pool before the first merge: a node has saved its database and seen what it holds. -/
def poolStart (id : String) (init : Nat → ClientDbFile) : Nat → PoolNode := fun n =>
  { data := init n, file := some (init n)
    seen := ((init n).clients.filter (hasId id)).map ClientConfig.version }

/-- The pool after the first `k` merges. -/
def poolAfter (env : Nat → DbEnv) (id : String) (init : Nat → ClientDbFile)
    (actions : List PoolAction) (k : Nat) : Nat → PoolNode :=
  stateAt (PoolAction.perform env id) (poolStart id init) actions k

def PoolNode.content (node : PoolNode) (id : String) : Option Canonical :=
  contentOf node.data.clients id

/-- A run of the pool that exchanges only the given versions of the client, reaps none of their
tombstones and finds an address for every record of the client. -/
structure PoolRun (hash : PoolHash) (id : String) (versions : List Version) where
  env : Nat → DbEnv
  init : Nat → ClientDbFile
  actions : List PoolAction
  sameHash : ∀ n, (env n).hash = hash
  ids : ∀ n, DistinctIds (init n).clients
  started : ∀ n, ∀ c ∈ (init n).clients, c.id = id → c.version ∈ versions
  fed : ∀ node records now now', PoolAction.receive node records now now' ∈ actions →
    ∀ c ∈ records, c.id = id → c.version ∈ versions
  living : ∀ action ∈ actions, ∀ v ∈ versions,
    v.expired action.now = false ∧ v.expired action.now' = false
  homed : ∀ k action, actions[k]? = some action →
    Homed (env action.node) id
      (absorbDisk (env action.node) action.now (poolAfter env id init actions k action.node).data
        (poolAfter env id init actions k action.node).file)
      (action.incoming (poolAfter env id init actions k))

/-- What holds of every node between merges. -/
structure PoolNode.Sound (hash : PoolHash) (id : String) (versions : List Version)
    (node : PoolNode) : Prop where
  ids : DistinctIds node.data.clients
  saved : node.file = some node.data
  top : KeepsTop (Version.rank hash) node.seen (versionOf node.data.clients id)
  known : ∀ v ∈ node.seen, v ∈ versions

section Node

variable {hash : PoolHash} {psk : Bytes32} {versions : List Version} {id : String}
  {nodes : Nat → PoolNode}

theorem PoolNode.Sound.held {node : PoolNode} (h : node.Sound hash id versions) :
    ∀ v, versionOf node.data.clients id = some v → v ∈ versions := by
  intro v hv
  have htop := h.top
  rw [hv] at htop
  exact h.known v htop.1

/-- What reaches a node: coherent versions, of which the merged records are the top. -/
theorem inflow_spec (hs : ∀ n, (nodes n).Sound hash id versions) (action : PoolAction)
    (hfed : ∀ node records now now', action = .receive node records now now' →
      ∀ c ∈ records, c.id = id → c.version ∈ versions) :
    (∀ c ∈ (action.incoming nodes).filter (hasId id), c.version ∈ versions) ∧
    (∀ v ∈ action.inflow id nodes, v ∈ versions) ∧
    ∀ {seen : List Version} {held : Option Version}, KeepsTop (Version.rank hash) seen held →
      KeepsTop (Version.rank hash) (seen ++ action.inflow id nodes)
        ((((action.incoming nodes).filter (hasId id)).map ClientConfig.version).foldl
          (keepHigher (Version.rank hash)) held) := by
  cases action with
  | receive node records now now' =>
    have hrec : ∀ c ∈ records.filter (hasId id), c.version ∈ versions := by
      intro c hc
      obtain ⟨hc, hid⟩ := mem_filter.mp hc
      exact hfed node records now now' rfl c hc (by simpa [hasId] using hid)
    refine ⟨hrec, ?_, fun h => h.foldl _⟩
    intro v hv
    obtain ⟨c, hc, rfl⟩ := mem_map.mp hv
    exact hrec c hc
  | relay source node wanted now now' =>
    have hsource := hs source
    have hlist := (hsource.ids.filter wanted).filter_hasId id
    simp only [PoolAction.incoming, PoolAction.inflow]
    cases hf : ((nodes source).data.clients.filter wanted).find? (hasId id) with
    | none =>
      have hnone := any_eq_false.mpr (find?_eq_none.mp hf)
      rw [hlist, hf, if_neg (Bool.not_eq_true _ ▸ hnone)]
      refine ⟨fun c hc => (by cases hc), fun v hv => (by cases hv), fun h => ?_⟩
      rw [append_nil]
      exact h
    | some c =>
      have hc : c ∈ (nodes source).data.clients :=
        mem_of_mem_filter (mem_of_find?_eq_some hf)
      have hversion : versionOf (nodes source).data.clients id = some c.version := by
        have hfind := hsource.ids.find hc
        rw [id_of_find hf] at hfind
        unfold versionOf
        rw [hfind]
        rfl
      rw [hlist, hf, if_pos (any_eq_true.mpr ⟨c, mem_of_find?_eq_some hf, find?_some hf⟩)]
      have htop := hsource.top
      rw [hversion] at htop
      refine ⟨?_, hsource.known, fun h => h.join htop⟩
      intro d hd
      rw [mem_singleton.mp hd]
      exact hsource.held c.version hversion

/-- A merge leaves every node sound. -/
theorem perform_sound (hR : Coherent hash psk versions) {env : Nat → DbEnv}
    (hhash : ∀ n, (env n).hash = hash) (hs : ∀ n, (nodes n).Sound hash id versions)
    (action : PoolAction)
    (hfed : ∀ node records now now', action = .receive node records now now' →
      ∀ c ∈ records, c.id = id → c.version ∈ versions)
    (hliving : ∀ v ∈ versions, v.expired action.now = false ∧ v.expired action.now' = false)
    (hhomed : Homed (env action.node) id (absorbDisk (env action.node) action.now
      (nodes action.node).data (nodes action.node).file) (action.incoming nodes)) :
    ∀ n, (action.perform env id nodes n).Sound hash id versions := by
  intro n
  unfold PoolAction.perform
  by_cases hn : n = action.node
  · obtain ⟨hin, hflow, htop⟩ := inflow_spec hs action hfed
    have hnode := hs action.node
    rw [hnode.saved] at hhomed
    have hfold := foldl_mergeVersion_eq hR hin hnode.held
    have htop := htop hnode.top
    have hknown : ∀ v ∈ (nodes action.node).seen ++ action.inflow id nodes, v ∈ versions := by
      intro v hv
      rcases mem_append.mp hv with hv | hv
      · exact hnode.known v hv
      · exact hflow v hv
    rw [hn, Function.update_self, hnode.saved]
    refine ⟨?_, rfl, ?_, hknown⟩
    · exact ((hnode.ids.absorbDisk action.now).mergeLoop).filter _
    · show KeepsTop _ _ (versionOf (mergeFromJson _ _ _ _ _ _ _).data.clients id)
      rw [versionOf_mergeFromJson hnode.ids hhomed, hhash, hfold]
      · exact htop
      · intro v hv
        exact (hliving v (hnode.held v hv)).1
      · intro v hv
        rw [hhash, hfold] at hv
        rw [hv] at htop
        exact (hliving v (hknown v htop.1)).2
  · rw [Function.update_of_ne hn]
    exact hs n

/-- Records a sound node has seen are merged again without effect, and none is counted. -/
theorem mergeLoop_seen {env : DbEnv} (hhash : env.hash = hash) {data : ClientDbFile}
    {seen : List Version} (htop : KeepsTop (Version.rank hash) seen (versionOf data.clients id))
    {records : List ClientConfig} (hrec : ∀ c ∈ records, c.id = id ∧ c.version ∈ seen) :
    mergeLoop env data records = (0, data) := by
  induction records with
  | nil => rfl
  | cons c records ih =>
    obtain ⟨hid, hc⟩ := hrec c mem_cons_self
    have hstep : mergeRecord env data c = (.unchanged, data) := by
      have heff := mergeRecord_effect env data c
      generalize mergeRecord env data c = out at heff ⊢
      -- the node holds a version of the client, with the same key and at least this rank
      obtain ⟨held, hheld⟩ : ∃ v, versionOf data.clients id = some v := by
        cases hv : versionOf data.clients id with
        | some v => exact ⟨v, rfl⟩
        | none =>
          rw [hv] at htop
          exact absurd hc (htop c.version)
      obtain ⟨existing, hf, hver⟩ := Option.map_eq_some_iff.mp hheld
      rw [hheld] at htop
      rw [← hid] at hf
      cases heff with
      | unchanged existing hf' hlose => rfl
      | adopted existing' hf' hpsk hwin =>
        rw [hf] at hf'
        cases hf'
        rw [hver, hhash] at hwin
        exact absurd hwin (not_lt.mpr (htop.2 c.version hc))
      | inserted ip hf' hfree | displaced resident ip hf' hlive hserver hres hold hfree
      | noAddress hf' =>
        rw [hf] at hf'
        cases hf'
    unfold mergeLoop
    simp only [hstep]
    rw [ih fun d hd => hrec d (mem_cons_of_mem _ hd)]
    rfl

end Node

namespace PoolRun

variable {hash : PoolHash} {id : String} {psk : Bytes32} {versions : List Version}

/-- The pool after the first `k` merges of the run. -/
def nodes (run : PoolRun hash id versions) (k : Nat) : Nat → PoolNode :=
  poolAfter run.env id run.init run.actions k

theorem sound (hR : Coherent hash psk versions) (run : PoolRun hash id versions) (k n : Nat) :
    (run.nodes k n).Sound hash id versions := by
  refine stateAt_keeps (P := fun nodes : Nat → PoolNode => ∀ n, (nodes n).Sound hash id versions)
    (Nat.zero_le k) ?_ ?_ n
  · intro n
    refine ⟨run.ids n, rfl, ?_, ?_⟩
    · show KeepsTop _ (((run.init n).clients.filter (hasId id)).map ClientConfig.version)
        (versionOf (run.init n).clients id)
      rw [(run.ids n).filter_hasId id]
      unfold versionOf
      cases (run.init n).clients.find? (hasId id) with
      | none => exact keepsTop_nil
      | some c => exact keepsTop_singleton c.version
    · intro v hv
      obtain ⟨c, hc, rfl⟩ := mem_map.mp hv
      obtain ⟨hc, hid⟩ := mem_filter.mp hc
      exact run.started n c hc (by simpa [hasId] using hid)
  · intro j action _ _ hj hs
    have hmem := mem_of_getElem? hj
    refine perform_sound hR run.sameHash hs action ?_ (run.living action hmem) (run.homed j action hj)
    rintro node records now now' rfl
    exact run.fed node records now now' hmem

instance decidableHomed (env : DbEnv) (id : String) :
    (data : ClientDbFile) → (incoming : List ClientConfig) → Decidable (Homed env id data incoming)
  | _, [] => isTrue trivial
  | data, inc :: incoming =>
    have := decidableHomed env id (mergeRecord env data inc).2 incoming
    inferInstanceAs (Decidable ((inc.id = id → (mergeRecord env data inc).1 ≠ .noAddress) ∧
      Homed env id (mergeRecord env data inc).2 incoming))

def removedEnabled : ClientConfig := { removed with enabled := true }

/-- One node receives these records one after another, at the given time. -/
def oneByOne (records : List ClientConfig) (now : Int) : List PoolAction :=
  records.map fun c => .receive 0 [c] now now

def keptAfter (records : List ClientConfig) (now : Int) : Option Canonical :=
  (poolAfter (fun _ => checksumNode) "a" (fun _ => ClientDbFile.empty) (oneByOne records now)
    records.length 0).content "a"

/-- The order matters for a tombstone that says the client is enabled: it is kept as it came in
if it comes first and kept disabled if the live record does. It also matters for a tombstone past
its time to live, after which a live record comes in anew. -/
theorem order_matters :
    ([edited, removed, removedEnabled].map fun c =>
      recordCanonicalHash checksumNode.hash c.canonical).Nodup ∧
    keptAfter [edited, removedEnabled] 20 ≠ keptAfter [removedEnabled, edited] 20 ∧
    keptAfter [edited, removed] (20 + tombstoneTtl) ≠
      keptAfter [removed, edited] (20 + tombstoneTtl) := by
  decide +kernel

/-- Whatever the order, the batches, the detours through other nodes and the repetitions: two
nodes, of one run or of two, that have come to see the same versions of a client keep the same
content of it, and a list of its records that a node has just merged is merged again without
effect. -/
theorem merge_is_join (hR : Coherent hash psk versions) (run run' : PoolRun hash id versions) :
    (∀ k k' n n', (∀ v, v ∈ (run.nodes k n).seen ↔ v ∈ (run'.nodes k' n').seen) →
      (run.nodes k n).content id = (run'.nodes k' n').content id) ∧
    (∀ k n records now now' t t', run.actions[k]? = some (.receive n records now now') →
      (∀ c ∈ records, c.id = id) → (∀ v ∈ versions, v.expired t = false) →
      (mergeFromJson (run.env n) t t' Faults.none (run.nodes (k + 1) n).data
        (run.nodes (k + 1) n).file records).answer = .ok 0) := by
  constructor
  · intro k k' n n' hseen
    have hs := sound hR run k n
    refine hs.top.agree (sound hR run' k' n').top hseen ?_
    intro v hv w hw heq
    exact canonical_of_rank hR (hs.known v hv) (hs.known w hw) heq
  · intro k n records now now' t t' hk hid hliving
    have hs := sound hR run (k + 1) n
    have hseen : ∀ c ∈ records, c.id = id ∧ c.version ∈ (run.nodes (k + 1) n).seen := by
      intro c hc
      refine ⟨hid c hc, ?_⟩
      unfold nodes poolAfter
      rw [stateAt_succ hk]
      unfold PoolAction.perform
      rw [show PoolAction.node (.receive n records now now') = n from rfl, Function.update_self]
      apply mem_append_right
      exact mem_map_of_mem (mem_filter.mpr ⟨hc, by simp [hasId, hid c hc]⟩)
    have htop : KeepsTop (Version.rank hash) (run.nodes (k + 1) n).seen
        (versionOf (absorbDisk (run.env n) t (run.nodes (k + 1) n).data
          (run.nodes (k + 1) n).file).clients id) := by
      rw [hs.saved, versionOf_absorb_self hs.ids fun v hv => hliving v (hs.held v hv)]
      exact hs.top
    have hloop := mergeLoop_seen (run.sameHash n) htop hseen
    show Except.ok (mergeLoop (run.env n) _ records).1 = _
    rw [hloop]

/-- The edit and the tombstone reach node 0 one after the other. -/
def directRun : PoolRun checksumNode.hash "a" [edited.version, removed.version] where
  env := fun _ => checksumNode
  init := fun _ => ClientDbFile.empty
  actions := [.receive 0 [edited] 20 20, .receive 0 [removed] 20 20]
  sameHash := fun _ => rfl
  ids := fun _ => List.nodup_nil
  started := fun _ c hc => by cases hc
  fed := by
    intro node records now now' h c hc _
    simp only [List.mem_cons, PoolAction.receive.injEq, List.not_mem_nil, or_false] at h
    rcases h with ⟨-, rfl, -⟩ | ⟨-, rfl, -⟩ <;> rw [List.mem_singleton.mp hc] <;> simp
  living := by decide +kernel
  homed := by
    intro k action hk
    match k, hk with
    | 0, hk | 1, hk => cases hk; decide +kernel
    | k + 2, hk => cases hk

/-- They reach node 1 in one batch, in the other order and repeatedly, and node 2 from there. -/
def detourRun : PoolRun checksumNode.hash "a" [edited.version, removed.version] where
  env := fun _ => checksumNode
  init := fun _ => ClientDbFile.empty
  actions := [.receive 1 [removed, edited, removed] 20 20, .relay 1 2 (fun _ => true) 20 20]
  sameHash := fun _ => rfl
  ids := fun _ => List.nodup_nil
  started := fun _ c hc => by cases hc
  fed := by
    intro node records now now' h c hc _
    simp only [List.mem_cons, PoolAction.receive.injEq, reduceCtorEq, List.not_mem_nil,
      or_false] at h
    obtain ⟨-, rfl, -⟩ := h
    simp only [List.mem_cons, List.not_mem_nil, or_false] at hc
    rcases hc with rfl | rfl | rfl <;> simp
  living := by decide +kernel
  homed := by
    intro k action hk
    match k, hk with
    | 0, hk | 1, hk => cases hk; decide +kernel
    | k + 2, hk => cases hk

theorem merge_is_join_detour :
    (directRun.nodes 2 0).content "a" = (detourRun.nodes 2 2).content "a" ∧
    (mergeFromJson checksumNode 30 30 Faults.none (detourRun.nodes 1 1).data
      (detourRun.nodes 1 1).file [removed, edited, removed]).answer = .ok 0 := by
  have hR : Coherent checksumNode.hash (Vector.replicate 32 0) [edited.version, removed.version] :=
    ⟨by decide +kernel, by decide +kernel, by decide +kernel⟩
  have hseen : (directRun.nodes 2 0).seen = [edited.version, removed.version] := by
    decide +kernel
  have hseen' : (detourRun.nodes 2 2).seen = [removed.version, edited.version, removed.version] := by
    decide +kernel
  constructor
  · refine (merge_is_join hR directRun detourRun).1 2 2 0 2 ?_
    intro v
    rw [hseen, hseen']
    simp only [mem_cons, not_mem_nil, or_false]
    constructor
    · rintro (h | h)
      · exact .inr (.inl h)
      · exact .inl h
    · rintro (h | h | h)
      · exact .inr h
      · exact .inl h
      · exact .inr h
  · exact (merge_is_join hR detourRun directRun).2 0 1 _ 20 20 30 30 rfl (by decide)
      (by decide +kernel)

end PoolRun

end AivpnSpec.Server
