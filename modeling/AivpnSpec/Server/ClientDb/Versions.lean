import AivpnSpec.Base.Replica
import AivpnSpec.Server.ClientDb.Lookup

/-!
# The pool's view of a database

Nodes exchange records and agree on their versions: the canonical content of the record of each
id, together with its time. Seen this way merging a record is a function of the version at hand:
the higher rank is kept. Addresses, counters and creation times are each node's own.
-/

namespace AivpnSpec.Server

open AivpnSpec.Base AivpnSpec.Common List

def versionOf (clients : List ClientConfig) (id : String) : Option Version :=
  (clients.find? (hasId id)).map ClientConfig.version

def contentOf (clients : List ClientConfig) (id : String) : Option Canonical :=
  (versionOf clients id).map fun v => v.canonical

/-- The version of a record as a known client takes it over: a deleted record is not enabled. -/
def ClientConfig.adoptedVersion (inc : ClientConfig) : Version :=
  { canonical := { inc.canonical with enabled := inc.enabled && !inc.deleted }
    updatedAt := inc.updatedAt }

/-- The version at an id after a record of that id came in. -/
def mergeVersion (hash : PoolHash) (held : Option Version) (inc : ClientConfig) : Option Version :=
  match held with
  | none => some inc.version
  | some v =>
    if v.canonical.psk = inc.psk ∧ v.rank hash < inc.version.rank hash then
      some inc.adoptedVersion
    else some v

variable {inc : ClientConfig}

variable {env : DbEnv} {data : ClientDbFile} {file : Option ClientDbFile}
  {clients clients' : List ClientConfig}

theorem versionOf_append (c : ClientConfig) (id : String) :
    versionOf (clients ++ [c]) id =
      (versionOf clients id).or (if id = c.id then some c.version else none) := by
  unfold versionOf
  rw [find?_append]
  cases clients.find? (hasId id) with
  | some d => rfl
  | none =>
    by_cases hid : id = c.id
    · simp [hasId, hid]
    · simp [hasId, hid, Ne.symm hid]

/-- Replacing a record by one of the same id changes the version at that id at most. -/
theorem versionOf_modifyFirst_of_version {p : ClientConfig → Bool}
    {f : ClientConfig → ClientConfig} (hf : ∀ c, (f c).version = c.version) (id : String) :
    versionOf (modifyFirst p f clients) id = versionOf clients id := by
  have hid : ∀ c, (f c).id = c.id := fun c => congrArg (fun v : Version => v.canonical.id) (hf c)
  induction clients with
  | nil => rfl
  | cons c clients ih =>
    unfold modifyFirst
    unfold versionOf at ih ⊢
    by_cases hc : c.id = id
    · split
      · rw [find?_cons_of_pos (by simp [hasId, hid, hc]),
          find?_cons_of_pos (by simp [hasId, hc]), Option.map_some, Option.map_some, hf]
      · rw [find?_cons_of_pos (by simp [hasId, hc]),
          find?_cons_of_pos (by simp [hasId, hc])]
    · split
      · rw [find?_cons_of_neg (by simp [hasId, hid, hc]),
          find?_cons_of_neg (by simp [hasId, hc])]
      · rw [find?_cons_of_neg (by simp [hasId, hc]),
          find?_cons_of_neg (by simp [hasId, hc]), ih]

/-- Merging a record acts on the version of its id only, by `mergeVersion`; a record for which
no address is left acts on none. -/
theorem MergeEffect.versionOf {out : MergeOutcome × ClientDbFile}
    (h : MergeEffect env data inc out) (id : String) :
    versionOf out.2.clients id =
      if id = inc.id ∧ out.1 ≠ .noAddress then
        mergeVersion env.hash (versionOf data.clients id) inc
      else versionOf data.clients id := by
  have hknown : ∀ existing, data.clients.find? (hasId inc.id) = some existing →
      Server.versionOf data.clients inc.id = some existing.version := by
    intro existing hf
    unfold Server.versionOf
    rw [hf]
    rfl
  have hunknown : data.clients.find? (hasId inc.id) = none →
      Server.versionOf data.clients inc.id = none := by
    intro hf
    unfold Server.versionOf
    rw [hf]
    rfl
  have hmoved : ∀ ip id, Server.versionOf
      (modifyFirst (conflictsWith inc) (fun c => { c with vpnIp := ip }) data.clients) id =
        Server.versionOf data.clients id := by
    intro ip id
    apply versionOf_modifyFirst_of_version
    intro c
    rfl
  by_cases hid : id = inc.id
  · subst hid
    cases h with
    | unchanged existing hf hlose =>
      rw [if_pos ⟨rfl, by simp⟩, hknown existing hf]
      exact (if_neg fun hc => hlose hc.1 hc.2).symm
    | adopted existing hf hpsk hwin =>
      rw [if_pos ⟨rfl, by simp⟩, hknown existing hf]
      rw [mergeVersion, if_pos ⟨hpsk, hwin⟩]
      unfold Server.versionOf
      rw [find?_modifyFirst_self, hf]
      · simp [ClientConfig.version, ClientConfig.adoptedVersion, ClientConfig.adopt,
          ClientConfig.canonical, id_of_find hf, hpsk]
      · intro a ha
        show hasId inc.id a = true
        exact find?_some ha
    | inserted ip hf hfree =>
      rw [if_pos ⟨rfl, by simp⟩, versionOf_append, hunknown hf, if_pos rfl]
      rfl
    | displaced resident ip hf hlive hserver hres hold hfree =>
      rw [if_pos ⟨rfl, by simp⟩, versionOf_append, hmoved, hunknown hf, if_pos rfl]
      rfl
    | noAddress hf => rw [if_neg (by simp)]
  · rw [if_neg fun hc => hid hc.1]
    cases h with
    | unchanged existing hf hlose => rfl
    | adopted existing hf hpsk hwin =>
      unfold Server.versionOf
      rw [find?_modifyFirst]
      intro a ha
      have hida := id_of_find ha
      refine ⟨rfl, fun hq _ => ?_⟩
      simp only [hasId, decide_eq_true_eq] at hq
      exact hid (hq.symm.trans hida)
    | inserted ip hf hfree =>
      rw [versionOf_append, if_neg hid, Option.or_none]
    | displaced resident ip hf hlive hserver hres hold hfree =>
      rw [versionOf_append, hmoved, if_neg hid, Option.or_none]
    | noAddress hf => rfl

/-- No incoming record of the id is left out of the merge for want of an address. -/
def Homed (env : DbEnv) (id : String) : ClientDbFile → List ClientConfig → Prop
  | _, [] => True
  | data, inc :: incoming =>
    (inc.id = id → (mergeRecord env data inc).1 ≠ .noAddress) ∧
      Homed env id (mergeRecord env data inc).2 incoming

/-- No incoming record at all is left out. -/
def allHomed (env : DbEnv) : ClientDbFile → List ClientConfig → Bool
  | _, [] => true
  | data, inc :: incoming =>
    decide ((mergeRecord env data inc).1 ≠ .noAddress) &&
      allHomed env (mergeRecord env data inc).2 incoming

variable {incoming : List ClientConfig} {id : String} {now : Int}

theorem homed_of_allHomed (h : allHomed env data incoming = true) : Homed env id data incoming := by
  induction incoming generalizing data with
  | nil => trivial
  | cons inc incoming ih =>
    rw [allHomed, Bool.and_eq_true, decide_eq_true_eq] at h
    exact ⟨fun _ => h.1, ih h.2⟩

/-- The merge loop on the version of one id. -/
theorem versionOf_mergeLoop (h : Homed env id data incoming) :
    versionOf (mergeLoop env data incoming).2.clients id =
      (incoming.filter (hasId id)).foldl (mergeVersion env.hash) (versionOf data.clients id) := by
  induction incoming generalizing data with
  | nil => rfl
  | cons inc incoming ih =>
    have hstep := (mergeRecord_effect env data inc).versionOf id
    show versionOf (mergeLoop env (mergeRecord env data inc).2 incoming).2.clients id = _
    rw [ih h.2]
    by_cases hid : inc.id = id
    · rw [if_pos ⟨hid.symm, h.1 hid⟩] at hstep
      rw [hstep, filter_cons_of_pos (by simp [hasId, hid]), foldl_cons]
    · rw [if_neg fun hc => hid hc.1.symm] at hstep
      rw [hstep, filter_cons_of_neg (by simp [hasId, hid])]

/-- A version of a tombstone past its time to live. -/
def Version.expired (now : Int) (v : Version) : Bool :=
  v.canonical.deleted && v.updatedAt.any fun t => t < now - tombstoneTtl

/-- Reaping does not concern an id whose tombstone is not past its time to live. -/
theorem versionOf_reap (hids : DistinctIds clients)
    (h : ∀ v, versionOf clients id = some v → v.expired now = false) :
    versionOf (reapExpiredTombstones now clients) id = versionOf clients id := by
  unfold versionOf at h ⊢
  cases hf : clients.find? (hasId id) with
  | none =>
    have hnone : (reapExpiredTombstones now clients).find? (hasId id) = none := by
      rw [find?_eq_none] at hf ⊢
      exact fun c hc => hf c (mem_of_mem_filter hc)
    rw [hnone]
  | some c =>
    rw [hf] at h
    have hlive : expiredTombstone now c = false := h c.version rfl
    have hmem : c ∈ reapExpiredTombstones now clients :=
      mem_filter.mpr ⟨mem_of_find?_eq_some hf, by simp [hlive]⟩
    have hfind := (hids.filter _).find hmem
    rw [id_of_find hf] at hfind
    rw [show reapExpiredTombstones now clients = clients.filter _ from rfl, hfind]

/-- A file that holds the same versions as the memory adds nothing. -/
theorem versionOf_absorb_self (hids : DistinctIds data.clients)
    (h : ∀ v, versionOf data.clients id = some v → v.expired now = false) :
    versionOf (absorbDisk env now data (some data)).clients id = versionOf data.clients id := by
  have hfold : versionOf (data.clients.foldl (absorbClient env.hash) data.clients) id =
      versionOf data.clients id := by
    unfold versionOf
    rw [find_foldl_absorbClient env.hash hids]
    cases hf : data.clients.find? (hasId id) with
    | none => rfl
    | some c =>
      simp only [absorbed, absorbOneClient, Option.map_some]
      split <;> rfl
  show versionOf (reapExpiredTombstones now _) id = _
  rw [versionOf_reap (hids.foldl_absorbClient env.hash data.clients) (by rw [hfold]; exact h), hfold]

/-- A merge into a saved database, on the version of one id. -/
theorem versionOf_mergeFromJson {now' : Int} (hids : DistinctIds data.clients)
    (hhomed : Homed env id (absorbDisk env now data (some data)) incoming)
    (hlive : ∀ v, versionOf data.clients id = some v → v.expired now = false)
    (hlive' : ∀ v, (incoming.filter (hasId id)).foldl (mergeVersion env.hash)
      (versionOf data.clients id) = some v → v.expired now' = false) :
    versionOf (mergeFromJson env now now' Faults.none data (some data) incoming).data.clients id =
      (incoming.filter (hasId id)).foldl (mergeVersion env.hash) (versionOf data.clients id) := by
  show versionOf (reapExpiredTombstones now'
    (mergeLoop env (absorbDisk env now data (some data)) incoming).2.clients) id = _
  have hloop := versionOf_mergeLoop hhomed
  rw [versionOf_absorb_self hids hlive] at hloop
  rw [versionOf_reap (hids.absorbDisk now).mergeLoop (by rw [hloop]; exact hlive'), hloop]

/-- The versions of one client that the pool may exchange: all of one key, the deleted ones
disabled, and told apart by the hash of their content. -/
structure Coherent (hash : PoolHash) (psk : Bytes32) (versions : List Version) : Prop where
  psk : ∀ v ∈ versions, v.canonical.psk = psk
  disabled : ∀ v ∈ versions, v.canonical.deleted = true → v.canonical.enabled = false
  injective : ∀ v ∈ versions, ∀ w ∈ versions,
    recordCanonicalHash hash v.canonical = recordCanonicalHash hash w.canonical →
      v.canonical = w.canonical

section Coherent

variable {hash : PoolHash} {psk : Bytes32} {versions : List Version} {held : Option Version}

theorem adoptedVersion_eq {c : ClientConfig}
    (h : c.version.canonical.deleted = true → c.version.canonical.enabled = false) :
    c.adoptedVersion = c.version := by
  have henabled : (c.enabled && !c.deleted) = c.enabled := by
    cases hd : c.deleted with
    | false => simp
    | true => simp [show c.enabled = false from h hd]
  unfold ClientConfig.adoptedVersion ClientConfig.version
  rw [henabled]
  rfl

/-- Among coherent versions, merging keeps the higher rank. -/
theorem mergeVersion_eq (hR : Coherent hash psk versions)
    (hheld : ∀ v, held = some v → v ∈ versions) (hinc : inc.version ∈ versions) :
    mergeVersion hash held inc = keepHigher (Version.rank hash) held inc.version := by
  cases held with
  | none => rfl
  | some v =>
    have hpsk : v.canonical.psk = inc.psk := (hR.psk v (hheld v rfl)).trans (hR.psk _ hinc).symm
    unfold mergeVersion keepHigher
    simp only [hpsk, true_and, adoptedVersion_eq (hR.disabled _ hinc)]

theorem foldl_mergeVersion_eq (hR : Coherent hash psk versions) {records : List ClientConfig}
    (hrec : ∀ c ∈ records, c.version ∈ versions) (hheld : ∀ v, held = some v → v ∈ versions) :
    records.foldl (mergeVersion hash) held =
      (records.map ClientConfig.version).foldl (keepHigher (Version.rank hash)) held := by
  induction records generalizing held with
  | nil => rfl
  | cons c records ih =>
    have hc := hrec c mem_cons_self
    rw [foldl_cons, map_cons, foldl_cons, mergeVersion_eq hR hheld hc]
    apply ih fun d hd => hrec d (mem_cons_of_mem _ hd)
    intro v hv
    rcases keepHigher_cases hv with rfl | hv
    · exact hc
    · exact hheld v hv

/-- The rank determines the content. -/
theorem canonical_of_rank (hR : Coherent hash psk versions) {v w : Version} (hv : v ∈ versions)
    (hw : w ∈ versions) (h : v.rank hash = w.rank hash) : v.canonical = w.canonical := by
  apply hR.injective v hv w hw
  have hdigest := congrArg (fun r => OrderDual.ofDual (ofLex (ofLex r).2).2) h
  exact Vector.toList_inj.mp (ofBe_inj (by simp) hdigest)

end Coherent

end AivpnSpec.Server
