import AivpnSpec.Server.ClientDb.Revocation
import AivpnSpec.Server.ClientDb.Versions

/-!
# One history for all processes

As long as the clock does not go back, what a process holds is an old copy of the file: reading
the file again replaces every record by the file's version of it. Every step of a process then
either leaves the file alone or changes the file's own records, as if the file were the only
database. Merges of a peer's records are left out here.
-/

namespace AivpnSpec.Server

open AivpnSpec.Base AivpnSpec.Common List

/-- The records of the file; a missing file has none. -/
def stored (file : Option ClientDbFile) : List ClientConfig :=
  match file with
  | none => []
  | some f => f.clients

def DbStep.FromPeer : DbStep → Prop
  | .mutate (.merge _ _) _ _ => True
  | _ => False

/-- The readings of the clock that a step compares or writes, counters aside. -/
def DbStep.readings : DbStep → List Int
  | .load now _ => [now]
  | .reload now _ => [now]
  | .mutate change now _ => now :: change.time.toList
  | .handshake _ _ => []
  | .traffic _ _ _ _ => []

/-- Every record has a time, and none is later than `t`. -/
def Timely (t : Int) (clients : List ClientConfig) : Prop :=
  ∀ c ∈ clients, ∃ u, c.updatedAt = some u ∧ u ≤ t

/-- The copies in a memory are older than the file's records or equal to them, a tombstone is
older or the file's record is one as well, and a client that the file does not know has an
expired tombstone. -/
structure Follows (t : Int) (clients disks : List ClientConfig) : Prop where
  older : ∀ m ∈ clients, ∀ d ∈ disks, d.id = m.id →
    timeRank m.updatedAt ≤ timeRank d.updatedAt ∧
    (m.deleted = true → d.deleted = true ∨ timeRank m.updatedAt < timeRank d.updatedAt)
  known : ∀ m ∈ clients, (∃ d ∈ disks, d.id = m.id) ∨ expiredTombstone t m = true

/-- Two copies of a client with one time that have the same digest have the same content. -/
def TiesToldApart (hash : PoolHash) (clients disks : List ClientConfig) : Prop :=
  ∀ m ∈ clients, ∀ d ∈ disks, d.id = m.id → m.updatedAt = d.updatedAt →
    recordCanonicalHash hash m.canonical = recordCanonicalHash hash d.canonical →
    m.canonical = d.canonical

/-- Every record of the one list has its version in the other. -/
def CopyOf (clients disks : List ClientConfig) : Prop :=
  ∀ m ∈ clients, ∃ d ∈ disks, d.version = m.version

section Versions

variable {env : DbEnv} {clients disks disks' : List ClientConfig} {t t' now : Int}

variable {a b m : ClientConfig}

theorem id_of_version (h : a.version = b.version) : a.id = b.id :=
  congrArg (fun v : Version => v.canonical.id) h

theorem deleted_of_version (h : a.version = b.version) : a.deleted = b.deleted :=
  congrArg (fun v : Version => v.canonical.deleted) h

theorem name_of_version (h : a.version = b.version) : a.name = b.name :=
  congrArg (fun v : Version => v.canonical.name) h

theorem updatedAt_of_version (h : a.version = b.version) : a.updatedAt = b.updatedAt :=
  congrArg (fun v : Version => v.updatedAt) h

theorem version_of_eraseStats (h : a.eraseStats = b.eraseStats) : a.version = b.version := by
  obtain ⟨-, hupdated, -, hcanonical, -⟩ := fields_of_eraseStats h
  unfold ClientConfig.version
  rw [hupdated, hcanonical]

theorem DistinctIds.versionOf_mem (h : DistinctIds clients) {c : ClientConfig}
    (hc : c ∈ clients) : versionOf clients c.id = some c.version := by
  unfold versionOf
  rw [h.find hc]
  rfl

theorem exists_of_versionOf {id : String} {v : Version} (h : versionOf clients id = some v) :
    ∃ c ∈ clients, c.id = id ∧ c.version = v := by
  obtain ⟨c, hf, hv⟩ := Option.map_eq_some_iff.mp h
  exact ⟨c, mem_of_find?_eq_some hf, id_of_find hf, hv⟩

/-- Lists with the same versions are copies of each other. -/
theorem CopyOf.of_versionOf (hids : DistinctIds clients) (h : versionOf clients = versionOf disks) :
    CopyOf clients disks := by
  intro m hm
  have hv := hids.versionOf_mem hm
  rw [h] at hv
  obtain ⟨d, hd, -, hdv⟩ := exists_of_versionOf hv
  exact ⟨d, hd, hdv⟩

theorem CopyOf.reap (h : CopyOf clients (reapExpiredTombstones now disks)) :
    CopyOf clients disks := by
  intro m hm
  obtain ⟨d, hd, hv⟩ := h m hm
  exact ⟨d, mem_of_mem_filter hd, hv⟩

theorem CopyOf.of_map_eraseStats
    (h : clients.map ClientConfig.eraseStats = disks.map ClientConfig.eraseStats) :
    CopyOf clients disks := by
  intro m hm
  obtain ⟨d, hd, hs⟩ := mem_of_map_eraseStats h.symm hm
  exact ⟨d, hd, version_of_eraseStats hs⟩

theorem CopyOf.trans (h : CopyOf clients disks) (h' : CopyOf disks disks') :
    CopyOf clients disks' := by
  intro m hm
  obtain ⟨d, hd, hv⟩ := h m hm
  obtain ⟨e, he, hv'⟩ := h' d hd
  exact ⟨e, he, hv'.trans hv⟩

theorem CopyOf.timely (h : CopyOf clients disks) (ht : Timely t disks) : Timely t clients := by
  intro m hm
  obtain ⟨d, hd, hv⟩ := h m hm
  rw [← updatedAt_of_version hv]
  exact ht d hd

theorem Timely.mono (h : Timely t clients) (htt : t ≤ t') : Timely t' clients := by
  intro c hc
  obtain ⟨u, hu, hle⟩ := h c hc
  exact ⟨u, hu, hle.trans htt⟩

theorem expiredTombstone_iff : expiredTombstone t m = true ↔
    m.deleted = true ∧ ∃ u, m.updatedAt = some u ∧ u < t - tombstoneTtl := by
  unfold expiredTombstone
  rw [Bool.and_eq_true]
  cases m.updatedAt <;> simp

theorem expiredTombstone_mono (h : expiredTombstone t m = true) (htt : t ≤ t') :
    expiredTombstone t' m = true := by
  obtain ⟨hdel, u, hu, hlt⟩ := expiredTombstone_iff.mp h
  exact expiredTombstone_iff.mpr ⟨hdel, u, hu, by omega⟩

/-- A tombstone that is not newer than an expired one is expired. -/
theorem expiredTombstone_of_older {d : ClientConfig} (hm : m.deleted = true)
    (htime : ∃ u, m.updatedAt = some u ∧ u ≤ t')
    (hle : timeRank m.updatedAt ≤ timeRank d.updatedAt) (hd : expiredTombstone t d = true) :
    expiredTombstone t m = true := by
  obtain ⟨u, hu, -⟩ := htime
  obtain ⟨-, v, hv, hlt⟩ := expiredTombstone_iff.mp hd
  rw [hu, hv] at hle
  have huv : u ≤ v := WithBot.coe_le_coe.mp hle
  exact expiredTombstone_iff.mpr ⟨hm, u, hu, by omega⟩

/-- An expired tombstone is older than whatever is written later. -/
theorem timeRank_lt_of_expired (h : expiredTombstone t m = true) {u : Int} (hu : t ≤ u) :
    timeRank m.updatedAt < timeRank (some u) := by
  obtain ⟨-, v, hv, hlt⟩ := expiredTombstone_iff.mp h
  rw [hv]
  refine WithBot.coe_lt_coe.mpr ?_
  unfold tombstoneTtl at hlt
  omega

theorem Follows.mono (h : Follows t clients disks) (htt : t ≤ t') : Follows t' clients disks :=
  ⟨h.older, fun m hm => (h.known m hm).imp_right fun hexp => expiredTombstone_mono hexp htt⟩

/-- A copy of the file follows it. -/
theorem CopyOf.follows (h : CopyOf clients disks) (hids : DistinctIds disks) (t : Int) :
    Follows t clients disks := by
  constructor
  · intro m hm d hd hid
    obtain ⟨e, he, hv⟩ := h m hm
    obtain rfl : e = d := hids.eq he hd ((id_of_version hv).trans hid.symm)
    rw [updatedAt_of_version hv, deleted_of_version hv]
    exact ⟨le_refl _, .inl⟩
  · intro m hm
    obtain ⟨d, hd, hv⟩ := h m hm
    exact .inl ⟨d, hd, id_of_version hv⟩

/-- Only versions count in the copies that follow a file. -/
theorem Follows.of_copyOf {clients' : List ClientConfig} (h : Follows t clients disks)
    (hcopy : CopyOf clients' clients) : Follows t clients' disks := by
  constructor
  · intro m hm d hd hid
    obtain ⟨n, hn, hv⟩ := hcopy m hm
    have hold := h.older n hn d hd (hid.trans (id_of_version hv).symm)
    rw [updatedAt_of_version hv, deleted_of_version hv] at hold
    exact hold
  · intro m hm
    obtain ⟨n, hn, hv⟩ := hcopy m hm
    rcases h.known n hn with ⟨d, hd, hid⟩ | hexp
    · exact .inl ⟨d, hd, hid.trans (id_of_version hv)⟩
    right
    unfold expiredTombstone at hexp ⊢
    rw [← updatedAt_of_version hv, ← deleted_of_version hv]
    exact hexp

/-- Reaping, on the version of one id. -/
theorem versionOf_reap_eq (hids : DistinctIds clients) (now : Int) (id : String) :
    versionOf (reapExpiredTombstones now clients) id =
      (versionOf clients id).filter fun v => !v.expired now := by
  cases hv : versionOf clients id with
  | none =>
    rw [versionOf_reap hids (by intro v h; rw [hv] at h; cases h), hv]
    rfl
  | some v =>
    cases hexp : v.expired now with
    | false =>
      rw [versionOf_reap hids, hv]
      · exact (Option.filter_some_pos (by rw [hexp]; rfl)).symm
      · intro w h
        rw [hv] at h
        cases h
        exact hexp
    | true =>
      have hnone : versionOf (reapExpiredTombstones now clients) id = none := by
        rw [Option.eq_none_iff_forall_ne_some]
        intro w h
        obtain ⟨c, hc, hid, -⟩ := exists_of_versionOf h
        obtain ⟨hmem, hkept⟩ := mem_filter.mp hc
        have hcv := hids.versionOf_mem hmem
        rw [hid, hv, Option.some.injEq] at hcv
        rw [hcv] at hexp
        rw [show expiredTombstone now c = true from hexp] at hkept
        cases hkept
      rw [hnone]
      exact (Option.filter_some_neg (by rw [hexp]; decide)).symm

end Versions

section Reading

variable {env : DbEnv} {data : ClientDbFile} {file : Option ClientDbFile} {t now : Int}

/-- A copy that is not newer gives way to the file's version. -/
theorem version_absorbOneClient {hash : PoolHash} {m d : ClientConfig}
    (hle : timeRank m.updatedAt ≤ timeRank d.updatedAt)
    (hdel : m.deleted = true → d.deleted = true ∨ timeRank m.updatedAt < timeRank d.updatedAt)
    (htie : m.updatedAt = d.updatedAt →
      recordCanonicalHash hash m.canonical = recordCanonicalHash hash d.canonical →
      m.canonical = d.canonical) :
    (absorbOneClient hash m d).version = d.version := by
  unfold absorbOneClient
  cases htake : takeDisk hash m d with
  | true => rfl
  | false =>
    unfold takeDisk at htake
    split at htake
    · cases htake
    next hnotnewer =>
    rw [strictlyNewer_iff, not_lt] at hnotnewer
    have heq : m.updatedAt = d.updatedAt := timeRank_inj.mp (le_antisymm hle hnotnewer)
    split at htake
    · next hnewer => exact absurd ((strictlyNewer_iff _ _).mp hnewer) (not_lt.mpr hle)
    split at htake
    · next hne =>
      -- the file's record is live and the copy a tombstone of the same time
      have hm : m.deleted = true := by
        rw [htake] at hne
        simpa using hne.symm
      rcases hdel hm with h | h
      · rw [htake] at h
        cases h
      · rw [heq] at h
        exact absurd h (lt_irrefl _)
    · simp only [Bool.or_eq_false_iff, decide_eq_false_iff_not, not_not] at htake
      have hcanonical := htie heq htake.1.symm
      simp only [Bool.false_eq_true, if_false]
      show Version.mk m.canonical m.updatedAt = Version.mk d.canonical d.updatedAt
      rw [hcanonical, heq]

/-- Folding in a file that a memory follows puts the file's versions in their places. -/
theorem versionOf_absorbFile (hfile : ∀ f, file = some f → DistinctIds f.clients)
    (hfollows : Follows t data.clients (stored file))
    (hties : TiesToldApart env.hash data.clients (stored file)) (id : String) :
    versionOf (absorbFile env data file) id =
      (versionOf (stored file) id).or (versionOf data.clients id) := by
  cases file with
  | none => rfl
  | some f =>
    show versionOf (f.clients.foldl (absorbClient env.hash) data.clients) id =
      (versionOf f.clients id).or (versionOf data.clients id)
    unfold versionOf
    rw [find_foldl_absorbClient env.hash (hfile f rfl)]
    cases hf : f.clients.find? (hasId id) with
    | none => rfl
    | some d =>
      simp only [Option.map_some, Option.some_or, Option.some.injEq]
      cases hm : data.clients.find? (hasId id) with
      | none => rfl
      | some m =>
        have hmem := mem_of_find?_eq_some hm
        have hd : d ∈ f.clients := mem_of_find?_eq_some hf
        have hid : d.id = m.id := (id_of_find hf).trans (id_of_find hm).symm
        obtain ⟨hle, hdel⟩ := hfollows.older m hmem d hd hid
        exact version_absorbOneClient hle hdel (hties m hmem d hd hid)

/-- After reading, a memory that follows the file holds the file's versions, without expired
tombstones. -/
theorem versionOf_absorbDisk (hids : DistinctIds data.clients)
    (hfile : ∀ f, file = some f → DistinctIds f.clients)
    (hfollows : Follows t data.clients (stored file))
    (hties : TiesToldApart env.hash data.clients (stored file)) (hnow : t ≤ now) :
    versionOf (absorbDisk env now data file).clients =
      versionOf (reapExpiredTombstones now (stored file)) := by
  have hstored : DistinctIds (stored file) := by
    cases file with
    | none => exact nodup_nil
    | some f => exact hfile f rfl
  have habsorbed : DistinctIds (absorbFile env data file) := by
    cases file with
    | none => exact hids
    | some f => exact hids.foldl_absorbClient env.hash f.clients
  funext id
  rw [absorbDisk_clients, versionOf_reap_eq habsorbed, versionOf_reap_eq hstored,
    versionOf_absorbFile hfile hfollows hties]
  cases hv : versionOf (stored file) id with
  | some v => rfl
  | none =>
    rw [Option.none_or]
    cases hm : versionOf data.clients id with
    | none => rfl
    | some v =>
      -- the file does not know the client, so the copy is an expired tombstone
      obtain ⟨m, hmem, hid, rfl⟩ := exists_of_versionOf hm
      rcases hfollows.known m hmem with ⟨d, hd, hdid⟩ | hexp
      · have hdv := hstored.versionOf_mem hd
        rw [hdid, hid, hv] at hdv
        cases hdv
      · have hexp' : m.version.expired now = true := expiredTombstone_mono hexp hnow
        simp [hexp']

end Reading

/-- What a step of a process that follows the file does: it leaves its memory and the file alone,
counters aside; it copies the file, without expired tombstones; or it saves a change of such a
copy. -/
inductive Succession (env : DbEnv) (data : ClientDbFile) (file : Option ClientDbFile)
    (step : DbStep) : ClientDbFile × Option ClientDbFile → Prop where
  | idle (data' : ClientDbFile)
      (hs : data'.clients.map ClientConfig.eraseStats = data.clients.map ClientConfig.eraseStats) :
      Succession env data file step (data', file)
  | copied (data' : ClientDbFile) (hcopy : CopyOf data'.clients (stored file)) :
      Succession env data file step (data', file)
  | saved (change : DbChange) (now : Int) (faults : Faults) (seen data' : ClientDbFile)
      (hstep : step = .mutate change now faults) (hids : DistinctIds seen.clients)
      (hv : versionOf seen.clients = versionOf (reapExpiredTombstones now (stored file)))
      (heff : LocalEffect env change seen.clients data'.clients) :
      Succession env data file step (data', some data')

/-- Every step of a process that follows the file, merges apart, is one of the three. -/
theorem perform_succession {env : DbEnv} {data : ClientDbFile} {file : Option ClientDbFile}
    {t : Int} (hids : DistinctIds data.clients)
    (hfile : ∀ f, file = some f → DistinctIds f.clients)
    (hfollows : Follows t data.clients (stored file))
    (hties : TiesToldApart env.hash data.clients (stored file)) (step : DbStep)
    (hpeer : ¬step.FromPeer) (hclock : ∀ r ∈ step.readings, t ≤ r) :
    Succession env data file step (step.perform env data file) := by
  have hread : ∀ now, t ≤ now →
      CopyOf (absorbDisk env now data file).clients (stored file) := fun now hnow =>
    (CopyOf.of_versionOf (hids.absorbDisk now)
      (versionOf_absorbDisk hids hfile hfollows hties hnow)).reap
  have heff := step_effect env data file step
  generalize step.perform env data file = out at heff ⊢
  cases heff with
  | kept data' hs => exact .idle data' hs
  | loaded now faults data' hstep hread =>
    refine .copied data' ?_
    intro m hm
    rw [hread] at hm
    cases file with
    | none => cases hm
    | some f => exact ⟨m, mem_of_mem_filter hm, rfl⟩
  | folded now data' hstep hs =>
    have hnow : t ≤ now := by
      obtain ⟨faults, rfl⟩ | ⟨change, faults, rfl⟩ := hstep
      · exact hclock now mem_cons_self
      · exact hclock now mem_cons_self
    exact .copied data' ((CopyOf.of_map_eraseStats hs).trans (hread now hnow))
  | saved change now faults data' hstep hf hw =>
    subst hstep
    have hm : ∀ incoming now', change ≠ .merge incoming now' := by
      rintro incoming now' rfl
      exact hpeer trivial
    exact .saved change now faults _ data' rfl (hids.absorbDisk now)
      (versionOf_absorbDisk hids hfile hfollows hties (hclock now mem_cons_self))
      (apply_cases hf hm)

section Step

variable {env : DbEnv} {data data' : ClientDbFile} {file file' : Option ClientDbFile}
  {step : DbStep} {t t' : Int} {clients seen : List ClientConfig} {change : DbChange}

/-- What a step reads or writes is not later than its last reading of the clock. -/
theorem Succession.timely (h : Succession env data file step (data', file'))
    (hdata : Timely t data.clients) (hfile : Timely t (stored file)) (htt : t ≤ t')
    (hclock : ∀ r ∈ step.readings, r ≤ t') :
    Timely t' data'.clients ∧ Timely t' (stored file') := by
  cases h with
  | idle _ hs => exact ⟨((CopyOf.of_map_eraseStats hs).timely hdata).mono htt, hfile.mono htt⟩
  | copied _ hcopy => exact ⟨(hcopy.timely hfile).mono htt, hfile.mono htt⟩
  | saved change now faults seen _ hstep hids hv heff =>
    have hseen : Timely t seen.clients := ((CopyOf.of_versionOf hids hv).reap).timely hfile
    have hstamp : ∀ u, change.time = some u → u ≤ t' := by
      intro u hu
      refine hclock u ?_
      rw [hstep]
      exact mem_cons_of_mem _ (by rw [hu]; exact mem_singleton_self u)
    have hsaved : Timely t' data'.clients := by
      intro c hc
      rcases heff.mem hc with hc | ⟨-, -, -, ⟨u, hu, hcu⟩, -⟩ | ⟨d, hd, hedit, -⟩
      · exact hseen.mono htt c hc
      · exact ⟨u, hcu, hstamp u hu⟩
      · rcases hedit.keeps.time with rfl | ⟨u, hu, hcu⟩
        · exact hseen.mono htt c hd
        · exact ⟨u, hcu, hstamp u hu⟩
    exact ⟨hsaved, hsaved⟩

/-- The process that takes a step follows the file again. -/
theorem Succession.follows (h : Succession env data file step (data', file'))
    (hfollows : Follows t data.clients (stored file)) (htt : t ≤ t')
    (hids : DistinctIds (stored file')) : Follows t' data'.clients (stored file') := by
  cases h with
  | idle _ hs => exact (hfollows.mono htt).of_copyOf (CopyOf.of_map_eraseStats hs)
  | copied _ hcopy => exact hcopy.follows hids t'
  | saved change now faults seen _ hstep hids' hv heff =>
    exact CopyOf.follows (fun m hm => ⟨m, hm, rfl⟩) hids t'

/-- A record of the file after a change is not older than the copies that followed the file
before: it is the same, it belongs to a new client, or it has a new time. -/
theorem Follows.older_of_saved (hfollows : Follows t clients (stored file))
    (hfile : Timely t (stored file)) (hcopy : CopyOf seen (stored file))
    (heff : LocalEffect env change seen data'.clients)
    (hstamp : ∀ u, change.time = some u → t ≤ u) (hfresh : FreshDraw data file change)
    {m d : ClientConfig} (hm : m ∈ clients) (hd : d ∈ data'.clients) (hid : d.id = m.id) :
    timeRank m.updatedAt ≤ timeRank d.updatedAt ∧
    (m.deleted = true → d.deleted = true ∨ timeRank m.updatedAt < timeRank d.updatedAt) := by
  rcases heff.mem hd with hd | ⟨hnew, -, -, ⟨u, hu, hdu⟩, -⟩ | ⟨c, hc, hedit, -⟩
  · obtain ⟨e, he, hev⟩ := hcopy d hd
    have hold := hfollows.older m hm e he ((id_of_version hev).trans hid)
    rw [updatedAt_of_version hev, deleted_of_version hev] at hold
    exact hold
  · rcases hfollows.known m hm with ⟨e, he, heid⟩ | hexp
    · cases file with
      | none => cases he
      | some f => exact absurd (heid.trans hid.symm) ((hfresh d.id hnew).2 f rfl e he)
    · have hlt := timeRank_lt_of_expired hexp (hstamp u hu)
      rw [hdu]
      exact ⟨hlt.le, fun _ => .inr hlt⟩
  · obtain ⟨e, he, hev⟩ := hcopy c hc
    obtain ⟨hle, hdel⟩ := hfollows.older m hm e he
      ((id_of_version hev).trans (hedit.keeps.id.symm.trans hid))
    rw [updatedAt_of_version hev] at hle hdel
    rw [deleted_of_version hev] at hdel
    rcases hedit.keeps.time with rfl | ⟨u, hu, hdu⟩
    · exact ⟨hle, hdel⟩
    have hcd : timeRank c.updatedAt ≤ timeRank d.updatedAt := by
      obtain ⟨v, hv, hvt⟩ := hfile e he
      rw [← updatedAt_of_version hev, hv, hdu]
      exact WithBot.coe_le_coe.mpr (hvt.trans (hstamp u hu))
    refine ⟨hle.trans hcd, fun hmdel => ?_⟩
    rcases hdel hmdel with hcdel | hlt
    · exact .inl (hedit.keeps.deleted hcdel)
    · exact .inr (hlt.trans_le hcd)

/-- A change drops a record from the file only when it is an expired tombstone. -/
theorem expired_of_dropped {now : Int} (hids : DistinctIds (stored file))
    (hv : versionOf seen = versionOf (reapExpiredTombstones now (stored file)))
    (heff : LocalEffect env change seen data'.clients) {d : ClientConfig} (hd : d ∈ stored file)
    (hdropped : ¬∃ d' ∈ data'.clients, d'.id = d.id) : expiredTombstone now d = true := by
  by_contra hkept
  have hmem : d ∈ reapExpiredTombstones now (stored file) :=
    mem_filter.mpr ⟨hd, by simpa using hkept⟩
  have hdv : versionOf seen d.id = some d.version := by
    rw [hv]
    exact DistinctIds.versionOf_mem (hids.filter _) hmem
  obtain ⟨c, hc, hcid, -⟩ := exists_of_versionOf hdv
  obtain ⟨c', hc', hcid'⟩ := heff.known hc
  exact hdropped ⟨c', hc', hcid'.trans hcid⟩

/-- The other processes still follow the file, if the step does not drop the last trace of a
client that one of them takes to be live. -/
theorem Succession.follows_other (h : Succession env data file step (data', file'))
    (hfollows : Follows t clients (stored file)) (hclients : Timely t clients)
    (hfile : Timely t (stored file)) (hids : DistinctIds (stored file)) (htt : t ≤ t')
    (hclock : ∀ r ∈ step.readings, t ≤ r ∧ r ≤ t')
    (hfresh : ∀ change now faults, step = .mutate change now faults → FreshDraw data file change)
    (hkept : ∀ m ∈ clients, m.deleted = false → (∃ d ∈ stored file, d.id = m.id) →
      ∃ d ∈ stored file', d.id = m.id) :
    Follows t' clients (stored file') := by
  cases h with
  | idle _ hs | copied _ hcopy => exact hfollows.mono htt
  | saved change now faults seen _ hstep hseen hv heff =>
    subst hstep
    have hcopy : CopyOf seen.clients (stored file) := (CopyOf.of_versionOf hseen hv).reap
    have hstamp : ∀ u, change.time = some u → t ≤ u := by
      intro u hu
      exact (hclock u (mem_cons_of_mem _ (by rw [hu]; exact mem_singleton_self u))).1
    constructor
    · intro m hm d hd hid
      exact hfollows.older_of_saved hfile hcopy heff hstamp (hfresh _ _ _ rfl) hm hd hid
    · intro m hm
      rcases hfollows.known m hm with ⟨d, hd, hid⟩ | hexp
      · by_cases hkeeps : ∃ d ∈ data'.clients, d.id = m.id
        · exact .inl hkeeps
        -- the client's record was dropped, so it is an expired tombstone, and the copy is older
        right
        have hdexp : expiredTombstone now d = true :=
          expired_of_dropped hids hv heff hd (by rw [hid]; exact hkeeps)
        have hmdel : m.deleted = true := by
          by_contra hlive
          exact hkeeps (hkept m hm (by simpa using hlive) ⟨d, hd, hid⟩)
        have hmexp := expiredTombstone_of_older hmdel (hclients m hm)
          (hfollows.older m hm d hd hid).1 hdexp
        exact expiredTombstone_mono hmexp (hclock now mem_cons_self).2
      · exact .inr (expiredTombstone_mono hexp htt)

end Step

end AivpnSpec.Server
