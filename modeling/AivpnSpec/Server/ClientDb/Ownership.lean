import AivpnSpec.Base.Runs
import AivpnSpec.Server.ClientDb.Lookup

/-!
# Ownership of VPN addresses

No two live clients hold one address and none holds the server's. Every operation of the
database keeps this, a merge of arbitrary records included, and a merge moves a live client
only for an older one that claims its address.
-/

namespace AivpnSpec.Server

open AivpnSpec.Base AivpnSpec.Common List

def liveAddresses (clients : List ClientConfig) : List Ipv4Addr :=
  (clients.filter fun c => !c.deleted).map fun c => c.vpnIp

/-- The addresses of the live clients and of the server are pairwise distinct. -/
def Owned (env : DbEnv) (clients : List ClientConfig) : Prop :=
  (env.networkConfig.serverVpnIp :: liveAddresses clients).Nodup

/-- Not both are live at one address. -/
def NoClash (a b : ClientConfig) : Prop :=
  a.deleted = false → b.deleted = false → a.vpnIp ≠ b.vpnIp

section Lists

variable {env : DbEnv} {clients clients' : List ClientConfig} {p : ClientConfig → Bool}

theorem owned_iff : Owned env clients ↔
    (∀ c ∈ clients, c.deleted = false → c.vpnIp ≠ env.networkConfig.serverVpnIp) ∧
    clients.Pairwise NoClash := by
  unfold Owned liveAddresses
  rw [nodup_cons]
  constructor
  · rintro ⟨hserver, hnodup⟩
    constructor
    · intro c hc hlive hip
      exact hserver (mem_map.mpr ⟨c, mem_filter.mpr ⟨hc, by simp [hlive]⟩, hip⟩)
    · have hpair := pairwise_filter.mp (pairwise_map.mp hnodup)
      refine hpair.imp ?_
      intro a b hab ha hb
      exact hab (by simp [ha]) (by simp [hb])
  · rintro ⟨hserver, hpair⟩
    constructor
    · intro hmem
      obtain ⟨c, hc, hip⟩ := mem_map.mp hmem
      obtain ⟨hc, hlive⟩ := mem_filter.mp hc
      exact hserver c hc (by simpa using hlive) hip
    · refine pairwise_map.mpr (pairwise_filter.mpr (hpair.imp ?_))
      intro a b hab ha hb
      exact hab (by simpa using ha) (by simpa using hb)

/-- A record with a free address, or a tombstone, may be added. -/
theorem Owned.append (h : Owned env clients) {c : ClientConfig}
    (hc : c.deleted = false → Free env clients c.vpnIp) : Owned env (clients ++ [c]) := by
  obtain ⟨hserver, hpair⟩ := owned_iff.mp h
  refine owned_iff.mpr ⟨?_, ?_⟩
  · intro d hd hlive
    rcases mem_append.mp hd with hd | hd
    · exact hserver d hd hlive
    · cases mem_singleton.mp hd
      exact (hc hlive).1
  · refine pairwise_append.mpr ⟨hpair, pairwise_singleton _ _, ?_⟩
    intro a ha b hb halive hblive
    cases mem_singleton.mp hb
    exact (hc hblive).2 a ha halive

/-- A record may change if it dies, or if it stays where it is and does not come to life. -/
theorem Owned.modify (h : Owned env clients) {f : ClientConfig → ClientConfig}
    (hf : ∀ a, clients.find? p = some a → (f a).deleted = true ∨
      ((f a).vpnIp = a.vpnIp ∧ (a.deleted = true → (f a).deleted = true))) :
    Owned env (modifyFirst p f clients) := by
  obtain ⟨hserver, hpair⟩ := owned_iff.mp h
  have hlive : ∀ a, clients.find? p = some a → (f a).deleted = false →
      (f a).vpnIp = a.vpnIp ∧ a.deleted = false := by
    intro a ha hlive
    rcases hf a ha with hd | ⟨hip, hd⟩
    · rw [hd] at hlive
      cases hlive
    refine ⟨hip, ?_⟩
    cases hda : a.deleted with
    | false => rfl
    | true =>
      rw [hd hda] at hlive
      cases hlive
  refine owned_iff.mpr ⟨?_, pairwise_modifyFirst hpair ?_⟩
  · intro c hc hclive
    rcases mem_modifyFirst hc with hc | ⟨a, ha, rfl⟩
    · exact hserver c hc hclive
    · obtain ⟨hip, halive⟩ := hlive a ha hclive
      rw [hip]
      exact hserver a (mem_of_find?_eq_some ha) halive
  · intro a ha b hb
    constructor
    · intro hab h1 h2
      obtain ⟨hip, halive⟩ := hlive a ha h1
      rw [hip]
      exact hab halive h2
    · intro hba h1 h2
      obtain ⟨hip, halive⟩ := hlive a ha h2
      rw [hip]
      exact hba h1 halive

/-- A record may move to a free address. -/
theorem Owned.rehome (h : Owned env clients) {ip : Ipv4Addr} (hfree : Free env clients ip) :
    Owned env (modifyFirst p (fun c => { c with vpnIp := ip }) clients) := by
  obtain ⟨hserver, hpair⟩ := owned_iff.mp h
  refine owned_iff.mpr ⟨?_, pairwise_modifyFirst hpair ?_⟩
  · intro c hc hlive
    rcases mem_modifyFirst hc with hc | ⟨a, ha, rfl⟩
    · exact hserver c hc hlive
    · exact hfree.1
  · intro a _ b hb
    constructor
    · intro _ _ hblive hip
      exact hfree.2 b hb hblive hip.symm
    · intro _ hblive _ hip
      exact hfree.2 b hb hblive hip

theorem Owned.filter (h : Owned env clients) (p : ClientConfig → Bool) :
    Owned env (clients.filter p) := by
  obtain ⟨hserver, hpair⟩ := owned_iff.mp h
  refine owned_iff.mpr ⟨?_, hpair.sublist filter_sublist⟩
  intro c hc hlive
  exact hserver c (mem_of_mem_filter hc) hlive

/-- The traffic counters do not matter. -/
theorem owned_eraseStats : Owned env (clients.map ClientConfig.eraseStats) ↔ Owned env clients := by
  rw [owned_iff, owned_iff, pairwise_map]
  apply and_congr_left'
  exact forall_mem_map

theorem Owned.congr (h : Owned env clients)
    (hs : clients'.map ClientConfig.eraseStats = clients.map ClientConfig.eraseStats) :
    Owned env clients' := by
  rw [← owned_eraseStats, hs, owned_eraseStats]
  exact h

end Lists

variable {out : MergeOutcome × ClientDbFile} {data : ClientDbFile} {inc : ClientConfig}
  {env : DbEnv}

/-- One incoming record keeps the addresses owned. -/
theorem MergeEffect.owned (h : MergeEffect env data inc out) (howned : Owned env data.clients) :
    Owned env out.2.clients := by
  cases h with
  | unchanged existing hf hlose | noAddress hf => exact howned
  | adopted existing hf hpsk hwin =>
    refine howned.modify ?_
    intro a ha
    rw [hf] at ha
    cases ha
    refine .inr ⟨rfl, fun hdel => ?_⟩
    have hinc : inc.deleted = true := deleted_of_outranked hwin hdel
    exact hinc
  | inserted ip hf hfree => exact howned.append hfree
  | displaced resident ip hf hlive hserver hres hold hfree =>
    have hconf := find?_some hres
    simp only [conflictsWith, decide_eq_true_eq] at hconf
    obtain ⟨-, hpair⟩ := owned_iff.mp howned
    refine (howned.rehome hfree).append fun _ => ⟨hserver, ?_⟩
    -- only the resident held the address, and it has just left it
    intro c hc hclive hip
    have hunique : data.clients.Pairwise fun a b =>
        conflictsWith inc a = true → conflictsWith inc b = false := by
      refine hpair.imp ?_
      intro a b hab ha
      simp only [conflictsWith, decide_eq_true_eq, decide_eq_false_iff_not] at ha ⊢
      intro hb
      exact hab ha.2.2 hb.2.2 (by rw [ha.1, hb.1])
    rcases mem_modifyFirst_of_unique hunique hc with ⟨hc, hno⟩ | ⟨a, ha, rfl⟩
    · simp only [conflictsWith, decide_eq_false_iff_not] at hno
      exact hno ⟨hip, ne_of_find_none hf c hc, hclive⟩
    · exact hfree.2 resident (mem_of_find?_eq_some hres) hconf.2.2 (by rw [hconf.1, ← hip])

variable {incoming : List ClientConfig}

/-- The merge loop keeps the addresses owned. -/
theorem Owned.mergeLoop (h : Owned env data.clients) :
    Owned env (mergeLoop env data incoming).2.clients := by
  induction incoming generalizing data with
  | nil => exact h
  | cons inc incoming ih => exact ih ((mergeRecord_effect env data inc).owned h)

/-- The memory accounts for a record of the file: it holds the same record, or the record is a
tombstone and the memory holds nothing live under its id. -/
def Backs (clients : List ClientConfig) (disk : ClientConfig) : Prop :=
  (∃ mem ∈ clients, mem.eraseStats = disk.eraseStats) ∨
  (disk.deleted = true ∧ ∀ mem ∈ clients, mem.id = disk.id → mem.deleted = true)

variable (hash : PoolHash) {disk mem : ClientConfig}

theorem takeDisk_same (h : mem.eraseStats = disk.eraseStats) : takeDisk hash mem disk = false := by
  obtain ⟨-, hu, hd, hc, hip, -⟩ := fields_of_eraseStats h
  have hirrefl : strictlyNewer disk.updatedAt disk.updatedAt = false := by
    rw [Bool.eq_false_iff, ne_eq, strictlyNewer_iff]
    exact lt_irrefl _
  unfold takeDisk
  simp [hu, hd, hc, hip, hirrefl]

theorem absorbOneClient_deleted (hm : mem.deleted = true) (hd : disk.deleted = true) :
    (absorbOneClient hash mem disk).deleted = true := by
  unfold absorbOneClient
  split
  · exact hd
  · exact hm

/-- What absorbing an accounted record does: traffic counters aside nothing, or it adds or
rewrites a tombstone. -/
inductive AbsorbEffect (clients : List ClientConfig) (disk : ClientConfig) :
    List ClientConfig → Prop where
  | counted (clients' : List ClientConfig)
      (hs : clients'.map ClientConfig.eraseStats = clients.map ClientConfig.eraseStats) :
      AbsorbEffect clients disk clients'
  | added (hdel : disk.deleted = true) (hnew : ∀ mem ∈ clients, mem.id ≠ disk.id) :
      AbsorbEffect clients disk (clients ++ [disk])
  | rewritten (mem mem' : ClientConfig) (hf : clients.find? (hasId disk.id) = some mem)
      (hdel : mem.deleted = true) (hid : mem'.id = mem.id) (hdel' : mem'.deleted = true) :
      AbsorbEffect clients disk (modifyFirst (hasId disk.id) (fun _ => mem') clients)

/-- Absorbing an accounted record is one of the three. -/
theorem absorbClient_effect {clients : List ClientConfig} (hids : DistinctIds clients)
    (h : Backs clients disk) : AbsorbEffect clients disk (absorbClient hash clients disk) := by
  unfold absorbClient
  rcases h with ⟨mem, hmem, hs⟩ | ⟨hdel, hdead⟩
  · have hid : mem.id = disk.id := (fields_of_eraseStats hs).1
    have hf := hids.find hmem
    rw [hid] at hf
    rw [hf]
    refine .counted _ (map_modifyFirst ?_)
    intro a ha
    rw [hf] at ha
    cases ha
    unfold absorbOneClient
    rw [takeDisk_same hash hs]
    rfl
  · cases hf : clients.find? (hasId disk.id) with
    | none => exact .added hdel (ne_of_find_none hf)
    | some mem =>
      have hid := id_of_find hf
      have hmdel := hdead mem (mem_of_find?_eq_some hf) hid
      rw [modifyFirst_congr (g := fun _ => absorbOneClient hash mem disk)]
      · exact .rewritten mem _ hf hmdel (absorbOneClient_id hash hid)
          (absorbOneClient_deleted hash hmdel hdel)
      · intro a ha
        rw [hf] at ha
        cases ha
        rfl

variable {env : DbEnv} {clients clients' : List ClientConfig} {disk : ClientConfig}

theorem AbsorbEffect.owned (h : AbsorbEffect clients disk clients') (howned : Owned env clients) :
    Owned env clients' := by
  cases h with
  | counted clients' hs => exact howned.congr hs
  | added hdel hnew =>
    refine howned.append fun hlive => ?_
    rw [hdel] at hlive
    cases hlive
  | rewritten mem mem' hf hdel hid hdel' => exact howned.modify fun _ _ => .inl hdel'

/-- Live records stay in the memory. -/
def Carries (clients clients' : List ClientConfig) : Prop :=
  ∀ c ∈ clients, c.deleted = false → ∃ c' ∈ clients', c'.eraseStats = c.eraseStats

theorem AbsorbEffect.carries (h : AbsorbEffect clients disk clients') :
    Carries clients clients' := by
  intro c hc hlive
  cases h with
  | counted clients' hs => exact mem_of_map_eraseStats hs hc
  | added hdel hnew => exact ⟨c, mem_append_left _ hc, rfl⟩
  | rewritten mem mem' hf hdel hid hdel' =>
    refine ⟨c, mem_modifyFirst_of_ne hc ?_, rfl⟩
    intro a ha heq
    rw [hf] at ha
    cases ha
    rw [heq, hdel] at hlive
    cases hlive

theorem Backs.congr (h : Backs clients disk)
    (hs : clients'.map ClientConfig.eraseStats = clients.map ClientConfig.eraseStats) :
    Backs clients' disk := by
  rcases h with ⟨mem, hmem, heq⟩ | ⟨hdel, hdead⟩
  · obtain ⟨mem', hmem', heq'⟩ := mem_of_map_eraseStats hs hmem
    exact .inl ⟨mem', hmem', heq'.trans heq⟩
  refine .inr ⟨hdel, ?_⟩
  intro mem' hmem' hid
  obtain ⟨mem, hmem, heq⟩ := mem_of_map_eraseStats hs.symm hmem'
  obtain ⟨hid', -, hd, -⟩ := fields_of_eraseStats heq
  rw [← hd]
  exact hdead mem hmem (hid'.trans hid)

/-- What was accounted for stays accounted for. -/
theorem AbsorbEffect.backs (h : AbsorbEffect clients disk clients') (hids : DistinctIds clients)
    {other : ClientConfig} (hb : Backs clients other) : Backs clients' other := by
  cases h with
  | counted clients' hs => exact hb.congr hs
  | added hdel hnew =>
    rcases hb with ⟨mem, hmem, heq⟩ | ⟨hodel, hdead⟩
    · exact .inl ⟨mem, mem_append_left _ hmem, heq⟩
    refine .inr ⟨hodel, ?_⟩
    intro mem hmem hid
    rcases mem_append.mp hmem with hmem | hmem
    · exact hdead mem hmem hid
    · rw [mem_singleton.mp hmem]
      exact hdel
  | rewritten mem mem' hf hdel hid hdel' =>
    have hin := mem_of_find?_eq_some hf
    have hdead : (∀ m ∈ clients, m.id = other.id → m.deleted = true) →
        ∀ m ∈ modifyFirst (hasId disk.id) (fun _ => mem') clients, m.id = other.id →
          m.deleted = true := by
      intro hdead m hm hmid
      rcases mem_modifyFirst hm with hm | ⟨a, -, rfl⟩
      · exact hdead m hm hmid
      · exact hdel'
    rcases hb with ⟨m, hm, heq⟩ | ⟨hodel, hod⟩
    · by_cases hmm : m = mem
      · obtain ⟨hmid, -, hmd, -⟩ := fields_of_eraseStats heq
        subst hmm
        refine .inr ⟨by rw [← hmd]; exact hdel, hdead ?_⟩
        intro n hn hnid
        rw [hids.eq hn hin (hnid.trans hmid.symm)]
        exact hdel
      · refine .inl ⟨m, mem_modifyFirst_of_ne hm ?_, heq⟩
        intro a ha
        rw [hf] at ha
        cases ha
        exact hmm
    · exact .inr ⟨hodel, hdead hod⟩

/-- A reaped record was a tombstone. -/
theorem Backs.reap (h : Backs clients disk) (hids : DistinctIds clients) (now : Int) :
    Backs (reapExpiredTombstones now clients) disk := by
  have hsub : ∀ mem, mem ∈ clients.filter (fun c => !expiredTombstone now c) → mem ∈ clients :=
    fun mem => mem_of_mem_filter
  rcases h with ⟨mem, hmem, heq⟩ | ⟨hdel, hdead⟩
  · obtain ⟨hid, -, hd, -⟩ := fields_of_eraseStats heq
    cases hexp : expiredTombstone now mem with
    | false => exact .inl ⟨mem, mem_filter.mpr ⟨hmem, by simp [hexp]⟩, heq⟩
    | true =>
      have hmdel : mem.deleted = true := (Bool.and_eq_true _ _ ▸ hexp).1
      refine .inr ⟨by rw [← hd]; exact hmdel, ?_⟩
      intro m hm hmid
      rw [hids.eq (hsub m hm) hmem (hmid.trans hid.symm)]
      exact hmdel
  · exact .inr ⟨hdel, fun m hm => hdead m (hsub m hm)⟩

theorem Carries.trans {c₁ c₂ c₃ : List ClientConfig} (h : Carries c₁ c₂) (h' : Carries c₂ c₃) :
    Carries c₁ c₃ := by
  intro c hc hlive
  obtain ⟨c', hc', heq⟩ := h c hc hlive
  obtain ⟨-, -, hd, -⟩ := fields_of_eraseStats heq
  obtain ⟨c'', hc'', heq'⟩ := h' c' hc' (hd.trans hlive)
  exact ⟨c'', hc'', heq'.trans heq⟩

/-- The whole fold: everything the three effects have in common. -/
theorem foldl_absorbClient (disks : List ClientConfig) (howned : Owned env clients)
    (hids : DistinctIds clients) (hb : ∀ disk ∈ disks, Backs clients disk) :
    let r := disks.foldl (absorbClient hash) clients
    Owned env r ∧ Carries clients r ∧ ∀ disk, Backs clients disk → Backs r disk := by
  induction disks generalizing clients with
  | nil => exact ⟨howned, fun c hc _ => ⟨c, hc, rfl⟩, fun _ h => h⟩
  | cons disk disks ih =>
    have heff := absorbClient_effect hash hids (hb disk mem_cons_self)
    obtain ⟨h1, h2, h3⟩ := ih (heff.owned howned) (hids.absorbClient hash disk) fun d hd =>
      heff.backs hids (hb d (mem_cons_of_mem _ hd))
    exact ⟨h1, heff.carries.trans h2, fun d hd => h3 d (heff.backs hids hd)⟩

/-- The memory of the only process and the file are in order: ids are distinct, addresses are
owned, and the memory accounts for the file. -/
structure InOrder (env : DbEnv) (data : ClientDbFile) (file : Option ClientDbFile) : Prop where
  ids : DistinctIds data.clients
  owned : Owned env data.clients
  stored : ∀ f, file = some f → DistinctIds f.clients ∧ Owned env f.clients
  backed : ∀ f, file = some f → ∀ disk ∈ f.clients, Backs data.clients disk

theorem backs_self {c : ClientConfig} (h : c ∈ clients) : Backs clients c := .inl ⟨c, h, rfl⟩

/-- A database that has just been saved is in order. -/
theorem inOrder_saved (hids : DistinctIds data.clients) (howned : Owned env data.clients) :
    InOrder env data (some data) := by
  refine ⟨hids, howned, ?_, ?_⟩
  · intro f hf
    cases hf
    exact ⟨hids, howned⟩
  · intro f hf disk hd
    cases hf
    exact backs_self hd

variable {data data' : ClientDbFile} {file : Option ClientDbFile}

theorem InOrder.congr (h : InOrder env data file)
    (hs : data'.clients.map ClientConfig.eraseStats = data.clients.map ClientConfig.eraseStats) :
    InOrder env data' file :=
  ⟨h.ids.congr hs, h.owned.congr hs, h.stored, fun f hf disk hd => (h.backed f hf disk hd).congr hs⟩

/-- Absorbing the file leaves the database in order and keeps the live records. -/
theorem InOrder.absorb (h : InOrder env data file) (now : Int) :
    InOrder env (absorbDisk env now data file) file ∧
    Carries data.clients (absorbDisk env now data file).clients := by
  have hlive : ∀ l : List ClientConfig, Carries l (reapExpiredTombstones now l) := by
    intro l c hc hlive
    exact ⟨c, mem_filter.mpr ⟨hc, by simp [expiredTombstone, hlive]⟩, rfl⟩
  cases file with
  | none =>
    exact ⟨⟨h.ids.filter _, h.owned.filter _, h.stored, fun f hf => by cases hf⟩, hlive _⟩
  | some disk =>
    obtain ⟨howned, hcarries, hbacks⟩ :=
      foldl_absorbClient env.hash disk.clients h.owned h.ids (h.backed disk rfl)
    have hids := h.ids.foldl_absorbClient env.hash disk.clients
    refine ⟨⟨hids.filter _, howned.filter _, h.stored, ?_⟩, hcarries.trans (hlive _)⟩
    intro f hf d hd
    cases hf
    exact (hbacks d (h.backed disk rfl d hd)).reap hids now

theorem ChangeEffect.owned {newId : Option String} (h : ChangeEffect env newId clients clients')
    (howned : Owned env clients) : Owned env clients' := by
  cases h with
  | inserted c hid hlive hfree => exact howned.append fun _ => hfree
  | edited p c c' hf hid hip hcreated hdel =>
    refine howned.modify ?_
    intro a ha
    rw [hf] at ha
    cases ha
    exact .inr ⟨hip, hdel⟩
  | same => exact howned

/-- A change keeps the addresses owned. -/
theorem Owned.apply {change : DbChange} {u : Unit} (howned : Owned env data.clients)
    (h : change.apply env data = .ok (u, data')) : Owned env data'.clients := by
  by_cases hm : ∃ incoming now, change = .merge incoming now
  · obtain ⟨incoming, now, rfl⟩ := hm
    cases h
    exact howned.mergeLoop.filter _
  · push Not at hm
    exact (apply_effect h hm).owned howned

/-- Every step keeps the database in order, if the ids it draws are fresh. -/
theorem InOrder.perform (h : InOrder env data file) (step : DbStep)
    (hfresh : ∀ change now faults, step = .mutate change now faults → FreshDraw data file change) :
    InOrder env (step.perform env data file).1 (step.perform env data file).2 := by
  have heff := step_effect env data file step
  generalize step.perform env data file = out at heff ⊢
  cases heff with
  | kept data' hs => exact h.congr hs
  | loaded now faults data' hstep hread =>
    cases file with
    | none =>
      refine ⟨?_, ?_, h.stored, fun f hf => by cases hf⟩
      · rw [hread]
        exact nodup_nil
      · rw [hread]
        exact nodup_singleton _
    | some f =>
      obtain ⟨hids, howned⟩ := h.stored f rfl
      refine ⟨hread ▸ hids.filter _, hread ▸ howned.filter _, h.stored, ?_⟩
      intro g hg disk hd
      cases hg
      exact hread ▸ (backs_self hd).reap hids now
  | folded now data' hstep hs => exact (h.absorb now).1.congr hs
  | saved change now faults data' hstep hf hw =>
    obtain ⟨habs, -⟩ := h.absorb now
    have hids := habs.ids.apply hf fun id hid => (hfresh change now faults hstep).absorbDisk hid
    exact inOrder_saved hids (habs.owned.apply hf)

/-- Some incoming live record that is older than `c` claims its address. -/
def Claimed (incoming : List ClientConfig) (c : ClientConfig) : Prop :=
  ∃ inc ∈ incoming, inc.deleted = false ∧ inc.vpnIp = c.vpnIp ∧ inc.olderThan c = true

/-- The record of client `c` is there, with its creation time, and at its address unless an
older record claimed it. -/
def Settled (incoming : List ClientConfig) (c : ClientConfig) (clients : List ClientConfig) : Prop :=
  (∃ m ∈ clients, m.id = c.id) ∧
  ∀ m ∈ clients, m.id = c.id → m.createdAt = c.createdAt ∧
    (m.vpnIp = c.vpnIp ∨ Claimed incoming c)

theorem MergeEffect.settled {c : ClientConfig} (h : MergeEffect env data inc out)
    (hin : inc ∈ incoming) (hs : Settled incoming c data.clients) :
    Settled incoming c out.2.clients := by
  obtain ⟨⟨m₀, hm₀, hid₀⟩, hall⟩ := hs
  -- an inserted record is of another client, since this one is there already
  have hother : data.clients.find? (hasId inc.id) = none → inc.id ≠ c.id := by
    intro hf heq
    exact ne_of_find_none hf m₀ hm₀ (hid₀.trans heq.symm)
  have hkeeps : ∀ (p : ClientConfig → Bool) (f : ClientConfig → ClientConfig),
      (∀ a, (f a).id = a.id) → ∃ m ∈ modifyFirst p f data.clients, m.id = c.id := by
    intro p f hf
    by_cases hmatch : ∃ a, data.clients.find? p = some a ∧ m₀ = a
    · obtain ⟨a, ha, rfl⟩ := hmatch
      exact ⟨f m₀, replaced_mem_modifyFirst ha, (hf m₀).trans hid₀⟩
    · push Not at hmatch
      exact ⟨m₀, mem_modifyFirst_of_ne hm₀ hmatch, hid₀⟩
  cases h with
  | unchanged existing hf hlose | noAddress hf => exact ⟨⟨m₀, hm₀, hid₀⟩, hall⟩
  | adopted existing hf hpsk hwin =>
    refine ⟨hkeeps _ _ fun _ => rfl, ?_⟩
    intro m hm hmid
    rcases mem_modifyFirst hm with hm | ⟨a, ha, rfl⟩
    · exact hall m hm hmid
    · exact hall a (mem_of_find?_eq_some ha) hmid
  | inserted ip hf hfree =>
    refine ⟨⟨m₀, mem_append_left _ hm₀, hid₀⟩, ?_⟩
    intro m hm hmid
    rcases mem_append.mp hm with hm | hm
    · exact hall m hm hmid
    · rw [mem_singleton.mp hm] at hmid
      exact absurd hmid (hother hf)
  | displaced resident ip hf hlive hserver hres hold hfree =>
    obtain ⟨m₁, hm₁, hid₁⟩ := hkeeps (conflictsWith inc) (fun c => { c with vpnIp := ip })
      fun _ => rfl
    refine ⟨⟨m₁, mem_append_left _ hm₁, hid₁⟩, ?_⟩
    intro m hm hmid
    rcases mem_append.mp hm with hm | hm
    · rcases mem_modifyFirst hm with hm | ⟨a, ha, rfl⟩
      · exact hall m hm hmid
      -- the resident is this client: it leaves its address to the older claimant
      rw [hres] at ha
      cases ha
      obtain ⟨hcreated, hip⟩ := hall resident (mem_of_find?_eq_some hres) hmid
      refine ⟨hcreated, .inr ?_⟩
      rcases hip with hip | hclaimed
      · have hconf := find?_some hres
        simp only [conflictsWith, decide_eq_true_eq] at hconf
        refine ⟨inc, hin, hlive, by rw [← hconf.1, hip], ?_⟩
        simp only [ClientConfig.olderThan] at hold ⊢
        rw [← hcreated, ← hmid]
        exact hold
      · exact hclaimed
    · rw [mem_singleton.mp hm] at hmid
      exact absurd hmid (hother hf)

theorem mergeLoop_settled {all incoming : List ClientConfig} {c : ClientConfig}
    (hsub : ∀ inc ∈ incoming, inc ∈ all) (hs : Settled all c data.clients) :
    Settled all c (mergeLoop env data incoming).2.clients := by
  induction incoming generalizing data with
  | nil => exact hs
  | cons inc incoming ih =>
    apply ih (fun i hi => hsub i (mem_cons_of_mem _ hi))
    exact (mergeRecord_effect env data inc).settled (hsub inc mem_cons_self) hs

/-- A merge moves a live client only for an older one that claims its address. -/
theorem InOrder.merge_moves (h : InOrder env data file) {now now' : Int} {faults : Faults}
    {c m : ClientConfig} (hc : c ∈ data.clients) (hlive : c.deleted = false)
    (hm : m ∈ (DbStep.perform env data file (.mutate (.merge incoming now') now faults)).1.clients)
    (hid : m.id = c.id) : m.vpnIp = c.vpnIp ∨ Claimed incoming c := by
  obtain ⟨habs, hcarries⟩ := h.absorb now
  obtain ⟨c', hc', heq⟩ := hcarries c hc hlive
  obtain ⟨hid', -, -, -, hip', hcreated'⟩ := fields_of_eraseStats heq
  have hsettled : Settled incoming c (absorbDisk env now data file).clients := by
    refine ⟨⟨c', hc', hid'⟩, ?_⟩
    intro n hn hnid
    rw [habs.ids.eq hn hc' (hnid.trans hid'.symm)]
    exact ⟨hcreated', .inl hip'⟩
  have heff := step_effect env data file (.mutate (.merge incoming now') now faults)
  generalize DbStep.perform env data file (.mutate (.merge incoming now') now faults) = out
    at heff hm
  cases heff with
  | kept data' hs =>
    obtain ⟨n, hn, hnm⟩ := mem_of_map_eraseStats hs.symm hm
    obtain ⟨hnid, -, -, -, hnip, -⟩ := fields_of_eraseStats hnm
    rw [← hnip, h.ids.eq hn hc (hnid.trans hid)]
    exact .inl rfl
  | loaded now'' faults' data' hstep hread => cases hstep
  | folded now'' data' hstep hs =>
    obtain ⟨n, hn, hnm⟩ := mem_of_map_eraseStats hs.symm hm
    obtain ⟨hnid, -, -, -, hnip, -⟩ := fields_of_eraseStats hnm
    obtain ⟨_, ⟨⟩⟩ | ⟨_, _, ⟨⟩⟩ := hstep
    rw [← hnip]
    exact (hsettled.2 n hn (hnid.trans hid)).2
  | saved change now'' faults' data' hstep hf hw =>
    cases hstep
    cases hf
    have hend := @mergeLoop_settled env (absorbDisk env now data file) incoming incoming c
      (fun _ hi => hi) hsettled
    exact (hend.2 m (mem_of_mem_filter hm) hid).2

/-- Memory and file after the first `k` steps of a process that has the file to itself. -/
def dbAfter (env : DbEnv) (data : ClientDbFile) (file : Option ClientDbFile) (steps : List DbStep)
    (k : Nat) : ClientDbFile × Option ClientDbFile :=
  stateAt (fun s step => step.perform env s.1 s.2) (data, file) steps k

def FreshDraws (env : DbEnv) (data : ClientDbFile) (file : Option ClientDbFile)
    (steps : List DbStep) : Prop :=
  ∀ k change now faults, steps[k]? = some (.mutate change now faults) →
    FreshDraw (dbAfter env data file steps k).1 (dbAfter env data file steps k).2 change

theorem dbAfter_inOrder {steps : List DbStep} (h : InOrder env data file)
    (hfresh : FreshDraws env data file steps) (k : Nat) :
    InOrder env (dbAfter env data file steps k).1 (dbAfter env data file steps k).2 := by
  refine stateAt_keeps (P := fun (s : ClientDbFile × Option ClientDbFile) =>
    InOrder env s.1 s.2) (Nat.zero_le k) h ?_
  intro j step _ _ hj hs
  apply hs.perform step
  rintro change now faults rfl
  exact hfresh j change now faults hj

instance (env : DbEnv) (clients : List ClientConfig) : Decidable (Owned env clients) :=
  inferInstanceAs (Decidable (List.Nodup _))

def twins : ClientDbFile where
  clients := [liveClient "a" 0x0a000002 1, liveClient "a" 0x0a000003 2]
  nextHostOffset := 4

/-- Two records of one id at different addresses end up at one: the file's second record is
absorbed into the memory's first. -/
theorem twins_share_an_address :
    Owned smallNode twins.clients ∧
    ¬Owned smallNode (dbAfter smallNode twins (some twins)
      [.mutate (.merge [] 0) 0 Faults.none] 1).1.clients := by
  decide +kernel

def single : ClientDbFile where
  clients := [liveClient "a" 0x0a000002 5]
  nextHostOffset := 3

/-- A client is added, and a merge brings an older client that claims 10.0.0.2. -/
def addThenMerge : List DbStep :=
  [.mutate (.insert "n" none false
      { id := "b", psk := Vector.replicate 32 1, createdAt := 6, updatedAt := 6 }) 6 Faults.none,
    .mutate (.merge [liveClient "c" 0x0a000002 4] 7) 7 Faults.none]

/-- From every database in order, whatever operations and merges follow: the live clients'
addresses and the server's stay pairwise distinct, and a merge moves a live client only for an
older live one that claims its address. -/
theorem addresses_stay_owned (env : DbEnv) (data : ClientDbFile) (file : Option ClientDbFile)
    (steps : List DbStep) (h : InOrder env data file) (hfresh : FreshDraws env data file steps) :
    (∀ k, Owned env (dbAfter env data file steps k).1.clients) ∧
    (∀ k incoming now now' faults,
      steps[k]? = some (.mutate (.merge incoming now') now faults) →
      ∀ c ∈ (dbAfter env data file steps k).1.clients, c.deleted = false →
      ∀ m ∈ (dbAfter env data file steps (k + 1)).1.clients, m.id = c.id → m.vpnIp ≠ c.vpnIp →
      ∃ inc ∈ incoming, inc.deleted = false ∧ inc.vpnIp = c.vpnIp ∧ inc.olderThan c = true) := by
  constructor
  · intro k
    exact (dbAfter_inOrder h hfresh k).owned
  · intro k incoming now now' faults hk c hc hlive m hm hid hne
    have hsucc : dbAfter env data file steps (k + 1) =
        DbStep.perform env (dbAfter env data file steps k).1 (dbAfter env data file steps k).2
          (.mutate (.merge incoming now') now faults) := by
      unfold dbAfter
      rw [stateAt_succ hk]
    rw [hsucc] at hm
    rcases (dbAfter_inOrder h hfresh k).merge_moves hc hlive hm hid with hip | hclaimed
    · exact absurd hip hne
    · exact hclaimed

theorem addresses_stay_owned_addThenMerge :
    (∀ k, Owned smallNode (dbAfter smallNode single (some single) addThenMerge k).1.clients) ∧
    ∃ inc ∈ [liveClient "c" 0x0a000002 4], inc.deleted = false ∧ inc.vpnIp = 0x0a000002 ∧
      inc.olderThan (liveClient "a" 0x0a000002 5) = true := by
  have hstart : InOrder smallNode single (some single) :=
    inOrder_saved (by decide +kernel) (by decide +kernel)
  have hfresh : FreshDraws smallNode single (some single) addThenMerge := by
    intro k change now faults hk id hid
    match k, hk with
    | 0, hk =>
      cases hk
      cases hid
      refine ⟨by decide +kernel, ?_⟩
      intro f hf
      cases hf
      decide +kernel
    | 1, hk =>
      cases hk
      cases hid
    | k + 2, hk => cases hk
  obtain ⟨howned, hmoves⟩ := addresses_stay_owned smallNode single (some single) addThenMerge
    hstart hfresh
  refine ⟨howned, ?_⟩
  exact hmoves 1 _ 7 7 Faults.none rfl (liveClient "a" 0x0a000002 5) (by decide +kernel) rfl
    (liveClient "a" 0x0a000049 5) (by decide +kernel) rfl (by decide)

end AivpnSpec.Server
