import AivpnSpec.Server.ClientDb.Succession

/-!
# Privileges are tied to a device

A live client with an elevated role always has a bound device: every record is one that was
known before, a new one of a user, or the result of an edit that checks this. That no two live
clients share a name, and that the bound device of a one-time or elevated client changes only by
a reset or a removal, are facts about the file's history. They hold as long as all processes
follow the file, and fail when a process can put an old copy back.
-/

namespace AivpnSpec.Server

open AivpnSpec.Base AivpnSpec.Common List

/-- Where a record comes from that is there after a step: it was known with the same version, it
is new and belongs to a user, or an edit made it from a known one. -/
inductive Origin (step : DbStep) (known : ClientConfig → Prop) (c' : ClientConfig) : Prop where
  | kept (c : ClientConfig) (hc : known c) (hv : c'.version = c.version)
  | drawn (change : DbChange) (now : Int) (faults : Faults)
      (hstep : step = .mutate change now faults) (hnew : change.newId = some c'.id)
      (huser : c'.role = .user)
  | edited (change : DbChange) (now : Int) (faults : Faults) (d c : ClientConfig)
      (hstep : step = .mutate change now faults) (hc : known c) (hv : d.version = c.version)
      (hedit : change.Edits d c')

variable {c' : ClientConfig}

/-- Every record after a step, merges apart, has an origin. -/
theorem perform_origin (env : DbEnv) (data : ClientDbFile) (file : Option ClientDbFile)
    (step : DbStep) (hpeer : ¬step.FromPeer)
    (h : Held (step.perform env data file).1 (step.perform env data file).2 c') :
    Origin step (Held data file) c' := by
  have hread : ∀ now (clients : List ClientConfig), c' ∈ clients →
      clients.map ClientConfig.eraseStats =
        (absorbDisk env now data file).clients.map ClientConfig.eraseStats →
      Origin step (Held data file) c' := by
    intro now clients hc hs
    obtain ⟨d, hd, hv⟩ := mem_of_map_eraseStats hs.symm hc
    obtain ⟨b, hb, hs'⟩ := held_absorbDisk hd
    exact .kept b hb (version_of_eraseStats (hv.symm.trans hs'))
  have hkept : ∀ f, file = some f → c' ∈ f.clients → Origin step (Held data file) c' :=
    fun f hf hc => .kept c' (.inr ⟨f, hf, hc⟩) rfl
  have heff := step_effect env data file step
  generalize step.perform env data file = out at heff h
  cases heff with
  | kept data' hs =>
    rcases h with h | ⟨f, hf, hc⟩
    · obtain ⟨d, hd, hv⟩ := mem_of_map_eraseStats hs.symm h
      exact .kept d (.inl hd) (version_of_eraseStats hv.symm)
    · exact hkept f hf hc
  | loaded now faults data' hstep hload =>
    rcases h with h | ⟨f, hf, hc⟩
    · rw [hload] at h
      have hc : c' ∈ (file.getD ClientDbFile.empty).clients := mem_of_mem_filter h
      cases file with
      | none => cases hc
      | some f => exact hkept f rfl hc
    · exact hkept f hf hc
  | folded now data' hstep hs =>
    rcases h with h | ⟨f, hf, hc⟩
    · exact hread now _ h hs
    · exact hkept f hf hc
  | saved change now faults data' hstep hf hw =>
    have hc : c' ∈ data'.clients := by
      rcases h with h | ⟨f, heq, hc⟩
      · exact h
      · cases heq
        exact hc
    have hm : ∀ incoming now', change ≠ .merge incoming now' := by
      rintro incoming now' rfl
      subst hstep
      exact hpeer trivial
    rcases (apply_cases hf hm).mem hc with hc | ⟨hnew, -, huser, -⟩ | ⟨d, hd, hedit, -⟩
    · exact hread now _ hc rfl
    · exact .drawn change now faults hstep hnew huser
    · obtain ⟨b, hb, hs⟩ := held_absorbDisk hd
      exact .edited change now faults d b hstep hb (version_of_eraseStats hs) hedit

/-- A live record with an elevated role has a bound device. -/
def DeviceBound (c : ClientConfig) : Prop :=
  c.deleted = false → c.role ≠ .user → c.devicePubkey ≠ none

variable {c : ClientConfig} {change : DbChange} {key : Bytes32} {faults : Faults} {now : Int}

theorem DeviceBound.of_version {d : ClientConfig} (h : DeviceBound c) (hv : d.version = c.version) :
    DeviceBound d := by
  unfold DeviceBound
  rw [deleted_of_version hv, show d.role = c.role from congrArg (fun v => v.canonical.role) hv,
    show d.devicePubkey = c.devicePubkey from congrArg (fun v => v.canonical.devicePubkey) hv]
  exact h

theorem DbChange.Edits.deviceBound (h : change.Edits c c') (hb : DeviceBound c) :
    DeviceBound c' := by
  cases change with
  | enroll clientId staticPub now =>
    rcases h with ⟨-, rfl⟩ | ⟨-, -, rfl⟩
    · exact hb
    · exact fun _ _ => Option.some_ne_none _
  | resetDevice clientId now =>
    obtain rfl : c' = _ := h
    exact fun _ hrole => absurd rfl hrole
  | remove clientId now =>
    obtain rfl : c' = _ := h
    intro hlive
    cases hlive
  | update clientId params now =>
    obtain ⟨hrole, rfl⟩ := h
    exact fun _ helevated => hrole.resolve_left helevated
  | setQos clientId qos now =>
    obtain rfl : c' = _ := h
    exact hb
  | _ => cases h

/-- A step keeps the rule for every record. -/
theorem perform_deviceBound (env : DbEnv) {data : ClientDbFile} {file : Option ClientDbFile}
    {step : DbStep} (hpeer : ¬step.FromPeer) (hb : ∀ c, Held data file c → DeviceBound c)
    (h : Held (step.perform env data file).1 (step.perform env data file).2 c') :
    DeviceBound c' := by
  cases perform_origin env data file step hpeer h with
  | kept c hc hv => exact (hb c hc).of_version hv
  | drawn change now faults hstep hnew huser => exact fun _ hrole => absurd huser hrole
  | edited change now faults d c hstep hc hv hedit =>
    exact hedit.deviceBound ((hb c hc).of_version hv)

def liveNames (clients : List ClientConfig) : List String :=
  (clients.filter fun c => !c.deleted).map fun c => c.name

/-- Live records with one name are of one client. -/
def NamesUnique (clients : List ClientConfig) : Prop :=
  ∀ a ∈ clients, ∀ b ∈ clients, a.deleted = false → b.deleted = false → a.name = b.name →
    a.id = b.id

section Names

variable {env : DbEnv} {clients clients' disks : List ClientConfig}

theorem NamesUnique.nodup (h : NamesUnique clients) (hids : DistinctIds clients) :
    (liveNames clients).Nodup := by
  apply Nodup.map_on
  · intro a ha b hb hname
    obtain ⟨ha, hlive⟩ := mem_filter.mp ha
    obtain ⟨hb, hlive'⟩ := mem_filter.mp hb
    exact hids.eq ha hb (h a ha b hb (by simpa using hlive) (by simpa using hlive') hname)
  · exact (Nodup.of_map _ hids).filter _

theorem CopyOf.namesUnique (h : CopyOf clients disks) (hn : NamesUnique disks) :
    NamesUnique clients := by
  intro a ha b hb hlive hlive' hname
  obtain ⟨c, hc, hv⟩ := h a ha
  obtain ⟨d, hd, hv'⟩ := h b hb
  rw [← id_of_version hv, ← id_of_version hv']
  refine hn c hc d hd ((deleted_of_version hv).trans hlive)
    ((deleted_of_version hv').trans hlive') ?_
  rw [name_of_version hv, name_of_version hv', hname]

/-- What an edit makes of a live record's name is not the name of another live record. -/
theorem NamesUnique.edited (h : NamesUnique clients) {a : ClientConfig} (ha : a ∈ clients)
    (hc : c ∈ clients) (hlive : a.deleted = false) (hlive' : c.deleted = false)
    (hname : c'.name = c.name ∨ ∀ d ∈ clients, d.deleted = false → d.id ≠ c.id → d.name ≠ c'.name)
    (heq : a.name = c'.name) : a.id = c.id := by
  rcases hname with hsame | hfree
  · exact h a ha c hc hlive hlive' (heq.trans hsame)
  · by_contra hne
    exact hfree a ha hlive hne heq

theorem LocalEffect.namesUnique (h : LocalEffect env change clients clients')
    (hn : NamesUnique clients) : NamesUnique clients' := by
  cases h with
  | inserted c hnew hlive huser htime hfree hname =>
    intro a ha b hb hla hlb heq
    rcases mem_append.mp ha with ha | ha <;> rcases mem_append.mp hb with hb | hb
    · exact hn a ha b hb hla hlb heq
    · rw [mem_singleton.mp hb] at heq
      exact absurd heq (hname a ha hla)
    · rw [mem_singleton.mp ha] at heq
      exact absurd heq.symm (hname b hb hlb)
    · rw [mem_singleton.mp ha, mem_singleton.mp hb]
  | edited c c' hf hedit hname =>
    obtain ⟨hid, -, -, hdel, -, -⟩ := hedit.keeps
    have hc := mem_of_find?_eq_some hf
    -- the record was live if the edited one is
    have hlive : c'.deleted = false → c.deleted = false := by
      intro hlive'
      by_contra hdead
      rw [hdel (by simpa using hdead)] at hlive'
      cases hlive'
    intro a hma b hmb hla hlb heq
    rcases mem_modifyFirst hma with ha | ⟨e, he, rfl⟩ <;>
      rcases mem_modifyFirst hmb with hb | ⟨e', he', rfl⟩
    · exact hn a ha b hb hla hlb heq
    · rw [hid]
      exact hn.edited ha hc hla (hlive hlb) hname heq
    · rw [hid]
      exact (hn.edited hb hc hlb (hlive hla) hname heq.symm).symm
    · rfl
  | same hsave => exact hn

end Names

/-- The client may not change its device by itself: it is one-time or elevated. -/
def Strict (c : ClientConfig) : Prop := c.oneTime = true ∨ c.role ≠ .user

/-- The step resets the device binding of the client or removes the client. -/
def DbStep.Releases (id : String) : DbStep → Prop
  | .mutate (.resetDevice clientId _) _ _ => clientId = id
  | .mutate (.remove clientId _) _ _ => clientId = id
  | _ => False

/-- The edit of a strict record with a bound device keeps the device, or releases it. -/
theorem DbChange.Edits.devicePubkey (h : change.Edits c c') (hf : change.finds c = true)
    (hstrict : Strict c) (hlive : c.deleted = false) (hkey : c.devicePubkey = some key) :
    (c'.devicePubkey = some key ∧ c'.deleted = false) ∨
    (DbStep.mutate change now faults).Releases c.id := by
  cases change with
  | enroll clientId staticPub now =>
    rcases h with ⟨-, rfl⟩ | ⟨huser, hfree, -⟩
    · exact .inl ⟨hkey, hlive⟩
    -- a strict record with a device is not rebound
    rcases hfree with hnone | hmany
    · rw [hkey] at hnone
      cases hnone
    rcases hstrict with hone | hrole
    · rw [hmany] at hone
      cases hone
    · exact absurd huser hrole
  | resetDevice clientId now =>
    simp only [DbChange.finds, hasId, decide_eq_true_eq] at hf
    exact .inr hf.symm
  | remove clientId now =>
    simp only [DbChange.finds, isLive, Bool.and_eq_true, decide_eq_true_eq] at hf
    exact .inr hf.1.symm
  | update clientId params now =>
    obtain ⟨-, rfl⟩ := h
    exact .inl ⟨hkey, hlive⟩
  | setQos clientId qos now =>
    obtain rfl : c' = _ := h
    exact .inl ⟨hkey, hlive⟩
  | _ => cases h

/-- A change keeps the device of a strict record in the list, or releases it. -/
theorem LocalEffect.devicePubkey {env : DbEnv} {clients clients' : List ClientConfig}
    (h : LocalEffect env change clients clients') (hc : c ∈ clients) (hstrict : Strict c)
    (hlive : c.deleted = false) (hkey : c.devicePubkey = some key) :
    (∃ c' ∈ clients', c'.id = c.id ∧ c'.devicePubkey = some key ∧ c'.deleted = false) ∨
    (DbStep.mutate change now faults).Releases c.id := by
  cases h with
  | inserted d hnew hlive' huser htime hfree hname =>
    exact .inl ⟨c, mem_append_left _ hc, rfl, hkey, hlive⟩
  | edited d d' hf hedit hname =>
    by_cases heq : c = d
    · subst heq
      have hdevice : (d'.devicePubkey = some key ∧ d'.deleted = false) ∨
          (DbStep.mutate change now faults).Releases c.id :=
        hedit.devicePubkey (find?_some hf) hstrict hlive hkey
      rcases hdevice with ⟨hkey', hlive'⟩ | hrelease
      · exact .inl ⟨d', replaced_mem_modifyFirst hf, hedit.keeps.id, hkey', hlive'⟩
      · exact .inr hrelease
    · refine .inl ⟨c, mem_modifyFirst_of_ne hc ?_, rfl, hkey, hlive⟩
      intro a ha
      rw [hf] at ha
      cases ha
      exact heq
  | same hsave => exact .inl ⟨c, hc, rfl, hkey, hlive⟩

section Step

variable {env : DbEnv} {data data' : ClientDbFile} {file file' : Option ClientDbFile}
  {step : DbStep}

theorem Succession.namesUnique (h : Succession env data file step (data', file'))
    (hn : NamesUnique (stored file)) : NamesUnique (stored file') := by
  cases h with
  | idle _ hs | copied _ hcopy => exact hn
  | saved change now faults seen _ hstep hids hv heff =>
    exact heff.namesUnique (((CopyOf.of_versionOf hids hv).reap).namesUnique hn)

/-- A step keeps the device of a strict live client in the file, or releases it. -/
theorem Succession.devicePubkey (h : Succession env data file step (data', file'))
    (hids : DistinctIds (stored file)) (hc : c ∈ stored file) (hlive : c.deleted = false)
    (hstrict : Strict c) (hkey : c.devicePubkey = some key) :
    (∃ c' ∈ stored file', c'.id = c.id ∧ c'.devicePubkey = some key ∧ c'.deleted = false) ∨
    step.Releases c.id := by
  cases h with
  | idle _ hs | copied _ hcopy => exact .inl ⟨c, hc, rfl, hkey, hlive⟩
  | saved change now faults seen _ hstep hseen hv heff =>
    -- a live record is not reaped, so the change has seen it
    have hkept : c ∈ reapExpiredTombstones now (stored file) :=
      mem_filter.mpr ⟨hc, by simp [expiredTombstone, hlive]⟩
    have hcv : versionOf seen.clients c.id = some c.version := by
      rw [hv]
      exact DistinctIds.versionOf_mem (hids.filter _) hkept
    obtain ⟨d, hd, hid, hdv⟩ := exists_of_versionOf hcv
    have hone : d.oneTime = c.oneTime := congrArg (fun v => v.canonical.oneTime) hdv
    have hrole : d.role = c.role := congrArg (fun v => v.canonical.role) hdv
    have hdkey : d.devicePubkey = c.devicePubkey :=
      congrArg (fun v => v.canonical.devicePubkey) hdv
    have hdstrict : Strict d := by
      unfold Strict
      rw [hone, hrole]
      exact hstrict
    rw [hstep, ← hid]
    exact heff.devicePubkey hd hdstrict ((deleted_of_version hdv).trans hlive) (hdkey.trans hkey)

end Step

namespace DbWorld

/-- The clock reading `clock k` separates the steps before `k` from the later ones, drawn ids are
new, copies of one time are told apart by their digests, and no step drops the record of a client
from the file while another process still takes the client to be live. -/
structure SteadyRun (env : DbEnv) (actions : List (Nat × DbStep)) (clock : Nat → Int) : Prop where
  fresh : ∀ k action, actions[k]? = some action → Fresh (after env none actions k) action
  monotone : Monotone clock
  readings : ∀ k action, actions[k]? = some action → ∀ r ∈ action.2.readings,
    clock k ≤ r ∧ r ≤ clock (k + 1)
  ties : ∀ k action, actions[k]? = some action → TiesToldApart env.hash
    ((after env none actions k).procs action.1).clients (stored (after env none actions k).file)
  kept : ∀ k action, actions[k]? = some action → ∀ q, q ≠ action.1 →
    ∀ m ∈ ((after env none actions k).procs q).clients, m.deleted = false →
    (∃ d ∈ stored (after env none actions k).file, d.id = m.id) →
    ∃ d ∈ stored (after env none actions (k + 1)).file, d.id = m.id

/-- All processes follow the file, nothing is later than `t`, and the names in the file are
unique. -/
structure Orderly (t : Int) (w : DbWorld) : Prop where
  distinct : w.Distinct
  memory : ∀ p, Timely t (w.procs p).clients
  file : Timely t (stored w.file)
  follows : ∀ p, Follows t (w.procs p).clients (stored w.file)
  names : NamesUnique (stored w.file)

section Steps

variable {env : DbEnv} {w : DbWorld} {action : Nat × DbStep} {t t' : Int}

theorem Distinct.stored (h : w.Distinct) : DistinctIds (stored w.file) := by
  cases hf : w.file with
  | none => exact nodup_nil
  | some f => exact h.file f hf

/-- A step of a process in an orderly world. -/
theorem Orderly.succession (h : w.Orderly t) (hpeer : ¬action.2.FromPeer)
    (hties : TiesToldApart env.hash (w.procs action.1).clients (Server.stored w.file))
    (hclock : ∀ r ∈ action.2.readings, t ≤ r) :
    Succession env (w.procs action.1) w.file action.2
      ((perform env w action).procs action.1, (perform env w action).file) := by
  have hstep := perform_succession (h.distinct.memory action.1) h.distinct.file
    (h.follows action.1) hties action.2 hpeer hclock
  unfold perform
  rw [SharedFile.set_procs_self, SharedFile.set_file]
  exact hstep

/-- A step keeps the world orderly. -/
theorem Orderly.perform (h : w.Orderly t) (hpeer : ¬action.2.FromPeer) (hfresh : w.Fresh action)
    (hties : TiesToldApart env.hash (w.procs action.1).clients (Server.stored w.file))
    (htt : t ≤ t') (hclock : ∀ r ∈ action.2.readings, t ≤ r ∧ r ≤ t')
    (hkept : ∀ q, q ≠ action.1 → ∀ m ∈ (w.procs q).clients, m.deleted = false →
      (∃ d ∈ Server.stored w.file, d.id = m.id) →
      ∃ d ∈ Server.stored (perform env w action).file, d.id = m.id) :
    Orderly t' (perform env w action) := by
  have hstep := h.succession hpeer hties fun r hr => (hclock r hr).1
  have hdistinct : Distinct (DbWorld.perform env w action) := h.distinct.perform hfresh
  obtain ⟨hmemory, hfile⟩ := hstep.timely (h.memory action.1) h.file htt fun r hr => (hclock r hr).2
  have hother : ∀ q, q ≠ action.1 → (DbWorld.perform env w action).procs q = w.procs q :=
    fun q hq => SharedFile.set_procs_of_ne w hq _ _
  refine ⟨hdistinct, ?_, hfile, ?_, hstep.namesUnique h.names⟩
  · intro q
    by_cases hq : q = action.1
    · rw [hq]
      exact hmemory
    · rw [hother q hq]
      exact (h.memory q).mono htt
  · intro q
    by_cases hq : q = action.1
    · rw [hq]
      exact hstep.follows (h.follows action.1) htt hdistinct.stored
    · rw [hother q hq]
      exact hstep.follows_other (h.follows q) (h.memory q) h.file h.distinct.stored htt hclock
        hfresh (hkept q hq)

end Steps

section Runs

variable {env : DbEnv} {actions : List (Nat × DbStep)} {clock : Nat → Int}

section

variable (h : SteadyRun env actions clock) (hlocal : ∀ action ∈ actions, ¬action.2.FromPeer)

include h hlocal

theorem SteadyRun.orderly (k : Nat) : Orderly (clock k) (after env none actions k) := by
  induction k with
  | zero =>
    refine ⟨⟨fun _ => nodup_nil, fun f hf => by cases hf⟩, ?_, ?_, ?_, ?_⟩
    · intro p c hc
      cases hc
    · intro c hc
      cases hc
    · intro p
      exact ⟨fun _ hm => (not_mem_nil hm).elim, fun _ hm => (not_mem_nil hm).elim⟩
    · intro a ha
      cases ha
  | succ k ih =>
    have htt : clock k ≤ clock (k + 1) := h.monotone (Nat.le_succ k)
    cases ha : actions[k]? with
    | none =>
      unfold after
      rw [stateAt_of_none ha]
      exact ⟨ih.distinct, fun p => (ih.memory p).mono htt, ih.file.mono htt,
        fun p => (ih.follows p).mono htt, ih.names⟩
    | some action =>
      have hkept := h.kept k action ha
      rw [after_succ ha] at hkept ⊢
      exact ih.perform (hlocal action (mem_of_getElem? ha)) (h.fresh k action ha)
        (h.ties k action ha) htt (h.readings k action ha) hkept

/-- Every step of the run is one of a process that follows the file. -/
theorem SteadyRun.succession {k : Nat} {action : Nat × DbStep} (ha : actions[k]? = some action) :
    Succession env ((after env none actions k).procs action.1) (after env none actions k).file
      action.2 ((after env none actions (k + 1)).procs action.1,
        (after env none actions (k + 1)).file) := by
  rw [after_succ ha]
  exact (h.orderly hlocal k).succession (hlocal action (mem_of_getElem? ha))
    (h.ties k action ha) fun r hr => (h.readings k action ha r hr).1

/-- Every memory is a copy of the file as it was at some moment. -/
theorem SteadyRun.copies (k p : Nat) :
    ∃ j, j ≤ k ∧ CopyOf ((after env none actions k).procs p).clients
      (Server.stored (after env none actions j).file) := by
  induction k with
  | zero => exact ⟨0, le_refl 0, fun m hm => by cases hm⟩
  | succ k ih =>
    obtain ⟨j, hj, hcopy⟩ := ih
    cases ha : actions[k]? with
    | none =>
      refine ⟨j, by omega, ?_⟩
      have hsame : after env none actions (k + 1) = after env none actions k := by
        unfold after
        rw [stateAt_of_none ha]
      rw [hsame]
      exact hcopy
    | some action =>
      by_cases hp : p = action.1
      · subst hp
        have hstep := h.succession hlocal ha
        generalize hdata : (after env none actions (k + 1)).procs action.1 = data' at hstep ⊢
        generalize hfile : (after env none actions (k + 1)).file = file' at hstep
        cases hstep with
        | idle _ hs => exact ⟨j, by omega, (CopyOf.of_map_eraseStats hs).trans hcopy⟩
        | copied _ hcopy' => exact ⟨k, by omega, hcopy'⟩
        | saved change now faults seen _ hstep hids hv heff =>
          refine ⟨k + 1, le_refl _, fun m hm => ⟨m, ?_, rfl⟩⟩
          rw [hfile]
          exact hm
      · refine ⟨j, by omega, ?_⟩
        rw [after_succ ha]
        unfold perform
        rw [SharedFile.set_procs_of_ne _ hp]
        exact hcopy

end

/-- Without merges every elevated live client has a bound device, in every memory and in the
file. -/
theorem after_deviceBound
    (hlocal : ∀ action ∈ actions, ¬action.2.FromPeer) (k : Nat) :
    ∀ p c, Held ((after env none actions k).procs p) (after env none actions k).file c →
      DeviceBound c := by
  refine stateAt_keeps (P := fun w : DbWorld => ∀ p c, Held (w.procs p) w.file c → DeviceBound c)
    (Nat.zero_le k) ?_ ?_
  · rintro p c (hc | ⟨f, hf, -⟩)
    · cases hc
    · cases hf
  · intro j action _ _ ha ih
    unfold perform
    have hpeer := hlocal action (mem_of_getElem? ha)
    intro p c hc
    rw [SharedFile.set_file] at hc
    by_cases hp : p = action.1
    · rw [hp, SharedFile.set_procs_self] at hc
      exact perform_deviceBound env hpeer (ih action.1) hc
    rcases hc with hc | hc
    · rw [SharedFile.set_procs_of_ne _ hp] at hc
      exact ih p c (.inl hc)
    · exact perform_deviceBound env hpeer (ih action.1) (.inr hc)

end Runs

def drawAt (id : String) (time : Int) : ClientDraw where
  id := id
  psk := Vector.replicate 32 0
  createdAt := time
  updatedAt := time

def rename (name : String) : UpdateClientParams where
  name := some name
  enabled := none
  oneTime := none
  qos := none
  expiresAt := none
  role := none
  exitNode := none

def otherKey : Bytes32 := Vector.replicate 32 9

/-- Process 0 adds a one-time client at time 100. The clock goes back to 50, where process 1
renames it, resets its device and binds another one, and adds a client under the old name. Then
process 0 adds a third client. -/
def clockBack : List (Nat × DbStep) :=
  [(0, .mutate (.insert "x" (some deviceKey) true (drawAt "a" 100)) 100 Faults.none),
    (1, .mutate (.update "a" (rename "z") 50) 50 Faults.none),
    (1, .mutate (.resetDevice "a" 51) 51 Faults.none),
    (1, .mutate (.enroll "a" otherKey 52) 52 Faults.none),
    (1, .mutate (.insert "x" none false (drawAt "b" 53)) 53 Faults.none),
    (0, .mutate (.insert "w" none false (drawAt "c" 54)) 54 Faults.none)]

/-- Process 0 adds a client, process 1 removes it and drops the tombstone after its time to live
while it adds a client of the same name. Then process 0 adds a third client. -/
def staleProcess : List (Nat × DbStep) :=
  [(0, .mutate (.insert "x" (some deviceKey) true (drawAt "a" 0)) 0 Faults.none),
    (1, .mutate (.remove "a" 10) 10 Faults.none),
    (1, .mutate (.insert "x" none false (drawAt "b" (tombstoneTtl + 20))) (tombstoneTtl + 20)
      Faults.none),
    (0, .mutate (.insert "w" none false (drawAt "c" (tombstoneTtl + 30))) (tombstoneTtl + 30)
      Faults.none)]

def deviceKeys (clients : List ClientConfig) (id : String) : List (Option Bytes32) :=
  (clients.filter (isLive id)).map fun c => c.devicePubkey

/-- When the clock goes back, adding a client brings back the old name and the old device of a
one-time client; and a process that slept through the life of a tombstone brings back a name
without any clock going back. -/
theorem old_copies_come_back :
    liveNames (stored (after smallNode none clockBack 5).file) = ["z", "x"] ∧
    liveNames (stored (after smallNode none clockBack 6).file) = ["x", "x", "w"] ∧
    deviceKeys (stored (after smallNode none clockBack 5).file) "a" = [some otherKey] ∧
    deviceKeys (stored (after smallNode none clockBack 6).file) "a" = [some deviceKey] ∧
    liveNames (stored (after smallNode none staleProcess 3).file) = ["x"] ∧
    liveNames (stored (after smallNode none staleProcess 4).file) = ["x", "x", "w"] := by
  decide +kernel

/-- Over every run of any number of processes from the empty database, merges apart, every live
client with an elevated role has a bound device. In a steady run the names of the live clients
are distinct in the file and in every memory, every memory is a copy of the file at some moment,
and a step keeps the bound device of a live client that is one-time or elevated unless it resets
the device or removes the client. -/
theorem privileges_tied_to_device (env : DbEnv) (actions : List (Nat × DbStep))
    (hlocal : ∀ action ∈ actions, ¬action.2.FromPeer) :
    (∀ k, (∀ p, ∀ c ∈ ((after env none actions k).procs p).clients, DeviceBound c) ∧
      ∀ c ∈ stored (after env none actions k).file, DeviceBound c) ∧
    ∀ clock, SteadyRun env actions clock →
      (∀ k, (liveNames (stored (after env none actions k).file)).Nodup ∧
        ∀ p, (liveNames ((after env none actions k).procs p).clients).Nodup) ∧
      (∀ k p, ∃ j, j ≤ k ∧ CopyOf ((after env none actions k).procs p).clients
        (stored (after env none actions j).file)) ∧
      ∀ k action, actions[k]? = some action → ∀ c ∈ stored (after env none actions k).file,
        c.deleted = false → Strict c → ∀ key, c.devicePubkey = some key →
        (∃ c' ∈ stored (after env none actions (k + 1)).file, c'.id = c.id ∧
          c'.devicePubkey = some key ∧ c'.deleted = false) ∨
        action.2.Releases c.id := by
  constructor
  · intro k
    have hbound := @after_deviceBound env actions hlocal k
    refine ⟨fun p c hc => hbound p c (.inl hc), fun c hc => ?_⟩
    cases hf : (after env none actions k).file with
    | none =>
      rw [hf] at hc
      cases hc
    | some f =>
      rw [hf] at hc
      exact hbound 0 c (.inr ⟨f, hf, hc⟩)
  · intro clock hsteady
    refine ⟨?_, hsteady.copies hlocal, ?_⟩
    · intro k
      have horderly := hsteady.orderly hlocal k
      refine ⟨horderly.names.nodup horderly.distinct.stored, fun p => ?_⟩
      obtain ⟨j, -, hcopy⟩ := hsteady.copies hlocal k p
      exact (hcopy.namesUnique (hsteady.orderly hlocal j).names).nodup (horderly.distinct.memory p)
    · intro k action ha c hc hlive hstrict key hkey
      exact (hsteady.succession hlocal ha).devicePubkey (hsteady.orderly hlocal k).distinct.stored
        hc hlive hstrict hkey

/-- Process 0 adds a one-time client that is bound to a device, process 1 makes it a viewer, and
process 0 is asked to bind another device. -/
def elevated : List (Nat × DbStep) :=
  [(0, .mutate (.insert "x" (some deviceKey) true (drawAt "a" 10)) 10 Faults.none),
    (1, .mutate (.update "a" { rename "y" with role := some .viewer } 20) 20 Faults.none),
    (0, .mutate (.enroll "a" otherKey 30) 30 Faults.none)]

/-- The run is steady, so the names stay distinct and the viewer keeps its device. -/
theorem privileges_tied_to_device_elevated :
    (liveNames (stored (after smallNode none elevated 3).file)).Nodup ∧
    ∀ c ∈ stored (after smallNode none elevated 2).file, c.deleted = false → Strict c →
      ∀ key, c.devicePubkey = some key →
      ∃ c' ∈ stored (after smallNode none elevated 3).file, c'.id = c.id ∧
        c'.devicePubkey = some key ∧ c'.deleted = false := by
  have hlocal : ∀ action ∈ elevated, ¬action.2.FromPeer := by
    intro action h
    simp only [elevated, mem_cons, not_mem_nil, or_false] at h
    rcases h with rfl | rfl | rfl <;> exact not_false
  have hids : ∀ k, 1 ≤ k → k ≤ 3 →
      (stored (after smallNode none elevated k).file).map (fun c => c.id) = ["a"] := by
    intro k h1 h3
    interval_cases k <;> decide +kernel
  -- at the third step the copy of process 0 is from time 10, the record in the file from time 20
  have hmem : ((after smallNode none elevated 2).procs 0).clients.map (fun c => c.updatedAt) =
      [some 10] := by
    decide +kernel
  have hfile : (stored (after smallNode none elevated 2).file).map (fun c => c.updatedAt) =
      [some 20] := by
    decide +kernel
  have hsteady : SteadyRun smallNode elevated fun k => 10 * k := by
    refine ⟨?_, ?_, ?_, ?_, ?_⟩
    · intro k action hk change now faults hstep id hid
      rcases k with _ | _ | _ | k <;> cases hk
      · exact ⟨fun _ hm => (not_mem_nil hm).elim, fun f hf => by cases hf⟩
      all_goals cases hstep; cases hid
    · intro a b hab
      show 10 * (a : Int) ≤ 10 * b
      omega
    · intro k action hk r hr
      rcases k with _ | _ | _ | k <;> cases hk
      all_goals revert r; decide
    · intro k action hk m hm d hd hid htime hhash
      rcases k with _ | _ | _ | k <;> cases hk
      · cases hm
      · cases hm
      · have hmt : m.updatedAt ∈ [some (10 : Int)] := hmem ▸ mem_map_of_mem hm
        have hdt : d.updatedAt ∈ [some (20 : Int)] := hfile ▸ mem_map_of_mem hd
        rw [mem_singleton.mp hmt, mem_singleton.mp hdt] at htime
        cases htime
    · intro k action hk q hq m hm hlive hknown
      obtain ⟨d, hd, hid⟩ := hknown
      have hk3 : k < 3 := (List.getElem?_eq_some_iff.mp hk).1
      cases k with
      | zero => cases hd
      | succ k =>
        have hda : d.id ∈ ["a"] := hids (k + 1) (by omega) (by omega) ▸ mem_map_of_mem hd
        have ha : "a" ∈ (stored (after smallNode none elevated (k + 1 + 1)).file).map
            fun c => c.id := by
          rw [hids (k + 1 + 1) (by omega) (by omega)]
          exact mem_singleton_self "a"
        obtain ⟨e, he, heid⟩ := mem_map.mp ha
        exact ⟨e, he, heid.trans ((mem_singleton.mp hda).symm.trans hid)⟩
  obtain ⟨hnames, -, hkeys⟩ :=
    (privileges_tied_to_device smallNode elevated hlocal).2 _ hsteady
  refine ⟨(hnames 3).1, fun c hc hlive hstrict key hkey => ?_⟩
  exact (hkeys 2 _ rfl c hc hlive hstrict key hkey).resolve_right not_false

end DbWorld

end AivpnSpec.Server
