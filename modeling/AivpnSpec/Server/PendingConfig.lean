import AivpnSpec.Base.Runs
import AivpnSpec.Base.Table
import AivpnSpec.Common.Protocol

/-!
# Settings that must be confirmed

`crates/aivpn-server/src/pending_config.rs:38-285`, `mgmt_service/heavy_settings.rs:208-328` and
`management_api.rs:49-82`. A heavy setting is written to its file at once; unless it is confirmed in
time, the sweep writes back what the file held before. Every operation holds one lock from its first
read to its last write, so that operations are atomic; files may fail under each of them.
-/

namespace AivpnSpec.Server

open AivpnSpec.Base AivpnSpec.Common List

/-- `PENDING_CONFIG_TIMEOUT`, `pending_config.rs:34`, in nanoseconds. -/
def pendingConfigTimeout : Nat := 120 * 1000000000

/-- `PendingConfig`, `pending_config.rs:39-51`. -/
structure PendingConfig where
  token : String
  targetPath : String
  prior : Option Bytes
  descriptor : String
  expiresAt : Nat
  confirmed : Bool
  deriving DecidableEq

namespace PendingConfig

/-- `begin`, `pending_config.rs:58-74`. -/
def start (token targetPath : String) (prior : Option Bytes) (descriptor : String)
    (now timeout : Nat) : PendingConfig :=
  { token, targetPath, prior, descriptor, expiresAt := now + timeout, confirmed := false }

/-- `is_expired`, `pending_config.rs:111-113`. -/
def isExpired (p : PendingConfig) (now : Nat) : Bool := !p.confirmed && decide (p.expiresAt ≤ now)

end PendingConfig

/-- `MgmtError`, `mgmt_service/mod.rs:92-106`. -/
inductive MgmtError where
  | notFound
  | conflict (message : String)
  | badRequest (message : String)
  | forbidden
  | unavailable (message : String)
  | internal (message : String)
  deriving DecidableEq

/-- What becomes of a write or a removal; an operation that reports an error may still have been
carried out. -/
inductive FileOutcome where
  | done
  | failed (error : String)
  | failedLate (error : String)
  deriving DecidableEq

def FileOutcome.replaces : FileOutcome → Bool
  | .done => true
  | .failed _ => false
  | .failedLate _ => true

/-- The files of the server and the changes that wait for confirmation. -/
structure ConfigStore where
  files : String → Option Bytes
  pending : Table String PendingConfig

namespace ConfigStore

def setFile (files : String → Option Bytes) (path : String) (content : Option Bytes) :
    String → Option Bytes :=
  fun p => if p = path then content else files p

variable (s : ConfigStore)

variable (path : String)

def replaceFile (content : Option Bytes) (outcome : FileOutcome) : ConfigStore :=
  if outcome.replaces then { s with files := setFile s.files path content } else s

def pendingFor : Option (Sigma fun _ : String => PendingConfig) :=
  s.pending.entries.find? fun e => e.2.targetPath = path

/-- `has_pending_for_path`, `pending_config.rs:246-256`. -/
def hasPendingForPath : Bool := (s.pendingFor path).isSome

/-- `begin_locked`, `pending_config.rs:160-187`: a change of the same file gives up its place, and
what it would have restored. -/
def beginLocked (pending : PendingConfig) : ConfigStore :=
  match s.pendingFor pending.targetPath with
  | none => { s with pending := s.pending.insert pending.token pending }
  | some ⟨token, superseded⟩ =>
    { s with
      pending := (s.pending.erase token).insert pending.token
        { pending with prior := superseded.prior } }

/-- `confirm_and_take`, `pending_config.rs:207-212`. -/
def confirmAndTake (token : String) (now : Nat) : Option PendingConfig × ConfigStore :=
  match s.pending.lookup token with
  | none => (none, s)
  | some pending =>
    if pending.isExpired now then (none, s)
    else (some pending, { s with pending := s.pending.erase token })

/-- `tick_locked`, `pending_config.rs:269-285`. -/
def tickLocked (now : Nat) : List PendingConfig × ConfigStore :=
  (s.pending.values.filter (·.isExpired now),
    { s with pending := s.pending.retain fun _ p => !p.isExpired now })

/-- One rollback; a failed one goes back to the queue. -/
def restore (outcome : String → FileOutcome) (s : ConfigStore) (pending : PendingConfig) :
    ConfigStore :=
  let restored := s.replaceFile pending.targetPath pending.prior (outcome pending.token)
  if outcome pending.token = .done then restored
  else { restored with pending := restored.pending.insert pending.token pending }

/-- `rollback_expired`, `pending_config.rs:215-239`. -/
def rollbackExpired (now : Nat) (outcome : String → FileOutcome) :
    List (PendingConfig × FileOutcome) × ConfigStore :=
  let (expired, swept) := s.tickLocked now
  (expired.map fun p => (p, outcome p.token), expired.foldl (restore outcome) swept)

/-- `ResolvedHeavyWrite`, `heavy_settings.rs:74-78`. -/
structure ResolvedHeavyWrite where
  targetPath : String
  newContent : Bytes
  descriptor : String

/-- What `apply_heavy` meets: the setting as it resolves against the files, the errors of reading
and of making the directory, the outcome of the write, and the token that is drawn. -/
structure HeavyApply where
  resolve : (String → Option Bytes) → Except MgmtError ResolvedHeavyWrite
  readError : Option String
  mkdirError : Option String
  write : FileOutcome
  token : String
  now : Nat

/-- `apply_heavy`, `heavy_settings.rs:208-293`. -/
def applyHeavy (call : HeavyApply) : Except MgmtError String × ConfigStore :=
  match call.resolve s.files with
  | .error e => (.error e, s)
  | .ok resolved =>
    match call.readError with
    | some error => (.error (.internal ("read prior config: " ++ error)), s)
    | none =>
      let prior := s.files resolved.targetPath
      match call.mkdirError with
      | some error => (.error (.internal ("mkdir failed: " ++ error)), s)
      | none =>
        let written := s.replaceFile resolved.targetPath (some resolved.newContent) call.write
        match call.write with
        | .failed error => (.error (.internal ("write failed: " ++ error)), written)
        | .failedLate error => (.error (.internal ("write failed: " ++ error)), written)
        | .done =>
          (.ok call.token, written.beginLocked (.start call.token resolved.targetPath prior
            resolved.descriptor call.now pendingConfigTimeout))

/-- `confirm_config`, `heavy_settings.rs:306-328`. -/
def confirmConfig (token : String) (now : Nat) : Except MgmtError PendingConfig × ConfigStore :=
  match s.confirmAndTake token now with
  | (some confirmed, s) => (.ok confirmed, s)
  | (none, s) => (.error .notFound, s)

/-- The errors of `write_direct_file`. -/
inductive DirectWriteError where
  | pendingWriteConflict
  | file (error : String)
  deriving DecidableEq

/-- `write_direct_file`, `management_api.rs:49-82`. -/
def writeDirectFile (content : Bytes) (mkdirError : Option String) (write : FileOutcome) :
    Except DirectWriteError Unit × ConfigStore :=
  if s.hasPendingForPath path then (.error .pendingWriteConflict, s)
  else
    match mkdirError with
    | some error => (.error (.file error), s)
    | none =>
      let written := s.replaceFile path (some content) write
      match write with
      | .done => (.ok (), written)
      | .failed error => (.error (.file error), written)
      | .failedLate error => (.error (.file error), written)

/-! ### Runs -/

/-- One operation, under the lock. -/
inductive Step where
  | applyHeavy (call : HeavyApply)
  | confirmConfig (token : String) (now : Nat)
  | rollbackExpired (now : Nat) (outcome : String → FileOutcome)
  | writeDirectFile (path : String) (content : Bytes) (mkdirError : Option String)
      (write : FileOutcome)

def perform : Step → ConfigStore
  | .applyHeavy call => (s.applyHeavy call).2
  | .confirmConfig token now => (s.confirmConfig token now).2
  | .rollbackExpired now outcome => (s.rollbackExpired now outcome).2
  | .writeDirectFile path content mkdirError write =>
    (s.writeDirectFile path content mkdirError write).2

def starting (files : String → Option Bytes) : ConfigStore := ⟨files, ∅⟩

/-- The store after the first `k` operations. -/
def after (files : String → Option Bytes) (steps : List Step) (k : Nat) : ConfigStore :=
  stateAt perform (starting files) steps k

def Step.token : Step → Option String
  | .applyHeavy call => some call.token
  | _ => none

def DistinctTokens (steps : List Step) : Prop := (steps.filterMap Step.token).Nodup

instance (steps : List Step) : Decidable (DistinctTokens steps) :=
  inferInstanceAs (Decidable (steps.filterMap Step.token).Nodup)

variable {t : String}

/-- One step for each token. -/
theorem DistinctTokens.index_eq {steps : List Step} (h : DistinctTokens steps) {i j : Nat}
    (hi : steps[i]?.bind Step.token = some t) (hj : steps[j]?.bind Step.token = some t) :
    i = j := by
  unfold DistinctTokens at h
  induction steps generalizing i j with
  | nil => cases hi
  | cons step rest ih =>
    have hlater : ∀ {n : Nat}, rest[n]?.bind Step.token = some t → t ∈ rest.filterMap Step.token := by
      intro n hn
      obtain ⟨other, hother, htoken⟩ := Option.bind_eq_some_iff.mp hn
      exact mem_filterMap.mpr ⟨other, mem_of_getElem? hother, htoken⟩
    have hfirst : step.token = some t → t ∉ rest.filterMap Step.token := by
      intro htoken
      rw [filterMap_cons_some htoken, nodup_cons] at h
      exact h.1
    have hrest : (rest.filterMap Step.token).Nodup := by
      cases htoken : step.token with
      | none =>
        rw [filterMap_cons_none htoken] at h
        exact h
      | some u =>
        rw [filterMap_cons_some htoken, nodup_cons] at h
        exact h.2
    match i, j with
    | 0, 0 => rfl
    | 0, j + 1 => exact absurd (hlater hj) (hfirst hi)
    | i + 1, 0 => exact absurd (hlater hi) (hfirst hj)
    | i + 1, j + 1 => exact congrArg (· + 1) (ih hrest hi hj)

/-- The point at which a path last had no pending change. -/
structure LastFree (files : String → Option Bytes) (steps : List Step) (path : String)
    (k j : Nat) : Prop where
  le : j ≤ k
  free : (after files steps j).hasPendingForPath path = false
  since : ∀ i, j < i → i ≤ k → (after files steps i).hasPendingForPath path = true

/-! ### One pending change for each path -/

variable {s}

/-- Changes are filed under their tokens, one for each path. -/
structure Sound (s : ConfigStore) : Prop where
  keyed : ∀ t p, s.pending.lookup t = some p → p.token = t
  unique : ∀ t t' p p', s.pending.lookup t = some p → s.pending.lookup t' = some p' →
    p.targetPath = p'.targetPath → t = t'

theorem pendingFor_eq_some {path : String} {e : Sigma fun _ : String => PendingConfig}
    (h : s.pendingFor path = some e) : s.pending.lookup e.1 = some e.2 ∧ e.2.targetPath = path := by
  have hmem := mem_of_find?_eq_some h
  have hpath := find?_some h
  exact ⟨Table.mem_entries_iff.mp hmem, by simpa using hpath⟩

variable {p : PendingConfig}

theorem pendingFor_eq_none {path : String} (h : s.pendingFor path = none)
    (hp : s.pending.lookup t = some p) : p.targetPath ≠ path := by
  have hnone := find?_eq_none.mp h ⟨t, p⟩ (Table.mem_entries_iff.mpr hp)
  simpa using hnone

theorem hasPendingForPath_of_lookup (h : s.pending.lookup t = some p) :
    s.hasPendingForPath p.targetPath = true := by
  unfold hasPendingForPath
  cases hfor : s.pendingFor p.targetPath with
  | none => exact absurd rfl (pendingFor_eq_none hfor h)
  | some e => rfl

/-- What a new change of a path restores: what the one before it would have, or the file. -/
def priorFor (s : ConfigStore) (path : String) (content : Option Bytes) : Option Bytes :=
  match s.pendingFor path with
  | none => content
  | some e => e.2.prior

/-- The new change stands for its path, and those of other paths stay. -/
theorem lookup_beginLocked (hs : s.Sound) {new : PendingConfig}
    (h : (s.beginLocked new).pending.lookup t = some p) :
    (t = new.token ∧ p = { new with prior := s.priorFor new.targetPath new.prior }) ∨
    (s.pending.lookup t = some p ∧ p.targetPath ≠ new.targetPath) := by
  unfold beginLocked priorFor at *
  cases hfor : s.pendingFor new.targetPath with
  | none =>
    rw [hfor] at h
    rcases Table.cases_insert h with ⟨heq, rfl⟩ | h
    · exact .inl ⟨heq, rfl⟩
    · exact .inr ⟨h, pendingFor_eq_none hfor h⟩
  | some e =>
    obtain ⟨token, superseded⟩ := e
    obtain ⟨hold, hpath⟩ := pendingFor_eq_some hfor
    rw [hfor] at h
    rcases Table.cases_insert h with ⟨heq, rfl⟩ | h
    · exact .inl ⟨heq, rfl⟩
    obtain ⟨hne, h⟩ := Table.of_lookup_erase h
    refine .inr ⟨h, ?_⟩
    intro hsame
    exact hne (hs.unique _ _ _ _ h hold (hsame.trans hpath.symm))

theorem Sound.beginLocked (hs : s.Sound) (new : PendingConfig) : (s.beginLocked new).Sound := by
  constructor
  · intro t p h
    rcases lookup_beginLocked hs h with ⟨rfl, rfl⟩ | ⟨hold, -⟩
    · rfl
    · exact hs.keyed t p hold
  · intro t t' p p' h h' hpath
    rcases lookup_beginLocked hs h with ⟨rfl, rfl⟩ | ⟨hold, hne⟩ <;>
      rcases lookup_beginLocked hs h' with ⟨rfl, rfl⟩ | ⟨hold', hne'⟩
    · rfl
    · exact absurd hpath.symm hne'
    · exact absurd hpath hne
    · exact hs.unique t t' p p' hold hold' hpath

/-! ### Rollbacks -/

variable {outcome : String → FileOutcome}

theorem pending_replaceFile (content : Option Bytes) (result : FileOutcome) :
    (s.replaceFile path content result).pending = s.pending := by
  unfold replaceFile
  split <;> rfl

variable {expired : List PendingConfig} {step : Step} {now : Nat}

/-- What is pending after some rollbacks was so before them, or is one that failed. -/
theorem lookup_foldl_restore (h : (expired.foldl (restore outcome) s).pending.lookup t = some p) :
    s.pending.lookup t = some p ∨ (p ∈ expired ∧ p.token = t) := by
  induction expired generalizing s with
  | nil => exact .inl h
  | cons q rest ih =>
    rcases ih h with hstep | ⟨hmem, htoken⟩
    · unfold restore at hstep
      dsimp only at hstep
      split at hstep
      · rw [pending_replaceFile] at hstep
        exact .inl hstep
      rw [pending_replaceFile] at hstep
      rcases Table.cases_insert hstep with ⟨rfl, rfl⟩ | hstep
      · exact .inr ⟨mem_cons_self, rfl⟩
      · exact .inl hstep
    · exact .inr ⟨mem_cons_of_mem _ hmem, htoken⟩

theorem files_restore_other {path : String} (h : p.targetPath ≠ path) :
    (restore outcome s p).files path = s.files path := by
  unfold restore replaceFile
  split
  all_goals split
  all_goals simp [setFile, h.symm]

theorem files_foldl_restore_other {path : String} (h : ∀ p ∈ expired, p.targetPath ≠ path) :
    (expired.foldl (restore outcome) s).files path = s.files path := by
  induction expired generalizing s with
  | nil => rfl
  | cons q rest ih =>
    rw [foldl_cons, ih fun p hp => h p (mem_cons_of_mem _ hp)]
    exact files_restore_other (h q mem_cons_self)

/-- A rollback that succeeds puts back what its change replaced. -/
theorem files_foldl_restore (hpaths : expired.Pairwise (·.targetPath ≠ ·.targetPath))
    (hp : p ∈ expired) (hdone : outcome p.token = .done) :
    (expired.foldl (restore outcome) s).files p.targetPath = p.prior := by
  induction expired generalizing s with
  | nil => cases hp
  | cons q rest ih =>
    obtain ⟨hfirst, hrest⟩ := pairwise_cons.mp hpaths
    rw [foldl_cons]
    rcases mem_cons.mp hp with rfl | hp
    · rw [files_foldl_restore_other fun r hr => (hfirst r hr).symm]
      simp [restore, replaceFile, hdone, FileOutcome.replaces, setFile]
    · exact ih hrest hp

theorem mem_tickLocked (h : p ∈ (s.tickLocked now).1) : ∃ t, s.pending.lookup t = some p := by
  have hmem := mem_of_mem_filter h
  obtain ⟨⟨t, q⟩, hentry, rfl⟩ := mem_map.mp hmem
  exact ⟨t, Table.mem_entries_iff.mp hentry⟩

/-- What a sweep leaves pending was so before it. -/
theorem lookup_rollbackExpired (hs : s.Sound)
    (h : (s.rollbackExpired now outcome).2.pending.lookup t = some p) :
    s.pending.lookup t = some p := by
  rcases lookup_foldl_restore h with hkept | ⟨hmem, htoken⟩
  · exact (Table.lookup_of_lookup_retain hkept).1
  obtain ⟨t', ht'⟩ := mem_tickLocked hmem
  have hkey := hs.keyed t' p ht'
  rw [← htoken, hkey]
  exact ht'

/-- The changes of a sweep have different paths. -/
theorem Sound.pairwise_paths (hs : s.Sound) (now : Nat) :
    (s.tickLocked now).1.Pairwise (·.targetPath ≠ ·.targetPath) := by
  apply Pairwise.filter
  unfold Table.values
  rw [pairwise_map]
  have hkeys := nodupKeys_iff_pairwise.mp s.pending.nodupKeys
  apply hkeys.imp_of_mem
  intro e e' he he' hne hpath
  exact hne (hs.unique _ _ _ _ (Table.mem_entries_iff.mp he) (Table.mem_entries_iff.mp he') hpath)

/-! ### One operation -/

/-- The pending change that `apply_heavy` asks for. -/
def HeavyApply.pending (call : HeavyApply) (resolved : ResolvedHeavyWrite)
    (prior : Option Bytes) : PendingConfig :=
  .start call.token resolved.targetPath prior resolved.descriptor call.now pendingConfigTimeout

def written (s : ConfigStore) (resolved : ResolvedHeavyWrite) : ConfigStore :=
  { s with files := setFile s.files resolved.targetPath (some resolved.newContent) }

/-- An apply that fails leaves what is pending; one that succeeds has written its file and begun a
change of it. -/
theorem applyHeavy_cases (s : ConfigStore) (call : HeavyApply) :
    (∃ error, (s.applyHeavy call).1 = .error error ∧ (s.applyHeavy call).2.pending = s.pending) ∨
    (∃ resolved, call.resolve s.files = .ok resolved ∧
      s.applyHeavy call = (.ok call.token, (s.written resolved).beginLocked
        (call.pending resolved (s.files resolved.targetPath)))) := by
  unfold applyHeavy
  split
  · exact .inl ⟨_, rfl, rfl⟩
  next resolved hresolved =>
  split
  · exact .inl ⟨_, rfl, rfl⟩
  split
  · exact .inl ⟨_, rfl, rfl⟩
  split
  · next error _ => exact .inl ⟨_, rfl, pending_replaceFile _ _ _⟩
  · next error _ => exact .inl ⟨_, rfl, pending_replaceFile _ _ _⟩
  · next hwrite =>
    refine .inr ⟨resolved, hresolved, ?_⟩
    rw [hwrite]
    rfl

theorem Sound.written (hs : s.Sound) (resolved : ResolvedHeavyWrite) : (s.written resolved).Sound :=
  ⟨hs.keyed, hs.unique⟩

/-- A confirmation takes its change out, or leaves everything. -/
theorem confirmConfig_cases (s : ConfigStore) (token : String) (now : Nat) :
    s.confirmConfig token now = (.error .notFound, s) ∨
    (∃ p, s.pending.lookup token = some p ∧
      s.confirmConfig token now = (.ok p, { s with pending := s.pending.erase token })) := by
  unfold confirmConfig confirmAndTake
  cases hp : s.pending.lookup token with
  | none => exact .inl rfl
  | some p =>
    dsimp only
    by_cases hexpired : p.isExpired now
    · rw [if_pos hexpired]
      exact .inl rfl
    · rw [if_neg hexpired]
      exact .inr ⟨p, rfl, rfl⟩

/-- Without its change a path is free. -/
theorem Sound.free_of_erase (hs : s.Sound) (h : s.pending.lookup t = some p) :
    hasPendingForPath { s with pending := s.pending.erase t } p.targetPath = false := by
  unfold hasPendingForPath
  cases hfor : pendingFor { s with pending := s.pending.erase t } p.targetPath with
  | none => rfl
  | some e =>
    obtain ⟨hlookup, hpath⟩ := pendingFor_eq_some hfor
    obtain ⟨hne, hlookup⟩ := Table.of_lookup_erase hlookup
    exact absurd (hs.unique _ _ _ _ hlookup h hpath) hne

theorem pending_writeDirectFile (s : ConfigStore) (path : String) (content : Bytes)
    (mkdirError : Option String) (write : FileOutcome) :
    (s.writeDirectFile path content mkdirError write).2.pending = s.pending := by
  unfold writeDirectFile
  split
  · rfl
  split
  · rfl
  · split
    all_goals exact pending_replaceFile _ _ _

/-- A change that is pending after an operation was so before it, or has just been applied: it then
restores what the change before it would have, or else the content of its file. -/
theorem lookup_perform (hs : s.Sound) (h : (s.perform step).pending.lookup t = some p) :
    s.pending.lookup t = some p ∨
    (step.token = some t ∧ p.prior = s.priorFor p.targetPath (s.files p.targetPath)) := by
  cases step with
  | applyHeavy call =>
    rcases s.applyHeavy_cases call with ⟨error, -, hpending⟩ | ⟨resolved, -, heq⟩
    · rw [perform, hpending] at h
      exact .inl h
    rw [perform, heq] at h
    rcases lookup_beginLocked (hs.written resolved) h with ⟨rfl, rfl⟩ | ⟨hold, -⟩
    · exact .inr ⟨rfl, rfl⟩
    · exact .inl hold
  | confirmConfig token now =>
    rcases s.confirmConfig_cases token now with heq | ⟨q, -, heq⟩
    · rw [perform, heq] at h
      exact .inl h
    rw [perform, heq] at h
    exact .inl (Table.of_lookup_erase h).2
  | rollbackExpired now outcome => exact .inl (lookup_rollbackExpired hs h)
  | writeDirectFile path content mkdirError write =>
    rw [perform, pending_writeDirectFile] at h
    exact .inl h

theorem Sound.of_lookup {s' : ConfigStore} (hs : s.Sound)
    (h : ∀ t p, s'.pending.lookup t = some p → s.pending.lookup t = some p) : s'.Sound where
  keyed := fun t p hp => hs.keyed t p (h t p hp)
  unique := fun t t' p p' hp hp' => hs.unique t t' p p' (h t p hp) (h t' p' hp')

/-- Every operation keeps one change for each path. -/
theorem Sound.perform (hs : s.Sound) (step : Step) : (s.perform step).Sound := by
  cases step with
  | applyHeavy call =>
    rcases s.applyHeavy_cases call with ⟨error, -, hpending⟩ | ⟨resolved, -, heq⟩
    · apply hs.of_lookup
      intro t p h
      rw [ConfigStore.perform, hpending] at h
      exact h
    · rw [ConfigStore.perform, heq]
      exact (hs.written resolved).beginLocked _
  | confirmConfig token now =>
    apply hs.of_lookup
    intro t p h
    rcases lookup_perform hs h with hold | ⟨hnone, -⟩
    · exact hold
    · cases hnone
  | rollbackExpired now outcome => exact hs.of_lookup fun t p h => lookup_rollbackExpired hs h
  | writeDirectFile path content mkdirError write =>
    apply hs.of_lookup
    intro t p h
    rw [ConfigStore.perform, pending_writeDirectFile] at h
    exact h

/-! ### Whole runs -/

section Run

variable {files : String → Option Bytes} {steps : List Step} {k : Nat} {t : String}
  {p : PendingConfig}

theorem sound_after (files : String → Option Bytes) (steps : List Step) (k : Nat) :
    (after files steps k).Sound := by
  have hstart : (starting files).Sound := by
    constructor
    · intro t p h
      cases h
    · intro t t' p p' h
      cases h
  exact stateAt_invariant (I := Sound) hstart (fun _ step h => h.perform step) k

theorem after_succ (h : steps[k]? = some step) :
    after files steps (k + 1) = (after files steps k).perform step := stateAt_succ h

theorem after_of_none (h : steps[k]? = none) :
    after files steps (k + 1) = after files steps k := stateAt_of_none h

/-- A pending change restores what its path held when it last had none. -/
theorem prior_eq_lastFree (h : (after files steps k).pending.lookup t = some p) :
    ∃ j, LastFree files steps p.targetPath k j ∧
      p.prior = (after files steps j).files p.targetPath := by
  induction k generalizing t p with
  | zero => cases h
  | succ k ih =>
    have hnow := hasPendingForPath_of_lookup h
    -- a point that was the last free one stays so, since the path is still taken
    have hlater : ∀ {j}, LastFree files steps p.targetPath k j →
        LastFree files steps p.targetPath (k + 1) j := by
      intro j hj
      refine ⟨hj.le.trans (Nat.le_succ k), hj.free, ?_⟩
      intro i hji hik
      rcases Nat.lt_or_eq_of_le hik with hlt | rfl
      · exact hj.since i hji (by omega)
      · exact hnow
    cases hstep : steps[k]? with
    | none =>
      rw [after_of_none hstep] at h
      obtain ⟨j, hj, hprior⟩ := ih h
      exact ⟨j, hlater hj, hprior⟩
    | some step =>
      rw [after_succ hstep] at h
      rcases lookup_perform (sound_after files steps k) h with hold | ⟨-, hprior⟩
      · obtain ⟨j, hj, hprior⟩ := ih hold
        exact ⟨j, hlater hj, hprior⟩
      unfold priorFor at hprior
      cases hfor : (after files steps k).pendingFor p.targetPath with
      | none =>
        rw [hfor] at hprior
        refine ⟨k, ⟨Nat.le_succ k, ?_, ?_⟩, hprior⟩
        · rw [hasPendingForPath, hfor]
          rfl
        · intro i hki hik
          rw [show i = k + 1 by omega]
          exact hnow
      | some e =>
        obtain ⟨hold, hpath⟩ := pendingFor_eq_some hfor
        rw [hfor] at hprior
        obtain ⟨j, hj, hsaved⟩ := ih hold
        rw [hpath] at hj hsaved
        exact ⟨j, hlater hj, hprior.trans hsaved⟩

/-- What is pending was drawn by an earlier step. -/
theorem drawn_of_lookup (h : (after files steps k).pending.lookup t = some p) :
    ∃ i < k, steps[i]?.bind Step.token = some t := by
  induction k with
  | zero => cases h
  | succ k ih =>
    have hbefore : (after files steps k).pending.lookup t = some p →
        ∃ i < k + 1, steps[i]?.bind Step.token = some t := by
      intro hold
      obtain ⟨i, hi, hdrawn⟩ := ih hold
      exact ⟨i, by omega, hdrawn⟩
    cases hstep : steps[k]? with
    | none =>
      rw [after_of_none hstep] at h
      exact hbefore h
    | some step =>
      rw [after_succ hstep] at h
      rcases lookup_perform (sound_after files steps k) h with hold | ⟨htoken, -⟩
      · exact hbefore hold
      · exact ⟨k, Nat.lt_succ_self k, by rw [hstep]; exact htoken⟩

/-- A token that was drawn and is not pending any more does not come back. -/
theorem lookup_eq_none_after (hdistinct : DistinctTokens steps) {i m : Nat}
    (hdrawn : steps[i]?.bind Step.token = some t) (him : i < m) (hmk : m ≤ k)
    (hgone : (after files steps m).pending.lookup t = none) :
    (after files steps k).pending.lookup t = none := by
  have hkeep : ∀ n step, m ≤ n → n < k → steps[n]? = some step →
      (after files steps n).pending.lookup t = none →
      ((after files steps n).perform step).pending.lookup t = none := by
    intro n step hmn _ hstep hnone
    cases hlookup : ((after files steps n).perform step).pending.lookup t with
    | none => rfl
    | some p =>
      rcases lookup_perform (sound_after files steps n) hlookup with hold | ⟨htoken, -⟩
      · rw [hnone] at hold
        cases hold
      have hagain : steps[n]?.bind Step.token = some t := by
        rw [hstep]
        exact htoken
      have := hdistinct.index_eq hdrawn hagain
      omega
  exact stateAt_keeps (P := fun s : ConfigStore => s.pending.lookup t = none) hmk hgone hkeep

end Run

/-- Over every run with distinct tokens: a path has at most one pending change; a rollback that
succeeds leaves the path as it was when it last had no pending change; a confirmed change leaves its
path without one and is never rolled back; and a token whose change was superseded never
confirms. -/
theorem commit_confirmed (files : String → Option Bytes) (steps : List Step)
    (hdistinct : DistinctTokens steps) :
    (∀ k t t' p p', (after files steps k).pending.lookup t = some p →
      (after files steps k).pending.lookup t' = some p' → p.targetPath = p'.targetPath → t = t') ∧
    (∀ k now outcome p, steps[k]? = some (.rollbackExpired now outcome) →
      (p, .done) ∈ ((after files steps k).rollbackExpired now outcome).1 →
      ∃ j, LastFree files steps p.targetPath k j ∧
        (after files steps (k + 1)).files p.targetPath = (after files steps j).files p.targetPath) ∧
    (∀ j token now p, steps[j]? = some (.confirmConfig token now) →
      ((after files steps j).confirmConfig token now).1 = .ok p →
      (after files steps (j + 1)).hasPendingForPath p.targetPath = false ∧
      ∀ k now outcome, j < k → ∀ rolledBack ∈ ((after files steps k).rollbackExpired now outcome).1,
        rolledBack.1.token ≠ token) ∧
    (∀ j call resolved t p, steps[j]? = some (.applyHeavy call) →
      ((after files steps j).applyHeavy call).1 = .ok call.token →
      call.resolve (after files steps j).files = .ok resolved →
      (after files steps j).pending.lookup t = some p → p.targetPath = resolved.targetPath →
      ∀ k now, j < k → ((after files steps k).confirmConfig t now).1 = .error .notFound) := by
  refine ⟨fun k => (sound_after files steps k).unique, ?_, ?_, ?_⟩
  · intro k now outcome p hstep hp
    obtain ⟨q, hexpired, heq⟩ := mem_map.mp hp
    rw [Prod.mk.injEq] at heq
    obtain ⟨rfl, hdone⟩ := heq
    obtain ⟨t, hlookup⟩ := mem_tickLocked hexpired
    obtain ⟨j, hj, hprior⟩ := prior_eq_lastFree hlookup
    refine ⟨j, hj, ?_⟩
    rw [after_succ hstep, ← hprior]
    exact files_foldl_restore ((sound_after files steps k).pairwise_paths now) hexpired hdone
  · intro j token now p hstep hconfirmed
    rcases (after files steps j).confirmConfig_cases token now with heq | ⟨q, hpending, heq⟩
    · rw [heq] at hconfirmed
      cases hconfirmed
    rw [heq] at hconfirmed
    cases hconfirmed
    have hnext : after files steps (j + 1) = { after files steps j with
        pending := (after files steps j).pending.erase token } := by
      rw [after_succ hstep, perform, heq]
    constructor
    · rw [hnext]
      exact (sound_after files steps j).free_of_erase hpending
    · intro k now' outcome hjk rolledBack hmem htoken
      obtain ⟨q, hexpired, rfl⟩ := mem_map.mp hmem
      obtain ⟨t, hlookup⟩ := mem_tickLocked hexpired
      have hkey := (sound_after files steps k).keyed t q hlookup
      obtain ⟨i, hij, hdrawn⟩ := drawn_of_lookup hpending
      have hgone : (after files steps (j + 1)).pending.lookup token = none := by
        rw [hnext]
        exact AList.lookup_erase _ _
      have hnever := lookup_eq_none_after hdistinct hdrawn (Nat.lt_succ_of_lt hij) hjk hgone
      rw [← htoken, hkey, hlookup] at hnever
      cases hnever
  · intro j call resolved t p hstep hok hresolved hlookup hpath k now hjk
    obtain ⟨i, hij, hdrawn⟩ := drawn_of_lookup hlookup
    have hcall : steps[j]?.bind Step.token = some call.token := by
      rw [hstep]
      rfl
    have hother : t ≠ call.token := by
      intro heq
      rw [heq] at hdrawn
      have := hdistinct.index_eq hdrawn hcall
      omega
    have hgone : (after files steps (j + 1)).pending.lookup t = none := by
      rw [after_succ hstep, perform]
      rcases (after files steps j).applyHeavy_cases call with ⟨error, herror, -⟩ |
        ⟨resolved', hresolved', heq⟩
      · rw [herror] at hok
        cases hok
      rw [hresolved] at hresolved'
      cases hresolved'
      rw [heq]
      apply Option.eq_none_iff_forall_ne_some.mpr
      intro p' hafter
      rcases lookup_beginLocked ((sound_after files steps j).written resolved) hafter with
        ⟨heq', -⟩ | ⟨hkept, hne⟩
      · exact hother heq'
      · have hsame : p' = p := Option.some.inj (hkept.symm.trans hlookup)
        rw [hsame] at hne
        exact hne hpath
    have hnever := lookup_eq_none_after hdistinct hdrawn (Nat.lt_succ_of_lt hij) hjk hgone
    rcases (after files steps k).confirmConfig_cases t now with heq | ⟨q, hpending, -⟩
    · rw [heq]
    · rw [hnever] at hpending
      cases hpending

def sampleApply (content : Bytes) (token : String) (now : Nat) (write : FileOutcome) : HeavyApply where
  resolve := fun _ => .ok ⟨"server.json", content, "global exit node"⟩
  readError := none
  mkdirError := none
  write := write
  token := token
  now := now

/-- Two changes one upon the other, a sweep that fails and one that succeeds, and a third change
that is confirmed. -/
def sampleSteps : List Step :=
  [.applyHeavy (sampleApply [2] "a" 0 .done), .applyHeavy (sampleApply [3] "b" 1 .done),
    .rollbackExpired pendingConfigTimeout (fun _ => .failed "busy"),
    .rollbackExpired (2 * pendingConfigTimeout) (fun _ => .failed "busy"),
    .rollbackExpired (3 * pendingConfigTimeout) (fun _ => .done),
    .applyHeavy (sampleApply [4] "c" (3 * pendingConfigTimeout) .done),
    .confirmConfig "c" (3 * pendingConfigTimeout)]

def sampleFiles : String → Option Bytes := fun path => if path = "server.json" then some [1] else none

theorem commit_confirmed_sampleSteps :
    (after sampleFiles sampleSteps 2).files "server.json" = some [3] ∧
    (∃ j, LastFree sampleFiles sampleSteps "server.json" 4 j ∧
      (after sampleFiles sampleSteps 5).files "server.json" =
        (after sampleFiles sampleSteps j).files "server.json") ∧
    ((after sampleFiles sampleSteps 3).confirmConfig "a" 2).1 = .error .notFound := by
  have hrun := commit_confirmed sampleFiles sampleSteps (by decide)
  refine ⟨by decide +kernel, ?_, ?_⟩
  · have hrolled : (⟨"b", "server.json", some [1], "global exit node", 1 + pendingConfigTimeout,
        false⟩, FileOutcome.done) ∈ ((after sampleFiles sampleSteps 4).rollbackExpired
          (3 * pendingConfigTimeout) (fun _ => .done)).1 := by
      decide +kernel
    exact hrun.2.1 4 _ _ _ rfl hrolled
  · have hpending : (after sampleFiles sampleSteps 1).pending.lookup "a" =
        some ⟨"a", "server.json", some [1], "global exit node", pendingConfigTimeout, false⟩ := by
      decide +kernel
    exact hrun.2.2.2 1 (sampleApply [3] "b" 1 .done) _ "a" _ rfl (by decide +kernel) rfl hpending
      rfl 3 2 (by decide)

end ConfigStore

end AivpnSpec.Server
