import AivpnSpec.Base.Checks
import AivpnSpec.Base.Pieces
import AivpnSpec.Server.BackupRoundTrip

/-!
# What a verified backup holds

An import that recognises the signature stages files of one export, under every name of it. It
stages all of them if no two were stored under one name; `to_string_lossy` can give one name to two
masks. The files an import touches are few, and before the locks are taken there are none.
-/

namespace AivpnSpec.Server

open AivpnSpec.Base AivpnSpec.Common AivpnSpec.Wire List

variable {J : Type}

/-! ### Exports under a key -/

/-- An export that was made with the key of the server, by some version of the program. -/
structure BackupExport where
  version : String
  opts : ExportOptions
  data : ServerData
  createdAt : String

namespace BackupExport

def files (e : BackupExport) : List BackupFile := exportFiles e.opts e.data

def manifest (env : BackupEnv J) (key : Bytes32) (e : BackupExport) : BackupManifest :=
  exportManifest { env with version := e.version } e.opts e.data e.createdAt (some key)

end BackupExport

/-- What is assumed of the cryptography, for one key, the exports made with it and one archive: no
content of the archive collides with an exported one, a manifest is determined by its bytes, and a
signature in the archive that holds is one of an export. -/
structure SecureBackups (env : BackupEnv J) (key : Bytes32) (exports : List BackupExport)
    (archive : List TarEntry) : Prop where
  collisionFree : ∀ entry ∈ archive, ∀ e ∈ exports, ∀ file ∈ e.files,
    env.hash entry.data = env.hash file.2 → entry.data = file.2
  injective : ∀ m m' : BackupManifest, env.manifestBytes m = env.manifestBytes m' →
    ∀ rel, m.contentHashes.lookup rel = m'.contentHashes.lookup rel
  unforgeable : ∀ entry ∈ archive, ∀ text m mac, fromUtf8 entry.data = some text →
    env.parseManifest text = some m → m.mac = some mac →
    env.keyedHash key (m.macInput env) = mac →
    ∃ e ∈ exports, (e.manifest env key).macInput env = m.macInput env

/-! ### The first pass -/

variable {env : BackupEnv J}

/-- What the first pass has read comes from the archive; names are allowed. -/
structure FromArchive (env : BackupEnv J) (archive : List TarEntry) (st : ImportState) : Prop where
  manifest : ∀ m, st.manifest = some m → ∃ entry ∈ archive, ∃ text,
    fromUtf8 entry.data = some text ∧ env.parseManifest text = some m
  staged : ∀ file ∈ st.staged, isAllowedImportPath file.1 = true ∧
    ∃ entry ∈ archive, entry.path = file.1 ∧ entry.data = file.2

variable {limits : ImportLimits} {st st' : ImportState} {entry : TarEntry} {index : Nat}

/-- An entry that is accepted is the manifest or a component. -/
theorem readEntry_eq_ok (h : readEntry env limits index st entry = .ok st') :
    ∃ size, readManifest env limits { st with decodedSize := size } entry.data = .ok st' ∨
      readComponent env { st with decodedSize := size } entry.path entry.data = .ok st' := by
  refine ⟨st.decodedSize + entry.data.length, ?_⟩
  simp only [readEntry, ite_error_eq_ok] at h
  obtain ⟨-, -, -, -, h⟩ := h
  split at h
  · exact .inl h
  · exact .inr h

variable {archive : List TarEntry}

theorem readManifest_fromArchive (hentry : entry ∈ archive) (hst : FromArchive env archive st)
    (h : readManifest env limits st entry.data = .ok st') : FromArchive env archive st' := by
  simp only [readManifest, ite_error_eq_ok] at h
  obtain ⟨-, -, h⟩ := h
  split at h
  · cases h
  · next text htext =>
    cases h
    exact ⟨fun m hm => ⟨entry, hentry, text, htext, hm⟩, hst.staged⟩

theorem readComponent_fromArchive (hentry : entry ∈ archive) (hst : FromArchive env archive st)
    (h : readComponent env st entry.path entry.data = .ok st') : FromArchive env archive st' := by
  unfold readComponent at h
  split at h
  · cases h
    exact hst
  next hallowed =>
  obtain ⟨-, h⟩ := ite_error_eq_ok.mp h
  split at h
  · cases h
  cases h
  refine ⟨hst.manifest, fun file hfile => ?_⟩
  rcases mem_append.mp hfile with hfile | hfile
  · exact hst.staged file hfile
  · rw [mem_singleton.mp hfile]
    exact ⟨by simpa using hallowed, entry, hentry, rfl, rfl⟩

theorem readEntries_fromArchive {archive entries : List TarEntry}
    (hsub : ∀ entry ∈ entries, entry ∈ archive) (hst : FromArchive env archive st)
    (h : readEntries env limits index st entries = .ok st') : FromArchive env archive st' := by
  induction entries generalizing index st with
  | nil =>
    cases h
    exact hst
  | cons entry rest ih =>
    unfold readEntries at h
    split at h
    · cases h
    next st'' hread =>
    have hentry := hsub entry mem_cons_self
    refine ih (fun other hother => hsub other (mem_cons_of_mem _ hother)) ?_ h
    obtain ⟨size, hread⟩ := readEntry_eq_ok hread
    have hsized : FromArchive env archive { st with decodedSize := size } :=
      ⟨hst.manifest, hst.staged⟩
    rcases hread with hmanifest | hcomponent
    · exact readManifest_fromArchive hentry hsized hmanifest
    · exact readComponent_fromArchive hentry hsized hcomponent

def ImportState.start : ImportState := ⟨none, [], 0, []⟩

theorem fromArchive_start (archive : List TarEntry) :
    FromArchive env archive ImportState.start := by
  constructor
  · intro m hm
    cases hm
  · intro file hfile
    cases hfile

/-- The files that an import stages, as they stand in the archive. -/
def stagedFiles (env : BackupEnv J) (limits : ImportLimits) (archive : List TarEntry) :
    List BackupFile :=
  match readEntries env limits 0 .start archive with
  | .ok st => st.staged
  | .error _ => []

/-! ### The checks -/

variable {staged : List BackupFile} {key : Option Bytes32} {m : BackupManifest}

theorem verifyMac_eq_true (h : verifyMac env m key = .ok true) :
    ∃ key', key = some key' ∧ m.mac = some (env.keyedHash key' (m.macInput env)) := by
  unfold verifyMac at h
  split at h
  · next mac key' hmac =>
    split at h
    · next heq => exact ⟨key', rfl, by rw [hmac, heq]⟩
    · cases h
  · cases h

variable {opts : ImportOptions}

theorem checkArchive_eq_ok {st : ImportState} {signed : Bool}
    (h : checkArchive env opts key st = .ok (m, signed, staged)) :
    st.manifest = some m ∧ checkStaged env m st.staged = .ok () ∧
    checkListed m st.staged = .ok () ∧ verifyMac env m key = .ok signed ∧
    bindStaged env opts st.staged = .ok staged := by
  unfold checkArchive at h
  cases hm : st.manifest with
  | none =>
    rw [hm] at h
    cases h
  | some m' =>
    simp only [hm] at h
    cases hstaged : checkStaged env m' st.staged with
    | error e =>
      rw [hstaged] at h
      cases h
    | ok u =>
      cases hlisted : checkListed m' st.staged with
      | error e =>
        rw [hstaged, hlisted] at h
        cases h
      | ok u' =>
        cases hmac : verifyMac env m' key with
        | error e =>
          rw [hstaged, hlisted, hmac] at h
          cases h
        | ok signed' =>
          cases hbind : bindStaged env opts st.staged with
          | error e =>
            rw [hstaged, hlisted, hmac, hbind] at h
            cases h
          | ok staged' =>
            rw [hstaged, hlisted, hmac, hbind] at h
            cases h
            exact ⟨rfl, hstaged, hlisted, hmac, rfl⟩

variable {io : ImportIo} {dryRun : Bool} {written : List (BackupDest × Bytes)}
  {summary : ImportSummary} {file : ImportFile} {rel : FileName}

/-- An import that answers has read the archive and passed the checks. -/
theorem importWithLimits_eq_ok
    (h : importWithLimits env opts io key dryRun limits archive = (.ok summary, written)) :
    ∃ st m bound, readEntries env limits 0 .start archive = .ok st ∧
      checkArchive env opts key st = .ok (m, summary.signed, bound) := by
  unfold importWithLimits at h
  split at h
  · cases h
  next st hread =>
  split at h
  · cases h
  next m signed bound hcheck =>
  refine ⟨st, m, bound, hread, ?_⟩
  have hsigned : summary.signed = signed := by
    split at h
    · cases h
      rfl
    split at h
    · cases h
    split at h
    · cases h
    · cases h
      rfl
  rw [hsigned, hcheck]

/-- What is staged of an archive whose signature is recognised: files of one export, under every
name of it. -/
theorem staged_of_signed {exports : List BackupExport}
    (hsecure : ∀ key', key = some key' → SecureBackups env key' exports archive)
    (h : importWithLimits env opts io key dryRun limits archive = (.ok summary, written))
    (hsigned : summary.signed = true) :
    ∃ e ∈ exports, (∀ file ∈ stagedFiles env limits archive, file ∈ e.files) ∧
      ∀ file ∈ e.files, ∃ other ∈ stagedFiles env limits archive, other.1 = file.1 := by
  obtain ⟨st, m, bound, hread, hcheck⟩ := importWithLimits_eq_ok h
  obtain ⟨hmanifest, hstaged, hlisted, hmac, -⟩ := checkArchive_eq_ok hcheck
  rw [hsigned] at hmac
  obtain ⟨key', rfl, htag⟩ := verifyMac_eq_true hmac
  have hsome : m.mac.isSome = true := by rw [htag, Option.isSome_some]
  have harchive := readEntries_fromArchive (fun _ hentry => hentry) (fromArchive_start archive) hread
  obtain ⟨entry, hentry, text, htext, hparse⟩ := harchive.manifest m hmanifest
  have hsec := hsecure key' rfl
  obtain ⟨e, he, hinput⟩ := hsec.unforgeable entry hentry text m _ htext hparse htag rfl
  -- the manifest has the hashes of the export
  have hhashes : ∀ rel, m.contentHashes.lookup rel = (contentHashes env e.files).lookup rel :=
    fun rel => (hsec.injective _ _ hinput rel).symm
  have hfiles : stagedFiles env limits archive = st.staged := by
    unfold stagedFiles
    rw [hread]
  rw [hfiles]
  refine ⟨e, he, ?_, ?_⟩
  · intro file hfile
    have hlookup := (checkStaged_signed hsome).mp hstaged file hfile
    rw [hhashes] at hlookup
    rcases lookup_contentHashes_cases e.files file.1 with
      ⟨exported, hexported, hname, hhash⟩ | ⟨-, hnone⟩
    · obtain ⟨-, source, hsource, -, hdata⟩ := harchive.staged file hfile
      rw [hlookup, Option.some.injEq, ← hdata] at hhash
      have hcontent := hsec.collisionFree source hsource e he exported hexported hhash
      rw [show file = exported from Prod.ext hname.symm (hdata.symm.trans hcontent)]
      exact hexported
    · rw [hlookup] at hnone
      cases hnone
  · intro file hfile
    apply (checkListed_signed hsome).mp hlisted
    rw [← AList.mem_keys, Table.mem_iff_lookup, hhashes, ← Table.mem_iff_lookup, AList.mem_keys]
    exact mem_keys_contentHashes.mpr ⟨file, hfile, rfl⟩

/-- Under distinct names that is all of the export. -/
theorem staged_iff_exported {staged exported : List BackupFile}
    (hdistinct : (exported.map Prod.fst).Nodup) (hsub : ∀ file ∈ staged, file ∈ exported)
    (hall : ∀ file ∈ exported, ∃ other ∈ staged, other.1 = file.1) (file : BackupFile) :
    file ∈ staged ↔ file ∈ exported := by
  constructor
  · exact hsub file
  · intro hfile
    obtain ⟨other, hother, hname⟩ := hall file hfile
    have heq : other = file :=
      inj_on_of_nodup_map hdistinct (hsub other hother) hfile hname
    rw [← heq]
    exact hother

/-! ### The files that are touched -/

/-- A name directly inside a directory, with the extension of JSON. -/
structure DirectJson (name : FileName) : Prop where
  nonempty : name ≠ []
  noSlash : '/' ∉ name
  notDot : name ≠ ['.']
  notDots : name ≠ "..".toList
  json : extension name = some "json".toList

/-- The destination is the configuration, the client database, or a file directly inside the mask
directory. -/
def BackupDest.Proper : BackupDest → Prop
  | .config => True
  | .clients => True
  | .mask name => DirectJson name

theorem mem_pathComponents {part : FileName} (h : part ∈ pathComponents rel) :
    '/' ∉ part ∧ part ≠ [] := by
  unfold pathComponents at h
  split at h
  · cases h
  next first rest hsplit =>
  have hpiece : part ∈ rel.splitOn '/' ∧ part ≠ [] := by
    rw [hsplit]
    rcases mem_append.mp h with h | h
    · split at h
      · cases h
      · next hne =>
        rw [mem_singleton.mp h]
        exact ⟨mem_cons_self, hne⟩
    · obtain ⟨hmem, hkeep⟩ := mem_filter.mp h
      exact ⟨mem_cons_of_mem _ hmem, by simp at hkeep; exact hkeep.1⟩
  exact ⟨not_mem_of_mem_splitOn hpiece.1, hpiece.2⟩

/-- Every allowed name has a proper destination. -/
theorem proper_of_allowed (h : isAllowedImportPath rel = true) : (backupDest rel).Proper := by
  unfold isAllowedImportPath at h
  split at h
  · cases h
  next hplain =>
  split at h
  · simp only [Bool.or_eq_true, decide_eq_true_eq] at h
    have hdest : backupDest rel = .clients ∨ backupDest rel = .config := by
      rcases h with rfl | rfl
      · left
        decide
      · right
        decide
    rcases hdest with hdest | hdest <;> rw [hdest] <;> exact trivial
  · next dir name hcomponents =>
    simp only [Bool.and_eq_true, decide_eq_true_eq] at h
    obtain ⟨⟨-, hrel⟩, hjson⟩ := h
    have hname : name ∈ pathComponents rel := by rw [hcomponents]; simp
    have hother : ∀ other : FileName, ¬masksDir <+: other → rel ≠ other := by
      intro other hnot heq
      exact hnot (heq ▸ hrel ▸ prefix_append masksDir name)
    have hdest : backupDest rel = .mask name := by
      unfold backupDest
      rw [if_neg (hother serverName (by decide)), if_neg (hother clientsName (by decide)), hrel,
        drop_left]
    rw [hdest]
    obtain ⟨hslash, hne⟩ := mem_pathComponents hname
    refine ⟨hne, hslash, ?_, ?_, hjson⟩
    · rintro rfl
      exact absurd hjson (by decide)
    · rintro rfl
      exact absurd hjson (by decide)
  · cases h

/-- The files that an import can touch: the two locks beside the client database, destinations, and
for each of these a temporary file beside it that is renamed to it or removed. -/
inductive ImportFile where
  | liveLock
  | mutationLock
  | temp (d : BackupDest)
  | dest (d : BackupDest)
  deriving DecidableEq

/-- The files that the second pass creates or replaces, `backup.rs:662-694`. -/
def writeTouches (io : ImportIo) : List BackupFile → List ImportFile
  | [] => []
  | (rel, _) :: rest =>
    match io.writeError (backupDest rel) with
    | some _ => [.temp (backupDest rel)]
    | none => .temp (backupDest rel) :: .dest (backupDest rel) :: writeTouches io rest

/-- The files that an import creates or replaces; `OfflineRestoreGuard::try_acquire`,
`client_db/mod.rs:799-806`, may have created a lock before it fails. -/
def importTouches (env : BackupEnv J) (opts : ImportOptions) (io : ImportIo)
    (key : Option Bytes32) (dryRun : Bool) (limits : ImportLimits) (archive : List TarEntry) :
    List ImportFile :=
  match readEntries env limits 0 .start archive with
  | .error _ => []
  | .ok st =>
    match checkArchive env opts key st with
    | .error _ => []
    | .ok (_, _, staged) =>
      if dryRun then []
      else
        match io.guardError with
        | some _ => [.liveLock, .mutationLock]
        | none => .liveLock :: .mutationLock :: writeTouches io staged

def ImportFile.restored : ImportFile → Option BackupDest
  | .dest d => some d
  | _ => none

theorem filterMap_writeTouches (io : ImportIo) (staged : List BackupFile) :
    (writeTouches io staged).filterMap ImportFile.restored =
      (writeStaged io staged).2.map Prod.fst := by
  induction staged with
  | nil => rfl
  | cons file rest ih =>
    obtain ⟨rel, bytes⟩ := file
    unfold writeTouches writeStaged
    cases io.writeError (backupDest rel) with
    | some error => rfl
    | none =>
      simp only [filterMap_cons, ImportFile.restored, map_cons, ih]

/-- Among the files that are touched, those that an import writes are its answer. -/
theorem filterMap_importTouches (env : BackupEnv J) (opts : ImportOptions) (io : ImportIo)
    (key : Option Bytes32) (dryRun : Bool) (limits : ImportLimits) (archive : List TarEntry) :
    (importTouches env opts io key dryRun limits archive).filterMap ImportFile.restored =
      (importWithLimits env opts io key dryRun limits archive).2.map Prod.fst := by
  unfold importTouches importWithLimits
  cases hread : readEntries env limits 0 .start archive with
  | error e =>
    rw [ImportState.start] at hread
    rw [hread]
    rfl
  | ok st =>
    rw [ImportState.start] at hread
    rw [hread]
    dsimp only
    cases checkArchive env opts key st with
    | error e => rfl
    | ok out =>
      obtain ⟨m, signed, staged⟩ := out
      cases dryRun with
      | true => rfl
      | false =>
        cases io.guardError with
        | some e => rfl
        | none =>
          simp only [Bool.false_eq_true, if_false, filterMap_cons, ImportFile.restored,
            filterMap_writeTouches]
          cases hwrite : writeStaged io staged with
          | mk answer written => cases answer <;> rfl

/-- Binding the configuration changes no name. -/
theorem names_bindStaged {files staged : List BackupFile}
    (h : bindStaged env opts files = .ok staged) : staged.map Prod.fst = files.map Prod.fst := by
  induction files generalizing staged with
  | nil =>
    cases h
    rfl
  | cons file rest ih =>
    obtain ⟨rel, bytes⟩ := file
    unfold bindStaged at h
    split at h
    · cases h
    split at h
    · cases h
    · next hrest =>
      cases h
      rw [map_cons, map_cons, ih hrest]

/-- The file is a lock, or a proper destination, or beside one. -/
def ImportFile.Proper : ImportFile → Prop
  | .liveLock => True
  | .mutationLock => True
  | .temp d => d.Proper
  | .dest d => d.Proper

theorem proper_of_mem_writeTouches (h : ∀ file ∈ staged, (backupDest file.1).Proper) :
    ∀ file ∈ writeTouches io staged, file.Proper := by
  induction staged with
  | nil =>
    intro file hfile
    cases hfile
  | cons first rest ih =>
    obtain ⟨rel, bytes⟩ := first
    have hfirst : (backupDest rel).Proper := h _ mem_cons_self
    intro file hfile
    unfold writeTouches at hfile
    split at hfile
    · rw [mem_singleton.mp hfile]
      exact hfirst
    rcases mem_cons.mp hfile with rfl | hfile
    · exact hfirst
    · rcases mem_cons.mp hfile with rfl | hfile
      · exact hfirst
      · exact ih (fun other hother => h other (mem_cons_of_mem _ hother)) file hfile

theorem proper_of_mem_importTouches
    (h : file ∈ importTouches env opts io key dryRun limits archive) : file.Proper := by
  unfold importTouches at h
  split at h
  · cases h
  next st hread =>
  split at h
  · cases h
  next m signed staged hcheck =>
  split at h
  · cases h
  split at h
  · simp only [mem_cons, not_mem_nil, or_false] at h
    rcases h with rfl | rfl <;> exact trivial
  rcases mem_cons.mp h with rfl | h
  · exact trivial
  rcases mem_cons.mp h with rfl | h
  · exact trivial
  obtain ⟨-, -, -, -, hbind⟩ := checkArchive_eq_ok hcheck
  have harchive := readEntries_fromArchive (fun _ hentry => hentry)
    (fromArchive_start archive) hread
  refine proper_of_mem_writeTouches ?_ file h
  intro other hother
  -- a bound file has the name of a staged one, and that is allowed
  have hname : other.1 ∈ st.staged.map Prod.fst :=
    names_bindStaged hbind ▸ mem_map_of_mem hother
  obtain ⟨source, hsource, heq⟩ := mem_map.mp hname
  rw [← heq]
  exact proper_of_allowed (harchive.staged source hsource).1

/-- The import ends before it takes the locks. -/
def EndsEarly (env : BackupEnv J) (opts : ImportOptions) (key : Option Bytes32) (dryRun : Bool)
    (limits : ImportLimits) (archive : List TarEntry) : Prop :=
  dryRun = true ∨
  (∃ e, readEntries env limits 0 .start archive = .error e) ∨
  ∃ st e, readEntries env limits 0 .start archive = .ok st ∧
    checkArchive env opts key st = .error e

theorem importTouches_of_endsEarly (h : EndsEarly env opts key dryRun limits archive) :
    importTouches env opts io key dryRun limits archive = [] := by
  unfold importTouches
  rcases h with rfl | ⟨e, hread⟩ | ⟨st, e, hread, hcheck⟩
  · split
    · rfl
    · split <;> rfl
  · rw [hread]
  · rw [hread]
    dsimp only
    rw [hcheck]

/-- An import that cannot take the locks touches nothing else. -/
theorem locks_of_guardError {e : Error} (hguard : io.guardError = some e)
    (h : file ∈ importTouches env opts io key dryRun limits archive) :
    file = .liveLock ∨ file = .mutationLock := by
  unfold importTouches at h
  split at h
  · cases h
  split at h
  · cases h
  split at h
  · cases h
  · rw [hguard] at h
    simpa using h

/-! ### Two masks under one name -/

/-- The entries of a directory under the names that `to_string_lossy` gives them. -/
def lossyDir (entries : List (Bytes × Bytes)) : List BackupFile :=
  entries.map fun entry => ((fromUtf8Lossy entry.1).toList, entry.2)

/-- Two masks whose names are no text and differ in their first byte. -/
def twoMasks : List (Bytes × Bytes) := [(0xff :: utf8 ".json", [1]), (0xfe :: utf8 ".json", [2])]

def lossyExport : BackupExport where
  version := ""
  opts := { includeClients := false, includeMasks := true, includeConfig := false }
  data := { clientsDb := none, config := none, maskDir := some (lossyDir twoMasks) }
  createdAt := ""

def lossyName : FileName := masksDir ++ Char.ofNat 0xfffd :: ".json".toList

def strippedArchive : List TarEntry :=
  [⟨.regular, lossyName, [2]⟩, ⟨.regular, manifestName, []⟩]

def byteText (bytes : Bytes) : String := String.ofList (bytes.map fun b => Char.ofNat b.toNat)

/-- How a manifest is written into an archive and read from one. -/
structure ManifestCodec where
  text : BackupManifest → String
  parse : String → Option BackupManifest

/-- Libraries with injective hashes and manifests. -/
def injectiveBackups (number : BackupManifest → Nat) (codec : ManifestCodec) : BackupEnv Unit where
  version := ""
  hash := byteText
  keyedHash := fun _ => byteText
  manifestText := codec.text
  manifestBytes := fun m => List.replicate (number m) 0
  parseManifest := codec.parse
  validateClients := fun _ => .ok ()
  parseServerConfig := fun _ => .ok ()
  parseMask := fun _ => .ok ()
  parseJson := fun _ => none
  jsonBytes := fun _ => []
  str := fun _ => ()

/-- The signed manifest of the export. The codec has no part in it. -/
def lossyManifest (number : BackupManifest → Nat) : BackupManifest :=
  lossyExport.manifest (injectiveBackups number ⟨fun _ => "", fun _ => none⟩) backupKey

/-- A codec that reads what it writes. The manifest of the export is the empty text, and the content
of the second mask is no manifest. -/
structure ManifestCodec.Suits (codec : ManifestCodec) (number : BackupManifest → Nat) : Prop where
  parse_text : ∀ m, codec.parse (codec.text m) = some m
  text_lossy : codec.text (lossyManifest number) = ""
  parse_mask : ∀ text, fromUtf8 [2] = some text → codec.parse text = none

theorem files_lossyExport : lossyExport.files = [(lossyName, [1]), (lossyName, [2])] := by
  decide +kernel

theorem byteText_injective : Function.Injective byteText := by
  have hchar : ∀ n < 256, (Char.ofNat n).toNat = n := by decide +kernel
  intro a b h
  refine map_injective_iff.mpr ?_ (String.ofList_injective h)
  intro x y hxy
  have hnat : (Char.ofNat x.toNat).toNat = (Char.ofNat y.toNat).toNat := congrArg Char.toNat hxy
  rw [hchar _ x.toNat_lt, hchar _ y.toNat_lt] at hnat
  exact UInt8.toNat_inj.mp hnat

/-- Manifests can be numbered. -/
theorem exists_numbering : ∃ number : BackupManifest → Nat, Function.Injective number := by
  have htable : Countable (Table FileName String) := by
    have hinj : Function.Injective fun t : Table FileName String => t.entries :=
      fun _ _ h => AList.ext h
    exact hinj.countable
  have hmanifest : Countable BackupManifest := by
    have hinj : Function.Injective fun m : BackupManifest =>
        (m.aivpnVersion, m.createdAt, m.components, m.contentHashes, m.mac) := by
      intro a b h
      cases a
      cases b
      simpa using h
    exact hinj.countable
  exact exists_injective_nat BackupManifest

theorem exists_codec {number : BackupManifest → Nat} (h : Function.Injective number) :
    ∃ codec : ManifestCodec, codec.Suits number := by
  let place (m : BackupManifest) : Nat := Equiv.swap (number (lossyManifest number)) 0 (number m)
  let text (m : BackupManifest) : String := String.ofList (replicate (place m) 'a')
  have htext : Function.Injective text := by
    intro m m' heq
    have hlength := congrArg length (String.ofList_injective heq)
    rw [length_replicate, length_replicate] at hlength
    exact h ((Equiv.swap _ _).injective hlength)
  refine ⟨⟨text, Function.partialInv text⟩, ⟨Function.partialInv_left htext, ?_, ?_⟩⟩
  · have hplace : place (lossyManifest number) = 0 := Equiv.swap_apply_left _ _
    simp only [text, hplace, replicate_zero]
  · intro s hs
    have hvalue : fromUtf8 [2] = some (String.ofList [Char.ofNat 2]) := by decide +kernel
    rw [hvalue] at hs
    cases hs
    apply dif_neg
    rintro ⟨m, hm⟩
    have hmem : Char.ofNat 2 ∈ replicate (place m) 'a' := by
      rw [String.ofList_injective hm]
      exact mem_singleton_self _
    exact absurd (eq_of_mem_replicate hmem) (by decide)

section Stripped

variable {number : BackupManifest → Nat} {codec : ManifestCodec}

theorem manifestBytes_injective (h : Function.Injective number) :
    Function.Injective (injectiveBackups number codec).manifestBytes := by
  intro m m' heq
  have hlength := congrArg length heq
  simp only [injectiveBackups, length_replicate] at hlength
  exact h hlength

theorem parse_empty (hcodec : codec.Suits number) :
    codec.parse "" = some (lossyManifest number) := by
  rw [← hcodec.text_lossy]
  exact hcodec.parse_text _

theorem secure_injectiveBackups (h : Function.Injective number) (hcodec : codec.Suits number) :
    SecureBackups (injectiveBackups number codec) backupKey [lossyExport] strippedArchive := by
  refine ⟨?_, ?_, ?_⟩
  · intro entry _ e _ file _ heq
    exact byteText_injective heq
  · intro m m' heq rel
    rw [manifestBytes_injective h heq]
  · intro entry hentry text m mac htext hparse _ _
    simp only [strippedArchive, mem_cons, not_mem_nil, or_false] at hentry
    rcases hentry with rfl | rfl
    · exact absurd (hparse.symm.trans (hcodec.parse_mask text htext)) (by simp)
    have hempty : fromUtf8 [] = some "" := by decide +kernel
    cases hempty.symm.trans htext
    cases (parse_empty hcodec).symm.trans hparse
    exact ⟨lossyExport, mem_singleton_self _, rfl⟩

/-- The signature of the export is recognised in the archive that lacks one of its files. -/
theorem import_strippedArchive (hcodec : codec.Suits number) :
    ∃ summary, importWithLimits (injectiveBackups number codec) ⟨none, none⟩ .works
        (some backupKey) true .default strippedArchive = (.ok summary, []) ∧
      summary.signed = true ∧
      stagedFiles (injectiveBackups number codec) .default strippedArchive =
        [(lossyName, [2])] := by
  let m := lossyManifest number
  let env := injectiveBackups number codec
  have hread : readEntries env .default 0 .start strippedArchive =
      .ok ⟨some m, [(lossyName, [2])], 1, [lossyName]⟩ := by
    rw [← parse_empty hcodec]
    rfl
  have hhashes : m.contentHashes = contentHashes env lossyExport.files := rfl
  have hstaged : checkStaged env m [(lossyName, [2])] = .ok () := by
    refine (checkStaged_signed rfl).mpr ?_
    intro file hfile
    rw [mem_singleton.mp hfile, hhashes, files_lossyExport]
    simp only [contentHashes, foldl_cons, foldl_nil, Table.lookup_insert_eq, if_true]
  have hlisted : checkListed m [(lossyName, [2])] = .ok () := by
    refine (checkListed_signed rfl).mpr ?_
    intro rel hrel
    rw [hhashes, files_lossyExport] at hrel
    obtain ⟨file, hfile, rfl⟩ := mem_keys_contentHashes.mp hrel
    refine ⟨(lossyName, [2]), mem_singleton_self _, ?_⟩
    simp only [mem_cons, not_mem_nil, or_false] at hfile
    rcases hfile with rfl | rfl <;> rfl
  have hmac : verifyMac env m (some backupKey) = .ok true :=
    verifyMac_exportManifest "" backupKey
  have hcheck : checkArchive env ⟨none, none⟩ (some backupKey)
      ⟨some m, [(lossyName, [2])], 1, [lossyName]⟩ = .ok (m, true, [(lossyName, [2])]) := by
    unfold checkArchive
    simp only [hstaged, hlisted, hmac]
    rfl
  refine ⟨⟨m.aivpnVersion, m.createdAt, m.components, true, true⟩, ?_, rfl, ?_⟩
  · unfold importWithLimits
    rw [show readEntries env .default 0 ⟨none, [], 0, []⟩ strippedArchive = _ from hread]
    dsimp only
    rw [hcheck]
    rfl
  · unfold stagedFiles
    rw [hread]

end Stripped

/-- Two masks of different names that are no text are exported under one name, and the manifest
keeps the hash of the second. An archive without the first passes as signed, although hashes and
manifests are injective, manifests are read as they were written and this export is the only
one. -/
theorem lossy_names_hide_a_mask :
    (twoMasks.map Prod.fst).Nodup ∧
    ∃ env : BackupEnv Unit, Function.Injective env.hash ∧
      (∀ key, Function.Injective (env.keyedHash key)) ∧ Function.Injective env.manifestBytes ∧
      (∀ m, env.parseManifest (env.manifestText m) = some m) ∧
      SecureBackups env backupKey [lossyExport] strippedArchive ∧
      (∃ summary, importWithLimits env ⟨none, none⟩ .works (some backupKey) true .default
        strippedArchive = (.ok summary, []) ∧ summary.signed = true) ∧
      ¬∃ e ∈ [lossyExport], ∀ file,
        file ∈ stagedFiles env .default strippedArchive ↔ file ∈ e.files := by
  refine ⟨by decide +kernel, ?_⟩
  obtain ⟨number, hnumber⟩ := exists_numbering
  obtain ⟨codec, hcodec⟩ := exists_codec hnumber
  obtain ⟨summary, himport, hsigned, hstaged⟩ := import_strippedArchive hcodec
  refine ⟨injectiveBackups number codec, byteText_injective, fun _ => byteText_injective,
    manifestBytes_injective hnumber, hcodec.parse_text, secure_injectiveBackups hnumber hcodec,
    ⟨summary, himport, hsigned⟩, ?_⟩
  rintro ⟨e, he, hall⟩
  rw [mem_singleton.mp he, hstaged, files_lossyExport] at hall
  have hfirst := (hall (lossyName, [1])).mpr mem_cons_self
  simp at hfirst

/-- Over every archive: an import that reports a recognised signature stages files of one export
made under the key, under every name of it, and exactly the files of the export if their names are
distinct. Every file that an import touches is a lock, a destination (the configuration, the client
database or a `.json` file directly inside the mask directory) or a temporary file beside a
destination; among the destinations exactly those in its answer. A dry run, and an import that fails
before it takes the locks, touches nothing; one that fails to take the locks touches only them. -/
theorem verified_backup_exported (env : BackupEnv J) (opts : ImportOptions) (io : ImportIo)
    (key : Option Bytes32) (dryRun : Bool) (limits : ImportLimits) (archive : List TarEntry)
    (exports : List BackupExport)
    (hsecure : ∀ key', key = some key' → SecureBackups env key' exports archive) :
    (∀ summary written,
      importWithLimits env opts io key dryRun limits archive = (.ok summary, written) →
      summary.signed = true →
      ∃ e ∈ exports, (∀ file ∈ stagedFiles env limits archive, file ∈ e.files) ∧
        (∀ file ∈ e.files, ∃ other ∈ stagedFiles env limits archive, other.1 = file.1) ∧
        ((e.files.map Prod.fst).Nodup →
          ∀ file, file ∈ stagedFiles env limits archive ↔ file ∈ e.files)) ∧
    (∀ file ∈ importTouches env opts io key dryRun limits archive, file.Proper) ∧
    (importTouches env opts io key dryRun limits archive).filterMap ImportFile.restored =
      (importWithLimits env opts io key dryRun limits archive).2.map Prod.fst ∧
    (EndsEarly env opts key dryRun limits archive →
      importTouches env opts io key dryRun limits archive = []) ∧
    ∀ e, io.guardError = some e → ∀ file ∈ importTouches env opts io key dryRun limits archive,
      file = .liveLock ∨ file = .mutationLock := by
  refine ⟨?_, fun file h => proper_of_mem_importTouches h,
    filterMap_importTouches env opts io key dryRun limits archive, importTouches_of_endsEarly,
    fun e hguard file h => locks_of_guardError hguard h⟩
  intro summary written himport hsigned
  obtain ⟨e, he, hsub, hall⟩ := staged_of_signed hsecure himport hsigned
  exact ⟨e, he, hsub, hall, fun hdistinct => staged_iff_exported hdistinct hsub hall⟩

/-- The archive of the two masks: of the first there is nothing left, and a dry run touches
nothing. -/
theorem verified_backup_exported_lossy :
    ∃ env : BackupEnv Unit,
      (∀ file ∈ stagedFiles env .default strippedArchive, file ∈ lossyExport.files) ∧
      importTouches env ⟨none, none⟩ .works (some backupKey) true .default strippedArchive = [] := by
  obtain ⟨number, hnumber⟩ := exists_numbering
  obtain ⟨codec, hcodec⟩ := exists_codec hnumber
  obtain ⟨summary, himport, hsigned, -⟩ := import_strippedArchive hcodec
  have hsecure : ∀ key', some backupKey = some key' →
      SecureBackups (injectiveBackups number codec) key' [lossyExport] strippedArchive := by
    intro key' hkey
    cases hkey
    exact secure_injectiveBackups hnumber hcodec
  obtain ⟨hstaged, -, -, hearly, -⟩ := verified_backup_exported (injectiveBackups number codec)
    ⟨none, none⟩ .works (some backupKey) true .default strippedArchive [lossyExport] hsecure
  obtain ⟨e, he, hsub, -⟩ := hstaged summary [] himport hsigned
  rw [mem_singleton.mp he] at hsub
  exact ⟨injectiveBackups number codec, hsub, hearly (.inl rfl)⟩

end AivpnSpec.Server
