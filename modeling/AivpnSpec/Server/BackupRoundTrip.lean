import AivpnSpec.Server.Backup
import Mathlib.Data.Bool.AllAny

/-!
# What an import makes of an export

On the server that made it an archive is restored exactly if no name in it is longer than a tar
header holds, which leaves 89 characters for the id of a mask, and the configuration is a JSON
object. The export stores longer names too, and the import refuses the entry that tar adds for them.
-/

namespace AivpnSpec.Server

open AivpnSpec.Base AivpnSpec.Common AivpnSpec.Wire List

variable {J : Type} {env : BackupEnv J} {file : BackupFile} {limits : ImportLimits}
  {st : ImportState} {index : Nat}

/-! ### Names -/

def maskPath (id : List Char) : FileName := masksDir ++ maskFileName id

section MaskPath

variable {id : List Char}

theorem safeMaskId_iff : safeMaskId id = true ↔
    id ≠ [] ∧ (TarEntry.encodeName id).length ≤ 128 ∧ id ≠ ".".toList ∧ id ≠ "..".toList ∧
      ∀ c ∈ id, c.isAlphanum = true ∨ c = '_' ∨ c = '-' := by
  simp [safeMaskId, and_assoc, or_assoc]

section

variable (h : safeMaskId id = true)

include h

/-- The characters of an id are ASCII and none of those that paths are made of. -/
theorem mem_safeMaskId {c : Char} (hc : c ∈ id) : c.val ≤ 127 ∧ c ≠ '/' ∧ c ≠ '\\' := by
  have hchar := (safeMaskId_iff.mp h).2.2.2.2 c hc
  rcases hchar with halpha | rfl | rfl
  · refine ⟨?_, ?_, ?_⟩
    · simp only [Char.isAlphanum, Char.isAlpha, Char.isUpper, Char.isLower, Char.isDigit,
        Bool.or_eq_true, Bool.and_eq_true, decide_eq_true_eq] at halpha
      simp only [UInt32.le_iff_toNat_le] at halpha ⊢
      have hbound : (127 : UInt32).toNat = 127 := rfl
      rcases halpha with (⟨-, hle⟩ | ⟨-, hle⟩) | ⟨-, hle⟩
      all_goals
        refine hle.trans ?_
        decide
    · rintro rfl
      exact absurd halpha (by decide)
    · rintro rfl
      exact absurd halpha (by decide)
  · decide
  · decide

theorem length_maskPath : (TarEntry.encodeName (maskPath id)).length = id.length + 11 := by
  have hdir : ∀ c ∈ masksDir, c.val ≤ 127 := all_iff_forall_prop.mp (by decide)
  have hjson : ∀ c ∈ ".json".toList, c.val ≤ 127 := all_iff_forall_prop.mp (by decide)
  rw [TarEntry.length_encodeName]
  · have hlengths : masksDir.length = 6 ∧ ".json".toList.length = 5 := by decide
    simp only [maskPath, maskFileName, length_append, hlengths]
    omega
  · intro c hc
    simp only [maskPath, maskFileName, mem_append] at hc
    rcases hc with hc | hc | hc
    · exact hdir c hc
    · exact (mem_safeMaskId h hc).1
    · exact hjson c hc

/-- The parts of the path of a mask are the directory and the file. -/
theorem pathComponents_maskPath :
    pathComponents (maskPath id) = ["masks".toList, maskFileName id] := by
  have hsplit : (maskPath id).splitOn '/' = ["masks".toList, maskFileName id] := by
    have hpath : maskPath id = "masks".toList ++ '/' :: maskFileName id := rfl
    have hdir : ∀ c ∈ "masks".toList, (c == '/') = false :=
      all_iff_forall_prop.mp (by decide)
    rw [hpath, splitOn_eq_splitOnP,
      splitOnP_append_cons_of_forall_mem hdir '/' (by decide),
      splitOnP_eq_singleton]
    intro c hc
    rw [beq_eq_false_iff_ne]
    simp only [maskFileName, mem_append] at hc
    rcases hc with hc | hc
    · exact (mem_safeMaskId h hc).2.1
    · have hjson : ∀ c ∈ ".json".toList, c ≠ '/' := all_iff_forall_prop.mp (by decide)
      exact hjson c hc
  have hlong : 5 < (maskFileName id).length := by
    have hid : 0 < id.length := length_pos_iff.mpr (safeMaskId_iff.mp h).1
    have hjson : ".json".toList.length = 5 := by decide
    rw [maskFileName, length_append, hjson]
    omega
  have hempty : maskFileName id ≠ [] := by
    intro heq
    simp [heq] at hlong
  have hdot : maskFileName id ≠ ['.'] := by
    intro heq
    simp [heq] at hlong
  unfold pathComponents
  rw [hsplit]
  simp [hempty, hdot]

theorem extension_maskFileName : extension (maskFileName id) = some "json".toList := by
  have hreverse : (maskFileName id).reverse = "nosj".toList ++ '.' :: id.reverse := by
    rw [maskFileName, reverse_append]
    rfl
  have hdots : maskFileName id ≠ "..".toList := by
    intro heq
    have hlength := congrArg length heq
    have htwo : "..".toList.length = 2 ∧ ".json".toList.length = 5 := by decide
    rw [maskFileName, length_append, htwo.1, htwo.2] at hlength
    omega
  unfold extension
  rw [if_neg hdots, hreverse]
  have hdrop : ("nosj".toList ++ '.' :: id.reverse).dropWhile (fun c => decide (c ≠ '.')) =
      '.' :: id.reverse := rfl
  have htake : ("nosj".toList ++ '.' :: id.reverse).takeWhile (fun c => decide (c ≠ '.')) =
      "nosj".toList := rfl
  cases hid : id.reverse with
  | nil => exact absurd (reverse_eq_nil_iff.mp hid) (safeMaskId_iff.mp h).1
  | cons c rest => rfl

/-- Every mask of the store may be imported. -/
theorem isAllowedImportPath_maskPath : isAllowedImportPath (maskPath id) = true := by
  have hbackslash : '\\' ∉ maskPath id := by
    intro hc
    simp only [maskPath, maskFileName, mem_append] at hc
    rcases hc with hc | hc | hc
    · exact absurd hc (by decide)
    · exact (mem_safeMaskId h hc).2.2 rfl
    · exact absurd hc (by decide)
  have hhead : (maskPath id).head? ≠ some '/' := by
    intro heq
    cases heq
  have hparent : "..".toList ∉ pathComponents (maskPath id) := by
    rw [pathComponents_maskPath h]
    intro hmem
    have hext := extension_maskFileName h
    rcases mem_cons.mp hmem with heq | hmem
    · exact absurd heq (by decide)
    · rw [mem_singleton] at hmem
      rw [← hmem] at hext
      exact absurd hext (by decide)
  unfold isAllowedImportPath
  simp only [hbackslash, hhead, hparent, decide_false, Bool.or_self, Bool.false_eq_true, if_false]
  rw [pathComponents_maskPath h]
  simp [extension_maskFileName h, maskPath]

end

end MaskPath

/-! ### The first pass -/

def fileEntry (file : BackupFile) : TarEntry := ⟨.regular, file.1, file.2⟩

def totalSize (files : List BackupFile) : Nat := (files.map fun file => file.2.length).sum

/-- Files that an import takes. -/
structure Importable (env : BackupEnv J) (files : List BackupFile) : Prop where
  allowed : ∀ file ∈ files, isAllowedImportPath file.1 = true
  component : ∀ file ∈ files, file.1 ≠ manifestName
  valid : ∀ file ∈ files, validateComponent env file.1 file.2 = .ok ()
  distinct : (files.map Prod.fst).Nodup

theorem Importable.tail {rest : List BackupFile} (h : Importable env (file :: rest)) :
    Importable env rest where
  allowed := fun other hother => h.allowed other (mem_cons_of_mem _ hother)
  component := fun other hother => h.component other (mem_cons_of_mem _ hother)
  valid := fun other hother => h.valid other (mem_cons_of_mem _ hother)
  distinct := (nodup_cons.mp h.distinct).2

/-- The limits leave room for some files and the manifest behind them. -/
structure WithinLimits (limits : ImportLimits) (files : List BackupFile) (manifest : BackupFile) :
    Prop where
  entries : files.length + 1 ≤ limits.entries
  entry : ∀ file ∈ files ++ [manifest], file.2.length ≤ limits.entry
  total : totalSize files + manifest.2.length ≤ limits.total
  manifest : manifest.2.length ≤ limits.manifest

/-- One file of the first pass. -/
theorem readEntry_file (hword : limits.total < 2 ^ 64)
    (hallowed : isAllowedImportPath file.1 = true) (hcomponent : file.1 ≠ manifestName)
    (hvalid : validateComponent env file.1 file.2 = .ok ()) (hnew : file.1 ∉ st.seen)
    (hindex : index < limits.entries) (hsize : file.2.length ≤ limits.entry)
    (htotal : st.decodedSize + file.2.length ≤ limits.total) :
    readEntry env limits index st (fileEntry file) =
      .ok { st with
        staged := st.staged ++ [file]
        decodedSize := st.decodedSize + file.2.length
        seen := file.1 :: st.seen } := by
  unfold readEntry fileEntry
  dsimp only
  rw [if_neg (by omega), if_neg (by omega), if_neg (by omega), if_neg (by simp),
    if_neg hcomponent]
  simp [readComponent, hallowed, hnew, hvalid]

variable {files : List BackupFile}

/-- The files of an archive are staged in their order. -/
theorem readEntries_files (hword : limits.total < 2 ^ 64) (himport : Importable env files)
    (rest : List TarEntry) (hnew : ∀ file ∈ files, file.1 ∉ st.seen)
    (hindex : index + files.length ≤ limits.entries)
    (hsize : ∀ file ∈ files, file.2.length ≤ limits.entry)
    (htotal : st.decodedSize + totalSize files ≤ limits.total) :
    readEntries env limits index st (files.map fileEntry ++ rest) =
      readEntries env limits (index + files.length)
        { st with
          staged := st.staged ++ files
          decodedSize := st.decodedSize + totalSize files
          seen := (files.map Prod.fst).reverse ++ st.seen } rest := by
  induction files generalizing index st with
  | nil => simp [totalSize]
  | cons file others ih =>
    have hsum : totalSize (file :: others) = file.2.length + totalSize others := rfl
    have hlength : (file :: others).length = others.length + 1 := rfl
    have hvalid : validateComponent env file.1 file.2 = .ok () :=
      himport.valid file mem_cons_self
    have hfirst := readEntry_file hword (himport.allowed file mem_cons_self)
      (himport.component file mem_cons_self) hvalid (hnew file mem_cons_self)
      (show index < limits.entries by omega) (hsize file mem_cons_self)
      (show st.decodedSize + file.2.length ≤ limits.total by omega)
    rw [map_cons, cons_append, readEntries, hfirst]
    dsimp only
    rw [ih himport.tail]
    · congr 1
      · omega
      · simp [hsum, Nat.add_assoc]
    · intro other hother hseen
      rcases mem_cons.mp hseen with heq | hseen
      · have hdistinct := (nodup_cons.mp himport.distinct).1
        exact hdistinct (heq ▸ mem_map_of_mem hother)
      · exact hnew other (mem_cons_of_mem _ hother) hseen
    · omega
    · exact fun other hother => hsize other (mem_cons_of_mem _ hother)
    · dsimp only
      omega

variable {manifest : BackupManifest} {id : List Char} {staged : List BackupFile}

/-- The manifest behind the files ends the first pass. -/
theorem readEntries_manifest (hword : limits.total < 2 ^ 64) (hnone : st.manifest = none)
    (hindex : index < limits.entries)
    (hsize : (manifestFile env manifest).2.length ≤ limits.entry)
    (htotal : st.decodedSize + (manifestFile env manifest).2.length ≤ limits.total)
    (hmanifest : (manifestFile env manifest).2.length ≤ limits.manifest)
    (hparse : env.parseManifest (env.manifestText manifest) = some manifest) :
    ∃ decodedSize, readEntries env limits index st [fileEntry (manifestFile env manifest)] =
      .ok { st with manifest := some manifest, decodedSize } := by
  refine ⟨st.decodedSize + (manifestFile env manifest).2.length, ?_⟩
  have hentry : readEntry env limits index st (fileEntry (manifestFile env manifest)) =
      .ok { st with
        manifest := some manifest
        decodedSize := st.decodedSize + (manifestFile env manifest).2.length } := by
    have hread : fromUtf8 (manifestFile env manifest).2 = some (env.manifestText manifest) :=
      fromUtf8_utf8 _
    unfold readEntry fileEntry
    dsimp only
    rw [if_neg (by omega), if_neg (by omega), if_neg (by omega), if_neg (by simp),
      if_pos (show (manifestFile env manifest).1 = manifestName from rfl), readManifest,
      if_neg (by omega)]
    simp [hnone, hread, hparse]
  rw [readEntries, hentry]
  rfl

/-- An entry that is not a file ends the first pass with an error, if nothing did before. -/
theorem readEntries_not_regular (env : BackupEnv J) (limits : ImportLimits)
    {archive : List TarEntry} {entry : TarEntry} (hmem : entry ∈ archive)
    (hkind : entry.kind ≠ .regular) (index : Nat) (st : ImportState) :
    ∃ error, readEntries env limits index st archive = .error error := by
  induction archive generalizing index st with
  | nil => cases hmem
  | cons first rest ih =>
    unfold readEntries
    rcases mem_cons.mp hmem with rfl | hrest
    · have hrefused : ∃ error, readEntry env limits index st entry = .error error := by
        unfold readEntry
        simp only [if_pos hkind]
        split
        · exact ⟨_, rfl⟩
        split
        · exact ⟨_, rfl⟩
        · split <;> exact ⟨_, rfl⟩
      obtain ⟨error, hrefused⟩ := hrefused
      rw [hrefused]
      exact ⟨error, rfl⟩
    · split
      · exact ⟨_, rfl⟩
      · exact ih hrest _ _

/-! ### The manifest -/

/-- Under a name the manifest has the hash of a file with this name, if there is one. -/
theorem lookup_contentHashes_cases (files : List BackupFile) (rel : FileName) :
    (∃ file ∈ files, file.1 = rel ∧
      (contentHashes env files).lookup rel = some (env.hash file.2)) ∨
    ((∀ file ∈ files, file.1 ≠ rel) ∧ (contentHashes env files).lookup rel = none) := by
  have hfold : contentHashes env files =
      Table.ofList (files.map fun file => (file.1, env.hash file.2)) := by
    unfold contentHashes Table.ofList
    rw [foldl_map]
  rw [hfold]
  rcases Table.lookup_ofList (files.map fun file => (file.1, env.hash file.2)) rel with
    ⟨hash, hmem, hlookup⟩ | ⟨hnone, hlookup⟩
  · obtain ⟨file, hfile, heq⟩ := mem_map.mp hmem
    cases heq
    exact .inl ⟨file, hfile, rfl, hlookup⟩
  · refine .inr ⟨?_, hlookup⟩
    rintro file hfile rfl
    exact hnone _ (mem_map.mpr ⟨file, hfile, rfl⟩)

/-- The manifest has the hash of every file. -/
theorem lookup_contentHashes (hdistinct : (files.map Prod.fst).Nodup) (hmem : file ∈ files) :
    (contentHashes env files).lookup file.1 = some (env.hash file.2) := by
  rcases lookup_contentHashes_cases files file.1 with ⟨other, hother, hname, hlookup⟩ | ⟨hnone, -⟩
  · rw [inj_on_of_nodup_map hdistinct hother hmem hname] at hlookup
    exact hlookup
  · exact absurd rfl (hnone file hmem)

/-- Its keys are the names of the files. -/
theorem mem_keys_contentHashes {rel : FileName} :
    rel ∈ (contentHashes env files).keys ↔ ∃ file ∈ files, file.1 = rel := by
  rw [← AList.mem_keys, Table.mem_iff_lookup]
  rcases lookup_contentHashes_cases files rel with
    ⟨file, hfile, hname, hlookup⟩ | ⟨hnone, hlookup⟩
  · exact iff_of_true ⟨_, hlookup⟩ ⟨file, hfile, hname⟩
  rw [hlookup]
  refine iff_of_false (fun ⟨_, h⟩ => Option.some_ne_none _ h.symm) ?_
  rintro ⟨file, hfile, hname⟩
  exact hnone file hfile hname

theorem checkStaged_signed (hmac : manifest.mac.isSome = true) :
    checkStaged env manifest staged = .ok () ↔
      ∀ file ∈ staged, manifest.contentHashes.lookup file.1 = some (env.hash file.2) := by
  induction staged with
  | nil => simp [checkStaged]
  | cons file rest ih =>
    obtain ⟨rel, bytes⟩ := file
    rw [checkStaged, forall_mem_cons]
    cases manifest.contentHashes.lookup rel with
    | none => simp [hmac]
    | some expected => by_cases heq : expected = env.hash bytes <;> simp [heq, ih]

theorem checkListed_signed (hmac : manifest.mac.isSome = true) :
    checkListed manifest staged = .ok () ↔
      ∀ rel ∈ manifest.contentHashes.keys, ∃ file ∈ staged, file.1 = rel := by
  obtain ⟨mac, hmac⟩ := Option.isSome_iff_exists.mp hmac
  unfold checkListed
  rw [hmac]
  cases hfind : manifest.contentHashes.keys.find? fun rel => !(staged.any (·.1 = rel)) with
  | none => simpa using hfind
  | some rel =>
    have hmem := mem_of_find?_eq_some hfind
    have habsent := find?_some hfind
    simp only [reduceCtorEq, false_iff]
    intro hall
    obtain ⟨file, hfile, hname⟩ := hall rel hmem
    simp only [Bool.not_eq_true', any_eq_false, decide_eq_true_eq] at habsent
    exact habsent file hfile hname

/-! ### The configuration -/

/-- A file as it is restored: as it was exported, but for two fields of the configuration. -/
def Restored (env : BackupEnv J) (opts : ImportOptions) (file : BackupFile)
    (written : BackupDest × Bytes) : Prop :=
  written.1 = backupDest file.1 ∧
  if file.1 = serverName then
    ∃ fields clientsDb maskDir, opts = ⟨some clientsDb, some maskDir⟩ ∧
      env.parseJson file.2 = some (.object fields) ∧
      env.parseJson written.2 = some (.object (boundFields env fields clientsDb maskDir))
  else written.2 = file.2

/-- The configuration is an object, and the paths to be written into it are text. -/
def Bindable (env : BackupEnv J) (opts : ImportOptions) (files : List BackupFile) : Prop :=
  ∀ bytes, (serverName, bytes) ∈ files →
    opts.clientsDb.isSome = true ∧ opts.maskDir.isSome = true ∧
    ∃ fields, env.parseJson bytes = some (.object fields)

theorem bindConfig_cases (env : BackupEnv J) (opts : ImportOptions) (bytes : Bytes) :
    (∃ error, bindConfig env opts bytes = .error error ∧
      ¬(opts.clientsDb.isSome = true ∧ opts.maskDir.isSome = true ∧
        ∃ fields, env.parseJson bytes = some (.object fields))) ∨
    (∃ fields clientsDb maskDir, opts = ⟨some clientsDb, some maskDir⟩ ∧
      env.parseJson bytes = some (.object fields) ∧
      bindConfig env opts bytes =
        .ok (env.jsonBytes (.object (boundFields env fields clientsDb maskDir)))) := by
  obtain ⟨clientsDb, maskDir⟩ := opts
  unfold bindConfig
  split
  · next fields hparse =>
    cases clientsDb with
    | none => exact .inl ⟨_, rfl, by simp⟩
    | some clientsDb =>
      cases maskDir with
      | none => exact .inl ⟨_, rfl, by simp⟩
      | some maskDir => exact .inr ⟨fields, clientsDb, maskDir, rfl, hparse, rfl⟩
  · next hother =>
    refine .inl ⟨_, rfl, ?_⟩
    rintro ⟨-, -, fields, hparse⟩
    exact hother fields hparse

/-- The files are bound exactly if the configuration can be, and then restored. -/
theorem bindStaged_cases (opts : ImportOptions) (files : List BackupFile)
    (hjson : ∀ bytes fields clientsDb maskDir, (serverName, bytes) ∈ files →
      env.parseJson bytes = some (.object fields) →
      env.parseJson (env.jsonBytes (.object (boundFields env fields clientsDb maskDir))) =
        some (.object (boundFields env fields clientsDb maskDir))) :
    (∃ error, bindStaged env opts files = .error error ∧ ¬Bindable env opts files) ∨
    (∃ staged, bindStaged env opts files = .ok staged ∧ Bindable env opts files ∧
      List.Forall₂ (Restored env opts) files
        (staged.map fun file => (backupDest file.1, file.2))) := by
  induction files with
  | nil =>
    have hnone : Bindable env opts [] := by
      intro bytes hmem
      simp at hmem
    exact .inr ⟨[], rfl, hnone, Forall₂.nil⟩
  | cons file rest ih =>
    obtain ⟨rel, bytes⟩ := file
    have hrest := ih fun b fields c m hmem => hjson b fields c m (mem_cons_of_mem _ hmem)
    have hdown : Bindable env opts ((rel, bytes) :: rest) → Bindable env opts rest :=
      fun h b hmem => h b (mem_cons_of_mem _ hmem)
    unfold bindStaged
    by_cases hserver : rel = serverName
    · subst hserver
      rw [if_pos rfl]
      rcases bindConfig_cases env opts bytes with ⟨error, herror, hnot⟩ |
        ⟨fields, clientsDb, maskDir, hopts, hparse, hbound⟩
      · rw [herror]
        exact .inl ⟨error, rfl, fun h => hnot (h bytes mem_cons_self)⟩
      rw [hbound]
      rcases hrest with ⟨error, herror, hnot⟩ | ⟨staged, hstaged, hbindable, hall⟩
      · exact .inl ⟨error, by rw [herror], fun h => hnot (hdown h)⟩
      refine .inr ⟨_, by rw [hstaged], ?_, .cons ⟨rfl, ?_⟩ hall⟩
      · intro b hmem
        rcases mem_cons.mp hmem with heq | hmem
        · cases heq
          exact ⟨by rw [hopts]; rfl, by rw [hopts]; rfl, fields, hparse⟩
        · exact hbindable b hmem
      · exact ⟨fields, clientsDb, maskDir, hopts, hparse,
          hjson bytes fields clientsDb maskDir mem_cons_self hparse⟩
    · rw [if_neg hserver]
      rcases hrest with ⟨error, herror, hnot⟩ | ⟨staged, hstaged, hbindable, hall⟩
      · exact .inl ⟨error, by rw [herror], fun h => hnot (hdown h)⟩
      refine .inr ⟨_, by rw [hstaged], ?_, .cons ⟨rfl, ?_⟩ hall⟩
      · intro b hmem
        rcases mem_cons.mp hmem with heq | hmem
        · cases heq
          exact absurd rfl hserver
        · exact hbindable b hmem
      · rw [if_neg hserver]

/-! ### The round trip -/

/-- Data that the server keeps: every mask of the directory is one that the store accepts, and every
file passes its check. -/
structure Exportable (env : BackupEnv J) (opts : ExportOptions) (data : ServerData) : Prop where
  masks : ∀ file ∈ data.maskDir.getD [], extension file.1 = some "json".toList →
    ∃ id, safeMaskId id = true ∧ file.1 = maskFileName id
  distinct : ((data.maskDir.getD []).map Prod.fst).Nodup
  valid : ∀ file ∈ exportFiles opts data, validateComponent env file.1 file.2 = .ok ()

section Export

variable {opts : ExportOptions} {data : ServerData}

theorem Exportable.maskPath_of_mem (h : Exportable env opts data)
    (hmem : file ∈ exportMasks opts data) : ∃ id, safeMaskId id = true ∧ file.1 = maskPath id := by
  unfold exportMasks at hmem
  split at hmem
  · obtain ⟨mask, hmask, rfl⟩ := mem_map.mp hmem
    obtain ⟨hdir, hext⟩ := mem_filter.mp hmask
    obtain ⟨id, hsafe, hname⟩ := h.masks mask hdir (of_decide_eq_true hext)
    exact ⟨id, hsafe, by rw [hname]; rfl⟩
  · cases hmem

/-- The names in an archive. -/
theorem Exportable.name_of_mem (h : Exportable env opts data)
    (hmem : file ∈ exportFiles opts data) :
    file.1 = clientsName ∨ file.1 = serverName ∨
      ∃ id, safeMaskId id = true ∧ file.1 = maskPath id := by
  rcases mem_append.mp hmem with hmem | hmem
  · rcases mem_append.mp hmem with hmem | hmem
    · split at hmem
      · obtain ⟨bytes, -, rfl⟩ := mem_map.mp hmem
        exact .inl rfl
      · cases hmem
    · split at hmem
      · obtain ⟨bytes, -, rfl⟩ := mem_map.mp hmem
        exact .inr (.inl rfl)
      · cases hmem
  · exact .inr (.inr (h.maskPath_of_mem hmem))

theorem names_of_option (name : FileName) (bytes : Option Bytes) (b : Bool) :
    (if b then bytes.toList.map (name, ·) else []).map Prod.fst = [] ∨
    (if b then bytes.toList.map (name, ·) else []).map Prod.fst = [name] := by
  cases b with
  | false => exact .inl rfl
  | true =>
    cases bytes with
    | none => exact .inl rfl
    | some bytes => exact .inr rfl

theorem Exportable.nodup_exportMasks (h : Exportable env opts data) :
    ((exportMasks opts data).map Prod.fst).Nodup := by
  unfold exportMasks
  split
  · have hsub := filter_sublist
      (p := fun file : BackupFile => decide (extension file.1 = some "json".toList))
      (l := data.maskDir.getD [])
    have hnames := h.distinct.sublist (hsub.map Prod.fst)
    rw [map_map]
    have hpath : (Prod.fst ∘ fun file : BackupFile => (masksDir ++ file.1, file.2)) =
        (fun name => masksDir ++ name) ∘ Prod.fst := rfl
    rw [hpath, ← map_map]
    exact hnames.map fun a b heq => append_cancel_left heq
  · exact nodup_nil

theorem maskPath_ne {name : FileName} (h : ¬masksDir <+: name) : maskPath id ≠ name := by
  rintro rfl
  exact h (prefix_append _ _)

/-- An import takes whatever the server exports. -/
theorem Exportable.importable (h : Exportable env opts data) :
    Importable env (exportFiles opts data) where
  allowed := by
    intro file hmem
    rcases h.name_of_mem hmem with hname | hname | ⟨id, hsafe, hname⟩
    · rw [hname]
      decide
    · rw [hname]
      decide
    · rw [hname]
      exact isAllowedImportPath_maskPath hsafe
  component := by
    intro file hmem
    rcases h.name_of_mem hmem with hname | hname | ⟨id, -, hname⟩
    · rw [hname]
      decide
    · rw [hname]
      decide
    · rw [hname]
      exact maskPath_ne (by decide)
  valid := h.valid
  distinct := by
    have hmask : ∀ name ∈ (exportMasks opts data).map Prod.fst, masksDir <+: name := by
      intro name hmem
      obtain ⟨file, hfile, rfl⟩ := mem_map.mp hmem
      obtain ⟨id, -, hname⟩ := h.maskPath_of_mem hfile
      rw [hname]
      exact prefix_append _ _
    have hclients : ¬masksDir <+: clientsName := by decide
    have hserver : ¬masksDir <+: serverName := by decide
    have hdiffer : clientsName ≠ serverName := by decide
    have hnodup := h.nodup_exportMasks
    unfold exportFiles
    rw [map_append, map_append]
    generalize (exportMasks opts data).map Prod.fst = masks at hmask hnodup ⊢
    rcases names_of_option clientsName data.clientsDb opts.includeClients with hc | hc <;>
      rcases names_of_option serverName data.config opts.includeConfig with hs | hs <;>
      rw [hc, hs]
    · exact hnodup
    · exact nodup_cons.mpr ⟨fun hmem => hserver (hmask _ hmem), hnodup⟩
    · exact nodup_cons.mpr ⟨fun hmem => hclients (hmask _ hmem), hnodup⟩
    · refine nodup_cons.mpr ⟨fun hmem => ?_, nodup_cons.mpr
        ⟨fun hmem => hserver (hmask _ hmem), hnodup⟩⟩
      rcases mem_cons.mp hmem with heq | hmem
      · exact hdiffer heq
      · exact hclients (hmask _ hmem)

theorem verifyMac_exportManifest (createdAt : String) (key : Bytes32) :
    verifyMac env (exportManifest env opts data createdAt (some key)) (some key) = .ok true := by
  simp [verifyMac, exportManifest, BackupManifest.macInput]

/-- Once the first pass has read an export, all checks but the binding hold. -/
theorem checkArchive_exportManifest (h : Exportable env opts data) (importOpts : ImportOptions)
    (createdAt : String) (key : Bytes32)
    (hmanifest : st.manifest = some (exportManifest env opts data createdAt (some key)))
    (hstaged : st.staged = exportFiles opts data) :
    checkArchive env importOpts (some key) st =
      (bindStaged env importOpts (exportFiles opts data)).map fun staged =>
        (exportManifest env opts data createdAt (some key), true, staged) := by
  have hhashes : (exportManifest env opts data createdAt (some key)).contentHashes =
      contentHashes env (exportFiles opts data) := rfl
  have hfiles : checkStaged env (exportManifest env opts data createdAt (some key))
      (exportFiles opts data) = .ok () := by
    refine (checkStaged_signed rfl).mpr ?_
    intro file hfile
    exact lookup_contentHashes h.importable.distinct hfile
  have hlisted : checkListed (exportManifest env opts data createdAt (some key))
      (exportFiles opts data) = .ok () := by
    refine (checkListed_signed rfl).mpr ?_
    intro rel hrel
    exact mem_keys_contentHashes.mp hrel
  unfold checkArchive
  rw [hmanifest, hstaged]
  dsimp only
  rw [hfiles, hlisted, verifyMac_exportManifest]
  cases bindStaged env importOpts (exportFiles opts data) <;> rfl

theorem writeStaged_works (staged : List BackupFile) :
    writeStaged .works staged = (.ok (), staged.map fun file => (backupDest file.1, file.2)) := by
  induction staged with
  | nil => rfl
  | cons file rest ih =>
    obtain ⟨rel, bytes⟩ := file
    simp only [writeStaged, ImportIo.works, map_cons] at ih ⊢
    rw [ih]

/-- No mask of the export has an id longer than its name in a header has room for. -/
def ShortMaskIds (files : List BackupFile) : Prop :=
  ∀ id bytes, safeMaskId id = true → (maskPath id, bytes) ∈ files → id.length ≤ 89

theorem Exportable.short_iff (h : Exportable env opts data) :
    ShortMaskIds (exportFiles opts data) ↔
      ∀ file ∈ exportFiles opts data,
        (TarEntry.encodeName file.1).length ≤ TarEntry.nameRoom := by
  constructor
  · intro hshort file hmem
    rcases h.name_of_mem hmem with hname | hname | ⟨id, hsafe, hname⟩
    · rw [hname]
      decide
    · rw [hname]
      decide
    · have hid := hshort id file.2 hsafe (hname ▸ hmem)
      rw [hname, length_maskPath hsafe, TarEntry.nameRoom]
      omega
  · intro hroom id bytes hsafe hmem
    have hlength := hroom _ hmem
    rw [length_maskPath hsafe, TarEntry.nameRoom] at hlength
    omega

/-- An export within the limits and with short names passes the first pass. -/
theorem readEntries_exportServer (h : Exportable env opts data) {createdAt : String}
    {key : Bytes32} (hshort : ShortMaskIds (exportFiles opts data))
    (hlimits : WithinLimits .default (exportFiles opts data)
      (manifestFile env (exportManifest env opts data createdAt (some key))))
    (hparse : env.parseManifest
        (env.manifestText (exportManifest env opts data createdAt (some key))) =
      some (exportManifest env opts data createdAt (some key))) :
    ∃ st, readEntries env .default 0 ⟨none, [], 0, []⟩
        (exportServer env opts data createdAt (some key)) = .ok st ∧
      st.manifest = some (exportManifest env opts data createdAt (some key)) ∧
      st.staged = exportFiles opts data := by
  generalize hm : exportManifest env opts data createdAt (some key) = manifest at hlimits hparse ⊢
  have hword : ImportLimits.default.total < 2 ^ 64 := by decide
  have hroom : ∀ file ∈ exportFiles opts data ++ [manifestFile env manifest],
      (TarEntry.encodeName file.1).length ≤ TarEntry.nameRoom := by
    intro file hmem
    rcases mem_append.mp hmem with hmem | hmem
    · exact h.short_iff.mp hshort file hmem
    rw [mem_singleton] at hmem
    have hname : file.1 = manifestName := by rw [hmem]; rfl
    rw [hname]
    decide
  have harchive : exportServer env opts data createdAt (some key) =
      (exportFiles opts data).map fileEntry ++ [fileEntry (manifestFile env manifest)] := by
    unfold exportServer
    rw [hm, TarEntry.archive_of_short hroom, map_append]
    rfl
  have hentries := hlimits.entries
  have htotal := hlimits.total
  rw [harchive, readEntries_files hword h.importable _ (fun _ _ => not_mem_nil) (by omega)
    (fun file hfile => hlimits.entry file (mem_append_left _ hfile))
    (by dsimp only; omega)]
  let read : ImportState :=
    ⟨none, exportFiles opts data, 0 + totalSize (exportFiles opts data),
      ((exportFiles opts data).map Prod.fst).reverse ++ []⟩
  have hread : read.decodedSize = 0 + totalSize (exportFiles opts data) := rfl
  have hnone : read.manifest = none := rfl
  obtain ⟨decodedSize, hlast⟩ := readEntries_manifest hword hnone
    (show 0 + (exportFiles opts data).length < ImportLimits.default.entries by omega)
    (hlimits.entry _ (mem_append_right _ (mem_singleton.mpr rfl)))
    (by omega) hlimits.manifest hparse
  exact ⟨_, hlast, rfl, rfl⟩

end Export

/-- An export is restored on its own server, with the signature recognised, exactly if the ids of
its masks have at most 89 characters and its configuration is a JSON object. -/
theorem backup_round_trip_iff (env : BackupEnv J) (opts : ExportOptions) (data : ServerData)
    (importOpts : ImportOptions) (createdAt : String) (key : Bytes32)
    (hexport : Exportable env opts data)
    (hlimits : WithinLimits .default (exportFiles opts data)
      (manifestFile env (exportManifest env opts data createdAt (some key))))
    (hparse : env.parseManifest
        (env.manifestText (exportManifest env opts data createdAt (some key))) =
      some (exportManifest env opts data createdAt (some key)))
    (hjson : ∀ bytes fields clientsDb maskDir, (serverName, bytes) ∈ exportFiles opts data →
      env.parseJson bytes = some (.object fields) →
      env.parseJson (env.jsonBytes (.object (boundFields env fields clientsDb maskDir))) =
        some (.object (boundFields env fields clientsDb maskDir))) :
    (∃ summary written,
      importWithLimits env importOpts .works (some key) false .default
        (exportServer env opts data createdAt (some key)) = (.ok summary, written) ∧
      summary.signed = true ∧
      List.Forall₂ (Restored env importOpts) (exportFiles opts data) written) ↔
    ShortMaskIds (exportFiles opts data) ∧ Bindable env importOpts (exportFiles opts data) := by
  by_cases hshort : ShortMaskIds (exportFiles opts data)
  · obtain ⟨st, hread, hmanifest, hstaged⟩ :=
      readEntries_exportServer hexport hshort hlimits hparse
    unfold importWithLimits
    rw [hread]
    dsimp only
    rw [checkArchive_exportManifest hexport importOpts createdAt key hmanifest hstaged]
    rcases bindStaged_cases importOpts (exportFiles opts data) hjson with
      ⟨error, herror, hnot⟩ | ⟨staged, hbound, hbindable, hall⟩
    · rw [herror]
      constructor
      · rintro ⟨summary, written, heq, -⟩
        cases heq
      · rintro ⟨-, hbindable⟩
        exact absurd hbindable hnot
    · rw [hbound]
      constructor
      · exact fun _ => ⟨hshort, hbindable⟩
      · intro _
        simp only [Except.map, writeStaged_works]
        exact ⟨_, _, rfl, rfl, hall⟩
  · have hlong : ∃ file ∈ exportFiles opts data,
        ¬(TarEntry.encodeName file.1).length ≤ TarEntry.nameRoom := by
      rw [hexport.short_iff] at hshort
      push Not at hshort
      simpa only [not_le] using hshort
    obtain ⟨file, hfile, hlength⟩ := hlong
    obtain ⟨entry, hentry, hkind⟩ := TarEntry.exists_longName
      (mem_append_left
        [manifestFile env (exportManifest env opts data createdAt (some key))] hfile) hlength
    obtain ⟨error, herror⟩ := readEntries_not_regular env .default hentry hkind 0 ⟨none, [], 0, []⟩
    constructor
    · rintro ⟨summary, written, heq, -⟩
      unfold importWithLimits exportServer at heq
      rw [herror] at heq
      cases heq
    · rintro ⟨hids, -⟩
      exact absurd hids hshort

/-- Libraries for one manifest: every text and every hash is empty, and an empty document is the
configuration as it is restored. -/
def backupEnv (manifest : BackupManifest) : BackupEnv Unit where
  version := ""
  hash := fun _ => ""
  keyedHash := fun _ _ => ""
  manifestText := fun _ => ""
  manifestBytes := fun _ => []
  parseManifest := fun _ => some manifest
  validateClients := fun _ => .ok ()
  parseServerConfig := fun _ => .ok ()
  parseMask := fun _ => .ok ()
  parseJson := fun bytes =>
    some (.object
      (if bytes = [] then ((∅ : Table String Unit).insert "clients_db" ()).insert "mask_dir" ()
      else ∅))
  jsonBytes := fun _ => []
  str := fun _ => ()

def sampleOptions : ExportOptions := ⟨true, true, true⟩

def sampleData (id : List Char) : ServerData :=
  ⟨some [1], some [2], some [(maskFileName id, [3])]⟩

def backupKey : Bytes32 := Vector.replicate 32 0

def sampleManifest (id : List Char) : BackupManifest :=
  exportManifest (backupEnv ⟨"", "", [], ∅, none⟩) sampleOptions (sampleData id) "" (some backupKey)

theorem exportFiles_sample (h : safeMaskId id = true) :
    exportFiles sampleOptions (sampleData id) =
      [(clientsName, [1]), (serverName, [2]), (maskPath id, [3])] := by
  simp [exportFiles, exportMasks, sampleOptions, sampleData, extension_maskFileName h, maskPath]

theorem exportable_sample (h : safeMaskId id = true) (manifest : BackupManifest) :
    Exportable (backupEnv manifest) sampleOptions (sampleData id) where
  masks := by
    intro file hmem _
    rw [mem_singleton.mp hmem]
    exact ⟨id, h, rfl⟩
  distinct := nodup_singleton _
  valid := by
    intro file hmem
    unfold validateComponent
    split
    · rfl
    · split
      · rfl
      · split <;> rfl

theorem withinLimits_sample (h : safeMaskId id = true) (manifest stored : BackupManifest) :
    WithinLimits .default (exportFiles sampleOptions (sampleData id))
      (manifestFile (backupEnv manifest) stored) := by
  have hempty : (manifestFile (backupEnv manifest) stored).2.length = 0 :=
    by
      show (utf8 "").length = 0
      decide
  rw [exportFiles_sample h]
  refine ⟨show 4 ≤ 4096 by decide, ?_, ?_, ?_⟩
  · intro file hmem
    simp only [cons_append, nil_append, mem_cons, not_mem_nil, or_false] at hmem
    have hone : 1 ≤ ImportLimits.default.entry := by decide
    rcases hmem with rfl | rfl | rfl | rfl
    · exact hone
    · exact hone
    · exact hone
    · exact Nat.zero_le _
  · exact show 3 ≤ ImportLimits.default.total by decide
  · exact Nat.zero_le _

theorem backup_round_trip_iff_short :
    ∃ summary written,
      importWithLimits (backupEnv (sampleManifest ['q'])) ⟨some "db", some "dir"⟩ .works
        (some backupKey) false .default
        (exportServer (backupEnv (sampleManifest ['q'])) sampleOptions (sampleData ['q']) ""
          (some backupKey)) = (.ok summary, written) ∧
      summary.signed = true ∧
      List.Forall₂ (Restored (backupEnv (sampleManifest ['q'])) ⟨some "db", some "dir"⟩)
        (exportFiles sampleOptions (sampleData ['q'])) written := by
  have hsafe : safeMaskId ['q'] = true := by decide
  have hfiles := exportFiles_sample hsafe
  apply (backup_round_trip_iff (backupEnv (sampleManifest ['q'])) sampleOptions (sampleData ['q'])
    ⟨some "db", some "dir"⟩ "" backupKey (exportable_sample hsafe _) (withinLimits_sample hsafe _ _)
    rfl ?_).mpr
  · have hroom : ∀ file ∈ exportFiles sampleOptions (sampleData ['q']),
        (TarEntry.encodeName file.1).length ≤ TarEntry.nameRoom := by
      decide
    refine ⟨(exportable_sample hsafe (sampleManifest ['q'])).short_iff.mpr hroom, ?_⟩
    exact fun bytes hmem => ⟨rfl, rfl, _, rfl⟩
  · intro bytes fields clientsDb maskDir hmem
    have hbytes : bytes = [2] := by
      rw [hfiles] at hmem
      simp only [mem_cons, Prod.mk.injEq, not_mem_nil, or_false] at hmem
      rcases hmem with ⟨hname, -⟩ | ⟨-, hbytes⟩ | ⟨hname, -⟩
      · exact absurd hname (by decide)
      · exact hbytes
      · exact absurd hname (by decide)
    rw [hbytes]
    intro h
    cases h
    rfl

/-- The store accepts an id of 90 characters, and the server refuses the backup it made of it. -/
theorem backup_with_long_id_refused :
    safeMaskId (List.replicate 90 'a') = true ∧
    Exportable (backupEnv (sampleManifest (List.replicate 90 'a'))) sampleOptions
      (sampleData (List.replicate 90 'a')) ∧
    WithinLimits .default (exportFiles sampleOptions (sampleData (List.replicate 90 'a')))
      (manifestFile (backupEnv (sampleManifest (List.replicate 90 'a')))
        (sampleManifest (List.replicate 90 'a'))) ∧
    importWithLimits (backupEnv (sampleManifest (List.replicate 90 'a')))
        ⟨some "db", some "dir"⟩ .works (some backupKey) false .default
        (exportServer (backupEnv (sampleManifest (List.replicate 90 'a'))) sampleOptions
          (sampleData (List.replicate 90 'a')) "" (some backupKey)) =
      (.error (.session "backup contains a non-regular entry"), []) := by
  have hsafe : safeMaskId (replicate 90 'a') = true := by decide +kernel
  refine ⟨hsafe, exportable_sample hsafe _, withinLimits_sample hsafe _ _, ?_⟩
  rfl

end AivpnSpec.Server
