import AivpnSpec.Base.Table
import AivpnSpec.Base.Tar
import AivpnSpec.Wire.Text

/-!
# Backups of the server

`crates/aivpn-server/src/backup.rs:40-704` and `mask_store.rs:257-273`. An export stores the client
database, the configuration and the masks in an archive, with a signed manifest behind them;
an import reads and checks everything before it writes anything. Compression, JSON and the hashes
are parameters. File names are lists of characters.
-/

namespace AivpnSpec.Server

open AivpnSpec.Base AivpnSpec.Common AivpnSpec.Wire

abbrev FileName := List Char

abbrev BackupFile := FileName × Bytes

def manifestName : FileName := "manifest.json".toList
def clientsName : FileName := "clients.json".toList
def serverName : FileName := "server.json".toList

def masksDir : FileName := "masks/".toList

/-- The last name of a file's name, as `Path::extension` has it. -/
def extension (name : FileName) : Option (List Char) :=
  if name = "..".toList then none
  else
    match name.reverse.dropWhile (· ≠ '.') with
    | [] => none
    | [_] => none
    | _ :: _ :: _ => some (name.reverse.takeWhile (· ≠ '.')).reverse

/-- `BackupManifest`, `backup.rs:41-58`. -/
structure BackupManifest where
  aivpnVersion : String
  createdAt : String
  components : List String
  contentHashes : Table FileName String
  mac : Option String

/-- A JSON document. -/
inductive JsonDoc (J : Type) where
  | object (fields : Table String J)
  | other (value : J)

/-- What backups take from the libraries. -/
structure BackupEnv (J : Type) where
  /-- `CARGO_PKG_VERSION` -/
  version : String
  /-- `blake3::hash` in hexadecimal -/
  hash : Bytes → String
  /-- `blake3::keyed_hash` in hexadecimal -/
  keyedHash : Bytes32 → Bytes → String
  /-- `to_vec_pretty` of a manifest, and `to_vec` -/
  manifestText : BackupManifest → String
  manifestBytes : BackupManifest → Bytes
  /-- `from_str` of a manifest -/
  parseManifest : String → Option BackupManifest
  /-- `ClientDatabase::validate_json` -/
  validateClients : Bytes → Except Error Unit
  /-- `from_slice` of a `ServerFileConfig` and of a `MaskProfile`, for their errors -/
  parseServerConfig : Bytes → Except String Unit
  parseMask : Bytes → Except String Unit
  /-- `from_slice` and `to_vec` of any JSON -/
  parseJson : Bytes → Option (JsonDoc J)
  jsonBytes : JsonDoc J → Bytes
  /-- a JSON string -/
  str : String → J

variable {J : Type} (env : BackupEnv J)

variable (manifest : BackupManifest)

/-- `mac_input`, `backup.rs:77-81`. -/
def BackupManifest.macInput : Bytes :=
  env.manifestBytes { manifest with mac := none }

/-- The ids that `safe_mask_path` accepts, `mask_store.rs:257-273`. -/
def safeMaskId (id : List Char) : Bool :=
  id ≠ [] && (TarEntry.encodeName id).length ≤ 128 && id ≠ ".".toList && id ≠ "..".toList &&
    id.all fun c => c.isAlphanum || c = '_' || c = '-'

def maskFileName (id : List Char) : FileName := id ++ ".json".toList

/-- `ExportOptions`, `backup.rs:84-92`, without the paths. -/
structure ExportOptions where
  includeClients : Bool
  includeMasks : Bool
  includeConfig : Bool

/-- What the paths of the options lead to: the two files, and the entries of the mask directory. -/
structure ServerData where
  clientsDb : Option Bytes
  config : Option Bytes
  maskDir : Option (List BackupFile)

variable (opts : ExportOptions) (data : ServerData)

def exportMasks : List BackupFile :=
  if opts.includeMasks then
    ((data.maskDir.getD []).filter fun file => extension file.1 = some "json".toList).map
      fun file => (masksDir ++ file.1, file.2)
  else []

/-- The files of an export in their order, `backup.rs:210-254`. -/
def exportFiles : List BackupFile :=
  (if opts.includeClients then data.clientsDb.toList.map (clientsName, ·) else []) ++
    (if opts.includeConfig then data.config.toList.map (serverName, ·) else []) ++
    exportMasks opts data

def exportComponents : List String :=
  (if opts.includeClients && data.clientsDb.isSome then ["clients"] else []) ++
    (if opts.includeConfig && data.config.isSome then ["config"] else []) ++
    (if exportMasks opts data = [] then [] else ["masks"])

def contentHashes (files : List BackupFile) : Table FileName String :=
  files.foldl (fun hashes file => hashes.insert file.1 (env.hash file.2)) ∅

/-- The manifest of an export, signed if there is a key; `backup.rs:256-286`. -/
def exportManifest (createdAt : String) (key : Option Bytes32) : BackupManifest :=
  let manifest : BackupManifest :=
    { aivpnVersion := env.version
      createdAt
      components := exportComponents opts data
      contentHashes := contentHashes env (exportFiles opts data)
      mac := none }
  { manifest with mac := key.map fun key => env.keyedHash key (manifest.macInput env) }

def manifestFile : BackupFile :=
  (manifestName, utf8 (env.manifestText manifest))

/-- `export_server`, `backup.rs:200-327`. -/
def exportServer (createdAt : String) (key : Option Bytes32) : List TarEntry :=
  TarEntry.archive
    (exportFiles opts data ++ [manifestFile env (exportManifest env opts data createdAt key)])

/-- The components of a path: parts between slashes, without empty ones and without dots behind the
first. -/
def pathComponents (path : FileName) : List FileName :=
  match path.splitOn '/' with
  | [] => []
  | first :: rest =>
    (if first = [] then [] else [first]) ++ rest.filter fun part => part ≠ [] && part ≠ ['.']

/-- `is_allowed_import_path`, `backup.rs:356-384`. -/
def isAllowedImportPath (rel : FileName) : Bool :=
  if '\\' ∈ rel || rel.head? = some '/' || "..".toList ∈ pathComponents rel then false
  else
    match pathComponents rel with
    | [_] => rel = clientsName || rel = serverName
    | [dir, name] =>
      dir = "masks".toList && rel = masksDir ++ name && extension name = some "json".toList
    | _ => false

/-- `validate_component`, `backup.rs:389-404`. -/
def validateComponent (rel : FileName) (bytes : Bytes) : Except Error Unit :=
  if rel = clientsName then env.validateClients bytes
  else if rel = serverName then
    (env.parseServerConfig bytes).mapError fun e =>
      .session ("invalid server.json in backup: " ++ e)
  else if masksDir.isPrefixOf rel then
    (env.parseMask bytes).mapError fun e =>
      .session ("invalid mask JSON in backup (" ++ String.ofList rel ++ "): " ++ e)
  else .ok ()

/-- `ImportLimits`, `backup.rs:103-108`. -/
structure ImportLimits where
  manifest : Nat
  entry : Nat
  total : Nat
  entries : Nat

/-- `ImportLimits::default`, `backup.rs:110-119`. -/
def ImportLimits.default : ImportLimits :=
  { manifest := 1024 * 1024, entry := 64 * 1024 * 1024, total := 256 * 1024 * 1024,
    entries := 4096 }

/-- What the first pass has read. -/
structure ImportState where
  manifest : Option BackupManifest
  staged : List BackupFile
  decodedSize : Nat
  seen : List FileName

/-- The manifest of an archive; one that is no text is an error, one that does not parse is as good
as none. -/
def readManifest (limits : ImportLimits) (st : ImportState) (data : Bytes) :
    Except Error ImportState :=
  if limits.manifest < data.length then .error (.session "backup manifest size limit exceeded")
  else if st.manifest.isSome then .error (.session "duplicate backup manifest")
  else
    match fromUtf8 data with
    | none => .error (.session "read manifest: stream did not contain valid UTF-8")
    | some text => .ok { st with manifest := env.parseManifest text }

def readComponent (st : ImportState) (rel : FileName) (data : Bytes) : Except Error ImportState :=
  if !isAllowedImportPath rel then .ok st
  else if rel ∈ st.seen then .error (.session "duplicate backup component")
  else
    match validateComponent env rel data with
    | .error e => .error e
    | .ok () => .ok { st with staged := st.staged ++ [(rel, data)], seen := rel :: st.seen }

/-- One round of the first pass, `backup.rs:463-519`. -/
def readEntry (limits : ImportLimits) (index : Nat) (st : ImportState) (entry : TarEntry) :
    Except Error ImportState :=
  let decodedSize := st.decodedSize + entry.data.length
  if limits.entries ≤ index then .error (.session "backup entry count limit exceeded")
  else if 2 ^ 64 ≤ decodedSize then .error (.session "backup decoded size limit exceeded")
  else if limits.entry < entry.data.length ∨ limits.total < decodedSize then
    .error (.session "backup decoded size limit exceeded")
  else if entry.kind ≠ .regular then .error (.session "backup contains a non-regular entry")
  else
    let st := { st with decodedSize }
    if entry.path = manifestName then readManifest env limits st entry.data
    else readComponent env st entry.path entry.data

def readEntries (limits : ImportLimits) : Nat → ImportState → List TarEntry →
    Except Error ImportState
  | _, st, [] => .ok st
  | index, st, entry :: rest =>
    match readEntry env limits index st entry with
    | .error e => .error e
    | .ok st => readEntries limits (index + 1) st rest

/-- Every staged file is as the manifest has it, `backup.rs:538-567`. -/
def checkStaged (manifest : BackupManifest) : List BackupFile → Except Error Unit
  | [] => .ok ()
  | (rel, bytes) :: rest =>
    match manifest.contentHashes.lookup rel with
    | some expected =>
      if expected = env.hash bytes then checkStaged manifest rest
      else
        .error (.session ("backup integrity check failed: " ++ String.ofList rel ++
          " content does not match manifest"))
    | none =>
      if manifest.mac.isSome then
        .error (.session ("backup integrity check failed: " ++ String.ofList rel ++
          " is not listed in the signed manifest"))
      else checkStaged manifest rest

/-- Every file of a signed manifest is there, `backup.rs:572-582`. -/
def checkListed (staged : List BackupFile) : Except Error Unit :=
  match manifest.mac, manifest.contentHashes.keys.find? fun rel => !(staged.any (·.1 = rel)) with
  | some _, some missing =>
    .error (.session ("backup integrity check failed: " ++ String.ofList missing ++
      " is listed in the signed manifest but missing from the archive"))
  | _, _ => .ok ()

/-- The signature against the key of this server, `backup.rs:593-623`. -/
def verifyMac (key : Option Bytes32) : Except Error Bool :=
  match manifest.mac, key with
  | some mac, some key =>
    if env.keyedHash key (manifest.macInput env) = mac then .ok true
    else
      .error (.session ("backup integrity signature mismatch — refusing to import (tampered, " ++
        "corrupted, or signed by a different server's key)"))
  | _, _ => .ok false

/-- The paths of `ImportOptions`, `backup.rs:96-100`, that are written into the configuration, if
they are UTF-8. -/
structure ImportOptions where
  clientsDb : Option String
  maskDir : Option String

def boundFields (fields : Table String J) (clientsDb maskDir : String) : Table String J :=
  (fields.insert "clients_db" (env.str clientsDb)).insert "mask_dir" (env.str maskDir)

/-- The configuration as it is restored, `backup.rs:628-648`. -/
def bindConfig (opts : ImportOptions) (bytes : Bytes) : Except Error Bytes :=
  match env.parseJson bytes with
  | some (.object fields) =>
    match opts.clientsDb, opts.maskDir with
    | none, _ => .error (.session "clients_db: путь восстановления должен быть UTF-8")
    | some _, none => .error (.session "mask_dir: путь восстановления должен быть UTF-8")
    | some clientsDb, some maskDir =>
      .ok (env.jsonBytes (.object (boundFields env fields clientsDb maskDir)))
  | _ => .error (.session "invalid server.json in backup")

def bindStaged (opts : ImportOptions) : List BackupFile → Except Error (List BackupFile)
  | [] => .ok []
  | (rel, bytes) :: rest =>
    match if rel = serverName then bindConfig env opts bytes else .ok bytes with
    | .error e => .error e
    | .ok bound =>
      match bindStaged opts rest with
      | .error e => .error e
      | .ok rest => .ok ((rel, bound) :: rest)

/-- Where a file is restored. -/
inductive BackupDest where
  | config
  | clients
  | mask (name : FileName)
  deriving DecidableEq

def backupDest (rel : FileName) : BackupDest :=
  if rel = serverName then .config
  else if rel = clientsName then .clients
  else .mask (rel.drop masksDir.length)

/-- What the file system answers during an import: whether the database is free, and the error of
each write. -/
structure ImportIo where
  guardError : Option Error
  writeError : BackupDest → Option String

def ImportIo.works : ImportIo := ⟨none, fun _ => none⟩

/-- The second pass, `backup.rs:665-694`: what was written, up to the first failure. -/
def writeStaged (io : ImportIo) : List BackupFile →
    Except Error Unit × List (BackupDest × Bytes)
  | [] => (.ok (), [])
  | (rel, bytes) :: rest =>
    match io.writeError (backupDest rel) with
    | some error => (.error (.session error), [])
    | none =>
      let (answer, written) := writeStaged io rest
      (answer, (backupDest rel, bytes) :: written)

/-- `ImportSummary`, `backup.rs:411-420`. -/
structure ImportSummary where
  aivpnVersion : String
  createdAt : String
  components : List String
  signed : Bool
  dryRun : Bool

def checkArchive (opts : ImportOptions) (key : Option Bytes32) (st : ImportState) :
    Except Error (BackupManifest × Bool × List BackupFile) :=
  match st.manifest with
  | none => .error (.session "backup missing manifest.json")
  | some manifest => do
    checkStaged env manifest st.staged
    checkListed manifest st.staged
    let signed ← verifyMac env manifest key
    let staged ← bindStaged env opts st.staged
    return (manifest, signed, staged)

/-- `import_with_limits`, `backup.rs:437-704`: the answer and what was written. -/
def importWithLimits (opts : ImportOptions) (io : ImportIo) (key : Option Bytes32) (dryRun : Bool)
    (limits : ImportLimits) (archive : List TarEntry) :
    Except Error ImportSummary × List (BackupDest × Bytes) :=
  match readEntries env limits 0 ⟨none, [], 0, []⟩ archive with
  | .error e => (.error e, [])
  | .ok st =>
    match checkArchive env opts key st with
    | .error e => (.error e, [])
    | .ok (manifest, signed, staged) =>
      let summary : ImportSummary :=
        { aivpnVersion := manifest.aivpnVersion, createdAt := manifest.createdAt,
          components := manifest.components, signed, dryRun }
      if dryRun then (.ok summary, [])
      else
        match io.guardError with
        | some e => (.error e, [])
        | none =>
          match writeStaged io staged with
          | (.error e, written) => (.error e, written)
          | (.ok (), written) => (.ok summary, written)

end AivpnSpec.Server
