import AivpnSpec.Base.SharedFile
import AivpnSpec.Server.ClientDb.Merge

/-!
# The database file

`crates/aivpn-server/src/client_db/mod.rs`: every mutation rereads the file under the lock,
folds it into the memory, changes the memory and replaces the file. The file only ever holds
what was serialised from a `ClientDbFile`, so it is modelled by its content. Failures to lock,
read or write are inputs, and so is every reading of the clock.
-/

namespace AivpnSpec.Server

open AivpnSpec.Base AivpnSpec.Common

/-- `max_opt_time`, `mod.rs:1181-1188`. -/
def maxOptTime : Option Int → Option Int → Option Int
  | some a, some b => some (max a b)
  | some a, none => some a
  | none, some b => some b
  | none, none => none

/-- `max_stats`, `mod.rs:1171-1179`. -/
def maxStats (a b : ClientStats) : ClientStats where
  bytesIn := max a.bytesIn b.bytesIn
  bytesOut := max a.bytesOut b.bytesOut
  totalConnections := max a.totalConnections b.totalConnections
  lastConnected := maxOptTime a.lastConnected b.lastConnected
  lastHandshake := maxOptTime a.lastHandshake b.lastHandshake

/-- `take_disk`, `mod.rs:1142-1163`. -/
def takeDisk (hash : PoolHash) (mem disk : ClientConfig) : Bool :=
  if strictlyNewer disk.updatedAt mem.updatedAt then true
  else if strictlyNewer mem.updatedAt disk.updatedAt then false
  else if disk.deleted ≠ mem.deleted then disk.deleted
  else recordCanonicalHash hash disk.canonical ≠ recordCanonicalHash hash mem.canonical ||
    disk.vpnIp ≠ mem.vpnIp

/-- `absorb_one_client`, `mod.rs:1141-1169`. -/
def absorbOneClient (hash : PoolHash) (mem disk : ClientConfig) : ClientConfig :=
  let stats := maxStats mem.stats disk.stats
  if takeDisk hash mem disk then { disk with stats } else { mem with stats }

/-- One iteration of the loop of `absorb_disk_locked`, `mod.rs:175-181`. -/
def absorbClient (hash : PoolHash) (clients : List ClientConfig) (disk : ClientConfig) :
    List ClientConfig :=
  match clients.find? (hasId disk.id) with
  | some _ => modifyFirst (hasId disk.id) (fun mem => absorbOneClient hash mem disk) clients
  | none => clients ++ [disk]

variable (env : DbEnv)

/-- `absorb_disk_locked` after the file was read, `mod.rs:172-189`. -/
def absorbDisk (now : Int) (data : ClientDbFile) (file : Option ClientDbFile) : ClientDbFile :=
  match file with
  | none => { data with clients := reapExpiredTombstones now data.clients }
  | some disk =>
    { clients := reapExpiredTombstones now
        (disk.clients.foldl (absorbClient env.hash) data.clients)
      nextHostOffset := max data.nextHostOffset disk.nextHostOffset }

/-- `restore_preserving_traffic`, `mod.rs:1192-1199`. -/
def restorePreservingTraffic (current snapshot : ClientDbFile) : ClientDbFile :=
  { snapshot with
    clients := snapshot.clients.map fun client =>
      match current.clients.find? (hasId client.id) with
      | some live => { client with stats := maxStats client.stats live.stats }
      | none => client }

/-- The answer of an operation, the memory after it and the file after it. -/
structure DbResult (α : Type) where
  answer : Except Error α
  data : ClientDbFile
  file : Option ClientDbFile

/-- `with_mutation`, `mod.rs:199-224`; `now` is the clock reading of the reaping. -/
def withMutation {α : Type} (now : Int) (faults : Faults) (data : ClientDbFile)
    (file : Option ClientDbFile) (f : ClientDbFile → Except Error (α × ClientDbFile)) :
    DbResult α :=
  if faults.lock then
    { answer := .error (.session "Failed to open client DB lock"), data, file }
  else if faults.read then
    { answer := .error (.session "Failed to read client DB"), data, file }
  else
    let rollback := absorbDisk env now data file
    match f rollback with
    | .error e => { answer := .error e, data := restorePreservingTraffic rollback rollback, file }
    | .ok (result, data) =>
      if faults.write then
        { answer := .error (.session "Failed to write client DB")
          data := restorePreservingTraffic data rollback, file }
      else { answer := .ok result, data, file := some data }

/-- `load`, `mod.rs:104-136`; `none` if the file cannot be read. -/
def loadDb (now : Int) (faults : Faults) (file : Option ClientDbFile) : Option ClientDbFile :=
  if faults.lock || faults.read then none
  else
    let data := file.getD ClientDbFile.empty
    some { data with clients := reapExpiredTombstones now data.clients }

/-- `reload_from_disk`, `mod.rs:606-616`. -/
def reloadFromDisk (now : Int) (faults : Faults) (data : ClientDbFile) (file : Option ClientDbFile) :
    ClientDbFile :=
  if faults.lock || faults.read then data else absorbDisk env now data file

/-- `merge_from_json` on the records the text holds, `merge.rs:223-461`; `now` and `now'` are the
clock readings of the two reapings. -/
def mergeFromJson (now now' : Int) (faults : Faults) (data : ClientDbFile)
    (file : Option ClientDbFile) (incoming : List ClientConfig) : DbResult Nat :=
  withMutation env now faults data file fun data => .ok (mergeClients env now' incoming data)

def ClientConfig.eraseStats (c : ClientConfig) : ClientConfig := { c with stats := ClientStats.zero }

theorem restorePreservingTraffic_eraseStats (current snapshot : ClientDbFile) :
    (restorePreservingTraffic current snapshot).clients.map ClientConfig.eraseStats =
      snapshot.clients.map ClientConfig.eraseStats := by
  unfold restorePreservingTraffic
  rw [List.map_map]
  apply List.map_congr_left
  intro c _
  simp only [Function.comp]
  split <;> rfl

/-- What a mutation can do: nothing, fold the file into the memory, or save a change. -/
inductive MutationEffect {α : Type} (env : DbEnv) (now : Int) (faults : Faults)
    (data : ClientDbFile) (file : Option ClientDbFile)
    (f : ClientDbFile → Except Error (α × ClientDbFile)) : DbResult α → Prop where
  | refused (e : Error) :
      MutationEffect env now faults data file f { answer := .error e, data, file }
  | rolledBack (e : Error) (data' : ClientDbFile)
      (hs : data'.clients.map ClientConfig.eraseStats =
        (absorbDisk env now data file).clients.map ClientConfig.eraseStats) :
      MutationEffect env now faults data file f { answer := .error e, data := data', file }
  | saved (result : α) (data' : ClientDbFile)
      (hf : f (absorbDisk env now data file) = .ok (result, data')) (hw : faults.write = false) :
      MutationEffect env now faults data file f
        { answer := .ok result, data := data', file := some data' }

/-- Every mutation is one of the three. -/
theorem withMutation_effect {α : Type} (now : Int) (faults : Faults) (data : ClientDbFile)
    (file : Option ClientDbFile) (f : ClientDbFile → Except Error (α × ClientDbFile)) :
    MutationEffect env now faults data file f (withMutation env now faults data file f) := by
  unfold withMutation
  split
  · exact .refused _
  split
  · exact .refused _
  cases hf : f (absorbDisk env now data file) with
  | error e =>
    simp only [hf]
    exact .rolledBack e _ (restorePreservingTraffic_eraseStats _ _)
  | ok out =>
    obtain ⟨result, data'⟩ := out
    simp only [hf]
    split
    · exact .rolledBack _ _ (restorePreservingTraffic_eraseStats _ _)
    · next hw => exact .saved result data' hf (Bool.eq_false_iff.mpr hw)

end AivpnSpec.Server
