import AivpnSpec.Base.Runs
import AivpnSpec.Base.SharedFile
import AivpnSpec.Base.Table
import Mathlib.Data.Finset.Union

/-!
# The registry of node identities

`crates/aivpn-server/src/node_registry.rs`. Several processes share one registry file under
a lock file. Every operation rereads the file first; a revocation that could not be saved
stays in force in the process that tried it. An unreadable file locks the process out.
The file only ever holds what `persist` wrote, so it is modelled by its content. What the
registry asks of the outside world (JSON size, key and signature checks) is in
`RegistryEnv`, and each operation is given the failures it meets.
-/

namespace AivpnSpec.Server

open AivpnSpec.Base

abbrev NodeKey := Vector UInt8 32

/-- `PersistedStore`, `node_registry.rs:17-22`. -/
structure PersistedStore where
  nodes : Table String NodeKey
  revoked : Finset String

/-- `NodeAuthOutcome`, `node_registry.rs:24-29`. -/
inductive NodeAuthOutcome where
  | verified
  | boundNew
  | rejected (reason : String)
  deriving DecidableEq, Repr

/-- `RegistryState`, `node_registry.rs:31-39`. -/
structure RegistryState where
  nodes : Table String NodeKey
  revoked : Finset String
  unsavedRevocations : Finset String
  existed : Bool
  poisoned : Bool

/-- `RegistryState::default`. -/
def RegistryState.empty : RegistryState :=
  { nodes := ∅, revoked := ∅, unsavedRevocations := ∅, existed := false, poisoned := false }

/-- What a node presents to `authenticate`. -/
structure NodeEnrollment where
  nodeId : String
  nodePub : NodeKey
  timeWindow : Nat
  signature : Vector UInt8 64
  serverEphPub : NodeKey
  clientEphPub : NodeKey

/-- The functions of the libraries the registry uses. -/
structure RegistryEnv where
  /-- `trim().is_empty()` -/
  blank : String → Bool
  /-- a verifying key that decodes and is not weak -/
  validKey : NodeKey → Bool
  /-- length of the JSON text of a store -/
  jsonBytes : PersistedStore → Nat
  /-- `verify_node_enrollment` -/
  verifyNodeEnrollment : NodeEnrollment → Bool

/-- The kinds of `io::Error` the registry returns. -/
inductive RegistryError where
  | lock
  | poisoned
  | read
  | invalidData
  | write
  deriving DecidableEq, Repr

/-- `MAX_REGISTRY_BYTES`, `node_registry.rs:15`. -/
def maxRegistryBytes : Nat := 16 * 1024 * 1024

/-- The checks `refresh` makes on the file's content, `node_registry.rs:111-143`. -/
def PersistedStore.readable (env : RegistryEnv) (store : PersistedStore) : Bool :=
  env.jsonBytes store ≤ maxRegistryBytes &&
    store.nodes.entries.all fun e => !env.blank e.1 && env.validKey e.2

namespace RegistryState

variable (env : RegistryEnv) (state : RegistryState) (file : Option PersistedStore)

variable (faults : Faults)

/-- The reading part of `refresh`, `node_registry.rs:101-148`. -/
def readFile : Except RegistryError RegistryState :=
  if faults.read then .error .read
  else
    match file with
    | none => if state.existed then .error .read else .ok state
    | some store =>
      if store.readable env then
        .ok { state with nodes := store.nodes
                         revoked := store.revoked ∪ state.unsavedRevocations
                         existed := true }
      else .error .invalidData

/-- `refresh`, `node_registry.rs:95-154`: the state after it, and the error if there is one. -/
def refresh : Except RegistryError Unit × RegistryState :=
  if state.poisoned then (.error .poisoned, state)
  else
    match state.readFile env file faults with
    | .ok state => (.ok (), state)
    | .error e => (.error e, { state with poisoned := true })

/-- `check_health`, `node_registry.rs:156-160`; the lock comes first. -/
def checkHealth : Except RegistryError Unit × RegistryState :=
  if faults.lock then (.error .lock, state) else state.refresh env file faults

/-- `NodeRegistry::load`, `node_registry.rs:66-78`. -/
def load : RegistryState :=
  (RegistryState.empty.checkHealth env file faults).2

variable (nodeId : String)

/-- `is_authorized`, `node_registry.rs:163-171`. -/
def isAuthorized (nodePub : NodeKey) (faults : Faults) : Bool × RegistryState :=
  match state.checkHealth env file faults with
  | (.error _, state) => (false, state)
  | (.ok (), state) =>
    (decide (state.nodes.lookup nodeId = some nodePub ∧ nodeId ∉ state.revoked), state)

/-- `persist`, `node_registry.rs:302-351`: the new file, if the rename is reached. -/
def persist : Except RegistryError PersistedStore :=
  if faults.write then .error .write
  else .ok { nodes := state.nodes, revoked := state.revoked }

/-- `authenticate`, `node_registry.rs:173-227`, in time window `cur`: the outcome, the state
and the file. -/
def authenticate (allowAutoAdd : Bool) (state : RegistryState) (file : Option PersistedStore)
    (request : NodeEnrollment) (cur : Nat) (faults : Faults) :
    NodeAuthOutcome × RegistryState × Option PersistedStore :=
  if 2 < max request.timeWindow cur - min request.timeWindow cur then
    (.rejected "stale enrollment", state, file)
  else if env.blank request.nodeId || !env.verifyNodeEnrollment request then
    (.rejected "bad signature", state, file)
  else
    match state.checkHealth env file faults with
    | (.error _, state) => (.rejected "registry unavailable", state, file)
    | (.ok (), state) =>
      if request.nodeId ∈ state.revoked then
        (.rejected "revoked node — re-approval required", state, file)
      else
        match state.nodes.lookup request.nodeId with
        | some stored =>
          if stored = request.nodePub then (.verified, state, file)
          else (.rejected "node_pub mismatch - impostor or key rotation", state, file)
        | none =>
          if !allowAutoAdd then (.rejected "unknown node, auto-add disabled", state, file)
          else
            let added := { state with nodes := state.nodes.insert request.nodeId request.nodePub }
            match added.persist faults with
            | .error _ =>
              (.rejected "registry persistence failed",
                { added with nodes := added.nodes.erase request.nodeId }, file)
            | .ok store => (.boundNew, { added with existed := true }, some store)

/-- A revocation that could not be saved, `node_registry.rs:241-245`. -/
def keepRevoked : RegistryState :=
  { state with
    nodes := state.nodes.erase nodeId
    revoked := insert nodeId state.revoked
    unsavedRevocations := insert nodeId state.unsavedRevocations }

/-- `try_revoke`, `node_registry.rs:229-247`. -/
def tryRevoke (faults : Faults) :
    Except RegistryError Bool × RegistryState × Option PersistedStore :=
  match state.checkHealth env file faults with
  | (.error e, state) => (.error e, state.keepRevoked nodeId, file)
  | (.ok (), state) =>
    let changed := (state.nodes.lookup nodeId).isSome || nodeId ∉ state.revoked
    let revoked := { state with nodes := state.nodes.erase nodeId
                                revoked := insert nodeId state.revoked }
    match revoked.persist faults with
    | .error e => (.error e, revoked.keepRevoked nodeId, file)
    | .ok store =>
      (.ok changed,
        { revoked with existed := true
                       unsavedRevocations := revoked.unsavedRevocations.erase nodeId },
        some store)

/-- `try_unrevoke`, `node_registry.rs:256-271`. -/
def tryUnrevoke (faults : Faults) :
    Except RegistryError Bool × RegistryState × Option PersistedStore :=
  match state.checkHealth env file faults with
  | (.error e, state) => (.error e, state, file)
  | (.ok (), state) =>
    if nodeId ∉ state.revoked then (.ok false, state, file)
    else
      let approved := { state with revoked := state.revoked.erase nodeId }
      match approved.persist faults with
      | .error e =>
        (.error e, { approved with revoked := insert nodeId approved.revoked }, file)
      | .ok store =>
        (.ok true,
          { approved with existed := true
                          unsavedRevocations := approved.unsavedRevocations.erase nodeId },
          some store)

end RegistryState

abbrev RegistryWorld := SharedFile RegistryState PersistedStore

/-- An operation of process `p`; they are serialised by the lock. `checkHealth` stands for the
listings, which only reread the file. -/
inductive RegistryAction where
  | authenticate (p : Nat) (allowAutoAdd : Bool) (request : NodeEnrollment) (cur : Nat)
      (faults : Faults)
  | isAuthorized (p : Nat) (nodeId : String) (nodePub : NodeKey) (faults : Faults)
  | tryRevoke (p : Nat) (nodeId : String) (faults : Faults)
  | tryUnrevoke (p : Nat) (nodeId : String) (faults : Faults)
  | checkHealth (p : Nat) (faults : Faults)
  | restart (p : Nat) (faults : Faults)

/-- What an operation returns. -/
inductive RegistryAnswer where
  | auth (outcome : NodeAuthOutcome)
  | authorized (ok : Bool)
  | changed (result : Except RegistryError Bool)
  | done

namespace RegistryWorld

/-- The answer to an operation and the world after it. -/
def perform (env : RegistryEnv) (w : RegistryWorld) :
    RegistryAction → RegistryAnswer × RegistryWorld
  | .authenticate p allowAutoAdd request cur faults =>
    let out := (w.procs p).authenticate env allowAutoAdd w.file request cur faults
    (.auth out.1, w.set p out.2.1 out.2.2)
  | .isAuthorized p nodeId nodePub faults =>
    let out := (w.procs p).isAuthorized env w.file nodeId nodePub faults
    (.authorized out.1, w.set p out.2 w.file)
  | .tryRevoke p nodeId faults =>
    let out := (w.procs p).tryRevoke env w.file nodeId faults
    (.changed out.1, w.set p out.2.1 out.2.2)
  | .tryUnrevoke p nodeId faults =>
    let out := (w.procs p).tryUnrevoke env w.file nodeId faults
    (.changed out.1, w.set p out.2.1 out.2.2)
  | .checkHealth p faults =>
    (.done, w.set p ((w.procs p).checkHealth env w.file faults).2 w.file)
  | .restart p faults => (.done, w.set p (RegistryState.load env w.file faults) w.file)

/-- The world after the first `k` operations. -/
def afterActions (env : RegistryEnv) (file : Option PersistedStore)
    (actions : List RegistryAction) (k : Nat) : RegistryWorld :=
  stateAt (fun w action => (w.perform env action).2)
    (SharedFile.start RegistryState.empty file) actions k

end RegistryWorld

end AivpnSpec.Server
