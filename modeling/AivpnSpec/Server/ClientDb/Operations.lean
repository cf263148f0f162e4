import AivpnSpec.Server.ClientDb.Store

/-!
# Operations on the client database

The operations of `crates/aivpn-server/src/client_db/mod.rs` that an administrator, the
gateway and the pool perform. Random draws and clock readings are inputs.
-/

namespace AivpnSpec.Server

open AivpnSpec.Base AivpnSpec.Common List

/-- What `insert_client` draws and reads from the clock, `mod.rs:329-356`. -/
structure ClientDraw where
  id : String
  psk : Bytes32
  createdAt : Int
  updatedAt : Int

/-- `CreateClientOptions`, `mod.rs:28-33`. -/
structure CreateClientOptions where
  oneTime : Bool
  expiresAt : Option Int
  role : ClientRole
  qos : Option ClientQos

/-- `UpdateClientParams`, `mod.rs:39-59`; an absent field is left unchanged. -/
structure UpdateClientParams where
  name : Option String
  enabled : Option Bool
  oneTime : Option Bool
  qos : Option (Option ClientQos)
  expiresAt : Option (Option Int)
  role : Option ClientRole
  exitNode : Option (Option String)

variable (clientId : String)

def notFound : Error := .session s!"Client '{clientId}' not found"

/-- `insert_client`, `mod.rs:316-362`. -/
def insertClient (env : DbEnv) (name : String) (devicePubkey : Option Bytes32) (oneTime : Bool)
    (draw : ClientDraw) (data : ClientDbFile) : Except Error (ClientConfig × ClientDbFile) :=
  if data.clients.any fun c => c.name = name && !c.deleted then
    .error (.session s!"Client '{name}' already exists")
  else
    match allocateVpnIp env data with
    | .error e => .error e
    | .ok (vpnIp, data) =>
      let client : ClientConfig :=
        { id := draw.id, name, psk := draw.psk, vpnIp, enabled := true
          createdAt := draw.createdAt, stats := ClientStats.zero, qos := none, devicePubkey
          oneTime, expiresAt := none, updatedAt := some draw.updatedAt, deleted := false
          role := .user, exitNode := none }
      .ok (client, { data with clients := data.clients ++ [client] })

/-- `add_client_with_options`, `mod.rs:270-288`. -/
def insertClientWithOptions (env : DbEnv) (name : String) (options : CreateClientOptions)
    (draw : ClientDraw) (data : ClientDbFile) : Except Error (ClientConfig × ClientDbFile) :=
  if options.role ≠ .user then .error (.session "elevated role requires device binding")
  else
    match insertClient env name none options.oneTime draw data with
    | .error e => .error e
    | .ok (client, data) =>
      let client := { client with
        expiresAt := options.expiresAt, qos := options.qos, role := options.role }
      .ok (client, { data with clients := data.clients.dropLast ++ [client] })

/-- A change of the first record that satisfies `p`; `edit` may refuse it. -/
def editClient {α : Type} (p : ClientConfig → Bool) (clientId : String)
    (edit : ClientConfig → Except Error (α × ClientConfig)) (data : ClientDbFile) :
    Except Error (α × ClientDbFile) :=
  match data.clients.find? p with
  | none => .error (notFound clientId)
  | some client =>
    match edit client with
    | .error e => .error e
    | .ok (answer, client') =>
      .ok (answer, { data with clients := modifyFirst p (fun _ => client') data.clients })

def isLive (id : String) (c : ClientConfig) : Bool := c.id = id && !c.deleted

/-- `enroll_device`, `mod.rs:397-438`; it does not ask whether the record is deleted. -/
def enrollDevice (staticPub : Bytes32) (now : Int) :
    ClientDbFile → Except Error (Bool × ClientDbFile) :=
  editClient (hasId clientId) clientId fun client =>
    let bound := { client with devicePubkey := some staticPub, updatedAt := some now }
    match client.devicePubkey with
    | none =>
      if client.role ≠ .user then
        .error (.session "elevated role requires existing device binding")
      else .ok (true, bound)
    | some key =>
      if key = staticPub then .ok (false, client)
      else if client.oneTime || client.role ≠ .user then
        .error (.session s!"Device binding mismatch for client '{clientId}'")
      else .ok (true, bound)

/-- `reset_device_binding`, `mod.rs:441-455`; it does not ask whether the record is deleted. -/
def resetDeviceBinding (now : Int) : ClientDbFile → Except Error (Unit × ClientDbFile) :=
  editClient (hasId clientId) clientId fun client =>
    .ok ((), { client with
      devicePubkey := none, oneTime := true, role := .user, updatedAt := some now })

/-- `remove_client`, `mod.rs:475-489`: the record becomes a tombstone. -/
def removeClient (now : Int) : ClientDbFile → Except Error (Unit × ClientDbFile) :=
  editClient (isLive clientId) clientId fun client =>
    .ok ((), { client with
      deleted := true, enabled := false, devicePubkey := none, updatedAt := some now })

/-- The text after the last colon and the text before it, if there is a colon. -/
def rsplitColon (addr : List Char) : Option (List Char × List Char) :=
  let back := addr.reverse
  if back.contains ':' then
    some (((back.dropWhile (· ≠ ':')).drop 1).reverse, (back.takeWhile (· ≠ ':')).reverse)
  else none

/-- `port.parse::<u16>().is_ok()`: digits, after at most one plus sign, of a number that fits. -/
def parsesAsU16 (port : List Char) : Bool :=
  let digits := if port.head? = some '+' then port.drop 1 else port
  !digits.isEmpty && digits.all Char.isDigit &&
    digits.foldl (fun n c => n * 10 + (c.toNat - '0'.toNat)) 0 < 65536

/-- `validate_exit_node_addr`, `model.rs:137-147`. -/
def validateExitNodeAddr (addr : String) : Except Error Unit :=
  match rsplitColon addr.toList with
  | none => .error (.session "exit_node must be in host:port format")
  | some (host, port) =>
    if host.isEmpty then .error (.session "exit_node host must not be empty")
    else if parsesAsU16 port then .ok ()
    else .error (.session "exit_node port must be a valid number (0-65535)")

/-- The checks `update_client` makes before it takes the lock, `mod.rs:632-640`. -/
def checkParams (env : DbEnv) (params : UpdateClientParams) : Except Error Unit :=
  if params.name.any env.blank then .error (.session "Client name must not be empty")
  else
    match params.exitNode with
    | some (some addr) => validateExitNodeAddr addr
    | _ => .ok ()

/-- The fields `update_client` assigns, `mod.rs:679-700`. -/
def ClientConfig.applyParams (client : ClientConfig) (params : UpdateClientParams) (now : Int) :
    ClientConfig :=
  { client with
    name := params.name.getD client.name
    enabled := params.enabled.getD client.enabled
    oneTime := params.oneTime.getD client.oneTime
    qos := params.qos.getD client.qos
    expiresAt := params.expiresAt.getD client.expiresAt
    role := params.role.getD client.role
    exitNode := params.exitNode.getD client.exitNode
    updatedAt := some now }

/-- The closure of `update_client`, `mod.rs:642-703`. -/
def updateClient (params : UpdateClientParams) (now : Int) (data : ClientDbFile) :
    Except Error (ClientConfig × ClientDbFile) :=
  match params.name.filter fun name =>
      data.clients.any fun c => c.name = name && c.id ≠ clientId && !c.deleted with
  | some name => .error (.session s!"Client name '{name}' already taken")
  | none =>
    editClient (isLive clientId) clientId (fun client =>
      if params.role.getD client.role ≠ .user ∧ client.devicePubkey = none then
        .error (.session "role requires device binding")
      else .ok (client.applyParams params now, client.applyParams params now)) data

/-- `set_client_qos`, `mod.rs:707-723`. -/
def setClientQos (qos : ClientQos) (now : Int) :
    ClientDbFile → Except Error (Unit × ClientDbFile) :=
  editClient (isLive clientId) clientId fun client =>
    .ok ((), { client with qos := some qos, updatedAt := some now })

/-- `+=` on the counters of `ClientStats`, which are `u64`: in a release build it wraps. -/
def addU64 (a b : Nat) : Nat := (a + b) % 2 ^ 64

/-- `record_handshake`, `mod.rs:549-556`. -/
def recordHandshake (now : Int) (data : ClientDbFile) : ClientDbFile :=
  { data with
    clients := modifyFirst (hasId clientId) (fun c => { c with
      stats := { c.stats with
        totalConnections := addU64 c.stats.totalConnections 1
        lastHandshake := some now
        lastConnected := some now } }) data.clients }

/-- `record_traffic`, `mod.rs:559-566`. -/
def recordTraffic (bytesIn bytesOut : Nat) (now : Int) (data : ClientDbFile) : ClientDbFile :=
  { data with
    clients := modifyFirst (hasId clientId) (fun c => { c with
      stats := { c.stats with
        bytesIn := addU64 c.stats.bytesIn bytesIn
        bytesOut := addU64 c.stats.bytesOut bytesOut
        lastConnected := some now } }) data.clients }

/-- A change to the records, made inside a mutation. -/
inductive DbChange where
  | insert (name : String) (devicePubkey : Option Bytes32) (oneTime : Bool) (draw : ClientDraw)
  | insertWithOptions (name : String) (options : CreateClientOptions) (draw : ClientDraw)
  | enroll (clientId : String) (staticPub : Bytes32) (now : Int)
  | resetDevice (clientId : String) (now : Int)
  | remove (clientId : String) (now : Int)
  | update (clientId : String) (params : UpdateClientParams) (now : Int)
  | setQos (clientId : String) (qos : ClientQos) (now : Int)
  | merge (incoming : List ClientConfig) (now : Int)
  | save

/-- The records after a change, or its refusal. -/
def DbChange.apply (env : DbEnv) (change : DbChange) (data : ClientDbFile) :
    Except Error (Unit × ClientDbFile) :=
  match change with
  | .insert name devicePubkey oneTime draw =>
    (insertClient env name devicePubkey oneTime draw data).map fun out => ((), out.2)
  | .insertWithOptions name options draw =>
    (insertClientWithOptions env name options draw data).map fun out => ((), out.2)
  | .enroll clientId staticPub now =>
    (enrollDevice clientId staticPub now data).map fun out => ((), out.2)
  | .resetDevice clientId now => resetDeviceBinding clientId now data
  | .remove clientId now => removeClient clientId now data
  | .update clientId params now => (updateClient clientId params now data).map fun out => ((), out.2)
  | .setQos clientId qos now => setClientQos clientId qos now data
  | .merge incoming now => .ok ((), (mergeClients env now incoming data).2)
  | .save => .ok ((), data)

def DbChange.precheck (env : DbEnv) : DbChange → Except Error Unit
  | .update _ params _ => checkParams env params
  | _ => .ok ()

/-- What a process can do with its database. -/
inductive DbStep where
  | load (now : Int) (faults : Faults)
  | reload (now : Int) (faults : Faults)
  | mutate (change : DbChange) (now : Int) (faults : Faults)
  | handshake (clientId : String) (now : Int)
  | traffic (clientId : String) (bytesIn bytesOut : Nat) (now : Int)

/-- The memory of the process and the file after a step. -/
def DbStep.perform (env : DbEnv) (data : ClientDbFile) (file : Option ClientDbFile) :
    DbStep → ClientDbFile × Option ClientDbFile
  | .load now faults => ((loadDb now faults file).getD data, file)
  | .reload now faults => (reloadFromDisk env now faults data file, file)
  | .mutate change now faults =>
    match change.precheck env with
    | .error _ => (data, file)
    | .ok () =>
      let out := withMutation env now faults data file (change.apply env)
      (out.data, out.file)
  | .handshake clientId now => (recordHandshake clientId now data, file)
  | .traffic clientId bytesIn bytesOut now => (recordTraffic clientId bytesIn bytesOut now data, file)

/-- What a step can do: leave the records alone but for their counters, read the file anew, fold it
into the memory, or save a change of both. -/
inductive StepEffect (env : DbEnv) (data : ClientDbFile) (file : Option ClientDbFile)
    (step : DbStep) : ClientDbFile × Option ClientDbFile → Prop where
  | kept (data' : ClientDbFile)
      (hs : data'.clients.map ClientConfig.eraseStats = data.clients.map ClientConfig.eraseStats) :
      StepEffect env data file step (data', file)
  | loaded (now : Int) (faults : Faults) (data' : ClientDbFile) (hstep : step = .load now faults)
      (hread : data'.clients =
        reapExpiredTombstones now (file.getD ClientDbFile.empty).clients) :
      StepEffect env data file step (data', file)
  | folded (now : Int) (data' : ClientDbFile)
      (hstep : (∃ faults, step = .reload now faults) ∨
        ∃ change faults, step = .mutate change now faults)
      (hs : data'.clients.map ClientConfig.eraseStats =
        (absorbDisk env now data file).clients.map ClientConfig.eraseStats) :
      StepEffect env data file step (data', file)
  | saved (change : DbChange) (now : Int) (faults : Faults) (data' : ClientDbFile)
      (hstep : step = .mutate change now faults)
      (hf : change.apply env (absorbDisk env now data file) = .ok ((), data'))
      (hw : faults.write = false) : StepEffect env data file step (data', some data')

/-- Every step is one of the four. -/
theorem step_effect (env : DbEnv) (data : ClientDbFile) (file : Option ClientDbFile)
    (step : DbStep) : StepEffect env data file step (step.perform env data file) := by
  cases step with
  | load now faults =>
    simp only [DbStep.perform, loadDb]
    split
    · exact .kept data rfl
    · exact .loaded now faults _ rfl rfl
  | reload now faults =>
    simp only [DbStep.perform, reloadFromDisk]
    split
    · exact .kept data rfl
    · exact .folded now _ (.inl ⟨faults, rfl⟩) rfl
  | mutate change now faults =>
    simp only [DbStep.perform]
    split
    · exact .kept data rfl
    have heff := withMutation_effect env now faults data file (change.apply env)
    generalize withMutation env now faults data file (change.apply env) = out at heff ⊢
    cases heff with
    | refused e => exact .kept data rfl
    | rolledBack e data' hs => exact .folded now data' (.inr ⟨change, faults, rfl⟩) hs
    | saved result data' hf hw => exact .saved change now faults data' rfl hf hw
  | handshake clientId now | traffic clientId bytesIn bytesOut now =>
    exact .kept _ (map_modifyFirst fun _ _ => rfl)

def DbChange.newId : DbChange → Option String
  | .insert _ _ _ draw => some draw.id
  | .insertWithOptions _ _ draw => some draw.id
  | _ => none

def DbChange.finds : DbChange → ClientConfig → Bool
  | .enroll clientId _ _ => hasId clientId
  | .resetDevice clientId _ => hasId clientId
  | .remove clientId _ => isLive clientId
  | .update clientId _ _ => isLive clientId
  | .setQos clientId _ _ => isLive clientId
  | _ => fun _ => false

/-- The time a change stamps on the record it writes, and for a merge the time it reaps at. -/
def DbChange.time : DbChange → Option Int
  | .insert _ _ _ draw => some draw.updatedAt
  | .insertWithOptions _ _ draw => some draw.updatedAt
  | .enroll _ _ now => some now
  | .resetDevice _ now => some now
  | .remove _ now => some now
  | .update _ _ now => some now
  | .setQos _ _ now => some now
  | .merge _ now => some now
  | .save => none

/-- What a change can make of the record it finds. -/
def DbChange.Edits : DbChange → ClientConfig → ClientConfig → Prop
  | .enroll _ staticPub now, c, c' =>
    c.devicePubkey = some staticPub ∧ c' = c ∨
    c.role = .user ∧ (c.devicePubkey = none ∨ c.oneTime = false) ∧
      c' = { c with devicePubkey := some staticPub, updatedAt := some now }
  | .resetDevice _ now, c, c' =>
    c' = { c with devicePubkey := none, oneTime := true, role := .user, updatedAt := some now }
  | .remove _ now, c, c' =>
    c' = { c with deleted := true, enabled := false, devicePubkey := none, updatedAt := some now }
  | .update _ params now, c, c' =>
    (params.role.getD c.role = .user ∨ c.devicePubkey ≠ none) ∧ c' = c.applyParams params now
  | .setQos _ qos now, c, c' => c' = { c with qos := some qos, updatedAt := some now }
  | _, _, _ => False

/-- What a change other than a merge does, with the checks it has passed: it adds a live record
of a user at a free address under a free name, it edits the first record it looks for, or it
does nothing. -/
inductive LocalEffect (env : DbEnv) (change : DbChange) (clients : List ClientConfig) :
    List ClientConfig → Prop where
  | inserted (c : ClientConfig) (hnew : change.newId = some c.id) (hlive : c.deleted = false)
      (huser : c.role = .user) (htime : ∃ u, change.time = some u ∧ c.updatedAt = some u)
      (hfree : Free env clients c.vpnIp)
      (hname : ∀ d ∈ clients, d.deleted = false → d.name ≠ c.name) :
      LocalEffect env change clients (clients ++ [c])
  | edited (c c' : ClientConfig) (hf : clients.find? change.finds = some c)
      (hedit : change.Edits c c')
      (hname : c'.name = c.name ∨
        ∀ d ∈ clients, d.deleted = false → d.id ≠ c.id → d.name ≠ c'.name) :
      LocalEffect env change clients (modifyFirst change.finds (fun _ => c') clients)
  | same (hsave : change = .save) : LocalEffect env change clients clients

variable {data data' : ClientDbFile} {env : DbEnv} {c : ClientConfig} {clientId name : String}
  {draw : ClientDraw} {u : Unit} {α : Type}

/-- A new record is the last one. -/
theorem insertClient_spec {devicePubkey : Option Bytes32} {oneTime : Bool}
    (h : insertClient env name devicePubkey oneTime draw data = .ok (c, data')) :
    data'.clients = data.clients ++ [c] ∧ c.id = draw.id ∧ c.deleted = false ∧ c.role = .user ∧
    c.updatedAt = some draw.updatedAt ∧ Free env data.clients c.vpnIp ∧
    ∀ d ∈ data.clients, d.deleted = false → d.name ≠ c.name := by
  unfold insertClient at h
  split at h
  · cases h
  next hname =>
  cases ha : allocateVpnIp env data with
  | error e =>
    rw [ha] at h
    cases h
  | ok out =>
    obtain ⟨ip, data''⟩ := out
    obtain ⟨hfree, hclients⟩ := allocateVpnIp_spec ha
    rw [ha] at h
    cases h
    refine ⟨by rw [← hclients], rfl, rfl, rfl, rfl, hfree, ?_⟩
    intro d hd hlive heq
    exact hname (any_eq_true.mpr ⟨d, hd, by simpa [hlive] using heq⟩)

theorem insertClientWithOptions_spec {options : CreateClientOptions}
    (h : insertClientWithOptions env name options draw data = .ok (c, data')) :
    data'.clients = data.clients ++ [c] ∧ c.id = draw.id ∧ c.deleted = false ∧ c.role = .user ∧
    c.updatedAt = some draw.updatedAt ∧ Free env data.clients c.vpnIp ∧
    ∀ d ∈ data.clients, d.deleted = false → d.name ≠ c.name := by
  unfold insertClientWithOptions at h
  split at h
  · cases h
  next hrole =>
  cases hi : insertClient env name none options.oneTime draw data with
  | error e =>
    rw [hi] at h
    cases h
  | ok out =>
    obtain ⟨client, data''⟩ := out
    obtain ⟨hclients, hid, hlive, -, htime, hfree, hname⟩ := insertClient_spec hi
    rw [hi] at h
    cases h
    refine ⟨?_, hid, hlive, not_not.mp hrole, htime, hfree, hname⟩
    simp only [hclients, dropLast_concat]

/-- An edit that succeeds replaces the record it was given. -/
theorem editClient_eq_ok {p : ClientConfig → Bool}
    {edit : ClientConfig → Except Error (α × ClientConfig)} {a : α}
    (h : editClient p clientId edit data = .ok (a, data')) :
    ∃ c c', data.clients.find? p = some c ∧ edit c = .ok (a, c') ∧
      data'.clients = modifyFirst p (fun _ => c') data.clients := by
  unfold editClient at h
  cases hf : data.clients.find? p with
  | none =>
    rw [hf] at h
    cases h
  | some c =>
    simp only [hf] at h
    cases he : edit c with
    | error e =>
      rw [he] at h
      cases h
    | ok out =>
      obtain ⟨answer, c'⟩ := out
      rw [he] at h
      cases h
      exact ⟨c, c', rfl, he, rfl⟩

theorem map_unit_ok {x : Except Error (α × ClientDbFile)} {data' : ClientDbFile}
    (h : x.map (fun out => ((), out.2)) = .ok (u, data')) : ∃ a, x = .ok (a, data') := by
  cases x with
  | error e => cases h
  | ok out =>
    cases h
    exact ⟨out.1, rfl⟩

/-- The name an update assigns is not the name of another live record. -/
theorem updateClient_eq_ok {params : UpdateClientParams} {now : Int} {a : ClientConfig}
    (h : updateClient clientId params now data = .ok (a, data')) :
    ∃ c c', data.clients.find? (isLive clientId) = some c ∧
      (DbChange.update clientId params now).Edits c c' ∧
      (c'.name = c.name ∨ ∀ d ∈ data.clients, d.deleted = false → d.id ≠ c.id →
        d.name ≠ c'.name) ∧
      data'.clients = modifyFirst (isLive clientId) (fun _ => c') data.clients := by
  unfold updateClient at h
  split at h
  · cases h
  next hname =>
  obtain ⟨c, c', hf, he, hclients⟩ := editClient_eq_ok h
  split at he
  · cases he
  next hrole =>
  cases he
  refine ⟨c, _, hf, ⟨by tauto, rfl⟩, ?_, hclients⟩
  cases hn : params.name with
  | none => exact .inl (by simp [ClientConfig.applyParams, hn])
  | some name =>
    refine .inr fun d hd hlive hne heq => ?_
    rw [hn] at hname
    have hid : c.id = clientId := by
      have := find?_some hf
      simp only [isLive, Bool.and_eq_true, decide_eq_true_eq] at this
      exact this.1
    rw [Option.filter_eq_none_iff] at hname
    refine hname name rfl (any_eq_true.mpr ⟨d, hd, ?_⟩)
    rw [hid] at hne
    simpa [hlive, hne, ClientConfig.applyParams, hn] using heq

variable {change : DbChange} {c' : ClientConfig}

/-- Every change other than a merge is one of the three. -/
theorem apply_cases (h : change.apply env data = .ok (u, data'))
    (hm : ∀ incoming now, change ≠ .merge incoming now) :
    LocalEffect env change data.clients data'.clients := by
  cases change with
  | insert name devicePubkey oneTime draw =>
    obtain ⟨c, hc⟩ := map_unit_ok h
    obtain ⟨hclients, hid, hlive, huser, htime, hfree, hname⟩ := insertClient_spec hc
    rw [hclients]
    exact .inserted c (congrArg some hid.symm) hlive huser ⟨_, rfl, htime⟩ hfree hname
  | insertWithOptions name options draw =>
    obtain ⟨c, hc⟩ := map_unit_ok h
    obtain ⟨hclients, hid, hlive, huser, htime, hfree, hname⟩ := insertClientWithOptions_spec hc
    rw [hclients]
    exact .inserted c (congrArg some hid.symm) hlive huser ⟨_, rfl, htime⟩ hfree hname
  | enroll clientId staticPub now =>
    obtain ⟨b, hb⟩ := map_unit_ok h
    obtain ⟨c, c', hf, he, hclients⟩ := editClient_eq_ok hb
    rw [hclients]
    split at he
    · next hkey =>
      split at he
      · cases he
      · next hrole =>
        cases he
        exact .edited c _ hf (.inr ⟨not_not.mp hrole, .inl hkey, rfl⟩) (.inl rfl)
    next key hkey =>
    split at he
    · next heq =>
      cases he
      exact .edited c _ hf (.inl ⟨by rw [hkey, heq], rfl⟩) (.inl rfl)
    split at he
    · cases he
    next henforce =>
    cases he
    simp only [Bool.or_eq_true, decide_eq_true_eq, not_or, Bool.not_eq_true,
      not_not] at henforce
    exact .edited c _ hf (.inr ⟨henforce.2, .inr henforce.1, rfl⟩) (.inl rfl)
  | resetDevice clientId now | remove clientId now | setQos clientId qos now =>
    simp only [DbChange.apply, resetDeviceBinding, removeClient, setClientQos] at h
    obtain ⟨c, c', hf, he, hclients⟩ := editClient_eq_ok h
    rw [hclients]
    cases he
    exact .edited c _ hf rfl (.inl rfl)
  | update clientId params now =>
    obtain ⟨a, ha⟩ := map_unit_ok h
    obtain ⟨c, c', hf, hedit, hname, hclients⟩ := updateClient_eq_ok ha
    rw [hclients]
    exact .edited c c' hf hedit hname
  | merge incoming now => exact absurd rfl (hm incoming now)
  | save =>
    cases h
    exact .same rfl

/-- What an edit leaves of the record: it lets no tombstone live again, and it stamps its time on
the record, if it changes it at all. -/
structure DbChange.Keeps (change : DbChange) (c c' : ClientConfig) : Prop where
  id : c'.id = c.id
  vpnIp : c'.vpnIp = c.vpnIp
  createdAt : c'.createdAt = c.createdAt
  deleted : c.deleted = true → c'.deleted = true
  stats : c'.stats = c.stats
  time : c' = c ∨ ∃ u, change.time = some u ∧ c'.updatedAt = some u

theorem DbChange.Edits.keeps (h : change.Edits c c') : change.Keeps c c' := by
  cases change with
  | enroll clientId staticPub now =>
    rcases h with ⟨-, rfl⟩ | ⟨-, -, rfl⟩
    · exact ⟨rfl, rfl, rfl, id, rfl, .inl rfl⟩
    · exact ⟨rfl, rfl, rfl, id, rfl, .inr ⟨now, rfl, rfl⟩⟩
  | resetDevice clientId now | setQos clientId qos now =>
    obtain rfl : c' = _ := h
    exact ⟨rfl, rfl, rfl, id, rfl, .inr ⟨now, rfl, rfl⟩⟩
  | remove clientId now =>
    obtain rfl : c' = _ := h
    exact ⟨rfl, rfl, rfl, fun _ => rfl, rfl, .inr ⟨now, rfl, rfl⟩⟩
  | update clientId params now =>
    obtain ⟨-, rfl⟩ := h
    exact ⟨rfl, rfl, rfl, id, rfl, .inr ⟨now, rfl, rfl⟩⟩
  | _ => cases h

/-- A record after a change was there, is the new one, or is the edited one. -/
theorem LocalEffect.mem {clients clients' : List ClientConfig}
    (h : LocalEffect env change clients clients') (hc : c' ∈ clients') :
    c' ∈ clients ∨
    (change.newId = some c'.id ∧ c'.deleted = false ∧ c'.role = .user ∧
      (∃ u, change.time = some u ∧ c'.updatedAt = some u) ∧
      ∀ d ∈ clients, d.deleted = false → d.name ≠ c'.name) ∨
    ∃ c ∈ clients, change.Edits c c' ∧ (c'.name = c.name ∨
      ∀ d ∈ clients, d.deleted = false → d.id ≠ c.id → d.name ≠ c'.name) := by
  cases h with
  | inserted c hnew hlive huser htime hfree hname =>
    rcases mem_append.mp hc with hc | hc
    · exact .inl hc
    · rw [mem_singleton.mp hc]
      exact .inr (.inl ⟨hnew, hlive, huser, htime, hname⟩)
  | edited c d hf hedit hname =>
    rcases mem_modifyFirst hc with hc | ⟨a, ha, rfl⟩
    · exact .inl hc
    · rw [hf] at ha
      cases ha
      exact .inr (.inr ⟨c, mem_of_find?_eq_some hf, hedit, hname⟩)
  | same hsave => exact .inl hc

/-- A change drops no id. -/
theorem LocalEffect.known {clients clients' : List ClientConfig}
    (h : LocalEffect env change clients clients') (hc : c ∈ clients) :
    ∃ c' ∈ clients', c'.id = c.id := by
  cases h with
  | inserted d hnew hlive huser htime hfree hname => exact ⟨c, mem_append_left _ hc, rfl⟩
  | edited d d' hf hedit hname =>
    by_cases heq : c = d
    · subst heq
      exact ⟨d', replaced_mem_modifyFirst hf, hedit.keeps.id⟩
    refine ⟨c, mem_modifyFirst_of_ne hc ?_, rfl⟩
    intro a ha
    rw [hf] at ha
    cases ha
    exact heq
  | same hsave => exact ⟨c, hc, rfl⟩

/-- What a change other than a merge does: it adds a live record at a free address, or it edits
one record, which keeps its id, its address and its creation time and never comes back to
life. -/
inductive ChangeEffect (env : DbEnv) (newId : Option String) (clients : List ClientConfig) :
    List ClientConfig → Prop where
  | inserted (c : ClientConfig) (hnew : newId = some c.id) (hlive : c.deleted = false)
      (hfree : Free env clients c.vpnIp) : ChangeEffect env newId clients (clients ++ [c])
  | edited (p : ClientConfig → Bool) (c c' : ClientConfig) (hf : clients.find? p = some c)
      (hid : c'.id = c.id) (hip : c'.vpnIp = c.vpnIp) (hcreated : c'.createdAt = c.createdAt)
      (hdel : c.deleted = true → c'.deleted = true) :
      ChangeEffect env newId clients (modifyFirst p (fun _ => c') clients)
  | same : ChangeEffect env newId clients clients

/-- The effect of a change as far as ids, addresses and deletions are concerned. -/
theorem apply_effect (h : change.apply env data = .ok (u, data'))
    (hm : ∀ incoming now, change ≠ .merge incoming now) :
    ChangeEffect env change.newId data.clients data'.clients := by
  have heff := apply_cases h hm
  generalize data'.clients = clients' at heff
  cases heff with
  | inserted c hnew hlive huser htime hfree hname => exact .inserted c hnew hlive hfree
  | edited c c' hf hedit hname =>
    obtain ⟨hid, hip, hcreated, hdel, -, -⟩ := hedit.keeps
    exact .edited _ c c' hf hid hip hcreated hdel
  | same hsave => exact .same

end AivpnSpec.Server
