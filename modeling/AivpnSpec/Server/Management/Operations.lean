import AivpnSpec.Server.Management.Views

/-!
# Management operations

`crates/aivpn-server/src/mgmt_service/client_ops.rs` and `heavy_settings.rs`. Each operation that
changes something writes an entry to the audit log by itself, whether it succeeds or not.
-/

namespace AivpnSpec.Server.Mgmt

open AivpnSpec.Base AivpnSpec.Common AivpnSpec.Server

/-- `AddClientArgs`, `client_ops.rs:18-27`. -/
structure AddClientArgs where
  name : String
  oneTime : Bool
  expiresAt : Option Int
  role : ClientRole
  qos : Option ClientQos

/-- The options that `add_client` passes on, `client_ops.rs:65-70`. -/
def AddClientArgs.options (args : AddClientArgs) : CreateClientOptions where
  oneTime := args.oneTime
  expiresAt := args.expiresAt
  role := args.role
  qos := args.qos

/-- `client_name_valid`, `client_ops.rs:45-50`. -/
def clientNameValid (name : String) : Except MgmtError Unit :=
  if name.isEmpty || 64 < name.utf8ByteSize then
    .error (.badRequest "name must be 1-64 characters")
  else .ok ()

variable (ctx : MgmtCtx) (draws : MgmtDraws) (s : MgmtState)

def mutate {α : Type} (f : ClientDbFile → Except Error (α × ClientDbFile)) :
    Except Error α × MgmtState :=
  let out := withMutation ctx.db draws.now draws.faults s.data s.file f
  (out.answer, { s with data := out.data, file := out.file })

/-- `add_client`, `client_ops.rs:60-83`. -/
def addClient (args : AddClientArgs) : Except MgmtError ClientView × MgmtState :=
  match clientNameValid args.name with
  | .error e => (.error e, s)
  | .ok () =>
    match mutate ctx draws s
        (insertClientWithOptions ctx.db args.name args.options draws.client) with
    | (.ok c, s) =>
      (.ok (.ofClient c), audit ctx draws s "ClientAdd" (c.name ++ " (" ++ c.id ++ ")") "ok")
    | (.error e, s) =>
      (.error (.conflict (errorText e)),
        audit ctx draws s "ClientAdd" args.name ("failed: " ++ errorText e))

/-- The error that `update_client` reports, `client_ops.rs:114-122`. -/
def updateError (message : String) : MgmtError :=
  if containsText message "not found" then .notFound
  else if containsText message "device binding" then .forbidden
  else if containsText message "exit_node" then .badRequest message
  else .conflict message

/-- `ClientDatabase::update_client`, `client_db/mod.rs:627-705`. -/
def updateDb (id : String) (params : UpdateClientParams) : Except Error ClientConfig × MgmtState :=
  match checkParams ctx.db params with
  | .error e => (.error e, s)
  | .ok () => mutate ctx draws s (Server.updateClient id params draws.stamp)

/-- `update_client`, `client_ops.rs:90-126`; `UpdateClientArgs` has the fields of
`UpdateClientParams`. -/
def updateClient (id : String) (args : UpdateClientParams) :
    Except MgmtError ClientView × MgmtState :=
  match args.name.map clientNameValid with
  | some (.error e) => (.error e, s)
  | _ =>
    match updateDb ctx draws s id args with
    | (.ok c, s) => (.ok (.ofClient c), audit ctx draws s "ClientPatch" id "ok")
    | (.error e, s) =>
      (.error (updateError (errorText e)),
        audit ctx draws s "ClientPatch" id ("failed: " ++ errorText e))

/-- The shape of the operations that answer nothing: an error of the database is reported as a
missing client. -/
def mutateClient (action id : String) (f : ClientDbFile → Except Error (Unit × ClientDbFile)) :
    Except MgmtError Unit × MgmtState :=
  match mutate ctx draws s f with
  | (.ok (), s) => (.ok (), audit ctx draws s action id "ok")
  | (.error e, s) => (.error .notFound, audit ctx draws s action id ("failed: " ++ errorText e))

/-- `remove_client`, `client_ops.rs:130-141`. -/
def removeClient (id : String) : Except MgmtError Unit × MgmtState :=
  mutateClient ctx draws s "ClientRemove" id (Server.removeClient id draws.stamp)

/-- `revoke`, `client_ops.rs:173-184`. -/
def revoke (id : String) : Except MgmtError Unit × MgmtState :=
  mutateClient ctx draws s "ClientRevoke" id (Server.removeClient id draws.stamp)

/-- `reset_device`, `client_ops.rs:187-198`. -/
def resetDevice (id : String) : Except MgmtError Unit × MgmtState :=
  mutateClient ctx draws s "DeviceReset" id (resetDeviceBinding id draws.stamp)

/-- `connection_key`, `client_ops.rs:206-245`. -/
def connectionKey (id : String) : Except MgmtError String :=
  match ctx.serverAddr, ctx.serverPubKey with
  | none, _ => .error (.unavailable "public_endpoint_not_configured")
  | some _, none => .error (.unavailable "server_key_not_configured")
  | some serverAddr, some pubKey =>
    match findById s.data id with
    | none => .error .notFound
    | some client =>
      match ctx.network.clientConfig ctx.ipv6Text client.vpnIp with
      | .error e => .error (.internal (errorText e))
      | .ok network =>
        let base64 := fun key : Bytes32 => ctx.codec.base64 key.toList
        let key : ConnectionKey :=
          { s := serverAddr, k := base64 pubKey, p := base64 client.psk, i := network.clientIp
            n := network, sk := ctx.serverSigningPubkey.map base64
            mop := ctx.maskOperatorPubkey.map base64 }
        match ctx.codec.connectionKey key with
        | .error e => .error (.internal ("connection key serialization error: " ++ e))
        | .ok json => .ok ("aivpn://" ++ ctx.codec.base64UrlSafe json)

/-- `HeavySetting`, `heavy_settings.rs:48-66`. -/
inductive HeavySetting where
  | activeMask (client mask : String)
  | exitNode (addr : Option String)

/-- `Path::join`: an absolute path replaces what stands before it. -/
def joinPath (base rest : String) : String :=
  if rest.toList.head? = some '/' then rest else base ++ "/" ++ rest

/-- A key of a JSON object gets a value; `serde_json::Map` is sorted. -/
def setKey (key : String) (value : Json) : List (String × Json) → List (String × Json)
  | [] => [(key, value)]
  | (k, v) :: rest =>
    if k = key then (key, value) :: rest
    else if key < k then (key, value) :: (k, v) :: rest
    else (k, v) :: setKey key value rest

/-- The settings with another exit node, `heavy_settings.rs:140-159`. -/
def setExitNode (addr : Option String) (settings : List (String × Json)) : List (String × Json) :=
  let pool := match settings.lookup "pool" with
    | some (.object pool) => pool
    | _ => []
  let pool := match addr with
    | some addr => setKey "exit_node" (.string addr) pool
    | none => pool.filter fun field => field.1 ≠ "exit_node"
  setKey "pool" (.object pool) settings

/-- The new content of `server.json`, `heavy_settings.rs:134-162`. -/
def editConfig (codec : Codec) (addr : Option String) (content : Option Bytes) :
    Except MgmtError Bytes :=
  match codec.readToString content with
  | .error e => .error (.internal ("read config: " ++ e))
  | .ok text =>
    match codec.parseJson text with
    | .error e => .error (.internal ("parse config: " ++ e))
    | .ok (.object settings) =>
      match codec.prettyJson (.object (setExitNode addr settings)) with
      | .error e => .error (.internal ("serialize config: " ++ e))
      | .ok text => .ok text
    | .ok _ => .error (.internal "config root is not a JSON object")

/-- `resolve_heavy_setting`, `heavy_settings.rs:79-176`. -/
def resolveHeavySetting (data : ClientDbFile) (setting : HeavySetting)
    (files : String → Option Bytes) : Except MgmtError ConfigStore.ResolvedHeavyWrite :=
  match setting with
  | .activeMask client mask =>
    if client.isEmpty || mask.isEmpty then
      .error (.badRequest "fields 'client' and 'mask' are required")
    else if !mask.toList.all fun c => ctx.codec.isAlphanumeric c || c = '-' || c = '_' then
      .error (.badRequest "invalid mask name")
    else
      match (findByName data client).or (findById data client) with
      | none => .error .notFound
      | some resolved =>
        if (files (joinPath ctx.maskDir (mask ++ ".json"))).isNone && !ctx.codec.isPreset mask then
          .error .notFound
        else
          .ok
            { targetPath := joinPath (joinPath ctx.maskDir ".overrides") (resolved.id ++ ".mask")
              newContent := utf8 mask
              descriptor := "active mask: " ++ resolved.id ++ " -> " ++ mask }
  | .exitNode addr =>
    match addr.map validateExitNodeAddr with
    | some (.error e) => .error (.badRequest (errorText e))
    | _ =>
      match ctx.configPath with
      | none => .error (.unavailable "server config path not configured on this node")
      | some path =>
        match editConfig ctx.codec addr (files path) with
        | .error e => .error e
        | .ok newContent =>
          .ok
            { targetPath := path, newContent
              descriptor := "global exit node: " ++ addr.getD "(disabled)" }

/-- What `apply_heavy` meets when a request makes it. -/
def heavyApply (setting : HeavySetting) : ConfigStore.HeavyApply where
  resolve := resolveHeavySetting ctx s.data setting
  readError := draws.readError
  mkdirError := draws.mkdirError
  write := draws.write
  token := draws.token
  now := draws.instant

/-- The audit entry of `apply_heavy`, `heavy_settings.rs:226-288`: its target and its result, if
there is one. -/
def applyAudit (resolved : Except MgmtError ConfigStore.ResolvedHeavyWrite) :
    Option (String × String) :=
  match resolved with
  | .error e => some ("(validation)", "failed: " ++ e.text)
  | .ok resolved =>
    match draws.readError, draws.mkdirError, draws.write with
    | some _, _, _ => none
    | none, some e, _ => some (resolved.descriptor, "failed: mkdir: " ++ e)
    | none, none, .failed e => some (resolved.descriptor, "failed: write: " ++ e)
    | none, none, .failedLate e => some (resolved.descriptor, "failed: write: " ++ e)
    | none, none, .done =>
      some (resolved.descriptor ++ " (token " ++ draws.token ++ ")", "ok, pending confirmation")

def noPendingConfig : MgmtError := .internal "pending-config manager not configured on this node"

/-- `apply_heavy`, `heavy_settings.rs:208-293`. -/
def applyHeavy (setting : HeavySetting) : Except MgmtError ApplyResponse × MgmtState :=
  if !ctx.pendingConfig then (.error noPendingConfig, s)
  else
    let call := heavyApply ctx draws s setting
    let (answer, config) := s.config.applyHeavy call
    let applied := { s with config }
    let logged := match applyAudit draws (call.resolve s.config.files) with
      | none => applied
      | some (target, result) => audit ctx draws applied "ConfigApply" target result
    (answer.map fun token => { token, applied := true }, logged)

/-- `confirm_config`, `heavy_settings.rs:306-325`. -/
def confirmConfig (token : String) : Except MgmtError Unit × MgmtState :=
  if !ctx.pendingConfig then (.error noPendingConfig, s)
  else
    match s.config.confirmConfig token draws.instant with
    | (.ok _, config) => (.ok (), audit ctx draws { s with config } "ConfigConfirm" token "ok")
    | (.error e, config) =>
      (.error e,
        audit ctx draws { s with config } "ConfigConfirm" token "failed: unknown or expired token")

variable {ctx draws s}

def MgmtState.db (s : MgmtState) : ClientDbFile × Option ClientDbFile := (s.data, s.file)

@[simp]
theorem db_audit (action target result : String) :
    (audit ctx draws s action target result).db = s.db := by
  unfold audit
  split <;> rfl

/-- What a mutation leaves does not depend on the answer it computes. -/
theorem withMutation_map {α β : Type} (env : DbEnv) (now : Int) (faults : Faults)
    (data : ClientDbFile) (file : Option ClientDbFile)
    (f : ClientDbFile → Except Error (α × ClientDbFile)) (g : α → β) :
    let out := withMutation env now faults data file f
    let mapped := withMutation env now faults data file fun data =>
      (f data).map fun out => (g out.1, out.2)
    mapped.data = out.data ∧ mapped.file = out.file := by
  intro out mapped
  unfold out mapped withMutation
  by_cases hlock : faults.lock = true
  · simp only [hlock, if_true, and_self]
  by_cases hread : faults.read = true
  · simp only [hlock, hread, if_true, if_false, Bool.false_eq_true, and_self]
  cases hf : f (absorbDisk env now data file) with
  | error e => simp only [hlock, hread, if_false, hf, Except.map, Bool.false_eq_true, and_self]
  | ok out =>
    simp only [hlock, hread, if_false, hf, Except.map, Bool.false_eq_true]
    split <;> exact ⟨rfl, rfl⟩

/-- A mutation by a request is a step of the database. -/
theorem db_mutate {α : Type} {f : ClientDbFile → Except Error (α × ClientDbFile)}
    (change : DbChange) (hcheck : change.precheck ctx.db = .ok ())
    (hf : change.apply ctx.db = fun data => (f data).map fun out => ((), out.2)) :
    (mutate ctx draws s f).2.db =
      DbStep.perform ctx.db s.data s.file (.mutate change draws.now draws.faults) := by
  obtain ⟨hdata, hfile⟩ := withMutation_map ctx.db draws.now draws.faults s.data s.file f
    fun _ => ()
  simp only [DbStep.perform, hcheck, hf, hdata, hfile]
  rfl

/-- The changes that a request over the tunnel can ask for; none assigns a role. -/
def FromTunnel : DbChange → Prop
  | .insertWithOptions _ options _ => options.role = .user
  | .update _ params _ => params.role = none
  | .resetDevice _ _ => True
  | .remove _ _ => True
  | _ => False

/-- An operation leaves the client database as it is, or makes one change to it. -/
def OneChange (ctx : MgmtCtx) (draws : MgmtDraws) (s s' : MgmtState) : Prop :=
  s'.db = s.db ∨ ∃ change, FromTunnel change ∧
    s'.db = DbStep.perform ctx.db s.data s.file (.mutate change draws.now draws.faults)

theorem addClient_oneChange {args : AddClientArgs} (hrole : args.role = .user) :
    OneChange ctx draws s (addClient ctx draws s args).2 := by
  unfold addClient
  split
  · exact .inl rfl
  refine .inr ⟨.insertWithOptions args.name args.options draws.client, hrole, ?_⟩
  rw [← db_mutate _ rfl rfl]
  split
  · next heq => rw [db_audit, heq]
  · next heq => rw [db_audit, heq]

theorem updateClient_oneChange {id : String} {args : UpdateClientParams}
    (hrole : args.role = none) : OneChange ctx draws s (updateClient ctx draws s id args).2 := by
  have hdb : OneChange ctx draws s (updateDb ctx draws s id args).2 := by
    unfold updateDb
    split
    · exact .inl rfl
    · next hcheck =>
      exact .inr ⟨.update id args draws.stamp, hrole, db_mutate _ hcheck rfl⟩
  unfold updateClient
  split
  · exact .inl rfl
  split
  · next heq =>
    rw [heq] at hdb
    simpa only [OneChange, db_audit] using hdb
  · next heq =>
    rw [heq] at hdb
    simpa only [OneChange, db_audit] using hdb

theorem mutateClient_oneChange {action id : String} (change : DbChange)
    {f : ClientDbFile → Except Error (Unit × ClientDbFile)} (htunnel : FromTunnel change)
    (hcheck : change.precheck ctx.db = .ok ()) (hf : change.apply ctx.db = f) :
    OneChange ctx draws s (mutateClient ctx draws s action id f).2 := by
  have hmap : change.apply ctx.db = fun data => (f data).map fun out => ((), out.2) := by
    rw [hf]
    funext data
    cases f data <;> rfl
  refine .inr ⟨change, htunnel, ?_⟩
  rw [← db_mutate change hcheck hmap]
  unfold mutateClient
  split
  · next heq => rw [db_audit, heq]
  · next heq => rw [db_audit, heq]

theorem db_applyHeavy (setting : HeavySetting) : (applyHeavy ctx draws s setting).2.db = s.db := by
  unfold applyHeavy
  split
  · rfl
  dsimp only
  split
  · rfl
  · rw [db_audit]
    rfl

theorem db_confirmConfig (token : String) : (confirmConfig ctx draws s token).2.db = s.db := by
  unfold confirmConfig
  split
  · rfl
  split
  all_goals
    rw [db_audit]
    rfl

end AivpnSpec.Server.Mgmt
