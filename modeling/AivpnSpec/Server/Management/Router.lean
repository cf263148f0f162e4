import AivpnSpec.Server.Management.Operations

/-!
# Management requests over the tunnel

`crates/aivpn-server/src/mgmt_service/tunnel_router.rs:37-452` and the gate in
`gateway/control_dispatch.rs:1416-1455`. One table of routes decides both what a role may ask for
and what is done; everything outside of it is refused.
-/

namespace AivpnSpec.Server.Mgmt

open AivpnSpec.Base AivpnSpec.Common AivpnSpec.Server

/-- `METHOD_GET`, `tunnel_router.rs:37`. -/
@[match_pattern]
def methodGet : UInt8 := 0

/-- `METHOD_POST`, `tunnel_router.rs:38`. -/
@[match_pattern]
def methodPost : UInt8 := 1

/-- `METHOD_PATCH`, `tunnel_router.rs:39`. -/
@[match_pattern]
def methodPatch : UInt8 := 2

/-- `METHOD_DELETE`, `tunnel_router.rs:40`. -/
@[match_pattern]
def methodDelete : UInt8 := 3

/-- `DEFAULT_AUDIT_LIMIT`, `tunnel_router.rs:44`. -/
def defaultAuditLimit : Nat := 200

/-- `MAX_AUDIT_LIMIT`, `tunnel_router.rs:47`. -/
def maxAuditLimit : Nat := 1000

/-- `Route`, `tunnel_router.rs:54-90`. -/
inductive Route where
  | status
  | clientsList
  | clientAdd
  | clientGet (id : String)
  | clientPatch (id : String)
  | clientDelete (id : String)
  | clientConnectionKey (id : String)
  | clientResetDevice (id : String)
  | clientRevoke (id : String)
  | auditLog (limit : Nat) (verify : Bool)
  | configApply
  | configConfirm
  | poolNodes
  | poolHealth
  | poolLinks
  | masksList
  deriving DecidableEq

/-- `usize::from_str`: decimal digits behind an optional plus sign. -/
def parseUsize (text : List Char) : Option Nat :=
  let digits := match text with
    | '+' :: rest => rest
    | chars => chars
  if digits.isEmpty || !digits.all Char.isDigit then none
  else
    let value := digits.foldl (fun n c => n * 10 + (c.toNat - '0'.toNat)) 0
    if value < 2 ^ 64 then some value else none

def queryFields (query : Option String) : List (List Char) :=
  match query with
  | none => []
  | some query => query.toList.splitOn '&'

/-- `parse_audit_limit`, `tunnel_router.rs:97-103`: the first field that sets a limit counts. -/
def parseAuditLimit (query : Option String) : Nat :=
  let raw := ((queryFields query).findSome? fun field => field.dropPrefix? "limit=".toList).bind
    parseUsize
  max 1 (min (raw.getD defaultAuditLimit) maxAuditLimit)

/-- `parse_audit_verify`, `tunnel_router.rs:109-118`. -/
def parseAuditVerify (query : Option String) : Bool :=
  (queryFields query).any fun field =>
    match Wire.splitOnce '=' (String.ofList field) with
    | some ("verify", value) => value = "1" || value = "true" || value = "yes"
    | _ => false

/-- The segments of a path that are not empty; trimming slashes at the ends changes nothing of
them. -/
def segments (path : String) : List String :=
  ((path.toList.splitOn '/').filter fun segment => !segment.isEmpty).map String.ofList

/-- `classify_route`, `tunnel_router.rs:126-166`. -/
def classifyRoute (method : UInt8) (path : String) : Option Route :=
  let (pathOnly, query) := match Wire.splitOnce '?' path with
    | some (pathOnly, query) => (pathOnly, some query)
    | none => (path, none)
  match segments pathOnly with
  | "api" :: "v1" :: rest =>
    match method, rest with
    | methodGet, ["status"] => some .status
    | methodGet, ["clients"] => some .clientsList
    | methodPost, ["clients"] => some .clientAdd
    | methodGet, ["clients", id] => some (.clientGet id)
    | methodPatch, ["clients", id] => some (.clientPatch id)
    | methodDelete, ["clients", id] => some (.clientDelete id)
    | methodGet, ["clients", id, "connection-key"] => some (.clientConnectionKey id)
    | methodPost, ["clients", id, "reset-device"] => some (.clientResetDevice id)
    | methodPost, ["clients", id, "revoke"] => some (.clientRevoke id)
    | methodGet, ["audit-log"] =>
      some (.auditLog (parseAuditLimit query) (parseAuditVerify query))
    | methodPost, ["config", "apply"] => some .configApply
    | methodPost, ["config", "confirm"] => some .configConfirm
    | methodGet, ["pool", "nodes"] => some .poolNodes
    | methodGet, ["pool", "health"] => some .poolHealth
    | methodGet, ["pool", "links"] => some .poolLinks
    | methodGet, ["masks"] => some .masksList
    | _, _ => none
  | _ => none

def Route.isConnectionKey : Route → Bool
  | .clientConnectionKey _ => true
  | _ => false

/-- `authorize`, `tunnel_router.rs:184-193`. -/
def authorize (role method : UInt8) (path : String) : Bool :=
  match classifyRoute method path with
  | none => false
  | some route =>
    if role = 2 then true
    else if role = 1 then method = methodGet && !route.isConnectionKey
    else false

/-- `ClientRole::as_u8`, `client_db/model.rs:48-50`. -/
def asU8 (role : ClientRole) : UInt8 := role.rank

/-- `json_response`, `tunnel_router.rs:220-225`. -/
def jsonResponse (codec : Codec) (status : Nat) (value : Reply) : Nat × Bytes :=
  match codec.toVec value with
  | some bytes => (status, bytes)
  | none => (500, [])

/-- `err_response`, `tunnel_router.rs:227-229`. -/
def errResponse (codec : Codec) (e : MgmtError) : Nat × Bytes :=
  (e.responseStatus, codec.toBody e.responseError)

def replyResponse (codec : Codec) (status : Nat) (answer : Except MgmtError Reply) : Nat × Bytes :=
  match answer with
  | .ok value => jsonResponse codec status value
  | .error e => errResponse codec e

def emptyResponse (codec : Codec) (answer : Except MgmtError Unit) : Nat × Bytes :=
  match answer with
  | .ok () => (204, [])
  | .error e => errResponse codec e

def badBody : MgmtError := .badRequest "Некорректный JSON или параметры запроса."

/-- The arguments of an added client, `tunnel_router.rs:315-321`. -/
def TunnelAddClientRequest.args (req : TunnelAddClientRequest) : AddClientArgs where
  name := req.name
  oneTime := req.oneTime
  expiresAt := req.expiresAt
  role := .user
  qos := req.qos

/-- The arguments of a patch, `tunnel_router.rs:340-352`. -/
def TunnelPatchClientRequest.args (req : TunnelPatchClientRequest) : UpdateClientParams where
  name := req.name
  enabled := req.enabled
  oneTime := req.oneTime
  qos := req.qos
  expiresAt := req.expiresAt
  role := none
  exitNode := req.exitNode

/-- The setting of a request, `tunnel_router.rs:402-409`. -/
def TunnelApplyRequest.setting (req : TunnelApplyRequest) : HeavySetting :=
  match req.exitNode with
  | some addr => .exitNode addr
  | none => .activeMask (req.client.getD "") (req.mask.getD "")

/-- The arms of `dispatch`, `tunnel_router.rs:303-451`. -/
def Route.handle (ctx : MgmtCtx) (draws : MgmtDraws) (s : MgmtState) (body : Bytes) :
    Route → (Nat × Bytes) × MgmtState
  | .status => (jsonResponse ctx.codec 200 (.status (Mgmt.status s)), s)
  | .clientsList => (jsonResponse ctx.codec 200 (.clients (listClients s)), s)
  | .clientAdd =>
    match ctx.codec.addClientRequest body with
    | none => (errResponse ctx.codec badBody, s)
    | some req =>
      let (answer, s) := addClient ctx draws s req.args
      (replyResponse ctx.codec 201 (answer.map .client), s)
  | .clientGet id =>
    match findById s.data id with
    | some c => (jsonResponse ctx.codec 200 (.client (.ofClient c)), s)
    | none => (errResponse ctx.codec .notFound, s)
  | .clientPatch id =>
    match ctx.codec.patchClientRequest body with
    | none => (errResponse ctx.codec badBody, s)
    | some req =>
      let (answer, s) := updateClient ctx draws s id req.args
      (replyResponse ctx.codec 200 (answer.map .client), s)
  | .clientDelete id =>
    let (answer, s) := removeClient ctx draws s id
    (emptyResponse ctx.codec answer, s)
  | .clientConnectionKey id =>
    (replyResponse ctx.codec 200 ((connectionKey ctx s id).map .connectionKey), s)
  | .clientResetDevice id =>
    let (answer, s) := resetDevice ctx draws s id
    (emptyResponse ctx.codec answer, s)
  | .clientRevoke id =>
    let (answer, s) := revoke ctx draws s id
    (emptyResponse ctx.codec answer, s)
  | .auditLog limit verify =>
    if verify then
      (replyResponse ctx.codec 200 ((auditVerify ctx s limit).map .auditVerify), s)
    else (replyResponse ctx.codec 200 ((auditTail ctx s limit).map .auditTail), s)
  | .configApply =>
    match ctx.codec.applyRequest body with
    | none => (errResponse ctx.codec badBody, s)
    | some req =>
      let (answer, s) := applyHeavy ctx draws s req.setting
      (replyResponse ctx.codec 200 (answer.map .applied), s)
  | .configConfirm =>
    match ctx.codec.confirmRequest body with
    | none => (errResponse ctx.codec badBody, s)
    | some req =>
      let (answer, s) := confirmConfig ctx draws s req.token
      (emptyResponse ctx.codec answer, s)
  | .poolNodes =>
    (jsonResponse ctx.codec 200 (.poolNodes ((s.pool.getD (.empty "none")).nodes)), s)
  | .poolHealth =>
    (jsonResponse ctx.codec 200 (.poolHealth ((s.pool.map PoolSnapshot.health).getD (.empty "none"))),
      s)
  | .poolLinks =>
    (jsonResponse ctx.codec 200 (.poolLinks ((s.pool.getD (.empty "none")).links)), s)
  | .masksList => (jsonResponse ctx.codec 200 (.masks (listMaskFiles ctx.codec s.maskFiles)), s)

/-- `dispatch`, `tunnel_router.rs:299-452`. -/
def dispatch (ctx : MgmtCtx) (draws : MgmtDraws) (s : MgmtState) (method : UInt8) (path : String)
    (body : Bytes) : (Nat × Bytes) × MgmtState :=
  match classifyRoute method path with
  | none => (errResponse ctx.codec .notFound, s)
  | some route => route.handle ctx draws s body

/-- A request over the tunnel: the role of its sender, the request, and what it meets. -/
structure TunnelRequest where
  role : UInt8
  method : UInt8
  path : String
  body : Bytes
  draws : MgmtDraws

/-- The state after a request, `gateway/control_dispatch.rs:1416-1455`. -/
def serve (ctx : MgmtCtx) (s : MgmtState) (r : TunnelRequest) : MgmtState :=
  if authorize r.role r.method r.path then (dispatch ctx r.draws s r.method r.path r.body).2 else s

def Route.method : Route → UInt8
  | .status => methodGet
  | .clientsList => methodGet
  | .clientAdd => methodPost
  | .clientGet _ => methodGet
  | .clientPatch _ => methodPatch
  | .clientDelete _ => methodDelete
  | .clientConnectionKey _ => methodGet
  | .clientResetDevice _ => methodPost
  | .clientRevoke _ => methodPost
  | .auditLog _ _ => methodGet
  | .configApply => methodPost
  | .configConfirm => methodPost
  | .poolNodes => methodGet
  | .poolHealth => methodGet
  | .poolLinks => methodGet
  | .masksList => methodGet

variable {method : UInt8} {path : String}

theorem classifyRoute_method {route : Route} (h : classifyRoute method path = some route) :
    route.method = method := by
  unfold classifyRoute at h
  split at h
  next hsplit =>
  split at h
  · split at h
    all_goals first
      | cases h
        rfl
      | cases h
  · cases h

example : classifyRoute methodGet "//api/v1/clients/7f?limit=3" = some (.clientGet "7f") := by
  decide +kernel

/-- A viewer is let through to the routes that read, except the one for credentials. -/
theorem authorize_viewer (h : authorize (asU8 .viewer) method path = true) :
    ∃ route, classifyRoute method path = some route ∧ route.method = methodGet ∧
      route.isConnectionKey = false := by
  unfold authorize at h
  cases hroute : classifyRoute method path with
  | none =>
    rw [hroute] at h
    cases h
  | some route =>
    rw [hroute] at h
    have hviewer : (decide (method = methodGet) && !route.isConnectionKey) = true := h
    rw [Bool.and_eq_true, decide_eq_true_eq, Bool.not_eq_true'] at hviewer
    exact ⟨route, rfl, (classifyRoute_method hroute).trans hviewer.1, hviewer.2⟩

/-- What a request does to the client database. -/
theorem handle_oneChange {ctx : MgmtCtx} {draws : MgmtDraws} {s : MgmtState} (route : Route)
    (body : Bytes) : OneChange ctx draws s (route.handle ctx draws s body).2 := by
  cases route with
  | clientAdd =>
    simp only [Route.handle]
    split
    · exact .inl rfl
    · exact addClient_oneChange rfl
  | clientGet id | auditLog limit verify =>
    simp only [Route.handle]
    split <;> exact .inl rfl
  | clientPatch id =>
    simp only [Route.handle]
    split
    · exact .inl rfl
    · exact updateClient_oneChange rfl
  | clientDelete id | clientRevoke id =>
    exact mutateClient_oneChange (.remove id draws.stamp) trivial rfl rfl
  | clientResetDevice id =>
    exact mutateClient_oneChange (.resetDevice id draws.stamp) trivial rfl rfl
  | configApply =>
    simp only [Route.handle]
    split
    · exact .inl rfl
    · exact .inl (db_applyHeavy _)
  | configConfirm =>
    simp only [Route.handle]
    split
    · exact .inl rfl
    · exact .inl (db_confirmConfig _)
  | _ => exact .inl rfl

theorem serve_oneChange (ctx : MgmtCtx) (s : MgmtState) (r : TunnelRequest) :
    OneChange ctx r.draws s (serve ctx s r) := by
  unfold serve dispatch
  split
  · split
    · exact .inl rfl
    · exact handle_oneChange _ _
  · exact .inl rfl

end AivpnSpec.Server.Mgmt
