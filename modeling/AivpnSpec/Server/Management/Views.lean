import AivpnSpec.Server.AuditLog
import AivpnSpec.Server.ClientDb.Operations
import AivpnSpec.Server.PendingConfig
import AivpnSpec.Wire.NetworkConfig
import Mathlib.Data.List.Infix
import Mathlib.Data.List.Sort

/-!
# What management shows

`crates/aivpn-server/src/mgmt_service/mod.rs:50-274`, `mgmt_service/pool_view.rs:45-154` and
`crates/aivpn-common/src/mgmt_error.rs`: the state that a management request meets, the views it
returns and the errors it reports. Texts are made and parsed by libraries, which are parameters.
-/

namespace AivpnSpec.Server.Mgmt

open AivpnSpec.Base AivpnSpec.Common AivpnSpec.Server

def containsText (text part : String) : Bool := decide (part.toList <:+: text.toList)

/-- The text of an error, `aivpn-common/src/error.rs:5-27`. -/
def errorText : Error → String
  | .invalidPacket message => "Invalid packet: " ++ message
  | .session message => "Session error: " ++ message
  | .crypto message => "Crypto error: " ++ message

/-- `ManagementError`, `mgmt_error.rs:6-11`. -/
structure ManagementError where
  code : String
  message : String
  retryAfterMs : Option UInt64
  deriving DecidableEq

/-- `ManagementError::new`, `mgmt_error.rs:14-20`. -/
def ManagementError.new (code message : String) : ManagementError :=
  { code, message, retryAfterMs := none }

/-- `for_status`, `mgmt_error.rs:22-59`. -/
def ManagementError.forStatus (status : Nat) : ManagementError :=
  match status with
  | 400 => .new "invalid_request" "Проверьте параметры запроса."
  | 422 => .new "invalid_request" "Проверьте параметры запроса."
  | 401 => .new "unauthorized" "Для управления нужно подключиться к серверу."
  | 403 => .new "forbidden" "У клиента нет прав на это действие."
  | 404 => .new "not_found" "Запрошенный клиент или ресурс не найден."
  | 405 => .new "invalid_request" "Метод запроса не поддерживается."
  | 409 => .new "conflict" "Изменение конфликтует с текущим состоянием сервера."
  | 413 => .new "invalid_request" "Запрос превышает допустимый размер."
  | 415 => .new "invalid_request" "Тело запроса должно быть в формате JSON."
  | 429 => .new "rate_limited" "Запросы идут слишком часто. Повторите немного позже."
  | 503 => .new "service_unavailable" "Служба управления временно недоступна."
  | _ =>
    if 400 ≤ status ∧ status ≤ 499 then
      .new "invalid_request" "Сервер отклонил запрос. Проверьте его параметры."
    else .new "internal_error" "Внутренняя ошибка сервера. Обратитесь к администратору."

end AivpnSpec.Server.Mgmt

namespace AivpnSpec.Server.MgmtError

open AivpnSpec.Server.Mgmt

/-- `response_status`, `mod.rs:109-118`. -/
def responseStatus : MgmtError → Nat
  | .notFound => 404
  | .conflict _ => 409
  | .badRequest _ => 400
  | .forbidden => 403
  | .unavailable _ => 503
  | .internal _ => 500

/-- `response_error`, `mod.rs:121-133`. -/
def responseError (e : MgmtError) : ManagementError :=
  match e with
  | .unavailable code =>
    if code = "public_endpoint_not_configured" then
      .new code "На сервере не задан публичный адрес. Укажите server_ip в конфигурации или AIVPN_SERVER_IP."
    else if code = "server_key_not_configured" then
      .new code "На сервере не задан постоянный ключ. Укажите key_file в конфигурации или AIVPN_KEY_FILE."
    else .forStatus e.responseStatus
  | .badRequest message => .new "invalid_request" message
  | .conflict message =>
    if containsText message "already exists" || containsText message "already taken" then
      .new "conflict" "Клиент с таким именем уже существует. Выберите другое имя."
    else .forStatus e.responseStatus
  | _ => .forStatus e.responseStatus

/-- The text of an error, `mod.rs:136-147`. -/
def text : MgmtError → String
  | .notFound => "not found"
  | .conflict message => message
  | .badRequest message => message
  | .forbidden => "forbidden"
  | .unavailable message => message
  | .internal message => message

end AivpnSpec.Server.MgmtError

namespace AivpnSpec.Server.Mgmt

open AivpnSpec.Base AivpnSpec.Common AivpnSpec.Server

/-- `Ipv4Addr::to_string`. -/
def ipv4Text (ip : Ipv4Addr) : String :=
  String.intercalate "." ((Wire.octets4 ip).map fun b => toString b.toNat)

/-- `ClientView`, `mod.rs:162-179`. -/
structure ClientView where
  id : String
  name : String
  vpnIp : String
  enabled : Bool
  oneTime : Bool
  deviceBound : Bool
  createdAt : Int
  stats : ClientStats
  qos : Option ClientQos
  expiresAt : Option Int
  role : ClientRole
  exitNode : Option String
  deriving DecidableEq

/-- `ClientView::from`, `mod.rs:181-198`. -/
def ClientView.ofClient (c : ClientConfig) : ClientView where
  deviceBound := c.devicePubkey.isSome
  id := c.id
  name := c.name
  vpnIp := ipv4Text c.vpnIp
  enabled := c.enabled
  oneTime := c.oneTime
  createdAt := c.createdAt
  stats := c.stats
  qos := c.qos
  expiresAt := c.expiresAt
  role := c.role
  exitNode := c.exitNode

/-- `StatusView`, `mod.rs:203-207`. -/
structure StatusView where
  clientsTotal : Nat
  clientsEnabled : Nat
  kernelModule : Bool
  deriving DecidableEq

/-- `AuditVerifyView`, `mod.rs:258-262`. -/
structure AuditVerifyView where
  entries : List AuditEntry
  verified : Bool
  brokenAt : Option Nat
  deriving DecidableEq

/-- `PoolNodeInfo`, `pool_view.rs:46-63`. -/
structure PoolNodeInfo where
  nodeId : String
  address : Option String
  verified : Bool
  revoked : Bool
  connected : Bool
  lastSeenUnix : Option Int
  deriving DecidableEq

/-- `PoolLinkInfo`, `pool_view.rs:70-84`. -/
structure PoolLinkInfo where
  peer : String
  connected : Bool
  converged : Bool
  lastConvergedUnix : Option Int
  partitionConflict : Bool
  subnetMismatch : Bool
  deriving DecidableEq

/-- `displayed_transport`, `pool_view.rs:87-92`. -/
def displayedTransport (transport : String) : String :=
  if transport = "legacy" ∨ transport = "" then "masked" else transport

/-- `PoolHealth`, `pool_view.rs:96-116`. -/
structure PoolHealth where
  transport : String
  totalNodes : Nat
  connectedPeers : Nat
  convergedPeers : Nat
  diverged : Bool
  partitionConflict : Bool
  subnetMismatch : Bool
  deriving DecidableEq

/-- `PoolHealth::empty`, `pool_view.rs:120-130`. -/
def PoolHealth.empty (transport : String) : PoolHealth where
  transport := displayedTransport transport
  totalNodes := 0
  connectedPeers := 0
  convergedPeers := 0
  diverged := false
  partitionConflict := false
  subnetMismatch := false

/-- `PoolSnapshot`, `pool_view.rs:137-141`. -/
structure PoolSnapshot where
  nodes : List PoolNodeInfo
  links : List PoolLinkInfo
  health : PoolHealth
  deriving DecidableEq

/-- `PoolSnapshot::empty`, `pool_view.rs:147-153`. -/
def PoolSnapshot.empty (transport : String) : PoolSnapshot where
  nodes := []
  links := []
  health := PoolHealth.empty transport

/-- One entry of `list_mask_files`, `tunnel_router.rs:496-502`. -/
structure MaskInfo where
  id : String
  file : String
  sizeBytes : Nat
  modified : Option String
  generated : Bool
  deriving DecidableEq

/-- `ApplyResponse`, `heavy_settings.rs:182-185`. -/
structure ApplyResponse where
  token : String
  applied : Bool
  deriving DecidableEq

/-- The JSON of `connection_key`, `client_ops.rs:224-240`. -/
structure ConnectionKey where
  s : String
  k : String
  p : String
  i : Ipv4Addr
  n : Wire.ClientNetworkConfig
  sk : Option String
  mop : Option String
  deriving DecidableEq

/-- The values that `dispatch` serialises. -/
inductive Reply where
  | status (view : StatusView)
  | clients (views : List ClientView)
  | client (view : ClientView)
  | connectionKey (key : String)
  | auditTail (entries : List AuditEntry)
  | auditVerify (view : AuditVerifyView)
  | applied (response : ApplyResponse)
  | poolNodes (nodes : List PoolNodeInfo)
  | poolHealth (health : PoolHealth)
  | poolLinks (links : List PoolLinkInfo)
  | masks (entries : List MaskInfo)
  deriving DecidableEq

/-- `TunnelAddClientRequest`, `tunnel_router.rs:236-243`. -/
structure TunnelAddClientRequest where
  name : String
  oneTime : Bool
  expiresAt : Option Int
  qos : Option ClientQos

/-- `TunnelPatchClientRequest`, `tunnel_router.rs:251-265`; it has no role. -/
structure TunnelPatchClientRequest where
  name : Option String
  enabled : Option Bool
  oneTime : Option Bool
  qos : Option (Option ClientQos)
  expiresAt : Option (Option Int)
  exitNode : Option (Option String)

/-- `TunnelApplyRequest`, `tunnel_router.rs:275-283`. -/
structure TunnelApplyRequest where
  client : Option String
  mask : Option String
  exitNode : Option (Option String)

/-- `TunnelConfirmRequest`, `tunnel_router.rs:287-289`. -/
structure TunnelConfirmRequest where
  token : String

/-- `serde_json::Value`. -/
inductive Json where
  | null
  | bool (value : Bool)
  | number (text : String)
  | string (value : String)
  | array (items : List Json)
  | object (fields : List (String × Json))

/-- The libraries: JSON, Base64, times and characters as text, and the masks that are built in. -/
structure Codec where
  toVec : Reply → Option Bytes
  toBody : ManagementError → Bytes
  addClientRequest : Bytes → Option TunnelAddClientRequest
  patchClientRequest : Bytes → Option TunnelPatchClientRequest
  applyRequest : Bytes → Option TunnelApplyRequest
  confirmRequest : Bytes → Option TunnelConfirmRequest
  parseJson : Bytes → Except String Json
  prettyJson : Json → Except String Bytes
  readToString : Option Bytes → Except String Bytes
  connectionKey : ConnectionKey → Except String Bytes
  base64 : Bytes → String
  base64UrlSafe : Bytes → String
  rfc3339 : Nat → Option String
  isAlphanumeric : Char → Bool
  isPreset : String → Bool
  auditFormat : AuditFormat

/-- `MgmtCtx`, `mod.rs:50-84`, apart from the state. `audit` is the path of a logger that is
enabled. -/
structure MgmtCtx where
  db : DbEnv
  network : Wire.VpnNetworkConfig
  ipv6Text : Wire.Ipv6Text
  codec : Codec
  serverPubKey : Option Bytes32
  serverAddr : Option String
  serverSigningPubkey : Option Bytes32
  maskOperatorPubkey : Option Bytes32
  audit : Option String
  maskDir : String
  configPath : Option String
  auditLogPath : Option String
  pendingConfig : Bool

/-- A directory entry: its extension, name and stem if they are text, its size and the seconds of
its modification, and its content if it can be read. -/
structure MaskFile where
  extension : Option String
  fileName : Option String
  fileStem : Option String
  metadata : Option (Nat × Option Nat)
  content : Option Bytes

/-- What a request can see or change: the client database in memory and on disk, the other files
with the pending changes, the listing of the mask directory, the pool and the kernel module. -/
structure MgmtState where
  data : ClientDbFile
  file : Option ClientDbFile
  config : ConfigStore
  maskFiles : Option (List MaskFile)
  pool : Option PoolSnapshot
  kernelLoaded : Bool

/-- What a request draws, reads from the clocks and meets in the file system; `log` is what the
audit logger makes of its file for an action, a target and a result. -/
structure MgmtDraws where
  client : ClientDraw
  now : Int
  stamp : Int
  faults : Faults
  readError : Option String
  mkdirError : Option String
  write : FileOutcome
  token : String
  instant : Nat
  log : (action target result : String) → Option Bytes → Option Bytes

/-- `audit`, `mod.rs:151-155`. -/
def audit (ctx : MgmtCtx) (draws : MgmtDraws) (s : MgmtState) (action target result : String) :
    MgmtState :=
  match ctx.audit with
  | none => s
  | some path =>
    { s with
      config.files := ConfigStore.setFile s.config.files path
        (draws.log action target result (s.config.files path)) }

/-- `ClientDatabase::list_clients`, `client_db/mod.rs:493-501`. -/
def liveClients (data : ClientDbFile) : List ClientConfig := data.clients.filter fun c => !c.deleted

/-- `ClientDatabase::find_by_id`, `client_db/mod.rs:539-545`. -/
def findById (data : ClientDbFile) (id : String) : Option ClientConfig :=
  data.clients.find? (isLive id)

/-- `ClientDatabase::find_by_name`, `client_db/mod.rs:386-392`. -/
def findByName (data : ClientDbFile) (name : String) : Option ClientConfig :=
  data.clients.find? fun c => c.name = name && !c.deleted

/-- `list_clients`, `client_ops.rs:55-57`. -/
def listClients (s : MgmtState) : List ClientView := (liveClients s.data).map ClientView.ofClient

/-- `status`, `client_ops.rs:252-259`. -/
def status (s : MgmtState) : StatusView where
  clientsTotal := (liveClients s.data).length
  clientsEnabled := ((liveClients s.data).filter fun c => c.enabled).length
  kernelModule := s.kernelLoaded

/-- `audit_tail`, `mod.rs:213-246`; a log that cannot be read counts as missing. -/
def auditTail (ctx : MgmtCtx) (s : MgmtState) (limit : Nat) : Except MgmtError (List AuditEntry) :=
  match ctx.auditLogPath.bind s.config.files with
  | none => .error .notFound
  | some content => .ok (tailEntries ctx.codec.auditFormat ctx.db.blank limit content)

/-- `audit_verify`, `mod.rs:266-274`. -/
def auditVerify (ctx : MgmtCtx) (s : MgmtState) (limit : Nat) : Except MgmtError AuditVerifyView :=
  match auditTail ctx s limit with
  | .error e => .error e
  | .ok entries =>
    let brokenAt := match verifyChain ctx.codec.auditFormat entries with
      | .ok () => none
      | .error index => some index
    .ok { entries, verified := brokenAt.isNone, brokenAt }

/-- The `generated` flag of a mask, `tunnel_router.rs:491-495`. -/
def generatedFlag (codec : Codec) (content : Option Bytes) : Bool :=
  match content.map codec.parseJson with
  | some (.ok (.object fields)) =>
    match fields.lookup "generated" with
    | some (.bool generated) => generated
    | _ => false
  | _ => false

/-- `list_mask_files`, `tunnel_router.rs:459-506`. -/
def listMaskFiles (codec : Codec) (maskFiles : Option (List MaskFile)) : List MaskInfo :=
  let entries := (maskFiles.getD []).filter fun f => f.extension = some "json"
  (entries.map fun f =>
    { id := f.fileStem.getD ""
      file := f.fileName.getD ""
      sizeBytes := (f.metadata.map Prod.fst).getD 0
      modified := (f.metadata.bind Prod.snd).bind codec.rfc3339
      generated := generatedFlag codec f.content : MaskInfo }).insertionSort fun a b => a.id ≤ b.id

end AivpnSpec.Server.Mgmt
