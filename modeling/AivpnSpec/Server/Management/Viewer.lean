import AivpnSpec.Server.ClientDb.Privileges
import AivpnSpec.Server.Management.Router

/-!
# What a viewer learns, and who gets a role

A viewer's requests are answered from the state without the secrets of the clients, and change
nothing. No request over the tunnel assigns a role: whatever is asked for, every record has the
role it had before, or that of a plain user.
-/

namespace AivpnSpec.Server

open AivpnSpec.Base AivpnSpec.Common

/-- The record without its pre-shared key and without the value of the device key. -/
def ClientConfig.eraseSecrets (c : ClientConfig) : ClientConfig :=
  { c with
    psk := Vector.replicate 32 0
    devicePubkey := c.devicePubkey.map fun _ => Vector.replicate 32 0 }

def ClientDbFile.eraseSecrets (data : ClientDbFile) : ClientDbFile :=
  { data with clients := data.clients.map ClientConfig.eraseSecrets }

namespace Mgmt

def MgmtState.eraseSecrets (s : MgmtState) : MgmtState :=
  { s with data := s.data.eraseSecrets, file := s.file.map ClientDbFile.eraseSecrets }

theorem ofClient_eraseSecrets (c : ClientConfig) :
    ClientView.ofClient c.eraseSecrets = ClientView.ofClient c := by
  simp [ClientView.ofClient, ClientConfig.eraseSecrets]

theorem liveClients_eraseSecrets (data : ClientDbFile) :
    liveClients data.eraseSecrets = (liveClients data).map ClientConfig.eraseSecrets :=
  List.filter_map

theorem listClients_eraseSecrets (s : MgmtState) : listClients s.eraseSecrets = listClients s := by
  have hviews : ClientView.ofClient ∘ ClientConfig.eraseSecrets = ClientView.ofClient :=
    funext ofClient_eraseSecrets
  unfold listClients
  rw [show s.eraseSecrets.data = s.data.eraseSecrets from rfl, liveClients_eraseSecrets,
    List.map_map, hviews]

theorem status_eraseSecrets (s : MgmtState) : status s.eraseSecrets = status s := by
  have henabled : ((fun c : ClientConfig => c.enabled) ∘ ClientConfig.eraseSecrets) =
      fun c => c.enabled := rfl
  unfold status
  rw [show s.eraseSecrets.data = s.data.eraseSecrets from rfl, liveClients_eraseSecrets,
    List.length_map, List.filter_map, List.length_map, henabled]
  rfl

/-- A route that a viewer may use answers from the state without the secrets and leaves the state
as it is, whatever is drawn. -/
theorem handle_viewer (ctx : MgmtCtx) (s : MgmtState) {route : Route}
    (hget : route.method = methodGet) (hkey : route.isConnectionKey = false)
    (draws draws' : MgmtDraws) (body : Bytes) :
    (route.handle ctx draws s body).1 = (route.handle ctx draws' s.eraseSecrets body).1 ∧
    (route.handle ctx draws s body).2 = s := by
  cases route with
  | status =>
    simp only [Route.handle, status_eraseSecrets, and_self]
  | clientsList =>
    simp only [Route.handle, listClients_eraseSecrets, and_self]
  | clientGet id =>
    have hfind : findById s.eraseSecrets.data id =
        (findById s.data id).map ClientConfig.eraseSecrets := List.find?_map
    simp only [Route.handle, hfind]
    cases findById s.data id with
    | none => exact ⟨rfl, rfl⟩
    | some c =>
      simp only [Option.map_some, ofClient_eraseSecrets, and_self]
  | auditLog limit verify =>
    -- the log is not part of the client database
    cases verify <;> exact ⟨rfl, rfl⟩
  | poolNodes | poolHealth | poolLinks | masksList => exact ⟨rfl, rfl⟩
  | clientConnectionKey id => cases hkey
  | _ => cases hget

variable {ctx : MgmtCtx} {s t : MgmtState} {c' c : ClientConfig}

/-- An edit that a request over the tunnel asks for keeps the role or takes it away. -/
theorem FromTunnel.role {change : DbChange} (htunnel : FromTunnel change)
    (hedit : change.Edits c c') : c'.role = .user ∨ c'.role = c.role := by
  cases change with
  | update clientId params now =>
    obtain ⟨-, rfl⟩ := hedit
    have hnone : params.role = none := htunnel
    right
    simp [ClientConfig.applyParams, hnone]
  | resetDevice clientId now =>
    obtain rfl : c' = _ := hedit
    exact .inl rfl
  | remove clientId now =>
    obtain rfl : c' = _ := hedit
    exact .inr rfl
  | insertWithOptions name options draw => cases hedit
  | _ => cases htunnel

/-- The record is in the memory or in the file of the client database. -/
def MgmtState.Holds (s : MgmtState) (c : ClientConfig) : Prop := Held s.data s.file c

/-- The role of a plain user, or one that a record of the same client has. -/
def RoleKnown (s : MgmtState) (c' : ClientConfig) : Prop :=
  c'.role = .user ∨ ∃ c, s.Holds c ∧ c.id = c'.id ∧ c'.role = c.role

theorem roleKnown_of_version (hc : s.Holds c) (hv : c'.version = c.version) : RoleKnown s c' :=
  .inr ⟨c, hc, (id_of_version hv).symm, congrArg (fun v => v.canonical.role) hv⟩

/-- After a request every record has a role that was known. -/
theorem serve_roleKnown (r : TunnelRequest) (h : (serve ctx s r).Holds c') : RoleKnown s c' := by
  rcases serve_oneChange ctx s r with hsame | ⟨change, htunnel, hstep⟩
  · have hdb : (serve ctx s r).data = s.data ∧ (serve ctx s r).file = s.file :=
      Prod.mk.injEq .. ▸ hsame
    unfold MgmtState.Holds at h
    rw [hdb.1, hdb.2] at h
    exact .inr ⟨c', h, rfl, rfl⟩
  have hpeer : ¬(DbStep.mutate change r.draws.now r.draws.faults).FromPeer := by
    cases change with
    | merge => cases htunnel
    | _ => exact not_false
  have hheld : Held (DbStep.perform ctx.db s.data s.file
      (.mutate change r.draws.now r.draws.faults)).1 (DbStep.perform ctx.db s.data s.file
      (.mutate change r.draws.now r.draws.faults)).2 c' := by
    rw [← hstep]
    exact h
  cases perform_origin ctx.db s.data s.file _ hpeer hheld with
  | kept c hc hv => exact roleKnown_of_version hc hv
  | drawn change' now faults hmutate hnew huser => exact .inl huser
  | edited change' now faults d c hmutate hc hv hedit =>
    cases hmutate
    rcases htunnel.role hedit with huser | hsame
    · exact .inl huser
    · rcases roleKnown_of_version hc hv with huser | ⟨b, hb, hid, hrole⟩
      · exact .inl (hsame.trans huser)
      · exact .inr ⟨b, hb, hid.trans hedit.keeps.1.symm, hsame.trans hrole⟩

theorem RoleKnown.trans (h : ∀ c, t.Holds c → RoleKnown s c) (hc : RoleKnown t c') :
    RoleKnown s c' := by
  rcases hc with huser | ⟨c, hc, hid, hrole⟩
  · exact .inl huser
  · rcases h c hc with huser | ⟨b, hb, hid', hrole'⟩
    · exact .inl (hrole.trans huser)
    · exact .inr ⟨b, hb, hid'.trans hid, hrole.trans hrole'⟩

/-- Between two moments of a run no role appears. -/
theorem stateAt_roleKnown {requests : List TunnelRequest} {i j : Nat} (hij : i ≤ j)
    (h : (stateAt (serve ctx) s requests j).Holds c') :
    RoleKnown (stateAt (serve ctx) s requests i) c' := by
  refine stateAt_keeps (P := fun t : MgmtState => ∀ c, t.Holds c →
    RoleKnown (stateAt (serve ctx) s requests i) c) hij ?_ ?_ c' h
  · intro c hc
    exact .inr ⟨c, hc, rfl, rfl⟩
  · intro k r _ _ _ hknown c hc
    exact RoleKnown.trans hknown (serve_roleKnown r hc)

/-- Of two states that differ only in secrets a viewer gets the same answers, whatever is drawn,
and both stay as they are. Over every run of requests of any role, a record of the client database,
in memory or on disk, never has a higher role than some record of its client had before; a client
that is new is a plain user. -/
theorem viewer_learns_nothing (ctx : MgmtCtx) :
    (∀ s t : MgmtState, s.eraseSecrets = t.eraseSecrets →
      ∀ method path, authorize (asU8 .viewer) method path = true → ∀ body draws draws',
        (dispatch ctx draws s method path body).1 = (dispatch ctx draws' t method path body).1 ∧
        (dispatch ctx draws s method path body).2 = s ∧
        (dispatch ctx draws' t method path body).2 = t) ∧
    ∀ s requests i j, i ≤ j → ∀ c', (stateAt (serve ctx) s requests j).Holds c' →
      c'.role = .user ∨ ∃ c, (stateAt (serve ctx) s requests i).Holds c ∧ c.id = c'.id ∧
        c'.role.rank ≤ c.role.rank := by
  constructor
  · intro s t hst method path hauth body draws draws'
    obtain ⟨route, hroute, hget, hkey⟩ := authorize_viewer hauth
    obtain ⟨hanswer, hstate⟩ := handle_viewer ctx s hget hkey draws draws body
    obtain ⟨hanswer', hstate'⟩ := handle_viewer ctx t hget hkey draws' draws body
    simp only [dispatch, hroute]
    refine ⟨?_, hstate, hstate'⟩
    rw [hanswer, hanswer', hst]
  · intro s requests i j hij c' h
    rcases stateAt_roleKnown hij h with huser | ⟨c, hc, hid, hrole⟩
    · exact .inl huser
    · refine .inr ⟨c, hc, hid, ?_⟩
      rw [hrole]
      exact UInt8.le_refl c.role.rank

/-- Libraries that write the names of the clients and whether they have a device, and read every
patch as one that renames. -/
def plainCodec : Codec where
  toVec reply := match reply with
    | .clients views => some (views.flatMap fun v => utf8 v.name ++ [boolByte v.deviceBound])
    | _ => some []
  toBody e := utf8 e.code
  addClientRequest _ := none
  patchClientRequest body := if body.isEmpty then none else some
    { name := some "b", enabled := none, oneTime := none, qos := none, expiresAt := none
      exitNode := none }
  applyRequest _ := none
  confirmRequest _ := none
  parseJson _ := .error "no JSON"
  prettyJson _ := .error "no JSON"
  readToString content := (content.map Except.ok).getD (.error "no file")
  connectionKey key := .ok (utf8 key.p)
  base64 bytes := hexEncode bytes
  base64UrlSafe bytes := hexEncode bytes
  rfc3339 _ := none
  isAlphanumeric := Char.isAlphanum
  isPreset _ := false
  auditFormat := { sha256 := id, parse := fun _ => none }

/-- A node without an audit log. -/
def plainCtx : MgmtCtx where
  db := smallNode
  network := { smallNode.networkConfig with
    mtu := 1400, keepaliveSecs := none, ipv6Enabled := false, ipv6Prefix := "" }
  ipv6Text := Wire.unaryText
  codec := plainCodec
  serverPubKey := none
  serverAddr := none
  serverSigningPubkey := none
  maskOperatorPubkey := none
  audit := none
  maskDir := "/masks"
  configPath := none
  auditLogPath := none
  pendingConfig := true

/-- A request that meets no failure. -/
def plainDraws : MgmtDraws where
  client := DbWorld.drawAt "c" 20
  now := 20
  stamp := 20
  faults := Faults.none
  readError := none
  mkdirError := none
  write := .done
  token := "t"
  instant := 0
  log _ _ _ content := content

/-- A server with one client, a viewer whose secrets are all the given one. -/
def oneViewer (secret : Bytes32) : MgmtState where
  data :=
    { clients := [{ liveClient "a" 0x0a000002 10 with
        psk := secret, devicePubkey := some secret, role := .viewer }]
      nextHostOffset := 3 }
  file := none
  config := ConfigStore.starting fun _ => none
  maskFiles := none
  pool := none
  kernelLoaded := false

def renameRequest : TunnelRequest where
  role := 2
  method := methodPatch
  path := "/api/v1/clients/a"
  body := [1]
  draws := plainDraws

/-- Two servers with different secrets answer a viewer's listing alike, and renaming the client
does not raise its role. -/
theorem viewer_learns_nothing_listing :
    (dispatch plainCtx plainDraws (oneViewer deviceKey) methodGet "/api/v1/clients" []).1 =
      (dispatch plainCtx plainDraws (oneViewer DbWorld.otherKey) methodGet "/api/v1/clients" []).1 ∧
    ∀ c', (stateAt (serve plainCtx) (oneViewer deviceKey) [renameRequest] 1).Holds c' →
      c'.role = .user ∨ ∃ c, (oneViewer deviceKey).Holds c ∧ c.id = c'.id ∧
        c'.role.rank ≤ c.role.rank := by
  have hboth := viewer_learns_nothing plainCtx
  have hauth : authorize (asU8 .viewer) methodGet "/api/v1/clients" = true := by decide +kernel
  constructor
  · exact (hboth.1 (oneViewer deviceKey) (oneViewer DbWorld.otherKey) rfl methodGet
      "/api/v1/clients" hauth [] plainDraws plainDraws).1
  · intro c' h
    exact hboth.2 (oneViewer deviceKey) [renameRequest] 0 1 (by decide) c' h

end Mgmt

end AivpnSpec.Server
