import AivpnSpec.Base.Runs
import AivpnSpec.Client.Rekey
import AivpnSpec.Server.Session.State

/-!
# The inline rekey between a client and a server session

The two ends of `Client/Rekey` and `Server/Session/State` joined by channels that lose, delay and
reorder messages, deliver each at most once and forge none. The server's timer hands a `KeyRotate`
request to a task that seals it under the keys of that moment (`gateway/run_loop.rs:690-725`); a
response commits whatever rekey is pending (`gateway/control_dispatch.rs:1585-1615`).

While a rekey is pending that the client has answered, the client is one key ahead and receives on
the server's keys as its transition keys; otherwise both ends are on the same keys.
-/

namespace AivpnSpec

open AivpnSpec.Base AivpnSpec.Common AivpnSpec.Server AivpnSpec.Client List

/-- One client and one server session, and what is under way between them. -/
structure Tunnel where
  server : Session
  client : RekeyClient
  /-- requests that the server's timer has handed out and nobody has sealed yet -/
  outbox : List Bytes32
  /-- packets to the client: a `KeyRotate` request, or another payload -/
  toClient : List (Sealed (Option Bytes32))
  toServer : List (Sealed KeyRotateResponse)
  /-- for the history: the ephemeral keys of all the rekeys started -/
  drawn : List Bytes32
  /-- for the history: some rekey has been committed -/
  committed : Bool

/-- What can happen to the tunnel; clock readings, random draws and the fate of messages are
inputs. -/
inductive TunnelStep where
  | traffic (bytes : Nat)
  | startRekeying (now : Nat) (kp : KeyPair)
  | rekeyRetransmitsDue (now : Nat)
  | sendKeyRotate (index : Nat)
  | sendOther
  | clientReceives (index now later : Nat) (kp : KeyPair) (outcome : SendOutcome)
  | clientUploads (count : Nat)
  | serverReceives (index now : Nat)
  | loseToClient (index : Nat)
  | loseToServer (index : Nat)
  | expireGrace (now : Nat)

namespace Tunnel

def opened (session : Session) : Tunnel where
  server := session
  client := .connected session.keys
  outbox := []
  toClient := []
  toServer := []
  drawn := []
  committed := false

def serverAccepts (w : Tunnel) (now : Nat) (keys : SessionKeys) : Prop :=
  keys = w.server.keys ∨ w.server.preRatchetKeysInGrace now = some keys

instance (w : Tunnel) (now : Nat) (keys : SessionKeys) : Decidable (w.serverAccepts now keys) :=
  inferInstanceAs (Decidable (_ ∨ _))

/-- A response reaches the server, `control_dispatch.rs:1585-1615`: it commits the pending rekey,
whichever that is, and an acknowledgement leaves under the session's keys. -/
def serverHandles (env : CryptoEnv) (w : Tunnel) (packet : Sealed KeyRotateResponse)
    (now : Nat) : Tunnel :=
  if w.serverAccepts now packet.keys ∧ w.server.pendingRekeyKeypair.isSome then
    let server := w.server.commitSessionRekey env now packet.payload.newEphPub
    { w with
      server := server
      toClient := w.toClient ++ [⟨server.keys, none⟩]
      committed := w.committed || (w.server.rekeyedKeys env packet.payload.newEphPub).isSome }
  else w

def perform (env : CryptoEnv) (w : Tunnel) : TunnelStep → Tunnel
  | .traffic bytes =>
    { w with server := { w.server with bytesSinceRekey := w.server.bytesSinceRekey + bytes } }
  | .startRekeying now kp =>
    let started := w.server.startRekeying env now kp
    { w with
      server := started.1
      outbox := w.outbox ++ started.2.toList
      drawn := w.drawn ++ started.2.toList }
  | .rekeyRetransmitsDue now =>
    let swept := w.server.rekeyRetransmitsDue env now
    { w with server := swept.1, outbox := w.outbox ++ swept.2.toList }
  | .sendKeyRotate index =>
    match w.outbox[index]? with
    | none => w
    | some eph =>
      { w with
        outbox := w.outbox.eraseIdx index
        toClient := w.toClient ++ [⟨w.server.keys, some eph⟩] }
  | .sendOther => { w with toClient := w.toClient ++ [⟨w.server.keys, none⟩] }
  | .clientReceives index now later kp outcome =>
    match w.toClient[index]? with
    | none => w
    | some packet =>
      let received := w.client.receive env packet now later kp outcome
      { w with
        client := received.1
        toClient := w.toClient.eraseIdx index
        toServer := w.toServer ++ received.2 }
  | .clientUploads count =>
    let uploaded := w.client.upload count
    { w with client := uploaded.1, toServer := w.toServer ++ uploaded.2 }
  | .serverReceives index now =>
    match w.toServer[index]? with
    | none => w
    | some packet =>
      serverHandles env { w with toServer := w.toServer.eraseIdx index } packet now
  | .loseToClient index => { w with toClient := w.toClient.eraseIdx index }
  | .loseToServer index => { w with toServer := w.toServer.eraseIdx index }
  | .expireGrace now => { w with server := w.server.expireGrace now }

/-- The tunnel after the first `k` steps. -/
def after (env : CryptoEnv) (session : Session) (steps : List TunnelStep) (k : Nat) : Tunnel :=
  stateAt (perform env) (opened session) steps k

/-- No `KeyRotate` message is under way. -/
def Quiet (w : Tunnel) : Prop :=
  w.outbox.isEmpty ∧ (∀ packet ∈ w.toClient, packet.payload = none) ∧
    w.toServer.isEmpty ∧ w.client.uploadQueue.isEmpty

instance (w : Tunnel) : Decidable w.Quiet := inferInstanceAs (Decidable (_ ∧ _))

def pendingRequest (env : CryptoEnv) (w : Tunnel) : Option Bytes32 :=
  w.server.pendingRekeyKeypair.map (KeyPair.publicKeyBytes env)

def Answered (env : CryptoEnv) (w : Tunnel) : Prop :=
  (w.pendingRequest env).isSome ∧ w.client.ratchetedRekeyEphPub = w.pendingRequest env

instance (env : CryptoEnv) (w : Tunnel) : Decidable (w.Answered env) :=
  inferInstanceAs (Decidable (_ ∧ _))

/-- The transition keys do not expire, and the server does not give up, while the client is ahead
of the server; and no `KeyRotate` message outlives its rekey: the client handles a new request
only while it is the pending one, the server takes a response only for the rekey it answers. -/
def Timely (env : CryptoEnv) (w : Tunnel) : TunnelStep → Prop
  | .rekeyRetransmitsDue now =>
    (w.server.rekeyRetransmitsDue env now).1.pendingRekeyKeypair = none → ¬w.Answered env
  | .clientReceives index now _ _ _ =>
    (w.client.transitionRecvDeadline.any (· ≤ now) → ¬w.Answered env) ∧
      ∀ packet ∈ w.toClient[index]?, ∀ eph ∈ packet.payload,
        (w.client.expireTransition now).accepts packet.keys →
        w.client.ratchetedRekeyEphPub ≠ some eph → w.pendingRequest env = some eph
  | .serverReceives index now =>
    ∀ packet ∈ w.toServer[index]?, w.serverAccepts now packet.keys →
      w.server.pendingRekeyKeypair.isSome → w.pendingRequest env = some packet.payload.answers
  | _ => True

instance (env : CryptoEnv) (w : Tunnel) (step : TunnelStep) : Decidable (Timely env w step) :=
  match step with
  | .rekeyRetransmitsDue _ => inferInstanceAs (Decidable (_ → _))
  | .clientReceives index now _ _ _ =>
    inferInstanceAs (Decidable (_ ∧ ∀ packet ∈ w.toClient[index]?, ∀ eph ∈ packet.payload,
      (w.client.expireTransition now).accepts packet.keys →
      w.client.ratchetedRekeyEphPub ≠ some eph → w.pendingRequest env = some eph))
  | .serverReceives index now =>
    inferInstanceAs (Decidable (∀ packet ∈ w.toServer[index]?, w.serverAccepts now packet.keys →
      w.server.pendingRekeyKeypair.isSome →
      w.pendingRequest env = some packet.payload.answers))
  | .traffic _ | .startRekeying _ _ | .sendKeyRotate _ | .sendOther | .clientUploads _
  | .loseToClient _ | .loseToServer _ | .expireGrace _ => isTrue trivial

/-! ### The invariant -/

/-- The responses that are queued or under way. -/
def Travels (w : Tunnel) (response : KeyRotateResponse) : Prop :=
  response ∈ w.client.uploadQueue ∨ response ∈ w.toServer.map Sealed.payload

/-- How the two ends stand to each other. -/
structure InStep (env : CryptoEnv) (w : Tunnel) : Prop where
  /-- requests, answers and the pending rekey all come from rekeys that were started -/
  requests : ∀ eph, eph ∈ w.outbox ∨ (∃ packet ∈ w.toClient, packet.payload = some eph) →
    eph ∈ w.drawn
  answers : ∀ response, w.Travels response → response.answers ∈ w.drawn
  ratcheted : ∀ eph, w.client.ratchetedRekeyEphPub = some eph → eph ∈ w.drawn
  pending : ∀ eph, w.pendingRequest env = some eph → eph ∈ w.drawn
  /-- a response to the pending rekey is the one that the client switched with -/
  current : ∀ response, w.Travels response → w.pendingRequest env = some response.answers →
    w.client.ratchetedRekeyEphPub = some response.answers ∧
      w.client.rekeyResponseEph = some response.newEphPub
  /-- the client is ahead: it receives on the server's keys, and its response leads the server to
  its own -/
  ahead : w.Answered env → w.client.transitionRecvKeys = some w.server.keys ∧
    ∃ eph, w.client.rekeyResponseEph = some eph ∧
      w.server.rekeyedKeys env eph = some w.client.sessionKeys
  level : ¬w.Answered env → w.server.keys = w.client.sessionKeys

variable {env : CryptoEnv} {w w' : Tunnel} {c : RekeyClient}

theorem inStep_opened (session : Session) (hnone : session.pendingRekeyKeypair = none) :
    InStep env (opened session) := by
  have hpending : (opened session).pendingRequest env = none := by
    unfold pendingRequest opened
    rw [hnone]
    rfl
  constructor
  · rintro eph (h | ⟨packet, h, -⟩) <;> cases h
  · rintro response (h | h) <;> cases h
  · intro eph h
    cases h
  · intro eph h
    rw [hpending] at h
    cases h
  · rintro response (h | h) <;> cases h
  · intro h
    have hsome := h.1
    rw [hpending] at hsome
    cases hsome
  · intro _
    rfl

/-- Nothing that matters changes while the server's keys and pending rekey, the client's keys and
the drawn keys stay, and a new response is the one that the client gave last. -/
theorem InStep.keep (h : InStep env w) (hkeys : w'.server.keys = w.server.keys)
    (hpending : w'.server.pendingRekeyKeypair = w.server.pendingRekeyKeypair)
    (hclient : RekeyClient.SameKeys w.client w'.client) (hdrawn : w'.drawn = w.drawn)
    (hrequests : ∀ eph, eph ∈ w'.outbox ∨ (∃ packet ∈ w'.toClient, packet.payload = some eph) →
      eph ∈ w.drawn)
    (htravels : ∀ response, w'.Travels response → w.Travels response ∨
      w.client.ratchetedRekeyEphPub = some response.answers ∧
        w.client.rekeyResponseEph = some response.newEphPub) :
    InStep env w' := by
  have hrequest : w'.pendingRequest env = w.pendingRequest env := by
    unfold pendingRequest
    rw [hpending]
  have hrekeyed : ∀ eph, w'.server.rekeyedKeys env eph = w.server.rekeyedKeys env eph := by
    intro eph
    unfold Session.rekeyedKeys
    rw [hpending, hkeys]
  have hanswered : w'.Answered env ↔ w.Answered env := by
    unfold Answered
    rw [hrequest, hclient.ratcheted]
  constructor
  · rw [hdrawn]
    exact hrequests
  · rw [hdrawn]
    intro response hmem
    rcases htravels response hmem with hmem | hlast
    · exact h.answers response hmem
    · exact h.ratcheted _ hlast.1
  · rw [hdrawn, hclient.ratcheted]
    exact h.ratcheted
  · rw [hdrawn, hrequest]
    exact h.pending
  · rw [hrequest, hclient.ratcheted, hclient.response]
    intro response hmem hanswers
    rcases htravels response hmem with hmem | hlast
    · exact h.current response hmem hanswers
    · exact hlast
  · rw [hanswered, hclient.transition, hclient.response, hclient.session, hkeys]
    simp only [hrekeyed]
    exact h.ahead
  · rw [hanswered, hkeys, hclient.session]
    exact h.level

/-- A rekey that nobody has answered ends, and the server keeps its keys. -/
theorem InStep.abandon (h : InStep env w) (hopen : ¬w.Answered env)
    (hkeys : w'.server.keys = w.server.keys) (hpending : w'.server.pendingRekeyKeypair = none)
    (hrest : w'.client = w.client ∧ w'.outbox = w.outbox ∧ w'.toClient = w.toClient ∧
      w'.toServer = w.toServer ∧ w'.drawn = w.drawn) :
    InStep env w' := by
  obtain ⟨hclient, houtbox, htoClient, htoServer, hdrawn⟩ := hrest
  have hrequest : w'.pendingRequest env = none := by
    unfold pendingRequest
    rw [hpending]
    rfl
  have htravels : ∀ response, w'.Travels response → w.Travels response := by
    intro response
    unfold Travels
    rw [hclient, htoServer]
    exact id
  constructor
  · rw [houtbox, htoClient, hdrawn]
    exact h.requests
  · rw [hdrawn]
    exact fun response hresponse => h.answers response (htravels response hresponse)
  · rw [hclient, hdrawn]
    exact h.ratcheted
  · intro eph heph
    rw [hrequest] at heph
    cases heph
  · intro response _ hresponse
    rw [hrequest] at hresponse
    cases hresponse
  · intro hanswered
    have hsome := hanswered.1
    rw [hrequest] at hsome
    cases hsome
  · intro _
    rw [hkeys, hclient]
    exact h.level hopen

theorem inStep_startRekeying (h : InStep env w) (now : Nat) (kp : KeyPair)
    (hnodup : (perform env w (.startRekeying now kp)).drawn.Nodup) :
    InStep env (perform env w (.startRekeying now kp)) := by
  rcases Session.startRekeying_cases env w.server now kp with hsame | hstarted
  · simp only [perform, hsame, Option.toList_none, append_nil]
    exact h
  obtain ⟨hnone, hpending, hkeys, hsent⟩ := hstarted
  generalize hw' : perform env w (.startRekeying now kp) = w' at hnodup
  have hserver : w'.server = (w.server.startRekeying env now kp).1 := by rw [← hw']; rfl
  have hdrawn : w'.drawn = w.drawn ++ [kp.publicKeyBytes env] := by
    rw [← hw']
    simp [perform, hsent]
  have hfresh : kp.publicKeyBytes env ∉ w.drawn := by
    rw [hdrawn, nodup_append] at hnodup
    intro hmem
    exact hnodup.2.2 _ hmem _ (mem_singleton_self _) rfl
  have houtbox : w'.outbox = w.outbox ++ [kp.publicKeyBytes env] := by
    rw [← hw']
    simp [perform, hsent]
  have hclient : w'.client = w.client := by rw [← hw']; rfl
  have htoClient : w'.toClient = w.toClient := by rw [← hw']; rfl
  have htravels : ∀ response, w'.Travels response → w.Travels response := by
    intro response
    rw [← hw']
    exact id
  have hrequest : w'.pendingRequest env = some (kp.publicKeyBytes env) := by
    unfold pendingRequest
    rw [hserver, hpending]
    rfl
  -- nobody can have answered a key that was just drawn
  have hopen' : ¬w'.Answered env := by
    intro hanswered
    rw [Answered, hrequest, hclient] at hanswered
    exact hfresh (h.ratcheted _ hanswered.2)
  have hopen : ¬w.Answered env := by
    intro hanswered
    have hsome := hanswered.1
    rw [pendingRequest, hnone] at hsome
    cases hsome
  constructor
  · rw [houtbox, htoClient, hdrawn]
    rintro eph (heph | heph)
    · rcases mem_append.mp heph with heph | heph
      · exact mem_append_left _ (h.requests eph (.inl heph))
      · exact mem_append_right _ heph
    · exact mem_append_left _ (h.requests eph (.inr heph))
  · rw [hdrawn]
    exact fun response hresponse =>
      mem_append_left _ (h.answers response (htravels response hresponse))
  · rw [hclient, hdrawn]
    exact fun eph heph => mem_append_left _ (h.ratcheted eph heph)
  · intro eph heph
    rw [hrequest] at heph
    cases heph
    rw [hdrawn]
    exact mem_append_right _ (mem_singleton_self _)
  · intro response hresponse hanswers
    rw [hrequest] at hanswers
    have hdrawn := h.answers response (htravels response hresponse)
    rw [← Option.some.inj hanswers] at hdrawn
    exact absurd hdrawn hfresh
  · exact fun hanswered => absurd hanswered hopen'
  · intro _
    rw [hserver, hkeys, hclient]
    exact h.level hopen

theorem inStep_rekeyRetransmitsDue (h : InStep env w) (now : Nat)
    (htimely : Timely env w (.rekeyRetransmitsDue now)) :
    InStep env (perform env w (.rekeyRetransmitsDue now)) := by
  obtain ⟨hkeys, hpending | ⟨hnone, hsilent⟩⟩ :=
    Session.rekeyRetransmitsDue_cases env w.server now
  · refine h.keep hkeys hpending.1 (RekeyClient.sameKeys_refl _) rfl ?_ fun _ => .inl
    rintro eph (heph | heph)
    · rcases mem_append.mp heph with heph | heph
      · exact h.requests eph (.inl heph)
      · exact h.pending eph (hpending.2 eph (Option.mem_toList.mp heph))
    · exact h.requests eph (.inr heph)
  · refine h.abandon (htimely hnone) hkeys hnone ⟨rfl, ?_, rfl, rfl, rfl⟩
    simp [perform, hsilent]

/-- The client answers the pending request: it is ahead now. -/
theorem InStep.answer (hagrees : env.Agrees) {w' : Tunnel} (h : InStep env w) {eph : Bytes32}
    {kp : KeyPair} {dh : Bytes32}
    (hfresh : w.client.ratchetedRekeyEphPub ≠ some eph)
    (hrequest : w.pendingRequest env = some eph)
    (hdh : kp.computeShared env eph = some dh)
    (hserver : w'.server = w.server) (hdrawn : w'.drawn = w.drawn)
    (hsession : w'.client.sessionKeys =
      deriveSessionKeys env dh (some w.client.sessionKeys.sessionKey) (kp.publicKeyBytes env))
    (htransition : w'.client.transitionRecvKeys = some w.client.sessionKeys)
    (hratcheted : w'.client.ratchetedRekeyEphPub = some eph)
    (hresponse : w'.client.rekeyResponseEph = some (kp.publicKeyBytes env))
    (hrequests : ∀ eph, eph ∈ w'.outbox ∨ (∃ packet ∈ w'.toClient, packet.payload = some eph) →
      eph ∈ w.drawn)
    (htravels : ∀ response, w'.Travels response →
      w.Travels response ∨ response = ⟨kp.publicKeyBytes env, eph⟩) : InStep env w' := by
  have hdrawnEph := h.pending eph hrequest
  have hrequest' : w'.pendingRequest env = some eph := by
    rw [pendingRequest, hserver]
    exact hrequest
  have hlevel := h.level fun hanswered => hfresh (hanswered.2.trans hrequest)
  constructor
  · rw [hdrawn]
    exact hrequests
  · intro response hmem
    rw [hdrawn]
    rcases htravels response hmem with hmem | rfl
    · exact h.answers response hmem
    · exact hdrawnEph
  · intro eph' heph'
    rw [hratcheted] at heph'
    cases heph'
    rw [hdrawn]
    exact hdrawnEph
  · intro eph' heph'
    rw [hrequest'] at heph'
    cases heph'
    rw [hdrawn]
    exact hdrawnEph
  · intro response hmem hanswers
    rw [hrequest'] at hanswers
    rcases htravels response hmem with hmem | rfl
    · have hold := h.current response hmem (hrequest.trans hanswers)
      exact absurd (hold.1.trans hanswers.symm) hfresh
    · exact ⟨hratcheted, hresponse⟩
  · intro _
    rw [hserver, htransition, hlevel]
    refine ⟨rfl, _, hresponse, ?_⟩
    -- both ends derive from the same keys, and agree on the shared secret
    unfold Session.rekeyedKeys
    cases hpending : w.server.pendingRekeyKeypair with
    | none =>
      rw [pendingRequest, hpending] at hrequest
      cases hrequest
    | some pending =>
      rw [pendingRequest, hpending] at hrequest
      cases hrequest
      rw [computeShared_comm hagrees] at hdh
      rw [Option.bind_some, hdh, hsession, hlevel]
      rfl
  · intro hopen
    exact absurd ⟨by rw [hrequest']; rfl, hratcheted.trans hrequest'.symm⟩ hopen

/-- Expired transition keys are of no use to a client that is level with the server. -/
theorem inStep_expireTransition (h : InStep env w) (now : Nat)
    (htimely : w.client.transitionRecvDeadline.any (· ≤ now) → ¬w.Answered env) :
    InStep env { w with client := w.client.expireTransition now } := by
  rcases w.client.expireTransition_cases now with ⟨-, hsame⟩ | ⟨hexpired, hkeys, hqueue⟩
  · rw [hsame]
    exact h
  have hopen := htimely hexpired
  have hwithout : InStep env
      { w with client := { w.client with transitionRecvKeys := none } } := by
    constructor
    · exact h.requests
    · exact h.answers
    · exact h.ratcheted
    · exact h.pending
    · exact h.current
    · exact fun hanswered => absurd hanswered hopen
    · exact h.level
  refine hwithout.keep rfl rfl hkeys rfl h.requests ?_
  rintro response (hmem | hmem)
  · exact .inl (.inl (hqueue ▸ hmem))
  · exact .inl (.inr hmem)

/-- What the client queues and sends was queued before, or is new. -/
theorem travels_of_onlyAdds {result : RekeyClient × List (Sealed KeyRotateResponse)}
    {fresh : List KeyRotateResponse} (hadds : RekeyClient.OnlyAdds c result fresh)
    (hqueue : c.uploadQueue = w.client.uploadQueue) {response : KeyRotateResponse}
    (hmem : response ∈ result.1.uploadQueue ∨
      response ∈ (w.toServer ++ result.2).map Sealed.payload) :
    w.Travels response ∨ response ∈ fresh := by
  rw [map_append, mem_append] at hmem
  rcases hmem with hmem | hmem | hmem
  · rcases hadds response (.inl hmem) with hmem | hmem
    · exact .inl (.inl (hqueue ▸ hmem))
    · exact .inr hmem
  · exact .inl (.inr hmem)
  · rcases hadds response (.inr hmem) with hmem | hmem
    · exact .inl (.inl (hqueue ▸ hmem))
    · exact .inr hmem

/-- The client handles a request that it can open. -/
theorem inStep_handleKeyRotate (hagrees : env.Agrees) (h : InStep env w)
    (hsame : RekeyClient.SameKeys w.client c) (hqueue : c.uploadQueue = w.client.uploadQueue)
    {eph : Bytes32} (later : Nat) (kp : KeyPair) (outcome : SendOutcome)
    (htimely : w.client.ratchetedRekeyEphPub ≠ some eph → w.pendingRequest env = some eph)
    {toClient : List (Sealed (Option Bytes32))}
    (hrequests : ∀ eph, eph ∈ w.outbox ∨ (∃ packet ∈ toClient, packet.payload = some eph) →
      eph ∈ w.drawn) :
    InStep env
      { w with
        client := (c.handleKeyRotate env eph later kp outcome).1
        toClient := toClient
        toServer := w.toServer ++ (c.handleKeyRotate env eph later kp outcome).2 } := by
  unfold RekeyClient.handleKeyRotate
  split
  · next hratcheted =>
    obtain ⟨hkeys, hadds⟩ := c.resendResponse_cases eph later outcome
    refine h.keep rfl rfl (hsame.trans hkeys) rfl hrequests ?_
    intro response hmem
    rcases hadds with hadds | ⟨answer, hanswer, hadds⟩
    · exact .inl ((travels_of_onlyAdds hadds hqueue hmem).resolve_right not_mem_nil)
    · rcases travels_of_onlyAdds hadds hqueue hmem with hmem | hmem
      · exact .inl hmem
      · rw [mem_singleton.mp hmem, ← hsame.ratcheted, ← hsame.response]
        exact .inr ⟨hratcheted, hanswer⟩
  · next hfresh =>
    rw [hsame.ratcheted] at hfresh
    rcases c.answerRequest_cases env eph later kp outcome with
      ⟨hkeys, hadds⟩ | ⟨dh, hdh, hsession, htransition, hratcheted, hresponse, hadds⟩
    · refine h.keep rfl rfl (hsame.trans hkeys) rfl hrequests ?_
      intro response hmem
      exact .inl ((travels_of_onlyAdds hadds hqueue hmem).resolve_right not_mem_nil)
    · rw [hsame.session] at hsession htransition
      refine h.answer hagrees hfresh (htimely hfresh) hdh rfl rfl hsession htransition hratcheted
        hresponse hrequests ?_
      intro response hmem
      rcases travels_of_onlyAdds hadds hqueue hmem with hmem | hmem
      · exact .inl hmem
      · exact .inr (mem_singleton.mp hmem)

/-- No other packet to the client brings a request. -/
theorem InStep.requests_of_packets (h : InStep env w) {packets : List (Sealed (Option Bytes32))}
    (hpackets : ∀ p ∈ packets, p ∈ w.toClient ∨ p.payload = none) :
    ∀ eph, eph ∈ w.outbox ∨ (∃ packet ∈ packets, packet.payload = some eph) → eph ∈ w.drawn := by
  rintro eph (heph | ⟨p, hmem, heph⟩)
  · exact h.requests eph (.inl heph)
  · rcases hpackets p hmem with hmem | hnone
    · exact h.requests eph (.inr ⟨p, hmem, heph⟩)
    · cases hnone.symm.trans heph

theorem inStep_clientReceives (hagrees : env.Agrees) (h : InStep env w) (index now later : Nat)
    (kp : KeyPair) (outcome : SendOutcome)
    (htimely : Timely env w (.clientReceives index now later kp outcome)) :
    InStep env (perform env w (.clientReceives index now later kp outcome)) := by
  cases hpacket : w.toClient[index]? with
  | none =>
    simp only [perform, hpacket]
    exact h
  | some packet =>
    simp only [perform, hpacket]
    have hexpired := inStep_expireTransition h now htimely.1
    have hrequests := h.requests_of_packets fun _ hmem =>
      .inl (mem_of_mem_eraseIdx (i := index) hmem)
    rcases w.client.receive_cases env packet now later kp outcome with
      ⟨hkeys, hadds⟩ | ⟨eph, current, hpayload, haccepts, hcurrent, hqueue, hreceive⟩
    · refine hexpired.keep rfl rfl hkeys rfl hrequests ?_
      intro response hmem
      rcases travels_of_onlyAdds (w := { w with client := w.client.expireTransition now }) hadds
        rfl hmem with hmem | hmem
      · exact .inl hmem
      · cases hmem
    · rw [hreceive]
      refine inStep_handleKeyRotate hagrees hexpired hcurrent hqueue later kp outcome ?_ hrequests
      intro hfresh
      have hbefore : w.client.ratchetedRekeyEphPub ≠ some eph := by
        rcases w.client.expireTransition_cases now with ⟨-, hsame⟩ | ⟨-, hsame, -⟩
        · rw [← hsame]
          exact hfresh
        · rw [← hsame.ratcheted]
          exact hfresh
      exact htimely.2 packet hpacket eph hpayload haccepts hbefore

/-- A response to the pending rekey brings the server to the client's keys. -/
theorem inStep_serverHandles (h : InStep env w) {packet : Sealed KeyRotateResponse} (now : Nat)
    (hcurrent : w.pendingRequest env = some packet.payload.answers →
      w.client.ratchetedRekeyEphPub = some packet.payload.answers ∧
        w.client.rekeyResponseEph = some packet.payload.newEphPub)
    (htimely : w.serverAccepts now packet.keys → w.server.pendingRekeyKeypair.isSome →
      w.pendingRequest env = some packet.payload.answers) :
    InStep env (serverHandles env w packet now) := by
  unfold serverHandles
  split
  · next hcommits =>
    have hrequest := htimely hcommits.1 hcommits.2
    obtain ⟨hratcheted, hresponse⟩ := hcurrent hrequest
    have hanswered : w.Answered env :=
      ⟨by rw [hrequest]; rfl, hratcheted.trans hrequest.symm⟩
    obtain ⟨-, eph, heph, hrekeyed⟩ := h.ahead hanswered
    rw [hresponse] at heph
    cases heph
    obtain ⟨hpending, hkeys⟩ :=
      Session.commitSessionRekey_cases env w.server now packet.payload.newEphPub
    rw [hrekeyed] at hkeys
    generalize w.server.commitSessionRekey env now packet.payload.newEphPub = committed
      at hpending hkeys
    constructor
    · refine h.requests_of_packets fun p hmem => (mem_append.mp hmem).imp_right fun hlast => ?_
      rw [mem_singleton.mp hlast]
    · exact h.answers
    · exact h.ratcheted
    · intro eph heph
      rw [pendingRequest, hpending] at heph
      cases heph
    · intro response _ hanswers
      rw [pendingRequest, hpending] at hanswers
      cases hanswers
    · intro hanswered
      have hsome := hanswered.1
      rw [pendingRequest, hpending] at hsome
      cases hsome
    · intro _
      exact hkeys
  · exact h

/-- Losing a response changes nothing. -/
theorem InStep.loseToServer (h : InStep env w) (index : Nat) :
    InStep env { w with toServer := w.toServer.eraseIdx index } := by
  refine h.keep rfl rfl (RekeyClient.sameKeys_refl _) rfl h.requests ?_
  rintro response (hmem | hmem)
  · exact .inl (.inl hmem)
  · obtain ⟨p, hp, rfl⟩ := mem_map.mp hmem
    exact .inl (.inr (mem_map_of_mem (mem_of_mem_eraseIdx hp)))

/-- Every step that is timely keeps the two ends in step. -/
theorem inStep_perform (hagrees : env.Agrees) (h : InStep env w) (step : TunnelStep)
    (htimely : Timely env w step) (hnodup : (perform env w step).drawn.Nodup) :
    InStep env (perform env w step) := by
  have hsame := RekeyClient.sameKeys_refl w.client
  cases step with
  | traffic bytes => exact h.keep rfl rfl hsame rfl h.requests fun _ => .inl
  | startRekeying now kp => exact inStep_startRekeying h now kp hnodup
  | rekeyRetransmitsDue now => exact inStep_rekeyRetransmitsDue h now htimely
  | sendKeyRotate index =>
    cases hindex : w.outbox[index]? with
    | none =>
      simp only [perform, hindex]
      exact h
    | some eph =>
      simp only [perform, hindex]
      refine h.keep rfl rfl hsame rfl ?_ fun _ => .inl
      rintro eph' (heph | ⟨p, hmem, heph⟩)
      · exact h.requests eph' (.inl (mem_of_mem_eraseIdx heph))
      · rcases mem_append.mp hmem with hmem | hmem
        · exact h.requests eph' (.inr ⟨p, hmem, heph⟩)
        · rw [mem_singleton.mp hmem] at heph
          cases heph
          exact h.requests eph (.inl (mem_of_getElem? hindex))
  | sendOther =>
    refine h.keep rfl rfl hsame rfl (h.requests_of_packets fun p hmem => ?_) fun _ => .inl
    refine (mem_append.mp hmem).imp_right fun hlast => ?_
    rw [mem_singleton.mp hlast]
  | clientReceives index now later kp outcome =>
    exact inStep_clientReceives hagrees h index now later kp outcome htimely
  | clientUploads count =>
    refine h.keep rfl rfl ⟨rfl, rfl, rfl, rfl⟩ rfl h.requests ?_
    intro response hmem
    have hadds := w.client.upload_onlyAdds count
    exact .inl ((travels_of_onlyAdds hadds rfl hmem).resolve_right not_mem_nil)
  | serverReceives index now =>
    cases hindex : w.toServer[index]? with
    | none =>
      simp only [perform, hindex]
      exact h
    | some packet =>
      simp only [perform, hindex]
      refine inStep_serverHandles (h.loseToServer index) now ?_ (htimely packet hindex)
      exact h.current packet.payload (.inr (mem_map_of_mem (mem_of_getElem? hindex)))
  | loseToClient index =>
    exact h.keep rfl rfl hsame rfl
      (h.requests_of_packets fun _ hmem => .inl (mem_of_mem_eraseIdx hmem)) fun _ => .inl
  | loseToServer index => exact h.loseToServer index
  | expireGrace now =>
    have hserver : (w.server.expireGrace now).keys = w.server.keys ∧
        (w.server.expireGrace now).pendingRekeyKeypair = w.server.pendingRekeyKeypair := by
      unfold Session.expireGrace
      split <;> exact ⟨rfl, rfl⟩
    exact h.keep hserver.1 hserver.2 hsame rfl h.requests fun _ => .inl

/-- Drawn keys are never forgotten. -/
theorem drawn_perform (env : CryptoEnv) (w : Tunnel) (step : TunnelStep) :
    w.drawn <+: (perform env w step).drawn := by
  cases step <;> simp only [perform] <;> try exact prefix_rfl
  case startRekeying now kp => exact prefix_append _ _
  case sendKeyRotate index => split <;> exact prefix_rfl
  case clientReceives index now later kp outcome => split <;> exact prefix_rfl
  case serverReceives index now =>
    split
    · exact prefix_rfl
    · unfold serverHandles
      split <;> exact prefix_rfl

/-- The two ends are in step after every prefix of a run of timely steps. -/
theorem inStep_after (hagrees : env.Agrees) {session : Session}
    (hnone : session.pendingRekeyKeypair = none) {steps : List TunnelStep}
    (hnodup : (after env session steps steps.length).drawn.Nodup)
    (htimely : ∀ k step, steps[k]? = some step → Timely env (after env session steps k) step)
    (k : Nat) : InStep env (after env session steps k) := by
  have hprefixed : ∀ j, j ≤ steps.length →
      (after env session steps j).drawn <+: (after env session steps steps.length).drawn := by
    intro j hj
    refine stateAt_keeps (P := fun w : Tunnel => (after env session steps j).drawn <+: w.drawn) hj
      prefix_rfl ?_
    intro i step _ _ _ hi
    exact hi.trans (drawn_perform env _ step)
  refine stateAt_keeps (Nat.zero_le k) (inStep_opened session hnone) ?_
  intro i step _ _ hi hin
  refine inStep_perform hagrees hin step (htimely i step hi) ?_
  have hlt : i < steps.length := (List.getElem?_eq_some_iff.mp hi).1
  have hnext := hprefixed (i + 1) hlt
  rw [after, stateAt_succ hi] at hnext
  exact hnodup.sublist hnext.sublist

/-! ### The rekey never splits the two ends -/

/-- In a run of timely steps with distinct ephemeral keys the client always receives on the
server's keys, and whenever no rekey is pending the two ends are on the same keys. -/
theorem rekey_never_splits (env : CryptoEnv) (hagrees : env.Agrees) (session : Session)
    (hnone : session.pendingRekeyKeypair = none) (steps : List TunnelStep)
    (hnodup : (after env session steps steps.length).drawn.Nodup)
    (htimely : ∀ k step, steps[k]? = some step → Timely env (after env session steps k) step)
    (k : Nat) :
    (after env session steps k).client.accepts (after env session steps k).server.keys ∧
    ((after env session steps k).server.pendingRekeyKeypair = none →
      (after env session steps k).server.keys =
        (after env session steps k).client.sessionKeys) := by
  have h := inStep_after hagrees hnone hnodup htimely k
  generalize after env session steps k = w at h
  constructor
  · by_cases hanswered : w.Answered env
    · exact .inr (h.ahead hanswered).1
    · exact .inl (h.level hanswered)
  · intro hpending
    apply h.level
    intro hanswered
    have hsome := hanswered.1
    rw [pendingRequest, hpending] at hsome
    cases hsome

/-! ### Runs -/

def ratchetedSession : Session :=
  (Session.opened (sampleKeys 1) (sampleKeys 2) 0).completeRatchet 0

def sec (n : Nat) : Nat := n * 1000000000

def request (now : Nat) (serverKey : UInt8) : List TunnelStep :=
  [.startRekeying (sec now) ⟨sampleKey serverKey⟩, .sendKeyRotate 0]

/-- The client receives the first packet on its way, with this key for an answer. -/
def receives (now : Nat) (clientKey : UInt8) : TunnelStep :=
  .clientReceives 0 (sec now) (sec now) ⟨sampleKey clientKey⟩ (.waited 1)

def retransmit (now : Nat) : List TunnelStep :=
  [.rekeyRetransmitsDue (sec now), .sendKeyRotate 0]

def retransmitLost (now : Nat) : List TunnelStep := retransmit now ++ [.loseToClient 0]

def healedRun : List TunnelStep :=
  request 240 10 ++ [receives 240 20, .loseToServer 0] ++ retransmit 244 ++
    [receives 244 21, .serverReceives 0 (sec 245), receives 245 22]

theorem rekey_never_splits_healedRun :
    (after sampleCrypto ratchetedSession healedRun 9).committed ∧
    (after sampleCrypto ratchetedSession healedRun 9).server.keys ≠ ratchetedSession.keys ∧
    (after sampleCrypto ratchetedSession healedRun 9).server.keys =
      (after sampleCrypto ratchetedSession healedRun 9).client.sessionKeys := by
  refine ⟨by decide +kernel, by decide +kernel, ?_⟩
  have htimely : ∀ k < 9, ∀ step ∈ healedRun[k]?,
      Timely sampleCrypto (after sampleCrypto ratchetedSession healedRun k) step := by
    decide +kernel
  refine (rekey_never_splits sampleCrypto sampleCrypto_agrees ratchetedSession (by decide +kernel)
    healedRun (by decide +kernel) ?_ 9).2 (by decide +kernel)
  intro k step hstep
  exact htimely k (List.getElem?_eq_some_iff.mp hstep).1 step hstep

/-- The response is lost; the next packet, after the grace, finds the transition keys gone. -/
def expiredRun : List TunnelStep :=
  request 240 10 ++ [receives 240 20, .loseToServer 0, .sendOther, receives 260 21]

/-- All responses are lost and the server gives up; the bytes start a new rekey at once, and its
request opens under the transition keys. -/
def givenUpRun : List TunnelStep :=
  request 240 10 ++ [receives 240 20, .loseToServer 0] ++ retransmitLost 244 ++
    retransmitLost 248 ++ retransmitLost 252 ++ retransmit 256 ++
    [receives 256 21, .loseToServer 0, .rekeyRetransmitsDue (sec 260),
      .traffic Session.rekeyBytesThreshold] ++
    request 270 11 ++ [receives 271 22]

/-- The first response is late and its copy commits; the bytes start a new rekey within the grace
of the old keys, and the late response commits it. -/
def lateResponseRun : List TunnelStep :=
  request 240 10 ++ [receives 240 20] ++ retransmitLost 244 ++ retransmitLost 248 ++
    retransmitLost 252 ++ retransmit 256 ++
    [receives 256 21, .serverReceives 1 (sec 257), receives 257 22,
      .traffic Session.rekeyBytesThreshold] ++
    request 270 11 ++ [.serverReceives 0 (sec 271)]

/-- A first rekey succeeds; the second one is answered, its responses are lost and the server
gives it up. -/
def forsakenRun : List TunnelStep :=
  request 240 10 ++ [receives 240 20, .serverReceives 0 (sec 241), receives 241 21] ++
    request 390 11 ++ [receives 390 22, .loseToServer 0] ++ retransmitLost 394 ++
    retransmitLost 398 ++ retransmitLost 402 ++ retransmitLost 406 ++
    [.rekeyRetransmitsDue (sec 410)]

def endOf (steps : List TunnelStep) : Tunnel :=
  after sampleCrypto ratchetedSession steps steps.length

/-- The two ends split: when the transition keys expire before the response arrives, when a
request meets the client of an earlier one that was given up, when a response commits a later
rekey; and an answered rekey that is given up leaves them apart with nothing under way. -/
theorem rekey_splits :
    (∀ steps ∈ [expiredRun, givenUpRun, lateResponseRun],
      (endOf steps).drawn.Nodup ∧ ¬(endOf steps).client.accepts (endOf steps).server.keys) ∧
    (endOf forsakenRun).drawn.Nodup ∧ (endOf forsakenRun).committed ∧
    (endOf forsakenRun).server.pendingRekeyKeypair = none ∧ (endOf forsakenRun).Quiet ∧
    (endOf forsakenRun).server.keys ≠ (endOf forsakenRun).client.sessionKeys := by
  decide +kernel

end Tunnel

end AivpnSpec
