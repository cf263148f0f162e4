import AivpnSpec.Server.Manager.State
import Mathlib.Logic.Relation

/-!
# What the operations of the session manager change

Every step is a creation, an operation on one session, or a row of small changes: a session is
removed or refreshed, an address is bound to a session that owns it.
-/

namespace AivpnSpec.Server

open AivpnSpec.Base AivpnSpec.Common AivpnSpec.Wire List

namespace ManagedSession

variable {env : CryptoEnv} {clock : Clock} {x : ManagedSession}

/-- Who a session belongs to. -/
structure SameOwner (x x' : ManagedSession) : Prop where
  clientId : x'.clientId = x.clientId
  vpnIp : x'.vpnIp = x.vpnIp
  isMaskedPoolPeer : x'.isMaskedPoolPeer = x.isMaskedPoolPeer
  clientAdmitted : x.clientAdmitted = true → x'.clientAdmitted = true

theorem SameOwner.refl (x : ManagedSession) : SameOwner x x := ⟨rfl, rfl, rfl, id⟩

/-- No operation changes the owner. -/
theorem sameOwner_apply (env : CryptoEnv) (clock : Clock) (x : ManagedSession) (op : Op) :
    SameOwner x (x.apply env clock op).1 := by
  cases op with
  | accept secret counter clientAddr bytes =>
    simp only [apply, accept]
    split <;> exact ⟨rfl, rfl, rfl, id⟩
  | refreshStale =>
    simp only [apply]
    split <;> exact ⟨rfl, rfl, rfl, id⟩
  | markAdmitted => exact ⟨rfl, rfl, rfl, fun _ => rfl⟩
  | _ => exact ⟨rfl, rfl, rfl, id⟩

def Op.keepsAddr (x : ManagedSession) : Op → Prop
  | .accept _ _ clientAddr _ => clientAddr = x.clientAddr
  | _ => True

theorem clientAddr_apply {op : Op} (h : op.keepsAddr x) :
    (x.apply env clock op).1.clientAddr = x.clientAddr := by
  cases op with
  | accept secret counter clientAddr bytes =>
    simp only [apply, accept]
    split
    · rfl
    · exact h
  | refreshStale =>
    simp only [apply]
    split <;> rfl
  | _ => rfl

end ManagedSession

namespace SessionManager

variable {T : Type} [DecidableEq T] {env : ManagerEnv T} (m : SessionManager T)
  {time : Option Clock} {P : SessionManager T → Prop} {step : Step T}

section Operations

variable (clock : Clock)

variable (id : SessionId)

@[simp]
theorem sessions_reindexSession (x : ManagedSession) :
    (m.reindexSession env clock id x).sessions = m.sessions := by
  unfold reindexSession
  split <;> rfl

@[simp]
theorem vpnIpMap_reindexSession (x : ManagedSession) :
    (m.reindexSession env clock id x).vpnIpMap = m.vpnIpMap := by
  unfold reindexSession
  split <;> rfl

@[simp]
theorem handshakeReplays_reindexSession (x : ManagedSession) :
    (m.reindexSession env clock id x).handshakeReplays = m.handshakeReplays := by
  unfold reindexSession
  split <;> rfl

theorem lookup_onSession (id id' : SessionId) (op : ManagedSession.Op) :
    (m.onSession env clock id op).sessions.lookup id' =
      if id' = id then (m.sessions.lookup id).map fun x => (x.apply env.crypto clock op).1
      else m.sessions.lookup id' := by
  cases hlookup : m.sessions.lookup id with
  | none =>
    have hsame : m.onSession env clock id op = m := by rw [onSession, hlookup]
    rw [hsame]
    by_cases hid : id' = id
    · rw [if_pos hid, hid, hlookup]
      rfl
    · rw [if_neg hid]
  | some x =>
    rw [onSession, hlookup]
    dsimp only
    split
    · rw [sessions_reindexSession, Table.lookup_insert_eq]
      rfl
    · rw [Table.lookup_insert_eq]
      rfl

@[simp]
theorem vpnIpMap_onSession (op : ManagedSession.Op) :
    (m.onSession env clock id op).vpnIpMap = m.vpnIpMap := by
  unfold onSession
  split
  · rfl
  dsimp only
  split
  · exact vpnIpMap_reindexSession _ _ _ _
  · rfl

@[simp]
theorem handshakeReplays_onSession (op : ManagedSession.Op) :
    (m.onSession env clock id op).handshakeReplays = m.handshakeReplays := by
  unfold onSession
  split
  · rfl
  dsimp only
  split
  · exact handshakeReplays_reindexSession _ _ _ _
  · rfl

theorem lookup_removeSession (id id' : SessionId) : (m.removeSession id).sessions.lookup id' =
      if id' = id then none else m.sessions.lookup id' := by
  cases hlookup : m.sessions.lookup id with
  | none =>
    have hsame : m.removeSession id = m := by rw [removeSession, hlookup]
    rw [hsame]
    by_cases hid : id' = id
    · rw [if_pos hid, hid, hlookup]
    · rw [if_neg hid]
  | some x =>
    rw [removeSession, hlookup]
    exact Table.lookup_erase_eq _ _ _

variable {m} in
theorem of_lookup_removeSession {id id' : SessionId} {x : ManagedSession}
    (h : (m.removeSession id).sessions.lookup id' = some x) :
    id' ≠ id ∧ m.sessions.lookup id' = some x := by
  rw [lookup_removeSession] at h
  split at h
  · cases h
  · next hid => exact ⟨hid, h⟩

@[simp]
theorem handshakeReplays_removeSession :
    (m.removeSession id).handshakeReplays = m.handshakeReplays := by
  unfold removeSession
  split <;> rfl

theorem lookup_removeAll (ids : List SessionId) (id : SessionId) :
    (m.removeAll ids).sessions.lookup id =
      if id ∈ ids then none else m.sessions.lookup id := by
  unfold removeAll
  induction ids generalizing m with
  | nil => simp
  | cons first rest ih =>
    rw [foldl_cons, ih, lookup_removeSession]
    by_cases hfirst : id = first <;> simp [hfirst]

@[simp]
theorem handshakeReplays_removeAll (ids : List SessionId) :
    (m.removeAll ids).handshakeReplays = m.handshakeReplays := by
  unfold removeAll
  induction ids generalizing m with
  | nil => rfl
  | cons first rest ih => rw [foldl_cons, ih, handshakeReplays_removeSession]

theorem removeAll_removeAll (first second : List SessionId) :
    (m.removeAll first).removeAll second = m.removeAll (first ++ second) :=
  foldl_append.symm

end Operations

/-- The operations on a session that belong to other steps. -/
def quietOp : ManagedSession.Op → Bool
  | .refreshStale => true
  | .markAdmitted => true
  | _ => false

/-- A small change at a moment. -/
inductive Change (env : ManagerEnv T) (time : Option Clock) :
    SessionManager T → SessionManager T → Prop where
  | session (m : SessionManager T) (clock : Clock) (id : SessionId) (op : ManagedSession.Op)
      (htime : time = some clock) (hquiet : quietOp op = true) :
      Change env time m (m.onSession env clock id op)
  | remove (m : SessionManager T) (id : SessionId) : Change env time m (m.removeSession id)
  | bind (m : SessionManager T) (vpnIp : Ipv4Addr) (id : SessionId) (x : ManagedSession)
      (hlookup : m.sessions.lookup id = some x) (hip : x.vpnIp = some vpnIp)
      (hroutable : x.routable = true) :
      Change env time m { m with vpnIpMap := m.vpnIpMap.insert vpnIp id }
  | detached (m : SessionManager T) (clock : Clock) (p : SessionId × ManagedSession)
      (hmem : p ∈ m.detached) : Change env time m (m.reindexSession env clock p.1 p.2)

abbrev Changes (env : ManagerEnv T) (time : Option Clock) :
    SessionManager T → SessionManager T → Prop :=
  Relation.ReflTransGen (Change env time)

/-- What every small change keeps a row of them keeps. -/
theorem Changes.keeps {m m' : SessionManager T} (h : Changes env time m m')
    (hstep : ∀ m m', Change env time m m' → P m → P m') (hm : P m) : P m' := by
  induction h with
  | refl => exact hm
  | tail _ hchange ih => exact hstep _ _ hchange ih

theorem changes_removeAll (ids : List SessionId) : Changes env time m (m.removeAll ids) := by
  unfold removeAll
  induction ids generalizing m with
  | nil => exact .refl
  | cons first rest ih => exact .head (.remove m first) (ih _)

/-- A session found by its address and its state. -/
theorem exists_of_any {lookup : Option ManagedSession} {p : ManagedSession → Bool}
    (h : lookup.any p = true) : ∃ x, lookup = some x ∧ p x = true :=
  Option.any_eq_true _ _ |>.mp h

theorem changes_getSessionByVpnIp (order : List SessionId) (vpnIp : Ipv4Addr) :
    Changes env time m (m.getSessionByVpnIp order vpnIp).2 := by
  unfold getSessionByVpnIp
  split
  · exact .refl
  split
  · next id hfind =>
    have hfound := find?_some hfind
    obtain ⟨x, hlookup, hx⟩ := exists_of_any hfound
    rw [Bool.and_eq_true, decide_eq_true_eq] at hx
    exact .single (.bind m vpnIp id x hlookup hx.1 hx.2)
  · exact .refl

theorem changes_bindVpnIp (vpnIp : Ipv4Addr) (id : SessionId) :
    Changes env time m (m.bindVpnIp vpnIp id) := by
  unfold bindVpnIp
  split
  · next hany =>
    obtain ⟨x, hlookup, hx⟩ := exists_of_any hany
    rw [Bool.and_eq_true, decide_eq_true_eq] at hx
    exact .single (.bind m vpnIp id x hlookup hx.1 hx.2)
  · exact .refl

theorem changes_rollbackFailedSession (order : List SessionId) (id : SessionId) :
    Changes env time m (m.rollbackFailedSession order id) := by
  unfold rollbackFailedSession
  split
  · exact .single (.remove m id)
  · exact .head (.remove m id) (changes_getSessionByVpnIp _ _ _)

theorem changes_expireIdle (clock : Clock) (id : SessionId) :
    Changes env time m (m.expireIdle env clock id) := by
  unfold expireIdle
  split
  · exact .refl
  · split
    · exact .single (.remove m id)
    · exact .refl

theorem changes_commitClientAdmission (clock : Clock) (id : SessionId) (gate : Bool) :
    Changes env (some clock) m (m.commitClientAdmission env clock id gate) := by
  unfold commitClientAdmission
  split
  · exact .refl
  split
  · exact .refl
  next x _ _ =>
  have hmarked : Changes env (some clock) m (m.onSession env clock id .markAdmitted) :=
    .single (.session _ _ _ _ rfl rfl)
  dsimp only
  generalize m.onSession env clock id .markAdmitted = m₁ at hmarked ⊢
  have hpeer : Changes env (some clock) m
      (if x.isMaskedPoolPeer then m₁.cleanupMaskedPeerHandshakes x.clientAddr id else m₁) := by
    split
    · exact hmarked.trans (changes_removeAll _ _)
    · exact hmarked
  generalize (if x.isMaskedPoolPeer then m₁.cleanupMaskedPeerHandshakes x.clientAddr id
    else m₁) = m₂ at hpeer ⊢
  cases x.vpnIp with
  | none =>
    cases x.clientId with
    | none => exact hpeer
    | some clientId => exact hpeer.trans (changes_removeAll _ _)
  | some vpnIp =>
    have hbind := hpeer.trans ((changes_removeAll _ _).trans
      (changes_bindVpnIp (m₂.cleanupOldSessionsForVpnIp vpnIp id) vpnIp id))
    cases x.clientId with
    | none => exact hbind
    | some clientId => exact hbind.trans (changes_removeAll _ _)

theorem changes_refreshAndFindByTag (env : ManagerEnv T) (clock : Clock) (tag : T)
    (clientIp : IpAddr) (order : List SessionId) (m : SessionManager T) :
    Changes env (some clock) m (refreshAndFindByTag env clock tag clientIp order m).2 := by
  induction order generalizing m with
  | nil => exact .refl
  | cons id rest ih =>
    unfold refreshAndFindByTag
    have hrefresh : Change env (some clock) m (m.onSession env clock id .refreshStale) :=
      .session _ _ _ _ rfl rfl
    dsimp only
    split
    · exact .single hrefresh
    · exact .head hrefresh (ih _)

theorem changes_findExistingSession (call : LookupCall T) :
    Changes env (some call.clock) m (m.findExistingSession env call).2 := by
  have hrefresh : Changes env (some call.clock) m (m.refreshWithFirst env call).2 := by
    unfold refreshWithFirst
    split
    · exact .refl
    next first _ _ =>
    have hfirst := changes_refreshAndFindByTag env call.clock first call.clientIp call.order m
    generalize refreshAndFindByTag env call.clock first call.clientIp call.order m = result
      at hfirst ⊢
    obtain ⟨answer, m'⟩ := result
    cases answer <;> exact hfirst
  unfold findExistingSession
  split
  · exact .refl
  · exact .refl
  · split
    · exact .refl
    · generalize m.refreshWithFirst env call = result at hrefresh ⊢
      obtain ⟨answer, m'⟩ := result
      cases answer with
      | some found => exact hrefresh
      | none =>
        dsimp only
        split <;> exact hrefresh

def Step.quiet : Step T → Bool
  | .createClientSession _ => false
  | .createMaskedPoolPeerSession _ => false
  | .onSession _ _ _ => false
  | _ => true

def Step.clock : Step T → Option Clock
  | .createClientSession call => some call.clock
  | .createMaskedPoolPeerSession call => some call.clock
  | .onSession clock _ _ => some clock
  | .commitClientAdmission clock _ _ => some clock
  | .removeSession _ => none
  | .expireIdle clock _ => some clock
  | .rollbackFailedSession _ _ => none
  | .bindVpnIp _ _ => none
  | .getSessionByVpnIp _ _ => none
  | .findExistingSession call => some call.clock
  | .reindexDetached clock _ => some clock

theorem changes_perform (h : step.quiet = true) :
    Changes env step.clock m (m.perform env step) := by
  cases step with
  | commitClientAdmission clock id gate => exact changes_commitClientAdmission m clock id gate
  | removeSession id => exact .single (.remove m id)
  | expireIdle clock id => exact changes_expireIdle m clock id
  | rollbackFailedSession order id => exact changes_rollbackFailedSession m order id
  | bindVpnIp vpnIp id => exact changes_bindVpnIp m vpnIp id
  | getSessionByVpnIp order vpnIp => exact changes_getSessionByVpnIp m order vpnIp
  | findExistingSession call => exact changes_findExistingSession m call
  | reindexDetached clock position =>
    simp only [perform]
    cases hdetached : m.detached[position]? with
    | none => exact .refl
    | some p => exact .single (.detached m clock p (mem_of_getElem? hdetached))
  | _ => cases h

variable (env)

/-- A session that was built is inserted after the abandoned ones are gone; otherwise only the cache
of handshakes changes. -/
theorem buildAndInsertSession_cases (clock : Clock) (clientAddr : SocketAddr) (ephPub dh1 : Bytes32)
    (presharedKey : Option Bytes32) (isMaskedPoolPeer : Bool) (abandoned : List SessionId)
    (sessionId : SessionId) (serverEph : KeyPair) :
    let keys := deriveInitialSessionKeys env dh1 presharedKey ephPub
    let claim := claimInitialKeyspace env m.handshakeReplays keys clock.now
    let built := { m with handshakeReplays := claim.2 }
    (∃ e, m.buildAndInsertSession env clock clientAddr ephPub dh1 presharedKey isMaskedPoolPeer
        abandoned sessionId serverEph = (.error e, built)) ∨
    (claim.1 = .ok () ∧ ∃ ratchetedKeys,
      m.buildAndInsertSession env clock clientAddr ephPub dh1 presharedKey isMaskedPoolPeer
          abandoned sessionId serverEph =
        (.ok sessionId, (built.removeAll abandoned).insertSession env clock sessionId
          (.opened keys ratchetedKeys clock clientAddr isMaskedPoolPeer))) := by
  dsimp only
  unfold buildAndInsertSession
  dsimp only
  generalize claimInitialKeyspace env m.handshakeReplays _ clock.now = claim
  obtain ⟨answer, replays⟩ := claim
  cases answer with
  | error e => exact .inl ⟨e, rfl⟩
  | ok u =>
    dsimp only
    split
    · exact .inl ⟨_, rfl⟩
    · exact .inr ⟨rfl, _, rfl⟩

variable (call : ClientCall)

def ClientCall.initialKeys : Option SessionKeys :=
  (env.serverKeys.computeShared env.crypto call.ephPub).map fun dh1 =>
    deriveInitialSessionKeys env dh1 call.presharedKey call.ephPub

def PeerCall.initialKeys (call : PeerCall) : Option SessionKeys :=
  (call.poolKeys.computeShared env.crypto call.ephPub).map fun dh1 =>
    deriveInitialSessionKeys env dh1 (some call.poolPsk) call.ephPub

def claimed (keys : SessionKeys) (now : Nat) : SessionManager T :=
  { m with handshakeReplays := (claimInitialKeyspace env m.handshakeReplays keys now).2 }

/-- The sessions that others remove before the first, the second, the third check and the
insertion. -/
def Interference.upTo (i : Interference) : Nat → List SessionId
  | 0 => i.beforeTotal
  | 1 => i.beforeTotal ++ i.beforeIp
  | 2 => i.beforeTotal ++ i.beforeIp ++ i.beforeSubnet
  | _ => i.beforeTotal ++ i.beforeIp ++ i.beforeSubnet ++ i.beforeBuild

def ClientCall.session (keys ratchetedKeys : SessionKeys) : ManagedSession :=
  { ManagedSession.opened keys ratchetedKeys call.clock call.clientAddr false with
    clientId := call.clientId, vpnIp := call.staticVpnIp }

def created (own : OwnSessions) (keys ratchetedKeys : SessionKeys) : SessionManager T :=
  (((((m.removeAll (call.interference.upTo 3)).claimed env keys call.clock.now).removeAll
      (own.abandoned.map Prod.fst)).insertSession env call.clock call.sessionId
    (.opened keys ratchetedKeys call.clock call.clientAddr false)).identify call.sessionId
      call.clientId call.staticVpnIp)

/-- The checks that a creation has passed. -/
structure Admissible (call : ClientCall) (own : OwnSessions) : Prop where
  scan : m.ownSessions call.clientId = .ok own
  total : ((m.removeAll (call.interference.upTo 0)).sessions.count fun _ _ => true) -
    own.abandoned.length < own.globalLimit call.clientId
  ip : (m.removeAll (call.interference.upTo 1)).countedForIp own call.clientAddr.ip < 5
  subnet : ∀ subnet, subnet24 call.clientAddr.ip = some subnet →
    (m.removeAll (call.interference.upTo 2)).countedForSubnet own subnet < 10

/-- A client session is created if all checks are passed and the keyspace is claimed. -/
theorem createClientSession_cases : (∃ e ids, ids ⊆ call.interference.upTo 3 ∧
      (m.createClientSession env call = (.error e, m.removeAll ids) ∨
        ∃ keys, call.initialKeys env = some keys ∧
          m.createClientSession env call =
            (.error e, (m.removeAll ids).claimed env keys call.clock.now))) ∨
    (∃ own keys ratchetedKeys, m.Admissible call own ∧ call.initialKeys env = some keys ∧
      (claimInitialKeyspace env m.handshakeReplays keys call.clock.now).1 = .ok () ∧
      m.createClientSession env call =
        (.ok call.sessionId, m.created env call own keys ratchetedKeys)) := by
  have hmono : ∀ n, call.interference.upTo n ⊆ call.interference.upTo 3 := by
    intro n
    match n with
    | 0 | 1 | 2 => intro id hid; simp only [Interference.upTo, mem_append] at hid ⊢; tauto
    | n + 3 => exact Subset.refl _
  unfold createClientSession
  cases hown : m.ownSessions call.clientId with
  | error e => exact .inl ⟨e, [], nil_subset _, .inl rfl⟩
  | ok own =>
    simp only [removeAll_removeAll]
    split
    · exact .inl ⟨_, call.interference.upTo 0, hmono 0, .inl rfl⟩
    next htotal =>
    split
    · exact .inl ⟨_, call.interference.upTo 1, hmono 1, .inl rfl⟩
    next hip =>
    split
    · exact .inl ⟨_, call.interference.upTo 2, hmono 2, .inl rfl⟩
    next hsubnet =>
    have hadmissible : m.Admissible call own := by
      refine ⟨hown, Nat.lt_of_not_le htotal, Nat.lt_of_not_le hip, ?_⟩
      intro subnet heq
      rw [heq, Option.any_some, decide_eq_true_eq] at hsubnet
      exact Nat.lt_of_not_le hsubnet
    cases hdh : env.serverKeys.computeShared env.crypto call.ephPub with
    | none => exact .inl ⟨_, call.interference.upTo 3, hmono 3, .inl rfl⟩
    | some dh1 =>
      have hkeys : call.initialKeys env =
          some (deriveInitialSessionKeys env dh1 call.presharedKey call.ephPub) := by
        rw [ClientCall.initialKeys, hdh]
        rfl
      dsimp only
      rcases buildAndInsertSession_cases env (m.removeAll (call.interference.upTo 3)) call.clock
          call.clientAddr call.ephPub dh1 call.presharedKey false (own.abandoned.map Prod.fst)
          call.sessionId call.serverEph with ⟨e, herror⟩ | ⟨hclaim, ratchetedKeys, hok⟩
      · refine .inl ⟨e, call.interference.upTo 3, hmono 3, .inr ⟨_, hkeys, ?_⟩⟩
        simp only [Interference.upTo] at herror ⊢
        rw [herror]
        rfl
      · rw [handshakeReplays_removeAll] at hclaim
        refine .inr ⟨own, _, ratchetedKeys, hadmissible, hkeys, hclaim, ?_⟩
        simp only [Interference.upTo] at hok ⊢
        rw [hok]
        rfl

def createdPeer (call : PeerCall) (keys ratchetedKeys : SessionKeys) : SessionManager T :=
  (m.claimed env keys call.clock.now).insertSession env call.clock call.sessionId
    (.opened keys ratchetedKeys call.clock call.clientAddr true)

/-- A masked peer is added if there is room and the keyspace is claimed. -/
theorem createMaskedPoolPeerSession_cases (call : PeerCall) :
    (∃ e, m.createMaskedPoolPeerSession env call = (.error e, m) ∨
      ∃ keys, call.initialKeys env = some keys ∧
        m.createMaskedPoolPeerSession env call =
          (.error e, m.claimed env keys call.clock.now)) ∨
    (∃ keys ratchetedKeys, (m.sessions.count fun _ _ => true) < maxSessions ∧
      call.initialKeys env = some keys ∧
      (claimInitialKeyspace env m.handshakeReplays keys call.clock.now).1 = .ok () ∧
      m.createMaskedPoolPeerSession env call =
        (.ok call.sessionId, m.createdPeer env call keys ratchetedKeys)) := by
  unfold createMaskedPoolPeerSession
  split
  · exact .inl ⟨_, .inl rfl⟩
  next hroom =>
  cases hdh : call.poolKeys.computeShared env.crypto call.ephPub with
  | none => exact .inl ⟨_, .inl rfl⟩
  | some dh1 =>
    have hkeys : call.initialKeys env =
        some (deriveInitialSessionKeys env dh1 (some call.poolPsk) call.ephPub) := by
      rw [PeerCall.initialKeys, hdh]
      rfl
    dsimp only
    rcases buildAndInsertSession_cases env m call.clock call.clientAddr call.ephPub dh1
        (some call.poolPsk) true [] call.sessionId call.serverEph with
      ⟨e, herror⟩ | ⟨hclaim, ratchetedKeys, hok⟩
    · exact .inl ⟨e, .inr ⟨_, hkeys, herror⟩⟩
    · exact .inr ⟨_, ratchetedKeys, Nat.lt_of_not_le hroom, hkeys, hclaim, hok⟩

variable {env}

/-- A step keeps what small changes and claims keep, if a creation and an operation do. -/
theorem perform_keeps {m : SessionManager T} (hm : P m)
    (hchange : ∀ m m', Change env step.clock m m' → P m → P m')
    (hclaimed : ∀ m keys now, P m → P (m.claimed env keys now))
    (hclient : ∀ call own keys ratchetedKeys, step = .createClientSession call →
      m.Admissible call own → m.perform env step = m.created env call own keys ratchetedKeys →
      P (m.created env call own keys ratchetedKeys))
    (hpeer : ∀ call keys ratchetedKeys, step = .createMaskedPoolPeerSession call →
      (m.sessions.count fun _ _ => true) < maxSessions →
      m.perform env step = m.createdPeer env call keys ratchetedKeys →
      P (m.createdPeer env call keys ratchetedKeys))
    (hop : ∀ clock id op, step = .onSession clock id op → P (m.onSession env clock id op)) :
    P (m.perform env step) := by
  by_cases hquiet : step.quiet = true
  · exact (changes_perform m hquiet).keeps hchange hm
  cases step with
  | createClientSession call =>
    have hremoved : ∀ ids, P (m.removeAll ids) :=
      fun ids => (changes_removeAll m ids).keeps hchange hm
    have hresult : m.perform env (.createClientSession call) =
      (m.createClientSession env call).2 := rfl
    rcases createClientSession_cases env m call with
      ⟨e, ids, -, herror | ⟨keys, -, herror⟩⟩ | ⟨own, keys, ratchetedKeys, hadmissible, -, -, hok⟩
    · rw [hresult, herror]
      exact hremoved ids
    · rw [hresult, herror]
      exact hclaimed _ keys _ (hremoved ids)
    · rw [hok] at hresult
      rw [hresult]
      exact hclient call own keys ratchetedKeys rfl hadmissible hresult
  | createMaskedPoolPeerSession call =>
    have hresult : m.perform env (.createMaskedPoolPeerSession call) =
      (m.createMaskedPoolPeerSession env call).2 := rfl
    rcases createMaskedPoolPeerSession_cases env m call with
      ⟨e, herror | ⟨keys, -, herror⟩⟩ | ⟨keys, ratchetedKeys, hroom, -, -, hok⟩
    · rw [hresult, herror]
      exact hm
    · rw [hresult, herror]
      exact hclaimed m keys _ hm
    · rw [hok] at hresult
      rw [hresult]
      exact hpeer call keys ratchetedKeys rfl hroom hresult
  | onSession clock id op => exact hop clock id op rfl
  | _ => exact absurd rfl hquiet

/-- The table after an insertion. -/
theorem lookup_insertSession (clock : Clock) (id id' : SessionId) (x : ManagedSession) :
    (m.insertSession env clock id x).sessions.lookup id' =
      if id' = id then some x else m.sessions.lookup id' := by
  unfold insertSession
  dsimp only
  rw [sessions_reindexSession, Table.lookup_insert_eq]

theorem lookup_identify (id id' : SessionId) (clientId : Option String)
    (staticVpnIp : Option Ipv4Addr) : (m.identify id clientId staticVpnIp).sessions.lookup id' =
      if id' = id then
        (m.sessions.lookup id).map fun x => { x with clientId, vpnIp := staticVpnIp }
      else m.sessions.lookup id' := by
  cases hlookup : m.sessions.lookup id with
  | none =>
    have hsame : m.identify id clientId staticVpnIp = m := by
      unfold identify
      rw [hlookup]
    rw [hsame]
    by_cases hid : id' = id
    · rw [if_pos hid, hid, hlookup]
      rfl
    · rw [if_neg hid]
  | some x =>
    unfold identify
    rw [hlookup]
    exact Table.lookup_insert_eq _ _ _ _

/-- The table after a creation: the abandoned sessions and those that others removed are gone. -/
theorem lookup_created (own : OwnSessions) (keys ratchetedKeys : SessionKeys) (id : SessionId) :
    (m.created env call own keys ratchetedKeys).sessions.lookup id =
      if id = call.sessionId then some (call.session keys ratchetedKeys)
      else if id ∈ own.abandoned.map Prod.fst ∨ id ∈ call.interference.upTo 3 then none
      else m.sessions.lookup id := by
  rw [created, lookup_identify, lookup_insertSession, lookup_insertSession, if_pos rfl]
  split
  · rfl
  rw [lookup_removeAll]
  by_cases habandoned : id ∈ own.abandoned.map Prod.fst
  · rw [if_pos habandoned, if_pos (.inl habandoned)]
  · rw [if_neg habandoned, claimed, lookup_removeAll]
    simp only [habandoned, false_or]

end SessionManager

end AivpnSpec.Server
