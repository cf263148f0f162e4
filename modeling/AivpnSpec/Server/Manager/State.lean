import AivpnSpec.Server.Manager.Session

/-!
# The session manager

`crates/aivpn-server/src/session.rs:1268-2330`, `gateway/packet_demux.rs:50-107` and
`gateway/mod.rs:505-551`: the table of sessions, the index of their tags, the index of VPN addresses
and the cache of initial handshakes, with every operation that changes them. What is random, read
from a clock or decided elsewhere is an input, and so is the order in which a table is searched.
The two creations hold a lock against each other, admissions and ratchets, but not against removals,
so a creation says which sessions others remove between its checks. The sweeps over all sessions
are given by what they do to one session.
-/

namespace AivpnSpec.Server

open AivpnSpec.Base AivpnSpec.Common AivpnSpec.Wire

/-- `SessionManager`, `session.rs:1268-1291`. -/
structure SessionManager (T : Type) [DecidableEq T] where
  sessions : Table SessionId ManagedSession
  /-- `tag_map` and `indexed_tags` -/
  index : OwnedIndex SessionId T IndexedTag
  vpnIpMap : Table Ipv4Addr SessionId
  handshakeReplays : Table Bytes32 Nat
  /-- sessions that were removed and may still be held -/
  detached : List (SessionId × ManagedSession)

/-- `MAX_SESSIONS`, `session.rs:27`. -/
def maxSessions : Nat := 500

/-- `HANDSHAKE_REPLAY_TTL`, `session.rs:61`. -/
def handshakeReplayTtl : Nat := 60 * 1000000000

/-- `HANDSHAKE_REPLAY_CAPACITY`, `session.rs:62`. -/
def handshakeReplayCapacity : Nat := 8192

def subnet24 : IpAddr → Option UInt32
  | .v4 ip => some (ip >>> 8)
  | .v6 _ => none

namespace SessionManager

variable {T : Type} [DecidableEq T]

def empty : SessionManager T := ⟨∅, OwnedIndex.empty, ∅, ∅, []⟩

variable (env : ManagerEnv T) (m : SessionManager T)

/-- `tag_map`. -/
def tagMap : Table T IndexedTag := m.index.entries

def idsWhere (p : SessionId → ManagedSession → Bool) : List SessionId :=
  (m.sessions.entries.filter fun e => p e.1 e.2).map Sigma.fst

/-- `reindex_session`, `session.rs:1954-2007`. -/
def reindexSession (clock : Clock) (id : SessionId) (x : ManagedSession) : SessionManager T :=
  if x.core.removed then m
  else { m with index := m.index.publish IndexedTag.sessionId id (x.indexEntries env id clock) }

/-- One operation on a session of the table, with the refresh of the index that belongs to it. -/
def onSession (clock : Clock) (id : SessionId) (op : ManagedSession.Op) : SessionManager T :=
  match m.sessions.lookup id with
  | none => m
  | some x =>
    let (x, indexed) := x.apply env.crypto clock op
    let m := { m with sessions := m.sessions.insert id x }
    if indexed then m.reindexSession env clock id x else m

/-- `remove_session`, `session.rs:2202-2227`, without the kernel module. -/
def removeSession (id : SessionId) : SessionManager T :=
  match m.sessions.lookup id with
  | none => m
  | some x =>
    { m with
      sessions := m.sessions.erase id
      index := m.index.withdraw IndexedTag.sessionId id
      vpnIpMap :=
        match x.vpnIp with
        | none => m.vpnIpMap
        | some vpnIp => m.vpnIpMap.removeIf vpnIp (· = id)
      detached := (id, x.markRemoved) :: m.detached }

def removeAll (ids : List SessionId) : SessionManager T :=
  ids.foldl removeSession m

/-- The end of an idle or old session in `cleanup_expired`, `session.rs:2282-2325`. -/
def expireIdle (clock : Clock) (id : SessionId) : SessionManager T :=
  match m.sessions.lookup id with
  | none => m
  | some x =>
    if env.idleTimeout < clock.now - x.lastSeen ∨
        (0 < env.hardTimeout ∧ env.hardTimeout < clock.now - x.createdAt) then m.removeSession id
    else m

def indexedByVpnIp (vpnIp : Ipv4Addr) : Option SessionId :=
  (m.vpnIpMap.lookup vpnIp).filter fun id => (m.sessions.lookup id).any ManagedSession.routable

/-- `get_session_by_vpn_ip`, `session.rs:2140-2182`. -/
def getSessionByVpnIp (order : List SessionId) (vpnIp : Ipv4Addr) :
    Option SessionId × SessionManager T :=
  match m.indexedByVpnIp vpnIp with
  | some id => (some id, m)
  | none =>
    match order.find? fun id =>
        (m.sessions.lookup id).any fun x => x.vpnIp = some vpnIp && x.routable with
    | some id => (some id, { m with vpnIpMap := m.vpnIpMap.insert vpnIp id })
    | none => (none, m)

/-- `bind_vpn_ip`, `session.rs:2189-2198`. -/
def bindVpnIp (vpnIp : Ipv4Addr) (id : SessionId) : SessionManager T :=
  if (m.sessions.lookup id).any fun x => x.vpnIp = some vpnIp && x.routable then
    { m with vpnIpMap := m.vpnIpMap.insert vpnIp id }
  else m

/-- `rollback_failed_session`, `session.rs:1860-1873`. -/
def rollbackFailedSession (order : List SessionId) (id : SessionId) : SessionManager T :=
  match (m.sessions.lookup id).bind ManagedSession.vpnIp with
  | none => m.removeSession id
  | some vpnIp => ((m.removeSession id).getSessionByVpnIp order vpnIp).2

/-- `cleanup_masked_peer_handshakes`, `session.rs:1731-1739`. -/
def cleanupMaskedPeerHandshakes (addr : SocketAddr) (keep : SessionId) : SessionManager T :=
  m.removeAll (m.idsWhere fun id x =>
    id ≠ keep && x.isMaskedPoolPeer && x.clientAddr = addr && x.verifiedNodeId.isNone)

/-- `cleanup_old_sessions_for_vpn_ip`, `session.rs:1792-1823`. -/
def cleanupOldSessionsForVpnIp (vpnIp : Ipv4Addr) (keep : SessionId) : SessionManager T :=
  m.removeAll (m.idsWhere fun id x => x.vpnIp = some vpnIp && id ≠ keep)

/-- `cleanup_old_sessions_for_client_id`, `session.rs:1828-1857`. -/
def cleanupOldSessionsForClientId (clientId : String) (keep : SessionId) : SessionManager T :=
  m.removeAll (m.idsWhere fun id x => x.clientId = some clientId && id ≠ keep)

/-- `commit_client_admission`, `gateway/mod.rs:505-551`; `gate` is the answer of the gates that the
session has to pass. -/
def commitClientAdmission (clock : Clock) (id : SessionId) (gate : Bool) : SessionManager T :=
  match m.sessions.lookup id with
  | none => m
  | some x =>
    if x.core.removed || !x.core.isRatcheted || x.clientAdmitted || !gate then m
    else
      let m := m.onSession env clock id .markAdmitted
      let m := if x.isMaskedPoolPeer then m.cleanupMaskedPeerHandshakes x.clientAddr id else m
      let m :=
        match x.vpnIp with
        | none => m
        | some vpnIp => (m.cleanupOldSessionsForVpnIp vpnIp id).bindVpnIp vpnIp id
      match x.clientId with
      | none => m
      | some clientId => m.cleanupOldSessionsForClientId clientId id

/-- The sessions of the client that asks for a new one: the address of the one that lives, and those
whose handshake was left. -/
structure OwnSessions where
  previous : Option IpAddr
  abandoned : List (SessionId × IpAddr)

/-- The loop over the sessions, `session.rs:1462-1479`. -/
def scanOwn (clientId : String) : List (Sigma fun _ : SessionId => ManagedSession) → OwnSessions →
    Except Error OwnSessions
  | [], own => .ok own
  | ⟨id, x⟩ :: rest, own =>
    if x.clientId = some clientId then
      if !x.core.isRatcheted && !x.clientAdmitted then
        scanOwn clientId rest { own with abandoned := own.abandoned ++ [(id, x.clientAddr.ip)] }
      else if own.previous.isSome then
        .error (.session "Client replacement is already pending")
      else scanOwn clientId rest { own with previous := some x.clientAddr.ip }
    else scanOwn clientId rest own

def ownSessions : Option String → Except Error OwnSessions
  | none => .ok ⟨none, []⟩
  | some clientId => scanOwn clientId m.sessions.entries ⟨none, []⟩

/-- The sessions that others remove while a client session is created: before the number of
sessions is read, before those of the address and of the subnet are counted, and before the new one
is built. -/
structure Interference where
  beforeTotal : List SessionId
  beforeIp : List SessionId
  beforeSubnet : List SessionId
  beforeBuild : List SessionId

/-- The arguments of a creation, its clock and its draws. -/
structure ClientCall where
  clock : Clock
  clientAddr : SocketAddr
  ephPub : Bytes32
  presharedKey : Option Bytes32
  staticVpnIp : Option Ipv4Addr
  clientId : Option String
  sessionId : SessionId
  serverEph : KeyPair
  interference : Interference

/-- The arguments of the creation of a masked peer. -/
structure PeerCall where
  clock : Clock
  clientAddr : SocketAddr
  ephPub : Bytes32
  poolKeys : KeyPair
  poolPsk : Bytes32
  sessionId : SessionId
  serverEph : KeyPair

/-- The error of `compute_shared`. -/
def dhError : Error := .crypto "DH result is all-zero (possible small subgroup attack)"

/-- `derive_initial_session_keys`, `crypto.rs`. -/
def deriveInitialSessionKeys (dh : Bytes32) (psk : Option Bytes32) (clientEphPub : Bytes32) :
    SessionKeys :=
  env.deriveInitialKey
    (dh.toList ++ (psk.map Vector.toList).getD [] ++ clientEphPub.toList)

/-- `claim_initial_keyspace`, `session.rs:1682-1695`. -/
def claimInitialKeyspace (replays : Table Bytes32 Nat) (keys : SessionKeys) (now : Nat) :
    Except Error Unit × Table Bytes32 Nat :=
  let fingerprint := env.fingerprint keys.tagSecret
  let replays := replays.retain fun _ deadline => now < deadline
  if (replays.lookup fingerprint).isSome then
    (.error (.invalidPacket "Replayed initial handshake"), replays)
  else if handshakeReplayCapacity ≤ replays.count fun _ _ => true then
    (.error (.session "Handshake replay cache full"), replays)
  else (.ok (), replays.insert fingerprint (now + handshakeReplayTtl))

/-- A new session goes into the index and then into the table, `session.rs:1655-1676`. -/
def insertSession (clock : Clock) (id : SessionId) (x : ManagedSession) : SessionManager T :=
  let m := m.reindexSession env clock id x
  { m with sessions := m.sessions.insert id x }

/-- `build_and_insert_session`, `session.rs:1599-1678`. -/
def buildAndInsertSession (clock : Clock) (clientAddr : SocketAddr) (ephPub dh1 : Bytes32)
    (presharedKey : Option Bytes32) (isMaskedPoolPeer : Bool) (abandoned : List SessionId)
    (sessionId : SessionId) (serverEph : KeyPair) : Except Error SessionId × SessionManager T :=
  let initialKeys := deriveInitialSessionKeys env dh1 presharedKey ephPub
  match claimInitialKeyspace env m.handshakeReplays initialKeys clock.now with
  | (.error e, replays) => (.error e, { m with handshakeReplays := replays })
  | (.ok (), replays) =>
    let m := { m with handshakeReplays := replays }
    match serverEph.computeShared env.crypto ephPub with
    | none => (.error dhError, m)
    | some dh2 =>
      let ratchetedKeys :=
        deriveSessionKeys env.crypto dh2 (some initialKeys.sessionKey) ephPub
      let x := ManagedSession.opened initialKeys ratchetedKeys clock clientAddr isMaskedPoolPeer
      (.ok sessionId, (m.removeAll abandoned).insertSession env clock sessionId x)

/-- The limit on the number of sessions, `session.rs:1481-1485`. -/
def OwnSessions.globalLimit (own : OwnSessions) (clientId : Option String) : Nat :=
  if clientId.isSome && own.previous.isNone && own.abandoned.isEmpty then maxSessions - 10
  else maxSessions

/-- The sessions of an address that count against its limit, `session.rs:1491-1504`. -/
def countedForIp (own : OwnSessions) (ip : IpAddr) : Nat :=
  (m.sessions.count fun _ x => x.clientAddr.ip = ip) -
    ((own.abandoned.countP fun left => left.2 = ip) + if own.previous = some ip then 1 else 0)

/-- The sessions of a subnet that count against its limit, `session.rs:1511-1536`. -/
def countedForSubnet (own : OwnSessions) (subnet : UInt32) : Nat :=
  (m.sessions.count fun _ x => subnet24 x.clientAddr.ip = some subnet) -
    ((own.abandoned.countP fun left => subnet24 left.2 = some subnet) +
      if own.previous.bind subnet24 = some subnet then 1 else 0)

/-- The identity of a session that was built, `session.rs:1548-1563`. -/
def identify (id : SessionId) (clientId : Option String) (staticVpnIp : Option Ipv4Addr) :
    SessionManager T :=
  match m.sessions.lookup id with
  | none => m
  | some x =>
    { m with
      sessions := m.sessions.insert id { x with clientId, vpnIp := staticVpnIp }
      vpnIpMap :=
        match staticVpnIp, clientId with
        | some vpnIp, none => m.vpnIpMap.insert vpnIp id
        | _, _ => m.vpnIpMap }

/-- `create_client_session`, `session.rs:1451-1566`. -/
def createClientSession (call : ClientCall) : Except Error SessionId × SessionManager T :=
  match m.ownSessions call.clientId with
  | .error e => (.error e, m)
  | .ok own =>
    let m := m.removeAll call.interference.beforeTotal
    if own.globalLimit call.clientId ≤
        (m.sessions.count fun _ _ => true) - own.abandoned.length then
      (.error (.session "Max sessions reached"), m)
    else
      let m := m.removeAll call.interference.beforeIp
      if 5 ≤ m.countedForIp own call.clientAddr.ip then
        (.error (.session "Per-IP session limit reached"), m)
      else
        let m := m.removeAll call.interference.beforeSubnet
        if (subnet24 call.clientAddr.ip).any fun subnet => 10 ≤ m.countedForSubnet own subnet then
          (.error (.session "Per-subnet (/24) session limit reached"), m)
        else
          let m := m.removeAll call.interference.beforeBuild
          match env.serverKeys.computeShared env.crypto call.ephPub with
          | none => (.error dhError, m)
          | some dh1 =>
            match m.buildAndInsertSession env call.clock call.clientAddr call.ephPub dh1
                call.presharedKey false (own.abandoned.map Prod.fst) call.sessionId
                call.serverEph with
            | (.error e, m) => (.error e, m)
            | (.ok id, m) => (.ok id, m.identify id call.clientId call.staticVpnIp)

/-- `create_masked_pool_peer_session`, `session.rs:1570-1586`. -/
def createMaskedPoolPeerSession (call : PeerCall) : Except Error SessionId × SessionManager T :=
  if maxSessions ≤ m.sessions.count fun _ _ => true then
    (.error (.session "Max sessions reached"), m)
  else
    match call.poolKeys.computeShared env.crypto call.ephPub with
    | none => (.error dhError, m)
    | some dh1 =>
      m.buildAndInsertSession env call.clock call.clientAddr call.ephPub dh1 (some call.poolPsk)
        true [] call.sessionId call.serverEph

/-- `fresh` in `find_session_by_tag`, `session.rs:1903-1915`. -/
def indexedFresh (s : Session) (counter : Nat) : Bool :=
  if s.counter < counter then counter ≤ saturatingAdd s.tagSearchCenter s.windowForward
  else
    decide (s.counter - counter < tagWindowSize) &&
      !s.receivedBitmap.testBit (s.counter - counter)

/-- The keys that an entry of the index is checked with, `session.rs:1916-1930`. -/
def keysOfEntry (x : ManagedSession) (clock : Clock) (entry : IndexedTag) : Option SessionKeys :=
  match entry.epoch with
  | .active => if indexedFresh x.core entry.counter then some x.core.keys else none
  | .ratcheted => if x.core.isRatcheted then none else x.core.ratchetedKeys
  | .grace =>
    if entry.counter ∈ x.core.preRatchetTags ∧ entry.counter ∉ x.core.preRatchetReceived then
      x.core.preRatchetKeysInGrace clock.now
    else none

/-- `abs_diff` of two windows is at most 1. -/
def windowsAdjacent (a b : UInt64) : Bool :=
  decide (a.toNat ≤ b.toNat + 1) && decide (b.toNat ≤ a.toNat + 1)

/-- `find_session_by_tag`, `session.rs:1887-1951`. -/
def findSessionByTag (clock : Clock) (tag : T) : Except Error (Option (SessionId × Nat × Bool)) :=
  match m.tagMap.lookup tag with
  | none => .ok none
  | some entry =>
    match m.sessions.lookup entry.sessionId with
    | none => .ok none
    | some x =>
      if !x.core.removed && windowsAdjacent entry.timeWindow clock.window &&
          (keysOfEntry x clock entry).any fun keys =>
            env.generateResonanceTag keys.tagSecret entry.counter entry.timeWindow = tag then
        .ok (some (entry.sessionId, entry.counter, entry.epoch = .ratcheted))
      else .error (.invalidPacket "Invalid indexed tag")

/-- `refresh_and_find_by_tag`, `session.rs:2035-2061`. -/
def refreshAndFindByTag (clock : Clock) (tag : T) (clientIp : IpAddr) :
    List SessionId → SessionManager T → Option (SessionId × Nat × Bool) × SessionManager T
  | [], m => (none, m)
  | id :: rest, m =>
    let m := m.onSession env clock id .refreshStale
    match (m.sessions.lookup id).bind fun x =>
        if x.clientAddr.ip = clientIp then x.validateTag env clock tag else none with
    | some (counter, isRatcheted) => (some (id, counter, isRatcheted), m)
    | none => refreshAndFindByTag clock tag clientIp rest m

/-- `recover_session_by_tag`, `session.rs:2067-2132`: a session whose tag is found but no longer
fresh ends the search. -/
def recoverSessionByTag (clock : Clock) (tag : T) (clientIp : IpAddr) :
    List SessionId → Option (SessionId × Nat × Bool)
  | [] => none
  | id :: rest =>
    match (m.sessions.lookup id).filter fun x => x.clientAddr.ip = clientIp with
    | none => recoverSessionByTag clock tag clientIp rest
    | some x =>
      let base := x.core.tagSearchCenter
      match ManagedSession.findComputed env x.core.keys.tagSecret base
          (min (base + Session.recoveryRange) u64Max + 1 - base)
          [clock.window, clock.window - 1, clock.window + 1] tag with
      | none => recoverSessionByTag clock tag clientIp rest
      | some counter =>
        if x.core.removed || !x.core.counterIsFresh counter then none
        else some (id, counter, false)

/-- `SessionLookup`, `packet_demux.rs:5-9`. -/
inductive SessionLookup (T : Type) where
  | found (id : SessionId) (counter : Nat) (isRatcheted : Bool) (tag : T)
  | notFound
  | recoveryLimited
  deriving DecidableEq

/-- `candidate_tags`, `packet_demux.rs:15-27`. -/
def candidateTags (offsets : List Nat) (packet : Bytes) : List T :=
  offsets.filterMap fun offset =>
    if packet.length < offset + 8 then none else some (env.readTag (slice packet offset 8))

def probe (clock : Clock) : List T → Except Error (Option (SessionLookup T))
  | [] => .ok none
  | tag :: rest =>
    match m.findSessionByTag env clock tag with
    | .error e => .error e
    | .ok (some (id, counter, isRatcheted)) => .ok (some (.found id counter isRatcheted tag))
    | .ok none => probe clock rest

def recover (clock : Clock) (clientIp : IpAddr) (order : List SessionId) : List T → SessionLookup T
  | [] => .notFound
  | tag :: rest =>
    match m.recoverSessionByTag env clock tag clientIp order with
    | some (id, counter, isRatcheted) => .found id counter isRatcheted tag
    | none => recover clock clientIp order rest

/-- A packet to be found a session for. -/
structure LookupCall (T : Type) where
  clock : Clock
  tags : List T
  clientIp : IpAddr
  fallbackAllowed : Bool
  order : List SessionId

def refreshWithFirst (call : LookupCall T) : Option (SessionLookup T) × SessionManager T :=
  match call.tags with
  | [] => (none, m)
  | first :: _ =>
    match refreshAndFindByTag env call.clock first call.clientIp call.order m with
    | (some (id, counter, isRatcheted), m) => (some (.found id counter isRatcheted first), m)
    | (none, m) => (none, m)

/-- `find_existing_session`, `packet_demux.rs:50-107`. -/
def findExistingSession (call : LookupCall T) : Except Error (SessionLookup T) × SessionManager T :=
  match m.probe env call.clock call.tags with
  | .error e => (.error e, m)
  | .ok (some found) => (.ok found, m)
  | .ok none =>
    if !call.fallbackAllowed then (.ok .recoveryLimited, m)
    else
      match m.refreshWithFirst env call with
      | (some found, m) => (.ok found, m)
      | (none, m) =>
        match m.probe env call.clock call.tags with
        | .error e => (.error e, m)
        | .ok (some found) => (.ok found, m)
        | .ok none => (.ok (m.recover env call.clock call.clientIp call.order call.tags), m)

/-- What happens to the manager. -/
inductive Step (T : Type) where
  | createClientSession (call : ClientCall)
  | createMaskedPoolPeerSession (call : PeerCall)
  | onSession (clock : Clock) (id : SessionId) (op : ManagedSession.Op)
  | commitClientAdmission (clock : Clock) (id : SessionId) (gate : Bool)
  | removeSession (id : SessionId)
  | expireIdle (clock : Clock) (id : SessionId)
  | rollbackFailedSession (order : List SessionId) (id : SessionId)
  | bindVpnIp (vpnIp : Ipv4Addr) (id : SessionId)
  | getSessionByVpnIp (order : List SessionId) (vpnIp : Ipv4Addr)
  | findExistingSession (call : LookupCall T)
  /-- a worker indexes a session that was removed while it held it -/
  | reindexDetached (clock : Clock) (position : Nat)

/-- One step. -/
def perform : Step T → SessionManager T
  | .createClientSession call => (m.createClientSession env call).2
  | .createMaskedPoolPeerSession call => (m.createMaskedPoolPeerSession env call).2
  | .onSession clock id op => m.onSession env clock id op
  | .commitClientAdmission clock id gate => m.commitClientAdmission env clock id gate
  | .removeSession id => m.removeSession id
  | .expireIdle clock id => m.expireIdle env clock id
  | .rollbackFailedSession order id => m.rollbackFailedSession order id
  | .bindVpnIp vpnIp id => m.bindVpnIp vpnIp id
  | .getSessionByVpnIp order vpnIp => (m.getSessionByVpnIp order vpnIp).2
  | .findExistingSession call => (m.findExistingSession env call).2
  | .reindexDetached clock position =>
    match m.detached[position]? with
    | none => m
    | some (id, x) => m.reindexSession env clock id x

/-- The manager after the first `k` steps. -/
def after (env : ManagerEnv T) (steps : List (Step T)) (k : Nat) : SessionManager T :=
  stateAt (perform env) empty steps k

/-- Keys from checksums, and tags that say what they are made of. -/
def sampleEnv : ManagerEnv (Bytes32 × Nat × UInt64) where
  crypto := sampleCrypto
  deriveInitialKey := fun input => sampleKeys (input.foldl (fun h b => h * 5 + b) 3)
  generateResonanceTag := fun secret counter window => (secret, counter, window)
  readTag := fun bytes =>
    match bytes with
    | secret :: counter :: window :: _ => (sampleKey secret, counter.toNat, window.toUInt64)
    | _ => (sampleKey 0, 0, 0)
  fingerprint := id
  serverKeys := ⟨sampleKey 5⟩
  idleTimeout := 30000000000
  hardTimeout := 0

def sampleId (b : UInt8) : SessionId := (Vector.replicate 16 0).set 0 b

def sampleAddr : SocketAddr := ⟨.v4 3232235777, 40000⟩

def sampleCall (clock : Clock) (eph id : UInt8) (clientId : Option String) : ClientCall where
  clock := clock
  clientAddr := sampleAddr
  ephPub := sampleKey eph
  presharedKey := none
  staticVpnIp := some 167772162
  clientId := clientId
  sessionId := sampleId id
  serverEph := ⟨sampleKey 9⟩
  interference := ⟨[], [], [], []⟩

end SessionManager

end AivpnSpec.Server
