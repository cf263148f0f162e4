import AivpnSpec.Base.OwnedIndex
import AivpnSpec.Server.Session.Replay
import AivpnSpec.Wire.IpPacket
import Mathlib.Data.Finset.Sort

/-!
# Sessions as the session manager holds them

`crates/aivpn-server/src/session.rs`. Over the keys, counters and windows of a session the manager
reads who it belongs to, where it is reached, and the tags that it stores. All tags of one map are
made at one moment with the secret that the map belongs to, so a map is kept as its counters and
the time window of that moment. Tags are of any type; a clock reading has the monotonic clock and
the time window of the wall clock.
-/

namespace AivpnSpec.Server

open AivpnSpec.Base AivpnSpec.Common AivpnSpec.Wire

abbrev SessionId := Vector UInt8 16

/-- `SocketAddr`. -/
structure SocketAddr where
  ip : IpAddr
  port : UInt16
  deriving DecidableEq

/-- `Instant::now` and `compute_time_window` of `current_timestamp_ms`. -/
structure Clock where
  now : Nat
  window : UInt64

/-- What the manager takes from the libraries and its configuration. -/
structure ManagerEnv (T : Type) where
  crypto : CryptoEnv
  /-- `blake3::derive_key` with the contexts of `derive_initial_session_keys` -/
  deriveInitialKey : Bytes → SessionKeys
  generateResonanceTag : Bytes32 → Nat → UInt64 → T
  /-- the tag that eight bytes of a packet are -/
  readTag : Bytes → T
  /-- `blake3::derive_key("aivpn handshake replay tombstone v1", ..)` -/
  fingerprint : Bytes32 → Bytes32
  serverKeys : KeyPair
  idleTimeout : Nat
  hardTimeout : Nat

/-- `TagEpoch`, `session.rs:1252-1256`. -/
inductive TagEpoch where
  | active
  | ratcheted
  | grace
  deriving DecidableEq

/-- `IndexedTag`, `session.rs:1259-1264`. -/
structure IndexedTag where
  sessionId : SessionId
  counter : Nat
  timeWindow : UInt64
  epoch : TagEpoch
  deriving DecidableEq

/-- Whether the window is due to be rebuilt, `session.rs:825-836`. -/
def Session.refreshNeeded (s : Session) (now : Nat) : Bool :=
  decide (128 ≤ s.tagSearchCenter - s.tagWindowBase) || s.previousAdvanced now

/-- `tag_window_tw`, and the time windows in which the three maps of tags were made. -/
structure TagTimes where
  tagWindowTw : UInt64
  expected : UInt64
  ratcheted : UInt64
  preRatchet : UInt64

/-- What `update_tag_window` makes of the times. -/
def TagTimes.rebuilt (times : TagTimes) (window : UInt64) (previous : Bool) : TagTimes :=
  { times with
    tagWindowTw := window
    expected := window
    preRatchet := if previous then window else times.preRatchet }

def TagTimes.after (env : CryptoEnv) (times : TagTimes) (window : UInt64) (s : Session) :
    SessionStep → TagTimes
  | .updateTagWindow now => times.rebuilt window (s.previousAdvanced now)
  | .refreshTagWindowIfNeeded now =>
    if s.refreshNeeded now then times.rebuilt window (s.previousAdvanced now) else times
  | .updateRatchetedTagWindow =>
    if s.ratchetedKeys.isSome then { times with ratcheted := window } else times
  | .startRekeying now kp =>
    if (s.startRekeying env now kp).2.isSome then times.rebuilt window (s.previousAdvanced now)
    else times
  | .commitSessionRekey now clientEphPub =>
    match s.rekeyedKeys env clientEphPub with
    | none => times
    | some newKeys =>
      { times with preRatchet := times.expected }.rebuilt window
        ((s.installRekeyed now newKeys).previousAdvanced now)
  | .completeRatchet _ =>
    if s.ratchetedKeys.isSome then
      { times with preRatchet := times.expected, expected := times.ratcheted }
    else times
  | _ => times

/-- A session with the fields that the manager reads; `ingress` also has the packets accepted so
far. -/
structure ManagedSession where
  ingress : Ingress
  times : TagTimes
  clientAddr : SocketAddr
  clientId : Option String
  clientAdmitted : Bool
  isMaskedPoolPeer : Bool
  verifiedNodeId : Option String
  vpnIp : Option Ipv4Addr
  createdAt : Nat
  lastSeen : Nat

namespace ManagedSession

def core (x : ManagedSession) : Session := x.ingress.session

def routable (x : ManagedSession) : Bool := x.clientId.isNone || x.clientAdmitted

def step (env : CryptoEnv) (clock : Clock) (x : ManagedSession) (step : SessionStep) :
    ManagedSession :=
  { x with
    ingress := x.ingress.perform env step
    times := x.times.after env clock.window x.core step }

/-- The session as `remove_session` leaves it to those who still hold it. -/
def markRemoved (x : ManagedSession) : ManagedSession :=
  { x with ingress := x.ingress.setSession { x.core with removed := true } }

/-- The session as `build_and_insert_session` inserts it, `session.rs:1632-1672`. -/
def opened (keys ratchetedKeys : SessionKeys) (clock : Clock) (clientAddr : SocketAddr)
    (isMaskedPoolPeer : Bool) : ManagedSession where
  ingress := Ingress.opened keys ratchetedKeys clock.now
  times := ⟨clock.window, clock.window, clock.window, clock.window⟩
  clientAddr := clientAddr
  clientId := none
  clientAdmitted := false
  isMaskedPoolPeer := isMaskedPoolPeer
  verifiedNodeId := none
  vpnIp := none
  createdAt := clock.now
  lastSeen := clock.now

/-- The maps of tags that are indexed: the epoch, its secret and the counters. -/
def tagSources (x : ManagedSession) (now : Nat) : List (TagEpoch × Bytes32 × Finset Nat) :=
  (.active, x.core.keys.tagSecret, x.core.expectedTags) ::
    ((if x.core.isRatcheted then none else x.core.ratchetedKeys).map fun keys =>
      (TagEpoch.ratcheted, keys.tagSecret, x.core.ratchetedExpectedTags)).toList ++
    ((x.core.preRatchetKeysInGrace now).map fun keys =>
      (TagEpoch.grace, keys.tagSecret, x.core.preRatchetTags)).toList

def indexedWindows (window : UInt64) : List UInt64 := [window - 1, window, window + 1]

variable {T : Type} [DecidableEq T] (env : ManagerEnv T)

/-- The tags of a session with what the index says of them, `session.rs:1958-1994`. -/
def indexPairs (id : SessionId) (x : ManagedSession) (clock : Clock) : List (T × IndexedTag) :=
  (x.tagSources clock.now).flatMap fun (epoch, secret, counters) =>
    (counters.sort (· ≤ ·)).flatMap fun counter =>
      (indexedWindows clock.window).map fun window =>
        (env.generateResonanceTag secret counter window, ⟨id, counter, window, epoch⟩)

def indexEntries (id : SessionId) (x : ManagedSession) (clock : Clock) : Table T IndexedTag :=
  Table.ofList (x.indexPairs env id clock)

def findStored (secret : Bytes32) (counters : Finset Nat) (window : UInt64) (tag : T) :
    Option Nat :=
  (counters.sort (· ≤ ·)).find? fun counter =>
    env.generateResonanceTag secret counter window = tag

/-- The counter of a range whose tag in one of some windows is the given one; the windows are
searched in their order. -/
def findComputed (secret : Bytes32) (first count : Nat) (windows : List UInt64) (tag : T) :
    Option Nat :=
  windows.findSome? fun window =>
    (List.range' first count).find? fun counter =>
      env.generateResonanceTag secret counter window = tag

section

variable (x : ManagedSession) (clock : Clock) (tag : T)

/-- The part of `validate_tag` on the current keys, `session.rs:927-974`: the counter of the tag,
which may be a replay. -/
def findCurrent : Option Nat :=
  let secret := x.core.keys.tagSecret
  let center := x.core.tagSearchCenter
  let first := center - (tagWindowSize - 1)
  let last := saturatingAdd center x.core.windowForward
  (findStored env secret x.core.expectedTags x.times.expected tag).or
    (findComputed env secret first (last + 1 - first)
      ([clock.window, clock.window - 1, clock.window + 1].filter (· ≠ x.times.tagWindowTw)) tag)

/-- The part on the previous keys, `session.rs:977-991`. -/
def findPrevious : Option Nat :=
  (x.core.preRatchetKeysInGrace clock.now).bind fun keys =>
    findStored env keys.tagSecret x.core.preRatchetTags x.times.preRatchet tag

/-- The part on the pending keys, `session.rs:994-1015`. -/
def findRatcheted : Option Nat :=
  (if x.core.isRatcheted then none else x.core.ratchetedKeys).bind fun keys =>
    (findStored env keys.tagSecret x.core.ratchetedExpectedTags x.times.ratcheted tag).or
      (findComputed env keys.tagSecret 0 tagWindowSize [clock.window - 1, clock.window + 1] tag)

/-- `validate_tag`, `session.rs:906-1017`. -/
def validateTag : Option (Nat × Bool) :=
  match x.findCurrent env clock tag with
  | some counter => if x.core.counterIsFresh counter then some (counter, false) else none
  | none =>
    match x.findPrevious env clock tag with
    | some counter => if counter ∈ x.core.preRatchetReceived then none else some (counter, false)
    | none => (x.findRatcheted env clock tag).map fun counter => (counter, true)

end

/-- What is done to one session under its lock. -/
inductive Op where
  /-- an authenticated packet with its marks and the refresh of the window -/
  | accept (secret : Bytes32) (counter : UInt64) (clientAddr : SocketAddr) (bytes : Nat)
  | observeClientRtt (rttMs : Nat)
  /-- a stale window in `refresh_and_find_by_tag` -/
  | refreshStale
  /-- `refresh_session_tags` -/
  | reindex
  | completeRatchet
  | startRekeying (kp : KeyPair)
  | rekeyRetransmitsDue
  | commitSessionRekey (clientEphPub : Bytes32)
  | expireGrace
  | markAdmitted
  | verifyNode (nodeId : String)

/-- An accepted packet, `packet_ingress.rs:1107-1124` and `1355-1406`. -/
def accept (env : CryptoEnv) (clock : Clock) (x : ManagedSession) (secret : Bytes32)
    (counter : UInt64) (clientAddr : SocketAddr) (bytes : Nat) : ManagedSession × Bool :=
  match x.core.authenticatedCounterEpoch clock.now counter.toNat secret with
  | none => (x, false)
  | some _ =>
    let marked := x.step env clock (.accept secret counter clock.now)
    let refreshed := marked.step env clock (.refreshTagWindowIfNeeded clock.now)
    ({ refreshed.step env clock (.traffic bytes) with lastSeen := clock.now, clientAddr },
      marked.core.refreshNeeded clock.now)

/-- The session afterwards, and whether it is indexed anew. -/
def apply (env : CryptoEnv) (clock : Clock) (x : ManagedSession) : Op → ManagedSession × Bool
  | .accept secret counter clientAddr bytes => x.accept env clock secret counter clientAddr bytes
  | .observeClientRtt rttMs => (x.step env clock (.observeClientRtt rttMs), false)
  | .refreshStale =>
    if x.times.tagWindowTw = clock.window then (x, false)
    else
      ((x.step env clock (.updateTagWindow clock.now)).step env clock .updateRatchetedTagWindow,
        true)
  | .reindex => (x, true)
  | .completeRatchet =>
    (x.step env clock (.completeRatchet clock.now), x.core.ratchetedKeys.isSome)
  | .startRekeying kp =>
    (x.step env clock (.startRekeying clock.now kp),
      (x.core.startRekeying env clock.now kp).2.isSome)
  | .rekeyRetransmitsDue => (x.step env clock (.rekeyRetransmitsDue clock.now), false)
  | .commitSessionRekey clientEphPub =>
    (x.step env clock (.commitSessionRekey clock.now clientEphPub),
      (x.core.rekeyedKeys env clientEphPub).isSome)
  | .expireGrace =>
    (x.step env clock (.expireGrace clock.now),
      x.core.preRatchetExpire.any fun expire => expire ≤ clock.now)
  | .markAdmitted => ({ x with clientAdmitted := true }, false)
  | .verifyNode nodeId => ({ x with verifiedNodeId := some nodeId }, false)

end ManagedSession

end AivpnSpec.Server
