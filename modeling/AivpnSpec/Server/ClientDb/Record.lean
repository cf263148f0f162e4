import AivpnSpec.Common.Protocol
import Mathlib

/-!
# Client records

`crates/aivpn-server/src/client_db/model.rs` and the canonical encoding of a record,
`merge.rs:24-104`. Timestamps are nanoseconds since the epoch; the digests see milliseconds.
BLAKE3 and the JSON text of the QoS settings are parameters.
-/

namespace AivpnSpec.Server

open AivpnSpec.Base AivpnSpec.Common

/-- An `Ipv4Addr` as its 32-bit number. -/
abbrev Ipv4Addr := UInt32

/-- `ClientRole`, `model.rs:21-27`. -/
inductive ClientRole where
  | user
  | viewer
  | admin
  deriving DecidableEq, Repr

/-- `ClientRole::rank`, `model.rs:35-41`. -/
def ClientRole.rank : ClientRole → UInt8
  | .user => 0
  | .viewer => 1
  | .admin => 2

/-- `ClientQos`, `qos.rs:9-20`. -/
structure ClientQos where
  bandwidthLimitUp : Option UInt64
  bandwidthLimitDown : Option UInt64
  dscpClass : Option UInt8
  priority : Option UInt8
  deriving DecidableEq, Repr

/-- `ClientStats`, `model.rs:149-156`. -/
structure ClientStats where
  bytesIn : Nat
  bytesOut : Nat
  lastConnected : Option Int
  totalConnections : Nat
  lastHandshake : Option Int
  deriving DecidableEq, Repr

/-- `ClientStats::default`. -/
def ClientStats.zero : ClientStats :=
  { bytesIn := 0, bytesOut := 0, lastConnected := none, totalConnections := 0,
    lastHandshake := none }

/-- `ClientConfig`, `model.rs:55-122`. -/
structure ClientConfig where
  id : String
  name : String
  psk : Bytes32
  vpnIp : Ipv4Addr
  enabled : Bool
  createdAt : Int
  stats : ClientStats
  qos : Option ClientQos
  devicePubkey : Option Bytes32
  oneTime : Bool
  expiresAt : Option Int
  updatedAt : Option Int
  deleted : Bool
  role : ClientRole
  exitNode : Option String
  deriving DecidableEq

/-- `ClientDbFile`, `mod.rs:63-68`. -/
structure ClientDbFile where
  clients : List ClientConfig
  nextHostOffset : Nat
  deriving DecidableEq

/-- `ClientDbFile::default`, `mod.rs:70-81`. -/
def ClientDbFile.empty : ClientDbFile := { clients := [], nextHostOffset := 2 }

/-- The fields that `write_record_canonical_fields` hashes, `merge.rs:43-104`. -/
structure Canonical where
  id : String
  psk : Bytes32
  name : String
  enabled : Bool
  deleted : Bool
  oneTime : Bool
  updatedAtMillis : Option Int
  expiresAtMillis : Option Int
  devicePubkey : Option Bytes32
  qos : Option ClientQos
  role : ClientRole
  exitNode : Option String
  deriving DecidableEq

/-- `timestamp_millis`. -/
def millis (nanos : Int) : Int := nanos / 1000000

/-- The hashed fields of a record. -/
def ClientConfig.canonical (c : ClientConfig) : Canonical where
  id := c.id
  psk := c.psk
  name := c.name
  enabled := c.enabled
  deleted := c.deleted
  oneTime := c.oneTime
  updatedAtMillis := c.updatedAt.map millis
  expiresAtMillis := c.expiresAt.map millis
  devicePubkey := c.devicePubkey
  qos := c.qos
  role := c.role
  exitNode := c.exitNode

/-- The hash function and the JSON text of the QoS settings. -/
structure PoolHash where
  blake3 : Bytes → Bytes32
  qosJson : Option ClientQos → Bytes

/-- An `i64` as eight bytes, least significant first. -/
def i64Bytes (x : Int) : Bytes := leBytes 8 (x % 2 ^ 64).toNat

/-- `encode_opt_millis`, `merge.rs:25-30`. -/
def encodeOptMillis : Option Int → Bytes
  | some t => i64Bytes t
  | none => i64Bytes (-2 ^ 63)

def lengthPrefixed (bytes : Bytes) : Bytes := leBytes 4 bytes.length ++ bytes

def utf8 (s : String) : Bytes := s.toUTF8.data.toList

def boolByte (b : Bool) : UInt8 := if b then 1 else 0

variable (hash : PoolHash)

/-- `write_record_canonical_fields`, `merge.rs:43-104`. -/
def writeRecordCanonicalFields (c : Canonical) : Bytes :=
  lengthPrefixed (utf8 c.id) ++ c.psk.toList ++ lengthPrefixed (utf8 c.name) ++
    [boolByte c.enabled, boolByte c.deleted, boolByte c.oneTime] ++
    encodeOptMillis c.updatedAtMillis ++ encodeOptMillis c.expiresAtMillis ++
    (match c.devicePubkey with
      | some key => 1 :: key.toList
      | none => 0 :: List.replicate 32 0) ++
    lengthPrefixed (hash.qosJson c.qos) ++ [c.role.rank] ++
    (match c.exitNode with
      | some addr => 1 :: lengthPrefixed (utf8 addr)
      | none => [0])

/-- `client_record_digest` and `record_canonical_hash`, `merge.rs:115-119, 591-595`. -/
def recordCanonicalHash (c : Canonical) : Bytes32 :=
  hash.blake3 (writeRecordCanonicalFields hash c)

/-- The part of a record that a merge takes over: its canonical content and its exact time. -/
structure Version where
  canonical : Canonical
  updatedAt : Option Int
  deriving DecidableEq

def ClientConfig.version (c : ClientConfig) : Version :=
  { canonical := c.canonical, updatedAt := c.updatedAt }

/-- A record without a time is older than every record with one. -/
def timeRank : Option Int → WithBot Int
  | some t => (t : WithBot Int)
  | none => ⊥

/-- The order in which versions replace each other: tombstones over live records, then the
later time, then the smaller hash. Equal-length byte strings compare like big-endian numbers. -/
def Version.rank (v : Version) : Bool ×ₗ WithBot Int ×ₗ Natᵒᵈ :=
  toLex (v.canonical.deleted, toLex (timeRank v.updatedAt,
    OrderDual.toDual (ofBe (recordCanonicalHash hash v.canonical).toList)))

/-- `strictly_newer`, `merge.rs:251-255`. -/
def strictlyNewer : Option Int → Option Int → Bool
  | some i, some e => e < i
  | some _, none => true
  | none, _ => false

/-- `incoming_wins`, `merge.rs:256-281`. -/
def incomingWins (existing inc : ClientConfig) : Bool :=
  let tieBreakWins := inc.updatedAt = existing.updatedAt ∧
    ofBe (recordCanonicalHash hash inc.canonical).toList <
      ofBe (recordCanonicalHash hash existing.canonical).toList
  match existing.deleted, inc.deleted with
  | true, false => false
  | false, true => true
  | true, true => strictlyNewer inc.updatedAt existing.updatedAt || tieBreakWins
  | false, false => strictlyNewer inc.updatedAt existing.updatedAt || tieBreakWins

theorem strictlyNewer_iff (i e : Option Int) :
    strictlyNewer i e = true ↔ timeRank e < timeRank i := by
  cases i with
  | none => simp [strictlyNewer, timeRank]
  | some i =>
    cases e with
    | none | some e => simp [strictlyNewer, timeRank]

theorem timeRank_inj {i e : Option Int} : timeRank i = timeRank e ↔ i = e := by
  cases i <;> cases e <;> simp [timeRank]

/-- The incoming record wins exactly if its version has the higher rank. -/
theorem incomingWins_iff (existing inc : ClientConfig) : incomingWins hash existing inc = true ↔
      existing.version.rank hash < inc.version.rank hash := by
  have hrank : ∀ c : ClientConfig, c.version.rank hash = toLex (c.deleted,
      toLex (timeRank c.updatedAt,
        OrderDual.toDual (ofBe (recordCanonicalHash hash c.canonical).toList))) := fun _ => rfl
  rw [hrank, hrank, Prod.Lex.toLex_lt_toLex]
  simp only [Prod.Lex.toLex_lt_toLex, OrderDual.toDual_lt_toDual, ← strictlyNewer_iff,
    timeRank_inj]
  unfold incomingWins
  generalize ofBe (recordCanonicalHash hash inc.canonical).toList = x
  generalize ofBe (recordCanonicalHash hash existing.canonical).toList = y
  rw [eq_comm (a := existing.updatedAt)]
  cases existing.deleted <;> cases inc.deleted <;> simp

end AivpnSpec.Server
