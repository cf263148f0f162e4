import AivpnSpec.Wire.Text

/-!
# The audit log

`crates/aivpn-server/src/audit_log.rs:50-193`. One JSON line for each administrative action; every
entry carries the hash of the entry before it and a hash of its own fields. SHA-256 and the parser
of a line are parameters.
-/

namespace AivpnSpec.Server

open AivpnSpec.Base AivpnSpec.Common

/-- `AuditActor`, `audit_log.rs:50-54`. -/
inductive AuditActor where
  | cli
  | api
  | system
  deriving DecidableEq

/-- `as_str`, `audit_log.rs:61-67`. -/
def AuditActor.asStr : AuditActor → String
  | .cli => "cli"
  | .api => "api"
  | .system => "system"

/-- `GENESIS_HASH`, `audit_log.rs:74`. -/
def genesisHash : String := "0000000000000000000000000000000000000000000000000000000000000000"

/-- `AuditEntry`, `audit_log.rs:80-98`. -/
structure AuditEntry where
  ts : String
  actor : AuditActor
  action : String
  target : String
  result : String
  prevHash : String
  hash : String
  hashVersion : UInt8
  deriving DecidableEq

/-- SHA-256, and `serde_json::from_str` for an entry. -/
structure AuditFormat where
  sha256 : Bytes → Bytes
  parse : String → Option AuditEntry

/-- `hex::encode`. -/
def hexEncode (bytes : Bytes) : String :=
  String.ofList (bytes.flatMap fun b => [Nat.digitChar (b.toNat / 16), Nat.digitChar (b.toNat % 16)])

namespace AuditEntry

variable (format : AuditFormat) (e : AuditEntry)

def fields : List String := [e.ts, e.actor.asStr, e.action, e.target, e.result, e.prevHash]

/-- `canonical_join`, `audit_log.rs:102-119`. -/
def canonicalJoin : String := String.intercalate "|" e.fields

/-- `compute_hash_legacy`, `audit_log.rs:121-132`. -/
def computeHashLegacy : String := hexEncode (format.sha256 (utf8 e.canonicalJoin))

/-- `compute_hash`, `audit_log.rs:135-150`: the length of each field stands before it. -/
def computeHash : String :=
  hexEncode (format.sha256 (utf8 "aivpn-audit-v1" ++ [0] ++
    e.fields.flatMap fun field => beBytes 8 (utf8 field).length ++ utf8 field))

/-- The hash an entry should have, by its version, `audit_log.rs:175-187`. -/
def expectedHash : Option String :=
  match e.hashVersion with
  | 0 => some (e.computeHashLegacy format)
  | 1 => some (e.computeHash format)
  | _ => none

end AuditEntry

/-- The loop of `verify_chain`, from an entry on; `previous` is the hash of the entry before it. -/
def verifyFrom (format : AuditFormat) :
    (index : Nat) → (previous : Option String) → List AuditEntry → Except Nat Unit
  | _, _, [] => .ok ()
  | index, previous, e :: rest =>
    if previous.any (· ≠ e.prevHash) then .error index
    else if e.expectedHash format ≠ some e.hash then .error index
    else verifyFrom format (index + 1) (some e.hash) rest

/-- `verify_chain`, `audit_log.rs:170-193`. -/
def verifyChain (format : AuditFormat) (entries : List AuditEntry) : Except Nat Unit :=
  verifyFrom format 0 none entries

/-- `str::lines`: the last line counts only if it is not empty, and loses no carriage return. -/
def lines (text : List Char) : List (List Char) :=
  let pieces := text.splitOn '\n'
  pieces.dropLast.map (fun line => if line.getLast? = some '\r' then line.dropLast else line) ++
    pieces.getLast?.toList.filter fun line => !line.isEmpty

/-- The reading of `audit_tail`, `mgmt_service/mod.rs:224-244`: a window of the last bytes, whose
first line may be cut, and of its lines the last `limit` ones that are not blank. -/
def tailEntries (format : AuditFormat) (blank : String → Bool) (limit : Nat) (content : Bytes) :
    List AuditEntry :=
  let maxBytes := max (64 * 1024) (min (limit * 1024) (4 * 1024 * 1024))
  let start := content.length - maxBytes
  let text := Wire.fromUtf8Lossy (content.drop start)
  let found := ((lines text.toList).map String.ofList).filter fun line => !blank line
  let whole := if 0 < start then found.drop 1 else found
  (whole.drop (whole.length - limit)).filterMap format.parse

end AivpnSpec.Server
