import AivpnSpec.Base.HashChain
import AivpnSpec.Base.SelfDelimiting
import AivpnSpec.Server.AuditLog
import AivpnSpec.Wire.Lossy
import Mathlib.Data.Set.Function

/-!
# What the last hash of the audit log says

`verify_chain` accepts exactly the hash chains over the two encodings of an entry. Entries of
version 1 are hashed with the length of every field, so that no other entry gives the same bytes:
neither one of version 1 nor, as the hash before it is as long as its own, one of version 0.
-/

namespace AivpnSpec.Server

open AivpnSpec.Base AivpnSpec.Common AivpnSpec.Wire List

def auditLinks (format : AuditFormat) : Links AuditEntry String where
  previous := AuditEntry.prevHash
  hash := AuditEntry.hash
  valid e := e.expectedHash format = some e.hash

variable {format : AuditFormat}

variable {entries : List AuditEntry}

/-- The bytes that are hashed for an entry, by its version. -/
def AuditEntry.message (e : AuditEntry) : Option Bytes :=
  match e.hashVersion with
  | 0 => some (utf8 e.canonicalJoin)
  | 1 => some (utf8 "aivpn-audit-v1" ++ [0] ++
      e.fields.flatMap fun field => beBytes 8 (utf8 field).length ++ utf8 field)
  | _ => none

variable {e y x : AuditEntry}

/-- The fields of an entry are as long as a `String` can be. -/
def AuditEntry.Fits (e : AuditEntry) : Prop := ∀ field ∈ e.fields, (utf8 field).length < 2 ^ 64

end AivpnSpec.Server
