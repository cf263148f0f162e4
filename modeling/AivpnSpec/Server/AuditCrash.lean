import AivpnSpec.Server.AuditChain
import AivpnSpec.Server.AuditTail
import AivpnSpec.Server.Management.Viewer

/-!
# The audit log after crashes

Calls can stop at every byte. The file then ends in a part of a line, or in a line without its line
break; the next call takes the part away or adds the line break. The entries whose JSON is complete
form a chain from the genesis hash, and `audit_tail` reads the end of it.
-/

namespace AivpnSpec.Server

open AivpnSpec.Base AivpnSpec.Common AivpnSpec.Wire AivpnSpec.Server.Mgmt List

section Read

variable {json : AuditJson} {front : Bytes} {e : AuditEntry}

variable (hjson : json.Sound) {space : Bytes} {n : Nat}

include hjson

end Read

/-- What holds between calls: the complete entries are a chain from the genesis hash, and behind them
stands nothing, or a part of a line; or the last of them has no line break yet. -/
structure AuditFile.Inv (json : AuditJson) (s : AuditFile) : Prop where
  chained : (auditLinks json.toAuditFormat).Chained genesisHash s.written
  tried : ∀ e ∈ s.written, e ∈ s.tried
  shape : s.content = fileOf json s.written ∨
    (∃ e ∈ s.tried, ∃ n, 0 < n ∧ n < (utf8 (json.text e)).length ∧
      s.content = fileOf json s.written ++ (utf8 (json.text e)).take n) ∨
    ∃ front e, s.written = front ++ [e] ∧ s.content = fileOf json front ++ utf8 (json.text e)

variable {s : AuditFile} {json : AuditJson} {e : AuditEntry}

section Run

variable {json : AuditJson} (hjson : json.Sound)

include hjson

end Run

end AivpnSpec.Server
