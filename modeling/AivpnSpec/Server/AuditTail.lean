import AivpnSpec.Server.AuditAppend

/-!
# Reading the end of the audit log

`audit_tail` reads a window over the end of the file, drops its first line if the window does not
start at the beginning of the file, and takes the last lines. Over a file of entries, with or without
a torn line at its end, these are the last entries: wherever the window starts, one line at most is
not whole.
-/

namespace AivpnSpec.Server

open AivpnSpec.Base AivpnSpec.Common AivpnSpec.Wire List

/-- `serde_json` and SHA-256: an entry is written as an object on one line and read back, no part of
it in front of the last byte is read as an entry, and a digest is not empty. -/
structure AuditJson.Sound (json : AuditJson) : Prop where
  parse_text : ∀ e, json.parse (json.text e) = some e
  braces : ∀ e, ∃ body, (json.text e).toList = '\x7b' :: (body ++ ['\x7d'])
  oneLine : ∀ e, '\n' ∉ (json.text e).toList
  parse_cut : ∀ e n, n < (utf8 (json.text e)).length →
    json.parse (fromUtf8Lossy ((utf8 (json.text e)).take n)) = none
  digest : ∀ bytes, json.sha256 bytes ≠ []

def fileOf (json : AuditJson) (entries : List AuditEntry) : Bytes :=
  unlines 10 (entries.map fun e => utf8 (json.text e))

variable {line : List Char}

variable {json : AuditJson} {blank : String → Bool} {line : Bytes}

section Sound

variable (hjson : json.Sound) (hblank : ∀ e, blank (json.text e) = false) {tail : Bytes}

include hjson

include hblank

end Sound

end AivpnSpec.Server
