import AivpnSpec.Base.LineFile
import AivpnSpec.Server.AuditLog
import AivpnSpec.Wire.Lossy

/-!
# Writing to the audit log

`crates/aivpn-server/src/audit_log.rs:207-351`. A call takes the lock of the file, reads the hash of
the last entry, mends an end that an earlier call left behind, and appends its own line. The state is
the content of the file; a call can stop at every byte it writes.
-/

namespace AivpnSpec.Server

open AivpnSpec.Base AivpnSpec.Common AivpnSpec.Wire List

/-- `serde_json` for an entry: reading, and writing on one line. -/
structure AuditJson extends AuditFormat where
  text : AuditEntry → String

/-- `u8::is_ascii_whitespace`. -/
def isAsciiWhitespace (b : UInt8) : Bool := b = 9 || b = 10 || b = 12 || b = 13 || b = 32

/-- The last line that is not blank: where it starts in the file, and whether the file ends in a
line break. -/
structure LastLine where
  terminated : Bool
  lineStart : Nat
  line : Bytes
  deriving DecidableEq

/-- The bytes up to the last one that is no white space, `audit_log.rs:216-220`. -/
def trimEnd (bytes : Bytes) : Bytes :=
  bytes.take (((rposition (fun b => !isAsciiWhitespace b) bytes).map (· + 1)).getD 0)

/-- One round of `read_last_hash`, `audit_log.rs:211-226`: a window of `budget` bytes. -/
def lastLineWithin (content : Bytes) (budget : Nat) : Option LastLine :=
  let start := content.length - budget
  let window := content.drop start
  let terminated := window.getLast? = some 10
  let bytes := trimEnd window
  let lineStart := (rposition (fun b => b = 10) bytes).map (· + 1)
  (lineStart.or (if start = 0 then some 0 else none)).map fun lineStart =>
    ⟨terminated, start + lineStart, bytes.drop lineStart⟩

/-- The windows that are tried, from 8 KiB up to 4 MiB. -/
def lineBudgets : List Nat := (List.range 10).map fun k => 8192 * 2 ^ k

/-- The loop over the windows. -/
@[irreducible]
def findLastLine (content : Bytes) : Option LastLine :=
  lineBudgets.findSome? (lastLineWithin content)

variable {content : Bytes}

/-- A line that is not empty starts inside the file. -/
theorem lineStart_lt {found : LastLine} (h : findLastLine content = some found)
    (hline : found.line ≠ []) : found.lineStart < content.length := by
  unfold findLastLine at h
  obtain ⟨budget, -, hfound⟩ := exists_of_findSome?_eq_some h
  unfold lastLineWithin at hfound
  obtain ⟨lineStart, -, rfl⟩ := Option.map_eq_some_iff.mp hfound
  have hpos := length_pos_iff.mpr hline
  simp only [trimEnd, length_drop, length_take] at hpos
  dsimp only
  omega

/-- What `read_last_hash` does with the last line: it answers, or it cuts the file off where the line
starts and reads again. -/
inductive LastRead where
  | done (answer : Except String String) (content : Bytes)
  | again (content : Bytes)

/-- `read_last_hash` up to its recursive call, for the line that the windows have shown,
`audit_log.rs:226-257`. The parser takes bytes, and only well formed text is JSON. -/
def lastRead (json : AuditJson) (content : Bytes) : Option LastLine → LastRead
  | none => .done (.error "Последняя запись аудита превышает лимит") content
  | some found =>
    if found.line = [] then .done (.ok genesisHash) content
    else
      match (fromUtf8 found.line).bind json.parse with
      | some entry =>
        .done (.ok (if entry.hash.isEmpty then genesisHash else entry.hash))
          (if found.terminated then content else content ++ [10])
      | none =>
        if found.terminated then .done (.error "Повреждена последняя запись аудита") content
        else .again (content.take found.lineStart)

variable {json : AuditJson}

variable {found : Option LastLine} {answer : Except String String} {rest : Bytes}

theorem length_of_again (hfound : findLastLine content = found)
    (h : lastRead json content found = .again rest) : rest.length < content.length := by
  unfold lastRead at h
  split at h
  · cases h
  next found =>
  split at h
  · cases h
  next hline =>
  have hlt := lineStart_lt hfound hline
  split at h
  · cases h
  split at h
  · cases h
  · cases h
    rw [length_take]
    omega

/-- A reading that is repeated on ever shorter files until it answers. -/
def repeatRead (read : Bytes → LastRead)
    (hread : ∀ {content rest}, read content = .again rest → rest.length < content.length)
    (content : Bytes) : Except String String × Bytes :=
  match _h : read content with
  | .done answer content => (answer, content)
  | .again rest => repeatRead read hread rest
termination_by content.length
decreasing_by exact hread _h

section Repeat

variable {read : Bytes → LastRead}
  (hread : ∀ {content rest}, read content = .again rest → rest.length < content.length)
  {content rest : Bytes}

end Repeat

/-- `read_last_hash`, `audit_log.rs:207-265`: the hash, or the error, and the content of the file
after it. -/
def readLastHash (json : AuditJson) (content : Bytes) : Except String String × Bytes :=
  repeatRead (fun content => lastRead json content (findLastLine content)) (length_of_again rfl)
    content

/-- A line with white space behind it. -/
structure LineAndSpace (line space : Bytes) : Prop where
  oneLine : 10 ∉ line
  line_eq : ∃ rest last, line = rest ++ [last] ∧ isAsciiWhitespace last = false
  blank : ∀ b ∈ space, isAsciiWhitespace b = true

section LastLine

variable {front line space content : Bytes} {budget : Nat}

/-- The part of a line behind some of its bytes. -/
theorem LineAndSpace.drop (h : LineAndSpace line space) {k : Nat} (hk : k < line.length) :
    LineAndSpace (line.drop k) space := by
  obtain ⟨rest, last, rfl, hlast⟩ := h.line_eq
  refine ⟨fun hmem => h.oneLine (mem_of_mem_drop hmem), ⟨rest.drop k, last, ?_, hlast⟩, h.blank⟩
  rw [drop_append_of_le_length]
  rw [length_append] at hk
  exact Nat.le_of_lt_succ hk

end LastLine

/-- The arguments of `log`, and the time it reads. -/
structure AuditCall where
  ts : String
  actor : AuditActor
  action : String
  target : String
  result : String

/-- The entry of a call, `audit_log.rs:330-341`. -/
def AuditCall.entry (json : AuditJson) (call : AuditCall) (prevHash : String) : AuditEntry :=
  let fields : AuditEntry :=
    { ts := call.ts, actor := call.actor, action := call.action, target := call.target,
      result := call.result, prevHash, hash := "", hashVersion := 1 }
  { fields with hash := fields.computeHash json.toAuditFormat }

def AuditEntry.line (json : AuditJson) (e : AuditEntry) : Bytes := utf8 (json.text e) ++ [10]

/-- How far a call gets: it fails or is cut before it has changed the file, it is cut behind some
bytes of its line, or it completes. -/
inductive Reach where
  | nothing
  | bytes (n : Nat)
  | all

def Reach.cut : Reach → Bytes → Bytes
  | .nothing, _ => []
  | .bytes n, line => line.take n
  | .all, line => line

/-- The file, the entries whose lines were begun, and those of them whose JSON is complete. -/
structure AuditFile where
  content : Bytes
  tried : List AuditEntry
  written : List AuditEntry

/-- `AuditLogger::log` under the lock of the file, `audit_log.rs:301-351`. -/
def AuditFile.log (json : AuditJson) (s : AuditFile) (call : AuditCall × Reach) : AuditFile :=
  match call.2 with
  | .nothing => s
  | reach =>
    match readLastHash json s.content with
    | (.error _, content) => { s with content }
    | (.ok prevHash, content) =>
      let e := call.1.entry json prevHash
      let written := reach.cut (e.line json)
      { content := content ++ written
        tried := s.tried ++ [e]
        written :=
          if (utf8 (json.text e)).length ≤ written.length then s.written ++ [e] else s.written }

/-- Calls of any number of loggers on one file, which is empty at first. -/
def AuditFile.run (json : AuditJson) (calls : List (AuditCall × Reach)) : AuditFile :=
  calls.foldl (AuditFile.log json) ⟨[], [], []⟩

end AivpnSpec.Server
