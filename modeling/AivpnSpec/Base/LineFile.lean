import Mathlib.Data.List.Infix

/-!
# Files of lines

Lines that end in a line break, one behind the other. A window over the end of such a file holds the
end of one line and the lines behind it; a search from the back finds the last line.
-/

namespace AivpnSpec.Base

open List

variable {α : Type} {p : α → Bool} {l : List α}

/-- `Iterator::rposition`: the last place where a test holds. -/
def rposition (p : α → Bool) (l : List α) : Option Nat :=
  (l.reverse.findIdx? p).map fun i => l.length - 1 - i

/-- The lines one behind the other, each with its line break. -/
def unlines (newline : α) (lines : List (List α)) : List α :=
  lines.flatMap fun line => line ++ [newline]

variable {newline : α}

@[simp]
theorem unlines_nil : unlines newline ([] : List (List α)) = [] := rfl

end AivpnSpec.Base
