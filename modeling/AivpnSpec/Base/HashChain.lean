import Mathlib.Data.List.Infix

/-!
# Hash chains

Entries that carry a hash and the hash of the entry before them. The hash at the end commits to the
whole chain if it decides the last entry of every part of it and is never the value at the start.
-/

namespace AivpnSpec.Base

open List

/-- How the entries of a chain are linked, and which of them are valid by themselves. -/
structure Links (ε η : Type) where
  previous : ε → η
  hash : ε → η
  valid : ε → Prop

namespace Links

variable {ε η : Type} (links : Links ε η)

/-- Valid entries, each with the hash of the one before it, the first with `start`. -/
def Chained : η → List ε → Prop
  | _, [] => True
  | start, e :: rest => links.previous e = start ∧ links.valid e ∧ Chained (links.hash e) rest

variable {links}

variable {start : η} {entries : List ε} {e : ε}

/-- An entry names the start or the hash of another entry. -/
theorem Chained.previous_mem (h : links.Chained start entries) (he : e ∈ entries) :
    links.previous e = start ∨ ∃ other ∈ entries, links.previous e = links.hash other := by
  induction entries generalizing start with
  | nil => cases he
  | cons first rest ih =>
    obtain ⟨hprevious, -, hrest⟩ := h
    rcases mem_cons.mp he with rfl | he
    · exact .inl hprevious
    · rcases ih hrest he with hfirst | ⟨other, hother, heq⟩
      · exact .inr ⟨first, mem_cons_self, hfirst⟩
      · exact .inr ⟨other, mem_cons_of_mem _ hother, heq⟩

end Links

end AivpnSpec.Base
