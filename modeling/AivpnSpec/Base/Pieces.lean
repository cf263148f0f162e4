import Mathlib.Data.List.Basic

/-!
# Pieces of a list

A list cut at every occurrence of a separator.
-/

namespace AivpnSpec.Base

open List

variable {α : Type} [BEq α] [LawfulBEq α]

/-- No piece has the separator. -/
theorem not_mem_of_mem_splitOn {a : α} {l piece : List α} (h : piece ∈ l.splitOn a) :
    a ∉ piece := by
  induction l generalizing piece with
  | nil =>
    rw [splitOn_nil, mem_singleton] at h
    rw [h]
    exact not_mem_nil
  | cons x rest ih =>
    rw [splitOn_cons_eq_if_modifyHead] at h
    split at h
    · rcases mem_cons.mp h with rfl | h
      · exact not_mem_nil
      · exact ih h
    next hx =>
    obtain ⟨first, more, hpieces⟩ := exists_cons_of_ne_nil (splitOn_ne_nil a rest)
    rw [hpieces, modifyHead_cons] at h
    rcases mem_cons.mp h with rfl | h
    · have hfirst : a ∉ first := ih (hpieces ▸ mem_cons_self)
      simp only [mem_cons, not_or]
      refine ⟨?_, hfirst⟩
      rintro rfl
      exact hx (beq_self_eq_true a)
    · exact ih (hpieces ▸ mem_cons_of_mem _ h)

end AivpnSpec.Base
