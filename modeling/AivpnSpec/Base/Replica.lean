import Mathlib.Order.Lattice
import Mathlib.Data.List.Basic

/-!
# Replicas that keep the highest rank

A replica holds at most one item and replaces it by every item of higher rank it comes to see,
directly or through the item another replica kept. What it holds is then an item of the
highest rank among all those it has seen, whatever the order, the repetitions and the detours,
so two replicas that have seen the same items hold items of the same rank.
-/

namespace AivpnSpec.Base

open List

variable {α β γ : Type} [LinearOrder β] (rank : α → β)

/-- The held item after `b` came in. -/
def keepHigher : Option α → α → Option α
  | none, b => some b
  | some a, b => if rank a < rank b then some b else some a

/-- The held item after another replica's item, if there is one, came in. -/
def joinHigher (kept : Option α) : Option α → Option α
  | none => kept
  | some b => keepHigher rank kept b

/-- The held item is among the seen ones and none of them ranks higher. -/
def KeepsTop (seen : List α) : Option α → Prop
  | none => ∀ b, b ∉ seen
  | some a => a ∈ seen ∧ ∀ b ∈ seen, rank b ≤ rank a

variable {rank} {seen seen' : List α} {kept kept' : Option α}

/-- What is held is the new item or the old one. -/
theorem keepHigher_cases {b c : α} (h : keepHigher rank kept b = some c) :
    c = b ∨ kept = some c := by
  cases kept with
  | none => exact .inl (Option.some.inj h).symm
  | some a =>
    change (if rank a < rank b then some b else some a) = some c at h
    split at h
    · exact .inl (Option.some.inj h).symm
    · exact .inr h

theorem joinHigher_cases {c : α} (h : joinHigher rank kept kept' = some c) :
    kept = some c ∨ kept' = some c := by
  cases kept' with
  | none => exact .inl h
  | some b =>
    rcases keepHigher_cases h with rfl | h
    · exact .inr rfl
    · exact .inl h

theorem keepsTop_nil : KeepsTop rank [] none := fun _ h => by cases h

theorem keepsTop_singleton (a : α) : KeepsTop rank [a] (some a) := by
  refine ⟨mem_singleton_self a, ?_⟩
  intro b hb
  rw [mem_singleton.mp hb]

/-- An item that another replica kept brings in everything that replica has seen. -/
theorem KeepsTop.join (h : KeepsTop rank seen kept) {b : α} (hb : KeepsTop rank seen' (some b)) :
    KeepsTop rank (seen ++ seen') (keepHigher rank kept b) := by
  obtain ⟨hmem, hmax⟩ := hb
  cases kept with
  | none =>
    refine ⟨mem_append_right _ hmem, ?_⟩
    intro c hc
    rcases mem_append.mp hc with hc | hc
    · exact absurd hc (h c)
    · exact hmax c hc
  | some a =>
    show KeepsTop rank _ (if rank a < rank b then some b else some a)
    by_cases hlt : rank a < rank b
    · rw [if_pos hlt]
      refine ⟨mem_append_right _ hmem, ?_⟩
      intro c hc
      rcases mem_append.mp hc with hc | hc
      · exact (h.2 c hc).trans hlt.le
      · exact hmax c hc
    · rw [if_neg hlt]
      refine ⟨mem_append_left _ h.1, ?_⟩
      intro c hc
      rcases mem_append.mp hc with hc | hc
      · exact h.2 c hc
      · exact (hmax c hc).trans (not_lt.mp hlt)

theorem KeepsTop.joinHigher (h : KeepsTop rank seen kept) (h' : KeepsTop rank seen' kept') :
    KeepsTop rank (seen ++ seen') (joinHigher rank kept kept') := by
  cases kept' with
  | none =>
    rw [eq_nil_iff_forall_not_mem.mpr h', append_nil]
    exact h
  | some b => exact h.join h'

theorem keepsTop_toList (kept : Option α) : KeepsTop rank kept.toList kept := by
  cases kept with
  | none => exact keepsTop_nil
  | some a => exact keepsTop_singleton a

/-- A fold over incoming items. -/
theorem KeepsTop.foldl (h : KeepsTop rank seen kept) (items : List α) :
    KeepsTop rank (seen ++ items) (items.foldl (keepHigher rank) kept) := by
  induction items generalizing seen kept with
  | nil =>
    rw [append_nil]
    exact h
  | cons b items ih =>
    have hb := ih (h.join (keepsTop_singleton b))
    rw [append_assoc] at hb
    exact hb

/-- Two replicas that have seen the same items agree on whatever the rank determines. -/
theorem KeepsTop.agree {f : α → γ} (h : KeepsTop rank seen kept) (h' : KeepsTop rank seen' kept')
    (hsame : ∀ a, a ∈ seen ↔ a ∈ seen')
    (hf : ∀ a ∈ seen, ∀ b ∈ seen, rank a = rank b → f a = f b) : kept.map f = kept'.map f := by
  cases kept with
  | none =>
    cases kept' with
    | none => rfl
    | some b => exact absurd ((hsame b).mpr h'.1) (h b)
  | some a =>
    cases kept' with
    | none => exact absurd ((hsame a).mp h.1) (h' a)
    | some b =>
      have hb : b ∈ seen := (hsame b).mpr h'.1
      have heq : rank a = rank b := le_antisymm (h'.2 a ((hsame a).mp h.1)) (h.2 b hb)
      exact congrArg some (hf a h.1 b hb heq)

end AivpnSpec.Base
