import Mathlib.Data.List.Basic

/-!
# The first match of a list

`iter_mut().find(p)` and an assignment through the result: the first element that satisfies
`p` is replaced and everything else stays. What a search for another predicate, membership
and pairwise relations see of the replacement.
-/

namespace AivpnSpec.Base

open List

variable {α β : Type}

/-- Replace the first element that satisfies `p`. -/
def modifyFirst (p : α → Bool) (f : α → α) : List α → List α
  | [] => []
  | a :: l => if p a then f a :: l else a :: modifyFirst p f l

variable {p : α → Bool} {f : α → α} {l : List α} {b : α}

/-- Where the list is changed: nowhere, or at the first match. -/
theorem modifyFirst_cases (p : α → Bool) (f : α → α) (l : List α) :
    (l.find? p = none ∧ modifyFirst p f l = l) ∨
      ∃ front a back, l = front ++ a :: back ∧ (∀ b ∈ front, p b = false) ∧ p a = true ∧
        l.find? p = some a ∧ modifyFirst p f l = front ++ f a :: back := by
  induction l with
  | nil => exact .inl ⟨rfl, rfl⟩
  | cons a l ih =>
    unfold modifyFirst
    by_cases hp : p a = true
    · rw [if_pos hp, find?_cons_of_pos hp]
      exact .inr ⟨[], a, l, rfl, by simp, hp, rfl, rfl⟩
    rw [if_neg hp, find?_cons_of_neg hp]
    rcases ih with ⟨hnone, heq⟩ | ⟨front, b, back, rfl, hfront, hb, hfind, heq⟩
    · exact .inl ⟨hnone, by rw [heq]⟩
    · refine .inr ⟨a :: front, b, back, rfl, ?_, hb, hfind, by rw [heq]; rfl⟩
      simpa [hp] using hfront

/-- An element of the new list is an old one or the replaced first match. -/
theorem mem_modifyFirst (h : b ∈ modifyFirst p f l) :
    b ∈ l ∨ ∃ a, l.find? p = some a ∧ b = f a := by
  rcases modifyFirst_cases p f l with ⟨-, heq⟩ | ⟨front, a, back, hl, -, -, hfind, heq⟩
  · exact .inl (heq ▸ h)
  rw [heq, mem_append, mem_cons] at h
  rw [hfind, hl, mem_append, mem_cons]
  rcases h with h | h | h
  · exact .inl (.inl h)
  · exact .inr ⟨a, rfl, h⟩
  · exact .inl (.inr (.inr h))

/-- If at most one element satisfies the predicate, only the replaced one can still do so. -/
theorem mem_modifyFirst_of_unique (hl : l.Pairwise fun a b => p a = true → p b = false)
    (h : b ∈ modifyFirst p f l) : (b ∈ l ∧ p b = false) ∨ ∃ a, l.find? p = some a ∧ b = f a := by
  rcases modifyFirst_cases p f l with ⟨hnone, heq⟩ | ⟨front, a, back, rfl, hfront, ha, hfind, heq⟩
  · rw [heq] at h
    exact .inl ⟨h, Bool.eq_false_iff.mpr (find?_eq_none.mp hnone b h)⟩
  rw [heq, mem_append, mem_cons] at h
  rw [hfind, mem_append, mem_cons]
  rcases h with h | h | h
  · exact .inl ⟨.inl h, hfront b h⟩
  · exact .inr ⟨a, rfl, h⟩
  · have hback := (pairwise_cons.mp (pairwise_append.mp hl).2.1).1
    exact .inl ⟨.inr (.inr h), hback b h ha⟩

/-- An element other than the first match stays. -/
theorem mem_modifyFirst_of_ne (h : b ∈ l) (hne : ∀ a, l.find? p = some a → b ≠ a) :
    b ∈ modifyFirst p f l := by
  rcases modifyFirst_cases p f l with ⟨-, heq⟩ | ⟨front, a, back, rfl, -, -, hfind, heq⟩
  · rwa [heq]
  rw [mem_append, mem_cons] at h
  rw [heq, mem_append, mem_cons]
  rcases h with h | h | h
  · exact .inl h
  · exact absurd h (hne a hfind)
  · exact .inr (.inr h)

/-- The replaced first match is in the new list. -/
theorem replaced_mem_modifyFirst {a : α} (h : l.find? p = some a) : f a ∈ modifyFirst p f l := by
  rcases modifyFirst_cases p f l with ⟨hnone, -⟩ | ⟨front, b, back, -, -, -, hfind, heq⟩
  · rw [hnone] at h
    cases h
  · rw [heq, Option.some.inj (h.symm.trans hfind)]
    simp

/-- What the replacement does not change of the first match, it changes nowhere. -/
theorem map_modifyFirst {g : α → β} (h : ∀ a, l.find? p = some a → g (f a) = g a) :
    (modifyFirst p f l).map g = l.map g := by
  rcases modifyFirst_cases p f l with ⟨-, heq⟩ | ⟨front, a, back, rfl, -, -, hfind, heq⟩
  · rw [heq]
  · simp [heq, h a hfind]

/-- Only the value at the first match counts. -/
theorem modifyFirst_congr {g : α → α} (h : ∀ a, l.find? p = some a → f a = g a) :
    modifyFirst p f l = modifyFirst p g l := by
  induction l with
  | nil => rfl
  | cons a l ih =>
    unfold modifyFirst
    by_cases hp : p a = true
    · rw [if_pos hp, if_pos hp, h a (find?_cons_of_pos hp)]
    · rw [if_neg hp, if_neg hp, ih]
      intro b hb
      exact h b (by rw [find?_cons_of_neg hp, hb])

/-- A search that the replacement does not affect. -/
theorem find?_modifyFirst {q : α → Bool}
    (h : ∀ a, l.find? p = some a → q (f a) = q a ∧ (q a = true → p a = true → False)) :
    (modifyFirst p f l).find? q = l.find? q := by
  rcases modifyFirst_cases p f l with ⟨-, heq⟩ | ⟨front, a, back, rfl, -, ha, hfind, heq⟩
  · rw [heq]
  obtain ⟨hq, hno⟩ := h a hfind
  have hqa : ¬q a = true := fun hqa => hno hqa ha
  rw [heq, find?_append, find?_append, find?_cons_of_neg hqa,
    find?_cons_of_neg (hq ▸ hqa)]

/-- The search the replacement was made by finds the replaced element. -/
theorem find?_modifyFirst_self (h : ∀ a, l.find? p = some a → p (f a) = true) :
    (modifyFirst p f l).find? p = (l.find? p).map f := by
  rcases modifyFirst_cases p f l with ⟨hnone, heq⟩ | ⟨front, a, back, -, hfront, -, hfind, heq⟩
  · rw [heq, hnone]
    rfl
  · have hskip : front.find? p = none := by simpa [find?_eq_none] using hfront
    rw [heq, hfind, find?_append, hskip, find?_cons_of_pos (h a hfind)]
    rfl

/-- A relation between the elements survives if the replacement keeps it on both sides. -/
theorem pairwise_modifyFirst {R : α → α → Prop} (hl : l.Pairwise R)
    (h : ∀ a, l.find? p = some a → ∀ b ∈ l, (R a b → R (f a) b) ∧ (R b a → R b (f a))) :
    (modifyFirst p f l).Pairwise R := by
  rcases modifyFirst_cases p f l with ⟨-, heq⟩ | ⟨front, a, back, rfl, -, -, hfind, heq⟩
  · rwa [heq]
  rw [heq]
  have hsides := h a hfind
  simp only [pairwise_append, pairwise_cons, mem_cons, mem_append] at *
  obtain ⟨hfront, ⟨hafter, hback⟩, hacross⟩ := hl
  refine ⟨hfront, ⟨fun b hb => ?_, hback⟩, ?_⟩
  · exact (hsides b (.inr (.inr hb))).1 (hafter b hb)
  · rintro b hb c (rfl | hc)
    · exact (hsides b (.inl hb)).2 (hacross b hb a (.inl rfl))
    · exact hacross b hb c (.inr hc)

end AivpnSpec.Base
