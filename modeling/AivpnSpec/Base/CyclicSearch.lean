import Mathlib.Data.Nat.Init

/-!
# Searching a range once around

A search of the numbers `start ≤ n < stop` that begins anywhere in the range and goes on at the
start when it has reached the end. After as many steps as the range is long it has seen every
number, so it fails only where there is nothing to find.
-/

namespace AivpnSpec.Base

variable {α : Type} {f g : Nat → Option α} {start stop first steps n : Nat}

/-- The number after this one, back to the start at the end of the range. -/
def nextIn (start stop n : Nat) : Nat := if stop ≤ n + 1 then start else n + 1

/-- The first number with a value among the next `steps` ones. -/
def cyclicSearch (f : Nat → Option α) (start stop : Nat) : Nat → Nat → Option (Nat × α)
  | 0, _ => none
  | steps + 1, n =>
    match f n with
    | some a => some (n, a)
    | none => cyclicSearch f start stop steps (nextIn start stop n)

def InRange (start stop n : Nat) : Prop := start ≤ n ∧ n < stop

theorem InRange.nextIn (h : InRange start stop n) : InRange start stop (nextIn start stop n) := by
  obtain ⟨hlow, hhigh⟩ := h
  unfold Base.nextIn InRange
  split <;> omega

/-- What is found stands in the range. -/
theorem cyclicSearch_eq_some {a : α} (hfirst : InRange start stop first)
    (h : cyclicSearch f start stop steps first = some (n, a)) :
    InRange start stop n ∧ f n = some a := by
  induction steps generalizing first with
  | zero => cases h
  | succ steps ih =>
    rw [cyclicSearch] at h
    cases hfound : f first with
    | some b =>
      simp only [hfound, Option.some.injEq, Prod.mk.injEq] at h
      obtain ⟨rfl, rfl⟩ := h
      exact ⟨hfirst, hfound⟩
    | none =>
      simp only [hfound] at h
      exact ih hfirst.nextIn h

/-- A search that fails has seen the numbers from `first` on, and those from the start on that it
reached after the end. -/
theorem eq_none_of_cyclicSearch (hfirst : InRange start stop first)
    (h : cyclicSearch f start stop steps first = none) (hn : InRange start stop n)
    (hseen : first ≤ n ∧ n < first + steps ∨ n + (stop - start) < first + steps) : f n = none := by
  induction steps generalizing first with
  | zero =>
    unfold InRange at hfirst hn
    omega
  | succ steps ih =>
    rw [cyclicSearch] at h
    cases hfound : f first with
    | some b =>
      simp only [hfound] at h
      cases h
    | none =>
      simp only [hfound] at h
      by_cases hself : n = first
      · rw [hself]
        exact hfound
      refine ih hfirst.nextIn h ?_
      unfold InRange at hfirst hn
      unfold nextIn
      split <;> omega

/-- Once around the range the search finds something exactly if there is something to find. -/
theorem cyclicSearch_isSome_iff (hfirst : InRange start stop first) :
    (∃ found, cyclicSearch f start stop (stop - start) first = some found) ↔
      ∃ n a, InRange start stop n ∧ f n = some a := by
  constructor
  · rintro ⟨⟨n, a⟩, h⟩
    exact ⟨n, a, cyclicSearch_eq_some hfirst h⟩
  · rintro ⟨n, a, hn, hvalue⟩
    cases hsearch : cyclicSearch f start stop (stop - start) first with
    | some found => exact ⟨found, rfl⟩
    | none =>
      have hnone := eq_none_of_cyclicSearch hfirst hsearch hn (by
        unfold InRange at hfirst hn
        omega)
      rw [hvalue] at hnone
      cases hnone

/-- The search depends only on the values in its range. -/
theorem cyclicSearch_congr (hfirst : InRange start stop first)
    (h : ∀ n, InRange start stop n → f n = g n) :
    cyclicSearch f start stop steps first = cyclicSearch g start stop steps first := by
  induction steps generalizing first with
  | zero => rfl
  | succ steps ih => rw [cyclicSearch, cyclicSearch, h first hfirst, ih hfirst.nextIn]

end AivpnSpec.Base
