import Mathlib.Data.List.Basic
import Mathlib.Data.Nat.Init

/-!
# Runs of a machine

A machine is a step function on states and inputs; whatever it does not determine itself
(clock readings, random draws, failures, the order of a hash map) is part of the input.
The state after `k` inputs, and the two induction rules for it: an invariant of every step
holds after every prefix, and a property that holds at one point holds later on as long as
each step between the two keeps it.
-/

namespace AivpnSpec.Base

variable {σ ι : Type}

/-- The state after the first `k` inputs. -/
def stateAt (step : σ → ι → σ) (s : σ) (inputs : List ι) (k : Nat) : σ :=
  (inputs.take k).foldl step s

variable {step : σ → ι → σ} {s : σ} {inputs : List ι} {k b a : Nat}

@[simp]
theorem stateAt_zero : stateAt step s inputs 0 = s := rfl

/-- One more input is one more step. -/
theorem stateAt_succ {i : ι} (h : inputs[k]? = some i) :
    stateAt step s inputs (k + 1) = step (stateAt step s inputs k) i := by
  rw [stateAt, stateAt, List.take_add_one, h, List.foldl_append]
  rfl

/-- After the last input nothing changes. -/
theorem stateAt_of_none (h : inputs[k]? = none) :
    stateAt step s inputs (k + 1) = stateAt step s inputs k := by
  rw [stateAt, stateAt, List.take_add_one, h]
  simp

/-- Between two points a property persists that every step between them keeps. -/
theorem stateAt_keeps {P : σ → Prop} (hab : a ≤ b) (ha : P (stateAt step s inputs a))
    (hkeep : ∀ k i, a ≤ k → k < b → inputs[k]? = some i →
      P (stateAt step s inputs k) → P (step (stateAt step s inputs k) i)) :
    P (stateAt step s inputs b) := by
  induction b, hab using Nat.le_induction with
  | base => exact ha
  | succ b hab ih =>
    have hb := ih fun k i hk hkb => hkeep k i hk (Nat.lt_succ_of_lt hkb)
    cases hi : inputs[b]? with
    | none => rw [stateAt_of_none hi]; exact hb
    | some i => rw [stateAt_succ hi]; exact hkeep b i hab (Nat.lt_succ_self b) hi hb

/-- A list to which every step only adds in front keeps its entries. -/
theorem stateAt_suffix {α : Type} {log : σ → List α} (hstep : ∀ s i, log s <:+ log (step s i))
    (hab : a ≤ b) : log (stateAt step s inputs a) <:+ log (stateAt step s inputs b) :=
  stateAt_keeps (P := fun t => log (stateAt step s inputs a) <:+ log t) hab List.suffix_rfl
    fun _ i _ _ _ h => h.trans (hstep _ i)

/-- An invariant of every step holds after every prefix. -/
theorem stateAt_invariant {I : σ → Prop} (h₀ : I s) (hstep : ∀ s i, I s → I (step s i)) (k : Nat) :
    I (stateAt step s inputs k) :=
  stateAt_keeps (Nat.zero_le k) h₀ fun _ i _ _ _ h => hstep _ i h

end AivpnSpec.Base
