import Mathlib.Logic.Basic

/-!
# Chains of checks

A computation that refuses its input in one of several checks: where it answers, every check has
passed.
-/

namespace AivpnSpec.Base

variable {ε α : Type} {p : Prop} [Decidable p]

theorem ite_error_eq_ok {e : ε} {x : Except ε α} {a : α} :
    (if p then .error e else x) = .ok a ↔ ¬p ∧ x = .ok a := by
  by_cases hp : p <;> simp [hp]

end AivpnSpec.Base
