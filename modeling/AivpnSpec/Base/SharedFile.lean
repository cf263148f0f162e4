import Mathlib.Logic.Function.Basic

/-!
# Processes that share a file

Several processes, each with its own memory, and one file they all read and replace as a
whole under a lock. An operation of a process changes its own memory and the file, and
leaves the memories of the others alone.
-/

namespace AivpnSpec.Base

/-- The failures of the file system during one operation: the lock cannot be taken, the file
cannot be read, or writing fails before the rename. -/
structure Faults where
  lock : Bool
  read : Bool
  write : Bool

def Faults.none : Faults := { lock := false, read := false, write := false }

/-- The memories of the processes and the content of the file, if there is one. -/
structure SharedFile (σ φ : Type) where
  procs : Nat → σ
  file : Option φ

namespace SharedFile

variable {σ φ : Type}

def start (memory : σ) (file : Option φ) : SharedFile σ φ :=
  { procs := fun _ => memory, file }

section

variable (w : SharedFile σ φ) (p : Nat) (memory : σ) (file : Option φ)

/-- Process `p` continues with `memory`, and the file is now `file`. -/
def set : SharedFile σ φ :=
  { procs := Function.update w.procs p memory, file }

@[simp]
theorem set_file : (w.set p memory file).file = file := rfl

@[simp]
theorem set_procs_self : (w.set p memory file).procs p = memory := by
  simp [set]

end

theorem set_procs_of_ne (w : SharedFile σ φ) {p q : Nat} (h : q ≠ p) (memory : σ)
    (file : Option φ) : (w.set p memory file).procs q = w.procs q := by
  simp [set, h]

/-- What the new memory satisfies and all memories did satisfy, all memories satisfy. -/
theorem set_forall {P : Nat → σ → Prop} {w : SharedFile σ φ} {p : Nat} {memory : σ}
    {file : Option φ} (h : ∀ q, q ≠ p → P q (w.procs q)) (hp : P p memory) (q : Nat) :
    P q ((w.set p memory file).procs q) := by
  by_cases hq : q = p
  · subst hq
    rw [set_procs_self]
    exact hp
  · rw [set_procs_of_ne w hq]
    exact h q hq

end SharedFile

end AivpnSpec.Base
