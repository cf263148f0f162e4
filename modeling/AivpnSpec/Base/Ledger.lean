import Mathlib

/-!
# Counters handed out under keys

A ledger lists pairs of a key and a counter. Counters are 64-bit numbers that are handed out one
after the other, singly or in blocks, and wrap around; what a key was given is then a run of
consecutive counters. Such a run repeats a counter exactly if it is longer than `2 ^ 64`.
-/

namespace AivpnSpec.Base

open List

/-- The `n` counters from `base` on. -/
def counterRun (base : UInt64) (n : Nat) : List UInt64 :=
  (List.range n).map fun i => base + UInt64.ofNat i

@[simp]
theorem length_counterRun (base : UInt64) (n : Nat) : (counterRun base n).length = n := by
  simp [counterRun]

theorem counterRun_one (base : UInt64) : counterRun base 1 = [base] := by
  simp [counterRun]

theorem counterRun_add (base : UInt64) (m n : Nat) :
    counterRun base (m + n) = counterRun base m ++ counterRun (base + UInt64.ofNat m) n := by
  simp [counterRun, range_add, Function.comp_def, UInt64.add_assoc]

variable {base : UInt64}

theorem getElem_counterRun {n i : Nat} (h : i < (counterRun base n).length) :
    (counterRun base n)[i] = base + UInt64.ofNat i := by
  simp [counterRun]

/-- A run has no counter twice as long as it does not wrap around onto itself. -/
theorem nodup_counterRun_iff {n : Nat} : (counterRun base n).Nodup ↔ n ≤ 2 ^ 64 := by
  constructor
  · intro h
    by_contra hlong
    have hlast : 2 ^ 64 < (counterRun base n).length := by
      rw [length_counterRun]
      omega
    have hwrap : (counterRun base n)[2 ^ 64] = (counterRun base n)[0] := by
      rw [getElem_counterRun, getElem_counterRun]
      rfl
    have := (h.getElem_inj_iff).mp hwrap
    omega
  · intro hn
    apply Nodup.map_on _ nodup_range
    intro i hi j hj heq
    rw [mem_range] at hi hj
    have hnat := congrArg UInt64.toNat heq
    rw [UInt64.toNat_add, UInt64.toNat_add, UInt64.toNat_ofNat', UInt64.toNat_ofNat'] at hnat
    omega

/-- The counters are a run, in some order, that ends just before `next`. -/
def IsRun (counters : List UInt64) (next : UInt64) : Prop :=
  ∃ base n, counters.Perm (counterRun base n) ∧ next = base + UInt64.ofNat n

theorem isRun_nil (next : UInt64) : IsRun [] next := ⟨next, 0, .refl _, by simp⟩

variable {counters : List UInt64} {next : UInt64}

/-- Handing out the next `m` counters prolongs a run. -/
theorem IsRun.prolong (h : IsRun counters next) (m : Nat) :
    IsRun (counterRun next m ++ counters) (next + UInt64.ofNat m) := by
  obtain ⟨base, n, hperm, rfl⟩ := h
  refine ⟨base, n + m, ?_, ?_⟩
  · rw [counterRun_add]
    exact perm_append_comm.trans (hperm.append_right _)
  · rw [UInt64.ofNat_add, UInt64.add_assoc]

theorem IsRun.nodup_iff (h : IsRun counters next) : counters.Nodup ↔ counters.length ≤ 2 ^ 64 := by
  obtain ⟨base, n, hperm, -⟩ := h
  rw [hperm.nodup_iff, hperm.length_eq, length_counterRun, nodup_counterRun_iff]

variable {K V : Type} [DecidableEq K] {ledger : List (K × V)}

def givenTo (ledger : List (K × V)) (key : K) : List V :=
  ledger.filterMap fun entry => if entry.1 = key then some entry.2 else none

theorem mem_givenTo {key : K} {value : V} : value ∈ givenTo ledger key ↔ (key, value) ∈ ledger := by
  simp only [givenTo, mem_filterMap, Option.ite_none_right_eq_some, Option.some.injEq]
  constructor
  · rintro ⟨entry, hentry, rfl, rfl⟩
    exact hentry
  · intro hentry
    exact ⟨(key, value), hentry, rfl, rfl⟩

/-- New entries of one key come before what it has, and leave the others alone. -/
theorem givenTo_append (key other : K) (values : List V) (ledger : List (K × V)) :
    givenTo (values.map (key, ·) ++ ledger) other =
      if key = other then values ++ givenTo ledger other else givenTo ledger other := by
  unfold givenTo
  rw [filterMap_append, filterMap_map]
  split
  · next h =>
    subst h
    simp
  · next h => simp [h]

/-- A ledger lists no entry twice if no key has a value twice. -/
theorem nodup_iff_givenTo : ledger.Nodup ↔ ∀ key, (givenTo ledger key).Nodup := by
  induction ledger with
  | nil => simp [givenTo]
  | cons entry rest ih =>
    have hcons : ∀ key, givenTo (entry :: rest) key =
        if entry.1 = key then entry.2 :: givenTo rest key else givenTo rest key := by
      intro key
      exact givenTo_append entry.1 key [entry.2] rest
    rw [nodup_cons, ih]
    constructor
    · rintro ⟨hnew, hrest⟩ key
      rw [hcons]
      split
      · next h =>
        subst h
        exact nodup_cons.mpr ⟨fun hmem => hnew (mem_givenTo.mp hmem), hrest _⟩
      · exact hrest key
    · intro h
      have hentry := h entry.1
      rw [hcons, if_pos rfl, nodup_cons] at hentry
      refine ⟨fun hmem => hentry.1 (mem_givenTo.mpr hmem), fun key => ?_⟩
      have hkey := h key
      rw [hcons] at hkey
      split at hkey
      · exact (nodup_cons.mp hkey).2
      · exact hkey

end AivpnSpec.Base
