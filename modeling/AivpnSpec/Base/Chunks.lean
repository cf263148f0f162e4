import Mathlib.Algebra.BigOperators.Group.List.Basic
import Mathlib.Algebra.Order.BigOperators.Group.Finset
import Mathlib.Data.Finset.Card

/-!
# Cutting a list into chunks

A list is cut into windows of `n` elements, the last one shorter. The windows are
indexed, so that a receiver that holds them in any order can put the list together again.
-/

namespace AivpnSpec.Base

open List

variable {α : Type}

/-- Number of windows of `n` elements that cover a list of `len` elements. -/
def chunkCount (n len : Nat) : Nat := (len + n - 1) / n

/-- Window `i` of the list: the elements at `i * n` and after, at most `n` of them. -/
def chunk (n : Nat) (l : List α) (i : Nat) : List α := (l.drop (i * n)).take n

/-- All windows in order, as `slice::chunks` yields them. -/
def chunks (n : Nat) (l : List α) : List (List α) :=
  (List.range (chunkCount n l.length)).map (chunk n l)

variable {n i : Nat}

/-- A window index is one whose offset lies inside the list. -/
theorem lt_chunkCount_iff (hn : 0 < n) (len i : Nat) : i < chunkCount n len ↔ i * n < len := by
  rw [chunkCount, Nat.lt_iff_add_one_le, Nat.le_div_iff_mul_le hn, Nat.succ_mul]
  omega

/-- A window inside the list holds `n` elements or all that are left. -/
theorem length_chunk (n : Nat) (l : List α) (i : Nat) :
    (chunk n l i).length = min n (l.length - i * n) := by
  simp [chunk]

/-- A window inside the list is not empty. -/
theorem length_chunk_pos (hn : 0 < n) (l : List α) (hi : i < chunkCount n l.length) :
    0 < (chunk n l i).length := by
  rw [lt_chunkCount_iff hn] at hi
  rw [length_chunk]
  omega

private theorem flatMap_chunk_range (n : Nat) (l : List α) (k : Nat) :
    (List.range k).flatMap (chunk n l) = l.take (k * n) := by
  induction k with
  | zero => simp
  | succ k ih =>
    rw [range_succ, flatMap_append, ih, Nat.succ_mul, take_add]
    simp [chunk]

/-- The windows in order are the whole list. -/
theorem flatMap_chunk (hn : 0 < n) (l : List α) :
    (List.range (chunkCount n l.length)).flatMap (chunk n l) = l := by
  rw [flatMap_chunk_range]
  apply take_of_length_le
  have h := (lt_chunkCount_iff hn l.length (chunkCount n l.length)).not.mp (Nat.lt_irrefl _)
  omega

/-- The window lengths add up to the length of the list. -/
theorem sum_length_chunk (hn : 0 < n) (l : List α) :
    ∑ i ∈ Finset.range (chunkCount n l.length), (chunk n l i).length = l.length := by
  have h := congrArg length (flatMap_chunk hn l)
  rw [length_flatMap] at h
  exact h

/-- A set of window indices covers the whole length exactly when no index is missing. -/
theorem sum_length_chunk_eq_iff (hn : 0 < n) (l : List α) (s : Finset Nat)
    (hs : s ⊆ Finset.range (chunkCount n l.length)) :
    ∑ i ∈ s, (chunk n l i).length = l.length ↔
      s = Finset.range (chunkCount n l.length) := by
  constructor
  · intro h
    apply Finset.Subset.antisymm hs
    intro i hi
    by_contra hne
    have hlt : ∑ j ∈ s, (chunk n l j).length <
        ∑ j ∈ Finset.range (chunkCount n l.length), (chunk n l j).length :=
      Finset.sum_lt_sum_of_subset hs hi hne
        (length_chunk_pos hn l (Finset.mem_range.mp hi)) (fun j _ _ => Nat.zero_le _)
    rw [h, sum_length_chunk hn] at hlt
    exact Nat.lt_irrefl _ hlt
  · rintro rfl
    exact sum_length_chunk hn l

/-- Blocks of `n` elements written one after the other are the windows. -/
theorem chunk_flatten {blocks : List (List α)} (hlen : ∀ b ∈ blocks, b.length = n)
    {block : List α} (hi : blocks[i]? = some block) : chunk n blocks.flatten i = block := by
  induction blocks generalizing i with
  | nil => cases hi
  | cons b blocks ih =>
    have hb : b.length = n := hlen b mem_cons_self
    cases i with
    | zero =>
      cases hi
      simp [chunk, hb]
    | succ i =>
      rw [← ih (fun c hc => hlen c (mem_cons_of_mem _ hc)) hi]
      unfold chunk
      rw [flatten_cons, drop_append, drop_of_length_le (by rw [Nat.succ_mul]; omega),
        nil_append, hb, show (i + 1) * n - n = i * n by rw [Nat.succ_mul]; omega]

end AivpnSpec.Base
