import AivpnSpec.Base.Chunks
import AivpnSpec.Base.Table
import Mathlib

/-!
# A list put together from its windows

A receiver that knows only the length of a list keeps the windows that have arrived in a table
under their offsets. Counting the elements it holds is enough to see that none is missing: windows
of the right lengths at distinct offsets cannot hold the whole length and leave one out.
-/

namespace AivpnSpec.Base

open List

variable {α : Type} {n total offset i : Nat}

/-- Every value stands under the offset of a window and has the length of that window. -/
def Windows (n total : Nat) (t : Table Nat (List α)) : Prop :=
  ∀ offset window, t.lookup offset = some window →
    offset % n = 0 ∧ offset < total ∧ window.length = min n (total - offset)

/-- How many elements the values hold together. -/
def held (t : Table Nat (List α)) : Nat := (t.values.map List.length).sum

theorem held_insert {t : Table Nat (List α)} (hnew : t.lookup offset = none) (window : List α) :
    held (t.insert offset window) = held t + window.length := by
  have hentries : (t.insert offset window).entries = ⟨offset, window⟩ :: t.entries :=
    AList.entries_insert_of_notMem (AList.lookup_eq_none.mp hnew)
  rw [held, Table.values, hentries, held, Table.values, Nat.add_comm]
  rfl

namespace Windows

variable {t : Table Nat (List α)}

theorem empty : Windows n total (∅ : Table Nat (List α)) := by
  intro offset window h
  cases h

theorem insert (h : Windows n total t) {window : List α} (hoffset : offset % n = 0)
    (hlt : offset < total) (hlength : window.length = min n (total - offset)) :
    Windows n total (t.insert offset window) := by
  intro other found hfound
  rcases Table.cases_insert hfound with ⟨rfl, rfl⟩ | hfound
  · exact ⟨hoffset, hlt, hlength⟩
  · exact h other found hfound

def indices (n : Nat) (t : Table Nat (List α)) : Finset Nat := (t.keys.map (· / n)).toFinset

theorem indices_subset (hn : 0 < n) (h : Windows n total t) :
    indices n t ⊆ Finset.range (chunkCount n total) := by
  intro i hi
  rw [indices, mem_toFinset, mem_map] at hi
  obtain ⟨offset, hmem, rfl⟩ := hi
  obtain ⟨window, hlookup⟩ := Table.mem_iff_lookup.mp (AList.mem_keys.mp hmem)
  obtain ⟨hmod, hlt, -⟩ := h offset window hlookup
  rw [Finset.mem_range, lt_chunkCount_iff hn, Nat.div_mul_cancel (Nat.dvd_of_mod_eq_zero hmod)]
  exact hlt

/-- The elements held are those of the windows, counted by their indices. -/
theorem held_eq (h : Windows n total t) :
    held t = ∑ i ∈ indices n t, (chunk n (List.replicate total ()) i).length := by
  have hback : ∀ e ∈ t.entries, e.1 / n * n = e.1 ∧ e.2.length = min n (total - e.1) := by
    rintro ⟨offset, window⟩ hmem
    obtain ⟨hmod, -, hlength⟩ := h offset window (Table.mem_entries_iff.mp hmem)
    exact ⟨Nat.div_mul_cancel (Nat.dvd_of_mod_eq_zero hmod), hlength⟩
  have hnodup : (t.keys.map (· / n)).Nodup := by
    refine t.keys_nodup.map_on ?_
    intro a ha b hb hab
    obtain ⟨e, he, rfl⟩ := mem_map.mp ha
    obtain ⟨e', he', rfl⟩ := mem_map.mp hb
    rw [← (hback e he).1, ← (hback e' he').1]
    exact congrArg (· * n) hab
  rw [indices, sum_toFinset _ hnodup, held, Table.values, AList.keys, keys]
  simp only [map_map]
  refine congrArg sum (map_congr_left ?_)
  intro e he
  simp only [Function.comp_apply, length_chunk, length_replicate, (hback e he).1]
  exact (hback e he).2

/-- Windows never hold more than the list has. -/
theorem held_le (hn : 0 < n) (h : Windows n total t) : held t ≤ total := by
  have hall := sum_length_chunk hn (replicate total ())
  rw [length_replicate] at hall
  rw [h.held_eq]
  calc ∑ i ∈ indices n t, (chunk n (replicate total ()) i).length
      ≤ ∑ i ∈ Finset.range (chunkCount n total), (chunk n (replicate total ()) i).length :=
        Finset.sum_le_sum_of_subset (h.indices_subset hn)
    _ = total := hall

/-- Windows that hold as much as the list has leave none out. -/
theorem lookup_of_held_eq (hn : 0 < n) (h : Windows n total t) (hfull : held t = total)
    (hi : i * n < total) : ∃ window, t.lookup (i * n) = some window := by
  have hcover := (sum_length_chunk_eq_iff hn (replicate total ()) (indices n t)
    (by rw [length_replicate]; exact h.indices_subset hn)).mp
    (by rw [← h.held_eq, length_replicate]; exact hfull)
  rw [length_replicate] at hcover
  have hmem : i ∈ indices n t := by
    rw [hcover, Finset.mem_range, lt_chunkCount_iff hn]
    exact hi
  rw [indices, mem_toFinset, mem_map] at hmem
  obtain ⟨offset, hkey, hdiv⟩ := hmem
  obtain ⟨window, hlookup⟩ := Table.mem_iff_lookup.mp (AList.mem_keys.mp hkey)
  obtain ⟨hmod, -⟩ := h offset window hlookup
  rw [← hdiv, Nat.div_mul_cancel (Nat.dvd_of_mod_eq_zero hmod)]
  exact ⟨window, hlookup⟩

end Windows

section Join

variable {windows : Nat → List α}

/-- Blocks of window lengths written one after the other are as long as their windows. -/
theorem length_flatMap_windows
    (hlen : ∀ i, i * n < total → (windows i).length = min n (total - i * n)) {k : Nat}
    (hk : ∀ i < k, i * n < total) :
    ((List.range k).flatMap windows).length = min (k * n) total := by
  induction k with
  | zero => simp
  | succ k ih =>
    have hlast := hk k (Nat.lt_succ_self k)
    rw [range_succ, flatMap_append, length_append,
      ih fun i hi => hk i (Nat.lt_succ_of_lt hi), flatMap_singleton, hlen k hlast,
      Nat.succ_mul]
    omega

theorem length_joined_windows (hn : 0 < n)
    (hlen : ∀ i, i * n < total → (windows i).length = min n (total - i * n)) :
    ((List.range (chunkCount n total)).flatMap windows).length = total := by
  rw [length_flatMap_windows hlen fun i hi => (lt_chunkCount_iff hn total i).mp hi]
  have hend := (lt_chunkCount_iff hn total (chunkCount n total)).not.mp (Nat.lt_irrefl _)
  omega

/-- Window `i` of the list put together is the `i`-th block. -/
theorem chunk_joined_windows (hn : 0 < n)
    (hlen : ∀ i, i * n < total → (windows i).length = min n (total - i * n)) (hi : i * n < total) :
    chunk n ((List.range (chunkCount n total)).flatMap windows) i = windows i := by
  have hcount := (lt_chunkCount_iff hn total i).mpr hi
  obtain ⟨rest, hrest⟩ : ∃ rest, chunkCount n total = i + 1 + rest :=
    ⟨chunkCount n total - (i + 1), by omega⟩
  have hbefore : ((range i).flatMap windows).length = i * n := by
    rw [length_flatMap_windows hlen fun j hj =>
      (lt_chunkCount_iff hn total j).mp (Nat.lt_trans hj hcount)]
    omega
  rw [chunk, hrest, range_add, range_succ, append_assoc, flatMap_append,
    drop_left' hbefore, flatMap_append, flatMap_singleton]
  by_cases hlast : rest = 0
  · rw [hlast, range_zero, map_nil, flatMap_nil, append_nil]
    apply take_of_length_le
    rw [hlen i hi]
    omega
  · -- A window before the last one is full.
    have hnext := (lt_chunkCount_iff hn total (i + 1)).mp (by omega)
    rw [Nat.succ_mul] at hnext
    exact take_left' (by rw [hlen i hi]; omega)

end Join

end AivpnSpec.Base
