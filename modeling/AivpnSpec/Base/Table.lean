import Mathlib.Data.Finset.Card
import Mathlib.Data.List.AList
import Mathlib.Data.List.Perm.Subperm

/-!
# Key/value tables

The hash maps of the modelled program as association lists with one entry per key.
Lookup, insertion and erasure are those of `AList`; this file adds the `retain` filter,
the one-line lookup equations and the counting bound every capacity argument uses.
The order of `entries` is the order of insertion and stands for no order of the program.
-/

namespace AivpnSpec.Base

open List

/-- A finite map with at most one value for each key. -/
abbrev Table (K V : Type) := AList (fun _ : K => V)

namespace Table

variable {K V : Type} [DecidableEq K]

variable (t : Table K V) {k k' : K} {keep : K → V → Bool} {v w : V}

def retain (keep : K → V → Bool) : Table K V :=
  ⟨t.entries.filter fun e => keep e.1 e.2, t.nodupKeys.sublist List.filter_sublist⟩

def values : List V := t.entries.map fun e => e.2

def mapValues (f : V → V) : Table K V :=
  ⟨t.entries.map fun e => ⟨e.1, f e.2⟩, by
    have hkeys : (t.entries.map fun e => (⟨e.1, f e.2⟩ : Sigma fun _ : K => V)).keys =
        t.entries.keys := by
      simp [List.keys]
    rw [List.NodupKeys, hkeys]
    exact t.nodupKeys⟩

/-- Remove the value of a key if the predicate holds on it. -/
def removeIf (k : K) (p : V → Bool) : Table K V :=
  if (t.lookup k).any p then t.erase k else t

/-- The pairs of a list, of which the last for a key counts. -/
def ofList (pairs : List (K × V)) : Table K V :=
  pairs.foldl (fun t pair => t.insert pair.1 pair.2) ∅

def count (p : K → V → Bool) : Nat := t.entries.countP fun e => p e.1 e.2

/-- Membership of a pair is a successful lookup. -/
theorem mem_entries_iff {t : Table K V} :
    (⟨k, v⟩ : Sigma fun _ : K => V) ∈ t.entries ↔ t.lookup k = some v := by
  rw [← AList.mem_lookup_iff, Option.mem_def]

/-- Lookup after insertion, for every key. -/
theorem lookup_insert_eq (k k' : K) (v : V) :
    (t.insert k v).lookup k' = if k' = k then some v else t.lookup k' := by
  split
  · next h => subst h; exact AList.lookup_insert _
  · next h => exact AList.lookup_insert_ne h

/-- Lookup after erasure, for every key. -/
theorem lookup_erase_eq (k k' : K) :
    (t.erase k).lookup k' = if k' = k then none else t.lookup k' := by
  split
  · next h => subst h; exact AList.lookup_erase _ _
  · next h => exact AList.lookup_erase_ne h

/-- What is found after an insertion. -/
theorem cases_insert {t : Table K V} (h : (t.insert k v).lookup k' = some w) :
    k' = k ∧ v = w ∨ t.lookup k' = some w := by
  rw [lookup_insert_eq] at h
  split at h
  · next heq => exact .inl ⟨heq, Option.some.inj h⟩
  · exact .inr h

theorem of_lookup_erase {t : Table K V} (h : (t.erase k).lookup k' = some w) :
    k' ≠ k ∧ t.lookup k' = some w := by
  rw [lookup_erase_eq] at h
  split at h
  · cases h
  · next hne => exact ⟨hne, h⟩

/-- Lookup after `retain`: the old value, if the predicate keeps it. -/
theorem lookup_retain (keep : K → V → Bool) (k : K) :
    (t.retain keep).lookup k = (t.lookup k).filter (keep k) := by
  apply Option.ext
  intro v
  rw [← mem_entries_iff, Option.filter_eq_some_iff, ← mem_entries_iff]
  simp [retain]

/-- Lookup after `mapValues`. -/
theorem lookup_mapValues (f : V → V) (k : K) : (t.mapValues f).lookup k = (t.lookup k).map f := by
  apply Option.ext
  intro v
  rw [← mem_entries_iff, Option.map_eq_some_iff]
  simp only [mapValues, mem_map]
  constructor
  · rintro ⟨⟨k', u⟩, hmem, heq⟩
    cases heq
    exact ⟨u, mem_entries_iff.mp hmem, rfl⟩
  · rintro ⟨u, hlookup, rfl⟩
    exact ⟨⟨k, u⟩, mem_entries_iff.mpr hlookup, rfl⟩

/-- A `retain` that keeps the value of `k` does not change its lookup. -/
theorem lookup_retain_of_keep {t : Table K V} (h : t.lookup k = some v) (hk : keep k v = true) :
    (t.retain keep).lookup k = some v := by
  rw [lookup_retain, h]
  simp [hk]

/-- Lookup after `removeIf`, for every key. -/
theorem lookup_removeIf (k k' : K) (p : V → Bool) : (t.removeIf k p).lookup k' =
      if k' = k then (t.lookup k').filter (fun v => !p v) else t.lookup k' := by
  unfold removeIf
  by_cases hkey : k' = k
  · subst hkey
    rw [if_pos rfl]
    cases hlookup : t.lookup k' with
    | none => simp [hlookup]
    | some v =>
      by_cases hp : p v = true
      · simp [hp, Option.filter]
      · simp [hp, hlookup, Option.filter]
  · rw [if_neg hkey]
    split
    · exact AList.lookup_erase_ne hkey
    · rfl

/-- A key of a table of pairs has the value of one of them. -/
theorem lookup_ofList (pairs : List (K × V)) (k : K) :
    (∃ v, (k, v) ∈ pairs ∧ (ofList pairs).lookup k = some v) ∨
    ((∀ v, (k, v) ∉ pairs) ∧ (ofList pairs).lookup k = none) := by
  suffices hfold : ∀ t : Table K V,
      (∃ v, (k, v) ∈ pairs ∧
        (pairs.foldl (fun t pair => t.insert pair.1 pair.2) t).lookup k = some v) ∨
      ((∀ v, (k, v) ∉ pairs) ∧
        (pairs.foldl (fun t pair => t.insert pair.1 pair.2) t).lookup k = t.lookup k) from
    hfold ∅
  induction pairs with
  | nil => exact fun t => .inr ⟨fun v => not_mem_nil, rfl⟩
  | cons pair rest ih =>
    intro t
    rw [foldl_cons]
    rcases ih (t.insert pair.1 pair.2) with ⟨v, hmem, hlookup⟩ | ⟨hnone, hlookup⟩
    · exact .inl ⟨v, mem_cons_of_mem _ hmem, hlookup⟩
    rw [lookup_insert_eq] at hlookup
    by_cases hkey : k = pair.1
    · rw [if_pos hkey] at hlookup
      exact .inl ⟨pair.2, hkey ▸ mem_cons_self, hlookup⟩
    rw [if_neg hkey] at hlookup
    refine .inr ⟨fun v hmem => ?_, hlookup⟩
    rcases mem_cons.mp hmem with heq | hmem
    · exact hkey (congrArg Prod.fst heq)
    · exact hnone v hmem

theorem mem_of_lookup_ofList {pairs : List (K × V)} (h : (ofList pairs).lookup k = some v) :
    (k, v) ∈ pairs := by
  rcases lookup_ofList pairs k with ⟨u, hmem, hlookup⟩ | ⟨-, hlookup⟩
  · rw [hlookup] at h
    cases h
    exact hmem
  · rw [hlookup] at h
    cases h

/-- A key is in a table exactly if it has a value. -/
theorem mem_iff_lookup {t : Table K V} : k ∈ t ↔ ∃ v, t.lookup k = some v := by
  rw [← AList.lookup_isSome, Option.isSome_iff_exists]

/-- Lookup in a union: the first table comes first. -/
theorem lookup_union (t u : Table K V) (k : K) :
    (t ∪ u).lookup k = (t.lookup k).or (u.lookup k) := by
  by_cases hmem : k ∈ t
  · rw [AList.lookup_union_left hmem]
    obtain ⟨v, hv⟩ := mem_iff_lookup.mp hmem
    rw [hv]
    rfl
  · rw [AList.lookup_union_right hmem, AList.lookup_eq_none.mpr hmem]
    rfl

/-- What `retain` leaves was there before and is kept. -/
theorem lookup_of_lookup_retain {t : Table K V} (h : (t.retain keep).lookup k = some v) :
    t.lookup k = some v ∧ keep k v = true := by
  rw [lookup_retain, Option.filter_eq_some_iff] at h
  exact h

def select (p : K → V → Bool) : Finset K :=
  ((t.entries.filter fun e => p e.1 e.2).map Sigma.fst).toFinset

theorem mem_select {t : Table K V} {p : K → V → Bool} :
    k ∈ t.select p ↔ ∃ v, t.lookup k = some v ∧ p k v = true := by
  simp only [select, mem_toFinset, mem_map, mem_filter]
  constructor
  · rintro ⟨⟨k', v⟩, ⟨hmem, hp⟩, rfl⟩
    exact ⟨v, mem_entries_iff.mp hmem, hp⟩
  · rintro ⟨v, hlookup, hp⟩
    exact ⟨⟨k, v⟩, ⟨mem_entries_iff.mpr hlookup, hp⟩, rfl⟩

/-- Counting entries is counting their keys. -/
theorem count_eq_card (p : K → V → Bool) : t.count p = (t.select p).card := by
  have hnodup : ((t.entries.filter fun e => p e.1 e.2).map Sigma.fst).Nodup :=
    Nodup.sublist (filter_sublist.map Sigma.fst) t.nodupKeys
  rw [select, toFinset_card_of_nodup hnodup, length_map, ← countP_eq_length_filter]
  rfl

section Counting

variable {t t' : Table K V} {p p' : K → V → Bool} {v₁ : V} {k₁ : K}

/-- Fewer entries count less. -/
theorem count_le_count (h : ∀ k v, t'.lookup k = some v → p' k v = true →
    ∃ u, t.lookup k = some u ∧ p k u = true) : t'.count p' ≤ t.count p := by
  rw [count_eq_card, count_eq_card]
  apply Finset.card_le_card
  intro k hk
  obtain ⟨v, hlookup, hv⟩ := mem_select.mp hk
  exact mem_select.mpr (h k v hlookup hv)

/-- Fewer entries, one of them gone, count strictly less. -/
theorem count_lt_count (hold : t.lookup k₁ = some v₁) (hp : p k₁ v₁ = true)
    (hgone : t'.lookup k₁ = none) (h : ∀ k v, t'.lookup k = some v → p' k v = true →
      ∃ u, t.lookup k = some u ∧ p k u = true) : t'.count p' < t.count p := by
  rw [count_eq_card, count_eq_card]
  apply Finset.card_lt_card
  refine (Finset.ssubset_iff_of_subset ?_).mpr ⟨k₁, mem_select.mpr ⟨v₁, hold, hp⟩, ?_⟩
  · intro k hk
    obtain ⟨v, hlookup, hv⟩ := mem_select.mp hk
    exact mem_select.mpr (h k v hlookup hv)
  · intro hmem
    obtain ⟨v, hlookup, -⟩ := mem_select.mp hmem
    rw [hgone] at hlookup
    cases hlookup

/-- Something that is counted is there. -/
theorem exists_of_count_pos (h : 0 < t.count p) : ∃ k v, t.lookup k = some v ∧ p k v = true := by
  rw [count_eq_card, Finset.card_pos] at h
  obtain ⟨k, hk⟩ := h
  exact ⟨k, mem_select.mp hk⟩

/-- One more entry counts at most one more. -/
theorem count_le_succ (k₀ : K) (h : ∀ k v, t'.lookup k = some v → p' k v = true → k ≠ k₀ →
    ∃ u, t.lookup k = some u ∧ p k u = true) : t'.count p' ≤ t.count p + 1 := by
  rw [count_eq_card, count_eq_card]
  have hsub : t'.select p' ⊆ insert k₀ (t.select p) := by
    intro k hk
    obtain ⟨v, hlookup, hv⟩ := mem_select.mp hk
    by_cases hkey : k = k₀
    · rw [hkey]
      exact Finset.mem_insert_self _ _
    · exact Finset.mem_insert_of_mem (mem_select.mpr (h k v hlookup hv hkey))
  exact (Finset.card_le_card hsub).trans (Finset.card_insert_le _ _)

/-- An entry in place of another does not count more. -/
theorem count_le_of_replace (k₀ : K) (hold : t.lookup k₁ = some v₁) (hp : p k₁ v₁ = true)
    (h : ∀ k v, t'.lookup k = some v → p' k v = true → k ≠ k₀ →
      k ≠ k₁ ∧ ∃ u, t.lookup k = some u ∧ p k u = true) : t'.count p' ≤ t.count p := by
  rw [count_eq_card, count_eq_card]
  have hmem : k₁ ∈ t.select p := mem_select.mpr ⟨v₁, hold, hp⟩
  have hsub : t'.select p' ⊆ insert k₀ ((t.select p).erase k₁) := by
    intro k hk
    obtain ⟨v, hlookup, hv⟩ := mem_select.mp hk
    by_cases hkey : k = k₀
    · rw [hkey]
      exact Finset.mem_insert_self _ _
    · obtain ⟨hne, hrest⟩ := h k v hlookup hv hkey
      exact Finset.mem_insert_of_mem (Finset.mem_erase.mpr ⟨hne, mem_select.mpr hrest⟩)
  calc (t'.select p').card
      ≤ ((t.select p).erase k₁).card + 1 :=
        (Finset.card_le_card hsub).trans (Finset.card_insert_le _ _)
    _ = (t.select p).card := Finset.card_erase_add_one hmem

end Counting

/-- Counting bound: entries that map injectively into a list are at most its length. -/
theorem count_le_length {α : Type} [DecidableEq α] (t : Table K V) (p : K → V → Bool)
    (f : K → α) (l : List α)
    (hmem : ∀ k v, t.lookup k = some v → p k v = true → f k ∈ l)
    (hinj : ∀ k v k' v', t.lookup k = some v → p k v = true →
      t.lookup k' = some v' → p k' v' = true → f k = f k' → k = k') :
    t.count p ≤ l.length := by
  rw [count_eq_card]
  have hmaps : ∀ k ∈ t.select p, f k ∈ l.toFinset := by
    intro k hk
    obtain ⟨v, hlookup, hv⟩ := mem_select.mp hk
    exact mem_toFinset.mpr (hmem k v hlookup hv)
  have hon : Set.InjOn f (t.select p) := by
    intro k hk k' hk' heq
    obtain ⟨v, hlookup, hv⟩ := mem_select.mp hk
    obtain ⟨v', hlookup', hv'⟩ := mem_select.mp hk'
    exact hinj k v k' v' hlookup hv hlookup' hv' heq
  exact (Finset.card_le_card_of_injOn f hmaps hon).trans l.toFinset_card_le

end Table

end AivpnSpec.Base
