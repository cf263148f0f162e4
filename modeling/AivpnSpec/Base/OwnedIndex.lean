import AivpnSpec.Base.Table

/-!
# An index whose entries have owners

A table of entries, each of which names its owner, and for every owner the list of the keys that it
has entries under. An owner publishes a new set of entries, which replaces its old one: new entries
go in before the old ones go out, and an old one goes out only if it still is the owner's. An owner
that withdraws takes its entries with it.
-/

namespace AivpnSpec.Base

/-- The entries and the keys of each owner. -/
structure OwnedIndex (O K E : Type) where
  entries : Table K E
  listed : Table O (List K)

namespace OwnedIndex

variable {O K E : Type} [DecidableEq O] [DecidableEq K] (owner : E → O)

def empty : OwnedIndex O K E := ⟨∅, ∅⟩

/-- Take out those of the keys whose entries belong to the owner. -/
def dropOwned (entries : Table K E) (o : O) (keys : List K) : Table K E :=
  keys.foldl (fun entries key => entries.removeIf key fun e => owner e = o) entries

def publish (index : OwnedIndex O K E) (o : O) (new : Table K E) : OwnedIndex O K E where
  entries := dropOwned owner (new ∪ index.entries) o
    (((index.listed.lookup o).getD []).filter fun key => key ∉ new)
  listed := index.listed.insert o new.keys

def withdraw (index : OwnedIndex O K E) (o : O) : OwnedIndex O K E :=
  match index.listed.lookup o with
  | none => index
  | some keys => ⟨dropOwned owner index.entries o keys, index.listed.erase o⟩

def Lists (index : OwnedIndex O K E) (o : O) (key : K) : Prop :=
  ∃ keys, index.listed.lookup o = some keys ∧ key ∈ keys

/-- An entry is listed for its owner, and a listed key has an entry of the owner. -/
structure Consistent (index : OwnedIndex O K E) : Prop where
  lists : ∀ key e, index.entries.lookup key = some e → index.Lists (owner e) key
  entry : ∀ o key, index.Lists o key → ∃ e, index.entries.lookup key = some e ∧ owner e = o

variable {owner} {index : OwnedIndex O K E} {o o' : O} {new : Table K E} {key : K} {e : E}

theorem lookup_dropOwned (entries : Table K E) (o : O) (keys : List K) (key : K) :
    (dropOwned owner entries o keys).lookup key =
      if key ∈ keys then (entries.lookup key).filter (fun e => owner e ≠ o)
      else entries.lookup key := by
  unfold dropOwned
  induction keys generalizing entries with
  | nil => simp
  | cons first rest ih =>
    rw [List.foldl_cons, ih, Table.lookup_removeIf]
    by_cases hfirst : key = first
    · subst hfirst
      cases entries.lookup key with
      | none => simp
      | some e =>
        by_cases howner : owner e = o <;> simp [howner, Option.filter]
    · simp [hfirst]

theorem lists_publish :
    (index.publish owner o new).Lists o' key ↔
      if o' = o then key ∈ new else index.Lists o' key := by
  unfold Lists publish
  simp only [Table.lookup_insert_eq]
  split
  · simp [AList.mem_keys]
  · rfl

theorem lists_withdraw : (index.withdraw owner o).Lists o' key ↔ o' ≠ o ∧ index.Lists o' key := by
  unfold Lists withdraw
  cases hlisted : index.listed.lookup o with
  | none =>
    simp only
    constructor
    · rintro ⟨keys, hkeys, hmem⟩
      refine ⟨?_, keys, hkeys, hmem⟩
      rintro rfl
      rw [hlisted] at hkeys
      cases hkeys
    · exact fun h => h.2
  | some keys =>
    simp only [Table.lookup_erase_eq]
    by_cases howner : o' = o <;> simp [howner]

omit [DecidableEq K] in
/-- Nothing is listed before the first publication. -/
theorem not_lists_empty : ¬(empty : OwnedIndex O K E).Lists o key := by
  rintro ⟨keys, hkeys, -⟩
  cases hkeys

/-- What is published is found. -/
theorem lookup_publish_new (h : new.lookup key = some e) :
    (index.publish owner o new).entries.lookup key = some e := by
  have hmem : key ∈ new := Table.mem_iff_lookup.mpr ⟨e, h⟩
  simp [publish, lookup_dropOwned, hmem, h]

section

variable (hindex : index.Consistent owner)

include hindex

/-- Under other keys the entries of other owners are left. -/
theorem Consistent.lookup_publish (h : key ∉ new) : (index.publish owner o new).entries.lookup key =
      (index.entries.lookup key).filter (fun e => owner e ≠ o) := by
  have hnew : new.lookup key = none := AList.lookup_eq_none.mpr h
  simp only [publish, lookup_dropOwned, Table.lookup_union, hnew, Option.none_or]
  split
  · rfl
  next hlisted =>
  cases hlookup : index.entries.lookup key with
  | none => rfl
  | some e =>
    have howner : owner e ≠ o := by
      rintro rfl
      obtain ⟨keys, hkeys, hmem⟩ := hindex.lists key e hlookup
      simp [hkeys, hmem, h] at hlisted
    simp [howner, Option.filter]

theorem Consistent.lookup_withdraw : (index.withdraw owner o).entries.lookup key =
      (index.entries.lookup key).filter (fun e => owner e ≠ o) := by
  have hkeep : ¬index.Lists o key → index.entries.lookup key =
      (index.entries.lookup key).filter (fun e => owner e ≠ o) := by
    intro hnot
    cases hlookup : index.entries.lookup key with
    | none => rfl
    | some e =>
      have howner : owner e ≠ o := by
        rintro rfl
        exact hnot (hindex.lists key e hlookup)
      simp [howner, Option.filter]
  unfold withdraw
  cases hlisted : index.listed.lookup o with
  | none =>
    apply hkeep
    rintro ⟨keys, hkeys, -⟩
    rw [hlisted] at hkeys
    cases hkeys
  | some keys =>
    simp only [lookup_dropOwned]
    split
    · rfl
    next hmem =>
    apply hkeep
    rintro ⟨keys', hkeys, hmem'⟩
    rw [hlisted] at hkeys
    cases hkeys
    exact hmem hmem'

/-- The entries of other owners survive a publication that has none of their keys. -/
theorem Consistent.lookup_publish_other
    (hapart : ∀ o', o' ≠ o → ∀ key, index.Lists o' key → key ∉ new)
    (h : index.entries.lookup key = some e) (howner : owner e ≠ o) :
    (index.publish owner o new).entries.lookup key = some e := by
  rw [hindex.lookup_publish (hapart _ howner key (hindex.lists key e h)), h]
  simp [howner, Option.filter]

/-- A publication keeps the index consistent if it has only the owner's entries and none of the keys
of another owner. -/
theorem Consistent.publish (hnew : ∀ key e, new.lookup key = some e → owner e = o)
    (hapart : ∀ o', o' ≠ o → ∀ key, index.Lists o' key → key ∉ new) :
    (index.publish owner o new).Consistent owner where
  lists := by
    intro key e h
    rw [lists_publish]
    by_cases hmem : key ∈ new
    · obtain ⟨e', he'⟩ := Table.mem_iff_lookup.mp hmem
      rw [lookup_publish_new he'] at h
      cases h
      rw [if_pos (hnew key e he')]
      exact hmem
    · rw [hindex.lookup_publish hmem, Option.filter_eq_some_iff] at h
      rw [if_neg (of_decide_eq_true h.2)]
      exact hindex.lists key e h.1
  entry := by
    intro o' key h
    rw [lists_publish] at h
    split at h
    · next howner =>
      obtain ⟨e, he⟩ := Table.mem_iff_lookup.mp h
      exact ⟨e, lookup_publish_new he, (hnew key e he).trans howner.symm⟩
    · next howner =>
      obtain ⟨e, he, rfl⟩ := hindex.entry o' key h
      exact ⟨e, hindex.lookup_publish_other hapart he howner, rfl⟩

/-- A withdrawal keeps the index consistent. -/
theorem Consistent.withdraw : (index.withdraw owner o).Consistent owner where
  lists := by
    intro key e h
    rw [hindex.lookup_withdraw, Option.filter_eq_some_iff] at h
    exact lists_withdraw.mpr ⟨of_decide_eq_true h.2, hindex.lists key e h.1⟩
  entry := by
    intro o' key h
    obtain ⟨howner, h⟩ := lists_withdraw.mp h
    obtain ⟨e, he, rfl⟩ := hindex.entry o' key h
    refine ⟨e, ?_, rfl⟩
    rw [hindex.lookup_withdraw, he]
    simp [howner, Option.filter]

end

end OwnedIndex

end AivpnSpec.Base
