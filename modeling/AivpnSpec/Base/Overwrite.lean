import AivpnSpec.Base.Layout

/-!
# Bytes written over a part of a byte string

`data[offset..offset + n].copy_from_slice(bytes)`: what stands in the result is what was written,
and outside of it what stood there before.
-/

namespace AivpnSpec.Base

open List

def overwrite (data : List UInt8) (offset : Nat) (bytes : List UInt8) : List UInt8 :=
  data.take offset ++ bytes ++ data.drop (offset + bytes.length)

variable {data bytes rest field : List UInt8} {offset position : Nat}

theorem length_overwrite (h : offset + bytes.length ≤ data.length) :
    (overwrite data offset bytes).length = data.length := by
  unfold overwrite
  rw [length_append, length_append, length_take, length_drop]
  omega

theorem getElem?_overwrite (h : offset + bytes.length ≤ data.length) (i : Nat) :
    (overwrite data offset bytes)[i]? =
      if offset ≤ i ∧ i < offset + bytes.length then bytes[i - offset]? else data[i]? := by
  have htake : (data.take offset).length = offset := by
    rw [length_take]
    omega
  unfold overwrite
  rw [append_assoc]
  by_cases hbefore : i < offset
  · rw [if_neg (by omega), getElem?_append_left (by omega), getElem?_take,
      if_pos hbefore]
  rw [getElem?_append_right (by omega), htake]
  by_cases hinside : i < offset + bytes.length
  · rw [if_pos (by omega), getElem?_append_left (by omega)]
  · rw [if_neg (by omega), getElem?_append_right (by omega), getElem?_drop]
    congr 1
    omega

/-- Bytes stand where each of them is found. -/
theorem hasAt_iff_getElem? :
    HasAt data offset field ↔ ∀ i < field.length, data[offset + i]? = field[i]? := by
  unfold HasAt
  rw [prefix_iff_getElem?]
  constructor
  · intro h i hi
    rw [← getElem?_drop, h i hi, getElem?_eq_getElem hi]
  · intro h i hi
    rw [getElem?_drop, h i hi, getElem?_eq_getElem hi]

theorem hasAt_overwrite (h : offset + bytes.length ≤ data.length) :
    HasAt (overwrite data offset bytes) offset bytes := by
  rw [hasAt_iff_getElem?]
  intro i hi
  rw [getElem?_overwrite h, if_pos (by omega), Nat.add_sub_cancel_left]

/-- Both byte strings agree wherever nothing was written. -/
def EqOutside (written : Nat → Prop) (before after : List UInt8) : Prop :=
  ∀ i, ¬ written i → before[i]? = after[i]?

variable {written : Nat → Prop}

theorem EqOutside.trans {a b c : List UInt8} (hab : EqOutside written a b)
    (hbc : EqOutside written b c) : EqOutside written a c :=
  fun i hi => (hab i hi).trans (hbc i hi)

theorem eqOutside_overwrite (h : offset + bytes.length ≤ data.length)
    (hwritten : ∀ i, offset ≤ i → i < offset + bytes.length → written i) :
    EqOutside written data (overwrite data offset bytes) := by
  intro i hi
  rw [getElem?_overwrite h, if_neg fun hin => hi (hwritten i hin.1 hin.2)]

/-- A field that was not written into stays. -/
theorem EqOutside.hasAt {before after : List UInt8} (h : EqOutside written before after)
    (hfield : HasAt before position field)
    (hapart : ∀ i, position ≤ i → i < position + field.length → ¬ written i) :
    HasAt after position field := by
  rw [hasAt_iff_getElem?] at hfield ⊢
  intro i hi
  rw [← h _ (hapart _ (by omega) (by omega))]
  exact hfield i hi

/-- An end that was not written into stays. -/
theorem EqOutside.drop_eq {before after : List UInt8} (h : EqOutside written before after)
    (hapart : ∀ i, position ≤ i → ¬ written i) : after.drop position = before.drop position := by
  apply ext_getElem?
  intro i
  rw [getElem?_drop, getElem?_drop, h _ (hapart _ (by omega))]

/-- Writes one after the other. -/
def overwriteAll (data : List UInt8) (writes : List (Nat × List UInt8)) : List UInt8 :=
  writes.foldl (fun data w => overwrite data w.1 w.2) data

/-- Writes that do not overlap: each of them stands in the end, and what is beside them stays. -/
theorem overwriteAll_spec {writes : List (Nat × List UInt8)}
    (hfits : ∀ w ∈ writes, w.1 + w.2.length ≤ data.length)
    (hapart : writes.Pairwise fun v w => v.1 + v.2.length ≤ w.1 ∨ w.1 + w.2.length ≤ v.1) :
    (overwriteAll data writes).length = data.length ∧
    EqOutside (fun i => ∃ w ∈ writes, w.1 ≤ i ∧ i < w.1 + w.2.length) data
      (overwriteAll data writes) ∧
    ∀ w ∈ writes, HasAt (overwriteAll data writes) w.1 w.2 := by
  induction writes generalizing data with
  | nil => exact ⟨rfl, fun _ _ => rfl, nofun⟩
  | cons v writes ih =>
    obtain ⟨hfirst, hrest⟩ := pairwise_cons.mp hapart
    have hv := hfits v mem_cons_self
    have hlength := length_overwrite hv
    obtain ⟨hlen, houtside, hstand⟩ := @ih (overwrite data v.1 v.2)
      (fun w hw => hlength ▸ hfits w (mem_cons_of_mem _ hw)) hrest
    refine ⟨hlen.trans hlength, ?_, fun w hw => ?_⟩
    · refine (eqOutside_overwrite hv fun i hlow hhigh => ⟨v, mem_cons_self, hlow, hhigh⟩).trans ?_
      rintro i hi
      exact houtside i fun ⟨w, hw, hin⟩ => hi ⟨w, mem_cons_of_mem _ hw, hin⟩
    · rcases mem_cons.mp hw with rfl | hw
      · -- the writes that follow are beside the first one
        refine houtside.hasAt (hasAt_overwrite hv) ?_
        rintro i hlow hhigh ⟨w', hw', hlow', hhigh'⟩
        have := hfirst w' hw'
        omega
      · exact hstand w hw

/-- Writing changes nothing exactly if the bytes stood there already. -/
theorem overwrite_eq_self_iff (h : offset + bytes.length ≤ data.length) :
    overwrite data offset bytes = data ↔ HasAt data offset bytes := by
  constructor
  · intro heq
    rw [← heq]
    exact hasAt_overwrite h
  · intro hfield
    rw [hasAt_iff_getElem?] at hfield
    apply ext_getElem?
    intro i
    rw [getElem?_overwrite h]
    split
    · next hinside =>
      rw [← hfield (i - offset) (by omega), Nat.add_sub_cancel' hinside.1]
    · rfl

end AivpnSpec.Base
