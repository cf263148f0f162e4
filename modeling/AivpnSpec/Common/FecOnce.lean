import AivpnSpec.Base.Runs
import AivpnSpec.Common.FecCalls

/-!
# FEC hands each member on at most once

A member reaches the network stack when `record` accepts it or when it is the packet that
completes its group. The position of its group is then in one of three stores that has its
index, and it stays there through completion, expiry and eviction until the position is
forgotten.
-/

namespace AivpnSpec.Common

open AivpnSpec.Base List

/-- The counter of a pending group counts the indices it has seen. -/
structure PendingGroup.Counted (group : PendingGroup) : Prop where
  size : group.groupSize ≠ 0
  count : group.count.toNat =
    (List.range group.groupSize.toNat).countP group.seen.testBit

namespace FecReceiver

def remembered (r : FecReceiver) (q : Nat) : Bool :=
  q ∈ r.completedSet || (r.pending.lookup q).isSome || (r.retired.lookup q).isSome

/-- The stores know that member `i` of the group at position `q` was handed on: the whole
group is completed, or the index is marked. -/
def seenAt (r : FecReceiver) (q i : Nat) : Bool :=
  q ∈ r.completedSet || (r.pending.lookup q).any (·.seen.testBit i) ||
    (r.retired.lookup q).any (·.seen.testBit i)

def brings : FecCall → Nat → Bool
  | .record metadata .., i => metadata.index.toNat = i
  | .repair .., _ => false

/-- The members of the call's group that nobody has brought, the call included. -/
def missing (r : FecReceiver) (c : FecCall) : List Nat :=
  (List.range c.size.toNat).filter fun i =>
    !(r.swept c).seenAt (r.positionOf c) i && !brings c i

/-- The indices of the call's group that the answer hands on: the call's own member if
accepted, the missing one if a packet is recovered. -/
def handedBy (r : FecReceiver) (c : FecCall) : Except Error FecRxResult → List Nat
  | .error _ => []
  | .ok result =>
    (match c with
      | .record metadata .. => if result.accepted then [metadata.index.toNat] else []
      | .repair .. => []) ++
    if result.recovered.isSome then r.missing c else []

/-- The indices of the call's group that the call hands on. -/
def handedOn (r : FecReceiver) (c : FecCall) : List Nat := r.handedBy c (r.call c).1

/-- The invariant of the receiver: its stores are apart and its counters are right. -/
structure Inv (r : FecReceiver) : Prop where
  apart : r.Apart
  counted : ∀ q g, r.pending.lookup q = some g → g.Counted

end FecReceiver

namespace PendingGroup

theorem Counted.new {size : UInt8} (h : size ≠ 0) (now ticket : Nat) :
    (PendingGroup.new size now ticket).Counted where
  size := h
  count := by
    symm
    apply countP_eq_zero.mpr
    intro i _
    simp [PendingGroup.new]

variable {group : PendingGroup}

/-- The marks after a member was added. -/
theorem testBit_addMember (group : PendingGroup) (payload : Bytes) (index : UInt8) (i : Nat) :
    (((group.absorb payload).mark index).countMember).seen.testBit i =
      (decide (index.toNat = i) || group.seen.testBit i) :=
  Bitmap.testBit_setBit _ (UInt8.toNat_lt index) i

private theorem countP_or_eq {n k : Nat} {p : Nat → Bool} (hk : k < n) (hp : p k = false) :
    (List.range n).countP (fun i => decide (k = i) || p i) = (List.range n).countP p + 1 := by
  induction n with
  | zero => omega
  | succ n ih =>
    rw [range_succ, countP_append, countP_append]
    by_cases hkn : k = n
    · subst hkn
      have hsame : (range k).countP (fun i => decide (k = i) || p i) =
          (range k).countP p := by
        apply countP_congr
        intro i hi
        have hne : k ≠ i := by
          have := mem_range.mp hi
          omega
        simp [hne]
      rw [hsame]
      simp [hp]
    · simp [hkn]
      omega

/-- A new member keeps the counter right. -/
theorem Counted.addMember (h : group.Counted) (payload : Bytes) {index : UInt8}
    (hlt : index < group.groupSize) (hnew : group.seen.testBit index.toNat = false) :
    (((group.absorb payload).mark index).countMember).Counted where
  size := h.size
  count := by
    have hn : index.toNat < group.groupSize.toNat := UInt8.lt_iff_toNat_lt.mp hlt
    have hcount := countP_or_eq hn hnew
    have hle := countP_le_length
      (p := fun i => decide (index.toNat = i) || group.seen.testBit i)
      (l := range group.groupSize.toNat)
    rw [length_range, hcount, ← h.count] at hle
    have hsize := UInt8.toNat_lt group.groupSize
    have hne : group.count ≠ 255 := by
      intro hc
      rw [hc] at hle
      simp at hle
      omega
    have hseen : (((group.absorb payload).mark index).countMember).seen.testBit =
        fun i => decide (index.toNat = i) || group.seen.testBit i := by
      funext i
      exact testBit_addMember group payload index i
    rw [hseen]
    show (if group.count = 255 then 255 else group.count + 1).toNat = _
    rw [if_neg hne, UInt8.toNat_add, h.count]
    show (_ + 1) % 256 = (range group.groupSize.toNat).countP _
    rw [h.count] at hle
    omega

/-- What a call adds to a pending group keeps its counter right. -/
theorem Counted.update (h : group.Counted) {c : FecCall} (hv : c.Valid)
    (hs : group.groupSize = c.size) (hn : ¬ c.Repeats group) : (c.update group).Counted := by
  cases c with
  | record metadata payload now order =>
    apply h.addMember payload
    · rw [hs]
      exact hv.2.1
    · simpa [FecCall.Repeats] using hn
  | repair repair now order => exact ⟨h.size, h.count⟩

end PendingGroup

namespace FecReceiver

variable {r r' : FecReceiver} {c : FecCall} {seq q i : Nat}

theorem Retires.inv (h : Retires r r') (hi : r.Inv) : r'.Inv :=
  ⟨h.apart hi.apart, fun q g hq => hi.counted q g (h.pending_of_some hq)⟩

/-- Retirement loses no mark of a position that is still remembered. -/
theorem Retires.seenAt (h : Retires r r') (ha : r.Apart) (hs : r.seenAt q i = true)
    (hr : r'.remembered q = true) : r'.seenAt q i = true := by
  by_cases hc : q ∈ r.completedSet
  · simp [FecReceiver.seenAt, h.completedSet, hc]
  have hc' : q ∉ r'.completedSet := by rwa [h.completedSet]
  simp only [FecReceiver.seenAt, hc, decide_false, Bool.false_or] at hs
  simp only [remembered, hc', decide_false, Bool.false_or] at hr
  cases hp : r.pending.lookup q with
  | some g =>
    rw [hp, ha.pendingRetired q g hp] at hs
    rcases h.pending q with he | he
    · simp_all [FecReceiver.seenAt]
    -- the group was retired, and its marks went with it
    rw [he, Option.isSome_none, Bool.false_or, Option.isSome_iff_exists] at hr
    obtain ⟨g', hg'⟩ := hr
    rcases h.retired q g' hg' with hold | ⟨g₂, hg₂, -, rfl⟩
    · rw [ha.pendingRetired q g hp] at hold
      cases hold
    · rw [hp] at hg₂
      cases hg₂
      simp_all [FecReceiver.seenAt]
  | none =>
    rw [hp, Option.any_none, Bool.false_or] at hs
    rw [h.pending_of_none hp, Option.isSome_none, Bool.false_or,
      Option.isSome_iff_exists] at hr
    obtain ⟨g', hg'⟩ := hr
    rcases h.retired q g' hg' with hold | ⟨g₂, hg₂, -⟩
    · rw [hold] at hs
      simp only [FecReceiver.seenAt, hg', hs, Bool.or_true]
    · rw [hp] at hg₂
      cases hg₂

theorem entered_inv (hi : r.Inv) (c : FecCall) : (r.entered c).Inv := by
  have h := (swept_retires hi.apart c).inv hi
  exact ⟨⟨h.apart.pendingCompleted, h.apart.pendingRetired, h.apart.retiredCompleted⟩, h.counted⟩

theorem lookup_setPending (r : FecReceiver) (seq q : Nat) (group : PendingGroup) :
    (r.setPending seq group).pending.lookup q =
      if q = seq then some group else r.pending.lookup q :=
  Table.lookup_insert_eq _ _ _ _

/-- A change at one position is not seen at another. -/
theorem setPending_of_ne (r : FecReceiver) (h : q ≠ seq) (group : PendingGroup) :
    (∀ i, (r.setPending seq group).seenAt q i = r.seenAt q i) ∧
      (r.setPending seq group).remembered q = r.remembered q := by
  have hl : (r.setPending seq group).pending.lookup q = r.pending.lookup q := by
    rw [lookup_setPending, if_neg h]
  have hc : (r.setPending seq group).completedSet = r.completedSet := rfl
  have hr : (r.setPending seq group).retired = r.retired := rfl
  simp only [seenAt, remembered, hl, hc, hr, implies_true, and_self]

variable {group : PendingGroup} {answer : Except Error FecRxResult} {now : Nat}

theorem setPending_inv (hi : r.Inv) (hc : seq ∉ r.completedSet) (hr : r.retired.lookup seq = none)
    (hg : group.Counted) : (r.setPending seq group).Inv := by
  refine ⟨⟨?_, ?_, hi.apart.retiredCompleted⟩, ?_⟩
  all_goals
    intro q g hq
    rw [lookup_setPending] at hq
    split at hq
  · next he => exact he ▸ hc
  · exact hi.apart.pendingCompleted q g hq
  · next he => exact he ▸ hr
  · exact hi.apart.pendingRetired q g hq
  · cases hq
    exact hg
  · exact hi.counted q g hq

/-- The state `ensure_group` leaves: the group at its position, the rest retired or as it
was. -/
theorem ensureGroup_state {size : UInt8} (hi : r.Inv) (hz : size ≠ 0) (hc : seq ∉ r.completedSet)
    (hr : r.retired.lookup seq = none) (h : r.ensureGroup seq size now = (.ok group, r')) :
    group.groupSize = size ∧ group.Counted ∧ r'.pending.lookup seq = some group ∧
    r'.retired.lookup seq = none ∧ seq ∉ r'.completedSet ∧ r'.Inv ∧
    (∀ i, group.seen.testBit i = r.seenAt seq i) ∧
    ∀ q i, q ≠ seq → r.seenAt q i = true → r'.remembered q = true → r'.seenAt q i = true := by
  rcases ensureGroup_ok hi.apart h with ⟨hp, hs, rfl⟩ | ⟨hp, r₁, ticket, hret, rfl, rfl⟩
  · refine ⟨hs, hi.counted seq group hp, hp, hr, hc, hi, ?_, fun q i _ h _ => h⟩
    intro i
    simp [seenAt, hc, hp, hr]
  have hp₁ := hret.pending_of_none hp
  have hr₁ : r₁.retired.lookup seq = none := by
    cases hl : r₁.retired.lookup seq with
    | none => rfl
    | some g' =>
      rcases hret.retired seq g' hl with hl | ⟨g, hg, -⟩
      · rw [hr] at hl
        cases hl
      · rw [hp] at hg
        cases hg
  have hc₁ : seq ∉ r₁.completedSet := by rwa [hret.completedSet]
  have hg : (PendingGroup.new size now ticket).Counted := PendingGroup.Counted.new hz now ticket
  have hinv : ({ r₁ with nextTicket := ticket + 1 } : FecReceiver).Inv := by
    have h₁ := hret.inv hi
    exact ⟨⟨h₁.apart.pendingCompleted, h₁.apart.pendingRetired, h₁.apart.retiredCompleted⟩,
      h₁.counted⟩
  refine ⟨rfl, hg, ?_, hr₁, hc₁, setPending_inv hinv hc₁ hr₁ hg, ?_, ?_⟩
  · rw [lookup_setPending, if_pos rfl]
  · intro i
    simp [seenAt, hc, hp, hr, PendingGroup.new]
  · intro q i hq hs hrem
    obtain ⟨hseen, hsame⟩ := setPending_of_ne
      { r₁ with nextTicket := ticket + 1 } hq (PendingGroup.new size now ticket)
    rw [hsame] at hrem
    rw [hseen]
    exact hret.seenAt hi.apart hs hrem

/-- `finish` after an update: what it remembers, and what it leaves of the others. -/
theorem finish_state (hi : r.Inv) (hp : r.pending.lookup seq = some group)
    (hr : r.retired.lookup seq = none) :
    (r.finish seq true).2.Inv ∧ (r.finish seq true).1.accepted = true ∧
    (∀ i, (group.seen.testBit i = true ∨ (r.finish seq true).1.recovered.isSome = true) →
      (r.finish seq true).2.remembered seq = true →
      (r.finish seq true).2.seenAt seq i = true) ∧
    ∀ q, q ≠ seq → (r.finish seq true).2.remembered q = true → r.remembered q = true ∧
      ∀ i, r.seenAt q i = true → (r.finish seq true).2.seenAt q i = true := by
  -- both ways of completing lead to the same state
  have hcomplete : ∀ result : FecRxResult, result.accepted = true →
      (r.completeGroup seq).Inv ∧ result.accepted = true ∧
      (∀ i, (group.seen.testBit i = true ∨ result.recovered.isSome = true) →
        (r.completeGroup seq).remembered seq = true →
        (r.completeGroup seq).seenAt seq i = true) ∧
      ∀ q, q ≠ seq → (r.completeGroup seq).remembered q = true → r.remembered q = true ∧
        ∀ i, r.seenAt q i = true → (r.completeGroup seq).seenAt q i = true := by
    intro result hacc
    obtain ⟨hpend, hret, -, hset⟩ := completeGroup_spec r seq
    refine ⟨⟨⟨?_, ?_, ?_⟩, ?_⟩, hacc, ?_, ?_⟩
    · intro q g hq hc
      rw [hpend] at hq
      split at hq
      · cases hq
      next hne =>
      rcases hset q hc with hs | hs
      · exact hne hs
      · exact hi.apart.pendingCompleted q g hq hs
    · intro q g hq
      rw [hpend] at hq
      rw [hret]
      split at hq
      · cases hq
      · exact hi.apart.pendingRetired q g hq
    · intro q g hq hc
      rw [hret] at hq
      rcases hset q hc with hs | hs
      · rw [hs, hr] at hq
        cases hq
      · exact hi.apart.retiredCompleted q g hq hs
    · intro q g hq
      rw [hpend] at hq
      split at hq
      · cases hq
      · exact hi.counted q g hq
    · intro i _ hrem
      simp only [remembered, hpend, if_pos, hret, hr, Option.isSome_none, Bool.or_false] at hrem
      simp only [seenAt, hrem, Bool.true_or]
    · intro q hq hrem
      simp only [remembered, hpend, if_neg hq, hret] at hrem
      refine ⟨?_, ?_⟩
      · simp only [Bool.or_eq_true, decide_eq_true_eq] at hrem
        simp only [remembered, Bool.or_eq_true, decide_eq_true_eq]
        exact hrem.imp_left (Or.imp_left fun hc => (hset q hc).resolve_left hq)
      intro i hs
      simp only [seenAt, hpend, if_neg hq, hret]
      by_cases hc : q ∈ r.completedSet
      · -- a completed position is in no other store, so it is still in this one
        simp only [hi.apart.pending_of_completed hc, hi.apart.retired_of_completed hc,
          Option.isSome_none, Bool.or_false] at hrem
        simp only [hrem, Bool.true_or]
      · simp only [seenAt, hc, decide_false, Bool.false_or, Bool.or_eq_true] at hs
        rcases hs with hs | hs <;> simp only [hs, Bool.or_true, Bool.true_or]
  rcases finish_cases hp true with ⟨-, he⟩ | ⟨-, -, -, -, he⟩ | ⟨-, -, he⟩
  · rw [he]
    exact hcomplete _ rfl
  · rw [he]
    exact hcomplete _ rfl
  · rw [he]
    refine ⟨hi, rfl, ?_, fun q _ hrem => ⟨hrem, fun i hs => hs⟩⟩
    rintro i (hs | hs) -
    · simp [seenAt, hp, hs]
    · cases hs

theorem handedBy_quiet (h : Quiet answer) : r.handedBy c answer = [] := by
  cases answer with
  | error e => rfl
  | ok result =>
    obtain ⟨ha, hr⟩ := h
    unfold handedBy
    cases c <;> simp [ha, hr]

/-- The marks after a call's update. -/
theorem testBit_update (c : FecCall) (group : PendingGroup) (i : Nat) :
    (c.update group).seen.testBit i = (brings c i || group.seen.testBit i) := by
  cases c with
  | record metadata payload now order =>
    exact PendingGroup.testBit_addMember group payload metadata.index i
  | repair repair now order => simp [FecCall.update, PendingGroup.storeRepair, brings]

/-- What one call does, as far as the once-only property is concerned. -/
structure CallSafe (r : FecReceiver) (c : FecCall) (answer : Except Error FecRxResult)
    (r' : FecReceiver) : Prop where
  inv : r'.Inv
  keeps : ∀ q i, r.seenAt q i = true → (r.swept c).remembered q = true →
    r'.remembered q = true → r'.seenAt q i = true
  fresh : ∀ i ∈ r.handedBy c answer, (r.swept c).seenAt (r.positionOf c) i = false
  marks : ∀ i ∈ r.handedBy c answer, r'.remembered (r.positionOf c) = true →
    r'.seenAt (r.positionOf c) i = true
  nodup : (r.handedBy c answer).Nodup
  single : ∀ result, answer = .ok result → result.recovered.isSome = true →
    (r.missing c).length = 1

private theorem callSafe_quiet (hinv : r'.Inv)
    (hkeeps : ∀ q i, r.seenAt q i = true → (r.swept c).remembered q = true →
      r'.remembered q = true → r'.seenAt q i = true)
    (hq : Quiet answer) : CallSafe r c answer r' := by
  have hnone := handedBy_quiet (r := r) (c := c) hq
  refine ⟨hinv, hkeeps, ?_, ?_, ?_, ?_⟩
  · simp [hnone]
  · simp [hnone]
  · simp [hnone]
  · rintro result rfl hrec
    rw [hq.2] at hrec
    cases hrec

private theorem length_filter_not {n : Nat} (p : Nat → Bool) :
    ((List.range n).filter fun i => !p i).length + (List.range n).countP p = n := by
  have h := length_eq_countP_add_countP p (l := range n)
  rw [length_range] at h
  rw [← countP_eq_length_filter]
  have hsame : (range n).countP (fun i => !p i) =
      (range n).countP (fun i => decide ¬ p i = true) := by
    apply countP_congr
    intro i _
    simp
  omega

/-- A group in place at the call's position hides no mark. -/
theorem opened_keeps (hseen : ∀ i, group.seen.testBit i = r.seenAt seq i)
    (hp : r'.pending.lookup seq = some group)
    (hother : ∀ q i, q ≠ seq → r.seenAt q i = true → r'.remembered q = true → r'.seenAt q i = true)
    (hs : r.seenAt q i = true) (hrem : r'.remembered q = true) : r'.seenAt q i = true := by
  by_cases hq : q = seq
  · subst hq
    rw [← hseen] at hs
    simp [seenAt, hp, hs]
  · exact hother q i hq hs hrem

/-- The members missing before a call that recovers one are those unmarked after it. -/
theorem missing_eq (hs : group.groupSize = c.size)
    (hseen : ∀ i, group.seen.testBit i = (r.swept c).seenAt (r.positionOf c) i) :
    r.missing c = (List.range (c.update group).groupSize.toNat).filter fun i =>
      !(c.update group).seen.testBit i := by
  have hsize : (c.update group).groupSize = c.size := by
    rw [← hs]
    cases c <;> rfl
  rw [hsize, missing]
  apply filter_congr
  intro i _
  rw [testBit_update, hseen, Bool.not_or, Bool.and_comm]

/-- A group that recovers a packet has one member missing. -/
theorem length_missing (hs : group.groupSize = c.size) (hg : (c.update group).Counted)
    (hseen : ∀ i, group.seen.testBit i = (r.swept c).seenAt (r.positionOf c) i)
    (hcount : (c.update group).count = (c.update group).groupSize - 1) :
    (r.missing c).length = 1 := by
  have hlen := length_filter_not (n := (c.update group).groupSize.toNat)
    (c.update group).seen.testBit
  have hpos : 0 < (c.update group).groupSize.toNat := by
    have := hg.size
    rw [ne_eq, ← UInt8.toNat_inj] at this
    exact Nat.pos_of_ne_zero this
  have hle : (1 : UInt8) ≤ (c.update group).groupSize := by
    exact hpos
  have hc := hg.count
  rw [hcount, UInt8.toNat_sub_of_le _ _ hle, UInt8.toNat_one] at hc
  rw [missing_eq hs hseen]
  omega

/-- A late member of a retired group: its index is marked there, nothing else changes. -/
theorem late_safe {metadata : FecMetadata} {payload : Bytes} {order : List Nat}
    {group : RetiredGroup} (hi : r.Inv) (hcall : c = .record metadata payload now order)
    (hc : r.positionOf c ∉ (r.entered c).completedSet)
    (h : (r.entered c).retired.lookup (r.positionOf c) = some group)
    (hnew : group.seen.testBit metadata.index.toNat = false) :
    CallSafe r c (.ok { accepted := true, recovered := none, complete := false })
      { r.entered c with
        retired := (r.entered c).retired.insert (r.positionOf c)
          { group with seen := group.seen.setBit metadata.index.toNat } } := by
  have hent := entered_inv hi c
  have hnp := hent.apart.pending_of_retired h
  have hlook := Table.lookup_insert_eq (r.entered c).retired (r.positionOf c)
  have hmark := Bitmap.testBit_setBit group.seen
    (i := metadata.index.toNat) (UInt8.toNat_lt metadata.index)
  have hhanded : r.handedBy c (.ok { accepted := true, recovered := none, complete := false }) =
      [metadata.index.toNat] := by
    subst hcall
    simp [handedBy]
  refine ⟨⟨⟨hent.apart.pendingCompleted, ?_, ?_⟩, hent.counted⟩, ?_, ?_, ?_, ?_, ?_⟩
  · intro q g hq
    have hne : q ≠ r.positionOf c := by
      rintro rfl
      rw [hnp] at hq
      cases hq
    simp only [hlook, if_neg hne]
    exact hent.apart.pendingRetired q g hq
  · intro q g hq
    simp only [hlook] at hq
    split at hq
    · next he => exact he ▸ hc
    · exact hent.apart.retiredCompleted q g hq
  · intro q i hs hm _
    have hs : (r.entered c).seenAt q i = true :=
      (swept_retires hi.apart c).seenAt hi.apart hs hm
    by_cases hq : q = r.positionOf c
    · subst hq
      simp only [seenAt, hc, hnp, h, Option.any_none, Option.any_some, decide_false,
        Bool.or_self, Bool.false_or] at hs
      simp [seenAt, hlook, hmark, hs]
    · simpa [seenAt, hlook, hq] using hs
  · intro i hmem
    rw [hhanded, mem_singleton] at hmem
    change (r.entered c).seenAt _ i = false
    simp [seenAt, hc, hnp, h, hmem, hnew]
  · intro i hmem _
    rw [hhanded, mem_singleton] at hmem
    simp [seenAt, hlook, hmark, hmem]
  · rw [hhanded]
    exact nodup_singleton _
  · intro result hres hrec
    cases hres
    cases hrec

/-- An update of a pending group, completed by it or not. -/
theorem updated_safe (hi : r.Inv) (hv : c.Valid) (hc : r.positionOf c ∉ (r.entered c).completedSet)
    (hr : (r.entered c).retired.lookup (r.positionOf c) = none)
    (ho : (r.entered c).ensureGroup (r.positionOf c) c.size c.now = (.ok group, r'))
    (hn : ¬ c.Repeats group) :
    CallSafe r c
      (.ok ((r'.setPending (r.positionOf c) (c.update group)).finish (r.positionOf c) true).1)
      ((r'.setPending (r.positionOf c) (c.update group)).finish (r.positionOf c) true).2 := by
  obtain ⟨hsize, hg, hp, hr', hc', hinv, hseen, hother⟩ :=
    ensureGroup_state (entered_inv hi c) hv.size_ne_zero hc hr ho
  have hg' := hg.update hv hsize hn
  have hp' : (r'.setPending (r.positionOf c) (c.update group)).pending.lookup
      (r.positionOf c) = some (c.update group) := by
    rw [lookup_setPending, if_pos rfl]
  have hcases := finish_cases hp' true
  obtain ⟨hfin, hacc, hmarked, hrest⟩ :=
    finish_state (setPending_inv hinv hc' hr' hg') hp' hr'
  -- from here on only these facts about `finish` are used
  generalize (r'.setPending (r.positionOf c) (c.update group)).finish (r.positionOf c) true =
    out at hcases hfin hacc hmarked hrest ⊢
  have hbrings : ∀ i, brings c i = true → (r.entered c).seenAt (r.positionOf c) i = false := by
    intro i hb
    rw [← hseen]
    cases c with
    | record metadata payload now order =>
      simp only [brings, decide_eq_true_eq] at hb
      simpa [FecCall.Repeats, hb] using hn
    | repair repair now order => cases hb
  have hhanded : ∀ i ∈ r.handedBy c (.ok out.1),
      brings c i = true ∨ (i ∈ r.missing c ∧ out.1.recovered.isSome = true) := by
    intro i hmem
    cases c with
    | record metadata payload now order =>
      simp only [handedBy, hacc, if_true, mem_append, mem_singleton] at hmem
      rcases hmem with hmem | hmem
      · exact .inl (by simp [brings, hmem])
      · split at hmem
        · next hrec => exact .inr ⟨hmem, hrec⟩
        · cases hmem
    | repair repair now order =>
      simp only [handedBy, nil_append] at hmem
      split at hmem
      · next hrec => exact .inr ⟨hmem, hrec⟩
      · cases hmem
  refine ⟨hfin, ?_, ?_, ?_, ?_, ?_⟩
  · intro q i hs hm hrem
    have hs : (r.entered c).seenAt q i = true :=
      (swept_retires hi.apart c).seenAt hi.apart hs hm
    by_cases hq : q = r.positionOf c
    · subst hq
      apply hmarked i (.inl _) hrem
      rw [testBit_update, hseen, hs, Bool.or_true]
    obtain ⟨hrem', hkeep⟩ := hrest q hq hrem
    obtain ⟨hsame, hsame'⟩ := setPending_of_ne r' hq (c.update group)
    rw [hsame'] at hrem'
    apply hkeep
    rw [hsame]
    exact hother q i hq hs hrem'
  · intro i hmem
    rcases hhanded i hmem with hb | ⟨hmiss, -⟩
    · exact hbrings i hb
    · simp only [missing, mem_filter, Bool.and_eq_true, Bool.not_eq_true'] at hmiss
      exact hmiss.2.1
  · intro i hmem hrem
    apply hmarked i _ hrem
    rcases hhanded i hmem with hb | ⟨-, hrec⟩
    · exact .inl (by rw [testBit_update, hb, Bool.true_or])
    · exact .inr hrec
  · have hmiss : (r.missing c).Nodup := nodup_range.filter _
    cases c with
    | record metadata payload now order =>
      simp only [handedBy, hacc, if_true, singleton_append, nodup_cons]
      constructor
      · split
        · simp [missing, brings]
        · simp
      · split
        · exact hmiss
        · exact nodup_nil
    | repair repair now order =>
      simp only [handedBy, nil_append]
      split
      · exact hmiss
      · exact nodup_nil
  · intro result hres hrec
    cases hres
    rcases hcases with ⟨-, he⟩ | ⟨-, -, hcount, -, -⟩ | ⟨-, -, he⟩
    · rw [he] at hrec
      cases hrec
    · exact length_missing hsize hg' hseen hcount
    · rw [he] at hrec
      cases hrec

/-- Every outcome is safe. -/
theorem CallEffect.safe (h : CallEffect r c answer r') (hi : r.Inv) : CallSafe r c answer r' := by
  have hent := entered_inv hi c
  have hswept : ∀ q i, r.seenAt q i = true → (r.swept c).remembered q = true →
      (r.entered c).seenAt q i = true := fun q i hs hm =>
    (swept_retires hi.apart c).seenAt hi.apart hs hm
  cases h with
  | invalid e h => exact callSafe_quiet hi (fun q i hs _ _ => hs) trivial
  | completed hv h => exact callSafe_quiet hent (fun q i hs hm _ => hswept q i hs hm) ⟨rfl, rfl⟩
  | retired answer group hv hc h hq =>
    exact callSafe_quiet hent (fun q i hs hm _ => hswept q i hs hm) hq
  | conflict e group hv h hs =>
    exact callSafe_quiet hent (fun q i hs hm _ => hswept q i hs hm) trivial
  | repeated answer group r' hv hc hr ho h hq =>
    obtain ⟨-, -, hp, -, -, hinv, hseen, hother⟩ :=
      ensureGroup_state hent hv.size_ne_zero hc hr ho
    refine callSafe_quiet hinv ?_ hq
    intro q i hs hm hrem
    exact opened_keeps hseen hp hother (hswept q i hs hm) hrem
  | exceeds e group r' hv hc hr ho h =>
    obtain ⟨-, -, hp, -, -, hinv, hseen, hother⟩ :=
      ensureGroup_state hent hv.size_ne_zero hc hr ho
    refine callSafe_quiet hinv ?_ trivial
    intro q i hs hm hrem
    exact opened_keeps hseen hp hother (hswept q i hs hm) hrem
  | late metadata payload now order group he hv hc h hnew => exact late_safe hi he hc h hnew
  | updated group r' hv hc hr ho hn hx => exact updated_safe hi hv hc hr ho hn

/-- The receiver after the first `k` calls. -/
def afterCalls (calls : List FecCall) (k : Nat) : FecReceiver :=
  stateAt (fun r c => (r.call c).2) empty calls k

theorem afterCalls_succ {calls : List FecCall} {k : Nat} {c : FecCall} (h : calls[k]? = some c) :
    afterCalls calls (k + 1) = ((afterCalls calls k).call c).2 := stateAt_succ h

theorem afterCalls_inv (calls : List FecCall) (k : Nat) : (afterCalls calls k).Inv := by
  apply stateAt_invariant
  · refine ⟨⟨?_, ?_, ?_⟩, ?_⟩ <;> intro q g h <;> cases h
  · intro r c hi
    exact ((call_effect r c).safe hi).inv

/-- The position is in one of the stores at every point after call `a` up to call `b`, at
the end of each call and after its time sweep. -/
def RememberedThrough (calls : List FecCall) (q a b : Nat) : Prop :=
  ∀ k, a < k → k ≤ b → (afterCalls calls k).remembered q = true ∧
    ∀ c, calls[k]? = some c → ((afterCalls calls k).swept c).remembered q = true

/-- In every run a call hands on pairwise different members, and exactly one besides its
own when it recovers a packet; and no later call hands on a member again while the
position of its group is remembered. -/
theorem member_handed_on_once (calls : List FecCall) :
    (∀ a c, calls[a]? = some c →
      ((afterCalls calls a).handedOn c).Nodup ∧
      ∀ result, ((afterCalls calls a).call c).1 = .ok result → result.recovered.isSome = true →
        ((afterCalls calls a).missing c).length = 1) ∧
    ∀ a b c d, a < b → calls[a]? = some c → calls[b]? = some d →
      (afterCalls calls a).positionOf c = (afterCalls calls b).positionOf d →
      RememberedThrough calls ((afterCalls calls a).positionOf c) a b →
      ∀ i ∈ (afterCalls calls a).handedOn c, i ∉ (afterCalls calls b).handedOn d := by
  have hsafe : ∀ k c, CallSafe (afterCalls calls k) c ((afterCalls calls k).call c).1
      ((afterCalls calls k).call c).2 := fun k c =>
    (call_effect _ c).safe (afterCalls_inv calls k)
  refine ⟨fun a c _ => ⟨(hsafe a c).nodup, (hsafe a c).single⟩, ?_⟩
  intro a b c d hab ha hb hpos hrem i hi hi'
  -- the mark is there right after call `a` and no call up to `b` loses it
  have hmarked : (afterCalls calls b).seenAt ((afterCalls calls a).positionOf c) i = true := by
    refine stateAt_keeps
      (P := fun s : FecReceiver => s.seenAt ((afterCalls calls a).positionOf c) i = true)
      (Nat.succ_le_of_lt hab) ?_ ?_
    · show (afterCalls calls (a + 1)).seenAt _ i = true
      have hm := (hrem (a + 1) (Nat.lt_succ_self a) hab).1
      rw [afterCalls_succ ha] at hm ⊢
      exact (hsafe a c).marks i hi hm
    · intro k e hk hkb he hs
      have hm := (hrem (k + 1) (by omega) hkb).1
      rw [afterCalls_succ he] at hm
      exact (hsafe k e).keeps _ i hs ((hrem k (by omega) (by omega)).2 e he) hm
  have hswept := (swept_retires (afterCalls_inv calls b).apart d).seenAt
    (afterCalls_inv calls b).apart hmarked ((hrem b hab (Nat.le_refl b)).2 d hb)
  have hfresh := (hsafe b d).fresh i hi'
  rw [← hpos, hswept] at hfresh
  cases hfresh

/-- The first member of a group of two, its repair, and the second member too late. -/
def lateOriginal : List FecCall :=
  [.record { groupSeq := 7, groupSize := 2, index := 0 } [1] 0 [],
   .repair { groupSeq := 7, groupSize := 2, xorData := [3] } 1 [65543],
   .record { groupSeq := 7, groupSize := 2, index := 1 } [2] 2 []]

/-- The repair recovers member 1, so its late original is not handed on. -/
theorem member_handed_on_once_late :
    (afterCalls lateOriginal 1).handedOn
      (.repair { groupSeq := 7, groupSize := 2, xorData := [3] } 1 [65543]) = [1] ∧
    1 ∉ (afterCalls lateOriginal 2).handedOn
      (.record { groupSeq := 7, groupSize := 2, index := 1 } [2] 2 []) := by
  have hon : (afterCalls lateOriginal 1).handedOn
      (.repair { groupSeq := 7, groupSize := 2, xorData := [3] } 1 [65543]) = [1] := by
    decide +kernel
  refine ⟨hon, (member_handed_on_once lateOriginal).2 1 2 _ _ (by decide) rfl rfl
    (by decide +kernel) ?_ 1 (hon ▸ mem_singleton.mpr rfl)⟩
  intro k hk hk'
  obtain rfl : k = 2 := by omega
  refine ⟨by decide +kernel, ?_⟩
  intro c hc
  cases hc
  decide +kernel

end FecReceiver

end AivpnSpec.Common
