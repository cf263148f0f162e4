import AivpnSpec.Common.FecReceiver

/-!
# What a call of the FEC receiver does

`record` and `repair` share their course: the time sweep, the position, the two memories of
old groups, then the pending group. `CallEffect` lists the outcomes once, with the reason
for each; every property of runs is derived from it and not from the bodies.
-/

namespace AivpnSpec.Common

open AivpnSpec.Base

/-- A call of the receiver with its clock reading and map order. -/
inductive FecCall where
  | record (metadata : FecMetadata) (payload : Bytes) (now : Nat) (order : List Nat)
  | repair (repair : FecRepair) (now : Nat) (order : List Nat)

namespace FecCall

def seq : FecCall → UInt16
  | .record metadata .. => metadata.groupSeq
  | .repair parity .. => parity.groupSeq

def size : FecCall → UInt8
  | .record metadata .. => metadata.groupSize
  | .repair parity .. => parity.groupSize

def now : FecCall → Nat
  | .record _ _ now _ => now
  | .repair _ now _ => now

/-- The arguments pass the checks made before any state is read. -/
def Valid : FecCall → Prop
  | .record metadata payload .. =>
    metadata.groupSize ≠ 0 ∧ metadata.index < metadata.groupSize ∧
      0 < payload.length ∧ payload.length ≤ maxPacketSize
  | .repair parity .. =>
    parity.groupSize ≠ 0 ∧ parity.xorData ≠ [] ∧ parity.xorData.length ≤ maxPacketSize

theorem Valid.size_ne_zero {c : FecCall} (h : c.Valid) : c.size ≠ 0 := by
  cases c <;> exact h.1

/-- The pending group already has what the call brings. -/
def Repeats : FecCall → PendingGroup → Prop
  | .record metadata .., group => group.seen.testBit metadata.index.toNat = true
  | .repair .., group => group.repair.isSome = true

/-- The call brings something longer than the repair of its group. -/
def Exceeds : FecCall → PendingGroup → Prop
  | .record _ payload .., group => ∃ repair, group.repair = some repair ∧ repair.len < payload.length
  | .repair parity .., group => parity.xorData.length < group.xorLen

def update : FecCall → PendingGroup → PendingGroup
  | .record metadata payload .., group => ((group.absorb payload).mark metadata.index).countMember
  | .repair parity .., group => group.storeRepair parity.xorData

/-- A new group has nothing that a call could repeat or exceed. -/
theorem not_of_new (c : FecCall) (size : UInt8) (now ticket : Nat) :
    ¬c.Repeats (.new size now ticket) ∧ ¬c.Exceeds (.new size now ticket) := by
  cases c <;> simp [Repeats, Exceeds, PendingGroup.new]

end FecCall

/-- An answer by which nothing is handed on. -/
def Quiet : Except Error FecRxResult → Prop
  | .ok result => result.accepted = false ∧ result.recovered = none
  | .error _ => True

namespace FecReceiver

def call (r : FecReceiver) : FecCall → Except Error FecRxResult × FecReceiver
  | .record metadata payload now order => r.record metadata payload now order
  | .repair repair now order => r.repair repair now order

def swept (r : FecReceiver) : FecCall → FecReceiver
  | .record _ _ now order => r.sweep now order
  | .repair _ now order => r.sweep now order

def positionOf (r : FecReceiver) (c : FecCall) : Nat := (r.swept c).position c.seq

/-- The receiver after the sweep that has seen the call's position. -/
def entered (r : FecReceiver) (c : FecCall) : FecReceiver := ((r.swept c).advance c.seq).2

/-- The outcomes of a call, by answer and next state. -/
inductive CallEffect (r : FecReceiver) (c : FecCall) :
    Except Error FecRxResult → FecReceiver → Prop where
  | invalid (e : Error) (h : ¬ c.Valid) : CallEffect r c (.error e) r
  | completed (hv : c.Valid) (h : r.positionOf c ∈ (r.entered c).completedSet) :
      CallEffect r c (.ok .ignored) (r.entered c)
  | retired (answer : Except Error FecRxResult) (group : RetiredGroup) (hv : c.Valid)
      (hc : r.positionOf c ∉ (r.entered c).completedSet)
      (h : (r.entered c).retired.lookup (r.positionOf c) = some group) (hq : Quiet answer) :
      CallEffect r c answer (r.entered c)
  | late (metadata : FecMetadata) (payload : Bytes) (now : Nat) (order : List Nat)
      (group : RetiredGroup) (he : c = .record metadata payload now order) (hv : c.Valid)
      (hc : r.positionOf c ∉ (r.entered c).completedSet)
      (h : (r.entered c).retired.lookup (r.positionOf c) = some group)
      (hnew : group.seen.testBit metadata.index.toNat = false) :
      CallEffect r c (.ok { accepted := true, recovered := none, complete := false })
        { r.entered c with
          retired := (r.entered c).retired.insert (r.positionOf c)
            { group with seen := group.seen.setBit metadata.index.toNat } }
  | conflict (e : Error) (group : PendingGroup) (hv : c.Valid)
      (h : (r.entered c).pending.lookup (r.positionOf c) = some group)
      (hs : group.groupSize ≠ c.size) : CallEffect r c (.error e) (r.entered c)
  | repeated (answer : Except Error FecRxResult) (group : PendingGroup) (r' : FecReceiver)
      (hv : c.Valid) (hc : r.positionOf c ∉ (r.entered c).completedSet)
      (hr : (r.entered c).retired.lookup (r.positionOf c) = none)
      (ho : (r.entered c).ensureGroup (r.positionOf c) c.size c.now = (.ok group, r'))
      (h : c.Repeats group) (hq : Quiet answer) : CallEffect r c answer r'
  | exceeds (e : Error) (group : PendingGroup) (r' : FecReceiver) (hv : c.Valid)
      (hc : r.positionOf c ∉ (r.entered c).completedSet)
      (hr : (r.entered c).retired.lookup (r.positionOf c) = none)
      (ho : (r.entered c).ensureGroup (r.positionOf c) c.size c.now = (.ok group, r'))
      (h : c.Exceeds group) : CallEffect r c (.error e) r'
  | updated (group : PendingGroup) (r' : FecReceiver) (hv : c.Valid)
      (hc : r.positionOf c ∉ (r.entered c).completedSet)
      (hr : (r.entered c).retired.lookup (r.positionOf c) = none)
      (ho : (r.entered c).ensureGroup (r.positionOf c) c.size c.now = (.ok group, r'))
      (hn : ¬ c.Repeats group) (hx : ¬ c.Exceeds group) :
      CallEffect r c
        (.ok ((r'.setPending (r.positionOf c) (c.update group)).finish (r.positionOf c) true).1)
        ((r'.setPending (r.positionOf c) (c.update group)).finish (r.positionOf c) true).2

variable {r r' : FecReceiver} {group : PendingGroup} {seq q : Nat} {g : RetiredGroup}
  {size : UInt8}

/-- A size mismatch is the only way `ensure_group` fails, and it changes nothing. -/
theorem ensureGroup_error {now : Nat} {e : Error}
    (h : r.ensureGroup seq size now = (.error e, r')) :
    r' = r ∧ ∃ group, r.pending.lookup seq = some group ∧ group.groupSize ≠ size := by
  unfold ensureGroup at h
  split at h
  · next group hl =>
    split at h
    · next hne =>
      cases h
      exact ⟨rfl, group, hl, hne⟩
    · cases h
  · cases h

theorem validateMember_valid {metadata : FecMetadata} {payload : Bytes} {now : Nat}
    {order : List Nat} :
    (∃ e, validateMember metadata payload.length = .error e ∧
      ¬ (FecCall.record metadata payload now order).Valid) ∨
    (validateMember metadata payload.length = .ok () ∧
      (FecCall.record metadata payload now order).Valid) := by
  unfold validateMember FecCall.Valid
  split
  · next h =>
    refine .inl ⟨_, rfl, ?_⟩
    rintro ⟨h₁, h₂, -⟩
    rcases h with h | h
    · exact h₁ h
    · exact absurd h (UInt8.not_le.mpr h₂)
  · next h =>
    obtain ⟨h₁, h₂⟩ := not_or.mp h
    split
    · next hl =>
      refine .inl ⟨_, rfl, ?_⟩
      rintro ⟨-, -, h₃, h₄⟩
      omega
    · next hl => exact .inr ⟨rfl, h₁, UInt8.not_le.mp h₂, by omega, by omega⟩

/-- `record` does one of the listed things. -/
theorem record_effect (r : FecReceiver) (metadata : FecMetadata) (payload : Bytes) (now : Nat)
    (order : List Nat) :
    CallEffect r (.record metadata payload now order)
      (r.record metadata payload now order).1 (r.record metadata payload now order).2 := by
  let c : FecCall := .record metadata payload now order
  have hpos : r.positionOf c = ((r.sweep now order).advance metadata.groupSeq).1 := rfl
  have hent : r.entered c = ((r.sweep now order).advance metadata.groupSeq).2 := rfl
  unfold record
  rcases @validateMember_valid metadata payload now order with ⟨e, he, hv⟩ | ⟨he, hv⟩
  · rw [he]
    exact .invalid e hv
  rw [he]
  simp only [← hpos, ← hent]
  split
  · next hc => exact .completed hv hc
  next hc =>
  unfold acceptRetired
  cases hl : (r.entered c).retired.lookup (r.positionOf c) with
  | some group =>
    by_cases hs : group.groupSize ≠ metadata.groupSize
    · simp only [if_pos hs]
      exact .retired _ group hv hc hl trivial
    by_cases hnew : group.seen.testBit metadata.index.toNat = true
    · simp only [if_neg hs, if_pos hnew]
      exact .retired _ group hv hc hl ⟨rfl, rfl⟩
    · simp only [if_neg hs, if_neg hnew]
      exact .late metadata payload now order group rfl hv hc hl (by simpa using hnew)
  | none =>
    simp only
    cases ho : (r.entered c).ensureGroup (r.positionOf c) metadata.groupSize now with
    | mk answer r' =>
      cases answer with
      | error e =>
        obtain ⟨rfl, group, hp, hs⟩ := ensureGroup_error ho
        exact .conflict e group hv hp hs
      | ok group =>
        simp only
        split
        · next hseen => exact .repeated _ group r' hv hc hl ho hseen ⟨rfl, rfl⟩
        next hseen =>
        split
        · next hx =>
          obtain ⟨repair, hr, hlt⟩ := (Option.any_eq_true _ _).mp hx
          exact .exceeds _ group r' hv hc hl ho ⟨repair, hr, by simpa using hlt⟩
        · next hx =>
          exact .updated group r' hv hc hl ho hseen
            (by
              rintro ⟨repair, hr, hlt⟩
              simp [hr, hlt] at hx)

/-- `repair` does one of the listed things. -/
theorem repair_effect (r : FecReceiver) (repair : FecRepair) (now : Nat) (order : List Nat) :
    CallEffect r (.repair repair now order)
      (r.repair repair now order).1 (r.repair repair now order).2 := by
  unfold FecReceiver.repair
  split
  · next hz => exact .invalid _ (fun hv => hv.1 hz)
  next hz =>
  split
  · next hbad =>
    refine .invalid _ ?_
    rintro ⟨-, hne, hle⟩
    rcases hbad with hbad | hbad
    · exact hne hbad
    · omega
  next hbad =>
  obtain ⟨hne, hle⟩ := not_or.mp hbad
  have hv : (FecCall.repair repair now order).Valid := ⟨hz, hne, Nat.not_lt.mp hle⟩
  simp only
  split
  · next hc => exact .completed hv hc
  next hc =>
  cases hl : ((r.sweep now order).advance repair.groupSeq).2.retired.lookup
      ((r.sweep now order).advance repair.groupSeq).1 with
  | some group =>
    simp only
    split
    · exact .retired _ group hv hc hl trivial
    · exact .retired _ group hv hc hl ⟨rfl, rfl⟩
  | none =>
    simp only
    cases ho : ((r.sweep now order).advance repair.groupSeq).2.ensureGroup
        ((r.sweep now order).advance repair.groupSeq).1 repair.groupSize now with
    | mk answer r' =>
      cases answer with
      | error e =>
        obtain ⟨rfl, group, hp, hs⟩ := ensureGroup_error ho
        exact .conflict e group hv hp hs
      | ok group =>
        simp only
        cases hr : group.repair with
        | some existing =>
          have hrep : (FecCall.repair repair now order).Repeats group := by
            simp [FecCall.Repeats, hr]
          simp only
          split
          · exact .repeated _ group r' hv hc hl ho hrep ⟨rfl, rfl⟩
          · exact .repeated _ group r' hv hc hl ho hrep trivial
        | none =>
          simp only
          split
          · next hx => exact .exceeds _ group r' hv hc hl ho hx
          · next hx =>
            exact .updated group r' hv hc hl ho (by simp [FecCall.Repeats, hr]) hx

/-- Every call does one of the listed things. -/
theorem call_effect (r : FecReceiver) (c : FecCall) : CallEffect r c (r.call c).1 (r.call c).2 := by
  cases c with
  | record metadata payload now order => exact record_effect r metadata payload now order
  | repair repair now order => exact repair_effect r repair now order

/-- The three stores hold different positions: a pending group is neither completed nor
retired, a retired one is not completed. -/
structure Apart (r : FecReceiver) : Prop where
  pendingCompleted : ∀ q g, r.pending.lookup q = some g → q ∉ r.completedSet
  pendingRetired : ∀ q g, r.pending.lookup q = some g → r.retired.lookup q = none
  retiredCompleted : ∀ q g, r.retired.lookup q = some g → q ∉ r.completedSet

namespace Apart

variable {r : FecReceiver} {q : Nat}

theorem pending_of_completed (ha : r.Apart) (h : q ∈ r.completedSet) :
    r.pending.lookup q = none := by
  cases hl : r.pending.lookup q with
  | none => rfl
  | some g => exact absurd h (ha.pendingCompleted q g hl)

theorem retired_of_completed (ha : r.Apart) (h : q ∈ r.completedSet) :
    r.retired.lookup q = none := by
  cases hl : r.retired.lookup q with
  | none => rfl
  | some g => exact absurd h (ha.retiredCompleted q g hl)

theorem pending_of_retired (ha : r.Apart) (h : r.retired.lookup q = some g) :
    r.pending.lookup q = none := by
  cases hl : r.pending.lookup q with
  | none => rfl
  | some g' =>
    rw [ha.pendingRetired q g' hl] at h
    cases h

end Apart

/-- `r'` is `r` after some pending groups were retired. -/
structure Retires (r r' : FecReceiver) : Prop where
  completedSet : r'.completedSet = r.completedSet
  highestGroup : r'.highestGroup = r.highestGroup
  pending : ∀ q, r'.pending.lookup q = r.pending.lookup q ∨ r'.pending.lookup q = none
  retired : ∀ q g', r'.retired.lookup q = some g' →
    r.retired.lookup q = some g' ∨
    ∃ g, r.pending.lookup q = some g ∧ r'.pending.lookup q = none ∧
      g' = { groupSize := g.groupSize, seen := g.seen }

namespace Retires

variable {r r' r'' : FecReceiver}

theorem refl (r : FecReceiver) : Retires r r :=
  ⟨rfl, rfl, fun _ => .inl rfl, fun _ _ h => .inl h⟩

/-- What is still pending was pending before, unchanged. -/
theorem pending_of_some (h : Retires r r') {g : PendingGroup} (hq : r'.pending.lookup q = some g) :
    r.pending.lookup q = some g := by
  rcases h.pending q with he | he
  · rw [← he, hq]
  · rw [hq] at he
    cases he

/-- What was not pending does not become so. -/
theorem pending_of_none (h : Retires r r') (hq : r.pending.lookup q = none) :
    r'.pending.lookup q = none := by
  rcases h.pending q with he | he
  · rw [he, hq]
  · exact he

theorem trans (h : Retires r r') (h' : Retires r' r'') : Retires r r'' where
  completedSet := h'.completedSet.trans h.completedSet
  highestGroup := h'.highestGroup.trans h.highestGroup
  pending := by
    intro q
    rcases h'.pending q with he | he
    · rcases h.pending q with he' | he'
      · exact .inl (he.trans he')
      · exact .inr (he.trans he')
    · exact .inr he
  retired := by
    intro q g' hq
    rcases h'.retired q g' hq with hq | ⟨g, hg, hnone, rfl⟩
    · rcases h.retired q g' hq with hq | ⟨g, hg, hnone, rfl⟩
      · exact .inl hq
      · exact .inr ⟨g, hg, h'.pending_of_none hnone, rfl⟩
    · exact .inr ⟨g, h.pending_of_some hg, hnone, rfl⟩

/-- Retirement keeps the stores apart. -/
theorem apart (h : Retires r r') (ha : r.Apart) : r'.Apart where
  pendingCompleted := by
    intro q g hq
    rw [h.completedSet]
    exact ha.pendingCompleted q g (h.pending_of_some hq)
  pendingRetired := by
    intro q g hq
    cases hr : r'.retired.lookup q with
    | none => rfl
    | some g' =>
      rcases h.retired q g' hr with hr | ⟨_, -, hnone, -⟩
      · rw [ha.pendingRetired q g (h.pending_of_some hq)] at hr
        cases hr
      · rw [hq] at hnone
        cases hnone
  retiredCompleted := by
    intro q g hq
    rw [h.completedSet]
    rcases h.retired q g hq with hr | ⟨g, hg, -, -⟩
    · exact ha.retiredCompleted q _ hr
    · exact ha.pendingCompleted q g hg

end Retires

/-- Forgetting old entries adds none. -/
theorem lookup_of_lookup_trimRetired {t : Table Nat RetiredGroup} {order : List Nat}
    (h : (trimRetired t order).1.lookup q = some g) : t.lookup q = some g := by
  induction order generalizing t with
  | nil => exact h
  | cons old rest ih =>
    unfold trimRetired at h
    split at h
    · have hr := ih h
      exact (Table.of_lookup_erase hr).2
    · exact h

theorem retire_retires (ha : r.Apart) (seq : Nat) : Retires r (r.retire seq) := by
  unfold retire
  cases hp : r.pending.lookup seq with
  | none => exact Retires.refl r
  | some group =>
    have hr := ha.pendingRetired seq group hp
    simp only [rememberIncomplete, hr]
    refine ⟨rfl, rfl, ?_, ?_⟩
    · intro q
      rw [Table.lookup_erase_eq]
      by_cases hq : q = seq
      · exact .inr (if_pos hq)
      · exact .inl (if_neg hq)
    · intro q g' hg'
      have hins := lookup_of_lookup_trimRetired hg'
      rcases Table.cases_insert hins with ⟨rfl, rfl⟩ | hins
      · exact .inr ⟨group, hp, by rw [Table.lookup_erase_eq, if_pos rfl], rfl⟩
      · exact .inl hins

private theorem foldl_retire_retires (ha : r.Apart) (expired : List Nat) :
    Retires r (expired.foldl retire r) := by
  induction expired generalizing r with
  | nil => exact Retires.refl r
  | cons seq rest ih =>
    have h := retire_retires ha seq
    exact h.trans (ih (h.apart ha))

/-- The time sweep only retires. -/
theorem swept_retires (ha : r.Apart) (c : FecCall) : Retires r (r.swept c) := by
  cases c <;> exact foldl_retire_retires ha _

/-- `ensure_group` finds the group, or makes one after retiring the oldest. -/
theorem ensureGroup_ok {now : Nat} (ha : r.Apart)
    (h : r.ensureGroup seq size now = (.ok group, r')) :
    (r.pending.lookup seq = some group ∧ group.groupSize = size ∧ r' = r) ∨
    (r.pending.lookup seq = none ∧ ∃ r₁ ticket, Retires r r₁ ∧
      group = PendingGroup.new size now ticket ∧
      r' = { r₁ with nextTicket := ticket + 1 }.setPending seq group) := by
  unfold ensureGroup at h
  cases hp : r.pending.lookup seq with
  | some existing =>
    rw [hp] at h
    by_cases hs : existing.groupSize ≠ size
    · simp [hs] at h
    · simp only [if_neg hs, Prod.mk.injEq, Except.ok.injEq] at h
      obtain ⟨rfl, rfl⟩ := h
      exact .inl ⟨rfl, not_not.mp hs, rfl⟩
  | none =>
    rw [hp] at h
    cases h
    refine .inr ⟨rfl, _, _, ?_, rfl, rfl⟩
    split
    · split
      · exact retire_retires ha _
      · exact Retires.refl r
    · exact Retires.refl r

/-- Completion removes the group from the pending ones and touches no other store but the
memory of completed positions, which gains at most this one. -/
theorem completeGroup_spec (r : FecReceiver) (seq : Nat) :
    (∀ q, (r.completeGroup seq).pending.lookup q =
      if q = seq then none else r.pending.lookup q) ∧
    (r.completeGroup seq).retired = r.retired ∧
    (r.completeGroup seq).highestGroup = r.highestGroup ∧
    (∀ q ∈ (r.completeGroup seq).completedSet, q = seq ∨ q ∈ r.completedSet) := by
  unfold completeGroup
  simp only
  split
  · exact ⟨Table.lookup_erase_eq _ _, rfl, rfl, fun q hq => .inr hq⟩
  split
  · refine ⟨Table.lookup_erase_eq _ _, rfl, rfl, ?_⟩
    intro q hq
    apply Finset.mem_insert.mp
    cases hhead : (r.completed ++ [seq]).head? with
    | none => simpa [hhead] using hq
    | some old =>
      simp only [hhead, Option.elim] at hq
      exact Finset.mem_of_mem_erase hq
  · exact ⟨Table.lookup_erase_eq _ _, rfl, rfl, fun q hq => Finset.mem_insert.mp hq⟩

/-- `finish` on a pending group: all members here, one missing and a repair, or neither. -/
theorem finish_cases (h : r.pending.lookup seq = some group) (accepted : Bool) :
    (group.count = group.groupSize ∧
      r.finish seq accepted =
        ({ accepted, recovered := none, complete := true }, r.completeGroup seq)) ∨
    (group.count ≠ group.groupSize ∧ group.groupSize ≠ 0 ∧
      group.count = group.groupSize - 1 ∧ group.repair.isSome = true ∧
      r.finish seq accepted =
        ({ accepted, recovered := group.missingPacket, complete := true },
          r.completeGroup seq)) ∨
    (group.count ≠ group.groupSize ∧
      ¬ (group.groupSize ≠ 0 ∧ group.count = group.groupSize - 1 ∧ group.repair.isSome = true) ∧
      r.finish seq accepted = ({ accepted, recovered := none, complete := false }, r)) := by
  unfold finish
  simp only [h]
  by_cases hall : group.count = group.groupSize
  · exact .inl ⟨hall, if_pos hall⟩
  by_cases hready : group.groupSize ≠ 0 ∧ group.count = group.groupSize - 1 ∧
      group.repair.isSome = true
  · refine .inr (.inl ⟨hall, hready.1, hready.2.1, hready.2.2, ?_⟩)
    rw [if_neg hall, if_pos hready]
  · refine .inr (.inr ⟨hall, hready, ?_⟩)
    rw [if_neg hall, if_neg hready]

end FecReceiver

end AivpnSpec.Common
