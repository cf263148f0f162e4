import AivpnSpec.Common.FecGroups
import AivpnSpec.Common.FecOnce

/-!
# FEC end to end

Items of a sender's run reach a receiver in any order, any number of times or not at all.
As long as the receiver can tell the group numbers apart and has not forgotten a group
whose items still arrive, each pending group is the XOR of exactly the members that have
arrived, so that what is recovered is the one that has not.
-/

namespace AivpnSpec.Common

open AivpnSpec.Base List

/-- An item of group `group` reaching the receiver. -/
structure FecArrival where
  group : Nat
  item : FecItem
  now : Nat
  order : List Nat

/-- The call an arrival leads to: a repair is decoded first, and dropped if that fails. -/
def FecArrival.call (a : FecArrival) : Option FecCall :=
  match a.item with
  | .member metadata payload => some (.record metadata payload a.now a.order)
  | .repair bytes => (FecRepair.decode bytes).map fun repair => .repair repair a.now a.order

def FecReceiver.arrive (r : FecReceiver) (a : FecArrival) : FecReceiver :=
  match a.call with
  | some c => (r.call c).2
  | none => r

/-- The receiver after the first `k` arrivals. -/
def afterArrivals (arrivals : List FecArrival) (k : Nat) : FecReceiver :=
  stateAt FecReceiver.arrive FecReceiver.empty arrivals k

def FecItem.index? : FecItem → Option Nat
  | .member metadata _ => some metadata.index.toNat
  | .repair _ => none

/-- The indices of the payloads of group `g` that have arrived. -/
def membersIn (past : List FecArrival) (g : Nat) : Finset Nat :=
  (past.filterMap fun a => if a.group = g then a.item.index? else none).toFinset

/-- The repair of group `g` has arrived. -/
def repairIn (past : List FecArrival) (g : Nat) : Prop :=
  ∃ a ∈ past, a.group = g ∧ a.item.index? = none

/-- Something of group `g` has arrived. -/
def startedIn (past : List FecArrival) (g : Nat) : Prop := ∃ a ∈ past, a.group = g

def topGroup (past : List FecArrival) : Nat := (past.map FecArrival.group).foldl max 0

/-- The position the receiver gives to group `g` when the first arrival is of group
`first`: the number itself, up to a multiple of 65536 that is the same for all groups. -/
def unwrapped (first g : Nat) : Nat := g + 65536 - 65536 * (first / 65536)

/-- The group at the position was dropped by arrival `m`: expired, or evicted as the oldest. -/
def expiredOrEvicted (arrivals : List FecArrival) (m q : Nat) : Prop :=
  ((afterArrivals arrivals m).pending.lookup q).isSome = true ∧
  (afterArrivals arrivals (m + 1)).pending.lookup q = none ∧
  q ∉ (afterArrivals arrivals (m + 1)).completedSet

/-- The arrivals are items of the sender's run, their group numbers stay less than 2^15 from
the highest one so far, and when something of a known group arrives the receiver still
remembers the group. -/
structure Delivery (actions : List FecAction) (arrivals : List FecArrival) : Prop where
  sent : ∀ a ∈ arrivals, (a.group, a.item) ∈ FecSender.empty.run 0 actions
  near : ∀ (k : Nat) (a : FecArrival), arrivals[k]? = some a → 0 < k →
    topGroup (arrivals.take k) < a.group + 2 ^ 15 ∧
    a.group < topGroup (arrivals.take k) + 2 ^ 15
  kept : ∀ (k : Nat) (a : FecArrival) (c : FecCall), arrivals[k]? = some a →
    a.call = some c → startedIn (arrivals.take k) a.group →
    ((afterArrivals arrivals k).swept c).remembered ((afterArrivals arrivals k).positionOf c) =
      true

/-! ### Positions -/

variable {r : FecReceiver}

/-- The first item gets the position of its own number. -/
theorem position_first (h : r.highestGroup = none) (g : Nat) :
    r.position (UInt16.ofNat g) = unwrapped g g := by
  have hmod : (UInt16.ofNat g).toNat = g % 65536 := by simp
  simp only [FecReceiver.position, h, hmod, unwrapped]
  omega

variable {g first g' : Nat} {actions : List FecAction} {arrived : Finset Nat} {group : FecGroup}
  {a : FecArrival}

/-- A group number near the highest one is unwrapped to its own position. -/
theorem position_near {top : Nat} (h : r.highestGroup = some (unwrapped first top))
    (htop : first ≤ top) (hlow : top < g + 2 ^ 15) (hhigh : g < top + 2 ^ 15) :
    r.position (UInt16.ofNat g) = unwrapped first g := by
  have hdist : (UInt16.ofNat g - UInt16.ofNat (unwrapped first top)).toNat =
      (65536 - top % 65536 + g % 65536) % 65536 := by
    rw [UInt16.toNat_sub]
    simp only [UInt16.toNat_ofNat', unwrapped]
    omega
  have hneg : (0 - (UInt16.ofNat g - UInt16.ofNat (unwrapped first top))).toNat =
      (65536 - (65536 - top % 65536 + g % 65536) % 65536) % 65536 := by
    rw [UInt16.toNat_sub, hdist]
    simp
  simp only [FecReceiver.position, h, UInt16.lt_iff_toNat_lt, hdist, hneg]
  have hlim : (0x8000 : UInt16).toNat = 32768 := rfl
  split <;> simp only [unwrapped] <;> omega

/-- Different groups in range have different positions. -/
theorem unwrapped_inj (hg : first < g + 2 ^ 15) (hg' : first < g' + 2 ^ 15)
    (h : unwrapped first g = unwrapped first g') : g = g' := by
  unfold unwrapped at h
  omega

/-! ### Pending groups of honest calls -/

/-- The call brings a member or the repair of group `g`. -/
def FecCall.For (group : FecGroup) (g : Nat) : FecCall → Prop
  | .record metadata payload .. => metadata.groupSeq = UInt16.ofNat g ∧
      metadata.groupSize = group.size ∧ group.members[metadata.index.toNat]? = some payload
  | .repair sent .. => group.Full ∧ sent = group.repair g

def FecCall.addTo : FecCall → Finset Nat → Finset Nat
  | .record metadata .., arrived => insert metadata.index.toNat arrived
  | .repair .., arrived => arrived

def FecCall.IsRepair : FecCall → Prop
  | .record .. => False
  | .repair .. => True

namespace FecGroup

variable {group : FecGroup} {i : Nat}

theorem member_mem (h : i < group.members.length) : group.member i ∈ group.members := by
  rw [member, getD_eq_getElem?_getD, getElem?_eq_getElem h]
  exact getElem_mem h

theorem length_le_width (h : i ∈ group.indices) : (group.member i).length ≤ group.width :=
  Finset.le_sup (f := fun k => (group.member k).length) h

theorem longest_le_width (h : arrived ⊆ group.indices) :
    longest arrived group.member ≤ group.width := Finset.sup_mono h

theorem length_xorData : group.xorData.length = group.width := by simp [xorData]

theorem getD_xorData (h : i < group.width) :
    group.xorData.getD i 0 = parity group.indices group.member i := by
  simp [xorData, getD_eq_getElem?_getD, h]

end FecGroup

/-- A call of a well-formed group passes the argument checks. -/
theorem FecCall.For.valid {c : FecCall} (h : c.For group g) (hwf : group.WF) : c.Valid := by
  cases c with
  | record metadata payload now order =>
    obtain ⟨-, hs, hm⟩ := h
    have hlt := (List.getElem?_eq_some_iff.mp hm).1
    obtain ⟨hpos, hle⟩ := hwf.payload payload (mem_of_getElem? hm)
    refine ⟨by rw [hs]; exact hwf.size, ?_, hpos, hle⟩
    rw [UInt8.lt_iff_toNat_lt, hs]
    exact Nat.lt_of_lt_of_le hlt hwf.length
  | repair repair now order =>
    obtain ⟨hfull, rfl⟩ := h
    have hpos : 0 < group.members.length := by
      rw [hfull]
      have hz := hwf.size
      rw [ne_eq, ← UInt8.toNat_inj] at hz
      exact Nat.pos_of_ne_zero hz
    have hwidth : 0 < group.width := by
      have hmem := FecGroup.member_mem hpos
      have hle := FecGroup.length_le_width (Finset.mem_range.mpr hpos)
      exact Nat.lt_of_lt_of_le (hwf.payload _ hmem).1 hle
    refine ⟨hwf.size, ?_, ?_⟩
    · show group.xorData ≠ []
      rw [← length_pos_iff, FecGroup.length_xorData]
      exact hwidth
    · show group.xorData.length ≤ maxPacketSize
      rw [FecGroup.length_xorData]
      exact FecGroup.width_le hwf.payload

/-- The pending group is the XOR of exactly the arrived members, with the repair if that has
arrived too. -/
structure Holds (group : FecGroup) (arrived : Finset Nat) (repaired : Prop)
    (pending : PendingGroup) : Prop where
  size : pending.groupSize = group.size
  sub : arrived ⊆ group.indices
  marks : ∀ i, pending.seen.testBit i = decide (i ∈ arrived)
  count : pending.count.toNat = arrived.card
  buffer : pending.xorBuf.length = maxPacketSize
  xor : ∀ i < maxPacketSize, pending.xorBuf.getD i 0 = parity arrived group.member i
  xorLen : pending.xorLen = longest arrived group.member
  noRepair : ¬ repaired → pending.repair = none
  repair : repaired → group.Full ∧
    pending.repair = some { data := padTo maxPacketSize group.xorData, len := group.width }

/-- A pending group between calls is neither full nor recoverable. -/
def PendingGroup.Open (group : PendingGroup) : Prop :=
  group.count ≠ group.groupSize ∧
  ¬ (group.groupSize ≠ 0 ∧ group.count = group.groupSize - 1 ∧ group.repair.isSome = true)

namespace Holds

variable {group : FecGroup} {arrived : Finset Nat} {repaired : Prop} {pending : PendingGroup}
  {g : Nat} {c : FecCall}

/-- A new pending group has nothing. -/
theorem new (group : FecGroup) (now ticket : Nat) :
    Holds group ∅ False (PendingGroup.new group.size now ticket) where
  size := rfl
  sub := Finset.empty_subset _
  marks := by simp [PendingGroup.new]
  count := rfl
  buffer := by simp [PendingGroup.new]
  xor := by
    intro i hi
    simp [PendingGroup.new, getD_eq_getElem?_getD, hi]
  xorLen := rfl
  noRepair := fun _ => rfl
  repair := False.elim

section

variable (h : Holds group arrived repaired pending)

include h

/-- An honest call never exceeds the repair of its group. -/
theorem not_exceeds (hc : c.For group g) : ¬ c.Exceeds pending := by
  cases c with
  | record metadata payload now order =>
    rintro ⟨stored, hr, hlt⟩
    obtain ⟨-, -, hm⟩ := hc
    by_cases hrep : repaired
    · rw [(h.repair hrep).2] at hr
      cases hr
      have hlen := (List.getElem?_eq_some_iff.mp hm).1
      have hle := FecGroup.length_le_width (Finset.mem_range.mpr hlen)
      rw [FecGroup.member, getD_eq_getElem?_getD, hm] at hle
      exact absurd hlt (Nat.not_lt.mpr hle)
    · rw [h.noRepair hrep] at hr
      cases hr
  | repair sent now order =>
    obtain ⟨-, rfl⟩ := hc
    show ¬ group.xorData.length < pending.xorLen
    rw [FecGroup.length_xorData, h.xorLen]
    exact Nat.not_lt.mpr (FecGroup.longest_le_width h.sub)

/-- What an honest call repeats has arrived before. -/
theorem repeats (hr : c.Repeats pending) : c.addTo arrived = arrived ∧ (c.IsRepair → repaired) := by
  cases c with
  | record metadata payload now order =>
    have hmem : metadata.index.toNat ∈ arrived := by
      have hbit := h.marks metadata.index.toNat
      rw [hr] at hbit
      exact of_decide_eq_true hbit.symm
    exact ⟨Finset.insert_eq_of_mem hmem, False.elim⟩
  | repair sent now order =>
    refine ⟨rfl, fun _ => ?_⟩
    by_contra hno
    have hsome : pending.repair.isSome = true := hr
    rw [h.noRepair hno] at hsome
    cases hsome

/-- A new member. -/
theorem addMember (hwf : group.WF) {index : UInt8} {payload : Bytes}
    (hm : group.members[index.toNat]? = some payload) (hnew : index.toNat ∉ arrived) :
    Holds group (insert index.toNat arrived) repaired
      (((pending.absorb payload).mark index).countMember) := by
  have hlt := (List.getElem?_eq_some_iff.mp hm).1
  have hmember : group.member index.toNat = payload := by
    rw [FecGroup.member, getD_eq_getElem?_getD, hm]
    rfl
  have hsub : insert index.toNat arrived ⊆ group.indices :=
    Finset.insert_subset (Finset.mem_range.mpr hlt) h.sub
  have hcard : arrived.card + 1 ≤ group.size.toNat := by
    rw [← Finset.card_insert_of_notMem hnew]
    refine Nat.le_trans (Finset.card_le_card hsub) ?_
    rw [FecGroup.indices, Finset.card_range]
    exact hwf.length
  have hsize := UInt8.toNat_lt group.size
  have hne : pending.count ≠ 255 := by
    intro hc
    have hcount := h.count
    rw [hc] at hcount
    simp at hcount
    omega
  refine ⟨h.size, hsub, ?_, ?_, ?_, ?_, ?_, h.noRepair, h.repair⟩
  · intro i
    rw [PendingGroup.testBit_addMember, h.marks, Bool.eq_iff_iff]
    simp only [Bool.or_eq_true, decide_eq_true_eq, Finset.mem_insert]
    exact or_congr_left eq_comm
  · show (if pending.count = 255 then 255 else pending.count + 1).toNat = _
    rw [if_neg hne, Finset.card_insert_of_notMem hnew, UInt8.toNat_add, h.count, UInt8.toNat_one,
      Nat.mod_eq_of_lt (by omega)]
  · exact (length_xorInto _ _).trans h.buffer
  · intro i hi
    rw [parity_insert hnew, ← h.xor i hi, hmember]
    exact getD_xorInto (by rw [h.buffer]; exact hi)
  · show max pending.xorLen payload.length = _
    rw [longest, Finset.sup_insert, h.xorLen, hmember, max_comm]
    rfl

/-- What an honest call adds. -/
theorem update (hwf : group.WF) (hc : c.For group g) (hn : ¬ c.Repeats pending) :
    Holds group (c.addTo arrived) (repaired ∨ c.IsRepair) (c.update pending) := by
  cases c with
  | record metadata payload now order =>
    have hnew : metadata.index.toNat ∉ arrived := by
      intro hmem
      apply hn
      show pending.seen.testBit metadata.index.toNat = true
      rw [h.marks]
      exact decide_eq_true hmem
    rw [FecCall.IsRepair, or_false]
    exact h.addMember hwf hc.2.2 hnew
  | repair sent now order =>
    obtain ⟨hfull, rfl⟩ := hc
    refine ⟨h.size, h.sub, h.marks, h.count, h.buffer, h.xor, h.xorLen,
      fun hr => absurd (.inr trivial) hr, fun _ => ⟨hfull, ?_⟩⟩
    show some _ = some _
    rw [FecGroup.repair, FecGroup.length_xorData]

/-- The counter says how many members are missing. -/
theorem arrived_eq_of_count (hc : pending.count = pending.groupSize) (hwf : group.WF) :
    group.Full ∧ arrived = group.indices := by
  have hcard := h.count
  rw [hc, h.size] at hcard
  have hle := Finset.card_le_card h.sub
  rw [FecGroup.indices, Finset.card_range] at hle
  have hlen := hwf.length
  refine ⟨?_, Finset.eq_of_subset_of_card_le h.sub ?_⟩
  · unfold FecGroup.Full
    omega
  · rw [FecGroup.indices, Finset.card_range]
    omega

/-- One missing member and the repair give that member, padded to the longest one. -/
theorem recovered (hwf : group.WF) (hz : pending.groupSize ≠ 0)
    (hc : pending.count = pending.groupSize - 1) (hr : pending.repair.isSome = true) :
    ∃ j ∈ group.indices, arrived = group.indices.erase j ∧ group.Full ∧
      pending.missingPacket = some (padTo group.width (group.member j)) := by
  have hrep : repaired := by
    by_contra hno
    rw [h.noRepair hno] at hr
    cases hr
  obtain ⟨hfull, hstored⟩ := h.repair hrep
  have hle : (1 : UInt8) ≤ pending.groupSize := by
    rw [ne_eq, ← UInt8.toNat_inj] at hz
    exact Nat.pos_of_ne_zero hz
  have hcard := h.count
  rw [hc, UInt8.toNat_sub_of_le _ _ hle, h.size, UInt8.toNat_one, ← hfull] at hcard
  have hpos : 0 < group.members.length := by
    rw [hfull, ← h.size]
    exact UInt8.le_iff_toNat_le.mp hle
  -- one index is left over
  have hdiff : (group.indices \ arrived).card = 1 := by
    rw [Finset.card_sdiff_of_subset h.sub, FecGroup.indices, Finset.card_range]
    omega
  obtain ⟨j, hj⟩ := Finset.card_eq_one.mp hdiff
  have hmem : j ∈ group.indices \ arrived := by
    rw [hj]
    exact Finset.mem_singleton_self j
  obtain ⟨hjin, hjout⟩ := Finset.mem_sdiff.mp hmem
  have harr : arrived = group.indices.erase j := by
    rw [Finset.erase_eq, ← hj, Finset.sdiff_sdiff_eq_self h.sub]
  refine ⟨j, hjin, harr, hfull, ?_⟩
  have hwidth := FecGroup.width_le hwf.payload
  have hmax : max group.width pending.xorLen = group.width := by
    rw [h.xorLen]
    exact Nat.max_eq_left (FecGroup.longest_le_width h.sub)
  rw [PendingGroup.missingPacket, hstored, Option.map_some, hmax]
  congr 1
  apply eq_of_getD
  · rw [length_map, length_range, length_padTo (FecGroup.length_le_width hjin)]
  · intro i hi
    rw [length_map, length_range] at hi
    rw [getD_padTo, ← parity_xor_erase hjin, ← harr]
    simp only [getD_eq_getElem?_getD, getElem?_map, getElem?_range hi,
      Option.map_some, Option.getD_some]
    rw [← getD_eq_getElem?_getD, ← getD_eq_getElem?_getD, getD_padTo,
      FecGroup.getD_xorData hi, h.xor i (Nat.lt_of_lt_of_le hi hwidth)]

end

end Holds

/-! ### One call -/

namespace FecReceiver

variable {r r' r'' : FecReceiver} {c : FecCall} {answer : Except Error FecRxResult}

/-- `r'` differs from `r` only at position `p`, by retired groups and by its highest position. -/
structure Frames (p : Nat) (top : Option Nat) (r r' : FecReceiver) : Prop where
  pending : ∀ q, q ≠ p → r'.pending.lookup q = r.pending.lookup q ∨ r'.pending.lookup q = none
  completed : ∀ q ∈ r'.completedSet, q = p ∨ q ∈ r.completedSet
  remembered : ∀ q, q ≠ p → r'.remembered q = true → r.remembered q = true
  highest : r'.highestGroup = top

namespace Frames

variable {p : Nat} {top top' : Option Nat}

theorem refl (p : Nat) (r : FecReceiver) : Frames p r.highestGroup r r :=
  ⟨fun _ _ => .inl rfl, fun _ h => .inr h, fun _ _ h => h, rfl⟩

theorem trans (h : Frames p top r r') (h' : Frames p top' r' r'') : Frames p top' r r'' where
  pending := by
    intro q hq
    rcases h'.pending q hq with he | he
    · rcases h.pending q hq with he' | he'
      · exact .inl (he.trans he')
      · exact .inr (he.trans he')
    · exact .inr he
  completed := by
    intro q hq
    rcases h'.completed q hq with he | he
    · exact .inl he
    · exact h.completed q he
  remembered := fun q hq hr => h.remembered q hq (h'.remembered q hq hr)
  highest := h'.highest

theorem setPending (p : Nat) (r : FecReceiver) (group : PendingGroup) :
    Frames p r.highestGroup r (r.setPending p group) where
  pending := by
    intro q hq
    rw [lookup_setPending, if_neg hq]
    exact .inl rfl
  completed := fun _ h => .inr h
  remembered := by
    intro q hq hr
    rwa [(setPending_of_ne r hq group).2] at hr
  highest := rfl

end Frames

/-- Retirement makes nothing remembered. -/
theorem Retires.remembered (h : Retires r r') {q : Nat} (hq : r'.remembered q = true) :
    r.remembered q = true := by
  simp only [FecReceiver.remembered, Bool.or_eq_true, decide_eq_true_eq, h.completedSet] at hq
  simp only [FecReceiver.remembered, Bool.or_eq_true, decide_eq_true_eq]
  rcases hq with (hq | hq) | hq
  · exact .inl (.inl hq)
  · obtain ⟨g, hg⟩ := Option.isSome_iff_exists.mp hq
    exact .inl (.inr (by rw [h.pending_of_some hg]; rfl))
  · obtain ⟨g', hg'⟩ := Option.isSome_iff_exists.mp hq
    rcases h.retired q g' hg' with hold | ⟨g, hg, -⟩
    · exact .inr (by rw [hold]; rfl)
    · exact .inl (.inr (by rw [hg]; rfl))

theorem Retires.frames (h : Retires r r') (p : Nat) : Frames p r.highestGroup r r' :=
  ⟨fun q _ => h.pending q, fun _ hq => .inr (h.completedSet ▸ hq),
    fun _ _ hq => h.remembered hq, h.highestGroup⟩

theorem ensureGroup_frames {group : PendingGroup} {seq now : Nat} {size : UInt8} (ha : r.Apart)
    (h : r.ensureGroup seq size now = (.ok group, r')) : Frames seq r.highestGroup r r' := by
  rcases ensureGroup_ok ha h with ⟨-, -, rfl⟩ | ⟨-, r₁, ticket, hret, -, rfl⟩
  · exact Frames.refl seq r'
  have hticket : Frames seq r₁.highestGroup r₁ { r₁ with nextTicket := ticket + 1 } :=
    ⟨fun _ _ => .inl rfl, fun _ hq => .inr hq, fun _ _ hq => hq, rfl⟩
  have hset := Frames.setPending seq { r₁ with nextTicket := ticket + 1 } group
  exact hret.highestGroup ▸ ((hret.frames seq).trans hticket).trans hset

theorem completeGroup_frames (r : FecReceiver) (seq : Nat) :
    Frames seq r.highestGroup r (r.completeGroup seq) := by
  obtain ⟨hpend, hret, hhigh, hset⟩ := completeGroup_spec r seq
  refine ⟨?_, hset, ?_, hhigh⟩
  · intro q hq
    rw [hpend, if_neg hq]
    exact .inl rfl
  · intro q hq hr
    simp only [remembered, hpend, if_neg hq, hret, Bool.or_eq_true, decide_eq_true_eq] at hr
    simp only [remembered, Bool.or_eq_true, decide_eq_true_eq]
    exact hr.imp_left (Or.imp_left fun hc => (hset q hc).resolve_left hq)

theorem finish_frames (r : FecReceiver) (seq : Nat) (accepted : Bool) :
    Frames seq r.highestGroup r (r.finish seq accepted).2 := by
  cases hl : r.pending.lookup seq with
  | none =>
    rw [finish, hl]
    exact Frames.refl seq r
  | some group =>
    rcases finish_cases hl accepted with ⟨-, he⟩ | ⟨-, -, -, -, he⟩ | ⟨-, -, he⟩
    · rw [he]
      exact completeGroup_frames r seq
    · rw [he]
      exact completeGroup_frames r seq
    · rw [he]
      exact Frames.refl seq r

/-- A valid call changes only its own position, notes it and retires groups. -/
theorem CallEffect.frames (h : CallEffect r c answer r') (hi : r.Inv) (hv : c.Valid) :
    Frames (r.positionOf c) (r.entered c).highestGroup r r' := by
  have ha := (entered_inv hi c).apart
  have hsweep := (swept_retires hi.apart c).frames (r.positionOf c)
  have henter : Frames (r.positionOf c) (r.entered c).highestGroup r (r.entered c) :=
    ⟨hsweep.pending, hsweep.completed, hsweep.remembered, rfl⟩
  cases h with
  | invalid e h => exact absurd hv h
  | completed hv h | retired answer group hv hc h hq | conflict e group hv h hs => exact henter
  | repeated answer group r' hv hc hr ho h hq | exceeds e group r' hv hc hr ho h =>
    exact henter.trans (ensureGroup_frames ha ho)
  | updated group r' hv hc hr ho hn hx =>
    have hopen := ensureGroup_frames ha ho
    have hset := Frames.setPending (r.positionOf c) r' (c.update group)
    have hfinish := finish_frames (r'.setPending (r.positionOf c) (c.update group))
      (r.positionOf c) true
    rw [hset.highest, hopen.highest] at hfinish
    exact ((henter.trans hopen).trans hset).trans hfinish
  | late metadata payload now order group he hv hc h hnew =>
    refine henter.trans ⟨fun _ _ => .inl rfl, fun _ hq => .inr hq, ?_, rfl⟩
    intro q hq hr
    simpa [remembered, Table.lookup_insert_eq, hq] using hr

def RecoversNothing (answer : Except Error FecRxResult) : Prop :=
  ∀ result, answer = .ok result → result.recovered = none

theorem recoversNothing_ok {result : FecRxResult} (h : result.recovered = none) :
    RecoversNothing (.ok result) := by
  rintro _ ⟨⟩
  exact h

theorem recoversNothing_of_quiet (h : Quiet answer) : RecoversNothing answer := by
  rintro result rfl
  exact h.2

/-- The answers to an honest call, by what becomes of its pending group: it is an old one, it
stays open, its last member came, or the missing member was recovered. -/
inductive HonestOutcome (r : FecReceiver) (c : FecCall) (group : FecGroup)
    (arrived : Finset Nat) (repaired : Prop) (answer : Except Error FecRxResult)
    (r' : FecReceiver) : Prop where
  | old (hmem : (r.entered c).remembered (r.positionOf c) = true)
      (hp : r'.pending.lookup (r.positionOf c) = none)
      (hsame : r'.completedSet = r.completedSet)
      (hquiet : RecoversNothing answer)
  | stays (pending : PendingGroup) (hp : r'.pending.lookup (r.positionOf c) = some pending)
      (hh : Holds group (c.addTo arrived) (repaired ∨ c.IsRepair) pending) (ho : pending.Open)
      (hquiet : RecoversNothing answer)
  | allHere (hall : c.addTo arrived = group.indices) (hfull : group.Full)
      (hp : r'.pending.lookup (r.positionOf c) = none)
      (hquiet : RecoversNothing answer)
  | recovers (j : Nat) (hj : j ∈ group.indices) (harr : c.addTo arrived = group.indices.erase j)
      (hfull : group.Full) (hp : r'.pending.lookup (r.positionOf c) = none)
      (hrec : ∃ result, answer = .ok result ∧
        result.recovered = some (padTo group.width (group.member j)))

/-- Every outcome of an honest call is one of the four, if the pending group at its position
holds what has arrived and an unknown position means that nothing has. -/
theorem CallEffect.honest (h : CallEffect r c answer r') (hi : r.Inv) (hwf : group.WF)
    (hc : c.For group g) {repaired : Prop}
    (hpend : ∀ pending, (r.swept c).pending.lookup (r.positionOf c) = some pending →
      Holds group arrived repaired pending ∧ pending.Open)
    (hfresh : (r.swept c).remembered (r.positionOf c) = false → arrived = ∅ ∧ ¬ repaired) :
    HonestOutcome r c group arrived repaired answer r' := by
  have hent := entered_inv hi c
  have hset : (r.entered c).completedSet = r.completedSet := (swept_retires hi.apart c).completedSet
  have hsize : c.size = group.size := by
    cases c with
    | record metadata payload now order => exact hc.2.1
    | repair sent now order =>
      obtain ⟨-, rfl⟩ := hc
      rfl
  -- the group `ensure_group` returns holds what has arrived
  have hopened : ∀ (pending : PendingGroup) (r₁ : FecReceiver),
      r.positionOf c ∉ (r.entered c).completedSet →
      (r.entered c).retired.lookup (r.positionOf c) = none →
      (r.entered c).ensureGroup (r.positionOf c) c.size c.now = (.ok pending, r₁) →
      Holds group arrived repaired pending ∧
        r₁.pending.lookup (r.positionOf c) = some pending ∧
        (pending.Open ∨ ∃ ticket, pending = .new group.size c.now ticket) := by
    intro pending r₁ hnc hnr ho
    rw [hsize] at ho
    rcases ensureGroup_ok hent.apart ho with ⟨hp, -, rfl⟩ | ⟨hp, r₂, ticket, -, rfl, rfl⟩
    · obtain ⟨hh, hop⟩ := hpend pending hp
      exact ⟨hh, hp, .inl hop⟩
    have hforgot : (r.swept c).remembered (r.positionOf c) = false := by
      show (r.entered c).remembered (r.positionOf c) = false
      simp [remembered, hnc, hnr, hp]
    obtain ⟨rfl, hno⟩ := hfresh hforgot
    obtain rfl : repaired = False := eq_false hno
    refine ⟨Holds.new group c.now ticket, ?_, .inr ⟨ticket, rfl⟩⟩
    rw [lookup_setPending, if_pos rfl]
  cases h with
  | invalid e h => exact absurd (hc.valid hwf) h
  | completed hv h =>
    exact .old (by simp [remembered, h]) (hent.apart.pending_of_completed h) hset
      (recoversNothing_ok rfl)
  | retired answer old hv hnc h hq =>
    exact .old (by simp [remembered, h]) (hent.apart.pending_of_retired h) hset
      (recoversNothing_of_quiet hq)
  | late metadata payload now order old he hv hnc h hnew =>
    exact .old (by simp [remembered, h]) (hent.apart.pending_of_retired h) hset
      (recoversNothing_ok rfl)
  | conflict e pending hv h hs =>
    obtain ⟨hh, -⟩ := hpend pending h
    exact absurd (hh.size.trans hsize.symm) hs
  | repeated answer pending r₁ hv hnc hnr ho h hq =>
    obtain ⟨hh, hp, hop⟩ := hopened pending r' hnc hnr ho
    obtain ⟨hadd, hrep⟩ := hh.repeats h
    -- what is repeated was not made just now
    have hopen : pending.Open := by
      rcases hop with hop | ⟨ticket, rfl⟩
      · exact hop
      · exact absurd h (c.not_of_new _ _ _).1
    refine .stays pending hp ?_ hopen (recoversNothing_of_quiet hq)
    rw [hadd, or_iff_left_of_imp hrep]
    exact hh
  | exceeds e pending r₁ hv hnc hnr ho h =>
    obtain ⟨hh, -, -⟩ := hopened pending r' hnc hnr ho
    exact absurd h (hh.not_exceeds hc)
  | updated pending r₁ hv hnc hnr ho hn hx =>
    obtain ⟨hh, hp, -⟩ := hopened pending r₁ hnc hnr ho
    have hh' := hh.update hwf hc hn
    let updated := r₁.setPending (r.positionOf c) (c.update pending)
    have hp' : updated.pending.lookup (r.positionOf c) = some (c.update pending) := by
      rw [lookup_setPending, if_pos rfl]
    have hgone : (updated.completeGroup (r.positionOf c)).pending.lookup (r.positionOf c) = none := by
      rw [(completeGroup_spec _ _).1, if_pos rfl]
    rcases finish_cases hp' true with ⟨hcount, he⟩ | ⟨-, hz, hcount, hrep, he⟩ | ⟨hall, hready, he⟩
    · obtain ⟨hfull, hall⟩ := hh'.arrived_eq_of_count hcount hwf
      rw [he]
      exact .allHere hall hfull hgone (recoversNothing_ok rfl)
    · obtain ⟨j, hj, harr, hfull, hmiss⟩ := hh'.recovered hwf hz hcount hrep
      rw [he]
      exact .recovers j hj harr hfull hgone ⟨_, rfl, hmiss⟩
    · rw [he]
      exact .stays _ hp' hh' ⟨hall, hready⟩ (recoversNothing_ok rfl)

end FecReceiver

/-! ### Bookkeeping of the arrivals -/

section Bookkeeping

variable {past arrivals : List FecArrival} {a : FecArrival} {c : FecCall} {k : Nat}

/-- The index that an arrival brings is the one of its call. -/
theorem index_of_call (h : a.call = some c) :
    (∀ known, c.addTo known = known ∪ a.item.index?.toFinset) ∧
      (a.item.index? = none ↔ c.IsRepair) := by
  unfold FecArrival.call at h
  cases hitem : a.item with
  | member metadata payload =>
    rw [hitem] at h
    cases h
    simp [FecItem.index?, FecCall.addTo, FecCall.IsRepair]
  | repair bytes =>
    rw [hitem] at h
    obtain ⟨repair, -, rfl⟩ := Option.map_eq_some_iff.mp h
    simp [FecItem.index?, FecCall.addTo, FecCall.IsRepair]

theorem membersIn_snoc (h : a.call = some c) :
    membersIn (past ++ [a]) a.group = c.addTo (membersIn past a.group) := by
  rw [(index_of_call h).1]
  ext i
  simp [membersIn, filterMap_append]

theorem membersIn_snoc_of_ne (h : g ≠ a.group) : membersIn (past ++ [a]) g = membersIn past g := by
  simp [membersIn, filterMap_append, Ne.symm h]

theorem repairIn_snoc (h : a.call = some c) :
    repairIn (past ++ [a]) a.group ↔ repairIn past a.group ∨ c.IsRepair := by
  simp only [repairIn, mem_append, mem_singleton, or_and_right, exists_or]
  apply or_congr Iff.rfl
  rw [← (index_of_call h).2]
  simp

theorem repairIn_snoc_of_ne (h : g ≠ a.group) : repairIn (past ++ [a]) g ↔ repairIn past g := by
  simp only [repairIn, mem_append, mem_singleton, or_and_right, exists_or]
  apply or_iff_left
  rintro ⟨b, rfl, hg, -⟩
  exact h hg.symm

theorem startedIn_snoc : startedIn (past ++ [a]) g ↔ startedIn past g ∨ g = a.group := by
  simp [startedIn, or_and_right, exists_or, eq_comm]

theorem topGroup_snoc : topGroup (past ++ [a]) = max (topGroup past) a.group := by
  simp [topGroup, foldl_append]

theorem take_snoc (h : arrivals[k]? = some a) : arrivals.take (k + 1) = arrivals.take k ++ [a] := by
  rw [take_add_one, h]
  rfl

theorem afterArrivals_succ (h : arrivals[k]? = some a) (hc : a.call = some c) :
    afterArrivals arrivals (k + 1) = ((afterArrivals arrivals k).call c).2 := by
  rw [afterArrivals, stateAt_succ h, FecReceiver.arrive, hc]
  rfl

end Bookkeeping

/-- Every arrival of a delivery leads to an honest call of its group. -/
theorem Delivery.call {arrivals : List FecArrival} (hd : Delivery actions arrivals)
    (ha : a ∈ arrivals) :
    ∃ group c, (senderGroups actions)[a.group]? = some group ∧ group.WF ∧
      a.call = some c ∧ c.For group a.group ∧ c.seq = UInt16.ofNat a.group := by
  obtain ⟨hwf, hof⟩ := sender_items actions
  have hitem := hof _ (hd.sent a ha)
  unfold FecArrival.call
  cases h : a.item with
  | member metadata payload =>
    simp only [h, FecItem.Of] at hitem
    obtain ⟨group, hg, hseq, hs, hm⟩ := hitem
    exact ⟨group, _, hg, hwf group (mem_of_getElem? hg), rfl, ⟨hseq, hs, hm⟩, hseq⟩
  | repair bytes =>
    simp only [h, FecItem.Of] at hitem
    obtain ⟨group, hg, hfull, rfl⟩ := hitem
    have hgwf := hwf group (mem_of_getElem? hg)
    refine ⟨group, .repair (group.repair a.group) a.now a.order, hg, hgwf, ?_, ⟨hfull, rfl⟩, rfl⟩
    have hdecode := FecRepair.decode_encoded (group.repair a.group) hgwf.size
    simp only [hdecode, Option.map_some]

/-! ### Whole runs -/

def firstGroup (arrivals : List FecArrival) : Nat :=
  (arrivals.head?.map FecArrival.group).getD 0

theorem firstGroup_eq {arrivals : List FecArrival} (h : arrivals[0]? = some a) :
    firstGroup arrivals = a.group := by
  rw [firstGroup, head?_eq_getElem?, h]
  rfl

/-- Arrival `m` finished group `g`: no member is missing, or the missing one was recovered. -/
def FinishedBy (groups : List FecGroup) (arrivals : List FecArrival) (m g : Nat) : Prop :=
  ∃ a c group, arrivals[m]? = some a ∧ a.group = g ∧ a.call = some c ∧
    groups[g]? = some group ∧
    (membersIn (arrivals.take (m + 1)) g = group.indices ∨
      ∃ j ∈ group.indices, membersIn (arrivals.take (m + 1)) g = group.indices.erase j ∧
        ∃ result, ((afterArrivals arrivals m).call c).1 = .ok result ∧
          result.recovered = some (padTo group.width (group.member j)))

/-- The receiver after `k` arrivals, against the groups of the sender. -/
structure Follows (groups : List FecGroup) (arrivals : List FecArrival) (k : Nat) : Prop where
  inv : (afterArrivals arrivals k).Inv
  highest : (afterArrivals arrivals k).highestGroup =
    if arrivals.take k = [] then none
    else some (unwrapped (firstGroup arrivals) (topGroup (arrivals.take k)))
  top : arrivals.take k ≠ [] → firstGroup arrivals ≤ topGroup (arrivals.take k)
  range : ∀ g, startedIn (arrivals.take k) g → firstGroup arrivals < g + 2 ^ 15
  known : ∀ q, (afterArrivals arrivals k).remembered q = true →
    ∃ g, startedIn (arrivals.take k) g ∧ q = unwrapped (firstGroup arrivals) g
  pending : ∀ q pending, (afterArrivals arrivals k).pending.lookup q = some pending →
    ∃ g group, startedIn (arrivals.take k) g ∧ q = unwrapped (firstGroup arrivals) g ∧
      groups[g]? = some group ∧
      Holds group (membersIn (arrivals.take k) g) (repairIn (arrivals.take k) g) pending ∧
      pending.Open
  outcome : ∀ g, startedIn (arrivals.take k) g →
    ((afterArrivals arrivals k).pending.lookup
      (unwrapped (firstGroup arrivals) g)).isSome = true ∨
    (∃ m < k, FinishedBy groups arrivals m g) ∨
    ∃ m < k, expiredOrEvicted arrivals m (unwrapped (firstGroup arrivals) g)

/-- Before the first arrival. -/
theorem follows_zero (groups : List FecGroup) (arrivals : List FecArrival) :
    Follows groups arrivals 0 where
  inv := by
    refine ⟨⟨?_, ?_, ?_⟩, ?_⟩ <;> intro q g h <;> cases h
  highest := rfl
  top := fun h => absurd rfl h
  range := by
    rintro g ⟨a, ha, -⟩
    cases ha
  known := by
    intro q hq
    cases hq
  pending := by
    intro q pending hq
    cases hq
  outcome := by
    rintro g ⟨a, ha, -⟩
    cases ha

namespace Follows

variable {actions : List FecAction} {arrivals : List FecArrival} {k : Nat} {a : FecArrival}
  {c : FecCall} {group : FecGroup}

section

variable (h : Follows (senderGroups actions) arrivals k) (hd : Delivery actions arrivals)
  (ha : arrivals[k]? = some a)

include h hd ha

/-- An arrival is in range of the first one, and its call is given its own position. -/
theorem position (hseq : c.seq = UInt16.ofNat a.group) : firstGroup arrivals < a.group + 2 ^ 15 ∧
    (afterArrivals arrivals k).positionOf c = unwrapped (firstGroup arrivals) a.group := by
  have hhigh : ((afterArrivals arrivals k).swept c).highestGroup =
      (afterArrivals arrivals k).highestGroup :=
    (FecReceiver.swept_retires h.inv.apart c).highestGroup
  rw [h.highest] at hhigh
  rw [FecReceiver.positionOf, hseq]
  by_cases hk : k = 0
  · subst hk
    rw [firstGroup_eq ha]
    exact ⟨by omega, position_first hhigh a.group⟩
  have hlen := (List.getElem?_eq_some_iff.mp ha).1
  have hne : arrivals.take k ≠ [] := by
    rw [← length_pos_iff, length_take]
    omega
  rw [if_neg hne] at hhigh
  have htop := h.top hne
  obtain ⟨hlow, hup⟩ := hd.near k a ha (Nat.pos_of_ne_zero hk)
  exact ⟨Nat.lt_of_le_of_lt htop hlow, position_near hhigh htop hlow hup⟩

/-- What an arrival does to its own group. -/
theorem honest (hg : (senderGroups actions)[a.group]? = some group) (hwf : group.WF)
    (hcall : a.call = some c) (hfor : c.For group a.group) (hseq : c.seq = UInt16.ofNat a.group) :
    FecReceiver.HonestOutcome (afterArrivals arrivals k) c group
      (membersIn (arrivals.take k) a.group) (repairIn (arrivals.take k) a.group)
      ((afterArrivals arrivals k).call c).1 (afterArrivals arrivals (k + 1)) := by
  obtain ⟨hrange, hpos⟩ := h.position hd ha hseq
  rw [afterArrivals_succ ha hcall]
  refine (FecReceiver.call_effect _ c).honest h.inv hwf hfor ?_ ?_
  · intro pending hp
    have hp' := (FecReceiver.swept_retires h.inv.apart c).pending_of_some hp
    obtain ⟨g, group', hst, hq, hg', hh, hop⟩ := h.pending _ pending hp'
    obtain rfl : g = a.group := unwrapped_inj (h.range g hst) hrange (hq.symm.trans hpos)
    rw [hg] at hg'
    cases hg'
    exact ⟨hh, hop⟩
  · intro hforgot
    -- a group some item of which had arrived would still be remembered
    have hnew : ¬ startedIn (arrivals.take k) a.group := by
      intro hst
      have hkept := hd.kept k a c ha hcall hst
      rw [hforgot] at hkept
      cases hkept
    constructor
    · ext i
      simp only [membersIn, mem_toFinset, mem_filterMap, Finset.notMem_empty, iff_false]
      rintro ⟨b, hb, hi⟩
      split at hi
      · next hbg => exact hnew ⟨b, hb, hbg⟩
      · cases hi
    · rintro ⟨b, hb, hbg, -⟩
      exact hnew ⟨b, hb, hbg⟩

/-- One more arrival. -/
theorem succ : Follows (senderGroups actions) arrivals (k + 1) := by
  obtain ⟨group, c, hg, hwf, hcall, hfor, hseq⟩ := hd.call (mem_of_getElem? ha)
  obtain ⟨hrange, hpos⟩ := h.position hd ha hseq
  let p := unwrapped (firstGroup arrivals) a.group
  have hout := h.honest hd ha hg hwf hcall hfor hseq
  have hnext := afterArrivals_succ ha hcall
  have heff := FecReceiver.call_effect (afterArrivals arrivals k) c
  rw [← hnext] at heff
  have hframe := heff.frames h.inv (hfor.valid hwf)
  have hret := FecReceiver.swept_retires h.inv.apart c
  rw [hpos] at hframe
  have htake := take_snoc ha
  have hstarted : ∀ {g}, startedIn (arrivals.take (k + 1)) g ↔ _ := htake ▸ startedIn_snoc
  have hrange' : ∀ g, startedIn (arrivals.take (k + 1)) g → firstGroup arrivals < g + 2 ^ 15 := by
    intro g hst
    rcases hstarted.mp hst with hst | rfl
    · exact h.range g hst
    · exact hrange
  refine ⟨?_, ?_, ?_, hrange', ?_, ?_, ?_⟩
  · rw [hnext]
    exact ((FecReceiver.call_effect _ c).safe h.inv).inv
  · have hent : ((afterArrivals arrivals k).entered c).highestGroup =
        some (max ((afterArrivals arrivals k).highestGroup.getD p) p) := by
      rw [← hret.highestGroup, show p = _ from hpos.symm]
      rfl
    have hne : arrivals.take k ++ [a] ≠ [] := by simp
    rw [hframe.highest, hent, h.highest, htake, topGroup_snoc, if_neg hne]
    by_cases hempty : arrivals.take k = []
    · rw [if_pos hempty, hempty]
      simp [topGroup, p]
    · rw [if_neg hempty, Option.getD_some]
      show some (max (unwrapped _ _) (unwrapped _ _)) = _
      unfold unwrapped
      congr 1
      omega
  · intro _
    rw [htake, topGroup_snoc]
    by_cases hempty : arrivals.take k = []
    · rcases take_eq_nil_iff.mp hempty with rfl | rfl
      · rw [firstGroup_eq ha]
        exact Nat.le_max_right _ _
      · cases ha
    · exact Nat.le_trans (h.top hempty) (Nat.le_max_left _ _)
  · intro q hq
    by_cases hqp : q = p
    · exact ⟨a.group, hstarted.mpr (.inr rfl), hqp⟩
    · obtain ⟨g, hst, rfl⟩ := h.known q (hframe.remembered q hqp hq)
      exact ⟨g, hstarted.mpr (.inl hst), rfl⟩
  · intro q pending hq
    by_cases hqp : q = p
    · rw [hqp.trans hpos.symm] at hq
      cases hout with
      | old _ hp | allHere _ _ hp | recovers _ _ _ _ hp => rw [hp] at hq; cases hq
      | stays pending' hp hh ho =>
        rw [hp] at hq
        cases hq
        refine ⟨a.group, group, hstarted.mpr (.inr rfl), hqp, hg, ?_, ho⟩
        rw [htake, membersIn_snoc hcall, propext (repairIn_snoc hcall)]
        exact hh
    · have hold := (hframe.pending q hqp).resolve_right (by simp [hq])
      obtain ⟨g, group', hst, rfl, hg', hh, ho⟩ := h.pending q pending (hold.symm.trans hq)
      have hne : g ≠ a.group := fun hc => hqp (hc ▸ rfl)
      refine ⟨g, group', hstarted.mpr (.inl hst), rfl, hg', ?_, ho⟩
      rw [htake, membersIn_snoc_of_ne hne, propext (repairIn_snoc_of_ne hne)]
      exact hh
  · intro g hst
    -- whatever happened before has still happened
    have hlift {P : Nat → Prop} : (∃ m < k, P m) → ∃ m < k + 1, P m :=
      fun ⟨m, hm, hf⟩ => ⟨m, Nat.lt_succ_of_lt hm, hf⟩
    by_cases hga : g = a.group
    · subst hga
      cases hout with
      | stays pending hp hh ho =>
        rw [← hpos, hp]
        exact .inl rfl
      | allHere hall hfull hp =>
        refine .inr (.inl ⟨k, Nat.lt_succ_self k, a, c, group, ha, rfl, hcall, hg, .inl ?_⟩)
        rw [htake, membersIn_snoc hcall]
        exact hall
      | recovers j hj harr hfull hp hrec =>
        refine .inr (.inl ⟨k, Nat.lt_succ_self k, a, c, group, ha, rfl, hcall, hg,
          .inr ⟨j, hj, ?_, hrec⟩⟩)
        rw [htake, membersIn_snoc hcall]
        exact harr
      | old hmem hp hsame =>
        -- the position is remembered, so something of the group came before
        obtain ⟨g', hst', hq⟩ := h.known _ (hret.remembered hmem)
        rw [hpos] at hq
        obtain rfl := unwrapped_inj hrange (h.range g' hst') hq
        rw [hpos] at hp
        rcases h.outcome _ hst' with hsome | hpast
        · -- a group that leaves the pending ones without being completed was dropped
          refine .inr (.inr ⟨k, Nat.lt_succ_self k, hsome, hp, ?_⟩)
          obtain ⟨pending, hpend⟩ := Option.isSome_iff_exists.mp hsome
          rw [hsame]
          exact h.inv.apart.pendingCompleted _ pending hpend
        · exact .inr (hpast.imp hlift hlift)
    · have hst' := (hstarted.mp hst).resolve_right hga
      have hne : unwrapped (firstGroup arrivals) g ≠ p :=
        fun hc => hga (unwrapped_inj (h.range g hst') hrange hc)
      rcases h.outcome g hst' with hsome | hpast
      · rcases hframe.pending _ hne with he | he
        · exact .inl (by rw [he]; exact hsome)
        refine .inr (.inr ⟨k, Nat.lt_succ_self k, hsome, he, ?_⟩)
        obtain ⟨pending, hpend⟩ := Option.isSome_iff_exists.mp hsome
        intro hc
        rcases hframe.completed _ hc with hc | hc
        · exact hne hc
        · exact h.inv.apart.pendingCompleted _ pending hpend hc
      · exact .inr (hpast.imp hlift hlift)

end

end Follows

/-- The receiver follows the sender's groups at every point of a delivery. -/
theorem Delivery.follows {arrivals : List FecArrival} (hd : Delivery actions arrivals) (k : Nat)
    (hk : k ≤ arrivals.length) : Follows (senderGroups actions) arrivals k := by
  induction k with
  | zero => exact follows_zero _ arrivals
  | succ k ih => exact (ih (Nat.le_of_succ_le hk)).succ hd (getElem?_eq_getElem hk)

end AivpnSpec.Common
