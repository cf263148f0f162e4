import AivpnSpec.Common.Fec

/-!
# The groups of a FEC sender

A run of the sender cuts its payloads into numbered groups: every tag carries the number
and size of its group and the index of its payload, and the repair of a full group is the
XOR of the payloads, whatever changes of the group size come in between.
-/

namespace AivpnSpec.Common

open AivpnSpec.Base List

/-- What the sender's user does: change the group size, send a payload (its tag is read
first, then it is fed), or drain and clear the queue of encrypted repairs. -/
inductive FecAction where
  | setGroup (size : UInt8)
  | send (payload : Bytes) (payloadLimit : Nat) (id : UInt64)
      (encrypt : Nat → InnerType → Bytes → Except Error Bytes)
  | takePacket
  | discardPending

/-- What leaves for the receiver: a tagged payload, or the encoding of a repair. -/
inductive FecItem where
  | member (metadata : FecMetadata) (payload : Bytes)
  | repair (bytes : Bytes)
  deriving DecidableEq, Repr

namespace FecSender

def act (s : FecSender) : FecAction → FecSender
  | .setGroup size => s.setGroup size
  | .send payload payloadLimit id encrypt => s.feed payload payloadLimit id encrypt
  | .takePacket => s.takePacket.2
  | .discardPending => s.discardPending

def emits (s : FecSender) : FecAction → List FecItem
  | .send payload _ _ _ =>
    (s.metadataFor payload.length).toList.map (fun metadata => .member metadata payload) ++
      (s.absorb payload).1.toList.map (fun repair => .repair repair.encode)
  | _ => []

/-- Everything a run emits, each item with the number of its group: how many groups were
finished before it. -/
def run (s : FecSender) (finished : Nat) : List FecAction → List (Nat × FecItem)
  | [] => []
  | action :: rest =>
    let items := s.emits action
    let repairs := items.countP fun item => item matches .repair _
    items.map (finished, ·) ++ (s.act action).run (finished + repairs) rest

end FecSender

/-- A FEC group: the announced size and the payloads in order. -/
structure FecGroup where
  size : UInt8
  members : List Bytes
  deriving DecidableEq, Repr

namespace FecGroup

variable (group : FecGroup)

/-- Payload `i` of the group. -/
def member (i : Nat) : Bytes := group.members.getD i []

def indices : Finset Nat := Finset.range group.members.length

def width : Nat := longest group.indices group.member

/-- The XOR of the payloads, as long as the longest. -/
def xorData : Bytes :=
  (List.range group.width).map (parity group.indices group.member)

end FecGroup

/-- Put an item into the list of groups: index 0 opens a group, repairs add nothing. -/
def addItem (groups : List FecGroup) : FecItem → List FecGroup
  | .member metadata payload =>
    if metadata.index = 0 then groups ++ [{ size := metadata.groupSize, members := [payload] }]
    else
      groups.dropLast ++ groups.getLast?.toList.map fun group =>
        { group with members := group.members ++ [payload] }
  | .repair _ => groups

def groupsOf (items : List (Nat × FecItem)) : List FecGroup :=
  items.foldl (fun groups item => addItem groups item.2) []

/-- The tagged payloads among the items, in order. -/
def taggedPayloads (items : List FecItem) : List (FecMetadata × Bytes) :=
  items.filterMap fun
    | .member metadata payload => some (metadata, payload)
    | .repair _ => none

def repairBytes (items : List FecItem) : List Bytes :=
  items.filterMap fun
    | .member _ _ => none
    | .repair bytes => some bytes

namespace FecGroup

/-- A group the sender may make: announced size not zero, not more payloads than that, each
of 1 to 1500 bytes. -/
structure WF (group : FecGroup) : Prop where
  size : group.size ≠ 0
  length : group.members.length ≤ group.size.toNat
  payload : ∀ p ∈ group.members, 0 < p.length ∧ p.length ≤ maxPacketSize

def Full (group : FecGroup) : Prop := group.members.length = group.size.toNat

/-- The repair of the group with number `g`. -/
def repair (group : FecGroup) (g : Nat) : FecRepair :=
  { groupSeq := UInt16.ofNat g, groupSize := group.size, xorData := group.xorData }

end FecGroup

/-- The payloads of some groups, numbered one after the other modulo 2^16. -/
def numbered (groups : List FecGroup) : List (FecMetadata × Bytes) :=
  groups.zipIdx.flatMap fun (group, g) => group.members.zipIdx.map fun (payload, i) =>
    (⟨UInt16.ofNat g, group.size, UInt8.ofNat i⟩, payload)

def repaired (groups : List FecGroup) : List Bytes :=
  groups.zipIdx.map fun (group, g) => (group.repair g).encode

/-- The item belongs to group `g` of the list. -/
def FecItem.Of (groups : List FecGroup) (g : Nat) : FecItem → Prop
  | .member metadata payload => ∃ group, groups[g]? = some group ∧
      metadata.groupSeq = UInt16.ofNat g ∧ metadata.groupSize = group.size ∧
      group.members[metadata.index.toNat]? = some payload
  | .repair bytes => ∃ group, groups[g]? = some group ∧ group.Full ∧
      bytes = (group.repair g).encode

/-- `groups'` continues `groups`: more groups, and more payloads in the last one. -/
def Continues (groups groups' : List FecGroup) : Prop :=
  ∀ (g : Nat) (group : FecGroup), groups[g]? = some group →
    ∃ group' : FecGroup, groups'[g]? = some group' ∧ group'.size = group.size ∧
      group.members <+: group'.members

theorem Continues.trans {a b c : List FecGroup} (h : Continues a b) (h' : Continues b c) :
    Continues a c := by
  intro g group hg
  obtain ⟨group', hg', hs, hm⟩ := h g group hg
  obtain ⟨group'', hg'', hs', hm'⟩ := h' g group' hg'
  exact ⟨group'', hg'', hs'.trans hs, hm.trans hm'⟩

theorem Continues.refl (groups : List FecGroup) : Continues groups groups :=
  fun _ group h => ⟨group, h, rfl, prefix_refl _⟩

/-- An item keeps its group when the list goes on. -/
theorem FecItem.Of.continues {groups groups' : List FecGroup} {g : Nat} {item : FecItem}
    (h : item.Of groups g) (hc : Continues groups groups') (hwf : ∀ group ∈ groups', group.WF) :
    item.Of groups' g := by
  cases item with
  | member metadata payload =>
    obtain ⟨group, hg, hseq, hs, hm⟩ := h
    obtain ⟨group', hg', hs', hpre⟩ := hc g group hg
    refine ⟨group', hg', hseq, hs.trans hs'.symm, ?_⟩
    obtain ⟨rest, hrest⟩ := hpre
    rw [← hrest, List.getElem?_append_left (List.getElem?_eq_some_iff.mp hm).1]
    exact hm
  | repair bytes =>
    obtain ⟨group, hg, hfull, hb⟩ := h
    obtain ⟨group', hg', hs', hpre⟩ := hc g group hg
    -- a full group has no room for more payloads
    have hlen := (hwf group' (mem_of_getElem? hg')).length
    rw [hs'] at hlen
    have heq : group'.members = group.members :=
      (hpre.eq_of_length_le (by rw [hfull]; exact hlen)).symm
    have hgroup : group' = group := by
      cases group
      cases group'
      simp_all
    rw [hgroup] at hg'
    exact ⟨group, hg', hfull, hb⟩

/-- The encoder has absorbed the payloads of group `n`, which is not full. -/
structure Encodes (e : FecEncoder) (n : Nat) (members : List Bytes) : Prop where
  size : e.groupSize ≠ 0
  seq : e.groupSeq = UInt16.ofNat n
  count : e.count.toNat = members.length
  room : members.length < e.groupSize.toNat
  buffer : e.xorBuf.length = maxPacketSize
  xor : ∀ i < maxPacketSize, e.xorBuf.getD i 0 =
    parity (FecGroup.mk e.groupSize members).indices (FecGroup.mk e.groupSize members).member i
  width : e.maxLen = (FecGroup.mk e.groupSize members).width
  payload : ∀ p ∈ members, 0 < p.length ∧ p.length ≤ maxPacketSize

namespace FecGroup

variable (size : UInt8) (members : List Bytes) (payload : Bytes)

private theorem member_append_of_lt {k : Nat} (h : k < members.length) :
    (FecGroup.mk size (members ++ [payload])).member k = (FecGroup.mk size members).member k := by
  simp [member, getD_eq_getElem?_getD, getElem?_append_left h]

private theorem member_append_self :
    (FecGroup.mk size (members ++ [payload])).member members.length = payload := by
  simp [member]

private theorem indices_append :
    (FecGroup.mk size (members ++ [payload])).indices =
      insert members.length (FecGroup.mk size members).indices := by
  simp [indices, Finset.range_add_one]

/-- One more payload in the XOR. -/
theorem parity_append (i : Nat) :
    parity (FecGroup.mk size (members ++ [payload])).indices
        (FecGroup.mk size (members ++ [payload])).member i =
      parity (FecGroup.mk size members).indices (FecGroup.mk size members).member i ^^^
        payload.getD i 0 := by
  rw [indices_append, parity_insert (by simp [indices]), member_append_self]
  congr 1
  apply parity_congr
  intro k hk
  exact member_append_of_lt size members payload (Finset.mem_range.mp hk)

/-- One more payload in the length. -/
theorem width_append :
    (FecGroup.mk size (members ++ [payload])).width =
      max (FecGroup.mk size members).width payload.length := by
  rw [width, indices_append, longest, Finset.sup_insert, member_append_self, max_comm]
  congr 1
  apply Finset.sup_congr rfl
  intro k hk
  rw [member_append_of_lt size members payload (Finset.mem_range.mp hk)]

end FecGroup

/-- A new encoder has absorbed nothing. -/
theorem Encodes.new {size : UInt8} (h : size ≠ 0) (n : Nat) :
    Encodes { FecEncoder.new size maxPacketSize with groupSeq := UInt16.ofNat n } n [] where
  size := h
  seq := rfl
  count := rfl
  room := by
    rw [ne_eq, ← UInt8.toNat_inj] at h
    exact Nat.pos_of_ne_zero h
  buffer := by simp [FecEncoder.new]
  xor := by
    intro i hi
    simp [FecEncoder.new, FecGroup.indices, getD_eq_getElem?_getD, hi]
  width := rfl
  payload := by
    intro p hp
    cases hp

/-- No payload is longer than the XOR buffer. -/
theorem FecGroup.width_le {group : FecGroup}
    (h : ∀ p ∈ group.members, 0 < p.length ∧ p.length ≤ maxPacketSize) :
    group.width ≤ maxPacketSize := by
  unfold width longest
  apply Finset.sup_le
  intro k hk
  have hlt := Finset.mem_range.mp hk
  have hmem : group.member k ∈ group.members := by
    rw [member, getD_eq_getElem?_getD, getElem?_eq_getElem hlt]
    exact getElem_mem hlt
  exact (h _ hmem).2

variable {payload : Bytes}

/-- `feed` adds the payload to the group, or finishes it with its repair. -/
theorem Encodes.feed {e : FecEncoder} {n : Nat} {members : List Bytes} (h : Encodes e n members)
    (hpos : 0 < payload.length) (hlen : payload.length ≤ maxPacketSize) :
    (e.feed payload).2.groupSize = e.groupSize ∧
    ((members.length + 1 < e.groupSize.toNat ∧ (e.feed payload).1 = none ∧
        Encodes (e.feed payload).2 n (members ++ [payload])) ∨
      (members.length + 1 = e.groupSize.toNat ∧
        (e.feed payload).1 = some ((FecGroup.mk e.groupSize (members ++ [payload])).repair n) ∧
        Encodes (e.feed payload).2 (n + 1) [])) := by
  let group : FecGroup := ⟨e.groupSize, members ++ [payload]⟩
  have hmin : min payload.length e.xorBuf.length = payload.length := by
    rw [h.buffer]
    omega
  have htake : payload.take payload.length = payload := take_length
  have hbuf : (xorInto e.xorBuf payload).length = maxPacketSize := by
    rw [length_xorInto, h.buffer]
  have hcount : (e.count + 1).toNat = members.length + 1 := by
    have hroom := h.room
    have hsize := UInt8.toNat_lt e.groupSize
    rw [UInt8.toNat_add, h.count, UInt8.toNat_one, Nat.mod_eq_of_lt (by omega)]
  have hxor : ∀ i < maxPacketSize, (xorInto e.xorBuf payload).getD i 0 =
      parity group.indices group.member i := by
    intro i hi
    rw [getD_xorInto (by rw [h.buffer]; exact hi), h.xor i hi, FecGroup.parity_append]
  have hmax : (if e.maxLen < payload.length then payload.length else e.maxLen) =
      group.width := by
    rw [FecGroup.width_append, ← h.width]
    split <;> omega
  have hpay : ∀ p ∈ members ++ [payload], 0 < p.length ∧ p.length ≤ maxPacketSize := by
    intro p hp
    rcases mem_append.mp hp with hp | hp
    · exact h.payload p hp
    · rw [mem_singleton.mp hp]
      exact ⟨hpos, hlen⟩
  unfold FecEncoder.feed
  simp only [hmin, htake, hmax]
  by_cases hfull : e.groupSize ≤ e.count + 1
  · rw [if_pos hfull]
    refine ⟨rfl, .inr ⟨?_, ?_, ?_⟩⟩
    · rw [UInt8.le_iff_toNat_le, hcount] at hfull
      have := h.room
      omega
    · have hdata : (xorInto e.xorBuf payload).take group.width = group.xorData := by
        have hw := @FecGroup.width_le group hpay
        apply eq_of_getD
        · simp [FecGroup.xorData, h.buffer, hw]
        · intro i hi
          rw [length_take, hbuf, Nat.min_eq_left hw] at hi
          rw [FecGroup.xorData, getD_eq_getElem?_getD, getElem?_take_of_lt hi,
            ← getD_eq_getElem?_getD, hxor i (Nat.lt_of_lt_of_le hi hw)]
          simp [getD_eq_getElem?_getD, hi]
      simp only [FecGroup.repair, hdata, h.seq, group]
    · have hnew := Encodes.new h.size (n + 1)
      refine ⟨h.size, ?_, rfl, hnew.room, ?_, ?_, rfl, hnew.payload⟩
      · simp [h.seq]
      · simp [h.buffer]
      · intro i hi
        simp [h.buffer, FecGroup.indices, getD_eq_getElem?_getD, hi]
  · rw [if_neg hfull]
    refine ⟨rfl, .inl ⟨?_, rfl, ⟨h.size, h.seq, ?_, ?_, hbuf, hxor, rfl, hpay⟩⟩⟩
    · rw [UInt8.le_iff_toNat_le, hcount] at hfull
      omega
    · rw [length_append, length_singleton]
      exact hcount
    · rw [UInt8.le_iff_toNat_le, hcount] at hfull
      show (members ++ [payload]).length < e.groupSize.toNat
      rw [length_append, length_singleton]
      omega

def openGroup (size : UInt8) (members : List Bytes) : List FecGroup :=
  if members = [] then [] else [{ size, members }]

/-- The sender between two actions: the finished groups, and the payloads of the group
under way. -/
structure Sends (s : FecSender) (done : List FecGroup) (size : UInt8) (members : List Bytes) :
    Prop where
  full : ∀ group ∈ done, group.WF ∧ group.Full
  idle : s.encoder = none → members = [] ∧ s.nextGroupSeq = UInt16.ofNat done.length
  active : ∀ e, s.encoder = some e → e.groupSize = size ∧ Encodes e done.length members

namespace Sends

variable {s : FecSender} {done : List FecGroup} {size : UInt8} {members : List Bytes}
  {metadata : FecMetadata}

section

variable (h : Sends s done size members)

include h

/-- Only the encoder and the next number matter. -/
theorem congr {s' : FecSender} (he : s'.encoder = s.encoder)
    (hn : s'.nextGroupSeq = s.nextGroupSeq) : Sends s' done size members := by
  refine ⟨h.full, ?_, ?_⟩
  · rw [he, hn]
    exact h.idle
  · rw [he]
    exact h.active

/-- All groups so far are well formed. -/
theorem groups_wf : ∀ group ∈ done ++ openGroup size members, group.WF := by
  intro group hg
  rcases mem_append.mp hg with hg | hg
  · exact (h.full group hg).1
  unfold openGroup at hg
  split at hg
  · cases hg
  next hne =>
  rw [mem_singleton] at hg
  subst hg
  cases he : s.encoder with
  | none => exact absurd (h.idle he).1 hne
  | some e =>
    obtain ⟨rfl, henc⟩ := h.active e he
    exact ⟨henc.size, Nat.le_of_lt henc.room, henc.payload⟩

theorem startEncoder (hm : members = []) (hn : s.nextGroupSeq = UInt16.ofNat done.length) :
    ∃ size, Sends s.startEncoder done size members := by
  subst hm
  by_cases hz : 0 < s.requestedGroup
  · refine ⟨s.requestedGroup, h.full, ?_, ?_⟩
    · simp [FecSender.startEncoder, hz]
    intro e he
    simp only [FecSender.startEncoder, hz, if_true, Option.some.injEq] at he
    subst he
    rw [hn]
    exact ⟨rfl, Encodes.new (by rintro hc; rw [hc] at hz; exact absurd hz (by decide)) done.length⟩
  · refine ⟨size, h.full, fun _ => ⟨rfl, hn⟩, ?_⟩
    intro e he
    simp [FecSender.startEncoder, hz] at he

/-- A change of the group size waits for the end of the group. -/
theorem applyGroupAtBoundary : ∃ size', Sends s.applyGroupAtBoundary done size' members ∧
      openGroup size' members = openGroup size members := by
  unfold FecSender.applyGroupAtBoundary
  cases he : s.encoder with
  | none =>
    obtain ⟨hm, hn⟩ := h.idle he
    obtain ⟨size', h'⟩ := h.startEncoder hm hn
    exact ⟨size', h', by simp [openGroup, hm]⟩
  | some e =>
    obtain ⟨-, henc⟩ := h.active e he
    by_cases hc : e.count ≠ 0
    · simp only [if_pos hc]
      exact ⟨size, h, rfl⟩
    have hm : members = [] := by
      rw [not_not] at hc
      have hlen := henc.count
      rw [hc] at hlen
      exact length_eq_zero_iff.mp hlen.symm
    have h' : Sends { s with encoder := some e, nextGroupSeq := e.groupSeq } done size members :=
      ⟨h.full, fun hnone => (by cases hnone), fun e' he' => h.active e' (he.trans he')⟩
    simp only [if_neg hc]
    split
    · exact ⟨size, h', rfl⟩
    · obtain ⟨size', h''⟩ := h'.startEncoder hm henc.seq
      exact ⟨size', h'', by simp [openGroup, hm]⟩

/-- The result of a payload: its tag, the repair if it fills the group, and the groups
with it added. -/
theorem send (he : s.enabledFor payload.length = true) :
    ∃ metadata, s.metadataFor payload.length = some metadata ∧
      metadata.groupSeq = UInt16.ofNat done.length ∧ metadata.groupSize = size ∧
      metadata.index.toNat = members.length ∧
      (((s.absorb payload).1 = none ∧
          Sends (s.absorb payload).2 done size (members ++ [payload])) ∨
        ((FecGroup.mk size (members ++ [payload])).Full ∧
          (s.absorb payload).1 =
            some ((FecGroup.mk size (members ++ [payload])).repair done.length) ∧
          ∃ size', Sends (s.absorb payload).2
            (done ++ [{ size, members := members ++ [payload] }]) size' [])) := by
  cases hs : s.encoder with
  | none => simp [FecSender.enabledFor, hs] at he
  | some e =>
    obtain ⟨rfl, henc⟩ := h.active e hs
    obtain ⟨hpos, hlen⟩ : 0 < payload.length ∧ payload.length ≤ maxPacketSize := by
      simpa [FecSender.enabledFor, hs] using he
    have htag : ¬ (e.groupSize = 0 ∨ e.groupSize ≤ e.count) := by
      rintro (hz | hle)
      · exact henc.size hz
      · rw [UInt8.le_iff_toNat_le, henc.count] at hle
        have := henc.room
        omega
    refine ⟨{ groupSeq := e.groupSeq, groupSize := e.groupSize, index := e.count }, ?_,
      henc.seq, rfl, henc.count, ?_⟩
    · simp only [FecSender.metadataFor, he, if_true, hs, Option.bind_some, if_neg htag]
    · obtain ⟨hsize, hfeed⟩ := henc.feed hpos hlen
      cases hf : e.feed payload with
      | mk repair e' =>
        rw [hf] at hsize hfeed
        rcases hfeed with ⟨-, hnone, henc'⟩ | ⟨hfull, hsome, henc'⟩
        · cases hnone
          left
          simp only [FecSender.absorb, he, if_true, hs, hf]
          refine ⟨trivial, h.full, fun hc => (by cases hc), ?_⟩
          intro e₂ he₂
          cases he₂
          exact ⟨hsize, henc'⟩
        cases hsome
        right
        have hgroup : (FecGroup.mk e.groupSize (members ++ [payload])).Full := by
          simpa [FecGroup.Full] using hfull
        have hbefore : Sends { s with encoder := some e' }
            (done ++ [{ size := e.groupSize, members := members ++ [payload] }])
            e.groupSize [] := by
          refine ⟨?_, fun hc => (by cases hc), ?_⟩
          · intro group hg
            rcases mem_append.mp hg with hg | hg
            · exact h.full group hg
            rw [mem_singleton.mp hg]
            refine ⟨⟨henc.size, Nat.le_of_eq hgroup, ?_⟩, hgroup⟩
            intro p hp
            rcases mem_append.mp hp with hp | hp
            · exact henc.payload p hp
            · rw [mem_singleton.mp hp]
              exact ⟨hpos, hlen⟩
          · intro e₂ he₂
            cases he₂
            rw [length_append, length_singleton]
            exact ⟨hsize, henc'⟩
        simp only [FecSender.absorb, he, if_true, hs, hf]
        obtain ⟨size', h', -⟩ := hbefore.applyGroupAtBoundary
        exact ⟨hgroup, trivial, size', h'⟩

end

/-- The queue of encrypted repairs has no influence on the groups. -/
theorem feed (s : FecSender) (payload : Bytes) (payloadLimit : Nat) (id : UInt64)
    (encrypt : Nat → InnerType → Bytes → Except Error Bytes) :
    (s.feed payload payloadLimit id encrypt).encoder = (s.absorb payload).2.encoder ∧
    (s.feed payload payloadLimit id encrypt).nextGroupSeq = (s.absorb payload).2.nextGroupSeq := by
  unfold FecSender.feed
  cases s.absorb payload with
  | mk repair s' =>
    cases repair with
    | none => exact ⟨rfl, rfl⟩
    | some repair =>
      simp only
      split <;> exact ⟨rfl, rfl⟩

/-- Adding the payload of a tag to the groups. -/
theorem addItem_member (done : List FecGroup) (payload : Bytes) (hs : metadata.groupSize = size)
    (hi : metadata.index.toNat = members.length) :
    addItem (done ++ openGroup size members) (.member metadata payload) =
      done ++ [{ size, members := members ++ [payload] }] := by
  by_cases hm : members = []
  · have hz : metadata.index = 0 := by
      rw [← UInt8.toNat_inj, hi, hm]
      rfl
    simp [addItem, hz, hm, openGroup, hs]
  · have hz : metadata.index ≠ 0 := by
      rw [ne_eq, ← UInt8.toNat_inj, hi]
      exact fun hc => hm (length_eq_zero_iff.mp hc)
    simp [addItem, hz, hm, openGroup]

/-- The groups with one more payload continue the groups before. -/
theorem continues_snoc (done : List FecGroup) (size : UInt8) (members : List Bytes)
    (payload : Bytes) :
    Continues (done ++ openGroup size members)
      (done ++ [{ size, members := members ++ [payload] }]) := by
  intro g group hg
  rcases Nat.lt_trichotomy g done.length with hlt | heq | hgt
  · rw [getElem?_append_left hlt] at hg
    exact ⟨group, by rw [getElem?_append_left hlt]; exact hg, rfl, prefix_refl _⟩
  · subst heq
    rw [getElem?_append_right (Nat.le_refl _), Nat.sub_self] at hg
    unfold openGroup at hg
    split at hg
    · cases hg
    · cases hg
      exact ⟨{ size, members := members ++ [payload] }, by simp, rfl, prefix_append _ _⟩
  · rw [getElem?_append_right (Nat.le_of_lt hgt)] at hg
    unfold openGroup at hg
    split at hg
    · cases hg
    · rw [getElem?_eq_none (by simp; omega)] at hg
      cases hg

theorem numbered_snoc (done : List FecGroup) (payload : Bytes)
    (hseq : metadata.groupSeq = UInt16.ofNat done.length) (hs : metadata.groupSize = size)
    (hi : metadata.index.toNat = members.length) :
    numbered (done ++ [{ size, members := members ++ [payload] }]) =
      numbered (done ++ openGroup size members) ++ [(metadata, payload)] := by
  have hmetadata : metadata = ⟨UInt16.ofNat done.length, size, UInt8.ofNat members.length⟩ := by
    rw [← hseq, ← hs, ← hi, UInt8.ofNat_toNat]
  rw [hmetadata]
  unfold openGroup
  by_cases hm : members = [] <;> simp [numbered, hm, zipIdx_append]

/-- What emitted items make of the groups. -/
structure Adds (done : List FecGroup) (size : UInt8) (members : List Bytes) (items : List FecItem)
    (done' : List FecGroup) (size' : UInt8) (members' : List Bytes) : Prop where
  groups : items.foldl addItem (done ++ openGroup size members) = done' ++ openGroup size' members'
  length : done'.length = done.length + items.countP (fun item => item matches .repair _)
  continues : Continues (done ++ openGroup size members) (done' ++ openGroup size' members')
  belongs : ∀ item ∈ items, item.Of (done' ++ openGroup size' members') done.length
  tags : numbered (done' ++ openGroup size' members') =
    numbered (done ++ openGroup size members) ++ taggedPayloads items
  repairs : repaired done' = repaired done ++ repairBytes items

theorem Adds.nil {size' : UInt8} (hopen : openGroup size' members = openGroup size members) :
    Adds done size members [] done size' members := by
  refine ⟨?_, rfl, ?_, fun _ hitem => (by cases hitem), ?_, (append_nil _).symm⟩
  · rw [hopen]
    rfl
  · rw [hopen]
    exact Continues.refl _
  · rw [hopen]
    exact (append_nil _).symm

/-- What one action adds to the groups. -/
theorem act (h : Sends s done size members) (action : FecAction) :
    ∃ done' size' members', Sends (s.act action) done' size' members' ∧
      Adds done size members (s.emits action) done' size' members' := by
  cases action with
  | setGroup requested =>
    have h' : Sends { s with requestedGroup := requested } done size members := h.congr rfl rfl
    obtain ⟨size', h'', hopen⟩ := h'.applyGroupAtBoundary
    exact ⟨done, size', members, h'', .nil hopen⟩
  | takePacket | discardPending => exact ⟨done, size, members, h.congr rfl rfl, .nil rfl⟩
  | send payload payloadLimit id encrypt =>
    obtain ⟨hfe, hfn⟩ := feed s payload payloadLimit id encrypt
    by_cases he : s.enabledFor payload.length = true
    · obtain ⟨metadata, htag, hseq, hsize, hindex, hcase⟩ := h.send he
      have hadd := addItem_member done payload hsize hindex
      have hnumbered := numbered_snoc done payload hseq hsize hindex
      have hcontinues := continues_snoc done size members payload
      have hmember : (FecItem.member metadata payload).Of
          (done ++ [{ size, members := members ++ [payload] }]) done.length := by
        refine ⟨{ size, members := members ++ [payload] }, by simp, hseq, hsize, ?_⟩
        rw [hindex]
        simp
      rcases hcase with ⟨hnone, h'⟩ | ⟨hfull, hsome, size', h'⟩
      · -- the group goes on
        have hopen : openGroup size (members ++ [payload]) =
            [{ size, members := members ++ [payload] }] := by
          simp [openGroup]
        have hemits : s.emits (.send payload payloadLimit id encrypt) =
            [.member metadata payload] := by
          simp [FecSender.emits, htag, hnone]
        refine ⟨done, size, members ++ [payload], h'.congr hfe hfn, ?_⟩
        rw [hemits]
        refine ⟨?_, rfl, ?_, ?_, ?_, (append_nil _).symm⟩ <;> rw [hopen]
        · exact hadd
        · exact hcontinues
        · rw [forall_mem_singleton]
          exact hmember
        · exact hnumbered
      · -- the payload fills the group, and its repair follows
        have hopen : ∀ groups : List FecGroup, groups ++ openGroup size' [] = groups :=
          append_nil
        have hemits : s.emits (.send payload payloadLimit id encrypt) = [.member metadata payload,
            .repair ((FecGroup.mk size (members ++ [payload])).repair done.length).encode] := by
          simp [FecSender.emits, htag, hsome]
        refine ⟨_, size', [], h'.congr hfe hfn, ?_⟩
        rw [hemits]
        refine ⟨?_, length_append, ?_, ?_, ?_, by simp [repaired, zipIdx_append, repairBytes]⟩ <;>
          rw [hopen]
        · exact hadd
        · exact hcontinues
        · rw [forall_mem_cons, forall_mem_singleton]
          exact ⟨hmember, _, by simp, hfull, rfl⟩
        · exact hnumbered
    · have htag : s.metadataFor payload.length = none := by simp [FecSender.metadataFor, he]
      have habs : s.absorb payload = (none, s) := by simp [FecSender.absorb, he]
      rw [habs] at hfe hfn
      have hemits : s.emits (.send payload payloadLimit id encrypt) = [] := by
        simp [FecSender.emits, htag, habs]
      rw [hemits]
      exact ⟨done, size, members, h.congr hfe hfn, .nil rfl⟩

/-- A run continues the groups, and all its items belong to the final ones. -/
theorem run (h : Sends s done size members) (actions : List FecAction) :
    ∃ done' size' members', Sends (actions.foldl FecSender.act s) done' size' members' ∧
      (s.run done.length actions).foldl (fun groups item => addItem groups item.2)
        (done ++ openGroup size members) = done' ++ openGroup size' members' ∧
      Continues (done ++ openGroup size members) (done' ++ openGroup size' members') ∧
      (∀ item ∈ s.run done.length actions, item.2.Of (done' ++ openGroup size' members') item.1) ∧
      numbered (done' ++ openGroup size' members') = numbered (done ++ openGroup size members) ++
        taggedPayloads ((s.run done.length actions).map Prod.snd) ∧
      repaired done' = repaired done ++
        repairBytes ((s.run done.length actions).map Prod.snd) := by
  induction actions generalizing s done size members with
  | nil =>
    refine ⟨done, size, members, h, rfl, Continues.refl _, fun _ hitem => (by cases hitem), ?_, ?_⟩
    · exact (append_nil _).symm
    · exact (append_nil _).symm
  | cons action rest ih =>
    obtain ⟨done₁, size₁, members₁, h₁, hadds⟩ := h.act action
    obtain ⟨done', size', members', h', hfold, hcont, hof, htags, hrepairs⟩ := ih h₁
    have hrun : s.run done.length (action :: rest) =
        (s.emits action).map (done.length, ·) ++ (s.act action).run done₁.length rest := by
      rw [hadds.length]
      rfl
    have hitems : ((s.emits action).map (done.length, ·)).map Prod.snd = s.emits action := by
      simp
    rw [hrun]
    refine ⟨done', size', members', h', ?_, hadds.continues.trans hcont, ?_, ?_, ?_⟩
    · rw [foldl_append, foldl_map, hadds.groups, hfold]
    · intro item hitem
      rcases mem_append.mp hitem with hitem | hitem
      · obtain ⟨first, hfirst, rfl⟩ := mem_map.mp hitem
        exact (hadds.belongs first hfirst).continues hcont h'.groups_wf
      · exact hof item hitem
    · rw [htags, hadds.tags, map_append, hitems, taggedPayloads, taggedPayloads,
        taggedPayloads, filterMap_append, append_assoc]
    · rw [hrepairs, hadds.repairs, map_append, hitems, repairBytes, repairBytes,
        repairBytes, filterMap_append, append_assoc]

theorem start : Sends FecSender.empty [] 0 [] :=
  ⟨fun _ hg => (by cases hg), fun _ => ⟨rfl, rfl⟩, fun _ he => (by cases he)⟩

end Sends

def senderGroups (actions : List FecAction) : List FecGroup :=
  groupsOf (FecSender.empty.run 0 actions)

/-- Every item a sender emits is the tagged payload or the repair of one of its groups, and
all its groups are well formed. -/
theorem sender_items (actions : List FecAction) :
    (∀ group ∈ senderGroups actions, group.WF) ∧
    ∀ item ∈ FecSender.empty.run 0 actions, item.2.Of (senderGroups actions) item.1 := by
  obtain ⟨done, size, members, h, hgroups, -, hof, -⟩ := Sends.start.run actions
  have hgroups : senderGroups actions = done ++ openGroup size members := hgroups
  rw [hgroups]
  exact ⟨h.groups_wf, hof⟩

end AivpnSpec.Common
