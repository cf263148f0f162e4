import AivpnSpec.Common.FragmentWire

/-!
# Delivery of honest fragment traffic

Packets of several messages arrive in any order, some of them more than once. The
abstract receiver knows only which packet indices of each message have arrived; a message
is delivered by the arrival of its last missing packet. `Reassembler` refines it as long
as its capacity is enough for the messages under way.
-/

namespace AivpnSpec.Common

open AivpnSpec.Base List

/-- One packet of a message reaching the receiver, with the clock reading and the
iteration order of the pending table at that call. -/
structure Arrival where
  message : Message
  index : Nat
  bytes : Bytes
  now : Nat
  order : List UInt64

def arrivedIndices (past : List Arrival) (m : Message) : Finset Nat :=
  ((past.filter fun a => a.message = m).map Arrival.index).toFinset

def Complete (past : List Arrival) (m : Message) : Prop :=
  Finset.range m.fragmentCount ⊆ arrivedIndices past m

def PartlyReceived (past : List Arrival) (m : Message) : Prop :=
  (arrivedIndices past m).Nonempty ∧ ¬ Complete past m

instance (past : List Arrival) (m : Message) : Decidable (Complete past m) := by
  unfold Complete
  infer_instance

instance (past : List Arrival) (m : Message) : Decidable (PartlyReceived past m) := by
  unfold PartlyReceived
  infer_instance

def deliveryAt (past : List Arrival) (a : Arrival) : Option Reassembled :=
  if Complete (past ++ [a]) a.message then
    some { kind := a.message.kind, payload := a.message.payload, fec := a.message.fec }
  else none

/-- The answers of the abstract receiver to the arrivals that follow `past`. -/
def deliveries (past : List Arrival) : List Arrival → List (Except Error (Option Reassembled))
  | [] => []
  | a :: rest => .ok (deliveryAt past a) :: deliveries (past ++ [a]) rest

def Reassembler.receive (r : Reassembler) :
    List Arrival → List (Except Error (Option Reassembled))
  | [] => []
  | a :: rest =>
    let (answer, r) := r.acceptDetailed a.bytes a.now a.order
    answer :: r.receive rest

/-- How many arrivals of the message were answered with a delivery. -/
def deliveryCount (m : Message) (arrivals : List Arrival)
    (answers : List (Except Error (Option Reassembled))) : Nat :=
  (arrivals.zip answers).countP fun
    | (a, .ok (some _)) => a.message = m
    | _ => false

/-- The messages under way: each one honest, no two with the same id. -/
structure Distinct (messages : List Message) : Prop where
  honest : ∀ m ∈ messages, m.Honest
  ids : ∀ m ∈ messages, ∀ m' ∈ messages, m.id = m'.id → m = m'

/-- An arrival that may follow `past`: a packet of a message that is not complete yet, at
a clock reading not before the earlier ones and less than `window` after each earlier
packet of its message. -/
structure Timely (messages : List Message) (window : Nat) (past : List Arrival)
    (a : Arrival) : Prop where
  known : a.message ∈ messages
  packet : a.message.IsPacket a.index a.bytes
  incomplete : ¬ Complete past a.message
  clock : ∀ b ∈ past, b.now ≤ a.now
  recent : ∀ b ∈ past, b.message = a.message → a.now - b.now < window

instance (m : Message) (i : Nat) (bytes : Bytes) : Decidable (m.IsPacket i bytes) :=
  match h : m.fragments with
  | .ok packets => decidable_of_iff (packets[i]? = some bytes) (by simp [Message.IsPacket, h])
  | .error _ => isFalse (by simp [Message.IsPacket, h])

instance (messages : List Message) (window : Nat) (past : List Arrival) (a : Arrival) :
    Decidable (Timely messages window past a) :=
  decidable_of_iff
    (a.message ∈ messages ∧ a.message.IsPacket a.index a.bytes ∧ ¬ Complete past a.message ∧
      (∀ b ∈ past, b.now ≤ a.now) ∧
      ∀ b ∈ past, b.message = a.message → a.now - b.now < window)
    ⟨fun ⟨h₁, h₂, h₃, h₄, h₅⟩ => ⟨h₁, h₂, h₃, h₄, h₅⟩,
      fun ⟨h₁, h₂, h₃, h₄, h₅⟩ => ⟨h₁, h₂, h₃, h₄, h₅⟩⟩

/-- Whether two messages compete for the same places of the table. -/
def sameClass (m m' : Message) : Bool := (m.kind == .control) == (m'.kind == .control)

/-- The messages in the capacity class of `m` that hold a place while `m` arrives: the
partly received ones and `m` itself. -/
def contenders (messages : List Message) (past : List Arrival) (m : Message) : List Message :=
  messages.filter fun m' => sameClass m' m && (m' = m || PartlyReceived past m')

/-- Every arrival is timely and finds room for its message. -/
def Schedule (messages : List Message) (past : List Arrival) : List Arrival → Prop
  | [] => True
  | a :: rest =>
    Timely messages assemblyTtl past a ∧
    (contenders messages past a.message).length ≤ Reassembler.classLimit a.message.kind ∧
    Schedule messages (past ++ [a]) rest

instance Schedule.decidable (messages : List Message) :
    ∀ past arrivals, Decidable (Schedule messages past arrivals)
  | _, [] => isTrue trivial
  | past, a :: rest =>
    have := Schedule.decidable messages (past ++ [a]) rest
    inferInstanceAs (Decidable (_ ∧ _ ∧ _))

def PartlyFit (messages : List Message) (past : List Arrival) : Prop :=
  (messages.filter fun m => m.kind = .control ∧ PartlyReceived past m).length ≤ maxInFlight ∧
  (messages.filter fun m => m.kind ≠ .control ∧ PartlyReceived past m).length ≤ maxDataInFlight

instance (messages : List Message) (past : List Arrival) :
    Decidable (PartlyFit messages past) :=
  inferInstanceAs (Decidable (_ ∧ _))

/-- The weaker capacity condition, which looks only at partly received messages: after
every arrival they fit the table, and a message is under way for at most ten seconds. -/
def PartlySchedule (messages : List Message) (past : List Arrival) : List Arrival → Prop
  | [] => True
  | a :: rest =>
    Timely messages (assemblyTtl + 1) past a ∧ PartlyFit messages (past ++ [a]) ∧
    PartlySchedule messages (past ++ [a]) rest

instance PartlySchedule.decidable (messages : List Message) :
    ∀ past arrivals, Decidable (PartlySchedule messages past arrivals)
  | _, [] => isTrue trivial
  | past, a :: rest =>
    have := PartlySchedule.decidable messages (past ++ [a]) rest
    inferInstanceAs (Decidable (_ ∧ _ ∧ _))

/-- An arrival adds its own index to its own message. -/
theorem arrivedIndices_snoc (past : List Arrival) (a : Arrival) (m : Message) :
    arrivedIndices (past ++ [a]) m =
      if a.message = m then insert a.index (arrivedIndices past m)
      else arrivedIndices past m := by
  ext i
  by_cases h : a.message = m <;> simp [arrivedIndices, filter_append, h]

variable {past arrivals : List Arrival} {m : Message} {r : Reassembler} {a : Arrival}

/-- Arrivals of other messages do not change which packets of `m` are there. -/
theorem arrivedIndices_snoc_of_ne (h : a.message ≠ m) :
    arrivedIndices (past ++ [a]) m = arrivedIndices past m := by
  rw [arrivedIndices_snoc, if_neg h]

/-- Being partly received is a matter of the message's own arrivals. -/
theorem partlyReceived_snoc_of_ne (h : a.message ≠ m) :
    PartlyReceived (past ++ [a]) m ↔ PartlyReceived past m := by
  simp only [PartlyReceived, Complete, arrivedIndices_snoc_of_ne h]

/-- The assembly holds exactly the arrived chunks of the message. -/
structure Collected (arrived : Finset Nat) (m : Message) (assembly : Assembly) : Prop where
  kind : assembly.kind = m.kind
  fec : assembly.fec = m.fec
  total : assembly.total = m.payload.length
  inRange : arrived ⊆ Finset.range m.fragmentCount
  chunks : ∀ i, i ∈ arrived →
    assembly.chunks.lookup (i * fragmentDataSize) = some (chunk fragmentDataSize m.payload i)
  noChunk : ∀ i, i ∉ arrived → assembly.chunks.lookup (i * fragmentDataSize) = none
  received : assembly.received = ∑ i ∈ arrived, (chunk fragmentDataSize m.payload i).length

/-- The table after `past`: its entries are the partly received messages, and a partly
received message without an entry had its first packet too long ago. -/
structure Tracks (messages : List Message) (past : List Arrival) (r : Reassembler) : Prop where
  entry : ∀ id assembly, r.pending.lookup id = some assembly →
    ∃ m ∈ messages, m.id = id ∧ PartlyReceived past m ∧
      Collected (arrivedIndices past m) m assembly ∧
      ∃ b ∈ past, b.message = m ∧ b.now = assembly.created
  stale : ∀ m ∈ messages, PartlyReceived past m → r.pending.lookup m.id = none →
    ∃ b ∈ past, b.message = m ∧ ∃ c ∈ past, assemblyTtl ≤ c.now - b.now

/-- Nothing has arrived at a fresh receiver. -/
theorem tracks_empty (messages : List Message) : Tracks messages [] Reassembler.empty where
  entry := by
    intro id assembly h
    simp [Reassembler.empty] at h
  stale := by
    intro m _ h
    simp [PartlyReceived, arrivedIndices] at h

namespace Collected

variable {arrived : Finset Nat} {m : Message} {assembly : Assembly} {i : Nat}

/-- The assembly opened by a first packet holds nothing yet. -/
theorem fresh (m : Message) (now : Nat) :
    Collected ∅ m { kind := m.kind, fec := m.fec, total := m.payload.length, created := now,
                    chunks := ∅, received := 0 } where
  kind := rfl
  fec := rfl
  total := rfl
  inRange := Finset.empty_subset _
  chunks := by
    intro i hi
    simp at hi
  noChunk := by
    intro i _
    exact AList.lookup_empty _
  received := rfl

/-- Adding a chunk that was missing. -/
theorem add (h : Collected arrived m assembly) (hi : i < m.fragmentCount) (hnew : i ∉ arrived) :
    Collected (insert i arrived) m
      { assembly with
        received := assembly.received + (chunk fragmentDataSize m.payload i).length
        chunks := assembly.chunks.insert (i * fragmentDataSize)
          (chunk fragmentDataSize m.payload i) } where
  kind := h.kind
  fec := h.fec
  total := h.total
  inRange := by
    intro j hj
    rcases Finset.mem_insert.mp hj with rfl | hj
    · exact Finset.mem_range.mpr hi
    · exact h.inRange hj
  chunks := by
    intro j hj
    rw [Table.lookup_insert_eq]
    by_cases hji : j = i
    · subst hji
      rw [if_pos rfl]
    · rw [if_neg (fun hc => hji (Nat.eq_of_mul_eq_mul_right fragmentDataSize_pos hc))]
      exact h.chunks j (Finset.mem_of_mem_insert_of_ne hj hji)
  noChunk := by
    intro j hj
    have hji : j ≠ i := fun hc => hj (hc ▸ Finset.mem_insert_self i arrived)
    rw [Table.lookup_insert_eq,
      if_neg (fun hc => hji (Nat.eq_of_mul_eq_mul_right fragmentDataSize_pos hc))]
    exact h.noChunk j (fun hc => hj (Finset.mem_insert_of_mem hc))
  received := by
    rw [Finset.sum_insert hnew, h.received, Nat.add_comm]

/-- The byte count reaches the total exactly when no packet is missing. -/
theorem received_eq_iff (h : Collected arrived m assembly) :
    assembly.received = m.payload.length ↔ Finset.range m.fragmentCount ⊆ arrived := by
  rw [h.received, sum_length_chunk_eq_iff fragmentDataSize_pos m.payload arrived h.inRange]
  constructor
  · intro he
    exact he ▸ Finset.Subset.refl _
  · intro hs
    exact Finset.Subset.antisymm h.inRange hs

/-- A full assembly is put together to the payload. -/
theorem assemble_eq (h : Collected arrived m assembly)
    (hfull : Finset.range m.fragmentCount ⊆ arrived) :
    Reassembler.assemble assembly m.payload.length = m.payload := by
  have hchunks : Reassembler.assemble assembly m.payload.length =
      (range (chunkCount fragmentDataSize m.payload.length)).flatMap
        (chunk fragmentDataSize m.payload) := by
    apply flatMap_congr
    intro j hj
    rw [h.chunks j (hfull (Finset.mem_range.mpr (mem_range.mp hj)))]
    rfl
  rw [hchunks, flatMap_chunk fragmentDataSize_pos]

end Collected

/-- Nothing is evicted or refused for a message that has an entry or finds room. -/
theorem Reassembler.makeRoom_eq_self {fragment : Fragment} {order : List UInt64}
    (h : (r.pending.lookup fragment.id).isSome ∨
      r.classCount fragment.kind < classLimit fragment.kind) :
    r.makeRoom fragment order = .ok r := by
  unfold makeRoom
  split
  · rfl
  · next habsent =>
    rw [if_neg (Nat.not_le.mpr (h.resolve_left habsent))]

/-- What `store` does with packet `i` of a message whose arrived chunks it holds. -/
theorem Reassembler.store_fragmentAt {arrived : Finset Nat} {assembly : Assembly} {i now : Nat}
    (hasm : (r.pending.lookup m.id).getD
      { kind := m.kind, fec := m.fec, total := m.payload.length, created := now,
        chunks := ∅, received := 0 } = assembly)
    (hc : Collected arrived m assembly) (hi : i < m.fragmentCount)
    (hopen : ¬ Finset.range m.fragmentCount ⊆ arrived) :
    (Finset.range m.fragmentCount ⊆ insert i arrived ∧
      r.store (m.fragmentAt i) now =
        (.ok (some { kind := m.kind, payload := m.payload, fec := m.fec }),
          ⟨r.pending.erase m.id⟩)) ∨
    (¬ Finset.range m.fragmentCount ⊆ insert i arrived ∧
      ∃ assembly', Collected (insert i arrived) m assembly' ∧
        assembly'.created = assembly.created ∧
        r.store (m.fragmentAt i) now = (.ok none, ⟨r.pending.insert m.id assembly'⟩)) := by
  have hmatch : ¬ (assembly.kind ≠ m.kind ∨ assembly.total ≠ m.payload.length ∨
      assembly.fec ≠ m.fec) := by
    simp [hc.kind, hc.total, hc.fec]
  by_cases hdup : i ∈ arrived
  · -- a duplicate: the stored chunk is the same one, nothing changes
    right
    rw [Finset.insert_eq_of_mem hdup]
    refine ⟨hopen, assembly, hc, rfl, ?_⟩
    unfold store
    simp only [Message.fragmentAt, hasm, if_neg hmatch, hc.chunks i hdup, ne_eq,
      not_true_eq_false, if_false]
  have hadd := hc.add hi hdup
  by_cases hfull : Finset.range m.fragmentCount ⊆ insert i arrived
  · left
    refine ⟨hfull, ?_⟩
    have hsum := hadd.received_eq_iff.mpr hfull
    have hbytes := hadd.assemble_eq hfull
    unfold store
    simp only [Message.fragmentAt, hasm, if_neg hmatch, hc.noChunk i hdup]
    rw [if_neg (not_not.mpr hsum), hbytes, hc.fec]
  · right
    refine ⟨hfull, _, hadd, rfl, ?_⟩
    have hsum := hadd.received_eq_iff.not.mpr hfull
    unfold store
    simp only [Message.fragmentAt, hasm, if_neg hmatch, hc.noChunk i hdup]
    rw [if_pos hsum]

namespace Tracks

variable {messages : List Message} {past : List Arrival} {r : Reassembler} {a : Arrival}

section

variable (h : Tracks messages past r)

include h

/-- Expiry leaves the message that is arriving alone: its entry is there if and only if
some packet of it came before. -/
theorem lookup_expire (hd : Distinct messages) (ha : Timely messages assemblyTtl past a) :
    (arrivedIndices past a.message = ∅ ∧
      (r.expire a.now).pending.lookup a.message.id = none) ∨
    (∃ assembly, (r.expire a.now).pending.lookup a.message.id = some assembly ∧
      Collected (arrivedIndices past a.message) a.message assembly ∧
      ∃ b ∈ past, b.message = a.message ∧ b.now = assembly.created) := by
  cases hl : r.pending.lookup a.message.id with
  | none =>
    left
    refine ⟨?_, by simp [Reassembler.expire, Table.lookup_retain, hl]⟩
    by_contra hne
    -- a started message without an entry would be too old to arrive now
    obtain ⟨b, hb, hbm, c, hc, hold⟩ := h.stale a.message ha.known
      ⟨Finset.nonempty_iff_ne_empty.mpr hne, ha.incomplete⟩ hl
    have hclock := ha.clock c hc
    have hrecent := ha.recent b hb hbm
    omega
  | some assembly =>
    right
    obtain ⟨m, hm, hid, -, hcol, b, hb, hbm, hbnow⟩ := h.entry _ _ hl
    obtain rfl := hd.ids m hm a.message ha.known hid
    refine ⟨assembly, ?_, hcol, b, hb, hbm, hbnow⟩
    apply Table.lookup_retain_of_keep hl
    have hrecent := ha.recent b hb hbm
    rw [hbnow] at hrecent
    exact decide_eq_true hrecent

/-- The entries of one class are places of other messages than the arriving one, when
that one has none. -/
theorem classCount_lt (ha : Timely messages assemblyTtl past a)
    (hnone : arrivedIndices past a.message = ∅) : (r.expire a.now).classCount a.message.kind <
      (contenders messages past a.message).length := by
  have hmem : a.message ∈ contenders messages past a.message := by
    simp [contenders, sameClass, ha.known]
  have hbound : (r.expire a.now).classCount a.message.kind ≤
      (((contenders messages past a.message).erase a.message).map Message.id).length := by
    apply Table.count_le_length _ _ id
    · intro id assembly hl hclass
      obtain ⟨m, hm, hid, hpart, hcol, -⟩ :=
        h.entry _ _ (Table.lookup_of_lookup_retain hl).1
      have hne : m ≠ a.message := by
        rintro rfl
        rw [PartlyReceived, hnone] at hpart
        simp at hpart
      refine mem_map.mpr ⟨m, (mem_erase_of_ne hne).mpr ?_, hid⟩
      rw [hcol.kind] at hclass
      simp [contenders, sameClass, hm, hpart]
      simpa using hclass
    · intro k _ k' _ _ _ _ _ hk
      exact hk
  rw [length_map, length_erase_of_mem hmem] at hbound
  have hpos := length_pos_of_mem hmem
  omega

/-- The table after an arrival: the entry of its message is replaced or removed, the
others are those that did not expire. -/
theorem snoc (hd : Distinct messages) (ha : a.message ∈ messages) {r' : Reassembler}
    (hother : ∀ id, id ≠ a.message.id → r'.pending.lookup id = (r.expire a.now).pending.lookup id)
    (hown : (Complete (past ++ [a]) a.message ∧ r'.pending.lookup a.message.id = none) ∨
      (¬ Complete (past ++ [a]) a.message ∧ ∃ assembly, r'.pending.lookup a.message.id =
      some assembly ∧ Collected (arrivedIndices (past ++ [a]) a.message) a.message assembly ∧
      ∃ b ∈ past ++ [a], b.message = a.message ∧ b.now = assembly.created)) :
    Tracks messages (past ++ [a]) r' where
  entry := by
    intro id assembly hl
    by_cases hid : id = a.message.id
    · subst hid
      rcases hown with ⟨-, hnone⟩ | ⟨hopen, assembly', hl', hcol, hb⟩
      · rw [hl] at hnone
        cases hnone
      rw [hl] at hl'
      cases hl'
      refine ⟨a.message, ha, rfl, ⟨?_, hopen⟩, hcol, hb⟩
      rw [arrivedIndices_snoc, if_pos rfl]
      exact Finset.insert_nonempty _ _
    · rw [hother id hid] at hl
      obtain ⟨m, hm, hmid, hpart, hcol, b, hb, hbm, hbnow⟩ :=
        h.entry _ _ (Table.lookup_of_lookup_retain hl).1
      have hne : a.message ≠ m := by
        rintro rfl
        exact hid hmid.symm
      refine ⟨m, hm, hmid, (partlyReceived_snoc_of_ne hne).mpr hpart, ?_, b,
        mem_append_left _ hb, hbm, hbnow⟩
      rwa [arrivedIndices_snoc_of_ne hne]
  stale := by
    intro m hm hpart hl
    by_cases hma : a.message = m
    · subst hma
      rcases hown with ⟨hfull, -⟩ | ⟨-, assembly, hsome, -⟩
      · exact absurd hfull hpart.2
      · rw [hl] at hsome
        cases hsome
    have hid : m.id ≠ a.message.id := fun hc => hma (hd.ids _ ha _ hm hc.symm)
    rw [hother _ hid] at hl
    rw [partlyReceived_snoc_of_ne hma] at hpart
    cases hold : r.pending.lookup m.id with
    | none =>
      obtain ⟨b, hb, hbm, c, hc, hage⟩ := h.stale m hm hpart hold
      exact ⟨b, mem_append_left _ hb, hbm, c, mem_append_left _ hc, hage⟩
    | some assembly =>
      -- this entry expired just now, so its first packet is ten seconds back
      obtain ⟨m', hm', hid', -, -, b, hb, hbm, hbnow⟩ := h.entry _ _ hold
      obtain rfl := hd.ids m' hm' m hm hid'
      refine ⟨b, mem_append_left _ hb, hbm, a, mem_append_right _ (by simp), ?_⟩
      rw [hbnow]
      by_contra hyoung
      have hkeep : (r.expire a.now).pending.lookup m'.id = some assembly :=
        Table.lookup_retain_of_keep hold (decide_eq_true (Nat.lt_of_not_le hyoung))
      rw [hl] at hkeep
      cases hkeep

/-- One arrival: the reassembler gives the abstract receiver's answer and keeps track. -/
theorem acceptDetailed (hd : Distinct messages) (ha : Timely messages assemblyTtl past a)
    (hroom : (contenders messages past a.message).length ≤ Reassembler.classLimit a.message.kind) :
    (r.acceptDetailed a.bytes a.now a.order).1 = .ok (deliveryAt past a) ∧
    Tracks messages (past ++ [a]) (r.acceptDetailed a.bytes a.now a.order).2 := by
  obtain ⟨hi, hparse⟩ := (hd.honest _ ha.known).parseFragment_packet ha.packet
  -- the assembly the packet goes to, opened now or earlier
  obtain ⟨assembly, hasm, hcol, hfirst⟩ : ∃ assembly,
      ((r.expire a.now).pending.lookup a.message.id).getD
        { kind := a.message.kind, fec := a.message.fec, total := a.message.payload.length,
          created := a.now, chunks := ∅, received := 0 } = assembly ∧
      Collected (arrivedIndices past a.message) a.message assembly ∧
      ∃ b ∈ past ++ [a], b.message = a.message ∧ b.now = assembly.created := by
    rcases h.lookup_expire hd ha with ⟨hempty, hl⟩ | ⟨assembly, hl, hcol, b, hb, hbm, hbnow⟩
    · rw [hl, hempty]
      exact ⟨_, rfl, Collected.fresh a.message a.now, a, by simp, rfl, rfl⟩
    · rw [hl]
      exact ⟨assembly, rfl, hcol, b, mem_append_left _ hb, hbm, hbnow⟩
  have hmake : (r.expire a.now).makeRoom (a.message.fragmentAt a.index) a.order =
      .ok (r.expire a.now) := by
    apply Reassembler.makeRoom_eq_self
    show ((r.expire a.now).pending.lookup a.message.id).isSome ∨
      (r.expire a.now).classCount a.message.kind < Reassembler.classLimit a.message.kind
    rcases h.lookup_expire hd ha with ⟨hempty, -⟩ | ⟨_, hl, -⟩
    · exact .inr (Nat.lt_of_lt_of_le (h.classCount_lt ha hempty) hroom)
    · exact .inl (by rw [hl]; rfl)
  have hstep : r.acceptDetailed a.bytes a.now a.order =
      (r.expire a.now).store (a.message.fragmentAt a.index) a.now := by
    unfold Reassembler.acceptDetailed
    simp only [hparse, hmake]
  have hsnoc : arrivedIndices (past ++ [a]) a.message =
      insert a.index (arrivedIndices past a.message) := by
    rw [arrivedIndices_snoc, if_pos rfl]
  rw [hstep]
  rcases Reassembler.store_fragmentAt hasm hcol hi ha.incomplete with
    ⟨hfull, hstore⟩ | ⟨hopen, assembly', hcol', hcreated, hstore⟩
  · have hcomplete : Complete (past ++ [a]) a.message := by
      rw [Complete, hsnoc]
      exact hfull
    rw [hstore]
    refine ⟨by rw [deliveryAt, if_pos hcomplete], h.snoc hd ha.known ?_ (.inl ⟨hcomplete, ?_⟩)⟩
    · intro id hid
      rw [Table.lookup_erase_eq, if_neg hid]
    · rw [Table.lookup_erase_eq, if_pos rfl]
  · have hincomplete : ¬ Complete (past ++ [a]) a.message := by
      rw [Complete, hsnoc]
      exact hopen
    rw [hstore]
    refine ⟨by rw [deliveryAt, if_neg hincomplete],
      h.snoc hd ha.known ?_ (.inr ⟨hincomplete, assembly', ?_, ?_, ?_⟩)⟩
    · intro id hid
      rw [Table.lookup_insert_eq, if_neg hid]
    · rw [Table.lookup_insert_eq, if_pos rfl]
    · rw [hsnoc]
      exact hcol'
    · rw [hcreated]
      exact hfirst

/-- A whole run: the answers are those of the abstract receiver. -/
theorem receive (hd : Distinct messages) (hs : Schedule messages past arrivals) :
    r.receive arrivals = deliveries past arrivals := by
  induction arrivals generalizing past r with
  | nil => rfl
  | cons a rest ih =>
    obtain ⟨ha, hroom, hrest⟩ := hs
    obtain ⟨hanswer, hnext⟩ := h.acceptDetailed hd ha hroom
    show (r.acceptDetailed a.bytes a.now a.order).1 ::
        (r.acceptDetailed a.bytes a.now a.order).2.receive rest = _
    rw [hanswer, ih hnext hrest]
    rfl

end

end Tracks

/-- A complete message stays complete. -/
theorem Complete.append (h : Complete past m) (rest : List Arrival) :
    Complete (past ++ rest) m := by
  refine Finset.Subset.trans h ?_
  intro i hi
  simp only [arrivedIndices, mem_toFinset, mem_map, mem_filter,
    mem_append] at hi ⊢
  rcases hi with ⟨a, ⟨ha, hm⟩, hi⟩
  exact ⟨a, ⟨.inl ha, hm⟩, hi⟩

/-- The abstract receiver delivers a message when it becomes complete and never again. -/
theorem deliveryCount_deliveries {messages : List Message} (hs : Schedule messages past arrivals)
    (m : Message) :
    deliveryCount m arrivals (deliveries past arrivals) =
      if ¬ Complete past m ∧ Complete (past ++ arrivals) m then 1 else 0 := by
  induction arrivals generalizing past with
  | nil => simp [deliveryCount]
  | cons a rest ih =>
    obtain ⟨ha, -, hrest⟩ := hs
    have hstep : deliveryCount m (a :: rest) (deliveries past (a :: rest)) =
        deliveryCount m rest (deliveries (past ++ [a]) rest) +
          if a.message = m ∧ Complete (past ++ [a]) a.message then 1 else 0 := by
      simp only [deliveryCount, deliveries, zip_cons_cons, countP_cons]
      congr 1
      unfold deliveryAt
      by_cases hc : Complete (past ++ [a]) a.message <;> simp [hc]
    rw [hstep, ih hrest, append_assoc, singleton_append]
    by_cases hm : a.message = m
    · subst hm
      by_cases hnow : Complete (past ++ [a]) a.message
      · have hend : Complete (past ++ a :: rest) a.message := by
          simpa using hnow.append rest
        simp [hnow, hend, ha.incomplete]
      · simp [hnow, ha.incomplete]
    · have hsame : Complete (past ++ [a]) m ↔ Complete past m := by
        rw [Complete, Complete, arrivedIndices_snoc_of_ne hm]
      simp [hm, hsame]

/-- Packet `i` of a message the sender accepts. -/
def Message.packet (m : Message) (i : Nat) : Bytes :=
  match m.fragments with
  | .ok packets => packets.getD i []
  | .error _ => []

def dataMessage (id : UInt64) (payload : Bytes) : Message :=
  { id, kind := .data, fec := none, payload }

/-- Every non-empty data message within the packet limit is honest. -/
theorem dataMessage_honest (id : UInt64) {payload : Bytes} (hne : payload ≠ [])
    (hlen : payload.length ≤ maxPacketSize) : (dataMessage id payload).Honest where
  sent := by
    have hmax : maxPacketSize ≤ maxReassembledSize := by decide
    exact ⟨_, (split_eq_ok_iff _ _ _ _).mpr ⟨.inl rfl, hne, Nat.le_trans hlen hmax, rfl⟩⟩
  fecKind := fun h => absurd rfl h
  dataLimit := fun _ => hlen
  repairLimit := fun h => nomatch h

/-- Packet `index` of the message arrives at `now`; eight ids are pending at most. -/
def arrive (m : Message) (index now : Nat) : Arrival :=
  { message := m, index, bytes := m.packet index, now, order := [0, 1, 2, 3, 4, 5, 6, 7] }

/-- Data message `k`, cut into two packets. -/
def pairMessage (k : Nat) : Message := dataMessage (UInt64.ofNat k) (List.replicate 901 0)

private theorem pairMessage_honest (k : Nat) : (pairMessage k).Honest := by
  apply dataMessage_honest
  · decide
  · rw [length_replicate]
    decide

/-- Reassembly of honest traffic: every arrival is answered as by the abstract receiver,
so that each message is delivered once, by its last missing packet and unchanged, if all
its packets arrive, and never otherwise. -/
theorem receive_honest_traffic {messages : List Message} {arrivals : List Arrival}
    (hd : Distinct messages) (hs : Schedule messages [] arrivals) :
    Reassembler.empty.receive arrivals = deliveries [] arrivals ∧
    ∀ m ∈ messages, deliveryCount m arrivals (Reassembler.empty.receive arrivals) =
      if Complete arrivals m then 1 else 0 := by
  have hrun := (tracks_empty messages).receive hd hs
  refine ⟨hrun, ?_⟩
  intro m hm
  have hopen : ¬ Complete [] m := by
    intro hc
    have hfirst := hc (Finset.mem_range.mpr (hd.honest m hm).fragmentCount_pos)
    simp [arrivedIndices] at hfirst
  rw [hrun, deliveryCount_deliveries hs]
  simp [hopen]

/-- Two packets in the wrong order, the second of them twice. -/
theorem receive_honest_traffic_pair :
    Distinct [pairMessage 0] ∧
    Schedule [pairMessage 0] [] [arrive (pairMessage 0) 1 0, arrive (pairMessage 0) 1 5,
      arrive (pairMessage 0) 0 9] ∧
    deliveryCount (pairMessage 0) [arrive (pairMessage 0) 1 0, arrive (pairMessage 0) 1 5,
      arrive (pairMessage 0) 0 9]
      (Reassembler.empty.receive [arrive (pairMessage 0) 1 0, arrive (pairMessage 0) 1 5,
        arrive (pairMessage 0) 0 9]) = 1 := by
  have hd : Distinct [pairMessage 0] := by
    refine ⟨?_, by decide +kernel⟩
    intro m hm
    rw [mem_singleton.mp hm]
    exact pairMessage_honest 0
  have hs : Schedule [pairMessage 0] [] [arrive (pairMessage 0) 1 0,
      arrive (pairMessage 0) 1 5, arrive (pairMessage 0) 0 9] := by
    decide +kernel
  refine ⟨hd, hs, ?_⟩
  rw [(receive_honest_traffic hd hs).2 _ (mem_singleton.mpr rfl), if_pos (by decide +kernel)]

def crowd : List Message := (List.range 8).map pairMessage ++ [dataMessage 8 [7]]

/-- The first packets of the eight messages, then the single packet, then the last packet
of the first message. -/
def crowdArrivals : List Arrival :=
  (List.range 8).map (fun k => arrive (pairMessage k) 0 k) ++
    [arrive (dataMessage 8 [7]) 0 8, arrive (pairMessage 0) 1 9]

/-- A message of one packet is never partly received, but at a full table it evicts the
oldest message, which is then lost although all its packets arrive. -/
theorem crowd_loses_message :
    Distinct crowd ∧ PartlySchedule crowd [] crowdArrivals ∧
    Complete crowdArrivals (pairMessage 0) ∧
    deliveryCount (pairMessage 0) crowdArrivals
      (Reassembler.empty.receive crowdArrivals) = 0 := by
  refine ⟨⟨?_, by decide +kernel⟩, by decide +kernel, by decide +kernel, by decide +kernel⟩
  intro m hm
  rcases mem_append.mp hm with hm | hm
  · obtain ⟨k, -, rfl⟩ := mem_map.mp hm
    exact pairMessage_honest k
  · rw [mem_singleton.mp hm]
    exact dataMessage_honest _ (by simp) (by decide)

end AivpnSpec.Common
