import AivpnSpec.Base.Checks
import AivpnSpec.Base.Runs
import AivpnSpec.Base.Windows
import AivpnSpec.Common.FragmentWire

/-!
# The reassembler on hostile input

Whatever byte strings reach `accept_detailed`, at whatever times, the reassembler keeps at most four
control and eight other assemblies, and each of them holds windows of a message of its own total
length. A message is put together when the count of received bytes reaches the total; since the
windows stand at distinct offsets and have the right lengths, none is missing then.
-/

namespace AivpnSpec.Common

open AivpnSpec.Base

/-- A packet given to `accept_detailed`, with the clock reading and the order in which the hash map
of this call iterates over its keys. -/
structure Receipt where
  bytes : Bytes
  now : Nat
  iterate : List UInt64 → List UInt64
  iterate_perm : ∀ ids, (iterate ids).Perm ids

/-- The calls that change a reassembler. -/
inductive ReassemblerCall where
  | accept (receipt : Receipt)
  | discardFecGroup (groupSeq : UInt16)

namespace Reassembler

/-- The order in which a call visits the assemblies that have not expired. -/
def orderAt (r : Reassembler) (receipt : Receipt) : List UInt64 :=
  receipt.iterate (r.expire receipt.now).pending.keys

/-- `accept_detailed` on a packet. -/
def acceptReceipt (r : Reassembler) (receipt : Receipt) :
    Except Error (Option Reassembled) × Reassembler :=
  r.acceptDetailed receipt.bytes receipt.now (r.orderAt receipt)

def perform (r : Reassembler) : ReassemblerCall → Reassembler
  | .accept receipt => (r.acceptReceipt receipt).2
  | .discardFecGroup groupSeq => r.discardFecGroup groupSeq

/-- The assembly of a fragment's message, a new one where there is none; `fragment.rs:198-205`. -/
def opened (r : Reassembler) (fragment : Fragment) (now : Nat) : Assembly :=
  (r.pending.lookup fragment.id).getD
    { kind := fragment.kind, fec := fragment.fec, total := fragment.total, created := now,
      chunks := ∅, received := 0 }

end Reassembler

/-- The assembly with the chunk of a fragment, `fragment.rs:217-218`. -/
def Assembly.withChunk (assembly : Assembly) (fragment : Fragment) : Assembly :=
  { assembly with
    received := assembly.received + fragment.data.length
    chunks := assembly.chunks.insert fragment.offset fragment.data }

/-- The fragment belongs to the message of the assembly, `fragment.rs:206`. -/
def Assembly.Matches (assembly : Assembly) (fragment : Fragment) : Prop :=
  assembly.kind = fragment.kind ∧ assembly.total = fragment.total ∧ assembly.fec = fragment.fec

namespace Reassembler

variable {r room : Reassembler} {fragment : Fragment} {now : Nat} {order : List UInt64}

/-- What storing a fragment can do. -/
theorem store_cases (r : Reassembler) (fragment : Fragment) (now : Nat) :
    let assembly := r.opened fragment now
    let extended := assembly.withChunk fragment
    (∃ e, r.store fragment now = (.error e, ⟨r.pending.erase fragment.id⟩)) ∨
    (assembly.Matches fragment ∧
      (∃ previous, assembly.chunks.lookup fragment.offset = some previous) ∧
      r.store fragment now = (.ok none, ⟨r.pending.insert fragment.id assembly⟩)) ∨
    (assembly.Matches fragment ∧ assembly.chunks.lookup fragment.offset = none ∧
      (extended.received ≠ fragment.total ∧
        r.store fragment now = (.ok none, ⟨r.pending.insert fragment.id extended⟩) ∨
      extended.received = fragment.total ∧
        r.store fragment now =
          (.ok (some { kind := fragment.kind
                       payload := assemble extended fragment.total
                       fec := fragment.fec }),
            ⟨r.pending.erase fragment.id⟩))) := by
  intro assembly extended
  unfold store
  dsimp only
  split
  · exact .inl ⟨_, rfl⟩
  next hmatch =>
  simp only [not_or, not_not] at hmatch
  split
  · next previous hprevious =>
    split
    · exact .inl ⟨_, rfl⟩
    · exact .inr (.inl ⟨hmatch, ⟨previous, hprevious⟩, rfl⟩)
  · next hnew =>
    refine .inr (.inr ⟨hmatch, hnew, ?_⟩)
    split
    · next hmore => exact .inl ⟨hmore, rfl⟩
    · next hfull =>
      rw [hmatch.2.2]
      exact .inr ⟨not_not.mp hfull, rfl⟩

/-- Some assembly is evicted where one that is not control is pending. -/
theorem exists_oldestData {id : UInt64} {assembly : Assembly}
    (hpending : r.pending.lookup id = some assembly) (hkind : assembly.kind ≠ .control)
    (horder : id ∈ order) :
    ∃ oldest a, r.oldestData order = some oldest ∧ r.pending.lookup oldest = some a ∧
      a.kind ≠ .control := by
  unfold oldestData
  generalize hcandidates : (order.filterMap fun id =>
    (r.pending.lookup id).bind fun assembly =>
      if assembly.kind ≠ .control then some (id, assembly.created) else none) = candidates
  have hmem : (id, assembly.created) ∈ candidates := by
    rw [← hcandidates, List.mem_filterMap]
    exact ⟨id, horder, by rw [hpending, Option.bind_some, if_pos hkind]⟩
  cases hmin : candidates.argmin Prod.snd with
  | none =>
    rw [List.argmin_eq_none] at hmin
    rw [hmin] at hmem
    cases hmem
  | some least =>
    have hleast := List.argmin_mem hmin
    rw [← hcandidates, List.mem_filterMap] at hleast
    obtain ⟨oldest, -, hfound⟩ := hleast
    obtain ⟨a, hlookup, hsome⟩ := Option.bind_eq_some_iff.mp hfound
    split at hsome
    · next hdata =>
      cases hsome
      exact ⟨oldest, a, rfl, hlookup, hdata⟩
    · cases hsome

/-- The room for a fragment: nothing is added, its own assembly stays, and a new message finds its
class below the limit. -/
theorem makeRoom_eq_ok (h : r.makeRoom fragment order = .ok room)
    (horder : ∀ id a, r.pending.lookup id = some a → id ∈ order)
    (hfits : ∀ kind, r.classCount kind ≤ classLimit kind) :
    (∀ id a, room.pending.lookup id = some a → r.pending.lookup id = some a) ∧
    (room.pending.lookup fragment.id = none →
      room.classCount fragment.kind < classLimit fragment.kind) := by
  unfold makeRoom at h
  split at h
  · next hknown =>
    cases h
    refine ⟨fun _ _ h => h, fun hnone => ?_⟩
    rw [hnone] at hknown
    cases hknown
  split at h
  · next hfull =>
    split at h
    · cases h
    next hdata =>
    -- The class is full, so something in it is pending and the oldest of it goes.
    have hpos : 0 < r.classCount fragment.kind := by
      refine Nat.lt_of_lt_of_le ?_ hfull
      rw [classLimit, if_neg hdata]
      decide
    obtain ⟨id, assembly, hpending, hclass⟩ := Table.exists_of_count_pos hpos
    have hnotControl : ∀ a : Assembly, a.kind ≠ .control ↔
        ((a.kind == .control) == (fragment.kind == .control)) = true := by
      intro a
      simp [hdata]
    obtain ⟨oldest, a, holdest, hlookup, hkind⟩ :=
      exists_oldestData hpending ((hnotControl assembly).mpr hclass) (horder id assembly hpending)
    rw [holdest] at h
    cases h
    have hsub : ∀ id a, (r.pending.erase oldest).lookup id = some a →
        r.pending.lookup id = some a := by
      intro id a hleft
      exact (Table.of_lookup_erase hleft).2
    refine ⟨hsub, fun _ => Nat.lt_of_lt_of_le ?_ (hfits fragment.kind)⟩
    exact Table.count_lt_count hlookup ((hnotControl a).mp hkind) (AList.lookup_erase _ _)
      fun id a hleft hclass => ⟨a, hsub id a hleft, hclass⟩
  · next hfree =>
    cases h
    exact ⟨fun _ _ h => h, fun _ => Nat.lt_of_not_le hfree⟩

end Reassembler

/-- The assembly of a message: windows of its total length, counted, each of them from an accepted
fragment of the same id, kind, total and FEC metadata. -/
structure Assembly.Sound (accepted : Fragment → Prop) (id : UInt64) (a : Assembly) : Prop where
  total_le : a.total ≤ maxReassembledSize
  windows : Windows fragmentDataSize a.total a.chunks
  received_eq : a.received = held a.chunks
  origin : ∀ offset data, a.chunks.lookup offset = some data →
    accepted ⟨a.kind, a.fec, id, a.total, offset, data⟩

/-- The capacity holds, and every assembly is sound and incomplete. -/
structure Reassembler.Bounded (accepted : Fragment → Prop) (r : Reassembler) : Prop where
  fits : ∀ kind, r.classCount kind ≤ Reassembler.classLimit kind
  sound : ∀ id a, r.pending.lookup id = some a → a.Sound accepted id ∧ a.received < a.total

variable {accepted accepted' : Fragment → Prop} {r room : Reassembler} {fragment : Fragment}
  {assembly : Assembly} {id : UInt64} {now : Nat} {receipt : Receipt}

theorem parseFragment_bounds {bytes : Bytes} (h : parseFragment bytes = .ok fragment) :
    ¬fragment.BadBounds := by
  obtain ⟨-, h⟩ := ite_error_eq_ok.mp h
  split at h
  · cases h
  · cases h
  · cases h
  obtain ⟨-, h⟩ := ite_error_eq_ok.mp h
  obtain ⟨-, h⟩ := ite_error_eq_ok.mp h
  obtain ⟨-, h⟩ := ite_error_eq_ok.mp h
  obtain ⟨hbounds, h⟩ := ite_error_eq_ok.mp h
  cases h
  exact hbounds

namespace Assembly.Sound

theorem mono (h : assembly.Sound accepted id) (hmono : ∀ f, accepted f → accepted' f) :
    assembly.Sound accepted' id where
  total_le := h.total_le
  windows := h.windows
  received_eq := h.received_eq
  origin offset data hlookup := hmono _ (h.origin offset data hlookup)

/-- One more chunk of the message. -/
theorem withChunk (h : assembly.Sound accepted fragment.id) (hmatch : assembly.Matches fragment)
    (hnew : assembly.chunks.lookup fragment.offset = none) (hbounds : ¬fragment.BadBounds)
    (haccepted : accepted fragment) : (assembly.withChunk fragment).Sound accepted fragment.id := by
  obtain ⟨hkind, htotal, hfec⟩ := hmatch
  simp only [Fragment.BadBounds, not_or, not_not] at hbounds
  obtain ⟨-, -, -, -, hlt, hoffset, hlength⟩ := hbounds
  refine ⟨h.total_le, ?_, ?_, ?_⟩
  · refine h.windows.insert hoffset ?_ ?_
    · rw [htotal]
      exact Nat.lt_of_not_le hlt
    · rw [htotal]
      exact hlength
  · rw [Assembly.withChunk, held_insert hnew, h.received_eq]
  · intro offset data hlookup
    rcases Table.cases_insert hlookup with ⟨rfl, rfl⟩ | hlookup
    · have hself : (⟨assembly.kind, assembly.fec, fragment.id, assembly.total, fragment.offset,
          fragment.data⟩ : Fragment) = fragment := by
        rw [hkind, hfec, htotal]
      exact hself ▸ haccepted
    · exact h.origin offset data hlookup

/-- A full assembly lacks no chunk, and the message is its chunks. -/
theorem complete (h : assembly.Sound accepted id) (hfull : assembly.received = assembly.total) :
    (Reassembler.assemble assembly assembly.total).length = assembly.total ∧
    ∀ i, i * fragmentDataSize < assembly.total →
      assembly.chunks.lookup (i * fragmentDataSize) =
        some (chunk fragmentDataSize (Reassembler.assemble assembly assembly.total) i) := by
  have hheld : held assembly.chunks = assembly.total := by
    rw [← h.received_eq]
    exact hfull
  have hfound : ∀ i, i * fragmentDataSize < assembly.total →
      ∃ data, assembly.chunks.lookup (i * fragmentDataSize) = some data := fun i hi =>
    h.windows.lookup_of_held_eq fragmentDataSize_pos hheld hi
  have hlength : ∀ i, i * fragmentDataSize < assembly.total →
      ((assembly.chunks.lookup (i * fragmentDataSize)).getD []).length =
        min fragmentDataSize (assembly.total - i * fragmentDataSize) := by
    intro i hi
    obtain ⟨data, hdata⟩ := hfound i hi
    rw [hdata]
    exact (h.windows _ _ hdata).2.2
  refine ⟨length_joined_windows fragmentDataSize_pos hlength, fun i hi => ?_⟩
  rw [Reassembler.assemble, chunk_joined_windows fragmentDataSize_pos hlength hi]
  obtain ⟨data, hdata⟩ := hfound i hi
  rw [hdata]
  rfl

end Assembly.Sound

namespace Reassembler

def Accepted (r : Reassembler) (receipt : Receipt) (fragment : Fragment) : Prop :=
  parseFragment receipt.bytes = .ok fragment ∧ ∃ delivered, (r.acceptReceipt receipt).1 = .ok delivered

namespace Bounded

section

variable (h : r.Bounded accepted)

include h

theorem mono (hmono : ∀ f, accepted f → accepted' f) : r.Bounded accepted' where
  fits := h.fits
  sound id a hlookup := ⟨(h.sound id a hlookup).1.mono hmono, (h.sound id a hlookup).2⟩

/-- Fewer assemblies keep the bounds. -/
theorem of_subset (hsub : ∀ id a, room.pending.lookup id = some a → r.pending.lookup id = some a) :
    room.Bounded accepted where
  fits kind := Nat.le_trans (Table.count_le_count fun id a hlookup hclass =>
    ⟨a, hsub id a hlookup, hclass⟩) (h.fits kind)
  sound id a hlookup := h.sound id a (hsub id a hlookup)

theorem retain (keep : UInt64 → Assembly → Bool) : Bounded accepted ⟨r.pending.retain keep⟩ :=
  h.of_subset fun _ _ hlookup => (Table.lookup_of_lookup_retain hlookup).1

theorem erase (id : UInt64) : Bounded accepted ⟨r.pending.erase id⟩ := by
  refine h.of_subset fun other a hlookup => ?_
  exact (Table.of_lookup_erase hlookup).2

/-- The assembly of the fragment's message, found or new, is incomplete. -/
theorem opened (hbounds : ¬fragment.BadBounds) (now : Nat) :
    (r.opened fragment now).Sound accepted fragment.id ∧
      (r.opened fragment now).received < (r.opened fragment now).total := by
  unfold Reassembler.opened
  cases hlookup : r.pending.lookup fragment.id with
  | some a => exact h.sound fragment.id a hlookup
  | none =>
    simp only [Fragment.BadBounds, not_or] at hbounds
    refine ⟨⟨Nat.le_of_not_lt hbounds.2.2.2.1, Windows.empty, rfl, ?_⟩,
      Nat.pos_of_ne_zero hbounds.1⟩
    intro offset data hlookup
    cases hlookup

/-- An incomplete assembly takes the place of the one of its message. -/
theorem insert (hsound : assembly.Sound accepted fragment.id)
    (hkind : assembly.kind = fragment.kind) (hless : assembly.received < assembly.total)
    (hsame : ∀ a, r.pending.lookup fragment.id = some a → a.kind = fragment.kind)
    (hroom : r.pending.lookup fragment.id = none → r.classCount fragment.kind < classLimit
      fragment.kind) : Bounded accepted ⟨r.pending.insert fragment.id assembly⟩ := by
  refine ⟨fun kind => ?_, fun id a hlookup => ?_⟩
  · by_cases hclass : ((fragment.kind == .control) == (kind == .control)) = true
    · -- The class of the fragment: one more only where its message is new.
      have hkinds : r.classCount fragment.kind = r.classCount kind ∧
          classLimit fragment.kind = classLimit kind := by
        have hiff : fragment.kind = .control ↔ kind = .control := by simpa using hclass
        unfold classCount classLimit
        rw [beq_iff_eq.mp hclass]
        simp only [hiff, and_self]
      cases hlookup : r.pending.lookup fragment.id with
      | none =>
        rw [← hkinds.2]
        refine Nat.le_trans (Table.count_le_succ fragment.id fun id a hfound hp hne => ?_)
          (hkinds.1 ▸ hroom hlookup)
        rw [Table.lookup_insert_eq, if_neg hne] at hfound
        exact ⟨a, hfound, hp⟩
      | some old =>
        refine Nat.le_trans (Table.count_le_count fun id a hfound hp => ?_) (h.fits kind)
        rcases Table.cases_insert hfound with ⟨rfl, -⟩ | hfound
        · exact ⟨old, hlookup, by rw [hsame old hlookup]; exact hclass⟩
        · exact ⟨a, hfound, hp⟩
    · refine Nat.le_trans (Table.count_le_count fun id a hfound hp => ?_) (h.fits kind)
      rcases Table.cases_insert hfound with ⟨-, rfl⟩ | hfound
      · rw [hkind] at hp
        exact absurd hp hclass
      · exact ⟨a, hfound, hp⟩
  · rcases Table.cases_insert hlookup with ⟨rfl, rfl⟩ | hlookup
    · exact ⟨hsound, hless⟩
    · exact h.sound id a hlookup

/-- The room made for a fragment keeps the bounds, and a new message finds a place. -/
theorem makeRoom (hroom : (r.expire receipt.now).makeRoom fragment (r.orderAt receipt) = .ok room) :
    room.Bounded accepted ∧ (room.pending.lookup fragment.id = none →
      room.classCount fragment.kind < classLimit fragment.kind) := by
  have hexpired : (r.expire receipt.now).Bounded accepted := h.retain _
  have horder : ∀ id a, (r.expire receipt.now).pending.lookup id = some a →
      id ∈ r.orderAt receipt := by
    intro id a hlookup
    refine (receipt.iterate_perm _).mem_iff.mpr ?_
    exact AList.mem_keys.mp (Table.mem_iff_lookup.mpr ⟨a, hlookup⟩)
  obtain ⟨hsub, hfree⟩ := makeRoom_eq_ok hroom horder hexpired.fits
  exact ⟨hexpired.of_subset hsub, hfree⟩

end

end Bounded

/-- A call ends in a refusal, or stores its fragment where room was made for it. -/
theorem acceptReceipt_cases (r : Reassembler) (receipt : Receipt) :
    (∃ e, r.acceptReceipt receipt = (.error e, r.expire receipt.now)) ∨
    ∃ fragment room, parseFragment receipt.bytes = .ok fragment ∧
      (r.expire receipt.now).makeRoom fragment (r.orderAt receipt) = .ok room ∧
      r.acceptReceipt receipt = room.store fragment receipt.now := by
  unfold acceptReceipt acceptDetailed
  cases hparse : parseFragment receipt.bytes with
  | error e => exact .inl ⟨e, rfl⟩
  | ok fragment =>
    dsimp only
    cases hroom : (r.expire receipt.now).makeRoom fragment (r.orderAt receipt) with
    | error e => exact .inl ⟨e, rfl⟩
    | ok room => exact .inr ⟨fragment, room, rfl, hroom, rfl⟩

/-- Every call keeps the bounds; it adds at most its own fragment to the accepted ones. -/
theorem Bounded.acceptReceipt (h : r.Bounded accepted) (hmono : ∀ f, accepted f → accepted' f)
    (hown : ∀ f, r.Accepted receipt f → accepted' f) :
    (r.acceptReceipt receipt).2.Bounded accepted' := by
  replace h := h.mono hmono
  rcases r.acceptReceipt_cases receipt with ⟨e, heq⟩ | ⟨fragment, room, hparse, hroom, heq⟩
  · rw [heq]
    exact h.retain _
  obtain ⟨hrest, hfree⟩ := h.makeRoom hroom
  have hbounds := parseFragment_bounds hparse
  obtain ⟨hopened, hless⟩ := hrest.opened hbounds receipt.now
  have hsame : (room.opened fragment receipt.now).Matches fragment →
      ∀ a, room.pending.lookup fragment.id = some a → a.kind = fragment.kind := by
    intro hmatch a hlookup
    rw [← hmatch.1, Reassembler.opened, hlookup]
    rfl
  rcases room.store_cases fragment receipt.now with
    ⟨e, hstore⟩ | ⟨hmatch, -, hstore⟩ | ⟨hmatch, hnew, ⟨hmore, hstore⟩ | ⟨-, hstore⟩⟩
  · rw [heq, hstore]
    exact hrest.erase fragment.id
  · rw [heq, hstore]
    exact hrest.insert hopened hmatch.1 hless (hsame hmatch) hfree
  · have hsound := hopened.withChunk hmatch hnew hbounds (hown _ ⟨hparse, none, by rw [heq, hstore]⟩)
    rw [heq, hstore]
    have hle := hsound.windows.held_le fragmentDataSize_pos
    rw [← hsound.received_eq] at hle
    refine hrest.insert hsound hmatch.1 (Nat.lt_of_le_of_ne hle ?_) (hsame hmatch) hfree
    intro hfull
    exact hmore (hfull.trans hmatch.2.1)
  · rw [heq, hstore]
    exact hrest.erase fragment.id

/-- A delivered message is put together from an assembly that lacks no chunk. -/
theorem Bounded.delivered (h : r.Bounded accepted) {message : Reassembled}
    (hmono : ∀ f, accepted f → accepted' f) (hown : ∀ f, r.Accepted receipt f → accepted' f)
    (hanswer : (r.acceptReceipt receipt).1 = .ok (some message)) :
    ∃ fragment room, parseFragment receipt.bytes = .ok fragment ∧
      (r.expire receipt.now).makeRoom fragment (r.orderAt receipt) = .ok room ∧
      message.kind = fragment.kind ∧ message.fec = fragment.fec ∧
      fragment.total ≤ maxReassembledSize ∧ message.payload.length = fragment.total ∧
      ∀ i, i * fragmentDataSize < fragment.total →
        ((room.opened fragment receipt.now).withChunk fragment).chunks.lookup
            (i * fragmentDataSize) = some (chunk fragmentDataSize message.payload i) ∧
        accepted' ⟨fragment.kind, fragment.fec, fragment.id, fragment.total, i * fragmentDataSize,
          chunk fragmentDataSize message.payload i⟩ := by
  replace h := h.mono hmono
  rcases r.acceptReceipt_cases receipt with ⟨e, heq⟩ | ⟨fragment, room, hparse, hroom, heq⟩
  · rw [heq] at hanswer
    cases hanswer
  have hbounds := parseFragment_bounds hparse
  have hopened := ((h.makeRoom hroom).1.opened hbounds receipt.now).1
  refine ⟨fragment, room, hparse, hroom, ?_⟩
  rcases room.store_cases fragment receipt.now with
    ⟨e, hstore⟩ | ⟨-, -, hstore⟩ | ⟨hmatch, hnew, ⟨-, hstore⟩ | ⟨hfull, hstore⟩⟩
  · rw [heq, hstore] at hanswer
    cases hanswer
  · rw [heq, hstore] at hanswer
    cases hanswer
  · rw [heq, hstore] at hanswer
    cases hanswer
  have hsound := hopened.withChunk hmatch hnew hbounds (hown _ ⟨hparse, message, hanswer⟩)
  rw [heq, hstore] at hanswer
  cases hanswer
  generalize hassembly : (room.opened fragment receipt.now).withChunk fragment = assembly at *
  obtain ⟨hkind, htotal, hfec⟩ : assembly.kind = fragment.kind ∧
      assembly.total = fragment.total ∧ assembly.fec = fragment.fec := by
    rw [← hassembly]
    exact hmatch
  obtain ⟨hlength, hchunks⟩ := hsound.complete (hfull.trans htotal.symm)
  rw [htotal] at hlength hchunks
  refine ⟨rfl, rfl, htotal ▸ hsound.total_le, hlength, fun i hi => ⟨hchunks i hi, ?_⟩⟩
  have horigin := hsound.origin _ _ (hchunks i hi)
  rw [hkind, htotal, hfec] at horigin
  exact horigin

variable (calls : List ReassemblerCall)

/-- The reassembler after the first `k` calls. -/
def after (k : Nat) : Reassembler :=
  stateAt perform empty calls k

/-- The fragment came in with one of the first `k` calls, which answered without an error. -/
def AcceptedBefore (k : Nat) (fragment : Fragment) : Prop :=
  ∃ j < k, ∃ receipt, calls[j]? = some (.accept receipt) ∧
    (after calls j).Accepted receipt fragment

theorem AcceptedBefore.mono {calls : List ReassemblerCall} {k k' : Nat} (hle : k ≤ k')
    (h : AcceptedBefore calls k fragment) : AcceptedBefore calls k' fragment := by
  obtain ⟨j, hj, hrest⟩ := h
  exact ⟨j, Nat.lt_of_lt_of_le hj hle, hrest⟩

theorem bounded_after (k : Nat) : (after calls k).Bounded (AcceptedBefore calls k) := by
  induction k with
  | zero => exact ⟨fun _ => Nat.zero_le _, nofun⟩
  | succ k ih =>
    have hmono : ∀ f, AcceptedBefore calls k f → AcceptedBefore calls (k + 1) f :=
      fun f hf => hf.mono (Nat.le_succ k)
    cases hcall : calls[k]? with
    | none =>
      rw [after, stateAt_of_none hcall]
      exact ih.mono hmono
    | some call =>
      rw [after, stateAt_succ hcall]
      cases call with
      | accept receipt =>
        exact ih.acceptReceipt hmono fun f hf => ⟨k, Nat.lt_succ_self k, receipt, hcall, hf⟩
      | discardFecGroup groupSeq => exact (ih.mono hmono).retain _

/-- On any packets at any times, with FEC groups discarded in between: at most four control and
eight other assemblies; each of them holds windows of its own total length, counted and not yet
complete; and whenever a message is delivered, every chunk it is put together from is there, its
length is the announced total, and each chunk came in with an accepted fragment of the same id,
kind, total and FEC metadata. -/
theorem hostile_input_bounded (calls : List ReassemblerCall) :
    (∀ k, (after calls k).classCount .control ≤ maxInFlight ∧
      (after calls k).classCount .data ≤ maxDataInFlight ∧
      ∀ id assembly, (after calls k).pending.lookup id = some assembly →
        (∀ offset data, assembly.chunks.lookup offset = some data →
          offset % fragmentDataSize = 0 ∧ offset < assembly.total ∧
          data.length = min fragmentDataSize (assembly.total - offset)) ∧
        assembly.received = (assembly.chunks.values.map List.length).sum ∧
        assembly.received < assembly.total) ∧
    ∀ k receipt message, calls[k]? = some (.accept receipt) →
      ((after calls k).acceptReceipt receipt).1 = .ok (some message) →
      ∃ fragment room, parseFragment receipt.bytes = .ok fragment ∧
        ((after calls k).expire receipt.now).makeRoom fragment ((after calls k).orderAt receipt) =
          .ok room ∧
        message.kind = fragment.kind ∧ message.fec = fragment.fec ∧
        fragment.total ≤ maxReassembledSize ∧ message.payload.length = fragment.total ∧
        ∀ i, i * fragmentDataSize < fragment.total →
          ((room.opened fragment receipt.now).withChunk fragment).chunks.lookup
              (i * fragmentDataSize) = some (chunk fragmentDataSize message.payload i) ∧
          AcceptedBefore calls (k + 1)
            ⟨fragment.kind, fragment.fec, fragment.id, fragment.total, i * fragmentDataSize,
              chunk fragmentDataSize message.payload i⟩ := by
  refine ⟨fun k => ?_, fun k receipt message hcall hanswer => ?_⟩
  · have h := bounded_after calls k
    refine ⟨h.fits .control, h.fits .data, fun id assembly hlookup => ?_⟩
    obtain ⟨hsound, hless⟩ := h.sound id assembly hlookup
    exact ⟨hsound.windows, hsound.received_eq, hless⟩
  · exact (bounded_after calls k).delivered (fun f hf => hf.mono (Nat.le_succ k))
      (fun f hf => ⟨k, Nat.lt_succ_self k, receipt, hcall, hf⟩) hanswer

def sampleReceipt : Receipt where
  bytes := fragmentHeader 5 .data 1 0 ++ [7]
  now := 0
  iterate ids := ids
  iterate_perm _ := List.Perm.refl _

theorem hostile_input_bounded_sampleReceipt :
    ∃ message, ((after [.accept sampleReceipt] 0).acceptReceipt sampleReceipt).1 =
        .ok (some message) ∧ message.payload = [7] ∧
      AcceptedBefore [.accept sampleReceipt] 1 ⟨.data, none, 5, 1, 0, [7]⟩ := by
  refine ⟨⟨.data, [7], none⟩, rfl, rfl, ?_⟩
  obtain ⟨fragment, room, hparse, -, -, -, -, -, hchunks⟩ :=
    (hostile_input_bounded [.accept sampleReceipt]).2 0 sampleReceipt ⟨.data, [7], none⟩ rfl rfl
  have hfragment : parseFragment sampleReceipt.bytes = .ok ⟨.data, none, 5, 1, 0, [7]⟩ := rfl
  cases hparse
  exact (hchunks 0 (by decide)).2

end Reassembler

end AivpnSpec.Common
