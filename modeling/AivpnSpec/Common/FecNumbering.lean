import AivpnSpec.Base.Runs
import AivpnSpec.Common.FecGroups

/-!
# The numbers of a FEC sender

The tags that a sender hands out number its payloads group by group without a gap, every full group
gets one repair, and the queue of encrypted repairs stays short and holds whole repairs.
-/

namespace AivpnSpec.Common.FecSender

open AivpnSpec.Base List

def after (actions : List FecAction) (k : Nat) : FecSender := stateAt act empty actions k

/-- All packets of a repair that was built in the run. -/
def IsRepairSet (actions : List FecAction) (packets : List Bytes) : Prop :=
  ∃ k payload payloadLimit id encrypt repair,
    actions[k]? = some (.send payload payloadLimit id encrypt) ∧
    ((after actions k).absorb payload).1 = some repair ∧
    (repairParts repair payloadLimit id).bind (encryptParts encrypt 0) = some packets

/-- The queue holds whole repairs. -/
def Whole (actions : List FecAction) (s : FecSender) : Prop :=
  ∃ sets : List (List Bytes), s.pending = sets.flatten ∧
    ∀ packets ∈ sets, IsRepairSet actions packets

variable {s : FecSender} {done : List FecGroup} {size : UInt8} {members : List Bytes}
  {payload : Bytes} {payloadLimit : Nat} {id : UInt64}
  {encrypt : Nat → InnerType → Bytes → Except Error Bytes} {parts : List (InnerType × Bytes)}
  {repair : FecRepair}

theorem length_encryptParts {encrypt : Nat → InnerType → Bytes → Except Error Bytes} {n : Nat}
    {packets : List Bytes} (h : encryptParts encrypt n parts = some packets) :
    packets.length = parts.length := by
  induction parts generalizing n packets with
  | nil =>
    cases h
    rfl
  | cons part rest ih =>
    simp only [encryptParts] at h
    split at h
    · cases h
    · obtain ⟨packets, hrest, rfl⟩ := Option.map_eq_some_iff.mp h
      rw [length_cons, length_cons, ih hrest]

/-- A repair of at most 1500 bytes takes two packets. -/
theorem length_repairParts {payloadLimit : Nat} {id : UInt64}
    (hlen : repair.xorData.length ≤ maxPacketSize)
    (h : repairParts repair payloadLimit id = some parts) : parts.length ≤ 2 := by
  have hbytes : repair.encode.length ≤ 1503 := by
    simp only [FecRepair.encode, length_append, length_leBytes, length_cons]
    unfold maxPacketSize at hlen
    omega
  unfold repairParts at h
  split at h
  · cases h
    exact Nat.le_succ 1
  split at h
  · cases h
  next packets hsplit =>
  cases h
  unfold AivpnSpec.Common.split at hsplit
  split at hsplit
  · cases hsplit
  cases hsplit
  simp only [length_map, length_mapIdx, chunks, length_range, chunkCount,
    fragmentDataSize]
  omega

theorem pending_applyGroupAtBoundary (s : FecSender) :
    s.applyGroupAtBoundary.pending = s.pending := by
  unfold applyGroupAtBoundary
  split
  · rfl
  split
  · rfl
  · dsimp only
    split <;> rfl

theorem pending_absorb (s : FecSender) (payload : Bytes) :
    (s.absorb payload).2.pending = s.pending := by
  unfold absorb
  split
  · split
    · rfl
    · split
      · rfl
      · exact pending_applyGroupAtBoundary _
  · rfl

/-- A payload leaves the queue, or puts a whole repair into it. -/
theorem pending_feed (s : FecSender) (payload : Bytes) (payloadLimit : Nat) (id : UInt64)
    (encrypt : Nat → InnerType → Bytes → Except Error Bytes) :
    (s.feed payload payloadLimit id encrypt).pending = s.pending ∨
    ∃ repair parts packets, (s.absorb payload).1 = some repair ∧
      repairParts repair payloadLimit id = some parts ∧
      encryptParts encrypt 0 parts = some packets ∧
      (s.feed payload payloadLimit id encrypt).pending =
        (if 8 < s.pending.length + packets.length then [] else s.pending) ++ packets := by
  have hpending := pending_absorb s payload
  unfold feed
  cases habsorb : s.absorb payload with
  | mk answer s' =>
    rw [habsorb] at hpending
    cases answer with
    | none => exact .inl hpending
    | some repair =>
      dsimp only
      split
      · exact .inl hpending
      next packets hpackets =>
      obtain ⟨parts, hparts, hencrypt⟩ := Option.bind_eq_some_iff.mp hpackets
      refine .inr ⟨repair, parts, packets, rfl, hparts, hencrypt, ?_⟩
      dsimp only
      rw [show s'.pending = s.pending from hpending]

/-- The repair of a group that a payload has filled is no longer than a payload can be. -/
theorem length_xorData (h : Sends s done size members)
    (habsorb : (s.absorb payload).1 = some repair) : repair.xorData.length ≤ maxPacketSize := by
  by_cases he : s.enabledFor payload.length = true
  · obtain ⟨-, -, -, -, -, ⟨hnone, -⟩ | ⟨-, hsome, size', h'⟩⟩ := h.send he
    · rw [hnone] at habsorb
      cases habsorb
    rw [hsome] at habsorb
    cases habsorb
    have hwf := (h'.full _ (mem_append_right _ (mem_singleton_self _))).1
    simpa [FecGroup.repair, FecGroup.xorData] using FecGroup.width_le hwf.payload
  · simp [absorb, he] at habsorb

theorem length_pending_act (h : Sends s done size members) (hqueue : s.pending.length ≤ 8)
    (action : FecAction) : (s.act action).pending.length ≤ 8 := by
  cases action with
  | setGroup requested =>
    show (applyGroupAtBoundary _).pending.length ≤ 8
    rw [pending_applyGroupAtBoundary]
    exact hqueue
  | takePacket =>
    show s.pending.tail.length ≤ 8
    rw [length_tail]
    omega
  | discardPending => exact Nat.zero_le 8
  | send payload payloadLimit id encrypt =>
    show (s.feed payload payloadLimit id encrypt).pending.length ≤ 8
    rcases s.pending_feed payload payloadLimit id encrypt with
      hsame | ⟨repair, parts, packets, habsorb, hparts, hencrypt, hpending⟩
    · rw [hsame]
      exact hqueue
    have htwo := length_repairParts (length_xorData h habsorb) hparts
    have hlength := length_encryptParts hencrypt
    rw [hpending, length_append]
    split
    · rw [length_nil]
      omega
    · omega

/-- Every action but taking a packet out leaves whole repairs. -/
theorem Whole.act {actions : List FecAction} {k : Nat} {action : FecAction}
    (h : Whole actions (after actions k)) (haction : actions[k]? = some action)
    (htake : action ≠ .takePacket) : Whole actions ((after actions k).act action) := by
  obtain ⟨sets, hpending, hsets⟩ := h
  cases action with
  | setGroup requested => exact ⟨sets, (pending_applyGroupAtBoundary _).trans hpending, hsets⟩
  | takePacket => exact absurd rfl htake
  | discardPending => exact ⟨[], rfl, fun packets hpackets => by cases hpackets⟩
  | send payload payloadLimit id encrypt =>
    rcases (after actions k).pending_feed payload payloadLimit id encrypt with
      hsame | ⟨repair, parts, packets, habsorb, hparts, hencrypt, hfed⟩
    · exact ⟨sets, hsame.trans hpending, hsets⟩
    have hnew : IsRepairSet actions packets := by
      refine ⟨k, payload, payloadLimit, id, encrypt, repair, haction, habsorb, ?_⟩
      rw [hparts]
      exact hencrypt
    by_cases hlong : 8 < (after actions k).pending.length + packets.length
    · rw [if_pos hlong] at hfed
      refine ⟨[packets], hfed.trans (by simp), ?_⟩
      rw [forall_mem_singleton]
      exact hnew
    · rw [if_neg hlong, hpending] at hfed
      refine ⟨sets ++ [packets], hfed.trans (by simp), ?_⟩
      rw [forall_mem_append, forall_mem_singleton]
      exact ⟨hsets, hnew⟩

/-- The tags number the payloads group by group, all groups but the last are full, and there is one
repair, the XOR of the payloads, for each of these. The queue never holds more than eight packets,
nor a part of a repair unless packets are taken out. -/
theorem sender_numbers_payloads (actions : List FecAction) (k : Nat) :
    (∃ done size members, (∀ group ∈ done, group.WF ∧ group.Full) ∧
      (members ≠ [] → members.length < size.toNat) ∧
      taggedPayloads ((empty.run 0 (actions.take k)).map Prod.snd) =
        numbered (done ++ openGroup size members) ∧
      repairBytes ((empty.run 0 (actions.take k)).map Prod.snd) =
        done.zipIdx.map fun (group, g) => (group.repair g).encode) ∧
    (after actions k).pending.length ≤ 8 ∧
    ((∀ action ∈ actions, action ≠ .takePacket) → Whole actions (after actions k)) := by
  refine ⟨?_, ?_, ?_⟩
  · obtain ⟨done, size, members, h, -, -, -, htags, hrepairs⟩ := Sends.start.run (actions.take k)
    refine ⟨done, size, members, h.full, fun hne => ?_, htags.symm, hrepairs.symm⟩
    cases he : ((actions.take k).foldl act empty).encoder with
    | none => exact absurd (h.idle he).1 hne
    | some e =>
      obtain ⟨rfl, henc⟩ := h.active e he
      exact henc.room
  · refine stateAt_keeps (P := fun s : FecSender => s.pending.length ≤ 8) (Nat.zero_le k)
      (Nat.zero_le 8) ?_
    intro j action _ _ _ hqueue
    obtain ⟨done, size, members, h, -⟩ := Sends.start.run (actions.take j)
    exact length_pending_act h hqueue action
  · intro htake
    refine stateAt_keeps (P := Whole actions) (Nat.zero_le k) ⟨[], rfl, fun _ h => by cases h⟩ ?_
    intro j action _ _ haction hwhole
    exact hwhole.act haction (htake action (mem_of_getElem? haction))

end AivpnSpec.Common.FecSender
