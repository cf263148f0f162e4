import AivpnSpec.Common.FecRecovery

/-!
# Refused calls of the FEC receiver

A call notes its position, and may evict a group and open another, before the last checks are
made. These checks only fail for a group that is there already, and no stored group is ahead of
the highest position, so a refused call leaves what the time sweep left. Arguments that are
refused at once do not even expire old groups.
-/

namespace AivpnSpec.Common

open AivpnSpec.Base

namespace FecReceiver

variable {r r' : FecReceiver} {c : FecCall}

/-- No position of a store is ahead of the highest one. -/
def Behind (r : FecReceiver) : Prop :=
  ∀ q, r.remembered q = true → ∃ highest, r.highestGroup = some highest ∧ q ≤ highest

theorem Behind.swept (hb : r.Behind) (ha : r.Apart) (c : FecCall) : (r.swept c).Behind := by
  have hret := swept_retires ha c
  intro q hq
  rw [hret.highestGroup]
  exact hb q (hret.remembered hq)

/-- Noting a position that is in a store changes nothing. -/
theorem Behind.entered_eq (hb : (r.swept c).Behind)
    (h : (r.swept c).remembered (r.positionOf c) = true) : r.entered c = r.swept c := by
  obtain ⟨highest, hhigh, hle⟩ := hb _ h
  have hmax : some (max ((r.swept c).highestGroup.getD (r.positionOf c)) (r.positionOf c)) =
      (r.swept c).highestGroup := by
    rw [hhigh, Option.getD_some, max_eq_left hle]
  show { r.swept c with
    highestGroup := some (max ((r.swept c).highestGroup.getD (r.positionOf c)) (r.positionOf c)) } =
      r.swept c
  rw [hmax]

theorem CallEffect.of_not_valid {answer : Except Error FecRxResult} (h : CallEffect r c answer r')
    (hv : ¬c.Valid) : r' = r := by
  cases h with
  | invalid e h => rfl
  | _ => contradiction

theorem Behind.call (hb : r.Behind) (hi : r.Inv) (c : FecCall) : (r.call c).2.Behind := by
  have heff := call_effect r c
  by_cases hv : c.Valid
  · have hframes := heff.frames hi hv
    intro q hq
    refine ⟨_, hframes.highest, ?_⟩
    by_cases hp : q = r.positionOf c
    · rw [hp]
      exact le_max_right _ _
    · obtain ⟨highest, hhigh, hle⟩ := hb q (hframes.remembered q hp hq)
      rw [(swept_retires hi.apart c).highestGroup, hhigh]
      exact hle.trans (le_max_left _ _)
  · rw [heff.of_not_valid hv]
    exact hb

/-- A valid call is refused only for a group that is there. -/
theorem CallEffect.refused {e : Error} (h : CallEffect r c (.error e) r') (hi : r.Inv)
    (hb : r.Behind) (hv : c.Valid) : r' = r.swept c := by
  have ha := (entered_inv hi c).apart
  have hpending : ∀ group, (r.entered c).pending.lookup (r.positionOf c) = some group →
      r.entered c = r.swept c := by
    intro group hg
    apply (hb.swept hi.apart c).entered_eq
    have hg : (r.swept c).pending.lookup (r.positionOf c) = some group := hg
    simp [remembered, hg]
  cases h with
  | invalid e h => exact absurd hv h
  | retired answer group hv hc h hq =>
    apply (hb.swept hi.apart c).entered_eq
    have hg : (r.swept c).retired.lookup (r.positionOf c) = some group := h
    simp [remembered, hg]
  | conflict e group hv h hs => exact hpending group h
  | repeated answer group r' hv hc hr ho h hq =>
    rcases ensureGroup_ok ha ho with ⟨hg, -, rfl⟩ | ⟨-, r₁, ticket, -, rfl, -⟩
    · exact hpending group hg
    · exact absurd h (c.not_of_new _ _ _).1
  | exceeds e group r' hv hc hr ho h =>
    rcases ensureGroup_ok ha ho with ⟨hg, -, rfl⟩ | ⟨-, r₁, ticket, -, rfl, -⟩
    · exact hpending group hg
    · exact absurd h (c.not_of_new _ _ _).2

theorem behind_afterCalls (calls : List FecCall) (k : Nat) : (afterCalls calls k).Behind := by
  refine stateAt_keeps (P := Behind) (Nat.zero_le k) ?_ ?_
  · intro q hq
    cases hq
  · intro j c _ _ _ hb
    exact hb.call (afterCalls_inv calls j) c

/-- In every run a refused call leaves what only the expiry of old groups leaves, or, if its
arguments are not valid, the receiver as it was. -/
theorem refused_call_only_expires (calls : List FecCall) (k : Nat) (c : FecCall) (e : Error)
    (h : ((afterCalls calls k).call c).1 = .error e) :
    (c.Valid → ((afterCalls calls k).call c).2 = (afterCalls calls k).swept c) ∧
    (¬c.Valid → ((afterCalls calls k).call c).2 = afterCalls calls k) := by
  have heff := call_effect (afterCalls calls k) c
  rw [h] at heff
  exact ⟨heff.refused (afterCalls_inv calls k) (behind_afterCalls calls k), heff.of_not_valid⟩

def firstOfTwo : List FecCall := [.record { groupSeq := 7, groupSize := 2, index := 0 } [1] 0 []]

def otherSize : FecCall := .record { groupSeq := 7, groupSize := 3, index := 1 } [2] 1 [65543]

theorem refused_call_only_expires_otherSize :
    ((afterCalls firstOfTwo 1).call otherSize).2 = (afterCalls firstOfTwo 1).swept otherSize := by
  have hvalid : otherSize.Valid := ⟨by decide, by decide, by decide, by decide⟩
  exact (refused_call_only_expires firstOfTwo 1 otherSize
    (.invalidPacket "Conflicting FEC group size") rfl).1 hvalid

def noMembers : FecCall :=
  .record { groupSeq := 7, groupSize := 0, index := 0 } [2] pendingTtl [65543]

/-- Arguments that are not valid are refused before old groups are expired. -/
theorem invalid_call_expires_nothing :
    ((afterCalls firstOfTwo 1).call noMembers).1 =
      .error (.invalidPacket "Invalid FEC metadata") ∧
    ((afterCalls firstOfTwo 1).call noMembers).2 ≠ (afterCalls firstOfTwo 1).swept noMembers := by
  refine ⟨rfl, ?_⟩
  intro heq
  have hpending := congrArg (fun r : FecReceiver => (r.pending.lookup 65543).isSome) heq
  revert hpending
  decide +kernel

/-! ### Ignored packets -/

theorem finish_ne_ignored (r : FecReceiver) (seq : Nat) (group : PendingGroup) :
    ((r.setPending seq group).finish seq true).1 ≠ .ignored := by
  simp only [finish, lookup_setPending, if_true]
  split_ifs <;> simp [FecRxResult.ignored]

/-- In every run a valid packet is ignored exactly if it is a duplicate for the receiver without its
expired groups. -/
theorem record_ignored_iff (calls : List FecCall) (k : Nat) (metadata : FecMetadata)
    (payload : Bytes) (now : Nat) (order : List Nat) :
    ((afterCalls calls k).record metadata payload now order).1 = .ok .ignored ↔
      validateMember metadata payload.length = .ok () ∧
        ((afterCalls calls k).sweep now order).isDuplicate metadata = true := by
  have hi := (afterCalls_inv calls k).apart
  have ha := (swept_retires hi (.record metadata payload now order)).apart hi
  simp only [swept] at ha
  unfold record
  cases validateMember metadata payload.length with
  | error e => simp
  | ok =>
    generalize (afterCalls calls k).sweep now order = r at ha
    simp only [advance, isDuplicate, true_and]
    by_cases hc : r.position metadata.groupSeq ∈ r.completedSet
    · simp [hc]
    simp only [hc, if_false]
    cases hr : r.retired.lookup (r.position metadata.groupSeq) with
    | some group =>
      simp only [acceptRetired, hr, ha.pending_of_retired hr]
      split_ifs <;> simp_all [FecRxResult.ignored]
    | none =>
      simp only [acceptRetired, hr, ensureGroup]
      cases hp : r.pending.lookup (r.position metadata.groupSeq) with
      | none => simp [PendingGroup.new, finish_ne_ignored]
      | some group =>
        by_cases hs : group.groupSize = metadata.groupSize
        · simp only [hs, ne_eq, not_true_eq_false, if_false, beq_self_eq_true, Bool.true_and]
          split_ifs with hseen <;> simp [hseen, finish_ne_ignored]
        · simp [hs]

end FecReceiver

end AivpnSpec.Common
