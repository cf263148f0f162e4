import Mathlib
import AivpnSpec.Common.Framing
import AivpnSpec.Server.Session.SharedWindow

/-!
# STUN carriers

`stun_wire.rs:14-78`. The padding brings a carrier to a multiple of four bytes, and `validate` reads
the one attribute that `finalize` lays over the rest of the packet to its very end.
-/

namespace AivpnSpec.Common

open AivpnSpec.Base AivpnSpec.Server List

/-- `aligned_padding`, `stun_wire.rs:15-28`, in the `usize` of a release build: sums wrap around. -/
def alignedPaddingUsize (width : PointerWidth) (base : Fin (2 ^ width.bits))
    (requested maximum : UInt16) : Except Error UInt16 :=
  let desired := min requested.toNat maximum.toNat
  let up := desired + (4 - (base.val + desired) % 2 ^ width.bits % 4) % 4
  if up ≤ maximum.toNat then .ok (UInt16.ofNat up)
  else
    let last := (base.val + maximum.toNat) % 2 ^ width.bits
    let aligned := last - last % 4
    if aligned < base.val then .error (.invalidPacket "Нет места для выравнивания STUN")
    else .ok (UInt16.ofNat (aligned - base.val))

variable {width : PointerWidth} {base : Fin (2 ^ width.bits)} {requested maximum : UInt16}
  {packet : Bytes}

theorem alignedPaddingUsize_eq (hfits : base.val + maximum.toNat < 2 ^ width.bits) :
    alignedPaddingUsize width base requested maximum =
      alignedPadding base.val requested maximum := by
  have hdesired : base.val + min requested.toNat maximum.toNat < 2 ^ width.bits := by omega
  rw [alignedPaddingUsize, alignedPadding]
  simp only [Nat.mod_eq_of_lt hfits, Nat.mod_eq_of_lt hdesired]

/-- Rounding up stays below the maximum, or rounding the maximum down gives the only candidate. -/
theorem alignedPadding_exact (base : Nat) (requested maximum : UInt16) :
    (∀ p, alignedPadding base requested maximum = .ok p →
      p ≤ maximum ∧ (base + p.toNat) % 4 = 0) ∧
    ∀ e, alignedPadding base requested maximum = .error e →
      ∀ p ≤ maximum, (base + p.toNat) % 4 ≠ 0 := by
  have hmaximum := maximum.toNat_lt
  simp only [alignedPadding, UInt16.le_iff_toNat_le]
  constructor
  · intro p hp
    split at hp
    · cases hp
      rw [UInt16.toNat_ofNat']
      omega
    split at hp
    · cases hp
    · cases hp
      rw [UInt16.toNat_ofNat']
      omega
  · intro e he p hp
    split at he
    · cases he
    split at he
    · omega
    · cases he

/-- The walk over one attribute that reaches to the end. -/
theorem walkAttributes_one (hlength : 24 ≤ packet.length) (hfour : packet.length % 4 = 0)
    (hvalue : ofBe (slice packet 22 2) = packet.length - 24) :
    walkAttributes packet.length packet 20 = .ok () := by
  obtain ⟨n, hn⟩ : ∃ n, packet.length = n + 2 := ⟨packet.length - 2, by omega⟩
  have hnext : 20 + 4 + (packet.length - 24 + 3) / 4 * 4 = packet.length := by omega
  rw [show walkAttributes packet.length packet 20 = walkAttributes (n + 2) packet 20 by rw [hn],
    walkAttributes, if_neg (by omega), if_neg (by omega)]
  dsimp only
  rw [hvalue, hnext, if_neg (lt_irrefl _), walkAttributes, if_pos le_rfl]

/-- `finalize` writes what `validate` asks for, around a cookie that is there already. -/
theorem exists_finalizeStun (attr : UInt16) (hlength : 24 ≤ packet.length)
    (hfour : packet.length % 4 = 0) (hbody : packet.length - 20 < 2 ^ 16)
    (hcookie : HasAt packet 4 [0x21, 0x12, 0xa4, 0x42]) :
    ∃ output, finalizeStun attr packet = .ok output ∧ validateStun output = .ok () ∧
      EqOutside (fun i => i < 4 ∨ 20 ≤ i ∧ i < 24) packet output := by
  obtain ⟨hlen, houtside, hstand⟩ := stunFields_spec attr hlength
  generalize houtput : overwriteAll packet (stunFields attr packet) = output at hlen houtside hstand
  have htype : HasAt output 0 ([0] ++ [0x11]) := hstand (0, _) mem_cons_self
  have hbodyLen : HasAt output 2 (beBytes 2 (packet.length - 20)) :=
    hstand (2, _) (.tail _ mem_cons_self)
  have hvalue : HasAt output 22 (beBytes 2 (packet.length - 20 - 4)) :=
    hstand (22, _) (.tail _ (.tail _ (.tail _ mem_cons_self)))
  have hstays : HasAt output 4 [0x21, 0x12, 0xa4, 0x42] := by
    refine houtside.hasAt hcookie fun i hlow hhigh => ?_
    simp only [length_cons, length_nil] at hhigh
    omega
  have hvalid : validateStun output = .ok () := by
    have hread := hvalue.ofBe_eq
    rw [validateStun, (hasAt_append.mp htype).1.byteAt_eq,
      show slice output 4 4 = _ from hstays.slice_eq, if_neg (by simp; omega)]
    dsimp only
    rw [hbodyLen.ofBe_eq, if_neg (by omega),
      walkAttributes_one (by omega) (by omega) (by omega)]
  refine ⟨output, ?_, hvalid, houtside⟩
  subst houtput
  rw [finalizeStun, if_neg (by omega)]
  dsimp only
  split
  · next he => cases hvalid.symm.trans he
  · rfl

/-- Where the sums fit into a `usize`, a padding is found if there is one, and it is one. A packet
with the cookie, a length divisible by four and a body of 16 bits is finalized to a valid message
that differs in the two headers only. -/
theorem stun_carrier_exact :
    (base.val + maximum.toNat < 2 ^ width.bits →
      (∀ p, alignedPaddingUsize width base requested maximum = .ok p →
        p ≤ maximum ∧ (base.val + p.toNat) % 4 = 0) ∧
      ∀ e, alignedPaddingUsize width base requested maximum = .error e →
        ∀ p ≤ maximum, (base.val + p.toNat) % 4 ≠ 0) ∧
    ∀ (attr : UInt16) (packet : Bytes), 24 ≤ packet.length →
      HasAt packet 4 [0x21, 0x12, 0xa4, 0x42] → packet.length % 4 = 0 →
      packet.length - 20 < 2 ^ 16 →
      ∃ output, finalizeStun attr packet = .ok output ∧ validateStun output = .ok () ∧
        EqOutside (fun i => i < 4 ∨ 20 ≤ i ∧ i < 24) packet output := by
  refine ⟨fun hfits => ?_, fun attr _ hlength hcookie hfour hbody =>
    exists_finalizeStun attr hlength hfour hbody hcookie⟩
  rw [alignedPaddingUsize_eq hfits]
  exact alignedPadding_exact _ _ _

theorem stun_carrier_exact_sample :
    alignedPaddingUsize .bits64 ⟨49, by decide⟩ 6 8 = .ok 7 ∧ (49 + (7 : UInt16).toNat) % 4 = 0 ∧
    ∃ output, finalizeStun 0xc072
      ([0, 0, 0, 0, 0x21, 0x12, 0xa4, 0x42] ++ replicate 20 7) = .ok output ∧
      validateStun output = .ok () := by
  obtain ⟨hpadding, hfinalize⟩ := @stun_carrier_exact .bits64 ⟨49, by decide⟩ 6 8
  refine ⟨rfl, ((hpadding (by decide)).1 7 rfl).2, Exists.imp (fun _ h => ⟨h.1, h.2.1⟩)
    (hfinalize 0xc072 _ ?_ ?_ ?_ ?_)⟩
  · decide
  · exact ⟨_, rfl⟩
  · decide
  · decide

/-- The sum of a base at the end of `usize` wraps around. -/
theorem base_at_end_refused :
    alignedPaddingUsize .bits64 ⟨2 ^ 64 - 5, by decide⟩ 6 6 =
      .error (.invalidPacket "Нет места для выравнивания STUN") ∧
    ∃ p ≤ (6 : UInt16), (2 ^ 64 - 5 + p.toNat) % 4 = 0 ∧ 2 ^ 64 - 5 + p.toNat < 2 ^ 64 :=
  ⟨rfl, 1, by decide⟩

end AivpnSpec.Common
