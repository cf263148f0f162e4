import Mathlib
import AivpnSpec.Common.FecRecovery

/-!
# Group numbers beyond 16 bits

`fec.rs:387-405`. An item carries the low 16 bits of its group's number. The receiver places it next
to the highest position so far, in 64 bits that saturate, and so recovers the number up to a
constant for as long as the positions last.
-/

namespace AivpnSpec.Common

open List

namespace FecReceiver

/-- `position`, `fec.rs:389-399`, in the 64 bits of the program. -/
def position64 (r : FecReceiver) (seq : UInt16) : Nat :=
  match r.highestGroup with
  | none => 65536 + seq.toNat
  | some highest =>
    let distance := seq - UInt16.ofNat highest
    if distance < 0x8000 then min (highest + distance.toNat) (2 ^ 64 - 1)
    else highest - (0 - distance).toNat

/-- `advance`, `fec.rs:401-405`, in the 64 bits of the program. -/
def advance64 (r : FecReceiver) (seq : UInt16) : Nat × FecReceiver :=
  let position := r.position64 seq
  (position, { r with highestGroup := some (max (r.highestGroup.getD position) position) })

/-- The positions given to items of groups with these numbers. -/
def positions64 (r : FecReceiver) : List Nat → List Nat
  | [] => []
  | g :: groups =>
    let (position, r) := r.advance64 (UInt16.ofNat g)
    position :: r.positions64 groups

end FecReceiver

/-- Every number is less than 2^15 away from the largest one before it. -/
def Near (top : Nat) : List Nat → Prop
  | [] => True
  | g :: groups => (top < g + 2 ^ 15 ∧ g < top + 2 ^ 15) ∧ Near (max top g) groups

variable {r : FecReceiver} {first top g : Nat} {groups : List Nat}

/-- The positions without a bound are those of the program until they reach it. -/
theorem position64_eq {seq : UInt16} (h : r.position seq < 2 ^ 64) :
    r.position64 seq = r.position seq := by
  unfold FecReceiver.position64 FecReceiver.position at *
  cases hhighest : r.highestGroup with
  | none => rfl
  | some highest =>
    simp only [hhighest] at h ⊢
    split
    · next hahead =>
      rw [if_pos hahead] at h
      omega
    · rfl

/-- No position is beyond 64 bits. -/
theorem positions64_lt (h : r.highestGroup.getD 0 < 2 ^ 64) :
    ∀ p ∈ r.positions64 groups, p < 2 ^ 64 := by
  induction groups generalizing r with
  | nil => nofun
  | cons g groups ih =>
    have hposition : r.position64 (UInt16.ofNat g) < 2 ^ 64 := by
      have hseq := (UInt16.ofNat g).toNat_lt
      unfold FecReceiver.position64
      cases hhighest : r.highestGroup with
      | none => dsimp only; omega
      | some highest =>
        rw [hhighest, Option.getD_some] at h
        dsimp only
        split <;> omega
    intro p hp
    rcases mem_cons.mp hp with rfl | hp
    · exact hposition
    refine ih ?_ p hp
    change max (r.highestGroup.getD _) _ < _
    cases hhighest : r.highestGroup with
    | none => simpa using hposition
    | some highest => exact max_lt (by simpa [hhighest] using h) hposition

/-- The positions are the numbers up to one constant. -/
def Shifted (positions groups : List Nat) (c : Int) : Prop :=
  positions.map (fun p : Nat => (p : Int)) = groups.map fun g : Nat => (g : Int) + c

/-- Next to a highest group that has its own position, so have the numbers that follow. -/
theorem shifted_positions64 (hhigh : r.highestGroup = some (unwrapped first top))
    (htop : first ≤ top) (hnear : Near top groups)
    (hfits : ∀ g ∈ groups, unwrapped first g < 2 ^ 64) :
    Shifted (r.positions64 groups) groups (unwrapped first first - first) := by
  induction groups generalizing r top with
  | nil => rfl
  | cons g groups ih =>
    obtain ⟨⟨hlow, hup⟩, hrest⟩ := hnear
    have hposition : r.position64 (UInt16.ofNat g) = unwrapped first g := by
      have hnat := position_near hhigh htop hlow hup
      rw [position64_eq (hnat ▸ hfits g mem_cons_self), hnat]
    refine congrArg₂ cons ?_ (ih ?_ (htop.trans (le_max_left top g)) hrest fun g' hg' =>
      hfits g' (mem_cons_of_mem _ hg'))
    · simp only [hposition, unwrapped]
      omega
    · change some (max (r.highestGroup.getD _) (r.position64 _)) = _
      rw [hposition, hhigh, Option.getD_some]
      unfold unwrapped
      congr 1
      omega

theorem position64_first :
    FecReceiver.empty.position64 (UInt16.ofNat first) = unwrapped first first :=
  position_first (r := FecReceiver.empty) rfl first

/-- The constant is that of the first number, and 64 bits must hold the others too. -/
theorem Shifted.fits {c : Int}
    (h : Shifted (FecReceiver.empty.positions64 (first :: groups)) (first :: groups) c)
    (hg : g ∈ first :: groups) : unwrapped first g < 2 ^ 64 := by
  have hfirst : ((unwrapped first first : Nat) : Int) = first + c := by
    rw [← position64_first]
    exact (cons.inj h).1
  have hmem := mem_map_of_mem (f := fun g : Nat => (g : Int) + c) hg
  rw [← h] at hmem
  obtain ⟨p, hp, heq⟩ := mem_map.mp hmem
  have hlt := positions64_lt (by decide) p hp
  unfold unwrapped at hfirst ⊢
  omega

/-- The positions of a run of near numbers are the numbers up to one constant, exactly as long as
they have room in 64 bits, and then no two groups share one. -/
theorem positions_shifted_iff (hnear : Near first groups) :
    let positions := FecReceiver.empty.positions64 (first :: groups)
    ((∃ c, Shifted positions (first :: groups) c) ↔
      ∀ g ∈ first :: groups, unwrapped first g < 2 ^ 64) ∧
    ∀ c, Shifted positions (first :: groups) c → ∀ i j : Nat, positions[i]? = positions[j]? →
      (first :: groups)[i]? = (first :: groups)[j]? := by
  intro positions
  refine ⟨⟨fun ⟨c, h⟩ g hg => h.fits hg, fun hfits =>
    ⟨unwrapped first first - first, congrArg₂ cons ?_ ?_⟩⟩, fun c h i j hsame => ?_⟩
  · simp only [position64_first, add_sub_cancel]
  · refine shifted_positions64 ?_ le_rfl hnear fun g hg => hfits g (mem_cons_of_mem _ hg)
    rw [← position64_first]
    exact congrArg some (max_self _)
  · have hmap := congrArg (Option.map fun p : Nat => (p : Int)) hsame
    rw [← getElem?_map, ← getElem?_map, h, getElem?_map, getElem?_map] at hmap
    exact Option.map_injective (fun g g' h => by simpa using h) hmap

theorem positions_shifted_iff_sample :
    FecReceiver.empty.positions64 [65535, 65536, 65530, 98303] = [131071, 131072, 131066, 163839] ∧
    ∃ c, Shifted (FecReceiver.empty.positions64 [65535, 65536, 65530, 98303])
      [65535, 65536, 65530, 98303] c :=
  ⟨by decide, (positions_shifted_iff (by simp [Near])).1.mpr (by decide)⟩

theorem near_range' (top n : Nat) : Near top (range' (top + 1) n) := by
  induction n generalizing top with
  | zero => trivial
  | succ n ih =>
    refine ⟨by omega, ?_⟩
    rw [max_eq_right (Nat.le_succ top)]
    exact ih (top + 1)

/-- Numbers that go up one by one for long enough run out of positions. -/
theorem long_run_not_shifted :
    Near 0 (range' 1 (2 ^ 64)) ∧ ∀ c, ¬ Shifted
      (FecReceiver.empty.positions64 (0 :: range' 1 (2 ^ 64))) (0 :: range' 1 (2 ^ 64)) c := by
  refine ⟨near_range' 0 _, fun c h => ?_⟩
  have hmem : 2 ^ 64 ∈ 0 :: range' 1 (2 ^ 64) :=
    mem_cons_of_mem _ (mem_range'_1.mpr ⟨by decide, by decide⟩)
  exact absurd (h.fits hmem) (by decide)

end AivpnSpec.Common
