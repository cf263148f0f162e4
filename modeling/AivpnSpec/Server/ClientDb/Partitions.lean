import AivpnSpec.Server.ClientDb.Allocation
import AivpnSpec.Server.ClientDb.Lookup

/-!
# The partitions of the address pool

`crates/aivpn-server/src/client_db/ip_allocation.rs:171-298, 366-400`. Every node of a pool gives
out addresses of its own slice of the host offsets. Additions are those of `u32` and fail where they
would overflow.
-/

namespace AivpnSpec.Server

open AivpnSpec.Base AivpnSpec.Common

/-- `PartitionBounds` with the index it was computed for, `ip_allocation.rs:23-35`. -/
structure PartitionAssignment extends PartitionBounds where
  index : Nat
  numPartitions : Nat
  explicit : Bool
  deriving DecidableEq, Repr

/-- An addition of `u32` that does not overflow. -/
def checkedAdd (a b : Nat) : Option Nat := if a + b < 2 ^ 32 then some (a + b) else none

/-- `u32::saturating_mul`. -/
def saturatingMul (a b : Nat) : Nat := min (a * b) (2 ^ 32 - 1)

/-- `compute_partition_bounds`, `ip_allocation.rs:376-400`. -/
def computePartitionBounds (maxHostOffset numPartitions index : Nat) (explicit : Bool) :
    Option PartitionAssignment := do
  let partitionSize := max (maxHostOffset / numPartitions) 1
  let first ← checkedAdd 1 (saturatingMul index partitionSize)
  let startOffset := min first maxHostOffset
  let next ← checkedAdd index 1
  let limit ← checkedAdd maxHostOffset 1
  if numPartitions ≤ next then
    some { startOffset, endOffset := limit, index, numPartitions, explicit }
  else
    let stop ← checkedAdd startOffset partitionSize
    some { startOffset, endOffset := min stop limit, index, numPartitions, explicit }

/-- `TARGET_NUM_PARTITIONS`, `ip_allocation.rs:174`. -/
def targetNumPartitions : Nat := 8

/-- `MIN_PARTITION_SIZE`, `ip_allocation.rs:179`. -/
def minPartitionSize : Nat := 8

/-- `MAX_PARTITION_SIZE`, `ip_allocation.rs:183`. -/
def maxPartitionSize : Nat := 254

namespace VpnNetworkConfig

/-- `default_num_partitions`, `ip_allocation.rs:197-205`. -/
def defaultNumPartitions (config : VpnNetworkConfig) : Nat :=
  if config.maxHostOffset < 2 then 1
  else
    let partitionSize :=
      max minPartitionSize (min (config.maxHostOffset / targetNumPartitions) maxPartitionSize)
    max (config.maxHostOffset / partitionSize) 1

/-- `host_offset`, `network_config.rs:177-179`. -/
def hostOffset (config : VpnNetworkConfig) (ip : Ipv4Addr) : Nat :=
  (ip &&& ~~~config.maskU32).toNat

end VpnNetworkConfig

namespace DbEnv

/-- `apply_partition`, `ip_allocation.rs:272-298`. -/
def applyPartition (env : DbEnv) (index numPartitions : Nat) (explicit : Bool) : Option DbEnv :=
  let maxHostOffset := env.networkConfig.maxHostOffset
  if maxHostOffset < 2 ∨ numPartitions ≤ 1 then some env
  else do
    let numPartitions := if maxHostOffset < numPartitions then maxHostOffset else numPartitions
    let bounds ←
      computePartitionBounds maxHostOffset numPartitions (index % numPartitions) explicit
    some { env with partition := some bounds.toPartitionBounds }

/-- `set_node_partition_explicit`, `ip_allocation.rs:265-271`. -/
def setNodePartitionExplicit (env : DbEnv) (index : Nat) (count : Option Nat) : Option DbEnv :=
  let numPartitions := count.getD env.networkConfig.defaultNumPartitions
  if numPartitions ≤ 1 then some env
  else env.applyPartition (index % numPartitions) numPartitions true

end DbEnv

namespace VpnNetworkConfig

variable {config : VpnNetworkConfig}

/-- The host bits are the low bits. -/
theorem exists_hostMask (config : VpnNetworkConfig) :
    ∃ k ≤ 32, (~~~config.maskU32).toNat = 2 ^ k - 1 := by
  have hshift : ∀ p < 32, 0 < p →
      (~~~((0xffffffff : UInt32) <<< UInt32.ofNat (32 - p))).toNat = 2 ^ (32 - p) - 1 := by
    decide +kernel
  unfold maskU32
  split
  · exact ⟨32, Nat.le_refl _, rfl⟩
  next hzero =>
  split
  · exact ⟨0, Nat.zero_le _, rfl⟩
  next hsmall =>
  refine ⟨32 - config.prefixLen.toNat, Nat.sub_le _ _, hshift _ (Nat.lt_of_not_le hsmall) ?_⟩
  refine Nat.pos_of_ne_zero fun h => hzero ?_
  exact UInt8.toNat_inj.mp h

theorem maxHostOffset_lt (config : VpnNetworkConfig) : config.maxHostOffset + 1 < 2 ^ 32 := by
  obtain ⟨k, hk, hmask⟩ := config.exists_hostMask
  have hpow := Nat.pow_le_pow_right (show 0 < 2 by decide) hk
  unfold maxHostOffset
  omega

/-- The address of an offset has that offset. -/
theorem hostOffset_ipForHostOffset {offset : Nat} {ip : Ipv4Addr}
    (h : config.ipForHostOffset offset = some ip) : config.hostOffset ip = offset := by
  unfold ipForHostOffset at h
  split at h
  · cases h
  next hoffset =>
  cases h
  obtain ⟨k, hk, hmask⟩ := config.exists_hostMask
  have hmax := config.maxHostOffset_lt
  have hlt : offset < 2 ^ k := by
    unfold maxHostOffset at hoffset
    omega
  have hnetwork : config.networkU32 &&& ~~~config.maskU32 = 0 := by
    rw [networkU32, UInt32.and_assoc, UInt32.and_not_self, UInt32.and_zero]
  have hnetworkNat := congrArg UInt32.toNat hnetwork
  rw [UInt32.toNat_and] at hnetworkNat
  rw [hostOffset, UInt32.toNat_and, UInt32.toNat_or, Nat.and_or_distrib_right, hnetworkNat, hmask,
    UInt32.toNat_ofNat_of_lt' (by change offset < 2 ^ 32; omega), Nat.and_two_pow_sub_one_eq_mod,
    Nat.mod_eq_of_lt hlt]
  exact Nat.zero_or offset

end VpnNetworkConfig

section Tiling

variable {maxHostOffset n index : Nat}

/-- The slice of an index: `maxHostOffset / n` offsets, the last slice up to the end. -/
def tile (maxHostOffset n index : Nat) : PartitionBounds where
  startOffset := 1 + index * (maxHostOffset / n)
  endOffset :=
    if index + 1 = n then maxHostOffset + 1 else 1 + (index + 1) * (maxHostOffset / n)

/-- The slices before the last one end inside the pool. -/
theorem tile_end_le (hindex : index < n) : (index + 1) * (maxHostOffset / n) ≤ maxHostOffset :=
  calc (index + 1) * (maxHostOffset / n)
      ≤ n * (maxHostOffset / n) := Nat.mul_le_mul_right _ hindex
    _ ≤ maxHostOffset := Nat.mul_div_le maxHostOffset n

/-- No addition overflows, no product saturates and no bound is cut: the bounds are the slice. -/
theorem computePartitionBounds_eq (hmax : maxHostOffset + 1 < 2 ^ 32) (hn : n ≤ maxHostOffset)
    (hindex : index < n) (explicit : Bool) :
    computePartitionBounds maxHostOffset n index explicit =
      some { tile maxHostOffset n index with index, numPartitions := n, explicit } := by
  have hsize : 1 ≤ maxHostOffset / n := (Nat.one_le_div_iff (by omega)).mpr hn
  have hend : (index + 1) * (maxHostOffset / n) ≤ maxHostOffset := tile_end_le hindex
  have hstart : index * (maxHostOffset / n) + maxHostOffset / n ≤ maxHostOffset := by
    rwa [Nat.succ_mul] at hend
  have hproduct : saturatingMul index (maxHostOffset / n) = index * (maxHostOffset / n) := by
    unfold saturatingMul
    omega
  have hadd : ∀ a b, a + b < 2 ^ 32 → checkedAdd a b = some (a + b) := fun a b h => if_pos h
  unfold computePartitionBounds
  dsimp only
  rw [Nat.max_eq_left hsize, hproduct, hadd 1 _ (by omega), hadd index 1 (by omega),
    hadd maxHostOffset 1 hmax]
  simp only [Option.bind_eq_bind, Option.bind_some]
  rw [Nat.min_eq_left (by omega), hadd _ _ (by omega), Option.bind_some, tile]
  by_cases hlast : index + 1 = n
  · rw [if_pos (by omega), if_pos hlast]
  · rw [if_neg (by omega), if_neg hlast, Nat.succ_mul, Nat.min_eq_left (by omega), Nat.add_assoc]

theorem tile_nonempty (hn : n ≤ maxHostOffset) (hindex : index < n) :
    (tile maxHostOffset n index).startOffset < (tile maxHostOffset n index).endOffset := by
  have hsize : 1 ≤ maxHostOffset / n := (Nat.one_le_div_iff (by omega)).mpr hn
  have hend : (index + 1) * (maxHostOffset / n) ≤ maxHostOffset := tile_end_le hindex
  rw [Nat.succ_mul] at hend
  unfold tile
  dsimp only
  split
  · omega
  · rw [Nat.succ_mul]
    omega

/-- A slice ends where a later one has not begun. -/
theorem tile_end_le_start {later : Nat} (hlt : index < later) (hlater : later < n) :
    (tile maxHostOffset n index).endOffset ≤ (tile maxHostOffset n later).startOffset := by
  have hmul : (index + 1) * (maxHostOffset / n) ≤ later * (maxHostOffset / n) :=
    Nat.mul_le_mul_right _ hlt
  unfold tile
  dsimp only
  rw [if_neg (by omega)]
  omega

theorem tile_disjoint {i j offset : Nat} (hi : i < n) (hj : j < n)
    (hin : InRange (tile maxHostOffset n i).startOffset (tile maxHostOffset n i).endOffset offset)
    (hin' : InRange (tile maxHostOffset n j).startOffset (tile maxHostOffset n j).endOffset offset) :
    i = j := by
  unfold InRange at hin hin'
  rcases Nat.lt_trichotomy i j with hlt | heq | hgt
  · have hend : (tile maxHostOffset n i).endOffset ≤ (tile maxHostOffset n j).startOffset :=
      tile_end_le_start hlt hj
    omega
  · exact heq
  · have hend : (tile maxHostOffset n j).endOffset ≤ (tile maxHostOffset n i).startOffset :=
      tile_end_le_start hgt hi
    omega

/-- Every offset of the pool lies in some slice, and no slice leaves the pool. -/
theorem exists_tile_iff (hpos : 0 < n) (hn : n ≤ maxHostOffset) (offset : Nat) :
    (∃ i < n, InRange (tile maxHostOffset n i).startOffset (tile maxHostOffset n i).endOffset
      offset) ↔ 1 ≤ offset ∧ offset ≤ maxHostOffset := by
  have hsize : 0 < maxHostOffset / n := Nat.div_pos hn hpos
  unfold InRange tile
  dsimp only
  constructor
  · rintro ⟨i, hi, hstart, hend⟩
    have hinside : (i + 1) * (maxHostOffset / n) ≤ maxHostOffset := tile_end_le hi
    split at hend <;> omega
  · rintro ⟨hlow, hhigh⟩
    -- The slice of an offset is the quotient by the size, the last one for the remainder.
    have hquotient := Nat.div_mul_le_self (offset - 1) (maxHostOffset / n)
    by_cases hlast : n - 1 ≤ (offset - 1) / (maxHostOffset / n)
    · have hmul : (n - 1) * (maxHostOffset / n) ≤
          (offset - 1) / (maxHostOffset / n) * (maxHostOffset / n) := Nat.mul_le_mul_right _ hlast
      refine ⟨n - 1, by omega, by omega, ?_⟩
      rw [if_pos (by omega)]
      omega
    · have hnext := Nat.lt_mul_div_succ (offset - 1) hsize
      rw [Nat.mul_comm] at hnext
      refine ⟨(offset - 1) / (maxHostOffset / n), by omega, by omega, ?_⟩
      rw [if_neg (by omega)]
      omega

end Tiling

variable {env env' : DbEnv} {n : Nat}

/-- A node gets the slice of its index. -/
theorem applyPartition_eq {index : Nat} (htwo : 2 ≤ n) (hn : n ≤ env.networkConfig.maxHostOffset)
    (explicit : Bool) :
    env.applyPartition index n explicit =
      some { env with partition := some (tile env.networkConfig.maxHostOffset n (index % n)) } := by
  unfold DbEnv.applyPartition
  dsimp only
  rw [if_neg (by omega), if_neg (by omega),
    computePartitionBounds_eq env.networkConfig.maxHostOffset_lt hn (Nat.mod_lt _ (by omega))]
  rfl

/-- A pinned index counts modulo the number of partitions. -/
theorem setNodePartitionExplicit_eq {index : Nat} {count : Option Nat}
    (hcount : count.getD env.networkConfig.defaultNumPartitions = n) (htwo : 2 ≤ n)
    (hn : n ≤ env.networkConfig.maxHostOffset) :
    env.setNodePartitionExplicit index count =
      some { env with partition := some (tile env.networkConfig.maxHostOffset n (index % n)) } := by
  unfold DbEnv.setNodePartitionExplicit
  rw [hcount]
  dsimp only
  rw [if_neg (by omega), applyPartition_eq htwo hn, Nat.mod_mod]

/-- An address that a node with a slice gives out has its offset in the slice. -/
theorem hostOffset_inRange {bounds : PartitionBounds} {data data' : ClientDbFile} {ip : Ipv4Addr}
    (h : allocateVpnIp { env with partition := some bounds } data = .ok (ip, data')) :
    InRange bounds.startOffset bounds.endOffset (env.networkConfig.hostOffset ip) := by
  obtain ⟨offset, ⟨hin, hip, -⟩, -⟩ := allocateVpnIp_eq_ok h
  rw [VpnNetworkConfig.hostOffset_ipForHostOffset hip]
  exact hin

/-- Nodes with different slices of one pool never give out the same offset. -/
theorem hostOffset_ne_of_tile {maxHostOffset i j : Nat} (hi : i < n) (hj : j < n) (hne : i ≠ j)
    {data data' after after' : ClientDbFile} {ip ip' : Ipv4Addr}
    (h : allocateVpnIp { env with partition := some (tile maxHostOffset n i) } data =
      .ok (ip, after))
    (h' : allocateVpnIp { env' with partition := some (tile maxHostOffset n j) } data' =
      .ok (ip', after')) :
    env.networkConfig.hostOffset ip ≠ env'.networkConfig.hostOffset ip' := by
  intro hsame
  have hin := hostOffset_inRange h
  rw [hsame] at hin
  exact hne (tile_disjoint hi hj hin (hostOffset_inRange h'))

/-- The partitions tile the pool: for every subnet and every number of partitions up to that of its
hosts, the bounds are computed without overflow, no slice is empty, no two of them meet, and
together they are the offsets of the pool. Two nodes whose pinned indices differ modulo the number
of partitions never give out the same offset, whatever records they have. -/
theorem partitions_tile {config : VpnNetworkConfig} {n : Nat} (hpos : 1 ≤ n)
    (hn : n ≤ config.maxHostOffset) :
    (∀ explicit, ∃ bounds : Nat → PartitionAssignment,
      (∀ i < n, computePartitionBounds config.maxHostOffset n i explicit = some (bounds i)) ∧
      (∀ i < n, (bounds i).startOffset < (bounds i).endOffset) ∧
      (∀ i < n, ∀ j < n, i ≠ j → ∀ offset,
        ¬(InRange (bounds i).startOffset (bounds i).endOffset offset ∧
          InRange (bounds j).startOffset (bounds j).endOffset offset)) ∧
      ∀ offset, (∃ i < n, InRange (bounds i).startOffset (bounds i).endOffset offset) ↔
        1 ≤ offset ∧ offset ≤ config.maxHostOffset) ∧
    ∀ (env env' : DbEnv) (index index' : Nat) (count count' : Option Nat),
      env.networkConfig.maxHostOffset = config.maxHostOffset →
      env'.networkConfig.maxHostOffset = config.maxHostOffset →
      count.getD env.networkConfig.defaultNumPartitions = n →
      count'.getD env'.networkConfig.defaultNumPartitions = n → index % n ≠ index' % n →
      ∃ node node', env.setNodePartitionExplicit index count = some node ∧
        env'.setNodePartitionExplicit index' count' = some node' ∧
        ∀ data data' after after' ip ip', allocateVpnIp node data = .ok (ip, after) →
          allocateVpnIp node' data' = .ok (ip', after') →
          env.networkConfig.hostOffset ip ≠ env'.networkConfig.hostOffset ip' := by
  refine ⟨fun explicit => ?_, ?_⟩
  · refine ⟨fun i =>
      { tile config.maxHostOffset n i with index := i, numPartitions := n, explicit }, ?_, ?_, ?_, ?_⟩
    · intro i hi
      exact computePartitionBounds_eq config.maxHostOffset_lt hn hi explicit
    · intro i hi
      exact tile_nonempty hn hi
    · rintro i hi j hj hne offset ⟨hin, hin'⟩
      exact hne (tile_disjoint hi hj hin hin')
    · exact exists_tile_iff hpos hn
  · intro env env' index index' count count' henv henv' hcount hcount' hne
    have htwo : 2 ≤ n := by
      by_contra hone
      have hn1 : n = 1 := by omega
      rw [hn1, Nat.mod_one, Nat.mod_one] at hne
      exact hne rfl
    refine ⟨_, _, setNodePartitionExplicit_eq hcount htwo (henv ▸ hn),
      setNodePartitionExplicit_eq hcount' htwo (henv' ▸ hn), ?_⟩
    intro data data' after after' ip ip' hgiven hgiven'
    rw [henv] at hgiven
    rw [henv'] at hgiven'
    exact hostOffset_ne_of_tile (Nat.mod_lt _ hpos) (Nat.mod_lt _ hpos) hne hgiven hgiven'

/-- On a /24 with the default number of partitions the nodes pinned to 0 and 1 never meet. -/
theorem partitions_tile_smallNode :
    smallNode.networkConfig.defaultNumPartitions = 8 ∧
    ∃ node node', smallNode.setNodePartitionExplicit 0 none = some node ∧
      smallNode.setNodePartitionExplicit 1 none = some node' ∧
      ∀ data data' after after' ip ip', allocateVpnIp node data = .ok (ip, after) →
        allocateVpnIp node' data' = .ok (ip', after') →
        smallNode.networkConfig.hostOffset ip ≠ smallNode.networkConfig.hostOffset ip' := by
  have hcount : smallNode.networkConfig.defaultNumPartitions = 8 := by decide +kernel
  have hn : 8 ≤ smallNode.networkConfig.maxHostOffset := by decide +kernel
  exact ⟨hcount, (partitions_tile (by decide) hn).2 smallNode smallNode 0 1 none none rfl rfl hcount
    hcount (by decide)⟩

/-- Nodes pinned to 0 and 8 share one of eight partitions and give out the same address. -/
theorem explicit_indices_collide :
    smallNode.networkConfig.defaultNumPartitions = 8 ∧
    8 ≤ smallNode.networkConfig.maxHostOffset ∧
    ∃ node node' ip after after', smallNode.setNodePartitionExplicit 0 none = some node ∧
      smallNode.setNodePartitionExplicit 8 none = some node' ∧
      allocateVpnIp node .empty = .ok (ip, after) ∧ allocateVpnIp node' .empty = .ok (ip, after') := by
  refine ⟨by decide +kernel, by decide +kernel,
    { smallNode with partition := some ⟨1, 32⟩ }, { smallNode with partition := some ⟨1, 32⟩ },
    0x0a000002, ⟨[], 3⟩, ⟨[], 3⟩, ?_, ?_, by decide +kernel, by decide +kernel⟩
  · rfl
  · rfl

end AivpnSpec.Server
