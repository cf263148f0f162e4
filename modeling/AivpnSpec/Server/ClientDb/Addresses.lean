import AivpnSpec.Server.ClientDb.Record

/-!
# Choosing VPN addresses

`crates/aivpn-server/src/client_db/ip_allocation.rs` and the subnet arithmetic of
`crates/aivpn-common/src/network_config.rs`. Both allocators walk the node's slice of the
subnet once, from the cursor or from a hash of the client's id, and take the first address
that neither the server nor a live client holds.
-/

namespace AivpnSpec.Server

open AivpnSpec.Base AivpnSpec.Common

/-- The part of `VpnNetworkConfig` that addresses depend on, `network_config.rs:49-54`. -/
structure VpnNetworkConfig where
  serverVpnIp : Ipv4Addr
  prefixLen : UInt8
  deriving DecidableEq, Repr

namespace VpnNetworkConfig

variable (config : VpnNetworkConfig)

/-- `mask_u32`, `network_config.rs:225-233`. -/
def maskU32 : UInt32 :=
  if config.prefixLen = 0 then 0
  else if 32 ≤ config.prefixLen.toNat then 0xffffffff
  else 0xffffffff <<< UInt32.ofNat (32 - config.prefixLen.toNat)

/-- `network_u32`, `network_config.rs:221-223`. -/
def networkU32 : UInt32 := config.serverVpnIp &&& config.maskU32

/-- `max_host_offset`, `network_config.rs:181-184`. -/
def maxHostOffset : Nat := (~~~config.maskU32).toNat - 1

/-- `ip_for_host_offset`, `network_config.rs:190-195`. -/
def ipForHostOffset (offset : Nat) : Option Ipv4Addr :=
  if offset = 0 ∨ config.maxHostOffset < offset then none
  else some (config.networkU32 ||| UInt32.ofNat offset)

end VpnNetworkConfig

/-- The offsets a node may allocate from, `ip_allocation.rs:23-35`; the end is exclusive. -/
structure PartitionBounds where
  startOffset : Nat
  endOffset : Nat
  deriving DecidableEq, Repr

/-- What the database of a node is configured with, the hash, and `trim().is_empty()`. -/
structure DbEnv where
  networkConfig : VpnNetworkConfig
  partition : Option PartitionBounds
  hash : PoolHash
  blank : String → Bool

def heldBy (ip : Ipv4Addr) (c : ClientConfig) : Bool := c.vpnIp = ip ∧ c.deleted = false

variable (env : DbEnv) {clients : List ClientConfig} {ip : Ipv4Addr} {data : ClientDbFile}
  {offset : Nat}

def Free (clients : List ClientConfig) (ip : Ipv4Addr) : Prop :=
  ip ≠ env.networkConfig.serverVpnIp ∧ ∀ c ∈ clients, c.deleted = false → c.vpnIp ≠ ip

def freeAt (clients : List ClientConfig) (offset : Nat) : Option Ipv4Addr :=
  (env.networkConfig.ipForHostOffset offset).filter fun ip =>
    ip ≠ env.networkConfig.serverVpnIp && !clients.any (heldBy ip)

/-- The offset after this one, back to the start at the end of the range. -/
def nextOffset (start stop offset : Nat) : Nat :=
  if stop ≤ offset + 1 then start else offset + 1

/-- The search of both allocators, `ip_allocation.rs:124-152, 348-363`: at most `steps` offsets,
beginning with `offset`. -/
def probe (env : DbEnv) (clients : List ClientConfig) (start stop : Nat) :
    Nat → Nat → Option (Nat × Ipv4Addr)
  | 0, _ => none
  | steps + 1, offset =>
    match freeAt env clients offset with
    | some ip => some (offset, ip)
    | none => probe env clients start stop steps (nextOffset start stop offset)

/-- The offsets to search, `ip_allocation.rs:99-103, 335-339`. -/
def DbEnv.offsetRange : Nat × Nat :=
  match env.partition with
  | some p => (p.startOffset, p.endOffset)
  | none => (1, env.networkConfig.maxHostOffset + 1)

/-- `allocate_vpn_ip`, `ip_allocation.rs:91-169`: the address, and the data with its cursor
moved behind it. -/
def allocateVpnIp (data : ClientDbFile) : Except Error (Ipv4Addr × ClientDbFile) :=
  if env.networkConfig.maxHostOffset < 1 then
    .error (.session "Configured VPN subnet has no usable host addresses")
  else
    let (start, stop) := env.offsetRange
    if stop ≤ start then
      .error (.session "node IP partition exhausted; increase subnet size or partition capacity")
    else
      let first :=
        if data.nextHostOffset = 0 ∨ ¬(start ≤ data.nextHostOffset ∧ data.nextHostOffset < stop)
        then start else data.nextHostOffset
      match probe env data.clients start stop (stop - start) first with
      | some (offset, ip) => .ok (ip, { data with nextHostOffset := nextOffset start stop offset })
      | none =>
        if env.partition.isSome then
          .error (.session (s!"node IP partition exhausted (offsets {start}..{stop - 1} of " ++
            "subnet); increase subnet size or partition capacity"))
        else .error (.session "No more VPN IPs available in configured subnet")

/-- `fnv1a_hash`, `ip_allocation.rs:404-411`. -/
def fnv1aHash (bytes : Bytes) : UInt64 :=
  bytes.foldl (fun hash b => (hash ^^^ b.toUInt64) * 0x100000001b3) 0xcbf29ce484222325

/-- `deterministic_reassign_offset`, `ip_allocation.rs:326-364`. -/
def deterministicReassignOffset (clientId : String) (data : ClientDbFile) : Option Ipv4Addr :=
  if env.networkConfig.maxHostOffset < 1 then none
  else
    let (start, stop) := env.offsetRange
    if stop ≤ start then none
    else
      let seed := (fnv1aHash (utf8 clientId)).toNat
      (probe env data.clients start stop (stop - start) (start + seed % (stop - start))).map
        fun found => found.2

theorem freeAt_free {env : DbEnv} (h : freeAt env clients offset = some ip) :
    Free env clients ip := by
  obtain ⟨-, hfree⟩ := Option.filter_eq_some_iff.mp h
  simp only [Bool.and_eq_true, Bool.not_eq_true', decide_eq_true_eq] at hfree
  refine ⟨hfree.1, ?_⟩
  intro c hc hlive hip
  have hheld : clients.any (heldBy ip) = true :=
    List.any_eq_true.mpr ⟨c, hc, by simp [heldBy, hlive, hip]⟩
  rw [hfree.2] at hheld
  cases hheld

/-- The search only returns free addresses. -/
theorem probe_free {env : DbEnv} {start stop : Nat} {steps first : Nat}
    (h : probe env clients start stop steps first = some (offset, ip)) : Free env clients ip := by
  induction steps generalizing first with
  | zero => cases h
  | succ steps ih =>
    unfold probe at h
    cases hf : freeAt env clients first with
    | some found =>
      simp only [hf, Option.some.injEq, Prod.mk.injEq] at h
      rw [← h.2]
      exact freeAt_free hf
    | none =>
      simp only [hf] at h
      exact ih h

/-- A new client gets a free address, and the records stay as they are. -/
theorem allocateVpnIp_spec {env : DbEnv} {data' : ClientDbFile}
    (h : allocateVpnIp env data = .ok (ip, data')) :
    Free env data.clients ip ∧ data'.clients = data.clients := by
  unfold allocateVpnIp at h
  split at h
  · cases h
  simp only at h
  split at h
  · cases h
  split at h
  · next offset found hfound =>
    cases h
    exact ⟨probe_free hfound, rfl⟩
  · split at h <;> cases h

/-- A re-homed client gets a free address. -/
theorem deterministicReassignOffset_free {env : DbEnv} {clientId : String}
    (h : deterministicReassignOffset env clientId data = some ip) : Free env data.clients ip := by
  unfold deterministicReassignOffset at h
  split at h
  · cases h
  simp only at h
  split at h
  · cases h
  · obtain ⟨found, hfound, hip⟩ := Option.map_eq_some_iff.mp h
    rw [← hip]
    exact probe_free hfound

end AivpnSpec.Server
