import AivpnSpec.Base.CyclicSearch
import AivpnSpec.Server.ClientDb.Addresses

/-!
# Allocation is sound and complete

Both allocators go once around the node's range. Wherever they begin, be it a cursor left behind by
another partition layout or the hash of an id, they find an address exactly if one is free.

`allocate_vpn_ip` works on the data in place; `allocateVpnIpMut` is that reading of it, with the
data threaded through the loop, and agrees with `allocateVpnIp`, which the operations of the
database are modelled with.
-/

namespace AivpnSpec.Server

open AivpnSpec.Base AivpnSpec.Common

/-- The loop of `allocate_vpn_ip` on the data it was given, `ip_allocation.rs:124-152`. -/
def allocateLoop (env : DbEnv) (start stop : Nat) :
    Nat → Nat → ClientDbFile → Option Ipv4Addr × ClientDbFile
  | 0, _, data => (none, data)
  | steps + 1, offset, data =>
    match freeAt env data.clients offset with
    | some ip => (some ip, { data with nextHostOffset := nextOffset start stop offset })
    | none => allocateLoop env start stop steps (nextOffset start stop offset) data

/-- `allocate_vpn_ip`, `ip_allocation.rs:91-169`: the answer, and what the data is after it. -/
def allocateVpnIpMut (env : DbEnv) (data : ClientDbFile) : Except Error Ipv4Addr × ClientDbFile :=
  if env.networkConfig.maxHostOffset < 1 then
    (.error (.session "Configured VPN subnet has no usable host addresses"), data)
  else
    let (start, stop) := env.offsetRange
    if stop ≤ start then
      (.error (.session "node IP partition exhausted; increase subnet size or partition capacity"),
        data)
    else
      let first :=
        if data.nextHostOffset = 0 ∨ ¬(start ≤ data.nextHostOffset ∧ data.nextHostOffset < stop)
        then start else data.nextHostOffset
      match allocateLoop env start stop (stop - start) first data with
      | (some ip, data) => (.ok ip, data)
      | (none, data) =>
        if env.partition.isSome then
          (.error (.session (s!"node IP partition exhausted (offsets {start}..{stop - 1} of " ++
            "subnet); increase subnet size or partition capacity")), data)
        else (.error (.session "No more VPN IPs available in configured subnet"), data)

/-- The node may give out the address at the offset: it lies in the active range and belongs neither
to the server nor to a live client. -/
def Offers (env : DbEnv) (clients : List ClientConfig) (offset : Nat) (ip : Ipv4Addr) : Prop :=
  InRange env.offsetRange.1 env.offsetRange.2 offset ∧
    env.networkConfig.ipForHostOffset offset = some ip ∧ Free env clients ip

variable {env : DbEnv} {clients : List ClientConfig} {data : ClientDbFile}
  {start stop offset first : Nat} {ip : Ipv4Addr}

theorem freeAt_eq_some :
    freeAt env clients offset = some ip ↔
      env.networkConfig.ipForHostOffset offset = some ip ∧ Free env clients ip := by
  constructor
  · intro h
    exact ⟨(Option.filter_eq_some_iff.mp h).1, freeAt_free h⟩
  · rintro ⟨hip, hserver, hheld⟩
    refine Option.filter_eq_some_iff.mpr ⟨hip, ?_⟩
    have hnone : clients.any (heldBy ip) = false := by
      rw [List.any_eq_false]
      intro c hc hholds
      simp only [heldBy, Bool.decide_and, Bool.and_eq_true, decide_eq_true_eq] at hholds
      exact hheld c hc hholds.2 hholds.1
    simp [hserver, hnone]

theorem probe_eq (steps first : Nat) :
    probe env clients start stop steps first =
      cyclicSearch (freeAt env clients) start stop steps first := by
  induction steps generalizing first with
  | zero => rfl
  | succ steps ih =>
    rw [probe, cyclicSearch]
    cases freeAt env clients first with
    | some ip => rfl
    | none => exact ih _

theorem allocateLoop_eq (steps first : Nat) :
    allocateLoop env start stop steps first data =
      match probe env data.clients start stop steps first with
      | some (offset, ip) => (some ip, { data with nextHostOffset := nextOffset start stop offset })
      | none => (none, data) := by
  induction steps generalizing first with
  | zero => rfl
  | succ steps ih =>
    rw [allocateLoop, probe]
    cases freeAt env data.clients first with
    | some ip => rfl
    | none => exact ih _

/-- The allocation in place is the one that returns the changed data. -/
theorem allocateVpnIpMut_eq (env : DbEnv) (data : ClientDbFile) :
    allocateVpnIpMut env data =
      match allocateVpnIp env data with
      | .ok (ip, data') => (.ok ip, data')
      | .error e => (.error e, data) := by
  unfold allocateVpnIpMut allocateVpnIp
  split
  · rfl
  dsimp only
  split
  · rfl
  rw [allocateLoop_eq]
  generalize probe env data.clients env.offsetRange.1 env.offsetRange.2 _ _ = found
  cases found with
  | some found => rfl
  | none =>
    dsimp only
    split <;> rfl

/-- Where the subnet has no host, no offset has an address. -/
theorem not_offers_of_no_hosts (h : env.networkConfig.maxHostOffset < 1) (offset : Nat)
    (ip : Ipv4Addr) : ¬Offers env clients offset ip := by
  rintro ⟨-, hip, -⟩
  unfold VpnNetworkConfig.ipForHostOffset at hip
  rw [if_pos (by omega)] at hip
  cases hip

/-- A search around the whole range from anywhere in it. -/
theorem probe_isSome_iff (hfirst : InRange env.offsetRange.1 env.offsetRange.2 first) :
    (∃ found, probe env clients env.offsetRange.1 env.offsetRange.2
        (env.offsetRange.2 - env.offsetRange.1) first = some found) ↔
      ∃ offset ip, Offers env clients offset ip := by
  rw [probe_eq, cyclicSearch_isSome_iff hfirst]
  simp only [freeAt_eq_some, Offers]

theorem offers_of_probe {steps : Nat} (hfirst : InRange env.offsetRange.1 env.offsetRange.2 first)
    (h : probe env clients env.offsetRange.1 env.offsetRange.2 steps first = some (offset, ip)) :
    Offers env clients offset ip := by
  rw [probe_eq] at h
  obtain ⟨hin, hfree⟩ := cyclicSearch_eq_some hfirst h
  exact ⟨hin, freeAt_eq_some.mp hfree⟩

/-- The offset the allocator begins with lies in the range, whatever cursor was stored. -/
theorem inRange_first (hrange : start < stop) (cursor : Nat) :
    InRange start stop
      (if cursor = 0 ∨ ¬(start ≤ cursor ∧ cursor < stop) then start else cursor) := by
  split
  · exact ⟨Nat.le_refl _, hrange⟩
  · next h =>
    rw [not_or, not_not] at h
    exact h.2

theorem inRange_seed (hrange : start < stop) (seed : Nat) :
    InRange start stop (start + seed % (stop - start)) := by
  have hlt := Nat.mod_lt seed (Nat.sub_pos_of_lt hrange)
  unfold InRange
  omega

/-- An allocation gives out an address that is on offer, and moves only the cursor. -/
theorem allocateVpnIp_eq_ok {data' : ClientDbFile} (h : allocateVpnIp env data = .ok (ip, data')) :
    ∃ offset, Offers env data.clients offset ip ∧
      data' = { data with nextHostOffset := nextIn env.offsetRange.1 env.offsetRange.2 offset } := by
  unfold allocateVpnIp at h
  split at h
  · cases h
  dsimp only at h
  split at h
  · cases h
  next hrange =>
  split at h
  · next offset found hfound =>
    cases h
    exact ⟨offset, offers_of_probe (inRange_first (Nat.lt_of_not_le hrange) _) hfound, rfl⟩
  · split at h <;> cases h

/-- An allocation succeeds wherever an address is on offer. -/
theorem exists_allocateVpnIp_iff (env : DbEnv) (data : ClientDbFile) :
    (∃ ip data', allocateVpnIp env data = .ok (ip, data')) ↔
      ∃ offset ip, Offers env data.clients offset ip := by
  constructor
  · rintro ⟨ip, data', h⟩
    obtain ⟨offset, hoffers, -⟩ := allocateVpnIp_eq_ok h
    exact ⟨offset, ip, hoffers⟩
  · intro hsome
    obtain ⟨offset, ip, hoffers⟩ := hsome
    have hrange : env.offsetRange.1 < env.offsetRange.2 :=
      Nat.lt_of_le_of_lt hoffers.1.1 hoffers.1.2
    obtain ⟨found, hfound⟩ :=
      (probe_isSome_iff (inRange_first hrange data.nextHostOffset)).mpr ⟨offset, ip, hoffers⟩
    unfold allocateVpnIp
    rw [if_neg fun hhosts => not_offers_of_no_hosts hhosts offset ip hoffers]
    dsimp only
    rw [if_neg (Nat.not_le.mpr hrange), hfound]
    exact ⟨_, _, rfl⟩

/-- A re-homed client gets an address that is on offer. -/
theorem deterministicReassignOffset_eq_some {clientId : String}
    (h : deterministicReassignOffset env clientId data = some ip) :
    ∃ offset, Offers env data.clients offset ip := by
  unfold deterministicReassignOffset at h
  split at h
  · cases h
  dsimp only at h
  split at h
  · cases h
  next hrange =>
  obtain ⟨⟨offset, found⟩, hfound, rfl⟩ := Option.map_eq_some_iff.mp h
  exact ⟨offset, offers_of_probe (inRange_seed (Nat.lt_of_not_le hrange) _) hfound⟩

/-- A client is re-homed wherever an address is on offer. -/
theorem exists_deterministicReassignOffset_iff (env : DbEnv) (clientId : String)
    (data : ClientDbFile) :
    (∃ ip, deterministicReassignOffset env clientId data = some ip) ↔
      ∃ offset ip, Offers env data.clients offset ip := by
  constructor
  · rintro ⟨ip, h⟩
    obtain ⟨offset, hoffers⟩ := deterministicReassignOffset_eq_some h
    exact ⟨offset, ip, hoffers⟩
  · rintro ⟨offset, ip, hoffers⟩
    have hrange : env.offsetRange.1 < env.offsetRange.2 :=
      Nat.lt_of_le_of_lt hoffers.1.1 hoffers.1.2
    obtain ⟨found, hfound⟩ :=
      (probe_isSome_iff (inRange_seed hrange (fnv1aHash (utf8 clientId)).toNat)).mpr
        ⟨offset, ip, hoffers⟩
    unfold deterministicReassignOffset
    rw [if_neg fun hhosts => not_offers_of_no_hosts hhosts offset ip hoffers]
    dsimp only
    rw [if_neg (Nat.not_le.mpr hrange), hfound]
    exact ⟨found.2, rfl⟩

/-- Whatever the records, the stored cursor and the range of the node: `allocate_vpn_ip` succeeds
exactly if some offset of the active range has an address that neither the server nor a live client
holds; the address it returns is one of these, the cursor stays in the range and the records stay as
they are, and a failed call leaves the data as it was. Re-homing a client by its id finds an address
under the same condition, and one of the same kind. -/
theorem allocation_sound_and_complete (env : DbEnv) (data : ClientDbFile) (clientId : String) :
    ((∃ ip, (allocateVpnIpMut env data).1 = .ok ip) ↔
      ∃ offset ip, Offers env data.clients offset ip) ∧
    (∀ ip, (allocateVpnIpMut env data).1 = .ok ip →
      (∃ offset, Offers env data.clients offset ip) ∧
      InRange env.offsetRange.1 env.offsetRange.2 (allocateVpnIpMut env data).2.nextHostOffset ∧
      (allocateVpnIpMut env data).2.clients = data.clients) ∧
    (∀ e, (allocateVpnIpMut env data).1 = .error e → (allocateVpnIpMut env data).2 = data) ∧
    ((∃ ip, deterministicReassignOffset env clientId data = some ip) ↔
      ∃ offset ip, Offers env data.clients offset ip) ∧
    ∀ ip, deterministicReassignOffset env clientId data = some ip →
      ∃ offset, Offers env data.clients offset ip := by
  have hiff := exists_allocateVpnIp_iff env data
  rw [allocateVpnIpMut_eq]
  refine ⟨?_, ?_, ?_, exists_deterministicReassignOffset_iff env clientId data,
    fun ip => deterministicReassignOffset_eq_some⟩
  · rw [← hiff]
    cases allocateVpnIp env data with
    | error e => simp
    | ok given => exact ⟨fun _ => ⟨given.1, given.2, rfl⟩, fun _ => ⟨given.1, rfl⟩⟩
  · intro ip hip
    cases hgiven : allocateVpnIp env data with
    | error e =>
      rw [hgiven] at hip
      cases hip
    | ok given =>
      rw [hgiven] at hip
      cases hip
      obtain ⟨offset, hoffers, hdata⟩ := allocateVpnIp_eq_ok hgiven
      rw [hdata]
      exact ⟨⟨offset, hoffers⟩, hoffers.1.nextIn, rfl⟩
  · intro e he
    cases hgiven : allocateVpnIp env data with
    | error e' => rfl
    | ok given =>
      rw [hgiven] at he
      cases he

end AivpnSpec.Server
