import AivpnSpec.Base.FirstMatch
import AivpnSpec.Server.ClientDb.Addresses

/-!
# Merging a peer's records

The body of `merge_from_json`, `crates/aivpn-server/src/client_db/merge.rs:236-461`, and the
reaping of old tombstones. A known client takes over the version of higher rank; an unknown
one is inserted, and whichever of two claimants of an address is younger is re-homed.
-/

namespace AivpnSpec.Server

open AivpnSpec.Base AivpnSpec.Common

def hasId (id : String) (c : ClientConfig) : Bool := c.id = id

/-- `TOMBSTONE_TTL`, thirty days, `merge.rs:163`. -/
def tombstoneTtl : Int := 30 * 24 * 60 * 60 * 1000000000

def expiredTombstone (now : Int) (c : ClientConfig) : Bool :=
  c.deleted && c.updatedAt.any fun t => t < now - tombstoneTtl

/-- `reap_expired_tombstones`, `merge.rs:169-174`. -/
def reapExpiredTombstones (now : Int) (clients : List ClientConfig) : List ClientConfig :=
  clients.filter fun c => !expiredTombstone now c

/-- The assignments to a known record, `merge.rs:285-317`. A deleted record is never enabled. -/
def ClientConfig.adopt (existing inc : ClientConfig) : ClientConfig :=
  { existing with
    name := inc.name
    enabled := inc.enabled && !inc.deleted
    qos := inc.qos
    deleted := inc.deleted
    updatedAt := inc.updatedAt
    expiresAt := inc.expiresAt
    devicePubkey := inc.devicePubkey
    oneTime := inc.oneTime
    role := inc.role
    exitNode := inc.exitNode }

/-- The record came into being before the other, `merge.rs:371-377`. -/
def ClientConfig.olderThan (a b : ClientConfig) : Bool :=
  a.createdAt < b.createdAt ∨ a.createdAt = b.createdAt ∧ a.id < b.id

/-- A live record of another client at the address of the incoming one, `merge.rs:366-369`. -/
def conflictsWith (inc c : ClientConfig) : Bool :=
  c.vpnIp = inc.vpnIp ∧ c.id ≠ inc.id ∧ c.deleted = false

variable (env : DbEnv) (data : ClientDbFile) (inc : ClientConfig)

/-- An incoming record at the server's address is moved, `merge.rs:349-364`. -/
def avoidServerIp : Option ClientConfig :=
  if inc.vpnIp = env.networkConfig.serverVpnIp then
    (deterministicReassignOffset env inc.id data).map fun ip => { inc with vpnIp := ip }
  else some inc

/-- The younger of two claimants of an address is moved, `merge.rs:365-434`. -/
def resolveConflict : Option (ClientDbFile × ClientConfig) :=
  match data.clients.find? (conflictsWith inc) with
  | none => some (data, inc)
  | some resident =>
    if inc.olderThan resident then
      (deterministicReassignOffset env resident.id data).map fun ip =>
        ({ data with
            clients := modifyFirst (conflictsWith inc) (fun c => { c with vpnIp := ip })
              data.clients },
          inc)
    else
      (deterministicReassignOffset env inc.id data).map fun ip => (data, { inc with vpnIp := ip })

/-- Insertion of an unknown live record; none if no address is left for one of the two. -/
def insertIncoming : Option ClientDbFile :=
  match avoidServerIp env data inc with
  | none => none
  | some inc =>
    match resolveConflict env data inc with
    | none => none
    | some (data, inc) => some { data with clients := data.clients ++ [inc] }

/-- What became of one incoming record. -/
inductive MergeOutcome where
  | unchanged
  | merged
  | noAddress
  deriving DecidableEq, Repr

/-- One iteration of the merge loop, `merge.rs:238-437`. -/
def mergeRecord : MergeOutcome × ClientDbFile :=
  match data.clients.find? (hasId inc.id) with
  | some existing =>
    if existing.psk = inc.psk ∧ incomingWins env.hash existing inc = true then
      (.merged,
        { data with clients := modifyFirst (hasId inc.id) (fun c => c.adopt inc) data.clients })
    else (.unchanged, data)
  | none =>
    if inc.deleted then (.merged, { data with clients := data.clients ++ [inc] })
    else
      match insertIncoming env data inc with
      | some data => (.merged, data)
      | none => (.noAddress, data)

def mergeLoop (env : DbEnv) (data : ClientDbFile) : List ClientConfig → Nat × ClientDbFile
  | [] => (0, data)
  | inc :: incoming =>
    let step := mergeRecord env data inc
    let rest := mergeLoop env step.2 incoming
    (if step.1 = .merged then rest.1 + 1 else rest.1, rest.2)

/-- The closure `merge_from_json` runs, `merge.rs:236-459`. -/
def mergeClients (now : Int) (incoming : List ClientConfig) (data : ClientDbFile) :
    Nat × ClientDbFile :=
  let out := mergeLoop env data incoming
  (out.1, { out.2 with clients := reapExpiredTombstones now out.2.clients })

/-- The four things an incoming record can do: nothing, win over the known record, come in as a
new record, or come in and move a younger resident away. -/
inductive MergeEffect (env : DbEnv) (data : ClientDbFile) (inc : ClientConfig) :
    MergeOutcome × ClientDbFile → Prop where
  | unchanged (existing : ClientConfig) (hf : data.clients.find? (hasId inc.id) = some existing)
      (hlose : existing.psk = inc.psk → ¬existing.version.rank env.hash < inc.version.rank env.hash) :
      MergeEffect env data inc (.unchanged, data)
  | adopted (existing : ClientConfig) (hf : data.clients.find? (hasId inc.id) = some existing)
      (hpsk : existing.psk = inc.psk)
      (hwin : existing.version.rank env.hash < inc.version.rank env.hash) :
      MergeEffect env data inc (.merged,
        { data with clients := modifyFirst (hasId inc.id) (fun c => c.adopt inc) data.clients })
  | inserted (ip : Ipv4Addr) (hf : data.clients.find? (hasId inc.id) = none)
      (hfree : inc.deleted = false → Free env data.clients ip) :
      MergeEffect env data inc
        (.merged, { data with clients := data.clients ++ [{ inc with vpnIp := ip }] })
  | displaced (resident : ClientConfig) (ip : Ipv4Addr)
      (hf : data.clients.find? (hasId inc.id) = none) (hlive : inc.deleted = false)
      (hserver : inc.vpnIp ≠ env.networkConfig.serverVpnIp)
      (hres : data.clients.find? (conflictsWith inc) = some resident)
      (hold : inc.olderThan resident = true) (hfree : Free env data.clients ip) :
      MergeEffect env data inc
        (.merged,
          { data with
            clients := modifyFirst (conflictsWith inc) (fun c => { c with vpnIp := ip })
              data.clients ++ [inc] })
  | noAddress (hf : data.clients.find? (hasId inc.id) = none) :
      MergeEffect env data inc (.noAddress, data)

/-- A tombstone is only replaced by a tombstone. -/
theorem deleted_of_outranked {hash : PoolHash} {existing inc : ClientConfig}
    (hwin : existing.version.rank hash < inc.version.rank hash) (hdel : existing.deleted = true) :
    inc.deleted = true := by
  rw [← incomingWins_iff] at hwin
  unfold incomingWins at hwin
  cases hinc : inc.deleted with
  | true => rfl
  | false =>
    rw [hdel, hinc] at hwin
    cases hwin

theorem find?_conflictsWith_none {data : ClientDbFile} {inc : ClientConfig}
    (h : data.clients.find? (conflictsWith inc) = none)
    (hf : data.clients.find? (hasId inc.id) = none) :
    ∀ c ∈ data.clients, c.deleted = false → c.vpnIp ≠ inc.vpnIp := by
  intro c hc hlive hip
  have hid := List.find?_eq_none.mp hf c hc
  have hno := List.find?_eq_none.mp h c hc
  simp only [hasId, conflictsWith, decide_eq_true_eq] at hid hno
  exact hno ⟨hip, hid, hlive⟩

theorem avoidServerIp_spec {env : DbEnv} {data : ClientDbFile} {inc inc' : ClientConfig}
    (h : avoidServerIp env data inc = some inc') :
    (inc' = inc ∧ inc.vpnIp ≠ env.networkConfig.serverVpnIp) ∨
    ∃ ip, inc' = { inc with vpnIp := ip } ∧ Free env data.clients ip := by
  unfold avoidServerIp at h
  split at h
  · obtain ⟨ip, hip, rfl⟩ := Option.map_eq_some_iff.mp h
    exact .inr ⟨ip, rfl, deterministicReassignOffset_free hip⟩
  · next hne =>
    cases h
    exact .inl ⟨rfl, hne⟩

/-- Every iteration is one of the four. -/
theorem mergeRecord_effect : MergeEffect env data inc (mergeRecord env data inc) := by
  unfold mergeRecord
  cases hf : data.clients.find? (hasId inc.id) with
  | some existing =>
    simp only
    by_cases hw : existing.psk = inc.psk ∧ incomingWins env.hash existing inc = true
    · rw [if_pos hw]
      exact .adopted existing hf hw.1 ((incomingWins_iff _ _ _).mp hw.2)
    · rw [if_neg hw]
      exact .unchanged existing hf fun hpsk hlt => hw ⟨hpsk, (incomingWins_iff _ _ _).mpr hlt⟩
  | none =>
    simp only
    cases hdel : inc.deleted with
    | true =>
      rw [if_pos rfl]
      exact .inserted inc.vpnIp hf fun hc => by rw [hdel] at hc; cases hc
    | false =>
      rw [if_neg Bool.false_ne_true]
      unfold insertIncoming
      cases ha : avoidServerIp env data inc with
      | none => exact .noAddress hf
      | some inc' =>
        simp only
        unfold resolveConflict
        rcases avoidServerIp_spec ha with ⟨heq, hserver⟩ | ⟨ip, heq, hfree⟩ <;> rw [heq]
        · -- the record keeps the address it came with
          cases hres : data.clients.find? (conflictsWith inc) with
          | none =>
            exact .inserted inc.vpnIp hf fun _ =>
              ⟨hserver, find?_conflictsWith_none hres hf⟩
          | some resident =>
            simp only
            cases hold : inc.olderThan resident with
            | true =>
              rw [if_pos rfl]
              cases hip : deterministicReassignOffset env resident.id data with
              | none => exact .noAddress hf
              | some ip =>
                exact .displaced resident ip hf hdel hserver hres hold
                  (deterministicReassignOffset_free hip)
            | false =>
              rw [if_neg Bool.false_ne_true]
              cases hip : deterministicReassignOffset env inc.id data with
              | none => exact .noAddress hf
              | some ip => exact .inserted ip hf fun _ => deterministicReassignOffset_free hip
        · -- it was moved off the server's address, to one that nobody holds
          have hnone : data.clients.find? (conflictsWith { inc with vpnIp := ip }) = none := by
            rw [List.find?_eq_none]
            intro c hc hconf
            simp only [conflictsWith, decide_eq_true_eq] at hconf
            exact hfree.2 c hc hconf.2.2 hconf.1
          rw [hnone]
          exact .inserted ip hf fun _ => hfree

end AivpnSpec.Server
