import AivpnSpec.Server.ClientDb.Allocation
import AivpnSpec.Server.ClientDb.Ownership
import Mathlib.Data.String.Basic

/-!
# Two nodes resolve an address collision alike

Two nodes gave one address to different clients and merge each other's record. On one node the
incoming record is the younger one and is moved, on the other the resident is. Both search for the
new address from a hash of the same id through the same range, and see the same addresses taken,
so they agree, as long as there is an address to be found.
-/

namespace AivpnSpec.Server

open AivpnSpec.Base AivpnSpec.Common List

def addressOf (clients : List ClientConfig) (id : String) : Option Ipv4Addr :=
  (clients.find? (hasId id)).map fun c => c.vpnIp

/-- Of two clients the one that came first, by its creation time and then by its id. -/
def older (x y : ClientConfig) : ClientConfig := if x.olderThan y then x else y

def younger (x y : ClientConfig) : ClientConfig := if x.olderThan y then y else x

/-- Of two different clients one came first. -/
theorem olderThan_swap {x y : ClientConfig} (h : x.id ≠ y.id) : y.olderThan x = !x.olderThan y := by
  unfold ClientConfig.olderThan
  rw [← decide_not, decide_eq_decide]
  constructor
  · rintro (hlt | ⟨heq, hid⟩) (hlt' | ⟨heq', hid'⟩)
    · omega
    · omega
    · omega
    · exact lt_asymm hid hid'
  · intro hnot
    rw [not_or, not_and] at hnot
    rcases lt_trichotomy y.createdAt x.createdAt with hlt | heq | hgt
    · exact .inl hlt
    · exact .inr ⟨heq, lt_of_le_of_ne (not_lt.mp (hnot.2 heq.symm)) h.symm⟩
    · exact absurd hgt hnot.1

theorem older_swap {x y : ClientConfig} (h : x.id ≠ y.id) : older y x = older x y := by
  unfold older
  rw [olderThan_swap h]
  cases x.olderThan y <;> rfl

theorem younger_swap {x y : ClientConfig} (h : x.id ≠ y.id) : younger y x = younger x y := by
  unfold younger
  rw [olderThan_swap h]
  cases x.olderThan y <;> rfl

section Search

variable {env env' : DbEnv} {data data' : ClientDbFile} {clients : List ClientConfig}
  {ip : Ipv4Addr}

theorem free_iff :
    Free env clients ip ↔ ip ≠ env.networkConfig.serverVpnIp ∧ ip ∉ liveAddresses clients := by
  unfold Free liveAddresses
  simp only [mem_map, mem_filter, Bool.not_eq_true', and_assoc, not_exists, not_and]

/-- Nodes of one network with the same live addresses have the same free ones. -/
theorem freeAt_congr (hnet : env.networkConfig = env'.networkConfig)
    (hlive : ∀ ip, ip ∈ liveAddresses data.clients ↔ ip ∈ liveAddresses data'.clients)
    (offset : Nat) : freeAt env data.clients offset = freeAt env' data'.clients offset := by
  apply Option.ext
  intro ip
  rw [freeAt_eq_some, freeAt_eq_some, free_iff, free_iff, hnet, hlive]

/-- Such nodes re-home a client to the same address, if they search the same range. -/
theorem deterministicReassignOffset_congr (hnet : env.networkConfig = env'.networkConfig)
    (hpart : env.partition = env'.partition)
    (hlive : ∀ ip, ip ∈ liveAddresses data.clients ↔ ip ∈ liveAddresses data'.clients)
    (id : String) :
    deterministicReassignOffset env id data = deterministicReassignOffset env' id data' := by
  have hrange : env.offsetRange = env'.offsetRange := by
    unfold DbEnv.offsetRange
    rw [hnet, hpart]
  unfold deterministicReassignOffset
  rw [hnet, hrange]
  split
  · rfl
  dsimp only
  split
  · rfl
  next hstop =>
  rw [probe_eq, probe_eq]
  rw [cyclicSearch_congr (inRange_seed (Nat.lt_of_not_le hstop) _)
    fun n _ => freeAt_congr hnet hlive n]

end Search

/-- The node holds the one client and does not know the other; its ids and addresses are in
order. -/
structure Holds (env : DbEnv) (data : ClientDbFile) (own foreign : ClientConfig) : Prop where
  ids : DistinctIds data.clients
  owned : Owned env data.clients
  mem : own ∈ data.clients
  live : own.deleted = false
  unknown : ∀ c ∈ data.clients, c.id ≠ foreign.id

section Node

variable {env : DbEnv} {data : ClientDbFile} {own foreign sent c : ClientConfig}
  {clients : List ClientConfig} {ip : Ipv4Addr}

/-- The client the foreign record collides with is the one the node holds. -/
theorem Holds.find_conflict (h : Holds env data own foreign) (hip : foreign.vpnIp = own.vpnIp) :
    data.clients.find? (conflictsWith foreign) = some own := by
  cases hf : data.clients.find? (conflictsWith foreign) with
  | none =>
    have hno := find?_eq_none.mp hf own h.mem
    simp only [conflictsWith, decide_eq_true_eq] at hno
    exact absurd ⟨hip.symm, h.unknown own h.mem, h.live⟩ hno
  | some c =>
    have hc := find?_some hf
    simp only [conflictsWith, decide_eq_true_eq] at hc
    have hnodup : (liveAddresses data.clients).Nodup := (nodup_cons.mp h.owned).2
    rw [inj_on_of_nodup_map hnodup
      (mem_filter.mpr ⟨mem_of_find?_eq_some hf, by simp [hc.2.2]⟩)
      (mem_filter.mpr ⟨h.mem, by simp [h.live]⟩) (hc.1.trans hip)]

theorem distinctIds_mergeClients (hids : DistinctIds data.clients) (now : Int)
    (incoming : List ClientConfig) : DistinctIds (mergeClients env now incoming data).2.clients :=
  hids.mergeLoop.filter _

section

variable (h : Holds env data own foreign) (hlive : foreign.deleted = false)

include h hlive

/-- Live records are there after the merge. -/
theorem Holds.mem_merged {data' : ClientDbFile} {now : Int}
    (hinsert : insertIncoming env data foreign = some data') (hc : c.deleted = false)
    (hmem : c ∈ data'.clients) : c ∈ (mergeClients env now [foreign] data).2.clients := by
  have hnone : data.clients.find? (hasId foreign.id) = none :=
    find?_eq_none.mpr fun c hc hid => h.unknown c hc (by simpa [hasId] using hid)
  have hrecord : mergeRecord env data foreign = (.merged, data') := by
    unfold mergeRecord
    rw [hnone]
    simp only [hlive, Bool.false_eq_true, if_false, hinsert]
  have hrecords : c ∈ (mergeRecord env data foreign).2.clients := by
    rw [hrecord]
    exact hmem
  exact mem_filter.mpr ⟨hrecords, by simp [expiredTombstone, hc]⟩

/-- A foreign record at the own client's address: the older of the two keeps it, and the younger
one is moved to where its id leads. -/
theorem Holds.merge_collision (hip : foreign.vpnIp = own.vpnIp)
    (hnew : deterministicReassignOffset env (younger foreign own).id data = some ip) (now : Int) :
    older foreign own ∈ (mergeClients env now [foreign] data).2.clients ∧
    { younger foreign own with vpnIp := ip } ∈
      (mergeClients env now [foreign] data).2.clients := by
  have hserver : foreign.vpnIp ≠ env.networkConfig.serverVpnIp := by
    rw [hip]
    exact (owned_iff.mp h.owned).1 own h.mem h.live
  unfold older younger at *
  cases hold : foreign.olderThan own with
  | true =>
    -- the resident is moved, and the incoming record takes its place
    simp only [hold, if_true] at hnew ⊢
    have hinsert : insertIncoming env data foreign = some { data with
        clients := modifyFirst (conflictsWith foreign) (fun c => { c with vpnIp := ip })
          data.clients ++ [foreign] } := by
      unfold insertIncoming avoidServerIp resolveConflict
      simp only [if_neg hserver, h.find_conflict hip, hold, if_true, hnew, Option.map_some]
    constructor
    · exact h.mem_merged hlive hinsert hlive (mem_append_right _ (mem_singleton_self _))
    · refine h.mem_merged hlive hinsert h.live (c := { own with vpnIp := ip }) ?_
      exact mem_append_left _ (replaced_mem_modifyFirst
        (f := fun c : ClientConfig => { c with vpnIp := ip }) (h.find_conflict hip))
  | false =>
    -- the incoming record is moved before it comes in
    simp only [hold, Bool.false_eq_true, if_false] at hnew ⊢
    have hinsert : insertIncoming env data foreign = some { data with
        clients := data.clients ++ [{ foreign with vpnIp := ip }] } := by
      unfold insertIncoming avoidServerIp resolveConflict
      simp only [if_neg hserver, h.find_conflict hip, hold, Bool.false_eq_true, if_false, hnew,
        Option.map_some]
    constructor
    · exact h.mem_merged hlive hinsert h.live (mem_append_left _ h.mem)
    · exact h.mem_merged hlive hinsert hlive (c := { foreign with vpnIp := ip })
        (mem_append_right _ (mem_singleton_self _))

/-- A foreign record at a free address comes in beside the own client. -/
theorem Holds.merge_free (hfree : Free env data.clients foreign.vpnIp) (now : Int) :
    own ∈ (mergeClients env now [foreign] data).2.clients ∧
    foreign ∈ (mergeClients env now [foreign] data).2.clients := by
  have hnone : data.clients.find? (conflictsWith foreign) = none := by
    rw [find?_eq_none]
    intro c hc hconf
    simp only [conflictsWith, decide_eq_true_eq] at hconf
    exact hfree.2 c hc hconf.2.2 hconf.1
  have hinsert : insertIncoming env data foreign =
      some { data with clients := data.clients ++ [foreign] } := by
    unfold insertIncoming avoidServerIp resolveConflict
    simp only [if_neg hfree.1, hnone]
  constructor
  · exact h.mem_merged hlive hinsert h.live (mem_append_left _ h.mem)
  · exact h.mem_merged hlive hinsert hlive (mem_append_right _ (mem_singleton_self _))

end

/-- The record the other node sends: its client as it was, or moved as the younger one. -/
def SentAs (sent foreign own : ClientConfig) (ip : Ipv4Addr) : Prop :=
  sent = foreign ∨ foreign.olderThan own = false ∧ sent = { foreign with vpnIp := ip }

/-- Both forms of the foreign record lead to the same two records. -/
theorem Holds.merge_sent (h : Holds env data own foreign) (hlive : foreign.deleted = false)
    (hip : foreign.vpnIp = own.vpnIp)
    (hnew : deterministicReassignOffset env (younger foreign own).id data = some ip)
    (hsent : SentAs sent foreign own ip) (now : Int) :
    older foreign own ∈ (mergeClients env now [sent] data).2.clients ∧
    { younger foreign own with vpnIp := ip } ∈ (mergeClients env now [sent] data).2.clients := by
  rcases hsent with rfl | ⟨hyoung, rfl⟩
  · exact h.merge_collision hlive hip hnew now
  have hmoved : Holds env data own { foreign with vpnIp := ip } :=
    ⟨h.ids, h.owned, h.mem, h.live, h.unknown⟩
  simp only [older, younger, hyoung, Bool.false_eq_true, if_false]
  exact hmoved.merge_free hlive (deterministicReassignOffset_free hnew) now

/-- A node that has merged the other's record holds its own client in one of the two forms. -/
theorem sentAs_of_find (hids : DistinctIds clients) (hold : older own foreign ∈ clients)
    (hyoung : { younger own foreign with vpnIp := ip } ∈ clients)
    (hsent : clients.find? (hasId own.id) = some sent) : SentAs sent own foreign ip := by
  unfold older younger at *
  cases h : own.olderThan foreign with
  | true =>
    simp only [h, if_true] at hold
    rw [hids.find hold] at hsent
    exact .inl (Option.some.inj hsent).symm
  | false =>
    simp only [h, Bool.false_eq_true, if_false] at hyoung
    have hmoved := hids.find hyoung
    rw [hsent] at hmoved
    exact .inr ⟨h, Option.some.inj hmoved⟩

theorem addressOf_mem (hids : DistinctIds clients) (hc : c ∈ clients) :
    addressOf clients c.id = some c.vpnIp := by
  unfold addressOf
  rw [hids.find hc]
  rfl

end Node

def alone (c : ClientConfig) : ClientDbFile where
  clients := [c]
  nextHostOffset := 2

def tinyNode : DbEnv :=
  { smallNode with networkConfig := { serverVpnIp := 0x0a000001, prefixLen := 30 } }

/-- A node of the same subnet as `smallNode` whose server has another address. -/
def otherServer : DbEnv :=
  { smallNode with networkConfig := { serverVpnIp := 0x0a0000cc, prefixLen := 24 } }

def firstClient : ClientConfig := liveClient "a" 0x0a000002 1

def secondClient : ClientConfig := liveClient "b" 0x0a000002 2

/-- Without a free address each node keeps its own client at the address. With another server
address, here the one the first node chooses, the nodes give the younger client different
addresses. -/
theorem collision_needs_room_and_one_server :
    (mergeFromJson tinyNode 5 5 Faults.none (alone firstClient) none [secondClient]).data =
      alone firstClient ∧
    (mergeFromJson tinyNode 5 5 Faults.none (alone secondClient) none [firstClient]).data =
      alone secondClient ∧
    addressOf (mergeFromJson smallNode 5 5 Faults.none (alone firstClient) none
      [secondClient]).data.clients "b" = some 0x0a0000cc ∧
    addressOf (mergeFromJson otherServer 5 5 Faults.none (alone secondClient) none
      [firstClient]).data.clients "b" = some 0x0a0000cd := by
  decide +kernel

/-- Two nodes with the same network and the same range hold different clients at one address and
otherwise the same live addresses, and some address of the range is free. Each merges the other's
record; the second node may get it as it was, or as the first one holds it after its own merge.
Then the older client has the address on both nodes, and the younger one has the same new address
on both. -/
theorem collision_resolved_alike (envA envB : DbEnv)
    (hnet : envA.networkConfig = envB.networkConfig) (hpart : envA.partition = envB.partition)
    (nowA nowA' nowB nowB' : Int) (dataA dataB : ClientDbFile) (fileA fileB : Option ClientDbFile)
    (x y sent : ClientConfig)
    (hA : Holds envA (absorbDisk envA nowA dataA fileA) x y)
    (hB : Holds envB (absorbDisk envB nowB dataB fileB) y x) (hip : x.vpnIp = y.vpnIp)
    (hlive : ∀ ip, ip ∈ liveAddresses (absorbDisk envA nowA dataA fileA).clients ↔
      ip ∈ liveAddresses (absorbDisk envB nowB dataB fileB).clients)
    (hroom : ∃ offset ip, Offers envA (absorbDisk envA nowA dataA fileA).clients offset ip)
    (hsent : sent = x ∨
      (mergeFromJson envA nowA nowA' Faults.none dataA fileA [y]).data.clients.find?
        (hasId x.id) = some sent) :
    ∃ ip, ip ≠ x.vpnIp ∧
      ∀ data ∈ [(mergeFromJson envA nowA nowA' Faults.none dataA fileA [y]).data,
          (mergeFromJson envB nowB nowB' Faults.none dataB fileB [sent]).data],
        addressOf data.clients (older x y).id = some x.vpnIp ∧
        addressOf data.clients (younger x y).id = some ip := by
  have hid : x.id ≠ y.id := hA.unknown x hA.mem
  obtain ⟨ip, hnew⟩ := (exists_deterministicReassignOffset_iff envA (younger x y).id _).mpr hroom
  have hfree := deterministicReassignOffset_free hnew
  have hnewB := hnew
  rw [deterministicReassignOffset_congr hnet hpart hlive] at hnewB
  -- the first node
  obtain ⟨holdA, hyoungA⟩ := hA.merge_collision hB.live hip.symm
    (by rw [younger_swap hid]; exact hnew) nowA'
  rw [older_swap hid] at holdA
  rw [younger_swap hid] at hyoungA
  have hidsA := @distinctIds_mergeClients envA _ hA.ids nowA' [y]
  -- the second node
  have hsentAs : SentAs sent x y ip := by
    rcases hsent with hsent | hsent
    · exact .inl hsent
    · exact sentAs_of_find hidsA holdA hyoungA hsent
  obtain ⟨holdB, hyoungB⟩ := hB.merge_sent hA.live hip hnewB hsentAs nowB'
  have hidsB := @distinctIds_mergeClients envB _ hB.ids nowB' [sent]
  have hkeeps : (older x y).vpnIp = x.vpnIp := by
    unfold older
    split
    · rfl
    · exact hip.symm
  refine ⟨ip, (hfree.2 x hA.mem hA.live).symm, ?_⟩
  intro data hdata
  rw [← hkeeps]
  simp only [mem_cons, not_mem_nil, or_false] at hdata
  rcases hdata with rfl | rfl
  · exact ⟨addressOf_mem hidsA holdA, addressOf_mem hidsA hyoungA⟩
  · exact ⟨addressOf_mem hidsB holdB, addressOf_mem hidsB hyoungB⟩

/-- Two nodes with one client each. -/
theorem collision_resolved_alike_alone :
    ∃ ip, ip ≠ firstClient.vpnIp ∧
      ∀ data ∈ [(mergeFromJson smallNode 5 5 Faults.none (alone firstClient) none
            [secondClient]).data,
          (mergeFromJson smallNode 5 5 Faults.none (alone secondClient) none [firstClient]).data],
        addressOf data.clients (older firstClient secondClient).id = some firstClient.vpnIp ∧
        addressOf data.clients (younger firstClient secondClient).id = some ip := by
  have hA : Holds smallNode (absorbDisk smallNode 5 (alone firstClient) none) firstClient
      secondClient :=
    ⟨by decide +kernel, by unfold Owned; decide +kernel, mem_singleton_self _, rfl,
      by decide +kernel⟩
  have hB : Holds smallNode (absorbDisk smallNode 5 (alone secondClient) none) secondClient
      firstClient :=
    ⟨by decide +kernel, by unfold Owned; decide +kernel, mem_singleton_self _, rfl,
      by decide +kernel⟩
  have hroom : ∃ offset ip, Offers smallNode
      (absorbDisk smallNode 5 (alone firstClient) none).clients offset ip :=
    ⟨3, 0x0a000003, by unfold InRange; decide +kernel, by decide +kernel,
      by unfold Free; decide +kernel⟩
  exact collision_resolved_alike smallNode smallNode rfl rfl 5 5 5 5 _ _ none none firstClient
    secondClient firstClient hA hB rfl (fun _ => Iff.rfl) hroom (.inl rfl)

end AivpnSpec.Server
