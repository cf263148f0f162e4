import AivpnSpec.Base.Runs
import AivpnSpec.Base.Table

/-!
# The dial set of the pool dialer

`crates/aivpn-server/src/pool_dialer.rs:469-657`. Whoever claims an address first decides whether
its dial loop may be torn down: `start` claims the configured peers for good, `add_peer` claims
what `remove_peer` may give back. `start` publishes its shutdown flag and only then claims its peers
one by one, so that an `add_peer` may come before it.
-/

namespace AivpnSpec.Server

open AivpnSpec.Base

/-- A spawned `dial_loop`, which has a stop flag of its own. -/
structure DialLoop where
  peer : String
  number : Nat
  deriving DecidableEq

/-- The topology of a `PoolDialer`. A loop is in `stopped` if its flag is set, and `walk` is what
`start` has still to claim. -/
structure PoolDialer where
  nodeId : Option String
  peers : List String
  sitePeerAddrs : List String
  /-- whether `start` has published the flag of its tasks -/
  shutdown : Bool := false
  dialedPeers : Finset String := ∅
  peerStopFlags : Table String DialLoop := ∅
  runtimeExitPeers : Finset String := ∅
  spawnCount : Nat := 0
  walk : List String := []
  stopped : List DialLoop := []

inductive DialerStep where
  | start
  | claimNext
  | addPeer (addr : String)
  | removePeer (addr : String)

namespace PoolDialer

/-- `spawn_dial_loop`, `pool_dialer.rs:514-555`, under the topology lock. -/
def spawnDialLoop (d : PoolDialer) (peer : String) (isRuntimeExit : Bool) : PoolDialer × Bool :=
  if peer ∈ d.dialedPeers then (d, false)
  -- the claim is rolled back
  else if d.shutdown = false then (d, false)
  else
    ({ d with
        dialedPeers := insert peer d.dialedPeers
        peerStopFlags := d.peerStopFlags.insert peer ⟨peer, d.spawnCount⟩
        runtimeExitPeers :=
          if isRuntimeExit then insert peer d.runtimeExitPeers else d.runtimeExitPeers
        spawnCount := d.spawnCount + 1 }, true)

/-- `start`, `pool_dialer.rs:469-495`, up to its first claim; it is called once. -/
def start (d : PoolDialer) : PoolDialer :=
  if d.shutdown then d else { d with shutdown := true, walk := d.peers ++ d.sitePeerAddrs }

def claimNext (d : PoolDialer) : PoolDialer :=
  match d.walk with
  | [] => d
  | peer :: walk => ({ d with walk := walk }.spawnDialLoop peer false).1

variable (trim : String → String)

/-- `add_peer`, `pool_dialer.rs:582-601`. -/
def addPeer (d : PoolDialer) (addr : String) : PoolDialer :=
  if trim addr = "" ∨ d.nodeId = some (trim addr) then d else (d.spawnDialLoop (trim addr) true).1

/-- `remove_peer`, `pool_dialer.rs:630-657`, without the peer's sender and status. -/
def removePeer (d : PoolDialer) (addr : String) : PoolDialer × Bool :=
  if trim addr = "" ∨ trim addr ∉ d.runtimeExitPeers then (d, false)
  else
    ({ d with
        runtimeExitPeers := d.runtimeExitPeers.erase (trim addr)
        stopped := (d.peerStopFlags.lookup (trim addr)).toList ++ d.stopped
        peerStopFlags := d.peerStopFlags.erase (trim addr)
        dialedPeers := d.dialedPeers.erase (trim addr) }, true)

def perform (d : PoolDialer) : DialerStep → PoolDialer
  | .start => d.start
  | .claimNext => d.claimNext
  | .addPeer addr => d.addPeer trim addr
  | .removePeer addr => (d.removePeer trim addr).1

/-- The dialer after `k` steps of a run. -/
def after (nodeId : Option String) (peers sitePeerAddrs : List String) (steps : List DialerStep)
    (k : Nat) : PoolDialer :=
  stateAt (perform trim) { nodeId, peers, sitePeerAddrs } steps k

/-- The peers in `configured` are not claimed by `add_peer`, and are claimed or in `walk` once the
flag is published. -/
structure Protects (d : PoolDialer) (configured walk : List String) : Prop where
  config : d.peers ++ d.sitePeerAddrs = configured
  runtime : ∀ peer ∈ configured, peer ∉ d.runtimeExitPeers
  claimed : d.shutdown = true → ∀ peer ∈ configured, peer ∈ d.dialedPeers ∨ peer ∈ walk
  flags : ∀ peer loop, d.peerStopFlags.lookup peer = some loop → loop.peer = peer
  stopped : ∀ loop ∈ d.stopped, loop.peer ∉ configured

variable {trim} {d : PoolDialer} {configured walk : List String}

/-- A claim, which is one of `start` or of an address that is not configured. -/
theorem Protects.spawnDialLoop {peer : String} (h : d.Protects configured (peer :: walk))
    {isRuntimeExit : Bool} (hexit : isRuntimeExit = true → peer ∉ d.dialedPeers →
      d.shutdown = true → peer ∉ configured) :
    (d.spawnDialLoop peer isRuntimeExit).1.Protects configured walk := by
  unfold PoolDialer.spawnDialLoop
  split
  · next hmem =>
    refine ⟨h.config, h.runtime, fun hstarted other hother => ?_, h.flags, h.stopped⟩
    rcases h.claimed hstarted other hother with hdialed | hwalk
    · exact .inl hdialed
    · rcases List.mem_cons.1 hwalk with rfl | hwalk
      · exact .inl hmem
      · exact .inr hwalk
  next hnew =>
  split
  · next hnot =>
    exact ⟨h.config, h.runtime, fun hstarted => by simp [hnot] at hstarted, h.flags, h.stopped⟩
  next hstarted =>
  have hstarted : d.shutdown = true := by simpa using hstarted
  refine ⟨h.config, fun other hother => ?_, fun _ other hother => ?_,
    fun other loop hlookup => ?_, h.stopped⟩
  · dsimp only
    split
    · next hruntime =>
      intro hmem
      rcases Finset.mem_insert.1 hmem with rfl | hmem
      · exact hexit hruntime hnew hstarted hother
      · exact h.runtime other hother hmem
    · exact h.runtime other hother
  · rcases h.claimed hstarted other hother with hdialed | hwalk
    · exact .inl (Finset.mem_insert_of_mem hdialed)
    · rcases List.mem_cons.1 hwalk with rfl | hwalk
      · exact .inl (Finset.mem_insert_self ..)
      · exact .inr hwalk
  · rcases Table.cases_insert hlookup with ⟨rfl, rfl⟩ | hlookup
    · rfl
    · exact h.flags other loop hlookup

theorem Protects.removePeer (h : d.Protects configured walk) (addr : String) :
    (d.removePeer trim addr).1.Protects configured walk := by
  unfold PoolDialer.removePeer
  split
  · exact h
  next hruntime =>
  have hfree : trim addr ∉ configured := fun hmem =>
    h.runtime _ hmem (not_not.1 (not_or.1 hruntime).2)
  refine ⟨h.config, fun peer hpeer hmem => ?_, fun hstarted peer hpeer => ?_,
    fun peer loop hlookup => ?_, fun loop hloop => ?_⟩
  · exact h.runtime peer hpeer (Finset.mem_of_mem_erase hmem)
  · have hne : peer ≠ trim addr := fun heq => hfree (heq ▸ hpeer)
    exact (h.claimed hstarted peer hpeer).imp_left (Finset.mem_erase_of_ne_of_mem hne)
  · exact h.flags peer loop (Table.of_lookup_erase hlookup).2
  · rcases List.mem_append.1 hloop with hnew | hold
    · rw [h.flags _ loop (Option.mem_toList.1 hnew)]
      exact hfree
    · exact h.stopped loop hold

theorem walk_spawnDialLoop (d : PoolDialer) (peer : String) (isRuntimeExit : Bool) :
    (d.spawnDialLoop peer isRuntimeExit).1.walk = d.walk := by
  unfold PoolDialer.spawnDialLoop
  split
  · rfl
  · split <;> rfl

/-- One step, which is no `add_peer` of an address that `start` has still to claim. -/
theorem Protects.perform (h : d.Protects configured d.walk) (step : DialerStep)
    (hlate : ∀ addr, step = .addPeer addr → trim addr ∉ d.walk) :
    (d.perform trim step).Protects configured (d.perform trim step).walk := by
  cases step with
  | start =>
    simp only [PoolDialer.perform, PoolDialer.start]
    split
    · exact h
    · exact ⟨h.config, h.runtime, fun _ peer hpeer => .inr (h.config ▸ hpeer), h.flags, h.stopped⟩
  | claimNext =>
    simp only [PoolDialer.perform, PoolDialer.claimNext]
    split
    · exact h
    next peer walk hwalk =>
    rw [walk_spawnDialLoop]
    have hnext : ({ d with walk := walk } : PoolDialer).Protects configured (peer :: walk) :=
      ⟨h.config, h.runtime, hwalk ▸ h.claimed, h.flags, h.stopped⟩
    exact hnext.spawnDialLoop fun hexit => by cases hexit
  | addPeer addr =>
    simp only [PoolDialer.perform, PoolDialer.addPeer]
    split
    · exact h
    rw [walk_spawnDialLoop]
    refine Protects.spawnDialLoop ⟨h.config, h.runtime, fun hstarted peer hpeer => ?_, h.flags,
      h.stopped⟩ fun _ hnew hstarted hmem => ?_
    · exact (h.claimed hstarted peer hpeer).imp_right (List.mem_cons_of_mem _)
    · exact (h.claimed hstarted _ hmem).elim hnew (hlate addr rfl)
  | removePeer addr =>
    have hwalk : (d.removePeer trim addr).1.walk = d.walk := by
      unfold PoolDialer.removePeer
      split <;> rfl
    simp only [PoolDialer.perform, hwalk]
    exact h.removePeer addr

section

variable {nodeId : Option String} {peers sitePeerAddrs : List String} {steps : List DialerStep}

/-- As long as `add_peer` does not come between the flag and a claim of `start`, no loop of a
configured peer or a site is told to stop, and `remove_peer` refuses them. -/
theorem configured_peers_kept (hlate : ∀ k addr, steps[k]? = some (.addPeer addr) →
      trim addr ∉ (after trim nodeId peers sitePeerAddrs steps k).walk) (k : Nat) :
    (∀ loop ∈ (after trim nodeId peers sitePeerAddrs steps k).stopped,
      loop.peer ∉ peers ++ sitePeerAddrs) ∧
    ∀ addr, trim addr ∈ peers ++ sitePeerAddrs →
      ((after trim nodeId peers sitePeerAddrs steps k).removePeer trim addr).2 = false := by
  have hkeep : (after trim nodeId peers sitePeerAddrs steps k).Protects (peers ++ sitePeerAddrs)
      (after trim nodeId peers sitePeerAddrs steps k).walk := by
    refine stateAt_keeps (P := fun d => Protects d (peers ++ sitePeerAddrs) d.walk)
      (Nat.zero_le k) ⟨rfl, fun _ _ => Finset.notMem_empty _, nofun, nofun, nofun⟩
      fun j step _ _ hstep h => ?_
    exact h.perform step fun addr heq => hlate j addr (heq ▸ hstep)
  refine ⟨hkeep.stopped, fun addr hmem => ?_⟩
  rw [PoolDialer.removePeer, if_pos (.inr (hkeep.runtime _ hmem))]

theorem configured_peers_kept_exitPeer :
    ∃ d, after id none ["pool"] ["site"] [.start, .claimNext, .claimNext, .addPeer "pool",
        .addPeer "exit", .removePeer "pool", .removePeer "exit"] 7 = d ∧
      d.stopped.map DialLoop.peer = ["exit"] ∧ (d.removePeer id "pool").2 = false := by
  refine ⟨_, rfl, by decide +kernel, ?_⟩
  refine (configured_peers_kept (fun k addr hk => ?_) 7).2 "pool" (by decide)
  rcases k with _ | _ | _ | _ | _ | _ | _ | k <;> cases hk <;> decide +kernel

/-- An `add_peer` between the flag and the claim of `start`: its `remove_peer` stops the only loop
of the configured peer. -/
theorem configured_peer_torn_down :
    ∃ d, after id none ["pool"] [] [.start, .addPeer "pool", .claimNext] 3 = d ∧ d.walk = [] ∧
      (d.removePeer id "pool").2 = true ∧
      (d.removePeer id "pool").1.stopped = [⟨"pool", 0⟩] :=
  ⟨_, rfl, by decide +kernel, by decide +kernel, by decide +kernel⟩

end

end PoolDialer

end AivpnSpec.Server
