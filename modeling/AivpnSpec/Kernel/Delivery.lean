import AivpnSpec.Base.Runs
import AivpnSpec.Kernel.SessionTable
import Mathlib

/-!
# Each packet is delivered once

The kernel and userspace decide under the session's lock who delivers a packet: whoever gets its
counter from `aivpn_epoch_claim`. Over any interleaving of the packet paths and the ioctls, a
replacement of the session in flight included, a pair of an epoch and a counter is taken at most
once, and a counter inside the window that nobody has taken can be.
-/

namespace AivpnSpec.Kernel

open AivpnSpec.Base List

/-- One step of a packet path or of an ioctl, each under the locks it takes. -/
inductive KernelStep where
  | insertBegin (add : SessionAdd) (allocated : Bool)
  | insertEnd
  | removeBegin (id : SessionId)
  | removeEnd
  | policySet (id : SessionId) (input : SessionPolicy) (allocated : Bool)
  | sync (id : SessionId) (ack : Bool)
  | replayClaim (id : SessionId) (epoch : UInt32) (counter : UInt64)
  | replayRotate (id : SessionId) (epoch : UInt32)
  | qosCharge (id : SessionId) (dir : Direction) (nbytes nowNs : UInt64)
  | clientRevoke (key : ClientKey)
  | downlinkUpdate (id : SessionId) (mdh : List UInt8) (seqBase tagPos : UInt16)
      (entries : List DlEntry)
  | readBegin (id : SessionId)
  | readEnd (reader : Nat)
  | rxFinish (reader : Nat) (epoch : UInt32) (counter : UInt64) (plain : List UInt8)
      (wireLen : Nat) (nowNs : UInt64) (peer : RawIpv4 → Bool)
  | dlReserve (reader : Nat) (ip : List UInt8) (pktLen : Nat) (nowNs : UInt64)
      (peer : RawIpv4 → Bool)

def KernelStep.removes : KernelStep → Option SessionId
  | .removeBegin id => some id
  | _ => none

/-- A packet: the session, the epoch of its key and its counter. -/
abbrev PacketId := SessionId × UInt32 × UInt64

/-- The module, with the packets that it or userspace has delivered and the counters that were
taken, latest first. -/
structure Delivery where
  tables : KernModule
  delivered : List PacketId
  claimed : List PacketId

namespace Delivery

def setTables (d : Delivery) (tables : KernModule) : Delivery := { d with tables := tables }

/-- A claim of userspace, which delivers the packet if it gets the counter. -/
def claim (d : Delivery) (id : SessionId) (epoch : UInt32) (counter : UInt64) : Delivery :=
  match d.tables.sessionReplayClaim id epoch counter with
  | (.ok .ok, tables) =>
    { tables := tables
      delivered := (id, epoch, counter) :: d.delivered
      claimed := (id, epoch, counter) :: d.claimed }
  | (_, tables) => d.setTables tables

/-- A packet path finishes with a packet on the object that its read section holds. -/
def finish (d : Delivery) (reader : Nat) (epoch : UInt32) (counter : UInt64) (plain : List UInt8)
    (wireLen : Nat) (nowNs : UInt64) (peer : RawIpv4 → Bool) : Delivery :=
  match d.tables.readers[reader]? with
  | none => d
  | some holder =>
    match d.tables.held holder with
    | none => d
    | some (id, s) =>
      let r := rxFinish d.tables.qos s epoch counter plain wireLen nowNs peer
      { tables := { d.tables.setHeld holder r.session with qos := r.qos }
        delivered :=
          if r.verdict = .accept then (id, epoch, counter) :: d.delivered else d.delivered
        claimed := if r.claimed then (id, epoch, counter) :: d.claimed else d.claimed }

/-- A packet to the client takes the next reserved counter of the held object. -/
def reserve (d : Delivery) (reader : Nat) (ip : List UInt8) (pktLen : Nat) (nowNs : UInt64)
    (peer : RawIpv4 → Bool) : Delivery :=
  match d.tables.readers[reader]? with
  | none => d
  | some holder =>
    match d.tables.held holder with
    | none => d
    | some (_, s) =>
      let r := dlReserve d.tables.qos s ip pktLen nowNs peer
      d.setTables { d.tables.setHeld holder r.2.2 with qos := r.2.1 }

def perform (d : Delivery) : KernelStep → Delivery
  | .insertBegin add allocated => d.setTables (d.tables.insertBegin add allocated)
  | .insertEnd => d.setTables d.tables.insertEnd
  | .removeBegin id => d.setTables (d.tables.removeBegin id)
  | .removeEnd => d.setTables d.tables.removeEnd
  | .policySet id input allocated => d.setTables (d.tables.sessionPolicySet id input allocated).2
  | .sync id ack => d.setTables (d.tables.sessionSync id ack).2
  | .replayClaim id epoch counter => d.claim id epoch counter
  | .replayRotate id epoch => d.setTables (d.tables.sessionReplayRotate id epoch).2
  | .qosCharge id dir nbytes nowNs =>
    d.setTables (d.tables.sessionQosCharge id dir nbytes nowNs).2
  | .clientRevoke key => d.setTables (d.tables.clientRevoke key).2
  | .downlinkUpdate id mdh seqBase tagPos entries =>
    d.setTables (d.tables.sessionDownlinkUpdate id mdh seqBase tagPos entries).2
  | .readBegin id => d.setTables (d.tables.readBegin id)
  | .readEnd reader => d.setTables (d.tables.readEnd reader)
  | .rxFinish reader epoch counter plain wireLen nowNs peer =>
    d.finish reader epoch counter plain wireLen nowNs peer
  | .dlReserve reader ip pktLen nowNs peer => d.reserve reader ip pktLen nowNs peer

def start : Delivery := ⟨.empty, [], []⟩

/-- The module after the first `k` steps. -/
def after (steps : List KernelStep) (k : Nat) : Delivery := stateAt perform start steps k

def ofSession (id : SessionId) (log : List PacketId) : List (UInt32 × UInt64) :=
  (log.filter fun p => p.1 = id).map fun p => p.2

theorem ofSession_cons (id : SessionId) (p : PacketId) (log : List PacketId) :
    ofSession id (p :: log) = if p.1 = id then p.2 :: ofSession id log else ofSession id log := by
  unfold ofSession
  split <;> simp_all

end Delivery

/-! ### What the two windows of a session remember -/

/-- The windows against the counters taken from them: nothing taken is fresh in its epoch's
window, and only what was taken is marked in the current one. -/
structure Ledger (w : EpochWin) (taken : List (UInt32 × UInt64)) : Prop where
  nodup : taken.Nodup
  bound : ∀ e c, (e, c) ∈ taken → e ≠ 0 ∧ e.toNat ≤ w.epoch.toNat
  current : ∀ c, (w.epoch, c) ∈ taken → w.current.window.isFresh c.toNat = false
  previous : w.prevValid = true → ∀ c, (w.prevEpoch, c) ∈ taken →
    w.previous.window.isFresh c.toNat = false
  older : w.prevValid = true → w.prevEpoch.toNat < w.epoch.toNat
  owned : ∀ c : UInt64, w.current.window.isMarked c.toNat = true → (w.epoch, c) ∈ taken
  grounded : w.current.window.Grounded
  groundedPrevious : w.previous.window.Grounded

variable {w w' : EpochWin} {e : UInt32} {c : UInt64}

/-- What a successful claim has found and what it changes. -/
theorem epochClaim_ok (h : epochClaim w e c = (.ok, w')) :
    e ≠ 0 ∧
      ((e = w.epoch ∧ w.current.window.isFresh c.toNat = true ∧
          w' = { w with current := replaySet w.current c }) ∨
        (e ≠ w.epoch ∧ w.prevValid = true ∧ e = w.prevEpoch ∧
          w.previous.window.isFresh c.toNat = true ∧
          w' = { w with previous := replaySet w.previous c })) := by
  unfold epochClaim at h
  split at h
  · simp at h
  next hzero =>
  have hne : e ≠ 0 := fun h => hzero (.inl h)
  refine ⟨hne, ?_⟩
  split at h
  · next hcur =>
    split at h
    · next hok =>
      cases h
      exact .inl ⟨hcur, (replayObserveWin_ok_iff _ _).mp hok, rfl⟩
    · next hseen =>
      cases hres : replayObserveWin w.current c <;> simp_all [claimCode]
  · next hcur =>
    split at h
    · next hprev =>
      split at h
      · next hok =>
        cases h
        exact .inr ⟨hcur, hprev.1, hprev.2, (replayObserveWin_ok_iff _ _).mp hok, rfl⟩
      · next hseen =>
        cases hres : replayObserveWin w.previous c <;> simp_all [claimCode]
    · simp at h

/-- A refused claim changes nothing. -/
theorem epochClaim_refused (h : (epochClaim w e c).1 ≠ .ok) : (epochClaim w e c).2 = w := by
  revert h
  unfold epochClaim
  split
  · exact fun _ => rfl
  split
  · split
    · exact fun h => absurd rfl h
    · exact fun _ => rfl
  · split
    · split
      · exact fun h => absurd rfl h
      · exact fun _ => rfl
    · exact fun _ => rfl

theorem ledger_zero : Ledger .zero [] where
  nodup := nodup_nil
  bound := by simp
  current := by simp
  previous := by simp [EpochWin.zero]
  older := by simp [EpochWin.zero]
  owned c h := by simp [EpochWin.zero, ReplayWin.zero, ReplayWin.window, SlidingWindow.isMarked] at h
  grounded := ReplayWin.grounded_zero
  groundedPrevious := ReplayWin.grounded_zero

/-- Marking a counter leaves what was not fresh so, and the counter itself is no longer fresh. -/
theorem not_fresh_replaySet {w : ReplayWin} (hw : w.window.Grounded) {d : UInt64}
    (h : d = c ∨ w.window.isFresh d.toNat = false) :
    (replaySet w c).window.isFresh d.toNat = false := by
  by_contra hfresh
  rw [Bool.not_eq_false, window_replaySet hw] at hfresh
  have hbefore := SlidingWindow.isFresh_of_mark hfresh
  rcases h with h | h
  · exact hbefore.2 (congrArg UInt64.toNat h)
  · rw [h] at hbefore
    exact absurd hbefore.1 (by decide)

variable {taken : List (UInt32 × UInt64)}

/-- A claim takes a counter that nobody has taken. -/
theorem Ledger.claim (hl : Ledger w taken) (h : epochClaim w e c = (.ok, w')) :
    Ledger w' ((e, c) :: taken) := by
  obtain ⟨hne, ⟨rfl, hfresh, rfl⟩ | ⟨hcur, hvalid, rfl, hfresh, rfl⟩⟩ := epochClaim_ok h
  · have hnew : (w.epoch, c) ∉ taken := fun hmem => by
      rw [hl.current c hmem] at hfresh
      exact absurd hfresh (by decide)
    constructor
    · exact nodup_cons.mpr ⟨hnew, hl.nodup⟩
    · intro e' c' hmem
      rcases mem_cons.mp hmem with heq | hmem
      · cases heq
        exact ⟨hne, le_rfl⟩
      · exact hl.bound e' c' hmem
    · intro c' hmem
      apply not_fresh_replaySet hl.grounded
      rcases mem_cons.mp hmem with heq | hmem
      · exact .inl (Prod.mk.inj heq).2
      · exact .inr (hl.current c' hmem)
    · intro hvalid c' hmem
      rcases mem_cons.mp hmem with heq | hmem
      · have hold := hl.older hvalid
        have heq' : w.prevEpoch = w.epoch := (Prod.mk.inj heq).1
        rw [heq'] at hold
        omega
      · exact hl.previous hvalid c' hmem
    · exact hl.older
    · intro c' hmark
      rw [window_replaySet hl.grounded] at hmark
      rcases SlidingWindow.isMarked_of_mark hmark with heq | hmark
      · rw [UInt64.toNat_inj.mp heq]
        exact mem_cons_self
      · exact mem_cons_of_mem _ (hl.owned c' hmark)
    · exact grounded_replaySet hl.grounded c
    · exact hl.groundedPrevious
  · have hnew : (w.prevEpoch, c) ∉ taken := fun hmem => by
      rw [hl.previous hvalid c hmem] at hfresh
      exact absurd hfresh (by decide)
    constructor
    · exact nodup_cons.mpr ⟨hnew, hl.nodup⟩
    · intro e' c' hmem
      rcases mem_cons.mp hmem with heq | hmem
      · cases heq
        exact ⟨hne, (hl.older hvalid).le⟩
      · exact hl.bound e' c' hmem
    · intro c' hmem
      rcases mem_cons.mp hmem with heq | hmem
      · exact absurd (Prod.mk.inj heq).1.symm hcur
      · exact hl.current c' hmem
    · intro _ c' hmem
      apply not_fresh_replaySet hl.groundedPrevious
      rcases mem_cons.mp hmem with heq | hmem
      · exact .inl (Prod.mk.inj heq).2
      · exact .inr (hl.previous hvalid c' hmem)
    · exact hl.older
    · intro c' hmark
      exact mem_cons_of_mem _ (hl.owned c' hmark)
    · exact hl.grounded
    · exact grounded_replaySet hl.groundedPrevious c

/-- What a rotation changes. -/
theorem epochRotate_some (h : epochRotate w e = some w') :
    w' = w ∨
      (w.epoch ≠ 0 ∧ w.epoch.toNat < e.toNat ∧
        w' = { epoch := e, prevEpoch := w.epoch, prevValid := true, current := .zero,
               previous := w.current }) ∨
      (w.epoch = 0 ∧ w' = { w with epoch := e, current := .zero }) := by
  unfold epochRotate at h
  split at h
  · simp at h
  split at h
  · cases h
    exact .inl rfl
  next hsame =>
  split at h
  · simp at h
  next hback =>
  split at h
  · next hbound =>
    cases h
    refine .inr (.inl ⟨hbound, ?_, rfl⟩)
    have hle : w.epoch.toNat ≤ e.toNat := by
      by_contra hlt
      exact hback ⟨hbound, UInt32.lt_iff_toNat_lt.mpr (by omega)⟩
    have hne : w.epoch.toNat ≠ e.toNat := fun heq => hsame (UInt32.toNat_inj.mp heq)
    omega
  · next hbound =>
    cases h
    exact .inr (.inr ⟨not_not.mp hbound, rfl⟩)

/-- A rotation forgets no counter of an epoch that can still be claimed. -/
theorem Ledger.rotate (hl : Ledger w taken) (h : epochRotate w e = some w') : Ledger w' taken := by
  have hempty : ∀ c : UInt64, (ReplayWin.zero.window).isMarked c.toNat = false := by
    intro c
    simp [ReplayWin.zero, ReplayWin.window, SlidingWindow.isMarked]
  rcases epochRotate_some h with rfl | ⟨hbound, hlt, rfl⟩ | ⟨hbound, rfl⟩
  · exact hl
  · constructor
    · exact hl.nodup
    · intro e' c' hmem
      have hle := hl.bound e' c' hmem
      exact ⟨hle.1, hle.2.trans hlt.le⟩
    · intro c' hmem
      -- the new epoch is above every epoch that was claimed
      have hle : e.toNat ≤ w.epoch.toNat := (hl.bound _ c' hmem).2
      omega
    · intro _ c' hmem
      exact hl.current c' hmem
    · exact fun _ => hlt
    · intro c' hmark
      rw [hempty c'] at hmark
      exact absurd hmark (by decide)
    · exact ReplayWin.grounded_zero
    · exact hl.grounded
  · -- before the first rotation nothing can have been claimed
    have hnone : ∀ e' c', (e', c') ∉ taken := by
      intro e' c' hmem
      obtain ⟨hne, hle⟩ := hl.bound e' c' hmem
      rw [hbound] at hle
      exact hne (UInt32.toNat_inj.mp (Nat.le_zero.mp hle))
    have hinvalid : w.prevValid ≠ true := fun hvalid => by
      have hlt := hl.older hvalid
      rw [hbound] at hlt
      exact absurd hlt (Nat.not_lt_zero _)
    constructor
    · exact hl.nodup
    · exact fun e' c' hmem => absurd hmem (hnone e' c')
    · exact fun c' hmem => absurd hmem (hnone _ c')
    · exact fun hvalid => absurd hvalid hinvalid
    · exact fun hvalid => absurd hvalid hinvalid
    · intro c' hmark
      rw [hempty c'] at hmark
      exact absurd hmark (by decide)
    · exact ReplayWin.grounded_zero
    · exact hl.groundedPrevious

/-- A counter of the current epoch that nobody has taken and that is not older than the window is
granted. -/
theorem Ledger.claim_granted (hl : Ledger w taken) (hbound : w.epoch ≠ 0)
    (hnew : w.current.hi.toNat < c.toNat + replayBits) (hfree : (w.epoch, c) ∉ taken) :
    (epochClaim w w.epoch c).1 = .ok := by
  have hmark : w.current.window.isMarked c.toNat = false := by
    by_contra hmark
    exact hfree (hl.owned c (Bool.not_eq_false _ ▸ hmark))
  have hfresh := SlidingWindow.isFresh_iff_isMarked.mpr (.inr ⟨hnew, hmark⟩)
  have hok := (replayObserveWin_ok_iff w.current c).mpr hfresh
  simp [epochClaim, hbound, hok]

/-! ### The windows of one session in the tables -/

namespace KernModule

/-- The windows under an id: those of the published session, or of the one being replaced. -/
def windowOf (m : KernModule) (id : SessionId) : Option EpochWin :=
  match m.sessions.lookup id with
  | some s => some s.replay
  | none =>
    match m.lifecycle with
    | .inserting add (some old) => if add.sessionId = id then some old.replay else none
    | _ => none

/-- The tables as they can be while the session is not removed. A replacement holds the place of
the session it has detached, so it cannot fail for lack of room. -/
structure Sound (m : KernModule) (id : SessionId) : Prop where
  absent : ∀ add old, m.lifecycle = .inserting add old → m.sessions.lookup add.sessionId = none
  count : m.sessionCount ≤ maxSessions
  place : ∀ add old, m.lifecycle = .inserting add (some old) → m.sessionCount < maxSessions
  kept : ∀ old, m.lifecycle ≠ .removing id old

variable {m : KernModule} {id : SessionId}

variable {s : KernSession} {id' : SessionId}

theorem windowOf_of_lookup (h : m.sessions.lookup id = some s) : m.windowOf id = some s.replay := by
  simp [windowOf, h]

theorem windowOf_setSession (id' : SessionId) (s' : KernSession) :
    (m.setSession id' s').windowOf id = if id = id' then some s'.replay else m.windowOf id := by
  unfold windowOf setSession
  simp only [Table.lookup_insert_eq]
  by_cases hid : id = id' <;> simp [hid]

theorem Sound.setSession (hs : m.Sound id) (s' : KernSession) (h : m.sessions.lookup id' = some s) :
    (m.setSession id' s').Sound id where
  absent add old hlife := by
    have habsent := hs.absent add old hlife
    have hne : add.sessionId ≠ id' := fun heq => by
      rw [heq, h] at habsent
      exact absurd habsent (by simp)
    simp only [KernModule.setSession, Table.lookup_insert_eq, if_neg hne]
    exact habsent
  count := hs.count
  place := hs.place
  kept := hs.kept

theorem Sound.setQos (hs : m.Sound id) (qos : Qos) : ({ m with qos := qos }).Sound id where
  absent := hs.absent
  count := hs.count
  place := hs.place
  kept := hs.kept

theorem Sound.setReaders (hs : m.Sound id) (readers : List Holder) :
    ({ m with readers := readers }).Sound id where
  absent := hs.absent
  count := hs.count
  place := hs.place
  kept := hs.kept

variable {holder : Holder}

/-- What a read section can hold. -/
theorem held_cases (h : m.held holder = some (id, s)) :
    (holder = .live id ∧ m.sessions.lookup id = some s) ∨
      (holder = .detached ∧ ∃ add, m.lifecycle = .inserting add (some s) ∧ add.sessionId = id) ∨
      (holder = .detached ∧ m.lifecycle = .removing id s) := by
  cases holder with
  | live i =>
    obtain ⟨s', hlookup, heq⟩ := Option.map_eq_some_iff.mp h
    cases heq
    exact .inl ⟨rfl, hlookup⟩
  | detached =>
    simp only [held] at h
    split at h
    · next add old hlife =>
      cases h
      exact .inr (.inl ⟨rfl, add, hlife, rfl⟩)
    · next i old hlife =>
      cases h
      exact .inr (.inr ⟨rfl, hlife⟩)
    · simp at h

/-- A read section that holds the session's object sees its windows. -/
theorem windowOf_of_held (hs : m.Sound id) (h : m.held holder = some (id, s)) :
    m.windowOf id = some s.replay := by
  rcases held_cases h with ⟨-, hlookup⟩ | ⟨-, add, hlife, rfl⟩ | ⟨-, hlife⟩
  · exact windowOf_of_lookup hlookup
  · simp [windowOf, hs.absent add (some s) hlife, hlife]
  · exact absurd hlife (hs.kept s)

/-- Changing a held object changes the windows of its own session only. -/
theorem windowOf_setHeld (hs : m.Sound id) (s' : KernSession) (h : m.held holder = some (id', s)) :
    (m.setHeld holder s').windowOf id = if id = id' then some s'.replay else m.windowOf id := by
  rcases held_cases h with ⟨rfl, hlookup⟩ | ⟨rfl, add, hlife, rfl⟩ | ⟨rfl, hlife⟩
  · exact windowOf_setSession id' s'
  · by_cases hid : id = add.sessionId
    · subst hid
      simp [windowOf, setHeld, hlife, hs.absent add (some s) hlife]
    · have hid' : ¬ add.sessionId = id := fun heq => hid heq.symm
      simp [windowOf, setHeld, hlife, hid, hid']
  · have hid : ¬ id = id' := fun heq => hs.kept s (heq ▸ hlife)
    simp [windowOf, setHeld, hlife, hid]

theorem Sound.setHeld (hs : m.Sound id) (s' : KernSession) (h : m.held holder = some (id', s)) :
    (m.setHeld holder s').Sound id := by
  rcases held_cases h with ⟨rfl, hlookup⟩ | ⟨rfl, add, hlife, rfl⟩ | ⟨rfl, hlife⟩
  · exact hs.setSession s' hlookup
  · simp only [KernModule.setHeld, hlife]
    constructor
    · intro add' old' hlife'
      cases hlife'
      exact hs.absent add (some s) hlife
    · exact hs.count
    · intro _ _ _
      exact hs.place add s hlife
    · simp
  · simp only [KernModule.setHeld, hlife]
    constructor
    · simp
    · exact hs.count
    · simp
    · intro old hlife'
      cases hlife'
      exact hs.kept s hlife

end KernModule

/-! ### What a step can do to the windows -/

/-- The windows of a session before and after a step, with the counters that the step takes. -/
inductive WindowStep : Option EpochWin → List (UInt32 × UInt64) → Option EpochWin → Prop
  | same (w : Option EpochWin) : WindowStep w [] w
  | opened : WindowStep none [] (some .zero)
  | claimed {w w' : EpochWin} {e : UInt32} {c : UInt64} (h : epochClaim w e c = (.ok, w')) :
      WindowStep (some w) [(e, c)] (some w')
  | rotated {w w' : EpochWin} {e : UInt32} (h : epochRotate w e = some w') :
      WindowStep (some w) [] (some w')

theorem replay_sessionAccount (qos : Qos) (s : KernSession) (dir : Direction)
    (nbytes nowNs : UInt64) : (sessionAccount qos s dir nbytes nowNs).2.2.replay = s.replay := by
  unfold sessionAccount
  split
  · rfl
  · split <;> rfl

theorem replay_dlReserve (qos : Qos) (s : KernSession) (ip : List UInt8) (pktLen : Nat)
    (nowNs : UInt64) (peer : RawIpv4 → Bool) :
    (dlReserve qos s ip pktLen nowNs peer).2.2.replay = s.replay := by
  unfold dlReserve
  split
  · rfl
  · rfl
  · split
    · rfl
    · split
      · rfl
      · split
        · rfl
        · split
          · rfl
          · rfl
          · dsimp only
            split <;> exact replay_sessionAccount ..

/-- A finished packet either leaves the windows alone and is not accepted, or took its counter. -/
theorem rxFinish_cases (qos : Qos) (s : KernSession) (epoch : UInt32) (counter : UInt64)
    (plain : List UInt8) (wireLen : Nat) (nowNs : UInt64) (peer : RawIpv4 → Bool) :
    let r := rxFinish qos s epoch counter plain wireLen nowNs peer
    (r.claimed = false ∧ r.verdict ≠ .accept ∧ r.session.replay = s.replay) ∨
      (r.claimed = true ∧ epochClaim s.replay epoch counter = (.ok, r.session.replay)) := by
  intro r
  unfold r rxFinish
  split
  · split
    · exact .inl ⟨rfl, by simp, rfl⟩
    · split
      · exact .inl ⟨rfl, by simp, rfl⟩
      · exact .inl ⟨rfl, by simp, rfl⟩
      · split
        · split
          · exact .inl ⟨rfl, by simp, rfl⟩
          · next view hview =>
            split
            · have hframe := replay_sessionAccount qos s .uplink (UInt64.ofNat view.length) nowNs
              dsimp only
              split
              · exact .inl ⟨rfl, by simp, hframe⟩
              unfold rxClaim
              rw [hframe]
              split
              · exact .inl ⟨rfl, by simp, hframe⟩
              · next replay hclaim =>
                split <;> exact .inr ⟨rfl, hclaim⟩
              · exact .inl ⟨rfl, by simp, hframe⟩
            · next hv => exact .inl ⟨rfl, hv, rfl⟩
        · next hv => exact .inl ⟨rfl, hv, rfl⟩
  · next hv => exact .inl ⟨rfl, hv, rfl⟩

namespace KernModule

/-- The tables after a step that takes no counter. -/
def Stays (m m' : KernModule) (id : SessionId) : Prop :=
  m'.Sound id ∧ WindowStep (m.windowOf id) [] (m'.windowOf id)

variable {m m' : KernModule} {id : SessionId}

theorem stays_of_eq (hs : m'.Sound id) (h : m'.windowOf id = m.windowOf id) : Stays m m' id := by
  refine ⟨hs, ?_⟩
  rw [h]
  exact .same _

/-- The budgets and the read sections say nothing about windows. -/
theorem Stays.setQos (h : Stays m m' id) (qos : Qos) : Stays m { m' with qos := qos } id :=
  ⟨h.1.setQos qos, h.2⟩

section

variable (hs : m.Sound id) (id' : SessionId)

include hs

theorem stays_rfl : Stays m m id := stays_of_eq hs rfl

/-- A published session is changed apart from its windows. -/
theorem stays_setSession {id' : SessionId} {s : KernSession} (h : m.sessions.lookup id' = some s)
    {s' : KernSession} (hreplay : s'.replay = s.replay) : Stays m (m.setSession id' s') id := by
  apply stays_of_eq (hs.setSession s' h)
  rw [windowOf_setSession]
  split
  · next hid =>
    rw [hid, windowOf_of_lookup h, hreplay]
  · rfl

theorem stays_policySet (input : SessionPolicy) (allocated : Bool) :
    Stays m (m.sessionPolicySet id' input allocated).2 id := by
  unfold sessionPolicySet
  split
  · exact stays_rfl hs
  next s hlookup =>
  split
  · exact stays_rfl hs
  split
  · apply Stays.setQos
    exact stays_setSession hs hlookup rfl
  · exact stays_setSession hs hlookup rfl

theorem stays_sync (ack : Bool) : Stays m (m.sessionSync id' ack).2 id := by
  unfold sessionSync
  split
  · exact stays_rfl hs
  · next s hlookup => exact stays_setSession hs hlookup rfl

theorem stays_qosCharge (dir : Direction) (nbytes nowNs : UInt64) :
    Stays m (m.sessionQosCharge id' dir nbytes nowNs).2 id := by
  unfold sessionQosCharge
  split
  · exact stays_rfl hs
  next s hlookup =>
  split
  · exact stays_rfl hs
  · split
    · exact stays_rfl hs
    · exact (stays_setSession hs hlookup (replay_sessionAccount ..)).setQos _

theorem stays_downlinkUpdate (mdh : List UInt8) (seqBase tagPos : UInt16) (entries : List DlEntry) :
    Stays m (m.sessionDownlinkUpdate id' mdh seqBase tagPos entries).2 id := by
  unfold sessionDownlinkUpdate
  split
  · exact stays_rfl hs
  · split
    · exact stays_rfl hs
    · next s hlookup => exact stays_setSession hs hlookup rfl

theorem stays_clientRevoke (key : ClientKey) : Stays m (m.clientRevoke key).2 id := by
  unfold clientRevoke
  split
  · exact stays_rfl hs
  constructor
  · constructor
    · intro add old hlife
      simp only [Table.lookup_mapValues, hs.absent add old hlife, Option.map_none]
    · exact hs.count
    · exact hs.place
    · exact hs.kept
  · have hsame : windowOf { m with sessions := m.sessions.mapValues fun s =>
        if s.pol.clientKey = key then
          { s with pol := { s.pol with flags := s.pol.flags ||| polRevoked } }
        else s } id = m.windowOf id := by
      unfold windowOf
      simp only [Table.lookup_mapValues]
      cases m.sessions.lookup id with
      | none => rfl
      | some s =>
        simp only [Option.map_some]
        split <;> rfl
    rw [hsame]
    exact .same _

theorem stays_replayRotate (epoch : UInt32) : Stays m (m.sessionReplayRotate id' epoch).2 id := by
  unfold sessionReplayRotate
  split
  · exact stays_rfl hs
  next s hlookup =>
  split
  · exact stays_rfl hs
  next replay hrotate =>
  refine ⟨hs.setSession _ hlookup, ?_⟩
  rw [windowOf_setSession]
  split
  · next hid =>
    rw [hid, windowOf_of_lookup hlookup]
    exact .rotated hrotate
  · exact .same _

theorem stays_readBegin : Stays m (m.readBegin id') id := by
  unfold readBegin
  split
  · exact stays_rfl hs
  · exact ⟨hs.setReaders _, .same _⟩

/-- Detaching another session for removal. -/
theorem stays_removeBegin {id' : SessionId} (hid : id' ≠ id) : Stays m (m.removeBegin id') id := by
  unfold removeBegin
  split
  · next hidle =>
    split
    · exact stays_rfl hs
    next old hlookup =>
    have hid' : id ≠ id' := fun heq => hid heq.symm
    apply stays_of_eq
    · constructor
      · simp [detach]
      · have := hs.count
        simp only [detach]
        omega
      · simp [detach]
      · intro old' hlife
        simp only [detach, Lifecycle.removing.injEq] at hlife
        exact hid hlife.1
    · simp [windowOf, detach, hid', hidle]
  · exact stays_rfl hs

theorem stays_removeEnd : Stays m m.removeEnd id := by
  unfold removeEnd
  split
  · next id' old hlife =>
    split
    · exact stays_rfl hs
    · apply stays_of_eq
      · exact ⟨by simp, hs.count, by simp, by simp⟩
      · simp [windowOf, hlife]
  · exact stays_rfl hs

/-- Detaching a session for its replacement leaves its windows in the detached object. -/
theorem stays_insertBegin (add : SessionAdd) (allocated : Bool) :
    Stays m (m.insertBegin add allocated) id := by
  unfold insertBegin
  split
  · next hidle =>
    split
    · exact stays_rfl hs
    split
    · next hnone =>
      apply stays_of_eq
      · constructor
        · intro add' old' hlife
          cases hlife
          exact hnone
        · exact hs.count
        · simp
        · simp
      · simp [windowOf, hidle]
    · next old hlookup =>
      have hcount := hs.count
      apply stays_of_eq
      · constructor
        · intro add' old' hlife
          cases hlife
          simp [detach]
        · simp only [detach]
          omega
        · intro add' old' hlife
          simp only [detach]
          omega
        · simp [detach]
      · by_cases hid : id = add.sessionId
        · subst hid
          rw [windowOf_of_lookup hlookup]
          simp [windowOf, detach]
        · have hid' : ¬ add.sessionId = id := fun heq => hid heq.symm
          simp [windowOf, detach, hid, hid', hidle]
  · exact stays_rfl hs

/-- A replacement publishes the windows of the object it has detached. -/
theorem stays_insertEnd : Stays m m.insertEnd id := by
  unfold insertEnd
  split
  · next add old hlife =>
    have habsent := hs.absent add old hlife
    split
    · exact stays_rfl hs
    split
    · next hfull =>
      -- only a new id can find the table full
      cases old with
      | some old =>
        have := hs.place add old hlife
        omega
      | none =>
        apply stays_of_eq
        · exact ⟨by simp, hs.count, by simp, by simp⟩
        · simp [windowOf, hlife]
    · next hroom =>
      have hsound : Sound { m with
          sessions := m.sessions.insert add.sessionId (inserted add old)
          sessionCount := m.sessionCount + 1
          lifecycle := .idle } id := by
        refine ⟨by simp, ?_, by simp, by simp⟩
        dsimp only
        omega
      by_cases hid : id = add.sessionId
      · subst hid
        cases old with
        | some old =>
          apply stays_of_eq hsound
          simp [windowOf, habsent, hlife, inserted]
        | none =>
          refine ⟨hsound, ?_⟩
          have hbefore : m.windowOf add.sessionId = none := by
            simp [windowOf, habsent, hlife]
          rw [hbefore, windowOf_of_lookup (AList.lookup_insert _)]
          exact .opened
      · have hid' : ¬ add.sessionId = id := fun heq => hid heq.symm
        apply stays_of_eq hsound
        cases hlookup : m.sessions.lookup id with
        | some s => simp [windowOf, hid, hlookup]
        | none => cases old <;> simp [windowOf, hid, hid', hlookup, hlife]
  · exact stays_rfl hs

end

end KernModule

/-! ### Runs -/

/-- Windows that match the counters taken; before the session exists none are. -/
def Matches : Option EpochWin → List (UInt32 × UInt64) → Prop
  | none, taken => taken = []
  | some w, taken => Ledger w taken

theorem Matches.step {w w' : Option EpochWin} {new taken : List (UInt32 × UInt64)}
    (h : Matches w taken) (hstep : WindowStep w new w') : Matches w' (new ++ taken) := by
  cases hstep with
  | same => exact h
  | opened =>
    rw [show taken = [] from h]
    exact ledger_zero
  | claimed hclaim => exact Ledger.claim h hclaim
  | rotated hrotate => exact Ledger.rotate h hrotate

namespace Delivery

/-- What every step keeps for a session that is not removed. -/
structure Safe (d : Delivery) (id : SessionId) : Prop where
  sound : d.tables.Sound id
  matched : Matches (d.tables.windowOf id) (ofSession id d.claimed)
  claimed : (ofSession id d.delivered).Sublist (ofSession id d.claimed)

variable {d : Delivery} {id : SessionId} {tables : KernModule}

theorem Safe.setTables (hd : d.Safe id) (h : KernModule.Stays d.tables tables id) :
    (d.setTables tables).Safe id where
  sound := h.1
  matched := hd.matched.step h.2
  claimed := hd.claimed

/-- A counter is taken from the windows of a session, and its packet may be delivered. -/
theorem Safe.take (hd : d.Safe id) {id' : SessionId} {w' : EpochWin} {e : UInt32}
    (hclaim : epochClaim w e c = (.ok, w')) (hsound : tables.Sound id)
    (hbefore : id = id' → d.tables.windowOf id = some w)
    (hafter : tables.windowOf id = if id = id' then some w' else d.tables.windowOf id)
    {delivered : List PacketId}
    (hdelivered : delivered = (id', e, c) :: d.delivered ∨ delivered = d.delivered) :
    Safe ⟨tables, delivered, (id', e, c) :: d.claimed⟩ id := by
  by_cases hid : id = id'
  · subst hid
    rw [if_pos rfl] at hafter
    constructor
    · exact hsound
    · rw [hafter, ofSession_cons, if_pos rfl]
      have hmatched := hd.matched
      rw [hbefore rfl] at hmatched
      exact hmatched.step (.claimed hclaim)
    · rw [ofSession_cons, if_pos rfl]
      rcases hdelivered with rfl | rfl
      · rw [ofSession_cons, if_pos rfl]
        exact hd.claimed.cons_cons _
      · exact hd.claimed.cons _
  · have hid' : ¬ id' = id := fun heq => hid heq.symm
    rw [if_neg hid] at hafter
    constructor
    · exact hsound
    · rw [hafter, ofSession_cons, if_neg hid']
      exact hd.matched
    · rw [ofSession_cons, if_neg hid']
      rcases hdelivered with rfl | rfl
      · rw [ofSession_cons, if_neg hid']
        exact hd.claimed
      · exact hd.claimed

theorem Safe.claim (hd : d.Safe id) (id' : SessionId) (epoch : UInt32) (counter : UInt64) :
    (d.claim id' epoch counter).Safe id := by
  unfold Delivery.claim KernModule.sessionReplayClaim
  cases hlookup : d.tables.sessions.lookup id' with
  | none => exact hd.setTables (KernModule.stays_rfl hd.sound)
  | some s =>
    cases hclaim : epochClaim s.replay epoch counter with
    | mk result replay =>
      have hrefused : result ≠ .ok → KernModule.Stays d.tables
          (d.tables.setSession id' { s with replay := replay }) id := fun hne => by
        apply KernModule.stays_setSession hd.sound hlookup
        have hsame := epochClaim_refused (show (epochClaim s.replay epoch counter).1 ≠ .ok by
          rw [hclaim]
          exact hne)
        rwa [hclaim] at hsame
      simp only [hclaim]
      cases result with
      | ok =>
        refine hd.take hclaim (hd.sound.setSession _ hlookup) ?_ ?_ (.inl rfl)
        · intro hid
          rw [hid]
          exact KernModule.windowOf_of_lookup hlookup
        · exact KernModule.windowOf_setSession id' _
      | dup | tooOld | epoch => exact hd.setTables (hrefused (by decide))

theorem Safe.finish (hd : d.Safe id) (reader : Nat) (epoch : UInt32) (counter : UInt64)
    (plain : List UInt8) (wireLen : Nat) (nowNs : UInt64) (peer : RawIpv4 → Bool) :
    (d.finish reader epoch counter plain wireLen nowNs peer).Safe id := by
  unfold Delivery.finish
  split
  · exact hd
  next holder hreader =>
  split
  · exact hd
  next id' s hheld =>
  have hcases := rxFinish_cases d.tables.qos s epoch counter plain wireLen nowNs peer
  generalize rxFinish d.tables.qos s epoch counter plain wireLen nowNs peer = r at hcases ⊢
  have hafter := KernModule.windowOf_setHeld hd.sound r.session hheld
  have hsound := hd.sound.setHeld r.session hheld
  have hbefore : id = id' → d.tables.windowOf id = some s.replay := by
    rintro rfl
    exact KernModule.windowOf_of_held hd.sound hheld
  rcases hcases with ⟨hclaimed, hverdict, hreplay⟩ | ⟨hclaimed, hclaim⟩
  · simp only [hclaimed, hverdict, if_false, Bool.false_eq_true]
    apply hd.setTables
    apply KernModule.Stays.setQos
    apply KernModule.stays_of_eq hsound
    rw [hafter, hreplay]
    split
    · next hid => exact (hbefore hid).symm
    · rfl
  · simp only [hclaimed, if_true]
    apply hd.take hclaim (hsound.setQos r.qos) hbefore hafter
    split
    · exact .inl rfl
    · exact .inr rfl

theorem Safe.reserve (hd : d.Safe id) (reader : Nat) (ip : List UInt8) (pktLen : Nat)
    (nowNs : UInt64) (peer : RawIpv4 → Bool) : (d.reserve reader ip pktLen nowNs peer).Safe id := by
  unfold Delivery.reserve
  split
  · exact hd
  next holder hreader =>
  split
  · exact hd
  next id' s hheld =>
  apply hd.setTables
  apply KernModule.Stays.setQos
  apply KernModule.stays_of_eq (hd.sound.setHeld _ hheld)
  rw [KernModule.windowOf_setHeld hd.sound _ hheld, replay_dlReserve]
  split
  · next hid =>
    subst hid
    exact (KernModule.windowOf_of_held hd.sound hheld).symm
  · rfl

theorem Safe.perform (hd : d.Safe id) {step : KernelStep} (hstep : step.removes ≠ some id) :
    (d.perform step).Safe id := by
  cases step with
  | insertBegin add allocated => exact hd.setTables (KernModule.stays_insertBegin hd.sound _ _)
  | insertEnd => exact hd.setTables (KernModule.stays_insertEnd hd.sound)
  | removeBegin id' =>
    apply hd.setTables
    apply KernModule.stays_removeBegin hd.sound
    exact fun heq => hstep (congrArg some heq)
  | removeEnd => exact hd.setTables (KernModule.stays_removeEnd hd.sound)
  | policySet id' input allocated =>
    exact hd.setTables (KernModule.stays_policySet hd.sound _ _ _)
  | sync id' ack => exact hd.setTables (KernModule.stays_sync hd.sound _ _)
  | replayClaim id' epoch counter => exact hd.claim id' epoch counter
  | replayRotate id' epoch => exact hd.setTables (KernModule.stays_replayRotate hd.sound _ _)
  | qosCharge id' dir nbytes nowNs =>
    exact hd.setTables (KernModule.stays_qosCharge hd.sound _ _ _ _)
  | clientRevoke key => exact hd.setTables (KernModule.stays_clientRevoke hd.sound _)
  | downlinkUpdate id' mdh seqBase tagPos entries =>
    exact hd.setTables (KernModule.stays_downlinkUpdate hd.sound _ _ _ _ _)
  | readBegin id' => exact hd.setTables (KernModule.stays_readBegin hd.sound _)
  | readEnd reader => exact hd.setTables ⟨hd.sound.setReaders _, .same _⟩
  | rxFinish reader epoch counter plain wireLen nowNs peer => exact hd.finish ..
  | dlReserve reader ip pktLen nowNs peer => exact hd.reserve ..

theorem safe_start (id : SessionId) : start.Safe id where
  sound := ⟨by simp [start, KernModule.empty], by decide, by simp [start, KernModule.empty],
    by simp [start, KernModule.empty]⟩
  matched := by
    have hnone : start.tables.windowOf id = none := by
      simp [KernModule.windowOf, start, KernModule.empty]
    rfl
  claimed := Sublist.refl _

/-- The epoch that is bound to a published session; a session starts out bound to none. -/
def currentEpoch (d : Delivery) (id : SessionId) : Option UInt32 :=
  match d.tables.sessions.lookup id with
  | none => none
  | some s => if s.replay.epoch = 0 then none else some s.replay.epoch

/-- The newest counter of the current epoch, `hi`. -/
def newestCounter (d : Delivery) (id : SessionId) : Nat :=
  ((d.tables.sessions.lookup id).map fun s => s.replay.current.hi.toNat).getD 0

/-- However the packet paths and the ioctls on a session interleave, each packet is delivered at
most once, by the kernel or by userspace. A counter of the current epoch that nobody has taken is
granted to whoever claims it, unless it is 512 or more behind the newest. -/
theorem each_packet_delivered_once (id : SessionId) (steps : List KernelStep)
    (hkept : ∀ step ∈ steps, step.removes ≠ some id) (k : Nat) :
    (ofSession id (after steps k).delivered).Nodup ∧
      ∀ epoch counter, (after steps k).currentEpoch id = some epoch →
        (after steps k).newestCounter id < counter.toNat + 512 →
        (epoch, counter) ∉ ofSession id (after steps k).claimed →
        ((after steps k).tables.sessionReplayClaim id epoch counter).1 = .ok .ok := by
  -- no step but the removal of the session breaks the invariant
  have hsafe : (after steps k).Safe id := by
    apply stateAt_keeps (P := fun d => Safe d id) (Nat.zero_le k) (safe_start id)
    intro j step _ _ hstep hsafe
    exact hsafe.perform (hkept step (mem_of_getElem? hstep))
  generalize after steps k = d at hsafe ⊢
  have hmatched := hsafe.matched
  constructor
  · cases hwindow : d.tables.windowOf id with
    | none =>
      rw [hwindow] at hmatched
      have hnil := hsafe.claimed
      rw [show ofSession id d.claimed = [] from hmatched, sublist_nil] at hnil
      rw [hnil]
      exact nodup_nil
    | some w =>
      rw [hwindow] at hmatched
      exact hmatched.nodup.sublist hsafe.claimed
  · intro epoch counter hepoch hnew hfree
    unfold currentEpoch at hepoch
    cases hlookup : d.tables.sessions.lookup id with
    | none => simp [hlookup] at hepoch
    | some s =>
      simp only [hlookup] at hepoch
      split at hepoch
      · simp at hepoch
      next hbound =>
      cases hepoch
      rw [KernModule.windowOf_of_lookup hlookup] at hmatched
      simp only [newestCounter, hlookup, Option.map_some, Option.getD_some] at hnew
      have hgranted := Ledger.claim_granted hmatched hbound hnew hfree
      simp only [KernModule.sessionReplayClaim, hlookup, hgranted]

def sampleAdd : SessionAdd := ⟨Vector.replicate 16 7, Vector.replicate 28 0⟩

def samplePolicy : SessionPolicy where
  policyVersion := 1
  role := roleServer
  flags := 0
  clientIpv4 := sampleIpv4
  ipv6Prefix := Vector.replicate 16 0
  ipv6PrefixLen := 0
  rateUpBps := 0
  rateDownBps := 0
  quotaUpBytes := 0
  quotaDownBytes := 0
  maxSessions := 0
  clientKey := Vector.replicate 16 0

def samplePacket : List UInt8 :=
  [0x45, 0, 0, 20, 0, 0, 0, 0, 64, 17, 0, 0, 10, 0, 0, 2, 8, 8, 8, 8]

/-- The session is replaced while a packet path still holds the old object and delivers counter 9
on it; afterwards userspace claims 9 in vain and then gets 8. -/
def replacedRun : List KernelStep :=
  [.insertBegin sampleAdd true, .insertEnd, .replayRotate sampleAdd.sessionId 1,
    .policySet sampleAdd.sessionId samplePolicy true, .readBegin sampleAdd.sessionId,
    .insertBegin sampleAdd true, .insertEnd,
    .rxFinish 0 1 9 samplePacket 60 1 (fun _ => false), .readEnd 0, .insertEnd,
    .replayClaim sampleAdd.sessionId 1 9, .replayClaim sampleAdd.sessionId 1 8]

theorem each_packet_delivered_once_replacedRun :
    ofSession sampleAdd.sessionId (after replacedRun 12).delivered = [(1, 8), (1, 9)] ∧
      (ofSession sampleAdd.sessionId (after replacedRun 12).delivered).Nodup ∧
      ((after replacedRun 12).tables.sessionReplayClaim sampleAdd.sessionId 1 7).1 = .ok .ok := by
  have h := each_packet_delivered_once sampleAdd.sessionId replacedRun (by decide) 12
  refine ⟨by decide +kernel, h.1, h.2 1 7 ?_ ?_ ?_⟩ <;> decide +kernel

end Delivery

end AivpnSpec.Kernel
