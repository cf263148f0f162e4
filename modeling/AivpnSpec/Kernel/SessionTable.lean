import AivpnSpec.Base.Table
import AivpnSpec.Kernel.Address

/-!
# The session table of the kernel module

`linux-kernel/src/session_table.c`. Sessions are published under their id; a packet path holds a
session by pointer inside an RCU read section. Replacing or removing a session first detaches the
old object, then waits until the read sections that may still hold it are over, and only then
copies or frees it. The ioctls in between find no session. Memory shortage, clock readings and the
answer of the lookup by IP address are inputs.
-/

namespace AivpnSpec.Kernel

open AivpnSpec.Base

/-- The id of a session, `__u8[16]`. -/
abbrev SessionId := Vector UInt8 16

/-- `MAX_SESSIONS`, `helpers.h:25`. -/
def maxSessions : Int := 500

/-- `AIVPN_TAG_WINDOW_SLOTS`, `uapi/aivpn.h:186`. -/
def tagWindowSlots : Nat := 256

/-- `AIVPN_DL_MDH_MAX`, `uapi/aivpn.h:220`. -/
def dlMdhMax : Nat := 64

/-- The tag position of packets with the tag in front of the header. -/
def legacyTagPos : UInt16 := 0xffff

/-- The error codes of the ioctls. -/
inductive Errno where
  | einval
  | enoent
  | enomem
  | enospc
  | eperm
  | eagain
  deriving DecidableEq

/-- `struct aivpn_dl_entry`, `session_table.h:64-67`. -/
structure DlEntry where
  tag : Vector UInt8 8
  counter : UInt64
  deriving DecidableEq

/-- What the modelled functions read of `struct aivpn_kern_session`, `session_table.h:69-122`; the
header and the entries are as long as their counts say. -/
structure KernSession where
  clientAddr : Vector UInt8 28
  dlMdh : List UInt8
  dlSeqBase : UInt16
  dlTagPos : UInt16
  dlEntries : List DlEntry
  dlNext : Nat
  pol : Pol
  replay : EpochWin
  rxPackets : UInt64
  rxBytes : UInt64
  txPackets : UInt64
  txBytes : UInt64

/-- What the modelled functions read of `struct aivpn_session_add`, `uapi/aivpn.h:120-133`. -/
structure SessionAdd where
  sessionId : SessionId
  clientAddr : Vector UInt8 28

/-- The budgets that sessions of one client share, `session_table.c:50-57`. -/
abbrev Qos := Table ClientKey Pol

/-- What holds `aivpn_lifecycle_lock`: nothing, or an insertion or removal that has detached its
session and waits for the read sections. -/
inductive Lifecycle where
  | idle
  | inserting (add : SessionAdd) (old : Option KernSession)
  | removing (id : SessionId) (old : KernSession)

/-- What a read section holds: the session published under an id, or the detached one. -/
inductive Holder where
  | live (id : SessionId)
  | detached
  deriving DecidableEq

/-- The tables of the module and the open read sections. -/
structure KernModule where
  sessions : Table SessionId KernSession
  sessionCount : Int
  qos : Qos
  lifecycle : Lifecycle
  readers : List Holder

/-- The module after `aivpn_session_table_init`. -/
def KernModule.empty : KernModule where
  sessions := ∅
  sessionCount := 0
  qos := ∅
  lifecycle := .idle
  readers := []

/-- `aivpn_key_nonzero`, `session_table.c:473-481`. -/
def keyNonzero (key : ClientKey) : Bool := key.toList.foldl (· ||| ·) 0 ≠ 0

/-- `aivpn_session_account`, `session_table.c:545-569`: a session without a client key is charged
itself, one with a key through the client's shared budget. -/
def sessionAccount (qos : Qos) (s : KernSession) (dir : Direction) (nbytes nowNs : UInt64) :
    Verdict × Qos × KernSession :=
  if !keyNonzero s.pol.clientKey then
    let charged := polCharge s.pol dir nbytes nowNs
    (charged.1, qos, { s with pol := charged.2 })
  else
    match qos.lookup s.pol.clientKey with
    | none => (.fallback, qos, s)
    | some budget =>
      let charged := polCharge budget dir nbytes nowNs
      (charged.1, qos.insert s.pol.clientKey charged.2,
        { s with pol := { s.pol with quotaUp := charged.2.quotaUp
                                     quotaDown := charged.2.quotaDown } })

/-- `aivpn_pol_slot_armed`, `session_table.c:593-603`. -/
def polSlotArmed (p : Pol) : Bool :=
  if !p.armed || p.version ≠ policyVersion then false
  else if p.role ≠ roleServer then false
  else !hasFlag p.flags (polRevoked ||| polUserspaceModes)

/-- How `aivpn_session_rx_finish` ends: the verdict, whether it saw a duplicate, whether
`aivpn_epoch_claim` took the counter, and the state it leaves. -/
structure RxFinish where
  verdict : Verdict
  replayDup : Bool
  claimed : Bool
  session : KernSession
  qos : Qos

/-- The claim after the charge, `session_table.c:747-758`. -/
def rxClaim (qos : Qos) (s : KernSession) (charged : Verdict) (epoch : UInt32) (counter : UInt64)
    (length wireLen : Nat) : RxFinish :=
  match epochClaim s.replay epoch counter with
  | (.dup, _) => ⟨.drop, true, false, s, qos⟩
  | (.ok, replay) =>
    -- a packet over the quota is dropped, but its counter is taken
    if charged ≠ .accept then ⟨.drop, false, true, { s with replay := replay }, qos⟩
    else
      let bytes := if s.pol.role = roleClient then length else wireLen
      ⟨.accept, false, true,
        { s with replay := replay
                 rxPackets := s.rxPackets + 1
                 rxBytes := s.rxBytes + UInt64.ofNat bytes }, qos⟩
  | _ => ⟨.fallback, false, false, s, qos⟩

/-- `aivpn_session_rx_finish`, `session_table.c:712-759`. -/
def rxFinish (qos : Qos) (s : KernSession) (epoch : UInt32) (counter : UInt64)
    (plain : List UInt8) (wireLen : Nat) (nowNs : UInt64) (peer : RawIpv4 → Bool) : RxFinish :=
  match polDirection s.pol polRxFallback with
  | .accept =>
    if epoch = 0 ∨ s.replay.epoch ≠ epoch then ⟨.fallback, false, false, s, qos⟩
    else
      match replayObserveWin s.replay.current counter with
      | .dup => ⟨.drop, true, false, s, qos⟩
      | .tooOld => ⟨.fallback, false, false, s, qos⟩
      | .ok =>
        match polFast s.pol with
        | .accept =>
          match ipParse plain plain.length with
          | none => ⟨.drop, false, false, s, qos⟩
          | some view =>
            match polCheckAddrs s.pol .uplink plain plain.length peer with
            | .accept =>
              let charged := sessionAccount qos s .uplink (UInt64.ofNat view.length) nowNs
              if charged.1 = .fallback then
                ⟨.fallback, false, false, charged.2.2, charged.2.1⟩
              else rxClaim charged.2.1 charged.2.2 charged.1 epoch counter view.length wireLen
            | v => ⟨v, false, false, s, qos⟩
        | v => ⟨v, false, false, s, qos⟩
  | v => ⟨v, false, false, s, qos⟩

/-- `struct aivpn_dl_reservation`, `session_table.h:152-160`. -/
structure DlReservation where
  tag : Vector UInt8 8
  counter : UInt64
  seqNum : UInt16
  tagPos : UInt16
  mdh : List UInt8
  clientAddr : Vector UInt8 28
  deriving DecidableEq

/-- The length of the UDP payload that carries `nbytes` of the client, `session_table.c:681-682`. -/
def dlWireBytes (s : KernSession) (nbytes : Nat) : Nat :=
  nbytes + s.dlMdh.length + 2 + 4 + 16 + if s.dlTagPos = legacyTagPos then 8 else 0

/-- `aivpn_session_dl_reserve`, `session_table.c:619-685`: the next reserved counter, taken only
when the policy accepts the packet. -/
def dlReserve (qos : Qos) (s : KernSession) (ip : List UInt8) (pktLen : Nat) (nowNs : UInt64)
    (peer : RawIpv4 → Bool) : Except Errno DlReservation × Qos × KernSession :=
  match polDirection s.pol polTxFallback with
  | .drop => (.error .eperm, qos, s)
  | .fallback => (.error .eagain, qos, s)
  | .accept =>
    if s.dlTagPos ≠ legacyTagPos ∧ s.dlMdh.length < s.dlTagPos.toNat + 8 then
      (.error .eagain, qos, s)
    else
      match s.dlEntries[s.dlNext]? with
      | none => (.error .eagain, qos, s)
      | some entry =>
        match ipParse ip pktLen with
        | none => (.error .eperm, qos, s)
        | some view =>
          match polCheckAddrs s.pol .downlink ip pktLen peer with
          | .drop => (.error .eperm, qos, s)
          | .fallback => (.error .eagain, qos, s)
          | .accept =>
            let nbytes := if view.length = 0 then pktLen else view.length
            let charged := sessionAccount qos s .downlink (UInt64.ofNat nbytes) nowNs
            match charged.1 with
            | .drop => (.error .eperm, charged.2)
            | .fallback => (.error .eagain, charged.2)
            | .accept =>
              let s := charged.2.2
              (.ok
                { tag := entry.tag
                  counter := entry.counter
                  seqNum := s.dlSeqBase + UInt16.ofNat s.dlNext
                  tagPos := s.dlTagPos
                  mdh := s.dlMdh
                  clientAddr := s.clientAddr },
                charged.2.1,
                { s with
                  dlNext := s.dlNext + 1
                  txPackets := s.txPackets + 1
                  txBytes := s.txBytes + UInt64.ofNat (dlWireBytes s nbytes) })

namespace KernModule

variable (m : KernModule)

variable (id : SessionId)

def setSession (s : KernSession) : KernModule :=
  { m with sessions := m.sessions.insert id s }

/-- How many other armed sessions have the client key, `session_table.c:777-788`. -/
def othersArmed (key : ClientKey) : Nat :=
  if !keyNonzero key then 0
  else
    m.sessions.count fun other s =>
      decide (other ≠ id) && keyNonzero s.pol.clientKey && decide (s.pol.clientKey = key) &&
        polSlotArmed s.pol

def unarmed (p : Pol) : Pol := { p with armed := false, flags := p.flags ||| polFallback }

/-- `aivpn_qos_reconfigure`, `session_table.c:510-527`; a new slot may not be allocated. -/
def qosReconfigure (qos : Qos) (input : SessionPolicy) (allocated : Bool) : Option Qos :=
  if !keyNonzero input.clientKey then some qos
  else
    match qos.lookup input.clientKey with
    | some budget => some (qos.insert input.clientKey ((polApply budget input).getD budget))
    | none =>
      if allocated then
        some (qos.insert input.clientKey ((polApply Pol.zero input).getD Pol.zero))
      else none

/-- `aivpn_session_policy_set`, `session_table.c:761-806`. -/
def sessionPolicySet (input : SessionPolicy) (allocated : Bool) : Except Errno Unit × KernModule :=
  match m.sessions.lookup id with
  | none => (.error .enoent, m)
  | some s =>
    match polApply s.pol input with
    | none => (.error .einval, m)
    | some pol =>
      let others := UInt32.ofNat (m.othersArmed id input.clientKey)
      let pol := if polOverCap others pol.maxSessions then unarmed pol else pol
      match qosReconfigure m.qos input allocated with
      | some qos => (.ok (), { m.setSession id { s with pol := pol } with qos := qos })
      | none => (.error .enomem, m.setSession id { s with pol := unarmed pol })

/-- The answer of `aivpn_session_sync`, `session_table.c:808-852`. -/
structure SyncReport where
  replay : ReplayWin
  rxPackets : UInt64
  txPackets : UInt64
  rxBytes : UInt64
  txBytes : UInt64
  rxBytesDelta : UInt64
  txBytesDelta : UInt64
  quotaUpLeft : UInt64
  quotaDownLeft : UInt64

/-- The quota of a client: that of the shared budget, if there is one, `session_table.c:571-590`. -/
def quotaLeft (qos : Qos) (p : Pol) (own : UInt64) (shared : Pol → UInt64) : UInt64 :=
  if !keyNonzero p.clientKey then own
  else
    match qos.lookup p.clientKey with
    | none => own
    | some budget => shared budget

def bytesDelta (counted synced : UInt64) : UInt64 := if synced ≤ counted then counted - synced else 0

/-- `aivpn_session_sync`, `session_table.c:808-852`. -/
def sessionSync (ack : Bool) : Except Errno SyncReport × KernModule :=
  match m.sessions.lookup id with
  | none => (.error .enoent, m)
  | some s =>
    let report : SyncReport :=
      { replay := s.replay.current
        rxPackets := s.rxPackets
        txPackets := s.txPackets
        rxBytes := s.rxBytes
        txBytes := s.txBytes
        rxBytesDelta := bytesDelta s.rxBytes s.pol.rxBytesSynced
        txBytesDelta := bytesDelta s.txBytes s.pol.txBytesSynced
        quotaUpLeft := quotaLeft m.qos s.pol s.pol.quotaUp Pol.quotaUp
        quotaDownLeft := quotaLeft m.qos s.pol s.pol.quotaDown Pol.quotaDown }
    let pol :=
      if ack then { s.pol with rxBytesSynced := s.rxBytes, txBytesSynced := s.txBytes } else s.pol
    (.ok report, m.setSession id { s with pol := pol })

/-- `aivpn_session_replay_claim`, `session_table.c:854-872`. -/
def sessionReplayClaim (epoch : UInt32) (counter : UInt64) :
    Except Errno ClaimResult × KernModule :=
  match m.sessions.lookup id with
  | none => (.error .enoent, m)
  | some s =>
    let claim := epochClaim s.replay epoch counter
    (.ok claim.1, m.setSession id { s with replay := claim.2 })

/-- `aivpn_session_replay_rotate`, `session_table.c:874-892`. -/
def sessionReplayRotate (epoch : UInt32) : Except Errno Unit × KernModule :=
  match m.sessions.lookup id with
  | none => (.error .enoent, m)
  | some s =>
    match epochRotate s.replay epoch with
    | none => (.error .einval, m)
    | some replay => (.ok (), m.setSession id { s with replay := replay })

/-- `aivpn_session_qos_charge`, `session_table.c:894-941`, up to what it reports back. -/
def sessionQosCharge (dir : Direction) (nbytes nowNs : UInt64) :
    Except Errno Verdict × KernModule :=
  match m.sessions.lookup id with
  | none => (.error .enoent, m)
  | some s =>
    if hasFlag s.pol.flags polRevoked then (.ok .drop, m)
    else if polFast s.pol ≠ .accept then (.ok .fallback, m)
    else
      let charged := sessionAccount m.qos s dir nbytes nowNs
      (.ok charged.1, { m.setSession id charged.2.2 with qos := charged.2.1 })

/-- `aivpn_client_revoke`, `session_table.c:943-962`. -/
def clientRevoke (key : ClientKey) : Except Errno Unit × KernModule :=
  if !keyNonzero key then (.error .einval, m)
  else
    let revoke (s : KernSession) : KernSession :=
      if s.pol.clientKey = key then
        { s with pol := { s.pol with flags := s.pol.flags ||| polRevoked } }
      else s
    (.ok (), { m with sessions := m.sessions.mapValues revoke })

/-- `aivpn_session_downlink_update`, `session_table.c:399-446`: a new block replaces the old one. -/
def sessionDownlinkUpdate (mdh : List UInt8) (seqBase tagPos : UInt16) (entries : List DlEntry) :
    Except Errno Unit × KernModule :=
  if tagWindowSlots < entries.length ∨ dlMdhMax < mdh.length then (.error .einval, m)
  else
    match m.sessions.lookup id with
    | none => (.error .enoent, m)
    | some s =>
      (.ok (),
        m.setSession id
          { s with dlMdh := mdh, dlSeqBase := seqBase, dlTagPos := tagPos, dlEntries := entries
                   dlNext := 0 })

/-- A read section that holds the session published under the id holds the detached one from now
on. -/
def detachReader : Holder → Holder
  | .live other => if other = id then .detached else .live other
  | .detached => .detached

/-- `aivpn_session_detach`, `session_table.c:983-1008`, under the given holder of the lifecycle
lock. -/
def detach (lifecycle : Lifecycle) : KernModule :=
  { m with
    sessions := m.sessions.erase id
    sessionCount := m.sessionCount - 1
    lifecycle := lifecycle
    readers := m.readers.map (detachReader id) }

/-- The object that an insertion publishes, `session_table.c:215-275`: zeroed, with what the old
object of the id has counted and its policy disarmed. -/
def inserted (add : SessionAdd) (old : Option KernSession) : KernSession :=
  let fresh : KernSession :=
    { clientAddr := add.clientAddr
      dlMdh := []
      dlSeqBase := 0
      dlTagPos := legacyTagPos
      dlEntries := []
      dlNext := 0
      pol := .zero
      replay := .zero
      rxPackets := 0
      rxBytes := 0
      txPackets := 0
      txBytes := 0 }
  match old with
  | none => fresh
  | some old =>
    { fresh with
      replay := old.replay
      rxPackets := old.rxPackets
      rxBytes := old.rxBytes
      txPackets := old.txPackets
      txBytes := old.txBytes
      pol := { old.pol with armed := false } }

/-- `aivpn_session_insert` up to the wait, `session_table.c:215-263`. It blocks while another
insertion or removal holds the lock; whatever it allocates is allocated before the detaching. -/
def insertBegin (add : SessionAdd) (allocated : Bool) : KernModule :=
  match m.lifecycle with
  | .idle =>
    if !allocated then m
    else
      match m.sessions.lookup add.sessionId with
      | none => { m with lifecycle := .inserting add none }
      | some old => m.detach add.sessionId (.inserting add (some old))
  | _ => m

/-- The rest of an insertion, `session_table.c:264-303`, once the grace period is over. -/
def insertEnd : KernModule :=
  match m.lifecycle with
  | .inserting add old =>
    if .detached ∈ m.readers then m
    else if maxSessions ≤ m.sessionCount then { m with lifecycle := .idle }
    else
      { m with
        sessions := m.sessions.insert add.sessionId (inserted add old)
        sessionCount := m.sessionCount + 1
        lifecycle := .idle }
  | _ => m

/-- `aivpn_session_remove` up to the wait, `session_table.c:1012-1024`. -/
def removeBegin : KernModule :=
  match m.lifecycle with
  | .idle =>
    match m.sessions.lookup id with
    | none => m
    | some old => m.detach id (.removing id old)
  | _ => m

/-- The rest of a removal, `session_table.c:1026-1036`. -/
def removeEnd : KernModule :=
  match m.lifecycle with
  | .removing _ _ => if .detached ∈ m.readers then m else { m with lifecycle := .idle }
  | _ => m

def held : Holder → Option (SessionId × KernSession)
  | .live id => (m.sessions.lookup id).map fun s => (id, s)
  | .detached =>
    match m.lifecycle with
    | .inserting add (some old) => some (add.sessionId, old)
    | .removing id old => some (id, old)
    | _ => none

def setHeld (holder : Holder) (s : KernSession) : KernModule :=
  match holder with
  | .live id => m.setSession id s
  | .detached =>
    match m.lifecycle with
    | .inserting add (some _) => { m with lifecycle := .inserting add (some s) }
    | .removing id _ => { m with lifecycle := .removing id s }
    | _ => m

def readBegin : KernModule :=
  match m.sessions.lookup id with
  | none => m
  | some _ => { m with readers := .live id :: m.readers }

def readEnd (reader : Nat) : KernModule := { m with readers := m.readers.eraseIdx reader }

end KernModule

end AivpnSpec.Kernel
