import AivpnSpec.Base.Ledger
import AivpnSpec.Common.Crypto
import AivpnSpec.Common.Fec
import AivpnSpec.Common.PacketBuild
import AivpnSpec.Wire.ControlPayload

/-!
# The packet encryptor

`crates/aivpn-common/src/mimicry.rs:46-100,361-528`. One counter numbers everything that is
encrypted towards the server: data, fragments, control messages and the repairs of the forward
error correction, which are encrypted in the middle of another operation. A new mask and new keys
leave the counter alone.
-/

namespace AivpnSpec.Client

open AivpnSpec.Base AivpnSpec.Common AivpnSpec.Wire

/-- What an encryptor takes from outside. The packets that it builds are numbered; the number stands
for the state of the random generator and for the time. -/
structure UploadEnv where
  draws : Nat → Draws
  /-- tag and encryption under some keys, which may fail -/
  sealing : Nat → SessionKeys → SealingKeys
  /-- the id of a message that is split -/
  messageId : Nat → UInt64
  text : Ipv6Text

/-- `MimicryEngine`, `mimicry.rs:46-51`. The distributions of sizes and delays only ask for padding
and are not kept. `encryptions` records each call of the cipher with its key and counter, latest
first. -/
structure MimicryEngine where
  mask : MaskProfile
  built : Nat
  encryptions : List (Bytes32 × UInt64)

namespace MimicryEngine

/-- `MimicryEngine::new`, `mimicry.rs:68-83`. -/
def new (mask : MaskProfile) : MimicryEngine := { mask, built := 0, encryptions := [] }

variable (env : UploadEnv) (e : MimicryEngine)

/-- `update_mask`, `mimicry.rs:93-107`. -/
def updateMask (mask : MaskProfile) : MimicryEngine := { e with mask }

/-- `data_payload_limit`, `mimicry.rs:53-65`. -/
def dataPayloadLimit (datagramLimit : Nat) : Nat :=
  let mdhLen := e.mask.mdhLen
  let budget :=
    if e.mask.needsState then maxQuicInner
    else if e.mask.usesRtc then
      if e.mask.spoofProtocol = .webRtcSdesSrtp then 1358
      else rtcInnerBudget (e.mask.spoofProtocol = .webRtcTurnDtlsSrtp)
    else min 1380 maxPacketSize
  let prefixLen := if (e.mask.packetFraming mdhLen).tagOffset.isSome then 0 else tagSize
  min budget datagramLimit - (prefixLen + mdhLen + 2 + 4 + 16 + 6)

/-- `build_packet`, `mimicry.rs:227-349`, towards an established session. -/
def buildPacket (plaintext : Bytes) (keys : SessionKeys) (counter : UInt64) :
    Except Error Bytes × UInt64 × MimicryEngine :=
  let draws := env.draws e.built
  let sealing := env.sealing e.built keys
  let mdhLen := (buildMdh e.mask draws.header none).length
  let (packet, next) := Common.buildPacket e.mask draws plaintext sealing counter none
  let encryptions :=
    match packetPadding e.mask draws plaintext.length sealing mdhLen with
    | .error _ => e.encryptions
    | .ok _ => (keys.sessionKey, counter) :: e.encryptions
  (packet, next, { e with built := e.built + 1, encryptions })

/-- Either the packet is refused before the cipher, or the counter is used and spent, whatever comes
of it. -/
theorem buildPacket_cases (plaintext : Bytes) (keys : SessionKeys) (counter : UInt64) :
    (∃ error, e.buildPacket env plaintext keys counter =
      (.error error, counter, { e with built := e.built + 1 })) ∨
    (∃ packet, e.buildPacket env plaintext keys counter =
      (packet, counter + 1,
        { e with built := e.built + 1
                 encryptions := (keys.sessionKey, counter) :: e.encryptions })) := by
  unfold buildPacket
  simp only [buildPacket_eq]
  generalize packetPadding _ _ _ _ _ = padding
  cases padding with
  | error error => exact .inl ⟨error, rfl⟩
  | ok padLen =>
    right
    simp only [sealPacket]
    split <;> exact ⟨_, rfl⟩

end MimicryEngine

/-- `build_inner_packet`, `client_wire.rs:297-303`. -/
def buildInnerPacket (kind : InnerType) (seqNum : UInt16) (payload : Bytes) : Bytes :=
  u16Bytes kind.toU8.toUInt16 ++ u16Bytes seqNum ++ payload

/-- `MimicryEncryptor`, `mimicry.rs:368-376`. -/
structure MimicryEncryptor where
  engine : MimicryEngine
  keys : SessionKeys
  counter : UInt64
  seq : UInt16
  pendingMask : Option MaskProfile
  fec : FecSender

namespace MimicryEncryptor

/-- `MimicryEncryptor::new`, `mimicry.rs:379-394`. -/
def new (keys : SessionKeys) (counter : UInt64) (seq : UInt16) (mask : MaskProfile)
    (pendingMask : Option MaskProfile) : MimicryEncryptor :=
  { engine := .new mask, keys, counter, seq, pendingMask, fec := .empty }

variable (env : UploadEnv) (e : MimicryEncryptor)

/-- `update_keys`, `mimicry.rs:405-407`: the counter goes on. -/
def updateKeys (keys : SessionKeys) : MimicryEncryptor := { e with keys }

/-- `set_fec_group`, `mimicry.rs:417-419`. -/
def setFecGroup (groupSize : UInt8) : MimicryEncryptor :=
  { e with fec := e.fec.setGroup groupSize }

/-- `check_mask`, `mimicry.rs:421-431`. -/
def checkMask : MimicryEncryptor :=
  match e.pendingMask with
  | none => e
  | some mask =>
    { e with
      engine := e.engine.updateMask mask, pendingMask := none, fec := e.fec.discardPending }

def encryptInner (kind : InnerType) (payload : Bytes) : Except Error Bytes × MimicryEncryptor :=
  let inner := buildInnerPacket kind e.seq payload
  let (packet, counter, engine) := e.engine.buildPacket env inner e.keys e.counter
  (packet, { e with seq := e.seq + 1, counter, engine })

/-- The parts of a repair in order; the first failure ends them, with the counters spent so far. -/
def encryptRepair : MimicryEncryptor → List (InnerType × Bytes) →
    Option (List Bytes) × MimicryEncryptor
  | e, [] => (some [], e)
  | e, (kind, payload) :: rest =>
    match e.encryptInner env kind payload with
    | (.error _, e) => (none, e)
    | (.ok packet, e) =>
      let (packets, e) := encryptRepair e rest
      (packets.map (packet :: ·), e)

/-- `queue_fec`, `mimicry.rs:435-443`, with `FecSender::feed`, `fec.rs:187-232`. -/
def queueFec (payload : Bytes) : MimicryEncryptor :=
  let limit := e.engine.dataPayloadLimit (2 ^ 64 - 1)
  match e.fec.absorb payload with
  | (none, fec) => { e with fec }
  | (some repair, fec) =>
    let fed := { e with fec }
    match FecSender.repairParts repair limit (env.messageId e.engine.built) with
    | none => fed
    | some parts =>
      match fed.encryptRepair env parts with
      | (none, sent) => sent
      | (some packets, sent) =>
        { sent with
          fec :=
            { fec with
              pending :=
                (if 8 < fec.pending.length + packets.length then [] else fec.pending) ++
                  packets } }

/-- `max_data_payload`, `mimicry.rs:454-457`. -/
def maxDataPayload (datagramLimit : Nat) : Nat × MimicryEncryptor :=
  (e.checkMask.engine.dataPayloadLimit datagramLimit, e.checkMask)

variable (payload : ControlPayload)

def encryptPayload : Except Error Bytes × MimicryEncryptor :=
  match payload.encode env.text with
  | .error error => (.error error, e)
  | .ok bytes => e.encryptInner env .control bytes

/-- `encrypt_mask_bootstrap`, `mimicry.rs:462-471`: the mask is not looked at. -/
def encryptMaskBootstrap (nowMs : UInt64) : Except Error Bytes × MimicryEncryptor :=
  e.encryptPayload env (.keepalive nowMs)

/-- `encrypt_data`, `mimicry.rs:479-488`. -/
def encryptData (payload : Bytes) : Except Error Bytes × MimicryEncryptor :=
  e.checkMask.encryptInner env .data payload

/-- `encrypt_fragment`, `mimicry.rs:490-496`. -/
def encryptFragment (payload : Bytes) : Except Error Bytes × MimicryEncryptor :=
  e.checkMask.encryptInner env .fragment payload

/-- `encrypt_control`, `mimicry.rs:498-505`. -/
def encryptControl : Except Error Bytes × MimicryEncryptor :=
  e.checkMask.encryptPayload env payload

/-- `encrypt_keepalive_ts`, `mimicry.rs:513-521`. -/
def encryptKeepaliveTs (sendTs : UInt64) : Except Error Bytes × MimicryEncryptor :=
  e.checkMask.encryptPayload env (.keepalive sendTs)

/-- `take_fec_repair`, `mimicry.rs:525-527`. -/
def takeFecRepair : Option Bytes × MimicryEncryptor :=
  (e.fec.takePacket.1, { e with fec := e.fec.takePacket.2 })

variable {env e}

/-- The counters used so far, under whatever keys, are a run up to the next one. -/
def Counted (e : MimicryEncryptor) : Prop := IsRun (e.engine.encryptions.map Prod.snd) e.counter

theorem Counted.encryptInner (h : e.Counted) (kind : InnerType) (payload : Bytes) :
    (e.encryptInner env kind payload).2.Counted := by
  unfold MimicryEncryptor.encryptInner Counted
  rcases e.engine.buildPacket_cases env (buildInnerPacket kind e.seq payload) e.keys e.counter with
    ⟨error, hrefused⟩ | ⟨packet, hspent⟩
  · simp only [hrefused]
    exact h
  simp only [hspent, List.map_cons]
  have hnext := IsRun.prolong h 1
  rw [counterRun_one] at hnext
  exact hnext

theorem Counted.checkMask (h : e.Counted) : e.checkMask.Counted := by
  unfold MimicryEncryptor.checkMask
  split <;> exact h

theorem Counted.encryptPayload (h : e.Counted) (payload : ControlPayload) :
    (e.encryptPayload env payload).2.Counted := by
  unfold MimicryEncryptor.encryptPayload
  split
  · exact h
  · exact h.encryptInner .control _

theorem Counted.encryptRepair (h : e.Counted) (parts : List (InnerType × Bytes)) :
    (e.encryptRepair env parts).2.Counted := by
  induction parts generalizing e with
  | nil => exact h
  | cons part rest ih =>
    obtain ⟨kind, payload⟩ := part
    have hsent : (e.encryptInner env kind payload).2.Counted := h.encryptInner kind payload
    unfold MimicryEncryptor.encryptRepair
    split
    · next error sent heq =>
      rw [heq] at hsent
      exact hsent
    · next packet sent heq =>
      rw [heq] at hsent
      exact ih hsent

theorem Counted.queueFec (h : e.Counted) (payload : Bytes) : (e.queueFec env payload).Counted := by
  unfold MimicryEncryptor.queueFec
  split
  · exact h
  next repair fec _ =>
  simp only
  split
  · exact h
  next parts _ =>
  have hfed : Counted { e with fec } := h
  have hsent : (MimicryEncryptor.encryptRepair env { e with fec } parts).2.Counted :=
    hfed.encryptRepair parts
  split
  · next sent heq =>
    rw [heq] at hsent
    exact hsent
  · next packets sent heq =>
    rw [heq] at hsent
    exact hsent

theorem keys_checkMask (e : MimicryEncryptor) : e.checkMask.keys = e.keys := by
  unfold checkMask
  split <;> rfl

/-- Encrypting a control message leaves the keys alone, whether it fails or not. -/
theorem keys_encryptControl : (e.encryptControl env payload).2.keys = e.keys := by
  unfold encryptControl encryptPayload
  split <;> exact e.keys_checkMask

end MimicryEncryptor

end AivpnSpec.Client
