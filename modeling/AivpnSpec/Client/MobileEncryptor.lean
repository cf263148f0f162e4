import AivpnSpec.Base.Runs
import AivpnSpec.Client.MimicryEncryptor

/-!
# The upload encryptor of the mobile clients

`crates/aivpn-common/src/mobile_tunnel/encryptor.rs:55-180` and `upload_pipeline.rs:86-160`. All
packets of a session go through one encryptor. New keys wait in a slot that another task fills and
are taken before the next packet, except by the answer to a key rotation: it goes out under the keys
that were in use, or under older ones if it is sent again.
-/

namespace AivpnSpec.Client

open AivpnSpec.Base AivpnSpec.Common AivpnSpec.Wire

/-- `MobileEncryptor`, `encryptor.rs:55-63`, without the traffic statistics. An acknowledgement that
waits is told by a number. -/
structure MobileEncryptor where
  inner : MimicryEncryptor
  keepaliveSentMs : UInt64
  fecGroup : UInt8
  keyRotateSlot : Option SessionKeys
  rekeyAck : List Nat
  rekeyResendKeys : Option SessionKeys

namespace MobileEncryptor

variable (env : UploadEnv) (m : MobileEncryptor)

/-- `check_key_rotation`, `encryptor.rs:66-75`. -/
def checkKeyRotation : MobileEncryptor :=
  match m.keyRotateSlot with
  | none => m
  | some newKeys => { m with inner := m.inner.updateKeys newKeys, keyRotateSlot := none }

def loadFecGroup : MobileEncryptor :=
  { m with inner := m.inner.setFecGroup m.fecGroup }

def onInner {α : Type} (f : MimicryEncryptor → α × MimicryEncryptor) : α × MobileEncryptor :=
  ((f m.inner).1, { m with inner := (f m.inner).2 })

/-- `max_data_payload`, `encryptor.rs:101-106`. -/
def maxDataPayload (datagramLimit : Nat) : Nat × MobileEncryptor :=
  m.loadFecGroup.checkKeyRotation.onInner (·.maxDataPayload datagramLimit)

/-- `encrypt_mask_bootstrap`, `encryptor.rs:108-111`. -/
def encryptMaskBootstrap (nowMs : UInt64) : Except Error Bytes × MobileEncryptor :=
  m.checkKeyRotation.onInner (·.encryptMaskBootstrap env nowMs)

/-- `encrypt_data`, `encryptor.rs:112-117`. -/
def encryptData (payload : Bytes) : Except Error Bytes × MobileEncryptor :=
  m.loadFecGroup.checkKeyRotation.onInner (·.encryptData env payload)

/-- `encrypt_fragment`, `encryptor.rs:119-122`. -/
def encryptFragment (payload : Bytes) : Except Error Bytes × MobileEncryptor :=
  m.checkKeyRotation.onInner (·.encryptFragment env payload)

/-- The keys for a KeyRotate response: those staged for a resend, for one packet. -/
def swapResendKeys : MobileEncryptor :=
  match m.rekeyResendKeys with
  | none => m
  | some oldKeys => { m with inner := m.inner.updateKeys oldKeys, rekeyResendKeys := none }

/-- Back to the keys that were live before the swap, if there was one. -/
def restoreKeys (before : MobileEncryptor) : MobileEncryptor :=
  match before.rekeyResendKeys with
  | none => m
  | some _ => { m with inner := m.inner.updateKeys before.inner.keys }

/-- `encrypt_control`, `encryptor.rs:124-170`. -/
def encryptControl (payload : ControlPayload) : Except Error Bytes × MobileEncryptor :=
  match payload with
  | .keyRotate _ =>
    let (packet, sent) := m.swapResendKeys.onInner (·.encryptControl env payload)
    let restored := sent.restoreKeys m
    match packet with
    | .error error => (.error error, restored)
    | .ok packet => (.ok packet, { restored with rekeyAck := restored.rekeyAck.tail })
  | _ => m.checkKeyRotation.onInner (·.encryptControl env payload)

/-- `encrypt_keepalive`, `encryptor.rs:172-180`. -/
def encryptKeepalive (nowMs : UInt64) : Except Error Bytes × MobileEncryptor :=
  { m.checkKeyRotation with keepaliveSentMs := nowMs }.onInner (·.encryptKeepaliveTs env nowMs)

/-- `feed_fragmented_data`, `encryptor.rs:84-86`: a waiting rotation is not taken. -/
def feedFragmentedData (payload : Bytes) : MobileEncryptor :=
  { m with inner := m.inner.queueFec env payload }

def encryptFragments : MobileEncryptor → List Bytes → Except Error (List Bytes) × MobileEncryptor
  | m, [] => (.ok [], m)
  | m, fragment :: rest =>
    match m.encryptFragment env fragment with
    | (.error error, m) => (.error error, m)
    | (.ok packet, m) =>
      let (packets, m) := encryptFragments m rest
      (packets.map (packet :: ·), m)

/-- The fragments of a payload that does not go out as it is, `upload_pipeline.rs:120-124`. -/
def dataFragments (metadata : Option FecMetadata) (payload : Bytes) : Except Error (List Bytes) :=
  match metadata with
  | some metadata => splitFecData (env.messageId m.inner.engine.built) payload metadata
  | none => split (env.messageId m.inner.engine.built) .data payload

/-- `encrypt_data_packets`, `upload_pipeline.rs:107-133`. -/
def encryptDataPackets (payload : Bytes) (datagramLimit : Nat) :
    Except Error (List Bytes) × MobileEncryptor :=
  let (limit, m) := m.maxDataPayload datagramLimit
  let metadata := m.inner.fec.metadataFor payload.length
  if metadata.isNone ∧ payload.length ≤ limit then
    let (packet, m) := m.encryptData env payload
    (packet.map ([·]), m)
  else
    match m.dataFragments env metadata payload with
    | .error error => (.error error, m)
    | .ok fragments =>
      match m.encryptFragments env fragments with
      | (.error error, m) => (.error error, m)
      | (.ok packets, m) =>
        (.ok packets, if metadata.isSome then m.feedFragmentedData env payload else m)

/-- `encrypt_control_packets`, `upload_pipeline.rs:142-151`. -/
def encryptControlPackets (payload : ControlPayload) :
    Except Error (List Bytes) × MobileEncryptor :=
  match payload.encode env.text with
  | .error error => (.error error, m)
  | .ok bytes =>
    if bytes.length ≤ fragmentDataSize then
      let (packet, m) := m.encryptControl env payload
      (packet.map ([·]), m)
    else
      match split (env.messageId m.inner.engine.built) .control bytes with
      | .error error => (.error error, m)
      | .ok fragments => m.encryptFragments env fragments

/-- A step of the upload task, or of a task that shares a slot with it. -/
inductive Step where
  | dataSendDelay
  | maxDataPayload (datagramLimit : Nat)
  | encryptMaskBootstrap (nowMs : UInt64)
  | encryptData (payload : Bytes)
  | encryptFragment (payload : Bytes)
  | encryptControl (payload : ControlPayload)
  | encryptKeepalive (nowMs : UInt64)
  | encryptDataPackets (payload : Bytes) (datagramLimit : Nat)
  | encryptControlPackets (payload : ControlPayload)
  | feedFragmentedData (payload : Bytes)
  | takeFecRepair
  /-- the receive loop publishes keys, `run_loop.rs:94-101` -/
  | publishKeys (keys : SessionKeys)
  /-- the receive loop stages old keys, or withdraws them -/
  | stageResend (keys : Option SessionKeys)
  | setAcks (acks : List Nat)
  | updateMask (mask : MaskProfile)
  | setFecGroup (groupSize : UInt8)

/-- One step. -/
def perform : Step → MobileEncryptor
  | .dataSendDelay => { m with inner := m.inner.checkMask }
  | .maxDataPayload datagramLimit => (m.maxDataPayload datagramLimit).2
  | .encryptMaskBootstrap nowMs => (m.encryptMaskBootstrap env nowMs).2
  | .encryptData payload => (m.encryptData env payload).2
  | .encryptFragment payload => (m.encryptFragment env payload).2
  | .encryptControl payload => (m.encryptControl env payload).2
  | .encryptKeepalive nowMs => (m.encryptKeepalive env nowMs).2
  | .encryptDataPackets payload datagramLimit => (m.encryptDataPackets env payload datagramLimit).2
  | .encryptControlPackets payload => (m.encryptControlPackets env payload).2
  | .feedFragmentedData payload => m.feedFragmentedData env payload
  | .takeFecRepair => { m with inner := m.inner.takeFecRepair.2 }
  | .publishKeys keys => { m with keyRotateSlot := some keys }
  | .stageResend keys => { m with rekeyResendKeys := keys }
  | .setAcks acks => { m with rekeyAck := acks }
  | .updateMask mask => { m with inner := { m.inner with pendingMask := some mask } }
  | .setFecGroup groupSize => { m with fecGroup := groupSize }

/-- The encryptor after the first `k` steps. -/
def after (start : MobileEncryptor) (steps : List Step) (k : Nat) : MobileEncryptor :=
  stateAt (perform env) start steps k

def encryptions : List (Bytes32 × UInt64) := m.inner.engine.encryptions

/-- The step answers a key rotation, for the first time or again. -/
def Step.IsKeyRotate : Step → Prop
  | .encryptControl (.keyRotate _) => True
  | .encryptControlPackets (.keyRotate _) => True
  | _ => False

variable {env m}

section

variable (h : m.inner.Counted)

include h

theorem counted_checkKeyRotation : m.checkKeyRotation.inner.Counted := by
  unfold checkKeyRotation
  split <;> exact h

theorem counted_encryptFragment (payload : Bytes) :
    (m.encryptFragment env payload).2.inner.Counted :=
  (counted_checkKeyRotation h).checkMask.encryptInner .fragment payload

theorem counted_encryptFragments (fragments : List Bytes) :
    (m.encryptFragments env fragments).2.inner.Counted := by
  induction fragments generalizing m with
  | nil => exact h
  | cons fragment rest ih =>
    have hsent : (m.encryptFragment env fragment).2.inner.Counted :=
      counted_encryptFragment h fragment
    unfold encryptFragments
    split
    · next error sent heq =>
      rw [heq] at hsent
      exact hsent
    · next packet sent heq =>
      rw [heq] at hsent
      exact ih hsent

theorem counted_maxDataPayload (datagramLimit : Nat) :
    (m.maxDataPayload datagramLimit).2.inner.Counted := by
  have hloaded : m.loadFecGroup.inner.Counted := h
  exact (counted_checkKeyRotation hloaded).checkMask

theorem counted_encryptData (payload : Bytes) : (m.encryptData env payload).2.inner.Counted := by
  have hloaded : m.loadFecGroup.inner.Counted := h
  exact (counted_checkKeyRotation hloaded).checkMask.encryptInner .data payload

/-- The swap of the keys leaves the counter, and so does the restoration. -/
theorem counted_encryptControl (payload : ControlPayload) :
    (m.encryptControl env payload).2.inner.Counted := by
  unfold encryptControl
  split
  · next newEphPub =>
    have hswapped : m.swapResendKeys.inner.Counted := by
      unfold swapResendKeys
      split <;> exact h
    have hsent : (m.swapResendKeys.inner.encryptControl env (.keyRotate newEphPub)).2.Counted :=
      hswapped.checkMask.encryptPayload _
    simp only [onInner, restoreKeys]
    split
    all_goals split
    all_goals exact hsent
  · exact (counted_checkKeyRotation h).checkMask.encryptPayload _

theorem counted_encryptDataPackets (payload : Bytes) (datagramLimit : Nat) :
    (m.encryptDataPackets env payload datagramLimit).2.inner.Counted := by
  have hready := counted_maxDataPayload h datagramLimit
  unfold encryptDataPackets
  simp only
  generalize m.maxDataPayload datagramLimit = ready at hready ⊢
  split
  · exact counted_encryptData hready payload
  split
  · exact hready
  next fragments _ =>
  have hsent : (ready.2.encryptFragments env fragments).2.inner.Counted :=
    counted_encryptFragments hready fragments
  split
  · next error sent heq =>
    rw [heq] at hsent
    exact hsent
  · next packets sent heq =>
    rw [heq] at hsent
    split
    · exact MimicryEncryptor.Counted.queueFec hsent payload
    · exact hsent

theorem counted_encryptControlPackets (payload : ControlPayload) :
    (m.encryptControlPackets env payload).2.inner.Counted := by
  unfold encryptControlPackets
  split
  · exact h
  split
  · exact counted_encryptControl h payload
  · split
    · exact h
    · exact counted_encryptFragments h _

/-- One step keeps the counters a run. -/
theorem counted_perform (step : Step) : (m.perform env step).inner.Counted := by
  cases step with
  | dataSendDelay => exact h.checkMask
  | maxDataPayload datagramLimit => exact counted_maxDataPayload h datagramLimit
  | encryptMaskBootstrap nowMs => exact (counted_checkKeyRotation h).encryptPayload _
  | encryptData payload => exact counted_encryptData h payload
  | encryptFragment payload => exact counted_encryptFragment h payload
  | encryptControl payload => exact counted_encryptControl h payload
  | encryptKeepalive nowMs => exact (counted_checkKeyRotation h).checkMask.encryptPayload _
  | encryptDataPackets payload datagramLimit =>
    exact counted_encryptDataPackets h payload datagramLimit
  | encryptControlPackets payload => exact counted_encryptControlPackets h payload
  | feedFragmentedData payload => exact h.queueFec payload
  | _ => exact h

end

/-- A KeyRotate response leaves the slot and the keys, whether it can be sent or not. -/
theorem keyRotate_keeps (m : MobileEncryptor) (newEphPub : Bytes32) :
    (m.encryptControl env (.keyRotate newEphPub)).2.keyRotateSlot = m.keyRotateSlot ∧
    (m.encryptControl env (.keyRotate newEphPub)).2.inner.keys = m.inner.keys := by
  unfold encryptControl
  simp only [onInner, restoreKeys, swapResendKeys]
  cases m.rekeyResendKeys with
  | none =>
    simp only
    split <;> exact ⟨rfl, MimicryEncryptor.keys_encryptControl _⟩
  | some oldKeys =>
    simp only
    split <;> exact ⟨rfl, rfl⟩

/-- It is never split. -/
theorem encryptControlPackets_keyRotate (m : MobileEncryptor) (newEphPub : Bytes32) :
    (m.encryptControlPackets env (.keyRotate newEphPub)).2 =
      (m.encryptControl env (.keyRotate newEphPub)).2 := by
  have hshort : ([ControlSubtype.keyRotate.toU8, 0] ++ leBytes 2 32 ++ newEphPub.toList).length ≤
      fragmentDataSize := by
    simp [fragmentDataSize]
  simp only [encryptControlPackets, ControlPayload.encode, if_pos hshort]

/-- Over any run no two encryptions use the same key and counter as long as the counter does not
come around; whether the keys of a rotation are new makes no difference. The answer to a key
rotation never takes waiting keys, and leaves the encryptor with the keys that it found. -/
theorem upload_never_reuses_nonce (env : UploadEnv) (start : MobileEncryptor) (steps : List Step)
    (hnew : start.encryptions = [])
    (hbelow : (after env start steps steps.length).encryptions.length ≤ 2 ^ 64) :
    (after env start steps steps.length).encryptions.Nodup ∧
    ∀ k step, steps[k]? = some step → step.IsKeyRotate →
      (after env start steps (k + 1)).keyRotateSlot = (after env start steps k).keyRotateSlot ∧
      (after env start steps (k + 1)).inner.keys = (after env start steps k).inner.keys := by
  constructor
  · have hstart : start.inner.Counted := by
      have hempty : start.inner.engine.encryptions = [] := hnew
      unfold MimicryEncryptor.Counted
      rw [hempty]
      exact isRun_nil _
    have hcounted : (after env start steps steps.length).inner.Counted :=
      stateAt_invariant (I := fun m : MobileEncryptor => m.inner.Counted) hstart
        (fun _ step h => counted_perform h step) steps.length
    apply List.Nodup.of_map Prod.snd
    apply hcounted.nodup_iff.mpr
    rw [List.length_map]
    exact hbelow
  · intro k step hstep hrotate
    have hnext : after env start steps (k + 1) = (after env start steps k).perform env step :=
      stateAt_succ hstep
    rw [hnext]
    cases step with
    | encryptControl payload =>
      cases payload with
      | keyRotate newEphPub => exact keyRotate_keeps _ newEphPub
      | _ => exact hrotate.elim
    | encryptControlPackets payload =>
      cases payload with
      | keyRotate newEphPub =>
        simp only [perform, encryptControlPackets_keyRotate]
        exact keyRotate_keeps _ newEphPub
      | _ => exact hrotate.elim
    | _ => exact hrotate.elim

def sampleUpload : UploadEnv where
  draws := fun _ =>
    { header := ⟨fun _ _ => 0, fun _ => 0⟩, requested := 0, filler := fun _ => 0, attr := 0 }
  sealing := fun n _ =>
    { isInitial := false
      resonanceTag := fun _ => Vector.replicate 8 0xaa
      encrypt := fun _ _ plaintext =>
        if n = 2 then .error (.crypto "Encryption failed") else .ok plaintext }
  messageId := fun _ => 0
  text := unaryText

def sampleStart : MobileEncryptor where
  inner := .new (sampleKeys 1) 0 0 (stunMask .stunBinding) none
  keepaliveSentMs := 0
  fecGroup := 2
  keyRotateSlot := none
  rekeyAck := [0]
  rekeyResendKeys := none

/-- New keys wait while an answer is sent again under old ones; one packet fails; the next one ends
a group. -/
def sampleSteps : List Step :=
  [.encryptDataPackets [1, 2, 3] 1400, .publishKeys (sampleKeys 2),
    .stageResend (some (sampleKeys 9)), .encryptControlPackets (.keyRotate (sampleKey 5)),
    .encryptData [6], .updateMask (stunMask .stunBinding), .encryptDataPackets [4, 5] 1400,
    .takeFecRepair, .encryptKeepalive 7]

theorem upload_never_reuses_nonce_sampleSteps :
    (after sampleUpload sampleStart sampleSteps 9).encryptions =
      [(sampleKey 2, 5), (sampleKey 2, 4), (sampleKey 2, 3), (sampleKey 2, 2), (sampleKey 9, 1),
        (sampleKey 1, 0)] ∧
    (after sampleUpload sampleStart sampleSteps 9).encryptions.Nodup ∧
    (after sampleUpload sampleStart sampleSteps 4).keyRotateSlot = some (sampleKeys 2) ∧
    (after sampleUpload sampleStart sampleSteps 4).inner.keys = sampleKeys 1 := by
  have hused : (after sampleUpload sampleStart sampleSteps 9).encryptions =
      [(sampleKey 2, 5), (sampleKey 2, 4), (sampleKey 2, 3), (sampleKey 2, 2), (sampleKey 9, 1),
        (sampleKey 1, 0)] := by
    decide +kernel
  have hbelow : (after sampleUpload sampleStart sampleSteps sampleSteps.length).encryptions.length ≤
      2 ^ 64 := by
    have hlength := congrArg List.length hused
    exact hlength.trans_le (by decide)
  have hrun := upload_never_reuses_nonce sampleUpload sampleStart sampleSteps rfl hbelow
  have hresend := hrun.2 3 (.encryptControlPackets (.keyRotate (sampleKey 5))) rfl trivial
  refine ⟨hused, hrun.1, ?_, ?_⟩
  · rw [hresend.1]
    decide +kernel
  · rw [hresend.2]
    decide +kernel

end MobileEncryptor

end AivpnSpec.Client
