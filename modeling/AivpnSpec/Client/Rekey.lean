import AivpnSpec.Common.Crypto

/-!
# The client's side of the inline rekey

`crates/aivpn-client/src/client/control_handler.rs:153-450` and
`client/session.rs:1461-1560`. A packet is the keys it is sealed under and its payload; it opens
under equal keys only. Control messages go through a queue that the upload task seals under the
upload keys of the moment, so a response that is not confirmed in time may leave later.
The receive loop is one task: while it waits for the upload task it receives nothing.
-/

namespace AivpnSpec.Client

open AivpnSpec.Common

/-- `REKEY_TRANSITION_GRACE`, `client/mod.rs:105`. -/
def rekeyTransitionGrace : Nat := 20 * 1000000000

/-- `REKEY_TRANSITION_HARD_CAP`, `client/mod.rs:117`. -/
def rekeyTransitionHardCap : Nat := 40 * 1000000000

/-- A payload sealed under session keys. -/
structure Sealed (α : Type) where
  keys : SessionKeys
  payload : α

/-- A `KeyRotate` response with the ephemeral key of the request that it answers; the request is
kept for the history, the message does not carry it. -/
structure KeyRotateResponse where
  newEphPub : Bytes32
  answers : Bytes32

/-- How the hand-over of a response to the upload task ends. -/
inductive SendOutcome where
  /-- `send_control` fails; nothing was queued -/
  | failed
  /-- the upload task ended; its queue is gone -/
  | ended
  /-- the wait is over, confirmed or timed out; so many queued responses were sealed meanwhile -/
  | waited (encrypted : Nat)

/-- The fields of the client that rekeying depends on; session keys and upload state are set from
the handshake on. -/
structure RekeyClient where
  sessionKeys : SessionKeys
  transitionRecvKeys : Option SessionKeys
  transitionRecvDeadline : Option Nat
  transitionGraceHard : Option Nat
  ratchetedRekeyEphPub : Option Bytes32
  rekeyResponseEph : Option Bytes32
  /-- `UploadCryptoState::keys` -/
  uploadKeys : SessionKeys
  pendingUploadKeys : Option SessionKeys
  /-- the responses that the upload task has not sealed yet -/
  uploadQueue : List KeyRotateResponse

namespace RekeyClient

def connected (keys : SessionKeys) : RekeyClient where
  sessionKeys := keys
  transitionRecvKeys := none
  transitionRecvDeadline := none
  transitionGraceHard := none
  ratchetedRekeyEphPub := none
  rekeyResponseEph := none
  uploadKeys := keys
  pendingUploadKeys := none
  uploadQueue := []

variable (env : CryptoEnv) (c : RekeyClient)

def accepts (keys : SessionKeys) : Prop :=
  keys = c.sessionKeys ∨ c.transitionRecvKeys = some keys

instance (c : RekeyClient) (keys : SessionKeys) : Decidable (c.accepts keys) :=
  inferInstanceAs (Decidable (_ ∨ _))

/-- `encrypt_control` on the first `n` queued responses, `client/session.rs:1344-1367`. -/
def upload (n : Nat) : RekeyClient × List (Sealed KeyRotateResponse) :=
  ({ c with uploadQueue := c.uploadQueue.drop n },
    (c.uploadQueue.take n).map fun response => ⟨c.uploadKeys, response⟩)

/-- `send_control` and the wait for the upload task. -/
def sendControl (response : KeyRotateResponse) :
    SendOutcome → RekeyClient × List (Sealed KeyRotateResponse)
  | .failed => (c, [])
  | .ended => ({ c with uploadQueue := [] }, [])
  | .waited n => upload { c with uploadQueue := c.uploadQueue ++ [response] } n

/-- `promote_pending_upload_keys`, `client/session.rs:1461-1475`. -/
def promotePendingUploadKeys : RekeyClient :=
  match c.pendingUploadKeys with
  | none => c
  | some newKeys => { c with uploadKeys := newKeys, pendingUploadKeys := none }

variable (newEphPub : Bytes32) (now : Nat)

/-- The request was answered before: the same response once more, under the previous keys,
`control_handler.rs:166-279`. -/
def resendResponse (outcome : SendOutcome) : RekeyClient × List (Sealed KeyRotateResponse) :=
  match c.transitionRecvKeys, c.rekeyResponseEph with
  | some oldKeys, some responseEph =>
    let sent := sendControl { c with uploadKeys := oldKeys } ⟨responseEph, newEphPub⟩ outcome
    let restored :=
      { sent.1 with
        uploadKeys := if c.pendingUploadKeys.isSome then oldKeys else c.sessionKeys }
    match outcome with
    | .failed => (restored, sent.2)
    | _ =>
      -- the grace is armed again, up to the hard cap of this rekey
      let next := now + rekeyTransitionGrace
      ({ restored with
          transitionRecvDeadline := some ((c.transitionGraceHard.map (min next)).getD next) },
        sent.2)
  | _, _ => (c, [])

/-- A fresh request: the new keys are derived from the current ones, the response is handed to the
upload task and the client switches, `control_handler.rs:281-440`. -/
def answerRequest (kp : KeyPair) (outcome : SendOutcome) :
    RekeyClient × List (Sealed KeyRotateResponse) :=
  match kp.computeShared env newEphPub with
  | none => (c, [])
  | some dh =>
    let newKeys :=
      deriveSessionKeys env dh (some c.sessionKeys.sessionKey) (kp.publicKeyBytes env)
    let sent := c.sendControl ⟨kp.publicKeyBytes env, newEphPub⟩ outcome
    match outcome with
    | .waited _ =>
      ({ sent.1 with
          transitionRecvKeys := some c.sessionKeys
          transitionRecvDeadline := some (now + rekeyTransitionGrace)
          transitionGraceHard := some (now + rekeyTransitionHardCap)
          sessionKeys := newKeys
          ratchetedRekeyEphPub := some newEphPub
          rekeyResponseEph := some (kp.publicKeyBytes env)
          -- the upload stays on the old keys until the server has proved the commit
          pendingUploadKeys := some newKeys },
        sent.2)
    | _ => sent

/-- `handle_server_control_observed` on `KeyRotate`, `control_handler.rs:153-450`. -/
def handleKeyRotate (kp : KeyPair) (outcome : SendOutcome) :
    RekeyClient × List (Sealed KeyRotateResponse) :=
  if c.ratchetedRekeyEphPub = some newEphPub then c.resendResponse newEphPub now outcome
  else c.answerRequest env newEphPub now kp outcome

/-- The handler of an opened packet; a payload other than `KeyRotate` is `none`. -/
def process (payload : Option Bytes32) (now : Nat) (kp : KeyPair) (outcome : SendOutcome) :
    RekeyClient × List (Sealed KeyRotateResponse) :=
  match payload with
  | none => (c, [])
  | some newEphPub => c.handleKeyRotate env newEphPub now kp outcome

/-- The transition keys go at their deadline, `client/session.rs:1481-1495`. -/
def expireTransition : RekeyClient :=
  if c.transitionRecvDeadline.any fun deadline => deadline ≤ now then
    promotePendingUploadKeys
      { c with
        transitionRecvKeys := none
        transitionRecvDeadline := none
        transitionGraceHard := none }
  else c

/-- `receive_and_write_packet`, `client/session.rs:1480-1560`: the instants before and after the
handler's wait, the key pair it draws and how the hand-over of its response ends. -/
def receive (packet : Sealed (Option Bytes32)) (now later : Nat) (kp : KeyPair)
    (outcome : SendOutcome) : RekeyClient × List (Sealed KeyRotateResponse) :=
  let current := c.expireTransition now
  if packet.keys = current.sessionKeys then
    current.promotePendingUploadKeys.process env packet.payload later kp outcome
  else if current.transitionRecvKeys = some packet.keys then
    current.process env packet.payload later kp outcome
  else (current, [])

/-- The part of the client that says which keys it is on, and why. -/
structure SameKeys (c c' : RekeyClient) : Prop where
  session : c'.sessionKeys = c.sessionKeys
  transition : c'.transitionRecvKeys = c.transitionRecvKeys
  ratcheted : c'.ratchetedRekeyEphPub = c.ratchetedRekeyEphPub
  response : c'.rekeyResponseEph = c.rekeyResponseEph

theorem sameKeys_refl : SameKeys c c := ⟨rfl, rfl, rfl, rfl⟩

theorem SameKeys.trans {a b c : RekeyClient} (hab : SameKeys a b) (hbc : SameKeys b c) :
    SameKeys a c :=
  ⟨hbc.session.trans hab.session, hbc.transition.trans hab.transition,
    hbc.ratcheted.trans hab.ratcheted, hbc.response.trans hab.response⟩

/-- Every response that is queued or leaves was queued before, or is one of `fresh`. -/
def OnlyAdds (result : RekeyClient × List (Sealed KeyRotateResponse))
    (fresh : List KeyRotateResponse) : Prop :=
  ∀ r, r ∈ result.1.uploadQueue ∨ r ∈ result.2.map Sealed.payload → r ∈ c.uploadQueue ∨ r ∈ fresh

theorem onlyAdds_self : OnlyAdds c (c, []) [] := by
  intro r hr
  rcases hr with hr | hr
  · exact .inl hr
  · cases hr

theorem upload_onlyAdds (n : Nat) : OnlyAdds c (c.upload n) [] := by
  intro r hr
  rcases hr with hr | hr
  · exact .inl (List.mem_of_mem_drop hr)
  · simp only [upload, List.map_map, List.mem_map, Function.comp_apply] at hr
    obtain ⟨r', hr', rfl⟩ := hr
    exact .inl (List.mem_of_mem_take hr')

theorem sendControl_sameKeys (response : KeyRotateResponse) (outcome : SendOutcome) :
    SameKeys c (c.sendControl response outcome).1 := by
  cases outcome <;> exact ⟨rfl, rfl, rfl, rfl⟩

theorem sendControl_onlyAdds (response : KeyRotateResponse) (outcome : SendOutcome) :
    OnlyAdds c (c.sendControl response outcome) [response] := by
  intro r hr
  cases outcome with
  | failed =>
    rcases hr with hr | hr
    · exact .inl hr
    · cases hr
  | ended => rcases hr with hr | hr <;> cases hr
  | waited n =>
    rcases upload_onlyAdds _ n r hr with hr | hr
    · exact List.mem_append.mp hr
    · cases hr

theorem promotePendingUploadKeys_sameKeys : SameKeys c c.promotePendingUploadKeys := by
  unfold promotePendingUploadKeys
  split <;> exact ⟨rfl, rfl, rfl, rfl⟩

@[simp]
theorem promotePendingUploadKeys_uploadQueue :
    c.promotePendingUploadKeys.uploadQueue = c.uploadQueue := by
  unfold promotePendingUploadKeys
  split <;> rfl

/-- At the deadline the transition keys go; before it nothing happens. -/
theorem expireTransition_cases :
    (c.transitionRecvDeadline.any (· ≤ now) = false ∧ c.expireTransition now = c) ∨
    (c.transitionRecvDeadline.any (· ≤ now) = true ∧
      SameKeys { c with transitionRecvKeys := none } (c.expireTransition now) ∧
      (c.expireTransition now).uploadQueue = c.uploadQueue) := by
  unfold expireTransition
  split
  · next hexpired =>
    refine .inr ⟨hexpired, ?_, promotePendingUploadKeys_uploadQueue _⟩
    exact (show SameKeys { c with transitionRecvKeys := none }
      { c with transitionRecvKeys := none, transitionRecvDeadline := none
               transitionGraceHard := none } from ⟨rfl, rfl, rfl, rfl⟩).trans
        (promotePendingUploadKeys_sameKeys _)
  · next hopen =>
    exact .inl ⟨Bool.eq_false_iff.mpr hopen, rfl⟩

/-- Answering a request again sends the stored response and keeps the keys. -/
theorem resendResponse_cases (outcome : SendOutcome) :
    let r := c.resendResponse newEphPub now outcome
    SameKeys c r.1 ∧ (OnlyAdds c r [] ∨
      ∃ eph, c.rekeyResponseEph = some eph ∧ OnlyAdds c r [⟨eph, newEphPub⟩]) := by
  unfold resendResponse
  split
  · next oldKeys responseEph htransition hresponse =>
    have hkeys := sendControl_sameKeys { c with uploadKeys := oldKeys } ⟨responseEph, newEphPub⟩
      outcome
    have hadds := sendControl_onlyAdds { c with uploadKeys := oldKeys } ⟨responseEph, newEphPub⟩
      outcome
    cases outcome <;>
      exact ⟨⟨hkeys.session, hkeys.transition, hkeys.ratcheted, hkeys.response⟩,
        .inr ⟨responseEph, hresponse, hadds⟩⟩
  · exact ⟨sameKeys_refl c, .inl (onlyAdds_self c)⟩

/-- A fresh request either changes nothing, or the client switches to the keys that its response
makes and keeps the previous ones for receiving. -/
theorem answerRequest_cases (kp : KeyPair) (outcome : SendOutcome) :
    let r := c.answerRequest env newEphPub now kp outcome
    (SameKeys c r.1 ∧ OnlyAdds c r []) ∨
    (∃ dh, kp.computeShared env newEphPub = some dh ∧
      r.1.sessionKeys =
        deriveSessionKeys env dh (some c.sessionKeys.sessionKey) (kp.publicKeyBytes env) ∧
      r.1.transitionRecvKeys = some c.sessionKeys ∧
      r.1.ratchetedRekeyEphPub = some newEphPub ∧
      r.1.rekeyResponseEph = some (kp.publicKeyBytes env) ∧
      OnlyAdds c r [⟨kp.publicKeyBytes env, newEphPub⟩]) := by
  unfold answerRequest
  cases hdh : kp.computeShared env newEphPub with
  | none => exact .inl ⟨sameKeys_refl c, onlyAdds_self c⟩
  | some dh =>
    cases outcome with
    | failed => exact .inl ⟨sameKeys_refl c, onlyAdds_self c⟩
    | ended =>
      refine .inl ⟨⟨rfl, rfl, rfl, rfl⟩, ?_⟩
      intro r hr
      rcases hr with hr | hr <;> cases hr
    | waited n =>
      exact .inr ⟨dh, rfl, rfl, rfl, rfl, rfl,
        sendControl_onlyAdds c ⟨kp.publicKeyBytes env, newEphPub⟩ (.waited n)⟩

/-- What receiving a packet does: the client opens it under keys it accepts and handles the
request in it, or it changes nothing but the transition keys that have expired. -/
theorem receive_cases (packet : Sealed (Option Bytes32)) (now later : Nat) (kp : KeyPair)
    (outcome : SendOutcome) :
    (SameKeys (c.expireTransition now) (c.receive env packet now later kp outcome).1 ∧
      OnlyAdds (c.expireTransition now) (c.receive env packet now later kp outcome) []) ∨
    (∃ eph current, packet.payload = some eph ∧ (c.expireTransition now).accepts packet.keys ∧
      SameKeys (c.expireTransition now) current ∧
      current.uploadQueue = (c.expireTransition now).uploadQueue ∧
      c.receive env packet now later kp outcome =
        current.handleKeyRotate env eph later kp outcome) := by
  unfold receive
  dsimp only
  have hpromoted := promotePendingUploadKeys_sameKeys (c.expireTransition now)
  split
  · next hcurrent =>
    cases hpayload : packet.payload with
    | none =>
      refine .inl ⟨hpromoted, ?_⟩
      intro r hr
      exact onlyAdds_self (c.expireTransition now) r (by simpa [process] using hr)
    | some eph =>
      exact .inr ⟨eph, _, rfl, .inl hcurrent, hpromoted, promotePendingUploadKeys_uploadQueue _,
        rfl⟩
  · split
    · next htransition =>
      cases hpayload : packet.payload with
      | none => exact .inl ⟨sameKeys_refl _, onlyAdds_self _⟩
      | some eph => exact .inr ⟨eph, _, rfl, .inr htransition, sameKeys_refl _, rfl, rfl⟩
    · exact .inl ⟨sameKeys_refl _, onlyAdds_self _⟩

end RekeyClient

end AivpnSpec.Client
