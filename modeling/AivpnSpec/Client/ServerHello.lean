import AivpnSpec.Client.DownlinkDecode
import AivpnSpec.Wire.ControlDecode

/-!
# The ServerHello

`crates/aivpn-common/src/client_wire.rs:912-963`. The packet is decoded, the signature checked and
the keys ratcheted; keys, send counter and window are replaced at the very end, all together. What a
failure leaves behind is the window of the decoder: the counter that authenticated is marked, and
beside the received counters the window notes which layout decoded last and when it last tried to
recover a lost counter.
-/

namespace AivpnSpec.Client

open AivpnSpec.Base AivpnSpec.Common AivpnSpec.Wire

/-- What the client takes from the crypto libraries to process a ServerHello. -/
structure HelloEnv where
  wire : WireEnv
  crypto : CryptoEnv
  text : Ipv6Text
  /-- `VerifyingKey::from_bytes`, with its error -/
  verifyingKey : Bytes32 → Except String Unit
  /-- `verify_strict` of a message and a signature -/
  verifyStrict : Bytes32 → Bytes → Vector UInt8 64 → Bool

/-- The keys, the window and the counter of a connection during its handshake. -/
structure Handshake where
  keys : SessionKeys
  recvWindow : RecvWindow
  sendCounter : UInt64
  deriving DecidableEq

/-- `RecvWindow::reset`, `client_wire.rs:136-142`. -/
def RecvWindow.reset (_ : RecvWindow) : RecvWindow := .new

variable (env : HelloEnv)

/-- The check of the signature, `client_wire.rs:937-950`; without a key nothing is checked. -/
def verifyServerHello (keypair : KeyPair) (serverSigningKey : Option Bytes32)
    (serverEphPub : Bytes32) (signature : Vector UInt8 64) : Except Error Unit :=
  match serverSigningKey with
  | none => .ok ()
  | some signingKey =>
    match env.verifyingKey signingKey with
    | .error e => .error (.crypto ("Invalid server signing key: " ++ e))
    | .ok () =>
      let msg := serverEphPub.toList ++ (keypair.publicKeyBytes env.crypto).toList
      if env.verifyStrict signingKey msg signature then .ok ()
      else .error (.crypto "ServerHello signature invalid — possible MITM attack")

/-- The end of the handshake, `client_wire.rs:952-957`. -/
def ratchetHandshake (keypair : KeyPair) (s : Handshake) (serverEphPub : Bytes32) :
    Except Error Handshake :=
  match keypair.computeShared env.crypto serverEphPub with
  | none => .error (.crypto "DH result is all-zero (possible small subgroup attack)")
  | some dh2 =>
    .ok
      { keys := deriveSessionKeys env.crypto dh2 (some s.keys.sessionKey)
          (keypair.publicKeyBytes env.crypto)
        sendCounter := 0
        recvWindow := s.recvWindow.reset }

def decodeServerHelloPacket (s : Handshake) (mdhLen : Nat) (call : DownlinkCall) : Decoding :=
  decodeDownlinkWithOffsets env.wire s.keys s.recvWindow { call with candidateMdhLens := [mdhLen] }

/-- `process_server_hello_with_offsets`, `client_wire.rs:912-963`. -/
def processServerHelloWithOffsets (keypair : KeyPair) (serverSigningKey : Option Bytes32)
    (mdhLen : Nat) (s : Handshake) (call : DownlinkCall) :
    Except Error (Option ClientNetworkConfig × Bytes32) × Handshake :=
  match decodeServerHelloPacket env s mdhLen call with
  | (.error e, w, _) => (.error e, { s with recvWindow := w })
  | (.ok decoded, w, _) =>
    let s := { s with recvWindow := w }
    if decoded.header.innerType ≠ .control then
      (.error (.invalidPacket "Expected control packet for ServerHello"), s)
    else
      match ControlPayload.decode env.text decoded.payload with
      | .error e => (.error e, s)
      | .ok (.serverHello serverEphPub signature networkConfig) =>
        match verifyServerHello env keypair serverSigningKey serverEphPub signature with
        | .error e => (.error e, s)
        | .ok () =>
          match ratchetHandshake env keypair s serverEphPub with
          | .error e => (.error e, s)
          | .ok s' => (.ok (networkConfig, serverEphPub), s')
      | .ok _ => (.error (.invalidPacket "Expected ServerHello control payload"), s)

/-- A failure leaves all but the window, which is that of the decoder. -/
theorem processServerHello_of_error {env : HelloEnv} {keypair : KeyPair}
    {serverSigningKey : Option Bytes32} {mdhLen : Nat} {s : Handshake} {call : DownlinkCall}
    {error : Error}
    (h : (processServerHelloWithOffsets env keypair serverSigningKey mdhLen s call).1 =
      .error error) :
    (processServerHelloWithOffsets env keypair serverSigningKey mdhLen s call).2 =
      { s with recvWindow := (decodeServerHelloPacket env s mdhLen call).2.1 } := by
  unfold processServerHelloWithOffsets at h ⊢
  generalize decodeServerHelloPacket env s mdhLen call = decoding at h ⊢
  obtain ⟨answer, w, lens⟩ := decoding
  cases answer with
  | error e => rfl
  | ok decoded =>
    dsimp only at h ⊢
    split at h
    · next hkind => rw [if_pos hkind]
    next hkind =>
    rw [if_neg hkind]
    split at h
    · rfl
    · split at h
      · rfl
      · split at h
        · rfl
        · cases h
    · rfl

/-- A ServerHello that is refused leaves the keys and the send counter as they were. Of the received
counters the window has at most marked the one that authenticated, which was new; apart from them
only the preferred layout and the time of the last recovery may change. -/
theorem server_hello_atomic (env : HelloEnv) (keypair : KeyPair) (serverSigningKey : Option Bytes32)
    (mdhLen : Nat) (s : Handshake) (call : DownlinkCall) (error : Error)
    (h : (processServerHelloWithOffsets env keypair serverSigningKey mdhLen s call).1 =
      .error error) :
    let s' := (processServerHelloWithOffsets env keypair serverSigningKey mdhLen s call).2
    s'.keys = s.keys ∧ s'.sendCounter = s.sendCounter ∧
    match (decodeServerHelloPacket env s mdhLen call).1 with
    | .error _ => s.recvWindow.SameReplay s'.recvWindow
    | .ok decoded =>
      s.recvWindow.isNew decoded.counter = true ∧
        (s.recvWindow.mark decoded.counter).SameReplay s'.recvWindow := by
  intro s'
  have hs' : s' = { s with recvWindow := (decodeServerHelloPacket env s mdhLen call).2.1 } :=
    processServerHello_of_error h
  have hwindow : s'.recvWindow = (decodeServerHelloPacket env s mdhLen call).2.1 := by rw [hs']
  have hsettles : s.recvWindow.Settles (decodeServerHelloPacket env s mdhLen call).1
      (decodeServerHelloPacket env s mdhLen call).2.1 :=
    settles_decodeDownlinkWithOffsets env.wire s.keys s.recvWindow _
  refine ⟨by rw [hs'], by rw [hs'], ?_⟩
  rw [hwindow]
  cases hanswer : (decodeServerHelloPacket env s mdhLen call).1 with
  | error e | ok decoded =>
    rw [hanswer] at hsettles
    exact hsettles

def sampleHelloEnv : HelloEnv where
  wire := sampleWire
  crypto := sampleCrypto
  text := unaryText
  verifyingKey := fun _ => .ok ()
  verifyStrict := fun _ _ _ => false

def keepaliveCall : DownlinkCall :=
  { sampleCall with
    packet := u64Bytes 3 ++ [7, 7] ++ List.replicate 16 0 ++ [0, 0, 2, 0, 0, 0] ++
      ControlSubtype.keepalive.toU8 :: u64Bytes 1 }

def freshHandshake : Handshake := ⟨sampleKeys 1, .new, 1⟩

theorem server_hello_atomic_keepaliveCall :
    (processServerHelloWithOffsets sampleHelloEnv ⟨sampleKey 4⟩ none 2 freshHandshake
      keepaliveCall).1 = .error (.invalidPacket "Expected ServerHello control payload") ∧
    (processServerHelloWithOffsets sampleHelloEnv ⟨sampleKey 4⟩ none 2 freshHandshake
      keepaliveCall).2.keys = sampleKeys 1 := by
  have hrefused : (processServerHelloWithOffsets sampleHelloEnv ⟨sampleKey 4⟩ none 2 freshHandshake
      keepaliveCall).1 = .error (.invalidPacket "Expected ServerHello control payload") := by
    decide +kernel
  have hatomic := server_hello_atomic sampleHelloEnv ⟨sampleKey 4⟩ none 2 freshHandshake
    keepaliveCall _ hrefused
  exact ⟨hrefused, hatomic.1⟩

def syncedHandshake : Handshake := { freshHandshake with recvWindow := RecvWindow.new.mark 5 }

def sampleHelloStep (s : Handshake) (call : DownlinkCall) : Handshake :=
  (processServerHelloWithOffsets sampleHelloEnv ⟨sampleKey 4⟩ none 2 s call).2

theorem fields_mark (w : RecvWindow) (counter : UInt64) :
    (w.mark counter).preferredTagOffset = w.preferredTagOffset ∧
    (w.mark counter).lastAttempt = w.lastAttempt := by
  unfold RecvWindow.mark
  split <;> exact ⟨rfl, rfl⟩

/-- A refused packet changes more of the window than the counter that it marks: one that
authenticates makes its layout the preferred one, and one that does not takes the attempt at
recovery that the window allows once a second. -/
theorem server_hello_touches_window :
    ((processServerHelloWithOffsets sampleHelloEnv ⟨sampleKey 4⟩ none 2 freshHandshake
        keepaliveCall).1 = .error (.invalidPacket "Expected ServerHello control payload") ∧
      (sampleHelloStep freshHandshake keepaliveCall).recvWindow ≠ freshHandshake.recvWindow ∧
      ∀ counter, (sampleHelloStep freshHandshake keepaliveCall).recvWindow ≠
        freshHandshake.recvWindow.mark counter) ∧
    ((processServerHelloWithOffsets sampleHelloEnv ⟨sampleKey 4⟩ none 2 syncedHandshake
        { sampleCall with packet := [] }).1 = .error (.invalidPacket "Packet too short") ∧
      (sampleHelloStep syncedHandshake { sampleCall with packet := [] }).recvWindow ≠
        syncedHandshake.recvWindow ∧
      ∀ counter, (sampleHelloStep syncedHandshake { sampleCall with packet := [] }).recvWindow ≠
        syncedHandshake.recvWindow.mark counter) := by
  have hlayout : (sampleHelloStep freshHandshake keepaliveCall).recvWindow.preferredTagOffset =
      some defaultTagOffset := by
    decide +kernel
  have hattempt : (sampleHelloStep syncedHandshake
      { sampleCall with packet := [] }).recvWindow.lastAttempt = some 0 := by
    decide +kernel
  refine ⟨⟨by decide +kernel, ?_, ?_⟩, by decide +kernel, ?_, ?_⟩
  · intro heq
    rw [heq] at hlayout
    cases hlayout
  · intro counter heq
    rw [heq, (fields_mark _ counter).1] at hlayout
    cases hlayout
  · intro heq
    rw [heq, syncedHandshake, (fields_mark _ 5).2] at hattempt
    cases hattempt
  · intro counter heq
    rw [heq, (fields_mark _ counter).2, syncedHandshake, (fields_mark _ 5).2] at hattempt
    cases hattempt

end AivpnSpec.Client
