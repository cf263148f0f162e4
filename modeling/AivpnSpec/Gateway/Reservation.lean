import AivpnSpec.Common.Mask
import AivpnSpec.Kernel.SessionTable
import AivpnSpec.Server.Session.State

/-!
# Counters for packets to a client

`session.rs:748-754` and `gateway/kernel_offload.rs:153-202`: userspace takes the counters of its
own packets one by one from `send_counter`, and reserves blocks of them for the kernel.
-/

namespace AivpnSpec.Gateway

open AivpnSpec.Base AivpnSpec.Common AivpnSpec.Kernel

/-- What the functions take from the crypto library and the clock. -/
structure SendEnv where
  /-- `packet_cipher.is_initial()` -/
  isInitial : SessionKeys → Bool
  /-- `generate_resonance_tag` for a tag secret, a counter and a time window -/
  resonanceTag : Bytes32 → UInt64 → UInt64 → Tag

/-- A session with what is needed to send. -/
structure SendSession where
  session : Server.Session
  sessionId : SessionId
  sendCounter : UInt64
  sendSeq : UInt32
  mask : Option MaskProfile
  kernelDlWindow : UInt64

/-- `SessionDownlink`, `kernel_accel.rs:162-172`; the header and the entries are as long as their
counts say. -/
structure SessionDownlink where
  sessionId : SessionId
  seqBase : UInt16
  mdh : Bytes
  entries : List DlEntry
  dlTagPos : UInt16
  deriving DecidableEq

/-- `KERNEL_DOWNLINK_BLOCK`, `kernel_offload.rs:133`. -/
def kernelDownlinkBlock : Nat := 128

/-- `kernel_downlink_tag_pos`, `kernel_offload.rs:277-285`. -/
def kernelDownlinkTagPos (mask : MaskProfile) (mdhLen : Nat) : UInt16 :=
  if mask.usesEmbeddedLayout mdhLen then mask.tagOffset else 0xffff

namespace SendSession

/-- `next_send_nonce`, `session.rs:748-754`: the nonce is the counter and four zeros. -/
def nextSendNonce (s : SendSession) : (Bytes × UInt64) × SendSession :=
  ((u64Bytes s.sendCounter ++ List.replicate 4 0, s.sendCounter),
    { s with sendCounter := s.sendCounter + 1 })

def reserved (env : SendEnv) (tagSecret : Bytes32) (base timeWindow : UInt64) : List DlEntry :=
  (List.range kernelDownlinkBlock).map fun i =>
    { tag := env.resonanceTag tagSecret (base + UInt64.ofNat i) timeWindow
      counter := base + UInt64.ofNat i }

/-- `make_kernel_downlink`, `kernel_offload.rs:153-202`; `armed` is `KERNEL_DOWNLINK_ARMED`. -/
def makeKernelDownlink (env : SendEnv) (armed : Bool) (rng : HeaderRng) (timeWindow : UInt64)
    (s : SendSession) : Option SessionDownlink × SendSession :=
  if env.isInitial s.session.keys then (none, s)
  else if !armed then (none, s)
  else
    match s.mask with
    | none => (none, s)
    | some mask =>
      if mask.usesStunAttributes || mask.requiresUserspace then (none, s)
      else
        let mdh := mask.header rng
        if mdh.length = 0 ∨ dlMdhMax < mdh.length then (none, s)
        else
          (some
            { sessionId := s.sessionId
              seqBase := s.sendSeq.toUInt16
              mdh := mdh
              entries := reserved env s.session.keys.tagSecret s.sendCounter timeWindow
              dlTagPos := kernelDownlinkTagPos mask mdh.length },
            { s with
              sendCounter := s.sendCounter + UInt64.ofNat kernelDownlinkBlock
              sendSeq := s.sendSeq + UInt32.ofNat kernelDownlinkBlock
              kernelDlWindow := timeWindow })

variable (env : SendEnv) (armed : Bool) (rng : HeaderRng) (timeWindow : UInt64) (s : SendSession)

/-- No block is reserved, or one that starts at the send counter and moves it past its end. -/
theorem makeKernelDownlink_cases :
    s.makeKernelDownlink env armed rng timeWindow = (none, s) ∨
    ∃ mask dl, s.mask = some mask ∧ mask.usesStunAttributes = false ∧
      mask.requiresUserspace = false ∧ dl.mdh = mask.header rng ∧
      dl.dlTagPos = kernelDownlinkTagPos mask dl.mdh.length ∧
      dl.entries = reserved env s.session.keys.tagSecret s.sendCounter timeWindow ∧
      s.makeKernelDownlink env armed rng timeWindow = (some dl,
        { s with
          sendCounter := s.sendCounter + UInt64.ofNat kernelDownlinkBlock
          sendSeq := s.sendSeq + UInt32.ofNat kernelDownlinkBlock
          kernelDlWindow := timeWindow }) := by
  unfold makeKernelDownlink
  split
  · exact .inl rfl
  split
  · exact .inl rfl
  split
  · exact .inl rfl
  next mask hmask =>
  split
  · exact .inl rfl
  next huserspace =>
  rw [Bool.or_eq_true, not_or] at huserspace
  dsimp only
  split
  · exact .inl rfl
  right
  refine ⟨mask, _, hmask, Bool.eq_false_iff.mpr huserspace.1,
    Bool.eq_false_iff.mpr huserspace.2, ?_, ?_, ?_, rfl⟩
  · rfl
  · rfl
  · rfl

end SendSession

end AivpnSpec.Gateway
