import AivpnSpec.Common.Protocol

/-!
# Key agreement and session keys

`crates/aivpn-common/src/crypto.rs:104-260`. The scalar multiplication and the key derivation
are parameters. Of the session keys only the one that the next keys are derived from and the tag
secret are kept; they are derived together from one input.
-/

namespace AivpnSpec.Common

/-- `SessionKeys`, `crypto.rs:104-134`. -/
structure SessionKeys where
  sessionKey : Bytes32
  tagSecret : Bytes32
  deriving DecidableEq

/-- The functions of the crypto libraries. -/
structure CryptoEnv where
  /-- `x25519` of a private and a public key -/
  x25519 : Bytes32 → Bytes32 → Bytes32
  /-- the public key of a private one -/
  x25519Base : Bytes32 → Bytes32
  /-- `blake3::derive_key` with the contexts of the session keys -/
  deriveKey : Bytes → SessionKeys

variable (env : CryptoEnv)

/-- Two private keys agree on the shared secret. -/
def CryptoEnv.Agrees : Prop :=
  ∀ a b, env.x25519 a (env.x25519Base b) = env.x25519 b (env.x25519Base a)

/-- `KeyPair`, `crypto.rs:137-140`; the public key is computed from the private one. -/
structure KeyPair where
  privateKeyBytes : Bytes32
  deriving DecidableEq

/-- `public_key_bytes`, `crypto.rs:191-193`. -/
def KeyPair.publicKeyBytes (kp : KeyPair) : Bytes32 :=
  env.x25519Base kp.privateKeyBytes

/-- `compute_shared`, `crypto.rs:202-211`. -/
def KeyPair.computeShared (kp : KeyPair) (remotePublic : Bytes32) : Option Bytes32 :=
  let shared := env.x25519 kp.privateKeyBytes remotePublic
  if shared = Vector.replicate 32 0 then none else some shared

/-- `derive_session_keys`, `crypto.rs:215-240`. -/
def deriveSessionKeys (dhResult : Bytes32) (presharedKey : Option Bytes32) (ephPub : Bytes32) :
    SessionKeys :=
  env.deriveKey (dhResult.toList ++ (presharedKey.map Vector.toList).getD [] ++ ephPub.toList)

/-- Both ends compute the same shared secret. -/
theorem computeShared_comm {env : CryptoEnv} (h : env.Agrees) (a b : KeyPair) :
    a.computeShared env (b.publicKeyBytes env) = b.computeShared env (a.publicKeyBytes env) := by
  unfold KeyPair.computeShared KeyPair.publicKeyBytes
  rw [h]

def sampleKey (b : UInt8) : Bytes32 := (Vector.replicate 32 0).set 0 b

def sampleKeys (b : UInt8) : SessionKeys := ⟨sampleKey b, sampleKey b⟩

def sampleCrypto : CryptoEnv where
  x25519 := Vector.zipWith (· + ·)
  x25519Base := id
  deriveKey := fun input => sampleKeys (input.foldl (fun h b => h * 3 + b) 7)

theorem sampleCrypto_agrees : sampleCrypto.Agrees := by
  intro a b
  ext i hi
  simp [sampleCrypto, UInt8.add_comm]

end AivpnSpec.Common
