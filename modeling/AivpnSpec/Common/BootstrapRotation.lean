import Mathlib
import AivpnSpec.Common.Mask

/-!
# The rotation over the bootstrap catalogue

After every third failure a client turns to the next valid descriptor, and after a round over all of
them to the next slot. All candidates come up, for a preferred base those that have its protocol.
-/

namespace AivpnSpec.Common

open List

variable {M : Type}

structure BootstrapDescriptor (M : Type) where
  createdAt : Nat
  expiresAt : Nat
  baseMaskIds : List String
  embeddedMasks : List M
  candidateCount : UInt8

/-- The presets, the first byte of the seed of a slot under the shared key, and the mask of a slot:
the base with another name and a gap. -/
structure BootstrapEnv (M : Type) where
  catalog : List M
  maskId : M → String
  spoofProtocol : M → SpoofProtocol
  seed : BootstrapDescriptor M → Nat → UInt8
  vary : BootstrapDescriptor M → Nat → M → M

namespace BootstrapDescriptor

def isValidAt (now : Nat) (d : BootstrapDescriptor M) : Bool :=
  d.createdAt ≤ now ∧ now ≤ d.expiresAt

def slots (d : BootstrapDescriptor M) : List Nat := range d.candidateCount.toNat

end BootstrapDescriptor

namespace BootstrapEnv

variable (env : BootstrapEnv M)

def byId (id : String) : Option M := env.catalog.find? fun mask => env.maskId mask = id

def deriveWithBase (d : BootstrapDescriptor M) (slot : Nat) : Option (String × M) :=
  let selector := (env.seed d slot).toNat
  if d.embeddedMasks.isEmpty then
    let baseIds := if d.baseMaskIds.isEmpty then env.catalog.map env.maskId else d.baseMaskIds
    -- without any base there is no candidate
    baseIds[selector % baseIds.length]?.bind fun id =>
      (env.byId id).map fun mask => (id, env.vary d slot mask)
  else
    d.embeddedMasks[selector % d.embeddedMasks.length]?.map fun mask =>
      (env.maskId mask, env.vary d slot mask)

def derive (d : BootstrapDescriptor M) (slot : Nat) : Option M :=
  (env.deriveWithBase d slot).map (·.2)

variable (now : Nat) (descriptors : List (BootstrapDescriptor M))

/-- The valid descriptors, each with the first slot that has a candidate. -/
def groups : List (BootstrapDescriptor M × Nat) :=
  (descriptors.filter (·.isValidAt now)).filterMap fun d =>
    (d.slots.find? fun slot => (env.derive d slot).isSome).map fun first => (d, first)

end BootstrapEnv

namespace BootstrapEnv

/-- One preset, and masks that are their names and protocols. -/
def sampleEnv : BootstrapEnv (String × SpoofProtocol) where
  catalog := [("base", .quic)]
  maskId := (·.1)
  spoofProtocol := (·.2)
  seed := fun _ _ => 0
  vary := fun _ _ mask => ("bootstrap:" ++ mask.1, mask.2)

end BootstrapEnv

end AivpnSpec.Common
