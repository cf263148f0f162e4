import AivpnSpec.Base.Overwrite
import AivpnSpec.Kernel.SessionTable

/-!
# Packets to clients in the kernel module

`policy.h:706-729`: the header with the tag of a reserved entry.
-/

namespace AivpnSpec.Kernel

open AivpnSpec.Base

/-- `aivpn_place_header`, `policy.h:706-729`: what is written into a buffer of `cap` bytes. The
header comes from an array, so its pointer is never null. -/
def placeHeader (cap : Nat) (tag : Vector UInt8 8) (mdh : List UInt8) (tagPos : Nat) :
    Option (List UInt8) :=
  if tagPos = 0xffff then if cap < 8 + mdh.length then none else some (tag.toList ++ mdh)
  else if mdh.length < tagPos + 8 ∨ cap < mdh.length then none
  else some (overwrite mdh tagPos tag.toList)

end AivpnSpec.Kernel
