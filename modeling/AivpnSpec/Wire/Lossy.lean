import AivpnSpec.Wire.Text

/-!
# Lossy decoding

`String::from_utf8_lossy` on bytes that hold a line break: the break is never part of a broken
sequence, so what stands before it and what stands after it are decoded on their own.
-/

namespace AivpnSpec.Wire

open AivpnSpec.Common AivpnSpec.Server List

end AivpnSpec.Wire
