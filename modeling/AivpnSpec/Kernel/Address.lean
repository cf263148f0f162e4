import AivpnSpec.Base.Layout
import AivpnSpec.Kernel.Policy

/-!
# Addresses of inner packets in the kernel module

`linux-kernel/src/policy.h:182-277` and `602-703`: the IPv6 address that belongs to a client, the
parser of the inner packet, and the check of its addresses against the policy of a session.
-/

namespace AivpnSpec.Kernel

open AivpnSpec.Base

/-- The loop that clears what lies behind the prefix, `policy.h:191-202`; `keep` bits remain. -/
def maskOctets : (keep : Nat) → List UInt8 → List UInt8
  | _, [] => []
  | keep, b :: rest =>
    if 8 ≤ keep then b :: maskOctets (keep - 8) rest
    else if keep = 0 then 0 :: maskOctets 0 rest
    else (b &&& (0xff <<< UInt8.ofNat (8 - keep))) :: maskOctets 0 rest

theorem byteAt_maskOctets (keep : Nat) (bytes : List UInt8) (i : Nat) :
    byteAt (maskOctets keep bytes) i =
      if 8 * (i + 1) ≤ keep then byteAt bytes i
      else if keep ≤ 8 * i then 0
      else byteAt bytes i &&& (0xff <<< UInt8.ofNat (8 - (keep - 8 * i))) := by
  induction bytes generalizing keep i with
  | nil =>
    simp [maskOctets, byteAt]
  | cons b rest ih =>
    rw [maskOctets]
    by_cases hkeep : 8 ≤ keep
    · rw [if_pos hkeep]
      cases i with
      | zero => rw [if_pos (show 8 * (0 + 1) ≤ keep from hkeep)]; rfl
      | succ i =>
        show byteAt (maskOctets (keep - 8) rest) i = _
        rw [ih, show keep - 8 - 8 * i = keep - 8 * (i + 1) by omega]
        have hwhole : 8 * (i + 1) ≤ keep - 8 ↔ 8 * (i + 1 + 1) ≤ keep := by omega
        have hnone : keep - 8 ≤ 8 * i ↔ keep ≤ 8 * (i + 1) := by omega
        simp only [hwhole, hnone]
        rfl
    · rw [if_neg hkeep, if_neg (show ¬ 8 * (i + 1) ≤ keep by omega)]
      cases i with
      | zero =>
        by_cases hzero : keep = 0
        · rw [if_pos hzero, if_pos (show keep ≤ 8 * 0 by omega)]; rfl
        · rw [if_neg hzero, if_neg (show ¬ keep ≤ 8 * 0 by omega)]; rfl
      | succ i =>
        -- Behind the byte that the prefix ends in nothing is kept.
        have hdone : byteAt (maskOctets 0 rest) i = 0 := by
          rw [ih, if_neg (by omega), if_pos (by omega)]
        rw [if_pos (show keep ≤ 8 * (i + 1) by omega)]
        split <;> exact hdone

/-- The mask of the byte that the prefix ends in. -/
theorem testBit_partialOctet {shift j : Nat} (hshift : shift < 8) (hj : j < 8) :
    ((0xff : UInt8) <<< UInt8.ofNat shift).toNat.testBit j = decide (shift ≤ j) := by
  have hall : ∀ shift < 8, ∀ j < 8,
      ((0xff : UInt8) <<< UInt8.ofNat shift).toNat.testBit j = decide (shift ≤ j) := by
    decide
  exact hall shift hshift j hj

/-- The loop keeps exactly the bits of the prefix. -/
theorem testBit_maskOctets (keep : Nat) (bytes : List UInt8) (i : Nat) {j : Nat} (hj : j < 8) :
    (byteAt (maskOctets keep bytes) i).toNat.testBit j =
      (decide (8 * i + (7 - j) < keep) && (byteAt bytes i).toNat.testBit j) := by
  rw [byteAt_maskOctets]
  split
  · next hwhole =>
    have hin : 8 * i + (7 - j) < keep := by omega
    simp [hin]
  split
  · next hnone =>
    have hout : ¬8 * i + (7 - j) < keep := by omega
    simp [hout]
  · next hsome hpart =>
    rw [UInt8.toNat_and, Nat.testBit_and, testBit_partialOctet (by omega) hj, Bool.and_comm]
    congr 1
    apply decide_eq_decide.mpr
    omega

/-- `aivpn_ipv6_assigned`, `policy.h:182-211`: the prefix with the IPv4 address in the last bytes. -/
def ipv6Assigned (networkPrefix : RawIpv6) (prefixLen : UInt8) (ipv4 : RawIpv4) : RawIpv6 :=
  let addr := maskOctets prefixLen.toNat networkPrefix.toList
  Vector.ofFn fun i =>
    if i.val < 12 then byteAt addr i else byteAt addr i ||| byteAt ipv4.toList (i - 12)

/-- `aivpn_ipv6_matches`, `policy.h:213-222`. -/
def ipv6Matches (networkPrefix : RawIpv6) (prefixLen : UInt8) (ipv4 : RawIpv4)
    (addr : RawIpv6) : Bool :=
  if prefixLen = 0 ∨ 96 < prefixLen then false
  else ipv6Assigned networkPrefix prefixLen ipv4 = addr

/-- `struct aivpn_ip_view`, `policy.h:40-47`; the addresses of the other version are zero. -/
structure IpView where
  version : Nat
  srcV4 : RawIpv4
  dstV4 : RawIpv4
  srcV6 : RawIpv6
  dstV6 : RawIpv6
  length : Nat
  deriving DecidableEq

/-- A 16-bit field as `policy.h` puts it together. -/
def be16At (p : List UInt8) (offset : Nat) : Nat :=
  (byteAt p offset).toNat <<< 8 ||| (byteAt p (offset + 1)).toNat

/-- `aivpn_ip_parse`, `policy.h:224-277`. The buffer `p` holds the first bytes of a packet of
`pktLen` bytes; only zeros may follow the packet's own length. -/
def ipParse (p : List UInt8) (pktLen : Nat) : Option IpView :=
  if p.length = 0 ∨ pktLen = 0 ∨ pktLen < p.length then none
  else if byteAt p 0 >>> 4 = 4 then
    if p.length < 20 then none
    else
      let ihl := (byteAt p 0 &&& 0x0f).toNat * 4
      let total := be16At p 2
      if ihl < 20 ∨ total < ihl ∨ pktLen < total then none
      else if (p.drop total).any (· ≠ 0) then none
      else
        some
          { version := 4
            srcV4 := arrayAt 4 p 12
            dstV4 := arrayAt 4 p 16
            srcV6 := Vector.replicate 16 0
            dstV6 := Vector.replicate 16 0
            length := total }
  else if byteAt p 0 >>> 4 = 6 then
    if p.length < 40 then none
    else
      let payload := be16At p 4
      if payload = 0 ∧ byteAt p 6 ≠ 59 then none
      else
        let total := 40 + payload
        if pktLen < total then none
        else if (p.drop total).any (· ≠ 0) then none
        else
          some
            { version := 6
              srcV4 := Vector.replicate 4 0
              dstV4 := Vector.replicate 4 0
              srcV6 := arrayAt 16 p 8
              dstV6 := arrayAt 16 p 24
              length := total }
  else none

/-- `aivpn_peer_hit`, `policy.h:602-607`. -/
def peerHit (peer : RawIpv4 → Bool) (ipv4 : RawIpv4) : Bool :=
  if ipv4 = Vector.replicate 4 0 then false else peer ipv4

/-- The verdict on a packet to a client, `policy.h:624-637`. -/
def clientVerdict (p : Pol) (view : IpView) : Verdict :=
  if view.version = 4 then if view.dstV4 = p.clientIpv4 then .accept else .drop
  else if view.version = 6 then
    if !hasFlag p.flags polIpv6 then .fallback
    else if ipv6Matches p.ipv6Prefix p.ipv6PrefixLen p.clientIpv4 view.dstV6 then .accept
    else .drop
  else .drop

/-- The verdict on a packet from a client, `policy.h:640-672`: its source must be the session's own
address. -/
def uplinkVerdict (p : Pol) (view : IpView) (peer : RawIpv4 → Bool) : Verdict :=
  let isolate := hasFlag p.flags polPeerIsolate
  if view.version = 4 then
    if view.srcV4 ≠ p.clientIpv4 then .drop
    else if isolate ∧ view.dstV4 ≠ p.clientIpv4 then
      if peerHit peer view.dstV4 then .drop else .fallback
    else .accept
  else if view.version = 6 then
    if !hasFlag p.flags polIpv6 then .fallback
    else if !ipv6Matches p.ipv6Prefix p.ipv6PrefixLen p.clientIpv4 view.srcV6 then .drop
    else if isolate ∧ !ipv6Matches p.ipv6Prefix p.ipv6PrefixLen p.clientIpv4 view.dstV6 then
      let mapped : RawIpv4 := arrayAt 4 view.dstV6.toList 12
      if ipv6Matches p.ipv6Prefix p.ipv6PrefixLen mapped view.dstV6 ∧ mapped ≠ p.clientIpv4 ∧
          peerHit peer mapped then .drop
      else .fallback
    else .accept
  else .drop

/-- The verdict on a packet that was routed to a client, `policy.h:675-702`. -/
def downlinkVerdict (p : Pol) (view : IpView) (peer : RawIpv4 → Bool) : Verdict :=
  let isolate := hasFlag p.flags polPeerIsolate
  if view.version = 4 then
    if view.dstV4 ≠ p.clientIpv4 then .fallback
    else if isolate ∧ view.srcV4 ≠ p.clientIpv4 then
      if peerHit peer view.srcV4 then .drop else .fallback
    else .accept
  else if view.version = 6 then
    if !hasFlag p.flags polIpv6 then .fallback
    else if !ipv6Matches p.ipv6Prefix p.ipv6PrefixLen p.clientIpv4 view.dstV6 then .drop
    else
      let mapped : RawIpv4 := arrayAt 4 view.srcV6.toList 12
      if isolate ∧ ipv6Matches p.ipv6Prefix p.ipv6PrefixLen mapped view.srcV6 ∧
          mapped ≠ p.clientIpv4 ∧ peerHit peer mapped then .drop
      else if isolate ∧ !ipv6Matches p.ipv6Prefix p.ipv6PrefixLen p.clientIpv4 view.srcV6 then
        .fallback
      else .accept
  else .drop

/-- `aivpn_pol_check_addrs`, `policy.h:609-703`; `peer` says whether another session has the
address. -/
def polCheckAddrs (p : Pol) (dir : Direction) (ip : List UInt8) (pktLen : Nat)
    (peer : RawIpv4 → Bool) : Verdict :=
  match ipParse ip pktLen with
  | none => .drop
  | some view =>
    if p.clientIpv4 = Vector.replicate 4 0 then .fallback
    else if p.role = roleClient then clientVerdict p view
    else
      match dir with
      | .uplink => uplinkVerdict p view peer
      | .downlink => downlinkVerdict p view peer

def sampleIpv4 : RawIpv4 := #v[10, 0, 0, 2]

end AivpnSpec.Kernel
