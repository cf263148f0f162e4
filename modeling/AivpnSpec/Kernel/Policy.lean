import AivpnSpec.Kernel.Replay

/-!
# Session policies of the kernel module

`linux-kernel/src/policy.h:50-180` and `435-527` with the constants of `uapi/aivpn.h`: the policy
of a session, its refresh by userspace, and the quota and token bucket that a packet is charged
against. Counters and clock readings are 64-bit words; their sums and products wrap.
-/

namespace AivpnSpec.Kernel

open AivpnSpec.Base

/-- An IPv4 address as its four bytes in memory, which is how `__u32 client_ipv4` is filled. -/
abbrev RawIpv4 := Vector UInt8 4

/-- An IPv6 address, `__u8[16]`. -/
abbrev RawIpv6 := Vector UInt8 16

/-- A client's key in the group of sessions that share a budget, `__u8[16]`. -/
abbrev ClientKey := Vector UInt8 16

/-- `AIVPN_VERDICT_*`, `policy.h:24-26`. -/
inductive Verdict where
  | accept
  | drop
  | fallback
  deriving DecidableEq

/-- `AIVPN_DIR_*`, `policy.h:32-33`. -/
inductive Direction where
  | uplink
  | downlink
  deriving DecidableEq

def policyVersion : UInt32 := 1
def roleServer : UInt32 := 1
def roleClient : UInt32 := 2

def polIpv6 : UInt32 := 0x1
def polPeerIsolate : UInt32 := 0x2
def polQosUp : UInt32 := 0x4
def polQosDown : UInt32 := 0x8
def polQuotaUp : UInt32 := 0x10
def polQuotaDown : UInt32 := 0x20
def polRevoked : UInt32 := 0x40
def polFallback : UInt32 := 0x80
def polMtlsWait : UInt32 := 0x100
def polExit : UInt32 := 0x200
def polEnrollWait : UInt32 := 0x400
def polSite : UInt32 := 0x800
def polQuotaReset : UInt32 := 0x1000
def polRxFallback : UInt32 := 0x2000
def polTxFallback : UInt32 := 0x4000

def polUserspaceModes : UInt32 := polFallback ||| polMtlsWait ||| polExit ||| polEnrollWait ||| polSite

def hasFlag (flags mask : UInt32) : Bool := flags &&& mask != 0

/-- `~0ull`. -/
def allOnes64 : UInt64 := ~~~0

/-- `struct aivpn_pol`, `policy.h:50-72`. -/
structure Pol where
  version : UInt32
  role : UInt32
  flags : UInt32
  clientIpv4 : RawIpv4
  ipv6Prefix : RawIpv6
  ipv6PrefixLen : UInt8
  armed : Bool
  rateUpBps : UInt64
  rateDownBps : UInt64
  quotaUp : UInt64
  quotaDown : UInt64
  tokensUp : UInt64
  tokensDown : UInt64
  bucketNs : UInt64
  replay : ReplayWin
  rxBytesSynced : UInt64
  txBytesSynced : UInt64
  maxSessions : UInt32
  clientKey : ClientKey
  deriving DecidableEq

/-- The zeroed policy of a new session. -/
def Pol.zero : Pol where
  version := 0
  role := 0
  flags := 0
  clientIpv4 := Vector.replicate 4 0
  ipv6Prefix := Vector.replicate 16 0
  ipv6PrefixLen := 0
  armed := false
  rateUpBps := 0
  rateDownBps := 0
  quotaUp := 0
  quotaDown := 0
  tokensUp := 0
  tokensDown := 0
  bucketNs := 0
  replay := .zero
  rxBytesSynced := 0
  txBytesSynced := 0
  maxSessions := 0
  clientKey := Vector.replicate 16 0

/-- `struct aivpn_session_policy`, `uapi/aivpn.h:265-280`, without the id it is addressed to. -/
structure SessionPolicy where
  policyVersion : UInt32
  role : UInt32
  flags : UInt32
  clientIpv4 : RawIpv4
  ipv6Prefix : RawIpv6
  ipv6PrefixLen : UInt8
  rateUpBps : UInt64
  rateDownBps : UInt64
  quotaUpBytes : UInt64
  quotaDownBytes : UInt64
  maxSessions : UInt32
  clientKey : ClientKey
  deriving DecidableEq

/-- `aivpn_bucket_capacity`, `policy.h:74-79`. -/
def bucketCapacity (rate : UInt64) : UInt64 := if 1500 < rate / 10 then rate / 10 else 1500

/-- `aivpn_pol_over_cap`, `policy.h:81-84`. -/
def polOverCap (othersArmed maxSessions : UInt32) : Bool :=
  decide (0 < maxSessions) && decide (maxSessions ≤ othersArmed)

/-- `aivpn_pol_fast`, `policy.h:86-98`. -/
def polFast (p : Pol) : Verdict :=
  if hasFlag p.flags polRevoked then .drop
  else if !p.armed || p.version ≠ policyVersion then .fallback
  else if p.role ≠ roleServer ∧ p.role ≠ roleClient then .fallback
  else if hasFlag p.flags polUserspaceModes then .fallback
  else .accept

/-- `aivpn_pol_direction`, `policy.h:101-108`. -/
def polDirection (p : Pol) (fallback : UInt32) : Verdict :=
  match polFast p with
  | .accept => if hasFlag p.flags fallback then .fallback else .accept
  | v => v

/-- The quota that remains after a refresh: without a reset it only goes down, `policy.h:148-154`. -/
def refreshedQuota (hadQuota reset : Bool) (left installed : UInt64) : UInt64 :=
  if reset then installed else if hadQuota && decide (left < installed) then left else installed

/-- A refresh cuts tokens to the new capacity, if something was ever charged, `policy.h:168-179`. -/
def refreshedTokens (bucketNs : UInt64) (limited : Bool) (rate tokens : UInt64) : UInt64 :=
  if bucketNs ≠ 0 ∧ limited ∧ bucketCapacity rate < tokens then bucketCapacity rate else tokens

/-- `aivpn_pol_apply`, `policy.h:110-180`: the refreshed policy, or nothing where it returns `-1`. -/
def polApply (p : Pol) (input : SessionPolicy) : Option Pol :=
  if input.policyVersion ≠ policyVersion then none
  else if hasFlag input.flags polIpv6 ∧ (input.ipv6PrefixLen = 0 ∨ 96 < input.ipv6PrefixLen) then
    none
  else if input.role ≠ roleServer ∧ input.role ≠ roleClient then none
  else
    let reset := hasFlag input.flags polQuotaReset
    let flags := (input.flags ||| (p.flags &&& polRevoked)) &&& ~~~polQuotaReset
    some
      { version := input.policyVersion
        role := input.role
        flags := flags
        clientIpv4 := input.clientIpv4
        ipv6Prefix := input.ipv6Prefix
        ipv6PrefixLen := input.ipv6PrefixLen
        armed := true
        rateUpBps := input.rateUpBps
        rateDownBps := input.rateDownBps
        quotaUp := refreshedQuota (hasFlag p.flags polQuotaUp) reset p.quotaUp input.quotaUpBytes
        quotaDown :=
          refreshedQuota (hasFlag p.flags polQuotaDown) reset p.quotaDown input.quotaDownBytes
        tokensUp := refreshedTokens p.bucketNs (hasFlag flags polQosUp) input.rateUpBps p.tokensUp
        tokensDown :=
          refreshedTokens p.bucketNs (hasFlag flags polQosDown) input.rateDownBps p.tokensDown
        bucketNs := p.bucketNs
        replay := p.replay
        rxBytesSynced := p.rxBytesSynced
        txBytesSynced := p.txBytesSynced
        maxSessions := input.maxSessions
        clientKey := input.clientKey }

/-- `aivpn_add_tokens`, `policy.h:435-464`. -/
def addTokens (elapsedNs rate : UInt64) : UInt64 :=
  if rate = 0 ∨ elapsedNs = 0 then 0
  else
    let sec := elapsedNs / 1000000000
    let rem := elapsedNs % 1000000000
    if allOnes64 / rate < sec then allOnes64
    else
      let add := sec * rate
      if rate ≤ allOnes64 / 1000000000 then
        let extra := rem * rate / 1000000000
        if allOnes64 - add < extra then allOnes64 else add + extra
      else
        let hi := rate / 1000000000 * rem
        let lo := rate % 1000000000 * rem / 1000000000
        if allOnes64 - add < hi then allOnes64
        else if allOnes64 - (add + hi) < lo then allOnes64
        else add + hi + lo

/-- The tokens of one direction after some time, at most the capacity, `policy.h:484-491`. -/
def refillTokens (cap rate elapsedNs tokens : UInt64) : UInt64 :=
  if cap = 0 then tokens
  else
    let add := addTokens elapsedNs rate
    if allOnes64 - tokens < add then cap
    else if cap < tokens + add then cap
    else tokens + add

/-- `aivpn_bucket_refill`, `policy.h:466-504`. -/
def bucketRefill (p : Pol) (nowNs : UInt64) : Pol :=
  let capUp := if hasFlag p.flags polQosUp then bucketCapacity p.rateUpBps else 0
  let capDown := if hasFlag p.flags polQosDown then bucketCapacity p.rateDownBps else 0
  if p.bucketNs = 0 then
    { p with
      bucketNs := if nowNs = 0 then 1 else nowNs
      tokensUp := capUp
      tokensDown := capDown }
  else if nowNs < p.bucketNs then p
  else
    { p with
      bucketNs := nowNs
      tokensUp := refillTokens capUp p.rateUpBps (nowNs - p.bucketNs) p.tokensUp
      tokensDown := refillTokens capDown p.rateDownBps (nowNs - p.bucketNs) p.tokensDown }

def spend (limited : Bool) (left nbytes : UInt64) : UInt64 := if limited then left - nbytes else left

/-- `aivpn_pol_charge`, `policy.h:507-527`. -/
def polCharge (p : Pol) (dir : Direction) (nbytes nowNs : UInt64) : Verdict × Pol :=
  let p := bucketRefill p nowNs
  match dir with
  | .uplink =>
    let quota := hasFlag p.flags polQuotaUp
    let rated := hasFlag p.flags polQosUp && decide (0 < p.rateUpBps)
    if quota && decide (p.quotaUp < nbytes) then (.drop, p)
    else if rated && decide (p.tokensUp < nbytes) then (.drop, p)
    else
      (.accept, { p with quotaUp := spend quota p.quotaUp nbytes
                         tokensUp := spend rated p.tokensUp nbytes })
  | .downlink =>
    let quota := hasFlag p.flags polQuotaDown
    let rated := hasFlag p.flags polQosDown && decide (0 < p.rateDownBps)
    if quota && decide (p.quotaDown < nbytes) then (.drop, p)
    else if rated && decide (p.tokensDown < nbytes) then (.drop, p)
    else
      (.accept, { p with quotaDown := spend quota p.quotaDown nbytes
                         tokensDown := spend rated p.tokensDown nbytes })

def MulFits (a b : UInt64) : Prop := a.toNat * b.toNat < 2 ^ 64

def AddFits (a b : UInt64) : Prop := a.toNat + b.toNat < 2 ^ 64

/-- The products and sums of `addTokens`, where the code comes to compute them, do not wrap. -/
def AddTokensFits (elapsedNs rate : UInt64) : Prop :=
  let sec := elapsedNs / 1000000000
  let rem := elapsedNs % 1000000000
  let add := sec * rate
  let extra := rem * rate / 1000000000
  let hi := rate / 1000000000 * rem
  let lo := rate % 1000000000 * rem / 1000000000
  rate ≠ 0 → sec ≤ allOnes64 / rate → MulFits sec rate ∧
    (rate ≤ allOnes64 / 1000000000 →
      MulFits rem rate ∧ (extra ≤ allOnes64 - add → AddFits add extra)) ∧
    (allOnes64 / 1000000000 < rate →
      MulFits (rate / 1000000000) rem ∧ MulFits (rate % 1000000000) rem ∧
      (hi ≤ allOnes64 - add → AddFits add hi ∧
        (lo ≤ allOnes64 - (add + hi) → AddFits (add + hi) lo)))

theorem mul_div_split (a b : Nat) {d : Nat} (hd : 0 < d) :
    a * b / d = a / d * b + a % d * b / d := by
  conv_lhs => rw [← Nat.div_add_mod a d, Nat.add_mul, Nat.mul_assoc, Nat.mul_add_div hd]

theorem toNat_allOnes64 : allOnes64.toNat = 2 ^ 64 - 1 := rfl

theorem MulFits.toNat {a b : UInt64} (h : MulFits a b) : (a * b).toNat = a.toNat * b.toNat := by
  rw [UInt64.toNat_mul, Nat.mod_eq_of_lt h]

theorem AddFits.toNat {a b : UInt64} (h : AddFits a b) : (a + b).toNat = a.toNat + b.toNat := by
  rw [UInt64.toNat_add, Nat.mod_eq_of_lt h]

/-- The guard before a sum. -/
theorem addFits_iff {a b : UInt64} : AddFits a b ↔ b ≤ allOnes64 - a := by
  have ha := a.toNat_lt
  have hle : a ≤ allOnes64 := UInt64.le_iff_toNat_le.mpr (by rw [toNat_allOnes64]; omega)
  rw [UInt64.le_iff_toNat_le, UInt64.toNat_sub_of_le _ _ hle, toNat_allOnes64, AddFits]
  omega

/-- The guard before the product of the whole seconds. -/
theorem mulFits_iff {a b : UInt64} (hb : b ≠ 0) : MulFits a b ↔ a ≤ allOnes64 / b := by
  have hpos : 0 < b.toNat := Nat.pos_of_ne_zero fun h => hb (UInt64.toNat_inj.mp h)
  rw [UInt64.le_iff_toNat_le, UInt64.toNat_div, toNat_allOnes64, Nat.le_div_iff_mul_le hpos,
    MulFits]
  omega

/-- The other products have a factor below a second and one that a second has room for. -/
theorem mulFits_of_le {a b : UInt64} (ha : a.toNat ≤ (2 ^ 64 - 1) / 1000000000)
    (hb : b.toNat < 1000000000) : MulFits a b ∧ MulFits b a := by
  have hle := Nat.mul_le_mul ha hb.le
  unfold MulFits
  rw [Nat.mul_comm b.toNat]
  omega

theorem addTokensFits (elapsedNs rate : UInt64) : AddTokensFits elapsedNs rate := by
  intro hrate hsec
  have hrem : (elapsedNs % 1000000000).toNat < 1000000000 := Nat.mod_lt _ (by decide)
  refine ⟨(mulFits_iff hrate).mpr hsec, fun hslow => ?_, fun _ => ⟨?_, ?_, ?_⟩⟩
  · exact ⟨(mulFits_of_le (UInt64.le_iff_toNat_le.mp hslow) hrem).2, addFits_iff.mpr⟩
  · refine (mulFits_of_le ?_ hrem).1
    exact Nat.div_le_div_right (Nat.le_pred_of_lt rate.toNat_lt)
  · refine (mulFits_of_le ?_ hrem).1
    exact (Nat.mod_lt _ (by decide)).le.trans (by decide)
  · exact fun hhi => ⟨addFits_iff.mpr hhi, addFits_iff.mpr⟩

/-- A sum behind its guard is cut at the largest word. -/
theorem toNat_guarded (a b : UInt64) : (if allOnes64 - a < b then allOnes64 else a + b).toNat =
    min (2 ^ 64 - 1) (a.toNat + b.toNat) := by
  split
  · next h =>
    have hwraps := mt addFits_iff.mp (UInt64.not_le.mpr h)
    unfold AddFits at hwraps
    rw [toNat_allOnes64]
    omega
  · next h =>
    have hfits := addFits_iff.mpr (UInt64.not_lt.mp h)
    rw [hfits.toNat]
    unfold AddFits at hfits
    omega

/-- `aivpn_add_tokens` is exact: it returns the whole tokens of the time that went by, cut at the
largest 64-bit word, and nothing that it computes on the way wraps. -/
theorem addTokens_exact (elapsedNs rate : UInt64) :
    (addTokens elapsedNs rate).toNat =
      min (2 ^ 64 - 1) (elapsedNs.toNat * rate.toNat / 1000000000) ∧
    AddTokensFits elapsedNs rate := by
  have hfits := addTokensFits elapsedNs rate
  refine ⟨?_, hfits⟩
  unfold addTokens
  split
  · next h => rcases h with rfl | rfl <;> simp
  next hnonzero =>
  obtain ⟨hrate, -⟩ := not_or.mp hnonzero
  rw [mul_div_split _ _ (by decide)]
  dsimp only
  split
  · next hsec =>
    have hwraps := mt (mulFits_iff hrate).mp (UInt64.not_le.mpr hsec)
    simp only [MulFits, UInt64.toNat_div, UInt64.reduceToNat] at hwraps
    rw [toNat_allOnes64]
    omega
  next hsec =>
  obtain ⟨hadd, hslow, hfast⟩ := hfits hrate (UInt64.not_lt.mp hsec)
  split
  · next hle =>
    rw [toNat_guarded, hadd.toNat, UInt64.toNat_div, UInt64.toNat_div, (hslow hle).1.toNat]
    rfl
  · next hlt =>
    obtain ⟨hhi, hlo, -⟩ := hfast (UInt64.not_le.mp hlt)
    -- what is left over of the second is split again, now by the rate
    rw [Nat.mul_comm (elapsedNs.toNat % 1000000000), mul_div_split _ _ (by decide)]
    have hcut := toNat_guarded (elapsedNs / 1000000000 * rate)
      (rate / 1000000000 * (elapsedNs % 1000000000))
    simp only [hadd.toNat, hhi.toNat, UInt64.toNat_div, UInt64.toNat_mod,
      UInt64.reduceToNat] at hcut
    split
    · next hfull =>
      rw [if_pos hfull, toNat_allOnes64] at hcut
      rw [toNat_allOnes64]
      omega
    · next hroom =>
      rw [toNat_guarded, (addFits_iff.mpr (UInt64.not_lt.mp hroom)).toNat, hadd.toNat, hhi.toNat,
        UInt64.toNat_div, UInt64.toNat_div, UInt64.toNat_div, hlo.toNat, Nat.add_assoc]
      rfl

/-! ### The quota over the life of a session -/

def Direction.quotaFlag : Direction → UInt32
  | uplink => polQuotaUp
  | downlink => polQuotaDown

def Pol.quota (p : Pol) : Direction → UInt64
  | .uplink => p.quotaUp
  | .downlink => p.quotaDown

def SessionPolicy.KeepsQuota (input : SessionPolicy) (d : Direction) : Prop :=
  hasFlag input.flags d.quotaFlag = true ∧ hasFlag input.flags polQuotaReset = false

/-- A packet is charged, or userspace refreshes the policy. -/
inductive PolEvent where
  | charge (dir : Direction) (nbytes nowNs : UInt64)
  | apply (input : SessionPolicy)

/-- The bytes of a direction that get through. -/
def Pol.accepted (p : Pol) (d : Direction) : List PolEvent → Nat
  | [] => 0
  | .charge dir nbytes nowNs :: events =>
    let charged := polCharge p dir nbytes nowNs
    (if charged.1 = .accept ∧ dir = d then nbytes.toNat else 0) + charged.2.accepted d events
  | .apply input :: events => ((polApply p input).getD p).accepted d events

variable {p : Pol} {d : Direction}

/-- What gets through is paid for. -/
theorem quota_polCharge (hp : hasFlag p.flags d.quotaFlag = true) (dir : Direction)
    (nbytes nowNs : UInt64) :
    let charged := polCharge p dir nbytes nowNs
    charged.2.flags = p.flags ∧
      (if charged.1 = .accept ∧ dir = d then nbytes.toNat else 0) + (charged.2.quota d).toNat =
        (p.quota d).toNat := by
  obtain ⟨ns, up, down, hrefill⟩ : ∃ ns up down, bucketRefill p nowNs =
      { p with bucketNs := ns, tokensUp := up, tokensDown := down } := by
    unfold bucketRefill
    split_ifs <;> exact ⟨_, _, _, rfl⟩
  cases d <;> cases dir <;>
    simp only [Direction.quotaFlag, Pol.quota, polCharge, hrefill, spend] at hp ⊢ <;>
    split_ifs with hquota <;> simp_all
  all_goals
    have hle := UInt64.le_iff_toNat_le.mp hquota
    omega

theorem refreshedQuota_le (left installed : UInt64) :
    refreshedQuota true false left installed ≤ left := by
  unfold refreshedQuota
  split_ifs <;> simp_all

/-- A refresh that keeps the quota does not raise it. -/
theorem quota_polApply {input : SessionPolicy} (hp : hasFlag p.flags d.quotaFlag = true)
    (h : input.KeepsQuota d) : hasFlag ((polApply p input).getD p).flags d.quotaFlag = true ∧
      ((polApply p input).getD p).quota d ≤ p.quota d := by
  obtain ⟨hflag, hreset⟩ := h
  have hmask : (input.flags ||| p.flags &&& polRevoked) &&& ~~~polQuotaReset &&& d.quotaFlag =
      input.flags &&& d.quotaFlag := by
    rw [UInt32.and_assoc, ← UInt32.toNat_inj]
    cases d <;> simp [Nat.and_or_distrib_right, Nat.and_assoc, polRevoked, polQuotaReset,
      Direction.quotaFlag, polQuotaUp, polQuotaDown]
  unfold polApply
  split_ifs
  iterate 3 exact ⟨hp, UInt64.le_refl _⟩
  refine ⟨by rwa [hasFlag, Option.getD_some, hmask], ?_⟩
  cases d <;> simp_all only [Direction.quotaFlag, Option.getD_some, Pol.quota, refreshedQuota_le]

/-- While refreshes keep a direction's quota and do not reset it, no more bytes get through than it
had left. -/
theorem accepted_within_quota (p : Pol) (d : Direction) (events : List PolEvent)
    (hp : hasFlag p.flags d.quotaFlag = true)
    (he : ∀ input, PolEvent.apply input ∈ events → input.KeepsQuota d) :
    p.accepted d events ≤ (p.quota d).toNat := by
  induction events generalizing p with
  | nil => exact Nat.zero_le _
  | cons e events ih =>
    have hrest := fun p hp => ih p hp fun input h => he input (.tail _ h)
    cases e with
    | charge dir nbytes nowNs =>
      obtain ⟨hflags, hpaid⟩ := quota_polCharge hp dir nbytes nowNs
      have hbound := hrest _ (hflags ▸ hp)
      simp only [Pol.accepted]
      omega
    | apply input =>
      obtain ⟨hkept, hle⟩ := quota_polApply hp (he input (.head _))
      exact (hrest _ hkept).trans (UInt64.le_iff_toNat_le.mp hle)

theorem accepted_within_quota_pair :
    { Pol.zero with flags := polQuotaUp, quotaUp := 100 }.accepted .uplink
      [.charge .uplink 60 1, .charge .uplink 60 2] ≤ 100 :=
  accepted_within_quota _ _ _ rfl (by simp)

end AivpnSpec.Kernel
