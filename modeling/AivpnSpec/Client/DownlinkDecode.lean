import AivpnSpec.Base.Runs
import AivpnSpec.Client.RecvWindow
import AivpnSpec.Common.Crypto

/-!
# Decoding packets from the server

`crates/aivpn-common/src/client_wire.rs:629-871`. A packet is tried at the tag offsets of the known
masks, first around the newest counter and then, rarely, in a wide range ahead of it. At each offset
the tag gives the counter, and the ciphertext is looked for behind headers of known lengths, then of
every length up to a bound. The window is marked when a packet authenticates and frames cleanly, and
only then, so that no counter is delivered twice.
-/

namespace AivpnSpec.Client

open AivpnSpec.Base AivpnSpec.Common

/-- What decoding takes from the crypto library. -/
structure WireEnv where
  /-- `generate_resonance_tag` for a tag secret, a counter and a time window -/
  resonanceTag : Bytes32 → UInt64 → UInt64 → Tag
  /-- `decrypt_session_payload` of a packet from the server, for a counter, a tag and an envelope -/
  decryptSessionPayload : SessionKeys → UInt64 → Tag → Bytes → Option Bytes

/-- `DecodedPacket`, `client_wire.rs:22-26`. -/
structure DecodedPacket where
  counter : UInt64
  header : InnerHeader
  payload : Bytes
  deriving DecidableEq, Repr

/-- `DEFAULT_WINDOW_MS`, `crypto.rs:42`. -/
def defaultWindowMs : UInt64 := 10000

/-- `compute_time_window`, `crypto.rs:758-760`. -/
def computeTimeWindow (timestampMs windowMs : UInt64) : UInt64 := timestampMs / windowMs

/-- `MAX_DOWNLINK_MDH_SCAN`, `client_wire.rs:666`. -/
def maxDownlinkMdhScan : Nat := 64

/-- `parse_downlink_inner`, `client_wire.rs:632-659`. -/
def parseDownlinkInner (counter : UInt64) (padded : Bytes) : Except Error DecodedPacket :=
  if padded.length < 2 then .error (.invalidPacket "Decrypted payload too short")
  else
    let padLen := (u16At padded 0).toNat
    if padded.length < padLen ∨ padded.length - padLen < 2 then
      .error (.invalidPacket "Invalid padding length")
    else
      let inner := slice padded 2 (padded.length - padLen - 2)
      if inner.length < 4 then .error (.invalidPacket "Inner payload too short")
      else
        match InnerHeader.decode inner with
        | .error e => .error e
        | .ok header => .ok ⟨counter, header, inner.drop 4⟩

/-- The answer of a decoder, and the window and the header lengths that it leaves. -/
abbrev Decoding := Except Error DecodedPacket × RecvWindow × List Nat

/-- The lookup of a counter in the given bounds, or else in those of the search. -/
def RecvWindow.findCounterFor (w : RecvWindow) (resonanceTag : UInt64 → UInt64 → Tag)
    (baseTw : UInt64) (tag : Tag) : Option (UInt64 × UInt64) → Option UInt64
  | none => w.findCounter resonanceTag baseTw tag
  | some bounds => w.findCounterInBounds resonanceTag baseTw tag bounds

section Layout

variable (env : WireEnv) (keys : SessionKeys) (packet : Bytes)

/-- Where one layout has the ciphertext: behind a prefix, not before the end of the tag. -/
structure TagPlace where
  prefixLen : Nat
  tagStart : Nat

def tagPlace (tagOffset : UInt16) : TagPlace :=
  if tagOffset = defaultTagOffset then ⟨tagSize, 0⟩ else ⟨0, tagOffset.toNat⟩

/-- The packet decrypted behind a header of the given length, if it can be that long. -/
def openBehind (place : TagPlace) (tag : Tag) (counter : UInt64) (mdhLen : Nat) :
    Option (Option Bytes) :=
  let ctStart := place.prefixLen + mdhLen
  if ctStart < place.tagStart + tagSize ∨ packet.length < ctStart + 16 then none
  else some (env.decryptSessionPayload keys counter tag (packet.drop ctStart))

/-- The loop over the known lengths, `client_wire.rs:797-822`: the first that decrypts decides.
The flag says whether a length was tried. -/
def tryKnown (w : RecvWindow) (place : TagPlace) (tag : Tag) (counter : UInt64) :
    List Nat → Bool → Option (Except Error DecodedPacket × RecvWindow) × Bool
  | [], tried => (none, tried)
  | mdhLen :: rest, tried =>
    match openBehind env keys packet place tag counter mdhLen with
    | none => tryKnown w place tag counter rest tried
    | some none => tryKnown w place tag counter rest true
    | some (some padded) =>
      match parseDownlinkInner counter padded with
      | .error e => (some (.error e, w), true)
      | .ok decoded => (some (.ok decoded, w.mark counter), true)

/-- The loop over all lengths, `client_wire.rs:837-862`: a length that decrypts and parses is
learned. -/
def scanLengths (w : RecvWindow) (known : List Nat) (place : TagPlace) (tag : Tag)
    (counter : UInt64) : List Nat → Option (DecodedPacket × RecvWindow × List Nat)
  | [] => none
  | mdhLen :: rest =>
    if mdhLen ∈ known then scanLengths w known place tag counter rest
    else
      match openBehind env keys packet place tag counter mdhLen with
      | some (some padded) =>
        match parseDownlinkInner counter padded with
        | .error _ => scanLengths w known place tag counter rest
        | .ok decoded => some (decoded, w.mark counter, mdhLen :: known)
      | _ => scanLengths w known place tag counter rest

/-- `decode_downlink_one_layout`, `client_wire.rs:770-871`. -/
def decodeDownlinkOneLayout (w : RecvWindow) (candidateMdhLens : List Nat) (tagOffset : UInt16)
    (recoveryBounds : Option (UInt64 × UInt64)) (timestampMs : UInt64) : Decoding :=
  let place := tagPlace tagOffset
  if packet.length < place.tagStart + tagSize + 16 then
    (.error (.invalidPacket "Packet too short"), w, candidateMdhLens)
  else
    let tag : Tag := arrayAt 8 packet place.tagStart
    let baseTw := computeTimeWindow timestampMs defaultWindowMs
    match w.findCounterFor (env.resonanceTag keys.tagSecret) baseTw tag recoveryBounds with
    | none => (.error (.invalidPacket "Invalid resonance tag"), w, candidateMdhLens)
    | some counter =>
      match tryKnown env keys packet w place tag counter candidateMdhLens false with
      | (some (answer, w'), _) => (answer, w', candidateMdhLens)
      | (none, triedAny) =>
        match scanLengths env keys packet w candidateMdhLens place tag counter
            (List.range (maxDownlinkMdhScan + 1)) with
        | some (decoded, w', lens) => (.ok decoded, w', lens)
        | none =>
          (.error (.invalidPacket
            (if triedAny then
              "resonance tag matched but no MDH length (learned or scanned) authenticated"
            else "Packet too short")), w, candidateMdhLens)

/-- One pass over the offsets: the first that decodes is preferred from then on, and without one the
last failure stands. -/
def tryOffsets (recoveryBounds : Option (UInt64 × UInt64)) (timestampMs : UInt16 → UInt64) :
    List UInt16 → Error → RecvWindow → List Nat → Decoding
  | [], error, w, lens => (.error error, w, lens)
  | offset :: rest, _, w, lens =>
    match decodeDownlinkOneLayout env keys packet w lens offset recoveryBounds
        (timestampMs offset) with
    | (.ok decoded, w', lens') =>
      (.ok decoded, { w' with preferredTagOffset := some offset }, lens')
    | (.error failure, w', lens') =>
      tryOffsets recoveryBounds timestampMs rest failure w' lens'

end Layout

/-- The offsets to try: the preferred one if it is still allowed, the given ones, and the prefix. -/
def layoutOffsets (w : RecvWindow) (tagOffsets : List UInt16) : List UInt16 :=
  let preferred := w.preferredTagOffset.toList.filter fun offset =>
    offset == defaultTagOffset || tagOffsets.contains offset
  let listed := tagOffsets.foldl
    (fun offsets offset => if offset ∈ offsets then offsets else offsets ++ [offset]) preferred
  if defaultTagOffset ∈ listed then listed else listed ++ [defaultTagOffset]

/-- A call of the decoder with what it reads from the clock: the time at each lookup of a counter,
which happens once per offset in the first pass and once in recovery, and the instant at which
recovery is asked for. The header lengths are those of the caller, who also adds to them. -/
structure DownlinkCall where
  packet : Bytes
  candidateMdhLens : List Nat
  tagOffsets : List UInt16
  timestampMs : UInt16 → UInt64
  recoveryTimestampMs : UInt16 → UInt64
  now : Nat

/-- `decode_downlink_with_offsets`, `client_wire.rs:702-768`. -/
def decodeDownlinkWithOffsets (env : WireEnv) (keys : SessionKeys) (w : RecvWindow)
    (call : DownlinkCall) : Decoding :=
  let offsets := layoutOffsets w call.tagOffsets
  match tryOffsets env keys call.packet none call.timestampMs offsets
      (.invalidPacket "Invalid resonance tag") w call.candidateMdhLens with
  | (.ok decoded, w', lens) => (.ok decoded, w', lens)
  | (.error error, w', lens) =>
    match w'.recoveryBounds offsets.length with
    | none => (.error error, w', lens)
    | some bounds =>
      match w'.reserveCounterRecovery call.now with
      | (false, w'') => (.error error, w'', lens)
      | (true, w'') =>
        tryOffsets env keys call.packet (some bounds) call.recoveryTimestampMs offsets error w''
          lens

/-- The same received counters and search hint. -/
structure RecvWindow.SameReplay (w w' : RecvWindow) : Prop where
  highest : w'.highest = w.highest
  bitmap : w'.bitmap = w.bitmap
  hint : w'.authenticatedCounterHint = w.authenticatedCounterHint

namespace RecvWindow

variable {w w' w'' : RecvWindow}

theorem SameReplay.refl (w : RecvWindow) : w.SameReplay w := ⟨rfl, rfl, rfl⟩

theorem SameReplay.isNew (h : w.SameReplay w') (counter : UInt64) :
    w'.isNew counter = w.isNew counter := by
  unfold RecvWindow.isNew
  rw [h.highest, h.bitmap]

theorem SameReplay.trans (h : w.SameReplay w') (h' : w'.SameReplay w'') : w.SameReplay w'' :=
  ⟨h'.highest.trans h.highest, h'.bitmap.trans h.bitmap, h'.hint.trans h.hint⟩

theorem SameReplay.mark (h : w.SameReplay w') (counter : UInt64) :
    (w.mark counter).SameReplay (w'.mark counter) := by
  unfold RecvWindow.mark
  rw [h.highest, h.bitmap]
  split <;> exact ⟨rfl, rfl, rfl⟩

/-- What an answer says about the window: a packet had a new counter, which is marked; an error
leaves what was received and the hint as they were. -/
def Settles (w : RecvWindow) : Except Error DecodedPacket → RecvWindow → Prop
  | .ok decoded, w' =>
    w.isNew decoded.counter = true ∧ (w.mark decoded.counter).SameReplay w'
  | .error _, w' => w.SameReplay w'

variable {answer : Except Error DecodedPacket} {counter : UInt64}

theorem Settles.of_same (h : w.SameReplay w') (h' : w'.Settles answer w'') :
    w.Settles answer w'' := by
  cases answer with
  | error e => exact h.trans h'
  | ok decoded =>
    obtain ⟨hnew, hmark⟩ := h'
    rw [h.isNew] at hnew
    exact ⟨hnew, (h.mark decoded.counter).trans hmark⟩

theorem Settles.then_same (h : w.Settles answer w') (h' : w'.SameReplay w'') :
    w.Settles answer w'' := by
  cases answer with
  | error e => exact SameReplay.trans h h'
  | ok decoded => exact ⟨h.1, h.2.trans h'⟩

/-- A counter that is not new does not become so. -/
theorem Settles.not_new (h : w.Settles answer w') (hold : w.isNew counter = false) :
    w'.isNew counter = false := by
  cases answer with
  | error e =>
    rw [SameReplay.isNew h]
    exact hold
  | ok decoded =>
    rw [h.2.isNew]
    by_contra hnew
    rw [(isNew_of_mark (Bool.of_not_eq_false hnew)).1] at hold
    contradiction

/-- The counter of a decoded packet is not new any more. -/
theorem Settles.delivered {decoded : DecodedPacket} (h : w.Settles (.ok decoded) w') :
    w'.isNew decoded.counter = false := by
  rw [h.2.isNew]
  by_contra hnew
  exact (isNew_of_mark (Bool.of_not_eq_false hnew)).2 rfl

theorem isNew_of_findCounterFor {resonanceTag : UInt64 → UInt64 → Tag} {baseTw : UInt64}
    {tag : Tag} {bounds : Option (UInt64 × UInt64)}
    (h : w.findCounterFor resonanceTag baseTw tag bounds = some counter) :
    w.isNew counter = true := by
  cases bounds with
  | none | some bounds => exact isNew_of_findCounterInBounds h

theorem sameReplay_reserveCounterRecovery (w : RecvWindow) (now : Nat) :
    w.SameReplay (w.reserveCounterRecovery now).2 := by
  unfold reserveCounterRecovery
  split
  · exact .refl w
  · exact ⟨rfl, rfl, rfl⟩

end RecvWindow

variable {padded : Bytes}

/-- A parsed packet has the counter that was found. -/
theorem counter_of_parseDownlinkInner {counter : UInt64} {decoded : DecodedPacket}
    (h : parseDownlinkInner counter padded = .ok decoded) : decoded.counter = counter := by
  unfold parseDownlinkInner at h
  split at h
  · cases h
  dsimp only at h
  split at h
  · cases h
  split at h
  · cases h
  split at h
  · cases h
  · cases h
    rfl

section Layout

variable {env : WireEnv} {keys : SessionKeys} {packet : Bytes} {w w' : RecvWindow}
  {counter : UInt64} {decoded : DecodedPacket}

/-- A new counter that is marked for a packet parsed with it. -/
theorem settles_of_parse (hnew : w.isNew counter = true)
    (h : parseDownlinkInner counter padded = .ok decoded) :
    w.Settles (.ok decoded) (w.mark counter) := by
  have hcounter := counter_of_parseDownlinkInner h
  subst hcounter
  exact ⟨hnew, .refl _⟩

variable {answer : Except Error DecodedPacket} {lens lens' : List Nat}
  {bounds : Option (UInt64 × UInt64)} {place : TagPlace} {tag : Tag}

theorem settles_tryKnown (hnew : w.isNew counter = true) {tried : Bool}
    (h : (tryKnown env keys packet w place tag counter lens tried).1 = some (answer, w')) :
    w.Settles answer w' := by
  induction lens generalizing tried with
  | nil => cases h
  | cons mdhLen rest ih =>
    unfold tryKnown at h
    split at h
    · exact ih h
    · exact ih h
    · split at h
      · cases h
        exact .refl w
      · next hparse =>
        cases h
        exact settles_of_parse hnew hparse

theorem settles_scanLengths {known : List Nat} (hnew : w.isNew counter = true) {scan : List Nat}
    (h : scanLengths env keys packet w known place tag counter scan = some (decoded, w', lens)) :
    w.Settles (.ok decoded) w' := by
  induction scan with
  | nil => cases h
  | cons mdhLen rest ih =>
    unfold scanLengths at h
    split at h
    · exact ih h
    split at h
    · split at h
      · exact ih h
      · next hparse =>
        cases h
        exact settles_of_parse hnew hparse
    · exact ih h

/-- One layout. -/
theorem settles_oneLayout {tagOffset : UInt16} {timestampMs : UInt64}
    (h : decodeDownlinkOneLayout env keys packet w lens tagOffset bounds timestampMs =
      (answer, w', lens')) : w.Settles answer w' := by
  unfold decodeDownlinkOneLayout at h
  dsimp only at h
  split at h
  · cases h
    exact .refl w
  split at h
  · cases h
    exact .refl w
  next counter hfind =>
  have hnew := RecvWindow.isNew_of_findCounterFor hfind
  split at h
  · next hknown =>
    cases h
    exact settles_tryKnown hnew (congrArg Prod.fst hknown)
  split at h
  · next hscan =>
    cases h
    exact settles_scanLengths hnew hscan
  · cases h
    exact .refl w

/-- One pass over the offsets: a layout that fails leaves the window to the next one. -/
theorem settles_tryOffsets {timestampMs : UInt16 → UInt64} {offsets : List UInt16} {error : Error}
    (h : tryOffsets env keys packet bounds timestampMs offsets error w lens = (answer, w', lens')) :
    w.Settles answer w' := by
  induction offsets generalizing error w lens with
  | nil =>
    cases h
    exact .refl _
  | cons offset rest ih =>
    unfold tryOffsets at h
    split at h
    · next decoded marked _ hlayout =>
      cases h
      exact (settles_oneLayout hlayout).then_same ⟨rfl, rfl, rfl⟩
    · next hlayout => exact .of_same (settles_oneLayout hlayout) (ih h)

end Layout

/-- One call. -/
theorem settles_decodeDownlinkWithOffsets (env : WireEnv) (keys : SessionKeys) (w : RecvWindow)
    (call : DownlinkCall) :
    w.Settles (decodeDownlinkWithOffsets env keys w call).1
      (decodeDownlinkWithOffsets env keys w call).2.1 := by
  unfold decodeDownlinkWithOffsets
  dsimp only
  split
  · next hfirst => exact settles_tryOffsets hfirst
  next error w' lens hfirst =>
  have hsame : w.SameReplay w' := settles_tryOffsets hfirst
  split
  · exact hsame
  split
  · next hreserve =>
    have hquota := w'.sameReplay_reserveCounterRecovery call.now
    rw [hreserve] at hquota
    exact hsame.trans hquota
  · next hreserve =>
    have hquota := w'.sameReplay_reserveCounterRecovery call.now
    rw [hreserve] at hquota
    exact .of_same (hsame.trans hquota) (settles_tryOffsets rfl)

section Run

variable (env : WireEnv) (keys : SessionKeys) (start : RecvWindow) (calls : List DownlinkCall)

/-- The window after the first `k` calls. -/
def windowAfter (k : Nat) : RecvWindow :=
  stateAt (fun w call => (decodeDownlinkWithOffsets env keys w call).2.1) start calls k

/-- The answer to call `k`. -/
def answerAt (k : Nat) : Option (Except Error DecodedPacket) :=
  calls[k]?.map fun call =>
    (decodeDownlinkWithOffsets env keys (windowAfter env keys start calls k) call).1

variable {env keys start calls}

theorem settles_answerAt {k : Nat} {answer : Except Error DecodedPacket}
    (h : answerAt env keys start calls k = some answer) :
    (windowAfter env keys start calls k).Settles answer
      (windowAfter env keys start calls (k + 1)) := by
  obtain ⟨call, hcall, rfl⟩ := Option.map_eq_some_iff.mp h
  have hstep : windowAfter env keys start calls (k + 1) =
      (decodeDownlinkWithOffsets env keys (windowAfter env keys start calls k) call).2.1 :=
    stateAt_succ hcall
  rw [hstep]
  exact settles_decodeDownlinkWithOffsets env keys _ call

/-- A counter that was delivered is not new at any later call. -/
theorem not_new_after {i j : Nat} {decoded : DecodedPacket}
    (h : answerAt env keys start calls i = some (.ok decoded)) (hij : i < j) :
    (windowAfter env keys start calls j).isNew decoded.counter = false := by
  have hkeep : ∀ k call, i + 1 ≤ k → k < j → calls[k]? = some call →
      (windowAfter env keys start calls k).isNew decoded.counter = false →
      (decodeDownlinkWithOffsets env keys (windowAfter env keys start calls k)
        call).2.1.isNew decoded.counter = false :=
    fun k call _ _ _ hold => (settles_decodeDownlinkWithOffsets env keys _ call).not_new hold
  exact stateAt_keeps (P := fun w : RecvWindow => w.isNew decoded.counter = false) hij
    (settles_answerAt h).delivered hkeep

end Run

/-- In every run of calls with one window and one key set, whatever the packets, no counter is
delivered twice, and a call that fails leaves the newest counter, the bitmap and the search hint of
the window as they were. -/
theorem downlink_never_replayed (env : WireEnv) (keys : SessionKeys) (start : RecvWindow)
    (calls : List DownlinkCall) :
    (∀ i j p q, answerAt env keys start calls i = some (.ok p) →
      answerAt env keys start calls j = some (.ok q) → p.counter = q.counter → i = j) ∧
    (∀ k e, answerAt env keys start calls k = some (.error e) →
      (windowAfter env keys start calls k).SameReplay
        (windowAfter env keys start calls (k + 1))) := by
  constructor
  · intro i j p q hi hj hcounter
    by_contra hne
    rcases Nat.lt_or_gt_of_ne hne with hlt | hlt
    · have hold := not_new_after hi hlt
      rw [hcounter, (settles_answerAt hj).1] at hold
      contradiction
    · have hold := not_new_after hj hlt
      rw [← hcounter, (settles_answerAt hi).1] at hold
      contradiction
  · intro k e he
    exact settles_answerAt he

/-- Tags that spell the counter, and envelopes that open behind sixteen zeros. -/
def sampleWire : WireEnv where
  resonanceTag := fun _ counter _ => arrayAt 8 (u64Bytes counter) 0
  decryptSessionPayload := fun _ _ _ envelope =>
    if envelope.take 16 = List.replicate 16 0 then some (envelope.drop 16) else none

def sampleCall : DownlinkCall where
  packet := u64Bytes 3 ++ [7, 7] ++ List.replicate 16 0 ++ [0, 0, 1, 0, 0, 0, 42]
  candidateMdhLens := [2]
  tagOffsets := []
  timestampMs := fun _ => 0
  recoveryTimestampMs := fun _ => 0
  now := 0

theorem downlink_never_replayed_sampleCall :
    answerAt sampleWire (sampleKeys 1) .new [sampleCall, sampleCall] 0 =
      some (.ok ⟨3, ⟨.data, 0⟩, [42]⟩) ∧
    ∀ p, answerAt sampleWire (sampleKeys 1) .new [sampleCall, sampleCall] 1 = some (.ok p) →
      p.counter ≠ 3 := by
  have hfirst : answerAt sampleWire (sampleKeys 1) .new [sampleCall, sampleCall] 0 =
      some (.ok ⟨3, ⟨.data, 0⟩, [42]⟩) := by decide +kernel
  refine ⟨hfirst, ?_⟩
  intro p hp hcounter
  have honce := (downlink_never_replayed sampleWire (sampleKeys 1) .new
    [sampleCall, sampleCall]).1 0 1 _ p hfirst hp hcounter.symm
  contradiction

end AivpnSpec.Client
