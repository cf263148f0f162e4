import AivpnSpec.Common.Fragment

/-!
# Fragment headers on the wire

Every packet of `split` and `split_fec_data` is read back by `accept_detailed` as the
chunk it carries: kind, FEC position, id, total length and offset all survive.
-/

namespace AivpnSpec.Common

open AivpnSpec.Base List

/-- A message handed to `split`, or to `split_fec_data` when it has a FEC position. -/
structure Message where
  id : UInt64
  kind : InnerType
  fec : Option FecMetadata
  payload : Bytes
  deriving DecidableEq, Repr

namespace Message

def fragments (m : Message) : Except Error (List Bytes) :=
  match m.fec with
  | none => split m.id m.kind m.payload
  | some metadata => splitFecData m.id m.payload metadata

/-- The sender accepts the message, and it keeps to the receiver's limit for its kind.
`split_fec_data` takes no kind: what it sends is data. -/
structure Honest (m : Message) : Prop where
  sent : ∃ packets, m.fragments = .ok packets
  fecKind : m.fec ≠ none → m.kind = .data
  dataLimit : m.kind = .data → m.payload.length ≤ maxPacketSize
  repairLimit : m.kind = .fecRepair → m.payload.length ≤ maxPacketSize + 3

def fragmentCount (m : Message) : Nat := chunkCount fragmentDataSize m.payload.length

/-- What packet `i` of the message carries. -/
def fragmentAt (m : Message) (i : Nat) : Fragment where
  kind := m.kind
  fec := m.fec
  id := m.id
  total := m.payload.length
  offset := i * fragmentDataSize
  data := chunk fragmentDataSize m.payload i

/-- `bytes` is packet `i` of the message. -/
def IsPacket (m : Message) (i : Nat) (bytes : Bytes) : Prop :=
  ∃ packets, m.fragments = .ok packets ∧ packets[i]? = some bytes

end Message

theorem fragmentDataSize_pos : 0 < fragmentDataSize := by decide

/-- What `split` checks, and the packets it makes. -/
theorem split_eq_ok_iff (id : UInt64) (kind : InnerType) (payload : Bytes)
    (packets : List Bytes) :
    split id kind payload = .ok packets ↔
      (kind = .data ∨ kind = .control ∨ kind = .fecRepair) ∧ payload ≠ [] ∧
      payload.length ≤ maxReassembledSize ∧
      packets = (chunks fragmentDataSize payload).mapIdx fun index chunk =>
        fragmentHeader id kind payload.length (index * fragmentDataSize) ++ chunk := by
  unfold split
  split
  · next h =>
    constructor
    · intro hc
      cases hc
    · rintro ⟨hk, hp, hl, -⟩
      rcases h with h | h | h
      · exact absurd hk h
      · exact absurd h hp
      · omega
  · next h =>
    obtain ⟨hk, hrest⟩ := not_or.mp h
    obtain ⟨hp, hl⟩ := not_or.mp hrest
    have hk := not_not.mp hk
    have hl := not_lt.mp hl
    constructor
    · intro hc
      exact ⟨hk, hp, hl, (Except.ok.inj hc).symm⟩
    · rintro ⟨-, -, -, rfl⟩
      rfl

variable {m : Message} {i : Nat}

/-- A message the sender accepts has at least one packet. -/
theorem Message.Honest.fragmentCount_pos (h : m.Honest) : 0 < m.fragmentCount := by
  obtain ⟨packets, hsent⟩ := h.sent
  have hne : m.payload ≠ [] := by
    intro he
    unfold fragments at hsent
    cases hf : m.fec with
    | none => simp [hf, he, split] at hsent
    | some metadata =>
      simp only [hf, he, splitFecData, split] at hsent
      split at hsent
      · cases hsent
      · simp at hsent
  rw [fragmentCount, lt_chunkCount_iff fragmentDataSize_pos, Nat.zero_mul]
  exact length_pos_iff.mpr hne

private theorem getElem?_splitPackets (id : UInt64) (kind : InnerType) (payload : Bytes) (i : Nat) :
    ((chunks fragmentDataSize payload).mapIdx fun index chunk =>
        fragmentHeader id kind payload.length (index * fragmentDataSize) ++ chunk)[i]? =
      if i < chunkCount fragmentDataSize payload.length then
        some (fragmentHeader id kind payload.length (i * fragmentDataSize) ++
          chunk fragmentDataSize payload i)
      else none := by
  rw [getElem?_mapIdx, chunks, getElem?_map]
  split
  · next h => rw [getElem?_range h]; rfl
  · next h => rw [getElem?_eq_none (by simpa using h)]; rfl

/-- The message's own bounds pass the receiver's size check for every packet index. -/
theorem Message.Honest.not_badBounds (h : m.Honest) (hne : m.payload ≠ [])
    (hlen : m.payload.length ≤ maxReassembledSize) (hi : i < m.fragmentCount) :
    ¬ (m.fragmentAt i).BadBounds := by
  have hoff := (lt_chunkCount_iff fragmentDataSize_pos _ _).mp hi
  have hpos : m.payload.length ≠ 0 := fun hz => hne (length_eq_zero_iff.mp hz)
  have hdata : (chunk fragmentDataSize m.payload i).length =
      min fragmentDataSize (m.payload.length - i * fragmentDataSize) := length_chunk _ _ _
  rintro (hb | ⟨hk, hb⟩ | ⟨hk, hb⟩ | hb | hb | hb | hb)
  · exact hpos hb
  · exact absurd (h.dataLimit hk) (Nat.not_le.mpr hb)
  · exact absurd (h.repairLimit hk) (Nat.not_le.mpr hb)
  · exact absurd hlen (Nat.not_le.mpr hb)
  · exact absurd hoff (Nat.not_lt.mpr hb)
  · exact hb (Nat.mul_mod_left _ _)
  · exact hb hdata

private theorem wire_u32 {x : Nat} (h : x ≤ maxReassembledSize) : x % 256 ^ 4 = x := by
  apply Nat.mod_eq_of_lt
  have : maxReassembledSize < 256 ^ 4 := by decide
  omega

/-- A header with the given kind, flags and extension length, and what follows it. -/
def framed (kind flags ext : UInt8) (id : UInt64) (total offset : Nat) (rest : Bytes) : Bytes :=
  1 :: kind :: flags :: ext ::
    (beBytes 8 id.toNat ++ (beBytes 4 total ++ (beBytes 4 offset ++ rest)))

section Framed

variable (kind flags ext : UInt8) (id : UInt64) (total offset : Nat) (rest : Bytes)

theorem length_framed :
    (framed kind flags ext id total offset rest).length = headerSize + rest.length := by
  simp [framed, headerSize]
  omega

theorem drop_framed : (framed kind flags ext id total offset rest).drop headerSize = rest := by
  simp [framed, headerSize, drop_append, drop_eq_nil_of_le]

/-- The three words of the header. -/
theorem words_framed :
    let bytes := framed kind flags ext id total offset rest
    (bytes.drop 4).take 8 = beBytes 8 id.toNat ∧ (bytes.drop 12).take 4 = beBytes 4 total ∧
      (bytes.drop 16).take 4 = beBytes 4 offset := by
  simp [framed, drop_append, drop_eq_nil_of_le]

/-- The bytes before the words and behind the header. -/
theorem byteAt_framed :
    let bytes := framed kind flags ext id total offset rest
    byteAt bytes 0 = 1 ∧ byteAt bytes 1 = kind ∧ byteAt bytes 2 = flags ∧ byteAt bytes 3 = ext ∧
      ∀ n, byteAt bytes (headerSize + n) = byteAt rest n := by
  refine ⟨rfl, rfl, rfl, rfl, fun n => ?_⟩
  simp only [byteAt, getD_eq_getElem?_getD, ← getElem?_drop, drop_framed]

end Framed

theorem fragmentHeader_append (id : UInt64) (kind : InnerType) (total offset : Nat) (data : Bytes) :
    fragmentHeader id kind total offset ++ data = framed kind.toU8 0 0 id total offset data := by
  simp [fragmentHeader, framed]

/-- A plain packet of `split` is read back as its fragment. -/
theorem parseFragment_plain (h : m.Honest) (hf : m.fec = none)
    (hkind : m.kind = .data ∨ m.kind = .control ∨ m.kind = .fecRepair) (hne : m.payload ≠ [])
    (hlen : m.payload.length ≤ maxReassembledSize) (hi : i < m.fragmentCount) :
    parseFragment (fragmentHeader m.id m.kind m.payload.length (i * fragmentDataSize) ++
      chunk fragmentDataSize m.payload i) = .ok (m.fragmentAt i) := by
  have hoff := (lt_chunkCount_iff fragmentDataSize_pos _ _).mp hi
  have hpos := length_chunk_pos fragmentDataSize_pos m.payload hi
  have hb := h.not_badBounds hne hlen hi
  have hfrag : m.fragmentAt i =
      { kind := m.kind, fec := none, id := m.id, total := m.payload.length,
        offset := i * fragmentDataSize, data := chunk fragmentDataSize m.payload i } := by
    simp [Message.fragmentAt, hf]
  rw [fragmentHeader_append]
  rw [hfrag] at hb ⊢
  obtain ⟨w₁, w₂, w₃⟩ := words_framed m.kind.toU8 0 0 m.id m.payload.length (i * fragmentDataSize)
    (chunk fragmentDataSize m.payload i)
  obtain ⟨b₀, b₁, b₂, b₃, -⟩ := byteAt_framed m.kind.toU8 0 0 m.id m.payload.length
    (i * fragmentDataSize) (chunk fragmentDataSize m.payload i)
  have hguard : ¬headerSize + (chunk fragmentDataSize m.payload i).length ≤ headerSize := by omega
  unfold parseFragment
  simp only [length_framed, drop_framed, hguard, b₀, b₁, b₂, b₃, false_or, ne_eq,
    not_true_eq_false, InnerType.fromU16_toU8, show ((0 : UInt8) &&& ~~~1) = 0 from rfl,
    show ¬ ((0 : UInt8) = 1) by decide, if_false, false_and, Nat.sub_self, UInt8.toNat_zero,
    w₁, w₂, w₃, ofBe_beBytes, uint64_ofNat_mod, wire_u32 hlen, Nat.add_zero,
    wire_u32 (Nat.le_of_lt (Nat.lt_of_lt_of_le hoff hlen))]
  rcases hkind with hk | hk | hk <;> simp only [hk] at hb ⊢ <;> simp only [hb, if_false]

def tagged (metadata : FecMetadata) (data : Bytes) : Bytes :=
  beBytes 2 metadata.groupSeq.toNat ++ (metadata.groupSize :: metadata.index :: data)

/-- The bytes of a tagged packet: flag and extension length set, the position after the
three words. -/
theorem tagFecPacket_header (id : UInt64) (metadata : FecMetadata) (total offset : Nat)
    (data : Bytes) :
    tagFecPacket metadata (fragmentHeader id .data total offset ++ data) =
      framed 1 1 4 id total offset (tagged metadata data) := by
  have hset : ((fragmentHeader id .data total offset ++ data).set 2 1).set 3
      (UInt8.ofNat fecMetaSize) = framed 1 1 4 id total offset data := by
    simp [fragmentHeader, framed, InnerType.toU8, fecMetaSize]
  have htake : (framed 1 1 4 id total offset data).take headerSize =
      framed 1 1 4 id total offset [] := by
    simp [framed, headerSize, take_append, take_of_length_le]
  simp only [tagFecPacket, hset, htake, drop_framed]
  simp [framed, tagged]

private theorem fecMetadata_tagged (id : UInt64) (metadata : FecMetadata) (total offset : Nat)
    (data : Bytes) (hok : ¬ (metadata.groupSize = 0 ∨ metadata.groupSize ≤ metadata.index)) :
    fecMetadata (framed 1 1 4 id total offset (tagged metadata data)) = some metadata := by
  have hlen : ¬headerSize + (tagged metadata data).length < headerSize + fecMetaSize := by
    simp [tagged, fecMetaSize]
    omega
  obtain ⟨b₀, b₁, b₂, b₃, hbehind⟩ := byteAt_framed 1 1 4 id total offset (tagged metadata data)
  have hsize : byteAt (tagged metadata data) 2 = metadata.groupSize := by
    simp [tagged, byteAt, beBytes]
  have hindex : byteAt (tagged metadata data) 3 = metadata.index := by
    simp [tagged, byteAt, beBytes]
  have hseq : (tagged metadata data).take 2 = beBytes 2 metadata.groupSeq.toNat :=
    take_left' (by simp)
  unfold fecMetadata
  simp only [length_framed, hlen, b₀, b₁, b₂, b₃, hbehind, drop_framed, hsize, hindex, hseq, false_or,
    ne_eq, not_true_eq_false, InnerType.toU8, show UInt8.ofNat fecMetaSize = 4 from rfl, if_false,
    ofBe_beBytes, uint16_ofNat_mod]
  rw [if_neg hok]

/-- A tagged packet of `split_fec_data` is read back as its fragment. -/
theorem parseFragment_tagged (h : m.Honest) (metadata : FecMetadata) (hf : m.fec = some metadata)
    (hok : ¬ (metadata.groupSize = 0 ∨ metadata.groupSize ≤ metadata.index))
    (hne : m.payload ≠ []) (hlen : m.payload.length ≤ maxReassembledSize)
    (hi : i < m.fragmentCount) :
    parseFragment (tagFecPacket metadata
      (fragmentHeader m.id .data m.payload.length (i * fragmentDataSize) ++
        chunk fragmentDataSize m.payload i)) = .ok (m.fragmentAt i) := by
  have hkind : m.kind = .data := h.fecKind (by simp [hf])
  have hoff := (lt_chunkCount_iff fragmentDataSize_pos _ _).mp hi
  have hpos := length_chunk_pos fragmentDataSize_pos m.payload hi
  have hb := h.not_badBounds hne hlen hi
  have hfrag : m.fragmentAt i =
      { kind := .data, fec := some metadata, id := m.id, total := m.payload.length,
        offset := i * fragmentDataSize, data := chunk fragmentDataSize m.payload i } := by
    simp [Message.fragmentAt, hf, hkind]
  rw [hfrag] at hb
  rw [tagFecPacket_header, hfrag]
  generalize chunk fragmentDataSize m.payload i = data at hpos hb ⊢
  generalize hrest : tagged metadata data = rest
  have hmeta := fecMetadata_tagged m.id metadata m.payload.length (i * fragmentDataSize) data hok
  obtain ⟨w₁, w₂, w₃⟩ := words_framed 1 1 4 m.id m.payload.length (i * fragmentDataSize) rest
  obtain ⟨b₀, b₁, b₂, b₃, -⟩ := byteAt_framed 1 1 4 m.id m.payload.length
    (i * fragmentDataSize) rest
  have hlength : rest.length = fecMetaSize + data.length := by
    simp [← hrest, tagged, fecMetaSize]
    omega
  have hdata : rest.drop fecMetaSize = data := by
    simp [← hrest, tagged, fecMetaSize, beBytes]
  have hshort : ¬headerSize + rest.length ≤ headerSize := by omega
  have hlong : ¬headerSize + rest.length ≤ headerSize + fecMetaSize := by omega
  rw [hrest] at hmeta
  unfold parseFragment
  simp only [length_framed, ← drop_drop, drop_framed, hshort, hlong, hmeta, hdata, b₀, b₁, b₂, b₃, false_or,
    ne_eq, not_true_eq_false, show InnerType.fromU16 (UInt8.toNat 1) = some .data from rfl,
    show ((1 : UInt8) &&& ~~~1) = 0 from rfl, if_false, if_true, and_false,
    Nat.add_sub_cancel_left, show (UInt8.toNat 4) = fecMetaSize from rfl, w₁, w₂, w₃,
    ofBe_beBytes, uint64_ofNat_mod, wire_u32 hlen, reduceCtorEq,
    wire_u32 (Nat.le_of_lt (Nat.lt_of_lt_of_le hoff hlen)), hb]

/-- Every packet the sender makes is read back as the chunk at its index. -/
theorem Message.Honest.parseFragment_packet (h : m.Honest) {bytes : Bytes}
    (hp : m.IsPacket i bytes) :
    i < m.fragmentCount ∧ parseFragment bytes = .ok (m.fragmentAt i) := by
  obtain ⟨packets, hsent, hget⟩ := hp
  unfold Message.fragments at hsent
  cases hf : m.fec with
  | none =>
    rw [hf] at hsent
    obtain ⟨hk, hne, hlen, rfl⟩ := (split_eq_ok_iff _ _ _ _).mp hsent
    rw [getElem?_splitPackets] at hget
    split at hget
    · next hi =>
      cases hget
      exact ⟨hi, parseFragment_plain h hf hk hne hlen hi⟩
    · cases hget
  | some metadata =>
    rw [hf] at hsent
    simp only [splitFecData] at hsent
    split at hsent
    · cases hsent
    next hok =>
    split at hsent
    · cases hsent
    cases hs : split m.id .data m.payload with
    | error e => rw [hs] at hsent; cases hsent
    | ok plain =>
      rw [hs] at hsent
      cases hsent
      obtain ⟨-, hne, hlen, rfl⟩ := (split_eq_ok_iff _ _ _ _).mp hs
      rw [getElem?_map, getElem?_splitPackets] at hget
      split at hget
      · next hi =>
        cases hget
        exact ⟨hi, parseFragment_tagged h metadata hf hok hne hlen hi⟩
      · cases hget

end AivpnSpec.Common
