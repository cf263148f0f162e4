import AivpnSpec.Server.ClientDb.Digests
import AivpnSpec.Server.ClientDb.QosText

/-!
# Digests agree exactly where the records do

The canonical bytes of a record determine it and end by themselves, so the hash over all records
and the hashes over the buckets carry the same information: the set of canonical records. BLAKE3 is
a parameter that is assumed to tell apart the strings that two databases hash, even by its first
eight bytes, and to map none of them to zeros.
-/

namespace AivpnSpec.Server

open AivpnSpec.Base AivpnSpec.Common
open List hiding Vector

def poolHash (blake3 : Bytes → Bytes32) : PoolHash where
  blake3 := blake3
  qosJson := qosToVec

/-- Texts whose lengths fit 32 bits, and times in the range of `DateTime<Utc>`, whose milliseconds
fit an `i64` and are never `i64::MIN`. -/
structure Canonical.Fits (c : Canonical) : Prop where
  id : (utf8 c.id).length < 2 ^ 32
  name : (utf8 c.name).length < 2 ^ 32
  exitNode : ∀ addr, c.exitNode = some addr → (utf8 addr).length < 2 ^ 32
  updatedAt : ∀ t, c.updatedAtMillis = some t → -2 ^ 63 < t ∧ t < 2 ^ 63
  expiresAt : ∀ t, c.expiresAtMillis = some t → -2 ^ 63 < t ∧ t < 2 ^ 63

theorem selfDelimiting_text :
    SelfDelimiting (fun s : String => (utf8 s).length < 2 ^ 32) (fun s => lengthPrefixed (utf8 s)) := by
  intro s t rest rest' hs ht h
  obtain ⟨hst, hrest⟩ := selfDelimiting_withLength 4 _ _ rest rest' hs ht h
  exact ⟨utf8_injective hst, hrest⟩

theorem selfDelimiting_qos :
    SelfDelimiting (fun _ : Option ClientQos => True) (fun qos => lengthPrefixed (qosToVec qos)) := by
  intro q q' rest rest' _ _ h
  obtain ⟨hq, hrest⟩ := selfDelimiting_withLength 4 _ _ rest rest' (length_qosToVec q)
    (length_qosToVec q') h
  exact ⟨qosToVec_injective hq, hrest⟩

theorem selfDelimiting_vector (n : Nat) :
    SelfDelimiting (fun _ : Vector UInt8 n => True) Vector.toList :=
  selfDelimiting_of_length (fun v _ => v.length_toList) fun _ _ _ _ h => Vector.toList_inj.mp h

theorem i64Bytes_injective {s t : Int} (hs : -2 ^ 63 ≤ s ∧ s < 2 ^ 63)
    (ht : -2 ^ 63 ≤ t ∧ t < 2 ^ 63) (h : i64Bytes s = i64Bytes t) : s = t := by
  have hvalue := congrArg ofLe h
  rw [i64Bytes, i64Bytes, ofLe_leBytes, ofLe_leBytes] at hvalue
  omega

theorem selfDelimiting_millis :
    SelfDelimiting (fun time : Option Int => ∀ t, time = some t → -2 ^ 63 < t ∧ t < 2 ^ 63)
      encodeOptMillis := by
  refine selfDelimiting_of_length (n := 8) (fun time _ => ?_) fun time time' htime htime' h => ?_
  · cases time with
    | none | some t => exact length_leBytes 8 _
  · cases time with
    | none =>
      cases time' with
      | none => rfl
      | some t' =>
        have ht' := htime' t' rfl
        have := i64Bytes_injective (by omega) (by omega) h
        omega
    | some t =>
      have ht := htime t rfl
      cases time' with
      | none =>
        have := i64Bytes_injective (by omega) (by omega) h
        omega
      | some t' =>
        have ht' := htime' t' rfl
        rw [i64Bytes_injective (by omega) (by omega) h]

theorem boolByte_injective {a b : Bool} (h : boolByte a = boolByte b) : a = b := by
  cases a <;> cases b <;> first | rfl | cases h

theorem rank_injective {a b : ClientRole} (h : a.rank = b.rank) : a = b := by
  cases a <;> cases b <;> first | rfl | cases h

/-- The canonical bytes determine the record and end by themselves. -/
theorem selfDelimiting_record (blake3 : Bytes → Bytes32) :
    SelfDelimiting Canonical.Fits (writeRecordCanonicalFields (poolHash blake3)) := by
  intro a b rest rest' ha hb h
  have hform : ∀ c : Canonical, writeRecordCanonicalFields (poolHash blake3) c =
      lengthPrefixed (utf8 c.id) ++ c.psk.toList ++ lengthPrefixed (utf8 c.name) ++
        [boolByte c.enabled, boolByte c.deleted, boolByte c.oneTime] ++
        encodeOptMillis c.updatedAtMillis ++ encodeOptMillis c.expiresAtMillis ++
        encodeOption 1 0 (List.replicate 32 0) Vector.toList c.devicePubkey ++
        lengthPrefixed (qosToVec c.qos) ++ [c.role.rank] ++
        encodeOption 1 0 [] (fun addr => lengthPrefixed (utf8 addr)) c.exitNode := by
    intro c
    unfold writeRecordCanonicalFields
    cases c.devicePubkey <;> cases c.exitNode <;> rfl
  rw [hform, hform] at h
  simp only [append_assoc] at h
  obtain ⟨hid, h⟩ := selfDelimiting_text _ _ _ _ ha.id hb.id h
  obtain ⟨hpsk, h⟩ := selfDelimiting_vector 32 _ _ _ _ trivial trivial h
  obtain ⟨hname, h⟩ := selfDelimiting_text _ _ _ _ ha.name hb.name h
  obtain ⟨hflags, h⟩ := append_inj h rfl
  obtain ⟨hupdated, h⟩ := selfDelimiting_millis _ _ _ _ ha.updatedAt hb.updatedAt h
  obtain ⟨hexpires, h⟩ := selfDelimiting_millis _ _ _ _ ha.expiresAt hb.expiresAt h
  obtain ⟨hkey, h⟩ := selfDelimiting_option (by decide) _ (selfDelimiting_vector 32) _ _ _ _
    (fun _ _ => trivial) (fun _ _ => trivial) h
  obtain ⟨hqos, h⟩ := selfDelimiting_qos _ _ _ _ trivial trivial h
  obtain ⟨hrole, h⟩ := append_inj h rfl
  obtain ⟨hexit, hrest⟩ := selfDelimiting_option (by decide) _ selfDelimiting_text _ _ _ _
    ha.exitNode hb.exitNode h
  simp only [List.cons.injEq, and_true] at hflags hrole
  refine ⟨?_, hrest⟩
  cases a
  cases b
  simp only [Canonical.mk.injEq]
  exact ⟨hid, hpsk, hname, boolByte_injective hflags.1, boolByte_injective hflags.2.1,
    boolByte_injective hflags.2.2, hupdated, hexpires, hkey, hqos, rank_injective hrole, hexit⟩

def stateInput (hash : PoolHash) (clients : List ClientConfig) : Bytes :=
  leBytes 8 (sortedContents clients).length ++
    (sortedContents clients).flatMap (writeRecordCanonicalFields hash)

/-- The strings that the digests of a database are hashes of: the whole, each record, and each
bucket that is not empty. -/
def hashedStrings (hash : PoolHash) (clients : List ClientConfig) : List Bytes :=
  stateInput hash clients ::
    (clients.map fun c => writeRecordCanonicalFields hash c.canonical) ++
    ((List.range poolSyncBuckets).filter fun i => bucketOf hash clients i ≠ []).map
      fun i => bucketInput hash (sortedContents (bucketOf hash clients i))

/-- The first eight bytes of the hash tell the strings apart and are never all zero. -/
structure HashInjective (hash : PoolHash) (strings : List Bytes) : Prop where
  truncated : ∀ s ∈ strings, ∀ t ∈ strings, shortHash hash s = shortHash hash t → s = t
  nonzero : ∀ s ∈ strings, shortHash hash s ≠ List.replicate 8 0

def SameRecords (own peer : List ClientConfig) : Prop :=
  ∀ content, content ∈ own.map ClientConfig.canonical ↔ content ∈ peer.map ClientConfig.canonical

section Agreement

variable {blake3 : Bytes → Bytes32} {own peer clients : List ClientConfig} {strings : List Bytes}
  {hash : PoolHash}

/-- The whole hash tells apart what its first eight bytes do. -/
theorem HashInjective.full (h : HashInjective hash strings) {s t : Bytes} (hs : s ∈ strings)
    (ht : t ∈ strings) (heq : hash.blake3 s = hash.blake3 t) : s = t := by
  refine h.truncated s hs t ht ?_
  unfold shortHash
  rw [heq]

theorem sameRecords_iff (hids : DistinctIds own) (hids' : DistinctIds peer) :
    SameRecords own peer ↔ sortedContents own = sortedContents peer := by
  constructor
  · intro hsame
    refine sortedContents_congr hids hids' fun id => ?_
    apply Option.ext
    intro content
    rw [contentOf_eq_some_iff hids, contentOf_eq_some_iff hids', hsame content]
  · intro hsorted content
    rw [← mem_sortedContents, hsorted, mem_sortedContents]

theorem sortedContents_eq_nil : sortedContents clients = [] ↔ clients = [] := by
  rw [← length_eq_zero_iff, sortedContents, length_map, sortById,
    length_insertionSort, length_eq_zero_iff]

theorem mem_map_bucketOf {i : Nat} {content : Canonical} :
    content ∈ (bucketOf hash clients i).map ClientConfig.canonical ↔
      content ∈ clients.map ClientConfig.canonical ∧ bucketIndexForId hash content.id = i := by
  simp only [bucketOf, mem_map, mem_filter, decide_eq_true_eq]
  constructor
  · rintro ⟨c, ⟨hc, hi⟩, rfl⟩
    exact ⟨⟨c, hc, rfl⟩, hi⟩
  · rintro ⟨⟨c, hc, rfl⟩, hi⟩
    exact ⟨c, ⟨hc, hi⟩, rfl⟩

/-- The records agree exactly if they do in each bucket. -/
theorem sameRecords_iff_buckets (hash : PoolHash) :
    SameRecords own peer ↔ ∀ i < poolSyncBuckets,
      SameRecords (bucketOf hash own i) (bucketOf hash peer i) := by
  constructor
  · intro hsame i _ content
    rw [mem_map_bucketOf, mem_map_bucketOf, hsame content]
  · intro hbuckets content
    have hbucket := hbuckets (bucketIndexForId hash content.id) (Nat.mod_lt _ (by decide)) content
    rw [mem_map_bucketOf, mem_map_bucketOf] at hbucket
    simpa using hbucket

section

variable (hids : DistinctIds own) (hids' : DistinctIds peer)
  (hfits : ∀ c ∈ own ++ peer, c.canonical.Fits) (hhash : HashInjective (poolHash blake3) strings)

include hids hids' hfits hhash

/-- The digests of the whole agree exactly if the records do. -/
theorem stateDigest_eq_iff (hown : stateInput (poolHash blake3) own ∈ strings)
    (hpeer : stateInput (poolHash blake3) peer ∈ strings) :
    stateDigest (poolHash blake3) own = stateDigest (poolHash blake3) peer ↔
      SameRecords own peer := by
  rw [sameRecords_iff hids hids', stateDigest_eq, stateDigest_eq]
  constructor
  · intro hdigest
    have hinput := hhash.full hown hpeer hdigest
    obtain ⟨-, hrecords⟩ := append_inj hinput (by rw [length_leBytes, length_leBytes])
    have hfitsIn : ∀ {clients : List ClientConfig}, (∀ c ∈ clients, c ∈ own ++ peer) →
        ∀ content ∈ sortedContents clients, content.Fits := by
      intro clients hsub content hcontent
      obtain ⟨c, hc, rfl⟩ := mem_map.mp (mem_sortedContents.mp hcontent)
      exact hfits c (hsub c hc)
    refine (selfDelimiting_record blake3).flatMap_inj ?_ ?_ ?_ hrecords
    · intro content hnil
      have := congrArg List.length hnil
      simp [writeRecordCanonicalFields, lengthPrefixed] at this
    · exact hfitsIn fun c hc => mem_append_left _ hc
    · exact hfitsIn fun c hc => mem_append_right _ hc
  · intro hsorted
    rw [hsorted]

/-- The digests of a bucket agree exactly if its records do. -/
theorem bucketDigest_eq_iff
    (hrecords : ∀ c ∈ own ++ peer, writeRecordCanonicalFields (poolHash blake3) c.canonical ∈
      strings) (hown : own ≠ [] → bucketInput (poolHash blake3) (sortedContents own) ∈ strings)
    (hpeer : peer ≠ [] → bucketInput (poolHash blake3) (sortedContents peer) ∈ strings) :
    bucketDigest (poolHash blake3) own = bucketDigest (poolHash blake3) peer ↔
      SameRecords own peer := by
  rw [sameRecords_iff hids hids']
  constructor
  · intro hdigest
    by_cases hnil : own = []
    · by_cases hnil' : peer = []
      · rw [hnil, hnil']
      · rw [hnil, bucketDigest_of_ne_nil hnil'] at hdigest
        exact absurd hdigest.symm (hhash.nonzero _ (hpeer hnil'))
    by_cases hnil' : peer = []
    · rw [hnil', bucketDigest_of_ne_nil hnil] at hdigest
      exact absurd hdigest (hhash.nonzero _ (hown hnil))
    rw [bucketDigest_of_ne_nil hnil, bucketDigest_of_ne_nil hnil'] at hdigest
    have hinput := hhash.truncated _ (hown hnil) _ (hpeer hnil') hdigest
    refine eq_of_map_eq ?_ (map_hash_of_bucketInput hinput)
    intro content hcontent content' hcontent' heq
    obtain ⟨c, hc, rfl⟩ := mem_map.mp (mem_sortedContents.mp hcontent)
    obtain ⟨c', hc', rfl⟩ := mem_map.mp (mem_sortedContents.mp hcontent')
    have hc := mem_append_left peer hc
    have hc' := mem_append_right own hc'
    have hbytes := hhash.full (hrecords c hc) (hrecords c' hc') heq
    have hrest := congrArg (· ++ ([] : Bytes)) hbytes
    exact (selfDelimiting_record blake3 _ _ [] [] (hfits c hc) (hfits c' hc') hrest).1
  · intro hsorted
    by_cases hnil : own = []
    · have hnil' : peer = [] := by
        rw [← sortedContents_eq_nil, ← hsorted, sortedContents_eq_nil]
        exact hnil
      rw [hnil, hnil']
    · have hnil' : peer ≠ [] := by
        rw [ne_eq, ← sortedContents_eq_nil, ← hsorted, sortedContents_eq_nil]
        exact hnil
      rw [bucketDigest_of_ne_nil hnil, bucketDigest_of_ne_nil hnil', hsorted]

end

/-- The bucket digests agree exactly if they do bucket by bucket. -/
theorem bucketDigests_eq_iff :
    bucketDigests hash own = bucketDigests hash peer ↔ ∀ i < poolSyncBuckets,
      bucketDigest hash (bucketOf hash own i) = bucketDigest hash (bucketOf hash peer i) := by
  constructor
  · intro h i hi
    rw [← chunk_bucketDigests own hi, h, chunk_bucketDigests peer hi]
  · intro h
    unfold bucketDigests
    refine congrArg List.flatten (map_congr_left fun i hi => ?_)
    exact h i (mem_range.mp hi)

end Agreement

/-- Two databases of unique ids have equal state digests if and only if they have equal bucket
digests, if and only if they hold the same set of canonical records; and the buckets reported as
differing are those in which the sets of canonical records differ. -/
theorem digest_agreement (blake3 : Bytes → Bytes32) {own peer : List ClientConfig}
    (hids : DistinctIds own) (hids' : DistinctIds peer)
    (hfits : ∀ c ∈ own ++ peer, c.canonical.Fits)
    (hhash : HashInjective (poolHash blake3)
      (hashedStrings (poolHash blake3) own ++ hashedStrings (poolHash blake3) peer)) :
    (stateDigest (poolHash blake3) own = stateDigest (poolHash blake3) peer ↔
      bucketDigests (poolHash blake3) own = bucketDigests (poolHash blake3) peer) ∧
    (bucketDigests (poolHash blake3) own = bucketDigests (poolHash blake3) peer ↔
      SameRecords own peer) ∧
    ∀ bucket : UInt16,
      bucket ∈ differingPoolBuckets (bucketDigests (poolHash blake3) own)
          (bucketDigests (poolHash blake3) peer) ↔
        bucket.toNat < poolSyncBuckets ∧
          ¬SameRecords (bucketOf (poolHash blake3) own bucket.toNat)
            (bucketOf (poolHash blake3) peer bucket.toNat) := by
  let hash := poolHash blake3
  have hstate := stateDigest_eq_iff hids hids' hfits hhash
    (mem_append_left _ mem_cons_self) (mem_append_right _ mem_cons_self)
  -- Each side hashes its records and the buckets that are not empty.
  have hrecord : ∀ c ∈ own ++ peer, writeRecordCanonicalFields hash c.canonical ∈
      hashedStrings hash own ++ hashedStrings hash peer := by
    intro c hc
    rcases mem_append.mp hc with hc | hc
    · exact mem_append_left _ (mem_append_left _
        (mem_cons_of_mem _ (mem_map_of_mem hc)))
    · exact mem_append_right _ (mem_append_left _
        (mem_cons_of_mem _ (mem_map_of_mem hc)))
  have hinput : ∀ {clients : List ClientConfig} {i : Nat}, i < poolSyncBuckets →
      bucketOf hash clients i ≠ [] →
      bucketInput hash (sortedContents (bucketOf hash clients i)) ∈
        hashedStrings hash clients := by
    intro clients i hi hne
    refine mem_append_right _ (mem_map_of_mem ?_)
    rw [mem_filter, mem_range, decide_eq_true_eq]
    exact ⟨hi, hne⟩
  have hsub : ∀ {i : Nat}, ∀ c ∈ bucketOf hash own i ++ bucketOf hash peer i, c ∈ own ++ peer := by
    intro i c hc
    rcases mem_append.mp hc with hc | hc
    · exact mem_append_left _ (mem_of_mem_filter hc)
    · exact mem_append_right _ (mem_of_mem_filter hc)
  have hbucket : ∀ i < poolSyncBuckets,
      (bucketDigest hash (bucketOf hash own i) = bucketDigest hash (bucketOf hash peer i) ↔
        SameRecords (bucketOf hash own i) (bucketOf hash peer i)) :=
    fun i hi => bucketDigest_eq_iff (hids.filter _) (hids'.filter _)
      (fun c hc => hfits c (hsub c hc)) hhash (fun c hc => hrecord c (hsub c hc))
      (fun hne => mem_append_left _ (hinput hi hne))
      (fun hne => mem_append_right _ (hinput hi hne))
  have hbuckets : bucketDigests hash own = bucketDigests hash peer ↔ SameRecords own peer := by
    rw [bucketDigests_eq_iff, sameRecords_iff_buckets hash]
    exact forall₂_congr hbucket
  refine ⟨hstate.trans hbuckets.symm, hbuckets, fun bucket => ?_⟩
  rw [mem_differingPoolBuckets]
  exact and_congr_right fun hlt => not_congr (hbucket bucket.toNat hlt)

def checksum (bytes : Bytes) : Bytes32 :=
  (Vector.replicate 32 1).setIfInBounds 0 (bytes.foldl (fun h b => h * 31 + b) 7)

/-- The digests of a client and of its tombstone differ, in the bucket of its id. -/
theorem digest_agreement_edited :
    stateDigest (poolHash checksum) [edited] ≠ stateDigest (poolHash checksum) [removed] ∧
    ∃ bucket : UInt16, bucket ∈ differingPoolBuckets (bucketDigests (poolHash checksum) [edited])
      (bucketDigests (poolHash checksum) [removed]) := by
  have hfits : ∀ c ∈ [edited] ++ [removed], c.canonical.Fits := by
    intro c hc
    simp only [cons_append, nil_append, mem_cons, not_mem_nil, or_false] at hc
    rcases hc with rfl | rfl
    all_goals
      refine ⟨by decide +kernel, by decide +kernel, by rintro _ ⟨⟩, ?_, by rintro _ ⟨⟩⟩
      rintro t ⟨⟩
      decide
  have hhash : HashInjective (poolHash checksum)
      (hashedStrings (poolHash checksum) [edited] ++ hashedStrings (poolHash checksum) [removed]) :=
    ⟨by decide +kernel, by decide +kernel⟩
  obtain ⟨hstate, hsame, hbuckets⟩ :=
    digest_agreement checksum (by decide) (by decide) hfits hhash
  have hdiffer : ¬SameRecords [edited] [removed] := by
    intro h
    have hmem := (h edited.canonical).mp (mem_singleton_self _)
    revert hmem
    decide +kernel
  refine ⟨fun heq => hdiffer (hsame.mp (hstate.mp heq)), ?_⟩
  by_contra hnone
  refine hdiffer ((sameRecords_iff_buckets (poolHash checksum)).mpr fun i hi => ?_)
  by_contra hbucket
  have hi16 : (UInt16.ofNat i).toNat = i :=
    UInt16.toNat_ofNat_of_lt' (Nat.lt_trans hi (by decide))
  exact hnone ⟨UInt16.ofNat i, (hbuckets _).mpr (by rw [hi16]; exact ⟨hi, hbucket⟩)⟩

end AivpnSpec.Server
