import AivpnSpec.Base.Chunks
import AivpnSpec.Base.SelfDelimiting
import AivpnSpec.Server.ClientDb.Versions
import Mathlib.Data.List.Sort
import Mathlib.Data.String.Basic

/-!
# Digests of a database

`crates/aivpn-server/src/client_db/merge.rs:121-150, 567-664`. A database is summarised by one
digest of all its records and by a digest for each of 64 buckets of ids. Both depend on the
canonical contents alone, and without collisions the digest of a bucket determines them. Strings
compare like their UTF-8 bytes.
-/

namespace AivpnSpec.Server

open AivpnSpec.Base AivpnSpec.Common List

/-- `POOL_SYNC_BUCKETS`. -/
def poolSyncBuckets : Nat := 64

/-- `sort_by(|a, b| a.id.cmp(&b.id))`. -/
def sortById (clients : List ClientConfig) : List ClientConfig :=
  clients.insertionSort fun a b => a.id ≤ b.id

section

variable (hash : PoolHash)

/-- `state_digest`, `merge.rs:567-579`. -/
def stateDigest (clients : List ClientConfig) : Bytes32 :=
  let records := sortById clients
  hash.blake3 (leBytes 8 records.length ++
    records.flatMap fun c => writeRecordCanonicalFields hash c.canonical)

/-- `bucket_index_for_id`, `merge.rs:126-130`. -/
def bucketIndexForId (id : String) : Nat :=
  ofLe ((hash.blake3 (utf8 id)).toList.take 8) % poolSyncBuckets

def shortHash (bytes : Bytes) : Bytes := (hash.blake3 bytes).toList.take 8

def bucketInput (contents : List Canonical) : Bytes :=
  leBytes 4 contents.length ++ (contents.map fun c => (recordCanonicalHash hash c).toList).flatten

/-- The digest of the records of one bucket, `merge.rs:632-645`. -/
def bucketDigest (bucket : List ClientConfig) : Bytes :=
  if bucket.isEmpty then List.replicate 8 0
  else shortHash hash (bucketInput hash ((sortById bucket).map ClientConfig.canonical))

/-- The records of bucket `i`. -/
def bucketOf (clients : List ClientConfig) (i : Nat) : List ClientConfig :=
  clients.filter fun c => bucketIndexForId hash c.id = i

/-- `bucket_digests`, `merge.rs:619-647`. -/
def bucketDigests (clients : List ClientConfig) : Bytes :=
  ((List.range poolSyncBuckets).map fun i => bucketDigest hash (bucketOf hash clients i)).flatten

end

/-- `differing_pool_buckets`, `merge.rs:143-156`. -/
def differingPoolBuckets (own peer : Bytes) : List UInt16 :=
  if own.length ≠ peer.length ∨ own.length % 8 ≠ 0 then []
  else
    ((List.range (own.length / 8)).filter fun i => chunk 8 own i ≠ chunk 8 peer i).map
      fun i => UInt16.ofNat i

/-- `clients_json_for_buckets`, `merge.rs:655-663`. -/
def clientsForBuckets (hash : PoolHash) (clients : List ClientConfig) (buckets : List UInt16) :
    List ClientConfig :=
  clients.filter fun c => UInt16.ofNat (bucketIndexForId hash c.id) ∈ buckets

section Contents

variable {hash : PoolHash} {clients clients' : List ClientConfig} {content : Canonical}

theorem contentOf_eq_some_iff (h : DistinctIds clients) {id : String} :
    contentOf clients id = some content ↔
      content ∈ clients.map ClientConfig.canonical ∧ content.id = id := by
  unfold contentOf versionOf
  simp only [Option.map_eq_some_iff, mem_map]
  constructor
  · rintro ⟨v, ⟨c, hf, rfl⟩, rfl⟩
    exact ⟨⟨c, mem_of_find?_eq_some hf, rfl⟩, id_of_find hf⟩
  · rintro ⟨⟨c, hc, rfl⟩, rfl⟩
    exact ⟨c.version, ⟨c, h.find hc, rfl⟩, rfl⟩

theorem contentOf_filter (h : DistinctIds clients) (p : String → Bool) (id : String) :
    contentOf (clients.filter fun c => p c.id) id = if p id then contentOf clients id else none := by
  apply Option.ext
  intro content
  rw [contentOf_eq_some_iff (h.filter _)]
  by_cases hp : p id = true
  · rw [if_pos hp, contentOf_eq_some_iff h]
    simp only [mem_map, mem_filter]
    constructor
    · rintro ⟨⟨c, ⟨hc, -⟩, rfl⟩, hid⟩
      exact ⟨⟨c, hc, rfl⟩, hid⟩
    · rintro ⟨⟨c, hc, rfl⟩, rfl⟩
      exact ⟨⟨c, ⟨hc, hp⟩, rfl⟩, rfl⟩
  · rw [if_neg hp]
    simp only [mem_map, mem_filter, reduceCtorEq, iff_false]
    rintro ⟨⟨c, ⟨-, hc⟩, rfl⟩, rfl⟩
    exact hp hc

def sortedContents (clients : List ClientConfig) : List Canonical :=
  (sortById clients).map ClientConfig.canonical

theorem mem_sortedContents :
    content ∈ sortedContents clients ↔ content ∈ clients.map ClientConfig.canonical := by
  simp only [sortedContents, sortById, mem_map, mem_insertionSort]

/-- Distinct ids sort strictly. -/
theorem pairwise_sortedContents (h : DistinctIds clients) :
    (sortedContents clients).Pairwise fun a b => a.id < b.id := by
  have htotal : Std.Total fun a b : ClientConfig => a.id ≤ b.id := ⟨fun a b => le_total a.id b.id⟩
  have htrans : IsTrans ClientConfig fun a b => a.id ≤ b.id := ⟨fun _ _ _ => le_trans⟩
  have hsorted : (sortById clients).Pairwise fun a b => a.id ≤ b.id :=
    pairwise_insertionSort _ clients
  have hne : (sortById clients).Pairwise fun a b => a.id ≠ b.id := by
    have hperm : (sortById clients).Perm clients := perm_insertionSort _ clients
    exact pairwise_map.mp ((hperm.map ClientConfig.id).nodup_iff.mpr h)
  rw [sortedContents, pairwise_map]
  exact (hsorted.and hne).imp fun h => lt_of_le_of_ne h.1 h.2

/-- Databases with the same content at every id have the same sorted contents. -/
theorem sortedContents_congr (h : DistinctIds clients) (h' : DistinctIds clients')
    (hsame : ∀ id, contentOf clients id = contentOf clients' id) :
    sortedContents clients = sortedContents clients' := by
  have hmem : ∀ content, content ∈ sortedContents clients ↔ content ∈ sortedContents clients' := by
    intro content
    have hiff : contentOf clients content.id = some content ↔ _ := contentOf_eq_some_iff h
    rw [hsame, contentOf_eq_some_iff h'] at hiff
    simpa [mem_sortedContents] using hiff.symm
  have hsorted := pairwise_sortedContents h
  have hsorted' := pairwise_sortedContents h'
  have hnodup : ∀ {l : List Canonical}, l.Pairwise (fun a b => a.id < b.id) → l.Nodup := by
    intro l hl
    refine hl.imp ?_
    rintro a b hlt rfl
    exact lt_irrefl _ hlt
  apply Perm.eq_of_pairwise _ hsorted hsorted'
  · exact (perm_ext_iff_of_nodup (hnodup hsorted) (hnodup hsorted')).mpr hmem
  · intro a b _ _ hab hba
    exact absurd (hab.trans hba) (lt_irrefl _)

theorem contentOf_of_sortedContents (h : DistinctIds clients) (h' : DistinctIds clients')
    (heq : sortedContents clients = sortedContents clients') (id : String) :
    contentOf clients id = contentOf clients' id := by
  apply Option.ext
  intro content
  rw [contentOf_eq_some_iff h, contentOf_eq_some_iff h', ← mem_sortedContents, heq,
    mem_sortedContents]

theorem stateDigest_eq (hash : PoolHash) (clients : List ClientConfig) :
    stateDigest hash clients = hash.blake3 (leBytes 8 (sortedContents clients).length ++
      (sortedContents clients).flatMap (writeRecordCanonicalFields hash)) := by
  unfold stateDigest sortedContents
  rw [length_map, flatMap_map]

end Contents

/-- Contents that may be hashed together as one bucket. -/
structure IsBucket (contents bucket : List Canonical) : Prop where
  nonempty : bucket ≠ []
  subset : ∀ c ∈ bucket, c ∈ contents
  sorted : bucket.Pairwise fun a b => a.id < b.id

/-- The hash tells the given contents apart, and the buckets that can be formed of them, from
each other and from an empty one. -/
structure CollisionFree (hash : PoolHash) (contents : List Canonical) : Prop where
  record : ∀ a ∈ contents, ∀ b ∈ contents,
    recordCanonicalHash hash a = recordCanonicalHash hash b → a = b
  bucket : ∀ l l', IsBucket contents l → IsBucket contents l' →
    shortHash hash (bucketInput hash l) = shortHash hash (bucketInput hash l') →
      bucketInput hash l = bucketInput hash l'
  nonzero : ∀ l, IsBucket contents l → shortHash hash (bucketInput hash l) ≠ List.replicate 8 0

section Compare

variable {hash : PoolHash} {contents contents' : List Canonical}
  {clients clients' : List ClientConfig} {i : Nat}

theorem IsBucket.mono {bucket : List Canonical} (h : IsBucket contents' bucket)
    (hsub : ∀ c ∈ contents', c ∈ contents) : IsBucket contents bucket :=
  ⟨h.nonempty, fun c hc => hsub c (h.subset c hc), h.sorted⟩

theorem CollisionFree.mono (h : CollisionFree hash contents)
    (hsub : ∀ c ∈ contents', c ∈ contents) : CollisionFree hash contents' where
  record := fun a ha b hb => h.record a (hsub a ha) b (hsub b hb)
  bucket := fun l l' hl hl' => h.bucket l l' (hl.mono hsub) (hl'.mono hsub)
  nonzero := fun l hl => h.nonzero l (hl.mono hsub)

/-- What is hashed for a bucket determines the hashes of its records. -/
theorem map_hash_of_bucketInput {l l' : List Canonical}
    (h : bucketInput hash l = bucketInput hash l') :
    l.map (recordCanonicalHash hash) = l'.map (recordCanonicalHash hash) := by
  obtain ⟨-, hflat⟩ := append_inj h (by simp)
  have hlen : ∀ l : List Canonical,
      (l.map fun c => (recordCanonicalHash hash c).toList).map length =
        replicate l.length 32 := by
    intro l
    rw [map_map, ← map_const']
    apply map_congr_left
    intro c _
    simp
  have hcount : l.length = l'.length := by
    have hsum := congrArg length hflat
    rw [length_flatten, length_flatten, hlen, hlen, sum_replicate_nat,
      sum_replicate_nat] at hsum
    omega
  have hlists := eq_iff_flatten_eq.mpr ⟨hflat, by rw [hlen, hlen, hcount]⟩
  have hvectors : (l.map (recordCanonicalHash hash)).map Vector.toList =
      (l'.map (recordCanonicalHash hash)).map Vector.toList := by
    rw [map_map, map_map]
    exact hlists
  exact map_injective_iff.mpr (fun _ _ => Vector.toList_inj.mp) hvectors

theorem bucketDigest_of_ne_nil (h : clients ≠ []) :
    bucketDigest hash clients = shortHash hash (bucketInput hash (sortedContents clients)) :=
  if_neg (by simp [h])

/-- The contents of a bucket with records. -/
theorem isBucket_sortedContents (hids : DistinctIds clients)
    (hsub : ∀ c ∈ clients, c.canonical ∈ contents) (h : clients ≠ []) :
    IsBucket contents (sortedContents clients) := by
  refine ⟨?_, ?_, pairwise_sortedContents hids⟩
  · obtain ⟨c, hc⟩ := exists_mem_of_ne_nil clients h
    exact ne_nil_of_mem (mem_sortedContents.mpr (mem_map_of_mem hc))
  · intro content hmem
    obtain ⟨c, hc, rfl⟩ := mem_map.mp (mem_sortedContents.mp hmem)
    exact hsub c hc

/-- Buckets of equal digest have equal contents. -/
theorem sortedContents_of_bucketDigest (hfree : CollisionFree hash contents)
    (hids : DistinctIds clients) (hids' : DistinctIds clients')
    (hsub : ∀ c ∈ clients, c.canonical ∈ contents)
    (hsub' : ∀ c ∈ clients', c.canonical ∈ contents)
    (h : bucketDigest hash clients = bucketDigest hash clients') :
    sortedContents clients = sortedContents clients' := by
  have hempty : bucketDigest hash [] = replicate 8 0 := rfl
  by_cases hnil : clients = []
  · by_cases hnil' : clients' = []
    · rw [hnil, hnil']
    · rw [hnil, hempty, bucketDigest_of_ne_nil hnil'] at h
      exact absurd h.symm (hfree.nonzero _ (isBucket_sortedContents hids' hsub' hnil'))
  have hb := isBucket_sortedContents hids hsub hnil
  by_cases hnil' : clients' = []
  · rw [hnil', hempty, bucketDigest_of_ne_nil hnil] at h
    exact absurd h (hfree.nonzero _ hb)
  have hb' := isBucket_sortedContents hids' hsub' hnil'
  rw [bucketDigest_of_ne_nil hnil, bucketDigest_of_ne_nil hnil'] at h
  exact eq_of_map_eq (fun a ha c hc => hfree.record a (hb.subset a ha) c (hb'.subset c hc))
    (map_hash_of_bucketInput (hfree.bucket _ _ hb hb' h))

theorem length_bucketDigest (bucket : List ClientConfig) :
    (bucketDigest hash bucket).length = 8 := by
  unfold bucketDigest
  split
  · simp
  · simp [shortHash]

theorem length_bucketDigests (clients : List ClientConfig) :
    (bucketDigests hash clients).length = 512 := by
  unfold bucketDigests
  rw [length_flatten, map_map]
  have hlen : (length ∘ fun i => bucketDigest hash (bucketOf hash clients i)) = fun _ => 8 := by
    funext i
    exact length_bucketDigest _
  rw [hlen]
  decide

/-- Bucket `i`'s digest lies at `8 * i`. -/
theorem chunk_bucketDigests (clients : List ClientConfig) (hi : i < poolSyncBuckets) :
    chunk 8 (bucketDigests hash clients) i = bucketDigest hash (bucketOf hash clients i) := by
  apply chunk_flatten
  · intro b hb
    obtain ⟨j, -, rfl⟩ := mem_map.mp hb
    exact length_bucketDigest _
  · simp [hi]

/-- The reported buckets are those of different digests. -/
theorem mem_differingPoolBuckets {bucket : UInt16} :
    bucket ∈ differingPoolBuckets (bucketDigests hash clients) (bucketDigests hash clients') ↔
      bucket.toNat < poolSyncBuckets ∧
        bucketDigest hash (bucketOf hash clients bucket.toNat) ≠
          bucketDigest hash (bucketOf hash clients' bucket.toNat) := by
  unfold differingPoolBuckets
  rw [length_bucketDigests, length_bucketDigests, if_neg (by omega), mem_map]
  constructor
  · rintro ⟨i, hi, rfl⟩
    rw [mem_filter, mem_range, decide_eq_true_eq] at hi
    obtain ⟨hlt, hne⟩ := hi
    rw [chunk_bucketDigests clients hlt, chunk_bucketDigests clients' hlt] at hne
    rw [UInt16.toNat_ofNat_of_lt' (Nat.lt_trans hlt (by decide))]
    exact ⟨hlt, hne⟩
  · rintro ⟨hlt, hne⟩
    refine ⟨bucket.toNat, ?_, UInt16.ofNat_toNat⟩
    rw [mem_filter, mem_range, decide_eq_true_eq, chunk_bucketDigests clients hlt,
      chunk_bucketDigests clients' hlt]
    exact ⟨hlt, hne⟩

/-- A bucket that is not reported as differing has the same digest on both sides. -/
theorem bucketDigest_of_not_mem (hi : i < poolSyncBuckets)
    (h : UInt16.ofNat i ∉
      differingPoolBuckets (bucketDigests hash clients) (bucketDigests hash clients')) :
    bucketDigest hash (bucketOf hash clients i) = bucketDigest hash (bucketOf hash clients' i) := by
  by_contra hne
  apply h
  rw [mem_differingPoolBuckets, UInt16.toNat_ofNat_of_lt' (Nat.lt_trans hi (by decide))]
  exact ⟨hi, hne⟩

/-- Two databases have the same content at every id whose bucket is not reported as differing. -/
theorem contentOf_of_not_mem (hfree : CollisionFree hash contents)
    (hids : DistinctIds clients) (hids' : DistinctIds clients')
    (hsub : ∀ c ∈ clients, c.canonical ∈ contents)
    (hsub' : ∀ c ∈ clients', c.canonical ∈ contents) {id : String}
    (h : UInt16.ofNat (bucketIndexForId hash id) ∉
      differingPoolBuckets (bucketDigests hash clients) (bucketDigests hash clients')) :
    contentOf clients id = contentOf clients' id := by
  have hdigest := bucketDigest_of_not_mem (Nat.mod_lt _ (by decide)) h
  have hsorted := sortedContents_of_bucketDigest hfree (hids.filter _) (hids'.filter _)
    (fun c hc => hsub c (mem_of_mem_filter hc))
    (fun c hc => hsub' c (mem_of_mem_filter hc)) hdigest
  have hcontent := contentOf_of_sortedContents (hids.filter _) (hids'.filter _) hsorted id
  have hbucket : ∀ {clients : List ClientConfig}, DistinctIds clients →
      contentOf (bucketOf hash clients (bucketIndexForId hash id)) id = contentOf clients id := by
    intro clients hids
    have hfilter := contentOf_filter hids
      (fun x => bucketIndexForId hash x = bucketIndexForId hash id) id
    rw [if_pos (by simp)] at hfilter
    exact hfilter
  rw [← hbucket hids, ← hbucket hids']
  exact hcontent

end Compare

end AivpnSpec.Server
