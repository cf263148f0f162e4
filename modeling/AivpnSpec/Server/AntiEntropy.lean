import AivpnSpec.Server.ClientDb.Digests

/-!
# The anti-entropy exchange of two pool nodes

`gateway/control_dispatch.rs:493-708` on the side of the server and `pool_dialer.rs:1269-1481` on
the side that dialed it. The dialer announces its state digest; on a mismatch the ends compare
bucket digests and push each other the records of the buckets that differ. The JSON text of
records is modelled by the records. Messages in each direction arrive in order.
-/

namespace AivpnSpec.Server

open AivpnSpec.Base AivpnSpec.Common List

/-- The pool messages of `ControlPayload`. -/
inductive PoolMessage where
  | poolStateDigest (digest : Bytes32)
  | poolBucketDigests (digests : Bytes) (replyRequested : Bool)
  | poolSync (clients : List ClientConfig)

/-- A node with a client database and the file it is saved in. -/
structure PoolEnd where
  env : DbEnv
  data : ClientDbFile
  file : Option ClientDbFile

namespace PoolEnd

/-- `state_digest` of the node's database. -/
def stateDigest (node : PoolEnd) : Bytes32 := Server.stateDigest node.env.hash node.data.clients

/-- `bucket_digests` of the node's database. -/
def bucketDigests (node : PoolEnd) : Bytes := Server.bucketDigests node.env.hash node.data.clients

/-- `clients_json_for_buckets` of the node's database. -/
def clientsForBuckets (node : PoolEnd) (buckets : List UInt16) : List ClientConfig :=
  Server.clientsForBuckets node.env.hash node.data.clients buckets

/-- `merge_from_json` at the node. -/
def merge (node : PoolEnd) (now now' : Int) (records : List ClientConfig) : PoolEnd :=
  let out := mergeFromJson node.env now now' Faults.none node.data node.file records
  { node with data := out.data, file := out.file }

def answerDigest (node : PoolEnd) (digest : Bytes32) : List PoolMessage :=
  if digest = node.stateDigest then [] else [.poolBucketDigests node.bucketDigests true]

/-- The answer to bucket digests: the delta, and the node's own digests if they are asked for. -/
def answerBuckets (node : PoolEnd) (digests : Bytes) (replyRequested : Bool) :
    List PoolMessage :=
  let differing := differingPoolBuckets node.bucketDigests digests
  (if differing.isEmpty then [] else [.poolSync (node.clientsForBuckets differing)]) ++
    if replyRequested then [.poolBucketDigests node.bucketDigests false] else []

end PoolEnd

/-! ### The server -/

/-- What the handlers read of the session with the peer. -/
structure PeerSession where
  isMaskedPoolPeer : Bool
  isSitePeer : Bool

variable (session : PeerSession) {base : List ClientConfig} {id : String} {v : Version}

/-- `on_pool_state_digest`, `control_dispatch.rs:569-624`. -/
def onPoolStateDigest (node : PoolEnd) (digest : Bytes32) : List PoolMessage :=
  if session.isMaskedPoolPeer then node.answerDigest digest else []

/-- `on_pool_bucket_digests`, `control_dispatch.rs:629-708`. -/
def onPoolBucketDigests (node : PoolEnd) (digests : Bytes) (replyRequested : Bool) :
    List PoolMessage :=
  if session.isMaskedPoolPeer then node.answerBuckets digests replyRequested else []

/-- `on_pool_sync`, `control_dispatch.rs:496-563`. -/
def onPoolSync (node : PoolEnd) (now now' : Int) (records : List ClientConfig) : PoolEnd :=
  if session.isMaskedPoolPeer && !session.isSitePeer then node.merge now now' records else node

/-- The arms of `handle_control_message` for pool messages. -/
def handleControlMessage (node : PoolEnd) (now now' : Int) :
    PoolMessage → PoolEnd × List PoolMessage
  | .poolStateDigest digest => (node, onPoolStateDigest session node digest)
  | .poolBucketDigests digests replyRequested =>
    (node, onPoolBucketDigests session node digests replyRequested)
  | .poolSync records => (onPoolSync session node now now' records, [])

/-! ### The dialer -/

/-- What the dialer's loop reads of its session with the server. -/
structure DialedPeer where
  requireNodeEnrollment : Bool
  verifiedNode : Option String
  siteIdentity : Option String

/-- A message that the dialer receives, `pool_dialer.rs:1354-1472`: nothing before the node is
verified, and no pool messages on a session between sites. -/
def antiEntropy (peer : DialedPeer) (node : PoolEnd) (now now' : Int) (msg : PoolMessage) :
    PoolEnd × List PoolMessage :=
  if (peer.requireNodeEnrollment && peer.verifiedNode.isNone) || peer.siteIdentity.isSome then
    (node, [])
  else
    match msg with
    | .poolStateDigest digest => (node, node.answerDigest digest)
    | .poolBucketDigests digests replyRequested =>
      (node, node.answerBuckets digests replyRequested)
    | .poolSync records => (node.merge now now' records, [])

/-- What the dialer announces at a beacon, `pool_dialer.rs:1269-1278`. -/
def beaconMessages (peer : DialedPeer) (node : PoolEnd) : List PoolMessage :=
  if peer.siteIdentity.isNone then [.poolStateDigest node.stateDigest] else []

/-! ### The link between them -/

/-- The two ends and the messages on their way. -/
structure PoolLink where
  dialer : PoolEnd
  server : PoolEnd
  toServer : List PoolMessage
  toDialer : List PoolMessage

/-- The role of the session at each end. -/
structure Peering where
  session : PeerSession
  peer : DialedPeer

/-- A session between pool nodes. -/
structure Peering.IsPool (p : Peering) : Prop where
  masked : p.session.isMaskedPoolPeer = true
  notSite : p.session.isSitePeer = false
  verified : p.peer.requireNodeEnrollment = true → p.peer.verifiedNode.isSome = true
  noSite : p.peer.siteIdentity = none

/-- The receiving end of a message. -/
inductive Side where
  | dialer
  | server

/-- A delivery and the clock readings of the merge it may cause. -/
structure Delivery where
  side : Side
  now : Int
  now' : Int

namespace PoolLink

def beacon (p : Peering) (dialer server : PoolEnd) : PoolLink :=
  { dialer, server, toServer := beaconMessages p.peer dialer, toDialer := [] }

variable (link : PoolLink)

def next : Side → Option PoolMessage
  | .dialer => link.toDialer.head?
  | .server => link.toServer.head?

def node : Side → PoolEnd
  | .dialer => link.dialer
  | .server => link.server

def deliver (p : Peering) (link : PoolLink) (d : Delivery) : Option PoolLink :=
  match d.side with
  | .server =>
    match link.toServer with
    | [] => none
    | msg :: rest =>
      let out := handleControlMessage p.session link.server d.now d.now' msg
      some { link with server := out.1, toServer := rest, toDialer := link.toDialer ++ out.2 }
  | .dialer =>
    match link.toDialer with
    | [] => none
    | msg :: rest =>
      let out := antiEntropy p.peer link.dialer d.now d.now' msg
      some { link with dialer := out.1, toDialer := rest, toServer := link.toServer ++ out.2 }

/-- Every record that the delivery merges finds an address. -/
def findsAddresses (d : Delivery) : Bool :=
  match link.next d.side with
  | some (.poolSync records) =>
    let node := link.node d.side
    allHomed node.env (absorbDisk node.env d.now node.data node.file) records
  | _ => true

/-- Deliveries one after the other, without edits in between. -/
inductive Exchange (p : Peering) (start : PoolLink) : List Delivery → PoolLink → Prop
  | nil : Exchange p start [] start
  | snoc {ds : List Delivery} {link link' : PoolLink} {d : Delivery} :
      Exchange p start ds link → link.findsAddresses d = true → link.deliver p d = some link' →
      Exchange p start (ds ++ [d]) link'

def Quiet : Prop := link.toServer = [] ∧ link.toDialer = []

end PoolLink

/-- What the nodes agree on before they exchange anything: their databases are saved, records of
one id have one key, deleted records are disabled, and the hash has no collisions on them. -/
structure Compatible (dialer server : PoolEnd) : Prop where
  sameHash : server.env.hash = dialer.env.hash
  dialerSaved : dialer.file = some dialer.data
  serverSaved : server.file = some server.data
  psk : ∀ c ∈ dialer.data.clients ++ server.data.clients,
    ∀ c' ∈ dialer.data.clients ++ server.data.clients, c.id = c'.id → c.psk = c'.psk
  disabled : ∀ c ∈ dialer.data.clients ++ server.data.clients, c.deleted = true → c.enabled = false
  collisionFree : CollisionFree dialer.env.hash
    ((dialer.data.clients ++ server.data.clients).map ClientConfig.canonical)

/-! ### Merging a delta -/

def versionsOf (base : List ClientConfig) (id : String) : List Version :=
  (base.filter (hasId id)).map ClientConfig.version

theorem mem_versionsOf : v ∈ versionsOf base id ↔ ∃ c ∈ base, c.id = id ∧ c.version = v := by
  simp only [versionsOf, mem_map, mem_filter, hasId, decide_eq_true_eq, and_assoc]

theorem versionOf_mem_versionsOf {clients : List ClientConfig} (hsub : ∀ c ∈ clients, c ∈ base)
    (h : versionOf clients id = some v) : v ∈ versionsOf base id := by
  obtain ⟨c, hf, rfl⟩ := Option.map_eq_some_iff.mp h
  exact mem_versionsOf.mpr ⟨c, hsub c (mem_of_find?_eq_some hf), id_of_find hf, rfl⟩

/-- What holds of an end at every point of the exchange: it holds versions of the records that
the ends started with. -/
structure PoolEnd.Sound (hash : PoolHash) (base : List ClientConfig) (node : PoolEnd) : Prop where
  hash : node.env.hash = hash
  ids : DistinctIds node.data.clients
  saved : node.file = some node.data
  known : ∀ id v, versionOf node.data.clients id = some v → v ∈ versionsOf base id

section Delta

variable {hash : PoolHash} {base : List ClientConfig} {node source : PoolEnd} {now now' : Int}
  {buckets : List UInt16}

theorem PoolEnd.Sound.canonical_mem (h : node.Sound hash base) :
    ∀ c ∈ node.data.clients, c.canonical ∈ base.map ClientConfig.canonical := by
  intro c hc
  have hver : versionOf node.data.clients c.id = some c.version := by
    unfold versionOf
    rw [h.ids.find hc]
    rfl
  obtain ⟨b, hb, -, hbc⟩ := mem_versionsOf.mp (h.known _ _ hver)
  exact mem_map.mpr ⟨b, hb, congrArg Version.canonical hbc⟩

/-- The records of an id in a delta: all of them, if the bucket of the id is wanted. -/
theorem filter_clientsForBuckets (clients : List ClientConfig) (id : String) :
    (clientsForBuckets hash clients buckets).filter (hasId id) =
      if UInt16.ofNat (bucketIndexForId hash id) ∈ buckets then clients.filter (hasId id)
      else [] := by
  unfold clientsForBuckets
  rw [filter_filter]
  by_cases hid : UInt16.ofNat (bucketIndexForId hash id) ∈ buckets
  · rw [if_pos hid]
    apply filter_congr
    intro c _
    by_cases hc : c.id = id
    · simp [hasId, hc, hid]
    · simp [hasId, hc]
  · rw [if_neg hid, filter_eq_nil_iff]
    intro c _ hc
    simp only [hasId, Bool.and_eq_true, decide_eq_true_eq] at hc
    rw [hc.1] at hc
    exact hid hc.2

/-- Merging the delta of another end joins the versions of every id in a wanted bucket. -/
theorem merge_delta (hR : ∀ id, ∃ psk, Coherent hash psk (versionsOf base id))
    (hnode : node.Sound hash base) (hsource : source.Sound hash base)
    (hliving : ∀ c ∈ base, c.version.expired now = false ∧ c.version.expired now' = false)
    (hhomed : allHomed node.env (absorbDisk node.env now node.data node.file)
      (source.clientsForBuckets buckets) = true) :
    (node.merge now now' (source.clientsForBuckets buckets)).Sound hash base ∧
    ∀ id, versionOf (node.merge now now' (source.clientsForBuckets buckets)).data.clients id =
      if UInt16.ofNat (bucketIndexForId hash id) ∈ buckets then
        joinHigher (Version.rank hash) (versionOf node.data.clients id)
          (versionOf source.data.clients id)
      else versionOf node.data.clients id := by
  have hlive : ∀ id, ∀ v ∈ versionsOf base id, v.expired now = false ∧ v.expired now' = false := by
    intro id v hv
    obtain ⟨c, hc, -, rfl⟩ := mem_versionsOf.mp hv
    exact hliving c hc
  let folded id := ((source.clientsForBuckets buckets).filter (hasId id)).foldl
    (mergeVersion node.env.hash) (versionOf node.data.clients id)
  -- of the id, the delta has at most one record
  have hfold : ∀ id, folded id = if UInt16.ofNat (bucketIndexForId hash id) ∈ buckets then
      joinHigher (Version.rank hash) (versionOf node.data.clients id)
        (versionOf source.data.clients id)
      else versionOf node.data.clients id := by
    intro id
    obtain ⟨psk, hcoh⟩ := hR id
    dsimp only [folded, PoolEnd.clientsForBuckets]
    rw [hsource.hash, hnode.hash, filter_clientsForBuckets]
    split
    · rw [hsource.ids.filter_hasId]
      cases hf : source.data.clients.find? (hasId id) with
      | none =>
        rw [show versionOf source.data.clients id = none by unfold versionOf; rw [hf]; rfl]
        rfl
      | some c =>
        have hver : versionOf source.data.clients id = some c.version := by
          unfold versionOf
          rw [hf]
          rfl
        rw [hver]
        exact mergeVersion_eq hcoh (hnode.known id) (hsource.known id _ hver)
    · rfl
  have hmerged : ∀ id v, folded id = some v → v ∈ versionsOf base id := by
    intro id v hv
    rw [hfold] at hv
    split at hv
    · rcases joinHigher_cases hv with hv | hv
      · exact hnode.known id v hv
      · exact hsource.known id v hv
    · exact hnode.known id v hv
  have hversion : ∀ id,
      versionOf (node.merge now now' (source.clientsForBuckets buckets)).data.clients id =
        folded id := by
    intro id
    have hhome : Homed node.env id _ _ := homed_of_allHomed hhomed
    unfold PoolEnd.merge
    rw [hnode.saved] at hhome ⊢
    refine versionOf_mergeFromJson hnode.ids hhome ?_ ?_
    · exact fun v hv => (hlive id v (hnode.known id v hv)).1
    · exact fun v hv => (hlive id v (hmerged id v hv)).2
  refine ⟨⟨hnode.hash, ?_, rfl, ?_⟩, ?_⟩
  · exact ((hnode.ids.absorbDisk now).mergeLoop).filter _
  · intro id v hv
    rw [hversion] at hv
    exact hmerged id v hv
  · intro id
    rw [hversion, hfold]

end Delta

/-! ### The stages of an exchange -/

def baseRecords (dialer server : PoolEnd) : List ClientConfig :=
  dialer.data.clients ++ server.data.clients

section Exchange

variable {dialer server : PoolEnd} {p : Peering} {link link' : PoolLink}

theorem Compatible.coherent (h : Compatible dialer server) (id : String) :
    ∃ psk, Coherent dialer.env.hash psk (versionsOf (baseRecords dialer server) id) := by
  have hinj : ∀ v ∈ versionsOf (baseRecords dialer server) id,
      v.canonical ∈ (baseRecords dialer server).map ClientConfig.canonical := by
    intro v hv
    obtain ⟨c, hc, -, rfl⟩ := mem_versionsOf.mp hv
    exact mem_map_of_mem hc
  have hdisabled : ∀ v ∈ versionsOf (baseRecords dialer server) id,
      v.canonical.deleted = true → v.canonical.enabled = false := by
    intro v hv
    obtain ⟨c, hc, -, rfl⟩ := mem_versionsOf.mp hv
    exact h.disabled c hc
  have hkey : ∃ psk, ∀ v ∈ versionsOf (baseRecords dialer server) id, v.canonical.psk = psk := by
    by_cases hne : ∃ c ∈ baseRecords dialer server, c.id = id
    · obtain ⟨c, hc, hid⟩ := hne
      refine ⟨c.psk, fun v hv => ?_⟩
      obtain ⟨c', hc', hid', rfl⟩ := mem_versionsOf.mp hv
      exact h.psk c' hc' c hc (hid'.trans hid.symm)
    · refine ⟨Vector.replicate 32 0, fun v hv => ?_⟩
      obtain ⟨c', hc', hid', -⟩ := mem_versionsOf.mp hv
      exact absurd ⟨c', hc', hid'⟩ hne
  obtain ⟨psk, hpsk⟩ := hkey
  exact ⟨psk, hpsk, hdisabled, fun v hv w hw => h.collisionFree.record _ (hinj v hv) _ (hinj w hw)⟩

theorem Compatible.sound_dialer (h : Compatible dialer server)
    (hids : DistinctIds dialer.data.clients) :
    dialer.Sound dialer.env.hash (baseRecords dialer server) :=
  ⟨rfl, hids, h.dialerSaved,
    fun _ _ => versionOf_mem_versionsOf fun _ hc => mem_append_left _ hc⟩

theorem Compatible.sound_server (h : Compatible dialer server)
    (hids : DistinctIds server.data.clients) :
    server.Sound dialer.env.hash (baseRecords dialer server) :=
  ⟨h.sameHash, hids, h.serverSaved,
    fun _ _ => versionOf_mem_versionsOf fun _ hc => mem_append_right _ hc⟩

def SameContents (a b : PoolEnd) : Prop :=
  ∀ id, contentOf a.data.clients id = contentOf b.data.clients id

/-- The server after it merged the dialer's delta. -/
structure Received (dialer server server' : PoolEnd) : Prop where
  sound : server'.Sound dialer.env.hash (baseRecords dialer server)
  version : ∀ id, versionOf server'.data.clients id =
    if UInt16.ofNat (bucketIndexForId dialer.env.hash id) ∈
        differingPoolBuckets dialer.bucketDigests server.bucketDigests then
      joinHigher (Version.rank dialer.env.hash) (versionOf server.data.clients id)
        (versionOf dialer.data.clients id)
    else versionOf server.data.clients id

/-- The links after each number of deliveries. -/
inductive Stage (dialer server : PoolEnd) : Nat → PoolLink → Prop
  | announced : Stage dialer server 0
      { dialer, server, toServer := [.poolStateDigest dialer.stateDigest], toDialer := [] }
  | agreed (h : dialer.stateDigest = server.stateDigest) : Stage dialer server 1
      { dialer, server, toServer := [], toDialer := [] }
  | compared (h : dialer.stateDigest ≠ server.stateDigest) : Stage dialer server 1
      { dialer, server, toServer := []
        toDialer := [.poolBucketDigests server.bucketDigests true] }
  | pushed : Stage dialer server 2
      { dialer, server
        toServer := [.poolSync (dialer.clientsForBuckets
            (differingPoolBuckets dialer.bucketDigests server.bucketDigests)),
          .poolBucketDigests dialer.bucketDigests false]
        toDialer := [] }
  | received (server' : PoolEnd) (h : Received dialer server server') : Stage dialer server 3
      { dialer, server := server'
        toServer := [.poolBucketDigests dialer.bucketDigests false], toDialer := [] }
  | returned (server' : PoolEnd) (h : Received dialer server server') : Stage dialer server 4
      { dialer, server := server', toServer := []
        toDialer := [.poolSync (server'.clientsForBuckets
          (differingPoolBuckets server'.bucketDigests dialer.bucketDigests))] }
  | converged (k : Nat) (hk : k = 4 ∨ k = 5) (dialer' server' : PoolEnd)
      (h : dialer'.Sound dialer.env.hash (baseRecords dialer server))
      (h' : server'.Sound dialer.env.hash (baseRecords dialer server))
      (hsame : SameContents dialer' server') : Stage dialer server k
      { dialer := dialer', server := server', toServer := [], toDialer := [] }

/-- Sound ends agree on the ids whose buckets do not differ. -/
theorem contentOf_of_equal_buckets (h : Compatible dialer server) {a b : PoolEnd}
    (ha : a.Sound dialer.env.hash (baseRecords dialer server))
    (hb : b.Sound dialer.env.hash (baseRecords dialer server))
    (hid : UInt16.ofNat (bucketIndexForId dialer.env.hash id) ∉
      differingPoolBuckets a.bucketDigests b.bucketDigests) :
    contentOf a.data.clients id = contentOf b.data.clients id := by
  unfold PoolEnd.bucketDigests at hid
  rw [ha.hash, hb.hash] at hid
  exact contentOf_of_not_mem h.collisionFree ha.ids hb.ids ha.canonical_mem hb.canonical_mem hid

theorem stateDigest_of_sameContents {a b : PoolEnd} {hash : PoolHash} (ha : a.Sound hash base)
    (hb : b.Sound hash base) (hsame : SameContents a b) : a.stateDigest = b.stateDigest := by
  unfold PoolEnd.stateDigest
  rw [ha.hash, hb.hash, stateDigest_eq, stateDigest_eq, sortedContents_congr ha.ids hb.ids hsame]

/-- The dialer's merge of the server's delta closes the gap: where the buckets differed, both
hold the join of what they had; where they do not differ any more, they agree already. -/
theorem sameContents_of_joined (h : Compatible dialer server)
    (hd : DistinctIds dialer.data.clients) (hs : DistinctIds server.data.clients)
    {dialer' server' : PoolEnd} (hrec : Received dialer server server')
    (hjoin : ∀ id, versionOf dialer'.data.clients id =
      if UInt16.ofNat (bucketIndexForId dialer.env.hash id) ∈
          differingPoolBuckets server'.bucketDigests dialer.bucketDigests then
        joinHigher (Version.rank dialer.env.hash) (versionOf dialer.data.clients id)
          (versionOf server'.data.clients id)
      else versionOf dialer.data.clients id) : SameContents dialer' server' := by
  have hdialer := h.sound_dialer hd
  have hserver := h.sound_server hs
  intro id
  obtain ⟨psk, hcoh⟩ := h.coherent id
  have hdialer' := hjoin id
  have hserver' := hrec.version id
  split at hdialer'
  · split at hserver'
    · -- both have seen what either held
      have htop : KeepsTop (Version.rank dialer.env.hash) _ (joinHigher _ _ _) :=
        (keepsTop_toList (versionOf server.data.clients id)).joinHigher
          (keepsTop_toList (versionOf dialer.data.clients id))
      rw [← hserver'] at htop
      have htop' := (keepsTop_toList (versionOf dialer.data.clients id)).joinHigher htop
      rw [← hdialer'] at htop'
      refine htop'.agree htop ?_ ?_
      · intro v
        simp only [mem_append]
        tauto
      · have hknown : ∀ v ∈ (versionOf dialer.data.clients id).toList ++
            ((versionOf server.data.clients id).toList ++
              (versionOf dialer.data.clients id).toList),
            v ∈ versionsOf (baseRecords dialer server) id := by
          intro v hv
          simp only [mem_append, Option.mem_toList] at hv
          rcases hv with hv | hv | hv
          · exact hdialer.known id v hv
          · exact hserver.known id v hv
          · exact hdialer.known id v hv
        exact fun v hv w hw => canonical_of_rank hcoh (hknown v hv) (hknown w hw)
    · -- the contents were the same, so it does not matter which of them the join keeps
      next hforth =>
      have hsame := contentOf_of_equal_buckets h hdialer hserver hforth
      unfold contentOf at hsame ⊢
      rw [hdialer', hserver']
      cases hv : versionOf server.data.clients id with
      | none =>
        rw [hv] at hsame
        exact hsame
      | some v =>
        rw [hv] at hsame
        obtain ⟨w, hw, hwv⟩ := Option.map_eq_some_iff.mp hsame
        rw [hw]
        show Option.map _ (if _ then _ else _) = _
        split
        · rfl
        · exact congrArg some hwv
  · next hback =>
    have hsame := contentOf_of_equal_buckets h hrec.sound hdialer hback
    unfold contentOf at hsame ⊢
    rw [hdialer', hsame]

/-- On a session between pool nodes the server answers like the dialer. -/
theorem handleControlMessage_of_pool (hp : p.IsPool) (node : PoolEnd) (now now' : Int)
    (msg : PoolMessage) :
    handleControlMessage p.session node now now' msg = antiEntropy p.peer node now now' msg := by
  have hopen : ((p.peer.requireNodeEnrollment && p.peer.verifiedNode.isNone) ||
      p.peer.siteIdentity.isSome) = false := by
    rw [hp.noSite]
    cases hreq : p.peer.requireNodeEnrollment with
    | false => rfl
    | true => simpa using hp.verified hreq
  unfold antiEntropy
  rw [hopen]
  cases msg with
  | poolStateDigest digest =>
    simp [handleControlMessage, onPoolStateDigest, hp.masked]
  | poolBucketDigests digests replyRequested =>
    simp [handleControlMessage, onPoolBucketDigests, hp.masked]
  | poolSync records =>
    simp [handleControlMessage, onPoolSync, hp.masked, hp.notSite]

section

variable (hp : p.IsPool) (h : Compatible dialer server) (hd : DistinctIds dialer.data.clients)
  (hs : DistinctIds server.data.clients)

include hp h hd hs

/-- Each delivery leads to the next stage. -/
theorem Stage.step {k : Nat} {d : Delivery} (hstage : Stage dialer server k link)
    (hliving : ∀ c ∈ baseRecords dialer server, c.version.expired d.now = false ∧
      c.version.expired d.now' = false) (hhomed : link.findsAddresses d = true)
    (hdel : link.deliver p d = some link') : Stage dialer server (k + 1) link' := by
  have hdialer := h.sound_dialer hd
  have hserver := h.sound_server hs
  obtain ⟨side, now, now'⟩ := d
  cases hstage with
  | announced =>
    cases side with
    | dialer => cases hdel
    | server =>
      simp only [PoolLink.deliver, handleControlMessage, onPoolStateDigest, hp.masked,
        PoolEnd.answerDigest, if_true, Option.some.injEq] at hdel
      subst hdel
      by_cases heq : dialer.stateDigest = server.stateDigest
      · rw [if_pos heq]
        exact .agreed heq
      · rw [if_neg heq]
        exact .compared heq
  | agreed heq | converged k hk dialer' server' hsound hsound' hsame => cases side <;> cases hdel
  | compared hne =>
    cases side with
    | server => cases hdel
    | dialer =>
      have hdiffer : differingPoolBuckets dialer.bucketDigests server.bucketDigests ≠ [] := by
        intro hnil
        apply hne
        apply stateDigest_of_sameContents hdialer hserver
        intro id
        exact contentOf_of_equal_buckets h hdialer hserver (by rw [hnil]; exact not_mem_nil)
      simp only [PoolLink.deliver, ← handleControlMessage_of_pool hp, handleControlMessage,
        onPoolBucketDigests, hp.masked, PoolEnd.answerBuckets, if_true, List.isEmpty_iff,
        if_neg hdiffer, Option.some.injEq] at hdel
      subst hdel
      exact .pushed
  | pushed =>
    cases side with
    | dialer => cases hdel
    | server =>
      simp only [PoolLink.deliver, handleControlMessage, onPoolSync, hp.masked, hp.notSite,
        Bool.not_false, Bool.and_self, if_true, Option.some.injEq] at hdel
      subst hdel
      obtain ⟨hsound, hver⟩ := merge_delta h.coherent hserver hdialer hliving hhomed
      exact .received _ ⟨hsound, hver⟩
  | received server' hrec =>
    cases side with
    | dialer => cases hdel
    | server =>
      simp only [PoolLink.deliver, handleControlMessage, onPoolBucketDigests, hp.masked,
        PoolEnd.answerBuckets, if_true, Bool.false_eq_true, if_false, append_nil,
        List.nil_append, List.isEmpty_iff, Option.some.injEq] at hdel
      subst hdel
      by_cases hnil : differingPoolBuckets server'.bucketDigests dialer.bucketDigests = []
      · rw [if_pos hnil]
        refine .converged _ (.inl rfl) _ _ hdialer hrec.sound ?_
        intro id
        exact (contentOf_of_equal_buckets h hrec.sound hdialer
          (by rw [hnil]; exact not_mem_nil)).symm
      · rw [if_neg hnil]
        exact .returned server' hrec
  | returned server' hrec =>
    cases side with
    | server => cases hdel
    | dialer =>
      simp only [PoolLink.deliver, ← handleControlMessage_of_pool hp, handleControlMessage,
        onPoolSync, hp.masked, hp.notSite, Bool.not_false, Bool.and_self, if_true,
        append_nil, Option.some.injEq] at hdel
      subst hdel
      obtain ⟨hsound, hver⟩ := merge_delta h.coherent hdialer hrec.sound hliving hhomed
      exact .converged _ (.inr rfl) _ _ hsound hrec.sound
        (sameContents_of_joined h hd hs hrec hver)

/-- The stage of a whole exchange is the number of its deliveries. -/
theorem Stage.run {ds : List Delivery}
    (hliving : ∀ d ∈ ds, ∀ c ∈ baseRecords dialer server, c.version.expired d.now = false ∧
      c.version.expired d.now' = false)
    (hrun : PoolLink.Exchange p (PoolLink.beacon p dialer server) ds link) :
    Stage dialer server ds.length link := by
  induction hrun with
  | nil =>
    have hstart : PoolLink.beacon p dialer server =
        { dialer, server, toServer := [.poolStateDigest dialer.stateDigest], toDialer := [] } := by
      simp [PoolLink.beacon, beaconMessages, hp.noSite]
    rw [hstart]
    exact .announced
  | snoc hpre hhomed hdel ih =>
    rw [length_append]
    have hstage := ih fun d hd => hliving d (mem_append_left _ hd)
    exact hstage.step hp h hd hs (hliving _ (by simp)) hhomed hdel

end

/-- One exchange makes two pool nodes agree. Started by a beacon between nodes with distinct ids
in each database, it takes at most five deliveries; as long as a message is on its way it can be
delivered; and once none is, both nodes have the same state digest. -/
theorem exchange_converges (hp : p.IsPool) (h : Compatible dialer server)
    (hd : DistinctIds dialer.data.clients) (hs : DistinctIds server.data.clients)
    {ds : List Delivery} {link : PoolLink}
    (hliving : ∀ d ∈ ds, ∀ c ∈ baseRecords dialer server,
      c.version.expired d.now = false ∧ c.version.expired d.now' = false)
    (hrun : PoolLink.Exchange p (PoolLink.beacon p dialer server) ds link) :
    ds.length ≤ 5 ∧
    (link.Quiet ∨ ∃ side, ∀ now now', (link.deliver p { side, now, now' }).isSome = true) ∧
    (link.Quiet → link.dialer.stateDigest = link.server.stateDigest) := by
  have hstage := Stage.run hp h hd hs hliving hrun
  generalize ds.length = k at hstage
  cases hstage with
  | announced | pushed | received server' hrec =>
    exact ⟨by omega, .inr ⟨.server, fun _ _ => rfl⟩, fun hq => (by cases hq.1)⟩
  | agreed heq => exact ⟨by omega, .inl ⟨rfl, rfl⟩, fun _ => heq⟩
  | compared hne => exact ⟨by omega, .inr ⟨.dialer, fun _ _ => rfl⟩, fun hq => (by cases hq.2)⟩
  | returned server' hrec =>
    exact ⟨by omega, .inr ⟨.dialer, fun _ _ => rfl⟩, fun hq => (by cases hq.2)⟩
  | converged k hk dialer' server' hsound hsound' hsame =>
    exact ⟨by omega, .inl ⟨rfl, rfl⟩, fun _ => stateDigest_of_sameContents hsound hsound' hsame⟩

/-- The link after some deliveries, if each has a message to deliver and finds addresses. -/
def PoolLink.deliverAll (p : Peering) : PoolLink → List Delivery → Option PoolLink
  | link, [] => some link
  | link, d :: ds =>
    if link.findsAddresses d then (link.deliver p d).bind fun link => link.deliverAll p ds else none

theorem PoolLink.Exchange.deliverAll {start : PoolLink} {pre ds : List Delivery}
    (h : Exchange p start pre link) (hall : link.deliverAll p ds = some link') :
    Exchange p start (pre ++ ds) link' := by
  induction ds generalizing link pre with
  | nil =>
    cases hall
    rw [append_nil]
    exact h
  | cons d ds ih =>
    unfold PoolLink.deliverAll at hall
    split at hall
    · next hfinds =>
      obtain ⟨mid, hdel, hrest⟩ := Option.bind_eq_some_iff.mp hall
      rw [append_cons]
      exact ih (.snoc h hfinds hdel) hrest
    · cases hall

instance (link : PoolLink) : Decidable link.Quiet := inferInstanceAs (Decidable (_ ∧ _))

def poolPeering : Peering where
  session := { isMaskedPoolPeer := true, isSitePeer := false }
  peer := { requireNodeEnrollment := true, verifiedNode := some "node", siteIdentity := none }

theorem poolPeering_isPool : poolPeering.IsPool := ⟨rfl, rfl, fun _ => rfl, rfl⟩

def nodeWith (records : List ClientConfig) : PoolEnd :=
  { env := checksumNode
    data := { clients := records, nextHostOffset := 2 }
    file := some { clients := records, nextHostOffset := 2 } }

/-- The five deliveries of an exchange in which both ends have something to send. -/
def fiveDeliveries : List Delivery :=
  [⟨.server, 20, 20⟩, ⟨.dialer, 20, 20⟩, ⟨.server, 20, 20⟩, ⟨.server, 20, 20⟩, ⟨.dialer, 20, 20⟩]

/-- A client besides the one of `edited` and `removed`. -/
def other : ClientConfig := liveClient "b" 0x0a000003 6

def exampleContents : List Canonical := [edited.canonical, other.canonical, removed.canonical]

def exampleBuckets : List (List Canonical) :=
  [[edited.canonical], [removed.canonical], [other.canonical],
    [edited.canonical, other.canonical], [removed.canonical, other.canonical]]

theorem isBucket_example {l : List Canonical} (h : IsBucket exampleContents l) :
    l ∈ exampleBuckets := by
  obtain ⟨hne, hsub, hsorted⟩ := h
  match l, hne with
  | [x], _ =>
    have hone : ∀ x ∈ exampleContents, [x] ∈ exampleBuckets := by decide +kernel
    exact hone x (hsub x mem_cons_self)
  | [x, y], _ =>
    have htwo : ∀ x ∈ exampleContents, ∀ y ∈ exampleContents, x.id < y.id →
        [x, y] ∈ exampleBuckets := by decide +kernel
    have hlt : x.id < y.id := (pairwise_cons.mp hsorted).1 y mem_cons_self
    exact htwo x (hsub x mem_cons_self) y (hsub y (by simp)) hlt
  | x :: y :: z :: rest, _ =>
    -- there are two ids only
    have hthree : ∀ x ∈ exampleContents, ∀ y ∈ exampleContents, ∀ z ∈ exampleContents,
        x.id < y.id → ¬y.id < z.id := by decide +kernel
    obtain ⟨hx, hrest⟩ := pairwise_cons.mp hsorted
    have hxy : x.id < y.id := hx y mem_cons_self
    have hyz : y.id < z.id := (pairwise_cons.mp hrest).1 z mem_cons_self
    exact absurd hyz
      (hthree x (hsub x mem_cons_self) y (hsub y (by simp)) z (hsub z (by simp)) hxy)

theorem collisionFree_example : CollisionFree checksumNode.hash exampleContents where
  record := by decide +kernel
  bucket := by
    intro l l' hl hl'
    have hall : ∀ l ∈ exampleBuckets, ∀ l' ∈ exampleBuckets,
        shortHash checksumNode.hash (bucketInput checksumNode.hash l) =
          shortHash checksumNode.hash (bucketInput checksumNode.hash l') →
        bucketInput checksumNode.hash l = bucketInput checksumNode.hash l' := by
      decide +kernel
    exact hall l (isBucket_example hl) l' (isBucket_example hl')
  nonzero := by
    intro l hl
    have hall : ∀ l ∈ exampleBuckets,
        shortHash checksumNode.hash (bucketInput checksumNode.hash l) ≠ replicate 8 0 := by
      decide +kernel
    exact hall l (isBucket_example hl)

/-- The dialer holds the edit and the other client, the server the tombstone. -/
theorem exchange_converges_example :
    ∃ link, PoolLink.Exchange poolPeering
      (PoolLink.beacon poolPeering (nodeWith [edited, other]) (nodeWith [removed])) fiveDeliveries
      link ∧ link.Quiet ∧ link.dialer.stateDigest = link.server.stateDigest := by
  have hsome : ((PoolLink.beacon poolPeering (nodeWith [edited, other])
      (nodeWith [removed])).deliverAll poolPeering fiveDeliveries).any
        (fun link => decide link.Quiet) = true := by
    decide +kernel
  obtain ⟨link, hall, hquiet⟩ := (Option.any_eq_true _ _).mp hsome
  have hrun := PoolLink.Exchange.nil.deliverAll hall
  have hquiet := of_decide_eq_true hquiet
  have hcompat : Compatible (nodeWith [edited, other]) (nodeWith [removed]) :=
    ⟨rfl, rfl, rfl, by decide +kernel, by decide +kernel, collisionFree_example⟩
  have hconv := exchange_converges poolPeering_isPool hcompat (by decide) (by decide)
    (by decide +kernel) hrun
  exact ⟨link, hrun, hquiet, hconv.2.2 hquiet⟩

/-- Without distinct ids in a database the exchange may end in disagreement: the server merges the
two records of the client into one, the dialer keeps both. -/
theorem duplicate_ids_never_agree :
    poolPeering.IsPool ∧ Compatible (nodeWith [edited, removed]) (nodeWith []) ∧
    (∀ d ∈ fiveDeliveries, ∀ c ∈ baseRecords (nodeWith [edited, removed]) (nodeWith []),
      c.version.expired d.now = false ∧ c.version.expired d.now' = false) ∧
    ∃ link, PoolLink.Exchange poolPeering
      (PoolLink.beacon poolPeering (nodeWith [edited, removed]) (nodeWith [])) fiveDeliveries
      link ∧ link.Quiet ∧ link.dialer.stateDigest ≠ link.server.stateDigest := by
  have hsub : ∀ content ∈ [edited, removed].map ClientConfig.canonical,
      content ∈ exampleContents := by
    decide +kernel
  refine ⟨poolPeering_isPool, ⟨rfl, rfl, rfl, by decide +kernel, by decide +kernel,
    collisionFree_example.mono hsub⟩, by decide +kernel, ?_⟩
  have hsome : ((PoolLink.beacon poolPeering (nodeWith [edited, removed])
      (nodeWith [])).deliverAll poolPeering fiveDeliveries).any
        (fun link => decide (link.Quiet ∧ link.dialer.stateDigest ≠ link.server.stateDigest)) =
          true := by
    decide +kernel
  obtain ⟨link, hall, hend⟩ := (Option.any_eq_true _ _).mp hsome
  exact ⟨link, PoolLink.Exchange.nil.deliverAll hall, of_decide_eq_true hend⟩

end Exchange

end AivpnSpec.Server
