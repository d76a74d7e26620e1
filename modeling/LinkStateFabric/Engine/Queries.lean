import LinkStateFabric.Engine.Support

/-!
# Queries and snapshots (`engine_queries.cpp`)

The queries read the indexes; `snapshot` copies the state and retains the copy.
-/

namespace LinkState

open Sorting

namespace Impl

/-! ## Queries -/

/-- `link_state`. -/
def linkState (impl : Impl) (link : LinkId) : Option LinkStateView :=
  (impl.entryOf link).map makeView

/-- `links_in_state`. -/
def linksInState (impl : Impl) (state : LinkOperationalState) : List LinkStateView :=
  (listing (impl.store.byState.bucket state)).filterMap fun link =>
    match impl.entryOf link with
    | none => none
    | some entry => if entry.record.state = state then some (makeView entry) else none

/-- `links_for_endpoint`. -/
def linksForEndpoint (impl : Impl) (endpoint : EndpointId) : List LinkId :=
  listing (impl.store.byEndpoint.bucket endpoint)

/-- `evidence_for_publisher`. -/
def evidenceForPublisher (impl : Impl) (publisher : PublisherId) : List EvidenceRecord :=
  sortBy evidenceLess <|
    (listing (impl.store.publisherLinks.bucket publisher)).flatMap fun link =>
      match impl.entryOf link with
      | none => []
      | some entry => entry.current.filter (·.publisher = publisher)

/-- `links_requiring_revalidation`. -/
def linksRequiringRevalidation (impl : Impl) : List LinkId :=
  (listing (impl.store.byState.bucket .revalidationRequired)).filter fun link =>
    (impl.entryOf link).any (·.record.state = .revalidationRequired)

/-- The element of a list that has no other. -/
def sole {α : Type} : List α → Option α
  | [a] => some a
  | _ => none

/-- The two lookups by endpoints: of the links of an endpoint those whose endpoints satisfy `p`, and
the link if it is the only one. -/
def soleLink (impl : Impl) (endpoint : EndpointId) (p : EndpointBinding → Bool) :
    Option LinkStateView :=
  (sole ((impl.linksForEndpoint endpoint).filter fun link =>
    (impl.entryOf link).any (p ·.record.binding.endpoints))).bind impl.linkState

/-- `link_by_endpoints`. -/
def linkByEndpoints (impl : Impl) (a b : EndpointId) : Option LinkStateView :=
  impl.soleLink a fun endpoints =>
    (endpoints.localEndpoint = a && endpoints.remote = b) ||
      (endpoints.localEndpoint = b && endpoints.remote = a)

/-- `link_by_remote_endpoint`. -/
def linkByRemoteEndpoint (impl : Impl) (localEndpoint remote : EndpointId) :
    Option LinkStateView :=
  impl.soleLink localEndpoint fun endpoints =>
    endpoints.localEndpoint = localEndpoint && endpoints.remote = remote

/-- `evidence_for_link`. -/
def evidenceForLink (impl : Impl) (link : LinkId) : List EvidenceRecord :=
  match impl.entryOf link with
  | none => []
  | some entry => sortBy evidenceLess entry.current

/-- The count of `publisher_authority` and of `publishers`: the current records of a publisher. -/
def liveEvidence (impl : Impl) (publisher : PublisherId) : Nat :=
  ((listing (impl.store.publisherLinks.bucket publisher)).map fun link =>
    match impl.entryOf link with
    | none => 0
    | some entry => entry.current.countP (·.publisher = publisher)).sum

/-- `publisher_authority`, with its count of live evidence. -/
def publisherAuthority (impl : Impl) (publisher : PublisherId) : Option (PublisherAuthority × Nat) :=
  (impl.store.publishers.lookup publisher).map (·, impl.liveEvidence publisher)

/-- `publishers`, each with its count of live evidence. -/
def publishers (impl : Impl) : List (PublisherAuthority × Nat) :=
  sortBy (fun a b => a.1.publisher < b.1.publisher)
    ((listing impl.store.publishers.keys).filterMap impl.publisherAuthority)

/-- `topology_binding`. -/
def topologyBinding (impl : Impl) (link : LinkId) : Option TopologyBinding :=
  (impl.entryOf link).map (·.record.binding)

/-- `link_evidence_generation`. -/
def linkEvidenceGeneration (impl : Impl) (link : LinkId) : EvidenceGeneration :=
  ((impl.entryOf link).map (·.record.evidenceGeneration)).getD .zero

/-- `link_count`. -/
def linkCount (impl : Impl) : Nat := impl.store.links.keys.card

/-- `evidence_count`. -/
def evidenceCount (impl : Impl) : Nat :=
  (((listing impl.store.links.keys).filterMap impl.entryOf).map (·.current.length)).sum

/-- `state_digest`. -/
def stateDigest (impl : Impl) : Digest :=
  digestRecords <| (listing impl.store.links.keys).filterMap fun link =>
    (impl.entryOf link).map (·.record)

/-- The body of the loop of `stats` over the links. -/
def countEntry (stats : EngineStats) (entry : LinkEntry) : EngineStats :=
  { stats with
    evidenceRecords := stats.evidenceRecords + entry.current.length
    currentEvidence := stats.currentEvidence + entry.current.length
    conflicts := if entry.conflicted then stats.conflicts + 1 else stats.conflicts }

/-- The body of the loop of `stats` over the publishers. -/
def countAuthority (stats : EngineStats) (authority : PublisherAuthority) : EngineStats :=
  if authority.status = .active then { stats with activePublishers := stats.activePublishers + 1 }
  else { stats with fencedPublishers := stats.fencedPublishers + 1 }

/-- `stats`: the running counters, with the figures that the store gives in their fields. -/
def stats (impl : Impl) : EngineStats :=
  let stats := { impl.counters with
    links := impl.store.links.keys.card
    evidenceRecords := 0
    currentEvidence := 0
    conflicts := 0
    retainedSnapshots := impl.store.snapshots.keys.card }
  let stats := ((listing impl.store.links.keys).filterMap impl.entryOf).foldl countEntry stats
  let stats := { stats with
    publishers := impl.store.publishers.keys.card
    activePublishers := 0
    fencedPublishers := 0 }
  ((listing impl.store.publishers.keys).filterMap impl.store.publishers.lookup).foldl
    countAuthority stats

/-! ## Snapshots -/

/-- The links that a snapshot looks at, in order. -/
def selectedLinks (impl : Impl) (request : SnapshotRequest) : List LinkId :=
  if request.links.isEmpty then listing impl.store.links.keys else sortLinks request.links

/-- What a snapshot keeps of a link. -/
def snapshotRecord (request : SnapshotRequest) (link : LinkId) (entry : LinkEntry) :
    Option SnapshotRecord :=
  let record := entry.record
  if request.fabric.valid ∧ record.binding.fabric.valid ∧
      record.binding.fabric ≠ request.fabric then none
  else if request.stateFilter.any (record.state ≠ ·) then none
  else some
    { link
      state := record.state
      resultClass := record.resultClass
      stateGeneration := record.stateGeneration
      evidenceGeneration := record.evidenceGeneration
      topologyGeneration := record.binding.topologyGeneration
      currentEvidence := entry.current.length
      conflicted := entry.conflicted
      syntheticBacked := entry.syntheticBacked
      recordDigest := digestRecord record }

/-- The records of a snapshot, as many as the limit admits. -/
def snapshotRecords (impl : Impl) (request : SnapshotRequest) : List SnapshotRecord :=
  let limit :=
    if request.maxRecords = 0 ∨ impl.config.maxLinks < request.maxRecords then impl.config.maxLinks
    else request.maxRecords
  ((impl.selectedLinks request).filterMap fun link =>
    (impl.entryOf link).bind (snapshotRecord request link)).take limit

/-- Retains a snapshot; the oldest leave when there are more than the configuration admits. -/
def retainSnapshot (impl : Impl) (snap : Snapshot) : Impl :=
  let snapshots :=
    if (impl.store.snapshots.lookup snap.id).isSome then impl.store.snapshots
    else impl.store.snapshots.insert snap.id snap
  let order := impl.store.snapshotOrder ++ [snap.id]
  let excess := order.length - impl.config.maxRetainedSnapshots
  { impl with
    store.snapshots := (order.take excess).foldl (fun snapshots id => snapshots.erase id) snapshots
    store.snapshotOrder := order.drop excess }

/-- `snapshot`. -/
def snapshot (impl : Impl) (request : SnapshotRequest) : Impl × Snapshot :=
  let impl := { impl with snapshotCounter := impl.snapshotCounter + 1 }
  let snap : Snapshot :=
    { id := .fromValidated (lit "snap." ++ impl.globalStateGeneration.text ++ lit "." ++
        formatU64 impl.snapshotCounter)
      label := request.label
      globalGeneration := impl.globalGeneration
      globalStateGeneration := impl.globalStateGeneration
      epoch := impl.epoch
      topologyGeneration := impl.topologyGeneration
      sequence := impl.snapshotCounter }
  if limits.maxSnapshotRecords < request.links.length then (impl, snap)
  else
    let records := impl.snapshotRecords request
    let snap := { snap with
      records
      digest := digestSnapshot records impl.globalGeneration impl.globalStateGeneration impl.epoch }
    (impl.retainSnapshot snap, snap)

/-- `retained_snapshot`. -/
def retainedSnapshot (impl : Impl) (id : SnapshotId) : Option Snapshot :=
  impl.store.snapshots.lookup id

/-- `retained_snapshot_ids`. -/
def retainedSnapshotIds (impl : Impl) : List SnapshotId := impl.store.snapshotOrder

/-- `snapshot_is_current`. -/
def snapshotIsCurrent (impl : Impl) (snap : Snapshot) : Bool :=
  snap.globalStateGeneration = impl.globalStateGeneration && snap.epoch = impl.epoch

end Impl

end LinkState
