import LinkStateFabric.Config
import LinkStateFabric.Record
import LinkStateFabric.Lib.Index

/-!
# The engine's store (`engine_internal.hpp`, `engine.hpp`)

* `Impl`: the state of an engine. Its hash maps are finite maps and its hash sets finite sets;
  where the source copies one into a vector and sorts it, the model takes its `listing`.
* `Edit`: an engine together with the entry that an operation holds a reference to. `Edit.commit`
  puts the entry back.
* The requests of the operations, and their results.
-/

namespace LinkState

/-- The entry of a link: its record, its current evidence and what became of earlier evidence. -/
structure LinkEntry where
  record : LinkStateRecord := {}
  current : List EvidenceRecord := []
  dispositions : List EvidenceDisposition := []
  conflicted : Bool := false
  syntheticBacked : Bool := false
  deriving DecidableEq

structure EngineStore where
  links : Finmap fun _ : LinkId => LinkEntry := ∅
  byState : Index LinkOperationalState LinkId := ∅
  byEndpoint : Index EndpointId LinkId := ∅
  publishers : Finmap fun _ : PublisherId => PublisherAuthority := ∅
  publisherLinks : Index PublisherId LinkId := ∅
  observations : Finmap fun _ : ObservationId => EvidenceKey := ∅
  dependents : Index LinkId LinkId := ∅
  fencedBoots : Finmap fun _ : PublisherId => List WorkerBootId := ∅
  fences : List PublisherFence := []
  snapshots : Finmap fun _ : SnapshotId => Snapshot := ∅
  snapshotOrder : List SnapshotId := []

/-- The counters of an engine. -/
structure EngineStats where
  links : Nat := 0
  evidenceRecords : Nat := 0
  currentEvidence : Nat := 0
  publishers : Nat := 0
  activePublishers : Nat := 0
  fencedPublishers : Nat := 0
  conflicts : Nat := 0
  revalidationRequired : Nat := 0
  retired : Nat := 0
  retainedSnapshots : Nat := 0
  committedPublications : U64 := 0
  idempotentPublications : U64 := 0
  rejectedPublications : U64 := 0
  transitions : U64 := 0
  deriving DecidableEq

/-- `LinkStateEngine::Impl`. -/
structure Impl where
  config : EngineConfig
  store : EngineStore := {}
  globalGeneration : GlobalGeneration := .zero
  globalStateGeneration : LinkStateGeneration := .zero
  epoch : CoordinatorEpoch
  topologyGeneration : TopologyGeneration
  transitionCounter : Nat := 0
  snapshotCounter : Nat := 0
  counters : EngineStats := {}

namespace Impl

/-- A freshly created engine. -/
def create (config : EngineConfig) : Impl :=
  { config, epoch := config.initialEpoch, topologyGeneration := config.initialTopologyGeneration }

/-- The entry of a link. -/
def entryOf (impl : Impl) (link : LinkId) : Option LinkEntry := impl.store.links.lookup link

/-- Stores an entry. -/
def putEntry (impl : Impl) (link : LinkId) (entry : LinkEntry) : Impl :=
  { impl with store.links := impl.store.links.insert link entry }

/-- Stores the authority of a publisher. -/
def putAuthority (impl : Impl) (publisher : PublisherId) (authority : PublisherAuthority) :
    Impl :=
  { impl with store.publishers := impl.store.publishers.insert publisher authority }

@[simp] theorem entryOf_create (config : EngineConfig) (link : LinkId) :
    (create config).entryOf link = none := Finmap.lookup_empty _

theorem entryOf_putEntry (impl : Impl) (link l : LinkId) (entry : LinkEntry) :
    (impl.putEntry link entry).entryOf l = if l = link then some entry else impl.entryOf l := by
  unfold putEntry entryOf
  split
  · subst_vars; exact Finmap.lookup_insert _
  · rename_i h; exact Finmap.lookup_insert_of_ne _ h

@[simp] theorem entryOf_putEntry_self (impl : Impl) (link : LinkId) (entry : LinkEntry) :
    (impl.putEntry link entry).entryOf link = some entry := by simp [entryOf_putEntry]

end Impl

/-- An engine and the entry that an operation edits. -/
structure Edit where
  impl : Impl
  entry : LinkEntry

/-- Puts the entry back under its link. -/
def Edit.commit (t : Edit) (link : LinkId) : Impl := t.impl.putEntry link t.entry

/-! ## Requests and results -/

structure BindLinkRequest where
  binding : TopologyBinding

structure SupersedeTopologyRequest where
  link : LinkId := .null
  newTopologyGeneration : TopologyGeneration := .zero
  replacement : Option TopologyBinding := none
  reason : Text := []

structure RetireLinkRequest where
  link : LinkId := .null
  topologyGeneration : TopologyGeneration := .zero
  publication : PublicationId := .null
  publisher : PublisherId := .null
  workerBoot : WorkerBootId := .null
  epoch : CoordinatorEpoch := .zero
  reason : Text := []

structure RegisterPublisherRequest where
  registration : PublisherRegistration

structure InvalidatePublisherRequest where
  publisher : PublisherId := .null
  workerBoot : Option WorkerBootId := none
  epoch : CoordinatorEpoch := .zero
  reason : Text := []

structure AdvanceEpochRequest where
  newEpoch : CoordinatorEpoch := .zero

structure PublishEvidenceRequest where
  observation : EvidenceRecord := {}
  expectedEvidenceGeneration : Option EvidenceGeneration := none
  expectedStateGeneration : Option LinkStateGeneration := none
  publication : PublicationId := .null

structure WithdrawEvidenceRequest where
  key : EvidenceKey := {}
  observation : ObservationId := .null
  publisher : PublisherId := .null
  workerBoot : WorkerBootId := .null
  epoch : CoordinatorEpoch := .zero
  sourceGeneration : SourceGeneration := .zero
  sequence : U64 := 0
  reason : Text := []

structure TransitionStateRequest where
  link : LinkId := .null
  target : LinkOperationalState := .unknown
  publication : PublicationId := .null
  publisher : PublisherId := .null
  workerBoot : WorkerBootId := .null
  epoch : CoordinatorEpoch := .zero
  expectedStateGeneration : Option LinkStateGeneration := none
  degradationCause : DegradationCause := .none

structure MarkRevalidationRequest where
  link : LinkId := .null
  publication : PublicationId := .null
  publisher : PublisherId := .null
  workerBoot : WorkerBootId := .null
  epoch : CoordinatorEpoch := .zero
  expectedStateGeneration : Option LinkStateGeneration := none
  reason : Text := []

/-- The result of a mutating operation. -/
structure LinkMutationResult where
  outcome : Outcome
  view : Option LinkStateView := none
  deriving DecidableEq

end LinkState
