import LinkStateFabric.Engine.Persistence
import LinkStateFabric.Engine.Publish
import LinkStateFabric.Engine.Queries
import LinkStateFabric.Engine.Topology
import LinkStateFabric.Lib.Run

/-!
# Runs of an engine

An engine makes one operation after another, in the order in which its lock admits them. `Op` is
an operation with its arguments, `Impl.apply` its effect.
-/

namespace LinkState

/-- An operation of the engine. -/
inductive Op where
  | bindLink (request : BindLinkRequest)
  | supersedeTopology (request : SupersedeTopologyRequest)
  | retireLink (request : RetireLinkRequest)
  | registerPublisher (request : RegisterPublisherRequest)
  | invalidatePublisher (request : InvalidatePublisherRequest)
  | advanceCoordinatorEpoch (request : AdvanceEpochRequest)
  | publishEvidence (request : PublishEvidenceRequest)
  | withdrawEvidence (request : WithdrawEvidenceRequest)
  | transitionState (request : TransitionStateRequest)
  | markRevalidationRequired (request : MarkRevalidationRequest)
  | reconcile
  | snapshot (request : SnapshotRequest)
  | load (config : PersistenceConfig) (steps : ReadSteps) (file : Option Bytes)

/-- The effect of an operation. -/
def Impl.apply (impl : Impl) : Op → Impl
  | .bindLink request => (impl.bindLink request).1
  | .supersedeTopology request => (impl.supersedeTopology request).1
  | .retireLink request => (impl.retireLink request).1
  | .registerPublisher request => (impl.registerPublisher request).1
  | .invalidatePublisher request => (impl.invalidatePublisher request).1
  | .advanceCoordinatorEpoch request => (impl.advanceCoordinatorEpoch request).1
  | .publishEvidence request => (impl.publishEvidence request).1
  | .withdrawEvidence request => (impl.withdrawEvidence request).1
  | .transitionState request => (impl.transitionState request).1
  | .markRevalidationRequired request => (impl.markRevalidationRequired request).1
  | .reconcile => impl.reconcile.1
  | .snapshot request => (impl.snapshot request).1
  | .load config steps file => (impl.load config steps file).1

/-- A freshly created engine. The constructor does not check the configuration. -/
def Impl.Fresh (impl : Impl) : Prop := ∃ config, impl = Impl.create config

/-- The engines that runs reach, by operations of any kind. -/
abbrev Impl.Reachable : Impl → Prop := Runs.Run Fresh apply fun _ _ => True

/-- A journal load. -/
def Op.isLoad : Op → Bool
  | .load .. => true
  | _ => false

theorem Impl.Reachable.foldl {impl : Impl} (h : impl.Reachable) (ops : List Op) :
    (ops.foldl Impl.apply impl).Reachable := by
  induction ops generalizing impl with
  | nil => exact h
  | cons op ops ih => exact ih (.step op h trivial)

/-! ## Batches -/

namespace Impl

/-- The loop of a batch: one operation after the other, each under the lock of its own. -/
def batch {α : Type} (f : Impl → α → Impl × LinkMutationResult) (impl : Impl) :
    List α → Impl × List LinkMutationResult
  | [] => (impl, [])
  | request :: requests =>
    let (impl, result) := f impl request
    let (impl, results) := batch f impl requests
    (impl, result :: results)

/-- A batch that is too large is refused as a whole. -/
def batchOf {α : Type} (f : Impl → α → Impl × LinkMutationResult) (impl : Impl)
    (requests : List α) : Impl × List LinkMutationResult :=
  if impl.config.maxBatchSize < requests.length then
    (impl, [failed .resourceLimit (lit "batch size exceeds the limit")])
  else impl.batch f requests

/-- `bind_links`. -/
def bindLinks (impl : Impl) (requests : List BindLinkRequest) : Impl × List LinkMutationResult :=
  impl.batchOf bindLink requests

/-- `supersede_topology_batch`. -/
def supersedeTopologyBatch (impl : Impl) (requests : List SupersedeTopologyRequest) :
    Impl × List LinkMutationResult :=
  impl.batchOf supersedeTopology requests

/-- `publish_evidence_batch`. -/
def publishEvidenceBatch (impl : Impl) (requests : List PublishEvidenceRequest) :
    Impl × List LinkMutationResult :=
  impl.batchOf publishEvidence requests

/-- A batch is a run of its operations. -/
theorem batch_foldl {α : Type} {f : Impl → α → Impl × LinkMutationResult} {op : α → Op}
    (h : ∀ impl request, (f impl request).1 = impl.apply (op request)) (impl : Impl)
    (requests : List α) : (impl.batch f requests).1 = (requests.map op).foldl apply impl := by
  induction requests generalizing impl with
  | nil => rfl
  | cons request requests ih =>
    rw [List.map_cons, List.foldl_cons, ← h, ← ih]
    rfl

end Impl

/-! ## A small run -/

namespace Sample

def link : LinkId := .fromValidated (lit "link-1")
def endpoint : EndpointId := .fromValidated (lit "ep-1")
def publisher : PublisherId := .fromValidated (lit "pub-1")
def boot : WorkerBootId := .fromValidated (lit "boot-1")
def source : SourceId := .fromValidated (lit "src-1")
def publication : PublicationId := .fromValidated (lit "p-1")

def binding : TopologyBinding :=
  { link, topologyGeneration := .fromValue 1, endpoints := { localEndpoint := endpoint } }

def registration : PublisherRegistration :=
  { publisher, workerBoot := boot, source, scope := { links := [link] } }

/-- The link is reported up. -/
def observation : EvidenceRecord :=
  { key := { link, source }
    observation := .fromValidated (lit "obs-1")
    publisher, workerBoot := boot
    sourceGeneration := .fromValue 1
    sequence := 1
    topologyGeneration := .fromValue 1
    claim := .up }

/-- A link is bound, a publisher registers, and publishes evidence for the link. -/
def ops : List Op :=
  [.bindLink ⟨binding⟩, .registerPublisher ⟨registration⟩,
    .publishEvidence { observation, publication }]

def engine : Impl := ops.foldl Impl.apply (.create {})

theorem reachable : engine.Reachable := Impl.Reachable.foldl (.start ⟨{}, rfl⟩) ops

/-- The engine of the small run before anything is published. -/
def registered : Impl := (ops.take 2).foldl Impl.apply (.create {})

theorem registered_reachable : registered.Reachable :=
  Impl.Reachable.foldl (.start ⟨{}, rfl⟩) (ops.take 2)

/-- The publication of the small run. -/
def publish : PublishEvidenceRequest := { observation, publication }

/-- The publisher withdraws its record. -/
def withdrawal : WithdrawEvidenceRequest :=
  { key := observation.key
    observation := observation.observation
    publisher, workerBoot := boot
    sourceGeneration := .fromValue 1
    sequence := 2 }

/-- What the worker observes of the link next. -/
def observe (claim : EvidenceClaim) (sequence : U64) : Op :=
  .publishEvidence
    { observation := { observation with
        observation := .fromValidated (lit "obs-" ++ formatU64 sequence)
        sequence
        claim }
      publication }

end Sample

end LinkState
