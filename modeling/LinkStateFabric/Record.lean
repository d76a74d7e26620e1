import LinkStateFabric.Evidence

/-!
# Outcomes and link state records (`outcome.hpp`, `record.hpp`, `record.cpp`, `snapshot.hpp`)

* `Outcome`: the structured result of an operation.
* `TopologyBinding`: the structure a record is bound to.
* `LinkStateRecord`: the durable record of a link, and its digests.
* `Snapshot`: an immutable copy of the state, and its digest.
-/

namespace LinkState

open Codec (ByteEnum)
open Sorting

/-! ## Outcomes -/

inductive OutcomeCode where
  | committed | idempotent | noChange | staleGeneration | staleEvidence | staleTopology
  | staleAuthority | staleCoordinatorEpoch | unauthorizedScope | unauthorizedPublisher
  | unknownLink | retiredLink | evidenceConflict | revalidationRequired | invalidTransition
  | malformedRequest | resourceLimit | persistenceCorrupt | persistenceIoFailure
  | transportFailure | unsupportedCapability | unsupportedState | notFound | invalidated
  deriving DecidableEq, Repr

instance : ByteEnum OutcomeCode :=
  .ofValues [.committed, .idempotent, .noChange, .staleGeneration, .staleEvidence, .staleTopology,
    .staleAuthority, .staleCoordinatorEpoch, .unauthorizedScope, .unauthorizedPublisher,
    .unknownLink, .retiredLink, .evidenceConflict, .revalidationRequired, .invalidTransition,
    .malformedRequest, .resourceLimit, .persistenceCorrupt, .persistenceIoFailure,
    .transportFailure, .unsupportedCapability, .unsupportedState, .notFound, .invalidated]
    (by intro a; cases a <;> decide) (by decide) (by decide)

/-- A refusal: the code, and the text that explains it. -/
abbrev Refusal := OutcomeCode × Text

structure Outcome where
  code : OutcomeCode := .malformedRequest
  detail : Text := []
  stateGeneration : LinkStateGeneration := .zero
  globalGeneration : GlobalGeneration := .zero
  evidenceGeneration : EvidenceGeneration := .zero
  stateChanged : Bool := false
  deriving DecidableEq

namespace Outcome

def make (code : OutcomeCode) (detail : Text) : Outcome := { code, detail }

/-- `is_error`. -/
def isError (outcome : Outcome) : Bool :=
  match outcome.code with
  | .committed | .idempotent | .noChange => false
  | _ => true

/-- `committed()`. -/
def isCommitted (outcome : Outcome) : Bool :=
  outcome.code = .committed || outcome.code = .noChange

end Outcome

/-! ## Bindings -/

/-- The endpoints of a link, with the generations current at binding time. -/
structure EndpointBinding where
  localEndpoint : EndpointId := .null
  localGeneration : EndpointGeneration := .zero
  localDevice : DeviceId := .null
  localPort : PortId := .null
  remote : EndpointId := .null
  remoteGeneration : EndpointGeneration := .zero
  remoteDevice : DeviceId := .null
  remotePort : PortId := .null
  deriving DecidableEq

/-- A reference to a link that another depends on, pinned to a topology generation. -/
structure BackingReference where
  link : LinkId
  generation : TopologyGeneration
  deriving DecidableEq

/-- The structure that a link state record is bound to. -/
structure TopologyBinding where
  fabric : FabricId := .null
  site : SiteId := .null
  link : LinkId := .null
  topologyGeneration : TopologyGeneration := .zero
  endpoints : EndpointBinding := {}
  linkClass : LinkClass := .unknown
  symmetry : LinkSymmetryGuarantee := .unspecified
  memberLinks : List LinkId := []
  backingLinks : List BackingReference := []
  deriving DecidableEq

/-- What every binding of a link satisfies. -/
structure TopologyBinding.WellFormed (binding : TopologyBinding) : Prop where
  link : binding.link.valid = true
  localEndpoint : binding.endpoints.localEndpoint.valid = true
  topologyGeneration : binding.topologyGeneration.isZero = false
  members : ∀ member ∈ binding.memberLinks, member.valid = true
  backing : ∀ backing ∈ binding.backingLinks, backing.link.valid = true

/-! ## Records -/

/-- A restriction that an authorized publisher put on a link through an explicit transition. -/
structure AdministrativeIntent where
  state : LinkOperationalState := .adminDisabled
  publication : PublicationId := .null
  publisher : PublisherId := .null
  generation : GlobalGeneration := .zero
  cause : DegradationCause := .none
  deriving DecidableEq

/-- One entry of a link's history of states. -/
structure StateHistoryEntry where
  stateGeneration : LinkStateGeneration := .zero
  fromState : LinkOperationalState := .unknown
  toState : LinkOperationalState := .unknown
  trigger : TransitionTrigger := .evidenceResolution
  resultClass : StateResultClass := .authoritativeUnknown
  cause : DegradationCause := .none
  publication : PublicationId := .null
  publisher : PublisherId := .null
  evidenceGeneration : EvidenceGeneration := .zero
  topologyGeneration : TopologyGeneration := .zero
  outcome : OutcomeCode := .committed
  deriving DecidableEq

/-- The authoritative durable record of a link. -/
structure LinkStateRecord where
  record : LinkStateRecordId := .null
  binding : TopologyBinding := {}
  state : LinkOperationalState := .unknown
  resultClass : StateResultClass := .authoritativeUnknown
  degradationCause : DegradationCause := .none
  stateGeneration : LinkStateGeneration := .zero
  globalGeneration : GlobalGeneration := .zero
  evidenceGeneration : EvidenceGeneration := .zero
  lastPublication : PublicationId := .null
  lastTransition : StateTransitionId := .null
  lastPublisher : PublisherId := .null
  lastOutcome : OutcomeCode := .noChange
  everEstablished : Bool := false
  durable : Bool := false
  adminIntent : Option AdministrativeIntent := none
  provenanceDigest : Digest := .zero
  history : List StateHistoryEntry := []
  deriving DecidableEq

/-- A projection of a link that queries and results carry. -/
structure LinkStateView where
  record : LinkStateRecord
  currentEvidence : Nat
  retainedDispositions : Nat
  conflicted : Bool
  syntheticBacked : Bool
  deriving DecidableEq

/-- `digest_record`. -/
def digestRecord (record : LinkStateRecord) : Digest :=
  let binding := record.binding
  let hasher := Hasher.new
    |>.updateText binding.link.value
    |>.updateText binding.fabric.value
    |>.updateText binding.site.value
    |>.updateU64 binding.topologyGeneration.value
    |>.updateEnum binding.linkClass
    |>.updateEnum binding.symmetry
    |>.updateText binding.endpoints.localEndpoint.value
    |>.updateU64 binding.endpoints.localGeneration.value
    |>.updateText binding.endpoints.remote.value
    |>.updateU64 binding.endpoints.remoteGeneration.value
    |>.updateU32 binding.memberLinks.length
  let hasher := binding.memberLinks.foldl (fun hasher member => hasher.updateText member.value) hasher
  let hasher := hasher.updateU32 binding.backingLinks.length
  let hasher := binding.backingLinks.foldl
    (fun hasher backing => (hasher.updateText backing.link.value).updateU64 backing.generation.value)
    hasher
  let hasher := hasher
    |>.updateEnum record.state
    |>.updateEnum record.resultClass
    |>.updateEnum record.degradationCause
    |>.updateU64 record.stateGeneration.value
    |>.updateU64 record.evidenceGeneration.value
    |>.updateBool record.adminIntent.isSome
  let hasher := match record.adminIntent with
    | none => hasher
    | some intent => hasher
      |>.updateEnum intent.state
      |>.updateEnum intent.cause
      |>.updateText intent.publication.value
      |>.updateText intent.publisher.value
      |>.updateU64 intent.generation.value
  (hasher.update record.provenanceDigest.bytes).finalize

/-- `digest_records`. -/
def digestRecords (records : List LinkStateRecord) : Digest :=
  let ordered := sortBy (fun lhs rhs => lhs.binding.link < rhs.binding.link) records
  (ordered.foldl (fun hasher record => hasher.update (digestRecord record).bytes)
    (Hasher.new.updateU32 ordered.length)).finalize

/-! ## Snapshots -/

/-- What a snapshot selects. -/
structure SnapshotRequest where
  fabric : FabricId := .null
  links : List LinkId := []
  stateFilter : Option LinkOperationalState := none
  maxRecords : Nat := 0
  label : Text := []

structure SnapshotRecord where
  link : LinkId
  state : LinkOperationalState
  resultClass : StateResultClass
  stateGeneration : LinkStateGeneration
  evidenceGeneration : EvidenceGeneration
  topologyGeneration : TopologyGeneration
  currentEvidence : Nat
  conflicted : Bool
  syntheticBacked : Bool
  recordDigest : Digest
  deriving DecidableEq

structure Snapshot where
  id : SnapshotId
  label : Text
  globalGeneration : GlobalGeneration
  globalStateGeneration : LinkStateGeneration
  epoch : CoordinatorEpoch
  topologyGeneration : TopologyGeneration
  sequence : Nat
  records : List SnapshotRecord := []
  digest : Digest := .zero
  deriving DecidableEq

/-- `digest_snapshot`. -/
def digestSnapshot (records : List SnapshotRecord) (globalGeneration : GlobalGeneration)
    (globalStateGeneration : LinkStateGeneration) (epoch : CoordinatorEpoch) : Digest :=
  let ordered := sortBy (fun lhs rhs => lhs.link < rhs.link) records
  let hasher := Hasher.new
    |>.updateU64 globalGeneration.value
    |>.updateU64 globalStateGeneration.value
    |>.updateU64 epoch.value
    |>.updateU32 ordered.length
  (ordered.foldl (fun hasher record => hasher
    |>.updateText record.link.value
    |>.updateEnum record.state
    |>.updateEnum record.resultClass
    |>.updateU64 record.stateGeneration.value
    |>.updateU64 record.evidenceGeneration.value
    |>.updateU64 record.topologyGeneration.value
    |>.updateU32 record.currentEvidence
    |>.updateBool record.conflicted
    |>.update record.recordDigest.bytes) hasher).finalize

end LinkState
