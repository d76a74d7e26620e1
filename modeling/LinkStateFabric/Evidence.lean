import LinkStateFabric.Digest
import LinkStateFabric.Ids
import LinkStateFabric.State
import LinkStateFabric.Lib.Sorting
import Mathlib.Data.Prod.Lex

/-!
# Evidence (`evidence.hpp`, `evidence.cpp`)

* `EvidenceKey`: the slot of a link that a record occupies, with the order of `operator<`.
* `EvidenceRecord`: an observation, and the bookkeeping the engine assigns on commit.
* `EvidenceDisposition`: what became of a record (`explanation.hpp`).
-/

namespace LinkState

open Codec (ByteEnum)
open Sorting

/-- What a piece of evidence observes. -/
inductive EvidenceKind where
  | carrierState | interfaceOperationalState | deviceReportedState | portReportedState
  | remoteEndpointState | controlPlaneHeartbeat | hardwareErrorIndication | lossErrorThreshold
  | administrativeState | syntheticTest | platformDiscovery
  deriving DecidableEq, Repr

namespace EvidenceKind

instance : ByteEnum EvidenceKind :=
  .ofValues [carrierState, interfaceOperationalState, deviceReportedState, portReportedState,
    remoteEndpointState, controlPlaneHeartbeat, hardwareErrorIndication, lossErrorThreshold,
    administrativeState, syntheticTest, platformDiscovery] (by intro a; cases a <;> decide)
    (by decide) (by decide)

def text : EvidenceKind → Text
  | carrierState => lit "CARRIER_STATE"
  | interfaceOperationalState => lit "INTERFACE_OPERATIONAL_STATE"
  | deviceReportedState => lit "DEVICE_REPORTED_STATE"
  | portReportedState => lit "PORT_REPORTED_STATE"
  | remoteEndpointState => lit "REMOTE_ENDPOINT_STATE"
  | controlPlaneHeartbeat => lit "CONTROL_PLANE_HEARTBEAT"
  | hardwareErrorIndication => lit "HARDWARE_ERROR_INDICATION"
  | lossErrorThreshold => lit "LOSS_ERROR_THRESHOLD"
  | administrativeState => lit "ADMINISTRATIVE_STATE"
  | syntheticTest => lit "SYNTHETIC_TEST"
  | platformDiscovery => lit "PLATFORM_DISCOVERY"

end EvidenceKind

/-- `evidence_precedence`: the tier of a kind; lower is stronger. -/
def evidencePrecedence : EvidenceKind → Nat
  | .administrativeState => 1
  | .hardwareErrorIndication => 2
  | .carrierState | .interfaceOperationalState | .deviceReportedState | .portReportedState
  | .controlPlaneHeartbeat | .lossErrorThreshold | .platformDiscovery => 3
  | .remoteEndpointState => 4
  | .syntheticTest => 5

/-- Where evidence comes from: the host, the synthetic backend, or a capability that is absent. -/
inductive EvidenceClass where
  | real | synthetic | unsupported
  deriving DecidableEq, Repr

instance : ByteEnum EvidenceClass :=
  .ofValues [.real, .synthetic, .unsupported]
    (by intro a; cases a <;> decide) (by decide) (by decide)

/-- The direction that evidence describes. -/
inductive EvidenceDirection where
  | bidirectional | transmit | receive
  deriving DecidableEq, Repr

namespace EvidenceDirection

instance : ByteEnum EvidenceDirection :=
  .ofValues [bidirectional, transmit, receive]
    (by intro a; cases a <;> decide) (by decide) (by decide)

def text : EvidenceDirection → Text
  | bidirectional => lit "BIDIRECTIONAL"
  | transmit => lit "TRANSMIT"
  | receive => lit "RECEIVE"

end EvidenceDirection

/-- The state that a source claims. -/
inductive EvidenceClaim where
  | unknown | up | down | degraded | adminDisabled | draining | faulted
  deriving DecidableEq, Repr

namespace EvidenceClaim

instance : ByteEnum EvidenceClaim :=
  .ofValues [unknown, up, down, degraded, adminDisabled, draining, faulted]
    (by intro a; cases a <;> decide) (by decide) (by decide)

def text : EvidenceClaim → Text
  | unknown => lit "UNKNOWN"
  | up => lit "UP"
  | down => lit "DOWN"
  | degraded => lit "DEGRADED"
  | adminDisabled => lit "ADMIN_DISABLED"
  | draining => lit "DRAINING"
  | faulted => lit "FAULTED"

end EvidenceClaim

/-- `claim_from_state`: the lifecycle states are not claims. -/
def claimFromState : LinkOperationalState → Option EvidenceClaim
  | .unknown => some .unknown
  | .up => some .up
  | .down => some .down
  | .degraded => some .degraded
  | .adminDisabled => some .adminDisabled
  | .draining => some .draining
  | .faulted => some .faulted
  | .revalidationRequired => none
  | .retired => none

/-- The impairment behind a DEGRADED classification. -/
inductive DegradationCause where
  | none | errorRateThresholdExceeded | reducedNegotiatedSpeed | partialLaneFailure
  | unstableCarrier | asymmetry | degradedOpticalSignal | restrictedForwarding
  | hardwareReportedImpairment
  deriving DecidableEq, Repr

instance : ByteEnum DegradationCause :=
  .ofValues [.none, .errorRateThresholdExceeded, .reducedNegotiatedSpeed, .partialLaneFailure,
    .unstableCarrier, .asymmetry, .degradedOpticalSignal, .restrictedForwarding,
    .hardwareReportedImpairment] (by intro a; cases a <;> decide) (by decide) (by decide)

/-- Why a record is, or is no longer, current. -/
inductive EvidenceStatus where
  | current | superseded | withdrawn | staleAuthority | staleTopology | staleSourceGeneration
  deriving DecidableEq, Repr

namespace EvidenceStatus

instance : ByteEnum EvidenceStatus :=
  .ofValues [current, superseded, withdrawn, staleAuthority, staleTopology, staleSourceGeneration]
    (by intro a; cases a <;> decide) (by decide) (by decide)

def text : EvidenceStatus → Text
  | current => lit "CURRENT"
  | superseded => lit "SUPERSEDED"
  | withdrawn => lit "WITHDRAWN"
  | staleAuthority => lit "STALE_AUTHORITY"
  | staleTopology => lit "STALE_TOPOLOGY"
  | staleSourceGeneration => lit "STALE_SOURCE_GENERATION"

end EvidenceStatus

/-! ## Keys -/

/-- The identity of an evidence slot. -/
structure EvidenceKey where
  link : LinkId := .null
  source : SourceId := .null
  endpoint : EndpointId := .null
  direction : EvidenceDirection := .bidirectional
  kind : EvidenceKind := .carrierState
  deriving DecidableEq

namespace EvidenceKey

/-- `operator<`. -/
def less (lhs rhs : EvidenceKey) : Bool :=
  if lhs.link ≠ rhs.link then lhs.link < rhs.link
  else if lhs.source ≠ rhs.source then lhs.source < rhs.source
  else if lhs.endpoint ≠ rhs.endpoint then lhs.endpoint < rhs.endpoint
  else if lhs.direction ≠ rhs.direction then
    ByteEnum.index lhs.direction < ByteEnum.index rhs.direction
  else ByteEnum.index lhs.kind < ByteEnum.index rhs.kind

/-- `EvidenceKey::to_string`. -/
def text (key : EvidenceKey) : Text :=
  lit "link=" ++ key.link.value ++ lit " source=" ++ key.source.value ++ lit " endpoint=" ++
    (if key.endpoint.valid then key.endpoint.value else lit "<link>") ++
    lit " direction=" ++ key.direction.text ++ lit " kind=" ++ key.kind.text

/-- The fields in the order in which `less` compares them. -/
def rank (key : EvidenceKey) : LinkId ×ₗ SourceId ×ₗ EndpointId ×ₗ Nat ×ₗ Nat :=
  toLex (key.link, toLex (key.source, toLex (key.endpoint,
    toLex (ByteEnum.index key.direction, ByteEnum.index key.kind))))

theorem rank_injective : Function.Injective rank := by
  intro a b h
  obtain ⟨a1, a2, a3, a4, a5⟩ := a
  obtain ⟨b1, b2, b3, b4, b5⟩ := b
  simp only [rank, toLex_inj, Prod.mk.injEq] at h
  obtain ⟨rfl, rfl, rfl, h4, h5⟩ := h
  rw [ByteEnum.index_injective h4, ByteEnum.index_injective h5]

end EvidenceKey

/-- One turn of a field by field comparison is one level of the lexicographic order. -/
theorem lex_step {α β : Type*} [PartialOrder α] [Preorder β] {a b : α} {x y : β} {d : Prop}
    [Decidable d] {c p : Bool} (hd : d ↔ a ≠ b) (hc : c = true ↔ a < b)
    (hp : a = b → (p = true ↔ x < y)) : (if d then c else p) = true ↔ toLex (a, x) < toLex (b, y) := by
  rw [Prod.Lex.toLex_lt_toLex]
  by_cases h : a = b
  · simp [hd, h, hp h]
  · simp [hd, h, hc]

theorem EvidenceKey.ranks_less : Ranks less rank := fun a b => by
  unfold less rank
  refine lex_step Iff.rfl decide_eq_true_iff fun _ => ?_
  refine lex_step Iff.rfl decide_eq_true_iff fun _ => ?_
  refine lex_step Iff.rfl decide_eq_true_iff fun _ => ?_
  exact lex_step ByteEnum.index_injective.ne_iff.symm decide_eq_true_iff fun _ => decide_eq_true_iff

/-! ## Records -/

/-- An observation that an authorized source published. -/
structure EvidenceRecord where
  key : EvidenceKey := {}
  observation : ObservationId := .null
  publisher : PublisherId := .null
  workerBoot : WorkerBootId := .null
  epoch : CoordinatorEpoch := .zero
  sourceGeneration : SourceGeneration := .zero
  sequence : U64 := 0
  topologyGeneration : TopologyGeneration := .zero
  endpointGeneration : EndpointGeneration := .zero
  evidenceClass : EvidenceClass := .real
  claim : EvidenceClaim := .unknown
  degradationCause : DegradationCause := .none
  observedAtUnixNanos : U64 := 0
  detail : Text := []
  metadata : Bytes := []
  status : EvidenceStatus := .current
  evidenceGeneration : EvidenceGeneration := .zero
  commitSequence : GlobalGeneration := .zero
  recordDigest : Digest := .zero
  deriving DecidableEq

namespace EvidenceRecord

/-- `operator==`: equality of the fields that carry meaning. -/
def same (lhs rhs : EvidenceRecord) : Bool :=
  lhs.key = rhs.key && lhs.observation = rhs.observation && lhs.publisher = rhs.publisher &&
    lhs.workerBoot = rhs.workerBoot && lhs.epoch = rhs.epoch &&
    lhs.sourceGeneration = rhs.sourceGeneration && lhs.sequence = rhs.sequence &&
    lhs.topologyGeneration = rhs.topologyGeneration &&
    lhs.endpointGeneration = rhs.endpointGeneration && lhs.evidenceClass = rhs.evidenceClass &&
    lhs.claim = rhs.claim && lhs.degradationCause = rhs.degradationCause &&
    lhs.detail = rhs.detail && lhs.metadata = rhs.metadata

/-- `compute_digest`. -/
def computeDigest (record : EvidenceRecord) : Digest :=
  let hasher := Hasher.new
    |>.updateText record.key.link.value
    |>.updateText record.key.source.value
    |>.updateText record.key.endpoint.value
    |>.updateEnum record.key.direction
    |>.updateEnum record.key.kind
    |>.updateText record.observation.value
    |>.updateText record.publisher.value
    |>.updateText record.workerBoot.value
    |>.updateU64 record.epoch.value
    |>.updateU64 record.sourceGeneration.value
    |>.updateU64 record.sequence
    |>.updateU64 record.topologyGeneration.value
    |>.updateU64 record.endpointGeneration.value
    |>.updateEnum record.evidenceClass
    |>.updateEnum record.claim
    |>.updateEnum record.degradationCause
    |>.updateText record.detail
    |>.updateU32 record.metadata.length
    |>.update record.metadata
  hasher.finalize

/-- The digest of a record is not part of what it covers. -/
theorem computeDigest_recordDigest (record : EvidenceRecord) (digest : Digest) :
    computeDigest { record with recordDigest := digest } = record.computeDigest := rfl

end EvidenceRecord

/-- The comparator of `digest_evidence_set`. -/
def digestLess (lhs rhs : EvidenceRecord) : Bool :=
  if lhs.key ≠ rhs.key then lhs.key.less rhs.key
  else if lhs.observation ≠ rhs.observation then lhs.observation < rhs.observation
  else lhs.sequence < rhs.sequence

/-- `digest_evidence_set`. -/
def digestEvidenceSet (records : List EvidenceRecord) : Digest :=
  let ordered := sortBy digestLess records
  (ordered.foldl (fun hasher record => hasher.update record.computeDigest.bytes)
    (Hasher.new.updateU32 ordered.length)).finalize

/-! ## Dispositions -/

/-- What happened to an evidence record. -/
structure EvidenceDisposition where
  observation : ObservationId := .null
  source : SourceId := .null
  publisher : PublisherId := .null
  workerBoot : WorkerBootId := .null
  kind : EvidenceKind := .carrierState
  direction : EvidenceDirection := .bidirectional
  claim : EvidenceClaim := .unknown
  evidenceClass : EvidenceClass := .real
  status : EvidenceStatus := .current
  precedence : Nat := 0
  counted : Bool := false
  reason : Text := []
  deriving DecidableEq

end LinkState
