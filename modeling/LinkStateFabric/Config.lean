import LinkStateFabric.Ids
import LinkStateFabric.Lib.Sorting
import Mathlib.Data.List.Destutter

/-!
# Configuration and authority (`config.hpp`, `config.cpp`, `authority.hpp`, `authority.cpp`)

* `EngineConfig` and `PersistenceConfig` with their checks. A path is read as POSIX reads it.
* `AuthorityScope`: the links that a publisher may publish for.
-/

namespace LinkState

/-! ## Configuration -/

structure EngineConfig where
  maxLinks : Nat := limits.maxLinks
  maxEvidencePerLink : Nat := limits.maxEvidencePerLink
  maxPublishers : Nat := limits.maxPublishers
  maxRetainedSnapshots : Nat := limits.maxRetainedSnapshots
  maxHistoryPerLink : Nat := limits.maxHistoryPerLink
  maxBatchSize : Nat := limits.maxBatchSize
  fenceRetentionPerPublisher : Nat := 64
  initialEpoch : CoordinatorEpoch := .zero
  initialTopologyGeneration : TopologyGeneration := .zero
  retainHistory : Bool := true

/-- `EngineConfig::validate`: empty when valid, otherwise the reason. -/
def EngineConfig.validate (config : EngineConfig) : Text :=
  if config.maxLinks = 0 ∨ limits.maxLinks < config.maxLinks then
    lit "max_links must be between 1 and limits::max_links"
  else if config.maxEvidencePerLink = 0 ∨ limits.maxEvidencePerLink < config.maxEvidencePerLink then
    lit "max_evidence_per_link must be between 1 and limits::max_evidence_per_link"
  else if config.maxPublishers = 0 ∨ limits.maxPublishers < config.maxPublishers then
    lit "max_publishers must be between 1 and limits::max_publishers"
  else if limits.maxRetainedSnapshots < config.maxRetainedSnapshots then
    lit "max_retained_snapshots exceeds limits::max_retained_snapshots"
  else if limits.maxHistoryPerLink < config.maxHistoryPerLink then
    lit "max_history_per_link exceeds limits::max_history_per_link"
  else if config.maxBatchSize = 0 ∨ limits.maxBatchSize < config.maxBatchSize then
    lit "max_batch_size must be between 1 and limits::max_batch_size"
  else if config.fenceRetentionPerPublisher = 0 ∨ 4096 < config.fenceRetentionPerPublisher then
    lit "fence_retention_per_publisher must be between 1 and 4096"
  else []

/-- A configuration that passes its check. -/
def EngineConfig.Valid (config : EngineConfig) : Prop := config.validate = []

instance (config : EngineConfig) : Decidable config.Valid :=
  inferInstanceAs (Decidable (config.validate = []))

theorem EngineConfig.Valid.bounds {config : EngineConfig} (h : config.Valid) :
    0 < config.maxLinks ∧ config.maxLinks ≤ limits.maxLinks ∧
    0 < config.maxEvidencePerLink ∧ config.maxEvidencePerLink ≤ limits.maxEvidencePerLink ∧
    0 < config.maxPublishers ∧ config.maxPublishers ≤ limits.maxPublishers ∧
    config.maxRetainedSnapshots ≤ limits.maxRetainedSnapshots ∧
    config.maxHistoryPerLink ≤ limits.maxHistoryPerLink ∧
    0 < config.fenceRetentionPerPublisher ∧ config.fenceRetentionPerPublisher ≤ 4096 := by
  unfold Valid validate at h
  split at h
  · exact absurd h (by decide)
  split at h
  · exact absurd h (by decide)
  split at h
  · exact absurd h (by decide)
  split at h
  · exact absurd h (by decide)
  split at h
  · exact absurd h (by decide)
  split at h
  · exact absurd h (by decide)
  split at h
  · exact absurd h (by decide)
  omega

structure PersistenceConfig where
  path : Text := lit "linkstate.lsfjournal"
  maxRecords : Nat := limits.maxPersistedRecords
  includeHistory : Bool := false
  createParentDirectory : Bool := false

/-- `is_plain_path`. -/
def isPlainPath (path : Text) : Bool :=
  !path.isEmpty && !path.any fun ch => ch.toNat < 0x20 || ch.toNat = 0x7f

/-- The components of a path between its slashes. -/
def pathParts (path : Text) : List Text := path.splitOn (UInt8.ofNat (ascii '/'))

/-- `PersistenceConfig::validate`. -/
def PersistenceConfig.validate (config : PersistenceConfig) : Text :=
  let isAbsolute := config.path.head? = some (UInt8.ofNat (ascii '/'))
  let hasFilename := (pathParts config.path).getLast? ≠ some []
  if !isPlainPath config.path then lit "persistence path is empty or contains control characters"
  else if ¬isAbsolute ∧ (config.path = lit "." ∨ config.path = lit "..") then
    lit "persistence path must name a file"
  else if isAbsolute ∧ ¬hasFilename then lit "persistence path must name a file"
  else if lit ".." ∈ pathParts config.path then
    lit "persistence path must not contain relative traversal components"
  else if config.maxRecords = 0 ∨ limits.maxPersistedRecords < config.maxRecords then
    lit "max_records must be between 1 and limits::max_persisted_records"
  else []

/-- A configuration that passes its check. -/
def PersistenceConfig.Valid (config : PersistenceConfig) : Prop := config.validate = []

instance (config : PersistenceConfig) : Decidable config.Valid :=
  inferInstanceAs (Decidable (config.validate = []))

theorem PersistenceConfig.Valid.maxRecords_le {config : PersistenceConfig} (h : config.Valid) :
    config.maxRecords ≤ limits.maxPersistedRecords := by
  unfold Valid validate at h
  dsimp only at h
  split at h
  · exact absurd h (by decide)
  split at h
  · exact absurd h (by decide)
  split at h
  · exact absurd h (by decide)
  split at h
  · exact absurd h (by decide)
  split at h
  · exact absurd h (by decide)
  omega

/-! ## Authority -/

/-- The links that a publisher may publish for. -/
structure AuthorityScope where
  fabric : FabricId := .null
  links : List LinkId := []
  deriving DecidableEq

namespace AuthorityScope

/-- `covers`: the element that `std::lower_bound` finds is the link. -/
def covers (scope : AuthorityScope) (link : LinkId) : Bool :=
  scope.links.find? (fun l => !(l < link)) = some link

/-- `normalize`: sorts and removes duplicates; `none` when the result is empty or too large. -/
def normalize (scope : AuthorityScope) : Option AuthorityScope :=
  let links := (scope.links.insertionSort (· ≤ ·)).destutter (· ≠ ·)
  if links.isEmpty || limits.maxAuthorityScopeLinks < links.length then none
  else some { scope with links }

end AuthorityScope

/-- The lifecycle of a publisher incarnation. -/
inductive AuthorityStatus where
  | active | fenced | superseded | epochSuperseded
  deriving DecidableEq, Repr

structure PublisherRegistration where
  publisher : PublisherId := .null
  workerBoot : WorkerBootId := .null
  source : SourceId := .null
  scope : AuthorityScope := {}
  epoch : CoordinatorEpoch := .zero

/-- The engine's view of a publisher incarnation. -/
structure PublisherAuthority where
  publisher : PublisherId
  workerBoot : WorkerBootId
  source : SourceId
  scope : AuthorityScope
  epoch : CoordinatorEpoch
  generation : PublisherGeneration
  status : AuthorityStatus := .active
  acceptedPublications : U64 := 0
  rejectedPublications : U64 := 0
  deriving DecidableEq

/-- Why a publisher incarnation was fenced. -/
structure PublisherFence where
  publisher : PublisherId
  workerBoot : WorkerBootId
  epoch : CoordinatorEpoch
  reason : Text
  deriving DecidableEq

end LinkState
