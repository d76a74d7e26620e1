import LinkStateFabric.Engine.Store
import LinkStateFabric.Resolution

/-!
# Shared steps of the operations (`engine_support.cpp`)

* `Edit.advanceAll`: counters that advance one after the other, up to the first that cannot.
* The indexes of the store, and `Edit.dropEvidence`, the loop by which evidence stops being
  current.
* `authorize`, `backingStale`, `validBinding`: the checks that operations share.
* `prepareCommit` and `Edit.commitPrepared`: a resolution is checked, then applied.
-/

namespace LinkState

open Sorting

/-- `failed`, and `plain_result`. -/
def failed (code : OutcomeCode) (detail : Text) : LinkMutationResult :=
  { outcome := .make code detail }

/-- `make_view`. -/
def makeView (entry : LinkEntry) : LinkStateView where
  record := entry.record
  currentEvidence := entry.current.length
  retainedDispositions := entry.dispositions.length
  conflicted := entry.conflicted
  syntheticBacked := entry.syntheticBacked

/-- `result_for`. -/
def resultFor (code : OutcomeCode) (detail : Text) (entry : LinkEntry) (stateChanged : Bool) :
    LinkMutationResult where
  outcome :=
    { code, detail
      stateGeneration := entry.record.stateGeneration
      globalGeneration := entry.record.globalGeneration
      evidenceGeneration := entry.record.evidenceGeneration
      stateChanged }
  view := some (makeView entry)

/-! ## Counters -/

/-- The counters that an operation on an entry advances. -/
inductive Counter where
  | global | evidence | state | globalState
  deriving DecidableEq

namespace Edit

/-- `advance`: `none` when the counter is exhausted. -/
def advance (t : Edit) : Counter → Option Edit
  | .global => t.impl.globalGeneration.next.map fun g => { t with impl.globalGeneration := g }
  | .evidence => t.entry.record.evidenceGeneration.next.map fun g =>
    { t with entry.record.evidenceGeneration := g }
  | .state => t.entry.record.stateGeneration.next.map fun g =>
    { t with entry.record.stateGeneration := g }
  | .globalState => t.impl.globalStateGeneration.next.map fun g =>
    { t with impl.globalStateGeneration := g }

/-- A condition `!advance(a) || !advance(b) || ..`: the counters before the first that is exhausted
have advanced. -/
def advanceAll : List Counter → Edit → Edit × Bool
  | [], t => (t, true)
  | c :: cs, t => match t.advance c with
    | none => (t, false)
    | some t => advanceAll cs t

/-- The record takes the global generation. -/
def stampGlobal (t : Edit) : Edit :=
  { t with entry.record.globalGeneration := t.impl.globalGeneration }

end Edit

/-! ## Composed identifiers -/

def recordIdFor (link : LinkId) : Text := lit "lsr." ++ link.value

def transitionIdFor (link : LinkId) (generation : LinkStateGeneration) : Text :=
  lit "st." ++ link.value ++ lit "." ++ generation.text

def publicationIdFor (kind : Text) (sequence : Nat) : Text :=
  lit "pub." ++ kind ++ lit "." ++ formatU64 sequence

/-- The record takes the identifier of its latest transition. -/
def Edit.stampTransition (t : Edit) : Edit :=
  let id := transitionIdFor t.entry.record.binding.link t.entry.record.stateGeneration
  { t with entry.record.lastTransition := .fromValidated id }

/-- A text followed by the reason that a request gives, if it gives one. -/
def withReason (text reason : Text) : Text :=
  if reason.isEmpty then text else text ++ lit ": " ++ reason

/-! ## Bindings -/

/-- `same_structure`: everything but the topology generation. -/
def sameStructure (lhs rhs : TopologyBinding) : Bool :=
  lhs.fabric = rhs.fabric && lhs.site = rhs.site && lhs.link = rhs.link &&
    lhs.linkClass = rhs.linkClass && lhs.symmetry = rhs.symmetry &&
    lhs.endpoints = rhs.endpoints && lhs.memberLinks = rhs.memberLinks &&
    lhs.backingLinks = rhs.backingLinks

/-- `sort_links`. -/
def sortLinks (links : List LinkId) : List LinkId :=
  (links.insertionSort (· ≤ ·)).destutter (· ≠ ·)

/-- The lists of a binding as `bind_link` and `supersede_topology` write them. References are
sorted by their link alone. -/
def TopologyBinding.normalize (binding : TopologyBinding) : TopologyBinding :=
  { binding with
    memberLinks := sortLinks binding.memberLinks
    backingLinks := (sortBy (fun lhs rhs => lhs.link < rhs.link) binding.backingLinks).destutter
      (· ≠ ·) }

/-- `valid_binding`: `none`, or the error. -/
def validBinding (binding : TopologyBinding) : Option Text :=
  if !binding.link.valid then some (lit "link identity is missing or malformed")
  else if !binding.endpoints.localEndpoint.valid then
    some (lit "local endpoint identity is missing or malformed")
  else if binding.topologyGeneration.isZero then
    some (lit "topology generation must be greater than zero")
  else if binding.memberLinks.any (!·.valid) then some (lit "member link identity is malformed")
  else binding.backingLinks.findSome? fun backing =>
    if !backing.link.valid then some (lit "backing link identity is malformed")
    else if backing.generation.isZero then
      some (lit "backing link generation must be greater than zero")
    else none

/-- What is wrong with one backing reference. -/
def backingProblem (impl : Impl) (backing : BackingReference) : Option Text :=
  match impl.entryOf backing.link with
  | none => some (lit "backing link " ++ backing.link.value ++ lit " is not bound in this engine")
  | some entry =>
    if entry.record.state = .retired then
      some (lit "backing link " ++ backing.link.value ++ lit " is retired")
    else
      let current := entry.record.binding.topologyGeneration
      if current ≠ backing.generation then
        some (lit "backing link " ++ backing.link.value ++
          lit " was bound at topology generation " ++ backing.generation.text ++
          lit " but is now at generation " ++ current.text)
      else none

/-- `backing_stale`: the first problem among the backing references. -/
def backingStale (impl : Impl) (binding : TopologyBinding) : Option Text :=
  binding.backingLinks.findSome? (backingProblem impl)

/-! ## Indexes -/

/-- The endpoints under which a binding is filed. -/
def TopologyBinding.boundEndpoints (binding : TopologyBinding) : List EndpointId :=
  [binding.endpoints.localEndpoint, binding.endpoints.remote].filter (·.valid)

namespace EngineStore

/-- `index_link`. -/
def indexLink (store : EngineStore) (link : LinkId) (state : LinkOperationalState) : EngineStore :=
  { store with byState := store.byState.add state link }

/-- `reindex_state`. -/
def reindexState (store : EngineStore) (link : LinkId) (fromState toState : LinkOperationalState) :
    EngineStore :=
  if fromState = toState then store
  else { store with byState := (store.byState.remove fromState link).add toState link }

/-- `index_endpoints` and `index_dependents`, to add. -/
def indexBinding (store : EngineStore) (binding : TopologyBinding) : EngineStore :=
  { store with
    byEndpoint := store.byEndpoint.addAll binding.boundEndpoints binding.link
    dependents := store.dependents.addAll (binding.backingLinks.map (·.link)) binding.link }

/-- `index_endpoints` and `index_dependents`, to remove. -/
def unindexBinding (store : EngineStore) (binding : TopologyBinding) : EngineStore :=
  { store with
    byEndpoint := store.byEndpoint.removeAll binding.boundEndpoints binding.link
    dependents := store.dependents.removeAll (binding.backingLinks.map (·.link)) binding.link }

/-- `erase_observation`. -/
def eraseObservation (store : EngineStore) (record : EvidenceRecord) : EngineStore :=
  if store.observations.lookup record.observation = some record.key then
    { store with observations := store.observations.erase record.observation }
  else store

end EngineStore

/-- `push_disposition`: the newest first, as many as the cap admits. -/
def pushDisposition (config : EngineConfig) (entry : LinkEntry) (record : EvidenceRecord)
    (status : EvidenceStatus) (reason : Text) : LinkEntry :=
  let disposition : EvidenceDisposition :=
    { observation := record.observation
      source := record.key.source
      publisher := record.publisher
      workerBoot := record.workerBoot
      kind := record.key.kind
      direction := record.key.direction
      claim := record.claim
      evidenceClass := record.evidenceClass
      status
      precedence := evidencePrecedence record.key.kind
      counted := false
      reason }
  { entry with dispositions := (disposition :: entry.dispositions).take config.maxHistoryPerLink }

/-- `push_history`: the oldest first, as many as the cap admits. -/
def pushHistory (entry : LinkEntry) (history : StateHistoryEntry) (cap : Nat) : LinkEntry :=
  if cap = 0 then entry
  else
    let all := entry.record.history ++ [history]
    { entry with record.history := all.drop (all.length - cap) }

/-- Why a record stops being current; `none` for a record that stays. -/
abbrev Explanation := EvidenceRecord → Option (EvidenceStatus × Text)

/-- The body of a loop over the current evidence: a record that stops being current leaves a
disposition and its observation identity. -/
def Edit.dropRecord (explain : Explanation) (t : Edit) (record : EvidenceRecord) : Edit :=
  match explain record with
  | none => t
  | some (status, reason) =>
    { impl := { t.impl with store := t.impl.store.eraseObservation record }
      entry := pushDisposition t.impl.config t.entry record status reason }

/-- The loops that take records out of the current evidence. -/
def Edit.dropEvidence (t : Edit) (explain : Explanation) : Edit :=
  let t' := t.entry.current.foldl (dropRecord explain) t
  { t' with entry.current := t.entry.current.filter fun record => (explain record).isNone }

/-! ## Authorization -/

/-- `authorize`: `none`, or the code and the error of a refusal. -/
def authorize (store : EngineStore) (publisher : PublisherId) (workerBoot : WorkerBootId)
    (source : SourceId) (requestEpoch engineEpoch : CoordinatorEpoch) (link : LinkId)
    (binding : TopologyBinding) : Option Refusal :=
  match store.publishers.lookup publisher with
  | none => some (.unauthorizedPublisher, lit "publisher is not registered with this engine")
  | some authority =>
    if requestEpoch ≠ engineEpoch ∨ authority.epoch ≠ engineEpoch then
      some (.staleCoordinatorEpoch, lit "coordinator epoch " ++ requestEpoch.text ++
        lit " is not the current epoch " ++ engineEpoch.text)
    else if authority.workerBoot ≠ workerBoot then
      some (.staleAuthority, lit "worker boot " ++ workerBoot.value ++ lit " was superseded by " ++
        authority.workerBoot.value)
    else match authority.status with
      | .fenced => some (.staleAuthority, lit "publisher incarnation is fenced")
      | .superseded =>
        some (.staleAuthority, lit "publisher incarnation was superseded by a newer boot")
      | .epochSuperseded =>
        some (.staleCoordinatorEpoch,
          lit "publisher incarnation belongs to a superseded coordinator epoch")
      | .active =>
        if source.valid ∧ authority.source.valid ∧ source ≠ authority.source then
          some (.unauthorizedScope, lit "source " ++ source.value ++
            lit " is not the registered source of publisher " ++ publisher.value)
        else if authority.scope.fabric.valid ∧ binding.fabric.valid ∧
            authority.scope.fabric ≠ binding.fabric then
          some (.unauthorizedScope, lit "publisher authority does not cover fabric " ++
            binding.fabric.value)
        else if !authority.scope.covers link then
          some (.unauthorizedScope, lit "publisher authority does not cover link " ++ link.value)
        else none

/-! ## Resolutions are prepared, then committed -/

/-- A resolution that has been checked but not applied. -/
structure PreparedCommit where
  ok : Bool
  code : OutcomeCode
  detail : Text
  resolution : Resolution
  effectiveTrigger : TransitionTrigger
  targetState : LinkOperationalState
  stateChanged : Bool

/-- A resolution that names a state of its own accord. -/
def StateResultClass.decisive (resultClass : StateResultClass) : Bool :=
  resultClass ≠ .conflicted && resultClass ≠ .revalidationRequired &&
    resultClass ≠ .authoritativeUnknown && resultClass ≠ .retired

/-- The trigger under which a resolution is judged. -/
def effectiveTrigger (resultClass : StateResultClass) (trigger : TransitionTrigger) :
    TransitionTrigger :=
  if resultClass.decisive || resultClass = .authoritativeUnknown then .evidenceResolution
  else trigger

/-- `prepare_commit`. -/
def prepareCommit (impl : Impl) (entry : LinkEntry) (prospective : List EvidenceRecord)
    (trigger : TransitionTrigger) : PreparedCommit :=
  let resolution := resolveLinkState prospective entry.record
  let effective := effectiveTrigger resolution.resultClass trigger
  let target := resolution.state
  let prepared (ok : Bool) (code : OutcomeCode) (detail : Text) (stateChanged : Bool) :
      PreparedCommit :=
    { ok, code, detail, resolution, effectiveTrigger := effective, targetState := target
      stateChanged }
  if entry.record.state = .retired then
    prepared false .retiredLink (lit "link state record is retired and terminal") false
  else match evaluateTransition entry.record.state target effective with
    | .sameState => prepared true .committed [] false
    | .legal =>
      if entry.record.stateGeneration.next.isNone || impl.globalStateGeneration.next.isNone then
        prepared false .resourceLimit (lit "state generation counter is exhausted") true
      else prepared true .committed [] true
    | .fromRetired =>
      prepared false .retiredLink
        (lit "retired link state records never return to a live state") false
    | .retirementRequired =>
      prepared false .invalidTransition
        (lit "only an explicit retirement may retire a link state record") false
    | .triggerNotPermitted | .illegal =>
      prepared false .invalidTransition (lit "transition " ++ entry.record.state.text ++
        lit " -> " ++ target.text ++ lit " is not permitted for trigger " ++ effective.text) false

namespace Edit

/-- The fields that a commit takes from the resolution and the request. -/
def applyResolution (t : Edit) (resolution : Resolution) (publication : PublicationId)
    (publisher : PublisherId) : Edit :=
  { t with
    entry.conflicted := resolution.conflicted
    entry.syntheticBacked := resolution.syntheticBacked
    entry.record.provenanceDigest := digestEvidenceSet t.entry.current
    entry.record.lastPublication := publication
    entry.record.lastPublisher := publisher
    entry.record.resultClass := resolution.resultClass
    entry.record.degradationCause := resolution.cause }

/-- The change of state of a commit, after its counters have advanced. -/
def enterState (t : Edit) (target : LinkOperationalState) (history : StateHistoryEntry) : Edit :=
  let previous := t.entry.record.state
  let entry := { t.entry with
    record.state := target
    record.everEstablished := t.entry.record.everEstablished ||
      (target ≠ .unknown && target ≠ .revalidationRequired) }
  { impl := { t.impl with
      store := t.impl.store.reindexState t.entry.record.binding.link previous target
      counters.transitions := t.impl.counters.transitions + 1 }
    entry := pushHistory entry history t.impl.config.maxHistoryPerLink }

/-- The end of a commit. -/
def finishCommit (t : Edit) (code : OutcomeCode) : Edit :=
  { t.stampTransition with entry.record.lastOutcome := code }

/-- `commit_prepared`. -/
def commitPrepared (t : Edit) (prepared : PreparedCommit) (publication : PublicationId)
    (publisher : PublisherId) : Edit :=
  let t := t.applyResolution prepared.resolution publication publisher
  if prepared.stateChanged then
    let history : StateHistoryEntry :=
      { stateGeneration := t.entry.record.stateGeneration
        fromState := t.entry.record.state
        toState := prepared.targetState
        trigger := prepared.effectiveTrigger
        resultClass := prepared.resolution.resultClass
        cause := prepared.resolution.cause
        publication, publisher
        evidenceGeneration := t.entry.record.evidenceGeneration
        topologyGeneration := t.entry.record.binding.topologyGeneration
        outcome := .committed }
    match t.advanceAll [.state, .globalState] with
    | (t, false) => t
    | (t, true) => (t.enterState prepared.targetState history).finishCommit prepared.code
  else { t with entry.record.state := prepared.targetState }.finishCommit prepared.code

/-- `recompute_link`, with its code and whether the state changed. -/
def recomputeLink (t : Edit) (trigger : TransitionTrigger) (publication : PublicationId)
    (publisher : PublisherId) : Edit × OutcomeCode × Bool :=
  let prepared := prepareCommit t.impl t.entry t.entry.current trigger
  if prepared.ok then
    (t.commitPrepared prepared publication publisher, .committed, prepared.stateChanged)
  else (t, prepared.code, false)

end Edit

/-! ## Purging a link -/

/-- The body of the loops of `fence_publisher` and `invalidate_stale_dependents`: evidence of a
link that is explained away is dropped, and the link is resolved again. -/
def Impl.purgeLink (explain : Impl → LinkEntry → Explanation) (trigger : TransitionTrigger)
    (kind : Text) (impl : Impl) (link : LinkId) : Impl :=
  match impl.entryOf link with
  | none => impl
  | some entry =>
    if entry.current.all fun record => (explain impl entry record).isNone then impl
    else
      match (Edit.dropEvidence ⟨impl, entry⟩ (explain impl entry)).advanceAll
        [.evidence, .global] with
      | (t, false) => t.commit link
      | (t, true) =>
        let publication := .fromValidated (publicationIdFor kind t.impl.globalGeneration.value)
        (t.stampGlobal.recomputeLink trigger publication .null).1.commit link

end LinkState
