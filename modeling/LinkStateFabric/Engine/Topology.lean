import LinkStateFabric.Engine.Support

/-!
# Topology operations (`engine.cpp`)

* `bindLink`, `supersedeTopology` and `retireLink`.
* `Edit.applyRebinding`: the structural change that the first two share.
* `Impl.invalidateStaleDependents`: evidence of links that reference a replaced link is dropped.
-/

namespace LinkState

open Sorting

/-! ## Dependents -/

/-- Evidence of a live link whose backing references are stale is stale as a whole. -/
def explainStaleDependent (impl : Impl) (entry : LinkEntry) : Explanation := fun _ =>
  if entry.record.state = .retired then none
  else (backingStale impl entry.record.binding).map fun reason => (.staleTopology, reason)

/-- `invalidate_stale_dependents`. -/
def Impl.invalidateStaleDependents (impl : Impl) (backingLink : LinkId) : Impl :=
  (listing (impl.store.dependents.bucket backingLink)).foldl
    (purgeLink explainStaleDependent .topologyInvalidation (lit "backing")) impl

/-! ## Rebinding -/

/-- Whether a record describes the structure of a binding. -/
def describesBinding (binding : TopologyBinding) (record : EvidenceRecord) : Bool :=
  if record.topologyGeneration ≠ binding.topologyGeneration then false
  else if record.key.endpoint.valid then
    if record.key.endpoint = binding.endpoints.localEndpoint then
      record.endpointGeneration = binding.endpoints.localGeneration
    else if binding.endpoints.remote.valid ∧ record.key.endpoint = binding.endpoints.remote then
      record.endpointGeneration = binding.endpoints.remoteGeneration
    else false
  else record.endpointGeneration.isZero

/-- Evidence that does not describe the new structure is stale. -/
def explainRebinding (binding : TopologyBinding) : Explanation := fun record =>
  if describesBinding binding record then none
  else some (.staleTopology, lit "bound to topology generation " ++
    record.topologyGeneration.text ++ lit ", current generation is " ++
    binding.topologyGeneration.text)

/-- The new binding becomes the binding of the record, in the record and in the indexes. -/
def Edit.rebind (t : Edit) (binding : TopologyBinding) : Edit where
  impl := { t.impl with
    store := (t.impl.store.unindexBinding t.entry.record.binding).indexBinding binding }
  entry := { t.entry with record.binding := binding }

/-- The engine's topology generation follows the newest binding. -/
def Edit.raiseTopology (t : Edit) : Edit :=
  if t.impl.topologyGeneration < t.entry.record.binding.topologyGeneration then
    { t with impl.topologyGeneration := t.entry.record.binding.topologyGeneration }
  else t

/-- `apply_rebinding`, for the entry of `link`. -/
def Edit.applyRebinding (t : Edit) (link : LinkId) (binding : TopologyBinding) (reason : Text) :
    Impl × LinkMutationResult :=
  let previousGeneration := t.entry.record.binding.topologyGeneration
  match ((t.dropEvidence (explainRebinding binding)).rebind binding).advanceAll
    [.evidence, .global] with
  | (t, false) => (t.commit link, failed .resourceLimit (lit "generation counter is exhausted"))
  | (t, true) =>
    let t := t.stampGlobal.raiseTopology
    let publication :=
      .fromValidated (publicationIdFor (lit "topology") t.impl.globalGeneration.value)
    match t.recomputeLink .topologyInvalidation publication .null with
    | (t, .committed, stateChanged) =>
      let detail := reason ++ lit " (topology generation " ++ previousGeneration.text ++
        lit " -> " ++ t.entry.record.binding.topologyGeneration.text ++ lit ")"
      ((t.commit link).invalidateStaleDependents t.entry.record.binding.link,
        resultFor .committed detail t.entry stateChanged)
    | (t, code, _) =>
      (t.commit link, failed code (lit "topology supersession could not be committed"))

/-! ## Operations -/

/-- The record of a link that is bound for the first time. -/
def newEntry (binding : TopologyBinding) : LinkEntry where
  record :=
    { record := .fromValidated (recordIdFor binding.link)
      binding
      durable := true
      provenanceDigest := digestEvidenceSet [] }

/-- The indexes of a link that is bound for the first time. -/
def Edit.indexNew (t : Edit) : Edit :=
  let binding := t.entry.record.binding
  { t with impl.store := (t.impl.store.indexLink binding.link .unknown).indexBinding binding }

/-- `bind_link` of a link that is not bound yet. -/
def Impl.bindNew (impl : Impl) (binding : TopologyBinding) : Impl × LinkMutationResult :=
  if impl.config.maxLinks ≤ impl.store.links.keys.card then
    (impl, failed .resourceLimit (lit "link capacity of this engine is exhausted"))
  else match (Edit.mk impl (newEntry binding)).advanceAll [.global] with
    | (_, false) => (impl, failed .resourceLimit (lit "global generation counter is exhausted"))
    | (t, true) =>
      let t := t.stampGlobal.stampTransition.indexNew.raiseTopology
      (t.commit binding.link, resultFor .committed [] t.entry false)

/-- `bind_link`. -/
def Impl.bindLink (impl : Impl) (request : BindLinkRequest) : Impl × LinkMutationResult :=
  let binding := request.binding.normalize
  match validBinding binding with
  | some error => (impl, failed .malformedRequest error)
  | none =>
    match impl.entryOf binding.link with
    | none => impl.bindNew binding
    | some entry =>
      let current := entry.record.binding.topologyGeneration
      if entry.record.state = .retired then
        (impl, failed .retiredLink (lit "link state record is retired; structural rebinding " ++
          lit "requires a new link identity or an explicit topology supersession"))
      else if binding.topologyGeneration < current then
        (impl, failed .staleTopology (lit "topology generation " ++
          binding.topologyGeneration.text ++ lit " is older than the bound generation " ++
          current.text))
      else if binding.topologyGeneration = current then
        if sameStructure entry.record.binding binding then
          (impl, resultFor .idempotent [] entry false)
        else
          (impl, failed .malformedRequest
            (lit "structural change requires a new topology generation"))
      else Edit.applyRebinding ⟨impl, entry⟩ binding.link binding
        (lit "topology generation advanced")

/-- The binding that a supersession asks for, or its error. -/
def supersedingBinding (request : SupersedeTopologyRequest) (bound : TopologyBinding) :
    Except Text TopologyBinding :=
  match request.replacement with
  | none => .ok { bound with topologyGeneration := request.newTopologyGeneration }
  | some replacement =>
    let binding := replacement.normalize
    match validBinding binding with
    | some error => .error error
    | none =>
      if binding.link ≠ request.link then
        .error (lit "replacement binding describes a different link identity")
      else .ok { binding with topologyGeneration := request.newTopologyGeneration }

/-- `supersede_topology`. -/
def Impl.supersedeTopology (impl : Impl) (request : SupersedeTopologyRequest) :
    Impl × LinkMutationResult :=
  if !request.link.valid then (impl, failed .malformedRequest (lit "link identity is malformed"))
  else match impl.entryOf request.link with
    | none => (impl, failed .unknownLink (lit "link is not bound in this engine"))
    | some entry =>
      let current := entry.record.binding.topologyGeneration
      if entry.record.state = .retired then
        (impl, failed .retiredLink (lit "link state record is retired and terminal"))
      else if !(current < request.newTopologyGeneration) then
        (impl, failed .staleTopology (lit "new topology generation " ++
          request.newTopologyGeneration.text ++ lit " must be greater than the bound generation " ++
          current.text))
      else match supersedingBinding request entry.record.binding with
        | .error error => (impl, failed .malformedRequest error)
        | .ok binding => Edit.applyRebinding ⟨impl, entry⟩ request.link binding
            (withReason (lit "topology supersession") request.reason)

/-- Every record of a retired link is superseded. -/
def explainRetirement : Explanation := fun _ =>
  some (.superseded, lit "link state record retired by explicit retirement")

/-- The record of a link enters `RETIRED`, after its counters have advanced. -/
def Edit.enterRetired (t : Edit) (request : RetireLinkRequest) : Edit :=
  let record := t.entry.record
  let history : StateHistoryEntry :=
    { stateGeneration := record.stateGeneration
      fromState := record.state
      toState := .retired
      trigger := .retirement
      resultClass := .retired
      publication := request.publication
      publisher := request.publisher
      evidenceGeneration := record.evidenceGeneration
      topologyGeneration := record.binding.topologyGeneration
      outcome := .committed }
  let entry := pushHistory t.entry history t.impl.config.maxHistoryPerLink
  Edit.stampTransition
    { impl := { t.impl with
        store := t.impl.store.reindexState record.binding.link record.state .retired
        counters.transitions := t.impl.counters.transitions + 1 }
      entry := { entry with
        record.state := .retired
        record.resultClass := .retired
        record.degradationCause := .none
        record.everEstablished := false
        record.lastPublication := request.publication
        record.lastPublisher := request.publisher
        record.lastOutcome := .committed
        conflicted := false } }

/-- `retire_link` of a live link, once every check has passed. -/
def Edit.retire (t : Edit) (request : RetireLinkRequest) : Impl × LinkMutationResult :=
  match (t.dropEvidence explainRetirement).advanceAll [.evidence, .global, .state, .globalState] with
  | (t, false) =>
    (t.commit request.link, failed .resourceLimit (lit "generation counter is exhausted"))
  | (t, true) =>
    let t := t.stampGlobal
    let t := { t with entry.record.provenanceDigest := digestEvidenceSet t.entry.current }
    let t := t.enterRetired request
    let impl := (t.commit request.link).invalidateStaleDependents t.entry.record.binding.link
    (impl, resultFor .committed (withReason (lit "link state record retired") request.reason)
      t.entry true)

/-- `retire_link`. -/
def Impl.retireLink (impl : Impl) (request : RetireLinkRequest) : Impl × LinkMutationResult :=
  if !request.link.valid || !request.publication.valid then
    (impl, failed .malformedRequest
      (lit "link identity and publication identity are required"))
  else match impl.entryOf request.link with
    | none => (impl, failed .unknownLink (lit "link is not bound in this engine"))
    | some entry =>
      match authorize impl.store request.publisher request.workerBoot .null request.epoch impl.epoch
        request.link entry.record.binding with
      | some (code, error) => (impl, failed code error)
      | none =>
        if entry.record.state = .retired then
          (impl, resultFor .idempotent (lit "link state record is already retired") entry false)
        else if request.topologyGeneration < entry.record.binding.topologyGeneration then
          (impl, failed .staleTopology (lit "retirement refers to an older topology generation"))
        else if evaluateTransition entry.record.state .retired .retirement ≠ .legal then
          (impl, failed .invalidTransition
            (lit "retirement is not permitted from the current state"))
        else Edit.retire ⟨impl, entry⟩ request

end LinkState
