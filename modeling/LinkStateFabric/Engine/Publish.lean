import LinkStateFabric.Engine.Support

/-!
# Evidence and explicit transitions (`engine_publish.cpp`)

* `publishEvidence`: `Impl.admit` makes every check, in the source's order, and `Edit.publish`
  applies what was admitted.
* `withdrawEvidence`, `transitionState` and `markRevalidationRequired`.
-/

namespace LinkState

open Sorting

/-! ## Admission -/

/-- `validate_observation`: `none`, or the error. -/
def validateObservation (observation : EvidenceRecord) (publication : PublicationId) : Option Text :=
  if !publication.valid then some (lit "publication identity is required")
  else if !observation.key.link.valid || !observation.key.source.valid then
    some (lit "evidence key link and source identities are required")
  else if !observation.observation.valid then some (lit "observation identity is required")
  else if !observation.publisher.valid || !observation.workerBoot.valid then
    some (lit "publisher and worker boot identities are required")
  else if observation.evidenceClass = .unsupported then
    some (lit "unsupported capability evidence cannot be published")
  else if observation.claim = .degraded ∧ observation.degradationCause = .none then
    some (lit "a DEGRADED claim requires a named degradation cause")
  else if observation.claim ≠ .degraded ∧ observation.degradationCause ≠ .none then
    some (lit "a degradation cause is only valid with a DEGRADED claim")
  else match validateText observation.detail limits.maxDetailLength with
    | some error => some error
    | none =>
      if limits.maxEvidenceMetadataBytes < observation.metadata.length then
        some (lit "evidence metadata exceeds the maximum size")
      else none

/-- `find_slot`. -/
def findSlot (entry : LinkEntry) (key : EvidenceKey) : Option EvidenceRecord :=
  entry.current.find? (·.key = key)

def checkLive (entry : LinkEntry) : Option Refusal :=
  if entry.record.state = .retired then
    some (.retiredLink, lit "link state record is retired and accepts no further evidence")
  else none

def checkTopology (entry : LinkEntry) (observation : EvidenceRecord) : Option Refusal :=
  let bound := entry.record.binding.topologyGeneration
  if observation.topologyGeneration ≠ bound then
    some (.staleTopology, lit "observation is bound to topology generation " ++
      observation.topologyGeneration.text ++ lit ", the current generation of link " ++
      observation.key.link.value ++ lit " is " ++ bound.text)
  else none

/-- The generation of an endpoint that a binding names. -/
def boundGeneration (binding : TopologyBinding) (endpoint : EndpointId) :
    Option EndpointGeneration :=
  if endpoint = binding.endpoints.localEndpoint then some binding.endpoints.localGeneration
  else if binding.endpoints.remote.valid ∧ endpoint = binding.endpoints.remote then
    some binding.endpoints.remoteGeneration
  else none

def checkEndpoint (entry : LinkEntry) (observation : EvidenceRecord) : Option Refusal :=
  if observation.key.endpoint.valid then
    match boundGeneration entry.record.binding observation.key.endpoint with
    | none => some (.malformedRequest,
        lit "endpoint is not bound to this link in the current topology")
    | some expected =>
      if observation.endpointGeneration ≠ expected then
        some (.staleTopology, lit "observation is bound to endpoint generation " ++
          observation.endpointGeneration.text ++ lit ", the current generation is " ++
          expected.text)
      else none
  else if !observation.endpointGeneration.isZero then
    some (.malformedRequest,
      lit "an endpoint generation requires an endpoint scoped observation")
  else none

def checkExpectedEvidence (entry : LinkEntry) (expected : Option EvidenceGeneration) :
    Option Refusal :=
  match expected with
  | none => none
  | some expected =>
    if expected ≠ entry.record.evidenceGeneration then
      some (.staleGeneration, lit "expected evidence generation " ++ expected.text ++
        lit " is not the current evidence generation " ++ entry.record.evidenceGeneration.text)
    else none

def checkExpectedState (entry : LinkEntry) (expected : Option LinkStateGeneration) :
    Option Refusal :=
  match expected with
  | none => none
  | some expected =>
    if expected ≠ entry.record.stateGeneration then
      some (.staleGeneration, lit "expected state generation " ++ expected.text ++
        lit " is not the current state generation " ++ entry.record.stateGeneration.text)
    else none

def checkObservation (store : EngineStore) (observation : EvidenceRecord) : Option Refusal :=
  match store.observations.lookup observation.observation with
  | none => none
  | some key =>
    if key ≠ observation.key then
      some (.malformedRequest, lit "observation identity is already used by a different evidence key")
    else none

/-- What the record in the slot of an observation says about it. -/
inductive SlotVerdict where
  | fresh
  | replay
  | stale (detail : Text)

def judgeSlot (slot observation : EvidenceRecord) : SlotVerdict :=
  if observation.sourceGeneration < slot.sourceGeneration then
    .stale (lit "source generation " ++ observation.sourceGeneration.text ++
      lit " is older than the recorded generation " ++ slot.sourceGeneration.text)
  else if observation.sourceGeneration = slot.sourceGeneration then
    if observation.sequence < slot.sequence then
      .stale (lit "observation sequence " ++ formatU64 observation.sequence ++
        lit " is older than the recorded sequence " ++ formatU64 slot.sequence)
    else if observation.sequence = slot.sequence then
      if !observation.same slot then
        .stale (lit "observation sequence is already consumed by different observation content")
      else .replay
    else .fresh
  else .fresh

/-- Whether an observation takes the place of a record: it has the same key, or the same source in
an older generation. -/
def supersedes (observation record : EvidenceRecord) : Bool :=
  record.key = observation.key ||
    (record.key.source = observation.key.source &&
      record.sourceGeneration < observation.sourceGeneration)

/-- The records of other keys that an observation takes the place of. -/
def purgedBy (entry : LinkEntry) (observation : EvidenceRecord) : List EvidenceRecord :=
  entry.current.filter fun record => record.key ≠ observation.key &&
    record.key.source = observation.key.source &&
    record.sourceGeneration < observation.sourceGeneration

def checkCapacity (config : EngineConfig) (entry : LinkEntry) (observation : EvidenceRecord) :
    Option Refusal :=
  if (findSlot entry observation.key).isNone ∧
      config.maxEvidencePerLink ≤ entry.current.length - (purgedBy entry observation).length then
    some (.resourceLimit, lit "evidence capacity of this link is exhausted")
  else none

/-- The checks that come before the slot is looked at. -/
def Impl.refusal (impl : Impl) (entry : LinkEntry) (request : PublishEvidenceRequest) :
    Option Refusal :=
  let observation := request.observation
  checkLive entry
    <|> authorize impl.store observation.publisher observation.workerBoot observation.key.source
      observation.epoch impl.epoch observation.key.link entry.record.binding
    <|> (backingStale impl entry.record.binding).map (fun detail => (.staleTopology, detail))
    <|> checkTopology entry observation
    <|> checkEndpoint entry observation
    <|> checkExpectedEvidence entry request.expectedEvidenceGeneration
    <|> checkExpectedState entry request.expectedStateGeneration
    <|> checkObservation impl.store observation

/-- The evidence of the link as it is to be when the observation is committed. -/
def prospectiveWith (entry : LinkEntry) (observation : EvidenceRecord) : List EvidenceRecord :=
  entry.current.filter (!supersedes observation ·) ++ [observation]

/-- What `publish_evidence` makes of a request before it changes anything. -/
inductive Admission where
  | malformed (detail : Text)
  | refused (refusal : Refusal)
  | replay (entry : LinkEntry)
  | admitted (entry : LinkEntry) (prepared : PreparedCommit)

/-- The checks of `publish_evidence`. -/
def Impl.admit (impl : Impl) (request : PublishEvidenceRequest) : Admission :=
  let observation := request.observation
  match validateObservation observation request.publication with
  | some error => .malformed error
  | none =>
    match impl.entryOf observation.key.link with
    | none => .refused (.unknownLink, lit "link is not bound in this engine")
    | some entry =>
      match impl.refusal entry request with
      | some refusal => .refused refusal
      | none =>
        match (findSlot entry observation.key).elim .fresh (judgeSlot · observation) with
        | .stale detail => .refused (.staleEvidence, detail)
        | .replay => .replay entry
        | .fresh =>
          match checkCapacity impl.config entry observation with
          | some refusal => .refused refusal
          | none =>
            let prepared := prepareCommit impl entry (prospectiveWith entry observation)
              .evidenceResolution
            if !prepared.ok then .refused (prepared.code, prepared.detail)
            else .admitted entry prepared

/-! ## Publication -/

/-- `note_rejection`. -/
def Impl.noteRejection (impl : Impl) (publisher : PublisherId) : Impl :=
  let impl := match impl.store.publishers.lookup publisher with
    | none => impl
    | some authority => impl.putAuthority publisher
        { authority with rejectedPublications := authority.rejectedPublications + 1 }
  { impl with counters.rejectedPublications := impl.counters.rejectedPublications + 1 }

/-- `note_rejection`'s counterpart for an accepted publication. -/
def Impl.noteAcceptance (impl : Impl) (publisher : PublisherId) : Impl :=
  let impl := match impl.store.publishers.lookup publisher with
    | none => impl
    | some authority => impl.putAuthority publisher
        { authority with acceptedPublications := authority.acceptedPublications + 1 }
  { impl with counters.committedPublications := impl.counters.committedPublications + 1 }

/-- Why records make way for an observation. -/
def explainPublication (observation : EvidenceRecord) : Explanation := fun record =>
  if record.key = observation.key then
    some (.superseded, lit "superseded by a newer observation of the same evidence key")
  else if record.key.source = observation.key.source ∧
      record.sourceGeneration < observation.sourceGeneration then
    some (.staleSourceGeneration,
      lit "source generation superseded by a newer incarnation of the same source")
  else none

/-- The record that is stored for an observation. -/
def Edit.storedRecord (t : Edit) (observation : EvidenceRecord) : EvidenceRecord :=
  let stored := { observation with
    status := .current
    commitSequence := t.impl.globalGeneration
    evidenceGeneration := t.entry.record.evidenceGeneration }
  { stored with recordDigest := stored.computeDigest }

/-- The observation becomes current, in the entry and in the indexes. -/
def Edit.storeEvidence (t : Edit) (observation : EvidenceRecord) : Edit where
  impl := { t.impl with
    store.observations := t.impl.store.observations.insert observation.observation observation.key
    store.publisherLinks := t.impl.store.publisherLinks.add observation.publisher
      observation.key.link }
  entry := { t.entry with
    current := sortBy evidenceLess (t.entry.current ++ [t.storedRecord observation]) }

/-- The observation is accepted: it becomes current, and its publisher is credited. -/
def Edit.accept (t : Edit) (observation : EvidenceRecord) : Edit :=
  let t := t.stampGlobal.storeEvidence observation
  { t with impl := t.impl.noteAcceptance observation.publisher }

/-- The result of a publication. -/
def publicationResult (prepared : PreparedCommit) (entry : LinkEntry) : LinkMutationResult :=
  if prepared.resolution.conflicted then
    resultFor .evidenceConflict
      (lit "evidence committed; current evidence conflicts so the link requires revalidation")
      entry prepared.stateChanged
  else resultFor .committed [] entry prepared.stateChanged

/-- The part of `publish_evidence` after its checks. -/
def Edit.publish (t : Edit) (request : PublishEvidenceRequest) (prepared : PreparedCommit) :
    Impl × LinkMutationResult :=
  let observation := request.observation
  let link := observation.key.link
  match (t.dropEvidence (explainPublication observation)).advanceAll [.global, .evidence] with
  | (t, false) => (t.commit link, failed .resourceLimit (lit "generation counter is exhausted"))
  | (t, true) =>
    let t := (t.accept observation).commitPrepared prepared request.publication observation.publisher
    (t.commit link, publicationResult prepared t.entry)

/-- `publish_evidence`. -/
def Impl.publishEvidence (impl : Impl) (request : PublishEvidenceRequest) :
    Impl × LinkMutationResult :=
  match impl.admit request with
  | .malformed detail => (impl, failed .malformedRequest detail)
  | .refused (code, detail) =>
    (impl.noteRejection request.observation.publisher, failed code detail)
  | .replay entry =>
    (impl, resultFor .idempotent (lit "exact replay of an already committed observation") entry
      false)
  | .admitted entry prepared => Edit.publish ⟨impl, entry⟩ request prepared

/-! ## Withdrawal -/

/-- The link leaves the index of the publisher when none of the publisher's evidence remains. -/
def Edit.releaseLink (t : Edit) (publisher : PublisherId) (link : LinkId) : Edit :=
  if t.entry.current.any (·.publisher = publisher) then t
  else { t with
    impl.store.publisherLinks := t.impl.store.publisherLinks.remove publisher link }

/-- What `withdraw_evidence` demands of the record in the slot. -/
def checkWithdrawal (slot : EvidenceRecord) (request : WithdrawEvidenceRequest) : Option Refusal :=
  if slot.publisher ≠ request.publisher ∨ slot.workerBoot ≠ request.workerBoot then
    some (.staleAuthority, lit "the current record of this evidence key is owned by another " ++
      lit "publisher incarnation")
  else if slot.observation ≠ request.observation then
    some (.malformedRequest,
      lit "withdrawal must reference the current observation of the evidence key")
  else if request.sourceGeneration < slot.sourceGeneration then
    some (.staleEvidence,
      lit "withdrawal source generation is older than the recorded generation")
  else if request.sequence ≤ slot.sequence then
    some (.staleEvidence, lit "withdrawal sequence must be newer than the sequence of the " ++
      lit "withdrawn observation")
  else none

def explainWithdrawal (request : WithdrawEvidenceRequest) : Explanation := fun record =>
  if record.key = request.key then
    some (.withdrawn, withReason (lit "withdrawn by its publisher") request.reason)
  else none

/-- The part of `withdraw_evidence` after its checks. -/
def Edit.withdraw (t : Edit) (request : WithdrawEvidenceRequest) (prepared : PreparedCommit) :
    Impl × LinkMutationResult :=
  let link := request.key.link
  match (t.dropEvidence (explainWithdrawal request)).advanceAll [.global, .evidence] with
  | (t, false) => (t.commit link, failed .resourceLimit (lit "generation counter is exhausted"))
  | (t, true) =>
    let t := t.stampGlobal.releaseLink request.publisher link
    let t := t.commitPrepared prepared .null request.publisher
    let t := { t with
      impl.counters.committedPublications := t.impl.counters.committedPublications + 1 }
    (t.commit link, resultFor .committed [] t.entry prepared.stateChanged)

/-- `withdraw_evidence`. -/
def Impl.withdrawEvidence (impl : Impl) (request : WithdrawEvidenceRequest) :
    Impl × LinkMutationResult :=
  if !request.key.link.valid || !request.key.source.valid || !request.observation.valid ||
      !request.publisher.valid || !request.workerBoot.valid then
    (impl, failed .malformedRequest
      (lit "evidence key, observation, publisher and worker boot are required"))
  else match impl.entryOf request.key.link with
    | none => (impl, failed .unknownLink (lit "link is not bound in this engine"))
    | some entry =>
      if entry.record.state = .retired then
        (impl, failed .retiredLink (lit "link state record is retired and accepts no withdrawal"))
      else match authorize impl.store request.publisher request.workerBoot request.key.source
        request.epoch impl.epoch request.key.link entry.record.binding with
      | some (code, error) => (impl, failed code error)
      | none =>
        match findSlot entry request.key with
        | none => (impl, failed .notFound (lit "evidence key has no current record on this link"))
        | some slot =>
          match checkWithdrawal slot request with
          | some (code, error) => (impl, failed code error)
          | none =>
            let prepared := prepareCommit impl entry
              (entry.current.filter (·.key ≠ request.key)) .evidenceWithdrawal
            if !prepared.ok then (impl, failed prepared.code prepared.detail)
            else Edit.withdraw ⟨impl, entry⟩ request prepared

/-! ## Explicit transitions -/

/-- The targets that `transition_state` admits besides UP: those that restrict a link. -/
def restrictive (target : LinkOperationalState) : Bool :=
  target = .adminDisabled || target = .draining || target = .down || target = .degraded ||
    target = .faulted

/-- The part of `transition_state` that records an intent, or lifts it. The prepared commit was
made against the entry with the new intent. -/
def Edit.changeIntent (t : Edit) (intent : Option AdministrativeIntent)
    (request : TransitionStateRequest) (prepared : PreparedCommit) (detail : Text) :
    Impl × LinkMutationResult :=
  match t.advanceAll [.global] with
  | (t, false) =>
    (t.commit request.link,
      failed .resourceLimit (lit "global generation counter is exhausted"))
  | (t, true) =>
    let intent := intent.map fun intent => { intent with generation := t.impl.globalGeneration }
    let t := { t.stampGlobal with entry.record.adminIntent := intent }
    let t := t.commitPrepared prepared request.publication request.publisher
    (t.commit request.link, resultFor .committed detail t.entry prepared.stateChanged)

/-- The branch of `transition_state` for UP: the intent is lifted. It is gone before the counter
advances. -/
def Edit.liftIntent (t : Edit) (request : TransitionStateRequest) : Impl × LinkMutationResult :=
  if t.entry.record.adminIntent.isNone then
    (t.impl, resultFor .noChange
      (lit "no administrative intent is in force; UP is established only by evidence") t.entry
      false)
  else
    let shadow := { t.entry with record.adminIntent := none }
    let prepared := prepareCommit t.impl shadow t.entry.current .revalidationOutcome
    if !prepared.ok then (t.impl, failed prepared.code prepared.detail)
    else (Edit.mk t.impl shadow).changeIntent none request prepared
      (lit "administrative intent cleared; the state now follows current evidence")

/-- The branch of `transition_state` that restricts the link. -/
def Edit.imposeIntent (t : Edit) (request : TransitionStateRequest) : Impl × LinkMutationResult :=
  let intent : AdministrativeIntent :=
    { state := request.target
      publication := request.publication
      publisher := request.publisher
      generation := t.impl.globalGeneration
      cause := request.degradationCause }
  let shadow := { t.entry with record.adminIntent := some intent }
  let prepared := prepareCommit t.impl shadow t.entry.current .explicitAdministrative
  if !prepared.ok then (t.impl, failed prepared.code prepared.detail)
  else t.changeIntent (some intent) request prepared
    (lit "administrative intent recorded (" ++ request.target.text ++ lit ")")

/-- `transition_state`. -/
def Impl.transitionState (impl : Impl) (request : TransitionStateRequest) :
    Impl × LinkMutationResult :=
  if !request.link.valid || !request.publication.valid || !request.publisher.valid ||
      !request.workerBoot.valid then
    (impl, failed .malformedRequest
      (lit "link, publication, publisher and worker boot are required"))
  else match impl.entryOf request.link with
    | none => (impl, failed .unknownLink (lit "link is not bound in this engine"))
    | some entry =>
      if entry.record.state = .retired then
        (impl, failed .retiredLink (lit "link state record is retired and terminal"))
      else if request.target = .unknown then
        (impl, failed .invalidTransition (lit "UNKNOWN is never asserted; it is reached only when " ++
          lit "no decisive evidence exists"))
      else if request.target = .revalidationRequired then
        (impl, failed .invalidTransition
          (lit "use mark_revalidation_required to require revalidation"))
      else match authorize impl.store request.publisher request.workerBoot .null request.epoch
        impl.epoch request.link entry.record.binding with
      | some (code, error) => (impl, failed code error)
      | none =>
        match checkExpectedState entry request.expectedStateGeneration with
        | some (code, error) => (impl, failed code error)
        | none =>
          if request.target = .up then Edit.liftIntent ⟨impl, entry⟩ request
          else if !restrictive request.target then
            (impl, failed .invalidTransition (lit "explicit transitions may only restrict a link"))
          else if request.target = .degraded ∧ request.degradationCause = .none then
            (impl, failed .malformedRequest
              (lit "an explicit DEGRADED transition requires a named degradation cause"))
          else Edit.imposeIntent ⟨impl, entry⟩ request

/-! ## Revalidation -/

def explainRevalidation (request : MarkRevalidationRequest) : Explanation := fun record =>
  if record.publisher = request.publisher then
    some (.withdrawn, withReason (lit "publisher requires revalidation") request.reason)
  else none

/-- The part of `mark_revalidation_required` after its checks. -/
def Edit.markRevalidation (t : Edit) (request : MarkRevalidationRequest)
    (prepared : PreparedCommit) : Impl × LinkMutationResult :=
  match ((t.dropEvidence (explainRevalidation request)).releaseLink request.publisher
    request.link).advanceAll [.global, .evidence] with
  | (t, false) =>
    (t.commit request.link, failed .resourceLimit (lit "generation counter is exhausted"))
  | (t, true) =>
    let t := t.stampGlobal.commitPrepared prepared request.publication request.publisher
    (t.commit request.link,
      resultFor .committed (withReason (lit "publisher requires revalidation") request.reason)
        t.entry prepared.stateChanged)

/-- `mark_revalidation_required`. -/
def Impl.markRevalidationRequired (impl : Impl) (request : MarkRevalidationRequest) :
    Impl × LinkMutationResult :=
  if !request.link.valid || !request.publication.valid || !request.publisher.valid ||
      !request.workerBoot.valid then
    (impl, failed .malformedRequest
      (lit "link, publication, publisher and worker boot are required"))
  else match impl.entryOf request.link with
    | none => (impl, failed .unknownLink (lit "link is not bound in this engine"))
    | some entry =>
      if entry.record.state = .retired then
        (impl, failed .retiredLink (lit "link state record is retired and terminal"))
      else match authorize impl.store request.publisher request.workerBoot .null request.epoch
        impl.epoch request.link entry.record.binding with
      | some (code, error) => (impl, failed code error)
      | none =>
        if request.expectedStateGeneration.any (· ≠ entry.record.stateGeneration) then
          (impl, failed .staleGeneration
            (lit "expected state generation is not the current state generation"))
        else if !entry.current.any (·.publisher = request.publisher) then
          (impl, resultFor .noChange (lit "publisher holds no current evidence for this link; " ++
            lit "nothing to invalidate") entry false)
        else
          let prepared := prepareCommit impl entry
            (entry.current.filter (·.publisher ≠ request.publisher)) .evidenceWithdrawal
          if !prepared.ok then (impl, failed prepared.code prepared.detail)
          else Edit.markRevalidation ⟨impl, entry⟩ request prepared

end LinkState
