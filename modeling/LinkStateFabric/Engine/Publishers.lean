import LinkStateFabric.Engine.Support

/-!
# Publisher authority (`engine.cpp`)

* `Impl.fencePublisher`: an incarnation is fenced and the evidence it owns is dropped.
* `registerPublisher`, `invalidatePublisher` and `advanceCoordinatorEpoch`, which fence.
* `reconcile`: every live link is resolved again.
-/

namespace LinkState

open Sorting

/-! ## Fencing -/

/-- The boots of a publisher that are remembered as fenced, oldest first. -/
def Impl.fencedBoots (impl : Impl) (publisher : PublisherId) : List WorkerBootId :=
  (impl.store.fencedBoots.lookup publisher).getD []

/-- `boot_is_fenced`. -/
def Impl.bootIsFenced (impl : Impl) (publisher : PublisherId) (boot : WorkerBootId) : Bool :=
  boot ∈ impl.fencedBoots publisher

/-- A registry of fenced boots takes one more: nothing changes if it is there, and the oldest
leave when there are more than the cap. -/
def rememberBoot (cap : Nat) (registry : List WorkerBootId) (boot : WorkerBootId) :
    List WorkerBootId :=
  if boot ∈ registry then registry
  else (registry ++ [boot]).drop (registry.length + 1 - cap)

/-- `remember_fenced_boot`. -/
def Impl.rememberFencedBoot (impl : Impl) (publisher : PublisherId) (boot : WorkerBootId) : Impl :=
  { impl with
    store.fencedBoots := impl.store.fencedBoots.insert publisher
      (rememberBoot impl.config.fenceRetentionPerPublisher (impl.fencedBoots publisher) boot) }

/-- The publisher's authority takes a status. -/
def Impl.setAuthorityStatus (impl : Impl) (publisher : PublisherId) (status : AuthorityStatus) :
    Impl :=
  match impl.store.publishers.lookup publisher with
  | none => impl
  | some authority => impl.putAuthority publisher { authority with status }

/-- The fence is recorded; as many are kept as there may be publishers. -/
def Impl.recordFence (impl : Impl) (fence : PublisherFence) : Impl :=
  let fences := impl.store.fences ++ [fence]
  { impl with store.fences := fences.drop (fences.length - impl.config.maxPublishers) }

/-- Evidence of a fenced incarnation is stale. -/
def explainFence (publisher : PublisherId) (boot : WorkerBootId) (allBoots : Bool) (reason : Text) :
    Explanation := fun record =>
  if record.publisher = publisher ∧ (allBoots ∨ record.workerBoot = boot) then
    some (.staleAuthority, reason ++ lit " (worker boot " ++ record.workerBoot.value ++ lit ")")
  else none

/-- The publisher has current evidence on the link. -/
def Impl.hasEvidenceOf (impl : Impl) (publisher : PublisherId) (link : LinkId) : Bool :=
  (impl.entryOf link).any fun entry => entry.current.any (·.publisher = publisher)

/-- The part of `fence_publisher` about the publisher: the boot is remembered, the authority takes
the status, and the fence is recorded. -/
def Impl.noteFence (impl : Impl) (publisher : PublisherId) (boot : WorkerBootId)
    (status : AuthorityStatus) (reason : Text) : Impl :=
  let impl := if boot.valid then impl.rememberFencedBoot publisher boot else impl
  let impl := impl.setAuthorityStatus publisher status
  impl.recordFence { publisher, workerBoot := boot, epoch := impl.epoch, reason }

/-- The loop of `fence_publisher` over the links of the publisher. -/
def Impl.purgePublisher (impl : Impl) (publisher : PublisherId) (boot : WorkerBootId)
    (allBoots : Bool) (reason : Text) : Impl :=
  (listing (impl.store.publisherLinks.bucket publisher)).foldl
    (purgeLink (fun _ _ => explainFence publisher boot allBoots reason) .publisherFenced
      (lit "fence")) impl

/-- The links on which the publisher has no evidence any more leave its index. -/
def Impl.releasePublisher (impl : Impl) (publisher : PublisherId) : Impl :=
  { impl with
    store.publisherLinks := impl.store.publisherLinks.restrict publisher
      (impl.hasEvidenceOf publisher) }

/-- `fence_publisher`. -/
def Impl.fencePublisher (impl : Impl) (publisher : PublisherId) (boot : WorkerBootId)
    (allBoots : Bool) (status : AuthorityStatus) (reason : Text) : Impl :=
  let impl := impl.noteFence publisher boot status reason
  (impl.purgePublisher publisher boot allBoots reason).releasePublisher publisher

/-! ## Operations -/

/-- The registration of a publisher that is known under another boot: the old incarnation is
fenced. -/
def Impl.supersedeBoot (impl : Impl) (registration : PublisherRegistration)
    (authority : PublisherAuthority) : Impl × LinkMutationResult :=
  let impl := impl.fencePublisher registration.publisher authority.workerBoot true .superseded
    (lit "superseded by worker boot " ++ registration.workerBoot.value)
  match authority.generation.next with
  | none => (impl, failed .resourceLimit (lit "publisher generation is exhausted"))
  | some generation =>
    (impl.putAuthority registration.publisher
      { publisher := registration.publisher
        workerBoot := registration.workerBoot
        source := registration.source
        scope := registration.scope
        epoch := impl.epoch
        generation },
      failed .committed
        (lit "worker incarnation superseded; previous evidence is no longer current"))

/-- The registration of a publisher whose identities, scope and epoch are accepted. -/
def Impl.admitRegistration (impl : Impl) (registration : PublisherRegistration) :
    Impl × LinkMutationResult :=
  match impl.store.publishers.lookup registration.publisher with
  | some authority =>
    if authority.workerBoot = registration.workerBoot then
      match authority.generation.next with
      | none => (impl, failed .resourceLimit (lit "publisher generation is exhausted"))
      | some generation =>
        (impl.putAuthority registration.publisher
          { authority with
            generation
            scope := registration.scope
            source := registration.source },
          failed .committed (lit "publisher incarnation refreshed"))
    else impl.supersedeBoot registration authority
  | none =>
    if impl.config.maxPublishers ≤ impl.store.publishers.keys.card then
      (impl, failed .resourceLimit (lit "publisher capacity is exhausted"))
    else
      (impl.putAuthority registration.publisher
        { publisher := registration.publisher
          workerBoot := registration.workerBoot
          source := registration.source
          scope := registration.scope
          epoch := impl.epoch
          generation := .fromValue 1 },
        failed .committed (lit "publisher incarnation registered"))

/-- `register_publisher`. -/
def Impl.registerPublisher (impl : Impl) (request : RegisterPublisherRequest) :
    Impl × LinkMutationResult :=
  let registration := request.registration
  if !registration.publisher.valid || !registration.workerBoot.valid ||
      !registration.source.valid then
    (impl, failed .malformedRequest
      (lit "publisher, worker boot and source identities are required"))
  else match registration.scope.normalize with
    | none =>
      (impl, failed .resourceLimit
        (lit "authority scope is empty or exceeds the maximum number of links"))
    | some scope =>
      if registration.epoch ≠ impl.epoch then
        (impl, failed .staleCoordinatorEpoch (lit "registration epoch " ++
          registration.epoch.text ++ lit " is not the current coordinator epoch " ++
          impl.epoch.text))
      else if impl.bootIsFenced registration.publisher registration.workerBoot then
        (impl, failed .staleAuthority (lit "worker boot " ++ registration.workerBoot.value ++
          lit " was fenced and can never become active again; a restarted worker must present a " ++
            lit "fresh boot identity"))
      else impl.admitRegistration { registration with scope }

/-- `invalidate_publisher`. -/
def Impl.invalidatePublisher (impl : Impl) (request : InvalidatePublisherRequest) :
    Impl × LinkMutationResult :=
  if !request.publisher.valid then
    (impl, failed .malformedRequest (lit "publisher identity is malformed"))
  else match impl.store.publishers.lookup request.publisher with
    | none =>
      (impl, failed .unauthorizedPublisher (lit "publisher is not registered with this engine"))
    | some authority =>
      if request.workerBoot.any (· ≠ authority.workerBoot) then
        (impl, failed .staleAuthority (lit "the requested worker boot was already superseded"))
      else if authority.status ≠ .active then
        (impl, failed .idempotent (lit "publisher incarnation is already fenced"))
      else if request.epoch ≠ impl.epoch then
        (impl, failed .staleCoordinatorEpoch
          (lit "invalidation epoch is not the current coordinator epoch"))
      else
        let reason := withReason (lit "publisher invalidated") request.reason
        (impl.fencePublisher request.publisher authority.workerBoot true .fenced reason,
          failed .committed
            (lit "publisher incarnation fenced; its evidence is no longer current"))

/-- The publishers whose registration is older than the epoch. -/
def Impl.stalePublishers (impl : Impl) : List PublisherId :=
  listing (impl.store.publishers.keys.filter fun publisher =>
    (impl.store.publishers.lookup publisher).any (·.epoch < impl.epoch))

/-- The body of the loop of `advance_coordinator_epoch`. -/
def Impl.fenceStale (impl : Impl) (publisher : PublisherId) : Impl :=
  match impl.store.publishers.lookup publisher with
  | none => impl
  | some authority =>
    impl.fencePublisher publisher authority.workerBoot true .epochSuperseded
      (lit "coordinator epoch advanced to " ++ impl.epoch.text)

/-- `advance_coordinator_epoch`. -/
def Impl.advanceCoordinatorEpoch (impl : Impl) (request : AdvanceEpochRequest) :
    Impl × LinkMutationResult :=
  if request.newEpoch < impl.epoch then
    (impl, failed .staleGeneration (lit "coordinator epoch " ++ request.newEpoch.text ++
      lit " is older than the current epoch " ++ impl.epoch.text))
  else if request.newEpoch = impl.epoch then
    (impl, failed .idempotent (lit "coordinator epoch is already current"))
  else
    let impl := { impl with epoch := request.newEpoch }
    let stale := impl.stalePublishers
    (stale.foldl fenceStale impl,
      failed .committed (lit "coordinator epoch advanced to " ++ impl.epoch.text ++ lit "; " ++
        formatU64 stale.length ++ lit " publisher incarnations were superseded"))

/-- The body of the loop of `reconcile`: the engine, and the number of changes of state so far. -/
def Impl.reconcileLink (p : Impl × Nat) (link : LinkId) : Impl × Nat :=
  match p.1.entryOf link with
  | none => p
  | some entry =>
    if entry.record.state = .retired then p
    else
      let publication :=
        .fromValidated (publicationIdFor (lit "reconcile") p.1.globalGeneration.value)
      match (Edit.mk p.1 entry).recomputeLink .evidenceResolution publication .null with
      | (t, .committed, stateChanged) => (t.commit link, if stateChanged then p.2 + 1 else p.2)
      | (t, _, _) => (t.commit link, p.2)

/-- `reconcile`. -/
def Impl.reconcile (impl : Impl) : Impl × Outcome :=
  let links := listing impl.store.links.keys
  let (impl, changed) := links.foldl reconcileLink (impl, 0)
  (impl, .make .committed (lit "reconciled " ++ formatU64 links.length ++ lit " links, " ++
    formatU64 changed ++ lit " state changes"))

end LinkState
