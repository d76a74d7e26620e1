import LinkStateFabric.Engine.Outcomes

/-!
# The shelf of snapshots

* `Impl.shelf`: the snapshots that an engine retains, and their counter.
* `apply_shelf`: only a snapshot and a load touch it.
-/

namespace LinkState

/-- What an engine has of the snapshots that were taken. -/
structure Shelf where
  snapshots : Finmap fun _ : SnapshotId => Snapshot
  order : List SnapshotId
  counter : Nat
  cap : Nat

/-- The shelf of an engine: its snapshots, their order and counter, and how many it retains. -/
def Impl.shelf (impl : Impl) : Shelf where
  snapshots := impl.store.snapshots
  order := impl.store.snapshotOrder
  counter := impl.snapshotCounter
  cap := impl.config.maxRetainedSnapshots

/-! ## Edits -/

namespace Edit

variable (t : Edit)

@[simp] theorem shelf_commit (link : LinkId) : (t.commit link).shelf = t.impl.shelf := rfl

@[simp] theorem shelf_stampGlobal : t.stampGlobal.impl.shelf = t.impl.shelf := rfl

@[simp] theorem shelf_stampTransition : t.stampTransition.impl.shelf = t.impl.shelf := rfl

@[simp] theorem shelf_indexNew : t.indexNew.impl.shelf = t.impl.shelf := rfl

@[simp] theorem shelf_rebind (binding : TopologyBinding) :
    (t.rebind binding).impl.shelf = t.impl.shelf := rfl

@[simp] theorem shelf_raiseTopology : t.raiseTopology.impl.shelf = t.impl.shelf := by
  unfold raiseTopology
  split <;> rfl

/-- No counter that an edit advances is that of the snapshots. -/
theorem shelf_advanceAll (cs : List Counter) : (t.advanceAll cs).1.impl.shelf = t.impl.shelf := by
  induction cs generalizing t with
  | nil => rfl
  | cons c cs ih =>
    unfold advanceAll
    cases hc : t.advance c with
    | none => rfl
    | some t' =>
      refine (ih t').trans ?_
      cases c
      all_goals
        obtain ⟨_, -, rfl⟩ := Option.map_eq_some_iff.mp hc
        rfl

/-- Evidence that is dropped leaves dispositions, and no snapshot. -/
@[simp] theorem shelf_dropEvidence (explain : Explanation) :
    (t.dropEvidence explain).impl.shelf = t.impl.shelf := by
  obtain ⟨_, _, heq, -⟩ := t.dropEvidence_eq explain
  rw [heq]
  rfl

theorem shelf_of_advanceAll {t' : Edit} {cs : List Counter} {b : Bool}
    (h : t.advanceAll cs = (t', b)) : t'.impl.shelf = t.impl.shelf := by
  rw [← shelf_advanceAll t cs, h]

/-- A change of state touches the entry and the index of the states. -/
@[simp] theorem shelf_enterState (target : LinkOperationalState) (history : StateHistoryEntry) :
    (t.enterState target history).impl.shelf = t.impl.shelf := by
  unfold enterState EngineStore.reindexState
  dsimp only
  split <;> rfl

@[simp] theorem shelf_finishCommit (code : OutcomeCode) :
    (t.finishCommit code).impl.shelf = t.impl.shelf := rfl

/-- A commit leaves the shelf, whether or not its counters are exhausted. -/
@[simp] theorem shelf_commitPrepared (prepared : PreparedCommit) (publication : PublicationId)
    (publisher : PublisherId) :
    (t.commitPrepared prepared publication publisher).impl.shelf = t.impl.shelf := by
  unfold commitPrepared
  dsimp only
  split
  · split
    · rename_i hc
      exact (shelf_of_advanceAll _ hc :)
    · rename_i hc
      rw [shelf_finishCommit, shelf_enterState, shelf_of_advanceAll _ hc]
      rfl
  · rfl

/-- A link that is resolved again is committed, or left. -/
@[simp] theorem shelf_recomputeLink (trigger : TransitionTrigger) (publication : PublicationId)
    (publisher : PublisherId) :
    (t.recomputeLink trigger publication publisher).1.impl.shelf = t.impl.shelf := by
  unfold recomputeLink
  dsimp only
  split
  · exact shelf_commitPrepared ..
  · rfl

@[simp] theorem shelf_releaseLink (publisher : PublisherId) (link : LinkId) :
    (t.releaseLink publisher link).impl.shelf = t.impl.shelf := by
  unfold releaseLink
  split <;> rfl

@[simp] theorem shelf_noteAcceptance (impl : Impl) (publisher : PublisherId) :
    (impl.noteAcceptance publisher).shelf = impl.shelf := by
  unfold Impl.noteAcceptance
  dsimp only
  split <;> rfl

@[simp] theorem shelf_accept (observation : EvidenceRecord) :
    (t.accept observation).impl.shelf = t.impl.shelf :=
  shelf_noteAcceptance ..

@[simp] theorem shelf_enterRetired (request : RetireLinkRequest) :
    (t.enterRetired request).impl.shelf = t.impl.shelf := by
  unfold enterRetired EngineStore.reindexState
  dsimp only
  split <;> rfl

end Edit

/-! ## Purges -/

section Engine

variable (impl : Impl)

/-- A purge leaves the shelf, whichever of its branches is taken. -/
@[simp] theorem shelf_purgeLink (explain : Impl → LinkEntry → Explanation)
    (trigger : TransitionTrigger) (kind : Text) (link : LinkId) :
    (impl.purgeLink explain trigger kind link).shelf = impl.shelf := by
  unfold Impl.purgeLink
  split
  · rfl
  split
  · rfl
  split
  all_goals
    rename_i hc
    have hcounted := Edit.shelf_of_advanceAll _ hc
    simpa using hcounted

/-- What leaves the shelf leaves it in a loop. -/
theorem shelf_foldl {α : Type} {f : Impl → α → Impl} (h : ∀ impl a, (f impl a).shelf = impl.shelf)
    (l : List α) : (l.foldl f impl).shelf = impl.shelf := by
  induction l generalizing impl with
  | nil => rfl
  | cons a l ih => exact (ih _).trans (h impl a)

@[simp] theorem shelf_invalidateStaleDependents (link : LinkId) :
    (impl.invalidateStaleDependents link).shelf = impl.shelf :=
  shelf_foldl impl (fun impl link => shelf_purgeLink impl _ _ _ link) _

/-- A fence is noted, and then the links of the publisher are purged. -/
@[simp] theorem shelf_fencePublisher (publisher : PublisherId) (boot : WorkerBootId)
    (allBoots : Bool) (status : AuthorityStatus) (reason : Text) :
    (impl.fencePublisher publisher boot allBoots status reason).shelf = impl.shelf := by
  have hpurge : (impl.fencePublisher publisher boot allBoots status reason).shelf =
      (impl.noteFence publisher boot status reason).shelf :=
    shelf_foldl _ (fun impl link => shelf_purgeLink impl _ _ _ link) _
  rw [hpurge]
  unfold Impl.noteFence Impl.setAuthorityStatus
  dsimp only
  split <;> split <;> rfl

/-! ## Operations -/

/-- A link that is bound anew advances its counters, and is resolved again. -/
theorem shelf_applyRebinding (entry : LinkEntry) (link : LinkId) (binding : TopologyBinding)
    (reason : Text) :
    (Edit.applyRebinding ⟨impl, entry⟩ link binding reason).1.shelf = impl.shelf := by
  unfold Edit.applyRebinding
  dsimp only
  split
  · rename_i hc
    simpa using Edit.shelf_of_advanceAll _ hc
  rename_i t hc
  have hcounted := Edit.shelf_of_advanceAll _ hc
  have hrecompute := Edit.shelf_recomputeLink t.stampGlobal.raiseTopology .topologyInvalidation
    (.fromValidated (publicationIdFor (lit "topology")
      t.stampGlobal.raiseTopology.impl.globalGeneration.value)) .null
  split
  all_goals
    rename_i heq
    rw [heq] at hrecompute
    simpa using hrecompute.trans (by simpa using hcounted)

/-- A request that is declined counts a rejection at most. -/
theorem Declined.shelf {p : Impl × LinkMutationResult} (h : Declined impl p) :
    p.1.shelf = impl.shelf := by
  rcases h.impl with heq | ⟨publisher, heq⟩
  · rw [heq]
  · rw [heq]
    unfold Impl.noteRejection
    dsimp only
    split <;> rfl

/-- A new binding is filed; one of a known link is a rebinding. -/
theorem shelf_bindLink (request : BindLinkRequest) :
    (impl.bindLink request).1.shelf = impl.shelf := by
  rcases bindLink_outcome impl request with hdeclined | ⟨heq, -⟩ | ⟨-, heq⟩ | ⟨entry, -, -, heq⟩
  · exact hdeclined.shelf
  · rw [heq]
  · rw [heq]
    unfold Impl.bindNew
    split
    · rfl
    split
    · rfl
    · rename_i hc
      simpa using Edit.shelf_of_advanceAll _ hc
  · rw [heq]
    exact shelf_applyRebinding ..

theorem shelf_supersedeTopology (request : SupersedeTopologyRequest) :
    (impl.supersedeTopology request).1.shelf = impl.shelf := by
  rcases supersedeTopology_outcome impl request with hdeclined | ⟨entry, binding, -, -, -, heq⟩
  · exact hdeclined.shelf
  · rw [heq]
    exact shelf_applyRebinding ..

/-- A retirement also invalidates what depends on the link. -/
theorem shelf_retireLink (request : RetireLinkRequest) :
    (impl.retireLink request).1.shelf = impl.shelf := by
  rcases retireLink_outcome impl request with hdeclined | ⟨heq, -⟩ | ⟨entry, -, heq⟩
  · exact hdeclined.shelf
  · rw [heq]
  · rw [heq]
    unfold Edit.retire
    split
    · rename_i hc
      simpa using Edit.shelf_of_advanceAll _ hc
    · rename_i hc
      have hcounted := Edit.shelf_of_advanceAll _ hc
      rw [shelf_invalidateStaleDependents, Edit.shelf_commit, Edit.shelf_enterRetired]
      simpa using hcounted

/-- An admitted observation is committed with its counters, or its edit is cut short. -/
theorem shelf_publishEvidence (request : PublishEvidenceRequest) :
    (impl.publishEvidence request).1.shelf = impl.shelf := by
  rcases publishEvidence_outcome impl request with hdeclined | ⟨_, -, heq, -⟩ |
    ⟨entry, prepared, -, heq⟩
  · exact hdeclined.shelf
  · rw [heq]
  · rw [heq]
    unfold Edit.publish
    dsimp only
    split
    all_goals
      rename_i hc
      simpa using Edit.shelf_of_advanceAll _ hc

theorem shelf_withdrawEvidence (request : WithdrawEvidenceRequest) :
    (impl.withdrawEvidence request).1.shelf = impl.shelf := by
  rcases withdrawEvidence_outcome impl request with hdeclined | ⟨entry, slot, prepared, -, heq⟩
  · exact hdeclined.shelf
  · rw [heq]
    unfold Edit.withdraw
    dsimp only
    split
    · rename_i hc
      simpa using Edit.shelf_of_advanceAll _ hc
    · rename_i t hc
      refine (Edit.shelf_commitPrepared (t.stampGlobal.releaseLink request.publisher
        request.key.link) prepared .null request.publisher).trans ?_
      simpa using Edit.shelf_of_advanceAll _ hc

theorem shelf_changeIntent (t : Edit) (intent : Option AdministrativeIntent)
    (request : TransitionStateRequest) (prepared : PreparedCommit) (detail : Text) :
    (t.changeIntent intent request prepared detail).1.shelf = t.impl.shelf := by
  unfold Edit.changeIntent
  split
  · rename_i hc
    exact Edit.shelf_of_advanceAll _ hc
  · rename_i hc
    exact (Edit.shelf_commitPrepared ..).trans (Edit.shelf_of_advanceAll _ hc :)

theorem shelf_transitionState (request : TransitionStateRequest) :
    (impl.transitionState request).1.shelf = impl.shelf := by
  rcases transitionState_outcome impl request with hdeclined | ⟨entry, prepared, -, heq⟩ |
    ⟨entry, prepared, -, heq⟩
  · exact hdeclined.shelf
  · rw [heq]
    exact shelf_changeIntent ..
  · rw [heq]
    exact shelf_changeIntent ..

theorem shelf_markRevalidationRequired (request : MarkRevalidationRequest) :
    (impl.markRevalidationRequired request).1.shelf = impl.shelf := by
  rcases markRevalidationRequired_outcome impl request with hdeclined | ⟨entry, prepared, -, heq⟩
  · exact hdeclined.shelf
  · rw [heq]
    unfold Edit.markRevalidation
    split
    all_goals
      rename_i hc
      simpa using Edit.shelf_of_advanceAll _ hc

/-- A registration puts an authority in place and may fence the boot before it. -/
theorem shelf_registerPublisher (request : RegisterPublisherRequest) :
    (impl.registerPublisher request).1.shelf = impl.shelf := by
  have hput (impl : Impl) (publisher : PublisherId) (authority : PublisherAuthority) :
      (impl.putAuthority publisher authority).shelf = impl.shelf := rfl
  unfold Impl.registerPublisher
  dsimp only
  split
  · rfl
  split
  · rfl
  split
  · rfl
  split
  · rfl
  unfold Impl.admitRegistration
  split
  · split
    · split <;> rfl
    · unfold Impl.supersedeBoot
      dsimp only
      split
      · exact shelf_fencePublisher ..
      · exact (hput ..).trans (shelf_fencePublisher ..)
  · split <;> rfl

theorem shelf_invalidatePublisher (request : InvalidatePublisherRequest) :
    (impl.invalidatePublisher request).1.shelf = impl.shelf := by
  unfold Impl.invalidatePublisher
  split
  · rfl
  split
  · rfl
  split
  · rfl
  split
  · rfl
  split
  · rfl
  · exact shelf_fencePublisher ..

/-- The loop over the publishers of the old epoch fences some of them. -/
theorem shelf_advanceCoordinatorEpoch (request : AdvanceEpochRequest) :
    (impl.advanceCoordinatorEpoch request).1.shelf = impl.shelf := by
  have hstale (impl : Impl) (publisher : PublisherId) :
      (impl.fenceStale publisher).shelf = impl.shelf := by
    unfold Impl.fenceStale
    split
    · rfl
    · exact shelf_fencePublisher ..
  unfold Impl.advanceCoordinatorEpoch
  split
  · rfl
  split
  · rfl
  · exact shelf_foldl { impl with epoch := request.newEpoch } hstale _

/-- The loop over the links resolves some of them again. -/
theorem shelf_reconcile : impl.reconcile.1.shelf = impl.shelf := by
  have hlink (p : Impl × Nat) (link : LinkId) :
      (Impl.reconcileLink p link).1.shelf = p.1.shelf := by
    unfold Impl.reconcileLink
    split
    · rfl
    split
    · rfl
    rename_i entry _ _
    dsimp only
    have hrecompute := Edit.shelf_recomputeLink ⟨p.1, entry⟩ .evidenceResolution
      (.fromValidated (publicationIdFor (lit "reconcile") p.1.globalGeneration.value)) .null
    split
    all_goals
      rename_i heq
      rw [heq] at hrecompute
      exact hrecompute
  have hfold (l : List LinkId) (p : Impl × Nat) :
      (l.foldl Impl.reconcileLink p).1.shelf = p.1.shelf := by
    induction l generalizing p with
    | nil => rfl
    | cons link l ih => exact (ih _).trans (hlink p link)
  exact hfold _ (impl, 0)

end Engine

/-- The operation takes a snapshot. -/
def Op.snaps : Op → Bool
  | .snapshot _ => true
  | _ => false

/-- Only a snapshot and a load touch the shelf. -/
theorem apply_shelf (impl : Impl) {op : Op} (hload : op.isLoad = false)
    (hsnaps : op.snaps = false) : (impl.apply op).shelf = impl.shelf := by
  cases op with
  | bindLink request => exact shelf_bindLink impl request
  | supersedeTopology request => exact shelf_supersedeTopology impl request
  | retireLink request => exact shelf_retireLink impl request
  | registerPublisher request => exact shelf_registerPublisher impl request
  | invalidatePublisher request => exact shelf_invalidatePublisher impl request
  | advanceCoordinatorEpoch request => exact shelf_advanceCoordinatorEpoch impl request
  | publishEvidence request => exact shelf_publishEvidence impl request
  | withdrawEvidence request => exact shelf_withdrawEvidence impl request
  | transitionState request => exact shelf_transitionState impl request
  | markRevalidationRequired request => exact shelf_markRevalidationRequired impl request
  | reconcile => exact shelf_reconcile impl
  | snapshot => cases hsnaps
  | load => cases hload

end LinkState
