import LinkStateFabric.Engine.Outcomes
import LinkStateFabric.Engine.Recovery

/-!
# Statistics

`stats` counts part of its figures over the store and reads the others from running counters.

* `stats_eq`: the figures about the store are those of a scan, except that links that wait
  for revalidation and retired links are never counted.
* `Impl.tallies`: the running counters, but those of rejections and transitions. An operation adds
  one to the committed publications if it commits evidence, and does nothing else to them
  (`apply_tallies`). Replays are not counted.
* `stats_exact_iff`: in what runs the statistics agree with the store and the run.
-/

namespace LinkState

open Sorting

/-! ## The store -/

/-- The links whose entries satisfy a condition. -/
def Impl.linksWith (impl : Impl) (p : LinkEntry → Bool) : Finset LinkId :=
  impl.store.links.keys.filter fun link => (impl.entryOf link).any p

/-- The publishers whose authorities satisfy a condition. -/
def Impl.publishersWith (impl : Impl) (p : PublisherAuthority → Bool) : Finset PublisherId :=
  impl.store.publishers.keys.filter fun publisher =>
    (impl.store.publishers.lookup publisher).any p

/-- The figures are those of a scan of the store. -/
structure EngineStats.Scans (stats : EngineStats) (impl : Impl) : Prop where
  links : stats.links = impl.store.links.keys.card
  evidenceRecords : stats.evidenceRecords =
    ∑ link ∈ impl.store.links.keys, (impl.currentEvidence link).length
  currentEvidence : stats.currentEvidence =
    ∑ link ∈ impl.store.links.keys, (impl.currentEvidence link).length
  conflicts : stats.conflicts = (impl.linksWith (·.conflicted)).card
  revalidationRequired : stats.revalidationRequired =
    (impl.linksWith (·.record.state = .revalidationRequired)).card
  retired : stats.retired = (impl.linksWith (·.record.state = .retired)).card
  publishers : stats.publishers = impl.store.publishers.keys.card
  activePublishers : stats.activePublishers = (impl.publishersWith (·.status = .active)).card
  fencedPublishers : stats.fencedPublishers = (impl.publishersWith (·.status ≠ .active)).card
  retainedSnapshots : stats.retainedSnapshots = impl.store.snapshots.keys.card

theorem foldl_countEntry (entries : List LinkEntry) (stats : EngineStats) :
    entries.foldl Impl.countEntry stats = { stats with
      evidenceRecords := stats.evidenceRecords + (entries.map (·.current.length)).sum
      currentEvidence := stats.currentEvidence + (entries.map (·.current.length)).sum
      conflicts := stats.conflicts + entries.countP (·.conflicted) } := by
  induction entries generalizing stats with
  | nil => rfl
  | cons entry entries ih =>
    have hconflicts : (if entry.conflicted then stats.conflicts + 1 else stats.conflicts) +
        entries.countP (·.conflicted) =
        stats.conflicts + (entry :: entries).countP (·.conflicted) := by
      rw [List.countP_cons]
      split <;> omega
    rw [List.foldl_cons, ih]
    unfold Impl.countEntry
    dsimp only
    rw [hconflicts, List.map_cons, List.sum_cons, Nat.add_assoc, Nat.add_assoc]

theorem foldl_countAuthority (authorities : List PublisherAuthority) (stats : EngineStats) :
    authorities.foldl Impl.countAuthority stats = { stats with
      activePublishers := stats.activePublishers + authorities.countP (·.status = .active)
      fencedPublishers := stats.fencedPublishers + authorities.countP (·.status ≠ .active) } := by
  induction authorities generalizing stats with
  | nil => rfl
  | cons authority authorities ih =>
    rw [List.foldl_cons, ih]
    unfold Impl.countAuthority
    by_cases h : authority.status = .active
    · simp [h, Nat.add_assoc, Nat.add_comm]
    · simp [h, Nat.add_assoc, Nat.add_comm]

/-- What `stats` counts over the store. The other figures are the running counters. -/
theorem stats_eq (impl : Impl) : impl.stats = { impl.counters with
    links := impl.store.links.keys.card
    evidenceRecords := ∑ link ∈ impl.store.links.keys, (impl.currentEvidence link).length
    currentEvidence := ∑ link ∈ impl.store.links.keys, (impl.currentEvidence link).length
    conflicts := (impl.linksWith (·.conflicted)).card
    publishers := impl.store.publishers.keys.card
    activePublishers := (impl.publishersWith (·.status = .active)).card
    fencedPublishers := (impl.publishersWith (·.status ≠ .active)).card
    retainedSnapshots := impl.store.snapshots.keys.card } := by
  have hlength (link : LinkId) : (((impl.entryOf link).map (·.current.length)).getD 0) =
      (impl.currentEvidence link).length := by
    unfold Impl.currentEvidence
    cases impl.entryOf link <;> rfl
  unfold Impl.stats
  dsimp only
  rw [foldl_countEntry, foldl_countAuthority]
  simp only [Nat.zero_add, sum_filterMap_listing, countP_filterMap_listing, hlength]
  rfl

/-! ## The running counters -/

/-- The running counters, but those of rejections and of transitions. -/
def Impl.tallies (impl : Impl) : EngineStats :=
  { impl.counters with rejectedPublications := 0, transitions := 0 }

section Edits

variable {t t' : Edit} {b : Bool}

theorem advanceAll_tallies {cs : List Counter} (h : t.advanceAll cs = (t', b)) :
    t'.impl.tallies = t.impl.tallies := by
  induction cs generalizing t with
  | nil => cases h; rfl
  | cons c cs ih =>
    rw [Edit.advanceAll] at h
    split at h
    · cases h; rfl
    rename_i u hu
    rw [ih h]
    cases c <;>
    · simp only [Edit.advance, Option.map_eq_some_iff] at hu
      obtain ⟨_, -, rfl⟩ := hu
      rfl

variable (t)

theorem dropEvidence_tallies (explain : Explanation) :
    (t.dropEvidence explain).impl.tallies = t.impl.tallies := by
  obtain ⟨observations, dispositions, heq, -⟩ := Edit.dropEvidence_eq t explain
  rw [heq]
  rfl

theorem raiseTopology_tallies : t.raiseTopology.impl.tallies = t.impl.tallies := by
  unfold Edit.raiseTopology
  split <;> rfl

theorem releaseLink_tallies (publisher : PublisherId) (link : LinkId) :
    (t.releaseLink publisher link).impl.tallies = t.impl.tallies := by
  unfold Edit.releaseLink
  split <;> rfl

theorem commitPrepared_tallies (prepared : PreparedCommit) (publication : PublicationId)
    (publisher : PublisherId) :
    (t.commitPrepared prepared publication publisher).impl.tallies = t.impl.tallies := by
  unfold Edit.commitPrepared
  dsimp only
  split
  · split
    · rename_i hc
      have hcount := advanceAll_tallies hc
      exact hcount
    · rename_i hc
      have hcount := advanceAll_tallies hc
      exact hcount
  · rfl

variable {t}

theorem recomputeLink_tallies {trigger : TransitionTrigger} {publication : PublicationId}
    {publisher : PublisherId} {code : OutcomeCode}
    (h : t.recomputeLink trigger publication publisher = (t', code, b)) :
    t'.impl.tallies = t.impl.tallies := by
  unfold Edit.recomputeLink at h
  dsimp only at h
  split at h
  · cases h
    exact commitPrepared_tallies ..
  · cases h
    rfl

end Edits

section Steps

variable (impl : Impl)

theorem noteRejection_tallies (publisher : PublisherId) :
    (impl.noteRejection publisher).tallies = impl.tallies := by
  unfold Impl.noteRejection
  dsimp only
  split <;> rfl

theorem purgeLink_tallies (explain : Impl → LinkEntry → Explanation) (trigger : TransitionTrigger)
    (kind : Text) (link : LinkId) :
    (impl.purgeLink explain trigger kind link).tallies = impl.tallies := by
  unfold Impl.purgeLink
  split
  · rfl
  split
  · rfl
  split
  · rename_i hc
    exact (advanceAll_tallies hc).trans (dropEvidence_tallies ..)
  · rename_i hc
    exact (recomputeLink_tallies rfl).trans
      ((advanceAll_tallies hc).trans (dropEvidence_tallies ..))

theorem foldl_tallies {α : Type*} {f : Impl → α → Impl}
    (h : ∀ impl a, (f impl a).tallies = impl.tallies) (l : List α) :
    (l.foldl f impl).tallies = impl.tallies := by
  induction l generalizing impl with
  | nil => rfl
  | cons a l ih => exact (ih (f impl a)).trans (h impl a)

theorem fencePublisher_tallies (publisher : PublisherId) (boot : WorkerBootId) (allBoots : Bool)
    (status : AuthorityStatus) (reason : Text) :
    (impl.fencePublisher publisher boot allBoots status reason).tallies = impl.tallies := by
  have hnote : (impl.noteFence publisher boot status reason).tallies = impl.tallies := by
    unfold Impl.noteFence Impl.setAuthorityStatus
    dsimp only
    split <;> split <;> rfl
  have hpurge := foldl_tallies (impl.noteFence publisher boot status reason)
    (fun impl link => purgeLink_tallies impl
      (fun _ _ => explainFence publisher boot allBoots reason) .publisherFenced (lit "fence") link)
    (listing ((impl.noteFence publisher boot status reason).store.publisherLinks.bucket publisher))
  exact hpurge.trans hnote

theorem invalidateStaleDependents_tallies (link : LinkId) :
    (impl.invalidateStaleDependents link).tallies = impl.tallies :=
  foldl_tallies impl (fun impl link => purgeLink_tallies impl _ _ _ link) _

theorem applyRebinding_tallies (t : Edit) (link : LinkId) (binding : TopologyBinding)
    (reason : Text) : (t.applyRebinding link binding reason).1.tallies = t.impl.tallies := by
  unfold Edit.applyRebinding
  dsimp only
  split
  · rename_i hc
    exact (advanceAll_tallies hc).trans (dropEvidence_tallies ..)
  rename_i u hc
  have hraise := (raiseTopology_tallies u.stampGlobal).trans
    ((advanceAll_tallies hc).trans (dropEvidence_tallies t (explainRebinding binding)))
  split
  · rename_i hr
    exact (invalidateStaleDependents_tallies ..).trans ((recomputeLink_tallies hr).trans hraise)
  · rename_i hr
    exact (recomputeLink_tallies hr).trans hraise

theorem bindNew_tallies (binding : TopologyBinding) :
    (impl.bindNew binding).1.tallies = impl.tallies := by
  unfold Impl.bindNew
  split
  · rfl
  split
  · rfl
  · rename_i hc
    exact (raiseTopology_tallies _).trans (advanceAll_tallies hc)

theorem retire_tallies (t : Edit) (request : RetireLinkRequest) :
    (t.retire request).1.tallies = t.impl.tallies := by
  unfold Edit.retire
  split
  · rename_i hc
    exact (advanceAll_tallies hc).trans (dropEvidence_tallies ..)
  · rename_i hc
    exact (invalidateStaleDependents_tallies ..).trans
      ((advanceAll_tallies hc).trans (dropEvidence_tallies ..))

theorem changeIntent_tallies (t : Edit) (intent : Option AdministrativeIntent)
    (request : TransitionStateRequest) (prepared : PreparedCommit) (detail : Text) :
    (t.changeIntent intent request prepared detail).1.tallies = t.impl.tallies := by
  unfold Edit.changeIntent
  split
  · rename_i hc
    exact advanceAll_tallies hc
  · rename_i hc
    have hcount := advanceAll_tallies hc
    exact (commitPrepared_tallies ..).trans hcount

theorem markRevalidation_tallies (t : Edit) (request : MarkRevalidationRequest)
    (prepared : PreparedCommit) :
    (t.markRevalidation request prepared).1.tallies = t.impl.tallies := by
  have hdrop := (releaseLink_tallies (t.dropEvidence (explainRevalidation request))
    request.publisher request.link).trans (dropEvidence_tallies t (explainRevalidation request))
  unfold Edit.markRevalidation
  split
  · rename_i hc
    exact (advanceAll_tallies hc).trans hdrop
  · rename_i hc
    have hcount := (advanceAll_tallies hc).trans hdrop
    exact (commitPrepared_tallies ..).trans hcount

theorem reconcileLink_tallies (p : Impl × Nat) (link : LinkId) :
    (Impl.reconcileLink p link).1.tallies = p.1.tallies := by
  unfold Impl.reconcileLink
  split
  · rfl
  split
  · rfl
  dsimp only
  split
  · rename_i hr
    exact recomputeLink_tallies hr
  · rename_i hr
    exact recomputeLink_tallies hr

end Steps

/-! ## What an operation adds -/

/-- The tallies with `n` committed publications more, one after the other. -/
def EngineStats.addCommitted (stats : EngineStats) : Nat → EngineStats
  | 0 => stats
  | n + 1 =>
    let stats := stats.addCommitted n
    { stats with committedPublications := stats.committedPublications + 1 }

theorem EngineStats.addCommitted_add (stats : EngineStats) (m n : Nat) :
    (stats.addCommitted m).addCommitted n = stats.addCommitted (m + n) := by
  induction n with
  | zero => rfl
  | succ n ih => rw [addCommitted, ih, Nat.add_succ, addCommitted]

/-- The other tallies stay, and the counter of committed publications wraps around. -/
theorem EngineStats.addCommitted_eq (stats : EngineStats) (n : Nat) : stats.addCommitted n =
    { stats with committedPublications := stats.committedPublications + Fin.ofNat _ n } := by
  induction n with
  | zero => exact congrArg (fun c => { stats with committedPublications := c }) (Fin.add_zero _).symm
  | succ n ih =>
    rw [addCommitted, ih]
    dsimp only
    congr 1
    apply Fin.ext
    have hone : ((1 : U64) : Nat) = 1 := rfl
    simp only [Fin.val_add, Fin.val_ofNat, hone]
    omega

/-- The operation commits evidence, or the withdrawal of evidence. -/
def Impl.commits (impl : Impl) : Op → Bool
  | .publishEvidence request =>
    (impl.publishEvidence request).2.outcome.code = .committed ||
      (impl.publishEvidence request).2.outcome.code = .evidenceConflict
  | .withdrawEvidence request => (impl.withdrawEvidence request).2.outcome.code = .committed
  | _ => false

/-- The operation publishes an observation once more. -/
def Impl.repeats (impl : Impl) : Op → Bool
  | .publishEvidence request => (impl.publishEvidence request).2.outcome.code = .idempotent
  | _ => false

section Operations

variable (impl : Impl)

theorem Declined.tallies {p : Impl × LinkMutationResult} (h : Declined impl p) :
    p.1.tallies = impl.tallies := by
  obtain heq | ⟨publisher, heq⟩ := h.impl
  · rw [heq]
  · rw [heq]
    exact noteRejection_tallies impl publisher

theorem Declined.not_committed {p : Impl × LinkMutationResult} (h : Declined impl p) :
    p.2.outcome.code ≠ .committed ∧ p.2.outcome.code ≠ .evidenceConflict :=
  ⟨h.code_ne rfl, h.code_ne rfl⟩

/-- A publication that has passed its checks is committed and counted, or it ends at a counter. -/
theorem publish_tallies (t : Edit) (request : PublishEvidenceRequest) (prepared : PreparedCommit) :
    ((t.publish request prepared).2.outcome.code = .resourceLimit ∧
      (t.publish request prepared).1.tallies = t.impl.tallies) ∨
    ((t.publish request prepared).2.outcome.code ∈ [.committed, .evidenceConflict] ∧
      (t.publish request prepared).1.tallies = t.impl.tallies.addCommitted 1) := by
  unfold Edit.publish
  dsimp only
  split
  · rename_i hc
    exact .inl ⟨rfl, (advanceAll_tallies hc).trans (dropEvidence_tallies ..)⟩
  rename_i u hc
  have haccept : (u.accept request.observation).impl.tallies = u.impl.tallies.addCommitted 1 := by
    unfold Edit.accept Impl.noteAcceptance
    dsimp only
    split <;> rfl
  refine .inr ⟨?_, ?_⟩
  · unfold publicationResult
    split
    · exact .tail _ (.head _)
    · exact .head _
  · have hcount := (advanceAll_tallies hc).trans (dropEvidence_tallies ..)
    exact (commitPrepared_tallies ..).trans (haccept.trans (congrArg (·.addCommitted 1) hcount))

theorem withdraw_tallies (t : Edit) (request : WithdrawEvidenceRequest)
    (prepared : PreparedCommit) :
    ((t.withdraw request prepared).2.outcome.code = .resourceLimit ∧
      (t.withdraw request prepared).1.tallies = t.impl.tallies) ∨
    ((t.withdraw request prepared).2.outcome.code = .committed ∧
      (t.withdraw request prepared).1.tallies = t.impl.tallies.addCommitted 1) := by
  unfold Edit.withdraw
  dsimp only
  split
  · rename_i hc
    exact .inl ⟨rfl, (advanceAll_tallies hc).trans (dropEvidence_tallies ..)⟩
  rename_i u hc
  have hcommit := (commitPrepared_tallies (u.stampGlobal.releaseLink request.publisher
    request.key.link) prepared .null request.publisher).trans ((releaseLink_tallies ..).trans
      ((advanceAll_tallies hc).trans (dropEvidence_tallies t (explainWithdrawal request))))
  exact .inr ⟨rfl, congrArg (·.addCommitted 1) hcommit⟩

theorem publishEvidence_tallies (request : PublishEvidenceRequest) :
    (impl.publishEvidence request).1.tallies =
      impl.tallies.addCommitted (impl.commits (.publishEvidence request)).toNat := by
  obtain h | ⟨entry, -, h, hcode⟩ | ⟨entry, prepared, -, h⟩ := publishEvidence_outcome impl request
  · have hno : impl.commits (.publishEvidence request) = false := by
      simp [Impl.commits, h.not_committed]
    rw [hno]
    exact h.tallies
  · have hno : impl.commits (.publishEvidence request) = false := by simp [Impl.commits, hcode]
    rw [hno]
    exact congrArg Impl.tallies h
  · refine (congrArg (·.1.tallies) h).trans ?_
    obtain ⟨hcode, htallies⟩ | ⟨hcode, htallies⟩ := publish_tallies ⟨impl, entry⟩ request prepared
    · have hno : impl.commits (.publishEvidence request) = false := by
        simp [Impl.commits, h, hcode]
      rw [htallies, hno]
      rfl
    · have hyes : impl.commits (.publishEvidence request) = true := by
        simpa [Impl.commits, h] using hcode
      rw [htallies, hyes]
      rfl

theorem withdrawEvidence_tallies (request : WithdrawEvidenceRequest) :
    (impl.withdrawEvidence request).1.tallies =
      impl.tallies.addCommitted (impl.commits (.withdrawEvidence request)).toNat := by
  obtain h | ⟨entry, slot, prepared, -, h⟩ := withdrawEvidence_outcome impl request
  · have hno : impl.commits (.withdrawEvidence request) = false := by
      simp [Impl.commits, h.not_committed]
    rw [hno]
    exact h.tallies
  · refine (congrArg (·.1.tallies) h).trans ?_
    obtain ⟨hcode, htallies⟩ | ⟨hcode, htallies⟩ := withdraw_tallies ⟨impl, entry⟩ request prepared
    · have hno : impl.commits (.withdrawEvidence request) = false := by
        simp [Impl.commits, h, hcode]
      rw [htallies, hno]
      rfl
    · have hyes : impl.commits (.withdrawEvidence request) = true := by
        simp [Impl.commits, h, hcode]
      rw [htallies, hyes]
      rfl

theorem recover_tallies (payload : JournalPayload) :
    (impl.recover payload).impl.tallies = impl.tallies := by
  have hfences (fences : List PublisherFence) (impl : Impl) :
      (impl.rebuildFences fences).tallies = impl.tallies :=
    foldl_tallies impl (fun impl fence => by split <;> rfl) fences
  have hlinks (links : List PersistedLink) (r : Recovery) :
      (links.foldl Recovery.recoverLink r).impl.tallies = r.impl.tallies := by
    induction links generalizing r with
    | nil => rfl
    | cons persisted links ih =>
      obtain ⟨_, _, heq, -⟩ := recoverLink_spec r persisted
      refine (ih _).trans ?_
      rw [heq]
      rfl
  exact (hlinks payload.links _).trans (hfences payload.fences _)

/-- An operation adds what it commits to the committed publications, and leaves the other tallies
alone. -/
theorem apply_tallies (op : Op) :
    (impl.apply op).tallies = impl.tallies.addCommitted (impl.commits op).toNat := by
  cases op with
  | bindLink request =>
    obtain h | ⟨h, -⟩ | ⟨-, h⟩ | ⟨entry, -, -, h⟩ := bindLink_outcome impl request
    · exact h.tallies
    · exact congrArg Impl.tallies h
    · exact (congrArg (·.1.tallies) h).trans (bindNew_tallies ..)
    · exact (congrArg (·.1.tallies) h).trans (applyRebinding_tallies ..)
  | supersedeTopology request =>
    obtain h | ⟨entry, binding, -, -, -, h⟩ := supersedeTopology_outcome impl request
    · exact h.tallies
    · exact (congrArg (·.1.tallies) h).trans (applyRebinding_tallies ..)
  | retireLink request =>
    obtain h | ⟨h, -⟩ | ⟨entry, -, h⟩ := retireLink_outcome impl request
    · exact h.tallies
    · exact congrArg Impl.tallies h
    · exact (congrArg (·.1.tallies) h).trans (retire_tallies ..)
  | registerPublisher request =>
    obtain h | ⟨authority, h, -⟩ | ⟨scope, authority, -, -, h⟩ :=
      registerPublisher_outcome impl request
    · exact h.tallies
    · exact (congrArg Impl.tallies h).trans rfl
    · refine (congrArg (·.1.tallies) h).trans ?_
      unfold Impl.supersedeBoot
      dsimp only
      split
      · exact fencePublisher_tallies ..
      · exact fencePublisher_tallies ..
  | invalidatePublisher request =>
    obtain h | ⟨h, -⟩ | ⟨authority, -, h, -⟩ := invalidatePublisher_outcome impl request
    · exact h.tallies
    · exact congrArg Impl.tallies h
    · exact (congrArg Impl.tallies h).trans (fencePublisher_tallies ..)
  | advanceCoordinatorEpoch request =>
    obtain h | ⟨h, -⟩ | ⟨-, h, -⟩ := advanceCoordinatorEpoch_outcome impl request
    · exact h.tallies
    · exact congrArg Impl.tallies h
    · refine (congrArg Impl.tallies h).trans (foldl_tallies _ (fun impl publisher => ?_) _)
      unfold Impl.fenceStale
      split
      · rfl
      · exact fencePublisher_tallies ..
  -- The only one of the operations that is counted.
  | publishEvidence request => exact publishEvidence_tallies impl request
  | withdrawEvidence request => exact withdrawEvidence_tallies impl request
  | transitionState request =>
    obtain h | ⟨entry, prepared, -, h⟩ | ⟨entry, prepared, -, h⟩ :=
      transitionState_outcome impl request
    · exact h.tallies
    · exact (congrArg (·.1.tallies) h).trans (changeIntent_tallies ..)
    · exact (congrArg (·.1.tallies) h).trans (changeIntent_tallies ..)
  | markRevalidationRequired request =>
    obtain h | ⟨entry, prepared, -, h⟩ := markRevalidationRequired_outcome impl request
    · exact h.tallies
    · exact (congrArg (·.1.tallies) h).trans (markRevalidation_tallies ..)
  | reconcile =>
    show (((listing impl.store.links.keys).foldl Impl.reconcileLink (impl, 0)).1).tallies = _
    have hfold (links : List LinkId) (p : Impl × Nat) :
        (links.foldl Impl.reconcileLink p).1.tallies = p.1.tallies := by
      induction links generalizing p with
      | nil => rfl
      | cons link links ih => exact (ih _).trans (reconcileLink_tallies p link)
    exact hfold _ (impl, 0)
  | snapshot request =>
    show (impl.snapshot request).1.tallies = _
    unfold Impl.snapshot
    dsimp only
    split <;> rfl
  | load config steps file =>
    show (impl.load config steps file).1.tallies = _
    obtain ⟨_, -, heq⟩ | ⟨_, payload, _, -, -, heq, -⟩ := load_cases impl config steps file
    · rw [heq]
      rfl
    · rw [heq]
      exact recover_tallies impl payload

end Operations

/-! ## Replays -/

/-- The observation of a publication is in its slot already, and the publication passes the checks
that come before the slot is looked at. -/
def Impl.Repeats (impl : Impl) (request : PublishEvidenceRequest) : Prop :=
  validateObservation request.observation request.publication = none ∧
  ∃ entry, impl.entryOf request.observation.key.link = some entry ∧
    impl.refusal entry request = none ∧
    ∃ slot, findSlot entry request.observation.key = some slot ∧
      request.observation.sourceGeneration = slot.sourceGeneration ∧
      request.observation.sequence = slot.sequence ∧ request.observation.same slot = true

theorem judgeSlot_replay_iff {slot observation : EvidenceRecord} :
    judgeSlot slot observation = .replay ↔
      observation.sourceGeneration = slot.sourceGeneration ∧
      observation.sequence = slot.sequence ∧ observation.same slot = true := by
  unfold judgeSlot
  constructor
  · intro h
    split at h
    · cases h
    split at h
    · rename_i hgeneration
      split at h
      · cases h
      split at h
      · rename_i hsequence
        split at h
        · cases h
        · rename_i hsame
          exact ⟨hgeneration, hsequence, by simpa using hsame⟩
      · cases h
    · cases h
  · rintro ⟨hgeneration, hsequence, hsame⟩
    rw [if_neg (not_lt.mpr hgeneration.ge), if_pos hgeneration, if_neg (not_lt.mpr hsequence.ge),
      if_pos hsequence, if_neg (by simp [hsame])]

theorem admit_replay_iff {impl : Impl} {request : PublishEvidenceRequest} :
    (∃ entry, impl.admit request = .replay entry) ↔ impl.Repeats request := by
  constructor
  · rintro ⟨entry, h⟩
    obtain ⟨hbound, -, slot, hslot, hjudge⟩ := replay_of_admit h
    unfold Impl.admit at h
    dsimp only at h
    split at h
    · cases h
    rename_i hvalid
    rw [hbound] at h
    dsimp only at h
    split at h
    · cases h
    rename_i hrefusal
    exact ⟨hvalid, entry, hbound, hrefusal, slot, hslot, judgeSlot_replay_iff.mp hjudge⟩
  · rintro ⟨hvalid, entry, hbound, hrefusal, slot, hslot, hsame⟩
    refine ⟨entry, ?_⟩
    unfold Impl.admit
    dsimp only
    rw [hvalid, hbound]
    dsimp only
    rw [hrefusal, hslot]
    dsimp only [Option.elim]
    rw [judgeSlot_replay_iff.mpr hsame]

/-- A publication ends as a replay exactly if it repeats the observation in its slot. -/
theorem repeats_iff (impl : Impl) (request : PublishEvidenceRequest) :
    impl.repeats (.publishEvidence request) = true ↔ impl.Repeats request := by
  rw [← admit_replay_iff]
  unfold Impl.repeats
  rw [decide_eq_true_iff]
  constructor
  · intro hcode
    obtain h | ⟨entry, heq, -⟩ | ⟨entry, prepared, -, h⟩ := publishEvidence_outcome impl request
    · exact absurd hcode (h.code_ne rfl)
    · exact ⟨entry, heq⟩
    · rw [h] at hcode
      obtain ⟨hcode', -⟩ | ⟨hcode', -⟩ := publish_tallies ⟨impl, entry⟩ request prepared
      · rw [hcode] at hcode'
        cases hcode'
      · rw [hcode] at hcode'
        exact absurd hcode' (by decide)
  · rintro ⟨entry, heq⟩
    unfold Impl.publishEvidence
    rw [heq]
    rfl

theorem repeats_eq_false (impl : Impl) (op : Op) : impl.repeats op = false ↔
    ∀ request, op = .publishEvidence request → ¬ impl.Repeats request := by
  cases op with
  | publishEvidence request =>
    rw [← Bool.not_eq_true, repeats_iff]
    constructor
    · rintro h _ ⟨⟩
      exact h
    · exact fun h => h request rfl
  | _ => exact iff_of_true rfl fun _ h => by cases h

/-! ## Runs -/

theorem card_linksWith {impl : Impl} {p : LinkEntry → Bool} :
    (impl.linksWith p).card = 0 ↔ ∀ link entry, impl.entryOf link = some entry → p entry = false := by
  unfold Impl.linksWith
  rw [Finset.card_eq_zero, Finset.filter_eq_empty_iff]
  constructor
  · intro h link entry hbound
    have hno := h (Finmap.mem_keys.mpr (Finmap.lookup_isSome.mp (by
      rw [← Impl.entryOf, hbound]
      rfl)))
    rw [hbound] at hno
    simpa using hno
  · intro h link _
    cases hbound : impl.entryOf link with
    | none => simp
    | some entry => simp [h link entry hbound]

/-- What a run adds to the tallies. -/
theorem foldl_apply_tallies (impl : Impl) (ops : List Op) :
    (ops.foldl Impl.apply impl).tallies =
      impl.tallies.addCommitted (Runs.count Impl.apply Impl.commits impl ops) := by
  induction ops generalizing impl with
  | nil => rfl
  | cons op ops ih =>
    rw [List.foldl_cons, ih, apply_tallies, Runs.count]
    exact EngineStats.addCommitted_add ..

/-- The statistics that an engine reports after a run are those of its store and of the run exactly
if no link waits for revalidation, none is retired, and the run never publishes an observation once
more and commits evidence fewer than `2 ^ 64` times. -/
theorem stats_exact_iff (config : EngineConfig) (ops : List Op) :
    ((ops.foldl Impl.apply (.create config)).stats.Scans (ops.foldl Impl.apply (.create config)) ∧
      (ops.foldl Impl.apply (.create config)).stats.committedPublications.val =
        Runs.count Impl.apply Impl.commits (.create config) ops ∧
      (ops.foldl Impl.apply (.create config)).stats.idempotentPublications.val =
        Runs.count Impl.apply Impl.repeats (.create config) ops) ↔
    (∀ link entry, (ops.foldl Impl.apply (.create config)).entryOf link = some entry →
      entry.record.state ≠ .revalidationRequired ∧ entry.record.state ≠ .retired) ∧
    Runs.Admissible Impl.apply (fun impl op => ∀ request, op = .publishEvidence request →
      ¬ impl.Repeats request) (.create config) ops ∧
    Runs.count Impl.apply Impl.commits (.create config) ops < 2 ^ 64 := by
  have htallies := foldl_apply_tallies (.create config) ops
  have hrepeats : Runs.count Impl.apply Impl.repeats (.create config) ops = 0 ↔
      Runs.Admissible Impl.apply (fun impl op => ∀ request, op = .publishEvidence request →
        ¬ impl.Repeats request) (.create config) ops := by
    rw [Runs.count_eq_zero]
    refine iff_of_eq (congrArg (Runs.Admissible Impl.apply · _ ops) ?_)
    funext impl op
    exact propext (repeats_eq_false impl op)
  generalize ops.foldl Impl.apply (.create config) = impl at htallies ⊢
  rw [EngineStats.addCommitted_eq] at htallies
  -- The counter is one of 64 bits, and every commit adds one to it.
  have hcommitted : impl.counters.committedPublications.val =
      Runs.count Impl.apply Impl.commits (.create config) ops % 2 ^ 64 := by
    have hcounter : impl.counters.committedPublications = 0 + Fin.ofNat _
        (Runs.count Impl.apply Impl.commits (.create config) ops) :=
      congrArg EngineStats.committedPublications htallies
    rw [hcounter, Fin.zero_add, Fin.val_ofNat]
  have hidempotent : impl.counters.idempotentPublications.val = 0 :=
    congrArg (fun stats : EngineStats => stats.idempotentPublications.val) htallies
  have hrevalidation : impl.counters.revalidationRequired = 0 :=
    congrArg EngineStats.revalidationRequired htallies
  have hretired : impl.counters.retired = 0 := congrArg EngineStats.retired htallies
  rw [stats_eq, ← hrepeats]
  constructor
  · rintro ⟨hscans, hcommits, hcount⟩
    have hwaiting := card_linksWith.mp (hscans.revalidationRequired.symm.trans hrevalidation)
    have hclosed := card_linksWith.mp (hscans.retired.symm.trans hretired)
    exact ⟨fun link entry hbound => ⟨by simpa using hwaiting link entry hbound,
      by simpa using hclosed link entry hbound⟩, hcount.symm.trans hidempotent,
      lt_of_eq_of_lt (hcommits.symm.trans hcommitted) (Nat.mod_lt _ (Nat.two_pow_pos 64))⟩
  · rintro ⟨hlinks, hcount, hfew⟩
    refine ⟨⟨rfl, rfl, rfl, rfl, ?_, ?_, rfl, rfl, rfl, rfl⟩,
      hcommitted.trans (Nat.mod_eq_of_lt hfew), hidempotent.trans hcount.symm⟩
    · refine hrevalidation.trans (card_linksWith.mpr fun link entry hbound => ?_).symm
      simpa using (hlinks link entry hbound).1
    · refine hretired.trans (card_linksWith.mpr fun link entry hbound => ?_).symm
      simpa using (hlinks link entry hbound).2

namespace Sample

/-- The sample run; its publication is repeated and then withdrawn. -/
def repeatedRun : List Op :=
  ops ++ [.publishEvidence publish, .withdrawEvidence withdrawal]

/-- The sample run; its link is retired by the publisher. -/
def retiringRun : List Op :=
  ops ++ [.retireLink
    { link, publication := .fromValidated (lit "p-2"), topologyGeneration := .fromValue 1
      publisher, workerBoot := boot }]

end Sample

/-- A replay, a link that waits for revalidation and a retired link are all reported as zero. -/
theorem stats_silent :
    (Sample.repeatedRun.foldl Impl.apply (.create {})).stats.idempotentPublications = 0 ∧
    Runs.count Impl.apply Impl.repeats (.create {}) Sample.repeatedRun = 1 ∧
    (Sample.repeatedRun.foldl Impl.apply (.create {})).stats.revalidationRequired = 0 ∧
    ((Sample.repeatedRun.foldl Impl.apply (.create {})).linksWith
      (·.record.state = .revalidationRequired)).card = 1 ∧
    (Sample.retiringRun.foldl Impl.apply (.create {})).stats.retired = 0 ∧
    ((Sample.retiringRun.foldl Impl.apply (.create {})).linksWith
      (·.record.state = .retired)).card = 1 := by
  decide +kernel

end LinkState
