import LinkStateFabric.Engine.Counters
import LinkStateFabric.Engine.Steps

/-!
# How an operation ends

* `Impl.outcome`: the outcome of an operation, beside its effect `Impl.apply`.
* `Declined`: a request that is turned away before it changes anything.
* `publishEvidence_outcome` and the lemmas after it: a request is declined, or there is nothing to
  do, or it has passed every check. The checks of an operation are a structure of its own
  (`Admitted`, `Withdrawable`, ..).
-/

namespace LinkState

/-- The codes of a request that is carried out, or was before. -/
def OutcomeCode.accepts (code : OutcomeCode) : Bool :=
  code = .committed || code = .idempotent || code = .evidenceConflict

/-- The outcome of an operation; a snapshot has none. -/
def Impl.outcome (impl : Impl) : Op → Option Outcome
  | .bindLink request => some (impl.bindLink request).2.outcome
  | .supersedeTopology request => some (impl.supersedeTopology request).2.outcome
  | .retireLink request => some (impl.retireLink request).2.outcome
  | .registerPublisher request => some (impl.registerPublisher request).2.outcome
  | .invalidatePublisher request => some (impl.invalidatePublisher request).2.outcome
  | .advanceCoordinatorEpoch request => some (impl.advanceCoordinatorEpoch request).2.outcome
  | .publishEvidence request => some (impl.publishEvidence request).2.outcome
  | .withdrawEvidence request => some (impl.withdrawEvidence request).2.outcome
  | .transitionState request => some (impl.transitionState request).2.outcome
  | .markRevalidationRequired request => some (impl.markRevalidationRequired request).2.outcome
  | .reconcile => some impl.reconcile.2
  | .snapshot _ => none
  | .load config steps file => some (impl.load config steps file).2.outcome

/-! ## Declined requests -/

/-- The request is turned away, and nothing changes but the statistics of rejected publications. -/
structure Declined (impl : Impl) (p : Impl × LinkMutationResult) : Prop where
  code : p.2.outcome.code.accepts = false
  impl : p.1 = impl ∨ ∃ publisher, p.1 = impl.noteRejection publisher

theorem Declined.same {impl : Impl} {result : LinkMutationResult}
    (h : result.outcome.code.accepts = false) : Declined impl (impl, result) :=
  ⟨h, .inl rfl⟩

theorem Declined.noted {impl : Impl} {publisher : PublisherId} {result : LinkMutationResult}
    (h : result.outcome.code.accepts = false) :
    Declined impl (impl.noteRejection publisher, result) :=
  ⟨h, .inr ⟨publisher, rfl⟩⟩

/-- A request that is accepted is not turned away. -/
theorem Declined.code_ne {impl : Impl} {p : Impl × LinkMutationResult} (h : Declined impl p)
    {code : OutcomeCode} (hcode : code.accepts = true) : p.2.outcome.code ≠ code := by
  rintro rfl
  exact Bool.false_ne_true (h.code.symm.trans hcode)

/-- A request that is turned away leaves every link alone. -/
theorem Declined.sameLinks {impl : Impl} {p : Impl × LinkMutationResult} (h : Declined impl p) :
    SameLinks impl p.1 := by
  rcases h.impl with heq | ⟨publisher, heq⟩
  · rw [heq]
    exact .refl impl
  · rw [heq]
    exact noteRejection_sameLinks impl publisher

theorem authorize_code {store : EngineStore} {publisher : PublisherId} {boot : WorkerBootId}
    {source : SourceId} {epoch engineEpoch : CoordinatorEpoch} {link : LinkId}
    {binding : TopologyBinding} {refusal : Refusal}
    (h : authorize store publisher boot source epoch engineEpoch link binding = some refusal) :
    refusal.1 ∈ [.unauthorizedPublisher, .staleCoordinatorEpoch, .staleAuthority,
      .unauthorizedScope] := by
  have hcode (code : OutcomeCode) (detail : Text) (h : some (code, detail) = some refusal) :
      refusal.1 = code := by
    cases h
    rfl
  unfold authorize at h
  split at h
  · rw [hcode _ _ h]; decide
  split at h
  · rw [hcode _ _ h]; decide
  split at h
  · rw [hcode _ _ h]; decide
  split at h
  · rw [hcode _ _ h]; decide
  · rw [hcode _ _ h]; decide
  · rw [hcode _ _ h]; decide
  split at h
  · rw [hcode _ _ h]; decide
  split at h
  · rw [hcode _ _ h]; decide
  split at h
  · rw [hcode _ _ h]; decide
  · cases h

theorem authorize_declines {store : EngineStore} {publisher : PublisherId} {boot : WorkerBootId}
    {source : SourceId} {epoch engineEpoch : CoordinatorEpoch} {link : LinkId}
    {binding : TopologyBinding} {refusal : Refusal}
    (h : authorize store publisher boot source epoch engineEpoch link binding = some refusal) :
    refusal.1.accepts = false :=
  (show ∀ code ∈ [OutcomeCode.unauthorizedPublisher, .staleCoordinatorEpoch, .staleAuthority,
    .unauthorizedScope], code.accepts = false by decide) _ (authorize_code h)

theorem prepareCommit_code {impl : Impl} {entry : LinkEntry} {records : List EvidenceRecord}
    {trigger : TransitionTrigger} {code : OutcomeCode}
    (h : (prepareCommit impl entry records trigger).code = code) :
    code ∈ [.committed, .retiredLink, .resourceLimit, .invalidTransition] := by
  rw [← h]
  unfold prepareCommit
  dsimp only
  split
  · simp
  split
  · simp
  · split <;> simp
  all_goals simp

theorem prepareCommit_declines {impl : Impl} {entry : LinkEntry} {records : List EvidenceRecord}
    {trigger : TransitionTrigger} (h : (prepareCommit impl entry records trigger).ok = false) :
    (prepareCommit impl entry records trigger).code.accepts = false := by
  unfold prepareCommit at h ⊢
  dsimp only at h ⊢
  split
  · rfl
  rename_i hlive
  rw [if_neg hlive] at h
  split <;> rename_i htransition <;> rw [htransition] at h
  · cases h
  · split
    · rfl
    · rename_i hcounters
      rw [if_neg hcounters] at h
      cases h
  all_goals rfl

/-! ## Publications -/

section Publish

variable {impl : Impl} {entry : LinkEntry} {request : PublishEvidenceRequest}

theorem checkLive_code {refusal : Refusal} (h : checkLive entry = some refusal) :
    refusal.1 = .retiredLink := by
  unfold checkLive at h
  split at h <;> cases h
  rfl

theorem checkTopology_code {observation : EvidenceRecord} {refusal : Refusal}
    (h : checkTopology entry observation = some refusal) : refusal.1 = .staleTopology := by
  unfold checkTopology at h
  dsimp only at h
  split at h <;> cases h
  rfl

theorem checkEndpoint_code {observation : EvidenceRecord} {refusal : Refusal}
    (h : checkEndpoint entry observation = some refusal) :
    refusal.1 ∈ [.malformedRequest, .staleTopology] := by
  unfold checkEndpoint at h
  split at h
  · split at h
    · cases h
      exact List.mem_cons_self
    · split at h <;> cases h
      exact List.mem_cons_of_mem _ List.mem_cons_self
  · split at h <;> cases h
    exact List.mem_cons_self

theorem checkExpectedEvidence_code {expected : Option EvidenceGeneration} {refusal : Refusal}
    (h : checkExpectedEvidence entry expected = some refusal) : refusal.1 = .staleGeneration := by
  unfold checkExpectedEvidence at h
  split at h
  · cases h
  split at h <;> cases h
  rfl

theorem checkExpectedState_code {expected : Option LinkStateGeneration} {refusal : Refusal}
    (h : checkExpectedState entry expected = some refusal) : refusal.1 = .staleGeneration := by
  unfold checkExpectedState at h
  split at h
  · cases h
  split at h <;> cases h
  rfl

theorem checkObservation_code {store : EngineStore} {observation : EvidenceRecord}
    {refusal : Refusal} (h : checkObservation store observation = some refusal) :
    refusal.1 = .malformedRequest := by
  unfold checkObservation at h
  split at h
  · cases h
  split at h <;> cases h
  rfl

theorem checkCapacity_declines {config : EngineConfig} {observation : EvidenceRecord}
    {refusal : Refusal} (h : checkCapacity config entry observation = some refusal) :
    refusal.1.accepts = false := by
  unfold checkCapacity at h
  split at h <;> cases h
  rfl

/-- The codes of what is refused before the slot of an observation is looked at. -/
theorem refusal_code {refusal : Refusal} (h : impl.refusal entry request = some refusal) :
    refusal.1 ∈ [.retiredLink, .unauthorizedPublisher, .staleCoordinatorEpoch, .staleAuthority,
      .unauthorizedScope, .staleTopology, .malformedRequest, .staleGeneration] := by
  simp only [Impl.refusal, Option.orElse_eq_some, Option.map_eq_some_iff] at h
  rcases h with h | ⟨-, h | ⟨-, ⟨_, -, rfl⟩ | ⟨-, h | ⟨-, h | ⟨-, h | ⟨-, h | ⟨-, h⟩⟩⟩⟩⟩⟩⟩
  · rw [checkLive_code h]; decide
  · exact List.mem_cons_of_mem _ (List.mem_append_left [_, _, _] (authorize_code h))
  · simp
  · rw [checkTopology_code h]; decide
  · rcases List.mem_pair.mp (checkEndpoint_code h) with hcode | hcode <;> rw [hcode] <;> decide
  · rw [checkExpectedEvidence_code h]; decide
  · rw [checkExpectedState_code h]; decide
  · rw [checkObservation_code h]; decide

theorem refusal_declines {refusal : Refusal} (h : impl.refusal entry request = some refusal) :
    refusal.1.accepts = false :=
  (show ∀ code ∈ [OutcomeCode.retiredLink, .unauthorizedPublisher, .staleCoordinatorEpoch,
    .staleAuthority, .unauthorizedScope, .staleTopology, .malformedRequest, .staleGeneration],
    code.accepts = false by decide) _ (refusal_code h)

theorem refused_declines {refusal : Refusal} (h : impl.admit request = .refused refusal) :
    refusal.1.accepts = false := by
  unfold Impl.admit at h
  dsimp only at h
  split at h
  · cases h
  split at h
  · cases h; rfl
  split at h
  · rename_i hrefusal
    cases h
    exact refusal_declines hrefusal
  split at h
  · cases h; rfl
  · cases h
  split at h
  · rename_i hcapacity
    cases h
    exact checkCapacity_declines hcapacity
  split at h
  · rename_i hok
    cases h
    exact prepareCommit_declines (by simpa using hok)
  · cases h

/-- What a replay has passed. -/
theorem replay_of_admit (h : impl.admit request = .replay entry) :
    impl.entryOf request.observation.key.link = some entry ∧ entry.record.state ≠ .retired ∧
    ∃ slot, findSlot entry request.observation.key = some slot ∧
      judgeSlot slot request.observation = .replay := by
  unfold Impl.admit at h
  dsimp only at h
  split at h
  · cases h
  split at h
  · cases h
  rename_i e hbound
  split at h
  · cases h
  rename_i hrefusal
  simp only [Impl.refusal, Option.orElse_eq_none] at hrefusal
  have hlive : e.record.state ≠ .retired := fun hr => by
    rw [checkLive, if_pos hr] at hrefusal
    cases hrefusal.1
  split at h
  · cases h
  · rename_i hslot
    cases h
    refine ⟨hbound, hlive, ?_⟩
    -- A free slot has no record to be replayed.
    cases hfound : findSlot entry request.observation.key with
    | none =>
      rw [hfound] at hslot
      cases hslot
    | some slot =>
      rw [hfound] at hslot
      exact ⟨slot, rfl, hslot⟩
  split at h
  · cases h
  split at h <;> cases h

variable (impl request)

theorem publishEvidence_outcome :
    Declined impl (impl.publishEvidence request) ∨
    (∃ entry, impl.admit request = .replay entry ∧
      (impl.publishEvidence request).1 = impl ∧
      (impl.publishEvidence request).2.outcome.code = .idempotent) ∨
    ∃ entry prepared, Admitted impl request entry prepared ∧
      impl.publishEvidence request = Edit.publish ⟨impl, entry⟩ request prepared := by
  unfold Impl.publishEvidence
  split
  · exact .inl (.same rfl)
  · rename_i hadmit
    exact .inl (.noted (refused_declines hadmit))
  · rename_i entry hadmit
    exact .inr (.inl ⟨entry, hadmit, rfl, rfl⟩)
  · rename_i entry prepared hadmit
    exact .inr (.inr ⟨entry, prepared, admitted_of_admit hadmit, rfl⟩)

end Publish

/-! ## Withdrawals -/

/-- What a withdrawal has passed. -/
structure Withdrawable (impl : Impl) (request : WithdrawEvidenceRequest) (entry : LinkEntry)
    (slot : EvidenceRecord) (prepared : PreparedCommit) : Prop where
  named : request.key.link.valid = true ∧ request.key.source.valid = true ∧
    request.observation.valid = true ∧ request.publisher.valid = true ∧
    request.workerBoot.valid = true
  bound : impl.entryOf request.key.link = some entry
  live : entry.record.state ≠ .retired
  authorized : authorize impl.store request.publisher request.workerBoot request.key.source
    request.epoch impl.epoch request.key.link entry.record.binding = none
  found : findSlot entry request.key = some slot
  permitted : checkWithdrawal slot request = none
  prepared_eq : prepared = prepareCommit impl entry (entry.current.filter (·.key ≠ request.key))
    .evidenceWithdrawal
  prepared_ok : prepared.ok = true

theorem checkWithdrawal_declines {slot : EvidenceRecord} {request : WithdrawEvidenceRequest}
    {refusal : Refusal} (h : checkWithdrawal slot request = some refusal) :
    refusal.1.accepts = false := by
  unfold checkWithdrawal at h
  split at h
  · cases h; rfl
  split at h
  · cases h; rfl
  split at h
  · cases h; rfl
  split at h <;> cases h
  rfl

section Requests

variable (impl : Impl)

theorem withdrawEvidence_outcome (request : WithdrawEvidenceRequest) :
    Declined impl (impl.withdrawEvidence request) ∨
    ∃ entry slot prepared, Withdrawable impl request entry slot prepared ∧
      impl.withdrawEvidence request = Edit.withdraw ⟨impl, entry⟩ request prepared := by
  unfold Impl.withdrawEvidence
  split
  · exact .inl (.same rfl)
  rename_i hnamed
  simp only [Bool.or_eq_true, Bool.not_eq_true', not_or, Bool.not_eq_false, and_assoc] at hnamed
  split
  · exact .inl (.same rfl)
  rename_i entry hbound
  split
  · exact .inl (.same rfl)
  rename_i hlive
  split
  · rename_i hauthorize
    exact .inl (.same (authorize_declines hauthorize))
  rename_i hauthorized
  split
  · exact .inl (.same rfl)
  rename_i slot hslot
  split
  · rename_i hcheck
    exact .inl (.same (checkWithdrawal_declines hcheck))
  rename_i hpermitted
  -- Every check has passed, and what is left is whether the commit is prepared.
  dsimp only
  split
  · rename_i hok
    exact .inl (.same (prepareCommit_declines (by simpa using hok)))
  · rename_i hok
    exact .inr ⟨entry, slot, _, ⟨hnamed, hbound, hlive, hauthorized, hslot, hpermitted, rfl,
      by simpa using hok⟩, rfl⟩

theorem Withdrawable.withdraw_eq {impl : Impl} {request : WithdrawEvidenceRequest}
    {entry : LinkEntry} {slot : EvidenceRecord} {prepared : PreparedCommit}
    (h : Withdrawable impl request entry slot prepared) :
    impl.withdrawEvidence request = Edit.withdraw ⟨impl, entry⟩ request prepared := by
  obtain ⟨h₁, h₂, h₃, h₄, h₅⟩ := h.named
  unfold Impl.withdrawEvidence
  rw [if_neg (by simp [h₁, h₂, h₃, h₄, h₅]), h.bound]
  dsimp only
  rw [if_neg h.live, h.authorized]
  dsimp only
  rw [h.found]
  dsimp only
  rw [h.permitted]
  dsimp only
  rw [← h.prepared_eq, if_neg (by simp [h.prepared_ok])]

/-! ## Revalidation -/

/-- What a demand for revalidation has passed. -/
structure Revalidatable (impl : Impl) (request : MarkRevalidationRequest) (entry : LinkEntry)
    (prepared : PreparedCommit) : Prop where
  named : request.link.valid = true ∧ request.publication.valid = true ∧
    request.publisher.valid = true ∧ request.workerBoot.valid = true
  bound : impl.entryOf request.link = some entry
  live : entry.record.state ≠ .retired
  authorized : authorize impl.store request.publisher request.workerBoot .null request.epoch
    impl.epoch request.link entry.record.binding = none
  expected : request.expectedStateGeneration.any (· ≠ entry.record.stateGeneration) = false
  holds : entry.current.any (·.publisher = request.publisher) = true
  prepared_eq : prepared = prepareCommit impl entry
    (entry.current.filter (·.publisher ≠ request.publisher)) .evidenceWithdrawal
  prepared_ok : prepared.ok = true

theorem markRevalidationRequired_outcome (request : MarkRevalidationRequest) :
    Declined impl (impl.markRevalidationRequired request) ∨
    ∃ entry prepared, Revalidatable impl request entry prepared ∧
      impl.markRevalidationRequired request =
        Edit.markRevalidation ⟨impl, entry⟩ request prepared := by
  unfold Impl.markRevalidationRequired
  split
  · exact .inl (.same rfl)
  rename_i hnamed
  simp only [Bool.or_eq_true, Bool.not_eq_true', not_or, Bool.not_eq_false, and_assoc] at hnamed
  split
  · exact .inl (.same rfl)
  rename_i entry hbound
  split
  · exact .inl (.same rfl)
  rename_i hlive
  split
  · rename_i hauthorize
    exact .inl (.same (authorize_declines hauthorize))
  rename_i hauthorized
  split
  · exact .inl (.same rfl)
  rename_i hexpected
  split
  · exact .inl (.same rfl)
  -- The publisher has evidence on the link.
  rename_i hholds
  dsimp only
  split
  · rename_i hok
    exact .inl (.same (prepareCommit_declines (by simpa using hok)))
  · rename_i hok
    exact .inr ⟨entry, _, ⟨hnamed, hbound, hlive, hauthorized, by simpa using hexpected,
      by simpa using hholds, rfl, by simpa using hok⟩, rfl⟩

theorem Revalidatable.mark_eq {impl : Impl} {request : MarkRevalidationRequest}
    {entry : LinkEntry} {prepared : PreparedCommit} (h : Revalidatable impl request entry prepared) :
    impl.markRevalidationRequired request =
      Edit.markRevalidation ⟨impl, entry⟩ request prepared := by
  obtain ⟨h₁, h₂, h₃, h₄⟩ := h.named
  unfold Impl.markRevalidationRequired
  rw [if_neg (by simp [h₁, h₂, h₃, h₄]), h.bound]
  dsimp only
  rw [if_neg h.live, h.authorized]
  dsimp only
  rw [if_neg (Bool.eq_false_iff.mp h.expected), if_neg (by simp [h.holds]), ← h.prepared_eq,
    if_neg (by simp [h.prepared_ok])]

/-! ## Explicit transitions -/

/-- What an explicit transition has passed when it looks at its target. -/
structure Transitionable (impl : Impl) (request : TransitionStateRequest) (entry : LinkEntry) :
    Prop where
  link : request.link.valid = true
  publication : request.publication.valid = true
  publisher : request.publisher.valid = true
  workerBoot : request.workerBoot.valid = true
  bound : impl.entryOf request.link = some entry
  live : entry.record.state ≠ .retired
  authorized : authorize impl.store request.publisher request.workerBoot .null request.epoch
    impl.epoch request.link entry.record.binding = none
  expected : checkExpectedState entry request.expectedStateGeneration = none

/-- What an explicit transition to UP has passed: there is an intent to lift. -/
structure Liftable (impl : Impl) (request : TransitionStateRequest) (entry : LinkEntry)
    (prepared : PreparedCommit) : Prop extends Transitionable impl request entry where
  target : request.target = .up
  intent : entry.record.adminIntent ≠ none
  prepared_eq : prepared = prepareCommit impl { entry with record.adminIntent := none }
    entry.current .revalidationOutcome
  prepared_ok : prepared.ok = true

/-- The intent that an explicit transition records. -/
def TransitionStateRequest.intent (request : TransitionStateRequest)
    (generation : GlobalGeneration) : AdministrativeIntent where
  state := request.target
  publication := request.publication
  publisher := request.publisher
  generation
  cause := request.degradationCause

/-- What an explicit transition that restricts the link has passed. -/
structure Imposable (impl : Impl) (request : TransitionStateRequest) (entry : LinkEntry)
    (prepared : PreparedCommit) : Prop extends Transitionable impl request entry where
  target : restrictive request.target = true
  cause : request.target = .degraded → request.degradationCause ≠ .none
  prepared_eq : prepared = prepareCommit impl
    { entry with record.adminIntent := some (request.intent impl.globalGeneration) }
    entry.current .explicitAdministrative
  prepared_ok : prepared.ok = true

theorem transitionState_outcome (request : TransitionStateRequest) :
    Declined impl (impl.transitionState request) ∨
    (∃ entry prepared, Liftable impl request entry prepared ∧ impl.transitionState request =
      (Edit.mk impl { entry with record.adminIntent := none }).changeIntent none request prepared
        (lit "administrative intent cleared; the state now follows current evidence")) ∨
    ∃ entry prepared, Imposable impl request entry prepared ∧ impl.transitionState request =
      (Edit.mk impl entry).changeIntent (some (request.intent impl.globalGeneration)) request
        prepared (lit "administrative intent recorded (" ++ request.target.text ++ lit ")") := by
  unfold Impl.transitionState
  split
  · exact .inl (.same rfl)
  rename_i hids
  simp only [Bool.or_eq_true, Bool.not_eq_true', not_or, Bool.not_eq_false] at hids
  split
  · exact .inl (.same rfl)
  rename_i entry hbound
  split
  · exact .inl (.same rfl)
  rename_i hlive
  split
  · exact .inl (.same rfl)
  split
  · exact .inl (.same rfl)
  split
  · rename_i hauthorize
    exact .inl (.same (authorize_declines hauthorize))
  rename_i hauthorized
  split
  · rename_i hexpected
    have hcode := congrArg OutcomeCode.accepts (checkExpectedState_code hexpected)
    exact .inl (.same hcode)
  rename_i hexpected
  -- What both kinds of request have passed; the target says which of the two it is.
  have hpassed : Transitionable impl request entry :=
    ⟨hids.1.1.1, hids.1.1.2, hids.1.2, hids.2, hbound, hlive, hauthorized, hexpected⟩
  split
  · rename_i htarget
    unfold Edit.liftIntent
    split
    · exact .inl (.same rfl)
    rename_i hintent
    dsimp only
    split
    · rename_i hok
      exact .inl (.same (prepareCommit_declines (by simpa using hok)))
    · rename_i hok
      exact .inr (.inl ⟨entry, _, { hpassed with
        target := htarget, intent := by simpa using hintent, prepared_eq := rfl
        prepared_ok := by simpa using hok }, rfl⟩)
  split
  · exact .inl (.same rfl)
  rename_i hrestrictive
  split
  · exact .inl (.same rfl)
  rename_i hcause
  unfold Edit.imposeIntent
  dsimp only
  split
  · rename_i hok
    exact .inl (.same (prepareCommit_declines (by simpa using hok)))
  · rename_i hok
    exact .inr (.inr ⟨entry, _, { hpassed with
      target := by simpa using hrestrictive, cause := fun h hc => hcause ⟨h, hc⟩
      prepared_eq := rfl, prepared_ok := Bool.of_not_eq_false (mt (congrArg (!·)) hok) }, rfl⟩)

theorem Liftable.transition_eq {impl : Impl} {request : TransitionStateRequest} {entry : LinkEntry}
    {prepared : PreparedCommit} (h : Liftable impl request entry prepared) :
    impl.transitionState request =
      (Edit.mk impl { entry with record.adminIntent := none }).changeIntent none request prepared
        (lit "administrative intent cleared; the state now follows current evidence") := by
  unfold Impl.transitionState
  rw [if_neg (by simp [h.link, h.publication, h.publisher, h.workerBoot]), h.bound]
  dsimp only
  rw [if_neg h.live, if_neg (by rw [h.target]; decide), if_neg (by rw [h.target]; decide),
    h.authorized]
  dsimp only
  rw [h.expected]
  dsimp only
  rw [if_pos h.target]
  unfold Edit.liftIntent
  dsimp only
  rw [if_neg (by simp [h.intent]), ← h.prepared_eq, if_neg (by simp [h.prepared_ok])]

/-! ## Topology -/

/-- What a retirement has passed. -/
structure Retirable (impl : Impl) (request : RetireLinkRequest) (entry : LinkEntry) : Prop where
  named : request.link.valid = true ∧ request.publication.valid = true
  bound : impl.entryOf request.link = some entry
  live : entry.record.state ≠ .retired
  authorized : authorize impl.store request.publisher request.workerBoot .null request.epoch
    impl.epoch request.link entry.record.binding = none
  topology : entry.record.binding.topologyGeneration ≤ request.topologyGeneration

theorem retireLink_outcome (request : RetireLinkRequest) :
    Declined impl (impl.retireLink request) ∨
    ((impl.retireLink request).1 = impl ∧
      (impl.retireLink request).2.outcome.code = .idempotent) ∨
    ∃ entry, Retirable impl request entry ∧
      impl.retireLink request = Edit.retire ⟨impl, entry⟩ request := by
  unfold Impl.retireLink
  split
  · exact .inl (.same rfl)
  rename_i hnamed
  simp only [Bool.or_eq_true, Bool.not_eq_true', not_or, Bool.not_eq_false] at hnamed
  split
  · exact .inl (.same rfl)
  rename_i entry hbound
  split
  · rename_i hauthorize
    exact .inl (.same (authorize_declines hauthorize))
  rename_i hauthorized
  split
  · exact .inr (.inl ⟨rfl, rfl⟩)
  rename_i hlive
  split
  · exact .inl (.same rfl)
  rename_i htopology
  split
  · exact .inl (.same rfl)
  · exact .inr (.inr ⟨entry, ⟨hnamed, hbound, hlive, hauthorized, not_lt.mp htopology⟩, rfl⟩)

theorem Retirable.retire_eq {impl : Impl} {request : RetireLinkRequest} {entry : LinkEntry}
    (h : Retirable impl request entry) :
    impl.retireLink request = Edit.retire ⟨impl, entry⟩ request := by
  have hlegal : evaluateTransition entry.record.state .retired .retirement = .legal := by
    have hlive := h.live
    revert hlive
    cases entry.record.state <;> decide
  obtain ⟨h₁, h₂⟩ := h.named
  unfold Impl.retireLink
  rw [if_neg (by simp [h₁, h₂]), h.bound]
  dsimp only
  rw [h.authorized]
  dsimp only
  rw [if_neg h.live, if_neg (not_lt.mpr h.topology), if_neg (not_not.mpr hlegal)]

/-- What a first binding has passed. -/
structure Bindable (impl : Impl) (binding : TopologyBinding) : Prop where
  valid : validBinding binding = none
  unbound : impl.entryOf binding.link = none
  capacity : impl.store.links.keys.card < impl.config.maxLinks
  global : (Edit.mk impl (newEntry binding)).advance .global ≠ none

theorem Bindable.bindNew_code {impl : Impl} {binding : TopologyBinding}
    (h : Bindable impl binding) : (impl.bindNew binding).2.outcome.code = .committed := by
  unfold Impl.bindNew
  rw [if_neg (not_le.mpr h.capacity)]
  split
  · rename_i hc
    rw [Edit.advanceAll] at hc
    split at hc
    · exact absurd ‹_› h.global
    · cases hc
  · rfl

/-- What a rebinding of a link that is bound has passed. -/
structure Rebindable (impl : Impl) (link : LinkId) (entry : LinkEntry) (binding : TopologyBinding) :
    Prop where
  bound : impl.entryOf link = some entry
  live : entry.record.state ≠ .retired
  link_eq : binding.link = link ∨ binding.link = entry.record.binding.link
  newer : entry.record.binding.topologyGeneration < binding.topologyGeneration

theorem bindLink_outcome (request : BindLinkRequest) :
    Declined impl (impl.bindLink request) ∨
    ((impl.bindLink request).1 = impl ∧ (impl.bindLink request).2.outcome.code = .idempotent) ∨
    (Bindable impl request.binding.normalize ∧
      impl.bindLink request = impl.bindNew request.binding.normalize) ∨
    ∃ entry, validBinding request.binding.normalize = none ∧
      Rebindable impl request.binding.normalize.link entry request.binding.normalize ∧
      impl.bindLink request = Edit.applyRebinding ⟨impl, entry⟩ request.binding.normalize.link
        request.binding.normalize (lit "topology generation advanced") := by
  unfold Impl.bindLink
  dsimp only
  split
  · exact .inl (.same rfl)
  rename_i hvalid
  split
  · rename_i hunbound
    -- A new link needs a place, and a global generation.
    by_cases hcapacity : impl.config.maxLinks ≤ impl.store.links.keys.card
    · unfold Impl.bindNew
      rw [if_pos hcapacity]
      exact .inl (.same rfl)
    by_cases hglobal : (Edit.mk impl (newEntry request.binding.normalize)).advance .global = none
    · unfold Impl.bindNew
      rw [if_neg hcapacity, Edit.advanceAll, hglobal]
      exact .inl (.same rfl)
    · exact .inr (.inr (.inl ⟨⟨hvalid, hunbound, not_le.mp hcapacity, hglobal⟩, rfl⟩))
  rename_i entry hbound
  split
  · exact .inl (.same rfl)
  rename_i hlive
  split
  · exact .inl (.same rfl)
  -- The same generation with the same binding is idempotent, and with another one a conflict.
  rename_i hnotOlder
  split
  · split
    · exact .inr (.inl ⟨rfl, rfl⟩)
    · exact .inl (.same rfl)
  rename_i hnotSame
  exact .inr (.inr (.inr ⟨entry, hvalid, ⟨hbound, hlive, .inl rfl,
    lt_of_le_of_ne (not_lt.mp hnotOlder) (Ne.symm hnotSame)⟩, rfl⟩))

theorem Rebindable.bind_eq {impl : Impl} {request : BindLinkRequest} {entry : LinkEntry}
    (hvalid : validBinding request.binding.normalize = none)
    (h : Rebindable impl request.binding.normalize.link entry request.binding.normalize) :
    impl.bindLink request = Edit.applyRebinding ⟨impl, entry⟩ request.binding.normalize.link
      request.binding.normalize (lit "topology generation advanced") := by
  unfold Impl.bindLink
  dsimp only
  rw [hvalid, h.bound]
  dsimp only
  rw [if_neg h.live, if_neg (not_lt.mpr h.newer.le), if_neg h.newer.ne']

theorem supersedingBinding_spec {request : SupersedeTopologyRequest}
    {bound binding : TopologyBinding} (h : supersedingBinding request bound = .ok binding) :
    (binding.link = request.link ∨ binding.link = bound.link) ∧
      binding.topologyGeneration = request.newTopologyGeneration := by
  unfold supersedingBinding at h
  split at h
  · cases h
    exact ⟨.inr rfl, rfl⟩
  dsimp only at h
  split at h
  · cases h
  split at h
  · cases h
  · rename_i hlink
    cases h
    exact ⟨.inl (not_not.mp hlink), rfl⟩

theorem supersedeTopology_outcome (request : SupersedeTopologyRequest) :
    Declined impl (impl.supersedeTopology request) ∨
    ∃ entry binding, request.link.valid = true ∧
      supersedingBinding request entry.record.binding = .ok binding ∧
      Rebindable impl request.link entry binding ∧
      impl.supersedeTopology request = Edit.applyRebinding ⟨impl, entry⟩ request.link binding
        (withReason (lit "topology supersession") request.reason) := by
  unfold Impl.supersedeTopology
  split
  · exact .inl (.same rfl)
  rename_i hlink
  split
  · exact .inl (.same rfl)
  rename_i entry hbound
  dsimp only
  split
  · exact .inl (.same rfl)
  rename_i hlive
  split
  · exact .inl (.same rfl)
  rename_i hnewer
  split
  · exact .inl (.same rfl)
  rename_i binding hbinding
  obtain ⟨hsame, hgeneration⟩ := supersedingBinding_spec hbinding
  refine .inr ⟨entry, binding, by simpa using hlink, hbinding, ⟨hbound, hlive, hsame, ?_⟩, rfl⟩
  rw [hgeneration]
  simpa using hnewer

theorem Rebindable.supersede_eq {impl : Impl} {request : SupersedeTopologyRequest}
    {entry : LinkEntry} {binding : TopologyBinding} (hlink : request.link.valid = true)
    (hbinding : supersedingBinding request entry.record.binding = .ok binding)
    (h : Rebindable impl request.link entry binding) :
    impl.supersedeTopology request = Edit.applyRebinding ⟨impl, entry⟩ request.link binding
      (withReason (lit "topology supersession") request.reason) := by
  have hnewer := h.newer
  rw [(supersedingBinding_spec hbinding).2] at hnewer
  unfold Impl.supersedeTopology
  rw [if_neg (by simp [hlink]), h.bound]
  dsimp only
  rw [if_neg h.live, if_neg (by simpa using hnewer), hbinding]

/-! ## Publishers -/

/-- What a registration has passed that supersedes another boot of its publisher. -/
structure Supersedes (impl : Impl) (registration : PublisherRegistration)
    (authority : PublisherAuthority) : Prop where
  named : registration.publisher.valid = true ∧ registration.workerBoot.valid = true ∧
    registration.source.valid = true
  known : impl.store.publishers.lookup registration.publisher = some authority
  boot : authority.workerBoot ≠ registration.workerBoot
  unfenced : impl.bootIsFenced registration.publisher registration.workerBoot = false
  epoch : registration.epoch = impl.epoch

theorem registerPublisher_outcome (request : RegisterPublisherRequest) :
    Declined impl (impl.registerPublisher request) ∨
    (∃ authority, (impl.registerPublisher request).1 =
        impl.putAuthority request.registration.publisher authority ∧
      (impl.registerPublisher request).2.outcome.code = .committed) ∨
    ∃ scope authority, request.registration.scope.normalize = some scope ∧
      Supersedes impl { request.registration with scope } authority ∧
      impl.registerPublisher request =
        impl.supersedeBoot { request.registration with scope } authority := by
  unfold Impl.registerPublisher
  dsimp only
  split
  · exact .inl (.same rfl)
  rename_i hnamed
  simp only [Bool.or_eq_true, Bool.not_eq_true', not_or, Bool.not_eq_false, and_assoc] at hnamed
  split
  · exact .inl (.same rfl)
  rename_i scope hscope
  split
  · exact .inl (.same rfl)
  rename_i hepoch
  split
  · exact .inl (.same rfl)
  rename_i hunfenced
  unfold Impl.admitRegistration
  dsimp only
  split
  -- A known publisher under the same boot is refreshed, and under another one superseded.
  · rename_i authority hknown
    split
    · split
      · exact .inl (.same rfl)
      · exact .inr (.inl ⟨_, rfl, rfl⟩)
    · rename_i hboot
      exact .inr (.inr ⟨scope, authority, hscope, ⟨hnamed, hknown, hboot, by simpa using hunfenced,
        not_not.mp hepoch⟩, rfl⟩)
  · split
    · exact .inl (.same rfl)
    · exact .inr (.inl ⟨_, rfl, rfl⟩)

theorem Supersedes.register_eq {impl : Impl} {request : RegisterPublisherRequest}
    {scope : AuthorityScope} {authority : PublisherAuthority}
    (hscope : request.registration.scope.normalize = some scope)
    (h : Supersedes impl { request.registration with scope } authority) :
    impl.registerPublisher request =
      impl.supersedeBoot { request.registration with scope } authority := by
  obtain ⟨h₁, h₂, h₃⟩ := h.named
  unfold Impl.registerPublisher
  dsimp only
  rw [if_neg (by simp [h₁, h₂, h₃]), hscope]
  dsimp only
  rw [if_neg (not_not.mpr h.epoch), if_neg (by simp [h.unfenced])]
  unfold Impl.admitRegistration
  rw [h.known]
  dsimp only
  rw [if_neg h.boot]

theorem invalidatePublisher_outcome (request : InvalidatePublisherRequest) :
    Declined impl (impl.invalidatePublisher request) ∨
    ((impl.invalidatePublisher request).1 = impl ∧
      (impl.invalidatePublisher request).2.outcome.code = .idempotent) ∨
    ∃ authority, impl.store.publishers.lookup request.publisher = some authority ∧
      (impl.invalidatePublisher request).1 = impl.fencePublisher request.publisher
        authority.workerBoot true .fenced
        (withReason (lit "publisher invalidated") request.reason) ∧
      (impl.invalidatePublisher request).2.outcome.code = .committed := by
  unfold Impl.invalidatePublisher
  split
  · exact .inl (.same rfl)
  split
  · exact .inl (.same rfl)
  rename_i authority hknown
  split
  · exact .inl (.same rfl)
  split
  · exact .inr (.inl ⟨rfl, rfl⟩)
  split
  · exact .inl (.same rfl)
  · exact .inr (.inr ⟨authority, hknown, rfl, rfl⟩)

theorem advanceCoordinatorEpoch_outcome (request : AdvanceEpochRequest) :
    Declined impl (impl.advanceCoordinatorEpoch request) ∨
    ((impl.advanceCoordinatorEpoch request).1 = impl ∧
      (impl.advanceCoordinatorEpoch request).2.outcome.code = .idempotent) ∨
    impl.epoch < request.newEpoch ∧
      (impl.advanceCoordinatorEpoch request).1 =
        List.foldl Impl.fenceStale { impl with epoch := request.newEpoch }
          (Impl.stalePublishers { impl with epoch := request.newEpoch }) ∧
      (impl.advanceCoordinatorEpoch request).2.outcome.code = .committed := by
  unfold Impl.advanceCoordinatorEpoch
  split
  · exact .inl (.same rfl)
  rename_i hnotOlder
  split
  · exact .inr (.inl ⟨rfl, rfl⟩)
  rename_i hnotSame
  exact .inr (.inr ⟨lt_of_le_of_ne (not_lt.mp hnotOlder) (Ne.symm hnotSame), rfl, rfl⟩)

end Requests

end LinkState
