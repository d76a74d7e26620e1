import LinkStateFabric.Engine.Fencing
import LinkStateFabric.Results.Indexes

/-!
# Evidence needs authority

* `Impl.Incumbent`: the active incarnation of a publisher, at the epoch of the engine.
* `Impl.Endorsed`: all current evidence was published by incumbents. Whatever ends an incarnation
  drops its evidence from every link.
* `Rejected`: a request of anyone else is an error and changes nothing but tallies.
-/

namespace LinkState

/-- The incarnation is the active one of its publisher, and its epoch that of the engine. -/
def Impl.Incumbent (impl : Impl) (publisher : PublisherId) (boot : WorkerBootId)
    (epoch : CoordinatorEpoch) : Prop :=
  epoch = impl.epoch ∧ ∃ authority, impl.store.publishers.lookup publisher = some authority ∧
    authority.status = .active ∧ authority.workerBoot = boot ∧ authority.epoch = epoch

theorem Impl.Incumbent.congr {impl impl' : Impl} {publisher : PublisherId} {boot : WorkerBootId}
    {epoch : CoordinatorEpoch} (h : impl.Incumbent publisher boot epoch)
    (hepoch : impl'.epoch = impl.epoch)
    (hstanding : (impl'.standing publisher).authority = (impl.standing publisher).authority) :
    impl'.Incumbent publisher boot epoch := by
  obtain ⟨he, authority, hauthority, hstatus, hboot, hepoch'⟩ := h
  rw [Impl.standing_authority hauthority] at hstanding
  obtain ⟨authority', hauthority', hcore⟩ := Option.map_eq_some_iff.mp hstanding
  refine ⟨he.trans hepoch.symm, authority', hauthority', ?_, ?_, ?_⟩
  · exact (congrArg (·.status) hcore).trans hstatus
  · exact (congrArg (·.workerBoot) hcore).trans hboot
  · exact (congrArg (·.epoch) hcore).trans hepoch'

/-- All current evidence is that of incumbents. -/
def Impl.Endorsed (impl : Impl) : Prop :=
  ∀ link, ∀ record ∈ impl.currentEvidence link,
    impl.Incumbent record.publisher record.workerBoot record.epoch

theorem Impl.Endorsed.of_subset {impl impl' : Impl} (h : impl.Endorsed)
    (hevidence : ∀ link, impl'.currentEvidence link ⊆ impl.currentEvidence link)
    (hauthority : SameAuthority impl impl') : impl'.Endorsed := fun link record hrecord =>
  (h link record (hevidence link hrecord)).congr hauthority.epoch
    (by rw [hauthority.standing])

/-! ## Authorization -/

/-- Only incumbents are authorized. -/
theorem incumbent_of_authorize {impl : Impl} {publisher : PublisherId} {boot : WorkerBootId}
    {source : SourceId} {epoch : CoordinatorEpoch} {link : LinkId} {binding : TopologyBinding}
    (h : authorize impl.store publisher boot source epoch impl.epoch link binding = none) :
    impl.Incumbent publisher boot epoch := by
  unfold authorize at h
  split at h
  · cases h
  rename_i authority hauthority
  split at h
  · cases h
  rename_i hepoch
  split at h
  · cases h
  rename_i hboot
  obtain ⟨he, hepoch⟩ := not_or.mp hepoch
  split at h
  · cases h
  · cases h
  · cases h
  · rename_i hactive
    exact ⟨not_not.mp he, authority, hauthority, hactive, not_not.mp hboot,
      (not_not.mp hepoch).trans (not_not.mp he).symm⟩

/-- A refusal is an error. -/
def OutcomeCode.refuses (code : OutcomeCode) : Prop := (Outcome.make code []).isError = true

instance (code : OutcomeCode) : Decidable code.refuses :=
  inferInstanceAs (Decidable ((Outcome.make code []).isError = true))

theorem authorize_refuses {store : EngineStore} {publisher : PublisherId} {boot : WorkerBootId}
    {source : SourceId} {epoch engineEpoch : CoordinatorEpoch} {link : LinkId}
    {binding : TopologyBinding} {refusal : Refusal}
    (h : authorize store publisher boot source epoch engineEpoch link binding = some refusal) :
    refusal.1.refuses := by
  unfold authorize at h
  split at h
  · cases h; exact rfl
  split at h
  · cases h; exact rfl
  split at h
  · cases h; exact rfl
  split at h
  · cases h; exact rfl
  · cases h; exact rfl
  · cases h; exact rfl
  split at h
  · cases h; exact rfl
  split at h
  · cases h; exact rfl
  split at h
  · cases h; exact rfl
  · cases h

/-! ## Operations -/

section Operations

variable {impl : Impl} (hindexed : Indexed impl) (h : impl.Endorsed)

include h

theorem publishEvidence_endorsed (request : PublishEvidenceRequest) :
    (impl.publishEvidence request).1.Endorsed := by
  have hsteps : Steps (· = .publish) impl _ := publishEvidence_steps impl (by exact rfl) request
  have hauthority := hsteps.sameAuthority nofun
  rcases publishEvidence_currentEvidence impl request with hsub | ⟨entry, _, hadmitted, hevidence⟩
  · exact h.of_subset hsub hauthority
  intro link record hrecord
  have hstanding (p : PublisherId) := congrArg (·.authority) (hauthority.standing p)
  rcases hevidence link record hrecord with ⟨hmem, -⟩ | ⟨-, t, rfl⟩
  · exact (h link record hmem).congr hauthority.epoch (hstanding _)
  · exact (incumbent_of_authorize hadmitted.authorized).congr hauthority.epoch (hstanding _)

/-- A new authority for a publisher without evidence. -/
theorem putAuthority_endorsed {publisher : PublisherId} {authority : PublisherAuthority}
    (hnone : ∀ link, ∀ record ∈ impl.currentEvidence link, record.publisher ≠ publisher) :
    (impl.putAuthority publisher authority).Endorsed := by
  intro link record hrecord
  refine (h link record hrecord).congr rfl ?_
  rw [standing_putAuthority, if_neg (hnone link record hrecord)]

include hindexed

/-- The evidence of others keeps its authority when a publisher is fenced. -/
theorem fencePublisher_endorsed (publisher : PublisherId) (boot : WorkerBootId)
    (status : AuthorityStatus) (reason : Text) :
    (impl.fencePublisher publisher boot true status reason).Endorsed := by
  intro link record hrecord
  obtain ⟨hmem, hne⟩ := fencePublisher_currentEvidence hindexed hrecord
  refine (h link record hmem).congr (fencePublisher_epoch ..) ?_
  rw [standing_fencePublisher, if_neg hne]

theorem admitRegistration_endorsed (registration : PublisherRegistration) :
    (impl.admitRegistration registration).1.Endorsed := by
  unfold Impl.admitRegistration
  split
  · rename_i authority hauthority
    split
    · split
      · exact h
      -- A refresh keeps the status, the boot and the epoch.
      · rename_i generation _
        intro link record hrecord
        obtain ⟨he, a, ha, hstatus, hboot, hepoch⟩ := h link record hrecord
        by_cases hp : record.publisher = registration.publisher
        · rw [hp, hauthority] at ha
          cases ha
          refine ⟨he, { authority with
            generation, scope := registration.scope, source := registration.source }, ?_, hstatus,
            hboot, hepoch⟩
          rw [hp]
          exact Finmap.lookup_insert _
        · exact ⟨he, a, (Finmap.lookup_insert_of_ne _ hp).trans ha, hstatus, hboot, hepoch⟩
    · unfold Impl.supersedeBoot
      have hfenced := fencePublisher_endorsed hindexed h registration.publisher
        authority.workerBoot .superseded
        (lit "superseded by worker boot " ++ registration.workerBoot.value)
      dsimp only
      split
      · exact hfenced
      · exact putAuthority_endorsed hfenced fun link record hrecord =>
          (fencePublisher_currentEvidence hindexed hrecord).2
  · rename_i hnone
    split
    · exact h
    · refine putAuthority_endorsed h fun link record hrecord hp => ?_
      obtain ⟨-, a, ha, -⟩ := h link record hrecord
      rw [hp, hnone] at ha
      cases ha

theorem registerPublisher_endorsed (request : RegisterPublisherRequest) :
    (impl.registerPublisher request).1.Endorsed := by
  cases henrols : impl.enrols request.registration with
  | false => rw [(registerPublisher_of_not_enrols impl henrols).1]; exact h
  | true =>
    obtain ⟨scope, heq⟩ := registerPublisher_of_enrols impl henrols
    rw [heq]
    exact admitRegistration_endorsed hindexed h _

theorem invalidatePublisher_endorsed (request : InvalidatePublisherRequest) :
    (impl.invalidatePublisher request).1.Endorsed := by
  rcases invalidatePublisher_cases impl request with ⟨heq, -⟩ | ⟨_, _, -, -, heq⟩
  · rw [heq]; exact h
  · rw [heq]; exact fencePublisher_endorsed hindexed h _ _ _ _

end Operations

/-- The publishers that a loop over stale publishers has fenced have no evidence. -/
theorem foldl_fenceStale_currentEvidence (stale : List PublisherId) {impl : Impl}
    (hindexed : Indexed impl) {link : LinkId} {record : EvidenceRecord}
    (h : record ∈ (stale.foldl Impl.fenceStale impl).currentEvidence link) :
    record ∈ impl.currentEvidence link ∧
      (record.publisher ∈ stale → (impl.standing record.publisher).authority = none) := by
  induction stale generalizing impl with
  | nil => exact ⟨h, nofun⟩
  | cons p stale ih =>
    have hsteps : Steps (· = .authority) impl (impl.fenceStale p) :=
      fenceStale_steps impl (by exact rfl) p
    obtain ⟨hmem, hrest⟩ := ih (hindexed.steps hsteps) h
    refine ⟨hsteps.evidence_subset nofun link hmem, fun hp => ?_⟩
    rcases List.mem_cons.mp hp with hp | hp
    · unfold Impl.fenceStale at hmem
      split at hmem
      · rename_i hnone
        unfold Impl.standing
        rw [hp, hnone]
        rfl
      · exact absurd hp (fencePublisher_currentEvidence hindexed hmem).2
    · have := hrest hp
      rw [standing_fenceStale] at this
      split at this
      · unfold Standing.endEpoch at this
        split at this
        · exact this
        · rename_i authority hauthority
          simp [Standing.fence, hauthority] at this
      · exact this

/-- No evidence outlives its epoch. -/
theorem foldl_fenceStale_currentEvidence_nil {impl : Impl} (hindexed : Indexed impl)
    (h : impl.Endorsed) {epoch : CoordinatorEpoch} (hlt : impl.epoch < epoch) (link : LinkId) :
    (List.foldl Impl.fenceStale { impl with epoch } (Impl.stalePublishers
      { impl with epoch })).currentEvidence link = [] := by
  rw [List.eq_nil_iff_forall_not_mem]
  intro record hrecord
  have hindexed' : Indexed { impl with epoch } :=
    hindexed.outside ⟨rfl, rfl, rfl, rfl, rfl, rfl, fun _ _ hl _ => hl, rfl, rfl, rfl, .inl rfl⟩
  obtain ⟨hmem, hstale⟩ := foldl_fenceStale_currentEvidence _ hindexed' hrecord
  obtain ⟨he, authority, hauthority, -, -, hepoch⟩ := h link record hmem
  have hnone := hstale ((mem_stalePublishers _ _).mpr ⟨authority, hauthority, by
    rw [hepoch, he]; exact hlt⟩)
  have hsome : (impl.standing record.publisher).authority = none := hnone
  rw [Impl.standing_authority hauthority] at hsome
  cases hsome

theorem advanceCoordinatorEpoch_endorsed {impl : Impl} (hindexed : Indexed impl)
    (h : impl.Endorsed) (request : AdvanceEpochRequest) :
    (impl.advanceCoordinatorEpoch request).1.Endorsed := by
  unfold Impl.advanceCoordinatorEpoch
  split
  · exact h
  rename_i hle
  split
  · exact h
  rename_i hne
  intro link record hrecord
  have hnil := foldl_fenceStale_currentEvidence_nil hindexed h
    (lt_of_le_of_ne (not_lt.mp hle) (Ne.symm hne)) link
  exact absurd (hnil ▸ hrecord) List.not_mem_nil

theorem Impl.Endorsed.apply {impl : Impl} (hindexed : Indexed impl) (h : impl.Endorsed) (op : Op) :
    (impl.apply op).Endorsed := by
  have hother (hload : op.isLoad = false) (hp : ¬ op.kinds .publish) (ha : ¬ op.kinds .authority) :
      (impl.apply op).Endorsed :=
    h.of_subset (fun link => (apply_steps impl hload).evidence_subset hp link)
      ((apply_steps impl hload).sameAuthority ha)
  cases op with
  | registerPublisher request => exact registerPublisher_endorsed hindexed h request
  | invalidatePublisher request => exact invalidatePublisher_endorsed hindexed h request
  | advanceCoordinatorEpoch request => exact advanceCoordinatorEpoch_endorsed hindexed h request
  | publishEvidence request => exact publishEvidence_endorsed h request
  | load config steps file =>
    show (impl.load config steps file).1.Endorsed
    rcases load_currentEvidence impl config steps file with heq | hnil
    · rw [heq]
      exact h
    · intro link record hrecord
      rw [hnil] at hrecord
      cases hrecord
  | _ => exact hother rfl nofun nofun

theorem Impl.Reachable.endorsed {impl : Impl} (h : impl.Reachable) : impl.Endorsed := by
  refine h.invariant_of (P := Impl.Endorsed) (fun _ => Impl.Reachable.indexed) ?_
    fun _ op hindexed h _ => h.apply hindexed op
  rintro _ ⟨config, rfl⟩ link record hrecord
  unfold Impl.currentEvidence at hrecord
  rw [Impl.entryOf_create] at hrecord
  cases hrecord

/-! ## Rejected requests -/

/-- The request is an error, and no link, no evidence, no authority and no generation has changed. -/
def Rejected (impl : Impl) (p : Impl × LinkMutationResult) : Prop :=
  p.2.outcome.isError = true ∧ SameLinks impl p.1 ∧ SameAuthority impl p.1

theorem rejected_self {impl : Impl} {code : OutcomeCode} {detail : Text} (h : code.refuses) :
    Rejected impl (impl, failed code detail) :=
  ⟨h, .refl impl, .refl impl⟩

section Rejected

variable {impl : Impl}

theorem authorize_of_not_incumbent {publisher : PublisherId} {boot : WorkerBootId}
    {epoch : CoordinatorEpoch} (h : ¬ impl.Incumbent publisher boot epoch) (source : SourceId)
    (link : LinkId) (binding : TopologyBinding) :
    ∃ code detail, authorize impl.store publisher boot source epoch impl.epoch link binding =
      some (code, detail) ∧ code.refuses := by
  cases hauthorize : authorize impl.store publisher boot source epoch impl.epoch link binding with
  | none => exact absurd (incumbent_of_authorize hauthorize) h
  | some refusal => exact ⟨_, _, rfl, authorize_refuses hauthorize⟩

theorem refusal_of_not_incumbent {request : PublishEvidenceRequest}
    (h : ¬ impl.Incumbent request.observation.publisher request.observation.workerBoot
      request.observation.epoch) (entry : LinkEntry) :
    ∃ code detail, impl.refusal entry request = some (code, detail) ∧ code.refuses := by
  obtain ⟨code, detail, hauthorize, hcode⟩ := authorize_of_not_incumbent h
    request.observation.key.source request.observation.key.link entry.record.binding
  unfold Impl.refusal checkLive
  dsimp only
  rw [hauthorize]
  by_cases hretired : entry.record.state = .retired
  · rw [if_pos hretired]
    exact ⟨_, _, rfl, rfl⟩
  · rw [if_neg hretired]
    exact ⟨_, _, rfl, hcode⟩

theorem publishEvidence_rejected {request : PublishEvidenceRequest}
    (h : ¬ impl.Incumbent request.observation.publisher request.observation.workerBoot
      request.observation.epoch) : Rejected impl (impl.publishEvidence request) := by
  have hnote {code : OutcomeCode} {detail : Text} (hcode : code.refuses) : Rejected impl
      (impl.noteRejection request.observation.publisher, failed code detail) :=
    ⟨hcode, noteRejection_sameLinks impl _, noteRejection_sameAuthority impl _⟩
  unfold Impl.publishEvidence Impl.admit
  dsimp only
  cases validateObservation request.observation request.publication with
  | some error => exact rejected_self rfl
  | none =>
    cases impl.entryOf request.observation.key.link with
    | none => exact hnote rfl
    | some entry =>
      obtain ⟨code, detail, hrefusal, hcode⟩ := refusal_of_not_incumbent h entry
      dsimp only
      rw [hrefusal]
      exact hnote hcode

theorem withdrawEvidence_rejected {request : WithdrawEvidenceRequest}
    (h : ¬ impl.Incumbent request.publisher request.workerBoot request.epoch) :
    Rejected impl (impl.withdrawEvidence request) := by
  unfold Impl.withdrawEvidence
  split
  · exact rejected_self rfl
  split
  · exact rejected_self rfl
  rename_i entry _
  split
  · exact rejected_self rfl
  obtain ⟨code, detail, hauthorize, hcode⟩ := authorize_of_not_incumbent h request.key.source
    request.key.link entry.record.binding
  rw [hauthorize]
  exact rejected_self hcode

theorem transitionState_rejected {request : TransitionStateRequest}
    (h : ¬ impl.Incumbent request.publisher request.workerBoot request.epoch) :
    Rejected impl (impl.transitionState request) := by
  unfold Impl.transitionState
  split
  · exact rejected_self rfl
  split
  · exact rejected_self rfl
  rename_i entry _
  split
  · exact rejected_self rfl
  split
  · exact rejected_self rfl
  split
  · exact rejected_self rfl
  obtain ⟨code, detail, hauthorize, hcode⟩ := authorize_of_not_incumbent h .null request.link
    entry.record.binding
  rw [hauthorize]
  exact rejected_self hcode

theorem markRevalidationRequired_rejected {request : MarkRevalidationRequest}
    (h : ¬ impl.Incumbent request.publisher request.workerBoot request.epoch) :
    Rejected impl (impl.markRevalidationRequired request) := by
  unfold Impl.markRevalidationRequired
  split
  · exact rejected_self rfl
  split
  · exact rejected_self rfl
  rename_i entry _
  split
  · exact rejected_self rfl
  obtain ⟨code, detail, hauthorize, hcode⟩ := authorize_of_not_incumbent h .null request.link
    entry.record.binding
  rw [hauthorize]
  exact rejected_self hcode

theorem retireLink_rejected {request : RetireLinkRequest}
    (h : ¬ impl.Incumbent request.publisher request.workerBoot request.epoch) :
    Rejected impl (impl.retireLink request) := by
  unfold Impl.retireLink
  split
  · exact rejected_self rfl
  split
  · exact rejected_self rfl
  rename_i entry _
  obtain ⟨code, detail, hauthorize, hcode⟩ := authorize_of_not_incumbent h .null request.link
    entry.record.binding
  rw [hauthorize]
  exact rejected_self hcode

end Rejected

/-- In every reachable engine all current evidence is that of active incarnations at the engine's
epoch, and every request in the name of anything else is rejected. -/
theorem evidence_endorsed {impl : Impl} (h : impl.Reachable) :
    (∀ link, ∀ record ∈ impl.currentEvidence link,
      impl.Incumbent record.publisher record.workerBoot record.epoch) ∧
    (∀ request : PublishEvidenceRequest, ¬ impl.Incumbent request.observation.publisher
        request.observation.workerBoot request.observation.epoch →
      Rejected impl (impl.publishEvidence request)) ∧
    (∀ request : WithdrawEvidenceRequest,
      ¬ impl.Incumbent request.publisher request.workerBoot request.epoch →
      Rejected impl (impl.withdrawEvidence request)) ∧
    (∀ request : TransitionStateRequest,
      ¬ impl.Incumbent request.publisher request.workerBoot request.epoch →
      Rejected impl (impl.transitionState request)) ∧
    (∀ request : MarkRevalidationRequest,
      ¬ impl.Incumbent request.publisher request.workerBoot request.epoch →
      Rejected impl (impl.markRevalidationRequired request)) ∧
    (∀ request : RetireLinkRequest,
      ¬ impl.Incumbent request.publisher request.workerBoot request.epoch →
      Rejected impl (impl.retireLink request)) :=
  ⟨h.endorsed, fun _ => publishEvidence_rejected, fun _ => withdrawEvidence_rejected,
    fun _ => transitionState_rejected, fun _ => markRevalidationRequired_rejected,
    fun _ => retireLink_rejected⟩

theorem evidence_endorsed_sample :
    ∃ record ∈ Sample.engine.currentEvidence Sample.link,
      Sample.engine.Incumbent record.publisher record.workerBoot record.epoch := by
  obtain ⟨record, hrecord⟩ := List.exists_mem_of_ne_nil _
    (show Sample.engine.currentEvidence Sample.link ≠ [] by decide)
  exact ⟨record, hrecord, (evidence_endorsed Sample.reachable).1 Sample.link record hrecord⟩

end LinkState
