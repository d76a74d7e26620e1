import LinkStateFabric.Engine.Dispositions
import LinkStateFabric.Engine.Restored
import LinkStateFabric.Results.Authority
import LinkStateFabric.Results.Topology

/-!
# Evidence is within the scope of its publisher

* `Grant`: the source and the scope that a publisher is registered for. An observation is admitted
  if the grant of its publisher covers it (`Admitted.covered`).
* `Impl.Scoped`: the grants cover all current evidence. A rebinding leaves no evidence on its link
  (`EditStep.rebound`), and an incarnation that ends none anywhere; but a registration of the same
  boot replaces the grant and keeps the evidence.
* `scoped_iff`: the evidence stays in scope as long as those registrations cover what is there
  (`Impl.KeepsScope`), and only then.
-/

namespace LinkState

open Sorting

/-! ## Grants -/

/-- What a publisher is registered for. -/
structure Grant where
  source : SourceId
  scope : AuthorityScope
  deriving DecidableEq

/-- The grant covers a record of a link with this binding. -/
structure Grant.Covers (grant : Grant) (link : LinkId) (binding : TopologyBinding)
    (record : EvidenceRecord) : Prop where
  link : grant.scope.covers link = true
  source : record.key.source = grant.source
  fabric : grant.scope.fabric.valid = true → binding.fabric.valid = true →
    grant.scope.fabric = binding.fabric

def PublisherAuthority.grant (authority : PublisherAuthority) : Grant where
  source := authority.source
  scope := authority.scope

/-- What the publisher is presently registered for. -/
def Impl.grant (impl : Impl) (publisher : PublisherId) : Option Grant :=
  (impl.store.publishers.lookup publisher).map (·.grant)

/-- All current evidence is covered by the grants of its publishers. -/
def Impl.Scoped (impl : Impl) : Prop :=
  ∀ link entry, impl.entryOf link = some entry → ∀ record ∈ entry.current,
    ∃ grant ∈ impl.grant record.publisher, grant.Covers link entry.record.binding record

/-- Every grant names a source. -/
def Impl.Sourced (impl : Impl) : Prop :=
  ∀ publisher, ∀ grant ∈ impl.grant publisher, grant.source.valid = true

section Grants

variable {impl : Impl}

theorem Impl.grant_eq (publisher : PublisherId) :
    impl.grant publisher = (impl.standing publisher).authority.map (·.grant) := by
  unfold grant standing
  rw [Option.map_map]
  rfl

theorem SameAuthority.grant {impl' : Impl} (h : SameAuthority impl impl') (publisher : PublisherId) :
    impl'.grant publisher = impl.grant publisher := by
  rw [Impl.grant_eq, Impl.grant_eq, h.standing]

theorem grant_putAuthority (publisher p : PublisherId) (authority : PublisherAuthority) :
    (impl.putAuthority publisher authority).grant p =
      if p = publisher then some authority.grant else impl.grant p := by
  rw [Impl.grant_eq, Impl.grant_eq, standing_putAuthority]
  split <;> rfl

/-- A fence leaves the grants as they are. -/
theorem grant_fencePublisher (publisher p : PublisherId) (boot : WorkerBootId) (allBoots : Bool)
    (status : AuthorityStatus) (reason : Text) :
    (impl.fencePublisher publisher boot allBoots status reason).grant p = impl.grant p := by
  rw [Impl.grant_eq, Impl.grant_eq, standing_fencePublisher]
  split
  · unfold Standing.fence
    rw [Option.map_map]
    rfl
  · rfl

theorem grant_foldl_fenceStale (stale : List PublisherId) (impl : Impl) (p : PublisherId) :
    (stale.foldl Impl.fenceStale impl).grant p = impl.grant p := by
  induction stale generalizing impl with
  | nil => rfl
  | cons publisher stale ih =>
    rw [List.foldl_cons, ih]
    unfold Impl.fenceStale
    split
    · rfl
    · exact grant_fencePublisher ..

end Grants

/-! ## Registrations -/

/-- The grant that a registration puts in the place of the one that its incarnation has. -/
def Impl.refreshedGrant (impl : Impl) (registration : PublisherRegistration) : Option Grant :=
  match impl.store.publishers.lookup registration.publisher, registration.scope.normalize with
  | some authority, some scope =>
    if impl.enrols registration ∧ authority.workerBoot = registration.workerBoot ∧
        authority.generation.next.isSome then some { source := registration.source, scope }
    else none
  | _, _ => none

section Registrations

variable {impl : Impl}

theorem refreshedGrant_of_lookup {registration : PublisherRegistration}
    {authority : PublisherAuthority} {scope : AuthorityScope}
    {generation : PublisherGeneration} (henrols : impl.enrols registration = true)
    (hscope : registration.scope.normalize = some scope)
    (hauthority : impl.store.publishers.lookup registration.publisher = some authority)
    (hboot : authority.workerBoot = registration.workerBoot)
    (hnext : authority.generation.next = some generation) :
    impl.refreshedGrant registration = some { source := registration.source, scope } := by
  unfold Impl.refreshedGrant
  rw [hauthority, hscope]
  exact if_pos ⟨henrols, hboot, by rw [hnext]; rfl⟩

theorem registerPublisher_of_scope {request : RegisterPublisherRequest} {scope : AuthorityScope}
    (henrols : impl.enrols request.registration = true)
    (hscope : request.registration.scope.normalize = some scope) :
    impl.registerPublisher request = impl.admitRegistration { request.registration with scope } := by
  unfold Impl.enrols at henrols
  simp only [Bool.and_eq_true, Bool.not_eq_true', decide_eq_true_eq] at henrols
  obtain ⟨⟨⟨⟨⟨hp, hb⟩, hs⟩, -⟩, hepoch⟩, hunfenced⟩ := henrols
  unfold Impl.registerPublisher
  simp [hp, hb, hs, hscope, hepoch, hunfenced]

/-- What a registration may do to a grant: nothing, or it is that of a new incarnation, of which
there is no evidence, or a refreshed one. -/
theorem registerPublisher_grant (hindexed : Indexed impl) (request : RegisterPublisherRequest)
    (p : PublisherId) :
    (impl.registerPublisher request).1.grant p = impl.grant p ∨
    p = request.registration.publisher ∧
      ∃ grant, (impl.registerPublisher request).1.grant p = some grant ∧
        grant.source.valid = true ∧
        (impl.refreshedGrant request.registration = some grant ∨ impl.grant p = none ∨
          ∀ link, ∀ record ∈ (impl.registerPublisher request).1.currentEvidence link,
            record.publisher ≠ p) := by
  cases henrols : impl.enrols request.registration with
  | false => exact .inl (by rw [(registerPublisher_of_not_enrols impl henrols).1])
  | true =>
    obtain ⟨hs, scope, hscope⟩ : request.registration.source.valid = true ∧
        ∃ scope, request.registration.scope.normalize = some scope := by
      have henrolled := henrols
      unfold Impl.enrols at henrolled
      simp only [Bool.and_eq_true, Option.isSome_iff_exists] at henrolled
      exact ⟨henrolled.1.1.1.2, henrolled.1.1.2⟩
    rw [registerPublisher_of_scope henrols hscope]
    unfold Impl.admitRegistration
    dsimp only
    have hput {impl' : Impl} {authority : PublisherAuthority} (h : p ≠ request.registration.publisher) :
        (impl'.putAuthority request.registration.publisher authority).grant p = impl'.grant p := by
      rw [grant_putAuthority, if_neg h]
    have hself {impl' : Impl} {authority : PublisherAuthority}
        (h : p = request.registration.publisher) :
        (impl'.putAuthority request.registration.publisher authority).grant p =
          some authority.grant := by
      rw [grant_putAuthority, if_pos h]
    split
    -- The same boot is refreshed; another boot is fenced first, and its evidence is gone.
    · rename_i authority hauthority
      split
      · rename_i hboot
        split
        · exact .inl rfl
        · rename_i generation hnext
          by_cases h : p = request.registration.publisher
          · exact .inr ⟨h, _, hself h, hs, .inl
              (refreshedGrant_of_lookup henrols hscope hauthority hboot hnext)⟩
          · exact .inl (hput h)
      · unfold Impl.supersedeBoot
        dsimp only
        split
        · exact .inl (grant_fencePublisher ..)
        · by_cases h : p = request.registration.publisher
          · refine .inr ⟨h, _, hself h, hs, .inr (.inr fun link record hrecord => ?_)⟩
            rw [h]
            exact (fencePublisher_currentEvidence hindexed hrecord).2
          · exact .inl ((hput h).trans (grant_fencePublisher ..))
    · rename_i hnone
      split
      · exact .inl rfl
      · by_cases h : p = request.registration.publisher
        · refine .inr ⟨h, _, hself h, hs, .inr (.inl ?_)⟩
          unfold Impl.grant
          rw [h, hnone]
          rfl
        · exact .inl (hput h)

end Registrations

/-! ## Evidence and bindings -/

section Bindings

variable {allow : Kind → Prop}

/-- A step keeps the binding, or it leaves no evidence: a new binding is newer than what the
evidence is about. -/
theorem EditStep.rebound {link : LinkId} {t t' : Edit} (hstep : EditStep allow link t t')
    (h : t.entry.Supported) :
    t'.entry.record.binding = t.entry.record.binding ∨ t'.entry.current = [] := by
  rcases hstep.cases_kind with hquiet | ⟨binding, hb, rfl⟩ |
    ⟨request, prepared, u, -, -, hcount, rfl⟩ | ⟨request, u, -, hcount, -, rfl⟩
  · exact .inl (congrArg (·.2) (hquiet.shape id id))
  · exact .inr (h.rebind_current hb)
  · obtain ⟨g, gs, e, s, rfl, -⟩ := hcount.counters
    refine .inl ?_
    rw [← Edit.dropEvidence_record t (explainPublication request.observation)]
    rfl
  · obtain ⟨g, gs, e, s, rfl, -⟩ := hcount.counters
    obtain ⟨_, _, -, heq⟩ := Edit.enterRetired_eq _ request
    rw [heq]
    exact .inr (List.filter_eq_nil_iff.mpr fun _ _ => by simp [explainRetirement])

/-- What holds of all evidence and the binding that it is about stays so, unless evidence is
published. -/
theorem Steps.bound_evidence {R : LinkId → TopologyBinding → EvidenceRecord → Prop}
    (hp : ¬ allow .publish) {impl impl' : Impl} (hsteps : Steps allow impl impl')
    (hsupported : ∀ link entry, impl.entryOf link = some entry → entry.Supported)
    (h : ∀ link entry, impl.entryOf link = some entry → ∀ record ∈ entry.current,
      R link entry.record.binding record) :
    ∀ link entry, impl'.entryOf link = some entry → ∀ record ∈ entry.current,
      R link entry.record.binding record := by
  have hboth := hsteps.entries (Q := fun link entry => entry.Supported ∧
    ∀ record ∈ entry.current, R link entry.record.binding record)
    (fun _ impl binding t _ hcount => ?_) (fun link t t' hstep h => ?_)
    fun link entry hentry => ⟨hsupported link entry hentry, h link entry hentry⟩
  · exact fun link entry hentry => (hboth link entry hentry).2
  · have hnil := (bind_entries hcount).2.2.1
    unfold LinkEntry.Supported
    rw [hnil]
    exact ⟨fun _ hr => absurd hr List.not_mem_nil, fun _ hr => absurd hr List.not_mem_nil⟩
  · refine ⟨hstep.supported h.1, fun record hrecord => ?_⟩
    rcases hstep.rebound h.1 with hsame | hnil
    · rw [hsame]
      exact h.2 record (hstep.current_subset hp hrecord)
    · rw [hnil] at hrecord
      cases hrecord

end Bindings

/-! ## Operations -/

/-- A registration of an incarnation that is there already covers the evidence of its publisher. -/
def Impl.KeepsScope (impl : Impl) : Op → Prop
  | .registerPublisher request => ∀ grant ∈ impl.refreshedGrant request.registration,
    ∀ link entry, impl.entryOf link = some entry → ∀ record ∈ entry.current,
      record.publisher = request.registration.publisher →
        grant.Covers link entry.record.binding record
  | _ => True

section Operations

variable {impl : Impl}

/-- What an authorization has compared with the grant. -/
theorem covers_of_authorize {publisher : PublisherId} {boot : WorkerBootId} {source : SourceId}
    {epoch : CoordinatorEpoch} {link : LinkId} {binding : TopologyBinding}
    (h : authorize impl.store publisher boot source epoch impl.epoch link binding = none)
    (hsource : source.valid = true) (hsourced : impl.Sourced) :
    ∃ grant ∈ impl.grant publisher, grant.scope.covers link = true ∧ source = grant.source ∧
      (grant.scope.fabric.valid = true → binding.fabric.valid = true →
        grant.scope.fabric = binding.fabric) := by
  unfold authorize at h
  -- The checks of authorize in their order.
  split at h
  · cases h
  rename_i authority hauthority
  have hgrant : impl.grant publisher = some authority.grant := by
    unfold Impl.grant
    rw [hauthority]
    rfl
  have hvalid : authority.source.valid = true := hsourced publisher _ hgrant
  split at h
  · cases h
  split at h
  · cases h
  split at h
  · cases h
  · cases h
  · cases h
  split at h
  · cases h
  rename_i hsame
  split at h
  · cases h
  rename_i hfabric
  split at h
  · cases h
  rename_i hcovers
  rw [Bool.not_eq_true, Bool.not_eq_false'] at hcovers
  refine ⟨authority.grant, hgrant, hcovers, ?_, fun hs hb => ?_⟩
  · by_contra hne
    exact hsame ⟨hsource, hvalid, hne⟩
  · by_contra hne
    exact hfabric ⟨hs, hb, hne⟩

theorem source_valid_of_validate {observation : EvidenceRecord} {publication : PublicationId}
    (h : validateObservation observation publication = none) :
    observation.key.source.valid = true := by
  unfold validateObservation at h
  split at h
  · cases h
  split at h
  · cases h
  rename_i hkey
  simp only [Bool.or_eq_true, Bool.not_eq_true', not_or, Bool.not_eq_false] at hkey
  exact hkey.2

/-- An admitted observation is covered by the grant of its publisher. -/
theorem Admitted.covered {request : PublishEvidenceRequest} {entry : LinkEntry}
    {prepared : PreparedCommit} (h : Admitted impl request entry prepared) (hsourced : impl.Sourced)
    (t : Edit) : ∃ grant ∈ impl.grant request.observation.publisher,
      grant.Covers request.observation.key.link entry.record.binding
        (t.storedRecord request.observation) := by
  obtain ⟨grant, hgrant, hlink, hsource, hfabric⟩ :=
    covers_of_authorize h.authorized (source_valid_of_validate h.valid) hsourced
  exact ⟨grant, hgrant, hlink, hsource, hfabric⟩

theorem publishEvidence_scoped (h : impl.Scoped) (hsourced : impl.Sourced)
    (request : PublishEvidenceRequest) : (impl.publishEvidence request).1.Scoped := by
  have hsteps : Steps (· = .publish) impl _ := publishEvidence_steps impl (by exact rfl) request
  have hgrant := (hsteps.sameAuthority nofun).grant
  intro link entry' hentry' record hrecord
  have hshape := hsteps.shape nofun nofun nofun link
  unfold Impl.shape at hshape
  rw [hentry', Option.map_some] at hshape
  obtain ⟨entry, hentry, hsame⟩ := Option.map_eq_some_iff.mp hshape.symm
  have hbinding : entry.record.binding = entry'.record.binding := congrArg (·.2) hsame
  have hold (hmem : record ∈ impl.currentEvidence link) :
      ∃ grant ∈ (impl.publishEvidence request).1.grant record.publisher,
        grant.Covers link entry'.record.binding record := by
    rw [Impl.currentEvidence_eq hentry] at hmem
    rw [hgrant, ← hbinding]
    exact h link entry hentry record hmem
  have hmem : record ∈ (impl.publishEvidence request).1.currentEvidence link := by
    rwa [Impl.currentEvidence_eq hentry']
  rcases publishEvidence_currentEvidence impl request with hsub | ⟨e, _, hadmitted, hevidence⟩
  · exact hold (hsub link hmem)
  rcases hevidence link record hmem with ⟨hmem, -⟩ | ⟨rfl, t, rfl⟩
  · exact hold hmem
  · obtain rfl : e = entry := Option.some.inj (hadmitted.bound.symm.trans hentry)
    rw [hgrant, ← hbinding]
    exact hadmitted.covered hsourced t

/-- Only registrations and loads change grants. -/
theorem apply_grant {op : Op} (hload : op.isLoad = false)
    (hregister : ∀ request, op ≠ .registerPublisher request) (p : PublisherId) :
    (impl.apply op).grant p = impl.grant p := by
  cases op with
  | registerPublisher request => exact absurd rfl (hregister request)
  | invalidatePublisher request =>
    show (impl.invalidatePublisher request).1.grant p = impl.grant p
    rcases invalidatePublisher_cases impl request with ⟨heq, -⟩ | ⟨_, _, -, -, heq⟩ <;> rw [heq]
    exact grant_fencePublisher ..
  | advanceCoordinatorEpoch request =>
    show (impl.advanceCoordinatorEpoch request).1.grant p = impl.grant p
    unfold Impl.advanceCoordinatorEpoch
    split
    · rfl
    split
    · rfl
    · exact grant_foldl_fenceStale ..
  | load => cases hload
  | _ => exact ((apply_steps impl hload).sameAuthority nofun).grant p

theorem load_scoped (h : impl.Scoped) (config : PersistenceConfig) (steps : ReadSteps)
    (file : Option Bytes) : (impl.load config steps file).1.Scoped := by
  rcases load_currentEvidence impl config steps file with heq | hnil
  · rw [heq]
    exact h
  · intro link entry hentry record hrecord
    rw [← Impl.currentEvidence_eq hentry, hnil] at hrecord
    cases hrecord

theorem load_sourced (h : impl.Sourced) (config : PersistenceConfig) (steps : ReadSteps)
    (file : Option Bytes) : (impl.load config steps file).1.Sourced := by
  rcases load_cases impl config steps file with ⟨_, -, heq⟩ | ⟨_, payload, _, -, hdecode, heq, -⟩ <;>
    rw [heq]
  · exact h
  · intro p grant hgrant
    unfold Impl.grant at hgrant
    rw [(recovers_recover impl (decodeJournal_decoded hdecode)).publishers] at hgrant
    cases hgrant

theorem Impl.Sourced.apply (h : impl.Sourced) (hindexed : Indexed impl) {op : Op}
    (hload : op.isLoad = false) : (impl.apply op).Sourced := by
  intro p grant hgrant
  cases op with
  | registerPublisher request =>
    rcases registerPublisher_grant hindexed request p with hsame | ⟨-, g, hg, hvalid, -⟩
    · exact h p grant (hsame ▸ hgrant)
    · obtain rfl : g = grant := Option.some.inj (hg.symm.trans hgrant)
      exact hvalid
  | load => cases hload
  | _ =>
    rw [apply_grant hload (fun _ heq => by cases heq)] at hgrant
    exact h p grant hgrant

theorem Impl.Scoped.apply (h : impl.Scoped) (hsourced : impl.Sourced) (hindexed : Indexed impl)
    (hsupported : ∀ link entry, impl.entryOf link = some entry → entry.Supported) {op : Op}
    (hload : op.isLoad = false) (hok : impl.KeepsScope op) : (impl.apply op).Scoped := by
  have hother (hp : ¬ op.kinds .publish) (hregister : ∀ request, op ≠ .registerPublisher request) :
      (impl.apply op).Scoped := by
    have hkept := (apply_steps impl hload).bound_evidence (R := fun link binding record =>
      ∃ grant ∈ impl.grant record.publisher, grant.Covers link binding record) hp hsupported h
    intro link entry hentry record hrecord
    rw [apply_grant hload hregister]
    exact hkept link entry hentry record hrecord
  cases op with
  | publishEvidence request => exact publishEvidence_scoped h hsourced request
  | registerPublisher request =>
    have hkept := (apply_steps impl hload).bound_evidence (R := fun link binding record =>
      (∃ grant ∈ impl.grant record.publisher, grant.Covers link binding record) ∧
        ∀ grant ∈ impl.refreshedGrant request.registration,
          record.publisher = request.registration.publisher → grant.Covers link binding record)
      nofun hsupported fun link entry hentry record hrecord => ⟨h link entry hentry record hrecord,
        fun grant hgrant => hok grant hgrant link entry hentry record hrecord⟩
    intro link entry hentry record hrecord
    obtain ⟨⟨grant, hgrant, hcovers⟩, hfresh⟩ := hkept link entry hentry record hrecord
    -- The old grant; one that was refreshed in place; a new publisher; a new boot without evidence.
    rcases registerPublisher_grant hindexed request record.publisher with hsame |
      ⟨hp, g, hg, -, hrefreshed | hnone | hfree⟩
    · exact ⟨grant, hsame ▸ hgrant, hcovers⟩
    · exact ⟨g, hg, hfresh g hrefreshed hp⟩
    · rw [hnone] at hgrant
      cases hgrant
    · exact absurd rfl (hfree link record (Impl.mem_currentEvidence.mpr ⟨entry, hentry, hrecord⟩))
  | load => cases hload
  | _ => exact hother nofun fun _ heq => by cases heq

theorem registerPublisher_refreshes {request : RegisterPublisherRequest} {grant : Grant}
    (h : impl.refreshedGrant request.registration = some grant) :
    (impl.registerPublisher request).1.grant request.registration.publisher = some grant ∧
      ∀ link, (impl.registerPublisher request).1.entryOf link = impl.entryOf link := by
  unfold Impl.refreshedGrant at h
  split at h
  · rename_i authority scope hauthority hscope
    split at h
    · rename_i hrefreshes
      cases h
      obtain ⟨henrols, hboot, hnext⟩ := hrefreshes
      obtain ⟨generation, hnext⟩ := Option.isSome_iff_exists.mp hnext
      rw [registerPublisher_of_scope henrols hscope]
      unfold Impl.admitRegistration
      dsimp only
      rw [hauthority]
      dsimp only
      rw [if_pos hboot, hnext]
      dsimp only
      refine ⟨?_, fun link => rfl⟩
      rw [grant_putAuthority, if_pos rfl]
      rfl
    · cases h
  · cases h

end Operations

/-! ## Runs -/

theorem Impl.Reachable.sourced {impl : Impl} (h : impl.Reachable) : impl.Sourced := by
  refine h.invariant_of (P := Impl.Sourced) (fun _ => Impl.Reachable.indexed) ?_
    fun impl op hindexed h _ => ?_
  · rintro _ ⟨config, rfl⟩ p grant hgrant
    cases hgrant
  · cases hload : op.isLoad with
    | false => exact h.apply hindexed hload
    | true =>
      cases op with
      | load config steps file => exact load_sourced h config steps file
      | _ => cases hload

/-- An operation leaves all evidence in scope exactly if it is no registration that leaves out
evidence of the incarnation that it refreshes. -/
theorem apply_scoped_iff {impl : Impl} (h : impl.Reachable) (hscoped : impl.Scoped) (op : Op) :
    (impl.apply op).Scoped ↔ impl.KeepsScope op := by
  refine ⟨fun hafter => ?_, fun hok => ?_⟩
  · cases op with
    | registerPublisher request =>
      intro grant hgrant link entry hentry record hrecord hp
      obtain ⟨hnew, hlinks⟩ := registerPublisher_refreshes hgrant
      obtain ⟨grant', hgrant', hcovers⟩ := hafter link entry ((hlinks link).trans hentry) record hrecord
      rw [hp] at hgrant'
      obtain rfl : grant = grant' := Option.some.inj (hnew.symm.trans hgrant')
      exact hcovers
    | _ => trivial
  · cases hload : op.isLoad with
    | false =>
      exact hscoped.apply (Impl.Reachable.sourced h) (Impl.Reachable.indexed h)
        (Impl.Reachable.supported h) hload hok
    | true =>
      cases op with
      | load config steps file => exact load_scoped hscoped config steps file
      | _ => cases hload

/-- All evidence is in scope in every state of a run exactly if every registration of the run covers
the evidence of the incarnation that it refreshes. -/
theorem scoped_iff (config : EngineConfig) (ops : List Op) :
    (∀ n, ((ops.take n).foldl Impl.apply (.create config)).Scoped) ↔
      Runs.Admissible Impl.apply Impl.KeepsScope (.create config) ops := by
  refine Runs.Run.kept_iff (show Impl.Reachable (.create config) from .start ⟨config, rfl⟩)
    (fun _ h => apply_scoped_iff h) (fun link entry hentry => ?_) ops
  rw [Impl.entryOf_create] at hentry
  cases hentry

/-- The publisher of the small run registers again, for another link. -/
def Sample.narrowed : Impl :=
  Sample.engine.apply (.registerPublisher ⟨{ Sample.registration with
    scope := { links := [.fromValidated (lit "link-2")] } }⟩)

/-- The evidence of the small run stays current, out of the scope of its publisher. -/
theorem narrowed_not_scoped : Sample.narrowed.Reachable ∧ ¬ Sample.narrowed.Scoped := by
  refine ⟨.step _ Sample.reachable trivial, fun h => ?_⟩
  have hcovered : ∀ record ∈ Sample.narrowed.currentEvidence Sample.link,
      (Sample.narrowed.grant record.publisher).any (·.scope.covers Sample.link) = true := by
    intro record hrecord
    obtain ⟨entry, hentry, hmem⟩ := Impl.mem_currentEvidence.mp hrecord
    obtain ⟨grant, hgrant, hcovers⟩ := h Sample.link entry hentry record hmem
    rw [Option.mem_def.mp hgrant]
    exact hcovers.link
  exact absurd hcovered (by decide +kernel)

end LinkState
