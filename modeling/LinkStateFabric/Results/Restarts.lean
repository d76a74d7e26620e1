import LinkStateFabric.Engine.Sessions
import LinkStateFabric.Results.Bookkeeping
import LinkStateFabric.Results.Scopes

/-!
# Restarts

A load leaves the engine without publishers and without evidence (`vacant_load`), and its links
without a current state. What was known of a link comes back by a registration and a publication.

* `LinkStateRecord.concludes`: what a link concludes from one record alone
  (`resolveLinkState_singleton`).
* `commits_iff`: when an engine commits a publication.
* `restart_recovers`: when the first publication after a load is committed, and that the link is then
  in the state that it reports.
-/

namespace LinkState

open Sorting

/-! ## One record alone -/

instance (record : EvidenceRecord) : Decidable record.Decisive := inferInstanceAs (Decidable (_ ∧ _))

/-- The conclusion that a claim makes. -/
def EvidenceClaim.conclusion (claim : EvidenceClaim) (cause : DegradationCause)
    (syntheticBacked : Bool) : Conclusion where
  state := stateOf (classFor claim)
  resultClass := classFor claim
  cause
  conflicted := false
  syntheticBacked

/-- What a link concludes from one record alone: its intent decides, else the record if it is
decisive, else what was established before. -/
def LinkStateRecord.concludes (record : LinkStateRecord) (x : EvidenceRecord) : Conclusion :=
  match record.adminIntent with
  | some intent => ((claimFromState intent.state).getD .adminDisabled).conclusion intent.cause false
  | none =>
    if x.Decisive then
      x.claim.conclusion (if x.claim = .degraded then x.degradationCause else .none)
        (x.key.kind ≠ .administrativeState && x.evidenceClass = .synthetic)
    else if record.everEstablished then
      { state := .revalidationRequired, resultClass := .revalidationRequired, cause := .none
        conflicted := false, syntheticBacked := false }
    else
      { state := .unknown, resultClass := .authoritativeUnknown, cause := .none
        conflicted := false, syntheticBacked := false }

theorem concludes_conflicted (record : LinkStateRecord) (x : EvidenceRecord) :
    (record.concludes x).conflicted = false := by
  unfold LinkStateRecord.concludes EvidenceClaim.conclusion
  split
  · rfl
  split
  · rfl
  split <;> rfl

section One

variable {x : EvidenceRecord}

theorem winningTier_singleton : Resolution.winningTier [x] = [x] := by
  have hmin : Resolution.minimumTier [x] = effectivePrecedence x := by
    have hle := effectivePrecedence_le x
    simp only [Resolution.minimumTier, List.foldl_cons, List.foldl_nil]
    omega
  unfold Resolution.winningTier
  rw [hmin]
  simp

theorem strongestCause_singleton (h : x.claim = .degraded) :
    strongestCause [x] = x.degradationCause := by
  unfold strongestCause
  rw [List.foldl_cons, List.foldl_nil, if_neg (not_not.mpr h), if_pos (.inl rfl)]

/-- A record of another kind than administrative decides alone. -/
theorem byDecisive_singleton (r : Resolution) (symmetry : LinkSymmetryGuarantee) :
    (r.byDecisive [] [x] symmetry).conclusion =
      { x.claim.conclusion (if x.claim = .degraded then x.degradationCause else .none)
          (x.evidenceClass = .synthetic) with conflicted := r.conflicted } := by
  have hone : ∀ record ∈ [x], record = x := fun record => List.mem_singleton.mp
  obtain ⟨dispositions, hselected⟩ := Resolution.selectTier_eq r [] [x]
  have hclaims (r : Resolution) : r.byClaims [x] = some _ := rfl
  unfold Resolution.byDecisive
  dsimp only
  rw [winningTier_singleton, Resolution.asymmetryOf_one hone]
  dsimp only [List.head?_nil]
  rw [hclaims]
  dsimp only
  unfold Resolution.crossCheckRemote
  dsimp only
  rw [if_neg fun hcross => Resolution.minimumTier_one hone hcross.2 hcross.1, hselected,
    winningTier_singleton]
  have hcause : (if x.claim = .degraded then strongestCause [x] else .none) =
      if x.claim = .degraded then x.degradationCause else .none :=
    ite_congr rfl strongestCause_singleton fun _ => rfl
  simp [EvidenceClaim.conclusion, Resolution.conclusion, Resolution.setState, Resolution.pushRule,
    hcause]

/-- A record that restricts decides alone. -/
theorem underRestriction_singleton (dispositions : List EvidenceDisposition)
    (h : x.claim = .adminDisabled ∨ x.claim = .draining)
    (hkind : x.key.kind = .administrativeState) :
    (Resolution.underRestriction { dispositions } [x]).conclusion =
      x.claim.conclusion (if x.claim = .degraded then x.degradationCause else .none)
        (x.key.kind ≠ .administrativeState && x.evidenceClass = .synthetic) := by
  have hsynthetic : (x.key.kind ≠ .administrativeState && x.evidenceClass = .synthetic) = false := by
    simp [hkind]
  rw [hsynthetic]
  unfold Resolution.underRestriction Resolution.disabledBy Resolution.drainedBy
  rcases h with hclaim | hclaim <;>
  · simp only [List.any_cons, List.any_nil, hclaim]
    rfl

/-- The resolution of one record alone. -/
theorem resolveLinkState_singleton (record : LinkStateRecord) :
    (resolveLinkState [x] record).conclusion = record.concludes x := by
  have hsorted : sortBy evidenceLess [x] = [x] := rfl
  unfold resolveLinkState resolveOrdered LinkStateRecord.concludes
  rw [hsorted]
  cases record.adminIntent with
  | some intent => rfl
  | none =>
    dsimp only
    -- A record that does not count is as good as none.
    by_cases hcounted : (classify x).counted = true
    · have hone : [x].filter (fun candidate => (classify candidate).counted) = [x] :=
        List.filter_cons_of_pos hcounted
      rw [hone]
      by_cases hkind : x.key.kind = .administrativeState
      · have hadministrative : [x].filter (·.key.kind = .administrativeState) = [x] :=
          List.filter_cons_of_pos (decide_eq_true hkind)
        have hdecisive : [x].filter (·.key.kind ≠ .administrativeState) = [] :=
          List.filter_cons_of_neg (by simpa using hkind)
        rw [hadministrative, hdecisive]
        by_cases hrestricts : x.claim = .adminDisabled ∨ x.claim = .draining
        · rw [if_pos (by simpa [Resolution.disabledBy, Resolution.drainedBy] using hrestricts),
            if_pos ⟨hcounted, fun _ => hrestricts⟩]
          exact underRestriction_singleton _ hrestricts hkind
        · rw [if_neg (by simpa [Resolution.disabledBy, Resolution.drainedBy] using hrestricts),
            if_pos List.isEmpty_nil, if_neg fun h => hrestricts (h.2 hkind)]
          unfold Resolution.withoutEvidence Resolution.underEnablement
          split <;> rfl
      · have hadministrative : [x].filter (·.key.kind = .administrativeState) = [] :=
          List.filter_cons_of_neg (by simpa using hkind)
        have hdecisive : [x].filter (·.key.kind ≠ .administrativeState) = [x] :=
          List.filter_cons_of_pos (decide_eq_true hkind)
        rw [hadministrative, hdecisive, if_neg (by decide), if_neg (by simp),
          if_pos ⟨hcounted, fun h => absurd h hkind⟩, byDecisive_singleton]
        simp [hkind, Resolution.underEnablement, EvidenceClaim.conclusion]
    · have hnone : [x].filter (fun candidate => (classify candidate).counted) = [] :=
        List.filter_cons_of_neg hcounted
      rw [hnone, if_neg (by decide), if_pos (by decide), if_neg fun h => hcounted h.1]
      unfold Resolution.withoutEvidence
      split <;> rfl

end One

/-! ## Commits -/

instance (impl : Impl) (entry : LinkEntry) (conclusion : Conclusion) :
    Decidable (impl.Stuck entry conclusion) := inferInstanceAs (Decidable (_ ∧ _))

instance (impl : Impl) (entry : LinkEntry) : Decidable (impl.Exhausted entry) :=
  inferInstanceAs (Decidable (_ ∨ _))

section Commits

variable {impl : Impl} {request : PublishEvidenceRequest} {entry : LinkEntry}

theorem Admitted.examines {prepared : PreparedCommit} (h : Admitted impl request entry prepared) :
    impl.Examines request entry := by
  refine ⟨h.valid, h.bound, h.refusal_eq, ?_, h.capacity⟩
  cases hslot : findSlot entry request.observation.key with
  | none => rfl
  | some slot => exact h.slot slot hslot

/-- A publication is committed exactly if it passes every check, its state can be entered, and the
generations that it advances are not exhausted. -/
theorem commits_iff : impl.Commits request ↔ ∃ entry, impl.Examines request entry ∧
    ¬ impl.Stuck entry (resolveLinkState (prospectiveWith entry request.observation)
      entry.record).conclusion ∧ ¬ impl.Exhausted entry := by
  constructor
  · intro h
    obtain ⟨entry, prepared, t', stored, hpublished⟩ := publishEvidence_published h
    have hadmitted := hpublished.admitted
    have hrefused (text : Text) :
        (impl.publishEvidence request).2 ≠ failed .resourceLimit text := by
      intro heq
      rcases h with hcode | hcode <;>
      · rw [heq] at hcode
        cases hcode
    refine ⟨entry, hadmitted.examines, fun hstuck => ?_, fun hexhausted => ?_⟩
    · exact hrefused _ (congrArg Prod.snd (publishEvidence_stuck hadmitted.examines hstuck))
    · refine hrefused (lit "generation counter is exhausted") ?_
      rw [hadmitted.publish_eq]
      exact (publish_exhausted hexhausted request prepared prepared).2
  · rintro ⟨entry, hexamines, hfree, hroom⟩
    obtain ⟨hglobal, hevidence⟩ := not_or.mp hroom
    exact ((admitted_of_not_stuck hexamines hfree).commits (mt Edit.spent_global.mp hglobal)
      (mt Edit.spent_evidence.mp hevidence)).1

end Commits

/-! ## Engines without publishers -/

/-- Nobody is registered, and there is no evidence. -/
structure Impl.Vacant (impl : Impl) : Prop where
  publishers : impl.store.publishers = ∅
  observations : ∀ observation, impl.store.observations.lookup observation = none
  current : ∀ link entry, impl.entryOf link = some entry → entry.current = []

/-- A load, and the first registration after it. -/
def Impl.restart (impl : Impl) (config : PersistenceConfig) (steps : ReadSteps)
    (file : Option Bytes) (registration : PublisherRegistration) : Impl :=
  ((impl.load config steps file).1.registerPublisher ⟨registration⟩).1

/-- A load that succeeds recovers a payload, and leaves nobody registered and no evidence. -/
theorem vacant_load {impl : Impl} {config : PersistenceConfig} {steps : ReadSteps}
    {file : Option Bytes} (h : (impl.load config steps file).2.outcome.code = .committed) :
    (impl.load config steps file).1.Vacant ∧ (impl.load config steps file).1.config = impl.config := by
  rcases load_cases impl config steps file with ⟨refusal, hfails, heq⟩ |
    ⟨_, payload, _, -, hdecode, himpl, -⟩
  · rw [heq] at h
    exact absurd h hfails
  have hdecoded : payload.Decoded := decodeJournal_decoded hdecode
  have hrecovers := recovers_recover impl hdecoded
  have hcurrent (link : LinkId) (entry : LinkEntry)
      (hentry : (impl.recover payload).impl.entryOf link = some entry) : entry.current = [] := by
    obtain ⟨_, -, -, hrecovered⟩ := recover_entryOf impl hdecoded hentry
    exact hrecovered.current
  rw [himpl]
  refine ⟨⟨hrecovers.publishers, fun observation => ?_, hcurrent⟩, hrecovers.config⟩
  refine Option.eq_none_iff_forall_ne_some.mpr fun key hkey => ?_
  obtain ⟨link, entry, hentry, record, hrecord, -⟩ :=
    ((indexed_recover impl hdecoded).observations observation key).mp hkey
  rw [hcurrent link entry hentry] at hrecord
  cases hrecord

/-- The observation is of the incarnation that a registration makes, and within its grant. -/
structure PublisherRegistration.Permits (registration : PublisherRegistration)
    (observation : EvidenceRecord) (binding : TopologyBinding) : Prop where
  publisher : observation.publisher = registration.publisher
  workerBoot : observation.workerBoot = registration.workerBoot
  epoch : observation.epoch = registration.epoch
  source : observation.key.source = registration.source
  link : observation.key.link ∈ registration.scope.links
  fabric : registration.scope.fabric.valid = true → binding.fabric.valid = true →
    registration.scope.fabric = binding.fabric

/-- The links that a normalized scope covers are those that it was given. -/
theorem covers_normalize {scope scope' : AuthorityScope} (h : scope.normalize = some scope')
    (link : LinkId) : scope'.covers link = true ↔ link ∈ scope.links := by
  unfold AuthorityScope.normalize at h
  dsimp only at h
  split at h
  · cases h
  cases h
  unfold AuthorityScope.covers
  rw [decide_eq_true_iff, find?_destutter]
  rw [← List.mem_insertionSort (· ≤ ·)]
  exact find?_not_lt (List.pairwise_insertionSort (· ≤ ·) scope.links) link

section Vacant

variable {impl : Impl} {registration : PublisherRegistration}

/-- The authority of a publisher that was not known before. -/
def Impl.newAuthority (impl : Impl) (registration : PublisherRegistration)
    (scope : AuthorityScope) : PublisherAuthority where
  publisher := registration.publisher
  workerBoot := registration.workerBoot
  source := registration.source
  scope
  epoch := impl.epoch
  generation := .fromValue 1

theorem scope_of_enrols (henrols : impl.enrols registration = true) :
    ∃ scope, registration.scope.normalize = some scope := by
  unfold Impl.enrols at henrols
  simp only [Bool.and_eq_true, Option.isSome_iff_exists] at henrols
  exact henrols.1.1.2

theorem Impl.Vacant.register (h : impl.Vacant) (hroom : 0 < impl.config.maxPublishers)
    (henrols : impl.enrols registration = true) {scope : AuthorityScope}
    (hscope : registration.scope.normalize = some scope) :
    impl.registerPublisher ⟨registration⟩ =
      (impl.putAuthority registration.publisher (impl.newAuthority registration scope),
        failed .committed (lit "publisher incarnation registered")) := by
  have hnone : impl.store.publishers.lookup registration.publisher = none := by
    rw [h.publishers]
    rfl
  have hcard : ¬ impl.config.maxPublishers ≤ impl.store.publishers.keys.card := by
    rw [h.publishers, Finmap.keys_empty, Finset.card_empty]
    omega
  rw [registerPublisher_of_scope henrols hscope]
  unfold Impl.admitRegistration
  dsimp only
  rw [hnone]
  dsimp only
  rw [if_neg hcard]
  rfl

/-- The engine authorizes the publisher that has just registered, and nobody else. -/
theorem Impl.Vacant.authorize_iff (h : impl.Vacant) (henrols : impl.enrols registration = true)
    {scope : AuthorityScope} (hscope : registration.scope.normalize = some scope)
    {observation : EvidenceRecord} (hsource : observation.key.source.valid = true)
    (binding : TopologyBinding) :
    authorize (impl.putAuthority registration.publisher (impl.newAuthority registration scope)).store
      observation.publisher observation.workerBoot observation.key.source observation.epoch
      impl.epoch observation.key.link binding = none ↔ registration.Permits observation binding := by
  obtain ⟨hvalid, hepoch⟩ : registration.source.valid = true ∧ registration.epoch = impl.epoch := by
    unfold Impl.enrols at henrols
    simp only [Bool.and_eq_true, decide_eq_true_eq] at henrols
    exact ⟨henrols.1.1.1.2, henrols.1.2⟩
  have hfabric : scope.fabric = registration.scope.fabric := by
    unfold AuthorityScope.normalize at hscope
    dsimp only at hscope
    split at hscope <;> cases hscope
    rfl
  have hlink := covers_normalize hscope observation.key.link
  unfold authorize
  by_cases hp : observation.publisher = registration.publisher
  swap
  · have hnone : (impl.putAuthority registration.publisher
        (impl.newAuthority registration scope)).store.publishers.lookup observation.publisher = none := by
      refine (Finmap.lookup_insert_of_ne _ hp).trans ?_
      rw [h.publishers]
      rfl
    rw [hnone]
    exact iff_of_false nofun fun hpermits => hp hpermits.publisher
  -- The publisher that has registered is the only one there is.
  have hlookup : (impl.putAuthority registration.publisher
      (impl.newAuthority registration scope)).store.publishers.lookup observation.publisher =
        some (impl.newAuthority registration scope) := by
    rw [hp]
    exact Finmap.lookup_insert _
  have hunless {c : Prop} [Decidable c] {refusal : Refusal} {rest : Option Refusal} :
      (if c then some refusal else rest) = none ↔ ¬ c ∧ rest = none := by
    split <;> simp [*]
  rw [hlookup]
  dsimp only [Impl.newAuthority]
  simp only [hunless, not_or, not_not, not_and, and_true, Bool.not_eq_true, Bool.not_eq_false',
    hlink, hfabric, hsource, hvalid, forall_const]
  constructor
  · rintro ⟨hepochs, hboot, hsources, hfabrics, hcovered⟩
    exact ⟨hp, hboot.symm, hepochs.trans hepoch.symm, hsources, hcovered, hfabrics⟩
  · intro hpermits
    exact ⟨hpermits.epoch.trans hepoch, hpermits.workerBoot.symm, hpermits.source,
      hpermits.fabric, hpermits.link⟩

end Vacant

/-! ## The first publication -/

/-- A registration is accepted, and the publication after it is committed. -/
structure Impl.Reobserves (impl : Impl) (registration : PublisherRegistration)
    (request : PublishEvidenceRequest) (entry : LinkEntry) : Prop where
  enrols : impl.enrols registration = true
  permits : registration.Permits request.observation entry.record.binding
  valid : validateObservation request.observation request.publication = none
  bound : impl.entryOf request.observation.key.link = some entry
  live : entry.record.state ≠ .retired
  backing : backingStale impl entry.record.binding = none
  topology : checkTopology entry request.observation = none
  endpoint : checkEndpoint entry request.observation = none
  expectedEvidence : checkExpectedEvidence entry request.expectedEvidenceGeneration = none
  expectedState : checkExpectedState entry request.expectedStateGeneration = none
  enters : ¬ impl.Stuck entry (entry.record.concludes request.observation)
  room : ¬ impl.Exhausted entry

section First

variable {impl : Impl} {registration : PublisherRegistration} {request : PublishEvidenceRequest}

theorem Impl.Vacant.concludes (h : impl.Vacant) {entry : LinkEntry}
    (hbound : impl.entryOf request.observation.key.link = some entry) :
    (resolveLinkState (prospectiveWith entry request.observation) entry.record).conclusion =
      entry.record.concludes request.observation := by
  unfold prospectiveWith
  rw [h.current _ _ hbound, List.filter_nil, List.nil_append, resolveLinkState_singleton]

/-- Without evidence a publication is judged by its link and its publisher only. -/
theorem Impl.Vacant.examines_iff (h : impl.Vacant) (hconfig : impl.config.Valid)
    (henrols : impl.enrols registration = true) {scope : AuthorityScope}
    (hscope : registration.scope.normalize = some scope) (entry : LinkEntry) :
    (impl.putAuthority registration.publisher (impl.newAuthority registration scope)).Examines
        request entry ∧
      ¬ impl.Stuck entry (resolveLinkState (prospectiveWith entry request.observation)
        entry.record).conclusion ∧ ¬ impl.Exhausted entry ↔
      impl.Reobserves registration request entry := by
  set registered := impl.putAuthority registration.publisher (impl.newAuthority registration scope)
  -- No observation is known after a load, so that no identity is taken.
  have hidentity : checkObservation registered.store request.observation = none := by
    have hunknown : registered.store.observations.lookup request.observation.observation = none :=
      h.observations _
    unfold checkObservation
    rw [hunknown]
  have hauthorized (hvalid : validateObservation request.observation request.publication = none) :=
    h.authorize_iff henrols hscope (source_valid_of_validate hvalid) entry.record.binding
  constructor
  · rintro ⟨hexamines, henters, hroom⟩
    have hpassed := hexamines.passed
    simp only [Impl.refusal, Option.orElse_eq_none, Option.map_eq_none_iff] at hpassed
    obtain ⟨-, hauth, hbacking, htopology, hendpoint, hevidence, hstate, -⟩ := hpassed
    rw [h.concludes hexamines.bound] at henters
    exact ⟨henrols, (hauthorized hexamines.valid).mp hauth, hexamines.valid, hexamines.bound,
      hexamines.live, hbacking, htopology, hendpoint, hevidence, hstate, henters, hroom⟩
  · intro hobserves
    have hcurrent := h.current _ _ hobserves.bound
    have hslot : findSlot entry request.observation.key = none := by
      unfold findSlot
      rw [hcurrent, List.find?_nil]
    refine ⟨⟨hobserves.valid, hobserves.bound, ?_, ?_, ?_⟩, ?_, hobserves.room⟩
    · simp only [Impl.refusal, Option.orElse_eq_none, Option.map_eq_none_iff]
      exact ⟨if_neg hobserves.live, (hauthorized hobserves.valid).mpr hobserves.permits,
        hobserves.backing, hobserves.topology, hobserves.endpoint, hobserves.expectedEvidence,
        hobserves.expectedState, hidentity⟩
    · rw [hslot]
      rfl
    · have hcap : 0 < registered.config.maxEvidencePerLink := hconfig.bounds.2.2.1
      unfold checkCapacity
      rw [hcurrent, if_neg fun hfull => absurd hfull.2 (by simpa using hcap.ne')]
    · rw [h.concludes hobserves.bound]
      exact hobserves.enters

/-- The first publication is committed exactly if it observes a link again. -/
theorem Impl.Vacant.commits_iff (h : impl.Vacant) (hconfig : impl.config.Valid) :
    (impl.registerPublisher ⟨registration⟩).1.Commits request ↔
      ∃ entry, impl.Reobserves registration request entry := by
  cases henrols : impl.enrols registration with
  | false =>
    have hunchanged := (@registerPublisher_of_not_enrols impl ⟨registration⟩ henrols).1
    rw [hunchanged, LinkState.commits_iff]
    refine iff_of_false ?_ ?_
    · rintro ⟨entry, hexamines, -⟩
      have hpassed := hexamines.passed
      simp only [Impl.refusal, Option.orElse_eq_none, Option.map_eq_none_iff] at hpassed
      have hauthorized := hpassed.2.1
      unfold authorize at hauthorized
      rw [h.publishers] at hauthorized
      cases hauthorized
    · rintro ⟨entry, hobserves⟩
      exact absurd (henrols.symm.trans hobserves.enrols) Bool.false_ne_true
  | true =>
    obtain ⟨scope, hscope⟩ := scope_of_enrols henrols
    rw [h.register hconfig.bounds.2.2.2.2.1 henrols hscope, LinkState.commits_iff]
    exact exists_congr fun entry => h.examines_iff hconfig henrols hscope entry

theorem publish_code {t : Edit} {prepared : PreparedCommit}
    (h : prepared.resolution.conflicted = false) :
    (t.publish request prepared).2.outcome.code ≠ .evidenceConflict := by
  unfold Edit.publish publicationResult
  dsimp only
  split
  · nofun
  · rw [h]
    nofun

/-- What the first publication leaves: the link concludes what the record says, and the other links
are left alone. -/
theorem Impl.Vacant.first_publication (h : impl.Vacant) (hconfig : impl.config.Valid)
    {entry : LinkEntry} (hobserves : impl.Reobserves registration request entry) :
    ((impl.registerPublisher ⟨registration⟩).1.publishEvidence request).2.outcome.code = .committed ∧
    ∃ entry', (∀ link, ((impl.registerPublisher ⟨registration⟩).1.publishEvidence request).1.entryOf
        link = if link = request.observation.key.link then some entry' else impl.entryOf link) ∧
      entry'.conclusion = entry.record.concludes request.observation ∧
      entry'.current.map (·.observed) = [request.observation.observed] := by
  have hcommits := (h.commits_iff hconfig).mpr ⟨entry, hobserves⟩
  have hentries (link : LinkId) :
      (impl.registerPublisher ⟨registration⟩).1.entryOf link = impl.entryOf link := by
    obtain ⟨scope, hscope⟩ := scope_of_enrols hobserves.enrols
    rw [h.register hconfig.bounds.2.2.2.2.1 hobserves.enrols hscope]
    rfl
  obtain ⟨e, prepared, t', _, hpublished⟩ := publishEvidence_published hcommits
  obtain rfl : e = entry := by
    have hbound := hpublished.admitted.bound
    rw [hentries, hobserves.bound] at hbound
    exact (Option.some.inj hbound).symm
  have hcurrent := h.current _ _ hobserves.bound
  -- Nothing else is current, so that the one observation decides alone.
  have hresolution : prepared.resolution.conclusion = e.record.concludes request.observation := by
    rw [hpublished.admitted.prepared_eq, prepareCommit_resolution, h.concludes hobserves.bound]
  obtain ⟨t, rfl⟩ := hpublished.stored_eq
  refine ⟨hcommits.resolve_right ?_, t'.entry, fun link => ?_, hpublished.conclusion.trans hresolution,
    ?_⟩
  · rw [hpublished.admitted.publish_eq]
    exact publish_code ((congrArg Conclusion.conflicted hresolution).trans
      (concludes_conflicted e.record _))
  · rw [hpublished.impl_eq, commit_entryOf, hpublished.frame.entryOf, hentries]
  · rw [hpublished.current, hcurrent]
    rfl

end First

/-- After a load, a registration and a publication are committed exactly if the publication observes
a link again; the link then concludes what this record alone says, and the others are left alone. -/
theorem restart_recovers {impl : Impl} (hconfig : impl.config.Valid) {config : PersistenceConfig}
    {steps : ReadSteps} {file : Option Bytes}
    (hload : (impl.load config steps file).2.outcome.code = .committed)
    (registration : PublisherRegistration) (request : PublishEvidenceRequest) :
    (((impl.restart config steps file registration).publishEvidence request).2.outcome.code =
        .committed ↔
      ∃ entry, (impl.load config steps file).1.Reobserves registration request entry) ∧
    ∀ entry, (impl.load config steps file).1.Reobserves registration request entry → ∃ entry',
      (∀ link, ((impl.restart config steps file registration).publishEvidence request).1.entryOf
          link = if link = request.observation.key.link then some entry'
        else (impl.load config steps file).1.entryOf link) ∧
      entry'.conclusion = entry.record.concludes request.observation ∧
      entry'.current.map (·.observed) = [request.observation.observed] := by
  obtain ⟨hvacant, hsame⟩ := vacant_load hload
  rw [← hsame] at hconfig
  refine ⟨⟨fun hcode => (hvacant.commits_iff hconfig).mp (.inl hcode), fun hobserves => ?_⟩,
    fun entry hobserves => (hvacant.first_publication hconfig hobserves).2⟩
  obtain ⟨entry, hobserves⟩ := hobserves
  exact (hvacant.first_publication hconfig hobserves).1

namespace Sample

theorem reobserves : ∃ entry, rebooted.1.Reobserves registration publish entry ∧
    (entry.record.concludes observation).state = .up := by
  obtain ⟨entry, hentry⟩ : ∃ entry, rebooted.1.entryOf link = some entry := by
    rw [rebooted_eq]
    exact Option.isSome_iff_exists.mp (by decide +kernel)
  have hall : ∀ entry ∈ rebooted.1.entryOf link, entry.record.state ≠ .retired ∧
      registration.scope.fabric.valid = false ∧
      backingStale rebooted.1 entry.record.binding = none ∧
      checkTopology entry observation = none ∧ checkEndpoint entry observation = none ∧
      ¬ rebooted.1.Stuck entry (entry.record.concludes observation) ∧ ¬ rebooted.1.Exhausted entry ∧
      (entry.record.concludes observation).state = .up := by
    rw [rebooted_eq]
    decide +kernel
  obtain ⟨hlive, hfabric, hbacking, htopology, hendpoint, henters, hroom, hup⟩ := hall entry hentry
  refine ⟨entry, ⟨?_, ⟨rfl, rfl, rfl, rfl, by decide, fun hf => ?_⟩, by decide, hentry, hlive,
    hbacking, htopology, hendpoint, rfl, rfl, henters, hroom⟩, hup⟩
  · rw [rebooted_eq]
    decide +kernel
  · rw [hfabric] at hf
    cases hf

end Sample

/-- The small run goes on after a restart: the publisher reports the link up again. -/
theorem restart_recovers_sample : ∃ entry',
    (((Impl.create {}).restart {} {} (Sample.engine.save {} {} none).2
      Sample.registration).publishEvidence Sample.publish).1.entryOf Sample.link = some entry' ∧
    entry'.record.state = .up := by
  obtain ⟨entry, hobserves, hup⟩ := Sample.reobserves
  obtain ⟨entry', hentries, hconclusion, -⟩ := (@restart_recovers (.create {}) (by decide) {} {} _
    (Sample.load_plain {} Sample.engine_storable).2 Sample.registration Sample.publish).2 entry hobserves
  exact ⟨entry', (hentries Sample.link).trans (if_pos rfl),
    (congrArg Conclusion.state hconclusion).trans hup⟩

end LinkState
