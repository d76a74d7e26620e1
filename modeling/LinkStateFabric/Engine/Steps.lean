import LinkStateFabric.Engine.EditLemmas
import LinkStateFabric.Engine.Run
import Mathlib.Logic.Relation

/-!
# What an operation can do

Every operation but a load is a sequence of `Change`s, and a change of an entry a sequence of
`EditStep`s, each with the guards under which the code makes it (`apply_steps`). An invariant of the
store is proved once for each of these (`Steps.invariant`). The steps that bind, rebind, retire or
publish are of a `Kind`, and each operation takes only the kinds that it is there for.
-/

namespace LinkState

open Relation (ReflTransGen)
open Sorting

/-! ## Guards -/

theorem wellFormed_of_validBinding {binding : TopologyBinding} (h : validBinding binding = none) :
    binding.WellFormed := by
  unfold validBinding at h
  split at h
  · cases h
  split at h
  · cases h
  split at h
  · cases h
  split at h
  · cases h
  rename_i h1 h2 h3 h4
  simp only [List.any_eq_true, Bool.not_eq_true', not_exists, not_and, Bool.not_eq_false] at h4
  refine ⟨by simpa using h1, by simpa using h2, by simpa using h3, h4, fun backing hb => ?_⟩
  have := List.findSome?_eq_none_iff.mp h backing hb
  split at this
  · cases this
  · rename_i hv; simpa using hv

/-- A binding that may replace that of an entry. -/
structure Rebinds (link : LinkId) (entry : LinkEntry) (binding : TopologyBinding) : Prop where
  live : entry.record.state ≠ .retired
  link_eq : binding.link = link ∨ binding.link = entry.record.binding.link
  newer : entry.record.binding.topologyGeneration < binding.topologyGeneration
  wellFormed : entry.record.binding.WellFormed → binding.WellFormed

/-- An intent that `transition_state` records. -/
structure AdministrativeIntent.Recordable (intent : AdministrativeIntent) : Prop where
  publication : intent.publication.valid = true
  publisher : intent.publisher.valid = true
  restrictive : restrictive intent.state = true
  cause : intent.state = .degraded → intent.cause ≠ .none

/-- What an admitted publication has passed. -/
structure Admitted (impl : Impl) (request : PublishEvidenceRequest) (entry : LinkEntry)
    (prepared : PreparedCommit) : Prop where
  valid : validateObservation request.observation request.publication = none
  bound : impl.entryOf request.observation.key.link = some entry
  live : entry.record.state ≠ .retired
  authorized : authorize impl.store request.observation.publisher request.observation.workerBoot
    request.observation.key.source request.observation.epoch impl.epoch
    request.observation.key.link entry.record.binding = none
  backing : backingStale impl entry.record.binding = none
  topology : checkTopology entry request.observation = none
  endpoint : checkEndpoint entry request.observation = none
  expectedEvidence : checkExpectedEvidence entry request.expectedEvidenceGeneration = none
  expectedState : checkExpectedState entry request.expectedStateGeneration = none
  identity : checkObservation impl.store request.observation = none
  slot : ∀ slot, findSlot entry request.observation.key = some slot →
    judgeSlot slot request.observation = .fresh
  capacity : checkCapacity impl.config entry request.observation = none
  prepared_eq : prepared = prepareCommit impl entry (prospectiveWith entry request.observation)
    .evidenceResolution
  prepared_ok : prepared.ok = true

theorem admitted_of_admit {impl : Impl} {request : PublishEvidenceRequest} {entry : LinkEntry}
    {prepared : PreparedCommit} (h : impl.admit request = .admitted entry prepared) :
    Admitted impl request entry prepared := by
  unfold Impl.admit at h
  dsimp only at h
  split at h
  · cases h
  rename_i hvalid
  split at h
  · cases h
  rename_i e hbound
  split at h
  · cases h
  rename_i hrefusal
  simp only [Impl.refusal, Option.orElse_eq_none, Option.map_eq_none_iff] at hrefusal
  obtain ⟨hlive, hauth, hback, htopology, hendpoint, hevidence, hstate, hidentity⟩ := hrefusal
  split at h
  · cases h
  · cases h
  rename_i hslot
  split at h
  · cases h
  rename_i hcapacity
  split at h
  · cases h
  rename_i hok
  simp only [Admission.admitted.injEq] at h
  obtain ⟨rfl, rfl⟩ := h
  refine ⟨hvalid, hbound, ?_, hauth, hback, htopology, hendpoint, hevidence, hstate, hidentity,
    fun slot hs => ?_, hcapacity, rfl, by simpa using hok⟩
  · intro hr
    rw [checkLive, if_pos hr] at hlive
    cases hlive
  · rw [hs] at hslot; exact hslot

theorem Admitted.refusal_eq {impl : Impl} {request : PublishEvidenceRequest} {entry : LinkEntry}
    {prepared : PreparedCommit} (h : Admitted impl request entry prepared) :
    impl.refusal entry request = none := by
  simp only [Impl.refusal, Option.orElse_eq_none, Option.map_eq_none_iff]
  exact ⟨if_neg h.live, h.authorized, h.backing, h.topology, h.endpoint, h.expectedEvidence,
    h.expectedState, h.identity⟩

/-- An explanation under which no record stays current. -/
def Explanation.Final (explain : Explanation) : Prop :=
  ∀ record, ∀ cause ∈ explain record, cause.1 ≠ .current

theorem explainStaleDependent_final (impl : Impl) (entry : LinkEntry) :
    (explainStaleDependent impl entry).Final := by
  intro record cause h
  unfold explainStaleDependent at h
  split at h
  · cases h
  · obtain ⟨_, -, rfl⟩ := Option.map_eq_some_iff.mp h
    simp

theorem explainFence_final (publisher : PublisherId) (boot : WorkerBootId) (allBoots : Bool)
    (reason : Text) : (explainFence publisher boot allBoots reason).Final := by
  intro record cause h
  unfold explainFence at h
  split at h <;> cases h
  simp

theorem explainRebinding_final (binding : TopologyBinding) : (explainRebinding binding).Final := by
  intro record cause h
  unfold explainRebinding at h
  split at h <;> cases h
  simp

theorem explainPublication_final (observation : EvidenceRecord) :
    (explainPublication observation).Final := by
  intro record cause h
  unfold explainPublication at h
  split at h
  · cases h
    simp
  split at h <;> cases h
  simp

theorem explainWithdrawal_final (request : WithdrawEvidenceRequest) :
    (explainWithdrawal request).Final := by
  intro record cause h
  unfold explainWithdrawal at h
  split at h <;> cases h
  simp

theorem explainRevalidation_final (request : MarkRevalidationRequest) :
    (explainRevalidation request).Final := by
  intro record cause h
  unfold explainRevalidation at h
  split at h <;> cases h
  simp

theorem explainRetirement_final : explainRetirement.Final := by
  intro record cause h
  cases h
  simp

/-! ## Steps of an edit -/

/-- The steps that not every operation takes. -/
inductive Kind where
  | bind | rebind | publish | retire | authority
  deriving DecidableEq

/-- One step of an edit of the entry of `link`, of the kinds that are allowed. -/
inductive EditStep (allow : Kind → Prop) (link : LinkId) : Edit → Edit → Prop
  | drop (t : Edit) (explain : Explanation) (h : explain.Final) :
    EditStep allow link t (t.dropEvidence explain)
  | count {t t' : Edit} (h : t.Advances t') : EditStep allow link t t'
  | stamp (t : Edit) : EditStep allow link t t.stampGlobal
  | raise (t : Edit) : EditStep allow link t t.raiseTopology
  | release (t : Edit) (publisher : PublisherId) :
    EditStep allow link t (t.releaseLink publisher link)
  | tally (t : Edit) (counters : EngineStats) :
    EditStep allow link t { t with impl := { t.impl with counters } }
  | intent (t : Edit) (intent : Option AdministrativeIntent) (h : ∀ i ∈ intent, i.Recordable) :
    EditStep allow link t { t with entry.record.adminIntent := intent }
  | commit (t : Edit) (prepared : PreparedCommit) (publication : PublicationId)
    (publisher : PublisherId) (h : prepared.Fits t) :
    EditStep allow link t (t.commitPrepared prepared publication publisher)
  | rebind (t : Edit) (ha : allow .rebind) (binding : TopologyBinding)
    (h : Rebinds link t.entry binding) :
    EditStep allow link t ((t.dropEvidence (explainRebinding binding)).rebind binding)
  | publish {t t' : Edit} (ha : allow .publish) (request : PublishEvidenceRequest)
    (prepared : PreparedCommit) (hlink : request.observation.key.link = link)
    (h : Admitted t.impl request t.entry prepared)
    (hcount : (t.dropEvidence (explainPublication request.observation)).Advances t') :
    EditStep allow link t (t'.accept request.observation)
  | retire {t t' : Edit} (ha : allow .retire) (request : RetireLinkRequest)
    (hlive : t.entry.record.state ≠ .retired)
    (hcount : (t.dropEvidence explainRetirement).Advances t')
    (hstate : 0 < t'.entry.record.stateGeneration.value) :
    EditStep allow link t (Edit.enterRetired
      { t'.stampGlobal with
        entry.record.provenanceDigest := digestEvidenceSet t'.entry.current } request)

/-- Steps of an edit of the entry of `link`, one after the other. -/
abbrev EditSteps (allow : Kind → Prop) (link : LinkId) : Edit → Edit → Prop :=
  ReflTransGen (EditStep allow link)

variable {allow : Kind → Prop}

/-- A step is of no kind, or of one of the three kinds of an edit. -/
theorem EditStep.cases_kind {link : LinkId} {t t' : Edit} (h : EditStep allow link t t') :
    EditStep (fun _ => False) link t t' ∨
    (∃ binding, Rebinds link t.entry binding ∧
      t' = (t.dropEvidence (explainRebinding binding)).rebind binding) ∨
    (∃ request prepared u, request.observation.key.link = link ∧
      Admitted t.impl request t.entry prepared ∧
      (t.dropEvidence (explainPublication request.observation)).Advances u ∧
      t' = u.accept request.observation) ∨
    ∃ request u, t.entry.record.state ≠ .retired ∧ (t.dropEvidence explainRetirement).Advances u ∧
      0 < u.entry.record.stateGeneration.value ∧ t' = Edit.enterRetired
        { u.stampGlobal with
          entry.record.provenanceDigest := digestEvidenceSet u.entry.current } request := by
  cases h with
  | drop explain h => exact .inl (.drop t explain h)
  | count hcount => exact .inl (.count hcount)
  | stamp => exact .inl (.stamp t)
  | raise => exact .inl (.raise t)
  | release publisher => exact .inl (.release t publisher)
  | tally counters => exact .inl (.tally t counters)
  | intent intent h => exact .inl (.intent t intent h)
  | commit prepared publication publisher h => exact .inl (.commit t prepared publication publisher h)
  | rebind _ binding h => exact .inr (.inl ⟨binding, h, rfl⟩)
  | publish _ request prepared hlink h hcount =>
    exact .inr (.inr (.inl ⟨request, prepared, _, hlink, h, hcount, rfl⟩))
  | retire _ request hlive hcount hpos =>
    exact .inr (.inr (.inr ⟨request, _, hlive, hcount, hpos, rfl⟩))

section EditSteps

variable {link : LinkId} {t t' : Edit} {cs : List Counter} {b : Bool}

theorem advanceAll_steps (hc : .state ∉ cs) (h : t.advanceAll cs = (t', b)) :
    EditSteps allow link t t' := by
  have hcount := Edit.advanceAll_advances _ hc t
  rw [h] at hcount
  exact .single (.count hcount)

theorem dropEvidence_steps {explain : Explanation} (hfinal : explain.Final) (hc : .state ∉ cs)
    (h : (t.dropEvidence explain).advanceAll cs = (t', b)) : EditSteps allow link t t' :=
  .head (.drop t explain hfinal) (advanceAll_steps hc h)

theorem recomputeLink_steps (t : Edit) (trigger : TransitionTrigger) (publication : PublicationId)
    (publisher : PublisherId) :
    EditSteps allow link t (t.recomputeLink trigger publication publisher).1 := by
  unfold Edit.recomputeLink
  dsimp only
  split
  · rename_i hok
    exact .single (.commit t _ publication publisher (prepareCommit_ok hok).1)
  · exact .refl

end EditSteps

/-! ## Changes of an engine -/

/-- The snapshots that an engine retains, and their order. -/
def Impl.retained (impl : Impl) : (Finmap fun _ : SnapshotId => Snapshot) × List SnapshotId :=
  (impl.store.snapshots, impl.store.snapshotOrder)

/-- An engine whose links, and what is filed about them, are those of another. A publisher without
evidence on a link may lose it, and a snapshot may be retained. -/
structure SameLinks (impl impl' : Impl) : Prop where
  config : impl'.config = impl.config
  links : impl'.store.links = impl.store.links
  byState : impl'.store.byState = impl.store.byState
  byEndpoint : impl'.store.byEndpoint = impl.store.byEndpoint
  observations : impl'.store.observations = impl.store.observations
  dependents : impl'.store.dependents = impl.store.dependents
  publisherLinks : ∀ publisher link, link ∈ impl.store.publisherLinks.bucket publisher →
    impl.hasEvidenceOf publisher link = true → link ∈ impl'.store.publisherLinks.bucket publisher
  globalGeneration : impl'.globalGeneration = impl.globalGeneration
  globalStateGeneration : impl'.globalStateGeneration = impl.globalStateGeneration
  topologyGeneration : impl'.topologyGeneration = impl.topologyGeneration
  retained : impl'.retained = impl.retained ∨
    ∃ snap, impl'.retained = (impl.retainSnapshot snap).retained

theorem SameLinks.refl (impl : Impl) : SameLinks impl impl :=
  ⟨rfl, rfl, rfl, rfl, rfl, rfl, fun _ _ hl _ => hl, rfl, rfl, rfl, .inl rfl⟩

theorem SameLinks.entryOf {impl impl' : Impl} (h : SameLinks impl impl') (l : LinkId) :
    impl'.entryOf l = impl.entryOf l := by
  unfold Impl.entryOf
  rw [h.links]

theorem putAuthority_sameLinks (impl : Impl) (publisher : PublisherId)
    (authority : PublisherAuthority) : SameLinks impl (impl.putAuthority publisher authority) :=
  ⟨rfl, rfl, rfl, rfl, rfl, rfl, fun _ _ hl _ => hl, rfl, rfl, rfl, .inl rfl⟩

/-- A publisher's authority without its tallies. -/
def PublisherAuthority.core (authority : PublisherAuthority) : PublisherAuthority :=
  { authority with acceptedPublications := 0, rejectedPublications := 0 }

/-- An engine in which the same incarnations have the same authority, and the same are fenced. -/
structure SameAuthority (impl impl' : Impl) : Prop where
  publishers : ∀ publisher, (impl'.store.publishers.lookup publisher).map (·.core) =
    (impl.store.publishers.lookup publisher).map (·.core)
  epoch : impl'.epoch = impl.epoch
  fencedBoots : impl'.store.fencedBoots = impl.store.fencedBoots
  fences : impl'.store.fences = impl.store.fences

theorem SameAuthority.refl (impl : Impl) : SameAuthority impl impl :=
  ⟨fun _ => rfl, rfl, rfl, rfl⟩

theorem SameAuthority.trans {impl impl' impl'' : Impl} (h : SameAuthority impl impl')
    (h' : SameAuthority impl' impl'') : SameAuthority impl impl'' :=
  ⟨fun p => (h'.publishers p).trans (h.publishers p), h'.epoch.trans h.epoch,
    h'.fencedBoots.trans h.fencedBoots, h'.fences.trans h.fences⟩

/-- A tally of a publisher is not part of its authority. -/
theorem lookup_putAuthority_core {impl : Impl} {publisher : PublisherId}
    {authority authority' : PublisherAuthority}
    (h : impl.store.publishers.lookup publisher = some authority)
    (hcore : authority'.core = authority.core) (p : PublisherId) :
    ((impl.putAuthority publisher authority').store.publishers.lookup p).map (·.core) =
      (impl.store.publishers.lookup p).map (·.core) := by
  unfold Impl.putAuthority
  by_cases hp : p = publisher
  · subst hp
    rw [Finmap.lookup_insert, h, Option.map_some, Option.map_some, hcore]
  · rw [Finmap.lookup_insert_of_ne _ hp]

theorem noteRejection_sameAuthority (impl : Impl) (publisher : PublisherId) :
    SameAuthority impl (impl.noteRejection publisher) := by
  unfold Impl.noteRejection
  dsimp only
  split
  · exact ⟨fun _ => rfl, rfl, rfl, rfl⟩
  · rename_i authority h
    exact ⟨lookup_putAuthority_core h rfl, rfl, rfl, rfl⟩

theorem noteAcceptance_sameAuthority (impl : Impl) (publisher : PublisherId) :
    SameAuthority impl (impl.noteAcceptance publisher) := by
  unfold Impl.noteAcceptance
  dsimp only
  split
  · exact ⟨fun _ => rfl, rfl, rfl, rfl⟩
  · rename_i authority h
    exact ⟨lookup_putAuthority_core h rfl, rfl, rfl, rfl⟩

/-- One change of an engine, of the kinds that are allowed. -/
inductive Change (allow : Kind → Prop) (impl : Impl) : Impl → Prop
  | outside {impl' : Impl} (h : SameLinks impl impl')
    (ha : allow .authority ∨ SameAuthority impl impl') : Change allow impl impl'
  | bind {t : Edit} (ha : allow .bind) (binding : TopologyBinding) (hwf : binding.WellFormed)
    (hnew : impl.entryOf binding.link = none) (hcount : Edit.Advances ⟨impl, newEntry binding⟩ t) :
    Change allow impl (t.stampGlobal.stampTransition.indexNew.raiseTopology.commit binding.link)
  | edit {link : LinkId} {entry : LinkEntry} {t : Edit} (hentry : impl.entryOf link = some entry)
    (h : EditSteps allow link ⟨impl, entry⟩ t) : Change allow impl (t.commit link)

/-- A change that leaves every entry but that of `link` as it is. -/
inductive ChangeAt (allow : Kind → Prop) (link : LinkId) (impl : Impl) : Impl → Prop
  | outside {impl' : Impl} (h : SameLinks impl impl') (ha : SameAuthority impl impl') :
    ChangeAt allow link impl impl'
  | edit {entry : LinkEntry} {t : Edit} (hentry : impl.entryOf link = some entry)
    (h : EditSteps allow link ⟨impl, entry⟩ t) : ChangeAt allow link impl (t.commit link)

theorem ChangeAt.refl {link : LinkId} (impl : Impl) : ChangeAt allow link impl impl :=
  .outside (.refl impl) (.refl impl)

/-- Changes of an engine, one after the other. -/
abbrev Steps (allow : Kind → Prop) : Impl → Impl → Prop := ReflTransGen (Change allow)

theorem ChangeAt.steps {link : LinkId} {impl impl' : Impl} (h : ChangeAt allow link impl impl') :
    Steps allow impl impl' := by
  cases h with
  | outside h ha => exact .single (.outside h (.inr ha))
  | edit hentry h => exact .single (.edit hentry h)

theorem Steps.foldl {α : Type} {f : Impl → α → Impl} (h : ∀ impl a, Steps allow impl (f impl a))
    (l : List α) (impl : Impl) : Steps allow impl (l.foldl f impl) := by
  induction l generalizing impl with
  | nil => exact .refl
  | cons a l ih => exact (h impl a).trans (ih _)

/-! ## Operations -/

section Operations

variable (impl : Impl)

theorem purgeLink_steps {explain : Impl → LinkEntry → Explanation}
    (hfinal : ∀ impl entry, (explain impl entry).Final) (trigger : TransitionTrigger) (kind : Text)
    (link : LinkId) : Steps allow impl (impl.purgeLink explain trigger kind link) := by
  unfold Impl.purgeLink
  split
  · exact .refl
  rename_i entry hentry
  split
  · exact .refl
  split
  · rename_i h
    exact .single (.edit hentry (dropEvidence_steps (hfinal impl entry) (by decide) h))
  · rename_i h
    refine .single (.edit hentry ((dropEvidence_steps (hfinal impl entry) (by decide) h).trans ?_))
    exact .head (.stamp _) (recomputeLink_steps ..)

theorem invalidateStaleDependents_steps (link : LinkId) :
    Steps allow impl (impl.invalidateStaleDependents link) :=
  Steps.foldl (fun impl => purgeLink_steps impl explainStaleDependent_final _ _) _ impl

/-- The steps that follow a change of a binding, and the dependents of the link that are invalidated
after them. -/
theorem applyRebinding_rebound (link : LinkId) (entry : LinkEntry) (binding : TopologyBinding)
    (reason : Text) :
    ∃ t, EditSteps allow link
        ((Edit.dropEvidence ⟨impl, entry⟩ (explainRebinding binding)).rebind binding) t ∧
      ((Edit.applyRebinding ⟨impl, entry⟩ link binding reason).1 = t.commit link ∨
        (Edit.applyRebinding ⟨impl, entry⟩ link binding reason).1 =
          (t.commit link).invalidateStaleDependents t.entry.record.binding.link) := by
  unfold Edit.applyRebinding
  dsimp only
  split
  · rename_i hc
    exact ⟨_, advanceAll_steps (by decide) hc, .inl rfl⟩
  rename_i t hc
  have hcount : EditSteps allow link _ t := advanceAll_steps (by decide) hc
  have hrecompute := (hcount.tail (.stamp t)).tail (.raise _) |>.trans
    (recomputeLink_steps t.stampGlobal.raiseTopology .topologyInvalidation
      (.fromValidated (publicationIdFor (lit "topology")
        t.stampGlobal.raiseTopology.impl.globalGeneration.value)) .null)
  split
  · rename_i heq
    rw [heq] at hrecompute
    exact ⟨_, hrecompute, .inr rfl⟩
  · rename_i heq
    rw [heq] at hrecompute
    exact ⟨_, hrecompute, .inl rfl⟩

/-- The edit of a rebinding, and the dependents of the link that are invalidated after it. -/
theorem applyRebinding_edit (ha : allow .rebind) {link : LinkId} {entry : LinkEntry}
    {binding : TopologyBinding} (h : Rebinds link entry binding) (reason : Text) :
    ∃ t, EditSteps allow link ⟨impl, entry⟩ t ∧
      ((Edit.applyRebinding ⟨impl, entry⟩ link binding reason).1 = t.commit link ∨
        (Edit.applyRebinding ⟨impl, entry⟩ link binding reason).1 =
          (t.commit link).invalidateStaleDependents t.entry.record.binding.link) := by
  obtain ⟨t, hsteps, hresult⟩ := applyRebinding_rebound impl link entry binding reason
  exact ⟨t, .head (.rebind _ ha binding h) hsteps, hresult⟩

theorem applyRebinding_steps (ha : allow .rebind) {link : LinkId} {entry : LinkEntry}
    {binding : TopologyBinding} (hentry : impl.entryOf link = some entry)
    (h : Rebinds link entry binding) (reason : Text) :
    Steps allow impl (Edit.applyRebinding ⟨impl, entry⟩ link binding reason).1 := by
  obtain ⟨t, hsteps, heq | heq⟩ := applyRebinding_edit impl ha h reason <;> rw [heq]
  · exact .single (.edit hentry hsteps)
  · exact .head (.edit hentry hsteps) (invalidateStaleDependents_steps _ _)

theorem bindNew_steps (ha : allow .bind) {binding : TopologyBinding} (hwf : binding.WellFormed)
    (hnew : impl.entryOf binding.link = none) : Steps allow impl (impl.bindNew binding).1 := by
  unfold Impl.bindNew
  split
  · exact .refl
  split
  · exact .refl
  · rename_i t hc
    have hcount := Edit.advanceAll_advances [.global] (by decide) ⟨impl, newEntry binding⟩
    rw [hc] at hcount
    exact .single (.bind ha binding hwf hnew hcount)

theorem bindLink_steps (hb : allow .bind) (hr : allow .rebind) (request : BindLinkRequest) :
    Steps allow impl (impl.bindLink request).1 := by
  unfold Impl.bindLink
  dsimp only
  split
  · exact .refl
  rename_i hvalid
  have hwf := wellFormed_of_validBinding hvalid
  split
  · rename_i hnew
    exact bindNew_steps impl hb hwf hnew
  rename_i entry hentry
  split
  · exact .refl
  rename_i hlive
  split
  · exact .refl
  rename_i hle
  split
  · split <;> exact .refl
  rename_i hne
  exact applyRebinding_steps impl hr hentry
    ⟨hlive, .inl rfl, lt_of_le_of_ne (not_lt.mp hle) (Ne.symm hne), fun _ => hwf⟩ _

/-- The binding that a supersession asks for may replace the bound one. -/
theorem rebinds_of_superseding {request : SupersedeTopologyRequest} {entry : LinkEntry}
    {binding : TopologyBinding} (hlive : entry.record.state ≠ .retired)
    (hnewer : entry.record.binding.topologyGeneration < request.newTopologyGeneration)
    (h : supersedingBinding request entry.record.binding = .ok binding) :
    Rebinds request.link entry binding := by
  have hpos : request.newTopologyGeneration.isZero = false := by
    rw [StrongGeneration.lt_iff] at hnewer
    simp only [StrongGeneration.isZero, decide_eq_false_iff_not]
    omega
  unfold supersedingBinding at h
  split at h
  · cases h
    exact ⟨hlive, .inr rfl, hnewer, fun hwf => { hwf with topologyGeneration := hpos }⟩
  dsimp only at h
  split at h
  · cases h
  rename_i hvalid
  split at h
  · cases h
  rename_i hlink
  cases h
  have hwf := wellFormed_of_validBinding hvalid
  exact ⟨hlive, .inl (not_not.mp hlink), hnewer, fun _ => { hwf with topologyGeneration := hpos }⟩

theorem supersedeTopology_steps (ha : allow .rebind) (request : SupersedeTopologyRequest) :
    Steps allow impl (impl.supersedeTopology request).1 := by
  unfold Impl.supersedeTopology
  split
  · exact .refl
  split
  · exact .refl
  rename_i entry hentry
  dsimp only
  split
  · exact .refl
  rename_i hlive
  split
  · exact .refl
  rename_i hnewer
  split
  · exact .refl
  rename_i binding hbinding
  exact applyRebinding_steps impl ha hentry
    (rebinds_of_superseding hlive (by simpa using hnewer) hbinding) _

/-- The counters of a retirement advance: the state generations, after the others. -/
theorem advanceAll_retirement (t : Edit) {t' : Edit} {b : Bool}
    (h : t.advanceAll [.evidence, .global, .state, .globalState] = (t', b)) :
    t.Advances t' ∧ (b = true → 0 < t'.entry.record.stateGeneration.value) := by
  have hfirst := Edit.advanceAll_advances [.evidence, .global] (by decide) t
  rw [show [Counter.evidence, .global, .state, .globalState] =
    [.evidence, .global] ++ [.state, .globalState] from rfl, Edit.advanceAll_append] at h
  rcases h1 : t.advanceAll [.evidence, .global] with ⟨t1, b1⟩
  rw [h1] at h hfirst
  cases b1 with
  | false =>
    cases h
    exact ⟨hfirst, fun hb => by cases hb⟩
  | true =>
    obtain ⟨hstates, hpos⟩ := t1.advanceAll_states
    dsimp only at h
    rw [h] at hstates hpos
    exact ⟨hfirst.trans hstates, hpos⟩

/-- The edit of a retirement, and the dependents of the link that are invalidated after it. -/
theorem retire_edit (ha : allow .retire) {request : RetireLinkRequest} {entry : LinkEntry}
    (hlive : entry.record.state ≠ .retired) :
    ∃ t, EditSteps allow request.link ⟨impl, entry⟩ t ∧
      ((Edit.retire ⟨impl, entry⟩ request).1 = t.commit request.link ∨
        (Edit.retire ⟨impl, entry⟩ request).1 =
          (t.commit request.link).invalidateStaleDependents t.entry.record.binding.link) := by
  unfold Edit.retire
  split
  · rename_i hc
    obtain ⟨hcount, -⟩ := advanceAll_retirement _ hc
    exact ⟨_, .head (.drop _ _ explainRetirement_final) (.single (.count hcount)), .inl rfl⟩
  · rename_i hc
    obtain ⟨hcount, hpos⟩ := advanceAll_retirement _ hc
    exact ⟨_, .single (.retire ha request hlive hcount (hpos rfl)), .inr rfl⟩

theorem retire_steps (ha : allow .retire) {request : RetireLinkRequest} {entry : LinkEntry}
    (hentry : impl.entryOf request.link = some entry) (hlive : entry.record.state ≠ .retired) :
    Steps allow impl (Edit.retire ⟨impl, entry⟩ request).1 := by
  obtain ⟨t, hsteps, heq | heq⟩ := retire_edit impl ha hlive <;> rw [heq]
  · exact .single (.edit hentry hsteps)
  · exact .head (.edit hentry hsteps) (invalidateStaleDependents_steps _ _)

theorem retireLink_steps (ha : allow .retire) (request : RetireLinkRequest) :
    Steps allow impl (impl.retireLink request).1 := by
  unfold Impl.retireLink
  split
  · exact .refl
  split
  · exact .refl
  rename_i entry hentry
  split
  · exact .refl
  split
  · exact .refl
  rename_i hlive
  split
  · exact .refl
  split
  · exact .refl
  exact retire_steps impl ha hentry hlive

theorem noteFence_sameLinks (publisher : PublisherId) (boot : WorkerBootId)
    (status : AuthorityStatus) (reason : Text) :
    SameLinks impl (impl.noteFence publisher boot status reason) := by
  unfold Impl.noteFence Impl.setAuthorityStatus
  dsimp only
  split <;> split <;>
    exact ⟨rfl, rfl, rfl, rfl, rfl, rfl, fun _ _ hl _ => hl, rfl, rfl, rfl, .inl rfl⟩

theorem releasePublisher_sameLinks (publisher : PublisherId) :
    SameLinks impl (impl.releasePublisher publisher) := by
  refine ⟨rfl, rfl, rfl, rfl, rfl, rfl, fun p l hl he => ?_, rfl, rfl, rfl, .inl rfl⟩
  refine Index.mem_restrict.mpr ⟨hl, ?_⟩
  rintro rfl
  exact he

theorem purgePublisher_steps (publisher : PublisherId) (boot : WorkerBootId) (allBoots : Bool)
    (reason : Text) : Steps allow impl (impl.purgePublisher publisher boot allBoots reason) :=
  Steps.foldl (fun impl => purgeLink_steps impl
    (fun _ _ => explainFence_final publisher boot allBoots reason) _ _) _ impl

theorem releasePublisher_sameAuthority (publisher : PublisherId) :
    SameAuthority impl (impl.releasePublisher publisher) := ⟨fun _ => rfl, rfl, rfl, rfl⟩

theorem fencePublisher_steps (ha : allow .authority) (publisher : PublisherId) (boot : WorkerBootId) (allBoots : Bool)
    (status : AuthorityStatus) (reason : Text) :
    Steps allow impl (impl.fencePublisher publisher boot allBoots status reason) :=
  .head (.outside (noteFence_sameLinks impl publisher boot status reason) (.inl ha))
    ((purgePublisher_steps _ publisher boot allBoots reason).tail
      (.outside (releasePublisher_sameLinks _ publisher) (.inl ha)))

theorem admitRegistration_steps (ha : allow .authority) (registration : PublisherRegistration) :
    Steps allow impl (impl.admitRegistration registration).1 := by
  unfold Impl.admitRegistration
  have hput (impl : Impl) (publisher : PublisherId) (authority : PublisherAuthority) :
      Steps allow impl (impl.putAuthority publisher authority) :=
    .single (.outside (putAuthority_sameLinks ..) (.inl ha))
  split
  · split
    · split
      · exact .refl
      · exact hput ..
    · unfold Impl.supersedeBoot
      dsimp only
      split
      · exact fencePublisher_steps _ ha ..
      · exact (fencePublisher_steps _ ha ..).trans (hput ..)
  · split
    · exact .refl
    · exact hput ..

theorem registerPublisher_steps (ha : allow .authority) (request : RegisterPublisherRequest) :
    Steps allow impl (impl.registerPublisher request).1 := by
  unfold Impl.registerPublisher
  dsimp only
  split
  · exact .refl
  split
  · exact .refl
  split
  · exact .refl
  split
  · exact .refl
  · exact admitRegistration_steps _ ha ..

theorem invalidatePublisher_steps (ha : allow .authority) (request : InvalidatePublisherRequest) :
    Steps allow impl (impl.invalidatePublisher request).1 := by
  unfold Impl.invalidatePublisher
  split
  · exact .refl
  split
  · exact .refl
  split
  · exact .refl
  split
  · exact .refl
  split
  · exact .refl
  · exact fencePublisher_steps _ ha ..

theorem fenceStale_steps (ha : allow .authority) (publisher : PublisherId) :
    Steps allow impl (impl.fenceStale publisher) := by
  unfold Impl.fenceStale
  split
  · exact .refl
  · exact fencePublisher_steps _ ha ..

theorem advanceCoordinatorEpoch_steps (ha : allow .authority) (request : AdvanceEpochRequest) :
    Steps allow impl (impl.advanceCoordinatorEpoch request).1 := by
  unfold Impl.advanceCoordinatorEpoch
  split
  · exact .refl
  split
  · exact .refl
  · refine .head (.outside ?_ (.inl ha)) (Steps.foldl (fun impl => fenceStale_steps impl ha) _ _)
    exact ⟨rfl, rfl, rfl, rfl, rfl, rfl, fun _ _ hl _ => hl, rfl, rfl, rfl, .inl rfl⟩

theorem reconcileLink_steps (p : Impl × Nat) (link : LinkId) :
    Steps allow p.1 (Impl.reconcileLink p link).1 := by
  unfold Impl.reconcileLink
  split
  · exact .refl
  rename_i entry hentry
  split
  · exact .refl
  dsimp only
  have hstep : EditSteps allow link ⟨p.1, entry⟩ _ := recomputeLink_steps _ .evidenceResolution
    (.fromValidated (publicationIdFor (lit "reconcile") p.1.globalGeneration.value)) .null
  split <;>
  · rename_i heq
    rw [heq] at hstep
    exact .single (.edit hentry hstep)

theorem reconcile_steps : Steps allow impl impl.reconcile.1 := by
  have hfold (l : List LinkId) (p : Impl × Nat) :
      Steps allow p.1 (l.foldl Impl.reconcileLink p).1 := by
    induction l generalizing p with
    | nil => exact .refl
    | cons link l ih => exact (reconcileLink_steps p link).trans (ih _)
  exact hfold _ (impl, 0)

theorem noteRejection_sameLinks (publisher : PublisherId) :
    SameLinks impl (impl.noteRejection publisher) := by
  unfold Impl.noteRejection
  dsimp only
  split <;> exact ⟨rfl, rfl, rfl, rfl, rfl, rfl, fun _ _ hl _ => hl, rfl, rfl, rfl, .inl rfl⟩

theorem noteRejection_change (publisher : PublisherId) (link : LinkId) :
    ChangeAt allow link impl (impl.noteRejection publisher) :=
  .outside (noteRejection_sameLinks impl publisher) (noteRejection_sameAuthority impl publisher)

theorem Admitted.fits {impl : Impl} {request : PublishEvidenceRequest} {entry : LinkEntry}
    {prepared : PreparedCommit} (h : Admitted impl request entry prepared) :
    prepared.Fits ⟨impl, entry⟩ := by
  rw [h.prepared_eq]
  exact (prepareCommit_ok (by rw [← h.prepared_eq]; exact h.prepared_ok)).1

/-- The prepared commit of a publication still fits when the observation has been accepted. -/
theorem Admitted.fits_accept {impl : Impl} {request : PublishEvidenceRequest} {entry : LinkEntry}
    {prepared : PreparedCommit} (h : Admitted impl request entry prepared) {explain : Explanation}
    {t : Edit} {b : Bool}
    (hc : (Edit.dropEvidence ⟨impl, entry⟩ explain).advanceAll [.global, .evidence] = (t, b)) :
    prepared.Fits (t.accept request.observation) := by
  refine ((h.fits.dropEvidence _).advanceAll (by decide) (by decide) hc).congr rfl rfl ?_
  unfold Edit.accept Impl.noteAcceptance
  dsimp only
  split <;> rfl

theorem publishEvidence_change (ha : allow .publish) (request : PublishEvidenceRequest) :
    ChangeAt allow request.observation.key.link impl (impl.publishEvidence request).1 := by
  unfold Impl.publishEvidence
  split
  · exact .refl impl
  · exact noteRejection_change impl ..
  · exact .refl impl
  rename_i entry prepared hadmit
  have h := admitted_of_admit hadmit
  have hcount := Edit.advanceAll_advances [.global, .evidence] (by decide)
    (Edit.dropEvidence ⟨impl, entry⟩ (explainPublication request.observation))
  unfold Edit.publish
  dsimp only
  split
  · rename_i hc
    exact .edit h.bound (dropEvidence_steps (explainPublication_final _) (by decide) hc)
  · rename_i t hc
    rw [hc] at hcount
    exact .edit h.bound (.head (.publish ha request prepared rfl h hcount)
      (.single (.commit _ prepared _ _ (h.fits_accept hc))))

theorem publishEvidence_steps (ha : allow .publish) (request : PublishEvidenceRequest) :
    Steps allow impl (impl.publishEvidence request).1 :=
  (publishEvidence_change impl ha request).steps

section Prepared

variable {entry : LinkEntry} {prepared : PreparedCommit}

theorem releaseLink_fits {t : Edit} (h : prepared.Fits t) (publisher : PublisherId)
    (link : LinkId) : prepared.Fits (t.releaseLink publisher link) := by
  unfold Edit.releaseLink
  split
  · exact h
  · exact h.congr rfl rfl rfl

theorem withdraw_change {request : WithdrawEvidenceRequest}
    (hentry : impl.entryOf request.key.link = some entry) (hfits : prepared.Fits ⟨impl, entry⟩) :
    ChangeAt allow request.key.link impl (Edit.withdraw ⟨impl, entry⟩ request prepared).1 := by
  unfold Edit.withdraw
  dsimp only
  split
  · rename_i hc
    exact .edit hentry (dropEvidence_steps (explainWithdrawal_final _) (by decide) hc)
  · rename_i t hc
    have hfits := (hfits.dropEvidence _).advanceAll (by decide) (by decide) hc
    have hfits : prepared.Fits t.stampGlobal := hfits.congr rfl rfl rfl
    exact .edit hentry ((dropEvidence_steps (explainWithdrawal_final _) (by decide) hc).trans
      (.head (.stamp t) (.head (.release _ request.publisher)
        (.head (.commit _ _ _ _ (releaseLink_fits hfits ..)) (.single (.tally _ _))))))

theorem changeIntent_change {request : TransitionStateRequest}
    (hentry : impl.entryOf request.link = some entry) {t : Edit} (hfits : prepared.Fits t)
    (hshadow : EditSteps allow request.link ⟨impl, entry⟩ t)
    (intent : Option AdministrativeIntent) (hintent : ∀ i ∈ intent, i.Recordable) (detail : Text) :
    ChangeAt allow request.link impl (t.changeIntent intent request prepared detail).1 := by
  unfold Edit.changeIntent
  split
  · rename_i hc
    exact .edit hentry (hshadow.trans (advanceAll_steps (by decide) hc))
  · rename_i t hc
    have hfits := hfits.advanceAll (by decide) (by decide) hc
    refine .edit hentry ((hshadow.trans (advanceAll_steps (by decide) hc)).trans
      (.head (.stamp t) (.head (.intent _ _ ?_)
        (.single (.commit _ _ _ _ (hfits.congr rfl rfl rfl))))))
    intro i hi
    obtain ⟨i', hi', rfl⟩ := Option.map_eq_some_iff.mp hi
    exact { hintent i' hi' with }

theorem liftIntent_change {request : TransitionStateRequest}
    (hentry : impl.entryOf request.link = some entry) :
    ChangeAt allow request.link impl (Edit.liftIntent ⟨impl, entry⟩ request).1 := by
  unfold Edit.liftIntent
  split
  · exact .refl impl
  extract_lets _ _ shadow prepared
  split
  · exact .refl impl
  rename_i hok
  have hfits : prepared.Fits ⟨impl, shadow⟩ := (prepareCommit_ok (by simpa using hok)).1
  exact changeIntent_change impl hentry hfits (.single (.intent _ none (by simp))) none (by simp) _

theorem imposeIntent_change {request : TransitionStateRequest}
    (hentry : impl.entryOf request.link = some entry)
    (hintent : ∀ generation, AdministrativeIntent.Recordable
      { state := request.target, publication := request.publication, publisher := request.publisher
        generation, cause := request.degradationCause }) :
    ChangeAt allow request.link impl (Edit.imposeIntent ⟨impl, entry⟩ request).1 := by
  unfold Edit.imposeIntent
  extract_lets intent _ _ shadow prepared
  split
  · exact .refl impl
  rename_i hok
  have hfits : prepared.Fits ⟨impl, shadow⟩ := (prepareCommit_ok (by simpa using hok)).1
  have hfits : prepared.Fits ⟨impl, entry⟩ := hfits.congr rfl rfl rfl
  refine changeIntent_change impl hentry hfits .refl _ ?_ _
  intro i hi
  cases hi
  exact hintent _

theorem markRevalidation_change {request : MarkRevalidationRequest}
    (hentry : impl.entryOf request.link = some entry) (hfits : prepared.Fits ⟨impl, entry⟩) :
    ChangeAt allow request.link impl (Edit.markRevalidation ⟨impl, entry⟩ request prepared).1 := by
  have hdrop : EditSteps allow request.link ⟨impl, entry⟩ _ :=
    .head (.drop _ (explainRevalidation request) (explainRevalidation_final _))
      (.single (.release _ request.publisher))
  unfold Edit.markRevalidation
  split
  · rename_i hc
    exact .edit hentry (hdrop.trans (advanceAll_steps (by decide) hc))
  · rename_i t hc
    have hfits := (releaseLink_fits (hfits.dropEvidence _) _ _).advanceAll (by decide) (by decide) hc
    exact .edit hentry ((hdrop.trans (advanceAll_steps (by decide) hc)).trans
      (.head (.stamp t) (.single (.commit _ _ _ _ (hfits.congr rfl rfl rfl)))))

end Prepared

theorem withdrawEvidence_change (request : WithdrawEvidenceRequest) :
    ChangeAt allow request.key.link impl (impl.withdrawEvidence request).1 := by
  unfold Impl.withdrawEvidence
  split
  · exact .refl impl
  split
  · exact .refl impl
  rename_i entry hentry
  split
  · exact .refl impl
  split
  · exact .refl impl
  split
  · exact .refl impl
  split
  · exact .refl impl
  dsimp only
  split
  · exact .refl impl
  rename_i hok
  exact withdraw_change impl hentry (prepareCommit_ok (by simpa using hok)).1

theorem transitionState_change (request : TransitionStateRequest) :
    ChangeAt allow request.link impl (impl.transitionState request).1 := by
  unfold Impl.transitionState
  split
  · exact .refl impl
  rename_i hids
  split
  · exact .refl impl
  rename_i entry hentry
  split
  · exact .refl impl
  split
  · exact .refl impl
  split
  · exact .refl impl
  split
  · exact .refl impl
  split
  · exact .refl impl
  split
  · exact liftIntent_change impl hentry
  split
  · exact .refl impl
  rename_i hrestrictive
  split
  · exact .refl impl
  rename_i hcause
  simp only [Bool.or_eq_true, Bool.not_eq_true', not_or, Bool.not_eq_false] at hids
  exact imposeIntent_change impl hentry fun _ =>
    ⟨hids.1.1.2, hids.1.2, by simpa using hrestrictive, fun h hc => hcause ⟨h, hc⟩⟩

theorem markRevalidationRequired_change (request : MarkRevalidationRequest) :
    ChangeAt allow request.link impl (impl.markRevalidationRequired request).1 := by
  unfold Impl.markRevalidationRequired
  split
  · exact .refl impl
  split
  · exact .refl impl
  rename_i entry hentry
  split
  · exact .refl impl
  split
  · exact .refl impl
  split
  · exact .refl impl
  split
  · exact .refl impl
  dsimp only
  split
  · exact .refl impl
  rename_i hok
  exact markRevalidation_change impl hentry (prepareCommit_ok (by simpa using hok)).1

theorem snapshot_sameLinks (request : SnapshotRequest) :
    SameLinks impl (impl.snapshot request).1 := by
  unfold Impl.snapshot
  dsimp only
  split
  · exact ⟨rfl, rfl, rfl, rfl, rfl, rfl, fun _ _ hl _ => hl, rfl, rfl, rfl, .inl rfl⟩
  · exact ⟨rfl, rfl, rfl, rfl, rfl, rfl, fun _ _ hl _ => hl, rfl, rfl, rfl, .inr ⟨_, rfl⟩⟩

theorem snapshot_sameAuthority (request : SnapshotRequest) :
    SameAuthority impl (impl.snapshot request).1 := by
  unfold Impl.snapshot
  dsimp only
  split <;> exact ⟨fun _ => rfl, rfl, rfl, rfl⟩

theorem snapshot_steps (request : SnapshotRequest) : Steps allow impl (impl.snapshot request).1 :=
  .single (.outside (snapshot_sameLinks impl request) (.inr (snapshot_sameAuthority impl request)))

/-- The kinds of steps that an operation is there for. -/
def Op.kinds : Op → Kind → Prop
  | .bindLink _, kind => kind = .bind ∨ kind = .rebind
  | .supersedeTopology _, kind => kind = .rebind
  | .retireLink _, kind => kind = .retire
  | .publishEvidence _, kind => kind = .publish
  | .registerPublisher _, kind | .invalidatePublisher _, kind | .advanceCoordinatorEpoch _, kind =>
    kind = .authority
  | _, _ => False

/-- Every operation but a load is a sequence of changes of its kinds. -/
theorem apply_steps {op : Op} (h : op.isLoad = false) : Steps op.kinds impl (impl.apply op) := by
  cases op with
  | bindLink request => exact bindLink_steps impl (.inl rfl) (.inr rfl) request
  | supersedeTopology request => exact supersedeTopology_steps impl (by exact rfl) request
  | retireLink request => exact retireLink_steps impl (by exact rfl) request
  | registerPublisher request => exact registerPublisher_steps impl (by exact rfl) request
  | invalidatePublisher request => exact invalidatePublisher_steps impl (by exact rfl) request
  | advanceCoordinatorEpoch request => exact advanceCoordinatorEpoch_steps impl (by exact rfl) request
  | publishEvidence request => exact publishEvidence_steps impl (by exact rfl) request
  | withdrawEvidence request => exact (withdrawEvidence_change impl request).steps
  | transitionState request => exact (transitionState_change impl request).steps
  | markRevalidationRequired request => exact (markRevalidationRequired_change impl request).steps
  | reconcile => exact reconcile_steps impl
  | snapshot request => exact snapshot_steps impl request
  | load => cases h

end Operations

/-! ## Invariants -/

theorem Impl.putEntry_self {impl : Impl} {link : LinkId} {entry : LinkEntry}
    (h : impl.entryOf link = some entry) : impl.putEntry link entry = impl := by
  have : impl.store.links.insert link entry = impl.store.links :=
    Finmap.ext_lookup fun l => by
      by_cases hl : l = link
      · subst hl; rw [Finmap.lookup_insert]; exact h.symm
      · rw [Finmap.lookup_insert_of_ne _ hl]
  unfold putEntry
  rw [this]

/-- What every kind of change keeps, a sequence of changes keeps. -/
theorem Steps.invariant {P : Impl → Prop} (houtside : ∀ impl impl', SameLinks impl impl' →
      allow .authority ∨ SameAuthority impl impl' → P impl → P impl')
    (hbind : allow .bind → ∀ (impl : Impl) (binding : TopologyBinding) (t : Edit),
      binding.WellFormed → impl.entryOf binding.link = none → Edit.Advances ⟨impl, newEntry binding⟩ t → P impl →
      P (t.stampGlobal.stampTransition.indexNew.raiseTopology.commit binding.link))
    (hedit : ∀ link t t', EditStep allow link t t' → P (t.commit link) → P (t'.commit link))
    {impl impl' : Impl} (h : Steps allow impl impl') (hP : P impl) : P impl' := by
  induction h with
  | refl => exact hP
  | @tail impl _ _ hchange ih =>
    cases hchange with
    | outside h ha => exact houtside _ _ h ha ih
    | bind ha binding hwf hnew hcount => exact hbind ha _ binding _ hwf hnew hcount ih
    | @edit link entry t hentry hsteps =>
      have hstart : P ((Edit.mk impl entry).commit link) := by
        rw [Edit.commit, Impl.putEntry_self hentry]; exact ih
      clear hP ih
      induction hsteps with
      | refl => exact hstart
      | tail _ hstep ih => exact hedit link _ _ hstep ih

end LinkState
