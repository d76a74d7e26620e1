import LinkStateFabric.Engine.Steps

/-!
# What steps leave alone

* `EditFrame`: an edit touches one entry and no publisher, and no counter goes back.
* `Steps.entries`: an invariant of single entries is proved once for each kind of step.
* `Steps.le`: links are never lost, and no counter goes back, so an engine whose counters are not
  exhausted has never had one that was (`Unsaturated`).
* `Steps.evidence_subset` and `Steps.shape`: the steps that bring evidence, and those that change
  what other links see of a link.
-/

namespace LinkState

open Relation (ReflTransGen)

/-! ## Edits -/

/-- What no step of an edit touches, and the order of its counters. -/
structure EditFrame (t t' : Edit) : Prop where
  config : t'.impl.config = t.impl.config
  links : t'.impl.store.links = t.impl.store.links
  authority : SameAuthority t.impl t'.impl
  retained : t'.impl.retained = t.impl.retained
  globalGeneration : t.impl.globalGeneration ≤ t'.impl.globalGeneration
  globalStateGeneration : t.impl.globalStateGeneration ≤ t'.impl.globalStateGeneration
  evidenceGeneration : t.entry.record.evidenceGeneration ≤ t'.entry.record.evidenceGeneration
  stateGeneration : t.entry.record.stateGeneration ≤ t'.entry.record.stateGeneration

namespace EditFrame

variable {t t' t'' : Edit}

theorem refl (t : Edit) : EditFrame t t :=
  ⟨rfl, rfl, .refl _, rfl, le_rfl, le_rfl, le_rfl, le_rfl⟩

theorem trans (h : EditFrame t t') (h' : EditFrame t' t'') : EditFrame t t'' :=
  ⟨h'.config.trans h.config, h'.links.trans h.links, h.authority.trans h'.authority,
    h'.retained.trans h.retained, h.globalGeneration.trans h'.globalGeneration,
    h.globalStateGeneration.trans h'.globalStateGeneration,
    h.evidenceGeneration.trans h'.evidenceGeneration,
    h.stateGeneration.trans h'.stateGeneration⟩

theorem count (h : t.Advances t') : EditFrame t t' := by
  obtain ⟨g, gs, e, s, rfl, h1, h2, h3, h4⟩ := h.counters
  exact ⟨rfl, rfl, ⟨fun _ => rfl, rfl, rfl, rfl⟩, rfl, h1, h2, h3, h4⟩

/-- A step that keeps the counters and what is outside the entry. -/
theorem still {impl : Impl} {entry : LinkEntry} (hconfig : impl.config = t.impl.config)
    (hlinks : impl.store.links = t.impl.store.links) (hauthority : SameAuthority t.impl impl)
    (hretained : impl.retained = t.impl.retained)
    (hg : impl.globalGeneration = t.impl.globalGeneration)
    (hgs : impl.globalStateGeneration = t.impl.globalStateGeneration)
    (he : entry.record.evidenceGeneration = t.entry.record.evidenceGeneration)
    (hs : entry.record.stateGeneration = t.entry.record.stateGeneration) :
    EditFrame t ⟨impl, entry⟩ :=
  ⟨hconfig, hlinks, hauthority, hretained, hg.ge, hgs.ge, he.ge, hs.ge⟩

theorem dropEvidence (t : Edit) (explain : Explanation) : EditFrame t (t.dropEvidence explain) := by
  obtain ⟨_, _, heq, -⟩ := t.dropEvidence_eq explain
  rw [heq]
  exact still rfl rfl ⟨fun _ => rfl, rfl, rfl, rfl⟩ rfl rfl rfl rfl rfl

theorem commitPrepared {prepared : PreparedCommit} (h : prepared.Fits t)
    (publication : PublicationId) (publisher : PublisherId) :
    EditFrame t (t.commitPrepared prepared publication publisher) := by
  obtain ⟨hframe, hcommits⟩ := Edit.commitPrepared_spec h publication publisher
  have hstore := hframe.store
  have hcounters : t.impl.globalStateGeneration ≤
      (t.commitPrepared prepared publication publisher).impl.globalStateGeneration ∧
      t.entry.record.stateGeneration ≤
      (t.commitPrepared prepared publication publisher).entry.record.stateGeneration := by
    cases hc : prepared.stateChanged with
    | false =>
      obtain ⟨-, hs, hgs⟩ := hcommits.unchanged hc
      exact ⟨hgs.ge, hs.ge⟩
    | true =>
      obtain ⟨-, hs, hgs⟩ := hcommits.changed hc
      exact ⟨(StrongGeneration.lt_next hgs).le, (StrongGeneration.lt_next hs).le⟩
  refine ⟨hframe.config, by rw [hstore], ⟨fun p => by rw [hstore], hframe.epoch, by rw [hstore],
    by rw [hstore]⟩, by unfold Impl.retained; rw [hstore], hframe.globalGeneration.ge, hcounters.1, hframe.evidenceGeneration.ge,
    hcounters.2⟩

theorem enterRetired (t : Edit) (request : RetireLinkRequest) :
    EditFrame t (t.enterRetired request) := by
  obtain ⟨_, _, -, heq⟩ := t.enterRetired_eq request
  rw [heq]
  exact still rfl rfl ⟨fun _ => rfl, rfl, rfl, rfl⟩ rfl rfl rfl rfl rfl

theorem noteAcceptance (t : Edit) (publisher : PublisherId) :
    EditFrame t { t with impl := t.impl.noteAcceptance publisher } := by
  refine .still ?_ ?_ (noteAcceptance_sameAuthority t.impl publisher) ?_ ?_ ?_ rfl rfl <;>
  · unfold Impl.noteAcceptance
    dsimp only
    split <;> rfl

end EditFrame

variable {allow : Kind → Prop} {link : LinkId} {t t' : Edit}

theorem EditStep.frame (h : EditStep allow link t t') : EditFrame t t' := by
  cases h with
  | drop explain => exact .dropEvidence t explain
  | count hcount => exact .count hcount
  | stamp => exact .still rfl rfl (.refl _) rfl rfl rfl rfl rfl
  | raise =>
    obtain ⟨g, -, heq⟩ := t.raiseTopology_eq
    rw [heq]
    exact .still rfl rfl ⟨fun _ => rfl, rfl, rfl, rfl⟩ rfl rfl rfl rfl rfl
  | release publisher =>
    unfold Edit.releaseLink
    split
    · exact .refl t
    · exact .still rfl rfl ⟨fun _ => rfl, rfl, rfl, rfl⟩ rfl rfl rfl rfl rfl
  | tally => exact .still rfl rfl ⟨fun _ => rfl, rfl, rfl, rfl⟩ rfl rfl rfl rfl rfl
  | intent => exact .still rfl rfl (.refl _) rfl rfl rfl rfl rfl
  | commit prepared publication publisher hfits => exact .commitPrepared hfits publication publisher
  | rebind _ binding _ =>
    refine (EditFrame.dropEvidence t (explainRebinding binding)).trans ?_
    exact .still rfl rfl ⟨fun _ => rfl, rfl, rfl, rfl⟩ rfl rfl rfl rfl rfl
  | publish _ request prepared _ _ hcount =>
    refine (EditFrame.dropEvidence t _).trans ((EditFrame.count hcount).trans ?_)
    refine EditFrame.trans (show EditFrame _ (Edit.storeEvidence (Edit.stampGlobal _)
      request.observation) from ?_) (.noteAcceptance _ request.observation.publisher)
    exact .still rfl rfl ⟨fun _ => rfl, rfl, rfl, rfl⟩ rfl rfl rfl rfl rfl
  | retire _ request _ hcount _ =>
    refine (EditFrame.dropEvidence t _).trans ((EditFrame.count hcount).trans ?_)
    refine EditFrame.trans ?_ (.enterRetired _ request)
    exact .still rfl rfl (.refl _) rfl rfl rfl rfl rfl

theorem EditSteps.frame (h : EditSteps allow link t t') : EditFrame t t' := by
  induction h with
  | refl => exact .refl _
  | tail _ hstep ih => exact ih.trans hstep.frame

theorem commit_entryOf (t : Edit) (link l : LinkId) :
    (t.commit link).entryOf l = if l = link then some t.entry else t.impl.entryOf l :=
  Impl.entryOf_putEntry ..

/-- An edit leaves the other entries alone. -/
theorem EditFrame.entryOf (h : EditFrame t t') (l : LinkId) : t'.impl.entryOf l = t.impl.entryOf l := by
  unfold Impl.entryOf
  rw [h.links]

/-! ## Entries -/

/-- What holds of every new entry, and what every kind of step keeps, holds of every entry. -/
theorem Steps.entries {Q : LinkId → LinkEntry → Prop}
    (hbind : allow .bind → ∀ (impl : Impl) (binding : TopologyBinding) (t : Edit),
      binding.WellFormed → Edit.Advances ⟨impl, newEntry binding⟩ t →
      Q binding.link t.stampGlobal.stampTransition.indexNew.raiseTopology.entry)
    (hedit : ∀ link t t', EditStep allow link t t' → Q link t.entry → Q link t'.entry)
    {impl impl' : Impl} (hsteps : Steps allow impl impl')
    (h : ∀ link entry, impl.entryOf link = some entry → Q link entry) :
    ∀ link entry, impl'.entryOf link = some entry → Q link entry := by
  refine hsteps.invariant (P := fun impl => ∀ link entry, impl.entryOf link = some entry →
    Q link entry) (fun impl impl' hsame _ h l e he => ?_)
    (fun ha impl binding t hwf _ hcount h l e he => ?_) (fun link t t' hstep h l e he => ?_) h
  · exact h l e ((hsame.entryOf l).symm.trans he)
  -- A link that is bound has an entry of its own, and the other entries are those of before.
  · rw [commit_entryOf] at he
    split at he
    · rename_i hl
      cases he
      rw [hl]
      exact hbind ha impl binding t hwf hcount
    · refine h l e ?_
      rw [← he]
      obtain ⟨_, _, _, _, _, -, -, heq⟩ := hcount.bind_eq
      rw [heq]
      rfl
  · rw [commit_entryOf] at he
    split at he
    · rename_i hl
      cases he
      subst hl
      exact hedit l t t' hstep (h l t.entry (by rw [commit_entryOf, if_pos rfl]))
    · rename_i hl
      refine h l e ?_
      rw [commit_entryOf, if_neg hl, ← he, hstep.frame.entryOf]

/-! ## Order -/

/-- Links are kept, and no counter goes back. -/
structure Impl.Le (impl impl' : Impl) : Prop where
  config : impl'.config = impl.config
  globalGeneration : impl.globalGeneration ≤ impl'.globalGeneration
  globalStateGeneration : impl.globalStateGeneration ≤ impl'.globalStateGeneration
  entries : ∀ link entry, impl.entryOf link = some entry → ∃ entry', impl'.entryOf link = some entry' ∧
    entry.record.evidenceGeneration ≤ entry'.record.evidenceGeneration ∧
    entry.record.stateGeneration ≤ entry'.record.stateGeneration

theorem Impl.Le.refl (impl : Impl) : impl.Le impl :=
  ⟨rfl, le_rfl, le_rfl, fun _ e he => ⟨e, he, le_rfl, le_rfl⟩⟩

theorem Impl.Le.trans {impl impl' impl'' : Impl} (h : impl.Le impl') (h' : impl'.Le impl'') :
    impl.Le impl'' := by
  refine ⟨h'.config.trans h.config, h.globalGeneration.trans h'.globalGeneration,
    h.globalStateGeneration.trans h'.globalStateGeneration, fun l e he => ?_⟩
  obtain ⟨e', he', h1, h2⟩ := h.entries l e he
  obtain ⟨e'', he'', h1', h2'⟩ := h'.entries l e' he'
  exact ⟨e'', he'', h1.trans h1', h2.trans h2'⟩

/-- An edit goes forward. -/
theorem EditFrame.le {link : LinkId} (h : EditFrame t t') : (t.commit link).Le (t'.commit link) := by
  refine ⟨h.config, h.globalGeneration, h.globalStateGeneration, fun l e he => ?_⟩
  rw [commit_entryOf] at he ⊢
  split at he
  · rename_i hl
    cases he
    exact ⟨t'.entry, by rw [if_pos hl], h.evidenceGeneration, h.stateGeneration⟩
  · rename_i hl
    exact ⟨e, by rw [if_neg hl, h.entryOf, he], le_rfl, le_rfl⟩

theorem SameLinks.le {impl impl' : Impl} (h : SameLinks impl impl') : impl.Le impl' := by
  refine ⟨h.config, h.globalGeneration.ge, h.globalStateGeneration.ge, fun l e he => ⟨e, ?_, le_rfl,
    le_rfl⟩⟩
  rw [h.entryOf, he]

theorem Steps.le {impl impl' : Impl} (h : Steps allow impl impl') : impl.Le impl' := by
  refine h.invariant (P := impl.Le) (fun _ _ hsame _ h => h.trans hsame.le)
    (fun _ base binding t _ hnew hcount h => h.trans ?_)
    (fun _ _ _ hstep h => h.trans hstep.frame.le) (.refl impl)
  obtain ⟨_, _, _, _, _, h1, h2, heq⟩ := hcount.bind_eq
  rw [heq]
  refine ⟨rfl, h1, h2, fun l e he => ⟨e, ?_, le_rfl, le_rfl⟩⟩
  rw [commit_entryOf, if_neg]
  · exact he
  · rintro rfl
    rw [hnew] at he; cases he

theorem le_foldl (impl : Impl) {ops : List Op} (h : ∀ op ∈ ops, op.isLoad = false) :
    impl.Le (ops.foldl Impl.apply impl) := by
  induction ops generalizing impl with
  | nil => exact .refl impl
  | cons op ops ih =>
    exact (apply_steps impl (h op List.mem_cons_self)).le.trans
      (ih _ fun op hop => h op (List.mem_cons_of_mem _ hop))

/-- No counter of the engine or of a link is exhausted. -/
structure Impl.Unsaturated (impl : Impl) : Prop where
  globalGeneration : impl.globalGeneration.saturated = false
  globalStateGeneration : impl.globalStateGeneration.saturated = false
  entries : ∀ link entry, impl.entryOf link = some entry →
    entry.record.evidenceGeneration.saturated = false ∧
    entry.record.stateGeneration.saturated = false

instance (impl : Impl) : Decidable impl.Unsaturated :=
  decidable_of_iff (impl.globalGeneration.saturated = false ∧
      impl.globalStateGeneration.saturated = false ∧
      ∀ link ∈ impl.store.links.keys, ∀ entry ∈ impl.entryOf link,
        entry.record.evidenceGeneration.saturated = false ∧
        entry.record.stateGeneration.saturated = false)
    ⟨fun ⟨hg, hgs, he⟩ => ⟨hg, hgs, fun link entry h =>
      he link (Finmap.mem_keys.mpr (Finmap.mem_of_lookup_eq_some h)) entry h⟩,
    fun h => ⟨h.globalGeneration, h.globalStateGeneration, fun link _ entry he =>
      h.entries link entry he⟩⟩

theorem unsaturated_of_le {tag : GenTag} {g g' : StrongGeneration tag} (h : g ≤ g')
    (hg' : g'.saturated = false) : g.saturated = false := by
  by_contra hg
  rw [StrongGeneration.saturated_of_le (by simpa using hg) h] at hg'
  cases hg'

/-- Exhaustion is for ever. -/
theorem Impl.Unsaturated.of_le {impl impl' : Impl} (h : impl'.Unsaturated) (hle : impl.Le impl') :
    impl.Unsaturated := by
  refine ⟨unsaturated_of_le hle.globalGeneration h.globalGeneration,
    unsaturated_of_le hle.globalStateGeneration h.globalStateGeneration, fun l e he => ?_⟩
  obtain ⟨e', he', h1, h2⟩ := hle.entries l e he
  obtain ⟨h3, h4⟩ := h.entries l e' he'
  exact ⟨unsaturated_of_le h1 h3, unsaturated_of_le h2 h4⟩

/-- Counters that do not all advance leave one that is exhausted. -/
theorem advanceAll_of_unsaturated {cs : List Counter} {link : LinkId} {t t' : Edit}
    (h : t.advanceAll cs = (t', false)) : ¬ (t'.commit link).Unsaturated := by
  intro hu
  induction cs generalizing t with
  | nil => cases h
  | cons c cs ih =>
    unfold Edit.advanceAll at h
    split at h
    · rename_i hnone
      cases h
      obtain ⟨he, hs⟩ := hu.entries link t'.entry (by rw [commit_entryOf, if_pos rfl])
      have hg := hu.globalGeneration
      have hgs := hu.globalStateGeneration
      have hnext {tag : GenTag} {g : StrongGeneration tag} (hn : g.next = none)
          (hg : g.saturated = false) : False := by
        rw [StrongGeneration.next_eq_none] at hn
        rw [hn] at hg; cases hg
      cases c <;> simp only [Edit.advance, Option.map_eq_none_iff] at hnone
      · exact hnext hnone hg
      · exact hnext hnone he
      · exact hnext hnone hs
      · exact hnext hnone hgs
    · exact ih h

/-- A live link can always be resolved again, under every trigger that leads to revalidation,
unless a counter is exhausted. -/
theorem recompute_ok {link : LinkId} {t : Edit} {trigger : TransitionTrigger}
    (hlive : t.entry.record.state ≠ .retired)
    (ht : trigger ∈ inboundTriggers .revalidationRequired) (hu : (t.commit link).Unsaturated) :
    (prepareCommit t.impl t.entry t.entry.current trigger).ok = true := by
  have hsound := resolveLinkState_sound t.entry.current t.entry.record
  have hmem := effectiveTrigger_mem hsound.2 ht
  rw [← hsound.1] at hmem
  refine (prepareCommit_of_mem hlive hmem).resolve_right ?_
  obtain ⟨-, hs⟩ := hu.entries link t.entry (by rw [commit_entryOf, if_pos rfl])
  rintro ⟨-, hn | hn⟩ <;> rw [StrongGeneration.next_eq_none] at hn
  · rw [hn] at hs; cases hs
  · have hgs := hu.globalStateGeneration
    rw [show (t.commit link).globalStateGeneration = t.impl.globalStateGeneration from rfl, hn] at hgs
    cases hgs

theorem recomputeLink_committed {link : LinkId} {t t' : Edit} {trigger : TransitionTrigger}
    {publication : PublicationId} {publisher : PublisherId} {code : OutcomeCode} {changed : Bool}
    (h : t.recomputeLink trigger publication publisher = (t', code, changed))
    (hlive : t.entry.record.state ≠ .retired)
    (ht : trigger ∈ inboundTriggers .revalidationRequired) (hu : (t'.commit link).Unsaturated) :
    code = .committed := by
  unfold Edit.recomputeLink at h
  dsimp only at h
  split at h
  · cases h; rfl
  · rename_i hok
    cases h
    exact absurd (recompute_ok hlive ht hu) hok

/-- The state of an entry is not that of its counters. -/
theorem Edit.Advances.state (h : t.Advances t') :
    t'.entry.record.state = t.entry.record.state := by
  obtain ⟨g, gs, e, s, rfl, -⟩ := h.counters
  rfl

/-- A rebinding that exhausts no counter goes all the way: the link is resolved again, and then its
dependents. -/
theorem applyRebinding_of_unsaturated {impl : Impl} {entry : LinkEntry}
    {binding : TopologyBinding} {reason : Text} (hlive : entry.record.state ≠ .retired)
    (hu : (Edit.applyRebinding ⟨impl, entry⟩ link binding reason).1.Unsaturated) :
    ∃ t u publication changed,
      ((Edit.dropEvidence ⟨impl, entry⟩ (explainRebinding binding)).rebind binding).advanceAll
        [.evidence, .global] = (t, true) ∧
      t.stampGlobal.raiseTopology.recomputeLink .topologyInvalidation publication .null =
        (u, .committed, changed) ∧
      (Edit.applyRebinding ⟨impl, entry⟩ link binding reason).1 =
        (u.commit link).invalidateStaleDependents u.entry.record.binding.link := by
  unfold Edit.applyRebinding at hu ⊢
  dsimp only at hu ⊢
  split at hu
  · rename_i hc
    exact absurd hu (advanceAll_of_unsaturated hc)
  rename_i t hc
  have hcount := Edit.advanceAll_advances [.evidence, .global] (by decide)
    ((Edit.dropEvidence ⟨impl, entry⟩ (explainRebinding binding)).rebind binding)
  rw [hc] at hcount ⊢
  have hstate : t.stampGlobal.raiseTopology.entry.record.state ≠ .retired := by
    obtain ⟨_, -, heq⟩ := t.stampGlobal.raiseTopology_eq
    rw [heq, show t.stampGlobal.entry.record.state = t.entry.record.state from rfl, hcount.state]
    exact fun h => hlive (by rw [← h, ← Edit.dropEvidence_record ⟨impl, entry⟩]; rfl)
  split at hu
  · rename_i u changed hr
    exact ⟨t, u, _, changed, rfl, hr, rfl⟩
  · rename_i u code changed hne hr
    exact absurd (recomputeLink_committed hr hstate (by decide) hu) hne

theorem Edit.enterRetired_binding (t : Edit) (request : RetireLinkRequest) :
    (t.enterRetired request).entry.record.binding = t.entry.record.binding := by
  obtain ⟨_, _, -, heq⟩ := t.enterRetired_eq request
  rw [heq]

/-- A retirement that exhausts no counter goes all the way, and then purges the dependents. -/
theorem retire_of_unsaturated {impl : Impl} {entry : LinkEntry} {request : RetireLinkRequest}
    (hu : (Edit.retire ⟨impl, entry⟩ request).1.Unsaturated) :
    ∃ t, (Edit.dropEvidence ⟨impl, entry⟩ explainRetirement).advanceAll
        [.evidence, .global, .state, .globalState] = (t, true) ∧
      (Edit.retire ⟨impl, entry⟩ request).1 =
        ((Edit.enterRetired
          { t.stampGlobal with
            entry.record.provenanceDigest := digestEvidenceSet t.entry.current }
          request).commit request.link).invalidateStaleDependents t.entry.record.binding.link := by
  unfold Edit.retire at hu ⊢
  split at hu
  · rename_i hc
    exact absurd hu (advanceAll_of_unsaturated hc)
  · rename_i t hc
    refine ⟨t, hc, ?_⟩
    dsimp only
    rw [Edit.enterRetired_binding]
    rfl

/-! ## Evidence -/

/-- The current evidence of a link. -/
def Impl.currentEvidence (impl : Impl) (link : LinkId) : List EvidenceRecord :=
  ((impl.entryOf link).map (·.current)).getD []

theorem SameLinks.currentEvidence {impl impl' : Impl} (h : SameLinks impl impl') (link : LinkId) :
    impl'.currentEvidence link = impl.currentEvidence link := by
  unfold Impl.currentEvidence
  rw [h.entryOf]

theorem Impl.currentEvidence_eq {impl : Impl} {link : LinkId} {entry : LinkEntry}
    (h : impl.entryOf link = some entry) : impl.currentEvidence link = entry.current := by
  unfold Impl.currentEvidence
  rw [h]
  rfl

theorem currentEvidence_commit (t : Edit) (link l : LinkId) : (t.commit link).currentEvidence l =
    if l = link then t.entry.current else t.impl.currentEvidence l := by
  unfold Impl.currentEvidence
  rw [commit_entryOf]
  split <;> rfl

theorem EditFrame.currentEvidence (h : EditFrame t t') (l : LinkId) :
    t'.impl.currentEvidence l = t.impl.currentEvidence l := by
  unfold Impl.currentEvidence
  rw [h.entryOf]

/-- Only a publication brings evidence. -/
theorem EditStep.current_subset (hp : ¬ allow .publish) (h : EditStep allow link t t') :
    t'.entry.current ⊆ t.entry.current := by
  cases h with
  | drop explain => exact List.filter_sublist.subset
  | count hcount =>
    obtain ⟨g, gs, e, s, rfl, -⟩ := hcount.counters
    exact List.Subset.refl _
  | stamp => exact List.Subset.refl _
  | raise =>
    obtain ⟨g, -, heq⟩ := t.raiseTopology_eq
    rw [heq]; exact List.Subset.refl _
  | release publisher =>
    unfold Edit.releaseLink
    split <;> exact List.Subset.refl _
  | tally => exact List.Subset.refl _
  | intent => exact List.Subset.refl _
  | commit prepared publication publisher hfits =>
    rw [(Edit.commitPrepared_spec hfits publication publisher).1.current]
    exact List.Subset.refl _
  | rebind _ binding _ => exact List.filter_sublist.subset
  | publish ha => exact absurd ha hp
  | retire _ request _ hcount _ =>
    obtain ⟨g, gs, e, s, rfl, -⟩ := hcount.counters
    obtain ⟨_, _, -, heq⟩ := Edit.enterRetired_eq _ request
    rw [heq]
    exact List.filter_sublist.subset

theorem EditSteps.current_subset (hp : ¬ allow .publish) (h : EditSteps allow link t t') :
    t'.entry.current ⊆ t.entry.current := by
  induction h with
  | refl => exact List.Subset.refl _
  | tail _ hstep ih => exact List.Subset.trans (hstep.current_subset hp) ih

theorem Steps.evidence_subset (hp : ¬ allow .publish) {impl impl' : Impl}
    (h : Steps allow impl impl') (l : LinkId) :
    impl'.currentEvidence l ⊆ impl.currentEvidence l := by
  refine h.invariant (P := fun impl' => impl'.currentEvidence l ⊆ impl.currentEvidence l)
    (fun base base' hsame _ h => ?_) (fun _ base binding t _ hnew hcount h => ?_)
    (fun link t t' hstep h => ?_) (List.Subset.refl _)
  · rw [hsame.currentEvidence]
    exact h
  · obtain ⟨_, _, _, _, _, -, -, heq⟩ := hcount.bind_eq
    rw [heq, currentEvidence_commit]
    split
    · exact List.nil_subset _
    · exact h
  · rw [currentEvidence_commit] at h ⊢
    split
    · rename_i hl
      rw [if_pos hl] at h
      exact List.Subset.trans (hstep.current_subset hp) h
    · rename_i hl
      rw [if_neg hl] at h
      rw [hstep.frame.currentEvidence]
      exact h

theorem recomputeLink_current (t : Edit) (trigger : TransitionTrigger) (publication : PublicationId)
    (publisher : PublisherId) :
    (t.recomputeLink trigger publication publisher).1.entry.current = t.entry.current := by
  unfold Edit.recomputeLink
  dsimp only
  split
  · rename_i hok
    exact (Edit.commitPrepared_spec (prepareCommit_ok hok).1 publication publisher).1.current
  · rfl

theorem purgeLink_none {impl : Impl} {link : LinkId} (h : impl.entryOf link = none)
    (explain : Impl → LinkEntry → Explanation) (trigger : TransitionTrigger) (kind : Text) :
    impl.purgeLink explain trigger kind link = impl := by
  unfold Impl.purgeLink
  rw [h]

/-- A purge leaves the evidence of its link that is not explained away, and that of other links. -/
theorem purgeLink_evidence {impl : Impl} {link : LinkId} {entry : LinkEntry}
    (hentry : impl.entryOf link = some entry) (explain : Impl → LinkEntry → Explanation)
    (trigger : TransitionTrigger) (kind : Text) (other : LinkId) :
    (impl.purgeLink explain trigger kind link).currentEvidence other =
      if other = link then entry.current.filter fun record => (explain impl entry record).isNone
      else impl.currentEvidence other := by
  have hcommit {t t' : Edit} {b : Bool}
      (hc : (Edit.dropEvidence ⟨impl, entry⟩ (explain impl entry)).advanceAll [.evidence, .global] =
        (t, b)) (hsteps : EditSteps (fun _ => False) link t t')
      (hcurrent : t'.entry.current = t.entry.current) :
      (t'.commit link).currentEvidence other =
        if other = link then entry.current.filter fun record => (explain impl entry record).isNone
        else impl.currentEvidence other := by
    have hcount := Edit.advanceAll_advances [.evidence, .global] (by decide)
      (Edit.dropEvidence ⟨impl, entry⟩ (explain impl entry))
    rw [hc] at hcount
    have hframe := ((EditFrame.dropEvidence _ _).trans (.count hcount)).trans hsteps.frame
    obtain ⟨g, gs, e, s, rfl, -⟩ := hcount.counters
    rw [currentEvidence_commit, hcurrent, hframe.currentEvidence]
    rfl
  unfold Impl.purgeLink
  rw [hentry]
  dsimp only
  -- Where nothing is explained the purge does nothing, and the filter keeps everything.
  split
  · rename_i hall
    split
    · rename_i hl
      rw [hl, Impl.currentEvidence_eq hentry]
      exact (List.filter_eq_self.mpr (List.all_eq_true.mp hall)).symm
    · rfl
  split
  · rename_i hc
    exact hcommit hc .refl rfl
  · rename_i t hc
    exact hcommit hc (.head (.stamp t) (recomputeLink_steps ..)) (recomputeLink_current ..)

/-- What is left of a link that is purged is not explained away. -/
theorem purgeLink_currentEvidence {explain : Impl → LinkEntry → Explanation}
    {trigger : TransitionTrigger} {kind : Text} {impl : Impl} {link : LinkId}
    {record : EvidenceRecord}
    (h : record ∈ (impl.purgeLink explain trigger kind link).currentEvidence link) :
    ∃ entry, impl.entryOf link = some entry ∧ record ∈ entry.current ∧
      explain impl entry record = none := by
  cases hentry : impl.entryOf link with
  | none =>
    rw [purgeLink_none hentry, Impl.currentEvidence, hentry] at h
    cases h
  | some entry =>
    rw [purgeLink_evidence hentry, if_pos rfl, List.mem_filter, Option.isNone_iff_eq_none] at h
    exact ⟨entry, rfl, h⟩

/-! ## Shape -/

/-- What other links see of an entry: whether it is retired, and its binding. -/
def LinkEntry.shape (entry : LinkEntry) : Bool × TopologyBinding :=
  (entry.record.state = .retired, entry.record.binding)

/-- What other links see of a link. -/
def Impl.shape (impl : Impl) (link : LinkId) : Option (Bool × TopologyBinding) :=
  (impl.entryOf link).map (·.shape)

/-- Only rebinding and retirement change the shape of an entry. -/
theorem EditStep.shape (hb : ¬ allow .rebind) (hr : ¬ allow .retire)
    (h : EditStep allow link t t') : t'.entry.shape = t.entry.shape := by
  have hdrop (t : Edit) (explain : Explanation) :
      (t.dropEvidence explain).entry.shape = t.entry.shape := by
    unfold LinkEntry.shape
    rw [Edit.dropEvidence_record]
  cases h with
  | drop explain => exact hdrop t explain
  | count hcount =>
    obtain ⟨g, gs, e, s, rfl, -⟩ := hcount.counters
    rfl
  | stamp => rfl
  | raise =>
    obtain ⟨g, -, heq⟩ := t.raiseTopology_eq
    rw [heq]
  | release publisher =>
    unfold Edit.releaseLink
    split <;> rfl
  | tally => rfl
  | intent => rfl
  | commit prepared publication publisher hfits =>
    obtain ⟨hframe, hcommits⟩ := Edit.commitPrepared_spec hfits publication publisher
    unfold LinkEntry.shape
    -- No commit leads into or out of RETIRED, which is the only state that is part of the shape.
    rw [hframe.binding, hcommits.state]
    simp [hfits.live, hfits.target_live]
  | rebind ha => exact absurd ha hb
  | publish _ request _ _ _ hcount =>
    obtain ⟨g, gs, e, s, rfl, -⟩ := hcount.counters
    exact hdrop t (explainPublication request.observation)
  | retire ha => exact absurd ha hr

theorem EditSteps.shape (hb : ¬ allow .rebind) (hr : ¬ allow .retire)
    (h : EditSteps allow link t t') : t'.entry.shape = t.entry.shape := by
  induction h with
  | refl => rfl
  | tail _ hstep ih => exact (hstep.shape hb hr).trans ih

theorem Steps.shape (hn : ¬ allow .bind) (hb : ¬ allow .rebind) (hr : ¬ allow .retire)
    {impl impl' : Impl} (h : Steps allow impl impl') (l : LinkId) : impl'.shape l = impl.shape l := by
  refine h.invariant (P := fun impl' => impl'.shape l = impl.shape l)
    (fun base base' hsame _ h => ?_) (fun ha => absurd ha hn) (fun link t t' hstep h => ?_) rfl
  · unfold Impl.shape at h ⊢
    rw [hsame.entryOf]
    exact h
  · rw [← h]
    unfold Impl.shape
    rw [commit_entryOf, commit_entryOf, hstep.frame.entryOf]
    split
    · exact congrArg some (hstep.shape hb hr)
    · rfl

/-! ## Publications -/

theorem explainPublication_isNone (observation record : EvidenceRecord) :
    (explainPublication observation record).isNone = !supersedes observation record := by
  unfold explainPublication supersedes
  by_cases hk : record.key = observation.key
  · simp [hk]
  by_cases hs : record.key.source = observation.key.source ∧
      record.sourceGeneration < observation.sourceGeneration
  · simp [hk, hs]
  · rw [if_neg hk, if_neg hs]
    simp only [Option.isNone_none, hk, decide_false, Bool.false_or]
    simpa [imp_iff_not_or] using hs

/-- The evidence after a publication: what was there and is not superseded, and the observation. -/
theorem publishEvidence_currentEvidence (impl : Impl) (request : PublishEvidenceRequest) :
    (∀ l, (impl.publishEvidence request).1.currentEvidence l ⊆ impl.currentEvidence l) ∨
    ∃ entry prepared, Admitted impl request entry prepared ∧
      ∀ l, ∀ r ∈ (impl.publishEvidence request).1.currentEvidence l,
        (r ∈ impl.currentEvidence l ∧ (l = request.observation.key.link →
          r ∈ entry.current ∧ supersedes request.observation r = false)) ∨
        (l = request.observation.key.link ∧ ∃ t : Edit, r = t.storedRecord request.observation) := by
  unfold Impl.publishEvidence
  split
  · exact .inl fun l => List.Subset.refl _
  · refine .inl fun l => ?_
    rw [(noteRejection_sameLinks impl _).currentEvidence]
    exact List.Subset.refl _
  · exact .inl fun l => List.Subset.refl _
  rename_i entry prepared hadmit
  have h := admitted_of_admit hadmit
  have hentry : impl.currentEvidence request.observation.key.link = entry.current := by
    unfold Impl.currentEvidence
    rw [h.bound]
    rfl
  unfold Edit.publish
  dsimp only
  split
  · rename_i t hc
    -- The counters are exhausted: the evidence is dropped, and the observation is not stored.
    refine .inl fun l => ?_
    have hsteps : EditSteps (fun _ => False) request.observation.key.link ⟨impl, entry⟩ t :=
      dropEvidence_steps (explainPublication_final _) (by decide) hc
    rw [currentEvidence_commit, hsteps.frame.currentEvidence]
    split
    · rename_i hl
      rw [hl, hentry]
      exact hsteps.current_subset (fun h => h)
    · exact List.Subset.refl _
  · rename_i t hc
    refine .inr ⟨entry, prepared, h, fun l r hr => ?_⟩
    have hcount := Edit.advanceAll_advances [.global, .evidence] (by decide)
      (Edit.dropEvidence ⟨impl, entry⟩ (explainPublication request.observation))
    rw [hc] at hcount
    obtain ⟨hframe, -⟩ := Edit.commitPrepared_spec (h.fits_accept hc) request.publication
      request.observation.publisher
    have hsteps : EditSteps (fun _ => True) request.observation.key.link ⟨impl, entry⟩
        ((t.accept request.observation).commitPrepared prepared request.publication
          request.observation.publisher) :=
      .head (.publish trivial request prepared rfl h hcount)
        (.single (.commit _ _ _ _ (h.fits_accept hc)))
    rw [currentEvidence_commit, hsteps.frame.currentEvidence] at hr
    split at hr
    · rename_i hl
      obtain ⟨g, gs, e, s, rfl, -⟩ := hcount.counters
      rw [hframe.current] at hr
      rcases List.mem_append.mp ((Sorting.mem_sortBy _).mp hr) with hr | hr
      · obtain ⟨hmem, hnone⟩ := List.mem_filter.mp hr
        rw [explainPublication_isNone] at hnone
        refine .inl ⟨by rw [hl, hentry]; exact hmem, fun _ => ⟨hmem, by simpa using hnone⟩⟩
      · exact .inr ⟨hl, _, List.mem_singleton.mp hr⟩
    · rename_i hl
      exact .inl ⟨hr, fun h => absurd h hl⟩

end LinkState
