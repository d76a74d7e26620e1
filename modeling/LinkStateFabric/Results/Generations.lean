import LinkStateFabric.Engine.Moves
import LinkStateFabric.Engine.Publications

/-!
# Generations go forward

* `LinkEntry.Forward`: no generation of a link goes back, and what a generation stands for changes
  only with it. A turn keeps this (`Turn.forward`), so every operation does
  (`Impl.Forward.apply`).
* A publication that commits under an expected evidence generation leaves that generation behind
  (`Published.evidence_lt`), and the link never comes back to it, so that no later one can name it
  (`generations_forward`).
-/

namespace LinkState

/-! ## Links -/

/-- The generations of a link do not go back, and what they stand for changes only with them. -/
structure LinkEntry.Forward (entry entry' : LinkEntry) : Prop where
  topologyGeneration : entry.record.binding.topologyGeneration ≤
    entry'.record.binding.topologyGeneration
  stateGeneration : entry.record.stateGeneration ≤ entry'.record.stateGeneration
  evidenceGeneration : entry.record.evidenceGeneration ≤ entry'.record.evidenceGeneration
  binding : entry'.record.binding.topologyGeneration = entry.record.binding.topologyGeneration →
    entry'.record.binding = entry.record.binding
  state : entry'.record.stateGeneration = entry.record.stateGeneration →
    entry'.record.state = entry.record.state
  evidence : entry'.record.evidenceGeneration = entry.record.evidenceGeneration →
    entry.record.evidenceGeneration.saturated = false → entry'.current = entry.current

namespace LinkEntry.Forward

variable {entry entry' entry'' : LinkEntry}

theorem refl (entry : LinkEntry) : entry.Forward entry :=
  ⟨le_rfl, le_rfl, le_rfl, fun _ => rfl, fun _ => rfl, fun _ _ => rfl⟩

theorem trans (h : entry.Forward entry') (h' : entry'.Forward entry'') : entry.Forward entry'' where
  topologyGeneration := h.topologyGeneration.trans h'.topologyGeneration
  stateGeneration := h.stateGeneration.trans h'.stateGeneration
  evidenceGeneration := h.evidenceGeneration.trans h'.evidenceGeneration
  binding heq := by
    have hmid := le_antisymm (h'.topologyGeneration.trans heq.le) h.topologyGeneration
    rw [h'.binding (heq.trans hmid.symm), h.binding hmid]
  state heq := by
    have hmid := le_antisymm (h'.stateGeneration.trans heq.le) h.stateGeneration
    rw [h'.state (heq.trans hmid.symm), h.state hmid]
  evidence heq hsat := by
    have hmid := le_antisymm (h'.evidenceGeneration.trans heq.le) h.evidenceGeneration
    rw [h'.evidence (heq.trans hmid.symm) (by rw [hmid]; exact hsat), h.evidence hmid hsat]

end LinkEntry.Forward

section Turn

variable {op : Op} {link : LinkId} {t u t' : Edit}

/-- The binding of a link changes with its topology generation. -/
theorem Groundwork.binding_forward (h : Groundwork op link t u) :
    t.entry.record.binding.topologyGeneration ≤ u.entry.record.binding.topologyGeneration ∧
    (u.entry.record.binding.topologyGeneration = t.entry.record.binding.topologyGeneration →
      u.entry.record.binding = t.entry.record.binding) := by
  rcases h.binding with heq | hrebinds
  · rw [heq]
    exact ⟨le_rfl, fun _ => rfl⟩
  · exact ⟨hrebinds.newer.le, fun heq => absurd hrebinds.newer (by rw [heq]; exact lt_irrefl _)⟩

/-- A turn goes forward, when the global generation is not exhausted in a publication, a withdrawal
or a revalidation. -/
theorem Turn.forward (h : Turn op link t t')
    (hglobal : op.Single → t.impl.globalGeneration.saturated = false) :
    t.entry.Forward t'.entry := by
  cases h with
  | halt h =>
    refine ⟨h.binding_forward.1, h.frame.stateGeneration, h.frame.evidenceGeneration,
      h.binding_forward.2, fun _ => h.state, fun heq hsat => ?_⟩
    rcases h.evidence with hsame | hlt | hspent | ⟨hsingle, hspent⟩
    · exact hsame
    · rw [heq] at hlt
      exact absurd hlt (lt_irrefl _)
    · rw [Edit.spent_evidence, hsat] at hspent
      cases hspent
    · rw [Edit.spent_global, hglobal hsingle] at hspent
      cases hspent
  -- The evidence has been counted, so that an equal counter means that nothing has happened.
  | stall _ h =>
    have hlt := h.evidenceGeneration
    refine ⟨by rw [h.binding], h.stateGeneration.le, hlt.le, fun _ => h.binding, fun _ => h.state,
      fun heq _ => ?_⟩
    rw [heq] at hlt
    exact absurd hlt (lt_irrefl _)
  | retire _ h =>
    have hstate := h.stateGeneration
    have hevidence := h.evidenceGeneration
    refine ⟨by rw [h.binding], hstate.le, hevidence.le, fun _ => h.binding, fun heq => ?_,
      fun heq _ => ?_⟩
    · rw [heq] at hstate
      exact absurd hstate (lt_irrefl _)
    · rw [heq] at hevidence
      exact absurd hevidence (lt_irrefl _)
  | resolve h prepared publication publisher counters records hfits =>
    obtain ⟨hframe, hcommits⟩ := Edit.commitPrepared_spec hfits publication publisher
    refine ⟨?_, ?_, ?_, ?_, ?_, ?_⟩ <;> dsimp only
    · rw [hframe.binding]
      exact h.binding_forward.1
    · exact h.stateGeneration.ge.trans (EditFrame.commitPrepared hfits _ _).stateGeneration
    · rw [hframe.evidenceGeneration]
      exact h.frame.evidenceGeneration
    · rw [hframe.binding]
      exact h.binding_forward.2
    · intro heq
      cases hc : prepared.stateChanged with
      | false => rw [hcommits.state, hfits.unchanged hc, h.state]
      | true =>
        have hlt := StrongGeneration.lt_next (hcommits.changed hc).2.1
        rw [heq, h.stateGeneration] at hlt
        exact absurd hlt (lt_irrefl _)
    · rw [hframe.evidenceGeneration, hframe.current]
      intro heq _
      rcases h.evidence with hsame | hlt
      · exact hsame
      · rw [heq] at hlt
        exact absurd hlt (lt_irrefl _)

theorem Turn.topologyGeneration_le (h : Turn op link t t') :
    t.impl.topologyGeneration ≤ t'.impl.topologyGeneration := by
  cases h with
  | halt h => exact h.topologyGeneration
  | stall _ h => exact h.topologyGeneration.ge
  | retire _ h => exact h.topologyGeneration.ge
  | resolve h prepared publication publisher counters records hfits =>
    dsimp only
    rw [(Edit.commitPrepared_spec hfits publication publisher).1.topologyGeneration]
    exact h.topologyGeneration

end Turn

/-! ## Engines -/

/-- No generation of the engine or of a link goes back, links stay bound, and what the generations
of a link stand for changes only with them. -/
structure Impl.Forward (impl impl' : Impl) : Prop where
  globalGeneration : impl.globalGeneration ≤ impl'.globalGeneration
  globalStateGeneration : impl.globalStateGeneration ≤ impl'.globalStateGeneration
  topologyGeneration : impl.topologyGeneration ≤ impl'.topologyGeneration
  epoch : impl.epoch ≤ impl'.epoch
  entries : ∀ link entry, impl.entryOf link = some entry → ∃ entry',
    impl'.entryOf link = some entry' ∧ entry.Forward entry'

namespace Impl.Forward

variable {impl impl' : Impl}

theorem refl (impl : Impl) : impl.Forward impl :=
  ⟨le_rfl, le_rfl, le_rfl, le_rfl, fun _ entry hentry => ⟨entry, hentry, .refl entry⟩⟩

theorem trans {impl'' : Impl} (h : impl.Forward impl') (h' : impl'.Forward impl'') :
    impl.Forward impl'' where
  globalGeneration := h.globalGeneration.trans h'.globalGeneration
  globalStateGeneration := h.globalStateGeneration.trans h'.globalStateGeneration
  topologyGeneration := h.topologyGeneration.trans h'.topologyGeneration
  epoch := h.epoch.trans h'.epoch
  entries link entry hentry := by
    obtain ⟨entry', hentry', hforward⟩ := h.entries link entry hentry
    obtain ⟨entry'', hentry'', hforward'⟩ := h'.entries link entry' hentry'
    exact ⟨entry'', hentry'', hforward.trans hforward'⟩

/-- What a move does to the counters of the engine. -/
theorem of_move {op : Op} {base : Impl} (h : Move op base impl impl') :
    impl.globalGeneration ≤ impl'.globalGeneration ∧
    impl.globalStateGeneration ≤ impl'.globalStateGeneration ∧
    impl.topologyGeneration ≤ impl'.topologyGeneration ∧ impl.epoch ≤ impl'.epoch := by
  cases h with
  | outside h hepoch =>
    exact ⟨h.globalGeneration.ge, h.globalStateGeneration.ge, h.topologyGeneration.ge, hepoch⟩
  | bind h => exact ⟨h.globalGeneration.le, h.globalState.ge, h.topologyGeneration, h.epoch.ge⟩
  | turn _ _ _ h =>
    exact ⟨h.frame.globalGeneration, h.frame.globalStateGeneration, h.topologyGeneration_le,
      h.frame.authority.epoch.ge⟩

theorem apply {op : Op} (hload : op.isLoad = false)
    (hglobal : op.Single → impl.globalGeneration.saturated = false) :
    impl.Forward (impl.apply op) := by
  have hcounters {impl' : Impl} (h : Moves op impl impl impl') :
      impl.globalGeneration ≤ impl'.globalGeneration ∧
      impl.globalStateGeneration ≤ impl'.globalStateGeneration ∧
      impl.topologyGeneration ≤ impl'.topologyGeneration ∧ impl.epoch ≤ impl'.epoch := by
    induction h with
    | refl => exact ⟨le_rfl, le_rfl, le_rfl, le_rfl⟩
    | tail _ hmove ih =>
      obtain ⟨hg, hs, ht, he⟩ := of_move hmove
      exact ⟨ih.1.trans hg, ih.2.1.trans hs, ih.2.2.1.trans ht, ih.2.2.2.trans he⟩
  obtain ⟨hg, hs, ht, he⟩ := hcounters (apply_moves impl hload)
  refine ⟨hg, hs, ht, he, fun link entry hentry => ?_⟩
  refine Moves.follow .refl .trans (fun _ t _ hmeets hturn => hturn.forward fun hsingle => ?_)
    (apply_moves impl hload) hentry
  rw [hmeets.first hsingle]
  exact hglobal hsingle

end Impl.Forward

/-! ## Compare and swap -/

section Swap

variable {impl : Impl} {request : PublishEvidenceRequest} {entry : LinkEntry}
  {expected : EvidenceGeneration}

/-- The generation that an admitted publication expects is that of the link. -/
theorem Admitted.expected_eq {prepared : PreparedCommit} (h : Admitted impl request entry prepared)
    (hexpected : request.expectedEvidenceGeneration = some expected) :
    entry.record.evidenceGeneration = expected := by
  have hcheck := h.expectedEvidence
  rw [hexpected, checkExpectedEvidence] at hcheck
  split at hcheck
  · cases hcheck
  · rename_i heq
    exact (not_not.mp heq).symm

theorem Published.evidence_lt {prepared : PreparedCommit} {t' : Edit} {stored : EvidenceRecord}
    (h : Published impl request entry prepared t' stored) :
    entry.record.evidenceGeneration < t'.entry.record.evidenceGeneration := by
  rw [StrongGeneration.lt_iff, h.evidence]
  exact Nat.lt_succ_self _

end Swap

/-- No operation but a load takes a generation back, and the state and the evidence of a link change
only with their generations; and of the publications on a link that expect one evidence generation,
however far apart in a run, at most one commits. -/
theorem generations_forward :
    (∀ (impl : Impl) (op : Op), impl.Unsaturated → op.isLoad = false →
      impl.globalGeneration ≤ (impl.apply op).globalGeneration ∧
      impl.globalStateGeneration ≤ (impl.apply op).globalStateGeneration ∧
      impl.topologyGeneration ≤ (impl.apply op).topologyGeneration ∧
      impl.epoch ≤ (impl.apply op).epoch ∧
      ∀ link entry, impl.entryOf link = some entry → ∃ entry',
        (impl.apply op).entryOf link = some entry' ∧
        entry.record.binding.topologyGeneration ≤ entry'.record.binding.topologyGeneration ∧
        entry.record.stateGeneration ≤ entry'.record.stateGeneration ∧
        entry.record.evidenceGeneration ≤ entry'.record.evidenceGeneration ∧
        (entry'.record.stateGeneration = entry.record.stateGeneration →
          entry'.record.state = entry.record.state) ∧
        (entry'.record.evidenceGeneration = entry.record.evidenceGeneration →
          entry'.current = entry.current)) ∧
    ∀ (impl : Impl) (request request' : PublishEvidenceRequest) (ops : List Op)
      (expected : EvidenceGeneration), (∀ op ∈ ops, op.isLoad = false) →
      request.observation.key.link = request'.observation.key.link →
      request.expectedEvidenceGeneration = some expected →
      request'.expectedEvidenceGeneration = some expected → impl.Commits request →
      ¬ (ops.foldl Impl.apply (impl.apply (.publishEvidence request))).Commits request' := by
  refine ⟨fun impl op hu hload => ?_, ?_⟩
  · have h := Impl.Forward.apply hload fun _ => hu.globalGeneration
    refine ⟨h.globalGeneration, h.globalStateGeneration, h.topologyGeneration, h.epoch,
      fun link entry hentry => ?_⟩
    obtain ⟨entry', hentry', hforward⟩ := h.entries link entry hentry
    exact ⟨entry', hentry', hforward.topologyGeneration, hforward.stateGeneration,
      hforward.evidenceGeneration, hforward.state,
      fun heq => hforward.evidence heq (hu.entries link entry hentry).1⟩
  · intro impl request request' ops expected hops hlink hexpected hexpected' hcommits hcommits'
    obtain ⟨entry, _, t', _, hpublished⟩ := publishEvidence_published hcommits
    obtain ⟨entry', _, _, _, hpublished'⟩ := publishEvidence_published hcommits'
    have hafter : (impl.apply (.publishEvidence request)).entryOf request.observation.key.link =
        some t'.entry := by
      show (impl.publishEvidence request).1.entryOf request.observation.key.link = some t'.entry
      rw [hpublished.impl_eq, commit_entryOf, if_pos rfl]
    obtain ⟨entry'', hentry'', hle, -⟩ := (le_foldl _ hops).entries _ _ hafter
    have hsame : entry' = entry'' := by
      have hbound := hpublished'.admitted.bound
      rw [← hlink, hentry''] at hbound
      exact (Option.some.inj hbound).symm
    -- Between the two publications the evidence generation has grown, and both expect the same.
    have hlt : expected < expected := by
      calc expected = entry.record.evidenceGeneration :=
            (hpublished.admitted.expected_eq hexpected).symm
        _ < t'.entry.record.evidenceGeneration := hpublished.evidence_lt
        _ ≤ entry''.record.evidenceGeneration := hle
        _ = expected := by rw [← hsame]; exact hpublished'.admitted.expected_eq hexpected'
    exact lt_irrefl _ hlt

namespace Sample

/-- The publication of the small run, for a link without evidence. -/
def firstPublication : PublishEvidenceRequest :=
  { observation, publication, expectedEvidenceGeneration := some .zero }

end Sample

/-- The first publication commits, and the same again does not. -/
theorem generations_forward_sample :
    Sample.registered.globalGeneration ≤ (Sample.registered.apply .reconcile).globalGeneration ∧
    ¬ ([Op.reconcile].foldl Impl.apply
      (Sample.registered.apply (.publishEvidence Sample.firstPublication))).Commits
        Sample.firstPublication :=
  ⟨(generations_forward.1 Sample.registered .reconcile (by decide) rfl).1,
    generations_forward.2 Sample.registered Sample.firstPublication Sample.firstPublication
      [.reconcile] .zero (by decide) rfl rfl rfl (by decide)⟩

end LinkState
