import LinkStateFabric.Results.Coherence
import LinkStateFabric.Results.Intent
import LinkStateFabric.Results.Tiers

/-!
# Disabling a link and enabling it again

An intent hides what the evidence of a link resolves to. Lifting it resolves the same evidence once
more, for a link that has established a state by then (`resolveLinkState_lifted`): only a link of
which nothing was known ends in another state than before (`transition_round_trip`).
-/

namespace LinkState

/-! ## The resolution after an intent -/

section Resolution

variable {records : List EvidenceRecord} {record record' : LinkStateRecord}

/-- Once a state is established, evidence resolves to what it has resolved to before, or there is
nothing decisive: the link waits for evidence, where it was unknown. -/
theorem resolveLinkState_lifted (hintent : record.adminIntent = none)
    (hintent' : record'.adminIntent = none)
    (hsymmetry : record'.binding.symmetry = record.binding.symmetry)
    (hever : record'.everEstablished = true) :
    resolveLinkState records record' = resolveLinkState records record ∨
    (resolveLinkState records record).conclusion =
        ⟨.unknown, .authoritativeUnknown, .none, false, false⟩ ∧
      (resolveLinkState records record').conclusion =
        ⟨.revalidationRequired, .revalidationRequired, .none, false, false⟩ := by
  cases hrestriction : restrictionOf records with
  | some claim =>
    left
    rw [resolveLinkState_gated hintent hrestriction, resolveLinkState_gated hintent' hrestriction]
  | none =>
    rw [resolveLinkState_observed hintent hrestriction,
      resolveLinkState_observed hintent' hrestriction, hsymmetry, hever]
    dsimp only
    split
    · cases record.everEstablished with
      | true => exact .inl rfl
      | false =>
        right
        unfold Resolution.underEnablement
        constructor <;> split <;> rfl
    · exact .inl rfl

end Resolution

/-! ## Changes of intent -/

/-- What a change of intent leaves of an entry. -/
structure LinkEntry.Redirected (entry entry' : LinkEntry) (prepared : PreparedCommit) : Prop where
  current : entry'.current = entry.current
  binding : entry'.record.binding = entry.record.binding
  evidenceGeneration : entry'.record.evidenceGeneration = entry.record.evidenceGeneration
  provenance : entry'.record.provenanceDigest = digestEvidenceSet entry.current
  conclusion : entry'.conclusion = prepared.resolution.conclusion

theorem changeIntent_redirected {t : Edit} {intent : Option AdministrativeIntent}
    {request : TransitionStateRequest} {prepared : PreparedCommit} {detail : Text}
    (hfits : prepared.Fits t) (htarget : prepared.targetState = prepared.resolution.state)
    (h : (t.changeIntent intent request prepared detail).2.outcome.code = .committed) :
    ∃ entry', (t.changeIntent intent request prepared detail).1.entryOf request.link = some entry' ∧
      t.entry.Redirected entry' prepared ∧
      (entry'.record.adminIntent = none ↔ intent = none) := by
  obtain ⟨u, hu, hfits', hchanged⟩ := changeIntent_committed hfits h
  dsimp only at hfits' hchanged
  obtain ⟨hframe, hcommits⟩ :=
    Edit.commitPrepared_spec hfits' request.publication request.publisher
  generalize Edit.commitPrepared _ prepared request.publication request.publisher = v at *
  have hcurrent : v.entry.current = t.entry.current :=
    hframe.current.trans (congrArg (·.current) hu)
  refine ⟨v.entry, ?_, ⟨hcurrent, ?_, ?_, ?_, ?_⟩, ?_⟩
  · rw [hchanged]
    exact (commit_entryOf ..).trans (if_pos rfl)
  · exact hframe.binding.trans (congrArg (·.record.binding) hu)
  · exact hframe.evidenceGeneration.trans (congrArg (·.record.evidenceGeneration) hu)
  · rw [hcommits.provenanceDigest, ← hframe.current, hcurrent]
  · simp only [LinkEntry.conclusion, Resolution.conclusion, hcommits.state, htarget,
      hcommits.resultClass, hcommits.degradationCause, hcommits.conflicted, hcommits.syntheticBacked]
  · rw [hframe.adminIntent]
    exact Option.map_eq_none_iff

section Transitions

variable {impl : Impl} {request : TransitionStateRequest}

/-- What a transition that restricts a link has left of its entry. -/
theorem imposed_of_committed (hr : restrictive request.target = true)
    (hcode : (impl.transitionState request).2.outcome.code = .committed) :
    ∃ entry entry' prepared, impl.entryOf request.link = some entry ∧
      entry.record.state ≠ .retired ∧
      (impl.transitionState request).1.entryOf request.link = some entry' ∧
      entry.Redirected entry' prepared := by
  obtain hdeclined | ⟨_, _, h, -⟩ | ⟨entry, prepared, h, heq⟩ := transitionState_outcome impl request
  · exact absurd hcode (hdeclined.code_ne rfl)
  · rw [h.target] at hr
    cases hr
  · have htarget : prepared.targetState = prepared.resolution.state := by
      rw [h.prepared_eq, prepareCommit_target, prepareCommit_resolution]
    rw [heq] at hcode ⊢
    obtain ⟨entry', hentry', hredirected, -⟩ := changeIntent_redirected h.fits htarget hcode
    exact ⟨entry, entry', prepared, h.bound, h.live, hentry', hredirected⟩

/-- What a transition to UP has left of the entry of a link: its evidence, resolved without the
intent. -/
theorem lifted_of_committed {entry : LinkEntry} (hentry : impl.entryOf request.link = some entry)
    (hup : request.target = .up)
    (hcode : (impl.transitionState request).2.outcome.code = .committed) :
    ∃ entry', (impl.transitionState request).1.entryOf request.link = some entry' ∧
      entry'.current = entry.current ∧
      entry'.record.evidenceGeneration = entry.record.evidenceGeneration ∧
      entry'.record.adminIntent = none ∧
      entry'.record.provenanceDigest = digestEvidenceSet entry.current ∧
      entry'.conclusion = (resolveLinkState entry.current
        { entry.record with adminIntent := none }).conclusion := by
  obtain hdeclined | ⟨entry₀, prepared, h, heq⟩ | ⟨_, _, h, -⟩ := transitionState_outcome impl request
  · exact absurd hcode (hdeclined.code_ne rfl)
  · obtain rfl : entry₀ = entry := Option.some.inj (h.bound.symm.trans hentry)
    have hfits : prepared.Fits ⟨impl, { entry₀ with record.adminIntent := none }⟩ := by
      rw [h.prepared_eq]
      exact (prepareCommit_ok (h.prepared_eq ▸ h.prepared_ok)).1
    have htarget : prepared.targetState = prepared.resolution.state := by
      rw [h.prepared_eq, prepareCommit_target, prepareCommit_resolution]
    rw [heq] at hcode ⊢
    obtain ⟨entry', hentry', hredirected, hintent⟩ := changeIntent_redirected hfits htarget hcode
    refine ⟨entry', hentry', hredirected.current, hredirected.evidenceGeneration, hintent.mpr rfl,
      hredirected.provenance, ?_⟩
    rw [hredirected.conclusion, h.prepared_eq, prepareCommit_resolution]
  · have hr := h.target
    rw [hup] at hr
    cases hr

end Transitions

/-! ## The round trip -/

/-- Disabling a link and enabling it again leaves its evidence as it is, and its record says of the
evidence what it has said before. A link of which nothing was known is the exception: it has
established a state by then, and waits for evidence. -/
theorem transition_round_trip {impl : Impl} (h : impl.OrdinarilyReachable) (hu : impl.Unsaturated)
    {disable enable : TransitionStateRequest} {entry : LinkEntry}
    (hentry : impl.entryOf disable.link = some entry) (hintent : entry.record.adminIntent = none)
    (hr : restrictive disable.target = true)
    (hdisable : (impl.transitionState disable).2.outcome.code = .committed)
    (hlink : enable.link = disable.link) (hup : enable.target = .up)
    (henable :
      ((impl.transitionState disable).1.transitionState enable).2.outcome.code = .committed) :
    ∃ entry', ((impl.transitionState disable).1.transitionState enable).1.entryOf disable.link =
        some entry' ∧
      entry'.current = entry.current ∧
      entry'.record.evidenceGeneration = entry.record.evidenceGeneration ∧
      entry'.record.adminIntent = none ∧
      entry'.record.degradationCause = entry.record.degradationCause ∧
      entry'.conflicted = entry.conflicted ∧
      entry'.syntheticBacked = entry.syntheticBacked ∧
      entry'.record.provenanceDigest = entry.record.provenanceDigest ∧
      (entry.record.state ≠ .unknown → entry'.record.state = entry.record.state ∧
        entry'.record.resultClass = entry.record.resultClass) ∧
      (entry.record.state = .unknown → entry'.record.state = .revalidationRequired) := by
  have hmarked : impl.Marked := Impl.Reachable.marked (h.mono fun _ _ _ => trivial)
  obtain ⟨_, entry₁, prepared, hentry₀, hlive, hentry₁, hredirected⟩ :=
    imposed_of_committed hr hdisable
  obtain rfl := Option.some.inj (hentry.symm.trans hentry₀)
  obtain ⟨_, hentry₂, hheld, -⟩ := transitionState_committed hmarked hdisable hr
  obtain rfl := Option.some.inj (hentry₁.symm.trans hentry₂)
  obtain ⟨entry', hentry', hcurrent, hgeneration, hnone, hprovenance, hconclusion⟩ :=
    lifted_of_committed (hlink ▸ hentry₁) hup henable
  have hcoherent := h.settled hu disable.link entry hentry hlive
  rw [hredirected.current] at hcurrent hprovenance hconclusion
  -- The intent has established the link, so that a link without evidence waits for it now.
  have hcases : entry'.conclusion = entry.conclusion ∨
      entry.conclusion = ⟨.unknown, .authoritativeUnknown, .none, false, false⟩ ∧
        entry'.conclusion = ⟨.revalidationRequired, .revalidationRequired, .none, false, false⟩ := by
    rw [hconclusion, hcoherent.conclusion]
    have hlifted := @resolveLinkState_lifted entry.current _
      { entry₁.record with adminIntent := none } hintent rfl
      (congrArg (·.symmetry) hredirected.binding) hheld.everEstablished
    exact hlifted.imp_left (congrArg Resolution.conclusion)
  have hsame {α : Type} (f : Conclusion → α)
      (hf : f ⟨.revalidationRequired, .revalidationRequired, .none, false, false⟩ =
        f ⟨.unknown, .authoritativeUnknown, .none, false, false⟩) :
      f entry'.conclusion = f entry.conclusion := by
    obtain h | ⟨h, h'⟩ := hcases
    · rw [h]
    · rw [h, h', hf]
  refine ⟨entry', hlink ▸ hentry', hcurrent, hgeneration.trans hredirected.evidenceGeneration, hnone,
    hsame (·.cause) rfl, hsame (·.conflicted) rfl, hsame (·.syntheticBacked) rfl,
    hprovenance.trans hcoherent.provenance.symm, fun hknown => ?_, fun hunknown => ?_⟩
  · have h := hcases.resolve_right fun h => hknown (congrArg Conclusion.state h.1)
    exact ⟨congrArg Conclusion.state h, congrArg Conclusion.resultClass h⟩
  · have hstate : (resolveLinkState entry.current entry.record).state = .unknown :=
      (congrArg Conclusion.state hcoherent.conclusion).symm.trans hunknown
    have hidle := (of_resolveLinkState_unknown hintent hstate).2
    calc entry'.record.state
        _ = (resolveLinkState entry.current { entry₁.record with adminIntent := none }).state :=
          congrArg Conclusion.state hconclusion
        _ = if entry₁.record.everEstablished then .revalidationRequired else .unknown :=
          resolveLinkState_idle rfl hidle
        _ = .revalidationRequired := if_pos hheld.everEstablished

namespace Sample

/-- The intent on the link is lifted. -/
def enable : TransitionStateRequest := { disable with target := .up }

/-- The engine of the small run, after the link is disabled. -/
def afterDisable : Impl := (engine.transitionState disable).1

end Sample

/-- The link of the small run is disabled, and enabled again: it is up as before. -/
theorem transition_round_trip_sample : ∃ entry entry',
    Sample.engine.entryOf Sample.link = some entry ∧
    (Sample.afterDisable.transitionState Sample.enable).1.entryOf Sample.link = some entry' ∧
    entry.record.state = .up ∧ entry'.record.state = entry.record.state ∧
    entry'.current = entry.current := by
  have hreachable : Sample.engine.OrdinarilyReachable :=
    Runs.Run.foldl (.start ⟨{}, rfl⟩) ⟨trivial, trivial, rfl, trivial⟩
  have hsome : (Sample.engine.entryOf Sample.link).isSome = true := by decide
  obtain ⟨entry, hentry⟩ := Option.isSome_iff_exists.mp hsome
  have hstate : ∀ e ∈ Sample.engine.entryOf Sample.link,
      e.record.state = .up ∧ e.record.adminIntent = none := by decide
  obtain ⟨hup, hintent⟩ := hstate entry hentry
  obtain ⟨entry', hentry', hcurrent, -, -, -, -, -, -, hsame, -⟩ :=
    @transition_round_trip _ hreachable (by decide) Sample.disable Sample.enable _ hentry hintent
      rfl (by decide) rfl rfl (by decide +kernel)
  exact ⟨entry, entry', hentry, hentry', hup, (hsame (by rw [hup]; decide)).1, hcurrent⟩

end LinkState
