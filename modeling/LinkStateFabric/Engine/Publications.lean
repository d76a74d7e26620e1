import LinkStateFabric.Engine.Outcomes
import LinkStateFabric.Engine.Turns

/-!
# Committed publications

* `Impl.Commits`: a publication that stores a record. It was admitted, and its two counters have
  advanced (`publishEvidence_published`).
* `Published`: everything that such a publication leaves of the link and of the engine.
-/

namespace LinkState

open Sorting

/-- The publication stores a new record. -/
def Impl.Commits (impl : Impl) (request : PublishEvidenceRequest) : Prop :=
  (impl.publishEvidence request).2.outcome.code = .committed ∨
    (impl.publishEvidence request).2.outcome.code = .evidenceConflict

instance (impl : Impl) (request : PublishEvidenceRequest) : Decidable (impl.Commits request) :=
  inferInstanceAs (Decidable (_ ∨ _))

/-- What a committed publication leaves: the link has the entry of `t'`, with the record `stored`. -/
structure Published (impl : Impl) (request : PublishEvidenceRequest) (entry : LinkEntry)
    (prepared : PreparedCommit) (t' : Edit) (stored : EvidenceRecord) : Prop where
  admitted : Admitted impl request entry prepared
  impl_eq : (impl.publishEvidence request).1 = t'.commit request.observation.key.link
  frame : EditFrame ⟨impl, entry⟩ t'
  stored_eq : ∃ e : Edit, stored = e.storedRecord request.observation
  current : t'.entry.current = sortBy evidenceLess
    (entry.current.filter (!supersedes request.observation ·) ++ [stored])
  dispositions : t'.entry.dispositions = (Edit.dropEvidence ⟨impl, entry⟩
    (explainPublication request.observation)).entry.dispositions
  binding : t'.entry.record.binding = entry.record.binding
  adminIntent : t'.entry.record.adminIntent = entry.record.adminIntent
  global : t'.impl.globalGeneration.value = impl.globalGeneration.value + 1
  evidence : t'.entry.record.evidenceGeneration.value = entry.record.evidenceGeneration.value + 1
  conclusion : t'.entry.conclusion = prepared.resolution.conclusion
  provenance : t'.entry.record.provenanceDigest = digestEvidenceSet t'.entry.current
  unchanged : prepared.stateChanged = false →
    t'.entry.record.everEstablished = entry.record.everEstablished ∧
    t'.entry.record.stateGeneration = entry.record.stateGeneration ∧
    t'.impl.globalStateGeneration = impl.globalStateGeneration
  changed : prepared.stateChanged = true →
    t'.entry.record.everEstablished = (entry.record.everEstablished ||
      (prepared.targetState ≠ .unknown && prepared.targetState ≠ .revalidationRequired)) ∧
    entry.record.stateGeneration.next = some t'.entry.record.stateGeneration ∧
    impl.globalStateGeneration.next = some t'.impl.globalStateGeneration

section Publish

variable {impl : Impl} {request : PublishEvidenceRequest} {entry : LinkEntry}
  {prepared : PreparedCommit} {u : Edit}

/-- An admitted publication whose counters advance is committed. -/
theorem published_of_counted (h : Admitted impl request entry prepared)
    (heq : impl.publishEvidence request = Edit.publish ⟨impl, entry⟩ request prepared)
    (hc : (Edit.dropEvidence ⟨impl, entry⟩ (explainPublication request.observation)).advanceAll
      [.global, .evidence] = (u, true)) :
    (∃ t' stored, Published impl request entry prepared t' stored) ∧
    (impl.publishEvidence request).2.outcome.code =
      if prepared.resolution.conflicted then .evidenceConflict else .committed := by
  have hresult : impl.publishEvidence request =
      (((u.accept request.observation).commitPrepared prepared request.publication
        request.observation.publisher).commit request.observation.key.link,
        publicationResult prepared ((u.accept request.observation).commitPrepared prepared
          request.publication request.observation.publisher).entry) := by
    rw [heq]
    unfold Edit.publish
    dsimp only
    rw [hc]
  refine ⟨⟨(u.accept request.observation).commitPrepared prepared request.publication
    request.observation.publisher, u.stampGlobal.storedRecord request.observation, ?_⟩, ?_⟩
  · obtain ⟨hframe, hcommits⟩ := Edit.commitPrepared_spec (h.fits_accept hc) request.publication
      request.observation.publisher
    -- What comes before the commit moves the counters and the evidence, and nothing that it reads.
    have hground : Groundwork (.publishEvidence request) request.observation.key.link
        ⟨impl, entry⟩ (u.accept request.observation) :=
      (((Groundwork.refl _).drop _).count (by decide) (by decide) hc).accept request.observation
    obtain ⟨_, _, haccept⟩ := Groundwork.noteAcceptance_eq
      (u.stampGlobal.storeEvidence request.observation).impl request.observation.publisher
    have haccepted : (u.accept request.observation).impl.globalGeneration =
        u.impl.globalGeneration := by
      unfold Edit.accept
      dsimp only
      rw [haccept]
      rfl
    have hbinding : u.entry.record.binding = entry.record.binding ∧
        u.entry.record.adminIntent = entry.record.adminIntent := by
      obtain ⟨_, _, hdropped, -⟩ :=
        Edit.dropEvidence_eq ⟨impl, entry⟩ (explainPublication request.observation)
      obtain ⟨_, _, _, _, hcounted⟩ := Edit.advanceAll_withCounters [.global, .evidence]
        (Edit.dropEvidence ⟨impl, entry⟩ (explainPublication request.observation))
      rw [hc, hdropped] at hcounted
      subst hcounted
      exact ⟨rfl, rfl⟩
    -- The records that the observation supersedes are those that were dropped.
    have hleft : u.entry.current = entry.current.filter (!supersedes request.observation ·) := by
      obtain ⟨_, _, _, _, hcounted⟩ := Edit.advanceAll_withCounters [.global, .evidence]
        (Edit.dropEvidence ⟨impl, entry⟩ (explainPublication request.observation))
      rw [hc] at hcounted
      subst hcounted
      exact List.filter_congr fun r _ => explainPublication_isNone request.observation r
    have hexplained : u.entry.dispositions = (Edit.dropEvidence ⟨impl, entry⟩
        (explainPublication request.observation)).entry.dispositions := by
      obtain ⟨_, _, _, _, hcounted⟩ := Edit.advanceAll_withCounters [.global, .evidence]
        (Edit.dropEvidence ⟨impl, entry⟩ (explainPublication request.observation))
      rw [hc] at hcounted
      subst hcounted
      rfl
    have hcount (c : Counter) := (Edit.advanceAll_count hc c).trans
      (congrArg (· + _) (sameCounts_drop ⟨impl, entry⟩ _ c))
    refine ⟨h, congrArg Prod.fst hresult, hground.frame.trans (.commitPrepared (h.fits_accept hc) _ _),
      ⟨_, rfl⟩, ?_, hframe.dispositions.trans hexplained, ?_, ?_, ?_, ?_, ?_, ?_, fun hsame => ?_, fun hchanged => ?_⟩
    · rw [hframe.current, ← hleft]
      rfl
    · rw [hframe.binding]
      exact hbinding.1
    · rw [hframe.adminIntent]
      exact hbinding.2
    · rw [hframe.globalGeneration, haccepted]
      exact hcount .global
    · rw [hframe.evidenceGeneration]
      exact hcount .evidence
    -- The commit writes down what the resolution of the prospective evidence concludes.
    · have htarget : prepared.targetState = prepared.resolution.state := by
        rw [h.prepared_eq, prepareCommit_target, prepareCommit_resolution]
      simp only [LinkEntry.conclusion, Resolution.conclusion, hcommits.state, htarget,
        hcommits.resultClass, hcommits.degradationCause, hcommits.conflicted,
        hcommits.syntheticBacked]
    · rw [hcommits.provenanceDigest, hframe.current]
    · obtain ⟨hever, hstate, hglobal⟩ := hcommits.unchanged hsame
      exact ⟨hever.trans hground.everEstablished, hstate.trans hground.stateGeneration,
        hglobal.trans hground.globalState⟩
    · obtain ⟨hever, hstate, hglobal⟩ := hcommits.changed hchanged
      rw [hground.everEstablished] at hever
      rw [hground.stateGeneration] at hstate
      rw [hground.globalState] at hglobal
      exact ⟨hever, hstate, hglobal⟩
  · rw [hresult]
    unfold publicationResult
    split <;> rfl

/-- A publication that is committed has been admitted. -/
theorem publishEvidence_published (h : impl.Commits request) :
    ∃ entry prepared t' stored, Published impl request entry prepared t' stored := by
  have hno {code : OutcomeCode} (hcode : (impl.publishEvidence request).2.outcome.code = code)
      (hc : code ≠ .committed) (hc' : code ≠ .evidenceConflict) : False :=
    h.elim (fun h => hc (hcode.symm.trans h)) fun h => hc' (hcode.symm.trans h)
  rcases publishEvidence_outcome impl request with hdeclined | ⟨_, -, -, hcode⟩ |
    ⟨entry, prepared, hadmitted, heq⟩
  · exact (h.elim (hdeclined.code_ne rfl) (hdeclined.code_ne rfl)).elim
  · exact (hno hcode nofun nofun).elim
  · rcases hc : (Edit.dropEvidence ⟨impl, entry⟩
      (explainPublication request.observation)).advanceAll [.global, .evidence] with ⟨u, b⟩
    cases b with
    | false =>
      refine (@hno .resourceLimit ?_ nofun nofun).elim
      rw [heq]
      unfold Edit.publish
      dsimp only
      rw [hc]
      rfl
    | true =>
      obtain ⟨⟨t', stored, hpublished⟩, -⟩ := published_of_counted hadmitted heq hc
      exact ⟨entry, prepared, t', stored, hpublished⟩

/-- A publication that passes every check is admitted. -/
theorem Admitted.admit_eq (h : Admitted impl request entry prepared) :
    impl.admit request = .admitted entry prepared := by
  have hfresh : (findSlot entry request.observation.key).elim .fresh
      (judgeSlot · request.observation) = .fresh := by
    cases hslot : findSlot entry request.observation.key with
    | none => rfl
    | some slot => exact h.slot slot hslot
  unfold Impl.admit
  dsimp only
  rw [h.valid, h.bound]
  dsimp only
  rw [h.refusal_eq, hfresh]
  dsimp only
  rw [h.capacity]
  dsimp only
  rw [← h.prepared_eq, if_neg (by simp [h.prepared_ok])]

theorem Admitted.publish_eq (h : Admitted impl request entry prepared) :
    impl.publishEvidence request = Edit.publish ⟨impl, entry⟩ request prepared := by
  unfold Impl.publishEvidence
  rw [h.admit_eq]

/-- An admitted publication commits when neither of its counters is exhausted. -/
theorem Admitted.commits (h : Admitted impl request entry prepared)
    (hglobal : ¬ Edit.Spent ⟨impl, entry⟩ .global)
    (hevidence : ¬ Edit.Spent ⟨impl, entry⟩ .evidence) :
    impl.Commits request ∧ ∃ t' stored, Published impl request entry prepared t' stored := by
  have hcount := sameCounts_drop ⟨impl, entry⟩ (explainPublication request.observation)
  obtain ⟨u, hc⟩ := @Edit.advanceAll_of_not_spent
    (Edit.dropEvidence ⟨impl, entry⟩ (explainPublication request.observation))
    [.global, .evidence] (by decide) fun c hc => by
      unfold Edit.Spent
      rw [hcount c]
      rcases List.mem_pair.mp hc with rfl | rfl
      · exact hglobal
      · exact hevidence
  obtain ⟨hpublished, hcode⟩ := published_of_counted h h.publish_eq hc
  refine ⟨?_, hpublished⟩
  unfold Impl.Commits
  rw [hcode]
  split
  · exact .inr rfl
  · exact .inl rfl

end Publish

end LinkState
