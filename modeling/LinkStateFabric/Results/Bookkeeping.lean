import LinkStateFabric.Engine.Publications
import LinkStateFabric.Results.Requests
import LinkStateFabric.Results.Tiers

/-!
# The bookkeeping of a caller

* `Bookkeeping`: the fields of an observation that the engine fills in itself when it stores it.
* What a resolution concludes depends on the records that count (`conclusion_congr`), so that the
  status of an observation decides whether it takes part in the resolution of its publication
  (`conclusion_noted`). The other fields are never read.
* `bookkeeping_iff`: two requests that differ in the bookkeeping end alike exactly if both are
  marked as current, or neither is, or it makes no difference to the link whether the observation
  counts (`Impl.Indifferent`).
-/

namespace LinkState

open Sorting

/-! ## Records that count -/

namespace Resolution

variable {r : Resolution} {administrative decisive : List EvidenceRecord}

theorem crossCheckRemote_syntheticBacked (symmetry : LinkSymmetryGuarantee) :
    (r.crossCheckRemote decisive symmetry).syntheticBacked = r.syntheticBacked := by
  unfold crossCheckRemote
  dsimp only
  split
  · split
    · rfl
    split
    · exact congrArg (·.syntheticBacked) (foldl_noteConflict ..)
    · exact congrArg (·.syntheticBacked) (foldl_noteConflict ..)
  · rfl

/-- Whether a conclusion is backed by synthetic evidence lies in the strongest tier and in the
administrative records. -/
theorem byDecisive_syntheticBacked (r : Resolution) (symmetry : LinkSymmetryGuarantee) :
    (r.byDecisive administrative decisive symmetry).syntheticBacked =
      ((winningTier decisive).any (·.evidenceClass = EvidenceClass.synthetic) ||
        administrative.any (·.evidenceClass = EvidenceClass.synthetic)) := by
  unfold byDecisive
  dsimp only
  split
  · unfold byAsymmetry
    dsimp only
    split <;> rfl
  split
  · exact congrArg (·.syntheticBacked) (foldl_noteConflict ..)
  · rename_i resolution hclaims
    rw [crossCheckRemote_syntheticBacked]
    unfold byClaims at hclaims
    split at hclaims
    · cases hclaims
      rfl
    split at hclaims
    · cases hclaims
      rfl
    split at hclaims <;> cases hclaims
    rfl

theorem byDecisive_conclusion {r' : Resolution} (h : r.Agrees r')
    (symmetry : LinkSymmetryGuarantee) :
    (r.byDecisive administrative decisive symmetry).conclusion =
      (r'.byDecisive administrative decisive symmetry).conclusion := by
  have hagrees : (r.byDecisive administrative decisive symmetry).Agrees
      (r'.byDecisive administrative decisive symmetry) := byDecisive_agrees h symmetry rfl rfl rfl
  unfold conclusion
  rw [byDecisive_syntheticBacked, byDecisive_syntheticBacked, hagrees.state, hagrees.resultClass,
    hagrees.cause, hagrees.conflicted]

end Resolution

/-- What is concluded lies in the records that count. -/
theorem conclusion_congr {ordered ordered' : List EvidenceRecord} (record : LinkStateRecord)
    (h : ordered.filter (fun candidate => (classify candidate).counted) =
      ordered'.filter fun candidate => (classify candidate).counted) :
    (resolveOrdered ordered record).conclusion = (resolveOrdered ordered' record).conclusion := by
  unfold resolveOrdered
  rw [h]
  split
  · rfl
  dsimp only
  split
  · unfold Resolution.underRestriction
    dsimp only
    split <;> rfl
  have henabled (l : List EvidenceRecord) : (Resolution.underEnablement
      { dispositions := l.map classify } ((ordered'.filter fun candidate =>
        (classify candidate).counted).filter (·.key.kind = .administrativeState))).Agrees {} := by
    unfold Resolution.underEnablement
    split <;> exact ⟨rfl, rfl, rfl, rfl⟩
  split
  · unfold Resolution.withoutEvidence Resolution.underEnablement
    split <;> split <;> rfl
  · exact Resolution.byDecisive_conclusion ((henabled ordered).trans (henabled ordered').symm) _

/-- A record that does not count makes no difference. -/
theorem conclusion_uncounted (records : List EvidenceRecord) {record : EvidenceRecord}
    (h : ¬ record.Counted) (link : LinkStateRecord) :
    (resolveLinkState (records ++ [record]) link).conclusion =
      (resolveLinkState records link).conclusion := by
  refine conclusion_congr link ?_
  rw [ranks_evidenceLess.filter_sortBy, ranks_evidenceLess.filter_sortBy, List.filter_append,
    List.filter_singleton, Bool.eq_false_iff.mpr (mt counted_iff.mp h), cond_false, List.append_nil]

/-! ## Bookkeeping -/

/-- The fields of a record that the engine assigns on commit. -/
structure Bookkeeping where
  status : EvidenceStatus
  evidenceGeneration : EvidenceGeneration
  commitSequence : GlobalGeneration
  recordDigest : Digest

/-- The record as a caller fills it in. -/
def EvidenceRecord.noted (record : EvidenceRecord) (b : Bookkeeping) : EvidenceRecord :=
  { record with
    status := b.status
    evidenceGeneration := b.evidenceGeneration
    commitSequence := b.commitSequence
    recordDigest := b.recordDigest }

def PublishEvidenceRequest.noted (request : PublishEvidenceRequest) (b : Bookkeeping) :
    PublishEvidenceRequest :=
  { request with observation := request.observation.noted b }

/-- What the link is to conclude if the observation counts as current evidence. -/
def LinkEntry.concludesWith (entry : LinkEntry) (observation : EvidenceRecord) : Conclusion :=
  (resolveLinkState (prospectiveWith entry observation.observed) entry.record).conclusion

/-- What the link is to conclude from the evidence that the observation leaves alone. -/
def LinkEntry.concludesWithout (entry : LinkEntry) (observation : EvidenceRecord) : Conclusion :=
  (resolveLinkState (entry.current.filter (!supersedes observation ·)) entry.record).conclusion

/-- The bookkeeping decides whether the observation counts, and nothing else. -/
theorem conclusion_noted (entry : LinkEntry) (observation : EvidenceRecord) (b : Bookkeeping) :
    (resolveLinkState (prospectiveWith entry (observation.noted b)) entry.record).conclusion =
      if b.status = .current then entry.concludesWith observation
      else entry.concludesWithout observation := by
  split
  · rename_i hstatus
    have hstrip : (observation.noted b).strip = observation.observed.strip := by
      unfold EvidenceRecord.noted EvidenceRecord.observed EvidenceRecord.strip
      rw [hstatus]
    unfold LinkEntry.concludesWith prospectiveWith
    rw [← resolveLinkState_strip, ← resolveLinkState_strip (_ ++ [observation.observed]),
      List.map_append, List.map_append, List.map_singleton, List.map_singleton, hstrip]
    rfl
  · rename_i hstatus
    exact conclusion_uncounted _ (fun hcounted => hstatus hcounted.1) _

/-! ## Requests that are resolved -/

/-- The request passes every check before its observation is resolved. -/
structure Impl.Examines (impl : Impl) (request : PublishEvidenceRequest) (entry : LinkEntry) :
    Prop where
  valid : validateObservation request.observation request.publication = none
  bound : impl.entryOf request.observation.key.link = some entry
  passed : impl.refusal entry request = none
  fresh : (findSlot entry request.observation.key).elim .fresh (judgeSlot · request.observation) =
    .fresh
  capacity : checkCapacity impl.config entry request.observation = none

/-- The conclusion is of another state, and a state generation is exhausted. -/
def Impl.Stuck (impl : Impl) (entry : LinkEntry) (conclusion : Conclusion) : Prop :=
  entry.record.state ≠ conclusion.state ∧
    (entry.record.stateGeneration.saturated = true ∨ impl.globalStateGeneration.saturated = true)

/-- A generation that a publication advances is exhausted. -/
def Impl.Exhausted (impl : Impl) (entry : LinkEntry) : Prop :=
  impl.globalGeneration.saturated = true ∨ entry.record.evidenceGeneration.saturated = true

/-- A publication with one conclusion ends as one with the other. -/
def Impl.EndsAlike (impl : Impl) (entry : LinkEntry) (c c' : Conclusion) : Prop :=
  (impl.Stuck entry c ↔ impl.Stuck entry c') ∧
    (c = c' ∨ impl.Stuck entry c ∨ impl.Exhausted entry)

/-- It makes no difference to the link whether the observation counts. -/
def Impl.Indifferent (impl : Impl) (request : PublishEvidenceRequest) : Prop :=
  ∀ entry, impl.Examines request entry → impl.EndsAlike entry
    (entry.concludesWith request.observation) (entry.concludesWithout request.observation)

section Requests

variable {impl : Impl} {request : PublishEvidenceRequest} {entry : LinkEntry}

theorem Impl.EndsAlike.refl (c : Conclusion) : impl.EndsAlike entry c c := ⟨Iff.rfl, .inl rfl⟩

theorem Impl.EndsAlike.symm {c c' : Conclusion} (h : impl.EndsAlike entry c c') :
    impl.EndsAlike entry c' c :=
  ⟨h.1.symm, h.2.imp Eq.symm (Or.imp_left h.1.mp)⟩

theorem Impl.Examines.noted (h : impl.Examines request entry) (b : Bookkeeping) :
    impl.Examines (request.noted b) entry :=
  ⟨h.valid, h.bound, h.passed, h.fresh, h.capacity⟩

theorem Impl.Examines.live (h : impl.Examines request entry) : entry.record.state ≠ .retired := by
  have hpassed := h.passed
  simp only [Impl.refusal, Option.orElse_eq_none, Option.map_eq_none_iff] at hpassed
  intro hretired
  have hlive := hpassed.1
  rw [checkLive, if_pos hretired] at hlive
  cases hlive

theorem Impl.Examines.admitted (h : impl.Examines request entry)
    (hok : (prepareCommit impl entry (prospectiveWith entry request.observation)
      .evidenceResolution).ok = true) : Admitted impl request entry
      (prepareCommit impl entry (prospectiveWith entry request.observation) .evidenceResolution) := by
  have hpassed := h.passed
  simp only [Impl.refusal, Option.orElse_eq_none, Option.map_eq_none_iff] at hpassed
  obtain ⟨-, hauth, hback, htopology, hendpoint, hevidence, hstate, hidentity⟩ := hpassed
  refine ⟨h.valid, h.bound, h.live, hauth, hback, htopology, hendpoint, hevidence, hstate,
    hidentity, fun slot hslot => ?_, h.capacity, rfl, hok⟩
  have hfresh := h.fresh
  rw [hslot] at hfresh
  exact hfresh

/-- A request that does not come so far is answered alike, whatever its bookkeeping is. -/
theorem publishEvidence_unexamined (h : ∀ entry, ¬ impl.Examines request entry) (b : Bookkeeping) :
    impl.publishEvidence (request.noted b) = impl.publishEvidence request := by
  have hvalid : validateObservation (request.noted b).observation (request.noted b).publication =
      validateObservation request.observation request.publication := rfl
  have hbound : impl.entryOf (request.noted b).observation.key.link =
      impl.entryOf request.observation.key.link := rfl
  have hpassed (entry : LinkEntry) : impl.refusal entry (request.noted b) =
      impl.refusal entry request := rfl
  have hfresh (entry : LinkEntry) : (findSlot entry (request.noted b).observation.key).elim .fresh
      (judgeSlot · (request.noted b).observation) =
      (findSlot entry request.observation.key).elim .fresh (judgeSlot · request.observation) := rfl
  have hcapacity (entry : LinkEntry) :
      checkCapacity impl.config entry (request.noted b).observation =
        checkCapacity impl.config entry request.observation := rfl
  -- No check before the resolution reads what is noted about a record.
  have hsame : impl.admit (request.noted b) = impl.admit request := by
    unfold Impl.admit
    dsimp only
    rw [hvalid, hbound]
    split
    · rfl
    rename_i hvalid
    split
    · rfl
    rename_i entry hbound
    rw [hpassed]
    split
    · rfl
    rename_i hpassed
    rw [hfresh]
    split
    · rfl
    · rfl
    rename_i hfresh
    rw [hcapacity]
    split
    · rfl
    rename_i hcapacity
    exact absurd ⟨hvalid, hbound, hpassed, hfresh, hcapacity⟩ (h entry)
  have hnone : ∀ entry prepared, impl.admit request ≠ .admitted entry prepared := by
    intro entry prepared heq
    have hadmitted := admitted_of_admit heq
    refine h entry ⟨hadmitted.valid, hadmitted.bound, hadmitted.refusal_eq, ?_, hadmitted.capacity⟩
    cases hslot : findSlot entry request.observation.key with
    | none => rfl
    | some slot => exact hadmitted.slot slot hslot
  unfold Impl.publishEvidence
  rw [hsame]
  cases hcase : impl.admit request with
  | admitted entry prepared => exact absurd hcase (hnone entry prepared)
  | _ => rfl

/-! ## Commits -/

/-- A trigger under which evidence is resolved may enter any state that a resolution concludes. -/
theorem effectiveTrigger_resolved (records : List EvidenceRecord) (record : LinkStateRecord) :
    effectiveTrigger (resolveLinkState records record).resultClass .evidenceResolution ∈
      inboundTriggers (resolveLinkState records record).state := by
  have hsound := resolveLinkState_sound records record
  rw [hsound.1]
  exact effectiveTrigger_mem hsound.2 (by decide)

theorem prepareCommit_stuck {records : List EvidenceRecord} (hlive : entry.record.state ≠ .retired)
    (hstuck : impl.Stuck entry (resolveLinkState records entry.record).conclusion) :
    (prepareCommit impl entry records .evidenceResolution).ok = false ∧
    (prepareCommit impl entry records .evidenceResolution).code = .resourceLimit ∧
    (prepareCommit impl entry records .evidenceResolution).detail =
      lit "state generation counter is exhausted" := by
  have hne : entry.record.state ≠ (resolveLinkState records entry.record).state := hstuck.1
  unfold prepareCommit
  dsimp only
  rw [if_neg hlive, evaluateTransition_of_mem hlive (effectiveTrigger_resolved records entry.record),
    if_neg hne]
  dsimp only
  rw [if_pos (by simpa [StrongGeneration.next_eq_none] using hstuck.2)]
  exact ⟨rfl, rfl, rfl⟩

/-- The answer to a request that a state generation stands in the way of. -/
theorem publishEvidence_stuck (h : impl.Examines request entry)
    (hstuck : impl.Stuck entry (resolveLinkState (prospectiveWith entry request.observation)
      entry.record).conclusion) :
    impl.publishEvidence request = (impl.noteRejection request.observation.publisher,
      failed .resourceLimit (lit "state generation counter is exhausted")) := by
  obtain ⟨hok, hcode, hdetail⟩ := prepareCommit_stuck h.live hstuck
  unfold Impl.publishEvidence Impl.admit
  dsimp only
  rw [h.valid, h.bound]
  dsimp only
  rw [h.passed, h.fresh]
  dsimp only
  rw [h.capacity]
  dsimp only
  rw [hok, hcode, hdetail]
  rfl

theorem admitted_of_not_stuck (h : impl.Examines request entry)
    (hfree : ¬ impl.Stuck entry (resolveLinkState (prospectiveWith entry request.observation)
      entry.record).conclusion) : Admitted impl request entry
      (prepareCommit impl entry (prospectiveWith entry request.observation) .evidenceResolution) := by
  refine h.admitted ((prepareCommit_ok_iff h.live (effectiveTrigger_resolved _ _)).mpr ?_)
  by_cases hsame : entry.record.state = (resolveLinkState
      (prospectiveWith entry request.observation) entry.record).state
  · exact .inl hsame
  · have hroom := not_or.mp fun hspent => hfree ⟨hsame, hspent⟩
    exact .inr ⟨mt StrongGeneration.next_eq_none.mp hroom.1,
      mt StrongGeneration.next_eq_none.mp hroom.2⟩

/-- A prepared commit without the explanation of its resolution. -/
def PreparedCommit.bare (prepared : PreparedCommit) : PreparedCommit :=
  { prepared with
    resolution := { prepared.resolution with rules := [], conflicts := [], dispositions := [] } }

/-- Nobody reads the explanation of a commit. -/
theorem publish_congr (t : Edit) (request : PublishEvidenceRequest) {p p' : PreparedCommit}
    (h : p.bare = p'.bare) : Edit.publish t request p = Edit.publish t request p' := by
  have hbare (p : PreparedCommit) : Edit.publish t request p = Edit.publish t request p.bare := rfl
  rw [hbare p, h, ← hbare p']

theorem prepareCommit_bare {records records' : List EvidenceRecord}
    (h : (resolveLinkState records entry.record).conclusion =
      (resolveLinkState records' entry.record).conclusion) (trigger : TransitionTrigger) :
    (prepareCommit impl entry records trigger).bare =
      (prepareCommit impl entry records' trigger).bare := by
  simp only [Resolution.conclusion, Conclusion.mk.injEq] at h
  obtain ⟨hstate, hclass, hcause, hconflicted, hsynthetic⟩ := h
  unfold prepareCommit PreparedCommit.bare
  dsimp only
  rw [hstate, hclass]
  split
  · simp only [hstate, hclass, hcause, hconflicted, hsynthetic]
  split
  · simp only [hstate, hclass, hcause, hconflicted, hsynthetic]
  · split <;> simp only [hstate, hclass, hcause, hconflicted, hsynthetic]
  all_goals simp only [hstate, hclass, hcause, hconflicted, hsynthetic]

/-- A publication whose counters are exhausted ends before its commit is looked at. -/
theorem publish_exhausted (h : impl.Exhausted entry) (request : PublishEvidenceRequest)
    (prepared prepared' : PreparedCommit) :
    Edit.publish ⟨impl, entry⟩ request prepared = Edit.publish ⟨impl, entry⟩ request prepared' ∧
      (Edit.publish ⟨impl, entry⟩ request prepared).2 =
        failed .resourceLimit (lit "generation counter is exhausted") := by
  have hcount := sameCounts_drop ⟨impl, entry⟩ (explainPublication request.observation)
  have hspent : ¬ ∀ c ∈ [Counter.global, .evidence], ¬ (Edit.dropEvidence ⟨impl, entry⟩
      (explainPublication request.observation)).Spent c := by
    intro hfree
    rcases h with hglobal | hevidence
    · exact hfree .global (by decide) ((hcount .global).trans (Edit.spent_global.mpr hglobal))
    · exact hfree .evidence (by decide) ((hcount .evidence).trans (Edit.spent_evidence.mpr hevidence))
  rw [← Edit.advanceAll_snd (by decide)] at hspent
  rcases hc : (Edit.dropEvidence ⟨impl, entry⟩ (explainPublication request.observation)).advanceAll
    [.global, .evidence] with ⟨u, b⟩
  rw [hc] at hspent
  obtain rfl : b = false := by simpa using hspent
  unfold Edit.publish
  dsimp only
  rw [hc]
  exact ⟨rfl, rfl⟩

/-- An admitted request is not answered as one that a state generation stands in the way of. -/
theorem outcome_of_admitted {prepared : PreparedCommit}
    (h : Admitted impl request entry prepared) :
    (impl.publishEvidence request).2.outcome.code = .resourceLimit →
      (impl.publishEvidence request).2.outcome.detail ≠
        lit "state generation counter is exhausted" := by
  by_cases hexhausted : impl.Exhausted entry
  · rw [h.publish_eq, (publish_exhausted hexhausted request prepared prepared).2]
    decide
  · obtain ⟨hglobal, hevidence⟩ := not_or.mp hexhausted
    obtain ⟨hcommits, -⟩ := h.commits (mt Edit.spent_global.mp hglobal)
      (mt Edit.spent_evidence.mp hevidence)
    intro heq
    rcases hcommits with hcode | hcode <;>
    · rw [heq] at hcode
      cases hcode

/-- Two requests have left the same engine, and the same code and text of the outcome. -/
structure Impl.AnswersAlike (impl : Impl) (request request' : PublishEvidenceRequest) : Prop where
  engine : (impl.publishEvidence request).1 = (impl.publishEvidence request').1
  code : (impl.publishEvidence request).2.outcome.code =
    (impl.publishEvidence request').2.outcome.code
  detail : (impl.publishEvidence request).2.outcome.detail =
    (impl.publishEvidence request').2.outcome.detail

theorem Impl.AnswersAlike.symm {request request' : PublishEvidenceRequest}
    (h : impl.AnswersAlike request request') : impl.AnswersAlike request' request :=
  ⟨h.engine.symm, h.code.symm, h.detail.symm⟩

theorem Impl.AnswersAlike.stuck (h : impl.Examines request entry) {b b' : Bookkeeping}
    (hsame : impl.AnswersAlike (request.noted b) (request.noted b'))
    (hstuck : impl.Stuck entry (resolveLinkState (prospectiveWith entry
      (request.noted b).observation) entry.record).conclusion) :
    impl.Stuck entry (resolveLinkState (prospectiveWith entry (request.noted b').observation)
      entry.record).conclusion := by
  by_contra hfree
  have hanswer := publishEvidence_stuck (h.noted b) hstuck
  refine outcome_of_admitted (admitted_of_not_stuck (h.noted b') hfree) ?_ ?_
  · rw [← hsame.code, hanswer]
    rfl
  · rw [← hsame.detail, hanswer]
    rfl

/-- Where both are resolved, requests that are answered alike have conclusions that end alike. -/
theorem Impl.AnswersAlike.endsAlike (h : impl.Examines request entry) {b b' : Bookkeeping}
    (hsame : impl.AnswersAlike (request.noted b) (request.noted b')) :
    impl.EndsAlike entry
      (resolveLinkState (prospectiveWith entry (request.noted b).observation)
        entry.record).conclusion
      (resolveLinkState (prospectiveWith entry (request.noted b').observation)
        entry.record).conclusion := by
  refine ⟨⟨hsame.stuck h, hsame.symm.stuck h⟩, ?_⟩
  by_contra hnone
  obtain ⟨hne, hfree, hroom⟩ : _ ∧ _ ∧ _ := by simpa only [not_or] using hnone
  obtain ⟨hglobal, hevidence⟩ := not_or.mp hroom
  -- Both commit, so that the entry that is left shows what each of them concludes.
  have hpublished (b : Bookkeeping) (hfree : ¬ impl.Stuck entry (resolveLinkState
      (prospectiveWith entry (request.noted b).observation) entry.record).conclusion) :
      ∃ e, (impl.publishEvidence (request.noted b)).1.entryOf request.observation.key.link =
        some e ∧ e.conclusion = (resolveLinkState (prospectiveWith entry
          (request.noted b).observation) entry.record).conclusion := by
    have hadmitted := admitted_of_not_stuck (h.noted b) hfree
    obtain ⟨-, t, _, hpublished⟩ := hadmitted.commits (mt Edit.spent_global.mp hglobal)
      (mt Edit.spent_evidence.mp hevidence)
    refine ⟨t.entry, ?_, hpublished.conclusion.trans (by rw [prepareCommit_resolution])⟩
    rw [hpublished.impl_eq, commit_entryOf]
    exact if_pos rfl
  obtain ⟨e, he, hconclusion⟩ := hpublished b hfree
  obtain ⟨e', he', hconclusion'⟩ := hpublished b' fun hs => hfree (hsame.symm.stuck h hs)
  rw [hsame.engine, he'] at he
  cases he
  exact hne (hconclusion.symm.trans hconclusion')

/-- Where both are resolved, requests end alike exactly if their conclusions do. -/
theorem publishEvidence_ends (h : impl.Examines request entry) (b b' : Bookkeeping) :
    impl.publishEvidence (request.noted b) = impl.publishEvidence (request.noted b') ↔
      impl.EndsAlike entry
        (resolveLinkState (prospectiveWith entry (request.noted b).observation)
          entry.record).conclusion
        (resolveLinkState (prospectiveWith entry (request.noted b').observation)
          entry.record).conclusion := by
  constructor
  · intro heq
    have hsame : impl.AnswersAlike (request.noted b) (request.noted b') := by
      constructor <;> rw [heq]
    exact hsame.endsAlike h
  · rintro ⟨hiff, hsame⟩
    by_cases hs : impl.Stuck entry (resolveLinkState (prospectiveWith entry
        (request.noted b).observation) entry.record).conclusion
    · rw [publishEvidence_stuck (h.noted b) hs, publishEvidence_stuck (h.noted b') (hiff.mp hs)]
      rfl
    · have hnoted (b : Bookkeeping) (prepared : PreparedCommit) :
          Edit.publish ⟨impl, entry⟩ (request.noted b) prepared =
            Edit.publish ⟨impl, entry⟩ request prepared := rfl
      rw [(admitted_of_not_stuck (h.noted b) hs).publish_eq,
        (admitted_of_not_stuck (h.noted b') (mt hiff.mpr hs)).publish_eq, hnoted b, hnoted b']
      rcases hsame with hsame | hsame | hexhausted
      · exact publish_congr _ request (prepareCommit_bare hsame _)
      · exact absurd hsame hs
      · exact (publish_exhausted hexhausted request _ _).1

end Requests

/-- What requests conclude that differ in the bookkeeping ends alike exactly if both are marked as
current, or neither is, or it makes no difference whether the observation counts. -/
theorem endsAlike_iff {impl : Impl} {request : PublishEvidenceRequest} {entry : LinkEntry}
    (h : impl.Examines request entry) (b b' : Bookkeeping) :
    impl.EndsAlike entry
      (resolveLinkState (prospectiveWith entry (request.noted b).observation)
        entry.record).conclusion
      (resolveLinkState (prospectiveWith entry (request.noted b').observation)
        entry.record).conclusion ↔
      (b.status = .current ↔ b'.status = .current) ∨ impl.Indifferent request := by
  have hindifferent : impl.Indifferent request ↔ impl.EndsAlike entry
      (entry.concludesWith request.observation) (entry.concludesWithout request.observation) := by
    refine ⟨fun hall => hall entry h, fun hends entry' h' => ?_⟩
    obtain rfl : entry = entry' := Option.some.inj (h.bound.symm.trans h'.bound)
    exact hends
  rw [hindifferent]
  unfold PublishEvidenceRequest.noted
  rw [conclusion_noted, conclusion_noted]
  by_cases hb : b.status = .current <;> by_cases hb' : b'.status = .current
  · simp [hb, hb', Impl.EndsAlike.refl]
  · simp [hb, hb']
  · rw [if_neg hb, if_pos hb']
    simp only [hb, hb', false_iff, not_true, false_or]
    exact ⟨.symm, .symm⟩
  · simp [hb, hb', Impl.EndsAlike.refl]

/-- Requests that differ in the bookkeeping of their observation end alike exactly if both are marked
as current, or neither is, or it makes no difference whether the observation counts. -/
theorem bookkeeping_iff (impl : Impl) (request : PublishEvidenceRequest) (b b' : Bookkeeping) :
    impl.publishEvidence (request.noted b) = impl.publishEvidence (request.noted b') ↔
      (b.status = .current ↔ b'.status = .current) ∨ impl.Indifferent request := by
  by_cases hexamined : ∃ entry, impl.Examines request entry
  · obtain ⟨entry, hexamines⟩ := hexamined
    rw [publishEvidence_ends hexamines, endsAlike_iff hexamines]
  · have hnone := not_exists.mp hexamined
    refine iff_of_true ?_ (.inr fun entry h => absurd h (hnone entry))
    rw [publishEvidence_unexamined hnone b, publishEvidence_unexamined hnone b']

/-- The observation of the small run, marked as current and as withdrawn: the link comes up for the
first only. -/
theorem bookkeeping_matters : Sample.registered.Reachable ∧
    Sample.registered.publishEvidence (Sample.publish.noted ⟨.current, .zero, .zero, .zero⟩) ≠
      Sample.registered.publishEvidence (Sample.publish.noted ⟨.withdrawn, .zero, .zero, .zero⟩) := by
  refine ⟨Sample.registered_reachable, fun heq => ?_⟩
  have houtcome := congrArg (fun p : Impl × LinkMutationResult => p.2.outcome) heq
  exact absurd houtcome (by decide +kernel)

end LinkState
