import LinkStateFabric.Engine.Frames

/-!
# What a commit concludes

* `LinkEntry.Coherent`: an entry has the conclusion of resolving its current evidence, and the
  digest of that evidence. A resolution reads the record that it is written to, so this is a fixed
  point (`commitPrepared_coherent`).
* A recomputation is never refused by the state machine (`recomputeLink_ne_invalidTransition`).
-/

namespace LinkState

open Sorting

/-! ## Conclusions -/

/-- What a resolution concludes, without its explanation. -/
structure Conclusion where
  state : LinkOperationalState
  resultClass : StateResultClass
  cause : DegradationCause
  conflicted : Bool
  syntheticBacked : Bool

def Resolution.conclusion (resolution : Resolution) : Conclusion where
  state := resolution.state
  resultClass := resolution.resultClass
  cause := resolution.cause
  conflicted := resolution.conflicted
  syntheticBacked := resolution.syntheticBacked

/-- What an entry has recorded. -/
def LinkEntry.conclusion (entry : LinkEntry) : Conclusion where
  state := entry.record.state
  resultClass := entry.record.resultClass
  cause := entry.record.degradationCause
  conflicted := entry.conflicted
  syntheticBacked := entry.syntheticBacked

/-- The entry has recorded what its evidence resolves to. -/
structure LinkEntry.Coherent (entry : LinkEntry) : Prop where
  conclusion : entry.conclusion = (resolveLinkState entry.current entry.record).conclusion
  provenance : entry.record.provenanceDigest = digestEvidenceSet entry.current

/-- The state of a restrictive intent is presented as it is. -/
theorem resolveLinkState_underIntent {records : List EvidenceRecord} {record : LinkStateRecord}
    {intent : AdministrativeIntent} (h : record.adminIntent = some intent)
    (hr : restrictive intent.state = true) :
    (resolveLinkState records record).state = intent.state := by
  have hstate : stateOf (classFor ((claimFromState intent.state).getD .adminDisabled)) =
      intent.state := by
    revert hr
    cases intent.state <;> first | exact fun _ => rfl | nofun
  unfold resolveLinkState resolveOrdered
  rw [h]
  exact hstate

theorem ne_of_restrictive {state : LinkOperationalState} (h : restrictive state = true) :
    state ≠ .unknown ∧ state ≠ .revalidationRequired := by
  revert h
  cases state <;> decide

/-- Under an intent, the conclusion is that of the intent. -/
theorem conclusion_underIntent {records records' : List EvidenceRecord}
    {record record' : LinkStateRecord} {intent intent' : AdministrativeIntent}
    (h : record.adminIntent = some intent) (h' : record'.adminIntent = some intent')
    (hstate : intent'.state = intent.state) (hcause : intent'.cause = intent.cause) :
    (resolveLinkState records record).conclusion = (resolveLinkState records' record').conclusion := by
  unfold resolveLinkState resolveOrdered
  rw [h, h']
  simp only [Resolution.conclusion, Resolution.underIntent, Resolution.amend, Resolution.setState,
    Resolution.pushRule, hstate, hcause]

/-- A link of which nothing is known has no evidence to know anything from. -/
theorem LinkEntry.Coherent.of_new {entry : LinkEntry} (hcurrent : entry.current = [])
    (hintent : entry.record.adminIntent = none) (hever : entry.record.everEstablished = false)
    (hconclusion : entry.conclusion = ⟨.unknown, .authoritativeUnknown, .none, false, false⟩)
    (hprovenance : entry.record.provenanceDigest = digestEvidenceSet []) : entry.Coherent := by
  refine ⟨?_, by rw [hprovenance, hcurrent]⟩
  rw [hconclusion, hcurrent]
  unfold resolveLinkState resolveOrdered
  rw [hintent, hever]
  rfl

/-! ## Commits -/

section Commit

variable {t : Edit} {link : LinkId}

/-- A commit of the conclusion for an entry makes the entry coherent. -/
theorem commitPrepared_coherent {prepared : PreparedCommit} (hfits : prepared.Fits t)
    (htarget : prepared.targetState = prepared.resolution.state)
    (h : prepared.resolution.conclusion =
      (resolveLinkState t.entry.current t.entry.record).conclusion)
    (publication : PublicationId) (publisher : PublisherId) :
    (t.commitPrepared prepared publication publisher).entry.Coherent := by
  obtain ⟨hframe, hcommits⟩ := Edit.commitPrepared_spec hfits publication publisher
  have hstate : prepared.resolution.state = (resolveLinkState t.entry.current t.entry.record).state :=
    congrArg Conclusion.state h
  have hsame : resolveLinkState t.entry.current
      (t.commitPrepared prepared publication publisher).entry.record =
      resolveLinkState t.entry.current t.entry.record := by
    have hsymmetry := congrArg (·.symmetry) hframe.binding
    by_cases hopen : prepared.targetState = .unknown ∨ prepared.targetState = .revalidationRequired
    · -- the state was not established by this commit
      refine resolveLinkState_congr _ hframe.adminIntent ?_ hsymmetry
      cases hc : prepared.stateChanged with
      | false => exact (hcommits.unchanged hc).1
      | true =>
        rw [(hcommits.changed hc).1]
        rcases hopen with hopen | hopen <;> simp [hopen]
    · obtain ⟨hu, hr⟩ := not_or.mp hopen
      rw [htarget, hstate] at hu hr
      exact resolveLinkState_establish _ hframe.adminIntent hsymmetry hu hr
  refine ⟨?_, ?_⟩
  · rw [hframe.current, hsame, ← h]
    simp only [LinkEntry.conclusion, Resolution.conclusion, hcommits.state, htarget,
      hcommits.resultClass, hcommits.degradationCause, hcommits.conflicted, hcommits.syntheticBacked]
  · rw [hcommits.provenanceDigest, hframe.current]

theorem explainWithdrawal_isNone (request : WithdrawEvidenceRequest) (record : EvidenceRecord) :
    (explainWithdrawal request record).isNone = decide (record.key ≠ request.key) := by
  unfold explainWithdrawal
  split <;> simp [*]

theorem explainRevalidation_isNone (request : MarkRevalidationRequest) (record : EvidenceRecord) :
    (explainRevalidation request record).isNone = decide (record.publisher ≠ request.publisher) := by
  unfold explainRevalidation
  split <;> simp [*]

theorem releaseLink_entry (t : Edit) (publisher : PublisherId) (link : LinkId) :
    (t.releaseLink publisher link).entry = t.entry := by
  unfold Edit.releaseLink
  split <;> rfl

/-- An accepted observation is resolved as it was when its commit was prepared. -/
theorem resolve_accept {impl : Impl} {entry : LinkEntry} {observation : EvidenceRecord}
    (hcurrent : observation.status = .current) (hnodup : (entry.current.map (·.key)).Nodup)
    (hcount : (Edit.dropEvidence ⟨impl, entry⟩ (explainPublication observation)).Advances t) :
    resolveLinkState (prospectiveWith entry observation) entry.record =
      resolveLinkState (t.accept observation).entry.current (t.accept observation).entry.record := by
  have hkeys : ((prospectiveWith entry observation).map (·.key)).Nodup := by
    unfold prospectiveWith
    rw [List.map_append, List.nodup_append]
    refine ⟨hnodup.sublist (List.filter_sublist.map _), by simp, fun a ha b hb => ?_⟩
    obtain ⟨record, hrecord, rfl⟩ := List.mem_map.mp ha
    obtain rfl : b = observation.key := by simpa using hb
    have := (List.mem_filter.mp hrecord).2
    intro hkey
    simp [supersedes, hkey] at this
  have hfilter : entry.current.filter (fun r => (explainPublication observation r).isNone) =
      entry.current.filter (!supersedes observation ·) :=
    List.filter_congr fun r _ => explainPublication_isNone observation r
  obtain ⟨_, _, hdrop, -⟩ := Edit.dropEvidence_eq ⟨impl, entry⟩ (explainPublication observation)
  obtain ⟨g, gs, e, s, rfl, -⟩ := hcount.counters
  rw [hdrop, hfilter, resolveLinkState_eq_of_perm ?_ hkeys]
  · exact (resolveLinkState_congr _ rfl rfl rfl).symm
  · refine List.Perm.trans (.of_eq ?_) ((Sorting.sortBy_perm _ _).map _).symm
    unfold prospectiveWith
    rw [List.map_append, List.map_append]
    refine congrArg _ (congrArg (fun r => [r]) ?_)
    unfold EvidenceRecord.strip Edit.storedRecord
    rw [hcurrent]

/-- The state machine never refuses a recomputation. -/
theorem recomputeLink_ne_invalidTransition (t : Edit) {trigger : TransitionTrigger}
    (ht : trigger ∈ inboundTriggers .revalidationRequired) (publication : PublicationId)
    (publisher : PublisherId) :
    (t.recomputeLink trigger publication publisher).2.1 ≠ .invalidTransition := by
  unfold Edit.recomputeLink
  dsimp only
  split
  · exact nofun
  rename_i hok
  by_cases hretired : t.entry.record.state = .retired
  · unfold prepareCommit
    dsimp only
    rw [if_pos hretired]
    exact nofun
  have hsound := resolveLinkState_sound t.entry.current t.entry.record
  have hmem := effectiveTrigger_mem hsound.2 ht
  rw [← hsound.1] at hmem
  have hok := (prepareCommit_of_mem hretired hmem).resolve_left hok
  rw [hok.1]
  exact nofun

end Commit

end LinkState
