import LinkStateFabric.Engine.Sessions

/-!
# Degradation causes

* `Resolution.Paired`: a resolution names a cause exactly where it presents DEGRADED
  (`resolveLinkState_paired`). For evidence this follows from its validation; under an intent the
  cause is that of the intent.
* `LinkEntry.Paired` is kept by every turn of an operation that pairs its cause with its target,
  and by a load of records that pair theirs (`cause_iff_degraded`).
-/

namespace LinkState

open Sorting

/-! ## Causes and states -/

/-- The intent names a cause exactly if it is DEGRADED. -/
def AdministrativeIntent.Paired (intent : AdministrativeIntent) : Prop :=
  intent.cause ≠ .none ↔ intent.state = .degraded

/-- The record names a cause exactly if it is DEGRADED, and so does its intent. -/
structure LinkStateRecord.Paired (record : LinkStateRecord) : Prop where
  state : record.degradationCause ≠ .none ↔ record.state = .degraded
  intent : ∀ intent ∈ record.adminIntent, intent.Paired

/-- Evidence of an impairment names its cause. -/
def EvidenceRecord.Named (record : EvidenceRecord) : Prop :=
  record.claim = .degraded → record.degradationCause ≠ .none

theorem named_of_valid {observation : EvidenceRecord} {publication : PublicationId}
    (h : validateObservation observation publication = none) : observation.Named := by
  intro hclaim hcause
  unfold validateObservation at h
  rw [if_pos (⟨hclaim, hcause⟩ : observation.claim = .degraded ∧ _)] at h
  split_ifs at h

/-! ## Resolutions -/

namespace Resolution

/-- The resolution names a cause exactly if it presents DEGRADED. -/
def Paired (resolution : Resolution) : Prop :=
  resolution.cause ≠ .none ↔ resolution.state = .degraded

variable {r r' : Resolution} {tier decisive administrative : List EvidenceRecord}

theorem paired_of_none (hcause : r.cause = .none) (hstate : r.state ≠ .degraded) : r.Paired :=
  iff_of_false (fun h => h hcause) hstate

/-- The strongest cause is one that is named, if any record is DEGRADED. -/
theorem strongestCause_ne_none (hnamed : ∀ x ∈ tier, x.Named) :
    strongestCause tier ≠ .none ↔ ∃ x ∈ tier, x.claim = .degraded := by
  have hfold (l : List EvidenceRecord) (hl : ∀ x ∈ l, x.Named) (cause : DegradationCause) :
      l.foldl (fun cause record =>
        if record.claim ≠ .degraded then cause
        else if cause = .none ∨
            Codec.ByteEnum.index record.degradationCause < Codec.ByteEnum.index cause then
          record.degradationCause
        else cause) cause ≠ .none ↔ cause ≠ .none ∨ ∃ x ∈ l, x.claim = .degraded := by
    induction l generalizing cause with
    | nil => simp
    | cons x l ih =>
      have hx := hl x List.mem_cons_self
      rw [List.foldl_cons, ih fun y hy => hl y (List.mem_cons_of_mem _ hy)]
      simp only [List.mem_cons, exists_eq_or_imp]
      by_cases hclaim : x.claim = .degraded
      · rw [if_neg (not_not.mpr hclaim)]
        split
        · exact iff_of_true (.inl (hx hclaim)) (.inr (.inl hclaim))
        · rename_i hkept
          exact iff_of_true (.inl (not_or.mp hkept).1) (.inr (.inl hclaim))
      · rw [if_pos hclaim]
        simp [hclaim]
  exact (hfold tier hnamed .none).trans (or_iff_right (not_not.mpr rfl))

theorem byClaims_paired (h : r.byClaims tier = some r') (hne : tier ≠ [])
    (hnamed : ∀ x ∈ tier, x.Named) : r'.Paired := by
  unfold byClaims at h
  split at h
  · rename_i claim hone
    cases h
    have hclaim := (dedup_claims_eq hne).mp hone
    unfold Paired
    dsimp only [setState]
    by_cases hdegraded : claim = .degraded
    · rw [if_pos hdegraded, strongestCause_ne_none hnamed, hdegraded]
      obtain ⟨x, hx⟩ := List.exists_mem_of_ne_nil _ hne
      exact iff_of_true ⟨x, hx, (hclaim x hx).trans hdegraded⟩ rfl
    · rw [if_neg hdegraded]
      refine iff_of_false (fun h => h rfl) fun hstate => hdegraded ?_
      exact stateOf_classFor_inj hstate
  rename_i hmany
  split at h
  · rename_i hall
    cases h
    refine iff_of_true ((strongestCause_ne_none hnamed).mpr ?_) rfl
    -- Claims that are all operational, and none of them DEGRADED, would be one claim.
    by_contra hnone
    refine hmany .up ((dedup_claims_eq hne).mpr fun x hx => ?_)
    have hx' := List.all_eq_true.mp hall x.claim (List.mem_dedup.mpr (List.mem_map_of_mem hx))
    simp only [claimIsOperational, Bool.or_eq_true, decide_eq_true_eq] at hx'
    exact hx'.resolve_right fun hdegraded => hnone ⟨x, hx, hdegraded⟩
  split at h
  · rename_i hall
    cases h
    refine paired_of_none ?_ nofun
    by_contra hcause
    obtain ⟨x, hx, hdegraded⟩ := (strongestCause_ne_none hnamed).mp hcause
    have hx' := List.all_eq_true.mp hall x.claim (List.mem_dedup.mpr (List.mem_map_of_mem hx))
    rw [hdegraded] at hx'
    cases hx'
  · cases h

theorem crossCheckRemote_paired (h : r.Paired) (symmetry : LinkSymmetryGuarantee) :
    (r.crossCheckRemote decisive symmetry).Paired := by
  unfold crossCheckRemote
  dsimp only
  split
  · split
    · exact h
    split
    · exact iff_of_true nofun rfl
    · exact paired_of_none rfl nofun
  · exact h

theorem byDecisive_paired (hne : decisive ≠ []) (hnamed : ∀ x ∈ decisive, x.Named)
    (symmetry : LinkSymmetryGuarantee) :
    (r.byDecisive administrative decisive symmetry).Paired := by
  unfold byDecisive
  dsimp only
  split
  · unfold byAsymmetry
    dsimp only
    split
    · exact iff_of_true nofun rfl
    · exact paired_of_none rfl nofun
  split
  · exact paired_of_none rfl nofun
  · rename_i hclaims
    refine crossCheckRemote_paired (byClaims_paired hclaims (winningTier_ne_nil hne) ?_) symmetry
    exact fun x hx => hnamed x (mem_winningTier.mp hx).1

end Resolution

theorem resolveLinkState_paired {records : List EvidenceRecord} {record : LinkStateRecord}
    (hintent : ∀ intent ∈ record.adminIntent, intent.Paired) (hnamed : ∀ x ∈ records, x.Named) :
    (resolveLinkState records record).Paired := by
  unfold resolveLinkState resolveOrdered
  dsimp only
  split
  · rename_i intent hsome
    refine (hintent intent hsome).trans ?_
    show _ ↔ stateOf (classFor ((claimFromState intent.state).getD .adminDisabled)) = _
    cases intent.state <;> decide
  split
  · unfold Resolution.underRestriction
    dsimp only [Resolution.amend, Resolution.setState]
    refine Resolution.paired_of_none rfl ?_
    dsimp only
    split <;> decide
  split
  · unfold Resolution.withoutEvidence
    split <;> exact Resolution.paired_of_none rfl nofun
  · rename_i hsome
    refine Resolution.byDecisive_paired (fun hnil => hsome (List.isEmpty_iff.mpr hnil)) ?_ _
    exact fun x hx => hnamed x ((mem_sortBy _).mp (List.mem_filter.mp (List.mem_filter.mp hx).1).1)

/-! ## Entries -/

/-- The entry names a cause exactly if it is DEGRADED, and its evidence and intent allow no other
conclusion. -/
structure LinkEntry.Paired (entry : LinkEntry) : Prop where
  record : entry.record.Paired
  named : ∀ x ∈ entry.current, x.Named

/-- The operation pairs the cause that it brings: an explicit transition to another state than
DEGRADED brings none, and a journal holds records that pair theirs. -/
def Op.Paired : Op → Prop
  | .transitionState request => restrictive request.target = true →
      request.target ≠ .degraded → request.degradationCause = .none
  | .load config _ file => ∀ bytes ∈ file, ∀ payload summary,
      decodeJournal bytes config = .ok (payload, summary) →
        ∀ persisted ∈ payload.links, persisted.record.Paired
  | _ => True

theorem LinkEntry.New.paired {entry : LinkEntry} (h : entry.New) : entry.Paired where
  record :=
    { state := iff_of_false
        (fun hcause => hcause (congrArg Conclusion.cause h.conclusion))
        (by rw [h.state]; nofun)
      intent := by rw [h.intent]; exact fun _ hmem => by cases hmem }
  named := by rw [h.current]; exact fun _ hx => absurd hx List.not_mem_nil

section Turns

variable {op : Op} {link : LinkId} {t t' u : Edit}

/-- An intent that the operation records is paired, if the operation is. -/
theorem Groundwork.paired (h : Groundwork op link t u) (hop : op.Paired)
    (ht : ∀ intent ∈ t.entry.record.adminIntent, intent.Paired) :
    ∀ intent ∈ u.entry.record.adminIntent, intent.Paired := by
  intro intent hmem
  rcases h.intent with heq | ⟨-, hrecordable⟩
  · exact ht intent (heq ▸ hmem)
  rcases h.imposed intent hmem with hold | ⟨request, rfl, hstate, hcause⟩
  · exact ht intent hold
  have hrecordable := hrecordable intent hmem
  refine ⟨fun hne => ?_, hrecordable.cause⟩
  by_contra hstate'
  refine hne (hcause.trans (hop ?_ ?_))
  · rw [← hstate]
    exact hrecordable.restrictive
  · rwa [← hstate]

theorem Readied.named (h : Readied op link t u) (ht : ∀ x ∈ t.entry.current, x.Named) :
    ∀ x ∈ u.entry.current, x.Named := by
  rcases h.current with hsub | ⟨request, stored, hpublishes⟩
  · exact fun x hx => ht x (hsub hx)
  intro x hx
  rw [hpublishes.current, mem_sortBy] at hx
  rcases List.mem_append.mp hx with hx | hx
  · exact ht x (List.mem_filter.mp hx).1
  · obtain ⟨_, hadmitted⟩ := hpublishes.admitted
    obtain ⟨e, rfl⟩ := hpublishes.stored_eq
    rw [List.mem_singleton.mp hx]
    exact named_of_valid hadmitted.valid

/-- Every turn of a paired operation leaves a paired entry paired. -/
theorem Turn.paired (h : Turn op link t t') (hop : op.Paired) (ht : t.entry.Paired) :
    t'.entry.Paired := by
  cases h with
  | halt h =>
    refine ⟨⟨?_, h.toGroundwork.paired hop ht.record.intent⟩, fun x hx => ht.named x (h.current hx)⟩
    rw [h.degradationCause, h.state]
    exact ht.record.state
  | stall _ h =>
    refine ⟨⟨?_, by rw [h.intent]; exact ht.record.intent⟩,
      by rw [h.current]; exact fun _ hx => absurd hx List.not_mem_nil⟩
    rw [h.degradationCause, h.state]
    exact ht.record.state
  | retire _ h =>
    refine ⟨⟨?_, by rw [h.intent]; exact ht.record.intent⟩,
      by rw [h.current]; exact fun _ hx => absurd hx List.not_mem_nil⟩
    rw [h.degradationCause, h.state]
    decide
  | @resolve u h prepared publication publisher _ records hfits htarget hresolution _ hclaims =>
    have hintent := h.toGroundwork.paired hop ht.record.intent
    have hnamed := h.named ht.named
    have hrecords : ∀ x ∈ records, x.Named := by
      intro x hx
      obtain ⟨y, hy, hclaim, hcause⟩ := hclaims x hx
      have := hnamed y hy
      rwa [EvidenceRecord.Named, hclaim, hcause] at this
    -- The resolver pairs cause and state where its inputs do.
    have hpaired : prepared.resolution.cause ≠ .none ↔ prepared.resolution.state = .degraded := by
      have hcause : prepared.resolution.cause = (resolveLinkState records u.entry.record).cause :=
        congrArg Conclusion.cause hresolution
      have hstate : prepared.resolution.state = (resolveLinkState records u.entry.record).state :=
        congrArg Conclusion.state hresolution
      rw [hcause, hstate]
      exact resolveLinkState_paired hintent hrecords
    obtain ⟨hframe, hcommits⟩ := Edit.commitPrepared_spec hfits publication publisher
    refine ⟨⟨?_, ?_⟩, ?_⟩
    · show (u.commitPrepared prepared publication publisher).entry.record.degradationCause ≠ _ ↔ _
      rw [hcommits.degradationCause, hpaired, ← htarget, ← hcommits.state]
    · show ∀ intent ∈ (u.commitPrepared prepared publication publisher).entry.record.adminIntent, _
      rw [hframe.adminIntent]
      exact hintent
    · show ∀ x ∈ (u.commitPrepared prepared publication publisher).entry.current, _
      rw [hframe.current]
      exact hnamed

end Turns

/-- Recovery keeps the pairing of a record. -/
theorem recoveredEntry_paired (config : EngineConfig) {persisted : PersistedLink}
    (h : persisted.record.Paired) : (recoveredEntry config persisted).Paired := by
  unfold recoveredEntry
  split
  · exact ⟨⟨h.state, h.intent⟩, fun _ hx => absurd hx List.not_mem_nil⟩
  split
  · exact ⟨⟨h.state, h.intent⟩, fun _ hx => absurd hx List.not_mem_nil⟩
  · obtain ⟨_, -, heq⟩ := changedEntry_eq config persisted
    rw [heq]
    refine ⟨⟨?_, h.intent⟩, fun _ hx => absurd hx List.not_mem_nil⟩
    refine iff_of_false (fun hcause => hcause rfl) ?_
    show recoveredState _ ≠ _
    unfold recoveredState
    split <;> decide

/-! ## Runs -/

/-- Where every operation of a run pairs the causes that it brings, a link has a cause exactly
while it is DEGRADED. -/
theorem cause_iff_degraded {impl : Impl}
    (h : Runs.Run Impl.Fresh Impl.apply (fun _ op => op.Paired) impl) {link : LinkId}
    {entry : LinkEntry} (hentry : impl.entryOf link = some entry) :
    entry.record.degradationCause ≠ .none ↔ entry.record.state = .degraded := by
  have hpaired := @entries_of_run _ (fun _ => True) (fun _ => LinkEntry.Paired)
    (fun _ _ _ _ => trivial) (fun _ _ _ => trivial) (fun _ _ hnew => hnew.paired)
    (fun _ _ _ _ _ hop _ _ _ hturn ht => hturn.paired hop ht)
    (fun impl config steps bytes payload summary hop hdecode _ persisted hmem =>
      recoveredEntry_paired impl.config (hop bytes rfl payload summary hdecode persisted hmem)) _ h
  exact (hpaired link entry hentry).record.state

namespace Sample

/-- The link of the small run is taken down, with a cause that only an impairment has. -/
def causedDown : TransitionStateRequest :=
  { link, publication, publisher, workerBoot := boot, target := .down
    degradationCause := .unstableCarrier }

/-- The link of the small run is degraded. -/
def impaired : TransitionStateRequest := { causedDown with target := .degraded }

theorem paired_run : Runs.Run Impl.Fresh Impl.apply (fun _ op => op.Paired) engine :=
  @Runs.Run.foldl _ _ _ _ _ _ (.start ⟨{}, rfl⟩) ops ⟨trivial, trivial, trivial, trivial⟩

theorem impaired_run : Runs.Run Impl.Fresh Impl.apply (fun _ op => op.Paired)
    (engine.apply (.transitionState impaired)) :=
  have hop : Op.Paired (.transitionState impaired) := fun _ h => absurd rfl h
  .step _ paired_run hop

end Sample

theorem cause_iff_degraded_sample : ∃ entry,
    (Sample.engine.apply (.transitionState Sample.impaired)).entryOf Sample.link = some entry ∧
    (entry.record.degradationCause ≠ .none ↔ entry.record.state = .degraded) :=
  have hbound : ((Sample.engine.apply (.transitionState Sample.impaired)).entryOf
      Sample.link).isSome = true := by decide
  ⟨_, (Option.some_get hbound).symm,
    cause_iff_degraded Sample.impaired_run (Option.some_get hbound).symm⟩

/-- A link that is DOWN on request has the cause of the request. -/
theorem down_with_cause : (Sample.engine.apply (.transitionState Sample.causedDown)).Reachable ∧
    ((Sample.engine.apply (.transitionState Sample.causedDown)).entryOf Sample.link).map
      (fun entry => (entry.record.state, entry.record.degradationCause)) =
        some (.down, .unstableCarrier) :=
  ⟨.step _ Sample.reachable trivial, by decide⟩

end LinkState
