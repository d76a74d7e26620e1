import LinkStateFabric.Engine.Dispositions
import LinkStateFabric.Results.Replay

/-!
# No evidence disappears without an explanation

Every operation that takes records out of the current evidence of a link pushes one disposition for
each of them, and none for a record that stays (`evidence_explained`). A publication adds a record
besides, which is none of those that were there (`Admitted.stored_new`).
-/

namespace LinkState

section Publish

variable {impl : Impl} {request : PublishEvidenceRequest} {entry : LinkEntry}
  {prepared : PreparedCommit}

/-- The record that a publication stores was not there before. -/
theorem Admitted.stored_new (h : Admitted impl request entry prepared)
    (hnodup : (entry.current.map (·.key)).Nodup) (t : Edit) :
    t.storedRecord request.observation ∉ entry.current := by
  intro hmem
  have hslot := h.slot (t.storedRecord request.observation) (findSlot_of_mem hnodup hmem)
  rw [judgeSlot_storedRecord] at hslot
  cases hslot

/-- A publication accounts for what it supersedes. -/
theorem publishEvidence_accounts (request : PublishEvidenceRequest) (hindexed : Indexed impl)
    (htrimmed : impl.Trimmed) (link : LinkId) :
    ∃ kept, Ring.Accounts EvidenceDisposition.Explains impl.config.maxHistoryPerLink
        (impl.currentEvidence link) (impl.dispositions link) kept
        ((impl.publishEvidence request).1.dispositions link) ∧
      ∀ record ∈ impl.currentEvidence link,
        record ∈ (impl.publishEvidence request).1.currentEvidence link ↔ record ∈ kept := by
  have hsteps {impl' : Impl} (h : Steps (fun _ => False) impl impl') : ∃ kept,
      Ring.Accounts EvidenceDisposition.Explains impl.config.maxHistoryPerLink
        (impl.currentEvidence link) (impl.dispositions link) kept (impl'.dispositions link) ∧
      ∀ record ∈ impl.currentEvidence link, record ∈ impl'.currentEvidence link ↔ record ∈ kept :=
    ⟨_, (h.trimmed_accounts htrimmed).2 id link, fun _ _ => Iff.rfl⟩
  -- Only a publication that is accepted stores a record; every other end is a chain of steps.
  rcases publishEvidence_outcome impl request with hdeclined | ⟨_, -, heq, -⟩ |
    ⟨entry, prepared, hadmitted, heq⟩
  · rcases hdeclined.impl with heq | ⟨publisher, heq⟩ <;> rw [heq]
    · exact hsteps .refl
    · exact hsteps (noteRejection_change impl publisher link).steps
  · rw [heq]
    exact hsteps .refl
  rcases hc : (Edit.dropEvidence ⟨impl, entry⟩
    (explainPublication request.observation)).advanceAll [.global, .evidence] with ⟨u, b⟩
  cases b with
  | false =>
    have hstopped : (impl.publishEvidence request).1 = u.commit request.observation.key.link := by
      rw [heq]
      unfold Edit.publish
      dsimp only
      rw [hc]
    rw [hstopped]
    exact hsteps (.single (.edit hadmitted.bound
      (dropEvidence_steps (explainPublication_final _) (by decide) hc)))
  | true =>
    obtain ⟨⟨t', stored, hpublished⟩, -⟩ := published_of_counted hadmitted heq hc
    rw [hpublished.impl_eq]
    by_cases hl : link = request.observation.key.link
    · subst hl
      have hentry := htrimmed _ entry hadmitted.bound
      have haccounts := @LinkEntry.Accounts.dropEvidence ⟨impl, entry⟩ hentry _
        (explainPublication_final request.observation)
      refine ⟨(Edit.dropEvidence ⟨impl, entry⟩
        (explainPublication request.observation)).entry.current, ?_, fun record hrecord => ?_⟩
      · rw [Impl.currentEvidence_eq hadmitted.bound, dispositions_commit, if_pos rfl,
          hpublished.dispositions, Impl.dispositions, hadmitted.bound]
        exact haccounts
      · rw [Impl.currentEvidence_eq hadmitted.bound] at hrecord
        rw [currentEvidence_commit, if_pos rfl, hpublished.current, Sorting.mem_sortBy,
          List.mem_append, List.mem_singleton, Edit.dropEvidence_current,
          List.filter_congr fun r _ => explainPublication_isNone request.observation r]
        refine or_iff_left ?_
        rintro rfl
        obtain ⟨e, hstored⟩ := hpublished.stored_eq
        rw [hstored] at hrecord
        exact hadmitted.stored_new (hindexed.slotted _ entry hadmitted.bound).nodup e hrecord
    · refine ⟨impl.currentEvidence link, ?_, fun record _ => ?_⟩
      · rw [dispositions_commit, if_neg hl]
        unfold Impl.dispositions
        rw [hpublished.frame.entryOf]
        exact .refl _ (htrimmed.length_dispositions link)
      · rw [currentEvidence_commit, if_neg hl, hpublished.frame.currentEvidence]

end Publish

/-- The records that an operation takes out of the current evidence of a link are in one-to-one
correspondence with the dispositions that it puts in front of those that are retained, as many as
the configuration admits. Each says of its record that it is not current any more. -/
theorem evidence_explained {impl : Impl} (h : impl.Reachable) {op : Op} (hload : op.isLoad = false)
    (link : LinkId) : ∃ pushed left, List.Forall₂ EvidenceDisposition.Explains pushed left ∧
      left.Perm
        ((impl.currentEvidence link).filter (· ∉ (impl.apply op).currentEvidence link)) ∧
      (impl.apply op).dispositions link =
        (pushed ++ impl.dispositions link).take impl.config.maxHistoryPerLink := by
  have hindexed := Impl.Reachable.indexed h
  have htrimmed := Impl.Reachable.trimmed h
  have hnodup : (impl.currentEvidence link).Nodup := by
    unfold Impl.currentEvidence
    cases hentry : impl.entryOf link with
    | none => exact List.nodup_nil
    | some entry => exact (hindexed.slotted link entry hentry).nodup.of_map
  obtain ⟨kept, haccounts, hsame⟩ : ∃ kept,
      Ring.Accounts EvidenceDisposition.Explains impl.config.maxHistoryPerLink
        (impl.currentEvidence link) (impl.dispositions link) kept
        ((impl.apply op).dispositions link) ∧
      ∀ record ∈ impl.currentEvidence link,
        record ∈ (impl.apply op).currentEvidence link ↔ record ∈ kept := by
    have hsteps := apply_steps impl hload
    by_cases hp : op.kinds .publish
    · cases op with
      | publishEvidence request => exact publishEvidence_accounts request hindexed htrimmed link
      | load => cases hload
      | _ => simp [Op.kinds] at hp
    · exact ⟨_, (hsteps.trimmed_accounts htrimmed).2 hp link, fun _ _ => Iff.rfl⟩
  exact haccounts.exists_left hnodup hsame

/-- A withdrawal of the record of the small run. -/
theorem evidence_explained_sample :
    (Sample.engine.currentEvidence Sample.link).length = 1 ∧
    ∃ pushed left, List.Forall₂ EvidenceDisposition.Explains pushed left ∧
      left.Perm ((Sample.engine.currentEvidence Sample.link).filter
        (· ∉ (Sample.engine.apply (.withdrawEvidence Sample.withdrawal)).currentEvidence
          Sample.link)) ∧
      (Sample.engine.apply (.withdrawEvidence Sample.withdrawal)).dispositions Sample.link =
        (pushed ++ Sample.engine.dispositions Sample.link).take
          Sample.engine.config.maxHistoryPerLink :=
  ⟨by decide +kernel, evidence_explained Sample.reachable rfl Sample.link⟩

end LinkState
