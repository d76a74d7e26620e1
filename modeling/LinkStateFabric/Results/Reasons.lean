import LinkStateFabric.Engine.Explain
import LinkStateFabric.Results.Board
import LinkStateFabric.Results.Faithfulness

/-!
# What an explanation shows

* `resolution_describes`: the dispositions of a resolution are those of its records, in their order,
  whatever the rules make of them.
* `explain_exact`: an explanation shows every observation that is still known of once. That of a
  current record is shown as the resolution has it, and another one as its newest disposition.
* `explain_coherent`: an explanation shows the rules and the conflicts that lead to the state that
  it shows, after every run, loads included.
-/

namespace LinkState

open Sorting

/-! ## Dispositions of a resolution -/

/-- The disposition is of the record, whether it counts or not. -/
def EvidenceDisposition.Of (disposition : EvidenceDisposition) (record : EvidenceRecord) : Prop :=
  disposition = { dispositionFor record with
    counted := disposition.counted
    reason := disposition.reason }

theorem EvidenceDisposition.Of.observation {disposition : EvidenceDisposition}
    {record : EvidenceRecord} (h : disposition.Of record) :
    disposition.observation = record.observation := by
  rw [h]
  rfl

theorem EvidenceDisposition.Of.because {disposition : EvidenceDisposition}
    {record : EvidenceRecord} (h : disposition.Of record) (suffix : Text) :
    (Resolution.because suffix disposition).Of record := by
  unfold EvidenceDisposition.Of Resolution.because
  rw [h]

theorem EvidenceDisposition.Of.discount {disposition : EvidenceDisposition}
    {record : EvidenceRecord} (h : disposition.Of record) :
    { disposition with counted := false }.Of record := by
  unfold EvidenceDisposition.Of
  rw [h]

theorem classify_of (record : EvidenceRecord) : (classify record).Of record := by
  unfold EvidenceDisposition.Of classify
  dsimp only
  split
  · rfl
  split
  · rfl
  split <;> rfl

/-- The dispositions are those of the records, in their order. -/
def Resolution.Describes (r : Resolution) (records : List EvidenceRecord) : Prop :=
  ∃ f : EvidenceRecord → EvidenceDisposition, r.dispositions = records.map f ∧ ∀ x, (f x).Of x

namespace Resolution

variable {r r' : Resolution} {records : List EvidenceRecord}

theorem Describes.congr (h : r.Describes records) (heq : r'.dispositions = r.dispositions) :
    r'.Describes records := by
  obtain ⟨g, hg, hof⟩ := h
  exact ⟨g, heq.trans hg, hof⟩

theorem Describes.amend (h : r.Describes records) (q : EvidenceDisposition → Bool)
    {f : EvidenceDisposition → EvidenceDisposition} (hf : ∀ d x, d.Of x → (f d).Of x) :
    (r.amend q f).Describes records := by
  obtain ⟨g, hg, hof⟩ := h
  refine ⟨fun x => if q (g x) then f (g x) else g x, ?_, fun x => ?_⟩
  · unfold Resolution.amend
    rw [hg, List.map_map]
    rfl
  · dsimp only
    split
    · exact hf _ x (hof x)
    · exact hof x

theorem Describes.tier (h : r.Describes records) (administrative decisive : List EvidenceRecord) :
    (r.selectTier administrative decisive).Describes records := by
  have hfold (l : List EvidenceRecord) (suffix : Text) {r : Resolution} (h : r.Describes records) :
      (l.foldl (fun resolution candidate =>
        resolution.amend (·.observation = candidate.observation) fun d =>
          Resolution.because suffix { d with counted := false }) r).Describes records := by
    induction l generalizing r with
    | nil => exact h
    | cons candidate l ih => exact ih (h.amend _ fun d x hd => hd.discount.because suffix)
  exact (hfold _ _ h).congr rfl

end Resolution

/-- The dispositions of a resolution are those of its records, in canonical order. -/
theorem resolution_describes (records : List EvidenceRecord) (record : LinkStateRecord) :
    (resolveLinkState records record).Describes (sortBy evidenceLess records) := by
  have hclassified : (classified records).Describes (sortBy evidenceLess records) :=
    ⟨classify, rfl, classify_of⟩
  have hbecause (suffix : Text) (d : EvidenceDisposition) (x : EvidenceRecord) (hd : d.Of x) :
      (Resolution.because suffix d).Of x := hd.because suffix
  cases hintent : record.adminIntent with
  | some intent =>
    unfold resolveLinkState resolveOrdered
    rw [hintent]
    exact Resolution.Describes.amend (hclassified.congr rfl) _ (hbecause _)
  | none =>
    -- The branches of the resolver, each of which amends what was classified.
    cases hrestriction : restrictionOf records with
    | some claim =>
      rw [resolveLinkState_gated hintent hrestriction]
      unfold Resolution.underRestriction
      dsimp only
      split <;> exact Resolution.Describes.amend (hclassified.congr rfl) _ (hbecause _)
    | none =>
      have henabled : ((classified records).underEnablement
          (administrativeIn (sortBy evidenceLess records))).Describes
          (sortBy evidenceLess records) := by
        unfold Resolution.underEnablement
        split
        · exact hclassified
        · exact Resolution.Describes.amend (hclassified.congr rfl) _
            fun d x hd => hd.discount.because _
      rw [resolveLinkState_observed hintent hrestriction]
      dsimp only
      split
      · refine henabled.congr ?_
        unfold Resolution.withoutEvidence
        split <;> rfl
      · exact (henabled.tier _ _).congr (Resolution.byDecisive_dispositions _ _ _)

/-! ## Conflicts -/

namespace Resolution

variable {r : Resolution} {administrative decisive : List EvidenceRecord}

theorem classFor_ne_conflicted (claim : EvidenceClaim) : classFor claim ≠ .conflicted := by
  cases claim <;> decide

theorem byClaims_ne_conflicted {r' : Resolution} {tier : List EvidenceRecord}
    (h : r.byClaims tier = some r') : r'.resultClass ≠ .conflicted := by
  unfold byClaims at h
  split at h
  · cases h
    exact classFor_ne_conflicted _
  split at h
  · cases h
    exact StateResultClass.noConfusion
  split at h <;> cases h
  exact StateResultClass.noConfusion

theorem notes_ne_nil {l : List EvidenceRecord} (hl : l ≠ []) (text : EvidenceRecord → Text)
    (notes : List Text) : notes ++ l.map text ≠ [] :=
  List.append_ne_nil_of_right_ne_nil _ fun h => hl (List.map_eq_nil_iff.mp h)

theorem crossCheckRemote_conflicts {symmetry : LinkSymmetryGuarantee}
    (hr : r.resultClass ≠ .conflicted)
    (h : (r.crossCheckRemote decisive symmetry).resultClass = .conflicted) :
    (r.crossCheckRemote decisive symmetry).conflicts ≠ [] := by
  unfold crossCheckRemote at h ⊢
  dsimp only at h ⊢
  split at h
  · rename_i hremote
    rw [if_pos hremote]
    split at h
    · exact absurd h hr
    · rename_i hcontradiction
      rw [if_neg hcontradiction]
      split at h
      · cases h
      · rename_i hsymmetry
        rw [if_neg hsymmetry, foldl_noteConflict]
        exact notes_ne_nil hremote.2 _ _
  · exact absurd h hr

/-- A conflict among decisive records is noted. -/
theorem byDecisive_conflicts (hne : decisive ≠ []) {symmetry : LinkSymmetryGuarantee}
    (h : (r.byDecisive administrative decisive symmetry).resultClass = .conflicted) :
    (r.byDecisive administrative decisive symmetry).conflicts ≠ [] := by
  unfold byDecisive at h ⊢
  dsimp only at h ⊢
  split
  · rename_i hwitness
    rw [hwitness] at h
    unfold byAsymmetry at h ⊢
    dsimp only at h ⊢
    split at h
    · cases h
    · rename_i hsymmetry
      rw [if_neg hsymmetry]
      exact List.append_ne_nil_of_right_ne_nil _ (List.cons_ne_nil _ _)
  rename_i hwitness
  rw [hwitness] at h
  dsimp only at h
  split
  · unfold conflictedBy
    rw [foldl_noteConflict]
    exact notes_ne_nil (winningTier_ne_nil hne) _ _
  · rename_i hclaims
    rw [hclaims] at h
    exact crossCheckRemote_conflicts (byClaims_ne_conflicted hclaims) h

end Resolution

/-- A resolution that finds a conflict notes it. -/
theorem conflicts_of_conflicted {records : List EvidenceRecord} {record : LinkStateRecord}
    (h : (resolveLinkState records record).resultClass = .conflicted) :
    (resolveLinkState records record).conflicts ≠ [] := by
  cases hintent : record.adminIntent with
  | some intent =>
    unfold resolveLinkState resolveOrdered at h
    rw [hintent] at h
    exact absurd h (Resolution.classFor_ne_conflicted _)
  | none =>
    cases hrestriction : restrictionOf records with
    | some claim =>
      have hclass := (resolveLinkState_restricted hintent hrestriction).resultClass
      exact absurd (hclass.symm.trans h) (Resolution.classFor_ne_conflicted _)
    | none =>
      rw [resolveLinkState_observed hintent hrestriction] at h ⊢
      dsimp only at h ⊢
      split at h
      · unfold Resolution.withoutEvidence at h
        split at h <;> cases h
      · rename_i hne
        rw [if_neg hne]
        exact Resolution.byDecisive_conflicts hne h

/-! ## Explanations -/

section Explanations

variable {impl : Impl} {link : LinkId} {entry : LinkEntry}

/-- No two current records of a link have the same observation. -/
theorem Indexed.nodup_observations (h : Indexed impl) (hentry : impl.entryOf link = some entry) :
    (entry.current.map (·.observation)).Nodup := by
  have hkeys := (h.slotted link entry hentry).nodup
  refine List.Nodup.map_on (fun x hx y hy heq => ?_) hkeys.of_map
  have hkey {z : EvidenceRecord} (hz : z ∈ entry.current) :
      impl.store.observations.lookup z.observation = some z.key :=
    (h.observations _ _).mpr ⟨link, entry, hentry, z, hz, rfl, rfl⟩
  have hsame := hkey hx
  rw [heq, hkey hy] at hsame
  exact List.inj_on_of_nodup_map hkeys hx hy (Option.some.inj hsame).symm

theorem explain_bound (hentry : impl.entryOf link = some entry) :
    (impl.explain link).evidence =
      explainEvidence (resolveLinkState entry.current entry.record).dispositions
        entry.dispositions := by
  unfold Impl.explain
  rw [hentry]

theorem explain_exact (h : impl.Reachable) (hentry : impl.entryOf link = some entry) :
    (impl.explain link).evidence.Pairwise (fun a b => a.observation < b.observation) ∧
    (∀ record ∈ entry.current, ∃ disposition,
      (impl.explain link).evidence.find? (·.observation = record.observation) = some disposition ∧
      disposition.Of record ∧
      (disposition.counted = true ↔ record ∈ counting entry.current entry.record)) ∧
    ∀ observation, (∀ record ∈ entry.current, record.observation ≠ observation) →
      (impl.explain link).evidence.find? (·.observation = observation) =
        entry.dispositions.find? (·.observation = observation) := by
  have hnodup := (Impl.Reachable.indexed h).nodup_observations hentry
  obtain ⟨f, hf, hof⟩ := resolution_describes entry.current entry.record
  -- One disposition a record, and no two records share an observation.
  have hresolved : ((resolveLinkState entry.current entry.record).dispositions.map
      (·.observation)).Nodup := by
    have hobservations : (resolveLinkState entry.current entry.record).dispositions.map
        (·.observation) = (sortBy evidenceLess entry.current).map (·.observation) := by
      rw [hf, List.map_map]
      exact List.map_congr_left fun x _ => (hof x).observation
    rw [hobservations]
    exact ((sortBy_perm _ _).map _).nodup_iff.mpr hnodup
  rw [explain_bound hentry]
  refine ⟨pairwise_explainEvidence hresolved _, fun record hrecord => ?_,
    fun observation hnew => ?_⟩
  · have hmem : f record ∈ (resolveLinkState entry.current entry.record).dispositions :=
      hf ▸ List.mem_map_of_mem ((mem_sortBy evidenceLess).mpr hrecord)
    have hfound := (Overlay.find?_eq_some_iff hresolved).mpr ⟨hmem, (hof record).observation⟩
    refine ⟨f record, ?_, hof record, ?_⟩
    · rw [find?_explainEvidence hresolved, hfound, Option.some_or]
    · -- the record is reported by its own disposition alone
      unfold counting
      rw [List.mem_filter, Bool.not_eq_true', List.any_eq_false]
      constructor
      · intro hcounted
        refine ⟨hrecord, fun d hd hreports => ?_⟩
        rw [Bool.and_eq_true, decide_eq_true_iff, Bool.not_eq_true'] at hreports
        have hsame := (Overlay.find?_eq_some_iff hresolved).mpr ⟨hd, hreports.1⟩
        rw [hfound] at hsame
        rw [← Option.some.inj hsame, hcounted] at hreports
        cases hreports.2
      · rintro ⟨-, hcounted⟩
        by_contra hno
        refine hcounted _ hmem ?_
        rw [(hof record).observation, Bool.eq_false_iff.mpr hno, decide_eq_true rfl]
        rfl
  · rw [find?_explainEvidence hresolved, List.find?_eq_none.mpr, Option.none_or]
    intro disposition hdisposition hobservation
    rw [hf] at hdisposition
    obtain ⟨record, hrecord, rfl⟩ := List.mem_map.mp hdisposition
    refine hnew record ((mem_sortBy _).mp hrecord) ?_
    rw [← (hof record).observation]
    exact of_decide_eq_true hobservation

namespace Sample

/-- Two publishers contradict each other, and the first observes the link once more. -/
def disputes : List Op :=
  seconded .down ++
    [.publishEvidence
      { publication, observation := { observation with
          observation := .fromValidated (lit "obs-3")
          sequence := 2 } }]

def disputed : Impl := disputes.foldl Impl.apply (.create {})

theorem disputed_reachable : disputed.HoldsReachable :=
  Runs.Run.foldl (.start ⟨{}, rfl⟩) ⟨trivial, trivial, rfl, trivial, rfl, rfl, trivial⟩

end Sample

/-- The records of both publishers are current, and the first observation is shown as its retained
disposition has it. -/
theorem explain_exact_sample : ∃ entry, Sample.disputed.entryOf Sample.link = some entry ∧
    entry.current.length = 2 ∧
    (∀ record ∈ entry.current, ∃ disposition,
      (Sample.disputed.explain Sample.link).evidence.find?
        (·.observation = record.observation) = some disposition ∧
      disposition.Of record ∧
      (disposition.counted = true ↔ record ∈ counting entry.current entry.record)) ∧
    (Sample.disputed.explain Sample.link).evidence.find?
        (·.observation = Sample.observation.observation) =
      entry.dispositions.find? (·.observation = Sample.observation.observation) ∧
    (entry.dispositions.find? (·.observation = Sample.observation.observation)).isSome = true := by
  have hsome : (Sample.disputed.entryOf Sample.link).isSome = true := by decide +kernel
  obtain ⟨entry, hentry⟩ := Option.isSome_iff_exists.mp hsome
  have hall : ∀ e ∈ Sample.disputed.entryOf Sample.link, e.current.length = 2 ∧
      (∀ record ∈ e.current, record.observation ≠ Sample.observation.observation) ∧
      (e.dispositions.find? (·.observation = Sample.observation.observation)).isSome = true := by
    decide +kernel
  obtain ⟨hlength, hgone, hretained⟩ := hall entry hentry
  obtain ⟨-, hcurrent, hothers⟩ := explain_exact Sample.disputed_reachable.reachable hentry
  exact ⟨entry, hentry, hlength, hcurrent, hothers _ hgone, hretained⟩

/-- An explanation of a live link with evidence shows the rules, and any conflicts, that lead to the
state that it shows. -/
theorem explain_coherent (h : impl.HoldsReachable) (hu : impl.Unsaturated)
    (hentry : impl.entryOf link = some entry) (hlive : entry.record.state ≠ .retired)
    (hne : entry.current ≠ []) :
    let explanation := impl.explain link
    let resolution := resolveLinkState entry.current entry.record
    (explanation.state = resolution.state ∧ explanation.resultClass = resolution.resultClass ∧
      explanation.degradationCause = resolution.cause) ∧
    resolution.rules <:+: explanation.rules ∧
    (explanation.resultClass = .conflicted → explanation.conflicts ≠ []) := by
  intro explanation resolution
  have hexplained : explanation.state = entry.record.state ∧
      explanation.resultClass = entry.record.resultClass ∧
      explanation.degradationCause = entry.record.degradationCause ∧
      explanation.conflicts = resolution.conflicts ∧
      resolution.rules <:+: explanation.rules := by
    show (impl.explain link).state = _ ∧ (impl.explain link).resultClass = _ ∧
      (impl.explain link).degradationCause = _ ∧ (impl.explain link).conflicts = _ ∧
      _ <:+: (impl.explain link).rules
    unfold Impl.explain
    rw [hentry]
    exact ⟨rfl, rfl, rfl, rfl, _, _, rfl⟩
  obtain ⟨hs, hc, hd, hconflicts, hrules⟩ := hexplained
  have hconclusion := (h.resolved hu link entry hentry hlive hne).conclusion
  simp only [LinkEntry.conclusion, Resolution.conclusion, Conclusion.mk.injEq] at hconclusion
  obtain ⟨hstate, hclass, hcause, -⟩ := hconclusion
  refine ⟨⟨hs.trans hstate, hc.trans hclass, hd.trans hcause⟩, hrules, fun hconflicted => ?_⟩
  rw [hconflicts]
  exact conflicts_of_conflicted (hclass.symm.trans (hc.symm.trans hconflicted))

/-- The explanation of the contradiction notes it. -/
theorem explain_coherent_sample : ∃ entry, Sample.disputed.entryOf Sample.link = some entry ∧
    (Sample.disputed.explain Sample.link).state =
      (resolveLinkState entry.current entry.record).state ∧
    (resolveLinkState entry.current entry.record).rules <:+:
      (Sample.disputed.explain Sample.link).rules ∧
    (Sample.disputed.explain Sample.link).resultClass = .conflicted ∧
    (Sample.disputed.explain Sample.link).conflicts ≠ [] := by
  have hsome : (Sample.disputed.entryOf Sample.link).isSome = true := by decide +kernel
  obtain ⟨entry, hentry⟩ := Option.isSome_iff_exists.mp hsome
  have hentries : ∀ e ∈ Sample.disputed.entryOf Sample.link, e.record.state ≠ .retired ∧
      e.current ≠ [] := by decide +kernel
  obtain ⟨hlive, hne⟩ := hentries entry hentry
  have hconflicted : (Sample.disputed.explain Sample.link).resultClass = .conflicted := by
    decide +kernel
  obtain ⟨⟨hstate, -, -⟩, hrules, hconflicts⟩ :=
    explain_coherent Sample.disputed_reachable (by decide +kernel) hentry hlive hne
  exact ⟨entry, hentry, hstate, hrules, hconflicted, hconflicts hconflicted⟩

end Explanations

end LinkState
