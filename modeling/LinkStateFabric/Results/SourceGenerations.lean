import LinkStateFabric.Results.Indexes

/-!
# Generations of evidence sources

`publish_evidence` compares an observation with the record in its own slot only, and drops older
records of the same source from every slot of the link. So an observation of an older generation
enters a free slot beside newer records of its source (`sourceGenerations_mixed`). As long as no
observation for a free slot is older than what its link has seen of its source, every link has one
generation of each source, the newest that it has seen (`sourceGeneration_newest`).
-/

namespace LinkState

/-- The current evidence of each link has one generation of each source. -/
def Impl.OneSourceGeneration (impl : Impl) : Prop :=
  ∀ link, ∀ record ∈ impl.currentEvidence link, ∀ record' ∈ impl.currentEvidence link,
    record.key.source = record'.key.source → record.sourceGeneration = record'.sourceGeneration

/-! ## Runs with what was seen -/

/-- An engine in a run, with the evidence that has been current on each link so far. -/
structure Observed where
  impl : Impl
  seen : LinkId → List EvidenceRecord

namespace Observed

/-- A freshly created engine has seen nothing. -/
def Fresh (s : Observed) : Prop := s.impl.Fresh ∧ s.seen = fun _ => []

/-- The effect of an operation; the evidence that is current after it has been seen. -/
def apply (s : Observed) (op : Op) : Observed where
  impl := s.impl.apply op
  seen link := s.seen link ++ (s.impl.apply op).currentEvidence link

/-- A published observation whose slot is free is not older than what the link has seen of its
source. -/
def NotOlder (s : Observed) : Op → Prop
  | .publishEvidence request =>
    (∀ record ∈ s.impl.currentEvidence request.observation.key.link,
      record.key ≠ request.observation.key) →
    ∀ old ∈ s.seen request.observation.key.link, old.key.source = request.observation.key.source →
      old.sourceGeneration ≤ request.observation.sourceGeneration
  | _ => True

/-- Current evidence has been seen, and nothing newer of its source. -/
def Newest (s : Observed) : Prop :=
  ∀ link, ∀ record ∈ s.impl.currentEvidence link, record ∈ s.seen link ∧
    ∀ old ∈ s.seen link, old.key.source = record.key.source →
      old.sourceGeneration ≤ record.sourceGeneration

theorem Newest.oneSourceGeneration {s : Observed} (h : s.Newest) : s.impl.OneSourceGeneration := by
  intro link record hrecord record' hrecord' hsource
  obtain ⟨hseen, hnewest⟩ := h link record hrecord
  obtain ⟨hseen', hnewest'⟩ := h link record' hrecord'
  exact le_antisymm (hnewest' record hseen hsource) (hnewest record' hseen' hsource.symm)

/-- An operation that brings no evidence. -/
theorem Newest.of_subset {s : Observed} (h : s.Newest) {op : Op}
    (hsub : ∀ link, (s.impl.apply op).currentEvidence link ⊆ s.impl.currentEvidence link) :
    (s.apply op).Newest := by
  intro link record hrecord
  obtain ⟨hseen, hnewest⟩ := h link record (hsub link hrecord)
  refine ⟨List.mem_append_left _ hseen, fun old hold => ?_⟩
  rcases List.mem_append.mp hold with hold | hold
  · exact hnewest old hold
  · exact hnewest old (h link old (hsub link hold)).1

/-- An admitted observation is not older than what its link has seen of its source. -/
theorem Newest.le_admitted {s : Observed} (h : s.Newest) {request : PublishEvidenceRequest}
    {entry : LinkEntry} {prepared : PreparedCommit} (hok : s.NotOlder (.publishEvidence request))
    (hadmitted : Admitted s.impl request entry prepared) :
    ∀ old ∈ s.seen request.observation.key.link, old.key.source = request.observation.key.source →
      old.sourceGeneration ≤ request.observation.sourceGeneration := by
  have hcurrent := Impl.currentEvidence_eq hadmitted.bound
  intro old hold hsource
  cases hslot : findSlot entry request.observation.key with
  | none =>
    refine hok (fun record hrecord hkey => ?_) old hold hsource
    rw [hcurrent] at hrecord
    exact absurd hkey (by simpa using List.find?_eq_none.mp hslot record hrecord)
  | some slot =>
    have hfresh := hadmitted.slot slot hslot
    have hkey : slot.key = request.observation.key := by
      simpa using List.find?_some hslot
    have hmem : slot ∈ s.impl.currentEvidence request.observation.key.link := by
      rw [hcurrent]; exact List.mem_of_find?_eq_some hslot
    have hle : slot.sourceGeneration ≤ request.observation.sourceGeneration := by
      unfold judgeSlot at hfresh
      split at hfresh
      · cases hfresh
      · rename_i hlt; exact not_lt.mp hlt
    exact ((h _ slot hmem).2 old hold (by rw [hsource, hkey])).trans hle

theorem Newest.apply {s : Observed} (h : s.Newest) {op : Op} (hok : s.NotOlder op) :
    (s.apply op).Newest := by
  cases op with
  | publishEvidence request =>
    rcases publishEvidence_currentEvidence s.impl request with
      hsub | ⟨entry, prepared, hadmitted, hevidence⟩
    · exact h.of_subset hsub
    have hle := h.le_admitted hok hadmitted
    intro link record hrecord
    refine ⟨List.mem_append_right _ hrecord, fun old hold hsource => ?_⟩
    -- What was seen before, or is current now, is not newer than what the observation leaves.
    have hbound : old ∈ s.seen link ∨ link = request.observation.key.link ∧
        ∃ t : Edit, old = t.storedRecord request.observation := by
      rcases List.mem_append.mp hold with hold | hold
      · exact .inl hold
      · rcases hevidence link old hold with ⟨hold, -⟩ | hold
        · exact .inl (h link old hold).1
        · exact .inr hold
    rcases hevidence link record hrecord with ⟨hmem, hkept⟩ | ⟨rfl, t, rfl⟩
    · rcases hbound with hold | ⟨rfl, t, rfl⟩
      · exact (h link record hmem).2 old hold hsource
      · obtain ⟨-, hsupersedes⟩ := hkept rfl
        simp only [supersedes, Bool.or_eq_false_iff, Bool.and_eq_false_iff,
          decide_eq_false_iff_not] at hsupersedes
        exact not_lt.mp (hsupersedes.2.resolve_left fun hne => hne hsource.symm)
    · rcases hbound with hold | ⟨-, t', rfl⟩
      · exact hle old hold hsource
      · exact le_rfl
  | _ => exact h.of_subset (evidence_subset_of_ne fun _ heq => by cases heq)

end Observed

/-- In a run in which no observation for a free slot is older than what its link has seen of its
source, every link has one generation of each source: the newest that it has seen. -/
theorem sourceGeneration_newest {s : Observed}
    (h : Runs.Run Observed.Fresh Observed.apply Observed.NotOlder s) :
    s.impl.OneSourceGeneration ∧
    ∀ link, ∀ record ∈ s.impl.currentEvidence link, ∀ old ∈ s.seen link,
      old.key.source = record.key.source → old.sourceGeneration ≤ record.sourceGeneration := by
  have hnewest : s.Newest := by
    refine h.invariant (P := Observed.Newest) (fun s ⟨⟨config, himpl⟩, hseen⟩ => ?_)
      fun s op hnewest hok => hnewest.apply hok
    intro link record hrecord
    unfold Impl.currentEvidence at hrecord
    rw [himpl, Impl.entryOf_create] at hrecord
    cases hrecord
  exact ⟨hnewest.oneSourceGeneration, fun link record hrecord => (hnewest link record hrecord).2⟩

namespace Sample

/-- An observation in the second generation of the sample source, by direction. -/
def renewed (direction : EvidenceDirection) (name : String) : PublishEvidenceRequest :=
  { observation := { observation with
      key.direction := direction
      observation := .fromValidated (lit name)
      sourceGeneration := .fromValue 2 }
    publication }

/-- The source moves on to a second generation in another slot, where its first record is dropped,
and then takes the first slot again. -/
def renewingOps : List Op :=
  ops ++ [.publishEvidence (renewed .transmit "obs-2"), .publishEvidence (renewed .bidirectional "obs-3")]

end Sample

theorem sourceGeneration_newest_sample :
    (Sample.renewingOps.foldl Observed.apply ⟨.create {}, fun _ => []⟩).impl.OneSourceGeneration := by
  have hops : Runs.Admissible Observed.apply Observed.NotOlder ⟨.create {}, fun _ => []⟩
      Sample.renewingOps :=
    ⟨trivial, trivial, fun _ => by decide +kernel, fun _ => by decide +kernel,
      fun _ => by decide +kernel, trivial⟩
  exact (sourceGeneration_newest (.foldl (.start ⟨⟨{}, rfl⟩, rfl⟩) hops)).1

/-- Both records are current then, in the second generation. -/
example : ((Sample.renewingOps.foldl Impl.apply (.create {})).currentEvidence Sample.link).map
    (·.sourceGeneration) = [.fromValue 2, .fromValue 2] := by decide +kernel

/-! ## A free slot -/

namespace Sample

/-- The sample observation in the second generation of its source, then an observation for another
slot in the first. -/
def mixedOps : List Op :=
  [.bindLink ⟨binding⟩, .registerPublisher ⟨registration⟩,
    .publishEvidence
      { observation := { observation with sourceGeneration := .fromValue 2 }, publication },
    .publishEvidence
      { observation := { observation with
          key.direction := .transmit
          observation := .fromValidated (lit "obs-2") }
        publication }]

def mixed : Impl := mixedOps.foldl Impl.apply (.create {})

end Sample

/-- The older observation is accepted beside the newer record of its source. -/
theorem sourceGenerations_mixed : Sample.mixed.Reachable ∧ ¬ Sample.mixed.OneSourceGeneration := by
  refine ⟨Impl.Reachable.foldl (.start ⟨{}, rfl⟩) Sample.mixedOps, fun hone => ?_⟩
  have hall : (Sample.mixed.currentEvidence Sample.link).all fun record =>
      (Sample.mixed.currentEvidence Sample.link).all fun record' =>
        record.key.source ≠ record'.key.source ∨
          record.sourceGeneration = record'.sourceGeneration := by
    simp only [List.all_eq_true, decide_eq_true_eq]
    exact fun record hr record' hr' => Decidable.not_or_of_imp
      (hone Sample.link record hr record' hr')
  exact absurd hall (by decide)

end LinkState
