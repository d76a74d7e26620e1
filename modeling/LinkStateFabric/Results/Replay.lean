import LinkStateFabric.Results.Authority
import LinkStateFabric.Results.Generations
import LinkStateFabric.Results.Topology

/-!
# Publications that are sent again

The check for a replay comes last. While the record of a publication is current, its publisher is
active (`Impl.Endorsed`), the structure that it describes is that of the link (`LinkEntry.Supports`,
`Impl.Backed`), and its observation is the one of its key (`Indexed`); and the terms on which its
publisher is registered change only with a registration (`apply_terms`). So every check before it
passes again (`publish_replayed`).
-/

namespace LinkState

/-! ## Terms of a registration -/

/-- The source and the scope with which a publisher is registered. -/
def Standing.terms (s : Standing) : Option (SourceId × AuthorityScope) :=
  s.authority.map fun authority => (authority.source, authority.scope)

theorem Standing.terms_fence (s : Standing) (cap : Nat) (boot : WorkerBootId)
    (status : AuthorityStatus) : (s.fence cap boot status).terms = s.terms := by
  unfold Standing.terms Standing.fence
  rw [Option.map_map]
  rfl

theorem Standing.terms_endEpoch (s : Standing) (cap : Nat) : (s.endEpoch cap).terms = s.terms := by
  unfold Standing.endEpoch
  split
  · rfl
  · exact s.terms_fence ..

/-- The operation registers the publisher. -/
def Impl.Registers (impl : Impl) (publisher : PublisherId) : Op → Prop
  | .registerPublisher request => request.registration.publisher = publisher ∧
      (impl.registerPublisher request).2.outcome.code.accepts = true
  | _ => False

section Terms

variable {impl : Impl} {publisher : PublisherId}

theorem registerPublisher_terms {request : RegisterPublisherRequest}
    (h : ¬ impl.Registers publisher (.registerPublisher request)) :
    ((impl.registerPublisher request).1.standing publisher).terms =
      (impl.standing publisher).terms := by
  by_cases hp : publisher = request.registration.publisher
  · subst hp
    have hrefused : (impl.registerPublisher request).2.outcome.code.accepts = false :=
      Bool.eq_false_iff.mpr fun haccepts => h ⟨rfl, haccepts⟩
    rcases registerPublisher_outcome impl request with hdeclined | ⟨_, -, hcode⟩ |
      ⟨scope, authority, -, -, heq⟩
    · rcases hdeclined.impl with heq | ⟨p, heq⟩
      · rw [heq]
      · rw [heq, (noteRejection_sameAuthority impl p).standing]
    -- A refresh is accepted, and would have been a registration.
    · rw [hcode] at hrefused
      cases hrefused
    · rw [heq] at hrefused ⊢
      unfold Impl.supersedeBoot at hrefused ⊢
      dsimp only at hrefused ⊢
      split
      · rw [standing_fencePublisher, if_pos rfl, Standing.terms_fence]
      · rename_i hgeneration
        rw [hgeneration] at hrefused
        cases hrefused
  · cases henrols : impl.enrols request.registration with
    | false => rw [(registerPublisher_of_not_enrols impl henrols).1]
    | true =>
      obtain ⟨scope, heq⟩ := registerPublisher_of_enrols impl henrols
      rw [heq]
      exact congrArg _ (@admitRegistration_standing_of_ne impl publisher
        { request.registration with scope } hp)

/-- The terms of a publisher change only when it registers. -/
theorem apply_terms {op : Op} (hload : op.isLoad = false) (h : ¬ impl.Registers publisher op) :
    ((impl.apply op).standing publisher).terms = (impl.standing publisher).terms := by
  cases op with
  | registerPublisher request => exact registerPublisher_terms h
  | invalidatePublisher request =>
    show ((impl.invalidatePublisher request).1.standing publisher).terms = _
    rcases invalidatePublisher_cases impl request with ⟨heq, -⟩ | ⟨_, _, -, -, heq⟩
    · rw [heq]
    · rw [heq, standing_fencePublisher]
      split
      · exact Standing.terms_fence ..
      · rfl
  | advanceCoordinatorEpoch request =>
    show ((impl.advanceCoordinatorEpoch request).1.standing publisher).terms = _
    unfold Impl.advanceCoordinatorEpoch
    split
    · rfl
    split
    · rfl
    dsimp only
    rw [standing_foldl_fenceStale _ _ _ (nodup_stalePublishers _)]
    split
    · exact Standing.terms_endEpoch ..
    · rfl
  | load => cases hload
  | _ => exact congrArg _ (((apply_steps impl hload).sameAuthority nofun).standing publisher)

/-- An incumbent on the terms of an authorized request is authorized. -/
theorem authorize_of_terms {impl' : Impl} {boot : WorkerBootId} {source : SourceId}
    {epoch : CoordinatorEpoch} {link : LinkId} {binding : TopologyBinding}
    (h : authorize impl.store publisher boot source epoch impl.epoch link binding = none)
    (hterms : (impl'.standing publisher).terms = (impl.standing publisher).terms)
    (hincumbent : impl'.Incumbent publisher boot epoch) :
    authorize impl'.store publisher boot source epoch impl'.epoch link binding = none := by
  obtain ⟨hepoch, authority', hauthority', hstatus', hboot', hepoch'⟩ := hincumbent
  unfold authorize at h
  cases hauthority : impl.store.publishers.lookup publisher with
  | none =>
    rw [hauthority] at h
    cases h
  | some authority =>
    unfold Standing.terms at hterms
    rw [Impl.standing_authority hauthority, Impl.standing_authority hauthority'] at hterms
    have hterms : (authority'.source, authority'.scope) = (authority.source, authority.scope) :=
      Option.some.inj hterms
    -- The source and the scope are what authorize reads besides the incumbent.
    obtain ⟨hsource, hscope⟩ := Prod.mk.inj hterms
    rw [hauthority] at h
    dsimp only at h
    split at h
    · cases h
    split at h
    · cases h
    split at h
    · cases h
    · cases h
    · cases h
    · unfold authorize
      rw [hauthority']
      dsimp only
      rw [if_neg (not_or.mpr ⟨not_not.mpr hepoch, not_not.mpr (hepoch'.trans hepoch)⟩),
        if_neg (not_not.mpr hboot'), hstatus', hsource, hscope]
      exact h

end Terms

/-! ## Publications since -/

/-- What the engine has gone through since, without a load and a registration of the publisher. -/
structure Impl.Since (publisher : PublisherId) (impl impl' : Impl) : Prop where
  reachable : impl'.Reachable
  terms : (impl'.standing publisher).terms = (impl.standing publisher).terms
  forward : impl'.Unsaturated → impl.Forward impl'

theorem Impl.Since.apply {publisher : PublisherId} {impl impl' : Impl}
    (h : Impl.Since publisher impl impl') {op : Op} (hload : op.isLoad = false)
    (hop : ¬ impl'.Registers publisher op) : Impl.Since publisher impl (impl'.apply op) where
  reachable := .step op h.reachable trivial
  terms := (apply_terms hload hop).trans h.terms
  forward hu := by
    have hu := hu.of_le (apply_moves impl' hload).le
    exact (h.forward hu).trans (.apply hload fun _ => hu.globalGeneration)

section Replay

variable {impl impl' : Impl} {request : PublishEvidenceRequest} {stored : EvidenceRecord}

/-- The record that a publication stores says what its observation says. -/
theorem judgeSlot_storedRecord (t : Edit) (observation : EvidenceRecord) :
    judgeSlot (t.storedRecord observation) observation = .replay := by
  have hsame : observation.same (t.storedRecord observation) = true := by
    simp [EvidenceRecord.same, Edit.storedRecord]
  have hgeneration : (t.storedRecord observation).sourceGeneration = observation.sourceGeneration :=
    rfl
  have hsequence : (t.storedRecord observation).sequence = observation.sequence := rfl
  unfold judgeSlot
  rw [hgeneration, hsequence, if_neg (lt_irrefl _), if_pos rfl, if_neg (lt_irrefl _), if_pos rfl,
    hsame]
  rfl

/-- The record of the key of a publication, after it has committed, is the one that it stored. -/
theorem Published.eq_stored {entry : LinkEntry} {prepared : PreparedCommit} {t' : Edit}
    {record : EvidenceRecord} (h : Published impl request entry prepared t' stored)
    (hmem : record ∈ (impl.publishEvidence request).1.currentEvidence request.observation.key.link)
    (hkey : record.key = request.observation.key) : record = stored := by
  rw [h.impl_eq, currentEvidence_commit, if_pos rfl, h.current, Sorting.mem_sortBy,
    List.mem_append, List.mem_singleton] at hmem
  refine hmem.resolve_left fun hleft => ?_
  have := (List.mem_filter.mp hleft).2
  simp [supersedes, hkey] at this

/-- Every check before that for a replay passes again. -/
theorem refusal_since {prepared : PreparedCommit} {entry entry' : LinkEntry} {t' : Edit}
    (hpublished : Published impl request entry prepared t' stored)
    (hsince : Impl.Since request.observation.publisher (impl.publishEvidence request).1 impl')
    (hu : impl'.Unsaturated) (hexpectedEvidence : request.expectedEvidenceGeneration = none)
    (hexpectedState : request.expectedStateGeneration = none)
    (hentry' : impl'.entryOf request.observation.key.link = some entry')
    (hstored : stored ∈ entry'.current) : impl'.refusal entry' request = none := by
  obtain ⟨e, rfl⟩ := hpublished.stored_eq
  have hreachable := hsince.reachable
  have hsupports := hreachable.supported _ entry' hentry' _ hstored
  have hcurrent := Impl.mem_currentEvidence.mpr ⟨entry', hentry', hstored⟩
  -- The record still stands under the topology generation that it was accepted with.
  have hbinding : entry'.record.binding = entry.record.binding := by
    obtain ⟨entry'', hentry'', hforward⟩ := (hsince.forward hu).entries
      request.observation.key.link t'.entry
      (by rw [hpublished.impl_eq]; exact (commit_entryOf ..).trans (if_pos rfl))
    obtain rfl : entry' = entry'' := Option.some.inj (hentry'.symm.trans hentry'')
    refine (hforward.binding ?_).trans hpublished.binding
    have htopology := hpublished.admitted.topology
    unfold checkTopology at htopology
    dsimp only at htopology
    split at htopology
    · cases htopology
    · rename_i heq
      rw [hpublished.binding, ← not_not.mp heq]
      exact hsupports.topology.symm
  simp only [Impl.refusal, Option.orElse_eq_none, Option.map_eq_none_iff]
  refine ⟨?_, ?_, ?_, ?_, ?_, ?_, ?_, ?_⟩
  · unfold checkLive
    rw [if_neg hsupports.live]
  · have hincumbent := hreachable.endorsed _ _ hcurrent
    rw [hbinding]
    refine authorize_of_terms hpublished.admitted.authorized (hsince.terms.trans ?_) hincumbent
    exact congrArg _ (((publishEvidence_steps impl (by exact rfl) request :
      Steps (· = .publish) impl _).sameAuthority (by simp)).standing _)
  · refine backingStale_eq_none.mpr fun backing hb => ?_
    exact hreachable.backed hu _ (List.ne_nil_of_mem hcurrent) entry' hentry' backing hb
  · have := hpublished.admitted.topology
    unfold checkTopology at this ⊢
    rw [hbinding]
    exact this
  · have := hpublished.admitted.endpoint
    unfold checkEndpoint at this ⊢
    rw [hbinding]
    exact this
  · rw [hexpectedEvidence]
    rfl
  · rw [hexpectedState]
    rfl
  · have hlookup : impl'.store.observations.lookup request.observation.observation =
        some request.observation.key :=
      (hreachable.indexed.lookup_iff _ _).mpr ⟨entry', hentry', _, hstored, rfl, rfl⟩
    unfold checkObservation
    rw [hlookup]
    dsimp only
    rw [if_neg (not_not.mpr rfl)]

/-- A publication without expected generations that has committed, sent again while the record that
it stored is current, after any operations but a load or a registration of its publisher: it counts
as a replay, and leaves the engine as it is. -/
theorem publish_replayed (h : impl.Reachable)
    (hexpectedEvidence : request.expectedEvidenceGeneration = none)
    (hexpectedState : request.expectedStateGeneration = none) (hcommits : impl.Commits request)
    (hrun : Runs.Run (· = (impl.publishEvidence request).1) Impl.apply
      (fun impl op => op.isLoad = false ∧ ¬ impl.Registers request.observation.publisher op) impl')
    (hu : impl'.Unsaturated)
    (hstored : stored ∈ (impl.publishEvidence request).1.currentEvidence
      request.observation.key.link) (hkey : stored.key = request.observation.key)
    (hcurrent : stored ∈ impl'.currentEvidence request.observation.key.link) :
    (impl'.publishEvidence request).2.outcome.code = .idempotent ∧
      (impl'.publishEvidence request).1 = impl' := by
  obtain ⟨entry, prepared, t', stored', hpublished⟩ := publishEvidence_published hcommits
  obtain rfl := hpublished.eq_stored hstored hkey
  have hsince : Impl.Since request.observation.publisher (impl.publishEvidence request).1 impl' := by
    refine hrun.invariant (P := Impl.Since _ _) ?_ fun _ _ hsince hok => hsince.apply hok.1 hok.2
    rintro _ rfl
    have hreached : (impl.apply (.publishEvidence request)).Reachable := .step _ h trivial
    exact ⟨hreached, rfl, fun _ => .refl _⟩
  obtain ⟨entry', hentry', hmem⟩ := Impl.mem_currentEvidence.mp hcurrent
  have hslot := findSlot_of_mem (hsince.reachable.indexed.slotted _ entry' hentry').nodup hmem
  -- Every check passes again, and the slot holds the same observation.
  have hreplay : impl'.admit request = .replay entry' := by
    obtain ⟨e, rfl⟩ := hpublished.stored_eq
    rw [hkey] at hslot
    unfold Impl.admit
    dsimp only
    rw [hpublished.admitted.valid, hentry']
    dsimp only
    rw [refusal_since hpublished hsince hu hexpectedEvidence hexpectedState hentry' hmem, hslot]
    dsimp only [Option.elim_some]
    rw [judgeSlot_storedRecord]
  unfold Impl.publishEvidence
  rw [hreplay]
  exact ⟨rfl, rfl⟩

end Replay

/-- The publication of the small run is sent again after a snapshot. -/
theorem publish_replayed_sample :
    ((((Sample.registered.publishEvidence Sample.publish).1.apply (.snapshot {})).publishEvidence
      Sample.publish).2.outcome.code = .idempotent) := by
  obtain ⟨stored, hstored⟩ := List.exists_mem_of_ne_nil _ (show
    (Sample.registered.publishEvidence Sample.publish).1.currentEvidence Sample.link ≠ [] by decide)
  have hkey : ∀ r ∈ (Sample.registered.publishEvidence Sample.publish).1.currentEvidence
      Sample.link, r.key = Sample.publish.observation.key := by decide
  have hrun := @Runs.Run.step Impl Op (· = (Sample.registered.publishEvidence Sample.publish).1)
    Impl.apply (fun impl op => op.isLoad = false ∧
      ¬ impl.Registers Sample.publish.observation.publisher op) _ (.snapshot {}) (.start rfl)
    ⟨rfl, id⟩
  exact (publish_replayed Sample.registered_reachable rfl rfl (.inl (by decide)) hrun (by decide)
    hstored (hkey stored hstored) hstored).1

end LinkState
