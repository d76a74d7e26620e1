import LinkStateFabric.Results.Indexes

/-!
# Current evidence is about the current topology

* `Supports`: a current record of a live link describes the structure that the link is bound to.
* `Backed`: while a link has current evidence, the links that its binding references are bound, live
  and at the generation that the reference pins. Rebinding and retirement break this for a moment,
  and the loop over the dependents restores it.
-/

namespace LinkState

open Sorting

/-! ## Records of one link -/

/-- The record is current evidence about the structure that the entry is bound to. -/
structure LinkEntry.Supports (entry : LinkEntry) (record : EvidenceRecord) : Prop where
  live : entry.record.state ≠ .retired
  status : record.status = .current
  evidenceClass : record.evidenceClass ≠ .unsupported
  cause : record.degradationCause ≠ .none ↔ record.claim = .degraded
  topology : record.topologyGeneration = entry.record.binding.topologyGeneration
  endpoint : (record.key.endpoint = .null ∧ record.endpointGeneration = .zero) ∨
    (record.key.endpoint.valid = true ∧
      boundGeneration entry.record.binding record.key.endpoint = some record.endpointGeneration)

theorem LinkEntry.Supports.congr {entry entry' : LinkEntry} {record : EvidenceRecord}
    (h : entry.Supports record) (hshape : entry'.shape = entry.shape) : entry'.Supports record := by
  obtain ⟨hlive, hbinding⟩ := Prod.mk.inj hshape
  refine ⟨fun hr => h.live ?_, h.status, h.evidenceClass, h.cause, ?_, ?_⟩
  · simpa [hr] using hlive.symm
  · rw [hbinding]; exact h.topology
  · rw [hbinding]; exact h.endpoint

/-- An admitted observation is evidence about the structure of its link. -/
theorem Admitted.supports {impl : Impl} {request : PublishEvidenceRequest} {entry : LinkEntry}
    {prepared : PreparedCommit} (h : Admitted impl request entry prepared) (t : Edit) :
    entry.Supports (t.storedRecord request.observation) := by
  have hvalid := h.valid
  -- What the three checks have made sure of.
  unfold validateObservation at hvalid
  split at hvalid
  · cases hvalid
  split at hvalid
  · cases hvalid
  split at hvalid
  · cases hvalid
  split at hvalid
  · cases hvalid
  split at hvalid
  · cases hvalid
  rename_i hclass
  split at hvalid
  · cases hvalid
  rename_i hcause
  split at hvalid
  · cases hvalid
  rename_i hcause'
  refine ⟨h.live, rfl, hclass, ⟨fun hc => ?_, fun hd hc => hcause ⟨hd, hc⟩⟩, ?_, ?_⟩
  · by_contra hd
    exact hcause' ⟨hd, hc⟩
  · have := h.topology
    unfold checkTopology at this
    dsimp only at this
    split at this
    · cases this
    · rename_i heq
      exact not_not.mp heq
  · have := h.endpoint
    unfold checkEndpoint at this
    split at this
    · rename_i hv
      split at this
      · cases this
      · rename_i expected hexpected
        split at this
        · cases this
        · rename_i heq
          exact .inr ⟨hv, hexpected.trans (congrArg some (not_not.mp heq).symm)⟩
    · rename_i hv
      split at this
      · cases this
      · rename_i hz
        rw [Bool.not_eq_true] at hv
        rw [Bool.not_eq_true, Bool.not_eq_false'] at hz
        exact .inl ⟨StrongId.valid_eq_false_iff.mp hv, StrongGeneration.isZero_iff.mp hz⟩

/-- No record describes the binding that replaces its own. -/
theorem explainRebinding_ne_none {link : LinkId} {entry : LinkEntry} {record : EvidenceRecord}
    {binding : TopologyBinding} (h : entry.Supports record) (hb : Rebinds link entry binding) :
    explainRebinding binding record ≠ none := by
  have hne : record.topologyGeneration ≠ binding.topologyGeneration := by
    rw [h.topology]; exact hb.newer.ne
  unfold explainRebinding describesBinding
  rw [if_pos hne]
  simp

/-- The evidence of an entry supports it. -/
def LinkEntry.Supported (entry : LinkEntry) : Prop := ∀ record ∈ entry.current, entry.Supports record

theorem LinkEntry.Supported.rebind_current {t : Edit} {link : LinkId} {binding : TopologyBinding}
    (h : t.entry.Supported) (hb : Rebinds link t.entry binding) :
    (t.dropEvidence (explainRebinding binding)).entry.current = [] := by
  rw [Edit.dropEvidence_current, List.filter_eq_nil_iff]
  intro record hrecord
  simpa using explainRebinding_ne_none (h record hrecord) hb

theorem EditStep.supported {allow : Kind → Prop} {link : LinkId} {t t' : Edit}
    (hstep : EditStep allow link t t') (h : t.entry.Supported) : t'.entry.Supported := by
  rcases hstep.cases_kind with hquiet | ⟨binding, hb, rfl⟩ |
    ⟨request, prepared, u, -, hadmitted, hcount, rfl⟩ | ⟨request, u, -, hcount, -, rfl⟩
  · exact fun r hr => (h r (hquiet.current_subset id hr)).congr (hquiet.shape id id)
  · intro r hr
    rw [show ((t.dropEvidence (explainRebinding binding)).rebind binding).entry.current =
      (t.dropEvidence (explainRebinding binding)).entry.current from rfl,
      h.rebind_current hb] at hr
    cases hr
  · obtain ⟨g, gs, e, s, rfl, -⟩ := hcount.counters
    have hshape : ((Edit.withCounters (t.dropEvidence (explainPublication request.observation))
        g gs e s).accept request.observation).entry.shape = t.entry.shape := by
      unfold LinkEntry.shape
      rw [← Edit.dropEvidence_record t (explainPublication request.observation)]
      rfl
    intro r hr
    rcases List.mem_append.mp ((mem_sortBy _).mp hr) with hr | hr
    · exact (h r (List.mem_of_mem_filter hr)).congr hshape
    · rw [List.mem_singleton.mp hr]
      exact (hadmitted.supports _).congr hshape
  · obtain ⟨g, gs, e, s, rfl, -⟩ := hcount.counters
    obtain ⟨_, _, -, heq⟩ := Edit.enterRetired_eq _ request
    rw [heq]
    intro r hr
    have := List.mem_filter.mp hr
    simp [explainRetirement] at this

theorem Steps.supported {allow : Kind → Prop} {impl impl' : Impl} (hsteps : Steps allow impl impl')
    (h : ∀ link entry, impl.entryOf link = some entry → entry.Supported) :
    ∀ link entry, impl'.entryOf link = some entry → entry.Supported := by
  refine hsteps.entries (Q := fun _ entry => entry.Supported) (fun _ impl binding t _ hcount => ?_)
    (fun _ _ _ hstep h => hstep.supported h) h
  obtain ⟨_, _, _, _, _, -, -, heq⟩ := hcount.bind_eq
  rw [heq]
  intro r hr
  cases hr

/-! ## Referenced links -/

/-- The reference is to a bound and live link, at its generation. -/
def Impl.Pins (impl : Impl) (backing : BackingReference) : Prop :=
  ∃ binding, impl.shape backing.link = some (false, binding) ∧
    binding.topologyGeneration = backing.generation

theorem backingStale_eq_none {impl : Impl} {binding : TopologyBinding} :
    backingStale impl binding = none ↔ ∀ backing ∈ binding.backingLinks, impl.Pins backing := by
  unfold backingStale
  rw [List.findSome?_eq_none_iff]
  refine forall₂_congr fun backing _ => ?_
  unfold backingProblem Impl.Pins Impl.shape
  cases impl.entryOf backing.link with
  | none => simp
  | some entry =>
    by_cases hr : entry.record.state = .retired
    · simp [hr, LinkEntry.shape]
    · by_cases hg : entry.record.binding.topologyGeneration = backing.generation <;>
        simp [hr, hg, LinkEntry.shape]

/-- The references of a link hold, if it has current evidence. -/
def Impl.BackedAt (impl : Impl) (link : LinkId) : Prop :=
  impl.currentEvidence link ≠ [] → ∀ entry, impl.entryOf link = some entry →
    ∀ backing ∈ entry.record.binding.backingLinks, impl.Pins backing

/-- The references of every link with current evidence hold. -/
def Impl.Backed (impl : Impl) : Prop := ∀ link, impl.BackedAt link

theorem Impl.BackedAt.congr {impl impl' : Impl} {link : LinkId} (h : impl.BackedAt link)
    (hevidence : impl'.currentEvidence link ⊆ impl.currentEvidence link)
    (hshape : impl'.shape link = impl.shape link)
    (hpins : ∀ entry, impl.entryOf link = some entry →
      ∀ backing ∈ entry.record.binding.backingLinks, impl.Pins backing → impl'.Pins backing) :
    impl'.BackedAt link := by
  intro hne entry' hentry' backing hb
  obtain ⟨record, hrecord⟩ := List.exists_mem_of_ne_nil _ hne
  have hne := List.ne_nil_of_mem (hevidence hrecord)
  unfold Impl.shape at hshape
  rw [hentry'] at hshape
  obtain ⟨entry, hentry, heq⟩ := Option.map_eq_some_iff.mp hshape.symm
  have hbinding : entry.record.binding = entry'.record.binding := (Prod.mk.inj heq).2
  rw [← hbinding] at hb
  exact hpins entry hentry backing hb (h hne entry hentry backing hb)

/-- Steps that keep the shapes and bring no evidence keep the references. -/
theorem Steps.backedAt {allow : Kind → Prop} (hp : ¬ allow .publish) (hn : ¬ allow .bind)
    (hb : ¬ allow .rebind) (hr : ¬ allow .retire) {impl impl' : Impl}
    (hsteps : Steps allow impl impl') {link : LinkId} (h : impl.BackedAt link) :
    impl'.BackedAt link := by
  refine h.congr (hsteps.evidence_subset hp link) (hsteps.shape hn hb hr link) fun _ _ _ _ hp => ?_
  unfold Impl.Pins
  rw [hsteps.shape hn hb hr]
  exact hp

/-- A purged dependent keeps its evidence only if its references hold. -/
theorem purgeLink_backedAt {impl : Impl} {link : LinkId}
    (hlive : ∀ link entry, impl.entryOf link = some entry → entry.Supported) :
    (impl.purgeLink explainStaleDependent .topologyInvalidation (lit "backing") link).BackedAt
      link := by
  intro hne entry' hentry' backing hb
  have hsteps : Steps (fun _ => False) impl _ :=
    purgeLink_steps impl explainStaleDependent_final .topologyInvalidation (lit "backing") link
  obtain ⟨record, hrecord⟩ := List.exists_mem_of_ne_nil _ hne
  obtain ⟨entry, hentry, hmem, hexplain⟩ := purgeLink_currentEvidence hrecord
  have hshape := hsteps.shape id id id link
  unfold Impl.shape at hshape
  rw [hentry, hentry', Option.map_some, Option.map_some, Option.some.injEq] at hshape
  unfold explainStaleDependent at hexplain
  rw [if_neg (hlive link entry hentry record hmem).live, Option.map_eq_none_iff,
    backingStale_eq_none] at hexplain
  have hbinding : entry'.record.binding = entry.record.binding := (Prod.mk.inj hshape).2
  rw [hbinding] at hb
  unfold Impl.Pins
  rw [hsteps.shape id id id]
  exact hexplain backing hb

/-- The loop over the dependents of a link restores the references, if those of the other links
hold. -/
theorem invalidateStaleDependents_backed {impl : Impl} (hindexed : Indexed impl)
    (hlive : ∀ link entry, impl.entryOf link = some entry → entry.Supported) (backing : LinkId)
    (hothers : ∀ link, ¬ impl.Has (LinkEntry.DependsOn backing) link → impl.BackedAt link) :
    (impl.invalidateStaleDependents backing).Backed := by
  have hfold (links : List LinkId) (impl : Impl)
      (hlive : ∀ link entry, impl.entryOf link = some entry → entry.Supported)
      (hothers : ∀ link, link ∉ links → impl.BackedAt link) :
      (links.foldl (Impl.purgeLink explainStaleDependent .topologyInvalidation (lit "backing"))
        impl).Backed := by
    induction links generalizing impl with
    | nil => exact fun link => hothers link (by simp)
    | cons head links ih =>
      have hsteps : Steps (fun _ => False) impl _ :=
        purgeLink_steps impl explainStaleDependent_final .topologyInvalidation (lit "backing") head
      refine ih _ (hsteps.supported hlive) fun link hl => ?_
      by_cases hh : link = head
      · rw [hh]; exact purgeLink_backedAt hlive
      · exact hsteps.backedAt id id id id (hothers link (by simp [hh, hl]))
  refine hfold _ impl hlive fun link hl => hothers link fun hd => hl ?_
  rw [mem_listing]
  exact (hindexed.dependents backing link).mpr hd

/-! ## Operations -/

section Operations

variable {impl : Impl} {link : LinkId} {entry : LinkEntry}

/-- An edit that leaves no evidence on its link breaks only the references to the link. -/
theorem EditSteps.backedAt {allow : Kind → Prop} {t : Edit} (hbacked : impl.Backed)
    (hsteps : EditSteps allow link ⟨impl, entry⟩ t) (hempty : t.entry.current = []) (l : LinkId)
    (hl : ¬ (t.commit link).Has (LinkEntry.DependsOn link) l) : (t.commit link).BackedAt l := by
  have hentry (x : LinkId) (hx : x ≠ link) : (t.commit link).entryOf x = impl.entryOf x := by
    rw [commit_entryOf, if_neg hx, hsteps.frame.entryOf]
  by_cases hlink : l = link
  · intro hne
    rw [currentEvidence_commit, if_pos hlink] at hne
    exact absurd hempty hne
  · refine (hbacked l).congr ?_ ?_ fun e he backing hb hp => ?_
    · unfold Impl.currentEvidence
      rw [hentry l hlink]
      exact List.Subset.refl _
    · unfold Impl.shape
      rw [hentry l hlink]
    · have hne : backing.link ≠ link := by
        rintro rfl
        exact hl ⟨e, by rw [hentry l hlink, he], List.mem_map.mpr ⟨backing, hb, rfl⟩⟩
      unfold Impl.Pins Impl.shape at hp ⊢
      rw [hentry _ hne]
      exact hp

variable (hindexed : Indexed impl)
  (hsupported : ∀ link entry, impl.entryOf link = some entry → entry.Supported)
  (hbacked : impl.Backed)

include hindexed hsupported hbacked

/-- Rebinding restores the references to the link, when no counter is exhausted. -/
theorem applyRebinding_backed {binding : TopologyBinding} (hentry : impl.entryOf link = some entry)
    (hb : Rebinds link entry binding) (reason : Text)
    (hu : (Edit.applyRebinding ⟨impl, entry⟩ link binding reason).1.Unsaturated) :
    (Edit.applyRebinding ⟨impl, entry⟩ link binding reason).1.Backed := by
  obtain ⟨t, u, publication, changed, hc, hr, heq⟩ := applyRebinding_of_unsaturated hb.live hu
  have hrebind : EditSteps (· = .rebind) link ⟨impl, entry⟩ _ :=
    .single (.rebind _ (by exact rfl) binding hb)
  have hrecompute : EditSteps (· = .rebind) link t.stampGlobal.raiseTopology _ :=
    recomputeLink_steps t.stampGlobal.raiseTopology .topologyInvalidation publication .null
  rw [hr] at hrecompute
  have hrest : EditSteps (· = .rebind) link _ u :=
    (advanceAll_steps (by decide) hc).trans (.head (.stamp t) (.head (.raise _) hrecompute))
  have hempty : u.entry.current = [] := by
    refine List.subset_nil.mp ?_
    have hsub := hrest.current_subset nofun
    rw [← (hsupported link entry hentry).rebind_current (t := ⟨impl, entry⟩) hb]
    exact hsub
  have hsteps : EditSteps (· = .rebind) link ⟨impl, entry⟩ u := hrebind.trans hrest
  have hchange : Steps (· = .rebind) impl (u.commit link) := .single (.edit hentry hsteps)
  have hindexed' := hindexed.steps hchange
  rw [heq, (slotted_commit hindexed'.slotted).link_eq]
  exact invalidateStaleDependents_backed hindexed' (hchange.supported hsupported) link
    (hsteps.backedAt hbacked hempty)

/-- Retirement restores the references to the link, when no counter is exhausted. -/
theorem retire_backed {request : RetireLinkRequest}
    (hentry : impl.entryOf request.link = some entry) (hlive : entry.record.state ≠ .retired)
    (hu : (Edit.retire ⟨impl, entry⟩ request).1.Unsaturated) :
    (Edit.retire ⟨impl, entry⟩ request).1.Backed := by
  obtain ⟨t, hc, heq⟩ := retire_of_unsaturated hu
  obtain ⟨hcount, hpos⟩ := advanceAll_retirement _ hc
  have hsteps : EditSteps (· = .retire) request.link ⟨impl, entry⟩ _ :=
    .single (.retire (by exact rfl) request hlive hcount (hpos rfl))
  have hempty : (Edit.enterRetired { t.stampGlobal with
      entry.record.provenanceDigest := digestEvidenceSet t.entry.current } request).entry.current =
        [] := by
    obtain ⟨g, gs, e, s, rfl, -⟩ := hcount.counters
    obtain ⟨_, _, -, hretired⟩ := Edit.enterRetired_eq _ request
    rw [hretired]
    exact List.filter_eq_nil_iff.mpr (by simp [explainRetirement])
  have hchange : Steps (· = .retire) impl _ := .single (.edit hentry hsteps)
  have hindexed' := hindexed.steps hchange
  have hlink := (slotted_commit hindexed'.slotted).link_eq
  rw [Edit.enterRetired_binding] at hlink
  rw [heq, show t.entry.record.binding.link = request.link from hlink]
  exact invalidateStaleDependents_backed hindexed' (hchange.supported hsupported) request.link
    (hsteps.backedAt hbacked hempty)

omit hindexed hsupported in
/-- A new link has no evidence, and no link with evidence references it. -/
theorem bindNew_backed {binding : TopologyBinding} (hnew : impl.entryOf binding.link = none) :
    (impl.bindNew binding).1.Backed := by
  unfold Impl.bindNew
  split
  · exact hbacked
  split
  · exact hbacked
  rename_i t hc
  have hcount := Edit.advanceAll_advances [.global] (by decide) ⟨impl, newEntry binding⟩
  rw [hc] at hcount
  obtain ⟨_, _, _, _, _, -, -, heq⟩ := hcount.bind_eq
  rw [heq]
  intro l
  by_cases hl : l = binding.link
  · intro hne
    rw [currentEvidence_commit, if_pos hl] at hne
    exact absurd rfl hne
  have hother (x : LinkId) (hx : x ≠ binding.link) (t : Edit) (himpl : t.impl.entryOf x = impl.entryOf x) :
      (t.commit binding.link).entryOf x = impl.entryOf x := by
    rw [commit_entryOf, if_neg hx, himpl]
  refine (hbacked l).congr ?_ ?_ fun _ _ backing _ hp => ?_
  · unfold Impl.currentEvidence
    rw [hother l hl _ rfl]
    exact List.Subset.refl _
  · unfold Impl.shape
    rw [hother l hl _ rfl]
  · have hne : backing.link ≠ binding.link := by
      -- Nothing can have pinned a link that was not bound.
      intro hb
      obtain ⟨_, hshape, -⟩ := hp
      unfold Impl.shape at hshape
      rw [hb, hnew] at hshape
      cases hshape
    unfold Impl.Pins Impl.shape at hp ⊢
    rw [hother _ hne _ rfl]
    exact hp

omit hindexed hsupported in
/-- A publication is admitted only while the references of its link hold. -/
theorem publishEvidence_backed (request : PublishEvidenceRequest) :
    (impl.publishEvidence request).1.Backed := by
  have hsteps : Steps (· = .publish) impl _ := publishEvidence_steps impl (by exact rfl) request
  have hshape := hsteps.shape nofun nofun nofun
  have hpins (backing : BackingReference) (hp : impl.Pins backing) :
      (impl.publishEvidence request).1.Pins backing := by
    unfold Impl.Pins
    rw [hshape]
    exact hp
  rcases publishEvidence_currentEvidence impl request with hsub | ⟨entry, _, h, hevidence⟩
  · exact fun l => (hbacked l).congr (hsub l) (hshape l) fun _ _ backing _ => hpins backing
  intro l
  by_cases hl : l = request.observation.key.link
  · intro _ entry' hentry' backing hb
    have hbinding := hshape l
    unfold Impl.shape at hbinding
    rw [hentry', hl, h.bound, Option.map_some, Option.map_some, Option.some.injEq] at hbinding
    rw [show entry'.record.binding = entry.record.binding from (Prod.mk.inj hbinding).2] at hb
    exact hpins backing (backingStale_eq_none.mp h.backing backing hb)
  · refine (hbacked l).congr (fun r hr => ?_) (hshape l) fun _ _ backing _ => hpins backing
    exact ((hevidence l r hr).resolve_right fun h => hl h.1).1

theorem bindLink_backed {request : BindLinkRequest} (hu : (impl.bindLink request).1.Unsaturated) :
    (impl.bindLink request).1.Backed := by
  unfold Impl.bindLink at hu ⊢
  dsimp only at hu ⊢
  split
  · exact hbacked
  rename_i hvalid
  have hwf := wellFormed_of_validBinding hvalid
  rw [hvalid] at hu
  dsimp only at hu
  split
  · rename_i hnew
    exact bindNew_backed hbacked hnew
  rename_i entry hentry
  rw [hentry] at hu
  dsimp only at hu
  split_ifs at hu ⊢ with hlive hle heq hsame
  · exact hbacked
  · exact hbacked
  · exact hbacked
  · exact hbacked
  · exact applyRebinding_backed hindexed hsupported hbacked hentry
      ⟨hlive, .inl rfl, lt_of_le_of_ne (not_lt.mp hle) (Ne.symm heq), fun _ => hwf⟩ _ hu

theorem supersedeTopology_backed {request : SupersedeTopologyRequest}
    (hu : (impl.supersedeTopology request).1.Unsaturated) :
    (impl.supersedeTopology request).1.Backed := by
  unfold Impl.supersedeTopology at hu ⊢
  split
  · exact hbacked
  rename_i hvalid
  rw [if_neg hvalid] at hu
  split
  · exact hbacked
  rename_i entry hentry
  rw [hentry] at hu
  dsimp only at hu ⊢
  split
  · exact hbacked
  rename_i hlive
  rw [if_neg hlive] at hu
  split
  · exact hbacked
  rename_i hnewer
  rw [if_neg hnewer] at hu
  split
  · exact hbacked
  rename_i binding hbinding
  rw [hbinding] at hu
  exact applyRebinding_backed hindexed hsupported hbacked hentry
    (rebinds_of_superseding hlive (by simpa using hnewer) hbinding) _ hu

theorem retireLink_backed {request : RetireLinkRequest}
    (hu : (impl.retireLink request).1.Unsaturated) : (impl.retireLink request).1.Backed := by
  unfold Impl.retireLink at hu ⊢
  split
  · exact hbacked
  rename_i hvalid
  rw [if_neg hvalid] at hu
  split
  · exact hbacked
  rename_i entry hentry
  rw [hentry] at hu
  dsimp only at hu
  split
  · exact hbacked
  rename_i hauthorized
  rw [hauthorized] at hu
  dsimp only at hu
  split_ifs at hu ⊢ with hretired hstale hlegal
  · exact hbacked
  · exact hbacked
  · exact hbacked
  · exact retire_backed hindexed hsupported hbacked hentry hretired hu

/-- Every operation but a load restores the references, when no counter is exhausted. -/
theorem Impl.Backed.apply {op : Op} (hload : op.isLoad = false)
    (hu : (impl.apply op).Unsaturated) : (impl.apply op).Backed := by
  have hother {allow : Kind → Prop} (hp : ¬ allow .publish) (hn : ¬ allow .bind)
      (hb : ¬ allow .rebind) (hr : ¬ allow .retire) {impl' : Impl} (h : Steps allow impl impl') :
      impl'.Backed := fun link => h.backedAt hp hn hb hr (hbacked link)
  cases op with
  | bindLink request => exact bindLink_backed hindexed hsupported hbacked hu
  | supersedeTopology request => exact supersedeTopology_backed hindexed hsupported hbacked hu
  | retireLink request => exact retireLink_backed hindexed hsupported hbacked hu
  | publishEvidence request => exact publishEvidence_backed hbacked request
  | load => cases hload
  | _ => exact hother nofun nofun nofun nofun (apply_steps impl hload)

end Operations

/-! ## Reachable engines -/

/-- The evidence of every link of a reachable engine supports its entry. -/
theorem Impl.Reachable.supported {impl : Impl} (h : impl.Reachable) :
    ∀ link entry, impl.entryOf link = some entry → entry.Supported := by
  refine h.invariant (P := fun impl => ∀ link entry, impl.entryOf link = some entry →
    entry.Supported) ?_ fun impl op hsupported _ => ?_
  · rintro _ ⟨config, rfl⟩ link entry he
    rw [Impl.entryOf_create] at he
    cases he
  cases hload : op.isLoad with
  | false => exact (apply_steps impl hload).supported hsupported
  | true =>
    cases op with
    | load config steps file =>
      intro link entry he
      change (impl.load config steps file).1.entryOf link = some entry at he
      rcases load_cases impl config steps file with ⟨_, -, heq⟩ | ⟨_, payload, _, -, hdecode, heq, -⟩
      · rw [heq] at he; exact hsupported link entry he
      · rw [heq] at he
        obtain ⟨_, -, -, hr⟩ := recover_entryOf impl (decodeJournal_decoded hdecode) he
        intro record hrecord
        rw [hr.current] at hrecord
        cases hrecord
    | _ => cases hload

/-- The references hold in a reachable engine with no exhausted counter. -/
theorem Impl.Reachable.backed {impl : Impl} (h : impl.Reachable) :
    impl.Unsaturated → impl.Backed := by
  refine h.invariant_of (P := fun impl => impl.Unsaturated → impl.Backed)
    (Q := fun impl => Indexed impl ∧ ∀ link entry, impl.entryOf link = some entry → entry.Supported)
    (fun _ h => ⟨Impl.Reachable.indexed h, Impl.Reachable.supported h⟩) ?_
    fun impl op ⟨hindexed, hsupported⟩ hbacked _ hu => ?_
  · rintro _ ⟨config, rfl⟩ _ link hne
    unfold Impl.currentEvidence at hne
    rw [Impl.entryOf_create] at hne
    exact absurd rfl hne
  cases hload : op.isLoad with
  | false =>
    exact Impl.Backed.apply hindexed hsupported
      (hbacked (hu.of_le (apply_steps impl hload).le)) hload hu
  | true =>
    cases op with
    | load config steps file =>
      change (impl.load config steps file).1.Backed
      rcases load_currentEvidence impl config steps file with heq | hnil
      · change (impl.load config steps file).1.Unsaturated at hu
        rw [heq] at hu ⊢
        exact hbacked hu
      · intro link hne
        exact absurd (hnil link) hne
    | _ => cases hload

/-- In every reachable engine with no exhausted counter, current evidence is for its link, about
the structure that the link is bound to, and the links that the binding references are live and at
the generation of the reference. -/
theorem evidence_topology_current {impl : Impl} (h : impl.Reachable) (hu : impl.Unsaturated) :
    ∀ link entry, impl.entryOf link = some entry → ∀ record ∈ entry.current,
      record.key.link = link ∧ entry.Supports record ∧
      ∀ backing ∈ entry.record.binding.backingLinks, ∃ backer,
        impl.entryOf backing.link = some backer ∧ backer.record.state ≠ .retired ∧
        backer.record.binding.topologyGeneration = backing.generation := by
  intro link entry hentry record hrecord
  refine ⟨(h.indexed.slotted link entry hentry).key_link record hrecord,
    h.supported link entry hentry record hrecord, fun backing hb => ?_⟩
  have hne : impl.currentEvidence link ≠ [] := by
    unfold Impl.currentEvidence
    rw [hentry]
    exact List.ne_nil_of_mem hrecord
  obtain ⟨binding, hshape, hgeneration⟩ := h.backed hu link hne entry hentry backing hb
  obtain ⟨backer, hbacker, heq⟩ := Option.map_eq_some_iff.mp hshape
  obtain ⟨hlive, rfl⟩ := Prod.mk.inj heq
  exact ⟨backer, hbacker, by simpa using hlive, hgeneration⟩

theorem evidence_topology_current_sample :
    ∃ entry, Sample.engine.entryOf Sample.link = some entry ∧ ∃ record ∈ entry.current,
      record.key.link = Sample.link ∧ entry.Supports record := by
  obtain ⟨record, hrecord⟩ := List.exists_mem_of_ne_nil _
    (show Sample.engine.currentEvidence Sample.link ≠ [] by decide)
  obtain ⟨entry, hentry, hrecord⟩ := Impl.mem_currentEvidence.mp hrecord
  have h := evidence_topology_current Sample.reachable (by decide) Sample.link entry hentry record
    hrecord
  exact ⟨entry, hentry, record, hrecord, h.1, h.2.1⟩

end LinkState
