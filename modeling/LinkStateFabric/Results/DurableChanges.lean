import LinkStateFabric.Engine.Restored
import LinkStateFabric.Results.Atomicity
import LinkStateFabric.Results.Authority
import LinkStateFabric.Results.Generations

/-!
# Changes of durable records

The global generation is meant to tell whether any durable record has changed.

* `Counted`: it does.
* `Impl.Overlooks`: an operation changes a record without it. This is a reconciliation that finds a
  record it has not written itself, or an operation that halts because the global generation is
  exhausted, when the record is changed already.
* `change_counted_iff`: every other operation is counted.
-/

namespace LinkState

open Sorting

/-! ## Durable records -/

/-- Every link has the durable record that it had, with its binding and its state. -/
def SameRecords (impl impl' : Impl) : Prop :=
  ∀ link, (impl'.entryOf link).map (·.record) = (impl.entryOf link).map (·.record)

/-- Where the global generation is the same, so are the durable records. -/
def Counted (impl impl' : Impl) : Prop :=
  impl'.globalGeneration = impl.globalGeneration → SameRecords impl impl'

namespace SameRecords

variable {impl impl' impl'' : Impl}

theorem refl (impl : Impl) : SameRecords impl impl := fun _ => rfl

theorem trans (h : SameRecords impl impl') (h' : SameRecords impl' impl'') :
    SameRecords impl impl'' := fun link => (h' link).trans (h link)

theorem of_links (h : impl'.store.links = impl.store.links) : SameRecords impl impl' := by
  intro link
  unfold Impl.entryOf
  rw [h]

theorem record_eq (h : SameRecords impl impl') {link : LinkId} {entry entry' : LinkEntry}
    (hentry : impl.entryOf link = some entry) (hentry' : impl'.entryOf link = some entry') :
    entry'.record = entry.record := by
  have hsame := h link
  rwa [hentry, hentry', Option.map_some, Option.map_some, Option.some.injEq] at hsame

/-- Only the record of the entry that is stored may have changed. -/
theorem commit_iff {link : LinkId} {entry : LinkEntry} {t : Edit}
    (hentry : impl.entryOf link = some entry) (hlinks : t.impl.store.links = impl.store.links) :
    SameRecords impl (t.commit link) ↔ t.entry.record = entry.record := by
  have hsame : SameRecords impl t.impl := of_links hlinks
  constructor
  · intro h
    exact h.record_eq hentry ((commit_entryOf ..).trans (if_pos rfl))
  · intro hrecord l
    rw [commit_entryOf]
    split
    · rename_i hl
      rw [hl, hentry, Option.map_some, Option.map_some, hrecord]
    · exact hsame l

end SameRecords

theorem Counted.of_lt {impl impl' : Impl} (h : impl.globalGeneration < impl'.globalGeneration) :
    Counted impl impl' := fun heq => absurd h (heq ▸ lt_irrefl _)

theorem Counted.of_links {impl impl' : Impl} (h : impl'.store.links = impl.store.links) :
    Counted impl impl' := fun _ => .of_links h

theorem Declined.counted {impl : Impl} {p : Impl × LinkMutationResult} (h : Declined impl p) :
    Counted impl p.1 := .of_links h.sameLinks.links

/-! ## One link -/

section Link

variable {impl : Impl} {entry : LinkEntry} {link : LinkId} {prepared : PreparedCommit}

theorem dropEvidence_links (t : Edit) (explain : Explanation) :
    (t.dropEvidence explain).impl.store.links = t.impl.store.links := by
  obtain ⟨_, _, heq, -⟩ := Edit.dropEvidence_eq t explain
  rw [heq]
  rfl

theorem releaseLink_eq (t : Edit) (publisher : PublisherId) (link : LinkId) : ∃ publisherLinks,
    t.releaseLink publisher link =
      { t with impl.store.publisherLinks := publisherLinks } := by
  unfold Edit.releaseLink
  split
  · exact ⟨_, rfl⟩
  · exact ⟨_, rfl⟩

theorem commitPrepared_global (t : Edit) (prepared : PreparedCommit) (publication : PublicationId)
    (publisher : PublisherId) : t.impl.globalGeneration ≤
      (t.commitPrepared prepared publication publisher).impl.globalGeneration := by
  have hstates := (Edit.advanceAll_states (t.applyResolution prepared.resolution publication
    publisher)).1
  obtain ⟨g, gs, e, s, heq, hle, -⟩ := hstates.counters
  unfold Edit.commitPrepared
  dsimp only
  split
  · split <;> rename_i hc <;> rw [hc] at heq <;> dsimp only at heq
    · rw [heq]
      exact hle
    · rw [heq]
      exact hle
  · exact le_rfl

/-- An edit that asks for the global generation before it changes the record: the record is as
before, or the generation has advanced. -/
theorem counted_of_global {w : Edit} {impl' : Impl} (cs : List Counter)
    (hentry : impl.entryOf link = some entry) (hlinks : w.impl.store.links = impl.store.links)
    (hrecord : w.entry.record = entry.record) (hcounts : Edit.SameCounts ⟨impl, entry⟩ w)
    (hhalts : ∀ u, w.advanceAll (.global :: cs) = (u, false) → impl' = u.commit link)
    (hends : ∀ u, w.advanceAll (.global :: cs) = (u, true) →
      u.impl.globalGeneration ≤ impl'.globalGeneration) : Counted impl impl' := by
  rcases hc : w.advanceAll (.global :: cs) with ⟨u, b⟩
  cases b with
  | false =>
    rw [hhalts u hc]
    rcases Edit.advanceAll_halts hc with ⟨-, rfl⟩ | ⟨-, hlt⟩
    · exact fun _ => (SameRecords.commit_iff hentry hlinks).mpr hrecord
    · rw [hcounts .global] at hlt
      exact .of_lt hlt
  | true => exact .of_lt ((global_lt hcounts hc List.mem_cons_self).trans_le (hends u hc))

theorem publish_counted {request : PublishEvidenceRequest}
    (h : Admitted impl request entry prepared) :
    Counted impl (Edit.publish ⟨impl, entry⟩ request prepared).1 := by
  refine counted_of_global [.evidence] h.bound (dropEvidence_links ..) (Edit.dropEvidence_record ..)
    (sameCounts_drop _ (explainPublication request.observation)) (fun u hc => ?_) fun u hc => ?_
  · unfold Edit.publish
    dsimp only
    rw [hc]
  · unfold Edit.publish
    dsimp only
    rw [hc]
    refine le_trans ?_ (commitPrepared_global ..)
    obtain ⟨_, _, heq⟩ := Groundwork.noteAcceptance_eq
      (u.stampGlobal.storeEvidence request.observation).impl request.observation.publisher
    unfold Edit.accept
    dsimp only
    rw [heq]
    exact le_rfl

theorem withdraw_counted {request : WithdrawEvidenceRequest} {slot : EvidenceRecord}
    (h : Withdrawable impl request entry slot prepared) :
    Counted impl (Edit.withdraw ⟨impl, entry⟩ request prepared).1 := by
  refine counted_of_global [.evidence] h.bound (dropEvidence_links ..) (Edit.dropEvidence_record ..)
    (sameCounts_drop _ (explainWithdrawal request)) (fun u hc => ?_) fun u hc => ?_
  · unfold Edit.withdraw
    dsimp only
    rw [hc]
  · unfold Edit.withdraw
    dsimp only
    rw [hc]
    refine le_trans ?_ (commitPrepared_global ..)
    unfold Edit.releaseLink
    split <;> exact le_rfl

theorem markRevalidation_counted {request : MarkRevalidationRequest}
    (h : Revalidatable impl request entry prepared) :
    Counted impl (Edit.markRevalidation ⟨impl, entry⟩ request prepared).1 := by
  obtain ⟨observations, dispositions, heq, -⟩ :=
    Edit.dropEvidence_eq ⟨impl, entry⟩ (explainRevalidation request)
  obtain ⟨links, hrelease⟩ := releaseLink_eq (Edit.dropEvidence ⟨impl, entry⟩
    (explainRevalidation request)) request.publisher request.link
  refine counted_of_global [.evidence] (w := ((Edit.dropEvidence ⟨impl, entry⟩
    (explainRevalidation request)).releaseLink request.publisher request.link)) h.bound ?_ ?_ ?_
    (fun u hc => ?_) fun u hc => ?_
  · rw [hrelease, heq]
    rfl
  · rw [hrelease, heq]
    rfl
  · rw [hrelease, heq]
    exact fun c => by cases c <;> rfl
  · unfold Edit.markRevalidation
    rw [hc]
  · unfold Edit.markRevalidation
    rw [hc]
    dsimp only
    refine le_trans ?_ (commitPrepared_global ..)
    exact le_rfl

/-- An intent that is to be imposed is recorded after the generation has advanced. -/
theorem impose_counted {request : TransitionStateRequest} {intent : Option AdministrativeIntent}
    {detail : Text} (hentry : impl.entryOf request.link = some entry) :
    Counted impl ((Edit.mk impl entry).changeIntent intent request prepared detail).1 := by
  refine counted_of_global [] hentry rfl rfl (fun _ => rfl) (fun u hc => ?_) fun u hc => ?_
  · unfold Edit.changeIntent
    rw [hc]
  · unfold Edit.changeIntent
    rw [hc]
    dsimp only
    refine le_trans ?_ (commitPrepared_global ..)
    exact le_rfl

/-- No counter goes back. -/
theorem le_advanceAll (cs : List Counter) (t : Edit) (c : Counter) :
    t.count c ≤ (t.advanceAll cs).1.count c := by
  rcases hc : t.advanceAll cs with ⟨u, b⟩
  cases b with
  | false =>
    obtain ⟨before, _, _, -, hbefore, -⟩ := Edit.advanceAll_stops hc
    rw [Edit.advanceAll_count hbefore c]
    exact Nat.le_add_right ..
  | true =>
    rw [Edit.advanceAll_count hc c]
    exact Nat.le_add_right ..

/-- An exhausted global generation stays what it is. -/
theorem global_eq_of_spent {impl' : Impl} (h : Edit.Spent ⟨impl, entry⟩ .global)
    (hle : impl.globalGeneration ≤ impl'.globalGeneration) :
    impl'.globalGeneration = impl.globalGeneration := by
  have hspent : impl.globalGeneration.value = 2 ^ 64 - 1 := h
  have hbounded := impl'.globalGeneration.bounded
  have hvalue : impl.globalGeneration.value ≤ impl'.globalGeneration.value := hle
  exact StrongGeneration.ext (by omega)

/-- An intent that is to be lifted is gone before the generation is asked for. -/
theorem lift_counted_iff {request : TransitionStateRequest} {detail : Text}
    (h : Liftable impl request entry prepared) :
    Counted impl ((Edit.mk impl { entry with record.adminIntent := none }).changeIntent none request
      prepared detail).1 ↔ ¬ Edit.Spent ⟨impl, entry⟩ .global := by
  have hcounts := sameCounts_lift impl entry
  unfold Edit.changeIntent
  split
  · rename_i u hc
    have hspent : Edit.Spent ⟨impl, entry⟩ .global := by
      by_contra hspent
      exact not_halted hcounts (by decide) (by simp [hspent]) hc
    refine iff_of_false (fun hcounted => ?_) (not_not.mpr hspent)
    rcases Edit.advanceAll_halts hc with ⟨-, rfl⟩ | ⟨hno, -⟩
    · have hrecord := (SameRecords.commit_iff h.bound rfl).mp (hcounted rfl)
      exact h.intent (congrArg (·.adminIntent) hrecord).symm
    · exact hno ((spent_congr hcounts).mpr hspent)
  · rename_i u hc
    have hglobal : impl.globalGeneration < u.impl.globalGeneration :=
      global_lt hcounts hc (by decide)
    refine iff_of_true (.of_lt (hglobal.trans_le ?_))
      (mt (spent_congr hcounts).mpr (Edit.not_spent_of_advanceAll hc (by decide)))
    refine le_trans ?_ (commitPrepared_global ..)
    exact le_rfl

/-- An edit that asks for the evidence generation first, and for the global generation second. -/
theorem evidence_first_cases {w u : Edit} {cs : List Counter} {b : Bool}
    (hcounts : Edit.SameCounts ⟨impl, entry⟩ w)
    (hc : w.advanceAll (.evidence :: .global :: cs) = (u, b)) :
    Edit.Spent ⟨impl, entry⟩ .evidence ∧ b = false ∧ u = w ∨
    ¬ Edit.Spent ⟨impl, entry⟩ .evidence ∧ Edit.Spent ⟨impl, entry⟩ .global ∧ b = false ∧
      u.impl.globalGeneration = impl.globalGeneration ∧
      u.entry.record.evidenceGeneration ≠ entry.record.evidenceGeneration ∨
    ¬ Edit.Spent ⟨impl, entry⟩ .evidence ∧ ¬ Edit.Spent ⟨impl, entry⟩ .global ∧
      impl.globalGeneration < u.impl.globalGeneration := by
  have hle := le_advanceAll (.evidence :: .global :: cs) w
  rw [hc] at hle
  -- The evidence counter moves first, and stays moved where the global one cannot follow.
  rw [Edit.advanceAll] at hc
  split at hc
  · rename_i hnone
    cases hc
    exact .inl ⟨(spent_congr hcounts).mp (Edit.advance_eq_none.mp hnone), rfl, rfl⟩
  rename_i v hv
  have hevidence : ¬ Edit.Spent ⟨impl, entry⟩ .evidence := fun hspent => by
    rw [Edit.advance_eq_none.mpr ((spent_congr hcounts).mpr hspent)] at hv
    cases hv
  have hcount := Edit.advance_count hv
  refine .inr ?_
  rw [Edit.advanceAll] at hc
  split at hc
  · rename_i hnone
    cases hc
    have hglobal : Edit.Spent ⟨impl, entry⟩ .global := by
      have hspent := Edit.advance_eq_none.mp hnone
      unfold Edit.Spent at hspent ⊢
      rw [← hspent, hcount .global, hcounts .global]
      rfl
    refine .inl ⟨hevidence, hglobal, rfl, global_eq_of_spent hglobal ?_, fun heq => ?_⟩
    · have := hle .global
      rw [hcounts .global] at this
      exact this
    · have hsame : u.count .evidence = Edit.count ⟨impl, entry⟩ .evidence :=
        congrArg (·.value) heq
      have := hcount .evidence
      rw [if_pos rfl, hcounts .evidence, hsame] at this
      omega
  · rename_i v' hv'
    refine .inr ⟨hevidence, fun hspent => ?_, ?_⟩
    · have : v.Spent .global := by
        unfold Edit.Spent at hspent ⊢
        rw [hcount .global, hcounts .global, hspent]
        rfl
      rw [Edit.advance_eq_none.mpr this] at hv'
      cases hv'
    · have hlater := le_advanceAll cs v' .global
      rw [hc, Edit.advance_count hv' .global, if_pos rfl, hcount .global, hcounts .global] at hlater
      exact Nat.lt_of_lt_of_le (Nat.lt_succ_self _) hlater

theorem advanceAll_links (cs : List Counter) (t : Edit) :
    (t.advanceAll cs).1.impl.store.links = t.impl.store.links := by
  obtain ⟨_, _, _, _, heq⟩ := Edit.advanceAll_withCounters cs t
  rw [heq]
  rfl

/-- The evidence generation of a link that is to be retired advances before the global generation.
-/
theorem retire_counted_iff {request : RetireLinkRequest} (h : Retirable impl request entry) :
    Counted impl (Edit.retire ⟨impl, entry⟩ request).1 ↔
      ¬ (¬ Edit.Spent ⟨impl, entry⟩ .evidence ∧ Edit.Spent ⟨impl, entry⟩ .global) := by
  have hcounts := sameCounts_drop ⟨impl, entry⟩ explainRetirement
  rcases hc : (Edit.dropEvidence ⟨impl, entry⟩ explainRetirement).advanceAll
    [.evidence, .global, .state, .globalState] with ⟨u, b⟩
  have hlinks : u.impl.store.links = impl.store.links := by
    have := advanceAll_links [.evidence, .global, .state, .globalState]
      (Edit.dropEvidence ⟨impl, entry⟩ explainRetirement)
    rw [hc] at this
    exact this.trans (dropEvidence_links ..)
  unfold Edit.retire
  rw [hc]
  -- The record has changed without a count where the first counter moved alone.
  rcases evidence_first_cases hcounts hc with
    ⟨hevidence, rfl, rfl⟩ | ⟨hevidence, hglobal, rfl, hsame, hne⟩ | ⟨-, hglobal, hlt⟩
  · refine iff_of_true (fun _ => ?_) fun h => h.1 hevidence
    exact (SameRecords.commit_iff h.bound hlinks).mpr (Edit.dropEvidence_record ..)
  · refine iff_of_false (fun hcounted => ?_) (not_not.mpr ⟨hevidence, hglobal⟩)
    have hrecord := (SameRecords.commit_iff h.bound hlinks).mp (hcounted hsame)
    exact hne (congrArg (·.evidenceGeneration) hrecord)
  · refine iff_of_true (.of_lt (hlt.trans_le ?_)) fun h => hglobal h.2
    cases b with
    | false => exact le_rfl
    | true =>
      dsimp only
      generalize hv : Edit.enterRetired _ request = v
      have hsteps : Steps (fun _ => True) (v.commit request.link) _ :=
        invalidateStaleDependents_steps (v.commit request.link) v.entry.record.binding.link
      refine le_trans ?_ hsteps.le.globalGeneration
      rw [← hv]
      exact le_rfl

theorem recomputeLink_global (t : Edit) (trigger : TransitionTrigger) (publication : PublicationId)
    (publisher : PublisherId) : t.impl.globalGeneration ≤
      (t.recomputeLink trigger publication publisher).1.impl.globalGeneration := by
  unfold Edit.recomputeLink
  dsimp only
  split
  · exact commitPrepared_global ..
  · exact le_rfl

/-- A link has its new binding before the global generation is asked for. -/
theorem rebinding_counted_iff {binding : TopologyBinding} (h : Rebindable impl link entry binding)
    (reason : Text) : Counted impl (Edit.applyRebinding ⟨impl, entry⟩ link binding reason).1 ↔
      ¬ (Edit.Spent ⟨impl, entry⟩ .evidence ∨ Edit.Spent ⟨impl, entry⟩ .global) := by
  obtain ⟨store, dispositions, hrebind⟩ := rebind_eq impl entry binding
  have hcounts := sameCounts_rebind impl entry binding
  unfold Edit.applyRebinding
  dsimp only
  rcases hc : ((Edit.dropEvidence ⟨impl, entry⟩ (explainRebinding binding)).rebind
    binding).advanceAll [.evidence, .global] with ⟨u, b⟩
  -- The binding is changed before anything is counted.
  have hbound (hsame : u.impl.globalGeneration = impl.globalGeneration) :
      ¬ Counted impl (u.commit link) := fun hcounted => by
    have hlinks := advanceAll_links [.evidence, .global]
      ((Edit.dropEvidence ⟨impl, entry⟩ (explainRebinding binding)).rebind binding)
    obtain ⟨g, gs, e, s, hu⟩ := Edit.advanceAll_withCounters [.evidence, .global]
      ((Edit.dropEvidence ⟨impl, entry⟩ (explainRebinding binding)).rebind binding)
    rw [hc] at hlinks hu
    have hrecord := (SameRecords.commit_iff h.bound
      (hlinks.trans (dropEvidence_links ..))).mp (hcounted hsame)
    have hbinding : u.entry.record.binding = binding := by
      dsimp only at hu
      rw [hu, hrebind]
      rfl
    have hnewer := h.newer
    rw [← hbinding, hrecord] at hnewer
    exact lt_irrefl _ hnewer
  rcases evidence_first_cases hcounts hc with
    ⟨hevidence, rfl, rfl⟩ | ⟨-, hglobal, rfl, hsame, -⟩ | ⟨hevidence, hglobal, hlt⟩
  · refine iff_of_false (hbound ?_) (not_not.mpr (.inl hevidence))
    rw [hrebind]
  · exact iff_of_false (hbound hsame) (not_not.mpr (.inr hglobal))
  · refine iff_of_true (.of_lt (hlt.trans_le ?_)) (not_or.mpr ⟨hevidence, hglobal⟩)
    cases b with
    | false => exact absurd hc (not_halted hcounts (by decide) (by simp [hevidence, hglobal]))
    | true =>
      obtain ⟨tg, -, hraise⟩ := u.stampGlobal.raiseTopology_eq
      have hglobal : u.impl.globalGeneration ≤
          u.stampGlobal.raiseTopology.impl.globalGeneration := by
        rw [hraise]
        exact le_rfl
      have hle := hglobal.trans (recomputeLink_global u.stampGlobal.raiseTopology
        .topologyInvalidation (.fromValidated (publicationIdFor (lit "topology")
          u.stampGlobal.raiseTopology.impl.globalGeneration.value)) .null)
      dsimp only
      split
      all_goals
        rename_i v _ hrecompute
        rw [hrecompute] at hle
      · have hsteps : Steps (fun _ => True) (v.commit link) _ :=
          invalidateStaleDependents_steps (v.commit link) v.entry.record.binding.link
        exact hle.trans hsteps.le.globalGeneration
      · exact hle

/-- A link is bound for the first time when the global generation has advanced. -/
theorem bindNew_counted (binding : TopologyBinding) : Counted impl (impl.bindNew binding).1 := by
  unfold Impl.bindNew
  split
  · exact .of_links rfl
  split
  · exact .of_links rfl
  · rename_i u hc
    refine .of_lt ?_
    obtain ⟨tg, -, hraise⟩ := u.stampGlobal.stampTransition.indexNew.raiseTopology_eq
    have hlt := global_lt (t := ⟨impl, newEntry binding⟩) (fun _ => rfl) hc (by decide)
    dsimp only
    rw [hraise]
    exact hlt

end Link

/-! ## Fences -/

section Fences

variable {impl impl' impl'' : Impl} {gone gone' : EvidenceRecord → Prop}

/-- Evidence that is to go is current on a link with evidence generations left, and the global
generation is exhausted. -/
def Impl.Strips (impl : Impl) (gone : EvidenceRecord → Prop) : Prop :=
  impl.globalGeneration.saturated = true ∧ ∃ link entry, impl.entryOf link = some entry ∧
    entry.record.evidenceGeneration.saturated = false ∧ ∃ record ∈ entry.current, gone record

/-- Nothing has changed but that there may be less evidence. -/
structure Idle (impl impl' : Impl) : Prop where
  records : SameRecords impl impl'
  globalGeneration : impl'.globalGeneration = impl.globalGeneration
  evidence : ∀ link, impl'.currentEvidence link ⊆ impl.currentEvidence link

/-- What is known of a loop of fences: it was idle, or the global generation has advanced, or it had
to strip a link. -/
def Impl.Strains (impl : Impl) (gone : EvidenceRecord → Prop) (impl' : Impl) : Prop :=
  Idle impl impl' ∨ impl.globalGeneration < impl'.globalGeneration ∨ impl.Strips gone

theorem Idle.refl (impl : Impl) : Idle impl impl := ⟨.refl impl, rfl, fun _ _ h => h⟩

theorem Idle.trans (h : Idle impl impl') (h' : Idle impl' impl'') : Idle impl impl'' :=
  ⟨h.records.trans h'.records, h'.globalGeneration.trans h.globalGeneration,
    fun link _ hr => h.evidence link (h'.evidence link hr)⟩

theorem SameLinks.idle (h : SameLinks impl impl') : Idle impl impl' :=
  ⟨.of_links h.links, h.globalGeneration, fun link _ hr => h.currentEvidence link ▸ hr⟩

theorem Impl.Strips.mono (h : impl.Strips gone) (himp : ∀ r, gone r → gone' r) :
    impl.Strips gone' := by
  obtain ⟨hspent, link, entry, hentry, hleft, record, hrecord, hgone⟩ := h
  exact ⟨hspent, link, entry, hentry, hleft, record, hrecord, himp record hgone⟩

/-- What is stripped after an idle step was there before it. -/
theorem Idle.strips (h : Idle impl impl') (hstrips : impl'.Strips gone) : impl.Strips gone := by
  obtain ⟨hspent, link, entry', hentry', hleft, record, hrecord, hgone⟩ := hstrips
  have hmem := h.evidence link (Impl.mem_currentEvidence.mpr ⟨entry', hentry', hrecord⟩)
  obtain ⟨entry, hentry, hrecord⟩ := Impl.mem_currentEvidence.mp hmem
  rw [h.globalGeneration] at hspent
  rw [h.records.record_eq hentry hentry'] at hleft
  exact ⟨hspent, link, entry, hentry, hleft, record, hrecord, hgone⟩

theorem Impl.Strains.trans (h : impl.Strains gone impl') (h' : impl'.Strains gone impl'')
    (hle : impl'.globalGeneration ≤ impl''.globalGeneration)
    (hle' : impl.globalGeneration ≤ impl'.globalGeneration) : impl.Strains gone impl'' := by
  rcases h with hidle | hlt | hstrips
  · rcases h' with hidle' | hlt | hstrips
    · exact .inl (hidle.trans hidle')
    · exact .inr (.inl (hle'.trans_lt hlt))
    · exact .inr (.inr (hidle.strips hstrips))
  · exact .inr (.inl (hlt.trans_le hle))
  · exact .inr (.inr hstrips)

theorem Impl.Strains.mono (h : impl.Strains gone impl') (himp : ∀ r, gone r → gone' r) :
    impl.Strains gone' impl' := h.imp_right (.imp_right (·.mono himp))

theorem purgeLink_strains {explain : Explanation} (hfinal : explain.Final)
    (trigger : TransitionTrigger) (kind : Text) (link : LinkId) : impl.Strains (explain · ≠ none)
      (impl.purgeLink (fun _ _ => explain) trigger kind link) := by
  have hsteps : Steps (fun _ => False) impl
      (impl.purgeLink (fun _ _ => explain) trigger kind link) :=
    purgeLink_steps impl (fun _ _ => hfinal) ..
  have hevidence := hsteps.evidence_subset id
  unfold Impl.purgeLink at hevidence ⊢
  cases hentry : impl.entryOf link with
  | none => exact .inl (.refl impl)
  | some entry =>
    rw [hentry] at hevidence
    dsimp only at hevidence ⊢
    by_cases hall : entry.current.all fun record => (explain record).isNone
    · rw [if_pos hall]
      exact .inl (.refl impl)
    rw [if_neg hall] at hevidence ⊢
    obtain ⟨record, hrecord, hgone⟩ : ∃ record ∈ entry.current, explain record ≠ none := by
      simpa using hall
    have hcounts := sameCounts_drop ⟨impl, entry⟩ explain
    rcases hc : (Edit.dropEvidence ⟨impl, entry⟩ explain).advanceAll [.evidence, .global]
      with ⟨u, b⟩
    rw [hc] at hevidence
    -- Nothing moves; the evidence counter moves alone; both move, and the change is counted.
    rcases evidence_first_cases hcounts hc with
      ⟨-, rfl, rfl⟩ | ⟨hleft, hglobal, -⟩ | ⟨-, -, hlt⟩
    · refine .inl ⟨?_, StrongGeneration.ext (hcounts .global), hevidence⟩
      exact (SameRecords.commit_iff hentry (dropEvidence_links ..)).mpr
        (Edit.dropEvidence_record ..)
    · rw [Edit.spent_evidence, Bool.not_eq_true] at hleft
      exact .inr (.inr ⟨Edit.spent_global.mp hglobal, link, entry, hentry, hleft, record, hrecord,
        hgone⟩)
    · refine .inr (.inl (hlt.trans_le ?_))
      cases b with
      | false => exact le_rfl
      | true =>
        refine le_trans ?_ (recomputeLink_global ..)
        exact le_rfl

/-- A loop of purges strains no more than its steps. -/
theorem purgeLinks_strains {explain : Explanation} (hfinal : explain.Final)
    (trigger : TransitionTrigger) (kind : Text) (links : List LinkId) (impl : Impl) :
    impl.Strains (explain · ≠ none)
      (links.foldl (Impl.purgeLink (fun _ _ => explain) trigger kind) impl) := by
  induction links generalizing impl with
  | nil => exact .inl (.refl impl)
  | cons link links ih =>
    have hstep : Steps (fun _ => False) impl
        (impl.purgeLink (fun _ _ => explain) trigger kind link) :=
      purgeLink_steps impl (fun _ _ => hfinal) ..
    have hrest : Steps (fun _ => False) (impl.purgeLink (fun _ _ => explain) trigger kind link)
        (links.foldl (Impl.purgeLink (fun _ _ => explain) trigger kind) _) :=
      Steps.foldl (fun impl => purgeLink_steps impl (fun _ _ => hfinal) _ _) _ _
    exact (purgeLink_strains hfinal trigger kind link).trans (ih _) hrest.le.globalGeneration
      hstep.le.globalGeneration

theorem fencePublisher_strains (publisher : PublisherId) (boot : WorkerBootId)
    (status : AuthorityStatus) (reason : Text) : impl.Strains (·.publisher = publisher)
      (impl.fencePublisher publisher boot true status reason) := by
  have hnote := (noteFence_sameLinks impl publisher boot status reason).idle
  have hpurge := purgeLinks_strains (explainFence_final publisher boot true reason) .publisherFenced
    (lit "fence") (listing ((impl.noteFence publisher boot status
      reason).store.publisherLinks.bucket publisher)) (impl.noteFence publisher boot status reason)
  have hexplain (r : EvidenceRecord) (h : explainFence publisher boot true reason r ≠ none) :
      r.publisher = publisher := by
    unfold explainFence at h
    split at h
    · rename_i hp
      exact hp.1
    · exact absurd rfl h
  have hrelease := (releasePublisher_sameLinks
    ((impl.noteFence publisher boot status reason).purgePublisher publisher boot true reason)
      publisher).idle
  have hsteps : Steps (fun _ => False) (impl.noteFence publisher boot status reason)
    ((impl.noteFence publisher boot status reason).purgePublisher publisher boot true reason) :=
      purgePublisher_steps ..
  refine Impl.Strains.trans (.inl hnote) ?_ ?_ hnote.globalGeneration.ge
  · exact (hpurge.mono hexplain).trans (.inl hrelease) hrelease.globalGeneration.ge
      hsteps.le.globalGeneration
  · exact hsteps.le.globalGeneration.trans hrelease.globalGeneration.ge

/-- A strain that strips nothing is counted. -/
theorem Impl.Strains.counted (h : impl.Strains gone impl') (hno : ¬ impl.Strips gone) :
    Counted impl impl' := by
  rcases h with hidle | hlt | hstrips
  · exact fun _ => hidle.records
  · exact .of_lt hlt
  · exact absurd hstrips hno

/-- Evidence that is gone from a link with evidence generations left has changed its record. -/
theorem not_counted_of_strips (op : Op) (hload : op.isLoad = false) (hop : ¬ op.Single)
    (hgone : ∀ link, ∀ r ∈ (impl.apply op).currentEvidence link, ¬ gone r)
    (hstrips : impl.Strips gone) : ¬ Counted impl (impl.apply op) := fun hcounted => by
  obtain ⟨hspent, link, entry, hentry, hleft, record, hrecord, hr⟩ := hstrips
  have hforward : impl.Forward (impl.apply op) := .apply hload fun h => absurd h hop
  have hglobal : Edit.Spent ⟨impl, entry⟩ .global := Edit.spent_global.mpr hspent
  have hsame := global_eq_of_spent hglobal hforward.globalGeneration
  obtain ⟨entry', hentry', hlink⟩ := hforward.entries link entry hentry
  have hrecordSame := (hcounted hsame).record_eq hentry hentry'
  have hcurrent := hlink.evidence (congrArg (·.evidenceGeneration) hrecordSame) hleft
  have hmem : record ∈ entry'.current := by
    rw [hcurrent]
    exact hrecord
  exact hgone link record (Impl.mem_currentEvidence.mpr ⟨entry', hentry', hmem⟩) hr

theorem supersedeBoot_strains (registration : PublisherRegistration)
    (authority : PublisherAuthority) : impl.Strains (·.publisher = registration.publisher)
      (impl.supersedeBoot registration authority).1 := by
  have hfence := @fencePublisher_strains impl registration.publisher authority.workerBoot
    .superseded (lit "superseded by worker boot " ++ registration.workerBoot.value)
  unfold Impl.supersedeBoot
  dsimp only
  split
  · exact hfence
  · have hidle {impl : Impl} {authority : PublisherAuthority} :
        Idle impl (impl.putAuthority registration.publisher authority) :=
      ⟨.of_links rfl, rfl, fun _ _ h => h⟩
    have hsteps : Steps (fun _ => True) impl (impl.fencePublisher registration.publisher
        authority.workerBoot true .superseded
        (lit "superseded by worker boot " ++ registration.workerBoot.value)) :=
      fencePublisher_steps _ trivial ..
    exact hfence.trans (.inl hidle) le_rfl hsteps.le.globalGeneration

theorem fenceStale_strains (publisher : PublisherId) :
    impl.Strains (fun _ => True) (impl.fenceStale publisher) := by
  unfold Impl.fenceStale
  split
  · exact .inl (.refl impl)
  · exact (fencePublisher_strains ..).mono fun _ _ => trivial

theorem fenceStales_strains (stale : List PublisherId) (impl : Impl) :
    impl.Strains (fun _ => True) (stale.foldl Impl.fenceStale impl) := by
  induction stale generalizing impl with
  | nil => exact .inl (.refl impl)
  | cons publisher stale ih =>
    have hstep : Steps (fun _ => True) impl (impl.fenceStale publisher) :=
      fenceStale_steps impl trivial publisher
    have hrest : Steps (fun _ => True) (impl.fenceStale publisher)
        (stale.foldl Impl.fenceStale (impl.fenceStale publisher)) :=
      Steps.foldl (fun impl => fenceStale_steps impl trivial) _ _
    exact (fenceStale_strains publisher).trans (ih _) hrest.le.globalGeneration
      hstep.le.globalGeneration

end Fences

/-! ## Reconciliation -/

/-- A record, beside the evidence, that reads as a reconciliation at the global generation leaves
it. -/
structure LinkStateRecord.Reconciled (record : LinkStateRecord) (current : List EvidenceRecord)
    (generation : GlobalGeneration) : Prop where
  provenanceDigest : record.provenanceDigest = digestEvidenceSet current
  lastPublication : record.lastPublication =
    .fromValidated (publicationIdFor (lit "reconcile") generation.value)
  lastPublisher : record.lastPublisher = .null
  resultClass : record.resultClass = (resolveLinkState current record).resultClass
  degradationCause : record.degradationCause = (resolveLinkState current record).cause
  lastTransition : record.lastTransition =
    .fromValidated (transitionIdFor record.binding.link record.stateGeneration)
  lastOutcome : record.lastOutcome = .committed

/-- A reconciliation writes the record of a live link anew: the evidence resolves to another state,
which can be entered, or the record does not read as a reconciliation leaves it. -/
def Edit.Stamps (t : Edit) : Prop :=
  t.entry.record.state ≠ .retired ∧
  if (resolveLinkState t.entry.current t.entry.record).state = t.entry.record.state then
    ¬ t.entry.record.Reconciled t.entry.current t.impl.globalGeneration
  else ¬ (t.Spent .state ∨ t.Spent .globalState)

/-- The edit of a reconciliation. -/
def Edit.reconciled (t : Edit) : Edit :=
  (t.recomputeLink .evidenceResolution
    (.fromValidated (publicationIdFor (lit "reconcile") t.impl.globalGeneration.value)) .null).1

section Reconcile

variable {t : Edit}

theorem reconciled_frame (t : Edit) :
    t.reconciled.impl.store.links = t.impl.store.links ∧
    t.reconciled.impl.globalGeneration = t.impl.globalGeneration ∧
    t.reconciled.entry.current = t.entry.current := by
  unfold Edit.reconciled Edit.recomputeLink
  dsimp only
  split
  · rename_i hok
    have hframe := (Edit.commitPrepared_spec (prepareCommit_ok hok).1 (.fromValidated
      (publicationIdFor (lit "reconcile") t.impl.globalGeneration.value)) .null).1
    exact ⟨by rw [hframe.store], hframe.globalGeneration, hframe.current⟩
  · exact ⟨rfl, rfl, rfl⟩

/-- A record stays as it is unless it is written anew. -/
theorem reconciled_record_iff (hlive : t.entry.record.state ≠ .retired) :
    t.reconciled.entry.record = t.entry.record ↔ ¬ t.Stamps := by
  have hok := @Edit.recompute_ok_iff t .evidenceResolution hlive (by decide)
  unfold Edit.Stamps Edit.reconciled Edit.recomputeLink
  dsimp only
  rw [iff_true_intro hlive, true_and]
  generalize hprepared : prepareCommit t.impl t.entry t.entry.current .evidenceResolution = prepared
    at hok
  have htarget :
      prepared.targetState = (resolveLinkState t.entry.current t.entry.record).state := by
    rw [← hprepared, prepareCommit_target]
  have hresolution : prepared.resolution = resolveLinkState t.entry.current t.entry.record := by
    rw [← hprepared, prepareCommit_resolution]
  -- The state stays, and the rest of the commit is written over; or it changes, and is counted.
  by_cases hsame : (resolveLinkState t.entry.current t.entry.record).state = t.entry.record.state
  · have hpassed : prepared.ok = true := hok.mpr fun h => h.1 hsame
    obtain ⟨hfits, hcode⟩ := prepareCommit_ok (hprepared ▸ hpassed)
    rw [hprepared] at hfits hcode
    have hunchanged : prepared.stateChanged = false := by
      by_contra hc
      exact (hfits.changed (by simpa using hc)).1 (htarget.trans hsame)
    rw [if_pos hsame, if_pos hpassed, Edit.commitPrepared_same hunchanged, hcode, htarget, hsame,
      hresolution, not_not]
    constructor
    · intro h
      exact ⟨(congrArg (·.provenanceDigest) h).symm, (congrArg (·.lastPublication) h).symm,
        (congrArg (·.lastPublisher) h).symm, (congrArg (·.resultClass) h).symm,
        (congrArg (·.degradationCause) h).symm, (congrArg (·.lastTransition) h).symm,
        (congrArg (·.lastOutcome) h).symm⟩
    · intro h
      unfold Edit.finishCommit Edit.stampTransition Edit.applyResolution
      dsimp only
      rw [← h.provenanceDigest, ← h.lastPublication, ← h.lastPublisher, ← h.resultClass,
        ← h.degradationCause, ← h.lastTransition, ← h.lastOutcome]
  · rw [if_neg hsame, not_not]
    by_cases hpassed : prepared.ok = true
    · have hfits := (prepareCommit_ok (hprepared ▸ hpassed)).1
      rw [hprepared] at hfits
      have hchanged : prepared.stateChanged = true := by
        by_contra hc
        exact hsame (htarget.symm.trans (hfits.unchanged (by simpa using hc)))
      rw [if_pos hpassed]
      refine iff_of_false (fun hrecord => ?_) fun hspent => (hok.mp hpassed) ⟨hsame, hspent⟩
      have hnext := ((Edit.commitPrepared_spec hfits (.fromValidated (publicationIdFor
        (lit "reconcile") t.impl.globalGeneration.value)) .null).2.changed hchanged).2.1
      have hlt := StrongGeneration.lt_next hnext
      rw [hrecord] at hlt
      exact lt_irrefl _ hlt
    · rw [if_neg hpassed]
      exact iff_of_true rfl (not_not.mp (mt hok.mpr hpassed)).2

/-- What is not written anew keeps the state generation of the engine. -/
theorem reconciled_globalState (hlive : t.entry.record.state ≠ .retired) (h : ¬ t.Stamps) :
    t.reconciled.impl.globalStateGeneration = t.impl.globalStateGeneration := by
  have hrecord := (reconciled_record_iff hlive).mpr h
  unfold Edit.reconciled Edit.recomputeLink at hrecord ⊢
  dsimp only at hrecord ⊢
  split at hrecord
  · rename_i hok
    have hcommits := (Edit.commitPrepared_spec (prepareCommit_ok hok).1 (.fromValidated
      (publicationIdFor (lit "reconcile") t.impl.globalGeneration.value)) .null).2
    rw [if_pos hok]
    cases hc : (prepareCommit t.impl t.entry t.entry.current .evidenceResolution).stateChanged with
    | false => exact (hcommits.unchanged hc).2.2
    | true =>
      have hlt := StrongGeneration.lt_next (hcommits.changed hc).2.1
      rw [hrecord] at hlt
      exact absurd hlt (lt_irrefl _)
  · rename_i hok
    rw [if_neg hok]

/-- What the loop of `reconcile` does to the engine in one step. -/
theorem reconcileLink_fst (p : Impl × Nat) (link : LinkId) : (Impl.reconcileLink p link).1 =
    match p.1.entryOf link with
    | none => p.1
    | some entry => if entry.record.state = .retired then p.1
      else (Edit.mk p.1 entry).reconciled.commit link := by
  unfold Impl.reconcileLink Edit.reconciled
  cases hentry : p.1.entryOf link with
  | none => rfl
  | some entry =>
    dsimp only
    split
    · rfl
    · split <;> rename_i heq <;> rw [heq]

/-- The link has a record that a reconciliation writes anew. -/
def Impl.Stamps (impl : Impl) (link : LinkId) : Prop :=
  ∃ entry, impl.entryOf link = some entry ∧ Edit.Stamps ⟨impl, entry⟩

/-- Nothing that a reconciliation reads has changed. -/
structure Still (impl impl' : Impl) : Prop where
  entries : ∀ link, (impl'.entryOf link).map (fun e => (e.record, e.current)) =
    (impl.entryOf link).map (fun e => (e.record, e.current))
  globalGeneration : impl'.globalGeneration = impl.globalGeneration
  globalStateGeneration : impl'.globalStateGeneration = impl.globalStateGeneration

theorem Still.refl (impl : Impl) : Still impl impl := ⟨fun _ => rfl, rfl, rfl⟩

theorem Still.records {impl impl' : Impl} (h : Still impl impl') : SameRecords impl impl' :=
  fun link => by
    have hsame := congrArg (Option.map Prod.fst) (h.entries link)
    rwa [Option.map_map, Option.map_map] at hsame

theorem Still.stamps {impl impl' : Impl} (h : Still impl impl') {link : LinkId}
    (hstamps : impl.Stamps link) : impl'.Stamps link := by
  obtain ⟨entry, hentry, hstamps⟩ := hstamps
  have hsame := h.entries link
  rw [hentry, Option.map_some] at hsame
  obtain ⟨entry', hentry', heq⟩ := Option.map_eq_some_iff.mp hsame
  obtain ⟨hrecord, hcurrent⟩ := Prod.mk.inj heq
  refine ⟨entry', hentry', ?_⟩
  unfold Edit.Stamps Edit.Spent Edit.count at hstamps ⊢
  dsimp only at hstamps ⊢
  rw [hrecord, hcurrent, h.globalGeneration, h.globalStateGeneration]
  exact hstamps

theorem Still.symm {impl impl' : Impl} (h : Still impl impl') : Still impl' impl :=
  ⟨fun link => (h.entries link).symm, h.globalGeneration.symm, h.globalStateGeneration.symm⟩

/-- A link that is not written anew leaves everything still. -/
theorem reconcileLink_still {p : Impl × Nat} {link : LinkId} (h : ¬ p.1.Stamps link) :
    Still p.1 (Impl.reconcileLink p link).1 := by
  rw [reconcileLink_fst]
  split
  · exact .refl _
  rename_i entry hentry
  split
  · exact .refl _
  rename_i hlive
  have hno : ¬ Edit.Stamps ⟨p.1, entry⟩ := fun hstamps => h ⟨entry, hentry, hstamps⟩
  obtain ⟨hlinks, hglobal, hcurrent⟩ := reconciled_frame ⟨p.1, entry⟩
  refine ⟨fun l => ?_, hglobal, reconciled_globalState hlive hno⟩
  rw [commit_entryOf]
  split
  · rename_i hl
    rw [hl, hentry, Option.map_some, Option.map_some, (reconciled_record_iff hlive).mpr hno,
      hcurrent]
  · unfold Impl.entryOf
    rw [hlinks]

theorem reconcileLink_global (p : Impl × Nat) (link : LinkId) :
    (Impl.reconcileLink p link).1.globalGeneration = p.1.globalGeneration := by
  rw [reconcileLink_fst]
  split
  · rfl
  split
  · rfl
  · exact (reconciled_frame _).2.1

theorem reconcileLink_entryOf (p : Impl × Nat) {link l : LinkId} (h : l ≠ link) :
    (Impl.reconcileLink p link).1.entryOf l = p.1.entryOf l := by
  rw [reconcileLink_fst]
  split
  · rfl
  split
  · rfl
  · rw [commit_entryOf, if_neg h]
    unfold Impl.entryOf
    rw [(reconciled_frame _).1]

theorem foldl_reconcileLink_entryOf {links : List LinkId} {l : LinkId} (h : l ∉ links)
    (p : Impl × Nat) : (links.foldl Impl.reconcileLink p).1.entryOf l = p.1.entryOf l := by
  induction links generalizing p with
  | nil => rfl
  | cons link links ih =>
    obtain ⟨hne, hrest⟩ := not_or.mp (mt List.mem_cons.mpr h)
    rw [List.foldl_cons, ih hrest, reconcileLink_entryOf p hne]

/-- The loop of `reconcile` leaves every record as it is only if it writes none anew. -/
theorem foldl_reconcileLink_iff {links : List LinkId} (hnodup : links.Nodup) (p : Impl × Nat) :
    SameRecords p.1 (links.foldl Impl.reconcileLink p).1 ↔ ∀ link ∈ links, ¬ p.1.Stamps link := by
  induction links generalizing p with
  | nil => exact iff_of_true (.refl _) (List.forall_mem_nil _)
  | cons link links ih =>
    obtain ⟨hnew, hnodup⟩ := List.nodup_cons.mp hnodup
    rw [List.foldl_cons, List.forall_mem_cons]
    by_cases hstamps : p.1.Stamps link
    · refine iff_of_false (fun hsame => ?_) fun h => h.1 hstamps
      obtain ⟨entry, hentry, hstamps⟩ := hstamps
      have hafter : (Impl.reconcileLink p link).1.entryOf link =
          some (Edit.mk p.1 entry).reconciled.entry := by
        rw [reconcileLink_fst, hentry]
        dsimp only
        rw [if_neg hstamps.1, commit_entryOf, if_pos rfl]
      have hrecord := hsame.record_eq hentry ((foldl_reconcileLink_entryOf hnew _).trans hafter)
      exact (reconciled_record_iff hstamps.1).mp hrecord hstamps
    · have hstill := reconcileLink_still hstamps
      rw [iff_true_intro hstamps, true_and]
      constructor
      · intro hsame l hl hs
        refine (ih hnodup _).mp (fun x => ?_) l hl (hstill.stamps hs)
        exact (hsame x).trans (hstill.records x).symm
      · intro h
        refine hstill.records.trans ((ih hnodup _).mpr fun l hl hs => ?_)
        exact h l hl (hstill.symm.stamps hs)

end Reconcile

/-! ## Operations -/

/-- An operation changes a durable record without the global generation. -/
def Impl.Overlooks (impl : Impl) : Op → Prop
  | .transitionState request => ∃ entry prepared, Liftable impl request entry prepared ∧
      Edit.Spent ⟨impl, entry⟩ .global
  | .retireLink request => ∃ entry, Retirable impl request entry ∧
      ¬ Edit.Spent ⟨impl, entry⟩ .evidence ∧ Edit.Spent ⟨impl, entry⟩ .global
  | .bindLink request => ∃ entry, validBinding request.binding.normalize = none ∧
      Rebindable impl request.binding.normalize.link entry request.binding.normalize ∧
      (Edit.Spent ⟨impl, entry⟩ .evidence ∨ Edit.Spent ⟨impl, entry⟩ .global)
  | .supersedeTopology request => ∃ entry binding, request.link.valid = true ∧
      supersedingBinding request entry.record.binding = .ok binding ∧
      Rebindable impl request.link entry binding ∧
      (Edit.Spent ⟨impl, entry⟩ .evidence ∨ Edit.Spent ⟨impl, entry⟩ .global)
  | .registerPublisher request => ∃ scope authority,
      request.registration.scope.normalize = some scope ∧
      Supersedes impl { request.registration with scope } authority ∧
      impl.Strips (·.publisher = request.registration.publisher)
  | .invalidatePublisher request => ∃ authority,
      impl.store.publishers.lookup request.publisher = some authority ∧
      impl.invalidates request authority = true ∧ impl.Strips (·.publisher = request.publisher)
  | .advanceCoordinatorEpoch request => impl.epoch < request.newEpoch ∧
      impl.Strips fun _ => True
  | .reconcile => ∃ link, impl.Stamps link
  | _ => False

section Operations

variable {impl : Impl}

theorem publishEvidence_counted (request : PublishEvidenceRequest) :
    Counted impl (impl.publishEvidence request).1 := by
  rcases publishEvidence_outcome impl request with
    hdeclined | ⟨_, -, himpl, -⟩ | ⟨entry, prepared, hadmitted, heq⟩
  · exact hdeclined.counted
  · rw [himpl]
    exact .of_links rfl
  · rw [heq]
    exact publish_counted hadmitted

theorem withdrawEvidence_counted (request : WithdrawEvidenceRequest) :
    Counted impl (impl.withdrawEvidence request).1 := by
  rcases withdrawEvidence_outcome impl request with
    hdeclined | ⟨entry, slot, prepared, hpassed, heq⟩
  · exact hdeclined.counted
  · rw [heq]
    exact withdraw_counted hpassed

theorem markRevalidationRequired_counted (request : MarkRevalidationRequest) :
    Counted impl (impl.markRevalidationRequired request).1 := by
  rcases markRevalidationRequired_outcome impl request with
    hdeclined | ⟨entry, prepared, hpassed, heq⟩
  · exact hdeclined.counted
  · rw [heq]
    exact markRevalidation_counted hpassed

theorem transitionState_counted_iff (request : TransitionStateRequest) :
    Counted impl (impl.transitionState request).1 ↔
      ¬ impl.Overlooks (.transitionState request) := by
  constructor
  · rintro hcounted ⟨entry, prepared, hpassed, hspent⟩
    rw [hpassed.transition_eq] at hcounted
    exact (lift_counted_iff hpassed).mp hcounted hspent
  · intro hno
    rcases transitionState_outcome impl request with
      hdeclined | ⟨entry, prepared, hpassed, heq⟩ | ⟨entry, prepared, hpassed, heq⟩
    · exact hdeclined.counted
    · rw [heq]
      exact (lift_counted_iff hpassed).mpr fun hspent => hno ⟨entry, prepared, hpassed, hspent⟩
    · rw [heq]
      exact impose_counted hpassed.bound

theorem retireLink_counted_iff (request : RetireLinkRequest) :
    Counted impl (impl.retireLink request).1 ↔ ¬ impl.Overlooks (.retireLink request) := by
  constructor
  · rintro hcounted ⟨entry, hpassed, hspent⟩
    rw [hpassed.retire_eq] at hcounted
    exact (retire_counted_iff hpassed).mp hcounted hspent
  · intro hno
    rcases retireLink_outcome impl request with hdeclined | ⟨himpl, -⟩ | ⟨entry, hpassed, heq⟩
    · exact hdeclined.counted
    · rw [himpl]
      exact .of_links rfl
    · rw [heq]
      exact (retire_counted_iff hpassed).mpr fun hspent => hno ⟨entry, hpassed, hspent⟩

theorem bindLink_counted_iff (request : BindLinkRequest) :
    Counted impl (impl.bindLink request).1 ↔ ¬ impl.Overlooks (.bindLink request) := by
  constructor
  · rintro hcounted ⟨entry, hvalid, hpassed, hspent⟩
    rw [hpassed.bind_eq hvalid] at hcounted
    exact (rebinding_counted_iff hpassed _).mp hcounted hspent
  · intro hno
    rcases bindLink_outcome impl request with
      hdeclined | ⟨himpl, -⟩ | ⟨-, heq⟩ | ⟨entry, hvalid, hpassed, heq⟩
    · exact hdeclined.counted
    · rw [himpl]
      exact .of_links rfl
    · rw [heq]
      exact bindNew_counted _
    · rw [heq]
      exact (rebinding_counted_iff hpassed _).mpr fun hspent =>
        hno ⟨entry, hvalid, hpassed, hspent⟩

theorem supersedeTopology_counted_iff (request : SupersedeTopologyRequest) :
    Counted impl (impl.supersedeTopology request).1 ↔
      ¬ impl.Overlooks (.supersedeTopology request) := by
  constructor
  · rintro hcounted ⟨entry, binding, hlink, hbinding, hpassed, hspent⟩
    rw [hpassed.supersede_eq hlink hbinding] at hcounted
    exact (rebinding_counted_iff hpassed _).mp hcounted hspent
  · intro hno
    rcases supersedeTopology_outcome impl request with
      hdeclined | ⟨entry, binding, hlink, hbinding, hpassed, heq⟩
    · exact hdeclined.counted
    · rw [heq]
      exact (rebinding_counted_iff hpassed _).mpr fun hspent =>
        hno ⟨entry, binding, hlink, hbinding, hpassed, hspent⟩

theorem registerPublisher_counted_iff (hindexed : Indexed impl)
    (request : RegisterPublisherRequest) :
    Counted impl (impl.registerPublisher request).1 ↔
      ¬ impl.Overlooks (.registerPublisher request) := by
  constructor
  · rintro hcounted ⟨scope, authority, hscope, hpassed, hstrips⟩
    refine not_counted_of_strips (.registerPublisher request) rfl id
      (fun link r hr => ?_) hstrips hcounted
    have happly : impl.apply (.registerPublisher request) =
        (impl.supersedeBoot { request.registration with scope } authority).1 :=
      congrArg Prod.fst (hpassed.register_eq hscope)
    rw [happly] at hr
    unfold Impl.supersedeBoot at hr
    dsimp only at hr
    split at hr
    · exact (fencePublisher_currentEvidence hindexed hr).2
    · exact (fencePublisher_currentEvidence hindexed hr).2
  · intro hno
    rcases registerPublisher_outcome impl request with
      hdeclined | ⟨_, himpl, -⟩ | ⟨scope, authority, hscope, hpassed, heq⟩
    · exact hdeclined.counted
    · rw [himpl]
      exact .of_links rfl
    · rw [heq]
      exact (supersedeBoot_strains { request.registration with scope } authority).counted
        fun hstrips => hno ⟨scope, authority, hscope, hpassed, hstrips⟩

theorem invalidatePublisher_counted_iff (hindexed : Indexed impl)
    (request : InvalidatePublisherRequest) :
    Counted impl (impl.invalidatePublisher request).1 ↔
      ¬ impl.Overlooks (.invalidatePublisher request) := by
  rcases invalidatePublisher_cases impl request with
    ⟨himpl, hno⟩ | ⟨authority, reason, hauthority, hinvalidates, himpl⟩
  · rw [himpl]
    refine iff_of_true (.of_links rfl) ?_
    rintro ⟨authority, hauthority, hinvalidates, -⟩
    rw [hno authority hauthority] at hinvalidates
    cases hinvalidates
  · constructor
    · rintro hcounted ⟨-, -, -, hstrips⟩
      refine not_counted_of_strips (.invalidatePublisher request) rfl id
        (fun link r hr => ?_) hstrips hcounted
      have happly : impl.apply (.invalidatePublisher request) = _ := himpl
      rw [happly] at hr
      exact (fencePublisher_currentEvidence hindexed hr).2
    · intro hno
      rw [himpl]
      exact (fencePublisher_strains ..).counted fun hstrips =>
        hno ⟨authority, hauthority, hinvalidates, hstrips⟩

theorem advanceCoordinatorEpoch_counted_iff (hindexed : Indexed impl) (hendorsed : impl.Endorsed)
    (request : AdvanceEpochRequest) :
    Counted impl (impl.advanceCoordinatorEpoch request).1 ↔
      ¬ impl.Overlooks (.advanceCoordinatorEpoch request) := by
  by_cases hlt : impl.epoch < request.newEpoch
  · have himpl : (impl.advanceCoordinatorEpoch request).1 =
        List.foldl Impl.fenceStale { impl with epoch := request.newEpoch }
          (Impl.stalePublishers { impl with epoch := request.newEpoch }) := by
      unfold Impl.advanceCoordinatorEpoch
      rw [if_neg (not_lt.mpr hlt.le), if_neg hlt.ne']
    -- The publishers behind the new epoch are fenced one after the other.
    have hstrains := fenceStales_strains
      (Impl.stalePublishers { impl with epoch := request.newEpoch })
      { impl with epoch := request.newEpoch }
    constructor
    · rintro hcounted ⟨-, hstrips⟩
      refine not_counted_of_strips (.advanceCoordinatorEpoch request) rfl id
        (fun link r hr => ?_) hstrips hcounted
      have happly : impl.apply (.advanceCoordinatorEpoch request) = _ := himpl
      rw [happly, foldl_fenceStale_currentEvidence_nil hindexed hendorsed hlt] at hr
      cases hr
    · intro hno
      rw [himpl]
      exact hstrains.counted fun hstrips => hno ⟨hlt, hstrips⟩
  · refine iff_of_true ?_ fun h => hlt h.1
    unfold Impl.advanceCoordinatorEpoch
    split
    · exact .of_links rfl
    rename_i hnotOlder
    split
    · exact .of_links rfl
    rename_i hnotSame
    exact absurd (lt_of_le_of_ne (not_lt.mp hnotOlder) (Ne.symm hnotSame)) hlt

theorem reconcile_counted_iff : Counted impl impl.reconcile.1 ↔ ¬ impl.Overlooks .reconcile := by
  have hglobal (links : List LinkId) (p : Impl × Nat) :
      (links.foldl Impl.reconcileLink p).1.globalGeneration = p.1.globalGeneration := by
    induction links generalizing p with
    | nil => rfl
    | cons link links ih => rw [List.foldl_cons, ih, reconcileLink_global]
  have hsame := foldl_reconcileLink_iff (nodup_listing impl.store.links.keys) (impl, 0)
  have hcounted : Counted impl impl.reconcile.1 ↔ SameRecords impl impl.reconcile.1 :=
    ⟨fun h => h (hglobal _ (impl, 0)), fun h _ => h⟩
  refine hcounted.trans (hsame.trans ⟨?_, fun hno link _ hstamps => hno ⟨link, hstamps⟩⟩)
  rintro hno ⟨link, hstamps⟩
  obtain ⟨entry, hentry, -⟩ := id hstamps
  have hbound := Finmap.mem_keys.mpr (Finmap.mem_of_lookup_eq_some hentry)
  exact hno link (mem_listing.mpr hbound) hstamps

end Operations

/-- An operation that leaves the global generation leaves every durable record, except where it
overlooks one. -/
theorem change_counted_iff {impl : Impl} (h : impl.Reachable) {op : Op}
    (hload : op.isLoad = false) : Counted impl (impl.apply op) ↔ ¬ impl.Overlooks op := by
  cases op with
  | bindLink request => exact bindLink_counted_iff request
  | supersedeTopology request => exact supersedeTopology_counted_iff request
  | retireLink request => exact retireLink_counted_iff request
  | registerPublisher request => exact registerPublisher_counted_iff h.indexed request
  | invalidatePublisher request => exact invalidatePublisher_counted_iff h.indexed request
  | advanceCoordinatorEpoch request =>
    exact advanceCoordinatorEpoch_counted_iff h.indexed h.endorsed request
  | publishEvidence request => exact iff_of_true (publishEvidence_counted request) id
  | withdrawEvidence request => exact iff_of_true (withdrawEvidence_counted request) id
  | transitionState request => exact transitionState_counted_iff request
  | markRevalidationRequired request =>
    exact iff_of_true (markRevalidationRequired_counted request) id
  | reconcile => exact reconcile_counted_iff
  | snapshot request =>
    refine iff_of_true ?_ id
    show Counted impl (impl.snapshot request).1
    unfold Impl.snapshot Impl.retainSnapshot
    dsimp only
    split <;> exact .of_links rfl
  | load => cases hload

/-- A replay leaves the global generation, and the records with it. -/
theorem change_counted_sample :
    SameRecords Sample.engine (Sample.engine.apply (.publishEvidence Sample.publish)) :=
  (change_counted_iff Sample.reachable rfl).mpr id (by decide)

/-- A reconciliation puts its own publication in the place of the publisher's, and the global
generation does not tell. -/
theorem change_overlooked :
    Sample.engine.Reachable ∧
    (Sample.engine.apply .reconcile).globalGeneration = Sample.engine.globalGeneration ∧
    (Sample.engine.entryOf Sample.link).map (·.record.lastPublication) = some Sample.publication ∧
    ((Sample.engine.apply .reconcile).entryOf Sample.link).map (·.record.lastPublication) =
      some (.fromValidated (lit "pub.reconcile.2")) ∧
    ¬ Counted Sample.engine (Sample.engine.apply .reconcile) := by
  have hglobal :
      (Sample.engine.apply .reconcile).globalGeneration = Sample.engine.globalGeneration := by
    decide
  have hbefore : (Sample.engine.entryOf Sample.link).map (·.record.lastPublication) =
      some Sample.publication := by decide
  have hafter : ((Sample.engine.apply .reconcile).entryOf Sample.link).map
      (·.record.lastPublication) = some (.fromValidated (lit "pub.reconcile.2")) := by decide
  refine ⟨Sample.reachable, hglobal, hbefore, hafter, fun hcounted => ?_⟩
  have hsame := congrArg (Option.map (·.lastPublication)) (hcounted hglobal Sample.link)
  rw [Option.map_map, Option.map_map] at hsame
  exact absurd (hafter.symm.trans (hsame.trans hbefore)) (by decide)

end LinkState
