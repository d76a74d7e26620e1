import LinkStateFabric.Engine.Conclusions
import LinkStateFabric.Engine.Counters

/-!
# What an operation does to a link

* `Turn`: one edit of the entry of a link as a whole, from the entry that an operation finds to the
  one that it puts back. It halts where a counter is exhausted, or the link is resolved, or it is
  retired.
* Each part of an operation that edits a link makes one turn of it (`purgeLink_turn` and the
  lemmas after it).
-/

namespace LinkState

open Sorting

/-! ## Operations -/

/-- An operation of the engine itself: no load, and an observation is published as current, as the
wire decoder and the callers of the engine give it. -/
def Op.Ordinary : Op → Prop
  | .load .. => False
  | .publishEvidence request => request.observation.status = .current
  | _ => True

/-- The operation is an explicit transition of the link. -/
def Op.Transitions (op : Op) (link : LinkId) : Prop :=
  ∃ request, op = .transitionState request ∧ request.link = link

/-- The operation is a retirement of the link. -/
def Op.Retires (op : Op) (link : LinkId) : Prop :=
  ∃ request, op = .retireLink request ∧ request.link = link

/-- The operation edits at most one link, and advances the global generation first. -/
def Op.Single : Op → Prop
  | .publishEvidence _ | .withdrawEvidence _ | .markRevalidationRequired _ => True
  | _ => False

/-! ## Turns -/

/-- What an edit has done to a link before it resolves the link. -/
structure Groundwork (op : Op) (link : LinkId) (t u : Edit) : Prop where
  frame : EditFrame t u
  topologyGeneration : t.impl.topologyGeneration ≤ u.impl.topologyGeneration
  state : u.entry.record.state = t.entry.record.state
  resultClass : u.entry.record.resultClass = t.entry.record.resultClass
  everEstablished : u.entry.record.everEstablished = t.entry.record.everEstablished
  stateGeneration : u.entry.record.stateGeneration = t.entry.record.stateGeneration
  globalState : u.impl.globalStateGeneration = t.impl.globalStateGeneration
  binding : u.entry.record.binding = t.entry.record.binding ∨
    Rebinds link t.entry u.entry.record.binding
  intent : u.entry.record.adminIntent = t.entry.record.adminIntent ∨
    op.Transitions link ∧ ∀ i ∈ u.entry.record.adminIntent, i.Recordable
  degradationCause : u.entry.record.degradationCause = t.entry.record.degradationCause
  history : u.entry.record.history = t.entry.record.history
  imposed : ∀ i ∈ u.entry.record.adminIntent, i ∈ t.entry.record.adminIntent ∨
    ∃ request, op = .transitionState request ∧ i.state = request.target ∧
      i.cause = request.degradationCause

/-- The evidence of the link after a publication of the operation. -/
structure Publishes (op : Op) (link : LinkId) (t u : Edit) (request : PublishEvidenceRequest)
    (stored : EvidenceRecord) : Prop where
  op_eq : op = .publishEvidence request
  link_eq : request.observation.key.link = link
  admitted : ∃ prepared, Admitted t.impl request t.entry prepared
  stored_eq : ∃ e : Edit, stored = e.storedRecord request.observation
  current : u.entry.current = sortBy evidenceLess
    (t.entry.current.filter (!supersedes request.observation ·) ++ [stored])

/-- An edit that is about to resolve the link: evidence is what is left, or a publication has been
accepted, and the counters that go with it have advanced. -/
structure Readied (op : Op) (link : LinkId) (t u : Edit) : Prop
    extends Groundwork op link t u where
  current : u.entry.current ⊆ t.entry.current ∨ ∃ request stored, Publishes op link t u request stored
  evidence : u.entry.current = t.entry.current ∨
    t.entry.record.evidenceGeneration < u.entry.record.evidenceGeneration
  globalGeneration : t.impl.globalGeneration < u.impl.globalGeneration ∨ op = .reconcile ∧ u = t

/-- An edit that halts before it resolves the link. -/
structure Halted (op : Op) (link : LinkId) (t u : Edit) : Prop
    extends Groundwork op link t u where
  current : u.entry.current ⊆ t.entry.current
  evidence : u.entry.current = t.entry.current ∨
    t.entry.record.evidenceGeneration < u.entry.record.evidenceGeneration ∨
    t.Spent .evidence ∨ op.Single ∧ t.Spent .global
  lifted : u.entry.record.adminIntent = t.entry.record.adminIntent ∨
    u.entry.record.adminIntent = none
  exhausted : t.entry.record.state = .retired ∨ ¬ (u.commit link).Unsaturated

/-- A retirement that halts at the state generation of the engine. -/
structure Stalled (t u : Edit) : Prop where
  frame : EditFrame t u
  live : t.entry.record.state ≠ .retired
  topologyGeneration : u.impl.topologyGeneration = t.impl.topologyGeneration
  state : u.entry.record.state = t.entry.record.state
  resultClass : u.entry.record.resultClass = t.entry.record.resultClass
  everEstablished : u.entry.record.everEstablished = t.entry.record.everEstablished
  binding : u.entry.record.binding = t.entry.record.binding
  intent : u.entry.record.adminIntent = t.entry.record.adminIntent
  current : u.entry.current = []
  evidenceGeneration : t.entry.record.evidenceGeneration < u.entry.record.evidenceGeneration
  globalGeneration : t.impl.globalGeneration < u.impl.globalGeneration
  stateGeneration : t.entry.record.stateGeneration < u.entry.record.stateGeneration
  globalState : u.impl.globalStateGeneration = t.impl.globalStateGeneration
  exhausted : u.Spent .globalState
  degradationCause : u.entry.record.degradationCause = t.entry.record.degradationCause
  history : u.entry.record.history = t.entry.record.history

theorem Stalled.not_unsaturated {link : LinkId} {t u : Edit} (h : Stalled t u) :
    ¬ (u.commit link).Unsaturated := fun hu =>
  Bool.false_ne_true (hu.globalStateGeneration.symm.trans (Edit.spent_globalState.mp h.exhausted))

/-- A retirement. -/
structure Retired (t t' : Edit) : Prop where
  frame : EditFrame t t'
  live : t.entry.record.state ≠ .retired
  topologyGeneration : t'.impl.topologyGeneration = t.impl.topologyGeneration
  state : t'.entry.record.state = .retired
  resultClass : t'.entry.record.resultClass = .retired
  binding : t'.entry.record.binding = t.entry.record.binding
  intent : t'.entry.record.adminIntent = t.entry.record.adminIntent
  current : t'.entry.current = []
  evidenceGeneration : t.entry.record.evidenceGeneration < t'.entry.record.evidenceGeneration
  globalGeneration : t.impl.globalGeneration < t'.impl.globalGeneration
  stateGeneration : t.entry.record.stateGeneration < t'.entry.record.stateGeneration
  globalState : t.impl.globalStateGeneration < t'.impl.globalStateGeneration
  degradationCause : t'.entry.record.degradationCause = .none
  next : t'.entry.record.stateGeneration.value = t.entry.record.stateGeneration.value + 1
  history : ∃ history, history.stateGeneration = t'.entry.record.stateGeneration ∧
    history.fromState = t.entry.record.state ∧ history.toState = .retired ∧
    history.trigger = .retirement ∧ t'.entry.record.history =
      (pushHistory t.entry history t.impl.config.maxHistoryPerLink).record.history

/-- One edit of the entry of a link. -/
inductive Turn (op : Op) (link : LinkId) (t : Edit) : Edit → Prop
  | halt {u : Edit} (h : Halted op link t u) : Turn op link t u
  | stall {u : Edit} (hop : op.Retires link) (h : Stalled t u) : Turn op link t u
  | retire {t' : Edit} (hop : op.Retires link) (h : Retired t t') : Turn op link t t'
  | resolve {u : Edit} (h : Readied op link t u) (prepared : PreparedCommit)
    (publication : PublicationId) (publisher : PublisherId) (counters : EngineStats)
    (records : List EvidenceRecord) (hfits : prepared.Fits u)
    (htarget : prepared.targetState = prepared.resolution.state)
    (hresolution : prepared.resolution.conclusion =
      (resolveLinkState records u.entry.record).conclusion)
    (hrecords : op.Ordinary → (op.Single → (t.entry.current.map (·.key)).Nodup) →
      (resolveLinkState records u.entry.record).conclusion =
        (resolveLinkState u.entry.current u.entry.record).conclusion)
    (hclaims : ∀ x ∈ records, ∃ y ∈ u.entry.current, y.claim = x.claim ∧
      y.degradationCause = x.degradationCause) :
    Turn op link t
      { u.commitPrepared prepared publication publisher with
        impl := { (u.commitPrepared prepared publication publisher).impl with counters } }

/-! ## Groundwork -/

namespace Groundwork

variable {op : Op} {link : LinkId} {t u v : Edit}

theorem refl (t : Edit) : Groundwork op link t t :=
  ⟨.refl t, le_rfl, rfl, rfl, rfl, rfl, rfl, .inl rfl, .inl rfl, rfl, rfl, fun _ => .inl⟩

/-- A step that changes neither the binding nor the intent. -/
theorem step (h : Groundwork op link t u) (frame : EditFrame u v)
    (topologyGeneration : u.impl.topologyGeneration ≤ v.impl.topologyGeneration)
    (state : v.entry.record.state = u.entry.record.state)
    (resultClass : v.entry.record.resultClass = u.entry.record.resultClass)
    (everEstablished : v.entry.record.everEstablished = u.entry.record.everEstablished)
    (stateGeneration : v.entry.record.stateGeneration = u.entry.record.stateGeneration)
    (globalState : v.impl.globalStateGeneration = u.impl.globalStateGeneration)
    (binding : v.entry.record.binding = u.entry.record.binding)
    (intent : v.entry.record.adminIntent = u.entry.record.adminIntent)
    (degradationCause : v.entry.record.degradationCause = u.entry.record.degradationCause)
    (history : v.entry.record.history = u.entry.record.history) :
    Groundwork op link t v where
  frame := h.frame.trans frame
  topologyGeneration := h.topologyGeneration.trans topologyGeneration
  state := state.trans h.state
  resultClass := resultClass.trans h.resultClass
  everEstablished := everEstablished.trans h.everEstablished
  stateGeneration := stateGeneration.trans h.stateGeneration
  globalState := globalState.trans h.globalState
  binding := by rw [binding]; exact h.binding
  intent := by rw [intent]; exact h.intent
  degradationCause := degradationCause.trans h.degradationCause
  history := history.trans h.history
  imposed := by rw [intent]; exact h.imposed

theorem drop (h : Groundwork op link t u) (explain : Explanation) :
    Groundwork op link t (u.dropEvidence explain) := by
  have hframe := EditFrame.dropEvidence u explain
  obtain ⟨_, _, heq, -⟩ := u.dropEvidence_eq explain
  rw [heq] at hframe ⊢
  exact h.step hframe le_rfl rfl rfl rfl rfl rfl rfl rfl rfl rfl

theorem count (h : Groundwork op link t u) {cs : List Counter} {b : Bool} (hs : .state ∉ cs)
    (hg : .globalState ∉ cs) (hc : u.advanceAll cs = (v, b)) : Groundwork op link t v := by
  have hcount := Edit.advanceAll_advances cs hs u
  have hstates := Edit.advanceAll_states_eq hs hg u
  rw [hc] at hcount hstates
  have hframe := EditFrame.count hcount
  obtain ⟨g, gs, e, s, rfl, -⟩ := hcount.counters
  exact h.step hframe le_rfl rfl rfl rfl hstates.1 hstates.2 rfl rfl rfl rfl

theorem stamp (h : Groundwork op link t u) : Groundwork op link t u.stampGlobal :=
  h.step (.still rfl rfl (.refl _) rfl rfl rfl rfl rfl) le_rfl rfl rfl rfl rfl rfl rfl rfl rfl rfl

theorem raise (h : Groundwork op link t u) : Groundwork op link t u.raiseTopology := by
  have hframe := (@EditStep.raise (fun _ => True) link u).frame
  obtain ⟨g, hle, heq⟩ := u.raiseTopology_eq
  rw [heq] at hframe ⊢
  exact h.step hframe hle rfl rfl rfl rfl rfl rfl rfl rfl rfl

theorem release (h : Groundwork op link t u) (publisher : PublisherId) (l : LinkId) :
    Groundwork op link t (u.releaseLink publisher l) := by
  have hframe := (@EditStep.release (fun _ => True) l u publisher).frame
  unfold Edit.releaseLink at hframe ⊢
  split
  · exact h
  · rename_i hp
    rw [if_neg hp] at hframe
    exact h.step hframe le_rfl rfl rfl rfl rfl rfl rfl rfl rfl rfl

theorem intend (h : Groundwork op link t u) (hop : op.Transitions link)
    {intent : Option AdministrativeIntent} (hintent : ∀ i ∈ intent, i.Recordable)
    (himposed : ∀ i ∈ intent, ∃ request, op = .transitionState request ∧
      i.state = request.target ∧ i.cause = request.degradationCause) :
    Groundwork op link t { u with entry.record.adminIntent := intent } :=
  { h with
    frame := h.frame.trans (.still rfl rfl (.refl _) rfl rfl rfl rfl rfl)
    intent := .inr ⟨hop, hintent⟩
    imposed := fun i hi => .inr (himposed i hi) }

theorem rebind {binding : TopologyBinding} (h : Rebinds link t.entry binding) :
    Groundwork op link t ((t.dropEvidence (explainRebinding binding)).rebind binding) := by
  have hframe := (@EditStep.rebind (fun _ => True) link t trivial binding h).frame
  obtain ⟨_, _, heq, -⟩ := t.dropEvidence_eq (explainRebinding binding)
  rw [heq] at hframe ⊢
  exact ⟨hframe, le_rfl, rfl, rfl, rfl, rfl, rfl, .inr h, .inl rfl, rfl, rfl, fun _ => .inl⟩

theorem noteAcceptance_eq (impl : Impl) (publisher : PublisherId) : ∃ publishers counters,
    impl.noteAcceptance publisher =
      { impl with store := { impl.store with publishers }, counters } := by
  unfold Impl.noteAcceptance
  dsimp only
  split <;> exact ⟨_, _, rfl⟩

theorem accept (h : Groundwork op link t u) (observation : EvidenceRecord) :
    Groundwork op link t (u.accept observation) := by
  have hframe : EditFrame u (u.accept observation) := by
    refine EditFrame.trans (?_ : EditFrame u (u.stampGlobal.storeEvidence observation))
      (.noteAcceptance _ observation.publisher)
    exact .still rfl rfl ⟨fun _ => rfl, rfl, rfl, rfl⟩ rfl rfl rfl rfl rfl
  unfold Edit.accept at hframe ⊢
  dsimp only at hframe ⊢
  obtain ⟨_, _, heq⟩ := noteAcceptance_eq (u.stampGlobal.storeEvidence observation).impl
    observation.publisher
  rw [heq] at hframe ⊢
  exact h.step hframe le_rfl rfl rfl rfl rfl rfl rfl rfl rfl rfl

end Groundwork

/-! ## Edits -/

section Edits

variable {op : Op} {link : LinkId} {t u : Edit}

/-- Evidence is dropped, and the counters of the edit advance. -/
theorem drop_current_subset {explain : Explanation} {cs : List Counter} {b : Bool}
    (hc : (t.dropEvidence explain).advanceAll cs = (u, b)) :
    u.entry.current ⊆ t.entry.current := by
  obtain ⟨g, gs, e, s, heq⟩ := Edit.advanceAll_withCounters cs (t.dropEvidence explain)
  rw [hc] at heq
  subst heq
  exact List.filter_sublist.subset

/-- An edit whose counters do not all advance halts. -/
theorem halted_of_stops {w : Edit} {cs : List Counter} (h : Groundwork op link t w)
    (hs : .state ∉ cs) (hg : .globalState ∉ cs) (hc : w.advanceAll cs = (u, false))
    (hcurrent : u.entry.current ⊆ t.entry.current)
    (hintent : w.entry.record.adminIntent = t.entry.record.adminIntent ∨
      w.entry.record.adminIntent = none)
    (hevidence : u.entry.current = t.entry.current ∨
      t.entry.record.evidenceGeneration < u.entry.record.evidenceGeneration ∨
      t.Spent .evidence ∨ op.Single ∧ t.Spent .global) : Halted op link t u := by
  refine { h.count hs hg hc with current := hcurrent, evidence := hevidence, lifted := ?_
                                 exhausted := .inr (advanceAll_of_unsaturated hc) }
  obtain ⟨_, _, _, _, heq⟩ := Edit.advanceAll_withCounters cs w
  rw [hc] at heq
  subst heq
  exact hintent

/-- A link that is about to be resolved is resolved, or a state generation is exhausted. -/
theorem recompute_turn {trigger : TransitionTrigger} (h : Readied op link t u)
    (hcurrent : u.entry.current ⊆ t.entry.current)
    (hintent : u.entry.record.adminIntent = t.entry.record.adminIntent)
    (ht : trigger ∈ inboundTriggers .revalidationRequired) (publication : PublicationId)
    (publisher : PublisherId) :
    Turn op link t (u.recomputeLink trigger publication publisher).1 := by
  unfold Edit.recomputeLink
  dsimp only
  split
  · rename_i hok
    have hfits := (prepareCommit_ok hok).1
    exact .resolve h _ publication publisher
      (u.commitPrepared _ publication publisher).impl.counters u.entry.current hfits
      (by rw [prepareCommit_target, prepareCommit_resolution]) (by rw [prepareCommit_resolution])
      (fun _ _ => rfl) fun x hx => ⟨x, hx, rfl, rfl⟩
  · rename_i hok
    refine .halt { h.toGroundwork with
      current := hcurrent, evidence := h.evidence.imp_right .inl, lifted := .inl hintent
      exhausted := ?_ }
    rw [← h.state]
    by_contra hx
    obtain ⟨hlive, hu⟩ := not_or.mp hx
    exact hok (recompute_ok hlive ht (not_not.mp hu))

/-- What is put back in place of the counters of an edit that has not counted yet. -/
def Edit.SameCounts (t w : Edit) : Prop := ∀ c, w.count c = t.count c

theorem sameCounts_drop (t : Edit) (explain : Explanation) : t.SameCounts (t.dropEvidence explain) := by
  obtain ⟨_, _, heq, -⟩ := t.dropEvidence_eq explain
  rw [heq]
  intro c
  cases c <;> rfl

/-- A revalidation has not counted yet when it has let go of the evidence of its publisher. -/
theorem sameCounts_revalidation (t : Edit) (request : MarkRevalidationRequest) :
    t.SameCounts ((t.dropEvidence (explainRevalidation request)).releaseLink request.publisher
      request.link) := by
  intro c
  rw [← sameCounts_drop t (explainRevalidation request) c]
  unfold Edit.releaseLink
  split
  · rfl
  · cases c <;> rfl

section Counted

variable {w : Edit} {cs : List Counter} (hw : t.SameCounts w)

include hw

/-- A counter that is named has grown. -/
theorem count_lt {c : Counter} (hc : w.advanceAll cs = (u, true)) (hmem : c ∈ cs) :
    t.count c < u.count c := by
  rw [Edit.advanceAll_count hc, hw c]
  exact Nat.lt_add_of_pos_right (List.count_pos_iff.mpr hmem)

/-- Where the evidence generation comes first, it advances or is exhausted. -/
theorem evidence_first (hc : w.advanceAll (.evidence :: cs) = (u, false)) :
    t.count .evidence < u.count .evidence ∨ t.Spent .evidence := by
  obtain ⟨before, c, after, heq, hbefore, hspent⟩ := Edit.advanceAll_stops hc
  cases before with
  | nil =>
    cases heq
    cases hbefore
    refine .inr ?_
    rwa [Edit.Spent, hw] at hspent
  | cons c' before =>
    cases heq
    exact .inl (count_lt hw hbefore List.mem_cons_self)

/-- Where the global generation comes first, it or the evidence generation is exhausted. -/
theorem global_first (hc : w.advanceAll [.global, .evidence] = (u, false)) :
    t.Spent .evidence ∨ t.Spent .global := by
  by_contra hx
  obtain ⟨he, hg⟩ := not_or.mp hx
  rw [Edit.Spent, ← hw] at he hg
  obtain ⟨u', hu'⟩ : ∃ u', w.advanceAll [.global, .evidence] = (u', true) := by
    refine Edit.advanceAll_of_not_spent (by decide) ?_
    simp only [List.mem_cons, List.not_mem_nil, or_false, forall_eq_or_imp, forall_eq]
    exact ⟨hg, he⟩
  rw [hu'] at hc
  cases hc

theorem evidence_lt (hc : w.advanceAll cs = (u, true)) (hmem : .evidence ∈ cs) :
    t.entry.record.evidenceGeneration < u.entry.record.evidenceGeneration := count_lt hw hc hmem

theorem global_lt (hc : w.advanceAll cs = (u, true)) (hmem : .global ∈ cs) :
    t.impl.globalGeneration < u.impl.globalGeneration := count_lt hw hc hmem

end Counted

/-- The intent is not that of the counters. -/
theorem intent_of_counted {w : Edit} {cs : List Counter} {b : Bool} (hc : w.advanceAll cs = (u, b)) :
    u.entry.record.adminIntent = w.entry.record.adminIntent := by
  obtain ⟨_, _, _, _, heq⟩ := Edit.advanceAll_withCounters cs w
  rw [hc] at heq
  subst heq
  rfl

theorem intent_dropEvidence (t : Edit) (explain : Explanation) :
    (t.dropEvidence explain).entry.record.adminIntent = t.entry.record.adminIntent := by
  rw [Edit.dropEvidence_record]

end Edits

section Operations

variable {op : Op} {link : LinkId} {impl : Impl} {entry : LinkEntry}

theorem purgeLink_turn {explain : Impl → LinkEntry → Explanation} {trigger : TransitionTrigger}
    (ht : trigger ∈ inboundTriggers .revalidationRequired) (kind : Text)
    (hentry : impl.entryOf link = some entry) :
    impl.purgeLink explain trigger kind link = impl ∨ entry.current ≠ [] ∧
      ∃ t, Turn op link ⟨impl, entry⟩ t ∧
        impl.purgeLink explain trigger kind link = t.commit link := by
  unfold Impl.purgeLink
  rw [hentry]
  dsimp only
  split
  · exact .inl rfl
  rename_i hall
  refine .inr ⟨fun hnil => hall (by simp [hnil]), ?_⟩
  have hdrop : Groundwork op link ⟨impl, entry⟩ _ := (Groundwork.refl _).drop (explain impl entry)
  have hcounts := sameCounts_drop ⟨impl, entry⟩ (explain impl entry)
  have hintent := intent_dropEvidence ⟨impl, entry⟩ (explain impl entry)
  split
  · rename_i u hc
    exact ⟨u, .halt (halted_of_stops hdrop (by decide) (by decide) hc (drop_current_subset hc)
      (.inl hintent) (.inr ((evidence_first hcounts hc).imp_right .inl))), rfl⟩
  · rename_i u hc
    have hsub := drop_current_subset hc
    have hevidence := evidence_lt hcounts hc (by decide)
    have hglobal := global_lt hcounts hc (by decide)
    have hready : Readied op link ⟨impl, entry⟩ u.stampGlobal :=
      { (hdrop.count (by decide) (by decide) hc).stamp with
        current := .inl hsub
        evidence := .inr hevidence
        globalGeneration := .inl hglobal }
    exact ⟨_, recompute_turn hready hsub ((intent_of_counted hc).trans hintent) ht _ _, rfl⟩

/-- The edit of a rebinding, and whether its dependents are invalidated after it. -/
theorem applyRebinding_turn {binding : TopologyBinding} (h : Rebinds link entry binding)
    (reason : Text) : ∃ t, Turn op link ⟨impl, entry⟩ t ∧
      ((Edit.applyRebinding ⟨impl, entry⟩ link binding reason).1 = t.commit link ∨
        ∃ l, (Edit.applyRebinding ⟨impl, entry⟩ link binding reason).1 =
          (t.commit link).invalidateStaleDependents l) := by
  have hrebind : Groundwork op link ⟨impl, entry⟩ _ := .rebind h
  have hcounts : Edit.SameCounts ⟨impl, entry⟩
      ((Edit.dropEvidence ⟨impl, entry⟩ (explainRebinding binding)).rebind binding) := by
    intro c
    rw [← sameCounts_drop ⟨impl, entry⟩ (explainRebinding binding) c]
    cases c <;> rfl
  have hintent := intent_dropEvidence ⟨impl, entry⟩ (explainRebinding binding)
  have hsub {u : Edit} {b : Bool} (hc : ((Edit.dropEvidence ⟨impl, entry⟩
      (explainRebinding binding)).rebind binding).advanceAll [.evidence, .global] = (u, b)) :
      u.entry.current ⊆ entry.current := by
    obtain ⟨_, _, _, _, heq⟩ := Edit.advanceAll_withCounters [.evidence, .global]
      ((Edit.dropEvidence ⟨impl, entry⟩ (explainRebinding binding)).rebind binding)
    rw [hc] at heq
    subst heq
    exact List.filter_sublist.subset
  unfold Edit.applyRebinding
  dsimp only
  -- A counter is exhausted: the new binding stands, and the state is not resolved again.
  split
  · rename_i u hc
    exact ⟨u, .halt (halted_of_stops hrebind (by decide) (by decide) hc (hsub hc) (.inl hintent)
      (.inr ((evidence_first hcounts hc).imp_right .inl))), .inl rfl⟩
  · rename_i u hc
    have hsub := hsub hc
    have hevidence := evidence_lt hcounts hc (by decide)
    have hglobal := global_lt hcounts hc (by decide)
    have hintent := (intent_of_counted hc).trans hintent
    have hturn (publication : PublicationId) : Turn op link ⟨impl, entry⟩
        (u.stampGlobal.raiseTopology.recomputeLink .topologyInvalidation publication .null).1 := by
      have hground := (hrebind.count (by decide) (by decide) hc).stamp.raise
      obtain ⟨_, -, heq⟩ := u.stampGlobal.raiseTopology_eq
      rw [heq] at hground ⊢
      exact recompute_turn { hground with
        current := .inl hsub
        evidence := .inr hevidence
        globalGeneration := .inl hglobal } hsub hintent (by decide) publication .null
    split
    · rename_i t _ heq
      refine ⟨t, ?_, .inr ⟨_, rfl⟩⟩
      have := hturn (.fromValidated (publicationIdFor (lit "topology")
        u.stampGlobal.raiseTopology.impl.globalGeneration.value))
      rwa [heq] at this
    · rename_i t _ _ _ heq
      refine ⟨t, ?_, .inl rfl⟩
      have := hturn (.fromValidated (publicationIdFor (lit "topology")
        u.stampGlobal.raiseTopology.impl.globalGeneration.value))
      rwa [heq] at this

theorem reconcileLink_turn (changed : Nat) (hentry : impl.entryOf link = some entry)
    (hlive : entry.record.state ≠ .retired) : ∃ t, Turn .reconcile link ⟨impl, entry⟩ t ∧
      (Impl.reconcileLink (impl, changed) link).1 = t.commit link := by
  have hready : Readied .reconcile link ⟨impl, entry⟩ ⟨impl, entry⟩ :=
    { Groundwork.refl _ with
      current := .inl (List.Subset.refl _)
      evidence := .inl rfl
      globalGeneration := .inr ⟨rfl, rfl⟩ }
  have hturn := fun publication => recompute_turn hready (List.Subset.refl _) rfl
    (show TransitionTrigger.evidenceResolution ∈ _ by decide) publication .null
  unfold Impl.reconcileLink
  dsimp only
  rw [hentry]
  dsimp only
  rw [if_neg hlive]
  have := hturn (.fromValidated (publicationIdFor (lit "reconcile") impl.globalGeneration.value))
  split
  · rename_i t _ heq
    exact ⟨t, by rwa [heq] at this, rfl⟩
  · rename_i t _ _ _ heq
    exact ⟨t, by rwa [heq] at this, rfl⟩

/-- What retirement drops, it drops altogether. -/
theorem current_of_retirement {t u : Edit} {cs : List Counter} {b : Bool}
    (hc : (t.dropEvidence explainRetirement).advanceAll cs = (u, b)) : u.entry.current = [] := by
  obtain ⟨_, _, _, _, heq⟩ := Edit.advanceAll_withCounters cs (t.dropEvidence explainRetirement)
  rw [hc] at heq
  subst heq
  simp [explainRetirement, Edit.withCounters]

theorem Retired.enter {t v : Edit} (request : RetireLinkRequest)
    (hlive : t.entry.record.state ≠ .retired) (hframe : EditFrame t v)
    (htopology : v.impl.topologyGeneration = t.impl.topologyGeneration)
    (hstate : v.entry.record.state = t.entry.record.state)
    (hhistory : v.entry.record.history = t.entry.record.history)
    (hbinding : v.entry.record.binding = t.entry.record.binding)
    (hintent : v.entry.record.adminIntent = t.entry.record.adminIntent)
    (hcurrent : v.entry.current = []) (hcount : ∀ c, v.count c = t.count c + 1) :
    Retired t (v.enterRetired request) := by
  have hgrown (c : Counter) : t.count c < v.count c := by
    rw [hcount]
    exact Nat.lt_succ_self _
  have hconfig := hframe.config
  have hframe := hframe.trans (.enterRetired v request)
  have hpushed : ∃ history, history.stateGeneration = v.entry.record.stateGeneration ∧
      history.fromState = t.entry.record.state ∧ history.toState = .retired ∧
      history.trigger = .retirement ∧ (v.enterRetired request).entry.record.history =
        (pushHistory t.entry history t.impl.config.maxHistoryPerLink).record.history := by
    unfold Edit.enterRetired
    dsimp only [Edit.stampTransition]
    rw [Edit.history_pushHistory hhistory _ (congrArg EngineConfig.maxHistoryPerLink hconfig)]
    exact ⟨_, rfl, hstate, rfl, rfl, rfl⟩
  obtain ⟨_, _, -, heq⟩ := v.enterRetired_eq request
  rw [heq] at hframe hpushed ⊢
  exact ⟨hframe, hlive, htopology, rfl, rfl, hbinding, hintent, hcurrent, hgrown .evidence,
    hgrown .global, hgrown .state, hgrown .globalState, rfl, hcount .state, hpushed⟩

/-- The edit of a retirement, and whether its dependents are invalidated after it. -/
theorem retire_turn {request : RetireLinkRequest} (hlive : entry.record.state ≠ .retired) :
    ∃ t, Turn (.retireLink request) request.link ⟨impl, entry⟩ t ∧
      ((Edit.retire ⟨impl, entry⟩ request).1 = t.commit request.link ∨
        ∃ l, (Edit.retire ⟨impl, entry⟩ request).1 =
          (t.commit request.link).invalidateStaleDependents l) := by
  have hop : (Op.retireLink request).Retires request.link := ⟨request, rfl, rfl⟩
  have hdrop : Groundwork (.retireLink request) request.link ⟨impl, entry⟩ _ :=
    (Groundwork.refl _).drop explainRetirement
  have hcounts := sameCounts_drop ⟨impl, entry⟩ explainRetirement
  have hintent := intent_dropEvidence ⟨impl, entry⟩ explainRetirement
  obtain ⟨_, _, hdropped, -⟩ := Edit.dropEvidence_eq ⟨impl, entry⟩ explainRetirement
  have hframe {u : Edit} (hcount : (Edit.dropEvidence ⟨impl, entry⟩ explainRetirement).Advances u) :
      EditFrame ⟨impl, entry⟩ u := (EditFrame.dropEvidence _ _).trans (.count hcount)
  unfold Edit.retire
  split
  · rename_i u hc
    refine ⟨u, ?_, .inl rfl⟩
    have hsub := drop_current_subset hc
    have hframe := hframe (advanceAll_retirement _ hc).1
    obtain ⟨before, c, after, heq, hbefore, hspent⟩ := Edit.advanceAll_stops hc
    -- A halt before the state generation of the link has advanced.
    have hhalt (hs : .state ∉ before) (hg : .globalState ∉ before)
        (hevidence : Edit.count ⟨impl, entry⟩ .evidence < u.count .evidence ∨
          Edit.Spent ⟨impl, entry⟩ .evidence) :
        Turn (.retireLink request) request.link ⟨impl, entry⟩ u :=
      .halt { hdrop.count hs hg hbefore with
        current := hsub
        evidence := .inr (hevidence.imp_right .inl)
        lifted := .inl ((intent_of_counted hbefore).trans hintent)
        exhausted := .inr (advanceAll_of_unsaturated hc) }
    rcases before with _ | ⟨c1, _ | ⟨c2, _ | ⟨c3, _ | ⟨c4, before⟩⟩⟩⟩
    · cases heq
      refine hhalt (by decide) (by decide) (.inr ?_)
      cases hbefore
      rwa [Edit.Spent, hcounts] at hspent
    · cases heq
      exact hhalt (by decide) (by decide) (.inl (count_lt hcounts hbefore (by decide)))
    · cases heq
      exact hhalt (by decide) (by decide) (.inl (count_lt hcounts hbefore (by decide)))
    · cases heq
      have hevidence := evidence_lt hcounts hbefore (by decide)
      have hglobal := global_lt hcounts hbefore (by decide)
      have hstate := count_lt hcounts hbefore (show Counter.state ∈ _ by decide)
      have hsame := Edit.advanceAll_count hbefore .globalState
      rw [hcounts] at hsame
      obtain ⟨_, _, _, _, hcounted⟩ := Edit.advanceAll_withCounters [.evidence, .global, .state]
        (Edit.dropEvidence ⟨impl, entry⟩ explainRetirement)
      rw [hbefore, hdropped] at hcounted
      refine .stall hop ⟨hframe, hlive, ?_, ?_, ?_, ?_, ?_, ?_, current_of_retirement hbefore,
        hevidence, hglobal, hstate, StrongGeneration.ext hsame, hspent, ?_, ?_⟩ <;>
      · subst hcounted
        rfl
    · simp at heq
  · rename_i u hc
    refine ⟨_, ?_, .inr ⟨_, rfl⟩⟩
    have hframe := hframe (advanceAll_retirement _ hc).1
    obtain ⟨_, _, _, _, hcounted⟩ := Edit.advanceAll_withCounters
      [.evidence, .global, .state, .globalState]
      (Edit.dropEvidence ⟨impl, entry⟩ explainRetirement)
    rw [hc, hdropped] at hcounted
    refine .retire hop (.enter request hlive (hframe.trans ?_) ?_ ?_ ?_ ?_ ?_ ?_ fun c => ?_)
    · exact .still rfl rfl (.refl _) rfl rfl rfl rfl rfl
    · subst hcounted
      rfl
    · subst hcounted
      rfl
    · subst hcounted
      rfl
    · subst hcounted
      rfl
    · subst hcounted
      rfl
    · have hempty := current_of_retirement hc
      exact hempty
    · have hcount := Edit.advanceAll_count hc c
      rw [hcounts] at hcount
      refine Eq.trans ?_ (hcount.trans (congrArg _ ?_)) <;> cases c <;> rfl

theorem publish_turn {request : PublishEvidenceRequest} {prepared : PreparedCommit}
    (h : Admitted impl request entry prepared) :
    ∃ t, Turn (.publishEvidence request) request.observation.key.link ⟨impl, entry⟩ t ∧
      (Edit.publish ⟨impl, entry⟩ request prepared).1 = t.commit request.observation.key.link := by
  have hdrop : Groundwork (.publishEvidence request) request.observation.key.link ⟨impl, entry⟩ _ :=
    (Groundwork.refl _).drop (explainPublication request.observation)
  have hcounts := sameCounts_drop ⟨impl, entry⟩ (explainPublication request.observation)
  unfold Edit.publish
  dsimp only
  split
  -- A counter is exhausted: the evidence that makes way is gone, and nothing is stored.
  · rename_i u hc
    exact ⟨u, .halt (halted_of_stops hdrop (by decide) (by decide) hc (drop_current_subset hc)
      (.inl (intent_dropEvidence _ _)) (.inr (.inr ((global_first hcounts hc).imp_right
        fun hspent => ⟨trivial, hspent⟩)))), rfl⟩
  · rename_i u hc
    have hcount := Edit.advanceAll_advances [.global, .evidence] (by decide)
      (Edit.dropEvidence ⟨impl, entry⟩ (explainPublication request.observation))
    rw [hc] at hcount
    have hground := (hdrop.count (by decide) (by decide) hc).accept request.observation
    have hevidence := evidence_lt hcounts hc (by decide)
    have hglobal := global_lt hcounts hc (by decide)
    have haccepted : (u.accept request.observation).impl.globalGeneration =
        u.impl.globalGeneration := by
      unfold Edit.accept
      dsimp only
      obtain ⟨_, _, heq⟩ := Groundwork.noteAcceptance_eq
        (u.stampGlobal.storeEvidence request.observation).impl request.observation.publisher
      rw [heq]
      rfl
    -- The records that the observation supersedes are those whose slot the edit has dropped.
    have hcurrent : (u.accept request.observation).entry.current = sortBy evidenceLess
        (entry.current.filter (!supersedes request.observation ·) ++
          [u.stampGlobal.storedRecord request.observation]) := by
      have hleft : u.entry.current = entry.current.filter (!supersedes request.observation ·) := by
        obtain ⟨_, _, _, _, rfl, -⟩ := hcount.counters
        exact List.filter_congr fun r _ => explainPublication_isNone request.observation r
      rw [← hleft]
      rfl
    refine ⟨_, .resolve { hground with
        current := .inr ⟨request, _, rfl, rfl, ⟨prepared, h⟩, ⟨_, rfl⟩, hcurrent⟩
        evidence := .inr hevidence
        globalGeneration := .inl (by rw [haccepted]; exact hglobal) }
      prepared request.publication request.observation.publisher
      ((u.accept request.observation).commitPrepared prepared request.publication
        request.observation.publisher).impl.counters
      (prospectiveWith entry request.observation) (h.fits_accept hc) ?_ ?_ ?_ fun x hx => ?_, rfl⟩
    · rw [h.prepared_eq, prepareCommit_target, prepareCommit_resolution]
    · rw [h.prepared_eq, prepareCommit_resolution]
      obtain ⟨_, _, hdropped, -⟩ :=
        Edit.dropEvidence_eq ⟨impl, entry⟩ (explainPublication request.observation)
      rw [hdropped] at hcount
      obtain ⟨_, _, _, _, rfl, -⟩ := hcount.counters
      exact congrArg _ (resolveLinkState_congr _ rfl rfl rfl).symm
    -- The stored record is Current whatever the caller filled in, so that the status matters here.
    · intro hstatus hnodup
      rw [← resolve_accept hstatus (hnodup trivial) hcount]
      refine congrArg _ ?_
      obtain ⟨_, _, hdropped, -⟩ :=
        Edit.dropEvidence_eq ⟨impl, entry⟩ (explainPublication request.observation)
      rw [hdropped] at hcount
      obtain ⟨_, _, _, _, rfl, -⟩ := hcount.counters
      exact resolveLinkState_congr _ rfl rfl rfl
    · rw [hcurrent]
      unfold prospectiveWith at hx
      rcases List.mem_append.mp hx with hx | hx
      · exact ⟨x, (mem_sortBy _).mpr (List.mem_append_left _ hx), rfl, rfl⟩
      · rw [List.mem_singleton.mp hx]
        exact ⟨_, (mem_sortBy _).mpr (List.mem_append_right _ (List.mem_singleton_self _)), rfl, rfl⟩

theorem withdraw_turn {request : WithdrawEvidenceRequest}
    (hok : (prepareCommit impl entry (entry.current.filter (·.key ≠ request.key))
      .evidenceWithdrawal).ok = true) :
    ∃ t, Turn (.withdrawEvidence request) request.key.link ⟨impl, entry⟩ t ∧
      (Edit.withdraw ⟨impl, entry⟩ request (prepareCommit impl entry
        (entry.current.filter (·.key ≠ request.key)) .evidenceWithdrawal)).1 =
        t.commit request.key.link := by
  have hdrop : Groundwork (.withdrawEvidence request) request.key.link ⟨impl, entry⟩ _ :=
    (Groundwork.refl _).drop (explainWithdrawal request)
  have hcounts := sameCounts_drop ⟨impl, entry⟩ (explainWithdrawal request)
  have hfits := (prepareCommit_ok hok).1
  unfold Edit.withdraw
  dsimp only
  split
  · rename_i u hc
    exact ⟨u, .halt (halted_of_stops hdrop (by decide) (by decide) hc (drop_current_subset hc)
      (.inl (intent_dropEvidence _ _)) (.inr (.inr ((global_first hcounts hc).imp_right
        fun hspent => ⟨trivial, hspent⟩)))), rfl⟩
  · rename_i u hc
    have hcount := Edit.advanceAll_advances [.global, .evidence] (by decide)
      (Edit.dropEvidence ⟨impl, entry⟩ (explainWithdrawal request))
    rw [hc] at hcount
    have hfits := @releaseLink_fits _ u.stampGlobal
      (((hfits.dropEvidence _).advanceAll (by decide) (by decide) hc).congr rfl rfl rfl)
      request.publisher request.key.link
    have hground := (hdrop.count (by decide) (by decide) hc).stamp.release request.publisher
      request.key.link
    have hevidence := evidence_lt hcounts hc (by decide)
    have hglobal := global_lt hcounts hc (by decide)
    have hsub := drop_current_subset hc
    have hentry := releaseLink_entry u.stampGlobal request.publisher request.key.link
    -- What is left is the evidence that was resolved before the edit began.
    have hleft : u.entry.current = entry.current.filter (·.key ≠ request.key) := by
      obtain ⟨_, _, _, _, rfl, -⟩ := hcount.counters
      exact List.filter_congr fun r _ => explainWithdrawal_isNone request r
    have hgeneration : (u.stampGlobal.releaseLink request.publisher
        request.key.link).impl.globalGeneration = u.impl.globalGeneration := by
      unfold Edit.releaseLink
      split <;> rfl
    refine ⟨_, .resolve { hground with
        current := .inl (by rw [hentry]; exact hsub)
        evidence := .inr (by rw [hentry]; exact hevidence)
        globalGeneration := .inl (by rw [hgeneration]; exact hglobal) }
      _ .null request.publisher _ (entry.current.filter (·.key ≠ request.key)) hfits
      (by rw [prepareCommit_target, prepareCommit_resolution]) ?_ (fun _ _ => ?_)
      fun x hx => ⟨x, ?_, rfl, rfl⟩, rfl⟩
    · rw [prepareCommit_resolution, hentry]
      obtain ⟨_, _, hdropped, -⟩ := Edit.dropEvidence_eq ⟨impl, entry⟩ (explainWithdrawal request)
      rw [hdropped] at hcount
      obtain ⟨_, _, _, _, rfl, -⟩ := hcount.counters
      exact congrArg _ (resolveLinkState_congr _ rfl rfl rfl).symm
    · rw [hentry]
      refine congrArg (fun records => (resolveLinkState records _).conclusion) ?_
      exact hleft.symm
    · rw [hentry]
      exact hleft ▸ hx

theorem markRevalidation_turn {request : MarkRevalidationRequest}
    (hok : (prepareCommit impl entry (entry.current.filter (·.publisher ≠ request.publisher))
      .evidenceWithdrawal).ok = true) :
    ∃ t, Turn (.markRevalidationRequired request) request.link ⟨impl, entry⟩ t ∧
      (Edit.markRevalidation ⟨impl, entry⟩ request (prepareCommit impl entry
        (entry.current.filter (·.publisher ≠ request.publisher)) .evidenceWithdrawal)).1 =
        t.commit request.link := by
  have hfits := releaseLink_fits ((prepareCommit_ok hok).1.dropEvidence (explainRevalidation request))
    request.publisher request.link
  have hground : Groundwork (.markRevalidationRequired request) request.link ⟨impl, entry⟩ _ :=
    ((Groundwork.refl _).drop (explainRevalidation request)).release request.publisher request.link
  have hentry := releaseLink_entry (Edit.dropEvidence ⟨impl, entry⟩ (explainRevalidation request))
    request.publisher request.link
  have hcounts := sameCounts_revalidation ⟨impl, entry⟩ request
  have hintent : ((Edit.dropEvidence ⟨impl, entry⟩ (explainRevalidation request)).releaseLink
      request.publisher request.link).entry.record.adminIntent = entry.record.adminIntent := by
    rw [hentry]
    exact intent_dropEvidence ⟨impl, entry⟩ (explainRevalidation request)
  -- Every record of the publisher goes, and the others stay in their order.
  have hleft {u : Edit} {b : Bool} (hc : ((Edit.dropEvidence ⟨impl, entry⟩
      (explainRevalidation request)).releaseLink request.publisher request.link).advanceAll
      [.global, .evidence] = (u, b)) :
      u.entry.current = entry.current.filter (·.publisher ≠ request.publisher) := by
    obtain ⟨_, _, _, _, heq⟩ := Edit.advanceAll_withCounters [.global, .evidence]
      ((Edit.dropEvidence ⟨impl, entry⟩ (explainRevalidation request)).releaseLink
        request.publisher request.link)
    rw [hc] at heq
    subst heq
    change ((Edit.dropEvidence ⟨impl, entry⟩ (explainRevalidation request)).releaseLink
      request.publisher request.link).entry.current = _
    rw [hentry]
    exact List.filter_congr fun r _ => explainRevalidation_isNone request r
  unfold Edit.markRevalidation
  split
  · rename_i u hc
    refine ⟨u, .halt (halted_of_stops hground (by decide) (by decide) hc ?_ (.inl hintent)
      (.inr (.inr ((global_first hcounts hc).imp_right fun hspent => ⟨trivial, hspent⟩)))), rfl⟩
    rw [hleft hc]
    exact List.filter_sublist.subset
  · rename_i u hc
    have hcount := Edit.advanceAll_advances [.global, .evidence] (by decide)
      ((Edit.dropEvidence ⟨impl, entry⟩ (explainRevalidation request)).releaseLink
        request.publisher request.link)
    rw [hc] at hcount
    have hsub : u.entry.current ⊆ entry.current := by
      rw [hleft hc]
      exact List.filter_sublist.subset
    have hevidence := evidence_lt hcounts hc (by decide)
    have hglobal := global_lt hcounts hc (by decide)
    -- The edit has left alone what the resolver reads of the record.
    have hrecord : resolveLinkState (entry.current.filter (·.publisher ≠ request.publisher))
        u.stampGlobal.entry.record =
        resolveLinkState (entry.current.filter (·.publisher ≠ request.publisher)) entry.record := by
      have hsame : ((Edit.dropEvidence ⟨impl, entry⟩ (explainRevalidation request)).releaseLink
          request.publisher request.link).entry.record = entry.record := by
        rw [hentry, Edit.dropEvidence_record]
      obtain ⟨_, _, _, _, rfl, -⟩ := hcount.counters
      exact resolveLinkState_congr _ (congrArg (·.adminIntent) hsame)
        (congrArg (·.everEstablished) hsame) (congrArg (·.binding.symmetry) hsame)
    refine ⟨_, .resolve { (hground.count (by decide) (by decide) hc).stamp with
        current := .inl hsub
        evidence := .inr hevidence
        globalGeneration := .inl hglobal }
      _ request.publication request.publisher
      (u.stampGlobal.commitPrepared _ request.publication request.publisher).impl.counters
      (entry.current.filter (·.publisher ≠ request.publisher))
      ((hfits.advanceAll (by decide) (by decide) hc).congr rfl rfl rfl)
      (by rw [prepareCommit_target, prepareCommit_resolution]) ?_ (fun _ _ => ?_)
      fun x hx => ⟨x, ?_, rfl, rfl⟩, rfl⟩
    · rw [prepareCommit_resolution, hrecord]
    · rw [show u.stampGlobal.entry.current = u.entry.current from rfl, hleft hc]
    · rw [show u.stampGlobal.entry.current = u.entry.current from rfl, hleft hc]
      exact hx

/-- The edit of a change of intent, for a commit whose conclusion is that of the new intent. -/
theorem changeIntent_turn {request : TransitionStateRequest} {prepared : PreparedCommit} {t : Edit}
    (hground : Groundwork (.transitionState request) request.link ⟨impl, entry⟩ t)
    (hcurrent : t.entry.current = entry.current) (hcounts : Edit.SameCounts ⟨impl, entry⟩ t)
    (hlifted : t.entry.record.adminIntent = entry.record.adminIntent ∨
      t.entry.record.adminIntent = none)
    (hfits : prepared.Fits t) (htarget : prepared.targetState = prepared.resolution.state)
    {intent : Option AdministrativeIntent} (hintent : ∀ i ∈ intent, i.Recordable)
    (himposed : ∀ i ∈ intent, i.state = request.target ∧ i.cause = request.degradationCause)
    (hconclusion : ∀ generation, prepared.resolution.conclusion = (resolveLinkState t.entry.current
      { t.entry.record with
        adminIntent := intent.map fun i => { i with generation } }).conclusion) (detail : Text) :
    ∃ u, Turn (.transitionState request) request.link ⟨impl, entry⟩ u ∧
      (t.changeIntent intent request prepared detail).1 = u.commit request.link := by
  have hkept {u : Edit} {b : Bool} (hc : t.advanceAll [.global] = (u, b)) :
      u.entry.current = entry.current := by
    obtain ⟨_, _, _, _, heq⟩ := Edit.advanceAll_withCounters [.global] t
    rw [hc] at heq
    subst heq
    exact hcurrent
  have hsub {u : Edit} {b : Bool} (hc : t.advanceAll [.global] = (u, b)) :
      u.entry.current ⊆ entry.current := by
    rw [hkept hc]
    exact List.Subset.refl _
  unfold Edit.changeIntent
  split
  · rename_i u hc
    exact ⟨u, .halt (halted_of_stops hground (by decide) (by decide) hc (hsub hc) hlifted
      (.inl (hkept hc))), rfl⟩
  · rename_i u hc
    have hcount := Edit.advanceAll_advances [.global] (by decide) t
    rw [hc] at hcount
    have hglobal := global_lt hcounts hc (by decide)
    have hkept := hkept hc
    have hsub := hsub hc
    -- The intent takes the global generation of its own commit, which no bound on it depends on.
    have hrecordable : ∀ i ∈ intent.map fun i => { i with generation := u.impl.globalGeneration },
        i.Recordable := by
      intro i hi
      obtain ⟨i', hi', rfl⟩ := Option.map_eq_some_iff.mp hi
      exact { hintent i' hi' with }
    have himposed : ∀ i ∈ intent.map fun i => { i with generation := u.impl.globalGeneration },
        ∃ r, Op.transitionState request = .transitionState r ∧ i.state = r.target ∧
          i.cause = r.degradationCause := by
      intro i hi
      obtain ⟨i', hi', rfl⟩ := Option.map_eq_some_iff.mp hi
      exact ⟨request, rfl, himposed i' hi'⟩
    refine ⟨_, .resolve { ((hground.count (by decide) (by decide) hc).stamp.intend
          ⟨request, rfl, rfl⟩ hrecordable himposed) with
        current := .inl hsub
        evidence := .inl hkept
        globalGeneration := .inl hglobal }
      prepared request.publication request.publisher
      (Edit.commitPrepared { u.stampGlobal with
        entry.record.adminIntent := intent.map fun i =>
          { i with generation := u.impl.globalGeneration } } prepared request.publication
        request.publisher).impl.counters t.entry.current
      ((hfits.advanceAll (by decide) (by decide) hc).congr rfl rfl rfl) htarget ?_
      (fun _ _ => ?_) fun x hx => ⟨x, ?_, rfl, rfl⟩, rfl⟩
    · rw [hconclusion u.impl.globalGeneration]
      obtain ⟨_, _, _, _, rfl, -⟩ := hcount.counters
      exact congrArg _ (resolveLinkState_congr _ rfl rfl rfl).symm
    · rw [hcurrent, ← hkept]
      rfl
    · rw [hcurrent, ← hkept] at hx
      exact hx

theorem liftIntent_turn {request : TransitionStateRequest} :
    (Edit.liftIntent ⟨impl, entry⟩ request).1 = impl ∨
    ∃ u, Turn (.transitionState request) request.link ⟨impl, entry⟩ u ∧
      (Edit.liftIntent ⟨impl, entry⟩ request).1 = u.commit request.link := by
  unfold Edit.liftIntent
  split
  · exact .inl rfl
  extract_lets _ _ shadow prepared
  split
  · exact .inl rfl
  rename_i hok
  have hfits : prepared.Fits ⟨impl, shadow⟩ := (prepareCommit_ok (by simpa using hok)).1
  have hground : Groundwork (.transitionState request) request.link ⟨impl, entry⟩ ⟨impl, shadow⟩ :=
    (Groundwork.refl _).intend ⟨request, rfl, rfl⟩ (by simp) (by simp)
  refine .inr (changeIntent_turn hground rfl (fun c => by cases c <;> rfl) (.inr rfl) hfits ?_
    (by simp) (by simp) (fun generation => ?_) _)
  · rw [prepareCommit_target, prepareCommit_resolution]
  · rw [prepareCommit_resolution]
    rfl

theorem imposeIntent_turn {request : TransitionStateRequest}
    (hintent : ∀ generation, AdministrativeIntent.Recordable
      { state := request.target, publication := request.publication, publisher := request.publisher
        generation, cause := request.degradationCause }) :
    (Edit.imposeIntent ⟨impl, entry⟩ request).1 = impl ∨
    ∃ u, Turn (.transitionState request) request.link ⟨impl, entry⟩ u ∧
      (Edit.imposeIntent ⟨impl, entry⟩ request).1 = u.commit request.link := by
  unfold Edit.imposeIntent
  extract_lets intent _ _ shadow prepared
  split
  · exact .inl rfl
  rename_i hok
  have hfits : prepared.Fits ⟨impl, shadow⟩ := (prepareCommit_ok (by simpa using hok)).1
  have hfits : prepared.Fits ⟨impl, entry⟩ := hfits.congr rfl rfl rfl
  refine .inr (changeIntent_turn (.refl _) rfl (fun _ => rfl) (.inl rfl) hfits ?_ ?_ ?_
    (fun generation => ?_) _)
  · rw [prepareCommit_target, prepareCommit_resolution]
  · intro i hi
    cases hi
    exact hintent _
  · intro i hi
    cases hi
    exact ⟨rfl, rfl⟩
  · rw [prepareCommit_resolution]
    exact conclusion_underIntent rfl rfl rfl rfl

end Operations

end LinkState
