import LinkStateFabric.Engine.Publishers
import LinkStateFabric.Engine.Publish
import LinkStateFabric.Engine.Topology
import LinkStateFabric.ResolutionLemmas

/-!
# What the shared steps change

For each step of an edit, the fields it leaves alone and what it puts in the others. Later proofs
use these lemmas and do not unfold the steps.
-/

namespace LinkState

/-! ## Counters -/

/-- An edit with other values in the four counters. -/
def Edit.withCounters (t : Edit) (global : GlobalGeneration) (globalState : LinkStateGeneration)
    (evidence : EvidenceGeneration) (state : LinkStateGeneration) : Edit where
  impl := { t.impl with globalGeneration := global, globalStateGeneration := globalState }
  entry := { t.entry with record.evidenceGeneration := evidence, record.stateGeneration := state }

/-- The state generation of the record is not ahead of that of the engine. -/
def Edit.Ordered (t : Edit) : Prop :=
  t.entry.record.stateGeneration ≤ t.impl.globalStateGeneration

/-- Only the counters of an edit change, none goes back, and the state generations stay in order. -/
structure Edit.Advances (t t' : Edit) : Prop where
  counters : ∃ g gs e s, t' = t.withCounters g gs e s ∧ t.impl.globalGeneration ≤ g ∧
    t.impl.globalStateGeneration ≤ gs ∧ t.entry.record.evidenceGeneration ≤ e ∧
    t.entry.record.stateGeneration ≤ s
  ordered : t.Ordered → t'.Ordered

namespace Edit

variable {t t' : Edit}

theorem Advances.refl (t : Edit) : t.Advances t :=
  ⟨⟨_, _, _, _, rfl, le_rfl, le_rfl, le_rfl, le_rfl⟩, id⟩

theorem Advances.trans {t'' : Edit} (h : t.Advances t') (h' : t'.Advances t'') : t.Advances t'' := by
  refine ⟨?_, h'.ordered ∘ h.ordered⟩
  obtain ⟨g, gs, e, s, rfl, h1, h2, h3, h4⟩ := h.counters
  obtain ⟨g', gs', e', s', rfl, h1', h2', h3', h4'⟩ := h'.counters
  exact ⟨g', gs', e', s', rfl, h1.trans h1', h2.trans h2', h3.trans h3', h4.trans h4'⟩

theorem advance_advances {c : Counter} (hc : c ≠ .state) (h : t.advance c = some t') :
    t.Advances t' := by
  cases c with
  | state => exact absurd rfl hc
  | global =>
    simp only [advance, Option.map_eq_some_iff] at h
    obtain ⟨g, hg, rfl⟩ := h
    exact ⟨⟨_, _, _, _, rfl, (StrongGeneration.lt_next hg).le, le_rfl, le_rfl, le_rfl⟩, id⟩
  | evidence =>
    simp only [advance, Option.map_eq_some_iff] at h
    obtain ⟨g, hg, rfl⟩ := h
    exact ⟨⟨_, _, _, _, rfl, le_rfl, le_rfl, (StrongGeneration.lt_next hg).le, le_rfl⟩, id⟩
  | globalState =>
    simp only [advance, Option.map_eq_some_iff] at h
    obtain ⟨g, hg, rfl⟩ := h
    have hg := (StrongGeneration.lt_next hg).le
    exact ⟨⟨_, _, _, _, rfl, le_rfl, hg, le_rfl, le_rfl⟩, fun ho => le_trans ho hg⟩

/-- Counters advance together, and none that is not named. -/
theorem advanceAll_advances (cs : List Counter) (hc : .state ∉ cs) (t : Edit) :
    t.Advances (t.advanceAll cs).1 := by
  induction cs generalizing t with
  | nil => exact .refl t
  | cons c cs ih =>
    unfold advanceAll
    split
    · exact .refl t
    · rename_i t' h
      exact (advance_advances (List.ne_of_not_mem_cons hc).symm h).trans
        (ih (List.not_mem_of_not_mem_cons hc) t')

/-- A list of counters leaves the counters alone that it does not name. -/
theorem advanceAll_states_eq {cs : List Counter} (hs : .state ∉ cs) (hg : .globalState ∉ cs)
    (t : Edit) :
    (t.advanceAll cs).1.entry.record.stateGeneration = t.entry.record.stateGeneration ∧
    (t.advanceAll cs).1.impl.globalStateGeneration = t.impl.globalStateGeneration := by
  induction cs generalizing t with
  | nil => exact ⟨rfl, rfl⟩
  | cons c cs ih =>
    unfold advanceAll
    split
    · exact ⟨rfl, rfl⟩
    rename_i t' h
    obtain ⟨h1, h2⟩ := ih (List.not_mem_of_not_mem_cons hs) (List.not_mem_of_not_mem_cons hg) t'
    rw [h1, h2]
    cases c with
    | state => exact absurd List.mem_cons_self hs
    | globalState => exact absurd List.mem_cons_self hg
    | global | evidence =>
      simp only [advance, Option.map_eq_some_iff] at h
      obtain ⟨_, -, rfl⟩ := h
      exact ⟨rfl, rfl⟩

theorem advanceAll_append (cs cs' : List Counter) (t : Edit) :
    t.advanceAll (cs ++ cs') = match t.advanceAll cs with
      | (t, true) => t.advanceAll cs'
      | (t, false) => (t, false) := by
  induction cs generalizing t with
  | nil => rfl
  | cons c cs ih =>
    simp only [List.cons_append, advanceAll]
    cases t.advance c with
    | none => rfl
    | some t => exact ih t

/-- The two state generations advance together. Where only the first advances, the second is
exhausted. -/
theorem advanceAll_states (t : Edit) :
    t.Advances (t.advanceAll [.state, .globalState]).1 ∧
    ((t.advanceAll [.state, .globalState]).2 = true →
      0 < (t.advanceAll [.state, .globalState]).1.entry.record.stateGeneration.value) := by
  cases hs : t.entry.record.stateGeneration.next with
  | none =>
    simp only [advanceAll, advance, hs, Option.map_none]
    exact ⟨.refl t, fun h => by cases h⟩
  | some s =>
    have hss := StrongGeneration.next_eq_some hs
    cases hgs : t.impl.globalStateGeneration.next with
    | none =>
      simp only [advanceAll, advance, hs, hgs, Option.map_some, Option.map_none]
      refine ⟨⟨⟨_, _, _, _, rfl, le_rfl, le_rfl, le_rfl, (StrongGeneration.lt_next hs).le⟩,
        fun _ => ?_⟩, fun h => by cases h⟩
      have := s.bounded
      have hmax := StrongGeneration.next_eq_none.mp hgs
      simp only [StrongGeneration.saturated, decide_eq_true_eq] at hmax
      simp only [Ordered, StrongGeneration.le_iff]
      omega
    | some gs =>
      simp only [advanceAll, advance, hs, hgs, Option.map_some]
      refine ⟨⟨⟨_, _, _, _, rfl, le_rfl, (StrongGeneration.lt_next hgs).le, le_rfl,
        (StrongGeneration.lt_next hs).le⟩, fun ho => ?_⟩, fun _ => by omega⟩
      have hgss := StrongGeneration.next_eq_some hgs
      simp only [Ordered, StrongGeneration.le_iff] at ho ⊢
      omega

theorem raiseTopology_eq (t : Edit) : ∃ g, t.impl.topologyGeneration ≤ g ∧
    t.raiseTopology = { t with impl := { t.impl with topologyGeneration := g } } := by
  unfold raiseTopology
  split
  · rename_i h; exact ⟨_, h.le, rfl⟩
  · exact ⟨_, le_rfl, rfl⟩

/-- What is stored of a link that is bound for the first time: only counters are left open. -/
theorem Advances.bind_eq {impl : Impl} {binding : TopologyBinding}
    (h : Edit.Advances ⟨impl, newEntry binding⟩ t) : ∃ g gs e s tg,
      impl.globalGeneration ≤ g ∧ impl.globalStateGeneration ≤ gs ∧
      t.stampGlobal.stampTransition.indexNew.raiseTopology =
        let t := Edit.withCounters ⟨impl, newEntry binding⟩ g gs e s
        let t := t.stampGlobal.stampTransition.indexNew
        { t with impl := { t.impl with topologyGeneration := tg } } := by
  obtain ⟨g, gs, e, s, rfl, hg, hgs, -⟩ := h.counters
  obtain ⟨tg, -, heq⟩ := Edit.raiseTopology_eq (Edit.indexNew (Edit.stampTransition
    (Edit.stampGlobal (Edit.withCounters ⟨impl, newEntry binding⟩ g gs e s))))
  exact ⟨g, gs, e, s, tg, hg, hgs, heq⟩

/-! ## Dropping evidence -/

theorem lookup_eraseObservation (store : EngineStore) (record : EvidenceRecord) (o : ObservationId)
    (k : EvidenceKey) :
    (store.eraseObservation record).observations.lookup o = some k ↔
      store.observations.lookup o = some k ∧ ¬ (record.observation = o ∧ record.key = k) := by
  unfold EngineStore.eraseObservation
  split
  · rename_i h
    by_cases ho : o = record.observation
    · subst ho
      simp only [Finmap.lookup_erase, reduceCtorEq, true_and, false_iff, not_and, not_not]
      intro hk
      rw [h] at hk; exact Option.some.inj hk
    · rw [Finmap.lookup_erase_ne ho]
      exact ⟨fun hk => ⟨hk, fun h' => ho h'.1.symm⟩, fun hk => hk.1⟩
  · rename_i h
    refine ⟨fun hk => ⟨hk, ?_⟩, fun hk => hk.1⟩
    rintro ⟨rfl, rfl⟩
    exact h hk

/-- What dropping evidence puts in the fields that it changes. -/
def withEvidence (t : Edit) (observations : Finmap fun _ : ObservationId => EvidenceKey)
    (current : List EvidenceRecord) (dispositions : List EvidenceDisposition) : Edit where
  impl := { t.impl with store.observations := observations }
  entry := { t.entry with current, dispositions }

theorem foldl_dropRecord (explain : Explanation) (l : List EvidenceRecord) (t : Edit) :
    ∃ observations dispositions,
      l.foldl (dropRecord explain) t = t.withEvidence observations t.entry.current dispositions ∧
      ∀ o k, observations.lookup o = some k ↔ t.impl.store.observations.lookup o = some k ∧
        ¬ ∃ r ∈ l, (explain r).isSome ∧ r.observation = o ∧ r.key = k := by
  induction l generalizing t with
  | nil => exact ⟨_, _, rfl, by simp⟩
  | cons r l ih =>
    obtain ⟨observations, dispositions, heq, hlookup⟩ := ih (t.dropRecord explain r)
    refine ⟨observations, dispositions, ?_, fun o k => ?_⟩
    · rw [List.foldl_cons, heq]
      unfold dropRecord
      split
      · rfl
      · unfold EngineStore.eraseObservation
        split <;> rfl
    · rw [hlookup]
      unfold dropRecord
      split
      · rename_i h; simp [h]
      · rename_i h
        simp only [lookup_eraseObservation, List.mem_cons, exists_eq_or_imp, h, Option.isSome_some,
          true_and, and_assoc, not_or]

/-- Dropping evidence keeps the records that are not explained, and forgets the observations of the
others. -/
theorem dropEvidence_eq (t : Edit) (explain : Explanation) :
    ∃ observations dispositions,
      t.dropEvidence explain = t.withEvidence observations
        (t.entry.current.filter fun r => (explain r).isNone) dispositions ∧
      ∀ o k, observations.lookup o = some k ↔ t.impl.store.observations.lookup o = some k ∧
        ¬ ∃ r ∈ t.entry.current, (explain r).isSome ∧ r.observation = o ∧ r.key = k := by
  obtain ⟨observations, dispositions, heq, hlookup⟩ := foldl_dropRecord explain t.entry.current t
  refine ⟨observations, dispositions, ?_, hlookup⟩
  unfold dropEvidence
  rw [heq]
  rfl

@[simp] theorem dropEvidence_current (t : Edit) (explain : Explanation) :
    (t.dropEvidence explain).entry.current =
      t.entry.current.filter fun r => (explain r).isNone := rfl

@[simp] theorem dropEvidence_record (t : Edit) (explain : Explanation) :
    (t.dropEvidence explain).entry.record = t.entry.record := by
  obtain ⟨_, _, heq, -⟩ := dropEvidence_eq t explain
  rw [heq]; rfl

/-! ## Commits -/

end Edit

/-- The prepared commit was made for an entry in the state of this one, and its counters can
advance. -/
structure PreparedCommit.Fits (prepared : PreparedCommit) (t : Edit) : Prop where
  live : t.entry.record.state ≠ .retired
  target_live : prepared.targetState ≠ .retired
  changed : prepared.stateChanged = true → prepared.targetState ≠ t.entry.record.state ∧
    ∃ s gs, t.entry.record.stateGeneration.next = some s ∧
      t.impl.globalStateGeneration.next = some gs
  unchanged : prepared.stateChanged = false → prepared.targetState = t.entry.record.state
  legal : prepared.stateChanged = true → evaluateTransition t.entry.record.state
    prepared.targetState prepared.effectiveTrigger = .legal

theorem PreparedCommit.Fits.congr {prepared : PreparedCommit} {t t' : Edit}
    (h : prepared.Fits t) (hs : t'.entry.record.state = t.entry.record.state)
    (hg : t'.entry.record.stateGeneration = t.entry.record.stateGeneration)
    (hgs : t'.impl.globalStateGeneration = t.impl.globalStateGeneration) : prepared.Fits t' where
  live := by rw [hs]; exact h.live
  target_live := h.target_live
  changed hc := by rw [hs, hg, hgs]; exact h.changed hc
  unchanged hc := by rw [hs]; exact h.unchanged hc
  legal hc := by rw [hs]; exact h.legal hc

/-- A commit still fits when counters other than the state generations have advanced. -/
theorem PreparedCommit.Fits.advanceAll {prepared : PreparedCommit} {t t' : Edit}
    (h : prepared.Fits t) {cs : List Counter} (hs : .state ∉ cs) (hg : .globalState ∉ cs) {b : Bool}
    (hc : t.advanceAll cs = (t', b)) : prepared.Fits t' := by
  have hstates := Edit.advanceAll_states_eq hs hg t
  obtain ⟨g, gs, e, s, heq, -⟩ := (Edit.advanceAll_advances _ hs t).counters
  rw [hc] at hstates heq
  dsimp only at heq
  exact h.congr (by rw [heq]; rfl) hstates.1 hstates.2

theorem PreparedCommit.Fits.dropEvidence {prepared : PreparedCommit} {t : Edit}
    (h : prepared.Fits t) (explain : Explanation) : prepared.Fits (t.dropEvidence explain) := by
  obtain ⟨_, _, heq, -⟩ := Edit.dropEvidence_eq t explain
  rw [heq]
  exact h.congr rfl rfl rfl

section PrepareCommit

variable {impl : Impl} {entry : LinkEntry} {prospective : List EvidenceRecord}
  {trigger : TransitionTrigger}

@[simp] theorem prepareCommit_resolution : (prepareCommit impl entry prospective trigger).resolution =
    resolveLinkState prospective entry.record := by
  unfold prepareCommit
  dsimp only
  split
  · rfl
  split
  · rfl
  · split <;> rfl
  all_goals rfl

@[simp] theorem prepareCommit_target : (prepareCommit impl entry prospective trigger).targetState =
    (resolveLinkState prospective entry.record).state := by
  unfold prepareCommit
  dsimp only
  split
  · rfl
  split
  · rfl
  · split <;> rfl
  all_goals rfl

/-- What a commit that passed its checks is. -/
theorem prepareCommit_ok (h : (prepareCommit impl entry prospective trigger).ok = true) :
    (prepareCommit impl entry prospective trigger).Fits ⟨impl, entry⟩ ∧
    (prepareCommit impl entry prospective trigger).code = .committed := by
  have hlive := resolveLinkState_ne_retired prospective entry.record
  unfold prepareCommit at h ⊢
  dsimp only at h ⊢
  split at h
  · cases h
  rename_i hstate
  rw [if_neg hstate]
  generalize hl : evaluateTransition entry.record.state
    (resolveLinkState prospective entry.record).state _ = legality at h ⊢
  cases legality with
  | sameState =>
    refine ⟨⟨hstate, hlive, fun hc => ?_, fun _ => (eq_of_sameState hl).symm, fun hc => ?_⟩, rfl⟩ <;>
      cases hc
  | legal =>
    dsimp only at h ⊢
    split at h
    · cases h
    rename_i hnext
    rw [if_neg hnext]
    simp only [Bool.or_eq_true, Option.isNone_iff_eq_none, not_or] at hnext
    -- A legal transition needs room on both generations of the state.
    obtain ⟨s, hs⟩ := Option.ne_none_iff_exists'.mp hnext.1
    obtain ⟨gs, hgs⟩ := Option.ne_none_iff_exists'.mp hnext.2
    refine ⟨⟨hstate, hlive, fun _ => ⟨(ne_of_legal hl).symm, s, gs, hs, hgs⟩, fun hc => ?_,
      fun _ => hl⟩, rfl⟩
    cases hc
  | fromRetired => cases h
  | retirementRequired => cases h
  | triggerNotPermitted => cases h
  | illegal => cases h

/-- A resolution of a live link under a trigger that may enter its state is refused only when a
state generation is exhausted. -/
theorem prepareCommit_of_mem (hs : entry.record.state ≠ .retired)
    (ht : effectiveTrigger (resolveLinkState prospective entry.record).resultClass trigger ∈
      inboundTriggers (resolveLinkState prospective entry.record).state) :
    (prepareCommit impl entry prospective trigger).ok = true ∨
    ((prepareCommit impl entry prospective trigger).code = .resourceLimit ∧
      (entry.record.stateGeneration.next = none ∨ impl.globalStateGeneration.next = none)) := by
  unfold prepareCommit
  dsimp only
  rw [if_neg hs, evaluateTransition_of_mem hs ht]
  split
  · rename_i h
    split at h
    · exact .inl rfl
    · cases h
  · split
    · rename_i h
      simp only [Bool.or_eq_true, Option.isNone_iff_eq_none] at h
      exact .inr ⟨rfl, h⟩
    · exact .inl rfl
  all_goals
    rename_i h
    split at h <;> cases h

/-- Such a resolution is accepted exactly when it stays in its state, or both state generations can
advance. -/
theorem prepareCommit_ok_iff (hs : entry.record.state ≠ .retired)
    (ht : effectiveTrigger (resolveLinkState prospective entry.record).resultClass trigger ∈
      inboundTriggers (resolveLinkState prospective entry.record).state) :
    (prepareCommit impl entry prospective trigger).ok = true ↔
      entry.record.state = (resolveLinkState prospective entry.record).state ∨
      entry.record.stateGeneration.next ≠ none ∧ impl.globalStateGeneration.next ≠ none := by
  unfold prepareCommit
  dsimp only
  rw [if_neg hs, evaluateTransition_of_mem hs ht]
  by_cases hsame : entry.record.state = (resolveLinkState prospective entry.record).state
  · rw [if_pos hsame]
    exact iff_of_true rfl (.inl hsame)
  · rw [if_neg hsame]
    dsimp only
    by_cases hnext : entry.record.stateGeneration.next.isNone || impl.globalStateGeneration.next.isNone
    · rw [if_pos hnext]
      refine iff_of_false nofun (not_or.mpr ⟨hsame, fun ⟨hstate, hglobal⟩ => ?_⟩)
      simp [hstate, hglobal] at hnext
    · rw [if_neg hnext]
      simp only [Bool.or_eq_true, Option.isNone_iff_eq_none, not_or] at hnext
      exact iff_of_true rfl (.inr hnext)

end PrepareCommit

/-- Every trigger under which evidence is resolved again may enter the state of a resolution. -/
theorem effectiveTrigger_mem {resultClass : StateResultClass} {trigger : TransitionTrigger}
    (hc : resultClass ≠ .retired) (ht : trigger ∈ inboundTriggers .revalidationRequired) :
    effectiveTrigger resultClass trigger ∈ inboundTriggers (stateOf resultClass) := by
  cases resultClass <;> first | exact absurd rfl hc | exact ht | (cases trigger <;> decide)

namespace Edit

/-- What a commit leaves alone. -/
structure CommitFrame (t t' : Edit) : Prop where
  current : t'.entry.current = t.entry.current
  dispositions : t'.entry.dispositions = t.entry.dispositions
  record : t'.entry.record.record = t.entry.record.record
  binding : t'.entry.record.binding = t.entry.record.binding
  adminIntent : t'.entry.record.adminIntent = t.entry.record.adminIntent
  durable : t'.entry.record.durable = t.entry.record.durable
  evidenceGeneration : t'.entry.record.evidenceGeneration = t.entry.record.evidenceGeneration
  entryGlobal : t'.entry.record.globalGeneration = t.entry.record.globalGeneration
  config : t'.impl.config = t.impl.config
  store : t'.impl.store = { t.impl.store with byState := t'.impl.store.byState }
  globalGeneration : t'.impl.globalGeneration = t.impl.globalGeneration
  epoch : t'.impl.epoch = t.impl.epoch
  topologyGeneration : t'.impl.topologyGeneration = t.impl.topologyGeneration

theorem reindexState_eq (store : EngineStore) (link : LinkId) (a b : LinkOperationalState) :
    store.reindexState link a b =
      { store with byState := (store.reindexState link a b).byState } := by
  unfold EngineStore.reindexState
  split <;> rfl

theorem pushHistory_eq (entry : LinkEntry) (history : StateHistoryEntry) (cap : Nat) :
    pushHistory entry history cap =
      { entry with record.history := (pushHistory entry history cap).record.history } := by
  unfold pushHistory
  split <;> rfl

/-- What is pushed, is pushed on the history. -/
theorem history_pushHistory {entry entry' : LinkEntry}
    (h : entry'.record.history = entry.record.history) (history : StateHistoryEntry)
    {cap cap' : Nat} (hcap : cap' = cap) : (pushHistory entry' history cap').record.history =
      (pushHistory entry history cap).record.history := by
  subst hcap
  unfold pushHistory
  split
  · exact h
  · dsimp only
    rw [h]

theorem length_pushHistory (entry : LinkEntry) (history : StateHistoryEntry) {cap : Nat}
    (h : entry.record.history.length ≤ cap) :
    (pushHistory entry history cap).record.history.length ≤ cap := by
  unfold pushHistory
  split
  · exact h
  · simp only [List.length_drop, List.length_append, List.length_singleton]
    omega

/-- A history that is as long as the cap admits, if the other is. -/
def HistoryKept (cap : Nat) (history history' : List StateHistoryEntry) : Prop :=
  history.length ≤ cap → history'.length ≤ cap

/-- A change of state enters the target, and only the history is left open. -/
theorem enterState_eq (t : Edit) (target : LinkOperationalState) (history : StateHistoryEntry) :
    ∃ h, HistoryKept t.impl.config.maxHistoryPerLink t.entry.record.history h ∧
      t.enterState target history =
      { impl := { t.impl with
          store.byState := (t.impl.store.reindexState t.entry.record.binding.link
            t.entry.record.state target).byState
          counters.transitions := t.impl.counters.transitions + 1 }
        entry := { t.entry with
          record.state := target
          record.everEstablished := t.entry.record.everEstablished ||
            (target ≠ .unknown && target ≠ .revalidationRequired)
          record.history := h } } := by
  unfold enterState
  dsimp only
  rw [reindexState_eq, pushHistory_eq]
  exact ⟨_, length_pushHistory ({ t.entry with
    record.state := target
    record.everEstablished := t.entry.record.everEstablished ||
      (target ≠ .unknown && target ≠ .revalidationRequired) }) history, rfl⟩

/-- Retirement enters RETIRED, and leaves open the history and the identifier of the transition. -/
theorem enterRetired_eq (t : Edit) (request : RetireLinkRequest) :
    ∃ h transition, HistoryKept t.impl.config.maxHistoryPerLink t.entry.record.history h ∧
      t.enterRetired request =
      { impl := { t.impl with
          store.byState := (t.impl.store.reindexState t.entry.record.binding.link
            t.entry.record.state .retired).byState
          counters.transitions := t.impl.counters.transitions + 1 }
        entry := { t.entry with
          record.state := .retired
          record.resultClass := .retired
          record.degradationCause := .none
          record.everEstablished := false
          record.lastPublication := request.publication
          record.lastTransition := transition
          record.lastPublisher := request.publisher
          record.lastOutcome := .committed
          record.history := h
          conflicted := false } } := by
  unfold enterRetired
  dsimp only
  rw [reindexState_eq, pushHistory_eq]
  exact ⟨_, _, length_pushHistory _ _, rfl⟩

/-- A commit that changes no state. -/
theorem commitPrepared_same {t : Edit} {prepared : PreparedCommit}
    (hc : prepared.stateChanged = false) (publication : PublicationId) (publisher : PublisherId) :
    t.commitPrepared prepared publication publisher =
      { t.applyResolution prepared.resolution publication publisher with
        entry.record.state := prepared.targetState }.finishCommit prepared.code := by
  unfold commitPrepared
  simp only [hc, Bool.false_eq_true, if_false]

/-- A commit that changes the state, when both counters can advance. -/
theorem commitPrepared_changed {t : Edit} {prepared : PreparedCommit}
    (hc : prepared.stateChanged = true) {s gs : LinkStateGeneration}
    (hs : t.entry.record.stateGeneration.next = some s)
    (hgs : t.impl.globalStateGeneration.next = some gs) (publication : PublicationId)
    (publisher : PublisherId) :
    ∃ history, t.commitPrepared prepared publication publisher =
      (((t.applyResolution prepared.resolution publication publisher).withCounters
        t.impl.globalGeneration gs t.entry.record.evidenceGeneration s).enterState
        prepared.targetState history).finishCommit prepared.code := by
  unfold commitPrepared
  simp only [hc, if_true, advanceAll, advance, applyResolution, hs, hgs, Option.map_some]
  exact ⟨_, rfl⟩

/-- What a commit puts in the other fields. -/
structure Commits (prepared : PreparedCommit) (t t' : Edit) : Prop where
  state : t'.entry.record.state = prepared.targetState
  byState : t'.impl.store.byState = (t.impl.store.reindexState t.entry.record.binding.link
    t.entry.record.state prepared.targetState).byState
  resultClass : t'.entry.record.resultClass = prepared.resolution.resultClass
  degradationCause : t'.entry.record.degradationCause = prepared.resolution.cause
  conflicted : t'.entry.conflicted = prepared.resolution.conflicted
  syntheticBacked : t'.entry.syntheticBacked = prepared.resolution.syntheticBacked
  provenanceDigest : t'.entry.record.provenanceDigest = digestEvidenceSet t.entry.current
  unchanged : prepared.stateChanged = false →
    t'.entry.record.everEstablished = t.entry.record.everEstablished ∧
    t'.entry.record.stateGeneration = t.entry.record.stateGeneration ∧
    t'.impl.globalStateGeneration = t.impl.globalStateGeneration
  changed : prepared.stateChanged = true →
    t'.entry.record.everEstablished = (t.entry.record.everEstablished ||
      (prepared.targetState ≠ .unknown && prepared.targetState ≠ .revalidationRequired)) ∧
    t.entry.record.stateGeneration.next = some t'.entry.record.stateGeneration ∧
    t.impl.globalStateGeneration.next = some t'.impl.globalStateGeneration
  history : HistoryKept t.impl.config.maxHistoryPerLink t.entry.record.history
    t'.entry.record.history

theorem commitPrepared_spec {t : Edit} {prepared : PreparedCommit} (h : prepared.Fits t)
    (publication : PublicationId) (publisher : PublisherId) :
    CommitFrame t (t.commitPrepared prepared publication publisher) ∧
    Commits prepared t (t.commitPrepared prepared publication publisher) := by
  cases hc : prepared.stateChanged with
  | false =>
    rw [commitPrepared_same hc]
    refine ⟨by constructor <;> rfl, rfl, ?_, rfl, rfl, rfl, rfl, rfl, fun _ => ⟨rfl, rfl, rfl⟩,
      fun hc' => ?_, id⟩
    · rw [h.unchanged hc, EngineStore.reindexState, if_pos rfl]; rfl
    · rw [hc] at hc'; cases hc'
  | true =>
    obtain ⟨-, s, gs, hs, hgs⟩ := h.changed hc
    obtain ⟨history, heq⟩ := commitPrepared_changed hc hs hgs publication publisher
    obtain ⟨h', hkept, hh⟩ := enterState_eq ((t.applyResolution prepared.resolution publication
      publisher).withCounters t.impl.globalGeneration gs t.entry.record.evidenceGeneration s)
      prepared.targetState history
    rw [heq, hh]
    refine ⟨by constructor <;> rfl, rfl, rfl, rfl, rfl, rfl, rfl, rfl, fun hc' => ?_,
      fun _ => ⟨rfl, hs, hgs⟩, hkept⟩
    rw [hc] at hc'; cases hc'

end Edit

end LinkState
