import LinkStateFabric.Engine.Outcomes
import LinkStateFabric.Engine.Sessions
import LinkStateFabric.Results.Retirement

/-!
# The history of a link

* `LinkEntry.Faithful`: a history that is a chain of legal changes, numbered one after the other,
  up to the present state.
* A commit and a recovery record the state generation before they advance it, and a retirement the
  one after (`LinkEntry.Chained`). So a history is faithful up to the retirement of the link, and
  with it if nothing else is retained (`faithful_iff`, `history_faithful`).
-/

namespace LinkState

/-! ## Chains -/

/-- The change starts in the state in which the one before it ended. -/
def StateHistoryEntry.Follows (change next : StateHistoryEntry) : Prop :=
  next.fromState = change.toState

/-- The change is the next one by its state generation. -/
def StateHistoryEntry.Precedes (change next : StateHistoryEntry) : Prop :=
  next.stateGeneration.value = change.stateGeneration.value + 1

/-- The transition table permits the change for the trigger that it records. -/
def StateHistoryEntry.Legal (change : StateHistoryEntry) : Prop :=
  evaluateTransition change.fromState change.toState change.trigger = .legal

/-- The history accounts for how the link came to its present state. -/
structure LinkEntry.Faithful (entry : LinkEntry) : Prop where
  chain : entry.record.history.IsChain StateHistoryEntry.Follows
  legal : ∀ change ∈ entry.record.history, change.Legal
  consecutive : entry.record.history.IsChain StateHistoryEntry.Precedes
  last : ∀ change ∈ entry.record.history.getLast?, change.toState = entry.record.state

/-- What every history satisfies: it is within its cap, and faithful but for the number of a
retirement. -/
structure LinkEntry.Chained (config : EngineConfig) (entry : LinkEntry) : Prop where
  kept : entry.record.history.length ≤ config.maxHistoryPerLink
  chain : entry.record.history.IsChain StateHistoryEntry.Follows
  legal : ∀ change ∈ entry.record.history, change.Legal
  last : ∀ change ∈ entry.record.history.getLast?, change.toState = entry.record.state
  live : entry.record.state ≠ .retired →
    entry.record.history.IsChain StateHistoryEntry.Precedes ∧
    ∀ change ∈ entry.record.history.getLast?,
      entry.record.stateGeneration.value = change.stateGeneration.value + 1
  retired : entry.record.state = .retired → 2 ≤ entry.record.history.length →
    ¬ entry.record.history.IsChain StateHistoryEntry.Precedes

theorem isChain_of_length_le_one {α : Type} {R : α → α → Prop} {l : List α} (h : l.length ≤ 1) :
    l.IsChain R := by
  match l, h with
  | [], _ => exact .nil
  | [a], _ => exact .singleton a

theorem LinkEntry.Chained.faithful_iff {config : EngineConfig} {entry : LinkEntry}
    (h : entry.Chained config) : entry.Faithful ↔
      (entry.record.state = .retired → entry.record.history.length ≤ 1) := by
  constructor
  · intro hfaithful hretired
    by_contra hlong
    exact h.retired hretired (Nat.lt_of_not_le hlong) hfaithful.consecutive
  · intro hshort
    refine ⟨h.chain, h.legal, ?_, h.last⟩
    by_cases hretired : entry.record.state = .retired
    · exact isChain_of_length_le_one (hshort hretired)
    · exact (h.live hretired).1

/-! ## Pushing a change -/

/-- A change is pushed behind what the cap leaves of the history, unless nothing is retained. -/
theorem pushHistory_cases {entry : LinkEntry} {cap : Nat} (h : entry.record.history.length ≤ cap)
    (change : StateHistoryEntry) :
    (pushHistory entry change cap).record.history = [] ∨
    ∃ kept, kept <:+ entry.record.history ∧
      (pushHistory entry change cap).record.history = kept ++ [change] := by
  unfold pushHistory
  split
  · rename_i hcap
    rw [hcap] at h
    exact .inl (List.eq_nil_of_length_eq_zero (Nat.le_zero.mp h))
  · rename_i hcap
    dsimp only
    rw [List.drop_append_of_le_length (by rw [List.length_append, List.length_singleton]; omega)]
    exact .inr ⟨_, List.drop_suffix _ entry.record.history, rfl⟩

theorem getLast?_of_suffix {α : Type} {l l' : List α} (h : l <:+ l') {a : α}
    (ha : a ∈ l.getLast?) : a ∈ l'.getLast? := by
  obtain ⟨before, rfl⟩ := h
  rw [List.getLast?_append]
  exact (by rw [ha]; rfl : l.getLast?.or before.getLast? = some a)

/-- What a commit pushes. -/
theorem Edit.commitPrepared_history {t : Edit} {prepared : PreparedCommit} (h : prepared.Fits t)
    (publication : PublicationId) (publisher : PublisherId) :
    (prepared.stateChanged = false ∧
      (t.commitPrepared prepared publication publisher).entry.record.history =
        t.entry.record.history) ∨
    prepared.stateChanged = true ∧ ∃ change : StateHistoryEntry,
      change.stateGeneration = t.entry.record.stateGeneration ∧
      change.fromState = t.entry.record.state ∧ change.toState = prepared.targetState ∧
      change.trigger = prepared.effectiveTrigger ∧
      (t.commitPrepared prepared publication publisher).entry.record.history =
        (pushHistory t.entry change t.impl.config.maxHistoryPerLink).record.history := by
  cases hc : prepared.stateChanged with
  | false =>
    refine .inl ⟨rfl, ?_⟩
    rw [commitPrepared_same hc]
    rfl
  | true =>
    obtain ⟨-, s, gs, hs, hgs⟩ := h.changed hc
    refine .inr ⟨rfl, ?_⟩
    unfold commitPrepared
    simp only [hc, if_true, advanceAll, advance, applyResolution, hs, hgs, Option.map_some]
    dsimp only [enterState, finishCommit, stampTransition]
    refine ⟨_, ?_, ?_, ?_, ?_, history_pushHistory (by rfl) _ (by rfl)⟩ <;> rfl

/-! ## Turns -/

section Push

variable {config : EngineConfig} {entry entry' : LinkEntry} {change : StateHistoryEntry}

/-- A legal change that follows the history of a live link is pushed on it. -/
theorem LinkEntry.Chained.push (h : entry.Chained config)
    (hfrom : change.fromState = entry.record.state) (hlegal : change.Legal)
    (hto : change.toState = entry'.record.state)
    (hhistory : entry'.record.history =
      (pushHistory entry change config.maxHistoryPerLink).record.history)
    (hlive : entry'.record.state ≠ .retired → entry.record.state ≠ .retired ∧
      change.stateGeneration = entry.record.stateGeneration ∧
      entry'.record.stateGeneration.value = entry.record.stateGeneration.value + 1)
    (hretired : entry'.record.state = .retired → entry.record.state ≠ .retired ∧
      change.stateGeneration.value = entry.record.stateGeneration.value + 1) :
    entry'.Chained config := by
  have hkept := Edit.length_pushHistory entry change h.kept
  rw [← hhistory] at hkept
  -- The ring keeps nothing at all, or an end of the history and the new change.
  rcases pushHistory_cases h.kept change with hnil | ⟨kept, hsuffix, hpushed⟩
  · rw [hnil] at hhistory
    refine ⟨hkept, ?_, ?_, ?_, fun _ => ?_, fun _ hlong => ?_⟩ <;> rw [hhistory] at *
    · exact .nil
    · exact fun _ hmem => absurd hmem List.not_mem_nil
    · exact fun _ hmem => by cases hmem
    · exact ⟨.nil, fun _ hmem => by cases hmem⟩
    · cases hlong
  rw [hpushed] at hhistory
  have hmem {c : StateHistoryEntry} (hc : c ∈ kept.getLast?) : c ∈ entry.record.history.getLast? :=
    getLast?_of_suffix hsuffix hc
  have hchain {R : StateHistoryEntry → StateHistoryEntry → Prop}
      (hold : entry.record.history.IsChain R) (hnew : ∀ c ∈ kept.getLast?, R c change) :
      (kept ++ [change]).IsChain R := by
    refine List.isChain_append.mpr ⟨hold.suffix hsuffix, .singleton change, fun c hc d hd => ?_⟩
    obtain rfl : change = d := Option.some.inj hd
    exact hnew c hc
  have hlast {c : StateHistoryEntry} (hc : c ∈ (kept ++ [change]).getLast?) : change = c := by
    rw [List.getLast?_concat] at hc
    exact Option.some.inj hc
  refine ⟨hkept, ?_, ?_, ?_, fun hopen => ?_, fun hclosed hlong => ?_⟩ <;> rw [hhistory] at *
  · exact hchain h.chain fun c hc => hfrom.trans (h.last c (hmem hc)).symm
  · intro c hc
    rcases List.mem_append.mp hc with hc | hc
    · exact h.legal c (hsuffix.subset hc)
    · rw [List.mem_singleton.mp hc]
      exact hlegal
  · intro c hc
    rw [← hlast hc]
    exact hto
  · obtain ⟨hlive, hgeneration, hnext⟩ := hlive hopen
    obtain ⟨hconsecutive, hends⟩ := h.live hlive
    refine ⟨hchain hconsecutive fun c hc => ?_, fun c hc => ?_⟩
    · rw [StateHistoryEntry.Precedes, hgeneration]
      exact hends c (hmem hc)
    · rw [← hlast hc, hgeneration]
      exact hnext
  · -- the number of the change is one too high for the change before it
    obtain ⟨hlive, hgeneration⟩ := hretired hclosed
    intro hconsecutive
    obtain ⟨-, -, hjoint⟩ := List.isChain_append.mp hconsecutive
    have hne : kept ≠ [] := by
      rintro rfl
      exact absurd hlong (Nat.not_succ_le_self 1)
    have hc : kept.getLast hne ∈ kept.getLast? := List.getLast?_eq_some_getLast hne
    have hstep := hjoint _ hc change rfl
    have hends := (h.live hlive).2 _ (hmem hc)
    rw [StateHistoryEntry.Precedes, hgeneration, hends] at hstep
    omega

end Push

theorem retirement_legal {state : LinkOperationalState} (h : state ≠ .retired) :
    evaluateTransition state .retired .retirement = .legal := by
  cases state <;> first | rfl | exact absurd rfl h

section Turns

variable {op : Op} {link : LinkId} {t t' : Edit}

/-- Where no counter is exhausted, every turn of a live link keeps its history chained. -/
theorem Turn.chained (h : Turn op link t t') (hlive : t.entry.record.state ≠ .retired)
    (hend : (t'.commit link).Unsaturated) (ht : t.entry.Chained t.impl.config) :
    t'.entry.Chained t.impl.config := by
  cases h with
  | halt h => exact absurd hend (h.exhausted.resolve_left hlive)
  | stall _ h => exact absurd hend h.not_unsaturated
  | retire _ h =>
    obtain ⟨change, hgeneration, hfrom, hto, htrigger, hhistory⟩ := h.history
    refine ht.push hfrom ?_ (hto.trans h.state.symm) hhistory (fun hopen => absurd h.state hopen)
      fun _ => ⟨hlive, by rw [hgeneration]; exact h.next⟩
    rw [StateHistoryEntry.Legal, hfrom, hto, htrigger]
    exact retirement_legal hlive
  | @resolve u h prepared publication publisher _ records hfits =>
    obtain ⟨-, hcommits⟩ := Edit.commitPrepared_spec hfits publication publisher
    have hstate : (u.commitPrepared prepared publication publisher).entry.record.state ≠ .retired := by
      rw [hcommits.state]
      exact hfits.target_live
    -- The groundwork has changed nothing that a history is about.
    have hu : u.entry.Chained t.impl.config := by
      obtain ⟨hkept, hchain, hlegal, hlast, hopen, hretired⟩ := ht
      rw [← h.history] at hkept hchain hlegal hlast hopen hretired
      rw [← h.state] at hlast hopen hretired
      rw [← h.stateGeneration] at hopen
      exact ⟨hkept, hchain, hlegal, hlast, hopen, hretired⟩
    rcases Edit.commitPrepared_history hfits publication publisher with
      ⟨hsame, hhistory⟩ | ⟨hchanged, change, hgeneration, hfrom, hto, htrigger, hhistory⟩
    · have hkept : (u.commitPrepared prepared publication publisher).entry.record.state =
          u.entry.record.state := hcommits.state.trans (hfits.unchanged hsame)
      have hnumber := (hcommits.unchanged hsame).2.1
      obtain ⟨hu1, hu2, hu3, hu4, hu5, hu6⟩ := hu
      rw [← hhistory] at hu1 hu2 hu3 hu4 hu5 hu6
      rw [← hkept] at hu4 hu5 hu6
      rw [← hnumber] at hu5
      exact ⟨hu1, hu2, hu3, hu4, hu5, hu6⟩
    · have hnext := (hcommits.changed hchanged).2.1
      rw [h.frame.config] at hhistory
      refine hu.push hfrom ?_ (hto.trans hcommits.state.symm) hhistory
        (fun _ => ⟨hfits.live, hgeneration, ?_⟩) fun hclosed => absurd hclosed hstate
      · rw [StateHistoryEntry.Legal, hfrom, hto, htrigger]
        exact hfits.legal hchanged
      · exact (StrongGeneration.next_eq_some hnext)

end Turns

/-! ## Recovery -/

theorem le_foldl_raisedGlobalState (links : List PersistedLink) (generation : LinkStateGeneration) :
    generation ≤ links.foldl raisedGlobalState generation := by
  induction links generalizing generation with
  | nil => exact le_rfl
  | cons persisted links ih =>
    refine le_trans ?_ (ih _)
    unfold raisedGlobalState
    split
    · exact le_rfl
    · exact le_max_left ..

/-- An engine whose counters are not exhausted has not recovered an exhausted one. -/
theorem stateGeneration_lt_of_recover {impl : Impl} {payload : JournalPayload}
    (hdecoded : payload.Decoded) (h : (impl.recover payload).impl.Unsaturated)
    {persisted : PersistedLink} (hmem : persisted ∈ payload.links) :
    persisted.record.stateGeneration.value + 1 < 2 ^ 64 := by
  have hle : persisted.record.stateGeneration ≤
      (impl.recover payload).impl.globalStateGeneration := by
    rw [(recovers_recover impl hdecoded).globalStateGeneration]
    exact (hdecoded.links persisted hmem).stateGeneration.trans (le_foldl_raisedGlobalState ..)
  have hunsaturated := unsaturated_of_le hle h.globalStateGeneration
  have hbound := persisted.record.stateGeneration.bounded
  simp only [StrongGeneration.saturated, decide_eq_false_iff_not] at hunsaturated
  omega

/-- An entry without a history is chained. -/
theorem LinkEntry.Chained.of_nil {config : EngineConfig} {entry : LinkEntry}
    (h : entry.record.history = []) : entry.Chained config := by
  refine ⟨?_, ?_, ?_, ?_, fun _ => ⟨?_, ?_⟩, fun _ hlong => ?_⟩ <;> rw [h] at *
  · exact Nat.zero_le _
  · exact .nil
  · exact fun _ hmem => absurd hmem List.not_mem_nil
  · exact fun _ hmem => by cases hmem
  · exact .nil
  · exact fun _ hmem => by cases hmem
  · cases hlong

theorem recoveredEntry_chained {config : EngineConfig} {persisted : PersistedLink}
    (hbound : persisted.record.stateGeneration.value + 1 < 2 ^ 64) :
    (recoveredEntry config persisted).Chained config := by
  unfold recoveredEntry
  split
  · exact .of_nil rfl
  rename_i hlive
  split
  · exact .of_nil rfl
  rename_i hchanged
  have hrestored : (restoredEntry config persisted).Chained config := .of_nil rfl
  -- A link that is not retired may always be recovered.
  have hlegal := evaluateTransition_recovery hlive
  rw [if_neg hchanged] at hlegal
  have hstate : (changedEntry config persisted).record.state = recoveredState persisted.record := by
    obtain ⟨_, -, heq⟩ := changedEntry_eq config persisted
    rw [heq]
  have hnext : (changedEntry config persisted).record.stateGeneration.value =
      persisted.record.stateGeneration.value + 1 := by
    obtain ⟨_, -, heq⟩ := changedEntry_eq config persisted
    rw [heq]
    exact Nat.mod_eq_of_lt hbound
  have hopen : recoveredState persisted.record ≠ .retired := by
    unfold recoveredState
    split <;> decide
  obtain ⟨change, hgeneration, hfrom, hto, htrigger, hpushed⟩ : ∃ change : StateHistoryEntry,
      change.stateGeneration = persisted.record.stateGeneration ∧
      change.fromState = persisted.record.state ∧
      change.toState = recoveredState persisted.record ∧ change.trigger = .recovery ∧
      (changedEntry config persisted).record.history = (pushHistory
        (restoredEntry config persisted) change config.maxHistoryPerLink).record.history := by
    unfold changedEntry recoverChanged
    refine ⟨_, ?_, ?_, ?_, ?_, Edit.history_pushHistory (by rfl) _ (by rfl)⟩ <;> rfl
  refine hrestored.push hfrom ?_ (hto.trans hstate.symm) hpushed
    (fun _ => ⟨hlive, hgeneration, hnext⟩) fun hclosed => absurd (hstate.symm.trans hclosed) hopen
  rw [StateHistoryEntry.Legal, hfrom, hto, htrigger]
  exact hlegal

/-! ## Retirements -/

/-- A retired link retains nothing but its retirement. -/
def Impl.Short (impl : Impl) : Prop :=
  ∀ link entry, impl.entryOf link = some entry → entry.record.state = .retired →
    entry.record.history.length ≤ 1

/-- The operation retires no link with a history: nothing is retained of what became of the link
before, or nothing will be. -/
def Op.RetiresUnrecorded (impl : Impl) : Op → Prop
  | .retireLink request => ∀ entry, impl.entryOf request.link = some entry →
      entry.record.state ≠ .retired →
      entry.record.history = [] ∨ impl.config.maxHistoryPerLink ≤ 1
  | _ => True

section Short

variable {op : Op} {link : LinkId} {t t' : Edit} {base impl impl' : Impl}

/-- Only the turn of a retirement leaves a link retired, and with what it pushes. -/
theorem Turn.short (h : Turn op link t t') (hlive : t.entry.record.state ≠ .retired)
    (hretires : op.Retires link → ∀ change,
      (pushHistory t.entry change t.impl.config.maxHistoryPerLink).record.history.length ≤ 1)
    (hretired : t'.entry.record.state = .retired) : t'.entry.record.history.length ≤ 1 := by
  cases h with
  | halt h => exact absurd (h.state.symm.trans hretired) hlive
  | stall _ h => exact absurd (h.state.symm.trans hretired) hlive
  | retire hop h =>
    obtain ⟨change, -, -, -, -, hhistory⟩ := h.history
    rw [hhistory]
    exact hretires hop change
  | resolve h prepared publication publisher _ _ hfits =>
    obtain ⟨-, hcommits⟩ := Edit.commitPrepared_spec hfits publication publisher
    exact absurd (hcommits.state.symm.trans hretired) hfits.target_live

theorem Moves.short (h : Moves op base impl impl') (hop : ∀ link, ¬ op.Retires link)
    (hsealed : impl.Sealed) (hshort : impl.Short) : impl'.Short := by
  induction h with
  | refl => exact hshort
  | tail hmoves hmove ih =>
    intro l e' he' hretired
    rcases hmove.entry_cases he' with he | ⟨-, hnew⟩ | ⟨e, t, he, hopen, -, ht, -, rfl⟩
    · exact ih l e' he hretired
    · rw [hnew.history]
      exact Nat.zero_le _
    · refine ht.short (fun hr => ?_) (fun hx => absurd hx (hop l)) hretired
      exact hopen.elim (fun h => h hr) fun h => h (Moves.sealed hmoves hsealed l e he hr)

theorem retireLink_short (hsealed : impl.Sealed) (hshort : impl.Short)
    (hkept : ∀ link entry, impl.entryOf link = some entry →
      entry.record.history.length ≤ impl.config.maxHistoryPerLink)
    {request : RetireLinkRequest} (hop : (Op.retireLink request).RetiresUnrecorded impl) :
    (impl.retireLink request).1.Short := by
  rcases retireLink_outcome impl request with hdeclined | ⟨hsame, -⟩ | ⟨entry, hretirable, heq⟩
  · intro l e he
    rw [hdeclined.sameLinks.entryOf] at he
    exact hshort l e he
  · rwa [hsame]
  obtain ⟨t, ht, hedit⟩ := @retire_turn impl entry request hretirable.live
  have hmove : Move (.retireLink request) impl impl (t.commit request.link) :=
    .turn hretirable.bound (.inl hretirable.live) (fun _ => rfl) ht
  have hmid : (t.commit request.link).Short := by
    intro l e' he' hretired
    rw [commit_entryOf] at he'
    split at he'
    · obtain rfl := Option.some.inj he'
      refine ht.short hretirable.live (fun _ change => ?_) hretired
      -- Either there is no history before, or the ring has room for one change only.
      rcases hop entry hretirable.bound hretirable.live with hnil | hcap
      · rcases pushHistory_cases (hkept _ entry hretirable.bound) change with
          hpushed | ⟨kept, hsuffix, hpushed⟩
        · rw [hpushed]
          exact Nat.zero_le _
        · rw [hnil, List.suffix_nil] at hsuffix
          rw [hpushed, hsuffix]
          exact le_rfl
      · exact (Edit.length_pushHistory entry change (hkept _ entry hretirable.bound)).trans hcap
    · exact hshort l e' (by rw [← ht.frame.entryOf l, he']) hretired
  rw [heq]
  rcases hedit with hedit | ⟨l, hedit⟩ <;> rw [hedit]
  · exact hmid
  · exact Moves.short (@invalidateStaleDependents_moves .reconcile impl _ id l)
      (fun _ ⟨_, h, _⟩ => by cases h) (hmove.sealed hsealed) hmid

end Short

/-! ## Runs -/

/-- The history of every link of a run is chained. -/
theorem chained_of_run {impl : Impl}
    (h : Runs.Run Impl.Fresh Impl.apply (fun impl op => (impl.apply op).Unsaturated) impl) :
    ∀ link entry, impl.entryOf link = some entry → entry.Chained impl.config :=
  entries_of_run (K := Impl.Unsaturated) (Q := fun config entry => entry.Chained config)
    (fun _ _ hle hb => hb.of_le hle) (fun _ _ hok => hok) (fun _ _ hnew => .of_nil hnew.history)
    (fun _ _ _ _ _ _ hlive _ hend ht hQ => ht.chained hlive hend hQ)
    (fun _ _ _ _ _ _ hok hdecode hloaded _ hmem =>
      recoveredEntry_chained (stateGeneration_lt_of_recover (decodeJournal_decoded hdecode)
        (hloaded ▸ hok) hmem)) h

/-- The history of a link is faithful until the link is retired, and then if only the retirement is
retained. -/
theorem faithful_iff {impl : Impl}
    (h : Runs.Run Impl.Fresh Impl.apply (fun impl op => (impl.apply op).Unsaturated) impl)
    {link : LinkId} {entry : LinkEntry} (hentry : impl.entryOf link = some entry) :
    entry.Faithful ↔ (entry.record.state = .retired → entry.record.history.length ≤ 1) :=
  (chained_of_run h link entry hentry).faithful_iff

/-- Where no link is retired that has a history, every history is faithful. -/
theorem history_faithful {impl : Impl}
    (h : Runs.Run Impl.Fresh Impl.apply
      (fun impl op => (impl.apply op).Unsaturated ∧ op.RetiresUnrecorded impl) impl)
    {link : LinkId} {entry : LinkEntry} (hentry : impl.entryOf link = some entry) :
    entry.Faithful := by
  have hrun : ∀ impl, Runs.Run Impl.Fresh Impl.apply
      (fun impl op => (impl.apply op).Unsaturated ∧ op.RetiresUnrecorded impl) impl →
      Runs.Run Impl.Fresh Impl.apply (fun impl op => (impl.apply op).Unsaturated) impl :=
    fun _ h => h.mono fun _ _ hok => hok.1
  refine (faithful_iff (hrun impl h) hentry).mpr ?_
  refine @Runs.Run.invariant_of _ _ _ _ _ Impl.Short _ hrun ?_ (fun impl op hreached hshort hok => ?_)
    impl h link entry hentry
  · rintro _ ⟨config, rfl⟩ link entry hentry
    rw [Impl.entryOf_create] at hentry
    cases hentry
  have hsealed : impl.Sealed := Impl.Reachable.sealed (hreached.mono fun _ _ _ => trivial)
  cases op with
  | retireLink request =>
    exact retireLink_short hsealed hshort (fun l e he => (chained_of_run hreached l e he).kept) hok.2
  -- A link that is retired in the journal comes back without its history.
  | load config steps file =>
    show Impl.Short (impl.load config steps file).1
    rcases load_cases impl config steps file with
      ⟨_, -, heq⟩ | ⟨_, payload, _, -, hdecode, heq, -⟩
    · rw [heq]
      exact hshort
    · rw [heq]
      intro l e he hretired
      obtain ⟨persisted, -, rfl⟩ := entryOf_recover (decodeJournal_decoded hdecode) he
      have hrecovered := recovered_recoveredEntry impl.config persisted
      have hpersisted : persisted.record.state = .retired := by
        by_contra hlive
        rw [(hrecovered.live hlive).1] at hretired
        unfold recoveredState at hretired
        split at hretired <;> cases hretired
      rw [recoveredEntry, if_pos hpersisted]
      exact Nat.zero_le _
  | _ => exact (apply_moves impl rfl).short (by rintro _ ⟨_, h, _⟩; cases h) hsealed hshort

namespace Sample

theorem unsaturated_run :
    Runs.Run Impl.Fresh Impl.apply (fun impl op => (impl.apply op).Unsaturated) engine :=
  @Runs.Run.foldl _ _ _ _ _ _ (.start ⟨{}, rfl⟩) ops (by decide +kernel)

theorem retired_run :
    Runs.Run Impl.Fresh Impl.apply (fun impl op => (impl.apply op).Unsaturated) retired := by
  have hend : retired.Unsaturated := by decide +kernel
  unfold retired at hend ⊢
  exact .step _ unsaturated_run hend

/-- The small run of an engine that retains one change of state. -/
def brief : Impl := ops.foldl Impl.apply (.create { maxHistoryPerLink := 1 })

/-- The retirement of the link of the small run. -/
def retirement : RetireLinkRequest :=
  { link, publication, publisher, workerBoot := boot, topologyGeneration := .fromValue 1 }

theorem brief_run : Runs.Run Impl.Fresh Impl.apply
    (fun impl op => (impl.apply op).Unsaturated ∧ op.RetiresUnrecorded impl)
    (brief.apply (.retireLink retirement)) :=
  have hbrief : Runs.Run Impl.Fresh Impl.apply
      (fun impl op => (impl.apply op).Unsaturated ∧ op.RetiresUnrecorded impl) brief :=
    @Runs.Run.foldl _ _ _ _ _ _ (.start ⟨{ maxHistoryPerLink := 1 }, rfl⟩) ops
      ⟨⟨by decide +kernel, trivial⟩, ⟨by decide +kernel, trivial⟩, ⟨by decide +kernel, trivial⟩,
        trivial⟩
  .step _ hbrief ⟨by decide +kernel, fun _ _ _ => .inr (by decide +kernel)⟩

theorem brief_bound :
    ((brief.apply (.retireLink retirement)).entryOf link).isSome = true := by decide +kernel

/-- The link goes down, up and down again on an engine that retains three changes of state. -/
def flapOps : List Op := ops ++ [observe .down 2, observe .up 3, observe .down 4]

def flapping : Impl := flapOps.foldl Impl.apply (.create { maxHistoryPerLink := 3 })

theorem flapping_run : Runs.Run Impl.Fresh Impl.apply
    (fun impl op => (impl.apply op).Unsaturated ∧ op.RetiresUnrecorded impl) flapping :=
  @Runs.Run.foldl _ _ _ _ _ _ (.start ⟨{ maxHistoryPerLink := 3 }, rfl⟩) flapOps
    ⟨⟨by decide +kernel, trivial⟩, ⟨by decide +kernel, trivial⟩, ⟨by decide +kernel, trivial⟩,
      ⟨by decide +kernel, trivial⟩, ⟨by decide +kernel, trivial⟩, ⟨by decide +kernel, trivial⟩,
      trivial⟩

theorem flapping_bound : (flapping.entryOf link).isSome = true := by decide +kernel

end Sample

/-- A link that was retired where one change is retained, and one that has lost the first of four
changes. -/
theorem history_faithful_sample :
    (∃ entry, (Sample.brief.apply (.retireLink Sample.retirement)).entryOf Sample.link =
        some entry ∧ entry.Faithful) ∧
    ∃ entry, Sample.flapping.entryOf Sample.link = some entry ∧
      entry.record.history.map (·.stateGeneration.value) = [1, 2, 3] ∧ entry.Faithful :=
  ⟨⟨_, (Option.some_get Sample.brief_bound).symm,
      history_faithful Sample.brief_run (Option.some_get Sample.brief_bound).symm⟩,
    _, (Option.some_get Sample.flapping_bound).symm, by decide +kernel,
    history_faithful Sample.flapping_run (Option.some_get Sample.flapping_bound).symm⟩

instance (change next : StateHistoryEntry) : Decidable (change.Precedes next) :=
  inferInstanceAs (Decidable (_ = _))

/-- A link that is retired after a change of state, and the numbers of its history. -/
theorem history_skips :
    Runs.Run Impl.Fresh Impl.apply (fun impl op => (impl.apply op).Unsaturated) Sample.retired ∧
    ∃ entry, Sample.retired.entryOf Sample.link = some entry ∧
      entry.record.history.map (·.stateGeneration.value) = [0, 2] ∧ ¬ entry.Faithful :=
  ⟨Sample.retired_run, _, (Option.some_get Sample.retired_bound).symm, by decide +kernel, fun h =>
    absurd h.consecutive (by decide +kernel)⟩

end LinkState
