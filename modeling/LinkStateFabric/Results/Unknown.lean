import LinkStateFabric.Results.Intent

/-!
# A link leaves UNKNOWN once

* `LinkEntry.Known`: a live link is in UNKNOWN exactly while it never established a state, and until
  then it has neither an intent nor decisive evidence. Every turn keeps this (`Turn.known`): of
  records that are not decisive and one that is, no conflict can come.
* `LinkEntry.Waits`: without evidence and intent, a link that left UNKNOWN is in
  REVALIDATION_REQUIRED.
* `unknown_left`: both, over the sessions of an engine. Under an intent a link keeps the state of
  the intent when its evidence is gone (`evidence_lost_underIntent`).
-/

namespace LinkState

/-- What holds of a live entry. -/
structure LinkEntry.Known (entry : LinkEntry) : Prop where
  ever : entry.record.everEstablished = true ↔ entry.record.state ≠ .unknown
  intent : ∀ i ∈ entry.record.adminIntent, restrictive i.state = true
  idle : entry.record.everEstablished = false →
    entry.record.adminIntent = none ∧ ∀ r ∈ entry.current, ¬ r.Decisive

/-- Without evidence and intent there is nothing to be in another state for. -/
def LinkEntry.Waits (entry : LinkEntry) : Prop :=
  entry.current = [] → entry.record.adminIntent = none →
    entry.record.state = .unknown ∨ entry.record.state = .revalidationRequired

/-! ## Resolutions -/

section Resolve

variable {records : List EvidenceRecord} {record : LinkStateRecord}

variable (hintent : ∀ i ∈ record.adminIntent, restrictive i.state = true)

include hintent

theorem of_resolve_unknown (h : (resolveLinkState records record).state = .unknown) :
    record.everEstablished = false ∧ record.adminIntent = none ∧ ∀ x ∈ records, ¬ x.Decisive := by
  cases hi : record.adminIntent with
  | some intent =>
    rw [resolveLinkState_underIntent hi (hintent intent hi)] at h
    exact absurd h (ne_of_restrictive (hintent intent hi)).1
  | none =>
    obtain ⟨hever, hidle⟩ := of_resolveLinkState_unknown hi h
    exact ⟨hever, rfl, hidle⟩

theorem resolve_first (hever : record.everEstablished = false) {x : EvidenceRecord}
    (h : ∀ y ∈ records, ¬ y.Decisive ∨ y = x) :
    (resolveLinkState records record).state ≠ .revalidationRequired := by
  cases hi : record.adminIntent with
  | some intent =>
    rw [resolveLinkState_underIntent hi (hintent intent hi)]
    exact (ne_of_restrictive (hintent intent hi)).2
  | none => exact resolveLinkState_first hi hever h

end Resolve

/-! ## Turns -/

section Turn

variable {op : Op} {link : LinkId} {t u t' : Edit}

theorem Groundwork.intents (h : Groundwork op link t u)
    (hintent : ∀ i ∈ t.entry.record.adminIntent, restrictive i.state = true) :
    ∀ i ∈ u.entry.record.adminIntent, restrictive i.state = true := by
  rcases h.intent with heq | ⟨-, hrecordable⟩
  · rw [heq]
    exact hintent
  · exact fun i hi => (hrecordable i hi).restrictive

/-- All but one of the records that an edit of an idle link is about to resolve are idle. -/
theorem Readied.first (h : Readied op link t u) (hidle : ∀ r ∈ t.entry.current, ¬ r.Decisive) :
    ∃ x, ∀ r ∈ u.entry.current, ¬ r.Decisive ∨ r = x := by
  rcases h.current with hsubset | ⟨request, stored, hpublishes⟩
  · exact ⟨{}, fun r hr => .inl (hidle r (hsubset hr))⟩
  · refine ⟨stored, fun r hr => ?_⟩
    rw [hpublishes.current, Sorting.mem_sortBy, List.mem_append, List.mem_filter,
      List.mem_singleton] at hr
    exact hr.imp_left fun hr => hidle r hr.1

theorem Turn.known (h : Turn op link t t') (hop : op.Ordinary)
    (hnodup : op.Single → (t.entry.current.map (·.key)).Nodup) (hknown : t.entry.Known)
    (hlive : t'.entry.record.state ≠ .retired) : t'.entry.Known := by
  cases h with
  | halt h =>
    refine ⟨by rw [h.everEstablished, h.state]; exact hknown.ever, h.intents hknown.intent,
      fun hever => ?_⟩
    obtain ⟨hnone, hidle⟩ := hknown.idle (h.everEstablished.symm.trans hever)
    exact ⟨h.lifted.elim (fun heq => heq.trans hnone) id, fun r hr => hidle r (h.current hr)⟩
  | stall _ h =>
    refine ⟨by rw [h.everEstablished, h.state]; exact hknown.ever,
      by rw [h.intent]; exact hknown.intent, fun hever => ?_⟩
    rw [h.intent, h.current]
    exact ⟨(hknown.idle (h.everEstablished.symm.trans hever)).1, List.forall_mem_nil _⟩
  | retire _ h => exact absurd h.state hlive
  | @resolve u h prepared publication publisher _ records hfits htarget hresolution hrecords =>
    obtain ⟨hframe, hcommits⟩ := Edit.commitPrepared_spec hfits publication publisher
    have hstate : prepared.targetState =
        (resolveLinkState u.entry.current u.entry.record).state :=
      htarget.trans (congrArg Conclusion.state (hresolution.trans (hrecords hop hnodup)))
    have hintent := h.intents hknown.intent
    have hever : u.entry.record.everEstablished = true → prepared.targetState ≠ .unknown := by
      intro hever hunknown
      have := (of_resolve_unknown hintent (hstate.symm.trans hunknown)).1
      rw [hever] at this
      cases this
    have hfirst : u.entry.record.everEstablished = false →
        prepared.targetState ≠ .revalidationRequired := by
      intro hever
      obtain ⟨x, hx⟩ := h.first (hknown.idle (h.everEstablished.symm.trans hever)).2
      rw [hstate]
      exact resolve_first hintent hever hx
    -- The link is established unless it is unknown: a state that was reached stays reached.
    have hiff : (u.commitPrepared prepared publication publisher).entry.record.everEstablished =
        true ↔ prepared.targetState ≠ .unknown := by
      cases hc : prepared.stateChanged with
      | false =>
        rw [(hcommits.unchanged hc).1, hfits.unchanged hc, h.everEstablished, h.state]
        exact hknown.ever
      | true =>
        rw [(hcommits.changed hc).1]
        cases he : u.entry.record.everEstablished with
        | true => simpa using hever he
        | false => simp [hfirst he]
    refine ⟨?_, ?_, fun hever => ?_⟩ <;> dsimp only
    · rw [hcommits.state]
      exact hiff
    · rw [hframe.adminIntent]
      exact hintent
    · have hunknown : prepared.targetState = .unknown := by
        by_contra hne
        have := hiff.mpr hne
        dsimp only at hever
        rw [hever] at this
        cases this
      rw [hframe.adminIntent, hframe.current]
      exact (of_resolve_unknown hintent (hstate.symm.trans hunknown)).2

theorem Turn.waits (h : Turn op link t t') (hop : op.Ordinary)
    (hnodup : op.Single → (t.entry.current.map (·.key)).Nodup)
    (hlive : t.entry.record.state ≠ .retired) (hu : (t'.commit link).Unsaturated)
    (hlive' : t'.entry.record.state ≠ .retired) : t'.entry.Waits := by
  cases h with
  | halt h => exact absurd hu (h.exhausted.resolve_left hlive)
  | stall _ h => exact absurd hu h.not_unsaturated
  | retire _ h => exact absurd h.state hlive'
  | @resolve u h prepared publication publisher _ records hfits htarget hresolution hrecords =>
    obtain ⟨hframe, hcommits⟩ := Edit.commitPrepared_spec hfits publication publisher
    intro hcurrent hintent
    dsimp only at hcurrent hintent ⊢
    rw [hframe.current] at hcurrent
    rw [hframe.adminIntent] at hintent
    have hstate : prepared.targetState =
        (resolveLinkState u.entry.current u.entry.record).state :=
      htarget.trans (congrArg Conclusion.state (hresolution.trans (hrecords hop hnodup)))
    rw [hcommits.state, hstate, resolveLinkState_idle hintent (by rw [hcurrent]; exact List.forall_mem_nil _)]
    split
    · exact .inr rfl
    · exact .inl rfl

/-- A link that left UNKNOWN does not come back. -/
def LinkEntry.Left (entry entry' : LinkEntry) : Prop :=
  (entry.record.state = .retired ∨ entry.record.everEstablished = true) →
    entry'.record.state = .retired ∨ entry'.record.everEstablished = true

theorem Turn.left (h : Turn op link t t') : t.entry.Left t'.entry := by
  intro hleft
  cases h with
  | halt h =>
    rw [h.state, h.everEstablished]
    exact hleft
  | stall _ h =>
    rw [h.state, h.everEstablished]
    exact hleft
  | retire _ h => exact .inl h.state
  | @resolve u h prepared publication publisher _ records hfits =>
    obtain ⟨-, hcommits⟩ := Edit.commitPrepared_spec hfits publication publisher
    have hlive : t.entry.record.state ≠ .retired := by
      rw [← h.state]
      exact hfits.live
    have hever := hleft.resolve_left hlive
    refine .inr ?_
    dsimp only
    cases hc : prepared.stateChanged with
    | false => rw [(hcommits.unchanged hc).1, h.everEstablished, hever]
    | true => rw [(hcommits.changed hc).1, h.everEstablished, hever, Bool.true_or]

end Turn

/-! ## Engines -/

/-- What holds of the engine of a session. -/
structure Impl.Knows (impl : Impl) : Prop where
  indexed : Indexed impl
  «sealed» : impl.Sealed
  known : ∀ link entry, impl.entryOf link = some entry → entry.record.state ≠ .retired → entry.Known
  waits : impl.Unsaturated → ∀ link entry, impl.entryOf link = some entry →
    entry.record.state ≠ .retired → entry.Waits

theorem LinkEntry.New.known {entry : LinkEntry} (h : entry.New) : entry.Known := by
  refine ⟨iff_of_false ?_ (not_not.mpr h.state), ?_, fun _ => ⟨h.intent, ?_⟩⟩
  · rw [h.everEstablished]
    exact Bool.false_ne_true
  · rw [h.intent]
    nofun
  · rw [h.current]
    exact List.forall_mem_nil _

theorem Impl.Knows.apply {impl : Impl} (h : impl.Knows) {op : Op} (hop : op.Ordinary)
    (hload : op.isLoad = false) : (impl.apply op).Knows where
  indexed := h.indexed.apply op
  «sealed» := h.sealed.apply op
  known := Moves.entries (K := fun _ => True)
    (Q := fun _ entry => entry.record.state ≠ .retired → entry.Known) (fun _ _ _ _ => trivial)
    h.indexed h.sealed (fun _ _ hnew _ => hnew.known)
    (fun _ _ _ hlive hnodup _ hturn hQ hlive' => hturn.known hop hnodup (hQ hlive) hlive')
    (apply_moves impl hload) trivial h.known
  waits hu := Moves.entries (K := Impl.Unsaturated)
    (Q := fun _ entry => entry.record.state ≠ .retired → entry.Waits)
    (fun _ _ hle hu => hu.of_le hle) h.indexed h.sealed
    (fun _ _ hnew _ _ _ => .inl hnew.state)
    (fun _ _ _ hlive hnodup hu hturn _ hlive' => hturn.waits hop hnodup hlive hu hlive')
    (apply_moves impl hload) hu (h.waits (hu.of_le (apply_steps impl hload).le))

/-- A live link of a restored engine is in UNKNOWN exactly when it was when it was saved. -/
theorem Impl.Knows.restore {saved impl impl' : Impl} {includeHistory : Bool} (h : saved.Knows)
    (hrestores : Restores saved impl impl' includeHistory) : impl'.Knows := by
  have hstate {link : LinkId} {entry' : LinkEntry} (hentry' : impl'.entryOf link = some entry')
      (hlive : entry'.record.state ≠ .retired) : ∃ entry : LinkEntry, entry.Known ∧
        entry'.record.everEstablished = entry.record.everEstablished ∧
        entry'.record.adminIntent = entry.record.adminIntent ∧ entry'.current = [] ∧
        entry'.record.state =
          if entry.record.everEstablished then .revalidationRequired else .unknown := by
    obtain ⟨entry, history, hentry, hrecovered⟩ := hrestores.recovered hentry'
    have hlive : entry.record.state ≠ .retired := fun hr => hlive (hrecovered.retired hr).1
    exact ⟨entry, h.known link entry hentry hlive, hrecovered.everEstablished,
      hrecovered.adminIntent, hrecovered.current, (hrecovered.live hlive).1⟩
  refine ⟨hrestores.indexed, fun link entry' hentry' _ => ?_, fun link entry' hentry' hlive => ?_,
    fun _ link entry' hentry' hlive _ _ => ?_⟩
  · obtain ⟨_, _, -, hrecovered⟩ := hrestores.recovered hentry'
    exact hrecovered.current
  · obtain ⟨entry, hknown, hever, hintent, hcurrent, hstate⟩ := hstate hentry' hlive
    refine ⟨?_, by rw [hintent]; exact hknown.intent, fun hfalse => ?_⟩
    · rw [hever, hstate]
      cases entry.record.everEstablished <;> decide
    · rw [hintent, hcurrent]
      exact ⟨(hknown.idle (hever.symm.trans hfalse)).1, List.forall_mem_nil _⟩
  · obtain ⟨entry, -, -, -, -, hstate⟩ := hstate hentry' hlive
    rw [hstate]
    split
    · exact .inr rfl
    · exact .inl rfl

theorem knows_create (config : EngineConfig) : (Impl.create config).Knows := by
  refine ⟨indexed_create config, ?_, ?_, fun _ => ?_⟩ <;> intro link entry hentry <;>
  · rw [Impl.entryOf_create] at hentry
    cases hentry

theorem Session.Reached.knows {s : Session} (h : s.Reached) : s.impl.Knows := by
  refine (Session.invariant (fun _ _ hok => hok.1) ?_ (fun _ h => h.indexed) ?_
    (fun _ _ _ _ hsaved _ hrestores => hsaved.restore hrestores) h).1
  · rintro s ⟨⟨config, himpl⟩, hjournals⟩
    rw [himpl]
    exact ⟨knows_create config, hjournals⟩
  · intro s op hok hload hknows
    refine hknows.apply ?_ hload
    cases op <;> first | exact hok.2 | cases hload

theorem Impl.Knows.left_iff {impl : Impl} (h : impl.Knows) {link : LinkId} {entry : LinkEntry}
    (hentry : impl.entryOf link = some entry) : entry.record.state ≠ .unknown ↔
      entry.record.state = .retired ∨ entry.record.everEstablished = true := by
  by_cases hlive : entry.record.state = .retired
  · rw [hlive]
    exact iff_of_true nofun (.inl rfl)
  · exact (h.known link entry hentry hlive).ever.symm.trans (or_iff_right hlive).symm

/-- The link is bound, and not in UNKNOWN. -/
def Impl.HasLeft (impl : Impl) (link : LinkId) : Prop :=
  ∃ entry, impl.entryOf link = some entry ∧ entry.record.state ≠ .unknown

theorem Impl.Knows.apply_hasLeft {impl : Impl} (h : impl.Knows) {op : Op} (hop : op.Ordinary)
    (hload : op.isLoad = false) {link : LinkId} (hleft : impl.HasLeft link) :
    (impl.apply op).HasLeft link := by
  obtain ⟨entry, hentry, hstate⟩ := hleft
  obtain ⟨entry', hentry', hstays⟩ := Moves.follow (R := LinkEntry.Left) (fun _ => id)
    (fun h h' => h' ∘ h) (fun _ _ _ _ hturn => hturn.left) (apply_moves impl hload) hentry
  exact ⟨entry', hentry', ((h.apply hop hload).left_iff hentry').mpr
    (hstays ((h.left_iff hentry).mp hstate))⟩

theorem Impl.Knows.restore_hasLeft {saved impl impl' : Impl} {includeHistory : Bool}
    (h : saved.Knows) (hrestores : Restores saved impl impl' includeHistory) {link : LinkId}
    (hleft : saved.HasLeft link) : impl'.HasLeft link := by
  obtain ⟨entry, hentry, hstate⟩ := hleft
  have hentry' := hrestores.entries link
  rw [hentry] at hentry'
  refine ⟨_, hentry', ((h.restore hrestores).left_iff hentry').mpr ?_⟩
  obtain ⟨history, hrecord⟩ := persistEntry_record includeHistory entry
  have hrecovered := recovered_recoveredEntry impl.config (persistEntry includeHistory entry)
  rw [hrecord] at hrecovered
  exact ((h.left_iff hentry).mp hstate).imp (fun hr => (hrecovered.retired hr).1)
    fun hever => hrecovered.everEstablished.trans hever

/-- A link that has left UNKNOWN does not come back, as long as only journals are loaded that have
been saved since. -/
theorem Session.hasLeft {s t : Session} (h : s.Reached) {link : LinkId}
    (hleft : s.impl.HasLeft link) (ht : Runs.Run (· = ⟨s.impl, []⟩) Session.apply
      (fun s a => s.Own a ∧ a.Ordinary) t) : t.impl.HasLeft link := by
  refine (Session.invariant (P := fun impl => impl.Knows ∧ impl.HasLeft link)
    (fun _ _ hok => hok.1) ?_ (fun _ h => h.1.indexed) ?_
    (fun _ _ _ _ hsaved _ hrestores => ⟨hsaved.1.restore hrestores,
      hsaved.1.restore_hasLeft hrestores hsaved.2⟩) ht).1.2
  · rintro _ rfl
    exact ⟨⟨h.knows, hleft⟩, rfl⟩
  · intro s op hok hload hknows
    have hop : op.Ordinary := by
      cases op <;> first | exact hok.2 | cases hload
    exact ⟨hknows.1.apply hop hload, hknows.1.apply_hasLeft hop hload hknows.2⟩

/-- In every session of a new engine: a live link is in UNKNOWN exactly while it never established a
state; a link that has left UNKNOWN is never in it again, whatever is done, and saved since, and
loaded of that, be it into another engine; and a link that left UNKNOWN and has neither evidence nor
an intent is in REVALIDATION_REQUIRED. -/
theorem unknown_left {s : Session} (h : s.Reached) :
    (∀ link entry, s.impl.entryOf link = some entry → entry.record.state ≠ .retired →
      (entry.record.everEstablished = true ↔ entry.record.state ≠ .unknown)) ∧
    (∀ link, s.impl.HasLeft link → ∀ t, Runs.Run (· = ⟨s.impl, []⟩) Session.apply
      (fun s a => s.Own a ∧ a.Ordinary) t → t.impl.HasLeft link) ∧
    (∀ (impl : Impl) (config config' : PersistenceConfig) (steps : ReadSteps),
      (impl.load config' steps (some (s.impl.encode config).1)).1 = impl ∨
      ∀ link, s.impl.HasLeft link →
        (impl.load config' steps (some (s.impl.encode config).1)).1.HasLeft link) ∧
    (s.impl.Unsaturated → ∀ link entry, s.impl.entryOf link = some entry →
      entry.record.state ≠ .retired → entry.record.state ≠ .unknown → entry.current = [] →
      entry.record.adminIntent = none → entry.record.state = .revalidationRequired) := by
  have hknows := h.knows
  refine ⟨fun link entry hentry hlive => (hknows.known link entry hentry hlive).ever,
    fun link hleft t ht => Session.hasLeft h hleft ht, fun impl config config' steps => ?_,
    fun hu link entry hentry hlive hleft hcurrent hintent =>
      (hknows.waits hu link entry hentry hlive hcurrent hintent).resolve_left hleft⟩
  rcases load_saved hknows.indexed impl config config' steps with ⟨_, -, heq⟩ | hrestores
  · rw [heq]
    exact .inl rfl
  · exact .inr fun link => hknows.restore_hasLeft hrestores

namespace Sample

/-- The evidence of the link is withdrawn, and the engine is saved. -/
def withdrawnOps : List Session.Act :=
  [.op (.withdrawEvidence
      { key := observation.key, observation := observation.observation, publisher
        workerBoot := boot, sourceGeneration := .fromValue 1, sequence := 2 }),
    .save {} {} none]

def withdrawn : Session := withdrawnOps.foldl Session.apply ⟨session.impl, []⟩

/-- The session that has loaded what it saved then. -/
def recalled : Session := withdrawn.apply (.op (.load {} {} withdrawn.journals.head?))

end Sample

/-- The link of the small run has left UNKNOWN, and has not come back after its evidence is withdrawn
and the journal of this is loaded. -/
theorem unknown_left_sample : Sample.recalled.impl.HasLeft Sample.link := by
  have hleft : Sample.session.impl.HasLeft Sample.link := by
    obtain ⟨entry, hentry, hknown⟩ := (Option.any_eq_true (·.record.state ≠ .unknown)
      (Sample.session.impl.entryOf Sample.link)).mp (by decide)
    exact ⟨entry, hentry, of_decide_eq_true hknown⟩
  have hstart : Runs.Run (· = ⟨Sample.session.impl, []⟩) Session.apply
      (fun s a => s.Own a ∧ a.Ordinary) ⟨Sample.session.impl, []⟩ := .start rfl
  have hwithdrawn := @Runs.Run.foldl _ _ _ _ _ _ hstart Sample.withdrawnOps
    ⟨⟨trivial, trivial⟩, ⟨trivial, trivial⟩, trivial⟩
  exact (unknown_left Sample.session_reached).2.1 Sample.link hleft _
    (.step _ hwithdrawn ⟨fun bytes hbytes => List.mem_of_mem_head? hbytes, trivial⟩)

namespace Sample

/-- The link is disabled, and then its publisher withdraws the only evidence of it. -/
def disableOps : List Op :=
  [.transitionState
      { link, target := .adminDisabled, publication, publisher, workerBoot := boot },
    .withdrawEvidence
      { key := observation.key, observation := observation.observation, publisher
        workerBoot := boot, sourceGeneration := .fromValue 1, sequence := 2 }]

def disabled : Session := (disableOps.map Session.Act.op).foldl Session.apply session

end Sample

/-- Under an intent, a link that has lost all of its evidence stays in the state of the intent. And a
link that is disabled is in UNKNOWN again after a journal from before is loaded. -/
theorem unknown_reentered : (Sample.disabled.Reached ∧ Sample.disabled.impl.Unsaturated ∧
    Sample.session.impl.currentEvidence Sample.link ≠ [] ∧
    ∃ entry, Sample.disabled.impl.entryOf Sample.link = some entry ∧ entry.current = [] ∧
      entry.record.everEstablished = true ∧ entry.record.state = .adminDisabled) ∧
    Sample.overtaken.Reached ∧ Sample.overtaking.impl.HasLeft Sample.link ∧
    Sample.overtaken = Sample.overtaking.apply (.op (.load {} {} (some Sample.earlyJournal))) ∧
    ¬ Sample.overtaken.impl.HasLeft Sample.link := by
  refine ⟨⟨Runs.Run.foldl Sample.session_reached ⟨⟨trivial, trivial⟩, ⟨trivial, trivial⟩, trivial⟩,
    by decide, by decide, ?_⟩, Sample.overtaken_reached, ?_, rfl, ?_⟩
  · have hany : (Sample.disabled.impl.entryOf Sample.link).any (fun entry => entry.current = [] ∧
      entry.record.everEstablished = true ∧ entry.record.state = .adminDisabled) := by decide
    simpa [Option.any_eq_true] using hany
  · have hany : (Sample.overtaking.impl.entryOf Sample.link).any
      (·.record.state ≠ .unknown) := by decide
    simpa [Option.any_eq_true, Impl.HasLeft] using hany
  · rw [Sample.overtaken_impl]
    rintro ⟨entry, hentry, hleft⟩
    have hall : ((Sample.overtaking.impl.recover
        (Sample.early.buildPayload false).uncounted).impl.entryOf Sample.link).all
          (·.record.state = .unknown) := by decide
    rw [hentry] at hall
    exact hleft (of_decide_eq_true hall)

end LinkState
