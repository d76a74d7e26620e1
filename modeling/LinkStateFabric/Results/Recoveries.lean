import LinkStateFabric.Lib.Maps
import LinkStateFabric.Engine.Sessions
import LinkStateFabric.Results.Indexes

/-!
# Recovery is conservative

A recovered engine has no evidence and no publishers, and its live links wait for evidence: in
REVALIDATION_REQUIRED where they had established a state, in UNKNOWN where not. Recovery takes a
link that is in the right state already for one that is left UNKNOWN, whatever that state is
(`conservative_recovery_iff`).
-/

namespace LinkState

open Sorting

/-! ## What recovery counts -/

/-- The number of links in a state. -/
def Impl.countIn (impl : Impl) (state : LinkOperationalState) : Nat :=
  (impl.store.links.keys.filter fun link =>
    (impl.entryOf link).any (·.record.state = state)).card

/-- The link is counted as revalidated. -/
def PersistedLink.Revalidated (persisted : PersistedLink) : Prop :=
  persisted.record.state ≠ .retired ∧ persisted.record.state ≠ .revalidationRequired ∧
    persisted.record.everEstablished = true

/-- The link is counted as left UNKNOWN. -/
def PersistedLink.LeftUnknown (persisted : PersistedLink) : Prop :=
  persisted.record.state ≠ .retired ∧
    (persisted.record.state = .revalidationRequired ∨ persisted.record.everEstablished = false)

instance (persisted : PersistedLink) : Decidable persisted.Revalidated :=
  inferInstanceAs (Decidable (_ ∧ _))

instance (persisted : PersistedLink) : Decidable persisted.LeftUnknown :=
  inferInstanceAs (Decidable (_ ∧ _))

theorem foldl_recoverLink_counts (links : List PersistedLink) (r : Recovery) :
    (links.foldl Recovery.recoverLink r).revalidated =
        r.revalidated + links.countP (PersistedLink.Revalidated ·) ∧
      (links.foldl Recovery.recoverLink r).leftUnknown =
        r.leftUnknown + links.countP (PersistedLink.LeftUnknown ·) := by
  induction links generalizing r with
  | nil => exact ⟨rfl, rfl⟩
  | cons persisted links ih =>
    obtain ⟨_, _, -, -, -, -, hrevalidated, hunknown⟩ := recoverLink_spec r persisted
    obtain ⟨hrevalidated', hunknown'⟩ := ih (r.recoverLink persisted)
    rw [List.foldl_cons, hrevalidated', hunknown', hrevalidated, hunknown, List.countP_cons,
      List.countP_cons]
    constructor
    · rw [Nat.add_assoc, Nat.add_comm (links.countP _)]
      exact congrArg (fun n => _ + (n + _)) (if_congr decide_eq_true_iff.symm rfl rfl)
    · rw [Nat.add_assoc, Nat.add_comm (links.countP _)]
      exact congrArg (fun n => _ + (n + _)) (if_congr decide_eq_true_iff.symm rfl rfl)

section Restored

variable {saved impl impl' : Impl} {includeHistory : Bool}

/-- The links of a restored engine are counted in the payload. -/
theorem Restores.countIn (h : Restores saved impl impl' includeHistory)
    (state : LinkOperationalState) {q : PersistedLink → Prop} [DecidablePred q]
    (hq : ∀ persisted, (recoveredEntry impl.config persisted).record.state = state ↔ q persisted) :
    impl'.countIn state = (saved.buildPayload includeHistory).links.countP (q ·) := by
  have hkeys : impl'.store.links.keys = saved.store.links.keys := Finmap.keys_congr fun link => by
    have hentry := congrArg Option.isSome (h.entries link)
    rwa [Option.isSome_map] at hentry
  unfold Impl.countIn Impl.buildPayload
  rw [List.countP_filterMap, hkeys, ← length_listing, ← listing_filter,
    ← List.countP_eq_length_filter]
  refine List.countP_congr fun link _ => ?_
  rw [h.entries]
  cases saved.entryOf link with
  | none => simp
  | some entry => simp [hq]

/-! ## Retired links -/

/-- If the link is retired, it is recorded as retired. -/
def LinkEntry.Closed (entry : LinkEntry) : Prop :=
  entry.record.state = .retired → entry.record.resultClass = .retired

/-- Every retired link is recorded as retired. -/
def Impl.Closed (impl : Impl) : Prop :=
  ∀ link entry, impl.entryOf link = some entry → entry.Closed

/-- Only a retirement leaves a link retired. -/
theorem Turn.closed {op : Op} {link : LinkId} {t t' : Edit} (h : Turn op link t t')
    (hlive : t.entry.record.state ≠ .retired) : t'.entry.Closed := by
  intro hretired
  cases h with
  | halt h => exact absurd (h.state.symm.trans hretired) hlive
  | stall _ h => exact absurd (h.state.symm.trans hretired) hlive
  | retire _ h => exact h.resultClass
  | @resolve u h prepared publication publisher counters records hfits =>
    obtain ⟨-, hcommits⟩ := Edit.commitPrepared_spec hfits publication publisher
    exact absurd (hcommits.state.symm.trans hretired) hfits.target_live

theorem Impl.Closed.apply {impl : Impl} (h : impl.Closed) (hindexed : Indexed impl)
    (hsealed : impl.Sealed) {op : Op} (hload : op.isLoad = false) : (impl.apply op).Closed :=
  Moves.entries (K := fun _ => True) (Q := fun _ entry => entry.Closed)
    (fun _ _ _ _ => trivial) hindexed hsealed
    (fun _ _ hnew hretired => absurd (hnew.state.symm.trans hretired) nofun)
    (fun _ _ _ hlive _ _ hturn _ => hturn.closed hlive) (apply_moves impl hload) trivial h

theorem Restores.closed (h : Restores saved impl impl' includeHistory) (hsaved : saved.Closed) :
    impl'.Closed := by
  intro link entry' hentry' hretired
  obtain ⟨entry, history, hentry, hrecovered⟩ := h.recovered hentry'
  by_cases hwas : entry.record.state = .retired
  · exact (hrecovered.retired hwas).2.1.trans (hsaved link entry hentry hwas)
  · obtain ⟨hstate, -⟩ := hrecovered.live hwas
    rw [hstate, recoveredState] at hretired
    split at hretired <;> cases hretired

theorem Restores.no_evidence (h : Restores saved impl impl' includeHistory) {link : LinkId}
    {entry' : LinkEntry} (hentry' : impl'.entryOf link = some entry') : entry'.current = [] := by
  obtain ⟨_, _, -, hrecovered⟩ := h.recovered hentry'
  exact hrecovered.current

theorem Session.closed {s : Session} (h : Runs.Run Session.Fresh Session.apply Session.Own s) :
    Indexed s.impl ∧ s.impl.Closed := by
  refine (fun hall => ⟨hall.1.1, hall.1.2.2⟩) (Session.invariant
    (P := fun impl => Indexed impl ∧ impl.Sealed ∧ impl.Closed) (fun _ _ h => h) ?_ (fun _ h => h.1)
    (fun _ op _ hload h => ⟨h.1.apply op, h.2.1.apply op, h.2.2.apply h.1 h.2.1 hload⟩)
    (fun _ _ _ _ hsaved _ h => ⟨h.indexed, fun _ _ he _ => h.no_evidence he,
      h.closed hsaved.2.2⟩) h)
  rintro s ⟨⟨config, himpl⟩, hjournals⟩
  rw [himpl]
  refine ⟨⟨indexed_create config, ?_, ?_⟩, hjournals⟩ <;> intro link entry hentry <;>
  · rw [Impl.entryOf_create] at hentry
    cases hentry

/-! ## Conservative recovery -/

/-- The state that recovery puts a link in. -/
def LinkEntry.lawfulState (entry : LinkEntry) : LinkOperationalState :=
  if entry.record.state = .retired then .retired
  else if entry.record.everEstablished then .revalidationRequired
  else .unknown

/-- The link waits for evidence already. -/
def LinkEntry.AlreadyWaits (entry : LinkEntry) : Prop :=
  entry.record.state = .revalidationRequired ∧ entry.record.everEstablished = true

instance (entry : LinkEntry) : Decidable entry.AlreadyWaits := inferInstanceAs (Decidable (_ ∧ _))

/-- The engine, and what its load returned, are a conservative recovery of another engine. -/
structure Conservative (saved impl' : Impl) (loaded : LoadOutcome) : Prop where
  current : ∀ link, impl'.currentEvidence link = []
  publishers : impl'.store.publishers = ∅
  links : ∀ link entry, saved.entryOf link = some entry → ∃ entry',
    impl'.entryOf link = some entry' ∧ entry'.record.state = entry.lawfulState ∧
    stateOf entry'.record.resultClass = entry'.record.state
  revalidated : loaded.recordsRevalidated = impl'.countIn .revalidationRequired
  leftUnknown : loaded.recordsLeftUnknown = impl'.countIn .unknown

theorem recoveredEntry_state (config : EngineConfig) (includeHistory : Bool) (entry : LinkEntry) :
    (recoveredEntry config (persistEntry includeHistory entry)).record.state = entry.lawfulState := by
  obtain ⟨history, hrecord⟩ := persistEntry_record includeHistory entry
  have hrecovered := recovered_recoveredEntry config (persistEntry includeHistory entry)
  rw [hrecord] at hrecovered
  unfold LinkEntry.lawfulState
  by_cases hretired : entry.record.state = .retired
  · rw [if_pos hretired]
    exact (hrecovered.retired hretired).1
  · rw [if_neg hretired]
    exact (hrecovered.live hretired).1

/-- The class of a recovered link is of its state, unless the link has been waiting. -/
theorem recoveredEntry_class (config : EngineConfig) (includeHistory : Bool) {entry : LinkEntry}
    (hclosed : entry.Closed) :
    stateOf (recoveredEntry config (persistEntry includeHistory entry)).record.resultClass =
      entry.lawfulState ↔ ¬ entry.AlreadyWaits := by
  obtain ⟨history, hrecord⟩ := persistEntry_record includeHistory entry
  have hrecovered := recovered_recoveredEntry config (persistEntry includeHistory entry)
  rw [hrecord] at hrecovered
  unfold LinkEntry.lawfulState LinkEntry.AlreadyWaits
  by_cases hretired : entry.record.state = .retired
  · have hclass := (hrecovered.retired hretired).2.1
    rw [if_pos hretired, hclass, hretired]
    exact iff_of_true (congrArg stateOf (hclosed hretired)) fun h => nomatch h.1
  · rw [if_neg hretired, (hrecovered.live hretired).2, recoveredState]
    dsimp only
    cases entry.record.everEstablished <;> by_cases hwaits : entry.record.state = .revalidationRequired <;>
      simp [hwaits, stateOf]

theorem persisted_state (config : EngineConfig) (persisted : PersistedLink) :
    ((recoveredEntry config persisted).record.state = .revalidationRequired ↔
      persisted.record.state ≠ .retired ∧ persisted.record.everEstablished = true) ∧
    ((recoveredEntry config persisted).record.state = .unknown ↔
      persisted.record.state ≠ .retired ∧ persisted.record.everEstablished = false) := by
  have hrecovered := recovered_recoveredEntry config persisted
  by_cases hretired : persisted.record.state = .retired
  · rw [(hrecovered.retired hretired).1]
    simp [hretired]
  · rw [(hrecovered.live hretired).1, recoveredState]
    cases persisted.record.everEstablished <;> simp [hretired]

/-- Where no link has been waiting, recovery counts the links that it leaves in each state. -/
theorem Restores.counts (h : Restores saved impl impl' includeHistory)
    (hnone : ∀ link entry, saved.entryOf link = some entry → ¬ entry.AlreadyWaits) :
    impl'.countIn .revalidationRequired =
      (saved.buildPayload includeHistory).links.countP (PersistedLink.Revalidated ·) ∧
    impl'.countIn .unknown =
      (saved.buildPayload includeHistory).links.countP (PersistedLink.LeftUnknown ·) := by
  have hwaits : ∀ persisted ∈ (saved.buildPayload includeHistory).links,
      ¬ (persisted.record.state = .revalidationRequired ∧
        persisted.record.everEstablished = true) := by
    intro persisted hp
    obtain ⟨link, entry, hentry, rfl⟩ := mem_buildPayload.mp hp
    obtain ⟨history, hrecord⟩ := persistEntry_record includeHistory entry
    rw [hrecord]
    exact hnone link entry hentry
  rw [h.countIn .revalidationRequired fun p => (persisted_state impl.config p).1,
    h.countIn .unknown fun p => (persisted_state impl.config p).2]
  constructor <;> refine List.countP_congr fun persisted hp => ?_ <;>
    rw [decide_eq_true_iff, decide_eq_true_iff]
  · exact ⟨fun ⟨hlive, hever⟩ => ⟨hlive, fun hr => hwaits persisted hp ⟨hr, hever⟩, hever⟩,
      fun ⟨hlive, _, hever⟩ => ⟨hlive, hever⟩⟩
  · refine ⟨fun ⟨hlive, hever⟩ => ⟨hlive, .inr hever⟩, fun ⟨hlive, h⟩ => ⟨hlive, ?_⟩⟩
    refine h.elim (fun hr => ?_) id
    exact Bool.eq_false_iff.mpr fun hever => hwaits persisted hp ⟨hr, hever⟩

theorem recover_counts (impl : Impl) (payload : JournalPayload) :
    (impl.recover payload).revalidated =
      payload.links.countP (PersistedLink.Revalidated ·) ∧
    (impl.recover payload).leftUnknown =
      payload.links.countP (PersistedLink.LeftUnknown ·) := by
  obtain ⟨hrevalidated, hunknown⟩ := foldl_recoverLink_counts payload.links
    { impl := (impl.resetTo payload).rebuildFences payload.fences }
  exact ⟨hrevalidated.trans (Nat.zero_add _), hunknown.trans (Nat.zero_add _)⟩

/-- What recovery makes of the journal of an engine whose retired links are recorded as retired is
conservative exactly where no link has been waiting. -/
theorem conservative_iff (hclosed : saved.Closed)
    {loaded : LoadOutcome} (h : Restores saved impl impl' includeHistory)
    (hrevalidated : loaded.recordsRevalidated =
      (saved.buildPayload includeHistory).links.countP (PersistedLink.Revalidated ·))
    (hunknown : loaded.recordsLeftUnknown =
      (saved.buildPayload includeHistory).links.countP (PersistedLink.LeftUnknown ·)) :
    Conservative saved impl' loaded ↔
      ∀ link entry, saved.entryOf link = some entry → ¬ entry.AlreadyWaits := by
  have hentries {link : LinkId} {entry : LinkEntry} (hentry : saved.entryOf link = some entry) :
      impl'.entryOf link = some (recoveredEntry impl.config (persistEntry includeHistory entry)) :=
    (h.entries link).trans (congrArg _ hentry)
  constructor
  -- A link that waited already is not recovered, and keeps a class that need not be that of its
  -- state.
  · intro hconservative link entry hentry
    obtain ⟨entry', hentry', hstate, hclass⟩ := hconservative.links link entry hentry
    obtain rfl := Option.some.inj ((hentries hentry).symm.trans hentry')
    exact (recoveredEntry_class impl.config includeHistory (hclosed link entry hentry)).mp
      (hclass.trans hstate)
  · intro hnone
    obtain ⟨hcountR, hcountU⟩ := h.counts hnone
    refine ⟨fun link => ?_, h.publishers, fun link entry hentry => ⟨_, hentries hentry, ?_⟩,
      hrevalidated.trans hcountR.symm, hunknown.trans hcountU.symm⟩
    · cases hentry' : impl'.entryOf link with
      | none =>
        unfold Impl.currentEvidence
        rw [hentry']
        rfl
      | some entry' => rw [Impl.currentEvidence_eq hentry', h.no_evidence hentry']
    · have hstate := recoveredEntry_state impl.config includeHistory entry
      refine ⟨hstate, hstate ▸ ?_⟩
      exact (recoveredEntry_class impl.config includeHistory (hclosed link entry hentry)).mpr
        (hnone link entry hentry)

end Restored

/-- In every session of a new engine, whatever is loaded of what was saved: the recovery of its
journal is conservative exactly where no established link was saved in REVALIDATION_REQUIRED. -/
theorem conservative_recovery_iff {s : Session}
    (h : Runs.Run Session.Fresh Session.apply Session.Own s) {config : PersistenceConfig}
    {write : WriteSteps} {file : Option Bytes}
    (hsave : (s.impl.save config write file).1.isError = false) (impl : Impl)
    (config' : PersistenceConfig) (read : ReadSteps)
    (hload : (impl.load config' read (s.impl.save config write file).2).2.outcome.code =
      .committed) :
    Conservative s.impl (impl.load config' read (s.impl.save config write file).2).1
        (impl.load config' read (s.impl.save config write file).2).2 ↔
      ∀ link entry, s.impl.entryOf link = some entry → ¬ entry.AlreadyWaits := by
  obtain ⟨hindexed, hclosed⟩ := Session.closed h
  rw [Session.save_journal hsave] at hload ⊢
  rcases load_recovers impl config config' read with ⟨refusal, hfails, heq⟩ |
    ⟨payload, rfl, hdecoded, himpl, hrevalidated, hunknown⟩
  · rw [heq] at hload
    exact absurd hload hfails
  have hrestores := restores_recover hindexed impl config.includeHistory hdecoded
  rw [← himpl] at hrestores
  obtain ⟨hcountR, hcountU⟩ :=
    recover_counts impl (s.impl.buildPayload config.includeHistory).uncounted
  exact conservative_iff hclosed hrestores (hrevalidated.trans hcountR) (hunknown.trans hcountU)

namespace Sample

/-- The small run, and then the publisher withdraws the only evidence of the link. -/
def waiting : Session := session.apply (.op (.withdrawEvidence withdrawal))

theorem session_storable : (session.impl.buildPayload false).Storable {} {} := by
  rw [session_impl]
  exact engine_storable

theorem waiting_storable : (waiting.impl.buildPayload false).Storable {} {} := by decide +kernel

theorem session_none : ∀ link ∈ session.impl.store.links.keys,
    ∀ entry ∈ session.impl.entryOf link, ¬ entry.AlreadyWaits := by decide +kernel

theorem waiting_run : Runs.Run Session.Fresh Session.apply Session.Own waiting :=
  session_run.step _ trivial

/-- The engine that has loaded the journal of the waiting link. -/
def rewaiting : Impl × LoadOutcome :=
  (Impl.create {}).load {} {} (waiting.impl.save {} {} none).2

theorem rewaiting_eq :
    rewaiting.1 = ((Impl.create {}).recover (waiting.impl.buildPayload false).uncounted).impl ∧
    rewaiting.2.outcome.code = .committed := by
  unfold rewaiting
  exact load_plain {} waiting_storable

end Sample

/-- The recovery of the small run is conservative. -/
theorem conservative_recovery_sample :
    Conservative Sample.session.impl
      ((Impl.create {}).load {} {} (Sample.session.impl.save {} {} none).2).1
      ((Impl.create {}).load {} {} (Sample.session.impl.save {} {} none).2).2 :=
  (conservative_recovery_iff Sample.session_run (Sample.save_plain Sample.session.impl) (.create {})
    {} {} (Sample.load_plain {} Sample.session_storable).2).mpr fun link entry hentry =>
      Sample.session_none link (Finmap.mem_keys.mpr (Finmap.mem_of_lookup_eq_some hentry)) entry
        hentry

/-- The link that has been waiting is recorded as AUTHORITATIVE_UNKNOWN in REVALIDATION_REQUIRED. -/
theorem waiting_misrecorded :
    Runs.Run Session.Fresh Session.apply Session.Own Sample.waiting ∧
    (Sample.waiting.impl.save {} {} none).1.isError = false ∧
    Sample.rewaiting.2.outcome.code = .committed ∧
    ¬ Conservative Sample.waiting.impl Sample.rewaiting.1 Sample.rewaiting.2 := by
  refine ⟨Sample.waiting_run, Sample.save_plain _, Sample.rewaiting_eq.2, fun h => ?_⟩
  have hall : ∀ link ∈ Sample.waiting.impl.store.links.keys,
      (Sample.rewaiting.1.entryOf link).any fun entry' =>
        entry'.record.state = .revalidationRequired ∧
        entry'.record.resultClass = .authoritativeUnknown := by
    rw [Sample.rewaiting_eq.1]
    decide +kernel
  have hbound : Sample.link ∈ Sample.waiting.impl.store.links.keys := by decide +kernel
  obtain ⟨entry, hentry⟩ := Finmap.mem_iff.mp (Finmap.mem_keys.mp hbound)
  obtain ⟨entry', hentry', hrecorded⟩ := (Option.any_eq_true ..).mp (hall Sample.link hbound)
  obtain ⟨hstate, hclass⟩ := of_decide_eq_true hrecorded
  obtain ⟨entry'', hentry'', -, hlaw⟩ := h.links Sample.link entry hentry
  obtain rfl := Option.some.inj (hentry'.symm.trans hentry'')
  rw [hstate, hclass] at hlaw
  cases hlaw

/-! ## State generations -/

/-- No state generation of the journal goes back, each change of state advances it, and the
generation of the engine is not behind. -/
structure KeepsGenerations (payload : JournalPayload) (loaded : Impl) : Prop where
  links : ∀ persisted ∈ payload.links, ∃ entry,
    loaded.entryOf persisted.record.binding.link = some entry ∧
    persisted.record.stateGeneration ≤ entry.record.stateGeneration ∧
    (entry.record.state ≠ persisted.record.state →
      persisted.record.stateGeneration < entry.record.stateGeneration)
  global : ∀ link entry, loaded.entryOf link = some entry →
    entry.record.stateGeneration ≤ loaded.globalStateGeneration

/-- The link is in the state of its recovery already. -/
def PersistedLink.Settled (persisted : PersistedLink) : Prop :=
  persisted.record.state = .retired ∨ persisted.record.state = recoveredState persisted.record

/-- Recovery leaves the state generation of a settled link alone. -/
theorem recoveredEntry_of_settled {persisted : PersistedLink} (h : persisted.Settled)
    (config : EngineConfig) :
    (recoveredEntry config persisted).record.state = persisted.record.state ∧
    (recoveredEntry config persisted).record.stateGeneration = persisted.record.stateGeneration := by
  unfold recoveredEntry
  split
  · exact ⟨rfl, rfl⟩
  · rename_i hlive
    rw [if_pos (h.resolve_left hlive)]
    exact ⟨rfl, rfl⟩

/-- The state generation of any other link is incremented without a guard. -/
theorem recoveredEntry_of_not_settled {persisted : PersistedLink} (h : ¬ persisted.Settled)
    (config : EngineConfig) :
    (recoveredEntry config persisted).record.stateGeneration =
      .fromValue (persisted.record.stateGeneration.value + 1) := by
  obtain ⟨hlive, hchanged⟩ := not_or.mp h
  obtain ⟨_, -, heq⟩ := changedEntry_eq config persisted
  unfold recoveredEntry
  rw [if_neg hlive, if_neg hchanged, heq]

theorem lt_fromValue_succ {g : LinkStateGeneration} (h : g.saturated = false) :
    g < .fromValue (g.value + 1) := by
  have hbound := g.bounded
  simp only [StrongGeneration.lt_iff, StrongGeneration.fromValue, StrongGeneration.saturated,
    decide_eq_false_iff_not] at h ⊢
  omega

/-- An exhausted counter wraps. -/
theorem fromValue_succ_lt {g : LinkStateGeneration} (h : g.saturated = true) :
    .fromValue (g.value + 1) < g := by
  simp only [StrongGeneration.lt_iff, StrongGeneration.fromValue, StrongGeneration.saturated,
    decide_eq_true_eq] at h ⊢
  omega

/-- The generation of a recovered engine is not behind any of its links. -/
theorem recover_stateGeneration_le (impl : Impl) {payload : JournalPayload} (h : payload.Decoded)
    {link : LinkId} {entry : LinkEntry}
    (hentry : (impl.recover payload).impl.entryOf link = some entry) :
    entry.record.stateGeneration ≤ (impl.recover payload).impl.globalStateGeneration := by
  obtain ⟨adopted, hadopted, heq⟩ := adopted_recover impl h
  obtain ⟨boots, hstart⟩ := rebuildFences_eq (impl.resetTo payload) payload.fences
  rw [heq] at hentry ⊢
  obtain ⟨persisted, hmem, -, -, hgeneration⟩ := hadopted.entries link entry hentry
  refine hgeneration ?_
  rw [hstart]
  exact (h.links persisted hmem).stateGeneration

/-- A load that commits keeps the state generations of its journal, exactly if it changes the state
of no link whose generation is exhausted. -/
theorem recovered_generations_iff (impl : Impl) {config : PersistenceConfig} {steps : ReadSteps}
    {bytes : Bytes} {payload : JournalPayload} {summary : JournalSummary}
    (hdecode : decodeJournal bytes config = .ok (payload, summary))
    (hload : (impl.load config steps (some bytes)).2.outcome.code = .committed) :
    KeepsGenerations payload (impl.load config steps (some bytes)).1 ↔
      ∀ persisted ∈ payload.links, persisted.record.stateGeneration.saturated = true →
        persisted.Settled := by
  rcases load_cases impl config steps (some bytes) with ⟨refusal, hrefused, heq⟩ |
    ⟨_, payload', summary', hfile, hdecode', himpl, -⟩
  · rw [heq] at hload
    exact absurd hload hrefused
  cases hfile
  obtain ⟨rfl, rfl⟩ := Prod.mk.inj (Except.ok.inj (hdecode.symm.trans hdecode'))
  have hdecoded := decodeJournal_decoded hdecode
  have hrecovers := recovers_recover impl hdecoded
  rw [himpl]
  constructor
  · intro hkeeps persisted hmem hsaturated
    -- A saturated generation comes round to zero where the link changes.
    by_contra hchanged
    obtain ⟨entry, hentry, hle, -⟩ := hkeeps.links persisted hmem
    rw [hrecovers.entries persisted hmem] at hentry
    cases hentry
    rw [recoveredEntry_of_not_settled hchanged] at hle
    exact absurd hle (not_le.mpr (fromValue_succ_lt hsaturated))
  · intro h
    refine ⟨fun persisted hmem => ⟨_, hrecovers.entries persisted hmem, ?_⟩,
      fun link entry hentry => recover_stateGeneration_le impl hdecoded hentry⟩
    by_cases hsettled : persisted.Settled
    · obtain ⟨hstate, hgeneration⟩ := recoveredEntry_of_settled hsettled
        (impl.resetTo payload).config
      exact ⟨hgeneration.ge, fun hne => absurd hstate hne⟩
    · have hfree : persisted.record.stateGeneration.saturated = false :=
        Bool.eq_false_iff.mpr fun hsaturated => hsettled (h persisted hmem hsaturated)
      rw [recoveredEntry_of_not_settled hsettled]
      exact ⟨(lt_fromValue_succ hfree).le, fun _ => lt_fromValue_succ hfree⟩

namespace Sample

/-- The payload of the small run. -/
def upPayload : JournalPayload := (engine.buildPayload false).uncounted

/-- The payload of the small run, with the state generations exhausted. -/
def exhaustedPayload : JournalPayload :=
  { upPayload with
    globalStateGeneration := .fromValue (2 ^ 64 - 1)
    links := upPayload.links.map fun link =>
      { link with record.stateGeneration := .fromValue (2 ^ 64 - 1) } }

theorem upPayload_storable : upPayload.Storable {} {} := engine_storable.uncounted

theorem exhaustedPayload_storable : exhaustedPayload.Storable {} {} := by decide +kernel

theorem upPayload_histories : ∀ link ∈ upPayload.links, link.record.history = [] := by
  decide +kernel

theorem exhaustedPayload_histories : ∀ link ∈ exhaustedPayload.links, link.record.history = [] := by
  decide +kernel

/-- The journal of a storable payload is decoded to it, and loaded. -/
theorem decodes_and_loads {payload : JournalPayload} (h : payload.Storable {} {})
    (huncounted : payload.uncounted = payload)
    (hhistory : ∀ link ∈ payload.links, link.record.history = []) :
    (∃ summary, decodeJournal (encodeJournal payload {}).1 {} = .ok (payload, summary)) ∧
    ((Impl.create {}).load {} {} (some (encodeJournal payload {}).1)).2.outcome.code =
      .committed := by
  have hsize : (encodeJournal payload {}).1.length ≤ maxJournalBytesCap := by
    rw [length_encodeJournal]
    exact h.size.trans (maxJournalBytes_le {})
  have hload := (@load_encoded payload {} {} {} (.create {}) rfl rfl (.inr hhistory)).1 h
  refine ⟨?_, hload.2⟩
  obtain ⟨hdecode, -⟩ := decodeJournal_encodeJournal hsize (.inr hhistory) {}
  rw [huncounted] at hdecode
  exact hdecode ⟨h.valid, h.records, h.loadable⟩

end Sample

/-- The journal of the small run keeps its generations. -/
theorem recovered_generations_sample : KeepsGenerations Sample.upPayload
    ((Impl.create {}).load {} {} (some (encodeJournal Sample.upPayload {}).1)).1 := by
  obtain ⟨⟨_, hdecode⟩, hload⟩ :=
    Sample.decodes_and_loads Sample.upPayload_storable rfl Sample.upPayload_histories
  refine (recovered_generations_iff (.create {}) hdecode hload).mpr fun persisted hmem hsaturated => ?_
  have hfree : ∀ persisted ∈ Sample.upPayload.links,
      persisted.record.stateGeneration.saturated = false := by decide +kernel
  rw [hfree persisted hmem] at hsaturated
  cases hsaturated

/-- The link is up in generation 2^64 - 1. Recovery takes it to REVALIDATION_REQUIRED in
generation 0. -/
theorem recovered_generation_wraps :
    (∃ summary, decodeJournal (encodeJournal Sample.exhaustedPayload {}).1 {} =
      .ok (Sample.exhaustedPayload, summary)) ∧
    ((Impl.create {}).load {} {} (some (encodeJournal Sample.exhaustedPayload {}).1)).2.outcome.code =
      .committed ∧
    ¬ KeepsGenerations Sample.exhaustedPayload
      ((Impl.create {}).load {} {} (some (encodeJournal Sample.exhaustedPayload {}).1)).1 := by
  obtain ⟨hdecodes, hload⟩ :=
    Sample.decodes_and_loads Sample.exhaustedPayload_storable rfl Sample.exhaustedPayload_histories
  refine ⟨hdecodes, hload, fun hkeeps => ?_⟩
  have hexhausted : ∃ persisted ∈ Sample.exhaustedPayload.links,
      (persisted.record.stateGeneration.value = 2 ^ 64 - 1) ∧
      (recoveredEntry {} persisted).record.stateGeneration.value = 0 := by decide +kernel
  obtain ⟨persisted, hmem, hlast, hzero⟩ := hexhausted
  obtain ⟨_, hdecode⟩ := hdecodes
  have hrecovers := recovers_recover (Impl.create {}) (decodeJournal_decoded hdecode)
  have himpl := ((@load_encoded Sample.exhaustedPayload {} {} {} (.create {}) rfl rfl
    (.inr Sample.exhaustedPayload_histories)).1 Sample.exhaustedPayload_storable).1
  obtain ⟨entry, hentry, hle, -⟩ := hkeeps.links persisted hmem
  rw [himpl] at hentry
  cases (hrecovers.entries persisted hmem).symm.trans hentry
  rw [StrongGeneration.le_iff, hlast] at hle
  exact absurd (hle.trans hzero.le) (by decide)

end LinkState
