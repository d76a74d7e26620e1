import LinkStateFabric.Engine.Sessions
import LinkStateFabric.Lib.Maps
import Mathlib.Logic.Relation

/-!
# Processes that end and start again

A process that starts loads the journal that the last one has saved, and the next one may end before
anything is asked of it.

* `LinkEntry.settled`: what a recovery makes of an entry that has been recovered before
  (`recoveredEntry_again`). It forgets how the entry came there, and keeps its state and all of its
  generations.
* `recover_eq`: a recovery adopts the recovered entries one after the other, and depends on nothing
  else of the links.
* `reboots_settle`: after the first recovery no generation advances, and after the second nothing
  changes, however often a process ends.
-/

namespace LinkState

open Sorting

/-- A process saves its engine, and the next one loads the journal. -/
def Impl.Reboots (config : EngineConfig) (saved impl' : Impl) : Prop :=
  ∃ (p p' : PersistenceConfig) (write : WriteSteps) (read : ReadSteps) (file : Option Bytes),
    (saved.save p write file).1.isError = false ∧
    ((Impl.create config).load p' read (saved.save p write file).2).2.outcome.code = .committed ∧
    impl' = ((Impl.create config).load p' read (saved.save p write file).2).1

/-! ## Entries -/

/-- What becomes of a recovered entry that is recovered again. -/
def LinkEntry.settled (entry : LinkEntry) : LinkEntry :=
  { entry with
    record.resultClass :=
      if entry.record.state = .retired then entry.record.resultClass else .authoritativeUnknown
    record.history := []
    dispositions := [] }

theorem LinkEntry.settled_settled (entry : LinkEntry) : entry.settled.settled = entry.settled := by
  unfold settled
  dsimp only
  split <;> rfl

section Entries

variable (config config' : EngineConfig) (persisted : PersistedLink) (includeHistory : Bool)

/-- A recovered entry is retired, or it is in the state of its recovery. -/
theorem recoveredEntry_stays :
    (recoveredEntry config persisted).record.state = .retired ∨
    (recoveredEntry config persisted).record.state =
      recoveredState (recoveredEntry config persisted).record := by
  have hrecovered := recovered_recoveredEntry config persisted
  by_cases hretired : persisted.record.state = .retired
  · exact .inl (hrecovered.retired hretired).1
  · refine .inr ((hrecovered.live hretired).1.trans ?_)
    unfold recoveredState
    rw [hrecovered.everEstablished]

/-- What recovery writes into every entry. -/
theorem recoveredEntry_plain :
    (recoveredEntry config persisted).record.durable = true ∧
    (recoveredEntry config persisted).current = [] ∧
    (recoveredEntry config persisted).conflicted = false ∧
    (recoveredEntry config persisted).syntheticBacked = false ∧
    ((recoveredEntry config persisted).record.state ≠ .retired →
      (recoveredEntry config persisted).record.provenanceDigest = digestEvidenceSet []) := by
  obtain ⟨_, -, hchanged⟩ := changedEntry_eq config persisted
  unfold recoveredEntry
  split
  · rename_i hretired
    exact ⟨rfl, rfl, rfl, rfl, fun hlive => absurd hretired hlive⟩
  split
  · exact ⟨rfl, rfl, rfl, rfl, fun _ => rfl⟩
  · rw [hchanged]
    exact ⟨rfl, rfl, rfl, rfl, fun _ => rfl⟩

/-- The recovery of an entry that has been recovered before. -/
theorem recoveredEntry_again :
    recoveredEntry config' (persistEntry includeHistory (recoveredEntry config persisted)) =
      (recoveredEntry config persisted).settled := by
  obtain ⟨hdurable, hcurrent, hconflicted, hsynthetic, hprovenance⟩ :=
    recoveredEntry_plain config persisted
  have hstays := recoveredEntry_stays config persisted
  obtain ⟨history, hrecord⟩ := persistEntry_record includeHistory (recoveredEntry config persisted)
  generalize recoveredEntry config persisted = entry at *
  have hevidence : (persistEntry includeHistory entry).evidence = [] := hcurrent
  have hrestored : restoredEntry config' (persistEntry includeHistory entry) =
      { entry with record.history := [], dispositions := [] } := by
    unfold restoredEntry
    rw [hrecord, hevidence]
    obtain ⟨record, current, dispositions, conflicted, syntheticBacked⟩ := entry
    obtain rfl : current = [] := hcurrent
    obtain rfl : conflicted = false := hconflicted
    obtain rfl : syntheticBacked = false := hsynthetic
    dsimp only at hdurable ⊢
    rw [hdurable, List.map_nil, List.take_nil]
  unfold recoveredEntry keptEntry LinkEntry.settled
  rw [hrestored, hrecord]
  dsimp only
  by_cases hretired : entry.record.state = .retired
  · rw [if_pos hretired, if_pos hretired]
  · have hsame : entry.record.state = recoveredState { entry.record with history } :=
      hstays.resolve_left hretired
    rw [if_neg hretired, if_neg hretired, if_pos hsame, hprovenance hretired]

/-- A recovered entry that is recovered again does not raise the state generation. -/
theorem raisedGlobalState_again (generation : LinkStateGeneration) :
    raisedGlobalState generation (persistEntry includeHistory (recoveredEntry config persisted)) =
      generation := by
  obtain ⟨history, hrecord⟩ := persistEntry_record includeHistory (recoveredEntry config persisted)
  unfold raisedGlobalState
  rw [hrecord]
  exact if_pos (recoveredEntry_stays config persisted)

end Entries

/-! ## Engines -/

/-- The adoption of entries does not read the state generation. -/
theorem foldl_adoptEntry_raised (entries : List LinkEntry) (impl : Impl)
    (generation raised : LinkStateGeneration) :
    { entries.foldl Impl.adoptEntry { impl with globalStateGeneration := generation } with
      globalStateGeneration := raised } =
    { entries.foldl Impl.adoptEntry impl with globalStateGeneration := raised } := by
  induction entries generalizing impl with
  | nil => rfl
  | cons entry entries ih => exact ih (impl.adoptEntry entry)

theorem foldl_recoverLink_impl (links : List PersistedLink) (r : Recovery) :
    (links.foldl Recovery.recoverLink r).impl =
      { (links.map (recoveredEntry r.impl.config)).foldl Impl.adoptEntry r.impl with
        globalStateGeneration := links.foldl raisedGlobalState r.impl.globalStateGeneration } := by
  induction links generalizing r with
  | nil => rfl
  | cons persisted links ih =>
    have himpl := recoverLink_impl r persisted
    rw [List.foldl_cons, ih, himpl]
    exact foldl_adoptEntry_raised _ (r.impl.adoptEntry (recoveredEntry r.impl.config persisted)) _ _

/-- A recovery reads of the links of a journal the entries that it makes of them, and the state
generations that they raise. -/
theorem recover_eq (impl : Impl) (payload : JournalPayload) :
    (impl.recover payload).impl = Impl.rebuildDependents
      { (payload.links.map (recoveredEntry impl.config)).foldl Impl.adoptEntry
          ((impl.resetTo payload).rebuildFences payload.fences) with
        globalStateGeneration := payload.links.foldl raisedGlobalState
          payload.globalStateGeneration } := by
  obtain ⟨boots, hstart⟩ := rebuildFences_eq (impl.resetTo payload) payload.fences
  unfold Impl.recover
  dsimp only
  rw [foldl_recoverLink_impl, hstart]
  rfl

theorem recover_congr {impl : Impl} {payload payload' : JournalPayload}
    (hreset : impl.resetTo payload = impl.resetTo payload')
    (hlinks : payload.links.map (recoveredEntry impl.config) =
      payload'.links.map (recoveredEntry impl.config))
    (hraised : payload.links.foldl raisedGlobalState payload.globalStateGeneration =
      payload'.links.foldl raisedGlobalState payload'.globalStateGeneration) :
    (impl.recover payload).impl = (impl.recover payload').impl := by
  have hfences : payload.fences = payload'.fences := congrArg (·.store.fences) hreset
  rw [recover_eq, recover_eq, hlinks, hraised, hreset, hfences]

theorem Impl.Reboots.recovers {config : EngineConfig} {saved impl' : Impl} (hsaved : Indexed saved)
    (h : Impl.Reboots config saved impl') : ∃ includeHistory,
      Restores saved (.create config) impl' includeHistory ∧
      impl' = ((Impl.create config).recover (saved.buildPayload includeHistory).uncounted).impl := by
  obtain ⟨p, p', write, read, file, hsave, hload, rfl⟩ := h
  rw [Session.save_journal hsave] at hload ⊢
  rcases load_recovers (.create config) p p' read with ⟨refusal, hfails, heq⟩ |
    ⟨payload, rfl, hdecoded, himpl, -⟩
  · rw [heq] at hload
    exact absurd hload hfails
  · rw [himpl]
    exact ⟨p.includeHistory, restores_recover hsaved (.create config) p.includeHistory hdecoded, rfl⟩

theorem foldl_adoptEntry_eq (entries : List LinkEntry) (impl : Impl) :
    ∃ store, entries.foldl Impl.adoptEntry impl = { impl with store } := by
  induction entries generalizing impl with
  | nil => exact ⟨_, rfl⟩
  | cons entry entries ih =>
    obtain ⟨store, heq⟩ := ih (impl.adoptEntry entry)
    exact ⟨store, heq⟩

theorem recover_topologyGeneration (impl : Impl) (payload : JournalPayload) :
    (impl.recover payload).impl.topologyGeneration = payload.topologyGeneration := by
  obtain ⟨boots, hstart⟩ := rebuildFences_eq (impl.resetTo payload) payload.fences
  rw [recover_eq, hstart]
  obtain ⟨store, heq⟩ := foldl_adoptEntry_eq (payload.links.map (recoveredEntry impl.config))
    { impl.resetTo payload with store.fencedBoots := boots }
  rw [heq]
  rfl

/-- All entries of an engine come from a recovery. -/
def Impl.AllRecovered (config : EngineConfig) (impl : Impl) : Prop :=
  ∀ link entry, impl.entryOf link = some entry → ∃ persisted, entry = recoveredEntry config persisted

/-- What the second recovery leaves as the first one has left it. -/
structure Impl.Settles (first second : Impl) : Prop where
  entries : ∀ link, second.entryOf link = (first.entryOf link).map LinkEntry.settled
  globalGeneration : second.globalGeneration = first.globalGeneration
  globalStateGeneration : second.globalStateGeneration = first.globalStateGeneration
  topologyGeneration : second.topologyGeneration = first.topologyGeneration
  epoch : second.epoch = first.epoch
  fences : second.store.fences = first.store.fences
  fencedBoots : ∀ publisher, second.fencedBoots publisher = first.fencedBoots publisher

section Reboots

variable {config : EngineConfig} {saved first second third : Impl}

theorem Restores.allRecovered {includeHistory : Bool}
    (h : Restores saved (.create config) first includeHistory) : first.AllRecovered config := by
  intro link entry hentry
  rw [h.entries, Option.map_eq_some_iff] at hentry
  obtain ⟨e, -, rfl⟩ := hentry
  exact ⟨_, rfl⟩

theorem Impl.AllRecovered.raised {impl : Impl} (h : impl.AllRecovered config) (includeHistory : Bool)
    (generation : LinkStateGeneration) :
    (impl.buildPayload includeHistory).links.foldl raisedGlobalState generation = generation := by
  have hall : ∀ persisted ∈ (impl.buildPayload includeHistory).links, ∀ generation,
      raisedGlobalState generation persisted = generation := by
    intro persisted hp generation
    obtain ⟨link, entry, hentry, rfl⟩ := mem_buildPayload.mp hp
    obtain ⟨p, rfl⟩ := h link entry hentry
    exact raisedGlobalState_again config p includeHistory generation
  revert hall
  generalize (impl.buildPayload includeHistory).links = links
  intro hall
  induction links with
  | nil => rfl
  | cons p links ih =>
    rw [List.foldl_cons, hall p List.mem_cons_self]
    exact ih fun p hp => hall p (List.mem_cons_of_mem _ hp)

/-- What a recovery makes of the links that a recovered engine has saved. -/
theorem Impl.AllRecovered.links {impl : Impl} (h : impl.AllRecovered config) (includeHistory : Bool) :
    (impl.buildPayload includeHistory).links.map (recoveredEntry config) =
      (listing impl.store.links.keys).filterMap fun link =>
        (impl.entryOf link).map LinkEntry.settled := by
  unfold Impl.buildPayload
  dsimp only
  rw [List.map_filterMap]
  refine List.filterMap_congr fun link _ => ?_
  rw [Option.map_map]
  refine Option.map_congr fun entry hentry => ?_
  obtain ⟨p, rfl⟩ := h link entry hentry
  exact recoveredEntry_again config config p includeHistory

theorem Impl.Reboots.settles (hsaved : Indexed saved) (h : Impl.Reboots config saved first)
    (h' : Impl.Reboots config first second) : first.Settles second := by
  obtain ⟨_, hfirst, -⟩ := h.recovers hsaved
  obtain ⟨includeHistory, hsecond, heq⟩ := h'.recovers hfirst.indexed
  have hrecovered := hfirst.allRecovered
  refine ⟨fun link => ?_, hsecond.globalGeneration, ?_, ?_, hsecond.epoch, hsecond.fences,
    fun publisher => ?_⟩
  · rw [hsecond.entries]
    refine Option.map_congr fun entry hentry => ?_
    obtain ⟨p, rfl⟩ := hrecovered link entry hentry
    exact recoveredEntry_again config config p includeHistory
  · rw [hsecond.globalStateGeneration]
    exact hrecovered.raised includeHistory _
  · rw [heq]
    exact recover_topologyGeneration ..
  · rw [hsecond.fencedBoots, hfirst.fencedBoots]
    unfold Impl.recordedBoots
    rw [hfirst.fences]

/-- What an engine that has settled saves is recovered as it is. -/
theorem Impl.Reboots.still (hsaved : Indexed saved) (h : Impl.Reboots config saved first)
    (h' : Impl.Reboots config first second) (h'' : Impl.Reboots config second third) :
    third = second := by
  obtain ⟨_, hfirst, -⟩ := h.recovers hsaved
  obtain ⟨h₁, hsecond, heq⟩ := h'.recovers hfirst.indexed
  obtain ⟨h₂, -, heq'⟩ := h''.recovers hsecond.indexed
  have hsettles := h.settles hsaved h'
  have hkeys : second.store.links.keys = first.store.links.keys := Finmap.keys_congr fun link => by
    have hentry := congrArg Option.isSome (hsettles.entries link)
    rwa [Option.isSome_map] at hentry
  -- A settled link is not settled any further.
  have hentries : (listing second.store.links.keys).filterMap (fun link =>
      (second.entryOf link).map LinkEntry.settled) =
      (listing first.store.links.keys).filterMap fun link =>
        (first.entryOf link).map LinkEntry.settled := by
    rw [hkeys]
    refine List.filterMap_congr fun link _ => ?_
    rw [hsettles.entries, Option.map_map]
    exact congrArg (fun f => (first.entryOf link).map f) (funext LinkEntry.settled_settled)
  have hlinks := (hsecond.allRecovered.links h₂).trans
    (hentries.trans (hfirst.allRecovered.links h₁).symm)
  have hraised : (second.buildPayload h₂).links.foldl raisedGlobalState
      second.globalStateGeneration =
      (first.buildPayload h₁).links.foldl raisedGlobalState first.globalStateGeneration := by
    rw [hsecond.allRecovered.raised, hfirst.allRecovered.raised, hsettles.globalStateGeneration]
  have hreset : (Impl.create config).resetTo (second.buildPayload h₂).uncounted =
      (Impl.create config).resetTo (first.buildPayload h₁).uncounted := by
    unfold Impl.resetTo JournalPayload.uncounted Impl.buildPayload
    dsimp only
    rw [hsettles.fences, hsettles.globalGeneration, hsettles.globalStateGeneration,
      hsettles.topologyGeneration, hsettles.epoch]
  exact heq'.trans ((recover_congr hreset hlinks hraised).trans heq.symm)

end Reboots

/-- However often processes end before anything is asked of them, the second recovery keeps the states
and the generations of the first, and from then on nothing changes. -/
theorem reboots_settle {config : EngineConfig} {saved first second later : Impl}
    (hsaved : saved.Reachable) (h : Impl.Reboots config saved first)
    (h' : Impl.Reboots config first second)
    (hlater : Relation.ReflTransGen (Impl.Reboots config) second later) :
    first.Settles second ∧ later = second := by
  refine ⟨h.settles hsaved.indexed h', ?_⟩
  induction hlater with
  | refl => rfl
  | tail _ hnext ih =>
    subst ih
    exact h.still hsaved.indexed h' hnext

namespace Sample

theorem rebooted_storable : (rebooted.1.buildPayload false).Storable {} {} := by
  rw [rebooted_eq]
  decide +kernel

/-- The load of the journal of the engine that has loaded the small run. -/
def settled : Impl × LoadOutcome := (Impl.create {}).load {} {} (rebooted.1.save {} {} none).2

theorem settled_eq : settled.1 =
    ((Impl.create {}).recover ((Impl.recover (.create {})
      (engine.buildPayload false).uncounted).impl.buildPayload false).uncounted).impl := by
  rw [← rebooted_eq]
  exact (load_plain {} rebooted_storable).1

theorem settled_storable : (settled.1.buildPayload false).Storable {} {} := by
  rw [settled_eq]
  decide +kernel

theorem reboots {impl : Impl} (h : (impl.buildPayload false).Storable {} {}) :
    Impl.Reboots {} impl ((Impl.create {}).load {} {} (impl.save {} {} none).2).1 :=
  ⟨{}, {}, {}, {}, none, save_plain impl, (load_plain {} h).2, rfl⟩

end Sample

/-- The small run settles. -/
theorem reboots_settle_sample : Sample.rebooted.1.Settles Sample.settled.1 ∧
    ((Impl.create {}).load {} {} (Sample.settled.1.save {} {} none).2).1 = Sample.settled.1 :=
  reboots_settle Sample.reachable (Sample.reboots Sample.engine_storable)
    (Sample.reboots Sample.rebooted_storable) (.single (Sample.reboots Sample.settled_storable))

end LinkState
