import LinkStateFabric.Engine.Indexed
import LinkStateFabric.Journal.Decoded
import LinkStateFabric.Journal.Refusals

/-!
# What a load leaves behind

* `Recovered`: the entry that recovery makes of a durable record. A retired record stays as it is;
  a live record takes the state that says whether it ever established one.
* `recover_entryOf`: the links of a recovered engine are those of the journal.
* `load_currentEvidence`: no evidence outlives a load. Only a publication brings evidence
  (`currentEvidence_apply`).
* `Indexed.apply`: every operation keeps the indexes; a load builds them again.
-/

namespace LinkState

open Sorting

/-! ## One link -/

/-- The entry that recovery makes of a durable record. -/
structure Recovered (config : EngineConfig) (record : LinkStateRecord) (entry : LinkEntry) : Prop where
  record_eq : entry.record.record = record.record
  binding : entry.record.binding = record.binding
  current : entry.current = []
  adminIntent : entry.record.adminIntent = record.adminIntent
  everEstablished : entry.record.everEstablished = record.everEstablished
  globalGeneration : entry.record.globalGeneration = record.globalGeneration
  history : entry.record.history.length ≤ config.maxHistoryPerLink
  retired : record.state = .retired → entry.record.state = .retired ∧
    entry.record.resultClass = record.resultClass ∧
    entry.record.stateGeneration = record.stateGeneration
  live : record.state ≠ .retired → entry.record.state = recoveredState record ∧
    entry.record.resultClass =
      if record.state ≠ recoveredState record ∧ record.everEstablished then .revalidationRequired
      else .authoritativeUnknown

/-- Recovery may enter the state of a live link, or the link is in it already. -/
theorem evaluateTransition_recovery {record : LinkStateRecord} (h : record.state ≠ .retired) :
    evaluateTransition record.state (recoveredState record) .recovery =
      if record.state = recoveredState record then .sameState else .legal := by
  refine evaluateTransition_of_mem h ?_
  unfold recoveredState
  split <;> decide

section Arms

variable (r : Recovery) {persisted : PersistedLink}

theorem recoverLink_retired (h : persisted.record.state = .retired) : r.recoverLink persisted =
    { r with impl := r.impl.adoptEntry (restoredEntry r.impl.config persisted) } := by
  unfold Recovery.recoverLink
  dsimp only
  rw [if_pos (show (restoredEntry r.impl.config persisted).record.state = .retired from h)]

/-- The entry of a live link that is in the state of its recovery already. -/
def keptEntry (config : EngineConfig) (persisted : PersistedLink) : LinkEntry :=
  { restoredEntry config persisted with
    record.resultClass := .authoritativeUnknown
    record.provenanceDigest := digestEvidenceSet [] }

theorem recoverLink_same (h : persisted.record.state ≠ .retired)
    (hs : persisted.record.state = recoveredState persisted.record) : r.recoverLink persisted =
      { r with
        impl := r.impl.adoptEntry (keptEntry r.impl.config persisted)
        leftUnknown := r.leftUnknown + 1 } := by
  have hlegality : evaluateTransition (restoredEntry r.impl.config persisted).record.state
      (recoveredState (restoredEntry r.impl.config persisted).record) .recovery = .sameState :=
    (evaluateTransition_recovery h).trans (if_pos hs)
  unfold Recovery.recoverLink
  dsimp only
  rw [if_neg (show (restoredEntry r.impl.config persisted).record.state ≠ .retired from h),
    hlegality]
  rfl

/-- The entry of a live link whose state recovery changes. -/
def changedEntry (config : EngineConfig) (persisted : PersistedLink) : LinkEntry :=
  { recoverChanged config (restoredEntry config persisted) with
    record.provenanceDigest := digestEvidenceSet [] }

/-- The state, its result class and its generation are set by hand; the history holds the change. -/
theorem changedEntry_eq (config : EngineConfig) (persisted : PersistedLink) :
    ∃ history, history.length ≤ config.maxHistoryPerLink ∧ changedEntry config persisted =
      { restoredEntry config persisted with
        record.state := recoveredState persisted.record
        record.resultClass := if recoveredState persisted.record = .revalidationRequired then
          .revalidationRequired else .authoritativeUnknown
        record.degradationCause := .none
        record.stateGeneration := .fromValue (persisted.record.stateGeneration.value + 1)
        record.provenanceDigest := digestEvidenceSet []
        record.history := history } := by
  unfold changedEntry recoverChanged
  dsimp only
  rw [Edit.pushHistory_eq]
  exact ⟨_, Edit.length_pushHistory _ _ (Nat.zero_le _), rfl⟩

theorem recoverLink_changed (h : persisted.record.state ≠ .retired)
    (hs : persisted.record.state ≠ recoveredState persisted.record) : r.recoverLink persisted =
      { impl := Impl.adoptEntry
          { r.impl with
            globalStateGeneration := max r.impl.globalStateGeneration
              (changedEntry r.impl.config persisted).record.stateGeneration }
          (changedEntry r.impl.config persisted)
        revalidated := r.revalidated + if persisted.record.everEstablished then 1 else 0
        leftUnknown := r.leftUnknown + if persisted.record.everEstablished then 0 else 1 } := by
  have hlegality : evaluateTransition (restoredEntry r.impl.config persisted).record.state
      (recoveredState (restoredEntry r.impl.config persisted).record) .recovery = .legal :=
    (evaluateTransition_recovery h).trans (if_neg hs)
  -- The source compares and assigns, which is to take the larger generation.
  have hmax : (if r.impl.globalStateGeneration <
        (recoverChanged r.impl.config (restoredEntry r.impl.config persisted)).record.stateGeneration
      then { r.impl with globalStateGeneration :=
        (recoverChanged r.impl.config (restoredEntry r.impl.config persisted)).record.stateGeneration }
      else r.impl) = { r.impl with
        globalStateGeneration := max r.impl.globalStateGeneration
          (changedEntry r.impl.config persisted).record.stateGeneration } := by
    have hchanged : (changedEntry r.impl.config persisted).record.stateGeneration =
      (recoverChanged r.impl.config (restoredEntry r.impl.config persisted)).record.stateGeneration :=
      rfl
    rw [hchanged]
    split
    · rename_i hlt; rw [max_eq_right hlt.le]
    · rename_i hlt; rw [max_eq_left (not_lt.mp hlt)]
  unfold Recovery.recoverLink
  dsimp only
  rw [if_neg (show (restoredEntry r.impl.config persisted).record.state ≠ .retired from h),
    hlegality]
  dsimp only
  rw [hmax, show recoveredState (restoredEntry r.impl.config persisted).record =
    recoveredState persisted.record from rfl, recoveredState]
  cases persisted.record.everEstablished <;> rfl

end Arms

/-- What recovering one link does: it adopts the recovered entry, raises the state generation of
the engine if that is behind, and counts the link. -/
theorem recoverLink_spec (r : Recovery) (persisted : PersistedLink) :
    ∃ entry gs, (r.recoverLink persisted).impl =
        Impl.adoptEntry { r.impl with globalStateGeneration := gs } entry ∧
      Recovered r.impl.config persisted.record entry ∧
      r.impl.globalStateGeneration ≤ gs ∧
      (persisted.record.stateGeneration ≤ r.impl.globalStateGeneration →
        entry.record.stateGeneration ≤ gs) ∧
      (r.recoverLink persisted).revalidated = r.revalidated +
        (if persisted.record.state ≠ .retired ∧ persisted.record.state ≠ .revalidationRequired ∧
          persisted.record.everEstablished then 1 else 0) ∧
      (r.recoverLink persisted).leftUnknown = r.leftUnknown +
        (if persisted.record.state ≠ .retired ∧ (persisted.record.state = .revalidationRequired ∨
          persisted.record.everEstablished = false) then 1 else 0) := by
  by_cases hretired : persisted.record.state = .retired
  · rw [recoverLink_retired r hretired]
    refine ⟨_, r.impl.globalStateGeneration, rfl, ⟨rfl, rfl, rfl, rfl, rfl, rfl, Nat.zero_le _,
      fun _ => ⟨hretired, rfl, rfl⟩, fun h => absurd hretired h⟩, le_rfl, id, ?_, ?_⟩ <;>
      simp [hretired]
  by_cases hsame : persisted.record.state = recoveredState persisted.record
  · rw [recoverLink_same r hretired hsame]
    refine ⟨_, r.impl.globalStateGeneration, rfl, ⟨rfl, rfl, rfl, rfl, rfl, rfl, Nat.zero_le _,
      fun h => absurd h hretired, fun _ => ⟨hsame, ?_⟩⟩, le_rfl, id, ?_, ?_⟩
    · rw [if_neg fun h => h.1 hsame]; rfl
    all_goals
      rw [recoveredState] at hsame
      cases he : persisted.record.everEstablished <;> simp [he] at hsame <;> simp [hsame]
  · rw [recoverLink_changed r hretired hsame]
    -- The state changes, so that the link has a generation of its own and a history entry.
    obtain ⟨history, hlength, heq⟩ := changedEntry_eq r.impl.config persisted
    refine ⟨_, _, rfl, ?_, le_max_left _ _, fun _ => le_max_right _ _, ?_, ?_⟩
    · rw [heq]
      refine ⟨rfl, rfl, rfl, rfl, rfl, rfl, hlength, fun h => absurd h hretired, fun _ => ⟨rfl, ?_⟩⟩
      dsimp only
      unfold recoveredState at hsame ⊢
      cases he : persisted.record.everEstablished <;> simp [he] at hsame <;> simp [hsame]
    all_goals
      rw [recoveredState] at hsame
      cases he : persisted.record.everEstablished <;> simp [he] at hsame <;> simp [hsame, hretired]

/-! ## All links -/

/-- An engine that has adopted the links of `done`, from an engine without links. -/
structure Adopted (start impl : Impl) (done : List PersistedLink) : Prop where
  config : impl.config = start.config
  store : impl.store = { start.store with
    links := impl.store.links
    byState := impl.store.byState
    byEndpoint := impl.store.byEndpoint }
  globalGeneration : impl.globalGeneration = start.globalGeneration
  epoch : impl.epoch = start.epoch
  globalState : start.globalStateGeneration ≤ impl.globalStateGeneration
  entries : ∀ link entry, impl.entryOf link = some entry → ∃ persisted ∈ done,
    persisted.record.binding.link = link ∧ Recovered start.config persisted.record entry ∧
    (persisted.record.stateGeneration ≤ start.globalStateGeneration →
      entry.record.stateGeneration ≤ impl.globalStateGeneration)
  bound : ∀ persisted ∈ done, ∃ entry, impl.entryOf persisted.record.binding.link = some entry
  byState : impl.store.byState.Represents fun state => impl.Has (LinkEntry.InState state)
  byEndpoint : impl.store.byEndpoint.Represents fun endpoint =>
    impl.Has (LinkEntry.AtEndpoint endpoint)

theorem has_putEntry_new {impl : Impl} {link : LinkId} (hnew : impl.entryOf link = none)
    (entry : LinkEntry) (R : LinkEntry → Prop) (l : LinkId) :
    (impl.putEntry link entry).Has R l ↔ (l = link ∧ R entry) ∨ impl.Has R l := by
  unfold Impl.Has
  rw [Impl.entryOf_putEntry]
  by_cases hl : l = link
  · subst hl; simp [hnew]
  · simp [hl]

theorem Adopted.recoverLink {start : Impl} {r : Recovery} {done : List PersistedLink}
    (h : Adopted start r.impl done) {persisted : PersistedLink}
    (hnew : persisted.record.binding.link ∉ done.map (·.record.binding.link)) :
    Adopted start (r.recoverLink persisted).impl (done ++ [persisted]) := by
  obtain ⟨entry, gs, heq, hrecovered, hle, hgs, -⟩ := recoverLink_spec r persisted
  -- Links of a journal are distinct, so that the link is not there yet.
  have hnone : r.impl.entryOf persisted.record.binding.link = none := by
    by_contra hne
    obtain ⟨e, he⟩ := Option.ne_none_iff_exists'.mp hne
    obtain ⟨p, hp, hlink, -⟩ := h.entries _ e he
    exact hnew (List.mem_map.mpr ⟨p, hp, hlink⟩)
  have hlink : entry.record.binding.link = persisted.record.binding.link := by
    rw [hrecovered.binding]
  have hentry (l : LinkId) : (r.recoverLink persisted).impl.entryOf l =
      if l = persisted.record.binding.link then some entry else r.impl.entryOf l := by
    rw [heq, Impl.adoptEntry, Impl.entryOf_putEntry, hlink]
    rfl
  have hhas (R : LinkEntry → Prop) (l : LinkId) : (r.recoverLink persisted).impl.Has R l ↔
      (l = persisted.record.binding.link ∧ R entry) ∨ r.impl.Has R l := by
    rw [← has_putEntry_new hnone entry R l]
    unfold Impl.Has
    rw [hentry, Impl.entryOf_putEntry]
  refine ⟨by rw [heq]; exact h.config, ?_, by rw [heq]; exact h.globalGeneration,
    by rw [heq]; exact h.epoch, by rw [heq]; exact h.globalState.trans hle, fun l e he => ?_,
    fun p hp => ?_, fun s l => ?_, fun ep l => ?_⟩
  · have hstore := h.store
    rw [heq]
    simp only [Impl.adoptEntry, Impl.putEntry, EngineStore.indexLink]
    rw [hstore]
  · rw [hentry] at he
    split at he
    · rename_i hl
      cases he
      refine ⟨persisted, by simp, hl.symm, by rw [← h.config]; exact hrecovered, fun hs => ?_⟩
      rw [heq]
      exact hgs (hs.trans h.globalState)
    · obtain ⟨p, hp, hl, hr, hs⟩ := h.entries l e he
      refine ⟨p, List.mem_append_left _ hp, hl, hr, fun hp => ?_⟩
      rw [heq]
      exact (hs hp).trans hle
  · rw [hentry]
    split
    · exact ⟨entry, rfl⟩
    · rename_i hl
      refine h.bound p ((List.mem_append.mp hp).resolve_right fun hp => hl ?_)
      rw [List.mem_singleton.mp hp]
  · refine Iff.trans ?_ ((hhas _ l).trans (or_congr_right (h.byState s l).symm)).symm
    rw [heq]
    refine Index.mem_add.trans (or_congr_left ?_)
    rw [hlink, and_comm, eq_comm (a := s)]
    exact Iff.rfl
  · refine Iff.trans ?_ ((hhas _ l).trans (or_congr_right (h.byEndpoint ep l).symm)).symm
    rw [heq]
    refine Index.mem_addAll.trans (or_congr_left ?_)
    rw [hlink, and_comm]
    exact Iff.rfl

theorem Adopted.foldl {start : Impl} (links done : List PersistedLink) {r : Recovery}
    (h : Adopted start r.impl done)
    (hdistinct : ((done ++ links).map (·.record.binding.link)).Nodup) :
    Adopted start (links.foldl Recovery.recoverLink r).impl (done ++ links) := by
  induction links generalizing r done with
  | nil => rw [List.append_nil]; exact h
  | cons p links ih =>
    have hnew : p.record.binding.link ∉ done.map (·.record.binding.link) := by
      rw [List.map_append, List.nodup_append] at hdistinct
      intro hmem
      exact hdistinct.2.2 _ hmem _ (List.mem_map.mpr ⟨p, by simp, rfl⟩) rfl
    have := ih (done ++ [p]) (h.recoverLink hnew) (by simpa using hdistinct)
    simpa using this

/-! ## The whole engine -/

theorem rebuildFences_eq (impl : Impl) (fences : List PublisherFence) :
    ∃ boots, impl.rebuildFences fences = { impl with store.fencedBoots := boots } := by
  unfold Impl.rebuildFences
  induction fences generalizing impl with
  | nil => exact ⟨_, rfl⟩
  | cons fence fences ih =>
    rw [List.foldl_cons]
    split
    · exact ih impl
    · obtain ⟨boots, heq⟩ := ih (impl.rememberFencedBoot fence.publisher fence.workerBoot)
      exact ⟨boots, heq⟩

/-- The engine before its links are recovered has none. -/
theorem adopted_start (impl : Impl) (payload : JournalPayload) :
    Adopted ((impl.resetTo payload).rebuildFences payload.fences)
      ((impl.resetTo payload).rebuildFences payload.fences) [] := by
  obtain ⟨boots, heq⟩ := rebuildFences_eq (impl.resetTo payload) payload.fences
  have hnone (l : LinkId) :
      ((impl.resetTo payload).rebuildFences payload.fences).entryOf l = none := by
    rw [heq]; exact Finmap.lookup_empty _
  refine ⟨rfl, rfl, rfl, rfl, le_rfl, fun l e he => ?_, fun p hp => (by cases hp),
    fun s l => ?_, fun ep l => ?_⟩
  · rw [hnone] at he; cases he
  · refine iff_of_false ?_ ?_
    · rw [heq]; simp [Impl.resetTo]
    · rintro ⟨e, he, -⟩
      rw [hnone] at he; cases he
  · refine iff_of_false ?_ ?_
    · rw [heq]; simp [Impl.resetTo]
    · rintro ⟨e, he, -⟩
      rw [hnone] at he; cases he

/-- The dependents are those of the links that are scanned. -/
theorem represents_rebuildDependents {impl : Impl} (h : impl.store.dependents = ∅) :
    impl.rebuildDependents.store.dependents.Represents fun backing =>
      impl.Has (LinkEntry.DependsOn backing) := by
  have hfold {file : Index LinkId LinkId → LinkId → Index LinkId LinkId}
      (hunbound : ∀ idx link, impl.entryOf link = none → file idx link = idx)
      (hbound : ∀ idx link entry, impl.entryOf link = some entry →
        file idx link = idx.addAll (entry.record.binding.backingLinks.map (·.link)) link)
      (links : List LinkId) (idx : Index LinkId LinkId) (b l : LinkId) :
      l ∈ (links.foldl file idx).bucket b ↔
        (l ∈ links ∧ impl.Has (LinkEntry.DependsOn b) l) ∨ l ∈ idx.bucket b := by
    -- By induction on the links to file: the index has what was in it and what they depend on.
    induction links generalizing idx with
    | nil => simp
    | cons link links ih =>
      rw [List.foldl_cons, ih, List.mem_cons]
      cases hentry : impl.entryOf link with
      | none =>
        rw [hunbound idx link hentry]
        have : ¬ impl.Has (LinkEntry.DependsOn b) link := by
          rintro ⟨e, he, -⟩
          rw [hentry] at he; cases he
        constructor
        · rintro (⟨hl, hh⟩ | hl)
          · exact .inl ⟨.inr hl, hh⟩
          · exact .inr hl
        · rintro (⟨rfl | hl, hh⟩ | hl)
          · exact absurd hh this
          · exact .inl ⟨hl, hh⟩
          · exact .inr hl
      | some entry =>
        have : impl.Has (LinkEntry.DependsOn b) link ↔
            b ∈ entry.record.binding.backingLinks.map (·.link) := by
          unfold Impl.Has
          simp only [hentry, Option.some.injEq, exists_eq_left', LinkEntry.DependsOn]
        rw [hbound idx link entry hentry, Index.mem_addAll, ← this]
        constructor
        · rintro (⟨hl, hh⟩ | ⟨hh, rfl⟩ | hl)
          · exact .inl ⟨.inr hl, hh⟩
          · exact .inl ⟨.inl rfl, hh⟩
          · exact .inr hl
        · rintro (⟨rfl | hl, hh⟩ | hl)
          · exact .inr (.inl ⟨hh, rfl⟩)
          · exact .inl ⟨hl, hh⟩
          · exact .inr (.inr hl)
  intro b l
  refine (hfold (fun idx link hentry => by rw [hentry]) (fun idx link entry hentry => by rw [hentry])
    (listing impl.store.links.keys) impl.store.dependents b l).trans ?_
  rw [h]
  simp only [mem_listing, Finmap.mem_keys, Index.bucket_empty, Finset.notMem_empty, or_false,
    and_iff_right_iff_imp]
  rintro ⟨e, he, -⟩
  exact Finmap.mem_of_lookup_eq_some he

/-- The links of a recovered engine are those of the journal. -/
theorem adopted_recover (impl : Impl) {payload : JournalPayload} (h : payload.Decoded) :
    ∃ adopted, Adopted ((impl.resetTo payload).rebuildFences payload.fences) adopted payload.links ∧
      (impl.recover payload).impl = adopted.rebuildDependents := by
  refine ⟨_, ?_, rfl⟩
  have := (adopted_start impl payload).foldl (r :=
    { impl := (impl.resetTo payload).rebuildFences payload.fences }) payload.links [] h.distinct
  exact this

/-- Every entry of a recovered engine is made of a durable record of the journal. -/
theorem recover_entryOf (impl : Impl) {payload : JournalPayload} (h : payload.Decoded)
    {link : LinkId} {entry : LinkEntry}
    (he : (impl.recover payload).impl.entryOf link = some entry) :
    ∃ persisted ∈ payload.links, persisted.record.binding.link = link ∧
      Recovered impl.config persisted.record entry := by
  obtain ⟨adopted, hadopted, heq⟩ := adopted_recover impl h
  obtain ⟨boots, hstart⟩ := rebuildFences_eq (impl.resetTo payload) payload.fences
  rw [heq] at he
  obtain ⟨persisted, hp, hl, hr, -⟩ := hadopted.entries link entry he
  rw [hstart] at hr
  exact ⟨persisted, hp, hl, hr⟩

/-- A recovered engine has no current evidence. -/
theorem recover_currentEvidence (impl : Impl) {payload : JournalPayload} (h : payload.Decoded)
    (link : LinkId) : (impl.recover payload).impl.currentEvidence link = [] := by
  unfold Impl.currentEvidence
  cases he : (impl.recover payload).impl.entryOf link with
  | none => rfl
  | some entry =>
    obtain ⟨_, -, -, hr⟩ := recover_entryOf impl h he
    exact hr.current

theorem indexed_recover (impl : Impl) {payload : JournalPayload} (h : payload.Decoded) :
    Indexed (impl.recover payload).impl := by
  obtain ⟨adopted, hadopted, heq⟩ := adopted_recover impl h
  obtain ⟨boots, hstart⟩ := rebuildFences_eq (impl.resetTo payload) payload.fences
  have hstore := hadopted.store
  rw [hstart] at hstore
  have hempty {link : LinkId} {entry : LinkEntry} (he : adopted.entryOf link = some entry) :
      entry.current = [] := by
    obtain ⟨p, -, -, hr, -⟩ := hadopted.entries link entry he
    exact hr.current
  rw [heq]
  refine ⟨fun l e he => ?_, hadopted.byState, hadopted.byEndpoint,
    represents_rebuildDependents (by rw [hstore]; rfl), fun o k => iff_of_false ?_ ?_,
    fun p l hl => ?_⟩
  · obtain ⟨p, -, hl, hr, -⟩ := hadopted.entries l e he
    refine ⟨by rw [hr.binding, hl], ?_, ?_, ?_, ?_⟩ <;> rw [hr.current]
    · simp
    · exact .nil
    · exact List.nodup_nil
    · exact Nat.zero_le _
  · show ¬ adopted.store.observations.lookup o = some k
    rw [hstore]
    simp [Impl.resetTo]
  · rintro ⟨l, e, he, r, hr, -⟩
    rw [hempty he] at hr; cases hr
  · obtain ⟨e, he, r, hr, -⟩ := hl
    rw [hempty he] at hr; cases hr

/-- What is read is the file, and no larger than the configuration admits. -/
theorem readJournalFile_ok {config : PersistenceConfig} {steps : ReadSteps} {file : Option Bytes}
    {bytes : Bytes} (h : readJournalFile config steps file = .ok bytes) :
    file = some bytes ∧ bytes.length ≤ maxJournalBytes config := by
  unfold readJournalFile at h
  split at h
  · cases h
  split at h
  · cases h
  split at h
  · cases h
  rename_i hsize
  split at h
  · cases h
  split at h
  · cases h
  · cases h
    exact ⟨rfl, not_lt.mp hsize⟩

theorem readJournalFile_fails {config : PersistenceConfig} {steps : ReadSteps} {file : Option Bytes}
    {refusal : Refusal} (h : readJournalFile config steps file = .error refusal) :
    refusal.1 ≠ .committed := by
  unfold readJournalFile at h
  split at h
  · cases h
    exact nofun
  split at h
  · cases h
    exact nofun
  split at h
  · cases h
    exact nofun
  split at h
  · cases h
    exact nofun
  split at h <;> cases h
  exact nofun

/-- A load is refused and leaves the engine as it is, or it recovers what the file decodes to. -/
theorem load_cases (impl : Impl) (config : PersistenceConfig) (steps : ReadSteps)
    (file : Option Bytes) :
    (∃ refusal : Refusal, refusal.1 ≠ .committed ∧ impl.load config steps file =
      (impl, { outcome := .make refusal.1 refusal.2 })) ∨
    ∃ bytes payload summary, file = some bytes ∧
      decodeJournal bytes config = .ok (payload, summary) ∧
      (impl.load config steps file).1 = (impl.recover payload).impl ∧
      (impl.load config steps file).2.outcome.code = .committed ∧
      (impl.load config steps file).2.recordsRevalidated = (impl.recover payload).revalidated ∧
      (impl.load config steps file).2.recordsLeftUnknown = (impl.recover payload).leftUnknown := by
  unfold Impl.load
  cases hread : readJournalFile config steps file with
  | error refusal => exact .inl ⟨refusal, readJournalFile_fails hread, rfl⟩
  | ok bytes =>
    cases hdecode : decodeJournal bytes config with
    | error refusal =>
      refine .inl ⟨refusal, decodeJournal_fails hdecode, ?_⟩
      dsimp only
      rw [hdecode]
    | ok result =>
      refine .inr ⟨bytes, result.1, result.2, (readJournalFile_ok hread).1, hdecode, ?_⟩
      dsimp only
      rw [hdecode]
      exact ⟨rfl, rfl, rfl, rfl⟩

theorem maxJournalBytes_le (config : PersistenceConfig) :
    maxJournalBytes config ≤ maxJournalBytesCap := by
  unfold maxJournalBytes
  dsimp only
  split
  · exact le_rfl
  · exact min_le_right _ _

/-- A file that is larger than a journal may be is not loaded. -/
theorem load_oversized (impl : Impl) (config : PersistenceConfig) (steps : ReadSteps) {bytes : Bytes}
    (h : maxJournalBytesCap < bytes.length) : ∃ refusal : Refusal, refusal.1 ≠ .committed ∧
      impl.load config steps (some bytes) = (impl, { outcome := .make refusal.1 refusal.2 }) := by
  unfold Impl.load
  cases hread : readJournalFile config steps (some bytes) with
  | error refusal => exact ⟨refusal, readJournalFile_fails hread, rfl⟩
  | ok bytes' =>
    obtain ⟨heq, hsize⟩ := readJournalFile_ok hread
    cases heq
    exact absurd h (not_lt.mpr (hsize.trans (maxJournalBytes_le config)))

/-- A load leaves the engine alone, or leaves no evidence. -/
theorem load_currentEvidence (impl : Impl) (config : PersistenceConfig) (steps : ReadSteps)
    (file : Option Bytes) : (impl.load config steps file).1 = impl ∨
      ∀ link, (impl.load config steps file).1.currentEvidence link = [] := by
  rcases load_cases impl config steps file with ⟨_, -, heq⟩ | ⟨_, payload, _, -, hdecode, heq, -⟩
  · exact .inl (by rw [heq])
  · rw [heq]
    exact .inr (recover_currentEvidence impl (decodeJournal_decoded hdecode))

/-- An operation that does not publish brings no evidence. -/
theorem evidence_subset_of_ne {impl : Impl} {op : Op}
    (h : ∀ request, op ≠ .publishEvidence request) (link : LinkId) :
    (impl.apply op).currentEvidence link ⊆ impl.currentEvidence link := by
  cases op with
  | publishEvidence request => exact absurd rfl (h request)
  | load config steps file =>
    show (impl.load config steps file).1.currentEvidence link ⊆ impl.currentEvidence link
    rcases load_currentEvidence impl config steps file with heq | hnil
    · rw [heq]
      exact List.Subset.refl _
    · rw [hnil]
      exact List.nil_subset _
  | _ => exact (apply_steps impl rfl).evidence_subset (by simp [Op.kinds]) link

/-- Current evidence was current before, or is what the operation published. -/
theorem currentEvidence_apply {impl : Impl} (op : Op) {link : LinkId} {record : EvidenceRecord}
    (h : record ∈ (impl.apply op).currentEvidence link) :
    record ∈ impl.currentEvidence link ∨
    ∃ request, op = .publishEvidence request ∧
      ∃ t : Edit, record = t.storedRecord request.observation := by
  cases op with
  | publishEvidence request =>
    rcases publishEvidence_currentEvidence impl request with hsub | ⟨_, _, -, hevidence⟩
    · exact .inl (hsub link h)
    rcases hevidence link record h with ⟨hmem, -⟩ | ⟨-, t, heq⟩
    · exact .inl hmem
    · exact .inr ⟨request, rfl, t, heq⟩
  | _ => exact .inl (evidence_subset_of_ne (fun _ heq => by cases heq) link h)

theorem Indexed.apply {impl : Impl} (h : Indexed impl) (op : Op) : Indexed (impl.apply op) := by
  cases hload : op.isLoad with
  | false => exact h.steps (apply_steps impl hload)
  | true =>
    cases op with
    | load config steps file =>
      show Indexed (impl.load config steps file).1
      rcases load_cases impl config steps file with ⟨_, -, heq⟩ | ⟨_, payload, _, -, hdecode, heq, -⟩
      · rw [heq]; exact h
      · rw [heq]; exact indexed_recover impl (decodeJournal_decoded hdecode)
    | _ => cases hload

theorem Impl.Reachable.indexed {impl : Impl} (h : impl.Reachable) : Indexed impl := by
  refine h.invariant ?_ fun _ op hindexed _ => hindexed.apply op
  rintro _ ⟨config, rfl⟩
  exact indexed_create config

end LinkState
