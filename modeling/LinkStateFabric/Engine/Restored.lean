import LinkStateFabric.Engine.Recovery
import LinkStateFabric.Journal.Sizes

/-!
# An engine that loads a journal

* `recoveredEntry`: the entry that recovery makes of a link, and `recovers_recover`: these are the
  entries of a recovered engine.
* `JournalPayload.Storable`: when the journal of a payload can be loaded. It is loaded exactly then
  (`load_encoded`).
* `Restores`: what a load of the journal of an engine makes of another engine. A load of such a
  journal restores it or is refused (`load_saved`).
-/

namespace LinkState

open Sorting

/-! ## Recovered entries -/

/-- The entry that recovery makes of a link. -/
def recoveredEntry (config : EngineConfig) (persisted : PersistedLink) : LinkEntry :=
  if persisted.record.state = .retired then restoredEntry config persisted
  else if persisted.record.state = recoveredState persisted.record then keptEntry config persisted
  else changedEntry config persisted

/-- The state generation of the engine once a link is recovered. -/
def raisedGlobalState (generation : LinkStateGeneration) (persisted : PersistedLink) :
    LinkStateGeneration :=
  if persisted.record.state = .retired ∨
      persisted.record.state = recoveredState persisted.record then generation
  else max generation (.fromValue (persisted.record.stateGeneration.value + 1))

theorem recoverLink_impl (r : Recovery) (persisted : PersistedLink) :
    (r.recoverLink persisted).impl = Impl.adoptEntry
      { r.impl with
        globalStateGeneration := raisedGlobalState r.impl.globalStateGeneration persisted }
      (recoveredEntry r.impl.config persisted) := by
  unfold recoveredEntry raisedGlobalState
  by_cases hretired : persisted.record.state = .retired
  · rw [recoverLink_retired r hretired, if_pos hretired, if_pos (.inl hretired)]
  by_cases hsame : persisted.record.state = recoveredState persisted.record
  · rw [recoverLink_same r hretired hsame, if_neg hretired, if_pos hsame, if_pos (.inr hsame)]
  · obtain ⟨_, -, heq⟩ := changedEntry_eq r.impl.config persisted
    rw [recoverLink_changed r hretired hsame, if_neg hretired, if_neg hsame,
      if_neg (not_or.mpr ⟨hretired, hsame⟩)]
    rw [heq]

theorem recoveredEntry_binding (config : EngineConfig) (persisted : PersistedLink) :
    (recoveredEntry config persisted).record.binding = persisted.record.binding := by
  unfold recoveredEntry
  obtain ⟨_, -, heq⟩ := changedEntry_eq config persisted
  split
  · rfl
  split
  · rfl
  · rw [heq]
    rfl

theorem recoverLink_entryOf (r : Recovery) (persisted : PersistedLink) (link : LinkId) :
    (r.recoverLink persisted).impl.entryOf link =
      if link = persisted.record.binding.link then some (recoveredEntry r.impl.config persisted)
      else r.impl.entryOf link := by
  rw [recoverLink_impl, Impl.adoptEntry, Impl.entryOf_putEntry, recoveredEntry_binding]
  rfl

theorem recovered_recoveredEntry (config : EngineConfig) (persisted : PersistedLink) :
    Recovered config persisted.record (recoveredEntry config persisted) := by
  obtain ⟨entry, gs, himpl, hrecovered, -⟩ :=
    recoverLink_spec { impl := Impl.create config } persisted
  have hentry := recoverLink_entryOf { impl := Impl.create config } persisted entry.record.binding.link
  have hlink : entry.record.binding.link = persisted.record.binding.link := by
    rw [hrecovered.binding]
  rw [himpl, Impl.adoptEntry, Impl.entryOf_putEntry_self, if_pos hlink] at hentry
  obtain rfl := Option.some.inj hentry
  exact hrecovered

/-- What the loop over the links of a journal makes of an engine. -/
structure Recovers (start : Impl) (links : List PersistedLink) (impl : Impl) : Prop where
  config : impl.config = start.config
  globalGeneration : impl.globalGeneration = start.globalGeneration
  epoch : impl.epoch = start.epoch
  publishers : impl.store.publishers = start.store.publishers
  globalStateGeneration : impl.globalStateGeneration =
    links.foldl raisedGlobalState start.globalStateGeneration
  entries : ∀ persisted ∈ links, impl.entryOf persisted.record.binding.link =
    some (recoveredEntry start.config persisted)
  others : ∀ link ∉ links.map (·.record.binding.link), impl.entryOf link = start.entryOf link

theorem recovers_foldl (links : List PersistedLink) (r : Recovery)
    (hdistinct : (links.map (·.record.binding.link)).Nodup) :
    Recovers r.impl links (links.foldl Recovery.recoverLink r).impl := by
  induction links generalizing r with
  | nil => exact ⟨rfl, rfl, rfl, rfl, rfl, fun _ h => (by cases h), fun _ _ => rfl⟩
  | cons p links ih =>
    obtain ⟨hnew, hdistinct⟩ := List.nodup_cons.mp hdistinct
    have h := ih (r.recoverLink p) hdistinct
    have himpl := recoverLink_impl r p
    have hconfig : (r.recoverLink p).impl.config = r.impl.config := by
      rw [himpl]
      rfl
    refine ⟨h.config.trans hconfig, h.globalGeneration.trans ?_, h.epoch.trans ?_,
      h.publishers.trans ?_, h.globalStateGeneration.trans ?_, fun persisted hp => ?_,
      fun link hlink => ?_⟩
    · rw [himpl]
      rfl
    · rw [himpl]
      rfl
    · rw [himpl]
      rfl
    · rw [himpl]
      rfl
    · rcases List.mem_cons.mp hp with rfl | hp
      · rw [List.foldl_cons, h.others _ hnew, recoverLink_entryOf, if_pos rfl]
      · rw [List.foldl_cons, h.entries persisted hp, hconfig]
    · rw [List.map_cons, List.mem_cons, not_or] at hlink
      rw [List.foldl_cons, h.others link hlink.2, recoverLink_entryOf, if_neg hlink.1]

theorem recovers_recover (impl : Impl) {payload : JournalPayload} (h : payload.Decoded) :
    Recovers (impl.resetTo payload) payload.links (impl.recover payload).impl := by
  obtain ⟨boots, hstart⟩ := rebuildFences_eq (impl.resetTo payload) payload.fences
  have hloop := recovers_foldl payload.links
    { impl := (impl.resetTo payload).rebuildFences payload.fences } h.distinct
  rw [hstart] at hloop
  unfold Impl.recover
  rw [hstart]
  exact ⟨hloop.config, hloop.globalGeneration, hloop.epoch, hloop.publishers,
    hloop.globalStateGeneration, hloop.entries, hloop.others⟩

theorem entryOf_recover {impl : Impl} {payload : JournalPayload} (h : payload.Decoded)
    {link : LinkId} {entry : LinkEntry}
    (hentry : (impl.recover payload).impl.entryOf link = some entry) :
    ∃ persisted ∈ payload.links, entry = recoveredEntry impl.config persisted := by
  obtain ⟨persisted, hmem, rfl, -⟩ := recover_entryOf impl h hentry
  rw [(recovers_recover impl h).entries persisted hmem] at hentry
  exact ⟨persisted, hmem, (Option.some.inj hentry).symm⟩

/-! ## Fenced boots -/

/-- The boots of a publisher that fences name, in the order of the fences. -/
def bootsOf (publisher : PublisherId) (fences : List PublisherFence) : List WorkerBootId :=
  (fences.filter (·.publisher = publisher)).map (·.workerBoot)

/-- The boots of a publisher that the retained fence records name, oldest first. -/
def Impl.recordedBoots (impl : Impl) (publisher : PublisherId) : List WorkerBootId :=
  bootsOf publisher impl.store.fences

theorem fencedBoots_rememberFencedBoot (impl : Impl) (publisher p : PublisherId)
    (boot : WorkerBootId) : (impl.rememberFencedBoot publisher boot).fencedBoots p =
      if p = publisher then
        rememberBoot impl.config.fenceRetentionPerPublisher (impl.fencedBoots p) boot
      else impl.fencedBoots p := by
  unfold Impl.rememberFencedBoot Impl.fencedBoots
  dsimp only
  split
  · rename_i hp
    rw [hp, Finmap.lookup_insert]
    rfl
  · rename_i hp
    rw [Finmap.lookup_insert_of_ne _ hp]

/-- The registry of a publisher is rebuilt from the fences that name it. -/
theorem rebuildFences_fencedBoots (impl : Impl) (publisher : PublisherId)
    {fences : List PublisherFence} (h : ∀ fence ∈ fences, fence.Decoded) :
    (impl.rebuildFences fences).fencedBoots publisher = (bootsOf publisher fences).foldl
      (rememberBoot impl.config.fenceRetentionPerPublisher) (impl.fencedBoots publisher) := by
  unfold Impl.rebuildFences
  induction fences generalizing impl with
  | nil => rfl
  | cons fence fences ih =>
    have hfence := h fence List.mem_cons_self
    rw [List.foldl_cons, hfence.publisher, hfence.workerBoot, if_neg (by decide),
      ih _ fun f hf => h f (List.mem_cons_of_mem _ hf), fencedBoots_rememberFencedBoot]
    unfold bootsOf
    by_cases hp : publisher = fence.publisher
    · subst hp
      rw [if_pos rfl, List.filter_cons_of_pos (by simp), List.map_cons, List.foldl_cons]
      rfl
    · rw [if_neg hp, List.filter_cons_of_neg (by simpa using Ne.symm hp)]
      rfl

/-- The loop over the links of a journal leaves the fences as they are. -/
theorem foldl_recoverLink_fences (links : List PersistedLink) (r : Recovery) :
    (links.foldl Recovery.recoverLink r).impl.store.fences = r.impl.store.fences ∧
      (links.foldl Recovery.recoverLink r).impl.store.fencedBoots = r.impl.store.fencedBoots := by
  induction links generalizing r with
  | nil => exact ⟨rfl, rfl⟩
  | cons persisted links ih =>
    obtain ⟨hfences, hboots⟩ := ih (r.recoverLink persisted)
    rw [recoverLink_impl] at hfences hboots
    exact ⟨hfences, hboots⟩

theorem recover_fences (impl : Impl) {payload : JournalPayload} (h : payload.Decoded) :
    (impl.recover payload).impl.store.fences = payload.fences ∧ ∀ publisher,
      (impl.recover payload).impl.fencedBoots publisher = (bootsOf publisher payload.fences).foldl
        (rememberBoot impl.config.fenceRetentionPerPublisher) [] := by
  obtain ⟨hfences, hboots⟩ := foldl_recoverLink_fences payload.links
    { impl := (impl.resetTo payload).rebuildFences payload.fences }
  obtain ⟨boots, hstart⟩ := rebuildFences_eq (impl.resetTo payload) payload.fences
  refine ⟨hfences.trans (by rw [hstart]; rfl), fun publisher => ?_⟩
  have hrebuilt := rebuildFences_fencedBoots (impl.resetTo payload) publisher h.fences.2
  refine Eq.trans ?_ hrebuilt
  unfold Impl.fencedBoots
  exact congrArg (fun boots => (Finmap.lookup publisher boots).getD []) hboots

/-! ## Payloads -/

/-- The payload that a load accepts. -/
def acceptedPayload (config : PersistenceConfig) (steps : ReadSteps) (file : Option Bytes) :
    Option JournalPayload :=
  match readJournalFile config steps file with
  | .error _ => none
  | .ok bytes =>
    match decodeJournal bytes config with
    | .error _ => none
    | .ok (payload, _) => some payload

theorem load_accepted (impl : Impl) (config : PersistenceConfig) (steps : ReadSteps)
    (file : Option Bytes) : (impl.load config steps file).1 =
      (acceptedPayload config steps file).elim impl fun payload => (impl.recover payload).impl := by
  unfold Impl.load acceptedPayload
  cases readJournalFile config steps file with
  | error refusal => rfl
  | ok bytes =>
    cases hdecode : decodeJournal bytes config with
    | error refusal =>
      dsimp only
      rw [hdecode]
      rfl
    | ok result =>
      dsimp only
      rw [hdecode]
      rfl

theorem acceptedPayload_decoded {config : PersistenceConfig} {steps : ReadSteps}
    {file : Option Bytes} {payload : JournalPayload}
    (h : acceptedPayload config steps file = some payload) : payload.Decoded := by
  unfold acceptedPayload at h
  split at h
  · cases h
  split at h
  · cases h
  · rename_i hdecode
    cases h
    exact decodeJournal_decoded hdecode

/-! ## Journals of a payload -/

/-- The journal of a payload that is written under `config` can be loaded under `config'`. -/
structure JournalPayload.Storable (payload : JournalPayload) (config config' : PersistenceConfig) :
    Prop where
  valid : config'.Valid
  size : payload.size config.includeHistory ≤ maxJournalBytes config'
  records : payload.links.length ≤ config'.maxRecords
  loadable : payload.Loadable

instance (payload : JournalPayload) (config config' : PersistenceConfig) :
    Decidable (payload.Storable config config') :=
  decidable_of_iff (config'.Valid ∧ payload.size config.includeHistory ≤ maxJournalBytes config' ∧
    payload.links.length ≤ config'.maxRecords ∧ payload.Loadable)
    ⟨fun ⟨h₁, h₂, h₃, h₄⟩ => ⟨h₁, h₂, h₃, h₄⟩, fun h => ⟨h.1, h.2, h.3, h.4⟩⟩

/-- The counters that a journal leaves out do not matter. -/
theorem JournalPayload.Storable.uncounted {payload : JournalPayload}
    {config config' : PersistenceConfig} (h : payload.Storable config config') :
    payload.uncounted.Storable config config' :=
  ⟨h.valid, h.size, h.records, h.loadable.links, h.loadable.distinct, h.loadable.fences⟩

section Encoded

variable {payload : JournalPayload} {config config' : PersistenceConfig} {steps : ReadSteps}

theorem readJournalFile_encoded (hopens : steps.opens = true) (hreads : steps.reads = true) :
    (config'.Valid ∧ payload.size config.includeHistory ≤ maxJournalBytes config' →
      readJournalFile config' steps (some (encodeJournal payload config).1) =
        .ok (encodeJournal payload config).1) ∧
    (¬ (config'.Valid ∧ payload.size config.includeHistory ≤ maxJournalBytes config') →
      ∃ refusal, readJournalFile config' steps (some (encodeJournal payload config).1) =
        .error refusal) := by
  unfold readJournalFile
  rw [hopens, hreads]
  simp only [length_encodeJournal, Bool.not_true, Bool.false_eq_true, and_false, if_false]
  by_cases hvalid : config'.validate = []
  · rw [if_neg (not_not.mpr hvalid)]
    split
    · rename_i hlarge
      exact ⟨fun h => absurd h.2 (not_le.mpr hlarge), fun _ => ⟨_, rfl⟩⟩
    · rename_i hsize
      exact ⟨fun _ => rfl, fun h => absurd ⟨hvalid, not_lt.mp hsize⟩ h⟩
  · rw [if_pos hvalid]
    exact ⟨fun h => absurd h.1 hvalid, fun _ => ⟨_, rfl⟩⟩

theorem acceptedPayload_encoded (h : payload.Storable config config')
    (hopens : steps.opens = true) (hreads : steps.reads = true)
    (hhistory : config.includeHistory = true ∨ ∀ link ∈ payload.links, link.record.history = []) :
    acceptedPayload config' steps (some (encodeJournal payload config).1) =
      some payload.uncounted := by
  obtain ⟨hread, -⟩ := @readJournalFile_encoded payload config config' steps hopens hreads
  obtain ⟨hloads, -⟩ := decodeJournal_encodeJournal
    (by rw [length_encodeJournal]; exact h.size.trans (maxJournalBytes_le config')) hhistory config'
  obtain ⟨summary, hdecode⟩ := hloads ⟨h.valid, h.records, h.loadable⟩
  unfold acceptedPayload
  rw [hread ⟨h.valid, h.size⟩]
  dsimp only
  rw [hdecode]

/-- The journal of a payload is recovered exactly where it can be loaded. -/
theorem load_encoded (impl : Impl) (hopens : steps.opens = true) (hreads : steps.reads = true)
    (hhistory : config.includeHistory = true ∨ ∀ link ∈ payload.links, link.record.history = []) :
    (payload.Storable config config' →
      (impl.load config' steps (some (encodeJournal payload config).1)).1 =
        (impl.recover payload.uncounted).impl ∧
      (impl.load config' steps (some (encodeJournal payload config).1)).2.outcome.code =
        .committed) ∧
    (¬ payload.Storable config config' → ∃ refusal : Refusal, refusal.1 ≠ .committed ∧
      impl.load config' steps (some (encodeJournal payload config).1) =
        (impl, { outcome := .make refusal.1 refusal.2 })) := by
  obtain ⟨hread, hunread⟩ := @readJournalFile_encoded payload config config' steps hopens hreads
  unfold Impl.load
  -- A journal that is too large for the configuration is refused before it is decoded.
  by_cases hfits : config'.Valid ∧ payload.size config.includeHistory ≤ maxJournalBytes config'
  · rw [hread hfits]
    dsimp only
    obtain ⟨hloads, hfails⟩ := decodeJournal_encodeJournal
      (by rw [length_encodeJournal]; exact hfits.2.trans (maxJournalBytes_le config'))
      hhistory config'
    constructor
    · intro h
      obtain ⟨summary, hdecode⟩ := hloads ⟨h.valid, h.records, h.loadable⟩
      rw [hdecode]
      exact ⟨rfl, rfl⟩
    · intro h
      obtain ⟨refusal, hdecode⟩ := hfails fun ⟨hvalid, hrecords, hloadable⟩ =>
        h ⟨hvalid, hfits.2, hrecords, hloadable⟩
      rw [hdecode]
      exact ⟨refusal, decodeJournal_fails hdecode, rfl⟩
  · obtain ⟨refusal, hrefused⟩ := hunread hfits
    rw [hrefused]
    exact ⟨fun h => absurd ⟨h.valid, h.size⟩ hfits,
      fun _ => ⟨refusal, readJournalFile_fails hrefused, rfl⟩⟩

end Encoded

/-! ## Journals of an engine -/

section Saved

variable {saved impl : Impl} {includeHistory : Bool}

theorem mem_buildPayload {persisted : PersistedLink} :
    persisted ∈ (saved.buildPayload includeHistory).links ↔
      ∃ link entry, saved.entryOf link = some entry ∧ persisted = persistEntry includeHistory entry := by
  unfold Impl.buildPayload
  simp only [List.mem_filterMap, mem_listing, Finmap.mem_keys, Option.map_eq_some_iff]
  constructor
  · rintro ⟨link, -, entry, hentry, rfl⟩
    exact ⟨link, entry, hentry, rfl⟩
  · rintro ⟨link, entry, hentry, rfl⟩
    exact ⟨link, Finmap.mem_of_lookup_eq_some hentry, entry, hentry, rfl⟩

/-- What `impl` becomes by a load of the journal of `saved`. -/
structure Restores (saved impl impl' : Impl) (includeHistory : Bool) : Prop where
  decoded : (saved.buildPayload includeHistory).uncounted.Decoded
  indexed : Indexed impl'
  config : impl'.config = impl.config
  globalGeneration : impl'.globalGeneration = saved.globalGeneration
  epoch : impl'.epoch = saved.epoch
  publishers : impl'.store.publishers = ∅
  globalStateGeneration : impl'.globalStateGeneration =
    (saved.buildPayload includeHistory).links.foldl raisedGlobalState saved.globalStateGeneration
  entries : ∀ link, impl'.entryOf link = (saved.entryOf link).map fun entry =>
    recoveredEntry impl.config (persistEntry includeHistory entry)
  fences : impl'.store.fences = saved.store.fences
  fencedBoots : ∀ publisher, impl'.fencedBoots publisher =
    (saved.recordedBoots publisher).foldl
      (rememberBoot impl.config.fenceRetentionPerPublisher) []

theorem persistEntry_binding (includeHistory : Bool) (entry : LinkEntry) :
    (persistEntry includeHistory entry).record.binding = entry.record.binding := by
  unfold persistEntry
  cases includeHistory <;> rfl

theorem persistEntry_record (includeHistory : Bool) (entry : LinkEntry) : ∃ history,
    (persistEntry includeHistory entry).record = { entry.record with history } := by
  unfold persistEntry
  cases includeHistory <;> exact ⟨_, rfl⟩

/-- The entries of a restored engine are recovered from those of the saved engine. -/
theorem Restores.recovered {impl' : Impl} (h : Restores saved impl impl' includeHistory)
    {link : LinkId} {entry' : LinkEntry} (hentry' : impl'.entryOf link = some entry') :
    ∃ entry history, saved.entryOf link = some entry ∧
      Recovered impl.config { entry.record with history } entry' := by
  rw [h.entries, Option.map_eq_some_iff] at hentry'
  obtain ⟨entry, hentry, rfl⟩ := hentry'
  obtain ⟨history, hrecord⟩ := persistEntry_record includeHistory entry
  refine ⟨entry, history, hentry, ?_⟩
  rw [← hrecord]
  exact recovered_recoveredEntry impl.config (persistEntry includeHistory entry)

theorem restores_recover (hindexed : Indexed saved) (impl : Impl) (includeHistory : Bool)
    (h : (saved.buildPayload includeHistory).uncounted.Decoded) :
    Restores saved impl (impl.recover (saved.buildPayload includeHistory).uncounted).impl
      includeHistory := by
  have hrecovers := recovers_recover impl h
  obtain ⟨hfences, hboots⟩ := recover_fences impl h
  refine ⟨h, indexed_recover impl h, hrecovers.config, hrecovers.globalGeneration, hrecovers.epoch,
    hrecovers.publishers, hrecovers.globalStateGeneration, fun link => ?_, hfences, hboots⟩
  cases hentry : saved.entryOf link with
  | some entry =>
    have hlink : (persistEntry includeHistory entry).record.binding.link = link := by
      rw [persistEntry_binding, (hindexed.slotted link entry hentry).link_eq]
    have hrecovered := hrecovers.entries _ (mem_buildPayload.mpr ⟨link, entry, hentry, rfl⟩)
    rwa [hlink] at hrecovered
  | none =>
    refine (hrecovers.others link fun hmem => ?_).trans (Finmap.lookup_empty link)
    obtain ⟨persisted, hp, hlink⟩ := List.mem_map.mp hmem
    obtain ⟨l, entry, hl, rfl⟩ := mem_buildPayload.mp hp
    rw [persistEntry_binding, (hindexed.slotted l entry hl).link_eq] at hlink
    rw [hlink, hentry] at hl
    cases hl

/-- The histories of a payload are written, or there are none. -/
theorem histories_buildPayload (saved : Impl) (config : PersistenceConfig) :
    config.includeHistory = true ∨
      ∀ link ∈ (saved.buildPayload config.includeHistory).links, link.record.history = [] := by
  cases hhistory : config.includeHistory with
  | true => exact .inl rfl
  | false =>
    refine .inr fun link hlink => ?_
    obtain ⟨_, _, -, rfl⟩ := mem_buildPayload.mp hlink
    rfl

/-- A load of the journal of an engine recovers from its payload, or is refused. -/
theorem load_recovers (impl : Impl) (config config' : PersistenceConfig) (steps : ReadSteps) :
    (∃ refusal : Refusal, refusal.1 ≠ .committed ∧
      impl.load config' steps (some (saved.encode config).1) =
        (impl, { outcome := .make refusal.1 refusal.2 })) ∨
    ∃ payload, payload = (saved.buildPayload config.includeHistory).uncounted ∧ payload.Decoded ∧
      (impl.load config' steps (some (saved.encode config).1)).1 = (impl.recover payload).impl ∧
      (impl.load config' steps (some (saved.encode config).1)).2.recordsRevalidated =
        (impl.recover payload).revalidated ∧
      (impl.load config' steps (some (saved.encode config).1)).2.recordsLeftUnknown =
        (impl.recover payload).leftUnknown := by
  rcases lt_or_ge maxJournalBytesCap (saved.encode config).1.length with hlarge | hsize
  · exact .inl (load_oversized impl config' steps hlarge)
  rcases load_cases impl config' steps (some (saved.encode config).1) with hrefused |
    ⟨bytes, payload, summary, hfile, hdecode, himpl, -, hcounts⟩
  · exact .inl hrefused
  cases hfile
  obtain ⟨hloads, hfails⟩ := decodeJournal_encodeJournal hsize
    (histories_buildPayload saved config) config'
  by_cases hloadable : config'.Valid ∧
      (saved.buildPayload config.includeHistory).links.length ≤ config'.maxRecords ∧
      (saved.buildPayload config.includeHistory).Loadable
  · obtain ⟨summary', hdecode'⟩ := hloads hloadable
    obtain ⟨rfl, -⟩ := Prod.mk.inj (Except.ok.inj (hdecode.symm.trans hdecode'))
    exact .inr ⟨_, rfl, decodeJournal_decoded hdecode, himpl, hcounts⟩
  · obtain ⟨refusal, hdecode'⟩ := hfails hloadable
    cases hdecode.symm.trans hdecode'

/-- A load of the journal of an engine restores it, or is refused and changes nothing. -/
theorem load_saved (hindexed : Indexed saved) (impl : Impl) (config config' : PersistenceConfig)
    (steps : ReadSteps) :
    (∃ refusal : Refusal, refusal.1 ≠ .committed ∧
      impl.load config' steps (some (saved.encode config).1) =
        (impl, { outcome := .make refusal.1 refusal.2 })) ∨
    Restores saved impl (impl.load config' steps (some (saved.encode config).1)).1
      config.includeHistory := by
  refine (load_recovers impl config config' steps).imp_right ?_
  rintro ⟨payload, rfl, hdecoded, himpl, -⟩
  rw [himpl]
  exact restores_recover hindexed impl config.includeHistory hdecoded

/-- A load of the journal of an engine that can be loaded. -/
theorem load_storable (impl : Impl) {config config' : PersistenceConfig}
    (h : (saved.buildPayload config.includeHistory).Storable config config') {steps : ReadSteps}
    (hopens : steps.opens = true) (hreads : steps.reads = true) :
    (impl.load config' steps (some (saved.encode config).1)).1 =
      (impl.recover (saved.buildPayload config.includeHistory).uncounted).impl ∧
    (impl.load config' steps (some (saved.encode config).1)).2.outcome.code = .committed :=
  (load_encoded impl hopens hreads (histories_buildPayload saved config)).1 h

end Saved

/-! ## An engine that is about to run out -/

theorem Impl.apply_load (impl : Impl) (config : PersistenceConfig) (steps : ReadSteps)
    (file : Option Bytes) :
    impl.apply (.load config steps file) = (impl.load config steps file).1 := rfl

namespace Sample

/-- The payload of the small run, with one global generation left. -/
def latePayload : JournalPayload :=
  { registered.buildPayload false with globalGeneration := .fromValue (2 ^ 64 - 2) }

def lateJournal : Bytes := (encodeJournal latePayload {}).1

/-- The engine that has loaded its journal. -/
def restored : Impl := (Impl.create {}).apply (.load {} {} (some lateJournal))

/-- The engine where the publisher has registered again. -/
def late : Impl := restored.apply (.registerPublisher ⟨registration⟩)

theorem late_reachable : late.Reachable := .step _ (.step _ (.start ⟨{}, rfl⟩) trivial) trivial

theorem latePayload_storable : latePayload.Storable {} {} := by decide

theorem restored_eq : restored = ((Impl.create {}).recover latePayload.uncounted).impl :=
  (Impl.apply_load (.create {}) {} {} (some lateJournal)).trans
    ((@load_encoded latePayload {} {} {} (.create {}) rfl rfl
      (histories_buildPayload registered {})).1 latePayload_storable).1

theorem late_eq : late =
    ((Impl.create {}).recover latePayload.uncounted).impl.apply (.registerPublisher ⟨registration⟩) := by
  unfold late
  rw [restored_eq]

/-- The engine where a publication has taken the last global generation. -/
def worn : Impl := late.apply (.publishEvidence publish)

theorem worn_reachable : worn.Reachable := .step _ late_reachable trivial

theorem worn_eq : worn =
    (((Impl.create {}).recover latePayload.uncounted).impl.apply
      (.registerPublisher ⟨registration⟩)).apply (.publishEvidence publish) := by
  unfold worn
  rw [late_eq]

end Sample

end LinkState
