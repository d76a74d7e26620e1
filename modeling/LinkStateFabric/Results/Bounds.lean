import LinkStateFabric.Engine.Dispositions
import LinkStateFabric.Engine.Fencing
import LinkStateFabric.Engine.Outcomes
import LinkStateFabric.Engine.Sessions
import LinkStateFabric.Lib.Maps
import LinkStateFabric.Results.FencedBoots
import LinkStateFabric.Results.Snapshots

/-!
# The resources of an engine

* `Impl.Bounded`: an engine keeps no more of anything than its configuration admits.
* Each operation checks the bounds of what it adds to. A load checks neither the links nor the
  fences that it takes over, and nothing reads the flag by which no history is to be retained
  (`resources_bounded_iff`).
-/

namespace LinkState

open Sorting

/-- An engine keeps no more of anything than its configuration admits. -/
structure Impl.Bounded (impl : Impl) : Prop where
  links : impl.store.links.keys.card ≤ impl.config.maxLinks
  publishers : impl.store.publishers.keys.card ≤ impl.config.maxPublishers
  fences : impl.store.fences.length ≤ impl.config.maxPublishers
  snapshots : impl.store.snapshots.keys.card ≤ impl.config.maxRetainedSnapshots ∧
    impl.store.snapshotOrder.length ≤ impl.config.maxRetainedSnapshots
  evidence : ∀ link entry, impl.entryOf link = some entry →
    entry.current.length ≤ impl.config.maxEvidencePerLink
  dispositions : ∀ link entry, impl.entryOf link = some entry →
    entry.dispositions.length ≤ impl.config.maxHistoryPerLink
  history : ∀ link entry, impl.entryOf link = some entry →
    entry.record.history.length ≤ impl.config.maxHistoryPerLink
  fencedBoots : ∀ publisher,
    (impl.fencedBoots publisher).length ≤ impl.config.fenceRetentionPerPublisher
  unretained : impl.config.retainHistory = false → ∀ link entry,
    impl.entryOf link = some entry → entry.record.history = []

/-! ## Snapshots -/

/-- Every snapshot is in the order of the snapshots, which is no longer than admitted. -/
structure Impl.Shelved (impl : Impl) : Prop where
  listed : ∀ id ∈ impl.retained.1, id ∈ impl.retained.2
  order : impl.retained.2.length ≤ impl.config.maxRetainedSnapshots

theorem Impl.Shelved.congr {impl impl' : Impl} (h : impl.Shelved)
    (hretained : impl'.retained = impl.retained) (hconfig : impl'.config = impl.config) :
    impl'.Shelved :=
  ⟨by rw [hretained]; exact h.listed, by rw [hretained, hconfig]; exact h.order⟩

theorem Impl.Shelved.retainSnapshot {impl : Impl} (h : impl.Shelved) (snap : Snapshot) :
    (impl.retainSnapshot snap).Shelved := by
  have hadded : ∀ id ∈ (if (impl.store.snapshots.lookup snap.id).isSome then impl.store.snapshots
      else impl.store.snapshots.insert snap.id snap), id ∈ impl.store.snapshotOrder ++ [snap.id] := by
    intro id hid
    split at hid
    · exact List.mem_append_left _ (h.listed id hid)
    · rcases Finmap.mem_insert.mp hid with rfl | hid
      · exact List.mem_append_right _ (List.mem_singleton_self _)
      · exact List.mem_append_left _ (h.listed id hid)
  refine ⟨fun id hid => ?_, ?_⟩
  · obtain ⟨hkept, hid⟩ := (Finmap.mem_foldl_erase _ _ id).mp hid
    have hmem := hadded id hid
    rw [← List.take_append_drop ((impl.store.snapshotOrder ++ [snap.id]).length -
      impl.config.maxRetainedSnapshots) (impl.store.snapshotOrder ++ [snap.id])] at hmem
    exact (List.mem_append.mp hmem).resolve_left hkept
  · unfold Impl.retainSnapshot Impl.retained
    dsimp only
    rw [List.length_drop]
    omega

theorem Steps.shelved {allow : Kind → Prop} {impl impl' : Impl} (hsteps : Steps allow impl impl')
    (h : impl.Shelved) : impl'.Shelved := by
  refine hsteps.invariant (P := Impl.Shelved) (fun base base' hsame _ h => ?_)
    (fun _ base binding t _ _ hcount h => ?_)
    (fun link t t' hstep h => h.congr hstep.frame.retained hstep.frame.config) h
  · rcases hsame.retained with heq | ⟨snap, heq⟩
    · exact h.congr heq hsame.config
    · exact (h.retainSnapshot snap).congr heq hsame.config
  · obtain ⟨_, _, _, _, _, -, -, heq⟩ := hcount.bind_eq
    rw [heq]
    exact h.congr rfl rfl

theorem recover_retained (impl : Impl) {payload : JournalPayload} (h : payload.Decoded) :
    (impl.recover payload).impl.retained = (∅, []) := by
  obtain ⟨adopted, hadopted, heq⟩ := adopted_recover impl h
  obtain ⟨boots, hstart⟩ := rebuildFences_eq (impl.resetTo payload) payload.fences
  have hstore := hadopted.store
  rw [hstart] at hstore
  rw [heq]
  unfold Impl.retained Impl.rebuildDependents
  dsimp only
  rw [hstore]
  rfl

/-! ## Publishers and fences -/

/-- Publishers, fences and fenced boots are no more than admitted. -/
structure Impl.Governed (impl : Impl) : Prop where
  publishers : impl.store.publishers.keys.card ≤ impl.config.maxPublishers
  fences : impl.store.fences.length ≤ impl.config.maxPublishers
  fencedBoots : ∀ publisher,
    (impl.fencedBoots publisher).length ≤ impl.config.fenceRetentionPerPublisher

section Governed

variable {impl impl' : Impl} (h : impl.Governed)

include h

theorem Impl.Governed.congr (hsame : SameAuthority impl impl') (hconfig : impl'.config = impl.config) :
    impl'.Governed := by
  have hkeys : impl'.store.publishers.keys = impl.store.publishers.keys :=
    Finmap.keys_congr fun publisher => by
      have hcore := congrArg Option.isSome (hsame.publishers publisher)
      rwa [Option.isSome_map, Option.isSome_map] at hcore
  refine ⟨?_, ?_, fun publisher => ?_⟩
  · rw [hkeys, hconfig]
    exact h.publishers
  · rw [hsame.fences, hconfig]
    exact h.fences
  · unfold Impl.fencedBoots
    rw [hsame.fencedBoots, hconfig]
    exact h.fencedBoots publisher

theorem Impl.Governed.putAuthority {publisher : PublisherId} (authority : PublisherAuthority)
    (hroom : publisher ∈ impl.store.publishers ∨
      impl.store.publishers.keys.card < impl.config.maxPublishers) :
    (impl.putAuthority publisher authority).Governed := by
  refine ⟨?_, h.fences, h.fencedBoots⟩
  rcases hroom with hmem | hroom
  · exact (Finmap.keys_insert_of_mem hmem authority).symm ▸ h.publishers
  · exact (Finmap.card_keys_insert_le _ _ _).trans hroom

theorem Impl.Governed.noteFence (publisher : PublisherId) (boot : WorkerBootId)
    (status : AuthorityStatus) (reason : Text) :
    (impl.noteFence publisher boot status reason).Governed := by
  have hremember : (if boot.valid then impl.rememberFencedBoot publisher boot else impl).Governed := by
    split
    · refine ⟨h.publishers, h.fences, fun p => ?_⟩
      rw [fencedBoots_rememberFencedBoot]
      split
      · exact Registry.length_remember (h.fencedBoots p)
      · exact h.fencedBoots p
    · exact h
  have hstatus {base : Impl} (h : base.Governed) :
      (base.setAuthorityStatus publisher status).Governed := by
    unfold Impl.setAuthorityStatus
    split
    · exact h
    · rename_i authority hauthority
      exact h.putAuthority _ (.inl (Finmap.mem_of_lookup_eq_some hauthority))
  have hrecord {base : Impl} (h : base.Governed) (fence : PublisherFence) :
      (base.recordFence fence).Governed := by
    refine ⟨h.publishers, ?_, h.fencedBoots⟩
    unfold Impl.recordFence
    dsimp only
    rw [List.length_drop]
    omega
  exact hrecord (hstatus hremember) _

omit h in
theorem Impl.Governed.apply {impl : Impl} (h : impl.Governed) {op : Op} (hload : op.isLoad = false) :
    (impl.apply op).Governed :=
  Impl.apply_authority (fun hsame hconfig h => h.congr hsame hconfig)
    (fun hmay h => h.putAuthority _ hmay.room) (fun status _ _ _ h => h.noteFence _ _ status _)
    (fun _ h => ⟨h.publishers, h.fences, h.fencedBoots⟩) hload h

end Governed

/-! ## Links -/

/-- Only a first binding adds a link. -/
theorem Steps.keys {allow : Kind → Prop} (hb : ¬ allow .bind) {impl impl' : Impl}
    (h : Steps allow impl impl') : impl'.store.links.keys = impl.store.links.keys := by
  refine h.invariant (P := fun impl' => impl'.store.links.keys = impl.store.links.keys)
    (fun base base' hsame _ h => by rw [hsame.links]; exact h) (fun ha => absurd ha hb)
    (fun link t t' hstep h => ?_) rfl
  rw [← h]
  unfold Edit.commit Impl.putEntry
  dsimp only
  rw [Finmap.keys_insert, Finmap.keys_insert, hstep.frame.links]

/-- A link is bound only where there is room for it. -/
theorem apply_links {impl : Impl} (h : impl.store.links.keys.card ≤ impl.config.maxLinks) {op : Op}
    (hload : op.isLoad = false) :
    (impl.apply op).store.links.keys.card ≤ impl.config.maxLinks := by
  have hsteps := apply_steps impl hload
  -- Only a binding adds a link.
  by_cases hb : op.kinds .bind
  · cases op with
    | bindLink request =>
      show (impl.bindLink request).1.store.links.keys.card ≤ _
      rcases bindLink_outcome impl request with hdeclined | ⟨heq, -⟩ | ⟨hbindable, heq⟩ |
        ⟨entry, hvalid, hrebindable, heq⟩
      · rw [hdeclined.sameLinks.links]
        exact h
      · rw [heq]
        exact h
      · rw [heq]
        unfold Impl.bindNew
        rw [if_neg (not_le.mpr hbindable.capacity)]
        split
        · exact h
        · rename_i t hc
          have hcount := Edit.advanceAll_advances [.global] (by decide)
            ⟨impl, newEntry request.binding.normalize⟩
          rw [hc] at hcount
          obtain ⟨-, hentry, -⟩ := bind_entries hcount
          refine le_trans (Finmap.card_keys_insert_le _ _ _) (Nat.succ_le_of_lt ?_)
          rw [Finmap.keys_congr fun l => congrArg Option.isSome (hentry l)]
          exact hbindable.capacity
      · rw [heq]
        have hrebind : Steps (fun kind => kind = .rebind) impl _ := applyRebinding_steps impl (by exact rfl)
          hrebindable.bound ⟨hrebindable.live, hrebindable.link_eq, hrebindable.newer,
            fun _ => wellFormed_of_validBinding hvalid⟩ (lit "topology generation advanced")
        rw [hrebind.keys (by decide)]
        exact h
    | load => cases hload
    | _ => simp [Op.kinds] at hb
  · rw [hsteps.keys hb]
    exact h

theorem recover_links (impl : Impl) {payload : JournalPayload} (h : payload.Decoded) :
    (impl.recover payload).impl.store.links.keys.card = payload.links.length := by
  have hrecovers := recovers_recover impl h
  rw [← @List.length_map _ _ payload.links (·.record.binding.link)]
  refine Finmap.card_keys_of_nodup h.distinct fun link => ?_
  rw [← Finmap.lookup_isSome]
  by_cases hmem : link ∈ payload.links.map (·.record.binding.link)
  · obtain ⟨persisted, hpersisted, rfl⟩ := List.mem_map.mp hmem
    have hentry := hrecovers.entries persisted hpersisted
    unfold Impl.entryOf at hentry
    rw [hentry]
    exact iff_of_true rfl hmem
  · have hentry := hrecovers.others link hmem
    unfold Impl.entryOf at hentry
    rw [hentry]
    exact iff_of_false (by simp [Impl.resetTo]) hmem

/-! ## Runs -/

/-- A journal that is loaded has no more links and fences than the engine may have. -/
def Impl.Admits (impl : Impl) : Op → Prop
  | .load config steps file => ∀ payload ∈ acceptedPayload config steps file,
    payload.links.length ≤ impl.config.maxLinks ∧
      payload.fences.length ≤ impl.config.maxPublishers
  | _ => True

/-- What every operation keeps that loads no more than is admitted. -/
structure Impl.Stocked (impl : Impl) : Prop where
  links : impl.store.links.keys.card ≤ impl.config.maxLinks
  governed : impl.Governed
  shelved : impl.Shelved

theorem stocked_create (config : EngineConfig) : (Impl.create config).Stocked := by
  refine ⟨Nat.zero_le _, ⟨Nat.zero_le _, Nat.zero_le _, fun _ => ?_⟩, fun _ h => ?_, Nat.zero_le _⟩
  · exact Nat.zero_le _
  · exact absurd h Finmap.notMem_empty

theorem Impl.Stocked.apply {impl : Impl} (h : impl.Stocked) {op : Op} (hop : impl.Admits op) :
    (impl.apply op).Stocked ∧ (impl.apply op).config = impl.config := by
  cases hload : op.isLoad with
  | false =>
    have hsteps := apply_steps impl hload
    refine ⟨⟨?_, h.governed.apply hload, hsteps.shelved h.shelved⟩, hsteps.le.config⟩
    rw [hsteps.le.config]
    exact apply_links h.links hload
  | true =>
    cases op with
    | load config steps file =>
      rw [Impl.apply_load, load_accepted]
      cases hpayload : acceptedPayload config steps file with
      | none => exact ⟨h, rfl⟩
      | some payload =>
        have hdecoded := acceptedPayload_decoded hpayload
        obtain ⟨hlinks, hfences⟩ := hop payload hpayload
        have hrecovers := recovers_recover impl hdecoded
        have hconfig : (impl.recover payload).impl.config = impl.config := hrecovers.config
        have hretained := recover_retained impl hdecoded
        rw [Option.elim_some]
        refine ⟨⟨?_, ⟨?_, ?_, fun publisher => ?_⟩, fun id hid => ?_, ?_⟩, hconfig⟩
        -- What the load has taken from the journal was within the bounds.
        · rw [recover_links impl hdecoded, hconfig]
          exact hlinks
        · rw [hrecovers.publishers]
          exact Nat.zero_le _
        · rw [(recover_fences impl hdecoded).1, hconfig]
          exact hfences
        · rw [(recover_fences impl hdecoded).2, hconfig]
          exact Registry.length_registry _ _
        · rw [hretained] at hid
          exact absurd hid Finmap.notMem_empty
        · rw [hretained]
          exact Nat.zero_le _
    | _ => cases hload

/-- In a run that loads no more than is admitted, every bound holds, if it is one to retain no
history at all. -/
theorem bounded_of_run {config : EngineConfig}
    (hretain : config.retainHistory = true ∨ config.maxHistoryPerLink = 0) {impl : Impl}
    (h : Runs.Run (· = Impl.create config) Impl.apply Impl.Admits impl) : impl.Bounded := by
  have hreachable : impl.Reachable :=
    h.invariant (P := Impl.Reachable) (fun _ hs => .start ⟨config, hs⟩)
      fun _ op hs _ => .step op hs trivial
  obtain ⟨hstocked, hconfig⟩ : impl.Stocked ∧ impl.config = config := by
    refine h.invariant (P := fun impl => impl.Stocked ∧ impl.config = config) ?_
      fun impl op ⟨hstocked, hconfig⟩ hop => ?_
    · rintro _ rfl
      exact ⟨stocked_create config, rfl⟩
    · obtain ⟨hstocked, hsame⟩ := hstocked.apply hop
      exact ⟨hstocked, hsame.trans hconfig⟩
  have hindexed := Impl.Reachable.indexed hreachable
  have htrimmed := Impl.Reachable.trimmed hreachable
  refine ⟨hstocked.links, hstocked.governed.publishers, hstocked.governed.fences,
    ⟨(Finmap.card_keys_le_of_subset hstocked.shelved.listed).trans hstocked.shelved.order,
      hstocked.shelved.order⟩, fun link entry hentry => (hindexed.slotted link entry hentry).capacity,
    fun link entry hentry => (htrimmed link entry hentry).dispositions,
    fun link entry hentry => (htrimmed link entry hentry).history,
    hstocked.governed.fencedBoots, fun hflag link entry hentry => ?_⟩
  have hnone : impl.config.maxHistoryPerLink = 0 := by
    rw [hconfig] at hflag ⊢
    exact hretain.resolve_left (by rw [hflag]; decide)
  exact List.eq_nil_of_length_eq_zero (Nat.le_zero.mp (hnone ▸ (htrimmed link entry hentry).history))

/-- A load that takes over more than is admitted leaves more than is admitted. -/
theorem not_bounded_of_load {impl : Impl} {op : Op} (h : ¬ impl.Admits op) :
    ¬ (impl.apply op).Bounded := by
  cases op with
  | load config steps file =>
    intro hbounded
    refine h fun payload hpayload => ?_
    have hdecoded := acceptedPayload_decoded hpayload
    have heq : impl.apply (.load config steps file) = (impl.recover payload).impl := by
      rw [Impl.apply_load, load_accepted, hpayload]
      rfl
    rw [heq] at hbounded
    have hconfig : (impl.recover payload).impl.config = impl.config :=
      (recovers_recover impl hdecoded).config
    have hlinks := hbounded.links
    have hfences := hbounded.fences
    rw [recover_links impl hdecoded, hconfig] at hlinks
    rw [(recover_fences impl hdecoded).1, hconfig] at hfences
    exact ⟨hlinks, hfences⟩
  | _ => exact absurd trivial h

/-- Recovery records the change of state of a link, whether or not history is to be retained. -/
theorem changedEntry_history {config : EngineConfig} (h : config.maxHistoryPerLink ≠ 0)
    (persisted : PersistedLink) : (changedEntry config persisted).record.history ≠ [] := by
  unfold changedEntry recoverChanged pushHistory
  dsimp only
  rw [if_neg h]
  have hpos : (1 : Nat) - config.maxHistoryPerLink = 0 := by omega
  simp [restoredEntry, hpos]

namespace Sample

/-- A load of the journal of the small run. -/
def reload : Op := .load {} {} (some (engine.encode {}).1)

theorem reload_accepted : acceptedPayload {} {} (some (engine.encode {}).1) =
    some (engine.buildPayload false).uncounted :=
  @acceptedPayload_encoded (engine.buildPayload false) {} {} {} engine_storable rfl rfl
    (histories_buildPayload engine {})

theorem reload_admitted {config : EngineConfig} (hvalid : config.Valid) :
    (Impl.create config).Admits reload := by
  obtain ⟨hmaxLinks, -⟩ := hvalid.bounds
  intro payload hpayload
  cases reload_accepted.symm.trans hpayload
  have hone : (engine.buildPayload false).uncounted.links.length = 1 ∧
      (engine.buildPayload false).uncounted.fences.length = 0 := by decide +kernel
  rw [hone.1, hone.2]
  exact ⟨hmaxLinks, Nat.zero_le _⟩

/-- An engine that is to retain no history has some after a load. -/
theorem reload_exceeds {config : EngineConfig} (hflag : config.retainHistory = false)
    (hcap : config.maxHistoryPerLink ≠ 0) : ¬ ((Impl.create config).apply reload).Bounded := by
  intro hbounded
  have heq : (Impl.create config).apply reload =
      ((Impl.create config).recover (engine.buildPayload false).uncounted).impl := by
    rw [reload, Impl.apply_load, load_accepted, reload_accepted]
    rfl
  have hrecovers :=
    recovers_recover (Impl.create config) (acceptedPayload_decoded reload_accepted)
  have hpersisted : ∃ persisted ∈ (engine.buildPayload false).uncounted.links,
      persisted.record.state ≠ .retired ∧
      persisted.record.state ≠ recoveredState persisted.record := by decide +kernel
  obtain ⟨persisted, hmem, hlive, hchanged⟩ := hpersisted
  have hentry := hrecovers.entries persisted hmem
  rw [← heq] at hentry
  have hempty := hbounded.unretained (by rw [heq]; exact hrecovers.config.symm ▸ hflag) _ _ hentry
  rw [recoveredEntry, if_neg hlive, if_neg hchanged] at hempty
  exact changedEntry_history hcap persisted hempty

/-- The small run, of an engine that is to retain no history. -/
def unretained : Impl := ops.foldl Impl.apply (.create { retainHistory := false })

theorem unretained_bound : (unretained.entryOf link).isSome = true := by decide +kernel

/-- An engine of at most one link that has loaded the journal of two. -/
def overfull : Impl := (Impl.create { maxLinks := 1 }).apply (.load {} {} (some disabledJournal))

theorem overfull_links : overfull.store.links.keys.card = 2 := by
  have haccepted : acceptedPayload {} {} (some disabledJournal) =
      some (disabledLinks.buildPayload false).uncounted :=
    @acceptedPayload_encoded (disabledLinks.buildPayload false) {} {} {} disabledLinks_storable rfl
      rfl (histories_buildPayload disabledLinks {})
  unfold overfull
  rw [Impl.apply_load, load_accepted, haccepted, Option.elim_some,
    recover_links _ (acceptedPayload_decoded haccepted)]
  decide +kernel

end Sample

/-- In the runs of a valid configuration that load no more than it admits, every bound holds exactly
if history is to be retained, or none is admitted. A load of more breaks a bound. -/
theorem resources_bounded_iff {config : EngineConfig} (hvalid : config.Valid) :
    ((∀ impl, Runs.Run (· = Impl.create config) Impl.apply Impl.Admits impl → impl.Bounded) ↔
      config.retainHistory = true ∨ config.maxHistoryPerLink = 0) ∧
    ∀ impl op, ¬ Impl.Admits impl op → ¬ (impl.apply op).Bounded := by
  refine ⟨⟨fun h => ?_, fun hretain _ => bounded_of_run hretain⟩, fun _ _ => not_bounded_of_load⟩
  by_contra hnot
  obtain ⟨hflag, hcap⟩ := not_or.mp hnot
  exact Sample.reload_exceeds (by simpa using hflag) hcap
    (h _ (.step _ (.start rfl) (Sample.reload_admitted hvalid)))

theorem resources_bounded_sample : ((Impl.create {}).apply Sample.reload).Bounded :=
  (@resources_bounded_iff {} (by decide)).1.mpr (.inl rfl) _
    (.step _ (.start rfl) (Sample.reload_admitted (by decide)))

/-- An engine that is to retain no history has a link with a history, and one of at most one link
has loaded two. -/
theorem resources_exceeded :
    (EngineConfig.Valid { retainHistory := false } ∧ Sample.unretained.Reachable ∧
      ¬ (Sample.unretained.config.retainHistory = false → ∀ link entry,
        Sample.unretained.entryOf link = some entry → entry.record.history = [])) ∧
    (EngineConfig.Valid { maxLinks := 1 } ∧ Sample.overfull.Reachable ∧
      ¬ Sample.overfull.store.links.keys.card ≤ 1) := by
  refine ⟨⟨by decide, Impl.Reachable.foldl (.start ⟨_, rfl⟩) Sample.ops, fun h => ?_⟩,
    by decide, .step _ (.start ⟨_, rfl⟩) trivial, by rw [Sample.overfull_links]; decide⟩
  have hempty := h (by decide +kernel) _ _ (Option.some_get Sample.unretained_bound).symm
  exact absurd hempty (by decide +kernel)

end LinkState
