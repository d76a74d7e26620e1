import LinkStateFabric.Engine.Sessions
import LinkStateFabric.Results.FencedBoots

/-!
# The registry of fenced boots in a journal

The engine remembers the fenced boots of each publisher, and a journal holds the fence records, of
which the engine retains as many as there may be publishers. What is loaded is rebuilt from the
records, one after the other (`Impl.Rebuilds`). A registry is what is remembered of all the boots that
were fenced, in their order, and the records are the end of this sequence (`Standing.Recorded`). So,
where only journals of the engine itself are loaded, it is rebuilt exactly where the records name
every boot of it (`registry_survives_iff`).
-/

namespace LinkState

open Sorting

/-! ## Records of an operation -/

section Records

variable (impl : Impl) (publisher : PublisherId)

theorem bootsOf_append (fences fences' : List PublisherFence) :
    bootsOf publisher (fences ++ fences') = bootsOf publisher fences ++ bootsOf publisher fences' := by
  unfold bootsOf
  rw [List.filter_append, List.map_append]

theorem recordFence_recordedBoots (fence : PublisherFence) :
    (impl.recordFence fence).recordedBoots publisher <:+ impl.recordedBoots publisher ++
      (if fence.publisher = publisher then [fence.workerBoot] else []) := by
  have hboot : bootsOf publisher [fence] =
      if fence.publisher = publisher then [fence.workerBoot] else [] := by
    unfold bootsOf
    split <;> simp [*]
  unfold Impl.recordedBoots
  rw [← hboot, ← bootsOf_append]
  exact ((List.drop_suffix _ _).filter _).map _

theorem noteFence_recordedBoots (p : PublisherId) (boot : WorkerBootId) (status : AuthorityStatus)
    (reason : Text) : (impl.noteFence p boot status reason).recordedBoots publisher <:+
      impl.recordedBoots publisher ++ (if p = publisher then [boot] else []) := by
  have hremember (impl : Impl) : (if boot.valid then impl.rememberFencedBoot p boot
      else impl).recordedBoots publisher = impl.recordedBoots publisher := by
    split <;> rfl
  have hstatus (impl : Impl) : (impl.setAuthorityStatus p status).recordedBoots publisher =
      impl.recordedBoots publisher := by
    unfold Impl.setAuthorityStatus
    split <;> rfl
  unfold Impl.noteFence
  dsimp only
  refine (recordFence_recordedBoots _ publisher _).trans ?_
  rw [hstatus, hremember]

theorem SameAuthority.recordedBoots {impl impl' : Impl} (h : SameAuthority impl impl') :
    impl'.recordedBoots publisher = impl.recordedBoots publisher := by
  unfold Impl.recordedBoots
  rw [h.fences]

theorem fencePublisher_recordedBoots (p : PublisherId) (boot : WorkerBootId) (allBoots : Bool)
    (status : AuthorityStatus) (reason : Text) :
    (impl.fencePublisher p boot allBoots status reason).recordedBoots publisher <:+
      impl.recordedBoots publisher ++ (if p = publisher then [boot] else []) := by
  rw [(fencePublisher_sameAuthority ..).recordedBoots]
  exact noteFence_recordedBoots impl publisher p boot status reason

/-- A step of the loop over stale publishers records the boot of that publisher. -/
theorem fenceStale_recordedBoots (p : PublisherId) :
    (impl.fenceStale p).recordedBoots publisher <:+ impl.recordedBoots publisher ++
      (if p = publisher then ((impl.standing publisher).authority.map (·.workerBoot)).toList
      else []) := by
  unfold Impl.fenceStale
  split
  · rename_i hnone
    have hauthority : p = publisher → (impl.standing publisher).authority = none := by
      rintro rfl
      unfold Impl.standing
      rw [hnone]
      rfl
    split
    · rename_i hp
      rw [hauthority hp, Option.map_none, Option.toList_none, List.append_nil]
    · rw [List.append_nil]
  · rename_i authority hauthority
    refine (fencePublisher_recordedBoots impl publisher p _ true _ _).trans ?_
    split
    · rename_i hp
      rw [← hp, Impl.standing_authority hauthority]
      exact List.suffix_refl _
    · exact List.suffix_refl _

theorem foldl_fenceStale_recordedBoots (stale : List PublisherId) (hnodup : stale.Nodup) :
    (stale.foldl Impl.fenceStale impl).recordedBoots publisher <:+ impl.recordedBoots publisher ++
      (if publisher ∈ stale then
        ((impl.standing publisher).authority.map (·.workerBoot)).toList else []) := by
  induction stale generalizing impl with
  | nil => rw [if_neg List.not_mem_nil, List.append_nil]; exact List.suffix_refl _
  | cons p stale ih =>
    rw [List.nodup_cons] at hnodup
    have hfirst := fenceStale_recordedBoots impl publisher p
    have hrest := ih (impl.fenceStale p) hnodup.2
    rw [List.foldl_cons]
    by_cases hp : p = publisher
    · subst hp
      rw [if_neg hnodup.1, List.append_nil] at hrest
      rw [if_pos rfl] at hfirst
      rw [if_pos List.mem_cons_self]
      exact hrest.trans hfirst
    · rw [if_neg hp, List.append_nil] at hfirst
      rw [standing_fenceStale, if_neg (Ne.symm hp)] at hrest
      refine (hrest.trans (List.suffix_append_self_iff.mpr hfirst)).trans ?_
      simp [Ne.symm hp]

/-- An admitted registration fences a boot of its publisher, or none. -/
theorem admitRegistration_records (registration : PublisherRegistration) :
    ((impl.admitRegistration registration).1.store.fences = impl.store.fences ∧
      ∀ authority, impl.store.publishers.lookup registration.publisher = some authority →
        authority.workerBoot = registration.workerBoot) ∨
    ∃ authority, impl.store.publishers.lookup registration.publisher = some authority ∧
      authority.workerBoot ≠ registration.workerBoot ∧
      (impl.admitRegistration registration).1.recordedBoots publisher <:+
        impl.recordedBoots publisher ++
          (if registration.publisher = publisher then [authority.workerBoot] else []) := by
  unfold Impl.admitRegistration
  split
  · rename_i authority hauthority
    split
    · rename_i hboot
      refine .inl ⟨by split <;> rfl, fun a ha => ?_⟩
      obtain rfl := Option.some.inj (hauthority.symm.trans ha)
      exact hboot
    · rename_i hboot
      refine .inr ⟨authority, hauthority, hboot, ?_⟩
      unfold Impl.supersedeBoot
      dsimp only
      split <;> exact fencePublisher_recordedBoots impl publisher _ _ true _ _
  · rename_i hnone
    refine .inl ⟨by split <;> rfl, fun a ha => ?_⟩
    cases hnone.symm.trans ha

/-- An operation but a load records the boot that it fences, and may drop the oldest records. -/
theorem apply_recordedBoots {op : Op} (hload : op.isLoad = false) :
    (impl.apply op).recordedBoots publisher <:+
      impl.recordedBoots publisher ++ (impl.fences publisher op).toList := by
  -- An operation that fences nobody leaves the fences.
  have hstay {impl' : Impl} (hfences : impl'.store.fences = impl.store.fences)
      (hnone : impl.fences publisher op = none) : impl'.recordedBoots publisher <:+
        impl.recordedBoots publisher ++ (impl.fences publisher op).toList := by
    unfold Impl.recordedBoots
    rw [hnone, hfences, Option.toList_none, List.append_nil]
  cases op with
  | registerPublisher request =>
    show (impl.registerPublisher request).1.recordedBoots publisher <:+ _
    have hfences := fences_registerPublisher impl publisher request
    cases henrols : impl.enrols request.registration with
    | false =>
      rw [henrols, if_neg (by simp)] at hfences
      exact hstay (by rw [(registerPublisher_of_not_enrols impl henrols).1]) hfences
    | true =>
      obtain ⟨scope, heq⟩ := registerPublisher_of_enrols impl henrols
      rw [heq]
      rcases admitRegistration_records impl publisher { request.registration with scope } with
        ⟨hsame, hboots⟩ | ⟨authority, hauthority, hboot, hrecords⟩
      · refine hstay hsame (hfences.trans ?_)
        split
        · rename_i h
          rw [← h.1]
          cases ha : impl.store.publishers.lookup request.registration.publisher with
          | none => rfl
          | some a =>
            have hboot : a.workerBoot = request.registration.workerBoot := hboots a ha
            rw [Option.filter_some, if_neg (by simp [hboot])]
            rfl
        · rfl
      · refine hrecords.trans ?_
        dsimp only at hauthority hboot ⊢
        rw [hfences]
        by_cases hp : request.registration.publisher = publisher
        · subst hp
          rw [if_pos rfl, if_pos ⟨rfl, henrols⟩, hauthority, Option.filter_some,
            if_pos (by simp [hboot])]
          exact List.suffix_refl _
        · rw [if_neg hp, if_neg fun h => hp h.1]
          exact List.suffix_refl _
  | invalidatePublisher request =>
    show (impl.invalidatePublisher request).1.recordedBoots publisher <:+ _
    rcases invalidatePublisher_fences impl request with ⟨heq, hnone⟩ |
      ⟨authority, reason, h, heq, hfences⟩
    · exact hstay (by rw [heq]) (hnone publisher)
    · rw [heq, hfences]
      refine (fencePublisher_recordedBoots impl publisher _ _ true _ _).trans ?_
      by_cases hp : request.publisher = publisher
      · rw [if_pos hp, if_pos hp.symm]
        exact List.suffix_refl _
      · rw [if_neg hp, if_neg (Ne.symm hp)]
        exact List.suffix_refl _
  | advanceCoordinatorEpoch request =>
    show (impl.advanceCoordinatorEpoch request).1.recordedBoots publisher <:+ _
    have hfences := fences_advanceCoordinatorEpoch impl publisher request
    unfold Impl.advanceCoordinatorEpoch
    split
    · rename_i hlt
      exact hstay rfl (hfences.trans (if_neg fun h => hlt.asymm h.1))
    split
    · rename_i heq
      exact hstay rfl (hfences.trans (if_neg fun h => h.1.ne' heq))
    rename_i hle hne
    have hlt : impl.epoch < request.newEpoch := lt_of_le_of_ne (not_lt.mp hle) (Ne.symm hne)
    refine (foldl_fenceStale_recordedBoots _ publisher _ (nodup_stalePublishers _)).trans ?_
    rw [hfences]
    split
    · rename_i hstale
      rw [if_pos ⟨hlt, hstale⟩]
      exact List.suffix_refl _
    · rename_i hstale
      rw [if_neg fun h => hstale h.2]
      exact List.suffix_refl _
  | load => cases hload
  | _ =>
    exact hstay ((apply_steps impl hload).sameAuthority nofun).fences
      (fences_eq_none impl publisher fun _ _ => rfl)

end Records

/-! ## Registries -/

namespace Standing

/-- The fenced boots are what is remembered of a sequence of boots, of which the records are the
end. -/
def Recorded (s : Standing) (cap : Nat) (records : List WorkerBootId) : Prop :=
  ∃ before, Registry.Orderly cap (before ++ records) ∧
    s.fenced = Registry.registry cap (before ++ records)

variable {cap : Nat} {s s' : Standing} {records records' : List WorkerBootId}

theorem Recorded.of_suffix (h : s.Recorded cap records) (hsuffix : records' <:+ records) :
    s.Recorded cap records' := by
  obtain ⟨before, horderly, hfenced⟩ := h
  obtain ⟨front, rfl⟩ := hsuffix
  rw [← List.append_assoc] at horderly hfenced
  exact ⟨before ++ front, horderly, hfenced⟩

/-- A boot that is fenced, and recorded. -/
theorem Recorded.remember (h : s.Recorded cap records) {boot : WorkerBootId}
    (hnewest : boot ∈ s.fenced → s.fenced.getLast? = some boot)
    (authority : Option PublisherAuthority) :
    Recorded ⟨authority, Registry.remember cap s.fenced boot⟩ cap (records ++ [boot]) := by
  obtain ⟨before, horderly, hfenced⟩ := h
  rw [hfenced] at hnewest ⊢
  refine ⟨before, ?_, ?_⟩
  · rw [← List.append_assoc]
    exact horderly.concat hnewest
  · rw [← List.append_assoc, Registry.registry_concat]

theorem Step.recorded {fenced : Option WorkerBootId} (hstep : Step cap s fenced s')
    (hsound : s.Sound) (h : s.Recorded cap records) (hrecords : records' <:+ records ++ fenced.toList) :
    s'.Recorded cap records' := by
  refine Recorded.of_suffix ?_ hrecords
  cases hstep with
  | stay => rwa [Option.toList_none, List.append_nil]
  | enrol => rwa [Option.toList_none, List.append_nil]
  | refresh => rwa [Option.toList_none, List.append_nil]
  | @fence authority status hauthority hstatus =>
    have := h.remember (hsound.newest _ hauthority)
      (s.fence cap authority.workerBoot status).authority
    rw [← fence_fenced status (hsound.valid _ hauthority)] at this
    exact this
  | @replace authority authority' hauthority _ hboot hnew =>
    have := h.remember (hsound.newest _ hauthority) (some authority')
    rw [← fence_fenced .superseded (hsound.valid _ hauthority)] at this
    exact this

/-- A registry is rebuilt from its records exactly where they name every boot of it. -/
theorem Recorded.rebuilt_iff (h : s.Recorded cap records) :
    Registry.registry cap records = s.fenced ↔ ∀ boot ∈ s.fenced, boot ∈ records := by
  obtain ⟨before, horderly, hfenced⟩ := h
  rw [hfenced]
  constructor
  · intro heq boot hboot
    rw [← heq] at hboot
    exact Registry.mem_of_mem_registry hboot
  · exact Registry.registry_eq_of_subset horderly

end Standing

/-- The registry of every publisher is sound and recorded. -/
structure Impl.Registered (impl : Impl) : Prop where
  sound : ∀ publisher, (impl.standing publisher).Sound
  recorded : ∀ publisher, (impl.standing publisher).Recorded impl.config.fenceRetentionPerPublisher
    (impl.recordedBoots publisher)

theorem registered_create (config : EngineConfig) : (Impl.create config).Registered where
  sound _ := ⟨List.nodup_nil, nofun, nofun, nofun⟩
  recorded _ := ⟨[], .nil, rfl⟩

theorem Impl.Registered.apply {impl : Impl} (h : impl.Registered) {op : Op}
    (hload : op.isLoad = false) : (impl.apply op).Registered where
  sound publisher := (apply_standing impl publisher hload).sound (h.sound publisher)
  recorded publisher := by
    rw [(apply_steps impl hload).le.config]
    exact (apply_standing impl publisher hload).recorded (h.sound publisher) (h.recorded publisher)
      (apply_recordedBoots impl publisher hload)

/-- What a restored engine remembers is rebuilt from the records of the saved one. -/
theorem Restores.registered {saved impl impl' : Impl} {includeHistory : Bool}
    (h : Restores saved impl impl' includeHistory) (hconfig : impl.config = saved.config)
    (hsaved : saved.Registered) : impl'.Registered := by
  have hstanding (publisher : PublisherId) : impl'.standing publisher = ⟨none,
      Registry.registry saved.config.fenceRetentionPerPublisher (saved.recordedBoots publisher)⟩ := by
    unfold Impl.standing
    rw [h.publishers, h.fencedBoots, hconfig]
    rfl
  refine ⟨fun publisher => ?_, fun publisher => ?_⟩
  · rw [hstanding]
    exact ⟨Registry.nodup_registry _ _, nofun, nofun, nofun⟩
  · obtain ⟨before, horderly, -⟩ := hsaved.recorded publisher
    rw [hstanding, h.config, hconfig]
    unfold Impl.recordedBoots
    rw [h.fences]
    exact ⟨[], horderly.of_suffix, rfl⟩

/-! ## Sessions -/

/-- The configuration of a session is that of its start. -/
theorem Session.configured {s : Session} (h : Runs.Run Session.Fresh Session.apply Session.Own s) :
    ∃ config, Runs.Run (fun s => s.Fresh ∧ s.impl.config = config) Session.apply Session.Own s := by
  induction h with
  | start h => exact ⟨_, .start ⟨h, rfl⟩⟩
  | step a _ hown ih =>
    obtain ⟨config, hrun⟩ := ih
    exact ⟨config, hrun.step a hown⟩

theorem Session.registered {s : Session} (h : Runs.Run Session.Fresh Session.apply Session.Own s) :
    Indexed s.impl ∧ s.impl.Registered := by
  obtain ⟨config, h⟩ := Session.configured h
  refine (fun hall => ⟨hall.1.1, hall.1.2.2⟩) (Session.invariant
    (P := fun impl => Indexed impl ∧ impl.config = config ∧ impl.Registered) (fun _ _ h => h) ?_
    (fun _ h => h.1)
    (fun _ op _ hload h => ⟨h.1.apply op, (apply_steps _ hload).le.config.trans h.2.1,
      h.2.2.apply hload⟩)
    (fun _ _ _ _ hsaved himpl h => ⟨h.indexed, h.config.trans himpl.2.1,
      h.registered (himpl.2.1.trans hsaved.2.1.symm) hsaved.2.2⟩) h)
  rintro s ⟨⟨⟨config, himpl⟩, hjournals⟩, hconfig⟩
  refine ⟨⟨?_, hconfig, ?_⟩, hjournals⟩ <;> rw [himpl]
  · exact indexed_create config
  · exact registered_create config

/-- The boots of the retained records of a publisher, remembered one after the other, are its
registry. -/
def Impl.Rebuilds (impl : Impl) (publisher : PublisherId) : Prop :=
  Registry.registry impl.config.fenceRetentionPerPublisher (impl.recordedBoots publisher) =
    impl.fencedBoots publisher

/-- In every engine that a run reaches, be it by loads of any journals: what is loaded of its journal
into a new engine of the same configuration has the fenced boots of every publisher, and refuses them
as before, exactly where the retained records rebuild its registries. Where the run has loaded only
what it saved, they do exactly where they name every boot of them. -/
theorem registry_survives_iff {impl : Impl} (h : impl.Reachable) {config : PersistenceConfig}
    {write : WriteSteps} {file : Option Bytes}
    (hsave : (impl.save config write file).1.isError = false)
    (config' : PersistenceConfig) (read : ReadSteps) {loaded : Impl × LoadOutcome}
    (heq : loaded = (Impl.create impl.config).load config' read (impl.save config write file).2)
    (hload : loaded.2.outcome.code = .committed) :
    (((∀ publisher, loaded.1.fencedBoots publisher = impl.fencedBoots publisher) ∧
      ∀ publisher boot, impl.bootIsFenced publisher boot = true →
        loaded.1.bootIsFenced publisher boot = true) ↔ ∀ publisher, impl.Rebuilds publisher) ∧
    ∀ s : Session, Runs.Run Session.Fresh Session.apply Session.Own s → s.impl = impl →
      ((∀ publisher, impl.Rebuilds publisher) ↔
        ∀ publisher, ∀ boot ∈ impl.fencedBoots publisher, boot ∈ impl.recordedBoots publisher) := by
  rw [Session.save_journal hsave] at heq
  rcases load_saved h.indexed (.create impl.config) config config' read with ⟨_, hfails, hrefused⟩ |
    hrestores
  · rw [heq, hrefused] at hload
    exact absurd hload hfails
  rw [← heq] at hrestores
  refine ⟨⟨fun hsame publisher => ?_, fun hrebuilds => ?_⟩, fun s hrun himpl => ?_⟩
  · exact (hrestores.fencedBoots publisher).symm.trans (hsame.1 publisher)
  · have hsame (publisher : PublisherId) :
        loaded.1.fencedBoots publisher = impl.fencedBoots publisher :=
      (hrestores.fencedBoots publisher).trans (hrebuilds publisher)
    refine ⟨hsame, fun publisher boot hfenced => ?_⟩
    unfold Impl.bootIsFenced
    rw [hsame publisher]
    exact hfenced
  -- In a run over its own journals the records are a part of the registry, in its order.
  · subst himpl
    exact forall_congr' fun publisher =>
      ((Session.registered hrun).2.recorded publisher).rebuilt_iff

theorem mem_keys_of_fenced {impl : Impl} {publisher : PublisherId} {boot : WorkerBootId}
    (h : boot ∈ impl.fencedBoots publisher) : publisher ∈ impl.store.fencedBoots.keys := by
  unfold Impl.fencedBoots at h
  cases hlookup : impl.store.fencedBoots.lookup publisher with
  | none => rw [hlookup] at h; cases h
  | some boots => exact Finmap.mem_keys.mpr (Finmap.mem_of_lookup_eq_some hlookup)

namespace Sample

/-- The small run, and then the publisher is invalidated. -/
def invalidated : Session := session.apply (.op (.invalidatePublisher invalidation))

theorem invalidated_run : Runs.Run Session.Fresh Session.apply Session.Own invalidated :=
  session_run.step _ trivial

theorem invalidated_reachable : invalidated.impl.Reachable := by
  show (session.impl.apply (.invalidatePublisher invalidation)).Reachable
  rw [session_impl]
  exact .step _ reachable trivial

theorem invalidated_storable : (invalidated.impl.buildPayload false).Storable {} {} := by
  decide +kernel

theorem invalidated_named : ∀ publisher ∈ invalidated.impl.store.fencedBoots.keys,
    ∀ boot ∈ invalidated.impl.fencedBoots publisher,
      boot ∈ invalidated.impl.recordedBoots publisher := by decide +kernel

/-- The engine may have one publisher, which registers under three boots one after the other. -/
def crowdedOps : List Op :=
  [.registerPublisher ⟨registration⟩,
    .registerPublisher ⟨{ registration with workerBoot := .fromValidated (lit "boot-2") }⟩,
    .registerPublisher ⟨{ registration with workerBoot := .fromValidated (lit "boot-3") }⟩]

def crowded : Session :=
  (crowdedOps.map Session.Act.op).foldl Session.apply ⟨.create { maxPublishers := 1 }, []⟩

theorem crowded_run : Runs.Run Session.Fresh Session.apply Session.Own crowded :=
  Runs.Run.foldl (.start ⟨⟨{ maxPublishers := 1 }, rfl⟩, rfl⟩) ⟨trivial, trivial, trivial, trivial⟩

theorem crowded_storable : (crowded.impl.buildPayload false).Storable {} {} := by decide +kernel

/-- The engine that has loaded its journal. -/
def forgetful : Impl × LoadOutcome :=
  (Impl.create { maxPublishers := 1 }).load {} {} (crowded.impl.save {} {} none).2

theorem forgetful_eq :
    forgetful.1 = ((Impl.create { maxPublishers := 1 }).recover
      (crowded.impl.buildPayload false).uncounted).impl ∧
    forgetful.2.outcome.code = .committed := by
  unfold forgetful
  exact load_plain _ crowded_storable

end Sample

/-- The boot of the small run, fenced, is refused after the load. -/
theorem registry_survives_sample :
    ((Impl.create Sample.invalidated.impl.config).load {} {}
      (Sample.invalidated.impl.save {} {} none).2).1.bootIsFenced Sample.publisher Sample.boot =
        true :=
  have hsurvives := registry_survives_iff Sample.invalidated_reachable
    (Sample.save_plain Sample.invalidated.impl) {} {} rfl
    (Sample.load_plain Sample.invalidated.impl.config Sample.invalidated_storable).2
  (hsurvives.1.mpr ((hsurvives.2 _ Sample.invalidated_run rfl).mpr fun publisher boot hboot =>
      Sample.invalidated_named publisher (mem_keys_of_fenced hboot) boot hboot)).2
    Sample.publisher Sample.boot (by decide +kernel)

/-- The first boot was fenced, and may return after a load. -/
theorem registry_forgets :
    Runs.Run Session.Fresh Session.apply Session.Own Sample.crowded ∧
    Sample.crowded.impl.config = { maxPublishers := 1 } ∧
    EngineConfig.Valid { maxPublishers := 1 } ∧
    (Sample.crowded.impl.save {} {} none).1.isError = false ∧
    Sample.forgetful.2.outcome.code = .committed ∧
    Sample.crowded.impl.bootIsFenced Sample.publisher Sample.boot = true ∧
    Sample.forgetful.1.bootIsFenced Sample.publisher Sample.boot = false := by
  refine ⟨Sample.crowded_run, rfl, by decide, Sample.save_plain _, Sample.forgetful_eq.2,
    by decide +kernel, ?_⟩
  rw [Sample.forgetful_eq.1]
  decide +kernel

end LinkState
