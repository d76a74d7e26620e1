import LinkStateFabric.Engine.Recovery

/-!
# Publishers and their fenced boots

* `Impl.standing`: where a publisher stands with an engine, its authority and its fenced boots.
* `Standing.Step`: what can become of it. A boot is fenced when its incarnation is, and no fenced
  boot is enrolled.
* `apply_standing`: every operation but a load takes each publisher one such step.
* `Impl.apply_authority`: the rule for facts about authority. They are proved for the three ways in
  which an operation touches it.
* `fencePublisher_evidence`: nothing that a fenced publisher published stays current, and what
  others published does.
-/

namespace LinkState

open Sorting

/-! ## Authority that an operation leaves alone -/

/-- Only the operations on publishers change who has authority. -/
theorem Steps.sameAuthority {allow : Kind → Prop} (ha : ¬ allow .authority) {impl impl' : Impl}
    (h : Steps allow impl impl') : SameAuthority impl impl' := by
  refine h.invariant (P := SameAuthority impl) (fun _ _ _ hsame h => h.trans (hsame.resolve_left ha))
    (fun _ base binding t _ _ hcount h => h.trans ?_) (fun link t t' hstep h => h.trans ?_)
    (.refl impl)
  · obtain ⟨_, _, _, _, _, -, -, heq⟩ := hcount.bind_eq
    rw [heq]
    exact ⟨fun _ => rfl, rfl, rfl, rfl⟩
  · exact ⟨hstep.frame.authority.publishers, hstep.frame.authority.epoch,
      hstep.frame.authority.fencedBoots, hstep.frame.authority.fences⟩

/-! ## Standing -/

/-- Where a publisher stands with an engine: its authority, and its boots that are remembered as
fenced. -/
structure Standing where
  authority : Option PublisherAuthority
  fenced : List WorkerBootId

def Impl.standing (impl : Impl) (publisher : PublisherId) : Standing where
  authority := (impl.store.publishers.lookup publisher).map (·.core)
  fenced := impl.fencedBoots publisher

theorem SameAuthority.standing {impl impl' : Impl} (h : SameAuthority impl impl')
    (publisher : PublisherId) : impl'.standing publisher = impl.standing publisher := by
  unfold Impl.standing Impl.fencedBoots
  rw [h.publishers, h.fencedBoots]

/-- An authorization does not read the tallies of a publisher. -/
theorem SameAuthority.authorize {impl impl' : Impl} (h : SameAuthority impl impl')
    (publisher : PublisherId) (boot : WorkerBootId) (source : SourceId) (epoch : CoordinatorEpoch)
    (link : LinkId) (binding : TopologyBinding) :
    LinkState.authorize impl'.store publisher boot source epoch impl'.epoch link binding =
      LinkState.authorize impl.store publisher boot source epoch impl.epoch link binding := by
  have hcore := h.publishers publisher
  unfold LinkState.authorize
  rw [h.epoch]
  cases hlookup : impl.store.publishers.lookup publisher with
  | none =>
    rw [hlookup, Option.map_none, Option.map_eq_none_iff] at hcore
    rw [hcore]
  | some authority =>
    rw [hlookup, Option.map_some, Option.map_eq_some_iff] at hcore
    obtain ⟨authority', hlookup', hcore⟩ := hcore
    obtain ⟨_, _, _, _, _, _, _, _, _⟩ := authority
    obtain ⟨_, _, _, _, _, _, _, _, _⟩ := authority'
    simp only [PublisherAuthority.core, PublisherAuthority.mk.injEq, and_true] at hcore
    obtain ⟨rfl, rfl, rfl, rfl, rfl, rfl, rfl⟩ := hcore
    rw [hlookup']

theorem Impl.standing_authority {impl : Impl} {publisher : PublisherId}
    {authority : PublisherAuthority} (h : impl.store.publishers.lookup publisher = some authority) :
    (impl.standing publisher).authority = some authority.core := by
  unfold standing
  rw [h]
  rfl

theorem standing_putAuthority (impl : Impl) (publisher p : PublisherId)
    (authority : PublisherAuthority) : (impl.putAuthority publisher authority).standing p =
      if p = publisher then { impl.standing p with authority := some authority.core }
      else impl.standing p := by
  unfold Impl.putAuthority Impl.standing Impl.fencedBoots
  split
  · rename_i hp
    rw [hp, Finmap.lookup_insert]
    rfl
  · rename_i hp
    rw [Finmap.lookup_insert_of_ne _ hp]

/-- The fence of an incarnation. -/
def Standing.fence (s : Standing) (cap : Nat) (boot : WorkerBootId) (status : AuthorityStatus) :
    Standing where
  authority := s.authority.map fun authority => { authority with status }
  fenced := if boot.valid then rememberBoot cap s.fenced boot else s.fenced

theorem standing_noteFence (impl : Impl) (publisher p : PublisherId) (boot : WorkerBootId)
    (status : AuthorityStatus) (reason : Text) :
    (impl.noteFence publisher boot status reason).standing p =
      if p = publisher then
        (impl.standing p).fence impl.config.fenceRetentionPerPublisher boot status
      else impl.standing p := by
  have hremember : (impl.rememberFencedBoot publisher boot).standing p =
      if p = publisher then
        { impl.standing p with
          fenced := rememberBoot impl.config.fenceRetentionPerPublisher (impl.fencedBoots p) boot }
      else impl.standing p := by
    unfold Impl.rememberFencedBoot Impl.standing Impl.fencedBoots
    split
    · rename_i hp
      rw [hp]
      simp only [Finmap.lookup_insert, Option.getD_some]
    · rename_i hp
      simp only [Finmap.lookup_insert_of_ne _ hp]
  have hstatus (impl : Impl) : (impl.setAuthorityStatus publisher status).standing p =
      if p = publisher then
        { impl.standing p with
          authority := (impl.standing p).authority.map fun authority => { authority with status } }
      else impl.standing p := by
    unfold Impl.setAuthorityStatus
    split
    · rename_i hnone
      split
      · rename_i hp
        unfold Impl.standing
        rw [hp, hnone]
        rfl
      · rfl
    · rename_i authority hauthority
      rw [standing_putAuthority]
      split
      · rename_i hp
        rw [hp, Impl.standing_authority hauthority]
        rfl
      · rfl
  have hrecord (impl : Impl) (fence : PublisherFence) :
      (impl.recordFence fence).standing p = impl.standing p := rfl
  -- The boot is remembered before the status is set; the record of the fence is apart from both.
  unfold Impl.noteFence
  dsimp only
  rw [hrecord, hstatus]
  unfold Standing.fence
  cases hv : boot.valid with
  | false => simp
  | true =>
    simp only [if_true]
    rw [hremember]
    split <;> rfl

theorem fencePublisher_sameAuthority (impl : Impl) (publisher : PublisherId) (boot : WorkerBootId)
    (allBoots : Bool) (status : AuthorityStatus) (reason : Text) :
    SameAuthority (impl.noteFence publisher boot status reason)
      (impl.fencePublisher publisher boot allBoots status reason) :=
  have hpurge : Steps (fun _ => False) (impl.noteFence publisher boot status reason) _ :=
    purgePublisher_steps _ publisher boot allBoots reason
  (hpurge.sameAuthority id).trans (releasePublisher_sameAuthority _ publisher)

/-- A fence concerns the standing of its publisher alone. -/
theorem standing_fencePublisher (impl : Impl) (publisher p : PublisherId) (boot : WorkerBootId)
    (allBoots : Bool) (status : AuthorityStatus) (reason : Text) :
    (impl.fencePublisher publisher boot allBoots status reason).standing p =
      if p = publisher then
        (impl.standing p).fence impl.config.fenceRetentionPerPublisher boot status
      else impl.standing p := by
  rw [(fencePublisher_sameAuthority ..).standing, standing_noteFence]

theorem fencePublisher_epoch (impl : Impl) (publisher : PublisherId) (boot : WorkerBootId)
    (allBoots : Bool) (status : AuthorityStatus) (reason : Text) :
    (impl.fencePublisher publisher boot allBoots status reason).epoch = impl.epoch := by
  rw [(fencePublisher_sameAuthority ..).epoch]
  unfold Impl.noteFence Impl.setAuthorityStatus
  dsimp only
  split <;> split <;> rfl

/-! ## What becomes of a publisher -/

/-- A registration that passes every check of `register_publisher` before the publisher is looked
up. -/
def Impl.enrols (impl : Impl) (registration : PublisherRegistration) : Bool :=
  registration.publisher.valid && registration.workerBoot.valid && registration.source.valid &&
    registration.scope.normalize.isSome && registration.epoch = impl.epoch &&
    !impl.bootIsFenced registration.publisher registration.workerBoot

/-- An invalidation that passes every check of `invalidate_publisher`. -/
def Impl.invalidates (impl : Impl) (request : InvalidatePublisherRequest)
    (authority : PublisherAuthority) : Bool :=
  request.publisher.valid && !request.workerBoot.any (· ≠ authority.workerBoot) &&
    authority.status = .active && request.epoch = impl.epoch

/-- Whether an operation ends an incarnation of a publisher: by a registration under another boot,
by an invalidation, or because its epoch is over. -/
def Impl.endsIncarnation (impl : Impl) (publisher : PublisherId) :
    Op → PublisherAuthority → Bool
  | .registerPublisher request, authority =>
    request.registration.publisher = publisher && impl.enrols request.registration &&
      authority.workerBoot ≠ request.registration.workerBoot
  | .invalidatePublisher request, authority =>
    request.publisher = publisher && impl.invalidates request authority
  | .advanceCoordinatorEpoch request, authority =>
    impl.epoch < request.newEpoch && authority.epoch < request.newEpoch
  | _, _ => false

/-- The boot of a publisher that an operation fences. -/
def Impl.fences (impl : Impl) (publisher : PublisherId) (op : Op) : Option WorkerBootId :=
  ((impl.store.publishers.lookup publisher).filter (impl.endsIncarnation publisher op)).map
    (·.workerBoot)

/-- What an operation can do to the standing of a publisher, with the boot that it fences. -/
inductive Standing.Step (cap : Nat) (s : Standing) : Option WorkerBootId → Standing → Prop
  | stay : Step cap s none s
  | enrol (authority : PublisherAuthority) (hnone : s.authority = none)
    (hvalid : authority.workerBoot.valid = true) (hnew : authority.workerBoot ∉ s.fenced) :
    Step cap s none { s with authority := some authority }
  | refresh {authority : PublisherAuthority} (authority' : PublisherAuthority)
    (h : s.authority = some authority) (hboot : authority'.workerBoot = authority.workerBoot)
    (hstatus : authority'.status = authority.status) :
    Step cap s none { s with authority := some authority' }
  | fence {authority : PublisherAuthority} (status : AuthorityStatus)
    (h : s.authority = some authority) (hstatus : status ≠ .active) :
    Step cap s (some authority.workerBoot) (s.fence cap authority.workerBoot status)
  | replace {authority : PublisherAuthority} (authority' : PublisherAuthority)
    (h : s.authority = some authority) (hvalid : authority'.workerBoot.valid = true)
    (hboot : authority'.workerBoot ≠ authority.workerBoot)
    (hnew : authority'.workerBoot ∉ s.fenced) :
    Step cap s (some authority.workerBoot)
      { s.fence cap authority.workerBoot .superseded with authority := some authority' }

section Apply

variable (impl : Impl) (publisher : PublisherId)

theorem registerPublisher_of_not_enrols {request : RegisterPublisherRequest}
    (h : impl.enrols request.registration = false) :
    (impl.registerPublisher request).1 = impl ∧
      (impl.registerPublisher request).2.outcome.isError = true := by
  unfold Impl.registerPublisher
  dsimp only
  split
  · exact ⟨rfl, rfl⟩
  rename_i hids
  split
  · exact ⟨rfl, rfl⟩
  rename_i scope hscope
  split
  · exact ⟨rfl, rfl⟩
  rename_i hepoch
  split
  · exact ⟨rfl, rfl⟩
  rename_i hfenced
  simp only [Bool.or_eq_true, Bool.not_eq_true', not_or, Bool.not_eq_false] at hids
  unfold Impl.enrols at h
  simp [hids, hscope, not_not.mp hepoch, hfenced] at h

theorem registerPublisher_of_enrols {request : RegisterPublisherRequest}
    (h : impl.enrols request.registration = true) :
    ∃ scope, impl.registerPublisher request =
      impl.admitRegistration { request.registration with scope } := by
  unfold Impl.enrols at h
  simp only [Bool.and_eq_true, Bool.not_eq_true', decide_eq_true_eq, Option.isSome_iff_exists] at h
  obtain ⟨⟨⟨⟨⟨hp, hb⟩, hs⟩, scope, hscope⟩, hepoch⟩, hfenced⟩ := h
  refine ⟨scope, ?_⟩
  unfold Impl.registerPublisher
  simp [hp, hb, hs, hscope, hepoch, hfenced]

theorem invalidatePublisher_cases (request : InvalidatePublisherRequest) :
    ((impl.invalidatePublisher request).1 = impl ∧
      ∀ authority, impl.store.publishers.lookup request.publisher = some authority →
        impl.invalidates request authority = false) ∨
    ∃ authority reason, impl.store.publishers.lookup request.publisher = some authority ∧
      impl.invalidates request authority = true ∧ (impl.invalidatePublisher request).1 =
        impl.fencePublisher request.publisher authority.workerBoot true .fenced reason := by
  unfold Impl.invalidatePublisher Impl.invalidates
  split
  · rename_i hv
    exact .inl ⟨rfl, fun a _ => by simp at hv; simp [hv]⟩
  rename_i hv
  split
  · rename_i hnone
    exact .inl ⟨rfl, fun a ha => by rw [hnone] at ha; cases ha⟩
  rename_i authority hauthority
  split
  · rename_i hboot
    refine .inl ⟨rfl, fun a ha => ?_⟩
    cases hauthority.symm.trans ha
    simp only [hboot, Bool.not_true, Bool.and_false, Bool.false_and]
  rename_i hboot
  split
  · rename_i hstatus
    refine .inl ⟨rfl, fun a ha => ?_⟩
    cases hauthority.symm.trans ha
    simp [hstatus]
  rename_i hstatus
  split
  · rename_i hepoch
    exact .inl ⟨rfl, fun a ha => by simp [hepoch]⟩
  rename_i hepoch
  -- All five guards have passed.
  refine .inr ⟨authority, _, hauthority, ?_, rfl⟩
  rw [Bool.not_eq_true] at hboot
  simp only [hboot, not_not.mp hepoch, not_not.mp hstatus]
  simpa using hv

theorem admitRegistration_standing (registration : PublisherRegistration)
    {authority : PublisherAuthority} (hvalid : registration.workerBoot.valid = true)
    (hnew : registration.workerBoot ∉ impl.fencedBoots registration.publisher)
    (hauthority : impl.store.publishers.lookup registration.publisher = some authority) :
    Standing.Step impl.config.fenceRetentionPerPublisher (impl.standing registration.publisher)
      (if authority.workerBoot = registration.workerBoot then none else some authority.workerBoot)
      ((impl.admitRegistration registration).1.standing registration.publisher) := by
  have hstanding := Impl.standing_authority hauthority
  unfold Impl.admitRegistration
  rw [hauthority]
  dsimp only
  split
  · split
    · exact .stay
    · rw [standing_putAuthority, if_pos rfl]
      exact .refresh _ hstanding rfl rfl
  · rename_i hboot
    show Standing.Step _ _ (some authority.core.workerBoot) _
    unfold Impl.supersedeBoot
    dsimp only
    split
    · rw [standing_fencePublisher, if_pos rfl]
      exact .fence .superseded hstanding (by decide)
    · rw [standing_putAuthority, if_pos rfl, standing_fencePublisher, if_pos rfl]
      exact .replace _ hstanding hvalid (Ne.symm hboot) hnew

theorem admitRegistration_standing_new (registration : PublisherRegistration)
    (hvalid : registration.workerBoot.valid = true)
    (hnew : registration.workerBoot ∉ impl.fencedBoots registration.publisher)
    (hnone : impl.store.publishers.lookup registration.publisher = none) :
    Standing.Step impl.config.fenceRetentionPerPublisher (impl.standing registration.publisher)
      none ((impl.admitRegistration registration).1.standing registration.publisher) := by
  unfold Impl.admitRegistration
  rw [hnone]
  dsimp only
  split
  · exact .stay
  · rw [standing_putAuthority, if_pos rfl]
    refine .enrol _ ?_ hvalid hnew
    unfold Impl.standing
    rw [hnone]
    rfl

/-- A registration is none of another publisher's business. -/
theorem admitRegistration_standing_of_ne {registration : PublisherRegistration}
    (hp : publisher ≠ registration.publisher) :
    (impl.admitRegistration registration).1.standing publisher = impl.standing publisher := by
  unfold Impl.admitRegistration
  split
  · split
    · split
      · rfl
      · rw [standing_putAuthority, if_neg hp]
    · unfold Impl.supersedeBoot
      dsimp only
      split
      · rw [standing_fencePublisher, if_neg hp]
      · rw [standing_putAuthority, if_neg hp, standing_fencePublisher, if_neg hp]
  · split
    · rfl
    · rw [standing_putAuthority, if_neg hp]

/-- The standing of a publisher when its epoch is over. -/
def Standing.endEpoch (s : Standing) (cap : Nat) : Standing :=
  match s.authority with
  | none => s
  | some authority => s.fence cap authority.workerBoot .epochSuperseded

theorem standing_fenceStale (p : PublisherId) : (impl.fenceStale p).standing publisher =
    if publisher = p then (impl.standing publisher).endEpoch impl.config.fenceRetentionPerPublisher
    else impl.standing publisher := by
  unfold Impl.fenceStale Standing.endEpoch
  split
  · rename_i hnone
    split
    · rename_i hp
      have : (impl.standing publisher).authority = none := by
        unfold Impl.standing
        rw [hp, hnone]
        rfl
      rw [this]
    · rfl
  · rename_i authority hauthority
    rw [standing_fencePublisher]
    split
    · rename_i hp
      rw [hp, Impl.standing_authority hauthority]
      rfl
    · rfl

theorem fenceStale_config (p : PublisherId) : (impl.fenceStale p).config = impl.config :=
  have hsteps : Steps (fun _ => True) impl (impl.fenceStale p) := fenceStale_steps impl trivial p
  hsteps.le.config

theorem standing_foldl_fenceStale (stale : List PublisherId) (hnodup : stale.Nodup) :
    (stale.foldl Impl.fenceStale impl).standing publisher =
      if publisher ∈ stale then
        (impl.standing publisher).endEpoch impl.config.fenceRetentionPerPublisher
      else impl.standing publisher := by
  induction stale generalizing impl with
  | nil => rfl
  | cons p stale ih =>
    rw [List.nodup_cons] at hnodup
    rw [List.foldl_cons, ih _ hnodup.2, standing_fenceStale, fenceStale_config]
    by_cases hp : publisher = p
    · subst hp
      rw [if_neg hnodup.1, if_pos rfl, if_pos (by simp)]
    · simp [hp]

theorem mem_stalePublishers : publisher ∈ impl.stalePublishers ↔
    ∃ authority, impl.store.publishers.lookup publisher = some authority ∧
      authority.epoch < impl.epoch := by
  unfold Impl.stalePublishers
  rw [mem_listing, Finset.mem_filter, Finmap.mem_keys]
  constructor
  · rintro ⟨-, h⟩
    cases hauthority : impl.store.publishers.lookup publisher with
    | none => rw [hauthority] at h; cases h
    | some authority =>
      rw [hauthority] at h
      exact ⟨authority, rfl, by simpa using h⟩
  · rintro ⟨authority, hauthority, hlt⟩
    exact ⟨Finmap.mem_of_lookup_eq_some hauthority, by simp [hauthority, hlt]⟩

theorem nodup_stalePublishers : impl.stalePublishers.Nodup := nodup_listing _

theorem fences_of_lookup {authority : PublisherAuthority}
    (h : impl.store.publishers.lookup publisher = some authority) (op : Op) :
    impl.fences publisher op =
      if impl.endsIncarnation publisher op authority then some authority.workerBoot else none := by
  unfold Impl.fences
  rw [h, Option.filter_some]
  split <;> rfl

theorem fences_eq_none {op : Op} (hends : ∀ authority,
    impl.store.publishers.lookup publisher = some authority →
      impl.endsIncarnation publisher op authority = false) : impl.fences publisher op = none := by
  cases h : impl.store.publishers.lookup publisher with
  | none => unfold Impl.fences; rw [h]; rfl
  | some authority => rw [fences_of_lookup impl publisher h, hends authority h]; rfl

/-- A registration fences the boot that it replaces. -/
theorem fences_registerPublisher (request : RegisterPublisherRequest) :
    impl.fences publisher (.registerPublisher request) =
      if request.registration.publisher = publisher ∧ impl.enrols request.registration = true then
        ((impl.store.publishers.lookup publisher).filter
          (·.workerBoot ≠ request.registration.workerBoot)).map (·.workerBoot)
      else none := by
  split
  · rename_i h
    unfold Impl.fences
    refine congrArg _ (congrArg (Option.filter · _) (funext fun authority => ?_))
    simp [Impl.endsIncarnation, h.1, h.2]
  · rename_i h
    refine fences_eq_none impl publisher fun authority _ => ?_
    simp only [Impl.endsIncarnation, Bool.and_eq_false_iff, decide_eq_false_iff_not]
    rw [not_and_or, Bool.not_eq_true] at h
    exact .inl h

/-- An invalidation fences the boot of its publisher, or does nothing. -/
theorem invalidatePublisher_fences (request : InvalidatePublisherRequest) :
    ((impl.invalidatePublisher request).1 = impl ∧
      ∀ p, impl.fences p (.invalidatePublisher request) = none) ∨
    ∃ authority reason, impl.store.publishers.lookup request.publisher = some authority ∧
      (impl.invalidatePublisher request).1 =
        impl.fencePublisher request.publisher authority.workerBoot true .fenced reason ∧
      ∀ p, impl.fences p (.invalidatePublisher request) =
        if p = request.publisher then some authority.workerBoot else none := by
  rcases invalidatePublisher_cases impl request with ⟨heq, hends⟩ | ⟨authority, reason, h, hi, heq⟩
  · refine .inl ⟨heq, fun p => fences_eq_none impl p fun a ha => ?_⟩
    by_cases hp : request.publisher = p
    · subst hp
      simp [Impl.endsIncarnation, hends a ha]
    · simp [Impl.endsIncarnation, hp]
  · refine .inr ⟨authority, reason, h, heq, fun p => ?_⟩
    split
    · rename_i hp
      subst hp
      rw [fences_of_lookup impl _ h, if_pos (by simp [Impl.endsIncarnation, hi])]
    · rename_i hp
      exact fences_eq_none impl p fun a _ => by simp [Impl.endsIncarnation, Ne.symm hp]

/-- An advance of the epoch fences the publishers of an older epoch. -/
theorem fences_advanceCoordinatorEpoch (request : AdvanceEpochRequest) :
    impl.fences publisher (.advanceCoordinatorEpoch request) =
      if impl.epoch < request.newEpoch ∧
          publisher ∈ ({ impl with epoch := request.newEpoch } : Impl).stalePublishers then
        (impl.standing publisher).authority.map (·.workerBoot)
      else none := by
  split
  · rename_i h
    obtain ⟨authority, hauthority, hepoch⟩ := (mem_stalePublishers _ _).mp h.2
    have hauthority : impl.store.publishers.lookup publisher = some authority := hauthority
    rw [fences_of_lookup impl _ hauthority, Impl.standing_authority hauthority,
      if_pos (by simp [Impl.endsIncarnation, h.1]; exact hepoch)]
    rfl
  · rename_i h
    refine fences_eq_none impl publisher fun authority hauthority => ?_
    simp only [Impl.endsIncarnation, Bool.and_eq_false_iff, decide_eq_false_iff_not]
    by_contra hnot
    rw [not_or, not_not, not_not] at hnot
    exact h ⟨hnot.1, (mem_stalePublishers _ _).mpr ⟨authority, hauthority, hnot.2⟩⟩

/-- Every operation but a load takes each publisher one step. -/
theorem apply_standing {op : Op} (hload : op.isLoad = false) :
    Standing.Step impl.config.fenceRetentionPerPublisher (impl.standing publisher)
      (impl.fences publisher op) ((impl.apply op).standing publisher) := by
  have hstay {impl' : Impl} (hstanding : impl'.standing publisher = impl.standing publisher)
      (hnone : impl.fences publisher op = none) :
      Standing.Step impl.config.fenceRetentionPerPublisher (impl.standing publisher)
        (impl.fences publisher op) (impl'.standing publisher) := by
    rw [hnone, hstanding]
    exact .stay
  cases op with
  | registerPublisher request =>
    show Standing.Step _ _ _ ((impl.registerPublisher request).1.standing publisher)
    cases henrols : impl.enrols request.registration with
    | false =>
      refine hstay (by rw [(registerPublisher_of_not_enrols impl henrols).1]) ?_
      rw [fences_registerPublisher, henrols, if_neg (by simp)]
    | true =>
      obtain ⟨scope, heq⟩ := registerPublisher_of_enrols impl henrols
      rw [heq]
      by_cases hp : request.registration.publisher = publisher
      · subst hp
        rw [fences_registerPublisher, if_pos ⟨rfl, henrols⟩]
        have hchecks := henrols
        simp only [Impl.enrols, Impl.bootIsFenced, Bool.and_eq_true, Bool.not_eq_true',
          decide_eq_false_iff_not] at hchecks
        cases h : impl.store.publishers.lookup request.registration.publisher with
        | none =>
          exact admitRegistration_standing_new impl { request.registration with scope }
            hchecks.1.1.1.1.2 hchecks.2 h
        | some authority =>
          have hstep := admitRegistration_standing impl { request.registration with scope }
            hchecks.1.1.1.1.2 hchecks.2 h
          rw [Option.filter_some]
          -- The same boot refreshes its registration; another one supersedes the boot before it.
          by_cases hboot : authority.workerBoot = request.registration.workerBoot
          · rw [if_neg (by simp [hboot])]
            rw [if_pos hboot] at hstep
            exact hstep
          · rw [if_pos (by simp [hboot])]
            rw [if_neg hboot] at hstep
            exact hstep
      · refine hstay (admitRegistration_standing_of_ne impl publisher (Ne.symm hp)) ?_
        rw [fences_registerPublisher, if_neg fun h => hp h.1]
  | invalidatePublisher request =>
    show Standing.Step _ _ _ ((impl.invalidatePublisher request).1.standing publisher)
    rcases invalidatePublisher_fences impl request with ⟨heq, hnone⟩ |
      ⟨authority, reason, h, heq, hfences⟩
    · exact hstay (by rw [heq]) (hnone publisher)
    · rw [heq, standing_fencePublisher, hfences]
      split
      · rename_i hp
        subst hp
        show Standing.Step _ _ (some authority.core.workerBoot) _
        exact .fence .fenced (Impl.standing_authority h) (by decide)
      · exact .stay
  | advanceCoordinatorEpoch request =>
    show Standing.Step _ _ _ ((impl.advanceCoordinatorEpoch request).1.standing publisher)
    have hfences := fences_advanceCoordinatorEpoch impl publisher request
    unfold Impl.advanceCoordinatorEpoch
    split
    · rename_i hlt
      exact hstay rfl (hfences.trans (if_neg fun h => hlt.asymm h.1))
    split
    · rename_i heq
      exact hstay rfl (hfences.trans (if_neg fun h => h.1.ne' heq))
    rename_i hle hne
    have hlt : impl.epoch < request.newEpoch := lt_of_le_of_ne (not_lt.mp hle) (Ne.symm hne)
    dsimp only
    -- No publisher is listed twice, so that the loop fences each at most once.
    rw [standing_foldl_fenceStale _ _ _ (nodup_stalePublishers _)]
    split
    · rename_i hstale
      obtain ⟨authority, h, -⟩ := (mem_stalePublishers _ _).mp hstale
      have hstanding := @Impl.standing_authority impl _ _ h
      rw [hfences, if_pos ⟨hlt, hstale⟩]
      show Standing.Step _ _ _
        ((impl.standing publisher).endEpoch impl.config.fenceRetentionPerPublisher)
      unfold Standing.endEpoch
      rw [hstanding]
      exact .fence .epochSuperseded hstanding (by decide)
    · rename_i hstale
      exact hstay rfl (hfences.trans (if_neg fun h => hstale h.2))
  | load => cases hload
  | _ =>
    exact hstay (((apply_steps impl hload).sameAuthority nofun).standing publisher)
      (fences_eq_none impl publisher fun _ _ => rfl)

end Apply

/-! ## Facts about authority -/

/-- A publisher may be given an authority: it has identities, and is known or has room. -/
structure Impl.MayEnrol (impl : Impl) (publisher : PublisherId) (authority : PublisherAuthority) :
    Prop where
  publisher_valid : publisher.valid = true
  workerBoot : authority.workerBoot.valid = true
  room : publisher ∈ impl.store.publishers ∨
    impl.store.publishers.keys.card < impl.config.maxPublishers

/-- The reasons for which an operation fences. -/
inductive Op.FenceReason (op : Op) : Text → Prop
  | superseded (boot : WorkerBootId) : FenceReason op (lit "superseded by worker boot " ++ boot.value)
  | epoch (epoch : CoordinatorEpoch) :
    FenceReason op (lit "coordinator epoch advanced to " ++ epoch.text)
  | invalidated (request : InvalidatePublisherRequest) (h : op = .invalidatePublisher request) :
    FenceReason op (withReason (lit "publisher invalidated") request.reason)

section Invariant

variable {op : Op} {P : Impl → Prop} (hsame : ∀ {impl impl' : Impl}, SameAuthority impl impl' →
    impl'.config = impl.config → P impl → P impl')
  (hput : ∀ {impl : Impl} {publisher : PublisherId} {authority : PublisherAuthority},
    impl.MayEnrol publisher authority → P impl → P (impl.putAuthority publisher authority))
  (hnote : ∀ {impl : Impl} {publisher : PublisherId} {authority : PublisherAuthority}
    (status : AuthorityStatus) {reason : Text}, op.FenceReason reason →
    impl.store.publishers.lookup publisher = some authority → P impl →
    P (impl.noteFence publisher authority.workerBoot status reason))

include hsame hnote in
theorem Impl.fencePublisher_authority {impl : Impl} {publisher : PublisherId}
    {authority : PublisherAuthority} (hauthority : impl.store.publishers.lookup publisher =
      some authority) (allBoots : Bool) (status : AuthorityStatus) {reason : Text}
    (hreason : op.FenceReason reason) (h : P impl) :
    P (impl.fencePublisher publisher authority.workerBoot allBoots status reason) := by
  have hsteps : Steps (fun _ => True) impl _ := fencePublisher_steps impl trivial publisher
    authority.workerBoot allBoots status reason
  exact hsame (fencePublisher_sameAuthority impl publisher _ allBoots status reason)
    (hsteps.le.config.trans (noteFence_sameLinks impl publisher _ status reason).config.symm)
    (hnote status hreason hauthority h)

include hsame hput hnote in
theorem Impl.admitRegistration_authority {impl : Impl} {registration : PublisherRegistration}
    (hpublisher : registration.publisher.valid = true)
    (hboot : registration.workerBoot.valid = true) (h : P impl) :
    P (impl.admitRegistration registration).1 := by
  unfold Impl.admitRegistration
  split
  · rename_i authority hauthority
    split
    · rename_i hsameBoot
      split
      · exact h
      · exact hput ⟨hpublisher, hsameBoot ▸ hboot, .inl (Finmap.mem_of_lookup_eq_some hauthority)⟩ h
    · have hfenced := Impl.fencePublisher_authority hsame hnote hauthority true .superseded
        (.superseded registration.workerBoot) h
      unfold Impl.supersedeBoot
      dsimp only
      split
      · exact hfenced
      · refine hput ⟨hpublisher, hboot, .inl ?_⟩ hfenced
        -- The fence of the boot before it has left the publisher registered.
        have hstanding := standing_fencePublisher impl registration.publisher
          registration.publisher authority.workerBoot true .superseded
          (lit "superseded by worker boot " ++ registration.workerBoot.value)
        have hcore := congrArg (fun s => s.authority.isSome) hstanding
        rw [if_pos rfl] at hcore
        unfold Standing.fence Impl.standing at hcore
        simp only [Option.isSome_map, hauthority, Option.isSome_some] at hcore
        exact Finmap.lookup_isSome.mp hcore
  · split
    · exact h
    · rename_i hroom
      exact hput ⟨hpublisher, hboot, .inr (not_le.mp hroom)⟩ h

include hsame hnote in
theorem Impl.foldl_fenceStale_authority (stale : List PublisherId) {impl : Impl} (h : P impl) :
    P (stale.foldl Impl.fenceStale impl) := by
  induction stale generalizing impl with
  | nil => exact h
  | cons publisher stale ih =>
    refine ih ?_
    unfold Impl.fenceStale
    split
    · exact h
    · rename_i hauthority
      exact Impl.fencePublisher_authority hsame hnote hauthority _ _ (.epoch impl.epoch) h

include hsame hput hnote in
/-- What holds of an engine by its authority alone is kept by every operation but a load, if it is
kept when a publisher is given an authority, when one is fenced, and when the epoch changes. -/
theorem Impl.apply_authority (hepoch : ∀ {impl : Impl} (epoch : CoordinatorEpoch), P impl →
      P { impl with epoch }) {impl : Impl} (hload : op.isLoad = false) (h : P impl) :
    P (impl.apply op) := by
  cases op with
  | registerPublisher request =>
    show P (impl.registerPublisher request).1
    cases henrols : impl.enrols request.registration with
    | false =>
      rw [(registerPublisher_of_not_enrols impl henrols).1]
      exact h
    | true =>
      obtain ⟨scope, heq⟩ := registerPublisher_of_enrols impl henrols
      rw [heq]
      simp only [Impl.enrols, Bool.and_eq_true] at henrols
      exact Impl.admitRegistration_authority hsame hput hnote henrols.1.1.1.1.1 henrols.1.1.1.1.2 h
  | invalidatePublisher request =>
    show P (impl.invalidatePublisher request).1
    unfold Impl.invalidatePublisher
    split
    · exact h
    split
    · exact h
    rename_i hauthority
    split
    · exact h
    split
    · exact h
    split
    · exact h
    · exact Impl.fencePublisher_authority hsame hnote hauthority _ _ (.invalidated request rfl) h
  | advanceCoordinatorEpoch request =>
    show P (impl.advanceCoordinatorEpoch request).1
    unfold Impl.advanceCoordinatorEpoch
    split
    · exact h
    split
    · exact h
    · exact Impl.foldl_fenceStale_authority hsame hnote _ (hepoch request.newEpoch h)
  | load => cases hload
  -- The other operations touch no authority.
  | _ =>
    have hsteps := apply_steps impl hload
    exact hsame (hsteps.sameAuthority (by simp [Op.kinds])) hsteps.le.config h

end Invariant

/-! ## Evidence of a fenced publisher -/

/-- A loop that purges links, for a reason that lies in the record alone. -/
theorem purgeLinks_evidence {explain : Explanation} {trigger : TransitionTrigger} {kind : Text}
    (links : List LinkId) (impl : Impl) (link : LinkId) :
    (links.foldl (Impl.purgeLink (fun _ _ => explain) trigger kind) impl).currentEvidence link =
      if link ∈ links then (impl.currentEvidence link).filter fun record => (explain record).isNone
      else impl.currentEvidence link := by
  induction links generalizing impl with
  | nil => rfl
  | cons l links ih =>
    rw [List.foldl_cons, ih]
    cases hentry : impl.entryOf l with
    | none =>
      have hnil : impl.currentEvidence l = [] := by rw [Impl.currentEvidence, hentry]; rfl
      rw [purgeLink_none hentry]
      by_cases hl : link = l
      · subst hl
        simp [hnil]
      · simp [hl]
    | some entry =>
      rw [purgeLink_evidence hentry, ← Impl.currentEvidence_eq hentry]
      by_cases hl : link = l
      · subst hl
        simp [List.filter_filter]
      · simp [hl]

/-- The evidence of a fenced publisher leaves every link, and that of others stays. -/
theorem fencePublisher_evidence {impl : Impl} (hindexed : Indexed impl) (publisher : PublisherId)
    (boot : WorkerBootId) (status : AuthorityStatus) (reason : Text) (link : LinkId) :
    (impl.fencePublisher publisher boot true status reason).currentEvidence link =
      (impl.currentEvidence link).filter (·.publisher ≠ publisher) := by
  have hnote := noteFence_sameLinks impl publisher boot status reason
  have hexplain (record : EvidenceRecord) :
      (explainFence publisher boot true reason record).isNone =
        decide (record.publisher ≠ publisher) := by
    unfold explainFence
    by_cases hp : record.publisher = publisher <;> simp [hp]
  unfold Impl.fencePublisher
  dsimp only
  rw [(releasePublisher_sameLinks _ publisher).currentEvidence, Impl.purgePublisher,
    purgeLinks_evidence, hnote.currentEvidence]
  simp only [hexplain]
  split
  · rfl
  rename_i hfree
  refine (List.filter_eq_self.mpr fun record hrecord => ?_).symm
  rw [decide_eq_true_eq]
  intro hp
  obtain ⟨entry, hentry, hmem⟩ := Impl.mem_currentEvidence.mp hrecord
  have hfiled := hindexed.publisherLinks publisher link ⟨entry, hentry, record, hmem, hp⟩
  refine hfree (mem_listing.mpr (hnote.publisherLinks publisher link hfiled ?_))
  unfold Impl.hasEvidenceOf
  rw [hentry]
  exact List.any_eq_true.mpr ⟨record, hmem, by simpa using hp⟩

/-- Nothing that a fenced publisher published stays current, on any link. -/
theorem fencePublisher_currentEvidence {impl : Impl} (hindexed : Indexed impl)
    {publisher : PublisherId} {boot : WorkerBootId} {status : AuthorityStatus} {reason : Text}
    {link : LinkId} {record : EvidenceRecord}
    (h : record ∈ (impl.fencePublisher publisher boot true status reason).currentEvidence link) :
    record ∈ impl.currentEvidence link ∧ record.publisher ≠ publisher := by
  rw [fencePublisher_evidence hindexed, List.mem_filter, decide_eq_true_eq] at h
  exact h

end LinkState
