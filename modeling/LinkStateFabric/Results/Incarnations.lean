import LinkStateFabric.Engine.Moves
import LinkStateFabric.Engine.Restored
import LinkStateFabric.Results.Authority

/-!
# Incarnations

An incarnation is a publisher with one of its boots. The engine knows the authority of the
incarnation that registered last, and has evidence of active ones only.

* `SameIncarnation`: the authority of an incarnation and its evidence are the same in two engines.
* `invalidatePublisher_same_iff`: an invalidation changes the incarnation that it names, if that is
  active, and no other.
* `apply_origin`: every authority after an operation was there before, or is that of a registration.
  So only a registration makes an incarnation active (`enlists_of_active`), and none outlives the
  epoch of the engine (`idle_of_epoch_ne`).
-/

namespace LinkState

/-- The authority of an incarnation: that of its publisher, if it has registered under that boot. -/
def Impl.authorityOf (impl : Impl) (publisher : PublisherId) (boot : WorkerBootId) :
    Option PublisherAuthority :=
  (impl.standing publisher).authority.filter (·.workerBoot = boot)

/-- The current evidence on a link that an incarnation has published. -/
def Impl.evidenceOf (impl : Impl) (publisher : PublisherId) (boot : WorkerBootId) (link : LinkId) :
    List EvidenceRecord :=
  (impl.currentEvidence link).filter fun record =>
    record.publisher = publisher ∧ record.workerBoot = boot

/-- The incarnation is the active one of its publisher. -/
def Impl.ActiveIncarnation (impl : Impl) (publisher : PublisherId) (boot : WorkerBootId) : Prop :=
  ∃ authority, impl.authorityOf publisher boot = some authority ∧ authority.status = .active

/-- The authority of the incarnation and its evidence are the same. -/
structure SameIncarnation (impl impl' : Impl) (publisher : PublisherId) (boot : WorkerBootId) :
    Prop where
  authority : impl'.authorityOf publisher boot = impl.authorityOf publisher boot
  evidence : ∀ link, impl'.evidenceOf publisher boot link = impl.evidenceOf publisher boot link

section Incarnations

variable {impl impl' impl'' : Impl} {publisher : PublisherId} {boot : WorkerBootId}
  {authority : PublisherAuthority}

theorem SameIncarnation.refl (impl : Impl) (publisher : PublisherId) (boot : WorkerBootId) :
    SameIncarnation impl impl publisher boot := ⟨rfl, fun _ => rfl⟩

theorem SameIncarnation.trans (h : SameIncarnation impl impl' publisher boot)
    (h' : SameIncarnation impl' impl'' publisher boot) : SameIncarnation impl impl'' publisher boot :=
  ⟨h'.authority.trans h.authority, fun link => (h'.evidence link).trans (h.evidence link)⟩

theorem SameIncarnation.active (h : SameIncarnation impl impl' publisher boot) :
    impl'.ActiveIncarnation publisher boot ↔ impl.ActiveIncarnation publisher boot := by
  unfold Impl.ActiveIncarnation
  rw [h.authority]

theorem Impl.authorityOf_eq_some
    (hauthority : impl.store.publishers.lookup publisher = some authority) :
    impl.authorityOf publisher authority.workerBoot = some authority.core := by
  rw [Impl.authorityOf, Impl.standing_authority hauthority]
  exact Option.filter_eq_some_iff.mpr ⟨rfl, decide_eq_true rfl⟩

/-- Only the incarnation that registered last has authority. -/
theorem Impl.authorityOf_eq_none (hauthority : impl.store.publishers.lookup publisher = some authority)
    (hboot : authority.workerBoot ≠ boot) : impl.authorityOf publisher boot = none := by
  rw [Impl.authorityOf, Impl.standing_authority hauthority]
  exact Option.filter_eq_none_iff.mpr fun a ha => by
    cases ha
    exact Bool.eq_false_iff.mp (decide_eq_false hboot)

/-- An incarnation that is not active has no evidence. -/
theorem Impl.Endorsed.evidenceOf (h : impl.Endorsed)
    (hidle : ¬ impl.ActiveIncarnation publisher boot) (link : LinkId) :
    impl.evidenceOf publisher boot link = [] := by
  rw [Impl.evidenceOf, List.filter_eq_nil_iff]
  intro record hrecord hof
  obtain ⟨rfl, rfl⟩ := of_decide_eq_true hof
  obtain ⟨-, authority, hauthority, hstatus, hboot, -⟩ := h link record hrecord
  exact hidle ⟨authority.core, hboot ▸ Impl.authorityOf_eq_some hauthority, hstatus⟩

theorem authorityOf_fencePublisher (status : AuthorityStatus) (reason : Text) :
    (impl.fencePublisher publisher boot true status reason).authorityOf publisher boot =
      (impl.authorityOf publisher boot).map fun authority => { authority with status } := by
  unfold Impl.authorityOf
  rw [standing_fencePublisher, if_pos rfl]
  unfold Standing.fence
  cases (impl.standing publisher).authority with
  | none => rfl
  | some authority =>
    rw [Option.map_some, Option.filter_some, Option.filter_some]
    split <;> rfl

/-- A fence leaves every other incarnation alone. -/
theorem fencePublisher_same (hindexed : Indexed impl) (hendorsed : impl.Endorsed)
    {p : PublisherId} (hauthority : impl.store.publishers.lookup p = some authority)
    (status : AuthorityStatus) (reason : Text)
    (hother : (publisher, boot) ≠ (p, authority.workerBoot)) :
    SameIncarnation impl (impl.fencePublisher p authority.workerBoot true status reason)
      publisher boot := by
  by_cases hp : publisher = p
  · subst hp
    have hboot : authority.workerBoot ≠ boot := fun h => hother (by rw [h])
    have hnone := Impl.authorityOf_eq_none hauthority hboot
    -- Another boot of the same publisher is not the one that is registered.
    have hidle : ¬ impl.ActiveIncarnation publisher boot := by
      rintro ⟨a, ha, -⟩
      rw [hnone] at ha
      cases ha
    refine ⟨?_, fun link => ?_⟩
    · rw [hnone, Impl.authorityOf, standing_fencePublisher, if_pos rfl]
      unfold Standing.fence
      rw [Impl.standing_authority hauthority]
      exact Option.filter_eq_none_iff.mpr fun a ha => by
        cases ha
        exact Bool.eq_false_iff.mp (decide_eq_false hboot)
    · rw [hendorsed.evidenceOf hidle, Impl.evidenceOf, fencePublisher_evidence hindexed,
        List.filter_filter, List.filter_eq_nil_iff]
      intro record _ h
      simp at h
      exact h.2 h.1.1
  · refine ⟨?_, fun link => ?_⟩
    · rw [Impl.authorityOf, standing_fencePublisher, if_neg hp]
      rfl
    · unfold Impl.evidenceOf
      rw [fencePublisher_evidence hindexed, List.filter_filter]
      refine List.filter_congr fun record _ => ?_
      by_cases hrecord : record.publisher = publisher <;> simp [hrecord, hp]

/-- An invalidation that passes its checks ends the incarnation that it names. -/
theorem invalidatePublisher_ends {request : InvalidatePublisherRequest}
    (hauthority : impl.store.publishers.lookup request.publisher = some authority)
    (hinvalidates : impl.invalidates request authority = true) :
    (impl.invalidatePublisher request).1.authorityOf request.publisher authority.workerBoot =
      some { authority.core with status := .fenced } := by
  rcases invalidatePublisher_cases impl request with ⟨-, hnone⟩ | ⟨a, reason, ha, -, heq⟩
  · rw [hnone authority hauthority] at hinvalidates
    cases hinvalidates
  · cases hauthority.symm.trans ha
    rw [heq, authorityOf_fencePublisher, Impl.authorityOf_eq_some hauthority]
    rfl

/-- An invalidation changes an incarnation exactly where it passes its checks for that one. -/
theorem invalidatePublisher_same_iff (hindexed : Indexed impl) (hendorsed : impl.Endorsed)
    (request : InvalidatePublisherRequest) :
    SameIncarnation impl (impl.invalidatePublisher request).1 publisher boot ↔
      ¬ (publisher = request.publisher ∧ ∃ authority,
        impl.store.publishers.lookup request.publisher = some authority ∧
        authority.workerBoot = boot ∧ impl.invalidates request authority = true) := by
  constructor
  · rintro hsame ⟨rfl, authority, hauthority, rfl, hinvalidates⟩
    have hauthorityOf := hsame.authority
    rw [invalidatePublisher_ends hauthority hinvalidates, Impl.authorityOf_eq_some hauthority]
      at hauthorityOf
    have hactive : authority.status = .active := by
      unfold Impl.invalidates at hinvalidates
      simp only [Bool.and_eq_true, decide_eq_true_eq] at hinvalidates
      exact hinvalidates.1.2
    have hstatus := congrArg (·.status) (Option.some.inj hauthorityOf)
    have hfenced : AuthorityStatus.fenced = authority.status := hstatus
    rw [hactive] at hfenced
    cases hfenced
  · intro hnone
    rcases invalidatePublisher_cases impl request with ⟨heq, -⟩ | ⟨a, reason, ha, hinvalidates, heq⟩
    · rw [heq]
      exact .refl ..
    · rw [heq]
      refine fencePublisher_same hindexed hendorsed ha _ _ fun h => hnone ?_
      cases h
      exact ⟨rfl, a, ha, rfl, hinvalidates⟩

end Incarnations

/-! ## What becomes of an authority -/

section Origins

variable {impl : Impl}

theorem Impl.activeIncarnation_iff {publisher : PublisherId} {boot : WorkerBootId} :
    impl.ActiveIncarnation publisher boot ↔ ∃ authority,
      (impl.standing publisher).authority = some authority ∧ authority.workerBoot = boot ∧
        authority.status = .active := by
  unfold Impl.ActiveIncarnation Impl.authorityOf
  constructor
  · rintro ⟨authority, h, hactive⟩
    obtain ⟨hstanding, hboot⟩ := Option.filter_eq_some_iff.mp h
    exact ⟨authority, hstanding, of_decide_eq_true hboot, hactive⟩
  · rintro ⟨authority, hstanding, hboot, hactive⟩
    exact ⟨authority, Option.filter_eq_some_iff.mpr ⟨hstanding, decide_eq_true hboot⟩, hactive⟩

/-- The operation is a registration of the incarnation, which is accepted. -/
def Impl.Enlists (impl : Impl) (op : Op) (publisher : PublisherId) (boot : WorkerBootId) : Prop :=
  ∃ request, op = .registerPublisher request ∧
    (impl.registerPublisher request).2.outcome.isError = false ∧
    request.registration.publisher = publisher ∧ request.registration.workerBoot = boot

/-- Where the authority of a publisher comes from after an operation: it was there, and is active
only as the incarnation that it was, or it is that of a registration. -/
inductive Impl.Origin (impl : Impl) (op : Op) (publisher : PublisherId)
    (authority' : PublisherAuthority) : Prop
  | kept {authority : PublisherAuthority} (h : (impl.standing publisher).authority = some authority)
    (hepoch : authority'.epoch = authority.epoch)
    (hactive : authority'.status = .active →
      authority'.workerBoot = authority.workerBoot ∧ authority.status = .active)
  | registered (hepoch : authority'.epoch = impl.epoch)
    (h : impl.Enlists op publisher authority'.workerBoot)

section Origin

variable {op : Op} {publisher : PublisherId} {authority' : PublisherAuthority}

theorem Impl.Origin.of_same {impl' : Impl}
    (hsame : (impl'.standing publisher).authority = (impl.standing publisher).authority)
    (h : (impl'.standing publisher).authority = some authority') :
    impl.Origin op publisher authority' :=
  .kept (hsame.symm.trans h) rfl fun hactive => ⟨rfl, hactive⟩

/-- A fence leaves no authority active. -/
theorem Impl.Origin.of_fence {s : Standing} {cap : Nat} {boot : WorkerBootId}
    {status : AuthorityStatus} (hs : (s.fence cap boot status).authority = some authority')
    (hstanding : s = impl.standing publisher) (hstatus : status ≠ .active) :
    impl.Origin op publisher authority' := by
  subst hstanding
  obtain ⟨authority, hauthority, rfl⟩ := Option.map_eq_some_iff.mp hs
  exact .kept hauthority rfl fun hactive => absurd hactive hstatus

theorem admitRegistration_origin (registration : PublisherRegistration)
    (hadmits : (impl.admitRegistration registration).2.outcome.isError = false →
      impl.Enlists op registration.publisher registration.workerBoot)
    (h : ((impl.admitRegistration registration).1.standing publisher).authority = some authority') :
    impl.Origin op publisher authority' := by
  rcases ne_or_eq publisher registration.publisher with hp | rfl
  · exact .of_same (congrArg (·.authority) (admitRegistration_standing_of_ne impl publisher hp)) h
  unfold Impl.admitRegistration at h hadmits
  split at h <;> rename_i hauthority <;> rw [hauthority] at hadmits <;> dsimp only at hadmits
  · rename_i authority
    have hstanding := Impl.standing_authority hauthority
    split at h <;> rename_i hboot
    · split at h <;> rename_i hnext
      · exact .of_same rfl h
      · -- a refresh keeps the epoch, the boot and the status
        rw [standing_putAuthority, if_pos rfl] at h
        obtain rfl := Option.some.inj h
        exact .kept hstanding rfl fun hactive => ⟨rfl, hactive⟩
    · rw [if_neg hboot] at hadmits
      unfold Impl.supersedeBoot at h hadmits
      dsimp only at h hadmits
      split at h <;> rename_i hnext <;> rw [hnext] at hadmits <;> dsimp only at hadmits
      -- The counter is exhausted: the old boot is fenced, and the new one has not come in.
      · rw [standing_fencePublisher, if_pos rfl] at h
        exact .of_fence h rfl nofun
      · rw [standing_putAuthority, if_pos rfl] at h
        obtain rfl := Option.some.inj h
        exact .registered (fencePublisher_epoch ..) (hadmits rfl)
  · split at h <;> rename_i hroom
    · exact .of_same rfl h
    · rw [if_neg hroom] at hadmits
      rw [standing_putAuthority, if_pos rfl] at h
      obtain rfl := Option.some.inj h
      exact .registered rfl (hadmits rfl)

/-- A load leaves the engine alone, or leaves nobody registered. -/
theorem load_authority (impl : Impl) (config : PersistenceConfig) (steps : ReadSteps)
    (file : Option Bytes) : (impl.load config steps file).1 = impl ∨
      ∀ publisher, ((impl.load config steps file).1.standing publisher).authority = none := by
  rcases load_cases impl config steps file with ⟨_, -, heq⟩ | ⟨_, payload, _, -, hdecode, heq, -⟩
  · exact .inl (by rw [heq])
  · refine .inr fun publisher => ?_
    unfold Impl.standing
    rw [heq, (recovers_recover impl (decodeJournal_decoded hdecode)).publishers]
    rfl

/-- Every authority after an operation was there before, or is that of a registration. -/
theorem apply_origin (h : ((impl.apply op).standing publisher).authority = some authority') :
    impl.Origin op publisher authority' := by
  have hother (hload : op.isLoad = false) (hkinds : ¬ op.kinds .authority) :
      impl.Origin op publisher authority' :=
    .of_same (congrArg (·.authority)
      (((apply_steps impl hload).sameAuthority hkinds).standing publisher)) h
  cases op with
  | registerPublisher request =>
    replace h : ((impl.registerPublisher request).1.standing publisher).authority = _ := h
    cases henrols : impl.enrols request.registration with
    | false => exact .of_same (by rw [(registerPublisher_of_not_enrols impl henrols).1]) h
    | true =>
      obtain ⟨scope, heq⟩ := registerPublisher_of_enrols impl henrols
      rw [heq] at h
      exact admitRegistration_origin { request.registration with scope }
        (fun hok => ⟨request, rfl, by rwa [heq], rfl, rfl⟩) h
  | invalidatePublisher request =>
    replace h : ((impl.invalidatePublisher request).1.standing publisher).authority = _ := h
    rcases invalidatePublisher_cases impl request with ⟨heq, -⟩ | ⟨_, _, -, -, heq⟩
    · exact .of_same (by rw [heq]) h
    · rw [heq, standing_fencePublisher] at h
      split at h
      · exact .of_fence h rfl nofun
      · exact .of_same rfl h
  | advanceCoordinatorEpoch request =>
    replace h : ((impl.advanceCoordinatorEpoch request).1.standing publisher).authority = _ := h
    unfold Impl.advanceCoordinatorEpoch at h
    split at h
    · exact .of_same rfl h
    split at h
    · exact .of_same rfl h
    dsimp only at h
    rw [standing_foldl_fenceStale _ _ _ (nodup_stalePublishers _)] at h
    split at h
    -- The publisher is behind the new epoch, and is fenced if it has an authority.
    · unfold Standing.endEpoch at h
      split at h
      · exact .of_same rfl h
      · exact .of_fence h rfl nofun
    · exact .of_same rfl h
  | load config steps file =>
    rcases load_authority impl config steps file with heq | hnone
    · exact .of_same (congrArg (fun impl : Impl => (impl.standing publisher).authority) heq) h
    · cases (hnone publisher).symm.trans h
  | _ => exact hother rfl nofun

end Origin

/-- Only a registration makes an incarnation active. -/
theorem enlists_of_active {op : Op} {publisher : PublisherId} {boot : WorkerBootId}
    (hidle : ¬ impl.ActiveIncarnation publisher boot)
    (h : (impl.apply op).ActiveIncarnation publisher boot) : impl.Enlists op publisher boot := by
  obtain ⟨authority', hauthority', rfl, hactive⟩ := Impl.activeIncarnation_iff.mp h
  cases apply_origin hauthority' with
  | registered _ henlists => exact henlists
  | kept hauthority _ hkept =>
    obtain ⟨hboot, hstatus⟩ := hkept hactive
    exact absurd (Impl.activeIncarnation_iff.mpr ⟨_, hauthority, hboot.symm, hstatus⟩) hidle

/-! ## Epochs -/

/-- No authority is of an epoch that is still to come. -/
def Impl.Dated (impl : Impl) : Prop :=
  ∀ publisher authority, (impl.standing publisher).authority = some authority →
    authority.epoch ≤ impl.epoch

theorem Impl.Dated.apply (h : impl.Dated) (op : Op) : (impl.apply op).Dated := by
  intro publisher authority' hauthority'
  cases hload : op.isLoad with
  | false =>
    have hle : impl.epoch ≤ (impl.apply op).epoch := (apply_moves impl hload).epoch_le
    cases apply_origin hauthority' with
    | registered hepoch _ => exact hepoch.trans_le hle
    | kept hauthority hepoch _ => exact (hepoch.trans_le (h _ _ hauthority)).trans hle
  | true =>
    cases op with
    | load config steps file =>
      rcases load_authority impl config steps file with heq | hnone
      · have hsame : impl.apply (.load config steps file) = impl := heq
        rw [hsame] at hauthority' ⊢
        exact h _ _ hauthority'
      · cases (hnone publisher).symm.trans hauthority'
    | _ => cases hload

theorem Impl.Reachable.dated (h : impl.Reachable) : impl.Dated := by
  refine h.invariant (P := Impl.Dated) ?_ fun _ op h _ => h.apply op
  rintro _ ⟨config, rfl⟩ publisher authority hauthority
  cases hauthority

theorem admitRegistration_epoch (registration : PublisherRegistration) :
    (impl.admitRegistration registration).1.epoch = impl.epoch := by
  unfold Impl.admitRegistration
  split
  · split
    · split <;> rfl
    · unfold Impl.supersedeBoot
      dsimp only
      split <;> exact fencePublisher_epoch ..
  · split <;> rfl

/-- With the epoch of the engine every incarnation comes to its end. -/
theorem idle_of_epoch_ne (h : impl.Dated) {op : Op} (hepoch : (impl.apply op).epoch ≠ impl.epoch)
    (publisher : PublisherId) (boot : WorkerBootId) :
    ¬ (impl.apply op).ActiveIncarnation publisher boot := by
  rw [Impl.activeIncarnation_iff]
  rintro ⟨authority', hauthority', -, hactive⟩
  have hother (hload : op.isLoad = false) (hkinds : ¬ op.kinds .authority) : False :=
    hepoch ((apply_steps impl hload).sameAuthority hkinds).epoch
  cases op with
  | registerPublisher request =>
    refine hepoch ?_
    show (impl.registerPublisher request).1.epoch = impl.epoch
    cases henrols : impl.enrols request.registration with
    | false => rw [(registerPublisher_of_not_enrols impl henrols).1]
    | true =>
      obtain ⟨scope, heq⟩ := registerPublisher_of_enrols impl henrols
      rw [heq]
      exact admitRegistration_epoch _
  | invalidatePublisher request =>
    refine hepoch ?_
    show (impl.invalidatePublisher request).1.epoch = impl.epoch
    rcases invalidatePublisher_cases impl request with ⟨heq, -⟩ | ⟨_, _, -, -, heq⟩
    · rw [heq]
    · rw [heq, fencePublisher_epoch]
  | advanceCoordinatorEpoch request =>
    unfold Impl.apply Impl.advanceCoordinatorEpoch at hepoch hauthority'
    dsimp only at hepoch hauthority'
    split at hepoch
    · exact hepoch rfl
    rename_i hle
    rw [if_neg hle] at hauthority'
    split at hepoch
    · exact hepoch rfl
    rename_i hne
    rw [if_neg hne] at hauthority'
    dsimp only at hauthority'
    rw [standing_foldl_fenceStale _ _ _ (nodup_stalePublishers _)] at hauthority'
    split at hauthority'
    · unfold Standing.endEpoch at hauthority'
      split at hauthority'
      · rename_i hnone
        cases hnone.symm.trans hauthority'
      · obtain ⟨_, -, rfl⟩ := Option.map_eq_some_iff.mp hauthority'
        cases hactive
    · -- who is not stale is of the new epoch, and there was nobody of that
      rename_i hfresh
      refine hfresh ((mem_stalePublishers _ _).mpr ?_)
      obtain ⟨authority, hauthority, rfl⟩ := Option.map_eq_some_iff.mp hauthority'
      exact ⟨authority, hauthority, (h publisher _ hauthority').trans_lt
        (lt_of_le_of_ne (not_lt.mp hle) (Ne.symm hne))⟩
  | load config steps file =>
    rcases load_authority impl config steps file with heq | hnone
    · exact hepoch (congrArg Impl.epoch heq)
    · cases (hnone publisher).symm.trans hauthority'
  | _ => exact hother rfl nofun

end Origins

end LinkState
