import LinkStateFabric.Lib.Registry
import LinkStateFabric.Results.Authority

/-!
# A fenced boot stays fenced

* `Standing.Sound`: an active incarnation is not among the fenced boots of its publisher, and an
  incarnation that has been fenced is the newest of them until it is replaced.
* `Watch`: a run, with the other boots of a publisher that were fenced since one was.
* `fencedBoot_refused`: as long as these are fewer than the retention cap, the boot cannot return.
  Of the refusals only those of a well formed registration at the current epoch say that the boot
  was fenced: the other checks come first (`registration_refused_epoch`).
-/

namespace LinkState

theorem rememberBoot_eq : rememberBoot = Registry.remember (α := WorkerBootId) := rfl

namespace Standing

/-- What holds of the standing of every publisher. -/
structure Sound (s : Standing) : Prop where
  nodup : s.fenced.Nodup
  valid : ∀ authority, s.authority = some authority → authority.workerBoot.valid = true
  newest : ∀ authority, s.authority = some authority → authority.workerBoot ∈ s.fenced →
    s.fenced.getLast? = some authority.workerBoot
  active : ∀ authority, s.authority = some authority → authority.status = .active →
    authority.workerBoot ∉ s.fenced

variable {cap : Nat} {s s' : Standing} {fenced : Option WorkerBootId}

theorem fence_fenced {boot : WorkerBootId} (status : AuthorityStatus) (h : boot.valid = true) :
    (s.fence cap boot status).fenced = Registry.remember cap s.fenced boot := by
  rw [← rememberBoot_eq]
  exact if_pos h

theorem Step.sound (hstep : Step cap s fenced s') (h : s.Sound) : s'.Sound := by
  cases hstep with
  | stay => exact h
  | enrol authority hnone hvalid hnew =>
    refine ⟨h.nodup, ?_, ?_, ?_⟩ <;> rintro _ ⟨rfl⟩
    · exact hvalid
    · exact fun hmem => absurd hmem hnew
    · exact fun _ => hnew
  | @refresh authority authority' hauthority hboot hstatus =>
    refine ⟨h.nodup, ?_, ?_, ?_⟩ <;> rintro _ ⟨rfl⟩ <;> rw [hboot]
    · exact h.valid _ hauthority
    · exact h.newest _ hauthority
    · rw [hstatus]; exact h.active _ hauthority
  | @fence authority status hauthority hstatus =>
    have hfenced : (s.fence cap authority.workerBoot status).fenced = _ :=
      fence_fenced status (h.valid _ hauthority)
    have heq : (s.fence cap authority.workerBoot status).authority = some { authority with status } := by
      unfold Standing.fence
      rw [hauthority]
      rfl
    refine ⟨by rw [hfenced]; exact Registry.nodup_remember h.nodup, ?_, ?_, ?_⟩ <;>
      rw [heq] <;> rintro _ ⟨rfl⟩
    · exact h.valid authority hauthority
    · rw [hfenced]
      exact Registry.getLast?_remember (h.newest _ hauthority)
    · exact fun hactive => absurd hactive hstatus
  -- The boot that is replaced is fenced first, and the new one is none of the fenced.
  | @replace authority authority' hauthority hvalid hboot hnew =>
    have hfenced : (s.fence cap authority.workerBoot .superseded).fenced = _ :=
      fence_fenced .superseded (h.valid _ hauthority)
    have hnew' : authority'.workerBoot ∉ (s.fence cap authority.workerBoot .superseded).fenced := by
      rw [hfenced]
      exact fun hmem => (Registry.mem_of_mem_remember hmem).elim hnew hboot
    refine ⟨by rw [hfenced]; exact Registry.nodup_remember h.nodup, ?_, ?_, ?_⟩ <;> rintro _ ⟨rfl⟩
    · exact hvalid
    · exact fun hmem => absurd hmem hnew'
    · exact fun _ => hnew'

/-! ## Boots that were fenced since -/

/-- The boots of a publisher other than `boot` that were fenced since `boot` was. -/
def since (boot : WorkerBootId) (fenced : Option WorkerBootId)
    (others : Option (List WorkerBootId)) : Option (List WorkerBootId) :=
  match fenced with
  | none => others
  | some b => if b = boot then some [] else others.map (b :: ·)

/-- The boot is remembered while the others are fewer than the cap. -/
def Remembers (s : Standing) (cap : Nat) (boot : WorkerBootId)
    (others : Option (List WorkerBootId)) : Prop :=
  ∀ l ∈ others, l.toFinset.card < cap →
    ∃ before after, s.fenced = before ++ boot :: after ∧ after ⊆ l

/-- A fence of another boot. -/
theorem Remembers.remember {boot b : WorkerBootId} {others : Option (List WorkerBootId)}
    (h : s.Remembers cap boot others) (hsound : s.Sound)
    (hnewest : b ∈ s.fenced → s.fenced.getLast? = some b)
    (authority : Option PublisherAuthority) :
    Remembers ⟨authority, Registry.remember cap s.fenced b⟩ cap boot (since boot (some b) others) := by
  unfold since
  dsimp only
  split
  · rename_i hb
    subst hb
    -- The boot itself is fenced again, and nothing has come after it.
    rintro _ ⟨rfl⟩ hcard
    have hlast := Registry.getLast?_remember hnewest (Registry.mem_remember (by simpa using hcard))
    obtain ⟨before, heq⟩ := List.getLast?_eq_some_iff.mp hlast
    exact ⟨before, [], heq, List.nil_subset _⟩
  · rename_i hb
    intro l hl hcard
    obtain ⟨l, hold, rfl⟩ := Option.map_eq_some_iff.mp hl
    have hle : l.toFinset.card ≤ (b :: l).toFinset.card :=
      Finset.card_le_card (by rw [List.toFinset_cons]; exact Finset.subset_insert _ _)
    obtain ⟨before, after, heq, hafter⟩ := h l hold (hle.trans_lt hcard)
    by_cases hmem : b ∈ s.fenced
    · refine ⟨before, after, ?_, List.Subset.trans hafter (List.subset_cons_self _ _)⟩
      exact (Registry.remember_of_mem hmem).trans heq
    · -- the boots after the remembered one are distinct, and all among the others
      have hnodup : (after ++ [b]).Nodup := by
        have := hsound.nodup
        rw [heq, List.nodup_append, List.nodup_cons] at this
        refine this.2.1.2.append (List.nodup_singleton b) ?_
        rw [List.disjoint_singleton]
        exact fun hb => hmem (by rw [heq]; simp [hb])
      have hsub : after ++ [b] ⊆ b :: l := by
        intro y hy
        rcases List.mem_append.mp hy with hy | hy
        · exact List.mem_cons_of_mem _ (hafter hy)
        · rw [List.mem_singleton.mp hy]; exact List.mem_cons_self
      have hlength : after.length + 1 < cap := by
        have := Finset.card_le_card (s := (after ++ [b]).toFinset) (t := (b :: l).toFinset)
          fun y hy => List.mem_toFinset.mpr (hsub (List.mem_toFinset.mp hy))
        rw [List.toFinset_card_of_nodup hnodup, List.length_append, List.length_singleton] at this
        omega
      rw [heq] at hmem ⊢
      obtain ⟨before', heq'⟩ := Registry.exists_remember_eq hmem hlength
      exact ⟨before', after ++ [b], heq', hsub⟩

theorem Step.remembers (hstep : Step cap s fenced s') (hsound : s.Sound) {boot : WorkerBootId}
    {others : Option (List WorkerBootId)} (h : s.Remembers cap boot others) :
    s'.Remembers cap boot (since boot fenced others) := by
  cases hstep with
  | stay => exact h
  | enrol => exact h
  | refresh => exact h
  | @fence authority status hauthority hstatus =>
    have hvalid := hsound.valid _ hauthority
    have := h.remember hsound (hsound.newest _ hauthority)
      (s.fence cap authority.workerBoot status).authority
    rw [← fence_fenced status hvalid] at this
    exact this
  | @replace authority authority' hauthority _ hboot hnew =>
    have hvalid := hsound.valid _ hauthority
    have := h.remember hsound (hsound.newest _ hauthority) (some authority')
    rw [← fence_fenced .superseded hvalid] at this
    exact this

end Standing

/-! ## Runs -/

/-- A run without loads keeps the standing of every publisher sound. -/
theorem Impl.standing_sound {impl : Impl}
    (h : Runs.Run Impl.Fresh Impl.apply (fun _ op => op.isLoad = false) impl)
    (publisher : PublisherId) : (impl.standing publisher).Sound := by
  refine h.invariant (P := fun impl => (impl.standing publisher).Sound) ?_
    fun impl op hsound hload => (apply_standing impl publisher hload).sound hsound
  rintro _ ⟨config, rfl⟩
  have : (Impl.create config).standing publisher = ⟨none, []⟩ := rfl
  rw [this]
  exact ⟨List.nodup_nil, nofun, nofun, nofun⟩

/-- An engine in a run, with the boots of a publisher that were fenced since one of them was; `none`
if that one was not. -/
structure Watch where
  impl : Impl
  others : Option (List WorkerBootId)

namespace Watch

def Fresh (s : Watch) : Prop := s.impl.Fresh ∧ s.others = none

/-- The effect of an operation, and the boot that it fences. -/
def apply (publisher : PublisherId) (boot : WorkerBootId) (s : Watch) (op : Op) : Watch where
  impl := s.impl.apply op
  others := Standing.since boot (s.impl.fences publisher op) s.others

variable {publisher : PublisherId} {boot : WorkerBootId} {s : Watch}

/-- Runs without loads. -/
abbrev Run (publisher : PublisherId) (boot : WorkerBootId) : Watch → Prop :=
  Runs.Run Fresh (apply publisher boot) fun _ op => op.isLoad = false

theorem Run.impl (h : Run publisher boot s) :
    Runs.Run Impl.Fresh Impl.apply (fun _ op => op.isLoad = false) s.impl := by
  induction h with
  | start h => exact .start h.1
  | step op _ hload ih => exact .step op ih hload

theorem Run.remembers (h : Run publisher boot s) : (s.impl.standing publisher).Remembers
    s.impl.config.fenceRetentionPerPublisher boot s.others := by
  induction h with
  | start h =>
    intro l hl
    rw [h.2] at hl
    cases hl
  | @step s op h hload ih =>
    have hconfig : (s.impl.apply op).config = s.impl.config := (apply_steps s.impl hload).le.config
    show Standing.Remembers _ (s.impl.apply op).config.fenceRetentionPerPublisher _ _
    rw [hconfig]
    exact (apply_standing s.impl publisher hload).remembers
      (Impl.standing_sound (Run.impl h) publisher) ih

/-- While the other boots are fewer than the cap, the boot is remembered as fenced. -/
theorem Run.mem_fencedBoots (h : Run publisher boot s) {others : List WorkerBootId}
    (hothers : s.others = some others)
    (hcard : others.toFinset.card < s.impl.config.fenceRetentionPerPublisher) :
    boot ∈ s.impl.fencedBoots publisher := by
  obtain ⟨before, after, heq, -⟩ := h.remembers others hothers hcard
  have heq : s.impl.fencedBoots publisher = before ++ boot :: after := heq
  rw [heq]
  simp

end Watch

/-- A registration whose identities, scope and epoch pass their checks. -/
def Impl.Acceptable (impl : Impl) (registration : PublisherRegistration) : Prop :=
  registration.publisher.valid = true ∧ registration.workerBoot.valid = true ∧
    registration.source.valid = true ∧ registration.scope.normalize.isSome = true ∧
    registration.epoch = impl.epoch

/-- The refusal of a fenced boot. -/
theorem registerPublisher_of_fenced {impl : Impl} {request : RegisterPublisherRequest}
    (h : request.registration.workerBoot ∈ impl.fencedBoots request.registration.publisher) :
    (impl.registerPublisher request).1 = impl ∧
    (impl.registerPublisher request).2.outcome.isError = true ∧
    (impl.Acceptable request.registration →
      (impl.registerPublisher request).2.outcome.code = .staleAuthority) := by
  have hfenced : impl.bootIsFenced request.registration.publisher
      request.registration.workerBoot = true := decide_eq_true h
  have henrols : impl.enrols request.registration = false := by
    unfold Impl.enrols
    rw [hfenced, Bool.not_true, Bool.and_false]
  obtain ⟨hsame, herror⟩ := registerPublisher_of_not_enrols impl henrols
  refine ⟨hsame, herror, fun ⟨hp, hb, hs, hscope, hepoch⟩ => ?_⟩
  obtain ⟨scope, hscope⟩ := Option.isSome_iff_exists.mp hscope
  unfold Impl.registerPublisher
  simp [hp, hb, hs, hscope, hepoch, hfenced, failed, Outcome.make]

/-- After a boot has been fenced, and as long as fewer other boots than the cap were fenced since,
the boot is refused, it has no authority, and none of its evidence is current. -/
theorem fencedBoot_refused {publisher : PublisherId} {boot : WorkerBootId} {s : Watch}
    (h : s.Run publisher boot) (others : List WorkerBootId) (hothers : s.others = some others)
    (hcard : others.toFinset.card < s.impl.config.fenceRetentionPerPublisher) :
    (∀ request : RegisterPublisherRequest, request.registration.publisher = publisher →
      request.registration.workerBoot = boot →
      (s.impl.registerPublisher request).1 = s.impl ∧
      (s.impl.registerPublisher request).2.outcome.isError = true ∧
      (s.impl.Acceptable request.registration →
        (s.impl.registerPublisher request).2.outcome.code = .staleAuthority)) ∧
    (∀ authority, s.impl.store.publishers.lookup publisher = some authority →
      ¬ (authority.status = .active ∧ authority.workerBoot = boot)) ∧
    (∀ link, ∀ record ∈ s.impl.currentEvidence link,
      ¬ (record.publisher = publisher ∧ record.workerBoot = boot)) := by
  have hfenced := h.mem_fencedBoots hothers hcard
  have hinactive : ∀ authority, s.impl.store.publishers.lookup publisher = some authority →
      ¬ (authority.status = .active ∧ authority.workerBoot = boot) := by
    rintro authority hauthority ⟨hactive, rfl⟩
    exact (Impl.standing_sound h.impl publisher).active _ (Impl.standing_authority hauthority) hactive
      hfenced
  refine ⟨?_, hinactive, ?_⟩
  · rintro request rfl rfl
    exact registerPublisher_of_fenced hfenced
  · rintro link record hrecord ⟨rfl, rfl⟩
    have hreachable : s.impl.Reachable := h.impl.mono fun _ _ _ => trivial
    obtain ⟨-, authority, hauthority, hactive, hboot, -⟩ := hreachable.endorsed link record hrecord
    exact hinactive authority hauthority ⟨hactive, hboot⟩

namespace Sample

def invalidation : InvalidatePublisherRequest := { publisher }

/-- The publisher of the sample run is invalidated. -/
def fencedOps : List Op := ops ++ [.invalidatePublisher invalidation]

def fenced : Watch := fencedOps.foldl (Watch.apply publisher boot) ⟨.create {}, none⟩

theorem fenced_run : fenced.Run publisher boot :=
  .foldl (.start ⟨⟨{}, rfl⟩, rfl⟩) (l := fencedOps) ⟨rfl, rfl, rfl, rfl, trivial⟩

end Sample

theorem fencedBoot_refused_sample :
    (Sample.fenced.impl.registerPublisher ⟨Sample.registration⟩).2.outcome.code =
      .staleAuthority :=
  ((fencedBoot_refused Sample.fenced_run [] (by decide) (by decide)).1
    ⟨Sample.registration⟩ rfl rfl).2.2 ⟨by decide, by decide, by decide, by decide, by decide⟩

/-- The epoch is looked at before the fenced boots. -/
theorem registration_refused_epoch :
    Sample.fenced.Run Sample.publisher Sample.boot ∧ Sample.fenced.others = some [] ∧
    0 < Sample.fenced.impl.config.fenceRetentionPerPublisher ∧
    (Sample.fenced.impl.registerPublisher
      ⟨{ Sample.registration with epoch := .fromValue 5 }⟩).2.outcome.code =
      .staleCoordinatorEpoch :=
  ⟨Sample.fenced_run, by decide, by decide, by decide⟩

end LinkState
