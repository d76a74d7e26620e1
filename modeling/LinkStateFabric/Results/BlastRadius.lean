import LinkStateFabric.Engine.Dispositions
import LinkStateFabric.Engine.Outcomes
import LinkStateFabric.Results.Authority

/-!
# How far an operation reaches

* An operation on one link edits no other entry (`ChangeAt.entryOf`). A rebinding or a retirement
  goes on to the dependents of its link (`invalidateStaleDependents_entryOf`), and a fence to the
  links that the publisher has evidence on (`fencePublisher_entryOf`).
* `Impl.Reaches`: the links that an operation may change. All others keep their entries, and an
  operation that fences leaves the evidence of all other publishers current (`blast_radius`).
-/

namespace LinkState

open Sorting

/-! ## Edits -/

section Edits

variable {allow : Kind → Prop} {impl impl' : Impl} {link l : LinkId}

theorem EditSteps.entryOf_commit {entry : LinkEntry} {t : Edit}
    (h : EditSteps allow link ⟨impl, entry⟩ t) (hl : l ≠ link) :
    (t.commit link).entryOf l = impl.entryOf l := by
  rw [commit_entryOf, if_neg hl, h.frame.entryOf]

theorem ChangeAt.entryOf (h : ChangeAt allow link impl impl') (hl : l ≠ link) :
    impl'.entryOf l = impl.entryOf l := by
  cases h with
  | outside h _ => exact h.entryOf l
  | edit _ h => exact h.entryOf_commit hl

/-- A purge leaves other links alone, and a link of which no record is explained away. -/
theorem purgeLink_entryOf {explain : Impl → LinkEntry → Explanation}
    (hfinal : ∀ impl entry, (explain impl entry).Final) (trigger : TransitionTrigger) (kind : Text)
    (h : l = link → ∀ record ∈ impl.currentEvidence l, ∀ impl entry,
      explain impl entry record = none) :
    (impl.purgeLink explain trigger kind link).entryOf l = impl.entryOf l := by
  unfold Impl.purgeLink
  split
  · rfl
  rename_i entry hentry
  split
  · rfl
  rename_i hsome
  have hl : l ≠ link := by
    rintro rfl
    rw [Impl.currentEvidence_eq hentry] at h
    refine hsome (List.all_eq_true.mpr fun record hrecord => ?_)
    rw [h rfl record hrecord]
    rfl
  have hdrop {t : Edit} {b : Bool} (hc : (Edit.dropEvidence ⟨impl, entry⟩
      (explain impl entry)).advanceAll [.evidence, .global] = (t, b)) :
      EditSteps (fun _ => False) link ⟨impl, entry⟩ t :=
    dropEvidence_steps (hfinal impl entry) (by decide) hc
  split
  · rename_i hc
    exact (hdrop hc).entryOf_commit hl
  · rename_i t hc
    exact EditSteps.entryOf_commit
      ((hdrop hc).trans (.head (.stamp t) (recomputeLink_steps ..))) hl

theorem purgeLinks_entryOf {explain : Impl → LinkEntry → Explanation}
    (hfinal : ∀ impl entry, (explain impl entry).Final) (trigger : TransitionTrigger) (kind : Text)
    (links : List LinkId) (impl : Impl) (h : l ∈ links → ∀ record ∈ impl.currentEvidence l,
      ∀ impl entry, explain impl entry record = none) :
    (links.foldl (Impl.purgeLink explain trigger kind) impl).entryOf l = impl.entryOf l := by
  induction links generalizing impl with
  | nil => rfl
  | cons link links ih =>
    have hstep : (impl.purgeLink explain trigger kind link).entryOf l = impl.entryOf l :=
      purgeLink_entryOf hfinal trigger kind fun hl => h (hl ▸ List.mem_cons_self)
    rw [List.foldl_cons, ih _ fun hl => ?_, hstep]
    unfold Impl.currentEvidence at h ⊢
    rw [hstep]
    exact h (List.mem_cons_of_mem _ hl)

end Edits

/-! ## Dependents -/

/-- A link that holds current evidence and references another as a backing link. -/
def Impl.Leans (impl : Impl) (backing link : LinkId) : Prop :=
  impl.currentEvidence link ≠ [] ∧ impl.Has (LinkEntry.DependsOn backing) link

section Dependents

variable {allow : Kind → Prop} {impl : Impl} {link l : LinkId}

theorem invalidateStaleDependents_entryOf (hindexed : Indexed impl) (h : ¬ impl.Leans link l) :
    (impl.invalidateStaleDependents link).entryOf l = impl.entryOf l := by
  refine purgeLinks_entryOf explainStaleDependent_final _ _ _ _ fun hl record hrecord => ?_
  have hdepends := (hindexed.dependents link l).mp (mem_listing.mp hl)
  exact absurd ⟨List.ne_nil_of_mem hrecord, hdepends⟩ h

/-- An edit of a link, after which its dependents are invalidated. -/
theorem edit_dependents_entryOf (hindexed : Indexed impl) {entry : LinkEntry} {t : Edit}
    (hentry : impl.entryOf link = some entry) (hsteps : EditSteps allow link ⟨impl, entry⟩ t)
    (hl : ¬ (l = link ∨ impl.Leans link l)) {impl' : Impl} (heq : impl' = t.commit link ∨
      impl' = (t.commit link).invalidateStaleDependents t.entry.record.binding.link) :
    impl'.entryOf l = impl.entryOf l := by
  obtain ⟨hne, hfree⟩ := not_or.mp hl
  have hother := hsteps.entryOf_commit hne
  have hindexed : Indexed (t.commit link) := hindexed.steps (.single (.edit hentry hsteps))
  have hself : t.entry.record.binding.link = link :=
    (hindexed.slotted link t.entry (by rw [commit_entryOf, if_pos rfl])).link_eq
  rcases heq with rfl | rfl
  · exact hother
  rw [hself, invalidateStaleDependents_entryOf hindexed fun hleans => hfree ?_, hother]
  unfold Impl.Leans Impl.currentEvidence Impl.Has at hleans ⊢
  rwa [hother] at hleans

theorem bindNew_entryOf {binding : TopologyBinding} (hl : l ≠ binding.link) :
    (impl.bindNew binding).1.entryOf l = impl.entryOf l := by
  unfold Impl.bindNew
  split
  · rfl
  split
  · rfl
  rename_i t hc
  have hcount := Edit.advanceAll_advances [.global] (by decide) ⟨impl, newEntry binding⟩
  rw [hc] at hcount
  dsimp only
  rw [commit_entryOf, if_neg hl, (bind_entries hcount).2.1]

theorem bindLink_entryOf (hindexed : Indexed impl) {request : BindLinkRequest}
    (hl : ¬ (l = request.binding.link ∨ impl.Leans request.binding.link l)) :
    (impl.bindLink request).1.entryOf l = impl.entryOf l := by
  rcases bindLink_outcome impl request with hdeclined | ⟨heq, -⟩ | ⟨-, heq⟩ |
    ⟨entry, hvalid, hrebindable, heq⟩
  · exact hdeclined.sameLinks.entryOf l
  · rw [heq]
  · rw [heq]
    exact bindNew_entryOf fun h => hl (.inl h)
  · rw [heq]
    obtain ⟨t, hsteps, heq⟩ := @applyRebinding_edit (fun _ => True) impl trivial _ _ _
      ⟨hrebindable.live, hrebindable.link_eq, hrebindable.newer,
        fun _ => wellFormed_of_validBinding hvalid⟩ (lit "topology generation advanced")
    exact edit_dependents_entryOf hindexed hrebindable.bound hsteps hl heq

theorem supersedeTopology_entryOf (hindexed : Indexed impl) {request : SupersedeTopologyRequest}
    (hl : ¬ (l = request.link ∨ impl.Leans request.link l)) :
    (impl.supersedeTopology request).1.entryOf l = impl.entryOf l := by
  rcases supersedeTopology_outcome impl request with hdeclined |
    ⟨entry, binding, -, hbinding, hrebindable, heq⟩
  · exact hdeclined.sameLinks.entryOf l
  · rw [heq]
    have hnewer := hrebindable.newer
    rw [(supersedingBinding_spec hbinding).2] at hnewer
    obtain ⟨t, hsteps, heq⟩ := @applyRebinding_edit (fun _ => True) impl trivial _ _ _
      (rebinds_of_superseding hrebindable.live hnewer hbinding)
      (withReason (lit "topology supersession") request.reason)
    exact edit_dependents_entryOf hindexed hrebindable.bound hsteps hl heq

theorem retireLink_entryOf (hindexed : Indexed impl) {request : RetireLinkRequest}
    (hl : ¬ (l = request.link ∨ impl.Leans request.link l)) :
    (impl.retireLink request).1.entryOf l = impl.entryOf l := by
  rcases retireLink_outcome impl request with hdeclined | ⟨heq, -⟩ | ⟨entry, hretirable, heq⟩
  · exact hdeclined.sameLinks.entryOf l
  · rw [heq]
  · rw [heq]
    obtain ⟨t, hsteps, heq⟩ := @retire_edit (fun _ => True) impl trivial request entry hretirable.live
    exact edit_dependents_entryOf hindexed hretirable.bound hsteps hl heq

end Dependents

/-! ## Fences -/

section Fences

variable {impl : Impl} {l : LinkId}

theorem fencePublisher_entryOf {publisher : PublisherId}
    (h : ∀ record ∈ impl.currentEvidence l, record.publisher ≠ publisher) (boot : WorkerBootId)
    (status : AuthorityStatus) (reason : Text) :
    (impl.fencePublisher publisher boot true status reason).entryOf l = impl.entryOf l := by
  have hnote := noteFence_sameLinks impl publisher boot status reason
  unfold Impl.fencePublisher Impl.purgePublisher
  dsimp only
  rw [(releasePublisher_sameLinks _ publisher).entryOf, purgeLinks_entryOf
    (fun _ _ => explainFence_final publisher boot true reason) _ _ _ _ fun _ record hrecord _ _ => ?_, hnote.entryOf]
  rw [hnote.currentEvidence] at hrecord
  exact if_neg fun hp => h record hrecord hp.1

/-- An operation that fences at most one publisher has not changed a link in any other way. -/
def FencesOne (op : Op) (impl impl' : Impl) : Prop :=
  (SameLinks impl impl' ∧ ∀ publisher, impl.fences publisher op = none) ∨
  ∃ publisher boot status reason,
    SameLinks (impl.fencePublisher publisher boot true status reason) impl' ∧
    ∀ p, impl.fences p op = none ↔ p ≠ publisher

theorem registerPublisher_fencesOne (request : RegisterPublisherRequest) :
    FencesOne (.registerPublisher request) impl (impl.registerPublisher request).1 := by
  -- A registration that supersedes nobody fences nobody.
  have hstay {impl' : Impl} (h : SameLinks impl impl') (hends : ∀ authority,
      impl.store.publishers.lookup request.registration.publisher = some authority →
        impl.enrols request.registration = true →
        authority.workerBoot = request.registration.workerBoot) :
      FencesOne (.registerPublisher request) impl impl' := by
    refine .inl ⟨h, fun p => ?_⟩
    rw [fences_registerPublisher]
    split
    · rename_i hp
      obtain ⟨rfl, henrols⟩ := hp
      cases hauthority : impl.store.publishers.lookup request.registration.publisher with
      | none => rfl
      | some authority => simp [Option.filter_some, hends authority hauthority henrols]
    · rfl
  cases henrols : impl.enrols request.registration with
  | false =>
    rw [(registerPublisher_of_not_enrols impl henrols).1]
    exact hstay (.refl impl) fun _ _ h => absurd h (by simp [henrols])
  | true =>
    obtain ⟨scope, heq⟩ := registerPublisher_of_enrols impl henrols
    rw [heq]
    unfold Impl.admitRegistration
    split
    · rename_i authority hauthority
      split
      · rename_i hboot
        have hends : ∀ a, impl.store.publishers.lookup request.registration.publisher = some a →
            impl.enrols request.registration = true →
            a.workerBoot = request.registration.workerBoot := fun a ha _ => by
          cases hauthority.symm.trans ha
          exact hboot
        split
        · exact hstay (.refl impl) hends
        · exact hstay (putAuthority_sameLinks ..) hends
      · rename_i hboot
        refine .inr ⟨request.registration.publisher, authority.workerBoot, .superseded,
          lit "superseded by worker boot " ++ request.registration.workerBoot.value, ?_, fun p => ?_⟩
        · unfold Impl.supersedeBoot
          dsimp only
          split
          · exact .refl _
          · exact putAuthority_sameLinks ..
        · rw [fences_registerPublisher]
          by_cases hp : request.registration.publisher = p
          · subst hp
            rw [if_pos ⟨rfl, henrols⟩, hauthority, Option.filter_some,
              if_pos (decide_eq_true hboot)]
            simp
          · rw [if_neg fun h => hp h.1]
            exact iff_of_true rfl (Ne.symm hp)
    · rename_i hnone
      have hends : ∀ a, impl.store.publishers.lookup request.registration.publisher = some a →
          impl.enrols request.registration = true →
          a.workerBoot = request.registration.workerBoot := fun a ha _ => by
        rw [hnone] at ha
        cases ha
      split
      · exact hstay (.refl impl) hends
      · exact hstay (putAuthority_sameLinks ..) hends

theorem invalidatePublisher_fencesOne (request : InvalidatePublisherRequest) :
    FencesOne (.invalidatePublisher request) impl (impl.invalidatePublisher request).1 := by
  rcases invalidatePublisher_fences impl request with ⟨heq, hnone⟩ |
    ⟨authority, reason, -, heq, hfences⟩ <;> rw [heq]
  · exact .inl ⟨.refl impl, hnone⟩
  · refine .inr ⟨request.publisher, authority.workerBoot, .fenced, reason, .refl _, fun p => ?_⟩
    rw [hfences]
    split <;> simp [*]

theorem FencesOne.entryOf {op : Op} {impl' : Impl} (h : FencesOne op impl impl')
    (hfree : ∀ record ∈ impl.currentEvidence l, impl.fences record.publisher op = none) :
    impl'.entryOf l = impl.entryOf l := by
  rcases h with ⟨hsame, -⟩ | ⟨publisher, boot, status, reason, hsame, hfences⟩
  · exact hsame.entryOf l
  · rw [hsame.entryOf, fencePublisher_entryOf fun record hrecord =>
      (hfences _).mp (hfree record hrecord)]

theorem FencesOne.currentEvidence {op : Op} {impl' : Impl} (h : FencesOne op impl impl')
    (hindexed : Indexed impl) (l : LinkId) : impl'.currentEvidence l =
      (impl.currentEvidence l).filter fun record => (impl.fences record.publisher op).isNone := by
  rcases h with ⟨hsame, hfences⟩ | ⟨publisher, boot, status, reason, hsame, hfences⟩
  · rw [hsame.currentEvidence]
    exact (List.filter_eq_self.mpr fun record _ => by rw [hfences]; rfl).symm
  · rw [hsame.currentEvidence, fencePublisher_evidence hindexed]
    refine List.filter_congr fun record _ => ?_
    rw [Bool.eq_iff_iff, decide_eq_true_eq, Option.isNone_iff_eq_none, hfences]

/-- A loop over stale publishers edits no link on which none of them has evidence. -/
theorem foldl_fenceStale_entryOf (stale : List PublisherId) {impl : Impl}
    (h : ∀ record ∈ impl.currentEvidence l, record.publisher ∉ stale) :
    (stale.foldl Impl.fenceStale impl).entryOf l = impl.entryOf l := by
  induction stale generalizing impl with
  | nil => rfl
  | cons publisher stale ih =>
    have hstep : (impl.fenceStale publisher).entryOf l = impl.entryOf l := by
      unfold Impl.fenceStale
      split
      · rfl
      · exact fencePublisher_entryOf (fun record hrecord hp =>
          h record hrecord (hp ▸ List.mem_cons_self)) ..
    rw [List.foldl_cons, ih fun record hrecord => ?_, hstep]
    unfold Impl.currentEvidence at h hrecord
    rw [hstep] at hrecord
    exact fun hp => h record hrecord (List.mem_cons_of_mem _ hp)

theorem advanceCoordinatorEpoch_entryOf {request : AdvanceEpochRequest}
    (h : ∀ record ∈ impl.currentEvidence l,
      impl.fences record.publisher (.advanceCoordinatorEpoch request) = none) :
    (impl.advanceCoordinatorEpoch request).1.entryOf l = impl.entryOf l := by
  rcases advanceCoordinatorEpoch_outcome impl request with hdeclined | ⟨heq, -⟩ | ⟨hlt, heq, -⟩
  · exact hdeclined.sameLinks.entryOf l
  · rw [heq]
  rw [heq, foldl_fenceStale_entryOf _ fun record hrecord hstale => ?_]
  · rfl
  obtain ⟨authority, hauthority, -⟩ := (mem_stalePublishers _ _).mp hstale
  have hnone := h record hrecord
  rw [fences_advanceCoordinatorEpoch, if_pos ⟨hlt, hstale⟩,
    @Impl.standing_authority impl _ _ hauthority] at hnone
  cases hnone

/-- What is current is of the epoch, so that a new one leaves none of it current. -/
theorem advanceCoordinatorEpoch_currentEvidence (hindexed : Indexed impl) (hendorsed : impl.Endorsed)
    (request : AdvanceEpochRequest) (l : LinkId) :
    (impl.advanceCoordinatorEpoch request).1.currentEvidence l =
      (impl.currentEvidence l).filter fun record =>
        (impl.fences record.publisher (.advanceCoordinatorEpoch request)).isNone := by
  have hstay {impl' : Impl} (h : ∀ l, impl'.entryOf l = impl.entryOf l)
      (hlt : ¬ impl.epoch < request.newEpoch) : impl'.currentEvidence l =
        (impl.currentEvidence l).filter fun record =>
          (impl.fences record.publisher (.advanceCoordinatorEpoch request)).isNone := by
    have hsame : impl'.currentEvidence l = impl.currentEvidence l := by
      unfold Impl.currentEvidence
      rw [h]
    rw [hsame]
    refine (List.filter_eq_self.mpr fun record _ => ?_).symm
    rw [fences_advanceCoordinatorEpoch, if_neg fun h => hlt h.1]
    rfl
  unfold Impl.advanceCoordinatorEpoch
  split
  · rename_i hlt
    exact hstay (fun _ => rfl) hlt.asymm
  rename_i hle
  split
  · rename_i heq
    exact hstay (fun _ => rfl) (by rw [heq]; exact lt_irrefl _)
  rename_i hne
  have hlt := lt_of_le_of_ne (not_lt.mp hle) (Ne.symm hne)
  dsimp only
  -- Every publisher is behind the new epoch, so that nothing stays.
  rw [foldl_fenceStale_currentEvidence_nil hindexed hendorsed hlt, eq_comm,
    List.filter_eq_nil_iff]
  intro record hrecord hnone
  obtain ⟨he, authority, hauthority, -, -, hepoch⟩ := hendorsed l record hrecord
  rw [fences_of_lookup impl _ hauthority, if_pos] at hnone
  · cases hnone
  · simp [Impl.endsIncarnation, hlt, hepoch, he]

end Fences

/-! ## Blast radius -/

/-- The links that an operation may change. A reconciliation resolves every link, and a load replaces
them all. -/
def Impl.Reaches (impl : Impl) : Op → LinkId → Prop
  | .publishEvidence request, link => link = request.observation.key.link
  | .withdrawEvidence request, link => link = request.key.link
  | .transitionState request, link => link = request.link
  | .markRevalidationRequired request, link => link = request.link
  | .bindLink request, link => link = request.binding.link ∨ impl.Leans request.binding.link link
  | .supersedeTopology request, link => link = request.link ∨ impl.Leans request.link link
  | .retireLink request, link => link = request.link ∨ impl.Leans request.link link
  | .registerPublisher request, link => ∃ record ∈ impl.currentEvidence link,
    impl.fences record.publisher (.registerPublisher request) ≠ none
  | .invalidatePublisher request, link => ∃ record ∈ impl.currentEvidence link,
    impl.fences record.publisher (.invalidatePublisher request) ≠ none
  | .advanceCoordinatorEpoch request, link => ∃ record ∈ impl.currentEvidence link,
    impl.fences record.publisher (.advanceCoordinatorEpoch request) ≠ none
  | .snapshot _, _ => False
  | .reconcile, _ | .load .., _ => True

section Reaches

variable {impl : Impl}

theorem apply_entryOf (hindexed : Indexed impl) {op : Op} {link : LinkId}
    (h : ¬ impl.Reaches op link) : (impl.apply op).entryOf link = impl.entryOf link := by
  have hfree {op : Op} (h : ¬ ∃ record ∈ impl.currentEvidence link,
      impl.fences record.publisher op ≠ none) :
      ∀ record ∈ impl.currentEvidence link, impl.fences record.publisher op = none :=
    fun record hrecord => not_not.mp fun hne => h ⟨record, hrecord, hne⟩
  cases op with
  | publishEvidence request =>
    exact (@publishEvidence_change (fun _ => True) impl trivial request).entryOf h
  | withdrawEvidence request =>
    exact (@withdrawEvidence_change (fun _ => True) impl request).entryOf h
  | transitionState request =>
    exact (@transitionState_change (fun _ => True) impl request).entryOf h
  | markRevalidationRequired request =>
    exact (@markRevalidationRequired_change (fun _ => True) impl request).entryOf h
  | bindLink request => exact bindLink_entryOf hindexed h
  | supersedeTopology request => exact supersedeTopology_entryOf hindexed h
  | retireLink request => exact retireLink_entryOf hindexed h
  | registerPublisher request => exact (registerPublisher_fencesOne request).entryOf (hfree h)
  | invalidatePublisher request => exact (invalidatePublisher_fencesOne request).entryOf (hfree h)
  | advanceCoordinatorEpoch request => exact advanceCoordinatorEpoch_entryOf (hfree h)
  | snapshot request => exact (snapshot_sameLinks impl request).entryOf link
  | reconcile => exact absurd trivial h
  | load => exact absurd trivial h

/-- An operation that may fence removes the evidence of the publishers that it fences. -/
theorem apply_currentEvidence (hindexed : Indexed impl) (hendorsed : impl.Endorsed) {op : Op}
    (h : op.kinds .authority) (link : LinkId) : (impl.apply op).currentEvidence link =
      (impl.currentEvidence link).filter fun record =>
        (impl.fences record.publisher op).isNone := by
  cases op with
  | registerPublisher request =>
    exact (registerPublisher_fencesOne request).currentEvidence hindexed link
  | invalidatePublisher request =>
    exact (invalidatePublisher_fencesOne request).currentEvidence hindexed link
  | advanceCoordinatorEpoch request =>
    exact advanceCoordinatorEpoch_currentEvidence hindexed hendorsed request link
  | bindLink => exact absurd h (by rintro (h | h) <;> cases h)
  | _ => cases h

/-- An operation changes no link that it does not reach. A registration, an invalidation or a new
epoch takes from the evidence of a link what the publishers have that it fences. -/
theorem blast_radius (h : impl.Reachable) (op : Op) :
    (∀ link, ¬ impl.Reaches op link → (impl.apply op).entryOf link = impl.entryOf link) ∧
    (op.kinds .authority → ∀ link, (impl.apply op).currentEvidence link =
      (impl.currentEvidence link).filter fun record => (impl.fences record.publisher op).isNone) :=
  ⟨fun _ => apply_entryOf (Impl.Reachable.indexed h),
    apply_currentEvidence (Impl.Reachable.indexed h) (Impl.Reachable.endorsed h)⟩

end Reaches

namespace Sample

def neighbour : LinkId := .fromValidated (lit "link-2")
def colleague : PublisherId := .fromValidated (lit "pub-2")

/-- Two links; one publisher has evidence on the first, another on the second. -/
def shared : Impl :=
  [.bindLink ⟨{ binding with link := neighbour }⟩,
    .registerPublisher ⟨{ registration with
      publisher := colleague, scope := { links := [link, neighbour] } }⟩,
    .publishEvidence { publication, observation := { observation with
      key := { link := neighbour, source }
      observation := .fromValidated (lit "obs-2")
      publisher := colleague } }].foldl Impl.apply engine

theorem shared_reachable : shared.Reachable := Impl.Reachable.foldl reachable _

def dismissal : InvalidatePublisherRequest := { publisher }

end Sample

theorem blast_radius_sample :
    (Sample.shared.invalidatePublisher Sample.dismissal).1.entryOf Sample.neighbour =
      Sample.shared.entryOf Sample.neighbour ∧
    (Sample.shared.invalidatePublisher Sample.dismissal).1.currentEvidence Sample.link = [] ∧
    Sample.shared.currentEvidence Sample.link ≠ [] := by
  have hsample := blast_radius Sample.shared_reachable (.invalidatePublisher Sample.dismissal)
  refine ⟨hsample.1 Sample.neighbour ?_, (hsample.2 rfl Sample.link).trans ?_, ?_⟩
  · show ¬ ∃ record ∈ Sample.shared.currentEvidence Sample.neighbour,
      Sample.shared.fences record.publisher (.invalidatePublisher Sample.dismissal) ≠ none
    decide +kernel
  · decide +kernel
  · decide +kernel

end LinkState
