import LinkStateFabric.Results.BlastRadius
import LinkStateFabric.Results.Histories

/-!
# An advance of the epoch, link by link

An advance fences the publishers of the old epoch one after the other, and resolves a link again
each time that evidence leaves it.

* `LinkEntry.Still`, `LinkEntry.Transits`: a resolution records nothing, or one change of state.
* `fencePublisher_purged`: what one fence makes of a link on which its publisher has evidence.
* `Impl.OneStep`: the advance is one step for a link, and presents nothing that was resolved from
  evidence of the old epoch. That is so if no resolution on the way, from the evidence that is left,
  comes to another state (`epoch_one_step`).
-/

namespace LinkState

open Sorting

/-! ## What a resolution records -/

/-- No change of state has been recorded. -/
structure LinkEntry.Still (entry entry' : LinkEntry) : Prop where
  state : entry'.record.state = entry.record.state
  everEstablished : entry'.record.everEstablished = entry.record.everEstablished
  stateGeneration : entry'.record.stateGeneration = entry.record.stateGeneration
  history : entry'.record.history = entry.record.history

/-- One change of state has been recorded. -/
structure LinkEntry.Transits (cap : Nat) (entry entry' : LinkEntry) : Prop where
  state : entry'.record.state ≠ entry.record.state
  stateGeneration :
    entry'.record.stateGeneration.value = entry.record.stateGeneration.value + 1
  history : ∃ change : StateHistoryEntry, change.fromState = entry.record.state ∧
    change.toState = entry'.record.state ∧
    entry'.record.history = (pushHistory entry change cap).record.history

theorem LinkEntry.Still.refl (entry : LinkEntry) : entry.Still entry := ⟨rfl, rfl, rfl, rfl⟩

section Turn

variable {op : Op} {link : LinkId} {t t' : Edit} {entry entry' entry'' : LinkEntry} {cap : Nat}

theorem LinkEntry.Still.trans (h : entry.Still entry') (h' : entry'.Still entry'') :
    entry.Still entry'' :=
  ⟨h'.state.trans h.state, h'.everEstablished.trans h.everEstablished,
    h'.stateGeneration.trans h.stateGeneration, h'.history.trans h.history⟩

/-- A change of state that comes after nothing. -/
theorem LinkEntry.Still.transits (h : entry.Still entry') (h' : entry'.Transits cap entry'') :
    entry.Transits cap entry'' := by
  obtain ⟨change, hfrom, hto, hhistory⟩ := h'.history
  refine ⟨h.state ▸ h'.state, h.stateGeneration ▸ h'.stateGeneration, change,
    hfrom.trans h.state, hto, ?_⟩
  rw [hhistory]
  exact Edit.history_pushHistory h.history change rfl

theorem LinkEntry.Transits.generation_ne (h : entry.Transits cap entry') :
    entry'.record.stateGeneration ≠ entry.record.stateGeneration := by
  intro heq
  have hnext := h.stateGeneration
  rw [heq] at hnext
  omega

/-- A turn of a link, by an operation that fences publishers, records nothing or one change. -/
theorem Turn.still_or_transits (hop : ¬ op.Retires link) (h : Turn op link t t') :
    t.entry.Still t'.entry ∨ t.entry.Transits t.impl.config.maxHistoryPerLink t'.entry := by
  cases h with
  | halt h => exact .inl ⟨h.state, h.everEstablished, h.stateGeneration, h.history⟩
  | stall hretires => exact absurd hretires hop
  | retire hretires => exact absurd hretires hop
  | @resolve u h prepared publication publisher _ records hfits =>
    obtain ⟨-, hcommits⟩ := Edit.commitPrepared_spec hfits publication publisher
    obtain ⟨hsame, hhistory⟩ | ⟨hchanged, change, -, hfrom, hto, -, hhistory⟩ :=
      Edit.commitPrepared_history hfits publication publisher
    · obtain ⟨hever, hgeneration, -⟩ := hcommits.unchanged hsame
      exact .inl ⟨(hcommits.state.trans (hfits.unchanged hsame)).trans h.state,
        hever.trans h.everEstablished, hgeneration.trans h.stateGeneration,
        hhistory.trans h.history⟩
    · have hnext := StrongGeneration.next_eq_some (hcommits.changed hchanged).2.1
      refine .inr ⟨?_, ?_, change, hfrom.trans h.state, hto.trans hcommits.state.symm, ?_⟩
      · rw [hcommits.state, ← h.state]
        exact (hfits.changed hchanged).1
      · rw [hnext, h.stateGeneration]
      · rw [hhistory, h.frame.config]
        exact Edit.history_pushHistory h.history change rfl

/-- A turn that records a change, or exhausts no counter, leaves the link in the state that its
evidence resolves to. -/
theorem Turn.resolved (hordinary : op.Ordinary) (hsingle : ¬ op.Single)
    (htransitions : ¬ op.Transitions link) (hretires : ¬ op.Retires link) (h : Turn op link t t')
    (hbinding : t'.entry.record.binding = t.entry.record.binding)
    (hlive : t.entry.record.state ≠ .retired)
    (hend : t.entry.Transits cap t'.entry ∨ (t'.commit link).Unsaturated) :
    t'.entry.record.state = (resolveLinkState t'.entry.current t.entry.record).state := by
  cases h with
  | halt h =>
    obtain htransits | hu := hend
    · exact absurd h.state htransits.state
    · exact absurd hu (h.exhausted.resolve_left hlive)
  | stall hop => exact absurd hop hretires
  | retire hop => exact absurd hop hretires
  | @resolve u h prepared publication publisher _ records hfits htarget hresolution hrecords =>
    obtain ⟨hframe, hcommits⟩ := Edit.commitPrepared_spec hfits publication publisher
    have hconclusion := hresolution.trans (hrecords hordinary fun h => absurd h hsingle)
    have hintent : u.entry.record.adminIntent = t.entry.record.adminIntent :=
      h.intent.resolve_right fun hx => htransitions hx.1
    have hsymmetry : u.entry.record.binding.symmetry = t.entry.record.binding.symmetry :=
      congrArg (·.symmetry) (hframe.binding.symm.trans hbinding)
    calc (u.commitPrepared prepared publication publisher).entry.record.state
        _ = prepared.resolution.state := hcommits.state.trans htarget
        _ = (resolveLinkState u.entry.current u.entry.record).state :=
          congrArg Conclusion.state hconclusion
        _ = (resolveLinkState u.entry.current t.entry.record).state :=
          congrArg Resolution.state
            (resolveLinkState_congr _ hintent h.everEstablished hsymmetry)
        _ = (resolveLinkState (u.commitPrepared prepared publication publisher).entry.current
              t.entry.record).state := by rw [hframe.current]

theorem Turn.adminIntent (htransitions : ¬ op.Transitions link) (hretires : ¬ op.Retires link)
    (h : Turn op link t t') : t'.entry.record.adminIntent = t.entry.record.adminIntent := by
  cases h with
  | halt h => exact h.intent.resolve_right fun hx => htransitions hx.1
  | stall hop => exact absurd hop hretires
  | retire hop => exact absurd hop hretires
  | @resolve u h prepared publication publisher _ records hfits =>
    obtain ⟨hframe, -⟩ := Edit.commitPrepared_spec hfits publication publisher
    exact hframe.adminIntent.trans (h.intent.resolve_right fun hx => htransitions hx.1)

end Turn

/-! ## Fences -/

section Fences

variable {impl : Impl} {l : LinkId} {entry : LinkEntry} {publisher : PublisherId}

/-- A loop that purges links comes to each link once, and leaves it alone before and after. -/
theorem purgeLinks_at {explain : Impl → LinkEntry → Explanation}
    (hfinal : ∀ impl entry, (explain impl entry).Final) (trigger : TransitionTrigger) (kind : Text)
    {links : List LinkId} (hnodup : links.Nodup) (hl : l ∈ links) (impl : Impl) :
    ∃ impl₁ : Impl, impl₁.config = impl.config ∧ impl₁.entryOf l = impl.entryOf l ∧
      (links.foldl (Impl.purgeLink explain trigger kind) impl).entryOf l =
        (impl₁.purgeLink explain trigger kind l).entryOf l ∧
      (impl₁.purgeLink explain trigger kind l).Le
        (links.foldl (Impl.purgeLink explain trigger kind) impl) := by
  obtain ⟨before, after, rfl⟩ := List.append_of_mem hl
  obtain ⟨-, hafter, hdisjoint⟩ := List.nodup_append.mp hnodup
  have hbefore : l ∉ before := fun h => hdisjoint l h l List.mem_cons_self rfl
  have hsteps (links : List LinkId) (impl : Impl) : Steps (fun _ => True) impl
      (links.foldl (Impl.purgeLink explain trigger kind) impl) :=
    Steps.foldl (fun impl => purgeLink_steps impl hfinal trigger kind) links impl
  refine ⟨before.foldl (Impl.purgeLink explain trigger kind) impl, (hsteps before impl).le.config,
    purgeLinks_entryOf hfinal trigger kind before impl fun h => absurd h hbefore, ?_, ?_⟩
  · rw [List.foldl_append, List.foldl_cons]
    exact purgeLinks_entryOf hfinal trigger kind after _
      fun h => absurd h (List.nodup_cons.mp hafter).1
  · rw [List.foldl_append, List.foldl_cons]
    exact (hsteps after _).le

/-- What the fence of a publisher with evidence on a link makes of the link. -/
structure LinkEntry.Purged (publisher : PublisherId) (cap : Nat) (impl' : Impl)
    (entry entry' : LinkEntry) : Prop where
  held : ∃ record ∈ entry.current, record.publisher = publisher
  current : entry'.current = entry.current.filter (·.publisher ≠ publisher)
  binding : entry'.record.binding = entry.record.binding
  adminIntent : entry'.record.adminIntent = entry.record.adminIntent
  recorded : entry.Still entry' ∨ entry.Transits cap entry'
  resolved : entry.Transits cap entry' ∨ impl'.Unsaturated →
    entry'.record.state = (resolveLinkState entry'.current entry.record).state

/-- A fence comes to a link on which its publisher has evidence, and purges it once. -/
theorem fencePublisher_at (hindexed : Indexed impl) (hentry : impl.entryOf l = some entry)
    (hheld : ∃ record ∈ entry.current, record.publisher = publisher) (boot : WorkerBootId)
    (status : AuthorityStatus) (reason : Text) :
    ∃ impl₁ : Impl, impl₁.config = impl.config ∧ impl₁.entryOf l = some entry ∧
      let purged := impl₁.purgeLink (fun _ _ => explainFence publisher boot true reason)
        .publisherFenced (lit "fence") l
      (impl.fencePublisher publisher boot true status reason).entryOf l = purged.entryOf l ∧
      purged.Le (impl.fencePublisher publisher boot true status reason) := by
  obtain ⟨record, hrecord, hp⟩ := hheld
  -- The link is filed for the publisher, so the loop comes to it.
  have hnote := noteFence_sameLinks impl publisher boot status reason
  have hfiled : l ∈ listing ((impl.noteFence publisher boot status reason).store.publisherLinks.bucket
      publisher) := by
    refine mem_listing.mpr (hnote.publisherLinks publisher l
      (hindexed.publisherLinks publisher l ⟨entry, hentry, record, hrecord, hp⟩) ?_)
    unfold Impl.hasEvidenceOf
    rw [hentry]
    exact List.any_eq_true.mpr ⟨record, hrecord, by simpa using hp⟩
  obtain ⟨impl₁, hconfig, hbefore, hafter, hle⟩ := purgeLinks_at
    (fun _ _ => explainFence_final publisher boot true reason) .publisherFenced (lit "fence")
    (nodup_listing _) hfiled (impl.noteFence publisher boot status reason)
  exact ⟨impl₁, hconfig.trans hnote.config, (hbefore.trans (hnote.entryOf l)).trans hentry,
    ((releasePublisher_sameLinks _ publisher).entryOf l).trans hafter,
    hle.trans (releasePublisher_sameLinks _ publisher).le⟩

theorem fencePublisher_purged (hindexed : Indexed impl) (hsealed : impl.Sealed)
    (hentry : impl.entryOf l = some entry) (hheld : ∃ record ∈ entry.current,
      record.publisher = publisher) (boot : WorkerBootId) (status : AuthorityStatus)
    (reason : Text) : ∃ entry',
      (impl.fencePublisher publisher boot true status reason).entryOf l = some entry' ∧
      entry.Purged publisher impl.config.maxHistoryPerLink
        (impl.fencePublisher publisher boot true status reason) entry' := by
  -- The loop comes to this link once, and the entry is then still what it was.
  obtain ⟨impl₁, hcap, hstart, hend, hle⟩ :=
    fencePublisher_at hindexed hentry hheld boot status reason
  obtain ⟨record, hrecord, hp⟩ := hheld
  have hlive : entry.record.state ≠ .retired := fun hretired => by
    rw [hsealed l entry hentry hretired] at hrecord
    exact absurd hrecord List.not_mem_nil
  have hsteps : Steps (fun kind => kind = .authority) impl
      (impl.fencePublisher publisher boot true status reason) :=
    @fencePublisher_steps (fun kind => kind = .authority) impl rfl publisher boot true status reason
  obtain ⟨entry', hentry', -⟩ := hsteps.le.entries l entry hentry
  have hcurrent := fencePublisher_evidence hindexed publisher boot status reason l
  rw [Impl.currentEvidence_eq hentry, Impl.currentEvidence_eq hentry'] at hcurrent
  have hshape := hsteps.shape (by simp) (by simp) (by simp) l
  unfold Impl.shape at hshape
  rw [hentry, hentry'] at hshape
  have hbinding : entry'.record.binding = entry.record.binding :=
    congrArg Prod.snd (Option.some.inj hshape)
  refine ⟨entry', hentry', ?_⟩
  obtain heq | ⟨-, t, hturn, heq⟩ := @purgeLink_turn (.invalidatePublisher { publisher }) _ _ _
    (fun _ _ => explainFence publisher boot true reason) .publisherFenced (by decide) (lit "fence")
    hstart
  · -- the publisher's record cannot have stayed
    rw [heq, hstart, hentry'] at hend
    obtain rfl := Option.some.inj hend
    rw [hcurrent] at hrecord
    exact absurd hp (of_decide_eq_true (List.mem_filter.mp hrecord).2)
  · rw [heq, hentry', commit_entryOf, if_pos rfl] at hend
    obtain rfl := Option.some.inj hend
    have htransitions : ¬ (Op.invalidatePublisher { publisher }).Transitions l := by
      rintro ⟨_, h, -⟩
      cases h
    have hretires : ¬ (Op.invalidatePublisher { publisher }).Retires l := by
      rintro ⟨_, h, -⟩
      cases h
    have hrecorded := hturn.still_or_transits hretires
    dsimp only at hrecorded
    rw [hcap] at hrecorded
    refine ⟨⟨record, hrecord, hp⟩, hcurrent, hbinding, hturn.adminIntent htransitions hretires,
      hrecorded, fun h => ?_⟩
    have hordinary : (Op.invalidatePublisher { publisher }).Ordinary := trivial
    refine hturn.resolved hordinary id htransitions hretires hbinding hlive
      (h.imp_right fun hu => ?_)
    rw [← heq]
    exact hu.of_le hle

end Fences

/-! ## The advance -/

namespace Impl

/-- The engine in its new epoch, before a publisher is fenced. -/
def enterEpoch (impl : Impl) (request : AdvanceEpochRequest) : Impl :=
  { impl with epoch := request.newEpoch }

/-- The publishers that an advance of the epoch supersedes, in the order in which it fences them. -/
def superseded (impl : Impl) (request : AdvanceEpochRequest) : List PublisherId :=
  (impl.enterEpoch request).stalePublishers

/-- The engine in the midst of the advance, when some publishers are fenced. -/
def fencedUpTo (impl : Impl) (request : AdvanceEpochRequest) (fenced : List PublisherId) : Impl :=
  fenced.foldl Impl.fenceStale (impl.enterEpoch request)

/-- The advance of the epoch is one step for a link: at most one change of state is recorded, none
if the state is what it was, and none while evidence of a superseded publisher is current. -/
structure OneStep (impl : Impl) (request : AdvanceEpochRequest) (link : LinkId)
    (entry entry' : LinkEntry) : Prop where
  stateGeneration : entry'.record.stateGeneration = entry.record.stateGeneration ∨
    entry'.record.stateGeneration.value = entry.record.stateGeneration.value + 1
  history : entry'.record.history = entry.record.history ∨ ∃ change, entry'.record.history =
    (pushHistory entry change impl.config.maxHistoryPerLink).record.history
  unchanged : entry'.record.state = entry.record.state →
    entry'.record.stateGeneration = entry.record.stateGeneration ∧
    entry'.record.history = entry.record.history
  presented : ∀ fenced publisher rest before after,
    impl.superseded request = fenced ++ publisher :: rest →
    (impl.fencedUpTo request fenced).entryOf link = some before →
    (impl.fencedUpTo request (fenced ++ [publisher])).entryOf link = some after →
    after.record.stateGeneration ≠ before.record.stateGeneration →
    ∀ record ∈ after.current, record.publisher ∉ impl.superseded request

/-- What is left of the evidence of a link, when some of it is gone and evidence of a superseded
publisher is left, resolves to the state of the link. -/
def Steady (impl : Impl) (request : AdvanceEpochRequest) (entry : LinkEntry) : Prop :=
  ∀ fenced rest, impl.superseded request = fenced ++ rest →
    (∃ record ∈ entry.current, record.publisher ∈ fenced) →
    (∃ record ∈ entry.current, record.publisher ∈ rest) →
    (resolveLinkState (entry.current.filter (·.publisher ∉ fenced)) entry.record).state =
      entry.record.state

instance (impl : Impl) (request : AdvanceEpochRequest) (entry : LinkEntry) :
    Decidable (impl.Steady request entry) :=
  decidable_of_iff (∀ n ≤ (impl.superseded request).length,
      (∃ record ∈ entry.current, record.publisher ∈ (impl.superseded request).take n) →
      (∃ record ∈ entry.current, record.publisher ∈ (impl.superseded request).drop n) →
      (resolveLinkState (entry.current.filter
        (·.publisher ∉ (impl.superseded request).take n)) entry.record).state = entry.record.state)
    ⟨fun h fenced rest heq => by simpa [heq] using h fenced.length (by simp [heq]),
      fun h n _ => h _ _ (List.take_append_drop n _).symm⟩

/-- Nothing is recorded for a link while evidence of a superseded publisher is left. -/
def Quiet (impl : Impl) (request : AdvanceEpochRequest) (link : LinkId) (entry : LinkEntry) : Prop :=
  ∀ fenced rest before, impl.superseded request = fenced ++ rest →
    (∃ record ∈ entry.current, record.publisher ∈ rest) →
    (impl.fencedUpTo request fenced).entryOf link = some before → entry.Still before

end Impl

section Advance

variable {impl : Impl} {request : AdvanceEpochRequest} {link : LinkId} {entry before : LinkEntry}
  {fenced rest : List PublisherId} {publisher : PublisherId}

theorem fencedUpTo_concat : impl.fencedUpTo request (fenced ++ [publisher]) =
    (impl.fencedUpTo request fenced).fenceStale publisher := List.foldl_concat ..

theorem fencedUpTo_steps (fenced rest : List PublisherId) : Steps (fun kind => kind = .authority)
    (impl.fencedUpTo request fenced) (impl.fencedUpTo request (fenced ++ rest)) := by
  unfold Impl.fencedUpTo
  rw [List.foldl_append]
  exact Steps.foldl (fun impl => @fenceStale_steps (fun kind => kind = .authority) impl rfl) _ _

theorem enterEpoch_steps (impl : Impl) (request : AdvanceEpochRequest) :
    Steps (fun kind => kind = .authority) impl (impl.enterEpoch request) :=
  .single (.outside ⟨rfl, rfl, rfl, rfl, rfl, rfl, fun _ _ hl _ => hl, rfl, rfl, rfl, .inl rfl⟩
    (.inl rfl))

theorem indexed_fencedUpTo (h : Indexed impl) : Indexed (impl.fencedUpTo request fenced) :=
  h.steps ((enterEpoch_steps impl request).trans (fencedUpTo_steps [] fenced))

theorem sealed_fencedUpTo (h : impl.Sealed) : (impl.fencedUpTo request fenced).Sealed := by
  have hmoves : Moves (.advanceCoordinatorEpoch request) impl (impl.enterEpoch request)
      (impl.fencedUpTo request fenced) :=
    Moves.foldl (fun impl => fenceStale_moves impl id) _ _
  exact hmoves.sealed h

/-- A publisher that is still to be fenced is registered. -/
theorem registered_of_superseded (h : impl.superseded request = fenced ++ publisher :: rest) :
    ∃ authority, (impl.fencedUpTo request fenced).store.publishers.lookup publisher =
      some authority := by
  have hnodup : (fenced ++ publisher :: rest).Nodup := h ▸ nodup_stalePublishers _
  obtain ⟨hfenced, -, hdisjoint⟩ := List.nodup_append.mp hnodup
  have hmem : publisher ∈ impl.superseded request := by simp [h]
  obtain ⟨authority, hlookup, -⟩ := (mem_stalePublishers _ _).mp hmem
  have hstanding := standing_foldl_fenceStale (impl.enterEpoch request) publisher fenced hfenced
  rw [if_neg fun hp => hdisjoint publisher hp publisher List.mem_cons_self rfl] at hstanding
  have hauthority := (congrArg Standing.authority hstanding).trans
    (Impl.standing_authority hlookup)
  obtain ⟨authority', hlookup', -⟩ := Option.map_eq_some_iff.mp hauthority
  exact ⟨authority', hlookup'⟩

/-- What the next fence makes of a link: nothing, unless its publisher has evidence on the link. -/
theorem fencedUpTo_next (hindexed : Indexed impl) (hsealed : impl.Sealed)
    (h : impl.superseded request = fenced ++ publisher :: rest)
    (hbefore : (impl.fencedUpTo request fenced).entryOf link = some before) :
    ∃ after, (impl.fencedUpTo request (fenced ++ [publisher])).entryOf link = some after ∧
      ((∀ record ∈ before.current, record.publisher ≠ publisher) ∧ after = before ∨
        before.Purged publisher impl.config.maxHistoryPerLink
          (impl.fencedUpTo request (fenced ++ [publisher])) after) := by
  obtain ⟨authority, hlookup⟩ := registered_of_superseded h
  have hstep : impl.fencedUpTo request (fenced ++ [publisher]) =
      (impl.fencedUpTo request fenced).fencePublisher publisher authority.workerBoot true
        .epochSuperseded (lit "coordinator epoch advanced to " ++
          (impl.fencedUpTo request fenced).epoch.text) := by
    rw [fencedUpTo_concat, Impl.fenceStale, hlookup]
  have hconfig : (impl.fencedUpTo request fenced).config = impl.config :=
    (Steps.le ((enterEpoch_steps impl request).trans (fencedUpTo_steps [] fenced))).config
  rw [hstep]
  by_cases hheld : ∃ record ∈ before.current, record.publisher = publisher
  · obtain ⟨after, hafter, hpurged⟩ := fencePublisher_purged (indexed_fencedUpTo hindexed)
      (sealed_fencedUpTo hsealed) hbefore hheld authority.workerBoot .epochSuperseded
      (lit "coordinator epoch advanced to " ++ (impl.fencedUpTo request fenced).epoch.text)
    rw [hconfig] at hpurged
    exact ⟨after, hafter, .inr hpurged⟩
  · have hnone : ∀ record ∈ before.current, record.publisher ≠ publisher :=
      fun record hrecord hp => hheld ⟨record, hrecord, hp⟩
    refine ⟨before, ?_, .inl ⟨hnone, rfl⟩⟩
    rw [fencePublisher_entryOf (fun record hrecord => ?_), hbefore]
    rw [Impl.currentEvidence_eq hbefore] at hrecord
    exact hnone record hrecord

/-- What is left of a link on the way: the evidence of the publishers that are not fenced yet. -/
structure LinkEntry.Remains (fenced : List PublisherId) (entry before : LinkEntry) : Prop where
  current : before.current = entry.current.filter (·.publisher ∉ fenced)
  binding : before.record.binding = entry.record.binding
  adminIntent : before.record.adminIntent = entry.record.adminIntent

theorem fencedUpTo_remains (hindexed : Indexed impl) (hsealed : impl.Sealed)
    (hentry : impl.entryOf link = some entry) (fenced rest : List PublisherId)
    (h : impl.superseded request = fenced ++ rest) : ∃ before,
      (impl.fencedUpTo request fenced).entryOf link = some before ∧
      entry.Remains fenced before := by
  induction fenced using List.reverseRecOn generalizing rest with
  | nil => exact ⟨entry, hentry, by simp, rfl, rfl⟩
  | append_singleton fenced publisher ih =>
    rw [List.append_assoc, List.singleton_append] at h
    obtain ⟨before, hbefore, hremains⟩ := ih (publisher :: rest) h
    obtain ⟨after, hafter, ⟨hnone, rfl⟩ | hpurged⟩ :=
      fencedUpTo_next hindexed hsealed h hbefore
    · refine ⟨after, hafter, ?_, hremains.binding, hremains.adminIntent⟩
      rw [hremains.current]
      refine List.filter_congr fun record hrecord => ?_
      by_cases hp : record.publisher ∈ fenced
      · simp [hp]
      · have hleft : record ∈ after.current := by
          rw [hremains.current]
          exact List.mem_filter.mpr ⟨hrecord, by simpa using hp⟩
        simp [hp, hnone record hleft]
    · refine ⟨after, hafter, ?_, hpurged.binding.trans hremains.binding,
        hpurged.adminIntent.trans hremains.adminIntent⟩
      rw [hpurged.current, hremains.current, List.filter_filter]
      exact List.filter_congr fun record _ => by simp [and_comm]

/-- Evidence of a publisher that is not fenced yet is left. -/
theorem LinkEntry.Remains.mem_of_superseded (hremains : entry.Remains fenced before)
    (h : impl.superseded request = fenced ++ rest) {record : EvidenceRecord}
    (hrecord : record ∈ entry.current) (hp : record.publisher ∈ rest) : record ∈ before.current := by
  have hnodup : (fenced ++ rest).Nodup := h ▸ nodup_stalePublishers _
  obtain ⟨-, -, hdisjoint⟩ := List.nodup_append.mp hnodup
  rw [hremains.current, List.mem_filter]
  exact ⟨hrecord, by simpa using fun hfenced => hdisjoint _ hfenced _ hp rfl⟩

/-- An advance is quiet if no fence records a change while evidence is left that is still to go. -/
theorem quiet_of (hindexed : Indexed impl) (hsealed : impl.Sealed)
    (hentry : impl.entryOf link = some entry)
    (hfence : ∀ fenced publisher rest before after, impl.superseded request =
        fenced ++ publisher :: rest → (∃ record ∈ entry.current, record.publisher ∈ rest) →
      (impl.fencedUpTo request fenced).entryOf link = some before → entry.Still before →
      (impl.fencedUpTo request (fenced ++ [publisher])).entryOf link = some after →
      before.Purged publisher impl.config.maxHistoryPerLink
        (impl.fencedUpTo request (fenced ++ [publisher])) after →
      ¬ before.Transits impl.config.maxHistoryPerLink after) : impl.Quiet request link entry := by
  intro fenced
  induction fenced using List.reverseRecOn with
  | nil =>
    intro rest before _ _ hbefore
    obtain rfl := Option.some.inj (hentry.symm.trans hbefore)
    exact .refl _
  | append_singleton fenced publisher ih =>
    intro rest after h hleft hafter
    rw [List.append_assoc, List.singleton_append] at h
    obtain ⟨before, hbefore, -⟩ :=
      fencedUpTo_remains hindexed hsealed hentry fenced (publisher :: rest) h
    have hstill : entry.Still before := ih (publisher :: rest) before h
      (hleft.imp fun _ hrecord => ⟨hrecord.1, List.mem_cons_of_mem _ hrecord.2⟩) hbefore
    obtain ⟨after', hafter', hnext⟩ := fencedUpTo_next hindexed hsealed h hbefore
    obtain rfl := Option.some.inj (hafter.symm.trans hafter')
    obtain ⟨-, rfl⟩ | hpurged := hnext
    · exact hstill
    · exact hstill.trans (hpurged.recorded.resolve_right
        (hfence fenced publisher rest before after h hleft hbefore hstill hafter hpurged))

/-- A resolution on the way reads what it would read at the start. -/
theorem resolve_remains (hremains : entry.Remains fenced before) (hstill : entry.Still before)
    (records : List EvidenceRecord) :
    resolveLinkState records before.record = resolveLinkState records entry.record :=
  resolveLinkState_congr records hremains.adminIntent hstill.everEstablished
    (congrArg (·.symmetry) hremains.binding)

theorem Impl.Steady.quiet (h : impl.Steady request entry) (hindexed : Indexed impl)
    (hsealed : impl.Sealed) (hentry : impl.entryOf link = some entry) :
    impl.Quiet request link entry := by
  refine quiet_of hindexed hsealed hentry fun fenced publisher rest before after hsuperseded hleft
    hbefore hstill hafter hpurged htransits => ?_
  have hsuperseded' : impl.superseded request = (fenced ++ [publisher]) ++ rest := by
    simpa using hsuperseded
  obtain ⟨_, hbefore', hremains⟩ :=
    fencedUpTo_remains hindexed hsealed hentry fenced (publisher :: rest) hsuperseded
  obtain rfl := Option.some.inj (hbefore.symm.trans hbefore')
  obtain ⟨_, hafter', hremains'⟩ :=
    fencedUpTo_remains hindexed hsealed hentry (fenced ++ [publisher]) rest hsuperseded'
  obtain rfl := Option.some.inj (hafter.symm.trans hafter')
  obtain ⟨dropped, hdropped, hd⟩ := hpurged.held
  rw [hremains.current, List.mem_filter] at hdropped
  refine htransits.state ?_
  calc after.record.state
      _ = (resolveLinkState after.current before.record).state := hpurged.resolved (.inl htransits)
      _ = (resolveLinkState (entry.current.filter (·.publisher ∉ fenced ++ [publisher]))
            entry.record).state := by
        rw [resolve_remains hremains hstill, hremains'.current]
      _ = entry.record.state :=
        h (fenced ++ [publisher]) rest hsuperseded' ⟨dropped, hdropped.1, by simp [hd]⟩ hleft
      _ = before.record.state := hstill.state.symm

theorem Impl.OneStep.quiet {entry' : LinkEntry} (h : impl.OneStep request link entry entry')
    (hindexed : Indexed impl) (hsealed : impl.Sealed) (hentry : impl.entryOf link = some entry) :
    impl.Quiet request link entry := by
  refine quiet_of hindexed hsealed hentry fun fenced publisher rest before after hsuperseded
    ⟨record, hrecord, hp⟩ hbefore hstill hafter hpurged htransits => ?_
  have hsuperseded' : impl.superseded request = (fenced ++ [publisher]) ++ rest := by
    simpa using hsuperseded
  obtain ⟨_, hafter', hremains⟩ :=
    fencedUpTo_remains hindexed hsealed hentry (fenced ++ [publisher]) rest hsuperseded'
  obtain rfl := Option.some.inj (hafter.symm.trans hafter')
  refine h.presented fenced publisher rest before after hsuperseded hbefore hafter
    htransits.generation_ne record (hremains.mem_of_superseded hsuperseded' hrecord hp) ?_
  rw [hsuperseded']
  exact List.mem_append_right _ hp

/-- A quiet advance records at most one change. -/
theorem Impl.Quiet.recorded (h : impl.Quiet request link entry) (hindexed : Indexed impl)
    (hsealed : impl.Sealed) (hentry : impl.entryOf link = some entry) (fenced rest : List PublisherId)
    (hsuperseded : impl.superseded request = fenced ++ rest) {before : LinkEntry}
    (hbefore : (impl.fencedUpTo request fenced).entryOf link = some before) :
    entry.Still before ∨ entry.Transits impl.config.maxHistoryPerLink before := by
  induction fenced using List.reverseRecOn generalizing rest before with
  | nil =>
    obtain rfl := Option.some.inj (hentry.symm.trans hbefore)
    exact .inl (.refl _)
  | append_singleton fenced publisher ih =>
    rw [List.append_assoc, List.singleton_append] at hsuperseded
    obtain ⟨earlier, hearlier, hremains⟩ :=
      fencedUpTo_remains hindexed hsealed hentry fenced (publisher :: rest) hsuperseded
    obtain ⟨_, hbefore', ⟨-, rfl⟩ | hpurged⟩ :=
      fencedUpTo_next hindexed hsealed hsuperseded hearlier
    · obtain rfl := Option.some.inj (hbefore.symm.trans hbefore')
      exact ih (publisher :: rest) hsuperseded hearlier
    · -- evidence was left up to here, so that nothing has been recorded before
      obtain rfl := Option.some.inj (hbefore.symm.trans hbefore')
      obtain ⟨record, hrecord, hp⟩ := hpurged.held
      rw [hremains.current, List.mem_filter] at hrecord
      have hstill := h fenced (publisher :: rest) earlier hsuperseded
        ⟨record, hrecord.1, by simp [hp]⟩ hearlier
      exact hpurged.recorded.imp hstill.trans hstill.transits

theorem Impl.Quiet.oneStep (h : impl.Quiet request link entry) (hindexed : Indexed impl)
    (hsealed : impl.Sealed) (hentry : impl.entryOf link = some entry) {entry' : LinkEntry}
    (hentry' : (impl.fencedUpTo request (impl.superseded request)).entryOf link = some entry') :
    impl.OneStep request link entry entry' := by
  have hrecorded := h.recorded hindexed hsealed hentry _ [] (List.append_nil _).symm hentry'
  refine ⟨?_, ?_, fun hsame => ?_, fun fenced publisher rest before after hsuperseded hbefore hafter
    hchanged record hrecord hp => ?_⟩
  · exact hrecorded.imp (·.stateGeneration) (·.stateGeneration)
  · refine hrecorded.imp (·.history) fun htransits => ?_
    obtain ⟨change, -, -, hhistory⟩ := htransits.history
    exact ⟨change, hhistory⟩
  · have hstill := hrecorded.resolve_right fun htransits => htransits.state hsame
    exact ⟨hstill.stateGeneration, hstill.history⟩
  · have hsuperseded' : impl.superseded request = (fenced ++ [publisher]) ++ rest := by
      simpa using hsuperseded
    obtain ⟨_, hafter', hremains⟩ :=
      fencedUpTo_remains hindexed hsealed hentry (fenced ++ [publisher]) rest hsuperseded'
    obtain rfl := Option.some.inj (hafter.symm.trans hafter')
    rw [hremains.current, List.mem_filter, decide_eq_true_eq] at hrecord
    rw [hsuperseded', List.mem_append] at hp
    have hleft := hp.resolve_left hrecord.2
    have hbefore := h fenced (publisher :: rest) before hsuperseded
      ⟨record, hrecord.1, List.mem_cons_of_mem _ hleft⟩ hbefore
    have hafter := h (fenced ++ [publisher]) rest after hsuperseded' ⟨record, hrecord.1, hleft⟩ hafter
    exact hchanged (hafter.stateGeneration.trans hbefore.stateGeneration.symm)

/-- Where no counter is exhausted, nothing is recorded only if the state is what it was. -/
theorem Impl.Quiet.steady (h : impl.Quiet request link entry) (hindexed : Indexed impl)
    (hsealed : impl.Sealed) (hentry : impl.entryOf link = some entry)
    (hu : (impl.fencedUpTo request (impl.superseded request)).Unsaturated) :
    impl.Steady request entry := by
  intro fenced
  induction fenced using List.reverseRecOn with
  | nil => exact fun _ _ ⟨_, _, hp⟩ => absurd hp List.not_mem_nil
  | append_singleton fenced publisher ih =>
    rintro rest hsuperseded ⟨dropped, hdropped, hd⟩ ⟨left, hleft, hl⟩
    have hle : (impl.fencedUpTo request (fenced ++ [publisher])).Le
        (impl.fencedUpTo request (impl.superseded request)) := by
      rw [hsuperseded]
      exact (fencedUpTo_steps (fenced ++ [publisher]) rest).le
    have hsuperseded' : impl.superseded request = fenced ++ publisher :: rest := by
      simpa using hsuperseded
    obtain ⟨before, hbefore, hremains⟩ :=
      fencedUpTo_remains hindexed hsealed hentry fenced (publisher :: rest) hsuperseded'
    obtain ⟨after, hafter, hremains'⟩ :=
      fencedUpTo_remains hindexed hsealed hentry (fenced ++ [publisher]) rest hsuperseded
    have hstill : entry.Still before := h fenced (publisher :: rest) before hsuperseded'
      ⟨left, hleft, List.mem_cons_of_mem _ hl⟩ hbefore
    obtain ⟨_, hafter', ⟨hnone, rfl⟩ | hpurged⟩ :=
      fencedUpTo_next hindexed hsealed hsuperseded' hbefore
    · -- the publisher has no evidence on the link: what is left is what was left before
      obtain rfl := Option.some.inj (hafter.symm.trans hafter')
      rw [← hremains'.current, hremains.current]
      refine ih (publisher :: rest) hsuperseded' ⟨dropped, hdropped, ?_⟩
        ⟨left, hleft, List.mem_cons_of_mem _ hl⟩
      by_contra hfenced
      have hp : dropped.publisher = publisher := by
        simpa [hfenced] using List.mem_append.mp hd
      refine hnone dropped ?_ hp
      rw [hremains.current, List.mem_filter]
      exact ⟨hdropped, by simpa using hfenced⟩
    · obtain rfl := Option.some.inj (hafter.symm.trans hafter')
      have hstill' : entry.Still after :=
        h (fenced ++ [publisher]) rest after hsuperseded ⟨left, hleft, hl⟩ hafter
      -- What is left resolves to the state that the link had, since it has not moved.
      calc (resolveLinkState (entry.current.filter (·.publisher ∉ fenced ++ [publisher]))
            entry.record).state
          _ = (resolveLinkState after.current before.record).state := by
            rw [resolve_remains hremains hstill, hremains'.current]
          _ = after.record.state := (hpurged.resolved (.inr (hu.of_le hle))).symm
          _ = entry.record.state := hstill'.state

end Advance

/-- The advance of the epoch is one step for a link, and presents nothing that is resolved from
evidence of the old epoch, if the evidence that is left on the way always resolves to the state of
the link. Where no counter is exhausted, it is so only then. -/
theorem epoch_one_step {impl : Impl} (h : impl.Reachable) {request : AdvanceEpochRequest}
    (hcode : (impl.advanceCoordinatorEpoch request).2.outcome.code = .committed) {link : LinkId}
    {entry : LinkEntry} (hentry : impl.entryOf link = some entry) : ∃ entry',
      (impl.advanceCoordinatorEpoch request).1.entryOf link = some entry' ∧
      (impl.Steady request entry → impl.OneStep request link entry entry') ∧
      ((impl.advanceCoordinatorEpoch request).1.Unsaturated →
        impl.OneStep request link entry entry' → impl.Steady request entry) := by
  have hindexed : Indexed impl := h.indexed
  have hsealed : impl.Sealed := h.sealed
  have hadvanced : (impl.advanceCoordinatorEpoch request).1 =
      impl.fencedUpTo request (impl.superseded request) := by
    obtain hdeclined | ⟨-, hidempotent⟩ | ⟨-, heq, -⟩ := advanceCoordinatorEpoch_outcome impl request
    · exact absurd hcode (hdeclined.code_ne rfl)
    · rw [hcode] at hidempotent
      cases hidempotent
    · exact heq
  rw [hadvanced]
  obtain ⟨entry', hentry', -⟩ := fencedUpTo_remains hindexed hsealed hentry
    (impl.superseded request) [] (List.append_nil _).symm
  refine ⟨entry', hentry', fun hsteady => ?_, fun hu hstep => ?_⟩
  · exact (hsteady.quiet hindexed hsealed hentry).oneStep hindexed hsealed hentry hentry'
  · exact (hstep.quiet hindexed hsealed hentry).steady hindexed hsealed hentry hu

namespace Sample

def otherSource : SourceId := .fromValidated (lit "src-2")

/-- Another publisher has evidence on the link of the small run. -/
def seconded (claim : EvidenceClaim) : List Op :=
  ops ++
    [.registerPublisher ⟨{ registration with publisher := colleague, source := otherSource }⟩,
      .publishEvidence { publication, observation := { observation with
        key := { link, source := otherSource }
        observation := .fromValidated (lit "obs-2")
        publisher := colleague
        claim } }]

def secondedEngine (claim : EvidenceClaim) : Impl :=
  (seconded claim).foldl Impl.apply (.create {})

def advance : AdvanceEpochRequest := { newEpoch := .fromValue 1 }

end Sample

/-- Two publishers agree that the link is up: it waits for evidence, by one change of state. -/
theorem epoch_one_step_sample : ∃ entry entry',
    (Sample.secondedEngine .up).entryOf Sample.link = some entry ∧
    ((Sample.secondedEngine .up).advanceCoordinatorEpoch Sample.advance).1.entryOf Sample.link =
      some entry' ∧
    entry.current.length = 2 ∧ (Sample.secondedEngine .up).Steady Sample.advance entry ∧
    (Sample.secondedEngine .up).OneStep Sample.advance Sample.link entry entry' := by
  have hreachable : (Sample.secondedEngine .up).Reachable :=
    Impl.Reachable.foldl (.start ⟨_, rfl⟩) (Sample.seconded .up)
  have hsome : ((Sample.secondedEngine .up).entryOf Sample.link).isSome = true := by decide +kernel
  obtain ⟨entry, hentry⟩ := Option.isSome_iff_exists.mp hsome
  have hall : ∀ e ∈ (Sample.secondedEngine .up).entryOf Sample.link,
      e.current.length = 2 ∧ (Sample.secondedEngine .up).Steady Sample.advance e := by
    decide +kernel
  obtain ⟨hlength, hsteady⟩ := hall entry hentry
  obtain ⟨entry', hentry', hstep, -⟩ :=
    @epoch_one_step _ hreachable Sample.advance (by decide +kernel) _ _ hentry
  exact ⟨entry, entry', hentry, hentry', hlength, hsteady, hstep hsteady⟩

/-- Two publishers contradict each other, so that the link waits for evidence. When the first is
fenced, the link goes down on the word of the second, which is superseded as well, and then it waits
for evidence again: two changes of state, to the state that it was in. -/
theorem epoch_two_steps :
    ((Sample.secondedEngine .down).advanceCoordinatorEpoch Sample.advance).2.outcome.code =
      .committed ∧
    (Sample.secondedEngine .down).superseded Sample.advance =
      [Sample.publisher, Sample.colleague] ∧
    ((Sample.secondedEngine .down).entryOf Sample.link).map (fun entry =>
      (entry.record.state, entry.record.stateGeneration.value, entry.record.history.length)) =
        some (.revalidationRequired, 2, 2) ∧
    (((Sample.secondedEngine .down).fencedUpTo Sample.advance [Sample.publisher]).entryOf
      Sample.link).map (fun entry =>
        (entry.record.state, entry.record.stateGeneration.value,
          entry.current.map (·.publisher))) = some (.down, 3, [Sample.colleague]) ∧
    (((Sample.secondedEngine .down).advanceCoordinatorEpoch Sample.advance).1.entryOf
      Sample.link).map (fun entry =>
        (entry.record.state, entry.record.stateGeneration.value, entry.record.history.length)) =
        some (.revalidationRequired, 4, 4) := by
  decide +kernel

end LinkState
