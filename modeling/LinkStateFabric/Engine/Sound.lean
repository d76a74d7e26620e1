import LinkStateFabric.Engine.Fencing
import LinkStateFabric.Engine.Restored
import LinkStateFabric.Engine.Turns

/-!
# What an engine keeps of what a journal requires

* `LinkEntry.Sound`: the operations check the identities of a link, of its intent and of its
  evidence, so that every entry has them (`EditStep.sound`).
* `Impl.Paced`: no link is ahead of the generations of its engine.
* `Impl.Enlisted`: publishers and fences have identities, and the fences are no more than a journal
  may hold. `Impl.apply_authority` is the rule for such facts: they are proved for the three ways in
  which an operation touches the authority of a publisher.
* `Impl.Sound`: all of these hold in every run of a valid configuration (`sound_of_run`).
-/

namespace LinkState

open Sorting

/-! ## Entries -/

/-- What a journal requires of an entry, and the operations check. -/
structure LinkEntry.Sound (entry : LinkEntry) : Prop where
  wellFormed : entry.record.binding.WellFormed
  intent : ∀ intent ∈ entry.record.adminIntent,
    intent.publication.valid = true ∧ intent.publisher.valid = true
  evidence : ∀ record ∈ entry.current, record.Decoded
  retired : ¬ (entry.record.state = .retired ∧ entry.record.everEstablished = false ∧
    entry.record.stateGeneration.value = 0)

/-- An observation that is accepted is stored as the decoder requires it. -/
theorem storedRecord_decoded {request : PublishEvidenceRequest}
    (h : validateObservation request.observation request.publication = none) (t : Edit) :
    (t.storedRecord request.observation).Decoded := by
  unfold validateObservation at h
  split at h
  · cases h
  split at h
  · cases h
  rename_i hkey
  split at h
  · cases h
  rename_i hobservation
  split at h
  · cases h
  rename_i hpublisher
  split at h
  · cases h
  split at h
  · cases h
  split at h
  · cases h
  split at h
  · cases h
  rename_i hdetail
  split at h
  · cases h
  rename_i hmetadata
  simp only [Bool.or_eq_true, Bool.not_eq_true', not_or, Bool.not_eq_false] at hkey hpublisher
  simp only [Bool.not_eq_true', Bool.not_eq_false] at hobservation
  -- The digest is computed as the record is stored, and the other parts were checked before.
  exact ⟨hkey.1, hkey.2, hobservation, hpublisher.1, hpublisher.2, hdetail,
    not_lt.mp hmetadata, EvidenceRecord.computeDigest_recordDigest _ _⟩

section EditStep

variable {allow : Kind → Prop} {link : LinkId} {t t' : Edit}

theorem LinkEntry.Sound.drop (h : t.entry.Sound) (explain : Explanation) :
    (t.dropEvidence explain).entry.Sound := by
  have hrecord := Edit.dropEvidence_record t explain
  refine ⟨?_, ?_, fun record hmem => h.evidence record (List.mem_filter.mp hmem).1, ?_⟩ <;>
    rw [hrecord]
  · exact h.wellFormed
  · exact h.intent
  · exact h.retired

theorem LinkEntry.Sound.count (h : t.entry.Sound) (hcount : t.Advances t') : t'.entry.Sound := by
  obtain ⟨g, gs, e, s, rfl, -, -, -, hle⟩ := hcount.counters
  refine ⟨h.wellFormed, h.intent, h.evidence, fun ⟨hstate, hever, hzero⟩ => ?_⟩
  exact h.retired ⟨hstate, hever, Nat.le_zero.mp (hzero ▸ StrongGeneration.le_iff.mp hle)⟩

theorem EditStep.sound (h : EditStep allow link t t') (hsound : t.entry.Sound) : t'.entry.Sound := by
  cases h with
  | drop explain => exact hsound.drop explain
  | count hcount => exact hsound.count hcount
  | stamp => exact ⟨hsound.wellFormed, hsound.intent, hsound.evidence, hsound.retired⟩
  | raise =>
    obtain ⟨g, -, heq⟩ := t.raiseTopology_eq
    rw [heq]
    exact hsound
  | release publisher =>
    unfold Edit.releaseLink
    split <;> exact hsound
  | tally => exact hsound
  | intent intent hintent =>
    exact ⟨hsound.wellFormed, fun i hi => ⟨(hintent i hi).publication, (hintent i hi).publisher⟩,
      hsound.evidence, hsound.retired⟩
  | commit prepared publication publisher hfits =>
    obtain ⟨hframe, hcommits⟩ := Edit.commitPrepared_spec hfits publication publisher
    refine ⟨?_, ?_, ?_, fun hretired => ?_⟩
    · rw [hframe.binding]
      exact hsound.wellFormed
    · rw [hframe.adminIntent]
      exact hsound.intent
    · rw [hframe.current]
      -- The commit does not touch the evidence, and its target is live.
      exact hsound.evidence
    · exact hfits.target_live (hcommits.state.symm.trans hretired.1)
  | rebind _ binding hrebinds =>
    have hdropped := hsound.drop (explainRebinding binding)
    exact ⟨hrebinds.wellFormed hsound.wellFormed, hdropped.intent, hdropped.evidence,
      hdropped.retired⟩
  | publish _ request prepared _ hadmitted hcount =>
    have hcounted := (hsound.drop _).count hcount
    refine ⟨hcounted.wellFormed, hcounted.intent, fun record hmem => ?_, hcounted.retired⟩
    rcases List.mem_append.mp ((mem_sortBy evidenceLess).mp hmem) with hmem | hmem
    · exact hcounted.evidence record hmem
    · rw [List.mem_singleton.mp hmem]
      exact storedRecord_decoded hadmitted.valid _
  | retire _ request _ hcount hpos =>
    have hcounted := (hsound.drop _).count hcount
    obtain ⟨_, _, -, heq⟩ := Edit.enterRetired_eq _ request
    rw [heq]
    exact ⟨hcounted.wellFormed, hcounted.intent, hcounted.evidence,
      fun hretired => hpos.ne' hretired.2.2⟩

end EditStep

theorem LinkEntry.Sound.new {impl : Impl} {binding : TopologyBinding} {t : Edit}
    (hwf : binding.WellFormed) (hcount : Edit.Advances ⟨impl, newEntry binding⟩ t) :
    t.stampGlobal.stampTransition.indexNew.raiseTopology.entry.Sound := by
  obtain ⟨_, _, _, _, _, -, -, heq⟩ := hcount.bind_eq
  rw [heq]
  exact LinkEntry.Sound.mk hwf (fun _ hi => by cases hi) (fun _ hr => absurd hr List.not_mem_nil)
    fun h => by cases h.1

/-! ## Generations -/

/-- The record is not ahead of the generations of the engine. -/
structure Edit.Paced (t : Edit) : Prop where
  state : t.Ordered
  global : t.entry.record.globalGeneration ≤ t.impl.globalGeneration

section Paced

variable {allow : Kind → Prop} {link : LinkId} {t t' : Edit}

theorem Edit.Paced.drop (h : t.Paced) (explain : Explanation) : (t.dropEvidence explain).Paced := by
  obtain ⟨_, _, heq, -⟩ := t.dropEvidence_eq explain
  rw [heq]
  exact ⟨h.state, h.global⟩

theorem Edit.Paced.count (h : t.Paced) (hcount : t.Advances t') : t'.Paced := by
  refine ⟨hcount.ordered h.state, ?_⟩
  obtain ⟨g, gs, e, s, rfl, hle, -⟩ := hcount.counters
  exact h.global.trans hle

/-- The state generations of a commit advance together. -/
theorem Edit.Paced.commitPrepared (h : t.Paced) {prepared : PreparedCommit} (hfits : prepared.Fits t)
    (publication : PublicationId) (publisher : PublisherId) :
    (t.commitPrepared prepared publication publisher).Paced := by
  obtain ⟨hframe, hcommits⟩ := Edit.commitPrepared_spec hfits publication publisher
  refine ⟨?_, ?_⟩
  · have hstate := h.state
    unfold Edit.Ordered at hstate ⊢
    cases hchanged : prepared.stateChanged with
    | false =>
      obtain ⟨-, hs, hgs⟩ := hcommits.unchanged hchanged
      rw [hs, hgs]
      exact hstate
    | true =>
      obtain ⟨-, hs, hgs⟩ := hcommits.changed hchanged
      rw [StrongGeneration.le_iff] at hstate ⊢
      rw [StrongGeneration.next_eq_some hs, StrongGeneration.next_eq_some hgs]
      exact Nat.succ_le_succ hstate
  · rw [hframe.entryGlobal, hframe.globalGeneration]
    exact h.global

theorem EditStep.paced (h : EditStep allow link t t') (hpaced : t.Paced) : t'.Paced := by
  cases h with
  | drop explain => exact hpaced.drop explain
  | count hcount => exact hpaced.count hcount
  | stamp => exact ⟨hpaced.state, le_rfl⟩
  | raise =>
    obtain ⟨g, -, heq⟩ := t.raiseTopology_eq
    rw [heq]
    exact ⟨hpaced.state, hpaced.global⟩
  | release publisher =>
    unfold Edit.releaseLink
    split
    · exact hpaced
    · exact ⟨hpaced.state, hpaced.global⟩
  | tally => exact ⟨hpaced.state, hpaced.global⟩
  | intent => exact ⟨hpaced.state, hpaced.global⟩
  | commit prepared publication publisher hfits => exact hpaced.commitPrepared hfits ..
  | rebind _ binding _ =>
    have hdropped := hpaced.drop (explainRebinding binding)
    exact ⟨hdropped.state, hdropped.global⟩
  | publish _ request prepared _ _ hcount =>
    -- The record takes the global generation as it is after the count.
    have hcounted := (hpaced.drop _).count hcount
    unfold Edit.accept
    dsimp only
    obtain ⟨_, _, heq⟩ := Groundwork.noteAcceptance_eq
      (Edit.storeEvidence (Edit.stampGlobal _) request.observation).impl
      request.observation.publisher
    rw [heq]
    exact ⟨hcounted.state, le_rfl⟩
  | retire _ request _ hcount _ =>
    have hcounted := (hpaced.drop _).count hcount
    obtain ⟨_, _, -, heq⟩ := Edit.enterRetired_eq _ request
    rw [heq]
    exact ⟨hcounted.state, le_rfl⟩

end Paced

/-- No link is ahead of the generations of the engine. -/
def Impl.Paced (impl : Impl) : Prop :=
  ∀ link entry, impl.entryOf link = some entry → Edit.Paced ⟨impl, entry⟩

theorem Steps.paced {allow : Kind → Prop} {impl impl' : Impl} (hsteps : Steps allow impl impl')
    (h : impl.Paced) : impl'.Paced := by
  refine hsteps.invariant (P := Impl.Paced) (fun base base' hsame _ h link entry hentry => ?_)
    (fun _ base binding t _ _ hcount h link entry hentry => ?_)
    (fun link t t' hstep h l entry hentry => ?_) h
  · have hpaced := h link entry ((hsame.entryOf link).symm.trans hentry)
    exact ⟨hpaced.state.trans hsame.globalStateGeneration.ge,
      hpaced.global.trans hsame.globalGeneration.ge⟩
  -- A new entry starts at generation zero.
  · have hpaced : Edit.Paced ⟨base, newEntry binding⟩ := ⟨Nat.zero_le _, Nat.zero_le _⟩
    have hcounted := hpaced.count hcount
    obtain ⟨g, gs, ev, s, rfl, hg, hgs, -⟩ := hcount.counters
    obtain ⟨tg, -, heq⟩ := Edit.raiseTopology_eq (Edit.indexNew (Edit.stampTransition
      (Edit.stampGlobal (Edit.withCounters ⟨base, newEntry binding⟩ g gs ev s))))
    rw [heq] at hentry ⊢
    rw [commit_entryOf] at hentry
    split at hentry
    · cases hentry
      exact ⟨hcounted.state, le_rfl⟩
    · have hpaced := h link entry hentry
      exact ⟨hpaced.state.trans hgs, hpaced.global.trans hg⟩
  · rw [commit_entryOf] at hentry
    split at hentry
    · cases hentry
      have hpaced := h link t.entry (by rw [commit_entryOf, if_pos rfl])
      have hstepped := hstep.paced ⟨hpaced.state, hpaced.global⟩
      exact ⟨hstepped.state, hstepped.global⟩
    · rename_i hl
      rw [hstep.frame.entryOf] at hentry
      have hpaced := h l entry (by rw [commit_entryOf, if_neg hl, hentry])
      exact ⟨hpaced.state.trans hstep.frame.globalStateGeneration,
        hpaced.global.trans hstep.frame.globalGeneration⟩

/-! ## Publishers and fences -/

/-- Publishers and fences have identities, and there are no more fences than a journal may hold. -/
structure Impl.Enlisted (impl : Impl) : Prop where
  capacity : impl.config.maxPublishers ≤ limits.maxPublishers
  publishers : ∀ publisher authority, impl.store.publishers.lookup publisher = some authority →
    publisher.valid = true ∧ authority.workerBoot.valid = true
  fences : ∀ fence ∈ impl.store.fences, fence.publisher.valid = true ∧ fence.workerBoot.valid = true
  count : impl.store.fences.length ≤ limits.maxPublishers

namespace Impl.Enlisted

variable {impl impl' : Impl} (h : impl.Enlisted)

include h

theorem congr (hsame : SameAuthority impl impl') (hconfig : impl'.config = impl.config) :
    impl'.Enlisted := by
  refine ⟨?_, fun publisher authority' hauthority' => ?_, ?_, ?_⟩
  · rw [hconfig]
    exact h.capacity
  · have hcore := hsame.publishers publisher
    rw [hauthority', Option.map_some] at hcore
    obtain ⟨authority, hauthority, hcore⟩ := Option.map_eq_some_iff.mp hcore.symm
    have hboot := congrArg PublisherAuthority.workerBoot hcore
    obtain ⟨hpublisher, hvalid⟩ := h.publishers publisher authority hauthority
    exact ⟨hpublisher, (show authority.workerBoot = authority'.workerBoot from hboot) ▸ hvalid⟩
  · rw [hsame.fences]
    exact h.fences
  · rw [hsame.fences]
    exact h.count

theorem putAuthority {publisher : PublisherId} {authority : PublisherAuthority}
    (hpublisher : publisher.valid = true) (hboot : authority.workerBoot.valid = true) :
    (impl.putAuthority publisher authority).Enlisted := by
  refine ⟨h.capacity, fun p a hlookup => ?_, h.fences, h.count⟩
  unfold Impl.putAuthority at hlookup
  by_cases hp : p = publisher
  · subst hp
    rw [Finmap.lookup_insert] at hlookup
    cases hlookup
    exact ⟨hpublisher, hboot⟩
  · rw [Finmap.lookup_insert_of_ne _ hp] at hlookup
    exact h.publishers p a hlookup

theorem recordFence {fence : PublisherFence} (hpublisher : fence.publisher.valid = true)
    (hboot : fence.workerBoot.valid = true) : (impl.recordFence fence).Enlisted := by
  refine ⟨h.capacity, h.publishers, fun f hf => ?_, ?_⟩
  · rcases List.mem_append.mp (List.mem_of_mem_drop hf) with hf | hf
    · exact h.fences f hf
    · rw [List.mem_singleton.mp hf]
      exact ⟨hpublisher, hboot⟩
  · have hcapacity := h.capacity
    unfold Impl.recordFence
    dsimp only
    rw [List.length_drop]
    omega

/-- The incarnation that is fenced is one that was enrolled. -/
theorem noteFence {publisher : PublisherId} {authority : PublisherAuthority}
    (hauthority : impl.store.publishers.lookup publisher = some authority)
    (status : AuthorityStatus) (reason : Text) :
    (impl.noteFence publisher authority.workerBoot status reason).Enlisted := by
  obtain ⟨hpublisher, hboot⟩ := h.publishers publisher authority hauthority
  have hremembered : (impl.rememberFencedBoot publisher authority.workerBoot).Enlisted :=
    ⟨h.capacity, h.publishers, h.fences, h.count⟩
  unfold Impl.noteFence
  rw [if_pos hboot]
  refine recordFence ?_ hpublisher hboot
  unfold Impl.setAuthorityStatus
  split
  · exact hremembered
  · rename_i authority' hauthority'
    exact hremembered.putAuthority hpublisher (h.publishers publisher authority' hauthority').2

theorem apply {op : Op} (hload : op.isLoad = false) : (impl.apply op).Enlisted :=
  Impl.apply_authority (fun hsame hconfig h => congr h hsame hconfig)
    (fun hmay h => putAuthority h hmay.publisher_valid hmay.workerBoot)
    (fun status _ _ hauthority h => noteFence h hauthority status _)
    (fun _ h => ⟨h.capacity, h.publishers, h.fences, h.count⟩) hload h

end Impl.Enlisted

/-! ## Runs -/

/-- What a journal requires of an engine, and every operation keeps. -/
structure Impl.Sound (impl : Impl) : Prop where
  config : impl.config.Valid
  entries : ∀ link entry, impl.entryOf link = some entry → entry.Sound
  paced : impl.Paced
  enlisted : impl.Enlisted

theorem sound_create {config : EngineConfig} (h : config.Valid) : (Impl.create config).Sound := by
  obtain ⟨-, -, -, -, -, hpublishers, -⟩ := h.bounds
  have hnone (link : LinkId) : (Impl.create config).entryOf link = none := Finmap.lookup_empty link
  refine ⟨h, fun link entry hentry => ?_, fun link entry hentry => ?_, hpublishers,
    fun publisher authority hlookup => ?_, fun fence hfence => absurd hfence List.not_mem_nil,
    Nat.zero_le _⟩
  · rw [hnone] at hentry
    cases hentry
  · rw [hnone] at hentry
    cases hentry
  · cases (Finmap.lookup_empty publisher).symm.trans hlookup

/-- What a record of a journal becomes is as the decoder required the record. -/
theorem Recovered.sound {config : EngineConfig} {persisted : PersistedLink} {entry : LinkEntry}
    {g : GlobalGeneration} {gs : LinkStateGeneration} (h : Recovered config persisted.record entry)
    (hdecoded : persisted.Decoded g gs) : entry.Sound := by
  refine ⟨?_, ?_, fun record hmem => ?_, fun ⟨hstate, hever, hzero⟩ => ?_⟩
  · rw [h.binding]
    exact hdecoded.wellFormed
  · rw [h.adminIntent]
    exact hdecoded.record.intent
  · rw [h.current] at hmem
    exact absurd hmem List.not_mem_nil
  · by_cases hretired : persisted.record.state = .retired
    · refine hdecoded.retired ⟨hretired, h.everEstablished ▸ hever, ?_⟩
      rw [← (h.retired hretired).2.2]
      exact hzero
    · rw [(h.live hretired).1] at hstate
      unfold recoveredState at hstate
      split at hstate <;> cases hstate

/-- Every entry stays as a journal requires it, whatever the configuration. -/
theorem entries_sound_apply {impl : Impl}
    (h : ∀ link entry, impl.entryOf link = some entry → entry.Sound) (op : Op) :
    ∀ link entry, (impl.apply op).entryOf link = some entry → entry.Sound := by
  cases hload : op.isLoad with
  | false =>
    exact (apply_steps impl hload).entries (Q := fun _ entry => entry.Sound)
      (fun _ _ _ _ hwf hcount => LinkEntry.Sound.new hwf hcount)
      (fun _ _ _ hstep hsound => hstep.sound hsound) h
  | true =>
    cases op with
    | load config steps file =>
      rw [Impl.apply_load, load_accepted]
      cases hpayload : acceptedPayload config steps file with
      | none => exact h
      | some payload =>
        intro link entry hentry
        have hdecoded := acceptedPayload_decoded hpayload
        obtain ⟨persisted, hmem, -, hrecovered⟩ := recover_entryOf impl hdecoded hentry
        exact hrecovered.sound (hdecoded.links persisted hmem)
    | _ => cases hload

theorem Impl.Reachable.entries_sound {impl : Impl} (h : impl.Reachable) :
    ∀ link entry, impl.entryOf link = some entry → entry.Sound := by
  refine h.invariant (P := fun impl => ∀ link entry, impl.entryOf link = some entry → entry.Sound) ?_
    fun _ op hsound _ => entries_sound_apply hsound op
  rintro _ ⟨config, rfl⟩ link entry hentry
  rw [Impl.entryOf_create] at hentry
  cases hentry

theorem Impl.Sound.recover {impl : Impl} (h : impl.Sound) {payload : JournalPayload}
    (hdecoded : payload.Decoded) : (impl.recover payload).impl.Sound := by
  have hrecovers := recovers_recover impl hdecoded
  have hconfig : (impl.recover payload).impl.config = impl.config := hrecovers.config
  obtain ⟨adopted, hadopted, heq⟩ := adopted_recover impl hdecoded
  obtain ⟨boots, hstart⟩ := rebuildFences_eq (impl.resetTo payload) payload.fences
  rw [hstart] at hadopted
  refine ⟨hconfig ▸ h.config, fun link entry hentry => ?_, fun link entry hentry => ?_,
    hconfig ▸ h.enlisted.capacity, fun publisher authority hlookup => ?_, ?_, ?_⟩
  · obtain ⟨persisted, hmem, -, hrecovered⟩ := recover_entryOf impl hdecoded hentry
    exact hrecovered.sound (hdecoded.links persisted hmem)
  · rw [heq] at hentry ⊢
    obtain ⟨persisted, hmem, -, hrecovered, hstate⟩ := hadopted.entries link entry hentry
    have hlink := hdecoded.links persisted hmem
    refine ⟨hstate hlink.stateGeneration, ?_⟩
    rw [hrecovered.globalGeneration]
    exact hlink.global.trans hadopted.globalGeneration.ge
  · rw [hrecovers.publishers] at hlookup
    cases (Finmap.lookup_empty publisher).symm.trans hlookup
  · rw [(recover_fences impl hdecoded).1]
    exact fun fence hfence => ⟨(hdecoded.fences.2 fence hfence).publisher,
      (hdecoded.fences.2 fence hfence).workerBoot⟩
  · rw [(recover_fences impl hdecoded).1]
    exact hdecoded.fences.1

theorem Impl.Sound.apply {impl : Impl} (h : impl.Sound) (op : Op) : (impl.apply op).Sound := by
  cases hload : op.isLoad with
  | false =>
    have hsteps := apply_steps impl hload
    exact ⟨hsteps.le.config ▸ h.config, entries_sound_apply h.entries op, hsteps.paced h.paced,
      h.enlisted.apply hload⟩
  | true =>
    cases op with
    | load config steps file =>
      rw [Impl.apply_load, load_accepted]
      cases hpayload : acceptedPayload config steps file with
      | none => exact h
      | some payload => exact h.recover (acceptedPayload_decoded hpayload)
    | _ => cases hload

theorem sound_of_run {config : EngineConfig} (hvalid : config.Valid) {ok : Impl → Op → Prop}
    {impl : Impl} (h : Runs.Run (· = Impl.create config) Impl.apply ok impl) : impl.Sound := by
  refine h.invariant (P := Impl.Sound) ?_ fun _ op hsound _ => hsound.apply op
  rintro _ rfl
  exact sound_create hvalid

end LinkState
