import LinkStateFabric.Engine.Dispositions
import LinkStateFabric.Engine.Details
import LinkStateFabric.Engine.Sessions
import LinkStateFabric.Engine.Sound
import LinkStateFabric.Results.Journals
import Mathlib.Algebra.BigOperators.Group.Finset.Basic

/-!
# Whether a saved journal can be loaded

* `Impl.Legible`: what the decoder requires of an engine, and no operation checks: that the record
  of every link has an identifier, that the lists of its binding are no longer than the decoder
  reads, and that the reasons of the fences are texts that it accepts.
* `loadable_buildPayload`: of an engine that a run reaches, the journal is loadable exactly if the
  engine is legible. What is saved is loaded if it also is no larger than a journal may be
  (`load_save_iff`).
* `Op.Legible`: the operations that keep an engine legible (`Impl.Legible.apply`).
-/

namespace LinkState

open Sorting

/-! ## Legible engines -/

/-- What the decoder requires of an entry, and no operation checks. -/
structure LinkEntry.Legible (entry : LinkEntry) : Prop where
  record : entry.record.record.valid = true
  members : entry.record.binding.memberLinks.length ≤ limits.maxAuthorityScopeLinks
  backing : entry.record.binding.backingLinks.length ≤ limits.maxAuthorityScopeLinks

/-- The decoder accepts the reason of a fence. -/
def PublisherFence.Legible (fence : PublisherFence) : Prop :=
  validateText fence.reason limits.maxDetailLength = none

/-- What the decoder requires of an engine, and no operation checks. -/
structure Impl.Legible (impl : Impl) : Prop where
  entries : ∀ link entry, impl.entryOf link = some entry → entry.Legible
  fences : ∀ fence ∈ impl.store.fences, fence.Legible

section Payload

variable {impl : Impl} {includeHistory : Bool}

theorem persistEntry_withinBounds (hsound : impl.Sound) (hindexed : Indexed impl)
    (htrimmed : impl.Trimmed) {link : LinkId} {entry : LinkEntry}
    (hentry : impl.entryOf link = some entry) (hlegible : entry.Legible) :
    (persistEntry includeHistory entry).WithinBounds impl.globalGeneration
      impl.globalStateGeneration := by
  obtain ⟨-, -, -, hevidence, -, -, -, hhistory, -⟩ := hsound.config.bounds
  have hentrySound := hsound.entries link entry hentry
  have hslotted := hindexed.slotted link entry hentry
  have hpaced := hsound.paced link entry hentry
  obtain ⟨history, hrecord⟩ := persistEntry_record includeHistory entry
  have hdecoded : (persistEntry includeHistory entry).record.Decoded := by
    rw [hrecord]
    exact ⟨hlegible.record, hentrySound.wellFormed.link, hentrySound.wellFormed.localEndpoint,
      ⟨hlegible.members, hentrySound.wellFormed.members⟩,
      ⟨hlegible.backing, hentrySound.wellFormed.backing⟩, hentrySound.intent⟩
  have hlink : (persistEntry includeHistory entry).Decoded impl.globalGeneration
      impl.globalStateGeneration := by
    refine ⟨hdecoded, ?_, ?_, ?_, ?_⟩ <;> rw [hrecord]
    · exact hentrySound.wellFormed.topologyGeneration
    · exact hpaced.state
    · exact hpaced.global
    · exact hentrySound.retired
  refine ⟨hdecoded, ?_, hslotted.capacity.trans hevidence, fun r hr => ?_, hslotted.nodup, hlink⟩
  · unfold persistEntry
    cases includeHistory with
    | true => exact (htrimmed link entry hentry).history.trans hhistory
    | false => exact Nat.zero_le _
  · refine ⟨hentrySound.evidence r hr, ?_⟩
    rw [persistEntry_binding, hslotted.link_eq]
    exact hslotted.key_link r hr

theorem nodup_buildPayload (hindexed : Indexed impl) :
    ((impl.buildPayload includeHistory).links.map (·.record.binding.link)).Nodup := by
  have hlinks (l : List LinkId) : (l.filterMap fun link =>
      (impl.entryOf link).map (persistEntry includeHistory)).map (·.record.binding.link) =
        l.filter fun link => (impl.entryOf link).isSome := by
    induction l with
    | nil => rfl
    | cons link l ih =>
      cases hentry : impl.entryOf link with
      | none =>
        rw [List.filterMap_cons_none (by rw [hentry]; rfl), List.filter_cons_of_neg (by simp [hentry])]
        exact ih
      | some entry =>
        rw [List.filterMap_cons_some (by rw [hentry]; rfl), List.filter_cons_of_pos (by simp [hentry]),
          List.map_cons, ih, persistEntry_binding, (hindexed.slotted link entry hentry).link_eq]
  unfold Impl.buildPayload
  dsimp only
  rw [hlinks]
  exact (nodup_listing _).filter _

/-- The journal of a sound engine is loadable exactly if the engine is legible. -/
theorem loadable_buildPayload (hsound : impl.Sound) (hindexed : Indexed impl)
    (htrimmed : impl.Trimmed) : (impl.buildPayload includeHistory).Loadable ↔ impl.Legible := by
  constructor
  · intro h
    refine ⟨fun link entry hentry => ?_, fun fence hfence => (h.fences.2 fence hfence).reason⟩
    obtain ⟨hintact, -⟩ := h.links _ (mem_buildPayload.mpr ⟨link, entry, hentry, rfl⟩)
    have hdecoded := hintact.record
    obtain ⟨history, hrecord⟩ := persistEntry_record includeHistory entry
    rw [hrecord] at hdecoded
    exact ⟨hdecoded.record_valid, hdecoded.members.1, hdecoded.backing.1⟩
  · intro h
    refine JournalPayload.WithinBounds.loadable ⟨fun persisted hmem => ?_,
      nodup_buildPayload hindexed, hsound.enlisted.count, fun fence hfence => ?_⟩
    · obtain ⟨link, entry, hentry, rfl⟩ := mem_buildPayload.mp hmem
      exact persistEntry_withinBounds hsound hindexed htrimmed hentry (h.entries link entry hentry)
    · obtain ⟨hpublisher, hboot⟩ := hsound.enlisted.fences fence hfence
      exact ⟨hpublisher, hboot, h.fences fence hfence⟩

end Payload

/-! ## Sizes -/

/-- What an entry takes in a journal. -/
def LinkEntry.size (includeHistory : Bool) (entry : LinkEntry) : Nat :=
  PersistedLink.size includeHistory { record := entry.record, evidence := entry.current }

/-- What an engine takes in a journal. -/
def Impl.journalSize (impl : Impl) (includeHistory : Bool) : Nat :=
  journalHeaderBytes + journalTrailerBytes + 8 +
    ∑ link ∈ impl.store.links.keys, (impl.entryOf link).elim 0 (LinkEntry.size includeHistory) +
    (impl.store.fences.map PublisherFence.size).sum

theorem size_buildPayload (impl : Impl) (includeHistory : Bool) :
    (impl.buildPayload includeHistory).size includeHistory = impl.journalSize includeHistory := by
  have hlinks (l : List LinkId) : ((l.filterMap fun link =>
      (impl.entryOf link).map (persistEntry includeHistory)).map
        (PersistedLink.size includeHistory)).sum =
      (l.map fun link => (impl.entryOf link).elim 0 (LinkEntry.size includeHistory)).sum := by
    induction l with
    | nil => rfl
    | cons link l ih =>
      cases hentry : impl.entryOf link with
      | none =>
        rw [List.filterMap_cons_none (by rw [hentry]; rfl), List.map_cons, hentry, List.sum_cons, ih]
        exact (Nat.zero_add _).symm
      | some entry =>
        rw [List.filterMap_cons_some (by rw [hentry]; rfl), List.map_cons, List.map_cons, hentry,
          List.sum_cons, List.sum_cons, ih]
        cases includeHistory <;> rfl
  unfold JournalPayload.size Impl.journalSize Impl.buildPayload
  dsimp only
  rw [hlinks, ← List.sum_toFinset _ (nodup_listing _)]
  have hkeys : (listing impl.store.links.keys).toFinset = impl.store.links.keys := by
    ext link
    simp
  rw [hkeys]

/-- What is saved of a sound engine can be loaded exactly if it is legible and no larger than a
journal may be. -/
theorem storable_buildPayload {impl : Impl} (hsound : impl.Sound) (hindexed : Indexed impl)
    (htrimmed : impl.Trimmed) {config : PersistenceConfig} (hvalid : config.Valid)
    (hrecords : impl.store.links.keys.card ≤ config.maxRecords) :
    (impl.buildPayload config.includeHistory).Storable config config ↔
      impl.Legible ∧ impl.journalSize config.includeHistory ≤ maxJournalBytes config := by
  constructor
  · intro h
    exact ⟨(loadable_buildPayload hsound hindexed htrimmed).mp h.loadable,
      size_buildPayload impl config.includeHistory ▸ h.size⟩
  · rintro ⟨hlegible, hsize⟩
    refine ⟨hvalid, (size_buildPayload impl config.includeHistory).trans_le hsize, ?_,
      (loadable_buildPayload hsound hindexed htrimmed).mpr hlegible⟩
    refine le_trans ?_ hrecords
    rw [← length_listing]
    exact List.length_filterMap_le ..

/-! ## Record identifiers -/

/-- A prefix does not spoil an identifier, as long as there is room for it. -/
theorem validateIdentifier_lsr {value : Text} (h : validateIdentifier value = .ok) :
    validateIdentifier (lit "lsr." ++ value) = .ok ↔
      value.length + 4 ≤ limits.maxIdentifierLength := by
  have hlit : lit "lsr." = [108, 115, 114, 46] := by decide
  cases value with
  | nil => cases h
  | cons front rest =>
    obtain ⟨back, hback⟩ : ∃ back, (front :: rest).getLast? = some back :=
      ⟨_, List.getLast?_eq_some_getLast (List.cons_ne_nil front rest)⟩
    have hlast : (lit "lsr." ++ front :: rest).getLast? = some back := by
      rw [List.getLast?_append, hback]
      rfl
    unfold validateIdentifier at h ⊢
    rw [hback] at h
    rw [hlast, hlit]
    simp only [List.head?_cons, List.cons_append, List.nil_append, List.length_cons] at h ⊢
    split at h
    · cases h
    split at h
    · rename_i hscan
      split at h
      · cases h
      rename_i hfront
      have hfront : isAlphanumeric front = true := by simpa using hfront
      split at h
      · cases h
      rename_i hend
      -- Three letters and a dot in front of a letter or digit add no fault of form.
      have hdots : scanIdentifier (108 :: 115 :: 114 :: 46 :: front :: rest) = .ok := by
        rw [scanIdentifier_cons (by decide), scanIdentifier_cons (by decide),
          scanIdentifier_cons (by decide), scanIdentifier, if_neg (by decide), if_neg, hscan]
        exact fun hdot => ne_dot_of_isAlphanumeric hfront (Option.some.inj hdot.2)
      rw [hdots, if_neg (by decide : ¬ (!isAlphanumeric 108) = true), if_neg hend]
      split
      · rename_i hlong
        exact iff_of_false (fun hok => by cases hok) (by omega)
      · rename_i hshort
        exact iff_of_true rfl (by omega)
    · rename_i hbad
      exact absurd h hbad

/-- The record of a link has an identifier exactly if that of the link leaves room for its prefix. -/
theorem recordIdFor_valid {link : LinkId} (h : link.valid = true) :
    (StrongId.fromValidated (recordIdFor link) : LinkStateRecordId).valid = true ↔
      link.value.length + 4 ≤ limits.maxIdentifierLength := by
  rw [← validateIdentifier_lsr (StrongId.validateIdentifier_value h)]
  unfold StrongId.fromValidated
  split
  · rename_i hok
    refine iff_of_true (StrongId.valid_iff.mpr fun hnil => ?_) hok
    rw [show recordIdFor link = [] from hnil] at hok
    cases hok
  · rename_i hbad
    exact iff_of_false (by simp) hbad

/-! ## Operations -/

/-- The lists of a binding are no longer than the decoder reads. -/
def TopologyBinding.Legible (binding : TopologyBinding) : Prop :=
  binding.memberLinks.length ≤ limits.maxAuthorityScopeLinks ∧
    binding.backingLinks.length ≤ limits.maxAuthorityScopeLinks

/-- The operations that write nothing that the decoder refuses. -/
def Op.Legible : Op → Prop
  | .bindLink request =>
    request.binding.link.value.length + 4 ≤ limits.maxIdentifierLength ∧
      request.binding.normalize.Legible
  | .supersedeTopology request => ∀ binding ∈ request.replacement, binding.normalize.Legible
  | .invalidatePublisher request =>
    validateText (withReason (lit "publisher invalidated") request.reason) limits.maxDetailLength =
      none
  | _ => True

section Edits

variable {allow : Kind → Prop} {link : LinkId} {t t' : Edit}

theorem LinkEntry.Legible.congr {entry entry' : LinkEntry} (h : entry.Legible)
    (hrecord : entry'.record.record = entry.record.record)
    (hbinding : entry'.record.binding = entry.record.binding) : entry'.Legible := by
  refine ⟨?_, ?_, ?_⟩
  · rw [hrecord]
    exact h.record
  · rw [hbinding]
    exact h.members
  · rw [hbinding]
    exact h.backing

theorem LinkEntry.Legible.drop (h : t.entry.Legible) (explain : Explanation) :
    (t.dropEvidence explain).entry.Legible := by
  have hrecord := Edit.dropEvidence_record t explain
  exact h.congr (by rw [hrecord]) (by rw [hrecord])

theorem LinkEntry.Legible.count (h : t.entry.Legible) (hcount : t.Advances t') :
    t'.entry.Legible := by
  obtain ⟨g, gs, e, s, rfl, -⟩ := hcount.counters
  exact h.congr rfl rfl

/-- Only a rebinding writes what the decoder could refuse. -/
theorem EditStep.legible (hr : ¬ allow .rebind) (h : EditStep allow link t t')
    (hlegible : t.entry.Legible) : t'.entry.Legible := by
  cases h with
  | drop explain => exact hlegible.drop explain
  | count hcount => exact hlegible.count hcount
  | stamp => exact hlegible.congr rfl rfl
  | raise =>
    obtain ⟨g, -, heq⟩ := t.raiseTopology_eq
    rw [heq]
    exact hlegible
  | release publisher =>
    unfold Edit.releaseLink
    split <;> exact hlegible
  | tally => exact hlegible
  | intent => exact hlegible.congr rfl rfl
  | commit prepared publication publisher hfits =>
    obtain ⟨hframe, -⟩ := Edit.commitPrepared_spec hfits publication publisher
    exact hlegible.congr hframe.record hframe.binding
  | rebind ha => exact absurd ha hr
  | publish _ request _ _ _ hcount =>
    exact ((hlegible.drop _).count hcount).congr rfl rfl
  | retire _ request _ hcount _ =>
    obtain ⟨_, _, -, heq⟩ := Edit.enterRetired_eq _ request
    rw [heq]
    exact ((hlegible.drop _).count hcount).congr rfl rfl

/-- The entries of an engine are legible. -/
def Impl.LegibleEntries (impl : Impl) : Prop :=
  ∀ link entry, impl.entryOf link = some entry → entry.Legible

theorem Steps.legible (hb : ¬ allow .bind) (hr : ¬ allow .rebind) {impl impl' : Impl}
    (hsteps : Steps allow impl impl') (h : impl.LegibleEntries) : impl'.LegibleEntries :=
  hsteps.entries (Q := fun _ entry => entry.Legible) (fun ha => absurd ha hb)
    (fun _ _ _ hstep hlegible => hstep.legible hr hlegible) h

/-- A rebinding writes its binding, and what follows it nothing that could be refused. -/
theorem applyRebinding_legible {impl : Impl} (h : impl.LegibleEntries) {entry : LinkEntry}
    (hentry : impl.entryOf link = some entry) {binding : TopologyBinding} (hbinding : binding.Legible)
    (reason : Text) : (Edit.applyRebinding ⟨impl, entry⟩ link binding reason).1.LegibleEntries := by
  obtain ⟨t, hsteps, hresult⟩ :=
    @applyRebinding_rebound (fun _ => False) impl link entry binding reason
  -- The texts of the new binding come with it, and the others are those of before.
  have hrebound : (Edit.rebind (Edit.dropEvidence ⟨impl, entry⟩ (explainRebinding binding))
      binding).entry.Legible := by
    have hdropped := LinkEntry.Legible.drop (t := ⟨impl, entry⟩) (h link entry hentry)
      (explainRebinding binding)
    exact ⟨hdropped.record, hbinding.1, hbinding.2⟩
  have hlast : t.entry.Legible := by
    clear hresult
    induction hsteps with
    | refl => exact hrebound
    | tail _ hstep ih => exact hstep.legible id ih
  have hothers : ∀ l, t.impl.entryOf l = impl.entryOf l := by
    intro l
    rw [hsteps.frame.entryOf]
    obtain ⟨_, _, heq, -⟩ := Edit.dropEvidence_eq ⟨impl, entry⟩ (explainRebinding binding)
    rw [heq]
    rfl
  have hcommit : (t.commit link).LegibleEntries := by
    intro l e he
    rw [commit_entryOf] at he
    split at he
    · cases he
      exact hlast
    · rw [hothers] at he
      exact h l e he
  rcases hresult with heq | heq <;> rw [heq]
  · exact hcommit
  · exact (@invalidateStaleDependents_steps (fun _ => False) _ _).legible id id hcommit

end Edits

section Operations

variable {impl : Impl} {op : Op}

/-- The decoder accepts the reason of a fence, unless it is one that a request gives. -/
theorem Op.Legible.reason (h : op.Legible) {reason : Text} (hreason : op.FenceReason reason) :
    validateText reason limits.maxDetailLength = none := by
  have hmax : limits.maxDetailLength = 256 := rfl
  cases hreason with
  | superseded boot =>
    have hplain := (Plain.lit (s := "superseded by worker boot ") (by decide)).append (.id boot)
    exact (hplain.mono (by decide)).validateText
  | epoch epoch =>
    have hplain := (Plain.lit (s := "coordinator epoch advanced to ") (by decide)).append
      (.generation epoch)
    exact (hplain.mono (by decide)).validateText
  | invalidated request heq =>
    subst heq
    exact h

theorem Op.Legible.fences (hop : op.Legible) (hload : op.isLoad = false)
    (h : ∀ fence ∈ impl.store.fences, fence.Legible) :
    ∀ fence ∈ (impl.apply op).store.fences, fence.Legible := by
  refine Impl.apply_authority (P := fun impl => ∀ fence ∈ impl.store.fences, fence.Legible)
    (fun hsame _ h => by rw [hsame.fences]; exact h) (fun _ h => h)
    (fun {impl publisher authority} status {reason} hreason _ h fence hfence => ?_)
    (fun _ h => h) hload h
  have hold : (Impl.setAuthorityStatus (if authority.workerBoot.valid then
      impl.rememberFencedBoot publisher authority.workerBoot else impl) publisher
        status).store.fences = impl.store.fences := by
    unfold Impl.setAuthorityStatus
    split <;> split <;> rfl
  rcases List.mem_append.mp (List.mem_of_mem_drop hfence) with hfence | hfence
  · rw [hold] at hfence
    exact h fence hfence
  · rw [List.mem_singleton.mp hfence]
    exact hop.reason hreason

theorem bindLink_legible (h : impl.LegibleEntries) {request : BindLinkRequest}
    (hop : Op.Legible (.bindLink request)) : (impl.bindLink request).1.LegibleEntries := by
  rcases bindLink_outcome impl request with hdeclined | ⟨heq, -⟩ | ⟨hbindable, heq⟩ |
    ⟨entry, -, hrebindable, heq⟩
  · intro link entry hentry
    rw [hdeclined.sameLinks.entryOf] at hentry
    exact h link entry hentry
  · rw [heq]
    exact h
  · rw [heq]
    have hwf := wellFormed_of_validBinding hbindable.valid
    unfold Impl.bindNew
    rw [if_neg (not_le.mpr hbindable.capacity)]
    split
    · exact h
    rename_i t hc
    have hcount := Edit.advanceAll_advances [.global] (by decide)
      ⟨impl, newEntry request.binding.normalize⟩
    rw [hc] at hcount
    obtain ⟨_, _, _, _, _, -, -, hraise⟩ := hcount.bind_eq
    intro link entry hentry
    dsimp only at hentry
    rw [hraise, commit_entryOf] at hentry
    split at hentry
    · cases hentry
      exact ⟨(recordIdFor_valid hwf.link).mpr hop.1, hop.2.1, hop.2.2⟩
    · exact h link entry hentry
  · rw [heq]
    exact applyRebinding_legible h hrebindable.bound hop.2 _

theorem supersedeTopology_legible (h : impl.LegibleEntries) {request : SupersedeTopologyRequest}
    (hop : Op.Legible (.supersedeTopology request)) :
    (impl.supersedeTopology request).1.LegibleEntries := by
  rcases supersedeTopology_outcome impl request with hdeclined |
    ⟨entry, binding, -, hbinding, hrebindable, heq⟩
  · intro link entry hentry
    rw [hdeclined.sameLinks.entryOf] at hentry
    exact h link entry hentry
  · rw [heq]
    refine applyRebinding_legible h hrebindable.bound ?_ _
    have hentry := h request.link entry hrebindable.bound
    unfold supersedingBinding at hbinding
    split at hbinding
    · cases hbinding
      exact ⟨hentry.members, hentry.backing⟩
    rename_i replacement hreplacement
    dsimp only at hbinding
    split at hbinding
    · cases hbinding
    split at hbinding
    · cases hbinding
    cases hbinding
    exact hop replacement hreplacement

theorem Op.Legible.entries (hop : op.Legible) (hload : op.isLoad = false)
    (h : impl.LegibleEntries) : (impl.apply op).LegibleEntries := by
  cases op with
  | bindLink request => exact bindLink_legible h hop
  | supersedeTopology request => exact supersedeTopology_legible h hop
  | load => cases hload
  | _ => exact (apply_steps impl hload).legible (by simp [Op.kinds]) (by simp [Op.kinds]) h

theorem Impl.Legible.apply (h : impl.Legible) (hop : op.Legible) : (impl.apply op).Legible := by
  cases hload : op.isLoad with
  | false => exact ⟨hop.entries hload h.entries, hop.fences hload h.fences⟩
  | true =>
    cases op with
    | load config steps file =>
      rw [Impl.apply_load, load_accepted]
      cases hpayload : acceptedPayload config steps file with
      | none => exact h
      | some payload =>
        -- What a journal holds was legible when it was decoded.
        have hdecoded := acceptedPayload_decoded hpayload
        refine ⟨fun link entry hentry => ?_, fun fence hfence => ?_⟩
        · obtain ⟨persisted, hmem, -, hrecovered⟩ := recover_entryOf impl hdecoded hentry
          have hrecord := (hdecoded.links persisted hmem).record
          refine ⟨?_, ?_, ?_⟩
          · rw [hrecovered.record_eq]
            exact hrecord.record_valid
          · rw [hrecovered.binding]
            exact hrecord.members.1
          · rw [hrecovered.binding]
            exact hrecord.backing.1
        · rw [Option.elim_some, (recover_fences impl hdecoded).1] at hfence
          exact (hdecoded.fences.2 fence hfence).reason
    | _ => cases hload

end Operations

/-! ## Runs -/

/-- What a run of a valid configuration saves is loaded exactly if the engine is legible and its
journal no larger than a journal may be. -/
theorem load_save_iff {config : EngineConfig} (hvalid : config.Valid) {impl : Impl}
    (h : Runs.Run (· = Impl.create config) Impl.apply (fun _ _ => True) impl)
    {persistence : PersistenceConfig} (hpersistence : persistence.Valid)
    (hrecords : impl.store.links.keys.card ≤ persistence.maxRecords) {writes : WriteSteps}
    {before : Option Bytes} (hsaved : (impl.save persistence writes before).1.code = .committed)
    {reads : ReadSteps} (hopens : reads.opens = true) (hreads : reads.reads = true) (fresh : Impl) :
    (fresh.load persistence reads (impl.save persistence writes before).2).2.outcome.code =
        .committed ↔
      impl.Legible ∧ impl.journalSize persistence.includeHistory ≤ maxJournalBytes persistence := by
  have hreachable : impl.Reachable :=
    h.invariant (P := Impl.Reachable) (fun _ hs => .start ⟨config, hs⟩)
      fun _ op hs _ => .step op hs trivial
  have hstorable := storable_buildPayload (sound_of_run hvalid h)
    (Impl.Reachable.indexed hreachable) (Impl.Reachable.trimmed hreachable) hpersistence hrecords
  have hwritten : (impl.save persistence writes before).1.isError = false := by
    unfold Outcome.isError
    rw [hsaved]
  have hload := @load_encoded (impl.buildPayload persistence.includeHistory) persistence persistence
    reads fresh hopens hreads (histories_buildPayload impl persistence)
  rw [Session.save_journal hwritten, ← hstorable]
  constructor
  · intro hcommitted
    by_contra hnot
    obtain ⟨refusal, hrefusal, heq⟩ := hload.2 hnot
    have heq : fresh.load persistence reads (some (impl.encode persistence).1) =
      (fresh, { outcome := .make refusal.1 refusal.2 }) := heq
    rw [heq] at hcommitted
    exact hrefusal hcommitted
  · exact fun h => (hload.1 h).2

theorem legible_create (config : EngineConfig) : (Impl.create config).Legible := by
  refine ⟨fun link entry hentry => ?_, fun fence hfence => absurd hfence List.not_mem_nil⟩
  cases (Finmap.lookup_empty link).symm.trans hentry

namespace Sample

theorem engine_legible_run :
    Runs.Run (· = Impl.create {}) Impl.apply (fun _ op => op.Legible) engine := by
  have hstart : Runs.Run (· = Impl.create {}) Impl.apply (fun _ op => op.Legible) (.create {}) :=
    .start rfl
  exact hstart.foldl (l := ops) ⟨⟨by decide, by decide, by decide⟩, trivial, trivial, trivial⟩

theorem save_plain_code (impl : Impl) : (impl.save {} {} none).1.code = .committed := rfl

/-- An invalidation with a reason that a frame may carry. -/
def wordyInvalidation : InvalidatePublisherRequest :=
  { publisher, workerBoot := some boot, epoch := .zero, reason := List.replicate 240 0x61 }

/-- The engine whose publisher is fenced for that reason. -/
def wordy : Impl := registered.apply (.invalidatePublisher wordyInvalidation)

theorem wordy_run : Runs.Run (· = Impl.create {}) Impl.apply (fun _ _ => True) wordy := by
  have hstart : Runs.Run (· = Impl.create {}) Impl.apply (fun _ _ => True) (.create {}) := .start rfl
  exact .step _ (hstart.foldl (l := ops.take 2) ⟨trivial, trivial, trivial⟩) trivial

theorem wordy_reason : ∃ fence ∈ wordy.store.fences,
    validateText fence.reason limits.maxDetailLength ≠ none := by decide +kernel

theorem wordy_unstorable : ¬ (wordy.buildPayload false).Storable {} {} := by
  obtain ⟨fence, hmem, hreason⟩ := wordy_reason
  exact fun h => hreason (h.loadable.fences.2 fence hmem).reason

end Sample

/-- What a run of a valid configuration saves is loaded exactly if the engine is legible and its
journal no larger than a journal may be; and a run is legible whose operations are. -/
theorem saved_journal_loads {config : EngineConfig} (hvalid : config.Valid) {impl : Impl}
    (h : Runs.Run (· = Impl.create config) Impl.apply (fun _ _ => True) impl) :
    (∀ (persistence : PersistenceConfig) (writes : WriteSteps) (before : Option Bytes)
      (reads : ReadSteps), persistence.Valid →
      impl.store.links.keys.card ≤ persistence.maxRecords →
      (impl.save persistence writes before).1.code = .committed →
      reads.opens = true → reads.reads = true →
      (((Impl.create config).load persistence reads
        (impl.save persistence writes before).2).2.outcome.code = .committed ↔
        impl.Legible ∧
          impl.journalSize persistence.includeHistory ≤ maxJournalBytes persistence)) ∧
    (Runs.Run (· = Impl.create config) Impl.apply (fun _ op => op.Legible) impl →
      impl.Legible) := by
  refine ⟨fun persistence writes before reads hpersistence hrecords hsaved hopens hreads => ?_,
    fun hlegible => ?_⟩
  · exact load_save_iff hvalid h hpersistence hrecords hsaved hopens hreads (.create config)
  · refine hlegible.invariant (P := Impl.Legible) ?_ fun _ _ hlegible hop => hlegible.apply hop
    rintro _ rfl
    exact legible_create config

theorem saved_journal_loads_sample :
    ((Impl.create {}).load {} {} (Sample.engine.save {} {} none).2).2.outcome.code = .committed := by
  have hsample := @saved_journal_loads {} (by decide) Sample.engine
    (Sample.engine_legible_run.mono fun _ _ _ => trivial)
  exact (hsample.1 {} {} none {} (by decide) (by decide +kernel) (Sample.save_plain_code _) rfl
    rfl).mpr ⟨hsample.2 Sample.engine_legible_run, by decide +kernel⟩

/-- The reason that an invalidation gives fits a frame, and that of the fence does not fit a
journal. -/
theorem saved_journal_refused :
    EngineConfig.Valid {} ∧ PersistenceConfig.Valid {} ∧
    Runs.Run (· = Impl.create {}) Impl.apply (fun _ _ => True) Sample.wordy ∧
    Sample.wordyInvalidation.reason.length ≤ limits.maxDetailLength ∧
    Sample.wordy.store.links.keys.card ≤ PersistenceConfig.maxRecords {} ∧
    (Sample.wordy.save {} {} none).1.code = .committed ∧
    ((Impl.create {}).load {} {} (Sample.wordy.save {} {} none).2).2.outcome.code ≠ .committed := by
  refine ⟨by decide, by decide, Sample.wordy_run, by decide +kernel, by decide +kernel,
    Sample.save_plain_code _, ?_⟩
  obtain ⟨refusal, hrefusal, heq⟩ := (@load_encoded (Sample.wordy.buildPayload false) {} {} {}
    (.create {}) rfl rfl (histories_buildPayload Sample.wordy {})).2 Sample.wordy_unstorable
  have heq : (Impl.create {}).load {} {} (some (Sample.wordy.encode {}).1) =
    (.create {}, { outcome := .make refusal.1 refusal.2 }) := heq
  rw [Session.save_journal (Sample.save_plain Sample.wordy), heq]
  exact hrefusal

end LinkState
