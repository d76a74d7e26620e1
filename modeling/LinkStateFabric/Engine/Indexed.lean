import LinkStateFabric.Engine.Frames

/-!
# The indexes of the store

The store keeps six indexes beside its links. `Indexed` says that they hold exactly what a scan of
the links would find, and that the current evidence of each link is a sorted list of slots. Every
operation keeps it (`Indexed.apply`).

* Each kind of edit step changes at most one aspect of an entry: its state, its binding or its
  evidence. The lemma of the step is about the indexes of that aspect, and the others are carried
  over by `Has`.
* A load builds the store again from the links of the journal.
-/

namespace LinkState

open Sorting

/-! ## Scans -/

/-- The entry of the link satisfies a predicate. -/
def Impl.Has (impl : Impl) (R : LinkEntry → Prop) (link : LinkId) : Prop :=
  ∃ entry, impl.entryOf link = some entry ∧ R entry

theorem has_commit {t : Edit} {link l : LinkId} {R : LinkEntry → Prop} :
    (t.commit link).Has R l ↔ (l = link ∧ R t.entry) ∨ (l ≠ link ∧ t.impl.Has R l) := by
  unfold Impl.Has Edit.commit
  rw [Impl.entryOf_putEntry]
  by_cases h : l = link
  · simp [h]
  · simp [h]

theorem Impl.mem_currentEvidence {impl : Impl} {link : LinkId} {record : EvidenceRecord} :
    record ∈ impl.currentEvidence link ↔ impl.Has (record ∈ ·.current) link := by
  unfold currentEvidence Has
  cases impl.entryOf link <;> simp

/-- An entry is filed under its state. -/
def LinkEntry.InState (state : LinkOperationalState) (entry : LinkEntry) : Prop :=
  entry.record.state = state

/-- An entry is filed under the endpoints that its binding names. -/
def LinkEntry.AtEndpoint (endpoint : EndpointId) (entry : LinkEntry) : Prop :=
  endpoint ∈ entry.record.binding.boundEndpoints

/-- An entry is filed under the links that its binding references. -/
def LinkEntry.DependsOn (backing : LinkId) (entry : LinkEntry) : Prop :=
  backing ∈ entry.record.binding.backingLinks.map (·.link)

/-- An observation is filed with the key of its record. -/
def LinkEntry.Observes (observation : ObservationId) (key : EvidenceKey) (entry : LinkEntry) : Prop :=
  ∃ record ∈ entry.current, record.observation = observation ∧ record.key = key

/-- An entry is filed under the publishers of its evidence. -/
def LinkEntry.HasEvidenceOf (publisher : PublisherId) (entry : LinkEntry) : Prop :=
  ∃ record ∈ entry.current, record.publisher = publisher

/-- The entry is that of its link, and its evidence is a sorted list of slots of the link, within
the capacity. -/
structure LinkEntry.Slotted (config : EngineConfig) (link : LinkId) (entry : LinkEntry) : Prop where
  link_eq : entry.record.binding.link = link
  key_link : ∀ record ∈ entry.current, record.key.link = link
  sorted : entry.current.Pairwise fun a b => evidenceLess a b
  nodup : (entry.current.map (·.key)).Nodup
  capacity : entry.current.length ≤ config.maxEvidencePerLink

theorem findSlot_of_mem {entry : LinkEntry} {stored : EvidenceRecord}
    (hnodup : (entry.current.map (·.key)).Nodup) (h : stored ∈ entry.current) :
    findSlot entry stored.key = some stored := by
  have hfound : (findSlot entry stored.key).isSome = true := by
    unfold findSlot
    rw [List.find?_isSome]
    exact ⟨stored, h, by simp⟩
  obtain ⟨slot, hslot⟩ := Option.isSome_iff_exists.mp hfound
  have hkey : slot.key = stored.key := by simpa using List.find?_some hslot
  rw [hslot, List.inj_on_of_nodup_map hnodup (List.mem_of_find?_eq_some hslot) h hkey]

/-- Every index holds exactly what a scan of the links finds. The links of a publisher may be more
than those on which it has evidence. -/
structure Indexed (impl : Impl) : Prop where
  slotted : ∀ link entry, impl.entryOf link = some entry → entry.Slotted impl.config link
  byState : impl.store.byState.Represents fun state => impl.Has (LinkEntry.InState state)
  byEndpoint : impl.store.byEndpoint.Represents fun endpoint =>
    impl.Has (LinkEntry.AtEndpoint endpoint)
  dependents : impl.store.dependents.Represents fun backing => impl.Has (LinkEntry.DependsOn backing)
  observations : ∀ observation key, impl.store.observations.lookup observation = some key ↔
    ∃ link, impl.Has (LinkEntry.Observes observation key) link
  publisherLinks : ∀ publisher link, impl.Has (LinkEntry.HasEvidenceOf publisher) link →
    link ∈ impl.store.publisherLinks.bucket publisher

/-- A key has one current record. -/
theorem Indexed.eq_of_key {impl : Impl} (h : Indexed impl) {link link' : LinkId}
    {record record' : EvidenceRecord} (hrecord : record ∈ impl.currentEvidence link)
    (hrecord' : record' ∈ impl.currentEvidence link') (hkey : record.key = record'.key) :
    link = link' ∧ record = record' := by
  obtain ⟨entry, hentry, hmem⟩ := Impl.mem_currentEvidence.mp hrecord
  obtain ⟨entry', hentry', hmem'⟩ := Impl.mem_currentEvidence.mp hrecord'
  have hslotted := h.slotted _ entry hentry
  obtain rfl : link = link' := by
    rw [← hslotted.key_link record hmem, hkey, (h.slotted _ entry' hentry').key_link record' hmem']
  obtain rfl : entry = entry' := Option.some.inj (hentry.symm.trans hentry')
  exact ⟨rfl, List.inj_on_of_nodup_map hslotted.nodup hmem hmem' hkey⟩

theorem has_commit_self {t : Edit} {link : LinkId} {R : LinkEntry → Prop} :
    (t.commit link).Has R link ↔ R t.entry := by
  simp [has_commit]

/-- The edited entry is what its link has. -/
theorem slotted_commit {t : Edit} {link : LinkId}
    (h : ∀ l e, (t.commit link).entryOf l = some e → e.Slotted (t.commit link).config l) :
    t.entry.Slotted t.impl.config link := h link t.entry (Impl.entryOf_putEntry_self ..)

/-- The link of a key owns the observation. -/
theorem Indexed.lookup_iff {impl : Impl} (h : Indexed impl) (observation : ObservationId)
    (key : EvidenceKey) : impl.store.observations.lookup observation = some key ↔
      impl.Has (LinkEntry.Observes observation key) key.link := by
  rw [h.observations]
  refine ⟨?_, fun hl => ⟨_, hl⟩⟩
  rintro ⟨link, entry, hentry, record, hrecord, rfl, rfl⟩
  rw [(h.slotted link entry hentry).key_link record hrecord]
  exact ⟨entry, hentry, record, hrecord, rfl, rfl⟩

/-! ## Edits -/

section Edits

variable {t t' : Edit} {link : LinkId}

/-- An edit files the entry of its link anew, and leaves the other links alone. -/
theorem Indexed.edit (h : Indexed (t.commit link)) (hlinks : t'.impl.store.links = t.impl.store.links)
    (hconfig : t'.impl.config = t.impl.config) (hslotted : t'.entry.Slotted t.impl.config link)
    (hstate : t.impl.store.byState.Refiles t'.impl.store.byState link fun s => t'.entry.InState s)
    (hendpoint : t.impl.store.byEndpoint.Refiles t'.impl.store.byEndpoint link
      fun e => t'.entry.AtEndpoint e)
    (hdependents : t.impl.store.dependents.Refiles t'.impl.store.dependents link
      fun b => t'.entry.DependsOn b)
    (hobservations : ∀ o k, t'.impl.store.observations.lookup o = some k ↔
      (k.link = link ∧ t'.entry.Observes o k) ∨
      (k.link ≠ link ∧ t.impl.store.observations.lookup o = some k))
    (hpublisher : ∀ p, t'.entry.HasEvidenceOf p → link ∈ t'.impl.store.publisherLinks.bucket p)
    (hothers : ∀ p l, l ≠ link → l ∈ t.impl.store.publisherLinks.bucket p →
      l ∈ t'.impl.store.publisherLinks.bucket p) : Indexed (t'.commit link) := by
  have hhas (R : LinkEntry → Prop) (l : LinkId) (hl : l ≠ link) :
      (t'.commit link).Has R l ↔ (t.commit link).Has R l := by
    rw [has_commit, has_commit]
    simp only [hl, false_and, ne_eq, not_false_eq_true, true_and, false_or, Impl.Has, Impl.entryOf,
      hlinks]
  have hrefile {α : Type} [DecidableEq α] {idx idx' : Index α LinkId} {R : α → LinkEntry → Prop}
      (hr : idx.Represents fun a => (t.commit link).Has (R a))
      (hnew : idx.Refiles idx' link fun a => R a t'.entry) :
      idx'.Represents fun a => (t'.commit link).Has (R a) := fun a l => by
    rw [hnew a l]
    by_cases hl : l = link
    · subst hl; simp [has_commit_self]
    · simp only [hl, false_and, ne_eq, not_false_eq_true, true_and, false_or, hhas _ l hl]
      exact hr a l
  refine ⟨fun l e he => ?_, hrefile h.byState hstate, hrefile h.byEndpoint hendpoint,
    hrefile h.dependents hdependents, fun o k => ?_, fun p l hl => ?_⟩
  · show e.Slotted t'.impl.config l
    rw [Edit.commit, Impl.entryOf_putEntry] at he
    rw [hconfig]
    split at he
    · rename_i hl
      cases he
      rw [hl]; exact hslotted
    · rename_i hl
      refine h.slotted l e ?_
      rw [Edit.commit, Impl.entryOf_putEntry, if_neg hl, ← he]
      unfold Impl.entryOf
      rw [hlinks]
  · show t'.impl.store.observations.lookup o = some k ↔ _
    rw [hobservations]
    have hold := h.lookup_iff o k
    constructor
    -- An observation is of one link, so that it is looked for in the entry of that link.
    · rintro (⟨hl, ho⟩ | ⟨hl, ho⟩)
      · exact ⟨link, has_commit_self.mpr ho⟩
      · exact ⟨k.link, (hhas _ _ hl).mpr (hold.mp ho)⟩
    · rintro ⟨l, hl⟩
      by_cases hlink : l = link
      · subst hlink
        obtain ⟨r, hr, rfl, rfl⟩ := has_commit_self.mp hl
        exact .inl ⟨hslotted.key_link r hr, r, hr, rfl, rfl⟩
      · rw [hhas _ _ hlink] at hl
        have ho := (h.observations o k).mpr ⟨l, hl⟩
        obtain ⟨e, he, r, hr, -, rfl⟩ := hl
        have := (h.slotted l e he).key_link r hr
        exact .inr ⟨by rw [this]; exact hlink, ho⟩
  · by_cases hlink : l = link
    · subst hlink
      exact hpublisher p (has_commit_self.mp hl)
    · rw [hhas _ _ hlink] at hl
      exact hothers p l hlink (h.publisherLinks p l hl)

/-- The edits agree in what an entry is filed under by its state and its binding. -/
structure Edit.SameFiling (t t' : Edit) : Prop where
  byState : t'.impl.store.byState = t.impl.store.byState
  byEndpoint : t'.impl.store.byEndpoint = t.impl.store.byEndpoint
  dependents : t'.impl.store.dependents = t.impl.store.dependents
  state : t'.entry.record.state = t.entry.record.state
  binding : t'.entry.record.binding = t.entry.record.binding

theorem Indexed.refiles_self (h : Indexed (t.commit link)) (hsame : t.SameFiling t') :
    t.impl.store.byState.Refiles t'.impl.store.byState link (fun s => t'.entry.InState s) ∧
    t.impl.store.byEndpoint.Refiles t'.impl.store.byEndpoint link (fun e => t'.entry.AtEndpoint e) ∧
    t.impl.store.dependents.Refiles t'.impl.store.dependents link
      (fun b => t'.entry.DependsOn b) := by
  rw [hsame.byState, hsame.byEndpoint, hsame.dependents]
  simp only [LinkEntry.InState, LinkEntry.AtEndpoint, LinkEntry.DependsOn, hsame.state,
    hsame.binding]
  exact ⟨Index.refiles_self fun s => (h.byState s link).trans has_commit_self,
    Index.refiles_self fun e => (h.byEndpoint e link).trans has_commit_self,
    Index.refiles_self fun b => (h.dependents b link).trans has_commit_self⟩

/-- The edits agree in the evidence and its indexes. -/
structure Edit.SameEvidence (t t' : Edit) : Prop where
  config : t'.impl.config = t.impl.config
  links : t'.impl.store.links = t.impl.store.links
  current : t'.entry.current = t.entry.current
  observations : t'.impl.store.observations = t.impl.store.observations
  publisherLinks : t'.impl.store.publisherLinks = t.impl.store.publisherLinks

/-- The observations of a link are those of its entry. -/
theorem Indexed.lookup_iff_entry (h : Indexed (t.commit link)) (o : ObservationId) (k : EvidenceKey) :
    t.impl.store.observations.lookup o = some k ↔
      (k.link = link ∧ t.entry.Observes o k) ∨
      (k.link ≠ link ∧ t.impl.store.observations.lookup o = some k) := by
  by_cases hk : k.link = link
  · have := h.lookup_iff o k
    rw [hk, has_commit_self] at this
    simp only [hk, true_and, ne_eq, not_true_eq_false, false_and, or_false]
    exact this
  · simp [hk]

/-- An edit that files the entry anew and leaves its evidence alone. -/
theorem Indexed.refile (h : Indexed (t.commit link)) (hsame : t.SameEvidence t')
    (hlink : t'.entry.record.binding.link = link)
    (hstate : t.impl.store.byState.Refiles t'.impl.store.byState link fun s => t'.entry.InState s)
    (hendpoint : t.impl.store.byEndpoint.Refiles t'.impl.store.byEndpoint link
      fun e => t'.entry.AtEndpoint e)
    (hdependents : t.impl.store.dependents.Refiles t'.impl.store.dependents link
      fun b => t'.entry.DependsOn b) : Indexed (t'.commit link) := by
  have hslotted := slotted_commit h.slotted
  refine h.edit hsame.links hsame.config ⟨hlink, ?_, ?_, ?_, ?_⟩ hstate hendpoint hdependents
    (fun o k => ?_) (fun p hp => ?_) fun p l _ hl => ?_
  · rw [hsame.current]; exact hslotted.key_link
  · rw [hsame.current]; exact hslotted.sorted
  · rw [hsame.current]; exact hslotted.nodup
  · rw [hsame.current]; exact hslotted.capacity
  · rw [hsame.observations]
    simp only [LinkEntry.Observes, hsame.current]
    exact h.lookup_iff_entry o k
  · rw [hsame.publisherLinks]
    simp only [LinkEntry.HasEvidenceOf, hsame.current] at hp
    exact h.publisherLinks p link (has_commit_self.mpr hp)
  · rw [hsame.publisherLinks]; exact hl

/-- An edit that touches neither the evidence nor what the entry is filed under. -/
theorem Indexed.silent (h : Indexed (t.commit link)) (hfiling : t.SameFiling t')
    (hevidence : t.SameEvidence t') : Indexed (t'.commit link) := by
  obtain ⟨hstate, hendpoint, hdependents⟩ := h.refiles_self hfiling
  refine h.refile hevidence ?_ hstate hendpoint hdependents
  rw [hfiling.binding]; exact (slotted_commit h.slotted).link_eq

/-- An edit that changes the evidence alone. -/
theorem Indexed.evidence (h : Indexed (t.commit link)) (hfiling : t.SameFiling t')
    (hlinks : t'.impl.store.links = t.impl.store.links)
    (hconfig : t'.impl.config = t.impl.config) (hslotted : t'.entry.Slotted t.impl.config link)
    (hobservations : ∀ o k, t'.impl.store.observations.lookup o = some k ↔
      (k.link = link ∧ t'.entry.Observes o k) ∨
      (k.link ≠ link ∧ t.impl.store.observations.lookup o = some k))
    (hpublisher : ∀ p, t'.entry.HasEvidenceOf p → link ∈ t'.impl.store.publisherLinks.bucket p)
    (hothers : ∀ p l, l ≠ link → l ∈ t.impl.store.publisherLinks.bucket p →
      l ∈ t'.impl.store.publisherLinks.bucket p) : Indexed (t'.commit link) := by
  obtain ⟨hstate, hendpoint, hdependents⟩ := h.refiles_self hfiling
  exact h.edit hlinks hconfig hslotted hstate hendpoint hdependents hobservations hpublisher hothers

/-- Dropping evidence. -/
theorem Indexed.dropEvidence (h : Indexed (t.commit link)) (explain : Explanation) :
    Indexed ((t.dropEvidence explain).commit link) := by
  have hslotted := slotted_commit h.slotted
  obtain ⟨observations, dispositions, heq, hlookup⟩ := t.dropEvidence_eq explain
  rw [heq]
  refine h.evidence ⟨rfl, rfl, rfl, rfl, rfl⟩ rfl rfl ⟨hslotted.link_eq, ?_, ?_, ?_, ?_⟩
    (fun o k => ?_) (fun p hp => ?_) fun p l _ hl => hl
  · exact fun r hr => hslotted.key_link r (List.mem_of_mem_filter hr)
  · exact hslotted.sorted.filter _
  · exact hslotted.nodup.sublist (List.filter_sublist.map _)
  · exact (List.length_filter_le ..).trans hslotted.capacity
  · show observations.lookup o = some k ↔ _
    rw [hlookup, h.lookup_iff_entry o k]
    by_cases hk : k.link = link
    · -- records of one slot are one record, so that a slot is explained or stays
      simp only [hk, true_and, ne_eq, not_true_eq_false, false_and, or_false, LinkEntry.Observes,
        Edit.withEvidence, List.mem_filter, Option.isNone_iff_eq_none]
      constructor
      · rintro ⟨⟨r, hr, ho, hkey⟩, hnone⟩
        refine ⟨r, ⟨hr, ?_⟩, ho, hkey⟩
        by_contra hne
        exact hnone ⟨r, hr, Option.isSome_iff_ne_none.mpr hne, ho, hkey⟩
      · rintro ⟨r, ⟨hr, hnone⟩, ho, hkey⟩
        refine ⟨⟨r, hr, ho, hkey⟩, ?_⟩
        rintro ⟨r', hr', hsome, -, hkey'⟩
        have := List.inj_on_of_nodup_map hslotted.nodup hr hr' (hkey.trans hkey'.symm)
        subst this
        simp [hnone] at hsome
    · simp only [hk, false_and, ne_eq, not_false_eq_true, true_and, false_or, and_iff_left_iff_imp]
      rintro - ⟨r, hr, -, -, hkey⟩
      exact hk (hkey ▸ hslotted.key_link r hr)
  · obtain ⟨r, hr, hrp⟩ := hp
    exact h.publisherLinks p link
      (has_commit_self.mpr ⟨r, List.mem_of_mem_filter hr, hrp⟩)

theorem Indexed.releaseLink (h : Indexed (t.commit link)) (publisher : PublisherId) :
    Indexed ((t.releaseLink publisher link).commit link) := by
  unfold Edit.releaseLink
  split
  · exact h
  rename_i hnone
  simp only [List.any_eq_true, decide_eq_true_eq, not_exists, not_and] at hnone
  refine h.evidence ⟨rfl, rfl, rfl, rfl, rfl⟩ rfl rfl (slotted_commit h.slotted)
    h.lookup_iff_entry (fun p hp => ?_) fun p l hl hm => ?_
  · rw [Index.mem_remove]
    refine ⟨?_, h.publisherLinks p link (has_commit_self.mpr hp)⟩
    rintro ⟨rfl, -⟩
    obtain ⟨r, hr, hrp⟩ := hp
    exact hnone r hr hrp
  · rw [Index.mem_remove]
    exact ⟨fun hp => hl hp.2, hm⟩

/-- A change of state moves the entry from the one bucket to the other. -/
theorem Indexed.reindexState (h : Indexed (t.commit link)) (hsame : t.SameEvidence t')
    (hbyState : t'.impl.store.byState = (t.impl.store.reindexState t.entry.record.binding.link
      t.entry.record.state t'.entry.record.state).byState)
    (hbyEndpoint : t'.impl.store.byEndpoint = t.impl.store.byEndpoint)
    (hdependents : t'.impl.store.dependents = t.impl.store.dependents)
    (hbinding : t'.entry.record.binding = t.entry.record.binding) : Indexed (t'.commit link) := by
  have hlink := (slotted_commit h.slotted).link_eq
  obtain ⟨-, hendpoint, hdependents⟩ := h.refiles_self (show t.SameFiling
    { t' with
      impl.store.byState := t.impl.store.byState
      entry.record.state := t.entry.record.state } from
    ⟨rfl, hbyEndpoint, hdependents, rfl, hbinding⟩)
  refine h.refile hsame (by rw [hbinding]; exact hlink) (fun s l => ?_) hendpoint hdependents
  have hold := (h.byState s l).trans has_commit
  change l ∈ t.impl.store.byState.bucket s ↔ _ at hold
  rw [hbyState, hlink]
  unfold EngineStore.reindexState
  split
  · rename_i heq
    rw [hold]
    simp only [LinkEntry.InState, heq]
    tauto
  · rw [Index.mem_add, Index.mem_remove, hold]
    simp only [LinkEntry.InState]
    by_cases hl : l = link
    · subst hl; simp [eq_comm]
    · simp [hl]

theorem Indexed.enterRetired (h : Indexed (t.commit link)) (request : RetireLinkRequest) :
    Indexed ((t.enterRetired request).commit link) := by
  obtain ⟨_, _, -, heq⟩ := Edit.enterRetired_eq t request
  rw [heq]
  exact h.reindexState ⟨rfl, rfl, rfl, rfl, rfl⟩ rfl rfl rfl rfl

/-- A new binding moves the entry between the buckets of its endpoints and of its references. -/
theorem Indexed.rebind (h : Indexed (t.commit link)) {binding : TopologyBinding}
    (hbinding : binding.link = link) : Indexed ((t.rebind binding).commit link) := by
  have hlink := (slotted_commit h.slotted).link_eq
  obtain ⟨hstate, -, -⟩ := h.refiles_self (show t.SameFiling t from ⟨rfl, rfl, rfl, rfl, rfl⟩)
  refine h.refile ⟨rfl, rfl, rfl, rfl, rfl⟩ hbinding hstate ?_ ?_
  · simp only [Edit.rebind, EngineStore.indexBinding, EngineStore.unindexBinding, hlink, hbinding]
    exact Index.refiles_move fun e => (h.byEndpoint e link).trans has_commit_self
  · simp only [Edit.rebind, EngineStore.indexBinding, EngineStore.unindexBinding, hlink, hbinding]
    exact Index.refiles_move fun b => (h.dependents b link).trans has_commit_self

/-- A record with a new key and a new observation identity becomes current. -/
theorem Indexed.storeEvidence (h : Indexed (t.commit link)) {observation : EvidenceRecord}
    (hlink : observation.key.link = link)
    (hkey : ∀ r ∈ t.entry.current, r.key ≠ observation.key)
    (hidentity : t.impl.store.observations.lookup observation.observation = none)
    (hcapacity : t.entry.current.length < t.impl.config.maxEvidencePerLink) :
    Indexed ((t.storeEvidence observation).commit link) := by
  have hslotted := slotted_commit h.slotted
  have hmem (r : EvidenceRecord) : r ∈ (t.storeEvidence observation).entry.current ↔
      r ∈ t.entry.current ∨ r = t.storedRecord observation := by
    simp [Edit.storeEvidence]
  have hnodup : ((t.entry.current ++ [t.storedRecord observation]).map (·.key)).Nodup := by
    rw [List.map_append, List.map_singleton, List.nodup_append]
    refine ⟨hslotted.nodup, List.nodup_singleton _, fun k hk k' hk' => ?_⟩
    obtain ⟨r, hr, rfl⟩ := List.mem_map.mp hk
    rw [List.mem_singleton.mp hk']
    exact hkey r hr
  refine h.evidence ⟨rfl, rfl, rfl, rfl, rfl⟩ rfl rfl ⟨hslotted.link_eq, fun r hr => ?_, ?_, ?_, ?_⟩
    (fun o k => ?_) (fun p hp => ?_) fun p l hl hm => ?_
  · rcases (hmem r).mp hr with hr | rfl
    · exact hslotted.key_link r hr
    · exact hlink
  · exact ranks_evidenceLess.pairwise_sortBy (nodup_rank_of_key hnodup)
  · exact ((sortBy_perm _ _).map _).nodup_iff.mpr hnodup
  · simp only [Edit.storeEvidence, length_sortBy, List.length_append, List.length_singleton]
    omega
  · show Finmap.lookup o (t.impl.store.observations.insert observation.observation
      observation.key) = some k ↔ _
    have hold := h.lookup_iff_entry o k
    by_cases ho : o = observation.observation
    · subst ho
      -- The identity was free, so that no record of before has it.
      rw [hidentity] at hold ⊢
      rw [Finmap.lookup_insert, Option.some.injEq]
      simp only [LinkEntry.Observes, hmem]
      constructor
      · rintro rfl
        exact .inl ⟨hlink, _, .inr rfl, rfl, rfl⟩
      · rintro (⟨hk, r, hr | rfl, hro, rfl⟩ | ⟨-, hn⟩)
        · exact absurd (hold.mpr (.inl ⟨hk, r, hr, hro, rfl⟩)) (by simp)
        · rfl
        · cases hn
    · rw [Finmap.lookup_insert_of_ne _ ho]
      refine hold.trans (or_congr (and_congr_right fun _ => ?_) Iff.rfl)
      simp only [LinkEntry.Observes, hmem]
      constructor
      · rintro ⟨r, hr, hro, hrk⟩
        exact ⟨r, .inl hr, hro, hrk⟩
      · rintro ⟨r, hr | rfl, hro, hrk⟩
        · exact ⟨r, hr, hro, hrk⟩
        · exact absurd hro.symm ho
  · show link ∈ (t.impl.store.publisherLinks.add observation.publisher
      observation.key.link).bucket p
    rw [Index.mem_add]
    obtain ⟨r, hr, rfl⟩ := hp
    rcases (hmem r).mp hr with hr | rfl
    · exact .inr (h.publisherLinks _ link (has_commit_self.mpr ⟨r, hr, rfl⟩))
    · exact .inl ⟨rfl, hlink.symm⟩
  · exact Index.mem_add.mpr (.inr hm)

end Edits

/-! ## Publication -/

/-- An admitted observation finds a place. -/
theorem Admitted.room {impl : Impl} {request : PublishEvidenceRequest} {entry : LinkEntry}
    {prepared : PreparedCommit} (h : Admitted impl request entry prepared)
    (hcapacity : entry.current.length ≤ impl.config.maxEvidencePerLink) :
    (entry.current.filter fun r => (explainPublication request.observation r).isNone).length <
      impl.config.maxEvidencePerLink := by
  have hcheck := h.capacity
  simp only [explainPublication_isNone]
  cases hslot : findSlot entry request.observation.key with
  | some slot =>
    have hmem := List.mem_of_find?_eq_some hslot
    have hkey := List.find?_some hslot
    refine lt_of_lt_of_le (List.length_filter_lt_length_iff_exists.mpr ⟨slot, hmem, ?_⟩) hcapacity
    simp only [supersedes, Bool.not_eq_true, Bool.not_eq_false', Bool.or_eq_true]
    exact .inl hkey
  | none =>
    have hnone := List.find?_eq_none.mp hslot
    have hpurged : purgedBy entry request.observation =
        entry.current.filter (supersedes request.observation) := by
      refine List.filter_congr fun r hr => ?_
      have := hnone r hr
      simp only [decide_eq_true_eq] at this
      simp [supersedes, this]
    have hlength := List.length_eq_length_filter_add (l := entry.current)
      (supersedes request.observation)
    unfold checkCapacity at hcheck
    rw [hslot, hpurged] at hcheck
    simp only [Option.isNone_none, true_and, ite_eq_right_iff, reduceCtorEq, imp_false,
      not_le] at hcheck
    omega

theorem Indexed.publish {t t' : Edit} {link : LinkId} (h : Indexed (t.commit link))
    {request : PublishEvidenceRequest} {prepared : PreparedCommit}
    (hlink : request.observation.key.link = link)
    (hadmitted : Admitted t.impl request t.entry prepared)
    (hcount : (t.dropEvidence (explainPublication request.observation)).Advances t') :
    Indexed ((t'.stampGlobal.storeEvidence request.observation).commit link) := by
  have hslotted := slotted_commit h.slotted
  have hdrop := h.dropEvidence (explainPublication request.observation)
  obtain ⟨observations, dispositions, heq, hlookup⟩ :=
    t.dropEvidence_eq (explainPublication request.observation)
  obtain ⟨g, gs, e, s, rfl, -⟩ := hcount.counters
  rw [heq] at hdrop ⊢
  have hstamped := hdrop.silent (show Edit.SameFiling _ (Edit.stampGlobal (Edit.withCounters
    (Edit.withEvidence t observations _ dispositions) g gs e s)) from ⟨rfl, rfl, rfl, rfl, rfl⟩)
    ⟨rfl, rfl, rfl, rfl, rfl⟩
  refine hstamped.storeEvidence hlink (fun r hr hkey => ?_) ?_ (hadmitted.room hslotted.capacity)
  · -- a record in the slot makes way
    have := (List.mem_filter.mp hr).2
    rw [explainPublication_isNone] at this
    simp [supersedes, hkey] at this
  · show observations.lookup request.observation.observation = none
    by_contra hne
    obtain ⟨key, hkey⟩ := Option.ne_none_iff_exists'.mp hne
    obtain ⟨hold, hexplained⟩ := (hlookup _ _).mp hkey
    -- An identity that is in use is that of the record that makes way.
    have hsame : key = request.observation.key := by
      have := hadmitted.identity
      unfold checkObservation at this
      rw [hold] at this
      by_contra hk
      simp [hk] at this
    subst hsame
    have hhas := (h.lookup_iff _ _).mp hold
    rw [hlink, has_commit_self] at hhas
    obtain ⟨r, hr, hro, hrk⟩ := hhas
    refine hexplained ⟨r, hr, ?_, hro, hrk⟩
    simp [explainPublication, hrk]

/-! ## Operations -/

theorem Indexed.step {allow : Kind → Prop} {t t' : Edit} {link : LinkId}
    (hstep : EditStep allow link t t')
    (h : Indexed (t.commit link)) : Indexed (t'.commit link) := by
  have hslotted := slotted_commit h.slotted
  cases hstep with
  | drop explain => exact h.dropEvidence explain
  | count hcount =>
    obtain ⟨g, gs, e, s, rfl, -⟩ := hcount.counters
    exact h.silent ⟨rfl, rfl, rfl, rfl, rfl⟩ ⟨rfl, rfl, rfl, rfl, rfl⟩
  | stamp => exact h.silent ⟨rfl, rfl, rfl, rfl, rfl⟩ ⟨rfl, rfl, rfl, rfl, rfl⟩
  | raise =>
    unfold Edit.raiseTopology
    split
    · exact h.silent ⟨rfl, rfl, rfl, rfl, rfl⟩ ⟨rfl, rfl, rfl, rfl, rfl⟩
    · exact h
  | release publisher => exact h.releaseLink publisher
  | tally => exact h.silent ⟨rfl, rfl, rfl, rfl, rfl⟩ ⟨rfl, rfl, rfl, rfl, rfl⟩
  | intent => exact h.silent ⟨rfl, rfl, rfl, rfl, rfl⟩ ⟨rfl, rfl, rfl, rfl, rfl⟩
  | commit prepared publication publisher hfits =>
    obtain ⟨hframe, hcommits⟩ := Edit.commitPrepared_spec hfits publication publisher
    have hstore := hframe.store
    refine h.reindexState ⟨hframe.config, ?_, hframe.current, ?_, ?_⟩ ?_ ?_ ?_ hframe.binding
    · rw [hstore]
    · rw [hstore]
    · rw [hstore]
    · rw [hcommits.state, hcommits.byState]
    · rw [hstore]
    · rw [hstore]
  | rebind _ binding hrebinds =>
    obtain ⟨_, _, heq, -⟩ := t.dropEvidence_eq (explainRebinding binding)
    have hdrop := h.dropEvidence (explainRebinding binding)
    rw [heq] at hdrop ⊢
    -- A binding that is filed under another link would leave the indexes behind.
    refine hdrop.rebind (hrebinds.link_eq.elim id fun hb => ?_)
    rw [hb, hslotted.link_eq]
  | publish _ request prepared hlink hadmitted hcount =>
    refine (h.publish hlink hadmitted hcount).silent ?_ ?_ <;>
    · unfold Edit.accept Impl.noteAcceptance
      dsimp only
      split <;> exact ⟨rfl, rfl, rfl, rfl, rfl⟩
  | retire _ request hlive hcount hpos =>
    obtain ⟨g, gs, e, s, rfl, -⟩ := hcount.counters
    obtain ⟨_, _, heq, -⟩ := t.dropEvidence_eq explainRetirement
    have hdrop := h.dropEvidence explainRetirement
    rw [heq] at hdrop ⊢
    refine Indexed.enterRetired ?_ request
    exact hdrop.silent ⟨rfl, rfl, rfl, rfl, rfl⟩ ⟨rfl, rfl, rfl, rfl, rfl⟩

theorem Indexed.outside {impl impl' : Impl} (h : Indexed impl) (hsame : SameLinks impl impl') :
    Indexed impl' := by
  have hentry : impl'.entryOf = impl.entryOf := funext hsame.entryOf
  have hhas : impl'.Has = impl.Has := by
    unfold Impl.Has; rw [hentry]
  refine ⟨?_, ?_, ?_, ?_, ?_, fun p l hl => ?_⟩
  · rw [hentry, hsame.config]; exact h.slotted
  · rw [hsame.byState, hhas]; exact h.byState
  · rw [hsame.byEndpoint, hhas]; exact h.byEndpoint
  · rw [hsame.dependents, hhas]; exact h.dependents
  · rw [hsame.observations, hhas]; exact h.observations
  · rw [hhas] at hl
    refine hsame.publisherLinks p l (h.publisherLinks p l hl) ?_
    obtain ⟨e, he, r, hr, hrp⟩ := hl
    unfold Impl.hasEvidenceOf
    rw [he, Option.any_some, List.any_eq_true]
    exact ⟨r, hr, by simpa using hrp⟩

/-- A link that is bound for the first time. -/
theorem Indexed.bind {impl : Impl} (h : Indexed impl) {binding : TopologyBinding}
    (hnew : impl.entryOf binding.link = none) {t : Edit}
    (hcount : Edit.Advances ⟨impl, newEntry binding⟩ t) :
    Indexed (t.stampGlobal.stampTransition.indexNew.raiseTopology.commit binding.link) := by
  obtain ⟨_, _, _, _, _, -, -, heq⟩ := hcount.bind_eq
  rw [heq]
  generalize ht : (Edit.mk _ _ : Edit) = t'
  -- Only the new link is filed, and nothing was filed under it before.
  have hhas (R : LinkEntry → Prop) (l : LinkId) : (t'.commit binding.link).Has R l ↔
      (l = binding.link ∧ R t'.entry) ∨ impl.Has R l := by
    rw [has_commit]
    refine or_congr_right ?_
    subst ht
    refine ⟨fun hl => hl.2, fun hl => ⟨?_, hl⟩⟩
    rintro rfl
    obtain ⟨e, he, -⟩ := hl
    rw [hnew] at he; cases he
  have hnil : t'.entry.current = [] := by subst ht; rfl
  have hbinding : t'.entry.record.binding = binding := by subst ht; rfl
  refine ⟨fun l e he => ?_, fun s l => ?_, fun ep l => ?_, fun b l => ?_, fun o k => ?_,
    fun p l hl => ?_⟩
  · rw [Edit.commit, Impl.entryOf_putEntry] at he
    split at he
    · rename_i hl
      cases he
      subst hl
      refine ⟨by rw [hbinding], ?_, ?_, ?_, ?_⟩ <;> rw [hnil]
      · simp
      · exact .nil
      · exact List.nodup_nil
      · exact Nat.zero_le _
    · subst ht
      exact h.slotted l e he
  · refine Iff.trans ?_ ((hhas _ l).trans (or_congr_right (h.byState s l).symm)).symm
    subst ht
    refine Index.mem_add.trans (or_congr_left ?_)
    rw [and_comm, eq_comm (a := s)]
    exact Iff.rfl
  · refine Iff.trans ?_ ((hhas _ l).trans (or_congr_right (h.byEndpoint ep l).symm)).symm
    rw [LinkEntry.AtEndpoint, hbinding]
    subst ht
    exact Index.mem_addAll.trans (or_congr_left and_comm)
  · refine Iff.trans ?_ ((hhas _ l).trans (or_congr_right (h.dependents b l).symm)).symm
    rw [LinkEntry.DependsOn, hbinding]
    subst ht
    exact Index.mem_addAll.trans (or_congr_left and_comm)
  · have : (∃ l, (t'.commit binding.link).Has (LinkEntry.Observes o k) l) ↔
        ∃ l, impl.Has (LinkEntry.Observes o k) l := by
      refine exists_congr fun l => ?_
      rw [hhas, LinkEntry.Observes, hnil]
      simp
    rw [this, ← h.observations o k]
    subst ht
    exact Iff.rfl
  · rw [hhas, LinkEntry.HasEvidenceOf, hnil] at hl
    subst ht
    refine h.publisherLinks p l (hl.resolve_left ?_)
    rintro ⟨-, r, hr, -⟩
    cases hr

theorem Indexed.steps {allow : Kind → Prop} {impl impl' : Impl} (hsteps : Steps allow impl impl') (h : Indexed impl) :
    Indexed impl' :=
  hsteps.invariant (fun _ _ hsame _ h => h.outside hsame)
    (fun _ _ _ _ _ hnew hcount h => h.bind hnew hcount) (fun _ _ _ hstep h => h.step hstep) h

theorem indexed_create (config : EngineConfig) : Indexed (Impl.create config) := by
  have hnone (R : LinkEntry → Prop) (l : LinkId) : ¬ (Impl.create config).Has R l := by
    rintro ⟨e, he, -⟩
    rw [Impl.entryOf_create] at he; cases he
  refine ⟨fun l e he => ?_, fun s l => ?_, fun ep l => ?_, fun b l => ?_, fun o k => ?_,
    fun p l hl => (hnone _ _ hl).elim⟩
  · rw [Impl.entryOf_create] at he; cases he
  · exact iff_of_false (by simp [Impl.create]) (hnone _ l)
  · exact iff_of_false (by simp [Impl.create]) (hnone _ l)
  · exact iff_of_false (by simp [Impl.create]) (hnone _ l)
  · exact iff_of_false (by simp [Impl.create]) fun hex => hex.elim (hnone _)

end LinkState
