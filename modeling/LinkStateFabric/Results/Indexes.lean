import LinkStateFabric.Engine.Recovery

/-!
# The indexes are exact

In every reachable engine the indexes hold exactly what a scan of the links finds, so the queries
that read an index return what a scan of the store would return (`indexes_exact`).
-/

namespace LinkState

open Sorting

/-! ## Scans -/

namespace Impl

/-- A scan of the store: what `f` gives for each link, in the order of the links. -/
def scan {α : Type} (impl : Impl) (f : LinkId → LinkEntry → List α) : List α :=
  (listing impl.store.links.keys).flatMap fun link => ((impl.entryOf link).map (f link)).getD []

/-- A scan of a bucket is a scan of the store, if the bucket holds every link that gives
something. -/
theorem flatMap_bucket {α : Type} {impl : Impl} (s : Finset LinkId)
    (f : LinkId → LinkEntry → List α) (h : ∀ link, impl.Has (f link · ≠ []) link → link ∈ s) :
    (listing s).flatMap (fun link => ((impl.entryOf link).map (f link)).getD []) = impl.scan f := by
  refine flatMap_listing fun link hne => ?_
  have hhas : impl.Has (f link · ≠ []) link := by
    unfold Has
    revert hne
    cases impl.entryOf link <;> simp
  obtain ⟨entry, hentry, -⟩ := id hhas
  exact iff_of_true (h link hhas) (Finmap.mem_keys.mpr (Finmap.mem_of_lookup_eq_some hentry))

end Impl

section Queries

variable {impl : Impl}

theorem linksInState_eq_scan (h : Indexed impl) (state : LinkOperationalState) :
    impl.linksInState state =
      impl.scan fun _ entry => if entry.record.state = state then [makeView entry] else [] := by
  rw [← Impl.flatMap_bucket (impl.store.byState.bucket state)]
  · unfold Impl.linksInState
    rw [List.filterMap_eq_flatMap_toList]
    refine List.flatMap_congr fun link _ => ?_
    cases impl.entryOf link with
    | none => rfl
    | some entry => simp only [Option.map_some, Option.getD_some]; split <;> rfl
  · rintro link ⟨entry, hentry, hne⟩
    refine (h.byState state link).mpr ⟨entry, hentry, ?_⟩
    by_contra hs
    exact hne (if_neg hs)

theorem linksForEndpoint_eq_scan (h : Indexed impl) (endpoint : EndpointId) :
    impl.linksForEndpoint endpoint =
      impl.scan fun link entry => if endpoint ∈ entry.record.binding.boundEndpoints then [link]
        else [] := by
  rw [← Impl.flatMap_bucket (impl.store.byEndpoint.bucket endpoint)]
  · unfold Impl.linksForEndpoint
    conv_lhs => rw [← List.flatMap_singleton' (listing _)]
    refine List.flatMap_congr fun link hlink => ?_
    obtain ⟨entry, hentry, hat⟩ := (h.byEndpoint endpoint link).mp (mem_listing.mp hlink)
    rw [hentry, Option.map_some, Option.getD_some]
    exact (if_pos hat).symm
  · rintro link ⟨entry, hentry, hne⟩
    refine (h.byEndpoint endpoint link).mpr ⟨entry, hentry, ?_⟩
    by_contra hs
    exact hne (if_neg hs)

theorem evidenceForPublisher_eq_scan (h : Indexed impl) (publisher : PublisherId) :
    impl.evidenceForPublisher publisher = sortBy evidenceLess
      (impl.scan fun _ entry => entry.current.filter (·.publisher = publisher)) := by
  rw [← Impl.flatMap_bucket (impl.store.publisherLinks.bucket publisher)]
  · unfold Impl.evidenceForPublisher
    refine congrArg (sortBy evidenceLess) (List.flatMap_congr fun link _ => ?_)
    cases impl.entryOf link <;> rfl
  · rintro link ⟨entry, hentry, hne⟩
    obtain ⟨record, hrecord⟩ := List.exists_mem_of_ne_nil _ hne
    obtain ⟨hmem, hp⟩ := List.mem_filter.mp hrecord
    exact h.publisherLinks publisher link ⟨entry, hentry, record, hmem, by simpa using hp⟩

/-- No link is reported twice. -/
theorem nodup_linksInState (h : Indexed impl) (state : LinkOperationalState) :
    ((impl.linksInState state).map (·.record.binding.link)).Nodup := by
  refine (nodup_listing (impl.store.byState.bucket state)).sublist ?_
  unfold Impl.linksInState
  generalize listing (impl.store.byState.bucket state) = links
  induction links with
  | nil => exact List.Sublist.slnil
  | cons link links ih =>
    rw [List.filterMap_cons]
    cases hentry : impl.entryOf link with
    | none => exact ih.cons link
    | some entry =>
      dsimp only
      split
      · exact ih.cons link
      · rename_i view hview
        have hlink : view.record.binding.link = link := by
          split at hview
          · cases hview; exact (h.slotted link entry hentry).link_eq
          · cases hview
        rw [List.map_cons, hlink]
        exact ih.cons_cons link

/-- The evidence of a link is for the link. -/
theorem Indexed.key_link (h : Indexed impl) {link : LinkId} {record : EvidenceRecord}
    (hr : record ∈ impl.currentEvidence link) : record.key.link = link := by
  obtain ⟨entry, hentry, hr⟩ := Impl.mem_currentEvidence.mp hr
  exact (h.slotted link entry hentry).key_link record hr

/-- The evidence of a link has one record for each key. -/
theorem Indexed.nodup_evidence (h : Indexed impl) (link : LinkId) :
    ((impl.currentEvidence link).map (·.key)).Nodup := by
  unfold Impl.currentEvidence
  cases hentry : impl.entryOf link with
  | none => exact List.nodup_nil
  | some entry => exact (h.slotted link entry hentry).nodup

/-- No slot is reported twice. -/
theorem nodup_evidenceForPublisher (h : Indexed impl) (publisher : PublisherId) :
    ((impl.evidenceForPublisher publisher).map (·.key)).Nodup := by
  have heq : impl.evidenceForPublisher publisher = sortBy evidenceLess
      ((listing (impl.store.publisherLinks.bucket publisher)).flatMap fun link =>
        (impl.currentEvidence link).filter (·.publisher = publisher)) := by
    unfold Impl.evidenceForPublisher Impl.currentEvidence
    refine congrArg (sortBy evidenceLess) (List.flatMap_congr fun link _ => ?_)
    cases impl.entryOf link <;> rfl
  rw [heq, ((sortBy_perm _ _).map _).nodup_iff, List.map_flatMap, List.nodup_flatMap]
  refine ⟨fun link _ => ?_, (nodup_listing _).imp fun {a b} hab key ha hb => ?_⟩
  · exact (h.nodup_evidence link).sublist (List.filter_sublist.map _)
  · obtain ⟨record, hrecord, rfl⟩ := List.mem_map.mp ha
    obtain ⟨record', hrecord', hkey⟩ := List.mem_map.mp hb
    refine hab ?_
    rw [← h.key_link (List.mem_of_mem_filter hrecord), ← hkey,
      h.key_link (List.mem_of_mem_filter hrecord')]

end Queries

/-! ## Reachable engines -/

/-- An observation identity belongs to one record of one link. -/
theorem Indexed.observation_injective {impl : Impl} (h : Indexed impl) {link link' : LinkId}
    {record record' : EvidenceRecord} (hr : record ∈ impl.currentEvidence link)
    (hr' : record' ∈ impl.currentEvidence link') (ho : record.observation = record'.observation) :
    link = link' ∧ record = record' := by
  obtain ⟨entry, hentry, hr⟩ := Impl.mem_currentEvidence.mp hr
  obtain ⟨entry', hentry', hr'⟩ := Impl.mem_currentEvidence.mp hr'
  have hk := (h.observations record.observation record.key).mpr
    ⟨link, entry, hentry, record, hr, rfl, rfl⟩
  have hk' := (h.observations record.observation record'.key).mpr
    ⟨link', entry', hentry', record', hr', ho.symm, rfl⟩
  have hkey : record.key = record'.key := Option.some.inj (hk.symm.trans hk')
  have hslotted := h.slotted link entry hentry
  obtain rfl : link = link' := by
    rw [← hslotted.key_link record hr, hkey, (h.slotted link' entry' hentry').key_link record' hr']
  obtain rfl : entry = entry' := Option.some.inj (hentry.symm.trans hentry')
  exact ⟨rfl, List.inj_on_of_nodup_map hslotted.nodup hr hr' hkey⟩

/-- In every reachable engine the indexes are exact, observation identities are unique, and the
queries return what a scan of the store returns, each link and each slot once. -/
theorem indexes_exact {impl : Impl} (h : impl.Reachable) :
    Indexed impl ∧
    (∀ link link' record record', record ∈ impl.currentEvidence link → record' ∈ impl.currentEvidence link' →
      record.observation = record'.observation → link = link' ∧ record = record') ∧
    (∀ state, impl.linksInState state =
        impl.scan (fun _ entry => if entry.record.state = state then [makeView entry] else []) ∧
      ((impl.linksInState state).map (·.record.binding.link)).Nodup) ∧
    (∀ endpoint, impl.linksForEndpoint endpoint =
        impl.scan (fun link entry =>
          if endpoint ∈ entry.record.binding.boundEndpoints then [link] else []) ∧
      (impl.linksForEndpoint endpoint).Nodup) ∧
    (∀ publisher, impl.evidenceForPublisher publisher = sortBy evidenceLess
        (impl.scan fun _ entry => entry.current.filter (·.publisher = publisher)) ∧
      ((impl.evidenceForPublisher publisher).map (·.key)).Nodup) := by
  have hindexed := h.indexed
  refine ⟨hindexed, fun _ _ _ _ hr hr' ho => hindexed.observation_injective hr hr' ho,
    fun state => ⟨linksInState_eq_scan hindexed state, nodup_linksInState hindexed state⟩,
    fun endpoint => ⟨linksForEndpoint_eq_scan hindexed endpoint, nodup_listing _⟩,
    fun publisher => ⟨evidenceForPublisher_eq_scan hindexed publisher,
      nodup_evidenceForPublisher hindexed publisher⟩⟩

theorem indexes_exact_sample :
    Sample.engine.linksForEndpoint Sample.endpoint =
      Sample.engine.scan fun link entry =>
        if Sample.endpoint ∈ entry.record.binding.boundEndpoints then [link] else [] :=
  ((indexes_exact Sample.reachable).2.2.2.1 Sample.endpoint).1

end LinkState
