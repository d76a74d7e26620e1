import LinkStateFabric.Results.Authority
import LinkStateFabric.Results.Indexes

/-!
# The queries through the indexes

* `soleLink_iff`: a lookup by endpoints finds a link exactly if it is the only one of the store that
  the endpoints have in common.
* `liveEvidence_eq`: the count of a publisher is that of a scan of all current evidence, and the
  counts of all publishers add up to it (`sum_liveEvidence`).
* `queries_exact`: what the remaining queries return in reachable engines.
-/

namespace LinkState

open Sorting

/-! ## Lookups -/

theorem sole_eq_some {α : Type} {l : List α} (hnodup : l.Nodup) {a : α} :
    Impl.sole l = some a ↔ ∀ x, x ∈ l ↔ x = a := by
  constructor
  · intro h x
    unfold Impl.sole at h
    split at h
    · cases h
      exact List.mem_singleton
    · cases h
  · intro h
    have hl : l = [a] := by
      refine List.perm_singleton.mp ((List.perm_ext_iff_of_nodup hnodup (List.nodup_singleton a)).mpr
        fun x => ?_)
      rw [h, List.mem_singleton]
    rw [hl]
    rfl

/-- The link whose endpoints satisfy `p`, if there is one and no other does. -/
def Impl.Only (impl : Impl) (p : EndpointBinding → Bool) (view : LinkStateView) : Prop :=
  ∃ link entry, impl.entryOf link = some entry ∧ p entry.record.binding.endpoints = true ∧
    view = makeView entry ∧ ∀ link' entry', impl.entryOf link' = some entry' →
      p entry'.record.binding.endpoints = true → link' = link

section Lookups

variable {impl : Impl} {endpoint : EndpointId} {p : EndpointBinding → Bool}

theorem soleLink_iff (h : Indexed impl) (hvalid : endpoint.valid = true)
    (hp : ∀ endpoints, p endpoints = true →
      endpoints.localEndpoint = endpoint ∨ endpoints.remote = endpoint) (view : LinkStateView) :
    impl.soleLink endpoint p = some view ↔ impl.Only p view := by
  have hmem (link : LinkId) : link ∈ (impl.linksForEndpoint endpoint).filter (fun link =>
      (impl.entryOf link).any (p ·.record.binding.endpoints)) ↔
      ∃ entry, impl.entryOf link = some entry ∧ p entry.record.binding.endpoints = true := by
    rw [List.mem_filter, Option.any_eq_true]
    refine ⟨fun hlink => hlink.2, fun hlink => ⟨?_, hlink⟩⟩
    obtain ⟨entry, hentry, hmatch⟩ := hlink
    refine mem_listing.mpr ((h.byEndpoint endpoint link).mpr ⟨entry, hentry, ?_⟩)
    refine List.mem_filter.mpr ⟨?_, hvalid⟩
    rcases hp _ hmatch with rfl | rfl
    · exact List.mem_cons_self
    · exact List.mem_cons_of_mem _ List.mem_cons_self
  -- The listing names no link twice, so that one match is one link.
  have hnodup : ((impl.linksForEndpoint endpoint).filter fun link =>
      (impl.entryOf link).any (p ·.record.binding.endpoints)).Nodup := (nodup_listing _).filter _
  unfold Impl.soleLink Impl.Only
  rw [Option.bind_eq_some_iff]
  constructor
  · rintro ⟨link, hsole, hview⟩
    have honly := (sole_eq_some hnodup).mp hsole
    obtain ⟨entry, hentry, hmatch⟩ := (hmem link).mp ((honly link).mpr rfl)
    unfold Impl.linkState at hview
    rw [hentry] at hview
    cases hview
    exact ⟨link, entry, hentry, hmatch, rfl, fun link' entry' hentry' hmatch' =>
      (honly link').mp ((hmem link').mpr ⟨entry', hentry', hmatch'⟩)⟩
  · rintro ⟨link, entry, hentry, hmatch, rfl, honly⟩
    refine ⟨link, (sole_eq_some hnodup).mpr fun link' => ⟨fun hlink => ?_, ?_⟩, ?_⟩
    · obtain ⟨entry', hentry', hmatch'⟩ := (hmem link').mp hlink
      exact honly link' entry' hentry' hmatch'
    · rintro rfl
      exact (hmem link').mpr ⟨entry, hentry, hmatch⟩
    · unfold Impl.linkState
      rw [hentry]
      rfl

/-- An endpoint without an identity is not indexed, so that nothing is found under it. -/
theorem soleLink_null (h : Indexed impl) (hvalid : endpoint.valid = false) :
    impl.soleLink endpoint p = none := by
  have hempty : impl.linksForEndpoint endpoint = [] := by
    refine List.eq_nil_iff_forall_not_mem.mpr fun link hlink => ?_
    obtain ⟨entry, -, hat⟩ := (h.byEndpoint endpoint link).mp (mem_listing.mp hlink)
    have hat := (List.mem_filter.mp hat).2
    rw [hvalid] at hat
    cases hat
  unfold Impl.soleLink
  rw [hempty]
  rfl

end Lookups

/-! ## Counts -/

section Counts

variable {impl : Impl}

/-- All current evidence. -/
def Impl.allEvidence (impl : Impl) : List EvidenceRecord := impl.scan fun _ entry => entry.current

theorem scan_filter (p : EvidenceRecord → Bool) :
    impl.scan (fun _ entry => entry.current.filter p) = impl.allEvidence.filter p := by
  unfold Impl.allEvidence Impl.scan
  rw [List.filter_flatMap]
  refine List.flatMap_congr fun link _ => ?_
  cases impl.entryOf link <;> rfl

theorem evidenceCount_eq : impl.evidenceCount = impl.allEvidence.length := by
  unfold Impl.evidenceCount Impl.allEvidence Impl.scan
  rw [List.length_flatMap]
  generalize listing impl.store.links.keys = links
  induction links with
  | nil => rfl
  | cons link links ih =>
    rw [List.filterMap_cons, List.map_cons, List.sum_cons, ← ih]
    cases impl.entryOf link with
    | none => exact (Nat.zero_add _).symm
    | some entry => rfl

theorem length_evidenceForPublisher (publisher : PublisherId) :
    (impl.evidenceForPublisher publisher).length = impl.liveEvidence publisher := by
  unfold Impl.evidenceForPublisher Impl.liveEvidence
  rw [length_sortBy, List.length_flatMap]
  refine congrArg List.sum (List.map_congr_left fun link _ => ?_)
  cases impl.entryOf link with
  | none => rfl
  | some entry => exact List.countP_eq_length_filter.symm

/-- The count of a publisher goes over the links that are indexed for it. -/
theorem liveEvidence_eq (h : Indexed impl) (publisher : PublisherId) :
    impl.liveEvidence publisher = impl.allEvidence.countP (·.publisher = publisher) := by
  rw [← length_evidenceForPublisher, evidenceForPublisher_eq_scan h, length_sortBy, scan_filter,
    List.countP_eq_length_filter]

/-- Every element of a list is counted once, if it is counted under one of the keys. -/
theorem sum_countP_of_mem {α κ : Type} [DecidableEq κ] {keys : List κ} (hnodup : keys.Nodup)
    (f : α → κ) {l : List α} (h : ∀ a ∈ l, f a ∈ keys) :
    (keys.map fun key => l.countP (f · = key)).sum = l.length := by
  induction l with
  | nil => simp
  | cons a l ih =>
    obtain ⟨ha, hl⟩ := List.forall_mem_cons.mp h
    have hsum (keys : List κ) :
        (keys.map fun key => if f a = key then 1 else 0).sum = keys.count (f a) := by
      induction keys with
      | nil => rfl
      | cons key keys ih =>
        rw [List.map_cons, List.sum_cons, ih, List.count_cons, Nat.add_comm]
        rcases eq_or_ne (f a) key with heq | hne
        · simp [heq]
        · simp [hne, hne.symm]
    have hone := (hsum keys).trans (List.count_eq_one_of_mem hnodup ha)
    simp only [List.countP_cons, List.length_cons, decide_eq_true_eq]
    rw [List.sum_map_add, ih hl, hone]

/-- The counts of the registered publishers add up to all current evidence. -/
theorem sum_liveEvidence (hindexed : Indexed impl) (hendorsed : impl.Endorsed) :
    (impl.publishers.map (·.2)).sum = impl.evidenceCount := by
  have hmem : ∀ record ∈ impl.allEvidence, record.publisher ∈ listing impl.store.publishers.keys := by
    intro record hrecord
    obtain ⟨link, -, hrecord⟩ := List.mem_flatMap.mp hrecord
    obtain ⟨-, authority, hauthority, -⟩ := hendorsed link record (by
      unfold Impl.currentEvidence
      revert hrecord
      cases impl.entryOf link <;> exact id)
    exact mem_listing.mpr (Finmap.mem_keys.mpr (Finmap.mem_of_lookup_eq_some hauthority))
  have hcounts : ((listing impl.store.publishers.keys).filterMap impl.publisherAuthority).map (·.2) =
      (listing impl.store.publishers.keys).map fun publisher =>
        impl.allEvidence.countP (·.publisher = publisher) := by
    rw [List.map_filterMap, ← List.filterMap_eq_map]
    refine List.filterMap_congr fun publisher hpublisher => ?_
    obtain ⟨authority, hauthority⟩ := Finmap.mem_iff.mp
      (Finmap.mem_keys.mp (mem_listing.mp hpublisher))
    unfold Impl.publisherAuthority
    rw [hauthority]
    exact congrArg some (liveEvidence_eq hindexed publisher)
  unfold Impl.publishers
  rw [((sortBy_perm _ _).map _).sum_eq, hcounts, sum_countP_of_mem (nodup_listing _) _ hmem,
    evidenceCount_eq]

end Counts

/-! ## Reachable engines -/

/-- The links of a bucket that are in the state of the bucket. -/
theorem linksRequiringRevalidation_eq {impl : Impl} (h : Indexed impl) :
    impl.linksRequiringRevalidation = impl.scan fun link entry =>
      if entry.record.state = .revalidationRequired then [link] else [] := by
  rw [← Impl.flatMap_bucket (impl.store.byState.bucket .revalidationRequired)]
  · unfold Impl.linksRequiringRevalidation
    rw [← List.filterMap_eq_filter, List.filterMap_eq_flatMap_toList]
    refine List.flatMap_congr fun link _ => ?_
    rcases Option.eq_none_or_eq_some (impl.entryOf link) with hnone | ⟨entry, hentry⟩
    · simp [Option.guard, hnone]
    · by_cases hstate : entry.record.state = .revalidationRequired <;>
        simp [Option.guard, hentry, hstate]
  · rintro link ⟨entry, hentry, hne⟩
    refine (h.byState .revalidationRequired link).mpr ⟨entry, hentry, ?_⟩
    by_contra hs
    exact hne (if_neg hs)

/-- The endpoints that two lookups ask for. -/
def joins (a b : EndpointId) (endpoints : EndpointBinding) : Bool :=
  (endpoints.localEndpoint = a && endpoints.remote = b) ||
    (endpoints.localEndpoint = b && endpoints.remote = a)

theorem joins_comm (a b : EndpointId) : joins a b = joins b a :=
  funext fun _ => Bool.or_comm ..

/-- In every reachable engine the lookups by endpoints find a link exactly if no other link of the
store has the endpoints, in whichever order two endpoints are given; the links that require
revalidation are those of a scan of the store; what a publisher is said to have is what a scan of
all evidence finds, and all of it is somebody's. -/
theorem queries_exact {impl : Impl} (h : impl.Reachable) :
    (∀ a b : EndpointId, a.valid = true →
      (∀ view, impl.linkByEndpoints a b = some view ↔ impl.Only (joins a b) view) ∧
      (b.valid = true → impl.linkByEndpoints b a = impl.linkByEndpoints a b) ∧
      ∀ view, impl.linkByRemoteEndpoint a b = some view ↔
        impl.Only (fun endpoints => endpoints.localEndpoint = a && endpoints.remote = b) view) ∧
    (∀ a b : EndpointId, a.valid = false →
      impl.linkByEndpoints a b = none ∧ impl.linkByRemoteEndpoint a b = none) ∧
    impl.linksRequiringRevalidation = impl.scan (fun link entry =>
      if entry.record.state = .revalidationRequired then [link] else []) ∧
    (∀ publisher, impl.liveEvidence publisher =
      impl.allEvidence.countP (·.publisher = publisher)) ∧
    (impl.publishers.map (·.2)).sum = impl.evidenceCount := by
  have hindexed := h.indexed
  -- The index of the one endpoint lists every link that has it at either end.
  have hboth (a b : EndpointId) (ha : a.valid = true) (view : LinkStateView) :
      impl.linkByEndpoints a b = some view ↔ impl.Only (joins a b) view := by
    refine soleLink_iff hindexed ha (fun endpoints hjoins => ?_) view
    simp only [Bool.or_eq_true, Bool.and_eq_true, decide_eq_true_eq] at hjoins
    rcases hjoins with hjoins | hjoins
    · exact .inl hjoins.1
    · exact .inr hjoins.2
  refine ⟨fun a b ha => ⟨hboth a b ha, fun hb => ?_, fun view => ?_⟩, fun a b ha => ?_,
    linksRequiringRevalidation_eq hindexed, liveEvidence_eq hindexed,
    sum_liveEvidence hindexed h.endorsed⟩
  · refine Option.ext fun view => ?_
    rw [hboth b a hb, hboth a b ha, joins_comm]
  · refine soleLink_iff hindexed ha (fun endpoints hmatch => ?_) view
    simp only [Bool.and_eq_true, decide_eq_true_eq] at hmatch
    exact .inl hmatch.1
  · exact ⟨soleLink_null hindexed ha, soleLink_null hindexed ha⟩

theorem queries_exact_sample : (Sample.engine.publishers.map (·.2)).sum = 1 :=
  (queries_exact Sample.reachable).2.2.2.2.trans (by decide)

end LinkState
