import LinkStateFabric.Results.HostEvidence

/-!
# Hosts that submit in order

A `HostEvidencePublisher` counts its observations of an evidence key, and its source generation
advances with every round.

* `Sequenced`: among the requests of an object, those about one key have increasing sequences and
  source generations that do not decrease.
* `Feed`: objects whose requests are submitted in the order in which they were made, with gaps, while
  the engine is operated in any other way. What is current from the source of an object is one of the
  requests that were submitted (`Timely`).
* `host_in_order`: no request that is submitted so is refused as stale or taken for a replay.
-/

namespace LinkState

open Codec (ByteEnum)

/-! ## Sequences -/

namespace HostEvidencePublisher

/-- The text under which the sequence of a key is kept. -/
def keyText (key : EvidenceKey) : Text :=
  key.link.value ++ lit "|" ++ key.source.value ++ lit "|" ++ key.endpoint.value ++ lit "|" ++
    formatU64 (ByteEnum.index key.kind)

/-- The sequence of the last request about a key. -/
def sequenceOf (host : HostEvidencePublisher) (key : EvidenceKey) : U64 :=
  (host.sequences.lookup (keyText key)).getD 0

/-- The second request comes after the first: about one key, it is newer. -/
def Precedes (a b : PublishEvidenceRequest) : Prop :=
  a.observation.key = b.observation.key →
    a.observation.sequence < b.observation.sequence ∧
    a.observation.sourceGeneration ≤ b.observation.sourceGeneration

/-- The requests that an object has made so far are in order, and the next ones come after them. -/
structure Sequenced (host : HostEvidencePublisher) (made : List PublishEvidenceRequest) : Prop where
  bounded : ∀ key, (host.sequenceOf key).val ≤ made.length
  latest : ∀ request ∈ made,
    request.observation.sequence ≤ host.sequenceOf request.observation.key
  generation : ∀ request ∈ made, request.observation.sourceGeneration ≤ host.sourceGeneration
  ordered : made.Pairwise Precedes

section Sequenced

variable {host : HostEvidencePublisher} {made : List PublishEvidenceRequest}

/-- A request about a key counts for the keys of its text. -/
theorem sequenceOf_count (host' : HostEvidencePublisher) (text : Text) (sequence : U64)
    (h : host'.sequences = host.sequences.insert text sequence) (key : EvidenceKey) :
    host'.sequenceOf key = if keyText key = text then sequence else host.sequenceOf key := by
  unfold sequenceOf
  rw [h]
  split
  · rename_i heq
    rw [heq, Finmap.lookup_insert]
    rfl
  · rename_i hne
    rw [Finmap.lookup_insert_of_ne _ hne]

theorem Sequenced.request (h : host.Sequenced made) (bindings : HostBindings)
    (epoch : CoordinatorEpoch) (observation : HostLinkObservation)
    (hroom : (made ++ (host.request bindings epoch observation).2.toList).length < 2 ^ 64) :
    (host.request bindings epoch observation).1.Sequenced
      (made ++ (host.request bindings epoch observation).2.toList) := by
  unfold HostEvidencePublisher.request at hroom ⊢
  split at hroom
  · rw [Option.toList_none, List.append_nil]
    exact h
  set key := host.evidenceKey observation with hkey
  rw [Option.toList_some, List.length_append, List.length_singleton] at hroom
  -- There is room below 2^64, so that the number of the source has not come round.
  have hnext : (host.sequenceOf key + 1).val = (host.sequenceOf key).val + 1 := by
    have hbounded := h.bounded key
    rw [Fin.val_add]
    exact Nat.mod_eq_of_lt (show (host.sequenceOf key).val + 1 < 2 ^ 64 by omega)
  dsimp only
  rw [Option.toList_some]
  have hcount := @sequenceOf_count host
    { host with
      sequences := host.sequences.insert (keyText key) (host.sequenceOf key + 1)
      observationCounter := host.observationCounter + 1 } _ _ rfl
  refine ⟨fun k => ?_, fun request hrequest => ?_, fun request hrequest => ?_, ?_⟩
  · have hbounded := h.bounded k
    have hlast := h.bounded key
    rw [List.length_append, List.length_singleton]
    refine (congrArg Fin.val (hcount k)).trans_le ?_
    split
    · rw [hnext]
      omega
    · omega
  · rcases List.mem_append.mp hrequest with hold | hnew
    · have hlatest := h.latest request hold
      refine hlatest.trans ((hcount _).symm ▸ ?_)
      split
      · rename_i htext
        have hsame : host.sequenceOf request.observation.key = host.sequenceOf key := by
          unfold sequenceOf
          rw [htext]
        rw [hsame, Fin.le_def, hnext]
        omega
      · exact le_rfl
    · obtain rfl := List.mem_singleton.mp hnew
      exact ((hcount key).trans (if_pos rfl)).ge
  · rcases List.mem_append.mp hrequest with hold | hnew
    · exact h.generation request hold
    · rw [List.mem_singleton.mp hnew]
  · refine List.pairwise_append.mpr ⟨h.ordered, List.pairwise_singleton _ _, fun a ha b hb hsame => ?_⟩
    obtain rfl := List.mem_singleton.mp hb
    refine ⟨?_, h.generation a ha⟩
    have hlatest := h.latest a ha
    rw [hsame] at hlatest
    refine lt_of_le_of_lt hlatest ?_
    rw [Fin.lt_def]
    exact (Nat.lt_succ_self _).trans_eq hnext.symm

theorem Sequenced.convert (h : host.Sequenced made) (bindings : HostBindings)
    (epoch : CoordinatorEpoch) (observations : List HostLinkObservation)
    (hroom : (made ++ (convert bindings epoch host observations).2).length < 2 ^ 64) :
    (convert bindings epoch host observations).1.Sequenced
      (made ++ (convert bindings epoch host observations).2) := by
  induction observations generalizing host made with
  | nil =>
    rw [HostEvidencePublisher.convert, List.append_nil]
    exact h
  | cons observation rest ih =>
    rw [HostEvidencePublisher.convert] at hroom ⊢
    dsimp only at hroom ⊢
    rw [← List.append_assoc] at hroom ⊢
    refine ih (h.request bindings epoch observation ?_) hroom
    simp only [List.length_append] at hroom ⊢
    omega

theorem Sequenced.requests (h : host.Sequenced made) (report : HostDiscoveryReport)
    (bindings : HostBindings) (epoch : CoordinatorEpoch)
    (hroom : (made ++ (host.requests report bindings epoch).2).length < 2 ^ 64) :
    (host.requests report bindings epoch).1.Sequenced
      (made ++ (host.requests report bindings epoch).2) := by
  have hround := h.convert bindings epoch report.observations hroom
  refine ⟨hround.bounded, hround.latest, fun request hrequest => ?_, hround.ordered⟩
  refine (hround.generation request hrequest).trans ?_
  show _ ≤ (HostEvidencePublisher.convert bindings epoch host
    report.observations).1.sourceGeneration.next.getD _
  cases hnext : (HostEvidencePublisher.convert bindings epoch host
      report.observations).1.sourceGeneration.next with
  | none => exact le_rfl
  | some generation => exact (StrongGeneration.lt_next hnext).le

theorem request_source (bindings : HostBindings) (epoch : CoordinatorEpoch)
    (observation : HostLinkObservation) :
    (host.request bindings epoch observation).1.source = host.source ∧
    ∀ request ∈ (host.request bindings epoch observation).2,
      request.observation.key.source = host.source := by
  unfold HostEvidencePublisher.request
  split
  · exact ⟨rfl, fun _ h => by cases h⟩
  · refine ⟨rfl, fun request h => ?_⟩
    cases h
    rfl

/-- An object publishes for one source. -/
theorem convert_source (bindings : HostBindings) (epoch : CoordinatorEpoch)
    (observations : List HostLinkObservation) :
    (convert bindings epoch host observations).1.source = host.source ∧
    ∀ request ∈ (convert bindings epoch host observations).2,
      request.observation.key.source = host.source := by
  induction observations generalizing host with
  | nil => exact ⟨rfl, fun _ h => by cases h⟩
  | cons observation rest ih =>
    obtain ⟨hsource, hmade⟩ := @request_source host bindings epoch observation
    obtain ⟨hrest, hconverted⟩ := @ih (host.request bindings epoch observation).1
    refine ⟨hrest.trans hsource, fun request hrequest => ?_⟩
    rcases List.mem_append.mp hrequest with hnew | hlater
    · exact hmade request (Option.mem_toList.mp hnew)
    · exact (hconverted request hlater).trans hsource

end Sequenced

end HostEvidencePublisher

/-! ## Answers -/

/-- An observation that comes after the record in its slot is fresh. -/
theorem judgeSlot_fresh {slot observation : EvidenceRecord}
    (hsequence : slot.sequence < observation.sequence)
    (hgeneration : slot.sourceGeneration ≤ observation.sourceGeneration) :
    judgeSlot slot observation = .fresh := by
  unfold judgeSlot
  rw [if_neg (not_lt.mpr hgeneration)]
  split
  · rw [if_neg hsequence.asymm, if_neg hsequence.ne']
  · rfl

section Answers

variable {impl : Impl} {request : PublishEvidenceRequest}

/-- What is refused as stale evidence is stale for the record in its slot. -/
theorem stale_of_admit {refusal : Refusal} (h : impl.admit request = .refused refusal)
    (hcode : refusal.1 = .staleEvidence) : ∃ entry slot detail,
      impl.entryOf request.observation.key.link = some entry ∧
      findSlot entry request.observation.key = some slot ∧
      judgeSlot slot request.observation = .stale detail := by
  unfold Impl.admit at h
  dsimp only at h
  -- The checks in the order of the source; only the slot is told to be stale.
  split at h
  · cases h
  split at h
  · cases h
    cases hcode
  rename_i entry hbound
  split at h
  · rename_i hrefusal
    cases h
    have hmem := refusal_code hrefusal
    rw [hcode] at hmem
    exact absurd hmem (by decide)
  split at h
  · rename_i detail hstale
    cases hslot : findSlot entry request.observation.key with
    | none =>
      rw [hslot] at hstale
      cases hstale
    | some slot =>
      rw [hslot] at hstale
      exact ⟨entry, slot, detail, hbound, hslot, hstale⟩
  · cases h
  split at h
  · rename_i hcapacity
    cases h
    unfold checkCapacity at hcapacity
    split at hcapacity <;> cases hcapacity
    cases hcode
  split at h
  · cases h
    exact absurd (prepareCommit_code hcode) (by decide)
  · cases h

theorem publish_code_ne (t : Edit) (prepared : PreparedCommit) :
    (t.publish request prepared).2.outcome.code ≠ .staleEvidence ∧
    (t.publish request prepared).2.outcome.code ≠ .idempotent := by
  unfold Edit.publish publicationResult
  dsimp only
  split
  · exact ⟨nofun, nofun⟩
  · split <;> exact ⟨nofun, nofun⟩

/-- A request of which the slot has nothing newer is not refused as stale, and not taken for a
replay. -/
theorem timely_of_fresh (h : ∀ entry, impl.entryOf request.observation.key.link = some entry →
      ∀ slot, findSlot entry request.observation.key = some slot →
        judgeSlot slot request.observation = .fresh) :
    (impl.publishEvidence request).2.outcome.code ≠ .staleEvidence ∧
    (impl.publishEvidence request).2.outcome.code ≠ .idempotent := by
  unfold Impl.publishEvidence
  split
  · exact ⟨nofun, nofun⟩
  · rename_i code detail hadmit
    refine ⟨fun hcode => ?_, fun hcode => ?_⟩
    · obtain ⟨entry, slot, text, hbound, hslot, hstale⟩ := stale_of_admit hadmit hcode
      rw [h entry hbound slot hslot] at hstale
      cases hstale
    · have hdeclines := refused_declines hadmit
      rw [show code = .idempotent from hcode] at hdeclines
      cases hdeclines
  · rename_i entry hadmit
    obtain ⟨hbound, -, slot, hslot, hreplay⟩ := replay_of_admit hadmit
    rw [h entry hbound slot hslot] at hreplay
    cases hreplay
  · exact publish_code_ne _ _

end Answers

/-! ## Feeds -/

/-- Objects and an engine, with the place behind the request of each object that was submitted
last. -/
structure Feed (ι : Type) extends Hosts ι where
  sent : ι → Nat

namespace Feed

variable {ι : Type}

/-- The objects are new and have sources of their own, of which nothing is current. -/
structure Start (s : Feed ι) : Prop where
  created : ∀ i, ∃ publisher workerBoot source, s.host i = { publisher, workerBoot, source }
  nothing : ∀ i, s.made i = []
  distinct : ∀ i j, (s.host i).source = (s.host j).source → i = j
  vacant : ∀ i link, ∀ record ∈ s.impl.currentEvidence link, record.key.source ≠ (s.host i).source

/-- The requests of an object are submitted in order, and nobody else publishes for its source. -/
def Orderly (s : Feed ι) : HostStep ι → Prop
  | .submit i n => s.sent i ≤ n
  | .operate (.publishEvidence request) => ∀ i, request.observation.key.source ≠ (s.host i).source
  | _ => True

/-- What is current from the source of an object is a request of it that was submitted. -/
structure Timely (s : Feed ι) : Prop where
  distinct : ∀ i j, (s.host i).source = (s.host j).source → i = j
  source : ∀ i, ∀ request ∈ s.made i, request.observation.key.source = (s.host i).source
  sequenced : ∀ i, (s.made i).length < 2 ^ 64 → (s.host i).Sequenced (s.made i)
  current : ∀ i link, ∀ record ∈ s.impl.currentEvidence link,
    record.key.source = (s.host i).source → ∃ n < s.sent i, ∃ request,
      (s.made i)[n]? = some request ∧ record.key = request.observation.key ∧
      record.sequence = request.observation.sequence ∧
      record.sourceGeneration = request.observation.sourceGeneration

theorem Start.timely {s : Feed ι} (h : s.Start) : s.Timely := by
  refine ⟨h.distinct, fun i request hrequest => ?_, fun i _ => ?_,
    fun i link record hrecord hsource => absurd hsource (h.vacant i link record hrecord)⟩
  · rw [h.nothing i] at hrequest
    cases hrequest
  · obtain ⟨publisher, workerBoot, source, hhost⟩ := h.created i
    rw [hhost, h.nothing i]
    exact ⟨fun _ => Nat.zero_le _, fun _ h => (by cases h), fun _ h => (by cases h), .nil⟩

section Steps

variable [DecidableEq ι]

/-- The effect of a step. -/
def apply (s : Feed ι) (step : HostStep ι) : Feed ι where
  toHosts := s.toHosts.apply step
  sent := match step with
    | .submit i n => Function.update s.sent i (n + 1)
    | _ => s.sent

theorem Timely.convert {s : Feed ι} (h : s.Timely) (i : ι) (report : HostDiscoveryReport)
    (bindings : HostBindings) (epoch : CoordinatorEpoch) :
    (s.apply (.convert i report bindings epoch)).Timely := by
  obtain ⟨hsame, hnew⟩ := @HostEvidencePublisher.convert_source (s.host i) bindings epoch
    report.observations
  set s' := s.apply (.convert i report bindings epoch)
  have hhost (j : ι) : s'.host j =
      if j = i then ((s.host i).requests report bindings epoch).1 else s.host j :=
    Function.update_apply ..
  have hmade (j : ι) : s'.made j =
      s.made j ++ if j = i then ((s.host i).requests report bindings epoch).2 else [] := by
    refine (Function.update_apply s.made i _ j).trans ?_
    split
    · rename_i heq
      rw [heq]
      rfl
    · rw [List.append_nil]
  have hsource (j : ι) : (s'.host j).source = (s.host j).source := by
    rw [hhost]
    split
    · rename_i heq
      rw [heq]
      exact hsame
    · rfl
  -- A report adds to what one host has made, and changes nothing that was sent.
  refine ⟨fun j k heq => ?_, fun j request hrequest => ?_, fun j hroom => ?_,
    fun j link record hrecord hfrom => ?_⟩
  · rw [hsource, hsource] at heq
    exact h.distinct j k heq
  · rw [hmade] at hrequest
    rw [hsource]
    refine (List.mem_append.mp hrequest).elim (h.source j request) fun hlast => ?_
    split at hlast
    · rename_i heq
      rw [heq]
      exact hnew request hlast
    · cases hlast
  · rw [hmade] at hroom
    have hsequenced := h.sequenced j (by rw [List.length_append] at hroom; omega)
    rw [hhost, hmade]
    split at hroom
    · rename_i heq
      subst heq
      rw [if_pos rfl, if_pos rfl]
      exact hsequenced.requests report bindings epoch hroom
    · rename_i hne
      rw [if_neg hne, if_neg hne, List.append_nil]
      exact hsequenced
  · rw [hsource] at hfrom
    obtain ⟨n, hn, request, hrequest, hrecorded⟩ := h.current j link record hrecord hfrom
    refine ⟨n, hn, request, ?_, hrecorded⟩
    rw [hmade]
    exact List.getElem?_append_left (List.getElem?_eq_some_iff.mp hrequest).1 ▸ hrequest

theorem Timely.submit {s : Feed ι} (h : s.Timely) {i : ι} {n : Nat} (hn : s.sent i ≤ n) :
    (s.apply (.submit i n)).Timely := by
  have hsent (j : ι) : (s.apply (.submit i n)).sent j = if j = i then n + 1 else s.sent j :=
    Function.update_apply ..
  have hkept : (s.apply (.submit i n)).host = s.host ∧ (s.apply (.submit i n)).made = s.made := by
    show (s.toHosts.apply (.submit i n)).host = _ ∧ (s.toHosts.apply (.submit i n)).made = _
    unfold Hosts.apply
    dsimp only
    split <;> exact ⟨rfl, rfl⟩
  have hcurrent {link : LinkId} {record : EvidenceRecord}
      (hrecord : record ∈ (s.apply (.submit i n)).impl.currentEvidence link) :
      record ∈ s.impl.currentEvidence link ∨ ∃ request, (s.made i)[n]? = some request ∧
        ∃ t : Edit, record = t.storedRecord request.observation := by
    have hrecord : record ∈ (s.toHosts.apply (.submit i n)).impl.currentEvidence link := hrecord
    unfold Hosts.apply at hrecord
    dsimp only at hrecord
    split at hrecord
    · exact .inl hrecord
    · rename_i request hrequest
      rcases currentEvidence_apply (.publishEvidence request) hrecord with
        hbefore | ⟨request', heq, hstored⟩
      · exact .inl hbefore
      · cases heq
        exact .inr ⟨request, hrequest, hstored⟩
  obtain ⟨hhost, hmade⟩ := hkept
  refine ⟨?_, ?_, ?_, fun j link record hrecord hfrom => ?_⟩
  · rw [hhost]
    exact h.distinct
  · rw [hhost, hmade]
    exact h.source
  · rw [hhost, hmade]
    exact h.sequenced
  rw [hhost] at hfrom
  -- What is current was current before, or is the request that is sent now.
  rw [hmade, hsent]
  rcases hcurrent hrecord with hbefore | ⟨request, hrequest, t, rfl⟩
  · obtain ⟨m, hm, hrecorded⟩ := h.current j link record hbefore hfrom
    refine ⟨m, ?_, hrecorded⟩
    split
    · rename_i heq
      subst heq
      omega
    · exact hm
  · -- the source tells whose request it is
    have hsource := h.source i request (List.mem_of_getElem? hrequest)
    obtain rfl : i = j := h.distinct i j (hsource.symm.trans hfrom)
    rw [if_pos rfl]
    exact ⟨n, Nat.lt_succ_self n, request, hrequest, rfl, rfl, rfl⟩

theorem Timely.operate {s : Feed ι} (h : s.Timely) {op : Op} (hop : s.Orderly (.operate op)) :
    (s.apply (.operate op)).Timely := by
  refine ⟨h.distinct, h.source, h.sequenced, fun i link record hrecord hsource => ?_⟩
  rcases currentEvidence_apply op hrecord with hbefore | ⟨request, rfl, t, rfl⟩
  · exact h.current i link record hbefore hsource
  · exact absurd hsource (hop i)

/-- The states that runs of feeds reach. -/
abbrev Reachable : Feed ι → Prop := Runs.Run Start apply Orderly

theorem Reachable.timely {s : Feed ι} (h : s.Reachable) : s.Timely := by
  refine h.invariant (fun _ hstart => hstart.timely) fun s step htimely hok => ?_
  cases step with
  | convert i report bindings epoch => exact htimely.convert i report bindings epoch
  | submit i n => exact htimely.submit hok
  | operate op => exact htimely.operate hok

end Steps

end Feed

/-- As long as an object has made fewer than `2 ^ 64` requests, its next one is not refused as stale
and not taken for a replay, whatever has become of those before it. -/
theorem host_in_order {ι : Type} [DecidableEq ι] {s : Feed ι} (h : s.Reachable) {i : ι} {n : Nat}
    (hn : s.sent i ≤ n) (hroom : (s.made i).length < 2 ^ 64) {request : PublishEvidenceRequest}
    (hrequest : (s.made i)[n]? = some request) :
    (s.impl.publishEvidence request).2.outcome.code ≠ .staleEvidence ∧
    (s.impl.publishEvidence request).2.outcome.code ≠ .idempotent := by
  have htimely := h.timely
  refine timely_of_fresh fun entry hbound slot hslot => ?_
  have hfound : entry.current.find? (fun record => decide (record.key = request.observation.key)) =
      some slot := hslot
  have hkey : slot.key = request.observation.key := by
    have hmatch := List.find?_some hfound
    exact of_decide_eq_true hmatch
  have hsource := htimely.source i request (List.mem_of_getElem? hrequest)
  have hcurrent : slot ∈ s.impl.currentEvidence request.observation.key.link :=
    Impl.mem_currentEvidence.mpr ⟨entry, hbound, List.mem_of_find?_eq_some hfound⟩
  -- What is in the slot is an earlier request about the key.
  obtain ⟨m, hm, other, hother, hsame, hsequence, hgeneration⟩ :=
    htimely.current i _ slot hcurrent ((congrArg EvidenceKey.source hkey).trans hsource)
  obtain ⟨hmlt, rfl⟩ := List.getElem?_eq_some_iff.mp hother
  obtain ⟨hnlt, rfl⟩ := List.getElem?_eq_some_iff.mp hrequest
  have hordered := List.pairwise_iff_getElem.mp (htimely.sequenced i hroom).ordered m n hmlt hnlt
    (hm.trans_le hn)
  obtain ⟨hnewer, hlater⟩ := hordered (hsame.symm.trans hkey)
  exact judgeSlot_fresh (hsequence ▸ hnewer) (hgeneration ▸ hlater)

namespace Sample

def feed : Feed Bool where
  toHosts := hosts
  sent _ := 0

theorem feed_start : feed.Start where
  created _ := ⟨_, _, _, rfl⟩
  nothing _ := rfl
  distinct := by decide
  vacant _ link record hrecord := by
    rw [show feed.impl = hosts.impl from rfl, hosts_silent] at hrecord
    cases hrecord

/-- The first host publishes what it saw, and looks again. -/
def fed : Feed Bool := [round false, .submit false 0, round false].foldl Feed.apply feed

theorem fed_reachable : fed.Reachable :=
  Runs.Run.foldl (.start feed_start) ⟨trivial, le_rfl, trivial, trivial⟩

end Sample

theorem host_in_order_sample : ∃ request, (Sample.fed.made false)[1]? = some request ∧
    (Sample.fed.impl.publishEvidence request).2.outcome.code ≠ .staleEvidence ∧
    (Sample.fed.impl.publishEvidence request).2.outcome.code ≠ .idempotent := by
  have hsome : ((Sample.fed.made false)[1]?).isSome = true := by decide
  obtain ⟨request, hrequest⟩ := Option.isSome_iff_exists.mp hsome
  exact ⟨request, hrequest, host_in_order Sample.fed_reachable (by decide) (by decide) hrequest⟩

end LinkState
