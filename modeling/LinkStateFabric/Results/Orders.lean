import LinkStateFabric.Engine.Fencing
import LinkStateFabric.Engine.Publications
import LinkStateFabric.Engine.Restored
import LinkStateFabric.Results.Topology

/-!
# The order of publications

Publications of one link that take nothing from each other (`Impl.Independent`) commit in every
order, and the link ends alike (`publications_commute`). What is kept on the way is `Stacked`: the
evidence is that of the start and of what has been published, up to bookkeeping, and the link has
the conclusion of resolving it as it was at the start. The states in between may differ, and with
them whether a state was ever established; but this only matters where nothing is decisive
(`resolveLinkState_decided`), and then nothing was on the way either.
-/

namespace LinkState

open Sorting
open EvidenceRecord (strip)

/-! ## Evidence up to bookkeeping -/

theorem digestEvidenceSet_strip (l : List EvidenceRecord) :
    digestEvidenceSet (l.map strip) = digestEvidenceSet l := by
  unfold digestEvidenceSet
  dsimp only
  rw [← @map_sortBy _ digestLess _ digestLess strip (fun _ _ => rfl) l, List.length_map,
    List.foldl_map]
  rfl

/-- Evidence that is sorted is the same list when it is the same up to order. -/
theorem strip_eq_of_perm {l l' : List EvidenceRecord}
    (hl : l.Pairwise fun a b => evidenceLess a b) (hl' : l'.Pairwise fun a b => evidenceLess a b)
    (hp : (l.map strip).Perm (l'.map strip)) : l.map strip = l'.map strip := by
  have hsorted {l : List EvidenceRecord} (h : l.Pairwise fun a b => evidenceLess a b) :
      (l.map strip).Pairwise fun a b => evidenceLess a b := List.pairwise_map.mpr h
  refine List.Perm.eq_of_pairwise (fun a b _ _ hab hba => ?_) (hsorted hl) (hsorted hl') hp
  rw [ranks_evidenceLess.asymm hab] at hba
  cases hba

/-- The records of different keys, up to bookkeeping. -/
theorem nodup_keys_of_perm {l l' : List EvidenceRecord} (hp : (l.map strip).Perm (l'.map strip))
    (hl : (l'.map (·.key)).Nodup) : (l.map (·.key)).Nodup := by
  have hkeys (l : List EvidenceRecord) : (l.map strip).map (·.key) = l.map (·.key) := by
    rw [List.map_map]
    rfl
  rw [← hkeys] at hl ⊢
  exact (hp.map _).nodup_iff.mpr hl

/-! ## Independent publications -/

/-- What is left of a link when the bookkeeping of its commits is set aside. -/
structure Outlook where
  evidence : List EvidenceRecord
  conclusion : Conclusion
  provenance : Digest
  evidenceGeneration : EvidenceGeneration

def LinkEntry.outlook (entry : LinkEntry) : Outlook where
  evidence := entry.current.map strip
  conclusion := entry.conclusion
  provenance := entry.record.provenanceDigest
  evidenceGeneration := entry.record.evidenceGeneration

def Impl.outlook (impl : Impl) (link : LinkId) : Option Outlook :=
  (impl.entryOf link).map (·.outlook)

/-- The engine after a publication. -/
def Impl.publishes (impl : Impl) (request : PublishEvidenceRequest) : Impl :=
  (impl.publishEvidence request).1

/-- Publications of one link that take nothing from each other, nor from what is current, and each
of which commits. -/
structure Impl.Independent (impl : Impl) (link : LinkId)
    (requests : List PublishEvidenceRequest) : Prop where
  links : ∀ r ∈ requests, r.observation.key.link = link
  keys : (requests.map (·.observation.key)).Nodup
  fresh : ∀ r ∈ requests, ∀ record ∈ impl.currentEvidence link, record.key ≠ r.observation.key
  observations : (requests.map (·.observation.observation)).Nodup
  status : ∀ r ∈ requests, r.observation.status = .current
  sourceGenerations : ∀ record ∈ impl.currentEvidence link ++ requests.map (·.observation),
    ∀ r ∈ requests, record.key.source = r.observation.key.source →
      record.sourceGeneration = r.observation.sourceGeneration
  expectedEvidence : ∀ r ∈ requests, r.expectedEvidenceGeneration = none
  expectedState : ∀ r ∈ requests, r.expectedStateGeneration = none
  capacity : (impl.currentEvidence link).length + requests.length ≤ impl.config.maxEvidencePerLink
  acceptable : ∀ r ∈ requests, impl.Commits r

/-- The counters of the engine and of the link can advance that often. -/
def Impl.HasRoom (impl : Impl) (link : LinkId) (n : Nat) : Prop :=
  ∀ entry, impl.entryOf link = some entry → ∀ c, Edit.count ⟨impl, entry⟩ c + n ≤ 2 ^ 64 - 1

instance (impl : Impl) (link : LinkId) (n : Nat) : Decidable (impl.HasRoom link n) :=
  decidable_of_iff (∀ entry ∈ impl.entryOf link,
      ∀ c ∈ [Counter.global, .evidence, .state, .globalState],
        Edit.count ⟨impl, entry⟩ c + n ≤ 2 ^ 64 - 1)
    ⟨fun h entry hentry c => h entry hentry c (by cases c <;> simp),
      fun h entry hentry c _ => h entry hentry c⟩

theorem Impl.Independent.perm {impl : Impl} {link : LinkId} {l l' : List PublishEvidenceRequest}
    (h : impl.Independent link l) (hp : l'.Perm l) : impl.Independent link l' where
  links r hr := h.links r (hp.mem_iff.mp hr)
  keys := (hp.map _).nodup_iff.mpr h.keys
  fresh r hr := h.fresh r (hp.mem_iff.mp hr)
  observations := (hp.map _).nodup_iff.mpr h.observations
  status r hr := h.status r (hp.mem_iff.mp hr)
  sourceGenerations record hrecord r hr := h.sourceGenerations record
    (((hp.map _).append_left _).mem_iff.mp hrecord) r (hp.mem_iff.mp hr)
  expectedEvidence r hr := h.expectedEvidence r (hp.mem_iff.mp hr)
  expectedState r hr := h.expectedState r (hp.mem_iff.mp hr)
  capacity := by
    rw [hp.length_eq]
    exact h.capacity
  acceptable r hr := h.acceptable r (hp.mem_iff.mp hr)

/-! ## What is kept on the way -/

/-- The evidence of the start and of what has been published since. -/
def LinkEntry.joined (entry : LinkEntry) (requests : List PublishEvidenceRequest) :
    List EvidenceRecord :=
  entry.current ++ requests.map (·.observation)

/-- An engine after some of the publications: `impl` and `entry` are those of the start. -/
structure Stacked (impl : Impl) (entry : LinkEntry) (link : LinkId)
    (done : List PublishEvidenceRequest) (impl' : Impl) (entry' : LinkEntry) : Prop where
  reachable : impl'.Reachable
  bound : impl'.entryOf link = some entry'
  authority : SameAuthority impl impl'
  config : impl'.config = impl.config
  shape : ∀ l, impl'.shape l = impl.shape l
  others : ∀ l, l ≠ link → impl'.entryOf l = impl.entryOf l
  current : (entry'.current.map strip).Perm ((entry.joined done).map strip)
  adminIntent : entry'.record.adminIntent = entry.record.adminIntent
  established : entry'.record.everEstablished = entry.record.everEstablished ∨
    entry.record.adminIntent ≠ none ∨ ∃ x ∈ entry.joined done, x.Decisive
  counts : ∀ c, Edit.count ⟨impl', entry'⟩ c ≤ Edit.count ⟨impl, entry⟩ c + done.length
  evidence : entry'.record.evidenceGeneration.value =
    entry.record.evidenceGeneration.value + done.length
  concluded : done ≠ [] →
    entry'.conclusion = (resolveLinkState (entry.joined done) entry.record).conclusion ∧
    entry'.record.provenanceDigest = digestEvidenceSet (entry'.current)

namespace Stacked

variable {impl impl' : Impl} {entry entry' : LinkEntry} {link : LinkId}
  {done rest : List PublishEvidenceRequest} {request : PublishEvidenceRequest}

theorem start (h : impl.Reachable) (hentry : impl.entryOf link = some entry) :
    Stacked impl entry link [] impl entry where
  reachable := h
  bound := hentry
  authority := .refl impl
  config := rfl
  shape _ := rfl
  others _ _ := rfl
  current := by
    unfold LinkEntry.joined
    rw [List.map_nil, List.append_nil]
  adminIntent := rfl
  established := .inl rfl
  counts _ := le_rfl
  evidence := rfl
  concluded h := absurd rfl h

/-- The link is as retired as at the start, and has the same binding. -/
theorem shape_eq (h : Stacked impl entry link done impl' entry')
    (hentry : impl.entryOf link = some entry) : entry'.shape = entry.shape := by
  have hshape := h.shape link
  unfold Impl.shape at hshape
  rw [h.bound, hentry] at hshape
  exact Option.some.inj hshape

/-- A record that is current is, up to bookkeeping, one of the start or of what was published. -/
theorem mem_joined (h : Stacked impl entry link done impl' entry') {record : EvidenceRecord}
    (hrecord : record ∈ entry'.current) : ∃ x ∈ entry.joined done, x.strip = record.strip :=
  List.mem_map.mp (h.current.mem_iff.mp (List.mem_map_of_mem hrecord))

end Stacked

section Join

variable {impl impl' : Impl} {entry entry' : LinkEntry} {link : LinkId}
  {done rest : List PublishEvidenceRequest} {request : PublishEvidenceRequest}

/-- What an independent publication finds among the evidence. -/
structure Joins (joined : List EvidenceRecord) (observation : EvidenceRecord) : Prop where
  key : ∀ x ∈ joined, x.key ≠ observation.key
  sourceGeneration : ∀ x ∈ joined, x.key.source = observation.key.source →
    x.sourceGeneration = observation.sourceGeneration

theorem Impl.Independent.joins (h : impl.Independent link (done ++ request :: rest))
    (hentry : impl.entryOf link = some entry) : Joins (entry.joined done) request.observation := by
  have hcurrent := Impl.currentEvidence_eq hentry
  have hmem : request ∈ done ++ request :: rest := List.mem_append_right _ List.mem_cons_self
  refine ⟨fun x hx hkey => ?_, fun x hx => h.sourceGenerations x ?_ request hmem⟩
  · rcases List.mem_append.mp hx with hx | hx
    · exact h.fresh request hmem x (hcurrent ▸ hx) hkey
    · obtain ⟨r, hr, rfl⟩ := List.mem_map.mp hx
      have hkeys := h.keys
      rw [List.map_append, List.nodup_append] at hkeys
      exact hkeys.2.2 _ (List.mem_map_of_mem hr) _ (List.mem_map_of_mem List.mem_cons_self) hkey
  · rw [hcurrent]
    refine List.mem_append.mpr ((List.mem_append.mp hx).imp id fun hx => ?_)
    rw [List.map_append]
    exact List.mem_append_left _ hx

/-- Such a publication takes the place of nothing. -/
theorem Joins.not_supersedes {joined : List EvidenceRecord} {observation x : EvidenceRecord}
    (h : Joins joined observation) (hx : x ∈ joined) : supersedes observation x = false := by
  unfold supersedes
  rw [Bool.or_eq_false_iff, decide_eq_false_iff_not, Bool.and_eq_false_imp, decide_eq_true_iff]
  refine ⟨h.key x hx, fun hsource => ?_⟩
  rw [decide_eq_false_iff_not, h.sourceGeneration x hx hsource]
  exact lt_irrefl _

/-- What holds of the joined evidence holds of the current evidence. -/
theorem Stacked.joins (h : Stacked impl entry link done impl' entry') {observation : EvidenceRecord}
    (hjoins : Joins (entry.joined done) observation) : Joins entry'.current observation := by
  refine ⟨fun record hrecord => ?_, fun record hrecord => ?_⟩
  · obtain ⟨x, hx, hstrip⟩ := h.mem_joined hrecord
    rw [show record.key = x.key from congrArg (·.key) hstrip.symm]
    exact hjoins.key x hx
  · obtain ⟨x, hx, hstrip⟩ := h.mem_joined hrecord
    rw [show record.key = x.key from congrArg (·.key) hstrip.symm,
      show record.sourceGeneration = x.sourceGeneration from
        congrArg (·.sourceGeneration) hstrip.symm]
    exact hjoins.sourceGeneration x hx

theorem Joins.filter_eq {joined : List EvidenceRecord} {observation : EvidenceRecord}
    (h : Joins joined observation) : joined.filter (!supersedes observation ·) = joined :=
  List.filter_eq_self.mpr fun x hx => by rw [h.not_supersedes hx]; rfl

/-- The counters have room for what has not been published yet. -/
theorem Stacked.not_spent (h : Stacked impl entry link done impl' entry')
    (hentry : impl.entryOf link = some entry)
    (hroom : impl.HasRoom link (done ++ request :: rest).length) (c : Counter) :
    ¬ Edit.Spent ⟨impl', entry'⟩ c := by
  have hcount := h.counts c
  have hfits := hroom entry hentry c
  rw [List.length_append, List.length_cons] at hfits
  unfold Edit.Spent
  omega

/-- An observation that was free at the start, and that nothing published has, is free. -/
theorem Stacked.checkObservation_eq (h : Stacked impl entry link done impl' entry')
    (hindexed : Indexed impl) (hentry : impl.entryOf link = some entry) {observation : EvidenceRecord}
    (hfree : checkObservation impl.store observation = none)
    (hdone : ∀ r ∈ done, r.observation.observation ≠ observation.observation) :
    checkObservation impl'.store observation = none := by
  have hstart {key : EvidenceKey} (hl : impl.Has (LinkEntry.Observes observation.observation key)
      key.link) : key = observation.key := by
    unfold checkObservation at hfree
    rw [(hindexed.lookup_iff _ key).mpr hl] at hfree
    dsimp only at hfree
    split at hfree
    · cases hfree
    · rename_i heq
      exact not_not.mp heq
  unfold checkObservation
  split
  · rfl
  rename_i key hlookup
  refine if_neg (not_not.mpr ?_)
  obtain ⟨e, he, record, hrecord, hobservation, hkey⟩ :=
    (h.reachable.indexed.lookup_iff _ key).mp hlookup
  -- On the link itself the records are those of before and those that were put on top.
  by_cases hlink : key.link = link
  · obtain rfl : e = entry' := by
      rw [hlink, h.bound] at he
      exact (Option.some.inj he).symm
    obtain ⟨x, hx, hstrip⟩ := h.mem_joined hrecord
    have hxobservation : x.observation = observation.observation :=
      (congrArg (·.observation) hstrip).trans hobservation
    have hxkey : x.key = key := (congrArg (·.key) hstrip).trans hkey
    rcases List.mem_append.mp hx with hx | hx
    · exact hstart ⟨entry, hlink ▸ hentry, x, hx, hxobservation, hxkey⟩
    · obtain ⟨r, hr, rfl⟩ := List.mem_map.mp hx
      exact absurd hxobservation (hdone r hr)
  · exact hstart ⟨e, (h.others _ hlink).symm.trans he, record, hrecord, hobservation, hkey⟩

/-- A publication that commits at the start is admitted after others that leave it alone. -/
theorem Stacked.admitted (h : Stacked impl entry link done impl' entry') (hstart : impl.Reachable)
    (hentry : impl.entryOf link = some entry)
    (hind : impl.Independent link (done ++ request :: rest))
    (hroom : impl.HasRoom link (done ++ request :: rest).length) :
    Admitted impl' request entry' (prepareCommit impl' entry'
      (prospectiveWith entry' request.observation) .evidenceResolution) := by
  have hmem : request ∈ done ++ request :: rest := List.mem_append_right _ List.mem_cons_self
  obtain ⟨entry₀, _, _, _, ⟨hadmitted, -⟩⟩ := publishEvidence_published (hind.acceptable request hmem)
  have hbound := hadmitted.bound
  rw [hind.links request hmem, hentry] at hbound
  obtain rfl : entry = entry₀ := Option.some.inj hbound
  have hshape := h.shape_eq hentry
  have hbinding : entry'.record.binding = entry.record.binding := congrArg Prod.snd hshape
  have hlive : entry'.record.state ≠ .retired :=
    fun hretired => hadmitted.live (by simpa [LinkEntry.shape, hretired] using congrArg Prod.fst hshape)
  have hjoins := h.joins (hind.joins hentry)
  -- Nothing was superseded on the way, so that every publication has added a record.
  have hlength : entry'.current.length = entry.current.length + done.length := by
    simpa [LinkEntry.joined] using h.current.length_eq
  have hspent := h.not_spent hentry hroom
  refine ⟨hadmitted.valid, ?_, hlive, ?_, ?_, ?_, ?_, ?_, ?_, ?_, ?_, ?_, rfl, ?_⟩
  · rw [hind.links request hmem]
    exact h.bound
  · rw [h.authority.authorize, hbinding]
    exact hadmitted.authorized
  · rw [hbinding]
    refine backingStale_eq_none.mpr fun backing hb => ?_
    unfold Impl.Pins
    rw [h.shape]
    exact backingStale_eq_none.mp hadmitted.backing backing hb
  · have := hadmitted.topology
    unfold checkTopology at this ⊢
    rw [hbinding]
    exact this
  · have := hadmitted.endpoint
    unfold checkEndpoint at this ⊢
    rw [hbinding]
    exact this
  · rw [hind.expectedEvidence request hmem]
    rfl
  · rw [hind.expectedState request hmem]
    rfl
  · refine h.checkObservation_eq hstart.indexed hentry hadmitted.identity fun r hr heq => ?_
    have hobservations := hind.observations
    rw [List.map_append, List.nodup_append] at hobservations
    exact hobservations.2.2 _ (List.mem_map_of_mem hr) _ (List.mem_map_of_mem List.mem_cons_self) heq
  · intro slot hslot
    have hkey : slot.key = request.observation.key := by simpa using List.find?_some hslot
    exact absurd hkey (hjoins.key slot (List.mem_of_find?_eq_some hslot))
  · have hcapacity := hind.capacity
    rw [Impl.currentEvidence_eq hentry, List.length_append, List.length_cons, ← h.config] at hcapacity
    refine if_neg fun hfull => ?_
    have := hfull.2
    omega
  · have hsound := resolveLinkState_sound (prospectiveWith entry' request.observation) entry'.record
    have hmem := effectiveTrigger_mem hsound.2 (show TransitionTrigger.evidenceResolution ∈
      inboundTriggers .revalidationRequired by decide)
    rw [← hsound.1] at hmem
    refine (prepareCommit_of_mem hlive hmem).resolve_right ?_
    rintro ⟨-, hnone | hnone⟩
    · exact hspent .state (Edit.spent_state.mpr (StrongGeneration.next_eq_none.mp hnone))
    · exact hspent .globalState (Edit.spent_globalState.mpr (StrongGeneration.next_eq_none.mp hnone))

theorem LinkEntry.joined_concat (entry : LinkEntry) (done : List PublishEvidenceRequest)
    (request : PublishEvidenceRequest) :
    entry.joined (done ++ [request]) = entry.joined done ++ [request.observation] := by
  unfold LinkEntry.joined
  rw [List.map_append, List.append_assoc]
  rfl

theorem LinkEntry.joined_subset (entry : LinkEntry) (done : List PublishEvidenceRequest)
    (request : PublishEvidenceRequest) :
    entry.joined done ⊆ entry.joined (done ++ [request]) := by
  rw [entry.joined_concat]
  exact List.subset_append_left _ _

/-- The evidence with another observation, whatever the bookkeeping of its record is. -/
theorem Stacked.perm_concat (h : Stacked impl entry link done impl' entry') {stored : EvidenceRecord}
    (hstored : stored.strip = request.observation.strip) :
    ((entry'.current ++ [stored]).map strip).Perm
      ((entry.joined (done ++ [request])).map strip) := by
  rw [entry.joined_concat, List.map_append, List.map_append, List.map_singleton, List.map_singleton,
    hstored]
  exact h.current.append_right _

/-- A publication resolves the joined evidence as the link was at the start. -/
theorem Stacked.resolve (h : Stacked impl entry link done impl' entry')
    (hentry : impl.entryOf link = some entry) (hjoins : Joins entry'.current request.observation) :
    resolveLinkState (prospectiveWith entry' request.observation) entry'.record =
      resolveLinkState (entry.joined (done ++ [request])) entry.record := by
  have hbinding : entry'.record.binding = entry.record.binding :=
    congrArg Prod.snd (h.shape_eq hentry)
  unfold prospectiveWith
  rw [hjoins.filter_eq, resolveLinkState_eq_of_perm (h.perm_concat rfl) ?_ entry'.record]
  · refine resolveLinkState_decided h.adminIntent (congrArg (·.symmetry) hbinding) ?_
    exact h.established.imp id (Or.imp id fun ⟨x, hx, hdecisive⟩ =>
      ⟨x, entry.joined_subset done request hx, hdecisive⟩)
  · rw [List.map_append, List.nodup_append]
    refine ⟨(h.reachable.indexed.slotted _ entry' h.bound).nodup, by simp, fun a ha b hb => ?_⟩
    obtain ⟨x, hx, rfl⟩ := List.mem_map.mp ha
    obtain rfl : b = request.observation.key := by simpa using hb
    exact hjoins.key x hx

/-- What established a state is still decisive among the joined evidence. -/
theorem Stacked.established_concat (h : Stacked impl entry link done impl' entry')
    (hjoins : Joins entry'.current request.observation) {prepared : PreparedCommit} {t' : Edit}
    {stored : EvidenceRecord} (hpublished : Published impl' request entry' prepared t' stored) :
    t'.entry.record.everEstablished = entry.record.everEstablished ∨
    entry.record.adminIntent ≠ none ∨ ∃ x ∈ entry.joined (done ++ [request]), x.Decisive := by
  have hsame (heq : t'.entry.record.everEstablished = entry'.record.everEstablished) :
      t'.entry.record.everEstablished = entry.record.everEstablished ∨
      entry.record.adminIntent ≠ none ∨ ∃ x ∈ entry.joined (done ++ [request]), x.Decisive := by
    rw [heq]
    exact h.established.imp id (Or.imp id fun ⟨x, hx, hdecisive⟩ =>
      ⟨x, entry.joined_subset done request hx, hdecisive⟩)
  cases hchanged : prepared.stateChanged with
  | false => exact hsame (hpublished.unchanged hchanged).1
  | true =>
    have hever := (hpublished.changed hchanged).1
    have htarget : prepared.targetState = (resolveLinkState
        (prospectiveWith entry' request.observation) entry'.record).state := by
      rw [hpublished.admitted.prepared_eq, prepareCommit_target]
    -- A link is established by the first state that is neither unknown nor waiting.
    by_cases hopen : prepared.targetState = .unknown ∨ prepared.targetState = .revalidationRequired
    · refine hsame (hever.trans ?_)
      rcases hopen with hopen | hopen <;> simp [hopen]
    · rw [htarget] at hopen
      obtain ⟨hu, hr⟩ := not_or.mp hopen
      refine .inr ((decisive_of_established hu hr).imp (h.adminIntent ▸ id) ?_)
      rintro ⟨x, hx, hdecisive⟩
      unfold prospectiveWith at hx
      rw [hjoins.filter_eq] at hx
      have hperm : ((entry'.current ++ [request.observation]).map strip).Perm
        ((entry.joined (done ++ [request])).map strip) := h.perm_concat rfl
      obtain ⟨y, hy, hstrip⟩ := List.mem_map.mp (hperm.mem_iff.mp (List.mem_map_of_mem hx))
      exact ⟨y, hy, EvidenceRecord.decisive_strip.mp
        (hstrip ▸ EvidenceRecord.decisive_strip.mpr hdecisive)⟩

/-- The step: the next publication commits. -/
theorem Stacked.publish (h : Stacked impl entry link done impl' entry') (hstart : impl.Reachable)
    (hentry : impl.entryOf link = some entry)
    (hind : impl.Independent link (done ++ request :: rest))
    (hroom : impl.HasRoom link (done ++ request :: rest).length) :
    impl'.Commits request ∧
      ∃ entry'', Stacked impl entry link (done ++ [request]) (impl'.publishes request) entry'' := by
  have hmem : request ∈ done ++ request :: rest := List.mem_append_right _ List.mem_cons_self
  have hadmitted := h.admitted hstart hentry hind hroom
  have hspent := h.not_spent hentry hroom
  have hjoins := h.joins (hind.joins hentry)
  obtain ⟨hcommits, t', stored, hpublished⟩ := hadmitted.commits (hspent _) (hspent _)
  have himpl : impl'.publishes request = t'.commit link := by
    unfold Impl.publishes
    rw [hpublished.impl_eq, hind.links request hmem]
  have hsteps : Steps (· = .publish) impl' (impl'.publishes request) :=
    publishEvidence_steps impl' (by exact rfl) request
  have hstored : stored.strip = request.observation.strip := by
    obtain ⟨e, rfl⟩ := hpublished.stored_eq
    unfold EvidenceRecord.strip Edit.storedRecord
    rw [hind.status request hmem]
  have hlength : (done ++ [request]).length = done.length + 1 := by simp
  -- A publication moves each counter once at most.
  have hcounts (c : Counter) :
      Edit.count ⟨t'.commit link, t'.entry⟩ c ≤ Edit.count ⟨impl', entry'⟩ c + 1 := by
    cases hchanged : (prepareCommit impl' entry' (prospectiveWith entry' request.observation)
        .evidenceResolution).stateChanged with
    | false =>
      obtain ⟨-, hstate, hglobalState⟩ := hpublished.unchanged hchanged
      cases c with
      | global => exact hpublished.global.le
      | evidence => exact hpublished.evidence.le
      | state => exact (congrArg (·.value) hstate).le.trans (Nat.le_succ _)
      | globalState => exact (congrArg (·.value) hglobalState).le.trans (Nat.le_succ _)
    | true =>
      obtain ⟨-, hstate, hglobalState⟩ := hpublished.changed hchanged
      cases c with
      | global => exact hpublished.global.le
      | evidence => exact hpublished.evidence.le
      | state => exact (StrongGeneration.next_eq_some hstate).le
      | globalState => exact (StrongGeneration.next_eq_some hglobalState).le
  refine ⟨hcommits, t'.entry, ?_⟩
  exact {
    reachable := by exact .step (.publishEvidence request) h.reachable trivial
    bound := by
      rw [himpl]
      exact (commit_entryOf ..).trans (if_pos rfl)
    authority := h.authority.trans (hsteps.sameAuthority nofun)
    config := by
      rw [himpl]
      exact hpublished.frame.config.trans h.config
    shape := fun l => (hsteps.shape nofun nofun nofun l).trans (h.shape l)
    others := fun l hl => by
      rw [himpl, commit_entryOf, if_neg hl, hpublished.frame.entryOf]
      exact h.others l hl
    current := by
      rw [hpublished.current, hjoins.filter_eq]
      exact ((sortBy_perm _ _).map _).trans (h.perm_concat hstored)
    adminIntent := hpublished.adminIntent.trans h.adminIntent
    established := h.established_concat hjoins hpublished
    counts := fun c => by
      rw [himpl, hlength, ← Nat.add_assoc]
      exact (hcounts c).trans (Nat.succ_le_succ (h.counts c))
    evidence := by
      rw [hpublished.evidence, h.evidence, hlength, Nat.add_assoc]
    concluded := fun _ => by
      rw [hpublished.conclusion, prepareCommit_resolution, h.resolve hentry hjoins]
      exact ⟨rfl, hpublished.provenance⟩ }

end Join

/-- The run: all publications commit, one after the other. -/
theorem Stacked.publishAll {impl impl' : Impl} {entry entry' : LinkEntry} {link : LinkId}
    {done : List PublishEvidenceRequest} (rest : List PublishEvidenceRequest)
    (h : Stacked impl entry link done impl' entry') (hstart : impl.Reachable)
    (hentry : impl.entryOf link = some entry) (hind : impl.Independent link (done ++ rest))
    (hroom : impl.HasRoom link (done ++ rest).length) :
    Runs.Admissible Impl.publishes Impl.Commits impl' rest ∧
      ∃ entry'', Stacked impl entry link (done ++ rest) (rest.foldl Impl.publishes impl') entry'' := by
  induction rest generalizing done impl' entry' with
  | nil => exact ⟨trivial, entry', by rwa [List.append_nil]⟩
  | cons request rest ih =>
    obtain ⟨hcommits, entry'', hnext⟩ := h.publish hstart hentry hind hroom
    have hsplit : done ++ request :: rest = (done ++ [request]) ++ rest :=
      (List.append_cons done request rest)
    rw [hsplit] at hind hroom ⊢
    obtain ⟨hrest, hlast⟩ := ih hnext hind hroom
    exact ⟨⟨hcommits, hrest⟩, hlast⟩

/-- The outlook of a link after publications is that of the evidence they add up to. -/
theorem Stacked.outlook_eq {impl impl' impl'' : Impl} {entry entry' entry'' : LinkEntry}
    {link : LinkId} {done done' : List PublishEvidenceRequest}
    (h : Stacked impl entry link done impl' entry')
    (h' : Stacked impl entry link done' impl'' entry'') (hp : done.Perm done')
    (hne : done ≠ []) : impl'.outlook link = impl''.outlook link := by
  have hne' : done' ≠ [] := fun hnil => hne (List.Perm.eq_nil (hnil ▸ hp))
  have hjoined : ((entry.joined done).map strip).Perm ((entry.joined done').map strip) :=
    ((hp.map _).append_left _).map _
  have hsorted := h.reachable.indexed.slotted _ entry' h.bound
  have hsorted' := h'.reachable.indexed.slotted _ entry'' h'.bound
  have hevidence : entry'.current.map strip = entry''.current.map strip :=
    strip_eq_of_perm hsorted.sorted hsorted'.sorted (h.current.trans (hjoined.trans h'.current.symm))
  have hkeys : ((entry.joined done).map (·.key)).Nodup := nodup_keys_of_perm h.current.symm hsorted.nodup
  obtain ⟨hconclusion, hprovenance⟩ := h.concluded hne
  obtain ⟨hconclusion', hprovenance'⟩ := h'.concluded hne'
  unfold Impl.outlook LinkEntry.outlook
  rw [h.bound, h'.bound, Option.map_some, Option.map_some, hevidence, hconclusion, hconclusion',
    resolveLinkState_eq_of_perm hjoined hkeys, hprovenance, hprovenance',
    ← digestEvidenceSet_strip entry'.current, hevidence, digestEvidenceSet_strip,
    StrongGeneration.ext (h.evidence.trans (hp.length_eq ▸ h'.evidence.symm))]

/-- Independent publications of one link all commit, in every order, and the link ends alike, as
long as the counters have room for them. -/
theorem publications_commute {impl : Impl} (h : impl.Reachable) {link : LinkId}
    {requests order : List PublishEvidenceRequest} (hind : impl.Independent link requests)
    (hroom : impl.HasRoom link requests.length) (hp : order.Perm requests) :
    Runs.Admissible Impl.publishes Impl.Commits impl order ∧
    (order.foldl Impl.publishes impl).outlook link =
      (requests.foldl Impl.publishes impl).outlook link := by
  cases requests with
  | nil =>
    rw [hp.eq_nil]
    exact ⟨trivial, rfl⟩
  | cons request requests =>
    obtain ⟨entry, _, _, _, hpublished⟩ :=
      publishEvidence_published (hind.acceptable request List.mem_cons_self)
    have hentry := hpublished.admitted.bound
    rw [hind.links request List.mem_cons_self] at hentry
    obtain ⟨-, _, hstacked⟩ := (Stacked.start h hentry).publishAll _ h hentry hind hroom
    obtain ⟨hcommits, _, hstacked'⟩ :=
      (Stacked.start h hentry).publishAll _ h hentry (hind.perm hp) (hp.length_eq ▸ hroom)
    exact ⟨hcommits, hstacked'.outlook_eq hstacked hp fun hnil => by
      rw [List.nil_append] at hnil
      rw [hnil] at hp
      cases hp.symm.eq_nil⟩

namespace Sample

/-- An observation of the other direction. -/
def transmit : PublishEvidenceRequest :=
  { observation := { observation with
      key.direction := .transmit
      observation := .fromValidated (lit "obs-2") }
    publication }

theorem independent {impl : Impl} (hcurrent : impl.currentEvidence link = [])
    (hcapacity : 2 ≤ impl.config.maxEvidencePerLink)
    (hacceptable : ∀ r ∈ [publish, transmit], impl.Commits r) :
    impl.Independent link [publish, transmit] where
  links := by decide
  keys := by decide
  fresh _ _ := by
    rw [hcurrent]
    exact List.forall_mem_nil _
  observations := by decide
  status := by decide
  sourceGenerations := by
    rw [hcurrent]
    decide
  expectedEvidence := by decide
  expectedState := by decide
  capacity := by
    rw [hcurrent]
    exact hcapacity
  acceptable := hacceptable

end Sample

/-- A batch that is not too large publishes its observations one after the other. -/
theorem publishEvidenceBatch_eq {impl : Impl} {requests : List PublishEvidenceRequest}
    (hsize : requests.length ≤ impl.config.maxBatchSize) :
    (impl.publishEvidenceBatch requests).1 = requests.foldl Impl.publishes impl := by
  unfold Impl.publishEvidenceBatch Impl.batchOf
  rw [if_neg (not_lt.mpr hsize), @Impl.batch_foldl _ Impl.publishEvidence .publishEvidence fun _ _ => rfl,
    List.foldl_map]
  rfl

/-- The two publications end alike, whichever comes first, and so do batches of them. -/
theorem publications_commute_sample :
    ([Sample.transmit, Sample.publish].foldl Impl.publishes Sample.registered).outlook Sample.link =
      ([Sample.publish, Sample.transmit].foldl Impl.publishes Sample.registered).outlook
        Sample.link ∧
    (Sample.registered.publishEvidenceBatch [Sample.transmit, Sample.publish]).1.outlook
        Sample.link =
      (Sample.registered.publishEvidenceBatch [Sample.publish, Sample.transmit]).1.outlook
        Sample.link := by
  have hsame := (publications_commute Sample.registered_reachable
    (Sample.independent (by decide) (by decide) (by decide)) (by decide) (.swap _ _ [])).2
  rw [publishEvidenceBatch_eq (by decide), publishEvidenceBatch_eq (by decide)]
  exact ⟨hsame, hsame⟩

/-- With one global generation left, each of the two publications commits, but not both. -/
theorem publications_exhaust : Sample.late.Reachable ∧
    Sample.late.Independent Sample.link [Sample.publish, Sample.transmit] ∧
    ¬ Runs.Admissible Impl.publishes Impl.Commits Sample.late [Sample.publish, Sample.transmit] := by
  refine ⟨Sample.late_reachable, ?_, ?_⟩
  · rw [Sample.late_eq]
    exact Sample.independent (by decide) (by decide) (by decide)
  · rw [Sample.late_eq]
    exact fun h => absurd h.2.1 (by decide)

end LinkState
