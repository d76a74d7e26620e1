import LinkStateFabric.Engine.Fencing
import LinkStateFabric.Engine.Publications
import LinkStateFabric.Engine.Restored
import LinkStateFabric.Results.Indexes

/-!
# Requests that end in an error

Most errors come from checks before any change (`Declined`). The rest come from counters: an
operation edits its entry, advances its counters one after the other, and stores what it has when
one of them is exhausted. `Impl.Tears` is when this leaves something changed, and
`error_atomic_iff` says that every other error leaves the engine as it was.
-/

namespace LinkState

open Sorting

/-! ## What a failed request may change -/

/-- An entry without its dispositions. -/
def LinkEntry.undisposed (entry : LinkEntry) : LinkEntry := { entry with dispositions := [] }

/-- A publisher's authority without its tally of rejections. -/
def PublisherAuthority.unrejected (authority : PublisherAuthority) : PublisherAuthority :=
  { authority with rejectedPublications := 0 }

/-- Everything is as before, but for the statistics of rejected publications and the dispositions of
evidence. -/
structure Untouched (impl impl' : Impl) : Prop where
  entries : ∀ link, (impl'.entryOf link).map (·.undisposed) = (impl.entryOf link).map (·.undisposed)
  byState : ∀ state, impl'.store.byState.bucket state = impl.store.byState.bucket state
  byEndpoint : ∀ endpoint, impl'.store.byEndpoint.bucket endpoint =
    impl.store.byEndpoint.bucket endpoint
  dependents : ∀ link, impl'.store.dependents.bucket link = impl.store.dependents.bucket link
  publisherLinks : ∀ publisher, impl'.store.publisherLinks.bucket publisher =
    impl.store.publisherLinks.bucket publisher
  observations : ∀ observation, impl'.store.observations.lookup observation =
    impl.store.observations.lookup observation
  publishers : ∀ publisher, (impl'.store.publishers.lookup publisher).map (·.unrejected) =
    (impl.store.publishers.lookup publisher).map (·.unrejected)
  fencedBoots : ∀ publisher, impl'.fencedBoots publisher = impl.fencedBoots publisher
  fences : impl'.store.fences = impl.store.fences
  globalGeneration : impl'.globalGeneration = impl.globalGeneration
  globalStateGeneration : impl'.globalStateGeneration = impl.globalStateGeneration
  topologyGeneration : impl'.topologyGeneration = impl.topologyGeneration
  epoch : impl'.epoch = impl.epoch
  snapshots : ∀ id, impl'.store.snapshots.lookup id = impl.store.snapshots.lookup id
  snapshotOrder : impl'.store.snapshotOrder = impl.store.snapshotOrder
  snapshotCounter : impl'.snapshotCounter = impl.snapshotCounter
  transitionCounter : impl'.transitionCounter = impl.transitionCounter
  counters : { impl'.counters with rejectedPublications := 0 } =
    { impl.counters with rejectedPublications := 0 }

namespace Untouched

variable {impl impl' : Impl}

/-- The statistics of rejected publications are not looked at. -/
theorem of_tallies {publishers : Finmap fun _ : PublisherId => PublisherAuthority}
    (h : ∀ publisher, (publishers.lookup publisher).map (·.unrejected) =
      (impl.store.publishers.lookup publisher).map (·.unrejected)) (n : U64) :
    Untouched impl { impl with
      store.publishers := publishers
      counters.rejectedPublications := n } :=
  ⟨fun _ => rfl, fun _ => rfl, fun _ => rfl, fun _ => rfl, fun _ => rfl, fun _ => rfl, h,
    fun _ => rfl, rfl, rfl, rfl, rfl, rfl, fun _ => rfl, rfl, rfl, rfl, rfl⟩

theorem refl (impl : Impl) : Untouched impl impl :=
  of_tallies (fun _ => rfl) impl.counters.rejectedPublications

theorem noteRejection (impl : Impl) (publisher : PublisherId) :
    Untouched impl (impl.noteRejection publisher) := by
  unfold Impl.noteRejection
  dsimp only
  split
  · exact of_tallies (fun _ => rfl) _
  rename_i authority hauthority
  refine of_tallies (fun p => ?_) _
  by_cases hp : p = publisher
  · subst hp
    rw [Finmap.lookup_insert, hauthority]
    rfl
  · rw [Finmap.lookup_insert_of_ne _ hp]

theorem currentEvidence (h : Untouched impl impl') (link : LinkId) :
    impl'.currentEvidence link = impl.currentEvidence link := by
  have hcurrent (impl : Impl) : impl.currentEvidence link =
      ((impl.entryOf link).map (·.undisposed)).elim [] (·.current) := by
    unfold Impl.currentEvidence
    cases impl.entryOf link <;> rfl
  rw [hcurrent, hcurrent, h.entries]

/-- The record, and the evidence, of a link are as before. -/
theorem entry_eq (h : Untouched impl impl') {link : LinkId} {entry entry' : LinkEntry}
    (hentry : impl.entryOf link = some entry) (hentry' : impl'.entryOf link = some entry') :
    entry'.record = entry.record ∧ entry'.current = entry.current := by
  have hsame := h.entries link
  rw [hentry, hentry', Option.map_some, Option.map_some, Option.some.injEq] at hsame
  exact ⟨congrArg (·.record) hsame, congrArg (·.current) hsame⟩

end Untouched

/-- An error leaves everything as before. -/
def Atomic (impl : Impl) (p : Impl × LinkMutationResult) : Prop :=
  p.2.outcome.code.accepts = false → Untouched impl p.1

theorem Declined.atomic {impl : Impl} {p : Impl × LinkMutationResult} (h : Declined impl p) :
    Atomic impl p := fun _ => by
  rcases h.impl with heq | ⟨publisher, heq⟩
  · rw [heq]
    exact .refl impl
  · rw [heq]
    exact .noteRejection impl publisher

theorem Atomic.of_accepts {impl : Impl} {p : Impl × LinkMutationResult}
    (h : p.2.outcome.code.accepts = true) : Atomic impl p := fun hrefused => by
  rw [h] at hrefused
  cases hrefused

/-! ## Edits that halt -/

section Halt

variable {impl : Impl} {entry : LinkEntry} {link : LinkId} {t u : Edit}

/-- Where nothing is explained away, nothing is dropped. -/
theorem dropEvidence_of_none {explain : Explanation}
    (h : ∀ record ∈ t.entry.current, explain record = none) : t.dropEvidence explain = t := by
  have hfold (l : List EvidenceRecord) (hl : ∀ record ∈ l, explain record = none) :
      l.foldl (Edit.dropRecord explain) t = t := by
    induction l with
    | nil => rfl
    | cons record l ih =>
      rw [List.foldl_cons, Edit.dropRecord, hl record List.mem_cons_self]
      exact ih fun r hr => hl r (List.mem_cons_of_mem _ hr)
  unfold Edit.dropEvidence
  rw [hfold _ h, List.filter_eq_self.mpr fun record hrecord => by rw [h record hrecord]; rfl]

theorem spent_congr {w : Edit} (h : t.SameCounts w) {c : Counter} : w.Spent c ↔ t.Spent c := by
  unfold Edit.Spent
  rw [h c]

/-- Where counting halts and nothing has changed, the first counter is exhausted, and what was made
of the entry before is what it was. -/
theorem halted_untouched {w : Edit} {c : Counter} {cs : List Counter}
    (hentry : impl.entryOf link = some entry) (hcounts : Edit.SameCounts ⟨impl, entry⟩ w)
    (h : w.advanceAll (c :: cs) = (u, false)) (huntouched : Untouched impl (u.commit link)) :
    Edit.Spent ⟨impl, entry⟩ c ∧ w.entry.record = entry.record ∧
      w.entry.current = entry.current := by
  obtain ⟨hrecord, hcurrent⟩ :=
    huntouched.entry_eq hentry ((commit_entryOf ..).trans (if_pos rfl) : _ = some u.entry)
  rcases Edit.advanceAll_halts h with ⟨hspent, rfl⟩ | ⟨-, hlt⟩
  · exact ⟨(spent_congr hcounts).mp hspent, hrecord, hcurrent⟩
  · rw [hcounts c] at hlt
    refine absurd hlt (Eq.not_gt ?_)
    cases c with
    | global => exact congrArg (·.value) huntouched.globalGeneration
    | evidence => exact congrArg (·.evidenceGeneration.value) hrecord
    | state => exact congrArg (·.stateGeneration.value) hrecord
    | globalState => exact congrArg (·.value) huntouched.globalStateGeneration

/-- Counters of which none is exhausted do not halt. -/
theorem not_halted {w : Edit} {cs : List Counter} (hcounts : t.SameCounts w) (hnodup : cs.Nodup)
    (h : ∀ c ∈ cs, ¬ t.Spent c) : w.advanceAll cs ≠ (u, false) := fun hc => by
  have hall := (Edit.advanceAll_snd hnodup).mpr fun c hmem => mt (spent_congr hcounts).mp (h c hmem)
  rw [hc] at hall
  cases hall

/-- Nothing has been dropped from the evidence that is as before. -/
theorem explain_eq_none {explain : Explanation}
    (h : (t.dropEvidence explain).entry.current = t.entry.current) :
    ∀ record ∈ t.entry.current, explain record = none := fun record hrecord => by
  rw [Edit.dropEvidence_current, List.filter_eq_self] at h
  exact Option.isNone_iff_eq_none.mp (h record hrecord)

end Halt

/-! ## Evidence -/

section Evidence

variable {impl : Impl} {entry : LinkEntry} {prepared : PreparedCommit}

/-- A publication with an exhausted counter tears the link apart, unless it finds the global
generation exhausted and has nothing to take the place of. -/
theorem publish_atomic_iff {request : PublishEvidenceRequest}
    (h : Admitted impl request entry prepared) :
    Atomic impl (Edit.publish ⟨impl, entry⟩ request prepared) ↔
      ¬ if Edit.Spent ⟨impl, entry⟩ .global then
          ∃ record ∈ entry.current, supersedes request.observation record = true
        else Edit.Spent ⟨impl, entry⟩ .evidence := by
  have hexplain (record : EvidenceRecord) : explainPublication request.observation record = none ↔
      ¬ supersedes request.observation record = true := by
    rw [← Option.isNone_iff_eq_none, explainPublication_isNone, Bool.not_eq_true',
      Bool.not_eq_true]
  have hcounts := sameCounts_drop ⟨impl, entry⟩ (explainPublication request.observation)
  unfold Edit.publish
  dsimp only
  split
  -- A counter is exhausted: what has been edited is what was dropped, and the first counter.
  · rename_i u hc
    constructor
    · intro hatomic htears
      obtain ⟨hspent, -, hcurrent⟩ := halted_untouched h.bound hcounts hc (hatomic rfl)
      rw [if_pos hspent] at htears
      obtain ⟨record, hrecord, hsupersedes⟩ := htears
      exact (hexplain record).mp (explain_eq_none hcurrent record hrecord) hsupersedes
    · intro hno _
      by_cases hglobal : Edit.Spent ⟨impl, entry⟩ .global
      · rw [if_pos hglobal] at hno
        have hnone : ∀ record ∈ entry.current,
            explainPublication request.observation record = none :=
          fun record hrecord => (hexplain record).mpr fun hsupersedes =>
            hno ⟨record, hrecord, hsupersedes⟩
        rw [dropEvidence_of_none hnone, Edit.advanceAll, Edit.advance_eq_none.mpr hglobal] at hc
        cases hc
        rw [Edit.commit, Impl.putEntry_self h.bound]
        exact .refl impl
      · rw [if_neg hglobal] at hno
        exact absurd hc (not_halted hcounts (by decide) (by simp [hglobal, hno]))
  · rename_i u hc
    have hspent (c : Counter) (hmem : c ∈ [Counter.global, .evidence]) :=
      mt (spent_congr hcounts).mpr (Edit.not_spent_of_advanceAll hc hmem)
    -- Both counters have moved, so that the publication was accepted.
    rw [if_neg (hspent .global (by decide))]
    refine iff_of_true (Atomic.of_accepts ?_) (hspent .evidence (by decide))
    unfold publicationResult
    split <;> rfl

/-- A request that takes evidence off a link tears it apart when one of its counters is exhausted.
-/
theorem removal_atomic_iff {explain : Explanation} {w : Edit} {link : LinkId}
    {p : Impl × LinkMutationResult} {record : EvidenceRecord}
    (hentry : impl.entryOf link = some entry) (hcounts : Edit.SameCounts ⟨impl, entry⟩ w)
    (hcurrent : w.entry.current = (Edit.dropEvidence ⟨impl, entry⟩ explain).entry.current)
    (hrecord : record ∈ entry.current) (hexplain : explain record ≠ none)
    (hhalts : ∀ u, w.advanceAll [.global, .evidence] = (u, false) →
      p.1 = u.commit link ∧ p.2.outcome.code.accepts = false)
    (hends : ∀ u, w.advanceAll [.global, .evidence] = (u, true) → p.2.outcome.code.accepts = true) :
    Atomic impl p ↔
      ¬ (Edit.Spent ⟨impl, entry⟩ .global ∨ Edit.Spent ⟨impl, entry⟩ .evidence) := by
  rcases hc : w.advanceAll [.global, .evidence] with ⟨u, b⟩
  cases b with
  | false =>
    obtain ⟨himpl, hcode⟩ := hhalts u hc
    refine iff_of_false (fun hatomic => ?_) fun hno => ?_
    · have huntouched := hatomic hcode
      rw [himpl] at huntouched
      obtain ⟨-, -, hsame⟩ := halted_untouched hentry hcounts hc huntouched
      exact hexplain (explain_eq_none (hcurrent.symm.trans hsame) record hrecord)
    · obtain ⟨hglobal, hevidence⟩ := not_or.mp hno
      exact not_halted hcounts (by decide) (by simp [hglobal, hevidence]) hc
  | true =>
    refine iff_of_true (Atomic.of_accepts (hends u hc)) (not_or.mpr ⟨?_, ?_⟩)
    · exact mt (spent_congr hcounts).mpr (Edit.not_spent_of_advanceAll hc (by decide))
    · exact mt (spent_congr hcounts).mpr (Edit.not_spent_of_advanceAll hc (by decide))

theorem withdraw_atomic_iff {request : WithdrawEvidenceRequest} {slot : EvidenceRecord}
    (h : Withdrawable impl request entry slot prepared) :
    Atomic impl (Edit.withdraw ⟨impl, entry⟩ request prepared) ↔
      ¬ (Edit.Spent ⟨impl, entry⟩ .global ∨ Edit.Spent ⟨impl, entry⟩ .evidence) := by
  have hkey : slot.key = request.key := by simpa using List.find?_some h.found
  refine removal_atomic_iff h.bound (sameCounts_drop ⟨impl, entry⟩ (explainWithdrawal request)) rfl
    (List.mem_of_find?_eq_some h.found) ?_ (fun u hc => ?_) fun u hc => ?_
  · unfold explainWithdrawal
    rw [if_pos hkey]
    nofun
  · unfold Edit.withdraw
    dsimp only
    rw [hc]
    exact ⟨rfl, rfl⟩
  · unfold Edit.withdraw
    dsimp only
    rw [hc]
    rfl

theorem markRevalidation_atomic_iff {request : MarkRevalidationRequest}
    (h : Revalidatable impl request entry prepared) :
    Atomic impl (Edit.markRevalidation ⟨impl, entry⟩ request prepared) ↔
      ¬ (Edit.Spent ⟨impl, entry⟩ .global ∨ Edit.Spent ⟨impl, entry⟩ .evidence) := by
  obtain ⟨record, hrecord, hpublisher⟩ := List.any_eq_true.mp h.holds
  have hcounts := sameCounts_revalidation ⟨impl, entry⟩ request
  refine removal_atomic_iff h.bound hcounts (congrArg (·.current) (releaseLink_entry ..)) hrecord ?_
    (fun u hc => ?_) fun u hc => ?_
  · unfold explainRevalidation
    rw [if_pos (of_decide_eq_true hpublisher)]
    nofun
  · unfold Edit.markRevalidation
    dsimp only
    rw [hc]
    exact ⟨rfl, rfl⟩
  · unfold Edit.markRevalidation
    dsimp only
    rw [hc]
    rfl

end Evidence

/-! ## Intents and retirements -/

section Intents

variable {impl : Impl} {entry : LinkEntry} {prepared : PreparedCommit}

/-- The counters of a link do not depend on its intent. -/
theorem sameCounts_lift (impl : Impl) (entry : LinkEntry) :
    Edit.SameCounts ⟨impl, entry⟩ ⟨impl, { entry with record.adminIntent := none }⟩ := by
  intro c
  cases c <;> rfl

/-- An intent that is to be lifted is gone before the counter is asked. -/
theorem lift_atomic_iff {request : TransitionStateRequest} {detail : Text}
    (h : Liftable impl request entry prepared) :
    Atomic impl ((Edit.mk impl { entry with record.adminIntent := none }).changeIntent none request
      prepared detail) ↔ ¬ Edit.Spent ⟨impl, entry⟩ .global := by
  have hcounts := sameCounts_lift impl entry
  unfold Edit.changeIntent
  split
  · rename_i u hc
    refine iff_of_false (fun hatomic => ?_) fun hglobal => ?_
    · obtain ⟨-, hrecord, -⟩ := halted_untouched h.bound hcounts hc (hatomic rfl)
      exact h.intent (congrArg (·.adminIntent) hrecord).symm
    · exact not_halted hcounts (by decide) (by simp [hglobal]) hc
  · rename_i u hc
    exact iff_of_true (Atomic.of_accepts rfl)
      (mt (spent_congr hcounts).mpr (Edit.not_spent_of_advanceAll hc (by decide)))

/-- An intent that is to be imposed is recorded after the counter has advanced. -/
theorem impose_atomic {request : TransitionStateRequest} {intent : Option AdministrativeIntent}
    {detail : Text} (hentry : impl.entryOf request.link = some entry) :
    Atomic impl ((Edit.mk impl entry).changeIntent intent request prepared detail) := by
  unfold Edit.changeIntent
  split
  · rename_i u hc
    intro _
    rcases Edit.advanceAll_halts hc with ⟨-, rfl⟩ | ⟨hspent, -⟩
    · rw [Edit.commit, Impl.putEntry_self hentry]
      exact .refl impl
    · exact absurd hc (not_halted (fun _ => rfl) (by decide) (by simp [hspent]))
  · exact Atomic.of_accepts rfl

/-- A retirement with an exhausted counter tears the link apart, unless it is the evidence
generation and there is no evidence. -/
theorem retire_atomic_iff {request : RetireLinkRequest} (h : Retirable impl request entry) :
    Atomic impl (Edit.retire ⟨impl, entry⟩ request) ↔
      ¬ if Edit.Spent ⟨impl, entry⟩ .evidence then entry.current ≠ []
        else Edit.Spent ⟨impl, entry⟩ .global ∨ Edit.Spent ⟨impl, entry⟩ .state ∨
          Edit.Spent ⟨impl, entry⟩ .globalState := by
  have hcounts := sameCounts_drop ⟨impl, entry⟩ explainRetirement
  unfold Edit.retire
  split
  · rename_i u hc
    constructor
    · intro hatomic htears
      obtain ⟨hspent, -, hcurrent⟩ := halted_untouched h.bound hcounts hc (hatomic rfl)
      rw [if_pos hspent] at htears
      obtain ⟨record, hrecord⟩ := List.exists_mem_of_ne_nil _ htears
      cases explain_eq_none hcurrent record hrecord
    · intro hno _
      -- The evidence counter comes first; where it is spent only the dropped evidence can be torn.
      by_cases hevidence : Edit.Spent ⟨impl, entry⟩ .evidence
      · rw [if_pos hevidence, not_not] at hno
        have hnone : ∀ record ∈ entry.current, explainRetirement record = none := by
          rw [hno]
          exact List.forall_mem_nil _
        rw [dropEvidence_of_none hnone, Edit.advanceAll, Edit.advance_eq_none.mpr hevidence] at hc
        cases hc
        rw [Edit.commit, Impl.putEntry_self h.bound]
        exact .refl impl
      · rw [if_neg hevidence, not_or, not_or] at hno
        exact absurd hc (not_halted hcounts (by decide) (by simp [hevidence, hno]))
  · rename_i u hc
    have hspent (c : Counter) (hmem : c ∈ [Counter.evidence, .global, .state, .globalState]) :=
      mt (spent_congr hcounts).mpr (Edit.not_spent_of_advanceAll hc hmem)
    rw [if_neg (hspent .evidence (by decide))]
    refine iff_of_true (Atomic.of_accepts rfl) ?_
    exact not_or.mpr ⟨hspent .global (by decide), not_or.mpr
      ⟨hspent .state (by decide), hspent .globalState (by decide)⟩⟩

end Intents

/-! ## Rebindings -/

/-- A rebinding cannot go through: its counters are exhausted, or those of the change of state that
is left by the evidence of the new structure. -/
def Edit.StopsRebinding (t : Edit) (binding : TopologyBinding) : Prop :=
  t.Spent .evidence ∨ t.Spent .global ∨
    (resolveLinkState (t.entry.current.filter (describesBinding binding ·))
      { t.entry.record with binding }).state ≠ t.entry.record.state ∧
    (t.Spent .state ∨ t.Spent .globalState)

section Rebinding

variable {impl : Impl} {entry : LinkEntry} {binding : TopologyBinding}

/-- The edit of a rebinding before it counts. -/
theorem rebind_eq (impl : Impl) (entry : LinkEntry) (binding : TopologyBinding) :
    ∃ store dispositions,
      (Edit.dropEvidence ⟨impl, entry⟩ (explainRebinding binding)).rebind binding =
        ⟨{ impl with store }, { entry with
          record := { entry.record with binding }
          current := entry.current.filter (describesBinding binding ·)
          dispositions }⟩ := by
  obtain ⟨_, dispositions, heq, -⟩ :=
    Edit.dropEvidence_eq ⟨impl, entry⟩ (explainRebinding binding)
  have hfilter : entry.current.filter (fun r => (explainRebinding binding r).isNone) =
      entry.current.filter (describesBinding binding ·) := by
    refine List.filter_congr fun r _ => ?_
    unfold explainRebinding
    split
    · rename_i hdescribes
      exact hdescribes.symm
    · rename_i hdescribes
      exact (Bool.eq_false_iff.mpr hdescribes).symm
  rw [heq]
  exact ⟨_, dispositions, by rw [← hfilter]; rfl⟩

theorem sameCounts_rebind (impl : Impl) (entry : LinkEntry) (binding : TopologyBinding) :
    Edit.SameCounts ⟨impl, entry⟩
      ((Edit.dropEvidence ⟨impl, entry⟩ (explainRebinding binding)).rebind binding) := by
  obtain ⟨_, _, heq⟩ := rebind_eq impl entry binding
  rw [heq]
  exact fun c => by cases c <;> rfl

/-- A rebinding that cannot go through leaves the new binding behind. -/
theorem rebinding_atomic_iff {link : LinkId} (h : Rebindable impl link entry binding)
    (reason : Text) : Atomic impl (Edit.applyRebinding ⟨impl, entry⟩ link binding reason) ↔
      ¬ Edit.StopsRebinding ⟨impl, entry⟩ binding := by
  -- An edit that has taken the new binding has changed the link.
  have hbound {t : Edit} (hbinding : t.entry.record.binding = binding) :
      ¬ Untouched impl (t.commit link) := fun huntouched => by
    obtain ⟨hrecord, -⟩ :=
      huntouched.entry_eq h.bound ((commit_entryOf ..).trans (if_pos rfl) : _ = some t.entry)
    have hnewer := h.newer
    rw [← hbinding, hrecord] at hnewer
    exact lt_irrefl _ hnewer
  obtain ⟨store, dispositions, hrebind⟩ := rebind_eq impl entry binding
  have hcounts := sameCounts_rebind impl entry binding
  unfold Edit.applyRebinding
  dsimp only
  rcases hc : ((Edit.dropEvidence ⟨impl, entry⟩ (explainRebinding binding)).rebind
    binding).advanceAll [.evidence, .global] with ⟨u, b⟩
  obtain ⟨g, gs, e, s, hu⟩ := Edit.advanceAll_withCounters [.evidence, .global]
    ((Edit.dropEvidence ⟨impl, entry⟩ (explainRebinding binding)).rebind binding)
  rw [hc] at hu
  dsimp only at hu
  cases b with
  | false =>
    refine iff_of_false (fun hatomic => ?_) fun hno => ?_
    · exact hbound (by rw [hu, hrebind]; rfl) (hatomic rfl)
    · obtain ⟨hevidence, hno⟩ := not_or.mp hno
      exact not_halted hcounts (by decide) (by simp [hevidence, (not_or.mp hno).1]) hc
  | true =>
    have hspent (c : Counter) (hmem : c ∈ [Counter.evidence, .global]) :=
      mt (spent_congr hcounts).mpr (Edit.not_spent_of_advanceAll hc hmem)
    have hcount (c : Counter) (hmem : c ∉ [Counter.evidence, .global]) :
        u.Spent c ↔ Edit.Spent ⟨impl, entry⟩ c := by
      unfold Edit.Spent
      rw [Edit.advanceAll_count hc, List.count_eq_zero_of_not_mem hmem, hcounts c, Nat.add_zero]
    obtain ⟨tg, -, hraise⟩ := u.stampGlobal.raiseTopology_eq
    rw [hrebind] at hu
    dsimp only
    generalize hw : u.stampGlobal.raiseTopology = w
    have hbinding : w.entry.record.binding = binding := by rw [← hw, hraise, hu]; rfl
    have hstate : w.entry.record.state = entry.record.state := by rw [← hw, hraise, hu]; rfl
    have hresolve : resolveLinkState w.entry.current w.entry.record =
        resolveLinkState (entry.current.filter (describesBinding binding ·))
          { entry.record with binding } := by
      rw [← hw, hraise, hu]
      exact resolveLinkState_congr _ rfl rfl rfl
    have hcount (c : Counter) (hmem : c ∉ [Counter.evidence, .global]) :
        w.Spent c ↔ Edit.Spent ⟨impl, entry⟩ c := by
      have hsame : w.count c = u.count c := by
        rw [← hw, hraise]
        cases c <;> rfl
      unfold Edit.Spent
      rw [hsame, Edit.advanceAll_count hc, List.count_eq_zero_of_not_mem hmem, hcounts c,
        Nat.add_zero]
    have hok := @Edit.recompute_ok_iff w .topologyInvalidation (hstate ▸ h.live) (by decide)
    rw [hresolve, hstate, hcount .state (by decide), hcount .globalState (by decide)] at hok
    -- Two counters have moved, and what is left to stop the rebinding is its commit.
    have hstops : Edit.StopsRebinding ⟨impl, entry⟩ binding ↔
        ¬ (prepareCommit w.impl w.entry w.entry.current .topologyInvalidation).ok = true := by
      rw [hok, not_not]
      unfold Edit.StopsRebinding
      rw [or_iff_right (hspent .evidence (by decide)), or_iff_right (hspent .global (by decide))]
    rw [hstops, not_not]
    by_cases hprepared :
        (prepareCommit w.impl w.entry w.entry.current .topologyInvalidation).ok = true
    · refine iff_of_true ?_ hprepared
      rw [Edit.recomputeLink, if_pos hprepared]
      exact Atomic.of_accepts rfl
    · refine iff_of_false (fun hatomic => hbound hbinding ?_) hprepared
      have hcode := prepareCommit_declines (Bool.eq_false_iff.mpr hprepared)
      rw [Edit.recomputeLink, if_neg hprepared] at hatomic
      generalize (prepareCommit w.impl w.entry w.entry.current .topologyInvalidation).code = code
        at hatomic hcode
      cases code <;> first | exact hatomic rfl | cases hcode

end Rebinding

/-! ## Fences -/

/-- A fence changes nothing: the boot is remembered already, the publisher has the status, the
fences on record stay the same, and no link is filed under the publisher. -/
structure FenceKept (impl : Impl) (fence : PublisherFence) (status : AuthorityStatus) : Prop where
  boot : fence.workerBoot.valid = true → rememberBoot impl.config.fenceRetentionPerPublisher
    (impl.fencedBoots fence.publisher) fence.workerBoot = impl.fencedBoots fence.publisher
  status : ∀ authority, impl.store.publishers.lookup fence.publisher = some authority →
    authority.status = status
  fences : (impl.recordFence fence).store.fences = impl.store.fences
  links : impl.store.publisherLinks.bucket fence.publisher = ∅

section Fences

variable {impl : Impl} {publisher : PublisherId} {boot : WorkerBootId} {status : AuthorityStatus}
  {reason : Text}

theorem noteFence_fences : (impl.noteFence publisher boot status reason).store.fences =
    (impl.recordFence
      { publisher, workerBoot := boot, epoch := impl.epoch, reason }).store.fences := by
  unfold Impl.noteFence Impl.setAuthorityStatus
  dsimp only
  split <;> split <;> rfl

theorem FenceKept.noteFence
    (h : FenceKept impl { publisher, workerBoot := boot, epoch := impl.epoch, reason } status) :
    Untouched impl (impl.noteFence publisher boot status reason) ∧
      (impl.noteFence publisher boot status reason).store.publisherLinks =
        impl.store.publisherLinks := by
  have hfences : (impl.noteFence publisher boot status reason).store.fences = impl.store.fences :=
    noteFence_fences.trans h.fences
  have hstanding (p : PublisherId) : (impl.noteFence publisher boot status reason).fencedBoots p =
      impl.fencedBoots p := by
    have hs := congrArg Standing.fenced (standing_noteFence impl publisher p boot status reason)
    refine hs.trans ?_
    split
    · rename_i hp
      subst hp
      show (if boot.valid then _ else _) = _
      split
      · exact h.boot ‹_›
      · rfl
    · rfl
  -- The status is set to the one that the authority has.
  have hlookup (p : PublisherId) :
      ((impl.noteFence publisher boot status reason).store.publishers.lookup p) =
        impl.store.publishers.lookup p := by
    have hset (impl' : Impl) (hsame : impl'.store.publishers = impl.store.publishers) :
        (impl'.setAuthorityStatus publisher status).store.publishers.lookup p =
          impl.store.publishers.lookup p := by
      unfold Impl.setAuthorityStatus
      rw [hsame]
      split
      · rw [hsame]
      · rename_i authority hauthority
        show (impl'.store.publishers.insert publisher _).lookup p = _
        by_cases hp : p = publisher
        · subst hp
          rw [Finmap.lookup_insert, hauthority, ← h.status authority hauthority]
        · rw [Finmap.lookup_insert_of_ne _ hp, hsame]
    unfold Impl.noteFence
    dsimp only
    split
    · exact hset _ rfl
    · exact hset _ rfl
  have hrest : (impl.noteFence publisher boot status reason) =
      { impl with
        store.publishers := (impl.noteFence publisher boot status reason).store.publishers
        store.fencedBoots := (impl.noteFence publisher boot status reason).store.fencedBoots
        store.fences := (impl.noteFence publisher boot status reason).store.fences } := by
    unfold Impl.noteFence Impl.setAuthorityStatus
    dsimp only
    split <;> split <;> rfl
  generalize impl.noteFence publisher boot status reason = impl' at *
  rw [hrest]
  exact ⟨⟨fun _ => rfl, fun _ => rfl, fun _ => rfl, fun _ => rfl, fun _ => rfl, fun _ => rfl,
    fun p => congrArg _ (hlookup p), hstanding, hfences, rfl, rfl, rfl, rfl, fun _ => rfl, rfl, rfl,
    rfl, rfl⟩, rfl⟩

/-- A fence leaves everything as before only if there is nothing to it. -/
theorem fencePublisher_untouched_iff (hindexed : Indexed impl) :
    Untouched impl (impl.fencePublisher publisher boot true status reason) ↔
      FenceKept impl { publisher, workerBoot := boot, epoch := impl.epoch, reason } status := by
  constructor
  · intro h
    have hstanding := standing_fencePublisher impl publisher publisher boot true status reason
    rw [if_pos rfl] at hstanding
    refine ⟨fun hvalid => ?_, fun authority hauthority => ?_, ?_, ?_⟩
    · have hfenced := congrArg Standing.fenced hstanding
      rw [Standing.fence, if_pos hvalid] at hfenced
      exact hfenced.symm.trans (h.fencedBoots publisher)
    · have hcore := congrArg Standing.authority hstanding
      have hsame := h.publishers publisher
      rw [hauthority] at hsame
      obtain ⟨authority', hauthority', heq⟩ := Option.map_eq_some_iff.mp hsame
      rw [Impl.standing_authority hauthority', Standing.fence, Impl.standing_authority hauthority,
        Option.map_some, Option.some.injEq] at hcore
      have hstatus := congrArg (·.status) hcore
      exact (congrArg (·.status) heq).symm.trans hstatus
    · rw [← noteFence_fences, ← (fencePublisher_sameAuthority ..).fences]
      exact h.fences
    -- A link that is still listed would hold evidence of the publisher, which the fence has purged.
    · rw [← h.publisherLinks publisher, Finset.eq_empty_iff_forall_notMem]
      intro link hlink
      have hholds := (Index.mem_restrict.mp hlink).2 rfl
      obtain ⟨entry, hentry, hany⟩ := (Option.any_eq_true _ _).mp hholds
      obtain ⟨record, hrecord, hpublisher⟩ := List.any_eq_true.mp hany
      have hkept : record ∈
          (impl.fencePublisher publisher boot true status reason).currentEvidence link :=
        Impl.mem_currentEvidence.mpr ⟨entry, hentry, hrecord⟩
      exact (fencePublisher_currentEvidence hindexed hkept).2 (of_decide_eq_true hpublisher)
  · intro h
    obtain ⟨hnote, hlinks⟩ := h.noteFence
    have hnone : impl.store.publisherLinks.bucket publisher = ∅ := h.links
    -- No link is listed, so that the purge goes through none.
    have hpurge : (impl.noteFence publisher boot status reason).purgePublisher publisher boot true
        reason = impl.noteFence publisher boot status reason := by
      have hlisting : listing (∅ : Finset LinkId) = [] :=
        List.eq_nil_of_length_eq_zero (length_listing _)
      unfold Impl.purgePublisher
      rw [hlinks, hnone, hlisting, List.foldl_nil]
    unfold Impl.fencePublisher
    dsimp only
    rw [hpurge]
    refine { hnote with publisherLinks := fun p => ?_ }
    rw [← hnote.publisherLinks p]
    ext link
    refine Index.mem_restrict.trans ⟨And.left, fun hlink => ⟨hlink, ?_⟩⟩
    rintro rfl
    rw [hlinks, hnone] at hlink
    exact absurd hlink (Finset.notMem_empty _)

/-- The registration of another boot fences the old one first, and then finds the generation of the
publisher exhausted. -/
theorem supersedeBoot_atomic_iff (hindexed : Indexed impl) (registration : PublisherRegistration)
    (authority : PublisherAuthority) :
    Atomic impl (impl.supersedeBoot registration authority) ↔
      (authority.generation.next = none → FenceKept impl
        { publisher := registration.publisher, workerBoot := authority.workerBoot
          epoch := impl.epoch
          reason := lit "superseded by worker boot " ++ registration.workerBoot.value }
        .superseded) := by
  unfold Impl.supersedeBoot
  dsimp only
  split
  · rename_i hnone
    rw [hnone, imp_iff_right rfl, ← fencePublisher_untouched_iff hindexed]
    exact ⟨fun h => h rfl, fun h _ => h⟩
  · rename_i hsome
    rw [hsome]
    exact iff_of_true (Atomic.of_accepts rfl) nofun

end Fences

/-! ## Errors of any operation -/

/-- An operation that passes its checks finds a counter exhausted when it has already changed
something. -/
def Impl.Tears (impl : Impl) : Op → Prop
  | .publishEvidence request => ∃ entry prepared, Admitted impl request entry prepared ∧
      if Edit.Spent ⟨impl, entry⟩ .global then
        ∃ record ∈ entry.current, supersedes request.observation record = true
      else Edit.Spent ⟨impl, entry⟩ .evidence
  | .withdrawEvidence request => ∃ entry slot prepared,
      Withdrawable impl request entry slot prepared ∧
      (Edit.Spent ⟨impl, entry⟩ .global ∨ Edit.Spent ⟨impl, entry⟩ .evidence)
  | .markRevalidationRequired request => ∃ entry prepared,
      Revalidatable impl request entry prepared ∧
      (Edit.Spent ⟨impl, entry⟩ .global ∨ Edit.Spent ⟨impl, entry⟩ .evidence)
  | .transitionState request => ∃ entry prepared, Liftable impl request entry prepared ∧
      Edit.Spent ⟨impl, entry⟩ .global
  | .retireLink request => ∃ entry, Retirable impl request entry ∧
      if Edit.Spent ⟨impl, entry⟩ .evidence then entry.current ≠ []
      else Edit.Spent ⟨impl, entry⟩ .global ∨ Edit.Spent ⟨impl, entry⟩ .state ∨
        Edit.Spent ⟨impl, entry⟩ .globalState
  | .bindLink request => ∃ entry, validBinding request.binding.normalize = none ∧
      Rebindable impl request.binding.normalize.link entry request.binding.normalize ∧
      Edit.StopsRebinding ⟨impl, entry⟩ request.binding.normalize
  | .supersedeTopology request => ∃ entry binding, request.link.valid = true ∧
      supersedingBinding request entry.record.binding = .ok binding ∧
      Rebindable impl request.link entry binding ∧ Edit.StopsRebinding ⟨impl, entry⟩ binding
  | .registerPublisher request => ∃ scope authority,
      request.registration.scope.normalize = some scope ∧
      Supersedes impl { request.registration with scope } authority ∧
      authority.generation.next = none ∧ ¬ FenceKept impl
        { publisher := request.registration.publisher, workerBoot := authority.workerBoot
          epoch := impl.epoch
          reason := lit "superseded by worker boot " ++ request.registration.workerBoot.value }
        .superseded
  | _ => False

section Operations

variable {impl : Impl}

theorem publishEvidence_atomic_iff (request : PublishEvidenceRequest) :
    Atomic impl (impl.publishEvidence request) ↔ ¬ impl.Tears (.publishEvidence request) := by
  constructor
  · rintro hatomic ⟨entry, prepared, hadmitted, htears⟩
    rw [hadmitted.publish_eq] at hatomic
    exact (publish_atomic_iff hadmitted).mp hatomic htears
  · intro hno
    rcases publishEvidence_outcome impl request with
      hdeclined | ⟨_, -, -, hcode⟩ | ⟨entry, prepared, hadmitted, heq⟩
    · exact hdeclined.atomic
    · exact .of_accepts (by rw [hcode]; rfl)
    · rw [heq]
      exact (publish_atomic_iff hadmitted).mpr fun htears =>
        hno ⟨entry, prepared, hadmitted, htears⟩

theorem withdrawEvidence_atomic_iff (request : WithdrawEvidenceRequest) :
    Atomic impl (impl.withdrawEvidence request) ↔ ¬ impl.Tears (.withdrawEvidence request) := by
  constructor
  · rintro hatomic ⟨entry, slot, prepared, hpassed, hspent⟩
    rw [hpassed.withdraw_eq] at hatomic
    exact (withdraw_atomic_iff hpassed).mp hatomic hspent
  · intro hno
    rcases withdrawEvidence_outcome impl request with
      hdeclined | ⟨entry, slot, prepared, hpassed, heq⟩
    · exact hdeclined.atomic
    · rw [heq]
      exact (withdraw_atomic_iff hpassed).mpr fun hspent =>
        hno ⟨entry, slot, prepared, hpassed, hspent⟩

theorem markRevalidationRequired_atomic_iff (request : MarkRevalidationRequest) :
    Atomic impl (impl.markRevalidationRequired request) ↔
      ¬ impl.Tears (.markRevalidationRequired request) := by
  constructor
  · rintro hatomic ⟨entry, prepared, hpassed, hspent⟩
    rw [hpassed.mark_eq] at hatomic
    exact (markRevalidation_atomic_iff hpassed).mp hatomic hspent
  · intro hno
    rcases markRevalidationRequired_outcome impl request with
      hdeclined | ⟨entry, prepared, hpassed, heq⟩
    · exact hdeclined.atomic
    · rw [heq]
      exact (markRevalidation_atomic_iff hpassed).mpr fun hspent =>
        hno ⟨entry, prepared, hpassed, hspent⟩

theorem transitionState_atomic_iff (request : TransitionStateRequest) :
    Atomic impl (impl.transitionState request) ↔ ¬ impl.Tears (.transitionState request) := by
  constructor
  · rintro hatomic ⟨entry, prepared, hpassed, hspent⟩
    rw [hpassed.transition_eq] at hatomic
    exact (lift_atomic_iff hpassed).mp hatomic hspent
  · intro hno
    rcases transitionState_outcome impl request with
      hdeclined | ⟨entry, prepared, hpassed, heq⟩ | ⟨entry, prepared, hpassed, heq⟩
    · exact hdeclined.atomic
    · rw [heq]
      exact (lift_atomic_iff hpassed).mpr fun hspent => hno ⟨entry, prepared, hpassed, hspent⟩
    · rw [heq]
      exact impose_atomic hpassed.bound

theorem retireLink_atomic_iff (request : RetireLinkRequest) :
    Atomic impl (impl.retireLink request) ↔ ¬ impl.Tears (.retireLink request) := by
  constructor
  · rintro hatomic ⟨entry, hpassed, htears⟩
    rw [hpassed.retire_eq] at hatomic
    exact (retire_atomic_iff hpassed).mp hatomic htears
  · intro hno
    rcases retireLink_outcome impl request with hdeclined | ⟨-, hcode⟩ | ⟨entry, hpassed, heq⟩
    · exact hdeclined.atomic
    · exact .of_accepts (by rw [hcode]; rfl)
    · rw [heq]
      exact (retire_atomic_iff hpassed).mpr fun htears => hno ⟨entry, hpassed, htears⟩

theorem bindLink_atomic_iff (request : BindLinkRequest) :
    Atomic impl (impl.bindLink request) ↔ ¬ impl.Tears (.bindLink request) := by
  constructor
  · rintro hatomic ⟨entry, hvalid, hpassed, hstops⟩
    rw [hpassed.bind_eq hvalid] at hatomic
    exact (rebinding_atomic_iff hpassed _).mp hatomic hstops
  · intro hno
    rcases bindLink_outcome impl request with
      hdeclined | ⟨-, hcode⟩ | ⟨hbindable, heq⟩ | ⟨entry, hvalid, hpassed, heq⟩
    · exact hdeclined.atomic
    · exact .of_accepts (by rw [hcode]; rfl)
    · rw [heq]
      exact .of_accepts (by rw [hbindable.bindNew_code]; rfl)
    · rw [heq]
      exact (rebinding_atomic_iff hpassed _).mpr fun hstops => hno ⟨entry, hvalid, hpassed, hstops⟩

theorem supersedeTopology_atomic_iff (request : SupersedeTopologyRequest) :
    Atomic impl (impl.supersedeTopology request) ↔ ¬ impl.Tears (.supersedeTopology request) := by
  constructor
  · rintro hatomic ⟨entry, binding, hlink, hbinding, hpassed, hstops⟩
    rw [hpassed.supersede_eq hlink hbinding] at hatomic
    exact (rebinding_atomic_iff hpassed _).mp hatomic hstops
  · intro hno
    rcases supersedeTopology_outcome impl request with
      hdeclined | ⟨entry, binding, hlink, hbinding, hpassed, heq⟩
    · exact hdeclined.atomic
    · rw [heq]
      exact (rebinding_atomic_iff hpassed _).mpr fun hstops =>
        hno ⟨entry, binding, hlink, hbinding, hpassed, hstops⟩

theorem registerPublisher_atomic_iff (hindexed : Indexed impl)
    (request : RegisterPublisherRequest) :
    Atomic impl (impl.registerPublisher request) ↔ ¬ impl.Tears (.registerPublisher request) := by
  constructor
  · rintro hatomic ⟨scope, authority, hscope, hpassed, hnone, hkept⟩
    rw [hpassed.register_eq hscope] at hatomic
    exact hkept ((supersedeBoot_atomic_iff hindexed { request.registration with scope } _).mp
      hatomic hnone)
  · intro hno
    rcases registerPublisher_outcome impl request with
      hdeclined | ⟨_, -, hcode⟩ | ⟨scope, authority, hscope, hpassed, heq⟩
    · exact hdeclined.atomic
    · exact .of_accepts (by rw [hcode]; rfl)
    · rw [heq]
      exact (supersedeBoot_atomic_iff hindexed { request.registration with scope } _).mpr
        fun hnone => not_not.mp fun hkept =>
          hno ⟨scope, authority, hscope, hpassed, hnone, hkept⟩

end Operations

/-- An operation whose error leaves everything as it was. -/
def Impl.FailsClean (impl : Impl) (op : Op) : Prop :=
  ∀ outcome ∈ impl.outcome op, outcome.code.accepts = false → Untouched impl (impl.apply op)

theorem failsClean_iff {impl : Impl} {op : Op} {p : Impl × LinkMutationResult}
    (houtcome : impl.outcome op = some p.2.outcome) (happly : impl.apply op = p.1) :
    impl.FailsClean op ↔ Atomic impl p := by
  unfold Impl.FailsClean Atomic
  rw [houtcome, happly]
  exact ⟨fun hclean => hclean _ rfl, fun hp _ ho => Option.some.inj ho ▸ hp⟩

/-- An error leaves everything as it was, except when a counter is found exhausted halfway. -/
theorem error_atomic_iff {impl : Impl} (h : impl.Reachable) (op : Op) :
    impl.FailsClean op ↔ ¬ impl.Tears op := by
  cases op with
  | publishEvidence request =>
    exact (failsClean_iff rfl rfl).trans (publishEvidence_atomic_iff request)
  | withdrawEvidence request =>
    exact (failsClean_iff rfl rfl).trans (withdrawEvidence_atomic_iff request)
  | markRevalidationRequired request =>
    exact (failsClean_iff rfl rfl).trans (markRevalidationRequired_atomic_iff request)
  | transitionState request =>
    exact (failsClean_iff rfl rfl).trans (transitionState_atomic_iff request)
  | retireLink request => exact (failsClean_iff rfl rfl).trans (retireLink_atomic_iff request)
  | bindLink request => exact (failsClean_iff rfl rfl).trans (bindLink_atomic_iff request)
  | supersedeTopology request =>
    exact (failsClean_iff rfl rfl).trans (supersedeTopology_atomic_iff request)
  | registerPublisher request =>
    exact (failsClean_iff rfl rfl).trans (registerPublisher_atomic_iff h.indexed request)
  -- What follows never fails once it has changed anything.
  | invalidatePublisher request =>
    refine iff_of_true ((failsClean_iff rfl rfl).mpr ?_) id
    rcases invalidatePublisher_outcome impl request with hdeclined | ⟨-, hcode⟩ | ⟨_, -, -, hcode⟩
    · exact hdeclined.atomic
    all_goals exact .of_accepts (by rw [hcode]; rfl)
  | advanceCoordinatorEpoch request =>
    refine iff_of_true ((failsClean_iff rfl rfl).mpr ?_) id
    rcases advanceCoordinatorEpoch_outcome impl request with
      hdeclined | ⟨-, hcode⟩ | ⟨-, -, hcode⟩
    · exact hdeclined.atomic
    all_goals exact .of_accepts (by rw [hcode]; rfl)
  | reconcile =>
    refine iff_of_true (fun outcome houtcome hrefused => ?_) id
    cases Option.some.inj houtcome
    cases hrefused
  | snapshot request => exact iff_of_true (fun _ houtcome => by cases houtcome) id
  | load config steps file =>
    refine iff_of_true (fun outcome houtcome hrefused => ?_) id
    obtain rfl := Option.some.inj houtcome
    rcases load_cases impl config steps file with ⟨refusal, -, heq⟩ | ⟨_, _, _, -, -, -, hcode, -⟩
    · show Untouched impl (impl.load config steps file).1
      rw [heq]
      exact .refl impl
    · rw [hcode] at hrefused
      cases hrefused

/-- A publication of an older generation of its source is turned away, and all is as it was. -/
theorem error_atomic_sample :
    let stale : PublishEvidenceRequest :=
      { Sample.publish with observation := { Sample.observation with
          observation := .fromValidated (lit "obs-2"), sourceGeneration := .zero } }
    (Sample.engine.publishEvidence stale).2.outcome.code = .staleEvidence ∧
      Untouched Sample.engine (Sample.engine.apply (.publishEvidence stale)) := by
  intro stale
  have hspent : ∀ entry ∈ Sample.engine.entryOf Sample.link,
      ¬ Edit.Spent ⟨Sample.engine, entry⟩ .global ∧
        ¬ Edit.Spent ⟨Sample.engine, entry⟩ .evidence := by decide
  have hno : ¬ Sample.engine.Tears (.publishEvidence stale) := by
    rintro ⟨entry, prepared, hadmitted, htears⟩
    obtain ⟨hglobal, hevidence⟩ := hspent entry hadmitted.bound
    rw [if_neg hglobal] at htears
    exact hevidence htears
  have hcode : (Sample.engine.publishEvidence stale).2.outcome.code = .staleEvidence := by decide
  exact ⟨hcode, (error_atomic_iff Sample.reachable _).mpr hno _ rfl (by rw [hcode]; rfl)⟩

/-- With the global generation exhausted, a withdrawal is answered by RESOURCE_LIMIT, and the
evidence is gone. -/
theorem error_tears :
    Sample.worn.Reachable ∧
    (Sample.worn.withdrawEvidence Sample.withdrawal).2.outcome.code = .resourceLimit ∧
    Sample.worn.currentEvidence Sample.link ≠ [] ∧
    (Sample.worn.withdrawEvidence Sample.withdrawal).1.currentEvidence Sample.link = [] ∧
    ¬ Sample.worn.FailsClean (.withdrawEvidence Sample.withdrawal) := by
  have hcode :
      (Sample.worn.withdrawEvidence Sample.withdrawal).2.outcome.code = .resourceLimit := by
    rw [Sample.worn_eq]
    decide
  have hbefore : Sample.worn.currentEvidence Sample.link ≠ [] := by
    rw [Sample.worn_eq]
    decide
  have hafter :
      (Sample.worn.withdrawEvidence Sample.withdrawal).1.currentEvidence Sample.link = [] := by
    rw [Sample.worn_eq]
    decide
  have hclean (impl : Impl) (request : WithdrawEvidenceRequest)
      (h : impl.FailsClean (.withdrawEvidence request)) :
      Atomic impl (impl.withdrawEvidence request) :=
    (failsClean_iff rfl rfl).mp h
  refine ⟨Sample.worn_reachable, hcode, hbefore, hafter, fun h => hbefore ?_⟩
  have huntouched := hclean _ _ h (by rw [hcode]; rfl)
  rw [← huntouched.currentEvidence]
  exact hafter

end LinkState
