import LinkStateFabric.Engine.Moves

/-!
# Records say what their evidence resolves to

* `LinkEntry.Coherent`: the record of a live link has the conclusion of resolving its current
  evidence, and the digest of that evidence. A resolution reads the record that it is written to,
  so this is a fixed point (`commitPrepared_coherent`).
* Every turn of a live link restores it (`Turn.coherent`), and so does every operation
  (`Impl.Settled.apply`). A recomputation is never refused by the state machine
  (`recomputeLink_ne_invalidTransition`).
* `reconcile_restamps`: resolving coherent links again changes the stamps of their records only.
-/

namespace LinkState

open Sorting

/-! ## Settled engines -/

/-- Every live entry is coherent. -/
def Impl.AllCoherent (impl : Impl) : Prop :=
  ∀ link entry, impl.entryOf link = some entry → entry.record.state ≠ .retired → entry.Coherent

/-- Every live entry is coherent, if no counter is exhausted. -/
def Impl.Settled (impl : Impl) : Prop := impl.Unsaturated → impl.AllCoherent

/-- A turn of a link that stays live leaves it coherent. -/
theorem Turn.coherent {op : Op} {link : LinkId} {t t' : Edit} (h : Turn op link t t')
    (hop : op.Ordinary) (hnodup : op.Single → (t.entry.current.map (·.key)).Nodup)
    (hlive : t.entry.record.state ≠ .retired) (hu : (t'.commit link).Unsaturated)
    (hlive' : t'.entry.record.state ≠ .retired) : t'.entry.Coherent := by
  cases h with
  | halt h => exact absurd hu (h.exhausted.resolve_left hlive)
  | stall _ h => exact absurd hu h.not_unsaturated
  | retire _ h => exact absurd h.state hlive'
  | resolve _ prepared publication publisher _ records hfits htarget hresolution hrecords =>
    exact commitPrepared_coherent hfits htarget (hresolution.trans (hrecords hop hnodup)) publication
      publisher

/-! ## Reconciling -/

/-- A record without the stamps that every commit leaves on it. -/
def LinkStateRecord.lasting (record : LinkStateRecord) : LinkStateRecord :=
  { record with
    lastPublication := .null, lastTransition := .null, lastPublisher := .null
    lastOutcome := .noChange }

def LinkEntry.lasting (entry : LinkEntry) : LinkEntry :=
  { entry with record := entry.record.lasting }

theorem LinkEntry.Coherent.of_lasting {entry entry' : LinkEntry} (h : entry.Coherent)
    (hl : entry'.lasting = entry.lasting) : entry'.Coherent := by
  have hrecord {α : Type} (f : LinkStateRecord → α) :
      f entry'.lasting.record = f entry.lasting.record := by rw [hl]
  have hcurrent : entry'.current = entry.current := congrArg (·.current) hl
  have hconclusion : entry'.conclusion = entry.conclusion := congrArg (·.conclusion) hl
  refine ⟨?_, ?_⟩
  · rw [hconclusion, h.conclusion, hcurrent]
    exact congrArg _ (resolveLinkState_congr _ (hrecord (·.adminIntent))
      (hrecord (·.everEstablished)) (hrecord (·.binding.symmetry))).symm
  · rw [hcurrent]
    exact (hrecord (·.provenanceDigest)).trans h.provenance

/-- Resolving a coherent live link again changes nothing that lasts. -/
theorem recomputeLink_still {t : Edit} (hc : t.entry.Coherent)
    (hlive : t.entry.record.state ≠ .retired) (trigger : TransitionTrigger)
    (publication : PublicationId) (publisher : PublisherId) :
    (t.recomputeLink trigger publication publisher).1.impl = t.impl ∧
    (t.recomputeLink trigger publication publisher).1.entry.lasting = t.entry.lasting := by
  have hconclusion := hc.conclusion
  simp only [LinkEntry.conclusion, Resolution.conclusion, Conclusion.mk.injEq] at hconclusion
  obtain ⟨hstate, hclass, hcause, hconflicted, hsynthetic⟩ := hconclusion
  have hprepared : prepareCommit t.impl t.entry t.entry.current trigger =
      { ok := true, code := .committed, detail := []
        resolution := resolveLinkState t.entry.current t.entry.record
        effectiveTrigger := effectiveTrigger
          (resolveLinkState t.entry.current t.entry.record).resultClass trigger
        targetState := (resolveLinkState t.entry.current t.entry.record).state
        stateChanged := false } := by
    unfold prepareCommit
    dsimp only
    rw [if_neg hlive, ← hstate, evaluateTransition, if_pos rfl]
  unfold Edit.recomputeLink
  rw [hprepared]
  dsimp only
  rw [if_pos rfl, Edit.commitPrepared_same rfl]
  refine ⟨rfl, ?_⟩
  unfold LinkEntry.lasting LinkStateRecord.lasting Edit.finishCommit Edit.stampTransition Edit.applyResolution
  dsimp only
  rw [← hstate, ← hclass, ← hcause, ← hconflicted, ← hsynthetic, ← hc.provenance]

/-- The engines differ at most in the stamps of their records. -/
structure Impl.Restamps (impl impl' : Impl) : Prop where
  keys : impl'.store.links.keys = impl.store.links.keys
  entries : ∀ link,
    (impl'.entryOf link).map LinkEntry.lasting = (impl.entryOf link).map LinkEntry.lasting

theorem Impl.Restamps.allCoherent {impl impl' : Impl} (h : impl.Restamps impl')
    (hc : impl.AllCoherent) : impl'.AllCoherent := by
  intro link entry' hentry' hlive
  have hentries := h.entries link
  rw [hentry', Option.map_some] at hentries
  obtain ⟨entry, hentry, hl⟩ := Option.map_eq_some_iff.mp hentries.symm
  have hstate : entry.record.state = entry'.record.state := congrArg (·.record.state) hl
  exact (hc link entry hentry (hstate ▸ hlive)).of_lasting hl.symm

theorem reconcileLink_restamps {impl : Impl} (hc : impl.AllCoherent) (changed : Nat)
    (link : LinkId) : impl.Restamps (Impl.reconcileLink (impl, changed) link).1 := by
  -- A commit over the entry itself, with everything that lasts left in place.
  have hcommit {t : Edit} {entry : LinkEntry} (hentry : impl.entryOf link = some entry)
      (himpl : t.impl = impl) (hl : t.entry.lasting = entry.lasting) :
      impl.Restamps (t.commit link) := by
    refine ⟨?_, fun l => ?_⟩
    · ext l
      have hmem : link ∈ impl.store.links := Finmap.mem_of_lookup_eq_some hentry
      rw [← himpl] at hmem ⊢
      simp only [Edit.commit, Impl.putEntry, Finmap.mem_keys, Finmap.mem_insert, or_iff_right_iff_imp]
      rintro rfl
      exact hmem
    · rw [commit_entryOf, himpl]
      split
      · subst_vars
        rw [hentry, Option.map_some, Option.map_some, hl]
      · rfl
  unfold Impl.reconcileLink
  split
  · exact ⟨rfl, fun _ => rfl⟩
  rename_i entry hentry
  split
  · exact ⟨rfl, fun _ => rfl⟩
  rename_i hlive
  obtain ⟨himpl, hl⟩ := @recomputeLink_still ⟨impl, entry⟩ (hc link entry hentry hlive) hlive
    .evidenceResolution
    (.fromValidated (publicationIdFor (lit "reconcile") impl.globalGeneration.value)) .null
  dsimp only
  split <;>
  · rename_i hr
    rw [hr] at himpl hl
    exact hcommit hentry himpl hl

/-- Reconciling coherent links changes no more than the stamps of their records. -/
theorem reconcile_restamps {impl : Impl} (hc : impl.AllCoherent) :
    impl.Restamps impl.reconcile.1 := by
  have hfold (links : List LinkId) (p : Impl × Nat) (h : impl.Restamps p.1) :
      impl.Restamps (links.foldl Impl.reconcileLink p).1 := by
    induction links generalizing p with
    | nil => exact h
    | cons link links ih =>
      have hlink := reconcileLink_restamps (h.allCoherent hc) p.2 link
      exact ih _ ⟨hlink.keys.trans h.keys, fun l => (hlink.entries l).trans (h.entries l)⟩
  exact hfold _ (impl, 0) ⟨rfl, fun _ => rfl⟩

/-- The stamps are not part of the digest of a record. -/
theorem digestRecord_lasting (record : LinkStateRecord) :
    digestRecord record.lasting = digestRecord record := by
  unfold digestRecord LinkStateRecord.lasting
  rfl

theorem digestRecords_lasting (records : List LinkStateRecord) :
    digestRecords (records.map LinkStateRecord.lasting) = digestRecords records := by
  unfold digestRecords
  rw [← map_sortBy LinkStateRecord.lasting (fun _ _ => rfl)]
  simp only [List.foldl_map, List.length_map, digestRecord_lasting]
  rfl

theorem Impl.Restamps.stateDigest {impl impl' : Impl} (h : impl.Restamps impl') :
    impl'.stateDigest = impl.stateDigest := by
  have hrecords (impl : Impl) : impl.stateDigest = digestRecords
      ((listing impl.store.links.keys).filterMap fun link =>
        ((impl.entryOf link).map LinkEntry.lasting).map (·.record)) := by
    unfold Impl.stateDigest
    rw [← digestRecords_lasting, List.map_filterMap]
    simp only [Option.map_map]
    rfl
  rw [hrecords impl', hrecords impl, h.keys]
  simp only [h.entries]

/-! ## Runs -/

theorem Impl.Settled.apply {impl : Impl} {op : Op} (h : impl.Settled) (hindexed : Indexed impl)
    (hsealed : impl.Sealed) (hop : op.Ordinary) : (impl.apply op).Settled := by
  have hload : op.isLoad = false := by
    cases op <;> first | rfl | exact hop.elim
  have hmoves := apply_moves impl hload
  intro hu
  exact hmoves.entries (Q := fun _ entry => entry.record.state ≠ .retired → entry.Coherent)
    (fun _ _ hle hb => hb.of_le hle) hindexed hsealed (fun _ _ hnew _ => hnew.coherent)
    (fun _ _ _ hlive hnodup hend ht _ => ht.coherent hop hnodup hlive hend) hu
    (h (hu.of_le hmoves.le))

/-- The engines that ordinary operations reach. -/
abbrev Impl.OrdinarilyReachable : Impl → Prop := Runs.Run Fresh apply fun _ op => op.Ordinary

theorem Impl.OrdinarilyReachable.settled {impl : Impl} (h : impl.OrdinarilyReachable) :
    impl.Settled := by
  have hreachable : ∀ impl : Impl, impl.OrdinarilyReachable → Indexed impl ∧ impl.Sealed :=
    fun impl h =>
      have h : impl.Reachable := h.mono fun _ _ _ => trivial
      ⟨Impl.Reachable.indexed h, Impl.Reachable.sealed h⟩
  refine h.invariant_of hreachable ?_
    fun _ op hreached hsettled hop => hsettled.apply hreached.1 hreached.2 hop
  rintro _ ⟨config, rfl⟩ - link entry hentry
  rw [Impl.entryOf_create] at hentry
  cases hentry

/-- In every engine that ordinary operations reach without exhausting a counter, the record of
every live link says what its evidence resolves to. No recomputation is refused by the state
machine, and reconciling changes no state. -/
theorem records_coherent {impl : Impl} (h : impl.OrdinarilyReachable) (hu : impl.Unsaturated) :
    (∀ link entry, impl.entryOf link = some entry → entry.record.state ≠ .retired →
      let resolution := resolveLinkState entry.current entry.record
      entry.record.state = resolution.state ∧
      entry.record.resultClass = resolution.resultClass ∧
      entry.record.degradationCause = resolution.cause ∧
      entry.conflicted = resolution.conflicted ∧
      entry.syntheticBacked = resolution.syntheticBacked ∧
      entry.record.state = stateOf entry.record.resultClass ∧
      entry.record.provenanceDigest = digestEvidenceSet entry.current) ∧
    (∀ (t : Edit) (trigger : TransitionTrigger) (publication : PublicationId)
      (publisher : PublisherId),
      trigger ∈ [.evidenceResolution, .topologyInvalidation, .publisherFenced] →
      (t.recomputeLink trigger publication publisher).2.1 ≠ .invalidTransition) ∧
    (∀ link, (impl.reconcile.1.entryOf link).map
        (fun entry => (entry.record.state, entry.record.stateGeneration, digestRecord entry.record)) =
      (impl.entryOf link).map
        (fun entry => (entry.record.state, entry.record.stateGeneration,
          digestRecord entry.record))) ∧
    impl.reconcile.1.stateDigest = impl.stateDigest := by
  have hcoherent := h.settled hu
  have hrestamps := reconcile_restamps hcoherent
  refine ⟨fun link entry hentry hlive => ?_, fun t trigger _ _ ht => ?_, fun link => ?_,
    hrestamps.stateDigest⟩
  · have hc := hcoherent link entry hentry hlive
    have hconclusion := hc.conclusion
    simp only [LinkEntry.conclusion, Resolution.conclusion, Conclusion.mk.injEq] at hconclusion
    obtain ⟨hstate, hclass, hcause, hconflicted, hsynthetic⟩ := hconclusion
    refine ⟨hstate, hclass, hcause, hconflicted, hsynthetic, ?_, hc.provenance⟩
    rw [hstate, hclass]
    exact (resolveLinkState_sound entry.current entry.record).1
  · refine recomputeLink_ne_invalidTransition t ?_ _ _
    revert ht
    cases trigger <;> decide
  -- What is compared is a function of what lasts.
  · have hview (impl : Impl) : (impl.entryOf link).map
        (fun entry => (entry.record.state, entry.record.stateGeneration,
          digestRecord entry.record)) =
        ((impl.entryOf link).map LinkEntry.lasting).map (fun entry =>
          (entry.record.state, entry.record.stateGeneration, digestRecord entry.record)) := by
      rw [Option.map_map]
      refine congrArg (Option.map · _) (funext fun entry => ?_)
      rw [Function.comp, LinkEntry.lasting, digestRecord_lasting]
      rfl
    rw [hview impl.reconcile.1, hview impl, hrestamps.entries]

theorem records_coherent_sample : ∃ entry, Sample.engine.entryOf Sample.link = some entry ∧
    entry.record.state = .up ∧
    entry.record.state = (resolveLinkState entry.current entry.record).state := by
  have hreachable : Sample.engine.OrdinarilyReachable :=
    Runs.Run.foldl (.start ⟨{}, rfl⟩) ⟨trivial, trivial, rfl, trivial⟩
  have hsome : (Sample.engine.entryOf Sample.link).isSome = true := by decide
  obtain ⟨entry, hentry⟩ := Option.isSome_iff_exists.mp hsome
  have hstate : ∀ e ∈ Sample.engine.entryOf Sample.link, e.record.state = .up := by decide
  have hup := hstate entry hentry
  refine ⟨entry, hentry, hup, ?_⟩
  exact ((records_coherent hreachable (by decide)).1 Sample.link entry hentry
    (by rw [hup]; decide)).1

end LinkState
