import LinkStateFabric.Engine.Board
import LinkStateFabric.Engine.Publications
import LinkStateFabric.Results.BlastRadius
import LinkStateFabric.Results.Coherence
import LinkStateFabric.Results.EpochAdvances
import LinkStateFabric.Results.Topology

/-!
# An engine keeps a board

* `apply_board`: an operation that is carried out does to the board of an engine what `Board.apply`
  says, and one that is not leaves the board alone.
* `board_of_log`: so the board is that of the operations that were carried out, in their order.
  Refused and repeated requests, queries and reconciliations leave no trace on it.
* `replicas_agree`: a live link presents what its sheet resolves to. Two engines that carried out
  the same operations present the same links alike, whatever else was asked of them.
-/

namespace LinkState

open Sorting

/-! ## Sheets of edits -/

section Edits

variable {t t' : Edit} {link l : LinkId}

theorem board_commit (t : Edit) (link : LinkId) :
    (t.commit link).board = Function.update t.impl.board link (some t.entry.sheet) := by
  funext l
  unfold Impl.board
  rw [commit_entryOf]
  by_cases hl : l = link
  · subst hl
    rw [if_pos rfl, Function.update_self]
    rfl
  · rw [if_neg hl, Function.update_of_ne hl]

theorem board_of_bound {impl : Impl} {entry : LinkEntry} (h : impl.entryOf link = some entry) :
    impl.board link = some entry.sheet := by
  unfold Impl.board
  rw [h]
  rfl

theorem board_of_unbound {impl : Impl} (h : impl.entryOf link = none) :
    impl.board link = none := by
  unfold Impl.board
  rw [h]
  rfl

theorem board_of_entryOf {impl impl' : Impl} (h : ∀ l, impl'.entryOf l = impl.entryOf l) :
    impl'.board = impl.board := by
  funext l
  unfold Impl.board
  rw [h]

/-- A change of one link changes one sheet. -/
theorem board_edit {impl impl' : Impl} {entry entry' : LinkEntry} {f : Sheet → Sheet}
    (hothers : ∀ l, l ≠ link → impl'.entryOf l = impl.entryOf l)
    (hentry : impl.entryOf link = some entry) (hentry' : impl'.entryOf link = some entry')
    (hf : entry'.sheet = f entry.sheet) : impl'.board = impl.board.edit link f := by
  funext l
  unfold Board.edit Impl.board
  by_cases hl : l = link
  · subst hl
    rw [Function.update_self, hentry, hentry', Option.map_some, hf]
    rfl
  · rw [Function.update_of_ne hl, hothers l hl]

theorem sheet_of_advanceAll {cs : List Counter} {b : Bool} (h : t.advanceAll cs = (t', b)) :
    t'.entry.sheet = t.entry.sheet := by
  obtain ⟨g, gs, e, s, heq⟩ := Edit.advanceAll_withCounters cs t
  rw [h] at heq
  subst heq
  rfl

theorem sheet_commitPrepared {prepared : PreparedCommit} (h : prepared.Fits t)
    (publication : PublicationId) (publisher : PublisherId) :
    (t.commitPrepared prepared publication publisher).entry.sheet = t.entry.sheet := by
  obtain ⟨hframe, hcommits⟩ := Edit.commitPrepared_spec h publication publisher
  unfold LinkEntry.sheet
  rw [hframe.binding, hframe.adminIntent, hframe.current, hcommits.state]
  simp only [h.live, h.target_live]

theorem sheet_recomputeLink (t : Edit) (trigger : TransitionTrigger) (publication : PublicationId)
    (publisher : PublisherId) :
    (t.recomputeLink trigger publication publisher).1.entry.sheet = t.entry.sheet := by
  unfold Edit.recomputeLink
  dsimp only
  split
  · rename_i hok
    exact sheet_commitPrepared (prepareCommit_ok hok).1 publication publisher
  · rfl

theorem sheet_dropEvidence (t : Edit) (explain : Explanation) :
    (t.dropEvidence explain).entry.sheet =
      { t.entry.sheet with evidence := ((t.entry.current.filter fun record =>
        (explain record).isNone).map EvidenceRecord.strip).toFinset } := by
  unfold LinkEntry.sheet
  rw [Edit.dropEvidence_record, Edit.dropEvidence_current]

theorem sheet_enterRetired (t : Edit) (request : RetireLinkRequest) :
    (t.enterRetired request).entry.sheet = { t.entry.sheet with retired := true } := by
  obtain ⟨_, _, -, heq⟩ := t.enterRetired_eq request
  rw [heq]
  rfl

/-- Records that are kept for what the bookkeeping of the engine is no part of. -/
theorem toFinset_filter_strip (records : List EvidenceRecord) {p : EvidenceRecord → Bool}
    (hp : ∀ record, p record.strip = p record) :
    ((records.filter p).map EvidenceRecord.strip).toFinset =
      ((records.map EvidenceRecord.strip).toFinset).filter (p ·) := by
  rw [← filter_strip records p hp, List.toFinset_filter]

theorem sheet_keep {explain : Explanation} {p : EvidenceRecord → Bool}
    (hp : ∀ record, p record.strip = p record) (h : ∀ record, (explain record).isNone = p record) :
    (t.dropEvidence explain).entry.sheet = t.entry.sheet.keep p := by
  rw [sheet_dropEvidence, List.filter_congr fun record _ => h record,
    toFinset_filter_strip _ hp]
  rfl

end Edits

/-! ## Operations on one link -/

/-- The codes of a request that is carried out now. -/
def OutcomeCode.carriesOut (code : OutcomeCode) : Bool :=
  code = .committed || code = .evidenceConflict

/-- The operation is carried out. To reconcile is to work out again what follows from the board. -/
def Impl.carriesOut (impl : Impl) : Op → Bool
  | .reconcile => false
  | op => (impl.outcome op).any (·.code.carriesOut)

/-- A request leaves the board as `board` says if it is carried out, and else as it was. -/
def Impl.Leaves (impl : Impl) (board : Board) (p : Impl × LinkMutationResult) : Prop :=
  p.1.board = if p.2.outcome.code.carriesOut then board else impl.board

section Leaves

variable {impl : Impl} {board : Board} {p : Impl × LinkMutationResult}

theorem Impl.Leaves.same (h : p.1.board = impl.board)
    (hcode : p.2.outcome.code.carriesOut = false) : impl.Leaves board p := by
  unfold Impl.Leaves
  rw [hcode]
  exact h

theorem Impl.Leaves.done (h : p.1.board = board)
    (hcode : p.2.outcome.code.carriesOut = true) : impl.Leaves board p := by
  unfold Impl.Leaves
  rw [hcode]
  exact h

theorem Declined.leaves (h : Declined impl p) : impl.Leaves board p := by
  refine .same (board_of_entryOf h.sameLinks.entryOf) ?_
  have haccepts := h.code
  revert haccepts
  cases p.2.outcome.code <;> decide

end Leaves

section Single

variable {impl : Impl} (hindexed : Indexed impl)

include hindexed

theorem withdrawEvidence_leaves {request : WithdrawEvidenceRequest}
    (hu : (impl.withdrawEvidence request).1.Unsaturated) :
    impl.Leaves (impl.board.apply (.withdrawEvidence request)) (impl.withdrawEvidence request) := by
  rcases withdrawEvidence_outcome impl request with hdeclined |
    ⟨entry, slot, prepared, hpassed, heq⟩
  · exact hdeclined.leaves
  have hothers (l : LinkId) (hl : l ≠ request.key.link) :
      (impl.withdrawEvidence request).1.entryOf l = impl.entryOf l :=
    @apply_entryOf impl hindexed (.withdrawEvidence request) l hl
  rw [heq] at hu hothers ⊢
  unfold Edit.withdraw at hu hothers ⊢
  dsimp only at hu hothers ⊢
  rcases hc : (Edit.dropEvidence ⟨impl, entry⟩ (explainWithdrawal request)).advanceAll
    [.global, .evidence] with ⟨t, b⟩
  rw [hc] at hu hothers
  cases b with
  | false => exact absurd hu (advanceAll_of_unsaturated hc)
  | true =>
    have hfits := (prepareCommit_ok (hpassed.prepared_eq ▸ hpassed.prepared_ok)).1
    rw [← hpassed.prepared_eq] at hfits
    refine .done (board_edit hothers hpassed.bound (by rw [commit_entryOf, if_pos rfl]) ?_) rfl
    dsimp only
    rw [sheet_commitPrepared (@releaseLink_fits _ t.stampGlobal
      (((hfits.dropEvidence _).advanceAll (by decide) (by decide) hc).congr rfl rfl rfl) _ _)]
    rw [releaseLink_entry]
    exact (sheet_of_advanceAll hc).trans
      (sheet_keep (fun _ => rfl) (explainWithdrawal_isNone request))

theorem markRevalidationRequired_leaves {request : MarkRevalidationRequest}
    (hu : (impl.markRevalidationRequired request).1.Unsaturated) :
    impl.Leaves (impl.board.apply (.markRevalidationRequired request))
      (impl.markRevalidationRequired request) := by
  rcases markRevalidationRequired_outcome impl request with hdeclined |
    ⟨entry, prepared, hpassed, heq⟩
  · exact hdeclined.leaves
  have hothers (l : LinkId) (hl : l ≠ request.link) :
      (impl.markRevalidationRequired request).1.entryOf l = impl.entryOf l :=
    @apply_entryOf impl hindexed (.markRevalidationRequired request) l hl
  rw [heq] at hu hothers ⊢
  unfold Edit.markRevalidation at hu hothers ⊢
  rcases hc : ((Edit.dropEvidence ⟨impl, entry⟩ (explainRevalidation request)).releaseLink
    request.publisher request.link).advanceAll [.global, .evidence] with ⟨t, b⟩
  rw [hc] at hu hothers
  cases b with
  | false => exact absurd hu (advanceAll_of_unsaturated hc)
  | true =>
    have hfits := (prepareCommit_ok (hpassed.prepared_eq ▸ hpassed.prepared_ok)).1
    rw [← hpassed.prepared_eq] at hfits
    refine .done (board_edit hothers hpassed.bound (by rw [commit_entryOf, if_pos rfl]) ?_) rfl
    rw [@sheet_commitPrepared t.stampGlobal _ (((releaseLink_fits (hfits.dropEvidence _) _ _).advanceAll
      (by decide) (by decide) hc).congr rfl rfl rfl)]
    refine (sheet_of_advanceAll hc).trans ?_
    rw [releaseLink_entry]
    exact sheet_keep (fun _ => rfl) (explainRevalidation_isNone request)

omit hindexed in
/-- A change of intent that advances its counter. -/
theorem changeIntent_sheet {t : Edit} {intent : Option AdministrativeIntent}
    {request : TransitionStateRequest} {prepared : PreparedCommit} {detail : Text}
    (hfits : prepared.Fits t)
    (hu : (t.changeIntent intent request prepared detail).1.Unsaturated) :
    (t.changeIntent intent request prepared detail).2.outcome.code = .committed ∧
    ∃ u : Edit, (t.changeIntent intent request prepared detail).1 = u.commit request.link ∧
      u.entry.sheet = { t.entry.sheet with
        intent := intent.map fun intent => (intent.state, intent.cause) } := by
  unfold Edit.changeIntent at hu ⊢
  rcases hc : t.advanceAll [.global] with ⟨u, b⟩
  rw [hc] at hu
  cases b with
  | false => exact absurd hu (advanceAll_of_unsaturated hc)
  | true =>
    refine ⟨rfl, _, rfl, ?_⟩
    have hsheet := sheet_commitPrepared (t := { u.stampGlobal with
      entry.record.adminIntent := intent.map fun intent =>
        { intent with generation := u.impl.globalGeneration } })
      ((hfits.advanceAll (by decide) (by decide) hc).congr rfl rfl rfl) request.publication
      request.publisher
    refine hsheet.trans ?_
    rw [← sheet_of_advanceAll hc]
    unfold LinkEntry.sheet
    dsimp only
    rw [Option.map_map]
    rfl

theorem transitionState_leaves {request : TransitionStateRequest}
    (hu : (impl.transitionState request).1.Unsaturated) :
    impl.Leaves (impl.board.apply (.transitionState request)) (impl.transitionState request) := by
  have hothers (l : LinkId) (hl : l ≠ request.link) :
      (impl.transitionState request).1.entryOf l = impl.entryOf l :=
    @apply_entryOf impl hindexed (.transitionState request) l hl
  -- An intent is lifted, or imposed.
  rcases transitionState_outcome impl request with hdeclined | ⟨entry, prepared, hpassed, heq⟩ |
    ⟨entry, prepared, hpassed, heq⟩
  · exact hdeclined.leaves
  · rw [heq] at hu hothers ⊢
    have hfits := (prepareCommit_ok (hpassed.prepared_eq ▸ hpassed.prepared_ok)).1
    rw [← hpassed.prepared_eq] at hfits
    obtain ⟨hcode, t, himpl, hsheet⟩ := changeIntent_sheet hfits hu
    rw [himpl] at hothers
    refine .done ?_ (by rw [hcode]; rfl)
    rw [himpl]
    refine board_edit hothers hpassed.bound (by rw [commit_entryOf, if_pos rfl]) ?_
    rw [hsheet, if_pos hpassed.target]
    rfl
  · rw [heq] at hu hothers ⊢
    have hfits := (prepareCommit_ok (hpassed.prepared_eq ▸ hpassed.prepared_ok)).1
    rw [← hpassed.prepared_eq] at hfits
    obtain ⟨hcode, t, himpl, hsheet⟩ :=
      @changeIntent_sheet ⟨impl, entry⟩ _ _ _ _ (hfits.congr rfl rfl rfl) hu
    rw [himpl] at hothers
    refine .done ?_ (by rw [hcode]; rfl)
    rw [himpl]
    refine board_edit hothers hpassed.bound (by rw [commit_entryOf, if_pos rfl]) ?_
    have htarget : request.target ≠ .up := fun hup => by
      have hrestrictive := hpassed.target
      rw [hup] at hrestrictive
      cases hrestrictive
    rw [hsheet, if_neg htarget]
    rfl

omit hindexed in
theorem publishEvidence_leaves {request : PublishEvidenceRequest}
    (hu : (impl.publishEvidence request).1.Unsaturated) :
    impl.Leaves (impl.board.apply (.publishEvidence request)) (impl.publishEvidence request) := by
  rcases publishEvidence_outcome impl request with hdeclined | ⟨_, -, heq, hcode⟩ |
    ⟨entry, prepared, hadmitted, heq⟩
  · exact hdeclined.leaves
  · exact .same (by rw [heq]) (by rw [hcode]; rfl)
  rcases hc : (Edit.dropEvidence ⟨impl, entry⟩
    (explainPublication request.observation)).advanceAll [.global, .evidence] with ⟨u, b⟩
  cases b with
  -- The counters have room, so that the publication does not stop halfway.
  | false =>
    rw [heq] at hu
    unfold Edit.publish at hu
    dsimp only at hu
    rw [hc] at hu
    exact absurd hu (advanceAll_of_unsaturated hc)
  | true =>
    obtain ⟨⟨t, stored, hpublished⟩, hcode⟩ := published_of_counted hadmitted heq hc
    refine .done ?_ (by rw [hcode]; split <;> rfl)
    refine board_edit (fun l hl => ?_) hadmitted.bound (by
      rw [hpublished.impl_eq, commit_entryOf, if_pos rfl]) ?_
    · rw [hpublished.impl_eq, commit_entryOf, if_neg hl, hpublished.frame.entryOf]
    obtain ⟨e, hstored⟩ := hpublished.stored_eq
    have hlive : t.entry.record.state ≠ .retired := by
      have hstate : t.entry.record.state = prepared.resolution.state :=
        congrArg Conclusion.state hpublished.conclusion
      rw [hstate, hadmitted.prepared_eq, prepareCommit_resolution]
      exact resolveLinkState_ne_retired _ _
    -- The board has a set of records without bookkeeping, whatever their order in the entry.
    have hevidence : (t.entry.current.map EvidenceRecord.strip).toFinset =
        insert { request.observation with status := .current }.strip
          (((entry.current.map EvidenceRecord.strip).toFinset).filter
            (!supersedes request.observation ·)) := by
      rw [hpublished.current, List.toFinset_eq_of_perm _ _ ((sortBy_perm _ _).map _), List.map_append,
        List.toFinset_append, toFinset_filter_strip _ fun _ => rfl, Finset.union_comm, hstored]
      rfl
    unfold LinkEntry.sheet Sheet.observe
    dsimp only
    rw [hpublished.binding, hpublished.adminIntent, hevidence]
    simp only [hlive, hadmitted.live]

end Single

/-! ## References -/

section References

variable {impl : Impl}

theorem holds_board (backing : BackingReference) :
    impl.board.holds backing = true ↔ impl.Pins backing := by
  unfold Board.holds Impl.board Impl.Pins Impl.shape
  rw [Option.any_map]
  cases impl.entryOf backing.link with
  | none => simp
  | some entry =>
    simp only [Option.any_some, LinkEntry.sheet, LinkEntry.shape, Bool.and_eq_true,
      Bool.not_eq_true', Option.map_some, Option.some.injEq, Prod.mk.injEq]
    constructor
    · rintro ⟨hlive, hgeneration⟩
      exact ⟨_, ⟨hlive, rfl⟩, of_decide_eq_true hgeneration⟩
    · rintro ⟨_, ⟨hlive, heq⟩, hgeneration⟩
      exact ⟨hlive, decide_eq_true (heq ▸ hgeneration)⟩

theorem explainStaleDependent_isNone (entry : LinkEntry) (record : EvidenceRecord) :
    (explainStaleDependent impl entry record).isNone =
      (entry.sheet.retired || entry.sheet.binding.backingLinks.all impl.board.holds) := by
  have hholds : (backingStale impl entry.record.binding).isNone =
      entry.record.binding.backingLinks.all impl.board.holds := by
    rw [Bool.eq_iff_iff, Option.isNone_iff_eq_none, backingStale_eq_none, List.all_eq_true]
    exact forall₂_congr fun backing _ => (holds_board backing).symm
  unfold explainStaleDependent LinkEntry.sheet
  dsimp only
  rw [← hholds]
  by_cases hretired : entry.record.state = .retired
  · simp [hretired]
  · simp [hretired]

/-- What is left of a sheet of which everything is explained away, or nothing. -/
theorem sheet_settled {t : Edit} {explain : Explanation} (hexplain : ∀ record,
    (explain record).isNone =
      (t.entry.sheet.retired || t.entry.sheet.binding.backingLinks.all impl.board.holds)) :
    (t.dropEvidence explain).entry.sheet = impl.board.settled t.entry.sheet := by
  rw [sheet_dropEvidence, List.filter_congr fun record _ => hexplain record]
  unfold Board.settled
  split
  · rename_i hkept
    rw [List.filter_eq_self.mpr fun _ _ => hkept]
    rfl
  · rename_i hdropped
    rw [List.filter_eq_nil_iff.mpr fun _ _ => hdropped]
    rfl

/-- The loop over the dependents of a link settles one link after the other. -/
theorem purgeLink_settles (impl : Impl) (link : LinkId) :
    (impl.purgeLink explainStaleDependent .topologyInvalidation (lit "backing") link).board =
      impl.board.settleAt link := by
  cases hentry : impl.entryOf link with
  | none =>
    rw [purgeLink_none hentry]
    unfold Board.settleAt Board.edit
    rw [board_of_unbound hentry]
    exact (Function.update_eq_self_iff.mpr (board_of_unbound hentry).symm).symm
  | some entry =>
    have hothers (l : LinkId) (hl : l ≠ link) := @purgeLink_entryOf impl link l _
      explainStaleDependent_final .topologyInvalidation (lit "backing") fun h => absurd h hl
    have hsettled := @sheet_settled impl ⟨impl, entry⟩ _ (explainStaleDependent_isNone entry)
    have hcommit {t : Edit}
        (heq : impl.purgeLink explainStaleDependent .topologyInvalidation (lit "backing") link =
          t.commit link) (hsheet : t.entry.sheet = impl.board.settled entry.sheet) :
        (impl.purgeLink explainStaleDependent .topologyInvalidation (lit "backing") link).board =
          impl.board.settleAt link :=
      board_edit hothers hentry (by rw [heq, commit_entryOf, if_pos rfl]) hsheet
    unfold Impl.purgeLink at hcommit ⊢
    rw [hentry] at hcommit ⊢
    dsimp only at hcommit ⊢
    split
    -- Everything is explained by the links as they are, so that the purge changes nothing.
    · rename_i hall
      refine (board_edit (fun _ _ => rfl) hentry hentry ?_)
      rw [← hsettled, sheet_dropEvidence, List.filter_eq_self.mpr (List.all_eq_true.mp hall)]
      rfl
    · rename_i hsome
      rw [if_neg hsome] at hcommit
      split
      · rename_i hc
        rw [hc] at hcommit
        exact hcommit rfl ((sheet_of_advanceAll hc).trans hsettled)
      · rename_i t hc
        rw [hc] at hcommit
        refine hcommit rfl ?_
        exact (sheet_recomputeLink ..).trans ((sheet_of_advanceAll hc).trans hsettled)

theorem invalidateStaleDependents_settle (impl : Impl) (link : LinkId) :
    (impl.invalidateStaleDependents link).board.settle = impl.board.settle := by
  have hfold (links : List LinkId) (impl : Impl) : (links.foldl (Impl.purgeLink
      explainStaleDependent .topologyInvalidation (lit "backing")) impl).board =
        links.foldl Board.settleAt impl.board := by
    induction links generalizing impl with
    | nil => rfl
    | cons link links ih => rw [List.foldl_cons, ih, purgeLink_settles, List.foldl_cons]
  unfold Impl.invalidateStaleDependents
  rw [hfold]
  exact Board.settle_foldl ..

/-- Where the references of every link with current evidence hold, there is nothing to settle. -/
theorem Impl.Backed.settle (h : impl.Backed) : impl.board.settle = impl.board := by
  funext link
  unfold Board.settle
  cases hentry : impl.entryOf link with
  | none =>
    rw [board_of_unbound hentry]
    rfl
  | some entry =>
    rw [board_of_bound hentry, Option.map_some]
    refine congrArg some ?_
    unfold Board.settled
    split
    · rfl
    rename_i hstale
    by_cases hcurrent : entry.current = []
    · unfold LinkEntry.sheet
      rw [hcurrent]
      rfl
    · refine absurd (Bool.or_eq_true_iff.mpr (.inr (List.all_eq_true.mpr fun backing hb => ?_))) hstale
      refine (holds_board backing).mpr (h link ?_ entry hentry backing hb)
      rw [Impl.currentEvidence_eq hentry]
      exact hcurrent

end References

/-! ## Operations on topology -/

section Topology

variable {impl : Impl} {link : LinkId} {entry : LinkEntry}
  (hsupported : ∀ link entry, impl.entryOf link = some entry → entry.Supported)

/-- A rebinding that exhausts no counter is committed. -/
theorem applyRebinding_code {binding : TopologyBinding} {reason : Text}
    (hlive : entry.record.state ≠ .retired)
    (hu : (Edit.applyRebinding ⟨impl, entry⟩ link binding reason).1.Unsaturated) :
    (Edit.applyRebinding ⟨impl, entry⟩ link binding reason).2.outcome.code = .committed := by
  unfold Edit.applyRebinding at hu ⊢
  dsimp only at hu ⊢
  split at hu
  · rename_i hc
    exact absurd hu (advanceAll_of_unsaturated hc)
  rename_i t hc
  have hstate : t.stampGlobal.raiseTopology.entry.record.state ≠ .retired := by
    have hsheet := congrArg Sheet.retired (sheet_of_advanceAll hc)
    obtain ⟨_, -, heq⟩ := t.stampGlobal.raiseTopology_eq
    rw [heq]
    intro hretired
    refine hlive ?_
    have hkept : decide (t.entry.record.state = .retired) =
        decide (entry.record.state = .retired) := by
      rw [← Edit.dropEvidence_record ⟨impl, entry⟩ (explainRebinding binding)]
      exact hsheet
    exact of_decide_eq_true (hkept ▸ decide_eq_true hretired)
  split at hu
  · rfl
  · rename_i hne hr
    exact absurd (recomputeLink_committed hr hstate (by decide) hu) hne

include hsupported

theorem applyRebinding_leaves {binding : TopologyBinding} {reason : Text}
    (hentry : impl.entryOf link = some entry) (hb : Rebinds link entry binding)
    (hu : (Edit.applyRebinding ⟨impl, entry⟩ link binding reason).1.Unsaturated)
    (hbacked : (Edit.applyRebinding ⟨impl, entry⟩ link binding reason).1.Backed) :
    impl.Leaves (impl.board.bind link binding)
      (Edit.applyRebinding ⟨impl, entry⟩ link binding reason) := by
  obtain ⟨t, u, publication, changed, hc, hr, heq⟩ := applyRebinding_of_unsaturated hb.live hu
  refine .done ?_ (by rw [applyRebinding_code hb.live hu]; rfl)
  rw [← hbacked.settle, heq, invalidateStaleDependents_settle, board_commit]
  have hsteps : EditSteps (fun _ => True) link t.stampGlobal.raiseTopology _ :=
    recomputeLink_steps t.stampGlobal.raiseTopology .topologyInvalidation publication .null
  rw [hr] at hsteps
  have hedit : EditSteps (fun _ => True) link ⟨impl, entry⟩ u :=
    .head (.rebind _ trivial binding hb) ((advanceAll_steps (by decide) hc).trans
      (.head (.stamp t) (.head (.raise _) hsteps)))
  have hsheet : u.entry.sheet = entry.sheet.rebind binding := by
    have hresolved := sheet_recomputeLink t.stampGlobal.raiseTopology .topologyInvalidation
      publication .null
    have hraised : t.stampGlobal.raiseTopology.entry.sheet = t.entry.sheet := by
      obtain ⟨_, -, hraise⟩ := t.stampGlobal.raiseTopology_eq
      rw [hraise]
      rfl
    rw [hr, hraised, sheet_of_advanceAll hc] at hresolved
    -- Every record was of the old generation, so that nothing is left of the evidence.
    have hempty := (hsupported link entry hentry).rebind_current (t := ⟨impl, entry⟩) hb
    rw [hresolved]
    change { (Edit.dropEvidence ⟨impl, entry⟩ (explainRebinding binding)).entry.sheet with
      binding } = _
    rw [sheet_dropEvidence]
    unfold Sheet.rebind
    rw [Edit.dropEvidence_current] at hempty
    rw [hempty]
    rfl
  unfold Board.bind
  rw [board_of_entryOf hedit.frame.entryOf, hsheet, board_of_bound hentry]
  rfl

variable (hbacked : impl.Backed)

include hbacked

omit hsupported in
theorem bindNew_leaves {binding : TopologyBinding} (h : Bindable impl binding) :
    impl.Leaves (impl.board.bind binding.link binding) (impl.bindNew binding) := by
  refine .done ?_ (by rw [h.bindNew_code]; rfl)
  rw [← (bindNew_backed hbacked h.unbound).settle]
  unfold Board.bind
  rw [board_of_unbound h.unbound]
  refine congrArg Board.settle ?_
  unfold Impl.bindNew
  rw [if_neg (not_le.mpr h.capacity)]
  rcases hc : (Edit.mk impl (newEntry binding)).advanceAll [.global] with ⟨t, b⟩
  cases b with
  | false =>
    rw [Edit.advanceAll] at hc
    split at hc
    · exact absurd ‹_› h.global
    · cases hc
  | true =>
    have hcount := Edit.advanceAll_advances [.global] (by decide) ⟨impl, newEntry binding⟩
    rw [hc] at hcount
    obtain ⟨_, _, _, _, _, -, -, heq⟩ := hcount.bind_eq
    dsimp only
    rw [heq, board_commit]
    rfl

theorem bindLink_leaves (hindexed : Indexed impl) {request : BindLinkRequest}
    (hu : (impl.bindLink request).1.Unsaturated) :
    impl.Leaves (impl.board.apply (.bindLink request)) (impl.bindLink request) := by
  have hbacked' := bindLink_backed hindexed hsupported hbacked hu
  rcases bindLink_outcome impl request with hdeclined | ⟨heq, hcode⟩ | ⟨hbindable, heq⟩ |
    ⟨entry, hvalid, hrebindable, heq⟩
  · exact hdeclined.leaves
  · exact .same (by rw [heq]) (by rw [hcode]; rfl)
  · rw [heq]
    exact bindNew_leaves hbacked hbindable
  · rw [heq] at hu hbacked' ⊢
    exact applyRebinding_leaves hsupported hrebindable.bound ⟨hrebindable.live, hrebindable.link_eq,
      hrebindable.newer, fun _ => wellFormed_of_validBinding hvalid⟩ hu hbacked'

theorem supersedeTopology_leaves (hindexed : Indexed impl) {request : SupersedeTopologyRequest}
    (hu : (impl.supersedeTopology request).1.Unsaturated) :
    impl.Leaves (impl.board.apply (.supersedeTopology request))
      (impl.supersedeTopology request) := by
  have hbacked' := supersedeTopology_backed hindexed hsupported hbacked hu
  rcases supersedeTopology_outcome impl request with hdeclined |
    ⟨entry, binding, -, hbinding, hrebindable, heq⟩
  · exact hdeclined.leaves
  have hspec : impl.board.apply (.supersedeTopology request) =
      impl.board.bind request.link binding := by
    unfold Board.apply
    dsimp only
    rw [board_of_bound hrebindable.bound, Option.map_some,
      show entry.sheet.binding = entry.record.binding from rfl, hbinding]
  have hnewer := hrebindable.newer
  rw [(supersedingBinding_spec hbinding).2] at hnewer
  rw [hspec]
  rw [heq] at hu hbacked' ⊢
  exact applyRebinding_leaves hsupported hrebindable.bound
    (rebinds_of_superseding hrebindable.live hnewer hbinding) hu hbacked'

theorem retireLink_leaves (hindexed : Indexed impl) {request : RetireLinkRequest}
    (hu : (impl.retireLink request).1.Unsaturated) :
    impl.Leaves (impl.board.apply (.retireLink request)) (impl.retireLink request) := by
  have hbacked' := retireLink_backed hindexed hsupported hbacked hu
  rcases retireLink_outcome impl request with hdeclined | ⟨heq, hcode⟩ | ⟨entry, hretirable, heq⟩
  · exact hdeclined.leaves
  · exact .same (by rw [heq]) (by rw [hcode]; rfl)
  rw [heq] at hu hbacked' ⊢
  obtain ⟨t, hc, himpl⟩ := retire_of_unsaturated hu
  refine .done ?_ ?_
  · rw [← hbacked'.settle, himpl, invalidateStaleDependents_settle]
    refine congrArg Board.settle ?_
    obtain ⟨hcount, hpos⟩ := advanceAll_retirement _ hc
    have hsteps : EditSteps (fun _ => True) request.link ⟨impl, entry⟩ _ :=
      .single (.retire trivial request hretirable.live hcount (hpos rfl))
    refine board_edit (fun l hl => hsteps.entryOf_commit hl) hretirable.bound
      (by rw [commit_entryOf, if_pos rfl]) ?_
    rw [sheet_enterRetired]
    change { t.entry.sheet with retired := true } = _
    have hempty : entry.current.filter (fun record => (explainRetirement record).isNone) = [] :=
      List.filter_eq_nil_iff.mpr fun _ _ => Bool.false_ne_true
    rw [sheet_of_advanceAll hc, sheet_dropEvidence, hempty]
    rfl
  · unfold Edit.retire
    rw [hc]
    rfl

end Topology

/-! ## Operations on publishers -/

section Publishers

variable {impl : Impl}

/-- An operation that keeps the structure and the intent of every link, and some of its evidence. -/
theorem board_keep {op : Op} (hload : op.isLoad = false)
    (hintent : ∀ request, op ≠ .transitionState request)
    (hretire : ∀ request, op ≠ .retireLink request)
    (hshape : ∀ l, (impl.apply op).shape l = impl.shape l) {p : EvidenceRecord → Bool}
    (hp : ∀ record, p record.strip = p record)
    (hevidence : ∀ l, (impl.apply op).currentEvidence l = (impl.currentEvidence l).filter p) :
    (impl.apply op).board = impl.board.keep p := by
  funext l
  have hshape := hshape l
  have hevidence := hevidence l
  unfold Board.keep
  cases hentry : impl.entryOf l with
  | none =>
    rw [board_of_unbound hentry]
    refine board_of_unbound ?_
    unfold Impl.shape at hshape
    rw [hentry] at hshape
    exact Option.map_eq_none_iff.mp hshape
  | some entry =>
    have htransitions {link : LinkId} : ¬ op.Transitions link := by
      rintro ⟨request, heq, -⟩
      exact hintent request heq
    have hretires {link : LinkId} : ¬ op.Retires link := by
      rintro ⟨request, heq, -⟩
      exact hretire request heq
    -- No turn of the link has touched its intent.
    obtain ⟨entry', hentry', hintent⟩ := Moves.follow (R := fun entry entry' =>
      entry'.record.adminIntent = entry.record.adminIntent) (fun _ => rfl)
      (fun h h' => h'.trans h) (fun link _ _ _ hturn => hturn.adminIntent htransitions hretires)
      (apply_moves impl hload) hentry
    unfold Impl.shape at hshape
    rw [hentry, hentry', Option.map_some, Option.map_some, Option.some.injEq] at hshape
    obtain ⟨hretired, hbinding⟩ := Prod.mk.inj hshape
    rw [Impl.currentEvidence_eq hentry, Impl.currentEvidence_eq hentry'] at hevidence
    rw [board_of_bound hentry, board_of_bound hentry']
    refine congrArg some ?_
    unfold LinkEntry.sheet Sheet.keep
    dsimp only
    rw [hretired, hbinding, hintent, hevidence, toFinset_filter_strip _ hp]

variable (hindexed : Indexed impl) (hendorsed : impl.Endorsed)

include hindexed hendorsed

theorem registerPublisher_leaves {request : RegisterPublisherRequest}
    (hspare : ∀ publisher authority, impl.store.publishers.lookup publisher = some authority →
      authority.generation.next ≠ none) :
    impl.Leaves (impl.board.apply (.registerPublisher request))
      (impl.registerPublisher request) := by
  have hdone (hcode : (impl.registerPublisher request).2.outcome.code = .committed) :
      impl.Leaves (impl.board.apply (.registerPublisher request))
        (impl.registerPublisher request) := by
    have henrols : impl.enrols request.registration = true := by
      refine Bool.not_eq_false _ ▸ fun hno => ?_
      have herror := (registerPublisher_of_not_enrols impl hno).2
      unfold Outcome.isError at herror
      rw [hcode] at herror
      cases herror
    refine .done (@board_keep impl (.registerPublisher request) rfl
      (fun _ h => by cases h) (fun _ h => by cases h)
      ((apply_steps impl rfl).shape (by simp [Op.kinds]) (by simp [Op.kinds]) (by simp [Op.kinds])) _
      (fun _ => rfl) fun l => ?_) (by rw [hcode]; rfl)
    rw [@apply_currentEvidence impl hindexed hendorsed (.registerPublisher request) rfl]
    refine List.filter_congr fun record hrecord => ?_
    obtain ⟨-, authority, hauthority, -, hboot, -⟩ := hendorsed l record hrecord
    -- A record is of the boot that its publisher is registered under.
    rw [fences_registerPublisher, ← hboot]
    by_cases hp : record.publisher = request.registration.publisher
    · rw [if_pos ⟨hp.symm, henrols⟩, hauthority, Option.filter_some]
      by_cases hb : authority.workerBoot = request.registration.workerBoot <;> simp [hp, hb]
    · rw [if_neg fun h => hp h.1.symm]
      simp [hp]
  rcases registerPublisher_outcome impl request with hdeclined | ⟨_, -, hcode⟩ |
    ⟨scope, authority, -, hsupersedes, heq⟩
  · exact hdeclined.leaves
  · exact hdone hcode
  · refine hdone ?_
    rw [heq]
    unfold Impl.supersedeBoot
    cases hnext : authority.generation.next with
    | none => exact absurd hnext (hspare _ _ hsupersedes.known)
    | some generation => rfl

omit hendorsed in
theorem invalidatePublisher_leaves (request : InvalidatePublisherRequest) :
    impl.Leaves (impl.board.apply (.invalidatePublisher request))
      (impl.invalidatePublisher request) := by
  rcases invalidatePublisher_outcome impl request with hdeclined | ⟨heq, hcode⟩ |
    ⟨authority, -, heq, hcode⟩
  · exact hdeclined.leaves
  · exact .same (by rw [heq]) (by rw [hcode]; rfl)
  · refine .done (@board_keep impl (.invalidatePublisher request) rfl
      (fun _ h => by cases h) (fun _ h => by cases h)
      ((apply_steps impl rfl).shape (by simp [Op.kinds]) (by simp [Op.kinds]) (by simp [Op.kinds])) _
      (fun _ => rfl) fun l => ?_) (by rw [hcode]; rfl)
    unfold Impl.apply
    dsimp only
    rw [heq, fencePublisher_evidence hindexed]

theorem advanceCoordinatorEpoch_leaves (request : AdvanceEpochRequest) :
    impl.Leaves (impl.board.apply (.advanceCoordinatorEpoch request))
      (impl.advanceCoordinatorEpoch request) := by
  rcases advanceCoordinatorEpoch_outcome impl request with hdeclined | ⟨heq, hcode⟩ |
    ⟨hlt, heq, hcode⟩
  · exact hdeclined.leaves
  · exact .same (by rw [heq]) (by rw [hcode]; rfl)
  · refine .done (@board_keep impl (.advanceCoordinatorEpoch request) rfl
      (fun _ h => by cases h) (fun _ h => by cases h)
      ((apply_steps impl rfl).shape (by simp [Op.kinds]) (by simp [Op.kinds]) (by simp [Op.kinds])) _
      (fun _ => rfl) fun l => ?_) (by rw [hcode]; rfl)
    unfold Impl.apply
    dsimp only
    rw [heq, foldl_fenceStale_currentEvidence_nil hindexed hendorsed hlt, eq_comm,
      List.filter_eq_nil_iff]
    intro record hrecord
    rw [(hendorsed l record hrecord).1]
    simp [hlt]

end Publishers

/-! ## Other operations -/

theorem reconcile_board (impl : Impl) : impl.reconcile.1.board = impl.board := by
  have hlink (p : Impl × Nat) (link : LinkId) :
      (Impl.reconcileLink p link).1.board = p.1.board := by
    unfold Impl.reconcileLink
    split
    · rfl
    rename_i entry hentry
    split
    · rfl
    dsimp only
    have hsheet := sheet_recomputeLink ⟨p.1, entry⟩ .evidenceResolution
      (.fromValidated (publicationIdFor (lit "reconcile") p.1.globalGeneration.value)) .null
    have hframe : EditFrame ⟨p.1, entry⟩ _ := (@recomputeLink_steps (fun _ => True) link
      ⟨p.1, entry⟩ .evidenceResolution
      (.fromValidated (publicationIdFor (lit "reconcile") p.1.globalGeneration.value)) .null).frame
    split <;>
    · rename_i hr
      rw [hr] at hsheet hframe
      rw [board_commit, board_of_entryOf hframe.entryOf, hsheet]
      exact Function.update_eq_self_iff.mpr (board_of_bound hentry).symm
  have hfold (links : List LinkId) (p : Impl × Nat) :
      (links.foldl Impl.reconcileLink p).1.board = p.1.board := by
    induction links generalizing p with
    | nil => rfl
    | cons link links ih => exact (ih _).trans (hlink p link)
  exact hfold _ (impl, 0)

theorem Recovered.sheet {config : EngineConfig} {record : LinkStateRecord} {entry : LinkEntry}
    (h : Recovered config record entry) : entry.sheet =
      { binding := record.binding
        retired := record.state = .retired
        intent := record.adminIntent.map fun intent => (intent.state, intent.cause) } := by
  have hretired : decide (entry.record.state = .retired) = decide (record.state = .retired) := by
    by_cases hstate : record.state = .retired
    · rw [(h.retired hstate).1, hstate]
    · have hlive : recoveredState record ≠ .retired := by
        unfold recoveredState
        split <;> decide
      rw [(h.live hstate).1]
      simp [hstate, hlive]
  unfold LinkEntry.sheet
  rw [hretired, h.binding, h.adminIntent, h.current]
  rfl

/-- A recovered engine has the board of its journal. -/
theorem recover_board (impl : Impl) {payload : JournalPayload} (h : payload.Decoded) :
    (impl.recover payload).impl.board = .ofPayload payload := by
  funext link
  unfold Board.ofPayload
  cases hentry : (impl.recover payload).impl.entryOf link with
  | none =>
    rw [board_of_unbound hentry, List.find?_eq_none.mpr, Option.map_none]
    intro persisted hmem hlink
    obtain ⟨adopted, hadopted, heq⟩ := adopted_recover impl h
    obtain ⟨entry, hbound⟩ := hadopted.bound persisted hmem
    rw [heq] at hentry
    rw [of_decide_eq_true hlink] at hbound
    cases hentry.symm.trans hbound
  | some entry =>
    obtain ⟨persisted, hmem, hlink, hrecovered⟩ := recover_entryOf impl h hentry
    have hfind : payload.links.find? (·.record.binding.link = link) = some persisted := by
      obtain ⟨found, hfound⟩ := Option.isSome_iff_exists.mp
        (List.find?_isSome (p := (·.record.binding.link = link)).mpr
          ⟨persisted, hmem, decide_eq_true hlink⟩)
      have hkey : found.record.binding.link = link := by simpa using List.find?_some hfound
      have hsame := List.inj_on_of_nodup_map h.distinct (List.mem_of_find?_eq_some hfound) hmem
        (hkey.trans hlink.symm)
      rw [hfound, hsame]
    rw [board_of_bound hentry, hfind, Option.map_some, hrecovered.sheet]

theorem load_board (impl : Impl) (config : PersistenceConfig) (steps : ReadSteps)
    (file : Option Bytes) : (impl.load config steps file).1.board =
      impl.board.apply (.load config steps file) := by
  rw [load_accepted]
  unfold Board.apply
  dsimp only
  cases haccepted : acceptedPayload config steps file with
  | none => rfl
  | some payload => exact recover_board impl (acceptedPayload_decoded haccepted)

/-! ## Runs -/

/-- No counter that the operation needs is exhausted. A load brings its counters along. -/
def Impl.Counts (impl : Impl) (op : Op) : Prop :=
  op.isLoad = true ∨ (impl.apply op).Unsaturated ∧
    ∀ publisher ∈ impl.store.publishers.keys, ∀ authority ∈ impl.store.publishers.lookup publisher,
      authority.generation.next ≠ none

instance (impl : Impl) (op : Op) : Decidable (impl.Counts op) :=
  inferInstanceAs (Decidable (_ ∨ _ ∧ ∀ _ ∈ _, _))

/-- An operation does to the board what it says, if it is carried out, and else nothing. -/
theorem apply_board {impl : Impl} (h : impl.Reachable) {op : Op} (hcounts : impl.Counts op) :
    (impl.apply op).board = if impl.carriesOut op then impl.board.apply op else impl.board := by
  have hindexed := Impl.Reachable.indexed h
  have hsupported := Impl.Reachable.supported h
  have hendorsed := Impl.Reachable.endorsed h
  -- A load is not held to the counters, and every other operation is.
  have hother (hload : op.isLoad = false) : (impl.apply op).Unsaturated ∧ impl.Backed ∧
      ∀ publisher authority, impl.store.publishers.lookup publisher = some authority →
        authority.generation.next ≠ none := by
    obtain ⟨hu, hspare⟩ := hcounts.resolve_left (by rw [hload]; exact Bool.false_ne_true)
    exact ⟨hu, Impl.Reachable.backed h (hu.of_le (apply_steps impl hload).le),
      fun publisher authority hlookup => hspare publisher
        (Finmap.mem_keys.mpr (Finmap.mem_of_lookup_eq_some hlookup)) authority hlookup⟩
  cases op with
  | bindLink request =>
    obtain ⟨hu, hbacked, -⟩ := hother rfl
    exact bindLink_leaves hsupported hbacked hindexed hu
  | supersedeTopology request =>
    obtain ⟨hu, hbacked, -⟩ := hother rfl
    exact supersedeTopology_leaves hsupported hbacked hindexed hu
  | retireLink request =>
    obtain ⟨hu, hbacked, -⟩ := hother rfl
    exact retireLink_leaves hsupported hbacked hindexed hu
  | registerPublisher request =>
    obtain ⟨-, -, hspare⟩ := hother rfl
    exact registerPublisher_leaves hindexed hendorsed hspare
  | invalidatePublisher request => exact invalidatePublisher_leaves hindexed request
  | advanceCoordinatorEpoch request =>
    exact advanceCoordinatorEpoch_leaves hindexed hendorsed request
  | publishEvidence request => exact publishEvidence_leaves (hother rfl).1
  | withdrawEvidence request => exact withdrawEvidence_leaves hindexed (hother rfl).1
  | transitionState request => exact transitionState_leaves hindexed (hother rfl).1
  | markRevalidationRequired request =>
    exact markRevalidationRequired_leaves hindexed (hother rfl).1
  | reconcile => exact reconcile_board impl
  | snapshot request => exact board_of_entryOf (snapshot_sameLinks impl request).entryOf
  | load config steps file =>
    have hboard := load_board impl config steps file
    rcases load_cases impl config steps file with ⟨refusal, -, heq⟩ |
      ⟨_, _, _, -, -, -, hcode, -⟩
    · have hrefused : impl.board.apply (.load config steps file) = impl.board :=
        hboard.symm.trans (by rw [heq])
      rw [hrefused, ite_self]
      exact hboard.trans hrefused
    · rw [if_pos ?_]
      · exact hboard
      · unfold Impl.carriesOut Impl.outcome
        dsimp only
        rw [Option.any_some, hcode]
        rfl

/-- The board of an engine is that of the operations that it carried out, in their order. -/
theorem board_of_log {impl : Impl} (h : impl.Reachable) {ops : List Op}
    (hcounts : Runs.Admissible Impl.apply Impl.Counts impl ops) :
    (ops.foldl Impl.apply impl).board =
      (Runs.log Impl.apply Impl.carriesOut impl ops).foldl Board.apply impl.board :=
  Runs.foldl_log (fun _ _ h _ => .step _ h trivial) (fun _ _ h hcounts => apply_board h hcounts) h
    hcounts

namespace Sample

/-- The small run, in which the publication is repeated, another one refused, and a scan is made. -/
def repeated : List Op :=
  ops ++ [.publishEvidence publish,
    .publishEvidence { publish with observation.publisher := .fromValidated (lit "pub-2") },
    .reconcile, .snapshot {}]

end Sample

theorem board_of_log_sample :
    (Runs.log Impl.apply Impl.carriesOut (.create {}) Sample.repeated).length = 3 ∧
    (Sample.repeated.foldl Impl.apply (.create {})).board =
      (Runs.log Impl.apply Impl.carriesOut (.create {}) Sample.repeated).foldl Board.apply
        (Impl.create {}).board :=
  ⟨by decide, board_of_log (.start ⟨{}, rfl⟩) (by decide)⟩

/-! ## Replicas -/

/-- The operation is no publication of a record that says of itself that it does not hold. -/
def Op.Holds : Op → Prop
  | .publishEvidence request => request.observation.status = .current
  | _ => True

/-- A link with evidence has recorded what its evidence resolves to, if no counter is exhausted. -/
def Impl.Resolved (impl : Impl) : Prop :=
  impl.Unsaturated → ∀ link entry, impl.entryOf link = some entry →
    entry.record.state ≠ .retired → entry.current ≠ [] → entry.Coherent

abbrev Impl.HoldsReachable : Impl → Prop := Runs.Run Fresh apply fun _ op => op.Holds

theorem Impl.HoldsReachable.reachable {impl : Impl} (h : impl.HoldsReachable) : impl.Reachable :=
  h.mono fun _ _ _ => trivial

/-- Loads included: no evidence outlives a load, and every publication resolves its link anew. -/
theorem Impl.HoldsReachable.resolved {impl : Impl} (h : impl.HoldsReachable) : impl.Resolved := by
  refine h.invariant_of (Q := Impl.Reachable) (fun _ h => Impl.HoldsReachable.reachable h) ?_
    fun impl op hreachable hresolved hop hu => ?_
  · rintro _ ⟨config, rfl⟩ - link entry hentry
    rw [Impl.entryOf_create] at hentry
    cases hentry
  cases hload : op.isLoad with
  | false =>
    have hordinary : op.Ordinary := by
      cases op <;> first | exact hop | cases hload
    have hmoves := apply_moves impl hload
    exact hmoves.entries (Q := fun _ entry => entry.record.state ≠ .retired →
        entry.current ≠ [] → entry.Coherent)
      (fun _ _ hle hb => hb.of_le hle) (Impl.Reachable.indexed hreachable)
      (Impl.Reachable.sealed hreachable) (fun _ _ hnew _ _ => hnew.coherent)
      (fun _ _ _ hlive hnodup hend ht _ hlive' _ =>
        ht.coherent hordinary hnodup hlive hend hlive') hu (hresolved (hu.of_le hmoves.le))
  | true =>
    cases op with
    | load config steps file =>
      change (impl.load config steps file).1.Unsaturated at hu
      intro link entry hentry hlive hne
      change (impl.load config steps file).1.entryOf link = some entry at hentry
      -- A load leaves everything as it was, or no evidence at all.
      rcases load_currentEvidence impl config steps file with heq | hnil
      · rw [heq] at hu hentry
        exact hresolved hu link entry hentry hlive hne
      · have hempty := hnil link
        rw [Impl.currentEvidence_eq hentry] at hempty
        exact absurd hempty hne
    | _ => cases hload

/-- A coherent entry presents what its sheet resolves to. -/
theorem LinkEntry.Coherent.presents {entry : LinkEntry} (h : entry.Coherent)
    (hnodup : (entry.current.map (·.key)).Nodup) :
    entry.conclusion = entry.sheet.conclusion entry.record.everEstablished := by
  -- The sheet lists the records in another order.
  have hperm : (entry.current.map EvidenceRecord.strip).Perm
      (entry.sheet.evidence.toList.map EvidenceRecord.strip) := by
    have hstrip : (entry.current.map EvidenceRecord.strip).map EvidenceRecord.strip =
        entry.current.map EvidenceRecord.strip := by
      rw [List.map_map]
      rfl
    have hdistinct : (entry.current.map EvidenceRecord.strip).Nodup := by
      refine List.Nodup.of_map (·.key) ?_
      rw [List.map_map]
      exact hnodup
    have htoList := (List.toFinset_toList hdistinct).map EvidenceRecord.strip
    rw [hstrip] at htoList
    exact htoList.symm
  unfold Sheet.conclusion
  rw [← resolveLinkState_eq_of_perm hperm hnodup, h.conclusion]
  have hsheet : (entry.sheet.record entry.record.everEstablished).adminIntent =
      entry.record.adminIntent.map fun intent => { state := intent.state, cause := intent.cause } := by
    unfold Sheet.record LinkEntry.sheet
    rw [Option.map_map]
    rfl
  cases hintent : entry.record.adminIntent with
  | none =>
    rw [hintent] at hsheet
    exact congrArg _ (resolveLinkState_congr _ (hintent.trans hsheet.symm) rfl rfl)
  | some intent =>
    rw [hintent] at hsheet
    exact conclusion_underIntent hintent hsheet rfl rfl

/-- Two engines carry out the same operations, whatever else is asked of them and however they are
configured. Then they have the same board, and present every live link with evidence as its sheet
says. What they present can differ only where nothing on the sheet decides. -/
theorem replicas_agree {config config' : EngineConfig} {ops ops' : List Op}
    (hok : Runs.Admissible Impl.apply (fun impl op => op.Holds ∧ impl.Counts op) (.create config) ops)
    (hok' : Runs.Admissible Impl.apply (fun impl op => op.Holds ∧ impl.Counts op) (.create config')
      ops')
    (hlog : Runs.log Impl.apply Impl.carriesOut (.create config) ops =
      Runs.log Impl.apply Impl.carriesOut (.create config') ops') :
    let impl := ops.foldl Impl.apply (.create config)
    let impl' := ops'.foldl Impl.apply (.create config')
    impl.board = impl'.board ∧
    (impl.Unsaturated → impl'.Unsaturated →
      ∀ link entry, impl.entryOf link = some entry → entry.record.state ≠ .retired →
        entry.current ≠ [] →
        entry.conclusion = entry.sheet.conclusion entry.record.everEstablished ∧
        ∃ entry', impl'.entryOf link = some entry' ∧ entry'.sheet = entry.sheet ∧
          entry'.conclusion = entry.sheet.conclusion entry'.record.everEstablished ∧
          (entry'.conclusion = entry.conclusion ∨ entry.sheet.Open)) := by
  intro impl impl'
  have hrun {config : EngineConfig} {ops : List Op} (hok : Runs.Admissible Impl.apply
      (fun impl op => op.Holds ∧ impl.Counts op) (.create config) ops) :
      (ops.foldl Impl.apply (.create config)).HoldsReachable :=
    Runs.Run.mono (fun _ _ h => h.1) (Runs.Run.foldl (.start ⟨config, rfl⟩) hok)
  -- Either board is the fold of its log.
  have hfold {config : EngineConfig} {ops : List Op} (hok : Runs.Admissible Impl.apply
      (fun impl op => op.Holds ∧ impl.Counts op) (.create config) ops) :
      (ops.foldl Impl.apply (.create config)).board =
        (Runs.log Impl.apply Impl.carriesOut (.create config) ops).foldl Board.apply fun _ => none :=
    Runs.foldl_log (Q := Impl.Reachable) (fun _ _ h _ => .step _ h trivial)
      (fun _ _ h hok => apply_board h hok.2) (.start ⟨config, rfl⟩) hok
  have hboard : impl.board = impl'.board := by rw [hfold hok, hfold hok', hlog]
  refine ⟨hboard, fun hu hu' link entry hentry hlive hne => ?_⟩
  have hpresents {impl : Impl} (h : impl.HoldsReachable) (hu : impl.Unsaturated)
      {entry : LinkEntry} (hentry : impl.entryOf link = some entry)
      (hlive : entry.record.state ≠ .retired) (hne : entry.current ≠ []) :
      entry.conclusion = entry.sheet.conclusion entry.record.everEstablished :=
    (h.resolved hu link entry hentry hlive hne).presents
      ((Impl.Reachable.indexed h.reachable).slotted link entry hentry).nodup
  have hhere := board_of_bound hentry
  rw [hboard] at hhere
  obtain ⟨entry', hentry', hsheet⟩ := Option.map_eq_some_iff.mp hhere
  have hlive' : entry'.record.state ≠ .retired := by
    have hretired : decide (entry'.record.state = .retired) =
        decide (entry.record.state = .retired) := congrArg Sheet.retired hsheet
    exact fun h => hlive (of_decide_eq_true (hretired ▸ decide_eq_true h))
  have hne' : entry'.current ≠ [] := by
    intro hempty
    have hevidence := congrArg Sheet.evidence hsheet
    unfold LinkEntry.sheet at hevidence
    rw [hempty] at hevidence
    exact hne (List.map_eq_nil_iff.mp (List.toFinset_eq_empty_iff _ |>.mp hevidence.symm))
  have hhere := hpresents (hrun hok) hu hentry hlive hne
  have hthere := hpresents (hrun hok') hu' hentry' hlive' hne'
  rw [hsheet] at hthere
  refine ⟨hhere, entry', hentry', hsheet, hthere, ?_⟩
  rcases entry.sheet.conclusion_cases with hsame | hopen
  · exact .inl (by rw [hhere, hthere, hsame])
  · exact .inr hopen

namespace Sample

/-- The engine of the repeated run. -/
def busy : Impl := repeated.foldl Impl.apply (.create {})

/-- A smaller engine that is asked nothing else. -/
def small : Impl := ops.foldl Impl.apply (.create { maxLinks := 1 })

end Sample

theorem replicas_agree_sample : Sample.busy.board = Sample.small.board ∧
    ∃ entry, Sample.busy.entryOf Sample.link = some entry ∧
      entry.conclusion = entry.sheet.conclusion entry.record.everEstablished ∧
      ∃ entry', Sample.small.entryOf Sample.link = some entry' ∧ entry'.sheet = entry.sheet := by
  have hagree := @replicas_agree {} { maxLinks := 1 } Sample.repeated Sample.ops
    ⟨⟨trivial, by decide⟩, ⟨trivial, by decide⟩, ⟨rfl, by decide⟩, ⟨rfl, by decide⟩,
      ⟨rfl, by decide⟩, ⟨trivial, by decide⟩, ⟨trivial, by decide⟩, trivial⟩
    ⟨⟨trivial, by decide⟩, ⟨trivial, by decide⟩, ⟨rfl, by decide⟩, trivial⟩ rfl
  have hsome : (Sample.busy.entryOf Sample.link).isSome = true := by decide
  obtain ⟨entry, hentry⟩ := Option.isSome_iff_exists.mp hsome
  have hstate : ∀ e ∈ Sample.busy.entryOf Sample.link,
      e.record.state ≠ .retired ∧ e.current ≠ [] := by decide
  obtain ⟨hlive, hne⟩ := hstate entry hentry
  obtain ⟨hpresents, entry', hentry', hsheet, -⟩ :=
    hagree.2 (by decide) (by decide) Sample.link entry hentry hlive hne
  exact ⟨hagree.1, entry, hentry, hpresents, entry', hentry', hsheet⟩

end LinkState
