import LinkStateFabric.Results.Bookkeeping
import LinkStateFabric.Results.Coherence

/-!
# What single rules of the resolution promise

* `resolution_perm`: the order of the records does not matter, and neither does the sort.
* `synthetic_backed_iff`: a conclusion from synthetic evidence alone says so, unless synthetic
  administrative evidence restricts the link: that rule returns before the flag is set.
* `unanimity_iff`: observations that agree are presented as they claim, unless they claim DRAINING
  and the remote end is compared with a local observation. The state DRAINING is operational, the
  claim DRAINING is not.
* `directional_iff`: the directional rules are reserved for a transmit and a receive record that
  contradict each other, unless a bidirectional record is the one that contradicts.
-/

namespace LinkState

open Sorting

section

variable {records : List EvidenceRecord} {record : LinkStateRecord}

/-! ## Order -/

/-- Records of different keys resolve alike in every order, and every sort of them puts them into
the same one. -/
theorem resolution_perm {records' : List EvidenceRecord} (hp : records'.Perm records)
    (hkeys : (records.map (·.key)).Nodup) :
    resolveLinkState records' record = resolveLinkState records record ∧
    ∀ ordered : List EvidenceRecord, ordered.Perm records →
      ordered.Pairwise (fun a b => evidenceLess b a = false) →
      resolveOrdered ordered record = resolveLinkState records record := by
  have hrank := nodup_rank_of_key hkeys
  refine ⟨(resolveLinkState_eq_of_perm (hp.map _).symm hkeys record).symm,
    fun ordered hordered hsorted => ?_⟩
  have hsort : sortBy evidenceLess ordered = ordered := List.Pairwise.insertionSort_eq hsorted
  unfold resolveLinkState
  rw [ranks_evidenceLess.sortBy_eq_of_perm hordered.symm hrank, hsort]

theorem resolution_perm_sample :
    resolveLinkState [Sample.remoteImpaired, Sample.carrierUp] {} =
      resolveLinkState [Sample.carrierUp, Sample.remoteImpaired] {} :=
  (resolution_perm (.swap _ _ _) (by decide)).1

/-! ## Synthetic backing -/

namespace Sample

/-- A publisher disables the link with a test record. -/
def testDisabled : Impl :=
  [.bindLink ⟨binding⟩, .registerPublisher ⟨registration⟩,
    .publishEvidence
      { observation := { observation with
          key.kind := .administrativeState
          evidenceClass := .synthetic
          claim := .adminDisabled }
        publication }].foldl Impl.apply (.create {})

end Sample

/-- Administrative evidence that restricts the link leaves open what it is backed by. -/
theorem restricted_syntheticBacked {claim : EvidenceClaim} (hintent : record.adminIntent = none)
    (h : restrictionOf records = some claim) :
    (resolveLinkState records record).syntheticBacked = false := by
  rw [resolveLinkState_gated hintent h]
  unfold Resolution.underRestriction
  dsimp only
  split <;> rfl

/-- Of evidence that is synthetic as far as it counts, a decisive conclusion says so exactly if no
administrative evidence restricts the link. -/
theorem synthetic_backed_iff (hintent : record.adminIntent = none)
    (hsynthetic : ∀ x ∈ records, x.Counted → x.evidenceClass = .synthetic) :
    ((resolveLinkState records record).resultClass.decisive = true →
      (resolveLinkState records record).syntheticBacked = true) ↔
    ∀ x ∈ records, x.Counted → x.key.kind = .administrativeState →
      x.claim ≠ .adminDisabled ∧ x.claim ≠ .draining := by
  rw [← restrictionOf_eq_none]
  cases hrestriction : restrictionOf records with
  | some claim =>
    -- The administrative gate decides, and does not look at the class.
    refine iff_of_false (fun h => ?_) nofun
    have hpresents := @resolveLinkState_restricted _ record claim hintent hrestriction
    have hdecisive : (resolveLinkState records record).resultClass.decisive = true := by
      rw [hpresents.resultClass]
      rcases restrictionOf_cases hrestriction with rfl | rfl <;> decide
    have hbacked := h hdecisive
    rw [restricted_syntheticBacked hintent hrestriction] at hbacked
    cases hbacked
  | none =>
    refine iff_of_true (fun hdecisive => ?_) rfl
    obtain ⟨r, administrative, -, heq⟩ := @resolveLinkState_free _ record hintent hrestriction
    rw [heq] at hdecisive ⊢
    split at hdecisive
    · -- nothing is left that could be decisive
      unfold Resolution.withoutEvidence at hdecisive
      split at hdecisive <;> cases hdecisive
    · rename_i hsome
      rw [if_neg hsome, Resolution.byDecisive_syntheticBacked, Bool.or_eq_true]
      left
      obtain ⟨x, hx⟩ := List.exists_mem_of_ne_nil _ (Resolution.winningTier_ne_nil hsome)
      obtain ⟨hmem, hobserves⟩ := mem_observationsIn.mp (Resolution.mem_winningTier.mp hx).1
      have hclass := hsynthetic x ((mem_sortBy _).mp hmem) hobserves.1
      exact List.any_eq_true.mpr ⟨x, hx, decide_eq_true hclass⟩

theorem synthetic_backed_iff_sample : (resolveLinkState [{ Sample.carrierUp with
    evidenceClass := .synthetic }] {}).syntheticBacked = true :=
  (synthetic_backed_iff rfl (by decide)).mpr (by decide) (by decide)

/-- What a view and a snapshot say of synthetic evidence is what its resolution says. -/
theorem synthetic_presented {impl : Impl} (h : impl.OrdinarilyReachable) (hu : impl.Unsaturated)
    {link : LinkId} {entry : LinkEntry} (hentry : impl.entryOf link = some entry)
    (hlive : entry.record.state ≠ .retired) :
    let resolution := resolveLinkState entry.current entry.record
    ((makeView entry).record.resultClass = resolution.resultClass ∧
      (makeView entry).syntheticBacked = resolution.syntheticBacked) ∧
    ∀ request r, Impl.snapshotRecord request link entry = some r →
      r.resultClass = resolution.resultClass ∧ r.syntheticBacked = resolution.syntheticBacked := by
  have hconclusion := (h.settled hu link entry hentry hlive).conclusion
  simp only [LinkEntry.conclusion, Resolution.conclusion, Conclusion.mk.injEq] at hconclusion
  obtain ⟨-, hclass, -, -, hbacked⟩ := hconclusion
  refine ⟨⟨hclass, hbacked⟩, fun request r hr => ?_⟩
  unfold Impl.snapshotRecord at hr
  dsimp only at hr
  split at hr
  · cases hr
  split at hr <;> cases hr
  exact ⟨hclass, hbacked⟩

/-- A synthetic record disables a link, and the conclusion does not say that it is synthetic. Nor do
the view and the snapshot of an engine that accepts the record. -/
theorem synthetic_disable_unmarked :
    ((∀ x ∈ [Sample.syntheticDisable], x.evidenceClass = .synthetic) ∧
      (resolveLinkState [Sample.syntheticDisable] {}).resultClass = .authoritativeAdminDisabled ∧
      (resolveLinkState [Sample.syntheticDisable] {}).syntheticBacked = false) ∧
    Sample.testDisabled.Reachable ∧
    ∃ entry, Sample.testDisabled.entryOf Sample.link = some entry ∧
      (∀ x ∈ entry.current, x.evidenceClass = .synthetic) ∧
      (makeView entry).record.resultClass = .authoritativeAdminDisabled ∧
      (makeView entry).syntheticBacked = false ∧
      ((Impl.snapshotRecord {} Sample.link entry).map (·.syntheticBacked)) = some false := by
  refine ⟨by decide, Impl.Reachable.foldl (.start ⟨{}, rfl⟩) _, ?_⟩
  have hsome : (Sample.testDisabled.entryOf Sample.link).isSome = true := by decide +kernel
  obtain ⟨entry, hentry⟩ := Option.isSome_iff_exists.mp hsome
  have hall : ∀ e ∈ Sample.testDisabled.entryOf Sample.link,
      (∀ x ∈ e.current, x.evidenceClass = .synthetic) ∧
      (makeView e).record.resultClass = .authoritativeAdminDisabled ∧
      (makeView e).syntheticBacked = false ∧
      ((Impl.snapshotRecord {} Sample.link e).map (·.syntheticBacked)) = some false := by decide +kernel
  exact ⟨entry, hentry, hall entry hentry⟩

/-! ## Unanimity -/

/-- The claim and the state that it names are both operational, or neither is. -/
theorem claimIsOperational_stateOf {claim : EvidenceClaim} :
    claimIsOperational claim = isOperationalState (stateOf (classFor claim)) ↔
      claim ≠ .draining := by
  cases claim <;> decide

/-- Observations that agree are presented as they claim on every symmetry guarantee, exactly if they
do not claim DRAINING, or no remote observation is compared with a local one. -/
theorem unanimity_iff {claim : EvidenceClaim} (hintent : record.adminIntent = none)
    (hfree : ∀ x ∈ records, x.Counted → x.key.kind = .administrativeState →
      x.claim ≠ .adminDisabled ∧ x.claim ≠ .draining)
    (hsome : ∃ x ∈ records, x.Observes) (hall : ∀ x ∈ records, x.Observes → x.claim = claim) :
    ((resolveLinkState records record).state = stateOf (classFor claim) ∧
      (resolveLinkState records record).resultClass = classFor claim ∧
      (resolveLinkState records record).conflicted = false) ↔
    ¬ (claim = .draining ∧ (∃ x ∈ records, x.Observes ∧ effectivePrecedence x < 4) ∧
      ∃ x ∈ records, x.Observes ∧ effectivePrecedence x = 4) := by
  obtain ⟨r, administrative, hr, heq⟩ :=
    @resolveLinkState_free _ record hintent (restrictionOf_eq_none.mpr hfree)
  set decisive := observationsIn (sortBy evidenceLess records) with hdecisive
  have hmem {x : EvidenceRecord} : x ∈ decisive ↔ x ∈ records ∧ x.Observes := by
    rw [hdecisive, mem_observationsIn, mem_sortBy]
  have hne : decisive ≠ [] := by
    obtain ⟨x, hx, hobserves⟩ := hsome
    exact List.ne_nil_of_mem (hmem.mpr ⟨hx, hobserves⟩)
  have hclaims : ∀ x ∈ decisive, x.claim = claim :=
    fun x hx => hall x (hmem.mp hx).1 (hmem.mp hx).2
  rw [heq, if_neg hne]
  constructor
  -- A DRAINING claim is never operational, and the state DRAINING always is.
  · rintro ⟨hstate, -⟩ ⟨rfl, ⟨x, hx, hobserves, hlocal⟩, y, hy, hobserves', hremote⟩
    have hunanimous := Resolution.unanimous_of_byDecisive (by decide) (by decide) hstate
    have hleast := Resolution.minimumTier_le (hmem.mpr ⟨hx, hobserves⟩)
    have hagree := hunanimous.remote (by omega) y (hmem.mpr ⟨hy, hobserves'⟩) hremote
    rw [hall y hy hobserves'] at hagree
    exact claimIsOperational_stateOf.mp hagree rfl
  · intro h
    have hunanimous : Resolution.Unanimous decisive claim := by
      refine ⟨fun x hx => ?_, fun hlocal x hx hremote => ?_⟩
      · exact hclaims x (Resolution.mem_winningTier.mp hx).1
      · rw [hclaims x hx]
        refine claimIsOperational_stateOf.mpr fun hdraining => h ⟨hdraining, ?_, ?_⟩
        · obtain ⟨y, hy, hleast⟩ := Resolution.exists_minimumTier hne
          exact ⟨y, (hmem.mp hy).1, (hmem.mp hy).2, by omega⟩
        · exact ⟨x, (hmem.mp hx).1, (hmem.mp hx).2, hremote⟩
    have hpresents : (r.byDecisive administrative decisive record.binding.symmetry).Agrees _ :=
      Resolution.byDecisive_presents hr hne hunanimous _
    exact ⟨hpresents.state, hpresents.resultClass, hpresents.conflicted⟩

theorem unanimity_iff_sample :
    (resolveLinkState [{ Sample.carrierUp with claim := .degraded }, Sample.remoteImpaired]
      {}).state = .degraded :=
  ((@unanimity_iff [{ Sample.carrierUp with claim := .degraded }, Sample.remoteImpaired] {}
    .degraded rfl (by decide) (by decide) (by decide)).mpr (by decide)).1

/-- The carrier and the remote end agree that the link is draining, and conflict. -/
theorem draining_conflict :
    ((∀ x ∈ [{ Sample.carrierUp with claim := .draining },
          { Sample.remoteImpaired with claim := .draining }], x.Observes ∧ x.claim = .draining) ∧
      (resolveLinkState [{ Sample.carrierUp with claim := .draining },
        { Sample.remoteImpaired with claim := .draining }] {}).state = .revalidationRequired ∧
      (resolveLinkState [{ Sample.carrierUp with claim := .draining },
        { Sample.remoteImpaired with claim := .draining }] {}).conflicted = true) ∧
    (resolveLinkState [{ Sample.carrierUp with claim := .draining },
      { Sample.remoteImpaired with claim := .draining }]
        { binding.symmetry := .directional }).state = .degraded := by
  decide

/-! ## Directional rules -/

/-- The rule is none of the directional branch: these are the only ones that begin so. -/
def Undirected (rule : Text) : Prop := rule.take 6 ≠ lit "RULE_D"

instance (rule : Text) : Decidable (Undirected rule) := inferInstanceAs (Decidable (_ ≠ _))

theorem undirected_append {a b : Text} (h : Undirected a) (hlen : 6 ≤ a.length) :
    Undirected (a ++ b) := by
  unfold Undirected
  rwa [List.take_append_of_le_length hlen]

theorem Undirected.not_isPrefix {rule p : Text} (h : Undirected rule)
    (hp : p.take 6 = lit "RULE_D") (hlen : 6 ≤ p.length) : ¬ p <+: rule := by
  rintro ⟨rest, rfl⟩
  exact h (by rw [List.take_append_of_le_length hlen, hp])

namespace Resolution

variable {r r' : Resolution} {administrative decisive tier : List EvidenceRecord}

/-- The resolution took the directional branch: it states one of its two rules. -/
def Directional (resolution : Resolution) : Prop :=
  ∃ rule ∈ resolution.rules, lit "RULE_DIRECTIONAL_ASYMMETRY" <+: rule ∨
    lit "RULE_DIRECTIONAL_CONFLICT" <+: rule

/-- No rule of the directional branch is stated. -/
def Omnidirectional (resolution : Resolution) : Prop := ∀ rule ∈ resolution.rules, Undirected rule

theorem Omnidirectional.not_directional (h : r.Omnidirectional) : ¬ r.Directional := by
  rintro ⟨rule, hrule, hp | hp⟩
  · exact (h rule hrule).not_isPrefix (by decide) (by decide) hp
  · exact (h rule hrule).not_isPrefix (by decide) (by decide) hp

theorem Omnidirectional.of_rules (h : r.Omnidirectional) (hrules : r'.rules = r.rules) :
    r'.Omnidirectional := by
  unfold Omnidirectional
  rwa [hrules]

theorem Omnidirectional.pushRule (h : r.Omnidirectional) {rule : Text} (hrule : Undirected rule) :
    (r.pushRule rule).Omnidirectional := by
  intro rule' hmem
  rcases List.mem_append.mp hmem with hmem | hmem
  · exact h rule' hmem
  · rwa [List.mem_singleton.mp hmem]

theorem foldl_noteConflict_rules (l : List EvidenceRecord) (text : EvidenceRecord → Text)
    (r : Resolution) : (l.foldl (fun resolution candidate =>
      resolution.noteConflict (text candidate)) r).rules = r.rules :=
  congrArg (·.rules) (foldl_noteConflict l text r)

theorem underIntent_omnidirectional (h : r.Omnidirectional) (intent : AdministrativeIntent) :
    (r.underIntent intent).Omnidirectional := by
  refine (h.pushRule ?_).of_rules rfl
  simp only [List.append_assoc]
  exact undirected_append (by decide) (by decide)

theorem underRestriction_omnidirectional (h : r.Omnidirectional) :
    (r.underRestriction administrative).Omnidirectional := by
  have hnote : (if disabledBy administrative && drainedBy administrative then
      r.noteConflict (lit "RULE_ADMIN_RESTRICTIVENESS: administrative sources disagree " ++
        lit "(ADMIN_DISABLED and DRAINING); the more restrictive intent wins")
      else r).Omnidirectional := by
    split <;> exact h
  refine (hnote.pushRule ?_).of_rules rfl
  split <;> decide

theorem underEnablement_omnidirectional (h : r.Omnidirectional) :
    (r.underEnablement administrative).Omnidirectional := by
  unfold underEnablement
  split
  · exact h
  · exact (h.pushRule (by decide)).of_rules rfl

theorem withoutEvidence_omnidirectional (h : r.Omnidirectional) (everEstablished : Bool) :
    (r.withoutEvidence everEstablished).Omnidirectional := by
  unfold withoutEvidence
  split
  · exact (h.pushRule (by decide)).of_rules rfl
  · exact (h.pushRule (by decide)).of_rules rfl

theorem selectTier_omnidirectional (h : r.Omnidirectional) :
    (r.selectTier administrative decisive).Omnidirectional := by
  obtain ⟨_, heq⟩ := selectTier_eq r administrative decisive
  rw [heq]
  refine Omnidirectional.pushRule (h.of_rules rfl) ?_
  simp only [List.append_assoc]
  exact undirected_append (by decide) (by decide)

theorem byClaims_omnidirectional (h : r.Omnidirectional) (hr' : r.byClaims tier = some r') :
    r'.Omnidirectional := by
  unfold byClaims at hr'
  split at hr'
  · cases hr'
    exact (h.pushRule (by decide)).of_rules rfl
  split at hr'
  · cases hr'
    exact (h.pushRule (by decide)).of_rules rfl
  split at hr'
  · cases hr'
    exact (h.pushRule (by decide)).of_rules rfl
  · cases hr'

theorem conflictedBy_omnidirectional (h : r.Omnidirectional) :
    (r.conflictedBy tier).Omnidirectional :=
  ((h.of_rules (foldl_noteConflict_rules ..)).pushRule (by decide)).of_rules rfl

theorem crossCheckRemote_omnidirectional (h : r.Omnidirectional)
    (symmetry : LinkSymmetryGuarantee) : (r.crossCheckRemote decisive symmetry).Omnidirectional := by
  unfold crossCheckRemote
  dsimp only
  split
  · split
    · exact h.pushRule (by decide)
    split
    · exact (h.pushRule (by decide)).of_rules (foldl_noteConflict_rules ..)
    · exact ((h.of_rules (foldl_noteConflict_rules ..)).pushRule (by decide)).of_rules rfl
  · exact h

theorem byAsymmetry_directional (r : Resolution) (witness : EvidenceRecord)
    (symmetry : LinkSymmetryGuarantee) : (r.byAsymmetry witness symmetry).Directional := by
  unfold byAsymmetry
  dsimp only
  split
  · refine ⟨_, List.mem_append.mpr (.inr (List.mem_singleton_self _)), .inl ?_⟩
    simp only [List.append_assoc]
    exact List.IsPrefix.trans (by decide) (List.prefix_append _ _)
  · refine ⟨_, List.mem_append.mpr (.inr (List.mem_singleton_self _)), .inr (by decide)⟩

/-- Of decisive records, the directional branch is taken exactly if there is an asymmetry. -/
theorem byDecisive_directional_iff (h : r.Omnidirectional) (symmetry : LinkSymmetryGuarantee) :
    (r.byDecisive administrative decisive symmetry).Directional ↔
      asymmetryOf (winningTier decisive) ≠ [] := by
  have hselect := @selectTier_omnidirectional r administrative decisive h
  unfold byDecisive
  dsimp only
  cases hasymmetry : asymmetryOf (winningTier decisive) with
  | cons witness _ => exact iff_of_true (byAsymmetry_directional ..) nofun
  | nil =>
    refine iff_of_false (Omnidirectional.not_directional ?_) (not_not.mpr rfl)
    dsimp only [List.head?_nil]
    split
    · exact conflictedBy_omnidirectional hselect
    · exact crossCheckRemote_omnidirectional (byClaims_omnidirectional hselect ‹_›) symmetry

end Resolution

/-- The record is an observation of the strongest tier. -/
def Wins (records : List EvidenceRecord) (x : EvidenceRecord) : Prop :=
  x ∈ records ∧ x.Observes ∧
    ∀ y ∈ records, y.Observes → effectivePrecedence x ≤ effectivePrecedence y

/-- The records observe one endpoint for one source, and exactly one of them claims that the link is
operational. -/
def Contradict (x y : EvidenceRecord) : Prop :=
  x.key.source = y.key.source ∧ x.key.endpoint = y.key.endpoint ∧
    claimIsOperational x.claim ≠ claimIsOperational y.claim

instance (records : List EvidenceRecord) (x : EvidenceRecord) : Decidable (Wins records x) :=
  inferInstanceAs (Decidable (_ ∧ _ ∧ _))

instance (x y : EvidenceRecord) : Decidable (Contradict x y) :=
  inferInstanceAs (Decidable (_ ∧ _ ∧ _))

/-- Records of the strongest tier, of these directions, that contradict each other. -/
def ContradictIn (records : List EvidenceRecord) (direction direction' : EvidenceDirection) : Prop :=
  ∃ x y, Wins records x ∧ Wins records y ∧ Contradict x y ∧ x.key.direction = direction ∧
    y.key.direction = direction'

theorem Contradict.symm {x y : EvidenceRecord} (h : Contradict x y) : Contradict y x :=
  ⟨h.1.symm, h.2.1.symm, h.2.2.symm⟩

theorem ContradictIn.symm {direction direction' : EvidenceDirection}
    (h : ContradictIn records direction direction') : ContradictIn records direction' direction := by
  obtain ⟨x, y, hx, hy, hxy, hdx, hdy⟩ := h
  exact ⟨y, x, hy, hx, hxy.symm, hdy, hdx⟩

theorem mem_winningTier_observations {x : EvidenceRecord} :
    x ∈ Resolution.winningTier (observationsIn (sortBy evidenceLess records)) ↔ Wins records x := by
  have hmem {x : EvidenceRecord} : x ∈ observationsIn (sortBy evidenceLess records) ↔
      x ∈ records ∧ x.Observes := by
    rw [mem_observationsIn, mem_sortBy]
  rw [Resolution.mem_winningTier, hmem]
  constructor
  · rintro ⟨⟨hx, hobserves⟩, htier⟩
    refine ⟨hx, hobserves, fun y hy hobserves' => ?_⟩
    rw [htier]
    exact Resolution.minimumTier_le (hmem.mpr ⟨hy, hobserves'⟩)
  · rintro ⟨hx, hobserves, hleast⟩
    have hx := hmem.mpr ⟨hx, hobserves⟩
    obtain ⟨y, hy, htier⟩ := Resolution.exists_minimumTier (List.ne_nil_of_mem hx)
    refine ⟨hmem.mp hx, le_antisymm ?_ (Resolution.minimumTier_le hx)⟩
    rw [← htier]
    exact hleast y (hmem.mp hy).1 (hmem.mp hy).2

/-- An asymmetry is a directed record that a record of another direction contradicts. -/
theorem asymmetryOf_ne_nil_iff :
    Resolution.asymmetryOf (Resolution.winningTier
      (observationsIn (sortBy evidenceLess records))) ≠ [] ↔
    ContradictIn records .transmit .receive ∨ ContradictIn records .transmit .bidirectional ∨
      ContradictIn records .receive .bidirectional := by
  have hdirected : Resolution.asymmetryOf (Resolution.winningTier
      (observationsIn (sortBy evidenceLess records))) ≠ [] ↔
      ∃ direction direction', direction ≠ .bidirectional ∧ direction' ≠ direction ∧
        ContradictIn records direction direction' := by
    have hsome {l : List EvidenceRecord} : l ≠ [] ↔ ∃ x, x ∈ l :=
      ⟨List.exists_mem_of_ne_nil l, fun ⟨_, hx⟩ => List.ne_nil_of_mem hx⟩
    unfold Resolution.asymmetryOf
    simp only [hsome, List.mem_filter, mem_winningTier_observations, Bool.and_eq_true, decide_eq_true_eq,
      List.any_eq_true]
    constructor
    · rintro ⟨x, hx, hdirected, y, hy, ⟨⟨hsource, hendpoint⟩, hdirection⟩, hclaim⟩
      exact ⟨_, _, hdirected, hdirection, x, y, hx, hy, ⟨hsource.symm, hendpoint.symm, hclaim⟩, rfl,
        rfl⟩
    · rintro ⟨_, _, hdirected, hdirection, x, y, hx, hy, hxy, rfl, rfl⟩
      exact ⟨x, hx, hdirected, y, hy, ⟨⟨hxy.1.symm, hxy.2.1.symm⟩, hdirection⟩, hxy.2.2⟩
  rw [hdirected]
  constructor
  · rintro ⟨direction, direction', hdirected, hdirection, h⟩
    -- Two directions in either order, of which the first is not bidirectional.
    cases direction <;> cases direction' <;>
      first
      | exact absurd rfl hdirected
      | exact absurd rfl hdirection
      | exact .inl h
      | exact .inl h.symm
      | exact .inr (.inl h)
      | exact .inr (.inr h)
  · rintro (h | h | h)
    · exact ⟨.transmit, .receive, nofun, nofun, h⟩
    · exact ⟨.transmit, .bidirectional, nofun, nofun, h⟩
    · exact ⟨.receive, .bidirectional, nofun, nofun, h⟩

/-- The directional branch is taken where no administration decides and there is an asymmetry. -/
theorem directional_iff_asymmetry : (resolveLinkState records record).Directional ↔
    record.adminIntent = none ∧ restrictionOf records = none ∧
      (ContradictIn records .transmit .receive ∨ ContradictIn records .transmit .bidirectional ∨
        ContradictIn records .receive .bidirectional) := by
  have hclassified : (classified records).Omnidirectional :=
    fun rule hrule => absurd hrule List.not_mem_nil
  rw [← asymmetryOf_ne_nil_iff]
  cases hintent : record.adminIntent with
  | some intent =>
    refine iff_of_false (Resolution.Omnidirectional.not_directional ?_) nofun
    unfold resolveLinkState resolveOrdered
    rw [hintent]
    exact Resolution.underIntent_omnidirectional hclassified intent
  | none =>
    cases hrestriction : restrictionOf records with
    | some claim =>
      refine iff_of_false (Resolution.Omnidirectional.not_directional ?_) nofun
      rw [resolveLinkState_gated hintent hrestriction]
      exact Resolution.underRestriction_omnidirectional hclassified
    | none =>
      -- No rule is noted before the decisive evidence is looked at.
      have henabled := @Resolution.underEnablement_omnidirectional (classified records)
        (administrativeIn (sortBy evidenceLess records)) hclassified
      rw [resolveLinkState_observed hintent hrestriction]
      dsimp only
      split
      · rename_i hnone
        refine iff_of_false (Resolution.Omnidirectional.not_directional ?_) fun h => h.2.2 ?_
        · exact Resolution.withoutEvidence_omnidirectional henabled _
        · rw [hnone]
          rfl
      · rw [Resolution.byDecisive_directional_iff henabled]
        exact ⟨fun h => ⟨rfl, rfl, h⟩, fun h => h.2.2⟩

/-- The directional branch is taken only for a transmit and a receive record that contradict each
other, exactly if an administrative statement decides, or there are such records, or no bidirectional
record of the strongest tier contradicts a directed one. -/
theorem directional_iff (records : List EvidenceRecord) (record : LinkStateRecord) :
    ((resolveLinkState records record).Directional → ContradictIn records .transmit .receive) ↔
    record.adminIntent ≠ none ∨ restrictionOf records ≠ none ∨
      ContradictIn records .transmit .receive ∨
      ¬ (ContradictIn records .transmit .bidirectional ∨
        ContradictIn records .receive .bidirectional) := by
  rw [directional_iff_asymmetry]
  tauto

namespace Sample

/-- A transmitter that is up. -/
def transmitterUp : EvidenceRecord where
  key := { direction := .transmit }
  claim := .up

/-- The link as a whole is down. -/
def wholeDown : EvidenceRecord where
  key := { kind := .interfaceOperationalState }
  claim := .down

end Sample

/-- A bidirectional record contradicts a transmit record, and no record is about receiving: the
ordinary conflict is taken for a directional asymmetry. -/
theorem bidirectional_asymmetry :
    (resolveLinkState [Sample.transmitterUp, Sample.wholeDown]
      { binding.symmetry := .directional }).Directional ∧
    (resolveLinkState [Sample.transmitterUp, Sample.wholeDown]
      { binding.symmetry := .directional }).state = .degraded ∧
    ¬ ContradictIn [Sample.transmitterUp, Sample.wholeDown] .transmit .receive := by
  refine ⟨?_, by decide, ?_⟩
  · refine directional_iff_asymmetry.mpr ⟨rfl, by decide, .inr (.inl ?_)⟩
    exact ⟨Sample.transmitterUp, Sample.wholeDown, by decide, by decide, by decide, rfl, rfl⟩
  · rintro ⟨x, y, -, hy, -, -, hreceive⟩
    have hall : ∀ y ∈ [Sample.transmitterUp, Sample.wholeDown], y.key.direction ≠ .receive := by
      decide
    exact hall y hy.1 hreceive

end

end LinkState
