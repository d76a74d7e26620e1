import LinkStateFabric.Engine.Conclusions
import LinkStateFabric.ResolutionLemmas

/-!
# What the tiers of evidence decide

* `Resolution.Unanimous`: the strongest tier makes one claim, and remote evidence does not
  contradict it. A claim other than DEGRADED and FAULTED is presented exactly then
  (`byDecisive_of_unanimous`, `unanimous_of_byDecisive`), so that UP is (`up_iff`).
* Synthetic evidence is in the weakest tier. Without it a link that has real evidence resolves
  alike, unless the synthetic evidence is administrative (`synthetic_outranked_iff`).
-/

namespace LinkState

open Sorting

/-! ## Records that count -/

/-- The record is current, of a supported class, and claims something. -/
def EvidenceRecord.Counted (record : EvidenceRecord) : Prop :=
  record.status = .current ∧ record.evidenceClass ≠ .unsupported ∧ record.claim ≠ .unknown

/-- The record counts, and is no administrative statement. -/
def EvidenceRecord.Observes (record : EvidenceRecord) : Prop :=
  record.Counted ∧ record.key.kind ≠ .administrativeState

instance (record : EvidenceRecord) : Decidable record.Counted :=
  inferInstanceAs (Decidable (_ ∧ _ ∧ _))

instance (record : EvidenceRecord) : Decidable record.Observes :=
  inferInstanceAs (Decidable (_ ∧ _))

theorem counted_iff {record : EvidenceRecord} :
    (classify record).counted = true ↔ record.Counted := by
  unfold classify EvidenceRecord.Counted
  dsimp only
  split
  · rename_i hstatus
    exact iff_of_false nofun fun h => hstatus h.1
  rename_i hstatus
  split
  · rename_i hclass
    exact iff_of_false nofun fun h => h.2.1 hclass
  rename_i hclass
  split
  · rename_i hclaim
    exact iff_of_false nofun fun h => h.2.2 hclaim
  · rename_i hclaim
    exact iff_of_true rfl ⟨not_not.mp hstatus, hclass, hclaim⟩

namespace Resolution

variable {r r' : Resolution} {administrative administrative' decisive decisive' : List EvidenceRecord}

/-! ## The strongest tier -/

/-- The strongest tier makes this one claim, and remote evidence does not contradict it. -/
structure Unanimous (decisive : List EvidenceRecord) (claim : EvidenceClaim) : Prop where
  tier : ∀ x ∈ winningTier decisive, x.claim = claim
  remote : minimumTier decisive < 4 → ∀ x ∈ decisive, effectivePrecedence x = 4 →
    claimIsOperational x.claim = isOperationalState (stateOf (classFor claim))

/-- The resolutions present the same, whatever they explain it with. -/
structure Agrees (r r' : Resolution) : Prop where
  state : r.state = r'.state
  resultClass : r.resultClass = r'.resultClass
  cause : r.cause = r'.cause
  conflicted : r.conflicted = r'.conflicted

theorem Agrees.refl (r : Resolution) : r.Agrees r := ⟨rfl, rfl, rfl, rfl⟩

theorem Agrees.symm (h : r.Agrees r') : r'.Agrees r :=
  ⟨h.state.symm, h.resultClass.symm, h.cause.symm, h.conflicted.symm⟩

theorem Agrees.trans {r'' : Resolution} (h : r.Agrees r') (h' : r'.Agrees r'') : r.Agrees r'' :=
  ⟨h.state.trans h'.state, h.resultClass.trans h'.resultClass, h.cause.trans h'.cause,
    h.conflicted.trans h'.conflicted⟩

theorem selectTier_agrees (r : Resolution) (administrative decisive : List EvidenceRecord) :
    (r.selectTier administrative decisive).Agrees r := by
  obtain ⟨_, heq⟩ := selectTier_eq r administrative decisive
  rw [heq]
  exact ⟨rfl, rfl, rfl, rfl⟩

theorem byAsymmetry_agrees (h : r.Agrees r') (witness : EvidenceRecord)
    (symmetry : LinkSymmetryGuarantee) :
    (r.byAsymmetry witness symmetry).Agrees (r'.byAsymmetry witness symmetry) := by
  unfold byAsymmetry
  dsimp only
  split
  · exact ⟨rfl, rfl, rfl, h.conflicted⟩
  · exact ⟨rfl, rfl, rfl, rfl⟩

theorem conflictedBy_agrees (r r' : Resolution) (tier : List EvidenceRecord) :
    (r.conflictedBy tier).Agrees (r'.conflictedBy tier) := ⟨rfl, rfl, rfl, rfl⟩

theorem byClaims_agrees (h : r.Agrees r') (tier : List EvidenceRecord) :
    (∃ s s', r.byClaims tier = some s ∧ r'.byClaims tier = some s' ∧ s.Agrees s') ∨
    r.byClaims tier = none ∧ r'.byClaims tier = none := by
  unfold byClaims
  split
  · exact .inl ⟨_, _, rfl, rfl, rfl, rfl, rfl, h.conflicted⟩
  split
  · exact .inl ⟨_, _, rfl, rfl, rfl, rfl, rfl, h.conflicted⟩
  split
  · exact .inl ⟨_, _, rfl, rfl, rfl, rfl, rfl, h.conflicted⟩
  · exact .inr ⟨rfl, rfl⟩

theorem crossCheckRemote_agrees (h : r.Agrees r') (symmetry : LinkSymmetryGuarantee)
    (htier : minimumTier decisive = minimumTier decisive')
    (hremote : decisive.filter (effectivePrecedence · = 4) =
      decisive'.filter (effectivePrecedence · = 4)) :
    (r.crossCheckRemote decisive symmetry).Agrees (r'.crossCheckRemote decisive' symmetry) := by
  unfold crossCheckRemote
  dsimp only
  rw [htier, hremote, h.state]
  split
  · split
    · exact ⟨h.state, h.resultClass, h.cause, h.conflicted⟩
    split
    · refine ⟨rfl, rfl, rfl, ?_⟩
      dsimp only [setState]
      rw [foldl_noteConflict, foldl_noteConflict]
      exact h.conflicted
    · exact ⟨rfl, rfl, rfl, rfl⟩
  · exact h

/-- What decisive records resolve to depends on the strongest tier and on the remote records. -/
theorem byDecisive_agrees (h : r.Agrees r') (symmetry : LinkSymmetryGuarantee)
    (hwinning : winningTier decisive = winningTier decisive')
    (htier : minimumTier decisive = minimumTier decisive')
    (hremote : decisive.filter (effectivePrecedence · = 4) =
      decisive'.filter (effectivePrecedence · = 4)) :
    (r.byDecisive administrative decisive symmetry).Agrees
      (r'.byDecisive administrative' decisive' symmetry) := by
  have hselect : (r.selectTier administrative decisive).Agrees
      (r'.selectTier administrative' decisive') :=
    (selectTier_agrees r administrative decisive).trans
      (h.trans (selectTier_agrees r' administrative' decisive').symm)
  unfold byDecisive
  dsimp only
  rw [hwinning]
  split
  · exact byAsymmetry_agrees hselect _ symmetry
  rcases byClaims_agrees hselect (winningTier decisive') with ⟨s, s', hs, hs', hagrees⟩ | ⟨hs, hs'⟩
  · rw [hs, hs']
    exact crossCheckRemote_agrees hagrees symmetry htier hremote
  · rw [hs, hs']
    exact conflictedBy_agrees ..

/-! ## Unanimous evidence -/

theorem asymmetryOf_eq_nil {claim : EvidenceClaim} (h : ∀ x ∈ decisive, x.claim = claim) :
    asymmetryOf decisive = [] := by
  refine List.filter_eq_nil_iff.mpr fun x hx => ?_
  simp only [Bool.and_eq_true, List.any_eq_true, not_and, not_exists]
  intro _ peer hpeer _
  rw [h x hx, h peer hpeer]
  exact fun hne => of_decide_eq_true hne rfl

theorem remote_agrees {state : LinkOperationalState}
    (h : ∀ x ∈ decisive, effectivePrecedence x = 4 →
      claimIsOperational x.claim = isOperationalState state) :
    (!(decisive.filter (effectivePrecedence · = 4)).any fun candidate =>
      claimIsOperational candidate.claim ≠ isOperationalState state) = true := by
  simpa [List.any_eq_false] using h

/-- A claim, presented as it is. -/
def presenting (claim : EvidenceClaim) : Resolution where
  state := stateOf (classFor claim)
  resultClass := classFor claim

/-- A unanimous tier presents its claim, an impairment with the strongest cause. -/
theorem byDecisive_presents {claim : EvidenceClaim} (hr : r.Agrees {}) (hne : decisive ≠ [])
    (h : Unanimous decisive claim) (symmetry : LinkSymmetryGuarantee) :
    (r.byDecisive administrative decisive symmetry).Agrees
      { presenting claim with
        cause := if claim = .degraded then strongestCause (winningTier decisive) else .none } := by
  have hone := (dedup_claims_eq (winningTier_ne_nil hne)).mpr h.tier
  unfold byDecisive
  dsimp only
  rw [asymmetryOf_eq_nil h.tier]
  dsimp only [List.head?_nil]
  unfold byClaims
  rw [hone]
  dsimp only
  generalize (if claim = .degraded then strongestCause (winningTier decisive) else .none) = cause
  unfold crossCheckRemote
  dsimp only
  have hconflicted := ((selectTier_agrees r administrative decisive).trans hr).conflicted
  split
  · rename_i hcross
    split
    · exact ⟨rfl, rfl, rfl, hconflicted⟩
    · rename_i hcontradiction
      exact absurd (remote_agrees (h.remote hcross.1)) hcontradiction
  · exact ⟨rfl, rfl, rfl, hconflicted⟩

theorem byDecisive_of_unanimous {claim : EvidenceClaim} (hr : r.Agrees {}) (hne : decisive ≠ [])
    (h : Unanimous decisive claim) (hclaim : claim ≠ .degraded)
    (symmetry : LinkSymmetryGuarantee) :
    (r.byDecisive administrative decisive symmetry).Agrees (presenting claim) := by
  have hpresents := @byDecisive_presents r administrative decisive claim hr hne h symmetry
  rwa [if_neg hclaim] at hpresents

/-- A state that no rule forces is presented by a unanimous tier only. -/
theorem unanimous_of_byDecisive {claim : EvidenceClaim} (hdegraded : claim ≠ .degraded)
    (hfaulted : claim ≠ .faulted) {symmetry : LinkSymmetryGuarantee}
    (h : (r.byDecisive administrative decisive symmetry).state = stateOf (classFor claim)) :
    Unanimous decisive claim := by
  -- A rule that is forced on the records ends in one of these three states.
  have hforced {s : LinkOperationalState} (hs : s = .degraded ∨ s = .faulted ∨
      s = .revalidationRequired) : s ≠ stateOf (classFor claim) := by
    rcases hs with rfl | rfl | rfl <;> cases claim <;>
      first | exact absurd rfl hdegraded | exact absurd rfl hfaulted | decide
  unfold byDecisive at h
  dsimp only at h
  split at h
  · refine absurd h (hforced ?_)
    unfold byAsymmetry
    dsimp only
    split
    · exact .inl rfl
    · exact .inr (.inr rfl)
  split at h
  · exact absurd h (hforced (.inr (.inr rfl)))
  rename_i s hs
  have hstate : s.state = stateOf (classFor claim) ∧ (minimumTier decisive < 4 →
      ∀ x ∈ decisive, effectivePrecedence x = 4 → claimIsOperational x.claim =
        isOperationalState s.state) := by
    unfold crossCheckRemote at h
    dsimp only at h
    split at h
    · split at h
      · rename_i hcross hagree
        refine ⟨h, fun _ x hx hfour => ?_⟩
        by_contra hne
        refine absurd hagree ?_
        rw [Bool.not_eq_true', Bool.not_eq_false]
        exact List.any_eq_true.mpr ⟨x, List.mem_filter.mpr ⟨hx, decide_eq_true hfour⟩,
          decide_eq_true hne⟩
      split at h
      · exact absurd h (hforced (.inl rfl))
      · exact absurd h (hforced (.inr (.inr rfl)))
    · rename_i hcross
      refine ⟨h, fun htier x hx hfour => absurd ⟨htier, ?_⟩ hcross⟩
      exact List.ne_nil_of_mem (List.mem_filter.mpr ⟨hx, decide_eq_true hfour⟩)
  obtain ⟨hstate, hremote⟩ := hstate
  refine ⟨?_, by rwa [hstate] at hremote⟩
  unfold byClaims at hs
  split at hs
  · rename_i claim' hone
    cases hs
    rw [stateOf_classFor_inj hstate] at hone
    intro x hx
    have hmem : x.claim ∈ ((winningTier decisive).map (·.claim)).dedup :=
      List.mem_dedup.mpr (List.mem_map_of_mem hx)
    rw [hone] at hmem
    exact List.mem_singleton.mp hmem
  split at hs
  · cases hs
    exact absurd hstate (hforced (.inl rfl))
  split at hs
  · cases hs
    exact absurd hstate (hforced (.inr (.inl rfl)))
  · cases hs

end Resolution

/-! ## Restrictions and observations -/

/-- The administrative statements among the records. -/
def administrativeIn (records : List EvidenceRecord) : List EvidenceRecord :=
  (records.filter fun x => (classify x).counted).filter (·.key.kind = .administrativeState)

/-- The observations among the records. -/
def observationsIn (records : List EvidenceRecord) : List EvidenceRecord :=
  (records.filter fun x => (classify x).counted).filter (·.key.kind ≠ .administrativeState)

/-- The claim by which administrative evidence restricts the link. -/
def restrictionOf (records : List EvidenceRecord) : Option EvidenceClaim :=
  if Resolution.disabledBy (administrativeIn records) then some .adminDisabled
  else if Resolution.drainedBy (administrativeIn records) then some .draining
  else none

/-- The observations of the strongest tier make this one claim, and the remote ones do not
contradict it. -/
structure Decides (records : List EvidenceRecord) (claim : EvidenceClaim) (tier : Nat) : Prop where
  present : ∃ x ∈ records, x.Observes ∧ effectivePrecedence x = tier
  strongest : ∀ x ∈ records, x.Observes → tier ≤ effectivePrecedence x
  unanimous : ∀ x ∈ records, x.Observes → effectivePrecedence x = tier → x.claim = claim
  remote : tier < 4 → ∀ x ∈ records, x.Observes → effectivePrecedence x = 4 →
    claimIsOperational x.claim = isOperationalState (stateOf (classFor claim))

section

variable {records : List EvidenceRecord} {record : LinkStateRecord} {claim : EvidenceClaim}

theorem mem_administrativeIn {x : EvidenceRecord} : x ∈ administrativeIn records ↔
    x ∈ records ∧ x.Counted ∧ x.key.kind = .administrativeState := by
  unfold administrativeIn
  rw [List.mem_filter, List.mem_filter, counted_iff, decide_eq_true_iff, and_assoc]

theorem mem_observationsIn {x : EvidenceRecord} :
    x ∈ observationsIn records ↔ x ∈ records ∧ x.Observes := by
  unfold observationsIn EvidenceRecord.Observes
  rw [List.mem_filter, List.mem_filter, counted_iff, decide_eq_true_iff, and_assoc]

theorem restrictionOf_sortBy : restrictionOf (sortBy evidenceLess records) = restrictionOf records := by
  have hany (p : EvidenceRecord → Bool) :
      (administrativeIn (sortBy evidenceLess records)).any p = (administrativeIn records).any p := by
    rw [Bool.eq_iff_iff]
    simp only [List.any_eq_true, mem_administrativeIn, mem_sortBy]
  unfold restrictionOf Resolution.disabledBy Resolution.drainedBy
  rw [hany, hany]

theorem restrictionOf_eq_none : restrictionOf records = none ↔ ∀ x ∈ records, x.Counted →
    x.key.kind = .administrativeState → x.claim ≠ .adminDisabled ∧ x.claim ≠ .draining := by
  have hnone : restrictionOf records = none ↔
      Resolution.disabledBy (administrativeIn records) = false ∧
      Resolution.drainedBy (administrativeIn records) = false := by
    unfold restrictionOf
    cases Resolution.disabledBy (administrativeIn records) <;>
      cases Resolution.drainedBy (administrativeIn records) <;> simp
  rw [hnone]
  unfold Resolution.disabledBy Resolution.drainedBy
  simp only [List.any_eq_false, mem_administrativeIn, decide_eq_true_eq]
  constructor
  · exact fun h x hx hcounted hkind => ⟨h.1 x ⟨hx, hcounted, hkind⟩, h.2 x ⟨hx, hcounted, hkind⟩⟩
  · exact fun h => ⟨fun x hx => (h x hx.1 hx.2.1 hx.2.2).1, fun x hx => (h x hx.1 hx.2.1 hx.2.2).2⟩

theorem unanimous_iff : observationsIn (sortBy evidenceLess records) ≠ [] ∧
    Resolution.Unanimous (observationsIn (sortBy evidenceLess records)) claim ↔
    ∃ tier, Decides records claim tier := by
  set decisive := observationsIn (sortBy evidenceLess records) with hdecisive
  have hmem {x : EvidenceRecord} : x ∈ decisive ↔ x ∈ records ∧ x.Observes := by
    rw [hdecisive, mem_observationsIn, mem_sortBy]
  constructor
  · rintro ⟨hne, htier, hremote⟩
    refine ⟨Resolution.minimumTier decisive, ?_, ?_, ?_, ?_⟩
    · obtain ⟨x, hx, hmin⟩ := Resolution.exists_minimumTier hne
      exact ⟨x, (hmem.mp hx).1, (hmem.mp hx).2, hmin⟩
    · exact fun x hx hobserves => Resolution.minimumTier_le (hmem.mpr ⟨hx, hobserves⟩)
    · exact fun x hx hobserves hmin =>
        htier x (Resolution.mem_winningTier.mpr ⟨hmem.mpr ⟨hx, hobserves⟩, hmin⟩)
    · exact fun hfour x hx hobserves => hremote hfour x (hmem.mpr ⟨hx, hobserves⟩)
  · rintro ⟨tier, ⟨y, hy, hobserves, htier⟩, hstrongest, hunanimous, hremote⟩
    have hne : decisive ≠ [] := List.ne_nil_of_mem (hmem.mpr ⟨hy, hobserves⟩)
    have hmin : Resolution.minimumTier decisive = tier := by
      obtain ⟨x, hx, hmin⟩ := Resolution.exists_minimumTier hne
      refine le_antisymm ?_ ?_
      · exact (Resolution.minimumTier_le (hmem.mpr ⟨hy, hobserves⟩)).trans_eq htier
      · rw [← hmin]
        exact hstrongest x (hmem.mp hx).1 (hmem.mp hx).2
    refine ⟨hne, fun x hx => ?_, fun hfour x hx => ?_⟩
    · obtain ⟨hx, hx'⟩ := Resolution.mem_winningTier.mp hx
      exact hunanimous x (hmem.mp hx).1 (hmem.mp hx).2 (hx'.trans hmin)
    · exact hremote (hmin ▸ hfour) x (hmem.mp hx).1 (hmem.mp hx).2

/-- The records in canonical order, each with what becomes of it. -/
def classified (records : List EvidenceRecord) : Resolution :=
  { dispositions := (sortBy evidenceLess records).map classify }

theorem resolveLinkState_gated (hintent : record.adminIntent = none)
    (h : restrictionOf records = some claim) : resolveLinkState records record =
      (classified records).underRestriction (administrativeIn (sortBy evidenceLess records)) := by
  rw [← restrictionOf_sortBy] at h
  unfold restrictionOf at h
  have hgate : (Resolution.disabledBy (administrativeIn (sortBy evidenceLess records)) ||
      Resolution.drainedBy (administrativeIn (sortBy evidenceLess records))) = true := by
    rw [Bool.or_eq_true]
    split at h
    · exact .inl ‹_›
    split at h
    · exact .inr ‹_›
    · cases h
  unfold resolveLinkState resolveOrdered
  rw [hintent]
  exact if_pos hgate

/-- Where nothing restricts the link, its observations decide. -/
theorem resolveLinkState_observed (hintent : record.adminIntent = none)
    (h : restrictionOf records = none) : resolveLinkState records record =
      let administrative := administrativeIn (sortBy evidenceLess records)
      let resolution := (classified records).underEnablement administrative
      if observationsIn (sortBy evidenceLess records) = [] then
        resolution.withoutEvidence record.everEstablished
      else resolution.byDecisive administrative (observationsIn (sortBy evidenceLess records))
        record.binding.symmetry := by
  rw [← restrictionOf_sortBy] at h
  unfold restrictionOf at h
  have hgate : (Resolution.disabledBy (administrativeIn (sortBy evidenceLess records)) ||
      Resolution.drainedBy (administrativeIn (sortBy evidenceLess records))) = false := by
    rw [Bool.or_eq_false_iff, ← Bool.not_eq_true, ← Bool.not_eq_true]
    split at h
    · cases h
    split at h
    · cases h
    · exact ⟨‹_›, ‹_›⟩
  unfold resolveLinkState resolveOrdered
  rw [hintent]
  refine (if_neg (Bool.eq_false_iff.mp hgate)).trans (if_congr ?_ rfl rfl)
  exact List.isEmpty_iff

theorem underEnablement_agrees (r : Resolution) (administrative : List EvidenceRecord) :
    (r.underEnablement administrative).Agrees r := by
  unfold Resolution.underEnablement
  split <;> exact ⟨rfl, rfl, rfl, rfl⟩

/-- Administrative evidence that restricts the link decides. -/
theorem resolveLinkState_restricted (hintent : record.adminIntent = none)
    (h : restrictionOf records = some claim) :
    (resolveLinkState records record).Agrees (.presenting claim) := by
  rw [resolveLinkState_gated hintent h]
  rw [← restrictionOf_sortBy] at h
  unfold restrictionOf at h
  unfold Resolution.underRestriction
  dsimp only
  split at h
  · rename_i hdisabled
    cases h
    rw [hdisabled]
    split <;> exact ⟨rfl, rfl, rfl, rfl⟩
  rename_i hdisabled
  split at h
  · cases h
    rw [Bool.eq_false_iff.mpr hdisabled]
    exact ⟨rfl, rfl, rfl, rfl⟩
  · cases h

/-- What the observations decide, without the explanation. -/
theorem resolveLinkState_free (hintent : record.adminIntent = none)
    (h : restrictionOf records = none) : ∃ r : Resolution, ∃ administrative, r.Agrees {} ∧
      resolveLinkState records record =
        if observationsIn (sortBy evidenceLess records) = [] then
          r.withoutEvidence record.everEstablished
        else r.byDecisive administrative (observationsIn (sortBy evidenceLess records))
          record.binding.symmetry :=
  ⟨(classified records).underEnablement (administrativeIn (sortBy evidenceLess records)),
    administrativeIn (sortBy evidenceLess records),
    (underEnablement_agrees _ _).trans ⟨rfl, rfl, rfl, rfl⟩, resolveLinkState_observed hintent h⟩

namespace Sample

/-- A carrier that is up. -/
def carrierUp : EvidenceRecord where claim := .up

/-- A remote end that reports an impairment. -/
def remoteImpaired : EvidenceRecord where
  key := { kind := .remoteEndpointState }
  claim := .degraded

/-- A test record that disables the link. -/
def syntheticDisable : EvidenceRecord where
  key := { kind := .administrativeState }
  evidenceClass := .synthetic
  claim := .adminDisabled

end Sample

/-! ## When a link is presented as UP -/

/-- A link is UP exactly when nothing restricts it, the strongest tier of its evidence says so,
and what the remote end says does not contradict it. -/
theorem up_iff (hintent : ∀ intent, record.adminIntent = some intent →
    restrictive intent.state = true) : (resolveLinkState records record).state = .up ↔
    record.adminIntent = none ∧
    (∀ x ∈ records, x.Counted → x.key.kind = .administrativeState →
      x.claim ≠ .adminDisabled ∧ x.claim ≠ .draining) ∧
    ∃ tier, (∃ x ∈ records, x.Observes ∧ effectivePrecedence x = tier) ∧
      (∀ x ∈ records, x.Observes → tier ≤ effectivePrecedence x) ∧
      (∀ x ∈ records, x.Observes → effectivePrecedence x = tier → x.claim = .up) ∧
      (tier < 4 → ∀ x ∈ records, x.Observes → effectivePrecedence x = 4 →
        x.claim = .up ∨ x.claim = .degraded) := by
  -- A remote record agrees with UP when its claim is operational.
  have hoperational (claim : EvidenceClaim) :
      claimIsOperational claim = isOperationalState (stateOf (classFor .up)) ↔
        claim = .up ∨ claim = .degraded := by
    cases claim <;> decide
  have hdecides : (∃ tier, (∃ x ∈ records, x.Observes ∧ effectivePrecedence x = tier) ∧
      (∀ x ∈ records, x.Observes → tier ≤ effectivePrecedence x) ∧
      (∀ x ∈ records, x.Observes → effectivePrecedence x = tier → x.claim = .up) ∧
      (tier < 4 → ∀ x ∈ records, x.Observes → effectivePrecedence x = 4 →
        x.claim = .up ∨ x.claim = .degraded)) ↔ ∃ tier, Decides records .up tier := by
    simp only [← hoperational]
    exact ⟨fun ⟨tier, h, h', h'', h'''⟩ => ⟨tier, h, h', h'', h'''⟩,
      fun ⟨tier, h, h', h'', h'''⟩ => ⟨tier, h, h', h'', h'''⟩⟩
  rw [hdecides, ← restrictionOf_eq_none]
  cases hadmin : record.adminIntent with
  | some intent =>
    have hrestrictive := hintent intent hadmin
    rw [resolveLinkState_underIntent hadmin hrestrictive]
    refine iff_of_false (fun hup => ?_) fun h => nomatch h.1
    rw [hup] at hrestrictive
    cases hrestrictive
  | none =>
    cases hrestriction : restrictionOf records with
    | some claim =>
      rw [(resolveLinkState_restricted hadmin hrestriction).state]
      refine iff_of_false (fun hup => ?_) fun h => nomatch h.2.1
      obtain rfl : claim = .up := stateOf_classFor_inj hup
      unfold restrictionOf at hrestriction
      split at hrestriction
      · cases hrestriction
      split at hrestriction <;> cases hrestriction
    | none =>
      obtain ⟨r, administrative, hr, heq⟩ :=
        @resolveLinkState_free records record hadmin hrestriction
      rw [heq, ← unanimous_iff]
      split
      · rename_i hnone
        refine iff_of_false (fun hup => ?_) fun h => h.2.2.1 hnone
        unfold Resolution.withoutEvidence at hup
        split at hup <;> cases hup
      · rename_i hsome
        constructor
        · intro hup
          have hup : (r.byDecisive administrative _ _).state = stateOf (classFor .up) := hup
          exact ⟨rfl, rfl, hsome, Resolution.unanimous_of_byDecisive (by decide) (by decide) hup⟩
        · intro h
          exact (Resolution.byDecisive_of_unanimous hr hsome h.2.2.2 (by decide) _).state

/-- A remote end that reports an impairment does not contradict UP. -/
theorem up_iff_sample :
    (resolveLinkState [Sample.carrierUp, Sample.remoteImpaired] {}).state = .up :=
  (up_iff fun _ h => by cases h).mpr ⟨rfl, by decide, 3, by decide, by decide, by decide, by decide⟩

/-! ## Synthetic evidence -/

/-- The records without the synthetic ones. -/
def withoutSynthetic (records : List EvidenceRecord) : List EvidenceRecord :=
  records.filter (·.evidenceClass ≠ .synthetic)

theorem observationsIn_withoutSynthetic :
    observationsIn (sortBy evidenceLess (withoutSynthetic records)) =
      withoutSynthetic (observationsIn (sortBy evidenceLess records)) := by
  unfold withoutSynthetic observationsIn
  rw [← ranks_evidenceLess.filter_sortBy]
  simp only [List.filter_filter]
  refine List.filter_congr fun x _ => ?_
  ac_rfl

theorem effectivePrecedence_synthetic {x : EvidenceRecord} (h : effectivePrecedence x < 5) :
    x.evidenceClass ≠ .synthetic := by
  intro hsynthetic
  unfold effectivePrecedence at h
  rw [if_pos hsynthetic] at h
  exact Nat.lt_irrefl 5 h

/-- Where an observation is above the weakest tier, synthetic records decide nothing. -/
theorem tiers_withoutSynthetic {decisive : List EvidenceRecord}
    (hreal : ∃ y ∈ decisive, effectivePrecedence y < 5) :
    Resolution.winningTier (withoutSynthetic decisive) = Resolution.winningTier decisive ∧
    Resolution.minimumTier (withoutSynthetic decisive) = Resolution.minimumTier decisive ∧
    (withoutSynthetic decisive).filter (effectivePrecedence · = 4) =
      decisive.filter (effectivePrecedence · = 4) := by
  obtain ⟨y, hy, hfive⟩ := hreal
  -- Synthetic evidence is of tier 5, so that no tier before it loses a record.
  have hkeep {tier : Nat} (htier : tier < 5) :
      (withoutSynthetic decisive).filter (effectivePrecedence · = tier) =
        decisive.filter (effectivePrecedence · = tier) := by
    unfold withoutSynthetic
    rw [List.filter_filter]
    refine List.filter_congr fun x _ => ?_
    by_cases hx : effectivePrecedence x = tier
    · rw [decide_eq_true hx, decide_eq_true (effectivePrecedence_synthetic (hx ▸ htier)),
        Bool.and_true]
    · rw [decide_eq_false hx, Bool.false_and]
  have hleast : Resolution.minimumTier decisive < 5 :=
    lt_of_le_of_lt (Resolution.minimumTier_le hy) hfive
  have hmem {x : EvidenceRecord} (hx : x ∈ decisive) (htier : effectivePrecedence x < 5) :
      x ∈ withoutSynthetic decisive :=
    List.mem_filter.mpr ⟨hx, decide_eq_true (effectivePrecedence_synthetic htier)⟩
  have hmin : Resolution.minimumTier (withoutSynthetic decisive) =
      Resolution.minimumTier decisive := by
    refine le_antisymm ?_ ?_
    · obtain ⟨x, hx, heq⟩ := Resolution.exists_minimumTier (List.ne_nil_of_mem hy)
      rw [← heq] at hleast ⊢
      exact Resolution.minimumTier_le (hmem hx hleast)
    · obtain ⟨x, hx, heq⟩ := Resolution.exists_minimumTier (List.ne_nil_of_mem (hmem hy hfive))
      rw [← heq]
      exact Resolution.minimumTier_le (List.mem_filter.mp hx).1
  refine ⟨?_, hmin, hkeep (by decide)⟩
  unfold Resolution.winningTier
  rw [hmin]
  exact hkeep hleast

theorem restrictionOf_cases (h : restrictionOf records = some claim) :
    claim = .adminDisabled ∨ claim = .draining := by
  unfold restrictionOf at h
  split at h
  · cases h
    exact .inl rfl
  split at h
  · cases h
    exact .inr rfl
  · cases h

/-- Evidence that restricts nothing does so without its synthetic records, too. -/
theorem restrictionOf_withoutSynthetic (h : restrictionOf records = none) :
    restrictionOf (withoutSynthetic records) = none := by
  rw [restrictionOf_eq_none] at h ⊢
  exact fun x hx => h x (List.mem_filter.mp hx).1

/-- With an observation that is real, synthetic records change nothing, unless it is synthetic
administrative evidence that restricts the link, against what the real evidence says. -/
theorem synthetic_outranked_iff (hreal : ∃ x ∈ records, x.evidenceClass = .real ∧
      x.status = .current ∧ x.claim ≠ .unknown ∧ x.key.kind ≠ .administrativeState ∧
      x.key.kind ≠ .syntheticTest) :
    (resolveLinkState (withoutSynthetic records) record).Agrees (resolveLinkState records record) ↔
      record.adminIntent ≠ none ∨
      restrictionOf (withoutSynthetic records) = restrictionOf records ∨
      restrictionOf (withoutSynthetic records) = none ∧
        ∃ claim tier, restrictionOf records = some claim ∧
          Decides (withoutSynthetic records) claim tier := by
  obtain ⟨y, hy, hclass, hcurrent, hclaim, hkind, htest⟩ := hreal
  have hcounted : y.Counted := ⟨hcurrent, by rw [hclass]; nofun, hclaim⟩
  have hmem : y ∈ observationsIn (sortBy evidenceLess records) :=
    mem_observationsIn.mpr ⟨(mem_sortBy _).mpr hy, hcounted, hkind⟩
  -- The real record stands in a tier before the synthetic one.
  have hfive : effectivePrecedence y < 5 := by
    unfold effectivePrecedence
    rw [if_neg (by rw [hclass]; nofun)]
    revert htest
    cases y.key.kind <;> decide
  have hmem' : y ∈ observationsIn (sortBy evidenceLess (withoutSynthetic records)) := by
    rw [observationsIn_withoutSynthetic]
    exact List.mem_filter.mpr ⟨hmem, decide_eq_true (effectivePrecedence_synthetic hfive)⟩
  cases hintent : record.adminIntent with
  | some intent =>
    refine iff_of_true ?_ (.inl nofun)
    unfold resolveLinkState resolveOrdered
    rw [hintent]
    exact ⟨rfl, rfl, rfl, rfl⟩
  | none =>
    rw [or_iff_right (not_not.mpr rfl)]
    cases hwithout : restrictionOf (withoutSynthetic records) with
    | some claim =>
      have hpresents := @resolveLinkState_restricted _ record claim hintent hwithout
      rw [or_iff_left (fun h => nomatch h.1)]
      cases hwith : restrictionOf records with
      | none => rw [restrictionOf_withoutSynthetic hwith] at hwithout; cases hwithout
      | some claim' =>
        have hpresents' := @resolveLinkState_restricted _ record claim' hintent hwith
        constructor
        · intro h
          have hstate := (hpresents.symm.trans (h.trans hpresents')).state
          rw [stateOf_classFor_inj hstate]
        · intro h
          cases h
          exact hpresents.trans hpresents'.symm
    | none =>
      obtain ⟨r, administrative, hr, heq⟩ := @resolveLinkState_free _ record hintent hwithout
      rw [if_neg (List.ne_nil_of_mem hmem')] at heq
      rw [heq]
      cases hwith : restrictionOf records with
      | none =>
        refine iff_of_true ?_ (.inl rfl)
        obtain ⟨r', administrative', hr', heq'⟩ := @resolveLinkState_free _ record hintent hwith
        rw [if_neg (List.ne_nil_of_mem hmem)] at heq'
        rw [heq']
        obtain ⟨hwinning, hmin, hremote⟩ := tiers_withoutSynthetic ⟨y, hmem, hfive⟩
        rw [observationsIn_withoutSynthetic]
        exact Resolution.byDecisive_agrees (hr.trans hr'.symm) _ hwinning hmin hremote
      | some claim =>
        have hpresents := @resolveLinkState_restricted _ record claim hintent hwith
        have hrestricts : claim ≠ .degraded ∧ claim ≠ .faulted := by
          rcases restrictionOf_cases hwith with rfl | rfl <;> decide
        rw [or_iff_right nofun]
        constructor
        · intro h
          have hunanimous := Resolution.unanimous_of_byDecisive hrestricts.1 hrestricts.2
            (h.trans hpresents).state
          obtain ⟨tier, hdecides⟩ := unanimous_iff.mp ⟨List.ne_nil_of_mem hmem', hunanimous⟩
          exact ⟨rfl, claim, tier, rfl, hdecides⟩
        · rintro ⟨-, claim', tier, hclaim', hdecides⟩
          obtain rfl : claim = claim' := Option.some.inj hclaim'
          obtain ⟨hne, hunanimous⟩ := unanimous_iff.mpr ⟨tier, hdecides⟩
          exact (Resolution.byDecisive_of_unanimous hr hne hunanimous hrestricts.1 _).trans
            hpresents.symm

theorem synthetic_outranked_sample :
    (resolveLinkState (withoutSynthetic [Sample.carrierUp, { Sample.carrierUp with
        evidenceClass := .synthetic, claim := .down }]) {}).Agrees
      (resolveLinkState [Sample.carrierUp, { Sample.carrierUp with
        evidenceClass := .synthetic, claim := .down }] {}) :=
  (synthetic_outranked_iff ⟨Sample.carrierUp, List.mem_cons_self, rfl, rfl, nofun, nofun, nofun⟩).mpr
    (.inr (.inl rfl))

/-- A test record disables a link whose carrier is up. -/
theorem synthetic_outranks :
    (resolveLinkState (withoutSynthetic [Sample.carrierUp, Sample.syntheticDisable]) {}).state =
      .up ∧
    (resolveLinkState [Sample.carrierUp, Sample.syntheticDisable] {}).state = .adminDisabled := by
  decide

end

end LinkState
