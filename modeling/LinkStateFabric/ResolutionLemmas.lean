import LinkStateFabric.Resolution

/-!
# Properties of the resolution

- **Soundness** (`resolveLinkState_sound`): the state is the one that the result class presents,
  and a resolution never retires a link.
- **What it reads of the record** (`resolveLinkState_congr`): the intent, whether a state was ever
  established, and the symmetry. Establishing a state does not change the resolution that
  established it (`resolveLinkState_establish`).
- **What resolves to UNKNOWN** (`resolveLinkState_cases`): nothing decisive, of a link that never
  left it. The first decisive record leaves it for an established state (`resolveLinkState_first`).
- **What it reads of the evidence** (`resolveLinkState_eq_of_perm`): neither the order of the
  records nor the bookkeeping of the engine.
-/

namespace LinkState

open Sorting

namespace Resolution

/-! ## Loops -/

/-- A loop that notes conflicts changes nothing else. -/
theorem foldl_noteConflict (l : List EvidenceRecord) (text : EvidenceRecord → Text)
    (r : Resolution) :
    l.foldl (fun resolution candidate => resolution.noteConflict (text candidate)) r =
      { r with conflicts := r.conflicts ++ l.map text } := by
  induction l generalizing r with
  | nil => simp
  | cons x l ih =>
    rw [List.foldl_cons, ih]
    simp [noteConflict]

/-- A loop that amends dispositions changes nothing else. -/
theorem foldl_amend (l : List EvidenceRecord) (p : EvidenceRecord → EvidenceDisposition → Bool)
    (f : EvidenceDisposition → EvidenceDisposition) (r : Resolution) :
    ∃ dispositions, l.foldl (fun resolution candidate => resolution.amend (p candidate) f) r =
      { r with dispositions } := by
  induction l generalizing r with
  | nil => exact ⟨r.dispositions, rfl⟩
  | cons x l ih =>
    obtain ⟨dispositions, heq⟩ := ih (r.amend (p x) f)
    exact ⟨dispositions, heq⟩

/-- The choice of a tier presents nothing: it adds a rule, and says what backs the tier. -/
theorem selectTier_eq (r : Resolution) (administrative decisive : List EvidenceRecord) :
    ∃ dispositions, r.selectTier administrative decisive =
      Resolution.pushRule { r with
        dispositions
        syntheticBacked :=
          (winningTier decisive).any (·.evidenceClass = EvidenceClass.synthetic) ||
            administrative.any (·.evidenceClass = EvidenceClass.synthetic) }
        (lit "RULE_PRECEDENCE_TIER: resolution used precedence tier " ++
          formatU64 (minimumTier decisive) ++ lit " with " ++
          formatU64 (winningTier decisive).length ++ lit " current evidence records") := by
  obtain ⟨dispositions, heq⟩ := foldl_amend
    (decisive.filter (minimumTier decisive < effectivePrecedence ·))
    (fun candidate d => d.observation = candidate.observation)
    (fun d => because (lit "; outranked by precedence tier " ++ formatU64 (minimumTier decisive))
      { d with counted := false }) r
  refine ⟨dispositions, ?_⟩
  unfold selectTier
  dsimp only
  rw [heq]

/-! ## Soundness -/

/-- The state is that of the result class, which is not RETIRED. -/
def Sound (resolution : Resolution) : Prop :=
  resolution.state = stateOf resolution.resultClass ∧ resolution.resultClass ≠ .retired

theorem classFor_ne_retired (claim : EvidenceClaim) : classFor claim ≠ .retired := by
  cases claim <;> decide

theorem underIntent_sound (r : Resolution) (intent : AdministrativeIntent) :
    Sound (r.underIntent intent) := ⟨rfl, classFor_ne_retired _⟩

theorem underRestriction_sound (r : Resolution) (administrative : List EvidenceRecord) :
    Sound (r.underRestriction administrative) := ⟨rfl, classFor_ne_retired _⟩

theorem withoutEvidence_sound (r : Resolution) (everEstablished : Bool) :
    Sound (r.withoutEvidence everEstablished) := by
  cases everEstablished
  · exact ⟨rfl, by simp [withoutEvidence, setState]⟩
  · exact ⟨rfl, by simp [withoutEvidence, setState]⟩

theorem byAsymmetry_sound (r : Resolution) (witness : EvidenceRecord)
    (symmetry : LinkSymmetryGuarantee) : Sound (r.byAsymmetry witness symmetry) := by
  unfold byAsymmetry
  dsimp only
  split
  · exact ⟨rfl, by simp [setState]⟩
  · exact ⟨rfl, by simp [setState]⟩

theorem conflictedBy_sound (r : Resolution) (tier : List EvidenceRecord) :
    Sound (r.conflictedBy tier) := ⟨rfl, by simp [conflictedBy, setState]⟩

theorem byClaims_sound {r r' : Resolution} {tier : List EvidenceRecord}
    (h : r.byClaims tier = some r') : Sound r' := by
  unfold byClaims at h
  split at h
  · cases h; exact ⟨rfl, classFor_ne_retired _⟩
  split at h
  · cases h; exact ⟨rfl, by simp [setState]⟩
  split at h
  · cases h; exact ⟨rfl, by simp [setState]⟩
  · cases h

theorem crossCheckRemote_sound {r : Resolution} (h : Sound r) (decisive : List EvidenceRecord)
    (symmetry : LinkSymmetryGuarantee) : Sound (r.crossCheckRemote decisive symmetry) := by
  unfold crossCheckRemote
  dsimp only
  split
  · split
    · exact h
    split
    · exact ⟨rfl, by simp [setState]⟩
    · exact ⟨rfl, by simp [setState]⟩
  · exact h

theorem byDecisive_sound (r : Resolution) (administrative decisive : List EvidenceRecord)
    (symmetry : LinkSymmetryGuarantee) : Sound (r.byDecisive administrative decisive symmetry) := by
  unfold byDecisive
  dsimp only
  split
  · exact byAsymmetry_sound ..
  split
  · exact conflictedBy_sound ..
  · rename_i h
    exact crossCheckRemote_sound (byClaims_sound h) ..

end Resolution

theorem resolveOrdered_sound (ordered : List EvidenceRecord) (record : LinkStateRecord) :
    (resolveOrdered ordered record).Sound := by
  unfold resolveOrdered
  dsimp only
  split
  · exact Resolution.underIntent_sound ..
  split
  · exact Resolution.underRestriction_sound ..
  split
  · exact Resolution.withoutEvidence_sound ..
  · exact Resolution.byDecisive_sound ..

theorem resolveLinkState_sound (records : List EvidenceRecord) (record : LinkStateRecord) :
    (resolveLinkState records record).Sound := resolveOrdered_sound ..

theorem resolveLinkState_ne_retired (records : List EvidenceRecord) (record : LinkStateRecord) :
    (resolveLinkState records record).state ≠ .retired := by
  obtain ⟨hs, hc⟩ := resolveLinkState_sound records record
  rw [hs]
  revert hc
  cases (resolveLinkState records record).resultClass <;> decide

/-! ## What the resolution reads of the record -/

theorem resolveLinkState_congr (records : List EvidenceRecord) {record record' : LinkStateRecord}
    (hi : record'.adminIntent = record.adminIntent)
    (he : record'.everEstablished = record.everEstablished)
    (hs : record'.binding.symmetry = record.binding.symmetry) :
    resolveLinkState records record' = resolveLinkState records record := by
  unfold resolveLinkState resolveOrdered
  rw [hi, he, hs]

/-- Whether a state was ever established is read only where nothing decisive is left. -/
theorem resolveLinkState_establish (records : List EvidenceRecord)
    {record record' : LinkStateRecord} (hi : record'.adminIntent = record.adminIntent)
    (hs : record'.binding.symmetry = record.binding.symmetry)
    (hu : (resolveLinkState records record).state ≠ .unknown)
    (hr : (resolveLinkState records record).state ≠ .revalidationRequired) :
    resolveLinkState records record' = resolveLinkState records record := by
  unfold resolveLinkState resolveOrdered at hu hr ⊢
  rw [hi, hs]
  cases hintent : record.adminIntent with
  | some intent => rfl
  | none =>
    simp only [hintent] at hu hr ⊢
    split
    · rfl
    rename_i hadmin
    rw [if_neg hadmin] at hu hr
    split
    · rename_i hdecisive
      rw [if_pos hdecisive] at hu hr
      cases hever : record.everEstablished with
      | false => rw [hever] at hu; exact absurd rfl hu
      | true => rw [hever] at hr; exact absurd rfl hr
    · rfl

/-! ## The strongest tier -/

theorem effectivePrecedence_le (record : EvidenceRecord) : effectivePrecedence record ≤ 5 := by
  unfold effectivePrecedence
  split
  · exact le_rfl
  · cases record.key.kind <;> decide

namespace Resolution

variable {decisive : List EvidenceRecord}

theorem minimumTier_le {x : EvidenceRecord} (hx : x ∈ decisive) :
    minimumTier decisive ≤ effectivePrecedence x := by
  have hfold (l : List EvidenceRecord) (tier : Nat) :
      l.foldl (fun tier candidate => min tier (effectivePrecedence candidate)) tier ≤ tier ∧
      ∀ x ∈ l, l.foldl (fun tier candidate => min tier (effectivePrecedence candidate)) tier ≤
        effectivePrecedence x := by
    induction l generalizing tier with
    | nil => exact ⟨Nat.le_refl tier, fun x hx => absurd hx List.not_mem_nil⟩
    | cons y l ih =>
      obtain ⟨htier, hall⟩ := ih (min tier (effectivePrecedence y))
      refine ⟨htier.trans (min_le_left _ _), fun x hx => ?_⟩
      rcases List.mem_cons.mp hx with rfl | hx
      · exact htier.trans (min_le_right _ _)
      · exact hall x hx
  exact (hfold decisive 6).2 x hx

theorem exists_minimumTier (hne : decisive ≠ []) :
    ∃ x ∈ decisive, effectivePrecedence x = minimumTier decisive := by
  have hfold (l : List EvidenceRecord) (tier : Nat) :
      l.foldl (fun tier candidate => min tier (effectivePrecedence candidate)) tier = tier ∨
      ∃ x ∈ l, effectivePrecedence x =
        l.foldl (fun tier candidate => min tier (effectivePrecedence candidate)) tier := by
    induction l generalizing tier with
    | nil => exact .inl rfl
    | cons y l ih =>
      rcases ih (min tier (effectivePrecedence y)) with heq | ⟨x, hx, heq⟩
      · rcases min_choice tier (effectivePrecedence y) with hmin | hmin
        · exact .inl (heq.trans hmin)
        · exact .inr ⟨y, List.mem_cons_self, (heq.trans hmin).symm⟩
      · exact .inr ⟨x, List.mem_cons_of_mem _ hx, heq⟩
  rcases hfold decisive 6 with heq | hmin
  · -- every tier is stronger than the one that the search starts with
    obtain ⟨x, hx⟩ := List.exists_mem_of_ne_nil _ hne
    have hle := minimumTier_le hx
    have heq : minimumTier decisive = 6 := heq
    have hfive := effectivePrecedence_le x
    omega
  · exact hmin

theorem mem_winningTier {x : EvidenceRecord} : x ∈ winningTier decisive ↔
    x ∈ decisive ∧ effectivePrecedence x = minimumTier decisive := by
  unfold winningTier
  rw [List.mem_filter, decide_eq_true_iff]

theorem winningTier_ne_nil (hne : decisive ≠ []) : winningTier decisive ≠ [] := by
  obtain ⟨x, hx, htier⟩ := exists_minimumTier hne
  exact List.ne_nil_of_mem (mem_winningTier.mpr ⟨hx, htier⟩)

theorem dedup_claims_eq {claim : EvidenceClaim} (hne : decisive ≠ []) :
    (decisive.map (·.claim)).dedup = [claim] ↔ ∀ x ∈ decisive, x.claim = claim := by
  constructor
  · intro h x hx
    have hmem : x.claim ∈ (decisive.map (·.claim)).dedup :=
      List.mem_dedup.mpr (List.mem_map_of_mem hx)
    rw [h] at hmem
    exact List.mem_singleton.mp hmem
  · intro h
    have hreplicate : decisive.map (·.claim) = List.replicate decisive.length claim :=
      List.eq_replicate_iff.mpr ⟨List.length_map _, by simpa using h⟩
    rw [hreplicate, List.replicate_dedup (by simpa using hne)]

end Resolution

/-! ## What resolves to an unknown state -/

theorem stateOf_classFor_inj {claim claim' : EvidenceClaim}
    (h : stateOf (classFor claim) = stateOf (classFor claim')) : claim = claim' := by
  cases claim <;> cases claim' <;> first | rfl | exact absurd h (by decide)

theorem stateOf_classFor {claim : EvidenceClaim} (h : claim ≠ .unknown) :
    stateOf (classFor claim) ≠ .unknown ∧ stateOf (classFor claim) ≠ .revalidationRequired := by
  cases claim <;> first | exact absurd rfl h | decide

namespace Resolution

variable {r r' : Resolution} {tier decisive : List EvidenceRecord}

theorem byClaims_ne_unknown (h : r.byClaims tier = some r')
    (hclaims : ∀ record ∈ tier, record.claim ≠ .unknown) : r'.state ≠ .unknown := by
  unfold byClaims at h
  split at h
  · rename_i claim hclaim
    cases h
    have hmem : claim ∈ (tier.map (·.claim)).dedup := by
      rw [hclaim]
      exact List.mem_singleton_self claim
    obtain ⟨record, hrecord, rfl⟩ := List.mem_map.mp (List.mem_dedup.mp hmem)
    exact (stateOf_classFor (hclaims record hrecord)).1
  split at h
  · cases h
    nofun
  split at h
  · cases h
    nofun
  · cases h

theorem crossCheckRemote_ne_unknown (h : r.state ≠ .unknown) (decisive : List EvidenceRecord)
    (symmetry : LinkSymmetryGuarantee) :
    (r.crossCheckRemote decisive symmetry).state ≠ .unknown := by
  unfold crossCheckRemote
  dsimp only
  split
  · split
    · exact h
    split
    · nofun
    · nofun
  · exact h

/-- Decisive evidence is never resolved to UNKNOWN. -/
theorem byDecisive_ne_unknown (r : Resolution) (administrative : List EvidenceRecord)
    (hclaims : ∀ record ∈ decisive, record.claim ≠ .unknown) (symmetry : LinkSymmetryGuarantee) :
    (r.byDecisive administrative decisive symmetry).state ≠ .unknown := by
  unfold byDecisive
  dsimp only
  split
  · unfold byAsymmetry
    dsimp only
    split <;> nofun
  split
  · nofun
  · rename_i hclaimed
    refine crossCheckRemote_ne_unknown (byClaims_ne_unknown hclaimed fun record hrecord => ?_)
      decisive symmetry
    exact hclaims record (List.mem_filter.mp hrecord).1

section One

variable {x : EvidenceRecord}

/-- Copies of one record are resolved by its claim. -/
theorem byClaims_one (r : Resolution) (h : ∀ record ∈ tier, record = x) (hx : x.claim ≠ .unknown) :
    ∃ r', r.byClaims tier = some r' ∧ r'.state ≠ .unknown ∧ r'.state ≠ .revalidationRequired := by
  obtain ⟨n, rfl⟩ : ∃ n, tier = List.replicate n x :=
    ⟨tier.length, List.eq_replicate_iff.mpr ⟨rfl, h⟩⟩
  unfold byClaims
  rw [List.map_replicate]
  cases n with
  | zero => exact ⟨_, rfl, nofun, nofun⟩
  | succ n =>
    rw [List.replicate_dedup n.succ_ne_zero]
    exact ⟨_, rfl, stateOf_classFor hx⟩

/-- One record alone has no peer in another direction. -/
theorem asymmetryOf_one (h : ∀ record ∈ tier, record = x) : asymmetryOf tier = [] := by
  refine List.filter_eq_nil_iff.mpr fun record hrecord => ?_
  rw [h record hrecord]
  simp only [Bool.and_eq_true, List.any_eq_true, not_and, not_exists]
  intro _ peer hpeer
  rw [h peer hpeer]
  simp

/-- One record alone is not compared with a remote view. -/
theorem minimumTier_one (h : ∀ record ∈ decisive, record = x)
    (hremote : decisive.filter (effectivePrecedence · = 4) ≠ []) : ¬ minimumTier decisive < 4 := by
  have hx : ∀ record ∈ decisive, effectivePrecedence record = 4 := by
    obtain ⟨remote, hmem⟩ := List.exists_mem_of_ne_nil _ hremote
    obtain ⟨hmem, hfour⟩ := List.mem_filter.mp hmem
    intro record hrecord
    rw [h record hrecord, ← h remote hmem]
    exact of_decide_eq_true hfour
  have hfold (l : List EvidenceRecord) (tier : Nat) (htier : 4 ≤ tier)
      (hl : ∀ record ∈ l, effectivePrecedence record = 4) :
      4 ≤ l.foldl (fun tier candidate => min tier (effectivePrecedence candidate)) tier := by
    induction l generalizing tier with
    | nil => exact htier
    | cons record l ih =>
      refine ih _ ?_ fun r hr => hl r (List.mem_cons_of_mem _ hr)
      exact le_min htier (hl record List.mem_cons_self).ge
  exact not_lt.mpr (hfold decisive 6 (by decide) hx)

/-- One decisive record alone establishes a state. -/
theorem byDecisive_one (r : Resolution) (administrative : List EvidenceRecord)
    (h : ∀ record ∈ decisive, record = x) (hx : x.claim ≠ .unknown)
    (symmetry : LinkSymmetryGuarantee) :
    (r.byDecisive administrative decisive symmetry).state ≠ .unknown ∧
    (r.byDecisive administrative decisive symmetry).state ≠ .revalidationRequired := by
  have htier : ∀ record ∈ winningTier decisive, record = x :=
    fun record hrecord => h record (List.mem_filter.mp hrecord).1
  unfold byDecisive
  dsimp only
  rw [asymmetryOf_one htier]
  obtain ⟨r', hclaimed, hstate⟩ := byClaims_one (r.selectTier administrative decisive) htier hx
  dsimp only [List.head?_nil]
  rw [hclaimed]
  unfold crossCheckRemote
  dsimp only
  rw [if_neg fun hcross => minimumTier_one h hcross.2 hcross.1]
  exact hstate

end One

end Resolution

theorem claim_of_counted {record : EvidenceRecord} (h : (classify record).counted = true) :
    record.claim ≠ .unknown := by
  unfold classify at h
  dsimp only at h
  split at h
  · cases h
  split at h
  · cases h
  split at h
  · cases h
  · assumption

/-- The record says something about the state of its link. -/
def EvidenceRecord.Decisive (record : EvidenceRecord) : Prop :=
  (classify record).counted = true ∧
    (record.key.kind = .administrativeState → record.claim = .adminDisabled ∨ record.claim = .draining)

section Decisive

variable {records : List EvidenceRecord} {record : LinkStateRecord}

/-- Evidence that neither restricts nor is of another kind is not decisive. -/
theorem not_decisive_of_free {counted : List EvidenceRecord}
    (hcounted : counted = (sortBy evidenceLess records).filter fun x => (classify x).counted)
    (hfree : ¬ (Resolution.disabledBy (counted.filter (·.key.kind = .administrativeState)) ||
      Resolution.drainedBy (counted.filter (·.key.kind = .administrativeState))) = true)
    (hnone : (counted.filter (·.key.kind ≠ .administrativeState)).isEmpty = true) :
    ∀ x ∈ records, ¬ x.Decisive := by
  intro x hx hdecisive
  have hx : x ∈ counted := by
    rw [hcounted]
    exact List.mem_filter.mpr ⟨(mem_sortBy _).mpr hx, hdecisive.1⟩
  by_cases hkind : x.key.kind = .administrativeState
  · refine hfree ?_
    simp only [Resolution.disabledBy, Resolution.drainedBy, Bool.or_eq_true, List.any_eq_true,
      List.mem_filter, decide_eq_true_eq]
    exact (hdecisive.2 hkind).imp (fun h => ⟨x, ⟨hx, hkind⟩, h⟩) fun h => ⟨x, ⟨hx, hkind⟩, h⟩
  · have hmem : x ∈ counted.filter (·.key.kind ≠ .administrativeState) :=
      List.mem_filter.mpr ⟨hx, decide_eq_true hkind⟩
    rw [List.isEmpty_iff.mp hnone] at hmem
    cases hmem

/-- Without an intent, evidence that restricts decides, then what is decisive of the other kinds,
then what was established before. -/
theorem resolveLinkState_cases (hintent : record.adminIntent = none) :
    (∃ x ∈ records, x.Decisive ∧ (resolveLinkState records record).state ≠ .unknown ∧
      (resolveLinkState records record).state ≠ .revalidationRequired) ∨
    (∃ r : Resolution, ∃ administrative decisive : List EvidenceRecord, decisive ≠ [] ∧
      (∀ x ∈ decisive, x ∈ records ∧ x.Decisive ∧ x.claim ≠ .unknown) ∧
      resolveLinkState records record =
        r.byDecisive administrative decisive record.binding.symmetry) ∨
    (∀ x ∈ records, ¬ x.Decisive) ∧ (resolveLinkState records record).state =
      if record.everEstablished then .revalidationRequired else .unknown := by
  have hmem (x : EvidenceRecord) : x ∈ sortBy evidenceLess records ↔ x ∈ records := mem_sortBy _
  unfold resolveLinkState resolveOrdered
  rw [hintent]
  dsimp only
  set counted := (sortBy evidenceLess records).filter fun x => (classify x).counted with hcounted
  have hcount {x : EvidenceRecord} : x ∈ counted ↔ x ∈ records ∧ (classify x).counted = true := by
    rw [hcounted, List.mem_filter, hmem]
  split
  -- The administrative gate: the link is disabled or draining.
  · rename_i hrestricted
    simp only [Resolution.disabledBy, Resolution.drainedBy, Bool.or_eq_true, List.any_eq_true,
      List.mem_filter, decide_eq_true_eq] at hrestricted
    refine .inl ?_
    obtain ⟨x, ⟨hx, -⟩, hclaim⟩ : ∃ x, (x ∈ counted ∧ x.key.kind = .administrativeState) ∧
        (x.claim = .adminDisabled ∨ x.claim = .draining) := by
      rcases hrestricted with ⟨x, hx, hclaim⟩ | ⟨x, hx, hclaim⟩
      · exact ⟨x, hx, .inl hclaim⟩
      · exact ⟨x, hx, .inr hclaim⟩
    refine ⟨x, (hcount.mp hx).1, ⟨(hcount.mp hx).2, fun _ => hclaim⟩, ?_⟩
    unfold Resolution.underRestriction
    dsimp only [Resolution.amend, Resolution.setState]
    split <;> exact ⟨nofun, nofun⟩
  rename_i hfree
  split
  · rename_i hnone
    refine .inr (.inr ⟨not_decisive_of_free hcounted hfree hnone, ?_⟩)
    unfold Resolution.withoutEvidence
    split <;> rfl
  · rename_i hsome
    refine .inr (.inl ⟨_, _, _, fun hnil => hsome (List.isEmpty_iff.mpr hnil), fun x hx => ?_, rfl⟩)
    obtain ⟨hx, hkind⟩ := List.mem_filter.mp hx
    obtain ⟨hrecords, hclassified⟩ := hcount.mp hx
    exact ⟨hrecords, ⟨hclassified, fun h => absurd h (of_decide_eq_true hkind)⟩,
      claim_of_counted hclassified⟩

/-- Where nothing is decisive, what was established before has to be validated again. -/
theorem resolveLinkState_idle (hintent : record.adminIntent = none)
    (h : ∀ x ∈ records, ¬ x.Decisive) : (resolveLinkState records record).state =
      if record.everEstablished then .revalidationRequired else .unknown := by
  rcases resolveLinkState_cases hintent with ⟨x, hx, hdecisive, -⟩ |
    ⟨_, _, decisive, hne, hmem, -⟩ | ⟨-, hstate⟩
  · exact absurd hdecisive (h x hx)
  · obtain ⟨x, hx⟩ := List.exists_mem_of_ne_nil _ hne
    exact absurd (hmem x hx).2.1 (h x (hmem x hx).1)
  · exact hstate

/-- Under an intent, or with decisive evidence, what was established before does not matter. -/
theorem resolveLinkState_decided {record' : LinkStateRecord}
    (hi : record'.adminIntent = record.adminIntent)
    (hs : record'.binding.symmetry = record.binding.symmetry)
    (h : record'.everEstablished = record.everEstablished ∨ record.adminIntent ≠ none ∨
      ∃ x ∈ records, x.Decisive) :
    resolveLinkState records record' = resolveLinkState records record := by
  rcases h with he | hintent | ⟨x, hx, hdecisive⟩
  · exact resolveLinkState_congr records hi he hs
  · obtain ⟨intent, hintent⟩ := Option.ne_none_iff_exists'.mp hintent
    unfold resolveLinkState resolveOrdered
    rw [hi, hintent]
  · unfold resolveLinkState resolveOrdered
    rw [hi, hs]
    cases record.adminIntent with
    | some intent => rfl
    | none =>
      dsimp only
      split
      · rfl
      rename_i hfree
      split
      · rename_i hnone
        exact absurd hdecisive (not_decisive_of_free rfl hfree hnone x hx)
      · rfl

/-- A state is established by an intent or by decisive evidence. -/
theorem decisive_of_established (hu : (resolveLinkState records record).state ≠ .unknown)
    (hr : (resolveLinkState records record).state ≠ .revalidationRequired) :
    record.adminIntent ≠ none ∨ ∃ x ∈ records, x.Decisive := by
  refine or_iff_not_imp_left.mpr fun hintent => ?_
  rcases resolveLinkState_cases (not_not.mp hintent) with ⟨x, hx, hdecisive, -⟩ |
    ⟨_, _, decisive, hne, hmem, -⟩ | ⟨-, hstate⟩
  · exact ⟨x, hx, hdecisive⟩
  · obtain ⟨x, hx⟩ := List.exists_mem_of_ne_nil _ hne
    exact ⟨x, (hmem x hx).1, (hmem x hx).2.1⟩
  · cases hever : record.everEstablished with
    | false => exact absurd (hstate.trans (by rw [hever]; rfl)) hu
    | true => exact absurd (hstate.trans (by rw [hever]; rfl)) hr

/-- A link resolves to UNKNOWN where it never left it and nothing is decisive. -/
theorem of_resolveLinkState_unknown (hintent : record.adminIntent = none)
    (h : (resolveLinkState records record).state = .unknown) :
    record.everEstablished = false ∧ ∀ x ∈ records, ¬ x.Decisive := by
  rcases resolveLinkState_cases hintent with ⟨_, -, -, hne, -⟩ |
    ⟨_, _, decisive, -, hmem, heq⟩ | ⟨hidle, hstate⟩
  · exact absurd h hne
  · rw [heq] at h
    exact absurd h (Resolution.byDecisive_ne_unknown _ _ (fun x hx => (hmem x hx).2.2) _)
  · refine ⟨?_, hidle⟩
    rw [h] at hstate
    cases hever : record.everEstablished with
    | false => rfl
    | true =>
      rw [hever] at hstate
      cases hstate

/-- A link of which nothing was known is known once one record is decisive. -/
theorem resolveLinkState_first (hintent : record.adminIntent = none)
    (hever : record.everEstablished = false) {x : EvidenceRecord}
    (h : ∀ y ∈ records, ¬ y.Decisive ∨ y = x) :
    (resolveLinkState records record).state ≠ .revalidationRequired := by
  rcases resolveLinkState_cases hintent with ⟨_, -, -, -, hne⟩ |
    ⟨_, _, decisive, hne, hmem, heq⟩ | ⟨-, hstate⟩
  · exact hne
  · have hone : ∀ y ∈ decisive, y = x := fun y hy =>
      (h y (hmem y hy).1).resolve_left (not_not.mpr (hmem y hy).2.1)
    obtain ⟨y, hy⟩ := List.exists_mem_of_ne_nil _ hne
    have hclaim : x.claim ≠ .unknown := by
      rw [← hone y hy]
      exact (hmem y hy).2.2
    rw [heq]
    exact (Resolution.byDecisive_one _ _ hone hclaim _).2
  · rw [hstate, hever]
    nofun

end Decisive

/-! ## What the resolution reads of the evidence -/

/-- A record without the bookkeeping of the engine, its status apart. -/
def EvidenceRecord.strip (record : EvidenceRecord) : EvidenceRecord :=
  { record with evidenceGeneration := .zero, commitSequence := .zero, recordDigest := .zero }

theorem EvidenceRecord.decisive_strip {record : EvidenceRecord} :
    record.strip.Decisive ↔ record.Decisive := Iff.rfl

section Strip

open EvidenceRecord (strip)
open Resolution

variable (l : List EvidenceRecord)

theorem filter_strip (p : EvidenceRecord → Bool) (hp : ∀ r, p r.strip = p r) :
    (l.map strip).filter p = (l.filter p).map strip := by
  rw [List.filter_map]
  exact congrArg (List.map strip) (List.filter_congr fun r _ => hp r)

theorem disabledBy_strip : disabledBy (l.map strip) = disabledBy l := List.any_map

theorem drainedBy_strip : drainedBy (l.map strip) = drainedBy l := List.any_map

theorem minimumTier_strip : minimumTier (l.map strip) = minimumTier l := by
  unfold minimumTier; rw [List.foldl_map]; rfl

theorem strongestCause_strip : strongestCause (l.map strip) = strongestCause l := by
  unfold strongestCause; rw [List.foldl_map]; rfl

theorem winningTier_strip : winningTier (l.map strip) = (winningTier l).map strip := by
  unfold winningTier
  rw [minimumTier_strip]
  exact filter_strip l _ fun _ => rfl

theorem asymmetryOf_strip : asymmetryOf (l.map strip) = (asymmetryOf l).map strip := by
  unfold asymmetryOf
  rw [List.filter_map]
  refine congrArg (List.map strip) (List.filter_congr fun r _ => ?_)
  simp only [Function.comp, List.any_map]
  rfl

theorem selectTier_strip (r : Resolution) (administrative decisive : List EvidenceRecord) :
    r.selectTier (administrative.map strip) (decisive.map strip) =
      r.selectTier administrative decisive := by
  unfold selectTier
  simp only [winningTier_strip, minimumTier_strip, List.any_map, List.length_map]
  rw [filter_strip decisive _ fun _ => rfl, List.foldl_map]
  rfl

theorem byClaims_strip (r : Resolution) : r.byClaims (l.map strip) = r.byClaims l := by
  unfold byClaims
  rw [List.map_map, strongestCause_strip]
  rfl

theorem conflictedBy_strip (r : Resolution) : r.conflictedBy (l.map strip) = r.conflictedBy l := by
  unfold conflictedBy
  rw [List.foldl_map]
  rfl

theorem crossCheckRemote_strip (r : Resolution) (symmetry : LinkSymmetryGuarantee) :
    r.crossCheckRemote (l.map strip) symmetry = r.crossCheckRemote l symmetry := by
  unfold crossCheckRemote
  rw [minimumTier_strip, filter_strip l _ fun _ => rfl]
  simp only [ne_eq, List.map_eq_nil_iff, List.any_map, List.foldl_map]
  rfl

theorem byDecisive_strip (r : Resolution) (administrative decisive : List EvidenceRecord)
    (symmetry : LinkSymmetryGuarantee) :
    r.byDecisive (administrative.map strip) (decisive.map strip) symmetry =
      r.byDecisive administrative decisive symmetry := by
  unfold byDecisive
  simp only [selectTier_strip, winningTier_strip, asymmetryOf_strip, byClaims_strip,
    conflictedBy_strip, crossCheckRemote_strip, List.head?_map]
  cases (asymmetryOf (winningTier decisive)).head? <;> rfl

theorem resolveOrdered_strip (record : LinkStateRecord) :
    resolveOrdered (l.map strip) record = resolveOrdered l record := by
  have hcounted := filter_strip l (fun c => (classify c).counted) fun _ => rfl
  have hclassify : (l.map strip).map classify = l.map classify := by
    rw [List.map_map]; rfl
  unfold resolveOrdered
  rw [hcounted, hclassify]
  simp only [filter_strip _ (fun c => decide (c.key.kind = .administrativeState)) fun _ => rfl,
    filter_strip _ (fun c => decide (c.key.kind ≠ .administrativeState)) fun _ => rfl,
    disabledBy_strip, drainedBy_strip, byDecisive_strip, List.isEmpty_map, underRestriction,
    underEnablement]

end Strip

/-- The fields in the order in which `evidenceLess` compares them. -/
def EvidenceRecord.rank (record : EvidenceRecord) :
    (LinkId ×ₗ SourceId ×ₗ EndpointId ×ₗ Nat ×ₗ Nat) ×ₗ ObservationId ×ₗ PublisherId ×ₗ U64 :=
  toLex (record.key.rank, toLex (record.observation, toLex (record.publisher, record.sequence)))

theorem ranks_evidenceLess : Ranks evidenceLess EvidenceRecord.rank := fun a b => by
  unfold evidenceLess EvidenceRecord.rank
  refine lex_step EvidenceKey.rank_injective.ne_iff.symm (EvidenceKey.ranks_less _ _) fun _ => ?_
  refine lex_step Iff.rfl decide_eq_true_iff fun _ => ?_
  exact lex_step Iff.rfl decide_eq_true_iff fun _ => decide_eq_true_iff

/-- Records of different keys have different ranks. -/
theorem nodup_rank_of_key {l : List EvidenceRecord} (h : (l.map (·.key)).Nodup) :
    (l.map EvidenceRecord.rank).Nodup := by
  rw [List.Nodup, List.pairwise_map] at h ⊢
  refine h.imp fun hne heq => hne (EvidenceKey.rank_injective ?_)
  exact congrArg (fun p => (ofLex p).1) heq

theorem resolveLinkState_strip (l : List EvidenceRecord) (record : LinkStateRecord) :
    resolveLinkState (l.map EvidenceRecord.strip) record = resolveLinkState l record := by
  have hmap : (sortBy evidenceLess l).map EvidenceRecord.strip =
      sortBy evidenceLess (l.map EvidenceRecord.strip) :=
    @map_sortBy _ evidenceLess _ evidenceLess EvidenceRecord.strip (fun _ _ => rfl) l
  unfold resolveLinkState
  rw [← hmap, resolveOrdered_strip]

/-- Two lists that hold the same records up to bookkeeping resolve alike. -/
theorem resolveLinkState_eq_of_perm {l l' : List EvidenceRecord}
    (hp : (l.map EvidenceRecord.strip).Perm (l'.map EvidenceRecord.strip))
    (hl : (l.map (·.key)).Nodup) (record : LinkStateRecord) :
    resolveLinkState l record = resolveLinkState l' record := by
  have hnodup : ((l.map EvidenceRecord.strip).map (·.key)).Nodup := by
    rw [List.map_map]; exact hl
  rw [← resolveLinkState_strip l, ← resolveLinkState_strip l']
  unfold resolveLinkState
  rw [ranks_evidenceLess.sortBy_eq_of_perm hp (nodup_rank_of_key hnodup)]

end LinkState
