import LinkStateFabric.Results.Rules

/-!
# What the records that do not count are worth

* `Resolution.Reports`: the dispositions of a resolution, record by record. A record is reported as
  counted by what it is, until enablement and the strongest tier discount it
  (`Resolution.Reports.discount`).
* `counting`: the records that are left when those reported as not counted are removed
  (`counting_observed`: the strongest tier).
* `Overruled`: the one way in which a record that is reported as outranked takes part in the answer,
  the comparison with the remote end. `counting_iff`: the answer is otherwise the same without the
  records that do not count, where no DRAINING is set against another (`Resolution.Echoed`).
-/

namespace LinkState

open Sorting

/-! ## Dispositions -/

namespace Resolution

variable {r : Resolution} {ordered : List EvidenceRecord} {p : EvidenceRecord → Bool}

/-- The dispositions are those of the records in this order, and report these as counted. -/
def Reports (r : Resolution) (ordered : List EvidenceRecord) (p : EvidenceRecord → Bool) : Prop :=
  ∃ f : EvidenceRecord → EvidenceDisposition, r.dispositions = ordered.map f ∧
    ∀ x ∈ ordered, (f x).observation = x.observation ∧ (f x).kind = x.key.kind ∧
      (f x).counted = p x

theorem Reports.congr {r' : Resolution} {p' : EvidenceRecord → Bool} (h : r.Reports ordered p)
    (hr : r'.dispositions = r.dispositions) (hp : ∀ x ∈ ordered, p' x = p x) :
    r'.Reports ordered p' := by
  obtain ⟨f, hf, hall⟩ := h
  exact ⟨f, hr.trans hf, fun x hx => ⟨(hall x hx).1, (hall x hx).2.1, (hall x hx).2.2.trans (hp x hx).symm⟩⟩

theorem reports_classified (records : List EvidenceRecord) :
    (classified records).Reports (sortBy evidenceLess records) fun x => (classify x).counted := by
  refine ⟨classify, rfl, fun x _ => ⟨?_, ?_, rfl⟩⟩
  · unfold classify
    dsimp only
    split_ifs <;> rfl
  · unfold classify
    dsimp only
    split_ifs <;> rfl

/-- A reason that is added changes nothing else. -/
theorem Reports.because (h : r.Reports ordered p) (q : EvidenceDisposition → Bool) (suffix : Text) :
    (r.amend q (because suffix)).Reports ordered p := by
  obtain ⟨f, hf, hall⟩ := h
  refine ⟨fun x => if q (f x) then Resolution.because suffix (f x) else f x, ?_, fun x hx => ?_⟩
  · unfold amend
    rw [hf, List.map_map]
    rfl
  · dsimp only
    split <;> exact hall x hx

/-- A record whose disposition is discounted does not count any more. -/
theorem Reports.discount (h : r.Reports ordered p) {q : EvidenceDisposition → Bool}
    {k : EvidenceRecord → Bool} (hq : ∀ x ∈ ordered, ∀ d : EvidenceDisposition,
      d.observation = x.observation → d.kind = x.key.kind → d.counted = p x → q d = k x)
    (suffix : Text) :
    (r.amend q fun d => Resolution.because suffix { d with counted := false }).Reports ordered
      fun x => p x && !k x := by
  obtain ⟨f, hf, hall⟩ := h
  refine ⟨fun x => if q (f x) then Resolution.because suffix { f x with counted := false } else f x,
    ?_, fun x hx => ?_⟩
  · unfold amend
    rw [hf, List.map_map]
    rfl
  · obtain ⟨hobservation, hkind, hcounted⟩ := hall x hx
    dsimp only
    rw [hq x hx (f x) hobservation hkind hcounted]
    split
    · rename_i hk
      exact ⟨hobservation, hkind, by rw [hk, Bool.not_true, Bool.and_false]; rfl⟩
    · rename_i hk
      exact ⟨hobservation, hkind, by rw [Bool.eq_false_iff.mpr hk, Bool.not_false, Bool.and_true,
        hcounted]⟩

theorem reports_underEnablement (records : List EvidenceRecord) :
    ((classified records).underEnablement (administrativeIn (sortBy evidenceLess records))).Reports
      (sortBy evidenceLess records)
      fun x => (classify x).counted && decide (x.key.kind ≠ .administrativeState) := by
  have h := reports_classified records
  unfold underEnablement
  split
  · rename_i hnone
    refine h.congr rfl fun x hx => ?_
    cases hcounted : (classify x).counted with
    | false => rfl
    | true =>
      rw [Bool.true_and, decide_eq_true_iff]
      intro hkind
      have hmem := mem_administrativeIn.mpr ⟨hx, counted_iff.mp hcounted, hkind⟩
      rw [List.isEmpty_iff.mp hnone] at hmem
      cases hmem
  · refine Reports.congr (Reports.discount (h.congr rfl fun _ _ => rfl) (k := fun x =>
      (classify x).counted && decide (x.key.kind = .administrativeState)) ?_ _) rfl ?_
    · intro x _ d _ hkind hcounted
      rw [hcounted, hkind]
    · intro x _
      cases (classify x).counted <;> simp

theorem reports_selectTier (h : r.Reports ordered p) (administrative decisive : List EvidenceRecord) :
    (r.selectTier administrative decisive).Reports ordered fun x =>
      p x && !(decisive.filter (minimumTier decisive < effectivePrecedence ·)).any
        (·.observation = x.observation) := by
  have hfold (l : List EvidenceRecord) (suffix : Text) (r : Resolution) (p : EvidenceRecord → Bool)
      (h : r.Reports ordered p) : (l.foldl (fun resolution candidate =>
        resolution.amend (·.observation = candidate.observation) fun d =>
          Resolution.because suffix { d with counted := false }) r).Reports ordered
        fun x => p x && !l.any (·.observation = x.observation) := by
    induction l generalizing r p with
    | nil => exact h.congr rfl fun x _ => by rw [List.any_nil, Bool.not_false, Bool.and_true]
    | cons y l ih =>
      have hstep := h.discount (q := fun d => decide (d.observation = y.observation))
        (k := fun x => decide (y.observation = x.observation))
        (fun x _ d hobservation _ _ => by
          rw [hobservation]
          exact decide_eq_decide.mpr eq_comm) suffix
      refine (ih _ _ hstep).congr rfl fun x _ => ?_
      rw [List.any_cons, Bool.not_or, Bool.and_assoc]
  exact (hfold _ _ r p h).congr rfl fun _ _ => rfl

/-- After the strongest tier is selected, no rule touches the dispositions. -/
theorem byDecisive_dispositions (administrative decisive : List EvidenceRecord)
    (symmetry : LinkSymmetryGuarantee) :
    (r.byDecisive administrative decisive symmetry).dispositions =
      (r.selectTier administrative decisive).dispositions := by
  -- A conflict is noted without another disposition.
  have hfold (l : List EvidenceRecord) (text : EvidenceRecord → Text) (r : Resolution) :
      (l.foldl (fun resolution candidate =>
        resolution.noteConflict (text candidate)) r).dispositions = r.dispositions :=
    congrArg (·.dispositions) (foldl_noteConflict l text r)
  unfold byDecisive
  dsimp only
  split
  · unfold byAsymmetry
    dsimp only
    split <;> rfl
  split
  · exact hfold ..
  rename_i resolution hclaims
  have hclaimed : resolution.dispositions = (r.selectTier administrative decisive).dispositions := by
    unfold byClaims at hclaims
    split at hclaims
    · cases hclaims
      rfl
    split at hclaims
    · cases hclaims
      rfl
    split at hclaims <;> cases hclaims
    rfl
  unfold crossCheckRemote
  dsimp only
  split
  · split
    · exact hclaimed
    split
    · exact (hfold ..).trans hclaimed
    · exact (hfold ..).trans hclaimed
  · exact hclaimed

end Resolution

/-! ## The records that count -/

section

variable {records : List EvidenceRecord} {record : LinkStateRecord}

/-- The records without those that the resolution reports as not counted. -/
def counting (records : List EvidenceRecord) (record : LinkStateRecord) : List EvidenceRecord :=
  records.filter fun x => !(resolveLinkState records record).dispositions.any fun d =>
    d.observation = x.observation && !d.counted

theorem counting_eq {p : EvidenceRecord → Bool}
    (h : (resolveLinkState records record).Reports (sortBy evidenceLess records) p)
    (hnodup : (records.map (·.observation)).Nodup) : counting records record = records.filter p := by
  obtain ⟨f, hf, hall⟩ := h
  refine List.filter_congr fun x hx => ?_
  have hx' := (mem_sortBy evidenceLess).mpr hx
  have hother : ∀ y ∈ sortBy evidenceLess records, y.observation = x.observation → y = x :=
    fun y hy heq => List.inj_on_of_nodup_map hnodup ((mem_sortBy _).mp hy) hx heq
  rw [hf, List.any_map, Bool.eq_iff_iff, Bool.not_eq_true', List.any_eq_false]
  simp only [Function.comp, Bool.and_eq_true, decide_eq_true_eq, Bool.not_eq_true', not_and,
    Bool.not_eq_false]
  constructor
  · intro h
    rw [← (hall x hx').2.2]
    exact h x hx' (hall x hx').1
  · intro h y hy hobservation
    rw [hother y hy ((hall y hy).1.symm.trans hobservation), (hall x hx').2.2]
    exact h

/-- Under an intent and under a restriction, the records that count are the decisive ones. -/
theorem counting_classified (hnodup : (records.map (·.observation)).Nodup)
    (h : record.adminIntent ≠ none ∨ restrictionOf records ≠ none) :
    counting records record = records.filter fun x => (classify x).counted := by
  refine counting_eq ?_ hnodup
  have hclassified := Resolution.reports_classified records
  cases hintent : record.adminIntent with
  | some intent =>
    unfold resolveLinkState resolveOrdered
    rw [hintent]
    exact (hclassified.because _ _).congr rfl fun _ _ => rfl
  | none =>
    obtain ⟨claim, hclaim⟩ := Option.ne_none_iff_exists'.mp (h.resolve_left (not_not.mpr hintent))
    rw [resolveLinkState_gated hintent hclaim]
    unfold Resolution.underRestriction
    dsimp only
    split
    · exact (hclassified.because _ _).congr rfl fun _ _ => rfl
    · exact (hclassified.because _ _).congr rfl fun _ _ => rfl

/-- Where the observations decide, the records that count are those of the strongest tier. -/
theorem counting_observed (hnodup : (records.map (·.observation)).Nodup)
    (hintent : record.adminIntent = none) (h : restrictionOf records = none) :
    counting records record = records.filter fun x => decide (Wins records x) := by
  refine counting_eq ?_ hnodup
  have henabled := Resolution.reports_underEnablement records
  have hobserves (x : EvidenceRecord) : ((classify x).counted &&
      decide (x.key.kind ≠ .administrativeState)) = decide x.Observes := by
    rw [Bool.eq_iff_iff, Bool.and_eq_true, counted_iff, decide_eq_true_iff, decide_eq_true_iff]
    exact Iff.rfl
  rw [resolveLinkState_observed hintent h]
  dsimp only
  split
  · rename_i hnone
    refine henabled.congr ?_ fun x hx => ?_
    · unfold Resolution.withoutEvidence
      split <;> rfl
    · rw [hobserves]
      have hno : ¬ x.Observes := fun hobs => by
        have hmem := mem_observationsIn.mpr ⟨hx, hobs⟩
        rw [hnone] at hmem
        cases hmem
      rw [decide_eq_false hno, decide_eq_false fun hwins => hno hwins.2.1]
  · rename_i hsome
    refine (Resolution.reports_selectTier henabled _ _).congr
      (Resolution.byDecisive_dispositions _ _ _) fun x hx => ?_
    set decisive := observationsIn (sortBy evidenceLess records) with hdecisive
    rw [hobserves]
    by_cases hobs : x.Observes
    · have hmem : x ∈ decisive := mem_observationsIn.mpr ⟨hx, hobs⟩
      rw [decide_eq_true hobs, Bool.true_and, ← decide_eq_decide.mpr mem_winningTier_observations,
        Bool.eq_iff_iff, decide_eq_true_iff, Bool.not_eq_true', List.any_eq_false]
      simp only [List.mem_filter, decide_eq_true_eq, Resolution.mem_winningTier, and_imp]
      -- A record counts where no record of a lower tier stands beside it.
      constructor
      · rintro ⟨-, htier⟩ y hy hlt heq
        have hrecords {z : EvidenceRecord} (hz : z ∈ decisive) : z ∈ records :=
          (mem_sortBy _).mp (mem_observationsIn.mp hz).1
        rw [List.inj_on_of_nodup_map hnodup (hrecords hy) (hrecords hmem) heq] at hlt
        exact absurd htier hlt.ne'
      · intro hout
        have hle := Resolution.minimumTier_le hmem
        exact ⟨hmem, le_antisymm (not_lt.mp fun hlt => hout x hmem hlt rfl) hle⟩
    · rw [decide_eq_false hobs, Bool.false_and, decide_eq_false fun hwins => hobs hwins.2.1]

/-! ## The answer of the strongest tier -/

namespace Resolution

variable {r : Resolution} {administrative decisive tier : List EvidenceRecord}

/-- The claims of a tier settle whether the link is operational: they agree about it, or with each
other. -/
def Settles (tier : List EvidenceRecord) : Bool → Prop
  | true => (∀ x ∈ tier, claimIsOperational x.claim = true) ∨ ∀ x ∈ tier, x.claim = .draining
  | false => (∀ x ∈ tier, claimIsFaultOrDown x.claim = true) ∨ ∀ x ∈ tier, x.claim = .adminDisabled

/-- The cross-check sets a remote record against what the strongest tier settles. -/
structure Opposed (decisive : List EvidenceRecord) : Prop where
  symmetric : asymmetryOf (winningTier decisive) = []
  stronger : minimumTier decisive < 4
  remote : ∃ operational, Settles (winningTier decisive) operational ∧
    ∃ x ∈ decisive, effectivePrecedence x = 4 ∧ claimIsOperational x.claim ≠ operational

/-- The record says the same as a tier that claims DRAINING. -/
def SaysDraining (tier : List EvidenceRecord) (x : EvidenceRecord) : Prop :=
  x.claim = .draining ∧ ∀ y ∈ tier, y.claim = .draining

/-- A remote record contradicts what the strongest tier settles. -/
structure Contradicted (decisive : List EvidenceRecord) : Prop where
  symmetric : asymmetryOf (winningTier decisive) = []
  stronger : minimumTier decisive < 4
  remote : ∃ operational, Settles (winningTier decisive) operational ∧
    ∃ x ∈ decisive, effectivePrecedence x = 4 ∧ claimIsOperational x.claim ≠ operational ∧
      ¬ SaysDraining (winningTier decisive) x

/-- Nothing contradicts a tier that claims DRAINING, but a remote record claims DRAINING too. As a
claim this is not operational, as a state it is: the cross-check takes it for a contradiction. -/
structure Echoed (decisive : List EvidenceRecord) : Prop where
  symmetric : asymmetryOf (winningTier decisive) = []
  stronger : minimumTier decisive < 4
  remote : ∃ x ∈ decisive, effectivePrecedence x = 4 ∧ SaysDraining (winningTier decisive) x
  uncontradicted : ¬ Contradicted decisive

theorem opposed_iff {decisive : List EvidenceRecord} (hechoed : ¬ Echoed decisive) :
    Opposed decisive ↔ Contradicted decisive := by
  constructor
  · rintro ⟨hsymmetric, hstronger, operational, hsettles, x, hx, hremote, hne⟩
    by_cases hsays : SaysDraining (winningTier decisive) x
    · by_contra hclear
      exact hechoed ⟨hsymmetric, hstronger, ⟨x, hx, hremote, hsays⟩, hclear⟩
    · exact ⟨hsymmetric, hstronger, operational, hsettles, x, hx, hremote, hne, hsays⟩
  · rintro ⟨hsymmetric, hstronger, operational, hsettles, x, hx, hremote, hne, -⟩
    exact ⟨hsymmetric, hstronger, operational, hsettles, x, hx, hremote, hne⟩

/-- The strongest tier says that the link is impaired by an asymmetry. -/
def Asymmetric (tier : List EvidenceRecord) : Prop :=
  (∀ x ∈ tier, claimIsOperational x.claim = true) ∧ strongestCause tier = .asymmetry

/-- The answer of the strongest tier alone. -/
def byTier (r : Resolution) (tier : List EvidenceRecord) (symmetry : LinkSymmetryGuarantee) :
    Resolution :=
  match (asymmetryOf tier).head? with
  | some witness => r.byAsymmetry witness symmetry
  | none => (r.byClaims tier).getD (r.conflictedBy tier)

theorem settles_unanimous {claim : EvidenceClaim} (h : ∀ x ∈ tier, x.claim = claim)
    (hclaim : claim ≠ .unknown) : Settles tier (isOperationalState (stateOf (classFor claim))) := by
  cases claim with
  | unknown => exact absurd rfl hclaim
  | up => exact .inl fun x hx => by rw [h x hx]; rfl
  | degraded => exact .inl fun x hx => by rw [h x hx]; rfl
  | draining => exact .inr h
  | down => exact .inl fun x hx => by rw [h x hx]; rfl
  | faulted => exact .inl fun x hx => by rw [h x hx]; rfl
  | adminDisabled => exact .inr h

theorem Settles.unique (hne : tier ≠ []) (h : Settles tier true) (h' : Settles tier false) :
    False := by
  obtain ⟨x, hx⟩ := List.exists_mem_of_ne_nil _ hne
  rcases h with h | h <;> rcases h' with h' | h' <;>
  · have hclaim := h x hx
    have hclaim' := h' x hx
    revert hclaim hclaim'
    cases x.claim <;> decide

/-- A cause is that of a DEGRADED claim. -/
theorem exists_degraded (h : strongestCause tier ≠ .none) : ∃ x ∈ tier, x.claim = .degraded := by
  by_contra hno
  have hall : ∀ x ∈ tier, x.claim ≠ .degraded := fun x hx hclaim => hno ⟨x, hx, hclaim⟩
  have hfold (l : List EvidenceRecord) (cause : DegradationCause)
      (hl : ∀ x ∈ l, x.claim ≠ .degraded) : l.foldl (fun cause record =>
        if record.claim ≠ .degraded then cause
        else if cause = .none ∨
            Codec.ByteEnum.index record.degradationCause < Codec.ByteEnum.index cause then
          record.degradationCause
        else cause) cause = cause := by
    induction l generalizing cause with
    | nil => rfl
    | cons x l ih =>
      rw [List.foldl_cons, if_pos (hl x List.mem_cons_self)]
      exact ih _ fun y hy => hl y (List.mem_cons_of_mem _ hy)
  exact h (hfold tier .none hall)

theorem byClaims_conflicted {r' : Resolution} (h : r.byClaims tier = some r') :
    r'.conflicted = r.conflicted := by
  unfold byClaims at h
  split at h
  · cases h
    rfl
  split at h
  · cases h
    rfl
  split at h <;> cases h
  rfl

/-- Where the claims give an answer, they settle what it says of the link being operational. -/
theorem byClaims_settles {r' : Resolution} (hne : tier ≠ [])
    (hknown : ∀ x ∈ tier, x.claim ≠ .unknown) (h : r.byClaims tier = some r') :
    Settles tier (isOperationalState r'.state) ∧
    (r'.state = .degraded ∧ r'.resultClass = .authoritativeDegraded ∧ r'.cause = .asymmetry ↔
      Asymmetric tier) := by
  unfold byClaims at h
  -- One claim; all operational; all faults or down; or no agreement.
  split at h
  · rename_i claim hone
    cases h
    have hall := (dedup_claims_eq hne).mp hone
    obtain ⟨y, hy⟩ := List.exists_mem_of_ne_nil _ hne
    refine ⟨settles_unanimous hall (hall y hy ▸ hknown y hy), ?_⟩
    dsimp only [setState]
    constructor
    · rintro ⟨hstate, -, hcause⟩
      obtain rfl : claim = .degraded := stateOf_classFor_inj hstate
      exact ⟨fun x hx => by rw [hall x hx]; rfl, hcause⟩
    · rintro ⟨-, hcause⟩
      obtain ⟨x, hx, hdegraded⟩ := @exists_degraded tier (by rw [hcause]; decide)
      obtain rfl : .degraded = claim := hdegraded.symm.trans (hall x hx)
      exact ⟨rfl, rfl, hcause⟩
  have hmem {x : EvidenceRecord} (hx : x ∈ tier) : x.claim ∈ (tier.map (·.claim)).dedup :=
    List.mem_dedup.mpr (List.mem_map_of_mem hx)
  split at h
  · rename_i hoperational
    cases h
    have hall : ∀ x ∈ tier, claimIsOperational x.claim = true :=
      fun x hx => List.all_eq_true.mp hoperational _ (hmem hx)
    exact ⟨.inl hall, fun h => ⟨hall, h.2.2⟩, fun h => ⟨rfl, rfl, h.2⟩⟩
  split at h
  · rename_i hdown
    cases h
    have hall : ∀ x ∈ tier, claimIsFaultOrDown x.claim = true :=
      fun x hx => List.all_eq_true.mp hdown _ (hmem hx)
    refine ⟨.inl hall, nofun, fun h => ?_⟩
    exact (Settles.unique hne (.inl h.1) (.inl hall)).elim
  · cases h

/-- Where the claims conflict, they settle nothing. -/
theorem byClaims_none (hne : tier ≠ []) (h : r.byClaims tier = none) (operational : Bool) :
    ¬ Settles tier operational := by
  have hmem {c : EvidenceClaim} (hc : c ∈ (tier.map (·.claim)).dedup) : ∃ x ∈ tier, x.claim = c :=
    List.mem_map.mp (List.mem_dedup.mp hc)
  unfold byClaims at h
  split at h
  · cases h
  rename_i hseveral
  have hsplit {claim : EvidenceClaim} (hall : ∀ x ∈ tier, x.claim = claim) : False :=
    hseveral claim ((dedup_claims_eq hne).mpr hall)
  split at h
  · cases h
  rename_i hoperational
  split at h
  · cases h
  rename_i hdown
  cases operational with
  | true =>
    rintro (hall | hall)
    · refine hoperational (List.all_eq_true.mpr fun c hc => ?_)
      obtain ⟨x, hx, rfl⟩ := hmem hc
      exact hall x hx
    · exact hsplit hall
  | false =>
    rintro (hall | hall)
    · refine hdown (List.all_eq_true.mpr fun c hc => ?_)
      obtain ⟨x, hx, rfl⟩ := hmem hc
      exact hall x hx
    · exact hsplit hall

/-- The comparison with the remote end leaves an answer without conflict alone exactly if no remote
record contradicts it, or it is the answer that the contradiction would give. -/
theorem crossCheckRemote_agrees_iff (hclear : r.conflicted = false)
    (symmetry : LinkSymmetryGuarantee) : (r.crossCheckRemote decisive symmetry).Agrees r ↔
      ¬ (minimumTier decisive < 4 ∧ ∃ x ∈ decisive, effectivePrecedence x = 4 ∧
        claimIsOperational x.claim ≠ isOperationalState r.state) ∨
      symmetry = .directional ∧ r.state = .degraded ∧ r.resultClass = .authoritativeDegraded ∧
        r.cause = .asymmetry := by
  unfold crossCheckRemote
  dsimp only
  split
  · rename_i hcross
    split
    · rename_i hagree
      refine iff_of_true ⟨rfl, rfl, rfl, rfl⟩ (.inl ?_)
      rintro ⟨-, x, hx, hremote, hne⟩
      rw [Bool.not_eq_true', List.any_eq_false] at hagree
      exact hagree x (List.mem_filter.mpr ⟨hx, decide_eq_true hremote⟩) (decide_eq_true hne)
    rename_i hcontradiction
    rw [Bool.not_eq_true', Bool.not_eq_false, List.any_eq_true] at hcontradiction
    obtain ⟨x, hx, hne⟩ := hcontradiction
    obtain ⟨hx, hremote⟩ := List.mem_filter.mp hx
    have hcontradicted : minimumTier decisive < 4 ∧ ∃ x ∈ decisive, effectivePrecedence x = 4 ∧
        claimIsOperational x.claim ≠ isOperationalState r.state :=
      ⟨hcross.1, x, hx, of_decide_eq_true hremote, of_decide_eq_true hne⟩
    rw [or_iff_right (not_not.mpr hcontradicted)]
    split
    -- A directional link degrades by asymmetry, which may be what it had come to already.
    · rename_i hdirectional
      constructor
      · exact fun h => ⟨hdirectional, h.state.symm, h.resultClass.symm, h.cause.symm⟩
      · rintro ⟨-, hstate, hclass, hcause⟩
        exact ⟨hstate.symm, hclass.symm, hcause.symm,
          congrArg (·.conflicted) (foldl_noteConflict ..)⟩
    · rename_i hdirectional
      refine iff_of_false (fun h => ?_) fun h => hdirectional h.1
      have hset : true = false := h.conflicted.trans hclear
      cases hset
  · rename_i hcross
    refine iff_of_true (.refl r) (.inl ?_)
    rintro ⟨hlocal, x, hx, hremote, -⟩
    exact hcross ⟨hlocal, List.ne_nil_of_mem (List.mem_filter.mpr ⟨hx, decide_eq_true hremote⟩)⟩

/-- Decisive records are answered by their strongest tier, exactly if no remote record contradicts it
or the contradiction would give the same answer. -/
theorem byDecisive_agrees_byTier {r' : Resolution} (hr : r.Agrees {}) (hr' : r'.Agrees {})
    (hne : decisive ≠ []) (hknown : ∀ x ∈ decisive, x.claim ≠ .unknown)
    (symmetry : LinkSymmetryGuarantee) :
    (r.byDecisive administrative decisive symmetry).Agrees
      (r'.byTier (winningTier decisive) symmetry) ↔
    ¬ Opposed decisive ∨ symmetry = .directional ∧ Asymmetric (winningTier decisive) := by
  have hagrees := (selectTier_agrees r administrative decisive).trans (hr.trans hr'.symm)
  have htier := winningTier_ne_nil hne
  have hknown' : ∀ x ∈ winningTier decisive, x.claim ≠ .unknown :=
    fun x hx => hknown x (mem_winningTier.mp hx).1
  unfold byDecisive byTier
  dsimp only
  cases hasymmetry : asymmetryOf (winningTier decisive) with
  | cons witness rest =>
    refine iff_of_true ?_ (.inl fun h => ?_)
    · unfold byAsymmetry
      dsimp only [List.head?_cons]
      split
      · exact ⟨rfl, rfl, rfl, hagrees.conflicted⟩
      · exact ⟨rfl, rfl, rfl, rfl⟩
    · exact absurd (hasymmetry.symm.trans h.symmetric) nofun
  | nil =>
    dsimp only [List.head?_nil]
    -- The cross check is all that the winning tier does not see.
    rcases byClaims_agrees hagrees (winningTier decisive) with ⟨s, s', hs, hs', hss⟩ | ⟨hs, hs'⟩
    · rw [hs, hs']
      dsimp only [Option.getD_some]
      obtain ⟨hsettles, hsame⟩ := byClaims_settles htier hknown' hs
      have hclear : s.conflicted = false :=
        (byClaims_conflicted hs).trans ((selectTier_agrees r administrative decisive).trans hr).conflicted
      have hsagree : (s.crossCheckRemote decisive symmetry).Agrees s' ↔
          (s.crossCheckRemote decisive symmetry).Agrees s :=
        ⟨fun h => h.trans hss.symm, fun h => h.trans hss⟩
      rw [hsagree, crossCheckRemote_agrees_iff hclear, hsame]
      refine or_congr_left (not_congr ?_)
      constructor
      · exact fun ⟨hlocal, x, hx, hremote, hne⟩ =>
          ⟨hasymmetry, hlocal, _, hsettles, x, hx, hremote, hne⟩
      · rintro ⟨-, hlocal, operational, hsettles', x, hx, hremote, hne⟩
        have heq : operational = isOperationalState s.state := by
          cases operational <;> cases hstate : isOperationalState s.state
          · rfl
          · exact (Settles.unique htier (hstate ▸ hsettles) hsettles').elim
          · exact (Settles.unique htier hsettles' (hstate ▸ hsettles)).elim
          · rfl
        exact ⟨hlocal, x, hx, hremote, heq ▸ hne⟩
    · rw [hs, hs']
      refine iff_of_true ⟨rfl, rfl, rfl, rfl⟩ (.inl fun h => ?_)
      obtain ⟨operational, hsettles, -⟩ := h.remote
      exact byClaims_none htier hs operational hsettles

end Resolution

/-! ## The answer without the records that do not count -/

/-- A remote record that is outranked contradicts the strongest tier, and changes its answer. -/
def Overruled (records : List EvidenceRecord) (symmetry : LinkSymmetryGuarantee) : Prop :=
  let observations := observationsIn (sortBy evidenceLess records)
  Resolution.Contradicted observations ∧
    ¬ (symmetry = .directional ∧ Resolution.Asymmetric (Resolution.winningTier observations))

theorem restrictionOf_counted :
    restrictionOf (records.filter fun x => (classify x).counted) = restrictionOf records := by
  unfold restrictionOf administrativeIn
  simp only [List.filter_filter, Bool.and_self]

/-- The observations among the records of the strongest tier. -/
theorem observationsIn_winning : observationsIn (sortBy evidenceLess
      (records.filter fun x => decide (Wins records x))) =
    Resolution.winningTier (observationsIn (sortBy evidenceLess records)) := by
  unfold Resolution.winningTier
  set least := Resolution.minimumTier (observationsIn (sortBy evidenceLess records)) with hleast
  unfold observationsIn
  rw [← ranks_evidenceLess.filter_sortBy]
  simp only [List.filter_filter]
  refine List.filter_congr fun x hx => ?_
  have hwins := @mem_winningTier_observations records x
  rw [Resolution.mem_winningTier, ← hleast, mem_observationsIn] at hwins
  rw [Bool.eq_iff_iff]
  simp only [Bool.and_eq_true, decide_eq_true_eq, counted_iff, ← hwins]
  constructor
  · exact fun ⟨hkind, hcounted, hwin⟩ => ⟨hwin.2, hkind, hcounted⟩
  · exact fun ⟨htier, hkind, hcounted⟩ => ⟨hkind, hcounted, ⟨hx, hcounted, hkind⟩, htier⟩

/-- The strongest tier alone is its own strongest tier, and nothing in it contradicts it. -/
theorem winningTier_self {decisive : List EvidenceRecord} (hne : decisive ≠ []) :
    Resolution.winningTier (Resolution.winningTier decisive) = Resolution.winningTier decisive ∧
    ¬ Resolution.Opposed (Resolution.winningTier decisive) := by
  obtain ⟨x, hx, hleast⟩ := Resolution.exists_minimumTier (Resolution.winningTier_ne_nil hne)
  rw [(Resolution.mem_winningTier.mp hx).2] at hleast
  refine ⟨List.filter_eq_self.mpr fun y hy => decide_eq_true ?_, fun h => ?_⟩
  · rw [(Resolution.mem_winningTier.mp hy).2, hleast]
  · obtain ⟨_, -, y, hy, hremote, -⟩ := h.remote
    have hlocal := h.stronger
    rw [← hleast, ← (Resolution.mem_winningTier.mp hy).2, hremote] at hlocal
    exact absurd hlocal (lt_irrefl 4)

namespace Sample

/-- The hardware reports a fault. -/
def hardwareFault : EvidenceRecord where
  key := { kind := .hardwareErrorIndication }
  observation := .fromValidated (lit "obs-2")
  claim := .faulted

/-- The remote end is down. -/
def remoteDown : EvidenceRecord where
  key := { kind := .remoteEndpointState }
  observation := .fromValidated (lit "obs-2")
  claim := .down

end Sample

/-- A record that is reported as not counted has no part in the answer, unless it is an outranked
record of the remote end that contradicts the strongest tier. Nothing is said of records where the
remote end claims DRAINING beside a tier that claims it too, and nothing contradicts this. -/
theorem counting_iff (hnodup : (records.map (·.observation)).Nodup)
    (hechoed : record.adminIntent = none → restrictionOf records = none →
      ¬ Resolution.Echoed (observationsIn (sortBy evidenceLess records))) :
    (resolveLinkState (counting records record) record).Agrees (resolveLinkState records record) ↔
      record.adminIntent ≠ none ∨ restrictionOf records ≠ none ∨
        ¬ Overruled records record.binding.symmetry := by
  cases hintent : record.adminIntent with
  | some intent =>
    refine iff_of_true ?_ (.inl nofun)
    unfold resolveLinkState resolveOrdered
    rw [hintent]
    exact ⟨rfl, rfl, rfl, rfl⟩
  | none =>
    rw [or_iff_right (not_not.mpr rfl)]
    cases hrestriction : restrictionOf records with
    | some claim =>
      refine iff_of_true ?_ (.inl nofun)
      rw [counting_classified hnodup (.inr (by rw [hrestriction]; nofun))]
      exact (resolveLinkState_restricted hintent (restrictionOf_counted.trans hrestriction)).trans
        (resolveLinkState_restricted hintent hrestriction).symm
    | none =>
      rw [or_iff_right (not_not.mpr rfl), counting_observed hnodup hintent hrestriction]
      have hfree : restrictionOf (records.filter fun x => decide (Wins records x)) = none := by
        refine restrictionOf_eq_none.mpr fun x hx _ hkind => ?_
        exact absurd hkind (of_decide_eq_true (List.mem_filter.mp hx).2).2.1.2
      obtain ⟨r, administrative, hr, heq⟩ := @resolveLinkState_free _ record hintent hfree
      obtain ⟨r', administrative', hr', heq'⟩ := @resolveLinkState_free _ record hintent hrestriction
      rw [observationsIn_winning] at heq
      rw [heq, heq']
      unfold Overruled
      dsimp only
      set decisive := observationsIn (sortBy evidenceLess records) with hdecisive
      by_cases hne : decisive = []
      · have hwinning : Resolution.winningTier decisive = [] := by rw [hne]; rfl
        rw [if_pos hne, if_pos hwinning]
        refine iff_of_true ?_ fun h => ?_
        · unfold Resolution.withoutEvidence
          split
          · exact ⟨rfl, rfl, rfl, hr.conflicted.trans hr'.conflicted.symm⟩
          · exact ⟨rfl, rfl, rfl, hr.conflicted.trans hr'.conflicted.symm⟩
        · obtain ⟨_, -, x, hx, -⟩ := h.1.remote
          rw [hne] at hx
          cases hx
      · have hknown : ∀ x ∈ decisive, x.claim ≠ .unknown :=
          fun x hx => (mem_observationsIn.mp hx).2.1.2.2
        obtain ⟨hself, hclear⟩ := winningTier_self hne
        rw [if_neg hne, if_neg (Resolution.winningTier_ne_nil hne)]
        -- The winning tier alone is not contradicted by a remote end, so that both rules agree on
        -- it.
        have htier : (r.byDecisive administrative (Resolution.winningTier decisive)
            record.binding.symmetry).Agrees
            (Resolution.byTier {} (Resolution.winningTier decisive) record.binding.symmetry) := by
          have h := @Resolution.byDecisive_agrees_byTier r administrative
            (Resolution.winningTier decisive) {} hr (.refl _) (Resolution.winningTier_ne_nil hne)
            (fun x hx => hknown x (Resolution.mem_winningTier.mp hx).1) record.binding.symmetry
          rw [hself] at h
          exact h.mpr (.inl hclear)
        have hfull := @Resolution.byDecisive_agrees_byTier r' administrative' decisive {} hr' (.refl _)
          hne hknown record.binding.symmetry
        rw [not_and_or, not_not, ← Resolution.opposed_iff (hechoed hintent hrestriction), ← hfull]
        exact ⟨fun h => h.symm.trans htier, fun h => htier.trans h.symm⟩

theorem counting_iff_sample :
    counting [Sample.carrierUp, Sample.hardwareFault] {} = [Sample.hardwareFault] ∧
    (resolveLinkState (counting [Sample.carrierUp, Sample.hardwareFault] {}) {}).Agrees
      (resolveLinkState [Sample.carrierUp, Sample.hardwareFault] {}) := by
  have hnone : ∀ x ∈ observationsIn (sortBy evidenceLess [Sample.carrierUp, Sample.hardwareFault]),
      effectivePrecedence x ≠ 4 := by decide
  refine ⟨by decide, (counting_iff (by decide) fun _ _ h => ?_).mpr (.inr (.inr fun h => ?_))⟩
  · obtain ⟨x, hx, hremote, -⟩ := h.remote
    exact hnone x hx hremote
  · obtain ⟨_, -, x, hx, hremote, -⟩ := h.1.remote
    exact hnone x hx hremote

/-- A remote record contradicts the carrier. It is reported as not counted, and without it the link
is up. -/
theorem outranked_decides :
    ([Sample.carrierUp, Sample.remoteDown].map (·.key)).Nodup ∧
    ([Sample.carrierUp, Sample.remoteDown].map (·.observation)).Nodup ∧
    (resolveLinkState [Sample.carrierUp, Sample.remoteDown] {}).dispositions.map
      (fun d => (d.observation, d.counted)) =
        [(Sample.carrierUp.observation, true), (Sample.remoteDown.observation, false)] ∧
    (resolveLinkState [Sample.carrierUp, Sample.remoteDown] {}).state = .revalidationRequired ∧
    counting [Sample.carrierUp, Sample.remoteDown] {} = [Sample.carrierUp] ∧
    (resolveLinkState [Sample.carrierUp] {}).state = .up := by
  decide

end

end LinkState
