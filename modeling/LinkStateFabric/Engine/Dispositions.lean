import LinkStateFabric.Engine.Restored
import LinkStateFabric.Lib.Ring

/-!
# What becomes of evidence that is not current any more

* `dropEvidence_dispositions`: dropping evidence pushes the disposition of each dropped record.
* `LinkEntry.Trimmed`: an entry has no more dispositions, and no longer a history, than the
  configuration admits. So it is in every run (`Impl.Reachable.trimmed`).
* `LinkEntry.Accounts`: the evidence that has left an entry is accounted for by its dispositions.
  All steps but a publication account for it (`Steps.trimmed_accounts`).
-/

namespace LinkState

open Relation (ReflTransGen)

/-! ## Dropping evidence -/

/-- The disposition of a record that is not current any more. -/
def EvidenceRecord.dispose (record : EvidenceRecord) (cause : EvidenceStatus × Text) :
    EvidenceDisposition where
  observation := record.observation
  source := record.key.source
  publisher := record.publisher
  workerBoot := record.workerBoot
  kind := record.key.kind
  direction := record.key.direction
  claim := record.claim
  evidenceClass := record.evidenceClass
  status := cause.1
  precedence := evidencePrecedence record.key.kind
  counted := false
  reason := cause.2

/-- The disposition of a record that an explanation takes out of the current evidence. -/
def Explanation.dispose (explain : Explanation) (record : EvidenceRecord) :
    Option EvidenceDisposition :=
  (explain record).map record.dispose

theorem pushDisposition_dispositions (config : EngineConfig) (entry : LinkEntry)
    (record : EvidenceRecord) (status : EvidenceStatus) (reason : Text) :
    (pushDisposition config entry record status reason).dispositions =
      Ring.push config.maxHistoryPerLink entry.dispositions (record.dispose (status, reason)) := rfl

theorem dropRecord_dispositions (explain : Explanation) (t : Edit) (record : EvidenceRecord) :
    (t.dropRecord explain record).impl.config = t.impl.config ∧
    (t.dropRecord explain record).entry.dispositions = (explain.dispose record).elim
      t.entry.dispositions (Ring.push t.impl.config.maxHistoryPerLink t.entry.dispositions) := by
  unfold Edit.dropRecord Explanation.dispose
  cases explain record with
  | none => exact ⟨rfl, rfl⟩
  | some cause => exact ⟨rfl, pushDisposition_dispositions ..⟩

/-- Dropping evidence pushes the disposition of each dropped record. -/
theorem dropEvidence_dispositions (t : Edit) (explain : Explanation)
    (h : t.entry.dispositions.length ≤ t.impl.config.maxHistoryPerLink) :
    (t.dropEvidence explain).entry.dispositions =
      Ring.pushAll t.impl.config.maxHistoryPerLink t.entry.dispositions
        (t.entry.current.filterMap explain.dispose).reverse := by
  have hloop (l : List EvidenceRecord) (t : Edit) :
      (l.foldl (Edit.dropRecord explain) t).entry.dispositions =
        l.foldl (fun ring record => (explain.dispose record).elim ring
          (Ring.push t.impl.config.maxHistoryPerLink ring)) t.entry.dispositions := by
    induction l generalizing t with
    | nil => rfl
    | cons record l ih =>
      obtain ⟨hconfig, hdispositions⟩ := dropRecord_dispositions explain t record
      rw [List.foldl_cons, List.foldl_cons, ih, hconfig, hdispositions]
  rw [← Ring.foldl_pushes _ _ h]
  exact hloop _ t

/-! ## Bounds -/

/-- An entry has no more dispositions, and no longer a history, than the configuration admits. -/
structure LinkEntry.Trimmed (config : EngineConfig) (entry : LinkEntry) : Prop where
  dispositions : entry.dispositions.length ≤ config.maxHistoryPerLink
  history : entry.record.history.length ≤ config.maxHistoryPerLink

def Impl.Trimmed (impl : Impl) : Prop :=
  ∀ link entry, impl.entryOf link = some entry → entry.Trimmed impl.config

section Steps

variable {allow : Kind → Prop} {link : LinkId} {t t' : Edit}

theorem LinkEntry.Trimmed.dropEvidence (h : t.entry.Trimmed t.impl.config) (explain : Explanation) :
    (t.dropEvidence explain).entry.Trimmed t.impl.config := by
  refine ⟨?_, by rw [Edit.dropEvidence_record]; exact h.history⟩
  rw [dropEvidence_dispositions t explain h.dispositions]
  unfold Ring.pushAll
  rw [List.length_take]
  exact Nat.min_le_left _ _

/-- An entry with the dispositions and the history of another. -/
theorem LinkEntry.Trimmed.congr {config : EngineConfig} {entry entry' : LinkEntry}
    (h : entry.Trimmed config) (hd : entry'.dispositions = entry.dispositions)
    (hh : entry'.record.history = entry.record.history) : entry'.Trimmed config :=
  ⟨hd ▸ h.dispositions, hh ▸ h.history⟩

theorem EditStep.trimmed (hstep : EditStep allow link t t') (h : t.entry.Trimmed t.impl.config) :
    t'.entry.Trimmed t.impl.config := by
  cases hstep with
  | drop explain => exact h.dropEvidence explain
  | count hcount =>
    obtain ⟨g, gs, e, s, rfl, -⟩ := hcount.counters
    exact h.congr rfl rfl
  | stamp => exact h.congr rfl rfl
  | raise =>
    obtain ⟨g, -, heq⟩ := t.raiseTopology_eq
    rw [heq]
    exact h
  | release publisher =>
    unfold Edit.releaseLink
    split <;> exact h
  | tally => exact h
  | intent => exact h.congr rfl rfl
  | commit prepared publication publisher hfits =>
    obtain ⟨hframe, hcommits⟩ := Edit.commitPrepared_spec hfits publication publisher
    exact ⟨by rw [hframe.dispositions]; exact h.dispositions, hcommits.history h.history⟩
  | rebind _ binding _ => exact (h.dropEvidence (explainRebinding binding)).congr rfl rfl
  | publish _ request _ _ _ hcount =>
    obtain ⟨g, gs, e, s, rfl, -⟩ := hcount.counters
    exact (h.dropEvidence (explainPublication request.observation)).congr rfl rfl
  | retire _ request _ hcount _ =>
    obtain ⟨g, gs, e, s, rfl, -⟩ := hcount.counters
    -- A retirement drops the evidence first, and then pushes an entry on the trimmed history.
    obtain ⟨_, _, hkept, heq⟩ := Edit.enterRetired_eq _ request
    have hdrop := h.dropEvidence explainRetirement
    rw [heq]
    refine ⟨hdrop.dispositions, ?_⟩
    have hframe := (EditFrame.dropEvidence t explainRetirement).config
    exact hframe ▸ hkept (hframe.symm ▸ hdrop.history)

/-! ## Accounts -/

/-- A disposition says of a record that it is not current any more. -/
structure EvidenceDisposition.Explains (disposition : EvidenceDisposition)
    (record : EvidenceRecord) : Prop where
  observation : disposition.observation = record.observation
  publisher : disposition.publisher = record.publisher
  workerBoot : disposition.workerBoot = record.workerBoot
  status : disposition.status ≠ .current

theorem Explanation.Final.explains {explain : Explanation} (h : explain.Final)
    (record : EvidenceRecord) (disposition : EvidenceDisposition)
    (hd : explain.dispose record = some disposition) : disposition.Explains record := by
  obtain ⟨cause, hcause, rfl⟩ := Option.map_eq_some_iff.mp hd
  exact ⟨rfl, rfl, rfl, h record cause hcause⟩

/-- The evidence that has left an entry is accounted for by the dispositions that it has now. -/
def LinkEntry.Accounts (config : EngineConfig) (entry entry' : LinkEntry) : Prop :=
  Ring.Accounts EvidenceDisposition.Explains config.maxHistoryPerLink entry.current
    entry.dispositions entry'.current entry'.dispositions

theorem LinkEntry.Accounts.of_eq {config : EngineConfig} {entry entry' : LinkEntry}
    (h : entry.Trimmed config) (hcurrent : entry'.current = entry.current)
    (hdispositions : entry'.dispositions = entry.dispositions) :
    entry.Accounts config entry' := by
  unfold LinkEntry.Accounts
  rw [hcurrent, hdispositions]
  exact .refl _ h.dispositions

theorem LinkEntry.Accounts.dropEvidence (h : t.entry.Trimmed t.impl.config) {explain : Explanation}
    (hfinal : explain.Final) :
    t.entry.Accounts t.impl.config (t.dropEvidence explain).entry := by
  have hcurrent : (t.dropEvidence explain).entry.current =
      t.entry.current.filter fun record => (explain.dispose record).isNone := by
    unfold Explanation.dispose
    simp
  unfold LinkEntry.Accounts
  rw [hcurrent, dropEvidence_dispositions t explain h.dispositions]
  exact .filter hfinal.explains _ _

theorem EditStep.accounts (hp : ¬ allow .publish) (hstep : EditStep allow link t t')
    (h : t.entry.Trimmed t.impl.config) : t.entry.Accounts t.impl.config t'.entry := by
  cases hstep with
  | drop explain hfinal => exact .dropEvidence h hfinal
  | count hcount =>
    obtain ⟨g, gs, e, s, rfl, -⟩ := hcount.counters
    exact .of_eq h rfl rfl
  | stamp => exact .of_eq h rfl rfl
  | raise =>
    obtain ⟨g, -, heq⟩ := t.raiseTopology_eq
    rw [heq]
    exact .of_eq h rfl rfl
  | release publisher =>
    unfold Edit.releaseLink
    split <;> exact .of_eq h rfl rfl
  | tally => exact .of_eq h rfl rfl
  | intent => exact .of_eq h rfl rfl
  | commit prepared publication publisher hfits =>
    obtain ⟨hframe, -⟩ := Edit.commitPrepared_spec hfits publication publisher
    exact .of_eq h hframe.current hframe.dispositions
  | rebind _ binding _ => exact LinkEntry.Accounts.dropEvidence h (explainRebinding_final binding)
  | publish ha => exact absurd ha hp
  | retire _ request _ hcount _ =>
    obtain ⟨g, gs, e, s, rfl, -⟩ := hcount.counters
    obtain ⟨_, _, -, heq⟩ := Edit.enterRetired_eq _ request
    rw [heq]
    exact LinkEntry.Accounts.dropEvidence h explainRetirement_final

/-! ## Operations -/

/-- The dispositions that are retained of a link. -/
def Impl.dispositions (impl : Impl) (link : LinkId) : List EvidenceDisposition :=
  ((impl.entryOf link).map (·.dispositions)).getD []

theorem dispositions_commit (t : Edit) (link l : LinkId) : (t.commit link).dispositions l =
    if l = link then t.entry.dispositions else t.impl.dispositions l := by
  unfold Impl.dispositions
  rw [commit_entryOf]
  split <;> rfl

/-- The evidence that has left a link is accounted for by the dispositions that it has now. -/
def Impl.Accounts (impl impl' : Impl) (link : LinkId) : Prop :=
  Ring.Accounts EvidenceDisposition.Explains impl.config.maxHistoryPerLink
    (impl.currentEvidence link) (impl.dispositions link) (impl'.currentEvidence link)
    (impl'.dispositions link)

theorem Impl.Trimmed.length_dispositions {impl : Impl} (h : impl.Trimmed) (link : LinkId) :
    (impl.dispositions link).length ≤ impl.config.maxHistoryPerLink := by
  unfold Impl.dispositions
  cases hentry : impl.entryOf link with
  | none => exact Nat.zero_le _
  | some entry => exact (h link entry hentry).dispositions

theorem Impl.Accounts.congr {impl impl' impl'' : Impl} {link : LinkId} (h : impl.Accounts impl' link)
    (hentry : impl''.entryOf link = impl'.entryOf link) : impl.Accounts impl'' link := by
  unfold Impl.Accounts Impl.currentEvidence Impl.dispositions at h ⊢
  rw [hentry]
  exact h

/-- A link that is bound for the first time has neither evidence nor a past. -/
theorem bind_entries {impl : Impl} {binding : TopologyBinding} {t : Edit}
    (hcount : Edit.Advances ⟨impl, newEntry binding⟩ t) :
    let u := t.stampGlobal.stampTransition.indexNew.raiseTopology
    u.impl.config = impl.config ∧ (∀ l, u.impl.entryOf l = impl.entryOf l) ∧
      u.entry.current = [] ∧ u.entry.dispositions = [] ∧ u.entry.record.history = [] := by
  obtain ⟨_, _, _, _, _, -, -, heq⟩ := hcount.bind_eq
  dsimp only
  rw [heq]
  exact ⟨rfl, fun _ => rfl, rfl, rfl, rfl⟩

/-- Entries stay trimmed, and unless evidence is published, it is accounted for. -/
theorem Steps.trimmed_accounts {impl impl' : Impl} (hsteps : Steps allow impl impl')
    (h : impl.Trimmed) :
    impl'.Trimmed ∧ (¬ allow .publish → ∀ link, impl.Accounts impl' link) := by
  refine And.right (hsteps.invariant (P := fun impl' => impl'.config = impl.config ∧ impl'.Trimmed ∧
      (¬ allow .publish → ∀ link, impl.Accounts impl' link))
    (fun base base' hsame _ ⟨hconfig, h, haccounts⟩ => ?_)
    (fun _ base binding t _ hnew hcount ⟨hconfig, h, haccounts⟩ => ?_)
    (fun link t t' hstep ⟨hconfig, h, haccounts⟩ => ?_)
    ⟨rfl, h, fun _ link => .refl _ (h.length_dispositions link)⟩)
  · have hentry (l : LinkId) : base'.entryOf l = base.entryOf l := hsame.entryOf l
    refine ⟨hsame.config.trans hconfig, fun l e he => ?_, fun hp l =>
      (haccounts hp l).congr (hentry l)⟩
    rw [hsame.config]
    exact h l e (hentry l ▸ he)
  -- A new link starts with nothing current and nothing retained, so that both sides are empty.
  · obtain ⟨hsame, hentry, hcurrent, hdispositions, hhistory⟩ := bind_entries hcount
    refine ⟨hsame.trans hconfig, fun l e he => ?_, fun hp l => ?_⟩
    · rw [commit_entryOf, hentry] at he
      rw [show (Edit.commit _ binding.link).config = base.config from hsame]
      split at he
      · cases he
        exact ⟨by rw [hdispositions]; exact Nat.zero_le _, by rw [hhistory]; exact Nat.zero_le _⟩
      · exact h l e he
    · by_cases hl : l = binding.link
      · have haccount := haccounts hp l
        unfold Impl.Accounts at haccount ⊢
        rw [currentEvidence_commit, dispositions_commit, if_pos hl, if_pos hl, hcurrent,
          hdispositions]
        rwa [show base.currentEvidence l = [] by rw [hl, Impl.currentEvidence, hnew]; rfl,
          show base.dispositions l = [] by rw [hl, Impl.dispositions, hnew]; rfl] at haccount
      · exact (haccounts hp l).congr (by rw [commit_entryOf, if_neg hl, hentry])
  · have hconfig : t.impl.config = impl.config := hconfig
    have htrimmed : t.entry.Trimmed t.impl.config :=
      h link t.entry (by rw [commit_entryOf, if_pos rfl])
    refine ⟨hstep.frame.config.trans hconfig, fun l e he => ?_, fun hp l => ?_⟩
    · rw [show (t'.commit link).config = t.impl.config from hstep.frame.config]
      rw [commit_entryOf] at he
      split at he
      · cases he
        exact hstep.trimmed htrimmed
      · rename_i hl
        exact h l e (by rw [commit_entryOf, if_neg hl, ← hstep.frame.entryOf]; exact he)
    · by_cases hl : l = link
      · have haccount := haccounts hp l
        unfold Impl.Accounts at haccount ⊢
        rw [currentEvidence_commit, dispositions_commit, if_pos hl, if_pos hl] at haccount ⊢
        rw [← hconfig] at haccount ⊢
        exact haccount.trans (hstep.accounts hp htrimmed)
      · exact (haccounts hp l).congr (by
          rw [commit_entryOf, commit_entryOf, if_neg hl, if_neg hl, hstep.frame.entryOf])

end Steps

/-! ## Runs -/

theorem recoveredEntry_trimmed (config : EngineConfig) (persisted : PersistedLink) :
    (recoveredEntry config persisted).Trimmed config := by
  have hrestored : (restoredEntry config persisted).Trimmed config :=
    ⟨by unfold restoredEntry; rw [List.length_take]; exact Nat.min_le_left _ _, Nat.zero_le _⟩
  unfold recoveredEntry
  obtain ⟨history, hhistory, heq⟩ := changedEntry_eq config persisted
  split
  · exact hrestored
  split
  · exact hrestored.congr rfl rfl
  · rw [heq]
    exact ⟨hrestored.dispositions, hhistory⟩

theorem Impl.Trimmed.apply {impl : Impl} (h : impl.Trimmed) (op : Op) : (impl.apply op).Trimmed := by
  cases hload : op.isLoad with
  | false => exact ((apply_steps impl hload).trimmed_accounts h).1
  | true =>
    cases op with
    | load config steps file =>
      show Impl.Trimmed (impl.load config steps file).1
      rcases load_cases impl config steps file with
        ⟨_, -, heq⟩ | ⟨_, payload, _, -, hdecode, heq, -⟩
      · rw [heq]
        exact h
      · rw [heq]
        have hdecoded := decodeJournal_decoded hdecode
        intro link entry hentry
        obtain ⟨persisted, -, rfl⟩ := entryOf_recover hdecoded hentry
        rw [show (impl.recover payload).impl.config = impl.config from
          (recovers_recover impl hdecoded).config]
        exact recoveredEntry_trimmed ..
    | _ => cases hload

theorem Impl.Reachable.trimmed {impl : Impl} (h : impl.Reachable) : impl.Trimmed := by
  refine h.invariant ?_ fun _ op htrimmed _ => htrimmed.apply op
  rintro _ ⟨config, rfl⟩ link entry hentry
  rw [Impl.entryOf_create] at hentry
  cases hentry

end LinkState
