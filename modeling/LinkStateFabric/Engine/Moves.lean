import LinkStateFabric.Engine.Recovery
import LinkStateFabric.Engine.Turns

/-!
# What an operation does to an engine

Every operation but a load is a sequence of `Move`s (`apply_moves`): turns of links, first bindings,
and changes outside the links. What every turn keeps of an entry, every operation keeps
(`Moves.entries`), and what every turn makes of an entry, every operation makes (`Moves.follow`).
Retired links have no evidence (`Impl.Sealed`), so that no operation makes a turn of one.
-/

namespace LinkState

open Relation (ReflTransGen)
open Sorting

/-! ## Moves -/

/-- A link of which nothing is known. -/
structure LinkEntry.New (entry : LinkEntry) : Prop where
  current : entry.current = []
  intent : entry.record.adminIntent = none
  everEstablished : entry.record.everEstablished = false
  conclusion : entry.conclusion = ⟨.unknown, .authoritativeUnknown, .none, false, false⟩
  provenance : entry.record.provenanceDigest = digestEvidenceSet []
  history : entry.record.history = []

theorem LinkEntry.New.coherent {entry : LinkEntry} (h : entry.New) : entry.Coherent :=
  .of_new h.current h.intent h.everEstablished h.conclusion h.provenance

theorem LinkEntry.New.state {entry : LinkEntry} (h : entry.New) : entry.record.state = .unknown :=
  congrArg Conclusion.state h.conclusion

/-- A link is bound for the first time. -/
structure Binds (link : LinkId) (impl impl' : Impl) : Prop where
  config : impl'.config = impl.config
  unbound : impl.entryOf link = none
  bound : ∃ entry, impl'.entryOf link = some entry ∧ entry.New
  others : ∀ l, l ≠ link → impl'.entryOf l = impl.entryOf l
  globalGeneration : impl.globalGeneration < impl'.globalGeneration
  globalState : impl'.globalStateGeneration = impl.globalStateGeneration
  topologyGeneration : impl.topologyGeneration ≤ impl'.topologyGeneration
  epoch : impl'.epoch = impl.epoch

/-- One move of an operation that started at `base`. -/
inductive Move (op : Op) (base impl : Impl) : Impl → Prop
  | outside {impl' : Impl} (h : SameLinks impl impl') (hepoch : impl.epoch ≤ impl'.epoch) :
    Move op base impl impl'
  | bind {impl' : Impl} {link : LinkId} (h : Binds link impl impl') : Move op base impl impl'
  | turn {link : LinkId} {entry : LinkEntry} {t : Edit} (hentry : impl.entryOf link = some entry)
    (hopen : entry.record.state ≠ .retired ∨ entry.current ≠ []) (hfirst : op.Single → impl = base)
    (h : Turn op link ⟨impl, entry⟩ t) : Move op base impl (t.commit link)

/-- Moves of an operation, one after the other. -/
abbrev Moves (op : Op) (base : Impl) : Impl → Impl → Prop := ReflTransGen (Move op base)

section Moves

variable {op : Op} {base : Impl}

theorem Moves.foldl {α : Type} {f : Impl → α → Impl} (h : ∀ impl a, Moves op base impl (f impl a))
    (l : List α) (impl : Impl) : Moves op base impl (l.foldl f impl) := by
  induction l generalizing impl with
  | nil => exact .refl
  | cons a l ih => exact (h impl a).trans (ih _)

variable (impl : Impl)

theorem bindNew_moves {binding : TopologyBinding} (hnew : impl.entryOf binding.link = none) :
    Moves op base impl (impl.bindNew binding).1 := by
  unfold Impl.bindNew
  split
  · exact .refl
  split
  · exact .refl
  rename_i u hc
  have hglobal := global_lt (fun _ => rfl) hc (by decide)
  have hstates := Edit.advanceAll_states_eq (show Counter.state ∉ [Counter.global] by decide)
    (by decide) ⟨impl, newEntry binding⟩
  obtain ⟨g, gs, e, s, heq⟩ := Edit.advanceAll_withCounters [.global] ⟨impl, newEntry binding⟩
  rw [hc] at heq hstates
  subst heq
  obtain ⟨tg, hle, hraise⟩ := Edit.raiseTopology_eq (Edit.indexNew (Edit.stampTransition
    (Edit.stampGlobal (Edit.withCounters ⟨impl, newEntry binding⟩ g gs e s))))
  rw [hraise]
  refine .single (@Move.bind op base impl _ binding.link ⟨rfl, hnew,
    ⟨_, Impl.entryOf_putEntry_self .., rfl, rfl, rfl, rfl, rfl, rfl⟩, fun l hl => ?_, hglobal,
    hstates.2, hle, rfl⟩)
  rw [commit_entryOf, if_neg hl]
  rfl

variable (hop : ¬ op.Single)

include hop

theorem purgeLink_moves {explain : Impl → LinkEntry → Explanation} {trigger : TransitionTrigger}
    (ht : trigger ∈ inboundTriggers .revalidationRequired) (kind : Text) (link : LinkId) :
    Moves op base impl (impl.purgeLink explain trigger kind link) := by
  cases hentry : impl.entryOf link with
  | none =>
    unfold Impl.purgeLink
    rw [hentry]
  | some entry =>
    rcases @purgeLink_turn op _ _ _ _ _ ht kind hentry with heq | ⟨hne, t, ht, heq⟩
    · rw [heq]
    · rw [heq]
      exact .single (.turn hentry (.inr hne) (fun h => absurd h hop) ht)

theorem invalidateStaleDependents_moves (link : LinkId) :
    Moves op base impl (impl.invalidateStaleDependents link) :=
  Moves.foldl (fun impl => purgeLink_moves impl hop (by decide) _) _ impl

theorem applyRebinding_moves {link : LinkId} {entry : LinkEntry} {binding : TopologyBinding}
    (hentry : impl.entryOf link = some entry) (h : Rebinds link entry binding) (reason : Text) :
    Moves op base impl (Edit.applyRebinding ⟨impl, entry⟩ link binding reason).1 := by
  obtain ⟨t, ht, heq⟩ := @applyRebinding_turn op _ impl _ _ h reason
  have hmove : Move op base impl (t.commit link) :=
    .turn hentry (.inl h.live) (fun h => absurd h hop) ht
  rcases heq with heq | ⟨l, heq⟩ <;> rw [heq]
  · exact .single hmove
  · exact .head hmove (invalidateStaleDependents_moves _ hop l)

theorem fencePublisher_moves (publisher : PublisherId) (boot : WorkerBootId) (allBoots : Bool)
    (status : AuthorityStatus) (reason : Text) :
    Moves op base impl (impl.fencePublisher publisher boot allBoots status reason) := by
  have hepoch : (impl.noteFence publisher boot status reason).epoch = impl.epoch := by
    unfold Impl.noteFence Impl.setAuthorityStatus
    dsimp only
    split <;> split <;> rfl
  exact .head (.outside (noteFence_sameLinks impl publisher boot status reason) hepoch.ge)
    ((Moves.foldl (fun impl => purgeLink_moves impl hop (by decide) _) _ _).tail
      (.outside (releasePublisher_sameLinks _ publisher) le_rfl))

theorem fenceStale_moves (publisher : PublisherId) :
    Moves op base impl (impl.fenceStale publisher) := by
  unfold Impl.fenceStale
  split
  · exact .refl
  · exact fencePublisher_moves impl hop ..

theorem registerPublisher_moves (request : RegisterPublisherRequest) :
    Moves op base impl (impl.registerPublisher request).1 := by
  have hput (impl : Impl) (publisher : PublisherId) (authority : PublisherAuthority) :
      Move op base impl (impl.putAuthority publisher authority) :=
    .outside (putAuthority_sameLinks ..) le_rfl
  unfold Impl.registerPublisher
  dsimp only
  split
  · exact .refl
  split
  · exact .refl
  split
  · exact .refl
  split
  · exact .refl
  unfold Impl.admitRegistration
  split
  · split
    · split
      · exact .refl
      · exact .single (hput ..)
    · unfold Impl.supersedeBoot
      dsimp only
      split
      · exact fencePublisher_moves impl hop ..
      · exact (fencePublisher_moves impl hop ..).tail (hput ..)
  · split
    · exact .refl
    · exact .single (hput ..)

theorem invalidatePublisher_moves (request : InvalidatePublisherRequest) :
    Moves op base impl (impl.invalidatePublisher request).1 := by
  unfold Impl.invalidatePublisher
  split
  · exact .refl
  split
  · exact .refl
  split
  · exact .refl
  split
  · exact .refl
  split
  · exact .refl
  · exact fencePublisher_moves impl hop ..

theorem advanceCoordinatorEpoch_moves (request : AdvanceEpochRequest) :
    Moves op base impl (impl.advanceCoordinatorEpoch request).1 := by
  unfold Impl.advanceCoordinatorEpoch
  split
  · exact .refl
  split
  · exact .refl
  rename_i hle _
  refine .head (.outside ?_ (not_lt.mp hle))
    (Moves.foldl (fun impl => fenceStale_moves impl hop) _ _)
  exact ⟨rfl, rfl, rfl, rfl, rfl, rfl, fun _ _ hl _ => hl, rfl, rfl, rfl, .inl rfl⟩

theorem bindLink_moves (request : BindLinkRequest) :
    Moves op base impl (impl.bindLink request).1 := by
  unfold Impl.bindLink
  dsimp only
  split
  · exact .refl
  rename_i hvalid
  have hwf := wellFormed_of_validBinding hvalid
  split
  · rename_i hnew
    exact bindNew_moves impl hnew
  rename_i entry hentry
  split_ifs with hretired hlt heq hsame
  · exact .refl
  · exact .refl
  · exact .refl
  · exact .refl
  · exact applyRebinding_moves impl hop hentry
      ⟨hretired, .inl rfl, lt_of_le_of_ne (not_lt.mp hlt) (Ne.symm heq), fun _ => hwf⟩ _

theorem supersedeTopology_moves (request : SupersedeTopologyRequest) :
    Moves op base impl (impl.supersedeTopology request).1 := by
  unfold Impl.supersedeTopology
  split
  · exact .refl
  split
  · exact .refl
  rename_i entry hentry
  dsimp only
  split
  · exact .refl
  rename_i hlive
  split
  · exact .refl
  rename_i hnewer
  split
  · exact .refl
  rename_i binding hbinding
  exact applyRebinding_moves impl hop hentry
    (rebinds_of_superseding hlive (by simpa using hnewer) hbinding) _

omit hop in
theorem retireLink_moves (request : RetireLinkRequest) :
    Moves (.retireLink request) base impl (impl.retireLink request).1 := by
  unfold Impl.retireLink
  split
  · exact .refl
  split
  · exact .refl
  rename_i entry hentry
  split
  · exact .refl
  split
  · exact .refl
  rename_i hlive
  split
  · exact .refl
  split
  · exact .refl
  obtain ⟨t, ht, heq⟩ := @retire_turn impl entry request hlive
  have hmove : Move (.retireLink request) base impl (t.commit request.link) :=
    .turn hentry (.inl hlive) False.elim ht
  rcases heq with heq | ⟨l, heq⟩ <;> rw [heq]
  · exact .single hmove
  · exact .head hmove (invalidateStaleDependents_moves _ id l)

omit hop in
theorem reconcile_moves : Moves .reconcile base impl impl.reconcile.1 := by
  have hlink (p : Impl × Nat) (link : LinkId) :
      Moves .reconcile base p.1 (Impl.reconcileLink p link).1 := by
    cases hentry : p.1.entryOf link with
    | none =>
      unfold Impl.reconcileLink
      rw [hentry]
    | some entry =>
      by_cases hlive : entry.record.state = .retired
      · unfold Impl.reconcileLink
        rw [hentry]
        dsimp only
        rw [if_pos hlive]
      · obtain ⟨t, ht, heq⟩ := reconcileLink_turn p.2 hentry hlive
        rw [show Impl.reconcileLink p link = Impl.reconcileLink (p.1, p.2) link from rfl, heq]
        exact .single (.turn hentry (.inl hlive) False.elim ht)
  have hfold (l : List LinkId) (p : Impl × Nat) :
      Moves .reconcile base p.1 (l.foldl Impl.reconcileLink p).1 := by
    induction l generalizing p with
    | nil => exact .refl
    | cons link l ih => exact (hlink p link).trans (ih _)
  exact hfold _ (impl, 0)

omit hop in
theorem publishEvidence_moves (request : PublishEvidenceRequest) :
    Moves (.publishEvidence request) impl impl (impl.publishEvidence request).1 := by
  unfold Impl.publishEvidence
  split
  · exact .refl
  · refine .single (.outside (noteRejection_sameLinks impl _) ?_)
    exact (noteRejection_sameAuthority impl _).epoch.ge
  · exact .refl
  rename_i entry prepared hadmit
  have h := admitted_of_admit hadmit
  obtain ⟨t, ht, heq⟩ := publish_turn h
  rw [heq]
  exact .single (.turn h.bound (.inl h.live) (fun _ => rfl) ht)

omit hop in
theorem withdrawEvidence_moves (request : WithdrawEvidenceRequest) :
    Moves (.withdrawEvidence request) impl impl (impl.withdrawEvidence request).1 := by
  unfold Impl.withdrawEvidence
  split
  · exact .refl
  split
  · exact .refl
  rename_i entry hentry
  split
  · exact .refl
  rename_i hlive
  split
  · exact .refl
  split
  · exact .refl
  split
  · exact .refl
  dsimp only
  split
  · exact .refl
  rename_i hok
  obtain ⟨t, ht, heq⟩ := @withdraw_turn impl entry request (by simpa using hok)
  rw [heq]
  exact .single (.turn hentry (.inl hlive) (fun _ => rfl) ht)

omit hop in
theorem transitionState_moves (request : TransitionStateRequest) :
    Moves (.transitionState request) base impl (impl.transitionState request).1 := by
  unfold Impl.transitionState
  split
  · exact .refl
  rename_i hids
  split
  · exact .refl
  rename_i entry hentry
  split
  · exact .refl
  rename_i hlive
  -- Whatever is admitted is one turn of the link.
  have hedit {impl' : Impl} (h : impl' = impl ∨ ∃ u,
      Turn (.transitionState request) request.link ⟨impl, entry⟩ u ∧
      impl' = u.commit request.link) : Moves (.transitionState request) base impl impl' := by
    rcases h with rfl | ⟨u, hu, rfl⟩
    · exact .refl
    · exact .single (.turn hentry (.inl hlive) False.elim hu)
  split
  · exact .refl
  split
  · exact .refl
  split
  · exact .refl
  split
  · exact .refl
  split
  · exact hedit liftIntent_turn
  split
  · exact .refl
  rename_i hrestrictive
  split
  · exact .refl
  rename_i hcause
  simp only [Bool.or_eq_true, Bool.not_eq_true', not_or, Bool.not_eq_false] at hids
  exact hedit (imposeIntent_turn fun _ =>
    ⟨hids.1.1.2, hids.1.2, by simpa using hrestrictive, fun h hc => hcause ⟨h, hc⟩⟩)

omit hop in
theorem markRevalidationRequired_moves (request : MarkRevalidationRequest) :
    Moves (.markRevalidationRequired request) impl impl
      (impl.markRevalidationRequired request).1 := by
  unfold Impl.markRevalidationRequired
  split
  · exact .refl
  split
  · exact .refl
  rename_i entry hentry
  split
  · exact .refl
  rename_i hlive
  split
  · exact .refl
  split
  · exact .refl
  split
  · exact .refl
  dsimp only
  split
  · exact .refl
  rename_i hok
  obtain ⟨t, ht, heq⟩ := @markRevalidation_turn impl entry request (by simpa using hok)
  rw [heq]
  exact .single (.turn hentry (.inl hlive) (fun _ => rfl) ht)

omit hop in
theorem snapshot_moves (request : SnapshotRequest) :
    Moves op base impl (impl.snapshot request).1 :=
  .single (.outside (snapshot_sameLinks impl request) (snapshot_sameAuthority impl request).epoch.ge)

omit hop in
/-- Every operation but a load is a sequence of moves. -/
theorem apply_moves {op : Op} (h : op.isLoad = false) : Moves op impl impl (impl.apply op) := by
  cases op with
  | bindLink request => exact bindLink_moves impl id request
  | supersedeTopology request => exact supersedeTopology_moves impl id request
  | retireLink request => exact retireLink_moves impl request
  | registerPublisher request => exact registerPublisher_moves impl id request
  | invalidatePublisher request => exact invalidatePublisher_moves impl id request
  | advanceCoordinatorEpoch request => exact advanceCoordinatorEpoch_moves impl id request
  | publishEvidence request => exact publishEvidence_moves impl request
  | withdrawEvidence request => exact withdrawEvidence_moves impl request
  | transitionState request => exact transitionState_moves impl request
  | markRevalidationRequired request => exact markRevalidationRequired_moves impl request
  | reconcile => exact reconcile_moves impl
  | snapshot request => exact snapshot_moves impl request
  | load => cases h

end Moves

/-! ## Turns of live links -/

/-- Retired links have no current evidence. -/
def Impl.Sealed (impl : Impl) : Prop :=
  ∀ link entry, impl.entryOf link = some entry → entry.record.state = .retired → entry.current = []

section Live

variable {op : Op} {link : LinkId} {t t' : Edit}

theorem Turn.frame (h : Turn op link t t') : EditFrame t t' := by
  cases h with
  | halt h => exact h.frame
  | stall _ h => exact h.frame
  | retire _ h => exact h.frame
  | resolve h prepared publication publisher counters records hfits =>
    refine h.frame.trans ((EditFrame.commitPrepared hfits publication publisher).trans ?_)
    exact .still rfl rfl ⟨fun _ => rfl, rfl, rfl, rfl⟩ rfl rfl rfl rfl rfl

/-- A turn of a live link leaves it live, or without evidence. -/
theorem Turn.sealed (h : Turn op link t t') (hlive : t.entry.record.state ≠ .retired)
    (hretired : t'.entry.record.state = .retired) : t'.entry.current = [] := by
  cases h with
  | halt h => exact absurd (h.state.symm.trans hretired) hlive
  | stall _ h => exact h.current
  | retire _ h => exact h.current
  | resolve h prepared publication publisher counters records hfits =>
    have hstate := (Edit.commitPrepared_spec hfits publication publisher).2.state
    exact absurd (hstate.symm.trans hretired) hfits.target_live

variable {base impl impl' : Impl}

/-- What may become of an entry in a move: nothing, or it is new, or its link makes a turn. -/
theorem Move.entry_cases (h : Move op base impl impl') {l : LinkId} {e' : LinkEntry}
    (he' : impl'.entryOf l = some e') : impl.entryOf l = some e' ∨
      impl.entryOf l = none ∧ e'.New ∨
      ∃ e t, impl.entryOf l = some e ∧ (e.record.state ≠ .retired ∨ e.current ≠ []) ∧
        (op.Single → impl = base) ∧ Turn op l ⟨impl, e⟩ t ∧ impl' = t.commit l ∧ t.entry = e' := by
  cases h with
  | outside h _ =>
    exact .inl ((h.entryOf l).symm.trans he')
  | @bind _ link h =>
    by_cases hl : l = link
    · subst hl
      obtain ⟨e, he, hnew⟩ := h.bound
      obtain rfl : e = e' := Option.some.inj (he.symm.trans he')
      exact .inr (.inl ⟨h.unbound, hnew⟩)
    · exact .inl (by rw [← h.others l hl, he'])
  | @turn link entry t hentry hopen hfirst h =>
    rw [commit_entryOf] at he'
    split at he'
    · rename_i hl
      subst hl
      exact .inr (.inr ⟨entry, t, hentry, hopen, hfirst, h, rfl, Option.some.inj he'⟩)
    · exact .inl (by rw [← h.frame.entryOf l, he'])

theorem Move.sealed (h : Move op base impl impl') (hsealed : impl.Sealed) : impl'.Sealed := by
  intro l e' he' hretired
  rcases h.entry_cases he' with he | ⟨-, hnew⟩ | ⟨e, t, he, hopen, -, hturn, -, rfl⟩
  · exact hsealed l e' he hretired
  · exact hnew.current
  · have hlive : e.record.state ≠ .retired := fun hr =>
      hopen.elim (fun h => h hr) fun h => h (hsealed l e he hr)
    exact hturn.sealed hlive hretired

theorem Moves.sealed (h : Moves op base impl impl') (hsealed : impl.Sealed) : impl'.Sealed := by
  induction h with
  | refl => exact hsealed
  | tail _ hmove ih => exact hmove.sealed ih

theorem Move.le (h : Move op base impl impl') : impl.Le impl' := by
  cases h with
  | outside h _ => exact h.le
  | @bind _ link h =>
    refine ⟨h.config, h.globalGeneration.le, h.globalState.ge, fun l e he =>
      ⟨e, ?_, le_rfl, le_rfl⟩⟩
    rw [h.others l, he]
    rintro rfl
    rw [h.unbound] at he
    cases he
  | @turn link entry t hentry _ _ h =>
    have hself : (Edit.mk impl entry).commit link = impl := Impl.putEntry_self hentry
    rw [← hself]
    exact h.frame.le

theorem Moves.le (h : Moves op base impl impl') : impl.Le impl' := by
  induction h with
  | refl => exact .refl _
  | tail _ hmove ih => exact ih.trans hmove.le

theorem Moves.epoch_le (h : Moves op base impl impl') : impl.epoch ≤ impl'.epoch := by
  induction h with
  | refl => exact le_rfl
  | tail _ hmove ih =>
    refine ih.trans ?_
    cases hmove with
    | outside _ hepoch => exact hepoch
    | bind h => exact h.epoch.ge
    | turn _ _ _ h => exact h.frame.authority.epoch.ge

/-- What is known of the edit that a turn of a link starts from, in an operation from `base`. -/
structure Meets (op : Op) (base : Impl) (link : LinkId) (t : Edit) : Prop where
  bound : t.impl.entryOf link = some t.entry
  opened : t.entry.record.state ≠ .retired ∨ t.entry.current ≠ []
  first : op.Single → t.impl = base
  le : base.Le t.impl

/-- What becomes of an entry in one turn, becomes of it in a sequence of moves. A condition on the
engine that is never restored may be assumed of every turn. -/
theorem Moves.follow_of {R : LinkEntry → LinkEntry → Prop} {K : Impl → Prop}
    (hK : ∀ a b : Impl, a.Le b → K b → K a) {l : LinkId} (hrefl : ∀ entry, R entry entry)
    (htrans : ∀ {e e' e''}, R e e' → R e' e'' → R e e'')
    (hturn : ∀ t t', Meets op base l t → K (t'.commit l) → Turn op l t t' → R t.entry t'.entry)
    (h : Moves op base base impl') (hend : K impl') {e : LinkEntry}
    (he : base.entryOf l = some e) : ∃ e', impl'.entryOf l = some e' ∧ R e e' := by
  induction h with
  | refl => exact ⟨e, he, hrefl e⟩
  | tail hmoves hmove ih =>
    obtain ⟨e', he', hR⟩ := ih (hK _ _ hmove.le hend)
    cases hmove with
    | outside h _ =>
      exact ⟨e', (h.entryOf l).trans he', hR⟩
    | @bind _ link h =>
      refine ⟨e', ?_, hR⟩
      rw [h.others l, he']
      rintro rfl
      rw [h.unbound] at he'
      cases he'
    | @turn link entry t hentry hopen hfirst h =>
      by_cases hl : l = link
      · subst hl
        obtain rfl : entry = e' := Option.some.inj (hentry.symm.trans he')
        exact ⟨t.entry, by rw [commit_entryOf, if_pos rfl],
          htrans hR (hturn _ t ⟨hentry, hopen, hfirst, Moves.le hmoves⟩ hend h)⟩
      · exact ⟨e', by rw [commit_entryOf, if_neg hl, h.frame.entryOf, he'], hR⟩

theorem Moves.follow {R : LinkEntry → LinkEntry → Prop} (hrefl : ∀ entry, R entry entry)
    (htrans : ∀ {e e' e''}, R e e' → R e' e'' → R e e'')
    (hturn : ∀ link t t', Meets op base link t → Turn op link t t' → R t.entry t'.entry)
    (h : Moves op base base impl') {l : LinkId} {e : LinkEntry} (he : base.entryOf l = some e) :
    ∃ e', impl'.entryOf l = some e' ∧ R e e' :=
  h.follow_of (K := fun _ => True) (fun _ _ _ h => h) hrefl htrans
    (fun t t' hmeets _ => hturn l t t' hmeets) trivial he

/-- What holds of every new entry, and what every turn of a live link keeps, holds of every entry.
A condition on the engine that is never restored may be assumed of every turn. -/
theorem Moves.entries {Q : LinkId → LinkEntry → Prop} {K : Impl → Prop}
    (hK : ∀ a b : Impl, a.Le b → K b → K a) (hindexed : Indexed base) (hsealed : base.Sealed)
    (hbind : ∀ link entry, entry.New → Q link entry)
    (hturn : ∀ link t t', t.entry.record.state ≠ .retired →
      (op.Single → (t.entry.current.map (·.key)).Nodup) → K (t'.commit link) →
      Turn op link t t' → Q link t.entry → Q link t'.entry)
    (h : Moves op base base impl') (hend : K impl')
    (hQ : ∀ link entry, base.entryOf link = some entry → Q link entry) :
    ∀ link entry, impl'.entryOf link = some entry → Q link entry := by
  induction h with
  | refl => exact hQ
  | @tail impl _ hmoves hmove ih =>
    intro l e' he'
    have ih := ih (hK _ _ hmove.le hend)
    rcases hmove.entry_cases he' with he | ⟨-, hnew⟩ | ⟨e, t, he, hopen, hfirst, ht, heq, rfl⟩
    · exact ih l e' he
    · exact hbind l e' hnew
    · have hlive : e.record.state ≠ .retired := fun hr =>
        hopen.elim (fun h => h hr) fun h => h (Moves.sealed hmoves hsealed l e he hr)
      refine hturn l _ t hlive (fun hsingle => ?_) (by rw [← heq]; exact hend) ht (ih l e he)
      obtain rfl := hfirst hsingle
      exact (hindexed.slotted l e he).nodup

end Live

theorem sealed_recover (impl : Impl) {payload : JournalPayload} (h : payload.Decoded) :
    (impl.recover payload).impl.Sealed := by
  intro link entry he _
  obtain ⟨_, -, -, hr⟩ := recover_entryOf impl h he
  exact hr.current

theorem Impl.Sealed.apply {impl : Impl} (h : impl.Sealed) (op : Op) : (impl.apply op).Sealed := by
  cases hload : op.isLoad with
  | false => exact (apply_moves impl hload).sealed h
  | true =>
    cases op with
    | load config steps file =>
      show Sealed (impl.load config steps file).1
      rcases load_cases impl config steps file with ⟨_, -, heq⟩ | ⟨_, payload, _, -, hdecode, heq, -⟩
      · rw [heq]; exact h
      · rw [heq]; exact sealed_recover impl (decodeJournal_decoded hdecode)
    | _ => cases hload

theorem Impl.Reachable.sealed {impl : Impl} (h : impl.Reachable) : impl.Sealed := by
  refine h.invariant ?_ fun _ op hsealed _ => hsealed.apply op
  rintro _ ⟨config, rfl⟩ link entry hentry
  rw [Impl.entryOf_create] at hentry
  cases hentry

end LinkState
