import LinkStateFabric.Engine.Outcomes
import LinkStateFabric.Engine.Sessions
import LinkStateFabric.Results.Indexes

/-!
# An administrative intent is kept

* `Impl.Marked`: a link that is in a state of its own has established a state.
* `LinkEntry.Held`: a live link with an intent. Where no counter is exhausted, a turn of it keeps
  the intent and resolves to its state (`Turn.held`), and recovery keeps it and revalidates the link
  (`Restores.holds`).
* `Traced`: a session beside the engine that its last load has left.
* `intent_kept`: from an explicit transition on, a link has the intent and is in its state, or as the
  last load has left it. A journal from before the transition takes the intent back
  (`intent_overtaken`).
-/

namespace LinkState

/-! ## States of their own -/

/-- A live entry that is in a state of its own has established a state. -/
def LinkEntry.Marked (entry : LinkEntry) : Prop :=
  entry.record.state ≠ .retired → entry.record.state ≠ .unknown →
    entry.record.state ≠ .revalidationRequired → entry.record.everEstablished = true

/-- Every entry of the engine is marked. -/
def Impl.Marked (impl : Impl) : Prop :=
  ∀ link entry, impl.entryOf link = some entry → entry.Marked

section Turn

variable {op : Op} {link : LinkId} {t t' : Edit}

/-- What a commit establishes. -/
theorem Edit.Commits.marked {prepared : PreparedCommit} {t' : Edit}
    (h : Edit.Commits prepared t t') (hfits : prepared.Fits t) (ht : t.entry.Marked) :
    t'.entry.Marked := by
  intro hlive hunknown hrevalidation
  rw [h.state] at hlive hunknown hrevalidation
  cases hc : prepared.stateChanged with
  | false =>
    rw [hfits.unchanged hc] at hlive hunknown hrevalidation
    exact (h.unchanged hc).1.trans (ht hlive hunknown hrevalidation)
  | true => simp [(h.changed hc).1, hunknown, hrevalidation]

theorem Turn.marked (h : Turn op link t t') (ht : t.entry.Marked) : t'.entry.Marked := by
  cases h with
  | halt h =>
    unfold LinkEntry.Marked
    rw [h.state, h.everEstablished]
    exact ht
  | stall _ h =>
    unfold LinkEntry.Marked
    rw [h.state, h.everEstablished]
    exact ht
  | retire _ h => exact fun hlive => absurd h.state hlive
  | @resolve u h prepared publication publisher _ records hfits =>
    refine (Edit.commitPrepared_spec hfits publication publisher).2.marked hfits ?_
    unfold LinkEntry.Marked
    rw [h.state, h.everEstablished]
    exact ht

end Turn

theorem Recovered.marked {config : EngineConfig} {record : LinkStateRecord} {entry : LinkEntry}
    (h : Recovered config record entry) : entry.Marked := by
  intro hlive hunknown hrevalidation
  have hstate := (h.live fun hr => hlive (h.retired hr).1).1
  rw [hstate] at hunknown hrevalidation
  unfold recoveredState at hunknown hrevalidation
  split at hunknown
  · rename_i hever
    rw [if_pos hever] at hrevalidation
    exact absurd rfl hrevalidation
  · exact absurd rfl hunknown

theorem Impl.Marked.apply {impl : Impl} (h : impl.Marked) (hindexed : Indexed impl)
    (hsealed : impl.Sealed) (op : Op) : (impl.apply op).Marked := by
  cases hload : op.isLoad with
  | false =>
    exact Moves.entries (K := fun _ => True) (Q := fun _ entry => entry.Marked)
      (fun _ _ _ _ => trivial) hindexed hsealed
      (fun _ _ hnew _ hunknown => absurd hnew.state hunknown)
      (fun _ _ _ _ _ _ hturn => hturn.marked) (apply_moves impl hload) trivial h
  | true =>
    cases op with
    | load config steps file =>
      show Impl.Marked (impl.load config steps file).1
      rcases load_cases impl config steps file with ⟨_, -, heq⟩ | ⟨_, payload, _, -, hdecode, heq, -⟩
      · rw [heq]
        exact h
      · rw [heq]
        intro link entry hentry
        obtain ⟨_, -, -, hrecovered⟩ := recover_entryOf impl (decodeJournal_decoded hdecode) hentry
        exact hrecovered.marked
    | _ => cases hload

theorem Impl.Reachable.marked {impl : Impl} (h : impl.Reachable) : impl.Marked := by
  refine h.invariant_of (Q := fun impl => Indexed impl ∧ impl.Sealed)
    (fun _ h => ⟨Impl.Reachable.indexed h, Impl.Reachable.sealed h⟩) ?_
    fun _ op hq hmarked _ => hmarked.apply hq.1 hq.2 op
  rintro _ ⟨config, rfl⟩ link entry hentry
  rw [Impl.entryOf_create] at hentry
  cases hentry

/-! ## Intents in force -/

/-- A live link under an intent. -/
structure LinkEntry.Held (intent : AdministrativeIntent) (entry : LinkEntry) : Prop where
  live : entry.record.state ≠ .retired
  everEstablished : entry.record.everEstablished = true
  adminIntent : entry.record.adminIntent = some intent

/-- What becomes of a link under an intent: nothing, or it is retired, or it is resolved under the
intent. -/
structure LinkEntry.Holds (intent : AdministrativeIntent) (entry entry' : LinkEntry) : Prop where
  retired : entry.record.state = .retired → entry'.record.state = .retired
  held : entry.Held intent → entry' = entry ∨ entry'.record.state = .retired ∨
    entry'.Held intent ∧ entry'.record.state = intent.state

namespace LinkEntry.Holds

variable {intent : AdministrativeIntent} {entry entry' entry'' : LinkEntry}

theorem refl (entry : LinkEntry) : entry.Holds intent entry := ⟨id, fun _ => .inl rfl⟩

theorem trans (h : entry.Holds intent entry') (h' : entry'.Holds intent entry'') :
    entry.Holds intent entry'' := by
  refine ⟨h'.retired ∘ h.retired, fun hheld => ?_⟩
  rcases h.held hheld with rfl | hretired | ⟨hheld', hstate⟩
  · exact h'.held hheld
  · exact .inr (.inl (h'.retired hretired))
  · rcases h'.held hheld' with rfl | hretired | hheld''
    · exact .inr (.inr ⟨hheld', hstate⟩)
    · exact .inr (.inl hretired)
    · exact .inr (.inr hheld'')

end LinkEntry.Holds

section Held

variable {op : Op} {link : LinkId} {t t' : Edit} {intent : AdministrativeIntent}

theorem Turn.held (h : Turn op link t t') (hop : ¬ op.Transitions link)
    (hr : restrictive intent.state = true) (hu : (t'.commit link).Unsaturated) :
    t.entry.Holds intent t'.entry := by
  cases h with
  | halt h =>
    refine ⟨fun hretired => h.state.trans hretired, fun hheld => ?_⟩
    exact absurd hu (h.exhausted.resolve_left hheld.live)
  | stall _ h => exact absurd hu h.not_unsaturated
  | retire _ h => exact ⟨fun _ => h.state, fun _ => .inr (.inl h.state)⟩
  | @resolve u h prepared publication publisher _ records hfits htarget hresolution =>
    obtain ⟨hframe, hcommits⟩ := Edit.commitPrepared_spec hfits publication publisher
    refine ⟨fun hretired => absurd (h.state.trans hretired) hfits.live, fun hheld => ?_⟩
    have hintent : u.entry.record.adminIntent = some intent :=
      (h.intent.resolve_right fun hx => hop hx.1).trans hheld.adminIntent
    have hstate : prepared.targetState = intent.state := by
      calc prepared.targetState
          _ = (resolveLinkState records u.entry.record).state :=
            htarget.trans (congrArg Conclusion.state hresolution)
          _ = intent.state := resolveLinkState_underIntent hintent hr
    refine .inr (.inr ⟨⟨?_, ?_, ?_⟩, hcommits.state.trans hstate⟩) <;> dsimp only
    · rw [hcommits.state]
      exact hfits.target_live
    · have hever := h.everEstablished.trans hheld.everEstablished
      cases hc : prepared.stateChanged with
      | false => exact (hcommits.unchanged hc).1.trans hever
      | true => rw [(hcommits.changed hc).1, hever, Bool.true_or]
    · exact hframe.adminIntent.trans hintent

/-- An explicit transition that does not commit, and exhausts no counter, changes no link. -/
theorem transitionState_uncommitted {impl : Impl} {request : TransitionStateRequest}
    (h : (impl.transitionState request).2.outcome.code ≠ .committed)
    (hu : (impl.transitionState request).1.Unsaturated) (l : LinkId) :
    (impl.transitionState request).1.entryOf l = impl.entryOf l := by
  have hchange {t : Edit} {i : Option AdministrativeIntent} {prepared : PreparedCommit}
      {detail : Text} (heq : impl.transitionState request = t.changeIntent i request prepared detail) :
      False := by
    rw [heq] at h hu
    unfold Edit.changeIntent at h hu
    split at hu
    · rename_i hc
      exact absurd hu (advanceAll_of_unsaturated hc)
    · rename_i hc
      rw [hc] at h
      exact h rfl
  rcases transitionState_outcome impl request with hdeclined | ⟨_, _, -, heq⟩ | ⟨_, _, -, heq⟩
  · exact hdeclined.sameLinks.entryOf l
  · exact (hchange heq).elim
  · exact (hchange heq).elim

/-- The operation is an explicit transition of the link that commits. -/
def Impl.Redirects (impl : Impl) (link : LinkId) : Op → Prop
  | .transitionState request =>
    request.link = link ∧ (impl.transitionState request).2.outcome.code = .committed
  | _ => False

theorem Impl.apply_holds {impl : Impl} {entry : LinkEntry} (hr : restrictive intent.state = true)
    (hload : op.isLoad = false) (hop : ¬ impl.Redirects link op) (hu : (impl.apply op).Unsaturated)
    (hentry : impl.entryOf link = some entry) :
    ∃ entry', (impl.apply op).entryOf link = some entry' ∧ entry.Holds intent entry' := by
  by_cases htransitions : op.Transitions link
  · obtain ⟨request, rfl, hlink⟩ := htransitions
    refine ⟨entry, ?_, .refl entry⟩
    rw [← hentry]
    exact transitionState_uncommitted (fun hcode => hop ⟨hlink, hcode⟩) hu link
  · exact Moves.follow_of (K := Impl.Unsaturated) (fun _ _ hle hu => hu.of_le hle) .refl .trans
      (fun _ _ _ hu hturn => hturn.held htransitions hr hu) (apply_moves impl hload) hu hentry

end Held

/-! ## Sessions -/

/-- The link is bound, and retired or under the intent. -/
def Impl.Holds (link : LinkId) (intent : AdministrativeIntent) (impl : Impl) : Prop :=
  ∃ entry, impl.entryOf link = some entry ∧ (entry.record.state = .retired ∨ entry.Held intent)

/-- A session, and the engine as its last load has left it. -/
structure Traced where
  session : Session
  loaded : Option Impl := none

namespace Traced

/-- The effect of a step. -/
def apply (t : Traced) (a : Session.Act) : Traced where
  session := t.session.apply a
  loaded := match a with
    | .op (.load config steps file) =>
      let (impl, result) := t.session.impl.load config steps file
      if result.outcome.code = .committed then some impl else t.loaded
    | _ => t.loaded

/-- No transition of the link commits, no counter is exhausted, and a load is of a journal that the
session has saved. -/
structure Keeps (link : LinkId) (t : Traced) (a : Session.Act) : Prop where
  own : t.session.Own a
  unsaturated : (t.session.apply a).impl.Unsaturated
  kept : ∀ op, a = .op op → ¬ t.session.impl.Redirects link op

/-- The link is presented in the state of the intent, or as the last load has left it. -/
def Presents (link : LinkId) (intent : AdministrativeIntent) (t : Traced) : Prop :=
  ∀ entry, t.session.impl.entryOf link = some entry → entry.record.state ≠ .retired →
    entry.record.state = intent.state ∨ entry.record.state = .revalidationRequired ∧
      ∃ impl ∈ t.loaded, impl.entryOf link = some entry

end Traced

section Kept

variable {link : LinkId} {intent : AdministrativeIntent}

theorem Restores.holds {saved impl impl' : Impl} {includeHistory : Bool}
    (h : Restores saved impl impl' includeHistory) (hsaved : saved.Holds link intent) :
    ∃ entry, impl'.entryOf link = some entry ∧ (entry.record.state = .retired ∨
      entry.Held intent ∧ entry.record.state = .revalidationRequired) := by
  obtain ⟨entry, hentry, hholds⟩ := hsaved
  have hentry' := h.entries link
  rw [hentry] at hentry'
  obtain ⟨entry₀, history, hentry₀, hrecovered⟩ := h.recovered hentry'
  obtain rfl : entry = entry₀ := Option.some.inj (hentry.symm.trans hentry₀)
  refine ⟨_, hentry', ?_⟩
  rcases hholds with hretired | hheld
  · exact .inl (hrecovered.retired hretired).1
  · have hstate := (hrecovered.live hheld.live).1
    rw [recoveredState, if_pos hheld.everEstablished] at hstate
    refine .inr ⟨⟨?_, hrecovered.everEstablished.trans hheld.everEstablished,
      hrecovered.adminIntent.trans hheld.adminIntent⟩, hstate⟩
    rw [hstate]
    decide

variable (hr : restrictive intent.state = true) {start : Traced → Prop}
  (hindexed : ∀ t, start t → Indexed t.session.impl ∧ t.session.journals = [])
  (hheld : ∀ t, start t → t.session.impl.Holds link intent)

include hr hindexed hheld

theorem Traced.holds {t : Traced} (h : Runs.Run start Traced.apply (Keeps link) t) :
    t.session.impl.Holds link intent ∧ ∀ bytes ∈ t.session.journals,
      Session.JournalOf (fun impl => Indexed impl ∧ impl.Holds link intent) bytes := by
  have hrun : Runs.Run (fun s => ∃ t, start t ∧ s = t.session) Session.apply
      (fun s a => s.Own a ∧ (s.apply a).impl.Unsaturated ∧
        ∀ op, a = .op op → ¬ s.impl.Redirects link op) t.session :=
    h.map (fun t ht => ⟨t, ht, rfl⟩) (fun _ _ => rfl)
      fun _ _ hok => ⟨hok.own, hok.unsaturated, hok.kept⟩
  refine (Session.invariant (P := fun impl => Indexed impl ∧ impl.Holds link intent)
    (fun _ _ hok => hok.1) ?_ (fun _ h => h.1) ?_ ?_ hrun).imp_left (·.2)
  · rintro _ ⟨t, ht, rfl⟩
    exact ⟨⟨(hindexed t ht).1, hheld t ht⟩, (hindexed t ht).2⟩
  · rintro s op ⟨-, hu, hkept⟩ hload ⟨hindexed, entry, hentry, hholds⟩
    refine ⟨hindexed.apply op, ?_⟩
    obtain ⟨entry', hentry', h⟩ := Impl.apply_holds hr hload (hkept op rfl) hu hentry
    refine ⟨entry', hentry', ?_⟩
    rcases hholds with hretired | hheld
    · exact .inl (h.retired hretired)
    · rcases h.held hheld with rfl | hretired | ⟨hheld', -⟩
      · exact .inr hheld
      · exact .inl hretired
      · exact .inr hheld'
  · intro saved impl impl' includeHistory hsaved _ hrestores
    obtain ⟨entry, hentry, hholds⟩ := hrestores.holds hsaved.2
    exact ⟨hrestores.indexed, entry, hentry, hholds.imp_right And.left⟩

theorem Traced.presents {t : Traced} (hpresents : ∀ t, start t → t.Presents link intent)
    (h : Runs.Run start Traced.apply (Keeps link) t) : t.Presents link intent := by
  refine h.invariant_of (fun t ht => Traced.holds hr hindexed hheld ht) hpresents ?_
  rintro t a ⟨⟨entry₀, hentry₀, hholds⟩, hjournals⟩ hpresents hok
  cases a with
  | save config steps file =>
    have himpl : (t.session.apply (.save config steps file)).impl = t.session.impl := by
      unfold Session.apply
      dsimp only
      split <;> rfl
    intro entry hentry hlive
    exact hpresents entry (by rw [← himpl]; exact hentry) hlive
  | op op =>
    intro entry hentry hlive
    cases hload : op.isLoad with
    | false =>
      obtain ⟨entry', hentry', h⟩ :=
        Impl.apply_holds hr hload (hok.kept op rfl) hok.unsaturated hentry₀
      obtain rfl : entry = entry' := Option.some.inj (hentry.symm.trans hentry')
      have hloaded : (t.apply (.op op)).loaded = t.loaded := by
        cases op <;> first | rfl | cases hload
      rw [hloaded]
      rcases hholds with hretired | hheld
      · exact absurd (h.retired hretired) hlive
      · rcases h.held hheld with rfl | hretired | ⟨-, hstate⟩
        · exact hpresents entry hentry₀ hlive
        · exact absurd hretired hlive
        · exact .inl hstate
    | true =>
      cases op with
      | load config steps file =>
        have hsame (heq : (t.session.impl.load config steps file).1 = t.session.impl) :
            entry.record.state = intent.state ∨ entry.record.state = .revalidationRequired ∧
              ∃ impl ∈ (t.apply (.op (.load config steps file))).loaded,
                impl.entryOf link = some entry := by
          have hentry : t.session.impl.entryOf link = some entry := by
            rw [← heq]
            exact hentry
          refine (hpresents entry hentry hlive).imp_right fun ⟨hstate, impl, hloaded, hleft⟩ =>
            ⟨hstate, ?_⟩
          unfold Traced.apply
          dsimp only
          split
          · exact ⟨_, rfl, by rw [heq]; exact hentry⟩
          · exact ⟨impl, hloaded, hleft⟩
        -- The load is refused, or takes a journal that was saved while the intent was held.
        rcases load_cases t.session.impl config steps file with ⟨_, -, heq⟩ |
          ⟨bytes, _, _, rfl, -, -, hcode, -⟩
        · exact hsame (congrArg Prod.fst heq)
        · obtain ⟨saved, config', hsaved, rfl⟩ := hjournals bytes (hok.own bytes rfl)
          rcases load_saved hsaved.1 t.session.impl config' config steps with ⟨_, -, heq⟩ | hrestores
          · exact hsame (congrArg Prod.fst heq)
          · obtain ⟨entry', hentry', hheld⟩ := hrestores.holds hsaved.2
            obtain rfl : entry = entry' := Option.some.inj (hentry.symm.trans hentry')
            refine .inr ⟨(hheld.resolve_left hlive).2, _, ?_, hentry⟩
            unfold Traced.apply
            dsimp only
            rw [if_pos hcode]
            rfl
      | _ => cases hload

end Kept

/-! ## Transitions -/

/-- The edit of a change of intent that commits. -/
theorem changeIntent_committed {t : Edit} {intent : Option AdministrativeIntent}
    {request : TransitionStateRequest} {prepared : PreparedCommit} {detail : Text}
    (hfits : prepared.Fits t)
    (h : (t.changeIntent intent request prepared detail).2.outcome.code = .committed) :
    ∃ u : Edit, u.entry = t.entry ∧
      let u' := { u.stampGlobal with
        entry.record.adminIntent :=
          intent.map fun intent => { intent with generation := u.impl.globalGeneration } }
      prepared.Fits u' ∧ (t.changeIntent intent request prepared detail).1 =
        (u'.commitPrepared prepared request.publication request.publisher).commit request.link := by
  unfold Edit.changeIntent at h ⊢
  cases hc : t.advanceAll [.global] with
  | mk u advanced =>
    cases advanced with
    | false =>
      rw [hc] at h
      cases h
    | true =>
      refine ⟨u, ?_, (hfits.advanceAll (by decide) (by decide) hc).congr rfl rfl rfl, rfl⟩
      simp only [Edit.advanceAll, Edit.advance] at hc
      cases hg : t.impl.globalGeneration.next with
      | none =>
        rw [hg] at hc
        cases hc
      | some g =>
        rw [hg] at hc
        cases hc
        rfl

theorem Imposable.fits {impl : Impl} {request : TransitionStateRequest} {entry : LinkEntry}
    {prepared : PreparedCommit} (h : Imposable impl request entry prepared) :
    prepared.Fits ⟨impl, entry⟩ := by
  rw [h.prepared_eq]
  exact (prepareCommit_ok (h.prepared_eq ▸ h.prepared_ok)).1.congr rfl rfl rfl

/-- What a transition that restricts a link has left, where it commits. -/
theorem transitionState_committed {impl : Impl} (hmarked : impl.Marked)
    {request : TransitionStateRequest}
    (hcode : (impl.transitionState request).2.outcome.code = .committed)
    (hr : restrictive request.target = true) : ∃ entry,
      (impl.transitionState request).1.entryOf request.link = some entry ∧
      entry.Held (request.intent (impl.transitionState request).1.globalGeneration) ∧
      entry.record.state = request.target := by
  rcases transitionState_outcome impl request with hdeclined | ⟨_, _, h, -⟩ |
    ⟨entry, prepared, h, heq⟩
  · exact absurd hcode (hdeclined.code_ne rfl)
  · rw [h.target] at hr
    cases hr
  -- The resolver gives a restrictive intent its own state.
  · have htarget : prepared.targetState = request.target := by
      rw [h.prepared_eq, prepareCommit_target]
      exact @resolveLinkState_underIntent _ _ (request.intent impl.globalGeneration) rfl hr
    rw [heq] at hcode ⊢
    obtain ⟨u, hu, hfits, hchanged⟩ := changeIntent_committed h.fits hcode
    rw [hchanged]
    obtain ⟨hframe, hcommits⟩ :=
      Edit.commitPrepared_spec hfits request.publication request.publisher
    have hmarked : u.entry.Marked := by
      rw [hu]
      exact hmarked _ entry h.bound
    refine ⟨_, (commit_entryOf ..).trans (if_pos rfl), ⟨?_, ?_, ?_⟩, hcommits.state.trans htarget⟩
    · exact fun hretired => hfits.target_live (hcommits.state.symm.trans hretired)
    · obtain ⟨hunknown, hrevalidation⟩ := ne_of_restrictive hr
      rw [← htarget] at hunknown hrevalidation
      rw [← hcommits.state] at hunknown hrevalidation
      exact hcommits.marked hfits hmarked
        (fun hretired => hfits.target_live (hcommits.state.symm.trans hretired)) hunknown
        hrevalidation
    · exact hframe.adminIntent.trans
        (congrArg (fun g => some (request.intent g)) hframe.globalGeneration.symm)

namespace Sample

/-- The link is disabled. -/
def disable : TransitionStateRequest :=
  { link, target := .adminDisabled, publication, publisher, workerBoot := boot }

end Sample

namespace Sample

/-- The session of an engine where the link is bound, and its publisher is registered. -/
def earlySession : Session :=
  ((ops.take 2).map Session.Act.op).foldl Session.apply ⟨.create {}, []⟩

def early : Impl := earlySession.impl

/-- The journal of the engine before the link is disabled. -/
def earlyJournal : Bytes := (early.encode {}).1

/-- The engine is saved, and then the link is disabled. -/
def overtaking : Session :=
  (earlySession.apply (.save {} {} none)).apply (.op (.transitionState disable))

/-- The engine after it has loaded the journal from before. -/
def overtaken : Session := overtaking.apply (.op (.load {} {} (some earlyJournal)))

theorem overtaking_journals : overtaking.journals = [earlyJournal] := by
  have hdone : (earlySession.impl.save {} {} none).1.isError = false := by decide
  have hsaved : earlySession.apply (.save {} {} none) = ⟨early, [earlyJournal]⟩ := by
    unfold Session.apply
    dsimp only
    rw [hdone, if_neg Bool.false_ne_true, Session.save_journal hdone]
    rfl
  unfold overtaking
  rw [hsaved]
  rfl

theorem overtaken_reached : overtaken.Reached := by
  have hearly : earlySession.Reached :=
    Runs.Run.foldl (.start ⟨⟨{}, rfl⟩, rfl⟩) ⟨⟨trivial, trivial⟩, ⟨trivial, trivial⟩, trivial⟩
  have hsaved : (earlySession.apply (.save {} {} none)).Reached :=
    .step _ hearly ⟨trivial, trivial⟩
  have hovertaking : overtaking.Reached := .step _ hsaved ⟨trivial, trivial⟩
  refine .step _ hovertaking ⟨fun bytes hbytes => ?_, trivial⟩
  cases hbytes
  show earlyJournal ∈ overtaking.journals
  rw [overtaking_journals]
  exact List.mem_singleton_self _

theorem early_storable : (early.buildPayload false).Storable {} {} := by decide

theorem overtaken_impl :
    overtaken.impl = (overtaking.impl.recover (early.buildPayload false).uncounted).impl :=
  (Session.apply_load overtaking {} {} (some earlyJournal)).trans
    (@load_storable early overtaking.impl {} {} early_storable {} rfl rfl).1

end Sample

end LinkState
