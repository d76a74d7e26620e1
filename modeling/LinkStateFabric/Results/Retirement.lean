import LinkStateFabric.Engine.Outcomes
import LinkStateFabric.Engine.Sessions
import LinkStateFabric.Results.Indexes

/-!
# A retired link stays as it is

No operation makes a turn of a retired link, because it has no evidence (`Impl.Sealed`), and recovery
adopts a retired record as it is. `retired_sink` puts these together over the sessions of an engine.
-/

namespace LinkState

/-- The entry of a retired link, with what it was retired with. -/
structure LinkEntry.Rests (entry entry' : LinkEntry) : Prop where
  binding : entry'.record.binding = entry.record.binding
  state : entry'.record.state = .retired
  resultClass : entry'.record.resultClass = entry.record.resultClass
  stateGeneration : entry'.record.stateGeneration = entry.record.stateGeneration
  evidenceGeneration : entry'.record.evidenceGeneration = entry.record.evidenceGeneration
  current : entry'.current = []

/-- The link rests in the engine. -/
def Impl.Rests (link : LinkId) (entry : LinkEntry) (impl : Impl) : Prop :=
  ∃ entry', impl.entryOf link = some entry' ∧ entry.Rests entry'

section Rests

variable {link : LinkId} {entry : LinkEntry}

/-- No operation makes a turn of a retired link. -/
theorem Impl.Rests.apply {impl : Impl} (h : impl.Rests link entry) {op : Op}
    (hload : op.isLoad = false) : (impl.apply op).Rests link entry := by
  obtain ⟨entry', hentry', hrest⟩ := h
  obtain ⟨entry'', hentry'', hsame⟩ := Moves.follow
    (R := fun e e' => e.record.state = .retired ∧ e.current = [] → e' = e) (fun _ _ => rfl)
    (fun h h' hclosed => by obtain rfl := h hclosed; exact h' hclosed)
    (fun _ _ _ hmeets _ hclosed => hmeets.opened.elim (fun h => absurd hclosed.1 h) fun h =>
      absurd hclosed.2 h) (apply_moves impl hload) hentry'
  obtain rfl := hsame ⟨hrest.state, hrest.current⟩
  exact ⟨entry'', hentry'', hrest⟩

/-- A journal keeps a retired link, and recovery adopts it. -/
theorem Restores.rests {saved impl impl' : Impl} {includeHistory : Bool}
    (h : Restores saved impl impl' includeHistory) (hsaved : saved.Rests link entry) :
    impl'.Rests link entry := by
  obtain ⟨entry', hentry', hrest⟩ := hsaved
  refine ⟨_, by rw [h.entries, hentry']; rfl, ?_⟩
  have hretired : (persistEntry includeHistory entry').record.state = .retired := by
    unfold persistEntry
    cases includeHistory <;> exact hrest.state
  dsimp only
  rw [recoveredEntry, if_pos hretired]
  unfold restoredEntry persistEntry
  cases includeHistory <;>
    exact ⟨hrest.binding, hrest.state, hrest.resultClass, hrest.stateGeneration,
      hrest.evidenceGeneration, rfl⟩

/-! ## Requests -/

/-- The operation is a request about the link that a retired link turns away. -/
def Op.Concerns (link : LinkId) : Op → Prop
  | .bindLink request => request.binding.link = link
  | .supersedeTopology request => request.link = link
  | .publishEvidence request => request.observation.key.link = link
  | .withdrawEvidence request => request.key.link = link
  | .transitionState request => request.link = link
  | .markRevalidationRequired request => request.link = link
  | _ => False

section Requests

variable {impl : Impl} (hentry : impl.entryOf link = some entry)
  (hretired : entry.record.state = .retired)

include hentry hretired

theorem not_live_of_retired {entry' : LinkEntry} (h : impl.entryOf link = some entry') :
    ¬ entry'.record.state ≠ .retired := by
  obtain rfl : entry = entry' := Option.some.inj (hentry.symm.trans h)
  exact not_not.mpr hretired

theorem publishEvidence_of_retired {request : PublishEvidenceRequest}
    (hlink : request.observation.key.link = link) :
    (impl.publishEvidence request).2.outcome.code.accepts = false := by
  subst hlink
  rcases publishEvidence_outcome impl request with h | ⟨entry', hadmit, -⟩ | ⟨_, _, h, -⟩
  · exact h.code
  · obtain ⟨hbound, hlive, -⟩ := replay_of_admit hadmit
    exact absurd hlive (not_live_of_retired hentry hretired hbound)
  · exact absurd h.live (not_live_of_retired hentry hretired h.bound)

theorem withdrawEvidence_of_retired {request : WithdrawEvidenceRequest}
    (hlink : request.key.link = link) :
    (impl.withdrawEvidence request).2.outcome.code.accepts = false := by
  subst hlink
  rcases withdrawEvidence_outcome impl request with h | ⟨_, _, _, h, -⟩
  · exact h.code
  · exact absurd h.live (not_live_of_retired hentry hretired h.bound)

theorem markRevalidationRequired_of_retired {request : MarkRevalidationRequest}
    (hlink : request.link = link) :
    (impl.markRevalidationRequired request).2.outcome.code.accepts = false := by
  subst hlink
  rcases markRevalidationRequired_outcome impl request with h | ⟨_, _, h, -⟩
  · exact h.code
  · exact absurd h.live (not_live_of_retired hentry hretired h.bound)

theorem transitionState_of_retired {request : TransitionStateRequest}
    (hlink : request.link = link) :
    (impl.transitionState request).2.outcome.code.accepts = false := by
  subst hlink
  rcases transitionState_outcome impl request with h | ⟨_, _, h, -⟩ | ⟨_, _, h, -⟩
  · exact h.code
  · exact absurd h.live (not_live_of_retired hentry hretired h.bound)
  · exact absurd h.live (not_live_of_retired hentry hretired h.bound)

theorem supersedeTopology_of_retired {request : SupersedeTopologyRequest}
    (hlink : request.link = link) :
    (impl.supersedeTopology request).2.outcome.code.accepts = false := by
  subst hlink
  rcases supersedeTopology_outcome impl request with h | ⟨_, _, -, -, h, -⟩
  · exact h.code
  · exact absurd h.live (not_live_of_retired hentry hretired h.bound)

theorem bindLink_of_retired {request : BindLinkRequest} (hlink : request.binding.link = link) :
    (impl.bindLink request).2.outcome.code.accepts = false := by
  have hnormal : request.binding.normalize.link = link := hlink
  unfold Impl.bindLink
  dsimp only
  rw [hnormal, hentry]
  split
  · rfl
  · dsimp only
    rw [if_pos hretired]
    rfl

theorem outcome_of_retired {op : Op} (h : op.Concerns link) :
    ∀ outcome ∈ impl.outcome op, outcome.code.accepts = false := by
  intro outcome houtcome
  cases op with
  | bindLink => cases houtcome; exact bindLink_of_retired hentry hretired h
  | supersedeTopology => cases houtcome; exact supersedeTopology_of_retired hentry hretired h
  | publishEvidence => cases houtcome; exact publishEvidence_of_retired hentry hretired h
  | withdrawEvidence => cases houtcome; exact withdrawEvidence_of_retired hentry hretired h
  | transitionState => cases houtcome; exact transitionState_of_retired hentry hretired h
  | markRevalidationRequired =>
    cases houtcome
    exact markRevalidationRequired_of_retired hentry hretired h
  | _ => cases h

end Requests

/-! ## Sessions -/

/-- A retired link stays as it is, whatever is done and saved, and loaded of what was saved; and no
request about it is carried out. -/
theorem retired_sink {impl : Impl} (h : impl.Reachable) (hentry : impl.entryOf link = some entry)
    (hretired : entry.record.state = .retired) {s : Session}
    (hs : Runs.Run (· = ⟨impl, []⟩) Session.apply Session.Own s) :
    (∃ entry', s.impl.entryOf link = some entry' ∧ entry.Rests entry') ∧
    ∀ op : Op, op.Concerns link → ∀ outcome ∈ s.impl.outcome op, outcome.code.accepts = false := by
  have hrests : impl.Rests link entry :=
    ⟨entry, hentry, rfl, hretired, rfl, rfl, rfl, h.sealed link entry hentry hretired⟩
  obtain ⟨⟨-, entry', hentry', hrest⟩, -⟩ := Session.invariant
    (P := fun impl => Indexed impl ∧ impl.Rests link entry) (fun _ _ h => h)
    (fun _ hstart => by subst hstart; exact ⟨⟨h.indexed, hrests⟩, rfl⟩) (fun _ h => h.1)
    (fun _ op _ hload h => ⟨h.1.apply op, h.2.apply hload⟩)
    (fun _ _ _ _ hsaved _ hrestores => ⟨hrestores.indexed, hrestores.rests hsaved.2⟩) hs
  exact ⟨⟨entry', hentry', hrest⟩, fun op hop => outcome_of_retired hentry' hrest.state hop⟩

end Rests

namespace Sample

/-- The small run, and then the link is retired. -/
def retired : Impl := engine.apply (.retireLink
  { link, publication, publisher, workerBoot := boot, topologyGeneration := .fromValue 1 })

theorem retired_bound : (retired.entryOf link).isSome = true := by decide

end Sample

/-- The link of the small run, retired, and then the engine is reconciled. -/
theorem retired_sink_sample : ∃ entry',
    ((Session.mk Sample.retired []).apply (.op .reconcile)).impl.entryOf Sample.link = some entry' ∧
    ((Sample.retired.entryOf Sample.link).get Sample.retired_bound).Rests entry' :=
  have hentry : Sample.retired.entryOf Sample.link =
      some ((Sample.retired.entryOf Sample.link).get Sample.retired_bound) :=
    (Option.some_get _).symm
  have hrun := @Runs.Run.step Session Session.Act (· = ⟨Sample.retired, []⟩) Session.apply
    Session.Own ⟨Sample.retired, []⟩ (.op .reconcile) (.start rfl) trivial
  (retired_sink (Sample.reachable.step _ trivial) hentry (by decide) hrun).1

end LinkState
