import LinkStateFabric.Engine.Moves
import LinkStateFabric.Engine.Outcomes
import LinkStateFabric.Engine.Restored
import LinkStateFabric.Results.Intent

/-!
# Which snapshots are current

A snapshot counts as current while the engine has its state generation and its epoch.

* `LinkEntry.Unmoved`: an entry in the same state, with the same state generation. While the state
  generation of the engine stays, no operation moves a link (`Impl.apply_unmoved`), but for a
  retirement that halts at an exhausted state generation of the engine (`Impl.Strands`).
* `Impl.Answers`: what keeps a snapshot exact while it is current, from one operation to the next.
* `snapshot_current`: in a run whose loads overtake the snapshots that have been taken, or find them
  exact. A load can also take an engine to the generation of a snapshot whose links it revalidates
  (`snapshot_masquerades`).
-/

namespace LinkState

/-! ## States and their generations -/

/-- The entry is in the same state as before, since the same generation. -/
structure LinkEntry.Unmoved (entry entry' : LinkEntry) : Prop where
  state : entry'.record.state = entry.record.state
  stateGeneration : entry'.record.stateGeneration = entry.record.stateGeneration

theorem LinkEntry.Unmoved.refl (entry : LinkEntry) : entry.Unmoved entry := ⟨rfl, rfl⟩

theorem LinkEntry.Unmoved.trans {entry entry' entry'' : LinkEntry} (h : entry.Unmoved entry')
    (h' : entry'.Unmoved entry'') : entry.Unmoved entry'' :=
  ⟨h'.state.trans h.state, h'.stateGeneration.trans h.stateGeneration⟩

section Turn

variable {op : Op} {link : LinkId} {t t' : Edit}

/-- A turn that does not advance the state generation of the engine moves no link, or it is a
retirement that halts there. -/
theorem Turn.unmoved (h : Turn op link t t')
    (hsame : t'.impl.globalStateGeneration = t.impl.globalStateGeneration) :
    t.entry.Unmoved t'.entry ∨ op.Retires link ∧ Stalled t t' := by
  cases h with
  | halt h => exact .inl ⟨h.state, h.stateGeneration⟩
  | stall hop h => exact .inr ⟨hop, h⟩
  | retire _ h => exact absurd hsame h.globalState.ne'
  | @resolve u h prepared publication publisher _ records hfits =>
    obtain ⟨-, hcommits⟩ := Edit.commitPrepared_spec hfits publication publisher
    cases hc : prepared.stateChanged with
    | false =>
      refine .inl ⟨?_, (hcommits.unchanged hc).2.1.trans h.stateGeneration⟩
      exact (hcommits.state.trans (hfits.unchanged hc)).trans h.state
    | true =>
      have hlt := StrongGeneration.lt_next (hcommits.changed hc).2.2
      rw [h.globalState] at hlt
      exact absurd hsame hlt.ne'

end Turn

/-- The request is a retirement of the link that passes its checks, and advances every counter but
the state generation of the engine, which is exhausted. -/
def Impl.Strands (impl : Impl) (link : LinkId) : Op → Prop
  | .retireLink request => request.link = link ∧ ∃ entry, Retirable impl request entry ∧
      entry.record.evidenceGeneration.saturated = false ∧
      impl.globalGeneration.saturated = false ∧ entry.record.stateGeneration.saturated = false ∧
      impl.globalStateGeneration.saturated = true
  | _ => False

section Apply

variable {impl : Impl} {op : Op} {link : LinkId}

/-- A retirement that halts at the state generation of the engine has passed its checks. -/
theorem strands_of_stalled {t t' : Edit} (hmeets : Meets op impl link t) (h : Stalled t t')
    (hop : op.Retires link)
    (hchecks : ∀ request, op = .retireLink request → ∃ entry, Retirable impl request entry)
    (hsame : t.impl.globalStateGeneration = impl.globalStateGeneration) : impl.Strands link op := by
  obtain ⟨request, rfl, rfl⟩ := hop
  obtain ⟨entry, hretirable⟩ := hchecks request rfl
  obtain ⟨entry', hentry', hevidence, hstate⟩ := hmeets.le.entries _ _ hretirable.bound
  obtain rfl : t.entry = entry' := Option.some.inj (hmeets.bound.symm.trans hentry')
  refine ⟨rfl, entry, hretirable,
    StrongGeneration.not_saturated_of_lt hevidence h.evidenceGeneration,
    StrongGeneration.not_saturated_of_lt hmeets.le.globalGeneration h.globalGeneration,
    StrongGeneration.not_saturated_of_lt hstate h.stateGeneration, ?_⟩
  rw [← hsame, ← h.globalState]
  exact Edit.spent_globalState.mp h.exhausted

/-- While the state generation of the engine stays, no operation moves a link. -/
theorem Impl.apply_unmoved (hload : op.isLoad = false) (hstrands : ¬ impl.Strands link op)
    (hle : (impl.apply op).globalStateGeneration ≤ impl.globalStateGeneration)
    {entry : LinkEntry} (hentry : impl.entryOf link = some entry) :
    ∃ entry', (impl.apply op).entryOf link = some entry' ∧ entry.Unmoved entry' := by
  have hfollow (hchecks : ∀ request, op = .retireLink request →
      ∃ entry, Retirable impl request entry) :
      ∃ entry', (impl.apply op).entryOf link = some entry' ∧ entry.Unmoved entry' := by
    refine Moves.follow_of
      (K := fun impl' => impl'.globalStateGeneration ≤ impl.globalStateGeneration)
      (fun _ _ hle h => hle.globalStateGeneration.trans h) .refl .trans
      (fun t t' hmeets hK hturn => ?_) (apply_moves impl hload) hle hentry
    have hbefore : t.impl.globalStateGeneration = impl.globalStateGeneration :=
      le_antisymm (hturn.frame.globalStateGeneration.trans hK) hmeets.le.globalStateGeneration
    have hsame : t'.impl.globalStateGeneration = t.impl.globalStateGeneration :=
      le_antisymm (hK.trans hbefore.ge) hturn.frame.globalStateGeneration
    refine (hturn.unmoved hsame).resolve_right fun ⟨hop, hstalled⟩ => hstrands ?_
    exact strands_of_stalled hmeets hstalled hop hchecks hbefore
  cases op with
  | retireLink request =>
    have hkept (heq : (impl.retireLink request).1.entryOf link = impl.entryOf link) :
        ∃ entry', (impl.apply (.retireLink request)).entryOf link = some entry' ∧
          entry.Unmoved entry' := ⟨entry, heq.trans hentry, .refl entry⟩
    rcases retireLink_outcome impl request with hdeclined | ⟨heq, -⟩ | ⟨entry', h, -⟩
    · exact hkept (hdeclined.sameLinks.entryOf link)
    · exact hkept (by rw [heq])
    · exact hfollow fun request' heq => by cases heq; exact ⟨entry', h⟩
  | load => cases hload
  | _ => exact hfollow fun _ heq => by cases heq

end Apply

/-! ## Snapshots -/

/-- Every link that the snapshot lists is bound, in the state that it lists. -/
def Impl.Shows (impl : Impl) (snap : Snapshot) : Prop :=
  ∀ r ∈ snap.records, ∃ entry, impl.entryOf r.link = some entry ∧
    entry.record.state = r.state ∧ entry.record.stateGeneration = r.stateGeneration

/-- The snapshot is exact, or it never counts as current again. -/
def Impl.Answers (impl : Impl) (snap : Snapshot) : Prop :=
  snap.records = [] ∨ snap.epoch < impl.epoch ∨
    snap.globalStateGeneration < impl.globalStateGeneration ∨
    snap.globalStateGeneration = impl.globalStateGeneration ∧ impl.Shows snap

instance (impl : Impl) (snap : Snapshot) : Decidable (impl.Shows snap) :=
  decidable_of_iff (∀ r ∈ snap.records, (impl.entryOf r.link).any (fun entry =>
    entry.record.state = r.state ∧ entry.record.stateGeneration = r.stateGeneration) = true) <| by
    simp only [Impl.Shows, Option.any_eq_true, decide_eq_true_eq]

theorem Impl.Answers.shows {impl : Impl} {snap : Snapshot} (h : impl.Answers snap)
    (hcurrent : impl.snapshotIsCurrent snap = true) : impl.Shows snap := by
  simp only [Impl.snapshotIsCurrent, Bool.and_eq_true, decide_eq_true_eq] at hcurrent
  obtain ⟨hgeneration, hepoch⟩ := hcurrent
  rcases h with hnone | hlt | hlt | ⟨-, hshows⟩
  · intro r hr
    rw [hnone] at hr
    cases hr
  · exact absurd hepoch hlt.ne
  · exact absurd hgeneration hlt.ne
  · exact hshows

/-- A snapshot is exact when it is taken. -/
theorem snapshot_answers (impl : Impl) (request : SnapshotRequest) :
    (impl.snapshot request).1.Answers (impl.snapshot request).2 := by
  unfold Impl.snapshot
  dsimp only
  split
  · exact .inl rfl
  refine .inr (.inr (.inr ⟨rfl, fun r hr => ?_⟩))
  obtain ⟨link, -, hrecord⟩ := List.mem_filterMap.mp (List.mem_of_mem_take hr)
  obtain ⟨entry, hentry, hrecord⟩ := Option.bind_eq_some_iff.mp hrecord
  unfold Impl.snapshotRecord at hrecord
  dsimp only at hrecord
  split at hrecord
  · cases hrecord
  split at hrecord
  · cases hrecord
  cases hrecord
  exact ⟨entry, hentry, rfl, rfl⟩

/-- Where the state generation of the engine stays, no link moves that a snapshot lists. -/
theorem Impl.Answers.apply {impl : Impl} {snap : Snapshot} (h : impl.Answers snap) {op : Op}
    (hload : op.isLoad = false)
    (hstrands : snap.globalStateGeneration = impl.globalStateGeneration → impl.epoch ≤ snap.epoch →
      ∀ r ∈ snap.records, ¬ impl.Strands r.link op) : (impl.apply op).Answers snap := by
  have hmoves := apply_moves impl hload
  have hgeneration := hmoves.le.globalStateGeneration
  rcases h with hnone | hlt | hlt | ⟨heq, hshows⟩
  · exact .inl hnone
  · exact .inr (.inl (hlt.trans_le hmoves.epoch_le))
  · exact .inr (.inr (.inl (hlt.trans_le hgeneration)))
  rcases lt_or_ge snap.epoch impl.epoch with hlt | hepoch
  · exact .inr (.inl (hlt.trans_le hmoves.epoch_le))
  rcases hgeneration.lt_or_eq with hlt | hsame
  · exact .inr (.inr (.inl (heq.trans_lt hlt)))
  · refine .inr (.inr (.inr ⟨heq.trans hsame, fun r hr => ?_⟩))
    obtain ⟨entry, hentry, hstate, hgeneration⟩ := hshows r hr
    obtain ⟨entry', hentry', hunmoved⟩ :=
      Impl.apply_unmoved hload (hstrands heq hepoch r hr) hsame.ge hentry
    exact ⟨entry', hentry', hunmoved.state.trans hstate,
      hunmoved.stateGeneration.trans hgeneration⟩

/-- The journal overtakes the snapshot, in its epoch or in the state generation with which its links
are recovered, or it has every link that the snapshot lists recovered to what is listed. -/
def JournalPayload.Overtakes (payload : JournalPayload) (config : EngineConfig) (snap : Snapshot) :
    Prop :=
  snap.records = [] ∨ snap.epoch < payload.epoch ∨
    snap.globalStateGeneration <
      payload.links.foldl raisedGlobalState payload.globalStateGeneration ∨
    snap.globalStateGeneration =
      payload.links.foldl raisedGlobalState payload.globalStateGeneration ∧
    ∀ r ∈ snap.records, ∃ persisted ∈ payload.links, persisted.record.binding.link = r.link ∧
      (recoveredEntry config persisted).record.state = r.state ∧
      (recoveredEntry config persisted).record.stateGeneration = r.stateGeneration

theorem JournalPayload.Overtakes.answers {payload : JournalPayload} {impl : Impl} {snap : Snapshot}
    (h : payload.Overtakes impl.config snap) (hdecoded : payload.Decoded) :
    (impl.recover payload).impl.Answers snap := by
  have hrecovers := recovers_recover impl hdecoded
  unfold Impl.Answers
  rw [hrecovers.epoch, hrecovers.globalStateGeneration]
  refine h.imp_right (.imp_right (.imp_right (.imp_right fun hlists r hr => ?_)))
  obtain ⟨persisted, hp, hlink, hstate, hgeneration⟩ := hlists r hr
  refine ⟨_, ?_, hstate, hgeneration⟩
  rw [← hlink]
  exact hrecovers.entries persisted hp

/-! ## Runs -/

/-- An engine, and the snapshots that it has returned. -/
structure Snapshotted where
  impl : Impl
  snapshots : List Snapshot := []

namespace Snapshotted

/-- The effect of an operation. -/
def apply (t : Snapshotted) (op : Op) : Snapshotted where
  impl := t.impl.apply op
  snapshots := match op with
    | .snapshot request => (t.impl.snapshot request).2 :: t.snapshots
    | _ => t.snapshots

/-- Every snapshot that is not overtaken yet is overtaken by a load, or found to be exact; and no
retirement strands a link that it lists. -/
def Keeps (t : Snapshotted) : Op → Prop
  | .load config steps file => ∀ bytes payload summary,
      readJournalFile config steps file = .ok bytes →
      decodeJournal bytes config = .ok (payload, summary) →
      ∀ snap ∈ t.snapshots, payload.Overtakes t.impl.config snap
  | op => ∀ snap ∈ t.snapshots, snap.globalStateGeneration = t.impl.globalStateGeneration →
      t.impl.epoch ≤ snap.epoch → ∀ r ∈ snap.records, ¬ t.impl.Strands r.link op

theorem apply_load (t : Snapshotted) (config : PersistenceConfig) (steps : ReadSteps)
    (file : Option Bytes) :
    (t.apply (.load config steps file)).impl = (t.impl.load config steps file).1 := rfl

/-- The runs of a freshly created engine. -/
def Fresh (t : Snapshotted) : Prop := t.impl.Fresh ∧ t.snapshots = []

theorem Keeps.load {t : Snapshotted} {config : PersistenceConfig} {steps : ReadSteps}
    {file : Option Bytes} (h : t.Keeps (.load config steps file)) {snap : Snapshot}
    (hsnap : snap ∈ t.snapshots) (hanswers : t.impl.Answers snap) :
    (t.impl.load config steps file).1.Answers snap := by
  unfold Impl.load
  cases hread : readJournalFile config steps file with
  | error refusal => exact hanswers
  | ok bytes =>
    dsimp only
    cases hdecode : decodeJournal bytes config with
    | error refusal => exact hanswers
    | ok result =>
      exact (h bytes result.1 result.2 hread hdecode snap hsnap).answers
        (decodeJournal_decoded hdecode)

theorem answers {t : Snapshotted} (h : Runs.Run Fresh apply Keeps t) :
    ∀ snap ∈ t.snapshots, t.impl.Answers snap := by
  refine h.invariant (P := fun t => ∀ snap ∈ t.snapshots, t.impl.Answers snap)
    (fun t ht snap hsnap => ?_) fun t op hanswers hok snap hsnap => ?_
  · rw [ht.2] at hsnap
    cases hsnap
  cases op with
  | load config steps file => exact hok.load hsnap (hanswers snap hsnap)
  | snapshot request =>
    rcases List.mem_cons.mp hsnap with rfl | hsnap
    · exact snapshot_answers t.impl request
    · exact (hanswers snap hsnap).apply rfl (hok snap hsnap)
  | _ => exact (hanswers snap hsnap).apply rfl (hok snap hsnap)

end Snapshotted

/-- In every run whose loads overtake the snapshots that have been taken, or find them exact, and in
which no retirement halts at an exhausted state generation of the engine on a link of a snapshot
that is current: a snapshot that counts as current is exact. -/
theorem snapshot_current {t : Snapshotted}
    (h : Runs.Run Snapshotted.Fresh Snapshotted.apply Snapshotted.Keeps t) {snap : Snapshot}
    (hsnap : snap ∈ t.snapshots) (hcurrent : t.impl.snapshotIsCurrent snap = true) :
    ∀ r ∈ snap.records, ∃ entry, t.impl.entryOf r.link = some entry ∧
      entry.record.state = r.state ∧ entry.record.stateGeneration = r.stateGeneration :=
  (Snapshotted.answers h snap hsnap).shows hcurrent

namespace Sample

/-- The small run, and a snapshot of it. -/
def snapshotted : Snapshotted :=
  (ops ++ [Op.snapshot {}]).foldl Snapshotted.apply ⟨.create {}, []⟩

/-- The snapshot of the small run. -/
def snap : Snapshot := (engine.snapshot {}).2

end Sample

/-- The snapshot of the small run is current, and shows its link. -/
theorem snapshot_current_sample : ∃ r ∈ Sample.snap.records,
    ∃ entry, Sample.snapshotted.impl.entryOf r.link = some entry ∧
      entry.record.state = r.state ∧ entry.record.stateGeneration = r.stateGeneration :=
  have hrun : Runs.Run Snapshotted.Fresh Snapshotted.apply Snapshotted.Keeps Sample.snapshotted :=
    Runs.Run.foldl (.start ⟨⟨{}, rfl⟩, rfl⟩) ⟨List.forall_mem_nil _, List.forall_mem_nil _,
      List.forall_mem_nil _, List.forall_mem_nil _, trivial⟩
  have hlisted : Sample.snap.records ≠ [] := by decide
  ⟨_, List.head_mem hlisted, snapshot_current hrun (List.mem_singleton_self Sample.snap) (by decide)
    _ (List.head_mem hlisted)⟩

/-! ## Snapshots that are not -/

namespace Sample

def secondLink : LinkId := .fromValidated (lit "link-2")

/-- Two links are bound and disabled. -/
def disabledOps : List Op :=
  [.bindLink ⟨binding⟩, .bindLink ⟨{ binding with link := secondLink }⟩,
    .registerPublisher ⟨{ registration with scope := { links := [link, secondLink] } }⟩,
    .transitionState disable, .transitionState { disable with link := secondLink }]

def disabledLinks : Impl := disabledOps.foldl Impl.apply (.create {})

/-- A snapshot of two links that are disabled. -/
def disabledSnap : Snapshot := (disabledLinks.snapshot {}).2

def taken : Snapshotted :=
  (disabledOps ++ [Op.snapshot {}]).foldl Snapshotted.apply ⟨.create {}, []⟩

/-- The journal of the engine from before the snapshot. -/
def disabledJournal : Bytes := (disabledLinks.encode {}).1

/-- The engine after it has loaded the journal. -/
def reloaded : Snapshotted := taken.apply (.load {} {} (some disabledJournal))

theorem disabledLinks_storable : (disabledLinks.buildPayload false).Storable {} {} := by decide

theorem reloaded_impl :
    reloaded.impl = (taken.impl.recover (disabledLinks.buildPayload false).uncounted).impl :=
  (Snapshotted.apply_load taken {} {} (some disabledJournal)).trans
    (@load_storable disabledLinks taken.impl {} {} disabledLinks_storable {} rfl rfl).1

end Sample

/-- Recovery leaves the links of the snapshot in REVALIDATION_REQUIRED, but not the state generation
of the engine, and so the snapshot counts as current. -/
theorem snapshot_masquerades :
    Runs.Run Snapshotted.Fresh Snapshotted.apply (fun _ _ => True) Sample.reloaded ∧
    Sample.disabledSnap ∈ Sample.reloaded.snapshots ∧
    Sample.reloaded.impl.snapshotIsCurrent Sample.disabledSnap = true ∧
    ¬ ∀ r ∈ Sample.disabledSnap.records, ∃ entry, Sample.reloaded.impl.entryOf r.link = some entry ∧
      entry.record.state = r.state ∧ entry.record.stateGeneration = r.stateGeneration := by
  have htaken : Runs.Run Snapshotted.Fresh Snapshotted.apply (fun _ _ => True) Sample.taken :=
    Runs.Run.foldl (.start ⟨⟨{}, rfl⟩, rfl⟩)
      ⟨trivial, trivial, trivial, trivial, trivial, trivial, trivial⟩
  refine ⟨.step _ htaken trivial, ?_, ?_, ?_⟩
  · exact List.mem_singleton_self Sample.disabledSnap
  · rw [Sample.reloaded_impl]
    decide
  · show ¬ Impl.Shows _ _
    rw [Sample.reloaded_impl]
    decide

end LinkState
