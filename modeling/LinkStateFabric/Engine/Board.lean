import LinkStateFabric.Engine.Conclusions
import LinkStateFabric.Engine.Restored
import Mathlib.Data.Finset.Insert
import Mathlib.Data.Finset.Dedup

/-!
# The board of a fabric

What an engine is for, without its counters, stamps, indexes and histories: a board has one sheet
for each link, on which stands what the link is bound to, what has been asked of it, and the
observations that hold. What a link presents is read off its sheet.

* `Board.apply`: what an operation that is carried out does to the board. Observations about a
  structure that has been replaced do not hold any more (`Board.settle`).
* `Sheet.conclusion`: what the observations of a sheet resolve to. Where nothing decides, all that
  counts is whether anything has ever been known (`Sheet.conclusion_cases`).
* `Impl.board`: the board of an engine.
-/

namespace LinkState

open Sorting

/-! ## Sheets -/

/-- What is known of a link. -/
structure Sheet where
  binding : TopologyBinding
  retired : Bool := false
  intent : Option (LinkOperationalState × DegradationCause) := none
  evidence : Finset EvidenceRecord := ∅
  deriving DecidableEq

namespace Sheet

/-- The observations that satisfy a condition hold on. -/
def keep (sheet : Sheet) (p : EvidenceRecord → Bool) : Sheet :=
  { sheet with evidence := sheet.evidence.filter (p ·) }

/-- An observation holds from now on, in the place of those that it supersedes. -/
def observe (sheet : Sheet) (observation : EvidenceRecord) : Sheet :=
  { sheet with
    evidence := insert { observation with status := .current }.strip
      (sheet.evidence.filter (!supersedes observation ·)) }

/-- The link is bound to another structure. -/
def rebind (sheet : Sheet) (binding : TopologyBinding) : Sheet :=
  { sheet with binding, evidence := ∅ }

/-- A record of a link with this sheet, as far as a resolution reads it. -/
def record (sheet : Sheet) (established : Bool) : LinkStateRecord where
  binding := sheet.binding
  everEstablished := established
  adminIntent := sheet.intent.map fun intent => { state := intent.1, cause := intent.2 }

/-- What the link presents. The observations are resolved in any order. -/
noncomputable def conclusion (sheet : Sheet) (established : Bool) : Conclusion :=
  (resolveLinkState sheet.evidence.toList (sheet.record established)).conclusion

/-- Nothing on the sheet decides. -/
def Open (sheet : Sheet) : Prop :=
  ∀ established, sheet.conclusion established =
    if established then ⟨.revalidationRequired, .revalidationRequired, .none, false, false⟩
    else ⟨.unknown, .authoritativeUnknown, .none, false, false⟩

end Sheet

/-! ## Boards -/

/-- One sheet for each link that is bound. -/
abbrev Board := LinkId → Option Sheet

namespace Board

/-- The sheet of one link changes. -/
def edit (board : Board) (link : LinkId) (f : Sheet → Sheet) : Board :=
  Function.update board link ((board link).map f)

/-- The observations that satisfy a condition hold on. -/
def keep (board : Board) (p : EvidenceRecord → Bool) : Board :=
  fun link => (board link).map (·.keep p)

/-- The reference is to a link that is bound and live, at its generation. -/
def holds (board : Board) (backing : BackingReference) : Bool :=
  (board backing.link).any fun sheet =>
    !sheet.retired && sheet.binding.topologyGeneration = backing.generation

/-- The observations of a sheet hold while its references do. -/
def settled (board : Board) (sheet : Sheet) : Sheet :=
  if sheet.retired || sheet.binding.backingLinks.all board.holds then sheet
  else { sheet with evidence := ∅ }

/-- The observations of one link hold while its references do. -/
def settleAt (board : Board) (link : LinkId) : Board := board.edit link board.settled

/-- The observations of every link hold while its references do. -/
def settle (board : Board) : Board := fun link => (board link).map board.settled

/-- A link is bound to a structure, for the first time or anew. -/
def bind (board : Board) (link : LinkId) (binding : TopologyBinding) : Board :=
  settle (Function.update board link
    (some ((board link).elim { binding } (·.rebind binding))))

/-- The board of a journal. No observation outlives the engine that it was made to. -/
def ofPayload (payload : JournalPayload) : Board := fun link =>
  (payload.links.find? (·.record.binding.link = link)).map fun persisted =>
    { binding := persisted.record.binding
      retired := persisted.record.state = .retired
      intent := persisted.record.adminIntent.map fun intent => (intent.state, intent.cause) }

/-- What an operation that is carried out does. -/
def apply (board : Board) : Op → Board
  | .bindLink request => board.bind request.binding.normalize.link request.binding.normalize
  | .supersedeTopology request =>
    match (board request.link).map fun sheet => supersedingBinding request sheet.binding with
    | some (.ok binding) => board.bind request.link binding
    | _ => board
  | .retireLink request =>
    (board.edit request.link fun sheet => { sheet with retired := true, evidence := ∅ }).settle
  | .registerPublisher request => board.keep fun record =>
    !(record.publisher = request.registration.publisher &&
      record.workerBoot ≠ request.registration.workerBoot)
  | .invalidatePublisher request => board.keep (·.publisher ≠ request.publisher)
  | .advanceCoordinatorEpoch request => board.keep fun record => !(record.epoch < request.newEpoch)
  | .publishEvidence request =>
    board.edit request.observation.key.link (·.observe request.observation)
  | .withdrawEvidence request => board.edit request.key.link (·.keep (·.key ≠ request.key))
  | .transitionState request => board.edit request.link fun sheet =>
    { sheet with
      intent := if request.target = .up then none
        else some (request.target, request.degradationCause) }
  | .markRevalidationRequired request =>
    board.edit request.link (·.keep (·.publisher ≠ request.publisher))
  | .reconcile | .snapshot _ => board
  | .load config steps file => (acceptedPayload config steps file).elim board ofPayload

/-! ## Settling -/

section Settle

variable (board : Board)

theorem settled_shape (sheet : Sheet) : (board.settled sheet).binding = sheet.binding ∧
    (board.settled sheet).retired = sheet.retired := by
  unfold settled
  split <;> exact ⟨rfl, rfl⟩

/-- Settling one link does not change which references hold. -/
theorem holds_settleAt (link : LinkId) : (board.settleAt link).holds = board.holds := by
  funext backing
  unfold holds settleAt edit
  by_cases hl : backing.link = link
  · subst hl
    rw [Function.update_self]
    cases board backing.link with
    | none => rfl
    | some sheet =>
      obtain ⟨hbinding, hretired⟩ := board.settled_shape sheet
      simp only [Option.map_some, Option.any_some, hbinding, hretired]
  · rw [Function.update_of_ne hl]

theorem settled_settled (sheet : Sheet) : board.settled (board.settled sheet) = board.settled sheet := by
  unfold settled
  split <;> rfl

theorem settle_settleAt (link : LinkId) : (board.settleAt link).settle = board.settle := by
  have hsettled : (board.settleAt link).settled = board.settled := by
    funext sheet
    unfold settled
    rw [holds_settleAt]
  funext l
  unfold settle
  rw [hsettled]
  unfold settleAt edit
  by_cases hl : l = link
  · subst hl
    rw [Function.update_self, Option.map_map]
    exact congrArg (Option.map · _) (funext board.settled_settled)
  · rw [Function.update_of_ne hl]

theorem settle_foldl (links : List LinkId) : (links.foldl settleAt board).settle = board.settle := by
  induction links generalizing board with
  | nil => rfl
  | cons link links ih => exact (ih _).trans (board.settle_settleAt link)

end Settle

end Board

/-! ## Conclusions -/

section Conclusions

variable {records : List EvidenceRecord} {record record' : LinkStateRecord}

/-- What decides is on the sheet, or nothing decides. -/
theorem conclusion_of_established (hintent : record'.adminIntent = record.adminIntent)
    (hsymmetry : record'.binding.symmetry = record.binding.symmetry) :
    (resolveLinkState records record).conclusion = (resolveLinkState records record').conclusion ∨
    ∀ r ∈ [record, record'], (resolveLinkState records r).conclusion =
      if r.everEstablished then ⟨.revalidationRequired, .revalidationRequired, .none, false, false⟩
      else ⟨.unknown, .authoritativeUnknown, .none, false, false⟩ := by
  unfold resolveLinkState resolveOrdered
  rw [hintent]
  cases hi : record.adminIntent with
  | some intent => exact .inl rfl
  | none =>
    dsimp only
    split
    · exact .inl rfl
    split
    · refine .inr fun r hr => ?_
      have hnone : r.adminIntent = none := by
        rcases List.mem_pair.mp hr with rfl | rfl
        · exact hi
        · exact hintent.trans hi
      rw [hnone]
      dsimp only
      unfold Resolution.withoutEvidence Resolution.underEnablement
      split <;> split <;> rfl
    · exact .inl (by rw [hsymmetry])

/-- Either it makes no difference whether anything has ever been known of a link, or nothing else
does. -/
theorem Sheet.conclusion_cases (sheet : Sheet) :
    (∀ e e', sheet.conclusion e = sheet.conclusion e') ∨ sheet.Open := by
  rcases @conclusion_of_established sheet.evidence.toList (sheet.record true) (sheet.record false) rfl rfl
    with heq | hopen
  · refine .inl fun e e' => ?_
    cases e <;> cases e' <;> first | rfl | exact heq | exact heq.symm
  · refine .inr fun established => ?_
    cases established
    · exact hopen _ (List.mem_cons_of_mem _ List.mem_cons_self)
    · exact hopen _ List.mem_cons_self

end Conclusions

/-! ## The board of an engine -/

/-- What an entry says of its link. -/
def LinkEntry.sheet (entry : LinkEntry) : Sheet where
  binding := entry.record.binding
  retired := entry.record.state = .retired
  intent := entry.record.adminIntent.map fun intent => (intent.state, intent.cause)
  evidence := (entry.current.map EvidenceRecord.strip).toFinset

/-- The board of an engine. -/
def Impl.board (impl : Impl) : Board := fun link => (impl.entryOf link).map (·.sheet)

end LinkState
