import LinkStateFabric.Engine.Support
import LinkStateFabric.Lib.Overlay

/-!
# Explanations (`engine_explain.cpp`)

`Impl.explain` resolves the current evidence of a link again and shows the rules that were applied,
what became of every observation that is still known of, and the authority behind it.
-/

namespace LinkState

open Sorting

/-- An explanation of the authoritative state of one link. -/
structure LinkExplanation where
  link : LinkId
  state : LinkOperationalState := .unknown
  resultClass : StateResultClass := .authoritativeUnknown
  degradationCause : DegradationCause := .none
  stateGeneration : LinkStateGeneration := .zero
  globalGeneration : GlobalGeneration := .zero
  evidenceGeneration : EvidenceGeneration := .zero
  topologyGeneration : TopologyGeneration := .zero
  rules : List Text := []
  evidence : List EvidenceDisposition := []
  conflicts : List Text := []
  authority : List Text := []
  history : List StateHistoryEntry := []

/-- RULE_TOPOLOGY_BINDING. -/
def explainBinding (binding : TopologyBinding) : Text :=
  let endpoints := binding.endpoints
  lit "RULE_TOPOLOGY_BINDING: link " ++ binding.link.value ++
    lit " is bound to topology generation " ++ binding.topologyGeneration.text ++
    lit " with local endpoint " ++
    (if endpoints.localEndpoint.valid then endpoints.localEndpoint.value else lit "<none>") ++
    lit " at endpoint generation " ++ endpoints.localGeneration.text ++
    if endpoints.remote.valid then
      lit " and remote endpoint " ++ endpoints.remote.value ++ lit " at endpoint generation " ++
        endpoints.remoteGeneration.text
    else lit " with no remote endpoint"

/-- RULE_BACKING_REFERENCE. -/
def Impl.explainBacking (impl : Impl) (backing : BackingReference) : Text :=
  lit "RULE_BACKING_REFERENCE: depends on " ++ backing.link.value ++
    lit " pinned at topology generation " ++ backing.generation.text ++
    match impl.entryOf backing.link with
    | none => lit " which is not bound in this engine"
    | some entry => lit " which is currently at topology generation " ++
        entry.record.binding.topologyGeneration.text

/-- RULE_ADMIN_INTENT, as the record states it. -/
def explainIntent (intent : AdministrativeIntent) : Text :=
  lit "RULE_ADMIN_INTENT: durable administrative intent " ++ intent.state.text ++
    lit " recorded by publication " ++ intent.publication.value ++ lit " from publisher " ++
    intent.publisher.value

/-- The order of the dispositions of an explanation. -/
def dispositionLess (lhs rhs : EvidenceDisposition) : Bool :=
  if lhs.observation ≠ rhs.observation then lhs.observation < rhs.observation
  else lhs.source < rhs.source

/-- The dispositions of an explanation: those of the resolution, and the retained ones of other
observations. -/
def explainEvidence (resolved retained : List EvidenceDisposition) : List EvidenceDisposition :=
  sortBy dispositionLess (Overlay.overlay (·.observation) resolved retained)

/-- The notes on the publishers of the evidence. -/
def Impl.explainAuthority (impl : Impl) (evidence retained : List EvidenceDisposition) :
    List Text :=
  [lit "AUTHORITY_SCOPE: " ++ formatU64 impl.store.publishers.keys.card ++
    lit " publisher incarnations are registered; " ++ formatU64 impl.store.fences.length ++
    lit " fences have been recorded by this engine"] ++
  ((evidence.filter (·.status = .staleAuthority)).map fun disposition =>
    lit "FENCED: observation " ++ disposition.observation.value ++ lit " from publisher " ++
      disposition.publisher.value ++ lit " (worker boot " ++ disposition.workerBoot.value ++
      lit ") is " ++ disposition.status.text ++ lit ": " ++ disposition.reason) ++
  (retained.filter fun disposition =>
      disposition.status = .staleAuthority || disposition.status = .staleTopology).map
    fun disposition => lit "RETIRED EVIDENCE: observation " ++ disposition.observation.value ++
      lit " is " ++ disposition.status.text ++ lit ": " ++ disposition.reason

/-- `explain`. -/
def Impl.explain (impl : Impl) (link : LinkId) : LinkExplanation :=
  match impl.entryOf link with
  | none => { link, rules := [lit "RULE_UNKNOWN_LINK: no durable record exists for this link"] }
  | some entry =>
    let record := entry.record
    let resolution := resolveLinkState entry.current record
    let evidence := explainEvidence resolution.dispositions entry.dispositions
    { link
      state := record.state
      resultClass := record.resultClass
      degradationCause := record.degradationCause
      stateGeneration := record.stateGeneration
      globalGeneration := record.globalGeneration
      evidenceGeneration := record.evidenceGeneration
      topologyGeneration := record.binding.topologyGeneration
      rules :=
        [lit "RULE_DURABLE_STATE: " ++ record.state.text ++ lit " - " ++ record.state.describe,
          explainBinding record.binding] ++
        record.binding.backingLinks.map impl.explainBacking ++
        record.adminIntent.toList.map explainIntent ++
        resolution.rules ++
        if entry.dispositions.isEmpty then [] else
          [lit "RULE_DISPOSITION_RETENTION: " ++ formatU64 entry.dispositions.length ++
            lit " recent evidence dispositions are retained for explanation"]
      evidence
      conflicts := resolution.conflicts
      authority := impl.explainAuthority evidence entry.dispositions
      history := record.history }

/-! ## Dispositions -/

section Evidence

variable {resolved : List EvidenceDisposition}

theorem ranks_dispositionLess :
    Ranks dispositionLess fun d => toLex (d.observation, d.source) := fun a b => by
  unfold dispositionLess
  exact lex_step Iff.rfl decide_eq_true_iff fun _ => decide_eq_true_iff

/-- An explanation shows one disposition of every observation, in the order of the observations. -/
theorem pairwise_explainEvidence (h : (resolved.map (·.observation)).Nodup)
    (retained : List EvidenceDisposition) :
    (explainEvidence resolved retained).Pairwise fun a b => a.observation < b.observation := by
  have hperm : (explainEvidence resolved retained).Perm _ := sortBy_perm _ _
  have hnodup := (hperm.map (·.observation)).nodup_iff.mpr (Overlay.nodup_overlay h retained)
  rw [List.Nodup, List.pairwise_map] at hnodup
  have hsorted := ranks_dispositionLess.pairwise_le_sortBy
    (Overlay.overlay (·.observation) resolved retained)
  refine (hsorted.and hnodup).imp fun ⟨hle, hne⟩ => ?_
  rcases Prod.Lex.le_iff.mp hle with hlt | ⟨heq, -⟩
  · exact hlt
  · exact absurd heq hne

/-- The disposition of an observation is that of the resolution, and else the newest that is
retained. -/
theorem find?_explainEvidence (h : (resolved.map (·.observation)).Nodup)
    (retained : List EvidenceDisposition) (observation : ObservationId) :
    (explainEvidence resolved retained).find? (·.observation = observation) =
      (resolved.find? (·.observation = observation)).or
        (retained.find? (·.observation = observation)) := by
  have hperm : (explainEvidence resolved retained).Perm _ := sortBy_perm _ _
  have hnodup := (hperm.map (·.observation)).nodup_iff.mpr (Overlay.nodup_overlay h retained)
  rw [Overlay.find?_of_perm hperm hnodup, Overlay.find?_overlay]

end Evidence

end LinkState
