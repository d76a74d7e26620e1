import LinkStateFabric.Record

/-!
# Evidence resolution (`engine_resolution.cpp`)

`resolveLinkState` turns the evidence of a link into a state. Its phases are those of the source:

* `classify`: what becomes of a record, and whether it counts.
* `Resolution.underIntent`: a durable administrative intent decides.
* `Resolution.underRestriction`: administrative evidence that disables or drains decides.
* `Resolution.withoutEvidence`: nothing decisive is left.
* `Resolution.selectTier`, `Resolution.byAsymmetry`, `Resolution.byClaims`,
  `Resolution.crossCheckRemote`: the strongest tier decides, and the peer's view is compared.
-/

namespace LinkState

open Sorting

/-- `effective_precedence`: synthetic evidence is in the weakest tier, whatever its kind. -/
def effectivePrecedence (record : EvidenceRecord) : Nat :=
  if record.evidenceClass = .synthetic then 5 else evidencePrecedence record.key.kind

def claimIsOperational (claim : EvidenceClaim) : Bool := claim = .up || claim = .degraded

def claimIsFaultOrDown (claim : EvidenceClaim) : Bool := claim = .down || claim = .faulted

/-- `describe`. -/
def describe (record : EvidenceRecord) : Text :=
  record.key.source.value ++ lit "/" ++ record.key.kind.text ++ lit "/" ++
    record.key.direction.text ++ lit " -> " ++ record.claim.text ++ lit " (observation " ++
    record.observation.value ++ lit ")"

/-- `disposition_for`. -/
def dispositionFor (record : EvidenceRecord) : EvidenceDisposition where
  observation := record.observation
  source := record.key.source
  publisher := record.publisher
  workerBoot := record.workerBoot
  kind := record.key.kind
  direction := record.key.direction
  claim := record.claim
  evidenceClass := record.evidenceClass
  status := record.status
  precedence := effectivePrecedence record

/-- `class_for`. -/
def classFor : EvidenceClaim → StateResultClass
  | .up => .authoritativeUp
  | .down => .authoritativeDown
  | .degraded => .authoritativeDegraded
  | .adminDisabled => .authoritativeAdminDisabled
  | .draining => .authoritativeDraining
  | .faulted => .authoritativeFaulted
  | .unknown => .authoritativeUnknown

/-- `strongest_cause`: the least cause among the DEGRADED claims. -/
def strongestCause (records : List EvidenceRecord) : DegradationCause :=
  records.foldl (fun cause record =>
    if record.claim ≠ .degraded then cause
    else if cause = .none ∨
        Codec.ByteEnum.index record.degradationCause < Codec.ByteEnum.index cause then
      record.degradationCause
    else cause) .none

/-- `evidence_less`. -/
def evidenceLess (lhs rhs : EvidenceRecord) : Bool :=
  if lhs.key ≠ rhs.key then lhs.key.less rhs.key
  else if lhs.observation ≠ rhs.observation then lhs.observation < rhs.observation
  else if lhs.publisher ≠ rhs.publisher then lhs.publisher < rhs.publisher
  else lhs.sequence < rhs.sequence

/-- The result of resolving the evidence of a link. -/
structure Resolution where
  state : LinkOperationalState := .unknown
  resultClass : StateResultClass := .authoritativeUnknown
  cause : DegradationCause := .none
  conflicted : Bool := false
  syntheticBacked : Bool := false
  rules : List Text := []
  conflicts : List Text := []
  dispositions : List EvidenceDisposition := []
  deriving DecidableEq

/-- The disposition of a candidate, with `counted` when it takes part in the resolution. -/
def classify (candidate : EvidenceRecord) : EvidenceDisposition :=
  let disposition := dispositionFor candidate
  if candidate.status ≠ .current then
    { disposition with
      reason := lit "evidence status is " ++ candidate.status.text ++ lit ", not current" }
  else if candidate.evidenceClass = .unsupported then
    { disposition with reason := lit "unsupported capability evidence is never decisive" }
  else if candidate.claim = .unknown then
    { disposition with reason := lit "source reports no decisive claim" }
  else
    { disposition with
      counted := true
      reason := lit "counted at precedence tier " ++ formatU64 disposition.precedence }

namespace Resolution

/-- `set_state`. -/
def setState (resolution : Resolution) (state : LinkOperationalState)
    (resultClass : StateResultClass) (cause : DegradationCause) : Resolution :=
  { resolution with state, resultClass, cause }

def pushRule (resolution : Resolution) (rule : Text) : Resolution :=
  { resolution with rules := resolution.rules ++ [rule] }

/-- `note_conflict`. -/
def noteConflict (resolution : Resolution) (text : Text) : Resolution :=
  { resolution with conflicts := resolution.conflicts ++ [text] }

/-- Changes the dispositions that satisfy a condition. -/
def amend (resolution : Resolution) (p : EvidenceDisposition → Bool)
    (f : EvidenceDisposition → EvidenceDisposition) : Resolution :=
  { resolution with dispositions := resolution.dispositions.map fun d => if p d then f d else d }

/-- Appends to the reason of a disposition. -/
def because (suffix : Text) (disposition : EvidenceDisposition) : EvidenceDisposition :=
  { disposition with reason := disposition.reason ++ suffix }

/-- RULE_ADMIN_INTENT. -/
def underIntent (resolution : Resolution) (intent : AdministrativeIntent) : Resolution :=
  let effectiveClaim := (claimFromState intent.state).getD .adminDisabled
  resolution
    |>.pushRule (lit "RULE_ADMIN_INTENT: durable administrative intent (" ++ intent.state.text ++
        lit ", publication " ++ intent.publication.value ++ lit ", publisher " ++
        intent.publisher.value ++ lit ", global generation " ++ intent.generation.text ++
        lit ") is in force; operational claims are recorded but do not override it")
    |>.setState (stateOf (classFor effectiveClaim)) (classFor effectiveClaim) intent.cause
    |>.amend (·.counted) (because (lit "; overridden by durable administrative intent"))

/-- Administrative evidence disables the link. -/
def disabledBy (administrative : List EvidenceRecord) : Bool :=
  administrative.any (·.claim = .adminDisabled)

/-- Administrative evidence drains the link. -/
def drainedBy (administrative : List EvidenceRecord) : Bool :=
  administrative.any (·.claim = .draining)

/-- RULE_ADMIN_DISABLE_GATE and RULE_ADMIN_DRAIN_GATE: the more restrictive claim wins. -/
def underRestriction (resolution : Resolution) (administrative : List EvidenceRecord) :
    Resolution :=
  let disabled := disabledBy administrative
  let winner : EvidenceClaim := if disabled then .adminDisabled else .draining
  let resolution :=
    if disabled && drainedBy administrative then
      resolution.noteConflict (lit "RULE_ADMIN_RESTRICTIVENESS: administrative sources disagree " ++
        lit "(ADMIN_DISABLED and DRAINING); the more restrictive intent wins")
    else resolution
  resolution
    |>.pushRule (if disabled then
        lit "RULE_ADMIN_DISABLE_GATE: current administrative evidence disables the link; " ++
          lit "operational claims are recorded but do not override administrative intent"
      else
        lit "RULE_ADMIN_DRAIN_GATE: current administrative evidence drains the link; " ++
          lit "operational claims are recorded but do not override administrative intent")
    |>.setState (stateOf (classFor winner)) (classFor winner) .none
    |>.amend (fun d => d.counted && d.kind ≠ .administrativeState)
      (because (lit "; overridden by administrative intent"))

/-- RULE_ADMIN_ENABLED: enablement asserts no state. -/
def underEnablement (resolution : Resolution) (administrative : List EvidenceRecord) : Resolution :=
  if administrative.isEmpty then resolution
  else resolution
    |>.pushRule (lit "RULE_ADMIN_ENABLED: administrative evidence reports the link as " ++
      lit "administratively enabled; enablement is not an operational assertion and does not " ++
      lit "establish UP")
    |>.amend (fun d => d.counted && d.kind = .administrativeState) (fun d =>
      because (lit "; administrative enablement is a constraint, not a state claim")
        { d with counted := false })

/-- RULE_NO_DECISIVE_EVIDENCE and RULE_NO_DECISIVE_EVIDENCE_PRIOR_DURABLE. -/
def withoutEvidence (resolution : Resolution) (everEstablished : Bool) : Resolution :=
  if everEstablished then
    resolution
      |>.pushRule (lit "RULE_NO_DECISIVE_EVIDENCE_PRIOR_DURABLE: the link carries a durable prior " ++
        lit "conclusion but no current decisive evidence; the stale conclusion is not presented as " ++
        lit "current")
      |>.setState .revalidationRequired .revalidationRequired .none
  else
    resolution
      |>.pushRule (lit "RULE_NO_DECISIVE_EVIDENCE: no current decisive evidence and no durable " ++
        lit "prior conclusion")
      |>.setState .unknown .authoritativeUnknown .none

/-- The strongest tier among the decisive records. -/
def minimumTier (decisive : List EvidenceRecord) : Nat :=
  decisive.foldl (fun tier candidate => min tier (effectivePrecedence candidate)) 6

/-- The records of the strongest tier. -/
def winningTier (decisive : List EvidenceRecord) : List EvidenceRecord :=
  decisive.filter (effectivePrecedence · = minimumTier decisive)

/-- RULE_PRECEDENCE_TIER: outranked records stop counting, and synthetic backing is noted. -/
def selectTier (resolution : Resolution) (administrative decisive : List EvidenceRecord) :
    Resolution :=
  let tier := winningTier decisive
  let outranked := decisive.filter (minimumTier decisive < effectivePrecedence ·)
  let resolution := outranked.foldl (fun resolution candidate =>
    resolution.amend (·.observation = candidate.observation) fun d =>
      because (lit "; outranked by precedence tier " ++ formatU64 (minimumTier decisive))
        { d with counted := false }) resolution
  { resolution with
    syntheticBacked := tier.any (·.evidenceClass = EvidenceClass.synthetic) ||
      administrative.any (·.evidenceClass = EvidenceClass.synthetic) }
    |>.pushRule (lit "RULE_PRECEDENCE_TIER: resolution used precedence tier " ++
        formatU64 (minimumTier decisive) ++ lit " with " ++ formatU64 tier.length ++
        lit " current evidence records")

/-- The directed records that a peer of the other direction contradicts. The source skips the
record itself among the peers; its own direction already does. -/
def asymmetryOf (tier : List EvidenceRecord) : List EvidenceRecord :=
  tier.filter fun candidate =>
    candidate.key.direction ≠ .bidirectional && tier.any fun peer =>
      peer.key.source = candidate.key.source && peer.key.endpoint = candidate.key.endpoint &&
      peer.key.direction ≠ candidate.key.direction &&
      claimIsOperational candidate.claim ≠ claimIsOperational peer.claim

/-- RULE_DIRECTIONAL_ASYMMETRY and RULE_DIRECTIONAL_CONFLICT. -/
def byAsymmetry (resolution : Resolution) (witness : EvidenceRecord)
    (symmetry : LinkSymmetryGuarantee) : Resolution :=
  let note := lit "RULE_DIRECTIONAL_ASYMMETRY: " ++ describe witness ++
    lit " disagrees with its peer direction"
  if symmetry = .directional then
    resolution
      |>.pushRule (note ++ lit "; the link class supports asymmetric evidence, so the link is " ++
        lit "DEGRADED with cause ASYMMETRY")
      |>.setState .degraded .authoritativeDegraded .asymmetry
  else
    { (resolution
        |>.noteConflict (note ++ if symmetry = .symmetric then
            lit "; the link class guarantees symmetric behaviour, so the contradiction cannot be " ++
              lit "resolved"
          else
            lit "; the link class does not declare a symmetry guarantee, so the contradiction " ++
              lit "cannot be resolved")
        |>.pushRule (lit "RULE_DIRECTIONAL_CONFLICT: directional evidence contradicts itself")
        |>.setState .revalidationRequired .conflicted .none) with conflicted := true }

/-- RULE_OPERATIONALITY_CONFLICT. -/
def conflictedBy (resolution : Resolution) (tier : List EvidenceRecord) : Resolution :=
  { ((tier.foldl (fun resolution candidate =>
      resolution.noteConflict (lit "RULE_OPERATIONALITY_CONFLICT: " ++ describe candidate))
        resolution)
      |>.pushRule (lit "RULE_OPERATIONALITY_CONFLICT: current evidence at the winning precedence " ++
        lit "tier disagrees about whether the link is operational; the runtime refuses to force a " ++
        lit "binary answer")
      |>.setState .revalidationRequired .conflicted .none) with conflicted := true }

/-- RULE_UNANIMOUS_TIER, RULE_IMPAIRMENT_WINS and RULE_FAULT_SPECIFICITY; `none` where the claims
of the tier conflict. -/
def byClaims (resolution : Resolution) (tier : List EvidenceRecord) : Option Resolution :=
  match (tier.map (·.claim)).dedup with
  | [claim] => some <| resolution
      |>.pushRule (lit "RULE_UNANIMOUS_TIER: every current evidence record at the winning " ++
        lit "precedence tier agrees")
      |>.setState (stateOf (classFor claim)) (classFor claim)
        (if claim = .degraded then strongestCause tier else .none)
  | claims =>
    if claims.all claimIsOperational then
      some <| resolution
        |>.pushRule (lit "RULE_IMPAIRMENT_WINS: current evidence agrees the link is operational " ++
          lit "and disagrees only about impairment; impairment evidence is stronger than an " ++
          lit "unimpaired claim")
        |>.setState .degraded .authoritativeDegraded (strongestCause tier)
    else if claims.all claimIsFaultOrDown then
      some <| resolution
        |>.pushRule (lit "RULE_FAULT_SPECIFICITY: current evidence agrees the link is not " ++
          lit "operational and names a specific fault; the specific fault is reported")
        |>.setState .faulted .authoritativeFaulted (strongestCause tier)
    else none

/-- RULE_REMOTE_CORROBORATION, RULE_REMOTE_ASYMMETRY and RULE_REMOTE_CONFLICT. -/
def crossCheckRemote (resolution : Resolution) (decisive : List EvidenceRecord)
    (symmetry : LinkSymmetryGuarantee) : Resolution :=
  let remote := decisive.filter (effectivePrecedence · = 4)
  if minimumTier decisive < 4 ∧ remote ≠ [] then
    let contradiction := remote.any fun candidate =>
      claimIsOperational candidate.claim ≠ isOperationalState resolution.state
    if !contradiction then
      resolution.pushRule (lit "RULE_REMOTE_CORROBORATION: remote endpoint evidence agrees with " ++
        lit "the local resolution")
    else if symmetry = .directional then
      (remote.foldl (fun resolution candidate =>
        resolution.noteConflict (lit "RULE_REMOTE_ASYMMETRY: " ++ describe candidate))
        (resolution.pushRule (lit "RULE_REMOTE_ASYMMETRY: the remote endpoint disagrees with the " ++
          lit "local observation and the link class supports asymmetry; the link is DEGRADED with " ++
          lit "cause ASYMMETRY")))
        |>.setState .degraded .authoritativeDegraded .asymmetry
    else
      { ((remote.foldl (fun resolution candidate =>
          resolution.noteConflict (lit "RULE_REMOTE_CONFLICT: " ++ describe candidate)) resolution)
          |>.pushRule (lit "RULE_REMOTE_CONFLICT: the remote endpoint contradicts the local " ++
            lit "observation on a link class that does not support asymmetry; neither side is " ++
            lit "authoritative")
          |>.setState .revalidationRequired .conflicted .none) with conflicted := true }
  else resolution

/-- The resolution of decisive records: by asymmetry, or by the claims of the strongest tier. -/
def byDecisive (resolution : Resolution) (administrative decisive : List EvidenceRecord)
    (symmetry : LinkSymmetryGuarantee) : Resolution :=
  let resolution := resolution.selectTier administrative decisive
  match (asymmetryOf (winningTier decisive)).head? with
  | some witness => resolution.byAsymmetry witness symmetry
  | none =>
    match resolution.byClaims (winningTier decisive) with
    | none => resolution.conflictedBy (winningTier decisive)
    | some resolution => resolution.crossCheckRemote decisive symmetry

end Resolution

/-- `resolve_link_state`, on records that are already in canonical order. -/
def resolveOrdered (ordered : List EvidenceRecord) (record : LinkStateRecord) : Resolution :=
  let counted := ordered.filter fun candidate => (classify candidate).counted
  let resolution : Resolution := { dispositions := ordered.map classify }
  match record.adminIntent with
  | some intent => resolution.underIntent intent
  | none =>
    let administrative := counted.filter (·.key.kind = .administrativeState)
    let decisive := counted.filter (·.key.kind ≠ .administrativeState)
    if Resolution.disabledBy administrative || Resolution.drainedBy administrative then
      resolution.underRestriction administrative
    else
      let resolution := resolution.underEnablement administrative
      if decisive.isEmpty then resolution.withoutEvidence record.everEstablished
      else resolution.byDecisive administrative decisive record.binding.symmetry

/-- `resolve_link_state`. -/
def resolveLinkState (records : List EvidenceRecord) (record : LinkStateRecord) : Resolution :=
  resolveOrdered (sortBy evidenceLess records) record

end LinkState
