import LinkStateFabric.Text
import Mathlib.Tactic.SplitIfs

/-!
# Operational states and their transitions (`state.hpp`, `state.cpp`)

* `evaluateTransition`: the transition matrix. A state is entered by the triggers its row of
  `inboundTriggers` names, and `RETIRED` is never left.
* `stateOf`: the state that a result class presents.
-/

namespace LinkState

open Codec (ByteEnum)

/-- The operational condition of a link. -/
inductive LinkOperationalState where
  | unknown | up | down | degraded | adminDisabled | draining | faulted | revalidationRequired
  | retired
  deriving DecidableEq, Repr

namespace LinkOperationalState

instance : ByteEnum LinkOperationalState :=
  .ofValues [unknown, up, down, degraded, adminDisabled, draining, faulted, revalidationRequired,
    retired] (by intro a; cases a <;> decide) (by decide) (by decide)

def text : LinkOperationalState → Text
  | unknown => lit "UNKNOWN"
  | up => lit "UP"
  | down => lit "DOWN"
  | degraded => lit "DEGRADED"
  | adminDisabled => lit "ADMIN_DISABLED"
  | draining => lit "DRAINING"
  | faulted => lit "FAULTED"
  | revalidationRequired => lit "REVALIDATION_REQUIRED"
  | retired => lit "RETIRED"

/-- `describe`. -/
def describe : LinkOperationalState → Text
  | unknown => lit "no decisive current evidence and no durable prior conclusion"
  | up => lit "current evidence supports operational availability"
  | down => lit "current evidence supports a non operational link"
  | degraded => lit "operational but materially impaired"
  | adminDisabled => lit "intentionally disabled by administrative intent"
  | draining => lit "administratively quiescing, must not take new work"
  | faulted => lit "a hardware or device fault was reported"
  | revalidationRequired =>
    lit "a durable prior state exists but no current evidence is authoritative"
  | retired => lit "the underlying topology edge or link identity was retired"

end LinkOperationalState

/-- `is_operational_state`: the link is operational, possibly impaired. -/
def isOperationalState (state : LinkOperationalState) : Bool :=
  state = .up || state = .degraded || state = .draining

/-- Why a change of state is attempted. -/
inductive TransitionTrigger where
  | evidenceResolution | evidenceWithdrawal | publisherFenced | sourceLost | topologyInvalidation
  | coordinatorEpochAdvance | recovery | retirement | explicitAdministrative | revalidationOutcome
  deriving DecidableEq, Repr

namespace TransitionTrigger

instance : ByteEnum TransitionTrigger :=
  .ofValues [evidenceResolution, evidenceWithdrawal, publisherFenced, sourceLost,
    topologyInvalidation, coordinatorEpochAdvance, recovery, retirement, explicitAdministrative,
    revalidationOutcome] (by intro a; cases a <;> decide) (by decide) (by decide)

def text : TransitionTrigger → Text
  | evidenceResolution => lit "EVIDENCE_RESOLUTION"
  | evidenceWithdrawal => lit "EVIDENCE_WITHDRAWAL"
  | publisherFenced => lit "PUBLISHER_FENCED"
  | sourceLost => lit "SOURCE_LOST"
  | topologyInvalidation => lit "TOPOLOGY_INVALIDATION"
  | coordinatorEpochAdvance => lit "COORDINATOR_EPOCH_ADVANCE"
  | recovery => lit "RECOVERY"
  | retirement => lit "RETIREMENT"
  | explicitAdministrative => lit "EXPLICIT_ADMINISTRATIVE"
  | revalidationOutcome => lit "REVALIDATION_OUTCOME"

end TransitionTrigger

/-- Whether a transition is permitted. -/
inductive TransitionLegality where
  | legal | sameState | fromRetired | retirementRequired | triggerNotPermitted | illegal
  deriving DecidableEq, Repr

/-- `kInboundTriggerMask`: the triggers that may enter a state. -/
def inboundTriggers : LinkOperationalState → List TransitionTrigger
  | .unknown => [.evidenceResolution, .evidenceWithdrawal, .revalidationOutcome, .recovery]
  | .revalidationRequired =>
    [.evidenceResolution, .evidenceWithdrawal, .publisherFenced, .sourceLost,
      .topologyInvalidation, .coordinatorEpochAdvance, .recovery, .revalidationOutcome]
  | .retired => [.retirement, .topologyInvalidation]
  | .up | .down | .degraded | .adminDisabled | .draining | .faulted =>
    [.evidenceResolution, .revalidationOutcome, .explicitAdministrative]

/-- `evaluate_transition`. The source's first test, for values outside the enumeration, has no
counterpart. -/
def evaluateTransition (fromState toState : LinkOperationalState) (trigger : TransitionTrigger) :
    TransitionLegality :=
  if fromState = toState then .sameState
  else if fromState = .retired then .fromRetired
  else if toState = .retired then
    if trigger ∈ inboundTriggers toState then .legal else .retirementRequired
  else if trigger ∈ inboundTriggers toState then .legal else .triggerNotPermitted

/-- From a live state, a live target is entered exactly by the triggers of its row. -/
theorem evaluateTransition_of_mem {s t : LinkOperationalState} {trigger : TransitionTrigger}
    (hs : s ≠ .retired) (ht : trigger ∈ inboundTriggers t) :
    evaluateTransition s t trigger = if s = t then .sameState else .legal := by
  unfold evaluateTransition
  simp only [if_neg hs, if_pos ht, ite_self]

theorem eq_of_sameState {s t : LinkOperationalState} {trigger : TransitionTrigger}
    (h : evaluateTransition s t trigger = .sameState) : s = t := by
  unfold evaluateTransition at h
  by_contra hne
  rw [if_neg hne] at h
  split_ifs at h

theorem ne_of_legal {s t : LinkOperationalState} {trigger : TransitionTrigger}
    (h : evaluateTransition s t trigger = .legal) : s ≠ t := by
  rintro rfl
  rw [evaluateTransition, if_pos rfl] at h
  cases h

/-- The structural class of a link. -/
inductive LinkClass where
  | unknown | ethernetLike | infiniBandLike | hostNic | switchToSwitch | logical | tunnelBacked
  | optical | fabricInterconnect | bondedAggregate
  deriving DecidableEq, Repr

instance : ByteEnum LinkClass :=
  .ofValues [.unknown, .ethernetLike, .infiniBandLike, .hostNic, .switchToSwitch, .logical,
    .tunnelBacked, .optical, .fabricInterconnect, .bondedAggregate]
    (by intro a; cases a <;> decide) (by decide) (by decide)

/-- Whether both directions of a link report the same condition. -/
inductive LinkSymmetryGuarantee where
  | unspecified | symmetric | directional
  deriving DecidableEq, Repr

instance : ByteEnum LinkSymmetryGuarantee :=
  .ofValues [.unspecified, .symmetric, .directional]
    (by intro a; cases a <;> decide) (by decide) (by decide)

/-- The outcome of resolving evidence. -/
inductive StateResultClass where
  | authoritativeUnknown | authoritativeUp | authoritativeDown | authoritativeDegraded
  | authoritativeAdminDisabled | authoritativeDraining | authoritativeFaulted | conflicted
  | revalidationRequired | retired
  deriving DecidableEq, Repr

namespace StateResultClass

instance : ByteEnum StateResultClass :=
  .ofValues [authoritativeUnknown, authoritativeUp, authoritativeDown, authoritativeDegraded,
    authoritativeAdminDisabled, authoritativeDraining, authoritativeFaulted, conflicted,
    revalidationRequired, retired] (by intro a; cases a <;> decide) (by decide) (by decide)

end StateResultClass

/-- `state_of`: the operational state that a result class presents. -/
def stateOf : StateResultClass → LinkOperationalState
  | .authoritativeUnknown => .unknown
  | .authoritativeUp => .up
  | .authoritativeDown => .down
  | .authoritativeDegraded => .degraded
  | .authoritativeAdminDisabled => .adminDisabled
  | .authoritativeDraining => .draining
  | .authoritativeFaulted => .faulted
  | .conflicted => .revalidationRequired
  | .revalidationRequired => .revalidationRequired
  | .retired => .retired

end LinkState
