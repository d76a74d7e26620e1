import LinkStateFabric.Protocol.Registrations

/-!
# Ends of sessions, step by step

`end_session` fences one registration after the other. For each it reads the epoch of the
coordinator and then invalidates the incarnation, and no lock is held from one of these calls to the
next: other sessions, the accept loop and the program that owns the engine make their steps between
them.

* `Leaving`: a session that is in `end_session`, with a record of which incarnations had their turn
  in the loop and which of them were registered again since.
* `Departures`: a coordinator with the sessions that are leaving, and the steps of these.
* `reachable_of_audit`: the runs in which a session ends in one step are among the runs here.

An invalidation is one step with its checkpoint. `stop` returns where all sessions have ended.
-/

namespace LinkState

namespace CoordinatorServer

structure Leaving where
  /-- The registrations that the loop has still to fence. -/
  pending : List (PublisherId × WorkerBootId)
  /-- The epoch that was read for the first of them. -/
  epoch : Option CoordinatorEpoch := none
  /-- Those whose turn has come. -/
  begun : List (PublisherId × WorkerBootId) := []
  /-- Those that were registered again, once their turn had come. -/
  again : List (PublisherId × WorkerBootId) := []
  deriving DecidableEq

namespace Leaving

/-- The loop is at the read of an epoch. -/
def reads (leaving : Leaving) : Bool := !leaving.pending.isEmpty && leaving.epoch.isNone

/-- The loop is at an invalidation. -/
def fences (leaving : Leaving) : Bool := !leaving.pending.isEmpty && leaving.epoch.isSome

/-- The loop is over. -/
def ended (leaving : Leaving) : Bool := leaving.pending.isEmpty

/-- The turn of the next registration comes. -/
def read (leaving : Leaving) (epoch : CoordinatorEpoch) : Leaving :=
  { leaving with epoch := some epoch, begun := leaving.begun ++ leaving.pending.take 1 }

/-- The record of a registration, if it is one of those whose turn has come. -/
def note (leaving : Leaving) (enrolled : Option (PublisherId × WorkerBootId)) : Leaving :=
  { leaving with again := leaving.again ++ enrolled.toList.filter leaving.begun.contains }

end Leaving

/-- The incarnation that a step registers. -/
def enrolledAt (server : CoordinatorServer) : Act → Option (PublisherId × WorkerBootId)
  | .frame id frame _ => server.enrolled id frame
  | .op op => enrolledBy server.engine op
  | _ => none

/-- A step that ends no session. -/
def Apart (server : CoordinatorServer) : Act → Prop
  | .endSession _ => False
  | .stop => ∀ id ∈ server.sessions, (server.session id).finished = true
  | _ => True

instance (server : CoordinatorServer) : (act : Act) → Decidable (server.Apart act)
  | .endSession _ => .isFalse id
  | .stop => inferInstanceAs (Decidable (∀ id ∈ server.sessions, _))
  | .start | .accept | .frame _ _ _ | .op _ => .isTrue trivial

/-- A coordinator with a record of who has registered what, and the sessions that are leaving. -/
structure Departures where
  audit : Audit
  leaving : Nat → Option Leaving := fun _ => none

namespace Departures

inductive Act where
  | act (act : CoordinatorServer.Act)
  | leave (id : Nat)
  | readEpoch (id : Nat)
  | fence (id : Nat)
  | finish (id : Nat)

/-- When a step can be made. -/
def Enabled (d : Departures) : Act → Prop
  | .act act => d.audit.server.Enabled act ∧ d.audit.server.Apart act
  | .leave id => id ∈ d.audit.server.sessions ∧ (d.audit.server.session id).finished = false ∧
    d.leaving id = none
  | .readEpoch id => (d.leaving id).any Leaving.reads = true
  | .fence id => (d.leaving id).any Leaving.fences = true
  | .finish id => (d.leaving id).any Leaving.ended = true

instance (d : Departures) : (act : Act) → Decidable (d.Enabled act)
  | .act act => inferInstanceAs (Decidable (d.audit.server.Enabled act ∧ _))
  | .leave id => inferInstanceAs (Decidable (id ∈ d.audit.server.sessions ∧ _ ∧ _))
  | .readEpoch id => inferInstanceAs (Decidable ((d.leaving id).any Leaving.reads = true))
  | .fence id => inferInstanceAs (Decidable ((d.leaving id).any Leaving.fences = true))
  | .finish id => inferInstanceAs (Decidable ((d.leaving id).any Leaving.ended = true))

/-- The effect of a step. -/
def apply (d : Departures) : Act → Departures
  | .act act =>
    { audit := d.audit.apply act
      leaving := fun id => (d.leaving id).map (·.note (d.audit.server.enrolledAt act)) }
  | .leave id =>
    let session := d.audit.server.session id
    let pending := if d.audit.server.config.fenceOnDisconnect then session.registrations else []
    { audit :=
        { d.audit with server := d.audit.server.putSession id { session with serving := false } }
      leaving := Function.update d.leaving id (some { pending }) }
  | .readEpoch id =>
    { d with
      leaving := Function.update d.leaving id
        ((d.leaving id).map (·.read d.audit.server.engine.epoch)) }
  | .fence id => match d.leaving id with
    | some { pending := r :: rest, epoch := some epoch, begun, again } =>
      { audit := { d.audit with server := d.audit.server.endRegistrationAs epoch r }
        leaving := Function.update d.leaving id (some { pending := rest, begun, again }) }
    | _ => d
  | .finish id =>
    let session := d.audit.server.session id
    let left := if d.audit.server.config.fenceOnDisconnect then [] else session.registrations
    { audit :=
        { d.audit with
          server := d.audit.server.putSession id
            { session with registrations := left, serving := false, finished := true } }
      leaving := Function.update d.leaving id none }

/-- A coordinator that has just started. -/
def Started (d : Departures) : Prop := d.audit.Started ∧ d.leaving = fun _ => none

/-- What the interleavings of sessions that come, make requests and leave reach. -/
abbrev Reachable : Departures → Prop := Runs.Run Started apply Enabled

/-! ## Sessions that end with nothing beside them -/

section Sequence

variable {d : Departures}

theorem Reachable.step (h : d.Reachable) (act : Act) (henabled : d.Enabled act) :
    (d.apply act).Reachable := Runs.Run.step act h henabled

theorem any_of_leaving {id : Nat} {leaving : Leaving} (h : d.leaving id = some leaving)
    {p : Leaving → Bool} (hp : p leaving = true) : (d.leaving id).any p = true := by
  rw [h]
  exact hp

/-- What an invalidation leaves. -/
theorem apply_fence {id : Nat} {r : PublisherId × WorkerBootId}
    {rest begun again : List (PublisherId × WorkerBootId)} {epoch : CoordinatorEpoch}
    (h : d.leaving id = some { pending := r :: rest, epoch := some epoch, begun, again }) :
    d.apply (.fence id) =
      { audit := { d.audit with server := d.audit.server.endRegistrationAs epoch r }
        leaving := Function.update d.leaving id (some { pending := rest, begun, again }) } := by
  unfold apply
  dsimp only
  rw [h]

/-- The loop over what is pending. -/
theorem Reachable.fences {id : Nat} {pending begun : List (PublisherId × WorkerBootId)}
    (h : d.Reachable) (hleaving : d.leaving id = some { pending, begun }) : Reachable
      { audit := { d.audit with server := pending.foldl endRegistration d.audit.server }
        leaving := Function.update d.leaving id
          (some { pending := [], begun := begun ++ pending }) } := by
  induction pending generalizing d begun with
  | nil =>
    rw [List.append_nil, ← hleaving, Function.update_eq_self]
    exact h
  | cons r rest ih =>
    have hread := Reachable.step h (.readEpoch id) (any_of_leaving hleaving rfl)
    have hnext : (d.apply (.readEpoch id)).leaving id = some
        { pending := r :: rest
          epoch := some d.audit.server.engine.epoch
          begun := begun ++ [r] } := by
      refine (Function.update_self ..).trans ?_
      rw [hleaving]
      rfl
    have hfence := Reachable.step hread (.fence id) (any_of_leaving hnext rfl)
    rw [apply_fence hnext] at hfence
    have hrest := ih hfence (Function.update_self ..)
    have hupdate : (d.apply (.readEpoch id)).leaving = Function.update d.leaving id
        ((d.leaving id).map (·.read d.audit.server.engine.epoch)) := rfl
    simp only [hupdate, Function.update_idem, List.append_assoc] at hrest
    exact hrest

/-- A session ends with nothing beside it. -/
theorem Reachable.endSession {id : Nat} (h : d.Reachable) (hidle : d.leaving id = none)
    (hid : id ∈ d.audit.server.sessions) (hopen : (d.audit.server.session id).finished = false) :
    Reachable { d with audit := d.audit.apply (.endSession id) } := by
  have hleave := Reachable.step h (.leave id) ⟨hid, hopen, hidle⟩
  have hfences := Reachable.fences hleave (Function.update_self ..)
  have hfinish := Reachable.step hfences (.finish id)
    (any_of_leaving (Function.update_self ..) rfl)
  refine (congrArg Reachable ?_).mp hfinish
  unfold Departures.apply Audit.apply CoordinatorServer.apply
  dsimp only
  rw [foldl_endRegistration_putSession, Function.update_idem, Function.update_idem, ← hidle,
    Function.update_eq_self, putSession_session, putSession_putSession]
  congr 2
  unfold CoordinatorServer.endSession
  dsimp only
  cases hfence : d.audit.server.config.fenceOnDisconnect with
  | false =>
    rw [if_neg Bool.false_ne_true, if_neg Bool.false_ne_true, List.foldl_nil, putSession_config,
      hfence]
    rfl
  | true =>
    have hsame := (foldl_endRegistration d.audit.server (d.audit.server.session id).registrations).2
    rw [if_pos rfl, if_pos rfl, putSession_config, hsame.config, hfence]
    rfl

/-- Sessions end, one after the other. -/
theorem Reachable.joinSessions {audit : Audit} {ids : List Nat} (h : Reachable { audit })
    (hids : ∀ id ∈ ids, id ∈ audit.server.sessions) :
    Reachable { audit := { audit with server := ids.foldl joinSession audit.server } } := by
  induction ids generalizing audit with
  | nil => exact h
  | cons id ids ih =>
    have hjoin : Reachable { audit := { audit with server := audit.server.joinSession id } } := by
      unfold joinSession
      split
      · exact h
      · rename_i hopen
        exact Reachable.endSession h rfl (hids id List.mem_cons_self) (Bool.eq_false_iff.mpr hopen)
    refine ih hjoin fun other hother => ?_
    exact (Closes.joinSession audit.server id).sessions ▸ hids other (List.mem_cons_of_mem _ hother)

/-- Sessions that have ended are joined at once. -/
theorem foldl_joinSession_of_finished {server : CoordinatorServer} {ids : List Nat}
    (h : ∀ id ∈ ids, (server.session id).finished = true) : ids.foldl joinSession server = server := by
  induction ids with
  | nil => rfl
  | cons id ids ih =>
    rw [List.foldl_cons, joinSession, if_pos (h id List.mem_cons_self)]
    exact ih fun other hother => h other (List.mem_cons_of_mem _ hother)

/-- The coordinator stops once its sessions have ended. -/
theorem Reachable.stop {audit : Audit} (h : Reachable { audit }) :
    Reachable { audit := audit.apply .stop } := by
  cases hrunning : audit.server.running with
  | false =>
    refine (congrArg (fun server => Reachable { audit := { audit with server } }) ?_).mpr h
    show audit.server.stop = audit.server
    rw [CoordinatorServer.stop, hrunning]
    rfl
  | true =>
    have hcloses := Closes.foldl Closes.joinSession audit.server.sessions audit.server
    have hended {id : Nat} (hid : id ∈ audit.server.sessions) :=
      @foldl_joinSession_finished audit.server audit.server.sessions id (.inr hid)
    have hjoined := Reachable.joinSessions h fun _ => id
    have hstop := Reachable.step hjoined (.act .stop)
      ⟨trivial, fun id hid => hended (hcloses.sessions ▸ hid)⟩
    refine (congrArg (fun server => Reachable { audit := { audit with server } }) ?_).mp hstop
    show CoordinatorServer.stop _ = audit.server.stop
    unfold CoordinatorServer.stop
    dsimp only
    rw [hcloses.running, hcloses.sessions, foldl_joinSession_of_finished fun _ => hended,
      hrunning]
    rfl

/-- A run in which every session ends in one step. -/
theorem reachable_of_audit {audit : Audit} (h : audit.Reachable) : Reachable { audit } := by
  induction h with
  | start h => exact .start ⟨h, rfl⟩
  | step act _ henabled ih =>
    cases act with
    | endSession id => exact Reachable.endSession ih rfl henabled.1 henabled.2
    | stop => exact Reachable.stop ih
    | start => exact Reachable.step ih (.act .start) ⟨henabled, trivial⟩
    | accept => exact Reachable.step ih (.act .accept) ⟨henabled, trivial⟩
    | frame id frame sent => exact Reachable.step ih (.act (.frame id frame sent)) ⟨henabled, trivial⟩
    | op op => exact Reachable.step ih (.act (.op op)) ⟨henabled, trivial⟩

end Sequence

end Departures

end CoordinatorServer

end LinkState
