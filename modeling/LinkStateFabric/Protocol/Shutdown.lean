import LinkStateFabric.Protocol.Registrations

/-!
# The stop of the coordinator, thread by thread

`CoordinatorServer.stop` takes one thread after the other. Here they run side by side: the threads
of the sessions, which may have frames to handle before they see the stop, the accept loop, and the
program that owns the engine.

* `Stopping`: a coordinator while `stop` runs. `Stopping.calm` is the engine as the requests alone
  leave it.
* `Stopping.During`: what any interleaving reaches.
* `during_stop`: what `CoordinatorServer.stop` leaves is reached by one of them.

A receive loop ends as soon as its thread sees the stop or its closed socket, so that the closing of
the sockets is no step of its own. A fence is one step with its checkpoint.
-/

namespace LinkState

namespace CoordinatorServer

/-- How far `stop` has come: the accept loop is there, these sessions are still to be joined, or it
has returned. -/
inductive Stage
  | accepting
  | joining (rest : List Nat)
  | returned

/-- A coordinator while `stop` runs. -/
structure Stopping where
  server : CoordinatorServer
  stage : Stage := .accepting
  /-- The threads that are in `end_session`, with what these have still to fence. -/
  ending : Nat → Option (List (PublisherId × WorkerBootId)) := fun _ => none
  /-- The engine with the requests and without the ends of the sessions. -/
  calm : Impl

namespace Stopping

/-- `stop` is called. -/
def called (server : CoordinatorServer) : Stopping := { server, calm := server.engine }

/-- A step of a thread. `joinAccept` and `join` are those of `stop` itself, which `returns` ends. -/
inductive Act
  | op (op : Op)
  | accept
  | frame (id : Nat) (frame : Frame) (sent : Bool)
  | leave (id : Nat)
  | fence (id : Nat)
  | finish (id : Nat)
  | joinAccept
  | join
  | returns

/-- When a step can be made. A thread is joined when it has finished. -/
def Enabled (s : Stopping) : Act → Prop
  | .op _ => True
  | .accept | .joinAccept => s.stage = .accepting
  | .frame id _ _ => s.server.Serving id
  | .leave id =>
    id ∈ s.server.sessions ∧ (s.server.session id).finished = false ∧ s.ending id = none
  | .fence id => ∃ r rest, s.ending id = some (r :: rest)
  | .finish id => s.ending id = some []
  | .join => ∃ id rest, s.stage = .joining (id :: rest) ∧ (s.server.session id).finished = true
  | .returns => s.stage = .joining []

/-- The effect of a step. -/
def apply (s : Stopping) : Act → Stopping
  | .op op => { s with server := s.server.apply (.op op), calm := s.calm.apply op }
  | .accept => { s with server := s.server.accept }
  | .frame id frame sent =>
    { s with
      server := s.server.receiveFrame id frame sent
      calm := match s.server.operationAt id frame with
        | none => s.calm
        | some op => s.calm.apply op }
  | .leave id =>
    let session := s.server.session id
    let pending := if s.server.config.fenceOnDisconnect then session.registrations else []
    { s with
      server := s.server.putSession id { session with serving := false }
      ending := Function.update s.ending id (some pending) }
  | .fence id => match s.ending id with
    | some (r :: rest) =>
      { s with
        server := s.server.endRegistration r
        ending := Function.update s.ending id (some rest) }
    | _ => s
  | .finish id =>
    let session := s.server.session id
    let left := if s.server.config.fenceOnDisconnect then [] else session.registrations
    { s with
      server := s.server.putSession id { session with registrations := left, finished := true }
      ending := Function.update s.ending id none }
  | .joinAccept => { s with stage := .joining s.server.sessions }
  | .join => match s.stage with
    | .joining (id :: rest) =>
      { s with server := s.server.shutdownSession id, stage := .joining rest }
    | _ => s
  | .returns =>
    { s with server := { s.server with sessions := [], running := false }, stage := .returned }

/-- What the interleavings of a call of `stop` with the other threads reach. -/
abbrev During (server : CoordinatorServer) : Stopping → Prop :=
  Runs.Run (· = called server) apply Enabled

end Stopping

/-! ## One thread after the other -/

section Sequence

variable {server : CoordinatorServer} {s : Stopping}

theorem Stopping.During.step (h : Stopping.During server s) (act : Stopping.Act)
    (henabled : s.Enabled act) : Stopping.During server (s.apply act) :=
  Runs.Run.step act h henabled

/-- A thread fences what it has still to fence. -/
theorem Stopping.During.fences {id : Nat} {pending : List (PublisherId × WorkerBootId)}
    (h : Stopping.During server s) (hpending : s.ending id = some pending) :
    Stopping.During server
      { s with
        server := pending.foldl endRegistration s.server
        ending := Function.update s.ending id (some []) } := by
  induction pending generalizing s with
  | nil =>
    rw [← hpending, Function.update_eq_self]
    exact h
  | cons r rest ih =>
    have hstep := Stopping.During.step h (.fence id) ⟨r, rest, hpending⟩
    have happly : s.apply (.fence id) =
        { s with
          server := s.server.endRegistration r
          ending := Function.update s.ending id (some rest) } := by
      unfold Stopping.apply
      dsimp only
      rw [hpending]
    rw [happly] at hstep
    have hrest := ih hstep (Function.update_self ..)
    rw [Function.update_idem] at hrest
    exact hrest

/-- A session ends, from its receive loop on. -/
theorem Stopping.During.endSession {id : Nat} (h : Stopping.During server s)
    (hidle : s.ending id = none) (hid : id ∈ s.server.sessions)
    (hopen : (s.server.session id).finished = false) :
    Stopping.During server { s with server := s.server.endSession id } := by
  have hleave := Stopping.During.step h (.leave id) ⟨hid, hopen, hidle⟩
  have hfences := Stopping.During.fences hleave (Function.update_self ..)
  have hfinish := Stopping.During.step hfences (.finish id) (Function.update_self ..)
  refine (congrArg (Stopping.During server) ?_).mp hfinish
  unfold Stopping.apply
  dsimp only
  rw [foldl_endRegistration_putSession, Function.update_idem, Function.update_idem,
    ← hidle, Function.update_eq_self, putSession_session, putSession_putSession]
  congr 1
  unfold CoordinatorServer.endSession
  dsimp only
  cases hfence : s.server.config.fenceOnDisconnect with
  | false =>
    rw [if_neg Bool.false_ne_true, if_neg Bool.false_ne_true, List.foldl_nil, putSession_config, hfence]
    rfl
  | true =>
    have hsame := (foldl_endRegistration s.server (s.server.session id).registrations).2
    rw [if_pos rfl, if_pos rfl, putSession_config, hsame.config, hfence]
    rfl

theorem shutdownSession_finished (server : CoordinatorServer) (id other : Nat) :
    ((server.shutdownSession id).session other).finished = (server.session other).finished := by
  unfold CoordinatorServer.shutdownSession
  dsimp only
  split
  · by_cases heq : other = id
    · subst heq
      rw [putSession_session]
    · rw [putSession_session_of_ne _ heq, (foldl_fence ..).2.session]
  · rfl

/-- Sessions end, one after the other. -/
theorem Stopping.During.joinSessions {ids : List Nat} (h : Stopping.During server s)
    (hidle : ∀ id, s.ending id = none) (hids : ∀ id ∈ ids, id ∈ s.server.sessions) :
    Stopping.During server { s with server := ids.foldl CoordinatorServer.joinSession s.server } := by
  induction ids generalizing s with
  | nil => exact h
  | cons id ids ih =>
    have hjoin : Stopping.During server { s with server := s.server.joinSession id } := by
      unfold CoordinatorServer.joinSession
      split
      · exact h
      · rename_i hopen
        exact Stopping.During.endSession h (hidle id) (hids id List.mem_cons_self)
          (Bool.eq_false_iff.mpr hopen)
    refine ih hjoin hidle fun other hother => ?_
    exact (Closes.joinSession s.server id).sessions ▸ hids other (List.mem_cons_of_mem _ hother)

/-- Threads that have finished are joined, one after the other. -/
theorem Stopping.During.joins {ids : List Nat} (h : Stopping.During server s)
    (hstage : s.stage = .joining ids)
    (hfinished : ∀ id ∈ ids, (s.server.session id).finished = true) :
    Stopping.During server
      { s with
        server := ids.foldl CoordinatorServer.shutdownSession s.server
        stage := .joining [] } := by
  induction ids generalizing s with
  | nil =>
    rw [← hstage]
    exact h
  | cons id ids ih =>
    have hjoin := Stopping.During.step h .join
      ⟨id, ids, hstage, hfinished id List.mem_cons_self⟩
    have happly : s.apply .join =
        { s with server := s.server.shutdownSession id, stage := .joining ids } := by
      unfold Stopping.apply
      dsimp only
      rw [hstage]
    rw [happly] at hjoin
    refine ih hjoin rfl fun other hother => ?_
    rw [shutdownSession_finished]
    exact hfinished other (List.mem_cons_of_mem _ hother)

/-- `stop` with nothing beside it. -/
theorem during_stop (hrunning : server.running = true) :
    Stopping.During server
      { server := server.stop, stage := .returned, calm := server.engine } := by
  have hcalled : Stopping.During server (.called server) := .start rfl
  have hended := Stopping.During.joinSessions hcalled (fun _ => rfl) fun _ h => h
  have hstage := Stopping.During.step hended .joinAccept rfl
  have hsessions : (server.sessions.foldl CoordinatorServer.joinSession server).sessions =
      server.sessions := (Closes.foldl Closes.joinSession server.sessions server).sessions
  have hjoins := Stopping.During.joins hstage (congrArg Stage.joining hsessions) fun id hid =>
    foldl_joinSession_finished server.sessions (.inr hid)
  have hreturns := Stopping.During.step hjoins .returns rfl
  refine (congrArg (Stopping.During server) ?_).mp hreturns
  unfold stop
  rw [hrunning]
  rfl

end Sequence

end CoordinatorServer

end LinkState
