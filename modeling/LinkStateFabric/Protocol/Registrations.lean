import LinkStateFabric.Engine.Fencing
import LinkStateFabric.Protocol.Exchanges

/-!
# Sessions and the incarnations that they have registered

* `apply_operates`: whatever a coordinator does, its engine is operated, so that it stays reachable.
* `Impl.endIncarnation`: one invalidation of the end of a session. `endSession_engine` is the engine
  after a session has ended.
* `Closes`: sessions close, and nothing else about them changes but their registrations.
* `Audit`: a coordinator with a record of which session has registered what. `Tracked` says that
  the registrations of a session that has not ended are those.
-/

namespace LinkState

open Relation (ReflTransGen)

/-! ## Operated engines -/

/-- The engine is operated, and no journal is loaded. -/
abbrev Impl.Operates : Impl → Impl → Prop :=
  ReflTransGen fun impl impl' => ∃ op : Op, op.isLoad = false ∧ impl' = impl.apply op

theorem Impl.Operates.single {impl : Impl} {op : Op} (hload : op.isLoad = false) :
    impl.Operates (impl.apply op) :=
  ReflTransGen.single ⟨op, hload, rfl⟩

theorem Impl.Operates.reachable {impl impl' : Impl} (h : impl.Operates impl')
    (hreachable : impl.Reachable) : impl'.Reachable := by
  induction h with
  | refl => exact hreachable
  | tail _ hstep ih =>
    obtain ⟨op, -, rfl⟩ := hstep
    exact .step op ih trivial

/-- The operations that are requested over the wire. -/
def Op.isRequest : Op → Bool
  | .registerPublisher _ | .publishEvidence _ | .withdrawEvidence _ | .invalidatePublisher _ => true
  | _ => false

theorem isLoad_of_isRequest {op : Op} (h : op.isRequest = true) : op.isLoad = false := by
  cases op with
  | load => cases h
  | _ => rfl

theorem isRequest_of_operationAt {server : CoordinatorServer} {id : Nat} {frame : Frame} {op : Op}
    (h : server.operationAt id frame = some op) : op.isRequest = true := by
  obtain ⟨request, -, hperformed⟩ := Option.bind_eq_some_iff.mp h
  unfold CoordinatorServer.Session.performed at hperformed
  split at hperformed
  case isFalse => cases hperformed
  unfold CoordinatorServer.operationOf at hperformed
  split at hperformed <;> cases hperformed <;> rfl

/-! ## Ends of sessions -/

/-- An invalidation by the coordinator itself. -/
def Impl.closing (impl : Impl) (reason : Text) (registration : PublisherId × WorkerBootId) :
    InvalidatePublisherRequest where
  publisher := registration.1
  workerBoot := some registration.2
  epoch := impl.epoch
  reason := reason

/-- The engine after one invalidation by the coordinator itself. -/
def Impl.endIncarnation (reason : Text) (impl : Impl)
    (registration : PublisherId × WorkerBootId) : Impl :=
  impl.apply (.invalidatePublisher (impl.closing reason registration))

/-- The end of a session invalidates the incarnation that it has registered, and no other. -/
theorem closing_invalidates {impl : Impl} {reason : Text} {p : PublisherId} {b : WorkerBootId}
    {authority : PublisherAuthority} :
    impl.invalidates (impl.closing reason (p, b)) authority = true ↔
      p.valid = true ∧ authority.workerBoot = b ∧ authority.status = .active := by
  unfold Impl.invalidates Impl.closing
  simp only [Option.any_some, Bool.and_eq_true, Bool.not_eq_true', decide_eq_false_iff_not,
    not_not, decide_eq_true_eq, and_true, and_assoc]
  rw [@eq_comm _ b]

theorem Impl.Operates.endIncarnations (impl : Impl) (reason : Text)
    (registrations : List (PublisherId × WorkerBootId)) :
    impl.Operates (registrations.foldl (Impl.endIncarnation reason) impl) := by
  induction registrations generalizing impl with
  | nil => exact .refl
  | cons registration registrations ih =>
    exact (Impl.Operates.single rfl).trans (ih (impl.endIncarnation reason registration))

namespace CoordinatorServer

section Ends

variable (server : CoordinatorServer)

theorem fenceAs_same (epoch : CoordinatorEpoch) (reason : Text)
    (registration : PublisherId × WorkerBootId) :
    SameSessions server (server.fenceAs epoch reason registration).1 :=
  (SameSessions.withEngine server _).trans (.countFence _ _)

theorem endRegistrationAs_same (epoch : CoordinatorEpoch)
    (registration : PublisherId × WorkerBootId) :
    SameSessions server (server.endRegistrationAs epoch registration) :=
  (fenceAs_same ..).trans (.checkpoint _ _)

/-- An invalidation under an epoch that was read before. -/
theorem endRegistrationAs_engine (epoch : CoordinatorEpoch)
    (registration : PublisherId × WorkerBootId) :
    (server.endRegistrationAs epoch registration).engine = server.engine.apply
      (.invalidatePublisher { server.engine.closing (lit "worker session ended") registration with
        epoch }) :=
  (checkpoint_engine ..).trans (countFence_engine ..)

theorem fence_engine (reason : Text) (registration : PublisherId × WorkerBootId) :
    (server.fence reason registration).1.engine = server.engine.endIncarnation reason registration :=
  countFence_engine ..

theorem fence_same (reason : Text) (registration : PublisherId × WorkerBootId) :
    SameSessions server (server.fence reason registration).1 := fenceAs_same ..

theorem endRegistration_engine (registration : PublisherId × WorkerBootId) :
    (server.endRegistration registration).engine =
      server.engine.endIncarnation (lit "worker session ended") registration :=
  (checkpoint_engine ..).trans (fence_engine ..)

theorem endRegistration_same (registration : PublisherId × WorkerBootId) :
    SameSessions server (server.endRegistration registration) := endRegistrationAs_same ..

/-- The loop of a session's end. -/
theorem foldl_endRegistration (registrations : List (PublisherId × WorkerBootId)) :
    (registrations.foldl endRegistration server).engine =
        registrations.foldl (Impl.endIncarnation (lit "worker session ended")) server.engine ∧
      SameSessions server (registrations.foldl endRegistration server) := by
  induction registrations generalizing server with
  | nil => exact ⟨rfl, .refl server⟩
  | cons registration registrations ih =>
    obtain ⟨hengine, hsame⟩ := ih (server.endRegistration registration)
    exact ⟨hengine.trans (by rw [endRegistration_engine, List.foldl_cons]),
      (endRegistration_same server registration).trans hsame⟩

/-- The loop of a session at the stop of the coordinator. -/
theorem foldl_fence (reason : Text) (registrations : List (PublisherId × WorkerBootId)) :
    (registrations.foldl (fun server registration => (server.fence reason registration).1)
        server).engine = registrations.foldl (Impl.endIncarnation reason) server.engine ∧
      SameSessions server (registrations.foldl
        (fun server registration => (server.fence reason registration).1) server) := by
  induction registrations generalizing server with
  | nil => exact ⟨rfl, .refl server⟩
  | cons registration registrations ih =>
    obtain ⟨hengine, hsame⟩ := ih (server.fence reason registration).1
    exact ⟨hengine.trans (by rw [fence_engine, List.foldl_cons]),
      (fence_same server reason registration).trans hsame⟩

@[simp] theorem putSession_config (id : Nat) (session : Session) :
    (server.putSession id session).config = server.config := rfl

/-- The loop of a session's end does not look at sessions. -/
theorem endRegistrationAs_putSession (epoch : CoordinatorEpoch) (id : Nat) (session : Session)
    (registration : PublisherId × WorkerBootId) :
    (server.putSession id session).endRegistrationAs epoch registration =
      (server.endRegistrationAs epoch registration).putSession id session := by
  unfold endRegistrationAs fenceAs countFence checkpoint putSession
  dsimp only
  split_ifs <;> rfl

theorem foldl_endRegistration_putSession (id : Nat) (session : Session)
    (registrations : List (PublisherId × WorkerBootId)) :
    registrations.foldl endRegistration (server.putSession id session) =
      (registrations.foldl endRegistration server).putSession id session := by
  induction registrations generalizing server with
  | nil => rfl
  | cons registration registrations ih =>
    have hone : (server.putSession id session).endRegistration registration =
        (server.endRegistration registration).putSession id session :=
      endRegistrationAs_putSession ..
    rw [List.foldl_cons, List.foldl_cons, hone, ih]

theorem endSession_engine (id : Nat) : (server.endSession id).engine =
    if server.config.fenceOnDisconnect then
      (server.session id).registrations.foldl (Impl.endIncarnation (lit "worker session ended"))
        server.engine
    else server.engine := by
  unfold endSession
  dsimp only
  split
  · exact (foldl_endRegistration ..).1
  · rfl

theorem shutdownSession_engine (id : Nat) : (server.shutdownSession id).engine =
    if server.config.fenceOnShutdown then
      (server.session id).registrations.foldl (Impl.endIncarnation (lit "coordinator shutdown"))
        server.engine
    else server.engine := by
  unfold shutdownSession
  dsimp only
  split
  · exact (foldl_fence ..).1
  · rfl

theorem endSession_finished (id : Nat) : ((server.endSession id).session id).finished = true := by
  unfold endSession
  dsimp only
  split <;> rw [putSession_session]

theorem endSession_session_of_ne {id other : Nat} (h : other ≠ id) :
    (server.endSession id).session other = server.session other := by
  unfold endSession
  dsimp only
  split
  · rw [putSession_session_of_ne _ h, (foldl_endRegistration ..).2.session]
  · rw [putSession_session_of_ne _ h]

theorem joinSession_finished (id : Nat) :
    ((server.joinSession id).session id).finished = true := by
  unfold joinSession
  split
  · assumption
  · exact endSession_finished ..

theorem joinSession_session_of_ne {id other : Nat} (h : other ≠ id) :
    (server.joinSession id).session other = server.session other := by
  unfold joinSession
  split
  · rfl
  · exact endSession_session_of_ne server h

/-- All sessions that are joined have ended. -/
theorem foldl_joinSession_finished {server : CoordinatorServer} (ids : List Nat) {id : Nat}
    (h : (server.session id).finished = true ∨ id ∈ ids) :
    ((ids.foldl joinSession server).session id).finished = true := by
  induction ids generalizing server with
  | nil => exact h.resolve_right List.not_mem_nil
  | cons next ids ih =>
    by_cases heq : id = next
    · subst heq
      exact ih (.inl (joinSession_finished ..))
    · refine ih (h.imp (fun hfinished => ?_) fun hmem => (List.mem_cons.mp hmem).resolve_left heq)
      rwa [joinSession_session_of_ne server heq]

theorem mem_note (session : Session) (publisher : PublisherId) (boot : WorkerBootId)
    (r : PublisherId × WorkerBootId) :
    r ∈ (session.note publisher boot).registrations ↔
      r ∈ session.registrations ∨ r = (publisher, boot) := by
  unfold Session.note
  split
  · rename_i hmem
    exact ⟨.inl, fun h => h.elim id fun heq => heq ▸ hmem⟩
  · simp

end Ends

/-! ## Sessions that close -/

/-- Sessions may close; those that stay open are not finished by that. -/
structure Closes (server server' : CoordinatorServer) : Prop where
  config : server'.config = server.config
  running : server'.running = server.running
  sessions : server'.sessions = server.sessions
  sessionsAccepted : server'.sessionsAccepted = server.sessionsAccepted
  serving : ∀ id, (server'.session id).serving = true → (server.session id).serving = true ∧
    (server'.session id).finished = (server.session id).finished

namespace Closes

variable {server server' server'' : CoordinatorServer}

theorem refl (server : CoordinatorServer) : Closes server server :=
  ⟨rfl, rfl, rfl, rfl, fun _ h => ⟨h, rfl⟩⟩

theorem trans (h : Closes server server') (h' : Closes server' server'') :
    Closes server server'' := by
  refine ⟨h'.config.trans h.config, h'.running.trans h.running, h'.sessions.trans h.sessions,
    h'.sessionsAccepted.trans h.sessionsAccepted, fun id hserving => ?_⟩
  obtain ⟨hserving', hfinished'⟩ := h'.serving id hserving
  obtain ⟨hserving, hfinished⟩ := h.serving id hserving'
  exact ⟨hserving, hfinished'.trans hfinished⟩

theorem foldl {f : CoordinatorServer → Nat → CoordinatorServer}
    (h : ∀ server id, Closes server (f server id)) (ids : List Nat) (server : CoordinatorServer) :
    Closes server (ids.foldl f server) := by
  induction ids generalizing server with
  | nil => exact refl server
  | cons id ids ih => exact (h server id).trans (ih _)

/-- A session is put in place that serves only if it did. -/
theorem putSession (h : SameSessions server server') (id : Nat) {session : Session}
    (hserving : session.serving = true → (server.session id).serving = true ∧
      session.finished = (server.session id).finished) : Closes server (server'.putSession id session) := by
  refine ⟨h.config, h.running, h.sessions, h.sessionsAccepted, fun other hother => ?_⟩
  by_cases heq : other = id
  · subst heq
    rw [putSession_session] at hother ⊢
    exact hserving hother
  · rw [putSession_session_of_ne _ heq, h.session] at hother ⊢
    exact ⟨hother, rfl⟩

theorem endSession (server : CoordinatorServer) (id : Nat) : Closes server (server.endSession id) := by
  unfold CoordinatorServer.endSession
  dsimp only
  split
  · exact putSession (foldl_endRegistration ..).2 id nofun
  · exact putSession (.refl server) id nofun

theorem joinSession (server : CoordinatorServer) (id : Nat) :
    Closes server (server.joinSession id) := by
  unfold CoordinatorServer.joinSession
  split
  · exact refl server
  · exact endSession server id

theorem shutdownSession (server : CoordinatorServer) (id : Nat) :
    Closes server (server.shutdownSession id) := by
  unfold CoordinatorServer.shutdownSession
  dsimp only
  split
  · exact putSession (foldl_fence ..).2 id fun h => ⟨h, rfl⟩
  · exact refl server

end Closes

/-! ## The engine of a coordinator -/

section Engine

variable (server : CoordinatorServer)

theorem endSession_operates (id : Nat) : server.engine.Operates (server.endSession id).engine := by
  rw [endSession_engine]
  split
  · exact .endIncarnations ..
  · exact .refl

theorem joinSession_operates (id : Nat) : server.engine.Operates (server.joinSession id).engine := by
  unfold joinSession
  split
  · exact .refl
  · exact endSession_operates server id

theorem shutdownSession_operates (id : Nat) :
    server.engine.Operates (server.shutdownSession id).engine := by
  rw [shutdownSession_engine]
  split
  · exact .endIncarnations ..
  · exact .refl

theorem foldl_operates {f : CoordinatorServer → Nat → CoordinatorServer}
    (hf : ∀ (server : CoordinatorServer) (id : Nat), server.engine.Operates (f server id).engine)
    (ids : List Nat) :
    server.engine.Operates (ids.foldl f server).engine := by
  induction ids generalizing server with
  | nil => exact .refl
  | cons id ids ih => exact (hf server id).trans (ih (f server id))

/-- Whatever a coordinator does, its engine is operated. -/
theorem apply_operates {act : Act} (h : ∀ op, act = .op op → op.isLoad = false) :
    server.engine.Operates (server.apply act).engine := by
  cases act with
  | start => exact .refl
  | accept =>
    show server.engine.Operates server.accept.engine
    unfold accept
    dsimp only
    split <;> exact .refl
  | frame id frame sent =>
    have hhandled := receiveFrame_handled server id frame sent
    show server.engine.Operates (server.receiveFrame id frame sent).engine
    cases hop : server.operationAt id frame with
    | none => rw [(hhandled.idle hop).1]
    | some op =>
      obtain ⟨_, -, hengine, -⟩ := hhandled.performs op hop
      rw [hengine]
      exact .single (isLoad_of_isRequest (isRequest_of_operationAt hop))
  | endSession id => exact endSession_operates server id
  | stop =>
    show server.engine.Operates server.stop.engine
    unfold stop
    split
    · exact .refl
    · exact (foldl_operates server joinSession_operates _).trans
        (foldl_operates _ shutdownSession_operates _)
  | op op => exact .single (h op rfl)

theorem apply_reachable {server : CoordinatorServer} (h : server.engine.Reachable) (act : Act) :
    (server.apply act).engine.Reachable := by
  cases act with
  | op op => exact .step op h trivial
  | start | accept | frame | endSession | stop =>
    refine (apply_operates server fun op heq => ?_).reachable h
    cases heq

theorem apply_config (act : Act) :
    (server.apply act).config = server.config := by
  cases act with
  | start | op => rfl
  | accept =>
    show server.accept.config = _
    unfold accept
    dsimp only
    split <;> rfl
  | frame id frame sent => exact (receiveFrame_handled server id frame sent).config
  | endSession id => exact (Closes.endSession server id).config
  | stop =>
    show server.stop.config = _
    unfold stop
    split
    · rfl
    · exact ((Closes.foldl Closes.joinSession server.sessions server).trans
        (Closes.foldl Closes.shutdownSession server.sessions _)).config

end Engine

/-! ## Who has registered what -/

/-- A coordinator, and which session has registered which incarnation. -/
structure Audit where
  server : CoordinatorServer
  registered : List (Nat × PublisherId × WorkerBootId) := []

namespace Audit

/-- A step, of which an accepted registration is recorded. -/
def apply (audit : Audit) (act : Act) : Audit where
  server := audit.server.apply act
  registered := match act with
    | .frame id frame _ =>
      audit.registered ++ ((audit.server.enrolled id frame).map (id, ·)).toList
    | _ => audit.registered

/-- A coordinator that has just started: nothing is registered on its sessions. -/
structure Started (audit : Audit) : Prop where
  server : audit.server.Started
  registered : audit.registered = []

/-- The coordinators that runs reach, with the record of the run. -/
abbrev Reachable : Audit → Prop := Runs.Run Started apply fun audit act => audit.server.Enabled act

/-- The registrations of a session that has not ended are what it has registered. -/
structure Tracked (audit : Audit) : Prop where
  valid : ∀ id r, (id, r) ∈ audit.registered → r.1.valid = true
  accepted : ∀ id r, (id, r) ∈ audit.registered → id < audit.server.sessionsAccepted
  known : ∀ id ∈ audit.server.sessions, id < audit.server.sessionsAccepted
  serving : ∀ id, (audit.server.session id).serving = true →
    (audit.server.session id).finished = false
  registrations : ∀ id ∈ audit.server.sessions, (audit.server.session id).finished = false →
    ∀ r, r ∈ (audit.server.session id).registrations ↔ (id, r) ∈ audit.registered

theorem enrolledBy_valid {engine : Impl} {op : Op} {r : PublisherId × WorkerBootId}
    (h : enrolledBy engine op = some r) : r.1.valid = true := by
  cases op with
  | registerPublisher request =>
    rw [enrolledBy] at h
    split at h
    · cases h
    rename_i herror
    cases h
    cases henrols : engine.enrols request.registration with
    | false => exact absurd (registerPublisher_of_not_enrols engine henrols).2 herror
    | true =>
      unfold Impl.enrols at henrols
      simp only [Bool.and_eq_true] at henrols
      exact henrols.1.1.1.1.1
  | _ => cases h

namespace Tracked

variable {audit : Audit}

/-- The sessions are the same, and so are their registrations. -/
theorem same (h : audit.Tracked) {server : CoordinatorServer}
    (hsame : SameSessions audit.server server) : Tracked { audit with server } := by
  refine ⟨h.valid, ?_, ?_, ?_, ?_⟩ <;> dsimp only
  · rw [hsame.sessionsAccepted]
    exact h.accepted
  · rw [hsame.sessions, hsame.sessionsAccepted]
    exact h.known
  · rw [hsame.session]
    exact h.serving
  · rw [hsame.sessions, hsame.session]
    exact h.registrations

/-- A session that is not served has the registrations that it had, or has ended. -/
theorem putSession (h : audit.Tracked) {id : Nat} {session : Session}
    (hserving : session.serving = false) (hkeeps : session.finished = false →
      (audit.server.session id).finished = false ∧
      session.registrations = (audit.server.session id).registrations) :
    Tracked { audit with server := audit.server.putSession id session } := by
  refine ⟨h.valid, h.accepted, h.known, fun other hother => ?_, fun other hmem hopen r => ?_⟩ <;>
    dsimp only at * <;> rcases eq_or_ne other id with rfl | hne
  · rw [putSession_session, hserving] at hother
    cases hother
  · rw [putSession_session_of_ne _ hne] at hother ⊢
    exact h.serving other hother
  · rw [putSession_session] at hopen ⊢
    obtain ⟨hopen, heq⟩ := hkeeps hopen
    rw [heq]
    exact h.registrations other hmem hopen r
  · rw [putSession_session_of_ne _ hne] at hopen ⊢
    exact h.registrations other hmem hopen r

theorem accept (h : audit.Tracked) : (audit.apply .accept).Tracked := by
  have hlive {id : Nat} (hid : id ∈ audit.server.sessions.filter fun id =>
      !(audit.server.session id).finished) : id ∈ audit.server.sessions := List.mem_of_mem_filter hid
  unfold Audit.apply CoordinatorServer.apply CoordinatorServer.accept
  dsimp only
  split
  · refine ⟨h.valid, fun id r hr => (h.accepted id r hr).trans (Nat.lt_succ_self _), fun id hid => ?_,
      fun id hserving => ?_, fun id hid hfinished r => ?_⟩
    · rcases List.mem_append.mp hid with hid | hid
      · exact (h.known id (hlive hid)).trans (Nat.lt_succ_self _)
      · rw [List.mem_singleton.mp hid]
        exact Nat.lt_succ_self _
    · by_cases hnew : id = audit.server.sessionsAccepted
      · subst hnew
        exact congrArg (·.finished) (putSession_session audit.server audit.server.sessionsAccepted {})
      · have hold := putSession_session_of_ne audit.server hnew {}
        refine (congrArg (·.finished) hold).trans (h.serving id ?_)
        exact (congrArg (·.serving) hold).symm.trans hserving
    · rcases List.mem_append.mp hid with hid | hid
      · have hold := putSession_session_of_ne audit.server (h.known id (hlive hid)).ne {}
        have hregistrations := h.registrations id (hlive hid)
          ((congrArg (·.finished) hold).symm.trans hfinished) r
        exact (iff_of_eq (congrArg (r ∈ ·.registrations) hold)).trans hregistrations
      · rw [List.mem_singleton.mp hid]
        have hnew := putSession_session audit.server audit.server.sessionsAccepted {}
        refine (iff_of_eq (congrArg (r ∈ ·.registrations) hnew)).trans (iff_of_false nofun fun hr => ?_)
        exact absurd (h.accepted _ r hr) (Nat.lt_irrefl _)
  · exact ⟨h.valid, h.accepted, fun id hid => h.known id (hlive hid), h.serving,
      fun id hid => h.registrations id (hlive hid)⟩

theorem frame (h : audit.Tracked) {id : Nat} (hid : audit.server.Serving id) (frame : Frame)
    (sent : Bool) : (audit.apply (.frame id frame sent)).Tracked := by
  have hhandled := receiveFrame_handled audit.server id frame sent
  have hopen := h.serving id hid.2
  -- The audit notes what the frame enrols, for the session that sent it.
  have hmem {other : Nat} {r : PublisherId × WorkerBootId} :
      (other, r) ∈ (audit.apply (.frame id frame sent)).registered ↔
        (other, r) ∈ audit.registered ∨ other = id ∧ audit.server.enrolled id frame = some r := by
    show (other, r) ∈ audit.registered ++ _ ↔ _
    rw [List.mem_append]
    refine or_congr_right ?_
    cases audit.server.enrolled id frame with
    | none => simp
    | some r' => simp [eq_comm]
  have hvalid {r : PublisherId × WorkerBootId} (hr : audit.server.enrolled id frame = some r) :
      r.1.valid = true := by
    obtain ⟨op, -, hop⟩ := Option.bind_eq_some_iff.mp hr
    exact enrolledBy_valid hop
  refine ⟨fun other r hr => ?_, fun other r hr => ?_, fun other hother => ?_,
    fun other hserving => ?_, fun other hother hfinished r => ?_⟩
  · exact (hmem.mp hr).elim (h.valid other r) fun hr => hvalid hr.2
  · refine lt_of_lt_of_eq ?_ hhandled.sessionsAccepted.symm
    rcases hmem.mp hr with hr | ⟨rfl, -⟩
    · exact h.accepted other r hr
    · exact h.known other hid.1
  · exact lt_of_lt_of_eq (h.known other (hhandled.sessions ▸ hother)) hhandled.sessionsAccepted.symm
  · by_cases heq : other = id
    · subst heq
      exact hhandled.finished.trans hopen
    · have hold := hhandled.others other heq
      exact (congrArg (·.finished) hold).trans
        (h.serving other ((congrArg (·.serving) hold).symm.trans hserving))
  · rw [hmem]
    by_cases heq : other = id
    · subst heq
      have hregistrations := h.registrations other hid.1 hopen
      show r ∈ ((audit.server.receiveFrame other frame sent).session other).registrations ↔ _
      rw [hhandled.registrations]
      cases hr : audit.server.enrolled other frame with
      | none => simp [hregistrations]
      | some r' =>
        obtain ⟨publisher, boot⟩ := r'
        dsimp only
        rw [mem_note, hregistrations]
        simp [eq_comm]
    · have hold := hhandled.others other heq
      have hregistrations := h.registrations other (hhandled.sessions ▸ hother)
        ((congrArg (·.finished) hold).symm.trans hfinished) r
      rw [show ((audit.apply (.frame id frame sent)).server.session other) = _ from hold,
        hregistrations]
      simp [heq]

theorem endSession (h : audit.Tracked) (id : Nat) : (audit.apply (.endSession id)).Tracked := by
  have hcloses := Closes.endSession audit.server id
  refine ⟨h.valid, fun other r hr => ?_, fun other hother => ?_, fun other hserving => ?_,
    fun other hother hfinished r => ?_⟩
  · exact lt_of_lt_of_eq (h.accepted other r hr) hcloses.sessionsAccepted.symm
  · exact lt_of_lt_of_eq (h.known other (hcloses.sessions ▸ hother)) hcloses.sessionsAccepted.symm
  · obtain ⟨hserved, hsame⟩ := hcloses.serving other hserving
    exact hsame.trans (h.serving other hserved)
  · have hne : other ≠ id := fun heq => by
      subst heq
      cases hfinished.symm.trans (endSession_finished ..)
    have hold := endSession_session_of_ne audit.server hne
    rw [show (audit.apply (.endSession id)).server.session other = _ from hold] at hfinished ⊢
    exact h.registrations other (hcloses.sessions ▸ hother) hfinished r

theorem stop (h : audit.Tracked) : (audit.apply .stop).Tracked := by
  unfold Audit.apply CoordinatorServer.apply CoordinatorServer.stop
  dsimp only
  split
  · exact h
  have hcloses := (Closes.foldl Closes.joinSession audit.server.sessions audit.server).trans
    (Closes.foldl Closes.shutdownSession audit.server.sessions _)
  refine ⟨h.valid, fun other r hr => ?_, nofun, fun other hserving => ?_, nofun⟩
  · exact lt_of_lt_of_eq (h.accepted other r hr) hcloses.sessionsAccepted.symm
  · obtain ⟨hserved, hsame⟩ := hcloses.serving other hserving
    exact hsame.trans (h.serving other hserved)

theorem apply (h : audit.Tracked) {act : Act} (henabled : audit.server.Enabled act) :
    (audit.apply act).Tracked := by
  cases act with
  | start | op => exact ⟨h.valid, h.accepted, h.known, h.serving, h.registrations⟩
  | accept => exact h.accept
  | frame id frame sent => exact h.frame henabled frame sent
  | endSession id => exact h.endSession id
  | stop => exact h.stop

end Tracked

theorem Reachable.engine {audit : Audit} (h : audit.Reachable) : audit.server.engine.Reachable :=
  h.invariant (P := fun audit => audit.server.engine.Reachable) (fun _ h => h.server.engine)
    fun _ act h _ => apply_reachable h act

theorem Reachable.tracked {audit : Audit} (h : audit.Reachable) : audit.Tracked := by
  refine Runs.Run.invariant (fun audit hstart => ?_) (fun _ _ h henabled => h.apply henabled) h
  have hnone {x : Nat × PublisherId × WorkerBootId} (hx : x ∈ audit.registered) : False := by
    rw [hstart.registered] at hx
    cases hx
  refine ⟨fun _ _ hr => (hnone hr).elim, fun _ _ hr => (hnone hr).elim, fun id hid => ?_,
    fun id _ => ?_, fun id hid => ?_⟩
  · rw [hstart.server.sessions] at hid
    cases hid
  · rw [hstart.server.session]
  · rw [hstart.server.sessions] at hid
    cases hid

end Audit

end CoordinatorServer

end LinkState
