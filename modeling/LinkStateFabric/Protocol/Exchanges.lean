import LinkStateFabric.Engine.Details
import LinkStateFabric.Protocol.Server

/-!
# What the handlers of the coordinator do

* `SameSessions`: the parts of the coordinator that no handler changes.
* `performed`: the operation that a request makes on the engine, if any. `answer_performs` says what
  it leaves and what is replied, `answer_idle` what the other requests leave.
* `operationAt`: the operation that a frame makes. `receiveFrame_handled` says what it leaves.
-/

namespace LinkState

namespace CoordinatorServer

/-! ## Fields -/

section Fields

variable (server : CoordinatorServer) (outcome : Outcome)

@[simp] theorem checkpoint_engine : (server.checkpoint outcome).engine = server.engine := by
  unfold checkpoint
  split
  · rfl
  split <;> rfl

@[simp] theorem countFence_engine : (server.countFence outcome).engine = server.engine := by
  unfold countFence
  split <;> rfl

@[simp] theorem countFence_disk : (server.countFence outcome).disk = server.disk := by
  unfold countFence
  split <;> rfl

@[simp] theorem putSession_engine (id : Nat) (session : Session) :
    (server.putSession id session).engine = server.engine := rfl

@[simp] theorem putSession_disk (id : Nat) (session : Session) :
    (server.putSession id session).disk = server.disk := rfl

@[simp] theorem putSession_session (id : Nat) (session : Session) :
    (server.putSession id session).session id = session := Function.update_self ..

theorem putSession_session_of_ne {id other : Nat} (h : other ≠ id) (session : Session) :
    (server.putSession id session).session other = server.session other :=
  Function.update_of_ne h ..

theorem putSession_putSession (server : CoordinatorServer) (id : Nat) (session session' : Session) :
    (server.putSession id session).putSession id session' = server.putSession id session' := by
  unfold putSession
  dsimp only
  rw [Function.update_idem]

theorem checkpoint_disk : (server.checkpoint outcome).disk =
    if server.config.journalPath.isEmpty || (!outcome.isCommitted && outcome.code ≠ .evidenceConflict)
    then server.disk else server.disk.save server.engine server.config.persistence := by
  unfold checkpoint
  split
  · rename_i h
    rw [h]
    rfl
  rename_i h
  rw [Bool.eq_false_iff.mpr h, Bool.false_or]
  split <;> rfl

end Fields

/-- The configuration, the sessions and whether the coordinator runs are the same. -/
structure SameSessions (server server' : CoordinatorServer) : Prop where
  config : server'.config = server.config
  running : server'.running = server.running
  session : server'.session = server.session
  sessions : server'.sessions = server.sessions
  sessionsAccepted : server'.sessionsAccepted = server.sessionsAccepted

namespace SameSessions

variable {server server' server'' : CoordinatorServer}

theorem refl (server : CoordinatorServer) : SameSessions server server := ⟨rfl, rfl, rfl, rfl, rfl⟩

theorem trans (h : SameSessions server server') (h' : SameSessions server' server'') :
    SameSessions server server'' :=
  ⟨h'.config.trans h.config, h'.running.trans h.running, h'.session.trans h.session,
    h'.sessions.trans h.sessions, h'.sessionsAccepted.trans h.sessionsAccepted⟩

theorem checkpoint (server : CoordinatorServer) (outcome : Outcome) :
    SameSessions server (server.checkpoint outcome) := by
  unfold CoordinatorServer.checkpoint
  split
  · exact refl server
  split
  · exact refl server
  · exact ⟨rfl, rfl, rfl, rfl, rfl⟩

theorem countFence (server : CoordinatorServer) (outcome : Outcome) :
    SameSessions server (server.countFence outcome) := by
  unfold CoordinatorServer.countFence
  split
  · exact refl server
  · exact ⟨rfl, rfl, rfl, rfl, rfl⟩

theorem withEngine (server : CoordinatorServer) (engine : Impl) :
    SameSessions server { server with engine } := ⟨rfl, rfl, rfl, rfl, rfl⟩

end SameSessions

/-! ## Requests -/

/-- The operation that a handler makes of a request. -/
def operationOf (request : Message) : Option Op :=
  match request.type with
  | .registerPublisher => some (.registerPublisher (registrationOf request.registration))
  | .publishEvidence => some (.publishEvidence (publicationOf request.publish))
  | .withdrawEvidence => some (.withdrawEvidence (withdrawalOf request.withdraw))
  | .invalidatePublisher => some (.invalidatePublisher (invalidationOf request.invalidate))
  | _ => none

/-- The session may make the request. -/
def Session.permits (session : Session) (request : Message) : Bool :=
  request.type ≠ .invalidatePublisher || session.mayInvalidate request.invalidate.publisher

/-- The operation that a request makes on the engine. -/
def Session.performed (session : Session) (request : Message) : Option Op :=
  if session.permits request then operationOf request else none

/-- The session registers an incarnation with the request. -/
def Session.noted (session : Session) (request : Message) (outcome : Option Outcome) : Session :=
  match request.type with
  | .hello => { session with agent := request.hello.agent }
  | .registerPublisher =>
    if outcome.all (·.isError) then session
    else session.note request.registration.publisher request.registration.workerBoot
  | _ => session

variable (server : CoordinatorServer) (session : Session) (request : Message)

theorem answer_same : SameSessions server (server.answer session request).server := by
  unfold answer
  split
  case h_1 => exact ⟨rfl, rfl, rfl, rfl, rfl⟩
  case h_6 | h_7 => exact .refl server
  case h_2 | h_3 | h_4 => exact (SameSessions.withEngine server _).trans (.checkpoint _ _)
  case h_5 =>
    unfold answerInvalidate
    split
    · exact .refl server
    · exact ((SameSessions.withEngine server _).trans (.checkpoint _ _)).trans (.countFence _ _)
  all_goals exact ⟨rfl, rfl, rfl, rfl, rfl⟩

/-- The result reports the outcome. -/
structure Reports (result : ResultMessage) (outcome : Outcome) : Prop where
  code : result.code = outcome.code
  detail : result.detail = outcome.detail
  stateGeneration : result.stateGeneration = outcome.stateGeneration
  evidenceGeneration : result.evidenceGeneration = outcome.evidenceGeneration
  globalGeneration : result.globalGeneration = outcome.globalGeneration

/-- What a request leaves that performs an operation. -/
structure Performed (op : Op) (outcome : Outcome) (exchange : Exchange) : Prop where
  outcome_eq : server.engine.outcome op = some outcome
  engine : exchange.server.engine = server.engine.apply op
  disk : exchange.server.disk =
    (checkpoint { server with engine := server.engine.apply op } outcome).disk
  session : exchange.session = session.noted request outcome
  reply : Reports exchange.reply.result outcome

theorem reports_fillResult {result : LinkMutationResult} (h : result.Consistent) :
    Reports (fillResult result.outcome result.view) result.outcome := by
  cases hview : result.view with
  | none => exact ⟨rfl, rfl, rfl, rfl, rfl⟩
  | some view =>
    obtain ⟨hstate, hevidence, hglobal⟩ := h view hview
    exact ⟨rfl, rfl, hstate.symm, hevidence.symm, hglobal.symm⟩

variable {op : Op}

theorem answer_performs (h : session.performed request = some op) :
    ∃ outcome, Performed server session request op outcome (server.answer session request) := by
  unfold Session.performed at h
  split at h
  case isFalse => cases h
  rename_i hpermits
  unfold operationOf at h
  -- One case per request that carries out an operation.
  split at h <;> cases h <;> rename_i htype
  case h_1 =>
    have heq : server.answer session request =
        server.answerRegister session request.registration := by unfold answer; rw [htype]
    have hnoted (outcome : Outcome) : session.noted request outcome = if outcome.isError then session
        else session.note request.registration.publisher request.registration.workerBoot := by
      unfold Session.noted; rw [htype]; rfl
    rw [heq]
    exact ⟨_, rfl, checkpoint_engine .., rfl, (hnoted _).symm, ⟨rfl, rfl, rfl, rfl, rfl⟩⟩
  case h_2 =>
    have heq : server.answer session request = server.answerPublish session request.publish := by
      unfold answer; rw [htype]
    have hnoted (outcome : Outcome) : session.noted request outcome = session := by
      unfold Session.noted; rw [htype]
    rw [heq]
    exact ⟨_, rfl, checkpoint_engine .., rfl, (hnoted _).symm,
      reports_fillResult (publishEvidence_consistent _)⟩
  case h_3 =>
    have heq : server.answer session request = server.answerWithdraw session request.withdraw := by
      unfold answer; rw [htype]
    have hnoted (outcome : Outcome) : session.noted request outcome = session := by
      unfold Session.noted; rw [htype]
    rw [heq]
    exact ⟨_, rfl, checkpoint_engine .., rfl, (hnoted _).symm,
      reports_fillResult (withdrawEvidence_consistent _)⟩
  case h_4 =>
    have hmay : session.mayInvalidate request.invalidate.publisher = true := by
      simpa [Session.permits, htype] using hpermits
    have heq : server.answer session request = server.answerInvalidate session request.invalidate := by
      unfold answer; rw [htype]
    have hnoted (outcome : Outcome) : session.noted request outcome = session := by
      unfold Session.noted; rw [htype]
    rw [heq, answerInvalidate, hmay]
    exact ⟨_, rfl, (countFence_engine ..).trans (checkpoint_engine ..), countFence_disk ..,
      (hnoted _).symm, ⟨rfl, rfl, rfl, rfl, rfl⟩⟩

/-- A request that performs none leaves the engine and the journal. -/
theorem answer_idle (h : session.performed request = none) :
    (server.answer session request).server.engine = server.engine ∧
    (server.answer session request).server.disk = server.disk ∧
    (server.answer session request).session = session.noted request none := by
  unfold answer
  split <;> rename_i htype
  case h_2 | h_3 | h_4 =>
    simp [Session.performed, operationOf, Session.permits, htype] at h
  case h_5 =>
    have hmay : session.mayInvalidate request.invalidate.publisher = false := by
      simpa [Session.performed, operationOf, Session.permits, htype] using h
    unfold answerInvalidate Session.noted
    rw [hmay, htype]
    exact ⟨rfl, rfl, rfl⟩
  all_goals
    unfold Session.noted
    rw [htype]
    exact ⟨rfl, rfl, rfl⟩

/-! ## Frames -/

/-- The request of a frame. -/
def requestOf (frame : Frame) : Option Message := (decodeMessage frame.type frame.payload).toOption

/-- The operation that a frame of a session makes on the engine. -/
def operationAt (id : Nat) (frame : Frame) : Option Op :=
  (requestOf frame).bind (server.session id).performed

/-- The incarnation that an operation registers, if the engine accepts it. -/
def enrolledBy (engine : Impl) : Op → Option (PublisherId × WorkerBootId)
  | .registerPublisher request =>
    if (engine.registerPublisher request).2.outcome.isError then none
    else some (request.registration.publisher, request.registration.workerBoot)
  | _ => none

/-- The incarnation that a frame of a session registers. -/
def enrolled (id : Nat) (frame : Frame) : Option (PublisherId × WorkerBootId) :=
  (server.operationAt id frame).bind (enrolledBy server.engine)

theorem noted_none : (session.noted request none).registrations = session.registrations := by
  unfold Session.noted
  split <;> rfl

theorem noted_performed {op : Op} {outcome : Outcome} (h : session.performed request = some op)
    (houtcome : server.engine.outcome op = some outcome) :
    (session.noted request outcome).registrations = match enrolledBy server.engine op with
      | none => session.registrations
      | some (publisher, boot) => (session.note publisher boot).registrations := by
  unfold Session.performed at h
  split at h
  case isFalse => cases h
  unfold operationOf at h
  unfold Session.noted
  split at h <;> cases h <;> rename_i htype <;> rw [htype]
  case h_1 =>
    cases houtcome
    unfold enrolledBy
    dsimp only
    rw [Option.all_some]
    split <;> rfl
  all_goals rfl

/-- What a frame leaves. -/
structure Handled (id : Nat) (frame : Frame) (server' : CoordinatorServer) : Prop where
  config : server'.config = server.config
  running : server'.running = server.running
  sessions : server'.sessions = server.sessions
  sessionsAccepted : server'.sessionsAccepted = server.sessionsAccepted
  others : ∀ other, other ≠ id → server'.session other = server.session other
  finished : (server'.session id).finished = (server.session id).finished
  registrations : (server'.session id).registrations = match server.enrolled id frame with
    | none => (server.session id).registrations
    | some (publisher, boot) => ((server.session id).note publisher boot).registrations
  idle : server.operationAt id frame = none →
    server'.engine = server.engine ∧ server'.disk = server.disk
  performs : ∀ op, server.operationAt id frame = some op →
    ∃ outcome, server.engine.outcome op = some outcome ∧ server'.engine = server.engine.apply op ∧
      server'.disk = (checkpoint { server with engine := server.engine.apply op } outcome).disk

theorem receiveFrame_eq (id : Nat) (frame : Frame) (sent : Bool) :
    ∃ serving, server.receiveFrame id frame sent =
      match handleFrame { server with framesReceived := server.framesReceived + 1 }
          (server.session id) frame with
      | (server, session, _, _) => server.putSession id { session with serving } := by
  have hput (server : CoordinatorServer) (session : Session) (serving : Bool) :
      (server.putSession id session).putSession id
          { (server.putSession id session).session id with serving } =
        server.putSession id { session with serving } := by
    rw [putSession_session, putSession_putSession]
  unfold receiveFrame turn handlers
  dsimp only
  obtain ⟨server', session, response, keepOpen⟩ :=
    handleFrame { server with framesReceived := server.framesReceived + 1 } (server.session id) frame
  dsimp only
  by_cases hresponse : response = []
  · rw [if_pos hresponse]
    cases keepOpen with
    | false => exact ⟨false, hput ..⟩
    | true => exact ⟨session.serving, rfl⟩
  · rw [if_neg hresponse]
    cases hopen : sent && keepOpen with
    | false => exact ⟨false, hput ..⟩
    | true => exact ⟨session.serving, rfl⟩

/-- What a frame leaves whose request is answered. The coordinator has counted the frame. -/
theorem answer_handled {counted : CoordinatorServer} (hcounted : SameSessions server counted)
    (hengine : counted.engine = server.engine) (hdisk : counted.disk = server.disk) {id : Nat}
    {frame : Frame} {request : Message}
    (hperformed : server.operationAt id frame = (server.session id).performed request)
    (serving : Bool) :
    server.Handled id frame
      ((counted.answer (server.session id) request).server.putSession id
        { (counted.answer (server.session id) request).session with serving }) := by
  have hsame := hcounted.trans (answer_same counted (server.session id) request)
  have hothers {session : Session} (other : Nat) (hother : other ≠ id) :
      ((counted.answer (server.session id) request).server.putSession id session).session other =
        server.session other := by
    rw [putSession_session_of_ne _ hother, hsame.session]
  have hfinished (outcome : Option Outcome) :
      ((server.session id).noted request outcome).finished = (server.session id).finished := by
    unfold Session.noted Session.note
    split
    · rfl
    · split
      · rfl
      · split <;> rfl
    · rfl
  -- The session changes by what it has enrolled, which is nothing where nothing was performed.
  cases hop : (server.session id).performed request with
  | none =>
    obtain ⟨hengine', hdisk', hsession⟩ := answer_idle counted (server.session id) request hop
    rw [hop] at hperformed
    refine ⟨hsame.config, hsame.running, hsame.sessions, hsame.sessionsAccepted, hothers, ?_, ?_,
      fun _ => ⟨hengine'.trans hengine, hdisk'.trans hdisk⟩, fun op h => ?_⟩
    · rw [putSession_session, hsession]
      exact hfinished none
    · rw [putSession_session, hsession, enrolled, hperformed]
      exact noted_none ..
    · rw [hperformed] at h
      cases h
  | some op =>
    obtain ⟨outcome, h⟩ := answer_performs counted (server.session id) request hop
    rw [hop] at hperformed
    refine ⟨hsame.config, hsame.running, hsame.sessions, hsame.sessionsAccepted, hothers, ?_, ?_,
      fun hnone => ?_, fun op' hop' => ⟨outcome, ?_⟩⟩
    · rw [putSession_session, h.session]
      exact hfinished _
    · rw [putSession_session, h.session, enrolled, hperformed]
      exact noted_performed server _ _ hop (hengine ▸ h.outcome_eq)
    · rw [hperformed] at hnone
      cases hnone
    · cases hperformed.symm.trans hop'
      refine ⟨hengine ▸ h.outcome_eq, hengine ▸ h.engine, ?_⟩
      rw [putSession_disk, h.disk, checkpoint_disk, checkpoint_disk]
      dsimp only
      rw [hcounted.config, hengine, hdisk]

theorem receiveFrame_handled (id : Nat) (frame : Frame) (sent : Bool) :
    server.Handled id frame (server.receiveFrame id frame sent) := by
  obtain ⟨serving, heq⟩ := receiveFrame_eq server id frame sent
  rw [heq]
  unfold handleFrame
  dsimp only
  cases hdecode : decodeMessage frame.type frame.payload with
  | error error =>
    have hnone : server.operationAt id frame = none := by
      unfold operationAt requestOf
      rw [hdecode]
      rfl
    refine ⟨rfl, rfl, rfl, rfl, fun other h => putSession_session_of_ne _ h _, ?_, ?_,
      fun _ => ⟨rfl, rfl⟩, fun op h => ?_⟩
    · rw [putSession_session]
    · rw [putSession_session, enrolled, hnone]
      rfl
    · rw [hnone] at h
      cases h
  | ok request =>
    have hperformed : server.operationAt id frame = (server.session id).performed request := by
      unfold operationAt requestOf
      rw [hdecode]
      rfl
    exact @answer_handled server
      { server with
        framesReceived := server.framesReceived + 1
        requestsHandled := server.requestsHandled + 1 }
      ⟨rfl, rfl, rfl, rfl, rfl⟩ rfl rfl id frame request hperformed serving

end CoordinatorServer

end LinkState
