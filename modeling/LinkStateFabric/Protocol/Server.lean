import LinkStateFabric.Engine.Run
import LinkStateFabric.Protocol.Serve

/-!
# The coordinator (`server.hpp`, `server.cpp`)

* `CoordinatorServer`: an engine, the journal file, and the sessions of the workers.
* `CoordinatorServer.answer`: what a request does, and the reply. `handleFrame` puts the codec around
  it, and `handlers` gives it to the receive loop.
* `endSession` and `stop`, which fence the incarnations that sessions have registered.
* `CoordinatorServer.Act`: a step of a session, of the coordinator, or of the program that owns the
  engine. A request is one step with its checkpoint, and what a worker sends is one frame after the
  other. Here the end of a session is one step as well, and so is `stop`; `Protocol/Departures` and
  `Protocol/Shutdown` take these apart, `Results/LostUpdates` the checkpoints.

Sockets, threads and the observer of sessions have no counterpart.
-/

namespace LinkState

/-! ## Configuration -/

structure CoordinatorConfig where
  bindAddress : Text := lit "127.0.0.1"
  maxSessions : Nat := limits.maxSessions
  coordinatorName : Text := lit "link-state-coordinator"
  fenceOnDisconnect : Bool := true
  fenceOnShutdown : Bool := false
  journalPath : Text := []
  journalHistory : Bool := false

namespace CoordinatorConfig

/-- How the journal is written. -/
def persistence (config : CoordinatorConfig) : PersistenceConfig where
  path := config.journalPath
  includeHistory := config.journalHistory

/-- `CoordinatorConfig::validate`: empty when valid, otherwise the reason. -/
def validate (config : CoordinatorConfig) : Text :=
  if config.bindAddress.isEmpty then lit "bind address is required"
  else if config.maxSessions = 0 ∨ limits.maxSessions < config.maxSessions then
    lit "max_sessions must be between 1 and limits::max_sessions"
  else if config.coordinatorName.isEmpty then lit "coordinator name is required"
  else if !config.journalPath.isEmpty then config.persistence.validate
  else []

/-- A configuration that passes its check. -/
def Valid (config : CoordinatorConfig) : Prop := config.validate = []

instance (config : CoordinatorConfig) : Decidable config.Valid :=
  inferInstanceAs (Decidable (config.validate = []))

end CoordinatorConfig

/-! ## The state of the coordinator -/

/-- The file at the path of the journal, and how the writes to come go. After those every write
succeeds. -/
structure Disk where
  journal : Option Bytes := none
  writes : List WriteSteps := []

/-- One save of the engine. -/
def Disk.save (disk : Disk) (impl : Impl) (config : PersistenceConfig) : Disk where
  journal := (impl.save config (disk.writes.headD {}) disk.journal).2
  writes := disk.writes.tail

/-- `CoordinatorServer::Session`. It is `serving` while its receive loop runs, and `finished` when
its thread is done. -/
structure CoordinatorServer.Session where
  agent : Text := []
  registrations : List (PublisherId × WorkerBootId) := []
  serving : Bool := true
  finished : Bool := false
  deriving DecidableEq

structure CoordinatorServer where
  config : CoordinatorConfig
  engine : Impl
  disk : Disk := {}
  running : Bool := true
  /-- The sessions by their numbers, which are given in the order of their connections. -/
  session : Nat → CoordinatorServer.Session := fun _ => {}
  /-- `sessions_`: those that the coordinator has not yet removed. -/
  sessions : List Nat := []
  sessionsAccepted : Nat := 0
  framesReceived : Nat := 0
  framesRejected : Nat := 0
  requestsHandled : Nat := 0
  fencesApplied : Nat := 0
  /-- What `link_count` gives in the hellos to come. A hello takes the lock of the engine for it a
  second time, so that it need not fit the epoch. -/
  linkCounts : List U64 := []

namespace CoordinatorServer

/-- A session takes new contents. -/
def putSession (server : CoordinatorServer) (id : Nat) (session : Session) : CoordinatorServer :=
  { server with session := Function.update server.session id session }

/-- `checkpoint`. -/
def checkpoint (server : CoordinatorServer) (outcome : Outcome) : CoordinatorServer :=
  if server.config.journalPath.isEmpty then server
  else if !outcome.isCommitted && outcome.code ≠ .evidenceConflict then server
  else { server with disk := server.disk.save server.engine server.config.persistence }

/-! ## Requests and replies -/

/-- The registration that the handler passes on. -/
def registrationOf (registration : RegisterMessage) : RegisterPublisherRequest where
  registration :=
    { publisher := registration.publisher
      workerBoot := registration.workerBoot
      source := registration.source
      scope := { fabric := registration.fabric, links := registration.links }
      epoch := registration.epoch }

/-- The publication that the handler passes on. -/
def publicationOf (publish : PublishMessage) : PublishEvidenceRequest where
  publication := publish.publication
  observation := publish.observation
  expectedEvidenceGeneration :=
    if publish.hasExpectedEvidenceGeneration then some publish.expectedEvidenceGeneration else none
  expectedStateGeneration :=
    if publish.hasExpectedStateGeneration then some publish.expectedStateGeneration else none

/-- The withdrawal that the handler passes on. -/
def withdrawalOf (withdraw : WithdrawMessage) : WithdrawEvidenceRequest where
  key := withdraw.key
  observation := withdraw.observation
  publisher := withdraw.publisher
  workerBoot := withdraw.workerBoot
  epoch := withdraw.epoch
  sourceGeneration := withdraw.sourceGeneration
  sequence := withdraw.sequence
  reason := withdraw.reason

/-- The invalidation that the handler passes on: it always names a boot. -/
def invalidationOf (invalidate : InvalidateMessage) : InvalidatePublisherRequest where
  publisher := invalidate.publisher
  workerBoot := some invalidate.workerBoot
  epoch := invalidate.epoch
  reason := invalidate.reason

/-- `fill_result`. -/
def fillResult (outcome : Outcome) (view : Option LinkStateView) : ResultMessage :=
  let result : ResultMessage :=
    { code := outcome.code
      detail := outcome.detail
      stateGeneration := outcome.stateGeneration
      evidenceGeneration := outcome.evidenceGeneration
      globalGeneration := outcome.globalGeneration }
  match view with
  | none => result
  | some view =>
    { result with
      found := true
      state := view.record.state
      stateGeneration := view.record.stateGeneration
      evidenceGeneration := view.record.evidenceGeneration
      globalGeneration := view.record.globalGeneration
      topologyGeneration := view.record.binding.topologyGeneration
      endpointGeneration := view.record.binding.endpoints.localGeneration }

/-- A session notes a registration, once. -/
def Session.note (session : Session) (publisher : PublisherId) (boot : WorkerBootId) : Session :=
  if (publisher, boot) ∈ session.registrations then session
  else { session with registrations := session.registrations ++ [(publisher, boot)] }

/-- What a request leaves: the coordinator, the session, the reply, and whether the session stays
open. -/
structure Exchange where
  server : CoordinatorServer
  session : Session
  reply : Message
  keepOpen : Bool := true

/-! ## The requests -/

def answerHello (server : CoordinatorServer) (session : Session) (hello : HelloMessage) :
    Exchange where
  server := { server with linkCounts := server.linkCounts.tail }
  session := { session with agent := hello.agent }
  reply :=
    { type := .helloAck
      helloAck :=
        { epoch := server.engine.epoch
          coordinator := server.config.coordinatorName
          -- Where nothing is said of the second read, it is made at once.
          linkCount := server.linkCounts.headD (Fin.ofNat _ server.engine.store.links.keys.card) } }

def answerRegister (server : CoordinatorServer) (session : Session)
    (registration : RegisterMessage) : Exchange :=
  let (engine, result) := server.engine.registerPublisher (registrationOf registration)
  { server := { server with engine }.checkpoint result.outcome
    session :=
      if result.outcome.isError then session
      else session.note registration.publisher registration.workerBoot
    reply := { type := .registerResult, result := fillResult result.outcome none } }

def answerPublish (server : CoordinatorServer) (session : Session) (publish : PublishMessage) :
    Exchange :=
  let (engine, result) := server.engine.publishEvidence (publicationOf publish)
  { server := { server with engine }.checkpoint result.outcome
    session
    reply := { type := .publishResult, result := fillResult result.outcome result.view } }

def answerWithdraw (server : CoordinatorServer) (session : Session) (withdraw : WithdrawMessage) :
    Exchange :=
  let (engine, result) := server.engine.withdrawEvidence (withdrawalOf withdraw)
  { server := { server with engine }.checkpoint result.outcome
    session
    reply := { type := .withdrawResult, result := fillResult result.outcome result.view } }

/-- A session may invalidate the publishers that it has registered, under whatever boot. -/
def Session.mayInvalidate (session : Session) (publisher : PublisherId) : Bool :=
  session.registrations.any (·.1 = publisher)

/-- `++fences_applied_` where the outcome is no error. -/
def countFence (server : CoordinatorServer) (outcome : Outcome) : CoordinatorServer :=
  if outcome.isError then server else { server with fencesApplied := server.fencesApplied + 1 }

def answerInvalidate (server : CoordinatorServer) (session : Session)
    (invalidate : InvalidateMessage) : Exchange :=
  if !session.mayInvalidate invalidate.publisher then
    { server, session
      reply :=
        { type := .invalidateResult
          result :=
            { code := .unauthorizedScope
              detail :=
                lit "a session may only invalidate publisher incarnations it registered" } } }
  else
    let (engine, result) := server.engine.invalidatePublisher (invalidationOf invalidate)
    { server := ({ server with engine }.checkpoint result.outcome).countFence result.outcome
      session
      reply := { type := .invalidateResult, result := fillResult result.outcome none } }

def answerQuery (server : CoordinatorServer) (session : Session) (query : QueryMessage) :
    Exchange where
  server := server
  session := session
  reply :=
    { type := .queryResult
      result := match server.engine.linkState query.link with
        | some view => fillResult (.make .committed (lit "link state")) (some view)
        | none => { code := .unknownLink, detail := lit "link is not bound in this engine" } }

def answerShutdown (server : CoordinatorServer) (session : Session) : Exchange where
  server := server
  session := session
  reply :=
    { type := .shutdown
      result := { code := .committed, detail := lit "session shutdown acknowledged" } }
  keepOpen := false

/-- A message that is no request. -/
def answerOther (server : CoordinatorServer) (session : Session) : Exchange where
  server := { server with framesRejected := server.framesRejected + 1 }
  session := session
  reply :=
    { type := .error
      result :=
        { code := .malformedRequest
          detail := lit "a worker session may only send request messages" } }

/-- The switch of `handle_frame`. -/
def answer (server : CoordinatorServer) (session : Session) (request : Message) : Exchange :=
  match request.type with
  | .hello => server.answerHello session request.hello
  | .registerPublisher => server.answerRegister session request.registration
  | .publishEvidence => server.answerPublish session request.publish
  | .withdrawEvidence => server.answerWithdraw session request.withdraw
  | .invalidatePublisher => server.answerInvalidate session request.invalidate
  | .queryState => server.answerQuery session request.query
  | .shutdown => server.answerShutdown session
  | .helloAck | .registerResult | .publishResult | .withdrawResult | .invalidateResult
  | .queryResult | .error => server.answerOther session

/-- `handle_frame`: the coordinator and the session, the response, and whether the session stays
open. -/
def handleFrame (server : CoordinatorServer) (session : Session) (frame : Frame) :
    CoordinatorServer × Session × Bytes × Bool :=
  match decodeMessage frame.type frame.payload with
  | .error error =>
    let reply : Message := { type := .error, result := { code := .malformedRequest, detail := error } }
    ({ server with framesRejected := server.framesRejected + 1 }, session,
      encodeFrame .error frame.requestId (encodeMessage reply), false)
  | .ok request =>
    let exchange :=
      { server with requestsHandled := server.requestsHandled + 1 }.answer session request
    (exchange.server, exchange.session,
      encodeFrame exchange.reply.type frame.requestId (encodeMessage exchange.reply),
      exchange.keepOpen)

/-! ## The end of a session -/

/-- One invalidation of `end_session` and of `stop`, under the epoch that was read for it, with its
outcome. -/
def fenceAs (server : CoordinatorServer) (epoch : CoordinatorEpoch) (reason : Text)
    (registration : PublisherId × WorkerBootId) : CoordinatorServer × Outcome :=
  let (engine, result) := server.engine.invalidatePublisher
    { publisher := registration.1
      workerBoot := some registration.2
      epoch
      reason }
  ({ server with engine }.countFence result.outcome, result.outcome)

/-- The same, right after the epoch was read. -/
def fence (server : CoordinatorServer) (reason : Text) (registration : PublisherId × WorkerBootId) :
    CoordinatorServer × Outcome :=
  server.fenceAs server.engine.epoch reason registration

/-- The body of the loop of `end_session`, from the epoch on that it has read. -/
def endRegistrationAs (server : CoordinatorServer) (epoch : CoordinatorEpoch)
    (registration : PublisherId × WorkerBootId) : CoordinatorServer :=
  let (server, outcome) := server.fenceAs epoch (lit "worker session ended") registration
  server.checkpoint outcome

/-- The body of the loop of `end_session`. -/
def endRegistration (server : CoordinatorServer) (registration : PublisherId × WorkerBootId) :
    CoordinatorServer :=
  server.endRegistrationAs server.engine.epoch registration

/-- `end_session`, with nothing beside it. -/
def endSession (server : CoordinatorServer) (id : Nat) : CoordinatorServer :=
  let session := server.session id
  if server.config.fenceOnDisconnect then
    (session.registrations.foldl endRegistration server).putSession id
      { session with registrations := [], serving := false, finished := true }
  else server.putSession id { session with serving := false, finished := true }

/-- The session of a thread that is still there ends. -/
def joinSession (server : CoordinatorServer) (id : Nat) : CoordinatorServer :=
  if (server.session id).finished then server else server.endSession id

/-- The part of `stop` about the registrations of a session, which are fenced without a checkpoint. -/
def shutdownSession (server : CoordinatorServer) (id : Nat) : CoordinatorServer :=
  let session := server.session id
  if server.config.fenceOnShutdown then
    (session.registrations.foldl (fun server registration =>
      (server.fence (lit "coordinator shutdown") registration).1) server).putSession id
      { session with registrations := [] }
  else server

/-- `stop`. The threads of all sessions end before or while the first is joined; where their ends
fence anything, they leave nothing for `shutdownSession`. -/
def stop (server : CoordinatorServer) : CoordinatorServer :=
  if !server.running then server
  else
    let ended := server.sessions.foldl joinSession server
    let fenced := server.sessions.foldl shutdownSession ended
    { fenced with sessions := [], running := false }

/-! ## Steps -/

/-- One pass of `accept_loop`: finished sessions are removed, and the next connection becomes a
session if there is room. -/
def accept (server : CoordinatorServer) : CoordinatorServer :=
  let live := server.sessions.filter fun id => !(server.session id).finished
  let id := server.sessionsAccepted
  if live.length < server.config.maxSessions then
    { server.putSession id {} with sessions := live ++ [id], sessionsAccepted := id + 1 }
  else { server with sessions := live }

/-- What the receive loop of a session calls. -/
def handlers (id : Nat) (sent : Bool) : Handlers CoordinatorServer where
  received server := { server with framesReceived := server.framesReceived + 1 }
  handle server frame :=
    match server.handleFrame (server.session id) frame with
    | (server, session, response, keepOpen) => (server.putSession id session, response, keepOpen)
  send server _ := (server, sent)
  reject server _ := { server with framesRejected := server.framesRejected + 1 }
  endSession server := server.endSession id

/-- One complete frame of a session. -/
def receiveFrame (server : CoordinatorServer) (id : Nat) (frame : Frame) (sent : Bool) :
    CoordinatorServer :=
  match turn (handlers id sent) server frame with
  | (server, true) => server
  | (server, false) => server.putSession id { server.session id with serving := false }

/-- A step. -/
inductive Act where
  | start
  | accept
  | frame (id : Nat) (frame : Frame) (sent : Bool)
  | endSession (id : Nat)
  | stop
  | op (op : Op)

/-- The session is one of the coordinator, and its receive loop runs. -/
def Serving (server : CoordinatorServer) (id : Nat) : Prop :=
  id ∈ server.sessions ∧ (server.session id).serving = true

instance (server : CoordinatorServer) (id : Nat) : Decidable (server.Serving id) :=
  inferInstanceAs (Decidable (_ ∧ _))

/-- When a step can be made. -/
def Enabled (server : CoordinatorServer) : Act → Prop
  | .accept => server.running = true
  | .frame id _ _ => server.Serving id
  | .endSession id => id ∈ server.sessions ∧ (server.session id).finished = false
  | .start | .stop | .op _ => True

instance (server : CoordinatorServer) : (act : Act) → Decidable (server.Enabled act)
  | .accept => inferInstanceAs (Decidable (server.running = true))
  | .frame id _ _ => inferInstanceAs (Decidable (server.Serving id))
  | .endSession id =>
    inferInstanceAs (Decidable (id ∈ server.sessions ∧ (server.session id).finished = false))
  | .start | .stop | .op _ => .isTrue trivial

/-- The effect of a step. -/
def apply (server : CoordinatorServer) : Act → CoordinatorServer
  | .start => { server with running := true }
  | .accept => server.accept
  | .frame id frame sent => server.receiveFrame id frame sent
  | .endSession id => server.endSession id
  | .stop => server.stop
  | .op op => { server with engine := server.engine.apply op }

/-- A coordinator that has just started, on an engine that a run has reached. -/
structure Started (server : CoordinatorServer) : Prop where
  config : server.config.Valid
  engine : server.engine.Reachable
  running : server.running = true
  session : ∀ id, server.session id = {}
  sessions : server.sessions = []

/-- The coordinators that runs reach. -/
abbrev Reachable : CoordinatorServer → Prop := Runs.Run Started apply Enabled

end CoordinatorServer

end LinkState
