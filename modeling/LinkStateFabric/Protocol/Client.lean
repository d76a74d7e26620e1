import LinkStateFabric.Protocol.Server

/-!
# The client (`client.hpp`, `client.cpp`)

* `ClientCall`: a call of the client with its arguments, the message that it sends, and the
  operation that a caller of the engine would make with them.
* `outcomeOf`: what `transact` makes of the response.
-/

namespace LinkState

structure PublisherClientConfig where
  address : Text := lit "127.0.0.1"
  port : Fin (2 ^ 16) := 0
  publisher : PublisherId := .null
  workerBoot : WorkerBootId := .null
  source : SourceId := .null
  fabric : FabricId := .null
  links : List LinkId := []
  agentName : Text := lit "link-state-worker"

/-- `PublisherClientConfig::validate`: empty when valid, otherwise the reason. -/
def PublisherClientConfig.validate (config : PublisherClientConfig) : Text :=
  if config.address.isEmpty then lit "coordinator address is required"
  else if config.port = 0 then lit "coordinator port is required"
  else if !config.publisher.valid then lit "publisher identity is required"
  else if !config.workerBoot.valid then lit "worker boot identity is required"
  else if !config.source.valid then lit "source identity is required"
  else if config.links.isEmpty then lit "at least one authorized link is required"
  else if config.agentName.isEmpty then lit "agent name is required"
  else []

/-- A client that is connected: its configuration, and the epoch that the handshake gave it. -/
structure PublisherClient where
  config : PublisherClientConfig
  epoch : CoordinatorEpoch := .zero

/-- A call that the coordinator passes to its engine. -/
inductive ClientCall where
  | register
  | publish (request : PublishEvidenceRequest)
  | withdraw (request : WithdrawEvidenceRequest)
  | invalidate (request : InvalidatePublisherRequest)

namespace PublisherClient

/-! ## Requests -/

/-- The message of `register_publisher`. -/
def registerMessage (client : PublisherClient) : Message where
  type := .registerPublisher
  registration :=
    { publisher := client.config.publisher
      workerBoot := client.config.workerBoot
      source := client.config.source
      fabric := client.config.fabric
      epoch := client.epoch
      links := client.config.links }

/-- The message of `publish`. -/
def publishMessage (request : PublishEvidenceRequest) : Message where
  type := .publishEvidence
  publish :=
    { publication := request.publication
      observation := request.observation
      hasExpectedEvidenceGeneration := request.expectedEvidenceGeneration.isSome
      expectedEvidenceGeneration := request.expectedEvidenceGeneration.getD .zero
      hasExpectedStateGeneration := request.expectedStateGeneration.isSome
      expectedStateGeneration := request.expectedStateGeneration.getD .zero }

/-- The message of `withdraw`. -/
def withdrawMessage (request : WithdrawEvidenceRequest) : Message where
  type := .withdrawEvidence
  withdraw :=
    { key := request.key
      observation := request.observation
      publisher := request.publisher
      workerBoot := request.workerBoot
      epoch := request.epoch
      sourceGeneration := request.sourceGeneration
      sequence := request.sequence
      reason := request.reason }

/-- The message of `invalidate_publisher`: a boot that the request leaves open is sent as no
identity. -/
def invalidateMessage (request : InvalidatePublisherRequest) : Message where
  type := .invalidatePublisher
  invalidate :=
    { publisher := request.publisher
      workerBoot := request.workerBoot.getD .null
      epoch := request.epoch
      reason := request.reason }

/-- The message of a call. -/
def message (client : PublisherClient) : ClientCall → Message
  | .register => client.registerMessage
  | .publish request => publishMessage request
  | .withdraw request => withdrawMessage request
  | .invalidate request => invalidateMessage request

/-- The operation with the same arguments on the engine itself. -/
def operation (client : PublisherClient) : ClientCall → Op
  | .register => .registerPublisher
    { registration :=
        { publisher := client.config.publisher
          workerBoot := client.config.workerBoot
          source := client.config.source
          scope := { fabric := client.config.fabric, links := client.config.links }
          epoch := client.epoch } }
  | .publish request => .publishEvidence request
  | .withdraw request => .withdrawEvidence request
  | .invalidate request => .invalidatePublisher request

/-! ## Responses -/

/-- The outcome of a decoded response. Only results carry one. -/
def outcomeFor (type : MessageType) (response : Message) : Outcome :=
  match type with
  | .helloAck => .make .committed (lit "coordinator handshake complete")
  | .shutdown => .make .committed response.result.detail
  | _ =>
    { code := response.result.code
      detail := response.result.detail
      stateGeneration := response.result.stateGeneration
      evidenceGeneration := response.result.evidenceGeneration
      globalGeneration := response.result.globalGeneration }

/-- What `transact` makes of a complete response frame: the outcome, and the response. -/
def outcomeOf (requestId : U64) (expected : MessageType) (frame : Frame) :
    Outcome × Option Message :=
  let unexpected : Outcome :=
    .make .transportFailure (lit "the coordinator replied with an unexpected message type")
  if frame.requestId ≠ requestId then
    (.make .transportFailure (lit "the response does not match the outstanding request"), none)
  else if frame.type ≠ expected then
    if frame.type = .error then
      match decodeMessage .error frame.payload with
      | .ok failure => (.make failure.result.code failure.result.detail, none)
      | .error _ => (unexpected, none)
    else (unexpected, none)
  else match decodeMessage frame.type frame.payload with
    | .error error => (.make .malformedRequest error, none)
    | .ok response => (outcomeFor frame.type response, some response)

end PublisherClient

end LinkState
