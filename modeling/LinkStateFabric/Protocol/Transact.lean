import LinkStateFabric.Protocol.Client
import LinkStateFabric.Protocol.Serve

/-!
# Calls of the client (`transact`, `connect`, `disconnect`, `query_state`, `client.cpp`)

* `PublisherClient.await`: the loop of `transact` that waits for the response. `await_encode` says
  what it makes of a response that arrives in pieces.
* `PublisherClient.transact`: the whole call, over a transport that sends the request or fails, and
  delivers chunks.
* `PublisherClient.connect` and the other calls with their messages.
-/

namespace LinkState

namespace PublisherClient

/-! ## Responses -/

/-- `request_link`. -/
def requestLink (request : Message) : LinkId :=
  match request.type with
  | .publishEvidence => request.publish.observation.key.link
  | .withdrawEvidence => request.withdraw.key.link
  | .queryState => request.query.link
  | _ => .null

/-- `view_from`. -/
def viewFrom (result : ResultMessage) (link : LinkId) : LinkStateView where
  record :=
    { binding :=
        { link
          topologyGeneration := result.topologyGeneration
          endpoints := { localGeneration := result.endpointGeneration } }
      state := result.state
      stateGeneration := result.stateGeneration
      evidenceGeneration := result.evidenceGeneration
      globalGeneration := result.globalGeneration
      resultClass := .authoritativeUnknown }
  currentEvidence := 0
  retainedDispositions := 0
  conflicted := false
  syntheticBacked := false

/-- The view that a response gives. The handshake and the shutdown give none. -/
def viewOf (request : Message) (type : MessageType) (response : Message) : Option LinkStateView :=
  if type ≠ .helloAck ∧ type ≠ .shutdown ∧ response.result.found then
    some (viewFrom response.result (requestLink request))
  else none

/-- What a call of `transact` leaves: its outcome, the response, and whether the client is still
connected. -/
structure Transaction where
  outcome : Outcome
  response : Option Message := none
  view : Option LinkStateView := none
  connected : Bool := true
  deriving DecidableEq

/-- What `transact` makes of a complete response frame. -/
def accepted (request : Message) (requestId : U64) (expected : MessageType) (frame : Frame) :
    Transaction :=
  match outcomeOf requestId expected frame with
  | (outcome, response) => { outcome, response, view := response.bind (viewOf request frame.type) }

/-- A call that ends the connection. -/
def lost (detail : Text) : Transaction where
  outcome := .make .transportFailure detail
  connected := false

/-- What the buffer decides, if it does not wait for more. -/
def settled (request : Message) (requestId : U64) (expected : MessageType) (buffer : Bytes) :
    Option Transaction :=
  match (decodeFrame buffer).status with
  | .complete => some (accepted request requestId expected (decodeFrame buffer).frame)
  | .incomplete => none
  | status => some (lost (lit "protocol violation: " ++ status.text))

/-- The loop of `transact`, over what the transport delivers. The stream ends closed, which includes
a chunk of no bytes. -/
def await (request : Message) (requestId : U64) (expected : MessageType) (buffer : Bytes) :
    List Bytes → Transaction
  | [] => (settled request requestId expected buffer).getD
    (lost (lit "the coordinator closed the connection"))
  | chunk :: chunks => (settled request requestId expected buffer).getD <|
    if chunk = [] then lost (lit "the coordinator closed the connection")
    else if bufferedLimit < (buffer ++ chunk).length then
      lost (lit "the response exceeds the maximum frame size")
    else await request requestId expected (buffer ++ chunk) chunks

/-- `transact`, once the client is connected and the request is numbered. -/
def transact (request : Message) (requestId : U64) (expected : MessageType) (sent : Bool)
    (chunks : List Bytes) : Transaction :=
  if sent then await request requestId expected [] chunks
  else lost (lit "a frame could not be sent")

/-! ## Calls -/

/-- The message of the handshake. -/
def helloMessage (client : PublisherClient) : Message where
  type := .hello
  hello :=
    { agent := client.config.agentName
      workerBoot := client.config.workerBoot
      epoch := client.epoch }

/-- The message of `query_state`. -/
def queryMessage (link : LinkId) : Message where
  type := .queryState
  query := { link }

/-- The message of `disconnect`. -/
def shutdownMessage : Message where
  type := .shutdown
  result := { detail := lit "worker shutdown" }

/-- The end of `connect`, after the handshake: the client takes the epoch of the coordinator. -/
def greeted (client : PublisherClient) (handshake : Transaction) : PublisherClient × Outcome × Bool :=
  if handshake.outcome.isError then (client, handshake.outcome, false)
  else match handshake.response with
    | none => (client, handshake.outcome, false)
    | some ack =>
      if ack.helloAck.version ≠ protocolVersion then
        (client, .make .unsupportedState
          (lit "the coordinator speaks an unsupported protocol version"), false)
      else ({ client with epoch := ack.helloAck.epoch },
        .make .committed (lit "connected to " ++ ack.helloAck.coordinator ++
          lit " at coordinator epoch " ++ ack.helloAck.epoch.text), true)

/-- `connect`, once there is a connection: the client, the outcome, and whether it is connected. -/
def connect (client : PublisherClient) (requestId : U64) (sent : Bool) (chunks : List Bytes) :
    PublisherClient × Outcome × Bool :=
  if client.config.validate ≠ [] then
    (client, .make .malformedRequest client.config.validate, false)
  else client.greeted (transact client.helloMessage requestId .helloAck sent chunks)

/-- `query_state`: the view, if there is one, and whether the outcome is no error. -/
def queryState (link : LinkId) (requestId : U64) (sent : Bool) (chunks : List Bytes) :
    Option LinkStateView × Bool :=
  let transaction := transact (queryMessage link) requestId .queryResult sent chunks
  (transaction.view, !transaction.outcome.isError)

/-- `disconnect` of a client that is connected. -/
def disconnect (requestId : U64) (sent : Bool) (chunks : List Bytes) : Outcome :=
  let transaction := transact shutdownMessage requestId .shutdown sent chunks
  if transaction.outcome.isError then transaction.outcome
  else .make .committed (lit "the session was shut down cleanly")

/-- A request as a frame. -/
def requestFrame (request : Message) (requestId : U64) : Frame where
  type := request.type
  requestId := requestId
  payload := encodeMessage request

/-- The type of the response that a call expects. -/
def expectedType : ClientCall → MessageType
  | .register => .registerResult
  | .publish _ => .publishResult
  | .withdraw _ => .withdrawResult
  | .invalidate _ => .invalidateResult

/-! ## Accepted responses -/

/-- A response that the client accepts. -/
theorem of_accepted {request : Message} {requestId : U64} {expected : MessageType} {frame : Frame}
    {response : Message} (h : (accepted request requestId expected frame).response = some response) :
    frame.requestId = requestId ∧ frame.type = expected ∧
      decodeMessage frame.type frame.payload = .ok response ∧
      accepted request requestId expected frame =
        { outcome := outcomeFor frame.type response
          response := some response
          view := viewOf request frame.type response } := by
  unfold accepted at h ⊢
  unfold outcomeOf at h ⊢
  dsimp only at h ⊢
  split at h
  · cases h
  rename_i hid
  split at h
  · split at h
    · split at h <;> cases h
    · cases h
  rename_i htype
  rw [if_neg hid, if_neg htype]
  split at h
  · cases h
  · rename_i hdecode
    cases h
    rw [hdecode]
    exact ⟨not_not.mp hid, not_not.mp htype, rfl, rfl⟩

/-! ## Responses in pieces -/

section Await

variable (request : Message) (requestId : U64) (expected : MessageType)

theorem await_complete {buffer : Bytes} (h : (decodeFrame buffer).status = .complete)
    (chunks : List Bytes) : await request requestId expected buffer chunks =
      accepted request requestId expected (decodeFrame buffer).frame := by
  have hsettled : settled request requestId expected buffer =
      some (accepted request requestId expected (decodeFrame buffer).frame) := by
    rw [settled, h]
  cases chunks <;> rw [await, hsettled, Option.getD_some]

theorem await_incomplete {buffer chunk : Bytes} (h : (decodeFrame buffer).status = .incomplete)
    (hchunk : chunk ≠ []) (hsize : (buffer ++ chunk).length ≤ bufferedLimit) (chunks : List Bytes) :
    await request requestId expected buffer (chunk :: chunks) =
      await request requestId expected (buffer ++ chunk) chunks := by
  have hsettled : settled request requestId expected buffer = none := by rw [settled, h]
  rw [await, hsettled, Option.getD_none, if_neg hchunk, if_neg (not_lt.mpr hsize)]

/-- A response that arrives whole, in whatever pieces, is accepted. -/
theorem await_encode {frame : Frame}
    (hsize : frame.payload.length ≤ limits.maxFramePayloadBytes) {chunks : List Bytes}
    (hchunks : ∀ chunk ∈ chunks, chunk ≠ []) {buffer : Bytes}
    (h : buffer ++ chunks.flatten = frame.encode) :
    await request requestId expected buffer chunks = accepted request requestId expected frame := by
  have hwhole := decodeFrame_encode hsize []
  rw [List.append_nil] at hwhole
  induction chunks generalizing buffer with
  | nil =>
    rw [List.flatten_nil, List.append_nil] at h
    rw [h, await_complete _ _ _ (by rw [hwhole]), hwhole]
  | cons chunk chunks ih =>
    obtain ⟨hchunk, hrest⟩ := List.forall_mem_cons.mp hchunks
    rw [List.flatten_cons, ← List.append_assoc] at h
    have hpre : buffer <+: frame.encode :=
      ⟨chunk ++ chunks.flatten, by rw [← List.append_assoc]; exact h⟩
    have hlimit : (buffer ++ chunk).length ≤ bufferedLimit := by
      have hlength := congrArg List.length h
      rw [List.length_append, frame.length_encode] at hlength
      unfold bufferedLimit
      omega
    have hshort : buffer.length < frame.encode.length := by
      rw [← h, List.length_append, List.length_append]
      have := List.length_pos_of_ne_nil hchunk
      omega
    rw [await_incomplete _ _ _ (decodeFrame_part hsize hpre hshort) hchunk hlimit]
    exact ih hrest h

end Await

end PublisherClient

end LinkState
