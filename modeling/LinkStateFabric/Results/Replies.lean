import LinkStateFabric.Results.Requests

/-!
# Replies of the coordinator

A reply is decoded by the client exactly where its texts pass the decoder (`delivered_iff`). These
are the name of the coordinator, which its configuration does not bound, and the details of
outcomes, of which two quote a pair of identifiers of any length.
-/

namespace LinkState

open Codec CoordinatorServer

/-! ## Decoded messages are valid -/

theorem gives_text {maxLength : Nat} :
    Gives (MessageReader.text maxLength) fun text => validateText text maxLength = none :=
  gives_textField _ maxLength

theorem gives_readHelloAck : Gives readHelloAck HelloAckMessage.Valid :=
  (gives_true _).bind fun _ _ => (gives_true _).bind fun _ _ => gives_text.bind fun _ hvalid =>
    (gives_true _).bind fun _ _ => gives_pure hvalid

theorem gives_readResult : Gives readResult ResultMessage.Valid :=
  (gives_true _).bind fun _ _ => gives_text.bind fun _ hvalid => (gives_true _).bind fun _ _ =>
    (gives_true _).bind fun _ _ => (gives_true _).bind fun _ _ => (gives_true _).bind fun _ _ =>
    (gives_true _).bind fun _ _ => (gives_true _).bind fun _ _ => (gives_true _).bind fun _ _ =>
    gives_pure hvalid

/-- The texts of the replies pass the decoder. -/
def Message.Legible (message : Message) : Prop := message.helloAck.Valid ∧ message.result.Valid

theorem gives_readMessage_legible (type : MessageType) : Gives (readMessage type) Message.Legible := by
  have hack : HelloAckMessage.Valid {} := by unfold HelloAckMessage.Valid; decide
  have hresult : ResultMessage.Valid {} := by unfold ResultMessage.Valid; decide
  cases type with
  | helloAck => exact gives_readHelloAck.bind fun _ hvalid => gives_pure ⟨hvalid, hresult⟩
  | registerResult | publishResult | withdrawResult | invalidateResult | queryResult | error =>
    exact gives_readResult.bind fun _ hvalid => gives_pure ⟨hack, hvalid⟩
  | shutdown => exact gives_text.bind fun _ hvalid => gives_pure ⟨hack, hvalid⟩
  | _ => exact (gives_true _).bind fun _ _ => gives_pure ⟨hack, hresult⟩

/-! ## Replies -/

/-- The types of the messages that the coordinator replies with. -/
def MessageType.isReply (type : MessageType) : Bool :=
  type = .helloAck || type = .registerResult || type = .publishResult || type = .withdrawResult ||
    type = .invalidateResult || type = .queryResult || type = .shutdown || type = .error

theorem valid_of_legible {reply : Message} (htype : reply.type.isReply = true)
    (h : reply.carried.Legible) : reply.Valid := by
  obtain ⟨type, hello, ack, registration, publish, withdraw, invalidate, query, result⟩ := reply
  cases type with
  | helloAck => exact h.1
  | registerResult | publishResult | withdrawResult | invalidateResult | queryResult | error
  | shutdown => exact h.2
  | _ => cases htype

/-- A valid reply fits in a frame. -/
theorem length_encodeMessage_reply {reply : Message} (htype : reply.type.isReply = true)
    (h : reply.Valid) : (encodeMessage reply).length ≤ limits.maxFramePayloadBytes := by
  have hmax : limits.maxFramePayloadBytes = 2 ^ 20 := rfl
  have hname : limits.maxIdentifierLength = 128 := rfl
  have hdetail : limits.maxDetailLength = 256 := rfl
  obtain ⟨type, hello, ack, registration, publish, withdraw, invalidate, query, result⟩ := reply
  cases type with
  | helloAck =>
    have hlength := validateText_length (show validateText ack.coordinator _ = none from h)
    simp only [encodeMessage, encodeHelloAck, encodeText, encodeGeneration, List.length_append,
      length_leBytes]
    omega
  | registerResult | publishResult | withdrawResult | invalidateResult | queryResult | error =>
    have hlength := validateText_length (show validateText result.detail _ = none from h)
    simp only [encodeMessage, encodeResult, encodeText, encodeGeneration, encodeEnum, encodeBool,
      List.length_append, length_leBytes, List.length_singleton]
    omega
  | shutdown =>
    have hlength := validateText_length (show validateText result.detail _ = none from h)
    simp only [encodeMessage, encodeText, List.length_append, length_leBytes]
    omega
  | _ => cases htype

/-! ## Answers -/

section Answers

variable (server : CoordinatorServer) (session : CoordinatorServer.Session) (request : Message)

/-- The reply to the request has no text that is too long: the name of the coordinator passes the
decoder, and a publication or a withdrawal is not refused for two identifiers that are too long
together. -/
def CoordinatorServer.Answerable : Prop :=
  match request.type with
  | .hello => validateText server.config.coordinatorName limits.maxIdentifierLength = none
  | .publishEvidence => ¬ server.engine.PublishesOverlong (publicationOf request.publish)
  | .withdrawEvidence => ¬ server.engine.WithdrawsOverlong (withdrawalOf request.withdraw)
  | _ => True

theorem reply_isReply : (server.answer session request).reply.type.isReply = true := by
  unfold answer
  split
  case h_5 =>
    unfold answerInvalidate
    split <;> rfl
  all_goals rfl

/-- The detail of an outcome that is reported passes the decoder exactly where it is short. -/
theorem valid_fillResult {result : LinkMutationResult} {overlong : Prop}
    (hfits : ¬ overlong → result.Fits)
    (hlong : overlong → limits.maxDetailLength < result.outcome.detail.length) :
    (fillResult result.outcome result.view).Valid ↔ ¬ overlong := by
  have hdetail : (fillResult result.outcome result.view).detail = result.outcome.detail := by
    cases result.view <;> rfl
  unfold ResultMessage.Valid
  rw [hdetail]
  exact ⟨fun h hoverlong => absurd (validateText_length h) (not_le.mpr (hlong hoverlong)),
    fun h => (hfits h).validateText⟩

theorem reply_valid_iff : (server.answer session request).reply.Valid ↔ server.Answerable request := by
  unfold answer Answerable
  have hclosed {detail : Text} (h : Plain limits.maxDetailLength detail) :
      validateText detail limits.maxDetailLength = none ↔ True := iff_true_intro h.validateText
  split <;> rename_i htype <;> rw [htype]
  case h_1 => exact Iff.rfl
  case h_2 => exact hclosed (registerPublisher_fits _)
  case h_3 => exact valid_fillResult publishEvidence_fits publishEvidence_overlong
  case h_4 => exact valid_fillResult withdrawEvidence_fits withdrawEvidence_overlong
  case h_5 =>
    unfold answerInvalidate
    split
    · exact hclosed ((Plain.lit (by decide)).mono (by decide))
    · exact hclosed (invalidatePublisher_fits _)
  case h_6 =>
    unfold answerQuery
    dsimp only
    split
    · exact hclosed ((Plain.lit (by decide)).mono (by decide))
    · exact hclosed ((Plain.lit (by decide)).mono (by decide))
  case h_7 => exact hclosed ((Plain.lit (by decide)).mono (by decide))
  all_goals exact hclosed ((Plain.lit (by decide)).mono (by decide))

end Answers

/-! ## What the client makes of the response -/

/-- The client decodes the response of the coordinator, as the reply that the coordinator composed,
with the code and the generations of the engine's outcome. -/
def Delivered (server : CoordinatorServer) (session : CoordinatorServer.Session) (frame : Frame) (request : Message) :
    Prop :=
  let reply := (server.answer session request).reply
  let decoded := decodeFrame (server.handleFrame session frame).2.2.1
  let result := PublisherClient.outcomeOf frame.requestId reply.type decoded.frame
  decoded.status = .complete ∧ result.2 = some reply.carried ∧
    ∀ op, session.performed request = some op → ∃ outcome, server.engine.outcome op = some outcome ∧
      result.1.code = outcome.code ∧ result.1.stateGeneration = outcome.stateGeneration ∧
      result.1.evidenceGeneration = outcome.evidenceGeneration ∧
      result.1.globalGeneration = outcome.globalGeneration

/-- A response that the client accepts is decoded. -/
theorem decoded_of_outcomeOf {requestId : U64} {expected : MessageType} {frame : Frame}
    {response : Message}
    (h : (PublisherClient.outcomeOf requestId expected frame).2 = some response) :
    decodeMessage frame.type frame.payload = .ok response := by
  unfold PublisherClient.outcomeOf at h
  dsimp only at h
  split at h
  · cases h
  split at h
  · split at h
    · split at h <;> cases h
    · cases h
  split at h
  · cases h
  · rename_i hdecode
    cases h
    exact hdecode

/-- What the client makes of a response that is decoded to a reply. -/
theorem outcomeOf_reply (requestId : U64) {reply : Message} (hvalid : reply.Valid) :
    PublisherClient.outcomeOf requestId reply.type
        { type := reply.type, requestId, payload := encodeMessage reply } =
      (PublisherClient.outcomeFor reply.type reply.carried, some reply.carried) := by
  unfold PublisherClient.outcomeOf
  dsimp only
  rw [if_neg (not_not.mpr rfl), if_neg (not_not.mpr rfl), decodeMessage_encodeMessage hvalid]

/-- The counters of the coordinator have no part in a reply. -/
theorem answer_reply_counted (server : CoordinatorServer) (session : CoordinatorServer.Session) (request : Message)
    (requestsHandled : Nat) : ({ server with requestsHandled }.answer session request).reply =
      (server.answer session request).reply := by
  unfold answer
  split
  case h_5 =>
    unfold answerInvalidate
    split <;> rfl
  all_goals rfl

theorem handleFrame_response (server : CoordinatorServer) (session : CoordinatorServer.Session) {frame : Frame}
    {request : Message} (hdecode : decodeMessage frame.type frame.payload = .ok request) :
    (server.handleFrame session frame).2.2.1 =
      Frame.encode
        { type := (server.answer session request).reply.type
          requestId := frame.requestId
          payload := encodeMessage (server.answer session request).reply } := by
  unfold handleFrame
  rw [hdecode, Frame.encode]
  dsimp only
  rw [answer_reply_counted]

/-- The types of the results of operations. -/
def MessageType.isResult (type : MessageType) : Bool :=
  type = .registerResult || type = .publishResult || type = .withdrawResult ||
    type = .invalidateResult

theorem isResult_of_performed {session : CoordinatorServer.Session} {request : Message} {op : Op}
    (h : session.performed request = some op) (server : CoordinatorServer) :
    (server.answer session request).reply.type.isResult = true := by
  unfold Session.performed operationOf at h
  unfold answer
  split
  case h_2 | h_3 | h_4 => rfl
  case h_5 =>
    unfold answerInvalidate
    split <;> rfl
  all_goals
    rename_i htype
    rw [htype] at h
    simp at h

/-- The outcome that the client makes of a result is the one that it reports. -/
theorem outcomeFor_result {reply : Message} (htype : reply.type.isResult = true) :
    Reports reply.result (PublisherClient.outcomeFor reply.type reply.carried) := by
  obtain ⟨type, hello, ack, registration, publish, withdraw, invalidate, query, result⟩ := reply
  cases type with
  | registerResult | publishResult | withdrawResult | invalidateResult =>
    exact ⟨rfl, rfl, rfl, rfl, rfl⟩
  | _ => cases htype

theorem length_of_valid_result {reply : Message} (htype : reply.type.isResult = true)
    (h : reply.Valid) : reply.result.detail.length ≤ limits.maxDetailLength := by
  obtain ⟨type, hello, ack, registration, publish, withdraw, invalidate, query, result⟩ := reply
  cases type with
  | registerResult | publishResult | withdrawResult | invalidateResult =>
    exact validateText_length h
  | _ => cases htype

theorem delivered_iff_valid (server : CoordinatorServer) (session : CoordinatorServer.Session) {frame : Frame}
    {request : Message} (hdecode : decodeMessage frame.type frame.payload = .ok request) :
    Delivered server session frame request ↔ (server.answer session request).reply.Valid := by
  have htype := reply_isReply server session request
  unfold Delivered
  dsimp only
  rw [handleFrame_response server session hdecode]
  constructor
  · rintro ⟨-, hresponse, -⟩
    refine valid_of_legible htype ?_
    exact gives_readMessage_legible _ _ _ _
      (readMessage_of_decodeMessage (decoded_of_outcomeOf hresponse))
  · intro hvalid
    have hframe := @decodeFrame_encode
      { type := (server.answer session request).reply.type
        requestId := frame.requestId
        payload := encodeMessage (server.answer session request).reply }
      (length_encodeMessage_reply htype hvalid) []
    rw [List.append_nil] at hframe
    rw [hframe]
    dsimp only
    rw [outcomeOf_reply frame.requestId hvalid]
    refine ⟨rfl, rfl, fun op hop => ?_⟩
    obtain ⟨outcome, h⟩ := answer_performs server session request hop
    have hreports := outcomeFor_result (isResult_of_performed hop server)
    exact ⟨outcome, h.outcome_eq, hreports.code.symm.trans h.reply.code,
      hreports.stateGeneration.symm.trans h.reply.stateGeneration,
      hreports.evidenceGeneration.symm.trans h.reply.evidenceGeneration,
      hreports.globalGeneration.symm.trans h.reply.globalGeneration⟩

/-- The reply to a request is delivered exactly where the request can be answered in short. -/
theorem delivered_iff (server : CoordinatorServer) (session : CoordinatorServer.Session) {frame : Frame}
    {request : Message} (hdecode : decodeMessage frame.type frame.payload = .ok request) :
    Delivered server session frame request ↔ server.Answerable request :=
  (delivered_iff_valid server session hdecode).trans (reply_valid_iff server session request)

theorem undelivered_of_long {server : CoordinatorServer} {session : CoordinatorServer.Session} {frame : Frame}
    {request : Message} (hdecode : decodeMessage frame.type frame.payload = .ok request)
    (htype : (server.answer session request).reply.type.isResult = true)
    (hlong : limits.maxDetailLength < (server.answer session request).reply.result.detail.length) :
    ¬ Delivered server session frame request := fun h => by
  have hvalid := (delivered_iff_valid server session hdecode).mp h
  exact absurd (length_of_valid_result htype hvalid) (Nat.not_le_of_lt hlong)

namespace Sample

/-- A publication under a boot that has not registered. -/
def strayMessage : Message where
  type := .publishEvidence
  publish := { publication, observation := { observation with
    workerBoot := .fromValidated (lit "boot-2") } }

theorem strayMessage_valid : strayMessage.Valid :=
  ⟨by decide, ⟨by decide, by decide⟩, by decide, by decide, by decide +kernel, by decide, by decide⟩

/-- A boot with a name as long as names may be. -/
def longBoot (letter : Char) : WorkerBootId := .fromValidated (List.replicate 128 letter.toUInt8)

/-- An engine on which the publisher of the small run has registered under a long boot. -/
def longEngine : Impl :=
  [Op.bindLink ⟨binding⟩, .registerPublisher ⟨{ registration with workerBoot := longBoot 'a' }⟩].foldl
    Impl.apply (.create {})

theorem longEngine_reachable : longEngine.Reachable := Impl.Reachable.foldl (.start ⟨{}, rfl⟩) _

/-- A coordinator of an engine. -/
def serving (engine : Impl) : CoordinatorServer where
  config := {}
  engine := engine

theorem serving_engine (engine : Impl) : (serving engine).engine = engine := rfl

/-- A publication under another long boot. -/
def longMessage : Message where
  type := .publishEvidence
  publish := { publication, observation := { observation with workerBoot := longBoot 'b' } }

theorem longMessage_valid : longMessage.Valid :=
  ⟨by decide, ⟨by decide, by decide⟩, by decide, by decide, by decide +kernel, by decide, by decide⟩

end Sample

/-- The publication is refused, and the refusal, which quotes both boots, is delivered. -/
theorem delivered_iff_sample :
    (Sample.coordinator.answer {} Sample.strayMessage.carried).reply.result.code =
        .staleAuthority ∧
      Delivered Sample.coordinator {} (Sample.frameOf Sample.strayMessage)
        Sample.strayMessage.carried := by
  refine ⟨by decide +kernel, (delivered_iff Sample.coordinator {}
    (Sample.decode_frameOf Sample.strayMessage_valid)).mpr ?_⟩
  rintro ⟨-, -, authority, hauthority, -, -, hoverlong⟩
  have hshort : ∀ authority ∈ Sample.engine.store.publishers.lookup Sample.publisher,
      ¬ authority.Overlong Sample.publisher (.fromValidated (lit "boot-2")) Sample.source := by
    decide +kernel
  exact hshort authority hauthority hoverlong

/-- The refusal of a publication under a superseded boot is not delivered where the names of the two
boots are long. -/
theorem long_refusal_undelivered :
    (Sample.serving Sample.longEngine).config.Valid ∧
      (Sample.serving Sample.longEngine).engine.Reachable ∧
      decodeMessage (Sample.frameOf Sample.longMessage).type
          (Sample.frameOf Sample.longMessage).payload = .ok Sample.longMessage.carried ∧
      ¬ Delivered (Sample.serving Sample.longEngine) {} (Sample.frameOf Sample.longMessage)
        Sample.longMessage.carried := by
  have hdecode := Sample.decode_frameOf Sample.longMessage_valid
  have hreachable : (Sample.serving Sample.longEngine).engine.Reachable := by
    rw [Sample.serving_engine]
    exact Sample.longEngine_reachable
  exact ⟨by decide +kernel, hreachable, hdecode,
    undelivered_of_long hdecode (by decide +kernel) (by decide +kernel)⟩

end LinkState
