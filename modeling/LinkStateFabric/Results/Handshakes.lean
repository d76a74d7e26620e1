import LinkStateFabric.Results.Calls
import LinkStateFabric.Results.FrameLimits

/-!
# The handshake of a client

A client that connects takes the epoch of the coordinator, and registers under it.

* `registerPublisher_stale_iff`: when a registration is refused for its epoch.
* `complete_of_await`: a client that accepts a response has received a whole frame.
* `handshakes_linearized`: the epoch that a client takes is that of the coordinator at one moment of
  the handshake, and its registration is refused for the epoch only where that has advanced since.
-/

namespace LinkState

open Calls CoordinatorServer PublisherClient

section Registrations

variable {impl : Impl}

theorem admitRegistration_code_ne (registration : PublisherRegistration) :
    (impl.admitRegistration registration).2.outcome.code ≠ .staleCoordinatorEpoch := by
  intro hcode
  unfold Impl.admitRegistration at hcode
  split at hcode
  · split at hcode
    · split at hcode <;> cases hcode
    · unfold Impl.supersedeBoot at hcode
      dsimp only at hcode
      split at hcode <;> cases hcode
  · split at hcode <;> cases hcode

/-- A registration is refused for its epoch exactly if nothing is wrong with its identities and its
scope, and the epoch is not that of the engine. -/
theorem registerPublisher_stale_iff (request : RegisterPublisherRequest) :
    (impl.registerPublisher request).2.outcome.code = .staleCoordinatorEpoch ↔
      (request.registration.publisher.valid = true ∧
        request.registration.workerBoot.valid = true ∧
        request.registration.source.valid = true) ∧
      request.registration.scope.normalize ≠ none ∧ request.registration.epoch ≠ impl.epoch := by
  unfold Impl.registerPublisher
  dsimp only
  split
  · rename_i hinvalid
    refine iff_of_false (fun hcode => by cases hcode) ?_
    rintro ⟨⟨hpublisher, hboot, hsource⟩, -⟩
    rw [hpublisher, hboot, hsource] at hinvalid
    cases hinvalid
  rename_i hvalid
  have hids : request.registration.publisher.valid = true ∧
      request.registration.workerBoot.valid = true ∧
      request.registration.source.valid = true := by
    simpa [and_assoc] using hvalid
  cases hscope : request.registration.scope.normalize with
  | none =>
    refine iff_of_false (fun hcode => by cases hcode) ?_
    rintro ⟨-, hnormal, -⟩
    exact hnormal rfl
  | some scope =>
    dsimp only
    -- Behind the check of the epoch no other check answers with its code.
    by_cases hepoch : request.registration.epoch = impl.epoch
    · rw [if_neg (not_not.mpr hepoch)]
      refine iff_of_false (fun hcode => ?_) fun h => h.2.2 hepoch
      split at hcode
      · cases hcode
      · exact admitRegistration_code_ne _ hcode
    · rw [if_pos hepoch]
      exact iff_of_true rfl ⟨hids, Option.some_ne_none _, hepoch⟩

end Registrations

/-! ## What is received -/

/-- What is whole of the encoding of a frame is the frame. -/
theorem frame_of_part {frame : Frame} (hsendable : frame.Sendable) {part : Bytes}
    (hpart : part <+: frame.encode) (hstatus : (decodeFrame part).status = .complete) :
    (decodeFrame part).frame = frame := by
  obtain ⟨hsize, -, htake⟩ := encode_of_decodeFrame hstatus
  obtain ⟨rest, hrest⟩ := hpart
  have hwhole : (decodeFrame part).frame.encode ++
      (part.drop (decodeFrame part).consumed ++ rest) = frame.encode := by
    rw [← htake, ← List.append_assoc, List.take_append_drop, hrest]
  have hdecoded := decodeFrame_encode hsize (part.drop (decodeFrame part).consumed ++ rest)
  rw [hwhole] at hdecoded
  have hshort : frame.payload.length ≤ limits.maxFramePayloadBytes := by
    by_contra hlong
    exact decodeFrame_of_long frame (not_le.mp hlong) hsendable (by rw [hdecoded])
  have hsame := decodeFrame_encode hshort []
  rw [List.append_nil, hdecoded] at hsame
  exact congrArg FrameDecodeResult.frame hsame

section Await

variable {request response : Message} {requestId : U64} {expected : MessageType}

theorem complete_of_settled {buffer : Bytes} {transaction : Transaction}
    (h : settled request requestId expected buffer = some transaction)
    (hresponse : transaction.response = some response) :
    (decodeFrame buffer).status = .complete ∧
      transaction = accepted request requestId expected (decodeFrame buffer).frame := by
  unfold settled at h
  split at h
  · rename_i hstatus
    exact ⟨hstatus, (Option.some.inj h).symm⟩
  · cases h
  · cases h
    cases hresponse

theorem complete_of_await {buffer : Bytes} {chunks : List Bytes}
    (h : (await request requestId expected buffer chunks).response = some response) :
    ∃ part, part <+: buffer ++ chunks.flatten ∧ (decodeFrame part).status = .complete ∧
      await request requestId expected buffer chunks =
        accepted request requestId expected (decodeFrame part).frame := by
  -- By induction on the chunks: the buffer holds what has come so far.
  induction chunks generalizing buffer with
  | nil =>
    rw [await] at h ⊢
    cases hsettled : settled request requestId expected buffer with
    | none =>
      rw [hsettled] at h
      cases h
    | some transaction =>
      rw [hsettled] at h
      exact ⟨buffer, List.prefix_append .., complete_of_settled hsettled h⟩
  | cons chunk chunks ih =>
    rw [await] at h ⊢
    cases hsettled : settled request requestId expected buffer with
    | none =>
      rw [hsettled, Option.getD_none] at h
      rw [Option.getD_none]
      split at h
      · cases h
      split at h
      · cases h
      · rename_i hchunk hlimit
        obtain ⟨part, hpart, hcomplete⟩ := ih h
        rw [if_neg hchunk, if_neg hlimit, List.flatten_cons, ← List.append_assoc]
        exact ⟨part, hpart, hcomplete⟩
    | some transaction =>
      rw [hsettled] at h
      exact ⟨buffer, List.prefix_append .., complete_of_settled hsettled h⟩

end Await

/-! ## The handshake -/

/-- What a handshake that succeeds has got, and what the client makes of it. -/
theorem of_greeted {client client' : PublisherClient} {handshake : Transaction} {outcome : Outcome}
    (h : client.greeted handshake = (client', outcome, true)) :
    ∃ ack, handshake.response = some ack ∧
      client' = { client with epoch := ack.helloAck.epoch } ∧
      outcome = .make .committed (lit "connected to " ++ ack.helloAck.coordinator ++
        lit " at coordinator epoch " ++ ack.helloAck.epoch.text) := by
  unfold greeted at h
  split at h
  · cases h
  split at h
  · cases h
  rename_i ack hack
  split at h
  · cases h
  · cases h
    exact ⟨ack, hack, rfl, rfl⟩

theorem of_connect {client client' : PublisherClient} {requestId : U64} {sent : Bool}
    {chunks : List Bytes} {outcome : Outcome}
    (h : client.connect requestId sent chunks = (client', outcome, true)) :
    client.config.validate = [] ∧
      client.greeted (await client.helloMessage requestId .helloAck [] chunks) =
        (client', outcome, true) := by
  unfold connect at h
  split at h
  · cases h
  rename_i hvalid
  unfold transact at h
  split at h
  · exact ⟨not_not.mp hvalid, h⟩
  · cases h

/-- A client that connects takes the epoch that the coordinator has at one moment of the handshake,
which changes nothing. Its registration is refused for the epoch exactly where the coordinator has
another one by then. -/
theorem handshakes_linearized {network : Network} (h : network.Reachable) {id : Nat}
    {call : Call Frame} (hcall : call ∈ (network.conn id).calls) {client : PublisherClient}
    {requestId : U64} (hrequest : call.request = requestFrame client.helloMessage requestId)
    {frame : Frame} {t : Nat} (hended : call.ended = some (.replied frame, t)) {sent : Bool}
    {chunks : List Bytes} (hreceived : chunks.flatten <+: frame.encode)
    {client' : PublisherClient} {outcome : Outcome}
    (hconnect : client.connect requestId sent chunks = (client', outcome, true)) :
    ∃ k < t, call.begun ≤ k ∧
      let server := network.serverAt k
      (network.serverAt (k + 1)).engine = server.engine ∧
      client' = { client with epoch := server.engine.epoch } ∧
      outcome = .make .committed (lit "connected to " ++ server.config.coordinatorName ++
        lit " at coordinator epoch " ++ server.engine.epoch.text) ∧
      ∀ impl : Impl, (impl.outcome (client'.operation .register)).map (·.code) =
          some .staleCoordinatorEpoch ↔
        AuthorityScope.normalize { fabric := client.config.fabric, links := client.config.links } ≠
          none ∧ impl.epoch ≠ server.engine.epoch := by
  obtain ⟨hvalid, hgreeted⟩ := of_connect hconnect
  obtain ⟨ack, hack, hclient, houtcome⟩ := of_greeted hgreeted
  -- What the client has accepted is the frame that was sent.
  obtain ⟨part, hpart, hstatus, hawait⟩ := complete_of_await hack
  rw [hawait, frame_of_part (h.replied hcall hended).1 (hpart.trans hreceived) hstatus] at hack
  obtain ⟨k, hk, hbegun, hanswers⟩ := h.answers hcall hrequest hended MessageType.noConfusion hack
  have hepoch : ack.helloAck.epoch = (network.serverAt k).engine.epoch := by
    rw [hanswers.reply]
    rfl
  have hname : ack.helloAck.coordinator = (network.serverAt k).config.coordinatorName := by
    rw [hanswers.reply]
    rfl
  have hidle : (network.serverAt k).operationAt id (requestFrame client.helloMessage
      frame.requestId) = none := by
    rw [operationAt, hanswers.decoded]
    rfl
  rw [hepoch] at hclient
  refine ⟨k, hk, hbegun, (hanswers.handled.idle hidle).1, hclient, ?_, fun impl => ?_⟩
  · rw [houtcome, hepoch, hname]
  · rw [hclient]
    have hids := PublisherClientConfig.valid_of_validate hvalid
    refine (Option.some_inj.trans (registerPublisher_stale_iff _)).trans ?_
    exact (and_iff_right hids).trans (and_congr_right fun _ => ne_comm)

namespace Sample

/-- The client of the worker, which knows where the coordinator listens. -/
def worker : PublisherClient where
  config := { client.config with port := 4000 }

theorem helloMessage_valid : worker.helloMessage.Valid := by
  constructor <;> decide

theorem helloMessage_answerable : network.server.Answerable worker.helloMessage.carried := by
  show validateText network.server.config.coordinatorName limits.maxIdentifierLength = none
  decide

theorem connect_reply : worker.connect 1 true
      [(network.server.replyTo 0 (requestFrame worker.helloMessage 1)).encode] =
    ({ worker with epoch := network.server.engine.epoch },
      .make .committed (lit "connected to " ++ network.server.config.coordinatorName ++
        lit " at coordinator epoch " ++ network.server.engine.epoch.text), true) := by
  have hreplied : (network.server.answer (network.server.session 0)
      worker.helloMessage.carried).reply.type = .helloAck := rfl
  obtain ⟨-, htype, -, haccepted⟩ :=
    of_accepted (accepted_replyTo _ _ helloMessage_valid helloMessage_answerable 1 hreplied)
  have hchunks : ∀ chunk ∈
      [(network.server.replyTo 0 (requestFrame worker.helloMessage 1)).encode], chunk ≠ [] := by
    intro chunk hchunk
    rw [List.mem_singleton.mp hchunk, ← List.length_pos_iff, Frame.length_encode]
    exact Nat.lt_of_lt_of_le (show 0 < frameHeaderBytes by decide) (by omega)
  have hwhole : [] ++
      [(network.server.replyTo 0 (requestFrame worker.helloMessage 1)).encode].flatten =
        (network.server.replyTo 0 (requestFrame worker.helloMessage 1)).encode := by
    rw [List.nil_append, List.flatten_singleton]
  have hawait := await_encode worker.helloMessage 1 .helloAck
    (length_replyTo _ _ helloMessage_valid helloMessage_answerable 1) hchunks hwhole
  unfold connect transact
  rw [if_neg (by decide), if_pos rfl, hawait, haccepted, htype]
  rfl

end Sample

theorem handshakes_linearized_sample : ∃ k < 2, 1 ≤ k ∧
    ((Sample.called Sample.worker.helloMessage).serverAt (k + 1)).engine =
      ((Sample.called Sample.worker.helloMessage).serverAt k).engine := by
  have hsound := Sample.called_sound Sample.helloMessage_valid (by decide)
    Sample.helloMessage_answerable
  obtain ⟨k, hk, hbegun, hengine, -⟩ := handshakes_linearized hsound.1 hsound.2 rfl rfl
    (by rw [List.flatten_singleton]) Sample.connect_reply
  exact ⟨k, hk, hbegun, hengine⟩

end LinkState
