import LinkStateFabric.Protocol.Network
import LinkStateFabric.Protocol.Transact
import LinkStateFabric.Results.Replies
import LinkStateFabric.Results.Requests

/-!
# Calls of many clients at once

* `calls_linearized`: the calls of all clients have an order, that of the log, in which each is
  carried out once, between its start and its end, and gets the reply of that moment.
* `client_calls_linearized`: what a call of a client returns is the outcome of its operation on the
  engine of that moment. `queries_linearized` says the same of a query.
* `calls_complete`: where a session is served, a client that waits for nothing can complete a call.
-/

namespace LinkState

open Calls CoordinatorServer PublisherClient

/-! ## The order of calls -/

namespace Network

variable {network : Network}

/-- The session carries the call out at the moment `k`, and `frame` is the reply, the only one. -/
structure CarriedOut (network : Network) (id : Nat) (call : Call Frame) (frame : Frame) (k : Nat) :
    Prop where
  begun : call.begun ≤ k
  answers : call.answers = [⟨frame, some k⟩]
  event : ∃ sent, network.log[k]? = some (.step (.frame id call.request sent))
  reply : frame = (network.serverAt k).replyTo id call.request

/-- A call that has got a reply was carried out, or refused. -/
theorem Reachable.replied (h : network.Reachable) {id : Nat} {call : Call Frame}
    (hcall : call ∈ (network.conn id).calls) {frame : Frame} {t : Nat}
    (hended : call.ended = some (.replied frame, t)) : frame.Sendable ∧
      (call.request.payload.length ≤ limits.maxFramePayloadBytes ∧
          (∃ k < t, network.CarriedOut id call frame k) ∨
        limits.maxFramePayloadBytes < call.request.payload.length ∧
          ∃ detail, frame = CoordinatorServer.refusal detail) := by
  have htraced := h.traced id
  have hsound := htraced.sound.calls call hcall
  obtain ⟨moment, hanswers, hbefore⟩ := hsound.replied frame t hended
  have hmem : (⟨frame, moment⟩ : Answer Frame) ∈ call.answers := by
    rw [hanswers]
    exact List.mem_singleton_self _
  obtain ⟨hsendable, haccounts⟩ := htraced.answers call hcall _ hmem
  refine ⟨hsendable, ?_⟩
  cases hmoment : moment with
  | none =>
    rw [hmoment] at haccounts
    exact .inr haccounts
  | some k =>
    rw [hmoment] at haccounts hmem hanswers
    obtain ⟨hsize, hevent, hreply⟩ := haccounts
    exact .inl ⟨hsize, k, hbefore k hmoment, (hsound.during _ hmem k rfl).1, hanswers, hevent, hreply⟩

end Network

/-- A call that has got a reply was carried out while it lasted, if its request is not too large, and
the reply is that of the coordinator then; otherwise it was refused. Whatever a session handles is
the request of one call, handled after the call has begun. The calls of a connection are carried out
in the order in which they were made. -/
theorem calls_linearized {network : Network} (h : network.Reachable) (id : Nat) :
    (∀ call ∈ (network.conn id).calls, ∀ frame t, call.ended = some (.replied frame, t) →
      (call.request.payload.length ≤ limits.maxFramePayloadBytes →
        ∃ k < t, network.CarriedOut id call frame k) ∧
      (limits.maxFramePayloadBytes < call.request.payload.length →
        ∃ detail, frame = CoordinatorServer.refusal detail)) ∧
    (∀ k frame sent, network.log[k]? = some (.step (.frame id frame sent)) →
      ∃ call ∈ (network.conn id).calls, call.request = frame ∧ call.begun ≤ k ∧
        ∃ reply, call.answers = [⟨reply, some k⟩]) ∧
    (network.conn id).calls.Pairwise fun later earlier => ∀ frame k frame' k',
      network.CarriedOut id earlier frame k → network.CarriedOut id later frame' k' → k < k' := by
  refine ⟨fun call hcall frame t hended => ?_, fun k frame sent hlog => ?_, ?_⟩
  · obtain ⟨-, ⟨hsize, hcarried⟩ | ⟨hlarge, hrefused⟩⟩ := h.replied hcall hended
    · exact ⟨fun _ => hcarried, fun hlarge => absurd hsize (not_le.mpr hlarge)⟩
    · exact ⟨fun hsize => absurd hsize (not_le.mpr hlarge), fun _ => hrefused⟩
  · obtain ⟨call, hcall, hrequest, reply, hanswers⟩ := (h.traced id).handled k frame sent hlog
    have hmem : (⟨reply, some k⟩ : Answer Frame) ∈ call.answers := by
      rw [hanswers]
      exact List.mem_singleton_self _
    exact ⟨call, hcall, hrequest, (((h.traced id).sound.calls call hcall).during _ hmem k rfl).1,
      reply, hanswers⟩
  · refine (h.traced id).sound.ordered.imp fun hprecedes frame k frame' k' hearlier hlater => ?_
    have hmem : (⟨frame, some k⟩ : Answer Frame) ∈ _ :=
      hearlier.answers ▸ List.mem_singleton_self _
    exact (hprecedes.carried _ hmem k rfl).trans_le hlater.begun

/-! ## The calls of a client -/

/-- What a client is told that has carried out a request. -/
structure Network.Answers (network : Network) (id : Nat) (message : Message) (frame : Frame)
    (response : Message) (k : Nat) : Prop where
  reply : response = ((network.serverAt k).answer ((network.serverAt k).session id) message.carried).reply.carried
  valid : ((network.serverAt k).answer ((network.serverAt k).session id) message.carried).reply.Valid
  type : frame.type =
    ((network.serverAt k).answer ((network.serverAt k).session id) message.carried).reply.type
  handled : (network.serverAt k).Handled id (requestFrame message frame.requestId)
    (network.serverAt (k + 1))
  decoded : requestOf (requestFrame message frame.requestId) = some message.carried

/-- A response that the client accepts is the reply of the coordinator to its message. -/
theorem Network.Reachable.answers {network : Network} (h : network.Reachable) {id : Nat}
    {call : Call Frame} (hcall : call ∈ (network.conn id).calls) {message : Message}
    {requestId : U64} (hrequest : call.request = requestFrame message requestId) {frame : Frame}
    {t : Nat} (hended : call.ended = some (.replied frame, t)) {expected : MessageType}
    (hexpected : expected ≠ .error) {response : Message}
    (haccepted : (accepted message requestId expected frame).response = some response) :
    ∃ k < t, call.begun ≤ k ∧ network.Answers id message frame response k := by
  obtain ⟨hid, htype, hdecode, -⟩ := of_accepted haccepted
  obtain ⟨hsendable, ⟨hsize, k, hk, hbegun, -, ⟨sent, hevent⟩, hreply⟩ | ⟨-, detail, hrefused⟩⟩ :=
    h.replied hcall hended
  case inr =>
    rw [hrefused] at htype
    exact absurd htype.symm hexpected
  refine ⟨k, hk, hbegun, ?_⟩
  rw [hrequest] at hsize hevent hreply
  unfold CoordinatorServer.replyTo at hreply
  -- The server has read the message back, since an error reply would not have been accepted.
  cases hrequested : decodeMessage message.type (encodeMessage message) with
  | error error =>
    have hframe : frame.type = .error := by
      rw [hreply]
      unfold requestFrame
      dsimp only
      rw [hrequested]
    exact absurd (htype.symm.trans hframe) hexpected
  | ok request =>
    obtain ⟨-, rfl⟩ := carried_of_decodeMessage (lt_of_le_of_lt hsize (by decide)) hrequested
    unfold requestFrame at hreply
    dsimp only at hreply
    rw [hrequested] at hreply
    dsimp only at hreply
    rw [hreply] at hdecode hsendable
    obtain ⟨hvalid, rfl⟩ := carried_of_decodeMessage hsendable hdecode
    refine ⟨rfl, hvalid, by rw [hreply], ?_, ?_⟩
    · rw [serverAt_succ hevent, hid]
      exact receiveFrame_handled _ id _ sent
    · unfold requestOf requestFrame
      dsimp only
      rw [hrequested]
      rfl

theorem outcome_of_reports {result : ResultMessage} {outcome told : Outcome}
    (h : Reports result outcome) (htold : Reports result told) (hchanged : told.stateChanged = false) :
    told = { outcome with stateChanged := false } := by
  obtain ⟨code, detail, stateGeneration, globalGeneration, evidenceGeneration, stateChanged⟩ := told
  dsimp only at hchanged
  rw [hchanged, ← h.code, ← h.detail, ← h.stateGeneration, ← h.evidenceGeneration,
    ← h.globalGeneration, htold.code, htold.detail, htold.stateGeneration, htold.evidenceGeneration,
    htold.globalGeneration]

theorem outcomeFor_stateChanged (type : MessageType) (response : Message) :
    (outcomeFor type response).stateChanged = false := by
  unfold outcomeFor
  split <;> rfl

/-- What a call of a client returns, if it gets an answer, is what its operation gives on the engine
at one moment while the call lasts, and the operation is carried out then. An invalidation of a
publisher that the session has not registered is refused, and nothing is carried out. -/
theorem client_calls_linearized {network : Network} (h : network.Reachable) {id : Nat}
    {call : Call Frame} (hcall : call ∈ (network.conn id).calls) {client : PublisherClient}
    {clientCall : ClientCall} {requestId : U64}
    (hrequest : call.request = requestFrame (client.message clientCall) requestId) {frame : Frame}
    {t : Nat} (hended : call.ended = some (.replied frame, t)) {response : Message}
    (haccepted : (accepted (client.message clientCall) requestId (expectedType clientCall)
      frame).response = some response)
    (hnames : clientCall.NamesBoot) (hordinary : (client.operation clientCall).Ordinary) :
    ∃ k < t, call.begun ≤ k ∧
      let told := (accepted (client.message clientCall) requestId (expectedType clientCall) frame).outcome
      let before := network.serverAt k
      let after := network.serverAt (k + 1)
      if (before.session id).permits (client.message clientCall) then
        after.engine = before.engine.apply (client.operation clientCall) ∧
          ∃ outcome, before.engine.outcome (client.operation clientCall) = some outcome ∧
            told = { outcome with stateChanged := false }
      else after.engine = before.engine ∧ told.code = .unauthorizedScope := by
  have hexpected : expectedType clientCall ≠ .error := by
    cases clientCall <;> exact MessageType.noConfusion
  obtain ⟨k, hk, hbegun, hanswers⟩ := h.answers hcall hrequest hended hexpected haccepted
  refine ⟨k, hk, hbegun, ?_⟩
  obtain ⟨-, htype, -, htold⟩ := of_accepted haccepted
  dsimp only
  rw [htold]
  dsimp only
  have hoperation := (operationOf_carried client clientCall).mpr hnames
  generalize hmessage : client.message clientCall = message at *
  obtain ⟨hreply, hvalid, hframe, hhandled, hdecoded⟩ := hanswers
  rw [← permits_carried]
  have hat : (network.serverAt k).operationAt id (requestFrame message frame.requestId) =
      ((network.serverAt k).session id).performed message.carried := by
    rw [operationAt, hdecoded, Option.bind_some]
  split
  -- The operation of the call is carried out, and its outcome is what the reply reports.
  · rename_i hpermits
    have hperformed : ((network.serverAt k).session id).performed message.carried =
        some (client.operation clientCall).observed := by
      rw [Session.performed, if_pos hpermits, hoperation]
    obtain ⟨happly, houtcome⟩ := apply_observed (network.serverAt k).engine hordinary
    obtain ⟨outcome, hperforms⟩ := answer_performs (network.serverAt k)
      ((network.serverAt k).session id) message.carried hperformed
    obtain ⟨-, -, hengine, -⟩ := hhandled.performs _ (hat.trans hperformed)
    refine ⟨hengine.trans happly, outcome, houtcome.symm.trans hperforms.outcome_eq, ?_⟩
    rw [hreply, hframe]
    exact outcome_of_reports hperforms.reply
      (outcomeFor_result (isResult_of_performed hperformed (network.serverAt k)))
      (outcomeFor_stateChanged ..)
  · rename_i hpermits
    have hperformed : ((network.serverAt k).session id).performed message.carried = none := by
      rw [Session.performed, if_neg hpermits]
    refine ⟨(hhandled.idle (hat.trans hperformed)).1, ?_⟩
    -- Only an invalidation can be refused to a session.
    obtain ⟨htype, hmay⟩ : message.carried.type = .invalidatePublisher ∧
        ((network.serverAt k).session id).mayInvalidate message.carried.invalidate.publisher =
          false := by
      simpa [Session.permits] using hpermits
    have hrefused : (network.serverAt k).answer ((network.serverAt k).session id) message.carried =
        (network.serverAt k).answerInvalidate ((network.serverAt k).session id)
          message.carried.invalidate := by
      unfold answer
      rw [htype]
    rw [hrefused, answerInvalidate, hmay] at hreply hframe
    rw [hreply, hframe]
    rfl

/-! ## Queries -/

/-- What a client is told of a link: no more than the state, and the generations. -/
structure Tells (link : LinkId) (view told : LinkStateView) : Prop where
  link : told.record.binding.link = link
  state : told.record.state = view.record.state
  stateGeneration : told.record.stateGeneration = view.record.stateGeneration
  evidenceGeneration : told.record.evidenceGeneration = view.record.evidenceGeneration
  globalGeneration : told.record.globalGeneration = view.record.globalGeneration
  topologyGeneration : told.record.binding.topologyGeneration =
    view.record.binding.topologyGeneration
  endpointGeneration : told.record.binding.endpoints.localGeneration =
    view.record.binding.endpoints.localGeneration

/-- What a client is told of a link is what the engine has of it. -/
def Reads (engine : Impl) (link : LinkId) (told : Transaction) : Prop :=
  match engine.linkState link with
  | none => told.view = none ∧ told.outcome.code = .unknownLink
  | some view => told.outcome.code = .committed ∧
    ∃ summary, told.view = some summary ∧ Tells link view summary

theorem Network.Reachable.query {network : Network} (h : network.Reachable) {id : Nat}
    {call : Call Frame} (hcall : call ∈ (network.conn id).calls) {link : LinkId} {requestId : U64}
    (hrequest : call.request = requestFrame (queryMessage link) requestId) {frame : Frame} {t : Nat}
    (hended : call.ended = some (.replied frame, t)) {response : Message}
    (haccepted : (accepted (queryMessage link) requestId .queryResult frame).response =
      some response) :
    ∃ k < t, call.begun ≤ k ∧ (network.serverAt (k + 1)).engine = (network.serverAt k).engine ∧
      Reads (network.serverAt k).engine link
        (accepted (queryMessage link) requestId .queryResult frame) := by
  obtain ⟨k, hk, hbegun, hreply, hvalid, hframe, hhandled, hdecoded⟩ :=
    h.answers hcall hrequest hended MessageType.noConfusion haccepted
  refine ⟨k, hk, hbegun, ?_⟩
  obtain ⟨-, htype, -, htold⟩ := of_accepted haccepted
  rw [htold, htype, hreply]
  -- A query is no operation, so that the engine stays.
  have hidle : (network.serverAt k).operationAt id (requestFrame (queryMessage link)
      frame.requestId) = none := by
    rw [operationAt, hdecoded]
    rfl
  refine ⟨(hhandled.idle hidle).1, ?_⟩
  have hanswer : ((network.serverAt k).answer ((network.serverAt k).session id)
      (queryMessage link).carried).reply.carried.result =
      ((network.serverAt k).answerQuery ((network.serverAt k).session id) { link }).reply.result := rfl
  unfold Reads viewOf outcomeFor
  dsimp only
  rw [hanswer]
  unfold CoordinatorServer.answerQuery
  dsimp only
  cases (network.serverAt k).engine.linkState link with
  | none => exact ⟨rfl, rfl⟩
  | some view => exact ⟨rfl, _, rfl, rfl, rfl, rfl, rfl, rfl, rfl, rfl⟩

/-- What a query returns, if it gets an answer, is the state of the link on the engine at one moment
while the query lasts, and the engine is as it was. -/
theorem queries_linearized {network : Network} (h : network.Reachable) {id : Nat} {call : Call Frame}
    (hcall : call ∈ (network.conn id).calls) {link : LinkId} {requestId : U64}
    (hrequest : call.request = requestFrame (queryMessage link) requestId) {frame : Frame} {t : Nat}
    (hended : call.ended = some (.replied frame, t)) {response : Message}
    (haccepted : (accepted (queryMessage link) requestId .queryResult frame).response =
      some response) :
    ∃ k < t, call.begun ≤ k ∧
      let told := accepted (queryMessage link) requestId .queryResult frame
      (network.serverAt (k + 1)).engine = (network.serverAt k).engine ∧
      match (network.serverAt k).engine.linkState link with
      | none => told.view = none ∧ told.outcome.code = .unknownLink
      | some view => told.outcome.code = .committed ∧
        ∃ summary, told.view = some summary ∧ Tells link view summary := by
  obtain ⟨k, hk, hbegun, hengine, hreads⟩ := h.query hcall hrequest hended haccepted
  exact ⟨k, hk, hbegun, hengine, hreads⟩

/-! ## Calls to their end -/

namespace Network

variable {network : Network}

theorem conn_apply {step : Step} {id : Nat} {move : Calls.Move Frame}
    (hmove : network.move step = some (id, move)) : (network.apply step).conn id =
      (network.conn id).apply framing network.log.length move := by
  rw [Network.apply, hmove]
  exact Function.update_self ..

theorem conn_other {step : Step} {id other : Nat} {move : Calls.Move Frame}
    (hmove : network.move step = some (id, move)) (hother : other ≠ id) :
    (network.apply step).conn other = network.conn other := by
  rw [Network.apply, hmove]
  exact Function.update_of_ne hother ..

/-- The steps of a call that nothing interrupts. -/
def wholeCall (id : Nat) (request reply : Frame) : List Step :=
  [.call id request request.encode.length, .arrive id request.encode.length,
    .handle id reply.encode.length, .receive id reply.encode.length, .finish id]

/-- What a call leaves that nothing interrupts. -/
structure Completed (network : Network) (id : Nat) (request reply : Frame) (after : Network) : Prop where
  log : after.log = network.log ++ [.step (.frame id request true)]
  call : (after.conn id).calls =
    { request, sent := true, begun := network.log.length
      answers := [⟨reply, some network.log.length⟩]
      ended := some (.replied reply, network.log.length + 1) } :: (network.conn id).calls
  others : ∀ other, other ≠ id → after.conn other = network.conn other

section Whole

variable {id : Nat} {request reply : Frame} {call : Call Frame} {calls : List (Call Frame)}
  {clock : Nat} {serving : Bool}

theorem decodeFrame_whole {frame : Frame} (h : frame.payload.length ≤ limits.maxFramePayloadBytes) :
    decodeFrame frame.encode = { status := .complete, frame, consumed := frame.encode.length } := by
  have hdecoded := decodeFrame_encode h []
  rwa [List.append_nil] at hdecoded

theorem scanFrame_whole {frame : Frame} (h : frame.payload.length ≤ limits.maxFramePayloadBytes) :
    scanFrame frame.encode = .frame frame frame.encode.length := by
  rw [scanFrame_eq_frame, decodeFrame_whole h]
  exact ⟨rfl, rfl, rfl⟩

theorem sendable_of_length {frame : Frame} (h : frame.payload.length ≤ limits.maxFramePayloadBytes) :
    frame.Sendable := lt_of_le_of_lt h (by decide)

/-- A client that waits for nothing sends a request, and all of it arrives. -/
theorem arrival (h : network.Reachable) (hserving : network.server.Serving id)
    (hconnected : (network.conn id).connected = true) (hidle : ¬ (network.conn id).Outstanding)
    (hsendable : request.Sendable) :
    let called := network.apply (.call id request request.encode.length)
    let after := called.apply (.arrive id request.encode.length)
    network.Enabled (.call id request request.encode.length) ∧
      called.Enabled (.arrive id request.encode.length) ∧ after.log = network.log ∧
      after.server = network.server ∧ after.conn id =
        { inbox := request.encode
          calls := { request, sent := true, begun := network.log.length } :: (network.conn id).calls
          clock := network.log.length } := by
  intro called after
  have hsound := (h.traced id).sound
  have hopen := h.agrees.serving id hserving.2
  -- Nothing of an earlier call is on its way.
  have hup := List.append_eq_nil_iff.mp (hsound.idle_up hconnected hidle hopen)
  have hdown := List.append_eq_nil_iff.mp (hsound.idle_down hconnected hidle)
  have hcalled : called.conn id =
      { up := request.encode
        calls := { request, sent := true, begun := network.log.length } :: (network.conn id).calls
        clock := network.log.length } := by
    refine (conn_apply rfl).trans ?_
    simp [Conn.apply, framing, hup, hdown, hopen]
  have hlog : called.log = network.log := List.append_nil _
  have hserver : called.server = network.server := server_apply
  refine ⟨⟨trivial, fun id' move heq => ?_⟩, ⟨?_, fun id' move heq => ?_⟩,
    (List.append_nil _).trans hlog, server_apply.trans hserver, ?_⟩
  · cases heq
    exact ⟨hconnected, hidle, hsendable⟩
  · show called.server.Serving id
    rw [hserver]
    exact hserving
  · cases heq
    show (called.conn id).serving = true
    rw [hcalled]
  · refine (conn_apply rfl).trans ?_
    rw [hcalled, hlog]
    simp [Conn.apply]

/-- The session handles a request that has arrived. -/
theorem handling (hserving : network.server.Serving id)
    (hconn : network.conn id = { inbox := request.encode, calls := call :: calls, clock })
    (hanswers : call.answers = []) (hresponse : network.server.replyTo id request = reply)
    (hrequest : request.payload.length ≤ limits.maxFramePayloadBytes) (hsendable : reply.Sendable) :
    let after := network.apply (.handle id reply.encode.length)
    network.Enabled (.handle id reply.encode.length) ∧
      after.log = network.log ++ [.step (.frame id request true)] ∧ after.conn id =
        { serving := CoordinatorServer.keepsOpen request, down := reply.encode
          calls := { call with answers := [⟨reply, some network.log.length⟩] } :: calls
          clock := network.log.length + 1 } := by
  have hscanned : network.scanned id =
      { status := .complete, frame := request, consumed := request.encode.length } := by
    rw [scanned, hconn, decodeFrame_whole hrequest]
  have hreply : network.response id = reply := by rw [response, hscanned, hresponse]
  refine ⟨⟨hserving, fun id' move heq => ?_⟩, ?_, ?_⟩
  · cases heq
    show (network.conn id).Enabled framing
      (.handle (network.scanned id).consumed (network.response id) _ _)
    rw [hscanned, hreply, hconn]
    exact ⟨rfl, ⟨request, scanFrame_whole hrequest⟩, hsendable⟩
  · show network.log ++ [Event.step (.frame id (network.scanned id).frame
      (decide ((network.response id).encode.length ≤ reply.encode.length)))] = _
    rw [hscanned, hreply, decide_eq_true le_rfl]
  · refine (conn_apply rfl).trans ?_
    rw [hconn, hscanned, hreply]
    simp [Conn.apply, Conn.answer, framing, hanswers]

/-- A client receives the reply that was sent to it, and its call returns. -/
theorem returning
    (hconn : network.conn id = { serving, down := reply.encode, calls := call :: calls, clock })
    (hended : call.ended = none) (hreply : reply.payload.length ≤ limits.maxFramePayloadBytes) :
    let received := network.apply (.receive id reply.encode.length)
    let after := received.apply (.finish id)
    network.Enabled (.receive id reply.encode.length) ∧ received.Enabled (.finish id) ∧
      after.log = network.log ∧
      (after.conn id).calls =
        { call with ended := some (.replied reply, network.log.length) } :: calls := by
  intro received after
  have hlog : received.log = network.log := List.append_nil _
  have hreceived : received.conn id =
      { serving, buffer := reply.encode, calls := call :: calls, clock := network.log.length } := by
    refine (conn_apply rfl).trans ?_
    rw [hconn]
    simp [Conn.apply]
  -- The reply is whole in the buffer, and is read back as it was sent.
  have htaken : (decodeFrame (received.conn id).buffer).frame = reply := by
    rw [hreceived, decodeFrame_whole hreply]
  refine ⟨⟨trivial, fun id' move heq => ?_⟩, ⟨trivial, fun id' move heq => ?_⟩,
    (List.append_nil _).trans hlog, ?_⟩
  · cases heq
    show (network.conn id).connected = true ∧ (network.conn id).Outstanding
    rw [hconn]
    exact ⟨rfl, call, calls, rfl, hended⟩
  · cases heq
    show (received.conn id).Enabled framing (.finish (decodeFrame (received.conn id).buffer).frame)
    rw [htaken, hreceived]
    exact ⟨rfl, ⟨call, calls, rfl, hended⟩, reply.encode.length, scanFrame_whole hreply⟩
  · have hfinished : after.conn id =
        { (received.conn id).endCall (.replied reply) received.log.length with
          clock := received.log.length } := by
      refine (conn_apply rfl).trans ?_
      rw [htaken]
      rfl
    rw [hfinished, hreceived, hlog]
    rfl

/-- The steps of a call are steps of its connection. -/
theorem wholeCall_other {other : Nat} (hother : other ≠ id) :
    ((wholeCall id request reply).foldl apply network).conn other = network.conn other := by
  unfold wholeCall
  simp only [List.foldl_cons, List.foldl_nil]
  iterate 5 rw [conn_other rfl hother]

/-- A call that nothing interrupts is carried out, and returns the reply. -/
theorem complete (h : network.Reachable) (hserving : network.server.Serving id)
    (hconnected : (network.conn id).connected = true) (hidle : ¬ (network.conn id).Outstanding)
    (hrequest : request.payload.length ≤ limits.maxFramePayloadBytes)
    (hreply : (network.server.replyTo id request).payload.length ≤ limits.maxFramePayloadBytes) :
    Runs.Admissible apply Enabled network
        (wholeCall id request (network.server.replyTo id request)) ∧
      network.Completed id request (network.server.replyTo id request)
        ((wholeCall id request (network.server.replyTo id request)).foldl apply network) := by
  generalize hresponse : network.server.replyTo id request = reply at *
  obtain ⟨hcall, harrive, hlog, hserver, hconn⟩ :=
    arrival h hserving hconnected hidle (sendable_of_length hrequest)
  obtain ⟨hhandle, hlog', hconn'⟩ := handling (hserver ▸ hserving) hconn rfl
    (hserver ▸ hresponse) hrequest (sendable_of_length hreply)
  obtain ⟨hreceive, hfinish, hlog'', hcalls⟩ := returning hconn' rfl hreply
  rw [hlog] at hlog' hcalls
  refine ⟨⟨hcall, harrive, hhandle, hreceive, hfinish, trivial⟩, hlog''.trans hlog',
    hcalls.trans ?_, fun other hother => wholeCall_other hother⟩
  rw [hlog', List.length_append]
  rfl

end Whole

end Network

theorem replyTo_of_valid (server : CoordinatorServer) (id : Nat) {message : Message}
    (hvalid : message.Valid) (requestId : U64) :
    server.replyTo id (requestFrame message requestId) =
      requestFrame (server.answer (server.session id) message.carried).reply requestId := by
  unfold replyTo requestFrame
  dsimp only
  rw [decodeMessage_encodeMessage hvalid]

section Replies

variable (server : CoordinatorServer) (id : Nat) {message : Message} (hvalid : message.Valid)
  (hanswerable : server.Answerable message.carried) (requestId : U64)
include hvalid hanswerable

/-- A legible reply has a frame. -/
theorem length_replyTo : (server.replyTo id (requestFrame message requestId)).payload.length ≤
    limits.maxFramePayloadBytes := by
  have hreply := (reply_valid_iff server (server.session id) message.carried).mpr hanswerable
  rw [replyTo_of_valid server id hvalid]
  exact length_encodeMessage_reply (reply_isReply ..) hreply

/-- The client accepts a legible reply of the type that it expects. -/
theorem accepted_replyTo {expected : MessageType}
    (hexpected : (server.answer (server.session id) message.carried).reply.type = expected) :
    (accepted message requestId expected
      (server.replyTo id (requestFrame message requestId))).response =
      some (server.answer (server.session id) message.carried).reply.carried := by
  have hreply := (reply_valid_iff server (server.session id) message.carried).mpr hanswerable
  rw [replyTo_of_valid server id hvalid, ← hexpected]
  unfold accepted requestFrame
  rw [outcomeOf_reply requestId hreply]

end Replies

/-- Whatever the other clients do, a client that waits for nothing, and whose session is served, can
make any call whose reply is legible: the steps of its connection complete it, and the client
accepts the reply. -/
theorem calls_complete {network : Network} (h : network.Reachable) {id : Nat}
    (hserving : network.server.Serving id) (hconnected : (network.conn id).connected = true)
    (hidle : ¬ (network.conn id).Outstanding) {message : Message} (hvalid : message.Valid)
    (hsize : (encodeMessage message).length ≤ limits.maxFramePayloadBytes)
    (hanswerable : network.server.Answerable message.carried) (requestId : U64) :
    let request := requestFrame message requestId
    let reply := network.server.replyTo id request
    let steps := Network.wholeCall id request reply
    Runs.Admissible Network.apply Network.Enabled network steps ∧
      network.Completed id request reply (steps.foldl Network.apply network) ∧
      (accepted message requestId reply.type reply).response =
        some (network.server.answer (network.server.session id) message.carried).reply.carried := by
  obtain ⟨hadmissible, hcompleted⟩ := Network.complete h hserving hconnected hidle hsize
    (length_replyTo network.server id hvalid hanswerable requestId)
  refine ⟨hadmissible, hcompleted,
    accepted_replyTo network.server id hvalid hanswerable requestId ?_⟩
  rw [replyTo_of_valid network.server id hvalid]
  rfl

namespace Sample

/-- The network of the coordinator of the small run, with one session. -/
def network : Network := Network.apply { first := coordinator } (.act .accept)

theorem network_reachable : network.Reachable := by
  have hengine : engine.Reachable := Impl.Reachable.foldl (.start ⟨{}, rfl⟩) _
  refine .step _ (.start ⟨⟨rfl, hengine, rfl, fun _ => rfl, rfl⟩, rfl, fun _ => rfl⟩) ⟨rfl, ?_⟩
  intro id move heq
  cases heq

theorem network_serving : network.server.Serving 0 := by decide

theorem network_idle : ¬ (network.conn 0).Outstanding := by
  rintro ⟨call, rest, heq, -⟩
  cases heq

/-- The network after a call that nothing interrupts. -/
def called (message : Message) : Network :=
  (Network.wholeCall 0 (requestFrame message 1)
    (network.server.replyTo 0 (requestFrame message 1))).foldl Network.apply network

/-- The call. -/
def callOf (message : Message) : Call Frame where
  request := requestFrame message 1
  sent := true
  begun := 1
  answers := [⟨network.server.replyTo 0 (requestFrame message 1), some 1⟩]
  ended := some (.replied (network.server.replyTo 0 (requestFrame message 1)), 2)

theorem called_sound {message : Message} (hvalid : message.Valid)
    (hsize : (encodeMessage message).length ≤ limits.maxFramePayloadBytes)
    (hanswerable : network.server.Answerable message.carried) :
    (called message).Reachable ∧ callOf message ∈ ((called message).conn 0).calls := by
  obtain ⟨hadmissible, hcompleted⟩ := Network.complete network_reachable network_serving rfl
    network_idle hsize (length_replyTo _ _ hvalid hanswerable _)
  refine ⟨network_reachable.foldl hadmissible, ?_⟩
  show callOf message ∈ (((Network.wholeCall 0 (requestFrame message 1)
    (network.server.replyTo 0 (requestFrame message 1))).foldl Network.apply network).conn 0).calls
  rw [hcompleted.call]
  exact List.mem_cons_self

theorem queryMessage_valid : (queryMessage link).Valid := by
  show link.valid = true
  decide

end Sample

theorem calls_linearized_sample : ∃ k < 2, (Sample.called (Sample.client.message .register)).CarriedOut 0
    (Sample.callOf (Sample.client.message .register))
    (Sample.network.server.replyTo 0 (requestFrame (Sample.client.message .register) 1)) k :=
  have hsound := Sample.called_sound registerMessage_valid (by decide) trivial
  ((calls_linearized hsound.1 0).1 _ hsound.2 _ 2 rfl).1 (by decide)

theorem client_calls_linearized_sample : ∃ k < 2, 1 ≤ k ∧
    ((Sample.called (Sample.client.message .register)).serverAt (k + 1)).engine =
      ((Sample.called (Sample.client.message .register)).serverAt k).engine.apply
        (Sample.client.operation .register) := by
  have hsound := Sample.called_sound registerMessage_valid (by decide) trivial
  obtain ⟨k, hk, hbegun, htold⟩ := client_calls_linearized hsound.1 hsound.2 rfl rfl
    (accepted_replyTo _ _ registerMessage_valid trivial _ rfl) trivial trivial
  exact ⟨k, hk, hbegun, htold.1⟩

theorem queries_linearized_sample : ∃ k < 2, 1 ≤ k ∧
    ((Sample.called (queryMessage Sample.link)).serverAt (k + 1)).engine =
      ((Sample.called (queryMessage Sample.link)).serverAt k).engine := by
  have hsound := Sample.called_sound Sample.queryMessage_valid (by decide) trivial
  obtain ⟨k, hk, hbegun, hengine, -⟩ := queries_linearized hsound.1 hsound.2 rfl rfl
    (accepted_replyTo _ _ Sample.queryMessage_valid trivial _ rfl)
  exact ⟨k, hk, hbegun, hengine⟩

theorem calls_complete_sample :
    Sample.network.Completed 0 (requestFrame (Sample.client.message .register) 1)
      (Sample.network.server.replyTo 0 (requestFrame (Sample.client.message .register) 1))
      (Sample.called (Sample.client.message .register)) :=
  (calls_complete Sample.network_reachable Sample.network_serving rfl Sample.network_idle
    registerMessage_valid (by decide) trivial 1).2.1

end LinkState
