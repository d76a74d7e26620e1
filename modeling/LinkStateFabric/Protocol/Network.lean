import LinkStateFabric.Lib.Calls
import LinkStateFabric.Protocol.Registrations

/-!
# Clients and the coordinator

Each client has a connection, and each connection a session of the coordinator. Clients, sessions,
the program that owns the engine and the transport make their steps in any order.

* `framing`: frames of the protocol as they are taken off a buffer. A frame of 4 GiB, whose length
  does not fit in its header, cannot be sent.
* `Network`: the coordinator with a log of its steps, and the connections. What the two sides of a
  connection do is a `Calls.Move`; what the coordinator does meanwhile is an `Event`.
* `Network.Traced`: what the log says of the calls. Every step keeps it (`Network.Reachable.traced`).

A connection has the number of its session. One that the coordinator turns away has none, and
nothing is ever received on it.
-/

namespace LinkState

open Calls Codec

/-! ## Frames on a connection -/

/-- The length of the payload fits in the header. -/
def Frame.Sendable (frame : Frame) : Prop := frame.payload.length < 2 ^ 32

/-- What `decode_frame` finds at the front of a buffer. -/
def scanFrame (buffer : Bytes) : Scan Frame :=
  match (decodeFrame buffer).status with
  | .complete => .frame (decodeFrame buffer).frame (decodeFrame buffer).consumed
  | .incomplete => .incomplete
  | _ => .broken

theorem scanFrame_eq_frame {buffer : Bytes} {frame : Frame} {length : Nat} :
    scanFrame buffer = .frame frame length ↔ (decodeFrame buffer).status = .complete ∧
      (decodeFrame buffer).frame = frame ∧ (decodeFrame buffer).consumed = length := by
  unfold scanFrame
  split <;> rename_i h <;> simp_all

/-- A frame that is too large is refused as soon as its header is there. -/
theorem decodeFrame_oversized {frame : Frame} (hsendable : frame.Sendable)
    (hsize : limits.maxFramePayloadBytes < frame.payload.length) {part : Bytes}
    (hpre : part <+: frame.encode) : (decodeFrame part).status ≠ .complete := by
  rcases lt_or_ge part.length frameHeaderBytes with hshort | hlong
  · rw [decodeFrame, if_pos hshort]
    exact FrameDecodeStatus.noConfusion
  · have hheader : frameHeader frame.type frame.requestId frame.payload.length <+: part := by
      refine List.prefix_of_prefix_length_le ?_ hpre (by rwa [length_frameHeader])
      rw [frame.encode_eq]
      exact List.prefix_append _ _
    obtain ⟨rest, rfl⟩ := hheader
    obtain ⟨refusal, hread⟩ := (reads_readFrameHeader frame.type frame.requestId hsendable).reject
      (not_le.mpr hsize) rest
    rw [decodeFrame, if_neg (not_lt.mpr hlong), hread]
    exact not_complete_of_refused hread

/-- Of a part of a frame nothing is taken for a frame but the whole. -/
theorem scanFrame_part {frame taken : Frame} {part : Bytes} {length : Nat}
    (hsendable : frame.Sendable) (hpre : part <+: frame.encode)
    (h : scanFrame part = .frame taken length) :
    part = frame.encode ∧ taken = frame ∧ length = part.length := by
  obtain ⟨hstatus, htaken, hlength⟩ := scanFrame_eq_frame.mp h
  rcases le_or_gt frame.payload.length limits.maxFramePayloadBytes with hsize | hsize
  · have hwhole : part = frame.encode := by
      refine hpre.eq_of_length (le_antisymm hpre.length_le (not_lt.mp fun hshort => ?_))
      rw [decodeFrame_part hsize hpre hshort] at hstatus
      cases hstatus
    have hdecoded := decodeFrame_encode hsize []
    rw [List.append_nil, ← hwhole] at hdecoded
    rw [hdecoded] at htaken hlength
    exact ⟨hwhole, htaken.symm, hlength.symm⟩
  · exact absurd hstatus (decodeFrame_oversized hsendable hsize hpre)

def framing : Framing UInt8 Frame where
  encode := Frame.encode
  scan := scanFrame
  Sendable := Frame.Sendable
  scan_nil := by
    have h : (decodeFrame []).status = .incomplete := by decide
    rw [scanFrame, h]
  scan_part := scanFrame_part

/-! ## Sessions -/

namespace CoordinatorServer

variable (server : CoordinatorServer) (id : Nat) (frame : Frame)

/-- The response to a frame of a session. -/
def replyTo : Frame :=
  match decodeMessage frame.type frame.payload with
  | .error error =>
    { type := .error
      requestId := frame.requestId
      payload := encodeMessage
        { type := .error, result := { code := .malformedRequest, detail := error } } }
  | .ok request =>
    let reply := (server.answer (server.session id) request).reply
    { type := reply.type, requestId := frame.requestId, payload := encodeMessage reply }

/-- The session stays open after a frame whose response is sent. -/
def keepsOpen (frame : Frame) : Bool :=
  match decodeMessage frame.type frame.payload with
  | .error _ => false
  | .ok request => request.type ≠ .shutdown

/-- The frame of `fail_protocol`. -/
def refusal (detail : Text) : Frame where
  type := .error
  requestId := 0
  payload := encodeMessage { type := .error, result := { code := .malformedRequest, detail } }

/-- The loop of a session refuses what it has received and ends. -/
def reject : CoordinatorServer :=
  { server with framesRejected := server.framesRejected + 1 }.putSession id
    { server.session id with serving := false }

variable {server id frame}

/-- A reply depends on the engine, on the configuration and on the second reads of hellos only. -/
theorem answer_reply_congr {counted : CoordinatorServer} (hconfig : counted.config = server.config)
    (hengine : counted.engine = server.engine) (hcounts : counted.linkCounts = server.linkCounts)
    (session : Session) (request : Message) :
    (counted.answer session request).reply = (server.answer session request).reply := by
  unfold answer
  split
  case h_1 => simp only [answerHello, hconfig, hengine, hcounts]
  case h_2 => simp only [answerRegister, hengine]
  case h_3 => simp only [answerPublish, hengine]
  case h_4 => simp only [answerWithdraw, hengine]
  case h_5 =>
    unfold answerInvalidate
    split
    · rfl
    · simp only [hengine]
  case h_6 => simp only [answerQuery, hengine]
  all_goals rfl

theorem answer_keepOpen (session : Session) (request : Message) :
    (server.answer session request).keepOpen = decide (request.type ≠ .shutdown) := by
  unfold answer
  split <;> rename_i htype <;> rw [htype]
  case h_5 =>
    unfold answerInvalidate
    split <;> rfl
  all_goals rfl

/-- What `handle_frame` gives to the receive loop. -/
theorem handleFrame_replyTo {counted : CoordinatorServer} (hconfig : counted.config = server.config)
    (hengine : counted.engine = server.engine) (hcounts : counted.linkCounts = server.linkCounts) :
    (counted.handleFrame (server.session id) frame).2.2 =
      ((server.replyTo id frame).encode, keepsOpen frame) := by
  unfold handleFrame replyTo keepsOpen
  cases decodeMessage frame.type frame.payload with
  | error error => rfl
  | ok request =>
    have hreply := @answer_reply_congr server
      { counted with requestsHandled := counted.requestsHandled + 1 } hconfig hengine
      hcounts (server.session id) request
    dsimp only at hreply ⊢
    rw [answer_keepOpen, hreply]
    rfl

theorem noted_serving (session : Session) (request : Message) (outcome : Option Outcome) :
    (session.noted request outcome).serving = session.serving := by
  unfold Session.noted Session.note
  split
  · rfl
  · split
    · rfl
    · split <;> rfl
  · rfl

theorem answer_serving (session : Session) (request : Message) :
    (server.answer session request).session.serving = session.serving := by
  cases hop : session.performed request with
  | none => rw [(answer_idle server session request hop).2.2, noted_serving]
  | some op =>
    obtain ⟨outcome, h⟩ := answer_performs server session request hop
    rw [h.session, noted_serving]

theorem handleFrame_serving (session : Session) :
    (server.handleFrame session frame).2.1.serving = session.serving := by
  unfold handleFrame
  cases decodeMessage frame.type frame.payload with
  | error error => rfl
  | ok request => exact answer_serving session request

/-- The receive loop goes on after a frame exactly if the response is sent and the session stays
open. -/
theorem receiveFrame_serving (sent : Bool) :
    ((server.receiveFrame id frame sent).session id).serving =
      ((server.session id).serving && (sent && keepsOpen frame)) := by
  have hreply := @handleFrame_replyTo server id frame
    { server with framesReceived := server.framesReceived + 1 } rfl rfl rfl
  have hserving := @handleFrame_serving { server with framesReceived := server.framesReceived + 1 }
    frame (server.session id)
  unfold receiveFrame turn handlers
  dsimp only
  generalize handleFrame { server with framesReceived := server.framesReceived + 1 }
    (server.session id) frame = handled at hreply hserving
  obtain ⟨server', session, response, keepOpen⟩ := handled
  obtain ⟨rfl, rfl⟩ := Prod.mk.inj hreply
  have hne : (server.replyTo id frame).encode ≠ [] := fun hnil => by
    have hlength := congrArg List.length hnil
    rw [Frame.length_encode] at hlength
    have : frameIntegrityBytes = 8 := rfl
    rw [List.length_nil] at hlength
    omega
  dsimp only at hserving ⊢
  rw [if_neg hne]
  cases hopen : sent && keepsOpen frame with
  | false => rw [Bool.and_false, putSession_session]
  | true => rw [Bool.and_true, putSession_session, hserving]

end CoordinatorServer

/-! ## The network -/

/-- What the coordinator does: a step, or the refusal of what a session has received. -/
inductive Event where
  | step (act : CoordinatorServer.Act)
  | reject (id : Nat)

def Event.apply (server : CoordinatorServer) : Event → CoordinatorServer
  | .step act => server.apply act
  | .reject id => server.reject id

structure Network where
  /-- The coordinator as it has started. -/
  first : CoordinatorServer
  /-- The events, the oldest first. -/
  log : List Event := []
  /-- The connections, by the numbers of their sessions. -/
  conn : Nat → Conn UInt8 Frame := fun _ => {}

namespace Network

variable (network : Network)

/-- The coordinator after the first `k` events. -/
def serverAt (k : Nat) : CoordinatorServer := (network.log.take k).foldl Event.apply network.first

/-- The coordinator now. -/
def server : CoordinatorServer := network.log.foldl Event.apply network.first

/-- A step of the coordinator, of a client or of a transport. Of what is sent or received, `n` bytes
are. -/
inductive Step where
  | act (act : CoordinatorServer.Act)
  | call (id : Nat) (request : Frame) (n : Nat)
  | arrive (id n : Nat)
  | handle (id n : Nat)
  | refuse (id n : Nat)
  | receive (id n : Nat)
  | finish (id : Nat)
  | fail (id : Nat)

/-- What is at the front of the buffer of a session. -/
def scanned (id : Nat) : FrameDecodeResult := decodeFrame (network.conn id).inbox

/-- The response to what is at the front of the buffer of a session. -/
def response (id : Nat) : Frame := network.server.replyTo id (network.scanned id).frame

/-- The move on a connection that a step is. -/
def move : Step → Option (Nat × Calls.Move Frame)
  | .act _ => none
  | .call id request n => some (id, .call request n)
  | .arrive id n => some (id, .arrive n)
  | .handle id n => some (id, .handle (network.scanned id).consumed (network.response id) n
    (CoordinatorServer.keepsOpen (network.scanned id).frame))
  | .refuse id n => some (id, .refuse (CoordinatorServer.refusal (violation (network.scanned id))) n)
  | .receive id n => some (id, .receive n)
  | .finish id => some (id, .finish (decodeFrame (network.conn id).buffer).frame)
  | .fail id => some (id, .fail)

/-- The event of a step. -/
def event : Step → Option Event
  | .act act => some (.step act)
  | .handle id n => some (.step (.frame id (network.scanned id).frame
    (decide ((network.response id).encode.length ≤ n))))
  | .refuse id _ => some (.reject id)
  | _ => none

/-- When the coordinator allows a step. -/
def Permits : Step → Prop
  | .act (.frame _ _ _) => False
  | .act act => network.server.Enabled act
  | .arrive id _ | .handle id _ => network.server.Serving id
  | .refuse id _ => network.server.Serving id ∧
    (network.scanned id).status ≠ .incomplete ∧ (network.scanned id).status ≠ .complete
  | .call _ _ _ | .receive _ _ | .finish _ | .fail _ => True

/-- When a step can be made. -/
def Enabled (step : Step) : Prop :=
  network.Permits step ∧
    ∀ id move, network.move step = some (id, move) → (network.conn id).Enabled framing move

/-- The effect of a step. -/
def apply (step : Step) : Network where
  first := network.first
  log := network.log ++ (network.event step).toList
  conn := match network.move step with
    | none => network.conn
    | some (id, move) => Function.update network.conn id
      ((network.conn id).apply framing network.log.length move)

/-- A network whose coordinator has just started. -/
structure Started (network : Network) : Prop where
  first : network.first.Started
  log : network.log = []
  conn : ∀ id, network.conn id = {}

/-- The networks that runs reach. -/
abbrev Reachable : Network → Prop := Runs.Run Started apply Enabled

/-! ## What the log says -/

variable {network} {step : Step}

theorem serverAt_length : network.serverAt network.log.length = network.server := by
  rw [serverAt, List.take_length, server]

theorem serverAt_apply {k : Nat} (hk : k ≤ network.log.length) :
    (network.apply step).serverAt k = network.serverAt k := by
  rw [serverAt, serverAt, Network.apply, List.take_append_of_le_length hk]

theorem serverAt_succ {k : Nat} {event : Event} (h : network.log[k]? = some event) :
    network.serverAt (k + 1) = event.apply (network.serverAt k) := by
  rw [serverAt, serverAt, List.take_add_one, h, List.foldl_append]
  rfl

theorem log_apply {k : Nat} (hk : k < network.log.length) :
    (network.apply step).log[k]? = network.log[k]? := by
  rw [Network.apply, List.getElem?_append_left hk]

/-- What the log says of an answer to a call. What was carried out was answered then; what was not
was refused, since it is too large. -/
def Accounts (network : Network) (id : Nat) (call : Call Frame) (answer : Answer Frame) : Prop :=
  answer.frame.Sendable ∧ match answer.moment with
  | some k => call.request.payload.length ≤ limits.maxFramePayloadBytes ∧
    (∃ sent, network.log[k]? = some (.step (.frame id call.request sent))) ∧
    answer.frame = (network.serverAt k).replyTo id call.request
  | none => limits.maxFramePayloadBytes < call.request.payload.length ∧
    ∃ detail, answer.frame = CoordinatorServer.refusal detail

/-- What the log says of a connection. -/
structure Traced (network : Network) (id : Nat) : Prop where
  sound : (network.conn id).Sound framing
  clock : (network.conn id).clock ≤ network.log.length
  answers : ∀ call ∈ (network.conn id).calls, ∀ answer ∈ call.answers,
    network.Accounts id call answer
  /-- A frame that the session has handled is the request of a call. -/
  handled : ∀ k frame sent, network.log[k]? = some (.step (.frame id frame sent)) →
    ∃ call ∈ (network.conn id).calls, call.request = frame ∧
      ∃ reply, call.answers = [⟨reply, some k⟩]

theorem Accounts.apply {id : Nat} {call call' : Call Frame} {answer : Answer Frame}
    (h : network.Accounts id call answer) (hrequest : call.request = call'.request)
    (hmoment : ∀ k, answer.moment = some k → k < network.log.length) :
    (network.apply step).Accounts id call' answer := by
  unfold Accounts at h ⊢
  rw [← hrequest]
  refine ⟨h.1, ?_⟩
  replace h := h.2
  split
  · rename_i k hk
    rw [hk] at h
    rw [log_apply (hmoment k hk), serverAt_apply (hmoment k hk).le]
    exact h
  · rename_i hnone
    rw [hnone] at h
    exact h

/-- A session handles a frame only where its connection does. -/
theorem event_frame (hpermits : network.Permits step) {id : Nat} {frame : Frame} {sent : Bool}
    (h : network.event step = some (.step (.frame id frame sent))) :
    ∃ n, step = .handle id n ∧ (network.scanned id).frame = frame := by
  cases step with
  | act act =>
    cases h
    exact hpermits.elim
  | handle id n =>
    cases h
    exact ⟨n, rfl, rfl⟩
  | _ => cases h

theorem clock_apply {id : Nat} {move : Calls.Move Frame}
    (hmove : network.move step = some (id, move)) :
    ((network.conn id).apply framing network.log.length move).clock ≤
      (network.apply step).log.length := by
  unfold Network.apply
  rw [List.length_append]
  cases step with
  | act act => cases hmove
  | handle id n =>
    cases hmove
    exact le_rfl
  | call _ _ _ | arrive _ _ | refuse _ _ | receive _ _ | finish _ | fail _ =>
    cases hmove
    exact Nat.le_add_right _ _

/-- What a step answers is what the coordinator replies, or a refusal. -/
theorem accounts_gives (hpermits : network.Permits step) {id : Nat} {move : Calls.Move Frame}
    (hmove : network.move step = some (id, move))
    (henabled : (network.conn id).Enabled framing move) {call : Call Frame} {answer : Answer Frame}
    (hgives : Conn.Gives framing (network.conn id) network.log.length call answer move) :
    (network.apply step).Accounts id call answer := by
  cases step with
  | act act => cases hmove
  | handle id n =>
    cases hmove
    obtain ⟨hscan, rfl⟩ := hgives
    obtain ⟨-, hframe, -⟩ := scanFrame_eq_frame.mp hscan
    obtain ⟨hsize, -⟩ := encode_of_decodeFrame (scanFrame_eq_frame.mp hscan).1
    refine ⟨henabled.2.2, hframe ▸ hsize, ⟨decide ((network.response id).encode.length ≤ n), ?_⟩, ?_⟩
    · rw [← hframe]
      exact List.getElem?_concat_length
    · rw [serverAt_apply le_rfl, serverAt_length, ← hframe]
      rfl
  | refuse id n =>
    cases hmove
    obtain ⟨hpre, hsendable, rfl⟩ := hgives
    obtain ⟨-, hincomplete, hcomplete⟩ := hpermits
    -- The session refuses a frame only where it would not read it, which is a payload above the
    -- limit.
    refine ⟨henabled.2.2, not_le.mp fun hsize => ?_, _, rfl⟩
    rcases lt_or_ge (network.conn id).inbox.length call.request.encode.length with hshort | hlong
    · exact hincomplete (decodeFrame_part hsize hpre hshort)
    · have hwhole : (network.conn id).inbox = call.request.encode :=
        hpre.eq_of_length (le_antisymm hpre.length_le hlong)
      refine hcomplete ?_
      have hdecoded := decodeFrame_encode hsize []
      rw [List.append_nil, ← hwhole] at hdecoded
      rw [scanned, hdecoded]
  | call _ _ _ | arrive _ _ | receive _ _ | finish _ | fail _ =>
    cases hmove
    exact hgives.elim

/-- What was handled before a step, and what is handled by it. -/
theorem log_frame {id k : Nat} {frame : Frame} {sent : Bool}
    (h : (network.apply step).log[k]? = some (.step (.frame id frame sent))) :
    network.log[k]? = some (.step (.frame id frame sent)) ∨
      k = network.log.length ∧ network.event step = some (.step (.frame id frame sent)) := by
  rcases lt_or_ge k network.log.length with hlt | hge
  · exact .inl ((log_apply hlt).symm.trans h)
  unfold Network.apply at h
  rw [List.getElem?_append_right hge] at h
  obtain ⟨hindex, hevent⟩ := List.getElem?_eq_some_iff.mp h
  cases hstep : network.event step with
  | none =>
    rw [hstep] at hindex
    cases hindex
  | some event =>
    rw [hstep, Option.toList_some, List.length_singleton] at hindex
    simp only [hstep, Option.toList_some, List.getElem_singleton] at hevent
    exact .inr ⟨by omega, by rw [hevent]⟩

section Traced

variable {id : Nat} (h : network.Traced id)
include h

theorem Traced.before {call : Call Frame} (hcall : call ∈ (network.conn id).calls)
    {answer : Answer Frame} (hanswer : answer ∈ call.answers) (k : Nat)
    (hk : answer.moment = some k) : k < network.log.length :=
  ((h.sound.calls call hcall).during answer hanswer k hk).2.trans_le h.clock

/-- A step that moves another connection, or none. -/
theorem Traced.other (hpermits : network.Permits step)
    (hconn : (network.apply step).conn id = network.conn id)
    (hmove : ∀ move, network.move step ≠ some (id, move)) : (network.apply step).Traced id := by
  refine ⟨?_, ?_, ?_, fun k frame sent heq => ?_⟩ <;> rw [hconn]
  · exact h.sound
  · rw [Network.apply, List.length_append]
    exact h.clock.trans (Nat.le_add_right _ _)
  · exact fun call hcall answer hanswer =>
      (h.answers call hcall answer hanswer).apply rfl (h.before hcall hanswer)
  · rcases log_frame heq with heq | ⟨-, hevent⟩
    · exact h.handled k frame sent heq
    · obtain ⟨n, rfl, -⟩ := event_frame hpermits hevent
      exact absurd rfl (hmove _)

/-- A step that moves the connection. -/
theorem Traced.moved (hpermits : network.Permits step) {move : Calls.Move Frame}
    (hmove : network.move step = some (id, move))
    (henabled : (network.conn id).Enabled framing move) : (network.apply step).Traced id := by
  have hconn : (network.apply step).conn id =
      (network.conn id).apply framing network.log.length move := by
    rw [Network.apply, hmove]
    exact Function.update_self ..
  refine ⟨?_, ?_, ?_, fun k frame sent heq => ?_⟩ <;> rw [hconn]
  · exact h.sound.apply h.clock henabled
  · exact clock_apply hmove
  · intro call hcall answer hanswer
    rcases h.sound.answers_apply henabled hcall hanswer with
      ⟨before, hmem, hrequest, hthere⟩ | hgives
    · exact (h.answers before hmem answer hthere).apply hrequest (h.before hmem hthere)
    · exact accounts_gives hpermits hmove henabled hgives
  · rcases log_frame heq with heq | ⟨rfl, hevent⟩
    · obtain ⟨call, hcall, hrequest, reply, hanswer⟩ := h.handled k frame sent heq
      obtain ⟨after, hafter, hsame, hanswers⟩ := h.sound.answered_apply henabled hcall hanswer
      exact ⟨after, hafter, hsame.trans hrequest, reply, hanswers⟩
    · obtain ⟨n, rfl, hframe⟩ := event_frame hpermits hevent
      cases hmove
      obtain ⟨hserving, ⟨taken, hscan⟩, -⟩ := henabled
      obtain ⟨-, htaken, -⟩ := scanFrame_eq_frame.mp hscan
      obtain ⟨after, hafter, hrequest, hanswers⟩ := h.sound.handled hserving hscan
      exact ⟨after, hafter, hrequest.trans (htaken.symm.trans hframe), _, hanswers⟩

theorem Traced.apply (henabled : network.Enabled step) : (network.apply step).Traced id := by
  obtain ⟨hpermits, hmoves⟩ := henabled
  cases hmove : network.move step with
  | none =>
    refine h.other hpermits (by rw [Network.apply, hmove]) fun move heq => ?_
    rw [hmove] at heq
    cases heq
  | some moved =>
    obtain ⟨id', move⟩ := moved
    rcases eq_or_ne id id' with rfl | hne
    · exact h.moved hpermits hmove (hmoves id move hmove)
    · refine h.other hpermits ?_ fun move' heq => ?_
      · rw [Network.apply, hmove]
        exact Function.update_of_ne hne ..
      · rw [hmove] at heq
        cases heq
        exact hne rfl

end Traced

theorem Started.traced (h : network.Started) (id : Nat) : network.Traced id where
  sound := by rw [h.conn]; exact Conn.sound_new
  clock := by rw [h.conn]; exact Nat.zero_le _
  answers := by rw [h.conn]; exact List.forall_mem_nil _
  handled k frame sent heq := by
    rw [h.log] at heq
    cases heq

theorem Reachable.traced (h : network.Reachable) (id : Nat) : network.Traced id :=
  h.invariant (P := fun network => network.Traced id) (fun _ hstart => hstart.traced id)
    fun _ _ htraced henabled => htraced.apply henabled

/-! ## Sessions and connections -/

/-- Where a session is served, so is its connection: a connection moves whenever the receive loop of
its session does. -/
structure Agrees (network : Network) : Prop where
  known : ∀ id ∈ network.server.sessions, id < network.server.sessionsAccepted
  coming : ∀ id, network.server.sessionsAccepted ≤ id → (network.conn id).serving = true
  serving : ∀ id, (network.server.session id).serving = true → (network.conn id).serving = true

theorem server_apply : (network.apply step).server =
    (network.event step).elim network.server (Event.apply network.server) := by
  unfold server Network.apply
  rw [List.foldl_append]
  cases network.event step <;> rfl

/-- A step of the coordinator serves no session but the next one. -/
theorem apply_serves {server : CoordinatorServer} {act : CoordinatorServer.Act}
    (hknown : ∀ id ∈ server.sessions, id < server.sessionsAccepted)
    (hact : ∀ id frame sent, act ≠ .frame id frame sent) :
    (∀ id ∈ (server.apply act).sessions, id < (server.apply act).sessionsAccepted) ∧
      server.sessionsAccepted ≤ (server.apply act).sessionsAccepted ∧
      ∀ id, ((server.apply act).session id).serving = true →
        (server.session id).serving = true ∨ id = server.sessionsAccepted := by
  cases act with
  | frame id frame sent => exact absurd rfl (hact id frame sent)
  | start => exact ⟨hknown, le_rfl, fun _ => .inl⟩
  | op op => exact ⟨hknown, le_rfl, fun _ => .inl⟩
  -- Sessions only close here, and none is added.
  | endSession id =>
    have hcloses := CoordinatorServer.Closes.endSession server id
    show (∀ id' ∈ (server.endSession id).sessions, id' < (server.endSession id).sessionsAccepted) ∧ _
    rw [hcloses.sessions, hcloses.sessionsAccepted]
    exact ⟨hknown, hcloses.sessionsAccepted.ge, fun id' h => .inl (hcloses.serving id' h).1⟩
  | stop =>
    show (∀ id ∈ server.stop.sessions, id < server.stop.sessionsAccepted) ∧
      server.sessionsAccepted ≤ server.stop.sessionsAccepted ∧
      ∀ id, (server.stop.session id).serving = true → _
    unfold CoordinatorServer.stop
    split
    · exact ⟨hknown, le_rfl, fun _ => .inl⟩
    · have hcloses := (CoordinatorServer.Closes.foldl CoordinatorServer.Closes.joinSession
        server.sessions server).trans (CoordinatorServer.Closes.foldl
          CoordinatorServer.Closes.shutdownSession server.sessions _)
      exact ⟨List.forall_mem_nil _, hcloses.sessionsAccepted.ge,
        fun id h => .inl (hcloses.serving id h).1⟩
  | accept =>
    have hlive {id : Nat} (hid : id ∈ server.sessions.filter fun id =>
        !(server.session id).finished) : id < server.sessionsAccepted :=
      hknown id (List.mem_of_mem_filter hid)
    show (∀ id ∈ server.accept.sessions, id < server.accept.sessionsAccepted) ∧
      server.sessionsAccepted ≤ server.accept.sessionsAccepted ∧
      ∀ id, (server.accept.session id).serving = true → _
    unfold CoordinatorServer.accept
    dsimp only
    split
    · refine ⟨fun id hid => ?_, Nat.le_succ _, fun id hserving => ?_⟩
      · rcases List.mem_append.mp hid with hid | hid
        · exact (hlive hid).trans (Nat.lt_succ_self _)
        · rw [List.mem_singleton.mp hid]
          exact Nat.lt_succ_self _
      -- The new session has the next number, and the others are as they were.
      · refine or_iff_not_imp_right.mpr fun hne => ?_
        have hold := CoordinatorServer.putSession_session_of_ne server hne {}
        exact (congrArg (·.serving) hold).symm.trans hserving
    · exact ⟨fun id hid => hlive hid, le_rfl, fun _ => .inl⟩

/-- The receive loop of a session goes on exactly if its connection is served. -/
theorem Agrees.moved (h : network.Agrees) {server' : CoordinatorServer} {id : Nat} {c : Conn UInt8 Frame}
    (hsessions : server'.sessions = network.server.sessions)
    (haccepted : server'.sessionsAccepted = network.server.sessionsAccepted)
    (hothers : ∀ other, other ≠ id → server'.session other = network.server.session other)
    (hid : id ∈ network.server.sessions)
    (hserving : (server'.session id).serving = true → c.serving = true)
    (happly : (network.apply step).server = server')
    (hconn : (network.apply step).conn = Function.update network.conn id c) :
    (network.apply step).Agrees := by
  have hlt := h.known id hid
  refine ⟨?_, fun other hother => ?_, fun other hother => ?_⟩
  · rw [happly, hsessions, haccepted]
    exact h.known
  · rw [happly, haccepted] at hother
    rw [hconn, Function.update_of_ne (by omega)]
    exact h.coming other hother
  · rw [happly] at hother
    rw [hconn]
    rcases eq_or_ne other id with rfl | hne
    · rw [Function.update_self]
      exact hserving hother
    · rw [Function.update_of_ne hne]
      rw [hothers other hne] at hother
      exact h.serving other hother

theorem Agrees.apply (h : network.Agrees) (henabled : network.Enabled step) :
    (network.apply step).Agrees := by
  obtain ⟨hpermits, hmoves⟩ := henabled
  -- A move that leaves the coordinator, and whether the connection is served.
  have hquiet {id : Nat} {move : Calls.Move Frame} (hmove : network.move step = some (id, move))
      (hevent : network.event step = none)
      (hserving : ((network.conn id).apply framing network.log.length move).serving =
        (network.conn id).serving) : (network.apply step).Agrees := by
    have hserver : (network.apply step).server = network.server := by rw [server_apply, hevent]; rfl
    have hconn (other : Nat) :
        ((network.apply step).conn other).serving = (network.conn other).serving := by
      rw [Network.apply, hmove]
      dsimp only
      rcases eq_or_ne other id with rfl | hne
      · rw [Function.update_self, hserving]
      · rw [Function.update_of_ne hne]
    refine ⟨?_, fun other hother => ?_, fun other hother => ?_⟩
    · rw [hserver]
      exact h.known
    · rw [hconn]
      rw [hserver] at hother
      exact h.coming other hother
    · rw [hconn]
      rw [hserver] at hother
      exact h.serving other hother
  cases step with
  | call id request n => exact hquiet rfl rfl rfl
  | arrive id n => exact hquiet rfl rfl rfl
  | receive id n => exact hquiet rfl rfl rfl
  | finish id => exact hquiet rfl rfl rfl
  | fail id => exact hquiet rfl rfl rfl
  | act act =>
    have hserver : (network.apply (.act act)).server = network.server.apply act := server_apply
    have hact (id : Nat) (frame : Frame) (sent : Bool) : act ≠ .frame id frame sent := by
      rintro rfl
      exact hpermits
    obtain ⟨hknown, haccepted, hserves⟩ := apply_serves h.known hact
    refine ⟨?_, fun id hid => ?_, fun id hid => ?_⟩
    · rw [hserver]
      exact hknown
    · rw [hserver] at hid
      exact h.coming id (haccepted.trans hid)
    · rw [hserver] at hid
      rcases hserves id hid with hserving | rfl
      · exact h.serving id hserving
      · exact h.coming _ le_rfl
  | handle id n =>
    have hhandled := CoordinatorServer.receiveFrame_handled network.server id
      (network.scanned id).frame (decide ((network.response id).encode.length ≤ n))
    refine h.moved hhandled.sessions hhandled.sessionsAccepted hhandled.others hpermits.1
      (fun hserving => ?_) server_apply rfl
    rw [CoordinatorServer.receiveFrame_serving, hpermits.2, Bool.true_and, Bool.and_comm] at hserving
    exact hserving
  | refuse id n =>
    have hsessions : (network.server.reject id).sessions = network.server.sessions := rfl
    refine h.moved hsessions rfl
      (fun other hother => CoordinatorServer.putSession_session_of_ne _ hother _) hpermits.1.1
      (fun hserving => ?_) server_apply rfl
    rw [CoordinatorServer.reject, CoordinatorServer.putSession_session] at hserving
    cases hserving

theorem Started.agrees (h : network.Started) : network.Agrees where
  known := by
    rw [server, h.log, List.foldl_nil, h.first.sessions]
    exact List.forall_mem_nil _
  coming id _ := by rw [h.conn]
  serving id _ := by rw [h.conn]

theorem Reachable.agrees (h : network.Reachable) : network.Agrees :=
  h.invariant (P := Agrees) (fun _ hstart => hstart.agrees) fun _ _ hagrees henabled =>
    hagrees.apply henabled

end Network

end LinkState
