import LinkStateFabric.Protocol.Frame

/-!
# The receive loop of a session (`serve`, `server.cpp`)

The loop appends what the transport delivers to a buffer and takes frames off its front.

* `Handlers σ`: what the loop calls, on the state `σ` of the coordinator and the session.
* `drain`, `receive`, `serve`: the inner loop over one buffer, the loop over the chunks, the whole.
* `turns`: the frames handled one after the other, with no buffer. `drain_prefix` and
  `receive_flatMap` compare the loops with it.
-/

namespace LinkState

structure Handlers (σ : Type) where
  /-- `++frames_received_` -/
  received : σ → σ
  /-- `handle_frame`, with the response and whether the session stays open. -/
  handle : σ → Frame → σ × Bytes × Bool
  /-- `net_send_all` of a response. -/
  send : σ → Bytes → σ × Bool
  /-- `++frames_rejected_` and `fail_protocol`. -/
  reject : σ → Text → σ
  endSession : σ → σ

variable {σ : Type} (handlers : Handlers σ)

/-- One complete frame: it is handled and its response is sent. The session closes where either
says so. -/
def turn (state : σ) (frame : Frame) : σ × Bool :=
  match handlers.handle (handlers.received state) frame with
  | (state, response, keepOpen) =>
    if response = [] then (state, keepOpen)
    else match handlers.send state response with
      | (state, sent) => (state, sent && keepOpen)

/-- The frames handled in their order, until the session closes. -/
def turns (state : σ) : List Frame → σ × Bool
  | [] => (state, true)
  | frame :: frames => match turn handlers state frame with
    | (state, true) => turns state frames
    | (state, false) => (state, false)

def bufferedLimit : Nat := limits.maxFramePayloadBytes + frameHeaderBytes + frameIntegrityBytes

/-- `fail_protocol` of a buffer that does not start with a frame. -/
def violation (decoded : FrameDecodeResult) : Text :=
  lit "protocol violation: " ++ decoded.status.text ++ lit " (" ++ decoded.detail ++ lit ")"

/-- The inner loop: the state, what is left of the buffer, and whether the session stays open. -/
def drain (state : σ) (buffer : Bytes) : σ × Bytes × Bool :=
  if (decodeFrame buffer).status = .incomplete then (state, buffer, true)
  else if _h : (decodeFrame buffer).status = .complete then
    let rest := buffer.drop (decodeFrame buffer).consumed
    match turn handlers state (decodeFrame buffer).frame with
    | (state, true) => drain state rest
    | (state, false) => (state, rest, false)
  else (handlers.reject state (violation (decodeFrame buffer)), buffer, false)
termination_by buffer.length
decreasing_by
  obtain ⟨-, hconsumed, htake⟩ := encode_of_decodeFrame _h
  have hlength := congrArg List.length htake
  rw [List.length_take_of_le hconsumed, Frame.length_encode] at hlength
  have hinteg : frameIntegrityBytes = 8 := rfl
  rw [List.length_drop]
  omega

/-- The loop over what the transport delivers. It ends with the stream, which includes a chunk of no
bytes, or closed; a stop that another thread asks for is a stream that ends. -/
def receive (state : σ) (buffer : Bytes) : List Bytes → σ × Bool
  | [] => (state, true)
  | chunk :: chunks =>
    if chunk = [] then (state, true)
    else match drain handlers state (buffer ++ chunk) with
      | (state, _, false) => (state, false)
      | (state, buffer, true) =>
        if bufferedLimit < buffer.length then
          (handlers.reject state (lit "buffered data exceeds the maximum frame size"), false)
        else receive state buffer chunks

def serve (state : σ) (chunks : List Bytes) : σ :=
  handlers.endSession (receive handlers state [] chunks).1

/-! ## One buffer -/

theorem turns_append (state : σ) (frames frames' : List Frame) :
    turns handlers state (frames ++ frames') = match turns handlers state frames with
      | (state, true) => turns handlers state frames'
      | (state, false) => (state, false) := by
  induction frames generalizing state with
  | nil => rfl
  | cons frame frames ih =>
    rw [List.cons_append, turns, turns]
    rcases turn handlers state frame with ⟨state, _ | _⟩
    · rfl
    · exact ih state

/-- Frames that every receiver accepts. -/
def Framed (frames : List Frame) : Prop :=
  ∀ frame ∈ frames, frame.payload.length ≤ limits.maxFramePayloadBytes

/-- The buffer holds less than the first of the frames that are still to come. -/
def Waiting (buffer : Bytes) (frames : List Frame) : Prop :=
  ∀ frame rest, frames = frame :: rest → buffer.length < frame.encode.length

theorem drain_incomplete (state : σ) {buffer : Bytes}
    (h : (decodeFrame buffer).status = .incomplete) :
    drain handlers state buffer = (state, buffer, true) := by
  rw [drain, if_pos h]

/-- A buffer that waits for the rest of a frame is not longer than the largest frame. -/
theorem length_le_of_incomplete {buffer : Bytes} (h : (decodeFrame buffer).status = .incomplete) :
    buffer.length ≤ bufferedLimit := by
  unfold bufferedLimit
  rcases lt_or_ge buffer.length frameHeaderBytes with hshort | hlong
  · omega
  cases hread : readFrameHeader buffer with
  | error refusal =>
    rw [decodeFrame, if_neg (not_lt.mpr hlong), hread] at h
    exact absurd h (not_incomplete_of_refused hread)
  | ok read =>
    obtain ⟨header, rest⟩ := read
    have hlimit := gives_readFrameHeader _ _ _ hread
    rw [decodeFrame_of_header hread hlong] at h
    dsimp only at h
    split at h
    · omega
    split at h <;> cases h

/-- The limit on what is buffered refuses nothing, whatever the bytes are: where the session stays
open, the inner loop leaves a buffer that waits. -/
theorem drain_le_limit {state next : σ} {buffer left : Bytes}
    (h : drain handlers state buffer = (next, left, true)) : left.length ≤ bufferedLimit := by
  fun_induction drain handlers state buffer with
  | case1 state buffer hincomplete =>
    cases h
    exact length_le_of_incomplete hincomplete
  | case2 state buffer _ _ _ _ _ ih => exact ih h
  | case3 | case4 => exact absurd (congrArg (·.2.2) h) Bool.false_ne_true

/-- A frame at the front of the buffer is handled, and the rest of the buffer is what follows it. -/
theorem drain_encode (state : σ) {frame : Frame}
    (hsize : frame.payload.length ≤ limits.maxFramePayloadBytes) (rest : Bytes) :
    drain handlers state (frame.encode ++ rest) = match turn handlers state frame with
      | (state, true) => drain handlers state rest
      | (state, false) => (state, rest, false) := by
  have hdecoded := decodeFrame_encode hsize rest
  rw [drain, if_neg (by rw [hdecoded]; exact nofun), dif_pos (by rw [hdecoded])]
  dsimp only
  rw [hdecoded, List.drop_left]

/-- A buffer that starts a sequence of frames: the loop handles those that are whole. Where the
session stays open, less than a frame is left. -/
theorem drain_prefix {frames : List Frame} (hframes : Framed frames) (state : σ)
    {buffer rest : Bytes} (h : buffer ++ rest = frames.flatMap Frame.encode) :
    ∃ done later, frames = done ++ later ∧ ∃ left,
      drain handlers state buffer =
        ((turns handlers state done).1, left, (turns handlers state done).2) ∧
      ((turns handlers state done).2 = true →
        left ++ rest = later.flatMap Frame.encode ∧ Waiting left later) := by
  induction frames generalizing state buffer with
  | nil =>
    obtain ⟨rfl, rfl⟩ := List.append_eq_nil_iff.mp h
    exact ⟨[], [], rfl, [], drain_incomplete handlers state (by decide), fun _ => ⟨rfl, nofun⟩⟩
  | cons frame frames ih =>
    obtain ⟨hsize, htail⟩ := List.forall_mem_cons.mp hframes
    rw [List.flatMap_cons] at h
    -- Either the next frame is not complete yet, or all of it is there.
    rcases lt_or_ge buffer.length frame.encode.length with hshort | hlong
    · have hpre : buffer <+: frame.encode :=
        List.prefix_of_prefix_length_le ⟨rest, h⟩ (List.prefix_append _ _) hshort.le
      refine ⟨[], frame :: frames, rfl, buffer,
        drain_incomplete handlers state (decodeFrame_part hsize hpre hshort), fun _ => ⟨h, ?_⟩⟩
      rintro _ _ ⟨⟩
      exact hshort
    · obtain ⟨buffer, rfl⟩ : frame.encode <+: buffer :=
        List.prefix_of_prefix_length_le (List.prefix_append _ _) ⟨rest, h⟩ hlong
      rw [List.append_assoc, List.append_cancel_left_eq] at h
      rw [drain_encode handlers state hsize]
      cases hturn : turn handlers state frame with
      | mk next keepOpen => cases keepOpen with
        | false => exact ⟨[frame], frames, rfl, buffer, by simp [turns, hturn], by simp [turns, hturn]⟩
        | true =>
          obtain ⟨done, later, rfl, left, hdrain, hleft⟩ := ih htail next h
          exact ⟨frame :: done, later, rfl, left, by rw [turns, hturn]; exact hdrain,
            by rw [turns, hturn]; exact hleft⟩

/-! ## The whole stream -/

theorem waiting_nil (frames : List Frame) : Waiting [] frames := by
  rintro frame rest -
  rw [frame.length_encode]
  have : frameIntegrityBytes = 8 := rfl
  rw [List.length_nil]
  omega

/-- However the encodings of frames are cut into chunks, the loop handles the frames in their order. -/
theorem receive_flatMap {chunks : List Bytes} (hchunks : ∀ chunk ∈ chunks, chunk ≠ [])
    {frames : List Frame} (hframes : Framed frames) (state : σ) {buffer : Bytes}
    (hwaiting : Waiting buffer frames)
    (h : buffer ++ chunks.flatten = frames.flatMap Frame.encode) :
    receive handlers state buffer chunks = turns handlers state frames := by
  induction chunks generalizing frames state buffer with
  | nil =>
    cases frames with
    | nil => rfl
    | cons frame frames =>
      have hshort := hwaiting frame frames rfl
      have hlength := congrArg List.length h
      simp only [List.flatten_nil, List.append_nil, List.flatMap_cons, List.length_append] at hlength
      omega
  | cons chunk chunks ih =>
    obtain ⟨hchunk, hrest⟩ := List.forall_mem_cons.mp hchunks
    rw [List.flatten_cons, ← List.append_assoc] at h
    obtain ⟨done, later, rfl, left, hdrain, hleft⟩ := drain_prefix handlers hframes state h
    rw [receive, if_neg hchunk, hdrain, turns_append]
    have hlater : Framed later := fun frame hmem => hframes frame (List.mem_append_right done hmem)
    generalize turns handlers state done = after at hdrain hleft ⊢
    obtain ⟨next, _ | _⟩ := after
    · rfl
    · obtain ⟨hbytes, hwait⟩ := hleft rfl
      dsimp only
      rw [if_neg (not_lt.mpr (drain_le_limit handlers hdrain))]
      exact ih hrest hlater next hwait hbytes

end LinkState
