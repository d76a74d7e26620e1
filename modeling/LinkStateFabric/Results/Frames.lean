import LinkStateFabric.Protocol.Serve

/-!
# What a stream of bytes is cut into

* `frame_grammar`: a frame is reported where the buffer starts with the encoding of one, and a part
  of an encoding is incomplete.
* `stream_reassembly`: the receive loop hands over the frames whose encodings were sent, whatever the
  chunks they arrive in.
-/

namespace LinkState

/-! ## One frame -/

theorem decodeFrame_complete_iff (buffer : Bytes) (frame : Frame) (consumed : Nat) :
    ((decodeFrame buffer).status = .complete ∧ (decodeFrame buffer).frame = frame ∧
        (decodeFrame buffer).consumed = consumed) ↔
      frame.payload.length ≤ limits.maxFramePayloadBytes ∧ consumed ≤ buffer.length ∧
        buffer.take consumed = frame.encode := by
  constructor
  · rintro ⟨hstatus, rfl, rfl⟩
    exact encode_of_decodeFrame hstatus
  · rintro ⟨hsize, hconsumed, htake⟩
    have hlength := congrArg List.length htake
    rw [List.length_take_of_le hconsumed] at hlength
    have hdecoded := decodeFrame_encode hsize (buffer.drop consumed)
    rw [← htake, List.take_append_drop, List.length_take_of_le hconsumed] at hdecoded
    rw [hdecoded]
    exact ⟨rfl, rfl, rfl⟩

/-- A complete frame is reported exactly where the buffer starts with its encoding. A proper part of
the encoding is incomplete, and a buffer with the whole of it in front is not. -/
theorem frame_grammar :
    (∀ buffer frame consumed,
      ((decodeFrame buffer).status = .complete ∧ (decodeFrame buffer).frame = frame ∧
          (decodeFrame buffer).consumed = consumed) ↔
        frame.payload.length ≤ limits.maxFramePayloadBytes ∧ consumed ≤ buffer.length ∧
          buffer.take consumed = frame.encode) ∧
    ∀ frame : Frame, frame.payload.length ≤ limits.maxFramePayloadBytes →
      (∀ part, part <+: frame.encode → part ≠ frame.encode →
        (decodeFrame part).status = .incomplete) ∧
      ∀ rest, (decodeFrame (frame.encode ++ rest)).status ≠ .incomplete ∧
        decodeFrame (frame.encode ++ rest) = decodeFrame frame.encode := by
  refine ⟨decodeFrame_complete_iff, fun frame hsize => ⟨fun part hpre hne => ?_, fun rest => ?_⟩⟩
  · have hlength : part.length ≠ frame.encode.length := fun h => hne (hpre.eq_of_length h)
    exact decodeFrame_part hsize hpre (lt_of_le_of_ne hpre.length_le hlength)
  · have hwhole := decodeFrame_encode hsize []
    rw [List.append_nil] at hwhole
    rw [hwhole, decodeFrame_encode hsize rest]
    exact ⟨nofun, rfl⟩

namespace Sample

def hello : Frame where
  requestId := 1
  payload := encodeMessage { type := .hello, hello := { agent := lit "worker" } }

end Sample

theorem frame_grammar_sample :
    (decodeFrame (Sample.hello.encode.take 30)).status = .incomplete ∧
      decodeFrame (Sample.hello.encode ++ lit "more") = decodeFrame Sample.hello.encode := by
  have hwhole := frame_grammar.2 Sample.hello (by decide)
  refine ⟨hwhole.1 _ (List.take_prefix _ _) fun h => ?_, (hwhole.2 _).2⟩
  have hlength := congrArg List.length h
  rw [List.length_take, Sample.hello.length_encode] at hlength
  revert hlength
  decide

/-! ## A stream -/

/-- What a session has done with its stream. -/
structure Heard (σ : Type) where
  state : σ
  handled : List Frame := []
  rejected : List Text := []

/-- The handlers, with a record of the frames they are handed and of what is rejected. -/
def Handlers.recorded {σ : Type} (handlers : Handlers σ) : Handlers (Heard σ) where
  received heard := { heard with state := handlers.received heard.state }
  handle heard frame :=
    match handlers.handle heard.state frame with
    | (state, answer) => ({ heard with state, handled := heard.handled ++ [frame] }, answer)
  send heard response :=
    match handlers.send heard.state response with
    | (state, sent) => ({ heard with state }, sent)
  reject heard detail :=
    { heard with state := handlers.reject heard.state detail, rejected := heard.rejected ++ [detail] }
  endSession heard := { heard with state := handlers.endSession heard.state }

variable {σ : Type} (handlers : Handlers σ)

theorem turn_recorded (heard : Heard σ) (frame : Frame) :
    turn handlers.recorded heard frame =
      ({ heard with
          state := (turn handlers heard.state frame).1
          handled := heard.handled ++ [frame] }, (turn handlers heard.state frame).2) := by
  obtain ⟨state, response, keepOpen, h⟩ :
      ∃ state response keepOpen, handlers.handle (handlers.received heard.state) frame =
        (state, response, keepOpen) := ⟨_, _, _, rfl⟩
  simp only [turn, Handlers.recorded, h]
  split <;> rfl

/-- The frames that are handled are the first ones, all of them where the session stays open. -/
theorem turns_recorded (heard : Heard σ) (frames : List Frame) :
    ∃ done, done <+: frames ∧ turns handlers.recorded heard frames =
        ({ heard with
            state := (turns handlers heard.state frames).1
            handled := heard.handled ++ done }, (turns handlers heard.state frames).2) ∧
      ((turns handlers heard.state frames).2 = true → done = frames) := by
  induction frames generalizing heard with
  | nil => exact ⟨[], List.prefix_rfl, by simp [turns], fun _ => rfl⟩
  | cons frame frames ih =>
    rw [turns, turns, turn_recorded]
    rcases turn handlers heard.state frame with ⟨state, _ | _⟩
    · exact ⟨[frame], ⟨frames, rfl⟩, rfl, fun h => absurd h Bool.false_ne_true⟩
    · obtain ⟨done, hpre, heq, hall⟩ :=
        ih { heard with state, handled := heard.handled ++ [frame] }
      refine ⟨frame :: done, (List.prefix_cons_inj frame).mpr hpre, ?_,
        fun h => congrArg (frame :: ·) (hall h)⟩
      rw [List.append_assoc] at heq
      exact heq

/-- However the encodings of frames are cut into chunks, the session handles each frame once and in
its order, as long as it stays open, and rejects nothing. -/
theorem stream_reassembly (state : σ) {frames : List Frame}
    (hframes : ∀ frame ∈ frames, frame.payload.length ≤ limits.maxFramePayloadBytes)
    {chunks : List Bytes} (hchunks : ∀ chunk ∈ chunks, chunk ≠ [])
    (hcut : chunks.flatten = frames.flatMap Frame.encode) :
    ∃ done, done <+: frames ∧ ((turns handlers state frames).2 = true → done = frames) ∧
      receive handlers.recorded { state } [] chunks =
        ({ state := (turns handlers state frames).1, handled := done, rejected := [] },
          (turns handlers state frames).2) := by
  obtain ⟨done, hpre, heq, hall⟩ := turns_recorded handlers { state } frames
  exact ⟨done, hpre, hall,
    (receive_flatMap _ hchunks hframes _ (waiting_nil frames) hcut).trans heq⟩

namespace Sample

/-- Handlers that count the frames. -/
def counting : Handlers Nat where
  received := (· + 1)
  handle count _ := (count, [], true)
  send count _ := (count, true)
  reject count _ := count
  endSession count := count

end Sample

theorem stream_reassembly_sample :
    ∃ done, receive Sample.counting.recorded { state := 0 } []
      [Sample.hello.encode.take 7, Sample.hello.encode.drop 7] = (⟨1, done, []⟩, true) ∧
        done = [Sample.hello] := by
  have hlength : Sample.hello.encode.length = 54 :=
    Sample.hello.length_encode.trans (by decide)
  have hframes : ∀ frame ∈ [Sample.hello], frame.payload.length ≤ limits.maxFramePayloadBytes := by
    decide
  have hchunks : ∀ chunk ∈ [Sample.hello.encode.take 7, Sample.hello.encode.drop 7],
      chunk ≠ [] := by
    refine List.forall_mem_cons.mpr ⟨fun h => ?_, List.forall_mem_singleton.mpr fun h => ?_⟩
    · rw [List.take_eq_nil_iff] at h
      simp [← List.length_eq_zero_iff, hlength] at h
    · rw [List.drop_eq_nil_iff, hlength] at h
      revert h
      decide
  obtain ⟨done, -, hall, heq⟩ := stream_reassembly Sample.counting 0 hframes hchunks
    (by simp only [List.flatten_cons, List.flatten_nil, List.append_nil, List.take_append_drop,
      List.flatMap_cons, List.flatMap_nil])
  exact ⟨done, heq, hall rfl⟩

end LinkState
