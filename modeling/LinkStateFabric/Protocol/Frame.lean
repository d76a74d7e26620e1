import LinkStateFabric.Digest
import LinkStateFabric.Protocol.Message

/-!
# Frames (`protocol.hpp`, `protocol.cpp`)

A frame is a header of 24 bytes, a payload, and the first eight bytes of the digest of both.
`decodeFrame` looks for one at the front of a buffer.

* `reads_readFrameHeader`, `takes_readFrameHeader`: the header is read from its one encoding.
* `decodeFrame_encode`, `decodeFrame_part`, `encode_of_decodeFrame`: a whole frame, a part of one, and
  what a reported frame says of the buffer.
-/

namespace LinkState

open Codec

def frameMagic : Bytes := lit "LSFP"
def frameHeaderBytes : Nat := 24
def frameIntegrityBytes : Nat := 8

inductive FrameDecodeStatus where
  | complete | incomplete | malformed | unsupportedVersion | tooLarge
  deriving DecidableEq, Repr

def FrameDecodeStatus.text : FrameDecodeStatus → Text
  | complete => lit "COMPLETE"
  | incomplete => lit "INCOMPLETE"
  | malformed => lit "MALFORMED"
  | unsupportedVersion => lit "UNSUPPORTED_VERSION"
  | tooLarge => lit "TOO_LARGE"

structure Frame where
  type : MessageType := .hello
  requestId : U64 := 0
  payload : Bytes := []
  deriving DecidableEq

structure FrameDecodeResult where
  status : FrameDecodeStatus := .incomplete
  frame : Frame := {}
  consumed : Nat := 0
  detail : Text := []
  deriving DecidableEq

/-! ## Encoding -/

/-- The header of a frame whose payload has the given size. -/
def frameHeader (type : MessageType) (requestId : U64) (payloadLength : Nat) : Bytes :=
  frameMagic ++ leBytes 2 protocolVersion ++ leBytes 2 type.code ++ leBytes 8 requestId ++
    leBytes 4 payloadLength ++ leBytes 4 0

/-- `encode_frame`. -/
def encodeFrame (type : MessageType) (requestId : U64) (payload : Bytes) : Bytes :=
  let frame := frameHeader type requestId payload.length ++ payload
  frame ++ (sha256 frame).bytes.take frameIntegrityBytes

def Frame.encode (frame : Frame) : Bytes := encodeFrame frame.type frame.requestId frame.payload

/-! ## Decoding -/

/-- What a header says of the frame that follows. -/
structure FrameHeader where
  type : MessageType
  requestId : U64
  payloadLength : Nat

/-- The header of a frame, with the checks in their order. It is read from a buffer that is long
enough, so that no field is missing. -/
def readFrameHeader : Reader (FrameDecodeStatus × Text) FrameHeader := do
  let missing := (.malformed, lit "frame header could not be decoded")
  let magic ← take (.malformed, lit "frame magic does not match LSFP") 4
  check (magic = frameMagic) (.malformed, lit "frame magic does not match LSFP")
  let version ← number missing 2
  let type ← number missing 2
  let requestId ← u64Field missing
  let payloadLength ← number missing 4
  let reserved ← number missing 4
  check (version = protocolVersion)
    (.unsupportedVersion, lit "frame protocol version is not supported")
  match MessageType.ofCode type with
  | none => fail (.malformed, lit "frame carries an unknown message type")
  | some type =>
    check (reserved = 0) (.malformed, lit "frame reserved field is not zero")
    check (payloadLength ≤ limits.maxFramePayloadBytes)
      (.tooLarge, lit "frame payload exceeds the maximum accepted size")
    pure { type, requestId, payloadLength }

/-- `decode_frame`. -/
def decodeFrame (buffer : Bytes) : FrameDecodeResult :=
  if buffer.length < frameHeaderBytes then
    { status := .incomplete, detail := lit "frame header is not complete" }
  else match readFrameHeader buffer with
    | .error (status, detail) => { status, detail }
    | .ok (header, _) =>
      let covered := frameHeaderBytes + header.payloadLength
      let total := covered + frameIntegrityBytes
      if buffer.length < total then
        { status := .incomplete, detail := lit "frame payload is not complete" }
      else if (sha256 (buffer.take covered)).bytes.take frameIntegrityBytes ≠
          (buffer.drop covered).take frameIntegrityBytes then
        { status := .malformed, detail := lit "frame integrity check failed" }
      else
        { status := .complete
          frame :=
            { type := header.type
              requestId := header.requestId
              payload := (buffer.drop frameHeaderBytes).take header.payloadLength }
          consumed := total }

/-! ## Headers -/

namespace MessageType

@[simp] theorem ofCode_code (type : MessageType) : ofCode type.code = some type := by
  cases type <;> decide

theorem code_ofCode {value : Nat} {type : MessageType} (h : ofCode value = some type) :
    type.code = value := by
  unfold ofCode at h
  split at h
  · cases h
  obtain ⟨hlt, rfl⟩ := List.getElem?_eq_some_iff.mp h
  have hnodup : all.Nodup := by decide
  rw [code, hnodup.idxOf_getElem]
  omega

theorem code_lt (type : MessageType) : type.code < 2 ^ 16 := by cases type <;> decide

end MessageType

theorem length_frameHeader (type : MessageType) (requestId : U64) (payloadLength : Nat) :
    (frameHeader type requestId payloadLength).length = frameHeaderBytes := by
  simp only [frameHeader, List.length_append, length_leBytes]
  rfl

theorem length_encodeFrame (type : MessageType) (requestId : U64) (payload : Bytes) :
    (encodeFrame type requestId payload).length =
      frameHeaderBytes + payload.length + frameIntegrityBytes := by
  unfold encodeFrame
  dsimp only
  rw [List.length_append, List.length_append, length_frameHeader, List.length_take, Digest.size]
  rfl

theorem reads_readFrameHeader (type : MessageType) (requestId : U64) {payloadLength : Nat}
    (h : payloadLength < 2 ^ 32) :
    Reads readFrameHeader (frameHeader type requestId payloadLength)
      (payloadLength ≤ limits.maxFramePayloadBytes) { type, requestId, payloadLength } := by
  have hversion : protocolVersion.val % 256 ^ 2 = protocolVersion.val := by decide
  have htype : type.code % 256 ^ 2 = type.code := Nat.mod_eq_of_lt type.code_lt
  have hlength : payloadLength % 256 ^ 4 = payloadLength := Nat.mod_eq_of_lt (by omega)
  have hlast : Reads (match MessageType.ofCode (type.code % 256 ^ 2) with
      | none => fail (.malformed, lit "frame carries an unknown message type")
      | some type => do
        check (0 % 256 ^ 4 = 0) (.malformed, lit "frame reserved field is not zero")
        check (payloadLength % 256 ^ 4 ≤ limits.maxFramePayloadBytes)
          (.tooLarge, lit "frame payload exceeds the maximum accepted size")
        (pure { type, requestId, payloadLength := payloadLength % 256 ^ 4 } :
          Reader (FrameDecodeStatus × Text) FrameHeader)) []
      (payloadLength ≤ limits.maxFramePayloadBytes) { type, requestId, payloadLength } := by
    rw [htype, MessageType.ofCode_code, hlength]
    exact Reads.conv (.finish .check fun _ => .finish .check fun _ => .pure _) rfl (by simp)
      fun _ => rfl
  refine Reads.conv
    (.bind (.take frameMagic rfl) fun _ => .bind .check fun _ =>
      .bind (.number 2 protocolVersion.val) fun _ => .bind (.number 2 type.code) fun _ =>
      .bind (reads_u64Field requestId) fun _ => .bind (.number 4 payloadLength) fun _ =>
      .finish (.number 4 0) fun _ => .finish .check fun _ => hlast)
    ?_ ?_ fun _ => rfl
  · simp only [frameHeader, List.append_assoc, List.nil_append]
  · simp only [hversion, true_and]

theorem takes_readFrameHeader : Takes [] readFrameHeader fun header =>
    frameHeader header.type header.requestId header.payloadLength := by
  refine takes_take.bind fun magic => .check fun hmagic => takes_number.bind fun version =>
    takes_number.bind fun type => takes_u64Field.bind fun requestId =>
    takes_number.bind fun payloadLength => takes_number.bind fun reserved =>
    .check fun hversion => ?_
  split
  · exact takes_fail
  · rename_i known hknown
    refine .check fun hreserved => .check fun _ => takes_pure ?_
    subst hmagic hversion hreserved
    rw [frameHeader, MessageType.code_ofCode hknown]
    rfl

/-! ## Frames -/

/-- A buffer that starts with the header of a frame and is long enough for no decision before it. -/
theorem decodeFrame_of_header {buffer rest : Bytes} {header : FrameHeader}
    (h : readFrameHeader buffer = .ok (header, rest)) (hlong : frameHeaderBytes ≤ buffer.length) :
    decodeFrame buffer =
      let covered := frameHeaderBytes + header.payloadLength
      let total := covered + frameIntegrityBytes
      if buffer.length < total then
        { status := .incomplete, detail := lit "frame payload is not complete" }
      else if (sha256 (buffer.take covered)).bytes.take frameIntegrityBytes ≠
          (buffer.drop covered).take frameIntegrityBytes then
        { status := .malformed, detail := lit "frame integrity check failed" }
      else
        { status := .complete
          frame :=
            { type := header.type
              requestId := header.requestId
              payload := (buffer.drop frameHeaderBytes).take header.payloadLength }
          consumed := total } := by
  rw [decodeFrame, if_neg (not_lt.mpr hlong), h]

/-- The bytes that follow the payload of a frame. -/
def Frame.integrity (frame : Frame) : Bytes :=
  (sha256 (frameHeader frame.type frame.requestId frame.payload.length ++ frame.payload)).bytes.take
    frameIntegrityBytes

theorem Frame.length_integrity (frame : Frame) :
    frame.integrity.length = frameIntegrityBytes := by
  rw [integrity, List.length_take, Digest.size]
  rfl

theorem Frame.encode_eq (frame : Frame) : frame.encode =
    frameHeader frame.type frame.requestId frame.payload.length ++
      (frame.payload ++ frame.integrity) := by
  rw [Frame.encode, encodeFrame, integrity, ← List.append_assoc]

theorem Frame.length_encode (frame : Frame) : frame.encode.length =
    frameHeaderBytes + frame.payload.length + frameIntegrityBytes :=
  length_encodeFrame ..

/-- The header of a frame is read from whatever starts with it. -/
theorem readFrameHeader_of_frame {frame : Frame}
    (hsize : frame.payload.length ≤ limits.maxFramePayloadBytes) (rest : Bytes) :
    readFrameHeader (frameHeader frame.type frame.requestId frame.payload.length ++ rest) =
      .ok (⟨frame.type, frame.requestId, frame.payload.length⟩, rest) :=
  (reads_readFrameHeader frame.type frame.requestId (lt_of_le_of_lt hsize (by decide))).accept
    hsize rest

/-- A frame at the front of a buffer is reported, whatever follows it. -/
theorem decodeFrame_encode {frame : Frame}
    (hsize : frame.payload.length ≤ limits.maxFramePayloadBytes) (rest : Bytes) :
    decodeFrame (frame.encode ++ rest) =
      { status := .complete, frame, consumed := frame.encode.length } := by
  have hheader := length_frameHeader frame.type frame.requestId frame.payload.length
  have hsplit : frame.encode ++ rest =
      frameHeader frame.type frame.requestId frame.payload.length ++
        (frame.payload ++ (frame.integrity ++ rest)) := by
    rw [frame.encode_eq, List.append_assoc, List.append_assoc]
  have hlength : (frame.encode ++ rest).length =
      frameHeaderBytes + frame.payload.length + frameIntegrityBytes + rest.length := by
    rw [List.length_append, frame.length_encode]
  have hcovered : (frameHeader frame.type frame.requestId frame.payload.length ++
      frame.payload).length = frameHeaderBytes + frame.payload.length := by
    rw [List.length_append, hheader]
  -- What follows the frame is no part of it, and is not read.
  have hread := readFrameHeader_of_frame hsize (frame.payload ++ (frame.integrity ++ rest))
  rw [← hsplit] at hread
  rw [decodeFrame_of_header hread (by omega)]
  dsimp only
  have hpayload : ((frame.encode ++ rest).drop frameHeaderBytes).take frame.payload.length =
      frame.payload := by
    rw [hsplit, List.drop_left' hheader, List.take_left' rfl]
  have hintegrity : (sha256 ((frame.encode ++ rest).take
      (frameHeaderBytes + frame.payload.length))).bytes.take frameIntegrityBytes =
      ((frame.encode ++ rest).drop (frameHeaderBytes + frame.payload.length)).take
        frameIntegrityBytes := by
    rw [hsplit, ← List.append_assoc, List.take_left' hcovered, List.drop_left' hcovered,
      List.take_left' frame.length_integrity]
    rfl
  rw [if_neg (by omega), hpayload, if_neg (not_not.mpr hintegrity), frame.length_encode]

/-- A part of a frame is incomplete. -/
theorem decodeFrame_part {frame : Frame}
    (hsize : frame.payload.length ≤ limits.maxFramePayloadBytes) {part : Bytes}
    (hpre : part <+: frame.encode) (hshort : part.length < frame.encode.length) :
    (decodeFrame part).status = .incomplete := by
  rcases lt_or_ge part.length frameHeaderBytes with hsmall | hlong
  · rw [decodeFrame, if_pos hsmall]
  · have hheader : frameHeader frame.type frame.requestId frame.payload.length <+: part := by
      refine List.prefix_of_prefix_length_le ?_ hpre (by rwa [length_frameHeader])
      rw [frame.encode_eq]
      exact List.prefix_append _ _
    obtain ⟨rest, rfl⟩ := hheader
    rw [decodeFrame_of_header (readFrameHeader_of_frame hsize rest) hlong]
    dsimp only
    rw [frame.length_encode] at hshort
    rw [if_pos hshort]

theorem gives_readFrameHeader : Gives readFrameHeader fun header =>
    header.payloadLength ≤ limits.maxFramePayloadBytes := by
  refine (gives_true _).bind fun _ _ => (gives_true _).bind fun _ _ => (gives_true _).bind fun _ _ =>
    (gives_true _).bind fun type _ => (gives_true _).bind fun _ _ => (gives_true _).bind fun _ _ =>
    (gives_true _).bind fun _ _ => (gives_true _).bind fun _ _ => ?_
  split
  · exact gives_fail
  · exact (gives_true _).bind fun _ _ => gives_check.bind fun _ hlength => gives_pure hlength

/-- A header is refused for its form, its version or the size that it announces. -/
theorem refuses_readFrameHeader {P : FrameDecodeStatus → Prop} (hmalformed : P .malformed)
    (hversion : P .unsupportedVersion) (hlarge : P .tooLarge) :
    Refuses readFrameHeader fun refusal => P refusal.1 := by
  unfold readFrameHeader
  refine .bind (refuses_take hmalformed) fun _ => .bind (refuses_check hmalformed) fun _ =>
    .bind (refuses_number hmalformed) fun _ => .bind (refuses_number hmalformed) fun _ =>
    .bind (refuses_u64Field hmalformed) fun _ => .bind (refuses_number hmalformed) fun _ =>
    .bind (refuses_number hmalformed) fun _ => .bind (refuses_check hversion) fun _ => ?_
  split
  · exact refuses_fail hmalformed
  · exact .bind (refuses_check hmalformed) fun _ => .bind (refuses_check hlarge) fun _ =>
      refuses_pure

/-- A header that is there is not waited for. -/
theorem not_incomplete_of_refused {buffer : Bytes} {refusal : FrameDecodeStatus × Text}
    (h : readFrameHeader buffer = .error refusal) : refusal.1 ≠ .incomplete :=
  @refuses_readFrameHeader (· ≠ .incomplete) FrameDecodeStatus.noConfusion
    FrameDecodeStatus.noConfusion FrameDecodeStatus.noConfusion _ _ h

theorem not_complete_of_refused {buffer : Bytes} {refusal : FrameDecodeStatus × Text}
    (h : readFrameHeader buffer = .error refusal) : refusal.1 ≠ .complete :=
  @refuses_readFrameHeader (· ≠ .complete) FrameDecodeStatus.noConfusion
    FrameDecodeStatus.noConfusion FrameDecodeStatus.noConfusion _ _ h

/-- What is reported as a frame is one, at the front of the buffer. -/
theorem encode_of_decodeFrame {buffer : Bytes} (h : (decodeFrame buffer).status = .complete) :
    (decodeFrame buffer).frame.payload.length ≤ limits.maxFramePayloadBytes ∧
      (decodeFrame buffer).consumed ≤ buffer.length ∧
      buffer.take (decodeFrame buffer).consumed = (decodeFrame buffer).frame.encode := by
  revert h
  rcases lt_or_ge buffer.length frameHeaderBytes with hsmall | hlong
  · rw [decodeFrame, if_pos hsmall]
    intro h
    cases h
  cases hread : readFrameHeader buffer with
  | error refusal =>
    rw [decodeFrame, if_neg (not_lt.mpr hlong), hread]
    exact fun h => absurd h (not_complete_of_refused hread)
  | ok read =>
    obtain ⟨header, rest⟩ := read
    rw [decodeFrame_of_header hread hlong]
    dsimp only
    have hbuffer := takes_readFrameHeader _ _ _ hread
    have hlimit := gives_readFrameHeader _ _ _ hread
    rw [List.nil_append] at hbuffer
    split
    · intro h
      cases h
    rename_i htotal
    split
    · intro h
      cases h
    rename_i hintegrity
    intro _
    have hheader := length_frameHeader header.type header.requestId header.payloadLength
    have hrest : buffer.length = frameHeaderBytes + rest.length := by
      rw [congrArg List.length hbuffer, List.length_append, hheader]
    have hpayload : (rest.take header.payloadLength).length = header.payloadLength :=
      List.length_take_of_le (by omega)
    have hdrop : buffer.drop frameHeaderBytes = rest := by rw [hbuffer, List.drop_left' hheader]
    -- The digest covers the first bytes of the header and the payload, put together again.
    have hcovered : buffer.take (frameHeaderBytes + header.payloadLength) =
        frameHeader header.type header.requestId header.payloadLength ++
          rest.take header.payloadLength := by
      rw [List.take_add, hdrop]
      congr 1
      rw [hbuffer, List.take_left' hheader]
    refine ⟨?_, not_lt.mp htotal, ?_⟩
    · dsimp only
      rw [hdrop, hpayload]
      exact hlimit
    · rw [List.take_add, ← not_not.mp hintegrity, hcovered, hdrop, Frame.encode, encodeFrame]
      dsimp only
      rw [hpayload]

end LinkState
