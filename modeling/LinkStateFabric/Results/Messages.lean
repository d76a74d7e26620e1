import LinkStateFabric.Engine.Run
import LinkStateFabric.Protocol.RoundTrip

/-!
# The codec of messages is a bijection on its image

* `decodeMessage_encodeMessage`: a valid message is decoded from its payload, on all that a payload
  carries.
* `encodeMessage_of_decodeMessage`: an accepted payload is that of the message it is decoded to.
* `carried_of_decodeMessage`: the decoder refuses what is not valid.
-/

namespace LinkState

open Codec

theorem decodeMessage_encodeMessage {message : Message} (h : message.Valid) :
    decodeMessage message.type (encodeMessage message) = .ok message.carried := by
  have hread := (reads_readMessage h.fits).accept h []
  rw [List.append_nil] at hread
  rw [decodeMessage, hread]
  rfl

theorem readMessage_of_decodeMessage {type : MessageType} {payload : Bytes} {message : Message}
    (h : decodeMessage type payload = .ok message) :
    readMessage type payload = .ok (message, []) := by
  unfold decodeMessage at h
  split at h
  · cases h
  split at h
  · rename_i hread hempty
    cases h
    rw [hread, List.isEmpty_iff.mp hempty]
  · cases h

theorem encodeMessage_of_decodeMessage {type : MessageType} {payload : Bytes} {message : Message}
    (h : decodeMessage type payload = .ok message) :
    message.type = type ∧ encodeMessage message = payload := by
  have hread := readMessage_of_decodeMessage h
  have htaken := takes_readMessage type _ _ _ hread
  rw [List.nil_append, List.append_nil] at htaken
  exact ⟨gives_readMessage_type type _ _ _ hread, htaken.symm⟩

/-- A message whose short payload is decoded is valid, and gives what its payload carries. -/
theorem carried_of_decodeMessage {message decoded : Message}
    (hshort : (encodeMessage message).length < 2 ^ 32)
    (h : decodeMessage message.type (encodeMessage message) = .ok decoded) :
    message.Valid ∧ decoded = message.carried := by
  have hread := readMessage_of_decodeMessage h
  rw [← List.append_nil (encodeMessage message)] at hread
  obtain ⟨haccept, hreject⟩ := reads_readMessage (Message.fits_of_short hshort)
  by_cases hvalid : message.Valid
  · rw [haccept hvalid] at hread
    cases hread
    exact ⟨hvalid, rfl⟩
  · obtain ⟨error, herror⟩ := hreject hvalid []
    rw [herror] at hread
    cases hread

/-- Every valid message of every type comes back from its payload, and every accepted payload is the
payload of what it is decoded to. -/
theorem message_codec :
    (∀ message : Message, message.Valid →
      decodeMessage message.type (encodeMessage message) = .ok message.carried) ∧
    ∀ type payload message, decodeMessage type payload = .ok message →
      message.type = type ∧ encodeMessage message = payload :=
  ⟨fun _ => decodeMessage_encodeMessage, fun _ _ _ => encodeMessage_of_decodeMessage⟩

namespace Sample

/-- The publication of the small run as a message. -/
def publishMessage : Message where
  type := .publishEvidence
  publish :=
    { publication, observation
      hasExpectedStateGeneration := true
      expectedStateGeneration := .fromValue 1 }

theorem publishMessage_valid : publishMessage.Valid :=
  ⟨by decide, ⟨by decide, by decide⟩, by decide, by decide, by decide, by decide, by decide⟩

end Sample

theorem message_codec_sample :
    decodeMessage .publishEvidence (encodeMessage Sample.publishMessage) =
        .ok Sample.publishMessage.carried ∧
      encodeMessage Sample.publishMessage.carried = encodeMessage Sample.publishMessage :=
  have hdecode := message_codec.1 Sample.publishMessage Sample.publishMessage_valid
  ⟨hdecode, (message_codec.2 _ _ _ hdecode).2⟩

end LinkState
