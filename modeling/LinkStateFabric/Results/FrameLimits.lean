import LinkStateFabric.Engine.Run
import LinkStateFabric.Protocol.Client
import LinkStateFabric.Results.Messages
import Mathlib.Algebra.Order.BigOperators.Group.List

/-!
# Registrations and the size of a frame

A scope may have as many links as `max_authority_scope_links`, and so may the message that registers
it. But the message is sent in one frame, whose payload has a limit of its own, and an identifier may
have any length up to 128: `registration_arrives_iff` says which registrations get through.
-/

namespace LinkState

open Codec

/-! ## The size of a registration -/

/-- The bytes of a registration: the texts of its identifiers, with four bytes each for their
lengths, the epoch and the number of links. -/
def PublisherClientConfig.registrationSize (config : PublisherClientConfig) : Nat :=
  config.publisher.value.length + config.workerBoot.value.length + config.source.value.length +
    config.fabric.value.length + 28 + (config.links.map fun link => link.value.length + 4).sum

theorem length_registerMessage (client : PublisherClient) :
    (encodeMessage client.registerMessage).length = client.config.registrationSize := by
  have hlinks (links : List LinkId) : (links.flatMap encodeId).length =
      (links.map fun link => link.value.length + 4).sum := by
    rw [List.length_flatMap]
    refine congrArg List.sum (List.map_congr_left fun link _ => ?_)
    rw [encodeId, encodeText, List.length_append, length_leBytes, Nat.add_comm]
  show (encodeRegister client.registerMessage.registration).length = _
  simp only [encodeRegister, encodeId, encodeText, encodeGeneration, encodeList, List.length_append,
    length_leBytes, PublisherClient.registerMessage, PublisherClientConfig.registrationSize]
  rw [← hlinks]
  omega

/-- Links within the limit of a scope do not take more bytes than 32 bits count. -/
theorem registrationSize_lt {config : PublisherClientConfig}
    (h : config.links.length ≤ limits.maxAuthorityScopeLinks) : config.registrationSize < 2 ^ 32 := by
  have hid {tag : IdTag} (id : StrongId tag) : id.value.length ≤ 128 := id.length_le
  have hsum : (config.links.map fun link => link.value.length + 4).sum ≤ config.links.length * 132 := by
    have := List.sum_le_card_nsmul (config.links.map fun link => link.value.length + 4) 132
      (List.forall_mem_map.mpr fun link _ => Nat.add_le_add_right (hid link) 4)
    simpa using this
  have hpublisher := hid config.publisher
  have hboot := hid config.workerBoot
  have hsource := hid config.source
  have hfabric := hid config.fabric
  have hcount : config.links.length ≤ 65536 := h
  unfold PublisherClientConfig.registrationSize
  omega

/-! ## Acceptance -/

theorem PublisherClientConfig.valid_of_validate {config : PublisherClientConfig}
    (h : config.validate = []) :
    config.publisher.valid = true ∧ config.workerBoot.valid = true ∧ config.source.valid = true := by
  unfold validate at h
  split at h
  · exact absurd h (by decide)
  split at h
  · exact absurd h (by decide)
  split at h
  · exact absurd h (by decide)
  rename_i hpublisher
  split at h
  · exact absurd h (by decide)
  rename_i hboot
  split at h
  · exact absurd h (by decide)
  rename_i hsource
  exact ⟨by simpa using hpublisher, by simpa using hboot, by simpa using hsource⟩

/-- The decoder bounds the number of links, and nothing else of a configuration that is valid. -/
theorem registerMessage_valid_iff {client : PublisherClient} (hvalid : client.config.validate = [])
    (hlinks : ∀ link ∈ client.config.links, link.valid = true) :
    client.registerMessage.Valid ↔ client.config.links.length ≤ limits.maxAuthorityScopeLinks := by
  obtain ⟨hpublisher, hboot, hsource⟩ := PublisherClientConfig.valid_of_validate hvalid
  constructor
  · intro h
    exact h.links.1
  · intro h
    exact ⟨hpublisher, hboot, hsource, h, hlinks⟩

/-- A payload of more than a frame may have is refused by its header. -/
theorem decodeFrame_of_long (frame : Frame)
    (hlong : limits.maxFramePayloadBytes < frame.payload.length)
    (h : frame.payload.length < 2 ^ 32) : (decodeFrame frame.encode).status ≠ .complete := by
  rw [frame.encode_eq]
  have hheader := length_frameHeader frame.type frame.requestId frame.payload.length
  obtain ⟨refusal, hrefusal⟩ := (reads_readFrameHeader frame.type frame.requestId h).reject
    (not_le.mpr hlong) (frame.payload ++ frame.integrity)
  rw [decodeFrame, if_neg (by rw [List.length_append]; omega), hrefusal]
  exact not_complete_of_refused hrefusal

namespace PublisherClient

/-- The frame that `register_publisher` sends. -/
def registrationFrame (client : PublisherClient) (requestId : U64) : Frame where
  type := .registerPublisher
  requestId := requestId
  payload := encodeMessage client.registerMessage

/-- What is received is a frame, and its payload is a message. -/
def Accepts (buffer : Bytes) : Prop :=
  (decodeFrame buffer).status = .complete ∧
    ∃ message, decodeMessage (decodeFrame buffer).frame.type (decodeFrame buffer).frame.payload =
      .ok message

/-- What is received is this frame, and its payload is this message. -/
def Receives (buffer : Bytes) (frame : Frame) (message : Message) : Prop :=
  (decodeFrame buffer).status = .complete ∧ (decodeFrame buffer).frame = frame ∧
    decodeMessage frame.type frame.payload = .ok message

end PublisherClient

/-- A registration by a valid configuration arrives as it was sent exactly when its links are no
more than a scope may have and its size is no more than a frame may carry. Of scopes within the
limit, no other registration is accepted at all. -/
theorem registration_arrives_iff (client : PublisherClient) (requestId : U64)
    (hvalid : client.config.validate = [])
    (hlinks : ∀ link ∈ client.config.links, link.valid = true) :
    let frame := client.registrationFrame requestId
    (PublisherClient.Receives (encodeFrame frame.type frame.requestId frame.payload) frame
        client.registerMessage ↔
      client.config.links.length ≤ limits.maxAuthorityScopeLinks ∧
        client.config.registrationSize ≤ limits.maxFramePayloadBytes) ∧
    (client.config.links.length ≤ limits.maxAuthorityScopeLinks →
      (PublisherClient.Accepts (encodeFrame frame.type frame.requestId frame.payload) ↔
        client.config.registrationSize ≤ limits.maxFramePayloadBytes)) := by
  intro frame
  have hsize : frame.payload.length = client.config.registrationSize := length_registerMessage client
  have hvalidMessage := registerMessage_valid_iff hvalid hlinks
  have hreceives (hcount : client.config.links.length ≤ limits.maxAuthorityScopeLinks)
      (hshort : client.config.registrationSize ≤ limits.maxFramePayloadBytes) :
      PublisherClient.Receives frame.encode frame client.registerMessage := by
    have hdecoded := decodeFrame_encode (hsize.trans_le hshort) []
    rw [List.append_nil] at hdecoded
    have hmessage := decodeMessage_encodeMessage (hvalidMessage.mpr hcount)
    exact ⟨by rw [hdecoded], by rw [hdecoded], hmessage⟩
  refine ⟨⟨fun h => ?_, fun h => hreceives h.1 h.2⟩, fun hcount => ⟨fun h => ?_, fun h => ?_⟩⟩
  · obtain ⟨hstatus, hframe, hmessage⟩ := h
    have hshort := (encode_of_decodeFrame hstatus).1
    rw [hframe, hsize] at hshort
    have hfits : (encodeMessage client.registerMessage).length < 2 ^ 32 :=
      lt_of_le_of_lt (hsize.trans_le hshort) (by decide)
    exact ⟨hvalidMessage.mp (carried_of_decodeMessage hfits hmessage).1, hshort⟩
  -- A payload above the limit is refused by its header.
  · by_contra hlong
    refine decodeFrame_of_long frame ?_ ?_ h.1
    · rw [hsize]
      exact not_le.mp hlong
    · rw [hsize]
      exact registrationSize_lt hcount
  · obtain ⟨hstatus, hframe, hmessage⟩ := hreceives hcount h
    refine ⟨hstatus, client.registerMessage, ?_⟩
    rw [show (decodeFrame (encodeFrame frame.type frame.requestId frame.payload)).frame = frame from
      hframe]
    exact hmessage

/-! ### A fleet -/

namespace Sample

/-- A port of a fleet. -/
def leafPort (number : Nat) : LinkId := .fromValidated (lit "fabric/leaf/port-" ++ formatU64 number)

theorem leafPort_value {number : Nat} (h : number < 2 ^ 64) :
    (leafPort number).value = lit "fabric/leaf/port-" ++ formatU64 number :=
  StrongId.value_fromValidated (validateIdentifier_numbered (by decide) (by decide) (by decide) h)

/-- A client that watches the first ports. -/
def fleet (count : Nat) : PublisherClient where
  config :=
    { port := 1, publisher, workerBoot := boot, source
      links := (List.range count).map leafPort }

variable {count : Nat}

theorem length_fleet : (fleet count).config.links.length = count := by
  simp [fleet]

theorem fleet_validate (hpos : 0 < count) : (fleet count).config.validate = [] := by
  have hlinks : (fleet count).config.links.isEmpty = false := by
    rw [List.isEmpty_eq_false_iff, ← List.length_pos_iff, length_fleet]
    exact hpos
  rw [PublisherClientConfig.validate, hlinks]
  rfl

theorem leafPort_of_mem (h : count ≤ 2 ^ 64) {link : LinkId}
    (hlink : link ∈ (fleet count).config.links) : ∃ number < 2 ^ 64, leafPort number = link := by
  obtain ⟨number, hnumber, rfl⟩ := List.mem_map.mp hlink
  exact ⟨number, lt_of_lt_of_le (List.mem_range.mp hnumber) h, rfl⟩

theorem nodup_fleet (h : count ≤ 2 ^ 64) : (fleet count).config.links.Nodup := by
  refine List.Nodup.map_on (fun a ha b hb hab => ?_) List.nodup_range
  have hvalue := congrArg StrongId.value hab
  rw [leafPort_value (lt_of_lt_of_le (List.mem_range.mp ha) h),
    leafPort_value (lt_of_lt_of_le (List.mem_range.mp hb) h)] at hvalue
  exact formatU64_injective (List.append_cancel_left hvalue)

/-- A port takes 22 bytes at least: 17 and a digit, and four for their number. -/
theorem fleet_size (h : count ≤ 2 ^ 64) : count * 22 ≤ (fleet count).config.registrationSize := by
  have hsum := List.card_nsmul_le_sum
    ((fleet count).config.links.map fun link => link.value.length + 4) 22
    (List.forall_mem_map.mpr fun link hlink => by
      obtain ⟨number, hnumber, rfl⟩ := leafPort_of_mem h hlink
      have hdigits := List.length_pos_iff.mpr (formatU64_ne_nil number)
      have hstem : (lit "fabric/leaf/port-").length = 17 := by decide
      rw [leafPort_value hnumber, List.length_append]
      omega)
  rw [List.length_map, length_fleet, nsmul_eq_mul] at hsum
  unfold PublisherClientConfig.registrationSize
  simp only [Nat.cast_id] at hsum
  omega

end Sample

/-- A scope is accepted if it has a link and no more than the limit. -/
theorem normalize_isSome {scope : AuthorityScope} (hne : scope.links ≠ [])
    (h : scope.links.length ≤ limits.maxAuthorityScopeLinks) : scope.normalize.isSome = true := by
  have hlength := ((List.insertionSort (· ≤ ·) scope.links).destutter_sublist (· ≠ ·)).length_le
  rw [List.length_insertionSort] at hlength
  obtain ⟨link, hlink⟩ := List.exists_mem_of_ne_nil _ hne
  have hmem : link ∈ (List.insertionSort (· ≤ ·) scope.links).destutter (· ≠ ·) :=
    Sorting.mem_destutter.mpr ((List.mem_insertionSort _).mpr hlink)
  unfold AuthorityScope.normalize
  dsimp only
  rw [if_neg]
  · rfl
  · simp only [Bool.or_eq_true, List.isEmpty_iff, decide_eq_true_eq, not_or, not_lt]
    exact ⟨List.ne_nil_of_mem hmem, hlength.trans h⟩

/-- A configuration is valid and its scope within the limit, but its registration is no frame to who
receives it. -/
theorem fleet_not_registered :
    let client := Sample.fleet limits.maxAuthorityScopeLinks
    client.config.validate = [] ∧ (∀ link ∈ client.config.links, link.valid = true) ∧
      client.config.links.Nodup ∧
      client.config.links.length = limits.maxAuthorityScopeLinks ∧
      (AuthorityScope.normalize { links := client.config.links }).isSome = true ∧
      ¬ PublisherClient.Accepts
        (encodeFrame .registerPublisher 1 (encodeMessage client.registerMessage)) := by
  generalize hcount : limits.maxAuthorityScopeLinks = count
  have hcount : count = 65536 := hcount.symm
  have hlength : (Sample.fleet count).config.links.length = count := Sample.length_fleet
  have hne : (Sample.fleet count).config.links ≠ [] := by
    rw [← List.length_pos_iff, hlength]
    omega
  refine ⟨Sample.fleet_validate (by omega), fun link hlink => ?_, Sample.nodup_fleet (by omega),
    hlength, normalize_isSome hne ?_, fun h => ?_⟩
  · obtain ⟨number, hnumber, rfl⟩ := Sample.leafPort_of_mem (by omega) hlink
    rw [StrongId.valid_iff, Sample.leafPort_value hnumber]
    exact List.append_ne_nil_of_right_ne_nil _ (formatU64_ne_nil number)
  · exact (hlength.trans hcount).le
  · have hlong := @Sample.fleet_size count (by omega)
    have hlimit : limits.maxFramePayloadBytes = 1048576 := rfl
    refine decodeFrame_of_long ((Sample.fleet count).registrationFrame 1) ?_ ?_ h.1
    · refine lt_of_lt_of_eq ?_ (length_registerMessage (Sample.fleet count)).symm
      omega
    · exact (length_registerMessage (Sample.fleet count)).trans_lt
        (registrationSize_lt (hlength.trans hcount).le)

theorem registration_arrives_sample :
    let client : PublisherClient :=
      { config :=
          { port := 1, publisher := Sample.publisher, workerBoot := Sample.boot
            source := Sample.source
            links := [Sample.link, .fromValidated (lit "link-2"), .fromValidated (lit "link-3")] } }
    PublisherClient.Receives (encodeFrame .registerPublisher 7 (encodeMessage client.registerMessage))
      (client.registrationFrame 7) client.registerMessage :=
  (registration_arrives_iff _ 7 (by decide) (by decide)).1.mpr ⟨by decide, by decide⟩

end LinkState
