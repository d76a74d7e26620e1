import LinkStateFabric.Protocol.Message

/-!
# What a decoder makes of a message

* `Message.Valid`: what the decoder requires of a message of its type.
* `Message.carried`: what a payload carries of a message: the part that the type names, without the
  bookkeeping of its evidence record.
* `reads_readMessage`, `takes_readMessage`: a payload is read exactly where its message is valid,
  and a message is read from its payload only.
-/

namespace LinkState

open Codec

/-! ## Valid messages -/

def EvidenceKey.Valid (key : EvidenceKey) : Prop :=
  key.link.valid = true ∧ key.source.valid = true

/-- What the decoder requires of an evidence record on the wire. -/
structure EvidenceRecord.Sendable (record : EvidenceRecord) : Prop where
  key : record.key.Valid
  observation : record.observation.valid = true
  publisher : record.publisher.valid = true
  workerBoot : record.workerBoot.valid = true
  detail : validateText record.detail limits.maxDetailLength = none
  metadata : record.metadata.length ≤ limits.maxEvidenceMetadataBytes

structure HelloMessage.Valid (hello : HelloMessage) : Prop where
  agent : validateText hello.agent limits.maxIdentifierLength = none
  workerBoot : hello.workerBoot.valid = true

def HelloAckMessage.Valid (ack : HelloAckMessage) : Prop :=
  validateText ack.coordinator limits.maxIdentifierLength = none

structure RegisterMessage.Valid (registration : RegisterMessage) : Prop where
  publisher : registration.publisher.valid = true
  workerBoot : registration.workerBoot.valid = true
  source : registration.source.valid = true
  links : registration.links.length ≤ limits.maxAuthorityScopeLinks ∧
    ∀ link ∈ registration.links, link.valid = true

structure PublishMessage.Valid (publish : PublishMessage) : Prop where
  publication : publish.publication.valid = true
  observation : publish.observation.Sendable

structure WithdrawMessage.Valid (withdraw : WithdrawMessage) : Prop where
  key : withdraw.key.Valid
  observation : withdraw.observation.valid = true
  publisher : withdraw.publisher.valid = true
  workerBoot : withdraw.workerBoot.valid = true
  reason : validateText withdraw.reason limits.maxDetailLength = none

structure InvalidateMessage.Valid (invalidate : InvalidateMessage) : Prop where
  publisher : invalidate.publisher.valid = true
  reason : validateText invalidate.reason limits.maxDetailLength = none

def ResultMessage.Valid (result : ResultMessage) : Prop :=
  validateText result.detail limits.maxDetailLength = none

/-- What the decoder requires of a message of its type. -/
def Message.Valid (message : Message) : Prop :=
  match message.type with
  | .hello => message.hello.Valid
  | .helloAck => message.helloAck.Valid
  | .registerPublisher => message.registration.Valid
  | .publishEvidence => message.publish.Valid
  | .withdrawEvidence => message.withdraw.Valid
  | .invalidatePublisher => message.invalidate.Valid
  | .queryState => message.query.link.valid = true
  | .registerResult | .publishResult | .withdrawResult | .invalidateResult | .queryResult | .error
  | .shutdown => message.result.Valid

/-! ## What a payload carries -/

/-- A record without its bookkeeping. -/
def EvidenceRecord.observed (record : EvidenceRecord) : EvidenceRecord :=
  { record with
    status := .current, evidenceGeneration := .zero, commitSequence := .zero, recordDigest := .zero }

/-- The part of a message that its payload carries. -/
def Message.carried (message : Message) : Message :=
  let type := message.type
  match type with
  | .hello => { type, hello := message.hello }
  | .helloAck => { type, helloAck := message.helloAck }
  | .registerPublisher => { type, registration := message.registration }
  | .publishEvidence =>
    { type
      publish := { message.publish with observation := message.publish.observation.observed } }
  | .withdrawEvidence => { type, withdraw := message.withdraw }
  | .invalidatePublisher => { type, invalidate := message.invalidate }
  | .queryState => { type, query := message.query }
  | .registerResult | .publishResult | .withdrawResult | .invalidateResult | .queryResult
  | .error => { type, result := message.result }
  | .shutdown => { type, result := { detail := message.result.detail } }

/-! ## Fields -/

section Fields

open MessageReader

theorem reads_text {value : Text} (maxLength : Nat) (h : value.length < 2 ^ 32) :
    Reads (text maxLength) (encodeText value) (validateText value maxLength = none) value :=
  reads_textField errors maxLength h

theorem reads_id {tag : IdTag} (allowEmpty : Bool) (value : StrongId tag) :
    Reads (MessageReader.id allowEmpty) (encodeId value) (allowEmpty = true ∨ value.valid = true)
      value :=
  reads_idField errors allowEmpty value

theorem reads_generation {tag : GenTag} (value : StrongGeneration tag) :
    Reads generation (encodeGeneration value) True value :=
  reads_generationField value

theorem reads_u64 (value : U64) : Reads u64 (leBytes 8 value) True value := reads_u64Field value

theorem reads_enum {α : Type} [ByteEnum α] (field : Text) (value : α) :
    Reads (enum field) (encodeEnum value) True value :=
  reads_enumField value

theorem reads_flag (invalid : Text) (value : Bool) :
    Reads (flag invalid) (encodeBool value) True value :=
  reads_boolField value

theorem takes_text {maxLength : Nat} : Takes [] (text maxLength) encodeText :=
  takes_textField errors

theorem takes_id {tag : IdTag} {allowEmpty : Bool} :
    Takes [] (@MessageReader.id tag allowEmpty) encodeId :=
  takes_idField errors

theorem takes_generation {tag : GenTag} : Takes [] (@generation tag) encodeGeneration :=
  takes_generationField

theorem takes_u64 : Takes [] u64 fun value => leBytes 8 value := takes_u64Field

theorem takes_enum {α : Type} [ByteEnum α] {field : Text} :
    Takes [] (@enum α _ field) encodeEnum :=
  takes_enumField

theorem takes_flag {invalid : Text} : Takes [] (flag invalid) encodeBool := takes_boolField

end Fields

/-! ## Payloads are read back -/

/-- The lengths of a message that are stored in 32 bits are not cut off. -/
structure Message.Fits (message : Message) : Prop where
  agent : message.hello.agent.length < 2 ^ 32
  coordinator : message.helloAck.coordinator.length < 2 ^ 32
  links : message.registration.links.length < 2 ^ 32
  detail : message.publish.observation.detail.length < 2 ^ 32
  metadata : message.publish.observation.metadata.length < 2 ^ 32
  withdrawal : message.withdraw.reason.length < 2 ^ 32
  invalidation : message.invalidate.reason.length < 2 ^ 32
  result : message.result.detail.length < 2 ^ 32

theorem reads_readHello {hello : HelloMessage} (h : hello.agent.length < 2 ^ 32) :
    Reads readHello (encodeHello hello) hello.Valid hello :=
  Reads.conv
    (.bind (reads_text _ h) fun _ => .bind (reads_id false hello.workerBoot) fun _ =>
      .finish (reads_generation hello.epoch) fun _ => .pure _)
    (by simp only [encodeHello, List.append_assoc])
    (by simpa using ⟨fun h => ⟨h.agent, h.workerBoot⟩, fun h => ⟨h.1, h.2⟩⟩) fun _ => rfl

theorem reads_readHelloAck {ack : HelloAckMessage} (h : ack.coordinator.length < 2 ^ 32) :
    Reads readHelloAck (encodeHelloAck ack) ack.Valid ack := by
  refine Reads.conv
    (.bind (.number 2 ack.version.val) fun _ => .bind (reads_generation ack.epoch) fun _ =>
      .bind (reads_text _ h) fun _ => .finish (reads_u64 ack.linkCount) fun _ => .pure _)
    (by simp only [encodeHelloAck, List.append_assoc]) (by simp [HelloAckMessage.Valid])
    fun _ => ?_
  have hversion : Fin.ofNat (2 ^ 16) (ack.version.val % 256 ^ 2) = ack.version := by
    ext
    rw [Fin.val_ofNat, Nat.mod_mod_of_dvd _ (by decide), Nat.mod_eq_of_lt ack.version.isLt]
  rw [hversion]

theorem reads_readRegister {registration : RegisterMessage}
    (h : registration.links.length < 2 ^ 32) :
    Reads readRegister (encodeRegister registration) registration.Valid registration :=
  Reads.conv
    (.bind (reads_id false registration.publisher) fun _ =>
      .bind (reads_id false registration.workerBoot) fun _ =>
      .bind (reads_id false registration.source) fun _ =>
      .bind (reads_id true registration.fabric) fun _ =>
      .bind (reads_generation registration.epoch) fun _ =>
      .finish (reads_listFieldEach h fun link _ => reads_id false link) fun _ => .pure _)
    (by simp only [encodeRegister, List.append_assoc])
    (by simpa using ⟨fun h => ⟨h.publisher, h.workerBoot, h.source, h.links⟩,
      fun h => ⟨h.1, h.2.1, h.2.2.1, h.2.2.2⟩⟩) fun _ => rfl

theorem reads_readKey (direction kind : Text) (key : EvidenceKey) :
    Reads (readKey direction kind) (writeKey key) key.Valid key :=
  Reads.conv
    (.bind (reads_id false key.link) fun _ => .bind (reads_id false key.source) fun _ =>
      .bind (reads_id true key.endpoint) fun _ => .bind (reads_enum direction key.direction) fun _ =>
      .finish (reads_enum kind key.kind) fun _ => .pure _)
    (by simp only [writeKey, List.append_assoc]) (by simp [EvidenceKey.Valid]) fun _ => rfl

theorem reads_readEvidence {record : EvidenceRecord} (hdetail : record.detail.length < 2 ^ 32)
    (hmetadata : record.metadata.length < 2 ^ 32) :
    Reads readEvidence (writeEvidence record) record.Sendable record.observed :=
  Reads.conv
    (.bind (reads_readKey _ _ record.key) fun _ => .bind (reads_id false record.observation) fun _ =>
      .bind (reads_id false record.publisher) fun _ =>
      .bind (reads_id false record.workerBoot) fun _ =>
      .bind (reads_generation record.epoch) fun _ =>
      .bind (reads_generation record.sourceGeneration) fun _ =>
      .bind (reads_u64 record.sequence) fun _ =>
      .bind (reads_generation record.topologyGeneration) fun _ =>
      .bind (reads_generation record.endpointGeneration) fun _ =>
      .bind (reads_enum _ record.evidenceClass) fun _ => .bind (reads_enum _ record.claim) fun _ =>
      .bind (reads_enum _ record.degradationCause) fun _ =>
      .bind (reads_u64 record.observedAtUnixNanos) fun _ => .bind (reads_text _ hdetail) fun _ =>
      .finish (reads_blobField _ hmetadata) fun _ => .pure _)
    (by simp only [writeEvidence, List.append_assoc])
    (by simpa using ⟨fun h => ⟨h.key, h.observation, h.publisher, h.workerBoot, h.detail,
      h.metadata⟩, fun h => ⟨h.1, h.2.1, h.2.2.1, h.2.2.2.1, h.2.2.2.2.1, h.2.2.2.2.2⟩⟩)
    fun _ => rfl

theorem reads_readPublish {publish : PublishMessage}
    (hdetail : publish.observation.detail.length < 2 ^ 32)
    (hmetadata : publish.observation.metadata.length < 2 ^ 32) :
    Reads readPublish (encodePublish publish) publish.Valid
      { publish with observation := publish.observation.observed } :=
  Reads.conv
    (.bind (reads_id false publish.publication) fun _ =>
      .bind (reads_readEvidence hdetail hmetadata) fun _ =>
      .bind (reads_flag _ publish.hasExpectedEvidenceGeneration) fun _ =>
      .bind (reads_generation publish.expectedEvidenceGeneration) fun _ =>
      .bind (reads_flag _ publish.hasExpectedStateGeneration) fun _ =>
      .finish (reads_generation publish.expectedStateGeneration) fun _ => .pure _)
    (by simp only [encodePublish, List.append_assoc])
    (by simpa using ⟨fun h => ⟨h.publication, h.observation⟩, fun h => ⟨h.1, h.2⟩⟩) fun _ => rfl

theorem reads_readWithdraw {withdraw : WithdrawMessage} (h : withdraw.reason.length < 2 ^ 32) :
    Reads readWithdraw (encodeWithdraw withdraw) withdraw.Valid withdraw :=
  Reads.conv
    (.bind (reads_readKey _ _ withdraw.key) fun _ =>
      .bind (reads_id false withdraw.observation) fun _ =>
      .bind (reads_id false withdraw.publisher) fun _ =>
      .bind (reads_id false withdraw.workerBoot) fun _ =>
      .bind (reads_generation withdraw.epoch) fun _ =>
      .bind (reads_generation withdraw.sourceGeneration) fun _ =>
      .bind (reads_u64 withdraw.sequence) fun _ => .finish (reads_text _ h) fun _ => .pure _)
    (by simp only [encodeWithdraw, List.append_assoc])
    (by simpa using ⟨fun h => ⟨h.key, h.observation, h.publisher, h.workerBoot, h.reason⟩,
      fun h => ⟨h.1, h.2.1, h.2.2.1, h.2.2.2.1, h.2.2.2.2⟩⟩) fun _ => rfl

theorem reads_readInvalidate {invalidate : InvalidateMessage}
    (h : invalidate.reason.length < 2 ^ 32) :
    Reads readInvalidate (encodeInvalidate invalidate) invalidate.Valid invalidate :=
  Reads.conv
    (.bind (reads_id false invalidate.publisher) fun _ =>
      .bind (reads_id true invalidate.workerBoot) fun _ =>
      .bind (reads_generation invalidate.epoch) fun _ => .finish (reads_text _ h) fun _ => .pure _)
    (by simp only [encodeInvalidate, List.append_assoc])
    (by simpa using ⟨fun h => ⟨h.publisher, h.reason⟩, fun h => ⟨h.1, h.2⟩⟩) fun _ => rfl

theorem reads_readQuery (query : QueryMessage) :
    Reads readQuery (encodeId query.link) (query.link.valid = true) query :=
  Reads.conv (.finish (reads_id false query.link) fun _ => .pure _) rfl (by simp) fun _ => rfl

theorem reads_readResult {result : ResultMessage} (h : result.detail.length < 2 ^ 32) :
    Reads readResult (encodeResult result) result.Valid result :=
  Reads.conv
    (.bind (reads_enum _ result.code) fun _ => .bind (reads_text _ h) fun _ =>
      .bind (reads_enum _ result.state) fun _ =>
      .bind (reads_generation result.stateGeneration) fun _ =>
      .bind (reads_generation result.evidenceGeneration) fun _ =>
      .bind (reads_generation result.globalGeneration) fun _ =>
      .bind (reads_generation result.topologyGeneration) fun _ =>
      .bind (reads_generation result.endpointGeneration) fun _ =>
      .finish (reads_flag _ result.found) fun _ => .pure _)
    (by simp only [encodeResult, List.append_assoc]) (by simp [ResultMessage.Valid]) fun _ => rfl

theorem validateText_fits {text : Text} {maxLength : Nat} (h : validateText text maxLength = none)
    (hmax : maxLength < 2 ^ 32) : text.length < 2 ^ 32 :=
  lt_of_le_of_lt (validateText_length h) hmax

theorem Message.Valid.fits {message : Message} (h : message.Valid) : message.carried.Fits := by
  obtain ⟨type, hello, ack, registration, publish, withdraw, invalidate, query, result⟩ := message
  have hnil : ([] : Text).length < 2 ^ 32 := by decide
  cases type with
  | hello => exact ⟨validateText_fits h.agent (by decide), hnil, hnil, hnil, hnil, hnil, hnil, hnil⟩
  | helloAck => exact ⟨hnil, validateText_fits h (by decide), hnil, hnil, hnil, hnil, hnil, hnil⟩
  | registerPublisher =>
    exact ⟨hnil, hnil, lt_of_le_of_lt h.links.1 (by decide), hnil, hnil, hnil, hnil, hnil⟩
  | publishEvidence =>
    exact ⟨hnil, hnil, hnil, validateText_fits h.observation.detail (by decide),
      lt_of_le_of_lt h.observation.metadata (by decide), hnil, hnil, hnil⟩
  | withdrawEvidence =>
    exact ⟨hnil, hnil, hnil, hnil, hnil, validateText_fits h.reason (by decide), hnil, hnil⟩
  | invalidatePublisher =>
    exact ⟨hnil, hnil, hnil, hnil, hnil, hnil, validateText_fits h.reason (by decide), hnil⟩
  | queryState => exact ⟨hnil, hnil, hnil, hnil, hnil, hnil, hnil, hnil⟩
  | registerResult | publishResult | withdrawResult | invalidateResult | queryResult | error
  | shutdown =>
    exact ⟨hnil, hnil, hnil, hnil, hnil, hnil, hnil, validateText_fits h (by decide)⟩

/-- A payload that is short cuts no length off. -/
theorem Message.fits_of_short {message : Message} (h : (encodeMessage message).length < 2 ^ 32) :
    message.carried.Fits := by
  obtain ⟨type, hello, ack, registration, publish, withdraw, invalidate, query, result⟩ := message
  have hnil : ([] : Text).length < 2 ^ 32 := by decide
  -- One part is carried with each type, and the others have their default values.
  cases type with
  | hello =>
    simp only [encodeMessage, encodeHello, encodeText, List.length_append] at h
    exact ⟨by dsimp only [carried]; omega, hnil, hnil, hnil, hnil, hnil, hnil, hnil⟩
  | helloAck =>
    simp only [encodeMessage, encodeHelloAck, encodeText, List.length_append] at h
    exact ⟨hnil, by dsimp only [carried]; omega, hnil, hnil, hnil, hnil, hnil, hnil⟩
  | registerPublisher =>
    simp only [encodeMessage, encodeRegister, List.length_append] at h
    -- The links are not a part whose length is given, but each takes some bytes of its own.
    have hlinks := @short_of_encodeList _ encodeId registration.links
      (fun link _ => encodeId_pos link) (by omega)
    exact ⟨hnil, hnil, hlinks.1, hnil, hnil, hnil, hnil, hnil⟩
  | publishEvidence =>
    simp only [encodeMessage, encodePublish, writeEvidence, encodeText, encodeBlob,
      List.length_append] at h
    exact ⟨hnil, hnil, hnil, by dsimp only [carried, EvidenceRecord.observed]; omega,
      by dsimp only [carried, EvidenceRecord.observed]; omega, hnil, hnil, hnil⟩
  | withdrawEvidence =>
    simp only [encodeMessage, encodeWithdraw, encodeText, List.length_append] at h
    exact ⟨hnil, hnil, hnil, hnil, hnil, by dsimp only [carried]; omega, hnil, hnil⟩
  | invalidatePublisher =>
    simp only [encodeMessage, encodeInvalidate, encodeText, List.length_append] at h
    exact ⟨hnil, hnil, hnil, hnil, hnil, hnil, by dsimp only [carried]; omega, hnil⟩
  | queryState => exact ⟨hnil, hnil, hnil, hnil, hnil, hnil, hnil, hnil⟩
  | registerResult | publishResult | withdrawResult | invalidateResult | queryResult | error =>
    simp only [encodeMessage, encodeResult, encodeText, List.length_append] at h
    exact ⟨hnil, hnil, hnil, hnil, hnil, hnil, hnil, by dsimp only [carried]; omega⟩
  | shutdown =>
    simp only [encodeMessage, encodeText, List.length_append] at h
    exact ⟨hnil, hnil, hnil, hnil, hnil, hnil, hnil, by dsimp only [carried]; omega⟩

/-- A payload is read exactly where its message is valid, and gives what it carries of it. -/
theorem reads_readMessage {message : Message} (h : message.carried.Fits) :
    Reads (readMessage message.type) (encodeMessage message) message.Valid message.carried := by
  obtain ⟨type, hello, ack, registration, publish, withdraw, invalidate, query, result⟩ := message
  -- The payload of a type is a payload of its part, from which the message is made.
  have hmade {α : Type} {r : MessageReader α} {enc : Bytes} {ok : Prop} {part : α}
      (hr : Reads r enc ok part) (make : α → Message) :
      Reads (r >>= fun part => pure (make part)) enc ok (make part) :=
    Reads.conv (.finish hr fun _ => .pure _) rfl (and_true ok).symm.to_iff fun _ => rfl
  cases type with
  | hello => exact hmade (@reads_readHello hello h.agent) _
  | helloAck => exact hmade (@reads_readHelloAck ack h.coordinator) _
  | registerPublisher => exact hmade (@reads_readRegister registration h.links) _
  | publishEvidence => exact hmade (@reads_readPublish publish h.detail h.metadata) _
  | withdrawEvidence => exact hmade (@reads_readWithdraw withdraw h.withdrawal) _
  | invalidatePublisher => exact hmade (@reads_readInvalidate invalidate h.invalidation) _
  | queryState => exact hmade (reads_readQuery query) _
  | registerResult | publishResult | withdrawResult | invalidateResult | queryResult | error =>
    exact hmade (@reads_readResult result h.result) _
  | shutdown => exact hmade (@reads_text result.detail _ h.result) _

/-! ## Payloads have one message -/

theorem takes_readHello : Takes [] readHello encodeHello :=
  takes_text.bind fun _ => takes_id.bind fun _ => takes_generation.bind fun _ => takes_pure rfl

theorem takes_readHelloAck : Takes [] readHelloAck encodeHelloAck := by
  refine takes_number.bind_of gives_number fun version hversion => takes_generation.bind fun _ =>
    takes_text.bind fun _ => takes_u64.bind fun _ => takes_pure ?_
  have hmod : version % 2 ^ 16 = version := Nat.mod_eq_of_lt (lt_of_lt_of_eq hversion (by decide))
  rw [encodeHelloAck, Fin.val_ofNat, hmod]
  rfl

theorem takes_readRegister : Takes [] readRegister encodeRegister :=
  takes_id.bind fun _ => takes_id.bind fun _ => takes_id.bind fun _ => takes_id.bind fun _ =>
    takes_generation.bind fun _ => (takes_listField fun _ => takes_id).bind fun _ => takes_pure rfl

theorem takes_readKey {direction kind : Text} : Takes [] (readKey direction kind) writeKey :=
  takes_id.bind fun _ => takes_id.bind fun _ => takes_id.bind fun _ => takes_enum.bind fun _ =>
    takes_enum.bind fun _ => takes_pure rfl

theorem takes_readEvidence : Takes [] readEvidence writeEvidence :=
  takes_readKey.bind fun _ => takes_id.bind fun _ => takes_id.bind fun _ => takes_id.bind fun _ =>
    takes_generation.bind fun _ => takes_generation.bind fun _ => takes_u64.bind fun _ =>
    takes_generation.bind fun _ => takes_generation.bind fun _ => takes_enum.bind fun _ =>
    takes_enum.bind fun _ => takes_enum.bind fun _ => takes_u64.bind fun _ =>
    takes_text.bind fun _ => takes_blobField.bind fun _ => takes_pure rfl

theorem takes_readPublish : Takes [] readPublish encodePublish :=
  takes_id.bind fun _ => takes_readEvidence.bind fun _ => takes_flag.bind fun _ =>
    takes_generation.bind fun _ => takes_flag.bind fun _ => takes_generation.bind fun _ =>
    takes_pure rfl

theorem takes_readWithdraw : Takes [] readWithdraw encodeWithdraw :=
  takes_readKey.bind fun _ => takes_id.bind fun _ => takes_id.bind fun _ => takes_id.bind fun _ =>
    takes_generation.bind fun _ => takes_generation.bind fun _ => takes_u64.bind fun _ =>
    takes_text.bind fun _ => takes_pure rfl

theorem takes_readInvalidate : Takes [] readInvalidate encodeInvalidate :=
  takes_id.bind fun _ => takes_id.bind fun _ => takes_generation.bind fun _ =>
    takes_text.bind fun _ => takes_pure rfl

theorem takes_readQuery : Takes [] readQuery fun query => encodeId query.link :=
  takes_id.bind fun _ => takes_pure rfl

theorem takes_readResult : Takes [] readResult encodeResult :=
  takes_enum.bind fun _ => takes_text.bind fun _ => takes_enum.bind fun _ =>
    takes_generation.bind fun _ => takes_generation.bind fun _ => takes_generation.bind fun _ =>
    takes_generation.bind fun _ => takes_generation.bind fun _ => takes_flag.bind fun _ =>
    takes_pure rfl

theorem takes_readMessage (type : MessageType) : Takes [] (readMessage type) encodeMessage := by
  cases type with
  | hello => exact takes_readHello.bind fun _ => takes_pure rfl
  | helloAck => exact takes_readHelloAck.bind fun _ => takes_pure rfl
  | registerPublisher => exact takes_readRegister.bind fun _ => takes_pure rfl
  | publishEvidence => exact takes_readPublish.bind fun _ => takes_pure rfl
  | withdrawEvidence => exact takes_readWithdraw.bind fun _ => takes_pure rfl
  | invalidatePublisher => exact takes_readInvalidate.bind fun _ => takes_pure rfl
  | queryState => exact takes_readQuery.bind fun _ => takes_pure rfl
  | shutdown => exact takes_text.bind fun _ => takes_pure rfl
  | registerResult | publishResult | withdrawResult | invalidateResult | queryResult | error =>
    exact takes_readResult.bind fun _ => takes_pure rfl

theorem gives_readMessage_type (type : MessageType) :
    Gives (readMessage type) fun message => message.type = type := by
  cases type <;> exact (gives_true _).bind fun _ _ => gives_pure rfl

end LinkState
