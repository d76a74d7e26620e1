import LinkStateFabric.Fields
import LinkStateFabric.Record

/-!
# Messages (`protocol.hpp`, `protocol.cpp`)

A message is one of fourteen types, and its payload is laid out by its type. `encodeMessage` writes
the payload, `decodeMessage` reads it. A type is known or it is not a `MessageType`, so that the
defaults of the two switches have no counterpart.

The bookkeeping fields of an evidence record (`status`, the two generations of the commit, the
digest) are not part of a message: a decoded record has their defaults.
-/

namespace LinkState

open Codec

/-! ## Types -/

inductive MessageType where
  | hello | helloAck | registerPublisher | registerResult | publishEvidence | publishResult
  | withdrawEvidence | withdrawResult | invalidatePublisher | invalidateResult | queryState
  | queryResult | shutdown | error
  deriving DecidableEq, Repr

namespace MessageType

/-- The types in the order of their numbers. -/
def all : List MessageType :=
  [hello, helloAck, registerPublisher, registerResult, publishEvidence, publishResult,
    withdrawEvidence, withdrawResult, invalidatePublisher, invalidateResult, queryState,
    queryResult, shutdown, error]

/-- The number of a type on the wire. -/
def code (type : MessageType) : Nat := all.idxOf type + 1

/-- The type of a known number (`is_known_message_type`). -/
def ofCode (value : Nat) : Option MessageType := if value = 0 then none else all[value - 1]?

end MessageType

instance U16.neZero : NeZero (2 ^ 16) := ⟨by decide⟩

def protocolVersion : Fin (2 ^ 16) := 1

/-! ## Messages -/

/-- The handshake of a worker that connects. -/
structure HelloMessage where
  agent : Text := []
  workerBoot : WorkerBootId := .null
  epoch : CoordinatorEpoch := .zero
  deriving DecidableEq

structure HelloAckMessage where
  version : Fin (2 ^ 16) := protocolVersion
  epoch : CoordinatorEpoch := .zero
  coordinator : Text := []
  linkCount : U64 := 0
  deriving DecidableEq

structure RegisterMessage where
  publisher : PublisherId := .null
  workerBoot : WorkerBootId := .null
  source : SourceId := .null
  fabric : FabricId := .null
  epoch : CoordinatorEpoch := .zero
  links : List LinkId := []
  deriving DecidableEq

structure PublishMessage where
  publication : PublicationId := .null
  observation : EvidenceRecord := {}
  hasExpectedEvidenceGeneration : Bool := false
  expectedEvidenceGeneration : EvidenceGeneration := .zero
  hasExpectedStateGeneration : Bool := false
  expectedStateGeneration : LinkStateGeneration := .zero
  deriving DecidableEq

structure WithdrawMessage where
  key : EvidenceKey := {}
  observation : ObservationId := .null
  publisher : PublisherId := .null
  workerBoot : WorkerBootId := .null
  epoch : CoordinatorEpoch := .zero
  sourceGeneration : SourceGeneration := .zero
  sequence : U64 := 0
  reason : Text := []
  deriving DecidableEq

structure InvalidateMessage where
  publisher : PublisherId := .null
  workerBoot : WorkerBootId := .null
  epoch : CoordinatorEpoch := .zero
  reason : Text := []
  deriving DecidableEq

structure QueryMessage where
  link : LinkId := .null
  deriving DecidableEq

/-- The uniform result of a mutation or a query. -/
structure ResultMessage where
  code : OutcomeCode := .malformedRequest
  detail : Text := []
  state : LinkOperationalState := .unknown
  stateGeneration : LinkStateGeneration := .zero
  evidenceGeneration : EvidenceGeneration := .zero
  globalGeneration : GlobalGeneration := .zero
  topologyGeneration : TopologyGeneration := .zero
  endpointGeneration : EndpointGeneration := .zero
  found : Bool := false
  deriving DecidableEq

/-- A message in the style of a union: the part that its type names is meant. -/
structure Message where
  type : MessageType := .hello
  hello : HelloMessage := {}
  helloAck : HelloAckMessage := {}
  registration : RegisterMessage := {}
  publish : PublishMessage := {}
  withdraw : WithdrawMessage := {}
  invalidate : InvalidateMessage := {}
  query : QueryMessage := {}
  result : ResultMessage := {}
  deriving DecidableEq

/-! ## Encoding -/

def encodeHello (hello : HelloMessage) : Bytes :=
  encodeText hello.agent ++ encodeId hello.workerBoot ++ encodeGeneration hello.epoch

def encodeHelloAck (ack : HelloAckMessage) : Bytes :=
  leBytes 2 ack.version ++ encodeGeneration ack.epoch ++ encodeText ack.coordinator ++
    leBytes 8 ack.linkCount

def encodeRegister (registration : RegisterMessage) : Bytes :=
  encodeId registration.publisher ++ encodeId registration.workerBoot ++
    encodeId registration.source ++ encodeId registration.fabric ++
    encodeGeneration registration.epoch ++ encodeList encodeId registration.links

/-- The parts of a key. -/
def writeKey (key : EvidenceKey) : Bytes :=
  encodeId key.link ++ encodeId key.source ++ encodeId key.endpoint ++ encodeEnum key.direction ++
    encodeEnum key.kind

/-- `write_evidence`. -/
def writeEvidence (record : EvidenceRecord) : Bytes :=
  writeKey record.key ++ encodeId record.observation ++ encodeId record.publisher ++
    encodeId record.workerBoot ++ encodeGeneration record.epoch ++
    encodeGeneration record.sourceGeneration ++ leBytes 8 record.sequence ++
    encodeGeneration record.topologyGeneration ++ encodeGeneration record.endpointGeneration ++
    encodeEnum record.evidenceClass ++ encodeEnum record.claim ++
    encodeEnum record.degradationCause ++ leBytes 8 record.observedAtUnixNanos ++
    encodeText record.detail ++ encodeBlob record.metadata

def encodePublish (publish : PublishMessage) : Bytes :=
  encodeId publish.publication ++ writeEvidence publish.observation ++
    encodeBool publish.hasExpectedEvidenceGeneration ++
    encodeGeneration publish.expectedEvidenceGeneration ++
    encodeBool publish.hasExpectedStateGeneration ++
    encodeGeneration publish.expectedStateGeneration

def encodeWithdraw (withdraw : WithdrawMessage) : Bytes :=
  writeKey withdraw.key ++ encodeId withdraw.observation ++ encodeId withdraw.publisher ++
    encodeId withdraw.workerBoot ++ encodeGeneration withdraw.epoch ++
    encodeGeneration withdraw.sourceGeneration ++ leBytes 8 withdraw.sequence ++
    encodeText withdraw.reason

def encodeInvalidate (invalidate : InvalidateMessage) : Bytes :=
  encodeId invalidate.publisher ++ encodeId invalidate.workerBoot ++
    encodeGeneration invalidate.epoch ++ encodeText invalidate.reason

def encodeResult (result : ResultMessage) : Bytes :=
  encodeEnum result.code ++ encodeText result.detail ++ encodeEnum result.state ++
    encodeGeneration result.stateGeneration ++ encodeGeneration result.evidenceGeneration ++
    encodeGeneration result.globalGeneration ++ encodeGeneration result.topologyGeneration ++
    encodeGeneration result.endpointGeneration ++ encodeBool result.found

/-- `encode_message`. -/
def encodeMessage (message : Message) : Bytes :=
  match message.type with
  | .hello => encodeHello message.hello
  | .helloAck => encodeHelloAck message.helloAck
  | .registerPublisher => encodeRegister message.registration
  | .publishEvidence => encodePublish message.publish
  | .withdrawEvidence => encodeWithdraw message.withdraw
  | .invalidatePublisher => encodeInvalidate message.invalidate
  | .queryState => encodeId message.query.link
  | .registerResult | .publishResult | .withdrawResult | .invalidateResult | .queryResult
  | .error => encodeResult message.result
  | .shutdown => encodeText message.result.detail

/-! ## Decoding -/

/-- The reader of the protocol, which records what went wrong first. -/
abbrev MessageReader := Reader Text

namespace MessageReader

def truncated : Text := lit "message is truncated"

/-- What the decoder of messages says of a text or an identifier that it refuses. -/
def errors : FieldErrors Text where
  truncated := truncated
  tooLong := lit "text field exceeds the accepted length"
  malformed error := lit "text field is malformed: " ++ error
  missing := lit "a required identifier is empty"
  badIdentifier error := lit "identifier is malformed: " ++ error

def text (maxLength : Nat) : MessageReader Text := textField errors maxLength

def id {tag : IdTag} (allowEmpty : Bool) : MessageReader (StrongId tag) := idField errors allowEmpty

def generation {tag : GenTag} : MessageReader (StrongGeneration tag) := generationField truncated

def u64 : MessageReader U64 := u64Field truncated

/-- `read_enum`. -/
def enum {α : Type} [ByteEnum α] (field : Text) : MessageReader α :=
  enumField truncated (field ++ lit " holds an invalid enumeration value")

/-- A byte that must be 0 or 1. -/
def flag (invalid : Text) : MessageReader Bool := boolField truncated invalid

end MessageReader

open MessageReader in
def readHello : MessageReader HelloMessage := do
  let agent ← text limits.maxIdentifierLength
  let workerBoot ← id false
  let epoch ← generation
  pure { agent, workerBoot, epoch }

open MessageReader in
def readHelloAck : MessageReader HelloAckMessage := do
  let version ← number MessageReader.truncated 2
  let epoch ← generation
  let coordinator ← text limits.maxIdentifierLength
  let linkCount ← u64
  pure { version := Fin.ofNat _ version, epoch, coordinator, linkCount }

open MessageReader in
def readRegister : MessageReader RegisterMessage := do
  let publisher ← id false
  let workerBoot ← id false
  let source ← id false
  let fabric ← id true
  let epoch ← generation
  let links ← listField MessageReader.truncated limits.maxAuthorityScopeLinks
    (lit "registration link count exceeds the accepted maximum") fun _ => id false
  pure { publisher, workerBoot, source, fabric, epoch, links }

open MessageReader in
/-- The parts of a key, whose enumerations have the given names. -/
def readKey (direction kind : Text) : MessageReader EvidenceKey := do
  let link ← id false
  let source ← id false
  let endpoint ← id true
  let direction ← enum direction
  let kind ← enum kind
  pure { link, source, endpoint, direction, kind }

open MessageReader in
/-- `read_evidence`. -/
def readEvidence : MessageReader EvidenceRecord := do
  let key ← readKey (lit "evidence direction") (lit "evidence kind")
  let observation ← id false
  let publisher ← id false
  let workerBoot ← id false
  let epoch ← generation
  let sourceGeneration ← generation
  let sequence ← u64
  let topologyGeneration ← generation
  let endpointGeneration ← generation
  let evidenceClass ← enum (lit "evidence class")
  let claim ← enum (lit "evidence claim")
  let degradationCause ← enum (lit "degradation cause")
  let observedAtUnixNanos ← u64
  let detail ← text limits.maxDetailLength
  let metadata ← blobField MessageReader.truncated (lit "evidence metadata exceeds the accepted length")
    limits.maxEvidenceMetadataBytes
  pure
    { key, observation, publisher, workerBoot, epoch, sourceGeneration, sequence
      topologyGeneration, endpointGeneration, evidenceClass, claim, degradationCause
      observedAtUnixNanos, detail, metadata }

open MessageReader in
def readPublish : MessageReader PublishMessage := do
  let publication ← id false
  let observation ← readEvidence
  let hasExpectedEvidenceGeneration ← flag (lit "expected evidence generation flag is invalid")
  let expectedEvidenceGeneration ← generation
  let hasExpectedStateGeneration ← flag (lit "expected state generation flag is invalid")
  let expectedStateGeneration ← generation
  pure
    { publication, observation, hasExpectedEvidenceGeneration, expectedEvidenceGeneration
      hasExpectedStateGeneration, expectedStateGeneration }

open MessageReader in
def readWithdraw : MessageReader WithdrawMessage := do
  let key ← readKey (lit "withdrawal direction") (lit "withdrawal kind")
  let observation ← id false
  let publisher ← id false
  let workerBoot ← id false
  let epoch ← generation
  let sourceGeneration ← generation
  let sequence ← u64
  let reason ← text limits.maxDetailLength
  pure { key, observation, publisher, workerBoot, epoch, sourceGeneration, sequence, reason }

open MessageReader in
def readInvalidate : MessageReader InvalidateMessage := do
  let publisher ← id false
  let workerBoot ← id true
  let epoch ← generation
  let reason ← text limits.maxDetailLength
  pure { publisher, workerBoot, epoch, reason }

open MessageReader in
def readQuery : MessageReader QueryMessage := do
  let link ← id false
  pure { link }

open MessageReader in
def readResult : MessageReader ResultMessage := do
  let code ← enum (lit "outcome code")
  let detail ← text limits.maxDetailLength
  let state ← enum (lit "state")
  let stateGeneration ← generation
  let evidenceGeneration ← generation
  let globalGeneration ← generation
  let topologyGeneration ← generation
  let endpointGeneration ← generation
  let found ← flag (lit "found flag is invalid")
  pure
    { code, detail, state, stateGeneration, evidenceGeneration, globalGeneration
      topologyGeneration, endpointGeneration, found }

open MessageReader in
/-- A payload of the given type. -/
def readMessage (type : MessageType) : MessageReader Message :=
  match type with
  | .hello => do let hello ← readHello; pure { type, hello }
  | .helloAck => do let helloAck ← readHelloAck; pure { type, helloAck }
  | .registerPublisher => do let registration ← readRegister; pure { type, registration }
  | .publishEvidence => do let publish ← readPublish; pure { type, publish }
  | .withdrawEvidence => do let withdraw ← readWithdraw; pure { type, withdraw }
  | .invalidatePublisher => do let invalidate ← readInvalidate; pure { type, invalidate }
  | .queryState => do let query ← readQuery; pure { type, query }
  | .registerResult | .publishResult | .withdrawResult | .invalidateResult | .queryResult
  | .error => do let result ← readResult; pure { type, result }
  | .shutdown => do let detail ← text limits.maxDetailLength; pure { type, result := { detail } }

/-- `decode_message`. -/
def decodeMessage (type : MessageType) (payload : Bytes) : Except Text Message :=
  match readMessage type payload with
  | .error error => .error error
  | .ok (message, rest) =>
    if rest.isEmpty then .ok message
    else .error (lit "message payload holds trailing bytes")

end LinkState
