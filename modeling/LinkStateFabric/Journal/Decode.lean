import LinkStateFabric.Journal.Encode

/-!
# Decoding a journal (`persistence.cpp`)

Each reader fails at the first field that is not as it must be, with the code and the text that the
source gives. `decodeJournal` checks the frame and the digests before it reads the body.
-/

namespace LinkState

open Codec

/-- The source's reader, which records its first failure. -/
abbrev JournalReader := Reader Refusal

/-! ## Fields -/

def truncated : Refusal := (.persistenceCorrupt, lit "journal is truncated")

/-- What the decoder of journals says of a text or an identifier that it refuses. -/
def journalErrors : FieldErrors Refusal where
  truncated := truncated
  tooLong := (.resourceLimit, lit "text field length exceeds the maximum accepted length")
  malformed error := (.persistenceCorrupt, lit "text field is malformed: " ++ error)
  missing := (.persistenceCorrupt, lit "a required identifier is empty")
  badIdentifier error := (.persistenceCorrupt, lit "identifier is malformed: " ++ error)

/-- `Reader::text`. -/
def readText (maxLength : Nat) : JournalReader Text := textField journalErrors maxLength

/-- `Reader::blob`. -/
def readBlob (maxLength : Nat) : JournalReader Bytes :=
  blobField truncated
    (.resourceLimit, lit "binary field length exceeds the maximum accepted length") maxLength

/-- `Reader::digest`. -/
def readDigest : JournalReader Digest := do
  let bytes ← take truncated Digest.byteCount
  if h : bytes.length = 32 then pure ⟨bytes, h⟩ else fail truncated

/-- `read_id`. -/
def readId {tag : IdTag} (allowEmpty : Bool) : JournalReader (StrongId tag) :=
  idField journalErrors allowEmpty

/-- `read_generation`. -/
def readGeneration {tag : GenTag} : JournalReader (StrongGeneration tag) :=
  generationField truncated

/-- A `std::uint64_t`. -/
def readU64 : JournalReader U64 := u64Field truncated

/-- `Reader::u8`. -/
def readByte : JournalReader UInt8 := byteField truncated

/-- `read_enum`. -/
def readEnum {α : Type} [ByteEnum α] (field : Text) : JournalReader α :=
  enumField truncated
    (.persistenceCorrupt, lit "field " ++ field ++ lit " holds an invalid enumeration value")

/-- `read_bool`. -/
def readBool (field : Text) : JournalReader Bool :=
  boolField truncated
    (.persistenceCorrupt, lit "field " ++ field ++ lit " holds an invalid boolean value")

/-- A count that must not exceed a maximum, and as many items. -/
def readList {α : Type} (maximum : Nat) (tooMany : Text) (r : List α → JournalReader α) :
    JournalReader (List α) :=
  listField truncated maximum (.resourceLimit, tooMany) r

/-! ## Records -/

def decodeKey : JournalReader EvidenceKey := do
  let link ← readId false
  let source ← readId false
  let endpoint ← readId true
  let direction ← readEnum (lit "evidence direction")
  let kind ← readEnum (lit "evidence kind")
  pure { link, source, endpoint, direction, kind }

/-- `decode_evidence`. -/
def decodeEvidence : JournalReader EvidenceRecord := do
  let key ← decodeKey
  let observation ← readId false
  let publisher ← readId false
  let workerBoot ← readId false
  let epoch ← readGeneration
  let sourceGeneration ← readGeneration
  let sequence ← readU64
  let topologyGeneration ← readGeneration
  let endpointGeneration ← readGeneration
  let evidenceClass ← readEnum (lit "evidence class")
  let claim ← readEnum (lit "evidence claim")
  let degradationCause ← readEnum (lit "degradation cause")
  let observedAtUnixNanos ← readU64
  let detail ← readText limits.maxDetailLength
  let metadata ← readBlob limits.maxEvidenceMetadataBytes
  let status ← readEnum (lit "evidence status")
  let evidenceGeneration ← readGeneration
  let commitSequence ← readGeneration
  let recordDigest ← readDigest
  let record : EvidenceRecord :=
    { key, observation, publisher, workerBoot, epoch, sourceGeneration, sequence
      topologyGeneration, endpointGeneration, evidenceClass, claim, degradationCause
      observedAtUnixNanos, detail, metadata, status, evidenceGeneration, commitSequence
      recordDigest }
  check (record.computeDigest = record.recordDigest)
    (.persistenceCorrupt, lit "evidence record digest does not match its content")
  pure record

def decodeEndpoints : JournalReader EndpointBinding := do
  let localEndpoint ← readId false
  let localGeneration ← readGeneration
  let localDevice ← readId true
  let localPort ← readId true
  let remote ← readId true
  let remoteGeneration ← readGeneration
  let remoteDevice ← readId true
  let remotePort ← readId true
  pure
    { localEndpoint, localGeneration, localDevice, localPort, remote, remoteGeneration
      remoteDevice, remotePort }

def decodeBacking : JournalReader BackingReference := do
  let link ← readId false
  let generation ← readGeneration
  pure { link, generation }

/-- The part of `decode_link` for the binding. -/
def decodeBinding : JournalReader TopologyBinding := do
  let fabric ← readId true
  let site ← readId true
  let link ← readId false
  let topologyGeneration ← readGeneration
  let linkClass ← readEnum (lit "link class")
  let symmetry ← readEnum (lit "symmetry guarantee")
  let endpoints ← decodeEndpoints
  let memberLinks ← readList limits.maxAuthorityScopeLinks
    (lit "member link count exceeds the accepted maximum") fun _ => readId false
  let backingLinks ← readList limits.maxAuthorityScopeLinks
    (lit "backing link count exceeds the accepted maximum") fun _ => decodeBacking
  pure
    { fabric, site, link, topologyGeneration, endpoints, linkClass, symmetry, memberLinks
      backingLinks }

def decodeIntentBody : JournalReader AdministrativeIntent := do
  let state ← readEnum (lit "administrative intent state")
  let cause ← readEnum (lit "administrative intent cause")
  let publication ← readId false
  let publisher ← readId false
  let generation ← readGeneration
  pure { state, publication, publisher, generation, cause }

/-- The part of `decode_link` for the administrative intent. -/
def decodeIntent : JournalReader (Option AdministrativeIntent) := do
  let hasIntent ← readBool (lit "administrative intent presence")
  if hasIntent then some <$> decodeIntentBody else pure none

def decodeHistoryEntry : JournalReader StateHistoryEntry := do
  let stateGeneration ← readGeneration
  let fromState ← readEnum (lit "history from state")
  let toState ← readEnum (lit "history to state")
  let trigger ← readEnum (lit "history trigger")
  let resultClass ← readEnum (lit "history result class")
  let cause ← readEnum (lit "history cause")
  let publication ← readId true
  let publisher ← readId true
  let evidenceGeneration ← readGeneration
  let topologyGeneration ← readGeneration
  let outcome ← readEnum (lit "history outcome")
  pure
    { stateGeneration, fromState, toState, trigger, resultClass, cause, publication, publisher
      evidenceGeneration, topologyGeneration, outcome }

/-- A record of evidence of a link, after those that were read `before`. -/
def decodeEvidenceOf (link : LinkId) (before : List EvidenceRecord) :
    JournalReader EvidenceRecord := do
  let evidence ← decodeEvidence
  check (evidence.key.link = link) (.persistenceCorrupt,
    lit "evidence record refers to a different link than its owning record")
  check (evidence.key.text ∉ before.map (·.key.text))
    (.persistenceCorrupt, lit "duplicate evidence key in the journal")
  pure evidence

/-- The fields of a record between its binding and its history. -/
def decodeRecord : JournalReader LinkStateRecord := do
  let record ← readId false
  let binding ← decodeBinding
  let state ← readEnum (lit "operational state")
  let resultClass ← readEnum (lit "state result class")
  let degradationCause ← readEnum (lit "degradation cause")
  let stateGeneration ← readGeneration
  let evidenceGeneration ← readGeneration
  let globalGeneration ← readGeneration
  let lastPublication ← readId true
  let lastTransition ← readId true
  let lastPublisher ← readId true
  let lastOutcome ← readEnum (lit "outcome code")
  let everEstablished ← readBool (lit "ever established")
  let durable ← readBool (lit "durable")
  let adminIntent ← decodeIntent
  let provenanceDigest ← readDigest
  pure
    { record, binding, state, resultClass, degradationCause, stateGeneration, globalGeneration
      evidenceGeneration, lastPublication, lastTransition, lastPublisher, lastOutcome
      everEstablished, durable, adminIntent, provenanceDigest }

/-- `decode_link`. The history is read by its count, whatever the flags of the header say: a count
of zero leaves it empty either way. -/
def decodeLink : JournalReader PersistedLink := do
  let record ← decodeRecord
  let history ← readList limits.maxHistoryPerLink
    (lit "state history count exceeds the accepted maximum") fun _ => decodeHistoryEntry
  let evidence ← readList limits.maxEvidencePerLink
    (lit "evidence count exceeds the accepted maximum") (decodeEvidenceOf record.binding.link)
  pure { record := { record with history }, evidence }

def decodeFence : JournalReader PublisherFence := do
  let publisher ← readId false
  let workerBoot ← readId false
  let epoch ← readGeneration
  let reason ← readText limits.maxDetailLength
  pure { publisher, workerBoot, epoch, reason }

/-! ## Journals -/

/-- The fields of the header. -/
structure JournalHeader where
  flags : Nat
  layout : LayoutGeneration
  epoch : CoordinatorEpoch
  globalGeneration : GlobalGeneration
  globalStateGeneration : LinkStateGeneration
  topologyGeneration : TopologyGeneration
  recordCount : Nat
  payloadLength : Nat

def decodeHeader : JournalReader JournalHeader := do
  let magic ← take truncated 4
  check (magic = journalMagic)
    (.persistenceCorrupt, lit "journal magic does not match LSF1")
  let version ← number truncated 2
  let flags ← number truncated 2
  check (version = journalFormatVersion) (.unsupportedState, lit "journal format version " ++
    formatU64 version ++ lit " is not supported by this build")
  let layout ← readGeneration
  let epoch ← readGeneration
  let globalGeneration ← readGeneration
  let globalStateGeneration ← readGeneration
  let topologyGeneration ← readGeneration
  let recordCount ← number truncated 8
  let payloadLength ← number truncated 8
  pure
    { flags, layout, epoch, globalGeneration, globalStateGeneration, topologyGeneration
      recordCount, payloadLength }

/-- A link of the body, after those that were read `before`, with the checks of the loop of
`decode_journal`. -/
def decodeLinkOf (header : JournalHeader) (before : List PersistedLink) :
    JournalReader PersistedLink := do
  let link ← decodeLink
  let record := link.record
  check (record.binding.link.value ∉ before.map (·.record.binding.link.value))
    (.persistenceCorrupt, lit "duplicate link record in the journal")
  check (record.binding.topologyGeneration.isZero = false)
    (.persistenceCorrupt, lit "link record has a zero topology generation")
  check (record.stateGeneration ≤ header.globalStateGeneration)
    (.persistenceCorrupt, lit "link state generation exceeds the global state generation")
  check (record.globalGeneration ≤ header.globalGeneration)
    (.persistenceCorrupt, lit "link global generation exceeds the journal global generation")
  check (¬ (record.state = .retired ∧ record.everEstablished = false ∧
      record.stateGeneration.value = 0))
    (.persistenceCorrupt, lit "retired link record has no state generation")
  pure link

/-- Nothing is left to read. -/
def readEnd : JournalReader Unit := fun rest =>
  if rest.isEmpty then .ok ((), rest)
  else .error (.persistenceCorrupt, lit "journal payload holds trailing bytes after the last record")

/-- The body of a journal. -/
def decodeBody (header : JournalHeader) : JournalReader (List PersistedLink × List PublisherFence) :=
  do
  let count ← number truncated 4
  check (count = header.recordCount) (.persistenceCorrupt,
    lit "journal link count does not match the header record count")
  let links ← many (decodeLinkOf header) [] count
  let fences ← readList limits.maxPublishers (lit "fence count exceeds the accepted maximum")
    fun _ => decodeFence
  readEnd
  pure (links, fences)

/-- What the checks of the frame require of a header, in their order. -/
def checkFrame (header : JournalHeader) (config : PersistenceConfig) (payloadSize : Nat) :
    Option Refusal :=
  if config.maxRecords < header.recordCount then
    some (.resourceLimit, lit "journal declares more records than the configured maximum")
  else if payloadSize < header.payloadLength then
    some (.persistenceCorrupt, lit "journal payload is truncated")
  else if header.payloadLength ≠ payloadSize then
    some (.persistenceCorrupt, lit "journal payload length does not match the file size")
  else none

/-- What the trailer must be. -/
def checkDigests (front body trailer : Bytes) : Option Refusal :=
  if (sha256 body).bytes ≠ trailer.take Digest.byteCount then
    some (.persistenceCorrupt, lit "journal payload digest does not match its content")
  else if (sha256 front).bytes ≠ trailer.drop Digest.byteCount then
    some (.persistenceCorrupt, lit "journal file digest does not match its content")
  else none

/-- A digest of 32 bytes that are known to be there. -/
def Digest.ofBytes (bytes : Bytes) : Digest :=
  if h : bytes.length = 32 then ⟨bytes, h⟩ else .zero

/-- `decode_journal`. -/
def decodeJournal (bytes : Bytes) (config : PersistenceConfig) :
    Except Refusal (JournalPayload × JournalSummary) :=
  let frame := journalHeaderBytes + journalTrailerBytes
  if config.validate ≠ [] then .error (.malformedRequest, config.validate)
  else if bytes.length < frame then
    .error (.persistenceCorrupt, lit "journal is shorter than its fixed frame")
  else
    let body := (bytes.drop journalHeaderBytes).take (bytes.length - frame)
    let trailer := bytes.drop (bytes.length - journalTrailerBytes)
    match decodeHeader (bytes.take journalHeaderBytes) with
    | .error refusal => .error refusal
    | .ok (header, _) =>
      match checkFrame header config (bytes.length - frame) <|>
        checkDigests (bytes.take (bytes.length - journalTrailerBytes)) body trailer with
      | some refusal => .error refusal
      | none =>
        match decodeBody header body with
        | .error refusal => .error refusal
        | .ok ((links, fences), _) =>
          let payload : JournalPayload :=
            { layout := header.layout
              epoch := header.epoch
              globalGeneration := header.globalGeneration
              globalStateGeneration := header.globalStateGeneration
              topologyGeneration := header.topologyGeneration
              links, fences }
          .ok (payload,
            { formatVersion := journalFormatVersion
              flags := header.flags
              layout := header.layout
              epoch := header.epoch
              globalGeneration := header.globalGeneration
              globalStateGeneration := header.globalStateGeneration
              topologyGeneration := header.topologyGeneration
              recordCount := links.length
              evidenceCount := payload.evidenceCount
              fenceCount := fences.length
              payloadDigest := .ofBytes (trailer.take Digest.byteCount)
              fileDigest := .ofBytes (trailer.drop Digest.byteCount)
              fileSize := bytes.length })

end LinkState
