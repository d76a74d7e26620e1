import LinkStateFabric.Config
import LinkStateFabric.Fields
import LinkStateFabric.Record

/-!
# Encoding a journal (`persistence.hpp`, `persistence.cpp`)

A journal is a header of 64 bytes, a body, and a trailer of two digests: that of the body, and that
of the header and the body. Numbers are little endian; a text is its length in four bytes and its
bytes.
-/

namespace LinkState

open Codec (ByteEnum leBytes)

/-! ## Payload -/

/-- A durable record with the evidence that is kept for recovery. -/
structure PersistedLink where
  record : LinkStateRecord
  evidence : List EvidenceRecord
  deriving DecidableEq

/-- What a journal holds. -/
structure JournalPayload where
  layout : LayoutGeneration
  epoch : CoordinatorEpoch
  globalGeneration : GlobalGeneration
  globalStateGeneration : LinkStateGeneration
  topologyGeneration : TopologyGeneration
  snapshotCounter : Nat := 0
  transitionCounter : Nat := 0
  links : List PersistedLink
  fences : List PublisherFence
  deriving DecidableEq

/-- The description of a journal. -/
structure JournalSummary where
  formatVersion : Nat
  flags : Nat
  layout : LayoutGeneration
  epoch : CoordinatorEpoch
  globalGeneration : GlobalGeneration
  globalStateGeneration : LinkStateGeneration
  topologyGeneration : TopologyGeneration
  recordCount : Nat
  evidenceCount : Nat
  fenceCount : Nat
  payloadDigest : Digest
  fileDigest : Digest
  fileSize : Nat
  deriving DecidableEq

def journalFormatVersion : Nat := 1
def journalHeaderBytes : Nat := 64
def journalTrailerBytes : Nat := 2 * Digest.byteCount
def maxJournalBytesCap : Nat := 2 ^ 31

/-- `max_journal_bytes`. -/
def maxJournalBytes (config : PersistenceConfig) : Nat :=
  let bound := journalHeaderBytes + journalTrailerBytes
  let perRecord := 16384
  if (maxJournalBytesCap - bound) / perRecord < config.maxRecords then maxJournalBytesCap
  else min (bound + config.maxRecords * perRecord) maxJournalBytesCap

/-! ## Records -/

/-- `encode_evidence`. -/
def encodeEvidence (record : EvidenceRecord) : Bytes :=
  encodeId record.key.link ++ encodeId record.key.source ++ encodeId record.key.endpoint ++
    encodeEnum record.key.direction ++ encodeEnum record.key.kind ++
    encodeId record.observation ++ encodeId record.publisher ++ encodeId record.workerBoot ++
    encodeGeneration record.epoch ++ encodeGeneration record.sourceGeneration ++
    leBytes 8 record.sequence ++ encodeGeneration record.topologyGeneration ++
    encodeGeneration record.endpointGeneration ++ encodeEnum record.evidenceClass ++
    encodeEnum record.claim ++ encodeEnum record.degradationCause ++
    leBytes 8 record.observedAtUnixNanos ++ encodeText record.detail ++
    encodeText record.metadata ++ encodeEnum record.status ++
    encodeGeneration record.evidenceGeneration ++ encodeGeneration record.commitSequence ++
    record.recordDigest.bytes

def encodeEndpoints (endpoints : EndpointBinding) : Bytes :=
  encodeId endpoints.localEndpoint ++ encodeGeneration endpoints.localGeneration ++
    encodeId endpoints.localDevice ++ encodeId endpoints.localPort ++ encodeId endpoints.remote ++
    encodeGeneration endpoints.remoteGeneration ++ encodeId endpoints.remoteDevice ++
    encodeId endpoints.remotePort

def encodeBacking (backing : BackingReference) : Bytes :=
  encodeId backing.link ++ encodeGeneration backing.generation

/-- The part of `encode_link` for the binding. -/
def encodeBinding (binding : TopologyBinding) : Bytes :=
  encodeId binding.fabric ++ encodeId binding.site ++ encodeId binding.link ++
    encodeGeneration binding.topologyGeneration ++ encodeEnum binding.linkClass ++
    encodeEnum binding.symmetry ++ encodeEndpoints binding.endpoints ++
    encodeList encodeId binding.memberLinks ++ encodeList encodeBacking binding.backingLinks

/-- The part of `encode_link` for the administrative intent. -/
def encodeIntent : Option AdministrativeIntent → Bytes
  | none => encodeBool false
  | some intent => encodeBool true ++ encodeEnum intent.state ++ encodeEnum intent.cause ++
      encodeId intent.publication ++ encodeId intent.publisher ++
      encodeGeneration intent.generation

def encodeHistoryEntry (history : StateHistoryEntry) : Bytes :=
  encodeGeneration history.stateGeneration ++ encodeEnum history.fromState ++
    encodeEnum history.toState ++ encodeEnum history.trigger ++ encodeEnum history.resultClass ++
    encodeEnum history.cause ++ encodeId history.publication ++ encodeId history.publisher ++
    encodeGeneration history.evidenceGeneration ++ encodeGeneration history.topologyGeneration ++
    encodeEnum history.outcome

/-- `encode_link`. -/
def encodeLink (includeHistory : Bool) (link : PersistedLink) : Bytes :=
  let record := link.record
  encodeId record.record ++ encodeBinding record.binding ++ encodeEnum record.state ++
    encodeEnum record.resultClass ++ encodeEnum record.degradationCause ++
    encodeGeneration record.stateGeneration ++ encodeGeneration record.evidenceGeneration ++
    encodeGeneration record.globalGeneration ++ encodeId record.lastPublication ++
    encodeId record.lastTransition ++ encodeId record.lastPublisher ++
    encodeEnum record.lastOutcome ++ encodeBool record.everEstablished ++
    encodeBool record.durable ++ encodeIntent record.adminIntent ++
    record.provenanceDigest.bytes ++
    (if includeHistory then encodeList encodeHistoryEntry record.history else leBytes 4 0) ++
    encodeList encodeEvidence link.evidence

def encodeFence (fence : PublisherFence) : Bytes :=
  encodeId fence.publisher ++ encodeId fence.workerBoot ++ encodeGeneration fence.epoch ++
    encodeText fence.reason

/-- `encode_payload`. -/
def encodePayload (payload : JournalPayload) (config : PersistenceConfig) : Bytes :=
  encodeList (encodeLink config.includeHistory) payload.links ++
    encodeList encodeFence payload.fences

/-! ## Journals -/

/-- The flags of the header. -/
def historyFlag (includeHistory : Bool) : Nat := if includeHistory then 1 else 0

def journalMagic : Bytes := lit "LSF1"

/-- The header of a journal, before it is filled up. -/
def encodeHeader (payload : JournalPayload) (config : PersistenceConfig) (bodySize : Nat) : Bytes :=
  journalMagic ++ leBytes 2 journalFormatVersion ++ leBytes 2 (historyFlag config.includeHistory) ++
    encodeGeneration payload.layout ++ encodeGeneration payload.epoch ++
    encodeGeneration payload.globalGeneration ++ encodeGeneration payload.globalStateGeneration ++
    encodeGeneration payload.topologyGeneration ++ leBytes 8 payload.links.length ++
    leBytes 8 bodySize

/-- The number of evidence records of a payload. -/
def JournalPayload.evidenceCount (payload : JournalPayload) : Nat :=
  (payload.links.map (·.evidence.length)).sum

/-- `encode_journal`. The header has 64 bytes as it is, so that filling it up adds none. -/
def encodeJournal (payload : JournalPayload) (config : PersistenceConfig) :
    Bytes × JournalSummary :=
  let body := encodePayload payload config
  let header := encodeHeader payload config body.length
  let payloadDigest := sha256 body
  let fileDigest := ((Hasher.new.update header).update body).finalize
  let out := header ++ body ++ payloadDigest.bytes ++ fileDigest.bytes
  (out,
    { formatVersion := journalFormatVersion
      flags := historyFlag config.includeHistory
      layout := payload.layout
      epoch := payload.epoch
      globalGeneration := payload.globalGeneration
      globalStateGeneration := payload.globalStateGeneration
      topologyGeneration := payload.topologyGeneration
      recordCount := payload.links.length
      evidenceCount := payload.evidenceCount
      fenceCount := payload.fences.length
      payloadDigest, fileDigest
      fileSize := out.length })

end LinkState
