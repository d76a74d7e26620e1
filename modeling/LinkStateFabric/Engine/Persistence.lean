import LinkStateFabric.Engine.Publishers
import LinkStateFabric.Journal.Decode

/-!
# Saving and loading an engine (`engine_persistence.cpp`, `persistence.cpp`)

* `writeJournalFile` and `readJournalFile`: what the file system does in each step is a parameter.
* `Impl.save` encodes the engine and replaces the journal; `Impl.load` decodes a journal and
  recovers from it: the durable conclusions survive, live authority does not.
-/

namespace LinkState

open Sorting

/-! ## Files -/

/-- Whether each step of a write succeeds in the file system. -/
structure WriteSteps where
  directoryExists : Bool := true
  createsDirectories : Bool := true
  opensTemporary : Bool := true
  writesTemporary : Bool := true
  replacesTarget : Bool := true

/-- `write_journal_file`: the outcome, and the content of the file afterwards. -/
def writeJournalFile (config : PersistenceConfig) (steps : WriteSteps) (file : Option Bytes)
    (bytes : Bytes) : Outcome × Option Bytes :=
  if config.validate ≠ [] then (.make .malformedRequest config.validate, file)
  else if !steps.directoryExists && !config.createParentDirectory then
    (.make .persistenceIoFailure (lit "the journal directory does not exist"), file)
  else if !steps.directoryExists && !steps.createsDirectories then
    (.make .persistenceIoFailure (lit "the journal directory could not be created"), file)
  else if !steps.opensTemporary then
    (.make .persistenceIoFailure (lit "the temporary journal file could not be created"), file)
  else if !steps.writesTemporary then
    (.make .persistenceIoFailure (lit "the temporary journal file could not be written"), file)
  else if !steps.replacesTarget then
    (.make .persistenceIoFailure (lit "the journal file could not be replaced atomically"), file)
  else (.make .committed (lit "journal written"), some bytes)

/-- Whether each step of a read succeeds in the file system. -/
structure ReadSteps where
  opens : Bool := true
  reads : Bool := true

/-- `read_journal_file`. -/
def readJournalFile (config : PersistenceConfig) (steps : ReadSteps) (file : Option Bytes) :
    Except Refusal Bytes :=
  if config.validate ≠ [] then .error (.malformedRequest, config.validate)
  else match file with
    | none => .error (.persistenceIoFailure, lit "cannot read the size of the journal file")
    | some bytes =>
      if maxJournalBytes config < bytes.length then
        .error (.resourceLimit, lit "journal file exceeds the configured size bound")
      else if !steps.opens then
        .error (.persistenceIoFailure, lit "cannot open the journal file")
      else if 0 < bytes.length ∧ !steps.reads then
        .error (.persistenceIoFailure, lit "journal file could not be read")
      else .ok bytes

/-! ## Saving -/

/-- `kCurrentLayout`. -/
def currentLayout : LayoutGeneration := .fromValue 2

/-- What is persisted of a link. -/
def persistEntry (includeHistory : Bool) (entry : LinkEntry) : PersistedLink where
  record := if includeHistory then entry.record else { entry.record with history := [] }
  evidence := entry.current

/-- `build_payload`. -/
def Impl.buildPayload (impl : Impl) (includeHistory : Bool) : JournalPayload where
  layout := currentLayout
  epoch := impl.epoch
  globalGeneration := impl.globalGeneration
  globalStateGeneration := impl.globalStateGeneration
  topologyGeneration := impl.topologyGeneration
  snapshotCounter := impl.snapshotCounter
  transitionCounter := impl.transitionCounter
  links := (listing impl.store.links.keys).filterMap fun link =>
    (impl.entryOf link).map (persistEntry includeHistory)
  fences := impl.store.fences

/-- The part of `save` under the engine's lock. -/
def Impl.encode (impl : Impl) (config : PersistenceConfig) : Bytes × JournalSummary :=
  encodeJournal (impl.buildPayload config.includeHistory) config

/-- The lowercase hexadecimal digits of a digest. -/
def Digest.toHex (digest : Digest) : Text :=
  digest.bytes.flatMap fun byte =>
    [Nat.digitChar (byte.toNat / 16), Nat.digitChar (byte.toNat % 16)].map Char.toUInt8

/-- `save`: the outcome, and the content of the journal file afterwards. -/
def Impl.save (impl : Impl) (config : PersistenceConfig) (steps : WriteSteps)
    (file : Option Bytes) : Outcome × Option Bytes :=
  let (encoded, summary) := impl.encode config
  let (written, file) := writeJournalFile config steps file encoded
  if written.isError then (written, file)
  else (.make .committed (lit "journal written with " ++ formatU64 summary.recordCount ++
    lit " records and " ++ formatU64 summary.evidenceCount ++
    lit " evidence records; file digest " ++ summary.fileDigest.toHex), file)

/-! ## Loading -/

/-- The result of loading a journal. -/
structure LoadOutcome where
  outcome : Outcome
  recordsLoaded : Nat := 0
  recordsRevalidated : Nat := 0
  recordsLeftUnknown : Nat := 0
  layout : LayoutGeneration := .zero
  journalDigest : Digest := .zero
  deriving DecidableEq

/-- Persisted evidence is kept as a disposition. -/
def recoveredDisposition (record : EvidenceRecord) : EvidenceDisposition where
  observation := record.observation
  source := record.key.source
  publisher := record.publisher
  workerBoot := record.workerBoot
  kind := record.key.kind
  direction := record.key.direction
  claim := record.claim
  evidenceClass := record.evidenceClass
  status := .staleAuthority
  precedence := evidencePrecedence record.key.kind
  counted := false
  reason := lit "not current: live publisher authority does not survive a process restart"

/-- The entry of a persisted link before its state is recovered. -/
def restoredEntry (config : EngineConfig) (persisted : PersistedLink) : LinkEntry where
  record := { persisted.record with history := [], durable := true }
  current := []
  dispositions := (persisted.evidence.map recoveredDisposition).take config.maxHistoryPerLink

/-- The state in which a live link is recovered. -/
def recoveredState (record : LinkStateRecord) : LinkOperationalState :=
  if record.everEstablished then .revalidationRequired else .unknown

/-- A live entry whose state recovery changes. The generation is advanced without a check. -/
def recoverChanged (config : EngineConfig) (entry : LinkEntry) : LinkEntry :=
  let recovered := recoveredState entry.record
  let resultClass : StateResultClass :=
    if recovered = .revalidationRequired then .revalidationRequired else .authoritativeUnknown
  let history : StateHistoryEntry :=
    { stateGeneration := entry.record.stateGeneration
      fromState := entry.record.state
      toState := recovered
      trigger := .recovery
      resultClass
      evidenceGeneration := entry.record.evidenceGeneration
      topologyGeneration := entry.record.binding.topologyGeneration
      outcome := .committed }
  pushHistory
    { entry with
      record.state := recovered
      record.resultClass := resultClass
      record.degradationCause := .none
      record.stateGeneration := .fromValue (entry.record.stateGeneration.value + 1) }
    history config.maxHistoryPerLink

/-- The engine while it loads, with the counts of the summary. -/
structure Recovery where
  impl : Impl
  revalidated : Nat := 0
  leftUnknown : Nat := 0

/-- A recovered entry is stored and indexed. The decoder refuses a journal with two records of one
link, so that the source's `emplace` always stores. -/
def Impl.adoptEntry (impl : Impl) (entry : LinkEntry) : Impl :=
  let link := entry.record.binding.link
  let store := impl.store.indexLink link entry.record.state
  let store := { store with
    byEndpoint := store.byEndpoint.addAll entry.record.binding.boundEndpoints link }
  { impl with store }.putEntry link entry

/-- The body of the loop of `load`. -/
def Recovery.recoverLink (r : Recovery) (persisted : PersistedLink) : Recovery :=
  let entry := restoredEntry r.impl.config persisted
  let empty := digestEvidenceSet []
  if entry.record.state = .retired then { r with impl := r.impl.adoptEntry entry }
  else
    let recovered := recoveredState entry.record
    match evaluateTransition entry.record.state recovered .recovery with
    | .fromRetired => { r with impl := r.impl.adoptEntry entry }
    | .legal =>
      let entry := recoverChanged r.impl.config entry
      let impl :=
        if r.impl.globalStateGeneration < entry.record.stateGeneration then
          { r.impl with globalStateGeneration := entry.record.stateGeneration }
        else r.impl
      let impl := impl.adoptEntry { entry with record.provenanceDigest := empty }
      if recovered = .revalidationRequired then { r with impl, revalidated := r.revalidated + 1 }
      else { r with impl, leftUnknown := r.leftUnknown + 1 }
    | _ =>
      let entry := { entry with
        record.resultClass := .authoritativeUnknown
        record.provenanceDigest := empty }
      { r with impl := r.impl.adoptEntry entry, leftUnknown := r.leftUnknown + 1 }

/-- The fence registry as it is rebuilt from the durable fences. -/
def Impl.rebuildFences (impl : Impl) (fences : List PublisherFence) : Impl :=
  fences.foldl (fun impl fence =>
    if !fence.publisher.valid || !fence.workerBoot.valid then impl
    else impl.rememberFencedBoot fence.publisher fence.workerBoot) impl

/-- The dependents of every link, once all links are there. -/
def Impl.rebuildDependents (impl : Impl) : Impl :=
  let dependents := (listing impl.store.links.keys).foldl (fun dependents link =>
    match impl.entryOf link with
    | none => dependents
    | some entry => dependents.addAll (entry.record.binding.backingLinks.map (·.link)) link)
    impl.store.dependents
  { impl with store.dependents := dependents }

/-- The engine before its links are recovered. -/
def Impl.resetTo (impl : Impl) (payload : JournalPayload) : Impl :=
  { impl with
    store := { fences := payload.fences }
    globalGeneration := payload.globalGeneration
    globalStateGeneration := payload.globalStateGeneration
    topologyGeneration := payload.topologyGeneration
    epoch := payload.epoch
    snapshotCounter := payload.snapshotCounter
    transitionCounter := payload.transitionCounter }

/-- The part of `load` after decoding. -/
def Impl.recover (impl : Impl) (payload : JournalPayload) : Recovery :=
  let r := payload.links.foldl Recovery.recoverLink
    { impl := (impl.resetTo payload).rebuildFences payload.fences }
  { r with impl := r.impl.rebuildDependents }

/-- `load`, of what the journal file holds. -/
def Impl.load (impl : Impl) (config : PersistenceConfig) (steps : ReadSteps)
    (file : Option Bytes) : Impl × LoadOutcome :=
  match readJournalFile config steps file with
  | .error (code, detail) => (impl, { outcome := .make code detail })
  | .ok bytes =>
    match decodeJournal bytes config with
    | .error (code, detail) => (impl, { outcome := .make code detail })
    | .ok (payload, summary) =>
      let r := impl.recover payload
      (r.impl,
        { outcome := .make .committed (lit "durable state recovered; live authority and dynamic " ++
          lit "evidence were not restored as current")
          recordsLoaded := r.impl.store.links.keys.card
          recordsRevalidated := r.revalidated
          recordsLeftUnknown := r.leftUnknown
          layout := payload.layout
          journalDigest := summary.fileDigest })

end LinkState
