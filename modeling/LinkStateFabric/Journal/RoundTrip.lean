import LinkStateFabric.Journal.Decoded

/-!
# What a decoder makes of an encoding

* `reads_decodeX`: a reader of the journal `Reads` what the encoder wrote, exactly where the value
  satisfies what the decoder requires of it.
* `Fits`: counts and lengths are stored in 32 bits, and none of the value is cut off.
-/

namespace LinkState

open Codec

/-! ## Fields -/

theorem reads_readText {text : Text} (maxLength : Nat) (h : text.length < 2 ^ 32) :
    Reads (readText maxLength) (encodeText text) (validateText text maxLength = none) text :=
  reads_textField journalErrors maxLength h

theorem reads_readBlob {bytes : Bytes} (maxLength : Nat) (h : bytes.length < 2 ^ 32) :
    Reads (readBlob maxLength) (encodeBlob bytes) (bytes.length ≤ maxLength) bytes :=
  reads_blobField maxLength h

theorem reads_readDigest (digest : Digest) : Reads readDigest digest.bytes True digest := by
  have hlast : Reads (if h : digest.bytes.length = 32 then
      (pure ⟨digest.bytes, h⟩ : JournalReader Digest) else fail truncated) [] True digest := by
    rw [dif_pos digest.size]
    exact Reads.pure digest
  exact ((Reads.take digest.bytes digest.size.symm).finish fun _ => hlast).conv rfl (by simp)
    fun _ => rfl

theorem reads_readId {tag : IdTag} (allowEmpty : Bool) (id : StrongId tag) :
    Reads (readId allowEmpty) (encodeId id) (allowEmpty = true ∨ id.valid = true) id :=
  reads_idField journalErrors allowEmpty id

theorem reads_readGeneration {tag : GenTag} (generation : StrongGeneration tag) :
    Reads readGeneration (encodeGeneration generation) True generation :=
  reads_generationField generation

theorem reads_readU64 (value : U64) : Reads readU64 (leBytes 8 value) True value :=
  reads_u64Field value

theorem reads_readEnum {α : Type} [ByteEnum α] (field : Text) (value : α) :
    Reads (readEnum field) (encodeEnum value) True value :=
  reads_enumField value

theorem reads_readBool (field : Text) (value : Bool) :
    Reads (readBool field) (encodeBool value) True value :=
  reads_boolField value

/-- A list is read item by item, if its count is not cut off. -/
theorem reads_readList {α : Type} {maximum : Nat} {tooMany : Text} {r : List α → JournalReader α}
    {enc : α → Bytes} {ok : List α → α → Prop} {xs : List α} (hcount : xs.length < 2 ^ 32)
    (h : ∀ pre, ∀ x ∈ xs, Reads (r pre) (enc x) (ok pre x) x) :
    Reads (readList maximum tooMany r) (encodeList enc xs)
      (xs.length ≤ maximum ∧ ∀ pre x post, xs = pre ++ x :: post → ok pre x) xs :=
  reads_listField hcount h

theorem reads_readListEach {α : Type} {maximum : Nat} {tooMany : Text} {r : JournalReader α}
    {enc : α → Bytes} {ok : α → Prop} {xs : List α} (hcount : xs.length < 2 ^ 32)
    (h : ∀ x ∈ xs, Reads r (enc x) (ok x) x) :
    Reads (readList maximum tooMany fun _ => r) (encodeList enc xs)
      (xs.length ≤ maximum ∧ ∀ x ∈ xs, ok x) xs :=
  reads_listFieldEach hcount h

/-! ## Records -/

/-- What the decoder requires of a record of evidence. -/
structure EvidenceRecord.Decoded (record : EvidenceRecord) : Prop where
  link : record.key.link.valid = true
  source : record.key.source.valid = true
  observation : record.observation.valid = true
  publisher : record.publisher.valid = true
  workerBoot : record.workerBoot.valid = true
  detail : validateText record.detail limits.maxDetailLength = none
  metadata : record.metadata.length ≤ limits.maxEvidenceMetadataBytes
  digest : record.computeDigest = record.recordDigest

theorem reads_decodeKey (key : EvidenceKey) : Reads decodeKey
    (encodeId key.link ++ encodeId key.source ++ encodeId key.endpoint ++
      encodeEnum key.direction ++ encodeEnum key.kind)
    (key.link.valid = true ∧ key.source.valid = true) key :=
  Reads.conv
    (.bind (reads_readId false key.link) fun _ => .bind (reads_readId false key.source) fun _ =>
      .bind (reads_readId true key.endpoint) fun _ => .bind (reads_readEnum _ key.direction) fun _ =>
      .finish (reads_readEnum _ key.kind) fun _ => .pure _)
    (by simp) (by simp) fun _ => rfl

/-- The lengths of a record of evidence are not cut off. -/
structure EvidenceRecord.Fits (record : EvidenceRecord) : Prop where
  detail : record.detail.length < 2 ^ 32
  metadata : record.metadata.length < 2 ^ 32

/-- The size of a record of evidence: its identifiers, its texts and 134 bytes. -/
theorem length_encodeEvidence (record : EvidenceRecord) : (encodeEvidence record).length =
    record.key.link.value.length + record.key.source.value.length +
      record.key.endpoint.value.length + record.observation.value.length +
      record.publisher.value.length + record.workerBoot.value.length + record.detail.length +
      record.metadata.length + 134 := by
  unfold encodeEvidence
  simp only [encodeId, encodeText, encodeEnum, encodeGeneration, List.length_append,
    length_leBytes, List.length_singleton, record.recordDigest.size]
  omega

theorem reads_decodeEvidence {record : EvidenceRecord} (h : record.Fits) :
    Reads decodeEvidence (encodeEvidence record) record.Decoded record := by
  -- The digest comes last, and is compared with that of the fields before it.
  have hlast : Reads (check (record.computeDigest = record.recordDigest)
      (.persistenceCorrupt, lit "evidence record digest does not match its content") >>=
        fun _ => (pure record : JournalReader EvidenceRecord)) []
      (record.computeDigest = record.recordDigest ∧ True) record :=
    .finish .check fun _ => .pure record
  refine Reads.conv
    (.bind (reads_decodeKey record.key) fun _ =>
      .bind (reads_readId false record.observation) fun _ =>
      .bind (reads_readId false record.publisher) fun _ =>
      .bind (reads_readId false record.workerBoot) fun _ =>
      .bind (reads_readGeneration record.epoch) fun _ =>
      .bind (reads_readGeneration record.sourceGeneration) fun _ =>
      .bind (reads_readU64 record.sequence) fun _ =>
      .bind (reads_readGeneration record.topologyGeneration) fun _ =>
      .bind (reads_readGeneration record.endpointGeneration) fun _ =>
      .bind (reads_readEnum _ record.evidenceClass) fun _ =>
      .bind (reads_readEnum _ record.claim) fun _ =>
      .bind (reads_readEnum _ record.degradationCause) fun _ =>
      .bind (reads_readU64 record.observedAtUnixNanos) fun _ =>
      .bind (reads_readText _ h.detail) fun _ =>
      .bind (reads_readBlob _ h.metadata) fun _ =>
      .bind (reads_readEnum _ record.status) fun _ =>
      .bind (reads_readGeneration record.evidenceGeneration) fun _ =>
      .bind (reads_readGeneration record.commitSequence) fun _ =>
      .finish (reads_readDigest record.recordDigest) fun _ => hlast)
    ?_ ?_ fun _ => rfl
  · unfold encodeEvidence encodeText encodeBlob
    simp only [List.append_assoc]
  · simp only [Bool.false_eq_true, false_or, true_and, and_true]
    exact ⟨fun h => ⟨⟨h.link, h.source⟩, h.observation, h.publisher, h.workerBoot, h.detail,
      h.metadata, h.digest⟩, fun ⟨⟨h1, h2⟩, h3, h4, h5, h6, h7, h8⟩ =>
      ⟨h1, h2, h3, h4, h5, h6, h7, h8⟩⟩

theorem reads_decodeEndpoints (endpoints : EndpointBinding) : Reads decodeEndpoints
    (encodeEndpoints endpoints) (endpoints.localEndpoint.valid = true) endpoints :=
  Reads.conv
    (.bind (reads_readId false endpoints.localEndpoint) fun _ =>
      .bind (reads_readGeneration endpoints.localGeneration) fun _ =>
      .bind (reads_readId true endpoints.localDevice) fun _ =>
      .bind (reads_readId true endpoints.localPort) fun _ =>
      .bind (reads_readId true endpoints.remote) fun _ =>
      .bind (reads_readGeneration endpoints.remoteGeneration) fun _ =>
      .bind (reads_readId true endpoints.remoteDevice) fun _ =>
      .finish (reads_readId true endpoints.remotePort) fun _ => .pure _)
    (by simp only [encodeEndpoints, List.append_assoc]) (by simp) fun _ => rfl

theorem reads_decodeBacking (backing : BackingReference) : Reads decodeBacking
    (encodeBacking backing) (backing.link.valid = true) backing :=
  Reads.conv (.bind (reads_readId false backing.link) fun _ =>
    .finish (reads_readGeneration backing.generation) fun _ => .pure _) rfl (by simp) fun _ => rfl

/-- The counts of a binding are not cut off. -/
structure TopologyBinding.Fits (binding : TopologyBinding) : Prop where
  members : binding.memberLinks.length < 2 ^ 32
  backing : binding.backingLinks.length < 2 ^ 32

theorem reads_decodeBinding {binding : TopologyBinding} (h : binding.Fits) :
    Reads decodeBinding (encodeBinding binding)
      (binding.link.valid = true ∧ binding.endpoints.localEndpoint.valid = true ∧
      (binding.memberLinks.length ≤ limits.maxAuthorityScopeLinks ∧
        ∀ member ∈ binding.memberLinks, member.valid = true) ∧
      (binding.backingLinks.length ≤ limits.maxAuthorityScopeLinks ∧
        ∀ backing ∈ binding.backingLinks, backing.link.valid = true)) binding :=
  Reads.conv
    (.bind (reads_readId true binding.fabric) fun _ =>
      .bind (reads_readId true binding.site) fun _ =>
      .bind (reads_readId false binding.link) fun _ =>
      .bind (reads_readGeneration binding.topologyGeneration) fun _ =>
      .bind (reads_readEnum _ binding.linkClass) fun _ =>
      .bind (reads_readEnum _ binding.symmetry) fun _ =>
      .bind (reads_decodeEndpoints binding.endpoints) fun _ =>
      .bind (reads_readListEach h.members fun member _ => reads_readId false member) fun _ =>
      .finish (reads_readListEach h.backing fun backing _ => reads_decodeBacking backing)
        fun _ => .pure _)
    (by simp only [encodeBinding, List.append_assoc]) (by simp) fun _ => rfl

theorem reads_decodeIntent (intent : Option AdministrativeIntent) : Reads decodeIntent
    (encodeIntent intent)
    (∀ i ∈ intent, i.publication.valid = true ∧ i.publisher.valid = true) intent := by
  cases intent with
  | none =>
    have hlast : Reads (if (false : Bool) then some <$> decodeIntentBody else pure none) [] True
        (none : Option AdministrativeIntent) := .pure none
    exact Reads.conv (.finish (reads_readBool _ false) fun _ => hlast) rfl (by simp) fun _ => rfl
  | some intent =>
    have hbody : Reads decodeIntentBody (encodeEnum intent.state ++ encodeEnum intent.cause ++
        encodeId intent.publication ++ encodeId intent.publisher ++
        encodeGeneration intent.generation)
        (intent.publication.valid = true ∧ intent.publisher.valid = true) intent :=
      Reads.conv
        (.bind (reads_readEnum _ intent.state) fun _ => .bind (reads_readEnum _ intent.cause) fun _ =>
          .bind (reads_readId false intent.publication) fun _ =>
          .bind (reads_readId false intent.publisher) fun _ =>
          .finish (reads_readGeneration intent.generation) fun _ => .pure _)
        (by simp only [List.append_assoc]) (by simp) fun _ => rfl
    have hlast : Reads (if (true : Bool) then some <$> decodeIntentBody else pure none) _ _
        (some intent) := hbody.map some
    refine Reads.conv (.bind (reads_readBool _ true) fun _ => hlast) ?_ (by simp) fun _ => rfl
    simp only [encodeIntent, List.append_assoc]

theorem reads_decodeHistoryEntry (history : StateHistoryEntry) :
    Reads decodeHistoryEntry (encodeHistoryEntry history) True history :=
  Reads.conv
    (.bind (reads_readGeneration history.stateGeneration) fun _ =>
      .bind (reads_readEnum _ history.fromState) fun _ =>
      .bind (reads_readEnum _ history.toState) fun _ =>
      .bind (reads_readEnum _ history.trigger) fun _ =>
      .bind (reads_readEnum _ history.resultClass) fun _ =>
      .bind (reads_readEnum _ history.cause) fun _ =>
      .bind (reads_readId true history.publication) fun _ =>
      .bind (reads_readId true history.publisher) fun _ =>
      .bind (reads_readGeneration history.evidenceGeneration) fun _ =>
      .bind (reads_readGeneration history.topologyGeneration) fun _ =>
      .finish (reads_readEnum _ history.outcome) fun _ => .pure _)
    (by simp only [encodeHistoryEntry, List.append_assoc]) (by simp) fun _ => rfl

/-- The part of an encoded link that `decodeRecord` reads. -/
def encodeRecord (record : LinkStateRecord) : Bytes :=
  encodeId record.record ++ encodeBinding record.binding ++ encodeEnum record.state ++
    encodeEnum record.resultClass ++ encodeEnum record.degradationCause ++
    encodeGeneration record.stateGeneration ++ encodeGeneration record.evidenceGeneration ++
    encodeGeneration record.globalGeneration ++ encodeId record.lastPublication ++
    encodeId record.lastTransition ++ encodeId record.lastPublisher ++
    encodeEnum record.lastOutcome ++ encodeBool record.everEstablished ++
    encodeBool record.durable ++ encodeIntent record.adminIntent ++ record.provenanceDigest.bytes

theorem reads_decodeRecord {record : LinkStateRecord} (h : record.binding.Fits) :
    Reads decodeRecord (encodeRecord record) record.Decoded { record with history := [] } := by
  refine Reads.conv
    (.bind (reads_readId false record.record) fun _ =>
      .bind (reads_decodeBinding h) fun _ =>
      .bind (reads_readEnum _ record.state) fun _ =>
      .bind (reads_readEnum _ record.resultClass) fun _ =>
      .bind (reads_readEnum _ record.degradationCause) fun _ =>
      .bind (reads_readGeneration record.stateGeneration) fun _ =>
      .bind (reads_readGeneration record.evidenceGeneration) fun _ =>
      .bind (reads_readGeneration record.globalGeneration) fun _ =>
      .bind (reads_readId true record.lastPublication) fun _ =>
      .bind (reads_readId true record.lastTransition) fun _ =>
      .bind (reads_readId true record.lastPublisher) fun _ =>
      .bind (reads_readEnum _ record.lastOutcome) fun _ =>
      .bind (reads_readBool _ record.everEstablished) fun _ =>
      .bind (reads_readBool _ record.durable) fun _ =>
      .bind (reads_decodeIntent record.adminIntent) fun _ =>
      .finish (reads_readDigest record.provenanceDigest) fun _ => .pure _)
    ?_ ?_ fun _ => rfl
  · unfold encodeRecord
    simp only [List.append_assoc]
  · simp only [Bool.false_eq_true, false_or, true_or, true_and, and_true]
    exact ⟨fun h => ⟨h.record_valid, ⟨h.link, h.localEndpoint, h.members, h.backing⟩, h.intent⟩,
      fun ⟨h1, ⟨h2, h3, h4, h5⟩, h6⟩ => ⟨h1, h2, h3, h4, h5, h6⟩⟩

/-- What the decoder requires of a link on its own. -/
structure PersistedLink.Intact (link : PersistedLink) : Prop where
  record : link.record.Decoded
  history : link.record.history.length ≤ limits.maxHistoryPerLink
  evidence : link.evidence.length ≤ limits.maxEvidencePerLink
  each : ∀ r ∈ link.evidence, r.Decoded ∧ r.key.link = link.record.binding.link
  distinct : (link.evidence.map (·.key.text)).Nodup

theorem nodup_map_iff_prefix {α β : Type} {f : α → β} {l : List α} :
    (l.map f).Nodup ↔ ∀ pre x post, l = pre ++ x :: post → f x ∉ pre.map f := by
  refine ⟨?_, fun h => nodup_of_prefix fun pre y post heq => ?_⟩
  · rintro h pre x post rfl
    rw [List.map_append, List.map_cons, List.nodup_append] at h
    exact fun hmem => h.2.2 _ hmem _ List.mem_cons_self rfl
  · obtain ⟨pre, rest, rfl, rfl, hrest⟩ := List.map_eq_append_iff.mp heq
    obtain ⟨x, post, rfl, rfl, rfl⟩ := List.map_eq_cons_iff.mp hrest
    exact h pre x post rfl

theorem reads_decodeEvidenceOf (link : LinkId) (before : List EvidenceRecord)
    {record : EvidenceRecord} (h : record.Fits) :
    Reads (decodeEvidenceOf link before) (encodeEvidence record)
      (record.Decoded ∧ record.key.link = link ∧ record.key.text ∉ before.map (·.key.text))
      record :=
  Reads.conv
    (.finish (reads_decodeEvidence h) fun _ => .finish .check fun _ => .finish .check fun _ =>
      .pure record)
    rfl (by simp) fun _ => rfl

/-- An encoded link, with the history that its payload holds. -/
theorem encodeLink_eq {includeHistory : Bool} {link : PersistedLink}
    (h : includeHistory = true ∨ link.record.history = []) : encodeLink includeHistory link =
      encodeRecord link.record ++ encodeList encodeHistoryEntry link.record.history ++
        encodeList encodeEvidence link.evidence := by
  have hhistory : (if includeHistory then encodeList encodeHistoryEntry link.record.history
      else leBytes 4 0) = encodeList encodeHistoryEntry link.record.history := by
    rcases h with h | h
    · rw [if_pos h]
    · rw [h]
      exact ite_self _
  unfold encodeLink
  dsimp only
  rw [hhistory]
  rfl

/-- The counts and lengths of a link are not cut off. -/
structure PersistedLink.Fits (link : PersistedLink) : Prop where
  binding : link.record.binding.Fits
  history : link.record.history.length < 2 ^ 32
  evidence : link.evidence.length < 2 ^ 32
  each : ∀ record ∈ link.evidence, record.Fits

theorem reads_decodeLink {link : PersistedLink} (h : link.Fits) :
    Reads decodeLink (encodeLink true link) link.Intact link := by
  rw [encodeLink_eq (.inl rfl)]
  refine Reads.conv
    (.bind (reads_decodeRecord h.binding) fun _ =>
      .bind (reads_readListEach h.history fun history _ => reads_decodeHistoryEntry history)
        fun _ => .finish (reads_readList h.evidence fun before r hr =>
          reads_decodeEvidenceOf link.record.binding.link before (h.each r hr)) fun _ => .pure _)
    (by simp only [List.append_assoc]) ?_ fun _ => rfl
  · simp only [and_true, implies_true]
    constructor
    · intro h
      refine ⟨h.record, h.history, h.evidence, fun pre r post heq => ?_⟩
      obtain ⟨hdecoded, hlink⟩ := h.each r (by simp [heq])
      exact ⟨hdecoded, hlink, nodup_map_iff_prefix.mp h.distinct pre r post heq⟩
    · rintro ⟨hrecord, hhistory, hevidence, hall⟩
      refine ⟨hrecord, hhistory, hevidence, fun r hr => ?_, nodup_map_iff_prefix.mpr
        fun pre r post heq => (hall pre r post heq).2.2⟩
      obtain ⟨pre, post, heq⟩ := List.append_of_mem hr
      exact ⟨(hall pre r post heq).1, (hall pre r post heq).2.1⟩

theorem reads_decodeFence {fence : PublisherFence} (hreason : fence.reason.length < 2 ^ 32) :
    Reads decodeFence (encodeFence fence) fence.Decoded fence := by
  refine Reads.conv
    (.bind (reads_readId false fence.publisher) fun _ =>
      .bind (reads_readId false fence.workerBoot) fun _ =>
      .bind (reads_readGeneration fence.epoch) fun _ =>
      .finish (reads_readText _ hreason) fun _ => .pure _)
    (by simp only [encodeFence, List.append_assoc]) ?_ fun _ => rfl
  simp only [Bool.false_eq_true, false_or, true_and, and_true]
  exact ⟨fun h => ⟨h.publisher, h.workerBoot, h.reason⟩, fun ⟨h1, h2, h3⟩ => ⟨h1, h2, h3⟩⟩

end LinkState
