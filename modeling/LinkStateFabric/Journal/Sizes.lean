import LinkStateFabric.Journal.Form
import Mathlib.Algebra.Order.BigOperators.Group.List

/-!
# The size of a journal

`JournalPayload.size` is the size of the journal of a payload, computed without its digests
(`length_encodeJournal`). Whether a payload is loadable can be decided.
-/

namespace LinkState

open Codec

/-! ## Sizes -/

/-- An identifier: its length in four bytes, and its bytes. -/
def StrongId.size {tag : IdTag} (id : StrongId tag) : Nat := 4 + id.value.length

@[simp] theorem length_encodeId {tag : IdTag} (id : StrongId tag) :
    (encodeId id).length = id.size := by
  simp [encodeId, encodeText, StrongId.size]

@[simp] theorem length_encodeText (text : Text) : (encodeText text).length = 4 + text.length := by
  simp [encodeText]

@[simp] theorem length_encodeGeneration {tag : GenTag} (generation : StrongGeneration tag) :
    (encodeGeneration generation).length = 8 := by
  simp [encodeGeneration]

@[simp] theorem length_encodeEnum {α : Type} [ByteEnum α] (value : α) :
    (encodeEnum value).length = 1 := by
  simp [encodeEnum]

@[simp] theorem length_encodeBool (value : Bool) : (encodeBool value).length = 1 := by
  simp [encodeBool]

/-- The size of a list is that of its count and its items. -/
theorem length_encodeList {α : Type} {encode : α → Bytes} {size : α → Nat}
    (h : ∀ a, (encode a).length = size a) (items : List α) :
    (encodeList encode items).length = 4 + (items.map size).sum := by
  simp [encodeList, List.length_flatMap, h]

/-- A record of evidence: its identifiers and texts, and 134 bytes for the rest. -/
def EvidenceRecord.size (record : EvidenceRecord) : Nat :=
  record.key.link.value.length + record.key.source.value.length +
    record.key.endpoint.value.length + record.observation.value.length +
    record.publisher.value.length + record.workerBoot.value.length + record.detail.length +
    record.metadata.length + 134

/-- The endpoints: six identifiers and two generations. -/
def EndpointBinding.size (endpoints : EndpointBinding) : Nat :=
  endpoints.localEndpoint.size + endpoints.localDevice.size + endpoints.localPort.size +
    endpoints.remote.size + endpoints.remoteDevice.size + endpoints.remotePort.size + 16

/-- A binding: its members take an identifier each, and its backing links a generation more. -/
def TopologyBinding.size (binding : TopologyBinding) : Nat :=
  binding.fabric.size + binding.site.size + binding.link.size + binding.endpoints.size +
    (binding.memberLinks.map StrongId.size).sum +
    (binding.backingLinks.map fun backing => backing.link.size + 8).sum + 18

def AdministrativeIntent.size (intent : AdministrativeIntent) : Nat :=
  intent.publication.size + intent.publisher.size + 10

def StateHistoryEntry.size (history : StateHistoryEntry) : Nat :=
  history.publication.size + history.publisher.size + 30

/-- A record without its history, which is stored with the link. -/
def LinkStateRecord.size (record : LinkStateRecord) : Nat :=
  record.record.size + record.binding.size + record.lastPublication.size +
    record.lastTransition.size + record.lastPublisher.size +
    record.adminIntent.elim 0 AdministrativeIntent.size + 71

/-- A link: its record, its history where it is included, and its evidence. -/
def PersistedLink.size (includeHistory : Bool) (link : PersistedLink) : Nat :=
  link.record.size +
    (if includeHistory then (link.record.history.map StateHistoryEntry.size).sum else 0) +
    (link.evidence.map EvidenceRecord.size).sum

def PublisherFence.size (fence : PublisherFence) : Nat :=
  fence.publisher.size + fence.workerBoot.size + fence.reason.length + 12

/-- A journal: its header and trailer, the two counts, its links and its fences. -/
def JournalPayload.size (includeHistory : Bool) (payload : JournalPayload) : Nat :=
  journalHeaderBytes + journalTrailerBytes + 8 +
    (payload.links.map (PersistedLink.size includeHistory)).sum +
    (payload.fences.map PublisherFence.size).sum

theorem length_encodeEndpoints (endpoints : EndpointBinding) :
    (encodeEndpoints endpoints).length = endpoints.size := by
  simp [encodeEndpoints, EndpointBinding.size]
  omega

theorem length_encodeBinding (binding : TopologyBinding) :
    (encodeBinding binding).length = binding.size := by
  have hbacking (backing : BackingReference) :
      (encodeBacking backing).length = backing.link.size + 8 := by
    simp [encodeBacking]
  unfold encodeBinding TopologyBinding.size
  simp only [List.length_append, length_encodeEndpoints, length_encodeId, length_encodeGeneration,
    length_encodeEnum, length_encodeList length_encodeId, length_encodeList hbacking]
  omega

/-- An intent that is absent takes the byte that says so. -/
theorem length_encodeIntent (intent : Option AdministrativeIntent) :
    (encodeIntent intent).length = 1 + intent.elim 0 AdministrativeIntent.size := by
  cases intent with
  | none => rfl
  | some intent =>
    simp [encodeIntent, AdministrativeIntent.size]
    omega

theorem length_encodeHistoryEntry (history : StateHistoryEntry) :
    (encodeHistoryEntry history).length = history.size := by
  simp [encodeHistoryEntry, StateHistoryEntry.size]
  omega

/-- A link without its history stores a count of zero in place of it. -/
theorem length_encodeLink (includeHistory : Bool) (link : PersistedLink) :
    (encodeLink includeHistory link).length = link.size includeHistory := by
  have hevidence (r : EvidenceRecord) : (encodeEvidence r).length = r.size := length_encodeEvidence r
  simp only [encodeLink, PersistedLink.size, LinkStateRecord.size, List.length_append,
    length_encodeId, length_encodeGeneration, length_encodeEnum, length_encodeBool,
    length_encodeBinding, length_encodeIntent, length_encodeList hevidence,
    link.record.provenanceDigest.size]
  cases includeHistory <;>
    simp only [if_true, Bool.false_eq_true, if_false, length_leBytes,
      length_encodeList length_encodeHistoryEntry] <;>
    omega

theorem length_encodeFence (fence : PublisherFence) : (encodeFence fence).length = fence.size := by
  simp [encodeFence, PublisherFence.size]
  omega

/-- The header is of one length, whatever it says. -/
theorem length_encodeHeader (payload : JournalPayload) (config : PersistenceConfig)
    (bodySize : Nat) : (encodeHeader payload config bodySize).length = journalHeaderBytes := by
  simp only [encodeHeader, encodeGeneration, List.length_append, length_leBytes]
  rfl

/-- The size of the journal that is written for a payload. -/
theorem length_encodeJournal (payload : JournalPayload) (config : PersistenceConfig) :
    (encodeJournal payload config).1.length = payload.size config.includeHistory := by
  simp only [encodeJournal, List.length_append, length_encodeHeader, encodePayload,
    length_encodeList (length_encodeLink config.includeHistory), length_encodeList length_encodeFence,
    JournalPayload.size, Digest.size, journalTrailerBytes, Digest.byteCount]
  omega

/-! ## Loadable payloads fit -/

theorem sum_map_le {α : Type} {f : α → Nat} {l : List α} {bound count : Nat}
    (hlength : l.length ≤ count) (h : ∀ x ∈ l, f x ≤ bound) : (l.map f).sum ≤ count * bound := by
  have hsum := List.sum_le_card_nsmul (l.map f) bound (by simpa using h)
  rw [List.length_map, Nat.nsmul_eq_mul] at hsum
  exact hsum.trans (Nat.mul_le_mul_right _ hlength)

/-- No identifier is longer than 128 bytes. -/
theorem StrongId.size_le {tag : IdTag} (id : StrongId tag) : id.size ≤ 132 := by
  have hlength : id.value.length ≤ 128 := id.length_le
  unfold StrongId.size
  omega

/-- The texts of a decoded record are short enough for their lengths not to be cut off. -/
theorem EvidenceRecord.Decoded.fits {record : EvidenceRecord} (h : record.Decoded) :
    record.Fits := by
  have hdetail : record.detail.length ≤ 256 := validateText_length h.detail
  have hmetadata : record.metadata.length ≤ 2048 := h.metadata
  exact ⟨by omega, by omega⟩

/-- A decoded record of evidence is no larger than 4 KiB. -/
theorem EvidenceRecord.Decoded.size_le {record : EvidenceRecord} (h : record.Decoded) :
    record.size ≤ 4096 := by
  have hdetail : record.detail.length ≤ 256 := validateText_length h.detail
  have hmetadata : record.metadata.length ≤ 2048 := h.metadata
  have hid {tag : IdTag} (id : StrongId tag) : id.value.length ≤ 128 := id.length_le
  have := hid record.key.link
  have := hid record.key.source
  have := hid record.key.endpoint
  have := hid record.observation
  have := hid record.publisher
  have := hid record.workerBoot
  unfold EvidenceRecord.size
  omega

/-- A decoded record is no larger than 32 MiB, most of it for its members and backing links. -/
theorem LinkStateRecord.Decoded.size_le {record : LinkStateRecord} (h : record.Decoded) :
    record.size ≤ 2 ^ 25 := by
  have hid {tag : IdTag} (id : StrongId tag) : id.size ≤ 132 := id.size_le
  have hmembers := sum_map_le h.members.1 fun member _ => member.size_le
  have hbacking := @sum_map_le _ (fun backing : BackingReference => backing.link.size + 8) _ 140 _
    h.backing.1 fun backing _ => Nat.add_le_add_right backing.link.size_le 8
  have hcount : limits.maxAuthorityScopeLinks = 65536 := rfl
  -- An intent may be absent, and takes no more than its two identifiers and two numbers.
  have hintent : record.adminIntent.elim 0 AdministrativeIntent.size ≤ 274 := by
    cases record.adminIntent with
    | none => exact Nat.zero_le _
    | some intent =>
      have := hid intent.publication
      have := hid intent.publisher
      simp only [Option.elim, AdministrativeIntent.size]
      omega
  have := hid record.record
  have := hid record.lastPublication
  have := hid record.lastTransition
  have := hid record.lastPublisher
  have := hid record.binding.fabric
  have := hid record.binding.site
  have := hid record.binding.link
  have := hid record.binding.endpoints.localEndpoint
  have := hid record.binding.endpoints.localDevice
  have := hid record.binding.endpoints.localPort
  have := hid record.binding.endpoints.remote
  have := hid record.binding.endpoints.remoteDevice
  have := hid record.binding.endpoints.remotePort
  rw [hcount] at hmembers hbacking
  unfold LinkStateRecord.size TopologyBinding.size EndpointBinding.size
  omega

/-- The counts of an intact link are not cut off. -/
theorem PersistedLink.Intact.fits {link : PersistedLink} (h : link.Intact) : link.Fits where
  binding := ⟨lt_of_le_of_lt h.record.members.1 (by decide),
    lt_of_le_of_lt h.record.backing.1 (by decide)⟩
  history := lt_of_le_of_lt h.history (by decide)
  evidence := lt_of_le_of_lt h.evidence (by decide)
  each r hr := (h.each r hr).1.fits

/-- An intact link is no larger than 64 MiB. -/
theorem PersistedLink.Intact.size_le {link : PersistedLink} (h : link.Intact) :
    link.size true ≤ 2 ^ 26 := by
  have hrecord := h.record.size_le
  have hhistory := @sum_map_le _ StateHistoryEntry.size _ 294 _ h.history fun entry _ => by
    have := entry.publication.size_le
    have := entry.publisher.size_le
    unfold StateHistoryEntry.size
    omega
  have hevidence := sum_map_le h.evidence fun r hr => (h.each r hr).1.size_le
  have hcounts : limits.maxHistoryPerLink = 32 ∧ limits.maxEvidencePerLink = 64 := ⟨rfl, rfl⟩
  rw [hcounts.1] at hhistory
  rw [hcounts.2] at hevidence
  unfold PersistedLink.size
  rw [if_pos rfl]
  omega

/-- The size of what stands between the header and the trailer. -/
theorem length_bodyOf (payload : JournalPayload) : (bodyOf payload).length =
    8 + (payload.links.map (PersistedLink.size true)).sum +
      (payload.fences.map PublisherFence.size).sum := by
  rw [bodyOf, List.length_append, length_encodeList (length_encodeLink true),
    length_encodeList length_encodeFence]
  omega

/-- A loadable payload that is not larger than any configuration admits is stored in full. -/
theorem JournalPayload.Loadable.fits {payload : JournalPayload} (h : payload.Loadable)
    (hcount : payload.links.length ≤ limits.maxPersistedRecords) :
    payload.Fits ∧ (bodyOf payload).length < 2 ^ 64 := by
  have hreason (fence : PublisherFence) (hfence : fence ∈ payload.fences) :
      fence.reason.length ≤ 256 := validateText_length (h.fences.2 fence hfence).reason
  refine ⟨⟨lt_of_le_of_lt hcount (by decide), fun link hlink => (h.links link hlink).1.fits,
    lt_of_le_of_lt h.fences.1 (by decide), fun fence hfence => ?_⟩, ?_⟩
  · exact lt_of_le_of_lt (hreason fence hfence) (by decide)
  · have hlinks := sum_map_le hcount fun link hlink => (h.links link hlink).1.size_le
    have hfences := @sum_map_le _ PublisherFence.size _ 532 _ h.fences.1 fun fence hfence => by
      have := fence.publisher.size_le
      have := fence.workerBoot.size_le
      have := hreason fence hfence
      unfold PublisherFence.size
      omega
    have hcounts : limits.maxPersistedRecords = 1000000 ∧ limits.maxPublishers = 65536 := ⟨rfl, rfl⟩
    rw [hcounts.1] at hlinks
    rw [hcounts.2] at hfences
    rw [length_bodyOf]
    omega

/-! ## Deciding whether a payload is loadable -/

instance (record : LinkStateRecord) : Decidable record.Decoded :=
  decidable_of_iff (record.record.valid = true ∧ record.binding.link.valid = true ∧
    record.binding.endpoints.localEndpoint.valid = true ∧
    (record.binding.memberLinks.length ≤ limits.maxAuthorityScopeLinks ∧
      ∀ member ∈ record.binding.memberLinks, member.valid = true) ∧
    (record.binding.backingLinks.length ≤ limits.maxAuthorityScopeLinks ∧
      ∀ backing ∈ record.binding.backingLinks, backing.link.valid = true) ∧
    ∀ intent ∈ record.adminIntent, intent.publication.valid = true ∧ intent.publisher.valid = true)
    ⟨fun ⟨h₁, h₂, h₃, h₄, h₅, h₆⟩ => ⟨h₁, h₂, h₃, h₄, h₅, h₆⟩,
      fun h => ⟨h.1, h.2, h.3, h.4, h.5, h.6⟩⟩

instance (record : EvidenceRecord) : Decidable record.Decoded :=
  decidable_of_iff (record.key.link.valid = true ∧ record.key.source.valid = true ∧
    record.observation.valid = true ∧ record.publisher.valid = true ∧
    record.workerBoot.valid = true ∧ validateText record.detail limits.maxDetailLength = none ∧
    record.metadata.length ≤ limits.maxEvidenceMetadataBytes ∧
    record.computeDigest = record.recordDigest)
    ⟨fun ⟨h₁, h₂, h₃, h₄, h₅, h₆, h₇, h₈⟩ => ⟨h₁, h₂, h₃, h₄, h₅, h₆, h₇, h₈⟩,
      fun h => ⟨h.1, h.2, h.3, h.4, h.5, h.6, h.7, h.8⟩⟩

instance (link : PersistedLink) : Decidable link.Intact :=
  decidable_of_iff (link.record.Decoded ∧ link.record.history.length ≤ limits.maxHistoryPerLink ∧
    link.evidence.length ≤ limits.maxEvidencePerLink ∧
    (∀ r ∈ link.evidence, r.Decoded ∧ r.key.link = link.record.binding.link) ∧
    (link.evidence.map (·.key.text)).Nodup)
    ⟨fun ⟨h₁, h₂, h₃, h₄, h₅⟩ => ⟨h₁, h₂, h₃, h₄, h₅⟩, fun h => ⟨h.1, h.2, h.3, h.4, h.5⟩⟩

instance (link : PersistedLink) (g : GlobalGeneration) (gs : LinkStateGeneration) :
    Decidable (link.Decoded g gs) :=
  decidable_of_iff (link.record.Decoded ∧ link.record.binding.topologyGeneration.isZero = false ∧
    link.record.stateGeneration ≤ gs ∧ link.record.globalGeneration ≤ g ∧
    ¬ (link.record.state = .retired ∧ link.record.everEstablished = false ∧
      link.record.stateGeneration.value = 0))
    ⟨fun ⟨h₁, h₂, h₃, h₄, h₅⟩ => ⟨h₁, h₂, h₃, h₄, h₅⟩, fun h => ⟨h.1, h.2, h.3, h.4, h.5⟩⟩

instance (fence : PublisherFence) : Decidable fence.Decoded :=
  decidable_of_iff (fence.publisher.valid = true ∧ fence.workerBoot.valid = true ∧
    validateText fence.reason limits.maxDetailLength = none)
    ⟨fun ⟨h₁, h₂, h₃⟩ => ⟨h₁, h₂, h₃⟩, fun h => ⟨h.1, h.2, h.3⟩⟩

instance (payload : JournalPayload) : Decidable payload.Loadable :=
  decidable_of_iff ((∀ link ∈ payload.links, link.Intact ∧
      link.Decoded payload.globalGeneration payload.globalStateGeneration) ∧
    (payload.links.map (·.record.binding.link)).Nodup ∧
    payload.fences.length ≤ limits.maxPublishers ∧ ∀ fence ∈ payload.fences, fence.Decoded)
    ⟨fun ⟨h₁, h₂, h₃⟩ => ⟨h₁, h₂, h₃⟩, fun h => ⟨h.1, h.2, h.3⟩⟩

end LinkState
