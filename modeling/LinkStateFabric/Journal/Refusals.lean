import LinkStateFabric.Journal.Decode

/-!
# What the decoder of a journal refuses with

No refusal of `decodeJournal` is COMMITTED, so a load that returns COMMITTED has recovered.
-/

namespace LinkState

open Codec

/-- No refusal of the reader is COMMITTED. -/
abbrev Fallible {α : Type} (r : JournalReader α) : Prop :=
  Refuses r fun refusal => refusal.1 ≠ .committed

/-! ## Fields -/

/-- What is said of a text or an identifier is PERSISTENCE_CORRUPT or RESOURCE_LIMIT. -/
theorem fallible_errors : journalErrors.All fun refusal => refusal.1 ≠ .committed :=
  ⟨nofun, nofun, fun _ => nofun, nofun, fun _ => nofun⟩

theorem fallible_readText (maxLength : Nat) : Fallible (readText maxLength) :=
  refuses_textField fallible_errors maxLength

theorem fallible_readBlob (maxLength : Nat) : Fallible (readBlob maxLength) :=
  refuses_blobField nofun nofun maxLength

/-- A digest is refused only where the journal is truncated. -/
theorem fallible_readDigest : Fallible readDigest := by
  refine (refuses_take nofun).bind fun bytes => ?_
  split
  · exact refuses_pure
  · exact refuses_fail nofun

theorem fallible_readId {tag : IdTag} {allowEmpty : Bool} : Fallible (@readId tag allowEmpty) :=
  refuses_idField fallible_errors

theorem fallible_readGeneration {tag : GenTag} : Fallible (@readGeneration tag) :=
  refuses_generationField nofun

theorem fallible_readU64 : Fallible readU64 := refuses_u64Field nofun

theorem fallible_readEnum {α : Type} [ByteEnum α] {field : Text} :
    Fallible (@readEnum α _ field) :=
  refuses_enumField nofun nofun

theorem fallible_readBool {field : Text} : Fallible (readBool field) :=
  refuses_boolField nofun nofun

/-- A list is refused for its count, or for one of its items. -/
theorem fallible_readList {α : Type} {maximum : Nat} {tooMany : Text}
    {r : List α → JournalReader α} (h : ∀ before, Fallible (r before)) :
    Fallible (readList maximum tooMany r) :=
  refuses_listField nofun nofun h

/-! ## Records -/

theorem fallible_decodeKey : Fallible decodeKey :=
  fallible_readId.bind fun _ => fallible_readId.bind fun _ => fallible_readId.bind fun _ =>
    fallible_readEnum.bind fun _ => fallible_readEnum.bind fun _ => refuses_pure

/-- A record of evidence is refused for a field, or for its digest. -/
theorem fallible_decodeEvidence : Fallible decodeEvidence :=
  fallible_decodeKey.bind fun _ => fallible_readId.bind fun _ => fallible_readId.bind fun _ =>
    fallible_readId.bind fun _ => fallible_readGeneration.bind fun _ =>
    fallible_readGeneration.bind fun _ => fallible_readU64.bind fun _ =>
    fallible_readGeneration.bind fun _ => fallible_readGeneration.bind fun _ =>
    fallible_readEnum.bind fun _ => fallible_readEnum.bind fun _ => fallible_readEnum.bind fun _ =>
    fallible_readU64.bind fun _ => (fallible_readText _).bind fun _ =>
    (fallible_readBlob _).bind fun _ => fallible_readEnum.bind fun _ =>
    fallible_readGeneration.bind fun _ => fallible_readGeneration.bind fun _ =>
    fallible_readDigest.bind fun _ => (refuses_check nofun).bind fun _ => refuses_pure

theorem fallible_decodeEndpoints : Fallible decodeEndpoints :=
  fallible_readId.bind fun _ => fallible_readGeneration.bind fun _ => fallible_readId.bind fun _ =>
    fallible_readId.bind fun _ => fallible_readId.bind fun _ => fallible_readGeneration.bind fun _ =>
    fallible_readId.bind fun _ => fallible_readId.bind fun _ => refuses_pure

theorem fallible_decodeBacking : Fallible decodeBacking :=
  fallible_readId.bind fun _ => fallible_readGeneration.bind fun _ => refuses_pure

theorem fallible_decodeBinding : Fallible decodeBinding :=
  fallible_readId.bind fun _ => fallible_readId.bind fun _ => fallible_readId.bind fun _ =>
    fallible_readGeneration.bind fun _ => fallible_readEnum.bind fun _ =>
    fallible_readEnum.bind fun _ => fallible_decodeEndpoints.bind fun _ =>
    (fallible_readList fun _ => fallible_readId).bind fun _ =>
    (fallible_readList fun _ => fallible_decodeBacking).bind fun _ => refuses_pure

/-- An intent that is absent is not read. -/
theorem fallible_decodeIntent : Fallible decodeIntent := by
  have hbody : Fallible decodeIntentBody :=
    fallible_readEnum.bind fun _ => fallible_readEnum.bind fun _ => fallible_readId.bind fun _ =>
      fallible_readId.bind fun _ => fallible_readGeneration.bind fun _ => refuses_pure
  refine fallible_readBool.bind fun hasIntent => ?_
  cases hasIntent
  · exact refuses_pure
  · exact hbody.map some

theorem fallible_decodeHistoryEntry : Fallible decodeHistoryEntry :=
  fallible_readGeneration.bind fun _ => fallible_readEnum.bind fun _ =>
    fallible_readEnum.bind fun _ => fallible_readEnum.bind fun _ => fallible_readEnum.bind fun _ =>
    fallible_readEnum.bind fun _ => fallible_readId.bind fun _ => fallible_readId.bind fun _ =>
    fallible_readGeneration.bind fun _ => fallible_readGeneration.bind fun _ =>
    fallible_readEnum.bind fun _ => refuses_pure

/-- Evidence of a link is refused where it names another link, or a key for the second time. -/
theorem fallible_decodeEvidenceOf (link : LinkId) (before : List EvidenceRecord) :
    Fallible (decodeEvidenceOf link before) :=
  fallible_decodeEvidence.bind fun _ => (refuses_check nofun).bind fun _ =>
    (refuses_check nofun).bind fun _ => refuses_pure

/-- A record is refused for a field of its own, of its binding or of its intent. -/
theorem fallible_decodeRecord : Fallible decodeRecord :=
  fallible_readId.bind fun _ => fallible_decodeBinding.bind fun _ => fallible_readEnum.bind fun _ =>
    fallible_readEnum.bind fun _ => fallible_readEnum.bind fun _ =>
    fallible_readGeneration.bind fun _ => fallible_readGeneration.bind fun _ =>
    fallible_readGeneration.bind fun _ => fallible_readId.bind fun _ => fallible_readId.bind fun _ =>
    fallible_readId.bind fun _ => fallible_readEnum.bind fun _ => fallible_readBool.bind fun _ =>
    fallible_readBool.bind fun _ => fallible_decodeIntent.bind fun _ =>
    fallible_readDigest.bind fun _ => refuses_pure

/-- A link is refused for its record, its history or its evidence. -/
theorem fallible_decodeLink : Fallible decodeLink :=
  fallible_decodeRecord.bind fun _ =>
    (fallible_readList fun _ => fallible_decodeHistoryEntry).bind fun _ =>
    (fallible_readList (fallible_decodeEvidenceOf _)).bind fun _ => refuses_pure

theorem fallible_decodeFence : Fallible decodeFence :=
  fallible_readId.bind fun _ => fallible_readId.bind fun _ => fallible_readGeneration.bind fun _ =>
    (fallible_readText _).bind fun _ => refuses_pure

/-! ## Journals -/

/-- The header is refused where it is cut off, or for its magic number or its version. -/
theorem fallible_decodeHeader : Fallible decodeHeader :=
  (refuses_take nofun).bind fun _ => (refuses_check nofun).bind fun _ =>
    (refuses_number nofun).bind fun _ => (refuses_number nofun).bind fun _ =>
    (refuses_check nofun).bind fun _ => fallible_readGeneration.bind fun _ =>
    fallible_readGeneration.bind fun _ => fallible_readGeneration.bind fun _ =>
    fallible_readGeneration.bind fun _ => fallible_readGeneration.bind fun _ =>
    (refuses_number nofun).bind fun _ => (refuses_number nofun).bind fun _ => refuses_pure

/-- A link of a journal is refused where it contradicts the header or a link before it. -/
theorem fallible_decodeLinkOf (header : JournalHeader) (before : List PersistedLink) :
    Fallible (decodeLinkOf header before) :=
  fallible_decodeLink.bind fun _ => (refuses_check nofun).bind fun _ =>
    (refuses_check nofun).bind fun _ => (refuses_check nofun).bind fun _ =>
    (refuses_check nofun).bind fun _ => (refuses_check nofun).bind fun _ => refuses_pure

/-- The body is refused for its counts, its links, its fences, or what is left over. -/
theorem fallible_decodeBody (header : JournalHeader) : Fallible (decodeBody header) := by
  have hend : Fallible readEnd := by
    intro rest refusal h
    unfold readEnd at h
    split at h <;> cases h
    exact nofun
  exact (refuses_number nofun).bind fun count => (refuses_check nofun).bind fun _ =>
    (refuses_many (fallible_decodeLinkOf header) [] count).bind fun _ =>
    (fallible_readList fun _ => fallible_decodeFence).bind fun _ => hend.bind fun _ => refuses_pure

/-- Too many records are refused for their number, and lengths that do not match as corrupt. -/
theorem checkFrame_fails {header : JournalHeader} {config : PersistenceConfig} {size : Nat}
    {refusal : Refusal} (h : checkFrame header config size = some refusal) :
    refusal.1 ≠ .committed := by
  unfold checkFrame at h
  split at h
  · cases h
    exact nofun
  split at h
  · cases h
    exact nofun
  split at h <;> cases h
  exact nofun

/-- Digests that do not match are refused as corrupt. -/
theorem checkDigests_fails {front body trailer : Bytes} {refusal : Refusal}
    (h : checkDigests front body trailer = some refusal) : refusal.1 ≠ .committed := by
  unfold checkDigests at h
  split at h
  · cases h
    exact nofun
  split at h <;> cases h
  exact nofun

theorem decodeJournal_fails {bytes : Bytes} {config : PersistenceConfig} {refusal : Refusal}
    (h : decodeJournal bytes config = .error refusal) : refusal.1 ≠ .committed := by
  unfold decodeJournal at h
  dsimp only at h
  split at h
  · cases h
    exact nofun
  split at h
  · cases h
    exact nofun
  split at h
  · rename_i hheader
    cases h
    exact fallible_decodeHeader _ _ hheader
  split at h
  · rename_i hcheck
    cases h
    cases hframe : checkFrame _ config _ with
    | some _ => exact checkFrame_fails (hframe.trans ((hframe ▸ hcheck :)))
    | none =>
      rw [hframe] at hcheck
      exact checkDigests_fails hcheck
  split at h
  · rename_i hbody
    cases h
    exact fallible_decodeBody _ _ _ hbody
  · cases h

end LinkState
