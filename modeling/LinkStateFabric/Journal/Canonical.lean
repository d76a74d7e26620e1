import LinkStateFabric.Journal.RoundTrip

/-!
# The encoding that a record is decoded from

* `takes_decodeX`: whatever bytes a reader of the journal takes a value from, they are its encoding.
  So no field of a record can be stored in two ways.

* `gives_decodeLink_intact`: a decoded link is intact.

The readers do not check the flags of the header, and a link is stored with its history or without.
What `decodeLink` takes is the encoding with the history.
-/

namespace LinkState

open Codec

/-! ## Fields -/

/-- A text has one encoding. -/
theorem takes_readText {maxLength : Nat} : Takes [] (readText maxLength) encodeText :=
  takes_textField journalErrors

theorem takes_readBlob {maxLength : Nat} : Takes [] (readBlob maxLength) encodeBlob :=
  takes_blobField

theorem takes_readDigest : Takes [] readDigest fun digest => digest.bytes := by
  refine takes_take.bind fun bytes => ?_
  split
  · exact takes_pure rfl
  · exact takes_fail

/-- An identifier has one encoding, the empty one being the null identifier. -/
theorem takes_readId {tag : IdTag} {allowEmpty : Bool} :
    Takes [] (@readId tag allowEmpty) encodeId :=
  takes_idField journalErrors

theorem takes_readGeneration {tag : GenTag} :
    Takes [] (@readGeneration tag) encodeGeneration :=
  takes_generationField

theorem takes_readU64 : Takes [] readU64 fun value => leBytes 8 value := takes_u64Field

/-- The byte of an enumeration is that of its value. -/
theorem takes_readEnum {α : Type} [ByteEnum α] {field : Text} :
    Takes [] (readEnum (α := α) field) encodeEnum :=
  takes_enumField

/-- No byte but 0 and 1 is taken for a truth value. -/
theorem takes_readBool {field : Text} : Takes [] (readBool field) encodeBool := takes_boolField

/-- The count of a list is that of its items. -/
theorem takes_readList {α : Type} {maximum : Nat} {tooMany : Text}
    {r : List α → JournalReader α} {enc : α → Bytes} (h : ∀ before, Takes [] (r before) enc) :
    Takes [] (readList maximum tooMany r) (encodeList enc) :=
  takes_listField h

/-! ## Records -/

/-- The parts of a key, as `encode_evidence` writes them. -/
def encodeKey (key : EvidenceKey) : Bytes :=
  encodeId key.link ++ encodeId key.source ++ encodeId key.endpoint ++ encodeEnum key.direction ++
    encodeEnum key.kind

theorem takes_decodeKey : Takes [] decodeKey encodeKey :=
  takes_readId.bind fun _ => takes_readId.bind fun _ => takes_readId.bind fun _ =>
    takes_readEnum.bind fun _ => takes_readEnum.bind fun _ => takes_pure rfl

/-- The digest of a record is stored, and checked. -/
theorem takes_decodeEvidence : Takes [] decodeEvidence encodeEvidence :=
  takes_decodeKey.bind fun _ => takes_readId.bind fun _ => takes_readId.bind fun _ =>
    takes_readId.bind fun _ => takes_readGeneration.bind fun _ => takes_readGeneration.bind fun _ =>
    takes_readU64.bind fun _ => takes_readGeneration.bind fun _ =>
    takes_readGeneration.bind fun _ => takes_readEnum.bind fun _ => takes_readEnum.bind fun _ =>
    takes_readEnum.bind fun _ => takes_readU64.bind fun _ => takes_readText.bind fun _ =>
    takes_readBlob.bind fun _ => takes_readEnum.bind fun _ => takes_readGeneration.bind fun _ =>
    takes_readGeneration.bind fun _ => takes_readDigest.bind fun _ => .check fun _ => takes_pure <| by
      unfold encodeEvidence encodeKey encodeText encodeBlob
      simp only [List.append_assoc, List.nil_append]

theorem takes_decodeEndpoints : Takes [] decodeEndpoints encodeEndpoints :=
  takes_readId.bind fun _ => takes_readGeneration.bind fun _ => takes_readId.bind fun _ =>
    takes_readId.bind fun _ => takes_readId.bind fun _ => takes_readGeneration.bind fun _ =>
    takes_readId.bind fun _ => takes_readId.bind fun _ => takes_pure rfl

theorem takes_decodeBacking : Takes [] decodeBacking encodeBacking :=
  takes_readId.bind fun _ => takes_readGeneration.bind fun _ => takes_pure rfl

theorem takes_decodeBinding : Takes [] decodeBinding encodeBinding :=
  takes_readId.bind fun _ => takes_readId.bind fun _ => takes_readId.bind fun _ =>
    takes_readGeneration.bind fun _ => takes_readEnum.bind fun _ => takes_readEnum.bind fun _ =>
    takes_decodeEndpoints.bind fun _ => (takes_readList fun _ => takes_readId).bind fun _ =>
    (takes_readList fun _ => takes_decodeBacking).bind fun _ => takes_pure rfl

/-- An intent is written behind a byte that says that there is one. -/
theorem takes_decodeIntent : Takes [] decodeIntent encodeIntent := by
  refine takes_readBool.bind fun hasIntent => ?_
  cases hasIntent with
  | false => exact takes_pure rfl
  | true =>
    have hbody : Takes [] decodeIntentBody fun intent => encodeEnum intent.state ++
        encodeEnum intent.cause ++ encodeId intent.publication ++ encodeId intent.publisher ++
        encodeGeneration intent.generation :=
      takes_readEnum.bind fun _ => takes_readEnum.bind fun _ => takes_readId.bind fun _ =>
        takes_readId.bind fun _ => takes_readGeneration.bind fun _ => takes_pure rfl
    refine hbody.map fun intent => ?_
    simp only [encodeIntent, List.append_assoc, List.nil_append]

theorem takes_decodeHistoryEntry : Takes [] decodeHistoryEntry encodeHistoryEntry :=
  takes_readGeneration.bind fun _ => takes_readEnum.bind fun _ => takes_readEnum.bind fun _ =>
    takes_readEnum.bind fun _ => takes_readEnum.bind fun _ => takes_readEnum.bind fun _ =>
    takes_readId.bind fun _ => takes_readId.bind fun _ => takes_readGeneration.bind fun _ =>
    takes_readGeneration.bind fun _ => takes_readEnum.bind fun _ => takes_pure rfl

/-- The checks against the other evidence of the link take no bytes. -/
theorem takes_decodeEvidenceOf (link : LinkId) (before : List EvidenceRecord) :
    Takes [] (decodeEvidenceOf link before) encodeEvidence :=
  takes_decodeEvidence.bind fun _ => .check fun _ => .check fun _ => takes_pure <| List.nil_append _

theorem takes_decodeRecord : Takes [] decodeRecord encodeRecord :=
  takes_readId.bind fun _ => takes_decodeBinding.bind fun _ => takes_readEnum.bind fun _ =>
    takes_readEnum.bind fun _ => takes_readEnum.bind fun _ => takes_readGeneration.bind fun _ =>
    takes_readGeneration.bind fun _ => takes_readGeneration.bind fun _ => takes_readId.bind fun _ =>
    takes_readId.bind fun _ => takes_readId.bind fun _ => takes_readEnum.bind fun _ =>
    takes_readBool.bind fun _ => takes_readBool.bind fun _ => takes_decodeIntent.bind fun _ =>
    takes_readDigest.bind fun _ => takes_pure rfl

/-- The history is not encoded with the record. -/
theorem encodeRecord_history (record : LinkStateRecord) (history : List StateHistoryEntry) :
    encodeRecord { record with history } = encodeRecord record := rfl

/-- What is taken for a link is its encoding with the history. -/
theorem takes_decodeLink : Takes [] decodeLink (encodeLink true) :=
  takes_decodeRecord.bind fun record =>
    (takes_readList fun _ => takes_decodeHistoryEntry).bind fun history =>
    (takes_readList fun before => takes_decodeEvidenceOf _ before).bind fun _ => takes_pure <| by
      rw [encodeLink_eq (.inl rfl), encodeRecord_history record history, List.nil_append]

theorem takes_decodeFence : Takes [] decodeFence encodeFence :=
  takes_readId.bind fun _ => takes_readId.bind fun _ => takes_readGeneration.bind fun _ =>
    takes_readText.bind fun _ => takes_pure rfl

/-! ## What the readers of a link give -/

/-- A record of evidence that is read satisfies what the decoder requires of it. -/
theorem gives_decodeEvidence : Gives decodeEvidence EvidenceRecord.Decoded := by
  have hkey : Gives decodeKey fun key => key.link.valid = true ∧ key.source.valid = true :=
    gives_readId.bind fun _ hlink => gives_readId.bind fun _ hsource =>
      (gives_true _).bind fun _ _ => (gives_true _).bind fun _ _ => (gives_true _).bind fun _ _ =>
        gives_pure ⟨hlink, hsource⟩
  refine hkey.bind fun _ hkey => gives_readId.bind fun _ hobservation =>
    gives_readId.bind fun _ hpublisher => gives_readId.bind fun _ hboot => ?_
  refine (gives_true _).bind fun _ _ => (gives_true _).bind fun _ _ => (gives_true _).bind fun _ _ => ?_
  refine (gives_true _).bind fun _ _ => (gives_true _).bind fun _ _ => (gives_true _).bind fun _ _ => ?_
  refine (gives_true _).bind fun _ _ => (gives_true _).bind fun _ _ => (gives_true _).bind fun _ _ => ?_
  refine (gives_readText _).bind fun _ hdetail =>
    (gives_blobField _).bind fun _ hmetadata => ?_
  refine (gives_true _).bind fun _ _ => (gives_true _).bind fun _ _ => (gives_true _).bind fun _ _ => ?_
  refine (gives_true _).bind fun _ _ => gives_check.bind fun _ hdigest => gives_pure ?_
  exact ⟨hkey.1, hkey.2, hobservation, hpublisher, hboot, hdetail, hmetadata, hdigest⟩

/-- A link that is read is intact: its evidence is its own, and no key is there twice. -/
theorem gives_decodeLink_intact : Gives decodeLink PersistedLink.Intact := by
  have hevidence (link : LinkId) (before : List EvidenceRecord) :
      Gives (decodeEvidenceOf link before) fun record => record.Decoded ∧ record.key.link = link ∧
        record.key.text ∉ before.map (·.key.text) :=
    gives_decodeEvidence.bind fun _ hdecoded => gives_check.bind fun _ hlink =>
      gives_check.bind fun _ hnew => gives_pure ⟨hdecoded, hlink, hnew⟩
  refine gives_decodeRecord.bind fun record hrecord =>
    (gives_readList (gives_true decodeHistoryEntry)).bind fun history hhistory =>
      (gives_listField (hevidence record.binding.link)).bind fun evidence hevidence =>
        gives_pure ?_
  refine ⟨⟨hrecord.record_valid, hrecord.link, hrecord.localEndpoint, hrecord.members,
    hrecord.backing, hrecord.intent⟩, hhistory.1, hevidence.1, fun r hr => ?_,
    nodup_map_iff_prefix.mpr fun pre r post heq => (hevidence.2 pre r post heq).2.2⟩
  obtain ⟨pre, post, heq⟩ := List.append_of_mem hr
  exact ⟨(hevidence.2 pre r post heq).1, (hevidence.2 pre r post heq).2.1⟩

end LinkState
