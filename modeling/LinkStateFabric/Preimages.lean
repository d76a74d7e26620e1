import LinkStateFabric.Journal.Encode
import LinkStateFabric.Lib.Delimited

/-!
# What the digests are taken of (`evidence.cpp`, `record.cpp`)

A digest is computed by feeding a hasher field by field. What is fed is one byte string, and its
fields are written as those of an encoding are.

* `EvidenceRecord.preimage`, `LinkStateRecord.preimage`: the bytes that `compute_digest` and
  `digest_record` feed.
* `evidencePreimage`, `recordsPreimage`: the bytes that `digest_evidence_set` and `digest_records`
  feed.
* `determines_id`, …: the fields of these byte strings can be told from one another.
-/

namespace LinkState

open Codec

/-! ## Feeding a hasher -/

namespace Hasher

variable (bytes : Bytes)

theorem update_update (more : Bytes) :
    (new.update bytes).update more = new.update (bytes ++ more) :=
  update_append new bytes more (by decide)

theorem updateText_update (text : Text) :
    (new.update bytes).updateText text = new.update (bytes ++ encodeText text) := by
  rw [updateText, updateU32, update_update, update_update, List.append_assoc]
  rfl

theorem updateU32_update (value : Nat) :
    (new.update bytes).updateU32 value = new.update (bytes ++ leBytes 4 value) :=
  update_update bytes _

theorem updateU64_update (value : Nat) :
    (new.update bytes).updateU64 value = new.update (bytes ++ leBytes 8 value) := by
  have hlow : leBytes 4 (value % 2 ^ 32) ++ leBytes 4 (value / 2 ^ 32 % 2 ^ 32) =
      leBytes 8 value := by
    simp only [leBytes, List.cons_append, List.nil_append, List.cons.injEq, and_true]
    simp only [← UInt8.toNat_inj, UInt8.toNat_ofNat']
    omega
  rw [updateU64, updateU32, updateU32, update_update, update_update, List.append_assoc, hlow]

theorem updateEnum_update {α : Type} [ByteEnum α] (value : α) :
    (new.update bytes).updateEnum value = new.update (bytes ++ encodeEnum value) :=
  update_update bytes _

theorem updateBool_update (value : Bool) :
    (new.update bytes).updateBool value = new.update (bytes ++ encodeBool value) :=
  update_update bytes _

/-- Items that are fed one after the other. -/
theorem foldl_update {α : Type} {feed : Hasher → α → Hasher} {enc : α → Bytes}
    (h : ∀ bytes a, feed (new.update bytes) a = new.update (bytes ++ enc a)) (items : List α) :
    items.foldl feed (new.update bytes) = new.update (bytes ++ items.flatMap enc) := by
  induction items generalizing bytes with
  | nil => rw [List.foldl_nil, List.flatMap_nil, List.append_nil]
  | cons a items ih => rw [List.foldl_cons, h, ih, List.flatMap_cons, List.append_assoc]

theorem foldl_members (members : List LinkId) :
    members.foldl (fun hasher member => hasher.updateText member.value) (new.update bytes) =
      new.update (bytes ++ members.flatMap encodeId) :=
  foldl_update bytes (fun bytes member => updateText_update bytes member.value) members

theorem foldl_backing (links : List BackingReference) :
    links.foldl (fun hasher backing =>
        (hasher.updateText backing.link.value).updateU64 backing.generation.value)
        (new.update bytes) =
      new.update (bytes ++ links.flatMap encodeBacking) := by
  refine foldl_update bytes (fun bytes backing => ?_) links
  rw [updateText_update, updateU64_update, List.append_assoc]
  rfl

end Hasher

/-! ## Preimages -/

/-- What `compute_digest` feeds. -/
def EvidenceRecord.preimage (record : EvidenceRecord) : Bytes :=
  encodeId record.key.link ++ encodeId record.key.source ++ encodeId record.key.endpoint ++
    encodeEnum record.key.direction ++ encodeEnum record.key.kind ++
    encodeId record.observation ++ encodeId record.publisher ++ encodeId record.workerBoot ++
    encodeGeneration record.epoch ++ encodeGeneration record.sourceGeneration ++
    leBytes 8 record.sequence ++ encodeGeneration record.topologyGeneration ++
    encodeGeneration record.endpointGeneration ++ encodeEnum record.evidenceClass ++
    encodeEnum record.claim ++ encodeEnum record.degradationCause ++ encodeText record.detail ++
    encodeBlob record.metadata

theorem EvidenceRecord.computeDigest_eq (record : EvidenceRecord) :
    record.computeDigest = sha256 record.preimage := by
  have hnew : Hasher.new = Hasher.new.update [] := rfl
  rw [computeDigest, hnew]
  simp only [Hasher.updateText_update, Hasher.updateU64_update, Hasher.updateEnum_update,
    Hasher.updateU32_update, Hasher.update_update, List.nil_append]
  simp only [sha256, preimage, encodeId, encodeGeneration, encodeBlob, List.append_assoc]

/-- What `digest_evidence_set` feeds. -/
def evidencePreimage (records : List EvidenceRecord) : Bytes :=
  encodeList (fun record => record.computeDigest.bytes) (Sorting.sortBy digestLess records)

theorem digestEvidenceSet_eq (records : List EvidenceRecord) :
    digestEvidenceSet records = sha256 (evidencePreimage records) := by
  have hnew : Hasher.new = Hasher.new.update [] := rfl
  rw [digestEvidenceSet, hnew]
  rw [Hasher.updateU32_update, Hasher.foldl_update _ fun bytes record =>
    Hasher.update_update bytes record.computeDigest.bytes]
  rfl

/-- What is fed before the lists of the binding. -/
def LinkStateRecord.preimageFront (record : LinkStateRecord) : Bytes :=
  let binding := record.binding
  encodeId binding.link ++ encodeId binding.fabric ++ encodeId binding.site ++
    encodeGeneration binding.topologyGeneration ++ encodeEnum binding.linkClass ++
    encodeEnum binding.symmetry ++ encodeId binding.endpoints.localEndpoint ++
    encodeGeneration binding.endpoints.localGeneration ++ encodeId binding.endpoints.remote ++
    encodeGeneration binding.endpoints.remoteGeneration

/-- What is fed after the lists of the binding. -/
def LinkStateRecord.preimageBack (record : LinkStateRecord) : Bytes :=
  encodeEnum record.state ++ encodeEnum record.resultClass ++ encodeEnum record.degradationCause ++
    encodeGeneration record.stateGeneration ++ encodeGeneration record.evidenceGeneration ++
    encodeIntent record.adminIntent ++ record.provenanceDigest.bytes

/-- What `digest_record` feeds. -/
def LinkStateRecord.preimage (record : LinkStateRecord) : Bytes :=
  record.preimageFront ++ (encodeList encodeId record.binding.memberLinks ++
    (encodeList encodeBacking record.binding.backingLinks ++ record.preimageBack))

theorem digestRecord_eq (record : LinkStateRecord) :
    digestRecord record = sha256 record.preimage := by
  have hnew : Hasher.new = Hasher.new.update [] := rfl
  rw [digestRecord, hnew, LinkStateRecord.preimage, LinkStateRecord.preimageFront,
    LinkStateRecord.preimageBack, sha256]
  cases record.adminIntent <;>
    simp only [Hasher.updateText_update, Hasher.updateU64_update, Hasher.updateEnum_update,
      Hasher.updateU32_update, Hasher.updateBool_update, Hasher.foldl_members, Hasher.foldl_backing,
      Hasher.update_update, List.nil_append, List.append_assoc, encodeList, encodeId,
      encodeGeneration, encodeIntent, Option.isSome_none, Option.isSome_some]

/-- What `digest_records` feeds. -/
def recordsPreimage (records : List LinkStateRecord) : Bytes :=
  encodeList (fun record => (digestRecord record).bytes)
    (Sorting.sortBy (fun lhs rhs => lhs.binding.link < rhs.binding.link) records)

theorem digestRecords_eq (records : List LinkStateRecord) :
    digestRecords records = sha256 (recordsPreimage records) := by
  have hnew : Hasher.new = Hasher.new.update [] := rfl
  rw [digestRecords, hnew]
  rw [Hasher.updateU32_update, Hasher.foldl_update _ fun bytes record =>
    Hasher.update_update bytes (digestRecord record).bytes]
  rfl

/-! ## Fields that can be told from one another -/

section Determined

variable {tag : IdTag} {α : Type}

/-- A reader of a digest has nothing to say of what it refuses. -/
private def silent : FieldErrors Unit := ⟨(), (), fun _ => (), (), fun _ => ()⟩

theorem determines_id : Determines (fun _ => True) (@encodeId tag) id :=
  determines_of_reads fun id _ => (reads_idField silent true id).accept (.inl rfl)

theorem determines_generation {tag : GenTag} :
    Determines (fun _ => True) (@encodeGeneration tag) id :=
  determines_of_reads fun generation _ =>
    (show Reads (generationField ()) (encodeGeneration generation) True generation from
      reads_generationField generation).accept trivial

theorem determines_u64 : Determines (fun _ => True) (fun value : U64 => leBytes 8 value) id :=
  determines_of_reads fun value _ =>
    (show Reads (u64Field ()) (leBytes 8 value) True value from reads_u64Field value).accept trivial

theorem determines_enum [ByteEnum α] : Determines (fun _ => True) (@encodeEnum α _) id :=
  determines_of_reads fun value _ =>
    (show Reads (enumField () ()) (encodeEnum value) True value from reads_enumField value).accept
      trivial

theorem determines_blob : Determines (·.length < 2 ^ 32) encodeBlob id :=
  determines_of_reads fun bytes h =>
    (show Reads (blobField () () (2 ^ 32)) (encodeBlob bytes) (bytes.length ≤ 2 ^ 32) bytes from
      reads_blobField (2 ^ 32) h).accept h.le

theorem determines_text : Determines (·.length < 2 ^ 32) encodeText id := determines_blob

theorem determines_backing : Determines (fun _ => True) encodeBacking id := by
  have h := (determines_id.field BackingReference.link).append
    (determines_generation.field BackingReference.generation)
  exact h.conv (fun _ _ => ⟨trivial, trivial⟩) fun a b => by cases a; cases b; simp

theorem determines_intent : Determines (fun _ => True) encodeIntent id := by
  have hfields := (determines_enum.field AdministrativeIntent.state).append
    (determines_enum.field AdministrativeIntent.cause)
    |>.append (determines_id.field AdministrativeIntent.publication)
    |>.append (determines_id.field AdministrativeIntent.publisher)
    |>.append (determines_generation.field AdministrativeIntent.generation)
  have hbody : Determines (fun _ => True) _ id :=
    hfields.conv (by simp) fun a b => by cases a; cases b; simp; tauto
  intro a b _ _ s t
  cases a with
  | none => cases b <;> simp [encodeIntent, encodeBool]
  | some i =>
    cases b with
    | none => simp [encodeIntent, encodeBool]
    | some j =>
      have := hbody i j trivial trivial s t
      simp only [List.append_assoc] at this
      simp [encodeIntent, encodeBool, this]

theorem determines_digest : Determines (fun _ => True) Digest.bytes id :=
  (determines_bytes Digest.size).conv (fun _ _ => trivial) fun a b => by cases a; cases b; simp

end Determined

/-! ## Evidence -/

/-- The texts of a record are within the limits that the engine and the decoder enforce. -/
structure EvidenceRecord.Limited (record : EvidenceRecord) : Prop where
  detail : record.detail.length ≤ limits.maxDetailLength
  metadata : record.metadata.length ≤ limits.maxEvidenceMetadataBytes

/-- The bytes that are hashed cover the fields that `operator==` compares, and no others. -/
theorem EvidenceRecord.preimage_eq_iff {a b : EvidenceRecord} (ha : a.Limited) (hb : b.Limited) :
    a.preimage = b.preimage ↔ a.same b = true := by
  have hshort (record : EvidenceRecord) (h : record.Limited) :
      record.detail.length < 2 ^ 32 ∧ record.metadata.length < 2 ^ 32 :=
    ⟨lt_of_le_of_lt h.detail (by decide), lt_of_le_of_lt h.metadata (by decide)⟩
  -- Field by field in the order of digest_record.
  have hfields := (determines_id.field fun r : EvidenceRecord => r.key.link)
    |>.append (determines_id.field fun r => r.key.source)
    |>.append (determines_id.field fun r => r.key.endpoint)
    |>.append (determines_enum.field fun r => r.key.direction)
    |>.append (determines_enum.field fun r => r.key.kind)
    |>.append (determines_id.field EvidenceRecord.observation)
    |>.append (determines_id.field EvidenceRecord.publisher)
    |>.append (determines_id.field EvidenceRecord.workerBoot)
    |>.append (determines_generation.field EvidenceRecord.epoch)
    |>.append (determines_generation.field EvidenceRecord.sourceGeneration)
    |>.append (determines_u64.field EvidenceRecord.sequence)
    |>.append (determines_generation.field EvidenceRecord.topologyGeneration)
    |>.append (determines_generation.field EvidenceRecord.endpointGeneration)
    |>.append (determines_enum.field EvidenceRecord.evidenceClass)
    |>.append (determines_enum.field EvidenceRecord.claim)
    |>.append (determines_enum.field EvidenceRecord.degradationCause)
    |>.append (determines_text.field EvidenceRecord.detail)
    |>.append (determines_blob.field EvidenceRecord.metadata)
  refine (hfields.eq_iff (by simpa using hshort a ha) (by simpa using hshort b hb)).trans ?_
  have hkey : a.key = b.key ↔ a.key.link = b.key.link ∧ a.key.source = b.key.source ∧
      a.key.endpoint = b.key.endpoint ∧ a.key.direction = b.key.direction ∧
      a.key.kind = b.key.kind := by
    cases a.key
    cases b.key
    simp
  simp only [same, Bool.and_eq_true, decide_eq_true_eq, hkey, Prod.mk.injEq, id, and_assoc]

/-! ## Lists -/

/-- Of two lists in the same place, the shorter is the front of the longer. As their count is
stored in 32 bits, they may differ by a multiple of what it counts to. -/
theorem encodeList_front {α : Type} {ok : α → Prop} {enc : α → Bytes} (h : Determines ok enc id)
    {xs ys : List α} {s t : Bytes} (hxs : ∀ x ∈ xs, ok x) (hys : ∀ y ∈ ys, ok y)
    (hle : xs.length ≤ ys.length) (heq : encodeList enc xs ++ s = encodeList enc ys ++ t) :
    ∃ zs, ys = xs ++ zs ∧ s = zs.flatMap enc ++ t ∧ (zs ≠ [] → 2 ^ 32 ≤ zs.length) := by
  rw [encodeList, encodeList, List.append_assoc, List.append_assoc] at heq
  obtain ⟨hcount, heq⟩ := List.append_inj heq (by simp)
  obtain ⟨zs, rfl, hs⟩ := h.flatMap hxs hys hle heq
  refine ⟨zs, rfl, hs, fun hne => ?_⟩
  have hmod := congrArg leValue hcount
  rw [leValue_leBytes, leValue_leBytes, List.length_append] at hmod
  have hpos := List.length_pos_iff.mpr hne
  omega

/-- What follows a list of at most 2^32 bytes leaves no room for items that are not counted. -/
theorem encodeList_inj {α : Type} {ok : α → Prop} {enc : α → Bytes} (h : Determines ok enc id)
    (hpos : ∀ a, 0 < (enc a).length) {xs ys : List α} {s t : Bytes} (hxs : ∀ x ∈ xs, ok x)
    (hys : ∀ y ∈ ys, ok y) (hs : s.length < 2 ^ 32) (ht : t.length < 2 ^ 32) :
    encodeList enc xs ++ s = encodeList enc ys ++ t ↔ xs = ys ∧ s = t := by
  have hfront {xs ys : List α} {s t : Bytes} (hxs : ∀ x ∈ xs, ok x) (hys : ∀ y ∈ ys, ok y)
      (hs : s.length < 2 ^ 32) (hle : xs.length ≤ ys.length)
      (heq : encodeList enc xs ++ s = encodeList enc ys ++ t) : xs = ys ∧ s = t := by
    obtain ⟨zs, rfl, rfl, hmany⟩ := encodeList_front h hxs hys hle heq
    have hcard : zs.length ≤ (zs.flatMap enc).length := card_le_flatMap fun z _ => hpos z
    cases zs with
    | nil => simp
    | cons z zs =>
      have := hmany (by simp)
      simp only [List.length_append] at hs
      omega
  constructor
  · intro heq
    rcases le_total xs.length ys.length with hle | hle
    · exact hfront hxs hys hs hle heq
    · obtain ⟨rfl, rfl⟩ := hfront hys hxs ht hle heq.symm
      exact ⟨rfl, rfl⟩
  · rintro ⟨rfl, rfl⟩
    rfl

/-! ## Link state records -/

/-- Members that are counted in full, or that are identifiers as a binding has them. -/
def FramedMembers (members : List LinkId) : Prop :=
  2 ^ 32 ≤ members.length → ∀ member ∈ members, member.valid = true

/-- A list of references does not start as two members do: its first length would be more than
that of an identifier. -/
theorem encodeBacking_ne_members {z w : LinkId} (hz : z.valid = true) (hw : w.valid = true)
    (links : List BackingReference) (s t : Bytes) :
    encodeList encodeBacking links ++ s ≠ encodeId z ++ (encodeId w ++ t) := by
  intro heq
  have hlength {id : LinkId} (h : id.valid = true) : 0 < id.value.length := by
    simpa [StrongId.valid, List.length_pos_iff] using h
  have hwle : w.value.length ≤ 128 := w.length_le
  have hzle : z.value.length ≤ 128 := z.length_le
  simp only [encodeList, encodeId, encodeText, List.append_assoc] at heq
  obtain ⟨hcount, heq⟩ := List.append_inj heq (by simp)
  have hcount := congrArg leValue hcount
  rw [leValue_leBytes, leValue_leBytes] at hcount
  cases links with
  | nil =>
    have := hlength hz
    simp only [List.length_nil] at hcount
    omega
  | cons backing links =>
    -- The second byte: that of a length on one side, that of a text or of a length on the other.
    have hsecond := congrArg (·[1]?) heq
    have hle : backing.link.value.length ≤ 128 := backing.link.length_le
    have hzero : backing.link.value.length / 256 = 0 := by omega
    simp only [List.flatMap_cons, encodeBacking, encodeId, encodeText, leBytes, hzero,
      List.cons_append, List.getElem?_cons_succ, List.getElem?_cons_zero] at hsecond
    have hprintable := z.printable
    rcases hvalue : z.value with _ | ⟨c, _ | ⟨d, cs⟩⟩
    · have := hlength hz
      rw [hvalue] at this
      simp at this
    · rw [hvalue] at hsecond
      simp only [List.cons_append, List.nil_append, List.getElem?_cons_succ,
        List.getElem?_cons_zero, Option.some.injEq] at hsecond
      have := congrArg UInt8.toNat hsecond
      rw [UInt8.toNat_ofNat', UInt8.toNat_ofNat'] at this
      have := hlength hw
      omega
    · rw [hvalue] at hsecond hprintable
      simp only [List.cons_append, List.getElem?_cons_succ, List.getElem?_cons_zero,
        Option.some.injEq] at hsecond
      have := hprintable d (by simp)
      rw [← hsecond] at this
      simp at this

/-- The members of a bundle can be told from the references that follow them. -/
theorem encodeMembers_inj {ms ms' : List LinkId} {links links' : List BackingReference}
    {s t : Bytes} (hms : FramedMembers ms) (hms' : FramedMembers ms') :
    encodeList encodeId ms ++ (encodeList encodeBacking links ++ s) =
        encodeList encodeId ms' ++ (encodeList encodeBacking links' ++ t) ↔
      ms = ms' ∧ encodeList encodeBacking links ++ s = encodeList encodeBacking links' ++ t := by
  have hfront {ms ms' : List LinkId} {links links' : List BackingReference} {s t : Bytes}
      (hms' : FramedMembers ms') (hle : ms.length ≤ ms'.length)
      (heq : encodeList encodeId ms ++ (encodeList encodeBacking links ++ s) =
        encodeList encodeId ms' ++ (encodeList encodeBacking links' ++ t)) :
      ms = ms' ∧ encodeList encodeBacking links ++ s = encodeList encodeBacking links' ++ t := by
    obtain ⟨zs, rfl, hs, hmany⟩ := encodeList_front determines_id (fun _ _ => trivial)
      (fun _ _ => trivial) hle heq
    rcases zs with _ | ⟨z, _ | ⟨w, zs⟩⟩
    · exact ⟨(List.append_nil ms).symm, hs⟩
    · exact absurd (hmany (by simp)) (by simp)
    · have hvalid := hms' (by
        have := hmany (by simp)
        rw [List.length_append]
        omega)
      simp only [List.flatMap_cons, List.append_assoc] at hs
      exact absurd hs (encodeBacking_ne_members (hvalid z (by simp)) (hvalid w (by simp)) _ _ _)
  constructor
  · intro heq
    rcases le_total ms.length ms'.length with hle | hle
    · exact hfront hms' hle heq
    · obtain ⟨rfl, h⟩ := hfront hms hle heq.symm
      exact ⟨rfl, h.symm⟩
  · rintro ⟨rfl, h⟩
    rw [h]

namespace LinkStateRecord

/-- A record with its authoritative fields only: the binding, the state, its class and its cause, the
generations of the state and the evidence, the administrative intent and the digest of the
evidence. -/
def authoritative (record : LinkStateRecord) : LinkStateRecord where
  binding := record.binding
  state := record.state
  resultClass := record.resultClass
  degradationCause := record.degradationCause
  stateGeneration := record.stateGeneration
  evidenceGeneration := record.evidenceGeneration
  adminIntent := record.adminIntent
  provenanceDigest := record.provenanceDigest

/-- The devices and ports of a link. -/
def places (record : LinkStateRecord) : (DeviceId × PortId) × (DeviceId × PortId) :=
  let endpoints := record.binding.endpoints
  ((endpoints.localDevice, endpoints.localPort), (endpoints.remoteDevice, endpoints.remotePort))

/-- The authoritative fields but for the devices and ports. -/
def placeless (record : LinkStateRecord) : LinkStateRecord :=
  { record.authoritative with
    binding.endpoints.localDevice := .null, binding.endpoints.localPort := .null
    binding.endpoints.remoteDevice := .null, binding.endpoints.remotePort := .null }

theorem authoritative_eq_iff {a b : LinkStateRecord} :
    a.authoritative = b.authoritative ↔ a.placeless = b.placeless ∧ a.places = b.places := by
  simp only [placeless, places, authoritative, mk.injEq, Prod.mk.injEq]
  cases a.binding with | mk fabric site link topologyGeneration endpoints
  cases b.binding with | mk fabric' site' link' topologyGeneration' endpoints'
  cases endpoints
  cases endpoints'
  simp
  tauto

theorem length_preimageBack_lt (record : LinkStateRecord) : record.preimageBack.length < 2 ^ 32 := by
  have hintent : (encodeIntent record.adminIntent).length < 300 := by
    cases record.adminIntent with
    | none => simp [encodeIntent, encodeBool]
    | some intent =>
      have hpublication : intent.publication.value.length ≤ 128 := intent.publication.length_le
      have hpublisher : intent.publisher.value.length ≤ 128 := intent.publisher.length_le
      simp [encodeIntent, encodeBool, encodeEnum, encodeId, encodeText, encodeGeneration]
      omega
  simp [preimageBack, encodeEnum, encodeGeneration, record.provenanceDigest.size]
  omega

/-- The bytes that are hashed cover every authoritative field but the devices and ports. -/
theorem preimage_eq_iff {a b : LinkStateRecord} (ha : FramedMembers a.binding.memberLinks)
    (hb : FramedMembers b.binding.memberLinks) : a.preimage = b.preimage ↔ a.placeless = b.placeless := by
  have hfront := (determines_id.field fun r : LinkStateRecord => r.binding.link)
    |>.append (determines_id.field fun r => r.binding.fabric)
    |>.append (determines_id.field fun r => r.binding.site)
    |>.append (determines_generation.field fun r => r.binding.topologyGeneration)
    |>.append (determines_enum.field fun r => r.binding.linkClass)
    |>.append (determines_enum.field fun r => r.binding.symmetry)
    |>.append (determines_id.field fun r => r.binding.endpoints.localEndpoint)
    |>.append (determines_generation.field fun r => r.binding.endpoints.localGeneration)
    |>.append (determines_id.field fun r => r.binding.endpoints.remote)
    |>.append (determines_generation.field fun r => r.binding.endpoints.remoteGeneration)
  have hback := (determines_enum.field LinkStateRecord.state)
    |>.append (determines_enum.field LinkStateRecord.resultClass)
    |>.append (determines_enum.field LinkStateRecord.degradationCause)
    |>.append (determines_generation.field LinkStateRecord.stateGeneration)
    |>.append (determines_generation.field LinkStateRecord.evidenceGeneration)
    |>.append (determines_intent.field LinkStateRecord.adminIntent)
    |>.append (determines_digest.field LinkStateRecord.provenanceDigest)
  have hbacking (backing : BackingReference) : 0 < (encodeBacking backing).length := by
    simp [encodeBacking, encodeGeneration]
  -- The two lists stand in the middle, where each is to be told from what follows it.
  calc a.preimage = b.preimage
      ↔ a.preimageFront ++ (encodeList encodeId a.binding.memberLinks ++
          (encodeList encodeBacking a.binding.backingLinks ++ a.preimageBack)) =
        b.preimageFront ++ (encodeList encodeId b.binding.memberLinks ++
          (encodeList encodeBacking b.binding.backingLinks ++ b.preimageBack)) := Iff.rfl
    _ ↔ _ ∧ a.binding.memberLinks = b.binding.memberLinks ∧
        a.binding.backingLinks = b.binding.backingLinks ∧ _ :=
      (hfront a b (by simp) (by simp) _ _).trans <| and_congr_right' <|
        (encodeMembers_inj ha hb).trans <| and_congr_right' <|
        (encodeList_inj determines_backing hbacking (fun _ _ => trivial) (fun _ _ => trivial)
          a.length_preimageBack_lt b.length_preimageBack_lt).trans <| and_congr_right' <|
        hback.eq_iff (by simp) (by simp)
    _ ↔ a.placeless = b.placeless := by
      simp only [placeless, authoritative, mk.injEq, Prod.mk.injEq, id, TopologyBinding.mk.injEq,
        EndpointBinding.mk.injEq]
      tauto

end LinkStateRecord

end LinkState
