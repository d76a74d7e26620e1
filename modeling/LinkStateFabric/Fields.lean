import LinkStateFabric.Ids
import LinkStateFabric.Lib.Codec

/-!
# Fields of encodings (`persistence.cpp`, `protocol.cpp`)

A journal and a message are made of the same fields: numbers in little endian, a text as its length
in four bytes and its bytes, a list as its count in four bytes and its items. The two decoders read
them by the same steps and differ in what they say of a field that they refuse.

* `textField`, `idField`, …: the readers, over what they say (`FieldErrors`).
* `reads_textField`, …: a field is read exactly where its value may stand in it.
* `takes_textField`, …: a field has one encoding.
* `gives_textField`, …: what a field that is read satisfies.
* `refuses_textField`, …: a field is refused with one of the errors that it was given.
-/

namespace LinkState

open Codec

/-! ## Encodings -/

/-- `append_text`, `Writer::text`. -/
def encodeText (text : Text) : Bytes := leBytes 4 text.length ++ text

def encodeId {tag : IdTag} (id : StrongId tag) : Bytes := encodeText id.value

def encodeGeneration {tag : GenTag} (generation : StrongGeneration tag) : Bytes :=
  leBytes 8 generation.value

/-- `append_u8` of an enumeration. -/
def encodeEnum {α : Type} [ByteEnum α] (value : α) : Bytes := [ByteEnum.toByte value]

def encodeBool (value : Bool) : Bytes := [if value then 1 else 0]

/-- A vector: its size, and its items. -/
def encodeList {α : Type} (encode : α → Bytes) (items : List α) : Bytes :=
  leBytes 4 items.length ++ items.flatMap encode

/-- Bytes that are no text. -/
def encodeBlob (bytes : Bytes) : Bytes := leBytes 4 bytes.length ++ bytes

/-! ## Readers -/

/-- What a decoder says of a text or an identifier that it refuses. -/
structure FieldErrors (ε : Type) where
  truncated : ε
  tooLong : ε
  malformed : Text → ε
  missing : ε
  badIdentifier : Text → ε

variable {ε α : Type}

/-- `Reader::text`. -/
def textField (errors : FieldErrors ε) (maxLength : Nat) : Reader ε Text := do
  let length ← number errors.truncated 4
  check (length ≤ maxLength) errors.tooLong
  let text ← take errors.truncated length
  match validateText text maxLength with
  | some error => fail (errors.malformed error)
  | none => pure text

/-- `Reader::blob`. -/
def blobField (truncated tooLong : ε) (maxLength : Nat) : Reader ε Bytes := do
  let length ← number truncated 4
  check (length ≤ maxLength) tooLong
  take truncated length

/-- `read_id`. -/
def idField {tag : IdTag} (errors : FieldErrors ε) (allowEmpty : Bool) :
    Reader ε (StrongId tag) := do
  let text ← textField errors limits.maxIdentifierLength
  if text.isEmpty then
    if allowEmpty then pure .null else fail errors.missing
  else match validateIdentifier text with
    | .ok => pure (.fromValidated text)
    | bad => fail (errors.badIdentifier bad.text)

/-- `read_generation`. -/
def generationField {tag : GenTag} (truncated : ε) : Reader ε (StrongGeneration tag) := do
  let value ← number truncated 8
  pure (.fromValue value)

/-- A `std::uint64_t`. -/
def u64Field (truncated : ε) : Reader ε U64 := do
  let value ← number truncated 8
  pure (Fin.ofNat _ value)

/-- `Reader::u8`. -/
def byteField (truncated : ε) : Reader ε UInt8 := do
  let bytes ← take truncated 1
  pure (bytes.headD 0)

/-- `read_enum`. -/
def enumField [ByteEnum α] (truncated invalid : ε) : Reader ε α := do
  let value ← byteField truncated
  match ByteEnum.ofByte value with
  | some a => pure a
  | none => fail invalid

/-- `read_bool`. -/
def boolField (truncated invalid : ε) : Reader ε Bool := do
  let value ← byteField truncated
  check (value.toNat ≤ 1) invalid
  pure (value = 1)

/-- A count that must not exceed a maximum, and as many items. -/
def listField (truncated : ε) (maximum : Nat) (tooMany : ε) (r : List α → Reader ε α) :
    Reader ε (List α) := do
  let count ← number truncated 4
  check (count ≤ maximum) tooMany
  many r [] count

/-! ## Texts -/

/-- Text of printable ASCII characters is well formed. -/
theorem validateText_of_printable {text : Text} {maxLength : Nat} (hlength : text.length ≤ maxLength)
    (h : ∀ ch ∈ text, 0x20 ≤ ch.toNat ∧ ch.toNat < 0x7f) : validateText text maxLength = none := by
  have hutf8 (text : Text) (fuel : Nat) (hfuel : text.length ≤ fuel)
      (h : ∀ ch ∈ text, 0x20 ≤ ch.toNat ∧ ch.toNat < 0x7f) : utf8Loop fuel text = true := by
    induction fuel generalizing text with
    | zero =>
      rw [List.length_eq_zero_iff.mp (Nat.le_zero.mp hfuel)]
      rfl
    | succ fuel ih =>
      cases text with
      | nil => rfl
      | cons ch text =>
        have hch := h ch List.mem_cons_self
        unfold utf8Loop
        rw [if_pos (by omega)]
        exact ih text (by simpa using hfuel) fun c hc => h c (List.mem_cons_of_mem _ hc)
  unfold validateText
  rw [if_neg (by omega), isValidUtf8, hutf8 text _ le_rfl h, if_neg (by decide), if_neg]
  rw [List.any_eq_true]
  rintro ⟨ch, hch, hbad⟩
  have := h ch hch
  simp only [Bool.or_eq_true, decide_eq_true_eq] at hbad
  omega

theorem printable_of_scan {text : Text} (h : scanIdentifier text = .ok) :
    ∀ ch ∈ text, 0x20 < ch.toNat ∧ ch.toNat < 0x7f := by
  induction text with
  | nil => simp
  | cons c text ih =>
    unfold scanIdentifier at h
    split at h
    · cases h
    rename_i hc
    split at h
    · cases h
    intro ch hch
    rcases List.mem_cons.mp hch with rfl | hch
    · simp only [isAlphanumeric, isSeparator, Bool.and_eq_true, Bool.not_eq_true',
        Bool.or_eq_false_iff, Bool.and_eq_false_iff, decide_eq_false_iff_not] at hc
      simp only [ascii, Char.reduceToNat] at hc
      omega
    · exact ih h ch hch

namespace StrongId

variable {tag : IdTag} (id : StrongId tag)

/-- The characters of an identifier are printable, and none is a space. -/
theorem printable : ∀ ch ∈ id.value, 0x20 < ch.toNat ∧ ch.toNat < 0x7f := by
  rcases id.encoded with h | h
  · simp [h]
  · unfold validateIdentifier at h
    split at h
    · split at h
      · cases h
      split at h
      · rename_i hscan
        exact printable_of_scan hscan
      · rename_i hscan
        rw [h] at hscan
        exact absurd rfl hscan
    · cases h

theorem length_le : id.value.length ≤ limits.maxIdentifierLength := by
  rcases id.encoded with h | h
  · simp [h]
  · unfold validateIdentifier at h
    split at h
    · split at h
      · cases h
      · omega
    · cases h

theorem validateText_value : validateText id.value limits.maxIdentifierLength = none :=
  validateText_of_printable id.length_le fun ch hch => by
    have := id.printable ch hch
    omega

end StrongId

/-! ## Short encodings -/

theorem encodeId_pos {tag : IdTag} (id : StrongId tag) : 0 < (encodeId id).length := by
  simp [encodeId, encodeText]

/-- A list whose encoding is short has few items, and each is short. -/
theorem short_of_encodeList {α : Type} {enc : α → Bytes} {xs : List α}
    (hpos : ∀ x ∈ xs, 0 < (enc x).length) (h : (encodeList enc xs).length < 2 ^ 32) :
    xs.length < 2 ^ 32 ∧ ∀ x ∈ xs, (enc x).length < 2 ^ 32 := by
  rw [encodeList, List.length_append] at h
  refine ⟨lt_of_le_of_lt (card_le_flatMap hpos) (by omega), fun x hx => ?_⟩
  exact lt_of_le_of_lt (length_le_flatMap hx) (by omega)

/-! ## Fields are read back -/

section Reads

variable {truncated invalid : ε}

theorem reads_textField (errors : FieldErrors ε) {text : Text} (maxLength : Nat)
    (h : text.length < 2 ^ 32) :
    Reads (textField errors maxLength) (encodeText text) (validateText text maxLength = none)
      text := by
  have hlast : Reads (match validateText text maxLength with
      | some error => (fail (errors.malformed error) : Reader ε Text)
      | none => pure text) [] (validateText text maxLength = none) text := by
    split
    · rename_i herror
      exact (Reads.fail text).conv rfl (by simp [herror]) fun h => h.elim
    · rename_i hok
      exact (Reads.pure text).conv rfl (by simp [hok]) fun _ => rfl
  have hmod : text.length % 256 ^ 4 = text.length := Nat.mod_eq_of_lt (by omega)
  refine ((Reads.number 4 text.length).bind fun _ => Reads.check.bind fun _ =>
    (Reads.take text hmod).bind fun _ => hlast).conv ?_ ?_ fun _ => rfl
  · simp [encodeText]
  · simp only [hmod, true_and]
    exact ⟨fun h => ⟨validateText_length h, h⟩, fun h => h.2⟩

theorem reads_blobField {tooLong : ε} {bytes : Bytes} (maxLength : Nat)
    (h : bytes.length < 2 ^ 32) :
    Reads (blobField truncated tooLong maxLength) (encodeBlob bytes) (bytes.length ≤ maxLength)
      bytes := by
  have hmod : bytes.length % 256 ^ 4 = bytes.length := Nat.mod_eq_of_lt (by omega)
  refine ((Reads.number 4 bytes.length).bind fun _ => Reads.check.bind fun _ =>
    Reads.take bytes hmod).conv ?_ ?_ fun _ => rfl
  · simp [encodeBlob]
  · rw [hmod]; simp

theorem reads_idField {tag : IdTag} (errors : FieldErrors ε) (allowEmpty : Bool)
    (id : StrongId tag) :
    Reads (idField errors allowEmpty) (encodeId id) (allowEmpty = true ∨ id.valid = true) id := by
  have hshort : id.value.length < 2 ^ 32 := lt_of_le_of_lt id.length_le (by decide)
  refine ((reads_textField errors limits.maxIdentifierLength hshort).finish fun _ => ?_).conv rfl
    (by rw [and_iff_right id.validateText_value]) fun _ => rfl
  cases hvalid : id.valid with
  | true =>
    have hne : id.value.isEmpty = false := by simpa [StrongId.valid] using hvalid
    rw [if_neg (by simp [hne]), StrongId.validateIdentifier_value hvalid]
    dsimp only
    rw [StrongId.fromValidated_value]
    exact (Reads.pure id).conv rfl (by simp) fun _ => rfl
  | false =>
    obtain rfl := StrongId.valid_eq_false_iff.mp hvalid
    cases allowEmpty
    · exact (Reads.fail StrongId.null).conv rfl (by simp) fun h => h.elim
    · exact (Reads.pure StrongId.null).conv rfl (by simp) fun _ => rfl

theorem reads_generationField {tag : GenTag} (generation : StrongGeneration tag) :
    Reads (generationField truncated) (encodeGeneration generation) True generation := by
  refine Reads.conv (Reads.finish (Reads.number 8 generation.value) fun _ => Reads.pure _) rfl
    (by simp) fun _ => ?_
  rw [Nat.mod_eq_of_lt (lt_of_lt_of_eq generation.bounded (by decide)),
    StrongGeneration.fromValue_value]

theorem reads_u64Field (value : U64) : Reads (u64Field truncated) (leBytes 8 value) True value := by
  refine Reads.conv (Reads.finish (Reads.number 8 value.val) fun _ => Reads.pure _) rfl
    (by simp) fun _ => ?_
  ext
  rw [Fin.val_ofNat, Nat.mod_mod_of_dvd _ (by decide), Nat.mod_eq_of_lt value.isLt]

theorem reads_byteField (byte : UInt8) : Reads (byteField truncated) [byte] True byte :=
  Reads.conv (Reads.finish (Reads.take [byte] rfl) fun _ => Reads.pure _) rfl (by simp) fun _ => rfl

theorem reads_enumField [ByteEnum α] (value : α) :
    Reads (enumField truncated invalid) (encodeEnum value) True value := by
  have hlast : Reads (match ByteEnum.ofByte (ByteEnum.toByte value) with
      | some a => (pure a : Reader ε α)
      | none => fail invalid) [] True value := by
    rw [ByteEnum.ofByte_toByte]
    exact Reads.pure value
  exact ((reads_byteField (ByteEnum.toByte value)).finish fun _ => hlast).conv rfl
    (by simp) fun _ => rfl

theorem reads_boolField (value : Bool) :
    Reads (boolField truncated invalid) (encodeBool value) True value := by
  refine Reads.conv (Reads.finish (reads_byteField (if value then 1 else 0)) fun _ =>
    Reads.finish Reads.check fun _ => Reads.pure _) rfl ?_ ?_
  · cases value <;> simp
  · cases value <;> simp

/-- A list is read item by item, if its count is not cut off. -/
theorem reads_listField {maximum : Nat} {tooMany : ε} {r : List α → Reader ε α}
    {enc : α → Bytes} {ok : List α → α → Prop} {xs : List α} (hcount : xs.length < 2 ^ 32)
    (h : ∀ pre, ∀ x ∈ xs, Reads (r pre) (enc x) (ok pre x) x) :
    Reads (listField truncated maximum tooMany r) (encodeList enc xs)
      (xs.length ≤ maximum ∧ ∀ pre x post, xs = pre ++ x :: post → ok pre x) xs := by
  have hmod : xs.length % 256 ^ 4 = xs.length := Nat.mod_eq_of_lt (by omega)
  have hitems : Reads (many r [] (xs.length % 256 ^ 4)) (xs.flatMap enc)
      (∀ pre x post, xs = pre ++ x :: post → ok ([] ++ pre) x) ([] ++ xs) := by
    rw [hmod]
    exact Reads.many xs [] h
  refine ((Reads.number 4 xs.length).bind fun _ => Reads.check.bind fun _ => hitems).conv ?_ ?_
    fun _ => rfl
  · simp [encodeList]
  · rw [hmod]; simp

/-- A list whose items are read independently. -/
theorem reads_listFieldEach {maximum : Nat} {tooMany : ε} {r : Reader ε α} {enc : α → Bytes}
    {ok : α → Prop} {xs : List α} (hcount : xs.length < 2 ^ 32)
    (h : ∀ x ∈ xs, Reads r (enc x) (ok x) x) :
    Reads (listField truncated maximum tooMany fun _ => r) (encodeList enc xs)
      (xs.length ≤ maximum ∧ ∀ x ∈ xs, ok x) xs := by
  refine Reads.conv (reads_listField hcount fun _ x hx => h x hx) rfl ?_ fun _ => rfl
  refine and_congr_right fun _ => ⟨fun hall pre x post heq => hall x (by simp [heq]), ?_⟩
  intro hall x hx
  obtain ⟨pre, post, heq⟩ := List.append_of_mem hx
  exact hall pre x post heq

end Reads

/-! ## Fields have one encoding -/

section Takes

variable {truncated invalid : ε}

theorem takes_textField (errors : FieldErrors ε) {maxLength : Nat} :
    Takes [] (textField errors maxLength) encodeText := by
  refine takes_number.bind fun length => .check fun _ => takes_take.bind_of gives_take
    fun text hlength => ?_
  split
  · exact takes_fail
  · exact takes_pure (by rw [encodeText, hlength]; rfl)

theorem takes_blobField {tooLong : ε} {maxLength : Nat} :
    Takes [] (blobField truncated tooLong maxLength) encodeBlob := by
  refine takes_number.bind fun length => .check fun _ => ?_
  rw [← bind_pure (take truncated length)]
  exact takes_take.bind_of gives_take fun bytes hlength =>
    takes_pure (by rw [encodeBlob, hlength]; rfl)

theorem takes_idField {tag : IdTag} (errors : FieldErrors ε) {allowEmpty : Bool} :
    Takes [] (@idField ε tag errors allowEmpty) encodeId := by
  refine (takes_textField errors).bind fun text => ?_
  split
  · rename_i hempty
    obtain rfl := List.isEmpty_iff.mp hempty
    split
    · exact takes_pure rfl
    · exact takes_fail
  split
  · rename_i hvalid
    refine takes_pure ?_
    rw [StrongId.fromValidated, dif_pos hvalid]
    rfl
  · exact takes_fail

theorem takes_generationField {tag : GenTag} :
    Takes [] (@generationField ε tag truncated) encodeGeneration := by
  refine takes_number.bind_of gives_number fun value hvalue => takes_pure ?_
  have hmod : value % 2 ^ 64 = value := Nat.mod_eq_of_lt (lt_of_lt_of_eq hvalue (by decide))
  exact congrArg (leBytes 8) hmod.symm

theorem takes_u64Field : Takes [] (u64Field truncated) fun value => leBytes 8 value := by
  refine takes_number.bind_of gives_number fun value hvalue => takes_pure ?_
  rw [Fin.val_ofNat, Nat.mod_eq_of_lt (lt_of_lt_of_eq hvalue (by decide))]
  rfl

theorem takes_byteField : Takes [] (byteField truncated) fun byte => [byte] := by
  refine takes_take.bind_of gives_take fun bytes hlength => takes_pure ?_
  obtain ⟨byte, rfl⟩ := List.length_eq_one_iff.mp hlength
  rfl

theorem takes_enumField [ByteEnum α] :
    Takes [] (enumField (α := α) truncated invalid) encodeEnum := by
  refine takes_byteField.bind fun byte => ?_
  split
  · rename_i a ha
    exact takes_pure (by rw [encodeEnum, ByteEnum.toByte_ofByte _ _ ha]; rfl)
  · exact takes_fail

theorem takes_boolField : Takes [] (boolField truncated invalid) encodeBool := by
  refine takes_byteField.bind fun byte => .check fun hbyte => takes_pure ?_
  have hcases : byte = 0 ∨ byte = 1 := by
    rcases Nat.le_one_iff_eq_zero_or_eq_one.mp hbyte with h | h
    · exact .inl (UInt8.toNat_inj.mp h)
    · exact .inr (UInt8.toNat_inj.mp h)
  rcases hcases with rfl | rfl <;> rfl

theorem takes_listField {maximum : Nat} {tooMany : ε} {r : List α → Reader ε α} {enc : α → Bytes}
    (h : ∀ pre, Takes [] (r pre) enc) :
    Takes [] (listField truncated maximum tooMany r) (encodeList enc) := by
  refine takes_number.bind fun count => .check fun _ => ?_
  rw [← bind_pure (many r [] count)]
  exact (takes_many h count).bind_of gives_many_length fun xs hlength =>
    takes_pure (by rw [encodeList, hlength]; rfl)

end Takes

/-! ## What a field that is read satisfies -/

section Gives

variable {truncated : ε}

theorem gives_textField (errors : FieldErrors ε) (maxLength : Nat) :
    Gives (textField errors maxLength) fun text => validateText text maxLength = none := by
  refine (gives_true _).bind fun length _ => (gives_true _).bind fun _ _ =>
    (gives_true _).bind fun text _ => ?_
  split
  · exact gives_fail
  · rename_i hvalid
    exact gives_pure hvalid

theorem gives_blobField {tooLong : ε} (maxLength : Nat) :
    Gives (blobField truncated tooLong maxLength) fun bytes => bytes.length ≤ maxLength :=
  (gives_true _).bind fun _ _ => gives_check.bind fun _ hlength => gives_take.mono fun _ h =>
    h.trans_le hlength

/-- A required identifier is valid. -/
theorem gives_idField {tag : IdTag} (errors : FieldErrors ε) :
    Gives (idField errors false) fun id : StrongId tag => id.valid = true := by
  refine (gives_true _).bind fun text _ => ?_
  split
  · exact gives_fail
  rename_i hempty
  split
  · rename_i hvalid
    refine gives_pure ?_
    rw [StrongId.fromValidated, dif_pos hvalid, StrongId.valid_iff]
    simpa using hempty
  · exact gives_fail

/-- Each item of a list is what the reader gives behind those before it. -/
theorem gives_listField {maximum : Nat} {tooMany : ε} {r : List α → Reader ε α}
    {P : List α → α → Prop} (h : ∀ pre, Gives (r pre) (P pre)) :
    Gives (listField truncated maximum tooMany r) fun xs =>
      xs.length ≤ maximum ∧ ∀ pre x post, xs = pre ++ x :: post → P pre x := by
  refine (gives_true _).bind fun count _ => gives_check.bind fun _ hcount =>
    (gives_many h [] count).mono ?_
  rintro _ ⟨xs, rfl, rfl, hall⟩
  exact ⟨hcount, hall⟩

end Gives

/-! ## What a field is refused with -/

/-- The condition holds of whatever is said of a text or an identifier. -/
structure FieldErrors.All (errors : FieldErrors ε) (P : ε → Prop) : Prop where
  truncated : P errors.truncated
  tooLong : P errors.tooLong
  malformed : ∀ text, P (errors.malformed text)
  missing : P errors.missing
  badIdentifier : ∀ text, P (errors.badIdentifier text)

section Refuses

variable {truncated invalid : ε} {P : ε → Prop}

theorem refuses_textField {errors : FieldErrors ε} (h : errors.All P) (maxLength : Nat) :
    Refuses (textField errors maxLength) P := by
  refine (refuses_number h.truncated).bind fun length => (refuses_check h.tooLong).bind fun _ =>
    (refuses_take h.truncated).bind fun text => ?_
  split
  · exact refuses_fail (h.malformed _)
  · exact refuses_pure

theorem refuses_blobField {tooLong : ε} (h : P truncated) (hlong : P tooLong) (maxLength : Nat) :
    Refuses (blobField truncated tooLong maxLength) P :=
  (refuses_number h).bind fun _ => (refuses_check hlong).bind fun _ => refuses_take h

theorem refuses_idField {tag : IdTag} {errors : FieldErrors ε} (h : errors.All P)
    {allowEmpty : Bool} : Refuses (@idField ε tag errors allowEmpty) P := by
  refine (refuses_textField h _).bind fun text => ?_
  split
  · split
    · exact refuses_pure
    · exact refuses_fail h.missing
  · split
    · exact refuses_pure
    · exact refuses_fail (h.badIdentifier _)

theorem refuses_generationField {tag : GenTag} (h : P truncated) :
    Refuses (@generationField ε tag truncated) P := (refuses_number h).bind fun _ => refuses_pure

theorem refuses_u64Field (h : P truncated) : Refuses (u64Field truncated) P :=
  (refuses_number h).bind fun _ => refuses_pure

theorem refuses_byteField (h : P truncated) : Refuses (byteField truncated) P :=
  (refuses_take h).bind fun _ => refuses_pure

theorem refuses_enumField [ByteEnum α] (h : P truncated) (hinvalid : P invalid) :
    Refuses (enumField (α := α) truncated invalid) P := by
  refine (refuses_byteField h).bind fun value => ?_
  split
  · exact refuses_pure
  · exact refuses_fail hinvalid

theorem refuses_boolField (h : P truncated) (hinvalid : P invalid) :
    Refuses (boolField truncated invalid) P :=
  (refuses_byteField h).bind fun _ => (refuses_check hinvalid).bind fun _ => refuses_pure

theorem refuses_listField {maximum : Nat} {tooMany : ε} {r : List α → Reader ε α} (h : P truncated)
    (hmany : P tooMany) (hr : ∀ pre, Refuses (r pre) P) :
    Refuses (listField truncated maximum tooMany r) P :=
  (refuses_number h).bind fun count => (refuses_check hmany).bind fun _ => refuses_many hr [] count

end Refuses

end LinkState
