import LinkStateFabric.Lib.Codec

/-!
# Text (`src/text.cpp`)

A `std::string` is its bytes. `lit` gives the bytes of a literal. Free text that callers supply
(details, reasons) is checked by `validateText`; identifiers have their own check
(`LinkStateFabric/Ids.lean`).
-/

namespace LinkState

/-- The bytes of a `std::string`. -/
abbrev Text := Bytes

instance Text.lawfulBEq : LawfulBEq Text := inferInstance

/-- The bytes of a string literal. -/
def lit (s : String) : Text := s.toUTF8.data.toList

/-- `format_u64`: the decimal digits. -/
def formatU64 (value : Nat) : Text := (Nat.toDigits 10 value).map Char.toUInt8

theorem toNat_toUInt8_of_isDigit {c : Char} (h : c.isDigit = true) :
    c.toUInt8.toNat = c.toNat ∧ 48 ≤ c.toNat ∧ c.toNat ≤ 57 := by
  simp only [Char.isDigit, Bool.and_eq_true, decide_eq_true_eq, ge_iff_le,
    UInt32.le_iff_toNat_le] at h
  have hbyte : c.toUInt8.toNat = c.toNat % 256 := UInt32.toNat_toUInt8 c.val
  have hlow : 48 ≤ c.toNat := h.1
  have hhigh : c.toNat ≤ 57 := h.2
  omega

theorem digit_of_mem_formatU64 {value : Nat} {ch : UInt8} (h : ch ∈ formatU64 value) :
    48 ≤ ch.toNat ∧ ch.toNat ≤ 57 := by
  obtain ⟨c, hc, rfl⟩ := List.mem_map.mp h
  obtain ⟨heq, hdigit⟩ :=
    toNat_toUInt8_of_isDigit (Nat.isDigit_of_mem_toDigits (by decide) (by decide) hc)
  rwa [heq]

theorem length_formatU64_le {value : Nat} (h : value < 2 ^ 64) : (formatU64 value).length ≤ 20 := by
  rw [formatU64, List.length_map, Nat.length_toDigits_le_iff (by decide) (by decide)]
  exact h.trans (by decide)

theorem formatU64_ne_nil (value : Nat) : formatU64 value ≠ [] := by
  simp [formatU64]

/-- The digits can be read back. -/
theorem formatU64_injective : Function.Injective formatU64 := by
  have hback (value : Nat) :
      (formatU64 value).map (fun ch => Char.ofNat ch.toNat) = Nat.toDigits 10 value := by
    rw [formatU64, List.map_map]
    refine (List.map_congr_left fun c hc => ?_).trans (List.map_id _)
    have heq := (toNat_toUInt8_of_isDigit
      (Nat.isDigit_of_mem_toDigits (by decide) (by decide) hc)).1
    rw [Function.comp, heq]
    exact Char.ofNat_toNat c
  intro a b h
  have hdigits : Nat.toDigits 10 a = Nat.toDigits 10 b := by rw [← hback a, h, hback]
  simpa using congrArg (fun digits => Nat.ofDigitChars 10 digits 0) hdigits

/-- What a lead byte above `0x7f` announces: the number of continuation bytes, the bits it carries
itself, and the smallest code point that needs this length. -/
def utf8Lead (byte : UInt8) : Option (Nat × Nat × Nat) :=
  let b := byte.toNat
  if 0xc0 ≤ b ∧ b < 0xe0 then some (1, b % 0x20, 0x80)
  else if 0xe0 ≤ b ∧ b < 0xf0 then some (2, b % 0x10, 0x800)
  else if 0xf0 ≤ b ∧ b < 0xf8 then some (3, b % 0x08, 0x10000)
  else none

/-- The code point of a sequence whose lead byte carries `codePoint`; `none` at a byte that is not
a continuation. -/
def utf8Continue : Nat → Text → Option Nat
  | codePoint, [] => some codePoint
  | codePoint, byte :: rest =>
    if byte.toNat / 0x40 = 2 then utf8Continue (codePoint * 0x40 + byte.toNat % 0x40) rest else none

/-- The loop of `is_valid_utf8`. Each turn takes at least one byte, so as much fuel as there are
bytes is enough. -/
def utf8Loop : Nat → Text → Bool
  | _, [] => true
  | 0, _ :: _ => false
  | fuel + 1, byte :: rest =>
    if byte.toNat < 0x80 then utf8Loop fuel rest
    else match utf8Lead byte with
      | none => false
      | some (extra, bits, minimum) =>
        if rest.length < extra then false
        else match utf8Continue bits (rest.take extra) with
          | none => false
          | some codePoint =>
            if codePoint < minimum then false
            else if 0x10ffff < codePoint then false
            else if 0xd800 ≤ codePoint ∧ codePoint ≤ 0xdfff then false
            else utf8Loop fuel (rest.drop extra)

/-- `is_valid_utf8`. -/
def isValidUtf8 (text : Text) : Bool := utf8Loop text.length text

/-- `validate_text`: `none`, or the reason the text is refused. -/
def validateText (text : Text) (maxLength : Nat) : Option Text :=
  if maxLength < text.length then some (lit "text exceeds maximum length " ++ formatU64 maxLength)
  else if !isValidUtf8 text then some (lit "text is not well formed UTF-8")
  else if text.any (fun ch => ch.toNat < 0x20 || ch.toNat = 0x7f) then
    some (lit "text contains a control character")
  else none

theorem validateText_length {text : Text} {maxLength : Nat} (h : validateText text maxLength = none) :
    text.length ≤ maxLength := by
  unfold validateText at h
  split at h
  · cases h
  · omega

end LinkState
