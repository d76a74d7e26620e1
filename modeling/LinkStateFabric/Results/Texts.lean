import LinkStateFabric.Text

/-!
# What `is_valid_utf8` accepts (`text.cpp`)

A `Char` is a Unicode scalar value: at most U+10FFFF, and not a surrogate. `String.utf8EncodeChar`
gives the bytes of RFC 3629 for it.

* `utf8Lead_iff`, `utf8Continue_cons_iff`: what a lead byte and a continuation carry.
* `utf8Loop_encode`: a turn of the loop takes an encoded character.
* `encode_of_utf8Loop`: what a turn takes is an encoded character.
* `isValidUtf8_iff`: so a byte string is accepted exactly if it is a concatenation of encoded
  characters. An overlong form, a truncated one and a stray continuation are none.
-/

namespace LinkState

/-! ## The bytes of a sequence -/

/-- The three kinds of lead bytes, with the bits that they carry. -/
theorem utf8Lead_iff {byte : UInt8} {extra bits minimum : Nat} :
    utf8Lead byte = some (extra, bits, minimum) ↔
      (extra = 1 ∧ minimum = 0x80 ∧ bits < 0x20 ∧ byte.toNat = bits + 0xc0) ∨
      (extra = 2 ∧ minimum = 0x800 ∧ bits < 0x10 ∧ byte.toNat = bits + 0xe0) ∨
      (extra = 3 ∧ minimum = 0x10000 ∧ bits < 0x08 ∧ byte.toNat = bits + 0xf0) := by
  have hbyte := byte.toNat_lt
  unfold utf8Lead
  dsimp only
  split
  · simp only [Option.some.injEq, Prod.mk.injEq]
    omega
  split
  · simp only [Option.some.injEq, Prod.mk.injEq]
    omega
  split
  · simp only [Option.some.injEq, Prod.mk.injEq]
    omega
  · simp only [reduceCtorEq, false_iff]
    omega

theorem utf8Continue_cons_iff {byte : UInt8} {before codePoint : Nat} {rest : Text} :
    utf8Continue before (byte :: rest) = some codePoint ↔ ∃ bits < 0x40,
      byte.toNat = bits + 0x80 ∧ utf8Continue (before * 0x40 + bits) rest = some codePoint := by
  rw [utf8Continue]
  split
  · rename_i hbyte
    refine ⟨fun h => ⟨byte.toNat % 0x40, by omega, by omega, h⟩, ?_⟩
    rintro ⟨bits, hbits, hsum, h⟩
    rwa [show byte.toNat % 0x40 = bits by omega]
  · rename_i hbyte
    refine ⟨nofun, ?_⟩
    rintro ⟨bits, hbits, hsum, -⟩
    omega

/-! ## A turn of the loop -/

/-- A turn takes a lead byte and the continuations that it announces. -/
theorem utf8Loop_turn {byte : UInt8} {bits minimum codePoint : Nat} {cs : Text} (fuel : Nat)
    (tail : Text) (hlead : utf8Lead byte = some (cs.length, bits, minimum))
    (hcontinue : utf8Continue bits cs = some codePoint) (hmin : minimum ≤ codePoint)
    (hvalid : codePoint.isValidChar) :
    utf8Loop (fuel + 1) (byte :: (cs ++ tail)) = utf8Loop fuel tail := by
  have hrange : codePoint ≤ 0x10ffff ∧ ¬ (0xd800 ≤ codePoint ∧ codePoint ≤ 0xdfff) := by
    rcases hvalid with h | h <;> omega
  have hbyte : ¬ byte.toNat < 0x80 := by
    rcases utf8Lead_iff.mp hlead with h | h | h <;> omega
  rw [utf8Loop, if_neg hbyte, hlead]
  dsimp only
  rw [if_neg (by simp), List.take_left' rfl, List.drop_left' rfl, hcontinue]
  dsimp only
  rw [if_neg (by omega), if_neg (by omega), if_neg hrange.2]

theorem toNat_ofNat_of_lt {n : Nat} (h : n < 256) : (UInt8.ofNat n).toNat = n :=
  UInt8.toNat_ofNat_of_lt' h

/-- A continuation of an encoding adds the six bits that it is made of. -/
theorem utf8Continue_ofNat {before n : Nat} (rest : Text) (h : before * 0x40 + n % 0x40 = n) :
    utf8Continue before (UInt8.ofNat (n % 0x40 + 0x80) :: rest) = utf8Continue n rest := by
  rw [utf8Continue, toNat_ofNat_of_lt (by omega), if_pos (by omega)]
  congr 1
  omega

/-- An encoded character is taken in one turn. -/
theorem utf8Loop_encode (c : Char) (fuel : Nat) (tail : Text) :
    utf8Loop (fuel + 1) (String.utf8EncodeChar c ++ tail) = utf8Loop fuel tail := by
  have hvalid : c.val.toNat.isValidChar := c.valid
  have hbound : c.val.toNat < 0x110000 := by rcases hvalid with h | h <;> omega
  unfold String.utf8EncodeChar
  dsimp only
  generalize c.val.toNat = v at hvalid hbound
  split
  · rw [List.singleton_append, utf8Loop, if_pos (by rw [toNat_ofNat_of_lt] <;> omega)]
  split
  · refine @utf8Loop_turn _ (v / 64) 0x80 v [_] fuel tail ?_ ?_ (by omega) hvalid
    · rw [utf8Lead_iff, toNat_ofNat_of_lt (by omega)]
      exact .inl ⟨rfl, rfl, by omega, by omega⟩
    · rw [utf8Continue_ofNat _ (by omega), utf8Continue]
  split
  · refine @utf8Loop_turn _ (v / 4096) 0x800 v [_, _] fuel tail ?_ ?_ (by omega) hvalid
    · rw [utf8Lead_iff, toNat_ofNat_of_lt (by omega)]
      exact .inr (.inl ⟨rfl, rfl, by omega, by omega⟩)
    · rw [utf8Continue_ofNat _ (by omega), utf8Continue_ofNat _ (by omega), utf8Continue]
  · refine @utf8Loop_turn _ (v / 262144) 0x10000 v [_, _, _] fuel tail ?_ ?_ (by omega) hvalid
    · rw [utf8Lead_iff, toNat_ofNat_of_lt (by omega)]
      exact .inr (.inr ⟨rfl, rfl, by omega, by omega⟩)
    · rw [utf8Continue_ofNat _ (by omega), utf8Continue_ofNat _ (by omega),
        utf8Continue_ofNat _ (by omega), utf8Continue]

/-- A sequence that a turn takes is the encoding of its code point. -/
theorem utf8EncodeChar_of_sequence {byte : UInt8} {bits minimum : Nat} {cs : Text} {c : Char}
    (hlead : utf8Lead byte = some (cs.length, bits, minimum))
    (hcontinue : utf8Continue bits cs = some c.val.toNat) (hmin : minimum ≤ c.val.toNat) :
    String.utf8EncodeChar c = byte :: cs := by
  have heq {b : UInt8} {n : Nat} (h : b.toNat = n) : UInt8.ofNat n = b := by
    rw [← h, UInt8.ofNat_toNat]
  unfold String.utf8EncodeChar
  dsimp only
  generalize c.val.toNat = v at hcontinue hmin
  obtain ⟨hlength, rfl, hbits, hbyte⟩ | ⟨hlength, rfl, hbits, hbyte⟩ |
    ⟨hlength, rfl, hbits, hbyte⟩ := utf8Lead_iff.mp hlead
  · obtain ⟨b₁, rfl⟩ := List.length_eq_one_iff.mp hlength
    obtain ⟨x₁, hx₁, hb₁, hv⟩ := utf8Continue_cons_iff.mp hcontinue
    obtain rfl : bits * 0x40 + x₁ = v := Option.some.inj hv
    rw [if_neg (by omega), if_pos (by omega)]
    rw [heq (b := byte) (by omega), heq (b := b₁) (by omega)]
  · obtain ⟨b₁, b₂, rfl⟩ := List.length_eq_two.mp hlength
    obtain ⟨x₁, hx₁, hb₁, hcontinue⟩ := utf8Continue_cons_iff.mp hcontinue
    obtain ⟨x₂, hx₂, hb₂, hv⟩ := utf8Continue_cons_iff.mp hcontinue
    obtain rfl : (bits * 0x40 + x₁) * 0x40 + x₂ = v := Option.some.inj hv
    rw [if_neg (by omega), if_neg (by omega), if_pos (by omega)]
    rw [heq (b := byte) (by omega), heq (b := b₁) (by omega), heq (b := b₂) (by omega)]
  · obtain ⟨b₁, b₂, b₃, rfl⟩ := List.length_eq_three.mp hlength
    obtain ⟨x₁, hx₁, hb₁, hcontinue⟩ := utf8Continue_cons_iff.mp hcontinue
    obtain ⟨x₂, hx₂, hb₂, hcontinue⟩ := utf8Continue_cons_iff.mp hcontinue
    obtain ⟨x₃, hx₃, hb₃, hv⟩ := utf8Continue_cons_iff.mp hcontinue
    obtain rfl : ((bits * 0x40 + x₁) * 0x40 + x₂) * 0x40 + x₃ = v := Option.some.inj hv
    rw [if_neg (by omega), if_neg (by omega), if_neg (by omega)]
    rw [heq (b := byte) (by omega), heq (b := b₁) (by omega), heq (b := b₂) (by omega),
      heq (b := b₃) (by omega)]

/-- What a turn takes is an encoded character. -/
theorem encode_of_utf8Loop {fuel : Nat} {byte : UInt8} {rest : Text}
    (h : utf8Loop (fuel + 1) (byte :: rest) = true) : ∃ (c : Char) (tail : Text),
      byte :: rest = String.utf8EncodeChar c ++ tail ∧ utf8Loop fuel tail = true := by
  rw [utf8Loop] at h
  split at h
  · rename_i hbyte
    obtain ⟨c, hc⟩ : ∃ c : Char, c.val.toNat = byte.toNat :=
      ⟨.ofNatAux byte.toNat (.inl (by omega)), rfl⟩
    refine ⟨c, rest, ?_, h⟩
    unfold String.utf8EncodeChar
    dsimp only
    rw [hc, if_pos (by omega), UInt8.ofNat_toNat, List.singleton_append]
  split at h
  · cases h
  rename_i extra bits minimum hlead
  split at h
  · cases h
  rename_i hlength
  split at h
  · cases h
  rename_i codePoint hcontinue
  iterate 3 (split at h; · cases h)
  rename_i hmin hmax hsurrogate
  obtain ⟨c, hc⟩ : ∃ c : Char, c.val.toNat = codePoint :=
    ⟨.ofNatAux codePoint (by unfold Nat.isValidChar; omega), rfl⟩
  refine ⟨c, rest.drop extra, ?_, h⟩
  have htake : (rest.take extra).length = extra := List.length_take_of_le (by omega)
  rw [← htake] at hlead
  rw [utf8EncodeChar_of_sequence hlead (hcontinue.trans (congrArg some hc.symm)) (by omega),
    List.cons_append, List.take_append_drop]

/-! ## The whole loop -/

/-- As many turns as there are bytes take every character. -/
theorem utf8Loop_flatMap (chars : List Char) {fuel : Nat}
    (hfuel : (chars.flatMap String.utf8EncodeChar).length ≤ fuel) :
    utf8Loop fuel (chars.flatMap String.utf8EncodeChar) = true := by
  induction chars generalizing fuel with
  | nil => cases fuel <;> rfl
  | cons c chars ih =>
    have hpos : 0 < (String.utf8EncodeChar c).length :=
      List.length_pos_iff.mpr String.utf8EncodeChar_ne_nil
    rw [List.flatMap_cons, List.length_append] at hfuel
    obtain ⟨fuel, rfl⟩ : ∃ n, fuel = n + 1 := ⟨fuel - 1, by omega⟩
    rw [List.flatMap_cons, utf8Loop_encode]
    exact ih (by omega)

/-- What the loop takes to its end is a concatenation of encoded characters. -/
theorem flatMap_of_utf8Loop {fuel : Nat} {text : Text} (h : utf8Loop fuel text = true) :
    ∃ chars : List Char, text = chars.flatMap String.utf8EncodeChar := by
  induction fuel generalizing text with
  | zero =>
    cases text with
    | nil => exact ⟨[], rfl⟩
    | cons byte rest => cases h
  | succ fuel ih =>
    cases text with
    | nil => exact ⟨[], rfl⟩
    | cons byte rest =>
      obtain ⟨c, tail, heq, htail⟩ := encode_of_utf8Loop h
      obtain ⟨chars, rfl⟩ := ih htail
      exact ⟨c :: chars, heq⟩

/-- `is_valid_utf8` accepts exactly the concatenations of encoded scalar values. -/
theorem isValidUtf8_iff (text : Text) :
    isValidUtf8 text = true ↔ ∃ chars : List Char, text = chars.flatMap String.utf8EncodeChar := by
  refine ⟨flatMap_of_utf8Loop, ?_⟩
  rintro ⟨chars, rfl⟩
  exact utf8Loop_flatMap chars le_rfl

/-- An overlong slash, a surrogate, a code point above U+10FFFF and a truncated sequence. -/
example : [[0xc0, 0xaf], [0xed, 0xa0, 0x80], [0xf4, 0x90, 0x80, 0x80], [0xe2, 0x82]].all
    (fun text => !isValidUtf8 text) = true := by decide

end LinkState
