import LinkStateFabric.Lib.Codec
import Mathlib.Analysis.SpecialFunctions.Pow.NthRootLemmas
import Mathlib.Data.Nat.Prime.Basic

/-!
# SHA-256, as the secure hash standard (FIPS 180-4) defines it

Messages are strings of bits. The definitions follow the sections of the standard: functions and
constants (4.1.2, 4.2.2), padding and parsing (5.1.1, 5.2.1), the initial hash value (5.3.3), and
the computation (6.2).

* `digest`: the digest of a message, 256 bits.
* `ofBytes`: a message that consists of bytes.
* `pad_ofBytes`, `blockWord_ofBytes`: padding and parsing of such a message, byte by byte.
-/

namespace Fips180

/-- A string of bits. -/
abbrev Bits := List Bool

/-- The `w` low bits of a number, the most significant first. -/
def bitsOf : Nat → Nat → Bits
  | 0, _ => []
  | w + 1, n => n.testBit w :: bitsOf w n

/-- The number that a string of bits stands for, the most significant first. -/
def valueOf (bits : Bits) : Nat := bits.foldl (fun n bit => 2 * n + bit.toNat) 0

/-! ## Functions (4.1.2) -/

def rotr (n x : UInt32) : UInt32 := (x >>> n) ||| (x <<< (32 - n))

def ch (x y z : UInt32) : UInt32 := (x &&& y) ^^^ (~~~x &&& z)

def maj (x y z : UInt32) : UInt32 := (x &&& y) ^^^ (x &&& z) ^^^ (y &&& z)

def bigSigma0 (x : UInt32) : UInt32 := rotr 2 x ^^^ rotr 13 x ^^^ rotr 22 x

def bigSigma1 (x : UInt32) : UInt32 := rotr 6 x ^^^ rotr 11 x ^^^ rotr 25 x

def smallSigma0 (x : UInt32) : UInt32 := rotr 7 x ^^^ rotr 18 x ^^^ (x >>> 3)

def smallSigma1 (x : UInt32) : UInt32 := rotr 17 x ^^^ rotr 19 x ^^^ (x >>> 10)

/-! ## Constants (4.2.2, 5.3.3) -/

/-- The first sixty-four prime numbers. -/
def primes : List Nat := (List.range 312).filter fun n => decide n.Prime

/-- No prime number below eighteen divides the number, unless it is the number. -/
def Undivided (n : Nat) : Prop := 2 ≤ n ∧ ∀ p ∈ [2, 3, 5, 7, 11, 13, 17], p ∣ n → p = n

instance (n : Nat) : Decidable (Undivided n) := inferInstanceAs (Decidable (_ ∧ _))

/-- Trial division. A composite number has a prime divisor that is not above its root. -/
theorem prime_iff_undivided {n : Nat} (h : n < 18 ^ 2) : n.Prime ↔ Undivided n := by
  constructor
  · intro hprime
    refine ⟨hprime.two_le, fun p hp hdvd => (hprime.eq_one_or_self_of_dvd p hdvd).resolve_left ?_⟩
    rintro rfl
    exact absurd hp (by decide)
  · rintro ⟨htwo, hnone⟩
    by_contra hcomposite
    have hsquare : n.minFac ^ 2 ≤ n := Nat.minFac_sq_le_self (by omega) hcomposite
    have hsmall : n.minFac < 18 := lt_of_pow_lt_pow_left₀ 2 (by decide) (hsquare.trans_lt h)
    have hprime : n.minFac.Prime := Nat.minFac_prime (by omega)
    have hlist : ∀ p < 18, p.Prime → p ∈ [2, 3, 5, 7, 11, 13, 17] := by decide +kernel
    have hself := hnone _ (hlist _ hsmall hprime) n.minFac_dvd
    exact hcomposite (hself ▸ hprime)

theorem primes_eq : primes = (List.range 312).filter fun n => decide (Undivided n) := by
  refine List.filter_congr fun n hn => ?_
  have hlt := List.mem_range.mp hn
  rw [decide_eq_decide]
  exact prime_iff_undivided (by omega)

/-- The first thirty-two bits of the fractional part of a root of a number. -/
def rootFraction (degree n : Nat) : UInt32 :=
  UInt32.ofNat (Nat.nthRoot degree (n * 2 ^ (32 * degree)))

/-- The constants `K`: cube roots. -/
def constants : List UInt32 := primes.map (rootFraction 3)

/-- A hash value, or the eight working variables. -/
structure Hash where
  a : UInt32
  b : UInt32
  c : UInt32
  d : UInt32
  e : UInt32
  f : UInt32
  g : UInt32
  h : UInt32
  deriving DecidableEq

/-- The words of a hash value in their order. -/
def Hash.words (v : Hash) : List UInt32 := [v.a, v.b, v.c, v.d, v.e, v.f, v.g, v.h]

/-- The initial hash value: square roots of the first eight primes. -/
def initialHash : Hash :=
  let root (i : Nat) : UInt32 := rootFraction 2 (primes.getD i 0)
  ⟨root 0, root 1, root 2, root 3, root 4, root 5, root 6, root 7⟩

/-! ## Padding and parsing (5.1.1, 5.2.1) -/

theorem exists_zeros (l : Nat) : ∃ k, (l + 1 + k) % 512 = 448 := ⟨959 - l % 512, by omega⟩

/-- The smallest number of zero bits that leaves 64 bits of the last block. -/
def zeros (l : Nat) : Nat := Nat.find (exists_zeros l)

/-- A message with its padding: a one, the zeros, and the length in 64 bits. -/
def pad (message : Bits) : Bits :=
  message ++ (true :: List.replicate (zeros message.length) false) ++ bitsOf 64 message.length

/-- Word `j` of a block of 512 bits. -/
def blockWord (block : Bits) (j : Nat) : UInt32 :=
  UInt32.ofNat (valueOf ((block.drop (32 * j)).take 32))

/-! ## Computation (6.2) -/

/-- The message schedule `W` of a block. -/
def schedule (block : Nat → UInt32) (t : Nat) : UInt32 :=
  if t < 16 then block t
  else smallSigma1 (schedule block (t - 2)) + schedule block (t - 7) +
    smallSigma0 (schedule block (t - 15)) + schedule block (t - 16)
termination_by t

/-- The step `t` of the computation on a block. -/
def blockStep (w : Nat → UInt32) (v : Hash) (t : Nat) : Hash :=
  let t1 := v.h + bigSigma1 v.e + ch v.e v.f v.g + constants.getD t 0 + w t
  let t2 := bigSigma0 v.a + maj v.a v.b v.c
  { h := v.g, g := v.f, f := v.e, e := v.d + t1, d := v.c, c := v.b, b := v.a, a := t1 + t2 }

/-- The intermediate hash value after a block. -/
def hashBlock (hash : Hash) (block : Nat → UInt32) : Hash :=
  let v := (List.range 64).foldl (blockStep (schedule block)) hash
  ⟨v.a + hash.a, v.b + hash.b, v.c + hash.c, v.d + hash.d, v.e + hash.e, v.f + hash.f,
    v.g + hash.g, v.h + hash.h⟩

/-- The hash value after the first `n` blocks of a padded message. -/
def hashBlocks : Nat → Hash → Bits → Hash
  | 0, hash, _ => hash
  | n + 1, hash, padded =>
    hashBlocks n (hashBlock hash (blockWord (padded.take 512))) (padded.drop 512)

/-- The digest of a message. -/
def digest (message : Bits) : Bits :=
  let padded := pad message
  (hashBlocks (padded.length / 512) initialHash padded).words.flatMap fun w => bitsOf 32 w.toNat

/-! ## Bits and numbers -/

@[simp] theorem length_bitsOf (w n : Nat) : (bitsOf w n).length = w := by
  induction w with
  | zero => rfl
  | succ w ih => rw [bitsOf, List.length_cons, ih]

/-- The high bits, then the low bits. -/
theorem bitsOf_add (v w n : Nat) : bitsOf (v + w) n = bitsOf v (n / 2 ^ w) ++ bitsOf w n := by
  induction v with
  | zero => rw [Nat.zero_add, bitsOf, List.nil_append]
  | succ v ih => rw [Nat.add_right_comm, bitsOf, ih, bitsOf, List.cons_append, Nat.testBit_div_two_pow]

/-- Only the low bits matter. -/
theorem bitsOf_mod {w k : Nat} (n : Nat) (h : w ≤ k) : bitsOf w (n % 2 ^ k) = bitsOf w n := by
  induction w with
  | zero => rfl
  | succ w ih =>
    have hbit : (n % 2 ^ k).testBit w = n.testBit w := by
      rw [Nat.testBit_mod_two_pow, decide_eq_true (by omega), Bool.true_and]
    rw [bitsOf, bitsOf, ih (by omega), hbit]

theorem bitsOf_zero (w : Nat) : bitsOf w 0 = List.replicate w false := by
  induction w with
  | zero => rfl
  | succ w ih => rw [bitsOf, ih, Nat.zero_testBit, List.replicate_succ]

theorem foldl_valueOf (n : Nat) (bits : Bits) :
    bits.foldl (fun n bit => 2 * n + bit.toNat) n = n * 2 ^ bits.length + valueOf bits := by
  induction bits generalizing n with
  | nil => simp [valueOf]
  | cons bit bits ih =>
    rw [valueOf, List.foldl_cons, List.foldl_cons, ih, ih (2 * 0 + bit.toNat), List.length_cons]
    ring

theorem valueOf_append (xs ys : Bits) : valueOf (xs ++ ys) = valueOf xs * 2 ^ ys.length + valueOf ys := by
  rw [valueOf, List.foldl_append, foldl_valueOf]
  rfl

theorem valueOf_bitsOf (w n : Nat) : valueOf (bitsOf w n) = n % 2 ^ w := by
  induction w with
  | zero => rw [bitsOf, Nat.pow_zero, Nat.mod_one, valueOf, List.foldl_nil]
  | succ w ih =>
    have hbit : valueOf [n.testBit w] = n / 2 ^ w % 2 := by
      rw [← Nat.toNat_testBit]
      simp [valueOf]
    rw [bitsOf, ← List.singleton_append, valueOf_append, ih, length_bitsOf, hbit, Nat.mod_pow_succ,
      Nat.mul_comm, Nat.add_comm]

/-! ## Messages of bytes -/

/-- The bits of a byte string. -/
def ofBytes (bytes : List UInt8) : Bits := bytes.flatMap fun byte => bitsOf 8 byte.toNat

theorem ofBytes_append (xs ys : List UInt8) : ofBytes (xs ++ ys) = ofBytes xs ++ ofBytes ys :=
  List.flatMap_append

theorem ofBytes_cons (byte : UInt8) (bytes : List UInt8) :
    ofBytes (byte :: bytes) = bitsOf 8 byte.toNat ++ ofBytes bytes := List.flatMap_cons

@[simp] theorem length_ofBytes (bytes : List UInt8) : (ofBytes bytes).length = 8 * bytes.length := by
  induction bytes with
  | nil => rfl
  | cons byte bytes ih =>
    rw [ofBytes_cons, List.length_append, length_bitsOf, ih, List.length_cons]
    omega

theorem take_ofBytes (bytes : List UInt8) {n : Nat} (h : n ≤ bytes.length) :
    (ofBytes bytes).take (8 * n) = ofBytes (bytes.take n) := by
  rw [← List.take_append_drop n bytes, ofBytes_append, List.take_left', List.take_left']
  · exact List.length_take_of_le h
  · rw [length_ofBytes, List.length_take_of_le h]

theorem drop_ofBytes (bytes : List UInt8) {n : Nat} (h : n ≤ bytes.length) :
    (ofBytes bytes).drop (8 * n) = ofBytes (bytes.drop n) := by
  rw [← List.take_append_drop n bytes, ofBytes_append, List.drop_left', List.drop_left']
  · exact List.length_take_of_le h
  · rw [length_ofBytes, List.length_take_of_le h]

/-- The bytes of a number, the most significant first. -/
theorem ofBytes_reverse_leBytes (k n : Nat) :
    ofBytes (Codec.leBytes k n).reverse = bitsOf (8 * k) n := by
  induction k generalizing n with
  | zero => rfl
  | succ k ih =>
    have hbyte : (UInt8.ofNat n).toNat = n % 2 ^ 8 := UInt8.toNat_ofNat'
    rw [Codec.leBytes, List.reverse_cons, ofBytes_append, ih, ofBytes_cons, hbyte,
      bitsOf_mod n le_rfl, Nat.mul_succ, bitsOf_add]
    exact congrArg _ (List.append_nil _)

/-- The number of zero bytes between the `0x80` and the length. -/
def zeroBytes (n : Nat) : Nat := (119 - n % 64) % 64

theorem zeros_bytes (n : Nat) : zeros (8 * n) = 7 + 8 * zeroBytes n := by
  refine (Nat.find_eq_iff _).mpr ⟨?_, fun k hk => ?_⟩
  · unfold zeroBytes
    omega
  · unfold zeroBytes at hk
    omega

/-- The padding of a message of bytes. -/
def padBytes (bytes : List UInt8) : List UInt8 :=
  bytes ++ (0x80 :: List.replicate (zeroBytes bytes.length) 0) ++
    (Codec.leBytes 8 (8 * bytes.length)).reverse

theorem ofBytes_zeros (n : Nat) : ofBytes (List.replicate n 0) = List.replicate (8 * n) false := by
  induction n with
  | zero => rfl
  | succ n ih =>
    rw [List.replicate_succ, ofBytes_cons, ih, UInt8.toNat_zero, bitsOf_zero, ← List.replicate_add]
    congr 1
    omega

theorem pad_ofBytes (bytes : List UInt8) : pad (ofBytes bytes) = ofBytes (padBytes bytes) := by
  have hfirst : bitsOf 8 (0x80 : UInt8).toNat = true :: List.replicate 7 false := by decide
  rw [pad, padBytes, ofBytes_append, ofBytes_append, ofBytes_cons, ofBytes_reverse_leBytes,
    ofBytes_zeros, hfirst, length_ofBytes, zeros_bytes, List.replicate_add, List.cons_append]

theorem length_padBytes (bytes : List UInt8) :
    (padBytes bytes).length = 64 * ((bytes.length + zeroBytes bytes.length + 9) / 64) := by
  simp only [padBytes, List.length_append, List.length_cons, List.length_replicate,
    List.length_reverse, Codec.length_leBytes]
  unfold zeroBytes
  omega

/-- A byte string as a number, the most significant byte first. -/
theorem valueOf_ofBytes (bytes : List UInt8) :
    valueOf (ofBytes bytes) = Codec.leValue bytes.reverse := by
  have hlt := Codec.leValue_lt bytes.reverse
  have hbytes : ofBytes bytes = bitsOf (8 * bytes.length) (Codec.leValue bytes.reverse) := by
    rw [← ofBytes_reverse_leBytes, ← List.length_reverse, Codec.leBytes_leValue,
      List.reverse_reverse]
  rw [List.length_reverse, show 256 = 2 ^ 8 from rfl, ← Nat.pow_mul] at hlt
  rw [hbytes, valueOf_bitsOf, Nat.mod_eq_of_lt hlt]

/-- A word of a block of bytes. -/
theorem blockWord_ofBytes {block : List UInt8} {j : Nat} (h : 4 * j + 4 ≤ block.length) :
    blockWord (ofBytes block) j =
      UInt32.ofNat (Codec.leValue ((block.drop (4 * j)).take 4).reverse) := by
  rw [blockWord, show 32 * j = 8 * (4 * j) by omega, drop_ofBytes block (by omega),
    take_ofBytes (n := 4) _ (by rw [List.length_drop]; omega), valueOf_ofBytes]

/-- A block of bytes at the front of a message is the next block. -/
theorem hashBlocks_ofBytes {block : List UInt8} (n : Nat) (hash : Hash) (rest : List UInt8)
    (h : block.length = 64) : hashBlocks (n + 1) hash (ofBytes (block ++ rest)) =
      hashBlocks n (hashBlock hash (blockWord (ofBytes block))) (ofBytes rest) := by
  have hlength : (ofBytes block).length = 512 := by rw [length_ofBytes, h]
  rw [hashBlocks, ofBytes_append, List.take_left' hlength, List.drop_left' hlength]

end Fips180
