import LinkStateFabric.Digest
import LinkStateFabric.Lib.Sha256

/-!
# The streaming hasher is SHA-256 (`digest.cpp`)

* `messageSchedule_eq`, `hash_compress`: a compression is the standard's step on a block.
* `hash_foldl_absorb`: so are the blocks that the buffer collects, one after the other.
* `finish_update`: `finalize` feeds the padding of the standard.
* `streaming`: a message in pieces has the standard's digest, however it is divided, and
  `finalize` gives it as often as it is called.
-/

namespace LinkState

open Fips180 (ofBytes)

namespace Hasher

/-! ## Words -/

/-- Bits that do not overlap. -/
theorem or_eq_add {a b : Nat} (i : Nat) (h : b < 2 ^ i) : a <<< i ||| b = a * 2 ^ i + b := by
  rw [← Nat.shiftLeft_add_eq_or_of_lt h, Nat.shiftLeft_eq]

/-- Four bytes of a block, shifted into their places. -/
theorem toNat_bigEndian (a b c d : UInt8) :
    ((a.toUInt32 <<< 24) ||| (b.toUInt32 <<< 16) ||| (c.toUInt32 <<< 8) ||| d.toUInt32).toNat =
      Codec.leValue [d, c, b, a] := by
  have ha := a.toNat_lt
  have hb := b.toNat_lt
  have hc := c.toNat_lt
  have hd := d.toNat_lt
  have h24 : a.toNat <<< 24 % 2 ^ 32 = a.toNat <<< 24 := Nat.mod_eq_of_lt (by omega)
  have h16 : b.toNat <<< 16 % 2 ^ 32 = b.toNat <<< 16 := Nat.mod_eq_of_lt (by omega)
  have h8 : c.toNat <<< 8 % 2 ^ 32 = c.toNat <<< 8 := Nat.mod_eq_of_lt (by omega)
  have hplaces : (a.toUInt32 <<< 24 ||| b.toUInt32 <<< 16 ||| c.toUInt32 <<< 8 ||| d.toUInt32).toNat =
      a.toNat <<< 24 ||| b.toNat <<< 16 ||| c.toNat <<< 8 ||| d.toNat := by
    rw [← h24, ← h16, ← h8]
    rfl
  rw [hplaces, Nat.or_assoc, Nat.or_assoc, or_eq_add 8 hd, or_eq_add 16 (by omega),
    or_eq_add 24 (by omega)]
  simp only [Codec.leValue]
  omega

theorem bigEndianWord_eq {block : Bytes} {offset : Nat} (h : offset + 4 ≤ block.length) :
    bigEndianWord block offset =
      UInt32.ofNat (Codec.leValue ((block.drop offset).take 4).reverse) := by
  obtain ⟨rest, hrest⟩ : ∃ rest, block.drop offset = rest := ⟨_, rfl⟩
  have hlength : 4 ≤ rest.length := by
    rw [← hrest, List.length_drop]
    omega
  have hget (i : Nat) : block.getD (offset + i) 0 = rest.getD i 0 := by
    rw [← hrest, List.getD_eq_getElem?_getD, List.getD_eq_getElem?_getD, List.getElem?_drop]
  match rest, hlength with
  | a :: b :: c :: d :: rest, _ =>
    have hlt : Codec.leValue [d, c, b, a] < 2 ^ 32 :=
      lt_of_lt_of_eq (Codec.leValue_lt [d, c, b, a]) (by norm_num)
    apply UInt32.toNat_inj.mp
    unfold bigEndianWord
    simp only [hget, hrest]
    rw [List.take_succ_cons, List.take_succ_cons, List.take_succ_cons, List.take_succ_cons,
      List.take_zero]
    exact (toNat_bigEndian a b c d).trans (UInt32.toNat_ofNat_of_lt' hlt).symm

/-- `kRoundConstants` and `kInitialState` are the constants of the standard. -/
theorem roundConstants_eq : roundConstants = Fips180.constants := by
  rw [Fips180.constants, Fips180.primes_eq]
  decide +kernel

/-- The state words as a hash value. -/
def Words.hash (w : Words) : Fips180.Hash := ⟨w.a, w.b, w.c, w.d, w.e, w.f, w.g, w.h⟩

theorem hash_initialState : initialState.hash = Fips180.initialHash := by
  unfold Fips180.initialHash
  rw [Fips180.primes_eq]
  decide +kernel

/-! ## A block -/

/-- The schedule grows by the words of the standard. -/
theorem foldl_scheduleWord (w : Nat → UInt32) (n : Nat) :
    (List.range n).foldl (fun schedule _ => schedule ++ [scheduleWord schedule])
      ((List.range 16).map (Fips180.schedule w)) = (List.range (16 + n)).map (Fips180.schedule w) := by
  induction n with
  | zero => rfl
  | succ n ih =>
    have hback {i : Nat} (hpos : 0 < i) (hi : i ≤ 16) :
        ((List.range (16 + n)).map (Fips180.schedule w)).getD (16 + n - i) 0 =
          Fips180.schedule w (16 + n - i) := by
      rw [List.getD_eq_getElem?_getD, List.getElem?_map, List.getElem?_range (by omega)]
      rfl
    have hsum (a b c d : UInt32) : a + b + c + d = d + c + b + a := by ac_rfl
    have hnext : scheduleWord ((List.range (16 + n)).map (Fips180.schedule w)) =
        Fips180.schedule w (16 + n) := by
      unfold scheduleWord
      dsimp only
      rw [List.length_map, List.length_range, hback (by decide) (by decide),
        hback (by decide) (by decide), hback (by decide) (by decide), hback (by decide) (by decide),
        Fips180.schedule.eq_def w (16 + n), if_neg (by omega)]
      exact hsum ..
    rw [List.range_succ (n := n), List.foldl_append, ih, List.foldl_cons, List.foldl_nil, hnext,
      ← Nat.add_assoc, List.range_succ (n := 16 + n), List.map_append, List.map_singleton]

theorem messageSchedule_eq {block : Bytes} (h : block.length = 64) : messageSchedule block =
    (List.range 64).map (Fips180.schedule (Fips180.blockWord (ofBytes block))) := by
  have hfirst : (List.range 16).map (fun index => bigEndianWord block (index * 4)) =
      (List.range 16).map (Fips180.schedule (Fips180.blockWord (ofBytes block))) := by
    refine List.map_congr_left fun t ht => ?_
    have ht : t < 16 := List.mem_range.mp ht
    rw [Fips180.schedule, if_pos ht, bigEndianWord_eq (by omega),
      Fips180.blockWord_ofBytes (by omega), Nat.mul_comm t]
  unfold messageSchedule
  dsimp only
  rw [hfirst, foldl_scheduleWord]

/-- A round of the source is a step of the standard. -/
theorem hash_round (w : Nat → UInt32) (v : Words) (t : Nat) :
    (round v (roundConstants.getD t 0) (w t)).hash = Fips180.blockStep w v.hash t := by
  rw [roundConstants_eq]
  rfl

theorem hash_compress (state : Words) {block : Bytes} (h : block.length = 64) :
    (compress state block).hash =
      Fips180.hashBlock state.hash (Fips180.blockWord (ofBytes block)) := by
  set w := Fips180.schedule (Fips180.blockWord (ofBytes block)) with hw
  have hzip : roundConstants.zip (messageSchedule block) =
      (List.range 64).map fun t => (roundConstants.getD t 0, w t) := by
    have hconstants : roundConstants = (List.range 64).map (roundConstants.getD · 0) := by decide
    rw [messageSchedule_eq h, ← List.zip_map', ← hconstants]
  have hrounds := @List.foldl_hom _ _ _ Words.hash
    (fun v t => round v (roundConstants.getD t 0) (w t)) (Fips180.blockStep w) (List.range 64) state
    fun v t => (hash_round w v t).symm
  unfold compress Fips180.hashBlock
  rw [hzip, List.foldl_map, ← hw, hrounds]
  have hsum (v : Words) : (Words.mk (state.a + v.a) (state.b + v.b) (state.c + v.c) (state.d + v.d)
      (state.e + v.e) (state.f + v.f) (state.g + v.g) (state.h + v.h)).hash =
      ⟨v.a + state.a, v.b + state.b, v.c + state.c, v.d + state.d, v.e + state.e, v.f + state.f,
        v.g + state.g, v.h + state.h⟩ := by
    simp only [Words.hash, UInt32.add_comm]
  exact hsum _

/-! ## Blocks -/

/-- Whole blocks leave the buffer empty. -/
theorem foldl_absorb_blocks (n : Nat) {hasher : Hasher} {data : Bytes} (hbuffer : hasher.buffer = [])
    (hdata : data.length = 64 * n) :
    (data.foldl absorb hasher).buffer = [] ∧ (data.foldl absorb hasher).state.hash =
      Fips180.hashBlocks n hasher.state.hash (ofBytes data) := by
  induction n generalizing hasher data with
  | zero =>
    obtain rfl : data = [] := List.eq_nil_of_length_eq_zero hdata
    exact ⟨hbuffer, rfl⟩
  | succ n ih =>
    obtain ⟨block, rest, rfl, hblock⟩ : ∃ block rest, data = block ++ rest ∧ block.length = 64 :=
      ⟨data.take 64, data.drop 64, (List.take_append_drop ..).symm, by
        rw [List.length_take]
        omega⟩
    rw [List.length_append] at hdata
    have htaken := foldl_absorb_block hasher block (by rw [hbuffer, hblock]; decide)
      (by rw [hbuffer]; decide)
    rw [hbuffer, List.nil_append, if_pos hblock] at htaken
    rw [List.foldl_append, htaken, Fips180.hashBlocks_ofBytes _ _ _ hblock,
      ← hash_compress _ hblock]
    exact ih rfl (by omega)

/-- The buffer holds what is left over. -/
theorem length_buffer_foldl (data : Bytes) {hasher : Hasher} (h : hasher.buffer.length < 64) :
    (data.foldl absorb hasher).buffer.length = (hasher.buffer.length + data.length) % 64 := by
  induction data generalizing hasher with
  | nil => exact (Nat.mod_eq_of_lt h).symm
  | cons byte data ih =>
    have hnext : (absorb hasher byte).buffer.length = (hasher.buffer.length + 1) % 64 := by
      unfold absorb
      dsimp only
      rw [List.length_append, List.length_singleton]
      split
      · rename_i hfull
        rw [hfull]
        rfl
      · rename_i hfull
        rw [List.length_append, List.length_singleton, Nat.mod_eq_of_lt (by omega)]
    rw [List.foldl_cons, ih (by omega), hnext, List.length_cons]
    omega

/-! ## Padding -/

/-- The hasher has taken these bytes since it was new; its count of them may be another. -/
def Took (hasher : Hasher) (data : Bytes) : Prop :=
  ∃ total, hasher = { data.foldl absorb new with totalBytes := total }

namespace Took

variable {hasher : Hasher} {data : Bytes}

theorem length_buffer (h : hasher.Took data) : hasher.buffer.length = data.length % 64 := by
  obtain ⟨total, rfl⟩ := h
  have hlength := @length_buffer_foldl data new (by decide)
  rwa [show new.buffer.length = 0 from rfl, Nat.zero_add] at hlength

theorem buffer_lt (h : hasher.Took data) : hasher.buffer.length < 64 := by
  rw [h.length_buffer]
  exact Nat.mod_lt _ (by decide)

theorem finalized (h : hasher.Took data) : hasher.finalized = false := by
  obtain ⟨total, rfl⟩ := h
  dsimp only
  induction data using List.reverseRecOn with
  | nil => rfl
  | append_singleton data byte ih =>
    rw [List.foldl_append, List.foldl_cons, List.foldl_nil]
    unfold absorb
    dsimp only
    split <;> exact ih

theorem update (h : hasher.Took data) (more : Bytes) : (hasher.update more).Took (data ++ more) := by
  have hb := h.buffer_lt
  obtain ⟨total, rfl⟩ := h
  refine ⟨(total + more.length) % 2 ^ 64, ?_⟩
  rw [List.foldl_append, update_eq _ _ hb, foldl_absorb_total, foldl_absorb_total]

/-- The loop adds zeros until eight bytes of the block are left. -/
theorem padLoop (fuel : Nat) (h : hasher.Took data)
    (hfuel : (120 - data.length % 64) % 64 < fuel) : (hasher.padLoop fuel).Took
      (data ++ List.replicate ((120 - data.length % 64) % 64) 0) := by
  induction fuel generalizing hasher data with
  | zero => omega
  | succ fuel ih =>
    rw [Hasher.padLoop, h.length_buffer]
    split
    · rename_i hfull
      rwa [show (120 - data.length % 64) % 64 = 0 by omega, List.replicate_zero,
        List.append_nil]
    · rename_i hopen
      have hlength : (data ++ [0]).length = data.length + 1 := List.length_append
      have hrest := ih (h.update [0]) (by omega)
      rwa [List.append_assoc, List.singleton_append, ← List.replicate_succ, hlength,
        show (120 - (data.length + 1) % 64) % 64 + 1 = (120 - data.length % 64) % 64 by
          omega] at hrest

/-- `finalize` feeds the padding of the standard. -/
theorem finish {bytes : Bytes} (h : hasher.Took bytes) (htotal : hasher.totalBytes = bytes.length)
    (hbytes : bytes.length < 2 ^ 61) :
    hasher.finish.state = ((Fips180.padBytes bytes).foldl absorb new).state := by
  have hopen : ¬ hasher.finalized = true := by
    rw [h.finalized]
    nofun
  have hcount : hasher.totalBytes * 8 % 2 ^ 64 = 8 * bytes.length := by
    rw [htotal]
    omega
  have hlength : (bytes ++ [0x80]).length = bytes.length + 1 := List.length_append
  have hzeros : (120 - (bytes ++ [0x80]).length % 64) % 64 =
      Fips180.zeroBytes bytes.length := by
    rw [hlength]
    unfold Fips180.zeroBytes
    omega
  have hpadded := padLoop 64 (h.update [0x80]) (Nat.mod_lt _ (by decide))
  obtain ⟨total, heq⟩ := hpadded.update (Codec.leBytes 8 (8 * bytes.length)).reverse
  rw [hzeros, List.append_assoc bytes, List.singleton_append] at heq
  unfold Hasher.finish
  rw [if_neg hopen]
  dsimp only
  rw [hcount, heq, Fips180.padBytes]

end Took

theorem took_new : new.Took [] := ⟨0, rfl⟩

/-! ## Digests -/

/-- The bytes of a word, the most significant first. -/
theorem bigEndianBytes_eq (word : UInt32) :
    bigEndianBytes word = (Codec.leBytes 4 word.toNat).reverse := by
  have hbyte (shift : UInt32) : (word >>> shift).toUInt8 =
      UInt8.ofNat (word.toNat / 2 ^ (shift.toNat % 32)) := by
    apply UInt8.toNat_inj.mp
    rw [UInt32.toNat_toUInt8, UInt32.toNat_shiftRight, Nat.shiftRight_eq_div_pow,
      UInt8.toNat_ofNat']
  have hlast : word.toUInt8 = UInt8.ofNat word.toNat := rfl
  simp only [bigEndianBytes, hbyte, hlast, Codec.leBytes, Nat.div_div_eq_div_mul]
  rfl

/-- The digest of a hash value. -/
theorem ofBytes_finalize (hasher : Hasher) : ofBytes hasher.finalize.bytes =
    hasher.finish.state.hash.words.flatMap fun w => Fips180.bitsOf 32 w.toNat := by
  have hword (word : UInt32) : ofBytes (bigEndianBytes word) = Fips180.bitsOf 32 word.toNat := by
    rw [bigEndianBytes_eq, Fips180.ofBytes_reverse_leBytes]
  simp only [finalize, Fips180.ofBytes_append, hword, Words.hash, Fips180.Hash.words,
    List.flatMap_cons, List.flatMap_nil, List.append_nil, List.append_assoc]

theorem finish_finish (hasher : Hasher) : hasher.finish.finish = hasher.finish := by
  have hdone : hasher.finish.finalized = true := by
    unfold finish
    split
    · assumption
    · rfl
  rw [finish, if_pos hdone]

theorem finalize_finish (hasher : Hasher) : hasher.finish.finalize = hasher.finalize := by
  simp only [finalize, finish_finish]

end Hasher

/-- The pieces are taken as one string. -/
theorem foldl_update (pieces : List Bytes) :
    pieces.foldl Hasher.update Hasher.new = Hasher.new.update pieces.flatten := by
  induction pieces using List.reverseRecOn with
  | nil => rfl
  | append_singleton pieces piece ih =>
    rw [List.foldl_append, ih, List.foldl_cons, List.foldl_nil, List.flatten_append,
      Hasher.update_append _ _ _ (by decide), List.flatten_singleton]

/-- `sha256` is the function of the standard. -/
theorem ofBytes_sha256 {bytes : Bytes} (h : bytes.length < 2 ^ 61) :
    ofBytes (sha256 bytes).bytes = Fips180.digest (ofBytes bytes) := by
  have htotal : (Hasher.new.update bytes).totalBytes = bytes.length := by
    rw [Hasher.update_eq _ _ (by decide), Hasher.foldl_absorb_total]
    exact (congrArg (· % 2 ^ 64) (Nat.zero_add _)).trans (Nat.mod_eq_of_lt (by omega))
  have hstart : Hasher.new.state.hash = Fips180.initialHash := Hasher.hash_initialState
  have htook := Hasher.took_new.update bytes
  rw [List.nil_append] at htook
  obtain ⟨-, hblocks⟩ := @Hasher.foldl_absorb_blocks ((Fips180.padBytes bytes).length / 64)
    Hasher.new (Fips180.padBytes bytes) rfl (by
      rw [Fips180.length_padBytes]
      omega)
  rw [sha256, Hasher.ofBytes_finalize, htook.finish htotal h, hblocks, Fips180.digest,
    Fips180.pad_ofBytes, Fips180.length_ofBytes]
  rw [hstart, show 512 = 8 * 64 from rfl, Nat.mul_div_mul_left _ _ (by decide)]

/-- Any sequence of pieces has the standard's digest of their concatenation, which is that of
`sha256` too, and another call of `finalize` gives it again. -/
theorem streaming (pieces : List Bytes) (h : pieces.flatten.length < 2 ^ 61) :
    ofBytes (pieces.foldl Hasher.update Hasher.new).finalize.bytes =
        Fips180.digest (ofBytes pieces.flatten) ∧
      (pieces.foldl Hasher.update Hasher.new).finalize = sha256 pieces.flatten ∧
      (pieces.foldl Hasher.update Hasher.new).finish.finalize =
        (pieces.foldl Hasher.update Hasher.new).finalize := by
  have hwhole : (pieces.foldl Hasher.update Hasher.new).finalize = sha256 pieces.flatten := by
    rw [foldl_update, sha256]
  rw [Hasher.finalize_finish, hwhole]
  exact ⟨ofBytes_sha256 h, rfl, rfl⟩

theorem streaming_sample :
    ofBytes ([lit "a", [], lit "bc"].foldl Hasher.update Hasher.new).finalize.bytes =
      Fips180.digest (ofBytes (lit "abc")) :=
  (streaming [lit "a", [], lit "bc"] (by decide)).1

/-- The digest of a message of one block begins so. -/
example : (sha256 (lit "abc")).bytes.take 4 = [0xba, 0x78, 0x16, 0xbf] := by decide +kernel

end LinkState
