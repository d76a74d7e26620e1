import LinkStateFabric.Text
import Mathlib.Data.List.Induction

/-!
# Digests (`digest.hpp`, `digest.cpp`)

* `Digest`: 32 bytes.
* `Hasher`: a streaming SHA-256. Its words are the source's `std::uint32_t`s; `buffer` holds the
  `buffered` bytes of the current block.

That the digest is the standard's is shown in `LinkStateFabric/Results/Streaming.lean`. The rest of
the development relies on a digest being a function of the bytes that are fed, in however many
pieces (`Hasher.update_append`), and on its length.
-/

namespace LinkState

/-- A 256 bit digest. -/
structure Digest where
  bytes : Bytes
  size : bytes.length = 32
  deriving DecidableEq

namespace Digest

def byteCount : Nat := 32

/-- The default constructed digest. -/
def zero : Digest := ⟨List.replicate 32 0, by simp⟩

instance : Inhabited Digest := ⟨zero⟩

end Digest

namespace Hasher

/-- `kRoundConstants`. -/
def roundConstants : List UInt32 := [
  0x428a2f98, 0x71374491, 0xb5c0fbcf, 0xe9b5dba5, 0x3956c25b, 0x59f111f1, 0x923f82a4,
  0xab1c5ed5, 0xd807aa98, 0x12835b01, 0x243185be, 0x550c7dc3, 0x72be5d74, 0x80deb1fe,
  0x9bdc06a7, 0xc19bf174, 0xe49b69c1, 0xefbe4786, 0x0fc19dc6, 0x240ca1cc, 0x2de92c6f,
  0x4a7484aa, 0x5cb0a9dc, 0x76f988da, 0x983e5152, 0xa831c66d, 0xb00327c8, 0xbf597fc7,
  0xc6e00bf3, 0xd5a79147, 0x06ca6351, 0x14292967, 0x27b70a85, 0x2e1b2138, 0x4d2c6dfc,
  0x53380d13, 0x650a7354, 0x766a0abb, 0x81c2c92e, 0x92722c85, 0xa2bfe8a1, 0xa81a664b,
  0xc24b8b70, 0xc76c51a3, 0xd192e819, 0xd6990624, 0xf40e3585, 0x106aa070, 0x19a4c116,
  0x1e376c08, 0x2748774c, 0x34b0bcb5, 0x391c0cb3, 0x4ed8aa4a, 0x5b9cca4f, 0x682e6ff3,
  0x748f82ee, 0x78a5636f, 0x84c87814, 0x8cc70208, 0x90befffa, 0xa4506ceb, 0xbef9a3f7,
  0xc67178f2]

/-- The eight state words. -/
structure Words where
  a : UInt32
  b : UInt32
  c : UInt32
  d : UInt32
  e : UInt32
  f : UInt32
  g : UInt32
  h : UInt32
  deriving DecidableEq

/-- `kInitialState`. -/
def initialState : Words :=
  ⟨0x6a09e667, 0xbb67ae85, 0x3c6ef372, 0xa54ff53a, 0x510e527f, 0x9b05688c, 0x1f83d9ab, 0x5be0cd19⟩

def rotateRight (value : UInt32) (count : UInt32) : UInt32 :=
  (value >>> count) ||| (value <<< (32 - count))

/-- Four bytes as a big endian word. -/
def bigEndianWord (block : Bytes) (offset : Nat) : UInt32 :=
  let byte (i : Nat) : UInt32 := (block.getD (offset + i) 0).toUInt32
  (byte 0 <<< 24) ||| (byte 1 <<< 16) ||| (byte 2 <<< 8) ||| byte 3

/-- The next word of the message schedule, from the words so far. -/
def scheduleWord (schedule : List UInt32) : UInt32 :=
  let back (i : Nat) : UInt32 := schedule.getD (schedule.length - i) 0
  let s0 := rotateRight (back 15) 7 ^^^ rotateRight (back 15) 18 ^^^ (back 15 >>> 3)
  let s1 := rotateRight (back 2) 17 ^^^ rotateRight (back 2) 19 ^^^ (back 2 >>> 10)
  back 16 + s0 + back 7 + s1

/-- The 64 words of the message schedule. -/
def messageSchedule (block : Bytes) : List UInt32 :=
  let first := (List.range 16).map fun index => bigEndianWord block (index * 4)
  (List.range 48).foldl (fun schedule _ => schedule ++ [scheduleWord schedule]) first

/-- One of the 64 rounds. -/
def round (w : Words) (roundConstant word : UInt32) : Words :=
  let s1 := rotateRight w.e 6 ^^^ rotateRight w.e 11 ^^^ rotateRight w.e 25
  let ch := (w.e &&& w.f) ^^^ (~~~w.e &&& w.g)
  let temp1 := w.h + s1 + ch + roundConstant + word
  let s0 := rotateRight w.a 2 ^^^ rotateRight w.a 13 ^^^ rotateRight w.a 22
  let maj := (w.a &&& w.b) ^^^ (w.a &&& w.c) ^^^ (w.b &&& w.c)
  let temp2 := s0 + maj
  ⟨temp1 + temp2, w.a, w.b, w.c, w.d + temp1, w.e, w.f, w.g⟩

/-- `compress`. -/
def compress (state : Words) (block : Bytes) : Words :=
  let w := (roundConstants.zip (messageSchedule block)).foldl
    (fun w (roundConstant, word) => round w roundConstant word) state
  ⟨state.a + w.a, state.b + w.b, state.c + w.c, state.d + w.d, state.e + w.e, state.f + w.f,
    state.g + w.g, state.h + w.h⟩

end Hasher

/-- A streaming hasher. -/
structure Hasher where
  state : Hasher.Words
  buffer : Bytes
  totalBytes : Nat
  finalized : Bool

namespace Hasher

def new : Hasher := ⟨initialState, [], 0, false⟩

/-- The loop of `update`. A turn takes a byte at least, so as much fuel as there are bytes is
enough. -/
def updateLoop : Nat → Hasher → Bytes → Hasher
  | 0, hasher, _ => hasher
  | _ + 1, hasher, [] => hasher
  | fuel + 1, hasher, data =>
    let count := min data.length (64 - hasher.buffer.length)
    let buffer := hasher.buffer ++ data.take count
    let hasher :=
      if buffer.length = 64 then { hasher with state := compress hasher.state buffer, buffer := [] }
      else { hasher with buffer }
    updateLoop fuel hasher (data.drop count)

def update (hasher : Hasher) (bytes : Bytes) : Hasher :=
  updateLoop bytes.length
    { hasher with totalBytes := (hasher.totalBytes + bytes.length) % 2 ^ 64 } bytes

def updateU8 (hasher : Hasher) (value : UInt8) : Hasher := hasher.update [value]

def updateBool (hasher : Hasher) (value : Bool) : Hasher :=
  hasher.updateU8 (if value then 1 else 0)

def updateU32 (hasher : Hasher) (value : Nat) : Hasher := hasher.update (Codec.leBytes 4 value)

/-- `update_u64`: the low word, then the high word. -/
def updateU64 (hasher : Hasher) (value : Nat) : Hasher :=
  (hasher.updateU32 (value % 2 ^ 32)).updateU32 (value / 2 ^ 32 % 2 ^ 32)

/-- `update_text`: the length, then the bytes. -/
def updateText (hasher : Hasher) (text : Text) : Hasher :=
  (hasher.updateU32 text.length).update text

/-- An enumeration as its byte. -/
def updateEnum {α : Type} [Codec.ByteEnum α] (hasher : Hasher) (value : α) : Hasher :=
  hasher.updateU8 (Codec.ByteEnum.toByte value)

/-- The zero bytes of the padding: one at a time, until 56 bytes are buffered. -/
def padLoop : Nat → Hasher → Hasher
  | 0, hasher => hasher
  | fuel + 1, hasher =>
    if hasher.buffer.length = 56 then hasher else padLoop fuel (hasher.update [0])

/-- The bytes of a word, the most significant first. -/
def bigEndianBytes (word : UInt32) : Bytes :=
  [(word >>> 24).toUInt8, (word >>> 16).toUInt8, (word >>> 8).toUInt8, word.toUInt8]

/-- The hasher that `finalize` leaves: the padding is added once. It takes 64 turns at most. -/
def finish (hasher : Hasher) : Hasher :=
  if hasher.finalized then hasher
  else
    let bitCount := hasher.totalBytes * 8 % 2 ^ 64
    let padded := padLoop 64 (hasher.update [0x80])
    { padded.update (Codec.leBytes 8 bitCount).reverse with finalized := true }

/-- `finalize`. -/
def finalize (hasher : Hasher) : Digest :=
  let s := hasher.finish.state
  ⟨bigEndianBytes s.a ++ bigEndianBytes s.b ++ bigEndianBytes s.c ++ bigEndianBytes s.d ++
    bigEndianBytes s.e ++ bigEndianBytes s.f ++ bigEndianBytes s.g ++ bigEndianBytes s.h, rfl⟩

end Hasher

/-! ## Streaming -/

namespace Hasher

/-- One byte goes into the buffer; a full block is compressed. -/
def absorb (hasher : Hasher) (byte : UInt8) : Hasher :=
  let buffer := hasher.buffer ++ [byte]
  if buffer.length = 64 then { hasher with state := compress hasher.state buffer, buffer := [] }
  else { hasher with buffer }

/-- Bytes that fill the buffer at most. -/
theorem foldl_absorb_block (hasher : Hasher) (data : Bytes)
    (h : hasher.buffer.length + data.length ≤ 64) (hb : hasher.buffer.length < 64) :
    data.foldl absorb hasher =
      if (hasher.buffer ++ data).length = 64 then
        { hasher with state := compress hasher.state (hasher.buffer ++ data), buffer := [] }
      else { hasher with buffer := hasher.buffer ++ data } := by
  induction data using List.reverseRecOn with
  | nil =>
    rw [List.append_nil, if_neg (by omega)]
    rfl
  | append_singleton data byte ih =>
    simp only [List.length_append, List.length_singleton] at h
    rw [List.foldl_append, ih (by omega), if_neg (by simp; omega)]
    simp only [List.foldl_cons, List.foldl_nil, absorb, List.append_assoc]

theorem length_buffer_foldl_absorb (hasher : Hasher) (data : Bytes)
    (h : hasher.buffer.length < 64) : (data.foldl absorb hasher).buffer.length < 64 := by
  induction data generalizing hasher with
  | nil => exact h
  | cons byte data ih =>
    refine ih (absorb hasher byte) ?_
    unfold absorb
    dsimp only
    split
    · exact Nat.zero_lt_succ _
    · simp only [List.length_append, List.length_singleton] at *
      omega

/-- The loop takes the bytes one after the other. -/
theorem updateLoop_eq (fuel : Nat) (hasher : Hasher) (data : Bytes)
    (hfuel : data.length ≤ fuel) (hb : hasher.buffer.length < 64) :
    updateLoop fuel hasher data = data.foldl absorb hasher := by
  induction fuel generalizing hasher data with
  | zero =>
    rw [List.length_eq_zero_iff.mp (Nat.le_zero.mp hfuel)]
    rfl
  | succ fuel ih =>
    cases data with
    | nil => rfl
    | cons byte data =>
      unfold updateLoop
      dsimp only
      set count := min (byte :: data).length (64 - hasher.buffer.length) with hcount
      have htake : ((byte :: data).take count).length = count := by
        rw [List.length_take]; omega
      have hpos : 0 < count := by simp only [List.length_cons] at hcount; omega
      have hblock := foldl_absorb_block hasher ((byte :: data).take count) (by omega) hb
      rw [← hblock, ih, ← List.foldl_append, List.take_append_drop]
      · rw [List.length_drop]; omega
      · exact length_buffer_foldl_absorb _ _ hb

theorem update_eq (hasher : Hasher) (bytes : Bytes) (hb : hasher.buffer.length < 64) :
    hasher.update bytes = bytes.foldl absorb
      { hasher with totalBytes := (hasher.totalBytes + bytes.length) % 2 ^ 64 } :=
  updateLoop_eq bytes.length _ bytes le_rfl hb

/-- The count of bytes is kept apart from the state. -/
theorem foldl_absorb_total (hasher : Hasher) (total : Nat) (data : Bytes) :
    data.foldl absorb { hasher with totalBytes := total } =
      { data.foldl absorb hasher with totalBytes := total } := by
  induction data generalizing hasher with
  | nil => rfl
  | cons byte data ih =>
    rw [List.foldl_cons, List.foldl_cons, ← ih]
    congr 1
    unfold absorb
    dsimp only
    split <;> rfl

/-- A digest does not depend on how the bytes are divided. -/
theorem update_append (hasher : Hasher) (a b : Bytes) (hb : hasher.buffer.length < 64) :
    (hasher.update a).update b = hasher.update (a ++ b) := by
  rw [update_eq hasher a hb, update_eq, update_eq hasher _ hb, List.foldl_append]
  · simp only [foldl_absorb_total, List.length_append]
    congr 1
    omega
  · exact length_buffer_foldl_absorb _ _ hb

end Hasher

/-- `sha256`. -/
def sha256 (bytes : Bytes) : Digest := (Hasher.new.update bytes).finalize

end LinkState
