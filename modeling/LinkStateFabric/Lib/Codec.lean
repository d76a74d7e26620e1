import Mathlib.Data.List.Basic
import Mathlib.Tactic.Ring

/-!
# Readers of byte strings, and when they accept an encoding

* `leBytes k n`: the `k` low bytes of `n`, the least significant first; `leValue` reads them back.
* `Reader ε α`: a reader takes a value from the front of a byte string and leaves the rest, or
  fails with an `ε`.
* `Reads r enc ok v`: on every input that starts with the bytes `enc`, the reader `r` consumes
  exactly `enc` and gives `v` if `ok` holds, and fails if `ok` does not. So a proof that a decoder
  `Reads` what an encoder wrote settles both the round trip and the exact set of values that
  survive it. The rules follow the constructors of a decoder: `pure`, `bind`, a guard, a repetition.
* `Gives r P`: every value that `r` gives satisfies `P`, whatever the input.
* `Refuses r P`: every error that `r` fails with satisfies `P`.
* `Takes before r enc`: what `r` gives encodes `before` and the bytes that `r` took. So a decoder
  that `Takes` its values from their encodings accepts no other encoding of them.
* `ByteEnum α`: an enumeration stored in one byte.
-/

/-- A byte string. -/
abbrev Bytes := List UInt8

namespace Codec

/-! ## Little endian numbers -/

/-- The `k` low bytes of `n`, the least significant first. -/
def leBytes : Nat → Nat → Bytes
  | 0, _ => []
  | k + 1, n => UInt8.ofNat n :: leBytes k (n / 256)

/-- The number whose bytes these are, the least significant first. -/
def leValue : Bytes → Nat
  | [] => 0
  | b :: bs => b.toNat + 256 * leValue bs

@[simp] theorem length_leBytes (k n : Nat) : (leBytes k n).length = k := by
  induction k generalizing n with
  | zero => rfl
  | succ k ih => simp [leBytes, ih]

theorem leValue_leBytes (k n : Nat) : leValue (leBytes k n) = n % 256 ^ k := by
  induction k generalizing n with
  | zero => simp [leBytes, leValue, Nat.mod_one]
  | succ k ih =>
    have hb : (UInt8.ofNat n).toNat = n % 256 := UInt8.toNat_ofNat'
    rw [leBytes, leValue, ih, hb, Nat.pow_succ', Nat.mod_mul (x := n)]

theorem leValue_lt (bs : Bytes) : leValue bs < 256 ^ bs.length := by
  induction bs with
  | nil => simp [leValue]
  | cons b bs ih =>
    have hb := b.toNat_lt
    simp only [leValue, List.length_cons, Nat.pow_succ]
    omega

theorem leBytes_leValue (bs : Bytes) : leBytes bs.length (leValue bs) = bs := by
  induction bs with
  | nil => rfl
  | cons b bs ih =>
    have hb := b.toNat_lt
    have hhead : UInt8.ofNat (b.toNat + 256 * leValue bs) = b := by
      apply UInt8.toNat_inj.mp
      rw [UInt8.toNat_ofNat']
      omega
    have htail : (b.toNat + 256 * leValue bs) / 256 = leValue bs := by omega
    rw [List.length_cons, leValue, leBytes, hhead, htail, ih]

/-! ## Readers -/

/-- Takes a value from the front of a byte string, or fails. -/
abbrev Reader (ε α : Type) := StateT Bytes (Except ε) α

variable {ε α β : Type}

/-- A reader that fails. -/
def fail (e : ε) : Reader ε α := fun _ => .error e

/-- Fails with `e` unless `c` holds. -/
def check (c : Prop) [Decidable c] (e : ε) : Reader ε Unit := if c then pure () else fail e

/-- The next `n` bytes. -/
def take (e : ε) (n : Nat) : Reader ε Bytes := fun bs =>
  if n ≤ bs.length then .ok (bs.take n, bs.drop n) else .error e

/-- The next `k` bytes, as a little endian number. -/
def number (e : ε) (k : Nat) : Reader ε Nat := leValue <$> take e k

/-- Reads `n` values one after the other; each reader is given the values before it. -/
def many (r : List α → Reader ε α) : List α → Nat → Reader ε (List α)
  | before, 0 => pure before
  | before, n + 1 => do
    let a ← r before
    many r (before ++ [a]) n

/-- On the bytes `enc`, `r` gives `v` if `ok` holds and fails otherwise, whatever follows them. -/
structure Reads (r : Reader ε α) (enc : Bytes) (ok : Prop) (v : α) : Prop where
  accept : ok → ∀ rest, r (enc ++ rest) = .ok (v, rest)
  reject : ¬ ok → ∀ rest, ∃ e, r (enc ++ rest) = .error e

theorem bind_apply (r : Reader ε α) (f : α → Reader ε β) (bs : Bytes) :
    (r >>= f) bs = match r bs with
      | .ok (a, rest) => f a rest
      | .error e => .error e := by
  show (r bs >>= fun p => f p.1 p.2) = _
  cases r bs <;> rfl

theorem Reads.pure (v : α) : Reads (ε := ε) (Pure.pure v) [] True v :=
  ⟨fun _ _ => rfl, fun h => (h trivial).elim⟩

theorem Reads.bind {r : Reader ε α} {f : α → Reader ε β} {enc₁ enc₂ : Bytes} {ok₁ ok₂ : Prop} {v : α}
    {w : β} (h₁ : Reads r enc₁ ok₁ v) (h₂ : ok₁ → Reads (f v) enc₂ ok₂ w) :
    Reads (r >>= f) (enc₁ ++ enc₂) (ok₁ ∧ ok₂) w where
  accept h rest := by
    rw [bind_apply, List.append_assoc, h₁.accept h.1]
    exact (h₂ h.1).accept h.2 rest
  reject h rest := by
    rw [bind_apply, List.append_assoc]
    by_cases hok : ok₁
    · rw [h₁.accept hok]
      exact (h₂ hok).reject (fun h' => h ⟨hok, h'⟩) rest
    · obtain ⟨e, he⟩ := h₁.reject hok (enc₂ ++ rest)
      exact ⟨e, by rw [he]⟩

/-- What follows reads no more bytes. -/
theorem Reads.finish {r : Reader ε α} {f : α → Reader ε β} {enc : Bytes} {ok₁ ok₂ : Prop} {v : α}
    {w : β} (h₁ : Reads r enc ok₁ v) (h₂ : ok₁ → Reads (f v) [] ok₂ w) :
    Reads (r >>= f) enc (ok₁ ∧ ok₂) w := by
  have := h₁.bind h₂
  rwa [List.append_nil] at this

/-- Restates what is read: the same bytes, an equivalent condition, and the same value where the
condition holds. -/
theorem Reads.conv {r : Reader ε α} {enc enc' : Bytes} {ok ok' : Prop} {v v' : α}
    (h : Reads r enc ok v) (henc : enc' = enc) (hok : ok' ↔ ok) (hv : ok → v' = v) :
    Reads r enc' ok' v' := by
  subst henc
  exact ⟨fun h' => by rw [hv (hok.mp h')]; exact h.accept (hok.mp h'), fun h' => h.reject fun h'' => h' (hok.mpr h'')⟩

theorem Reads.map {r : Reader ε α} {enc : Bytes} {ok : Prop} {v : α} (f : α → β) (h : Reads r enc ok v) :
    Reads (f <$> r) enc ok (f v) := by
  have : (f <$> r) = (r >>= fun a => Pure.pure (f a)) := (bind_pure_comp f r).symm
  rw [this]
  exact (h.bind fun _ => .pure (f v)).conv (by simp) (by simp) fun _ => rfl

theorem Reads.fail {e : ε} (v : α) : Reads (fail e) [] False v :=
  ⟨fun h => h.elim, fun _ _ => ⟨e, rfl⟩⟩

theorem Reads.check {c : Prop} [Decidable c] {e : ε} : Reads (check c e) [] c () where
  accept h rest := by simp only [Codec.check, if_pos h]; rfl
  reject h rest := ⟨e, by simp only [Codec.check, if_neg h]; rfl⟩

theorem Reads.take {e : ε} (bs : Bytes) {n : Nat} (hn : n = bs.length) : Reads (take e n) bs True bs where
  accept _ rest := by subst hn; simp [Codec.take]
  reject h := (h trivial).elim

theorem Reads.number {e : ε} (k n : Nat) : Reads (number e k) (leBytes k n) True (n % 256 ^ k) := by
  rw [← leValue_leBytes]
  exact (Reads.take (leBytes k n) (length_leBytes k n).symm).map leValue

/-- A repetition reads a list item by item. -/
theorem Reads.many {r : List α → Reader ε α} {enc : α → Bytes} {ok : List α → α → Prop}
    (xs before : List α) (h : ∀ pre, ∀ x ∈ xs, Reads (r pre) (enc x) (ok pre x) x) :
    Reads (many r before xs.length) (xs.flatMap enc)
      (∀ pre x post, xs = pre ++ x :: post → ok (before ++ pre) x) (before ++ xs) := by
  induction xs generalizing before with
  | nil => exact (Reads.pure before).conv rfl (by simp) fun _ => by simp
  | cons x xs ih =>
    have hx := h before x List.mem_cons_self
    have hxs := ih (before ++ [x]) fun pre y hy => h pre y (List.mem_cons_of_mem _ hy)
    refine (hx.bind fun _ => hxs).conv (by simp) ?_ fun _ => by simp
    constructor
    · intro hall
      refine ⟨by simpa using hall [] x xs rfl, fun pre y post hxs => ?_⟩
      simpa using hall (x :: pre) y post (by simp [hxs])
    · rintro ⟨hfirst, hrest⟩ pre y post heq
      cases pre with
      | nil =>
        obtain ⟨rfl, rfl⟩ := List.cons.inj heq
        simpa using hfirst
      | cons z pre =>
        obtain ⟨rfl, hxs⟩ := List.cons.inj heq
        simpa using hrest pre y post hxs

/-- The items of a list that is encoded item by item are no longer than the whole. -/
theorem length_le_flatMap {enc : α → Bytes} {xs : List α} {x : α} (h : x ∈ xs) :
    (enc x).length ≤ (xs.flatMap enc).length := by
  obtain ⟨pre, post, rfl⟩ := List.append_of_mem h
  simp only [List.flatMap_append, List.flatMap_cons, List.length_append]
  omega

/-- Items that take a byte each are no more than the bytes. -/
theorem card_le_flatMap {enc : α → Bytes} {xs : List α} (h : ∀ x ∈ xs, 0 < (enc x).length) :
    xs.length ≤ (xs.flatMap enc).length := by
  induction xs with
  | nil => exact Nat.zero_le _
  | cons x xs ih =>
    have hx := h x List.mem_cons_self
    have hxs := ih fun y hy => h y (List.mem_cons_of_mem _ hy)
    simp only [List.length_cons, List.flatMap_cons, List.length_append]
    omega

/-! ## What a reader can give -/

/-- Every value that the reader gives, on whatever input, satisfies `P`. -/
def Gives (r : Reader ε α) (P : α → Prop) : Prop := ∀ bs v rest, r bs = .ok (v, rest) → P v

theorem Gives.mono {r : Reader ε α} {P Q : α → Prop} (h : Gives r P) (hPQ : ∀ v, P v → Q v) :
    Gives r Q := fun bs v rest hr => hPQ v (h bs v rest hr)

theorem gives_true (r : Reader ε α) : Gives r fun _ => True := fun _ _ _ _ => trivial

theorem gives_pure {v : α} {P : α → Prop} (h : P v) : Gives (ε := ε) (Pure.pure v) P := by
  intro bs w rest hr
  cases hr
  exact h

theorem gives_fail {e : ε} {P : α → Prop} : Gives (fail e) P := fun _ _ _ h => by cases h

theorem gives_check {c : Prop} [Decidable c] {e : ε} : Gives (check c e) fun _ => c := by
  intro bs v rest h
  by_contra hc
  simp only [check, if_neg hc] at h
  cases h

theorem Gives.bind {r : Reader ε α} {f : α → Reader ε β} {P : α → Prop} {Q : β → Prop}
    (hr : Gives r P) (hf : ∀ v, P v → Gives (f v) Q) : Gives (r >>= f) Q := by
  intro bs w rest h
  rw [bind_apply] at h
  split at h
  · rename_i v rest' hv
    exact hf v (hr _ _ _ hv) _ _ _ h
  · cases h

theorem Gives.map {r : Reader ε α} {P : α → Prop} (f : α → β) (h : Gives r P) :
    Gives (f <$> r) fun w => ∃ v, P v ∧ f v = w := by
  rw [← bind_pure_comp]
  exact h.bind fun v hv => gives_pure ⟨v, hv, rfl⟩

/-- Every item of a repetition is given by the reader after the items before it. -/
theorem gives_many {r : List α → Reader ε α} {P : List α → α → Prop} (h : ∀ pre, Gives (r pre) (P pre))
    (before : List α) (n : Nat) : Gives (many r before n) fun ys => ∃ xs, ys = before ++ xs ∧
      xs.length = n ∧ ∀ pre x post, xs = pre ++ x :: post → P (before ++ pre) x := by
  induction n generalizing before with
  | zero => exact gives_pure ⟨[], by simp, rfl, by simp⟩
  | succ n ih =>
    refine (h before).bind fun a ha => (ih (before ++ [a])).mono ?_
    rintro ys ⟨xs, rfl, hlen, hall⟩
    refine ⟨a :: xs, by simp, by simp [hlen], fun pre x post heq => ?_⟩
    cases pre with
    | nil =>
      obtain ⟨rfl, rfl⟩ := List.cons.inj heq
      simpa using ha
    | cons b pre =>
      obtain ⟨rfl, hxs⟩ := List.cons.inj heq
      simpa using hall pre x post hxs

/-! ## What a reader fails with -/

/-- Every error that the reader fails with, on whatever input, satisfies `P`. -/
def Refuses (r : Reader ε α) (P : ε → Prop) : Prop := ∀ bs e, r bs = .error e → P e

theorem refuses_pure {v : α} {P : ε → Prop} : Refuses (Pure.pure v) P := fun _ _ h => by cases h

theorem refuses_fail {e : ε} {P : ε → Prop} (h : P e) : Refuses (α := α) (fail e) P := by
  intro bs e' he
  cases he
  exact h

theorem refuses_check {c : Prop} [Decidable c] {e : ε} {P : ε → Prop} (h : P e) :
    Refuses (check c e) P := by
  unfold check
  split
  · exact refuses_pure
  · exact refuses_fail h

theorem refuses_take {e : ε} {n : Nat} {P : ε → Prop} (h : P e) : Refuses (take e n) P := by
  intro bs e' he
  unfold take at he
  split at he
  · cases he
  · cases he
    exact h

theorem Refuses.bind {r : Reader ε α} {f : α → Reader ε β} {P : ε → Prop} (hr : Refuses r P)
    (hf : ∀ v, Refuses (f v) P) : Refuses (r >>= f) P := by
  intro bs e h
  rw [bind_apply] at h
  split at h
  · exact hf _ _ _ h
  · rename_i hfirst
    cases h
    exact hr _ _ hfirst

theorem Refuses.map {r : Reader ε α} {P : ε → Prop} (f : α → β) (h : Refuses r P) :
    Refuses (f <$> r) P := by
  rw [← bind_pure_comp]
  exact h.bind fun _ => refuses_pure

theorem refuses_number {e : ε} {k : Nat} {P : ε → Prop} (h : P e) : Refuses (number e k) P :=
  (refuses_take h).map leValue

theorem refuses_many {r : List α → Reader ε α} {P : ε → Prop} (h : ∀ before, Refuses (r before) P)
    (before : List α) (n : Nat) : Refuses (many r before n) P := by
  induction n generalizing before with
  | zero => exact refuses_pure
  | succ n ih => exact (h before).bind fun a => ih (before ++ [a])

/-! ## What a reader takes -/

/-- Whatever `r` gives, the bytes `before` and those that `r` took are its encoding. -/
def Takes (before : Bytes) (r : Reader ε α) (enc : α → Bytes) : Prop :=
  ∀ bs v rest, r bs = .ok (v, rest) → before ++ bs = enc v ++ rest

variable {before : Bytes} {enc : β → Bytes}

theorem takes_pure {v : β} (h : before = enc v) : Takes (ε := ε) before (Pure.pure v) enc := by
  intro bs w rest hr
  cases hr
  rw [h]

theorem takes_fail {e : ε} : Takes before (fail e) enc := fun _ _ _ h => by cases h

theorem Takes.bind_of {r : Reader ε α} {f : α → Reader ε β} {enc₁ : α → Bytes} {P : α → Prop}
    (hr : Takes [] r enc₁) (hP : Gives r P)
    (hf : ∀ v, P v → Takes (before ++ enc₁ v) (f v) enc) : Takes before (r >>= f) enc := by
  intro bs w rest h
  rw [bind_apply] at h
  split at h
  · rename_i v rest' hv
    have hfirst := hr _ _ _ hv
    have hsecond := hf v (hP _ _ _ hv) _ _ _ h
    rw [List.nil_append] at hfirst
    rw [hfirst, ← List.append_assoc, hsecond]
  · cases h

theorem Takes.bind {r : Reader ε α} {f : α → Reader ε β} {enc₁ : α → Bytes} (hr : Takes [] r enc₁)
    (hf : ∀ v, Takes (before ++ enc₁ v) (f v) enc) : Takes before (r >>= f) enc :=
  hr.bind_of (gives_true r) fun v _ => hf v

/-- A guard takes nothing, and what follows may use what it checked. -/
theorem Takes.check {c : Prop} [Decidable c] {e : ε} {f : Unit → Reader ε β}
    (hf : c → Takes before (f ()) enc) : Takes before (check c e >>= f) enc := by
  intro bs w rest h
  rw [Codec.check] at h
  split at h
  · rename_i hc
    exact hf hc _ _ _ h
  · rw [bind_apply] at h
    cases h

theorem takes_take {e : ε} {n : Nat} : Takes [] (take e n) id := by
  intro bs v rest h
  unfold take at h
  split at h
  · cases h
    exact (List.take_append_drop n bs).symm
  · cases h

theorem gives_take {e : ε} {n : Nat} : Gives (take e n) fun bs => bs.length = n := by
  intro bs v rest h
  unfold take at h
  split at h
  · cases h
    exact List.length_take_of_le ‹_›
  · cases h

theorem gives_number {e : ε} {k : Nat} : Gives (number e k) (· < 256 ^ k) := by
  refine (gives_take.map leValue).mono ?_
  rintro _ ⟨bs, rfl, rfl⟩
  exact leValue_lt bs

theorem takes_number {e : ε} {k : Nat} : Takes [] (number e k) (leBytes k) := by
  rw [number, ← bind_pure_comp]
  refine takes_take.bind_of gives_take fun bs hlength => takes_pure ?_
  rw [← hlength, leBytes_leValue]
  rfl

theorem Takes.map {r : Reader ε α} {enc₁ : α → Bytes} {g : α → β} (hr : Takes [] r enc₁)
    (h : ∀ v, before ++ enc₁ v = enc (g v)) : Takes before (g <$> r) enc := by
  rw [← bind_pure_comp]
  exact hr.bind fun v => takes_pure (h v)

/-- A repetition takes its items one after the other. -/
theorem takes_many {r : List β → Reader ε β} (h : ∀ pre, Takes [] (r pre) enc) (n : Nat) :
    Takes [] (many r [] n) fun xs => xs.flatMap enc := by
  have hall (n : Nat) : ∀ pre bs ys rest, many r pre n bs = .ok (ys, rest) →
      ∃ xs, ys = pre ++ xs ∧ bs = xs.flatMap enc ++ rest := by
    induction n with
    | zero =>
      intro pre bs ys rest hr
      cases hr
      exact ⟨[], by simp, rfl⟩
    | succ n ih =>
      intro pre bs ys rest hr
      rw [many, bind_apply] at hr
      split at hr
      · rename_i a rest' ha
        obtain ⟨xs, rfl, hrest⟩ := ih (pre ++ [a]) _ _ _ hr
        refine ⟨a :: xs, by simp, ?_⟩
        have hfirst := h pre _ _ _ ha
        rw [List.nil_append] at hfirst
        rw [hfirst, hrest, List.flatMap_cons, List.append_assoc]
      · cases hr
  intro bs ys rest hr
  obtain ⟨xs, rfl, hbs⟩ := hall n [] bs ys rest hr
  exact hbs

theorem gives_many_length {r : List β → Reader ε β} {n : Nat} :
    Gives (many r [] n) (·.length = n) := by
  refine (gives_many (fun pre => gives_true (r pre)) [] n).mono ?_
  rintro _ ⟨xs, rfl, hlength, -⟩
  exact hlength

/-! ## Enumerations -/

/-- An enumeration stored in one byte. -/
class ByteEnum (α : Type) where
  toByte : α → UInt8
  ofByte : UInt8 → Option α
  ofByte_toByte : ∀ a, ofByte (toByte a) = some a
  toByte_ofByte : ∀ b a, ofByte b = some a → toByte a = b

/-- The number of a value of an enumeration, by which the source compares values. -/
def ByteEnum.index {α : Type} [ByteEnum α] (a : α) : Nat := (ByteEnum.toByte a).toNat

theorem ByteEnum.index_injective {α : Type} [ByteEnum α] : Function.Injective (index : α → Nat) := by
  intro a b h
  have h' := congrArg (ofByte (α := α)) (UInt8.toNat_inj.mp h)
  rwa [ofByte_toByte, ofByte_toByte, Option.some.injEq] at h'

/-- An enumeration by its values, in the order of their bytes. -/
@[reducible] def ByteEnum.ofValues [DecidableEq α] (values : List α) (hall : ∀ a, a ∈ values)
    (hlen : values.length ≤ 256) (hnodup : values.Nodup) : ByteEnum α where
  toByte a := UInt8.ofNat (values.idxOf a)
  ofByte b := values[b.toNat]?
  ofByte_toByte a := by
    have hi := List.idxOf_lt_length_of_mem (hall a)
    have : (UInt8.ofNat (values.idxOf a)).toNat = values.idxOf a := by
      rw [UInt8.toNat_ofNat']; omega
    rw [this, List.getElem?_eq_getElem hi, List.getElem_idxOf]
  toByte_ofByte b a h := by
    obtain ⟨hi, rfl⟩ := List.getElem?_eq_some_iff.mp h
    rw [hnodup.idxOf_getElem, UInt8.ofNat_toNat]

end Codec
