import LinkStateFabric.Lib.Codec

/-!
# Encodings that determine what they encode

A digest of a record covers a field if records that differ in the field give different bytes. The
bytes are written field by field, so the question is where one field ends and the next starts.

* `Determines ok enc f`: byte strings that start with encodings of values that satisfy `ok` are the
  same exactly where `f` says the same of the values and what follows them is the same. So the
  encoding covers what `f` says, and nothing else.
* `determines_of_reads`: what a reader reads back is determined.
* `Determines.append`: fields that are written one after the other.
* `Determines.flatMap`, `Determines.flatMap_inj`: items that are written one after the other. Their
  number is not determined by what follows them.
-/

namespace Codec

variable {ε α β γ : Type}

/-- The encoding determines what `f` says of a value, and where it ends. -/
def Determines (ok : α → Prop) (enc : α → Bytes) (f : α → β) : Prop :=
  ∀ a b, ok a → ok b → ∀ s t, enc a ++ s = enc b ++ t ↔ f a = f b ∧ s = t

variable {ok : α → Prop} {enc enc₁ enc₂ : α → Bytes} {f : α → β}

/-- What is read back is determined. -/
theorem determines_of_reads {r : Reader ε α}
    (h : ∀ a, ok a → ∀ rest, r (enc a ++ rest) = .ok (a, rest)) : Determines ok enc id := by
  intro a b ha hb s t
  constructor
  · intro heq
    have hread := h a ha s
    rw [heq, h b hb t] at hread
    cases hread
    exact ⟨rfl, rfl⟩
  · rintro ⟨rfl, rfl⟩
    rfl

/-- Bytes of one length. -/
theorem determines_bytes {n : Nat} (h : ∀ a, (enc a).length = n) :
    Determines (fun _ => True) enc enc := by
  intro a b _ _ s t
  constructor
  · exact fun heq => List.append_inj heq (by rw [h, h])
  · rintro ⟨henc, rfl⟩
    rw [henc]

/-- One field of a value. -/
theorem Determines.field (h : Determines ok enc f) (get : γ → α) :
    Determines (fun c => ok (get c)) (fun c => enc (get c)) fun c => f (get c) :=
  fun a b ha hb => h (get a) (get b) ha hb

theorem Determines.append {ok₁ ok₂ : α → Prop} {f₁ : α → β} {f₂ : α → γ}
    (h₁ : Determines ok₁ enc₁ f₁) (h₂ : Determines ok₂ enc₂ f₂) :
    Determines (fun a => ok₁ a ∧ ok₂ a) (fun a => enc₁ a ++ enc₂ a) fun a => (f₁ a, f₂ a) := by
  intro a b ha hb s t
  rw [List.append_assoc, List.append_assoc, h₁ a b ha.1 hb.1, h₂ a b ha.2 hb.2, Prod.mk.injEq,
    and_assoc]

/-- What is determined, said in another way. -/
theorem Determines.conv {ok' : α → Prop} {g : α → γ} (h : Determines ok enc f)
    (hok : ∀ a, ok' a → ok a) (hfg : ∀ a b, f a = f b ↔ g a = g b) : Determines ok' enc g :=
  fun a b ha hb s t => (h a b (hok a ha) (hok b hb) s t).trans (by rw [hfg])

/-- Encodings that are the whole of a byte string. -/
theorem Determines.eq_iff (h : Determines ok enc f) {a b : α} (ha : ok a) (hb : ok b) :
    enc a = enc b ↔ f a = f b := by
  have := h a b ha hb [] []
  rwa [List.append_nil, List.append_nil, and_iff_left rfl] at this

/-! ## Items -/

/-- The shorter of two lists is the front of the longer, where their items follow each other in one
byte string. -/
theorem Determines.flatMap (h : Determines ok enc id) {xs ys : List α} {s t : Bytes}
    (hxs : ∀ x ∈ xs, ok x) (hys : ∀ y ∈ ys, ok y) (hle : xs.length ≤ ys.length)
    (heq : xs.flatMap enc ++ s = ys.flatMap enc ++ t) :
    ∃ zs, ys = xs ++ zs ∧ s = zs.flatMap enc ++ t := by
  induction xs generalizing ys with
  | nil => exact ⟨ys, rfl, heq⟩
  | cons x xs ih =>
    cases ys with
    | nil => simp at hle
    | cons y ys =>
      rw [List.flatMap_cons, List.flatMap_cons, List.append_assoc, List.append_assoc,
        h x y (hxs x List.mem_cons_self) (hys y List.mem_cons_self)] at heq
      obtain ⟨rfl, heq⟩ := heq
      obtain ⟨zs, rfl, hs⟩ := ih (fun z hz => hxs z (List.mem_cons_of_mem _ hz))
        (fun z hz => hys z (List.mem_cons_of_mem _ hz)) (by simpa using hle) heq
      exact ⟨zs, rfl, hs⟩

/-- Items that take a byte each and nothing that follows them determine the list. -/
theorem Determines.flatMap_inj (h : Determines ok enc id) (hpos : ∀ a, 0 < (enc a).length)
    {xs ys : List α} (hxs : ∀ x ∈ xs, ok x) (hys : ∀ y ∈ ys, ok y)
    (heq : xs.flatMap enc = ys.flatMap enc) : xs = ys := by
  have hfront {xs ys : List α} (hxs : ∀ x ∈ xs, ok x) (hys : ∀ y ∈ ys, ok y)
      (hle : xs.length ≤ ys.length) (heq : xs.flatMap enc = ys.flatMap enc) : xs = ys := by
    obtain ⟨zs, rfl, hzs⟩ := h.flatMap (s := []) (t := []) hxs hys hle (by simpa using heq)
    have hlength : zs.length ≤ (zs.flatMap enc).length := card_le_flatMap fun z _ => hpos z
    rw [List.append_nil] at hzs
    rw [← hzs, List.length_nil] at hlength
    rw [List.length_eq_zero_iff.mp (Nat.le_zero.mp hlength), List.append_nil]
  rcases le_total xs.length ys.length with hle | hle
  · exact hfront hxs hys hle heq
  · exact (hfront hys hxs hle heq.symm).symm

end Codec
