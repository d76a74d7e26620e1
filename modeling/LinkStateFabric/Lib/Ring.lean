import Mathlib.Data.List.Forall2
import Mathlib.Data.List.Perm.Basic

/-!
# Rings that account for what leaves a list

A ring keeps what was pushed on it last, the newest first, as many as its bound admits.

* `pushAll`: a ring after several pushes. Pushes compose (`pushAll_append`), and a loop that pushes
  what it finds in a list is one of them (`foldl_pushes`).
* `Accounts`: what has left a list is in one-to-one correspondence with what was pushed on a ring
  meanwhile. This composes (`Accounts.trans`), and in a list without repetitions it is exactly what
  is there no more (`Accounts.exists_left`).
-/

namespace Ring

variable {α β : Type*} {R : β → α → Prop} {cap : Nat} {ring ring' ring'' : List β}
  {source source' source'' : List α}

/-- A ring with one more element. -/
def push (cap : Nat) (ring : List β) (b : β) : List β := (b :: ring).take cap

/-- A ring after several pushes, of which the first of the list is the latest. -/
def pushAll (cap : Nat) (ring pushed : List β) : List β := (pushed ++ ring).take cap

theorem pushAll_nil (h : ring.length ≤ cap) : pushAll cap ring [] = ring :=
  List.take_of_length_le h

theorem pushAll_append (later earlier : List β) :
    pushAll cap ring (later ++ earlier) = pushAll cap (pushAll cap ring earlier) later := by
  unfold pushAll
  rw [List.append_assoc, List.take_append,
    @List.take_append _ later ((earlier ++ ring).take cap), List.take_take,
    Nat.min_eq_left (Nat.sub_le _ _)]

theorem length_push (b : β) : (push cap ring b).length ≤ cap := by
  unfold push
  rw [List.length_take]
  exact Nat.min_le_left _ _

/-- A loop over a list that pushes what it finds. -/
theorem foldl_pushes (f : α → Option β) (l : List α) (h : ring.length ≤ cap) :
    l.foldl (fun ring a => (f a).elim ring (push cap ring)) ring =
      pushAll cap ring (l.filterMap f).reverse := by
  induction l generalizing ring with
  | nil => exact (pushAll_nil h).symm
  | cons a l ih =>
    rw [List.foldl_cons]
    cases hf : f a with
    | none =>
      rw [List.filterMap_cons_none hf]
      exact ih h
    | some b =>
      rw [List.filterMap_cons_some hf, List.reverse_cons, pushAll_append]
      exact ih (length_push b)

/-- Every element that has left `source` for `source'` is accounted for by one that was pushed on
the ring, and nothing else was pushed. -/
def Accounts (R : β → α → Prop) (cap : Nat) (source : List α) (ring : List β) (source' : List α)
    (ring' : List β) : Prop :=
  ∃ pushed left, List.Forall₂ R pushed left ∧ source.Perm (left ++ source') ∧
    ring' = pushAll cap ring pushed

theorem Accounts.refl (source : List α) (h : ring.length ≤ cap) :
    Accounts R cap source ring source ring :=
  ⟨[], [], .nil, .refl _, (pushAll_nil h).symm⟩

theorem Accounts.trans (h : Accounts R cap source ring source' ring')
    (h' : Accounts R cap source' ring' source'' ring'') :
    Accounts R cap source ring source'' ring'' := by
  obtain ⟨pushed, left, hR, hperm, rfl⟩ := h
  obtain ⟨pushed', left', hR', hperm', rfl⟩ := h'
  refine ⟨pushed' ++ pushed, left' ++ left, List.rel_append hR' hR, ?_,
    (pushAll_append pushed' pushed).symm⟩
  calc source.Perm (left ++ source') := hperm
    _ |>.Perm (left ++ (left' ++ source'')) := hperm'.append_left left
    _ |>.Perm (left' ++ left ++ source'') := by
      rw [← List.append_assoc]
      exact (List.perm_append_comm).append_right source''

/-- A loop that takes elements out of a list, and pushes one for each. -/
theorem Accounts.filter {f : α → Option β} (hf : ∀ a b, f a = some b → R b a) (source : List α)
    (ring : List β) : Accounts R cap source ring (source.filter fun a => (f a).isNone)
      (pushAll cap ring (source.filterMap f).reverse) := by
  refine ⟨_, (source.filter fun a => (f a).isSome).reverse, ?_, ?_, rfl⟩
  · refine List.rel_reverse ?_
    induction source with
    | nil => exact .nil
    | cons a source ih =>
      cases hfa : f a with
      | none => simpa [hfa] using ih
      | some b => simpa [hfa] using ⟨hf a b hfa, ih⟩
  · refine (List.filter_append_perm (fun a => (f a).isSome) source).symm.trans ?_
    refine List.Perm.append (List.reverse_perm _).symm (.of_eq ?_)
    exact List.filter_congr fun a _ => by cases f a <;> rfl

/-- In a list without repetitions, what has left is what is not there any more. It does not matter
what else is there. -/
theorem Accounts.exists_left [DecidableEq α] (h : Accounts R cap source ring source' ring')
    (hnodup : source.Nodup) (hsame : ∀ a ∈ source, a ∈ source'' ↔ a ∈ source') :
    ∃ pushed left, List.Forall₂ R pushed left ∧ left.Perm (source.filter (· ∉ source'')) ∧
      ring' = pushAll cap ring pushed := by
  obtain ⟨pushed, left, hR, hperm, hring⟩ := h
  refine ⟨pushed, left, hR, ?_, hring⟩
  have hdisjoint := List.nodup_append.mp (hperm.nodup_iff.mp hnodup)
  have hleft : left.filter (· ∉ source') = left :=
    List.filter_eq_self.mpr fun a ha => by simpa using fun h => hdisjoint.2.2 a ha a h rfl
  have hkept : source'.filter (· ∉ source') = [] := by simp
  have hfilter : source.filter (· ∉ source'') = source.filter (· ∉ source') :=
    List.filter_congr fun a ha => by simp only [hsame a ha]
  rw [hfilter]
  refine List.Perm.trans (.of_eq ?_) (hperm.filter _).symm
  rw [List.filter_append, hleft, hkept, List.append_nil]

end Ring
