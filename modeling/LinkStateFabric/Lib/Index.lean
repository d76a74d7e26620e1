import Mathlib.Data.Finmap

/-!
# Inverted indexes

An index maps each key to the set of items filed under it. The operations are those of a hash
map of hash sets: `add` creates the bucket it needs, `restrict` drops the bucket it empties. An
index is meant to be a relation between keys and items (`Represents`); each operation changes the
relation at exactly the pairs it names, so a data structure that keeps one up to date has to
prove one equivalence for each place where its items change.
-/

/-- A map from keys to the items filed under them. -/
abbrev Index (α β : Type*) := Finmap fun _ : α => Finset β

namespace Index

variable {α β : Type*} [DecidableEq α]

/-- The items under a key. -/
def bucket (idx : Index α β) (a : α) : Finset β := (idx.lookup a).getD ∅

/-- The index files exactly the pairs of the relation. -/
def Represents (idx : Index α β) (R : α → β → Prop) : Prop := ∀ a b, b ∈ idx.bucket a ↔ R a b

@[simp] theorem bucket_empty (a : α) : bucket (∅ : Index α β) a = ∅ := by simp [bucket]

theorem bucket_insert (idx : Index α β) (a x : α) (s : Finset β) :
    bucket (idx.insert a s) x = if x = a then s else idx.bucket x := by
  unfold bucket
  split
  · subst_vars; simp
  · rename_i h; rw [Finmap.lookup_insert_of_ne _ h]

theorem bucket_erase (idx : Index α β) (a x : α) :
    bucket (idx.erase a) x = if x = a then ∅ else idx.bucket x := by
  unfold bucket
  split
  · subst_vars; simp
  · rename_i h; rw [Finmap.lookup_erase_ne h]

variable [DecidableEq β]

/-- Keeps the items of a bucket that satisfy `p`, and drops the bucket when none does. -/
def restrict (idx : Index α β) (a : α) (p : β → Bool) : Index α β :=
  match idx.lookup a with
  | none => idx
  | some s => if s.filter (p ·) = ∅ then idx.erase a else idx.insert a (s.filter (p ·))

theorem mem_restrict {idx : Index α β} {a x : α} {p : β → Bool} {y : β} :
    y ∈ (idx.restrict a p).bucket x ↔ y ∈ idx.bucket x ∧ (x = a → p y = true) := by
  unfold restrict
  split
  · rename_i h
    refine ⟨fun hy => ⟨hy, ?_⟩, fun hy => hy.1⟩
    rintro rfl
    simp [bucket, h] at hy
  · rename_i s h
    have hs : idx.bucket a = s := by simp [bucket, h]
    have key : y ∈ (if x = a then s.filter (p ·) else idx.bucket x) ↔
        y ∈ idx.bucket x ∧ (x = a → p y = true) := by
      by_cases hx : x = a
      · subst hx; simp [hs]
      · simp [hx]
    split
    · rename_i he
      rw [bucket_erase, ← he]; exact key
    · rw [bucket_insert]; exact key

/-- Files `b` under `a`. -/
def add (idx : Index α β) (a : α) (b : β) : Index α β := idx.insert a (insert b (idx.bucket a))

/-- Takes `b` out of the bucket of `a`. -/
def remove (idx : Index α β) (a : α) (b : β) : Index α β := idx.restrict a (· ≠ b)

/-- Files `b` under each key of a list. -/
def addAll (idx : Index α β) (keys : List α) (b : β) : Index α β :=
  keys.foldl (fun idx a => idx.add a b) idx

/-- Takes `b` out of the bucket of each key of a list. -/
def removeAll (idx : Index α β) (keys : List α) (b : β) : Index α β :=
  keys.foldl (fun idx a => idx.remove a b) idx

theorem mem_add {idx : Index α β} {a x : α} {b y : β} :
    y ∈ (idx.add a b).bucket x ↔ (x = a ∧ y = b) ∨ y ∈ idx.bucket x := by
  unfold add
  rw [bucket_insert]
  by_cases h : x = a
  · subst h; simp
  · simp [h]

theorem mem_remove {idx : Index α β} {a x : α} {b y : β} :
    y ∈ (idx.remove a b).bucket x ↔ ¬ (x = a ∧ y = b) ∧ y ∈ idx.bucket x := by
  rw [remove, mem_restrict, decide_eq_true_iff]
  tauto

theorem mem_addAll {idx : Index α β} {keys : List α} {x : α} {b y : β} :
    y ∈ (idx.addAll keys b).bucket x ↔ (x ∈ keys ∧ y = b) ∨ y ∈ idx.bucket x := by
  induction keys generalizing idx with
  | nil => simp [addAll]
  | cons a keys ih =>
    have : idx.addAll (a :: keys) b = (idx.add a b).addAll keys b := rfl
    rw [this, ih, mem_add, List.mem_cons]
    grind

theorem mem_removeAll {idx : Index α β} {keys : List α} {x : α} {b y : β} :
    y ∈ (idx.removeAll keys b).bucket x ↔ ¬ (x ∈ keys ∧ y = b) ∧ y ∈ idx.bucket x := by
  induction keys generalizing idx with
  | nil => simp [removeAll]
  | cons a keys ih =>
    have : idx.removeAll (a :: keys) b = (idx.remove a b).removeAll keys b := rfl
    rw [this, ih, mem_remove, List.mem_cons]
    grind

/-! ## One item filed anew -/

/-- `idx'` is `idx` with the item `b` filed under the keys of `new`, and no others. -/
def Refiles (idx idx' : Index α β) (b : β) (new : α → Prop) : Prop :=
  ∀ a y, y ∈ idx'.bucket a ↔ (y = b ∧ new a) ∨ (y ≠ b ∧ y ∈ idx.bucket a)

theorem refiles_self {idx : Index α β} {b : β} {new : α → Prop}
    (h : ∀ a, b ∈ idx.bucket a ↔ new a) : idx.Refiles idx b new := fun a y => by
  by_cases hy : y = b
  · subst hy; simp [h]
  · simp [hy]

/-- An item moves from its old keys to its new keys. -/
theorem refiles_move {idx : Index α β} {b : β} {old new : List α}
    (h : ∀ a, b ∈ idx.bucket a ↔ a ∈ old) :
    idx.Refiles ((idx.removeAll old b).addAll new b) b (· ∈ new) := fun a y => by
  rw [mem_addAll, mem_removeAll]
  by_cases hy : y = b
  · subst hy; simp [h]
  · simp [hy]

end Index
