import Mathlib.Data.List.Nodup

/-!
# Lists that are completed by key

A list of items that are known by a key is completed by another one: an item is taken if the list
has none of its key yet (`addNew`). Items of earlier lists stay in front of those of later ones.

* `find?_overlay`: an item is found in the list, and else in the other one.
* `nodup_overlay`: no key comes twice. Then what is found does not depend on the order
  (`find?_of_perm`).
-/

namespace Overlay

variable {α κ : Type*} [DecidableEq κ] (key : α → κ)

/-- The list with the item, if it has none of its key. -/
def addNew (l : List α) (a : α) : List α :=
  if l.any fun b => key b = key a then l else l ++ [a]

/-- A list, completed by another one. -/
def overlay (l l' : List α) : List α := l'.foldl (addNew key) l

variable {key} {l : List α} {a : α}

theorem any_key_iff : (l.any fun b => key b = key a) = true ↔ key a ∈ l.map key := by
  simp [List.mem_map]

theorem nodup_addNew (h : (l.map key).Nodup) (a : α) : ((addNew key l a).map key).Nodup := by
  unfold addNew
  split
  · exact h
  · rename_i hnew
    rw [any_key_iff] at hnew
    rw [List.map_append, List.map_singleton]
    refine h.append (List.nodup_singleton _) fun k hk hk' => ?_
    rw [List.mem_singleton] at hk'
    exact hnew (hk' ▸ hk)

theorem find?_addNew (l : List α) (a : α) (k : κ) :
    (addNew key l a).find? (key · = k) =
      (l.find? (key · = k)).or ([a].find? (key · = k)) := by
  unfold addNew
  split
  · rename_i hknown
    by_cases hk : key a = k
    · -- the list has the key already
      have hsome : (l.find? (key · = k)).isSome = true := by
        rw [List.find?_isSome]
        obtain ⟨b, hb, hkey⟩ := List.any_eq_true.mp hknown
        exact ⟨b, hb, by rw [of_decide_eq_true hkey, decide_eq_true hk]⟩
      obtain ⟨b, hb⟩ := Option.isSome_iff_exists.mp hsome
      rw [hb, Option.some_or]
    · rw [List.find?_singleton, decide_eq_false hk]
      simp
  · rw [List.find?_append]

theorem nodup_overlay (h : (l.map key).Nodup) (l' : List α) :
    ((overlay key l l').map key).Nodup := by
  induction l' generalizing l with
  | nil => exact h
  | cons a l' ih => exact ih (nodup_addNew h a)

theorem find?_overlay (l l' : List α) (k : κ) :
    (overlay key l l').find? (key · = k) =
      (l.find? (key · = k)).or (l'.find? (key · = k)) := by
  induction l' generalizing l with
  | nil => rw [List.find?_nil, Option.or_none]; rfl
  | cons a l' ih =>
    have hcons : (a :: l').find? (key · = k) =
        ([a].find? (key · = k)).or (l'.find? (key · = k)) := by
      rw [← List.find?_append]
      rfl
    rw [hcons, ← Option.or_assoc, ← find?_addNew]
    exact ih (addNew key l a)

/-- An item of a list in which no key comes twice is what is found under its key. -/
theorem find?_eq_some_iff (h : (l.map key).Nodup) {k : κ} :
    l.find? (key · = k) = some a ↔ a ∈ l ∧ key a = k := by
  constructor
  · intro hfound
    exact ⟨List.mem_of_find?_eq_some hfound, by simpa using List.find?_some hfound⟩
  · rintro ⟨ha, rfl⟩
    obtain ⟨b, hb⟩ := Option.isSome_iff_exists.mp
      (List.find?_isSome (p := (key · = key a)) |>.mpr ⟨a, ha, decide_eq_true rfl⟩)
    have hkey : key b = key a := by simpa using List.find?_some hb
    rw [hb, List.inj_on_of_nodup_map h (List.mem_of_find?_eq_some hb) ha hkey]

theorem find?_of_perm {l' : List α} (hp : l.Perm l') (h : (l.map key).Nodup) (k : κ) :
    l.find? (key · = k) = l'.find? (key · = k) := by
  ext a
  rw [find?_eq_some_iff h, find?_eq_some_iff ((hp.map key).nodup_iff.mp h), hp.mem_iff]

end Overlay
