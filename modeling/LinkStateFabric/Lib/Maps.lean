import Mathlib.Data.Finmap

/-!
# The keys of finite maps

How many keys a finite map has, and which are left when several are erased.
-/

namespace Finmap

variable {α : Type*} {β : α → Type*} [DecidableEq α]

theorem keys_congr {s s' : Finmap β} (h : ∀ a, (s.lookup a).isSome = (s'.lookup a).isSome) :
    s.keys = s'.keys := by
  ext a
  rw [mem_keys, mem_keys, ← lookup_isSome, ← lookup_isSome, h]

theorem keys_insert (s : Finmap β) (a : α) (b : β a) : (s.insert a b).keys = Insert.insert a s.keys := by
  ext x
  rw [Finset.mem_insert, mem_keys, mem_keys, mem_insert]

theorem card_keys_insert_le (s : Finmap β) (a : α) (b : β a) :
    (s.insert a b).keys.card ≤ s.keys.card + 1 := by
  rw [keys_insert]
  exact Finset.card_insert_le _ _

theorem keys_insert_of_mem {s : Finmap β} {a : α} (h : a ∈ s) (b : β a) :
    (s.insert a b).keys = s.keys := by
  rw [keys_insert, Finset.insert_eq_of_mem (mem_keys.mpr h)]

theorem mem_foldl_erase (l : List α) (s : Finmap β) (a : α) :
    a ∈ l.foldl (fun s x => s.erase x) s ↔ a ∉ l ∧ a ∈ s := by
  induction l generalizing s with
  | nil => simp
  | cons x l ih =>
    rw [List.foldl_cons, ih, mem_erase, List.mem_cons, not_or]
    exact ⟨fun ⟨h, hx, hs⟩ => ⟨⟨hx, h⟩, hs⟩, fun ⟨⟨hx, h⟩, hs⟩ => ⟨h, hx, hs⟩⟩

/-- A map whose keys are listed has no more of them than the list. -/
theorem card_keys_le_of_subset {s : Finmap β} {l : List α} (h : ∀ a ∈ s, a ∈ l) :
    s.keys.card ≤ l.length :=
  (Finset.card_le_card fun a ha => List.mem_toFinset.mpr (h a (mem_keys.mp ha))).trans
    l.toFinset_card_le

/-- A map whose keys are listed without repetition. -/
theorem card_keys_of_nodup {s : Finmap β} {l : List α} (hl : l.Nodup) (h : ∀ a, a ∈ s ↔ a ∈ l) :
    s.keys.card = l.length := by
  have hkeys : s.keys = l.toFinset := by
    ext a
    rw [mem_keys, h, List.mem_toFinset]
  rw [hkeys, List.toFinset_card_of_nodup hl]

end Finmap
