import LinkStateFabric.Lib.Overlay
import Mathlib.Data.Finmap

/-!
# Maps of the latest entries

Entries that arrive one after the other are kept in a map, under keys that do not repeat, with the
order of their keys. When there are more than a bound admits, the oldest leave.

* `latest`: the last entries of a list, as many as the bound admits.
* `Holds`: the map and the order hold the latest entries, and no others. `Holds.put` keeps it.
-/

namespace Recent

variable {α κ : Type*} [DecidableEq κ]

/-! ## Erasing several keys -/

theorem lookup_foldl_erase (l : List κ) (s : Finmap fun _ : κ => α) (k : κ) :
    (l.foldl (fun s x => s.erase x) s).lookup k = if k ∈ l then none else s.lookup k := by
  induction l generalizing s with
  | nil => rfl
  | cons x l ih =>
    rw [List.foldl_cons, ih]
    by_cases hl : k ∈ l
    · rw [if_pos hl, if_pos (List.mem_cons_of_mem x hl)]
    by_cases hx : k = x
    · subst hx
      rw [if_neg hl, if_pos List.mem_cons_self, Finmap.lookup_erase]
    · rw [if_neg hl, if_neg (by simp [hx, hl]), Finmap.lookup_erase_ne hx]

/-! ## The latest entries -/

/-- As many of the last elements of a list as a bound admits. -/
def latest (cap : Nat) (l : List α) : List α := l.drop (l.length - cap)

theorem latest_suffix (cap : Nat) (l : List α) : latest cap l <:+ l := List.drop_suffix ..

theorem latest_concat (cap : Nat) (l : List α) (a : α) :
    latest cap (l ++ [a]) =
      (latest cap l ++ [a]).drop ((latest cap l ++ [a]).length - cap) := by
  unfold latest
  rw [← List.drop_append_of_le_length (Nat.sub_le ..), List.drop_drop, List.length_drop,
    List.length_append, List.length_singleton]
  congr 1
  omega

section Holds

variable {key : α → κ} {cap : Nat} {l : List α} {a : α} {s : Finmap fun _ : κ => α}
  {order : List κ}

/-- A map of the latest entries of a list, under their keys, and the order of the keys. -/
structure Holds (key : α → κ) (cap : Nat) (l : List α) (s : Finmap fun _ : κ => α)
    (order : List κ) : Prop where
  order : order = (latest cap l).map key
  lookup : ∀ k, s.lookup k = (latest cap l).find? (key · = k)

theorem holds_nil (key : α → κ) (cap : Nat) : Holds key cap [] ∅ [] := by
  refine ⟨?_, fun k => ?_⟩ <;> unfold latest <;> rw [List.drop_nil]
  · rfl
  · exact Finmap.lookup_empty k

/-- The keys of the entries that stay are not among those of the entries that leave. -/
theorem find?_drop (h : (l.map key).Nodup) (n : Nat) (k : κ) :
    (l.drop n).find? (key · = k) =
      if k ∈ (l.map key).take n then none else l.find? (key · = k) := by
  have hsplit : l.find? (key · = k) =
      ((l.take n).find? (key · = k)).or ((l.drop n).find? (key · = k)) := by
    rw [← List.find?_append, List.take_append_drop]
  rw [← List.map_take]
  split
  · rename_i hk
    rw [← List.take_append_drop n l, List.map_append, List.nodup_append] at h
    refine List.find?_eq_none.mpr fun b hb heq => ?_
    exact h.2.2 k hk (key b) (List.mem_map_of_mem hb) (of_decide_eq_true heq).symm
  · rename_i hk
    have hnone : (l.take n).find? (key · = k) = none :=
      List.find?_eq_none.mpr fun b hb heq => hk (List.mem_map.mpr ⟨b, hb, of_decide_eq_true heq⟩)
    rw [hsplit, hnone, Option.none_or]

/-- One more entry, and those leave that are too many. -/
theorem Holds.put (h : Holds key cap l s order) (hnodup : ((l ++ [a]).map key).Nodup) :
    Holds key cap (l ++ [a])
      (((order ++ [key a]).take ((order ++ [key a]).length - cap)).foldl (fun s x => s.erase x)
        (s.insert (key a) a))
      ((order ++ [key a]).drop ((order ++ [key a]).length - cap)) := by
  have horder : order ++ [key a] = (latest cap l ++ [a]).map key := by
    rw [h.order, List.map_append, List.map_singleton]
  have hkept : ((latest cap l ++ [a]).map key).Nodup := by
    refine hnodup.sublist (List.Sublist.map key ?_)
    exact (latest_suffix cap l).sublist.append (List.Sublist.refl [a])
  have hinsert (k : κ) :
      (s.insert (key a) a).lookup k = (latest cap l ++ [a]).find? (key · = k) := by
    by_cases hk : k = key a
    · subst hk
      rw [Finmap.lookup_insert, eq_comm, Overlay.find?_eq_some_iff hkept]
      exact ⟨List.mem_append_right _ (List.mem_singleton_self a), rfl⟩
    · have hnone : [a].find? (key · = k) = none :=
        List.find?_eq_none.mpr fun b hb heq => hk (by
          rw [List.mem_singleton.mp hb] at heq
          exact (of_decide_eq_true heq).symm)
      rw [Finmap.lookup_insert_of_ne _ hk, h.lookup, List.find?_append, hnone, Option.or_none]
  have hlength : (order ++ [key a]).length = (latest cap l ++ [a]).length := by
    rw [horder, List.length_map]
  refine ⟨?_, fun k => ?_⟩
  · rw [latest_concat, hlength, horder, List.map_drop]
  · rw [lookup_foldl_erase, latest_concat, find?_drop hkept, hinsert, hlength, horder]

end Holds

end Recent
