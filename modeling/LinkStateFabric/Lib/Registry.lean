import Mathlib.Data.Finset.Card
import Mathlib.Data.List.Infix
import Mathlib.Data.List.Nodup

/-!
# Bounded registries

A registry is a list without repetitions that remembers the latest of what it is told, oldest
first. It takes an element that it has not got at its end, and then forgets the oldest elements
that exceed its bound (`remember`).

* `exists_remember_eq`: an element is remembered until as many others come as the bound.
* `registry`: what a registry remembers of a sequence. In an `Orderly` sequence no element comes
  again unless it is the newest, or forgotten. Then what is remembered of the end of a sequence is
  the end of what is remembered of all of it (`registry_suffix`).
-/

namespace Registry

variable {α : Type*} [DecidableEq α] {cap : Nat} {l : List α} {a x : α}

/-- A registry with one more element. -/
def remember (cap : Nat) (l : List α) (a : α) : List α :=
  if a ∈ l then l else (l ++ [a]).drop (l.length + 1 - cap)

theorem remember_of_mem (h : a ∈ l) : remember cap l a = l := if_pos h

theorem remember_of_notMem (h : a ∉ l) :
    remember cap l a = (l ++ [a]).drop (l.length + 1 - cap) := if_neg h

theorem mem_of_mem_remember (h : x ∈ remember cap l a) : x ∈ l ∨ x = a := by
  unfold remember at h
  split at h
  · exact .inl h
  · simpa using List.mem_of_mem_drop h

theorem nodup_remember (h : l.Nodup) : (remember cap l a).Nodup := by
  unfold remember
  split
  · exact h
  · rename_i ha
    refine List.Nodup.sublist (List.drop_sublist _ _) (h.append (List.nodup_singleton a) ?_)
    simpa using ha

theorem length_remember (h : l.length ≤ cap) : (remember cap l a).length ≤ cap := by
  unfold remember
  split
  · exact h
  · rw [List.length_drop, List.length_append, List.length_singleton]
    omega

theorem remember_of_pos (hcap : 0 < cap) (h : a ∉ l) :
    remember cap l a = l.drop (l.length + 1 - cap) ++ [a] := by
  rw [remember_of_notMem h, List.drop_append_of_le_length (by omega)]

/-- What was told last is the newest, if what is told again always is. -/
theorem getLast?_remember (h : a ∈ l → l.getLast? = some a) (ha : a ∈ remember cap l a) :
    (remember cap l a).getLast? = some a := by
  by_cases hmem : a ∈ l
  · rw [remember_of_mem hmem]; exact h hmem
  · rcases Nat.eq_zero_or_pos cap with rfl | hcap
    · rw [remember_of_notMem hmem, List.drop_of_length_le (by simp)] at ha
      cases ha
    · rw [remember_of_pos hcap hmem, List.getLast?_append, List.getLast?_singleton]
      rfl

theorem mem_remember (hcap : 0 < cap) : a ∈ remember cap l a := by
  by_cases hmem : a ∈ l
  · rw [remember_of_mem hmem]; exact hmem
  · rw [remember_of_pos hcap hmem]; simp

/-- An element stays while those after it are fewer than the bound admits. -/
theorem exists_remember_eq {before after : List α} (ha : a ∉ before ++ x :: after)
    (hlength : after.length + 1 < cap) :
    ∃ before', remember cap (before ++ x :: after) a = before' ++ x :: (after ++ [a]) := by
  refine ⟨before.drop ((before ++ x :: after).length + 1 - cap), ?_⟩
  rw [remember_of_pos (by omega) ha, List.drop_append_of_le_length]
  · simp
  · rw [List.length_append, List.length_cons]
    omega

/-! ## Sequences -/

/-- What a registry remembers of a sequence. -/
def registry (cap : Nat) (l : List α) : List α := l.foldl (remember cap) []

theorem registry_concat (l : List α) (a : α) :
    registry cap (l ++ [a]) = remember cap (registry cap l) a := by
  unfold registry
  rw [List.foldl_append]
  rfl

theorem mem_of_mem_registry (h : x ∈ registry cap l) : x ∈ l := by
  induction l using List.reverseRecOn with
  | nil => exact h
  | append_singleton l a ih =>
    rw [registry_concat] at h
    rcases mem_of_mem_remember h with h | rfl
    · exact List.mem_append_left _ (ih h)
    · simp

theorem nodup_registry (cap : Nat) (l : List α) : (registry cap l).Nodup := by
  induction l using List.reverseRecOn with
  | nil => exact List.nodup_nil
  | append_singleton l a ih => rw [registry_concat]; exact nodup_remember ih

theorem length_registry (cap : Nat) (l : List α) : (registry cap l).length ≤ cap := by
  induction l using List.reverseRecOn with
  | nil => exact Nat.zero_le _
  | append_singleton l a ih => rw [registry_concat]; exact length_remember ih

/-- No element comes again while it is remembered, unless it is the newest. -/
def Orderly (cap : Nat) (l : List α) : Prop :=
  ∀ before a after, l = before ++ a :: after → a ∈ registry cap before →
    (registry cap before).getLast? = some a

theorem Orderly.nil : Orderly cap ([] : List α) := by
  intro before a after h
  simp at h

theorem Orderly.of_append (h : Orderly cap (l ++ [a])) : Orderly cap l := by
  intro before x after heq
  exact h before x (after ++ [a]) (by rw [heq, List.append_assoc]; rfl)

theorem Orderly.last (h : Orderly cap (l ++ [a])) (ha : a ∈ registry cap l) :
    (registry cap l).getLast? = some a := h l a [] rfl ha

theorem Orderly.concat (h : Orderly cap l)
    (ha : a ∈ registry cap l → (registry cap l).getLast? = some a) : Orderly cap (l ++ [a]) := by
  intro before x after heq
  rcases List.eq_nil_or_concat after with rfl | ⟨after, y, rfl⟩
  · obtain ⟨rfl, hx⟩ := List.append_inj' heq rfl
    cases hx
    exact ha
  · refine h before x after ?_
    rw [List.concat_eq_append, ← List.cons_append, ← List.append_assoc] at heq
    exact (List.append_inj' heq rfl).1

/-- A registry that has the newest part of another keeps it. -/
theorem remember_suffix {l l' : List α} (h : l' <:+ l) (hl : l.length ≤ cap)
    (ha : a ∈ l → l.getLast? = some a) : remember cap l' a <:+ remember cap l a := by
  obtain ⟨front, rfl⟩ := h
  by_cases hmem : a ∈ front ++ l'
  · rw [remember_of_mem hmem]
    by_cases hmem' : a ∈ l'
    · rw [remember_of_mem hmem']
      exact List.suffix_append front l'
    · -- what comes again is the newest of the one, and so the other has nothing
      have hnil : l' = [] := by
        by_contra hne
        have := ha hmem
        rw [List.getLast?_append_of_ne_nil _ hne] at this
        exact hmem' (List.mem_of_getLast? this)
      subst hnil
      rw [List.append_nil] at ha hmem ⊢
      obtain ⟨front, rfl⟩ := List.getLast?_eq_some_iff.mp (ha hmem)
      rw [remember_of_notMem (by simp)]
      exact (List.drop_suffix _ _).trans (List.suffix_append front [a])
  · have hmem' : a ∉ l' := fun h => hmem (List.mem_append_right _ h)
    rw [remember_of_notMem hmem, remember_of_notMem hmem']
    rw [List.length_append] at hl ⊢
    have hshort : (l' ++ [a]).drop (l'.length + 1 - cap) <:+ front ++ l' ++ [a] := by
      rw [List.append_assoc]
      exact (List.drop_suffix _ _).trans (List.suffix_append front _)
    refine List.suffix_of_suffix_length_le hshort (List.drop_suffix _ _) ?_
    simp only [List.length_drop, List.length_append, List.length_singleton]
    omega

/-- What is remembered of the end of an orderly sequence is the end of what is remembered of it. -/
theorem registry_suffix {l' : List α} (h : Orderly cap (l' ++ l)) :
    registry cap l <:+ registry cap (l' ++ l) := by
  induction l using List.reverseRecOn with
  | nil => exact List.nil_suffix
  | append_singleton l a ih =>
    rw [← List.append_assoc] at h ⊢
    rw [registry_concat, registry_concat]
    exact remember_suffix (ih h.of_append) (length_registry _ _) h.last

theorem Orderly.of_suffix {l' : List α} (h : Orderly cap (l' ++ l)) : Orderly cap l := by
  induction l using List.reverseRecOn with
  | nil => exact .nil
  | append_singleton l a ih =>
    rw [← List.append_assoc] at h
    refine (ih h.of_append).concat fun ha => ?_
    have hsuffix := registry_suffix h.of_append
    have hlast := h.last (hsuffix.subset ha)
    obtain ⟨front, heq⟩ := hsuffix
    rw [← heq, List.getLast?_append_of_ne_nil _ (List.ne_nil_of_mem ha)] at hlast
    exact hlast

/-- What is remembered, and told at the end, is remembered of the end. -/
theorem mem_registry_of_mem {l' : List α} (h : Orderly cap (l' ++ l))
    (hx : x ∈ registry cap (l' ++ l)) (hmem : x ∈ l) : x ∈ registry cap l := by
  have hcap : 0 < cap := (List.length_pos_of_mem hx).trans_le (length_registry _ _)
  induction l using List.reverseRecOn with
  | nil => cases hmem
  | append_singleton l a ih =>
    rw [← List.append_assoc] at h hx
    rw [registry_concat] at hx ⊢
    by_cases hxa : x = a
    · rw [hxa]; exact mem_remember hcap
    have hmem := ih h.of_append ((mem_of_mem_remember hx).resolve_right hxa)
      ((List.mem_append.mp hmem).resolve_right (by simpa using hxa))
    have hsuffix := registry_suffix h.of_append
    rcases Nat.lt_or_ge (registry cap l).length cap with hlt | hge
    · unfold remember
      split
      · exact hmem
      · rw [show (registry cap l).length + 1 - cap = 0 by omega]
        exact List.mem_append_left _ hmem
    · rwa [hsuffix.eq_of_length_le ((length_registry _ _).trans hge)]

/-- The end of a sequence tells all that is remembered of it. -/
theorem registry_eq_of_subset {l' : List α} (h : Orderly cap (l' ++ l))
    (hsub : ∀ x ∈ registry cap (l' ++ l), x ∈ l) : registry cap l = registry cap (l' ++ l) := by
  refine (registry_suffix h).eq_of_length_le ?_
  exact ((nodup_registry cap _).subperm fun x hx => mem_registry_of_mem h hx (hsub x hx)).length_le

end Registry
