import Mathlib.Data.List.Destutter
import Mathlib.Data.List.Sort
import Mathlib.Algebra.BigOperators.Group.Finset.Defs
import Mathlib.Algebra.GroupWithZero.Nat
import Mathlib.Data.Finset.Card

/-!
# Listings of finite sets, and sorting by a strict comparator

* `listing s`: the elements of a finite set in increasing order. It is what a program gets when
  it copies an unordered set into a vector and sorts the vector.
* `sortBy lt l`: a list sorted by a strict comparator `lt`, as a standard library sort does. Where
  the comparator compares ranks (`Ranks`) and the ranks differ, the sorting depends on the elements
  only, not on their order (`Ranks.sortBy_eq_of_perm`).
* `(sortBy lt l).destutter (· ≠ ·)`: what is left after sorting and dropping repetitions. It depends
  on the elements only, if no two of them have one rank (`Ranks.destutter_sortBy_congr`). Of elements
  of one rank the first comes first (`Ranks.find?_sortBy_cons`).
-/

namespace Sorting

section Listing

variable {α : Type*} [LinearOrder α]

/-- The elements of a finite set in increasing order. -/
def listing (s : Finset α) : List α :=
  Quot.liftOn s.val (List.insertionSort (· ≤ ·)) fun _ _ h =>
    (((List.perm_insertionSort _ _).trans h).trans (List.perm_insertionSort _ _).symm).eq_of_pairwise'
      (List.pairwise_insertionSort _ _) (List.pairwise_insertionSort _ _)

theorem listing_coe (s : Finset α) : (listing s : Multiset α) = s.val := by
  obtain ⟨⟨l⟩, hs⟩ := s
  exact Quot.sound (List.perm_insertionSort _ l)

@[simp] theorem mem_listing {s : Finset α} {a : α} : a ∈ listing s ↔ a ∈ s := by
  rw [← Multiset.mem_coe, listing_coe]; rfl

theorem nodup_listing (s : Finset α) : (listing s).Nodup := by
  rw [← Multiset.coe_nodup, listing_coe]; exact s.nodup

theorem length_listing (s : Finset α) : (listing s).length = s.card := by
  rw [← Multiset.coe_card, listing_coe]; rfl

theorem pairwise_listing (s : Finset α) : (listing s).Pairwise (· ≤ ·) := by
  obtain ⟨⟨l⟩, hs⟩ := s
  exact List.pairwise_insertionSort _ l

/-- Filtering a listing lists the elements that pass. -/
theorem listing_filter (s : Finset α) (p : α → Prop) [DecidablePred p] :
    (listing s).filter (p ·) = listing (s.filter p) := by
  refine List.Perm.eq_of_pairwise' ?_ (pairwise_listing _) ?_
  · exact (pairwise_listing s).filter _
  · refine (List.perm_ext_iff_of_nodup ((nodup_listing s).filter _) (nodup_listing _)).mpr fun a => ?_
    simp

/-- Elements that give nothing need not be listed. -/
theorem flatMap_listing {β : Type*} {s t : Finset α} {f : α → List β}
    (h : ∀ a, f a ≠ [] → (a ∈ s ↔ a ∈ t)) : (listing s).flatMap f = (listing t).flatMap f := by
  classical
  have hskip (l : List α) : l.flatMap f = (l.filter (f · ≠ [])).flatMap f := by
    induction l with
    | nil => rfl
    | cons a l ih =>
      rw [List.flatMap_cons, List.filter_cons, ih]
      by_cases ha : f a = []
      · simp [ha]
      · simp [ha]
  rw [hskip (listing s), hskip (listing t), listing_filter, listing_filter]
  congr 2
  ext a
  simp only [Finset.mem_filter]
  exact ⟨fun ha => ⟨(h a ha.2).mp ha.1, ha.2⟩, fun ha => ⟨(h a ha.2).mpr ha.1, ha.2⟩⟩

/-- What the elements of a finite set give, counted in a listing of the set. -/
theorem countP_filterMap_listing {β : Type*} (s : Finset α) (f : α → Option β) (p : β → Bool) :
    ((listing s).filterMap f).countP p = (s.filter fun a => (f a).any p).card := by
  rw [List.countP_filterMap, ← length_listing, ← listing_filter, ← List.countP_eq_length_filter]
  exact List.countP_congr fun a _ => by cases f a <;> simp

theorem sum_filterMap_listing {β : Type*} (s : Finset α) (f : α → Option β) (g : β → Nat) :
    (((listing s).filterMap f).map g).sum = ∑ a ∈ s, ((f a).map g).getD 0 := by
  have hlist (l : List α) :
      ((l.filterMap f).map g).sum = (l.map fun a => ((f a).map g).getD 0).sum := by
    induction l with
    | nil => rfl
    | cons a l ih => cases h : f a <;> simp [h, ih]
  rw [hlist, ← Multiset.sum_coe, ← Multiset.map_coe, listing_coe]
  rfl

/-- The first element that is not below `a`, in a list that is sorted, is `a` if the list has it. -/
theorem find?_not_lt {l : List α} (h : l.Pairwise (· ≤ ·)) (a : α) :
    l.find? (fun b => !(b < a)) = some a ↔ a ∈ l := by
  induction l with
  | nil => simp
  | cons b l ih =>
    obtain ⟨hhead, htail⟩ := List.pairwise_cons.mp h
    by_cases hb : b < a
    · rw [List.find?_cons_of_neg (by simpa using hb), ih htail, List.mem_cons,
        or_iff_right hb.ne']
    · rw [List.find?_cons_of_pos (by simpa using hb), Option.some_inj, List.mem_cons]
      refine ⟨fun heq => .inl heq.symm, fun hmem => hmem.elim Eq.symm fun hmem => ?_⟩
      exact le_antisymm (hhead a hmem) (not_lt.mp hb)

end Listing

section SortBy

variable {α : Type*} (lt : α → α → Bool)

/-- A list sorted by a strict comparator: `b` stays behind `a` unless `b` is less. -/
def sortBy (l : List α) : List α := l.insertionSort fun a b => lt b a = false

theorem sortBy_perm (l : List α) : (sortBy lt l).Perm l := List.perm_insertionSort _ l

@[simp] theorem mem_sortBy {l : List α} {a : α} : a ∈ sortBy lt l ↔ a ∈ l :=
  (sortBy_perm lt l).mem_iff

@[simp] theorem length_sortBy (l : List α) : (sortBy lt l).length = l.length :=
  (sortBy_perm lt l).length_eq

/-- The comparator compares ranks in a linear order. -/
def Ranks {κ : Type*} [LinearOrder κ] (rank : α → κ) : Prop := ∀ a b, lt a b = true ↔ rank a < rank b

variable {lt} {κ : Type*} [LinearOrder κ] {rank : α → κ}

theorem Ranks.eq_false_iff (hr : Ranks lt rank) {a b : α} : lt a b = false ↔ rank b ≤ rank a := by
  rw [← Bool.not_eq_true, hr, not_lt]

theorem Ranks.asymm (hr : Ranks lt rank) {a b : α} (h : lt a b = true) : lt b a = false :=
  hr.eq_false_iff.mpr ((hr a b).mp h).le

/-- Sorting puts elements in increasing order. -/
theorem Ranks.pairwise_le_sortBy (hr : Ranks lt rank) (l : List α) :
    (sortBy lt l).Pairwise fun a b => rank a ≤ rank b := by
  have : IsTrans α fun a b => lt b a = false :=
    ⟨fun a b c hab hbc => hr.eq_false_iff.mpr
      ((hr.eq_false_iff.mp hab).trans (hr.eq_false_iff.mp hbc))⟩
  have : Std.Total fun a b => lt b a = false :=
    ⟨fun a b => (le_total (rank a) (rank b)).imp hr.eq_false_iff.mpr hr.eq_false_iff.mpr⟩
  exact (List.pairwise_insertionSort (fun a b => lt b a = false) l).imp hr.eq_false_iff.mp

/-- Sorting puts elements of different ranks in strictly increasing order. -/
theorem Ranks.pairwise_sortBy (hr : Ranks lt rank) {l : List α} (hne : (l.map rank).Nodup) :
    (sortBy lt l).Pairwise fun a b => lt a b := by
  have hne' : (sortBy lt l).Pairwise fun a b => rank a ≠ rank b :=
    List.pairwise_map.mp (((sortBy_perm lt l).map rank).nodup_iff.mpr hne)
  refine ((hr.pairwise_le_sortBy l).and hne').imp fun {a b} h => (hr a b).mpr ?_
  exact lt_of_le_of_ne h.1 h.2

/-- Two lists with the same elements sort to the same list, if their ranks differ. -/
theorem Ranks.sortBy_eq_of_perm (hr : Ranks lt rank) {l l' : List α} (hp : l.Perm l')
    (hne : (l.map rank).Nodup) : sortBy lt l = sortBy lt l' := by
  have h := hr.pairwise_sortBy hne
  have h' := hr.pairwise_sortBy ((hp.map rank).nodup_iff.mp hne)
  refine List.Perm.eq_of_pairwise (fun a b _ _ hab hba => ?_) h h'
    (((sortBy_perm lt l).trans hp).trans (sortBy_perm lt l').symm)
  rw [hr.asymm hab] at hba; cases hba

/-- Sorting commutes with a map that keeps the comparator. -/
theorem map_sortBy {β : Type*} {lt' : β → β → Bool} (f : α → β) (hf : ∀ a b, lt' (f a) (f b) = lt a b)
    (l : List α) : (sortBy lt l).map f = sortBy lt' (l.map f) :=
  List.map_insertionSort _ _ f l fun a _ b _ => by rw [hf]

theorem filter_orderedInsert {r : α → α → Prop} [DecidableRel r] [IsTrans α r] (p : α → Bool)
    (a : α) {l : List α} (h : l.Pairwise r) : (l.orderedInsert r a).filter p =
      if p a then (l.filter p).orderedInsert r a else l.filter p := by
  have hfront {l : List α} (hl : ∀ b ∈ l, r a b) : l.orderedInsert r a = a :: l := by
    cases l with
    | nil => rfl
    | cons b l => exact List.orderedInsert_cons_of_le r l (hl b List.mem_cons_self)
  induction l with
  | nil => cases hp : p a <;> simp [hp]
  | cons b l ih =>
    obtain ⟨hb, hl⟩ := List.pairwise_cons.mp h
    by_cases hab : r a b
    · have hall : ∀ c ∈ (b :: l).filter p, r a c := by
        intro c hc
        rcases List.mem_cons.mp (List.mem_of_mem_filter hc) with rfl | hc
        · exact hab
        · exact IsTrans.trans a b c hab (hb c hc)
      rw [List.orderedInsert_cons_of_le r l hab, hfront hall, List.filter_cons]
    · rw [List.orderedInsert_of_not_le r l hab, List.filter_cons, ih hl, List.filter_cons]
      cases p b with
      | false => rfl
      | true =>
        rw [if_pos rfl, if_pos rfl, List.orderedInsert_of_not_le r _ hab]
        split <;> rfl

/-- Sorting keeps the order of the elements that pass a filter. -/
theorem Ranks.filter_sortBy (hr : Ranks lt rank) (p : α → Bool) (l : List α) :
    (sortBy lt l).filter p = sortBy lt (l.filter p) := by
  have htrans : IsTrans α fun a b => lt b a = false :=
    ⟨fun a b c hab hbc => hr.eq_false_iff.mpr
      ((hr.eq_false_iff.mp hab).trans (hr.eq_false_iff.mp hbc))⟩
  have htotal : Std.Total fun a b => lt b a = false :=
    ⟨fun a b => (le_total (rank a) (rank b)).imp hr.eq_false_iff.mpr hr.eq_false_iff.mpr⟩
  unfold sortBy
  induction l with
  | nil => rfl
  | cons a l ih =>
    rw [List.insertionSort_cons, filter_orderedInsert p a (List.pairwise_insertionSort _ l), ih,
      List.filter_cons]
    split <;> rfl

/-! ## Without repetitions -/

section Destutter

variable [DecidableEq α]

theorem find?_destutter' (p : α → Bool) (a : α) (l : List α) :
    (l.destutter' (· ≠ ·) a).find? p = (a :: l).find? p := by
  induction l generalizing a with
  | nil => rfl
  | cons b l ih =>
    by_cases hab : a = b
    · subst hab
      rw [List.destutter'_cons_neg _ (not_not.mpr rfl), ih]
      cases hp : p a <;> simp [hp]
    · rw [List.destutter'_cons_pos _ hab, List.find?_cons, ih b, ← List.find?_cons]

/-- Dropping repetitions keeps the first of every kind. -/
theorem find?_destutter (p : α → Bool) (l : List α) :
    (l.destutter (· ≠ ·)).find? p = l.find? p := by
  cases l with
  | nil => rfl
  | cons a l => exact find?_destutter' p a l

theorem mem_destutter {a : α} {l : List α} : a ∈ l.destutter (· ≠ ·) ↔ a ∈ l := by
  have hfind (l : List α) : a ∈ l ↔ (l.find? (· = a)).isSome = true := by
    rw [List.find?_isSome]
    simp
  rw [hfind, find?_destutter, ← hfind]

/-- Sorting and dropping repetitions puts elements of different ranks in strictly increasing
order. -/
theorem Ranks.pairwise_destutter_sortBy (hr : Ranks lt rank) {l : List α}
    (hinj : ∀ a ∈ l, ∀ b ∈ l, rank a = rank b → a = b) :
    ((sortBy lt l).destutter (· ≠ ·)).Pairwise fun a b => rank a < rank b := by
  have hstrict (m : List α) (hle : m.Pairwise fun a b => rank a ≤ rank b)
      (hne : m.IsChain (· ≠ ·)) (hinj : ∀ a ∈ m, ∀ b ∈ m, rank a = rank b → a = b) :
      m.Pairwise fun a b => rank a < rank b := by
    induction m with
    | nil => exact .nil
    | cons a m ih =>
      obtain ⟨hhead, htail⟩ := List.pairwise_cons.mp hle
      have ih := ih htail hne.tail fun b hb c hc =>
        hinj b (List.mem_cons_of_mem _ hb) c (List.mem_cons_of_mem _ hc)
      refine List.pairwise_cons.mpr ⟨fun b hb => ?_, ih⟩
      cases m with
      | nil => cases hb
      | cons c m =>
        -- The next element is above `a`, and nothing behind it is below it.
        have hne' : rank a ≠ rank c := fun heq => hne.rel
          (hinj a List.mem_cons_self c (List.mem_cons_of_mem _ List.mem_cons_self) heq)
        have hlt := lt_of_le_of_ne (hhead c List.mem_cons_self) hne'
        rcases List.mem_cons.mp hb with rfl | hb
        · exact hlt
        · exact hlt.trans ((List.pairwise_cons.mp ih).1 b hb)
  have hsub := (sortBy lt l).destutter_sublist (· ≠ ·)
  refine hstrict _ ((hr.pairwise_le_sortBy l).sublist hsub) (List.isChain_destutter _ _)
    fun a ha b hb => hinj a ((mem_sortBy _).mp (hsub.subset ha)) b ((mem_sortBy _).mp (hsub.subset hb))

/-- What is left after sorting depends on the elements, if no two of them have one rank. -/
theorem Ranks.destutter_sortBy_congr (hr : Ranks lt rank) {l l' : List α}
    (hmem : ∀ a, a ∈ l ↔ a ∈ l') (hinj : ∀ a ∈ l, ∀ b ∈ l, rank a = rank b → a = b) :
    (sortBy lt l).destutter (· ≠ ·) = (sortBy lt l').destutter (· ≠ ·) := by
  have h := hr.pairwise_destutter_sortBy hinj
  have h' := hr.pairwise_destutter_sortBy (l := l') fun a ha b hb =>
    hinj a ((hmem a).mpr ha) b ((hmem b).mpr hb)
  have hnodup {l : List α} (h : l.Pairwise fun a b => rank a < rank b) : l.Nodup :=
    h.imp fun hlt heq => hlt.ne (congrArg rank heq)
  refine List.Perm.eq_of_pairwise (fun a b _ _ hab hba => absurd hba hab.not_gt) h h' ?_
  refine (List.perm_ext_iff_of_nodup (hnodup h) (hnodup h')).mpr fun a => ?_
  rw [mem_destutter, mem_destutter, mem_sortBy, mem_sortBy, hmem]

end Destutter

/-- Of the elements of one rank, the first of a list comes first when it is sorted. -/
theorem Ranks.find?_sortBy_cons (hr : Ranks lt rank) {a : α} {p : α → Bool}
    (hp : ∀ b, p b = true ↔ rank b = rank a) (l : List α) :
    (sortBy lt (a :: l)).find? p = some a := by
  have hself : p a = true := (hp a).mpr rfl
  have hinsert (l : List α) :
      (l.orderedInsert (fun a b => lt b a = false) a).find? p = some a := by
    induction l with
    | nil => exact List.find?_cons_of_pos hself
    | cons b l ih =>
      rw [List.orderedInsert_cons]
      split
      · exact List.find?_cons_of_pos hself
      · rename_i hlt
        have hlt := (hr b a).mp (Bool.eq_true_of_not_eq_false hlt)
        rw [List.find?_cons_of_neg fun hb => hlt.ne ((hp b).mp hb)]
        exact ih
  exact hinsert (sortBy lt l)

end SortBy

end Sorting
