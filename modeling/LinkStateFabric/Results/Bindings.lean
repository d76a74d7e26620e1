import LinkStateFabric.Engine.Dispositions
import LinkStateFabric.Engine.Outcomes

/-!
# How the lists of a binding are written

* `Rewrites`: a list in another order, with entries repeated.
* `bindLink_committed`: a binding that commits is bound in its normal form.
* `bind_rewritten_iff`: a live link is bound again under every rewriting of its binding, exactly if the
  binding names each backing link at one generation. References are sorted by their link and
  compared with their generation, so that the normal form of two generations of one link follows
  the order in which they are written.
-/

namespace LinkState

open Sorting

/-! ## Rewriting -/

/-- The second list has the entries of the first, in any order, with any of them repeated. -/
structure Rewrites {α : Type} (l l' : List α) : Prop where
  subperm : l.Subperm l'
  subset : l' ⊆ l

theorem Rewrites.mem_iff {α : Type} {l l' : List α} (h : Rewrites l l') (a : α) : a ∈ l ↔ a ∈ l' :=
  ⟨fun ha => h.subperm.subset ha, fun ha => h.subset ha⟩

theorem Rewrites.of_perm {α : Type} {l l' : List α} (h : l.Perm l') : Rewrites l l' :=
  ⟨h.subperm, h.symm.subset⟩

/-- The binding with its lists replaced. -/
def TopologyBinding.rewrite (binding : TopologyBinding) (members : List LinkId)
    (backing : List BackingReference) : TopologyBinding :=
  { binding with memberLinks := members, backingLinks := backing }

/-- The binding names each backing link at one generation. -/
def TopologyBinding.Pinned (binding : TopologyBinding) : Prop :=
  ∀ a ∈ binding.backingLinks, ∀ b ∈ binding.backingLinks, a.link = b.link → a = b

instance (binding : TopologyBinding) : Decidable binding.Pinned :=
  inferInstanceAs (Decidable (∀ a ∈ _, ∀ b ∈ _, _))

/-! ## Normal forms -/

theorem ranks_backing :
    Ranks (fun lhs rhs : BackingReference => decide (lhs.link < rhs.link)) (·.link) :=
  fun _ _ => decide_eq_true_iff

theorem sortLinks_congr {l l' : List LinkId} (h : ∀ a, a ∈ l ↔ a ∈ l') : sortLinks l = sortLinks l' := by
  have hsort (l : List LinkId) : l.insertionSort (· ≤ ·) = sortBy (fun a b => decide (a < b)) l := by
    unfold sortBy
    simp only [decide_eq_false_iff_not, not_lt]
  have hranks : Ranks (fun a b : LinkId => decide (a < b)) id := fun _ _ => decide_eq_true_iff
  unfold sortLinks
  rw [hsort, hsort]
  exact hranks.destutter_sortBy_congr h fun _ _ _ _ heq => heq

/-- The normal form of a binding that names each backing link at one generation does not depend on
how its lists are written. -/
theorem normalize_rewrite {binding : TopologyBinding} (h : binding.Pinned) {members : List LinkId}
    {backing : List BackingReference} (hmembers : Rewrites binding.memberLinks members)
    (hbacking : Rewrites binding.backingLinks backing) :
    (binding.rewrite members backing).normalize = binding.normalize := by
  unfold TopologyBinding.normalize TopologyBinding.rewrite
  dsimp only
  rw [sortLinks_congr hmembers.mem_iff, ranks_backing.destutter_sortBy_congr hbacking.mem_iff h]

/-- The first reference to a link comes first in the normal form. -/
theorem find?_normalize (binding : TopologyBinding) (members : List LinkId) (a : BackingReference)
    (rest : List BackingReference) :
    (binding.rewrite members (a :: rest)).normalize.backingLinks.find? (·.link = a.link) = some a := by
  refine (find?_destutter _ _).trans ?_
  exact ranks_backing.find?_sortBy_cons (fun _ => decide_eq_true_iff) rest

/-- Where a binding names one link at two generations, the order of the two shows. -/
theorem exists_rewrite_ne {binding : TopologyBinding} (h : ¬ binding.Pinned)
    (bound : TopologyBinding) : ∃ backing, Rewrites binding.backingLinks backing ∧
      (binding.rewrite binding.memberLinks backing).normalize.backingLinks ≠ bound.backingLinks := by
  unfold TopologyBinding.Pinned at h
  push Not at h
  obtain ⟨a, ha, b, hb, hlink, hne⟩ := h
  have hfirst {c : BackingReference} (hc : c ∈ binding.backingLinks) :
      Rewrites binding.backingLinks (c :: binding.backingLinks.erase c) :=
    .of_perm (List.perm_cons_erase hc)
  by_contra hno
  push Not at hno
  have hfinda := find?_normalize binding binding.memberLinks a (binding.backingLinks.erase a)
  have hfindb := find?_normalize binding binding.memberLinks b (binding.backingLinks.erase b)
  rw [hno _ (hfirst ha)] at hfinda
  rw [hno _ (hfirst hb), ← hlink, hfinda] at hfindb
  exact hne (Option.some.inj hfindb)

/-! ## Binding -/

section

variable {impl : Impl} {request : BindLinkRequest}

theorem bindNew_binding {binding : TopologyBinding}
    (h : (impl.bindNew binding).2.outcome.code = .committed) :
    ∃ entry, (impl.bindNew binding).1.entryOf binding.link = some entry ∧
      entry.record.binding = binding := by
  unfold Impl.bindNew at h ⊢
  split at h
  · cases h
  rename_i hcapacity
  rw [if_neg hcapacity]
  split at h
  · cases h
  rename_i t hc
  have hcount := Edit.advanceAll_advances [.global] (by decide) ⟨impl, newEntry binding⟩
  rw [hc] at hcount
  obtain ⟨_, _, _, _, _, -, -, heq⟩ := hcount.bind_eq
  dsimp only
  rw [heq, commit_entryOf, if_pos rfl]
  exact ⟨_, rfl, rfl⟩

theorem applyRebinding_binding (link : LinkId) (entry : LinkEntry) (binding : TopologyBinding)
    (reason : Text) : ∃ entry',
      (Edit.applyRebinding ⟨impl, entry⟩ link binding reason).1.entryOf link = some entry' ∧
      entry'.record.binding = binding := by
  obtain ⟨t, hsteps, heq⟩ :=
    @applyRebinding_rebound (fun _ => False) impl link entry binding reason
  have hbinding : t.entry.record.binding = binding :=
    congrArg Prod.snd (EditSteps.shape id id hsteps)
  have hcommit : (t.commit link).shape link = some t.entry.shape := by
    unfold Impl.shape
    rw [commit_entryOf, if_pos rfl]
    rfl
  have hshape : (Edit.applyRebinding ⟨impl, entry⟩ link binding reason).1.shape link =
      some t.entry.shape := by
    rcases heq with heq | heq
    · rw [heq, hcommit]
    · rw [heq, ← hcommit]
      have hsteps : Steps (fun _ => False) (t.commit link) _ :=
        invalidateStaleDependents_steps (t.commit link) t.entry.record.binding.link
      exact hsteps.shape id id id link
  obtain ⟨entry', hentry', hsame⟩ := Option.map_eq_some_iff.mp hshape
  exact ⟨entry', hentry', (congrArg Prod.snd hsame).trans hbinding⟩

/-- A binding that commits is bound in its normal form. -/
theorem bindLink_committed (h : (impl.bindLink request).2.outcome.code = .committed) :
    validBinding request.binding.normalize = none ∧
    ∃ entry, (impl.bindLink request).1.entryOf request.binding.link = some entry ∧
      entry.record.binding = request.binding.normalize := by
  rcases bindLink_outcome impl request with hdeclined | ⟨-, hcode⟩ | ⟨hbindable, heq⟩ |
    ⟨entry, hvalid, -, heq⟩
  · exact absurd h (hdeclined.code_ne rfl)
  · rw [h] at hcode
    cases hcode
  · rw [heq] at h ⊢
    exact ⟨hbindable.valid, bindNew_binding h⟩
  · rw [heq]
    exact ⟨hvalid, applyRebinding_binding _ _ _ _⟩

/-- When a link that is bound at the topology generation of a binding takes it for its own. -/
theorem bindLink_again {entry : LinkEntry} (hentry : impl.entryOf request.binding.link = some entry)
    (htopology : request.binding.topologyGeneration = entry.record.binding.topologyGeneration) :
    ((impl.bindLink request).1 = impl ∧ (impl.bindLink request).2.outcome.code = .idempotent) ↔
      validBinding request.binding.normalize = none ∧ entry.record.state ≠ .retired ∧
        sameStructure entry.record.binding request.binding.normalize = true := by
  have hentry : impl.entryOf request.binding.normalize.link = some entry := hentry
  have htopology : request.binding.normalize.topologyGeneration =
      entry.record.binding.topologyGeneration := htopology
  unfold Impl.bindLink
  dsimp only
  split
  · rename_i hinvalid
    exact iff_of_false (fun h => nomatch h.2) fun h => nomatch hinvalid.symm.trans h.1
  rename_i hvalid
  rw [hentry]
  dsimp only
  split
  · rename_i hretired
    exact iff_of_false (fun h => nomatch h.2) fun h => h.2.1 hretired
  rename_i hlive
  rw [if_neg (not_lt.mpr htopology.ge)]
  split
  · rename_i hsame
    exact iff_of_true ⟨rfl, rfl⟩ ⟨hvalid, hlive, hsame⟩
  · rename_i hsame
    exact iff_of_false (fun h => nomatch h.2) fun h => hsame h.2.2

/-- A binding that was committed, and that the link still has, is idempotent however its lists are
written, exactly if the link is live and the binding names each backing link at one generation. -/
theorem bind_rewritten_iff {before : Impl} {binding : TopologyBinding} {entry₀ entry : LinkEntry}
    (hcommitted : (before.bindLink ⟨binding⟩).2.outcome.code = .committed)
    (hwas : (before.bindLink ⟨binding⟩).1.entryOf binding.link = some entry₀)
    (hentry : impl.entryOf binding.link = some entry)
    (hstill : entry.record.binding = entry₀.record.binding) :
    (∀ members backing, Rewrites binding.memberLinks members →
      Rewrites binding.backingLinks backing →
      (impl.bindLink ⟨binding.rewrite members backing⟩).1 = impl ∧
      (impl.bindLink ⟨binding.rewrite members backing⟩).2.outcome.code = .idempotent) ↔
    entry.record.state ≠ .retired ∧ binding.Pinned := by
  obtain ⟨hvalid, e, he, hbinding⟩ := bindLink_committed hcommitted
  obtain rfl : entry₀ = e := Option.some.inj (hwas.symm.trans he)
  have hbound : entry.record.binding = binding.normalize := hstill.trans hbinding
  have hagain (members : List LinkId) (backing : List BackingReference) :=
    @bindLink_again impl ⟨binding.rewrite members backing⟩ entry hentry
      (congrArg (·.topologyGeneration) hbound).symm
  constructor
  · intro h
    refine ⟨((hagain _ _).mp (h _ _ (.of_perm (.refl _)) (.of_perm (.refl _)))).2.1, ?_⟩
    -- Of two references to one link, the one that is written first is kept.
    by_contra hunpinned
    obtain ⟨backing, hrewrites, hne⟩ := exists_rewrite_ne hunpinned entry.record.binding
    obtain ⟨-, -, hsame⟩ := (hagain _ _).mp (h _ backing (.of_perm (.refl _)) hrewrites)
    unfold sameStructure at hsame
    simp only [Bool.and_eq_true, decide_eq_true_eq] at hsame
    exact hne hsame.2.symm
  · rintro ⟨hlive, hpinned⟩ members backing hmembers hbacking
    have hnormal := normalize_rewrite hpinned hmembers hbacking
    refine (hagain members backing).mpr ⟨hnormal ▸ hvalid, hlive, ?_⟩
    rw [hnormal, hbound]
    simp [sameStructure]

end

namespace Sample

def member : LinkId := .fromValidated (lit "link-0")

/-- An aggregate of two links that depends on one of them. -/
def aggregate : TopologyBinding :=
  { binding with memberLinks := [link, member], backingLinks := [⟨member, .fromValue 1⟩] }

/-- The same link, with the dependency at two generations. -/
def twicePinned : TopologyBinding :=
  { binding with backingLinks := [⟨member, .fromValue 1⟩, ⟨member, .fromValue 2⟩] }

/-- The engine in which a binding is the first operation. -/
def bound (binding : TopologyBinding) : Impl := (Impl.create {}).apply (.bindLink ⟨binding⟩)

end Sample

theorem bind_rewritten_sample : ((Sample.bound Sample.aggregate).bindLink
    ⟨Sample.aggregate.rewrite [Sample.member, Sample.link, Sample.member]
      [⟨Sample.member, .fromValue 1⟩, ⟨Sample.member, .fromValue 1⟩]⟩).2.outcome.code =
        .idempotent := by
  have hsome : ((Sample.bound Sample.aggregate).entryOf Sample.link).isSome = true := by decide
  obtain ⟨entry, hentry⟩ := Option.isSome_iff_exists.mp hsome
  have hlive : ∀ e ∈ (Sample.bound Sample.aggregate).entryOf Sample.link,
      e.record.state ≠ .retired := by decide
  have hpinned : Sample.aggregate.Pinned := by decide
  exact ((@bind_rewritten_iff (Sample.bound Sample.aggregate) (.create {}) Sample.aggregate entry
    entry (by decide) hentry hentry rfl).mpr ⟨hlive entry hentry, hpinned⟩ _ _
      ⟨by decide, by decide⟩ ⟨by decide, by decide⟩).2

/-- The dependencies of a committed binding, written in the other order, are refused. -/
theorem bind_reordered_refused :
    (Sample.bound Sample.twicePinned).Reachable ∧
    ((Impl.create {}).bindLink ⟨Sample.twicePinned⟩).2.outcome.code = .committed ∧
    Rewrites Sample.twicePinned.backingLinks Sample.twicePinned.backingLinks.reverse ∧
    ((Sample.bound Sample.twicePinned).bindLink ⟨Sample.twicePinned.rewrite
      Sample.twicePinned.memberLinks Sample.twicePinned.backingLinks.reverse⟩).2.outcome.code =
        .malformedRequest :=
  ⟨.step _ (.start ⟨{}, rfl⟩) trivial, by decide, .of_perm (List.reverse_perm _).symm, by decide⟩

end LinkState
