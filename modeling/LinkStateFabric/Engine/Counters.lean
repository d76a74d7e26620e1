import LinkStateFabric.Engine.EditLemmas

/-!
# Counting

An edit advances a list of counters one after the other. Where the list goes all the way, every
counter has grown by as often as it is named (`advanceAll_count`). Where it stops, the counters
before the exhausted one have grown (`advanceAll_stops`). Nothing else of the edit changes
(`advanceAll_withCounters`).
-/

namespace LinkState

namespace Edit

/-- The value of a counter. -/
def count (t : Edit) : Counter → Nat
  | .global => t.impl.globalGeneration.value
  | .evidence => t.entry.record.evidenceGeneration.value
  | .state => t.entry.record.stateGeneration.value
  | .globalState => t.impl.globalStateGeneration.value

/-- The counter is at its last value. -/
def Spent (t : Edit) (c : Counter) : Prop := t.count c = 2 ^ 64 - 1

instance (t : Edit) (c : Counter) : Decidable (t.Spent c) :=
  inferInstanceAs (Decidable (t.count c = 2 ^ 64 - 1))

variable {t u : Edit} {c : Counter} {cs : List Counter}

theorem spent_global : t.Spent .global ↔ t.impl.globalGeneration.saturated = true := by
  simp [Spent, count, StrongGeneration.saturated]

theorem spent_evidence : t.Spent .evidence ↔ t.entry.record.evidenceGeneration.saturated = true := by
  simp [Spent, count, StrongGeneration.saturated]

theorem spent_state : t.Spent .state ↔ t.entry.record.stateGeneration.saturated = true := by
  simp [Spent, count, StrongGeneration.saturated]

theorem spent_globalState : t.Spent .globalState ↔ t.impl.globalStateGeneration.saturated = true := by
  simp [Spent, count, StrongGeneration.saturated]

theorem advance_eq_none : t.advance c = none ↔ t.Spent c := by
  cases c <;> simp only [advance, Option.map_eq_none_iff, StrongGeneration.next_eq_none,
    spent_global, spent_evidence, spent_state, spent_globalState]

theorem advance_withCounters (h : t.advance c = some u) :
    ∃ g gs e s, u = t.withCounters g gs e s := by
  cases c <;>
  · simp only [advance, Option.map_eq_some_iff] at h
    obtain ⟨_, -, rfl⟩ := h
    exact ⟨_, _, _, _, rfl⟩

theorem advance_count (h : t.advance c = some u) (c' : Counter) :
    u.count c' = t.count c' + if c = c' then 1 else 0 := by
  cases c <;>
  · simp only [advance, Option.map_eq_some_iff] at h
    obtain ⟨g, hg, rfl⟩ := h
    have := StrongGeneration.next_eq_some hg
    cases c' <;> simp [count, this]

theorem advanceAll_withCounters (cs : List Counter) (t : Edit) :
    ∃ g gs e s, (t.advanceAll cs).1 = t.withCounters g gs e s := by
  induction cs generalizing t with
  | nil => exact ⟨_, _, _, _, rfl⟩
  | cons c cs ih =>
    unfold advanceAll
    split
    · exact ⟨_, _, _, _, rfl⟩
    rename_i t' h
    obtain ⟨_, _, _, _, rfl⟩ := advance_withCounters h
    exact ih _

theorem advanceAll_count (h : t.advanceAll cs = (u, true)) (c : Counter) :
    u.count c = t.count c + cs.count c := by
  induction cs generalizing t with
  | nil => cases h; rfl
  | cons c' cs ih =>
    unfold advanceAll at h
    split at h
    · cases h
    rename_i t' hc
    rw [ih h, advance_count hc, List.count_cons]
    by_cases hcc : c' = c
    · simp only [hcc, if_true, beq_self_eq_true]
      omega
    · simp [hcc]

/-- The counters stop at the first that is exhausted. -/
theorem advanceAll_stops (h : t.advanceAll cs = (u, false)) : ∃ before c after,
    cs = before ++ c :: after ∧ t.advanceAll before = (u, true) ∧ u.Spent c := by
  induction cs generalizing t with
  | nil => cases h
  | cons c cs ih =>
    unfold advanceAll at h
    split at h
    · rename_i hc
      cases h
      exact ⟨[], c, cs, rfl, rfl, advance_eq_none.mp hc⟩
    · rename_i t' hc
      obtain ⟨before, c', after, rfl, hbefore, hspent⟩ := ih h
      refine ⟨c :: before, c', after, rfl, ?_, hspent⟩
      rw [advanceAll, hc]
      exact hbefore

/-- Counters that are named once all advance when none is exhausted. -/
theorem advanceAll_of_not_spent (hnodup : cs.Nodup) (h : ∀ c ∈ cs, ¬ t.Spent c) :
    ∃ u, t.advanceAll cs = (u, true) := by
  rcases heq : t.advanceAll cs with ⟨u, b⟩
  cases b with
  | true => exact ⟨u, rfl⟩
  | false =>
    obtain ⟨before, c, after, rfl, hbefore, hspent⟩ := advanceAll_stops heq
    have hc : before.count c = 0 := List.count_eq_zero.mpr fun hmem =>
      (List.nodup_append.mp hnodup).2.2 c hmem c List.mem_cons_self rfl
    refine absurd ?_ (h c (by simp))
    rw [Spent, ← hspent, advanceAll_count hbefore, hc, Nat.add_zero]

/-- A counter that is exhausted at the start is never passed. -/
theorem not_spent_of_advanceAll (h : t.advanceAll cs = (u, true)) (hc : c ∈ cs) : ¬ t.Spent c := by
  intro hspent
  have hcount := advanceAll_count h c
  have hpos := List.count_pos_iff.mpr hc
  have hbounded : u.count c < 2 ^ 64 := by
    cases c <;> exact StrongGeneration.bounded _
  rw [Spent] at hspent
  omega

/-- Counters that are named once all advance exactly when none is exhausted. -/
theorem advanceAll_snd (hnodup : cs.Nodup) : (t.advanceAll cs).2 = true ↔ ∀ c ∈ cs, ¬ t.Spent c := by
  constructor
  · intro h c hc
    exact not_spent_of_advanceAll (Prod.ext rfl h : t.advanceAll cs = (_, true)) hc
  · intro h
    obtain ⟨u, hu⟩ := advanceAll_of_not_spent hnodup h
    rw [hu]

/-- Counters that halt have not advanced at all, or the first of them has. -/
theorem advanceAll_halts (h : t.advanceAll (c :: cs) = (u, false)) :
    t.Spent c ∧ u = t ∨ ¬ t.Spent c ∧ t.count c < u.count c := by
  unfold advanceAll at h
  split at h
  · rename_i hc
    cases h
    exact .inl ⟨advance_eq_none.mp hc, rfl⟩
  · rename_i t' hc
    refine .inr ⟨fun hspent => ?_, ?_⟩
    · rw [advance_eq_none.mpr hspent] at hc
      cases hc
    · have hstep := advance_count hc c
      rw [if_pos rfl] at hstep
      obtain ⟨before, _, _, -, hbefore, -⟩ := advanceAll_stops h
      have := advanceAll_count hbefore c
      omega

/-- A live link is resolved again unless its state is to change and a state generation is
exhausted. -/
theorem recompute_ok_iff {trigger : TransitionTrigger} (hlive : t.entry.record.state ≠ .retired)
    (ht : trigger ∈ inboundTriggers .revalidationRequired) :
    (prepareCommit t.impl t.entry t.entry.current trigger).ok = true ↔
      ¬ ((resolveLinkState t.entry.current t.entry.record).state ≠ t.entry.record.state ∧
        (t.Spent .state ∨ t.Spent .globalState)) := by
  have hsound := resolveLinkState_sound t.entry.current t.entry.record
  have hmem := effectiveTrigger_mem hsound.2 ht
  rw [← hsound.1] at hmem
  rw [prepareCommit_ok_iff hlive hmem, ne_eq, ne_eq, StrongGeneration.next_eq_none,
    StrongGeneration.next_eq_none, ← spent_state, ← spent_globalState]
  tauto

end Edit

end LinkState
