import Mathlib.Logic.Basic

/-!
# Runs of a deterministic system

A system is a state with a step function. `Run step ok` is the set of states that a run reaches
from the start, when every step satisfies `ok`: a condition on the state before the step and on the
label, and on the state after it.

* `Run.invariant`: what holds at the start and is kept by every step holds in every reached state.
* `Run.invariant_of`: the same, when the steps need another invariant that is known already.
* `Run.map`: a run of the part of a system that its steps do not look beyond.
* `Run.foldl`: a list of steps that satisfy `ok` is a run.
* `Run.admissible_congr`: two conditions that agree in the reached states allow the same lists of
  steps.
* `Run.kept_iff`: where a step keeps a property exactly if it satisfies a condition, so does a list
  of steps.
* `count`: how many steps of a list satisfy a condition.
* `log`: the steps of a list that satisfy a condition. Where these are the steps of another system,
  and the others do not show there, a run is a run of its log (`foldl_log`).
-/

namespace Runs

variable {σ α : Type*}

/-- The states that runs reach from a start. -/
inductive Run (start : σ → Prop) (step : σ → α → σ) (ok : σ → α → Prop) : σ → Prop
  | start {s : σ} (h : start s) : Run start step ok s
  | step {s : σ} (a : α) (h : Run start step ok s) (hok : ok s a) : Run start step ok (step s a)

variable {start : σ → Prop} {step : σ → α → σ} {ok ok' : σ → α → Prop} {P Q : σ → Prop}

theorem Run.invariant (hstart : ∀ s, start s → P s)
    (hstep : ∀ s a, P s → ok s a → P (step s a)) {s : σ} (h : Run start step ok s) : P s := by
  induction h with
  | start h => exact hstart _ h
  | step a _ hok ih => exact hstep _ a ih hok

theorem Run.invariant_of (hQ : ∀ s, Run start step ok s → Q s) (hstart : ∀ s, start s → P s)
    (hstep : ∀ s a, Q s → P s → ok s a → P (step s a)) {s : σ} (h : Run start step ok s) : P s := by
  induction h with
  | start h => exact hstart _ h
  | step a h hok ih => exact hstep _ a (hQ _ h) ih hok

theorem Run.mono (hok : ∀ s a, ok s a → ok' s a) {s : σ} (h : Run start step ok s) :
    Run start step ok' s := by
  induction h with
  | start h => exact .start h
  | step a _ h ih => exact .step a ih (hok _ _ h)

/-- A run of a system is a run of another one, where each state stands for one of the other. -/
theorem Run.map {τ : Type*} {f : σ → τ} {start' : τ → Prop} {step' : τ → α → τ}
    {ok' : τ → α → Prop} (hstart : ∀ s, start s → start' (f s))
    (hstep : ∀ s a, f (step s a) = step' (f s) a) (hok : ∀ s a, ok s a → ok' (f s) a) {s : σ}
    (h : Run start step ok s) : Run start' step' ok' (f s) := by
  induction h with
  | start h => exact .start (hstart _ h)
  | step a _ h ih =>
    rw [hstep]
    exact .step a ih (hok _ _ h)

/-- Every step of a list satisfies `ok`, from a state on. -/
def Admissible (step : σ → α → σ) (ok : σ → α → Prop) : σ → List α → Prop
  | _, [] => True
  | s, a :: l => ok s a ∧ Admissible step ok (step s a) l

theorem Run.foldl {s : σ} (h : Run start step ok s) {l : List α} (hl : Admissible step ok s l) :
    Run start step ok (l.foldl step s) := by
  induction l generalizing s with
  | nil => exact h
  | cons a l ih => exact ih (.step a h hl.1) hl.2

instance Admissible.decidable [∀ s a, Decidable (ok s a)] :
    (s : σ) → (l : List α) → Decidable (Admissible step ok s l)
  | _, [] => .isTrue trivial
  | s, a :: l =>
    have := Admissible.decidable (step s a) l
    inferInstanceAs (Decidable (ok s a ∧ _))

theorem Run.admissible_congr {p q : σ → α → Prop} {s : σ} (h : Run start step ok s)
    (hiff : ∀ s, Run start step ok s → ∀ a, ok s a → (p s a ↔ q s a)) (l : List α) :
    Admissible step (fun s a => ok s a ∧ p s a) s l ↔
      Admissible step (fun s a => ok s a ∧ q s a) s l := by
  induction l generalizing s with
  | nil => exact Iff.rfl
  | cons a l ih =>
    constructor
    · rintro ⟨⟨hok, hp⟩, hl⟩
      exact ⟨⟨hok, (hiff s h a hok).mp hp⟩, (ih (.step a h hok)).mp hl⟩
    · rintro ⟨⟨hok, hq⟩, hl⟩
      exact ⟨⟨hok, (hiff s h a hok).mpr hq⟩, (ih (.step a h hok)).mpr hl⟩

/-- A property holds all along a list of steps exactly if every step keeps it. -/
theorem Run.kept_iff {keeps : σ → α → Prop} {s : σ} (h : Run start step (fun _ _ => True) s)
    (hiff : ∀ s, Run start step (fun _ _ => True) s → P s → ∀ a, P (step s a) ↔ keeps s a)
    (hs : P s) (l : List α) :
    (∀ n, P ((l.take n).foldl step s)) ↔ Admissible step keeps s l := by
  induction l generalizing s with
  | nil => exact iff_of_true (fun n => by rwa [List.take_nil]) trivial
  | cons a l ih =>
    constructor
    · intro hl
      have ha : P (step s a) := hl 1
      exact ⟨(hiff s h hs a).mp ha, (ih (.step a h trivial) ha).mp fun n => hl (n + 1)⟩
    · rintro ⟨ha, hl⟩ n
      have ha : P (step s a) := (hiff s h hs a).mpr ha
      cases n with
      | zero => exact hs
      | succ n => exact (ih (.step a h trivial) ha).mpr hl n

/-! ## Counting -/

/-- How many steps of a list satisfy `p`, each in the state that it starts from. -/
def count (step : σ → α → σ) (p : σ → α → Bool) : σ → List α → Nat
  | _, [] => 0
  | s, a :: l => (p s a).toNat + count step p (step s a) l

theorem count_eq_zero {p : σ → α → Bool} {s : σ} {l : List α} :
    count step p s l = 0 ↔ Admissible step (fun s a => p s a = false) s l := by
  induction l generalizing s with
  | nil => exact iff_of_true rfl trivial
  | cons a l ih =>
    rw [count, Nat.add_eq_zero_iff, ih, Bool.toNat_eq_zero]
    rfl

/-! ## Logs -/

/-- The steps of a list that satisfy `p`, each in the state that it starts from. -/
def log (step : σ → α → σ) (p : σ → α → Bool) : σ → List α → List α
  | _, [] => []
  | s, a :: l =>
    if p s a then a :: log step p (step s a) l else log step p (step s a) l

/-- What is seen of a run is the run of its log, if a step that is in the log is seen as a step, and
another one is not seen. -/
theorem foldl_log {τ : Type*} {view : σ → τ} {spec : τ → α → τ} {p : σ → α → Bool}
    (hQ : ∀ s a, Q s → ok s a → Q (step s a))
    (h : ∀ s a, Q s → ok s a → view (step s a) = if p s a then spec (view s) a else view s)
    {s : σ} (hs : Q s) {l : List α} (hl : Admissible step ok s l) :
    view (l.foldl step s) = (log step p s l).foldl spec (view s) := by
  induction l generalizing s with
  | nil => rfl
  | cons a l ih =>
    obtain ⟨ha, hl⟩ := hl
    have hstep := h s a hs ha
    rw [List.foldl_cons, ih (hQ s a hs ha) hl, hstep, log]
    cases hp : p s a with
    | true => rfl
    | false => rfl

end Runs
