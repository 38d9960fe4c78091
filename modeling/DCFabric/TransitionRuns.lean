import Mathlib

namespace TransitionRuns

variable {σ α : Type}

/-- Runs of a partial step function along actions that satisfy `C` in the state they are taken in. -/
inductive Run (step : σ → α → Option σ) (C : σ → α → Prop) (s : σ) : σ → Prop
  | refl : Run step C s s
  | tail {t u : σ} {a : α} (run : Run step C s t) (hc : C t a) (he : step t a = some u) :
      Run step C s u

abbrev Reaches (step : σ → α → Option σ) : σ → σ → Prop := Run step (fun _ _ => True)

def exec (step : σ → α → Option σ) : σ → List α → Option σ
  | s, [] => some s
  | s, a :: as => (step s a).bind (exec step · as)

/-- Every action of the list is taken in a state where it satisfies `C`. -/
def Along (step : σ → α → Option σ) (C : σ → α → Prop) : σ → List α → Prop
  | _, [] => True
  | s, a :: as => C s a ∧ ∀ s' ∈ step s a, Along step C s' as

def guarded (step : σ → α → Option σ) (C : σ → α → Prop) [∀ s a, Decidable (C s a)] (s : σ) (a : α) : Option σ :=
  if C s a then step s a else none

variable {step : σ → α → Option σ} {C D : σ → α → Prop} {s t u : σ}

theorem Run.invariant {P : σ → Prop} (hstep : ∀ t a u, P t → C t a → step t a = some u → P u)
    (h : Run step C s t) (hs : P s) : P t := by
  induction h with
  | refl => exact hs
  | tail run hc he ih => exact hstep _ _ _ ih hc he

theorem Run.mono (hcd : ∀ t a, C t a → D t a) (h : Run step C s t) : Run step D s t := by
  induction h with
  | refl => exact .refl
  | tail run hc he ih => exact ih.tail (hcd _ _ hc) he

theorem Run.head {a : α} (hc : C s a) (he : step s a = some t) (h : Run step C t u) :
    Run step C s u := by
  induction h with
  | refl => exact Run.refl.tail hc he
  | tail run hc' he' ih => exact ih.tail hc' he'

theorem exec_append {as bs : List α} : exec step s (as ++ bs) = (exec step s as).bind (exec step · bs) := by
  induction as generalizing s with
  | nil => rfl
  | cons a as ih =>
    rw [List.cons_append, exec, exec, Option.bind_assoc]
    congr 1
    funext t
    exact ih

theorem Reaches.of_exec {as : List α} (h : exec step s as = some t) : Reaches step s t := by
  induction as generalizing s with
  | nil =>
    obtain rfl : s = t := by simpa only [exec, Option.some.injEq] using h
    exact .refl
  | cons a as ih =>
    obtain ⟨s', hs', he⟩ := Option.bind_eq_some_iff.mp h
    exact Run.head trivial hs' (ih he)

theorem Run.of_along {as : List α} (hc : Along step C s as) (h : exec step s as = some t) : Run step C s t := by
  induction as generalizing s with
  | nil =>
    obtain rfl : s = t := by simpa only [exec, Option.some.injEq] using h
    exact .refl
  | cons a as ih =>
    obtain ⟨s', hs', he⟩ := Option.bind_eq_some_iff.mp h
    exact Run.head hc.1 hs' (ih (hc.2 s' hs') he)

theorem Run.of_exec [∀ s a, Decidable (C s a)] {as : List α} (h : exec (guarded step C) s as = some t) :
    Run step C s t := by
  induction as generalizing s with
  | nil =>
    obtain rfl : s = t := by simpa only [exec, Option.some.injEq] using h
    exact .refl
  | cons a as ih =>
    obtain ⟨s', hs', he⟩ := Option.bind_eq_some_iff.mp h
    by_cases hc : C s a
    · rw [guarded, if_pos hc] at hs'
      exact Run.head hc hs' (ih he)
    · rw [guarded, if_neg hc] at hs'
      cases hs'

end TransitionRuns
