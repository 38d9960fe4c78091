import DCFabric.TransitionRuns

namespace AnsweredCalls

open TransitionRuns

variable {σ τ α β : Type}

/-- The calls of the list are answered as the specification answers them, one after the other. -/
def Follows (step : σ → α → Option (β × σ)) (spec : τ → α → β × τ) : σ → τ → List α → Prop
  | _, _, [] => True
  | s, q, a :: as => ∃ s', step s a = some ((spec q a).1, s') ∧ Follows step spec s' (spec q a).2 as

def next (step : σ → α → Option (β × σ)) (s : σ) (a : α) : Option σ := (step s a).map Prod.snd

variable {step : σ → α → Option (β × σ)} {spec : τ → α → β × τ} {ok : σ → α → Prop} {R : σ → τ → Prop} {s : σ} {q : τ}
  {as : List α}

/-- Related states answer the calls that are allowed, and no others, as the specification does. -/
structure Simulates (step : σ → α → Option (β × σ)) (spec : τ → α → β × τ) (ok : σ → α → Prop) (R : σ → τ → Prop) :
    Prop where
  answers : ∀ s q a, R s q → ok s a → ∃ s', step s a = some ((spec q a).1, s') ∧ R s' (spec q a).2
  allowed : ∀ s q a s', R s q → step s a = some ((spec q a).1, s') → ok s a

theorem Simulates.follows_iff_along (h : Simulates step spec ok R) (hs : R s q) :
    Follows step spec s q as ↔ Along (next step) ok s as := by
  induction as generalizing s q with
  | nil => exact Iff.rfl
  | cons a as ih =>
    constructor
    · rintro ⟨s', hstep, hrest⟩
      have hok := h.allowed s q a s' hs hstep
      obtain ⟨t, hstep', ht⟩ := h.answers s q a hs hok
      rw [hstep] at hstep'
      cases hstep'
      refine ⟨hok, fun t hnext => ?_⟩
      obtain rfl : s' = t := by simpa [next, hstep] using hnext
      exact (ih ht).mp hrest
    · rintro ⟨hok, hrest⟩
      obtain ⟨s', hstep, hs'⟩ := h.answers s q a hs hok
      refine ⟨s', hstep, (ih hs').mpr (hrest s' ?_)⟩
      rw [next, hstep]
      rfl

theorem Simulates.follows_iff_forall {fits : α → Prop} (h : Simulates step spec (fun _ => fits) R) (hs : R s q) :
    Follows step spec s q as ↔ ∀ a ∈ as, fits a := by
  induction as generalizing s q with
  | nil => exact iff_of_true trivial (List.forall_mem_nil _)
  | cons a as ih =>
    rw [List.forall_mem_cons]
    constructor
    · rintro ⟨s', hstep, hrest⟩
      have hfits := h.allowed s q a s' hs hstep
      obtain ⟨t, hstep', ht⟩ := h.answers s q a hs hfits
      rw [hstep] at hstep'
      cases hstep'
      exact ⟨hfits, (ih ht).mp hrest⟩
    · rintro ⟨hfits, hrest⟩
      obtain ⟨s', hstep, hs'⟩ := h.answers s q a hs hfits
      exact ⟨s', hstep, (ih hs').mpr hrest⟩

end AnsweredCalls
