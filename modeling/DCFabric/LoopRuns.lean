import Mathlib

namespace LoopRuns

/-- What one pass through the body of a loop comes to. -/
inductive Pass (σ ε ρ : Type)
  | fault
  | leave (result : ρ)
  | next (event : ε) (state : σ)

/-- The loop that starts in `s` comes to its end with the result `r`, after passes with the events `es`. -/
inductive Ends {σ ε ρ : Type} (body : σ → Pass σ ε ρ) : σ → List ε → ρ → Prop
  | leave {s : σ} {r : ρ} (h : body s = .leave r) : Ends body s [] r
  | next {s t : σ} {e : ε} {es : List ε} {r : ρ} (h : body s = .next e t) (ht : Ends body t es r) :
      Ends body s (e :: es) r

/-- Passes of a loop that may go on. -/
inductive Passes {σ ε ρ : Type} (body : σ → Pass σ ε ρ) : σ → List ε → σ → Prop
  | refl {s : σ} : Passes body s [] s
  | next {s t u : σ} {e : ε} {es : List ε} (h : body s = .next e t) (ht : Passes body t es u) :
      Passes body s (e :: es) u

def run {σ ε ρ : Type} (body : σ → Pass σ ε ρ) : ℕ → σ → Option (List ε × ρ)
  | 0, _ => none
  | fuel + 1, s =>
    match body s with
    | .fault => none
    | .leave r => some ([], r)
    | .next e t => (run body fuel t).map fun (es, r) => (e :: es, r)

variable {σ ε ρ : Type} {body : σ → Pass σ ε ρ} {s t : σ} {e : ε} {es es' : List ε} {r r' : ρ} {I : σ → Prop}

theorem Ends.exists_run (h : Ends body s es r) : ∃ fuel, run body fuel s = some (es, r) := by
  induction h with
  | leave h => exact ⟨1, by simp [run, h]⟩
  | next h ht ih =>
    obtain ⟨fuel, hf⟩ := ih
    exact ⟨fuel + 1, by simp [run, h, hf]⟩

/-- More fuel does not change how a loop ends. -/
theorem Ends.run_eq (h : Ends body s es r) : ∃ n, ∀ fuel, n ≤ fuel → run body fuel s = some (es, r) := by
  induction h with
  | leave h =>
    refine ⟨1, fun fuel hle => ?_⟩
    obtain ⟨fuel, rfl⟩ := Nat.exists_eq_add_of_le' hle
    simp [run, h]
  | next h ht ih =>
    obtain ⟨n, hn⟩ := ih
    refine ⟨n + 1, fun fuel hle => ?_⟩
    obtain ⟨fuel, rfl⟩ := Nat.exists_eq_add_of_le' (Nat.le_of_add_left_le hle)
    simp [run, h, hn fuel (by omega)]

theorem Ends.run_of_length {fuel : ℕ} (h : Ends body s es r) (hfuel : es.length < fuel) :
    run body fuel s = some (es, r) := by
  induction h generalizing fuel with
  | leave h =>
    obtain ⟨fuel, rfl⟩ := Nat.exists_eq_add_of_le' (Nat.one_le_of_lt hfuel)
    simp [run, h]
  | next h ht ih =>
    obtain ⟨fuel, rfl⟩ := Nat.exists_eq_add_of_le' (Nat.one_le_of_lt hfuel)
    simp [run, h, ih (Nat.lt_of_succ_lt_succ hfuel)]

theorem Ends.result {P : ρ → Prop} (h : Ends body s es r) (hnext : ∀ s e t, I s → body s = .next e t → I t)
    (hleave : ∀ s r, I s → body s = .leave r → P r) (hs : I s) : P r := by
  induction h with
  | leave h => exact hleave _ _ hs h
  | next h ht ih => exact ih (hnext _ _ _ hs h)

theorem Passes.invariant (h : Passes body s es t) (hnext : ∀ s e t, I s → body s = .next e t → I t) (hs : I s) :
    I t := by
  induction h with
  | refl => exact hs
  | next h ht ih => exact ih (hnext _ _ _ hs h)

theorem Passes.concat {u : σ} (h : Passes body s es t) (ht : body t = .next e u) : Passes body s (es ++ [e]) u := by
  induction h with
  | refl => exact .next ht .refl
  | next h _ ih => exact .next h (ih ht)

theorem Passes.events {P : ε → Prop} (h : Passes body s es t) (hnext : ∀ s e t, body s = .next e t → P e) :
    ∀ e ∈ es, P e := by
  induction h with
  | refl => exact List.forall_mem_nil _
  | next h ht ih => exact List.forall_mem_cons.mpr ⟨hnext _ _ _ h, ih⟩

theorem Ends.of_run {fuel : ℕ} (h : run body fuel s = some (es, r)) : Ends body s es r := by
  induction fuel generalizing s es with
  | zero => cases h
  | succ fuel ih =>
    rw [run] at h
    cases hb : body s with
    | fault => simp [hb] at h
    | leave r' =>
      obtain ⟨rfl, rfl⟩ : [] = es ∧ r' = r := by simpa [hb] using h
      exact .leave hb
    | next e t =>
      obtain ⟨es', hr, rfl⟩ : ∃ es', run body fuel t = some (es', r) ∧ e :: es' = es := by simpa [hb] using h
      exact .next hb (ih hr)

theorem Ends.of_leave (h : Ends body s es r) (hs : body s = .leave r') : es = [] ∧ r = r' := by
  cases h with
  | leave h =>
    rw [hs] at h
    cases h
    exact ⟨rfl, rfl⟩
  | next h ht =>
    rw [hs] at h
    cases h

theorem Ends.of_next (h : Ends body s es r) (hs : body s = .next e t) : ∃ es', es = e :: es' ∧ Ends body t es' r := by
  cases h with
  | leave h =>
    rw [hs] at h
    cases h
  | next h ht =>
    rw [hs] at h
    cases h
    exact ⟨_, rfl, ht⟩

theorem Ends.not_fault (h : Ends body s es r) : body s ≠ .fault := by
  intro hs
  cases h with
  | leave h =>
    rw [hs] at h
    cases h
  | next h ht =>
    rw [hs] at h
    cases h

theorem Ends.unique (h : Ends body s es r) (h' : Ends body s es' r') : es = es' ∧ r = r' := by
  induction h generalizing es' with
  | leave h =>
    obtain ⟨rfl, rfl⟩ := h'.of_leave h
    exact ⟨rfl, rfl⟩
  | next h ht ih =>
    obtain ⟨es'', rfl, ht'⟩ := h'.of_next h
    obtain ⟨rfl, rfl⟩ := ih ht'
    exact ⟨rfl, rfl⟩

/-- A loop ends when every pass keeps an invariant, meets no fault and brings a measure down. -/
theorem ends_of_measure (μ : σ → ℕ) (hfault : ∀ s, I s → body s ≠ .fault)
    (hnext : ∀ s e t, I s → body s = .next e t → I t ∧ μ t < μ s) (hs : I s) : ∃ es r, Ends body s es r := by
  induction hn : μ s using Nat.strong_induction_on generalizing s with
  | _ n ih =>
    cases hb : body s with
    | fault => exact absurd hb (hfault s hs)
    | leave r => exact ⟨[], r, .leave hb⟩
    | next e t =>
      obtain ⟨ht, hlt⟩ := hnext s e t hs hb
      obtain ⟨es, r, hends⟩ := ih (μ t) (hn ▸ hlt) ht rfl
      exact ⟨e :: es, r, .next hb hends⟩

/-- A loop that can always make another pass does not end. -/
theorem not_ends_of_next (hnext : ∀ s, I s → ∃ e t, body s = .next e t ∧ I t) (hs : I s) : ¬Ends body s es r := by
  intro h
  induction h with
  | leave h =>
    obtain ⟨e, t, hb, -⟩ := hnext _ hs
    rw [h] at hb
    cases hb
  | next h ht ih =>
    obtain ⟨e, t, hb, hi⟩ := hnext _ hs
    rw [h] at hb
    cases hb
    exact ih hi

end LoopRuns
