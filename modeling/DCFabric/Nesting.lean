import Mathlib

namespace Nesting

variable {α : Type} {δ : α → ℤ} {a b : α} {l l₁ l₂ p q : List α}

/-- What the symbols of a text add up to: 1 for each that opens, -1 for each that closes. -/
def net (δ : α → ℤ) (l : List α) : ℤ := (l.map δ).sum

@[simp] theorem net_nil : net δ [] = 0 := rfl

@[simp] theorem net_cons : net δ (a :: l) = δ a + net δ l := by
  rw [net, net, List.map_cons, List.sum_cons]

@[simp] theorem net_append : net δ (l₁ ++ l₂) = net δ l₁ + net δ l₂ := by
  rw [net, net, net, List.map_append, List.sum_append]

theorem net_eq_zero (h : ∀ a ∈ l, δ a = 0) : net δ l = 0 := by
  induction l with
  | nil => rfl
  | cons a l ih =>
    obtain ⟨ha, hl⟩ := List.forall_mem_cons.mp h
    rw [net_cons, ha, ih hl, add_zero]

/-- Nothing is closed that is not open, and nothing is left open. -/
structure Nested (δ : α → ℤ) (l : List α) : Prop where
  nonneg : ∀ p, p <+: l → 0 ≤ net δ p
  total : net δ l = 0

/-- The text is closed at its end, and not before. -/
structure Closed (δ : α → ℤ) (l : List α) : Prop where
  pos : ∀ p, p <+: l → p ≠ [] → p ≠ l → 0 < net δ p
  total : net δ l = 0

theorem nested_of_forall (h : ∀ a ∈ l, δ a = 0) : Nested δ l := by
  refine ⟨fun p hp => ?_, net_eq_zero h⟩
  rw [net_eq_zero fun a ha => h a (hp.subset ha)]

theorem Nested.nil : Nested δ [] := nested_of_forall (List.forall_mem_nil _)

theorem prefix_append_cases (h : p <+: l₁ ++ l₂) : p <+: l₁ ∨ ∃ q, q <+: l₂ ∧ p = l₁ ++ q := by
  rcases List.prefix_or_prefix_of_prefix h (List.prefix_append l₁ l₂) with h' | ⟨q, rfl⟩
  · exact .inl h'
  · exact .inr ⟨q, (List.prefix_append_right_inj l₁).mp h, rfl⟩

theorem Nested.append (h₁ : Nested δ l₁) (h₂ : Nested δ l₂) : Nested δ (l₁ ++ l₂) := by
  refine ⟨fun p hp => ?_, by rw [net_append, h₁.total, h₂.total, add_zero]⟩
  rcases prefix_append_cases hp with hp | ⟨q, hq, rfl⟩
  · exact h₁.nonneg p hp
  · rw [net_append, h₁.total, zero_add]
    exact h₂.nonneg q hq

theorem Nested.cons (ha : δ a = 0) (h : Nested δ l) : Nested δ (a :: l) :=
  (nested_of_forall (List.forall_mem_singleton.mpr ha)).append h

/-- What is put between an opening and a closing symbol. -/
theorem Nested.closed (ha : δ a = 1) (hb : δ b = -1) (h : Nested δ l) : Closed δ (a :: (l ++ [b])) := by
  refine ⟨fun p hp hnil hall => ?_, ?_⟩
  · obtain rfl | ⟨q, rfl, hq⟩ := List.prefix_cons_iff.mp hp
    · exact absurd rfl hnil
    · rw [net_cons, ha]
      rcases prefix_append_cases hq with hq | ⟨r, hr, rfl⟩
      · have := h.nonneg q hq
        omega
      · obtain rfl | ⟨s, rfl, hs⟩ := List.prefix_cons_iff.mp hr
        · rw [List.append_nil, h.total]
          omega
        · rw [List.prefix_nil.mp hs] at hall
          exact absurd rfl hall
  · rw [net_cons, net_append, net_cons, net_nil, ha, hb, h.total]
    rfl

theorem Closed.nested (h : Closed δ l) : Nested δ l := by
  refine ⟨fun p hp => ?_, h.total⟩
  by_cases hnil : p = []
  · rw [hnil, net_nil]
  · by_cases hall : p = l
    · rw [hall, h.total]
    · exact (h.pos p hp hnil hall).le

end Nesting
