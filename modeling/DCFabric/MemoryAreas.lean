import Mathlib

namespace MemoryAreas

variable {areas : ℕ → Option ℕ} {width width' : ℕ → ℕ} {held held' : Set ℕ} {a b p w n len : ℕ}

/-- An allocator's answer: an area of the address space that meets none of those handed out, which are given by their
addresses and lengths. -/
structure Fresh (areas : ℕ → Option ℕ) (p len : ℕ) : Prop where
  ne_null : p ≠ 0
  fits : p + len ≤ 2 ^ 64
  new : areas p = none
  disjoint : ∀ b n, areas b = some n → p + len ≤ b ∨ b + n ≤ p

/-- Nodes of some width that lie in the areas, none over another. -/
structure Tiled (areas : ℕ → Option ℕ) (width : ℕ → ℕ) (held : Set ℕ) : Prop where
  disjoint : ∀ a ∈ held, ∀ b ∈ held, a ≠ b → a + width a ≤ b ∨ b + width b ≤ a
  home : ∀ a ∈ held, ∃ b n, areas b = some n ∧ b ≤ a ∧ a + width a ≤ b + n
  width_pos : ∀ a ∈ held, 0 < width a
  ne_null : ∀ a ∈ held, a ≠ 0

/-- `n` nodes of width `w` one behind the other. -/
def nodesFrom (w : ℕ) : ℕ → ℕ → List ℕ
  | 0, _ => []
  | n + 1, p => p :: nodesFrom w n (p + w)

theorem mem_nodesFrom : a ∈ nodesFrom w n p ↔ ∃ i < n, a = p + i * w := by
  induction n generalizing p with
  | zero => simp [nodesFrom]
  | succ n ih =>
    rw [nodesFrom, List.mem_cons, ih]
    constructor
    · rintro (rfl | ⟨i, hi, rfl⟩)
      · exact ⟨0, Nat.succ_pos n, by rw [Nat.zero_mul, Nat.add_zero]⟩
      · exact ⟨i + 1, Nat.succ_lt_succ hi, by rw [Nat.succ_mul]; omega⟩
    · rintro ⟨i, hi, rfl⟩
      cases i with
      | zero => exact .inl (by rw [Nat.zero_mul, Nat.add_zero])
      | succ i => exact .inr ⟨i, Nat.lt_of_succ_lt_succ hi, by rw [Nat.succ_mul]; omega⟩

theorem nodesFrom_bounds (ha : a ∈ nodesFrom w n p) : p ≤ a ∧ a + w ≤ p + n * w := by
  obtain ⟨i, hi, rfl⟩ := mem_nodesFrom.mp ha
  have hle := Nat.mul_le_mul_right w (Nat.succ_le_of_lt hi)
  rw [Nat.succ_mul] at hle
  omega

theorem nodesFrom_disjoint (ha : a ∈ nodesFrom w n p) (hb : b ∈ nodesFrom w n p) (hne : a ≠ b) :
    a + w ≤ b ∨ b + w ≤ a := by
  obtain ⟨i, -, rfl⟩ := mem_nodesFrom.mp ha
  obtain ⟨j, -, rfl⟩ := mem_nodesFrom.mp hb
  obtain hlt | rfl | hlt := Nat.lt_trichotomy i j
  · have hle := Nat.mul_le_mul_right w (Nat.succ_le_of_lt hlt)
    rw [Nat.succ_mul] at hle
    exact .inl (by omega)
  · exact absurd rfl hne
  · have hle := Nat.mul_le_mul_right w (Nat.succ_le_of_lt hlt)
    rw [Nat.succ_mul] at hle
    exact .inr (by omega)

theorem not_mem_nodesFrom (hw : 0 < w) : p ∉ nodesFrom w n (p + w) := by
  intro hp
  have hle := (nodesFrom_bounds hp).1
  omega

theorem nodup_nodesFrom (hw : 0 < w) : (nodesFrom w n p).Nodup := by
  induction n generalizing p with
  | zero => exact List.nodup_nil
  | succ n ih => exact List.nodup_cons.mpr ⟨not_mem_nodesFrom hw, ih⟩

theorem Tiled.mono (h : Tiled areas width held) (hsub : held' ⊆ held) : Tiled areas width held' where
  disjoint := fun a ha b hb => h.disjoint a (hsub ha) b (hsub hb)
  home := fun a ha => h.home a (hsub ha)
  width_pos := fun a ha => h.width_pos a (hsub ha)
  ne_null := fun a ha => h.ne_null a (hsub ha)

/-- A new area meets no node. -/
theorem Tiled.fresh (h : Tiled areas width held) (hf : Fresh areas p len) (ha : a ∈ held) :
    a + width a ≤ p ∨ p + len ≤ a := by
  obtain ⟨b, n, hb, hle, hend⟩ := h.home a ha
  obtain hlt | hlt := hf.disjoint b n hb <;> omega

theorem Tiled.not_mem_fresh (h : Tiled areas width held) (hf : Fresh areas p (n * w)) (hw : 0 < w) (ha : a ∈ held) :
    a ∉ nodesFrom w n p := by
  intro hm
  obtain ⟨hle, hend⟩ := nodesFrom_bounds hm
  have hpos := h.width_pos a ha
  obtain hlt | hlt := h.fresh hf ha <;> omega

/-- A new area is cut into nodes. -/
theorem Tiled.extend (h : Tiled areas width held) (hf : Fresh areas p (n * w)) (hw : 0 < w)
    (hold : ∀ a ∉ nodesFrom w n p, width' a = width a) (hnew : ∀ a ∈ nodesFrom w n p, width' a = w)
    (hheld : ∀ a ∈ held', a ∈ nodesFrom w n p ∨ a ∈ held) :
    Tiled (Function.update areas p (some (n * w))) width' held' := by
  have hkept : ∀ a ∈ held, width' a = width a := fun a ha => hold a (h.not_mem_fresh hf hw ha)
  have hcross : ∀ a ∈ nodesFrom w n p, ∀ b ∈ held, a + width' a ≤ b ∨ b + width' b ≤ a := by
    intro a ha b hb
    rw [hnew a ha, hkept b hb]
    obtain ⟨hle, hend⟩ := nodesFrom_bounds ha
    obtain hlt | hlt := h.fresh hf hb <;> omega
  constructor
  · intro a ha b hb hne
    obtain ha | ha := hheld a ha <;> obtain hb | hb := hheld b hb
    · rw [hnew a ha, hnew b hb]
      exact nodesFrom_disjoint ha hb hne
    · exact hcross a ha b hb
    · exact (hcross b hb a ha).symm
    · rw [hkept a ha, hkept b hb]
      exact h.disjoint a ha b hb hne
  · intro a ha
    obtain ha | ha := hheld a ha
    · rw [hnew a ha]
      exact ⟨p, n * w, Function.update_self .., nodesFrom_bounds ha⟩
    · obtain ⟨b, m, hb, hin⟩ := h.home a ha
      rw [hkept a ha]
      refine ⟨b, m, ?_, hin⟩
      rw [Function.update_of_ne (fun he => ?_), hb]
      rw [he, hf.new] at hb
      cases hb
  · intro a ha
    obtain ha | ha := hheld a ha
    · rwa [hnew a ha]
    · rw [hkept a ha]
      exact h.width_pos a ha
  · intro a ha
    obtain ha | ha := hheld a ha
    · have hle := (nodesFrom_bounds ha).1
      have hne := hf.ne_null
      omega
    · exact h.ne_null a ha

/-- The area that a node fills is given back. -/
theorem Tiled.free (h : Tiled areas width held) (ha : a ∈ held) (hfill : areas a = some (width a))
    (hheld : ∀ b ∈ held', b ∈ held ∧ b ≠ a) : Tiled (Function.update areas a none) width held' := by
  have hless := h.mono fun b hb => (hheld b hb).1
  refine ⟨hless.disjoint, fun b hb => ?_, hless.width_pos, hless.ne_null⟩
  obtain ⟨hb, hne⟩ := hheld b hb
  obtain ⟨c, m, hc, hin⟩ := h.home b hb
  refine ⟨c, m, ?_, hin⟩
  rw [Function.update_of_ne (fun he => ?_), hc]
  subst he
  obtain rfl : width c = m := Option.some.inj (hfill.symm.trans hc)
  have hpos := h.width_pos b hb
  obtain hlt | hlt := h.disjoint b hb c ha hne <;> omega

end MemoryAreas
