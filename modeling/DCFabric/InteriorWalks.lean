import Mathlib

namespace InteriorWalks

variable {V : Type} {link : V → V → Prop} {S T : Set V} {i j k : V} {m n : ℕ}

/-- Walks by the number of their links. -/
inductive Walk (link : V → V → Prop) : ℕ → V → V → Prop
  | nil (i : V) : Walk link 0 i i
  | cons {n : ℕ} {i h j : V} (first : link i h) (rest : Walk link n h j) : Walk link (n + 1) i j

/-- Walks that run through the vertices of a set between their ends. -/
inductive Via (link : V → V → Prop) (S : Set V) : ℕ → V → V → Prop
  | nil (i : V) : Via link S 0 i i
  | one {i j : V} (only : link i j) : Via link S 1 i j
  | cons {n : ℕ} {i h j : V} (first : link i h) (through : h ∈ S) (rest : Via link S n h j) : Via link S (n + 1) i j

theorem Walk.append (hw : Walk link m i k) (hw' : Walk link n k j) : Walk link (m + n) i j := by
  induction hw with
  | nil i => rwa [Nat.zero_add]
  | @cons m i h k first rest ih =>
    rw [Nat.add_right_comm]
    exact .cons first (ih hw')

/-- A walk that stays where the links are runs through their vertices. -/
theorem Walk.via (hS : ∀ i j, link i j → i ∈ S) (hw : Walk link n i j) : Via link S n i j := by
  induction hw with
  | nil i => exact .nil i
  | @cons n i h j first rest ih =>
    cases rest with
    | nil => exact .one first
    | cons second rest => exact .cons first (hS _ _ second) ih

/-- A walk that may run through one vertex more either does not, or it falls into one to this vertex and one from it. -/
theorem Via.split (hv : Via link (insert k S) n i j) :
    Via link S n i j ∨ ∃ a b, a + b ≤ n ∧ Via link S a i k ∧ Via link S b k j := by
  induction hv with
  | nil i => exact .inl (.nil i)
  | one only => exact .inl (.one only)
  | @cons n i h j first through rest ih =>
    rcases through with rfl | hh
    · obtain hrest | ⟨a, b, hab, -, hb⟩ := ih
      · exact .inr ⟨1, n, (Nat.add_comm 1 n).le, .one first, hrest⟩
      · exact .inr ⟨1, b, by omega, .one first, hb⟩
    · obtain hrest | ⟨a, b, hab, ha, hb⟩ := ih
      · exact .inl (.cons first hh hrest)
      · exact .inr ⟨a + 1, b, by omega, .cons first hh ha, hb⟩

/-- On a shortest walk every smaller distance occurs. -/
theorem exists_isLeast (hn : IsLeast {m | Walk link m i j} n) (hm : m ≤ n) :
    ∃ v, (v = i ∨ ∃ u, link u v) ∧ IsLeast {m | Walk link m v j} m := by
  obtain ⟨hw, hleast⟩ := hn
  change Walk link n i j at hw
  induction hw with
  | nil i =>
    obtain rfl : m = 0 := Nat.le_zero.mp hm
    exact ⟨i, .inl rfl, .nil i, fun _ _ => Nat.zero_le _⟩
  | @cons n i h j first rest ih =>
    obtain rfl | hlt := hm.eq_or_lt
    · exact ⟨i, .inl rfl, .cons first rest, hleast⟩
    · have hrest : n ∈ lowerBounds {m | Walk link m h j} := fun m hm => by
        have hle := hleast (Walk.cons first hm)
        omega
      obtain ⟨v, hv, hleast⟩ := ih (by omega) hrest
      refine ⟨v, .inr ?_, hleast⟩
      obtain rfl | hu := hv
      · exact ⟨i, first⟩
      · exact hu

/-- A shortest walk visits no vertex twice. -/
theorem length_lt_card (vertices : Finset V) (hV : ∀ i j, link i j → j ∈ vertices) (hi : i ∈ vertices)
    (hn : IsLeast {m | Walk link m i j} n) : n < vertices.card := by
  have hex : ∀ m : Fin (n + 1), ∃ v ∈ vertices, IsLeast {m | Walk link m v j} m.val := by
    intro m
    obtain ⟨v, hv, hleast⟩ := exists_isLeast hn (Nat.lt_succ_iff.mp m.isLt)
    refine ⟨v, ?_, hleast⟩
    obtain rfl | ⟨u, hu⟩ := hv
    · exact hi
    · exact hV u v hu
  choose f hf hleast using hex
  have hinj : Function.Injective f := by
    intro a b hab
    have hb := hleast b
    rw [← hab] at hb
    exact Fin.ext ((hleast a).unique hb)
  have hcard := Finset.card_le_card_of_injOn f (fun m _ => hf m) (s := Finset.univ) hinj.injOn
  rw [Finset.card_univ, Fintype.card_fin] at hcard
  exact hcard

/-- Hops that take one off the distance to a vertex at a time get there, and not before. -/
theorem iterate_hop {P : V → Prop} {hop : V → V} {d : V → ℕ} (hzero : ∀ i, P i → (d i = 0 ↔ i = j))
    (hhop : ∀ i, P i → i ≠ j → link i (hop i) ∧ P (hop i) ∧ d (hop i) + 1 = d i) (hi : P i) :
    hop^[d i] i = j ∧ ∀ m < d i, hop^[m] i ≠ j ∧ link (hop^[m] i) (hop^[m + 1] i) := by
  induction hd : d i generalizing i with
  | zero => exact ⟨(hzero i hi).mp hd, fun m hm => absurd hm (Nat.not_lt_zero m)⟩
  | succ n ih =>
    have hne : i ≠ j := fun he => by
      rw [(hzero i hi).mpr he] at hd
      cases hd
    obtain ⟨hlink, hP, hdown⟩ := hhop i hi hne
    obtain ⟨hend, hway⟩ := ih hP (by omega)
    refine ⟨hend, fun m hm => ?_⟩
    cases m with
    | zero => exact ⟨hne, hlink⟩
    | succ m => exact hway m (by omega)

end InteriorWalks
