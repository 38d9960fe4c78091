import Mathlib

namespace HighestFree

variable {α : Type} {key : α → ℕ} {l : List α} {lo top : ℕ} {a b : α}

/-- The elements in front of the first gap below `top`, and the key that the gap is below. -/
def walk (key : α → ℕ) : ℕ → List α → List α × ℕ
  | top, [] => ([], top)
  | top, a :: l => if key a = top - 1 then (a :: (walk key (key a) l).1, (walk key (key a) l).2) else ([], top)

/-- The list with an element in front of the gap. -/
def place (key : α → ℕ) (top : ℕ) (a : α) (l : List α) : List α :=
  (walk key top l).1 ++ a :: l.drop (walk key top l).1.length

def Descending (key : α → ℕ) (l : List α) : Prop := l.Pairwise fun a b => key b < key a

/-- The keys from `lo` to below `top` that no element has. -/
def free (key : α → ℕ) (lo top : ℕ) (l : List α) : Set ℕ := {k | lo ≤ k ∧ k < top ∧ ∀ a ∈ l, key a ≠ k}

theorem walk_spec (hl : Descending key l) (htop : ∀ a ∈ l, key a < top) :
    ∃ post, l = (walk key top l).1 ++ post ∧ (walk key top l).2 ≤ top ∧
      (∀ a ∈ (walk key top l).1, (walk key top l).2 ≤ key a) ∧
      (∀ a ∈ post, key a + 1 < (walk key top l).2) ∧
      ∀ k, (walk key top l).2 ≤ k → k < top → ∃ a ∈ (walk key top l).1, key a = k := by
  induction l generalizing top with
  | nil => exact ⟨[], rfl, le_rfl, by simp [walk], by simp, fun k hk hlt => absurd hlt hk.not_gt⟩
  | cons a l ih =>
    obtain ⟨hbelow, hl⟩ := List.pairwise_cons.mp hl
    have ha := htop a List.mem_cons_self
    rw [walk]
    split_ifs with hnext
    · obtain ⟨post, hsplit, hle, hpre, hpost, hall⟩ := ih hl hbelow
      refine ⟨post, ?_, ?_, ?_, hpost, ?_⟩
      · rw [List.cons_append, ← hsplit]
      · exact hle.trans ha.le
      · intro b hb
        rcases List.mem_cons.mp hb with rfl | hb
        · exact hle
        · exact hpre b hb
      · intro k hk hlt
        by_cases hka : k = key a
        · exact ⟨a, List.mem_cons_self, hka.symm⟩
        · obtain ⟨b, hb, hkey⟩ := hall k hk (by omega)
          exact ⟨b, List.mem_cons_of_mem a hb, hkey⟩
    · refine ⟨a :: l, rfl, le_rfl, by simp, ?_, fun k hk hlt => absurd hlt hk.not_gt⟩
      intro b hb
      rcases List.mem_cons.mp hb with rfl | hb
      · dsimp only
        omega
      · have hlt := hbelow b hb
        dsimp only
        omega

theorem isGreatest_free (hl : Descending key l) (htop : ∀ a ∈ l, key a < top) (hlo : lo < (walk key top l).2) :
    IsGreatest (free key lo top l) ((walk key top l).2 - 1) := by
  obtain ⟨post, hsplit, hle, hpre, hpost, hall⟩ := walk_spec hl htop
  constructor
  · refine ⟨by omega, by omega, ?_⟩
    intro a ha
    rw [hsplit] at ha
    rcases List.mem_append.mp ha with ha | ha
    · have hge := hpre a ha
      omega
    · have hlt := hpost a ha
      omega
  · rintro k ⟨-, hk, hfree⟩
    by_contra hlt
    obtain ⟨a, ha, hkey⟩ := hall k (by omega) hk
    have hmem : a ∈ l := by
      rw [hsplit]
      exact List.mem_append_left post ha
    exact hfree a hmem hkey

theorem free_eq_empty (hl : Descending key l) (htop : ∀ a ∈ l, key a < top) (hlo : (walk key top l).2 ≤ lo) :
    free key lo top l = ∅ := by
  obtain ⟨post, hsplit, hle, hpre, hpost, hall⟩ := walk_spec hl htop
  rw [Set.eq_empty_iff_forall_notMem]
  rintro k ⟨hk, hlt, hfree⟩
  obtain ⟨a, ha, hkey⟩ := hall k (hlo.trans hk) hlt
  have hmem : a ∈ l := by
    rw [hsplit]
    exact List.mem_append_left post ha
  exact hfree a hmem hkey

theorem place_split (hl : Descending key l) (htop : ∀ a ∈ l, key a < top) (a : α) :
    ∃ post, l = (walk key top l).1 ++ post ∧ place key top a l = (walk key top l).1 ++ a :: post := by
  obtain ⟨post, hsplit, -⟩ := walk_spec hl htop
  refine ⟨post, hsplit, ?_⟩
  have hdrop := congrArg (List.drop (walk key top l).1.length) hsplit
  rw [List.drop_left] at hdrop
  rw [place, hdrop]

theorem place_perm (hl : Descending key l) (htop : ∀ a ∈ l, key a < top) (a : α) :
    (place key top a l).Perm (a :: l) := by
  obtain ⟨post, hsplit, hplace⟩ := place_split hl htop a
  rw [hplace]
  exact List.perm_middle.trans (List.Perm.cons a (List.Perm.of_eq hsplit.symm))

theorem place_descending (hl : Descending key l) (htop : ∀ a ∈ l, key a < top) (hpos : 0 < (walk key top l).2)
    (ha : key a = (walk key top l).2 - 1) : Descending key (place key top a l) := by
  obtain ⟨post, hsplit, hle, hpre, hpost, hall⟩ := walk_spec hl htop
  have hplace : place key top a l = (walk key top l).1 ++ a :: post := by
    obtain ⟨post', hsplit', hplace⟩ := place_split hl htop a
    rwa [List.append_cancel_left (hsplit'.symm.trans hsplit)] at hplace
  rw [Descending, hsplit] at hl
  obtain ⟨hfront, hback, hlt⟩ := List.pairwise_append.mp hl
  rw [Descending, hplace]
  refine List.pairwise_append.mpr ⟨hfront, List.pairwise_cons.mpr ⟨?_, hback⟩, ?_⟩
  · intro b hb
    have hb := hpost b hb
    omega
  · intro b hb c hc
    rcases List.mem_cons.mp hc with rfl | hc
    · have hb := hpre b hb
      omega
    · exact hlt b hb c hc

end HighestFree
