import Mathlib

/-! Sums of words with the carry brought round to the lowest digit, for words below a base `B`. -/

namespace OnesComplement

/-- What is carried out of the word is added to it. -/
def fold (B n : ℕ) : ℕ := n % B + n / B

def add (B a b : ℕ) : ℕ := fold B (a + b)

def sum (B : ℕ) (words : List ℕ) : ℕ := words.foldl (add B) 0

/-- The word that stands for `n`: 0 for 0 alone, and otherwise between 1 and `B - 1`. -/
def reduce (B n : ℕ) : ℕ := if n = 0 then 0 else (n - 1) % (B - 1) + 1

section

variable {B n m : ℕ}

theorem fold_eq_zero : fold B n = 0 ↔ n = 0 := by
  have hdiv := Nat.mod_add_div n B
  constructor
  · intro hfold
    obtain ⟨hmod, hquot⟩ := Nat.add_eq_zero_iff.mp hfold
    rw [hmod, hquot] at hdiv
    exact hdiv.symm
  · rintro rfl
    simp [fold]

theorem fold_modEq (h : 0 < B) : fold B n ≡ n [MOD B - 1] := by
  have hB : B ≡ 1 [MOD B - 1] := by
    have hsucc : B = (B - 1) + 1 := by omega
    exact (Nat.modEq_iff_dvd' h).mpr (dvd_refl _) |>.symm
  have hcarry : B * (n / B) ≡ 1 * (n / B) [MOD B - 1] := hB.mul_right _
  rw [one_mul] at hcarry
  calc fold B n = n % B + n / B := rfl
    _ ≡ n % B + B * (n / B) [MOD B - 1] := hcarry.symm.add_left _
    _ = n := Nat.mod_add_div n B

theorem fold_le (h : n < B * B) : fold B n ≤ 2 * (B - 1) := by
  have hB : 0 < B := Nat.pos_of_mul_pos_left (Nat.zero_lt_of_lt h)
  have hmod := Nat.mod_lt n hB
  have hdiv := Nat.div_lt_of_lt_mul h
  rw [fold]
  omega

theorem fold_lt (hB : 1 < B) (h : n ≤ 2 * (B - 1)) : fold B n < B := by
  rw [fold]
  by_cases hn : n < B
  · rw [Nat.mod_eq_of_lt hn, Nat.div_eq_of_lt hn]
    omega
  · have hdiv : n / B = 1 := by
      apply Nat.div_eq_of_lt_le
      · omega
      · omega
    have hsplit := Nat.mod_add_div n B
    rw [hdiv] at hsplit ⊢
    omega

theorem reduce_pos (h : n ≠ 0) : 0 < reduce B n := by
  rw [reduce, if_neg h]
  exact Nat.succ_pos _

theorem reduce_lt (hB : 1 < B) : reduce B n < B := by
  rw [reduce]
  split_ifs
  · omega
  · have := Nat.mod_lt (n - 1) (show 0 < B - 1 by omega)
    omega

/-- Two numbers stand for the same word when they agree modulo `B - 1` and in being 0. -/
theorem reduce_congr (hzero : n = 0 ↔ m = 0) (h : n ≡ m [MOD B - 1]) : reduce B n = reduce B m := by
  by_cases hn : n = 0
  · rw [hn, hzero.mp hn]
  · have hm : m ≠ 0 := fun hm => hn (hzero.mpr hm)
    have hpred : n - 1 ≡ m - 1 [MOD B - 1] := by
      apply Nat.ModEq.add_right_cancel' 1
      rwa [Nat.sub_add_cancel (Nat.pos_of_ne_zero hn), Nat.sub_add_cancel (Nat.pos_of_ne_zero hm)]
    rw [reduce, reduce, if_neg hn, if_neg hm, hpred]

theorem reduce_of_lt (h : n < B) : reduce B n = n := by
  rw [reduce]
  split_ifs with hn
  · exact hn.symm
  · rw [Nat.mod_eq_of_lt (by omega), Nat.sub_add_cancel (Nat.pos_of_ne_zero hn)]

theorem reduce_eq_zero : reduce B n = 0 ↔ n = 0 := by
  constructor
  · intro h
    by_contra hn
    exact (reduce_pos hn).ne' h
  · rintro rfl
    rfl

theorem reduce_modEq : reduce B n ≡ n [MOD B - 1] := by
  rw [reduce]
  split_ifs with hn
  · rw [hn]
  · calc (n - 1) % (B - 1) + 1 ≡ n - 1 + 1 [MOD B - 1] := (Nat.mod_modEq _ _).add_right 1
      _ = n := Nat.sub_add_cancel (Nat.pos_of_ne_zero hn)

theorem reduce_fold (h : 0 < B) : reduce B (fold B n) = reduce B n :=
  reduce_congr fold_eq_zero (fold_modEq h)

/-- Two folds are enough for a number of two digits. -/
theorem fold_fold (hB : 1 < B) (h : n < B * B) : fold B (fold B n) = reduce B n := by
  have hlt := fold_lt hB (fold_le h)
  rw [← reduce_of_lt hlt, reduce_fold (by omega), reduce_fold (by omega)]

/-- One fold is enough for two words. -/
theorem add_eq (hB : 1 < B) (hn : n < B) (hm : m < B) : add B n m = reduce B (n + m) := by
  have hlt := fold_lt hB (show n + m ≤ 2 * (B - 1) by omega)
  rw [add, ← reduce_of_lt hlt, reduce_fold (by omega)]

theorem reduce_add_reduce : reduce B (reduce B n + m) = reduce B (n + m) := by
  apply reduce_congr
  · rw [Nat.add_eq_zero_iff, Nat.add_eq_zero_iff, reduce_eq_zero]
  · exact reduce_modEq.add_right m

theorem foldl_add (hB : 1 < B) (words : List ℕ) (hwords : ∀ w ∈ words, w < B) :
    words.foldl (add B) (reduce B n) = reduce B (n + words.sum) := by
  induction words generalizing n with
  | nil => simp
  | cons w words ih =>
    obtain ⟨hw, hwords⟩ := List.forall_mem_cons.mp hwords
    rw [List.foldl_cons, add_eq hB (reduce_lt hB) hw, reduce_add_reduce, ih hwords, List.sum_cons, Nat.add_assoc]

theorem sum_eq (hB : 1 < B) {words : List ℕ} (hwords : ∀ w ∈ words, w < B) : sum B words = reduce B words.sum := by
  have hfoldl := foldl_add (n := 0) hB words hwords
  rwa [Nat.zero_add, reduce_of_lt (by omega)] at hfoldl

/-- A number and the complement of its word stand for the word of all ones. -/
theorem reduce_add_complement (hB : 1 < B) : reduce B (n + (B - 1 - reduce B n)) = B - 1 := by
  have hlt := reduce_lt (n := n) hB
  rw [← reduce_add_reduce, show reduce B n + (B - 1 - reduce B n) = B - 1 by omega, reduce_of_lt (by omega)]

end

end OnesComplement
