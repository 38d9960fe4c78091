import Mathlib

namespace RingView

variable {β : Type}

/-- The `n` cells from `h` on, going on at the front after the last one. -/
def window (cells : List β) (h n : ℕ) : List β := (cells.rotate h).take n

def splice (cells : List β) (k : ℕ) (xs : List β) : List β :=
  cells.take k ++ xs ++ cells.drop (k + xs.length)

variable {cells xs : List β} {h k n : ℕ}

theorem splice_length (cells : List β) (k : ℕ) (xs : List β) (hk : k + xs.length ≤ cells.length) :
    (splice cells k xs).length = cells.length := by
  simp only [splice, List.length_append, List.length_take, List.length_drop]
  omega

theorem splice_take (hk : k ≤ cells.length) :
    (splice cells k xs).take (k + xs.length) = cells.take k ++ xs := by
  apply List.take_left'
  rw [List.length_append, List.length_take]
  omega

theorem splice_left {ys : List β} (hk : k + xs.length ≤ cells.length) :
    splice (cells ++ ys) k xs = splice cells k xs ++ ys := by
  rw [splice, splice, List.take_append_of_le_length (by omega),
    List.drop_append_of_le_length hk, List.append_assoc _ _ ys]

theorem splice_right {ys : List β} : splice (ys ++ cells) (ys.length + k) xs = ys ++ splice cells k xs := by
  simp only [splice, List.take_length_add_append, Nat.add_assoc, List.drop_length_add_append,
    List.append_assoc]

theorem splice_append {ys : List β} (hk : k + xs.length ≤ cells.length) :
    splice (splice cells k xs) (k + xs.length) ys = splice cells k (xs ++ ys) := by
  have hl : (cells.take k ++ xs).length = k + xs.length := by
    rw [List.length_append, List.length_take]
    omega
  have hd : (splice cells k xs).drop (k + xs.length + ys.length) =
      cells.drop (k + (xs ++ ys).length) := by
    rw [splice, ← List.drop_drop, List.drop_left' hl, List.drop_drop, List.length_append, Nat.add_assoc]
  rw [splice, hd, splice_take (by omega)]
  simp only [splice, List.append_assoc]

theorem window_length (hn : n ≤ cells.length) : (window cells h n).length = n := by
  rw [window, List.length_take, List.length_rotate]
  omega

theorem window_split {ys : List β} (hn : h = ys.length) :
    window (ys ++ cells) h n = (cells ++ ys).take n := by
  rw [window, hn, List.rotate_append_length_eq]

theorem window_straight (hn : h + n ≤ cells.length) : window cells h n = (cells.drop h).take n := by
  rw [window, List.rotate_eq_drop_append_take (by omega),
    List.take_append_of_le_length (by rw [List.length_drop]; omega)]

theorem window_wrapped (hh : h ≤ cells.length) (hn : cells.length ≤ h + n) (hl : n ≤ cells.length) :
    window cells h n = cells.drop h ++ cells.take (h + n - cells.length) := by
  have hk : n - (cells.drop h).length = h + n - cells.length := by rw [List.length_drop]; omega
  rw [window, List.rotate_eq_drop_append_take hh, List.take_append, List.take_take, hk,
    List.take_of_length_le (by rw [List.length_drop]; omega), min_eq_left (by omega)]

theorem exists_split (cells : List β) (h : ℕ) (hh : h ≤ cells.length) : ∃ ys zs, cells = ys ++ zs ∧ ys.length = h :=
  ⟨cells.take h, cells.drop h, (List.take_append_drop h cells).symm, by simp [hh]⟩

theorem window_splice_straight (cells : List β) (h n : ℕ) (xs : List β) (hn : h + n + xs.length ≤ cells.length) :
    window (splice cells (h + n) xs) h (n + xs.length) = window cells h n ++ xs := by
  obtain ⟨ys, zs, rfl, rfl⟩ := exists_split cells h (by omega)
  rw [List.length_append] at hn
  rw [splice_right, window_split rfl, window_split rfl,
    List.take_append_of_le_length (by rw [splice_length] <;> omega), splice_take (by omega),
    List.take_append_of_le_length (by omega)]

theorem window_splice_wrapped (cells : List β) (h n : ℕ) (xs : List β) (hh : h ≤ cells.length)
    (hn : cells.length ≤ h + n)
    (hx : h + n - cells.length + xs.length ≤ h) :
    window (splice cells (h + n - cells.length) xs) h (n + xs.length) = window cells h n ++ xs := by
  obtain ⟨ys, zs, rfl, rfl⟩ := exists_split cells h hh
  rw [List.length_append] at hn
  have hk : ys.length + n - (ys ++ zs).length = n - zs.length := by rw [List.length_append]; omega
  rw [hk] at hx ⊢
  have ht : n + xs.length = zs.length + (n - zs.length + xs.length) := by omega
  rw [splice_left hx, window_split (by rw [splice_length _ _ _ hx]), window_split rfl, ht,
    List.take_length_add_append, splice_take (by omega)]
  conv_rhs => rw [show n = zs.length + (n - zs.length) by omega, List.take_length_add_append]
  rw [List.append_assoc]

theorem window_splice_split (cells : List β) (h n : ℕ) (us vs : List β) (hh : h ≤ cells.length)
    (hu : h + n + us.length = cells.length) (hv : vs.length ≤ h) :
    window (splice (splice cells (h + n) us) 0 vs) h (n + (us ++ vs).length) =
      window cells h n ++ (us ++ vs) := by
  have hl := splice_length cells (h + n) us (by omega)
  have h0 : h + (n + us.length) - (splice cells (h + n) us).length = 0 := by omega
  have hw := window_splice_wrapped (splice cells (h + n) us) h (n + us.length) vs (by omega) (by omega) (by omega)
  rw [h0] at hw
  rw [List.length_append, ← Nat.add_assoc, hw, window_splice_straight cells h n us (by omega), List.append_assoc]

theorem window_drop (hk : k ≤ n) (hn : n ≤ cells.length) :
    (window cells h n).drop k = window cells (h + k) (n - k) := by
  have hr : k ≤ (cells.rotate h).length := by rw [List.length_rotate]; omega
  rw [window, window, ← List.rotate_rotate, List.rotate_eq_drop_append_take hr, List.drop_take,
    List.take_append_of_le_length]
  rw [List.length_drop, List.length_rotate]
  omega

theorem window_turn (hh : cells.length ≤ h) : window cells h n = window cells (h - cells.length) n := by
  conv_lhs => rw [show h = h - cells.length + cells.length by omega]
  rw [window, window, ← List.rotate_mod cells (h - cells.length + cells.length), Nat.add_mod_right,
    List.rotate_mod]

end RingView
