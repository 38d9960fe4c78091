import Mathlib

namespace RoundRobin

section

variable {α : Type} {l m : List α} {a : α} {pos : ℕ}

theorem rotate_succ (h : l.rotate pos = a :: m) : l.rotate (pos + 1) = m ++ [a] := by
  rw [← List.rotate_rotate, h, List.rotate_cons_succ, List.rotate_zero]

theorem rotate_of_lt (hpos : pos < l.length) : l.rotate pos = l[pos] :: (l.drop (pos + 1) ++ l.take pos) := by
  rw [List.rotate_eq_drop_append_take hpos.le, List.drop_eq_getElem_cons hpos, List.cons_append]

theorem rotate_set (h : l.rotate pos = a :: m) (hpos : pos < l.length) (b : α) :
    (l.set pos b).rotate (pos + 1) = m ++ [b] := by
  rw [rotate_of_lt hpos] at h
  apply rotate_succ
  rw [rotate_of_lt (by simpa using hpos), List.getElem_set_self, List.drop_set_of_lt (Nat.lt_succ_self pos),
    List.take_set_of_le le_rfl, (List.cons.inj h).2]

theorem rotate_wrap (l : List α) (pos : ℕ) : l.rotate (if pos = l.length then 0 else pos) = l.rotate pos := by
  split_ifs with hpos
  · rw [hpos, List.rotate_length, List.rotate_zero]
  · rfl

end

variable {κ : Type} {k j : κ} {order served pre post : List κ}

/-- No one was served twice, and no one who stands before `k` was served. -/
structure Waits (k : κ) (order served : List κ) : Prop where
  once : served.Nodup
  front : ∃ before after, order = before ++ k :: after ∧ ∀ j ∈ before, j ∉ served

theorem Waits.start (hk : k ∈ order) : Waits k order [] := by
  obtain ⟨before, after, rfl⟩ := List.append_of_mem hk
  exact ⟨List.nodup_nil, before, after, rfl, fun _ _ => List.not_mem_nil⟩

/-- Who is served goes to the end with those who were passed by. -/
theorem Waits.turn (h : Waits k order served) (hnodup : order.Nodup) (horder : order = pre ++ j :: post)
    (hpre : k ∉ pre) (hj : j ≠ k) : Waits k (post ++ pre ++ [j]) (served ++ [j]) := by
  obtain ⟨hserved, before, after, hfront, hbefore⟩ := h
  obtain ⟨before', rfl, rfl⟩ : ∃ before', before = pre ++ j :: before' ∧ post = before' ++ k :: after := by
    rcases List.append_eq_append_iff.mp (hfront.symm.trans horder) with ⟨as, rfl, heq⟩ | ⟨bs, rfl, heq⟩
    · cases as with
      | nil => exact absurd (List.cons.inj heq).1.symm hj
      | cons i as =>
        obtain ⟨rfl, -⟩ := List.cons.inj heq
        exact absurd (by simp) hpre
    · cases bs with
      | nil => exact absurd (List.cons.inj heq).1 hj
      | cons i bs =>
        obtain ⟨rfl, rfl⟩ := List.cons.inj heq
        exact ⟨bs, rfl, rfl⟩
  subst horder
  have hlast := (List.nodup_cons.mp (List.nodup_append.mp hnodup).2.1).1
  constructor
  · apply List.nodup_append.mpr
    refine ⟨hserved, List.nodup_singleton j, ?_⟩
    rintro i hi _ hmem rfl
    exact hbefore i (by rw [List.mem_singleton.mp hmem]; simp) hi
  · refine ⟨before', after ++ pre ++ [j], by simp, ?_⟩
    intro i hi hmem
    rcases List.mem_append.mp hmem with hmem | hmem
    · exact hbefore i (by simp [hi]) hmem
    · rw [List.mem_singleton.mp hmem] at hi
      exact hlast (by simp [hi])

section

variable {w n r : ℕ}

/-- In `n` turns in a row each place has one. -/
theorem count_turns_once (hr : r < n) : Nat.count (fun j => (w + j) % n = r) n = 1 := by
  have hn : 0 < n := Nat.zero_lt_of_lt hr
  have hself : r % n = r := Nat.mod_eq_of_lt hr
  have hback : w + (n - w % n) ≡ 0 [MOD n] := by
    have hdiv := Nat.div_add_mod w n
    have hlt := Nat.mod_lt w hn
    apply Nat.modEq_zero_iff_dvd.mpr
    exact ⟨w / n + 1, by rw [Nat.mul_succ]; omega⟩
  have heq : (fun j => (w + j) % n = r) = fun j => j ≡ r + (n - w % n) [MOD n] := by
    funext j
    have hshift : w + (r + (n - w % n)) ≡ r [MOD n] := by
      rw [Nat.add_left_comm]
      exact hback.add_left r
    rw [eq_iff_iff]
    constructor
    · intro h
      have hj : w + j ≡ r [MOD n] := Eq.trans h hself.symm
      exact Nat.ModEq.add_left_cancel' w (hj.trans hshift.symm)
    · intro h
      have hj : w + j ≡ r [MOD n] := (h.add_left w).trans hshift
      exact Eq.trans hj hself
  simp_rw [heq]
  rw [Nat.count_modEq_card _ hn]
  simp [Nat.div_self hn]

theorem count_turns (hr : r < n) (m : ℕ) : Nat.count (fun j => (w + j) % n = r) (m * n) = m := by
  induction m with
  | zero => simp
  | succ m ih =>
    have hshift : (fun j => (w + (m * n + j)) % n = r) = fun j => (w + m * n + j) % n = r := by
      funext j
      rw [Nat.add_assoc]
    rw [Nat.succ_mul, Nat.count_add, ih]
    simp_rw [hshift]
    rw [count_turns_once hr]

end

section

variable {α : Type} {l : List α} {p : α → Bool} {k : ℕ}

theorem filter_rotate (hk : k ≤ l.length) : (l.rotate k).filter p = (l.filter p).rotate ((l.take k).filter p).length := by
  rw [List.rotate_eq_drop_append_take hk, List.filter_append]
  conv_rhs => rw [← List.take_append_drop k l, List.filter_append, List.take_append_drop]
  rw [List.rotate_append_length_eq]

/-- Who has the next turn, of those who take turns. -/
theorem find?_rotate (hk : k ≤ l.length) :
    (l.rotate k).find? p = (l.filter p)[((l.take k).filter p).length % (l.filter p).length]? := by
  rw [← List.head?_filter, filter_rotate hk]
  rcases Nat.eq_zero_or_pos (l.filter p).length with hnil | hpos
  · rw [List.length_eq_zero_iff.mp hnil]
    simp
  · rw [← List.rotate_mod, List.head?_rotate (Nat.mod_lt _ hpos)]

end

section

variable {p : ℕ → Bool} {n r x : ℕ}

/-- Those who take turns up to the one who is at place `r`. -/
theorem length_filter_range (hx : ((List.range n).filter p)[r]? = some x) :
    ((List.range (x + 1)).filter p).length = r + 1 := by
  have hmem := List.mem_of_getElem? hx
  obtain ⟨hlt, hp⟩ := List.mem_filter.mp hmem
  have hsplit : List.range n = List.range (x + 1) ++ List.range' (x + 1) (n - (x + 1)) := by
    have hle : x + 1 ≤ n := List.mem_range.mp hlt
    have happend := List.range'_append_1 (s := 0) (m := x + 1) (n := n - (x + 1))
    rw [Nat.zero_add, Nat.add_sub_cancel' hle] at happend
    rw [List.range_eq_range', List.range_eq_range', happend]
  have hlast : (List.range (x + 1)).filter p = (List.range x).filter p ++ [x] := by
    rw [List.range_succ, List.filter_append, List.filter_cons_of_pos hp, List.filter_nil]
  have hnodup : ((List.range n).filter p).Nodup := List.nodup_range.filter _
  have hthere : ((List.range n).filter p)[((List.range x).filter p).length]? = some x := by
    rw [hsplit, List.filter_append, hlast, List.append_assoc, List.getElem?_append_right le_rfl, Nat.sub_self]
    rfl
  rw [hlast, List.length_append, List.length_singleton]
  obtain ⟨hr, hrx⟩ := List.getElem?_eq_some_iff.mp hx
  obtain ⟨hr', hrx'⟩ := List.getElem?_eq_some_iff.mp hthere
  rw [(hnodup.getElem_inj_iff).mp (hrx.trans hrx'.symm)]

end

end RoundRobin
