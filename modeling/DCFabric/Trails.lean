import Mathlib

namespace Trails

open SimpleGraph

variable {V N : Type} {G : SimpleGraph V} {v : N → V} {R : N → N → Prop} {a b c : V} {x y t h m : N} {l r : List N}

/-- Nodes one after the other, from one vertex to another. -/
structure Trail (v : N → V) (R : N → N → Prop) (a b : V) (l : List N) : Prop where
  head : l.head?.map v = some a
  last : l.getLast?.map v = some b
  chain : l.IsChain R

theorem Trail.eq_cons (ht : Trail v R a b l) : ∃ x r, l = x :: r ∧ v x = a := by
  obtain ⟨x, hx, hv⟩ := Option.map_eq_some_iff.mp ht.head
  obtain ⟨r, hr⟩ := List.head?_eq_some_iff.mp hx
  exact ⟨x, r, hr, hv⟩

theorem Trail.eq_concat (ht : Trail v R a b l) : ∃ r x, l = r ++ [x] ∧ v x = b := by
  obtain ⟨x, hx, hv⟩ := Option.map_eq_some_iff.mp ht.last
  obtain ⟨r, hr⟩ := List.getLast?_eq_some_iff.mp hx
  exact ⟨r, x, hr, hv⟩

theorem Trail.pair (h : R x y) : Trail v R (v x) (v y) [x, y] := ⟨rfl, rfl, List.isChain_pair.mpr h⟩

theorem Trail.of_cons (ht : Trail v R a b (x :: y :: r)) : R x y ∧ Trail v R (v y) b (y :: r) := by
  obtain ⟨hxy, hchain⟩ := List.isChain_cons_cons.mp ht.chain
  refine ⟨hxy, rfl, ?_, hchain⟩
  rw [← ht.last, List.getLast?_cons_cons]

/-- What leads from one vertex to another leads back when its nodes are turned round. -/
theorem Trail.reverse {swap : N → N} (hv : ∀ x, v (swap x) = v x) (hR : ∀ x y, R x y → R (swap y) (swap x))
    (ht : Trail v R a b l) : Trail v R b a (l.reverse.map swap) := by
  constructor
  · rw [List.head?_map, List.head?_reverse, Option.map_map, ← ht.last]
    exact congrArg (l.getLast?.map ·) (funext hv)
  · rw [List.getLast?_map, List.getLast?_reverse, Option.map_map, ← ht.head]
    exact congrArg (l.head?.map ·) (funext hv)
  · rw [List.isChain_map, List.isChain_reverse]
    exact ht.chain.imp fun x y => hR x y

/-- A node takes the place of the last one of a trail and of the first one of another. -/
theorem Trail.join (hl : Trail v R a b (l ++ [t])) (hr : Trail v R b c (h :: r)) (hv : v m = b)
    (hto : ∀ x, R x t → R x m) (hfrom : ∀ x, R h x → R m x) : Trail v R a c (l ++ [m] ++ r) := by
  have hleft : Trail v R a b (l ++ [m]) := by
    have hvt : v t = b := by simpa using hl.last
    obtain ⟨hchain, -, hlast⟩ := List.isChain_append.mp hl.chain
    refine ⟨?_, by simp [hv], ?_⟩
    · rw [← hl.head]
      cases l with
      | nil => exact congrArg some (hv.trans hvt.symm)
      | cons x l => rfl
    · refine List.isChain_append.mpr ⟨hchain, List.isChain_singleton m, ?_⟩
      intro x hx y hy
      obtain rfl : m = y := by simpa using hy
      exact hto x (hlast x hx t rfl)
  constructor
  · rw [← hleft.head]
    cases l <;> rfl
  · rw [← hr.last, List.append_assoc, List.singleton_append, List.getLast?_append]
    cases r with
    | nil =>
      have hvh : v h = b := by simpa using hr.head
      simp [hv, hvh]
    | cons x r => simp [List.getLast?_cons]
  · refine List.isChain_append.mpr ⟨hleft.chain, hr.chain.tail, ?_⟩
    intro x hx y hy
    obtain rfl : m = x := by simpa using hx
    obtain ⟨r', rfl⟩ := List.head?_eq_some_iff.mp hy
    exact hfrom y (List.isChain_cons_cons.mp hr.chain).1

/-- A trail of links is a walk. -/
theorem Trail.walk (hR : ∀ x y, R x y → G.Adj (v x) (v y)) (ht : Trail v R a b l) :
    ∃ w : G.Walk a b, w.support = l.map v := by
  have hchain : (l.map v).IsChain G.Adj := by
    rw [List.isChain_map]
    exact ht.chain.imp fun x y => hR x y
  have hne : l.map v ≠ [] := by
    obtain ⟨x, r, rfl, -⟩ := ht.eq_cons
    exact List.cons_ne_nil _ _
  have ha : (l.map v).head hne = a := by
    rw [← Option.some_inj, ← List.head?_eq_some_head, List.head?_map, ht.head]
  have hb : (l.map v).getLast hne = b := by
    rw [← Option.some_inj, ← List.getLast?_eq_some_getLast, List.getLast?_map, ht.last]
  subst ha hb
  exact ⟨Walk.ofSupport (l.map v) hne hchain, Walk.support_ofSupport hne hchain⟩

theorem Trail.edist_lt (hR : ∀ x y, R x y → G.Adj (v x) (v y)) (ht : Trail v R a b l) : G.edist a b < l.length := by
  obtain ⟨w, hw⟩ := ht.walk hR
  have hlen : w.length + 1 = l.length := by rw [← Walk.length_support, hw, List.length_map]
  rw [← hlen]
  exact (w.edist_le).trans_lt (by exact_mod_cast Nat.lt_succ_self _)

/-- A trail that is as short as can be meets no vertex twice. -/
theorem Trail.nodup (hR : ∀ x y, R x y → G.Adj (v x) (v y)) (ht : Trail v R a b l) {n : ℕ} (hlen : l.length = n + 1)
    (hn : G.edist a b = n) : (l.map v).Nodup := by
  obtain ⟨w, hw⟩ := ht.walk hR
  have hwlen : w.length = n := by
    have := w.length_support
    rw [hw, List.length_map] at this
    omega
  have hdist : w.length = G.dist a b := by
    rw [hwlen, SimpleGraph.dist, hn, ENat.toNat_natCast]
  rw [← hw]
  exact (w.isPath_of_length_eq_dist hdist).support_nodup

section

variable {k : ℕ}

theorem edist_eq_succ (hlt : G.edist a b < (k + 2 : ℕ)) (hnear : ¬ G.edist a b ≤ k) :
    G.edist a b = (k + 1 : ℕ) := by
  obtain ⟨n, hn⟩ := ENat.ne_top_iff_exists.mp hlt.ne_top
  rw [← hn] at hlt hnear ⊢
  norm_cast at hlt hnear ⊢
  omega

/-- The last link of a shortest walk. -/
theorem exists_adj_of_edist_succ (h : G.edist a b = (k + 1 : ℕ)) : ∃ c, G.edist a c = k ∧ G.Adj c b := by
  obtain ⟨w, hw⟩ := exists_walk_of_edist_eq_coe h
  have hnil : ¬ w.Nil := by
    intro hnil
    rw [Walk.length_eq_zero_iff.mpr hnil] at hw
    cases hw
  have hadj := w.adj_penultimate hnil
  refine ⟨w.penultimate, le_antisymm ?_ ?_, hadj⟩
  · have hdrop := w.length_dropLast_add_one hnil
    have hlen : w.dropLast.length = k := by omega
    rw [← hlen]
    exact w.dropLast.edist_le
  · have htriangle : G.edist a b ≤ G.edist a w.penultimate + G.edist w.penultimate b := G.edist_triangle
    rw [edist_eq_one_iff_adj.mpr hadj, h, Nat.cast_add, Nat.cast_one] at htriangle
    exact (ENat.add_le_add_iff_right ENat.one_ne_top).mp htriangle

end

end Trails
