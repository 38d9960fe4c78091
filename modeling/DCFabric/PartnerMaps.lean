import Mathlib

namespace PartnerMaps

variable {α : Type} [DecidableEq α]

/-- Whoever has a partner is its partner's partner. -/
def Mutual (f : α → Option α) : Prop := ∀ x y, f x = some y → f y = some x

/-- `x` and `y` become partners, whoever their partners were. -/
def link (f : α → Option α) (x y : α) : α → Option α := Function.update (Function.update f x (some y)) y (some x)

/-- `x` and its partner are left without partners. -/
def cut (f : α → Option α) (x : α) : α → Option α :=
  match f x with
  | none => f
  | some y => Function.update (Function.update f y none) x none

variable {f : α → Option α} {x y z : α}

theorem link_apply (f : α → Option α) (x y z : α) :
    link f x y z = if z = y then some x else if z = x then some y else f z := by
  rw [link, Function.update_apply, Function.update_apply]

theorem cut_of_none (h : f x = none) : cut f x = f := by
  rw [cut, h]

theorem cut_apply (h : f x = some y) (z : α) : cut f x z = if z = x ∨ z = y then none else f z := by
  rw [cut, h]
  simp only [Function.update_apply]
  by_cases hx : z = x
  · simp [hx]
  · simp [hx]

/-- A link keeps partners mutual exactly when it leaves no one behind. -/
theorem mutual_link (hf : Mutual f) :
    Mutual (link f x y) ↔ ∀ z w, z = x ∨ z = y → f z = some w → w = x ∨ w = y := by
  constructor
  · intro h z w hz hw
    by_contra hne
    push Not at hne
    have hback := hf z w hw
    have hstill : link f x y w = some z := by
      rw [link_apply, if_neg hne.2, if_neg hne.1, hback]
    have hlinked := h w z hstill
    rw [link_apply] at hlinked
    split_ifs at hlinked with hzy hzx
    · exact hne.1 (Option.some.inj hlinked).symm
    · exact hne.2 (Option.some.inj hlinked).symm
    · exact hz.elim hzx hzy
  · intro h z w hzw
    rw [link_apply] at hzw
    rw [link_apply]
    split_ifs at hzw with hzy hzx
    · obtain rfl := Option.some.inj hzw
      subst hzy
      by_cases hxz : x = z
      · rw [if_pos hxz, hxz]
      · rw [if_neg hxz, if_pos rfl]
    · obtain rfl := Option.some.inj hzw
      rw [if_pos rfl, hzx]
    · have hwy : w ≠ y := by
        rintro rfl
        exact (h w z (.inr rfl) (hf z w hzw)).elim hzx hzy
      have hwx : w ≠ x := by
        rintro rfl
        exact (h w z (.inl rfl) (hf z w hzw)).elim hzx hzy
      rw [if_neg hwy, if_neg hwx]
      exact hf z w hzw

theorem Mutual.cut (hf : Mutual f) (x : α) : Mutual (cut f x) := by
  cases h : f x with
  | none =>
    rw [cut_of_none h]
    exact hf
  | some y =>
    intro z w hz
    rw [cut_apply h] at hz ⊢
    split_ifs at hz with hzxy
    have hback := hf z w hz
    have hw : ¬ (w = x ∨ w = y) := by
      rintro (rfl | rfl)
      · rw [h] at hback
        exact hzxy (.inr (Option.some.inj hback).symm)
      · have hx := (hf x w h).symm.trans hback
        exact hzxy (.inl (Option.some.inj hx).symm)
    rw [if_neg hw, hback]

end PartnerMaps

/-- Which port of a switch is cabled to which, and the ports that are marked as cabled. -/
structure Cabling (σ : Type) where
  partner : σ × ℕ → Option (σ × ℕ)
  marked : σ × ℕ → Bool

namespace Cabling

open PartnerMaps

variable {σ : Type} [DecidableEq σ]

/-- Partners are mutual, and the ports with a partner are those that are marked. -/
structure Exact (c : Cabling σ) : Prop where
  paired : Mutual c.partner
  marked : ∀ x, c.marked x = (c.partner x).isSome

def connect (c : Cabling σ) (x y : σ × ℕ) : Cabling σ where
  partner := link c.partner x y
  marked := Function.update (Function.update c.marked y true) x true

/-- The partners are parted. The mark is taken from the partner, and from the port of the first switch that has the
partner's number. -/
def drop (c : Cabling σ) (x : σ × ℕ) : Cabling σ :=
  match c.partner x with
  | none => c
  | some y =>
    { partner := cut c.partner x
      marked := Function.update (Function.update c.marked y false) (x.1, y.2) false }

/-- All ports of a switch below `n` are dropped, one after the other. -/
def release (c : Cabling σ) (sw : σ) (n : ℕ) : Cabling σ := (List.range n).foldl (fun c i => c.drop (sw, i)) c

variable {c : Cabling σ} {x y z w : σ × ℕ} {sw : σ} {n k : ℕ}

theorem connect_exact (hc : c.Exact) :
    (c.connect x y).Exact ↔ ∀ z w, z = x ∨ z = y → c.partner z = some w → w = x ∨ w = y := by
  constructor
  · exact fun h => (mutual_link hc.paired).mp h.paired
  · intro h
    refine ⟨(mutual_link hc.paired).mpr h, ?_⟩
    intro z
    simp only [connect, link_apply, Function.update_apply, hc.marked]
    split_ifs <;> simp_all

/-- The mark that is taken is the right one exactly where both ports have the same number. -/
theorem drop_exact (hc : c.Exact) : (c.drop x).Exact ↔ ∀ y, c.partner x = some y → y.2 = x.2 := by
  cases h : c.partner x with
  | none =>
    rw [drop, h]
    exact ⟨fun _ y hy => (by cases hy), fun _ => hc⟩
  | some y =>
    have hdrop : c.drop x = ⟨cut c.partner x, Function.update (Function.update c.marked y false) (x.1, y.2) false⟩ := by
      rw [drop, h]
    rw [hdrop]
    constructor
    · rintro ⟨-, hmarked⟩ y' hy'
      obtain rfl := Option.some.inj hy'
      by_contra hne
      have hx := hmarked x
      simp only [cut_apply h, true_or, if_true, Option.isSome_none] at hx
      have hxy : x ≠ (x.1, y.2) := fun heq => hne (congrArg Prod.snd heq).symm
      have hne' : x ≠ y := fun heq => hne (congrArg Prod.snd heq).symm
      rw [Function.update_of_ne hxy, Function.update_of_ne hne', hc.marked, h] at hx
      cases hx
    · intro hsame
      refine ⟨hc.paired.cut x, ?_⟩
      intro z
      have hself : (x.1, y.2) = x := Prod.ext rfl (hsame y rfl)
      simp only [cut_apply h, hself, Function.update_apply, hc.marked]
      split_ifs <;> simp_all

/-- A port that has lost its partner once the ports of the switch below `k` are dropped. -/
def Freed (c : Cabling σ) (sw : σ) (k : ℕ) (z : σ × ℕ) : Prop :=
  (z.1 = sw ∧ z.2 < k) ∨ ∃ j < k, c.partner z = some (sw, j)

/-- A port that has lost its mark then: a port of the switch still had its partner when it was dropped, and that is the
port, or has its number. -/
def Unmarked (c : Cabling σ) (sw : σ) (k : ℕ) (z : σ × ℕ) : Prop :=
  ∃ j < k, ∃ y, c.partner (sw, j) = some y ∧ (y.1 = sw → j ≤ y.2) ∧ (z = y ∨ z = (sw, y.2))

theorem release_succ (c : Cabling σ) (sw : σ) (k : ℕ) : c.release sw (k + 1) = (c.release sw k).drop (sw, k) := by
  rw [release, List.range_succ, List.foldl_append]
  rfl

omit [DecidableEq σ] in
theorem freed_succ : c.Freed sw (k + 1) z ↔ c.Freed sw k z ∨ z = (sw, k) ∨ c.partner z = some (sw, k) := by
  constructor
  · rintro (⟨hz, hlt⟩ | ⟨j, hj, hz⟩)
    · rcases Nat.lt_succ_iff_lt_or_eq.mp hlt with hlt | heq
      · exact .inl (.inl ⟨hz, hlt⟩)
      · exact .inr (.inl (Prod.ext hz heq))
    · rcases Nat.lt_succ_iff_lt_or_eq.mp hj with hlt | rfl
      · exact .inl (.inr ⟨j, hlt, hz⟩)
      · exact .inr (.inr hz)
  · rintro ((⟨hz, hlt⟩ | ⟨j, hj, hz⟩) | rfl | hz)
    · exact .inl ⟨hz, hlt.trans (Nat.lt_succ_self k)⟩
    · exact .inr ⟨j, hj.trans (Nat.lt_succ_self k), hz⟩
    · exact .inl ⟨rfl, Nat.lt_succ_self k⟩
    · exact .inr ⟨k, Nat.lt_succ_self k, hz⟩

omit [DecidableEq σ] in
theorem unmarked_succ : c.Unmarked sw (k + 1) z ↔ c.Unmarked sw k z ∨
    ∃ y, c.partner (sw, k) = some y ∧ (y.1 = sw → k ≤ y.2) ∧ (z = y ∨ z = (sw, y.2)) := by
  constructor
  · rintro ⟨j, hj, y, hy⟩
    rcases Nat.lt_succ_iff_lt_or_eq.mp hj with hlt | rfl
    · exact .inl ⟨j, hlt, y, hy⟩
    · exact .inr ⟨y, hy⟩
  · rintro (⟨j, hj, y, hy⟩ | ⟨y, hy⟩)
    · exact ⟨j, hj.trans (Nat.lt_succ_self k), y, hy⟩
    · exact ⟨k, Nat.lt_succ_self k, y, hy⟩

omit [DecidableEq σ] in
/-- A port whose partner went with a port before it frees nothing more. -/
theorem freed_of_gone (hc : Mutual c.partner) (hgone : ∀ y, c.partner (sw, k) = some y → ∃ j < k, y = (sw, j))
    (hz : c.partner z = some w) : c.Freed sw (k + 1) z ↔ c.Freed sw k z := by
  rw [freed_succ]
  refine ⟨?_, .inl⟩
  rintro (hf | rfl | hzk)
  · exact hf
  · obtain ⟨j, hj, rfl⟩ := hgone w hz
    exact .inr ⟨j, hj, hz⟩
  · obtain ⟨j, hj, rfl⟩ := hgone z (hc z (sw, k) hzk)
    exact .inl ⟨rfl, hj⟩

omit [DecidableEq σ] in
theorem unmarked_of_gone (hgone : ∀ y, c.partner (sw, k) = some y → ∃ j < k, y = (sw, j)) :
    c.Unmarked sw (k + 1) z ↔ c.Unmarked sw k z := by
  rw [unmarked_succ]
  refine ⟨?_, .inl⟩
  rintro (hu | ⟨y, hy, hle, -⟩)
  · exact hu
  · obtain ⟨j, hj, rfl⟩ := hgone y hy
    exact absurd (hle rfl) (not_le.mpr hj)

omit [DecidableEq σ] in
theorem freed_of_ne (hc : Mutual c.partner) (hy : c.partner (sw, k) = some y) (hz : ¬ (z = (sw, k) ∨ z = y)) :
    c.Freed sw (k + 1) z ↔ c.Freed sw k z := by
  rw [freed_succ]
  refine ⟨?_, .inl⟩
  rintro (hf | hzk | hzk)
  · exact hf
  · exact absurd (.inl hzk) hz
  · exact absurd (.inr (Option.some.inj ((hc z (sw, k) hzk).symm.trans hy))) hz

omit [DecidableEq σ] in
theorem unmarked_of_ne (hy : c.partner (sw, k) = some y) (hz : z ≠ y) (hz' : z ≠ (sw, y.2)) :
    c.Unmarked sw (k + 1) z ↔ c.Unmarked sw k z := by
  rw [unmarked_succ]
  refine ⟨?_, .inl⟩
  rintro (hu | ⟨y', hy', -, hz''⟩)
  · exact hu
  · obtain rfl := Option.some.inj (hy.symm.trans hy')
    exact absurd hz'' (not_or.mpr ⟨hz, hz'⟩)

/-- What is left of a cabling after the ports of a switch below `k` were dropped. -/
theorem release_apply (hc : Mutual c.partner) (sw : σ) (k : ℕ) :
    (∀ z w, (c.release sw k).partner z = some w ↔ c.partner z = some w ∧ ¬ c.Freed sw k z) ∧
      ∀ z, (c.release sw k).marked z ↔ c.marked z ∧ ¬ c.Unmarked sw k z := by
  induction k with
  | zero => simp [release, Freed, Unmarked]
  | succ k ih =>
    obtain ⟨hpartner, hmarked⟩ := ih
    rw [release_succ, drop]
    cases h : (c.release sw k).partner (sw, k) with
    | none =>
      -- the port has no partner, or lost it with a port before it
      have hgone : ∀ y, c.partner (sw, k) = some y → ∃ j < k, y = (sw, j) := by
        intro y hy
        by_contra hno
        have hstill := (hpartner (sw, k) y).mpr ⟨hy, ?_⟩
        · rw [h] at hstill
          cases hstill
        · rintro (⟨-, hlt⟩ | ⟨j, hj, hyj⟩)
          · exact lt_irrefl k hlt
          · exact hno ⟨j, hj, Option.some.inj (hy.symm.trans hyj)⟩
      constructor
      · intro z w
        rw [hpartner]
        exact and_congr_right fun hz => not_congr (freed_of_gone hc hgone hz).symm
      · intro z
        rw [hmarked, unmarked_of_gone hgone]
    | some y =>
      obtain ⟨hy, hkept⟩ := (hpartner (sw, k) y).mp h
      have hle : y.1 = sw → k ≤ y.2 := by
        intro hsw
        by_contra hlt
        exact hkept (.inr ⟨y.2, not_le.mp hlt, by rw [hy, ← hsw]⟩)
      dsimp only
      constructor
      · intro z w
        rw [cut_apply h]
        split_ifs with hz
        · have hfreed : c.Freed sw (k + 1) z := by
            rw [freed_succ]
            rcases hz with rfl | rfl
            · exact .inr (.inl rfl)
            · exact .inr (.inr (hc (sw, k) z hy))
          exact iff_of_false nofun fun hw => hw.2 hfreed
        · rw [hpartner, freed_of_ne hc hy hz]
      · intro z
        rw [Function.update_apply, Function.update_apply]
        split_ifs with hz₁ hz₂
        · exact iff_of_false id fun hm => hm.2 (unmarked_succ.mpr (.inr ⟨y, hy, hle, .inr hz₁⟩))
        · exact iff_of_false id fun hm => hm.2 (unmarked_succ.mpr (.inr ⟨y, hy, hle, .inl hz₂⟩))
        · rw [hmarked, unmarked_of_ne hy hz₂ hz₁]

/-- The release of a switch takes the marks of all its ports exactly where each cabled port of it has the number of a
partner that was still there when its turn came. -/
theorem release_exact (hc : c.Exact) (hn : ∀ i, c.partner (sw, i) ≠ none → i < n) :
    (c.release sw n).Exact ↔ ∀ i, c.partner (sw, i) ≠ none →
      ∃ j b, c.partner (sw, j) = some (b, i) ∧ (b = sw → j ≤ i) := by
  obtain ⟨hpartner, hmarked⟩ := release_apply hc.paired sw n
  constructor
  · intro h i hi
    have hnone : (c.release sw n).partner (sw, i) = none := by
      rw [Option.eq_none_iff_forall_ne_some]
      intro w hw
      exact ((hpartner (sw, i) w).mp hw).2 (.inl ⟨rfl, hn i hi⟩)
    have hunmarked : ¬ (c.release sw n).marked (sw, i) := by
      rw [h.marked, hnone]
      simp
    rw [hmarked] at hunmarked
    have hmark : c.marked (sw, i) := by
      rw [hc.marked]
      exact Option.isSome_iff_ne_none.mpr hi
    obtain ⟨j, -, y, hy, hle, hz⟩ := not_not.mp fun hno => hunmarked ⟨hmark, hno⟩
    rcases hz with rfl | hz
    · exact ⟨j, sw, hy, hle⟩
    · obtain rfl : i = y.2 := congrArg Prod.snd hz
      exact ⟨j, y.1, hy, hle⟩
  · intro h
    refine ⟨?_, ?_⟩
    · intro z w hz
      obtain ⟨hz, hkept⟩ := (hpartner z w).mp hz
      refine (hpartner w z).mpr ⟨hc.paired z w hz, ?_⟩
      rintro (⟨hw, hlt⟩ | ⟨j, hj, hw⟩)
      · exact hkept (.inr ⟨w.2, hlt, by rw [hz, ← hw]⟩)
      · obtain rfl := Option.some.inj ((hc.paired z w hz).symm.trans hw)
        exact hkept (.inl ⟨rfl, hj⟩)
    · intro z
      rw [Bool.eq_iff_iff, hmarked, Option.isSome_iff_exists, hc.marked, Option.isSome_iff_exists]
      constructor
      · rintro ⟨⟨w, hz⟩, hmark⟩
        refine ⟨w, (hpartner z w).mpr ⟨hz, ?_⟩⟩
        have hother : z.1 ≠ sw := by
          rintro rfl
          obtain ⟨j, b, hj, hle⟩ := h z.2 (by simp [hz])
          exact hmark ⟨j, hn j (by simp [hj]), (b, z.2), hj, hle, .inr rfl⟩
        rintro (⟨hsw, -⟩ | ⟨j, hj, hzj⟩)
        · exact hother hsw
        · exact hmark ⟨j, hj, z, hc.paired z (sw, j) hzj, fun hsw => absurd hsw hother, .inl rfl⟩
      · rintro ⟨w, hw⟩
        obtain ⟨hz, hkept⟩ := (hpartner z w).mp hw
        refine ⟨⟨w, hz⟩, ?_⟩
        rintro ⟨j, hj, y, hy, -, rfl | rfl⟩
        · exact hkept (.inr ⟨j, hj, hc.paired (sw, j) z hy⟩)
        · exact hkept (.inl ⟨rfl, hn y.2 (by simp [hz])⟩)

end Cabling
