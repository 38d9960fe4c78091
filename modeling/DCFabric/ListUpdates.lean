import Mathlib

namespace ListUpdates

variable {α β : Type} {p : α → Bool} {g : α → α} {R : α → α → Prop} {l l' l₁ l₂ : List α} {a b : α}

/-- The list with `g` applied to its first element that satisfies `p`, if there is one. -/
def updateFirst (p : α → Bool) (g : α → α) : List α → Option (List α)
  | [] => none
  | a :: l => if p a then some (g a :: l) else (updateFirst p g l).map (a :: ·)

theorem updateFirst_none : updateFirst p g l = none ↔ ∀ a ∈ l, p a = false := by
  induction l with
  | nil => simp [updateFirst]
  | cons a l ih => by_cases h : p a <;> simp [updateFirst, h, ih]

theorem updateFirst_some (h : updateFirst p g l = some l') :
    ∃ l₁ a l₂, l = l₁ ++ a :: l₂ ∧ l' = l₁ ++ g a :: l₂ ∧ p a ∧ ∀ b ∈ l₁, p b = false := by
  induction l generalizing l' with
  | nil => cases h
  | cons a l ih =>
    by_cases hp : p a
    · obtain rfl : g a :: l = l' := by simpa [updateFirst, hp] using h
      exact ⟨[], a, l, rfl, rfl, hp, by simp⟩
    · obtain ⟨l'', hl, rfl⟩ : ∃ l'', updateFirst p g l = some l'' ∧ a :: l'' = l' := by simpa [updateFirst, hp] using h
      obtain ⟨l₁, b, l₂, rfl, rfl, hb, hl₁⟩ := ih hl
      exact ⟨a :: l₁, b, l₂, rfl, rfl, hb, List.forall_mem_cons.mpr ⟨by simpa using hp, hl₁⟩⟩

theorem updateFirst_append_cons (h₁ : ∀ b ∈ l₁, p b = false) (ha : p a) :
    updateFirst p g (l₁ ++ a :: l₂) = some (l₁ ++ g a :: l₂) := by
  induction l₁ with
  | nil => simp [updateFirst, ha]
  | cons b l₁ ih =>
    obtain ⟨hb, hl₁⟩ := List.forall_mem_cons.mp h₁
    simp [updateFirst, hb, ih hl₁]

theorem updateFirst_of_find? (h : l.find? p = some a) :
    ∃ l₁ l₂, l = l₁ ++ a :: l₂ ∧ updateFirst p g l = some (l₁ ++ g a :: l₂) := by
  cases hu : updateFirst p g l with
  | none =>
    rw [List.find?_eq_none.mpr] at h
    · cases h
    · simpa using updateFirst_none.mp hu
  | some l' =>
    obtain ⟨l₁, b, l₂, rfl, rfl, hb, hl₁⟩ := updateFirst_some hu
    rw [List.find?_append, List.find?_eq_none.mpr (by simpa using hl₁), Option.none_or,
      List.find?_cons_of_pos hb] at h
    obtain rfl := Option.some.inj h
    exact ⟨l₁, l₂, rfl, rfl⟩

theorem eraseP_eq_append (h : (l₁ ++ a :: l₂).eraseP p = l₁ ++ l₂) : p a := by
  rcases List.exists_or_eq_self_of_eraseP p (l₁ ++ a :: l₂) with hself | ⟨b, l, l', -, hb, hsplit, herase⟩
  · have hlen := congrArg List.length (hself.symm.trans h)
    simp at hlen
  · have hcons : a ::ₘ (↑(l₁ ++ l₂) : Multiset α) = b ::ₘ ↑(l₁ ++ l₂) := by
      rw [← h, Multiset.cons_coe, Multiset.cons_coe, Multiset.coe_eq_coe]
      have ha : (l₁ ++ a :: l₂).Perm (a :: (l₁ ++ a :: l₂).eraseP p) := h ▸ List.perm_middle
      have hb : (l₁ ++ a :: l₂).Perm (b :: (l₁ ++ a :: l₂).eraseP p) := by
        rw [herase, hsplit]
        exact List.perm_middle
      exact ha.symm.trans hb
    rwa [(Multiset.cons_inj_left _).mp hcons]

theorem eraseP_first (ha : p a) (hl : ∀ x ∈ l₁, ¬ p x) :
    (l₁ ++ a :: l₂).eraseP p = l₁ ++ l₂ := by
  rw [List.eraseP_append_right _ hl, List.eraseP_cons_of_pos ha]

theorem find?_first (ha : p a) (hl : ∀ x ∈ l₁, ¬ p x) :
    (l₁ ++ a :: l₂).find? p = some a := by
  rw [List.find?_append, List.find?_eq_none.mpr hl, Option.none_or, List.find?_cons_of_pos ha]

theorem eraseP_congr {q : α → Bool} (h : ∀ t ∈ l, p t = q t) : l.eraseP p = l.eraseP q := by
  induction l with
  | nil => rfl
  | cons t l ih =>
    obtain ⟨ht, hl⟩ := List.forall_mem_cons.mp h
    rw [List.eraseP_cons, List.eraseP_cons, ht, ih hl]

theorem forall₂_concat {S : α → β → Prop} {as : List α} {bs : List β}
    (h : List.Forall₂ S (as ++ [a]) bs) : ∃ bs' b, bs = bs' ++ [b] ∧ List.Forall₂ S as bs' ∧ S a b := by
  have htake := (List.forall₂_take_append _ _ _ h.flip).flip
  have hdrop := (List.forall₂_drop_append _ _ _ h.flip).flip
  obtain ⟨b, bs', hb, hnil, hbs⟩ := List.forall₂_cons_left_iff.mp hdrop
  obtain rfl := List.forall₂_nil_left_iff.mp hnil
  exact ⟨bs.take as.length, b, by rw [← hbs, List.take_append_drop], htake, hb⟩

theorem pairwise_replace (h : (l₁ ++ a :: l₂).Pairwise R) (h₁ : ∀ x ∈ l₁, R x b) (h₂ : ∀ x ∈ l₂, R b x) :
    (l₁ ++ b :: l₂).Pairwise R := by
  obtain ⟨hl₁, hl₂, hl⟩ := List.pairwise_append.mp h
  refine List.pairwise_append.mpr ⟨hl₁, List.pairwise_cons.mpr ⟨h₂, (List.pairwise_cons.mp hl₂).2⟩, ?_⟩
  intro x hx y hy
  rcases List.mem_cons.mp hy with rfl | hy
  · exact h₁ x hx
  · exact hl x hx y (List.mem_cons_of_mem a hy)

theorem pairwise_concat (h : l.Pairwise R) (hb : ∀ x ∈ l, R x b) : (l ++ [b]).Pairwise R := by
  refine List.pairwise_append.mpr ⟨h, List.pairwise_singleton R b, ?_⟩
  simpa using hb

theorem map_update_of_none (h : ∀ a ∈ l, p a = false) : l.map (fun a => if p a then g a else a) = l := by
  refine (List.map_congr_left ?_).trans (List.map_id l)
  intro a ha
  simp [h a ha]

theorem updateFirst_eq_map (h : updateFirst p g l = some l') (hl : l.Pairwise fun a b => ¬ (p a ∧ p b)) :
    l' = l.map fun a => if p a then g a else a := by
  obtain ⟨l₁, a, l₂, rfl, rfl, ha, h₁⟩ := updateFirst_some h
  have h₂ : ∀ b ∈ l₂, p b = false := by
    intro b hb
    have hab := (List.pairwise_cons.mp (List.pairwise_append.mp hl).2.1).1 b hb
    simpa [ha] using hab
  rw [List.map_append, List.map_cons, map_update_of_none h₁, map_update_of_none h₂, if_pos ha]

theorem updateFirst_getD (hl : l.Pairwise fun a b => ¬ (p a ∧ p b)) :
    (updateFirst p g l).getD l = l.map fun a => if p a then g a else a := by
  cases h : updateFirst p g l with
  | some l' => exact updateFirst_eq_map h hl
  | none => exact (map_update_of_none (updateFirst_none.mp h)).symm

theorem eraseP_eq_filter (hl : l.Pairwise fun a b => ¬ (p a ∧ p b)) : l.eraseP p = l.filter (!p ·) := by
  induction l with
  | nil => rfl
  | cons a l ih =>
    obtain ⟨ha, hl⟩ := List.pairwise_cons.mp hl
    by_cases hp : p a
    · have hall : ∀ b ∈ l, (!p b) = true := by
        intro b hb
        simpa [hp] using ha b hb
      simp [hp, List.filter_eq_self.mpr hall]
    · simp [hp, ih hl]

theorem filter_eq_find? (hl : l.Pairwise fun a b => ¬ (p a ∧ p b)) : l.filter p = (l.find? p).toList := by
  induction l with
  | nil => rfl
  | cons a l ih =>
    obtain ⟨ha, hl⟩ := List.pairwise_cons.mp hl
    by_cases hp : p a
    · have hnone : ∀ b ∈ l, ¬ p b := by
        intro b hb
        simpa [hp] using ha b hb
      simp [hp, List.filter_eq_nil_iff.mpr hnone]
    · simp [hp, ih hl]

section

variable {π : α → β} {k : β → β} {q : β → Prop} [DecidablePred q]

theorem map_update (hp : ∀ a ∈ l, p a ↔ q (π a)) (hg : ∀ a ∈ l, p a → π (g a) = k (π a)) :
    (l.map fun a => if p a then g a else a).map π = (l.map π).map fun b => if q b then k b else b := by
  rw [List.map_map, List.map_map]
  apply List.map_congr_left
  intro a ha
  by_cases h : p a
  · simp [h, (hp a ha).mp h, hg a ha h]
  · simp [h, (hp a ha).not.mp h]

theorem filter_map_of_iff (hp : ∀ a ∈ l, p a ↔ q (π a)) : (l.filter (!p ·)).map π = (l.map π).filter (¬ q ·) := by
  rw [List.filter_map]
  congr 1
  apply List.filter_congr
  intro a ha
  by_cases h : p a
  · simp [h, (hp a ha).mp h]
  · simp [h, (hp a ha).not.mp h]

end

/-- Elements that give nothing may be left out. -/
theorem flatMap_filter {f : α → List β} (h : ∀ a ∈ l, ¬ p a → f a = []) : (l.filter p).flatMap f = l.flatMap f := by
  induction l with
  | nil => rfl
  | cons a l ih =>
    obtain ⟨ha, hl⟩ := List.forall_mem_cons.mp h
    by_cases hp : p a
    · rw [List.filter_cons_of_pos hp, List.flatMap_cons, List.flatMap_cons, ih hl]
    · rw [List.filter_cons_of_neg hp, List.flatMap_cons, ha hp, List.nil_append, ih hl]

theorem length_flatMap_le {f : α → List β} {n k : ℕ} (hn : l.length ≤ n) (hk : ∀ a ∈ l, (f a).length ≤ k) :
    (l.flatMap f).length ≤ n * k := by
  rw [List.length_flatMap]
  refine (List.sum_le_card_nsmul _ k (List.forall_mem_map.mpr hk)).trans ?_
  rw [List.length_map, smul_eq_mul]
  exact Nat.mul_le_mul_right k hn

theorem ne_of_nodup_map {f : α → β} (h : ((l₁ ++ a :: l₂).map f).Nodup) (hb : b ∈ l₁ ∨ b ∈ l₂) : f b ≠ f a := by
  rw [List.map_append, List.map_cons] at h
  obtain ⟨-, hl₂, hdisj⟩ := List.nodup_append.mp h
  rcases hb with hb | hb
  · exact hdisj (f b) (List.mem_map_of_mem hb) (f a) List.mem_cons_self
  · exact fun heq => (List.nodup_cons.mp hl₂).1 (heq ▸ List.mem_map_of_mem hb)

/-- Elements that are left out of a list or change on the way are missed at the end. -/
theorem map_filter_eq_map_iff {f h : α → β} : (l.filter p).map f = l.map h ↔ ∀ a ∈ l, p a ∧ f a = h a := by
  constructor
  · intro heq
    have hlen : (l.filter p).length = l.length := by simpa using congrArg List.length heq
    have hall : ∀ a ∈ l, p a := List.length_filter_eq_length_iff.mp hlen
    rw [List.filter_eq_self.mpr hall] at heq
    intro a ha
    exact ⟨hall a ha, List.map_inj_left.mp heq a ha⟩
  · intro hall
    rw [List.filter_eq_self.mpr fun a ha => (hall a ha).1]
    exact List.map_congr_left fun a ha => (hall a ha).2

theorem filterMap_eq_self_iff {f : α → Option α} : l.filterMap f = l ↔ ∀ a ∈ l, f a = some a := by
  induction l with
  | nil => simp
  | cons a l ih =>
    rw [List.filterMap_cons, List.forall_mem_cons, ← ih]
    cases ha : f a with
    | none =>
      dsimp only
      refine iff_of_false ?_ (by simp)
      intro h
      have hle := List.length_filterMap_le f l
      rw [h, List.length_cons] at hle
      omega
    | some b => simp

/-- What a list gives is put in front one after the other. -/
theorem foldl_head_insert (l : List α) (f : α → Option β) (acc : List β) :
    l.foldl (fun acc a => (f a).toList ++ acc) acc = (l.filterMap f).reverse ++ acc := by
  induction l generalizing acc with
  | nil => rfl
  | cons a l ih =>
    rw [List.foldl_cons, ih, List.filterMap_cons]
    cases f a <;> simp

section

variable {σ κ : Type} {step : σ → α → σ} {out : σ → List β} {emit : σ → α → β} {key : β → κ} {k : α → κ} {s : σ}

theorem foldl_invariant {P : σ → Prop} (h : ∀ s, ∀ a ∈ l, P s → P (step s a)) (hs : P s) : P (l.foldl step s) := by
  induction l generalizing s with
  | nil => exact hs
  | cons a l ih =>
    apply ih
    · intro s b hb
      exact h s b (List.mem_cons_of_mem a hb)
    · exact h s a List.mem_cons_self hs

/-- What every step keeps, and what each one adds. -/
theorem foldl_seen {P : σ → Prop} {seen : σ → Set κ} {due : α → Set κ}
    (h : ∀ s, ∀ a ∈ l, P s → P (step s a) ∧ seen s ⊆ seen (step s a) ∧ due a ⊆ seen (step s a)) (hs : P s) :
    P (l.foldl step s) ∧ seen s ⊆ seen (l.foldl step s) ∧ ∀ a ∈ l, due a ⊆ seen (l.foldl step s) := by
  induction l generalizing s with
  | nil => exact ⟨hs, subset_rfl, List.forall_mem_nil _⟩
  | cons a l ih =>
    obtain ⟨hstep, hseen, hdue⟩ := h s a List.mem_cons_self hs
    obtain ⟨hall, hseen', hdue'⟩ := ih (fun s b hb => h s b (List.mem_cons_of_mem a hb)) hstep
    exact ⟨hall, hseen.trans hseen', List.forall_mem_cons.mpr ⟨hdue.trans hseen', hdue'⟩⟩

theorem foldl_append_one (hout : ∀ s a, out (step s a) = out s ++ [emit s a]) (hkey : ∀ s a, key (emit s a) = k a)
    (l : List α) (s : σ) : ∃ bs, out (l.foldl step s) = out s ++ bs ∧ bs.map key = l.map k := by
  induction l generalizing s with
  | nil => exact ⟨[], (List.append_nil _).symm, rfl⟩
  | cons a l ih =>
    obtain ⟨bs, hbs, hkeys⟩ := ih (step s a)
    refine ⟨emit s a :: bs, ?_, ?_⟩
    · rw [List.foldl_cons, hbs, hout, List.append_assoc, List.singleton_append]
    · rw [List.map_cons, hkey, hkeys, List.map_cons]

/-- What a step over a list appends for `a` is told from the rest by its key. -/
theorem filter_foldl_append_one [DecidableEq κ] (hout : ∀ s a, out (step s a) = out s ++ [emit s a])
    (hkey : ∀ s a, key (emit s a) = k a) (hnodup : ((l₁ ++ a :: l₂).map k).Nodup) (hs : out s = []) :
    (out ((l₁ ++ a :: l₂).foldl step s)).filter (key · = k a) = [emit (l₁.foldl step s) a] := by
  obtain ⟨bs₁, hbs₁, hkeys₁⟩ := foldl_append_one hout hkey l₁ s
  obtain ⟨bs₂, hbs₂, hkeys₂⟩ := foldl_append_one hout hkey l₂ (step (l₁.foldl step s) a)
  have hother : ∀ (l : List α) (bs : List β), bs.map key = l.map k → (∀ b ∈ l, k b ≠ k a) →
      bs.filter (key · = k a) = [] := by
    intro l bs hkeys hne
    apply List.filter_eq_nil_iff.mpr
    intro b hb hba
    have hmem := List.mem_map_of_mem (f := key) hb
    rw [hkeys] at hmem
    obtain ⟨c, hc, hcb⟩ := List.mem_map.mp hmem
    exact hne c hc (hcb.trans (by simpa using hba))
  rw [List.foldl_append, List.foldl_cons, hbs₂, hout, hbs₁, hs, List.nil_append, List.filter_append,
    List.filter_append, hother l₁ bs₁ hkeys₁ fun b hb => ne_of_nodup_map hnodup (.inl hb),
    hother l₂ bs₂ hkeys₂ fun b hb => ne_of_nodup_map hnodup (.inr hb)]
  simp [hkey]

end

theorem sum_map_set {f : α → ℕ} {d : α} {i : ℕ} (h : i < l.length) :
    ((l.set i a).map f).sum + f (l.getD i d) = (l.map f).sum + f a := by
  induction l generalizing i with
  | nil => simp at h
  | cons b l ih =>
    cases i with
    | zero =>
      simp only [List.set_cons_zero, List.map_cons, List.sum_cons, List.getD_cons_zero]
      omega
    | succ i =>
      have hrest := ih (Nat.lt_of_succ_lt_succ h)
      simp only [List.set_cons_succ, List.map_cons, List.sum_cons, List.getD_cons_succ]
      omega

end ListUpdates
