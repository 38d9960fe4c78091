import Mathlib

/-- A pool of `total_len` blocks: those from `head` on were never given out, and the others that are free come after
them in the order in which they came back. -/
structure MemPool where
  total_len : ℕ
  head : ℕ
  returned : List ℕ
  head_le : head ≤ total_len
  nodup : returned.Nodup
  lt_head : ∀ a ∈ returned, a < head

namespace MemPool

def mem_create (len : ℕ) : MemPool := ⟨len, 0, [], Nat.zero_le len, List.nodup_nil, by simp⟩

/-- The block is taken. -/
def InUse (p : MemPool) (a : ℕ) : Prop := a < p.head ∧ a ∉ p.returned

instance (p : MemPool) (a : ℕ) : Decidable (p.InUse a) := inferInstanceAs (Decidable (_ ∧ _))

/-- The number of free blocks. -/
def usable_len (p : MemPool) : ℕ := p.total_len - p.head + p.returned.length

def mem_get (p : MemPool) : Option (ℕ × MemPool) :=
  if h : p.head < p.total_len then
    some (p.head, { p with
      head := p.head + 1
      head_le := h
      lt_head := fun a ha => (p.lt_head a ha).trans (Nat.lt_succ_self _) })
  else
    match hr : p.returned with
    | [] => none
    | a :: l => some (a, { p with
      returned := l
      nodup := (List.nodup_cons.mp (hr ▸ p.nodup)).2
      lt_head := fun b hb => p.lt_head b (hr ▸ List.mem_cons_of_mem a hb) })

/-- A block that is free already does not come back again. -/
def mem_free (p : MemPool) (a : ℕ) : MemPool :=
  if h : p.InUse a then
    { p with
      returned := p.returned ++ [a]
      nodup := List.nodup_append.mpr ⟨p.nodup, List.nodup_singleton a, by
        rintro b hb c hc rfl
        exact h.2 (List.mem_singleton.mp hc ▸ hb)⟩
      lt_head := by
        intro b hb
        rcases List.mem_append.mp hb with hb | hb
        · exact p.lt_head b hb
        · exact List.mem_singleton.mp hb ▸ h.1 }
  else p

/-- The blocks that are taken are those of the list, each once. -/
structure Owns (p : MemPool) (l : List ℕ) : Prop where
  nodup : l.Nodup
  inUse : ∀ a, p.InUse a ↔ a ∈ l

/-- The free blocks in the order in which they go out. -/
def freeList (p : MemPool) : List ℕ := List.range' p.head (p.total_len - p.head) ++ p.returned

variable {p p' : MemPool} {a : ℕ} {l l' : List ℕ}

theorem mem_get_cases (he : p.mem_get = some (a, p')) :
    p'.total_len = p.total_len ∧
      ((p.head < p.total_len ∧ a = p.head ∧ p'.head = p.head + 1 ∧ p'.returned = p.returned) ∨
        (p.head = p.total_len ∧ p'.head = p.head ∧ p.returned = a :: p'.returned)) := by
  rw [mem_get] at he
  split at he
  · next h =>
    simp only [Option.some.injEq, Prod.mk.injEq] at he
    obtain ⟨rfl, rfl⟩ := he
    exact ⟨rfl, .inl ⟨h, rfl, rfl, rfl⟩⟩
  · next h =>
    split at he
    · cases he
    · next b k hr =>
      simp only [Option.some.injEq, Prod.mk.injEq] at he
      obtain ⟨rfl, rfl⟩ := he
      exact ⟨rfl, .inr ⟨le_antisymm p.head_le (not_lt.mp h), rfl, hr⟩⟩

theorem mem_get_inUse (he : p.mem_get = some (a, p')) (b : ℕ) : p'.InUse b ↔ b = a ∨ p.InUse b := by
  obtain ⟨-, ⟨-, rfl, hh, hr⟩ | ⟨-, hh, hr⟩⟩ := mem_get_cases he
  · have hnew : p.head ∉ p.returned := fun hm => lt_irrefl _ (p.lt_head _ hm)
    simp only [InUse, hh, hr]
    constructor
    · rintro ⟨hlt, hb⟩
      exact (Nat.lt_succ_iff_lt_or_eq.mp hlt).symm.imp id fun hlt => ⟨hlt, hb⟩
    · rintro (rfl | ⟨hlt, hb⟩)
      · exact ⟨Nat.lt_succ_self _, hnew⟩
      · exact ⟨hlt.trans (Nat.lt_succ_self _), hb⟩
  · have ha : a < p.head := p.lt_head a (by simp [hr])
    have hnot : a ∉ p'.returned := (List.nodup_cons.mp (hr ▸ p.nodup)).1
    simp only [InUse, hh, hr, List.mem_cons, not_or]
    constructor
    · rintro ⟨hlt, hb⟩
      by_cases hba : b = a
      · exact .inl hba
      · exact .inr ⟨hlt, hba, hb⟩
    · rintro (rfl | ⟨hlt, -, hb⟩)
      · exact ⟨ha, hnot⟩
      · exact ⟨hlt, hb⟩

theorem freeList_mem_get (he : p.mem_get = some (a, p')) : p.freeList = a :: p'.freeList := by
  obtain ⟨ht, ⟨hlt, rfl, hh, hr⟩ | ⟨hle, hh, hr⟩⟩ := mem_get_cases he
  · rw [freeList, freeList, ht, hh, hr, show p.total_len - p.head = p.total_len - (p.head + 1) + 1 by omega,
      List.range'_succ]
    rfl
  · rw [freeList, freeList, ht, hh, hr, hle, Nat.sub_self]
    rfl

theorem mem_freeList (ha : a < p.total_len) : a ∈ p.freeList ↔ ¬p.InUse a := by
  rw [freeList, List.mem_append, List.mem_range'_1, InUse]
  by_cases hr : a ∈ p.returned
  · simp [hr]
  · simp only [hr, not_false_eq_true, or_false, and_true, not_lt]
    omega

theorem length_freeList (p : MemPool) : p.freeList.length = p.usable_len := by
  rw [freeList, List.length_append, List.length_range', usable_len]

theorem freeList_mem_free (h : p.InUse a) : (p.mem_free a).freeList = p.freeList ++ [a] := by
  rw [mem_free, dif_pos h, freeList, freeList, List.append_assoc]

theorem mem_get_fresh (he : p.mem_get = some (a, p')) : ¬ p.InUse a := by
  obtain ⟨-, ⟨-, rfl, -, -⟩ | ⟨-, -, hr⟩⟩ := mem_get_cases he
  · exact fun h => lt_irrefl _ h.1
  · exact fun h => h.2 (by simp [hr])

theorem usable_len_mem_get (he : p.mem_get = some (a, p')) : p'.usable_len + 1 = p.usable_len := by
  obtain ⟨ht, ⟨hlt, -, hh, hr⟩ | ⟨hle, hh, hr⟩⟩ := mem_get_cases he
  · simp only [usable_len, ht, hh, hr]
    omega
  · simp only [usable_len, ht, hh, hr, List.length_cons]
    omega

theorem mem_get_eq_none : p.mem_get = none ↔ p.usable_len = 0 := by
  constructor
  · intro hn
    rw [mem_get] at hn
    split at hn
    · cases hn
    · next h =>
      split at hn
      · next hr =>
        rw [usable_len, hr, List.length_nil]
        omega
      · cases hn
  · intro hz
    by_contra hne
    obtain ⟨⟨a, p'⟩, he⟩ := Option.ne_none_iff_exists'.mp hne
    have := usable_len_mem_get he
    omega

theorem mem_free_inUse (h : p.InUse a) (b : ℕ) : (p.mem_free a).InUse b ↔ b ≠ a ∧ p.InUse b := by
  rw [mem_free, dif_pos h]
  simp only [InUse, List.mem_append, List.mem_singleton, not_or]
  constructor
  · rintro ⟨hlt, hb, hba⟩
    exact ⟨hba, hlt, hb⟩
  · rintro ⟨hba, hlt, hb⟩
    exact ⟨hlt, hb, hba⟩

theorem usable_len_mem_free (h : p.InUse a) : (p.mem_free a).usable_len = p.usable_len + 1 := by
  rw [mem_free, dif_pos h]
  simp only [usable_len, List.length_append, List.length_singleton]
  omega

theorem total_len_mem_free (p : MemPool) (a : ℕ) : (p.mem_free a).total_len = p.total_len := by
  rw [mem_free]
  split <;> rfl

theorem nodup_freeList (p : MemPool) : p.freeList.Nodup := by
  apply List.nodup_append.mpr
  refine ⟨List.nodup_range', p.nodup, ?_⟩
  rintro a ha b hb rfl
  have hlt := p.lt_head a hb
  have hle := (List.mem_range'_1.mp ha).1
  omega

theorem lt_of_mem_freeList (h : a ∈ p.freeList) : a < p.total_len := by
  rcases List.mem_append.mp h with h | h
  · have hlt := (List.mem_range'_1.mp h).2
    have hle := p.head_le
    omega
  · exact (p.lt_head a h).trans_le p.head_le

/-- The blocks go out one after the other. -/
structure Gives (p : MemPool) (l : List ℕ) (p' : MemPool) : Prop where
  freeList : p.freeList = l ++ p'.freeList
  total_len : p'.total_len = p.total_len

theorem Gives.refl (p : MemPool) : p.Gives [] p := ⟨rfl, rfl⟩

theorem Gives.trans {p₁ p₂ p₃ : MemPool} (h : p₁.Gives l p₂) (h' : p₂.Gives l' p₃) : p₁.Gives (l ++ l') p₃ where
  freeList := by rw [h.freeList, h'.freeList, List.append_assoc]
  total_len := h'.total_len.trans h.total_len

theorem gives_of_mem_get (he : p.mem_get = some (a, p')) : p.Gives [a] p' :=
  ⟨freeList_mem_get he, (mem_get_cases he).1⟩

theorem Gives.usable_len (h : p.Gives l p') : p.usable_len = l.length + p'.usable_len := by
  rw [← length_freeList, h.freeList, List.length_append, length_freeList]

theorem Gives.not_mem (h : p.Gives l p') (hl : ∀ b ∈ l', b ∉ p.freeList) : ∀ b ∈ l, b ∉ l' := by
  intro b hb hb'
  apply hl b hb'
  rw [h.freeList]
  exact List.mem_append_left _ hb

theorem Gives.nodup (h : p.Gives l p') : l.Nodup := (List.nodup_append.mp (h.freeList ▸ p.nodup_freeList)).1

theorem Gives.inUse (h : p.Gives l p') (ha : a ∈ l) : p'.InUse a := by
  have hfree : a ∈ p.freeList := by
    rw [h.freeList]
    exact List.mem_append_left _ ha
  have hlt : a < p'.total_len := h.total_len ▸ lt_of_mem_freeList hfree
  by_contra hnot
  have hmem : a ∈ p'.freeList := (mem_freeList hlt).mpr hnot
  exact (List.nodup_append.mp (h.freeList ▸ p.nodup_freeList)).2.2 a ha a hmem rfl

/-- Blocks that are taken come back, each once. -/
theorem usable_len_frees (hn : l.Nodup) (hl : ∀ b ∈ l, p.InUse b) :
    (l.foldl mem_free p).usable_len = l.length + p.usable_len := by
  induction l generalizing p with
  | nil => simp
  | cons b l ih =>
    obtain ⟨hb, hn⟩ := List.nodup_cons.mp hn
    obtain ⟨hin, hl⟩ := List.forall_mem_cons.mp hl
    have hrest : ∀ c ∈ l, (p.mem_free b).InUse c := by
      intro c hc
      apply (mem_free_inUse hin c).mpr
      refine ⟨?_, hl c hc⟩
      rintro rfl
      exact hb hc
    rw [List.foldl_cons, ih hn hrest, usable_len_mem_free hin, List.length_cons]
    omega

theorem Gives.usable_len_frees (h : p.Gives l p') : (l.foldl mem_free p').usable_len = p.usable_len := by
  rw [MemPool.usable_len_frees h.nodup fun _ hb => h.inUse hb, h.usable_len]

theorem Owns.get (h : p.Owns l) (he : p.mem_get = some (a, p')) : p'.Owns (a :: l) := by
  refine ⟨List.nodup_cons.mpr ⟨fun ha => mem_get_fresh he ((h.inUse a).mpr ha), h.nodup⟩, ?_⟩
  intro b
  rw [mem_get_inUse he, h.inUse, List.mem_cons]

theorem Owns.free (h : p.Owns (a :: l)) : (p.mem_free a).Owns l := by
  obtain ⟨ha, hn⟩ := List.nodup_cons.mp h.nodup
  refine ⟨hn, ?_⟩
  intro b
  rw [mem_free_inUse ((h.inUse a).mpr List.mem_cons_self), h.inUse, List.mem_cons]
  constructor
  · rintro ⟨hba, rfl | hb⟩
    · exact absurd rfl hba
    · exact hb
  · intro hb
    exact ⟨fun hba => ha (hba ▸ hb), .inr hb⟩

theorem Owns.perm (h : p.Owns l) (hl : l.Perm l') : p.Owns l' :=
  ⟨hl.nodup_iff.mp h.nodup, fun a => (h.inUse a).trans hl.mem_iff⟩

/-- Every block is taken or free. -/
theorem Owns.length_add_usable_len (h : p.Owns l) : l.length + p.usable_len = p.total_len := by
  have hall : (l ++ p.returned).Perm (List.range p.head) := by
    refine (List.perm_ext_iff_of_nodup ?_ List.nodup_range).mpr ?_
    · refine List.nodup_append.mpr ⟨h.nodup, p.nodup, ?_⟩
      rintro b hb c hc rfl
      exact ((h.inUse b).mpr hb).2 hc
    · intro b
      rw [List.mem_append, ← h.inUse, List.mem_range]
      constructor
      · rintro (hb | hb)
        · exact hb.1
        · exact p.lt_head b hb
      · intro hb
        by_cases hr : b ∈ p.returned
        · exact .inr hr
        · exact .inl ⟨hb, hr⟩
  have hlen := hall.length_eq
  have hle := p.head_le
  rw [List.length_append, List.length_range] at hlen
  rw [usable_len]
  omega

/-- Nothing is taken besides the list if and only if nothing is left over. -/
theorem Owns.inUse_iff (h : p.Owns (l ++ l')) : (∀ a, p.InUse a ↔ a ∈ l) ↔ l' = [] := by
  constructor
  · intro hl
    apply List.eq_nil_iff_forall_not_mem.mpr
    intro a ha
    have hin : a ∈ l := (hl a).mp ((h.inUse a).mpr (List.mem_append_right l ha))
    exact (List.nodup_append.mp h.nodup).2.2 a hin a ha rfl
  · rintro rfl
    simpa using h.inUse

end MemPool
