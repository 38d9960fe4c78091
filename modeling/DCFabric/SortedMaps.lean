import DCFabric.ListUpdates

namespace SortedMaps

open ListUpdates

variable {α : Type} {key : α → ℕ}

def insertNew (key : α → ℕ) (a : α) : List α → List α
  | [] => [a]
  | b :: l =>
    if key a < key b then a :: b :: l
    else if key b < key a then b :: insertNew key a l
    else b :: l

theorem insertNew_perm {a : α} {l : List α} (h : ∀ b ∈ l, key b ≠ key a) :
    (insertNew key a l).Perm (a :: l) := by
  induction l with
  | nil => exact .refl _
  | cons b l ih =>
    obtain ⟨hb, hl⟩ := List.forall_mem_cons.mp h
    by_cases hab : key a < key b
    · rw [insertNew, if_pos hab]
    · rw [insertNew, if_neg hab, if_pos (by omega)]
      exact ((ih hl).cons b).trans (.swap a b l)

theorem mem_insertNew {a x : α} {l : List α} (h : x ∈ insertNew key a l) : x = a ∨ x ∈ l := by
  induction l with
  | nil => simpa [insertNew] using h
  | cons b l ih =>
    rw [insertNew] at h
    split_ifs at h with h₁ h₂
    · exact List.mem_cons.mp h
    · rcases List.mem_cons.mp h with rfl | h
      · exact .inr List.mem_cons_self
      · exact (ih h).imp_right (List.mem_cons_of_mem b)
    · exact .inr h

theorem insertNew_sorted {a : α} {l : List α} (hl : l.Pairwise (key · < key ·)) :
    (insertNew key a l).Pairwise (key · < key ·) := by
  induction l with
  | nil => exact List.pairwise_singleton _ _
  | cons b l ih =>
    obtain ⟨hb, hl'⟩ := List.pairwise_cons.mp hl
    rw [insertNew]
    split_ifs with h₁ h₂
    · refine List.pairwise_cons.mpr ⟨?_, hl⟩
      intro x hx
      rcases List.mem_cons.mp hx with rfl | hx
      · exact h₁
      · exact h₁.trans (hb x hx)
    · refine List.pairwise_cons.mpr ⟨?_, ih hl'⟩
      intro x hx
      rcases mem_insertNew hx with rfl | hx
      · exact h₂
      · exact hb x hx
    · exact hl

def putNew (key : α → ℕ) (a : α) : List α → List α
  | [] => [a]
  | b :: l =>
    if key a < key b then a :: b :: l
    else if key b < key a then b :: putNew key a l
    else a :: l

theorem putNew_of_absent {a : α} {l : List α} (h : ∀ b ∈ l, key b ≠ key a) : putNew key a l = insertNew key a l := by
  induction l with
  | nil => rfl
  | cons b l ih =>
    obtain ⟨hb, hl⟩ := List.forall_mem_cons.mp h
    rw [putNew, insertNew, ih hl]
    split_ifs
    · rfl
    · rfl
    · omega

theorem mem_putNew {a x : α} {l : List α} (h : x ∈ putNew key a l) : x = a ∨ x ∈ l := by
  induction l with
  | nil => simpa [putNew] using h
  | cons b l ih =>
    rw [putNew] at h
    split_ifs at h with h₁ h₂
    · exact List.mem_cons.mp h
    · rcases List.mem_cons.mp h with rfl | h
      · exact .inr List.mem_cons_self
      · exact (ih h).imp_right (List.mem_cons_of_mem b)
    · exact (List.mem_cons.mp h).imp_right (List.mem_cons_of_mem b)

theorem putNew_sorted {a : α} {l : List α} (hl : l.Pairwise (key · < key ·)) :
    (putNew key a l).Pairwise (key · < key ·) := by
  induction l with
  | nil => exact List.pairwise_singleton _ _
  | cons b l ih =>
    obtain ⟨hb, hl'⟩ := List.pairwise_cons.mp hl
    rw [putNew]
    split_ifs with h₁ h₂
    · refine List.pairwise_cons.mpr ⟨?_, hl⟩
      intro x hx
      rcases List.mem_cons.mp hx with rfl | hx
      · exact h₁
      · exact h₁.trans (hb x hx)
    · refine List.pairwise_cons.mpr ⟨?_, ih hl'⟩
      intro x hx
      rcases mem_putNew hx with rfl | hx
      · exact h₂
      · exact hb x hx
    · refine List.pairwise_cons.mpr ⟨?_, hl'⟩
      intro x hx
      have hlt := hb x hx
      omega

/-- A map whose values carry their own keys, iterated by increasing key. -/
structure KeyedMap (α : Type) (key : α → ℕ) where
  toList : List α
  sorted : toList.Pairwise (key · < key ·)
  deriving DecidableEq

namespace KeyedMap

def empty : KeyedMap α key := ⟨[], .nil⟩

/-- A value whose key is taken already is not stored. -/
def insert (m : KeyedMap α key) (a : α) : KeyedMap α key :=
  ⟨insertNew key a m.toList, insertNew_sorted m.sorted⟩

/-- A value takes the place of the one with its key. -/
def put (m : KeyedMap α key) (a : α) : KeyedMap α key := ⟨putNew key a m.toList, putNew_sorted m.sorted⟩

def erase (m : KeyedMap α key) (k : ℕ) : KeyedMap α key :=
  ⟨m.toList.filter (key · ≠ k), m.sorted.sublist List.filter_sublist⟩

def ofList (l : List α) : KeyedMap α key := l.foldl insert empty

theorem ext {m n : KeyedMap α key} (h : m.toList = n.toList) : m = n := by
  cases m
  cases n
  congr

theorem eq_of_perm {m n : KeyedMap α key} (h : m.toList.Perm n.toList) : m = n := by
  apply ext
  apply h.eq_of_pairwise _ m.sorted n.sorted
  intro a b _ _ hab hba
  omega

theorem foldl_insert_perm {l : List α} {m : KeyedMap α key} (h : (m.toList ++ l).Pairwise (key · ≠ key ·)) :
    (l.foldl insert m).toList.Perm (m.toList ++ l) := by
  induction l generalizing m with
  | nil => simp
  | cons a l ih =>
    have hperm : (m.insert a).toList.Perm (m.toList ++ [a]) := by
      refine (insertNew_perm ?_).trans (List.perm_append_singleton a _).symm
      intro b hb
      exact (List.pairwise_append.mp h).2.2 b hb a List.mem_cons_self
    have happ : ((m.insert a).toList ++ l).Perm (m.toList ++ a :: l) := by
      simpa using hperm.append_right l
    refine (ih (happ.pairwise_iff (fun hab => hab.symm) |>.mpr h)).trans happ

theorem put_of_absent {m : KeyedMap α key} {a : α} (h : ∀ b ∈ m.toList, key b ≠ key a) : m.put a = m.insert a :=
  ext (putNew_of_absent h)

/-- Values with keys of their own are put into a map as they are inserted. -/
theorem foldl_put {l : List α} {m : KeyedMap α key} (h : (m.toList ++ l).Pairwise (key · ≠ key ·)) :
    l.foldl put m = l.foldl insert m := by
  induction l generalizing m with
  | nil => rfl
  | cons a l ih =>
    have ha : ∀ b ∈ m.toList, key b ≠ key a := fun b hb => (List.pairwise_append.mp h).2.2 b hb a List.mem_cons_self
    have happ : ((m.insert a).toList ++ l).Perm (m.toList ++ a :: l) :=
      ((insertNew_perm ha).append_right l).trans List.perm_middle.symm
    rw [List.foldl_cons, List.foldl_cons, put_of_absent ha]
    exact ih (happ.pairwise_iff (fun hab => hab.symm) |>.mpr h)

theorem keys_ne (m : KeyedMap α key) : m.toList.Pairwise (key · ≠ key ·) :=
  m.sorted.imp (fun hab => hab.ne)

/-- The values of a map, taken in any order, build the map again. -/
theorem ofList_perm {m : KeyedMap α key} {l : List α} (h : l.Perm m.toList) : ofList l = m := by
  have hl : l.Pairwise (key · ≠ key ·) := h.pairwise_iff (fun hab => hab.symm) |>.mpr m.keys_ne
  exact eq_of_perm ((foldl_insert_perm (m := empty) hl).trans h)

/-- Values put into an empty map in their order, if they satisfy `p` once `g` has changed them. -/
theorem foldl_put_filter {g : α → α} {p : α → Bool} (hg : ∀ a, key (g a) = key a) (m : KeyedMap α key) :
    (m.toList.foldl (fun (n : KeyedMap α key) a => if p (g a) then n.put (g a) else n) empty).toList =
      (m.toList.filter fun a => p (g a)).map g := by
  let n : KeyedMap α key := ⟨(m.toList.filter fun a => p (g a)).map g, by
    rw [List.pairwise_map]
    simpa only [hg] using m.sorted.sublist List.filter_sublist⟩
  have hfold : m.toList.foldl (fun (n : KeyedMap α key) a => if p (g a) then n.put (g a) else n) empty =
      n.toList.foldl put empty := by
    rw [List.foldl_map, List.foldl_filter]
  rw [hfold, foldl_put (m := empty) n.keys_ne]
  exact congrArg toList (ofList_perm (m := n) (.refl _))

section

variable {β : Type} {l : List β}

/-- The values of a list are inserted from its last to its first. -/
theorem toList_ofList_of_descending {l : List α} (h : l.Pairwise fun a b => key b < key a) :
    (ofList l : KeyedMap α key).toList = l.reverse := by
  let m : KeyedMap α key := ⟨l.reverse, List.pairwise_reverse.mpr h⟩
  have hm : ofList l = m := ofList_perm (List.reverse_perm _).symm
  rw [hm]

/-- A list that goes through a map and is read back from its end. -/
theorem reverse_filterMap_ofList_iff (add : β → α) (back : α → Option β)
    (hback : ∀ a b, back a = some b → key (add b) = key a) :
    ((ofList (l.map add) : KeyedMap α key).toList.filterMap back).reverse = l ↔
      (l.Pairwise fun a b => key (add b) < key (add a)) ∧ ∀ b ∈ l, back (add b) = some b := by
  have hread (hdesc : l.Pairwise fun a b => key (add b) < key (add a)) :
      ((ofList (l.map add) : KeyedMap α key).toList.filterMap back).reverse = l.filterMap fun b => back (add b) := by
    rw [toList_ofList_of_descending (List.pairwise_map.mpr hdesc), List.filterMap_reverse, List.reverse_reverse,
      List.filterMap_map]
    rfl
  constructor
  · intro h
    have hdesc : l.Pairwise fun a b => key (add b) < key (add a) := by
      rw [← h, List.pairwise_reverse]
      refine (ofList (l.map add)).sorted.filterMap back ?_
      intro a a' hlt b hb b' hb'
      rw [hback a b hb, hback a' b' hb']
      exact hlt
    rw [hread hdesc] at h
    exact ⟨hdesc, filterMap_eq_self_iff.mp h⟩
  · rintro ⟨hdesc, hall⟩
    rw [hread hdesc]
    exact filterMap_eq_self_iff.mpr hall

end

end KeyedMap

end SortedMaps
