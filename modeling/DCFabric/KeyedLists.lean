import DCFabric.ListUpdates

open ListUpdates

/-- A list in which no two elements share a key. -/
structure KeyedList {κ : Type} (α : Type) (key : α → κ) where
  toList : List α
  keyed : (toList.map key).Nodup

namespace KeyedList

variable {α κ : Type} {key : α → κ} {m : KeyedList α key} {a b : α} {k : κ}

instance : Membership α (KeyedList α key) := ⟨fun m a => a ∈ m.toList⟩

theorem mem_toList : a ∈ m.toList ↔ a ∈ m := Iff.rfl

def empty : KeyedList α key := ⟨[], List.nodup_nil⟩

theorem not_mem_empty : a ∉ (empty : KeyedList α key) := List.not_mem_nil

theorem pairwise (m : KeyedList α key) : m.toList.Pairwise fun a b => key a ≠ key b := List.pairwise_map.mp m.keyed

theorem nodup (m : KeyedList α key) : m.toList.Nodup := m.keyed.of_map

theorem eq_of_key (ha : a ∈ m) (hb : b ∈ m) (hk : key a = key b) : a = b :=
  List.inj_on_of_nodup_map m.keyed ha hb hk

variable [DecidableEq κ]

def find (m : KeyedList α key) (k : κ) : Option α := m.toList.find? fun b => key b = k

theorem find_eq_some : m.find k = some a ↔ a ∈ m ∧ key a = k := by
  constructor
  · intro hf
    exact ⟨List.mem_of_find?_eq_some hf, by simpa using List.find?_some hf⟩
  · rintro ⟨ha, hk⟩
    cases hf : m.find k with
    | none => exact absurd (by simpa using hk) (List.find?_eq_none.mp hf a ha)
    | some b =>
      have hb : key b = k := by simpa using List.find?_some hf
      rw [eq_of_key (List.mem_of_find?_eq_some hf) ha (hb.trans hk.symm)]

theorem find_eq_none : m.find k = none ↔ ∀ b ∈ m, key b ≠ k := by
  simp [find, mem_toList]

def erase (m : KeyedList α key) (k : κ) : KeyedList α key :=
  ⟨m.toList.eraseP fun b => key b = k, List.Nodup.sublist (List.Sublist.map key List.eraseP_sublist) m.keyed⟩

theorem mem_erase : b ∈ m.erase k ↔ b ∈ m ∧ key b ≠ k := by
  have hone : m.toList.Pairwise fun a b => ¬ (decide (key a = k) = true ∧ decide (key b = k) = true) := by
    apply m.pairwise.imp
    intro a b hab hk
    simp only [decide_eq_true_eq] at hk
    exact hab (hk.1.trans hk.2.symm)
  simp [← mem_toList, erase, eraseP_eq_filter hone]

/-- The element takes the place of the one with its key, or the end of the list. -/
def putList (key : α → κ) (a : α) (l : List α) : List α :=
  (updateFirst (fun b => key b = key a) (fun _ => a) l).getD (l ++ [a])

theorem putList_cases (key : α → κ) (a : α) (l : List α) :
    (∃ l₁ b l₂, l = l₁ ++ b :: l₂ ∧ key b = key a ∧ putList key a l = l₁ ++ a :: l₂) ∨
      (∀ b ∈ l, key b ≠ key a) ∧ putList key a l = l ++ [a] := by
  cases hu : updateFirst (fun b => key b = key a) (fun _ => a) l with
  | none => exact .inr ⟨by simpa using updateFirst_none.mp hu, by simp [putList, hu]⟩
  | some l' =>
    obtain ⟨l₁, b, l₂, rfl, rfl, hb, -⟩ := updateFirst_some hu
    exact .inl ⟨l₁, b, l₂, rfl, by simpa using hb, by simp [putList, hu]⟩

theorem putList_keyed (m : KeyedList α key) (a : α) : ((putList key a m.toList).map key).Nodup := by
  apply List.pairwise_map.mpr
  rcases putList_cases key a m.toList with ⟨l₁, c, l₂, hm, hc, hput⟩ | ⟨hne, hput⟩
  · have hp := hm ▸ m.pairwise
    obtain ⟨-, h₂, h₁⟩ := List.pairwise_append.mp hp
    rw [hput]
    apply pairwise_replace hp
    · intro x hx
      exact hc ▸ h₁ x hx c List.mem_cons_self
    · intro x hx
      exact hc ▸ (List.pairwise_cons.mp h₂).1 x hx
  · rw [hput]
    exact pairwise_concat m.pairwise hne

def put (m : KeyedList α key) (a : α) : KeyedList α key := ⟨putList key a m.toList, m.putList_keyed a⟩

theorem mem_put : b ∈ m.put a ↔ b = a ∨ b ∈ m ∧ key b ≠ key a := by
  change b ∈ putList key a m.toList ↔ b = a ∨ b ∈ m.toList ∧ key b ≠ key a
  rcases putList_cases key a m.toList with ⟨l₁, c, l₂, hm, hc, hput⟩ | ⟨hne, hput⟩
  · obtain ⟨-, h₂, h₁⟩ := List.pairwise_append.mp (hm ▸ m.pairwise)
    have hb₁ : b ∈ l₁ → key b ≠ key a := fun hb => hc ▸ h₁ b hb c List.mem_cons_self
    have hb₂ : b ∈ l₂ → key b ≠ key a := fun hb => hc ▸ ((List.pairwise_cons.mp h₂).1 b hb).symm
    have hbc : b = c → key b = key a := fun hb => hb ▸ hc
    rw [hput, hm]
    simp only [List.mem_append, List.mem_cons]
    tauto
  · have hb : b ∈ m.toList → key b ≠ key a := hne b
    simp only [hput, List.mem_append, List.mem_singleton]
    tauto

/-- The element is the last one and no other has its key. -/
def insert (m : KeyedList α key) (a : α) : KeyedList α key := (m.erase (key a)).put a

theorem mem_insert : b ∈ m.insert a ↔ b = a ∨ b ∈ m ∧ key b ≠ key a := by
  rw [insert, mem_put, mem_erase]
  tauto

end KeyedList
