import Mathlib

namespace FlowTables

variable {T M A : Type}

structure Entry (M A : Type) where
  fields : M
  priority : ℕ
  timeouts : ℕ × ℕ
  instructions : A
deriving DecidableEq

def Entry.SameKey (e e' : Entry M A) : Prop := e.fields = e'.fields ∧ e.priority = e'.priority

instance [DecidableEq M] (e e' : Entry M A) : Decidable (e.SameKey e') :=
  inferInstanceAs (Decidable (_ ∧ _))

/-- A flow table holds one entry for a match and a priority. -/
structure Table (M A : Type) where
  entries : List (Entry M A)
  distinct : entries.Pairwise fun e e' => ¬ e.SameKey e'

namespace Table

def empty : Table M A := ⟨[], .nil⟩

theorem distinct_map {l : List (Entry M A)} {g : Entry M A → Entry M A} (h : l.Pairwise fun e e' => ¬ e.SameKey e')
    (hg : ∀ e, (g e).SameKey e) : (l.map g).Pairwise fun e e' => ¬ e.SameKey e' := by
  apply List.pairwise_map.mpr
  apply h.imp
  intro e e' hne heq
  have he := hg e
  have he' := hg e'
  exact hne ⟨he.1.symm.trans (heq.1.trans he'.1), he.2.symm.trans (heq.2.trans he'.2)⟩

def map (t : Table M A) (g : Entry M A → Entry M A) (hg : ∀ e, (g e).SameKey e) : Table M A :=
  ⟨t.entries.map g, distinct_map t.distinct hg⟩

variable [DecidableEq M]

def replace (t : Table M A) (e : Entry M A) : Table M A :=
  t.map (fun x => if x.SameKey e then e else x) (by
    intro x
    split_ifs with h
    · exact ⟨h.1.symm, h.2.symm⟩
    · exact ⟨rfl, rfl⟩)

def append (t : Table M A) (e : Entry M A) (he : ∀ x ∈ t.entries, ¬ x.SameKey e) : Table M A :=
  ⟨t.entries ++ [e], List.pairwise_append.mpr ⟨t.distinct, List.pairwise_singleton _ _, by simpa using he⟩⟩

def add (t : Table M A) (e : Entry M A) : Table M A :=
  if h : ∃ x ∈ t.entries, x.SameKey e then t.replace e
  else t.append e (by
    intro x hx hk
    exact h ⟨x, hx, hk⟩)

def modify (t : Table M A) (selected : Entry M A → Bool) (instructions : A) : Table M A :=
  t.map (fun x => if selected x then { x with instructions := instructions } else x) (by
    intro x
    split_ifs <;> exact ⟨rfl, rfl⟩)

def delete (t : Table M A) (selected : Entry M A → Bool) : Table M A :=
  ⟨t.entries.filter (!selected ·), t.distinct.sublist List.filter_sublist⟩

variable {t : Table M A} {e : Entry M A}

theorem add_of_mem (h : ∃ x ∈ t.entries, x.SameKey e) :
    (t.add e).entries = t.entries.map fun x => if x.SameKey e then e else x := by
  rw [add, dif_pos h]
  rfl

theorem add_of_not_mem (h : ¬ ∃ x ∈ t.entries, x.SameKey e) : (t.add e).entries = t.entries ++ [e] := by
  rw [add, dif_neg h]
  rfl

/-- The table has an entry for the match and the priority. -/
def Has (t : Table M A) (fields : M) (priority : ℕ) : Prop :=
  ∃ e ∈ t.entries, e.fields = fields ∧ e.priority = priority

theorem has_add (t : Table M A) (e : Entry M A) (fields : M) (priority : ℕ) :
    (t.add e).Has fields priority ↔ (e.fields = fields ∧ e.priority = priority) ∨ t.Has fields priority := by
  by_cases h : ∃ x ∈ t.entries, x.SameKey e
  · obtain ⟨x, hx, hxe⟩ := h
    simp only [Has, add_of_mem ⟨x, hx, hxe⟩, List.mem_map]
    constructor
    · rintro ⟨-, ⟨y, hy, rfl⟩, hkey⟩
      split_ifs at hkey
      · exact .inl hkey
      · exact .inr ⟨y, hy, hkey⟩
    · rintro (hkey | ⟨y, hy, hkey⟩)
      · exact ⟨e, ⟨x, hx, if_pos hxe⟩, hkey⟩
      · by_cases hye : y.SameKey e
        · exact ⟨e, ⟨y, hy, if_pos hye⟩, hye.1 ▸ hkey.1, hye.2 ▸ hkey.2⟩
        · exact ⟨y, ⟨y, hy, if_neg hye⟩, hkey⟩
  · simp only [Has, add_of_not_mem h, List.mem_append, List.mem_singleton, or_and_right, exists_or, exists_eq_left]
    exact or_comm

theorem has_delete (t : Table M A) (e : Entry M A) (fields : M) (priority : ℕ) :
    (t.delete fun x => x.SameKey e).Has fields priority ↔
      t.Has fields priority ∧ ¬ (e.fields = fields ∧ e.priority = priority) := by
  simp only [Has, delete, List.mem_filter, Bool.not_eq_true', decide_eq_false_iff_not]
  constructor
  · rintro ⟨x, ⟨hx, hne⟩, rfl, rfl⟩
    exact ⟨⟨x, hx, rfl, rfl⟩, fun he => hne ⟨he.1.symm, he.2.symm⟩⟩
  · rintro ⟨⟨x, hx, rfl, rfl⟩, hne⟩
    exact ⟨x, ⟨hx, fun he => hne ⟨he.1.symm, he.2.symm⟩⟩, rfl, rfl⟩

end Table

inductive Command where
  | add | modify | modifyStrict | delete | deleteStrict
deriving DecidableEq

structure FlowMod (T M A : Type) where
  command : Command
  table : T
  entry : Entry M A

section

variable [DecidableEq T] [DecidableEq M]

/-- The tables of a switch after a flow-mod; `specific m m'` where `m` is at least as specific as `m'`, and `all`
is the id that stands for every table. -/
def receive (all : T) (specific : M → M → Bool) (tables : T → Table M A) (fm : FlowMod T M A) : T → Table M A :=
  let e := fm.entry
  match fm.command with
  | .add => if fm.table = all then tables else Function.update tables fm.table ((tables fm.table).add e)
  | .modify =>
    Function.update tables fm.table ((tables fm.table).modify (fun x => specific x.fields e.fields) e.instructions)
  | .modifyStrict =>
    Function.update tables fm.table ((tables fm.table).modify (fun x => x.SameKey e) e.instructions)
  | .delete => fun t =>
    if t = fm.table ∨ fm.table = all then (tables t).delete fun x => specific x.fields e.fields else tables t
  | .deleteStrict => fun t =>
    if t = fm.table ∨ fm.table = all then (tables t).delete fun x => x.SameKey e else tables t

theorem receive_other {all t : T} {specific : M → M → Bool} {tables : T → Table M A} {fm : FlowMod T M A}
    (ht : t ≠ fm.table) (hall : fm.command = .delete ∨ fm.command = .deleteStrict → fm.table ≠ all) :
    receive all specific tables fm t = tables t := by
  unfold receive
  cases hc : fm.command <;> simp [hc] at hall ⊢
  · split_ifs
    · rfl
    · rw [Function.update_of_ne ht]
  · rw [Function.update_of_ne ht]
  · rw [Function.update_of_ne ht]
  · simp [ht, hall]
  · simp [ht, hall]

end

end FlowTables
