import DCFabric.FlowTables

namespace FlowTables

variable {T M A : Type} [DecidableEq M]

namespace Table

variable {t : Table M A} {e : Entry M A} {m : M} {p : ℕ} {a : A}

/-- The instructions of the entry for the match and the priority. -/
def lookup (t : Table M A) (m : M) (p : ℕ) : Option A :=
  (t.entries.find? fun e => e.fields = m ∧ e.priority = p).map Entry.instructions

theorem lookup_eq_some :
    t.lookup m p = some a ↔ ∃ e ∈ t.entries, (e.fields = m ∧ e.priority = p) ∧ e.instructions = a := by
  rw [lookup, Option.map_eq_some_iff]
  constructor
  · rintro ⟨e, he, rfl⟩
    exact ⟨e, List.mem_of_find?_eq_some he, by simpa using List.find?_some he, rfl⟩
  · rintro ⟨e, he, hkey, rfl⟩
    cases hf : t.entries.find? fun e => e.fields = m ∧ e.priority = p with
    | none => exact absurd (by simpa using hkey) (List.find?_eq_none.mp hf e he)
    | some x =>
      have hx : x.fields = m ∧ x.priority = p := by simpa using List.find?_some hf
      have hsame : x.SameKey e := ⟨hx.1.trans hkey.1.symm, hx.2.trans hkey.2.symm⟩
      have : Std.Symm fun a b : Entry M A => ¬ a.SameKey b := ⟨fun a b hab hba => hab ⟨hba.1.symm, hba.2.symm⟩⟩
      have hxe : x = e := by
        by_contra hne
        exact t.distinct.forall (List.mem_of_find?_eq_some hf) he hne hsame
      exact ⟨x, rfl, congrArg Entry.instructions hxe⟩

theorem lookup_add (t : Table M A) (e : Entry M A) (m : M) (p : ℕ) :
    (t.add e).lookup m p = if e.fields = m ∧ e.priority = p then some e.instructions else t.lookup m p := by
  ext a
  rw [lookup_eq_some]
  by_cases h : ∃ x ∈ t.entries, x.SameKey e
  · simp only [add_of_mem h, List.mem_map]
    split_ifs with hkey
    · constructor
      · rintro ⟨-, ⟨x, -, rfl⟩, hx, rfl⟩
        by_cases hxe : x.SameKey e
        · rw [if_pos hxe]
        · rw [if_neg hxe] at hx
          exact absurd ⟨hx.1.trans hkey.1.symm, hx.2.trans hkey.2.symm⟩ hxe
      · intro ha
        obtain ⟨x, hx, hxe⟩ := h
        exact ⟨e, ⟨x, hx, if_pos hxe⟩, hkey, Option.some.inj ha⟩
    · rw [lookup_eq_some]
      constructor
      · rintro ⟨-, ⟨x, hx, rfl⟩, hxk, rfl⟩
        by_cases hxe : x.SameKey e
        · rw [if_pos hxe] at hxk
          exact absurd hxk hkey
        · rw [if_neg hxe] at hxk ⊢
          exact ⟨x, hx, hxk, rfl⟩
      · rintro ⟨x, hx, hxk, rfl⟩
        have hxe : ¬ x.SameKey e := fun hxe => hkey ⟨hxe.1.symm.trans hxk.1, hxe.2.symm.trans hxk.2⟩
        exact ⟨x, ⟨x, hx, if_neg hxe⟩, hxk, rfl⟩
  · simp only [add_of_not_mem h, List.mem_append, List.mem_singleton]
    split_ifs with hkey
    · constructor
      · rintro ⟨x, hx | rfl, hxk, rfl⟩
        · exact absurd ⟨x, hx, hxk.1.trans hkey.1.symm, hxk.2.trans hkey.2.symm⟩ h
        · rfl
      · intro ha
        exact ⟨e, .inr rfl, hkey, Option.some.inj ha⟩
    · rw [lookup_eq_some]
      constructor
      · rintro ⟨x, hx | rfl, hxk, rfl⟩
        · exact ⟨x, hx, hxk, rfl⟩
        · exact absurd hxk hkey
      · rintro ⟨x, hx, hxk, rfl⟩
        exact ⟨x, .inl hx, hxk, rfl⟩

theorem lookup_delete (t : Table M A) (e : Entry M A) (m : M) (p : ℕ) :
    (t.delete fun x => x.SameKey e).lookup m p = if e.fields = m ∧ e.priority = p then none else t.lookup m p := by
  ext a
  rw [lookup_eq_some]
  simp only [delete, List.mem_filter, Bool.not_eq_true', decide_eq_false_iff_not]
  split_ifs with hkey
  · constructor
    · rintro ⟨x, ⟨-, hne⟩, hxk, -⟩
      exact absurd ⟨hxk.1.trans hkey.1.symm, hxk.2.trans hkey.2.symm⟩ hne
    · intro ha
      cases ha
  · rw [lookup_eq_some]
    constructor
    · rintro ⟨x, ⟨hx, -⟩, hxk, rfl⟩
      exact ⟨x, hx, hxk, rfl⟩
    · rintro ⟨x, hx, hxk, rfl⟩
      exact ⟨x, ⟨hx, fun hxe => hkey ⟨hxe.1.symm.trans hxk.1, hxe.2.symm.trans hxk.2⟩⟩, hxk, rfl⟩

end Table

end FlowTables

open FlowTables

/-- A flow-mod with the switch it is sent to. -/
structure SwitchMod (D T M A : Type) where
  dpid : D
  mod : FlowMod T M A

/-- What identifies a flow among those of all switches. -/
structure FlowKey (D T M : Type) where
  dpid : D
  table : T
  fields : M
  priority : ℕ
deriving DecidableEq

/-- The tables of all switches. -/
abbrev SwitchTables (D T M A : Type) := D → T → Table M A

variable {D T M A : Type}

def SwitchMod.key (sm : SwitchMod D T M A) : FlowKey D T M :=
  ⟨sm.dpid, sm.mod.table, sm.mod.entry.fields, sm.mod.entry.priority⟩

/-- The flow that the flow-mod puts in where it is an add. -/
def SwitchMod.flow (sm : SwitchMod D T M A) : FlowKey D T M × A := (sm.key, sm.mod.entry.instructions)

namespace SwitchTables

variable [DecidableEq M]

def lookup (tables : SwitchTables D T M A) (k : FlowKey D T M) : Option A :=
  (tables k.dpid k.table).lookup k.fields k.priority

variable [DecidableEq D] [DecidableEq T] (all : T) (specific : M → M → Bool)

def receive (tables : SwitchTables D T M A) (sm : SwitchMod D T M A) : SwitchTables D T M A :=
  Function.update tables sm.dpid (FlowTables.receive all specific (tables sm.dpid) sm.mod)

variable {all specific} {tables : SwitchTables D T M A} {sm : SwitchMod D T M A} {l : List (SwitchMod D T M A)}
  {k : FlowKey D T M} {a : A}

omit [DecidableEq M] [DecidableEq D] [DecidableEq T] in
theorem key_eq : sm.key = k ↔
    (sm.dpid = k.dpid ∧ sm.mod.table = k.table) ∧
      sm.mod.entry.fields = k.fields ∧ sm.mod.entry.priority = k.priority := by
  cases k
  simp only [SwitchMod.key, FlowKey.mk.injEq, and_assoc]

theorem lookup_receive_add (hc : sm.mod.command = .add) (ht : sm.mod.table ≠ all) :
    lookup (receive all specific tables sm) k =
      if sm.key = k then some sm.mod.entry.instructions else lookup tables k := by
  simp only [lookup, receive, FlowTables.receive, hc, key_eq, if_neg ht]
  by_cases hd : sm.dpid = k.dpid
  · rw [hd, Function.update_self]
    by_cases htab : sm.mod.table = k.table
    · rw [htab, Function.update_self, Table.lookup_add]
      simp
    · rw [Function.update_of_ne (Ne.symm htab)]
      simp [htab]
  · rw [Function.update_of_ne (Ne.symm hd)]
    simp [hd]

theorem lookup_receive_deleteStrict (hc : sm.mod.command = .deleteStrict) (ht : sm.mod.table ≠ all) :
    lookup (receive all specific tables sm) k = if sm.key = k then none else lookup tables k := by
  simp only [lookup, receive, FlowTables.receive, hc, key_eq]
  by_cases hd : sm.dpid = k.dpid
  · rw [hd, Function.update_self]
    by_cases htab : sm.mod.table = k.table
    · simp only [htab, true_or, if_true, Table.lookup_delete]
      simp
    · have hne : ¬ (k.table = sm.mod.table ∨ sm.mod.table = all) := by
        rintro (h | h)
        · exact htab h.symm
        · exact ht h
      simp only [if_neg hne]
      simp [htab]
  · rw [Function.update_of_ne (Ne.symm hd)]
    simp [hd]

theorem lookup_foldl_add (h : ∀ sm ∈ l, sm.mod.command = .add ∧ sm.mod.table ≠ all)
    (hone : l.Pairwise fun sm sm' => sm.key ≠ sm'.key) :
    lookup (l.foldl (receive all specific) tables) k = some a ↔
      (k, a) ∈ l.map SwitchMod.flow ∨ (∀ b, (k, b) ∉ l.map SwitchMod.flow) ∧ lookup tables k = some a := by
  induction l generalizing tables with
  | nil => simp
  | cons sm l ih =>
    obtain ⟨hsm, hl⟩ := List.forall_mem_cons.mp h
    obtain ⟨hne, hone⟩ := List.pairwise_cons.mp hone
    have hkey : ∀ b, (sm.key, b) ∉ l.map SwitchMod.flow := by
      intro b hb
      obtain ⟨sm', hsm', hflow⟩ := List.mem_map.mp hb
      exact hne sm' hsm' (congrArg Prod.fst hflow).symm
    rw [List.foldl_cons, ih hl hone, lookup_receive_add hsm.1 hsm.2]
    simp only [List.map_cons, List.mem_cons, not_or, forall_and, SwitchMod.flow, Prod.mk.injEq, not_and]
    by_cases hk : sm.key = k
    · subst hk
      simp only [hkey, if_true, true_implies, Option.some.injEq, not_false_eq_true, implies_true, true_and, false_or,
        or_false]
      constructor
      · intro ha
        exact .inl ha.symm
      · rintro (ha | ⟨hno, -⟩)
        · exact ha.symm
        · exact absurd rfl (hno.1 sm.mod.entry.instructions)
    · simp [hk, Ne.symm hk]

theorem lookup_foldl_deleteStrict (h : ∀ sm ∈ l, sm.mod.command = .deleteStrict ∧ sm.mod.table ≠ all) :
    lookup (l.foldl (receive all specific) tables) k = some a ↔
      lookup tables k = some a ∧ ∀ b, (k, b) ∉ l.map SwitchMod.flow := by
  induction l generalizing tables with
  | nil => simp
  | cons sm l ih =>
    obtain ⟨hsm, hl⟩ := List.forall_mem_cons.mp h
    rw [List.foldl_cons, ih hl, lookup_receive_deleteStrict hsm.1 hsm.2]
    simp only [List.map_cons, List.mem_cons, not_or, forall_and, SwitchMod.flow, Prod.mk.injEq, not_and]
    by_cases hk : sm.key = k
    · subst hk
      simp only [if_true, reduceCtorEq, false_and, true_implies, false_iff]
      rintro ⟨-, hno, -⟩
      exact hno sm.mod.entry.instructions rfl
    · simp [hk, Ne.symm hk]

end SwitchTables

namespace SharedFlows

variable {ρ K A : Type} (req : ρ → K → A → Prop) {stored stored' : Set ρ} {table table' : K → Option A} {r : ρ}

/-- The table has exactly the flows that the stored rules require. -/
def Exact (stored : Set ρ) (table : K → Option A) : Prop := ∀ k a, table k = some a ↔ ∃ r ∈ stored, req r k a

/-- The rules require no two flows of one key. -/
def Agree (p r : ρ) : Prop := ∀ k a b, req p k a → req r k b → a = b

def Disjoint (p r : ρ) : Prop := ∀ k a b, req p k a → ¬ req r k b

def Added (r : ρ) (table table' : K → Option A) : Prop :=
  ∀ k a, table' k = some a ↔ req r k a ∨ (∀ b, ¬ req r k b) ∧ table k = some a

def Removed (r : ρ) (table table' : K → Option A) : Prop :=
  ∀ k a, table' k = some a ↔ table k = some a ∧ ∀ b, ¬ req r k b

variable {req}

theorem Exact.added (h : Exact req stored table) (ha : Added req r table table') :
    (∀ p ∈ stored, Agree req p r) ↔ Exact req (insert r stored) table' := by
  constructor
  · intro hagree k a
    rw [ha k a]
    constructor
    · rintro (hr | ⟨-, ht⟩)
      · exact ⟨r, .inl rfl, hr⟩
      · obtain ⟨p, hp, hpk⟩ := (h k a).mp ht
        exact ⟨p, .inr hp, hpk⟩
    · rintro ⟨p, rfl | hp, hpk⟩
      · exact .inl hpk
      · by_cases hr : ∃ b, req r k b
        · obtain ⟨b, hb⟩ := hr
          exact .inl (hagree p hp k a b hpk hb ▸ hb)
        · exact .inr ⟨fun b hb => hr ⟨b, hb⟩, (h k a).mpr ⟨p, hp, hpk⟩⟩
  · intro hexact p hp k a b hpa hrb
    have h₁ : table' k = some a := (hexact k a).mpr ⟨p, .inr hp, hpa⟩
    have h₂ : table' k = some b := (hexact k b).mpr ⟨r, .inl rfl, hrb⟩
    exact Option.some.inj (h₁.symm.trans h₂)

theorem Exact.removed (h : Exact req stored table) (hr : Removed req r table table') (hsub : stored' ⊆ stored)
    (hall : stored ⊆ insert r stored') :
    (∀ p ∈ stored', Disjoint req p r) ↔ Exact req stored' table' := by
  constructor
  · intro hdisj k a
    rw [hr k a]
    constructor
    · rintro ⟨ht, hno⟩
      obtain ⟨p, hp, hpk⟩ := (h k a).mp ht
      rcases hall hp with rfl | hp'
      · exact absurd hpk (hno a)
      · exact ⟨p, hp', hpk⟩
    · rintro ⟨p, hp, hpk⟩
      exact ⟨(h k a).mpr ⟨p, hsub hp, hpk⟩, fun b => hdisj p hp k a b hpk⟩
  · intro hexact p hp k a b hpa hrb
    exact ((hr k a).mp ((hexact k a).mpr ⟨p, hp, hpa⟩)).2 b hrb

end SharedFlows
