import DCFabric.ListUpdates
import DCFabric.TransitionRuns

namespace Resync

open ListUpdates TransitionRuns

/-- Items that a poll reads, and the objects that are made of them. Two items that are the `same` give objects that look
the same; what an update leaves as it was does not show when the new item `Fits` the old one. -/
structure Kind (K A B V : Type) where
  key : A → K
  make : A → B
  keyOf : B → K
  view : B → V
  merge : B → B → B
  same : A → A → Bool
  Fits : A → A → Prop
  keyOf_make : ∀ a, keyOf (make a) = key a
  keyOf_merge : ∀ b c, keyOf (merge b c) = keyOf b
  view_same : ∀ a e, same a e → view (make a) = view (make e)
  view_merge : ∀ a e b, Fits e a → view b = view (make e) → view (merge b (make a)) = view (make a)

/-- An object is asked for by its address only when it is removed. -/
inductive Request (B : Type) where
  | create (p : ℕ) (b : B)
  | update (b : B)
  | remove (p : ℕ)
deriving DecidableEq

structure Entry (A : Type) where
  item : A
  checked : Bool
deriving DecidableEq

/-- `reported` are the items that have been read since the marks were taken away, the last one first. -/
structure State (A B : Type) where
  known : List (Entry A)
  reported : List A
  queue : List (Request B)
  copy : List (ℕ × B)
  allocated : ℕ

namespace Kind

variable {K A B V : Type} [DecidableEq K] (k : Kind K A B V)

def entry (known : List (Entry A)) (x : K) : Option (Entry A) := known.find? (k.key ·.item = x)

def object (copy : List (ℕ × B)) (x : K) : Option (ℕ × B) := copy.find? (k.keyOf ·.2 = x)

/-- The object that a request removes is one of the copy. -/
def apply (copy : List (ℕ × B)) : Request B → Option (List (ℕ × B))
  | .create p b => some ((p, b) :: copy)
  | .update b =>
    some ((updateFirst (k.keyOf ·.2 = k.keyOf b) (fun o => (o.1, k.merge o.2 b)) copy).getD copy)
  | .remove p => if p ∈ copy.map Prod.fst then some (copy.filter (·.1 ≠ p)) else none

def resetMarks (known : List (Entry A)) : List (Entry A) := known.map fun e => { e with checked := false }

def put (known : List (Entry A)) (a : A) : List (Entry A) :=
  match k.entry known (k.key a) with
  | none => ⟨a, true⟩ :: known
  | some e =>
    let item := if k.same a e.item then e.item else a
    known.map fun e => if k.key e.item = k.key a then ⟨item, true⟩ else e

/-- The request that goes with it, with `p` the address of a new object. -/
def sent (known : List (Entry A)) (p : ℕ) (a : A) : List (Request B) :=
  match k.entry known (k.key a) with
  | none => [.create p (k.make a)]
  | some e => if k.same a e.item then [] else [.update (k.make a)]

def drop (known : List (Entry A)) (x : K) : List (Entry A) := known.filter (k.key ·.item ≠ x)

def dropped (copy : List (ℕ × B)) (x : K) : List (Request B) := ((k.object copy x).map fun o => .remove o.1).toList

def reset (s : State A B) : State A B := { s with known := resetMarks s.known, reported := [] }

def report (s : State A B) (a : A) : State A B :=
  { s with
    known := k.put s.known a
    reported := a :: s.reported
    queue := s.queue ++ k.sent s.known s.allocated a
    allocated := s.allocated + 1 }

def sweep (s : State A B) (x : K) : State A B :=
  { s with known := k.drop s.known x, queue := s.queue ++ k.dropped s.copy x }

def consume (s : State A B) : Option (State A B) :=
  match s.queue with
  | [] => none
  | r :: queue => (k.apply s.copy r).map fun copy => { s with queue, copy }

structure Keyed (copy : List (ℕ × B)) : Prop where
  objects : (copy.map Prod.fst).Nodup
  keys : (copy.map (k.keyOf ·.2)).Nodup

/-- The copy becomes `final` through the requests, and no object is ever there twice. -/
inductive Leads : List (ℕ × B) → List (Request B) → List (ℕ × B) → Prop
  | nil {copy} (h : k.Keyed copy) : Leads copy [] copy
  | cons {copy copy' final r queue} (h : k.Keyed copy) (happly : k.apply copy r = some copy')
      (rest : Leads copy' queue final) : Leads copy (r :: queue) final

/-- What the copy and the list show under a key. -/
def shown (copy : List (ℕ × B)) (x : K) : Option V := (k.object copy x).map (k.view ·.2)

def listed (known : List (Entry A)) (x : K) : Option V := (k.entry known x).map fun e => k.view (k.make e.item)

structure Inv (s : State A B) : Prop where
  distinct : (s.known.map (k.key ·.item)).Nodup
  allocated : ∀ p, p ∈ s.copy.map Prod.fst ∨ (∃ b, .create p b ∈ s.queue) → p < s.allocated
  leads : ∃ final, k.Leads s.copy s.queue final ∧ ∀ x, k.shown final x = k.listed s.known x
  unchecked : ∀ e ∈ s.known, e.checked = false →
    ∃ o ∈ s.copy, k.keyOf o.2 = k.key e.item ∧ .remove o.1 ∉ s.queue
  told : ∀ x, ∀ e, k.entry s.known x = some e → e.checked →
    ∃ a, s.reported.find? (k.key · = x) = some a ∧ k.view (k.make a) = k.view (k.make e.item)
  kept : ∀ a ∈ s.reported, ∃ e, k.entry s.known (k.key a) = some e ∧ e.checked

variable {k} {known : List (Entry A)} {copy copy' final final' : List (ℕ × B)} {queue : List (Request B)}
  {r : Request B} {a : A} {b : B} {o : ℕ × B} {x y : K} {s t : State A B}

theorem entry_map {f : Entry A → Entry A} (h : ∀ e ∈ known, k.key (f e).item = k.key e.item) :
    k.entry (known.map f) x = (k.entry known x).map f := by
  unfold entry
  induction known with
  | nil => rfl
  | cons e known ih =>
    obtain ⟨he, hknown⟩ := List.forall_mem_cons.mp h
    by_cases hx : k.key e.item = x
    · simp [he, hx]
    · simpa [he, hx] using ih hknown

theorem key_of_entry {e : Entry A} (h : k.entry known x = some e) : e ∈ known ∧ k.key e.item = x :=
  ⟨List.mem_of_find?_eq_some h, by simpa using List.find?_some h⟩

theorem entry_none : k.entry known x = none ↔ ∀ e ∈ known, k.key e.item ≠ x := by
  simp [entry]

theorem entry_of_mem {e : Entry A} (hdistinct : (known.map (k.key ·.item)).Nodup) (he : e ∈ known) :
    k.entry known (k.key e.item) = some e := by
  cases hentry : k.entry known (k.key e.item) with
  | none => exact absurd rfl (entry_none.mp hentry e he)
  | some e' =>
    obtain ⟨hmem, hkey⟩ := key_of_entry hentry
    rw [List.inj_on_of_nodup_map hdistinct hmem he hkey]

theorem entry_put (k : Kind K A B V) (known : List (Entry A)) (a : A) :
    ∃ item, k.view (k.make item) = k.view (k.make a) ∧ k.key item = k.key a ∧
      ∀ x, k.entry (k.put known a) x = if k.key a = x then some ⟨item, true⟩ else k.entry known x := by
  unfold put
  cases hentry : k.entry known (k.key a) with
  | none =>
    refine ⟨a, rfl, rfl, ?_⟩
    intro x
    by_cases hx : k.key a = x <;> simp [entry, hx]
  | some e =>
    obtain ⟨-, hkey⟩ := key_of_entry hentry
    dsimp only
    generalize hitem : (if k.same a e.item then e.item else a) = item
    have hview : k.view (k.make item) = k.view (k.make a) := by
      rw [← hitem]
      split_ifs with hsame
      · exact (k.view_same a e.item hsame).symm
      · rfl
    have hkeyItem : k.key item = k.key a := by
      rw [← hitem]
      split_ifs
      · exact hkey
      · rfl
    refine ⟨item, hview, hkeyItem, ?_⟩
    intro x
    rw [entry_map]
    · by_cases hx : k.key a = x
      · subst hx
        simp [hentry, hkey]
      · rw [if_neg hx]
        cases hother : k.entry known x with
        | none => rfl
        | some e' =>
          have hne : ¬ k.key e'.item = k.key a := fun heq => hx (heq.symm.trans (key_of_entry hother).2)
          rw [Option.map_some, if_neg hne]
    · intro e' _
      split_ifs with heq
      · exact hkeyItem.trans heq.symm
      · rfl

theorem listed_put (k : Kind K A B V) (known : List (Entry A)) (a : A) (x : K) :
    k.listed (k.put known a) x = if k.key a = x then some (k.view (k.make a)) else k.listed known x := by
  obtain ⟨item, hview, -, hentry⟩ := entry_put k known a
  unfold listed
  rw [hentry]
  split_ifs
  · rw [Option.map_some, hview]
  · rfl

theorem keys_put : (k.put known a).map (k.key ·.item) =
    if k.entry known (k.key a) = none then k.key a :: known.map (k.key ·.item) else known.map (k.key ·.item) := by
  unfold put
  cases hentry : k.entry known (k.key a) with
  | none => simp
  | some e =>
    obtain ⟨-, hkey⟩ := key_of_entry hentry
    rw [if_neg (Option.some_ne_none e), List.map_map]
    apply List.map_congr_left
    intro e' _
    by_cases he' : k.key e'.item = k.key a
    · by_cases hsame : k.same a e.item <;> simp [he', hsame, hkey]
    · simp [he']

theorem distinct_put (h : (known.map (k.key ·.item)).Nodup) : ((k.put known a).map (k.key ·.item)).Nodup := by
  rw [keys_put]
  split_ifs with hentry
  · refine List.nodup_cons.mpr ⟨?_, h⟩
    rw [List.mem_map]
    rintro ⟨e, he, hkey⟩
    exact entry_none.mp hentry e he hkey
  · exact h

theorem entry_drop : k.entry (k.drop known y) x = if y = x then none else k.entry known x := by
  unfold entry drop
  induction known with
  | nil => simp
  | cons e known ih =>
    by_cases hy : k.key e.item = y
    · rw [List.filter_cons_of_neg (by simpa using hy), ih]
      by_cases hx : y = x
      · rw [if_pos hx, if_pos hx]
      · rw [if_neg hx, if_neg hx, List.find?_cons_of_neg (by simpa [hy] using hx)]
    · rw [List.filter_cons_of_pos (by simpa using hy)]
      by_cases hx : k.key e.item = x
      · have hne : ¬ y = x := fun heq => hy (hx.trans heq.symm)
        rw [if_neg hne, List.find?_cons_of_pos (by simpa using hx), List.find?_cons_of_pos (by simpa using hx)]
      · rw [List.find?_cons_of_neg (by simpa using hx), List.find?_cons_of_neg (by simpa using hx), ih]

theorem listed_drop : k.listed (k.drop known y) x = if y = x then none else k.listed known x := by
  unfold listed
  rw [entry_drop]
  split_ifs <;> rfl

theorem entry_resetMarks :
    k.entry (resetMarks known) x = (k.entry known x).map fun e => { e with checked := false } :=
  entry_map fun _ _ => rfl

theorem object_eq_some (h : k.Keyed copy) : k.object copy x = some o ↔ o ∈ copy ∧ k.keyOf o.2 = x := by
  constructor
  · intro hobject
    exact ⟨List.mem_of_find?_eq_some hobject, by simpa using List.find?_some hobject⟩
  · rintro ⟨ho, hkey⟩
    cases hobject : k.object copy x with
    | none => exact absurd (by simpa using hkey) (List.find?_eq_none.mp hobject o ho)
    | some o' =>
      have hkey' : k.keyOf o'.2 = x := by simpa using List.find?_some hobject
      rw [List.inj_on_of_nodup_map h.keys (List.mem_of_find?_eq_some hobject) ho (hkey'.trans hkey.symm)]

theorem object_eq_none : k.object copy x = none ↔ ∀ o ∈ copy, k.keyOf o.2 ≠ x := by
  simp [object]

theorem shown_eq_none : k.shown copy x = none ↔ ∀ o ∈ copy, k.keyOf o.2 ≠ x := by
  rw [shown, Option.map_eq_none_iff, object_eq_none]

/-- The copy after an update, in which one object has the key at most. -/
def updated (k : Kind K A B V) (copy : List (ℕ × B)) (b : B) : List (ℕ × B) :=
  copy.map fun o => if k.keyOf o.2 = k.keyOf b then (o.1, k.merge o.2 b) else o

theorem Keyed.apply_update (h : k.Keyed copy) : k.apply copy (.update b) = some (k.updated copy b) := by
  have hone : copy.Pairwise fun o o' => ¬ (decide (k.keyOf o.2 = k.keyOf b) = true ∧
      decide (k.keyOf o'.2 = k.keyOf b) = true) := by
    apply (List.pairwise_map.mp h.keys).imp
    intro o o' hne hboth
    simp only [decide_eq_true_eq] at hboth
    exact hne (hboth.1.trans hboth.2.symm)
  rw [apply, updateFirst_getD hone, updated]
  congr 1
  apply List.map_congr_left
  intro o _
  by_cases ho : k.keyOf o.2 = k.keyOf b <;> simp [ho]

theorem fst_updated : (k.updated copy b).map Prod.fst = copy.map Prod.fst := by
  rw [updated, List.map_map]
  apply List.map_congr_left
  intro o _
  by_cases ho : k.keyOf o.2 = k.keyOf b <;> simp [ho]

theorem keyOf_updated : (k.updated copy b).map (k.keyOf ·.2) = copy.map (k.keyOf ·.2) := by
  rw [updated, List.map_map]
  apply List.map_congr_left
  intro o _
  by_cases ho : k.keyOf o.2 = k.keyOf b <;> simp [ho, k.keyOf_merge]

theorem Keyed.update (h : k.Keyed copy) : k.Keyed (k.updated copy b) where
  objects := by
    rw [fst_updated]
    exact h.objects
  keys := by
    rw [keyOf_updated]
    exact h.keys

omit [DecidableEq K] in
theorem Keyed.create {p : ℕ} (h : k.Keyed copy) (hp : p ∉ copy.map Prod.fst) (hb : ∀ o ∈ copy, k.keyOf o.2 ≠ k.keyOf b) :
    k.Keyed ((p, b) :: copy) where
  objects := List.nodup_cons.mpr ⟨hp, h.objects⟩
  keys := by
    rw [List.map_cons, List.nodup_cons]
    refine ⟨?_, h.keys⟩
    rw [List.mem_map]
    rintro ⟨o, ho, heq⟩
    exact hb o ho heq

omit [DecidableEq K] in
theorem Keyed.filter (h : k.Keyed copy) (p : ℕ × B → Bool) : k.Keyed (copy.filter p) where
  objects := h.objects.sublist (List.filter_sublist.map _)
  keys := h.keys.sublist (List.filter_sublist.map _)

theorem shown_create {p : ℕ} : k.shown ((p, b) :: copy) x = if k.keyOf b = x then some (k.view b) else k.shown copy x := by
  unfold shown object
  by_cases hx : k.keyOf b = x <;> simp [hx]

theorem Keyed.shown_of_mem (h : k.Keyed copy) (ho : o ∈ copy) : k.shown copy (k.keyOf o.2) = some (k.view o.2) := by
  rw [shown, (object_eq_some h).mpr ⟨ho, rfl⟩, Option.map_some]

theorem Keyed.shown_update (h : k.Keyed copy) (ho : o ∈ copy) (hkey : k.keyOf o.2 = k.keyOf b) :
    k.shown (k.updated copy b) x = if k.keyOf b = x then some (k.view (k.merge o.2 b)) else k.shown copy x := by
  have hkeyed : k.Keyed (k.updated copy b) := h.update
  by_cases hx : k.keyOf b = x
  · have hmem : (o.1, k.merge o.2 b) ∈ k.updated copy b := List.mem_map.mpr ⟨o, ho, if_pos hkey⟩
    have hmerged := hkeyed.shown_of_mem hmem
    rw [k.keyOf_merge, hkey, hx] at hmerged
    rw [if_pos hx, hmerged]
  · rw [if_neg hx]
    cases hobject : k.object copy x with
    | none =>
      have hnone := object_eq_none.mp hobject
      rw [shown_eq_none.mpr hnone, shown_eq_none]
      intro o' ho' heq
      have hmem : x ∈ (k.updated copy b).map (k.keyOf ·.2) := List.mem_map.mpr ⟨o', ho', heq⟩
      rw [keyOf_updated, List.mem_map] at hmem
      obtain ⟨o'', ho'', heq⟩ := hmem
      exact hnone o'' ho'' heq
    | some o' =>
      obtain ⟨ho', hkey'⟩ := (object_eq_some h).mp hobject
      have hne : ¬ k.keyOf o'.2 = k.keyOf b := fun heq => hx (heq.symm.trans hkey')
      have hmem : o' ∈ k.updated copy b := List.mem_map.mpr ⟨o', ho', if_neg hne⟩
      rw [← hkey', hkeyed.shown_of_mem hmem, h.shown_of_mem ho']

theorem Keyed.shown_remove (h : k.Keyed copy) (ho : o ∈ copy) :
    k.shown (copy.filter (·.1 ≠ o.1)) x = if k.keyOf o.2 = x then none else k.shown copy x := by
  have hkeyed : k.Keyed (copy.filter (·.1 ≠ o.1)) := h.filter _
  have hsame {o' : ℕ × B} (ho' : o' ∈ copy) (heq : o'.1 = o.1) : o' = o := List.inj_on_of_nodup_map h.objects ho' ho heq
  by_cases hx : k.keyOf o.2 = x
  · rw [if_pos hx, shown_eq_none]
    intro o' ho' heq
    obtain ⟨hmem, hne⟩ := List.mem_filter.mp ho'
    rw [List.inj_on_of_nodup_map h.keys hmem ho (heq.trans hx.symm)] at hne
    simp at hne
  · rw [if_neg hx]
    cases hobject : k.object copy x with
    | none =>
      have hnone := object_eq_none.mp hobject
      rw [shown_eq_none.mpr hnone, shown_eq_none]
      exact fun o' ho' => hnone o' (List.mem_of_mem_filter ho')
    | some o' =>
      obtain ⟨ho', hkey'⟩ := (object_eq_some h).mp hobject
      have hne : o'.1 ≠ o.1 := by
        intro heq
        rw [hsame ho' heq] at hkey'
        exact hx hkey'
      have hmem : o' ∈ copy.filter (·.1 ≠ o.1) := List.mem_filter.mpr ⟨ho', by simpa using hne⟩
      rw [← hkey', hkeyed.shown_of_mem hmem, h.shown_of_mem ho']

theorem Leads.first (h : k.Leads copy queue final) : k.Keyed copy := by
  cases h with
  | nil h => exact h
  | cons h _ _ => exact h

theorem Leads.last (h : k.Leads copy queue final) : k.Keyed final := by
  induction h with
  | nil h => exact h
  | cons _ _ _ ih => exact ih

theorem Leads.concat (h : k.Leads copy queue final) (happly : k.apply final r = some final')
    (hkeyed : k.Keyed final') : k.Leads copy (queue ++ [r]) final' := by
  induction h with
  | nil h => exact .cons h happly (.nil hkeyed)
  | cons h he _ ih => exact .cons h he (ih happly)

theorem Leads.exec_eq (h : k.Leads copy queue final) : exec k.apply copy queue = some final := by
  induction h with
  | nil _ => rfl
  | cons _ happly _ ih => rw [exec, happly, Option.bind_some, ih]

/-- An object stays where it is until its removal. -/
theorem Keyed.stays (h : k.Keyed copy) (ho : o ∈ copy) (hr : r ≠ .remove o.1)
    (happly : k.apply copy r = some copy') : ∃ o' ∈ copy', o'.1 = o.1 ∧ k.keyOf o'.2 = k.keyOf o.2 := by
  cases r with
  | create p b =>
    obtain rfl := Option.some.inj happly
    exact ⟨o, List.mem_cons_of_mem _ ho, rfl, rfl⟩
  | update b =>
    rw [h.apply_update] at happly
    obtain rfl := Option.some.inj happly
    refine ⟨_, List.mem_map_of_mem ho, ?_⟩
    by_cases hkey : k.keyOf o.2 = k.keyOf b <;> simp [hkey, k.keyOf_merge]
  | remove p =>
    rw [apply] at happly
    split_ifs at happly
    obtain rfl := Option.some.inj happly
    have hne : o.1 ≠ p := fun heq => hr (by rw [heq])
    exact ⟨o, List.mem_filter.mpr ⟨ho, by simpa using hne⟩, rfl, rfl⟩

theorem Leads.stays (h : k.Leads copy queue final) (ho : o ∈ copy) (hqueue : .remove o.1 ∉ queue) :
    ∃ o' ∈ final, o'.1 = o.1 ∧ k.keyOf o'.2 = k.keyOf o.2 := by
  induction h generalizing o with
  | nil h => exact ⟨o, ho, rfl, rfl⟩
  | cons h happly _ ih =>
    obtain ⟨hr, hqueue⟩ := not_or.mp (List.mem_cons.not.mp hqueue)
    obtain ⟨o', ho', hobject, hkey⟩ := h.stays ho (Ne.symm hr) happly
    obtain ⟨o'', ho'', hobject', hkey'⟩ := ih ho' (hobject ▸ hqueue)
    exact ⟨o'', ho'', hobject'.trans hobject, hkey'.trans hkey⟩

theorem Keyed.apply_objects (h : k.Keyed copy) (happly : k.apply copy r = some copy') {p : ℕ}
    (hp : p ∈ copy'.map Prod.fst) : p ∈ copy.map Prod.fst ∨ ∃ b, r = .create p b := by
  cases r with
  | create q b =>
    obtain rfl := Option.some.inj happly
    rw [List.map_cons, List.mem_cons] at hp
    obtain rfl | hp := hp
    · exact .inr ⟨b, rfl⟩
    · exact .inl hp
  | update b =>
    rw [h.apply_update] at happly
    obtain rfl := Option.some.inj happly
    rw [fst_updated] at hp
    exact .inl hp
  | remove q =>
    rw [apply] at happly
    split_ifs at happly
    obtain rfl := Option.some.inj happly
    exact .inl ((List.filter_sublist.map _).subset hp)

theorem Leads.objects (h : k.Leads copy queue final) {p : ℕ} (hp : p ∈ final.map Prod.fst) :
    p ∈ copy.map Prod.fst ∨ ∃ b, .create p b ∈ queue := by
  induction h with
  | nil h => exact .inl hp
  | cons h happly _ ih =>
    obtain hp | ⟨b, hb⟩ := ih hp
    · obtain hp | ⟨b, rfl⟩ := h.apply_objects happly hp
      · exact .inl hp
      · exact .inr ⟨b, List.mem_cons_self⟩
    · exact .inr ⟨b, List.mem_cons_of_mem _ hb⟩

theorem inv_start : k.Inv ⟨[], [], [], [], 0⟩ where
  distinct := List.nodup_nil
  allocated := by
    rintro p (hp | ⟨b, hb⟩)
    · cases hp
    · cases hb
  leads := ⟨[], .nil ⟨List.nodup_nil, List.nodup_nil⟩, fun _ => rfl⟩
  unchecked := List.forall_mem_nil _
  told := by
    intro x e he
    cases he
  kept := List.forall_mem_nil _

theorem Inv.allocate (h : k.Inv s) {n : ℕ} (hn : s.allocated ≤ n) : k.Inv { s with allocated := n } where
  distinct := h.distinct
  allocated := fun p hp => (h.allocated p hp).trans_le hn
  leads := h.leads
  unchecked := h.unchecked
  told := h.told
  kept := h.kept

theorem Inv.reset (h : k.Inv s) (hqueue : s.queue = []) : k.Inv (reset s) where
  distinct := by
    have hkeys : (resetMarks s.known).map (k.key ·.item) = s.known.map (k.key ·.item) := List.map_map
    exact hkeys ▸ h.distinct
  allocated := h.allocated
  leads := by
    obtain ⟨final, hleads, hshown⟩ := h.leads
    refine ⟨final, hleads, ?_⟩
    intro x
    have hlisted : k.listed (resetMarks s.known) x = k.listed s.known x := by
      rw [listed, entry_resetMarks, Option.map_map]
      rfl
    exact (hshown x).trans hlisted.symm
  unchecked := by
    obtain ⟨final, hleads, hshown⟩ := h.leads
    intro e he _
    obtain ⟨e', he', rfl⟩ := List.mem_map.mp he
    rw [hqueue] at hleads
    cases hleads
    have hsome : (k.shown s.copy (k.key e'.item)).isSome := by
      rw [hshown, listed, entry_of_mem h.distinct he']
      rfl
    unfold shown at hsome
    rw [Option.isSome_map, Option.isSome_iff_exists] at hsome
    obtain ⟨o, ho⟩ := hsome
    refine ⟨o, List.mem_of_find?_eq_some ho, by simpa using List.find?_some ho, ?_⟩
    exact hqueue.symm ▸ List.not_mem_nil
  told := by
    intro x e he hchecked
    have hentry : k.entry (resetMarks s.known) x = some e := he
    rw [entry_resetMarks] at hentry
    obtain ⟨e', -, rfl⟩ := Option.map_eq_some_iff.mp hentry
    cases hchecked
  kept := List.forall_mem_nil _

/-- The copy that the requests lead to stays in step with what is known. -/
theorem Inv.sent (h : k.Inv s) (hfits : ∀ e ∈ s.known, k.key e.item = k.key a → k.Fits e.item a) :
    ∃ final, k.Leads s.copy (s.queue ++ k.sent s.known s.allocated a) final ∧
      ∀ x, k.shown final x = k.listed (k.put s.known a) x := by
  obtain ⟨final, hleads, hshown⟩ := h.leads
  have hlisted := listed_put k s.known a
  unfold Kind.sent
  cases hentry : k.entry s.known (k.key a) with
  | none =>
    have habsent : k.shown final (k.key a) = none := by
      rw [hshown, listed, hentry, Option.map_none]
    have hnew : ∀ o ∈ final, k.keyOf o.2 ≠ k.keyOf (k.make a) := by
      rw [k.keyOf_make]
      exact shown_eq_none.mp habsent
    have hfree : s.allocated ∉ final.map Prod.fst := fun hp => (h.allocated _ (hleads.objects hp)).false
    refine ⟨_, hleads.concat rfl (hleads.last.create hfree hnew), ?_⟩
    intro x
    rw [shown_create, k.keyOf_make, hlisted, hshown]
  | some e =>
    obtain ⟨he, hkey⟩ := key_of_entry hentry
    have hold : k.shown final (k.key a) = some (k.view (k.make e.item)) := by
      rw [hshown, listed, hentry, Option.map_some]
    dsimp only
    split_ifs with hsame
    · refine ⟨final, by rw [List.append_nil]; exact hleads, ?_⟩
      intro x
      rw [hlisted]
      by_cases hx : k.key a = x
      · rw [if_pos hx, ← hx, hold, k.view_same a e.item hsame]
      · rw [if_neg hx, hshown]
    · obtain ⟨o, hobject, hview⟩ := Option.map_eq_some_iff.mp hold
      obtain ⟨ho, hkeyOf⟩ := (object_eq_some hleads.last).mp hobject
      have hmake : k.keyOf o.2 = k.keyOf (k.make a) := by rw [hkeyOf, k.keyOf_make]
      refine ⟨_, hleads.concat hleads.last.apply_update hleads.last.update, ?_⟩
      intro x
      rw [hleads.last.shown_update ho hmake, k.keyOf_make, hlisted, k.view_merge a e.item o.2 (hfits e he hkey) hview,
        hshown]

theorem not_mem_sent {p n : ℕ} : .remove p ∉ k.sent known n a := by
  unfold Kind.sent
  split
  · simp
  · split_ifs <;> simp

theorem create_mem_sent {p n : ℕ} (h : .create p b ∈ k.sent known n a) : p = n := by
  unfold Kind.sent at h
  split at h
  · exact (Request.create.inj (List.mem_singleton.mp h)).1
  · split_ifs at h <;> simp at h

theorem length_sent {n : ℕ} : (k.sent known n a).length ≤ 1 := by
  unfold Kind.sent
  split
  · exact le_rfl
  · split_ifs
    · exact Nat.zero_le _
    · exact le_rfl

theorem Inv.report (h : k.Inv s) (hfits : ∀ e ∈ s.known, k.key e.item = k.key a → k.Fits e.item a) :
    k.Inv (k.report s a) := by
  obtain ⟨item, hview, hkey, hentry⟩ := entry_put k s.known a
  refine ⟨distinct_put h.distinct, ?_, h.sent hfits, ?_, ?_, ?_⟩
  · rintro p (hp | ⟨b, hb⟩)
    · exact (h.allocated p (.inl hp)).trans (Nat.lt_succ_self _)
    · obtain hb | hb := List.mem_append.mp hb
      · exact (h.allocated p (.inr ⟨b, hb⟩)).trans (Nat.lt_succ_self _)
      · rw [create_mem_sent hb]
        exact Nat.lt_succ_self _
  · intro e he hunchecked
    have hmem := entry_of_mem (distinct_put h.distinct) he
    rw [hentry] at hmem
    split_ifs at hmem with hx
    · obtain rfl := Option.some.inj hmem
      cases hunchecked
    · obtain ⟨o, ho, hkeyOf, hqueue⟩ := h.unchecked e (key_of_entry hmem).1 hunchecked
      refine ⟨o, ho, hkeyOf, ?_⟩
      rw [Kind.report, List.mem_append, not_or]
      exact ⟨hqueue, not_mem_sent⟩
  · intro x e he hchecked
    have hput : k.entry (k.put s.known a) x = some e := he
    rw [hentry] at hput
    split_ifs at hput with hx
    · obtain rfl := Option.some.inj hput
      exact ⟨a, List.find?_cons_of_pos (by simpa using hx), hview.symm⟩
    · obtain ⟨a', ha', hshow⟩ := h.told x e hput hchecked
      exact ⟨a', (List.find?_cons_of_neg (by simpa using hx)).trans ha', hshow⟩
  · intro a' ha'
    have hput := hentry (k.key a')
    obtain rfl | ha' := List.mem_cons.mp ha'
    · rw [if_pos rfl] at hput
      exact ⟨_, hput, rfl⟩
    · obtain ⟨e, he, hchecked⟩ := h.kept a' ha'
      by_cases hx : k.key a = k.key a'
      · rw [if_pos hx] at hput
        exact ⟨_, hput, rfl⟩
      · rw [if_neg hx] at hput
        exact ⟨e, hput.trans he, hchecked⟩

/-- What is asked for is the object that has been there since the marks were taken away. -/
theorem Inv.dropped (h : k.Inv s) (hx : ∃ e ∈ s.known, k.key e.item = x ∧ e.checked = false) :
    ∃ o ∈ s.copy, k.keyOf o.2 = x ∧ k.dropped s.copy x = [.remove o.1] ∧
      ∃ final, k.Leads s.copy (s.queue ++ [.remove o.1]) final ∧
        ∀ y, k.shown final y = k.listed (k.drop s.known x) y := by
  obtain ⟨e, he, rfl, hunchecked⟩ := hx
  obtain ⟨o, ho, hkey, hqueue⟩ := h.unchecked e he hunchecked
  obtain ⟨final, hleads, hshown⟩ := h.leads
  have hdropped : k.dropped s.copy (k.key e.item) = [.remove o.1] := by
    rw [Kind.dropped, (object_eq_some hleads.first).mpr ⟨ho, hkey⟩]
    rfl
  obtain ⟨o', ho', hobject, hkey'⟩ := hleads.stays ho hqueue
  have hremove : k.apply final (.remove o.1) = some (final.filter (·.1 ≠ o'.1)) := by
    rw [apply, ← hobject, if_pos (List.mem_map_of_mem ho')]
  refine ⟨o, ho, hkey, hdropped, _, hleads.concat hremove (hleads.last.filter _), ?_⟩
  intro y
  rw [listed_drop, hleads.last.shown_remove ho', hkey', hkey, hshown]

theorem Inv.sweep (h : k.Inv s) (hx : ∃ e ∈ s.known, k.key e.item = x ∧ e.checked = false) :
    k.Inv (k.sweep s x) := by
  obtain ⟨o, ho, hkey, hdropped, final, hleads, hshown⟩ := h.dropped hx
  obtain ⟨e, he, rfl, hunchecked⟩ := hx
  have hentry : k.entry s.known (k.key e.item) = some e := entry_of_mem h.distinct he
  refine ⟨?_, ?_, ⟨final, ?_, hshown⟩, ?_, ?_, ?_⟩
  · exact h.distinct.sublist (List.filter_sublist.map _)
  · rintro p (hp | ⟨b, hb⟩)
    · exact h.allocated p (.inl hp)
    · rw [Kind.sweep, hdropped, List.mem_append, List.mem_singleton] at hb
      obtain hb | hb := hb
      · exact h.allocated p (.inr ⟨b, hb⟩)
      · cases hb
  · rw [Kind.sweep, hdropped]
    exact hleads
  · intro e' he' hunchecked'
    obtain ⟨hmem, hne⟩ := List.mem_filter.mp he'
    obtain ⟨o'', ho'', hkeyOf, hnot⟩ := h.unchecked e' hmem hunchecked'
    refine ⟨o'', ho'', hkeyOf, ?_⟩
    rw [Kind.sweep, hdropped, List.mem_append, List.mem_singleton, not_or]
    refine ⟨hnot, ?_⟩
    intro heq
    have hsame : o'' = o := List.inj_on_of_nodup_map hleads.first.objects ho'' ho (Request.remove.inj heq)
    rw [hsame, hkey] at hkeyOf
    simp [hkeyOf] at hne
  · intro x e' he' hchecked
    have hdrop : k.entry (k.drop s.known (k.key e.item)) x = some e' := he'
    rw [entry_drop] at hdrop
    split_ifs at hdrop
    exact h.told x e' hdrop hchecked
  · intro a ha
    obtain ⟨e', he', hchecked⟩ := h.kept a ha
    refine ⟨e', ?_, hchecked⟩
    have hne : ¬ k.key e.item = k.key a := by
      intro heq
      rw [← heq, hentry] at he'
      obtain rfl := Option.some.inj he'
      rw [hunchecked] at hchecked
      cases hchecked
    have hdrop : k.entry (k.drop s.known (k.key e.item)) (k.key a) = _ := entry_drop
    rw [if_neg hne] at hdrop
    exact hdrop.trans he'

theorem Inv.consume (h : k.Inv s) (ht : k.consume s = some t) : k.Inv t := by
  obtain ⟨final, hleads, hshown⟩ := h.leads
  unfold Kind.consume at ht
  split at ht
  · cases ht
  · rename_i r queue hqueue
    obtain ⟨copy, hcopy, rfl⟩ := Option.map_eq_some_iff.mp ht
    rw [hqueue] at hleads
    cases hleads with
    | cons hkeyed happly hrest =>
      obtain rfl := Option.some.inj (hcopy.symm.trans happly)
      refine ⟨h.distinct, ?_, ⟨final, hrest, hshown⟩, ?_, h.told, h.kept⟩
      · rintro p (hp | ⟨b, hb⟩)
        · obtain hp | ⟨b, rfl⟩ := hkeyed.apply_objects hcopy hp
          · exact h.allocated p (.inl hp)
          · exact h.allocated p (.inr ⟨b, hqueue ▸ List.mem_cons_self⟩)
        · exact h.allocated p (.inr ⟨b, hqueue ▸ List.mem_cons_of_mem _ hb⟩)
      · intro e he hunchecked
        obtain ⟨o, ho, hkey, hnot⟩ := h.unchecked e he hunchecked
        rw [hqueue, List.mem_cons, not_or] at hnot
        obtain ⟨o', ho', hobject, hkey'⟩ := hkeyed.stays ho (Ne.symm hnot.1) hcopy
        exact ⟨o', ho', hkey'.trans hkey, hobject ▸ hnot.2⟩

/-- No request is for an object that is gone. -/
theorem Inv.consumes (h : k.Inv s) (hqueue : s.queue ≠ []) : (k.consume s).isSome := by
  obtain ⟨final, hleads, -⟩ := h.leads
  unfold Kind.consume
  cases hq : s.queue with
  | nil => exact absurd hq hqueue
  | cons r queue =>
    rw [hq] at hleads
    cases hleads with
    | cons _ happly _ =>
      dsimp only
      rw [happly]
      rfl

theorem Inv.settled (h : k.Inv s) (hqueue : s.queue = []) : ∀ x, k.shown s.copy x = k.listed s.known x := by
  obtain ⟨final, hleads, hshown⟩ := h.leads
  rw [hqueue] at hleads
  cases hleads
  exact hshown

/-- When nothing is unchecked, what is known is what has been read. -/
theorem Inv.listed_reported (h : k.Inv s) (hall : ∀ e ∈ s.known, e.checked) (x : K) :
    k.listed s.known x = (s.reported.find? (k.key · = x)).map fun a => k.view (k.make a) := by
  unfold listed
  cases hentry : k.entry s.known x with
  | some e =>
    obtain ⟨a, ha, hview⟩ := h.told x e hentry (hall e (key_of_entry hentry).1)
    rw [ha, Option.map_some, Option.map_some, hview]
  | none =>
    have hnone : s.reported.find? (k.key · = x) = none := by
      rw [List.find?_eq_none]
      intro a ha hkey
      obtain ⟨e, he, -⟩ := h.kept a ha
      rw [of_decide_eq_true hkey, hentry] at he
      cases he
    rw [hnone]
    rfl

end Kind

end Resync
