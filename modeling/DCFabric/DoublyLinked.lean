import Mathlib

/-- A node of a doubly linked list. -/
structure LinkedCell (α : Type) where
  prev : Option ℕ
  next : Option ℕ
  value : α

/-- The nodes by their addresses, and the head of the list. -/
structure LinkedHeap (α : Type) where
  mem : ℕ → LinkedCell α
  head : Option ℕ

namespace LinkedHeap

variable {α : Type}

/-- From the head along `next` come the addresses, and along `prev` they come back. -/
def Linked (h : LinkedHeap α) (l : List ℕ) : Prop :=
  h.head = l.head? ∧ ∀ l₁ a l₂, l = l₁ ++ a :: l₂ → (h.mem a).prev = l₁.getLast? ∧ (h.mem a).next = l₂.head?

def setNext (h : LinkedHeap α) (a : ℕ) (next : Option ℕ) : LinkedHeap α :=
  { h with mem := Function.update h.mem a { h.mem a with next := next } }

def setPrev (h : LinkedHeap α) (a : ℕ) (prev : Option ℕ) : LinkedHeap α :=
  { h with mem := Function.update h.mem a { h.mem a with prev := prev } }

/-- The nodes before and after a node are linked to each other. -/
def unlink (h : LinkedHeap α) (a : ℕ) : LinkedHeap α :=
  let h := match (h.mem a).next with
    | some n => h.setPrev n (h.mem a).prev
    | none => h
  match (h.mem a).prev with
  | some p => h.setNext p (h.mem a).next
  | none => { h with head := (h.mem a).next }

/-- The first node from `start` whose value satisfies `p`, in `fuel` steps at most. -/
def findFrom (h : LinkedHeap α) (p : α → Bool) : ℕ → Option ℕ → Option ℕ
  | 0, _ | _ + 1, none => none
  | fuel + 1, some a => if p (h.mem a).value then some a else h.findFrom p fuel (h.mem a).next

/-- The nodes from `start`, `fuel` at most. -/
def follow (h : LinkedHeap α) : ℕ → Option ℕ → List ℕ
  | 0, _ | _ + 1, none => []
  | fuel + 1, some a => a :: h.follow fuel (h.mem a).next

def nodes (h : LinkedHeap α) (fuel : ℕ) : List ℕ := h.follow fuel h.head

def setValue (h : LinkedHeap α) (a : ℕ) (v : α) : LinkedHeap α :=
  { h with mem := Function.update h.mem a { h.mem a with value := v } }

/-- The last node from `a`, in `fuel` steps at most. -/
def lastFrom (h : LinkedHeap α) : ℕ → ℕ → ℕ
  | 0, a => a
  | fuel + 1, a =>
    match (h.mem a).next with
    | some n => h.lastFrom fuel n
    | none => a

/-- The nodes from `start` whose values satisfy `p` are unlinked, in `fuel` steps at most. -/
def unlinkFrom (h : LinkedHeap α) (p : α → Bool) : ℕ → Option ℕ → LinkedHeap α
  | 0, _ | _ + 1, none => h
  | fuel + 1, some a =>
    if p (h.mem a).value then (h.unlink a).unlinkFrom p fuel ((h.unlink a).mem a).next
    else h.unlinkFrom p fuel (h.mem a).next

/-- The value is put into the node, which becomes the last one; `fuel` bounds the way to the end. -/
def append (h : LinkedHeap α) (fuel a : ℕ) (v : α) : LinkedHeap α :=
  let h := { h with mem := Function.update h.mem a ⟨none, none, v⟩ }
  match h.head with
  | some s => (h.setNext (h.lastFrom fuel s) (some a)).setPrev a (some (h.lastFrom fuel s))
  | none => { h with head := some a }

variable {h : LinkedHeap α} {l l₁ l₂ : List ℕ} {a b : ℕ} {p : α → Bool} {fuel : ℕ} {o : Option ℕ}

theorem setNext_mem (h : LinkedHeap α) (a b : ℕ) (o : Option ℕ) :
    (h.setNext a o).mem b = if b = a then { h.mem a with next := o } else h.mem b := by
  by_cases hb : b = a
  · simp [setNext, hb]
  · simp [setNext, hb]

theorem setPrev_mem (h : LinkedHeap α) (a b : ℕ) (o : Option ℕ) :
    (h.setPrev a o).mem b = if b = a then { h.mem a with prev := o } else h.mem b := by
  by_cases hb : b = a
  · simp [setPrev, hb]
  · simp [setPrev, hb]

theorem setNext_value (h : LinkedHeap α) (a b : ℕ) (o : Option ℕ) :
    ((h.setNext a o).mem b).value = (h.mem b).value := by
  rw [setNext_mem]
  split_ifs with hb
  · rw [hb]
  · rfl

theorem setPrev_value (h : LinkedHeap α) (a b : ℕ) (o : Option ℕ) :
    ((h.setPrev a o).mem b).value = (h.mem b).value := by
  rw [setPrev_mem]
  split_ifs with hb
  · rw [hb]
  · rfl

theorem unlink_value (h : LinkedHeap α) (a b : ℕ) : ((h.unlink a).mem b).value = (h.mem b).value := by
  rw [unlink]
  cases hn : (h.mem a).next with
  | none =>
    simp only
    cases (h.mem a).prev with
    | none => rfl
    | some q => exact setNext_value h q b _
  | some n =>
    simp only
    cases ((h.setPrev n (h.mem a).prev).mem a).prev with
    | none => exact setPrev_value h n b _
    | some q => rw [setNext_value, setPrev_value]

theorem unlinkFrom_value (h : LinkedHeap α) (p : α → Bool) (fuel : ℕ) (o : Option ℕ) (b : ℕ) :
    ((h.unlinkFrom p fuel o).mem b).value = (h.mem b).value := by
  induction fuel generalizing h o with
  | zero => rfl
  | succ fuel ih =>
    cases o with
    | none => rfl
    | some a =>
      rw [unlinkFrom]
      split_ifs
      · rw [ih, unlink_value]
      · exact ih h _

theorem linked_nil (hh : h.head = none) : h.Linked [] := by
  refine ⟨hh, ?_⟩
  intro l₁ a l₂ hl
  simp at hl

theorem Linked.prev (hl : h.Linked (l₁ ++ a :: l₂)) : (h.mem a).prev = l₁.getLast? := (hl.2 l₁ a l₂ rfl).1

theorem Linked.next (hl : h.Linked (l₁ ++ a :: l₂)) : (h.mem a).next = l₂.head? := (hl.2 l₁ a l₂ rfl).2

/-- What a node is linked to after `unlink`: the node before it and the one after it skip it. -/
theorem unlink_mem (hl : h.Linked (l₁ ++ a :: l₂)) (hn : (l₁ ++ a :: l₂).Nodup) (b : ℕ) :
    (h.unlink a).mem b =
      ⟨if l₂.head? = some b then l₁.getLast? else (h.mem b).prev,
        if l₁.getLast? = some b then l₂.head? else (h.mem b).next, (h.mem b).value⟩ := by
  obtain ⟨-, hn₂, hdisj⟩ := List.nodup_append.mp hn
  have hne₂ : ∀ c ∈ l₂, c ≠ a := by
    rintro c hc rfl
    exact (List.nodup_cons.mp hn₂).1 hc
  rw [unlink, hl.next, hl.prev]
  cases hh : l₂.head? with
  | none =>
    simp only [hl.prev, hl.next, hh]
    cases hg : l₁.getLast? with
    | none => simp
    | some q =>
      simp only [setNext_mem, reduceCtorEq, if_false, Option.some.injEq]
      split_ifs with h₁ h₂ h₃
      · rw [h₁]
      · exact absurd h₁.symm h₂
      · exact absurd h₃.symm h₁
      · rfl
  | some n =>
    have hna : a ≠ n := (hne₂ n (List.mem_of_head? hh)).symm
    simp only [setPrev_mem, if_neg hna, hl.prev, hl.next, hh]
    cases hg : l₁.getLast? with
    | none =>
      simp only [setPrev_mem, Option.some.injEq, reduceCtorEq, if_false]
      split_ifs with h₁ h₂ h₃
      · rw [h₁]
      · exact absurd h₁.symm h₂
      · exact absurd h₃.symm h₁
      · rfl
    | some q =>
      have hqn : q ≠ n :=
        hdisj q (List.mem_of_getLast? hg) n (List.mem_cons_of_mem a (List.mem_of_head? hh))
      simp only [setNext_mem, setPrev_mem, Option.some.injEq, if_neg hqn]
      by_cases h₁ : b = q
      · subst h₁
        simp [hqn.symm]
      · by_cases h₂ : b = n
        · subst h₂
          simp [h₁, Ne.symm h₁]
        · simp [h₁, h₂, Ne.symm h₁, Ne.symm h₂]

theorem unlink_head (hl : h.Linked (l₁ ++ a :: l₂)) (hn : (l₁ ++ a :: l₂).Nodup) :
    (h.unlink a).head = (l₁ ++ l₂).head? := by
  have hhead := hl.1
  have hne₂ : ∀ c ∈ l₂, a ≠ c := by
    rintro c hc rfl
    exact (List.nodup_cons.mp (List.nodup_append.mp hn).2.1).1 hc
  rw [unlink, hl.next, hl.prev]
  cases hh : l₂.head? with
  | none =>
    simp only [hl.prev, hl.next, hh]
    cases l₁ with
    | nil => simpa using hh.symm
    | cons c k =>
      obtain ⟨q, hq⟩ : ∃ q, (c :: k).getLast? = some q := ⟨_, List.getLast?_eq_some_getLast (List.cons_ne_nil c k)⟩
      rw [hq]
      exact hhead
  | some n =>
    simp only [setPrev_mem, if_neg (hne₂ n (List.mem_of_head? hh)), hl.prev, hl.next, hh]
    cases l₁ with
    | nil => simpa using hh.symm
    | cons c k =>
      obtain ⟨q, hq⟩ : ∃ q, (c :: k).getLast? = some q := ⟨_, List.getLast?_eq_some_getLast (List.cons_ne_nil c k)⟩
      rw [hq]
      exact hhead

theorem Linked.unlink (hl : h.Linked (l₁ ++ a :: l₂)) (hn : (l₁ ++ a :: l₂).Nodup) :
    (h.unlink a).Linked (l₁ ++ l₂) := by
  refine ⟨unlink_head hl hn, ?_⟩
  intro k₁ b k₂ hk
  have hdisj := (List.nodup_append.mp hn).2.2
  rw [unlink_mem hl hn]
  rcases List.append_eq_append_iff.mp hk with ⟨m, rfl, rfl⟩ | ⟨m, rfl, hm⟩
  · -- the node comes after the one that is taken out
    have hb := hl.2 (l₁ ++ a :: m) b k₂ (by simp)
    have hlast : l₁.getLast? ≠ some b := by
      intro hlast
      exact hdisj b (List.mem_of_getLast? hlast) b (by simp) rfl
    simp only [hb.1, hb.2, if_neg hlast, and_true]
    cases m with
    | nil => simp
    | cons c m =>
      have hnot : c ≠ b := by
        rintro rfl
        simp [List.nodup_append] at hn
      simp [hnot, List.getLast?_append, List.getLast?_cons]
  · cases m with
    | nil =>
      -- it is the first one after it
      obtain rfl : l₂ = b :: k₂ := by simpa using hm.symm
      have hb := hl.2 (k₁ ++ [a]) b k₂ (by simp)
      have hlast : k₁.getLast? ≠ some b := by
        intro hlast
        exact hdisj b (by simpa using List.mem_of_getLast? hlast) b (by simp) rfl
      simp [hb.2, hlast]
    | cons c m =>
      -- it comes before it
      obtain ⟨rfl, rfl⟩ : b = c ∧ k₂ = m ++ l₂ := by simpa using hm
      have hb := hl.2 k₁ b (m ++ a :: l₂) (by simp)
      have hhead : l₂.head? ≠ some b := by
        intro hhead
        exact hdisj b (by simp) b (List.mem_cons_of_mem a (List.mem_of_head? hhead)) rfl
      simp only [hb.1, hb.2, if_neg hhead, true_and]
      cases m with
      | nil => simp
      | cons d m =>
        have hnot : (d :: m).getLast? ≠ some b := by
          intro hlast
          have hmem : b ∈ d :: m := List.mem_of_getLast? hlast
          have hnd : (b :: d :: m).Nodup := (List.nodup_append.mp (List.nodup_append.mp hn).1).2.1
          exact (List.nodup_cons.mp hnd).1 hmem
        simp [hnot]

theorem findFrom_eq (hl : h.Linked (l₁ ++ l₂)) (hf : l₂.length ≤ fuel) :
    h.findFrom p fuel l₂.head? = l₂.find? fun a => p (h.mem a).value := by
  induction l₂ generalizing l₁ fuel with
  | nil => cases fuel <;> rfl
  | cons a l₂ ih =>
    obtain ⟨fuel, rfl⟩ : ∃ n, fuel = n + 1 := Nat.exists_eq_add_one_of_ne_zero (by simp at hf; omega)
    have hnext : (h.mem a).next = l₂.head? := hl.next
    have hrest : h.Linked ((l₁ ++ [a]) ++ l₂) := by simpa using hl
    rw [List.head?_cons, findFrom, hnext]
    cases hp : p (h.mem a).value with
    | true => simp [hp]
    | false => simpa [hp] using ih hrest (by simpa using hf)

theorem follow_eq (hl : h.Linked (l₁ ++ l₂)) (hf : l₂.length ≤ fuel) : h.follow fuel l₂.head? = l₂ := by
  induction l₂ generalizing l₁ fuel with
  | nil => cases fuel <;> rfl
  | cons a l₂ ih =>
    obtain ⟨fuel, rfl⟩ : ∃ n, fuel = n + 1 := Nat.exists_eq_add_one_of_ne_zero (by simp at hf; omega)
    have hrest : h.Linked ((l₁ ++ [a]) ++ l₂) := by simpa using hl
    rw [List.head?_cons, follow, hl.next, ih hrest (by simpa using hf)]

theorem nodes_eq (hl : h.Linked l) (hf : l.length ≤ fuel) : h.nodes fuel = l := by
  rw [nodes, hl.1]
  exact follow_eq (show h.Linked ([] ++ l) from hl) hf

theorem setValue_value (h : LinkedHeap α) (a b : ℕ) (v : α) :
    ((h.setValue a v).mem b).value = if b = a then v else (h.mem b).value := by
  by_cases hb : b = a
  · simp [setValue, hb]
  · simp [setValue, hb]

theorem Linked.setValue (hl : h.Linked l) (a : ℕ) (v : α) : (h.setValue a v).Linked l := by
  refine ⟨hl.1, ?_⟩
  intro l₁ b l₂ hb
  have hold := hl.2 l₁ b l₂ hb
  by_cases hba : b = a
  · subst hba
    simpa [LinkedHeap.setValue] using hold
  · simpa [LinkedHeap.setValue, hba] using hold

theorem lastFrom_eq (hl : h.Linked (l₁ ++ a :: l₂)) (hf : l₂.length ≤ fuel) :
    (a :: l₂).getLast? = some (h.lastFrom fuel a) := by
  induction l₂ generalizing l₁ a fuel with
  | nil =>
    have hnext : (h.mem a).next = none := hl.next
    cases fuel with
    | zero => rfl
    | succ fuel =>
      rw [lastFrom, hnext]
      rfl
  | cons b l₂ ih =>
    obtain ⟨fuel, rfl⟩ : ∃ n, fuel = n + 1 := Nat.exists_eq_add_one_of_ne_zero (by simp at hf; omega)
    have hnext : (h.mem a).next = some b := hl.next
    have hrest : h.Linked ((l₁ ++ [a]) ++ b :: l₂) := by simpa using hl
    rw [lastFrom, hnext, List.getLast?_cons_cons]
    exact ih hrest (by simpa using hf)

theorem Linked.unlinkFrom (hl : h.Linked (l₁ ++ l₂)) (hn : (l₁ ++ l₂).Nodup) (hf : l₂.length ≤ fuel) :
    (h.unlinkFrom p fuel l₂.head?).Linked (l₁ ++ l₂.filter fun a => !p (h.mem a).value) := by
  induction l₂ generalizing h l₁ fuel with
  | nil => cases fuel <;> simpa [LinkedHeap.unlinkFrom] using hl
  | cons a l₂ ih =>
    obtain ⟨fuel, rfl⟩ : ∃ n, fuel = n + 1 := Nat.exists_eq_add_one_of_ne_zero (by simp at hf; omega)
    have hf : l₂.length ≤ fuel := by simpa using hf
    rw [List.head?_cons, LinkedHeap.unlinkFrom]
    by_cases hp : p (h.mem a).value
    · have hnext : ((h.unlink a).mem a).next = l₂.head? := by
        have hlast : l₁.getLast? ≠ some a := by
          intro hlast
          exact (List.nodup_append.mp hn).2.2 a (List.mem_of_getLast? hlast) a List.mem_cons_self rfl
        rw [unlink_mem hl hn, if_neg hlast, hl.next]
      have hn' : (l₁ ++ l₂).Nodup := hn.sublist (List.sublist_append_right [a] l₂ |>.append_left l₁)
      rw [if_pos hp, hnext, List.filter_cons_of_neg (by simpa using hp)]
      have hrest := ih (hl.unlink hn) hn' hf
      simpa only [unlink_value] using hrest
    · have hrest := ih (show h.Linked ((l₁ ++ [a]) ++ l₂) by simpa using hl) (by simpa using hn) hf
      rw [if_neg hp, hl.next, List.filter_cons_of_pos (by simpa using hp)]
      simpa using hrest

theorem append_value (h : LinkedHeap α) (fuel a : ℕ) (v : α) (b : ℕ) :
    ((h.append fuel a v).mem b).value = if b = a then v else (h.mem b).value := by
  have hput : (Function.update h.mem a ⟨none, none, v⟩ b).value = if b = a then v else (h.mem b).value := by
    by_cases hb : b = a
    · simp [hb]
    · simp [hb]
  rw [LinkedHeap.append]
  cases h.head with
  | none => exact hput
  | some s =>
    simp only
    rw [setPrev_value, setNext_value]
    exact hput

theorem Linked.append (hl : h.Linked l) (hn : (l ++ [a]).Nodup) (hf : l.length ≤ fuel) (v : α) :
    (h.append fuel a v).Linked (l ++ [a]) := by
  have hne : ∀ b ∈ l, b ≠ a := fun b hb => (List.nodup_append.mp hn).2.2 b hb a (List.mem_singleton_self a)
  have hput : LinkedHeap.Linked { h with mem := Function.update h.mem a ⟨none, none, v⟩ } l := by
    refine ⟨hl.1, ?_⟩
    rintro l₁ b l₂ rfl
    simp only [Function.update_of_ne (hne b (by simp))]
    exact hl.2 l₁ b l₂ rfl
  rw [LinkedHeap.append]
  cases l with
  | nil =>
    have hhead : h.head = none := hl.1
    simp only [hhead]
    refine ⟨rfl, ?_⟩
    intro l₁ b l₂ hb
    obtain ⟨rfl, rfl, rfl⟩ : l₁ = [] ∧ b = a ∧ l₂ = [] := by
      rcases l₁ with _ | ⟨c, l₁⟩
      · simp [eq_comm] at hb
        simp [hb]
      · simp at hb
    simp
  | cons s l =>
    obtain ⟨mem, head⟩ := h
    obtain rfl : head = some s := hl.1
    have hlast := lastFrom_eq (show LinkedHeap.Linked _ ([] ++ s :: l) from hput)
      (Nat.le_of_succ_le (by simpa using hf))
    simp only
    generalize lastFrom _ fuel s = t at hlast ⊢
    have hta : t ≠ a := hne t (List.mem_of_getLast? hlast)
    refine ⟨rfl, ?_⟩
    intro l₁ b l₂ hb
    simp only [setPrev_mem, setNext_mem]
    rcases List.eq_nil_or_concat l₂ with rfl | ⟨m, c, rfl⟩
    · obtain ⟨rfl, rfl⟩ : s :: l = l₁ ∧ a = b := List.append_inj' hb rfl |>.imp id (by simp)
      simp [hta.symm, hlast]
    · obtain ⟨hm, rfl⟩ : s :: l = l₁ ++ b :: m ∧ a = c := by
        have heq : (s :: l) ++ [a] = (l₁ ++ b :: m) ++ [c] := by simpa using hb
        exact (List.append_inj' heq rfl).imp id (by simp)
      have hba : b ≠ a := hne b (by simp [hm])
      have hold := hput.2 l₁ b m hm
      simp only [Function.update_of_ne hba] at hold
      by_cases hbt : b = t
      · subst hbt
        have hnil : m = [] := by
          by_contra hne
          have hmem : b ∈ m := by
            apply List.mem_of_getLast?
            obtain ⟨d, k, rfl⟩ := List.exists_cons_of_ne_nil hne
            simpa [hm, List.getLast?_append, List.getLast?_cons_cons] using hlast
          rw [hm, List.nodup_append, List.nodup_append] at hn
          exact (List.nodup_cons.mp hn.1.2.1).1 hmem
        subst hnil
        simp [hba, hold.1]
      · have hne : m ≠ [] := by
          rintro rfl
          rw [hm] at hlast
          simp at hlast
          exact hbt hlast
        obtain ⟨d, k, rfl⟩ := List.exists_cons_of_ne_nil hne
        simp [hba, hbt, hold.1, hold.2]

end LinkedHeap
