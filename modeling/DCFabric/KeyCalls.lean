import Mathlib

namespace KeyCalls

/-- A call of a map from keys to data. -/
inductive Call (K D : Type) where
  | insert (key : K) (data : D)
  | remove (key : K)
  | find (key : K)
  | clear

/-- What the calls so far say of each key: the data it was inserted with since it was last absent, first and last, and
how many removals since the last `clear` were of absent keys. -/
structure History (K D : Type) where
  first : K → Option D
  last : K → Option D
  held : Finset K
  missed : ℕ
  mem_held_iff : ∀ key, key ∈ held ↔ (first key).isSome
  last_isSome : ∀ key, (last key).isSome = (first key).isSome

namespace History

variable {K D : Type}

section

variable {h : History K D} {key : K}

theorem mem_held : key ∈ h.held ↔ h.first key ≠ none := by
  rw [h.mem_held_iff, Option.isSome_iff_ne_none]

theorem first_eq_none (habsent : key ∉ h.held) : h.first key = none := not_not.mp (mt mem_held.mpr habsent)

theorem last_eq_none : h.last key = none ↔ h.first key = none := by
  rw [← Option.isNone_iff_eq_none, ← Option.isNone_iff_eq_none, ← Option.not_isSome, ← Option.not_isSome, h.last_isSome]

def empty : History K D where
  first _ := none
  last _ := none
  held := ∅
  missed := 0
  mem_held_iff := by simp
  last_isSome _ := rfl

end

variable [DecidableEq K] {h : History K D} {key : K} {data : D}

def insert (h : History K D) (key : K) (data : D) : History K D where
  first := Function.update h.first key ((h.first key).or (some data))
  last := Function.update h.last key (some data)
  held := Insert.insert key h.held
  missed := h.missed
  mem_held_iff other := by
    rcases eq_or_ne other key with rfl | hne
    · simp
    · simp [hne, h.mem_held_iff]
  last_isSome other := by
    rcases eq_or_ne other key with rfl | hne
    · simp
    · simp [hne, h.last_isSome]

def remove (h : History K D) (key : K) : History K D where
  first := Function.update h.first key none
  last := Function.update h.last key none
  held := h.held.erase key
  missed := if key ∈ h.held then h.missed else h.missed + 1
  mem_held_iff other := by
    rcases eq_or_ne other key with rfl | hne
    · simp
    · simp [hne, h.mem_held_iff]
  last_isSome other := by
    rcases eq_or_ne other key with rfl | hne
    · simp
    · simp [hne, h.last_isSome]

def step (h : History K D) : Call K D → History K D
  | .insert key data => h.insert key data
  | .remove key => h.remove key
  | .find _ => h
  | .clear => empty

/-- The history of a map that starts out empty. -/
def of (calls : List (Call K D)) : History K D := calls.foldl step empty

@[simp] theorem first_insert : (h.insert key data).first = Function.update h.first key ((h.first key).or (some data)) := rfl

@[simp] theorem held_insert : (h.insert key data).held = Insert.insert key h.held := rfl

@[simp] theorem missed_insert : (h.insert key data).missed = h.missed := rfl

@[simp] theorem first_remove : (h.remove key).first = Function.update h.first key none := rfl

@[simp] theorem held_remove : (h.remove key).held = h.held.erase key := rfl

theorem first_insert_of_held (hheld : key ∈ h.held) : (h.insert key data).first = h.first := by
  obtain ⟨old, hold⟩ := Option.ne_none_iff_exists'.mp (mem_held.mp hheld)
  rw [first_insert, hold, Option.some_or, ← hold, Function.update_eq_self]

theorem first_insert_of_absent (habsent : key ∉ h.held) :
    (h.insert key data).first = Function.update h.first key (some data) := by
  rw [first_insert, first_eq_none habsent, Option.none_or]

theorem first_remove_of_absent (habsent : key ∉ h.held) : (h.remove key).first = h.first := by
  rw [first_remove, ← first_eq_none habsent, Function.update_eq_self]

/-- A count that falls by one with every removal falls behind by the removals of absent keys. -/
theorem count_remove {n count count' : ℕ} (hcount : count + h.missed ≡ h.held.card [MOD n])
    (hprev : count' + 1 ≡ count [MOD n]) : count' + (h.remove key).missed ≡ (h.remove key).held.card [MOD n] := by
  have hnext : count' + h.missed + 1 ≡ h.held.card [MOD n] := by
    calc count' + h.missed + 1 = count' + 1 + h.missed := by omega
      _ ≡ count + h.missed [MOD n] := hprev.add_right _
      _ ≡ h.held.card [MOD n] := hcount
  by_cases hheld : key ∈ h.held
  · have hmissed : (h.remove key).missed = h.missed := if_pos hheld
    rw [hmissed, held_remove]
    apply Nat.ModEq.add_right_cancel' 1
    rwa [Finset.card_erase_add_one hheld]
  · have hmissed : (h.remove key).missed = h.missed + 1 := if_neg hheld
    rwa [hmissed, held_remove, Finset.erase_eq_of_notMem hheld]

end History

end KeyCalls
