import Mathlib.Data.List.Basic

namespace KeyedReplication

/-- What is asked of a copy: to take over the entry of a key, or to do without it. -/
inductive Request (K : Type) where
  | add (k : K)
  | remove (k : K)
deriving DecidableEq

namespace Request

variable {K : Type}

/-- The key of an entry that is to be taken over. -/
def added : Request K → Option K
  | add k => some k
  | remove _ => none

theorem added_concat {q : List (Request K)} {k : K} : (q ++ [add k]).filterMap added = q.filterMap added ++ [k] := by
  rw [List.filterMap_append]
  rfl

end Request

open Request

variable {K E : Type} [DecidableEq K] {key : E → K} {original original' copy l : List E} {q : List (Request K)} {e : E}
  {k : K} {ks : List K}

def entry (key : E → K) (original : List E) (k : K) : Option E := original.find? (key · = k)

/-- The entries that stay in the copy, and after them those that are still to be taken over, are the entries of the
original. -/
def Agrees (key : E → K) (original copy : List E) (q : List (Request K)) : Prop :=
  original = copy.filter (fun e => remove (key e) ∉ q) ++ (q.filterMap added).filterMap (entry key original)

theorem agrees_nil_iff : Agrees key original copy [] ↔ original = copy := by
  simp [Agrees]

theorem key_of_entry (h : entry key original k = some e) : key e = k := by
  simpa using List.find?_some h

theorem entry_none : entry key original k = none ↔ ∀ x ∈ original, key x ≠ k := by
  simp [entry]

theorem entry_concat (h : key e ≠ k) : entry key (original ++ [e]) k = entry key original k := by
  rw [entry, List.find?_append, List.find?_cons_of_neg (by simpa using h), List.find?_nil, Option.or_none]
  rfl

theorem entry_concat_self (h : ∀ x ∈ original, key x ≠ key e) : entry key (original ++ [e]) (key e) = some e := by
  rw [entry, List.find?_append, List.find?_eq_none.mpr (by simpa using h), Option.none_or,
    List.find?_cons_of_pos (by simp)]

theorem entry_cons : entry key (e :: original) k = if key e = k then some e else entry key original k := by
  by_cases hk : key e = k <;> simp [entry, hk]

theorem filter_some_of_mem (h : key e ∈ ks) : (some e).filter (key · ∉ ks) = none := by
  rw [Option.filter_some, if_neg (by simpa using h)]

theorem filter_some_of_not_mem (h : key e ∉ ks) : (some e).filter (key · ∉ ks) = some e := by
  rw [Option.filter_some, if_pos (by simpa using h)]

theorem entry_filter (ks : List K) (k : K) :
    entry key (original.filter (key · ∉ ks)) k = (entry key original k).filter (key · ∉ ks) := by
  induction original with
  | nil => rfl
  | cons x l ih =>
    rw [entry_cons]
    by_cases hks : key x ∈ ks
    · rw [List.filter_cons_of_neg (by simpa using hks), ih]
      split_ifs with hk
      · rw [filter_some_of_mem hks]
        cases he : entry key l k with
        | none => rfl
        | some e => exact filter_some_of_mem (key_of_entry he ▸ hk ▸ hks)
      · rfl
    · rw [List.filter_cons_of_pos (by simpa using hks), entry_cons, ih]
      split_ifs with hk
      · exact (filter_some_of_not_mem hks).symm
      · rfl

theorem entry_congr {A : Type} {l : List A} {f g : A → E} (hkey : ∀ a ∈ l, key (g a) = key (f a))
    (h : ∀ a ∈ l, key (f a) = k → g a = f a) : entry key (l.map g) k = entry key (l.map f) k := by
  induction l with
  | nil => rfl
  | cons a l ih =>
    obtain ⟨ha, hl⟩ := List.forall_mem_cons.mp hkey
    obtain ⟨hsame, hsames⟩ := List.forall_mem_cons.mp h
    rw [List.map_cons, List.map_cons, entry_cons, entry_cons, ih hl hsames, ha]
    split_ifs with hk
    · rw [hsame hk]
    · rfl

theorem entry_of_mem (hdistinct : original.Pairwise (key · ≠ key ·)) (he : e ∈ original) :
    entry key original (key e) = some e := by
  induction original with
  | nil => cases he
  | cons x l ih =>
    obtain ⟨hx, hl⟩ := List.pairwise_cons.mp hdistinct
    rw [entry_cons]
    rcases List.mem_cons.mp he with rfl | he
    · rw [if_pos rfl]
    · rw [if_neg (hx e he), ih hl he]

/-- Entries that are found by their keys are found one after the other. -/
theorem filterMap_entry (hdistinct : original.Pairwise (key · ≠ key ·)) (hl : ∀ e ∈ l, e ∈ original) :
    (l.map key).filterMap (entry key original) = l := by
  rw [List.filterMap_map]
  have hsome : ∀ e ∈ l, (entry key original ∘ key) e = some e := fun e he => entry_of_mem hdistinct (hl e he)
  rw [List.filterMap_congr hsome, List.filterMap_some]

theorem filter_add : copy.filter (fun x => remove (key x) ∉ q ++ [add k]) =
    copy.filter fun x => remove (key x) ∉ q := by
  apply List.filter_congr
  intro x _
  simp

theorem filter_add_cons : copy.filter (fun x => remove (key x) ∉ add k :: q) =
    copy.filter fun x => remove (key x) ∉ q := by
  apply List.filter_congr
  intro x _
  simp

theorem Agrees.concat (h : Agrees key original copy q) (hq : add (key e) ∉ q)
    (hkey : ∀ x ∈ original, key x ≠ key e) : Agrees key (original ++ [e]) copy (q ++ [add (key e)]) := by
  have hentry : ∀ k ∈ q.filterMap added, entry key (original ++ [e]) k = entry key original k := by
    intro k hk
    obtain ⟨r, hr, hadded⟩ := List.mem_filterMap.mp hk
    apply entry_concat
    rintro rfl
    cases r with
    | add k =>
      cases hadded
      exact hq hr
    | remove k => cases hadded
  rw [Agrees, filter_add, added_concat, List.filterMap_append, List.filterMap_congr hentry, ← List.append_assoc, ← h,
    List.filterMap_cons_some (entry_concat_self hkey), List.filterMap_nil]

/-- A key that no entry has brings nothing. -/
theorem Agrees.concat_other (h : Agrees key original copy q) (hkey : ∀ x ∈ original, key x ≠ k) :
    Agrees key original copy (q ++ [add k]) := by
  rw [Agrees, filter_add, added_concat, List.filterMap_append, List.filterMap_cons_none (entry_none.mpr hkey),
    List.filterMap_nil, List.append_nil]
  exact h

/-- An entry of the original may be replaced while it is still to be taken over. -/
theorem Agrees.replace (h : Agrees key original copy q) (hdistinct : original.Pairwise (key · ≠ key ·))
    (hkeys : original'.map key = original.map key)
    (hsame : ∀ k, add k ∉ q → entry key original' k = entry key original k) : Agrees key original' copy q := by
  have hdistinct' : original'.Pairwise (key · ≠ key ·) := by
    rw [← List.pairwise_map (R := (· ≠ ·)), hkeys, List.pairwise_map]
    exact hdistinct
  have hadded {k : K} : k ∈ q.filterMap added ↔ add k ∈ q := by
    constructor
    · intro hk
      obtain ⟨r, hr, hadd⟩ := List.mem_filterMap.mp hk
      cases r with
      | add k => cases hadd; exact hr
      | remove k => cases hadd
    · intro hk
      exact List.mem_filterMap.mpr ⟨add k, hk, rfl⟩
  have hsplit := h
  rw [Agrees] at hsplit
  have hparts := List.pairwise_append.mp (hsplit ▸ hdistinct)
  have hstay : ((copy.filter fun e => remove (key e) ∉ q).map key).filterMap (entry key original') =
      copy.filter fun e => remove (key e) ∉ q := by
    have hmem : ∀ e ∈ copy.filter (fun e => remove (key e) ∉ q), e ∈ original := by
      intro e he
      rw [hsplit]
      exact List.mem_append_left _ he
    have heq : ∀ k ∈ (copy.filter fun e => remove (key e) ∉ q).map key,
        entry key original' k = entry key original k := by
      intro k hk
      obtain ⟨e, he, rfl⟩ := List.mem_map.mp hk
      apply hsame
      intro hq
      have hagain : e ∈ (q.filterMap added).filterMap (entry key original) :=
        List.mem_filterMap.mpr ⟨key e, hadded.mpr hq, entry_of_mem hdistinct (hmem e he)⟩
      exact hparts.2.2 e he e hagain rfl
    rw [List.filterMap_congr heq, filterMap_entry hdistinct hmem]
  have hnew : (((q.filterMap added).filterMap (entry key original)).map key).filterMap (entry key original') =
      (q.filterMap added).filterMap (entry key original') := by
    rw [List.filterMap_map, List.filterMap_filterMap]
    apply List.filterMap_congr
    intro k _
    cases he : entry key original k with
    | some e =>
      rw [Option.bind_some, Function.comp_apply, key_of_entry he]
    | none =>
      rw [Option.bind_none, eq_comm, entry_none]
      intro x hx
      have hmem : key x ∈ original.map key := hkeys ▸ List.mem_map_of_mem hx
      obtain ⟨y, hy, hkey⟩ := List.mem_map.mp hmem
      rw [← hkey]
      exact entry_none.mp he y hy
  calc original' = (original'.map key).filterMap (entry key original') :=
        (filterMap_entry hdistinct' fun _ he => he).symm
    _ = _ := by rw [hkeys]; nth_rewrite 1 [hsplit]; rw [List.map_append, List.filterMap_append, hstay, hnew]

theorem Agrees.filter (h : Agrees key original copy q) (ks : List K) :
    Agrees key (original.filter (key · ∉ ks)) copy (q ++ ks.map remove) := by
  have hcopy : copy.filter (fun e => remove (key e) ∉ q ++ ks.map remove) =
      (copy.filter fun e => remove (key e) ∉ q).filter (key · ∉ ks) := by
    rw [List.filter_filter]
    apply List.filter_congr
    intro e _
    simp [and_comm]
  have hadds : (q ++ ks.map remove).filterMap added = q.filterMap added := by
    have hnone : ks.filterMap (added ∘ remove) = [] := by simp [added, Function.comp_def]
    rw [List.filterMap_append, List.filterMap_map, hnone, List.append_nil]
  have hentry : (q.filterMap added).filterMap (entry key (original.filter (key · ∉ ks))) =
      ((q.filterMap added).filterMap (entry key original)).filter (key · ∉ ks) := by
    rw [List.filter_filterMap]
    exact List.filterMap_congr fun k _ => entry_filter ks k
  rw [Agrees, hcopy, hadds, hentry, ← List.filter_append]
  exact congrArg _ h

/-- The copy has no entry yet of a key it is to take over. -/
theorem Agrees.absent (h : Agrees key original copy (add k :: q)) (hdistinct : original.Pairwise (key · ≠ key ·))
    (he : entry key original k = some e) (hq : remove k ∉ q) : ∀ x ∈ copy, key x ≠ k := by
  rintro x hx rfl
  have hadds : (add (key x) :: q).filterMap added = key x :: q.filterMap added := rfl
  rw [Agrees, filter_add_cons, hadds, List.filterMap_cons_some he] at h
  rw [h] at hdistinct
  have hstay : x ∈ copy.filter fun x => remove (key x) ∉ q := List.mem_filter.mpr ⟨hx, by simpa using hq⟩
  exact (List.pairwise_append.mp hdistinct).2.2 x hstay e List.mem_cons_self (key_of_entry he).symm

theorem Agrees.take_add (h : Agrees key original copy (add k :: q)) (he : entry key original k = some e)
    (hq : remove k ∉ q) : Agrees key original (copy ++ [e]) q := by
  have hadds : (add k :: q).filterMap added = k :: q.filterMap added := rfl
  rw [Agrees, filter_add_cons, hadds, List.filterMap_cons_some he] at h
  have hlast : [e].filter (fun x => remove (key x) ∉ q) = [e] := by simp [key_of_entry he, hq]
  rw [Agrees, List.filter_append, hlast, List.append_assoc]
  exact h

theorem Agrees.take_add_none (h : Agrees key original copy (add k :: q)) (he : entry key original k = none) :
    Agrees key original copy q := by
  have hadds : (add k :: q).filterMap added = k :: q.filterMap added := rfl
  rw [Agrees, filter_add_cons, hadds, List.filterMap_cons_none he] at h
  exact h

theorem Agrees.take_remove (h : Agrees key original copy (remove k :: q)) :
    Agrees key original (copy.filter (key · ≠ k)) q := by
  have hcopy : (copy.filter (key · ≠ k)).filter (fun x => remove (key x) ∉ q) =
      copy.filter fun x => remove (key x) ∉ remove k :: q := by
    rw [List.filter_filter]
    apply List.filter_congr
    intro x _
    simp [Bool.and_comm]
  rw [Agrees, hcopy]
  exact h

end KeyedReplication
