import Mathlib

namespace PairedEnds

inductive Party where
  | left
  | right
  deriving DecidableEq

namespace Party

instance : Fintype Party := ⟨{left, right}, fun x => by cases x <;> simp⟩

def other : Party → Party
  | left => right
  | right => left

@[simp] theorem other_other (x : Party) : x.other.other = x := by cases x <;> rfl

end Party

/-- An end is `offered` to the party that accepts the connection and `dialed` by the one that made it until the party
takes it over. -/
inductive EndState where
  | dialed
  | offered
  | held
  | closed
  deriving DecidableEq

/-- The ends of a connection. -/
abbrev Ends := Party → EndState

def endOf (conns : List Ends) (c : ℕ) (x : Party) : Option EndState := conns[c]?.map (· x)

def setEnd (conns : List Ends) (c : ℕ) (x : Party) (e : EndState) : List Ends :=
  conns.modify c fun ends => Function.update ends x e

def closeEnd (conns : List Ends) (x : Party) : Option ℕ → List Ends
  | none => conns
  | some c => setEnd conns c x .closed

def dial (conns : List Ends) (x : Party) : List Ends := conns ++ [fun y => if y = x then .dialed else .offered]

section

variable {conns : List Ends} {c d : ℕ} {x y : Party} {e e' : EndState} {o : Option ℕ}

theorem endOf_setEnd : endOf (setEnd conns c x e) d y =
    if d = c ∧ y = x then (endOf conns c x).map fun _ => e else endOf conns d y := by
  rw [endOf, setEnd, List.getElem?_modify]
  by_cases hd : d = c
  · subst hd
    by_cases hy : y = x
    · subst hy
      cases hc : conns[d]? with
      | none => simp [endOf, hc]
      | some ends => simp [endOf, hc]
    · cases hc : conns[d]? with
      | none => simp [endOf, hc]
      | some ends => simp [endOf, hc, hy]
  · simp [endOf, hd, Ne.symm hd]

theorem endOf_dial : endOf (dial conns x) c y =
    if c < conns.length then endOf conns c y
    else if c = conns.length then some (if y = x then .dialed else .offered) else none := by
  rw [endOf, dial]
  by_cases hc : c < conns.length
  · rw [if_pos hc, List.getElem?_append_left hc, endOf]
  · rw [if_neg hc, List.getElem?_append_right (Nat.le_of_not_lt hc)]
    by_cases hl : c = conns.length
    · simp [hl]
    · have hpos : c - conns.length ≠ 0 := by omega
      simp [hl, hpos]

theorem lt_of_endOf (h : endOf conns c x = some e) : c < conns.length := by
  by_contra hc
  rw [endOf, List.getElem?_eq_none (Nat.le_of_not_lt hc)] at h
  cases h

theorem exists_of_endOf (h : endOf conns c x = some e) : ∃ ends ∈ conns, ends x = e := by
  obtain ⟨ends, hends, he⟩ := Option.map_eq_some_iff.mp h
  exact ⟨ends, List.mem_of_getElem? hends, he⟩

theorem endOf_isSome (hc : c < conns.length) (x : Party) : ∃ e, endOf conns c x = some e :=
  ⟨conns[c] x, by simp [endOf, hc]⟩

end

/-- The connections that two parties made to each other, and the one whose end a party keeps. -/
structure Links where
  conns : List Ends
  kept : Party → Option ℕ

namespace Links

def dial (s : Links) (x : Party) : Links := { s with conns := PairedEnds.dial s.conns x }

/-- The end replaces the one that was kept, which is closed. -/
def take (s : Links) (x : Party) (c : ℕ) : Links :=
  ⟨setEnd (closeEnd s.conns x (s.kept x)) c x .held, Function.update s.kept x (some c)⟩

def drop (s : Links) (x : Party) (c : ℕ) : Links :=
  ⟨setEnd s.conns c x .closed, if s.kept x = some c then Function.update s.kept x none else s.kept⟩

/-- A party drops an end only after the other party closed its own. -/
inductive Step : Links → Links → Prop
  | dial (s : Links) (x : Party) : Step s (s.dial x)
  | take {s : Links} {x : Party} {c : ℕ} (h : endOf s.conns c x = some .dialed ∨ endOf s.conns c x = some .offered) :
      Step s (s.take x c)
  | drop {s : Links} {x : Party} {c : ℕ} (h : endOf s.conns c x = some .held ∨ endOf s.conns c x = some .closed)
      (hc : endOf s.conns c x.other = some .closed) : Step s (s.drop x c)

/-- The end that a party keeps is the only one it took over and did not close. -/
def KeepsHeld (s : Links) : Prop := ∀ x c, s.kept x = some c ↔ endOf s.conns c x = some .held

/-- No end waits to be taken over, and none is held whose other end is closed. -/
structure Quiet (s : Links) : Prop where
  not_dialed : ∀ c x, endOf s.conns c x ≠ some .dialed
  not_offered : ∀ c x, endOf s.conns c x ≠ some .offered
  not_closed : ∀ c x, endOf s.conns c x = some .held → endOf s.conns c x.other ≠ some .closed

/-- The parties keep the two ends of one connection, which nobody closed, or none. -/
def Agree (s : Links) : Prop :=
  (∃ c, ∀ x, s.kept x = some c ∧ endOf s.conns c x = some .held) ∨ ∀ x, s.kept x = none

variable {s s' : Links} {x : Party} {c : ℕ}

theorem KeepsHeld.dial (h : s.KeepsHeld) (x : Party) : (s.dial x).KeepsHeld := by
  intro y d
  simp only [Links.dial, endOf_dial, h y d]
  split_ifs with hd hl hy
  · rfl
  · simpa using fun hheld => hd (lt_of_endOf hheld)
  · simpa using fun hheld => hd (lt_of_endOf hheld)
  · simpa using fun hheld => hd (lt_of_endOf hheld)

theorem endOf_closeEnd_kept (h : s.KeepsHeld) (d : ℕ) (y : Party) : endOf (closeEnd s.conns x (s.kept x)) d y =
    if y = x ∧ endOf s.conns d y = some .held then some .closed else endOf s.conns d y := by
  cases hk : s.kept x with
  | none =>
    rw [closeEnd, if_neg]
    rintro ⟨rfl, hheld⟩
    rw [(h y d).mpr hheld] at hk
    cases hk
  | some c =>
    have hc : endOf s.conns c x = some .held := (h x c).mp hk
    rw [closeEnd, endOf_setEnd, hc]
    by_cases hy : y = x
    · subst hy
      have hiff : endOf s.conns d y = some .held ↔ d = c := by
        rw [← h y d, hk, Option.some.injEq, eq_comm]
      simp [hiff]
    · simp [hy]

theorem KeepsHeld.take (h : s.KeepsHeld) (hc : endOf s.conns c x = some .dialed ∨ endOf s.conns c x = some .offered) :
    (s.take x c).KeepsHeld := by
  intro y d
  have hnot : endOf s.conns c x ≠ some .held := by
    rcases hc with hc | hc
    · simp [hc]
    · simp [hc]
  have hsome : ∃ e, endOf s.conns c x = some e := hc.elim (fun hc => ⟨_, hc⟩) fun hc => ⟨_, hc⟩
  obtain ⟨e, he⟩ := hsome
  simp only [Links.take, endOf_setEnd, endOf_closeEnd_kept h]
  by_cases hy : y = x
  · subst hy
    rw [Function.update_self]
    by_cases hd : d = c
    · subst hd
      have hne : e ≠ .held := fun heq => hnot (heq ▸ he)
      simp [he, hne]
    · have hdc : some c ≠ some d := fun hcd => hd (Option.some.inj hcd).symm
      simp only [hdc, hd, false_and, if_false, true_and, false_iff]
      split_ifs with hheld
      · simp
      · exact hheld
  · rw [Function.update_of_ne hy, h y d]
    simp [hy]

theorem KeepsHeld.drop (h : s.KeepsHeld) (hc : endOf s.conns c x = some .held ∨ endOf s.conns c x = some .closed) :
    (s.drop x c).KeepsHeld := by
  intro y d
  simp only [Links.drop, endOf_setEnd]
  by_cases hk : s.kept x = some c
  · have hheld : endOf s.conns c x = some .held := (h x c).mp hk
    rw [if_pos hk]
    by_cases hy : y = x
    · subst hy
      rw [Function.update_self]
      by_cases hd : d = c
      · simp [hd, hheld]
      · have hne : s.kept y ≠ some d := fun hkd => hd (Option.some.inj (hkd.symm.trans hk))
        simpa [hd, h y d] using hne
    · rw [Function.update_of_ne hy, h y d]
      simp [hy]
  · have hclosed : endOf s.conns c x = some .closed := hc.resolve_left fun hheld => hk ((h x c).mpr hheld)
    rw [if_neg hk, h y d]
    split_ifs with hdy
    · obtain ⟨rfl, rfl⟩ := hdy
      simp [hclosed]
    · rfl

theorem KeepsHeld.step (h : s.KeepsHeld) (hs : Step s s') : s'.KeepsHeld := by
  cases hs with
  | dial x => exact h.dial x
  | take hc => exact h.take hc
  | drop hc _ => exact h.drop hc

/-- In a quiet state an end that is kept has its other end kept. -/
theorem kept_other (h : s.KeepsHeld) (hq : s.Quiet) (hk : s.kept x = some c) : s.kept x.other = some c := by
  have hheld : endOf s.conns c x = some .held := (h x c).mp hk
  obtain ⟨e, he⟩ := endOf_isSome (lt_of_endOf hheld) x.other
  apply (h x.other c).mpr
  cases e with
  | dialed => exact absurd he (hq.not_dialed c x.other)
  | offered => exact absurd he (hq.not_offered c x.other)
  | held => exact he
  | closed => exact absurd he (hq.not_closed c x hheld)

theorem KeepsHeld.agree (h : s.KeepsHeld) (hq : s.Quiet) : s.Agree := by
  cases hk : s.kept .left with
  | some c =>
    have hother : s.kept .right = some c := kept_other h hq hk
    refine .inl ⟨c, ?_⟩
    intro x
    have hx : s.kept x = some c := by
      cases x with
      | left => exact hk
      | right => exact hother
    exact ⟨hx, (h x c).mp hx⟩
  | none =>
    refine .inr ?_
    intro x
    cases x with
    | left => exact hk
    | right =>
      cases hr : s.kept .right with
      | none => rfl
      | some c =>
        have hleft : s.kept .left = some c := kept_other h hq hr
        rw [hk] at hleft
        cases hleft

end Links

end PairedEnds
