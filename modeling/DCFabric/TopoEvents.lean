import DCFabric.BncTypes
import DCFabric.TransitionRuns

namespace DCFabric

open TransitionRuns

/-- The lists of changes, in the order in which the thread goes through them. -/
inductive EventKind where
  | delete_switch
  | add_switch
  | delete_switch_port
  | add_switch_port
deriving DecidableEq

def EVENT_MAX_CHANGED_SWITCH_NUM : ℕ := 3600
def EVENT_MAX_CHANGED_SWITCH_PORT_NUM : ℕ := EVENT_MAX_CHANGED_SWITCH_NUM * 10

namespace EventKind

def order : EventKind → ℕ
  | delete_switch => 0
  | add_switch => 1
  | delete_switch_port => 2
  | add_switch_port => 3

def next : EventKind → Option EventKind
  | delete_switch => some add_switch
  | add_switch => some delete_switch_port
  | delete_switch_port => some add_switch_port
  | add_switch_port => none

/-- The entries of the list's array. -/
def size : EventKind → ℕ
  | delete_switch | add_switch => EVENT_MAX_CHANGED_SWITCH_NUM
  | delete_switch_port | add_switch_port => EVENT_MAX_CHANGED_SWITCH_PORT_NUM

/-- The mutex of the list is held over the callbacks, and not only to clear the list. -/
def locked : EventKind → Bool
  | delete_switch | add_switch => true
  | delete_switch_port | add_switch_port => false

end EventKind

/-- Where `topo_change_event_thread` is: at `sem_wait`, before the test of a list, in the sleep after it read a list's
number, before the call that handles a list, and in that call after some of the callbacks. -/
inductive TopoPlace where
  | waiting
  | testing (k : EventKind)
  | sleeping (k : EventKind) (last : ℕ)
  | stable (k : EventKind)
  | calling (k : EventKind) (done : ℕ)
deriving DecidableEq

/-- The lists with the count of the semaphore and the place of the thread; and, of what happened, the events that each
callback was called with and those that were cleared. Switches have no port number. -/
structure TopoEvents (σ : Type) where
  list : EventKind → List (σ × Option UINT4)
  sem : ℕ
  place : TopoPlace
  passed : EventKind → ℕ → List (σ × Option UINT4)
  cleared : EventKind → List (σ × Option UINT4)

inductive TopoStep (σ : Type) where
  | event_add_switch_on (sw : σ)
  | event_delete_switch_on (sw : σ)
  | event_add_switch_port_on (sw : σ) (port_no : UINT4)
  | event_delete_switch_port_on (sw : σ) (port_no : UINT4)
  | thread

namespace TopoPlace

/-- The number of callbacks that were called with the list as it is. -/
def doneOf (p : TopoPlace) (k : EventKind) : ℕ :=
  match p with
  | calling j done => if j = k then done else 0
  | _ => 0

/-- The mutex of the list is held by the thread. -/
def holds (p : TopoPlace) (k : EventKind) : Bool :=
  match p with
  | calling j _ => k.locked && j = k
  | _ => false

/-- The list is still tested, or handled, before the thread waits again. -/
def ahead (p : TopoPlace) (k : EventKind) : Prop :=
  match p with
  | waiting => False
  | testing j | sleeping j _ | stable j | calling j _ => j.order ≤ k.order

/-- The test of a list, or the wait after the last one. -/
def enter : Option EventKind → TopoPlace
  | none => waiting
  | some k => testing k

end TopoPlace

namespace TopoEvents

variable {σ : Type}

/-- An event is put into its list and posted; the list's mutex is not held by the thread. -/
def event (s : TopoEvents σ) (k : EventKind) (e : σ × Option UINT4) : Option (TopoEvents σ) :=
  if s.place.holds k then none
  else some { s with list := Function.update s.list k (s.list k ++ [e]), sem := s.sem + 1 }

-- the number of registered callbacks for each list
variable (fun_num : EventKind → ℕ)

def topo_change_event_thread (s : TopoEvents σ) : Option (TopoEvents σ) :=
  match s.place with
  | .waiting => if s.sem = 0 then none else some { s with sem := s.sem - 1, place := .testing .delete_switch }
  | .testing k =>
    some { s with place := if (s.list k).length = 0 then .enter k.next else .sleeping k (s.list k).length }
  | .sleeping k last =>
    some { s with place := if last < (s.list k).length then .sleeping k (s.list k).length else .stable k }
  | .stable k => some { s with place := .calling k 0 }
  | .calling k done =>
    if done < fun_num k then
      some { s with
        passed := Function.update s.passed k (Function.update (s.passed k) done (s.passed k done ++ s.list k))
        place := .calling k (done + 1) }
    else
      some { s with
        cleared := Function.update s.cleared k (s.cleared k ++ s.list k)
        list := Function.update s.list k []
        place := .enter k.next }

def step (s : TopoEvents σ) : TopoStep σ → Option (TopoEvents σ)
  | .event_add_switch_on sw => s.event .add_switch (sw, none)
  | .event_delete_switch_on sw => s.event .delete_switch (sw, none)
  | .event_add_switch_port_on sw port_no => s.event .add_switch_port (sw, some port_no)
  | .event_delete_switch_port_on sw port_no => s.event .delete_switch_port (sw, some port_no)
  | .thread => s.topo_change_event_thread fun_num

def start : TopoEvents σ := ⟨fun _ => [], 0, .waiting, fun _ _ => [], fun _ => []⟩

/-- Each callback was called with each event that was cleared in exactly one call, and with those of the list once more
where it was called with the list as it is; no list is longer than its array; and the lists are empty where the thread
waits for the semaphore. -/
structure Kept (s : TopoEvents σ) : Prop where
  passed : ∀ k i, i < fun_num k → s.passed k i = s.cleared k ++ if i < s.place.doneOf k then s.list k else []
  fits : ∀ k, (s.list k).length ≤ k.size
  drained : s.place = .waiting → s.sem = 0 → ∀ k, s.list k = []

/-- The list of an event has room, and no callback was called with it as it is. -/
def Spares (s : TopoEvents σ) (k : EventKind) : Prop := (s.list k).length < k.size ∧ s.place.doneOf k = 0

instance (s : TopoEvents σ) (k : EventKind) : Decidable (s.Spares k) := inferInstanceAs (Decidable (_ ∧ _))

def KeepsEvents (s : TopoEvents σ) : TopoStep σ → Prop
  | .event_add_switch_on _ => s.Spares .add_switch
  | .event_delete_switch_on _ => s.Spares .delete_switch
  | .event_add_switch_port_on _ _ => s.Spares .add_switch_port
  | .event_delete_switch_port_on _ _ => s.Spares .delete_switch_port
  | .thread => True

instance (s : TopoEvents σ) (e : TopoStep σ) : Decidable (s.KeepsEvents e) :=
  match e with
  | .event_add_switch_on _ | .event_delete_switch_on _ | .event_add_switch_port_on _ _
  | .event_delete_switch_port_on _ _ => inferInstanceAs (Decidable (Spares _ _))
  | .thread => .isTrue trivial

/-- A list that is not empty is posted, or still ahead of the thread; and the thread calls registered callbacks. -/
structure Inv (s : TopoEvents σ) : Prop where
  posted : ∀ k, s.list k ≠ [] → 0 < s.sem ∨ s.place.ahead k
  registered : ∀ k, s.place.doneOf k ≤ fun_num k

variable {fun_num} {s s' : TopoEvents σ} {k j : EventKind} {x : σ × Option UINT4}

theorem ahead_enter (hk : j.order ≤ k.order) (hne : k ≠ j) : (TopoPlace.enter j.next).ahead k := by
  cases j <;> cases k <;> simp_all [TopoPlace.enter, TopoPlace.ahead, EventKind.next, EventKind.order]

theorem doneOf_enter (o : Option EventKind) (k : EventKind) : (TopoPlace.enter o).doneOf k = 0 := by
  cases o <;> rfl

theorem event_eq (he : s.event k x = some s') :
    s.place.holds k = false ∧ s' = { s with list := Function.update s.list k (s.list k ++ [x]), sem := s.sem + 1 } := by
  rw [event] at he
  split_ifs at he with hh
  exact ⟨by simpa using hh, (Option.some.inj he).symm⟩

theorem Inv.event (hi : s.Inv fun_num) (he : s.event k x = some s') : s'.Inv fun_num := by
  obtain ⟨-, rfl⟩ := event_eq he
  exact ⟨fun _ _ => .inl (Nat.succ_pos _), hi.registered⟩

/-- What one round of the thread does. -/
theorem thread_cases (he : s.topo_change_event_thread fun_num = some s') :
    (s.place = .waiting ∧ s' = { s with sem := s.sem - 1, place := .testing .delete_switch }) ∨
      (∃ j, s.place = .testing j ∧
        s' = { s with place := if (s.list j).length = 0 then .enter j.next else .sleeping j (s.list j).length }) ∨
      (∃ j last, s.place = .sleeping j last ∧
        s' = { s with place := if last < (s.list j).length then .sleeping j (s.list j).length else .stable j }) ∨
      (∃ j, s.place = .stable j ∧ s' = { s with place := .calling j 0 }) ∨
      (∃ j done, s.place = .calling j done ∧ done < fun_num j ∧ s' = { s with
        passed := Function.update s.passed j (Function.update (s.passed j) done (s.passed j done ++ s.list j))
        place := .calling j (done + 1) }) ∨
      ∃ j done, s.place = .calling j done ∧ fun_num j ≤ done ∧ s' = { s with
        cleared := Function.update s.cleared j (s.cleared j ++ s.list j)
        list := Function.update s.list j []
        place := .enter j.next } := by
  rw [topo_change_event_thread] at he
  cases hp : s.place with
  | waiting =>
    simp only [hp] at he
    split_ifs at he
    exact .inl ⟨rfl, (Option.some.inj he).symm⟩
  | testing j =>
    simp only [hp] at he
    exact .inr (.inl ⟨j, rfl, (Option.some.inj he).symm⟩)
  | sleeping j last =>
    simp only [hp] at he
    exact .inr (.inr (.inl ⟨j, last, rfl, (Option.some.inj he).symm⟩))
  | stable j =>
    simp only [hp] at he
    exact .inr (.inr (.inr (.inl ⟨j, rfl, (Option.some.inj he).symm⟩)))
  | calling j done =>
    simp only [hp] at he
    split_ifs at he with hdone
    · exact .inr (.inr (.inr (.inr (.inl ⟨j, done, rfl, hdone, (Option.some.inj he).symm⟩))))
    · exact .inr (.inr (.inr (.inr (.inr ⟨j, done, rfl, not_lt.mp hdone, (Option.some.inj he).symm⟩))))

theorem doneOf_tested (n : ℕ) (k : EventKind) :
    (if n = 0 then TopoPlace.enter j.next else .sleeping j n).doneOf k = 0 := by
  split_ifs
  · exact doneOf_enter _ _
  · rfl

theorem doneOf_slept (last n : ℕ) (k : EventKind) :
    (if last < n then TopoPlace.sleeping j n else .stable j).doneOf k = 0 := by
  split_ifs <;> rfl

theorem Inv.thread (hi : s.Inv fun_num) (he : s.topo_change_event_thread fun_num = some s') : s'.Inv fun_num := by
  obtain ⟨hposted, hreg⟩ := hi
  rcases thread_cases he with ⟨-, rfl⟩ | ⟨j, hp, rfl⟩ | ⟨j, last, hp, rfl⟩ | ⟨j, hp, rfl⟩ | ⟨j, done, hp, hdone, rfl⟩ |
    ⟨j, done, hp, -, rfl⟩
  · exact ⟨fun _ _ => .inr (Nat.zero_le _), fun _ => Nat.zero_le _⟩
  · rw [hp] at hposted
    refine ⟨?_, ?_⟩
    · intro k hk
      refine (hposted k hk).imp id fun hle => ?_
      dsimp only
      split_ifs with hz
      · refine ahead_enter hle ?_
        rintro rfl
        exact hk (List.eq_nil_of_length_eq_zero hz)
      · exact hle
    · intro k
      dsimp only
      rw [doneOf_tested]
      exact Nat.zero_le _
  · rw [hp] at hposted
    refine ⟨?_, ?_⟩
    · intro k hk
      refine (hposted k hk).imp id fun hle => ?_
      dsimp only
      split_ifs <;> exact hle
    · intro k
      dsimp only
      rw [doneOf_slept]
      exact Nat.zero_le _
  · rw [hp] at hposted
    refine ⟨hposted, ?_⟩
    intro k
    simp only [TopoPlace.doneOf, ite_self]
    exact Nat.zero_le _
  · rw [hp] at hposted
    refine ⟨hposted, ?_⟩
    intro k
    simp only [TopoPlace.doneOf]
    split_ifs with hjk
    · subst hjk
      exact hdone
    · exact Nat.zero_le _
  · rw [hp] at hposted
    refine ⟨?_, ?_⟩
    · intro k hk
      by_cases hkj : k = j
      · subst hkj
        simp at hk
      · simp only [Function.update_of_ne hkj] at hk
        exact (hposted k hk).imp id fun hle => ahead_enter hle hkj
    · intro k
      dsimp only
      rw [doneOf_enter]
      exact Nat.zero_le _

theorem Inv.drained (hi : s.Inv fun_num) (hw : s.place = .waiting) (hz : s.sem = 0) (k : EventKind) :
    s.list k = [] := by
  by_contra hk
  rcases hi.posted k hk with hpos | hahead
  · omega
  · rw [hw] at hahead
    exact hahead

/-- An event is kept exactly where it is put into a list with room that no callback was called with. -/
theorem kept_event (hi : s.Inv fun_num) (hk : s.Kept fun_num) (he : s.event k x = some s') :
    s.Spares k ↔ s'.Kept fun_num := by
  have hi' := hi.event he
  obtain ⟨-, rfl⟩ := event_eq he
  constructor
  · rintro ⟨hroom, hdone⟩
    refine ⟨?_, ?_, hi'.drained⟩
    · intro j i hij
      have hpass := hk.passed j i hij
      by_cases hjk : j = k
      · subst hjk
        simpa [hdone] using hpass
      · simpa [hjk] using hpass
    · intro j
      by_cases hjk : j = k
      · subst hjk
        simpa using hroom
      · simpa [hjk] using hk.fits j
  · intro h
    refine ⟨by simpa using h.fits k, ?_⟩
    by_contra hdone
    have hpos : 0 < s.place.doneOf k := Nat.pos_of_ne_zero hdone
    have hreg : 0 < fun_num k := lt_of_lt_of_le hpos (hi.registered k)
    have hold := hk.passed k 0 hreg
    have hnew := h.passed k 0 hreg
    simp only [Function.update_self, if_pos hpos] at hold hnew
    have hlen := congrArg List.length (hold.symm.trans hnew)
    simp at hlen

theorem fits_thread (hk : s.Kept fun_num) (he : s.topo_change_event_thread fun_num = some s') (k : EventKind) :
    (s'.list k).length ≤ k.size := by
  have hfits := hk.fits k
  rcases thread_cases he with ⟨-, rfl⟩ | ⟨j, -, rfl⟩ | ⟨j, last, -, rfl⟩ | ⟨j, -, rfl⟩ | ⟨j, done, -, -, rfl⟩ |
    ⟨j, done, -, -, rfl⟩
  · exact hfits
  · exact hfits
  · exact hfits
  · exact hfits
  · exact hfits
  · by_cases hkj : k = j
    · subst hkj
      simp
    · simpa [hkj] using hfits

theorem passed_thread (hk : s.Kept fun_num) (he : s.topo_change_event_thread fun_num = some s') {i : ℕ}
    (hik : i < fun_num k) :
    s'.passed k i = s'.cleared k ++ if i < s'.place.doneOf k then s'.list k else [] := by
  have hpass := hk.passed k i hik
  rcases thread_cases he with ⟨hp, rfl⟩ | ⟨j, hp, rfl⟩ | ⟨j, last, hp, rfl⟩ | ⟨j, hp, rfl⟩ | ⟨j, done, hp, -, rfl⟩ |
    ⟨j, done, hp, hdone, rfl⟩
  · rw [hp] at hpass
    exact hpass
  · rw [hp] at hpass
    dsimp only
    rw [doneOf_tested]
    exact hpass
  · rw [hp] at hpass
    dsimp only
    rw [doneOf_slept]
    exact hpass
  · rw [hp] at hpass
    rw [hpass]
    simp [TopoPlace.doneOf]
  · -- one more callback is called with the list
    simp only [hp, TopoPlace.doneOf] at hpass
    by_cases hkj : k = j
    · subst hkj
      simp only [if_true] at hpass
      simp only [TopoPlace.doneOf, if_true, Function.update_self]
      by_cases hid : i = done
      · subst hid
        rw [Function.update_self, hpass, if_neg (lt_irrefl i), if_pos (Nat.lt_succ_self i), List.append_nil]
      · rw [Function.update_of_ne hid, hpass]
        congr 1
        split_ifs <;> first | rfl | omega
    · simpa [TopoPlace.doneOf, hkj, Ne.symm hkj] using hpass
  · -- the list is cleared
    simp only [hp, TopoPlace.doneOf] at hpass
    by_cases hkj : k = j
    · subst hkj
      simp only [if_true] at hpass
      rw [if_pos (lt_of_lt_of_le hik hdone)] at hpass
      simp only [doneOf_enter, Nat.not_lt_zero, if_false, Function.update_self, List.append_nil]
      exact hpass
    · simpa [doneOf_enter, hkj, Ne.symm hkj] using hpass

theorem kept_thread (hi : s.Inv fun_num) (hk : s.Kept fun_num) (he : s.topo_change_event_thread fun_num = some s') :
    s'.Kept fun_num where
  passed _ _ hik := passed_thread hk he hik
  fits := fits_thread hk he
  drained := (hi.thread he).drained

theorem kept_step {e : TopoStep σ} (hi : s.Inv fun_num) (hk : s.Kept fun_num) (he : step fun_num s e = some s') :
    s'.Inv fun_num ∧ (s.KeepsEvents e ↔ s'.Kept fun_num) := by
  cases e with
  | event_add_switch_on sw => exact ⟨hi.event he, kept_event hi hk he⟩
  | event_delete_switch_on sw => exact ⟨hi.event he, kept_event hi hk he⟩
  | event_add_switch_port_on sw port_no => exact ⟨hi.event he, kept_event hi hk he⟩
  | event_delete_switch_port_on sw port_no => exact ⟨hi.event he, kept_event hi hk he⟩
  | thread => exact ⟨hi.thread he, iff_of_true trivial (kept_thread hi hk he)⟩

/-- No event is lost or passed twice and no list overflows as long as every event finds room in its list and comes
before the first callback is called with the list or after the list is cleared, and not after an event that does not. -/
theorem topo_events_kept (h : Run (step fun_num) KeepsEvents (start : TopoEvents σ) s) :
    s.Kept fun_num ∧ ∀ e s', step fun_num s e = some s' → (s.KeepsEvents e ↔ s'.Kept fun_num) := by
  obtain ⟨hi, hk⟩ : s.Inv fun_num ∧ s.Kept fun_num := by
    refine h.invariant (P := fun s => s.Inv fun_num ∧ s.Kept fun_num) ?_ ⟨⟨?_, ?_⟩, ⟨?_, ?_, ?_⟩⟩
    · rintro t e u ⟨hi, hk⟩ hkeeps he
      obtain ⟨hi', hiff⟩ := kept_step hi hk he
      exact ⟨hi', hiff.mp hkeeps⟩
    · exact fun k hk => absurd rfl hk
    · exact fun k => Nat.zero_le _
    · exact fun k i _ => by simp [start, TopoPlace.doneOf]
    · exact fun k => Nat.zero_le _
    · exact fun _ _ _ => rfl
  exact ⟨hk, fun e s' he => (kept_step hi hk he).2⟩

/-- The thread goes through a list of one port and waits again. -/
def onePass : List (TopoStep ℕ) :=
  [.event_add_switch_port_on 0 1, .thread, .thread, .thread, .thread, .thread, .thread, .thread, .thread, .thread]

theorem onePass_kept : ∃ s, exec (step fun _ => 1) start onePass = some s ∧ s.Kept fun _ => 1 := by
  have hexec : exec (guarded (step fun _ => 1) KeepsEvents) start onePass = some _ := rfl
  exact ⟨_, rfl, (topo_events_kept (Run.of_exec hexec)).1⟩

/-- A port that is added between the callback and the clearing of the list is cleared without a call. -/
theorem port_event_lost : ¬ ∀ fun_num (s : TopoEvents ℕ), Reaches (step fun_num) start s → s.Kept fun_num := by
  intro h
  have hexec : exec (step fun _ => 1) start [.event_add_switch_port_on 0 1, .thread, .thread, .thread, .thread, .thread,
    .thread, .thread, .thread, .event_add_switch_port_on 0 2, .thread] = some _ := rfl
  have hpass := (h (fun _ => 1) _ (Reaches.of_exec hexec)).passed .add_switch_port 0 (by decide)
  exact absurd hpass (by decide)

end TopoEvents

end DCFabric
