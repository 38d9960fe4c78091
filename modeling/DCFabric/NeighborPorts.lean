import DCFabric.BncTypes
import DCFabric.PartnerMaps
import DCFabric.TransitionRuns

namespace DCFabric

open TransitionRuns

inductive port_type where
  | UNKOWN
  | HOST_CON
  | SW_CON
deriving DecidableEq

def MAX_PORTS : ℕ := 65535

/-- The switch and the port that are the neighbor of a port, by the port's index in `ports`. -/
structure neighbor_t (σ : Type) where
  bValid : Bool
  sw : σ
  port : ℕ

/-- A change that is reported to the topology thread. -/
inductive PortReport (σ : Type) where
  | event_add_switch_port_on (sw : σ) (port_no : UINT4)
  | event_delete_switch_port_on (sw : σ) (port_no : UINT4)

/-- The switches with the numbers of their ports, and whether their `conn_state` is another than `INITSTATE`. -/
structure SwitchPorts (σ : Type) where
  port_no : σ → List UINT4
  inUse : σ → Bool
  n_ports_le : ∀ sw, (port_no sw).length ≤ MAX_PORTS

/-- `neighbor` and the types of `ports` of all switches, and what was reported. -/
structure Neighbors (σ : Type) where
  neighbor : σ → ℕ → neighbor_t σ
  type : σ → ℕ → port_type
  reported : List (PortReport σ)

variable {σ : Type} [DecidableEq σ]

namespace SwitchPorts

/-- The first index of a port number. -/
def indexOf (net : SwitchPorts σ) (sw : σ) (port_no : UINT4) : Option ℕ :=
  (net.port_no sw).findIdx? fun no => no = port_no

def numberOf (net : SwitchPorts σ) (sw : σ) (i : ℕ) : UINT4 := (net.port_no sw).getD i 0

omit [DecidableEq σ] in
theorem lt_of_indexOf {net : SwitchPorts σ} {sw : σ} {no : UINT4} {i : ℕ} (h : net.indexOf sw no = some i) :
    i < MAX_PORTS ∧ net.numberOf sw i = no := by
  obtain ⟨hlt, hno, -⟩ := List.findIdx?_eq_some_iff_getElem.mp h
  refine ⟨lt_of_lt_of_le hlt (net.n_ports_le sw), ?_⟩
  rw [numberOf, List.getD_eq_getElem _ _ hlt]
  exact of_decide_eq_true hno

end SwitchPorts

namespace Neighbors

def setType (s : Neighbors σ) (sw : σ) (i : ℕ) (t : port_type) : Neighbors σ :=
  { s with type := Function.update s.type sw (Function.update (s.type sw) i t) }

def setNeighbor (s : Neighbors σ) (sw : σ) (i : ℕ) (n : neighbor_t σ) : Neighbors σ :=
  { s with neighbor := Function.update s.neighbor sw (Function.update (s.neighbor sw) i n) }

def report (s : Neighbors σ) (reports : List (PortReport σ)) : Neighbors σ :=
  { s with reported := s.reported ++ reports }

variable (net : SwitchPorts σ)

/-- The switch that received the packet on `rx_port` and the one that sent it on `tx_port` become neighbors. -/
def mapping_new_neighbor (s : Neighbors σ) (src_sw : σ) (rx_port : UINT4) (neigh_sw : σ) (tx_port : UINT4) :
    Neighbors σ :=
  match net.indexOf neigh_sw tx_port with
  | none => s
  | some neigh_port_seq =>
    let s := s.setType neigh_sw neigh_port_seq .SW_CON
    match net.indexOf src_sw rx_port with
    | none => s
    | some own_port_seq =>
      let s := s.setType src_sw own_port_seq .SW_CON
      let bSwNodeEdgeUp := !(s.neighbor src_sw own_port_seq).bValid || !(s.neighbor neigh_sw neigh_port_seq).bValid
      let bNeigborChange := (s.neighbor neigh_sw neigh_port_seq).sw ≠ src_sw ∨
        (s.neighbor src_sw own_port_seq).sw ≠ neigh_sw ∨ bSwNodeEdgeUp
      let s := s.setNeighbor src_sw own_port_seq ⟨true, neigh_sw, neigh_port_seq⟩
      let s := s.setNeighbor neigh_sw neigh_port_seq ⟨true, src_sw, own_port_seq⟩
      if bNeigborChange then
        s.report [.event_add_switch_port_on src_sw rx_port, .event_add_switch_port_on neigh_sw tx_port]
      else s

/-- The entry of a port and its neighbor's entry are no longer valid. `n_port_index` is the index at which the search
through the neighbor's ports ends, and the type that is reset at last is that of the switch's port with this index. -/
def of13_delete_line (s : Neighbors σ) (sw : σ) (port_index : ℕ) : Neighbors σ :=
  let n := s.neighbor sw port_index
  if n.bValid then
    let (s, n_port_index) :=
      if net.inUse n.sw then
        let n_port := net.numberOf n.sw n.port
        match net.indexOf n.sw n_port with
        | some i =>
          (((s.setNeighbor n.sw i { s.neighbor n.sw i with bValid := false }).setType n.sw i .UNKOWN).report
            [.event_delete_switch_port_on n.sw n_port], i)
        | none => (s, (net.port_no n.sw).length)
      else (s, 0)
    ((s.setNeighbor sw port_index { s.neighbor sw port_index with bValid := false }).setType sw n_port_index
      .UNKOWN).report [.event_delete_switch_port_on sw (net.numberOf sw port_index)]
  else s

/-- The same, for a neighbor that may be null. -/
def of13_delete_line2 (s : Neighbors σ) (sw : σ) (port_index : ℕ) : Neighbors σ := s.of13_delete_line net sw port_index

/-- What `free_switch` does to the neighbors of a switch. -/
def free_switch (s : Neighbors σ) (sw : σ) : Neighbors σ :=
  (List.range MAX_PORTS).foldl (fun s port_idx =>
    if (s.neighbor sw port_idx).bValid then s.of13_delete_line2 net sw port_idx else s) s

end Neighbors

inductive NeighborEvent (σ : Type) where
  | mapping_new_neighbor (src_sw : σ) (rx_port : UINT4) (neigh_sw : σ) (tx_port : UINT4)
  | of13_delete_line (sw : σ) (port_no : UINT4)
  | free_switch (sw : σ)

namespace Neighbors

variable (net : SwitchPorts σ)

/-- Packets come from existing ports of switches in use to such ports, and port changes and releases from switches in
use. -/
def step (s : Neighbors σ) : NeighborEvent σ → Option (Neighbors σ)
  | .mapping_new_neighbor src_sw rx_port neigh_sw tx_port =>
    if net.inUse src_sw ∧ net.inUse neigh_sw ∧ (net.indexOf src_sw rx_port).isSome ∧
        (net.indexOf neigh_sw tx_port).isSome then
      some (s.mapping_new_neighbor net src_sw rx_port neigh_sw tx_port)
    else none
  | .of13_delete_line sw port_no =>
    if net.inUse sw then (net.indexOf sw port_no).map fun port_index => s.of13_delete_line net sw port_index else none
  | .free_switch sw => if net.inUse sw then some (s.free_switch net sw) else none

/-- No entry is valid, and no port is marked. -/
structure Fresh (s : Neighbors σ) : Prop where
  invalid : ∀ sw i, (s.neighbor sw i).bValid = false
  unmarked : ∀ sw i, s.type sw i ≠ .SW_CON

/-- Valid entries name each other, and the ports of type `SW_CON` are those with a valid entry. -/
structure Symmetric (s : Neighbors σ) : Prop where
  names : ∀ a p, (s.neighbor a p).bValid →
    (s.neighbor (s.neighbor a p).sw (s.neighbor a p).port).bValid ∧
      (s.neighbor (s.neighbor a p).sw (s.neighbor a p).port).sw = a ∧
      (s.neighbor (s.neighbor a p).sw (s.neighbor a p).port).port = p
  marked : ∀ a p, s.type a p = .SW_CON ↔ (s.neighbor a p).bValid

/-- The cabling that the valid entries and the types say. -/
def view (s : Neighbors σ) : Cabling σ where
  partner x := if (s.neighbor x.1 x.2).bValid then some ((s.neighbor x.1 x.2).sw, (s.neighbor x.1 x.2).port) else none
  marked x := s.type x.1 x.2 = .SW_CON

/-- An event that does not meet a wrong index or a port that is cabled to a third one: the receiving and the sending
port have no other neighbors; a port that goes down has the index of its neighbor; and each cabled port of a switch
that is released has the index of a neighbor that is not reset before its turn. -/
def KeepsSymmetry (s : Neighbors σ) : NeighborEvent σ → Prop
  | .mapping_new_neighbor src_sw rx_port neigh_sw tx_port =>
    ∀ p q, net.indexOf src_sw rx_port = some p → net.indexOf neigh_sw tx_port = some q →
      ∀ z w, z = (src_sw, p) ∨ z = (neigh_sw, q) → s.view.partner z = some w → w = (src_sw, p) ∨ w = (neigh_sw, q)
  | .of13_delete_line sw port_no =>
    ∀ p, net.indexOf sw port_no = some p → ∀ y, s.view.partner (sw, p) = some y → y.2 = p
  | .free_switch sw =>
    ∀ i, s.view.partner (sw, i) ≠ none → ∃ j b, s.view.partner (sw, j) = some (b, i) ∧ (b = sw → j ≤ i)

/-- Valid entries name ports of switches in use, by the first index of the port's number. -/
def Named (s : Neighbors σ) : Prop :=
  ∀ z w, s.view.partner z = some w → net.inUse w.1 ∧ net.indexOf w.1 (net.numberOf w.1 w.2) = some w.2

variable {net} {s s' : Neighbors σ} {sw src_sw neigh_sw : σ} {i p q : ℕ} {rx_port tx_port : UINT4}

omit [DecidableEq σ] in
theorem view_partner (s : Neighbors σ) (a : σ) (p : ℕ) : s.view.partner (a, p) =
    if (s.neighbor a p).bValid then some ((s.neighbor a p).sw, (s.neighbor a p).port) else none := rfl

omit [DecidableEq σ] in
theorem symmetric_iff : s.Symmetric ↔ s.view.Exact := by
  constructor
  · intro h
    refine ⟨?_, ?_⟩
    · rintro ⟨a, p⟩ ⟨b, q⟩ hab
      rw [view_partner] at hab
      split_ifs at hab with hv
      simp only [Option.some.injEq, Prod.mk.injEq] at hab
      obtain ⟨hb, hsw, hport⟩ := h.names a p hv
      rw [hab.1, hab.2] at hb hsw hport
      rw [view_partner, if_pos hb, hsw, hport]
    · rintro ⟨a, p⟩
      rw [view_partner, Bool.eq_iff_iff]
      simp only [view, decide_eq_true_eq, h.marked a p]
      split_ifs with hv
      · simp [hv]
      · simp [hv]
  · intro h
    refine ⟨?_, ?_⟩
    · intro a p hv
      have hab : s.view.partner (a, p) = some ((s.neighbor a p).sw, (s.neighbor a p).port) := by
        rw [view_partner, if_pos hv]
      have hba := h.paired _ _ hab
      rw [view_partner] at hba
      split_ifs at hba with hb
      simp only [Option.some.injEq, Prod.mk.injEq] at hba
      exact ⟨hb, hba.1, hba.2⟩
    · intro a p
      have hm := h.marked (a, p)
      rw [view_partner, Bool.eq_iff_iff] at hm
      simp only [view, decide_eq_true_eq] at hm
      rw [hm]
      split_ifs with hv
      · simp [hv]
      · simp [hv]

theorem view_setNeighbor (s : Neighbors σ) (sw : σ) (i : ℕ) (n : neighbor_t σ) :
    (s.setNeighbor sw i n).view = { s.view with
      partner := Function.update s.view.partner (sw, i) (if n.bValid then some (n.sw, n.port) else none) } := by
  rw [view, view, Cabling.mk.injEq]
  refine ⟨?_, rfl⟩
  funext ⟨a, p⟩
  simp only [setNeighbor, Function.update_apply, Prod.mk.injEq]
  by_cases ha : a = sw
  · subst ha
    by_cases hp : p = i
    · simp [hp]
    · simp [hp]
  · simp [ha]

theorem view_setType (s : Neighbors σ) (sw : σ) (i : ℕ) (t : port_type) :
    (s.setType sw i t).view = { s.view with
      marked := Function.update s.view.marked (sw, i) (t = .SW_CON) } := by
  rw [view, view, Cabling.mk.injEq]
  refine ⟨rfl, ?_⟩
  funext ⟨a, p⟩
  simp only [setType, Function.update_apply, Prod.mk.injEq]
  by_cases ha : a = sw
  · subst ha
    by_cases hp : p = i
    · simp [hp]
    · simp [hp]
  · simp [ha]

omit [DecidableEq σ] in
theorem view_report (s : Neighbors σ) (reports : List (PortReport σ)) : (s.report reports).view = s.view := rfl

theorem view_mapping (hp : net.indexOf src_sw rx_port = some p) (hq : net.indexOf neigh_sw tx_port = some q) :
    (s.mapping_new_neighbor net src_sw rx_port neigh_sw tx_port).view = s.view.connect (src_sw, p) (neigh_sw, q) := by
  have hview : (s.mapping_new_neighbor net src_sw rx_port neigh_sw tx_port).view =
      (((((s.setType neigh_sw q .SW_CON).setType src_sw p .SW_CON).setNeighbor src_sw p
        ⟨true, neigh_sw, q⟩).setNeighbor neigh_sw q ⟨true, src_sw, p⟩)).view := by
    rw [mapping_new_neighbor, hq]
    simp only [hp]
    split_ifs <;> rfl
  rw [hview, view_setNeighbor, view_setNeighbor, view_setType, view_setType]
  simp only [decide_true, if_true]
  rfl

/-- The entry at an index is reset as its valid entry says. -/
theorem view_delete (hn : s.Named net) (sw : σ) (i : ℕ) :
    (s.of13_delete_line net sw i).view = s.view.drop (sw, i) := by
  rw [of13_delete_line, Cabling.drop]
  cases hv : (s.neighbor sw i).bValid with
  | false =>
    have hnone : s.view.partner (sw, i) = none := by simp [view_partner, hv]
    rw [hnone]
    rfl
  | true =>
    have hsome : s.view.partner (sw, i) = some ((s.neighbor sw i).sw, (s.neighbor sw i).port) := by
      simp [view_partner, hv]
    obtain ⟨huse, hidx⟩ := hn _ _ hsome
    rw [hsome]
    simp only [huse, hidx, if_true, PartnerMaps.cut, hsome]
    rw [view_report, view_setType, view_setNeighbor, view_report, view_setType, view_setNeighbor]
    simp only [reduceCtorEq, decide_false, Bool.false_eq_true, if_false]

theorem Named.connect (hn : s.Named net) (hv : s'.view = s.view.connect (src_sw, p) (neigh_sw, q))
    (hsrc : net.inUse src_sw) (hneigh : net.inUse neigh_sw) (hp : net.indexOf src_sw rx_port = some p)
    (hq : net.indexOf neigh_sw tx_port = some q) : s'.Named net := by
  intro z w hz
  simp only [hv, Cabling.connect, PartnerMaps.link_apply] at hz
  split_ifs at hz
  · obtain rfl := Option.some.inj hz
    refine ⟨hsrc, ?_⟩
    rw [(SwitchPorts.lt_of_indexOf hp).2, hp]
  · obtain rfl := Option.some.inj hz
    refine ⟨hneigh, ?_⟩
    rw [(SwitchPorts.lt_of_indexOf hq).2, hq]
  · exact hn z w hz

theorem Named.drop (hn : s.Named net) (sw : σ) (i : ℕ) : (s.of13_delete_line net sw i).Named net := by
  intro z w hz
  rw [view_delete hn, Cabling.drop] at hz
  cases h : s.view.partner (sw, i) with
  | none =>
    rw [h] at hz
    exact hn z w hz
  | some y =>
    simp only [h, PartnerMaps.cut_apply h] at hz
    split_ifs at hz
    exact hn z w hz

theorem view_free_switch (hn : s.Named net) (sw : σ) :
    (s.free_switch net sw).Named net ∧ (s.free_switch net sw).view = s.view.release sw MAX_PORTS := by
  have hfold : ∀ k, ((List.range k).foldl (fun s port_idx =>
      if (s.neighbor sw port_idx).bValid then s.of13_delete_line2 net sw port_idx else s) s).Named net ∧
      ((List.range k).foldl (fun s port_idx =>
        if (s.neighbor sw port_idx).bValid then s.of13_delete_line2 net sw port_idx else s) s).view =
          s.view.release sw k := by
    intro k
    induction k with
    | zero => exact ⟨hn, rfl⟩
    | succ k ih =>
      rw [List.range_succ, List.foldl_append, Cabling.release_succ]
      obtain ⟨hn', hv'⟩ := ih
      generalize (List.range k).foldl _ s = t at hn' hv'
      rw [List.foldl_cons, List.foldl_nil, ← hv']
      split_ifs with hv
      · exact ⟨hn'.drop sw k, view_delete hn' sw k⟩
      · refine ⟨hn', ?_⟩
        have hnone : t.view.partner (sw, k) = none := by simp [view_partner, hv]
        rw [Cabling.drop, hnone]
  exact hfold MAX_PORTS

/-- From mutual entries an event leads to mutual ones exactly when it meets the condition. -/
theorem step_symmetric {e : NeighborEvent σ} (hn : s.Named net) (hs : s.view.Exact) (he : step net s e = some s') :
    s'.Named net ∧ (s.KeepsSymmetry net e ↔ s'.view.Exact) := by
  cases e with
  | mapping_new_neighbor src_sw rx_port neigh_sw tx_port =>
    obtain ⟨⟨hsrc, hneigh, hp, hq⟩, he⟩ := Option.ite_none_right_eq_some.mp he
    obtain rfl := Option.some.inj he
    obtain ⟨p, hp⟩ := Option.isSome_iff_exists.mp hp
    obtain ⟨q, hq⟩ := Option.isSome_iff_exists.mp hq
    have hv := view_mapping (s := s) hp hq
    refine ⟨hn.connect hv hsrc hneigh hp hq, ?_⟩
    rw [hv, Cabling.connect_exact hs]
    constructor
    · exact fun hk => hk p q hp hq
    · intro hk p' q' hp' hq'
      obtain rfl := Option.some.inj (hp.symm.trans hp')
      obtain rfl := Option.some.inj (hq.symm.trans hq')
      exact hk
  | of13_delete_line sw port_no =>
    obtain ⟨-, he⟩ := Option.ite_none_right_eq_some.mp he
    obtain ⟨p, hp, rfl⟩ := Option.map_eq_some_iff.mp he
    refine ⟨hn.drop sw p, ?_⟩
    rw [view_delete hn, Cabling.drop_exact hs]
    constructor
    · exact fun hk => hk p hp
    · intro hk p' hp'
      obtain rfl := Option.some.inj (hp.symm.trans hp')
      exact hk
  | free_switch sw =>
    obtain ⟨-, he⟩ := Option.ite_none_right_eq_some.mp he
    obtain rfl := Option.some.inj he
    obtain ⟨hn', hv⟩ := view_free_switch hn sw
    refine ⟨hn', ?_⟩
    rw [hv, Cabling.release_exact hs]
    · exact Iff.rfl
    · intro i hi
      obtain ⟨w, hw⟩ := Option.ne_none_iff_exists'.mp hi
      exact (SwitchPorts.lt_of_indexOf (hn w (sw, i) (hs.paired _ _ hw)).2).1

/-- The valid entries stay symmetric and the marked ports those with a valid entry as long as every event meets the
condition, and not after one that does not. -/
theorem neighbors_symmetric {start : Neighbors σ} (hstart : start.Fresh)
    (h : Run (step net) (KeepsSymmetry net) start s) :
    s.Symmetric ∧ ∀ e s', step net s e = some s' → (s.KeepsSymmetry net e ↔ s'.Symmetric) := by
  have hnone : ∀ z, start.view.partner z = none := by
    intro z
    simp [view, hstart.invalid]
  obtain ⟨hn, hs⟩ : s.Named net ∧ s.view.Exact := by
    refine h.invariant (P := fun s => s.Named net ∧ s.view.Exact) ?_ ⟨?_, ?_, ?_⟩
    · rintro t e u ⟨hn, hs⟩ hk he
      obtain ⟨hn', hiff⟩ := step_symmetric hn hs he
      exact ⟨hn', hiff.mp hk⟩
    · intro z w hz
      rw [hnone] at hz
      cases hz
    · intro z w hz
      rw [hnone] at hz
      cases hz
    · intro z
      rw [hnone]
      simp [view, hstart.unmarked]
  refine ⟨symmetric_iff.mpr hs, ?_⟩
  intro e s' he
  rw [symmetric_iff]
  exact (step_symmetric hn hs he).2

/-- Two switches with the ports 1 and 2. -/
def twoSwitches : SwitchPorts Bool := ⟨fun _ => [1, 2], fun _ => true, fun _ => by decide⟩

def uncabled : Neighbors Bool := ⟨fun _ _ => ⟨false, false, 0⟩, fun _ _ => .UNKOWN, []⟩

theorem uncabled_fresh : uncabled.Fresh := ⟨fun _ _ => rfl, fun _ _ h => nomatch h⟩

/-- The cable between the first ports is found, and goes. -/
theorem first_ports_symmetric : ∃ s, exec (step twoSwitches) uncabled
    [.mapping_new_neighbor true 1 false 1, .of13_delete_line false 1] = some s ∧ s.Symmetric := by
  have hmap : uncabled.KeepsSymmetry twoSwitches (.mapping_new_neighbor true 1 false 1) := by
    rintro p q - - z w - hz
    cases hz
  have hrun : Run (step twoSwitches) (KeepsSymmetry twoSwitches) uncabled _ :=
    .tail (a := .of13_delete_line false 1)
      (.tail (a := .mapping_new_neighbor true 1 false 1) .refl hmap rfl)
      (by
        intro p hp y hy
        obtain rfl : 0 = p := Option.some.inj hp
        obtain rfl : (true, 0) = y := Option.some.inj hy
        rfl) rfl
  exact ⟨_, rfl, (neighbors_symmetric uncabled_fresh hrun).1⟩

/-- A port that is cabled to one with another index stays marked when it goes down. -/
theorem wrong_port_reset : ¬ ∀ (net : SwitchPorts Bool) (start s : Neighbors Bool), start.Fresh →
    Reaches (step net) start s → s.Symmetric := by
  intro h
  have hexec : exec (step twoSwitches) uncabled
    [.mapping_new_neighbor true 2 false 1, .of13_delete_line false 1] = some _ := rfl
  have hmarked := (h twoSwitches uncabled _ uncabled_fresh (Reaches.of_exec hexec)).marked false 0
  exact absurd (hmarked.mp (by decide)) (by decide)

end Neighbors

end DCFabric
