import DCFabric.LbaasConnects
import DCFabric.ListUpdates
import DCFabric.LoopRuns
import DCFabric.RoundRobin

namespace DCFabric

open ListUpdates LoopRuns RoundRobin

namespace OpenstackLbaas

def find_openstack_lbaas_pool_by_pool_id (s : OpenstackLbaas) (pool_id : List UINT1) : Option openstack_lbaas_pools :=
  s.g_openstack_lbaas_pools_list.find? fun lb_pool => lb_pool.pools_id = pool_id

def setLast (s : OpenstackLbaas) (pool_id : List UINT1) (node : ℕ) : OpenstackLbaas :=
  { s with
    g_openstack_lbaas_pools_list :=
      (updateFirst (fun lb_pool => lb_pool.pools_id = pool_id)
        (fun lb_pool => { lb_pool with last_round_robin_member := some node })
        s.g_openstack_lbaas_pools_list).getD s.g_openstack_lbaas_pools_list }

/-- The node at the place, or the null pointer behind the last one. -/
def nodeAt (pool_member_list : List ℕ) (node : ℕ) : Option ℕ := if node < pool_member_list.length then some node else none

def inactiveAt (s : OpenstackLbaas) (pool_member_list : List ℕ) (node : ℕ) : Bool :=
  (s.members (pool_member_list.getD node 0)).status = .LBAAS_LISTENER_MEMBER_INACTIVE

/-- A pass of the loop, which is left with the node that has the turn. -/
def robinPass (s : OpenstackLbaas) (pool_member_list : List ℕ) (last : ℕ) (node_p : Option ℕ) : Pass (Option ℕ) Unit ℕ :=
  if node_p = some last then .leave last
  else
    let node := node_p.getD 0
    if s.inactiveAt pool_member_list node then .next () (nodeAt pool_member_list (node + 1)) else .leave node

/-- It is `none` while the loop is not left. -/
def get_lbass_member_by_method_round_robin (fuel : ℕ) (s : OpenstackLbaas) (pool_id : List UINT1) :
    Option (Option ℕ × OpenstackLbaas) :=
  match s.find_openstack_lbaas_pool_by_pool_id pool_id with
  | none => some (none, s)
  | some pool_p =>
    if pool_p.pool_member_list = [] then some (none, s)
    else
      let last := pool_p.last_round_robin_member.getD 0
      (run (s.robinPass pool_p.pool_member_list last) fuel (nodeAt pool_p.pool_member_list (last + 1))).map
        fun (_, node) =>
          let p := pool_p.pool_member_list.getD node 0
          (if (s.members p).status = .LBAAS_LISTENER_MEMBER_ACTIVE then some p else none, s.setLast pool_id node)

/-- What so many calls give, one after the other. -/
def robinTurns (fuel : ℕ) (pool_id : List UINT1) : ℕ → OpenstackLbaas → Option (List (Option ℕ) × OpenstackLbaas)
  | 0, s => some ([], s)
  | m + 1, s =>
    (s.get_lbass_member_by_method_round_robin fuel pool_id).bind fun (member_p, t) =>
      (t.robinTurns fuel pool_id m).map fun (turns, u) => (member_p :: turns, u)

variable {s t : OpenstackLbaas} {nodes : List ℕ} {last i j m c fuel : ℕ} {pool_id : List UINT1}
  {pool_p : openstack_lbaas_pools}

def takes (s : OpenstackLbaas) (nodes : List ℕ) (node : ℕ) : Bool := !s.inactiveAt nodes node

theorem robinPass_of_takes {node_p : Option ℕ} (hne : node_p ≠ some last)
    (htakes : s.takes nodes (node_p.getD 0) = true) : s.robinPass nodes last node_p = .leave (node_p.getD 0) := by
  have hactive : s.inactiveAt nodes (node_p.getD 0) = false := by simpa [takes] using htakes
  rw [robinPass, if_neg hne]
  simp [hactive]

theorem robinPass_of_not_takes {node_p : Option ℕ} (hne : node_p ≠ some last)
    (htakes : s.takes nodes (node_p.getD 0) = false) :
    s.robinPass nodes last node_p = .next () (nodeAt nodes (node_p.getD 0 + 1)) := by
  have hinactive : s.inactiveAt nodes (node_p.getD 0) = true := by simpa [takes] using htakes
  rw [robinPass, if_neg hne]
  simp [hinactive]

/-- The loop goes over nodes that take no turns, none of them the last one, to the first one that does. -/
theorem ends_over (hlast : ∀ k, i ≤ k → k < i + m → k ≠ last) (hm : i + m ≤ nodes.length)
    (h : (List.range' i m).find? (s.takes nodes) = some j ∨
      (List.range' i m).find? (s.takes nodes) = none ∧
        ∃ es, es.length ≤ c ∧ Ends (s.robinPass nodes last) (nodeAt nodes (i + m)) es j) :
    ∃ es, es.length ≤ c + m ∧ Ends (s.robinPass nodes last) (nodeAt nodes i) es j := by
  induction m generalizing i with
  | zero =>
    rcases h with h | ⟨-, h⟩
    · simp at h
    · exact h
  | succ m ih =>
    have hi : nodeAt nodes i = some i := if_pos (by omega)
    have hne : some i ≠ some last := fun heq => hlast i le_rfl (by omega) (Option.some.inj heq)
    rw [List.range'_succ] at h
    cases htakes : s.takes nodes i with
    | true =>
      rw [List.find?_cons_of_pos htakes] at h
      rcases h with h | ⟨h, -⟩
      · obtain rfl := Option.some.inj h
        refine ⟨[], Nat.zero_le _, .leave ?_⟩
        rw [hi]
        exact robinPass_of_takes hne htakes
      · cases h
    | false =>
      rw [List.find?_cons_of_neg (by simp [htakes])] at h
      have hrest : i + 1 + m = i + (m + 1) := by omega
      obtain ⟨es, hlen, hends⟩ := ih (i := i + 1) (fun k hk hlt => hlast k (by omega) (by omega)) (by omega)
        (by rwa [hrest])
      refine ⟨() :: es, ?_, .next (t := nodeAt nodes (i + 1)) ?_ hends⟩
      · rw [List.length_cons]
        omega
      · rw [hi]
        exact robinPass_of_not_takes hne htakes

/-- Behind the first one the loop ends with the last one at the latest. -/
theorem ends_to_last (hlast : last + 1 < nodes.length)
    (h : ((List.range' 1 (last + 1)).find? (s.takes nodes)).or (some (last + 1)) = some j) :
    ∃ es, es.length ≤ last ∧ Ends (s.robinPass nodes (last + 1)) (nodeAt nodes 1) es j := by
  have hend : 1 + last = last + 1 := Nat.add_comm 1 last
  have hturn : nodeAt nodes (last + 1) = some (last + 1) := if_pos hlast
  suffices hsuff : ∃ es, es.length ≤ 0 + last ∧ Ends (s.robinPass nodes (last + 1)) (nodeAt nodes 1) es j by
    rwa [Nat.zero_add] at hsuff
  apply ends_over (fun k _ hlt => by omega) (by omega)
  rw [hend, hturn]
  rw [List.range'_1_concat, List.find?_append, hend] at h
  cases hmid : (List.range' 1 last).find? (s.takes nodes) with
  | some k =>
    rw [hmid, Option.some_or, Option.some_or] at h
    exact .inl h
  | none =>
    refine .inr ⟨rfl, [], le_rfl, .leave ?_⟩
    rw [hmid, Option.none_or] at h
    have hj : j = last + 1 := by
      cases hself : s.takes nodes (last + 1) with
      | true => simpa [hself, eq_comm] using h
      | false => simpa [hself, eq_comm] using h
    rw [hj]
    exact if_pos rfl

theorem range_rotate (hlast : last < nodes.length) : (List.range nodes.length).rotate (last + 1) =
    List.range' (last + 1) (nodes.length - (last + 1)) ++ List.range' 0 (last + 1) := by
  rw [List.rotate_eq_drop_append_take (by rw [List.length_range]; omega), List.take_range, min_eq_left hlast,
    List.range_eq_range', List.range_eq_range', List.drop_range', Nat.mul_one, Nat.zero_add]

/-- The next one who takes turns has the turn, and where no one does it is the last one, if that is not the first. -/
theorem ends_of_turn (hlast : last < nodes.length)
    (h : (((List.range nodes.length).rotate (last + 1)).find? (s.takes nodes)).or
      (if last = 0 then none else some last) = some j) :
    ∃ es, es.length < nodes.length ∧ Ends (s.robinPass nodes last) (nodeAt nodes (last + 1)) es j := by
  have hend : nodeAt nodes (last + 1 + (nodes.length - (last + 1))) = none := if_neg (by omega)
  rw [range_rotate hlast, List.find?_append, Option.or_assoc] at h
  suffices hsuff : ∃ es, es.length ≤ last + (nodes.length - (last + 1)) ∧
      Ends (s.robinPass nodes last) (nodeAt nodes (last + 1)) es j by
    obtain ⟨es, hlen, hends⟩ := hsuff
    exact ⟨es, by omega, hends⟩
  apply ends_over (fun k hk _ => by omega) (by omega)
  cases hfront : (List.range' (last + 1) (nodes.length - (last + 1))).find? (s.takes nodes) with
  | some k =>
    rw [hfront, Option.some_or] at h
    exact .inl h
  | none =>
    refine .inr ⟨rfl, ?_⟩
    rw [hfront, Option.none_or, List.range'_succ] at h
    rw [hend]
    cases htakes : s.takes nodes 0 with
    | true =>
      rw [List.find?_cons_of_pos htakes, Option.some_or] at h
      obtain rfl := Option.some.inj h
      exact ⟨[], Nat.zero_le _, .leave (robinPass_of_takes (by simp) htakes)⟩
    | false =>
      rw [List.find?_cons_of_neg (by simp [htakes])] at h
      cases last with
      | zero => simp at h
      | succ last =>
        rw [if_neg (Nat.succ_ne_zero last)] at h
        obtain ⟨es, hlen, hends⟩ := ends_to_last hlast h
        refine ⟨() :: es, ?_, .next (robinPass_of_not_takes (by simp) htakes) hends⟩
        rw [List.length_cons]
        omega

/-- Where no one takes turns and the first one had the last, the loop goes round for ever. -/
theorem not_ends (hnone : ∀ i < nodes.length, s.takes nodes i = false) (hpos : 0 < nodes.length) {es : List Unit} :
    ¬ Ends (s.robinPass nodes 0) (nodeAt nodes 1) es j := by
  apply not_ends_of_next (I := fun node_p => ∃ i, node_p = nodeAt nodes (i + 1))
  · rintro _ ⟨i, rfl⟩
    refine ⟨(), nodeAt nodes ((nodeAt nodes (i + 1)).getD 0 + 1), ?_, _, rfl⟩
    have hother : nodeAt nodes (i + 1) ≠ some 0 := by
      unfold nodeAt
      split_ifs
      · simp
      · simp
    have hlt : (nodeAt nodes (i + 1)).getD 0 < nodes.length := by
      unfold nodeAt
      split_ifs with hi
      · exact hi
      · exact hpos
    exact robinPass_of_not_takes hother (hnone _ hlt)
  · exact ⟨0, rfl⟩

theorem mem_takes (i : ℕ) (hi : i < nodes.length) :
    s.takes nodes i = true ↔ (s.members nodes[i]).status ≠ .LBAAS_LISTENER_MEMBER_INACTIVE := by
  simp [takes, inactiveAt, List.getD_eq_getElem?_getD, hi]

theorem exists_takes : (∃ p ∈ nodes, (s.members p).status ≠ .LBAAS_LISTENER_MEMBER_INACTIVE) ↔
    ∃ i < nodes.length, s.takes nodes i = true := by
  constructor
  · rintro ⟨p, hp, hstatus⟩
    obtain ⟨i, hi, rfl⟩ := List.mem_iff_getElem.mp hp
    exact ⟨i, hi, (mem_takes i hi).mpr hstatus⟩
  · rintro ⟨i, hi, htakes⟩
    exact ⟨nodes[i], List.getElem_mem hi, (mem_takes i hi).mp htakes⟩

/-- What a call gives whose turn it is. -/
def answer (s : OpenstackLbaas) (nodes : List ℕ) (node : ℕ) : Option ℕ :=
  if (s.members (nodes.getD node 0)).status = .LBAAS_LISTENER_MEMBER_ACTIVE then some (nodes.getD node 0) else none

theorem robin_of_ends (hpool : s.find_openstack_lbaas_pool_by_pool_id pool_id = some pool_p)
    (hne : pool_p.pool_member_list ≠ []) {es : List Unit}
    (hends : Ends (s.robinPass pool_p.pool_member_list (pool_p.last_round_robin_member.getD 0))
      (nodeAt pool_p.pool_member_list (pool_p.last_round_robin_member.getD 0 + 1)) es j) (hfuel : es.length < fuel) :
    s.get_lbass_member_by_method_round_robin fuel pool_id =
      some (s.answer pool_p.pool_member_list j, s.setLast pool_id j) := by
  rw [get_lbass_member_by_method_round_robin, hpool]
  dsimp only
  rw [if_neg hne, hends.run_of_length hfuel]
  rfl

theorem last_lt (hpos : 0 < pool_p.pool_member_list.length)
    (hlast : ∀ node ∈ pool_p.last_round_robin_member, node < pool_p.pool_member_list.length) :
    pool_p.last_round_robin_member.getD 0 < pool_p.pool_member_list.length := by
  cases hnode : pool_p.last_round_robin_member with
  | none => exact hpos
  | some node => exact hlast node hnode

/-- A call returns unless all members are inactive and the first one had the last turn. -/
theorem round_robin_returns_iff (hpool : s.find_openstack_lbaas_pool_by_pool_id pool_id = some pool_p)
    (hlast : ∀ node ∈ pool_p.last_round_robin_member, node < pool_p.pool_member_list.length) :
    (∃ fuel, (s.get_lbass_member_by_method_round_robin fuel pool_id).isSome) ↔
      pool_p.pool_member_list = [] ∨
        (∃ p ∈ pool_p.pool_member_list, (s.members p).status ≠ .LBAAS_LISTENER_MEMBER_INACTIVE) ∨
        pool_p.last_round_robin_member.getD 0 ≠ 0 := by
  by_cases hne : pool_p.pool_member_list = []
  · refine iff_of_true ⟨0, ?_⟩ (.inl hne)
    rw [get_lbass_member_by_method_round_robin, hpool]
    dsimp only
    rw [if_pos hne]
    rfl
  have hpos : 0 < pool_p.pool_member_list.length := List.length_pos_iff.mpr hne
  have hlt := last_lt hpos hlast
  rw [or_iff_right hne, exists_takes]
  constructor
  · rintro ⟨fuel, hsome⟩
    by_contra hnot
    obtain ⟨hnone, hzero⟩ := not_or.mp hnot
    rw [not_not] at hzero
    have hall : ∀ i < pool_p.pool_member_list.length, s.takes pool_p.pool_member_list i = false := by
      intro i hi
      cases htakes : s.takes pool_p.pool_member_list i with
      | true => exact absurd ⟨i, hi, htakes⟩ hnone
      | false => rfl
    rw [get_lbass_member_by_method_round_robin, hpool] at hsome
    dsimp only at hsome
    rw [if_neg hne, Option.isSome_map, hzero] at hsome
    obtain ⟨⟨es, node⟩, hrun⟩ := Option.isSome_iff_exists.mp hsome
    exact not_ends hall hpos (Ends.of_run hrun)
  · intro h
    have hturn : ∃ j, (((List.range pool_p.pool_member_list.length).rotate
        (pool_p.last_round_robin_member.getD 0 + 1)).find? (s.takes pool_p.pool_member_list)).or
        (if pool_p.last_round_robin_member.getD 0 = 0 then none else some (pool_p.last_round_robin_member.getD 0)) =
        some j := by
      rcases h with ⟨i, hi, htakes⟩ | hfirst
      · have hmem : i ∈ (List.range pool_p.pool_member_list.length).rotate
            (pool_p.last_round_robin_member.getD 0 + 1) := List.mem_rotate.mpr (List.mem_range.mpr hi)
        obtain ⟨j, hj⟩ := Option.isSome_iff_exists.mp (List.find?_isSome.mpr ⟨i, hmem, htakes⟩)
        exact ⟨j, by rw [hj, Option.some_or]⟩
      · rw [if_neg hfirst]
        exact Option.isSome_iff_exists.mp (by simp)
    obtain ⟨j, hj⟩ := hturn
    obtain ⟨es, hlen, hends⟩ := ends_of_turn hlt hj
    exact ⟨_, by rw [robin_of_ends hpool hne hends hlen]; rfl⟩

/-- A pool with one member, which is not active. -/
def idleLbaas : OpenstackLbaas where
  members _ := ⟨1, .LBAAS_LISTENER_MEMBER_INACTIVE, 10, 0, []⟩
  g_openstack_lbaas_members_list := [0]
  g_openstack_lbaas_pools_list := [⟨[97], .LB_M_ROUNT_ROBIN, 100, 1, none, [0]⟩]
  g_openstack_lbaas_connect_id := 8

theorem idleLbaas_hangs : ¬ ∃ fuel, (idleLbaas.get_lbass_member_by_method_round_robin fuel [97]).isSome := by
  intro h
  have hidle : ¬ ∃ p ∈ [0], (idleLbaas.members p).status ≠ .LBAAS_LISTENER_MEMBER_INACTIVE := by decide
  have hpool : idleLbaas.find_openstack_lbaas_pool_by_pool_id [97] =
      some ⟨[97], .LB_M_ROUNT_ROBIN, 100, 1, none, [0]⟩ := rfl
  rcases (round_robin_returns_iff hpool (fun _ hnode => absurd hnode (by simp))).mp h with hnil | hsome | hfirst
  · cases hnil
  · exact hidle hsome
  · exact hfirst rfl

theorem find_setLast (hpool : s.find_openstack_lbaas_pool_by_pool_id pool_id = some pool_p) (node : ℕ) :
    (s.setLast pool_id node).find_openstack_lbaas_pool_by_pool_id pool_id =
      some { pool_p with last_round_robin_member := some node } := by
  obtain ⟨hid, l₁, l₂, hlist, hl₁⟩ := List.find?_eq_some_iff_append.mp hpool
  have hfirst : ∀ b ∈ l₁, decide (b.pools_id = pool_id) = false := fun b hb => by simpa using hl₁ b hb
  have hset : (s.setLast pool_id node).g_openstack_lbaas_pools_list =
      l₁ ++ { pool_p with last_round_robin_member := some node } :: l₂ := by
    rw [setLast, hlist]
    dsimp only
    rw [updateFirst_append_cons hfirst hid, Option.getD_some]
  rw [find_openstack_lbaas_pool_by_pool_id, hset, List.find?_append, List.find?_eq_none.mpr (by simpa using hfirst),
    Option.none_or, List.find?_cons_of_pos (by simpa using hid)]

theorem countP_range (p : ℕ → Bool) (m : ℕ) : (List.range m).countP p = Nat.count (fun j => p j = true) m := by
  induction m with
  | zero => rfl
  | succ m ih => rw [List.range_succ, List.countP_append, ih, Nat.count_succ, List.countP_singleton]

/-- The nodes that take turns, in the order of the list. -/
def turns (s : OpenstackLbaas) (nodes : List ℕ) : List ℕ := (List.range nodes.length).filter (s.takes nodes)

/-- The calls hand the turn round. -/
theorem robin_turns (hnodes : ∃ i < nodes.length, s.takes nodes i = true) (hfuel : nodes.length ≤ fuel) (m : ℕ)
    (hpool : t.find_openstack_lbaas_pool_by_pool_id pool_id = some pool_p) (hlist : pool_p.pool_member_list = nodes)
    (hmembers : t.members = s.members) (hlast : pool_p.last_round_robin_member.getD 0 < nodes.length)
    (hc : ((List.range (pool_p.last_round_robin_member.getD 0 + 1)).filter (s.takes nodes)).length ≡
      c [MOD (s.turns nodes).length]) :
    ∃ u, t.robinTurns fuel pool_id m = some ((List.range m).map fun j =>
      s.answer nodes (((s.turns nodes)[(c + j) % (s.turns nodes).length]?).getD 0), u) := by
  induction m generalizing t pool_p c with
  | zero => exact ⟨t, rfl⟩
  | succ m ih =>
    obtain ⟨i, hi, htakes⟩ := hnodes
    have hmem : i ∈ s.turns nodes := List.mem_filter.mpr ⟨List.mem_range.mpr hi, htakes⟩
    have hpos : 0 < (s.turns nodes).length := List.length_pos_of_mem hmem
    have hmod := Nat.mod_lt c hpos
    have hnext := find?_rotate (p := s.takes nodes)
      (show pool_p.last_round_robin_member.getD 0 + 1 ≤ (List.range nodes.length).length by simpa using hlast)
    rw [List.take_range, min_eq_left (Nat.succ_le_of_lt hlast)] at hnext
    change _ = (s.turns nodes)[_ % (s.turns nodes).length]? at hnext
    rw [hc, List.getElem?_eq_getElem hmod] at hnext
    have hpick : (s.turns nodes)[c % (s.turns nodes).length]? = some (s.turns nodes)[c % (s.turns nodes).length] :=
      List.getElem?_eq_getElem hmod
    generalize (s.turns nodes)[c % (s.turns nodes).length] = j at hnext hpick
    have hj : j < nodes.length := List.mem_range.mp (List.mem_filter.mp (List.mem_of_getElem? hpick)).1
    have hsame : t.robinPass nodes = s.robinPass nodes := by
      unfold robinPass inactiveAt
      rw [hmembers]
    obtain ⟨es, hlen, hends⟩ := ends_of_turn hlast (by rw [hnext, Option.some_or])
    rw [← hsame] at hends
    subst hlist
    have hne : pool_p.pool_member_list ≠ [] := List.ne_nil_of_length_pos (Nat.zero_lt_of_lt hlast)
    have hcall := robin_of_ends hpool hne hends (hlen.trans_le hfuel)
    have hanswer : t.answer pool_p.pool_member_list j = s.answer pool_p.pool_member_list j := by
      unfold answer
      rw [hmembers]
    obtain ⟨u, hu⟩ := ih (c := c + 1) (find_setLast hpool j) rfl hmembers hj (by
        rw [Option.getD_some, length_filter_range hpick]
        exact (Nat.mod_modEq c _).add_right 1)
    refine ⟨u, ?_⟩
    rw [robinTurns, hcall, Option.bind_some]
    dsimp only
    rw [hu, Option.map_some, List.range_succ_eq_map, List.map_cons, List.map_map, Nat.add_zero c, hpick, hanswer]
    congr 3
    apply List.map_congr_left
    intro j _
    rw [Function.comp_apply, Nat.succ_eq_add_one, Nat.add_assoc, Nat.add_comm 1 j]

theorem length_turns : (s.turns nodes).length =
    (nodes.filter fun p => (s.members p).status ≠ .LBAAS_LISTENER_MEMBER_INACTIVE).length := by
  have hnodes : nodes = (List.range nodes.length).map fun i => nodes.getD i 0 := by
    apply List.ext_getElem (by simp)
    intro i hi _
    simp [List.getD_eq_getElem?_getD, hi]
  conv_rhs => rw [hnodes, List.filter_map, List.length_map]
  rw [turns]
  congr 1
  apply List.filter_congr
  intro i _
  simp [takes, inactiveAt]

theorem answer_eq_some {p : ℕ} (hi : i < nodes.length) :
    s.answer nodes i = some p ↔ nodes[i] = p ∧ (s.members p).status = .LBAAS_LISTENER_MEMBER_ACTIVE := by
  rw [answer, List.getD_eq_getElem?_getD, List.getElem?_eq_getElem hi, Option.getD_some]
  split_ifs with hactive
  · rw [Option.some.injEq]
    constructor
    · rintro rfl
      exact ⟨rfl, hactive⟩
    · exact And.left
  · simp only [false_iff, not_and]
    rintro rfl
    exact hactive

theorem exists_turn (hj : j < (s.turns nodes).length) :
    ∃ i < nodes.length, (s.turns nodes)[j]? = some i ∧ s.takes nodes i = true := by
  obtain ⟨hi, htakes⟩ := List.mem_filter.mp (List.getElem_mem hj)
  exact ⟨_, List.mem_range.mp hi, List.getElem?_eq_getElem hj, htakes⟩

theorem exists_turn_iff (hnodup : nodes.Nodup) {p : ℕ} (hp : p ∈ nodes)
    (hactive : (s.members p).status = .LBAAS_LISTENER_MEMBER_ACTIVE) :
    ∃ r < (s.turns nodes).length, ∀ j < (s.turns nodes).length,
      s.answer nodes ((s.turns nodes)[j]?.getD 0) = some p ↔ j = r := by
  obtain ⟨i, hi, rfl⟩ := List.mem_iff_getElem.mp hp
  have hturns : i ∈ s.turns nodes := by
    apply List.mem_filter.mpr
    refine ⟨List.mem_range.mpr hi, (mem_takes i hi).mpr ?_⟩
    rw [hactive]
    simp
  obtain ⟨r, hr, hri⟩ := List.mem_iff_getElem.mp hturns
  refine ⟨r, hr, ?_⟩
  intro j hj
  obtain ⟨i', hi', hget, -⟩ := exists_turn hj
  rw [hget, Option.getD_some, answer_eq_some hi']
  constructor
  · rintro ⟨hsame, -⟩
    obtain rfl := hnodup.getElem_inj_iff.mp hsame
    apply (List.getElem?_inj hj (List.nodup_range.filter _)).mp
    rw [hget, List.getElem?_eq_getElem hr, hri]
  · rintro rfl
    rw [List.getElem?_eq_getElem hr, hri] at hget
    obtain rfl := Option.some.inj hget
    exact ⟨rfl, hactive⟩

/-- In `k` rounds of calls each active member has the turn `k` times, and no other is ever given. -/
theorem round_robin_fair (hpool : s.find_openstack_lbaas_pool_by_pool_id pool_id = some pool_p)
    (hnodup : pool_p.pool_member_list.Nodup)
    (hlast : ∀ node ∈ pool_p.last_round_robin_member, node < pool_p.pool_member_list.length)
    (hsome : ∃ p ∈ pool_p.pool_member_list, (s.members p).status ≠ .LBAAS_LISTENER_MEMBER_INACTIVE)
    (hfuel : pool_p.pool_member_list.length ≤ fuel) (k : ℕ) :
    ∃ turns t, s.robinTurns fuel pool_id (k * (pool_p.pool_member_list.filter fun p =>
        (s.members p).status ≠ .LBAAS_LISTENER_MEMBER_INACTIVE).length) = some (turns, t) ∧
      ∀ p, turns.count (some p) =
        if p ∈ pool_p.pool_member_list ∧ (s.members p).status = .LBAAS_LISTENER_MEMBER_ACTIVE then k else 0 := by
  have htakes := exists_takes.mp hsome
  obtain ⟨i, hi, hitakes⟩ := exists_takes.mp hsome
  have hlt := last_lt (Nat.zero_lt_of_lt hi) hlast
  generalize hnodes : pool_p.pool_member_list = nodes at *
  have hpos : 0 < (s.turns nodes).length :=
    List.length_pos_of_mem (List.mem_filter.mpr ⟨List.mem_range.mpr hi, hitakes⟩)
  rw [← length_turns]
  obtain ⟨u, hu⟩ := robin_turns htakes hfuel (k * (s.turns nodes).length) hpool hnodes rfl hlt (Nat.ModEq.refl _)
  generalize ((List.range (pool_p.last_round_robin_member.getD 0 + 1)).filter (s.takes nodes)).length = c at hu
  refine ⟨_, u, hu, ?_⟩
  intro p
  rw [List.count, List.countP_map, countP_range]
  by_cases hp : p ∈ nodes ∧ (s.members p).status = .LBAAS_LISTENER_MEMBER_ACTIVE
  · rw [if_pos hp]
    obtain ⟨r, hr, hturn⟩ := exists_turn_iff hnodup hp.1 hp.2
    have heq : (fun j => (((fun o => o == some p) ∘ fun j => s.answer nodes
        (((s.turns nodes)[(c + j) % (s.turns nodes).length]?).getD 0)) j) = true) =
        fun j => (c + j) % (s.turns nodes).length = r := by
      funext j
      rw [eq_iff_iff, Function.comp_apply, beq_iff_eq]
      exact hturn _ (Nat.mod_lt _ hpos)
    simp_rw [heq]
    exact count_turns hr k
  · rw [if_neg hp, Nat.count_eq_card_filter_range, Finset.card_eq_zero, Finset.filter_eq_empty_iff]
    intro j _ hans
    obtain ⟨i, hi, hget, -⟩ := exists_turn (Nat.mod_lt (c + j) hpos)
    rw [Function.comp_apply, hget, Option.getD_some, beq_iff_eq, answer_eq_some hi] at hans
    obtain ⟨rfl, hactive⟩ := hans
    exact hp ⟨List.getElem_mem hi, hactive⟩

/-- One of the three is active, one is not, and one is not known to be. The last one had the turn. -/
def turningLbaas : OpenstackLbaas where
  members p :=
    ⟨1, if p = 5 then .LBAAS_LISTENER_MEMBER_ACTIVE
      else if p = 6 then .LBAAS_LISTENER_MEMBER_INACTIVE else .LBAAS_LISTENER_MEMBER_INITIALIZE, 10, 0, []⟩
  g_openstack_lbaas_members_list := [5, 6, 7]
  g_openstack_lbaas_pools_list := [⟨[97], .LB_M_ROUNT_ROBIN, 100, 3, some 2, [5, 6, 7]⟩]
  g_openstack_lbaas_connect_id := 8

theorem turningLbaas_fair : ∃ turns t, turningLbaas.robinTurns 3 [97] 10 = some (turns, t) ∧
    turns.count (some 5) = 5 ∧ turns.count (some 7) = 0 := by
  have hsome : ∃ p ∈ [5, 6, 7], (turningLbaas.members p).status ≠ .LBAAS_LISTENER_MEMBER_INACTIVE := by decide
  have hpool : turningLbaas.find_openstack_lbaas_pool_by_pool_id [97] =
      some ⟨[97], .LB_M_ROUNT_ROBIN, 100, 3, some 2, [5, 6, 7]⟩ := rfl
  obtain ⟨turns, t, hturns, hcount⟩ := round_robin_fair hpool (by decide) (by decide) hsome le_rfl 5
  exact ⟨turns, t, hturns, (hcount 5).trans (if_pos (by decide)), (hcount 7).trans (if_neg (by decide))⟩

end OpenstackLbaas

end DCFabric
