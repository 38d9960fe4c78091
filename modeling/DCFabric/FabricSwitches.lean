import DCFabric.TopoEvents

namespace DCFabric

open TransitionRuns

inductive SwitchConnState where
  | INITSTATE
  | NEWACCEPT
  | CONNECTED
  | WAITCLOSE
deriving DecidableEq

/-- The tables of message handlers: the one before the hello, and those of the two versions. -/
inductive SwitchMsgHandler where
  | of_message_handler
  | of10_message_handler
  | of13_message_handler
deriving DecidableEq

structure FabricSwitch where
  sw_ip : UINT4
  dpid : UINT8
  conn_state : SwitchConnState
  vlan_tag : UINT4
  msg_handler : SwitchMsgHandler

structure FabricSwNode where
  sw : ℕ
  tag : UINT4
deriving DecidableEq

def FABRIC_START_TAG : UINT4 := 4

/-- The switches by their index in `g_server.switches`, the two lists of changes and the three lists of nodes; and the
switches that reported themselves over their present connection. -/
structure FabricSwitches where
  switches : ℕ → FabricSwitch
  cur_switch : UINT4
  g_fabric_tag : UINT4
  g_event_add_switch_list : List ℕ
  g_event_delete_switch_list : List ℕ
  g_fabric_sw_list : List FabricSwNode
  g_fabric_sw_list_total : List FabricSwNode
  g_fabric_sw_list_old_tag : List FabricSwNode
  reported : List ℕ

inductive FabricSwitchStep where
  | new_switch (sw_ip : UINT4)
  | of_msg_hello (sw : ℕ) (version : UINT1)
  | features_reply (sw : ℕ) (dpid : UINT8)
  | barrier_reply (sw : ℕ)
  | wait_close (sw : ℕ)
  | free_switch (sw : ℕ)
  | call_delete_switch_fun
  | call_add_switch_fun

/-- The node of the first occurrence, and the list without it. -/
def remove_fabric_sw_list_by_sw (list : List FabricSwNode) (sw : ℕ) : Option FabricSwNode × List FabricSwNode :=
  (list.find? (·.sw = sw), list.eraseP (·.sw = sw))

def pop_fabric_sw_list (list : List FabricSwNode) : Option FabricSwNode × List FabricSwNode :=
  (list.head?, list.tail)

namespace FabricSwitches

def OFP10_VERSION : UINT1 := 1
def OFP13_VERSION : UINT1 := 4

def start (vlan_start_tag : UINT4) : FabricSwitches where
  switches := fun _ => ⟨0, 0, .INITSTATE, 0, .of_message_handler⟩
  cur_switch := 0
  g_fabric_tag := if 0 = vlan_start_tag then FABRIC_START_TAG else vlan_start_tag
  g_event_add_switch_list := []
  g_event_delete_switch_list := []
  g_fabric_sw_list := []
  g_fabric_sw_list_total := []
  g_fabric_sw_list_old_tag := []
  reported := []

-- `g_server.max_switch`, and `check_dpid_avaliable` with the configured dpids
variable (max_switch : UINT4) (check_dpid_avaliable : UINT8 → Bool) (s : FabricSwitches)

def set (sw : ℕ) (fields : FabricSwitch) : FabricSwitches :=
  { s with switches := Function.update s.switches sw fields }

/-- `msg_process` goes on to the handler of a message. -/
def takesMessages (sw : ℕ) : Bool :=
  (s.switches sw).conn_state = .CONNECTED ∨ (s.switches sw).conn_state = .NEWACCEPT

/-- Without a free entry the controller exits. -/
def new_switch (sw_ip : UINT4) : Option FabricSwitches :=
  if s.cur_switch < max_switch then
    ((List.range max_switch.toNat).find? fun idx => (s.switches idx).conn_state = .INITSTATE).map fun idx =>
      { s.set idx { s.switches idx with
          sw_ip := sw_ip
          msg_handler := .of_message_handler
          conn_state := .NEWACCEPT
          vlan_tag := s.g_fabric_tag } with
        g_fabric_tag := s.g_fabric_tag + 1
        cur_switch := s.cur_switch + 1
        reported := s.reported.filter (· ≠ idx) }
  else none

def of_msg_hello (sw : ℕ) (version : UINT1) : FabricSwitches :=
  if version = OFP10_VERSION then
    s.set sw { s.switches sw with msg_handler := .of10_message_handler, conn_state := .CONNECTED }
  else if version = OFP13_VERSION then
    s.set sw { s.switches sw with msg_handler := .of13_message_handler, conn_state := .CONNECTED }
  else s

def event_add_switch_on (sw : ℕ) : FabricSwitches :=
  { s with g_event_add_switch_list := s.g_event_add_switch_list ++ [sw], reported := sw :: s.reported }

def event_delete_switch_on (sw : ℕ) : FabricSwitches :=
  { s with g_event_delete_switch_list := s.g_event_delete_switch_list ++ [sw] }

def free_switch (sw : ℕ) : FabricSwitches :=
  if 0 = (s.switches sw).sw_ip ∨ (s.switches sw).conn_state = .INITSTATE then s
  else
    { (s.set sw { s.switches sw with sw_ip := 0, msg_handler := .of_message_handler }).event_delete_switch_on sw with
      cur_switch := s.cur_switch - 1 }

def of131_fabric_impl_add_sw (sw : ℕ) : FabricSwitches :=
  if (s.switches sw).conn_state = .CONNECTED then
    if check_dpid_avaliable (s.switches sw).dpid then
      let (popped, old_tag) := pop_fabric_sw_list s.g_fabric_sw_list_old_tag
      let node : FabricSwNode :=
        match popped with
        | none => ⟨sw, (s.switches sw).vlan_tag⟩
        | some node => { node with sw := sw, tag := (s.switches sw).vlan_tag }
      { s with
        g_fabric_sw_list_old_tag := old_tag
        g_fabric_sw_list := ⟨node.sw, node.tag⟩ :: s.g_fabric_sw_list
        g_fabric_sw_list_total := node :: s.g_fabric_sw_list_total }
    else
      { s with g_fabric_sw_list_total := ⟨sw, (s.switches sw).vlan_tag⟩ :: s.g_fabric_sw_list_total }
  else s

def of131_fabric_impl_add_sws (swList : List ℕ) : FabricSwitches :=
  swList.foldl (of131_fabric_impl_add_sw check_dpid_avaliable) s

def of131_fabric_impl_remove_sw (sw : ℕ) : FabricSwitches :=
  let (_, total) := remove_fabric_sw_list_by_sw s.g_fabric_sw_list_total sw
  let (node, list) := remove_fabric_sw_list_by_sw s.g_fabric_sw_list sw
  { s with
    g_fabric_sw_list_total := total
    g_fabric_sw_list := list
    g_fabric_sw_list_old_tag := node.toList ++ s.g_fabric_sw_list_old_tag }

def of131_fabric_impl_remove_sws (swList : List ℕ) : FabricSwitches :=
  swList.foldl of131_fabric_impl_remove_sw s

def of131_fabric_impl_remove_sws_state (swList : List ℕ) : FabricSwitches :=
  swList.foldl (fun s sw => s.set sw { s.switches sw with conn_state := .INITSTATE }) s

def call_delete_switch_fun : FabricSwitches :=
  { (s.of131_fabric_impl_remove_sws s.g_event_delete_switch_list).of131_fabric_impl_remove_sws_state
      s.g_event_delete_switch_list with
    g_event_delete_switch_list := [] }

def call_add_switch_fun : FabricSwitches :=
  { s.of131_fabric_impl_add_sws check_dpid_avaliable s.g_event_add_switch_list with g_event_add_switch_list := [] }

/-- A message is handled with the table of the switch; a switch that still waits for the hello takes no other one. -/
def step : FabricSwitchStep → Option FabricSwitches
  | .new_switch sw_ip => s.new_switch max_switch sw_ip
  | .of_msg_hello sw version =>
    if s.takesMessages sw ∧ (s.switches sw).msg_handler = .of_message_handler then some (s.of_msg_hello sw version)
    else none
  | .features_reply sw dpid =>
    if s.takesMessages sw ∧ (s.switches sw).msg_handler ≠ .of_message_handler then
      some (s.set sw { s.switches sw with dpid := dpid })
    else none
  | .barrier_reply sw =>
    if s.takesMessages sw ∧ (s.switches sw).msg_handler = .of13_message_handler then some (s.event_add_switch_on sw)
    else none
  | .wait_close sw =>
    if s.takesMessages sw then some (s.set sw { s.switches sw with conn_state := .WAITCLOSE }) else none
  | .free_switch sw => some (s.free_switch sw)
  | .call_delete_switch_fun => some s.call_delete_switch_fun
  | .call_add_switch_fun => some (s.call_add_switch_fun check_dpid_avaliable)

def listed : List ℕ := s.g_fabric_sw_list_total.map (·.sw)

def available : List ℕ := s.g_fabric_sw_list.map (·.sw)

/-- The lists after a pass. -/
structure Listed : Prop where
  total : ∀ sw ∈ s.reported, (s.switches sw).conn_state = .CONNECTED → s.listed.count sw = 1
  avaliable : ∀ sw ∈ s.reported, (s.switches sw).conn_state = .CONNECTED →
    check_dpid_avaliable (s.switches sw).dpid → s.available.count sw = 1
  gone : ∀ sw, (s.switches sw).conn_state = .INITSTATE → sw ∉ s.listed ∧ sw ∉ s.available
  tags : (s.g_fabric_sw_list_total.map (·.tag)).Nodup ∧ (s.g_fabric_sw_list.map (·.tag)).Nodup
  tag_le : ∀ node ∈ s.g_fabric_sw_list_total ++ s.g_fabric_sw_list, node.tag.toNat ≤ 4095

/-- A barrier reply comes from a switch that neither is in the list nor waits for the pass, a connection gets a tag of
twelve bits, the availability of a listed switch does not change, and the lists of changes have room. -/
def KeepsListed : FabricSwitchStep → Prop
  | .new_switch _ => s.g_fabric_tag.toNat ≤ 4095
  | .features_reply sw dpid =>
    sw ∈ s.listed → check_dpid_avaliable dpid = check_dpid_avaliable (s.switches sw).dpid
  | .barrier_reply sw =>
    sw ∉ s.listed ∧ sw ∉ s.g_event_add_switch_list ∧
      s.g_event_add_switch_list.length < EVENT_MAX_CHANGED_SWITCH_NUM
  | .free_switch _ => s.g_event_delete_switch_list.length < EVENT_MAX_CHANGED_SWITCH_NUM
  | _ => True

/-- Nodes and changes name each switch once, listed switches are connected under the tag of their node, and the tags of
connected switches are smaller than the next one. -/
structure Inv : Prop where
  listed_nodup : s.listed.Nodup
  available_nodup : s.available.Nodup
  available_iff : ∀ sw, sw ∈ s.available ↔ sw ∈ s.listed ∧ check_dpid_avaliable (s.switches sw).dpid = true
  queued_nodup : s.g_event_add_switch_list.Nodup
  queued : ∀ sw ∈ s.g_event_add_switch_list, sw ∉ s.listed
  active : ∀ sw ∈ s.listed, (s.switches sw).conn_state ≠ .INITSTATE
  node_tag : ∀ node ∈ s.g_fabric_sw_list_total ++ s.g_fabric_sw_list, node.tag = (s.switches node.sw).vlan_tag
  tag_lt : ∀ sw, (s.switches sw).conn_state ≠ .INITSTATE →
    (s.switches sw).vlan_tag.toNat ≤ 4095 ∧ (s.switches sw).vlan_tag < s.g_fabric_tag
  tag_inj : ∀ sw sw', (s.switches sw).conn_state ≠ .INITSTATE → (s.switches sw').conn_state ≠ .INITSTATE →
    (s.switches sw).vlan_tag = (s.switches sw').vlan_tag → sw = sw'
  fresh : ∀ sw, (s.switches sw).conn_state = .NEWACCEPT →
    (s.switches sw).msg_handler = .of_message_handler ∧ sw ∉ s.reported
  reported : ∀ sw ∈ s.reported, (s.switches sw).conn_state = .CONNECTED →
    sw ∈ s.listed ∨ sw ∈ s.g_event_add_switch_list

variable {s}

theorem start_inv (vlan_start_tag : UINT4) : (start vlan_start_tag).Inv check_dpid_avaliable where
  listed_nodup := .nil
  available_nodup := .nil
  available_iff := by simp [start, listed, available]
  queued_nodup := .nil
  queued := by simp [start]
  active := by simp [start, listed]
  node_tag := by simp [start]
  tag_lt := by simp [start]
  tag_inj := by simp [start]
  fresh := by simp [start]
  reported := by simp [start]

def node (s : FabricSwitches) (sw : ℕ) : FabricSwNode := ⟨sw, (s.switches sw).vlan_tag⟩

def connected (s : FabricSwitches) (sw : ℕ) : Bool := (s.switches sw).conn_state = .CONNECTED

theorem add_sw_eq (sw : ℕ) : ∃ old_tag, s.of131_fabric_impl_add_sw check_dpid_avaliable sw =
    { s with
      g_fabric_sw_list_old_tag := old_tag
      g_fabric_sw_list :=
        ([sw].filter fun sw => s.connected sw && check_dpid_avaliable (s.switches sw).dpid).map s.node ++
          s.g_fabric_sw_list
      g_fabric_sw_list_total := ([sw].filter s.connected).map s.node ++ s.g_fabric_sw_list_total } := by
  unfold of131_fabric_impl_add_sw
  split_ifs with hc ha
  · refine ⟨s.g_fabric_sw_list_old_tag.tail, ?_⟩
    have hnode : (match s.g_fabric_sw_list_old_tag.head? with
        | none => (⟨sw, (s.switches sw).vlan_tag⟩ : FabricSwNode)
        | some node => { node with sw := sw, tag := (s.switches sw).vlan_tag }) = s.node sw := by
      cases s.g_fabric_sw_list_old_tag.head? <;> rfl
    simp only [pop_fabric_sw_list, hnode]
    simp [connected, node, hc, ha]
  · exact ⟨s.g_fabric_sw_list_old_tag, by simp [connected, node, hc, ha]⟩
  · exact ⟨s.g_fabric_sw_list_old_tag, by simp [connected, hc]⟩

/-- The nodes of the connected switches come in front. -/
theorem add_sws_eq (swList : List ℕ) : ∃ old_tag, s.of131_fabric_impl_add_sws check_dpid_avaliable swList =
    { s with
      g_fabric_sw_list_old_tag := old_tag
      g_fabric_sw_list := (swList.reverse.filter fun sw =>
        s.connected sw && check_dpid_avaliable (s.switches sw).dpid).map s.node ++ s.g_fabric_sw_list
      g_fabric_sw_list_total := (swList.reverse.filter s.connected).map s.node ++ s.g_fabric_sw_list_total } := by
  induction swList generalizing s with
  | nil => exact ⟨s.g_fabric_sw_list_old_tag, rfl⟩
  | cons sw swList ih =>
    obtain ⟨tag, htag⟩ := add_sw_eq check_dpid_avaliable (s := s) sw
    obtain ⟨old_tag, hold⟩ := ih (s := s.of131_fabric_impl_add_sw check_dpid_avaliable sw)
    refine ⟨old_tag, ?_⟩
    rw [of131_fabric_impl_add_sws, List.foldl_cons]
    refine hold.trans ?_
    rw [htag]
    simp only [List.reverse_cons, List.filter_append, List.map_append, List.append_assoc]
    rfl

theorem eraseP_sw {list : List FabricSwNode} (hnodup : (list.map (·.sw)).Nodup) (sw : ℕ) :
    list.eraseP (·.sw = sw) = list.filter (·.sw ≠ sw) := by
  induction list with
  | nil => rfl
  | cons node list ih =>
    obtain ⟨hnot, hnodup⟩ := List.nodup_cons.mp hnodup
    by_cases hsw : node.sw = sw
    · have hrest : list.filter (·.sw ≠ sw) = list := by
        refine List.filter_eq_self.mpr fun other hother => ?_
        have hne : other.sw ≠ sw := by
          rintro rfl
          exact hnot (List.mem_map.mpr ⟨other, hother, hsw.symm⟩)
        simpa using hne
      rw [List.eraseP_cons_of_pos (by simpa using hsw), List.filter_cons_of_neg (by simpa using hsw), hrest]
    · rw [List.eraseP_cons_of_neg (by simpa using hsw), List.filter_cons_of_pos (by simpa using hsw), ih hnodup]

theorem filter_sw_nodup {list : List FabricSwNode} (hnodup : (list.map (·.sw)).Nodup) (p : FabricSwNode → Bool) :
    ((list.filter p).map (·.sw)).Nodup :=
  hnodup.sublist (List.filter_sublist.map _)

theorem remove_sws_eq (hlisted : s.listed.Nodup) (havailable : s.available.Nodup) (swList : List ℕ) :
    ∃ old_tag, s.of131_fabric_impl_remove_sws swList =
      { s with
        g_fabric_sw_list_old_tag := old_tag
        g_fabric_sw_list := s.g_fabric_sw_list.filter (·.sw ∉ swList)
        g_fabric_sw_list_total := s.g_fabric_sw_list_total.filter (·.sw ∉ swList) } := by
  induction swList generalizing s with
  | nil => exact ⟨s.g_fabric_sw_list_old_tag, by simp [of131_fabric_impl_remove_sws]⟩
  | cons sw swList ih =>
    have hone : s.of131_fabric_impl_remove_sw sw = { s with
        g_fabric_sw_list_old_tag := (s.g_fabric_sw_list.find? (·.sw = sw)).toList ++ s.g_fabric_sw_list_old_tag
        g_fabric_sw_list := s.g_fabric_sw_list.filter (·.sw ≠ sw)
        g_fabric_sw_list_total := s.g_fabric_sw_list_total.filter (·.sw ≠ sw) } := by
      rw [← eraseP_sw hlisted, ← eraseP_sw havailable]
      rfl
    obtain ⟨old_tag, hold⟩ := ih (s := s.of131_fabric_impl_remove_sw sw)
      (by rw [hone]; exact filter_sw_nodup hlisted _) (by rw [hone]; exact filter_sw_nodup havailable _)
    refine ⟨old_tag, ?_⟩
    rw [of131_fabric_impl_remove_sws, List.foldl_cons]
    refine hold.trans ?_
    rw [hone]
    simp only [List.filter_filter, List.mem_cons, not_or, Bool.decide_and, Bool.and_comm]

theorem remove_sws_state_eq (swList : List ℕ) : s.of131_fabric_impl_remove_sws_state swList = { s with
    switches := fun sw =>
      if sw ∈ swList then { s.switches sw with conn_state := .INITSTATE } else s.switches sw } := by
  induction swList generalizing s with
  | nil => simp [of131_fabric_impl_remove_sws_state]
  | cons sw swList ih =>
    rw [of131_fabric_impl_remove_sws_state, List.foldl_cons]
    refine ih.trans ?_
    congr 1
    funext i
    by_cases hi : i = sw
    · subst hi
      simp [set]
    · simp [set, hi]

variable {check_dpid_avaliable}

theorem Inv.listed_of_node (hs : s.Inv check_dpid_avaliable) {node : FabricSwNode}
    (hnode : node ∈ s.g_fabric_sw_list_total ++ s.g_fabric_sw_list) : node.sw ∈ s.listed := by
  rcases List.mem_append.mp hnode with hnode | hnode
  · exact List.mem_map.mpr ⟨node, hnode, rfl⟩
  · exact ((hs.available_iff node.sw).mp (List.mem_map.mpr ⟨node, hnode, rfl⟩)).1

/-- A connected switch may change what the lists do not depend on. -/
theorem Inv.set (hs : s.Inv check_dpid_avaliable) {sw : ℕ} {fields : FabricSwitch}
    (hactive : (s.switches sw).conn_state ≠ .INITSTATE) (hfields : fields.conn_state ≠ .INITSTATE)
    (htag : fields.vlan_tag = (s.switches sw).vlan_tag)
    (hdpid : sw ∈ s.listed → check_dpid_avaliable fields.dpid = check_dpid_avaliable (s.switches sw).dpid)
    (hfresh : fields.conn_state = .NEWACCEPT →
      fields.msg_handler = .of_message_handler ∧ (s.switches sw).conn_state = .NEWACCEPT)
    (hconn : fields.conn_state = .CONNECTED → sw ∈ s.reported → (s.switches sw).conn_state = .CONNECTED) :
    (s.set sw fields).Inv check_dpid_avaliable := by
  have htags : ∀ i, ((s.set sw fields).switches i).vlan_tag = (s.switches i).vlan_tag := by
    intro i
    by_cases hi : i = sw
    · subst hi
      simpa [FabricSwitches.set] using htag
    · simp [FabricSwitches.set, hi]
  have hstates : ∀ i, ((s.set sw fields).switches i).conn_state ≠ .INITSTATE ↔
      (s.switches i).conn_state ≠ .INITSTATE := by
    intro i
    by_cases hi : i = sw
    · subst hi
      simpa [FabricSwitches.set, hactive] using hfields
    · simp [FabricSwitches.set, hi]
  refine { hs with
    available_iff := ?_, active := ?_, node_tag := ?_, tag_lt := ?_, tag_inj := ?_, fresh := ?_, reported := ?_ }
  · intro i
    refine (hs.available_iff i).trans (and_congr_right fun hi => ?_)
    by_cases hisw : i = sw
    · subst hisw
      simp [FabricSwitches.set, hdpid hi]
    · simp [FabricSwitches.set, hisw]
  · exact fun i hi => (hstates i).mpr (hs.active i hi)
  · exact fun node hnode => (hs.node_tag node hnode).trans (htags node.sw).symm
  · intro i hi
    rw [htags]
    exact hs.tag_lt i ((hstates i).mp hi)
  · intro i j hi hj hij
    rw [htags, htags] at hij
    exact hs.tag_inj i j ((hstates i).mp hi) ((hstates j).mp hj) hij
  · intro i hi
    by_cases hisw : i = sw
    · subst hisw
      simp only [FabricSwitches.set, Function.update_self] at hi ⊢
      obtain ⟨hhandler, hnew⟩ := hfresh hi
      exact ⟨hhandler, (hs.fresh i hnew).2⟩
    · simp only [FabricSwitches.set, Function.update_of_ne hisw] at hi ⊢
      exact hs.fresh i hi
  · intro i hi hconnected
    by_cases hisw : i = sw
    · subst hisw
      simp only [FabricSwitches.set, Function.update_self] at hconnected
      exact hs.reported i hi (hconn hconnected hi)
    · simp only [FabricSwitches.set, Function.update_of_ne hisw] at hconnected
      exact hs.reported i hi hconnected

theorem Inv.new_switch {s' : FabricSwitches} {sw_ip : UINT4} (hs : s.Inv check_dpid_avaliable)
    (htag : s.g_fabric_tag.toNat ≤ 4095) (he : s.new_switch max_switch sw_ip = some s') :
    s'.Inv check_dpid_avaliable := by
  unfold FabricSwitches.new_switch at he
  obtain ⟨-, he⟩ := Option.ite_none_right_eq_some.mp he
  obtain ⟨idx, hidx, rfl⟩ := Option.map_eq_some_iff.mp he
  have hinit : (s.switches idx).conn_state = .INITSTATE := by simpa using List.find?_some hidx
  have hunlisted : idx ∉ s.listed := fun h => hs.active idx h hinit
  have hnext : (s.g_fabric_tag + 1).toNat = s.g_fabric_tag.toNat + 1 := by
    rw [UInt32.toNat_add, UInt32.toNat_one]
    omega
  have hlt : s.g_fabric_tag < s.g_fabric_tag + 1 := by
    rw [UInt32.lt_iff_toNat_lt, hnext]
    omega
  have hne : ∀ i, (s.switches i).conn_state ≠ .INITSTATE → (s.switches i).vlan_tag ≠ s.g_fabric_tag :=
    fun i hi => UInt32.ne_of_lt (hs.tag_lt i hi).2
  refine { hs with
    available_iff := ?_, active := ?_, node_tag := ?_, tag_lt := ?_, tag_inj := ?_, fresh := ?_, reported := ?_ }
  · intro i
    refine (hs.available_iff i).trans (and_congr_right fun hi => ?_)
    have hi : i ≠ idx := fun h => hunlisted (h ▸ hi)
    simp [FabricSwitches.set, hi]
  · intro i hi
    by_cases h : i = idx
    · exact absurd (h ▸ hi) hunlisted
    · simpa [FabricSwitches.set, h] using hs.active i hi
  · intro node hnode
    have h : node.sw ≠ idx := fun h => hunlisted (h ▸ hs.listed_of_node hnode)
    simpa [FabricSwitches.set, h] using hs.node_tag node hnode
  · intro i hi
    by_cases h : i = idx
    · subst h
      simpa [FabricSwitches.set] using ⟨htag, hlt⟩
    · simp only [FabricSwitches.set, Function.update_of_ne h] at hi ⊢
      exact ⟨(hs.tag_lt i hi).1, UInt32.lt_trans (hs.tag_lt i hi).2 hlt⟩
  · intro i j hi hj hij
    by_cases h : i = idx <;> by_cases h' : j = idx
    · rw [h, h']
    · subst h
      simp only [FabricSwitches.set, Function.update_self, Function.update_of_ne h'] at hj hij
      exact absurd hij.symm (hne j hj)
    · subst h'
      simp only [FabricSwitches.set, Function.update_self, Function.update_of_ne h] at hi hij
      exact absurd hij (hne i hi)
    · simp only [FabricSwitches.set, Function.update_of_ne h, Function.update_of_ne h'] at hi hj hij
      exact hs.tag_inj i j hi hj hij
  · intro i hi
    by_cases h : i = idx
    · subst h
      simp [FabricSwitches.set]
    · simp only [FabricSwitches.set, Function.update_of_ne h] at hi ⊢
      exact ⟨(hs.fresh i hi).1, fun hr => (hs.fresh i hi).2 (List.mem_filter.mp hr).1⟩
  · intro i hi hconnected
    obtain ⟨hi, h⟩ := List.mem_filter.mp hi
    have h : i ≠ idx := by simpa using h
    simp only [FabricSwitches.set, Function.update_of_ne h] at hconnected
    exact hs.reported i hi hconnected

theorem Inv.event_add_switch_on (hs : s.Inv check_dpid_avaliable) {sw : ℕ} (hlisted : sw ∉ s.listed)
    (hqueued : sw ∉ s.g_event_add_switch_list) (hnew : (s.switches sw).conn_state ≠ .NEWACCEPT) :
    (s.event_add_switch_on sw).Inv check_dpid_avaliable := by
  refine { hs with queued_nodup := ?_, queued := ?_, fresh := ?_, reported := ?_ }
  · exact hs.queued_nodup.append (List.nodup_singleton sw) (by simpa using hqueued)
  · intro i hi
    rcases List.mem_append.mp hi with hi | hi
    · exact hs.queued i hi
    · rw [List.mem_singleton.mp hi]
      exact hlisted
  · intro i hi
    refine ⟨(hs.fresh i hi).1, fun hr => ?_⟩
    rcases List.mem_cons.mp hr with rfl | hr
    · exact hnew hi
    · exact (hs.fresh i hi).2 hr
  · intro i hi hconnected
    rcases List.mem_cons.mp hi with rfl | hi
    · exact .inr (by simp [FabricSwitches.event_add_switch_on])
    · exact (hs.reported i hi hconnected).imp_right fun h => List.mem_append_left _ h

theorem Inv.free_switch (hs : s.Inv check_dpid_avaliable) (sw : ℕ) :
    (s.free_switch sw).Inv check_dpid_avaliable := by
  unfold FabricSwitches.free_switch
  split_ifs with hfree
  · exact hs
  · have hactive := (not_or.mp hfree).2
    have hset : (s.set sw { s.switches sw with sw_ip := 0, msg_handler := .of_message_handler }).Inv
        check_dpid_avaliable :=
      hs.set hactive hactive rfl (fun _ => rfl) (fun h => ⟨rfl, h⟩) (fun h _ => h)
    exact { hset with }

theorem map_filter_sw (list : List FabricSwNode) (swList : List ℕ) :
    (list.filter (·.sw ∉ swList)).map (·.sw) = (list.map (·.sw)).filter (· ∉ swList) := by
  rw [List.filter_map]
  rfl

/-- The switches of the list go, as long as the nodes are distinct. -/
theorem Inv.call_delete_eq (hs : s.Inv check_dpid_avaliable) : ∃ old_tag, s.call_delete_switch_fun =
    { s with
      switches := fun sw =>
        if sw ∈ s.g_event_delete_switch_list then { s.switches sw with conn_state := .INITSTATE } else s.switches sw
      g_fabric_sw_list := s.g_fabric_sw_list.filter (·.sw ∉ s.g_event_delete_switch_list)
      g_fabric_sw_list_total := s.g_fabric_sw_list_total.filter (·.sw ∉ s.g_event_delete_switch_list)
      g_fabric_sw_list_old_tag := old_tag
      g_event_delete_switch_list := [] } := by
  obtain ⟨old_tag, hremove⟩ := remove_sws_eq hs.listed_nodup hs.available_nodup s.g_event_delete_switch_list
  refine ⟨old_tag, ?_⟩
  rw [FabricSwitches.call_delete_switch_fun, hremove, remove_sws_state_eq]

theorem Inv.call_delete_switch_fun (hs : s.Inv check_dpid_avaliable) :
    s.call_delete_switch_fun.Inv check_dpid_avaliable := by
  obtain ⟨old_tag, hs'⟩ := hs.call_delete_eq
  generalize s.g_event_delete_switch_list = swList, s.call_delete_switch_fun = s' at hs'
  have hlisted : s'.listed = s.listed.filter (· ∉ swList) := by
    rw [hs']
    exact map_filter_sw _ _
  have havailable : s'.available = s.available.filter (· ∉ swList) := by
    rw [hs']
    exact map_filter_sw _ _
  have hmem : ∀ sw, sw ∈ s'.listed ↔ sw ∈ s.listed ∧ sw ∉ swList := by simp [hlisted]
  have hstay : ∀ sw ∉ swList, s'.switches sw = s.switches sw := by
    intro sw hsw
    simp [hs', hsw]
  have htag : ∀ sw, (s'.switches sw).vlan_tag = (s.switches sw).vlan_tag := by
    intro sw
    by_cases hsw : sw ∈ swList <;> simp [hs', hsw]
  have hout : ∀ sw, (s'.switches sw).conn_state ≠ .INITSTATE → sw ∉ swList := by
    intro sw h hsw
    simp [hs', hsw] at h
  have hqueue : s'.g_event_add_switch_list = s.g_event_add_switch_list := by rw [hs']
  have hreported : s'.reported = s.reported := by rw [hs']
  constructor
  case listed_nodup => exact hlisted ▸ hs.listed_nodup.filter _
  case available_nodup => exact havailable ▸ hs.available_nodup.filter _
  case available_iff =>
    intro sw
    rw [hmem, havailable]
    by_cases hsw : sw ∈ swList
    · simp [hsw]
    · simp [hsw, hstay sw hsw, hs.available_iff sw]
  case queued_nodup => exact hqueue ▸ hs.queued_nodup
  case queued =>
    intro sw hsw h
    exact hs.queued sw (hqueue ▸ hsw) ((hmem sw).mp h).1
  case active =>
    intro sw h
    obtain ⟨h, hsw⟩ := (hmem sw).mp h
    rw [hstay sw hsw]
    exact hs.active sw h
  case node_tag =>
    intro node hnode
    rw [htag]
    refine hs.node_tag node ?_
    rw [hs', ← List.filter_append] at hnode
    exact (List.mem_filter.mp hnode).1
  case tag_lt =>
    intro sw h
    have hsw := hout sw h
    rw [hstay sw hsw] at h ⊢
    rw [hs']
    exact hs.tag_lt sw h
  case tag_inj =>
    intro sw sw' h h' he
    have hsw := hout sw h
    have hsw' := hout sw' h'
    rw [hstay sw hsw] at h he
    rw [hstay sw' hsw'] at h' he
    exact hs.tag_inj sw sw' h h' he
  case fresh =>
    intro sw h
    have hsw := hout sw (by simp [h])
    rw [hstay sw hsw] at h ⊢
    rw [hreported]
    exact hs.fresh sw h
  case reported =>
    intro sw hr h
    have hsw := hout sw (by simp [h])
    rw [hstay sw hsw] at h
    rw [hmem, hqueue]
    exact (hs.reported sw (hreported ▸ hr) h).imp_left fun h => ⟨h, hsw⟩

/-- The switches whose nodes the pass puts in front. -/
def added (s : FabricSwitches) : List ℕ := s.g_event_add_switch_list.reverse.filter s.connected

variable (s check_dpid_avaliable) in
theorem call_add_eq : ∃ old_tag, s.call_add_switch_fun check_dpid_avaliable =
    { s with
      g_fabric_sw_list := (s.added.filter fun sw => check_dpid_avaliable (s.switches sw).dpid).map s.node ++
        s.g_fabric_sw_list
      g_fabric_sw_list_total := s.added.map s.node ++ s.g_fabric_sw_list_total
      g_fabric_sw_list_old_tag := old_tag
      g_event_add_switch_list := [] } := by
  obtain ⟨old_tag, hadd⟩ := add_sws_eq check_dpid_avaliable (s := s) s.g_event_add_switch_list
  refine ⟨old_tag, ?_⟩
  rw [call_add_switch_fun, hadd, added, List.filter_filter]
  simp only [Bool.and_comm]

theorem map_node_sw (s : FabricSwitches) (swList : List ℕ) : (swList.map s.node).map (·.sw) = swList := by
  rw [List.map_map]
  exact List.map_id swList

variable (s check_dpid_avaliable) in
theorem call_add_listed : (s.call_add_switch_fun check_dpid_avaliable).listed = s.added ++ s.listed := by
  obtain ⟨old_tag, hs'⟩ := call_add_eq check_dpid_avaliable s
  rw [hs', listed, List.map_append, map_node_sw]
  rfl

theorem Inv.call_add_switch_fun (hs : s.Inv check_dpid_avaliable) :
    (s.call_add_switch_fun check_dpid_avaliable).Inv check_dpid_avaliable := by
  have hlisted := call_add_listed check_dpid_avaliable s
  obtain ⟨old_tag, hs'⟩ := call_add_eq check_dpid_avaliable s
  generalize s.call_add_switch_fun check_dpid_avaliable = s' at hs' hlisted
  have havailable : s'.available =
      (s.added.filter fun sw => check_dpid_avaliable (s.switches sw).dpid) ++ s.available := by
    rw [hs', available, List.map_append, map_node_sw]
    rfl
  have hadded : ∀ sw,
      sw ∈ s.added ↔ sw ∈ s.g_event_add_switch_list ∧ (s.switches sw).conn_state = .CONNECTED := by
    simp [added, connected]
  have hnodup : s.added.Nodup := (List.nodup_reverse.mpr hs.queued_nodup).filter _
  have hnew : ∀ sw ∈ s.added, sw ∉ s.listed := fun sw h => hs.queued sw ((hadded sw).mp h).1
  have hswitches : s'.switches = s.switches := by rw [hs']
  have hreported : s'.reported = s.reported := by rw [hs']
  constructor
  case listed_nodup =>
    rw [hlisted]
    exact hnodup.append hs.listed_nodup fun sw h h' => hnew sw h h'
  case available_nodup =>
    rw [havailable]
    refine (hnodup.filter _).append hs.available_nodup fun sw h h' => ?_
    exact hnew sw (List.mem_filter.mp h).1 ((hs.available_iff sw).mp h').1
  case available_iff =>
    intro sw
    rw [havailable, hlisted, hswitches, List.mem_append, List.mem_append, List.mem_filter, hs.available_iff]
    exact or_and_right.symm
  case queued_nodup => exact hs' ▸ List.nodup_nil
  case queued => exact hs' ▸ fun sw h => nomatch h
  case active =>
    intro sw h
    rw [hswitches]
    rcases List.mem_append.mp (hlisted ▸ h) with h | h
    · simp [((hadded sw).mp h).2]
    · exact hs.active sw h
  case node_tag =>
    intro node hnode
    rw [hswitches]
    rw [hs'] at hnode
    simp only [List.mem_append, List.mem_map, List.mem_filter] at hnode
    rcases hnode with (⟨sw, -, rfl⟩ | hnode) | ⟨sw, -, rfl⟩ | hnode
    · rfl
    · exact hs.node_tag node (List.mem_append_left _ hnode)
    · rfl
    · exact hs.node_tag node (List.mem_append_right _ hnode)
  case tag_lt => exact hs' ▸ hs.tag_lt
  case tag_inj => exact hs' ▸ hs.tag_inj
  case fresh => exact hs' ▸ hs.fresh
  case reported =>
    intro sw hr h
    rw [hswitches] at h
    rw [hlisted, List.mem_append]
    refine .inl ?_
    rcases hs.reported sw (hreported ▸ hr) h with h' | h'
    · exact .inr h'
    · exact .inl ((hadded sw).mpr ⟨h', h⟩)

theorem Inv.connected_of_reply (hs : s.Inv check_dpid_avaliable) {sw : ℕ} (htakes : s.takesMessages sw)
    (hhandler : (s.switches sw).msg_handler = .of13_message_handler) : (s.switches sw).conn_state = .CONNECTED := by
  rcases of_decide_eq_true htakes with h | h
  · exact h
  · rw [(hs.fresh sw h).1] at hhandler
    cases hhandler

variable (s check_dpid_avaliable) in
theorem call_add_frame : (s.call_add_switch_fun check_dpid_avaliable).switches = s.switches ∧
    (s.call_add_switch_fun check_dpid_avaliable).reported = s.reported := by
  obtain ⟨old_tag, hs'⟩ := call_add_eq check_dpid_avaliable s
  rw [hs']
  exact ⟨rfl, rfl⟩

/-- The switch comes in front once more. -/
theorem reply_listed {sw : ℕ} (hconnected : (s.switches sw).conn_state = .CONNECTED) :
    ((s.event_add_switch_on sw).call_add_switch_fun check_dpid_avaliable).listed = sw :: (s.added ++ s.listed) := by
  have hadded : (s.event_add_switch_on sw).added = sw :: s.added := by
    simp only [added, event_add_switch_on, List.reverse_append, List.reverse_singleton, List.singleton_append]
    exact List.filter_cons_of_pos (decide_eq_true hconnected)
  rw [call_add_listed, hadded]
  rfl

theorem Inv.step {e : FabricSwitchStep} {s' : FabricSwitches} (hs : s.Inv check_dpid_avaliable)
    (hk : s.KeepsListed check_dpid_avaliable e) (he : s.step max_switch check_dpid_avaliable e = some s') :
    s'.Inv check_dpid_avaliable := by
  cases e with
  | new_switch sw_ip => exact hs.new_switch max_switch hk he
  | of_msg_hello sw version =>
    obtain ⟨⟨htakes, hhandler⟩, he⟩ := Option.ite_none_right_eq_some.mp he
    obtain rfl := Option.some.inj he
    have hactive : (s.switches sw).conn_state ≠ .INITSTATE := by
      rintro h
      simp [takesMessages, h] at htakes
    have hconn : sw ∈ s.reported → (s.switches sw).conn_state = .CONNECTED := by
      intro hr
      rcases of_decide_eq_true htakes with h | h
      · exact h
      · exact absurd hr (hs.fresh sw h).2
    unfold FabricSwitches.of_msg_hello
    split_ifs
    · exact hs.set hactive (by simp) rfl (fun _ => rfl) (by simp) (fun _ => hconn)
    · exact hs.set hactive (by simp) rfl (fun _ => rfl) (by simp) (fun _ => hconn)
    · exact hs
  | features_reply sw dpid =>
    obtain ⟨⟨htakes, hhandler⟩, he⟩ := Option.ite_none_right_eq_some.mp he
    obtain rfl := Option.some.inj he
    have hactive : (s.switches sw).conn_state ≠ .INITSTATE := by
      rintro h
      simp [takesMessages, h] at htakes
    exact hs.set hactive hactive rfl hk (fun h => absurd (hs.fresh sw h).1 hhandler) (fun h _ => h)
  | barrier_reply sw =>
    obtain ⟨⟨htakes, hhandler⟩, he⟩ := Option.ite_none_right_eq_some.mp he
    obtain rfl := Option.some.inj he
    refine hs.event_add_switch_on hk.1 hk.2.1 ?_
    rw [hs.connected_of_reply htakes hhandler]
    exact nofun
  | wait_close sw =>
    obtain ⟨htakes, he⟩ := Option.ite_none_right_eq_some.mp he
    obtain rfl := Option.some.inj he
    have hactive : (s.switches sw).conn_state ≠ .INITSTATE := by
      rintro h
      simp [takesMessages, h] at htakes
    exact hs.set hactive (by simp) rfl (fun _ => rfl) (by simp) (by simp)
  | free_switch sw =>
    obtain rfl := Option.some.inj he
    exact hs.free_switch sw
  | call_delete_switch_fun =>
    obtain rfl := Option.some.inj he
    exact hs.call_delete_switch_fun
  | call_add_switch_fun =>
    obtain rfl := Option.some.inj he
    exact hs.call_add_switch_fun

/-- Nodes of different switches have different tags. -/
theorem Inv.tags_nodup (hs : s.Inv check_dpid_avaliable) {list : List FabricSwNode} (hnodup : (list.map (·.sw)).Nodup)
    (hlist : list ⊆ s.g_fabric_sw_list_total ++ s.g_fabric_sw_list) : (list.map (·.tag)).Nodup := by
  have hnodes := List.Nodup.of_map _ hnodup
  refine hnodes.map_on fun node hnode node' hnode' htag => ?_
  have hsw : node.sw = node'.sw := by
    refine hs.tag_inj _ _ (hs.active _ (hs.listed_of_node (hlist hnode)))
      (hs.active _ (hs.listed_of_node (hlist hnode'))) ?_
    rw [← hs.node_tag node (hlist hnode), ← hs.node_tag node' (hlist hnode'), htag]
  exact List.inj_on_of_nodup_map hnodup hnode hnode' hsw

theorem Inv.listed (hs : s.Inv check_dpid_avaliable) (hqueue : s.g_event_add_switch_list = []) :
    s.Listed check_dpid_avaliable := by
  have hone : ∀ sw ∈ s.reported, (s.switches sw).conn_state = .CONNECTED → sw ∈ s.listed := by
    intro sw hr h
    rcases hs.reported sw hr h with h | h
    · exact h
    · rw [hqueue] at h
      cases h
  constructor
  case total => exact fun sw hr h => List.count_eq_one_of_mem hs.listed_nodup (hone sw hr h)
  case avaliable =>
    intro sw hr h hdpid
    exact List.count_eq_one_of_mem hs.available_nodup ((hs.available_iff sw).mpr ⟨hone sw hr h, hdpid⟩)
  case gone =>
    intro sw h
    have hlisted : sw ∉ s.listed := fun h' => hs.active sw h' h
    exact ⟨hlisted, fun h' => hlisted ((hs.available_iff sw).mp h').1⟩
  case tags =>
    exact ⟨hs.tags_nodup hs.listed_nodup (List.subset_append_left _ _),
      hs.tags_nodup hs.available_nodup (List.subset_append_right _ _)⟩
  case tag_le =>
    intro node hnode
    rw [hs.node_tag node hnode]
    exact (hs.tag_lt _ (hs.active _ (hs.listed_of_node hnode))).1

/-- As long as every step meets the condition the lists are exact after each pass; and a barrier reply that does not
meet it leaves the switch in the list more than once after the next one. -/
theorem fabric_switches_kept {vlan_start_tag : UINT4}
    (h : Run (step max_switch check_dpid_avaliable) (KeepsListed check_dpid_avaliable) (start vlan_start_tag) s) :
    (s.call_add_switch_fun check_dpid_avaliable).Listed check_dpid_avaliable ∧
      ∀ sw s', s.step max_switch check_dpid_avaliable (.barrier_reply sw) = some s' →
        s.g_event_add_switch_list.length < EVENT_MAX_CHANGED_SWITCH_NUM →
        (s.KeepsListed check_dpid_avaliable (.barrier_reply sw) ↔
          (s'.call_add_switch_fun check_dpid_avaliable).Listed check_dpid_avaliable) := by
  have hs : s.Inv check_dpid_avaliable :=
    h.invariant (fun t e u ht hk he => ht.step max_switch hk he) (start_inv check_dpid_avaliable vlan_start_tag)
  have hempty : ∀ t : FabricSwitches, (t.call_add_switch_fun check_dpid_avaliable).g_event_add_switch_list = [] :=
    fun _ => rfl
  refine ⟨hs.call_add_switch_fun.listed (hempty s), fun sw s' he hroom => ⟨?_, ?_⟩⟩
  · intro hk
    exact (hs.step max_switch hk he).call_add_switch_fun.listed (hempty s')
  · intro hlisted
    obtain ⟨⟨htakes, hhandler⟩, he⟩ := Option.ite_none_right_eq_some.mp he
    obtain rfl := Option.some.inj he
    have hconnected := hs.connected_of_reply htakes hhandler
    obtain ⟨hswitches, hreported⟩ := call_add_frame check_dpid_avaliable (s.event_add_switch_on sw)
    have hone := hlisted.total sw (hreported ▸ List.mem_cons_self) (hswitches ▸ hconnected)
    rw [reply_listed hconnected, List.count_cons_self] at hone
    have hnot : sw ∉ s.added ++ s.listed := List.count_eq_zero.mp (by omega)
    refine ⟨fun h => hnot (List.mem_append_right _ h), fun h => hnot (List.mem_append_left _ ?_), hroom⟩
    exact List.mem_filter.mpr ⟨List.mem_reverse.mpr h, decide_eq_true hconnected⟩

instance (check_dpid_avaliable : UINT8 → Bool) (s : FabricSwitches) :
    ∀ e, Decidable (s.KeepsListed check_dpid_avaliable e)
  | .new_switch _ => inferInstanceAs (Decidable (_ ≤ _))
  | .features_reply _ _ => inferInstanceAs (Decidable (_ → _))
  | .barrier_reply _ => inferInstanceAs (Decidable (_ ∧ _))
  | .free_switch _ => inferInstanceAs (Decidable (_ < _))
  | .of_msg_hello _ _ | .wait_close _ | .call_delete_switch_fun | .call_add_switch_fun =>
    inferInstanceAs (Decidable True)

def reconnectedRun : List FabricSwitchStep :=
  [.new_switch 1, .of_msg_hello 0 4, .features_reply 0 9, .barrier_reply 0, .call_add_switch_fun, .wait_close 0,
    .free_switch 0, .call_delete_switch_fun, .new_switch 1, .of_msg_hello 0 4, .features_reply 0 9, .barrier_reply 0]

/-- A switch that connects, disconnects and connects again has one node, under the second tag. -/
theorem reconnected_switch_kept : ∃ s,
    exec (guarded (step 7 fun _ => true) (KeepsListed fun _ => true)) (start 0) reconnectedRun = some s ∧
    (s.call_add_switch_fun fun _ => true).g_fabric_sw_list_total = [⟨0, 5⟩] ∧
    (s.call_add_switch_fun fun _ => true).Listed fun _ => true := by
  have hexec : exec (guarded (step 7 fun _ => true) (KeepsListed fun _ => true)) (start 0) reconnectedRun =
    some _ := rfl
  exact ⟨_, hexec, rfl, (fabric_switches_kept 7 (Run.of_exec hexec)).1⟩

/-- After a second barrier reply the switch is in the list twice. -/
theorem second_reply_listed : ¬ ∀ (max_switch vlan_start_tag : UINT4) (check_dpid_avaliable : UINT8 → Bool)
    (s s' : FabricSwitches), Reaches (step max_switch check_dpid_avaliable) (start vlan_start_tag) s →
    s.step max_switch check_dpid_avaliable .call_add_switch_fun = some s' → s'.Listed check_dpid_avaliable := by
  intro h
  have hexec : exec (step 7 fun _ => true) (start 0)
    [.new_switch 1, .of_msg_hello 0 4, .features_reply 0 9, .barrier_reply 0, .barrier_reply 0] = some _ := rfl
  have htotal := (h 7 0 (fun _ => true) _ _ (Reaches.of_exec hexec) rfl).total 0 List.mem_cons_self rfl
  exact absurd htotal (by decide)

end FabricSwitches

end DCFabric
