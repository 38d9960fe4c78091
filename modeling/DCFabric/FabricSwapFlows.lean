import DCFabric.FabricSwapTrees
import DCFabric.NeighborPorts

namespace DCFabric

open BreadthFirst SearchTrees TransitionRuns

/-- The action of the flow for a tag in a table of a switch, where there is one. -/
abbrev TagTables := ℕ → UINT1 → UINT2 → Option TagAction

/-- A flow takes the place of one with its table and match. -/
def TagTables.add (tables : TagTables) (f : TagFlow) : TagTables := fun sw table_id vlan_vid =>
  if sw = f.sw ∧ table_id = f.table_id ∧ vlan_vid = f.vlan_vid then some f.action else tables sw table_id vlan_vid

namespace FabricNet

variable (net : FabricNet)

/-- The switch that the port with a number leads to. -/
def cross (sw : ℕ) (port_no : UINT4) : Option ℕ :=
  ((net.ports sw).find? (·.port_no = port_no)).bind fun e => if e.bValid then e.sw else none

/-- Every link is known at both of its ends. -/
def Paired : Prop := ∀ a, ∀ e ∈ net.ports a, e.bValid → ∀ b port_no, e.sw = some b → e.port = some port_no →
  net.cross b port_no = some a

def hop (tables : TagTables) (vlan_vid : UINT2) (sw : ℕ) (table_id : UINT1) : Option ℕ :=
  match tables sw table_id vlan_vid with
  | some (.output port_no) => net.cross sw port_no
  | _ => none

/-- Where a packet with a tag is after `n` hops, when `table_id` is the first table to look it up in. -/
def follow (tables : TagTables) (vlan_vid : UINT2) : ℕ → ℕ → UINT1 → Option ℕ
  | 0, sw, _ => some sw
  | n + 1, sw, table_id =>
    (net.hop tables vlan_vid sw table_id).bind fun next => follow tables vlan_vid n next FABRIC_INPUT_TABLE

/-- Where a packet is after `n` hops when each switch sends it out of the port that is looked up for it. -/
def forwardN (g_fabric_path_list : List FabricPathList) (dst_dpid : UINT8) : ℕ → ℕ → Option ℕ
  | 0, sw => some sw
  | n + 1, sw => (net.cross sw (net.get_out_port_between_switch g_fabric_path_list (net.dpid sw) dst_dpid)).bind
      (forwardN g_fabric_path_list dst_dpid n)

/-- The packets for `d` take the paths: the first flow of the source and then the middle flows. -/
structure Delivers (external : ℕ → Bool) (tables : TagTables) (d : ℕ) (tag : UINT4) (paths : List FabricPath) :
    Prop where
  along : ∀ path ∈ paths, ∀ i < path.node_list.length,
    net.follow tables tag.toUInt16 i path.src (net.first_table path.src) = (path.node_list.map (·.sw))[i]?
  popped : external d = false → net.ofp_version d = FabricSwitches.OFP13_VERSION →
    tables d FABRIC_INPUT_TABLE tag.toUInt16 = some (.pop_vlan_goto FABRIC_FIREWALL_IN_TABLE)

end FabricNet

section

variable {net : FabricNet} {total : List FabricSwNode} {d : ℕ} {tag : UINT4} {base : List TagFlow}
  {tables : TagTables} {flows : List TagFlow} {paths : List FabricPath} {f : TagFlow} {action : TagAction}

/-- A flow stays when those that come after it for the same tag in the same table do the same. -/
theorem add_flows (tables : TagTables) (hmem : f ∈ flows) (hsame : ∀ g ∈ flows, g.sw = f.sw → g.table_id = f.table_id →
    g.vlan_vid = f.vlan_vid → g.action = f.action) :
    flows.foldl TagTables.add tables f.sw f.table_id f.vlan_vid = some f.action := by
  induction flows using List.reverseRecOn with
  | nil => cases hmem
  | append_singleton flows g ih =>
    rw [List.foldl_append, List.foldl_cons, List.foldl_nil, TagTables.add]
    split_ifs with hg
    · obtain ⟨hsw, htable, hvlan⟩ := hg
      rw [hsame g (List.mem_append_right _ (List.mem_singleton_self g)) hsw.symm htable.symm hvlan.symm]
    · apply ih
      · rcases List.mem_append.mp hmem with hmem | hmem
        · exact hmem
        · obtain rfl := List.mem_singleton.mp hmem
          exact absurd ⟨rfl, rfl, rfl⟩ hg
      · exact fun g hg => hsame g (List.mem_append_left _ hg)

namespace FabricNet

theorem mem_firstFlow {path : FabricPath} (h : f ∈ net.firstFlow tag path) : ∃ port_no, path.outport = some port_no ∧
    f = ⟨path.src, net.first_table path.src, tag.toUInt16, .output port_no⟩ := by
  rw [firstFlow] at h
  cases hport : path.outport with
  | none =>
    rw [hport] at h
    cases h
  | some port_no =>
    rw [hport, Option.elim_some, install_fabric_first_flow, install_fabric_flows] at h
    split_ifs at h
    · exact ⟨port_no, rfl, List.mem_singleton.mp h⟩
    · cases h

theorem mem_middleFlow {path : FabricPath} (h : f ∈ net.middleFlow tag path) : ∃ port_no, path.outport = some port_no ∧
    f = ⟨path.src, FABRIC_INPUT_TABLE, tag.toUInt16, .output port_no⟩ := by
  rw [middleFlow] at h
  cases hport : path.outport with
  | none =>
    rw [hport] at h
    cases h
  | some port_no =>
    rw [hport, Option.elim_some, install_fabric_middle_flow, install_fabric_flows] at h
    split_ifs at h
    · exact ⟨port_no, rfl, List.mem_singleton.mp h⟩
    · cases h

/-- What the flows of all searches together must be like for those of one of them. -/
structure Separate (net : FabricNet) (external : ℕ → Bool) (d : ℕ) (tag : UINT4) (paths : List FabricPath)
    (mine flows : List TagFlow) : Prop where
  mem : mine ⊆ flows
  own : ∀ f ∈ flows, f.vlan_vid = tag.toUInt16 → f ∈ net.install_fabric_last_flow external d tag ∨
    ∃ path ∈ paths, f ∈ net.firstFlow tag path ∨ f ∈ net.middleFlow tag path

theorem mem_lastFlow {external : ℕ → Bool} (h : f ∈ net.install_fabric_last_flow external d tag) :
    f = ⟨d, FABRIC_INPUT_TABLE, tag.toUInt16, .pop_vlan_goto FABRIC_FIREWALL_IN_TABLE⟩ := by
  rw [install_fabric_last_flow, install_fabric_flows] at h
  split_ifs at h
  · exact List.mem_singleton.mp h
  · cases h
  · cases h

/-- A flow of a search for a switch is that of its path. -/
theorem Separate.outport {external : ℕ → Bool} {mine : List TagFlow} (h : Separate net external d tag paths mine flows)
    (htree : Tree (net.swapSearch total) (create_fabric_path d none) paths) {path : FabricPath} (hpath : path ∈ paths)
    (hf : f ∈ flows) (hsw : f.sw = path.src) (hvlan : f.vlan_vid = tag.toUInt16) :
    f ∈ net.install_fabric_last_flow external d tag ∧ path = create_fabric_path d none ∨
      ∃ port_no, path.outport = some port_no ∧ f.action = .output port_no := by
  rcases h.own f hf hvlan with hlast | ⟨q, hq, hflow⟩
  · left
    refine ⟨hlast, htree.key_inj hpath htree.root_mem ?_⟩
    rw [mem_lastFlow hlast] at hsw
    exact hsw.symm
  · right
    have hout : ∃ port_no, q.outport = some port_no ∧ f.sw = q.src ∧ f.action = .output port_no := by
      rcases hflow with hflow | hflow
      · obtain ⟨port_no, hport, rfl⟩ := mem_firstFlow hflow
        exact ⟨port_no, hport, rfl, rfl⟩
      · obtain ⟨port_no, hport, rfl⟩ := mem_middleFlow hflow
        exact ⟨port_no, hport, rfl, rfl⟩
    obtain ⟨port_no, hport, hsrc, haction⟩ := hout
    obtain rfl : q = path := htree.key_inj hq hpath (hsrc.symm.trans hsw)
    exact ⟨port_no, hport, haction⟩

theorem cross_extend (hpair : net.Paired) {r : FabricPath} {e : FabricPort}
    (he : e ∈ (net.swapSearch total).out r.src) {port_no : UINT4} (hno : e.port = some port_no) :
    net.cross ((net.swapSearch total).extend r e).src port_no = some r.src := by
  obtain ⟨he, hvalid, -, node, -, hsw⟩ := mem_out.mp he
  rw [src_extend hsw]
  exact hpair r.src e he hvalid node.sw port_no hsw hno

/-- A path with a flow in a table leads the packet on to the switch that it was attached to. -/
theorem Separate.hop_eq (hpair : net.Paired) {external : ℕ → Bool} {mine : List TagFlow}
    (h : Separate net external d tag paths mine flows)
    (htree : Tree (net.swapSearch total) (create_fabric_path d none) paths) {r : FabricPath} {e : FabricPort}
    (he : e ∈ (net.swapSearch total).out r.src) (hpath : (net.swapSearch total).extend r e ∈ paths) {table_id : UINT1}
    {port_no : UINT4} (hno : e.port = some port_no)
    (hflow : ⟨((net.swapSearch total).extend r e).src, table_id, tag.toUInt16, .output port_no⟩ ∈ mine) :
    net.hop (flows.foldl TagTables.add tables) tag.toUInt16 ((net.swapSearch total).extend r e).src table_id =
      some r.src := by
  have hadd := add_flows tables (h.mem hflow) (by
    intro g hg hsw htable hvlan
    rcases h.outport htree hpath hg hsw hvlan with ⟨-, hroot⟩ | ⟨port_no', hport, haction⟩
    · have hnone := congrArg FabricPath.outport hroot
      rw [outport_extend, hno] at hnone
      cases hnone
    · rw [outport_extend, hno] at hport
      rw [haction, Option.some.inj hport])
  rw [hop, hadd]
  exact cross_extend hpair he hno

/-- The switches of a fabric are connected and have tags. -/
def Serving (net : FabricNet) (total : List FabricSwNode) : Prop :=
  ∀ node ∈ total, net.conn_state node.sw = .CONNECTED ∧ node.tag ≠ 0

section

variable {external : ℕ → Bool} {mine : List TagFlow} {r : FabricPath} {e : FabricPort}

theorem first_mem (hserving : net.Serving total) (hinst : net.Installed total tag paths (fun _ => False) mine)
    (he : e ∈ (net.swapSearch total).out r.src) (hpath : (net.swapSearch total).extend r e ∈ paths) {port_no : UINT4}
    (hno : e.port = some port_no) :
    ⟨((net.swapSearch total).extend r e).src, net.first_table ((net.swapSearch total).extend r e).src, tag.toUInt16,
      .output port_no⟩ ∈ mine := by
  obtain ⟨-, -, -, node, hnode, hsw⟩ := mem_out.mp he
  have hsrc : ((net.swapSearch total).extend r e).src = _ := src_extend hsw
  apply hinst.first _ hpath
  · intro other hother heq
    exact (hserving other hother).2
  · rw [firstFlow, outport_extend, hno, Option.elim_some, install_fabric_first_flow, install_fabric_flows, hsrc,
      if_pos (hserving node hnode).1]
    exact List.mem_singleton_self _

theorem middle_mem (hserving : net.Serving total) (hinst : net.Installed total tag paths (fun _ => False) mine)
    (he : e ∈ (net.swapSearch total).out r.src) (hpath : (net.swapSearch total).extend r e ∈ paths) {port_no : UINT4}
    (hno : e.port = some port_no) {e' : FabricPort}
    (he' : e' ∈ (net.swapSearch total).out ((net.swapSearch total).extend r e).src)
    (hnext : (net.swapSearch total).extend ((net.swapSearch total).extend r e) e' ∈ paths) :
    ⟨((net.swapSearch total).extend r e).src, FABRIC_INPUT_TABLE, tag.toUInt16, .output port_no⟩ ∈ mine := by
  obtain ⟨-, -, -, node, hnode, hsw⟩ := mem_out.mp he
  have hsrc : ((net.swapSearch total).extend r e).src = _ := src_extend hsw
  rcases hinst.middle _ hpath e' he' hnext with hfalse | hsub
  · exact hfalse.elim
  · apply hsub
    rw [middleFlow, outport_extend, hno, Option.elim_some, install_fabric_middle_flow, install_fabric_flows, hsrc,
      if_pos (hserving node hnode).1]
    exact List.mem_singleton_self _

/-- A switch that others are attached to hands their packets on along its own path. -/
theorem follow_inner (hpair : net.Paired) (hserving : net.Serving total)
    (hinst : net.Installed total tag paths (fun _ => False) mine)
    (hsep : Separate net external d tag paths mine flows)
    (htree : Tree (net.swapSearch total) (create_fabric_path d none) paths) :
    ∀ path ∈ paths, (∃ e ∈ (net.swapSearch total).out path.src, (net.swapSearch total).extend path e ∈ paths) →
      ∀ i < path.node_list.length, net.follow (flows.foldl TagTables.add tables) tag.toUInt16 i path.src
        FABRIC_INPUT_TABLE = (path.node_list.map (·.sw))[i]? := by
  apply htree.induct (C := fun path => (∃ e ∈ (net.swapSearch total).out path.src,
    (net.swapSearch total).extend path e ∈ paths) → ∀ i < path.node_list.length,
      net.follow (flows.foldl TagTables.add tables) tag.toUInt16 i path.src FABRIC_INPUT_TABLE =
        (path.node_list.map (·.sw))[i]?)
  · intro _ i hi
    obtain rfl : i = 0 := Nat.lt_one_iff.mp hi
    rfl
  · rintro r hr e he hpath ih ⟨e', he', hnext⟩ i hi
    rw [extend_node_list] at hi ⊢
    cases i with
    | zero => rfl
    | succ i =>
      obtain ⟨port_no, hno⟩ := Option.isSome_iff_exists.mp (mem_out.mp he).2.2.1
      rw [follow, hsep.hop_eq hpair htree he hpath hno (middle_mem hserving hinst he hpath hno he' hnext),
        Option.bind_some, ih ⟨e, he, hpath⟩ i (by simpa using hi)]
      rfl

theorem delivers (hpair : net.Paired) (hserving : net.Serving total) (hconn : net.conn_state d = .CONNECTED)
    (hinst : net.Installed total tag paths (fun _ => False) mine)
    (hsep : Separate net external d tag paths mine flows) (hlast : net.install_fabric_last_flow external d tag ⊆ flows)
    (htree : Tree (net.swapSearch total) (create_fabric_path d none) paths) :
    net.Delivers external (flows.foldl TagTables.add tables) d tag paths where
  along := by
    intro path hpath i hi
    rcases htree.parent path hpath with rfl | ⟨r, hr, e, he, rfl⟩
    · obtain rfl : i = 0 := Nat.lt_one_iff.mp hi
      rfl
    · rw [extend_node_list] at hi ⊢
      cases i with
      | zero => rfl
      | succ i =>
        obtain ⟨port_no, hno⟩ := Option.isSome_iff_exists.mp (mem_out.mp he).2.2.1
        rw [follow, hsep.hop_eq hpair htree he hpath hno (first_mem hserving hinst he hpath hno),
          Option.bind_some, follow_inner hpair hserving hinst hsep htree r hr ⟨e, he, hpath⟩ i (by simpa using hi)]
        rfl
  popped := by
    intro hexternal hversion
    have hflow : ⟨d, FABRIC_INPUT_TABLE, tag.toUInt16, .pop_vlan_goto FABRIC_FIREWALL_IN_TABLE⟩ ∈
        net.install_fabric_last_flow external d tag := by
      rw [install_fabric_last_flow, install_fabric_flows, if_pos ⟨by simp [hexternal], hversion⟩, if_pos hconn]
      exact List.mem_singleton_self _
    apply add_flows tables (hlast hflow)
    intro g hg hsw htable hvlan
    rcases hsep.outport htree htree.root_mem hg hsw hvlan with ⟨hlast, -⟩ | ⟨port_no, hport, -⟩
    · rw [mem_lastFlow hlast]
    · cases hport

/-- What a turn of `update_fabric_swap_flows` makes for a node. -/
structure Made (net : FabricNet) (external : ℕ → Bool) (total : List FabricSwNode)
    (x : FabricSwNode × FabricPathList × List TagFlow) : Prop where
  sw : x.2.1.sw = x.1.sw
  finished : FabricSearch.Finished net total x.1.sw x.1.tag (net.install_fabric_last_flow external x.1.sw x.1.tag)
    x.2.1.path_list x.2.2

theorem made_of_turns (sw_inc path_inc : UINT8) (external : ℕ → Bool) (hnodup : (total.map (·.sw)).Nodup)
    (hport : net.Ported) (nodes : List FabricSwNode)
    (hnodes : ∀ node ∈ nodes, net.conn_state node.sw = .CONNECTED ∧ net.Identified total node.sw)
    (lists : List FabricPathList) (w : FabricWeights) (flows : List TagFlow) :
    ∃ (made : List (FabricSwNode × FabricPathList × List TagFlow)) (w' : FabricWeights) (n : ℕ),
      (∀ fuel, n ≤ fuel → net.update_fabric_swap_flows_from sw_inc path_inc external fuel total nodes
        (lists, w, flows) = some (lists ++ made.map (·.2.1), w', flows ++ made.flatMap (·.2.2))) ∧
      made.map (·.1) = nodes ∧ ∀ x ∈ made, net.Made external total x := by
  induction nodes generalizing lists w flows with
  | nil => exact ⟨[], w, 0, by simp [update_fabric_swap_flows_from], rfl, List.forall_mem_nil _⟩
  | cons node nodes ih =>
    obtain ⟨⟨hconn, hid⟩, hnodes⟩ := List.forall_mem_cons.mp hnodes
    obtain ⟨paths, w₁, flows₁, n₁, hsingle, htree, hclosed, new, hflows, hinst⟩ :=
      FabricSearch.finished_single net sw_inc path_inc external total w flows node.tag hconn hnodup hport hid
    obtain ⟨made, w', n, hturns, hnodes, hmade⟩ := ih hnodes (lists ++ [⟨node.sw, paths⟩]) w₁ flows₁
    refine ⟨(node, ⟨node.sw, paths⟩, net.install_fabric_last_flow external node.sw node.tag ++ new) :: made, w',
      max n₁ n, ?_, by simp [hnodes], ?_⟩
    · intro fuel hfuel
      rw [update_fabric_swap_flows_from, hsingle fuel (le_of_max_le_left hfuel)]
      refine (hturns fuel (le_of_max_le_right hfuel)).trans ?_
      simp only [hflows, List.map_cons, List.flatMap_cons, List.append_assoc, List.singleton_append]
    · rw [List.forall_mem_cons]
      exact ⟨⟨rfl, htree, hclosed, new, rfl, hinst⟩, hmade⟩

theorem Made.vlan_vid {external : ℕ → Bool} {x : FabricSwNode × FabricPathList × List TagFlow}
    (h : net.Made external total x) (hf : f ∈ x.2.2) : f.vlan_vid = x.1.tag.toUInt16 ∧
      (f ∈ net.install_fabric_last_flow external x.1.sw x.1.tag ∨
        ∃ path ∈ x.2.1.path_list, f ∈ net.firstFlow x.1.tag path ∨ f ∈ net.middleFlow x.1.tag path) := by
  obtain ⟨mine, hmine, hinst⟩ := h.finished.flows
  rw [hmine] at hf
  rcases List.mem_append.mp hf with hlast | hf
  · refine ⟨?_, .inl hlast⟩
    rw [mem_lastFlow hlast]
  · obtain ⟨path, hpath, hflow⟩ := hinst.sound f hf
    refine ⟨?_, .inr ⟨path, hpath, hflow⟩⟩
    rcases hflow with hflow | hflow
    · obtain ⟨port_no, -, rfl⟩ := mem_firstFlow hflow
      rfl
    · obtain ⟨port_no, -, rfl⟩ := mem_middleFlow hflow
      rfl

/-- A fabric in which every destination is known and told from the others. -/
structure Fabric (net : FabricNet) (sw_list total : List FabricSwNode) : Prop where
  nodup : (total.map (·.sw)).Nodup
  known : ∀ node ∈ sw_list, ∃ other ∈ total, other.sw = node.sw
  dests : (sw_list.map (·.sw)).Nodup
  tags : (sw_list.map (·.tag.toUInt16)).Nodup
  dpids : (total.map (net.dpid ·.sw)).Nodup
  dpid_ne_zero : ∀ node ∈ total, 0 ≠ net.dpid node.sw
  ported : net.Ported
  paired : net.Paired
  serving : net.Serving total

theorem Fabric.dpid_inj {sw_list : List FabricSwNode} (h : net.Fabric sw_list total) {a b : ℕ}
    (ha : ∃ node ∈ total, node.sw = a) (hb : ∃ node ∈ total, node.sw = b) (hdpid : net.dpid a = net.dpid b) :
    a = b := by
  obtain ⟨x, hx, rfl⟩ := ha
  obtain ⟨y, hy, rfl⟩ := hb
  rw [List.inj_on_of_nodup_map h.dpids hx hy hdpid]

theorem Fabric.identified {sw_list : List FabricSwNode} (h : net.Fabric sw_list total)
    (hd : ∃ node ∈ total, node.sw = d) : net.Identified total d := by
  intro a b ha hb
  refine h.dpid_inj (ha.elim ?_ id) (hb.elim ?_ id)
  · rintro rfl
    exact hd
  · rintro rfl
    exact hd

theorem Fabric.connected {sw_list : List FabricSwNode} (h : net.Fabric sw_list total) {node : FabricSwNode}
    (hnode : node ∈ sw_list) : net.conn_state node.sw = .CONNECTED := by
  obtain ⟨other, hother, heq⟩ := h.known node hnode
  rw [← heq]
  exact (h.serving other hother).1

theorem Made.delivers (tables : TagTables) {external : ℕ → Bool} {sw_list : List FabricSwNode} (h : net.Fabric sw_list total)
    {made : List (FabricSwNode × FabricPathList × List TagFlow)} (hnodes : made.map (·.1) = sw_list)
    (hmade : ∀ x ∈ made, net.Made external total x) {x : FabricSwNode × FabricPathList × List TagFlow}
    (hx : x ∈ made) : net.Delivers external ((made.flatMap (·.2.2)).foldl TagTables.add tables) x.1.sw x.1.tag
      x.2.1.path_list := by
  obtain ⟨mine, hmine, hinst⟩ := (hmade x hx).finished.flows
  have hall : x.2.2 ⊆ made.flatMap (·.2.2) := fun f hf => List.mem_flatMap.mpr ⟨x, hx, hf⟩
  have hnode : x.1 ∈ sw_list := by
    rw [← hnodes]
    exact List.mem_map_of_mem hx
  have htags : (made.map fun x => x.1.tag.toUInt16).Nodup := by
    have htags := h.tags
    rwa [← hnodes, List.map_map] at htags
  refine FabricNet.delivers h.paired h.serving (h.connected hnode) hinst ⟨?_, ?_⟩ ?_ (hmade x hx).finished.tree
  · intro f hf
    apply hall
    rw [hmine]
    exact List.mem_append_right _ hf
  · intro f hf hvlan
    obtain ⟨y, hy, hf⟩ := List.mem_flatMap.mp hf
    obtain ⟨htag, hflow⟩ := (hmade y hy).vlan_vid hf
    obtain rfl : y = x := List.inj_on_of_nodup_map htags hy hx (htag.symm.trans hvlan)
    exact hflow
  · intro f hf
    apply hall
    rw [hmine]
    exact List.mem_append_left _ hf

theorem Made.known {external : ℕ → Bool} {sw_list : List FabricSwNode} (h : net.Fabric sw_list total)
    {x : FabricSwNode × FabricPathList × List TagFlow} (hx : net.Made external total x) (hnode : x.1 ∈ sw_list)
    {path : FabricPath} (hpath : path ∈ x.2.1.path_list) : ∃ node ∈ total, node.sw = path.src := by
  rcases hx.finished.tree.parent path hpath with rfl | ⟨r, hr, e, he, rfl⟩
  · exact h.known x.1 hnode
  · obtain ⟨-, -, -, node, hnode, hsw⟩ := mem_out.mp he
    exact ⟨node, hnode, (src_extend hsw).symm⟩

/-- The path that is looked up is the one that the search to the switch made for the source. -/
theorem Made.get_path {external : ℕ → Bool} {sw_list : List FabricSwNode} (h : net.Fabric sw_list total)
    {made : List (FabricSwNode × FabricPathList × List TagFlow)} (hnodes : made.map (·.1) = sw_list)
    (hmade : ∀ x ∈ made, net.Made external total x) {x : FabricSwNode × FabricPathList × List TagFlow}
    (hx : x ∈ made) {v : ℕ} (hv : ∃ node ∈ total, node.sw = v) :
    net.of131_fabric_get_path (made.map (·.2.1)) (net.dpid v) (net.dpid x.1.sw) =
      x.2.1.path_list.find? (·.src = v) := by
  have hmem (y : FabricSwNode × FabricPathList × List TagFlow) (hy : y ∈ made) : y.1 ∈ sw_list := by
    rw [← hnodes]
    exact List.mem_map_of_mem hy
  have hlist : (made.map (·.2.1)).find? (net.dpid ·.sw = net.dpid x.1.sw) = some x.2.1 := by
    have hsome : ((made.map (·.2.1)).find? (net.dpid ·.sw = net.dpid x.1.sw)).isSome := by
      rw [List.find?_isSome]
      exact ⟨x.2.1, List.mem_map_of_mem hx, by simp [(hmade x hx).sw]⟩
    obtain ⟨list, hlist⟩ := Option.isSome_iff_exists.mp hsome
    obtain ⟨y, hy, rfl⟩ := List.mem_map.mp (List.mem_of_find?_eq_some hlist)
    have hdpid : net.dpid y.1.sw = net.dpid x.1.sw := by
      rw [← (hmade y hy).sw]
      simpa using List.find?_some hlist
    have hdests : (made.map fun x => x.1.sw).Nodup := by
      have hdests := h.dests
      rwa [← hnodes, List.map_map] at hdests
    obtain rfl : y = x := List.inj_on_of_nodup_map hdests hy hx
      (h.dpid_inj (h.known _ (hmem y hy)) (h.known _ (hmem x hx)) hdpid)
    exact hlist
  obtain ⟨node, hnode, rfl⟩ := hv
  obtain ⟨other, hother, hsw⟩ := h.known x.1 (hmem x hx)
  rw [of131_fabric_get_path, hlist, Option.bind_some, get_fabric_path_from_list_by_sw_dpid,
    if_pos ⟨h.dpid_ne_zero node hnode, hsw ▸ h.dpid_ne_zero other hother⟩]
  apply List.find?_congr
  intro path hpath
  have hdst : path.dst = x.1.sw := ((hmade x hx).finished.isPath path hpath).dst
  have hsrc : net.dpid path.src = net.dpid node.sw ↔ path.src = node.sw :=
    ⟨h.dpid_inj ((hmade x hx).known h (hmem x hx) hpath) ⟨node, hnode, rfl⟩, congrArg net.dpid⟩
  simp [hdst, hsrc]

theorem find_src (htree : Tree (net.swapSearch total) (create_fabric_path d none) paths) {path : FabricPath}
    (hpath : path ∈ paths) : paths.find? (·.src = path.src) = some path := by
  have hsome : (paths.find? (·.src = path.src)).isSome := by
    rw [List.find?_isSome]
    exact ⟨path, hpath, decide_eq_true rfl⟩
  obtain ⟨q, hq⟩ := Option.isSome_iff_exists.mp hsome
  have hsrc : q.src = path.src := by simpa using List.find?_some hq
  rw [hq, htree.key_inj (List.mem_of_find?_eq_some hq) hpath hsrc]

theorem Made.forwardN {external : ℕ → Bool} {sw_list : List FabricSwNode} (h : net.Fabric sw_list total)
    {made : List (FabricSwNode × FabricPathList × List TagFlow)} (hnodes : made.map (·.1) = sw_list)
    (hmade : ∀ x ∈ made, net.Made external total x) {x : FabricSwNode × FabricPathList × List TagFlow}
    (hx : x ∈ made) : ∀ path ∈ x.2.1.path_list, ∀ i < path.node_list.length,
      net.forwardN (made.map (·.2.1)) (net.dpid x.1.sw) i path.src = (path.node_list.map (·.sw))[i]? := by
  have hnode : x.1 ∈ sw_list := by
    rw [← hnodes]
    exact List.mem_map_of_mem hx
  have htree := (hmade x hx).finished.tree
  apply htree.induct (C := fun path => ∀ i < path.node_list.length,
    net.forwardN (made.map (·.2.1)) (net.dpid x.1.sw) i path.src = (path.node_list.map (·.sw))[i]?)
  · intro i hi
    obtain rfl : i = 0 := Nat.lt_one_iff.mp hi
    rfl
  · intro r hr e he hpath ih i hi
    rw [extend_node_list] at hi ⊢
    cases i with
    | zero => rfl
    | succ i =>
      obtain ⟨port_no, hno⟩ := Option.isSome_iff_exists.mp (mem_out.mp he).2.2.1
      have hget : net.of131_fabric_get_path (made.map (·.2.1)) (net.dpid ((net.swapSearch total).extend r e).src)
          (net.dpid x.1.sw) = some ((net.swapSearch total).extend r e) := by
        rw [Made.get_path h hnodes hmade hx ((hmade x hx).known h hnode hpath)]
        exact find_src htree hpath
      have hport : net.get_out_port_between_switch (made.map (·.2.1))
          (net.dpid ((net.swapSearch total).extend r e).src) (net.dpid x.1.sw) = port_no := by
        rw [get_out_port_between_switch, hget, Option.bind_some, extend_node_list, hno]
        rfl
      rw [FabricNet.forwardN, hport, cross_extend h.paired he hno, Option.bind_some, ih i (by simpa using hi)]
      rfl

end

theorem Fabric.update {sw_list : List FabricSwNode} (h : net.Fabric sw_list total)
    (sw_init path_init sw_inc path_inc : UINT8) (external : ℕ → Bool) (w : FabricWeights) :
    ∃ (made : List (FabricSwNode × FabricPathList × List TagFlow)) (w' : FabricWeights) (n : ℕ),
      (∀ fuel, n ≤ fuel → net.update_fabric_swap_flows sw_init path_init sw_inc path_inc external fuel sw_list total w =
        some (made.map (·.2.1), w', made.flatMap (·.2.2))) ∧
      made.map (·.1) = sw_list ∧ ∀ x ∈ made, net.Made external total x := by
  have hnodes : ∀ node ∈ sw_list, net.conn_state node.sw = .CONNECTED ∧ net.Identified total node.sw :=
    fun node hnode => ⟨h.connected hnode, h.identified (h.known node hnode)⟩
  obtain ⟨made, w', n, hrun, hmade⟩ := made_of_turns sw_inc path_inc external h.nodup h.ported sw_list hnodes []
    (net.init_fabric_neighbor_weight sw_init path_init w sw_list) []
  exact ⟨made, w', n, hrun, hmade⟩

end FabricNet

end

namespace FabricNet

theorem smallNet_paired : smallNet.Paired := by
  have hall : ∀ a < 3, ∀ e ∈ smallNet.ports a, (e.sw.bind fun b => e.port.bind (smallNet.cross b)) = some a := by
    decide
  intro a e he hvalid b port_no hsw hport
  rcases Nat.lt_or_ge a 3 with hlt | hge
  · have hcross := hall a hlt e he
    rwa [hsw, hport] at hcross
  · obtain ⟨k, rfl⟩ := Nat.exists_eq_add_of_le' hge
    cases he

theorem smallNet_fabric : smallNet.Fabric smallTotal smallTotal where
  nodup := by decide
  known := fun node hnode => ⟨node, hnode, rfl⟩
  dests := by decide
  tags := by decide
  dpids := by decide
  dpid_ne_zero := by decide
  ported := smallNet_ported
  paired := smallNet_paired
  serving := by
    rw [Serving]
    decide

end FabricNet

/-- What the search reads of the switches when their neighbors are as `s` says. -/
def Neighbors.fabricNet (net : SwitchPorts ℕ) (s : Neighbors ℕ) (dpid : ℕ → UINT8)
    (conn_state : ℕ → SwitchConnState) (ofp_version : ℕ → UINT1) : FabricNet where
  dpid := dpid
  conn_state := conn_state
  ofp_version := ofp_version
  ports sw := (net.port_no sw).zipIdx.map fun (no, i) =>
    ⟨no, (s.neighbor sw i).bValid, some (s.neighbor sw i).sw,
      some (net.numberOf (s.neighbor sw i).sw (s.neighbor sw i).port)⟩

namespace Neighbors

variable {net : SwitchPorts ℕ} {s start : Neighbors ℕ} {dpid : ℕ → UINT8} {conn_state : ℕ → SwitchConnState}
  {ofp_version : ℕ → UINT1}

/-- The entry of the port that has a number first. -/
theorem find_port (sw : ℕ) (no : UINT4) {q : ℕ} (h : net.indexOf sw no = some q) :
    ((s.fabricNet net dpid conn_state ofp_version).ports sw).find? (·.port_no = no) =
      some ⟨no, (s.neighbor sw q).bValid, some (s.neighbor sw q).sw,
        some (net.numberOf (s.neighbor sw q).sw (s.neighbor sw q).port)⟩ := by
  obtain ⟨hlt, hno, hfirst⟩ := List.findIdx?_eq_some_iff_getElem.mp h
  rw [List.find?_eq_some_iff_getElem]
  refine ⟨by simp, q, by simpa [fabricNet] using hlt, ?_, ?_⟩
  · simpa [fabricNet] using hno
  · intro j hj
    simpa [fabricNet] using hfirst j hj

theorem mem_ports {sw : ℕ} {e : FabricPort} (he : e ∈ (s.fabricNet net dpid conn_state ofp_version).ports sw) :
    ∃ i, e.bValid = (s.neighbor sw i).bValid ∧ e.sw = some (s.neighbor sw i).sw ∧
      e.port = some (net.numberOf (s.neighbor sw i).sw (s.neighbor sw i).port) := by
  obtain ⟨⟨no, i⟩, -, rfl⟩ := List.mem_map.mp he
  exact ⟨i, rfl, rfl, rfl⟩

theorem fabricNet_ported : (s.fabricNet net dpid conn_state ofp_version).Ported := by
  intro sw e he _ _
  obtain ⟨i, -, -, hport⟩ := mem_ports he
  rw [hport]
  rfl

theorem fabricNet_paired (hn : s.Named net) (hs : s.view.Exact) :
    (s.fabricNet net dpid conn_state ofp_version).Paired := by
  intro a e he hvalid b port_no hsw hport
  obtain ⟨i, hi, hisw, hiport⟩ := mem_ports he
  rw [hi] at hvalid
  obtain rfl := Option.some.inj (hisw.symm.trans hsw)
  obtain rfl := Option.some.inj (hiport.symm.trans hport)
  have hpartner : s.view.partner (a, i) = some ((s.neighbor a i).sw, (s.neighbor a i).port) := by
    rw [view_partner, if_pos hvalid]
  have hback := hs.paired _ _ hpartner
  rw [view_partner] at hback
  split_ifs at hback with hb
  rw [FabricNet.cross, find_port _ _ (hn _ _ hpartner).2, Option.bind_some, if_pos hb]
  exact congrArg (Option.map Prod.fst) hback

/-- Three switches with the ports 1 and 2. -/
def threeSwitches : SwitchPorts ℕ := ⟨fun _ => [1, 2], fun _ => true, fun _ => by decide⟩

def unplugged : Neighbors ℕ := ⟨fun _ _ => ⟨false, 0, 0⟩, fun _ _ => .UNKOWN, []⟩

theorem unplugged_fresh : unplugged.Fresh where
  invalid _ _ := rfl
  unmarked _ _ := by simp [unplugged]

end Neighbors

end DCFabric
