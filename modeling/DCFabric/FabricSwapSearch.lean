import DCFabric.FabricSwitches
import DCFabric.LoopRuns

namespace DCFabric

open LoopRuns

/-- A port of a switch with the entry of `neighbor` that has its index: the switch there and the number of its port,
where the two pointers are set. -/
structure FabricPort where
  port_no : UINT4
  bValid : Bool
  sw : Option ℕ
  port : Option UINT4
deriving DecidableEq

/-- What the search reads of the switches and never changes, by their index in `g_server.switches`. -/
structure FabricNet where
  dpid : ℕ → UINT8
  conn_state : ℕ → SwitchConnState
  ofp_version : ℕ → UINT1
  ports : ℕ → List FabricPort

/-- The weights, which it does change: those of the switches and those of their entries in `neighbor`. -/
structure FabricWeights where
  sw : ℕ → UINT8
  neighbor : ℕ → ℕ → UINT8

structure FabricPathNode where
  sw : ℕ
  port : Option UINT4
deriving DecidableEq

structure FabricPath where
  src : ℕ
  dst : ℕ
  node_list : List FabricPathNode
  len : UINT4
deriving DecidableEq

structure FabricPathList where
  sw : ℕ
  path_list : List FabricPath
deriving DecidableEq

inductive TagAction where
  | output (port : UINT4)
  | pop_vlan_goto (table_id : UINT1)
deriving DecidableEq

/-- A flow of priority `FABRIC_PRIORITY_SWAPTAG_FLOW` as it is added to a table of a switch. -/
structure TagFlow where
  sw : ℕ
  table_id : UINT1
  vlan_vid : UINT2
  action : TagAction
deriving DecidableEq

def FABRIC_INPUT_TABLE : UINT1 := 0
def FABRIC_SWAPTAG_TABLE : UINT1 := 7
def FABRIC_FIREWALL_IN_TABLE : UINT1 := 8

def create_fabric_path_node (sw : ℕ) (port : Option UINT4) : FabricPathNode := ⟨sw, port⟩

def create_fabric_path (sw : ℕ) (port : Option UINT4) : FabricPath := ⟨sw, sw, [create_fabric_path_node sw port], 0⟩

def insert_fabric_node_to_path (path : FabricPath) (node : FabricPathNode) : FabricPath :=
  { path with node_list := node :: path.node_list, src := node.sw, len := path.len + 1 }

def copy_fabric_path (path : FabricPath) : FabricPath :=
  ⟨path.src, path.dst, path.node_list.map fun node => create_fabric_path_node node.sw node.port, path.len⟩

/-- The lists and the weights during a search, and the flows that were installed. -/
structure FabricSearch where
  weights : FabricWeights
  sw_list : List FabricSwNode
  marked_list : List FabricSwNode
  current_list : List FabricPath
  ret_list : List FabricPath
  flows : List TagFlow

namespace FabricNet

-- `g_sw_init_weight`, `g_path_init_weight`, `g_sw_once_inc` and `g_path_once_inc`, and the switches for which
-- `initiative_check_if_external_and_install_flow` returns `TRUE`
variable (net : FabricNet) (sw_init path_init sw_inc path_inc : UINT8) (external : ℕ → Bool)

/-- A flow is sent to a connected switch only. -/
def install_fabric_flows (sw : ℕ) (table_id : UINT1) (tag : UINT4) (action : TagAction) : List TagFlow :=
  if net.conn_state sw = .CONNECTED then [⟨sw, table_id, tag.toUInt16, action⟩] else []

def install_fabric_last_flow (sw : ℕ) (tag : UINT4) : List TagFlow :=
  if ¬ external sw ∧ net.ofp_version sw = FabricSwitches.OFP13_VERSION then
    net.install_fabric_flows sw FABRIC_INPUT_TABLE tag (.pop_vlan_goto FABRIC_FIREWALL_IN_TABLE)
  else []

def first_table (sw : ℕ) : UINT1 :=
  if FabricSwitches.OFP10_VERSION = net.ofp_version sw then FABRIC_INPUT_TABLE else FABRIC_SWAPTAG_TABLE

def install_fabric_first_flow (sw : ℕ) (port tag : UINT4) : List TagFlow :=
  net.install_fabric_flows sw (net.first_table sw) tag (.output port)

def install_fabric_middle_flow (sw : ℕ) (port tag : UINT4) : List TagFlow :=
  net.install_fabric_flows sw FABRIC_INPUT_TABLE tag (.output port)

def upadte_fabric_neighbor_weight (w : FabricWeights) (sw neighbor : ℕ) : FabricWeights :=
  (net.ports sw).zipIdx.foldl (fun w (entry, i) =>
    if entry.bValid ∧ entry.sw = some neighbor then
      let w := { w with neighbor := Function.update w.neighbor sw (Function.update (w.neighbor sw) i
        (w.neighbor sw i + path_inc)) }
      let w := { w with sw := Function.update w.sw sw (w.sw sw + sw_inc) }
      { w with sw := Function.update w.sw neighbor (w.sw neighbor + sw_inc) }
    else w) w

def init_fabric_neighbor_weight (w : FabricWeights) (node_list : List FabricSwNode) : FabricWeights :=
  node_list.foldl (fun w node =>
    (net.ports node.sw).zipIdx.foldl (fun w (entry, i) =>
      if entry.bValid then
        { w with neighbor := Function.update w.neighbor node.sw (Function.update (w.neighbor node.sw) i path_init) }
      else w) { w with sw := Function.update w.sw node.sw sw_init }) w

/-- The cheapest way from a marked switch to `sw` that weighs less than `weight`. -/
def minNeighbor (w : FabricWeights) (marked_list : List FabricSwNode) (sw : ℕ) (weight : UINT8) :
    Option (ℕ × FabricPort) × UINT8 :=
  marked_list.foldl (fun best node =>
    (net.ports node.sw).zipIdx.foldl (fun best (entry, i) =>
      if entry.bValid ∧ entry.sw = some sw then
        let local_weight := w.neighbor node.sw i + w.sw node.sw + w.sw sw
        if local_weight < best.2 then (some (node.sw, entry), local_weight) else best
      else best) best) (none, weight)

/-- What both ways of attaching a switch do once its node is out of `sw_list`. The port is read for a first flow only. -/
def attach (s : FabricSearch) (sw neighbor : ℕ) (node : FabricSwNode) (sw_port : Option UINT4) (path : FabricPath)
    (tag : UINT4) : Option FabricSearch := do
  let flows ← if node.tag ≠ 0 then sw_port.map fun port_no => net.install_fabric_first_flow neighbor port_no tag
    else some []
  some { s with
    flows := s.flows ++ flows
    current_list := s.current_list ++
      [insert_fabric_node_to_path (copy_fabric_path path) (create_fabric_path_node node.sw sw_port)]
    weights := net.upadte_fabric_neighbor_weight sw_inc path_inc s.weights sw neighbor
    marked_list := node :: s.marked_list }

def is_min_weight_neighbor (s : FabricSearch) (sw : ℕ) (weight : UINT8) (tag : UINT4) :
    Option (Bool × FabricSearch) :=
  match (net.minNeighbor s.weights s.marked_list sw weight).1 with
  | none => some (true, s)
  | some (min_sw, min_neighbor) =>
    match (s.current_list.find? (net.dpid ·.src = net.dpid min_sw)).or
        (s.ret_list.find? (net.dpid ·.src = net.dpid min_sw)) with
    | none => some (true, s)
    | some min_path =>
      match remove_fabric_sw_list_by_sw s.sw_list sw with
      | (none, _) => some (false, s)
      | (some node, sw_list) =>
        (net.attach sw_inc path_inc { s with sw_list := sw_list } min_sw sw node min_neighbor.port min_path tag).map
          fun s =>
            match min_path.node_list.head? with
            | some ⟨min_node, some port_no⟩ =>
              (false, { s with flows := s.flows ++ net.install_fabric_middle_flow min_node port_no tag })
            | _ => (false, s)

/-- What a turn does for a neighbor that no marked switch is nearer to. -/
def attach_neighbor (sw neighbor : ℕ) (sw_port : UINT4) (current_path : FabricPath) (tag : UINT4) (n : ℕ)
    (s : FabricSearch) : Option (ℕ × FabricSearch) :=
  match remove_fabric_sw_list_by_sw s.sw_list neighbor with
  | (none, _) => some (n, s)
  | (some node, sw_list) =>
    (net.attach sw_inc path_inc { s with sw_list := sw_list } sw neighbor node (some sw_port) current_path tag).map
      fun s => (n + 1, s)

/-- One turn of the loop over the ports of the switch that is expanded, with the count of the switches attached to it,
which is at most the number of its ports. -/
def update_fabric_neighbor_flow (sw : ℕ) (current_path : FabricPath) (tag : UINT4) (r : ℕ × FabricSearch)
    (port : FabricPort × ℕ) : Option (ℕ × FabricSearch) :=
  match port.1.bValid, port.1.sw, port.1.port with
  | true, some neighbor, some sw_port => do
    let total_weight := r.2.weights.neighbor sw port.2 + r.2.weights.sw sw + r.2.weights.sw neighbor
    let (isMin, s) ← net.is_min_weight_neighbor sw_inc path_inc r.2 neighbor total_weight tag
    if isMin then net.attach_neighbor sw_inc path_inc sw neighbor sw_port current_path tag r.1 s else some (r.1, s)
  | _, _, _ => some r

def update_fabric_neighbor_flows (sw : ℕ) (current_path : FabricPath) (tag : UINT4) (s : FabricSearch) :
    Option (ℕ × FabricSearch) :=
  (net.ports sw).zipIdx.foldlM (net.update_fabric_neighbor_flow sw_inc path_inc sw current_path tag) (0, s)

/-- One turn of the loop over `current_list`. -/
def swapPass (tag : UINT4) (s : FabricSearch) : Pass FabricSearch Unit FabricSearch :=
  match s.current_list with
  | [] => .leave s
  | temp_path :: rest =>
    match temp_path.node_list.head? with
    | none => .fault
    | some node =>
      match net.update_fabric_neighbor_flows sw_inc path_inc node.sw temp_path tag { s with current_list := rest } with
      | none => .fault
      | some (next_num, s) =>
        if 0 < next_num then
          match node.port with
          | none => .fault
          | some port_no => .next () { s with
              flows := s.flows ++ net.install_fabric_middle_flow node.sw port_no tag
              ret_list := temp_path :: s.ret_list }
        else .next () { s with ret_list := temp_path :: s.ret_list }

/-- The state in which the switch itself is expanded. -/
def swapStart (total : List FabricSwNode) (w : FabricWeights) (flows : List TagFlow) (sw : ℕ) (tag : UINT4) :
    FabricSearch where
  weights := w
  sw_list := (remove_fabric_sw_list_by_sw total sw).2
  marked_list := [⟨sw, tag⟩]
  current_list := []
  ret_list := []
  flows := flows ++ net.install_fabric_last_flow external sw tag

/-- The list of paths to `sw`, which is `NULL` when `sw` is not connected, with the weights and the flows as they are
afterwards. -/
def update_fabric_swap_flows_single (fuel : ℕ) (total : List FabricSwNode) (w : FabricWeights) (flows : List TagFlow)
    (sw : ℕ) (tag : UINT4) : Option (Option FabricPathList × FabricWeights × List TagFlow) :=
  if net.conn_state sw = .CONNECTED then do
    let temp_path := create_fabric_path sw none
    let (_, s) ← net.update_fabric_neighbor_flows sw_inc path_inc sw temp_path tag
      (net.swapStart external total w flows sw tag)
    let (_, s) ← run (net.swapPass sw_inc path_inc tag) fuel { s with ret_list := temp_path :: s.ret_list }
    some (some ⟨sw, s.ret_list⟩, s.weights, s.flows)
  else some (none, w, flows)

/-- The turns of the loop over `g_fabric_sw_list`, with the lists that were made before. -/
def update_fabric_swap_flows_from (fuel : ℕ) (total : List FabricSwNode) :
    List FabricSwNode → List FabricPathList × FabricWeights × List TagFlow →
      Option (List FabricPathList × FabricWeights × List TagFlow)
  | [], r => some r
  | node :: nodes, (lists, w, flows) => do
    let (list, w, flows) ← net.update_fabric_swap_flows_single sw_inc path_inc external fuel total w flows node.sw
      node.tag
    update_fabric_swap_flows_from fuel total nodes (lists ++ list.toList, w, flows)

/-- `g_fabric_path_list` and the flows that were installed. -/
def update_fabric_swap_flows (fuel : ℕ) (sw_list total : List FabricSwNode) (w : FabricWeights) :
    Option (List FabricPathList × FabricWeights × List TagFlow) :=
  net.update_fabric_swap_flows_from sw_inc path_inc external fuel total sw_list
    ([], net.init_fabric_neighbor_weight sw_init path_init w sw_list, [])

def get_fabric_path_from_list_by_sw_dpid (list : FabricPathList) (src_dpid dst_dpid : UINT8) : Option FabricPath :=
  if 0 ≠ src_dpid ∧ 0 ≠ dst_dpid then
    list.path_list.find? fun path => net.dpid path.src = src_dpid ∧ net.dpid path.dst = dst_dpid
  else none

def of131_fabric_get_path (g_fabric_path_list : List FabricPathList) (src_dpid dst_dpid : UINT8) : Option FabricPath :=
  (g_fabric_path_list.find? fun list => net.dpid list.sw = dst_dpid).bind
    (net.get_fabric_path_from_list_by_sw_dpid · src_dpid dst_dpid)

def get_out_port_between_switch (g_fabric_path_list : List FabricPathList) (src_dpid dst_dpid : UINT8) : UINT4 :=
  match (net.of131_fabric_get_path g_fabric_path_list src_dpid dst_dpid).bind (·.node_list.head?) with
  | some ⟨_, some port_no⟩ => port_no
  | _ => 0

end FabricNet

end DCFabric
