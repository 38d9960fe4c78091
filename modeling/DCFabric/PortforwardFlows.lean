import DCFabric.FirewallFlows
import DCFabric.SharedFlows

namespace DCFabric

open FlowTables TransitionRuns

def FABRIC_PRIORITY_PORTFORWARD_IN_FLOW : UINT2 := 10
def FABRIC_PRIORITY_PORTFORWARD_OUT_FLOW : UINT2 := 10
def FABRIC_TABLE_PORTFORWARD_OUTTOR : UINT1 := 3
def FABRIC_TABLE_FORWARD_INVM : UINT1 := 19

structure CPortforwardRule where
  m_enabled : Bool
  m_protocol : INT4
  m_outIp : UINT4
  m_inIp : UINT4
  m_outPortStart : UINT2
  m_outPortEnd : UINT2
  m_inPortStart : UINT2
  m_inPortEnd : UINT2
  m_networkId : List UINT1
  m_subnetId : List UINT1
  deriving DecidableEq

def CPortforwardRule.Compare (r rule : CPortforwardRule) : Bool :=
  rule.m_enabled = r.m_enabled ∧ rule.m_protocol = r.m_protocol ∧ rule.m_outIp = r.m_outIp ∧
    rule.m_inIp = r.m_inIp ∧ rule.m_outPortStart = r.m_outPortStart ∧ rule.m_outPortEnd = r.m_outPortEnd ∧
    rule.m_inPortStart = r.m_inPortStart ∧ rule.m_inPortEnd = r.m_inPortEnd ∧
    rule.m_outPortStart = r.m_outPortStart ∧ rule.m_networkId = r.m_networkId ∧ rule.m_subnetId = r.m_subnetId

theorem CPortforwardRule.compare_iff {r rule : CPortforwardRule} : r.Compare rule ↔ r = rule := by
  cases r
  cases rule
  simp only [CPortforwardRule.Compare, decide_eq_true_eq, CPortforwardRule.mk.injEq]
  constructor
  · rintro ⟨rfl, rfl, rfl, rfl, rfl, rfl, rfl, rfl, -, rfl, rfl⟩
    simp
  · rintro ⟨rfl, rfl, rfl, rfl, rfl, rfl, rfl, rfl, rfl, rfl⟩
    simp

/-- A host whose switch is known. -/
structure ForwardedHost where
  sw : UINT8
  mac : BitVec 48
  portNo : UINT4

structure Base_External where
  switch_DPID : UINT8
  switch_port : UINT4
  gateway_MAC : BitVec 48

/-- What `installPortforwardFlow` asks the other managers; a switch takes flows if it is stable and managed. -/
structure PortforwardNetwork where
  findHostByIp : UINT4 → ForwardedHost
  getExternalPortByInternalIp : UINT4 → Option Base_External
  isKnown : UINT8 → Bool
  getTag : UINT8 → UINT4
  get_out_port_between_switch : UINT8 → UINT8 → UINT4
  takesFlows : UINT8 → Bool

/-- The instructions of a port-forward flow apply a list of actions. -/
abbrev ActionsMod := SwitchMod UINT8 UINT1 OfMatch (List CFlowAction)

namespace CFlowMgr

/-- `install_fabric_flows`, for flows that apply actions. -/
def install_actions_flow (takesFlows : UINT8 → Bool) (sw : UINT8) (priority : UINT2) (table_id : UINT1)
    (command : Command) (match_param : gn_oxm_t) (actions : List CFlowAction) : List ActionsMod :=
  if takesFlows sw then
    [⟨sw, command, table_id, ⟨ofMatch (set_flow_match match_param), priority.toNat, (0, 0), actions⟩⟩]
  else []

def tcpPort (protocol : UINT1) (port : UINT2) : BitVec 16 := if IPPROTO_TCP = protocol then port.toBitVec else 0

def udpPort (protocol : UINT1) (port : UINT2) : BitVec 16 := if IPPROTO_UDP = protocol then port.toBitVec else 0

/-- A tagged packet gets the room for its tag first. -/
def rewriteActions (oxm : gn_oxm_t) (outputPort : UINT4) : List CFlowAction :=
  (if oxm.field .vlan_vid ≠ 0 then [.push_vlan] else []) ++ [.set_field (set_flow_match oxm), .output outputPort]

variable (takesFlows : UINT8 → Bool) (sw : UINT8)

def install_portforwardIn_output_flow (dstIP : UINT4) (dstPort : UINT2) (protocol : UINT1)
    (inMac : Option (BitVec 48)) (inIP : UINT4) (inPort tag : UINT2) (outputPort : UINT4) (command : Command) :
    List ActionsMod :=
  let oxm := CFlowCache.emptyOxm
  let oxm := match inMac with
    | some mac => oxm.setField .eth_dst mac
    | none => oxm
  let oxm := if inIP ≠ 0 then oxm.setField .ipv4_dst inIP.toBitVec else oxm
  let oxm :=
    if inPort ≠ 0 then (oxm.setField .tcp_dst (tcpPort protocol inPort)).setField .udp_dst (udpPort protocol inPort)
    else oxm
  let oxm := if tag ≠ 0 then oxm.setField .vlan_vid tag.toBitVec else oxm
  let m := CFlowCache.emptyOxm.setField .ipv4_dst dstIP.toBitVec
  let m := (m.setField .eth_type ETHER_IP.toBitVec).setField .ip_proto protocol.toBitVec
  let m := (m.setField .tcp_dst (tcpPort protocol dstPort)).setField .udp_dst (udpPort protocol dstPort)
  install_actions_flow takesFlows sw (FABRIC_PRIORITY_PORTFORWARD_IN_FLOW + 1) FABRIC_TABLE_FORWARD_INVM command m
    (rewriteActions oxm outputPort)

def install_portforwardOut_output_flow (srcIP : UINT4) (srcPort : UINT2) (protocol : UINT1)
    (gwMac : Option (BitVec 48)) (outIP : UINT4) (outPort tag : UINT2) (outputPort : UINT4) (command : Command) :
    List ActionsMod :=
  let oxm := CFlowCache.emptyOxm
  let oxm := match gwMac with
    | some mac => oxm.setField .eth_dst mac
    | none => oxm
  let oxm := if outIP ≠ 0 then oxm.setField .ipv4_src outIP.toBitVec else oxm
  let oxm :=
    if outPort ≠ 0 then
      (oxm.setField .tcp_src (tcpPort protocol outPort)).setField .udp_src (udpPort protocol outPort)
    else oxm
  let oxm := if tag ≠ 0 then oxm.setField .vlan_vid tag.toBitVec else oxm
  let m := CFlowCache.emptyOxm.setField .ipv4_src srcIP.toBitVec
  let m := (m.setField .eth_type ETHER_IP.toBitVec).setField .ip_proto protocol.toBitVec
  let m := (m.setField .tcp_src (tcpPort protocol srcPort)).setField .udp_src (udpPort protocol srcPort)
  install_actions_flow takesFlows sw (FABRIC_PRIORITY_PORTFORWARD_OUT_FLOW + 1) FABRIC_TABLE_PORTFORWARD_OUTTOR command
    m (rewriteActions oxm outputPort)

def install_portforwardIn_gotoController_flow (dstIP : UINT4) (protocol : UINT1) (command : Command) :
    List ActionsMod :=
  let m := CFlowCache.emptyOxm.setField .eth_type ETHER_IP.toBitVec
  let m := (m.setField .ipv4_dst dstIP.toBitVec).setField .ip_proto protocol.toBitVec
  install_actions_flow takesFlows sw FABRIC_PRIORITY_PORTFORWARD_IN_FLOW FABRIC_TABLE_FORWARD_INVM command m
    [.output OFPP13_CONTROLLER]

def install_portforwardOut_gotoController_flow (srcIP : UINT4) (protocol : UINT1) (command : Command) :
    List ActionsMod :=
  let m := CFlowCache.emptyOxm.setField .eth_type ETHER_IP.toBitVec
  let m := (m.setField .ipv4_src srcIP.toBitVec).setField .ip_proto protocol.toBitVec
  install_actions_flow takesFlows sw FABRIC_PRIORITY_PORTFORWARD_IN_FLOW FABRIC_TABLE_PORTFORWARD_OUTTOR command m
    [.output OFPP13_CONTROLLER]

def install_portforwardOut_external_flow (srcIP : UINT4) (protocol : UINT1) (srcPort : UINT2) (outputPort : UINT4)
    (command : Command) : List ActionsMod :=
  let m := CFlowCache.emptyOxm.setField .eth_type ETHER_IP.toBitVec
  let m := (m.setField .ipv4_src srcIP.toBitVec).setField .ip_proto protocol.toBitVec
  let m := (m.setField .tcp_src (tcpPort protocol srcPort)).setField .udp_src (udpPort protocol srcPort)
  install_actions_flow takesFlows sw FABRIC_PRIORITY_PORTFORWARD_OUT_FLOW FABRIC_TABLE_PORTFORWARD_OUTTOR command m
    [.output outputPort]

end CFlowMgr

/-- The rules by outside and by inside IP, where an absent list is an empty one, and the rules that
`installPortforwardFlow` was called for with the commands. -/
structure CPortforwardPolicy where
  m_outPolicy : UINT4 → List CPortforwardRule
  m_inPolicy : UINT4 → List CPortforwardRule
  calls : List (CPortforwardRule × Command)

inductive PortforwardEvent where
  | createPortforwardRule (rule : CPortforwardRule)
  | deletePortforwardRule (rule : CPortforwardRule)

namespace CPortforwardPolicy

open CFlowMgr

/-- For a controller that is not `SLAVE`. -/
def installPortforwardFlow (net : PortforwardNetwork) (r : CPortforwardRule) (command : Command) : List ActionsMod :=
  if ¬ r.m_enabled then [] else
  let host := net.findHostByIp r.m_inIp
  match net.getExternalPortByInternalIp r.m_inIp with
  | none => []
  | some ext =>
    if ext.switch_DPID = 0 ∨ ¬ net.isKnown ext.switch_DPID then [] else
    let gwSw := ext.switch_DPID
    let protocol := r.m_protocol.toUInt32.toUInt8
    if r.m_outPortStart = r.m_outPortEnd ∧ r.m_inPortStart = r.m_inPortEnd then
      if host.sw ≠ gwSw then
        install_portforwardIn_output_flow net.takesFlows gwSw r.m_outIp r.m_outPortStart protocol host.mac 0 0
            (net.getTag host.sw).toUInt16 (net.get_out_port_between_switch gwSw host.sw) command ++
          install_portforwardIn_output_flow net.takesFlows host.sw r.m_outIp r.m_outPortStart protocol none r.m_inIp
            r.m_inPortStart 0 host.portNo command ++
          install_portforwardOut_output_flow net.takesFlows host.sw r.m_inIp r.m_inPortStart protocol ext.gateway_MAC
            r.m_outIp r.m_outPortStart (net.getTag gwSw).toUInt16 (net.get_out_port_between_switch host.sw gwSw)
            command ++
          install_portforwardOut_external_flow net.takesFlows gwSw r.m_outIp protocol r.m_outPortStart ext.switch_port
            command
      else
        install_portforwardIn_output_flow net.takesFlows gwSw r.m_outIp r.m_outPortStart protocol host.mac r.m_inIp
            r.m_inPortStart 0 host.portNo command ++
          install_portforwardOut_output_flow net.takesFlows host.sw r.m_inIp r.m_inPortStart protocol ext.gateway_MAC
            r.m_outIp r.m_outPortStart 0 ext.switch_port command
    else
      install_portforwardIn_gotoController_flow net.takesFlows gwSw r.m_outIp protocol command ++
        install_portforwardOut_gotoController_flow net.takesFlows host.sw r.m_inIp protocol command

def enforcePortforwardRule (ruleList : List CPortforwardRule) (rule : CPortforwardRule) : List CPortforwardRule :=
  ruleList ++ [rule]

def unenforcePortforwardRule (ruleList : List CPortforwardRule) (rule : CPortforwardRule) : List CPortforwardRule :=
  ruleList.eraseP fun r => r.Compare rule

def createPortforwardRule (s : CPortforwardPolicy) (rule : CPortforwardRule) : CPortforwardPolicy where
  m_outPolicy :=
    Function.update s.m_outPolicy rule.m_outIp (enforcePortforwardRule (s.m_outPolicy rule.m_outIp) rule)
  m_inPolicy := Function.update s.m_inPolicy rule.m_inIp (enforcePortforwardRule (s.m_inPolicy rule.m_inIp) rule)
  calls := s.calls ++ [(rule, .add)]

def deletePortforwardRule (s : CPortforwardPolicy) (rule : CPortforwardRule) : CPortforwardPolicy where
  m_outPolicy :=
    Function.update s.m_outPolicy rule.m_outIp (unenforcePortforwardRule (s.m_outPolicy rule.m_outIp) rule)
  m_inPolicy := Function.update s.m_inPolicy rule.m_inIp (unenforcePortforwardRule (s.m_inPolicy rule.m_inIp) rule)
  calls := s.calls ++ [(rule, .deleteStrict)]

def start : CPortforwardPolicy := ⟨fun _ => [], fun _ => [], []⟩

def step (s : CPortforwardPolicy) : PortforwardEvent → Option CPortforwardPolicy
  | .createPortforwardRule rule => some (s.createPortforwardRule rule)
  | .deletePortforwardRule rule => some (s.deletePortforwardRule rule)

/-- The tables of the switches after the flow-mods of all calls, empty before them. -/
def tables (net : PortforwardNetwork) (s : CPortforwardPolicy) : SwitchTables UINT8 UINT1 OfMatch (List CFlowAction) :=
  (s.calls.flatMap fun call => installPortforwardFlow net call.1 call.2).foldl
    (SwitchTables.receive OFPTT_ALL atLeastAsSpecific) fun _ _ => .empty

end CPortforwardPolicy

/-- The flow-mods differ in their command only, which is the one that is asked for, and each goes to a table of its own
among the places. -/
structure PlacedMods (places : List (UINT8 × UINT1)) (install : Command → List ActionsMod) : Prop where
  flows : ∀ c, (install c).map SwitchMod.flow = (install .add).map SwitchMod.flow
  command : ∀ c, ∀ sm ∈ install c, sm.mod.command = c
  place : ∀ c, ∀ sm ∈ install c, (sm.dpid, sm.mod.table) ∈ places
  distinct : ∀ c, (install c).Pairwise fun sm sm' => sm.key ≠ sm'.key

namespace PlacedMods

variable {ps qs : List (UINT8 × UINT1)} {f g : Command → List ActionsMod}

theorem nil : PlacedMods [] fun _ => [] where
  flows _ := rfl
  command _ _ h := absurd h List.not_mem_nil
  place _ _ h := absurd h List.not_mem_nil
  distinct _ := .nil

theorem install_actions_flow (takesFlows : UINT8 → Bool) (sw : UINT8) (priority : UINT2) (table_id : UINT1)
    (m : gn_oxm_t) (actions : List CFlowAction) :
    PlacedMods [(sw, table_id)]
      fun c => CFlowMgr.install_actions_flow takesFlows sw priority table_id c m actions := by
  simp only [CFlowMgr.install_actions_flow]
  split_ifs
  · exact ⟨fun _ => rfl, by simp, by simp, by simp⟩
  · exact ⟨fun _ => rfl, by simp, by simp, by simp⟩

theorem append (hf : PlacedMods ps f) (hg : PlacedMods qs g) (hd : ps.Disjoint qs) :
    PlacedMods (ps ++ qs) fun c => f c ++ g c where
  flows c := by rw [List.map_append, hf.flows c, hg.flows c, List.map_append]
  command c sm h := (List.mem_append.mp h).elim (hf.command c sm) (hg.command c sm)
  place c sm h := List.mem_append.mpr ((List.mem_append.mp h).imp (hf.place c sm) (hg.place c sm))
  distinct c := by
    refine List.pairwise_append.mpr ⟨hf.distinct c, hg.distinct c, ?_⟩
    intro sm hsm sm' hsm' hkey
    have hplace : (sm.dpid, sm.mod.table) = (sm'.dpid, sm'.mod.table) :=
      Prod.ext (congrArg FlowKey.dpid hkey) (congrArg FlowKey.table hkey)
    exact hd (hf.place c sm hsm) (hplace ▸ hg.place c sm' hsm')

theorem installPortforwardFlow (net : PortforwardNetwork) (r : CPortforwardRule) :
    ∃ places, PlacedMods places (CPortforwardPolicy.installPortforwardFlow net r) ∧
      ∀ p ∈ places, p.2 ≠ OFPTT_ALL := by
  have hnone : ∃ places, PlacedMods places (fun _ => []) ∧ ∀ p ∈ places, p.2 ≠ OFPTT_ALL := ⟨[], nil, by simp⟩
  have hin : FABRIC_TABLE_FORWARD_INVM ≠ OFPTT_ALL := by decide
  have hout : FABRIC_TABLE_PORTFORWARD_OUTTOR ≠ OFPTT_ALL := by decide
  have hne : FABRIC_TABLE_FORWARD_INVM ≠ FABRIC_TABLE_PORTFORWARD_OUTTOR := by decide
  unfold CPortforwardPolicy.installPortforwardFlow
  by_cases hen : r.m_enabled
  · simp only [hen, not_true_eq_false, if_false]
    cases net.getExternalPortByInternalIp r.m_inIp with
    | none => exact hnone
    | some ext =>
      by_cases hext : ext.switch_DPID = 0 ∨ ¬ net.isKnown ext.switch_DPID
      · simp only [if_pos hext]
        exact hnone
      · simp only [if_neg hext]
        by_cases hport : r.m_outPortStart = r.m_outPortEnd ∧ r.m_inPortStart = r.m_inPortEnd
        · simp only [if_pos hport]
          by_cases hsw : (net.findHostByIp r.m_inIp).sw ≠ ext.switch_DPID
          · simp only [if_pos hsw]
            refine ⟨_, ((append (install_actions_flow _ _ _ _ _ _) (install_actions_flow _ _ _ _ _ _) ?_).append
              (install_actions_flow _ _ _ _ _ _) ?_).append (install_actions_flow _ _ _ _ _ _) ?_, ?_⟩
            · simpa using hsw
            · simp [hne.symm]
            · simp [hne.symm, hsw.symm]
            · simp [hin, hout]
          · simp only [if_neg hsw]
            refine ⟨_, append (install_actions_flow _ _ _ _ _ _) (install_actions_flow _ _ _ _ _ _) ?_, ?_⟩
            · simp [hne.symm]
            · simp [hin, hout]
        · simp only [if_neg hport]
          refine ⟨_, append (install_actions_flow _ _ _ _ _ _) (install_actions_flow _ _ _ _ _ _) ?_, ?_⟩
          · simp [hne.symm]
          · simp [hin, hout]
  · simp only [hen, Bool.false_eq_true, not_false_eq_true, if_true]
    exact hnone

end PlacedMods

namespace CPortforwardPolicy

open CFlowMgr

variable {net : PortforwardNetwork} {s s' : CPortforwardPolicy} {e : PortforwardEvent} {p r : CPortforwardRule}

/-- `installPortforwardFlow` puts in the flow for the rule. -/
def required (net : PortforwardNetwork) (r : CPortforwardRule) (k : FlowKey UINT8 UINT1 OfMatch)
    (actions : List CFlowAction) : Prop :=
  (k, actions) ∈ (installPortforwardFlow net r .add).map SwitchMod.flow

theorem added_create :
    SharedFlows.Added (required net) r (s.tables net).lookup ((s.createPortforwardRule r).tables net).lookup := by
  intro k a
  obtain ⟨places, hp, hall⟩ := PlacedMods.installPortforwardFlow net r
  rw [tables, createPortforwardRule, List.flatMap_append, List.foldl_append, List.flatMap_singleton]
  exact SwitchTables.lookup_foldl_add (fun sm h => ⟨hp.command _ sm h, hall _ (hp.place _ sm h)⟩) (hp.distinct _)

theorem removed_delete :
    SharedFlows.Removed (required net) r (s.tables net).lookup ((s.deletePortforwardRule r).tables net).lookup := by
  intro k a
  obtain ⟨places, hp, hall⟩ := PlacedMods.installPortforwardFlow net r
  simp only [required, ← hp.flows .deleteStrict]
  rw [tables, deletePortforwardRule, List.flatMap_append, List.foldl_append, List.flatMap_singleton]
  exact SwitchTables.lookup_foldl_deleteStrict fun sm h => ⟨hp.command _ sm h, hall _ (hp.place _ sm h)⟩

theorem unenforce_eq (l : List CPortforwardRule) (r : CPortforwardRule) : unenforcePortforwardRule l r = l.erase r := by
  rw [unenforcePortforwardRule, List.erase_eq_eraseP]
  congr 1
  funext x
  rw [Bool.eq_iff_iff, CPortforwardRule.compare_iff, beq_iff_eq, eq_comm]

/-- `m_outPolicy` and `m_inPolicy` have every rule as many times, each where its IP leads. -/
structure SameRules (s : CPortforwardPolicy) : Prop where
  out_placed : ∀ ip, ∀ r ∈ s.m_outPolicy ip, r.m_outIp = ip
  in_placed : ∀ ip, ∀ r ∈ s.m_inPolicy ip, r.m_inIp = ip
  same : ∀ r, (s.m_outPolicy r.m_outIp).count r = (s.m_inPolicy r.m_inIp).count r

section

variable {policy : UINT4 → List CPortforwardRule} {ip : CPortforwardRule → UINT4}

theorem count_enforce (policy : UINT4 → List CPortforwardRule) (ip : CPortforwardRule → UINT4)
    (r p : CPortforwardRule) :
    (Function.update policy (ip r) (enforcePortforwardRule (policy (ip r)) r) (ip p)).count p =
      (policy (ip p)).count p + if p = r then 1 else 0 := by
  by_cases hpr : p = r
  · subst hpr
    simp [enforcePortforwardRule]
  · by_cases hip : ip p = ip r
    · rw [hip, Function.update_self, enforcePortforwardRule, List.count_append, List.count_singleton]
      simp [hpr, Ne.symm hpr]
    · rw [Function.update_of_ne hip, if_neg hpr, Nat.add_zero]

theorem count_unenforce (policy : UINT4 → List CPortforwardRule) (ip : CPortforwardRule → UINT4)
    (r p : CPortforwardRule) :
    (Function.update policy (ip r) (unenforcePortforwardRule (policy (ip r)) r) (ip p)).count p =
      (policy (ip p)).count p - if p = r then 1 else 0 := by
  rw [unenforce_eq]
  by_cases hpr : p = r
  · subst hpr
    simp
  · by_cases hip : ip p = ip r
    · rw [hip, Function.update_self, List.count_erase_of_ne hpr, if_neg hpr, Nat.sub_zero]
    · rw [Function.update_of_ne hip, if_neg hpr, Nat.sub_zero]

theorem placed_update (h : ∀ i, ∀ p ∈ policy i, ip p = i) {l : List CPortforwardRule}
    (hl : ∀ p ∈ l, p = r ∨ p ∈ policy (ip r)) : ∀ i, ∀ p ∈ Function.update policy (ip r) l i, ip p = i := by
  intro i p hp
  by_cases hi : i = ip r
  · subst hi
    rw [Function.update_self] at hp
    rcases hl p hp with rfl | hp
    · rfl
    · exact h _ p hp
  · rw [Function.update_of_ne hi] at hp
    exact h i p hp

end

theorem SameRules.step (h : s.SameRules) (he : step s e = some s') : s'.SameRules := by
  cases e with
  | createPortforwardRule r =>
    obtain rfl : s.createPortforwardRule r = s' := Option.some.inj he
    refine ⟨placed_update h.out_placed ?_, placed_update h.in_placed ?_, ?_⟩
    · simp [enforcePortforwardRule, or_comm]
    · simp [enforcePortforwardRule, or_comm]
    · intro p
      simp only [createPortforwardRule]
      rw [count_enforce s.m_outPolicy CPortforwardRule.m_outIp, count_enforce s.m_inPolicy CPortforwardRule.m_inIp,
        h.same p]
  | deletePortforwardRule r =>
    obtain rfl : s.deletePortforwardRule r = s' := Option.some.inj he
    refine ⟨placed_update h.out_placed ?_, placed_update h.in_placed ?_, ?_⟩
    · exact fun p hp => .inr (List.mem_of_mem_eraseP hp)
    · exact fun p hp => .inr (List.mem_of_mem_eraseP hp)
    · intro p
      simp only [deletePortforwardRule]
      rw [count_unenforce s.m_outPolicy CPortforwardRule.m_outIp,
        count_unenforce s.m_inPolicy CPortforwardRule.m_inIp, h.same p]

theorem start_sameRules : start.SameRules where
  out_placed _ _ h := absurd h List.not_mem_nil
  in_placed _ _ h := absurd h List.not_mem_nil
  same _ := rfl

def Stored (s : CPortforwardPolicy) (r : CPortforwardRule) : Prop := r ∈ s.m_outPolicy r.m_outIp

theorem stored_create : (s.createPortforwardRule r).Stored p ↔ p = r ∨ s.Stored p := by
  have hcount := count_enforce s.m_outPolicy CPortforwardRule.m_outIp r p
  rw [Stored, Stored, ← List.count_pos_iff, ← List.count_pos_iff, createPortforwardRule, hcount]
  split_ifs with hpr
  · simp [hpr]
  · simp [hpr]

/-- The rule is stored once `r` is taken out of its list. -/
def StoredWithout (s : CPortforwardPolicy) (r p : CPortforwardRule) : Prop := p ∈ (s.m_outPolicy p.m_outIp).erase r

instance : Decidable (s.StoredWithout r p) := inferInstanceAs (Decidable (p ∈ (s.m_outPolicy p.m_outIp).erase r))

theorem stored_delete : (s.deletePortforwardRule r).Stored p ↔ s.StoredWithout r p := by
  have hcount := count_unenforce s.m_outPolicy CPortforwardRule.m_outIp r p
  rw [Stored, StoredWithout, ← List.count_pos_iff, ← List.count_pos_iff, deletePortforwardRule, hcount,
    List.count_erase]
  by_cases hpr : p = r
  · simp [hpr]
  · simp [hpr, Ne.symm hpr]

/-- The switches have exactly the flows that the stored rules require. -/
def FlowsExact (net : PortforwardNetwork) (s : CPortforwardPolicy) : Prop :=
  SharedFlows.Exact (required net) {r | s.Stored r} (s.tables net).lookup

/-- A created rule requires no other actions for a flow of a stored one, and a deleted one shares no flow with a rule
that is still stored. -/
def SparesFlows (net : PortforwardNetwork) (s : CPortforwardPolicy) : PortforwardEvent → Prop
  | .createPortforwardRule r => ∀ p, s.Stored p → SharedFlows.Agree (required net) p r
  | .deletePortforwardRule r => ∀ p, s.StoredWithout r p → SharedFlows.Disjoint (required net) p r

theorem flowsExact_step (hf : s.FlowsExact net) (he : step s e = some s') :
    SparesFlows net s e ↔ s'.FlowsExact net := by
  cases e with
  | createPortforwardRule r =>
    obtain rfl : s.createPortforwardRule r = s' := Option.some.inj he
    have hset : {p | (s.createPortforwardRule r).Stored p} = insert r {p | s.Stored p} := by
      ext p
      simp [stored_create]
    rw [FlowsExact, hset]
    exact SharedFlows.Exact.added hf added_create
  | deletePortforwardRule r =>
    obtain rfl : s.deletePortforwardRule r = s' := Option.some.inj he
    have hset : {p | (s.deletePortforwardRule r).Stored p} = {p | s.StoredWithout r p} := by
      ext p
      simp [stored_delete]
    rw [FlowsExact, hset]
    refine SharedFlows.Exact.removed hf removed_delete (fun p hp => List.mem_of_mem_erase hp) ?_
    intro p hp
    by_cases hpr : p = r
    · exact .inl hpr
    · exact .inr ((List.mem_erase_of_ne hpr).mpr hp)

theorem start_flowsExact : start.FlowsExact net := by
  intro k a
  constructor
  · intro h
    cases h
  · rintro ⟨r, hr, -⟩
    exact absurd hr List.not_mem_nil

/-- Both maps have the same rules after every event, and the switches exactly the flows of the stored rules as long as
no event harms a flow that a rule stored after it requires, and not after an event that does. -/
theorem portforward_flows_exact (h : Run step (SparesFlows net) start s) :
    s.SameRules ∧ s.FlowsExact net ∧ ∀ e s', step s e = some s' → (SparesFlows net s e ↔ s'.FlowsExact net) := by
  obtain ⟨hs, hf⟩ : s.SameRules ∧ s.FlowsExact net := by
    refine h.invariant (P := fun s => s.SameRules ∧ s.FlowsExact net) ?_ ⟨start_sameRules, start_flowsExact⟩
    rintro t e u ⟨ht, hf⟩ hspare he
    exact ⟨ht.step he, (flowsExact_step hf he).mp hspare⟩
  exact ⟨hs, hf, fun e s' he => flowsExact_step hf he⟩

/-- A rule for one port and the run that creates and deletes it. -/
def portRule : CPortforwardRule := ⟨true, 6, 0xc0a80005, 0x0a000005, 8080, 8080, 80, 80, [1], [2]⟩

def oneGateway : PortforwardNetwork :=
  ⟨fun _ => ⟨1, 0x0605040302, 5⟩, fun _ => some ⟨2, 7, 0x0b0a090807⟩, fun _ => true, fun sw => sw.toUInt32, fun _ _ =>
    3,
    fun _ => true⟩

theorem deleted_flowsExact :
    ((start.createPortforwardRule portRule).deletePortforwardRule portRule).FlowsExact oneGateway := by
  have hcreate : SparesFlows oneGateway start (.createPortforwardRule portRule) :=
    fun p hp => absurd hp List.not_mem_nil
  have hdelete : SparesFlows oneGateway (start.createPortforwardRule portRule) (.deletePortforwardRule portRule) := by
    intro p hp
    have hps : p = portRule ∨ start.Stored p := stored_create.mp (List.mem_of_mem_erase hp)
    obtain rfl : p = portRule := hps.resolve_right List.not_mem_nil
    exact absurd hp (by decide)
  exact (portforward_flows_exact (.tail (.tail (a := .createPortforwardRule portRule) .refl hcreate rfl)
    (a := .deletePortforwardRule portRule) hdelete rfl)).2.1

theorem required_of_range {ext : Base_External} {f : FlowKey UINT8 UINT1 OfMatch × List CFlowAction}
    (hen : r.m_enabled) (hport : ¬ (r.m_outPortStart = r.m_outPortEnd ∧ r.m_inPortStart = r.m_inPortEnd))
    (hext : net.getExternalPortByInternalIp r.m_inIp = some ext)
    (hknown : ¬ (ext.switch_DPID = 0 ∨ ¬ net.isKnown ext.switch_DPID))
    (hf : f ∈ (install_portforwardIn_gotoController_flow net.takesFlows ext.switch_DPID r.m_outIp
      r.m_protocol.toUInt32.toUInt8 .add).map SwitchMod.flow) : required net r f.1 f.2 := by
  simp only [required, installPortforwardFlow, hen, not_true_eq_false, if_false, hext, if_neg hknown, if_neg hport,
    List.map_append, List.mem_append]
  exact .inl hf

/-- A TCP rule for a range of ports. -/
def rangeRule (inIp : UINT4) (portStart portEnd : UINT2) : CPortforwardRule :=
  ⟨true, 6, 0xc0a80005, inIp, portStart, portEnd, portStart, portEnd, [1], [2]⟩

/-- Two rules for ranges of ports of one outside IP share the flow to the controller, which goes with either. -/
theorem shared_controller_flow_deleted : ¬ ∀ net s, Reaches step start s → s.FlowsExact net := by
  intro h
  have hexec : exec step start [.createPortforwardRule (rangeRule 0x0a000005 100 200),
      .createPortforwardRule (rangeRule 0x0a000006 300 400)] = some _ := rfl
  have hreach := Reaches.of_exec hexec
  have hexact := h oneGateway _ (hreach.tail (a := .deletePortforwardRule (rangeRule 0x0a000005 100 200)) trivial rfl)
  have hspares := (flowsExact_step (e := .deletePortforwardRule (rangeRule 0x0a000005 100 200)) (h oneGateway _ hreach)
    rfl).mpr hexact
  have hstored : StoredWithout ((start.createPortforwardRule (rangeRule 0x0a000005 100 200)).createPortforwardRule
      (rangeRule 0x0a000006 300 400)) (rangeRule 0x0a000005 100 200) (rangeRule 0x0a000006 300 400) := by decide
  obtain ⟨f, hf⟩ : ∃ f, (install_portforwardIn_gotoController_flow oneGateway.takesFlows 2 0xc0a80005 6 .add).map
      SwitchMod.flow = [f] := ⟨_, rfl⟩
  have hmem := hf ▸ List.mem_singleton_self f
  exact hspares _ hstored f.1 f.2 f.2 (required_of_range rfl (by decide) rfl (by decide) hmem)
    (required_of_range rfl (by decide) rfl (by decide) hmem)

end CPortforwardPolicy

end DCFabric
