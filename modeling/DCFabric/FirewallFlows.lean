import DCFabric.FirewallRules
import DCFabric.FlowRefinement
import DCFabric.FlowRemovedParse

namespace DCFabric

open FlowTables TransitionRuns

def ETHER_IP : UINT2 := 0x0800
def IPPROTO_ICMP : UINT1 := 1
def FABRIC_TABLE_FIREWALL_OUTTOR : UINT1 := 1
def FABRIC_TABLE_QOS_OUTTOR : UINT1 := 2
def FABRIC_TABLE_FIREWALL_INVM : UINT1 := 17
def FABRIC_TABLE_QOS_INVM : UINT1 := 18
def FABRIC_PRIORITY_FIREWALL_IN_FLOW : UINT2 := 10
def FABRIC_PRIORITY_FIREWALL_OUT_FLOW : UINT2 := 10

/-- Whether `set_flow_match` puts the field into the match. -/
def gn_oxm_t.given (oxm : gn_oxm_t) : OxmField → Bool
  | .icmpv4_type => oxm.field .ip_proto == IPPROTO_ICMP.toBitVec && oxm.field .icmpv4_type != 0xff
  | .icmpv4_code => oxm.field .ip_proto == IPPROTO_ICMP.toBitVec && oxm.field .icmpv4_code != 0xff
  | f => oxm.field f != 0

def set_flow_match (oxm : gn_oxm_t) : gn_oxm_t :=
  OxmField.all.foldl (fun o f => if oxm.given f then { o with mask := SET_MASK o.mask f.bit } else o) oxm

/-- What the instructions of a firewall flow do with a packet. -/
inductive FirewallTarget where
  | gotoTable (table_id : UINT1)
  | output (port : UINT4)
  deriving DecidableEq

/-- A flow-mod with the switch it is sent to. -/
structure FirewallFlowMod where
  dpid : UINT8
  mod : FlowMod UINT1 OfMatch FirewallTarget

/-- The switch of a tracked host, its external switch and its two addresses. -/
structure HostPlacement where
  sw : UINT8
  extSw : UINT8
  innerIp : UINT4
  outerIp : UINT4

/-- What `installFirewallFlow` asks the other managers; a switch takes flows if it is stable and managed. -/
structure FirewallNetwork where
  placement : HostMac → HostPlacement
  takesFlows : UINT8 → Bool

namespace CFlowMgr

def install_fabric_flows (takesFlows : UINT8 → Bool) (sw : UINT8) (priority : UINT2) (table_id : UINT1)
    (command : Command) (match_param : gn_oxm_t) (target : FirewallTarget) : List FirewallFlowMod :=
  if takesFlows sw then
    [⟨sw, command, table_id, ⟨ofMatch (set_flow_match match_param), priority.toNat, (0, 0), target⟩⟩]
  else []

/-- The match on the addresses and the protocol, where the remote one is the source. -/
def firewallInMatch (srcIP dstIP srcIPMask : UINT4) (protocol : UINT1) : gn_oxm_t :=
  let m := CFlowCache.emptyOxm.setField .eth_type ETHER_IP.toBitVec
  let m :=
    if srcIP > 0 then (m.setField .ipv4_src srcIP.toBitVec).setField OxmField.ipv4_src_prefix srcIPMask.toBitVec else m
  let m := if dstIP > 0 then m.setField .ipv4_dst dstIP.toBitVec else m
  if protocol > 0 then m.setField .ip_proto protocol.toBitVec else m

/-- The match on the addresses and the protocol, where the remote one is the destination. -/
def firewallOutMatch (srcIP dstIP dstIPMask : UINT4) (protocol : UINT1) : gn_oxm_t :=
  let m := CFlowCache.emptyOxm.setField .eth_type ETHER_IP.toBitVec
  let m := if srcIP > 0 then m.setField .ipv4_src srcIP.toBitVec else m
  let m :=
    if dstIP > 0 then (m.setField .ipv4_dst dstIP.toBitVec).setField OxmField.ipv4_dst_prefix dstIPMask.toBitVec else m
  if protocol > 0 then m.setField .ip_proto protocol.toBitVec else m

def icmpMatch (m : gn_oxm_t) (type code : UINT1) : gn_oxm_t :=
  (m.setField .icmpv4_type type.toBitVec).setField .icmpv4_code code.toBitVec

/-- The accepted packets go on in the table after the firewall. -/
def qosTarget (table_id : UINT1) (accept : Bool) : FirewallTarget :=
  if accept then .gotoTable table_id else .output OFPP13_TABLE

def controllerTarget (accept : Bool) : FirewallTarget :=
  .output (if accept then OFPP13_CONTROLLER else OFPP13_TABLE)

variable (takesFlows : UINT8 → Bool) (sw : UINT8)

def install_firewallIn_withPort_flow (srcIP dstIP srcIPMask : UINT4) (protocol : UINT1)
    (srcPort dstPort priority : UINT2) (command : Command) (accept : Bool) : List FirewallFlowMod :=
  let m := firewallInMatch srcIP dstIP srcIPMask protocol
  let m :=
    if protocol = IPPROTO_TCP then m.setField .tcp_dst dstPort.toBitVec
    else if protocol = IPPROTO_UDP then m.setField .udp_dst dstPort.toBitVec
    else if protocol = IPPROTO_ICMP then icmpMatch m srcPort.toUInt8 dstPort.toUInt8
    else m
  install_fabric_flows takesFlows sw (FABRIC_PRIORITY_FIREWALL_IN_FLOW + priority) FABRIC_TABLE_FIREWALL_INVM command m
    (qosTarget FABRIC_TABLE_QOS_INVM accept)

def install_firewallOut_withPort_flow (srcIP dstIP dstIPMask : UINT4) (protocol : UINT1)
    (srcPort dstPort priority : UINT2) (command : Command) (accept : Bool) : List FirewallFlowMod :=
  let m := firewallOutMatch srcIP dstIP dstIPMask protocol
  let m :=
    if protocol = IPPROTO_TCP then m.setField .tcp_src srcPort.toBitVec
    else if protocol = IPPROTO_UDP then m.setField .udp_src srcPort.toBitVec
    else if protocol = IPPROTO_ICMP then icmpMatch m srcPort.toUInt8 dstPort.toUInt8
    else m
  install_fabric_flows takesFlows sw (FABRIC_PRIORITY_FIREWALL_OUT_FLOW + priority) FABRIC_TABLE_FIREWALL_OUTTOR command
    m (qosTarget FABRIC_TABLE_QOS_OUTTOR accept)

def install_firewallIn_withoutPort_flow (srcIP dstIP srcIPMask : UINT4) (protocol : UINT1) (priority : UINT2)
    (command : Command) (accept : Bool) : List FirewallFlowMod :=
  install_fabric_flows takesFlows sw (FABRIC_PRIORITY_FIREWALL_IN_FLOW + priority) FABRIC_TABLE_FIREWALL_INVM command
    (firewallInMatch srcIP dstIP srcIPMask protocol) (qosTarget FABRIC_TABLE_QOS_INVM accept)

def install_firewallOut_withoutPort_flow (srcIP dstIP dstIPMask : UINT4) (protocol : UINT1) (priority : UINT2)
    (command : Command) (accept : Bool) : List FirewallFlowMod :=
  install_fabric_flows takesFlows sw (FABRIC_PRIORITY_FIREWALL_OUT_FLOW + priority) FABRIC_TABLE_FIREWALL_OUTTOR command
    (firewallOutMatch srcIP dstIP dstIPMask protocol) (qosTarget FABRIC_TABLE_QOS_OUTTOR accept)

def install_firewallIn_gotoController_flow (srcIP dstIP srcIPMask : UINT4) (protocol : UINT1) (priority : UINT2)
    (command : Command) (accept : Bool) : List FirewallFlowMod :=
  install_fabric_flows takesFlows sw (FABRIC_PRIORITY_FIREWALL_IN_FLOW + priority) FABRIC_TABLE_FIREWALL_INVM command
    (firewallInMatch srcIP dstIP srcIPMask protocol) (controllerTarget accept)

def install_firewallOut_gotoController_flow (srcIP dstIP dstIPMask : UINT4) (protocol : UINT1) (priority : UINT2)
    (command : Command) (accept : Bool) : List FirewallFlowMod :=
  install_fabric_flows takesFlows sw (FABRIC_PRIORITY_FIREWALL_OUT_FLOW + priority) FABRIC_TABLE_FIREWALL_OUTTOR command
    (firewallOutMatch srcIP dstIP dstIPMask protocol) (controllerTarget accept)

end CFlowMgr

namespace CFirewallPolicy

open CFlowMgr

/-- The external switch first, then the host's if it is another one. -/
def installIn (p : HostPlacement) (install : UINT8 → List FirewallFlowMod) : List FirewallFlowMod :=
  install p.extSw ++ if p.sw ≠ p.extSw then install p.sw else []

/-- The host's switch with its inner address first, then the external one if it is another one. -/
def installOut (p : HostPlacement) (install : UINT8 → UINT4 → List FirewallFlowMod) : List FirewallFlowMod :=
  install p.sw p.innerIp ++ if p.sw ≠ p.extSw then install p.extSw p.outerIp else []

/-- For a controller that is not `SLAVE`. -/
def installFirewallFlow (net : FirewallNetwork) (macAddress : HostMac) (r : CFirewallRule) (command : Command) :
    List FirewallFlowMod :=
  if macAddress = [] ∨ ¬ r.m_enabled then [] else
  let p := net.placement macAddress
  let accept := r.m_action = .FIREWALL_ACTION_ACCEPT
  match r.m_direction with
  | .FIREWALL_DIRECTION_IN =>
    if r.m_protocol = IPPROTO_ICMP then
      installIn p fun sw => install_firewallIn_withPort_flow net.takesFlows sw r.m_remoteIp p.outerIp
        r.m_remoteIpMask r.m_protocol r.m_portMin r.m_portMax r.m_priority command accept
    else if r.m_portMin = r.m_portMax then
      if r.m_portMin = 0 then
        installIn p fun sw => install_firewallIn_withoutPort_flow net.takesFlows sw r.m_remoteIp p.outerIp
          r.m_remoteIpMask r.m_protocol r.m_priority command accept
      else
        installIn p fun sw => install_firewallIn_withPort_flow net.takesFlows sw r.m_remoteIp p.outerIp
          r.m_remoteIpMask r.m_protocol r.m_portMin r.m_portMin r.m_priority command accept
    else if r.m_portMin < r.m_portMax then
      if r.m_portMax = 65535 ∧ r.m_portMin ≤ 1 then
        installIn p fun sw => install_firewallIn_withoutPort_flow net.takesFlows sw r.m_remoteIp p.outerIp
          r.m_remoteIpMask r.m_protocol r.m_priority command accept
      else
        install_firewallIn_gotoController_flow net.takesFlows p.extSw r.m_remoteIp p.outerIp r.m_remoteIpMask
          r.m_protocol r.m_priority command accept
    else []
  | .FIREWALL_DIRECTION_OUT =>
    if r.m_protocol = IPPROTO_ICMP then
      installOut p fun sw srcIP => install_firewallOut_withPort_flow net.takesFlows sw srcIP r.m_remoteIp
        r.m_remoteIpMask r.m_protocol r.m_portMin r.m_portMax r.m_priority command accept
    else if r.m_portMin = r.m_portMax then
      if r.m_portMin = 0 then
        installOut p fun sw srcIP => install_firewallOut_withoutPort_flow net.takesFlows sw srcIP r.m_remoteIp
          r.m_remoteIpMask r.m_protocol r.m_priority command accept
      else
        installOut p fun sw srcIP => install_firewallOut_withPort_flow net.takesFlows sw srcIP r.m_remoteIp
          r.m_remoteIpMask r.m_protocol r.m_portMin r.m_portMin r.m_priority command accept
    else if r.m_portMin < r.m_portMax then
      if r.m_portMax = 65535 ∧ r.m_portMin ≤ 1 then
        installOut p fun sw srcIP => install_firewallOut_withoutPort_flow net.takesFlows sw srcIP r.m_remoteIp
          r.m_remoteIpMask r.m_protocol r.m_priority command accept
      else
        install_firewallOut_gotoController_flow net.takesFlows p.sw p.innerIp r.m_remoteIp r.m_remoteIpMask
          r.m_protocol r.m_priority command accept
    else []
  | .other _ => []

end CFirewallPolicy

/-- The tables of all switches. -/
abbrev FirewallTables := UINT8 → UINT1 → Table OfMatch FirewallTarget

def FirewallTables.receive (tables : FirewallTables) (fm : FirewallFlowMod) : FirewallTables :=
  Function.update tables fm.dpid (FlowTables.receive OFPTT_ALL atLeastAsSpecific (tables fm.dpid) fm.mod)

/-- What identifies a flow. -/
structure FirewallFlow where
  dpid : UINT8
  table_id : UINT1
  fields : OfMatch
  priority : ℕ
  deriving DecidableEq

def FirewallFlowMod.flow (fm : FirewallFlowMod) : FirewallFlow :=
  ⟨fm.dpid, fm.mod.table, fm.mod.entry.fields, fm.mod.entry.priority⟩

def FirewallFlowMod.withCommand (c : Command) (fm : FirewallFlowMod) : FirewallFlowMod :=
  { fm with mod := { fm.mod with command := c } }

namespace FirewallTables

def Has (tables : FirewallTables) (k : FirewallFlow) : Prop := (tables k.dpid k.table_id).Has k.fields k.priority

variable {tables : FirewallTables} {fm : FirewallFlowMod} {l : List FirewallFlowMod} {k : FirewallFlow}

theorem flow_eq : fm.flow = k ↔
    (fm.dpid = k.dpid ∧ fm.mod.table = k.table_id) ∧
      fm.mod.entry.fields = k.fields ∧ fm.mod.entry.priority = k.priority := by
  cases k
  simp only [FirewallFlowMod.flow, FirewallFlow.mk.injEq, and_assoc]

theorem has_receive_add (hc : fm.mod.command = .add) (ht : fm.mod.table ≠ OFPTT_ALL) :
    (tables.receive fm).Has k ↔ fm.flow = k ∨ tables.Has k := by
  rw [Has, receive, FlowTables.receive, hc, flow_eq]
  simp only [if_neg ht]
  by_cases hd : fm.dpid = k.dpid
  · rw [hd, Function.update_self]
    by_cases htab : fm.mod.table = k.table_id
    · rw [htab, Function.update_self, Table.has_add, Has]
      simp
    · rw [Function.update_of_ne (Ne.symm htab), Has]
      simp [htab]
  · rw [Function.update_of_ne (Ne.symm hd), Has]
    simp [hd]

theorem has_receive_deleteStrict (hc : fm.mod.command = .deleteStrict) (ht : fm.mod.table ≠ OFPTT_ALL) :
    (tables.receive fm).Has k ↔ tables.Has k ∧ fm.flow ≠ k := by
  rw [Has, receive, FlowTables.receive, hc, Ne, flow_eq]
  by_cases hd : fm.dpid = k.dpid
  · rw [hd, Function.update_self]
    by_cases htab : fm.mod.table = k.table_id
    · simp only [htab, true_or, if_true, Table.has_delete, Has]
      simp
    · have hne : ¬ (k.table_id = fm.mod.table ∨ fm.mod.table = OFPTT_ALL) := by
        rintro (h | h)
        · exact htab h.symm
        · exact ht h
      simp only [if_neg hne, Has]
      simp [htab]
  · rw [Function.update_of_ne (Ne.symm hd), Has]
    simp [hd]

theorem has_foldl_add (h : ∀ fm ∈ l, fm.mod.command = .add ∧ fm.mod.table ≠ OFPTT_ALL) :
    (l.foldl receive tables).Has k ↔ k ∈ l.map FirewallFlowMod.flow ∨ tables.Has k := by
  induction l generalizing tables with
  | nil => simp
  | cons fm l ih =>
    obtain ⟨hfm, hl⟩ := List.forall_mem_cons.mp h
    rw [List.foldl_cons, ih hl, has_receive_add hfm.1 hfm.2, List.map_cons, List.mem_cons, eq_comm]
    tauto

theorem has_foldl_deleteStrict (h : ∀ fm ∈ l, fm.mod.command = .deleteStrict ∧ fm.mod.table ≠ OFPTT_ALL) :
    (l.foldl receive tables).Has k ↔ tables.Has k ∧ k ∉ l.map FirewallFlowMod.flow := by
  induction l generalizing tables with
  | nil => simp
  | cons fm l ih =>
    obtain ⟨hfm, hl⟩ := List.forall_mem_cons.mp h
    rw [List.foldl_cons, ih hl, has_receive_deleteStrict hfm.1 hfm.2, List.map_cons, List.mem_cons, eq_comm (a := k)]
    tauto

end FirewallTables

/-- The flow-mods differ in their command only, which is the one that is asked for, and name one table each. -/
def UniformMods (install : Command → List FirewallFlowMod) : Prop :=
  ∀ c, install c = (install .add).map (·.withCommand c) ∧
    ∀ fm ∈ install c, fm.mod.command = c ∧ fm.mod.table ≠ OFPTT_ALL

namespace UniformMods

variable {f g : Command → List FirewallFlowMod}

theorem nil : UniformMods fun _ => [] := fun _ => ⟨rfl, fun _ h => absurd h List.not_mem_nil⟩

theorem append (hf : UniformMods f) (hg : UniformMods g) : UniformMods fun c => f c ++ g c := by
  intro c
  obtain ⟨hfc, hfm⟩ := hf c
  obtain ⟨hgc, hgm⟩ := hg c
  refine ⟨?_, ?_⟩
  · rw [List.map_append, ← hfc, ← hgc]
  · intro fm h
    rcases List.mem_append.mp h with h | h
    · exact hfm fm h
    · exact hgm fm h

theorem ite {p : Prop} [Decidable p] (hf : UniformMods f) (hg : UniformMods g) :
    UniformMods fun c => if p then f c else g c := by
  split_ifs
  · exact hf
  · exact hg

theorem install_fabric_flows (takesFlows : UINT8 → Bool) (sw : UINT8) (priority : UINT2) {table_id : UINT1}
    (m : gn_oxm_t) (target : FirewallTarget) (ht : table_id ≠ OFPTT_ALL) :
    UniformMods fun c => CFlowMgr.install_fabric_flows takesFlows sw priority table_id c m target := by
  intro c
  simp only [CFlowMgr.install_fabric_flows]
  split_ifs
  · exact ⟨rfl, by simpa using ht⟩
  · exact nil c

theorem installIn {p : HostPlacement} {f : UINT8 → Command → List FirewallFlowMod} (h : ∀ sw, UniformMods (f sw)) :
    UniformMods fun c => CFirewallPolicy.installIn p (f · c) := (h p.extSw).append (ite (h p.sw) nil)

theorem installOut {p : HostPlacement} {f : UINT8 → UINT4 → Command → List FirewallFlowMod}
    (h : ∀ sw ip, UniformMods (f sw ip)) : UniformMods fun c => CFirewallPolicy.installOut p (f · · c) :=
  (h p.sw p.innerIp).append (ite (h p.extSw p.outerIp) nil)

theorem installFirewallFlow (net : FirewallNetwork) (mac : HostMac) (r : CFirewallRule) :
    UniformMods (CFirewallPolicy.installFirewallFlow net mac r) := by
  have hin : FABRIC_TABLE_FIREWALL_INVM ≠ OFPTT_ALL := by decide
  have hout : FABRIC_TABLE_FIREWALL_OUTTOR ≠ OFPTT_ALL := by decide
  unfold CFirewallPolicy.installFirewallFlow
  apply ite nil
  cases r.m_direction with
  | FIREWALL_DIRECTION_IN =>
    refine ite ?_ (ite (ite ?_ ?_) (ite (ite ?_ ?_) nil))
    · exact installIn fun sw => install_fabric_flows net.takesFlows sw _ _ _ hin
    · exact installIn fun sw => install_fabric_flows net.takesFlows sw _ _ _ hin
    · exact installIn fun sw => install_fabric_flows net.takesFlows sw _ _ _ hin
    · exact installIn fun sw => install_fabric_flows net.takesFlows sw _ _ _ hin
    · exact install_fabric_flows net.takesFlows _ _ _ _ hin
  | FIREWALL_DIRECTION_OUT =>
    refine ite ?_ (ite (ite ?_ ?_) (ite (ite ?_ ?_) nil))
    · exact installOut fun sw _ => install_fabric_flows net.takesFlows sw _ _ _ hout
    · exact installOut fun sw _ => install_fabric_flows net.takesFlows sw _ _ _ hout
    · exact installOut fun sw _ => install_fabric_flows net.takesFlows sw _ _ _ hout
    · exact installOut fun sw _ => install_fabric_flows net.takesFlows sw _ _ _ hout
    · exact install_fabric_flows net.takesFlows _ _ _ _ hout
  | other => exact nil

end UniformMods

def FirewallFlowCall.mods (net : FirewallNetwork) (call : FirewallFlowCall) : List FirewallFlowMod :=
  CFirewallPolicy.installFirewallFlow net call.macAddress call.firewallRule call.command

namespace CFirewallPolicy

variable {net : FirewallNetwork} {s s' : CFirewallPolicy} {e : SecurityGroupEvent} {p q : HostMac × CFirewallRule}
  {k : FirewallFlow} {l : List (HostMac × CFirewallRule)}

/-- The flows `installFirewallFlow` requires for a rule of a host. -/
def required (net : FirewallNetwork) (p : HostMac × CFirewallRule) : List FirewallFlow :=
  (installFirewallFlow net p.1 p.2 .add).map FirewallFlowMod.flow

theorem flows_eq_required (c : Command) :
    (installFirewallFlow net p.1 p.2 c).map FirewallFlowMod.flow = required net p := by
  rw [(UniformMods.installFirewallFlow net p.1 p.2 c).1, List.map_map]
  rfl

/-- The switches' tables after the flow-mods of all calls, empty before them. -/
def tables (net : FirewallNetwork) (s : CFirewallPolicy) : FirewallTables :=
  (s.calls.flatMap (FirewallFlowCall.mods net)).foldl FirewallTables.receive fun _ _ => .empty

theorem tables_install (calls : List FirewallFlowCall) : (s.install calls).tables net =
    (calls.flatMap (FirewallFlowCall.mods net)).foldl FirewallTables.receive (s.tables net) := by
  rw [tables, install, List.flatMap_append, List.foldl_append, tables]

theorem has_add_mods (tables : FirewallTables) (p : HostMac × CFirewallRule) (k : FirewallFlow) :
    ((FirewallFlowCall.mods net ⟨p.1, p.2, .add⟩).foldl FirewallTables.receive tables).Has k ↔
      k ∈ required net p ∨ tables.Has k :=
  FirewallTables.has_foldl_add (UniformMods.installFirewallFlow net p.1 p.2 .add).2

theorem has_deleteStrict_mods (tables : FirewallTables) (p : HostMac × CFirewallRule) (k : FirewallFlow) :
    ((FirewallFlowCall.mods net ⟨p.1, p.2, .deleteStrict⟩).foldl FirewallTables.receive tables).Has k ↔
      tables.Has k ∧ k ∉ required net p := by
  rw [← flows_eq_required .deleteStrict]
  exact FirewallTables.has_foldl_deleteStrict (UniformMods.installFirewallFlow net p.1 p.2 .deleteStrict).2

/-- The flow is one of the version that the host has where the rule is looked for. -/
def Outgoing (net : FirewallNetwork) (s : CFirewallPolicy) (q : HostMac × CFirewallRule) (k : FirewallFlow) : Prop :=
  ∃ p, s.Enforces p ∧ place p = place q ∧ k ∈ required net p

/-- The version of a rule that the host has where the rule is looked for. -/
def version (s : CFirewallPolicy) (q : HostMac × CFirewallRule) : Option CFirewallRule :=
  (findRemoteRuleList (s.m_policy q.1) q.2.m_remoteIp).bind fun ruleList => ruleList.find q.2.m_ruleId

theorem version_eq_some {old : CFirewallRule} (hs : s.Placed) :
    s.version q = some old ↔ s.Enforces (q.1, old) ∧ place (q.1, old) = place q := by
  have hplace : place (q.1, old) = place q ↔ old.m_remoteIp = q.2.m_remoteIp ∧ old.m_ruleId = q.2.m_ruleId := by
    simp only [place, Prod.mk.injEq, true_and]
  rw [hplace, Enforces, version, Option.bind_eq_some_iff]
  constructor
  · rintro ⟨ruleList, hl, hf⟩
    obtain ⟨hold, hid⟩ := KeyedList.find_eq_some.mp hf
    have hip : old.m_remoteIp = q.2.m_remoteIp := hs.found hl hold
    exact ⟨⟨ruleList, hip ▸ hl, hold⟩, hip, hid⟩
  · rintro ⟨⟨ruleList, hl, hold⟩, hip, hid⟩
    exact ⟨ruleList, hip ▸ hl, KeyedList.find_eq_some.mpr ⟨hold, hid⟩⟩

theorem not_outgoing (hs : s.Placed) (h : s.version q = none) : ¬ Outgoing net s q k := by
  rintro ⟨⟨mac, old⟩, hp, hpq, -⟩
  obtain rfl : mac = q.1 := congrArg Prod.fst hpq
  rw [(version_eq_some hs).mpr ⟨hp, hpq⟩] at h
  cases h

theorem enforces_unique (hp : s.Enforces p) (hq : s.Enforces q) (h : place p = place q) : p = q := by
  obtain ⟨mac, r⟩ := p
  obtain ⟨mac', r'⟩ := q
  obtain ⟨l, hl, hr⟩ := hp
  obtain ⟨l', hl', hr'⟩ := hq
  obtain ⟨⟨hm, hip⟩, hid⟩ := (place_eq _ mac' r').mp h
  simp only at hl hl' hm hip hid hr hr'
  rw [hm, hip, hl'] at hl
  obtain rfl := Option.some.inj hl
  rw [hm, KeyedList.eq_of_key hr hr' hid]

theorem outgoing_of_found {old : CFirewallRule} (hold : s.Enforces (q.1, old)) (hp : place (q.1, old) = place q) :
    Outgoing net s q k ↔ k ∈ required net (q.1, old) := by
  constructor
  · rintro ⟨p, hs, hpq, hk⟩
    rwa [enforces_unique hs hold (hpq.trans hp.symm)] at hk
  · intro hk
    exact ⟨_, hold, hp, hk⟩

theorem not_enforces (hs : s.Placed) {o : Option CFirewallRule} (h : s.version q = o) (ho : o ≠ some q.2) :
    ¬ s.Enforces q := by
  intro hq
  exact ho (h.symm.trans ((version_eq_some hs).mpr ⟨hq, rfl⟩))

theorem enforceCalls_eq (s : CFirewallPolicy) (q : HostMac × CFirewallRule) :
    enforceCalls q.1 ((findRemoteRuleList (s.m_policy q.1) q.2.m_remoteIp).getD .empty) q.2 =
      match s.version q with
      | none => [⟨q.1, q.2, .add⟩]
      | some old => if q.2.Compare old then [] else [⟨q.1, old, .deleteStrict⟩, ⟨q.1, q.2, .add⟩] := by
  rw [enforceCalls, version]
  cases findRemoteRuleList (s.m_policy q.1) q.2.m_remoteIp <;> rfl

theorem has_enforceGroupRule (hs : s.Placed) (q : HostMac × CFirewallRule) (k : FirewallFlow) :
    ((s.enforceGroupRule q.1 q.2).tables net).Has k ↔
      ((s.tables net).Has k ∧ (s.Enforces q ∨ ¬ Outgoing net s q k)) ∨ ¬ s.Enforces q ∧ k ∈ required net q := by
  rw [enforceGroupRule, tables_install, enforceCalls_eq]
  change ((List.flatMap _ _).foldl FirewallTables.receive (s.tables net)).Has k ↔ _
  cases hv : s.version q with
  | none =>
    have hq : ¬ s.Enforces q := not_enforces hs hv (by simp)
    have hout : ¬ Outgoing net s q k := not_outgoing hs hv
    simp only [List.flatMap_cons, List.flatMap_nil, List.append_nil, has_add_mods]
    tauto
  | some old =>
    obtain ⟨hold, hplace⟩ := (version_eq_some hs).mp hv
    by_cases hcmp : q.2.Compare old
    · obtain rfl : old = q.2 := CFirewallRule.compare_iff.mp hcmp
      simp [hcmp, show s.Enforces q from hold]
    · have hq : ¬ s.Enforces q := by
        apply not_enforces hs hv
        intro heq
        exact hcmp (CFirewallRule.compare_iff.mpr (Option.some.inj heq))
      have hdel : ((FirewallFlowCall.mods net ⟨q.1, old, .deleteStrict⟩).foldl FirewallTables.receive
          (s.tables net)).Has k ↔ (s.tables net).Has k ∧ k ∉ required net (q.1, old) :=
        has_deleteStrict_mods (s.tables net) (q.1, old) k
      rw [outgoing_of_found hold hplace]
      simp only [hcmp, Bool.false_eq_true, if_false, List.flatMap_cons, List.flatMap_nil, List.append_nil,
        List.foldl_append, has_add_mods, hdel]
      tauto

theorem has_unenforceGroupRule (hs : s.Placed) (q : HostMac × CFirewallRule) (k : FirewallFlow) :
    ((s.unenforceGroupRule q.1 q.2).tables net).Has k ↔ (s.tables net).Has k ∧ ¬ Outgoing net s q k := by
  rw [unenforceGroupRule]
  cases hl : findRemoteRuleList (s.m_policy q.1) q.2.m_remoteIp with
  | none =>
    have hout : ¬ Outgoing net s q k := not_outgoing hs (by rw [version, hl]; rfl)
    simp [hout]
  | some ruleList =>
    have hv : s.version q = ruleList.find q.2.m_ruleId := by
      rw [version, hl]
      rfl
    simp only [tables_install, unenforceCalls]
    change ((List.flatMap _ _).foldl FirewallTables.receive (s.tables net)).Has k ↔ _
    cases hf : ruleList.find q.2.m_ruleId with
    | none =>
      have hout : ¬ Outgoing net s q k := not_outgoing hs (hv.trans hf)
      simp [hout]
    | some old =>
      obtain ⟨hold, hplace⟩ := (version_eq_some hs).mp (hv.trans hf)
      rw [outgoing_of_found hold hplace]
      simp only [List.flatMap_cons, List.flatMap_nil, List.append_nil]
      exact has_deleteStrict_mods (s.tables net) (q.1, old) k

/-- The flow is taken out for a rule of the walk and put in again neither for it nor for a later one. -/
def DroppedBy (net : FirewallNetwork) (s : CFirewallPolicy) (l : List (HostMac × CFirewallRule)) (k : FirewallFlow) :
    Prop :=
  ∃ l₁ q l₂, l = l₁ ++ q :: l₂ ∧ q ∉ l₁ ∧ ¬ s.Enforces q ∧ Outgoing net s q k ∧ k ∉ required net q ∧
    ∀ q' ∈ l₂, q' ∉ l₁ → ¬ s.Enforces q' → k ∉ required net q'

theorem enforces_enforceGroupRule_of_mem (hl : Compatible (q :: l)) (hp : p ∈ l) :
    (s.enforceGroupRule q.1 q.2).Enforces p ↔ p = q ∨ s.Enforces p := by
  have hpq : place p = place q → p = q := hl p (List.mem_cons_of_mem q hp) q List.mem_cons_self
  rw [enforces_enforceGroupRule]
  tauto

theorem outgoing_enforceGroupRule (hp : place p ≠ place q) :
    Outgoing net (s.enforceGroupRule q.1 q.2) p k ↔ Outgoing net s p k := by
  constructor
  · rintro ⟨p', hp', hpp', hk⟩
    rcases (enforces_enforceGroupRule s q.1 q.2 p').mp hp' with rfl | ⟨hp', -⟩
    · exact absurd hpp'.symm hp
    · exact ⟨p', hp', hpp', hk⟩
  · rintro ⟨p', hp', hpp', hk⟩
    exact ⟨p', (enforces_enforceGroupRule s q.1 q.2 p').mpr (.inr ⟨hp', hpp'.trans_ne hp⟩), hpp', hk⟩

theorem droppedBy_cons (hl : Compatible (q :: l)) : DroppedBy net s (q :: l) k ↔
    (¬ s.Enforces q ∧ Outgoing net s q k ∧ k ∉ required net q ∧ ∀ q' ∈ l, ¬ s.Enforces q' → k ∉ required net q') ∨
      DroppedBy net (s.enforceGroupRule q.1 q.2) l k := by
  have hmem : ∀ p ∈ l, (¬ (s.enforceGroupRule q.1 q.2).Enforces p ↔ p ≠ q ∧ ¬ s.Enforces p) := by
    intro p hp
    rw [enforces_enforceGroupRule_of_mem hl hp]
    tauto
  have hplace : ∀ p ∈ l, p ≠ q → place p ≠ place q := by
    intro p hp hpq h
    exact hpq (hl p (List.mem_cons_of_mem q hp) q List.mem_cons_self h)
  constructor
  · rintro ⟨l₁, q', l₂, heq, hnot, henf, hout, hreq, hlater⟩
    cases l₁ with
    | nil =>
      obtain ⟨rfl, rfl⟩ := List.cons.inj heq
      exact .inl ⟨henf, hout, hreq, fun q' hq' => hlater q' hq' List.not_mem_nil⟩
    | cons a l₁ =>
      obtain ⟨rfl, rfl⟩ := List.cons.inj heq
      have hq' : q' ∈ l₁ ++ q' :: l₂ := by simp
      obtain ⟨hne, hnot⟩ := List.ne_and_not_mem_of_not_mem_cons hnot
      refine .inr ⟨l₁, q', l₂, rfl, hnot, (hmem q' hq').mpr ⟨hne, henf⟩,
        (outgoing_enforceGroupRule (hplace q' hq' hne)).mpr hout, hreq, ?_⟩
      intro p hp hpl henf'
      obtain ⟨hpq, henf'⟩ := (hmem p (by simp [hp])).mp henf'
      exact hlater p hp (List.not_mem_cons_of_ne_of_not_mem hpq hpl) henf'
  · rintro (⟨henf, hout, hreq, hlater⟩ | ⟨l₁, q', l₂, rfl, hnot, henf, hout, hreq, hlater⟩)
    · exact ⟨[], q, l, rfl, List.not_mem_nil, henf, hout, hreq, fun q' hq' _ => hlater q' hq'⟩
    · have hq' : q' ∈ l₁ ++ q' :: l₂ := by simp
      obtain ⟨hne, henf⟩ := (hmem q' hq').mp henf
      refine ⟨q :: l₁, q', l₂, rfl, List.not_mem_cons_of_ne_of_not_mem hne hnot, henf,
        (outgoing_enforceGroupRule (hplace q' hq' hne)).mp hout, hreq, ?_⟩
      intro p hp hpl henf'
      obtain ⟨hpq, hpl⟩ := List.ne_and_not_mem_of_not_mem_cons hpl
      exact hlater p hp hpl ((hmem p (by simp [hp])).mpr ⟨hpq, henf'⟩)

theorem has_enforceAll (hs : s.Placed) (hl : Compatible l) (k : FirewallFlow) :
    ((s.enforceAll l).tables net).Has k ↔
      ((s.tables net).Has k ∨ ∃ q ∈ l, ¬ s.Enforces q ∧ k ∈ required net q) ∧ ¬ DroppedBy net s l k := by
  induction l generalizing s with
  | nil =>
    have hno : ¬ DroppedBy net s [] k := by
      rintro ⟨l₁, q, l₂, heq, -⟩
      cases l₁ <;> cases heq
    simp [enforceAll, hno]
  | cons q l ih =>
    have hadd : (∃ p ∈ l, ¬ s.Enforces p ∧ k ∈ required net p) ↔
        (∃ p ∈ l, ¬ (s.enforceGroupRule q.1 q.2).Enforces p ∧ k ∈ required net p) ∨
          q ∈ l ∧ ¬ s.Enforces q ∧ k ∈ required net q := by
      constructor
      · rintro ⟨p, hp, henf, hk⟩
        by_cases hpq : p = q
        · subst hpq
          exact .inr ⟨hp, henf, hk⟩
        · refine .inl ⟨p, hp, ?_, hk⟩
          rw [enforces_enforceGroupRule_of_mem hl hp]
          tauto
      · rintro (⟨p, hp, henf, hk⟩ | ⟨hq, henf, hk⟩)
        · rw [enforces_enforceGroupRule_of_mem hl hp] at henf
          exact ⟨p, hp, fun h => henf (.inr h), hk⟩
        · exact ⟨q, hq, henf, hk⟩
    have hnone : (∀ p ∈ l, ¬ s.Enforces p → k ∉ required net p) ↔ ¬ ∃ p ∈ l, ¬ s.Enforces p ∧ k ∈ required net p := by
      push Not
      rfl
    rw [show s.enforceAll (q :: l) = (s.enforceGroupRule q.1 q.2).enforceAll l from rfl,
      ih (hs.enforceGroupRule q.1 q.2) hl.tail, has_enforceGroupRule hs, droppedBy_cons hl, hnone, hadd]
    simp only [List.mem_cons, exists_eq_or_imp, hadd]
    clear hadd hnone ih
    by_cases hq : s.Enforces q
    · simp only [hq, not_true, false_and, and_false, or_false, false_or, true_or, and_true]
    · by_cases hk : k ∈ required net q
      · simp only [hq, hk, not_true, not_false_iff, true_and, and_true, or_true, true_or, false_and, and_false,
          false_or]
      · simp only [hq, hk, not_false_iff, true_and, and_false, false_or, or_false]
        by_cases hlater : ∃ p ∈ l, ¬ (s.enforceGroupRule q.1 q.2).Enforces p ∧ k ∈ required net p
        · simp only [hlater, not_true, and_false, or_true, true_and, false_or]
        · simp only [hlater, not_false_iff, and_true, or_false, not_or, and_assoc]

theorem has_unenforceAll (hs : s.Placed) (l : List (HostMac × CFirewallRule)) (k : FirewallFlow) :
    ((s.unenforceAll l).tables net).Has k ↔ (s.tables net).Has k ∧ ∀ q ∈ l, ¬ Outgoing net s q k := by
  induction l generalizing s with
  | nil => simp [unenforceAll]
  | cons q l ih =>
    have hout : ¬ Outgoing net s q k → ∀ p, Outgoing net (s.unenforceGroupRule q.1 q.2) p k ↔ Outgoing net s p k := by
      intro hq p
      constructor
      · rintro ⟨p', hp', hpp', hk⟩
        exact ⟨p', ((enforces_unenforceGroupRule s q.1 q.2 p').mp hp').1, hpp', hk⟩
      · rintro ⟨p', hp', hpp', hk⟩
        exact ⟨p', (enforces_unenforceGroupRule s q.1 q.2 p').mpr ⟨hp', fun h => hq ⟨p', hp', h, hk⟩⟩, hpp', hk⟩
    rw [show s.unenforceAll (q :: l) = (s.unenforceGroupRule q.1 q.2).unenforceAll l from rfl,
      ih (hs.unenforceGroupRule q.1 q.2), has_unenforceGroupRule hs, List.forall_mem_cons, and_assoc]
    apply and_congr_right
    intro _
    apply and_congr_right
    intro hq
    simp only [hout hq]

/-- The rules an event enforces, each with its host. -/
def entering (s : CFirewallPolicy) : SecurityGroupEvent → List (HostMac × CFirewallRule)
  | .attachSecurityGroup mac _ walk => walk.map (mac, ·)
  | .createSecurityGroupRule r | .updateSecurityGroupRule r => (s.m_groupHostMap r.m_groupId).map (·, r)
  | _ => []

/-- The rules an event unenforces, each with its host. -/
def leaving (s : CFirewallPolicy) : SecurityGroupEvent → List (HostMac × CFirewallRule)
  | .detachSecurityGroup mac _ walk => walk.map (mac, ·)
  | .deleteSecurityGroupRule r =>
    match (s.m_groups r.m_groupId).find r.m_ruleId with
    | none => []
    | some old => (s.m_groupHostMap r.m_groupId).map (·, old)
  | _ => []

/-- The host has the rule after the event. -/
def StoredAfter (s : CFirewallPolicy) (e : SecurityGroupEvent) (p : HostMac × CFirewallRule) : Prop :=
  p ∈ s.entering e ∨ s.Enforces p ∧ (∀ q ∈ s.entering e, place p ≠ place q) ∧ ∀ q ∈ s.leaving e, place p ≠ place q

/-- The flow is one of a version that the event removes or replaces, and the event does not put it in again. -/
def Dropped (net : FirewallNetwork) (s : CFirewallPolicy) (e : SecurityGroupEvent) (k : FirewallFlow) : Prop :=
  DroppedBy net s (s.entering e) k ∨ ∃ q ∈ s.leaving e, Outgoing net s q k

/-- No flow that the event drops is one of a rule that is stored after it. -/
def SparesFlows (net : FirewallNetwork) (s : CFirewallPolicy) (e : SecurityGroupEvent) : Prop :=
  ∀ k, Dropped net s e k → ∀ p, s.StoredAfter e p → k ∉ required net p

/-- The switches have exactly the flows that the stored rules require. -/
def FlowsExact (net : FirewallNetwork) (s : CFirewallPolicy) : Prop :=
  ∀ k, (s.tables net).Has k ↔ ∃ mac, ∃ r ∈ s.enforced mac, k ∈ required net (mac, r)

theorem flowsExact_iff (hs : s.Placed) :
    s.FlowsExact net ↔ ∀ k, (s.tables net).Has k ↔ ∃ p, s.Enforces p ∧ k ∈ required net p := by
  have hiff : ∀ k, (∃ mac, ∃ r ∈ s.enforced mac, k ∈ required net (mac, r)) ↔
      ∃ p, s.Enforces p ∧ k ∈ required net p := by
    intro k
    simp only [mem_enforced hs, Prod.exists]
  simp only [FlowsExact, hiff]

theorem not_droppedBy_nil : ¬ DroppedBy net s [] k := by
  rintro ⟨l₁, q, l₂, heq, -⟩
  exact List.cons_ne_nil _ _ (List.append_eq_nil_iff.mp heq.symm).2

theorem compatible_entering (he : step s e = some s') : Compatible (s.entering e) := by
  cases e with
  | attachSecurityGroup mac g walk =>
    obtain ⟨hw, -⟩ : walk.Perm (s.m_groups g).toList ∧ s.attachSecurityGroup mac g walk = s' := by simpa [step] using he
    exact compatible_rules hw mac
  | createSecurityGroupRule r | updateSecurityGroupRule r => exact compatible_hosts _ r
  | detachSecurityGroup | deleteSecurityGroupRule => exact fun _ hp => absurd hp List.not_mem_nil

theorem has_step (hs : s.Placed) (he : step s e = some s') (k : FirewallFlow) :
    (s'.tables net).Has k ↔
      ((s.tables net).Has k ∨ ∃ q ∈ s.entering e, ¬ s.Enforces q ∧ k ∈ required net q) ∧ ¬ Dropped net s e k := by
  have hl : Compatible (s.entering e) := compatible_entering he
  rw [Dropped]
  cases e with
  | attachSecurityGroup mac g walk =>
    obtain ⟨-, rfl⟩ : _ ∧ s.attachSecurityGroup mac g walk = s' := by simpa [step] using he
    rw [attach_eq]
    simp only [leaving, List.not_mem_nil, false_and, exists_false, or_false]
    exact has_enforceAll (s := (s.createGroupHostListMapping g mac).createHostGroupListMapping mac g) hs hl k
  | detachSecurityGroup mac g walk =>
    obtain ⟨-, rfl⟩ : _ ∧ s.detachSecurityGroup mac g walk = s' := by simpa [step] using he
    rw [detach_eq]
    simp only [entering, List.not_mem_nil, false_and, exists_false, or_false, not_droppedBy_nil, false_or, not_exists,
      not_and]
    exact has_unenforceAll (s := (s.deleteGroupHostListMapping g mac).deleteHostGroupListMapping mac g) hs _ k
  | createSecurityGroupRule r | updateSecurityGroupRule r =>
    obtain rfl : s.createSecurityGroupRule r = s' := Option.some.inj he
    rw [create_eq]
    simp only [leaving, List.not_mem_nil, false_and, exists_false, or_false]
    exact has_enforceAll (s := s.setGroup r.m_groupId ((s.m_groups r.m_groupId).insert r)) hs hl k
  | deleteSecurityGroupRule r =>
    obtain rfl : s.deleteSecurityGroupRule r = s' := Option.some.inj he
    simp only [entering, List.not_mem_nil, false_and, exists_false, or_false, not_droppedBy_nil, false_or, not_exists,
      not_and]
    cases hf : (s.m_groups r.m_groupId).find r.m_ruleId with
    | none => simp [delete_eq_self hf, leaving, hf]
    | some old =>
      rw [delete_eq hf]
      simp only [leaving, hf]
      exact has_unenforceAll hs _ k

theorem enforces_step (he : step s e = some s') : s'.Enforces p ↔ s.StoredAfter e p := by
  rw [StoredAfter]
  cases e with
  | attachSecurityGroup mac g walk =>
    obtain ⟨hw, rfl⟩ : walk.Perm (s.m_groups g).toList ∧ s.attachSecurityGroup mac g walk = s' := by
      simpa [step] using he
    simp [enforces_attach hw, entering, leaving]
  | detachSecurityGroup mac g walk =>
    obtain ⟨-, rfl⟩ : _ ∧ s.detachSecurityGroup mac g walk = s' := by simpa [step] using he
    simp [enforces_detach, entering, leaving]
  | createSecurityGroupRule r | updateSecurityGroupRule r =>
    obtain rfl : s.createSecurityGroupRule r = s' := Option.some.inj he
    simp [enforces_create, entering, leaving]
  | deleteSecurityGroupRule r =>
    obtain rfl : s.deleteSecurityGroupRule r = s' := Option.some.inj he
    cases hf : (s.m_groups r.m_groupId).find r.m_ruleId with
    | none => simp [delete_eq_self hf, entering, leaving, hf]
    | some old => simp [enforces_delete hf, entering, leaving, hf]

/-- A flow that goes with its version comes back in the event unless it is dropped. -/
theorem stored_of_has (hk : p ∈ s.entering e ∨ s.Enforces p) (hreq : k ∈ required net p) (hd : ¬ Dropped net s e k) :
    ∃ p', s.StoredAfter e p' ∧ k ∈ required net p' := by
  rcases hk with hp | hp
  · exact ⟨p, .inl hp, hreq⟩
  · by_cases hkeep : s.StoredAfter e p
    · exact ⟨p, hkeep, hreq⟩
    · have hleave : ∀ q ∈ s.leaving e, place p ≠ place q := fun q hq hpq => hd (.inr ⟨q, hq, p, hp, hpq, hreq⟩)
      obtain ⟨q, hq, hpq⟩ : ∃ q ∈ s.entering e, place p = place q := by
        by_contra hno
        push Not at hno
        exact hkeep (.inr ⟨hp, hno, hleave⟩)
      have hne : ¬ s.Enforces q := fun hqs => hkeep (.inl (enforces_unique hp hqs hpq ▸ hq))
      obtain ⟨l₁, l₂, hl, hfirst⟩ := List.eq_append_cons_of_mem hq
      by_contra hno
      push Not at hno
      refine hd (.inl ⟨l₁, q, l₂, hl, hfirst, hne, ⟨p, hp, hpq, hreq⟩, hno q (.inl hq), ?_⟩)
      intro q' hq' _ _
      exact hno q' (.inl (hl ▸ List.mem_append_right l₁ (List.mem_cons_of_mem q hq')))

theorem flowsExact_step (hs : s.Placed) (hs' : s'.Placed) (hf : s.FlowsExact net) (he : step s e = some s') :
    s.SparesFlows net e ↔ s'.FlowsExact net := by
  rw [flowsExact_iff hs] at hf
  simp only [flowsExact_iff hs', has_step hs he, enforces_step he]
  constructor
  · intro hspare k
    constructor
    · rintro ⟨hhas, hd⟩
      rcases hhas with hhas | ⟨q, hq, -, hreq⟩
      · obtain ⟨p, hp, hreq⟩ := (hf k).mp hhas
        exact stored_of_has (.inr hp) hreq hd
      · exact ⟨q, .inl hq, hreq⟩
    · rintro ⟨p, hp, hreq⟩
      refine ⟨?_, fun hd => hspare k hd p hp hreq⟩
      by_cases hps : s.Enforces p
      · exact .inl ((hf k).mpr ⟨p, hps, hreq⟩)
      · rcases hp with hp | ⟨hp, -⟩
        · exact .inr ⟨p, hp, hps, hreq⟩
        · exact absurd hp hps
  · intro h k hd p hp hreq
    exact ((h k).mpr ⟨p, hp, hreq⟩).2 hd

theorem start_flowsExact (net : FirewallNetwork) : start.FlowsExact net := by
  intro k
  constructor
  · rintro ⟨e, he, -⟩
    cases he
  · rintro ⟨mac, r, hr, -⟩
    cases hr

/-- The switches have exactly the flows of the stored rules after every event as long as no event drops a flow that
a rule stored after it requires, and not after an event that does. -/
theorem flows_exact {net : FirewallNetwork} (h : Run step (SparesFlows net) start s) :
    s.FlowsExact net ∧ ∀ e s', step s e = some s' → (s.SparesFlows net e ↔ s'.FlowsExact net) := by
  obtain ⟨hs, hf⟩ : s.Inv ∧ s.FlowsExact net := by
    refine h.invariant (P := fun s => s.Inv ∧ s.FlowsExact net) ?_ ⟨start_inv, start_flowsExact net⟩
    rintro t e u ⟨ht, hf⟩ hspare he
    exact ⟨ht.step he, (flowsExact_step ht.placed (ht.step he).placed hf he).mp hspare⟩
  exact ⟨hf, fun e s' he => flowsExact_step hs.placed (hs.step he).placed hf he⟩

theorem sparesFlows_of_new (hs : s.Placed) (h : ∀ q, q ∈ s.entering e ∨ q ∈ s.leaving e → s.version q = none) :
    s.SparesFlows net e := by
  intro k hd
  rcases hd with ⟨l₁, q, l₂, hl, -, -, hout, -⟩ | ⟨q, hq, hout⟩
  · have hq : q ∈ s.entering e := by simp [hl]
    exact absurd hout (not_outgoing hs (h q (.inl hq)))
  · exact absurd hout (not_outgoing hs (h q (.inr hq)))

/-- One switch, which is also the external one of every host. -/
def oneSwitch : FirewallNetwork := ⟨fun _ => ⟨1, 1, 0x0a000005, 0xc0a80005⟩, fun _ => true⟩

theorem created_flowsExact : created.FlowsExact oneSwitch := by
  have hattach : start.SparesFlows oneSwitch (.attachSecurityGroup [3] [2] []) := by
    apply sparesFlows_of_new start_inv.placed
    rintro q (hq | hq) <;> exact absurd hq List.not_mem_nil
  have hcreate : attached.SparesFlows oneSwitch (.createSecurityGroupRule (portRule 0x0a000001 80)) := by
    apply sparesFlows_of_new (start_inv.step (e := .attachSecurityGroup [3] [2] []) rfl).placed
    rintro q (hq | hq)
    · obtain rfl : q = ([3], portRule 0x0a000001 80) := List.mem_singleton.mp hq
      rfl
    · exact absurd hq List.not_mem_nil
  exact (flows_exact (created_reached hattach hcreate)).1

/-- A TCP rule for a range of ports. -/
def rangeRule (ruleId : RuleId) (portMin portMax : UINT2) : CFirewallRule :=
  ⟨true, ruleId, [2], 6, .FIREWALL_DIRECTION_IN, 0x0a000001, 32, portMin, portMax, 10, .FIREWALL_ACTION_ACCEPT⟩

def ranges : CFirewallPolicy :=
  ((attached.createSecurityGroupRule (rangeRule [1] 100 200)).createSecurityGroupRule
    (rangeRule [4] 300 400)).deleteSecurityGroupRule (rangeRule [1] 100 200)

/-- Rules for two ranges of ports share a flow, which goes with the first of them. -/
theorem shared_flow_deleted : ¬ ∀ net s, Reaches step start s → s.FlowsExact net := by
  intro h
  have hexec : exec step start [.attachSecurityGroup [3] [2] [], .createSecurityGroupRule (rangeRule [1] 100 200),
      .createSecurityGroupRule (rangeRule [4] 300 400), .deleteSecurityGroupRule (rangeRule [1] 100 200)] =
      some ranges := rfl
  obtain ⟨k, hk⟩ : ∃ k, required oneSwitch ([3], rangeRule [4] 300 400) = [k] := ⟨_, rfl⟩
  have hstored : rangeRule [4] 300 400 ∈ ranges.enforced [3] := by decide
  have hreq : k ∈ required oneSwitch ([3], rangeRule [4] 300 400) := hk ▸ List.mem_singleton_self k
  obtain ⟨e, he, -⟩ := (h oneSwitch ranges (.of_exec hexec) k).mpr ⟨[3], _, hstored, hreq⟩
  have hempty : ∀ k ∈ required oneSwitch ([3], rangeRule [4] 300 400),
      (ranges.tables oneSwitch k.dpid k.table_id).entries.isEmpty = true := by decide +kernel
  rw [List.isEmpty_iff.mp (hempty k hreq)] at he
  cases he

end CFirewallPolicy

end DCFabric
