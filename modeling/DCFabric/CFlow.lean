import DCFabric.BncTypes
import DCFabric.SortedMaps

namespace DCFabric

open SortedMaps

inductive OxmField where
  | in_port | in_phy_port | metadata | eth_dst | eth_src | eth_type | vlan_vid | vlan_pcp
  | ip_dscp | ip_ecn | ip_proto | ipv4_src | ipv4_dst | tcp_src | tcp_dst | udp_src | udp_dst
  | icmpv4_type | icmpv4_code | arp_op | arp_spa | arp_tpa | arp_sha | arp_tha | ipv6_src | ipv6_dst
  | mpls_label | tunnel_id | ipv4_src_prefix | ipv4_dst_prefix | ipv6_src_prefix | ipv6_dst_prefix | metadata_mask
deriving DecidableEq

namespace OxmField

/-- The fields in the order of `gn_oxm_t`. -/
def all : List OxmField :=
  [in_port, in_phy_port, metadata, eth_dst, eth_src, eth_type, vlan_vid, vlan_pcp, ip_dscp, ip_ecn, ip_proto,
    ipv4_src, ipv4_dst, tcp_src, tcp_dst, udp_src, udp_dst, icmpv4_type, icmpv4_code, arp_op, arp_spa, arp_tpa,
    arp_sha, arp_tha, ipv6_src, ipv6_dst, mpls_label, tunnel_id, ipv4_src_prefix, ipv4_dst_prefix, ipv6_src_prefix,
    ipv6_dst_prefix, metadata_mask]

theorem mem_all (f : OxmField) : f ∈ all := by
  cases f <;> decide

instance : Fintype OxmField := ⟨⟨all, by decide⟩, mem_all⟩

/-- The number of bytes of the field in `gn_oxm_t`. -/
def size : OxmField → ℕ
  | in_port => 4
  | in_phy_port => 4
  | metadata => 8
  | eth_dst => 6
  | eth_src => 6
  | eth_type => 2
  | vlan_vid => 2
  | vlan_pcp => 1
  | ip_dscp => 1
  | ip_ecn => 1
  | ip_proto => 1
  | ipv4_src => 4
  | ipv4_dst => 4
  | tcp_src => 2
  | tcp_dst => 2
  | udp_src => 2
  | udp_dst => 2
  | icmpv4_type => 1
  | icmpv4_code => 1
  | arp_op => 1
  | arp_spa => 4
  | arp_tpa => 4
  | arp_sha => 6
  | arp_tha => 6
  | ipv6_src => 16
  | ipv6_dst => 16
  | mpls_label => 4
  | tunnel_id => 4
  | ipv4_src_prefix => 4
  | ipv4_dst_prefix => 4
  | ipv6_src_prefix => 4
  | ipv6_dst_prefix => 4
  | metadata_mask => 8

/-- `OFPXMT_OFB_*`, the bit of the field in the mask of `gn_oxm_t`. -/
def bit : OxmField → UINT8
  | in_port => 0
  | in_phy_port => 1
  | metadata => 2
  | eth_dst => 3
  | eth_src => 4
  | eth_type => 5
  | vlan_vid => 6
  | vlan_pcp => 7
  | ip_dscp => 8
  | ip_ecn => 9
  | ip_proto => 10
  | ipv4_src => 11
  | ipv4_dst => 12
  | tcp_src => 13
  | tcp_dst => 14
  | udp_src => 15
  | udp_dst => 16
  | icmpv4_type => 19
  | icmpv4_code => 20
  | arp_op => 21
  | arp_spa => 22
  | arp_tpa => 23
  | arp_sha => 24
  | arp_tha => 25
  | ipv6_src => 26
  | ipv6_dst => 27
  | mpls_label => 34
  | tunnel_id => 38
  | ipv4_src_prefix => 40
  | ipv4_dst_prefix => 41
  | ipv6_src_prefix => 42
  | ipv6_dst_prefix => 43
  | metadata_mask => 44

/-- The fields `CFlow::match` compares, in its order. -/
def compared : List OxmField :=
  [in_port, in_phy_port, metadata, eth_dst, eth_src, eth_type, vlan_vid, vlan_pcp, ip_dscp, ip_ecn, ip_proto,
    ipv4_src, ipv4_dst, tcp_src, tcp_dst, udp_src, udp_dst, icmpv4_type, icmpv4_code, arp_op, arp_spa, arp_tpa,
    arp_sha, arp_tha, ipv6_src, ipv6_dst, mpls_label, tunnel_id]

end OxmField

def MASK_SET : UINT8 := 1

def IS_MASK_SET (set mask : UINT8) : Bool := set &&& (MASK_SET <<< mask) ≠ 0

/-- The fields of a byte array are its bytes, the first byte lowest. -/
structure gn_oxm_t where
  field : (f : OxmField) → BitVec (8 * f.size)
  mask : UINT8
deriving DecidableEq

def gn_oxm_t.isSet (oxm : gn_oxm_t) (f : OxmField) : Bool := IS_MASK_SET oxm.mask f.bit

structure gn_match_t where
  type : UINT2
  oxm_fields : gn_oxm_t
deriving DecidableEq

def OFPAT13_OUTPUT : UINT2 := 0
def OFPAT13_COPY_TTL_OUT : UINT2 := 11
def OFPAT13_COPY_TTL_IN : UINT2 := 12
def OFPAT13_MPLS_TTL : UINT2 := 15
def OFPAT13_DEC_MPLS_TTL : UINT2 := 16
def OFPAT13_PUSH_VLAN : UINT2 := 17
def OFPAT13_POP_VLAN : UINT2 := 18
def OFPAT13_PUSH_MPLS : UINT2 := 19
def OFPAT13_POP_MPLS : UINT2 := 20
def OFPAT13_SET_QUEUE : UINT2 := 21
def OFPAT13_GROUP : UINT2 := 22
def OFPAT13_SET_NW_TTL : UINT2 := 23
def OFPAT13_DEC_NW_TTL : UINT2 := 24
def OFPAT13_SET_FIELD : UINT2 := 25
def OFPAT13_PUSH_PBB : UINT2 := 26
def OFPAT13_POP_PBB : UINT2 := 27
def OFPAT13_EXPERIMENTER : UINT2 := 0xffff

def ofp13_action_type : List UINT2 :=
  [OFPAT13_OUTPUT, OFPAT13_COPY_TTL_OUT, OFPAT13_COPY_TTL_IN, OFPAT13_MPLS_TTL, OFPAT13_DEC_MPLS_TTL,
    OFPAT13_PUSH_VLAN, OFPAT13_POP_VLAN, OFPAT13_PUSH_MPLS, OFPAT13_POP_MPLS, OFPAT13_SET_QUEUE, OFPAT13_GROUP,
    OFPAT13_SET_NW_TTL, OFPAT13_DEC_NW_TTL, OFPAT13_SET_FIELD, OFPAT13_PUSH_PBB, OFPAT13_POP_PBB,
    OFPAT13_EXPERIMENTER]

/-- A `gn_action_t` with the members `CFlowInstruction::addAction` copies for its type. -/
inductive CFlowAction where
  | output (port : UINT4)
  | copy_ttl_out
  | copy_ttl_in
  | mpls_ttl (mpls_tt : UINT1)
  | dec_mpls_ttl
  | push_vlan
  | pop_vlan
  | push_mpls
  | pop_mpls
  | set_queue (queue_id : UINT4)
  | group (group_id : UINT4)
  | set_nw_ttl (nw_tt : UINT1)
  | dec_nw_ttl
  | set_field (oxm_fields : gn_oxm_t)
  | push_pbb
  | pop_pbb
  | experimenter (experimenter : UINT4)
  | other (type : UINT2) (unknown : type ∉ ofp13_action_type)
deriving DecidableEq

inductive gn_action_t where
  | output (port : UINT4) (max_len : UINT2)
  | copy_ttl_out
  | copy_ttl_in
  | mpls_ttl (mpls_tt : UINT1)
  | dec_mpls_ttl
  | push_vlan
  | pop_vlan
  | push_mpls
  | pop_mpls
  | set_queue (queue_id : UINT4)
  | group (group_id : UINT4)
  | set_nw_ttl (nw_tt : UINT1)
  | dec_nw_ttl
  | set_field (oxm_fields : gn_oxm_t)
  | push_pbb
  | pop_pbb
  | experimenter (experimenter : UINT4)
  | other (type : UINT2) (unknown : type ∉ ofp13_action_type)
deriving DecidableEq

def CFlowAction.type : CFlowAction → UINT2
  | output _ => OFPAT13_OUTPUT
  | copy_ttl_out => OFPAT13_COPY_TTL_OUT
  | copy_ttl_in => OFPAT13_COPY_TTL_IN
  | mpls_ttl _ => OFPAT13_MPLS_TTL
  | dec_mpls_ttl => OFPAT13_DEC_MPLS_TTL
  | push_vlan => OFPAT13_PUSH_VLAN
  | pop_vlan => OFPAT13_POP_VLAN
  | push_mpls => OFPAT13_PUSH_MPLS
  | pop_mpls => OFPAT13_POP_MPLS
  | set_queue _ => OFPAT13_SET_QUEUE
  | group _ => OFPAT13_GROUP
  | set_nw_ttl _ => OFPAT13_SET_NW_TTL
  | dec_nw_ttl => OFPAT13_DEC_NW_TTL
  | set_field _ => OFPAT13_SET_FIELD
  | push_pbb => OFPAT13_PUSH_PBB
  | pop_pbb => OFPAT13_POP_PBB
  | experimenter _ => OFPAT13_EXPERIMENTER
  | other type _ => type

abbrev CFlowActionMap := KeyedMap CFlowAction (·.type.toNat)

def OFPIT_GOTO_TABLE : UINT2 := 1
def OFPIT_WRITE_METADATA : UINT2 := 2
def OFPIT_WRITE_ACTIONS : UINT2 := 3
def OFPIT_APPLY_ACTIONS : UINT2 := 4
def OFPIT_CLEAR_ACTIONS : UINT2 := 5
def OFPIT_METER : UINT2 := 6
def OFPIT_EXPERIMENTER : UINT2 := 0xFFFF

def ofp_instruction_type : List UINT2 :=
  [OFPIT_GOTO_TABLE, OFPIT_WRITE_METADATA, OFPIT_WRITE_ACTIONS, OFPIT_APPLY_ACTIONS, OFPIT_CLEAR_ACTIONS,
    OFPIT_METER, OFPIT_EXPERIMENTER]

/-- An instruction with its actions in a container `A`: a linked list in `gn_flow_t`, a map in `CFlow`. -/
inductive Instruction (A : Type) where
  | goto_table (table_id : UINT1)
  | write_metadata (metadata metadata_mask : UINT8)
  | write_actions (actions : A)
  | apply_actions (actions : A)
  | clear_actions
  | meter (meter_id : UINT4)
  | experimenter (len : UINT2) (experimenter : UINT4)
  | other (type : UINT2) (unknown : type ∉ ofp_instruction_type)
deriving DecidableEq

/-- An `action_param_t` of an instruction, with what is read at its `param`. -/
inductive InstructionParam where
  | goto_table (table_id : UINT1)
  | write_metadata (metadata metadata_mask : UINT8)
  | write_actions
  | apply_actions
  | clear_actions
  | meter (meter_id : UINT4)
  | experimenter (experimenter : UINT4)
  | other (type : UINT2) (unknown : type ∉ ofp_instruction_type)
deriving DecidableEq

namespace Instruction

variable {A B : Type}

def type : Instruction A → UINT2
  | goto_table _ => OFPIT_GOTO_TABLE
  | write_metadata _ _ => OFPIT_WRITE_METADATA
  | write_actions _ => OFPIT_WRITE_ACTIONS
  | apply_actions _ => OFPIT_APPLY_ACTIONS
  | clear_actions => OFPIT_CLEAR_ACTIONS
  | meter _ => OFPIT_METER
  | experimenter _ _ => OFPIT_EXPERIMENTER
  | other type _ => type

def map (g : A → B) : Instruction A → Instruction B
  | goto_table table_id => goto_table table_id
  | write_metadata metadata metadata_mask => write_metadata metadata metadata_mask
  | write_actions actions => write_actions (g actions)
  | apply_actions actions => apply_actions (g actions)
  | clear_actions => clear_actions
  | meter meter_id => meter meter_id
  | experimenter len exp => experimenter len exp
  | other type unknown => other type unknown

end Instruction

abbrev gn_instruction_t := Instruction (List CFlowAction)

abbrev CFlowInstruction := Instruction CFlowActionMap

abbrev CFlowInstructionMap := KeyedMap CFlowInstruction (·.type.toNat)

structure gn_flow_t where
  uuid : List UINT1
  create_time : UINT8
  table_id : UINT1
  idle_timeout : UINT2
  hard_timeout : UINT2
  priority : UINT2
  gn_match : gn_match_t
  instructions : List gn_instruction_t
deriving DecidableEq

/-- A `CSmartPtr<CSwitch>` that is not null, with the dpid of the object at its address. -/
structure CSwitchPtr where
  address : ℕ
  dpid : UINT8
deriving DecidableEq

structure CFlow where
  m_sw : CSwitchPtr
  m_uuid : List UINT1
  m_create_time : UINT8
  m_table_id : UINT1
  m_idle_timeout : UINT2
  m_hard_timeout : UINT2
  m_priority : UINT2
  m_match : gn_match_t
  m_instructions : CFlowInstructionMap
deriving DecidableEq

namespace CFlow

def addAction (actions : CFlowActionMap) (action : CFlowAction) : CFlowActionMap := actions.insert action

def addInstruction (instructions : CFlowInstructionMap) (instruction : gn_instruction_t) : CFlowInstructionMap :=
  instructions.insert (instruction.map (·.foldl addAction .empty))

/-- `CFlow::assign` on a flow that was set to a switch and has no instructions. -/
def assign (sw : CSwitchPtr) (flow : gn_flow_t) : CFlow where
  m_sw := sw
  m_uuid := flow.uuid
  m_create_time := flow.create_time
  m_table_id := flow.table_id
  m_idle_timeout := flow.idle_timeout
  m_hard_timeout := flow.hard_timeout
  m_priority := flow.priority
  m_match := flow.gn_match
  m_instructions := flow.instructions.foldl addInstruction .empty

/-- Whether `CFlow::match` takes the values of a field as equal in two different objects: the addresses of the
arrays `arp_sha` and `arp_tha` are compared. -/
def sameField (f : OxmField) (oxm m_oxm : gn_oxm_t) : Bool :=
  match f with
  | .arp_sha | .arp_tha => false
  | f => oxm.field f = m_oxm.field f

/-- `CFlow::match`, on the entry `e`. -/
def matchFlow (e flow : CFlow) : Bool :=
  e.m_sw = flow.m_sw && e.m_table_id = flow.m_table_id &&
    OxmField.compared.all fun f =>
      !flow.m_match.oxm_fields.isSet f ||
        (e.m_match.oxm_fields.isSet f && sameField f flow.m_match.oxm_fields e.m_match.oxm_fields)

def matchStrict (e flow : CFlow) : Bool :=
  e.m_sw = flow.m_sw && e.m_idle_timeout = flow.m_idle_timeout && e.m_hard_timeout = flow.m_hard_timeout &&
    e.m_priority = flow.m_priority && e.m_table_id = flow.m_table_id && e.m_match = flow.m_match

variable {a b c : CFlow}

theorem matchStrict_iff :
    a.matchStrict b ↔ a.m_sw = b.m_sw ∧ a.m_idle_timeout = b.m_idle_timeout ∧ a.m_hard_timeout = b.m_hard_timeout ∧
      a.m_priority = b.m_priority ∧ a.m_table_id = b.m_table_id ∧ a.m_match = b.m_match := by
  simp only [matchStrict, Bool.and_eq_true, decide_eq_true_eq, and_assoc]

theorem matchStrict_refl (a : CFlow) : a.matchStrict a := by
  simp [matchStrict_iff]

theorem matchStrict_symm (h : a.matchStrict b) : b.matchStrict a := by
  obtain ⟨h₁, h₂, h₃, h₄, h₅, h₆⟩ := matchStrict_iff.mp h
  exact matchStrict_iff.mpr ⟨h₁.symm, h₂.symm, h₃.symm, h₄.symm, h₅.symm, h₆.symm⟩

end CFlow

end DCFabric
