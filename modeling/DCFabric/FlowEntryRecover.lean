import DCFabric.ClusterSyncRecover

namespace DCFabric

open CFlowCache (emptyOxm)
open ListUpdates TlvStreams

def FLOW_ENTRY_SW_DPID : UINT2 := 0x0C01
def FLOW_ENTRY_UUID : UINT2 := 0x0C02
def FLOW_ENTRY_CREATE_TIME : UINT2 := 0x0C03
def FLOW_ENTRY_TABLE_ID : UINT2 := 0x0C04
def FLOW_ENTRY_IDLE_TIMEOUT : UINT2 := 0x0C05
def FLOW_ENTRY_HARD_TIMEOUT : UINT2 := 0x0C06
def FLOW_ENTRY_PRIORITY : UINT2 := 0x0C07
def FLOW_ENTRY_MATCH : UINT2 := 0x0C08
def FLOW_ENTRY_INSTRUCTIONS : UINT2 := 0x0C09
def FLOW_ENTRY_OXM_MASK : UINT2 := 0x0C31
def FLOW_ENTRY_INSTRUCION_GOTOTABLE : UINT2 := 0x0C40
def FLOW_ENTRY_INSTRUCION_WRITEMETADATA : UINT2 := 0x0C41
def FLOW_ENTRY_INSTRUCION_WRITEACTIONS : UINT2 := 0x0C42
def FLOW_ENTRY_INSTRUCION_APPLYACTIONS : UINT2 := 0x0C43
def FLOW_ENTRY_INSTRUCION_CLEARACTIONS : UINT2 := 0x0C44
def FLOW_ENTRY_INSTRUCION_METER : UINT2 := 0x0C45
def FLOW_ENTRY_INSTRUCION_EXPERIMENTER : UINT2 := 0x0C46
def FLOW_ENTRY_ACION_OUTPUT : UINT2 := 0x0C50
def FLOW_ENTRY_ACION_MPLSTTL : UINT2 := 0x0C51
def FLOW_ENTRY_ACION_PUSHVLAN : UINT2 := 0x0C52
def FLOW_ENTRY_ACION_POPVLAN : UINT2 := 0x0C53
def FLOW_ENTRY_ACION_PUSHMPLS : UINT2 := 0x0C54
def FLOW_ENTRY_ACION_POPMPLS : UINT2 := 0x0C55
def FLOW_ENTRY_ACION_SETQUEUE : UINT2 := 0x0C56
def FLOW_ENTRY_ACION_GROUP : UINT2 := 0x0C57
def FLOW_ENTRY_ACION_SETNWTTL : UINT2 := 0x0C58
def FLOW_ENTRY_ACION_SETFIELD : UINT2 := 0x0C59
def FLOW_ENTRY_ACION_PUSHPBB : UINT2 := 0x0C5a
def FLOW_ENTRY_ACION_POPPBB : UINT2 := 0x0C5b
def FLOW_ENTRY_ACION_EXPERIMENTER : UINT2 := 0x0C5c

def OFPMT_OXM : UINT2 := 1

def UUID_LEN : ℕ := 40

namespace OxmField

/-- `FLOW_ENTRY_OXM_*`. -/
def syncType : OxmField → UINT2
  | in_port => 0x0C10
  | in_phy_port => 0x0C11
  | metadata => 0x0C12
  | eth_dst => 0x0C13
  | eth_src => 0x0C14
  | eth_type => 0x0C15
  | vlan_vid => 0x0C16
  | vlan_pcp => 0x0C17
  | ip_dscp => 0x0C18
  | ip_ecn => 0x0C19
  | ip_proto => 0x0C1a
  | ipv4_src => 0x0C1b
  | ipv4_dst => 0x0C1c
  | tcp_src => 0x0C1d
  | tcp_dst => 0x0C1e
  | udp_src => 0x0C1f
  | udp_dst => 0x0C20
  | icmpv4_type => 0x0C21
  | icmpv4_code => 0x0C22
  | arp_op => 0x0C23
  | arp_spa => 0x0C24
  | arp_tpa => 0x0C25
  | arp_sha => 0x0C26
  | arp_tha => 0x0C27
  | ipv6_src => 0x0C28
  | ipv6_dst => 0x0C29
  | mpls_label => 0x0C2a
  | tunnel_id => 0x0C2b
  | ipv4_src_prefix => 0x0C2c
  | ipv4_dst_prefix => 0x0C2d
  | ipv6_src_prefix => 0x0C2e
  | ipv6_dst_prefix => 0x0C2f
  | metadata_mask => 0x0C30

theorem size_pos (f : OxmField) : 0 < f.size := by
  cases f <;> decide

theorem size_le (f : OxmField) : f.size ≤ 16 := by
  cases f <;> decide

instance (f : OxmField) : Word (BitVec (8 * f.size)) :=
  bitsWord f.size f.size_pos (f.size_le.trans_lt (by decide))

end OxmField

def gn_oxm_t.setField (oxm : gn_oxm_t) (f : OxmField) (value : BitVec (8 * f.size)) : gn_oxm_t :=
  { oxm with field := Function.update oxm.field f value }

def gn_flow_t.zero : gn_flow_t where
  uuid := []
  create_time := 0
  table_id := 0
  idle_timeout := 0
  hard_timeout := 0
  priority := 0
  gn_match := ⟨0, emptyOxm⟩
  instructions := []

/-- The locals of `recoverAddFlowEntry`. -/
structure FlowRecord where
  dpid : UINT8
  flow : gn_flow_t
  oxm : gn_oxm_t
  actions : List CFlowAction
  match_oxm : Bool

namespace FlowRecord

def zero : FlowRecord := ⟨0, .zero, emptyOxm, [], false⟩

def beginMatch (r : FlowRecord) : FlowRecord := { r with oxm := emptyOxm, match_oxm := true }

def setOxmField (r : FlowRecord) (f : OxmField) (value : BitVec (8 * f.size)) : FlowRecord :=
  { r with oxm := r.oxm.setField f value }

def setFirstField (oxm : gn_oxm_t) (actions : List CFlowAction) : List CFlowAction :=
  (updateFirst (·.type = OFPAT13_SET_FIELD) (fun _ => .set_field oxm) actions).getD actions

def setMask (r : FlowRecord) (mask : UINT8) : FlowRecord :=
  let oxm := { r.oxm with mask }
  if r.match_oxm then { r with flow := { r.flow with gn_match := ⟨OFPMT_OXM, oxm⟩ }, oxm := emptyOxm }
  else { r with actions := setFirstField oxm r.actions, oxm := emptyOxm }

def beginInstructions (r : FlowRecord) : FlowRecord :=
  { r with flow := { r.flow with instructions := [] }, oxm := emptyOxm, actions := [], match_oxm := false }

def addInstruction (r : FlowRecord) (instruct : gn_instruction_t) : FlowRecord :=
  { r with flow := { r.flow with instructions := instruct :: r.flow.instructions } }

def addAction (r : FlowRecord) (act : CFlowAction) : FlowRecord := { r with actions := act :: r.actions }

/-- `OFPIT_WRITE_ACTIONS` or `OFPIT_APPLY_ACTIONS`. -/
def hasActions : gn_instruction_t → Bool
  | .write_actions _ | .apply_actions _ => true
  | _ => false

def setActions (actions : List CFlowAction) (instruction : gn_instruction_t) : gn_instruction_t :=
  instruction.map fun _ => actions

/-- The instructions once the actions are attached to one of them. -/
def attached (r : FlowRecord) : List gn_instruction_t :=
  if r.actions = [] then r.flow.instructions
  else (updateFirst hasActions (setActions r.actions) r.flow.instructions).getD r.flow.instructions

end FlowRecord

def recoverFlowEntry : FlowRecord × ControllerTables → ControllerTables
  | (r, w) =>
    match w.getSwitchByDpid r.dpid with
    | none => w
    | some sw => w.report (.recover (CFlow.assign ⟨sw.address, sw.dpid⟩ { r.flow with instructions := r.attached }))

def flowHeaderTable : List (UINT2 × TlvField (FlowRecord × ControllerTables)) := [
  (FLOW_ENTRY_UUID, GET_DATA_STRING UUID_LEN fun uuid (r, w) => ({ r with flow := { r.flow with uuid } }, w)),
  (FLOW_ENTRY_CREATE_TIME, GET_DATA_INTEGER fun create_time (r, w) =>
    ({ r with flow := { r.flow with create_time } }, w)),
  (FLOW_ENTRY_TABLE_ID, GET_DATA_INTEGER fun table_id (r, w) => ({ r with flow := { r.flow with table_id } }, w)),
  (FLOW_ENTRY_IDLE_TIMEOUT, GET_DATA_INTEGER fun idle_timeout (r, w) =>
    ({ r with flow := { r.flow with idle_timeout } }, w)),
  (FLOW_ENTRY_HARD_TIMEOUT, GET_DATA_INTEGER fun hard_timeout (r, w) =>
    ({ r with flow := { r.flow with hard_timeout } }, w)),
  (FLOW_ENTRY_PRIORITY, GET_DATA_INTEGER fun priority (r, w) => ({ r with flow := { r.flow with priority } }, w)),
  (FLOW_ENTRY_MATCH, GET_DATA_INTEGER fun (_ : UINT1) (r, w) => (r.beginMatch, w))]

def flowOxmTable : List (UINT2 × TlvField (FlowRecord × ControllerTables)) :=
  OxmField.all.map fun f => (f.syncType, GET_DATA_BYTES fun value (r, w) => (r.setOxmField f value, w))

def flowInstructionTable : List (UINT2 × TlvField (FlowRecord × ControllerTables)) := [
  (FLOW_ENTRY_OXM_MASK, GET_DATA_INTEGER fun mask (r, w) => (r.setMask mask, w)),
  (FLOW_ENTRY_INSTRUCTIONS, GET_DATA_INTEGER fun (_ : UINT1) (r, w) => (r.beginInstructions, w)),
  (FLOW_ENTRY_INSTRUCION_GOTOTABLE, GET_DATA_INTEGER fun table_id (r, w) =>
    (r.addInstruction (.goto_table table_id), w)),
  (FLOW_ENTRY_INSTRUCION_WRITEMETADATA, GET_DATA_BYTES fun (metas : UINT8 × UINT8) (r, w) =>
    (r.addInstruction (.write_metadata metas.1 metas.2), w)),
  (FLOW_ENTRY_INSTRUCION_WRITEACTIONS, GET_DATA_INTEGER fun (_ : UINT1) (r, w) =>
    (r.addInstruction (.write_actions []), w)),
  (FLOW_ENTRY_INSTRUCION_APPLYACTIONS, GET_DATA_INTEGER fun (_ : UINT1) (r, w) =>
    (r.addInstruction (.apply_actions []), w)),
  (FLOW_ENTRY_INSTRUCION_CLEARACTIONS, GET_DATA_INTEGER fun (_ : UINT1) (r, w) =>
    (r.addInstruction .clear_actions, w)),
  (FLOW_ENTRY_INSTRUCION_METER, GET_DATA_INTEGER fun meter_id (r, w) => (r.addInstruction (.meter meter_id), w)),
  (FLOW_ENTRY_INSTRUCION_EXPERIMENTER, GET_DATA_BYTES fun (experimenter : UINT4 × UINT4) (r, w) =>
    (r.addInstruction (.experimenter experimenter.1.toUInt16 experimenter.2), w))]

def flowActionTable : List (UINT2 × TlvField (FlowRecord × ControllerTables)) := [
  (FLOW_ENTRY_ACION_OUTPUT, GET_DATA_INTEGER fun port (r, w) => (r.addAction (.output port), w)),
  (FLOW_ENTRY_ACION_MPLSTTL, GET_DATA_INTEGER fun mpls_tt (r, w) => (r.addAction (.mpls_ttl mpls_tt), w)),
  (FLOW_ENTRY_ACION_PUSHVLAN, GET_DATA_INTEGER fun (_ : UINT1) (r, w) => (r.addAction .push_vlan, w)),
  (FLOW_ENTRY_ACION_POPVLAN, GET_DATA_INTEGER fun (_ : UINT1) (r, w) => (r.addAction .pop_vlan, w)),
  (FLOW_ENTRY_ACION_PUSHMPLS, GET_DATA_INTEGER fun (_ : UINT1) (r, w) => (r.addAction .push_mpls, w)),
  (FLOW_ENTRY_ACION_POPMPLS, GET_DATA_INTEGER fun (_ : UINT1) (r, w) => (r.addAction .pop_mpls, w)),
  (FLOW_ENTRY_ACION_SETQUEUE, GET_DATA_INTEGER fun queue_id (r, w) => (r.addAction (.set_queue queue_id), w)),
  (FLOW_ENTRY_ACION_GROUP, GET_DATA_INTEGER fun group_id (r, w) => (r.addAction (.group group_id), w)),
  (FLOW_ENTRY_ACION_SETNWTTL, GET_DATA_INTEGER fun nw_tt (r, w) => (r.addAction (.set_nw_ttl nw_tt), w)),
  (FLOW_ENTRY_ACION_SETFIELD, GET_DATA_INTEGER fun (_ : UINT1) (r, w) => (r.addAction (.set_field emptyOxm), w)),
  (FLOW_ENTRY_ACION_PUSHPBB, GET_DATA_INTEGER fun (_ : UINT1) (r, w) => (r.addAction .push_pbb, w)),
  (FLOW_ENTRY_ACION_POPPBB, GET_DATA_INTEGER fun (_ : UINT1) (r, w) => (r.addAction .pop_pbb, w)),
  (FLOW_ENTRY_ACION_EXPERIMENTER, GET_DATA_INTEGER fun experimenter (r, w) =>
    (r.addAction (.experimenter experimenter), w))]

/-- The cases of a flow entry after the dpid of its switch. -/
def flowEntryTable : List (UINT2 × TlvField (FlowRecord × ControllerTables)) :=
  flowHeaderTable ++ flowOxmTable ++ flowInstructionTable ++ flowActionTable

def recoverFlowEntryList : Recover FlowRecord where
  clear w := { w with flowCache := .clear }
  locals := .zero
  rejected := BNC_ERR
  firstType := FLOW_ENTRY_SW_DPID
  first := GET_DATA_INTEGER fun dpid (r, w) => ({ r with dpid }, w)
  table :=
    (FLOW_ENTRY_SW_DPID, GET_DATA_INTEGER fun dpid s => ({ FlowRecord.zero with dpid }, recoverFlowEntry s)) ::
      flowEntryTable
  finish s := (BNC_OK, recoverFlowEntry s)

def recoverAddFlowEntry : Recover FlowRecord where
  clear w := w
  locals := .zero
  rejected := BNC_ERR
  firstType := FLOW_ENTRY_SW_DPID
  first := GET_DATA_INTEGER fun dpid (r, w) => ({ r with dpid }, w)
  table := flowEntryTable
  finish s := (BNC_OK, recoverFlowEntry s)

def recoverDelFlowEntry (m : Memory) (data len : ℕ) (w : ControllerTables) : INT4 × ControllerTables :=
  if len < 4 then (BNC_ERR, w)
  else
    let v := visit m data
    if len < 4 + v.len ∨ v.type ≠ FLOW_ENTRY_SW_DPID then (BNC_ERR, w)
    else
      let dpid : UINT8 := Word.ofNat (leNat (v.value m (.fixed 8)))
      let data := data + 4 + v.len
      let len := len - (4 + v.len)
      let v := visit m data
      if len < 4 + v.len ∨ v.type ≠ FLOW_ENTRY_UUID then (BNC_ERR, w)
      else
        let uuid := cstring (v.value m (.text UUID_LEN)).dropLast
        match w.getSwitchByDpid dpid with
        | none => (BNC_OK, w)
        | some sw =>
          (BNC_OK, w.report (.delStrict
            (CFlow.assign ⟨sw.address, sw.dpid⟩ { gn_flow_t.zero with uuid := uuid.take (UUID_LEN - 1) })))

end DCFabric
