import DCFabric.ClusterRecvWorker
import DCFabric.ClusterSyncRequests
import DCFabric.TlvRecords

namespace DCFabric

open TlvStreams

abbrev SYNC_DATA_INTEGER {α : Type} [Word α] (fieldType : UINT2) (intVal : α) : Tlv := .word fieldType intVal

abbrev SYNC_DATA_BYTES {α : Type} [Word α] (fieldType : UINT2) (bytes : α) : Tlv := .word fieldType bytes

abbrev SYNC_DATA_STRING (fieldType : UINT2) (str : List UINT1) : Tlv := .text fieldType str

/-- What the loops below write for one record, as far as there is room. -/
def syncHost (host : CHost) : List Tlv :=
  SYNC_DATA_INTEGER HOST_TYPE host.m_enType ::
    (SYNC_DATA_BYTES HOST_MAC host.m_oMac :: host.getIpList.map (SYNC_DATA_INTEGER HOST_IP) ++ [
      SYNC_DATA_INTEGER HOST_SW_DPID host.m_iDpid,
      SYNC_DATA_INTEGER HOST_SW_PORT host.m_iPortNo,
      SYNC_DATA_STRING HOST_SUBNET_ID host.m_strSubnetId,
      SYNC_DATA_STRING HOST_TENANT_ID host.m_strTenantId,
      SYNC_DATA_INTEGER HOST_FIXED_IP host.getfixIp])

def syncHostList0 (w : ControllerTables) : List Tlv := (w.hostMgr.m_list.filter (·.ip ≠ 0)).flatMap syncHost

def syncNatIcmp (entry : CNatIcmpEntry) : List Tlv := [
  SYNC_DATA_INTEGER NAT_ICMP_IDENTIFIER entry.m_identifier,
  SYNC_DATA_INTEGER NAT_ICMP_HOST_IP entry.m_host_ip,
  SYNC_DATA_BYTES NAT_ICMP_MAC entry.m_host_mac,
  SYNC_DATA_INTEGER NAT_ICMP_SW_DPID entry.m_sw_dpid,
  SYNC_DATA_INTEGER NAT_ICMP_INPORT entry.m_inport]

def syncNatIcmpList0 (w : ControllerTables) : List Tlv := w.natIcmpMap.toList.flatMap syncNatIcmp

def syncNatHost (proto : UINT1) (snatConn : CSNatConn) : List Tlv := [
  SYNC_DATA_INTEGER NAT_HOST_PROTOCOL proto,
  SYNC_DATA_INTEGER NAT_HOST_EXTERNAL_IP snatConn.m_external_ip,
  SYNC_DATA_INTEGER NAT_HOST_SNAT_IP snatConn.m_snat_ip,
  SYNC_DATA_INTEGER NAT_HOST_SNAT_PORT snatConn.m_snat_port,
  SYNC_DATA_INTEGER NAT_HOST_INTERNAL_IP snatConn.m_internal_ip,
  SYNC_DATA_INTEGER NAT_HOST_INTERNAL_PORT snatConn.m_internal_port,
  SYNC_DATA_BYTES NAT_HOST_INTERNAL_MAC snatConn.m_internal_mac,
  SYNC_DATA_INTEGER NAT_HOST_GATEWAY_DPID snatConn.m_gateway_dpid,
  SYNC_DATA_INTEGER NAT_HOST_SWITCH_DPID snatConn.m_switch_dpid]

/-- The protocol that is sent in the loops over `m_tcpHosts` and over `m_udpHosts`. -/
def CSNatConn.hostsProto (snatConn : CSNatConn) : UINT1 :=
  if snatConn.m_proto = IPPROTO_TCP then IPPROTO_TCP else IPPROTO_UDP

def syncNatHostList0 (w : ControllerTables) : List Tlv :=
  w.snatConns.toList.flatMap fun snatConn => syncNatHost snatConn.hostsProto snatConn

def syncAddNatHost0 (snatConn : CSNatConn) : List Tlv := syncNatHost snatConn.m_proto snatConn

def syncDelNatHost0 (snatConn : CSNatConn) : List Tlv := syncNatHost snatConn.m_proto snatConn

def NEIGH_STATE_DELETED : INT4 := 2

/-- The states below `SW_STATE_POWER_OFF`. -/
def SwitchState.isOn : SwitchState → Bool
  | powerOff | closing | closed => false
  | _ => true

def ControllerTables.sendsLink (w : ControllerTables) (dpid : UINT8) (neigh : Neighbor) : Bool :=
  match w.getSwitchByDpid dpid with
  | none => false
  | some sw => sw.state.isOn && neigh.state.toInt4 ≠ NEIGH_STATE_DELETED

def syncTopoLink0 (neigh : Neighbor) : List Tlv := [
  SYNC_DATA_INTEGER TOPO_LINK_STATE neigh.state.toInt4,
  SYNC_DATA_INTEGER TOPO_LINK_SRC_DPID neigh.srcDpid,
  SYNC_DATA_INTEGER TOPO_LINK_SRC_PORT neigh.srcPort,
  SYNC_DATA_INTEGER TOPO_LINK_DST_DPID neigh.dstDpid,
  SYNC_DATA_INTEGER TOPO_LINK_DST_PORT neigh.dstPort,
  SYNC_DATA_INTEGER TOPO_LINK_WEIGHT neigh.weight]

def syncTopoLinkList0 (w : ControllerTables) : List Tlv :=
  ((w.neighbors.entries.filter fun e => w.sendsLink e.1 e.2.2).map (·.2.2)).flatMap syncTopoLink0

def syncSwitchTag0 (dpid : UINT8) (tag : UINT4) : List Tlv := [
  SYNC_DATA_INTEGER SW_TAG_DPID dpid,
  SYNC_DATA_INTEGER SW_TAG_TAG tag]

def syncSwitchTagList0 (w : ControllerTables) : List Tlv :=
  (w.switches.filter (·.dpid ≠ 0)).flatMap fun sw => syncSwitchTag0 sw.dpid sw.tag

def syncTagInfo0 (w : ControllerTables) : Tlv := ⟨TAG_INFO_VALUE, w.tagMgr.m_bitset.serialize⟩

def syncOxmFields (oxm : gn_oxm_t) : List Tlv :=
  (OxmField.all.filter oxm.isSet).map (fun f => SYNC_DATA_BYTES f.syncType (oxm.field f)) ++
    [SYNC_DATA_INTEGER FLOW_ENTRY_OXM_MASK oxm.mask]

def syncAction : CFlowAction → List Tlv
  | .output port => [SYNC_DATA_INTEGER FLOW_ENTRY_ACION_OUTPUT port]
  | .mpls_ttl mpls_tt => [SYNC_DATA_INTEGER FLOW_ENTRY_ACION_MPLSTTL mpls_tt]
  | .push_vlan => [SYNC_DATA_INTEGER FLOW_ENTRY_ACION_PUSHVLAN (1 : UINT1)]
  | .pop_vlan => [SYNC_DATA_INTEGER FLOW_ENTRY_ACION_POPVLAN (1 : UINT1)]
  | .push_mpls => [SYNC_DATA_INTEGER FLOW_ENTRY_ACION_PUSHMPLS (1 : UINT1)]
  | .pop_mpls => [SYNC_DATA_INTEGER FLOW_ENTRY_ACION_POPMPLS (1 : UINT1)]
  | .set_queue queue_id => [SYNC_DATA_INTEGER FLOW_ENTRY_ACION_SETQUEUE queue_id]
  | .group group_id => [SYNC_DATA_INTEGER FLOW_ENTRY_ACION_GROUP group_id]
  | .set_nw_ttl nw_tt => [SYNC_DATA_INTEGER FLOW_ENTRY_ACION_SETNWTTL nw_tt]
  | .set_field oxm_fields => SYNC_DATA_INTEGER FLOW_ENTRY_ACION_SETFIELD (1 : UINT1) :: syncOxmFields oxm_fields
  | .push_pbb => [SYNC_DATA_INTEGER FLOW_ENTRY_ACION_PUSHPBB (1 : UINT1)]
  | .pop_pbb => [SYNC_DATA_INTEGER FLOW_ENTRY_ACION_POPPBB (1 : UINT1)]
  | .experimenter experimenter => [SYNC_DATA_INTEGER FLOW_ENTRY_ACION_EXPERIMENTER experimenter]
  | .copy_ttl_out | .copy_ttl_in | .dec_mpls_ttl | .dec_nw_ttl | .other _ _ => []

def syncInstruction : CFlowInstruction → List Tlv
  | .goto_table table_id => [SYNC_DATA_INTEGER FLOW_ENTRY_INSTRUCION_GOTOTABLE table_id]
  | .write_metadata metadata metadata_mask =>
    [SYNC_DATA_BYTES FLOW_ENTRY_INSTRUCION_WRITEMETADATA (metadata, metadata_mask)]
  | .write_actions actions =>
    SYNC_DATA_INTEGER FLOW_ENTRY_INSTRUCION_WRITEACTIONS (1 : UINT1) :: actions.toList.flatMap syncAction
  | .apply_actions actions =>
    SYNC_DATA_INTEGER FLOW_ENTRY_INSTRUCION_APPLYACTIONS (1 : UINT1) :: actions.toList.flatMap syncAction
  | .clear_actions => [SYNC_DATA_INTEGER FLOW_ENTRY_INSTRUCION_CLEARACTIONS (1 : UINT1)]
  | .meter meter_id => [SYNC_DATA_INTEGER FLOW_ENTRY_INSTRUCION_METER meter_id]
  | .experimenter len experimenter =>
    [SYNC_DATA_BYTES FLOW_ENTRY_INSTRUCION_WRITEMETADATA (len.toUInt32, experimenter)]
  | .other _ _ => []

/-- What `syncAddFlowEntry0` and the loop of `syncFlowEntryList0` write for an entry. -/
def syncFlowEntry (dpid : UINT8) (flow : CFlow) : List Tlv :=
  SYNC_DATA_INTEGER FLOW_ENTRY_SW_DPID dpid :: ([
    SYNC_DATA_STRING FLOW_ENTRY_UUID flow.m_uuid,
    SYNC_DATA_INTEGER FLOW_ENTRY_CREATE_TIME flow.m_create_time,
    SYNC_DATA_INTEGER FLOW_ENTRY_TABLE_ID flow.m_table_id,
    SYNC_DATA_INTEGER FLOW_ENTRY_IDLE_TIMEOUT flow.m_idle_timeout,
    SYNC_DATA_INTEGER FLOW_ENTRY_HARD_TIMEOUT flow.m_hard_timeout,
    SYNC_DATA_INTEGER FLOW_ENTRY_PRIORITY flow.m_priority,
    SYNC_DATA_INTEGER FLOW_ENTRY_MATCH (1 : UINT1)] ++ syncOxmFields flow.m_match.oxm_fields ++
    SYNC_DATA_INTEGER FLOW_ENTRY_INSTRUCTIONS (1 : UINT1) :: flow.m_instructions.toList.flatMap syncInstruction)

def syncAddFlowEntry0 (w : ControllerTables) (dpid : UINT8) (uuid : List UINT1) : Option (List Tlv) :=
  (w.flowCache.findFlow dpid uuid).map (syncFlowEntry dpid)

def syncDelFlowEntry0 (dpid : UINT8) (uuid : List UINT1) : List Tlv := [
  SYNC_DATA_INTEGER FLOW_ENTRY_SW_DPID dpid,
  SYNC_DATA_STRING FLOW_ENTRY_UUID uuid]

/-- `m_fieldMem` up to `m_fieldLen`, and `stopped`. -/
def fieldMem (tlvs : List Tlv) : List UINT1 × Bool := fill ClusterHeader.FIELD_MEM_SIZE [] tlvs

def int4Bytes (v : INT4) : List UINT1 := leBytes 4 (Word.toNat v)

/-- The message that is sent, to every slave or to one of them, if there is something to send. -/
def sendReq (operation : INT4) (fieldMem : List UINT1) : Option (List UINT1) :=
  if fieldMem = [] then none
  else
    some (int4Bytes operation ++ int4Bytes (Int32.ofNat (4 + fieldMem.length)) ++
      int4Bytes (Int32.ofNat fieldMem.length) ++ fieldMem)

section

variable {q : Request} {oper : SyncOper} {bytes msg : List UINT1} {tlvs : List Tlv}

theorem length_fieldMem_le : (fieldMem tlvs).1.length ≤ ClusterHeader.FIELD_MEM_SIZE := length_fill_le (Nat.zero_le _)

theorem fieldMem_of_not_stopped (h : (fieldMem tlvs).2 = false) :
    (fieldMem tlvs).1 = (tlvs.map Tlv.written).flatMap Tlv.bytes := fill_of_not_stopped h

theorem read_int4 {m : Memory} {addr : ℕ} {v : INT4} (h : Stores m addr (int4Bytes v)) :
    (Word.ofNat (leNat (load m addr 4)) : INT4) = v := by
  rw [Stores, int4Bytes, length_leBytes] at h
  have hv : leNat (leBytes 4 (Word.toNat v)) = Word.toNat v := leNat_leBytes (Word.toNat_lt v)
  rw [h, hv, Word.ofNat_toNat]

/-- A message read back, at the address it is received at. -/
theorem request_of_sendReq (h : sendReq oper.req bytes = some msg) (hq : Stores q.m q.itf msg)
    (hlen : bytes.length ≤ ClusterHeader.FIELD_MEM_SIZE) :
    q.Valid oper ∧ q.len.toInt = q.length.toInt - 4 ∧ q.len.toNatClampNeg = bytes.length ∧
      Stores q.m q.data bytes := by
  have hsize : ClusterHeader.FIELD_MEM_SIZE = 13926400 := rfl
  rw [sendReq] at h
  split_ifs at h
  obtain rfl := Option.some.inj h
  obtain ⟨hheader, hbytes⟩ := Stores.append_iff.mp hq
  obtain ⟨hitf, hl⟩ := Stores.append_iff.mp hheader
  obtain ⟨hop, hlength⟩ := Stores.append_iff.mp hitf
  have hoper : q.operation = oper.req := read_int4 hop
  have hlength : q.length = Int32.ofNat (4 + bytes.length) := read_int4 hlength
  have hl : q.len = Int32.ofNat bytes.length := read_int4 hl
  refine ⟨⟨hoper, ?_⟩, ?_, ?_, hbytes⟩
  · rw [hlength, Int32.lt_iff_toInt_lt, Int32.toInt_ofNat_of_lt (by omega)]
    change ¬ ((4 + bytes.length : ℕ) : ℤ) < 4
    omega
  · rw [hlength, hl, Int32.toInt_ofNat_of_lt (by omega), Int32.toInt_ofNat_of_lt (by omega)]
    omega
  · rw [hl, Int32.toNatClampNeg_ofNat_of_lt (by omega)]

end

end DCFabric
