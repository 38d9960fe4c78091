import DCFabric.SyncTables
import DCFabric.TlvDecoders

namespace DCFabric

open CFlowCache (emptyOxm)
open ListUpdates TlvStreams

abbrev GET_DATA_INTEGER {α σ : Type} [Word α] (set : α → σ → σ) : TlvField σ := .word set

abbrev GET_DATA_BYTES {α σ : Type} [Word α] (set : α → σ → σ) : TlvField σ := .word set

abbrev GET_DATA_STRING {σ : Type} (capacity : ℕ) (set : List UINT1 → σ → σ) : TlvField σ := .text capacity set

/-- A recover function with the locals `L`. -/
abbrev Recover (L : Type) := Decoder L ControllerTables INT4

def HOST_TYPE : UINT2 := 0x0401
def HOST_MAC : UINT2 := 0x0402
def HOST_IP : UINT2 := 0x0403
def HOST_SW_DPID : UINT2 := 0x0405
def HOST_SW_PORT : UINT2 := 0x0406
def HOST_SUBNET_ID : UINT2 := 0x0407
def HOST_TENANT_ID : UINT2 := 0x0408
def HOST_FIXED_IP : UINT2 := 0x0409

structure HostRecord where
  type : INT4
  mac : MacAddr
  ipList : List UINT4
  dpid : UINT8
  port : UINT4
  subnetId : List UINT1
  tenantId : List UINT1
  fixedIp : UINT4

def HostRecord.zero : HostRecord := ⟨0, 0, [], 0, 0, [], [], 0⟩

def HostRecord.addHost : HostRecord × ControllerTables → ControllerTables
  | (r, w) =>
    match r.ipList with
    | [] => w
    | ip :: moreIps =>
      if ip ≠ 0 then
        let a : HostArgs := ⟨r.type, r.mac, ip, moreIps, r.dpid, r.port, r.subnetId, r.tenantId, r.fixedIp⟩
        { w with hostMgr := w.hostMgr.addHost a }
      else w

def recoverHostList : Recover HostRecord where
  clear w := { w with hostMgr := .clear }
  locals := .zero
  rejected := BNC_ERR
  firstType := HOST_TYPE
  first := GET_DATA_INTEGER fun type (r, w) => ({ r with type }, w)
  table := [
    (HOST_TYPE, GET_DATA_INTEGER fun type s => ({ HostRecord.zero with type }, HostRecord.addHost s)),
    (HOST_MAC, GET_DATA_BYTES fun mac (r, w) => ({ r with mac }, w)),
    (HOST_IP, GET_DATA_INTEGER fun ip (r, w) => ({ r with ipList := r.ipList ++ [ip] }, w)),
    (HOST_SW_DPID, GET_DATA_INTEGER fun dpid (r, w) => ({ r with dpid }, w)),
    (HOST_SW_PORT, GET_DATA_INTEGER fun port (r, w) => ({ r with port }, w)),
    (HOST_SUBNET_ID, GET_DATA_STRING 64 fun subnetId (r, w) => ({ r with subnetId }, w)),
    (HOST_TENANT_ID, GET_DATA_STRING 64 fun tenantId (r, w) => ({ r with tenantId }, w)),
    (HOST_FIXED_IP, GET_DATA_INTEGER fun fixedIp (r, w) => ({ r with fixedIp }, w))]
  finish s := (BNC_OK, HostRecord.addHost s)

def NAT_ICMP_IDENTIFIER : UINT2 := 0x0601
def NAT_ICMP_HOST_IP : UINT2 := 0x0602
def NAT_ICMP_MAC : UINT2 := 0x0603
def NAT_ICMP_SW_DPID : UINT2 := 0x0604
def NAT_ICMP_INPORT : UINT2 := 0x0605

def CNatIcmpEntry.zero : CNatIcmpEntry := ⟨0, 0, 0, 0, 0⟩

def addNatIcmpRecord : CNatIcmpEntry × ControllerTables → ControllerTables
  | (r, w) =>
    if r.m_identifier ≠ 0 ∧ r.m_host_ip ≠ 0 ∧ r.m_sw_dpid ≠ 0 then
      { w with natIcmpMap := AddNatIcmpEntry w.natIcmpMap r }
    else w

def recoverNatIcmpList : Recover CNatIcmpEntry where
  clear w := { w with natIcmpMap := .empty }
  locals := .zero
  rejected := BNC_ERR
  firstType := NAT_ICMP_IDENTIFIER
  first := GET_DATA_INTEGER fun m_identifier (r, w) => ({ r with m_identifier }, w)
  table := [
    (NAT_ICMP_IDENTIFIER, GET_DATA_INTEGER fun m_identifier s =>
      ({ CNatIcmpEntry.zero with m_identifier }, addNatIcmpRecord s)),
    (NAT_ICMP_HOST_IP, GET_DATA_INTEGER fun m_host_ip (r, w) => ({ r with m_host_ip }, w)),
    (NAT_ICMP_MAC, GET_DATA_BYTES fun m_host_mac (r, w) => ({ r with m_host_mac }, w)),
    (NAT_ICMP_SW_DPID, GET_DATA_INTEGER fun m_sw_dpid (r, w) => ({ r with m_sw_dpid }, w)),
    (NAT_ICMP_INPORT, GET_DATA_INTEGER fun m_inport (r, w) => ({ r with m_inport }, w))]
  finish s := (BNC_OK, addNatIcmpRecord s)

def NAT_HOST_PROTOCOL : UINT2 := 0x0701
def NAT_HOST_EXTERNAL_IP : UINT2 := 0x0702
def NAT_HOST_SNAT_IP : UINT2 := 0x0703
def NAT_HOST_SNAT_PORT : UINT2 := 0x0704
def NAT_HOST_INTERNAL_IP : UINT2 := 0x0705
def NAT_HOST_INTERNAL_PORT : UINT2 := 0x0706
def NAT_HOST_INTERNAL_MAC : UINT2 := 0x0707
def NAT_HOST_GATEWAY_DPID : UINT2 := 0x0708
def NAT_HOST_SWITCH_DPID : UINT2 := 0x0709

def CSNatConn.zero : CSNatConn := ⟨0, 0, 0, 0, 0, 0, 0, 0, 0⟩

def addNatHostRecord : CSNatConn × ControllerTables → ControllerTables
  | (r, w) =>
    if (r.m_proto = IPPROTO_TCP ∨ r.m_proto = IPPROTO_UDP) ∧ r.m_external_ip ≠ 0 ∧ r.m_snat_ip ≠ 0 ∧
        r.m_internal_ip ≠ 0 ∧ r.m_snat_port ≠ 0 ∧ r.m_internal_port ≠ 0 then
      { w with snatConns := createSNatConn w.snatConns r }
    else w

def delNatHostRecord : CSNatConn × ControllerTables → ControllerTables
  | (r, w) =>
    if (r.m_proto = IPPROTO_TCP ∨ r.m_proto = IPPROTO_UDP) ∧ r.m_external_ip ≠ 0 ∧ r.m_internal_ip ≠ 0 ∧
        r.m_internal_port ≠ 0 then
      { w with snatConns :=
          removeSNatConnByInt w.snatConns r.m_external_ip r.m_internal_ip r.m_internal_port r.m_proto }
    else w

/-- The cases of a connection after its protocol. -/
def natHostTable : List (UINT2 × TlvField (CSNatConn × ControllerTables)) := [
  (NAT_HOST_EXTERNAL_IP, GET_DATA_INTEGER fun m_external_ip (r, w) => ({ r with m_external_ip }, w)),
  (NAT_HOST_SNAT_IP, GET_DATA_INTEGER fun m_snat_ip (r, w) => ({ r with m_snat_ip }, w)),
  (NAT_HOST_SNAT_PORT, GET_DATA_INTEGER fun m_snat_port (r, w) => ({ r with m_snat_port }, w)),
  (NAT_HOST_INTERNAL_IP, GET_DATA_INTEGER fun m_internal_ip (r, w) => ({ r with m_internal_ip }, w)),
  (NAT_HOST_INTERNAL_PORT, GET_DATA_INTEGER fun m_internal_port (r, w) => ({ r with m_internal_port }, w)),
  (NAT_HOST_INTERNAL_MAC, GET_DATA_BYTES fun m_internal_mac (r, w) => ({ r with m_internal_mac }, w)),
  (NAT_HOST_GATEWAY_DPID, GET_DATA_INTEGER fun m_gateway_dpid (r, w) => ({ r with m_gateway_dpid }, w)),
  (NAT_HOST_SWITCH_DPID, GET_DATA_INTEGER fun m_switch_dpid (r, w) => ({ r with m_switch_dpid }, w))]

def recoverNatHostList : Recover CSNatConn where
  clear w := { w with snatConns := .empty }
  locals := .zero
  rejected := BNC_ERR
  firstType := NAT_HOST_PROTOCOL
  first := GET_DATA_INTEGER fun m_proto (r, w) => ({ r with m_proto }, w)
  table :=
    (NAT_HOST_PROTOCOL, GET_DATA_INTEGER fun m_proto s => ({ CSNatConn.zero with m_proto }, addNatHostRecord s)) ::
      natHostTable
  finish s := (BNC_OK, addNatHostRecord s)

def recoverAddNatHost : Recover CSNatConn where
  clear w := w
  locals := .zero
  rejected := BNC_ERR
  firstType := NAT_HOST_PROTOCOL
  first := GET_DATA_INTEGER fun m_proto (r, w) => ({ r with m_proto }, w)
  table := natHostTable
  finish s := (BNC_OK, addNatHostRecord s)

def recoverDelNatHost : Recover CSNatConn where
  clear w := w
  locals := .zero
  rejected := BNC_ERR
  firstType := NAT_HOST_PROTOCOL
  first := GET_DATA_INTEGER fun m_proto (r, w) => ({ r with m_proto }, w)
  table := natHostTable
  finish s := (BNC_OK, delNatHostRecord s)

def TOPO_LINK_STATE : UINT2 := 0x0901
def TOPO_LINK_SRC_DPID : UINT2 := 0x0902
def TOPO_LINK_SRC_PORT : UINT2 := 0x0903
def TOPO_LINK_DST_DPID : UINT2 := 0x0904
def TOPO_LINK_DST_PORT : UINT2 := 0x0905
def TOPO_LINK_WEIGHT : UINT2 := 0x0906

def SwNeighborState.toInt4 : SwNeighborState → INT4
  | none => 0
  | established => 1
  | deleted => 2
  | unalive => 3
  | other state => state

def SwNeighborState.ofInt4 (state : INT4) : SwNeighborState :=
  if state = 0 then none
  else if state = 1 then established
  else if state = 2 then deleted
  else if state = 3 then unalive
  else other state

def Neighbor.zero : Neighbor := ⟨.none, 0, 0, 0, 0, 0⟩

def addTopoLinkRecord : Neighbor × ControllerTables → ControllerTables
  | (r, w) => if r.srcDpid ≠ 0 ∧ r.dstDpid ≠ 0 then w.recoverLink r else w

/-- The cases of a link after its state. -/
def topoLinkTable : List (UINT2 × TlvField (Neighbor × ControllerTables)) := [
  (TOPO_LINK_SRC_DPID, GET_DATA_INTEGER fun srcDpid (r, w) => ({ r with srcDpid }, w)),
  (TOPO_LINK_SRC_PORT, GET_DATA_INTEGER fun srcPort (r, w) => ({ r with srcPort }, w)),
  (TOPO_LINK_DST_DPID, GET_DATA_INTEGER fun dstDpid (r, w) => ({ r with dstDpid }, w)),
  (TOPO_LINK_DST_PORT, GET_DATA_INTEGER fun dstPort (r, w) => ({ r with dstPort }, w)),
  (TOPO_LINK_WEIGHT, GET_DATA_INTEGER fun weight (r, w) => ({ r with weight }, w))]

def recoverTopoLinkList : Recover Neighbor where
  clear w := { w with neighbors := w.neighbors.clearPorts }
  locals := .zero
  rejected := BNC_ERR
  firstType := TOPO_LINK_STATE
  first := GET_DATA_INTEGER fun state (r, w) => ({ r with state := .ofInt4 state }, w)
  table :=
    (TOPO_LINK_STATE, GET_DATA_INTEGER fun state s =>
      ({ Neighbor.zero with state := .ofInt4 state }, addTopoLinkRecord s)) :: topoLinkTable
  finish s := (BNC_OK, (addTopoLinkRecord s).notifyPathChanged)

def recoverTopoLink : Recover Neighbor where
  clear w := w
  locals := .zero
  rejected := BNC_ERR
  firstType := TOPO_LINK_STATE
  first := GET_DATA_INTEGER fun state (r, w) => ({ r with state := .ofInt4 state }, w)
  table := topoLinkTable
  finish := fun (r, w) =>
    if r.srcDpid ≠ 0 ∧ r.dstDpid ≠ 0 then (BNC_OK, (w.recoverLink r).notifyPathChanged) else (BNC_ERR, w)

def SW_TAG_DPID : UINT2 := 0x0A01
def SW_TAG_TAG : UINT2 := 0x0A02

structure SwitchTagRecord where
  dpid : UINT8
  tag : UINT4

def SwitchTagRecord.zero : SwitchTagRecord := ⟨0, 0⟩

def setTagRecord : SwitchTagRecord × ControllerTables → ControllerTables
  | (r, w) => if r.dpid ≠ 0 ∧ r.tag ≠ 0 then w.setTag r.dpid r.tag else w

def recoverSwitchTagList : Recover SwitchTagRecord where
  clear w := w
  locals := .zero
  rejected := BNC_ERR
  firstType := SW_TAG_DPID
  first := GET_DATA_INTEGER fun dpid (r, w) => ({ r with dpid }, w)
  table := [
    (SW_TAG_DPID, GET_DATA_INTEGER fun dpid s => ({ SwitchTagRecord.zero with dpid }, setTagRecord s)),
    (SW_TAG_TAG, GET_DATA_INTEGER fun tag (r, w) => ({ r with tag }, w))]
  finish s := (BNC_OK, setTagRecord s)

def recoverSwitchTag : Recover SwitchTagRecord where
  clear w := w
  locals := .zero
  rejected := BNC_ERR
  firstType := SW_TAG_DPID
  first := GET_DATA_INTEGER fun dpid (r, w) => ({ r with dpid }, w)
  table := [(SW_TAG_TAG, GET_DATA_INTEGER fun tag (r, w) => ({ r with tag }, w))]
  finish := fun (r, w) =>
    if r.dpid ≠ 0 ∧ r.tag ≠ 0 ∧ (w.getSwitchByDpid r.dpid).isSome then (BNC_OK, w.setTag r.dpid r.tag)
    else (BNC_ERR, w)

def TAG_INFO_VALUE : UINT2 := 0x0B01

def recoverTagInfo (m : Memory) (data len : ℕ) (w : ControllerTables) : INT4 × ControllerTables :=
  if len < 4 then (BNC_ERR, w)
  else
    let v := visit m data
    if len < 4 + v.len ∨ v.type ≠ TAG_INFO_VALUE then (BNC_ERR, w)
    else (BNC_OK, { w with tagMgr := { w.tagMgr with m_bitset := w.tagMgr.m_bitset.recover m (data + 4) v.len } })

end DCFabric
