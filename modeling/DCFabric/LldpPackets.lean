import DCFabric.ClusterSyncRequests
import DCFabric.TopoDiscovery

namespace DCFabric

open TlvStreams

def gn_htonll (n : UINT8) : UINT8 :=
  if htonl 1 = 1 then n else (htonl n.toUInt32).toUInt64 <<< 32 ||| (htonl (n >>> 32).toUInt32).toUInt64

def gn_ntohll (n : UINT8) : UINT8 :=
  if htonl 1 = 1 then n else (htonl n.toUInt32).toUInt64 <<< 32 ||| (htonl (n >>> 32).toUInt32).toUInt64

theorem gn_ntohll_gn_htonll (n : UINT8) : gn_ntohll (gn_htonll n) = n := by
  have horder : htonl 1 ≠ 1 := by decide
  rw [gn_ntohll, gn_htonll, if_neg horder, if_neg horder]
  exact ntohll_htonll n

namespace TopoMgr

def OFP10_VERSION : UINT1 := 0x01
def OFP13_VERSION : UINT1 := 0x04
def OFPT_PACKET_OUT : ℕ := 13
def OFPT13_PACKET_OUT : ℕ := 13

/-- What `lldp_tx` reads of a switch. -/
structure gn_switch_t where
  dpid : UINT8
  ofp_version : UINT1

/-- The request for a packet-out, with the bytes that `data` points to. -/
structure packout_req_info_t where
  xid : UINT4
  buffer_id : UINT4
  inport : UINT4
  outport : UINT4
  max_len : UINT2
  data_len : UINT2
  data : List UINT1

/-- What `lldp_packet_handler` reads of a packet-in. -/
structure packet_in_info_t where
  inport : UINT4
  data : ℕ

/-- The arguments of a call of `mapping_new_neighbor` after the switch. -/
structure NewNeighbor where
  rx_port : UINT4
  neighbor_dpid : UINT8
  tx_port : UINT4
deriving DecidableEq

/-- The bytes of the `lldp_t`, which is packed. -/
def create_lldp_pkt (m : Memory) (src_addr : ℕ) (id : UINT8) (port : UINT2) : List UINT1 :=
  [0x01, 0x80, 0xc2, 0x00, 0x00, 0x0e] ++ load m src_addr 6 ++ leBytes 2 (htons 0x88cc).toNat ++
    leBytes 2 (htons 0x0209).toNat ++ [LLDP_CHASSIS_ID_LOCALLY_ASSIGNED] ++ leBytes 8 (gn_htonll id).toNat ++
    leBytes 2 (htons 0x0403).toNat ++ [LLDP_PORT_ID_COMPONENT] ++ leBytes 2 (htons port).toNat ++
    leBytes 2 (htons 0x0602).toNat ++ leBytes 2 (htons 120).toNat ++ leBytes 2 0

/-- The handler of `msg_driver` that a packet-out goes to, of the two versions that have one. -/
def packetOutHandler (ofp_version : UINT1) : Option ℕ :=
  if ofp_version = OFP10_VERSION then some OFPT_PACKET_OUT
  else if ofp_version = OFP13_VERSION then some OFPT13_PACKET_OUT
  else none

/-- The request and the handler that takes it. The parameter `port` of `create_lldp_pkt` is narrower than `port_no`. -/
def lldp_tx (m : Memory) (sw : gn_switch_t) (port_no : UINT4) (src_addr : ℕ) : packout_req_info_t × Option ℕ :=
  let lldp_pkt := create_lldp_pkt m src_addr sw.dpid port_no.toUInt16
  (⟨0, 0xffffffff, 0xfffffffd, port_no, 0xff, UInt16.ofNat lldp_pkt.length, lldp_pkt⟩,
    packetOutHandler sw.ofp_version)

/-- The call of `mapping_new_neighbor`, or `none` where `GN_ERR` is returned before. -/
def lldp_packet_handler (m : Memory) (packet_in_info : packet_in_info_t) : Option NewNeighbor :=
  let pkt := packet_in_info.data
  if m (pkt + 16) ≠ LLDP_CHASSIS_ID_LOCALLY_ASSIGNED ∨ m (pkt + 27) ≠ LLDP_PORT_ID_COMPONENT ∨
      (host m (pkt + 32) : UINT2) ≠ htons 120 then none
  else
    let sender_id := gn_ntohll (host m (pkt + 17))
    let sender_port := (htons (host m (pkt + 28))).toUInt32
    some ⟨packet_in_info.inport, sender_id, sender_port⟩

section

variable {m built : Memory} {src_addr : ℕ} {id : UINT8} {port : UINT2}

/-- A packet of the controller is accepted, and both of its integers are read as they were written. -/
theorem lldp_packet_handler_of_stores {packet_in_info : packet_in_info_t}
    (h : Stores m packet_in_info.data (create_lldp_pkt built src_addr id port)) :
    lldp_packet_handler m packet_in_info = some ⟨packet_in_info.inport, id, port.toUInt32⟩ := by
  simp only [create_lldp_pkt, Stores.append_iff, List.length_append, length_load, length_leBytes,
    List.length_singleton, CTopoDiscovery.stores_singleton] at h
  obtain ⟨⟨⟨⟨⟨⟨⟨⟨⟨-, -⟩, hchassis⟩, hid⟩, -⟩, hsubtype⟩, hport⟩, -⟩, httl⟩, -⟩ := h
  have hchecks : ¬(m (packet_in_info.data + 16) ≠ LLDP_CHASSIS_ID_LOCALLY_ASSIGNED ∨
      m (packet_in_info.data + 27) ≠ LLDP_PORT_ID_COMPONENT ∨
      (host m (packet_in_info.data + 32) : UINT2) ≠ htons 120) := by
    rintro (hne | hne | hne)
    · exact hne hchassis
    · exact hne hsubtype
    · exact hne (host_of_stores httl)
  have hid : host m (packet_in_info.data + 17) = gn_htonll id := host_of_stores hid
  have hport : host m (packet_in_info.data + 28) = htons port := host_of_stores hport
  rw [lldp_packet_handler]
  dsimp only
  rw [if_neg hchecks, hid, hport, gn_ntohll_gn_htonll, htons_htons]

theorem toUInt16_toUInt32_eq_iff (port_no : UINT4) : port_no.toUInt16.toUInt32 = port_no ↔ port_no.toNat < 2 ^ 16 := by
  rw [← UInt32.toNat_inj, UInt16.toNat_toUInt32, UInt32.toNat_toUInt16]
  omega

/-- A neighbour that gets the packet sent for a port maps it to this port if and only if the number of the port has 16
bits. -/
theorem lldp_packet_mapped_iff (built : Memory) (sw : gn_switch_t) (port_no : UINT4) (src_addr : ℕ) (m : Memory)
    (packet_in_info : packet_in_info_t)
    (h : Stores m packet_in_info.data (lldp_tx built sw port_no src_addr).1.data) :
    lldp_packet_handler m packet_in_info = some ⟨packet_in_info.inport, sw.dpid, port_no⟩ ↔
      port_no.toNat < 2 ^ 16 := by
  rw [lldp_packet_handler_of_stores h, Option.some_inj, NewNeighbor.mk.injEq, and_iff_right rfl, and_iff_right rfl]
  exact toUInt16_toUInt32_eq_iff port_no

end

/-- The packet that switch 5 sends for a port. -/
def packetOf (port_no : UINT4) : List UINT1 := (lldp_tx (memoryOf []) ⟨5, OFP13_VERSION⟩ port_no 0).1.data

theorem lldp_packet_of_port_3 :
    lldp_packet_handler (memoryOf (packetOf 3)) ⟨7, 0⟩ = some ⟨7, 5, 3⟩ := by
  exact (lldp_packet_mapped_iff (memoryOf []) ⟨5, OFP13_VERSION⟩ 3 0 _ ⟨7, 0⟩ stores_memoryOf).mpr (by decide)

/-- The packet of the local port is accepted as one of port 65534. -/
theorem lldp_packet_of_local_port :
    Stores (memoryOf (packetOf 0xfffffffe)) 0 (lldp_tx (memoryOf []) ⟨5, OFP13_VERSION⟩ 0xfffffffe 0).1.data ∧
      lldp_packet_handler (memoryOf (packetOf 0xfffffffe)) ⟨7, 0⟩ ≠ some ⟨7, 5, 0xfffffffe⟩ := by
  refine ⟨stores_memoryOf, ?_⟩
  decide +kernel

end TopoMgr

end DCFabric
