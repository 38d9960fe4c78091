import DCFabric.FirewallFlows
import DCFabric.PacketIns

namespace DCFabric

open TlvStreams

def ETHER_LLDP : UINT2 := 0x88dd
def IP_INTERNAL : UINT1 := 255
def LLDP_CHASSIS_ID_LOCALLY_ASSIGNED : UINT1 := 7
def LLDP_PORT_ID_COMPONENT : UINT1 := 2

/-- `TOPO_DISCOVER_LLDP` and `TOPO_DISCOVER_IP`. -/
inductive TopoDiscoverProtocol
  | lldp | ip
deriving DecidableEq

/-- An integer in the order of the host. -/
def host {α : Type} [Word α] (m : Memory) (addr : ℕ) : α := Word.ofNat (leNat (load m addr (Word.size α)))

def htons (v : UINT2) : UINT2 := Word.ofNat (leNat (leBytes 2 v.toNat).reverse)

def htonll (n : UINT8) : UINT8 := (htonl n.toUInt32).toUInt64 <<< 32 ||| (htonl (n >>> 32).toUInt32).toUInt64

def ntohll (n : UINT8) : UINT8 := (htonl n.toUInt32).toUInt64 <<< 32 ||| (htonl (n >>> 32).toUInt32).toUInt64

section

variable {α : Type} [Word α] {m : Memory} {addr : ℕ}

theorem host_of_stores {a : α} (h : Stores m addr (leBytes (Word.size α) (Word.toNat a))) : host m addr = a := by
  have hload : load m addr (Word.size α) = leBytes (Word.size α) (Word.toNat a) := by
    rw [Stores, length_leBytes] at h
    exact h
  rw [host, hload, leNat_leBytes (Word.toNat_lt a), Word.ofNat_toNat]

/-- Turning the bytes of an integer around twice gives it back. -/
theorem swap_swap (a : α) (hofNat : ∀ n < 256 ^ Word.size α, Word.toNat (Word.ofNat n : α) = n) :
    (Word.ofNat (leNat (leBytes (Word.size α) (Word.toNat (Word.ofNat (leNat
      (leBytes (Word.size α) (Word.toNat a)).reverse) : α))).reverse) : α) = a := by
  have hlt : leNat (leBytes (Word.size α) (Word.toNat a)).reverse < 256 ^ Word.size α := by
    have hlt := leNat_lt (leBytes (Word.size α) (Word.toNat a)).reverse
    rwa [List.length_reverse, length_leBytes] at hlt
  have hbytes : leBytes (Word.size α) (leNat (leBytes (Word.size α) (Word.toNat a)).reverse) =
      (leBytes (Word.size α) (Word.toNat a)).reverse := by
    have hback := leBytes_leNat (leBytes (Word.size α) (Word.toNat a)).reverse
    rwa [List.length_reverse, length_leBytes] at hback
  rw [hofNat _ hlt, hbytes, List.reverse_reverse, leNat_leBytes (Word.toNat_lt a), Word.ofNat_toNat]

end

theorem htons_htons (v : UINT2) : htons (htons v) = v :=
  swap_swap v fun _ hlt => UInt16.toNat_ofNat_of_lt' hlt

theorem htonl_htonl (v : UINT4) : htonl (htonl v) = v :=
  swap_swap v fun _ hlt => UInt32.toNat_ofNat_of_lt' hlt

theorem toNat_join (a b : UINT4) : (a.toUInt64 <<< 32 ||| b.toUInt64).toNat = 2 ^ 32 * a.toNat + b.toNat := by
  have ha := a.toNat_lt
  have hb := b.toNat_lt
  rw [UInt64.toNat_or, UInt64.toNat_shiftLeft, UInt32.toNat_toUInt64, UInt32.toNat_toUInt64]
  change a.toNat <<< 32 % 2 ^ 64 ||| b.toNat = _
  rw [Nat.shiftLeft_eq, Nat.mod_eq_of_lt (by omega), Nat.mul_comm, Nat.two_pow_add_eq_or_of_lt hb]

theorem low_join (a b : UINT4) : (a.toUInt64 <<< 32 ||| b.toUInt64).toUInt32 = b := by
  have hb := b.toNat_lt
  apply UInt32.toNat_inj.mp
  rw [UInt64.toNat_toUInt32, toNat_join]
  omega

theorem high_join (a b : UINT4) : ((a.toUInt64 <<< 32 ||| b.toUInt64) >>> 32).toUInt32 = a := by
  have ha := a.toNat_lt
  have hb := b.toNat_lt
  apply UInt32.toNat_inj.mp
  rw [UInt64.toNat_toUInt32, UInt64.toNat_shiftRight, toNat_join]
  change (2 ^ 32 * a.toNat + b.toNat) >>> 32 % 2 ^ 32 = _
  rw [Nat.shiftRight_eq_div_pow]
  omega

theorem join_split (n : UINT8) : (n >>> 32).toUInt32.toUInt64 <<< 32 ||| n.toUInt32.toUInt64 = n := by
  have hn := n.toNat_lt
  apply UInt64.toNat_inj.mp
  rw [toNat_join, UInt64.toNat_toUInt32, UInt64.toNat_toUInt32, UInt64.toNat_shiftRight]
  change 2 ^ 32 * (n.toNat >>> 32 % 2 ^ 32) + n.toNat % 2 ^ 32 = _
  rw [Nat.shiftRight_eq_div_pow]
  omega

theorem ntohll_htonll (n : UINT8) : ntohll (htonll n) = n := by
  rw [ntohll, htonll, low_join, high_join, htonl_htonl, htonl_htonl, join_split]

namespace COfMsgUtil

/-- The group address both packets are sent to. -/
def discoveryDest : List UINT1 := [0x00, 0x80, 0xc2, 0x00, 0x00, 0x0e]

/-- The bytes of the `lldp_t`, where `mac` is the address of the port's `hw_addr`. -/
def fillLldpPkt (m : Memory) (dpid : UINT8) (mac : ℕ) (port : UINT4) : List UINT1 :=
  discoveryDest ++ load m mac 6 ++ leBytes 2 (htons ETHER_LLDP).toNat ++
    leBytes 2 (htons 0x0209).toNat ++ [LLDP_CHASSIS_ID_LOCALLY_ASSIGNED] ++ leBytes 8 (htonll dpid).toNat ++
    leBytes 2 (htons 0x0403).toNat ++ [LLDP_PORT_ID_COMPONENT] ++ leBytes 2 (htons port.toUInt16).toNat ++
    leBytes 2 (htons 0x0602).toNat ++ leBytes 2 (htons 120).toNat ++ leBytes 2 0

/-- What `fillDiscoveryIpPkt` reads of the server. -/
structure DiscoveryServer where
  controllerMac : ℕ
  controllerIp : UINT4

/-- The bytes of the IP packet. `tos`, `ipid`, `fragoff` and `cksum` stay what they are in `data`, as the `memset`
that is to clear them is of length 0. -/
def fillDiscoveryIpPkt (m : Memory) (server : DiscoveryServer) (dpid : UINT8) (port : UINT4) (data : ℕ) : List UINT1 :=
  discoveryDest ++ load m server.controllerMac 6 ++ leBytes 2 (htons ETHER_IP).toNat ++
    [0x45] ++ load m (data + 15) 1 ++ leBytes 2 (htons 46).toNat ++ load m (data + 18) 4 ++
    [255, IP_INTERNAL] ++ load m (data + 24) 2 ++
    leBytes 4 (htonl server.controllerIp).toNat ++ leBytes 4 (htonl server.controllerIp).toNat ++
    leBytes 8 dpid.toNat ++ leBytes 4 port.toNat

/-- The packet that `sendOfp13Lldp` builds in `data` for a port of the switch. -/
def discoveryPkt (m : Memory) (protocol : TopoDiscoverProtocol) (server : DiscoveryServer) (dpid : UINT8)
    (hw_addr : ℕ) (port_no : UINT4) (data : ℕ) : List UINT1 :=
  match protocol with
  | .lldp => fillLldpPkt m dpid hw_addr port_no
  | .ip => fillDiscoveryIpPkt m server dpid port_no data

end COfMsgUtil

namespace CTopoDiscovery

open COfMsgUtil

variable (m : Memory) (data : ℕ)

/-- The neighbour of an LLDP packet that passes the checks. -/
def lldpNeighbor : Option (UINT8 × UINT4) :=
  if m (data + 16) ≠ LLDP_CHASSIS_ID_LOCALLY_ASSIGNED ∨ m (data + 27) ≠ LLDP_PORT_ID_COMPONENT ∨
      (host m (data + 32) : UINT2) ≠ htons 120 then none
  else some (ntohll (host m (data + 17)), (htons (host m (data + 28))).toUInt32)

/-- The neighbour of an IP packet that passes the checks. -/
def ipNeighbor (controllerIp : UINT4) : Option (UINT8 × UINT4) :=
  if (htons (host m (data + 16))).toNat < 20 + 8 + 4 ∨ m (data + 23) ≠ IP_INTERNAL ∨
      (host m (data + 26) : UINT4) ≠ host m (data + 30) ∨ htonl (host m (data + 26)) ≠ controllerIp then none
  else some (host m (data + 34), host m (data + 42))

/-- `neighDpid` and `neighPort` as `handle` takes them from a packet-in of a switch it knows, or `none` where it
returns `BNC_ERR` before. -/
def neighbor (protocol : TopoDiscoverProtocol) (server : DiscoveryServer) (msg : OfpMessage) : Option (UINT8 × UINT4) :=
  let pktin := ofpPacketInConvertter msg ⟨0, 0, 0, 0, 0, 0⟩
  match protocol with
  | .lldp => lldpNeighbor msg.m pktin.data
  | .ip => ipNeighbor msg.m pktin.data server.controllerIp

/-- The packet is what a packet-in carries. -/
structure Delivers (msg : OfpMessage) (packet : List UINT1) : Prop where
  type : msg.type = OFPT13_PACKET_IN
  stores : Stores msg.m (getPktInData msg) packet

section

variable {m built : Memory} {data mac stack : ℕ} {dpid : UINT8} {port : UINT4} {server : DiscoveryServer}

theorem stores_singleton {addr : ℕ} {b : UInt8} : Stores m addr [b] ↔ m addr = b := by
  simp [Stores, load]

theorem lldpNeighbor_of_stores (h : Stores m data (fillLldpPkt built dpid mac port)) :
    lldpNeighbor m data = some (dpid, port.toUInt16.toUInt32) := by
  simp only [fillLldpPkt, Stores.append_iff, List.length_append, length_load, length_leBytes, List.length_singleton,
    stores_singleton] at h
  obtain ⟨⟨⟨⟨⟨⟨⟨⟨⟨-, -⟩, hchassis⟩, hid⟩, -⟩, hsubtype⟩, hport⟩, -⟩, httl⟩, -⟩ := h
  have hchecks : ¬(m (data + 16) ≠ LLDP_CHASSIS_ID_LOCALLY_ASSIGNED ∨ m (data + 27) ≠ LLDP_PORT_ID_COMPONENT ∨
      (host m (data + 32) : UINT2) ≠ htons 120) := by
    rintro (hne | hne | hne)
    · exact hne hchassis
    · exact hne hsubtype
    · exact hne (host_of_stores httl)
  have hid : host m (data + 17) = htonll dpid := host_of_stores hid
  have hport : host m (data + 28) = htons port.toUInt16 := host_of_stores hport
  rw [lldpNeighbor, if_neg hchecks, hid, hport, ntohll_htonll, htons_htons]

theorem ipNeighbor_of_stores (h : Stores m data (fillDiscoveryIpPkt built server dpid port stack)) :
    ipNeighbor m data server.controllerIp = some (dpid, port) := by
  simp only [fillDiscoveryIpPkt, Stores.append_iff, List.length_append, length_load, length_leBytes,
    List.length_singleton] at h
  obtain ⟨⟨⟨⟨⟨⟨⟨⟨⟨⟨⟨⟨-, -⟩, -⟩, -⟩, -⟩, hlen⟩, -⟩, hproto⟩, -⟩, hsrc⟩, hdest⟩, hdpid⟩, hport⟩ := h
  have hproto : Stores m (data + 22) ([255] ++ [IP_INTERNAL]) := hproto
  have hproto := stores_singleton.mp (Stores.append_iff.mp hproto).2
  have hlen : host m (data + 16) = htons 46 := host_of_stores hlen
  have hsrc : host m (data + 26) = htonl server.controllerIp := host_of_stores hsrc
  have hdest : host m (data + 30) = htonl server.controllerIp := host_of_stores hdest
  have hdpid : host m (data + 34) = dpid := host_of_stores hdpid
  have hport : host m (data + 42) = port := host_of_stores hport
  have hchecks : ¬((htons (host m (data + 16))).toNat < 20 + 8 + 4 ∨ m (data + 23) ≠ IP_INTERNAL ∨
      (host m (data + 26) : UINT4) ≠ host m (data + 30) ∨ htonl (host m (data + 26)) ≠ server.controllerIp) := by
    rintro (hlt | hne | hne | hne)
    · rw [hlen, htons_htons] at hlt
      exact absurd hlt (by decide)
    · exact hne hproto
    · exact hne (hsrc.trans hdest.symm)
    · rw [hsrc, htonl_htonl] at hne
      exact hne rfl
  rw [ipNeighbor, if_neg hchecks, hdpid, hport]

/-- The packet that a switch is sent for a port is taken as one of this port, for an LLDP packet if and only if the
port has a number of 16 bits. -/
theorem neighbor_discoveryPkt_iff (built : Memory) (protocol : TopoDiscoverProtocol) (server : DiscoveryServer)
    (dpid : UINT8) (mac : ℕ) (port : UINT4) (stack : ℕ) (msg : OfpMessage)
    (h : Delivers msg (discoveryPkt built protocol server dpid mac port stack)) :
    neighbor protocol server msg = some (dpid, port) ↔ (protocol = .lldp → port.toNat < 2 ^ 16) := by
  have hpktin : (ofpPacketInConvertter msg ⟨0, 0, 0, 0, 0, 0⟩).data = getPktInData msg := by
    rw [ofpPacketInConvertter_eq h.type]
  cases protocol with
  | lldp =>
    have hneighbor : neighbor .lldp server msg = some (dpid, port.toUInt16.toUInt32) := by
      change lldpNeighbor msg.m (ofpPacketInConvertter msg ⟨0, 0, 0, 0, 0, 0⟩).data = _
      rw [hpktin]
      exact lldpNeighbor_of_stores h.stores
    rw [hneighbor, imp_iff_right rfl, Option.some_inj, Prod.mk.injEq, and_iff_right rfl, ← UInt32.toNat_inj,
      UInt16.toNat_toUInt32, UInt32.toNat_toUInt16]
    omega
  | ip =>
    refine iff_of_true ?_ nofun
    change ipNeighbor msg.m (ofpPacketInConvertter msg ⟨0, 0, 0, 0, 0, 0⟩).data server.controllerIp = _
    rw [hpktin]
    exact ipNeighbor_of_stores h.stores

end

/-- The packet-in of a packet that came in at port 7. -/
def discoveryIn (packet : List UINT1) : OfpMessage :=
  packetIn (packetInBegin (UInt8.ofNat (42 + packet.length)) ++ [0, 1, 0, 12] ++ inPortOxm ++ List.replicate 6 0 ++
    packet)

def zeroMemory : Memory := fun _ => 0

theorem neighbor_of_port_3 :
    neighbor .lldp ⟨0, 1⟩ (discoveryIn (discoveryPkt zeroMemory .lldp ⟨0, 1⟩ 5 0 3 0)) = some (5, 3) := by
  refine (neighbor_discoveryPkt_iff zeroMemory .lldp ⟨0, 1⟩ 5 0 3 0 _ ⟨?_, ?_⟩).mpr fun _ => by decide
  · decide +kernel
  · unfold Stores
    decide +kernel

theorem neighbor_of_port_65537 :
    Delivers (discoveryIn (discoveryPkt zeroMemory .lldp ⟨0, 1⟩ 5 0 65537 0))
      (discoveryPkt zeroMemory .lldp ⟨0, 1⟩ 5 0 65537 0) ∧
      neighbor .lldp ⟨0, 1⟩ (discoveryIn (discoveryPkt zeroMemory .lldp ⟨0, 1⟩ 5 0 65537 0)) ≠ some (5, 65537) := by
  refine ⟨⟨?_, ?_⟩, ?_⟩
  · decide +kernel
  · unfold Stores
    decide +kernel
  · decide +kernel

end CTopoDiscovery

end DCFabric
