import DCFabric.FlowRemovedMatch
import DCFabric.NeighborPorts

namespace DCFabric

open CFlowCache (emptyOxm)
open LoopRuns TlvStreams

def OFPT13_PACKET_IN : UINT1 := 10
def OFPT13_FLOW_REMOVED : UINT1 := 11
def OFPT13_MULTIPART_REPLY : UINT1 := 19
def OFPMP_PORT_DESC : UINT2 := 13
def OFPP13_LOCAL : UINT4 := 0xfffffffe
def PORT_LINK_UP : UINT4 := 0

/-- An OpenFlow 1.3 message in `Recv_Tempbuff`, as it is handed on. -/
structure OfpMessage where
  m : Memory
  addr : ℕ

structure packet_in_info_t where
  xid : UINT4
  buffer_id : UINT4
  inport : UINT4
  data_len : UINT4
  In_TableID : UINT1
  data : ℕ

structure gn_port_t where
  port_no : UINT4
  hw_addr : List UINT1
  name : List UINT1
  curr : UINT4
  advertised : UINT4
  supported : UINT4
  peer : UINT4
  config : UINT4
  state : UINT4
  max_speed : UINT4

def of13_port_convertter (m : Memory) (ofp : ℕ) : gn_port_t where
  port_no := ntoh m ofp
  hw_addr := load m (ofp + 8) 6
  name := load m (ofp + 16) 16
  curr := ntoh m (ofp + 40)
  advertised := ntoh m (ofp + 44)
  supported := ntoh m (ofp + 48)
  peer := ntoh m (ofp + 52)
  config := ntoh m (ofp + 32)
  state := ntoh m (ofp + 36)
  max_speed := 0

def portReads (ofp : ℕ) : List Access :=
  [.read ofp 4, .read (ofp + 40) 4, .read (ofp + 44) 4, .read (ofp + 48) 4, .read (ofp + 52) 4, .read (ofp + 32) 4,
    .read (ofp + 36) 4, .read (ofp + 16) 16, .read (ofp + 8) 6]

/-- Where a port is stored, with the arguments of `lldp_tx`. -/
inductive PortStore where
  | lo_port (port : gn_port_t)
  | ports (n_ports : ℕ) (port : gn_port_t) (lldp_tx : Option (UINT4 × List UINT1))

structure PortCursor where
  port : ℕ
  body_len : UINT2
  loops : ℕ
  n_ports : ℕ

/-- The test of the loop. -/
def PortCursor.GoesOn (c : PortCursor) : Prop := c.body_len ≠ 0 ∧ c.loops - 1 > 0

instance (c : PortCursor) : Decidable c.GoesOn := inferInstanceAs (Decidable (_ ∧ _))

/-- One pass of the loop over the ports of an `OFPMP_PORT_DESC` reply. -/
def portPass (m : Memory) (c : PortCursor) : Pass PortCursor PortStore ℕ :=
  if c.GoesOn then
    let new_sw_ports := { of13_port_convertter m c.port with max_speed := 10737418 }
    let c := { c with port := c.port + 64, body_len := c.body_len - 64, loops := c.loops - 1 }
    if new_sw_ports.port_no = OFPP13_LOCAL then .next (.lo_port new_sw_ports) c
    else
      let n_ports := if c.n_ports > MAX_PORTS - 1 then MAX_PORTS - 1 else c.n_ports
      .next (.ports n_ports new_sw_ports
        (if PORT_LINK_UP = new_sw_ports.state then some (new_sw_ports.port_no, new_sw_ports.hw_addr) else none))
        { c with n_ports := n_ports + 1 }
  else .leave c.n_ports

def portAccesses (c : PortCursor) : List Access := if c.GoesOn then portReads c.port else []

namespace OfpMessage

variable (msg : OfpMessage)

def type : UINT1 := msg.m (msg.addr + 1)

def length : UINT2 := ntoh msg.m (msg.addr + 2)

/-- The first address after the message. -/
def last : ℕ := msg.addr + msg.length.toNat

/-- `ALIGN_8` of the length of the match of an `ofp13_packet_in`. -/
def packetInMatch : ℕ := ALIGN_8 (ntoh msg.m (msg.addr + 26) : UINT2).toNat

/-- `match_len` of `of13_get_pkt_data`. -/
def match_len : UINT4 := UInt32.ofNat msg.packetInMatch - 8

def of13_get_pkt_data : ℕ := msg.addr + (32 + msg.match_len + 2).toNat

/-- The packet that `packet_in_process` is called with. -/
def of13_msg_packet_in : packet_in_info_t where
  xid := ntoh msg.m (msg.addr + 4)
  buffer_id := ntoh msg.m (msg.addr + 8)
  inport := ntoh msg.m (msg.addr + 32)
  data_len := (msg.length.toUInt64 - 32 - UInt64.ofNat msg.packetInMatch + 8 - 2).toUInt32
  In_TableID := msg.m (msg.addr + 15)
  data := msg.of13_get_pkt_data

def packetInReads : List Access :=
  [.read (msg.addr + 15) 1, .read (msg.addr + 4) 4, .read (msg.addr + 8) 4, .read (msg.addr + 32) 4,
    .read (msg.addr + 2) 2, .read (msg.addr + 26) 2]

/-- What is asked of the handling of a packet-in. -/
structure PacketInKept : Prop where
  reads : ∀ a ∈ msg.packetInReads, a.Safe msg.addr msg.last
  match_len : (msg.match_len.toNat : ℤ) = msg.packetInMatch - 8
  data_len : (msg.of13_msg_packet_in.data_len.toNat : ℤ) = msg.length.toNat - 32 - msg.packetInMatch + 8 - 2

def flowRemoved : FlowRemoved := ⟨msg.m, msg.addr⟩

def flowRemovedReads : List Access := [.read (msg.addr + 16) 2, .read (msg.addr + 19) 1, .read (msg.addr + 50) 2]

/-- The loop over the match with the test reads inside of the message. -/
def ParsesInside (goesOn : UINT2 → UINT2 → Bool) : Prop :=
  ∀ vs c, Passes (parsePass (goesOn msg.flowRemoved.matchLength) msg.m) ⟨msg.addr + 52, 4, emptyOxm⟩ vs c →
    ∀ a ∈ parseAccesses (goesOn msg.flowRemoved.matchLength) msg.m c, a.Safe msg.addr msg.last

/-- What is asked of the handling of a removed flow: `of13_parse_match_nat` parses the match for the two priorities,
and `of13_parse_match` for all but the one of NAT flows. -/
structure FlowRemovedKept : Prop where
  terminates : ∀ openstack_on, ∃ fuel, (msg.flowRemoved.of13_msg_flow_removed openstack_on fuel).isSome
  reads : ∀ a ∈ msg.flowRemovedReads, a.Safe msg.addr msg.last
  parse_match : msg.flowRemoved.priority ≠ FABRIC_PRIORITY_NAT_FLOW → msg.ParsesInside aligned_below
  parse_match_nat : msg.flowRemoved.priority = FABRIC_PRIORITY_NAT_FLOW ∨
    msg.flowRemoved.priority = FABRIC_PRIORITY_LOADBALANCE_FLOW → msg.ParsesInside below_aligned

def multipartType : UINT2 := ntoh msg.m (msg.addr + 8)

def body_len : UINT2 := msg.length - 16

def portStart : PortCursor := ⟨msg.addr + 16, msg.body_len, MAX_PORTS, 0⟩

/-- For an `OFPMP_PORT_DESC` reply, where its ports are stored and their number, or nothing in case of `GN_ERR`. -/
def of13_msg_multipart_reply (fuel : ℕ) : Option (Option (List PortStore × ℕ)) :=
  if msg.length < 16 then some none else (run (portPass msg.m) fuel msg.portStart).map some

def multipartReads : List Access :=
  .read (msg.addr + 2) 2 :: if msg.length < 16 then [] else [.read (msg.addr + 8) 2]

/-- What is asked of the handling of an `OFPMP_PORT_DESC` reply. -/
structure PortDescKept : Prop where
  terminates : ∃ fuel, (msg.of13_msg_multipart_reply fuel).isSome
  reads : ∀ a ∈ msg.multipartReads, a.Safe msg.addr msg.last
  port_reads : 16 ≤ msg.length → ∀ vs c, Passes (portPass msg.m) msg.portStart vs c →
    ∀ a ∈ portAccesses c, a.Safe msg.addr msg.last
  body_len : (msg.body_len.toNat : ℤ) = msg.length.toNat - 16
  body_lens : 16 ≤ msg.length → ∀ vs c, Passes (portPass msg.m) msg.portStart vs c → c.GoesOn →
    ((c.body_len - 64).toNat : ℤ) = c.body_len.toNat - 64
  stores : ∀ vs c, Passes (portPass msg.m) msg.portStart vs c →
    ∀ n_ports port lldp_tx, .ports n_ports port lldp_tx ∈ vs → n_ports < MAX_PORTS

/-- The message is handled with all of its reads inside of it, lengths that do not wrap around below zero and stores in
`sw->ports` only. -/
def HandledInside : Prop :=
  (msg.type = OFPT13_PACKET_IN → msg.PacketInKept) ∧ (msg.type = OFPT13_FLOW_REMOVED → msg.FlowRemovedKept) ∧
    (msg.type = OFPT13_MULTIPART_REPLY → msg.multipartType = OFPMP_PORT_DESC → msg.PortDescKept)

/-- The OXMs that the loop comes to lie inside of the message. -/
def OxmsInside (goesOn : UINT2 → UINT2 → Bool) : Prop :=
  ∀ v ∈ oxmVisits (goesOn msg.flowRemoved.matchLength) msg.m (msg.addr + 52) 4, v.Inside msg.last

structure PacketInFits : Prop where
  inport : 36 ≤ msg.length.toNat
  match_pos : 0 < msg.packetInMatch
  data : 26 + msg.packetInMatch ≤ msg.length.toNat

structure FlowRemovedFits : Prop where
  match_length : 52 ≤ msg.length.toNat
  oxms : msg.flowRemoved.priority ≠ FABRIC_PRIORITY_NAT_FLOW → msg.OxmsInside aligned_below
  nat_oxms : msg.flowRemoved.priority = FABRIC_PRIORITY_NAT_FLOW ∨
    msg.flowRemoved.priority = FABRIC_PRIORITY_LOADBALANCE_FLOW → msg.OxmsInside below_aligned

/-- The body is one of whole ports. -/
structure PortDescFits : Prop where
  header : 16 ≤ msg.length.toNat
  ports : (msg.length.toNat - 16) % 64 = 0

/-- The lengths in the message fit each other. -/
def Fits : Prop :=
  (msg.type = OFPT13_PACKET_IN → msg.PacketInFits) ∧ (msg.type = OFPT13_FLOW_REMOVED → msg.FlowRemovedFits) ∧
    (msg.type = OFPT13_MULTIPART_REPLY → msg.multipartType = OFPMP_PORT_DESC → msg.PortDescFits)

section

variable {msg : OfpMessage} {goesOn : UINT2 → UINT2 → Bool} {m : Memory} {c c' : PortCursor}

theorem packetInMatch_le : msg.packetInMatch ≤ 2 ^ 16 := by
  have hlt := (ntoh msg.m (msg.addr + 26) : UINT2).toNat_lt
  rw [packetInMatch, ALIGN_8]
  omega

theorem match_len_iff : (msg.match_len.toNat : ℤ) = msg.packetInMatch - 8 ↔ 8 ≤ msg.packetInMatch := by
  have hle := msg.packetInMatch_le
  rw [match_len, UInt32.toNat_sub, UInt32.toNat_ofNat']
  simp only [UInt32.reduceToNat]
  omega

theorem data_len_iff :
    (msg.of13_msg_packet_in.data_len.toNat : ℤ) = msg.length.toNat - 32 - msg.packetInMatch + 8 - 2 ↔
      26 + msg.packetInMatch ≤ msg.length.toNat := by
  have hle := msg.packetInMatch_le
  have hlt := msg.length.toNat_lt
  have hvalue : msg.of13_msg_packet_in.data_len.toNat =
      (msg.length.toNat + (2 ^ 32 - 26) + (2 ^ 32 - msg.packetInMatch)) % 2 ^ 32 := by
    simp only [of13_msg_packet_in, UInt64.toNat_toUInt32, UInt64.toNat_sub, UInt64.toNat_add, UInt16.toNat_toUInt64,
      UInt64.toNat_ofNat', UInt64.reduceToNat]
    omega
  rw [hvalue]
  omega

theorem packetInKept_iff : msg.PacketInKept ↔ msg.PacketInFits := by
  have hreads : (∀ a ∈ msg.packetInReads, a.Safe msg.addr msg.last) ↔ 36 ≤ msg.length.toNat := by
    simp only [packetInReads, List.forall_mem_cons, List.not_mem_nil, false_imp_iff, implies_true, and_true,
      Access.safe_read, last]
    omega
  have hpos : 8 ≤ msg.packetInMatch ↔ 0 < msg.packetInMatch := by
    rw [packetInMatch, ALIGN_8]
    omega
  constructor
  · rintro ⟨h, hmatch, hdata⟩
    exact ⟨hreads.mp h, hpos.mp (match_len_iff.mp hmatch), data_len_iff.mp hdata⟩
  · rintro ⟨h, hmatch, hdata⟩
    exact ⟨hreads.mpr h, match_len_iff.mpr (hpos.mpr hmatch), data_len_iff.mpr hdata⟩

theorem aligned_below_down (totalLen a b : UINT2) (hba : b.toNat ≤ a.toNat) (ha : aligned_below totalLen a) :
    aligned_below totalLen b := by
  have hlt := of_decide_eq_true ha
  apply decide_eq_true
  rw [ALIGN_8] at hlt ⊢
  omega

theorem below_aligned_down (totalLen a b : UINT2) (hba : b.toNat ≤ a.toNat) (ha : below_aligned totalLen a) :
    below_aligned totalLen b := by
  exact decide_eq_true (hba.trans_lt (of_decide_eq_true ha))

/-- Where the OXMs lie inside of the message, the loop over them ends. -/
theorem OxmsInside.ends (h : msg.OxmsInside goesOn) : msg.ParsesInside goesOn ∧
    ∃ n, ∀ fuel, n ≤ fuel → (run (parsePass (goesOn msg.flowRemoved.matchLength) msg.m) fuel
      ⟨msg.addr + 52, 4, emptyOxm⟩).isSome := by
  have hlo : msg.addr ≤ msg.addr + 52 := Nat.le_add_right _ _
  obtain ⟨⟨vs, oxm, hends⟩, hsafe⟩ := keeps_of_inside (c := ⟨msg.addr + 52, 4, emptyOxm⟩) h hlo
  obtain ⟨n, hn⟩ := hends.run_eq
  exact ⟨hsafe, n, fun fuel hle => by rw [hn fuel hle]; rfl⟩

theorem ParsesInside.oxms (hdown : ∀ totalLen a b, b.toNat ≤ a.toNat → goesOn totalLen a → goesOn totalLen b)
    (h : msg.ParsesInside goesOn) : msg.OxmsInside goesOn := by
  have haddr : msg.addr + 52 = msg.addr + 48 + (4 : UINT2).toNat := rfl
  have hlast : msg.last < msg.addr + 2 ^ 16 := Nat.add_lt_add_left msg.length.toNat_lt _
  exact inside_of_safe (c := ⟨msg.addr + 52, 4, emptyOxm⟩) (hdown _) haddr hlast (Nat.le_add_right _ _) h

theorem flowRemoved_isSome {removed : FlowRemoved} {openstack_on : Bool} {fuel : ℕ}
    (hmatch : removed.priority ≠ FABRIC_PRIORITY_NAT_FLOW →
      (of13_parse_match removed.m removed.of_match fuel).isSome)
    (hnat : removed.priority = FABRIC_PRIORITY_NAT_FLOW ∨ removed.priority = FABRIC_PRIORITY_LOADBALANCE_FLOW →
      (of13_parse_match_nat removed.m removed.of_match fuel).isSome) :
    (removed.of13_msg_flow_removed openstack_on fuel).isSome := by
  have hlbaas : (removed.lbaas_connects openstack_on fuel).isSome := by
    rw [FlowRemoved.lbaas_connects]
    by_cases hpriority : removed.priority = FABRIC_PRIORITY_LOADBALANCE_FLOW
    · rw [if_pos hpriority, Option.isSome_map]
      exact hnat (.inr hpriority)
    · rw [if_neg hpriority]
      rfl
  obtain ⟨lbaas, hlbaas⟩ := Option.isSome_iff_exists.mp hlbaas
  rw [FlowRemoved.of13_msg_flow_removed, hlbaas, Option.bind_some]
  by_cases hpriority : removed.priority = FABRIC_PRIORITY_NAT_FLOW
  · rw [if_neg (not_not.mpr hpriority), Option.isSome_map]
    exact hnat (.inl hpriority)
  · rw [if_pos hpriority, Option.isSome_map]
    exact hmatch hpriority

theorem FlowRemovedFits.terminates (h : msg.FlowRemovedFits) (openstack_on : Bool) :
    ∃ fuel, (msg.flowRemoved.of13_msg_flow_removed openstack_on fuel).isSome := by
  have hmatch : ∃ n, ∀ fuel, n ≤ fuel → msg.flowRemoved.priority ≠ FABRIC_PRIORITY_NAT_FLOW →
      (of13_parse_match msg.m msg.flowRemoved.of_match fuel).isSome := by
    by_cases hpriority : msg.flowRemoved.priority = FABRIC_PRIORITY_NAT_FLOW
    · exact ⟨0, fun _ _ hother => absurd hpriority hother⟩
    · obtain ⟨-, n, hn⟩ := OxmsInside.ends (h.oxms hpriority)
      exact ⟨n, fun fuel hle _ => (Option.isSome_map).trans (hn fuel hle)⟩
  have hnat : ∃ n, ∀ fuel, n ≤ fuel → msg.flowRemoved.priority = FABRIC_PRIORITY_NAT_FLOW ∨
      msg.flowRemoved.priority = FABRIC_PRIORITY_LOADBALANCE_FLOW →
      (of13_parse_match_nat msg.m msg.flowRemoved.of_match fuel).isSome := by
    by_cases hpriority : msg.flowRemoved.priority = FABRIC_PRIORITY_NAT_FLOW ∨
        msg.flowRemoved.priority = FABRIC_PRIORITY_LOADBALANCE_FLOW
    · obtain ⟨-, n, hn⟩ := OxmsInside.ends (h.nat_oxms hpriority)
      exact ⟨n, fun fuel hle _ => (Option.isSome_map).trans (hn fuel hle)⟩
    · exact ⟨0, fun _ _ hone => absurd hone hpriority⟩
  obtain ⟨i, hi⟩ := hmatch
  obtain ⟨j, hj⟩ := hnat
  exact ⟨max i j, flowRemoved_isSome (hi _ (le_max_left i j)) (hj _ (le_max_right i j))⟩

theorem flowRemovedKept_iff : msg.FlowRemovedKept ↔ msg.FlowRemovedFits := by
  have hreads : (∀ a ∈ msg.flowRemovedReads, a.Safe msg.addr msg.last) ↔ 52 ≤ msg.length.toNat := by
    simp only [flowRemovedReads, List.forall_mem_cons, List.not_mem_nil, false_imp_iff, implies_true, and_true,
      Access.safe_read, last]
    omega
  constructor
  · rintro ⟨-, h, hmatch, hnat⟩
    exact ⟨hreads.mp h, fun hpriority => (hmatch hpriority).oxms aligned_below_down,
      fun hpriority => (hnat hpriority).oxms below_aligned_down⟩
  · intro h
    exact ⟨h.terminates, hreads.mpr h.match_length, fun hpriority => (OxmsInside.ends (h.oxms hpriority)).1,
      fun hpriority => (OxmsInside.ends (h.nat_oxms hpriority)).1⟩

/-- The cursor after a pass goes on behind the port. -/
theorem portPass_next {e : PortStore} (h : portPass m c = .next e c') : c.GoesOn ∧ c'.port = c.port + 64 ∧
    c'.body_len = c.body_len - 64 ∧ c'.loops = c.loops - 1 := by
  rw [portPass] at h
  split at h
  · next hgoes =>
    dsimp only at h
    split at h
    · cases h
      exact ⟨hgoes, rfl, rfl, rfl⟩
    · cases h
      exact ⟨hgoes, rfl, rfl, rfl⟩
  · cases h

theorem portPass_stores {e : PortStore} (h : portPass m c = .next e c') :
    ∀ n_ports port lldp_tx, e = .ports n_ports port lldp_tx → n_ports < MAX_PORTS := by
  rintro n_ports port lldp_tx rfl
  rw [portPass] at h
  split at h
  · dsimp only at h
    split at h
    · cases h
    · cases h
      rw [MAX_PORTS]
      split_ifs <;> omega
  · cases h

theorem exists_portPass_next (h : c.GoesOn) : ∃ e c', portPass m c = .next e c' := by
  rw [portPass, if_pos h]
  dsimp only
  split
  · exact ⟨_, _, rfl⟩
  · exact ⟨_, _, rfl⟩

theorem ends_ports (m : Memory) (c : PortCursor) : ∃ vs r, Ends (portPass m) c vs r := by
  apply ends_of_measure (I := fun _ => True) PortCursor.loops _ _ trivial
  · intro c _ h
    rw [portPass] at h
    dsimp only at h
    split_ifs at h
  · intro c e c' _ h
    obtain ⟨hgoes, -, -, hloops⟩ := portPass_next h
    have hpos := hgoes.2
    exact ⟨trivial, by omega⟩

/-- The body that is left is one of whole ports up to the end of the message. -/
structure PortsLeft (msg : OfpMessage) (c : PortCursor) : Prop where
  start : msg.addr ≤ c.port
  last : c.port + c.body_len.toNat = msg.last
  ports : c.body_len.toNat % 64 = 0

theorem PortsLeft.le_body_len (h : msg.PortsLeft c) (hgoes : c.GoesOn) : 64 ≤ c.body_len.toNat := by
  have hpos : c.body_len.toNat ≠ 0 := fun hzero => hgoes.1 (UInt16.toNat_inj.mp hzero)
  have hports := h.ports
  omega

theorem PortsLeft.next {e : PortStore} (h : msg.PortsLeft c) (hpass : portPass m c = .next e c') :
    msg.PortsLeft c' := by
  obtain ⟨hgoes, hport, hbody, -⟩ := portPass_next hpass
  have hle := h.le_body_len hgoes
  have hsub : (c.body_len - 64).toNat = c.body_len.toNat - 64 := UInt16.toNat_sub_of_le _ _ hle
  have hstart := h.start
  have hlast := h.last
  have hports := h.ports
  exact ⟨by omega, by rw [hport, hbody, hsub]; omega, by rw [hbody, hsub]; omega⟩

/-- A rest of the body that is less than a port is come to. -/
theorem exists_rest {q r : ℕ} (hr : 0 < r) (hbody : c.body_len.toNat = 64 * q + r) (hloops : q + 1 < c.loops) :
    ∃ vs c', Passes (portPass m) c vs c' ∧ c'.GoesOn ∧ c'.body_len.toNat = r := by
  have hgoes (c : PortCursor) (hpos : 0 < c.body_len.toNat) (hloops : 1 < c.loops) : c.GoesOn := by
    refine ⟨?_, by omega⟩
    intro hzero
    rw [hzero] at hpos
    exact absurd hpos (by decide)
  induction q generalizing c with
  | zero => exact ⟨[], c, .refl, hgoes c (by omega) (by omega), by omega⟩
  | succ q ih =>
    obtain ⟨e, c₁, hpass⟩ := exists_portPass_next (m := m) (hgoes c (by omega) (by omega))
    obtain ⟨-, -, hbody₁, hloops₁⟩ := portPass_next hpass
    have hsub : (c.body_len - 64).toNat = c.body_len.toNat - 64 :=
      UInt16.toNat_sub_of_le _ _ (show 64 ≤ c.body_len.toNat by omega)
    obtain ⟨vs, c', hp, hrest⟩ := ih (c := c₁) (by rw [hbody₁, hsub]; omega) (by omega)
    exact ⟨e :: vs, c', .next hpass hp, hrest⟩

theorem toNat_body_len (h : 16 ≤ msg.length.toNat) : msg.body_len.toNat = msg.length.toNat - 16 :=
  UInt16.toNat_sub_of_le _ _ h

theorem PortDescFits.start (h : msg.PortDescFits) : msg.PortsLeft msg.portStart := by
  have hbody := toNat_body_len h.header
  have hheader := h.header
  refine ⟨Nat.le_add_right _ _, ?_, ?_⟩
  · show msg.addr + 16 + msg.body_len.toNat = msg.addr + msg.length.toNat
    omega
  · show msg.body_len.toNat % 64 = 0
    rw [hbody, h.ports]

theorem portDescFits_of_kept (h : msg.PortDescKept) : msg.PortDescFits := by
  have hbody := h.body_len
  have hheader : 16 ≤ msg.length.toNat := by omega
  refine ⟨hheader, ?_⟩
  by_contra hrest
  have hlt := msg.length.toNat_lt
  have hstart : msg.portStart.body_len.toNat = 64 * ((msg.length.toNat - 16) / 64) + (msg.length.toNat - 16) % 64 := by
    rw [Nat.div_add_mod]
    exact toNat_body_len hheader
  have hloops : (msg.length.toNat - 16) / 64 + 1 < msg.portStart.loops := by
    show _ < 65535
    omega
  obtain ⟨vs, c, hp, hgoes, hc⟩ := exists_rest (m := msg.m) (Nat.pos_of_ne_zero hrest) hstart hloops
  have hwrap := h.body_lens (UInt16.le_iff_toNat_le.mpr hheader) vs c hp hgoes
  have hsmall := Nat.mod_lt (msg.length.toNat - 16) (show 64 > 0 by decide)
  omega

theorem portDescKept_of_fits (h : msg.PortDescFits) : msg.PortDescKept := by
  have hheader := h.header
  have hlength : ¬ msg.length < 16 := fun hlt => absurd (UInt16.lt_iff_toNat_lt.mp hlt) (Nat.not_lt.mpr hheader)
  have hleft (vs : List PortStore) (c : PortCursor) (hp : Passes (portPass msg.m) msg.portStart vs c) :
      msg.PortsLeft c := hp.invariant (fun _ _ _ hs hpass => hs.next hpass) h.start
  constructor
  · obtain ⟨vs, r, hends⟩ := ends_ports msg.m msg.portStart
    obtain ⟨fuel, hrun⟩ := hends.exists_run
    refine ⟨fuel, ?_⟩
    rw [of13_msg_multipart_reply, if_neg hlength, hrun]
    rfl
  · simp only [multipartReads, if_neg hlength, List.forall_mem_cons, List.not_mem_nil, false_imp_iff, implies_true,
      and_true, Access.safe_read, last]
    omega
  · intro _ vs c hp
    rw [portAccesses]
    split_ifs with hgoes
    · have hc := hleft vs c hp
      have hle := hc.le_body_len hgoes
      have hstart := hc.start
      have hlast := hc.last
      simp only [portReads, List.forall_mem_cons, List.not_mem_nil, false_imp_iff, implies_true, and_true,
        Access.safe_read]
      omega
    · exact List.forall_mem_nil _
  · rw [toNat_body_len hheader]
    omega
  · intro _ vs c hp hgoes
    have hle := (hleft vs c hp).le_body_len hgoes
    have hsub : (c.body_len - 64).toNat = c.body_len.toNat - 64 := UInt16.toNat_sub_of_le _ _ hle
    rw [hsub]
    omega
  · intro vs c hp n_ports port lldp_tx hmem
    exact hp.events (fun _ _ _ hpass => portPass_stores hpass) _ hmem n_ports port lldp_tx rfl

/-- A message is handled inside of its bytes if and only if its lengths fit each other. -/
theorem handled_inside_iff (msg : OfpMessage) : msg.HandledInside ↔ msg.Fits := by
  rw [HandledInside, Fits, packetInKept_iff, flowRemovedKept_iff]
  have hports : msg.PortDescKept ↔ msg.PortDescFits := ⟨portDescFits_of_kept, portDescKept_of_fits⟩
  rw [hports]

/-- A packet-in of a header only. -/
theorem header_only_not_inside : ¬ ∀ msg : OfpMessage, 8 ≤ msg.length.toNat → msg.HandledInside := by
  intro h
  have hkept := (h ⟨memoryOf [4, 10, 0, 8, 0, 0, 0, 0], 0⟩ (by decide)).1 (by decide)
  exact absurd (packetInKept_iff.mp hkept).inport (by decide)

end

end OfpMessage

end DCFabric
