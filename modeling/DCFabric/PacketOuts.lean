import DCFabric.FlowModEncode
import DCFabric.OfRecvWorker
import DCFabric.PacketIns

namespace DCFabric

open TlvStreams

def OFPT13_PACKET_OUT : UINT1 := 13
def OFP_NO_BUFFER : UINT4 := 0xffffffff
def MAX_MSG_LEN : ℕ := 10240

/-- The null pointer is the address 0. -/
structure packout_req_info_t where
  xid : UINT4
  buffer_id : UINT4
  inport : UINT4
  outport : UINT4
  max_len : UINT2
  data_len : UINT2
  data : ℕ

namespace COfMsgUtil

/-- The 40 bytes before the packet: `xid` is in the order of the host. -/
def packetOutBegin (pktout : packout_req_info_t) (xid : UINT4) (total_len : UINT2) : List UINT1 :=
  [OFP13_VERSION, OFPT13_PACKET_OUT] ++ hton total_len ++ leBytes 4 xid.toNat ++ hton pktout.buffer_id ++
    hton pktout.inport ++ hton (16 : UINT2) ++ List.replicate 6 0 ++ hton OFPAT13_OUTPUT ++ hton (16 : UINT2) ++
    hton pktout.outport ++ hton pktout.max_len ++ List.replicate 6 0

/-- The bytes that are copied behind them. -/
def packetOutData (m : Memory) (pktout : packout_req_info_t) : List UINT1 :=
  if OFP_NO_BUFFER = pktout.buffer_id ∧ 0 < pktout.data_len ∧ pktout.data ≠ 0 then
    load m pktout.data pktout.data_len.toNat
  else []

/-- The message that is handed to `sendMsgOut`, or `none` where `buffer` is written or read behind its end. `stack`
holds the bytes of `buffer` before, and `rand` is what `randUint32` returns. -/
def sendOfp13PacketOut (m stack : Memory) (rand : UINT4) (pktout : packout_req_info_t) : Option (List UINT1) :=
  let total_len : UINT2 := if OFP_NO_BUFFER = pktout.buffer_id then 40 + pktout.data_len else 40
  let xid := if pktout.xid ≠ OF13_DEFAULT_XID then pktout.xid else rand
  let written := packetOutBegin pktout xid total_len ++ packetOutData m pktout
  if written.length ≤ MAX_MSG_LEN ∧ total_len.toNat ≤ MAX_MSG_LEN then
    some ((written ++ load stack written.length total_len.toNat).take total_len.toNat)
  else none

inductive PortType
  | none | mgmt | host | switch | external
deriving DecidableEq

/-- `ports` is in the order of `CPortMap`. -/
structure FloodSwitch where
  sockfd : INT4
  dpid : UINT8
  state : SwitchState
  manageMode : UINT1
  ports : List (UINT4 × PortType)

/-- What the floods read of the controller: `getSwitchMap` in its order, with `none` for a null pointer, and
`getLink` as the `dst_dpid` of the neighbour it finds. -/
structure FloodState where
  switches : List (Option FloodSwitch)
  getSwitchByDpid : UINT8 → Option FloodSwitch
  getLink : UINT8 → UINT4 → Option UINT8
  isL3ModeOn : Bool
  isExternalSwitch : UINT8 → Bool
  commentSwitchDpid : UINT8

/-- Whether a packet is sent to a port of type `PORT_TYPE_SWITCH`. -/
def FloodState.floodsLink (s : FloodState) (managed : UINT1 → Bool) (sw : FloodSwitch) (port_no : UINT4) : Bool :=
  match s.getLink sw.dpid port_no with
  | none => false
  | some dst_dpid =>
    if dst_dpid ≠ 0 ∧ dst_dpid = s.commentSwitchDpid then false
    else
      match s.getSwitchByDpid dst_dpid with
      | none => false
      | some neighbor_sw => managed sw.manageMode && neighbor_sw.manageMode = 0

/-- The ports a packet is sent to, with the switches they belong to. -/
def FloodState.targets (s : FloodState) (managed : UINT1 → Bool) : List (FloodSwitch × UINT4) :=
  s.switches.reduceOption.flatMap fun sw =>
    if s.isL3ModeOn && s.isExternalSwitch sw.dpid then []
    else
      (sw.ports.filter fun port => port.2 ≠ .switch || s.floodsLink managed sw port.1).map fun port => (sw, port.1)

section

variable (m stack : Memory) (rand : UINT4)

/-- What the four senders fill in alike. -/
def packoutTo (outport : UINT4) (data_len : UINT2) (data : ℕ) : packout_req_info_t where
  xid := 0
  buffer_id := 0xffffffff
  inport := OFPP13_CONTROLLER
  outport := outport
  max_len := 0xff
  data_len := data_len
  data := data

/-- The messages that are sent, with their sockets. -/
abbrev Sent := List (INT4 × Option (List UINT1))

/-- What a `forward` sends to a switch of which it reads the socket and the state, or none for a null pointer. -/
def forwarded (sw : Option (INT4 × SwitchState)) (port_no : UINT4) (message : Option (List UINT1)) : Sent :=
  match sw with
  | none => []
  | some target =>
    if port_no = 0 then [] else if .stable = target.2 then [(target.1, message)] else []

def forwardPacketIn (sw : Option (INT4 × SwitchState)) (port_no : UINT4) (packetin : Option packet_in_info_t) :
    Sent :=
  match packetin with
  | none => []
  | some packetin =>
    forwarded sw port_no
      (sendOfp13PacketOut m stack rand (packoutTo port_no packetin.data_len.toUInt16 packetin.data))

/-- `sizeof(packout_req_info_t)` is 32. -/
def forwardData (sw : Option (INT4 × SwitchState)) (port_no : UINT4) (data_len : INT4) (data : ℕ) : Sent :=
  forwarded sw port_no
    (sendOfp13PacketOut m stack rand (packoutTo port_no (UInt16.ofInt (data_len.toInt + 32)) data))

def ofp13floodInternalData (s : FloodState) (datalen : UINT4) (data : ℕ) : Sent :=
  if data = 0 ∨ datalen = 0 then []
  else
    ((s.targets (· = 1)).filter fun target => .stable = target.1.state).map fun target =>
      (target.1.sockfd, sendOfp13PacketOut m stack rand (packoutTo target.2 datalen.toUInt16 data))

def ofp13floodInternalPacketIn (s : FloodState) (packetin : Option packet_in_info_t) : Sent :=
  match packetin with
  | none => []
  | some packetin =>
    (s.targets (· ≠ 0)).map fun target =>
      (target.1.sockfd, sendOfp13PacketOut m stack rand (packoutTo target.2 packetin.data_len.toUInt16 packetin.data))

end

/-- The message has the packet behind its first 40 bytes and fits `buffer`, and its header tells its length. -/
structure Carries (packet bytes : List UINT1) : Prop where
  packet : bytes.drop 40 = packet
  begins : 40 ≤ bytes.length
  fits : bytes.length ≤ MAX_MSG_LEN
  length : (OfpHeader.ofBytes bytes).length = bytes.length

/-- Everything that is sent carries the packet. -/
def Whole (packet : List UINT1) (sent : Sent) : Prop := ∀ s ∈ sent, ∃ bytes, s.2 = some bytes ∧ Carries packet bytes

section

variable {m stack : Memory} {rand xid outport : UINT4} {data_len total_len : UINT2} {data n : ℕ}
  {pktout : packout_req_info_t}

theorem length_packetOutBegin : (packetOutBegin pktout xid total_len).length = 40 := by
  simp only [packetOutBegin, List.length_append, length_hton, length_leBytes, List.length_replicate]
  rfl

theorem hton_eq (v : UINT2) : hton v = [UInt8.ofNat (v.toNat / 256), UInt8.ofNat v.toNat] := rfl

/-- The header of a message that begins so names `total_len`. -/
theorem ofBytes_begin (rest : List UINT1) :
    (OfpHeader.ofBytes (packetOutBegin pktout xid total_len ++ rest)).length = total_len.toNat := by
  have hlt := total_len.toNat_lt
  rw [packetOutBegin, hton_eq total_len]
  change (UInt8.ofNat (total_len.toNat / 256)).toNat * 256 + (UInt8.ofNat total_len.toNat).toNat = _
  rw [UInt8.toNat_ofNat', UInt8.toNat_ofNat']
  omega

theorem packetOutData_packoutTo (hdata : data ≠ 0) :
    packetOutData m (packoutTo outport data_len data) = load m data data_len.toNat := by
  by_cases hzero : data_len = 0
  · rw [hzero]
    exact if_neg fun h => UInt16.lt_irrefl 0 h.2.1
  · exact if_pos ⟨rfl, UInt16.pos_iff_ne_zero.mpr hzero, hdata⟩

/-- Where the packet lies, `data_len` bytes of it are sent, unless they do not fit behind the first 40. -/
theorem sendOfp13PacketOut_packoutTo (hdata : data ≠ 0) :
    sendOfp13PacketOut m stack rand (packoutTo outport data_len data) =
      if data_len.toNat ≤ 10200 then
        some (packetOutBegin (packoutTo outport data_len data) 0 (40 + data_len) ++ load m data data_len.toNat)
      else none := by
  have htotal : (if OFP_NO_BUFFER = (packoutTo outport data_len data).buffer_id then
      40 + (packoutTo outport data_len data).data_len else 40) = 40 + data_len := if_pos rfl
  have hxid : (if (packoutTo outport data_len data).xid ≠ OF13_DEFAULT_XID then (packoutTo outport data_len data).xid
      else rand) = 0 := if_pos (by decide : (0 : UINT4) ≠ OF13_DEFAULT_XID)
  have hlen : (packetOutBegin (packoutTo outport data_len data) 0 (40 + data_len) ++
      load m data data_len.toNat).length = 40 + data_len.toNat := by
    rw [List.length_append, length_packetOutBegin, length_load]
  simp only [sendOfp13PacketOut, htotal, hxid, packetOutData_packoutTo hdata, hlen, MAX_MSG_LEN]
  by_cases hle : data_len.toNat ≤ 10200
  · have hnat : (40 + data_len).toNat = 40 + data_len.toNat := by
      rw [UInt16.toNat_add]
      exact Nat.mod_eq_of_lt (by simp only [UInt16.reduceToNat]; omega)
    rw [if_pos ⟨by omega, by omega⟩, if_pos hle, hnat, List.take_left' hlen]
  · rw [if_neg (fun h => hle (by omega)), if_neg hle]

theorem carries_iff (hdata : data ≠ 0) :
    (∃ bytes, sendOfp13PacketOut m stack rand (packoutTo outport data_len data) = some bytes ∧
      Carries (load m data n) bytes) ↔ data_len.toNat = n ∧ n ≤ 10200 := by
  rw [sendOfp13PacketOut_packoutTo hdata]
  constructor
  · rintro ⟨bytes, hsend, hcarries⟩
    split_ifs at hsend with hle
    · cases hsend
      have hpacket := congrArg List.length hcarries.packet
      rw [List.drop_append_of_le_length (by rw [length_packetOutBegin]), List.drop_eq_nil_of_le
        (by rw [length_packetOutBegin]), List.nil_append, length_load, length_load] at hpacket
      omega
  · rintro ⟨rfl, hle⟩
    rw [if_pos hle]
    refine ⟨_, rfl, ?_, ?_, ?_, ?_⟩
    · rw [List.drop_left' length_packetOutBegin]
    · rw [List.length_append, length_packetOutBegin]
      omega
    · rw [List.length_append, length_packetOutBegin, length_load, MAX_MSG_LEN]
      omega
    · rw [ofBytes_begin, List.length_append, length_packetOutBegin, length_load, UInt16.toNat_add]
      exact Nat.mod_eq_of_lt (by simp only [UInt16.reduceToNat]; omega)

theorem whole_map {α : Type} {packet : List UINT1} {targets : List α} {f : α → INT4 × Option (List UINT1)} {C : Prop}
    (hf : ∀ target, (∃ bytes, (f target).2 = some bytes ∧ Carries packet bytes) ↔ C) :
    Whole packet (targets.map f) ↔ targets = [] ∨ C := by
  rw [Whole, List.forall_mem_map]
  simp only [hf]
  cases targets with
  | nil => simp
  | cons target targets =>
    rw [or_iff_right (List.cons_ne_nil target targets)]
    exact ⟨fun h => h target List.mem_cons_self, fun h _ _ => h⟩

/-- A packet goes out to a port of a stable switch. -/
def Sends (sw : Option (INT4 × SwitchState)) (port_no : UINT4) : Prop :=
  port_no ≠ 0 ∧ ∃ sockfd, sw = some (sockfd, .stable)

theorem toUInt16_eq_iff {n : UINT4} : n.toUInt16.toNat = n.toNat ∧ n.toNat ≤ 10200 ↔ n.toNat ≤ 10200 := by
  rw [UInt32.toNat_toUInt16]
  omega

theorem whole_packet {data_len : UINT4} (hdata : data ≠ 0) :
    (∃ bytes, sendOfp13PacketOut m stack rand (packoutTo outport data_len.toUInt16 data) = some bytes ∧
      Carries (load m data data_len.toNat) bytes) ↔ data_len.toNat ≤ 10200 :=
  (carries_iff hdata).trans toUInt16_eq_iff

variable {sw : Option (INT4 × SwitchState)} {port_no : UINT4} {packetin : packet_in_info_t} {s : FloodState}

theorem whole_forwarded {packet : List UINT1} {message : Option (List UINT1)} {C : Prop}
    (hmessage : (∃ bytes, message = some bytes ∧ Carries packet bytes) ↔ C) :
    Whole packet (forwarded sw port_no message) ↔ ¬Sends sw port_no ∨ C := by
  by_cases hsends : Sends sw port_no
  · obtain ⟨hport, sockfd, rfl⟩ := id hsends
    simp only [forwarded, if_neg hport, or_iff_right (not_not.mpr hsends), ← hmessage]
    simp [Whole]
  · have hnone : forwarded sw port_no message = [] := by
      cases sw with
      | none => rfl
      | some target =>
        simp only [forwarded]
        split_ifs with hport hstate
        · rfl
        · exact absurd ⟨hport, target.1, by rw [hstate]⟩ hsends
        · rfl
    rw [hnone]
    exact iff_of_true (List.forall_mem_nil _) (.inl hsends)

theorem forwardPacketIn_whole (hdata : packetin.data ≠ 0) :
    Whole (load m packetin.data packetin.data_len.toNat) (forwardPacketIn m stack rand sw port_no (some packetin)) ↔
      ¬Sends sw port_no ∨ packetin.data_len.toNat ≤ 10200 :=
  whole_forwarded (whole_packet hdata)

/-- The 32 bytes behind the packet are sent too. -/
theorem forwardData_whole {data_len : INT4} (hdata : data ≠ 0) (hlen : 0 ≤ data_len) :
    Whole (load m data data_len.toNatClampNeg) (forwardData m stack rand sw port_no data_len data) ↔
      ¬Sends sw port_no := by
  apply (whole_forwarded (carries_iff hdata)).trans
  apply or_iff_left
  rintro ⟨hsize, hle⟩
  have hnonneg : 0 ≤ data_len.toInt := Int32.le_iff_toInt_le.mp hlen
  have hmod : (UInt16.ofInt (data_len.toInt + 32)).toNat = (data_len.toInt.toNat + 32) % 2 ^ 16 := by
    rw [UInt16.ofInt, UInt16.toNat_ofNat']
    omega
  rw [hmod] at hsize
  change _ = data_len.toInt.toNat at hsize
  omega

theorem ofp13floodInternalData_whole {datalen : UINT4} :
    Whole (load m data datalen.toNat) (ofp13floodInternalData m stack rand s datalen data) ↔
      data = 0 ∨ (∀ target ∈ s.targets (· = 1), target.1.state ≠ .stable) ∨ datalen.toNat ≤ 10200 := by
  by_cases hempty : data = 0 ∨ datalen = 0
  · rw [ofp13floodInternalData, if_pos hempty]
    refine iff_of_true (List.forall_mem_nil _) ?_
    rcases hempty with hdata | hlen
    · exact .inl hdata
    · exact .inr (.inr (by rw [hlen]; exact Nat.zero_le _))
  · obtain ⟨hdata, hlen⟩ := not_or.mp hempty
    rw [ofp13floodInternalData, if_neg hempty, or_iff_right hdata]
    apply (whole_map (C := datalen.toNat ≤ 10200) fun target => ?_).trans
    · rw [List.filter_eq_nil_iff]
      simp [eq_comm]
    · dsimp only
      exact whole_packet hdata

theorem ofp13floodInternalPacketIn_whole (hdata : packetin.data ≠ 0) :
    Whole (load m packetin.data packetin.data_len.toNat) (ofp13floodInternalPacketIn m stack rand s (some packetin)) ↔
      s.targets (· ≠ 0) = [] ∨ packetin.data_len.toNat ≤ 10200 := by
  simp only [ofp13floodInternalPacketIn]
  apply whole_map
  intro target
  dsimp only
  exact whole_packet hdata

end

/-- What is sent is whole if nothing is sent, or if the packet has at most 10200 bytes and is not sent with 32 bytes
behind it, as `forward` does with a packet that is not of a packet-in. -/
theorem packetOuts_whole_iff (m stack : Memory) (rand : UINT4) :
    (∀ sw port_no packetin, packetin.data ≠ 0 →
      (Whole (load m packetin.data packetin.data_len.toNat) (forwardPacketIn m stack rand sw port_no (some packetin)) ↔
        ¬Sends sw port_no ∨ packetin.data_len.toNat ≤ 10200)) ∧
    (∀ sw port_no data_len data, data ≠ 0 → 0 ≤ data_len →
      (Whole (load m data data_len.toNatClampNeg) (forwardData m stack rand sw port_no data_len data) ↔
        ¬Sends sw port_no)) ∧
    (∀ s datalen data,
      Whole (load m data datalen.toNat) (ofp13floodInternalData m stack rand s datalen data) ↔
        data = 0 ∨ (∀ target ∈ s.targets (· = 1), target.1.state ≠ .stable) ∨ datalen.toNat ≤ 10200) ∧
    ∀ s packetin, packetin.data ≠ 0 →
      (Whole (load m packetin.data packetin.data_len.toNat)
        (ofp13floodInternalPacketIn m stack rand s (some packetin)) ↔
        s.targets (· ≠ 0) = [] ∨ packetin.data_len.toNat ≤ 10200) := by
  refine ⟨?_, ?_, ?_, ?_⟩
  · exact fun sw port_no packetin hdata => forwardPacketIn_whole hdata
  · exact fun sw port_no data_len data hdata hlen => forwardData_whole hdata hlen
  · exact fun s datalen data => ofp13floodInternalData_whole
  · exact fun s packetin hdata => ofp13floodInternalPacketIn_whole hdata

theorem wholePacket_forwarded :
    Whole (load wholePacketIn.m 42 14) (forwardPacketIn wholePacketIn.m (fun _ => 0) 0 (some (5, .stable)) 1
      (some (ofpPacketInConvertter wholePacketIn noPacket))) :=
  ((packetOuts_whole_iff wholePacketIn.m (fun _ => 0) 0).1 _ _ _ (by decide)).mpr (.inr (by decide))

/-- A packet-in of 10342 bytes, with a packet of 10300. -/
def longPacketIn : OfpMessage :=
  packetIn ([4, 10, 0x28, 0x66] ++ List.replicate 20 0 ++ [0, 1, 0, 12] ++ inPortOxm)

def longPacket : packet_in_info_t := ofpPacketInConvertter longPacketIn noPacket

theorem arp_longPacket_not_whole :
    ¬Whole (load (fun _ => 0) 1000 42) (forwardData (fun _ => 0) (fun _ => 0) 0 (some (5, .stable)) 1 42 1000) ∧
      ¬Whole (load longPacketIn.m longPacket.data longPacket.data_len.toNat)
        (forwardPacketIn longPacketIn.m (fun _ => 0) 0 (some (5, .stable)) 1 (some longPacket)) := by
  have hsends : Sends (some (5, .stable)) 1 := ⟨by decide, 5, rfl⟩
  constructor
  · intro h
    exact (forwardData_whole (by decide) (show (0 : INT4) ≤ 42 by decide)).mp h hsends
  · intro h
    rcases (forwardPacketIn_whole (by decide)).mp h with hnone | hle
    · exact hnone hsends
    · exact absurd hle (by decide)

end COfMsgUtil

end DCFabric
