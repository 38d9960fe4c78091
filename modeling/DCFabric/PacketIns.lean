import DCFabric.SwitchMessages

namespace DCFabric

open TlvStreams

/-- The number of the message in OpenFlow 1.0. -/
def OFPT_PACKET_IN : UINT1 := 10

namespace COfMsgUtil

variable (msg : OfpMessage)

def pktOfs : UINT4 := 32 + (UInt32.ofNat msg.packetInMatch - 8) + 2

def getPktInData : ℕ := msg.addr + (pktOfs msg).toNat

def ofpPacketInConvertter (pktin : packet_in_info_t) : packet_in_info_t :=
  if msg.type = OFPT13_PACKET_IN then
    { pktin with
      xid := ntoh msg.m (msg.addr + 4)
      buffer_id := ntoh msg.m (msg.addr + 8)
      inport := ntoh msg.m (msg.addr + 32)
      data_len := (msg.length.toUInt64 - 32 - UInt64.ofNat msg.packetInMatch + 8 - 2).toUInt32
      data := getPktInData msg }
  else if msg.type = OFPT_PACKET_IN then
    { pktin with
      xid := ntoh msg.m (msg.addr + 4)
      buffer_id := ntoh msg.m (msg.addr + 8)
      inport := (ntoh msg.m (msg.addr + 14) : UINT2).toUInt32
      data_len := (msg.length.toUInt64 - 18).toUInt32
      data := msg.addr + 18 }
  else pktin

/-- What the first branch reads. -/
def convertterReads : List Access :=
  [.read (msg.addr + 1) 1, .read (msg.addr + 4) 4, .read (msg.addr + 8) 4, .read (msg.addr + 32) 4,
    .read (msg.addr + 2) 2, .read (msg.addr + 26) 2]

def matchLength : UINT2 := ntoh msg.m (msg.addr + 26)

/-- The field lies in the match and is `OFPXMT_OFB_IN_PORT`, which has no mask. -/
def isInPort (v : OxmVisit) : Bool :=
  (ntoh msg.m v.addr : UINT2) = OFPXMC_OPENFLOW_BASIC ∧ v.field_hm = 0 ∧ v.length = 4 ∧
    v.used + 8 ≤ (matchLength msg).toNat

/-- The `IN_PORT` field of the match. -/
def inPortField : Option OxmVisit :=
  (oxmWalk msg.m (matchLength msg).toNat (msg.addr + 28) 4).find? (isInPort msg)

/-- `pktin` is read from inside of the message, and tells where its packet lies and the port in its match. -/
structure Describes (pktin : packet_in_info_t) : Prop where
  reads : ∀ a ∈ convertterReads msg, a.Safe msg.addr msg.last
  data : pktin.data = msg.addr + 24 + msg.packetInMatch + 2
  inside : pktin.data ≤ msg.last
  data_len : pktin.data + pktin.data_len.toNat = msg.last
  inport : ∀ v ∈ inPortField msg, pktin.inport = ntoh msg.m (v.addr + 4)

/-- The match ends in the message, and the port stands first in it or is equal to what stands there. -/
structure WellPlaced : Prop where
  first : 36 ≤ msg.length.toNat
  data : 26 + msg.packetInMatch ≤ msg.length.toNat
  inport : ∀ v ∈ inPortField msg,
    v.addr = msg.addr + 28 ∨ load msg.m (v.addr + 4) 4 = load msg.m (msg.addr + 32) 4

section

variable {msg : OfpMessage} {pktin : packet_in_info_t}

theorem getPktInData_eq : getPktInData msg = msg.addr + 24 + msg.packetInMatch + 2 := by
  have hle := msg.packetInMatch_le
  have hofs : (pktOfs msg).toNat = 26 + msg.packetInMatch := by
    rw [pktOfs, UInt32.toNat_add, UInt32.toNat_add, UInt32.toNat_sub, UInt32.toNat_ofNat']
    simp only [UInt32.reduceToNat]
    omega
  rw [getPktInData, hofs]
  omega

theorem reads_iff : (∀ a ∈ convertterReads msg, a.Safe msg.addr msg.last) ↔ 36 ≤ msg.length.toNat := by
  simp only [convertterReads, List.forall_mem_cons, List.not_mem_nil, false_imp_iff, implies_true, and_true,
    Access.safe_read, OfpMessage.last]
  omega

theorem data_len_toNat : (msg.length.toUInt64 - 32 - UInt64.ofNat msg.packetInMatch + 8 - 2).toUInt32.toNat =
    (msg.length.toNat + (2 ^ 32 - 26) + (2 ^ 32 - msg.packetInMatch)) % 2 ^ 32 := by
  have hle := msg.packetInMatch_le
  have hlt := msg.length.toNat_lt
  simp only [UInt64.toNat_toUInt32, UInt64.toNat_sub, UInt64.toNat_add, UInt16.toNat_toUInt64, UInt64.toNat_ofNat',
    UInt64.reduceToNat]
  omega

theorem inPortField_first (h : isInPort msg ⟨msg.addr + 28, 4, msg.m (msg.addr + 30), msg.m (msg.addr + 31)⟩) :
    inPortField msg = some ⟨msg.addr + 28, 4, msg.m (msg.addr + 30), msg.m (msg.addr + 31)⟩ := by
  have hlen : 4 < (matchLength msg).toNat := by
    rw [isInPort, decide_eq_true_iff] at h
    omega
  rw [inPortField, oxmWalk, if_pos hlen]
  exact List.find?_cons_of_pos h

theorem leNat_inj {bs cs : List UInt8} (hlen : bs.length = cs.length) (h : leNat bs = leNat cs) : bs = cs := by
  rw [← leBytes_leNat bs, ← leBytes_leNat cs, hlen, h]

theorem ntoh_inj {m : Memory} {a b : ℕ} : (ntoh m a : UINT4) = ntoh m b ↔ load m a 4 = load m b 4 := by
  constructor
  · intro h
    have hlt : ∀ addr, leNat (load m addr 4).reverse < 2 ^ 32 := by
      intro addr
      have hlt := leNat_lt (load m addr 4).reverse
      rwa [List.length_reverse, length_load] at hlt
    have hnat := congrArg UInt32.toNat h
    change (UInt32.ofNat (leNat (load m a 4).reverse)).toNat = (UInt32.ofNat (leNat (load m b 4).reverse)).toNat at hnat
    rw [UInt32.toNat_ofNat_of_lt' (hlt a), UInt32.toNat_ofNat_of_lt' (hlt b)] at hnat
    exact List.reverse_injective (leNat_inj (by simp) hnat)
  · intro h
    exact congrArg (fun bs => (Word.ofNat (leNat (List.reverse bs)) : UINT4)) h

theorem ofpPacketInConvertter_eq (htype : msg.type = OFPT13_PACKET_IN) :
    ofpPacketInConvertter msg pktin =
      { pktin with
        xid := ntoh msg.m (msg.addr + 4)
        buffer_id := ntoh msg.m (msg.addr + 8)
        inport := ntoh msg.m (msg.addr + 32)
        data_len := (msg.length.toUInt64 - 32 - UInt64.ofNat msg.packetInMatch + 8 - 2).toUInt32
        data := getPktInData msg } :=
  if_pos htype

/-- The packet and the port are those of the message if and only if these lengths fit and the port stands first. -/
theorem convertter_describes_iff (msg : OfpMessage) (pktin : packet_in_info_t) (htype : msg.type = OFPT13_PACKET_IN) :
    Describes msg (ofpPacketInConvertter msg pktin) ↔ WellPlaced msg := by
  have hle := msg.packetInMatch_le
  have hlt := msg.length.toNat_lt
  have hlast : msg.last = msg.addr + msg.length.toNat := rfl
  rw [ofpPacketInConvertter_eq htype]
  constructor
  · rintro ⟨hreads, -, hinside, -, hport⟩
    dsimp only at hinside
    rw [getPktInData_eq] at hinside
    refine ⟨reads_iff.mp hreads, by omega, fun v hv => ?_⟩
    exact .inr (ntoh_inj.mp (hport v hv).symm)
  · rintro ⟨hreads, hdata, hport⟩
    refine ⟨reads_iff.mpr hreads, getPktInData_eq, ?_, ?_, fun v hv => ?_⟩
    · dsimp only
      rw [getPktInData_eq]
      omega
    · dsimp only
      rw [getPktInData_eq, data_len_toNat]
      omega
    · rcases hport v hv with hfirst | hsame
      · rw [hfirst]
      · exact ntoh_inj.mpr hsame.symm

/-- The packet-in with these bytes. -/
def packetIn (bytes : List UINT1) : OfpMessage := ⟨fun addr => bytes.getD addr 0, 0⟩

def noPacket : packet_in_info_t := ⟨0, 0, 0, 0, 0, 0⟩

/-- The header, and all that stands before the match. -/
def packetInBegin (length : UINT1) : List UINT1 := [4, 10, 0, length] ++ List.replicate 20 0

def inPortOxm : List UINT1 := [0x80, 0, 0, 4, 0, 0, 0, 7]

def ethTypeOxm : List UINT1 := [0x80, 0, 10, 2, 0x88, 0xcc]

/-- A packet of 14 bytes that came in at port 7. -/
def wholePacketIn : OfpMessage :=
  packetIn (packetInBegin 56 ++ [0, 1, 0, 12] ++ inPortOxm ++ List.replicate 4 0 ++ List.replicate 16 0)

theorem wholePacketIn_described : Describes wholePacketIn (ofpPacketInConvertter wholePacketIn noPacket) := by
  apply (convertter_describes_iff wholePacketIn noPacket (by decide)).mpr
  refine ⟨by decide, by decide, fun v hv => ?_⟩
  rw [inPortField_first (by decide), Option.mem_some_iff] at hv
  exact .inl (congrArg OxmVisit.addr hv.symm)

/-- The message ends before the padding of its match. -/
def cutPacketIn : OfpMessage := packetIn (packetInBegin 36 ++ [0, 1, 0, 12] ++ inPortOxm)

/-- The match names the type of the packet before its port. -/
def reorderedPacketIn : OfpMessage :=
  packetIn (packetInBegin 64 ++ [0, 1, 0, 18] ++ ethTypeOxm ++ inPortOxm ++ List.replicate 6 0 ++ List.replicate 16 0)

theorem cut_reordered_not_described :
    (cutPacketIn.type = OFPT13_PACKET_IN ∧ 8 ≤ cutPacketIn.length.toNat ∧
      ¬Describes cutPacketIn (ofpPacketInConvertter cutPacketIn noPacket)) ∧
    reorderedPacketIn.type = OFPT13_PACKET_IN ∧ 8 ≤ reorderedPacketIn.length.toNat ∧
      ¬Describes reorderedPacketIn (ofpPacketInConvertter reorderedPacketIn noPacket) := by
  refine ⟨⟨by decide, by decide, fun h => absurd h.data_len (by decide)⟩, by decide, by decide, fun h => ?_⟩
  have hfield : inPortField reorderedPacketIn = some ⟨34, 10, 0, 4⟩ := by
    rw [inPortField, oxmWalk, if_pos (by decide), List.find?_cons_of_neg (by decide), oxmWalk, if_pos (by decide),
      List.find?_cons_of_pos (by decide)]
    rfl
  exact absurd (h.inport _ hfield) (by decide)

end

end COfMsgUtil

end DCFabric
