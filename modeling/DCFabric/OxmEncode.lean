import DCFabric.FlowRemovedParse

namespace DCFabric

open TlvStreams

/-- An integer in network order. -/
def hton {α : Type} [Word α] (a : α) : List UINT1 := (leBytes (Word.size α) (Word.toNat a)).reverse

def OFPXMC_OPENFLOW_BASIC : UINT2 := 0x8000

def OFPVID_PRESENT : UINT2 := 0x1000

/-- An `ofp_oxm_header` with its data. -/
structure Oxm where
  field_hm : UINT1
  data : List UINT1
deriving DecidableEq

def Oxm.bytes (oxm : Oxm) : List UINT1 :=
  hton OFPXMC_OPENFLOW_BASIC ++ [oxm.field_hm, UInt8.ofNat oxm.data.length] ++ oxm.data

/-- `cidr_to_subnet_mask`, before its `htonl`. -/
def cidr_to_subnet_mask (num : UINT4) : UINT4 := if 32 ≥ num then 0xffffffff <<< (32 - num) else 0

/-- The mask of an IPv6 prefix: one that is no multiple of 8 leaves the mask of the field before. -/
def setNetmaskv6 (netmaskv6 : List UINT1) (pre : ℕ) : List UINT1 :=
  if pre % 8 = 0 ∧ 8 ≤ pre ∧ pre ≤ 128 then List.replicate (pre / 8) 0xff ++ List.replicate (16 - pre / 8) 0
  else netmaskv6

namespace OxmField

/-- The fields `of13_add_oxm_field` writes, in its order. -/
def emitted : List OxmField :=
  [in_port, in_phy_port, metadata, eth_dst, eth_src, eth_type, vlan_vid, vlan_pcp, ip_dscp, ip_ecn, ip_proto,
    ipv4_src, ipv4_dst, tcp_src, tcp_dst, udp_src, udp_dst, icmpv4_type, icmpv4_code, arp_op, arp_spa, arp_tpa,
    arp_sha, arp_tha, ipv6_src, ipv6_dst, mpls_label, tunnel_id]

/-- The length that is counted for a field: that of `arp_sha` and of `arp_tha` is `OFPXMT_OFB_ETH_TYPE_SZ`. -/
def counted : OxmField → UINT2
  | arp_sha | arp_tha => 2
  | f => UInt16.ofNat f.size

end OxmField

/-- The locals of `of13_add_oxm_field`, with what is in `buf`. -/
structure OxmWriter where
  buf : List Oxm
  oxm_len : UINT2
  netmaskv6 : List UINT1

namespace OxmWriter

def start : OxmWriter := ⟨[], 0, List.replicate 16 0⟩

def add (w : OxmWriter) (f : OxmField) (data : List UINT1) (len : UINT2) : OxmWriter :=
  { w with buf := w.buf ++ [⟨f.bit.toUInt8 <<< 1, data⟩], oxm_len := w.oxm_len + (4 + len) }

def addMasked (w : OxmWriter) (f : OxmField) (data netmask : List UINT1) : OxmWriter :=
  { w with
    buf := w.buf ++ [⟨(f.bit.toUInt8 <<< 1) + 1, data ++ netmask⟩]
    oxm_len := w.oxm_len + UInt16.ofNat netmask.length + (4 + UInt16.ofNat data.length) }

end OxmWriter

def addIpv4 (oxm : gn_oxm_t) (f pre : OxmField) (num : UINT4) (w : OxmWriter) : OxmWriter :=
  if oxm.isSet pre then w.addMasked f (f.network (oxm.field f)) (hton (cidr_to_subnet_mask num))
  else w.add f (f.network (oxm.field f)) f.counted

def addIpv6 (oxm : gn_oxm_t) (f pre : OxmField) (w : OxmWriter) : OxmWriter :=
  if oxm.isSet pre then
    let w := { w with netmaskv6 := setNetmaskv6 w.netmaskv6 (oxm.field pre).toNat }
    w.addMasked f (f.network (oxm.field f)) w.netmaskv6
  else w.add f (f.network (oxm.field f)) f.counted

/-- What is written for a field that is present. -/
def addOxm (oxm : gn_oxm_t) (w : OxmWriter) : OxmField → OxmWriter
  | .metadata =>
    if oxm.isSet .metadata_mask then
      w.add .metadata (OxmField.network .metadata (oxm.field .metadata) ++
        OxmField.network .metadata_mask (oxm.field .metadata_mask)) 16
    else w.add .metadata (OxmField.network .metadata (oxm.field .metadata)) 8
  | .ipv4_src =>
    addIpv4 oxm .ipv4_src OxmField.ipv4_src_prefix (Word.ofNat (oxm.field OxmField.ipv4_src_prefix ).toNat) w
  | .ipv4_dst =>
    addIpv4 oxm .ipv4_dst OxmField.ipv4_dst_prefix (Word.ofNat (oxm.field OxmField.ipv4_dst_prefix ).toNat) w
  | .ipv6_src => addIpv6 oxm .ipv6_src OxmField.ipv6_src_prefix w
  | .ipv6_dst => addIpv6 oxm .ipv6_dst OxmField.ipv6_dst_prefix w
  | f => w.add f (f.network (oxm.field f)) f.counted

/-- `vlan_vid` is written back. -/
def gn_oxm_t.presentVlan (oxm : gn_oxm_t) : gn_oxm_t :=
  if oxm.isSet .vlan_vid then
    oxm.setField .vlan_vid (BitVec.ofNat _ OFPVID_PRESENT.toNat ||| oxm.field .vlan_vid)
  else oxm

/-- The OXMs in `buf` and the length that is returned. -/
def of13_add_oxm_field (oxm : gn_oxm_t) : OxmWriter :=
  (OxmField.emitted.filter oxm.isSet).foldl (addOxm oxm.presentVlan) .start

def of13_add_match (oxm : gn_oxm_t) : UINT2 := 4 + (of13_add_oxm_field oxm).oxm_len

section

variable {set mask mask' : UINT8} {f f' : OxmField} {oxm : gn_oxm_t}

theorem mask_toBitVec (h : mask.toNat < 64) : (MASK_SET <<< mask).toBitVec = BitVec.twoPow 64 mask.toNat := by
  have hmod : mask.toBitVec % 64 = mask.toBitVec := by
    apply BitVec.eq_of_toNat_eq
    rw [BitVec.toNat_umod]
    exact Nat.mod_eq_of_lt h
  rw [UInt64.toBitVec_shiftLeft, hmod, BitVec.twoPow_eq]
  rfl

theorem isMaskSet_eq (h : mask.toNat < 64) : IS_MASK_SET set mask = set.toBitVec.getLsbD mask.toNat := by
  have hzero : set &&& (MASK_SET <<< mask) = 0 ↔ set.toBitVec.getLsbD mask.toNat = false := by
    rw [← UInt64.toBitVec_inj, UInt64.toBitVec_and, mask_toBitVec h, BitVec.and_twoPow]
    cases hbit : set.toBitVec.getLsbD mask.toNat with
    | false => simp
    | true =>
      simp only [if_true, Bool.true_eq_false, iff_false]
      intro htwo
      have hget := congrArg (BitVec.getLsbD · mask.toNat) htwo
      simp [h] at hget
  rw [IS_MASK_SET, Bool.eq_iff_iff, decide_eq_true_eq, ne_eq, hzero, Bool.not_eq_false]

theorem isMaskSet_setMask (h : mask.toNat < 64) (h' : mask'.toNat < 64) :
    IS_MASK_SET (SET_MASK set mask) mask' = (IS_MASK_SET set mask' || mask = mask') := by
  rw [isMaskSet_eq h', isMaskSet_eq h', SET_MASK, UInt64.toBitVec_or, mask_toBitVec h, BitVec.getLsbD_or,
    BitVec.getLsbD_twoPow]
  congr 1
  rw [Bool.eq_iff_iff]
  simp [h, UInt64.toNat_inj]

/-- Two masks with the same bits. -/
theorem mask_ext {a b : UINT8} (h : ∀ mask : UINT8, mask.toNat < 64 → IS_MASK_SET a mask = IS_MASK_SET b mask) :
    a = b := by
  apply UInt64.toBitVec_inj.mp
  apply BitVec.eq_of_getLsbD_eq
  intro i hi
  have hmod : (UInt64.ofNat i).toNat = i := by
    rw [UInt64.toNat_ofNat']
    omega
  have hbit := h (UInt64.ofNat i) (by omega)
  rwa [isMaskSet_eq (by omega), isMaskSet_eq (by omega), hmod] at hbit

theorem OxmField.bit_lt (f : OxmField) : f.bit.toNat < 64 := by
  cases f <;> decide

theorem OxmField.bit_inj : f.bit = f'.bit ↔ f = f' := by
  have hnodup : (OxmField.all.map OxmField.bit).Nodup := by decide
  constructor
  · exact List.inj_on_of_nodup_map hnodup (mem_all f) (mem_all f')
  · exact congrArg bit

end

/-- The bytes by which the length that is counted for a field is too short. -/
def OxmField.shortage : OxmField → ℕ
  | arp_sha | arp_tha => 4
  | _ => 0

/-- A mask is written behind the value of the field. -/
def gn_oxm_t.masks (oxm : gn_oxm_t) : OxmField → Bool
  | .metadata => oxm.isSet .metadata_mask
  | .ipv4_src => oxm.isSet OxmField.ipv4_src_prefix
  | .ipv4_dst => oxm.isSet OxmField.ipv4_dst_prefix
  | .ipv6_src => oxm.isSet OxmField.ipv6_src_prefix
  | .ipv6_dst => oxm.isSet OxmField.ipv6_dst_prefix
  | _ => false

/-- The value of a field, and behind it a mask for some fields. -/
structure Oxm.Encodes (oxm : gn_oxm_t) (f : OxmField) (o : Oxm) : Prop where
  field : OxmField.ofOxm (o.field_hm >>> 1) = some f
  value : o.data.take f.size = f.network (oxm.field f)
  length : o.data.length = if oxm.masks f then 2 * f.size else f.size
  metadata_mask : f = .metadata → oxm.isSet .metadata_mask →
    o.data.drop 8 = OxmField.network .metadata_mask (oxm.field .metadata_mask)

theorem Oxm.Encodes.size_le {oxm : gn_oxm_t} {f : OxmField} {o : Oxm} (h : o.Encodes oxm f) :
    f.size ≤ o.data.length ∧ o.data.length ≤ 32 := by
  have hsize := f.size_le
  rw [h.length]
  split_ifs <;> omega

def octets (os : List Oxm) : ℕ := (os.map fun o => 4 + o.data.length).sum

theorem length_oxm_bytes (o : Oxm) : o.bytes.length = 4 + o.data.length := by
  simp only [Oxm.bytes, hton, List.length_append, List.length_reverse, length_leBytes, List.length_cons,
    List.length_nil]
  rfl

theorem length_oxms_bytes (os : List Oxm) : (os.flatMap Oxm.bytes).length = octets os := by
  simp only [List.length_flatMap, length_oxm_bytes, octets]

/-- The fields are written one after the other. -/
structure Writes (oxm : gn_oxm_t) (fs : List OxmField) (w : OxmWriter) (os : List Oxm) (w' : OxmWriter) : Prop where
  buf : w'.buf = w.buf ++ os
  encodes : List.Forall₂ (Oxm.Encodes oxm) fs os
  len : w'.oxm_len.toNat + (fs.map OxmField.shortage).sum = w.oxm_len.toNat + octets os
  netmaskv6 : w'.netmaskv6.length = 16

section

variable {oxm : gn_oxm_t} {w w' : OxmWriter} {f pre : OxmField} {fs : List OxmField} {os : List Oxm} {o : Oxm}
  {data netmask : List UINT1} {len num : UINT2}

theorem length_setNetmaskv6 {netmaskv6 : List UINT1} {pre : ℕ} (h : netmaskv6.length = 16) :
    (setNetmaskv6 netmaskv6 pre).length = 16 := by
  rw [setNetmaskv6]
  split_ifs with hpre
  · rw [List.length_append, List.length_replicate, List.length_replicate]
    omega
  · exact h

theorem writes_one (hbuf : w'.buf = w.buf ++ [o]) (ho : o.Encodes oxm f)
    (hlen : w'.oxm_len.toNat + f.shortage = w.oxm_len.toNat + (4 + o.data.length)) (hmask : w'.netmaskv6.length = 16) :
    Writes oxm [f] w [o] w' where
  buf := hbuf
  encodes := .cons ho .nil
  len := by simpa [octets] using hlen
  netmaskv6 := hmask

theorem encodes_add (hf : OxmField.ofOxm ((f.bit.toUInt8 <<< 1) >>> 1) = some f) (hmasks : oxm.masks f = false)
    (hm : f ≠ .metadata) : Oxm.Encodes oxm f ⟨f.bit.toUInt8 <<< 1, f.network (oxm.field f)⟩ where
  field := hf
  value := List.take_of_length_le OxmField.length_network.le
  length := by
    rw [hmasks]
    exact OxmField.length_network
  metadata_mask h := absurd h hm

theorem encodes_addMasked (hf : OxmField.ofOxm (((f.bit.toUInt8 <<< 1) + 1) >>> 1) = some f)
    (hmasks : oxm.masks f = true) (hm : f ≠ .metadata) (hlen : netmask.length = f.size) :
    Oxm.Encodes oxm f ⟨(f.bit.toUInt8 <<< 1) + 1, f.network (oxm.field f) ++ netmask⟩ where
  field := hf
  value := by
    rw [List.take_append_of_le_length OxmField.length_network.ge]
    exact List.take_of_length_le OxmField.length_network.le
  length := by
    rw [hmasks, List.length_append, OxmField.length_network, hlen, if_pos rfl, Nat.two_mul]
  metadata_mask h := absurd h hm

theorem toNat_oxm_len (h : w.oxm_len.toNat + 36 < 2 ^ 16) (hlen : len.toNat ≤ 32) :
    (w.add f data len).oxm_len.toNat = w.oxm_len.toNat + (4 + len.toNat) := by
  simp only [OxmWriter.add, UInt16.toNat_add, UInt16.reduceToNat]
  omega

variable (hmask : w.netmaskv6.length = 16) (hlen : w.oxm_len.toNat + 36 < 2 ^ 16)

include hmask hlen

theorem writes_add (hf : OxmField.ofOxm ((f.bit.toUInt8 <<< 1) >>> 1) = some f) (hmasks : oxm.masks f = false)
    (hm : f ≠ .metadata) (hcounted : f.counted.toNat + f.shortage = f.size) :
    ∃ o, Writes oxm [f] w [o] (w.add f (f.network (oxm.field f)) f.counted) := by
  refine ⟨_, writes_one rfl (encodes_add hf hmasks hm) ?_ hmask⟩
  have hsize := f.size_le
  rw [toNat_oxm_len hlen (by omega), OxmField.length_network]
  omega

theorem writes_addMasked (hf : OxmField.ofOxm (((f.bit.toUInt8 <<< 1) + 1) >>> 1) = some f)
    (hmasks : oxm.masks f = true) (hm : f ≠ .metadata) (hshort : f.shortage = 0) (hnetmask : netmask.length = f.size) :
    ∃ o, Writes oxm [f] w [o] (w.addMasked f (f.network (oxm.field f)) netmask) := by
  refine ⟨_, writes_one rfl (encodes_addMasked hf hmasks hm hnetmask) ?_ hmask⟩
  have hsize := f.size_le
  simp only [OxmWriter.addMasked, UInt16.toNat_add, UInt16.reduceToNat, UInt16.toNat_ofNat', List.length_append,
    OxmField.length_network, hshort]
  omega

theorem writes_metadata : ∃ o, Writes oxm [.metadata] w [o] (addOxm oxm w .metadata) := by
  have hvalue : (OxmField.network .metadata (oxm.field .metadata)).length = 8 := OxmField.length_network
  have hmeta : (OxmField.network .metadata_mask (oxm.field .metadata_mask)).length = 8 := OxmField.length_network
  have hfield : OxmField.ofOxm ((OxmField.metadata.bit.toUInt8 <<< 1) >>> 1) = some .metadata := by decide
  rw [addOxm]
  split_ifs with hset
  · refine ⟨_, writes_one rfl ⟨hfield, ?_, ?_, ?_⟩ ?_ hmask⟩
    · exact (List.take_append_of_le_length hvalue.ge).trans (List.take_of_length_le hvalue.le)
    · rw [gn_oxm_t.masks, hset, List.length_append, hvalue, hmeta]
      rfl
    · intro _ _
      rw [List.drop_append_of_le_length hvalue.ge, List.drop_of_length_le hvalue.le, List.nil_append]
    · rw [toNat_oxm_len hlen (by decide), List.length_append, hvalue, hmeta]
      rfl
  · refine ⟨_, writes_one rfl ⟨hfield, ?_, ?_, ?_⟩ ?_ hmask⟩
    · exact List.take_of_length_le hvalue.le
    · rw [gn_oxm_t.masks, if_neg hset]
      exact hvalue
    · exact fun _ h => absurd h hset
    · rw [toNat_oxm_len hlen (by decide), hvalue]
      rfl

theorem writes_ipv4 {num : UINT4} (hf : OxmField.ofOxm ((f.bit.toUInt8 <<< 1) >>> 1) = some f)
    (hf' : OxmField.ofOxm (((f.bit.toUInt8 <<< 1) + 1) >>> 1) = some f) (hm : f ≠ .metadata)
    (hmasks : oxm.masks f = oxm.isSet pre) (hshort : f.shortage = 0) (hcounted : f.counted.toNat = f.size)
    (hsize : f.size = 4) : ∃ o, Writes oxm [f] w [o] (addIpv4 oxm f pre num w) := by
  rw [addIpv4]
  split_ifs with hset
  · apply writes_addMasked hmask hlen hf' (hmasks.trans hset) hm hshort
    rw [hton, List.length_reverse, length_leBytes, hsize]
    rfl
  · apply writes_add hmask hlen hf (hmasks.trans (Bool.not_eq_true _ ▸ hset)) hm
    rw [hshort, hcounted, Nat.add_zero]

theorem writes_ipv6 (hf : OxmField.ofOxm ((f.bit.toUInt8 <<< 1) >>> 1) = some f)
    (hf' : OxmField.ofOxm (((f.bit.toUInt8 <<< 1) + 1) >>> 1) = some f) (hm : f ≠ .metadata)
    (hmasks : oxm.masks f = oxm.isSet pre) (hshort : f.shortage = 0) (hcounted : f.counted.toNat = f.size)
    (hsize : f.size = 16) : ∃ o, Writes oxm [f] w [o] (addIpv6 oxm f pre w) := by
  rw [addIpv6]
  split_ifs with hset
  · have hnetmask : (setNetmaskv6 w.netmaskv6 (oxm.field pre).toNat).length = 16 := length_setNetmaskv6 hmask
    have hwrites : ∃ o, Writes oxm [f] { w with netmaskv6 := setNetmaskv6 w.netmaskv6 (oxm.field pre).toNat } [o]
        (OxmWriter.addMasked { w with netmaskv6 := setNetmaskv6 w.netmaskv6 (oxm.field pre).toNat } f
          (f.network (oxm.field f)) (setNetmaskv6 w.netmaskv6 (oxm.field pre).toNat)) :=
      writes_addMasked hnetmask hlen hf' (hmasks.trans hset) hm hshort (hnetmask.trans hsize.symm)
    obtain ⟨o, ho⟩ := hwrites
    exact ⟨o, ⟨ho.buf, ho.encodes, ho.len, ho.netmaskv6⟩⟩
  · apply writes_add hmask hlen hf (hmasks.trans (Bool.not_eq_true _ ▸ hset)) hm
    rw [hshort, hcounted, Nat.add_zero]

theorem writes_addOxm (hf : f ∈ OxmField.emitted) : ∃ o, Writes oxm [f] w [o] (addOxm oxm w f) := by
  cases f with
  | metadata => exact writes_metadata hmask hlen
  | ipv4_src | ipv4_dst => exact writes_ipv4 hmask hlen (by decide) (by decide) (by decide) rfl rfl rfl rfl
  | ipv6_src | ipv6_dst => exact writes_ipv6 hmask hlen (by decide) (by decide) (by decide) rfl rfl rfl rfl
  | ipv4_src_prefix | ipv4_dst_prefix | ipv6_src_prefix | ipv6_dst_prefix | metadata_mask => exact absurd hf (by decide)
  | _ => exact writes_add hmask hlen (by decide) rfl (by decide) rfl

omit hlen in
theorem writes_fold (hfs : ∀ f ∈ fs, f ∈ OxmField.emitted) (hlen : w.oxm_len.toNat + 36 * fs.length < 2 ^ 16) :
    ∃ os, Writes oxm fs w os (fs.foldl (addOxm oxm) w) := by
  induction fs generalizing w with
  | nil => exact ⟨[], ⟨(List.append_nil _).symm, .nil, rfl, hmask⟩⟩
  | cons f fs ih =>
    obtain ⟨hf, hfs⟩ := List.forall_mem_cons.mp hfs
    rw [List.length_cons] at hlen
    obtain ⟨o, ho⟩ : ∃ o, Writes oxm [f] w [o] (addOxm oxm w f) := writes_addOxm hmask (by omega) hf
    have hone : (addOxm oxm w f).oxm_len.toNat ≤ w.oxm_len.toNat + 36 := by
      have hlength := (List.forall₂_cons.mp ho.encodes).1.size_le.2
      have hsum := ho.len
      simp only [octets, List.map_cons, List.map_nil, List.sum_cons, List.sum_nil] at hsum
      omega
    obtain ⟨os, hos⟩ := ih ho.netmaskv6 hfs (by omega)
    refine ⟨o :: os, ⟨?_, .cons (List.forall₂_cons.mp ho.encodes).1 hos.encodes, ?_, hos.netmaskv6⟩⟩
    · rw [List.foldl_cons, hos.buf, ho.buf, List.append_assoc, List.singleton_append]
    · have hfirst := ho.len
      have hrest := hos.len
      simp only [octets, List.map_cons, List.map_nil, List.sum_cons, List.sum_nil, List.foldl_cons] at hfirst hrest ⊢
      omega

end

/-- The OXMs are those of the fields that are present, and the length counts all of their bytes but four for each ARP
hardware address. -/
theorem writes_oxm_fields (oxm : gn_oxm_t) : Writes oxm.presentVlan (OxmField.emitted.filter oxm.isSet) .start
    (of13_add_oxm_field oxm).buf (of13_add_oxm_field oxm) := by
  have hlength : (OxmField.emitted.filter oxm.isSet).length ≤ 28 := List.length_filter_le _ _
  have hroom : OxmWriter.start.oxm_len.toNat + 36 * (OxmField.emitted.filter oxm.isSet).length < 2 ^ 16 := by
    simp only [OxmWriter.start, UInt16.reduceToNat]
    omega
  obtain ⟨os, hos⟩ : ∃ os, Writes oxm.presentVlan (OxmField.emitted.filter oxm.isSet) .start os
      (of13_add_oxm_field oxm) := writes_fold rfl (fun f hf => (List.mem_filter.mp hf).1) hroom
  have hbuf : (of13_add_oxm_field oxm).buf = os := hos.buf
  rw [hbuf]
  exact hos

end DCFabric
