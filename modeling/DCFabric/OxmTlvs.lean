import DCFabric.FlowExpiry

namespace DCFabric

open TlvStreams

def Oxm.hasMask (o : Oxm) : Bool := o.field_hm &&& 1 = 1

/-- The TLVs that the bytes are, if each has the OpenFlow class and lies within them. -/
def parseOxms : List UINT1 → Option (List Oxm)
  | [] => some []
  | c :: c' :: field_hm :: length :: rest =>
    if [c, c'] = hton OFPXMC_OPENFLOW_BASIC ∧ length.toNat ≤ rest.length then
      (parseOxms (rest.drop length.toNat)).map (⟨field_hm, rest.take length.toNat⟩ :: ·)
    else none
  | _ => none
termination_by bytes => bytes.length

/-- A TLV with the value of a field, which says whether there is a mask behind it. -/
structure Oxm.Describes (oxm : gn_oxm_t) (f : OxmField) (o : Oxm) : Prop where
  field : (o.field_hm >>> 1).toNat = f.bit.toNat
  value : o.data.take f.size = f.network (oxm.field f)
  length : o.data.length = if o.hasMask then 2 * f.size else f.size

def OxmWriter.bytes (w : OxmWriter) : List UINT1 := w.buf.flatMap Oxm.bytes

/-- Where `sendOfp13FlowMod` writes the first instruction: `sizeof(struct ofp13_flow_mod)` is 56, that of an `ofpx_match`
8. -/
def instructionsAt (match_len : UINT2) : ℕ := 56 - 8 + ALIGN_8 match_len.toNat

/-- The bytes are one TLV for each field that is present, and the length that is returned is theirs. -/
structure gn_oxm_t.WellFormed (oxm : gn_oxm_t) : Prop where
  tlvs : ∃ os, parseOxms (of13_add_oxm_field oxm).bytes = some os ∧
    List.Forall₂ (Oxm.Describes oxm.presentVlan) (OxmField.emitted.filter oxm.isSet) os
  length : (of13_add_oxm_field oxm).oxm_len.toNat = (of13_add_oxm_field oxm).bytes.length
  match_len : (of13_add_match oxm).toNat = 4 + (of13_add_oxm_field oxm).bytes.length
  instructions : instructionsAt (of13_add_match oxm) = 48 + ALIGN_8 (4 + (of13_add_oxm_field oxm).bytes.length)

section

variable {oxm : gn_oxm_t} {w : OxmWriter} {f pre : OxmField} {fs : List OxmField} {os : List Oxm} {o : Oxm}
  {rest : List UINT1} {num : UINT4}

theorem parseOxms_bytes (h : o.data.length < 256) :
    parseOxms (o.bytes ++ rest) = (parseOxms rest).map (o :: ·) := by
  have hlen : (UInt8.ofNat o.data.length).toNat = o.data.length := by
    rw [UInt8.toNat_ofNat']
    exact Nat.mod_eq_of_lt h
  have hbytes : o.bytes ++ rest =
      0x80 :: 0 :: o.field_hm :: UInt8.ofNat o.data.length :: (o.data ++ rest) := by
    rfl
  rw [hbytes, parseOxms, if_pos, hlen, List.drop_left, List.take_left]
  refine ⟨rfl, ?_⟩
  rw [hlen, List.length_append]
  exact Nat.le_add_right _ _

theorem parseOxms_flatMap (h : ∀ o ∈ os, o.data.length < 256) : parseOxms (os.flatMap Oxm.bytes) = some os := by
  induction os with
  | nil => rw [List.flatMap_nil, parseOxms]
  | cons o os ih =>
    obtain ⟨ho, hos⟩ := List.forall_mem_cons.mp h
    rw [List.flatMap_cons, parseOxms_bytes ho, ih hos, Option.map_some]

/-- The header byte of a field: the one of metadata never tells of a mask. -/
def gn_oxm_t.field_hm (oxm : gn_oxm_t) (f : OxmField) : UINT1 :=
  if f ≠ .metadata ∧ oxm.masks f then (f.bit.toUInt8 <<< 1) + 1 else f.bit.toUInt8 <<< 1

theorem addIpv4_buf (hf : f ≠ .metadata) (hmasks : oxm.masks f = oxm.isSet pre) :
    (addIpv4 oxm f pre num w).buf = w.buf ++ [⟨oxm.field_hm f, f.network (oxm.field f) ++
      if oxm.isSet pre then hton (cidr_to_subnet_mask num) else []⟩] := by
  rw [addIpv4, gn_oxm_t.field_hm, hmasks]
  by_cases hset : oxm.isSet pre
  · rw [if_pos hset, if_pos ⟨hf, hset⟩, if_pos hset]
    rfl
  · rw [if_neg hset, if_neg fun h => hset h.2, if_neg hset, List.append_nil]
    rfl

theorem addIpv6_buf (hf : f ≠ .metadata) (hmasks : oxm.masks f = oxm.isSet pre) :
    (addIpv6 oxm f pre w).buf = w.buf ++ [⟨oxm.field_hm f, f.network (oxm.field f) ++
      if oxm.isSet pre then setNetmaskv6 w.netmaskv6 (oxm.field pre).toNat else []⟩] := by
  rw [addIpv6, gn_oxm_t.field_hm, hmasks]
  by_cases hset : oxm.isSet pre
  · rw [if_pos hset, if_pos ⟨hf, hset⟩, if_pos hset]
    rfl
  · rw [if_neg hset, if_neg fun h => hset h.2, if_neg hset, List.append_nil]
    rfl

theorem addOxm_buf : (addOxm oxm w f).buf.map Oxm.field_hm = w.buf.map Oxm.field_hm ++ [oxm.field_hm f] := by
  cases f with
  | metadata =>
    rw [addOxm]
    split_ifs <;> simp [OxmWriter.add, gn_oxm_t.field_hm]
  | ipv4_src | ipv4_dst =>
    rw [addOxm, addIpv4_buf (by decide) rfl, List.map_append]
    rfl
  | ipv6_src | ipv6_dst =>
    rw [addOxm, addIpv6_buf (by decide) rfl, List.map_append]
    rfl
  | _ => simp [addOxm, OxmWriter.add, gn_oxm_t.field_hm, gn_oxm_t.masks]

theorem addOxms_buf :
    (fs.foldl (addOxm oxm) w).buf.map Oxm.field_hm = w.buf.map Oxm.field_hm ++ fs.map oxm.field_hm := by
  induction fs generalizing w with
  | nil => simp
  | cons f fs ih => rw [List.foldl_cons, ih, addOxm_buf, List.append_assoc, List.map_cons, List.singleton_append]

theorem hasMask_iff (h : o.field_hm = oxm.field_hm f) : o.hasMask ↔ f ≠ .metadata ∧ oxm.masks f := by
  have hodd : ∀ f : OxmField, ((f.bit.toUInt8 <<< 1) + 1) &&& 1 = (1 : UINT1) := by
    intro f
    cases f <;> decide
  have heven : ∀ f : OxmField, (f.bit.toUInt8 <<< 1) &&& 1 ≠ (1 : UINT1) := by
    intro f
    cases f <;> decide
  rw [Oxm.hasMask, h, gn_oxm_t.field_hm, decide_eq_true_eq]
  split_ifs with hmask
  · exact iff_of_true (hodd f) hmask
  · exact iff_of_false (heven f) hmask

theorem field_of_header (h : o.field_hm = oxm.field_hm f) : (o.field_hm >>> 1).toNat = f.bit.toNat := by
  have hmasked : ∀ f : OxmField, (((f.bit.toUInt8 <<< 1) + 1) >>> 1).toNat = f.bit.toNat := by
    intro f
    cases f <;> decide
  have hplain : ∀ f : OxmField, ((f.bit.toUInt8 <<< 1) >>> 1).toNat = f.bit.toNat := by
    intro f
    cases f <;> decide
  rw [h, gn_oxm_t.field_hm]
  split_ifs
  · exact hmasked f
  · exact hplain f

/-- A TLV says the truth about its mask, unless it is that of masked metadata. -/
theorem describes_iff (ho : o.Encodes oxm f) (h : o.field_hm = oxm.field_hm f) :
    o.Describes oxm f ↔ ¬ (f = .metadata ∧ oxm.masks f) := by
  have hsize : 0 < f.size := by cases f <;> decide
  constructor
  · rintro hd ⟨rfl, hmasks⟩
    have hlength := hd.length
    rw [ho.length, if_pos hmasks, if_neg] at hlength
    · omega
    · rw [hasMask_iff h]
      exact fun hm => hm.1 rfl
  · intro hm
    refine ⟨field_of_header h, ho.value, ?_⟩
    rw [ho.length]
    refine if_congr ?_ rfl rfl
    rw [hasMask_iff h]
    tauto

theorem forall₂_describes_iff (ho : List.Forall₂ (Oxm.Encodes oxm) fs os)
    (h : os.map Oxm.field_hm = fs.map oxm.field_hm) :
    List.Forall₂ (Oxm.Describes oxm) fs os ↔ ∀ f ∈ fs, ¬ (f = .metadata ∧ oxm.masks f) := by
  induction ho with
  | nil => simp
  | cons ho hos ih =>
    obtain ⟨hhead, htail⟩ := List.cons.inj h
    rw [List.forall₂_cons, describes_iff ho hhead, ih htail, List.forall_mem_cons]

end

theorem length_le_of_encodes {oxm : gn_oxm_t} {fs : List OxmField} {os : List Oxm}
    (h : List.Forall₂ (Oxm.Encodes oxm) fs os) : ∀ o ∈ os, o.data.length ≤ 32 := by
  induction h with
  | nil => exact List.forall_mem_nil _
  | cons ho _ ih => exact List.forall_mem_cons.mpr ⟨ho.size_le.2, ih⟩

theorem sum_shortage_eq_zero (oxm : gn_oxm_t) : ((OxmField.emitted.filter oxm.isSet).map OxmField.shortage).sum = 0 ↔
    ¬ oxm.isSet .arp_sha ∧ ¬ oxm.isSet .arp_tha := by
  rw [List.sum_eq_zero_iff, List.forall_mem_map]
  constructor
  · intro h
    constructor
    · intro hset
      exact absurd (h .arp_sha (List.mem_filter.mpr ⟨by decide, hset⟩)) (by decide)
    · intro hset
      exact absurd (h .arp_tha (List.mem_filter.mpr ⟨by decide, hset⟩)) (by decide)
  · rintro ⟨hsha, htha⟩ f hf
    have hset := (List.mem_filter.mp hf).2
    cases f with
    | arp_sha => exact absurd hset hsha
    | arp_tha => exact absurd hset htha
    | _ => rfl

theorem isSet_presentVlan (oxm : gn_oxm_t) (f : OxmField) : oxm.presentVlan.isSet f = oxm.isSet f := by
  rw [gn_oxm_t.isSet, presentVlan_mask, gn_oxm_t.isSet]

theorem parseOxms_written (oxm : gn_oxm_t) :
    parseOxms (of13_add_oxm_field oxm).bytes = some (of13_add_oxm_field oxm).buf := by
  apply parseOxms_flatMap
  intro o ho
  exact (length_le_of_encodes (writes_oxm_fields oxm).encodes o ho).trans_lt (by decide)

theorem describes_written_iff (oxm : gn_oxm_t) :
    List.Forall₂ (Oxm.Describes oxm.presentVlan) (OxmField.emitted.filter oxm.isSet) (of13_add_oxm_field oxm).buf ↔
      ¬ (oxm.isSet .metadata ∧ oxm.isSet .metadata_mask) := by
  have hheaders : (of13_add_oxm_field oxm).buf.map Oxm.field_hm =
      (OxmField.emitted.filter oxm.isSet).map oxm.presentVlan.field_hm := addOxms_buf
  rw [forall₂_describes_iff (writes_oxm_fields oxm).encodes hheaders, ← isSet_presentVlan oxm .metadata_mask]
  constructor
  · rintro h ⟨hset, hmask⟩
    exact h .metadata (List.mem_filter.mpr ⟨by decide, hset⟩) ⟨rfl, hmask⟩
  · rintro h f hf ⟨rfl, hmask⟩
    exact h ⟨(List.mem_filter.mp hf).2, hmask⟩

theorem length_written_iff (oxm : gn_oxm_t) :
    (of13_add_oxm_field oxm).oxm_len.toNat = (of13_add_oxm_field oxm).bytes.length ↔
      ¬ oxm.isSet .arp_sha ∧ ¬ oxm.isSet .arp_tha := by
  have hlen := (writes_oxm_fields oxm).len
  rw [← sum_shortage_eq_zero, OxmWriter.bytes, length_oxms_bytes]
  simp only [OxmWriter.start, UInt16.reduceToNat] at hlen
  omega

theorem oxm_fields_well_formed_iff (oxm : gn_oxm_t) : oxm.WellFormed ↔
    ¬ oxm.isSet .arp_sha ∧ ¬ oxm.isSet .arp_tha ∧ ¬ (oxm.isSet .metadata ∧ oxm.isSet .metadata_mask) := by
  constructor
  · rintro ⟨⟨os, hos, hall⟩, hlen, -, -⟩
    obtain rfl : (of13_add_oxm_field oxm).buf = os := Option.some.inj ((parseOxms_written oxm).symm.trans hos)
    obtain ⟨hsha, htha⟩ := (length_written_iff oxm).mp hlen
    exact ⟨hsha, htha, (describes_written_iff oxm).mp hall⟩
  · rintro ⟨hsha, htha, hmeta⟩
    have hlen := (length_written_iff oxm).mpr ⟨hsha, htha⟩
    have hmatch : (of13_add_match oxm).toNat = 4 + (of13_add_oxm_field oxm).bytes.length := by
      rw [toNat_of13_add_match, hlen]
    exact ⟨⟨_, parseOxms_written oxm, (describes_written_iff oxm).mpr hmeta⟩, hlen, hmatch, by
      rw [instructionsAt, hmatch]⟩

/-- Only the sender's hardware address of an ARP packet is matched. -/
def arpSender : gn_oxm_t := CFlowCache.emptyOxm.setPresent .arp_sha 0

theorem arpSender_not_well_formed : ¬ ∀ oxm : gn_oxm_t, oxm.WellFormed := by
  intro h
  have hlen := (h arpSender).length
  have hcounted : (of13_add_oxm_field arpSender).oxm_len.toNat = 6 := by decide
  have hwritten : (of13_add_oxm_field arpSender).bytes.length = 10 := by decide
  omega

end DCFabric
