import DCFabric.SetFieldEncode

namespace DCFabric.gn_oxm_t

open OxmField ListUpdates

/-- Of the prefixes that are present those of IPv4 are from 1 to 32, and those of IPv6 multiples of 8. -/
def PrefixesAligned (oxm : gn_oxm_t) : Prop :=
  ∀ p ∈ addresses, oxm.isSet p.1 → oxm.isSet p.2 →
    if p.1.size = 4 then 1 ≤ (oxm.field p.2).toNat ∧ (oxm.field p.2).toNat ≤ 32 else (oxm.field p.2).toNat % 8 = 0

/-- There are networks of the prefix, and this is their mask. -/
def IsMaskOf (mask : List UINT1) (size pre : ℕ) : Prop := pre ≤ 8 * size ∧ IsNetworkMask mask size pre

/-- The length that is returned is that of the bytes, which are one TLV for each field that is present, and behind each
address with a prefix there is its mask. -/
structure MatchSound (oxm : gn_oxm_t) : Prop where
  length : (of13_add_oxm_field oxm).oxm_len.toNat = (of13_add_oxm_field oxm).bytes.length
  tlvs : ∃ os, parseOxms (of13_add_oxm_field oxm).bytes = some os ∧
    List.Forall₂ (Oxm.Describes oxm.presentVlan) (emitted.filter oxm.isSet) os
  masks : ∀ p ∈ addresses, oxm.isSet p.1 → oxm.isSet p.2 → ∃ mask,
    emittedFor (of13_add_oxm_field oxm).buf p.1 = [p.1.network (oxm.field p.1) ++ mask] ∧
    IsMaskOf mask p.1.size (oxm.field p.2).toNat

/-- The prefix of the IPv6 source, 0 where there is none to write a mask for. -/
def srcPrefix (oxm : gn_oxm_t) : ℕ :=
  if oxm.isSet .ipv6_src ∧ oxm.isSet OxmField.ipv6_src_prefix then (oxm.field OxmField.ipv6_src_prefix ).toNat else 0

/-- The prefix of the IPv6 destination, if there is one to write a mask for. -/
def dstPrefix (oxm : gn_oxm_t) : Option ℕ :=
  if oxm.isSet .ipv6_dst ∧ oxm.isSet OxmField.ipv6_dst_prefix then some (oxm.field OxmField.ipv6_dst_prefix ).toNat
  else none

/-- No field is present whose block is wrong, and no IPv6 prefix without a case. -/
structure MatchWritable (oxm : gn_oxm_t) : Prop where
  arp_sha : ¬ oxm.isSet .arp_sha
  arp_tha : ¬ oxm.isSet .arp_tha
  metadata : ¬ (oxm.isSet .metadata ∧ oxm.isSet .metadata_mask)
  ipv6_src : oxm.srcPrefix ≤ 128
  ipv6_dst : ∀ pre ∈ oxm.dstPrefix, pre ≤ 128
  netmaskv6 : 0 ∈ oxm.dstPrefix → oxm.srcPrefix = 0

variable {oxm : gn_oxm_t} {pre pre' : ℕ}

theorem isNetworkMask_first (h : pre % 8 = 0) (hle : pre ≤ 128) :
    IsNetworkMask (setNetmaskv6 (List.replicate 16 0) pre) 16 pre := by
  rw [setNetmaskv6]
  split_ifs with hcase
  · exact isNetworkMask_v6 h hle
  · obtain rfl : pre = 0 := by omega
    exact (by decide)

/-- The second mask is the prefix's own unless the prefix is 0 and the first one is not. -/
theorem isNetworkMask_second (h : pre % 8 = 0) (hle : pre ≤ 128) (h' : pre' % 8 = 0) (hle' : pre' ≤ 128) :
    IsNetworkMask (setNetmaskv6 (setNetmaskv6 (List.replicate 16 0) pre) pre') 16 pre' ↔ (pre' = 0 → pre = 0) := by
  have hfirst : IsNetworkMask (setNetmaskv6 (List.replicate 16 0) pre) 16 pre := isNetworkMask_first h hle
  by_cases hzero : pre' = 0
  · subst hzero
    rw [setNetmaskv6, if_neg (by omega)]
    constructor
    · intro hmask _
      exact hfirst.unique hmask hle hle'
    · intro hpre
      obtain rfl := hpre rfl
      exact hfirst
  · refine iff_of_true ?_ fun h => absurd h hzero
    exact (isNetworkMask_setNetmaskv6_iff ⟨pre, h, hle, hfirst⟩ (by omega) hle').mpr h'

theorem addOxm_netmaskv6_of_ne (w : OxmWriter) {f : OxmField} (hsrc : f ≠ .ipv6_src) (hdst : f ≠ .ipv6_dst) :
    (addOxm oxm w f).netmaskv6 = w.netmaskv6 := by
  cases f with
  | ipv6_src => exact absurd rfl hsrc
  | ipv6_dst => exact absurd rfl hdst
  | metadata =>
    rw [addOxm]
    split_ifs <;> rfl
  | ipv4_src | ipv4_dst =>
    rw [addOxm, addIpv4]
    split_ifs <;> rfl
  | _ => rfl

theorem addIpv6_netmaskv6 (w : OxmWriter) (f p : OxmField) : (addIpv6 oxm f p w).netmaskv6 =
    if oxm.isSet p then setNetmaskv6 w.netmaskv6 (oxm.field p).toNat else w.netmaskv6 := by
  rw [addIpv6]
  split_ifs <;> rfl

theorem netmaskv6_foldl {fs : List OxmField} (h : ∀ f ∈ fs, f ≠ .ipv6_src ∧ f ≠ .ipv6_dst) (w : OxmWriter) :
    (fs.foldl (addOxm oxm) w).netmaskv6 = w.netmaskv6 := by
  induction fs generalizing w with
  | nil => rfl
  | cons f fs ih =>
    obtain ⟨⟨hsrc, hdst⟩, hfs⟩ := List.forall_mem_cons.mp h
    rw [List.foldl_cons, ih hfs, addOxm_netmaskv6_of_ne w hsrc hdst]

/-- The fields before the IPv6 addresses. -/
def earlier : List OxmField := emitted.take 24

theorem earlier_ne : ∀ f ∈ earlier, f ≠ OxmField.ipv6_src ∧ f ≠ OxmField.ipv6_dst := by decide

theorem earlier_filter_ne (oxm : gn_oxm_t) :
    ∀ f ∈ earlier.filter oxm.isSet, f ≠ OxmField.ipv6_src ∧ f ≠ OxmField.ipv6_dst :=
  fun f hf => earlier_ne f (List.mem_filter.mp hf).1

theorem emittedFor_ipv6_src (hset : oxm.isSet .ipv6_src) (hpre : oxm.isSet OxmField.ipv6_src_prefix) :
    emittedFor (of13_add_oxm_field oxm).buf .ipv6_src = [OxmField.network .ipv6_src (oxm.field .ipv6_src) ++
      setNetmaskv6 (List.replicate 16 0) oxm.srcPrefix] := by
  have hl : emitted.filter oxm.isSet =
      earlier.filter oxm.isSet ++ .ipv6_src :: [OxmField.ipv6_dst, .mpls_label, .tunnel_id].filter oxm.isSet := by
    rw [← List.filter_cons_of_pos hset, ← List.filter_append]
    rfl
  rw [emittedFor_at hl, netmaskv6_foldl (earlier_filter_ne oxm), matchMask, isSet_presentVlan, if_pos hpre,
    presentVlan_field_of_ne oxm (by decide), presentVlan_field_of_ne oxm (by decide), srcPrefix, if_pos ⟨hset, hpre⟩]
  rfl

theorem netmaskv6_src (oxm : gn_oxm_t) :
    (((earlier ++ [OxmField.ipv6_src]).filter oxm.isSet).foldl (addOxm oxm.presentVlan) .start).netmaskv6 =
      setNetmaskv6 (List.replicate 16 0) oxm.srcPrefix := by
  have hzero : setNetmaskv6 (List.replicate 16 0) 0 = List.replicate 16 0 := by decide
  have hstart : ((earlier.filter oxm.isSet).foldl (addOxm oxm.presentVlan) .start).netmaskv6 = List.replicate 16 0 :=
    netmaskv6_foldl (earlier_filter_ne oxm) .start
  rw [List.filter_append, List.foldl_append, srcPrefix]
  by_cases hset : oxm.isSet .ipv6_src
  · rw [List.filter_cons_of_pos hset, List.filter_nil, List.foldl_cons, List.foldl_nil, addOxm, addIpv6_netmaskv6,
      isSet_presentVlan, hstart]
    by_cases hpre : oxm.isSet OxmField.ipv6_src_prefix
    · rw [if_pos hpre, if_pos ⟨hset, hpre⟩, presentVlan_field_of_ne oxm (by decide)]
    · rw [if_neg hpre, if_neg fun h => hpre h.2, hzero]
  · rw [List.filter_cons_of_neg hset, List.filter_nil, List.foldl_nil, if_neg fun h => hset h.1, hzero, hstart]

theorem emittedFor_ipv6_dst (hset : oxm.isSet .ipv6_dst) (hpre : oxm.isSet OxmField.ipv6_dst_prefix) :
    emittedFor (of13_add_oxm_field oxm).buf .ipv6_dst = [OxmField.network .ipv6_dst (oxm.field .ipv6_dst) ++
      setNetmaskv6 (setNetmaskv6 (List.replicate 16 0) oxm.srcPrefix)
        (oxm.field OxmField.ipv6_dst_prefix ).toNat] := by
  have hl : emitted.filter oxm.isSet =
      (earlier ++ [OxmField.ipv6_src]).filter oxm.isSet ++ .ipv6_dst :: [OxmField.mpls_label, .tunnel_id].filter oxm.isSet := by
    rw [← List.filter_cons_of_pos hset, ← List.filter_append]
    rfl
  rw [emittedFor_at hl, netmaskv6_src, matchMask, isSet_presentVlan, if_pos hpre,
    presentVlan_field_of_ne oxm (by decide), presentVlan_field_of_ne oxm (by decide)]

theorem ipv4_mask_own {f : OxmField} {num : ℕ} (hf : f ∈ emitted) (hsize : f.size = 4) (hvlan : f ≠ .vlan_vid)
    (hset : oxm.isSet f)
    (hmask : ∀ netmaskv6, oxm.presentVlan.matchMask netmaskv6 f = hton (cidr_to_subnet_mask (UInt32.ofNat num)))
    (hpos : 1 ≤ num) (hle : num ≤ 32) :
    ∃ mask, emittedFor (of13_add_oxm_field oxm).buf f = [f.network (oxm.field f) ++ mask] ∧ IsMaskOf mask f.size num := by
  obtain ⟨netmaskv6, -, hmatch⟩ := emittedFor_match oxm hf hset
  rw [hmask, presentVlan_field_of_ne oxm hvlan] at hmatch
  refine ⟨_, hmatch, ?_⟩
  rw [hsize]
  exact ⟨hle, isNetworkMask_cidr hpos hle⟩

theorem exists_mask_eq_iff {value mask : List UINT1} {P : List UINT1 → Prop} :
    (∃ m, [value ++ mask] = [value ++ m] ∧ P m) ↔ P mask := by
  constructor
  · rintro ⟨m, hm, hP⟩
    obtain rfl := List.append_cancel_left (List.singleton_inj.mp hm)
    exact hP
  · exact fun hP => ⟨mask, rfl, hP⟩

/-- Behind each address with a prefix there is its mask. -/
theorem masks_own_iff (h : oxm.PrefixesAligned) :
    (∀ p ∈ addresses, oxm.isSet p.1 → oxm.isSet p.2 → ∃ mask,
      emittedFor (of13_add_oxm_field oxm).buf p.1 = [p.1.network (oxm.field p.1) ++ mask] ∧
      IsMaskOf mask p.1.size (oxm.field p.2).toNat) ↔
    oxm.srcPrefix ≤ 128 ∧ (∀ pre ∈ oxm.dstPrefix, pre ≤ 128) ∧ (0 ∈ oxm.dstPrefix → oxm.srcPrefix = 0) := by
  have hsrc8 : oxm.srcPrefix % 8 = 0 := by
    rw [srcPrefix]
    split_ifs with hsrc
    · exact h (.ipv6_src, OxmField.ipv6_src_prefix) (by simp [addresses]) hsrc.1 hsrc.2
    · rfl
  constructor
  · intro hmasks
    have hsrc : oxm.srcPrefix ≤ 128 := by
      by_cases hset : oxm.isSet .ipv6_src ∧ oxm.isSet OxmField.ipv6_src_prefix
      · have hmask := hmasks (.ipv6_src, OxmField.ipv6_src_prefix) (by simp [addresses]) hset.1 hset.2
        rw [srcPrefix, if_pos hset]
        exact hmask.elim fun _ hm => hm.2.1
      · rw [srcPrefix, if_neg hset]
        exact Nat.zero_le 128
    have hdst : ∀ pre ∈ oxm.dstPrefix, pre ≤ 128 ∧ (pre = 0 → oxm.srcPrefix = 0) := by
      intro pre hpre
      rw [dstPrefix] at hpre
      split_ifs at hpre with hset
      · obtain rfl := Option.some.inj hpre
        have hmask := hmasks (.ipv6_dst, OxmField.ipv6_dst_prefix) (by simp [addresses]) hset.1 hset.2
        have h8 := h (.ipv6_dst, OxmField.ipv6_dst_prefix) (by simp [addresses]) hset.1 hset.2
        rw [emittedFor_ipv6_dst hset.1 hset.2, exists_mask_eq_iff] at hmask
        exact ⟨hmask.1, (isNetworkMask_second hsrc8 hsrc h8 hmask.1).mp hmask.2⟩
      · exact absurd hpre (by simp)
    exact ⟨hsrc, fun pre hpre => (hdst pre hpre).1, fun hzero => (hdst 0 hzero).2 rfl⟩
  · rintro ⟨hsrc, hdst, hzero⟩ p hp hset hpre
    have haligned := h p hp hset hpre
    simp only [addresses, List.mem_cons, List.not_mem_nil, or_false] at hp
    rcases hp with rfl | rfl | rfl | rfl
    · refine ipv4_mask_own (by decide) rfl (by decide) hset ?_ haligned.1 haligned.2
      intro netmaskv6
      rw [matchMask, isSet_presentVlan, if_pos hpre, presentVlan_field_of_ne oxm (by decide)]
      rfl
    · refine ipv4_mask_own (by decide) rfl (by decide) hset ?_ haligned.1 haligned.2
      intro netmaskv6
      rw [matchMask, isSet_presentVlan, if_pos hpre, presentVlan_field_of_ne oxm (by decide)]
      rfl
    · have heq : oxm.srcPrefix = (oxm.field OxmField.ipv6_src_prefix ).toNat := if_pos ⟨hset, hpre⟩
      rw [emittedFor_ipv6_src hset hpre, exists_mask_eq_iff, ← heq]
      exact ⟨hsrc, isNetworkMask_first hsrc8 hsrc⟩
    · have hmem : oxm.dstPrefix = some (oxm.field OxmField.ipv6_dst_prefix ).toNat := if_pos ⟨hset, hpre⟩
      have hle := hdst _ hmem
      rw [emittedFor_ipv6_dst hset hpre, exists_mask_eq_iff]
      refine ⟨hle, (isNetworkMask_second hsrc8 hsrc haligned hle).mpr ?_⟩
      intro hpre0
      exact hzero (hpre0 ▸ hmem)

theorem match_sound_iff (oxm : gn_oxm_t) (h : oxm.PrefixesAligned) : oxm.MatchSound ↔ oxm.MatchWritable := by
  constructor
  · rintro ⟨hlen, ⟨os, hos, hall⟩, hmasks⟩
    obtain rfl : (of13_add_oxm_field oxm).buf = os := Option.some.inj ((parseOxms_written oxm).symm.trans hos)
    obtain ⟨hsha, htha⟩ := (length_written_iff oxm).mp hlen
    obtain ⟨hsrc, hdst, hzero⟩ := (masks_own_iff h).mp hmasks
    exact ⟨hsha, htha, (describes_written_iff oxm).mp hall, hsrc, hdst, hzero⟩
  · intro hw
    exact ⟨(length_written_iff oxm).mpr ⟨hw.arp_sha, hw.arp_tha⟩,
      ⟨_, parseOxms_written oxm, (describes_written_iff oxm).mpr hw.metadata⟩,
      (masks_own_iff h).mpr ⟨hw.ipv6_src, hw.ipv6_dst, hw.netmaskv6⟩⟩

/-- The sources 10.0.0.0/20 are matched. -/
theorem ipv4Network_matchSound : (ipv4Network 0x0a000000 20).MatchSound := by
  have hdst : (ipv4Network 0x0a000000 20).dstPrefix = none := by decide
  apply (match_sound_iff _ ?_).mpr
  · refine ⟨by decide, by decide, by decide, by decide, ?_, ?_⟩
    · rw [hdst]
      rintro pre ⟨⟩
    · rw [hdst]
      rintro ⟨⟩
  · rw [PrefixesAligned]
    decide +kernel

/-- Ten bytes are written for the sender's hardware address, and six are counted. -/
theorem arpSender_not_matchSound : ¬ ∀ oxm : gn_oxm_t, oxm.PrefixesAligned → oxm.MatchSound := by
  intro h
  have haligned : arpSender.PrefixesAligned := by
    rw [PrefixesAligned]
    decide +kernel
  have hlen := (h arpSender haligned).length
  have hcounted : (of13_add_oxm_field arpSender).oxm_len.toNat = 6 := by decide
  have hwritten : (of13_add_oxm_field arpSender).bytes.length = 10 := by decide
  omega

end DCFabric.gn_oxm_t
