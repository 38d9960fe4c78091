import DCFabric.OxmTlvs

namespace DCFabric

open ListUpdates TlvStreams

/-- The mask of an IPv4 prefix in `of13_add_set_field`: any but these three leaves the mask of the field before. -/
def setNetmask (netmask : UINT4) (pre : ℕ) : UINT4 :=
  if pre = 8 then 0xff000000 else if pre = 16 then 0xffff0000 else if pre = 24 then 0xffffff00 else netmask

/-- The locals of `of13_add_set_field`, with the OXM of each action in `buf`. -/
structure SetFieldWriter where
  oxms : List Oxm
  netmask : UINT4
  netmaskv6 : List UINT1

namespace SetFieldWriter

def start : SetFieldWriter := ⟨[], 0, List.replicate 16 0⟩

def add (w : SetFieldWriter) (f : OxmField) (data : List UINT1) : SetFieldWriter :=
  { w with oxms := w.oxms ++ [⟨f.bit.toUInt8 <<< 1, data⟩] }

def addMasked (w : SetFieldWriter) (f : OxmField) (data netmask : List UINT1) : SetFieldWriter :=
  { w with oxms := w.oxms ++ [⟨(f.bit.toUInt8 <<< 1) + 1, data ++ netmask⟩] }

end SetFieldWriter

def setIpv4 (oxm : gn_oxm_t) (f pre : OxmField) (w : SetFieldWriter) : SetFieldWriter :=
  if oxm.isSet pre then
    let w := { w with netmask := setNetmask w.netmask (oxm.field pre).toNat }
    w.addMasked f (f.network (oxm.field f)) (hton w.netmask)
  else w.add f (f.network (oxm.field f))

def setIpv6 (oxm : gn_oxm_t) (f pre : OxmField) (w : SetFieldWriter) : SetFieldWriter :=
  if oxm.isSet pre then
    let w := { w with netmaskv6 := setNetmaskv6 w.netmaskv6 (oxm.field pre).toNat }
    w.addMasked f (f.network (oxm.field f)) w.netmaskv6
  else w.add f (f.network (oxm.field f))

/-- What is written for a field that is present. -/
def addSetField (oxm : gn_oxm_t) (w : SetFieldWriter) : OxmField → SetFieldWriter
  | .metadata =>
    if oxm.isSet .metadata_mask then
      w.add .metadata (OxmField.network .metadata (oxm.field .metadata) ++
        OxmField.network .metadata_mask (oxm.field .metadata_mask))
    else w.add .metadata (OxmField.network .metadata (oxm.field .metadata))
  | .ipv4_src => setIpv4 oxm .ipv4_src OxmField.ipv4_src_prefix w
  | .ipv4_dst => setIpv4 oxm .ipv4_dst OxmField.ipv4_dst_prefix w
  | .ipv6_src => setIpv6 oxm .ipv6_src OxmField.ipv6_src_prefix w
  | .ipv6_dst => setIpv6 oxm .ipv6_dst OxmField.ipv6_dst_prefix w
  | f => w.add f (f.network (oxm.field f))

/-- The OXMs that `of13_add_set_field` writes, each in an action of its own. -/
def setFieldOxms (oxm : gn_oxm_t) : SetFieldWriter :=
  (OxmField.emitted.filter oxm.isSet).foldl (addSetField oxm.presentVlan) .start

namespace OxmField

/-- The address fields, with their prefixes. -/
def addresses : List (OxmField × OxmField) :=
  [(ipv4_src, ipv4_src_prefix), (ipv4_dst, ipv4_dst_prefix), (ipv6_src, ipv6_src_prefix), (ipv6_dst, ipv6_dst_prefix)]

theorem addresses_emitted : ∀ p ∈ addresses, p.1 ∈ emitted ∧ p.1 ≠ vlan_vid ∧ p.2 ≠ vlan_vid := by
  simp [addresses, emitted]

end OxmField

/-- A bit of an address in network order, the first one 0. -/
def networkBit (bytes : List UINT1) (k : ℕ) : Bool := (bytes.getD (k / 8) 0).toBitVec.getMsbD (k % 8)

/-- The first `pre` bits of the `size` bytes are one, all others zero. -/
def IsNetworkMask (bytes : List UINT1) (size pre : ℕ) : Prop :=
  bytes.length = size ∧ ∀ k < 8 * size, networkBit bytes k = decide (k < pre)

instance (bytes : List UINT1) (size pre : ℕ) : Decidable (IsNetworkMask bytes size pre) :=
  inferInstanceAs (Decidable (_ ∧ ∀ k < 8 * size, networkBit bytes k = decide (k < pre)))

/-- `oxm_field` in the header of a TLV, the mask bit shifted out. -/
def Oxm.oxm_field (o : Oxm) : UINT1 := o.field_hm >>> 1

/-- The address and mask bytes that are emitted for a field. -/
def emittedFor (oxms : List Oxm) (f : OxmField) : List (List UINT1) :=
  (oxms.filter fun o => o.oxm_field = f.bit.toUInt8).map Oxm.data

namespace gn_oxm_t

/-- The prefixes of the addresses that are present are those of networks. -/
def PrefixesInRange (oxm : gn_oxm_t) : Prop :=
  ∀ p ∈ OxmField.addresses, oxm.isSet p.1 → oxm.isSet p.2 →
    1 ≤ (oxm.field p.2).toNat ∧ (oxm.field p.2).toNat ≤ 8 * p.1.size

/-- Both encoders emit an address with the mask of its own prefix. -/
def MasksOwn (oxm : gn_oxm_t) : Prop :=
  ∀ p ∈ OxmField.addresses, oxm.isSet p.1 → ∃ mask,
    emittedFor (of13_add_oxm_field oxm).buf p.1 = [p.1.network (oxm.field p.1) ++ mask] ∧
    emittedFor (setFieldOxms oxm).oxms p.1 = [p.1.network (oxm.field p.1) ++ mask] ∧
    if oxm.isSet p.2 then IsNetworkMask mask p.1.size (oxm.field p.2).toNat else mask = []

/-- The prefixes that have a case in every `switch`. -/
def PrefixesKnown (oxm : gn_oxm_t) : Prop :=
  ∀ p ∈ OxmField.addresses, oxm.isSet p.1 → oxm.isSet p.2 →
    if p.1.size = 4 then (oxm.field p.2).toNat ∈ [8, 16, 24] else (oxm.field p.2).toNat % 8 = 0

instance (oxm : gn_oxm_t) : Decidable oxm.PrefixesInRange :=
  inferInstanceAs (Decidable (∀ p ∈ OxmField.addresses, oxm.isSet p.1 → oxm.isSet p.2 →
    1 ≤ (oxm.field p.2).toNat ∧ (oxm.field p.2).toNat ≤ 8 * p.1.size))

instance (oxm : gn_oxm_t) : Decidable oxm.PrefixesKnown :=
  inferInstanceAs (Decidable (∀ p ∈ OxmField.addresses, oxm.isSet p.1 → oxm.isSet p.2 →
    if p.1.size = 4 then (oxm.field p.2).toNat ∈ [8, 16, 24] else (oxm.field p.2).toNat % 8 = 0))

end gn_oxm_t

theorem IsNetworkMask.unique {bytes : List UINT1} {size pre pre' : ℕ} (h : IsNetworkMask bytes size pre)
    (h' : IsNetworkMask bytes size pre') (hle : pre ≤ 8 * size) (hle' : pre' ≤ 8 * size) : pre = pre' := by
  have hbits : ∀ k < 8 * size, (k < pre ↔ k < pre') := by
    intro k hk
    rw [← decide_eq_decide, ← h.2 k hk, h'.2 k hk]
  rcases Nat.lt_trichotomy pre pre' with hlt | heq | hlt
  · exact absurd ((hbits pre (by omega)).mpr hlt) (Nat.lt_irrefl pre)
  · exact heq
  · exact absurd ((hbits pre' (by omega)).mp hlt) (Nat.lt_irrefl pre')

theorem IsNetworkMask.eq {bytes bytes' : List UINT1} {size pre : ℕ} (h : IsNetworkMask bytes size pre)
    (h' : IsNetworkMask bytes' size pre) : bytes = bytes' := by
  apply List.ext_getElem (h.1.trans h'.1.symm)
  intro i hi hi'
  apply UInt8.eq_of_toBitVec_eq
  apply BitVec.eq_of_getMsbD_eq
  intro j hj
  have hk : 8 * i + j < 8 * size := by
    rw [← h.1]
    omega
  have hbit : networkBit bytes (8 * i + j) = networkBit bytes' (8 * i + j) := (h.2 _ hk).trans (h'.2 _ hk).symm
  have hdiv : (8 * i + j) / 8 = i := by omega
  have hmod : (8 * i + j) % 8 = j := by omega
  simpa only [networkBit, hdiv, hmod, List.getD_eq_getElem _ _ hi, List.getD_eq_getElem _ _ hi'] using hbit

theorem isNetworkMask_cidr {pre : ℕ} (hpos : 1 ≤ pre) (hle : pre ≤ 32) :
    IsNetworkMask (hton (cidr_to_subnet_mask (UInt32.ofNat pre))) 4 pre := by
  have hall : ∀ n ∈ List.range 32, IsNetworkMask (hton (cidr_to_subnet_mask (UInt32.ofNat (n + 1)))) 4 (n + 1) := by
    decide +kernel
  have hpre := hall (pre - 1) (List.mem_range.mpr (by omega))
  rwa [Nat.sub_add_cancel hpos] at hpre

theorem isNetworkMask_v6 {pre : ℕ} (h : pre % 8 = 0) (hle : pre ≤ 128) :
    IsNetworkMask (List.replicate (pre / 8) 0xff ++ List.replicate (16 - pre / 8) 0) 16 pre := by
  have hall : ∀ n ∈ List.range 17,
      IsNetworkMask (List.replicate n 0xff ++ List.replicate (16 - n) 0) 16 (8 * n) := by decide +kernel
  have hpre := hall (pre / 8) (List.mem_range.mpr (by omega))
  rwa [show 8 * (pre / 8) = pre by omega] at hpre

theorem isNetworkMask_setNetmask {netmask : UINT4} {pre : ℕ} (h : pre ∈ [8, 16, 24]) :
    IsNetworkMask (hton (setNetmask netmask pre)) 4 pre := by
  have hknown : ∀ pre ∈ [8, 16, 24], setNetmask netmask pre = setNetmask 0 pre := by
    intro pre hpre
    simp only [List.mem_cons, List.not_mem_nil, or_false] at hpre
    rcases hpre with rfl | rfl | rfl <;> rfl
  have hall : ∀ pre ∈ [8, 16, 24], IsNetworkMask (hton (setNetmask 0 pre)) 4 pre := by decide +kernel
  rw [hknown pre h]
  exact hall pre h

theorem setNetmask_of_unknown {netmask : UINT4} {pre : ℕ} (h : pre ∉ [8, 16, 24]) :
    setNetmask netmask pre = netmask := by
  simp only [List.mem_cons, List.not_mem_nil, or_false, not_or] at h
  rw [setNetmask, if_neg h.1, if_neg h.2.1, if_neg h.2.2]

/-- The mask that one of the cases has left, or none. -/
def KnownNetmask (netmask : UINT4) : Prop := ∃ pre ∈ [0, 8, 16, 24], IsNetworkMask (hton netmask) 4 pre

def KnownNetmaskv6 (netmaskv6 : List UINT1) : Prop := ∃ pre, pre % 8 = 0 ∧ pre ≤ 128 ∧ IsNetworkMask netmaskv6 16 pre

theorem KnownNetmask.set {netmask : UINT4} (h : KnownNetmask netmask) (pre : ℕ) :
    KnownNetmask (setNetmask netmask pre) := by
  by_cases hpre : pre ∈ [8, 16, 24]
  · exact ⟨pre, List.mem_cons_of_mem 0 hpre, isNetworkMask_setNetmask hpre⟩
  · rw [setNetmask_of_unknown hpre]
    exact h

theorem KnownNetmaskv6.set {netmaskv6 : List UINT1} (h : KnownNetmaskv6 netmaskv6) (pre : ℕ) :
    KnownNetmaskv6 (setNetmaskv6 netmaskv6 pre) := by
  rw [setNetmaskv6]
  split_ifs with hpre
  · exact ⟨pre, hpre.1, hpre.2.2, isNetworkMask_v6 hpre.1 hpre.2.2⟩
  · exact h

/-- The mask of an IPv4 prefix is its own exactly if the prefix has a case. -/
theorem isNetworkMask_setNetmask_iff {netmask : UINT4} (h : KnownNetmask netmask) {pre : ℕ} (hpos : 1 ≤ pre)
    (hle : pre ≤ 32) : IsNetworkMask (hton (setNetmask netmask pre)) 4 pre ↔ pre ∈ [8, 16, 24] := by
  constructor
  · intro hmask
    by_contra hpre
    rw [setNetmask_of_unknown hpre] at hmask
    obtain ⟨pre', hpre', hmask'⟩ := h
    have hle' : pre' ≤ 32 := by
      simp only [List.mem_cons, List.not_mem_nil, or_false] at hpre'
      omega
    obtain rfl := hmask.unique hmask' hle hle'
    rcases List.mem_cons.mp hpre' with rfl | hpre'
    · omega
    · exact hpre hpre'
  · exact isNetworkMask_setNetmask

theorem isNetworkMask_setNetmaskv6_iff {netmaskv6 : List UINT1} (h : KnownNetmaskv6 netmaskv6) {pre : ℕ}
    (hpos : 1 ≤ pre) (hle : pre ≤ 128) : IsNetworkMask (setNetmaskv6 netmaskv6 pre) 16 pre ↔ pre % 8 = 0 := by
  constructor
  · intro hmask
    by_contra hpre
    rw [setNetmaskv6, if_neg (by omega)] at hmask
    obtain ⟨pre', hpre', hle', hmask'⟩ := h
    obtain rfl := hmask.unique hmask' hle hle'
    exact hpre hpre'
  · intro hpre
    rw [setNetmaskv6, if_pos (by omega)]
    exact isNetworkMask_v6 hpre hle

namespace gn_oxm_t

variable {oxm : gn_oxm_t}

/-- The mask bytes behind the value of a field, in `of13_add_oxm_field`. -/
def matchMask (oxm : gn_oxm_t) (netmaskv6 : List UINT1) : OxmField → List UINT1
  | .metadata => if oxm.isSet .metadata_mask then OxmField.network .metadata_mask (oxm.field .metadata_mask) else []
  | .ipv4_src =>
    if oxm.isSet OxmField.ipv4_src_prefix then
      hton (cidr_to_subnet_mask (Word.ofNat (oxm.field OxmField.ipv4_src_prefix).toNat)) else []
  | .ipv4_dst =>
    if oxm.isSet OxmField.ipv4_dst_prefix then
      hton (cidr_to_subnet_mask (Word.ofNat (oxm.field OxmField.ipv4_dst_prefix).toNat)) else []
  | .ipv6_src =>
    if oxm.isSet OxmField.ipv6_src_prefix then setNetmaskv6 netmaskv6 (oxm.field OxmField.ipv6_src_prefix).toNat else []
  | .ipv6_dst =>
    if oxm.isSet OxmField.ipv6_dst_prefix then setNetmaskv6 netmaskv6 (oxm.field OxmField.ipv6_dst_prefix).toNat else []
  | _ => []

/-- The mask bytes behind the value of a field, in `of13_add_set_field`. -/
def setMask (oxm : gn_oxm_t) (netmask : UINT4) (netmaskv6 : List UINT1) : OxmField → List UINT1
  | .ipv4_src =>
    if oxm.isSet OxmField.ipv4_src_prefix then
      hton (setNetmask netmask (oxm.field OxmField.ipv4_src_prefix).toNat) else []
  | .ipv4_dst =>
    if oxm.isSet OxmField.ipv4_dst_prefix then
      hton (setNetmask netmask (oxm.field OxmField.ipv4_dst_prefix).toNat) else []
  | f => oxm.matchMask netmaskv6 f

theorem addOxm_emits (w : OxmWriter) (f : OxmField) : (addOxm oxm w f).buf =
    w.buf ++ [⟨oxm.field_hm f, f.network (oxm.field f) ++ oxm.matchMask w.netmaskv6 f⟩] := by
  cases f with
  | metadata =>
    by_cases h : oxm.isSet .metadata_mask
    · simp [addOxm, matchMask, field_hm, OxmWriter.add, h]
    · simp [addOxm, matchMask, field_hm, OxmWriter.add, h]
  | ipv4_src | ipv4_dst => exact addIpv4_buf (by decide) rfl
  | ipv6_src | ipv6_dst => exact addIpv6_buf (by decide) rfl
  | _ => simp [addOxm, OxmWriter.add, matchMask, field_hm, masks]

theorem setIpv4_oxms {f pre : OxmField} (w : SetFieldWriter) (hf : f ≠ .metadata)
    (hmasks : oxm.masks f = oxm.isSet pre) : (setIpv4 oxm f pre w).oxms =
      w.oxms ++ [⟨oxm.field_hm f, f.network (oxm.field f) ++
        if oxm.isSet pre then hton (setNetmask w.netmask (oxm.field pre).toNat) else []⟩] := by
  rw [setIpv4, field_hm, hmasks]
  by_cases hset : oxm.isSet pre
  · rw [if_pos hset, if_pos ⟨hf, hset⟩, if_pos hset]
    rfl
  · rw [if_neg hset, if_neg fun h => hset h.2, if_neg hset, List.append_nil]
    rfl

theorem setIpv6_oxms {f pre : OxmField} (w : SetFieldWriter) (hf : f ≠ .metadata)
    (hmasks : oxm.masks f = oxm.isSet pre) : (setIpv6 oxm f pre w).oxms =
      w.oxms ++ [⟨oxm.field_hm f, f.network (oxm.field f) ++
        if oxm.isSet pre then setNetmaskv6 w.netmaskv6 (oxm.field pre).toNat else []⟩] := by
  rw [setIpv6, field_hm, hmasks]
  by_cases hset : oxm.isSet pre
  · rw [if_pos hset, if_pos ⟨hf, hset⟩, if_pos hset]
    rfl
  · rw [if_neg hset, if_neg fun h => hset h.2, if_neg hset, List.append_nil]
    rfl

theorem addSetField_emits (w : SetFieldWriter) (f : OxmField) : (addSetField oxm w f).oxms =
    w.oxms ++ [⟨oxm.field_hm f, f.network (oxm.field f) ++ oxm.setMask w.netmask w.netmaskv6 f⟩] := by
  cases f with
  | metadata =>
    by_cases h : oxm.isSet .metadata_mask
    · simp [addSetField, setMask, matchMask, field_hm, SetFieldWriter.add, h]
    · simp [addSetField, setMask, matchMask, field_hm, SetFieldWriter.add, h]
  | ipv4_src | ipv4_dst => exact setIpv4_oxms w (by decide) rfl
  | ipv6_src | ipv6_dst => exact setIpv6_oxms w (by decide) rfl
  | _ => simp [addSetField, SetFieldWriter.add, setMask, matchMask, field_hm, masks]

theorem oxm_field_of_hm {o : Oxm} {f : OxmField} (h : o.field_hm = oxm.field_hm f) :
    o.oxm_field = f.bit.toUInt8 := by
  apply UInt8.toNat_inj.mp
  rw [Oxm.oxm_field, field_of_header h]
  cases f <;> rfl

theorem nodup_emitted (oxm : gn_oxm_t) :
    ((OxmField.emitted.filter oxm.isSet).map fun f => f.bit.toUInt8).Nodup := by
  have hall : (OxmField.emitted.map fun f => f.bit.toUInt8).Nodup := by decide
  exact hall.sublist (List.filter_sublist.map _)

theorem addOxm_netmaskv6 (w : OxmWriter) (f : OxmField) (h : KnownNetmaskv6 w.netmaskv6) :
    KnownNetmaskv6 (addOxm oxm w f).netmaskv6 := by
  cases f with
  | metadata =>
    rw [addOxm]
    split_ifs <;> exact h
  | ipv4_src | ipv4_dst =>
    rw [addOxm, addIpv4]
    split_ifs <;> exact h
  | ipv6_src | ipv6_dst =>
    rw [addOxm, addIpv6]
    split_ifs
    · exact h.set _
    · exact h
  | _ => exact h

theorem addSetField_netmasks (w : SetFieldWriter) (f : OxmField)
    (h : KnownNetmask w.netmask ∧ KnownNetmaskv6 w.netmaskv6) :
    KnownNetmask (addSetField oxm w f).netmask ∧ KnownNetmaskv6 (addSetField oxm w f).netmaskv6 := by
  cases f with
  | metadata =>
    rw [addSetField]
    split_ifs <;> exact h
  | ipv4_src | ipv4_dst =>
    rw [addSetField, setIpv4]
    split_ifs
    · exact ⟨h.1.set _, h.2⟩
    · exact h
  | ipv6_src | ipv6_dst =>
    rw [addSetField, setIpv6]
    split_ifs
    · exact ⟨h.1, h.2.set _⟩
    · exact h
  | _ => exact h

theorem knownNetmaskv6_zero : KnownNetmaskv6 (List.replicate 16 0) := ⟨0, rfl, by omega, by decide⟩

theorem knownNetmask_zero : KnownNetmask 0 := ⟨0, List.mem_cons_self, by decide⟩

/-- What is emitted for a field has the mask that the fields before it have left. -/
theorem emittedFor_at {f : OxmField} {l₁ l₂ : List OxmField} (hl : OxmField.emitted.filter oxm.isSet = l₁ ++ f :: l₂) :
    emittedFor (of13_add_oxm_field oxm).buf f = [f.network (oxm.presentVlan.field f) ++
      oxm.presentVlan.matchMask (l₁.foldl (addOxm oxm.presentVlan) .start).netmaskv6 f] := by
  rw [emittedFor, of13_add_oxm_field, hl]
  rw [filter_foldl_append_one addOxm_emits (fun w g => oxm_field_of_hm rfl) (hl ▸ nodup_emitted oxm) rfl]
  rfl

/-- What is emitted for a field has the mask that its turn finds. -/
theorem emittedFor_match (oxm : gn_oxm_t) {f : OxmField} (hf : f ∈ OxmField.emitted) (hset : oxm.isSet f) :
    ∃ netmaskv6, KnownNetmaskv6 netmaskv6 ∧ emittedFor (of13_add_oxm_field oxm).buf f =
      [f.network (oxm.presentVlan.field f) ++ oxm.presentVlan.matchMask netmaskv6 f] := by
  obtain ⟨l₁, l₂, hl⟩ := List.append_of_mem (List.mem_filter.mpr ⟨hf, hset⟩)
  refine ⟨(l₁.foldl (addOxm oxm.presentVlan) .start).netmaskv6, ?_, emittedFor_at hl⟩
  apply foldl_invariant (P := fun w : OxmWriter => KnownNetmaskv6 w.netmaskv6)
  · exact fun w g _ h => addOxm_netmaskv6 w g h
  · exact knownNetmaskv6_zero

theorem emittedFor_set (oxm : gn_oxm_t) {f : OxmField} (hf : f ∈ OxmField.emitted) (hset : oxm.isSet f) :
    ∃ netmask netmaskv6, KnownNetmask netmask ∧ KnownNetmaskv6 netmaskv6 ∧ emittedFor (setFieldOxms oxm).oxms f =
      [f.network (oxm.presentVlan.field f) ++ oxm.presentVlan.setMask netmask netmaskv6 f] := by
  obtain ⟨l₁, l₂, hl⟩ := List.append_of_mem (List.mem_filter.mpr ⟨hf, hset⟩)
  have hknown : KnownNetmask (l₁.foldl (addSetField oxm.presentVlan) .start).netmask ∧
      KnownNetmaskv6 (l₁.foldl (addSetField oxm.presentVlan) .start).netmaskv6 := by
    apply foldl_invariant (P := fun w : SetFieldWriter => KnownNetmask w.netmask ∧ KnownNetmaskv6 w.netmaskv6)
    · exact fun w g _ h => addSetField_netmasks w g h
    · exact ⟨knownNetmask_zero, knownNetmaskv6_zero⟩
  refine ⟨_, _, hknown.1, hknown.2, ?_⟩
  rw [emittedFor, setFieldOxms, hl]
  rw [filter_foldl_append_one addSetField_emits (fun w g => oxm_field_of_hm rfl) (hl ▸ nodup_emitted oxm) rfl]
  rfl

theorem presentVlan_field_of_ne (oxm : gn_oxm_t) {f : OxmField} (hf : f ≠ .vlan_vid) :
    oxm.presentVlan.field f = oxm.field f := by
  rw [presentVlan]
  split_ifs
  · simp [setField, hf]
  · rfl

theorem exists_mask_iff {value mask mask' : List UINT1} {P : List UINT1 → Prop} :
    (∃ m, [value ++ mask] = [value ++ m] ∧ [value ++ mask'] = [value ++ m] ∧ P m) ↔ mask = mask' ∧ P mask' := by
  constructor
  · rintro ⟨m, hm, hm', hP⟩
    obtain rfl := List.append_cancel_left (List.singleton_inj.mp hm)
    obtain rfl := List.append_cancel_left (List.singleton_inj.mp hm')
    exact ⟨rfl, hP⟩
  · rintro ⟨rfl, hP⟩
    exact ⟨mask, rfl, rfl, hP⟩

theorem ipv4_masks_iff {set : Bool} {netmask : UINT4} {pre : ℕ} (h : KnownNetmask netmask)
    (hrange : set → 1 ≤ pre ∧ pre ≤ 32) :
    ((if set then hton (cidr_to_subnet_mask (Word.ofNat pre)) else []) =
        (if set then hton (setNetmask netmask pre) else []) ∧
      if set then IsNetworkMask (if set then hton (setNetmask netmask pre) else []) 4 pre
      else (if set then hton (setNetmask netmask pre) else []) = []) ↔ (set → pre ∈ [8, 16, 24]) := by
  cases set with
  | false => simp
  | true =>
    obtain ⟨hpos, hle⟩ := hrange rfl
    simp only [if_true, forall_true_left]
    rw [isNetworkMask_setNetmask_iff h hpos hle, and_iff_right_iff_imp]
    intro hpre
    exact (isNetworkMask_cidr hpos hle).eq (isNetworkMask_setNetmask hpre)

theorem ipv6_masks_iff {set : Bool} {netmaskv6 netmaskv6' : List UINT1} {pre : ℕ} (h : KnownNetmaskv6 netmaskv6)
    (h' : KnownNetmaskv6 netmaskv6') (hrange : set → 1 ≤ pre ∧ pre ≤ 128) :
    ((if set then setNetmaskv6 netmaskv6 pre else []) = (if set then setNetmaskv6 netmaskv6' pre else []) ∧
      if set then IsNetworkMask (if set then setNetmaskv6 netmaskv6' pre else []) 16 pre
      else (if set then setNetmaskv6 netmaskv6' pre else []) = []) ↔ (set → pre % 8 = 0) := by
  cases set with
  | false => simp
  | true =>
    obtain ⟨hpos, hle⟩ := hrange rfl
    simp only [if_true, forall_true_left]
    rw [isNetworkMask_setNetmaskv6_iff h' hpos hle, and_iff_right_iff_imp]
    intro hpre
    exact ((isNetworkMask_setNetmaskv6_iff h hpos hle).mpr hpre).eq
      ((isNetworkMask_setNetmaskv6_iff h' hpos hle).mpr hpre)

theorem masksOwn_iff (oxm : gn_oxm_t) (h : oxm.PrefixesInRange) : oxm.MasksOwn ↔ oxm.PrefixesKnown := by
  rw [MasksOwn, PrefixesKnown]
  apply forall₂_congr
  intro p hp
  apply imp_congr_right
  intro hset
  have hrange := h p hp hset
  obtain ⟨hemitted, hvlan, hvlan'⟩ := OxmField.addresses_emitted p hp
  obtain ⟨netmaskv6, hv6, hmatch⟩ := emittedFor_match oxm hemitted hset
  obtain ⟨netmask, netmaskv6', hv4, hv6', hfield⟩ := emittedFor_set oxm hemitted hset
  have hpre := presentVlan_field_of_ne oxm hvlan'
  rw [hmatch, hfield, presentVlan_field_of_ne oxm hvlan, exists_mask_iff]
  simp only [OxmField.addresses, List.mem_cons, List.not_mem_nil, or_false] at hp
  rcases hp with rfl | rfl | rfl | rfl
  · simp only [matchMask, setMask, isSet_presentVlan, hpre]
    exact ipv4_masks_iff hv4 hrange
  · simp only [matchMask, setMask, isSet_presentVlan, hpre]
    exact ipv4_masks_iff hv4 hrange
  · simp only [matchMask, setMask, isSet_presentVlan, hpre]
    exact ipv6_masks_iff hv6 hv6' hrange
  · simp only [matchMask, setMask, isSet_presentVlan, hpre]
    exact ipv6_masks_iff hv6 hv6' hrange

end gn_oxm_t

/-- The sources of a network are matched or set. -/
def ipv4Network (ipv4_src pre : UINT4) : gn_oxm_t :=
  (CFlowCache.emptyOxm.setPresent .ipv4_src ipv4_src.toBitVec).setPresent OxmField.ipv4_src_prefix pre.toBitVec

theorem ipv4Network_masksOwn : (ipv4Network 0x0a000000 8).MasksOwn := by
  apply (gn_oxm_t.masksOwn_iff _ (by decide +kernel)).mpr
  decide +kernel

/-- The network 10.0.0.0/20 is set without any bit of a mask. -/
theorem ipv4Network_not_masksOwn : ¬ ∀ oxm : gn_oxm_t, oxm.PrefixesInRange → oxm.MasksOwn := by
  intro h
  obtain ⟨mask, -, hset, hown⟩ :=
    h (ipv4Network 0x0a000000 20) (by decide +kernel) (.ipv4_src, OxmField.ipv4_src_prefix) (by decide) (by decide)
  have hdata : emittedFor (setFieldOxms (ipv4Network 0x0a000000 20)).oxms .ipv4_src =
      [OxmField.network .ipv4_src ((ipv4Network 0x0a000000 20).field .ipv4_src) ++ [0, 0, 0, 0]] := by decide
  rw [hdata] at hset
  obtain rfl : [0, 0, 0, 0] = mask := List.append_cancel_left (List.singleton_inj.mp hset)
  exact absurd hown (by decide)

end DCFabric
