import DCFabric.FlowEntryRecover

namespace DCFabric

open LoopRuns TlvStreams

def SET_MASK (set mask : UINT8) : UINT8 := set ||| (MASK_SET <<< mask)

namespace OxmField

/-- The field is an array of bytes. -/
def isArray : OxmField → Bool
  | eth_dst | eth_src | arp_sha | arp_tha | ipv6_src | ipv6_dst => true
  | _ => false

/-- A value in network order: an integer with its highest byte first, an array as it is. -/
def network (f : OxmField) (value : BitVec (8 * f.size)) : List UINT1 :=
  if f.isArray then leBytes f.size value.toNat else (leBytes f.size value.toNat).reverse

def host (f : OxmField) (bytes : List UINT1) : BitVec (8 * f.size) :=
  BitVec.ofNat (8 * f.size) (leNat (if f.isArray then bytes else bytes.reverse))

theorem length_network {f : OxmField} {value : BitVec (8 * f.size)} : (f.network value).length = f.size := by
  rw [network]
  split_ifs
  · exact length_leBytes
  · rw [List.length_reverse, length_leBytes]

theorem host_network (f : OxmField) (value : BitVec (8 * f.size)) : f.host (f.network value) = value := by
  have hlt : value.toNat < 256 ^ f.size := by
    have h := value.isLt
    rwa [Nat.pow_mul] at h
  have hvalue : leNat (leBytes f.size value.toNat) = value.toNat := leNat_leBytes hlt
  rw [host, network]
  cases f.isArray with
  | true => simp only [if_true, hvalue, BitVec.ofNat_toNat, BitVec.setWidth_eq]
  | false => simp [hvalue]

/-- The fields `of13OxmConvertter` has a case for, in its order. -/
def converted : List OxmField :=
  [in_port, in_phy_port, metadata, eth_dst, eth_src, eth_type, vlan_vid, vlan_pcp, ip_dscp, ip_ecn, ip_proto,
    ipv4_src, ipv4_src_prefix, ipv4_dst, ipv4_dst_prefix, tcp_src, tcp_dst, udp_src, udp_dst, icmpv4_type, icmpv4_code,
    arp_op, arp_spa, arp_tpa, arp_sha, arp_tha, ipv6_src, ipv6_dst, mpls_label, tunnel_id]

/-- The field of a case of `of13OxmConvertter`. -/
def ofOxm (oxm_field : UINT1) : Option OxmField := converted.find? fun f => f.bit.toNat = oxm_field.toNat

end OxmField

def gn_oxm_t.setPresent (oxm : gn_oxm_t) (f : OxmField) (value : BitVec (8 * f.size)) : gn_oxm_t :=
  { oxm.setField f value with mask := SET_MASK oxm.mask f.bit }

/-- The length of the OXM, and the fields with its value. -/
def of13OxmConvertter (m : Memory) (oxm : ℕ) (fields : gn_oxm_t) : UINT1 × gn_oxm_t :=
  let length := m (oxm + 3)
  match OxmField.ofOxm (m (oxm + 2) >>> 1) with
  | none => (length, fields)
  | some f =>
    let fields := fields.setPresent f (f.host (load m (oxm + 4) f.size))
    if f = .metadata ∧ length > 8 then
      (length, fields.setPresent .metadata_mask (OxmField.host .metadata_mask (load m (oxm + 4 + 8) 8)))
    else (length, fields)

/-- A received `ofp13_flow_removed`. -/
structure FlowRemoved where
  m : Memory
  addr : ℕ

/-- An integer in network order. -/
def ntoh {α : Type} [Word α] (m : Memory) (addr : ℕ) : α := Word.ofNat (leNat (load m addr (Word.size α)).reverse)

namespace FlowRemoved

variable (removed : FlowRemoved)

def length : UINT2 := ntoh removed.m (removed.addr + 2)

def priority : UINT2 := ntoh removed.m (removed.addr + 16)

def reason : UINT1 := removed.m (removed.addr + 18)

def table_id : UINT1 := removed.m (removed.addr + 19)

/-- In the order of the host. -/
def idle_timeout : UINT2 := Word.ofNat (leNat (load removed.m (removed.addr + 28) 2))

/-- In the order of the host. -/
def hard_timeout : UINT2 := Word.ofNat (leNat (load removed.m (removed.addr + 30) 2))

def matchType : UINT2 := ntoh removed.m (removed.addr + 48)

def matchLength : UINT2 := ntoh removed.m (removed.addr + 50)

def oxm_fields : ℕ := removed.addr + 52

/-- The first address after the message. -/
def last : ℕ := removed.addr + removed.length.toNat

end FlowRemoved

structure OxmCursor where
  oxm : ℕ
  oxmLen : UINT2
  fields : gn_oxm_t

/-- One pass of the loop of `of13Parse`. -/
def oxmPass (m : Memory) (totalLen : UINT2) (c : OxmCursor) : Pass OxmCursor Unit gn_oxm_t :=
  if c.oxmLen < totalLen then
    let (fieldLen, fields) := of13OxmConvertter m c.oxm c.fields
    .next () ⟨c.oxm + (4 + fieldLen.toNat), c.oxmLen + (4 + fieldLen.toUInt16), fields⟩
  else .leave c.fields

def FlowRemoved.start (removed : FlowRemoved) : OxmCursor := ⟨removed.oxm_fields, 4, CFlowCache.emptyOxm⟩

def of13Parse (removed : FlowRemoved) (fuel : ℕ) : Option gn_flow_t :=
  (run (oxmPass removed.m removed.matchLength) fuel removed.start).map fun (_, oxm) =>
    { gn_flow_t.zero with
      table_id := removed.table_id
      idle_timeout := removed.idle_timeout
      hard_timeout := removed.hard_timeout
      priority := removed.priority
      gn_match := ⟨removed.matchType, oxm⟩ }

def OFPRR_IDLE_TIMEOUT : UINT1 := 0

def OFPRR_HARD_TIMEOUT : UINT1 := 1

def FABRIC_TABLE_NAT_OUTTOR : UINT1 := 4

def htonl (v : UINT4) : UINT4 := Word.ofNat (leNat (leBytes 4 v.toNat).reverse)

/-- The arguments of the calls of `removeSNatConnByInt`. -/
def removedSNatConns (oxm : gn_oxm_t) : List (UINT4 × UINT4 × UINT2 × UINT1) :=
  if oxm.isSet .ip_proto && oxm.isSet .ipv4_src && oxm.isSet .ipv4_dst then
    let proto : UINT1 := Word.ofNat (oxm.field .ip_proto).toNat
    let ipv4_src : UINT4 := Word.ofNat (oxm.field .ipv4_src).toNat
    let ipv4_dst : UINT4 := Word.ofNat (oxm.field .ipv4_dst).toNat
    (if IPPROTO_TCP = proto && oxm.isSet .tcp_src then
      [(htonl ipv4_dst, htonl ipv4_src, Word.ofNat (oxm.field .tcp_src).toNat, IPPROTO_TCP)] else []) ++
    if IPPROTO_UDP = proto && oxm.isSet .udp_src then
      [(htonl ipv4_dst, htonl ipv4_src, Word.ofNat (oxm.field .udp_src).toNat, IPPROTO_UDP)] else []
  else []

/-- The calls of `removeSNatConnByInt` and the flow that is reported for a strict deletion. -/
structure FlowRemovedCalls where
  removeSNatConnByInt : List (UINT4 × UINT4 × UINT2 × UINT1)
  delStrict : Option gn_flow_t

/-- `COfFlowRemovedHandler::handle`, for the socket of a switch. -/
def FlowRemoved.handle (removed : FlowRemoved) (fuel : ℕ) : Option (INT4 × FlowRemovedCalls) :=
  if removed.length < 56 then some (BNC_ERR, ⟨[], none⟩)
  else
    (of13Parse removed fuel).map fun flow =>
      if OFPRR_IDLE_TIMEOUT = removed.reason ∨ OFPRR_HARD_TIMEOUT = removed.reason then
        (BNC_OK, ⟨if FABRIC_TABLE_NAT_OUTTOR = flow.table_id then removedSNatConns flow.gn_match.oxm_fields else [],
          some flow⟩)
      else (BNC_OK, ⟨[], none⟩)

/-- What a pass from the cursor reads. -/
def oxmAccesses (m : Memory) (totalLen : UINT2) (c : OxmCursor) : List Access :=
  if c.oxmLen < totalLen then
    .read (c.oxm + 2) 1 ::
      ((match OxmField.ofOxm (m (c.oxm + 2) >>> 1) with
        | none => []
        | some f => .read (c.oxm + 4) f.size ::
          if f = .metadata ∧ m (c.oxm + 3) > 8 then [.read (c.oxm + 4 + 8) 8] else []) ++
        [.read (c.oxm + 3) 1])
  else []

/-- An OXM at the address, of which the match holds `used` bytes before it. -/
structure OxmVisit where
  addr : ℕ
  used : ℕ
  field_hm : UINT1
  length : UINT1
deriving DecidableEq

namespace OxmVisit

/-- The bytes of its value that are read. -/
def reach (v : OxmVisit) : ℕ :=
  match OxmField.ofOxm (v.field_hm >>> 1) with
  | none => 0
  | some f => if f = .metadata ∧ v.length > 8 then 16 else f.size

/-- What is read lies before `last`, and the length of the match after it is one of a 16-bit integer. -/
def Inside (last : ℕ) (v : OxmVisit) : Prop := v.addr + 4 + v.reach ≤ last ∧ v.used + 4 + v.length.toNat < 2 ^ 16

end OxmVisit

/-- The OXMs that begin inside of a match of `totalLen` bytes. -/
def oxmWalk (m : Memory) (totalLen addr used : ℕ) : List OxmVisit :=
  if used < totalLen then
    ⟨addr, used, m (addr + 2), m (addr + 3)⟩ ::
      oxmWalk m totalLen (addr + (4 + (m (addr + 3)).toNat)) (used + (4 + (m (addr + 3)).toNat))
  else []
termination_by totalLen - used

/-- One pass of a loop over OXMs that goes on where its test holds of the length so far. -/
def parsePass (goesOn : UINT2 → Bool) (m : Memory) (c : OxmCursor) : Pass OxmCursor Unit gn_oxm_t :=
  if goesOn c.oxmLen then
    let (fieldLen, fields) := of13OxmConvertter m c.oxm c.fields
    .next () ⟨c.oxm + (4 + fieldLen.toNat), c.oxmLen + (4 + fieldLen.toUInt16), fields⟩
  else .leave c.fields

/-- What `of13OxmConvertter` reads. -/
def oxmReads (m : Memory) (oxm : ℕ) : List Access :=
  .read (oxm + 2) 1 ::
    ((match OxmField.ofOxm (m (oxm + 2) >>> 1) with
      | none => []
      | some f => .read (oxm + 4) f.size :: if f = .metadata ∧ m (oxm + 3) > 8 then [.read (oxm + 4 + 8) 8] else []) ++
      [.read (oxm + 3) 1])

/-- What a pass from the cursor reads. -/
def parseAccesses (goesOn : UINT2 → Bool) (m : Memory) (c : OxmCursor) : List Access :=
  if goesOn c.oxmLen then oxmReads m c.oxm else []

/-- The OXMs that the loop comes to as long as the length does not wrap around. -/
def oxmVisits (goesOn : UINT2 → Bool) (m : Memory) (addr used : ℕ) : List OxmVisit :=
  if used < 2 ^ 16 ∧ goesOn (UInt16.ofNat used) then
    ⟨addr, used, m (addr + 2), m (addr + 3)⟩ ::
      oxmVisits goesOn m (addr + (4 + (m (addr + 3)).toNat)) (used + (4 + (m (addr + 3)).toNat))
  else []
termination_by 2 ^ 16 - used

section

variable {m : Memory} {goesOn : UINT2 → Bool} {totalLen : UINT2} {c c' : OxmCursor} {lo hi base addr used : ℕ}

theorem of13OxmConvertter_length {oxm : ℕ} {fields : gn_oxm_t} :
    (of13OxmConvertter m oxm fields).1 = m (oxm + 3) := by
  unfold of13OxmConvertter
  dsimp only
  cases OxmField.ofOxm (m (oxm + 2) >>> 1) with
  | none => rfl
  | some f =>
    dsimp only
    split_ifs <;> rfl

/-- The cursor after a pass. -/
def OxmCursor.next (c : OxmCursor) (m : Memory) : OxmCursor where
  oxm := c.oxm + (4 + (m (c.oxm + 3)).toNat)
  oxmLen := c.oxmLen + (4 + (m (c.oxm + 3)).toUInt16)
  fields := (of13OxmConvertter m c.oxm c.fields).2

theorem parsePass_next (h : goesOn c.oxmLen) : parsePass goesOn m c = .next () (c.next m) := by
  rw [parsePass, if_pos h]
  simp only [of13OxmConvertter_length]
  rfl

theorem parsePass_leave (h : ¬ goesOn c.oxmLen) : parsePass goesOn m c = .leave c.fields := if_neg h

theorem oxmLen_next : (c.next m).oxmLen.toNat = (c.oxmLen.toNat + (4 + (m (c.oxm + 3)).toNat)) % 2 ^ 16 := by
  simp [OxmCursor.next, UInt16.toNat_add]

/-- The OXM at the cursor. -/
def OxmCursor.visit (c : OxmCursor) (m : Memory) : OxmVisit := ⟨c.oxm, c.oxmLen.toNat, m (c.oxm + 2), m (c.oxm + 3)⟩

theorem oxmReads_safe_iff (hlo : lo ≤ c.oxm) :
    (∀ a ∈ oxmReads m c.oxm, a.Safe lo hi) ↔ c.oxm + 4 + (c.visit m).reach ≤ hi := by
  rw [oxmReads, OxmVisit.reach, OxmCursor.visit]
  dsimp only
  cases OxmField.ofOxm (m (c.oxm + 2) >>> 1) with
  | none =>
    simp only [List.nil_append, List.forall_mem_cons, List.not_mem_nil, false_imp_iff, implies_true, and_true,
      Access.safe_read]
    omega
  | some f =>
    dsimp only
    by_cases hmask : f = .metadata ∧ m (c.oxm + 3) > 8
    · obtain ⟨rfl, hlen⟩ := hmask
      simp only [hlen, and_self, if_true, List.cons_append, List.nil_append, List.forall_mem_cons,
        List.not_mem_nil, false_imp_iff, implies_true, and_true, Access.safe_read, OxmField.size]
      omega
    · have hpos := f.size_pos
      simp only [if_neg hmask, List.cons_append, List.nil_append, List.forall_mem_cons, List.not_mem_nil,
        false_imp_iff, implies_true, and_true, Access.safe_read]
      omega

theorem oxmVisits_cons (h : goesOn c.oxmLen) : oxmVisits goesOn m c.oxm c.oxmLen.toNat =
    c.visit m :: oxmVisits goesOn m (c.next m).oxm (c.oxmLen.toNat + (4 + (m (c.oxm + 3)).toNat)) := by
  rw [oxmVisits, UInt16.ofNat_toNat, if_pos ⟨c.oxmLen.toNat_lt, h⟩]
  rfl

theorem oxmVisits_nil (h : ¬ goesOn c.oxmLen) : oxmVisits goesOn m c.oxm c.oxmLen.toNat = [] := by
  rw [oxmVisits, UInt16.ofNat_toNat, if_neg fun hgoes => h hgoes.2]

/-- The loop keeps to OXMs that lie inside of the message. -/
theorem keeps_of_inside (h : ∀ v ∈ oxmVisits goesOn m c.oxm c.oxmLen.toNat, v.Inside hi) (hlo : lo ≤ c.oxm) :
    (∃ vs r, Ends (parsePass goesOn m) c vs r) ∧
      ∀ vs c', Passes (parsePass goesOn m) c vs c' → ∀ a ∈ parseAccesses goesOn m c', a.Safe lo hi := by
  induction hn : 2 ^ 16 - c.oxmLen.toNat using Nat.strong_induction_on generalizing c with
  | _ n ih =>
    subst hn
    by_cases hc : goesOn c.oxmLen
    · rw [oxmVisits_cons hc] at h
      obtain ⟨⟨hreach, hused⟩, hrest⟩ := List.forall_mem_cons.mp h
      have hlen : (c.next m).oxmLen.toNat = c.oxmLen.toNat + (4 + (m (c.oxm + 3)).toNat) := by
        rw [oxmLen_next]
        apply Nat.mod_eq_of_lt
        simpa [OxmCursor.visit, Nat.add_assoc] using hused
      have hlt := c.oxmLen.toNat_lt
      rw [← hlen] at hrest
      obtain ⟨⟨vs, r, hends⟩, hsafe⟩ := ih (2 ^ 16 - (c.next m).oxmLen.toNat) (by omega) hrest
        (hlo.trans (Nat.le_add_right _ _)) rfl
      refine ⟨⟨() :: vs, r, .next (parsePass_next hc) hends⟩, ?_⟩
      intro vs c' hp
      cases hp with
      | refl =>
        rw [parseAccesses, if_pos hc]
        exact (oxmReads_safe_iff hlo).mpr hreach
      | next hstep hp =>
        rw [parsePass_next hc] at hstep
        cases hstep
        exact hsafe _ c' hp
    · refine ⟨⟨[], c.fields, .leave (parsePass_leave hc)⟩, ?_⟩
      intro vs c' hp
      cases hp with
      | refl =>
        rw [parseAccesses, if_neg hc]
        exact List.forall_mem_nil _
      | next hstep hp =>
        rw [parsePass_leave hc] at hstep
        cases hstep

/-- Where the length wraps around, the loop goes on with an OXM that lies behind every message. -/
theorem inside_of_safe (hdown : ∀ a b : UINT2, b.toNat ≤ a.toNat → goesOn a → goesOn b)
    (haddr : c.oxm = base + 48 + c.oxmLen.toNat) (hhi : hi < base + 2 ^ 16) (hlo : lo ≤ c.oxm)
    (h : ∀ vs c', Passes (parsePass goesOn m) c vs c' → ∀ a ∈ parseAccesses goesOn m c', a.Safe lo hi) :
    ∀ v ∈ oxmVisits goesOn m c.oxm c.oxmLen.toNat, v.Inside hi := by
  have hsafe (c : OxmCursor) (hlo : lo ≤ c.oxm) (hc : goesOn c.oxmLen)
      (h : ∀ a ∈ parseAccesses goesOn m c, a.Safe lo hi) : c.oxm + 4 + (c.visit m).reach ≤ hi := by
    rw [parseAccesses, if_pos hc] at h
    exact (oxmReads_safe_iff hlo).mp h
  induction hn : 2 ^ 16 - c.oxmLen.toNat using Nat.strong_induction_on generalizing c with
  | _ n ih =>
    subst hn
    by_cases hc : goesOn c.oxmLen
    · have hreach := hsafe c hlo hc (h [] c .refl)
      have hlt := c.oxmLen.toNat_lt
      have hbound := (m (c.oxm + 3)).toNat_lt
      have hnext : ∀ vs c', Passes (parsePass goesOn m) (c.next m) vs c' →
          ∀ a ∈ parseAccesses goesOn m c', a.Safe lo hi := by
        intro vs c' hp
        exact h (() :: vs) c' (.next (parsePass_next hc) hp)
      have hoxm : (c.next m).oxm = c.oxm + (4 + (m (c.oxm + 3)).toNat) := rfl
      have hlo' : lo ≤ (c.next m).oxm := hlo.trans (Nat.le_add_right _ _)
      have hused : c.oxmLen.toNat + (4 + (m (c.oxm + 3)).toNat) < 2 ^ 16 := by
        by_contra hwrap
        have hlen : (c.next m).oxmLen.toNat = c.oxmLen.toNat + (4 + (m (c.oxm + 3)).toNat) - 2 ^ 16 := by
          rw [oxmLen_next]
          omega
        have hagain : goesOn (c.next m).oxmLen := hdown c.oxmLen _ (by omega) hc
        have hout := hsafe (c.next m) hlo' hagain (hnext [] _ .refl)
        omega
      have hlen : (c.next m).oxmLen.toNat = c.oxmLen.toNat + (4 + (m (c.oxm + 3)).toNat) := by
        rw [oxmLen_next]
        exact Nat.mod_eq_of_lt hused
      rw [oxmVisits_cons hc, ← hlen]
      refine List.forall_mem_cons.mpr ⟨⟨hreach, ?_⟩, ?_⟩
      · simpa [OxmCursor.visit, Nat.add_assoc] using hused
      · exact ih _ (by omega) (by omega) hlo' hnext rfl
    · rw [oxmVisits_nil hc]
      exact List.forall_mem_nil _

/-- The test of `of13Parse`. -/
def below (totalLen oxmLen : UINT2) : Bool := oxmLen < totalLen

theorem oxmPass_eq : oxmPass m totalLen = parsePass (below totalLen) m := by
  funext c
  simp only [oxmPass, parsePass, below, decide_eq_true_eq]

theorem oxmAccesses_eq : oxmAccesses m totalLen c = parseAccesses (below totalLen) m c := by
  simp only [oxmAccesses, parseAccesses, oxmReads, below, decide_eq_true_eq]

theorem oxmWalk_eq : oxmWalk m totalLen.toNat addr used = oxmVisits (below totalLen) m addr used := by
  induction hn : totalLen.toNat - used using Nat.strong_induction_on generalizing addr used with
  | _ n ih =>
    have htest : used < totalLen.toNat ↔ used < 2 ^ 16 ∧ below totalLen (UInt16.ofNat used) := by
      have hlt := totalLen.toNat_lt
      rw [below, decide_eq_true_eq, UInt16.lt_iff_toNat_lt, UInt16.toNat_ofNat']
      omega
    rw [oxmWalk, oxmVisits]
    by_cases h : used < totalLen.toNat
    · rw [if_pos h, if_pos (htest.mp h), ih _ (by omega) rfl]
    · rw [if_neg h, if_neg (htest.not.mp h)]

end

namespace FlowRemoved

variable (removed : FlowRemoved)

def Terminates : Prop := ∃ fuel, (of13Parse removed fuel).isSome

/-- The loop reads inside of the message. -/
def ReadsInside : Prop :=
  ∀ vs c, Passes (oxmPass removed.m removed.matchLength) removed.start vs c →
    ∀ a ∈ oxmAccesses removed.m removed.matchLength c, a.Safe removed.addr removed.last

/-- The OXMs that begin inside of the match. -/
def oxms : List OxmVisit := oxmWalk removed.m removed.matchLength.toNat removed.oxm_fields 4

theorem terminates_iff :
    removed.Terminates ↔ ∃ vs r, Ends (oxmPass removed.m removed.matchLength) removed.start vs r := by
  simp only [Terminates, of13Parse, Option.isSome_map]
  constructor
  · rintro ⟨fuel, hf⟩
    obtain ⟨s, hs⟩ := Option.isSome_iff_exists.mp hf
    exact ⟨s.1, s.2, Ends.of_run hs⟩
  · rintro ⟨vs, r, h⟩
    obtain ⟨fuel, hf⟩ := h.exists_run
    exact ⟨fuel, by rw [hf]; rfl⟩

/-- The loop ends and keeps to the message if and only if every OXM does that begins inside of the match. -/
theorem parse_inside_iff (removed : FlowRemoved) :
    removed.Terminates ∧ removed.ReadsInside ↔ ∀ v ∈ removed.oxms, v.Inside removed.last := by
  have hlo : removed.addr ≤ removed.start.oxm := Nat.le_add_right _ _
  simp only [terminates_iff, ReadsInside, oxms, oxmPass_eq, oxmAccesses_eq, oxmWalk_eq]
  constructor
  · rintro ⟨-, h⟩
    have haddr : removed.start.oxm = removed.addr + 48 + removed.start.oxmLen.toNat := rfl
    refine inside_of_safe ?_ haddr (Nat.add_lt_add_left removed.length.toNat_lt _) hlo h
    intro a b hba ha
    exact decide_eq_true (UInt16.lt_iff_toNat_lt.mpr (hba.trans_lt (UInt16.lt_iff_toNat_lt.mp (of_decide_eq_true ha))))
  · intro h
    exact keeps_of_inside h hlo

/-- A message without a byte after its header, and a match with an `OFPXMT_OFB_IN_PORT`. -/
def inPortBehind : List UINT1 := List.replicate 2 0 ++ [0, 56] ++ List.replicate 46 0 ++ [0, 12, 0x80, 0, 0, 4]

theorem inPortBehind_not_inside : ¬ ∀ removed : FlowRemoved, 56 ≤ removed.length.toNat →
    removed.Terminates ∧ removed.ReadsInside := by
  intro h
  have hsafe := (h ⟨fun addr => inPortBehind.getD addr 0, 0⟩ (by decide)).2
  have hreads := hsafe [] _ .refl
  rw [oxmAccesses_eq, parseAccesses, if_pos (by decide)] at hreads
  have hreach := (oxmReads_safe_iff (Nat.zero_le _)).mp hreads
  exact absurd hreach (by decide)

end FlowRemoved

end DCFabric
