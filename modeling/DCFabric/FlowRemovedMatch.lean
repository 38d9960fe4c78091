import DCFabric.FlowEntries
import DCFabric.FlowExpiry

namespace DCFabric

open CFlowCache (emptyOxm)
open ListUpdates LoopRuns TlvStreams TransitionRuns

def FABRIC_PRIORITY_NAT_FLOW : UINT2 := 17

def FABRIC_PRIORITY_LOADBALANCE_FLOW : UINT2 := 18

def ntohs (v : UINT2) : UINT2 := Word.ofNat (leNat (leBytes 2 v.toNat).reverse)

/-- The test of `of13_parse_match`. -/
def aligned_below (oxm_tot_len oxm_len : UINT2) : Bool := ALIGN_8 oxm_len.toNat < oxm_tot_len.toNat

/-- The test of `of13_parse_match_nat`. -/
def below_aligned (oxm_tot_len oxm_len : UINT2) : Bool := oxm_len.toNat < ALIGN_8 oxm_tot_len.toNat

/-- `of13_oxm_convertter` has the cases of `of13OxmConvertter`. -/
def of13_parse_match (m : Memory) (of_match : ℕ) (fuel : ℕ) : Option gn_match_t :=
  let oxm_tot_len : UINT2 := ntoh m (of_match + 2)
  (run (parsePass (aligned_below oxm_tot_len) m) fuel ⟨of_match + 4, 4, emptyOxm⟩).map fun (_, oxm) => ⟨0, oxm⟩

def of13_parse_match_nat (m : Memory) (of_match : ℕ) (fuel : ℕ) : Option gn_match_t :=
  let oxm_tot_len : UINT2 := ntoh m (of_match + 2)
  (run (parsePass (below_aligned oxm_tot_len) m) fuel ⟨of_match + 4, 4, emptyOxm⟩).map fun (_, oxm) => ⟨0, oxm⟩

inductive RemoveConnect where
  | remove_openstack_lbaas_connect_by_ext_ip_portno (ext_ip src_port_no : UINT4)
  | destroy_nat_connect_by_mac_and_port (host_ip : UINT4) (internal_mac : BitVec (8 * OxmField.size .eth_src))
      (internal_port_no : UINT2) (proto_type : UINT1)

def remove_lbaas (oxm : gn_oxm_t) : List RemoveConnect :=
  let ip_proto : UINT1 := Word.ofNat (oxm.field .ip_proto).toNat
  let flow_port : UINT2 := if IPPROTO_TCP = ip_proto then Word.ofNat (oxm.field .tcp_src).toNat else 0
  if flow_port ≠ 0 then
    [.remove_openstack_lbaas_connect_by_ext_ip_portno (htonl (Word.ofNat (oxm.field .ipv4_src).toNat))
      (Word.ofNat flow_port.toNat)]
  else []

def remove_nat (oxm : gn_oxm_t) : List RemoveConnect :=
  let ip_proto : UINT1 := Word.ofNat (oxm.field .ip_proto).toNat
  let flow_port : UINT2 :=
    if IPPROTO_TCP = ip_proto then Word.ofNat (oxm.field .tcp_src).toNat
    else if IPPROTO_UDP = ip_proto then Word.ofNat (oxm.field .udp_src).toNat
    else 0
  if flow_port ≠ 0 then
    [.destroy_nat_connect_by_mac_and_port (htonl (Word.ofNat (oxm.field .ipv4_dst).toNat)) (oxm.field .eth_src)
      (ntohs flow_port) ip_proto]
  else []

namespace FlowRemoved

def of_match (removed : FlowRemoved) : ℕ := removed.addr + 48

/-- The first test of the priority. -/
def lbaas_connects (removed : FlowRemoved) (openstack_on : Bool) (fuel : ℕ) : Option (List RemoveConnect) :=
  if removed.priority = FABRIC_PRIORITY_LOADBALANCE_FLOW then
    (of13_parse_match_nat removed.m removed.of_match fuel).map fun gn_match =>
      if openstack_on then remove_lbaas gn_match.oxm_fields else []
  else some []

/-- The connects that are removed and the flow that `flow_entry_timeout` is called with: it is zeroed after its priority
and its table have been set. -/
def of13_msg_flow_removed (removed : FlowRemoved) (openstack_on : Bool) (fuel : ℕ) :
    Option (List RemoveConnect × gn_flow_t) :=
  (removed.lbaas_connects openstack_on fuel).bind fun lbaas =>
    if removed.priority ≠ FABRIC_PRIORITY_NAT_FLOW then
      (of13_parse_match removed.m removed.of_match fuel).map fun gn_match =>
        (lbaas, { gn_flow_t.zero with gn_match := gn_match })
    else
      (of13_parse_match_nat removed.m removed.of_match fuel).map fun gn_match =>
        (lbaas ++ if openstack_on then remove_nat gn_match.oxm_fields else [],
          { gn_flow_t.zero with gn_match := gn_match })

/-- The switch reports that the flow was removed, with the OXMs that were written for it. -/
structure ReportsRemoval (removed : FlowRemoved) (flow : gn_flow_t) : Prop where
  priority : Stores removed.m (removed.addr + 16) (hton flow.priority)
  table_id : removed.table_id = flow.table_id
  matchLength : Stores removed.m (removed.addr + 50) (hton (of13_add_match flow.gn_match.oxm_fields))
  oxms : Stores removed.m removed.oxm_fields
    ((of13_add_oxm_field flow.gn_match.oxm_fields).buf.flatMap Oxm.bytes)

/-- The flow is recovered from the report, and of the entries of a switch its own is removed and no other. -/
def Recovers (removed : FlowRemoved) (flow : gn_flow_t) : Prop :=
  ∀ openstack_on, ∃ fuel connects p, removed.of13_msg_flow_removed openstack_on fuel = some (connects, p) ∧
    p.gn_match.oxm_fields = flow.sent.gn_match.oxm_fields ∧ p.table_id = flow.table_id ∧ p.priority = flow.priority ∧
    ∀ g_max_flowentry mem s, Reaches (FlowEntryRun.step g_max_flowentry) (FlowEntryRun.start mem) s →
      ∀ l₁ e l₂, s.cache.entries g_max_flowentry = l₁ ++ e :: l₂ → e.identity.SameFlow flow.sent.identity →
        (s.cache.flow_entry_timeout g_max_flowentry p).entries g_max_flowentry = l₁ ++ l₂

end FlowRemoved

namespace gn_flow_t

/-- The match has fields that are both written and converted, without masks or prefixes. -/
def HandledMatch (flow : gn_flow_t) : Prop :=
  ∀ b : UINT8, b.toNat < 64 → IS_MASK_SET flow.gn_match.oxm_fields.mask b →
    ∃ f : OxmField, f.bit = b ∧ f ∈ OxmField.emitted ∧ f ∈ OxmField.converted

/-- The bytes of a match before its field `k`. -/
def bytesBefore (flow : gn_flow_t) (k : ℕ) : ℕ := 4 + ((flow.present.take k).map fun f => 4 + f.size).sum

/-- The length of the match that is sent. -/
def matchBytes (flow : gn_flow_t) : ℕ := 4 + (flow.present.map fun f => 4 + f.counted.toNat).sum

/-- A flow of the first table and the lowest priority, with no value for a field that is absent, and whose match begins
its last field before the length of the match, with the bytes before the field rounded up. -/
structure Recoverable (flow : gn_flow_t) : Prop where
  table_id : flow.table_id = 0
  priority : flow.priority = 0
  absent : ∀ f, ¬ flow.gn_match.oxm_fields.isSet f → flow.gn_match.oxm_fields.field f = 0
  reached : ∀ k < flow.present.length, ALIGN_8 (flow.bytesBefore k) < flow.matchBytes

end gn_flow_t

section

variable {oxm : gn_oxm_t} {fs : List OxmField} {os : List Oxm} {flow p : gn_flow_t} {removed : FlowRemoved}
  {openstack_on : Bool} {n : ℕ}

namespace gn_flow_t

/-- No field of the match has a mask or a prefix. -/
theorem HandledMatch.masks (h : flow.HandledMatch) (f : OxmField) : flow.sent.gn_match.oxm_fields.masks f = false := by
  have hunset (g : OxmField) (hg : g ∉ OxmField.emitted) : flow.sent.gn_match.oxm_fields.isSet g = false := by
    rw [isSet_sent, ← Bool.not_eq_true]
    intro hset
    obtain ⟨g', hbit, hmem, -⟩ := h g.bit (OxmField.bit_lt g) hset
    exact hg (OxmField.bit_inj.mp hbit ▸ hmem)
  cases f with
  | metadata | ipv4_src | ipv4_dst | ipv6_src | ipv6_dst => exact hunset _ (by decide)
  | _ => rfl

theorem octets_eq (h : List.Forall₂ (Oxm.Encodes oxm) fs os) (hm : ∀ f, oxm.masks f = false) :
    octets os = (fs.map fun f => 4 + f.size).sum := by
  induction h with
  | nil => rfl
  | @cons f o fs os ho h ih =>
    have hlength := ho.length
    rw [hm f, if_neg Bool.false_ne_true] at hlength
    rw [octets_cons, hlength, ih]
    exact List.sum_cons.symm

theorem encodes_present (flow : gn_flow_t) : List.Forall₂ (Oxm.Encodes flow.sent.gn_match.oxm_fields) flow.present
    (of13_add_oxm_field flow.gn_match.oxm_fields).buf := (writes_oxm_fields flow.gn_match.oxm_fields).encodes

theorem bytesBefore_eq (h : flow.HandledMatch) (k : ℕ) :
    flow.bytesBefore k = 4 + octets ((of13_add_oxm_field flow.gn_match.oxm_fields).buf.take k) := by
  rw [bytesBefore, octets_eq (List.forall₂_take k flow.encodes_present) h.masks]

theorem matchBytes_eq (h : flow.HandledMatch) : flow.matchBytes = (of13_add_match flow.gn_match.oxm_fields).toNat := by
  have hlen : (of13_add_oxm_field flow.gn_match.oxm_fields).oxm_len.toNat +
      (flow.present.map OxmField.shortage).sum = 0 + _ := (writes_oxm_fields flow.gn_match.oxm_fields).len
  have hsplit : (flow.present.map fun f => 4 + f.size).sum =
      (flow.present.map fun f => 4 + f.counted.toNat).sum + (flow.present.map OxmField.shortage).sum := by
    rw [← List.sum_map_add]
    apply congrArg
    apply List.map_congr_left
    intro f _
    cases f <;> rfl
  rw [octets_eq flow.encodes_present h.masks, hsplit, Nat.zero_add] at hlen
  rw [matchBytes, toNat_of13_add_match, Nat.add_right_cancel hlen]

end gn_flow_t

/-- The flow that times out has no table and no priority. -/
theorem FlowRemoved.zeroed {fuel : ℕ} {connects : List RemoveConnect}
    (h : removed.of13_msg_flow_removed openstack_on fuel = some (connects, p)) : p.table_id = 0 ∧ p.priority = 0 := by
  obtain ⟨lbaas, -, h⟩ := Option.bind_eq_some_iff.mp h
  split at h
  · obtain ⟨gn_match, -, heq⟩ := Option.map_eq_some_iff.mp h
    obtain rfl := (Prod.mk.inj heq).2
    exact ⟨rfl, rfl⟩
  · obtain ⟨gn_match, -, heq⟩ := Option.map_eq_some_iff.mp h
    obtain rfl := (Prod.mk.inj heq).2
    exact ⟨rfl, rfl⟩

theorem FlowRemoved.lowest_eq {fuel : ℕ} (h : removed.priority = 0) :
    removed.of13_msg_flow_removed openstack_on fuel = (of13_parse_match removed.m removed.of_match fuel).map
      fun gn_match => ([], { gn_flow_t.zero with gn_match := gn_match }) := by
  have hlbaas : (0 : UINT2) ≠ FABRIC_PRIORITY_LOADBALANCE_FLOW := by decide
  have hnat : (0 : UINT2) ≠ FABRIC_PRIORITY_NAT_FLOW := by decide
  rw [of13_msg_flow_removed, lbaas_connects, h, if_neg hlbaas, Option.bind_some, if_pos hnat]

/-- The fields that are read back from a report. -/
theorem FlowRemoved.ReportsRemoval.ends (h : removed.ReportsRemoval flow) (hm : flow.HandledMatch) :
    ∃ vs n, Ends (parsePass (aligned_below removed.matchLength) removed.m) ⟨removed.of_match + 4, 4, emptyOxm⟩ vs
        ((flow.present.take n).foldl flow.sent.gn_match.oxm_fields.restore emptyOxm) ∧
      (n < flow.present.length → ¬ ALIGN_8 (flow.bytesBefore n) < flow.matchBytes) ∧
      ∀ k < n, ALIGN_8 (flow.bytesBefore k) < flow.matchBytes := by
  have htotal : removed.matchLength = of13_add_match flow.gn_match.oxm_fields := ntoh_of_stores h.matchLength
  have hle := octets_buf_le flow.gn_match.oxm_fields
  have hcounted := oxm_len_le flow.gn_match.oxm_fields
  have htest (k : ℕ) : aligned_below removed.matchLength (UInt16.ofNat (4 + octets
      ((of13_add_oxm_field flow.gn_match.oxm_fields).buf.take k))) = true ↔
      ALIGN_8 (flow.bytesBefore k) < flow.matchBytes := by
    have hlt : flow.bytesBefore k < 2 ^ 16 := by
      have hshort : octets ((of13_add_oxm_field flow.gn_match.oxm_fields).buf.take k) ≤
          octets (of13_add_oxm_field flow.gn_match.oxm_fields).buf :=
        ((List.take_sublist _ _).map _).sum_le_sum fun _ _ => Nat.zero_le _
      rw [flow.bytesBefore_eq hm]
      omega
    rw [aligned_below, decide_eq_true_eq, ← flow.bytesBefore_eq hm, UInt16.toNat_ofNat', Nat.mod_eq_of_lt hlt, htotal,
      flow.matchBytes_eq hm]
  have hstop : ¬ aligned_below removed.matchLength (UInt16.ofNat (4 + octets
      (of13_add_oxm_field flow.gn_match.oxm_fields).buf)) = true := by
    have hall := htest (of13_add_oxm_field flow.gn_match.oxm_fields).buf.length
    rw [flow.bytesBefore_eq hm, flow.matchBytes_eq hm, toNat_of13_add_match, List.take_length, ALIGN_8] at hall
    rw [hall]
    omega
  obtain ⟨vs, n, hends, hnot, hn⟩ := ends_parsed (c := ⟨removed.of_match + 4, 4, emptyOxm⟩) flow.encodes_present h.oxms
    (show 4 + _ < 2 ^ 16 by omega) hstop
  exact ⟨vs, n, hends, fun hlt => (htest n).not.mp (hnot hlt), fun k hk => (htest k).mp (hn k hk)⟩

/-- The match is read back whole where no field that is absent has a value and every field is reached. -/
theorem foldl_restore_iff (hm : flow.HandledMatch)
    (hnot : n < flow.present.length → ¬ ALIGN_8 (flow.bytesBefore n) < flow.matchBytes)
    (hn : ∀ k < n, ALIGN_8 (flow.bytesBefore k) < flow.matchBytes) :
    (flow.present.take n).foldl flow.sent.gn_match.oxm_fields.restore emptyOxm = flow.sent.gn_match.oxm_fields ↔
      (∀ f, ¬ flow.gn_match.oxm_fields.isSet f → flow.gn_match.oxm_fields.field f = 0) ∧
        ∀ k < flow.present.length, ALIGN_8 (flow.bytesBefore k) < flow.matchBytes := by
  constructor
  · intro hfold
    constructor
    · intro f hf
      have hzero : (emptyOxm.field f : BitVec (8 * f.size)) = 0 := rfl
      rw [← hzero, ← presentVlan_field hf]
      change flow.sent.gn_match.oxm_fields.field f = _
      rw [← hfold]
      apply foldl_restore_field_of_not
      rintro (hmem | ⟨hmeta, rfl, hset⟩)
      · exact hf (gn_flow_t.mem_present.mp (List.mem_of_mem_take hmem)).2
      · exact hf (gn_flow_t.isSet_sent ▸ hset)
    · have hall : flow.present.length ≤ n := by
        by_contra hlt
        rw [Nat.not_le] at hlt
        obtain ⟨hemitted, hset⟩ := gn_flow_t.mem_present.mp (List.getElem_mem hlt)
        obtain ⟨g, hg, hbit⟩ := restores_of_isSet hfold (OxmField.bit_lt _) hset
        obtain rfl := OxmField.bit_inj.mp hbit
        rcases hg with hg | ⟨-, hmask, -⟩
        · have hnodup : flow.present.Nodup := List.Nodup.filter _ (by decide)
          obtain ⟨k, hk, heq⟩ := List.mem_take_iff_getElem.mp hg
          have hkn := (hnodup.getElem_inj_iff).mp heq
          omega
        · exact emitted_ne hemitted hmask
      exact fun k hk => hn k (hk.trans_le hall)
  · rintro ⟨habsent, hreached⟩
    have hall : flow.present.length ≤ n := by
      by_contra hlt
      rw [Nat.not_le] at hlt
      exact hnot hlt (hreached n hlt)
    rw [List.take_of_length_le hall]
    apply foldl_restore_present _ habsent
    intro b hb hset
    obtain ⟨f, hbit, hf, -⟩ := hm b hb hset
    exact ⟨f, hbit, .inl hf⟩

/-- A flow that times out removes the entry with its match and no other. -/
theorem timeout_entries {g_max_flowentry : ℕ} {mem : ℕ → LinkedCell gn_flow_t} {s : FlowEntryRun}
    {l₁ l₂ : List gn_flow_t}
    {e : gn_flow_t} (h : Reaches (FlowEntryRun.step g_max_flowentry) (FlowEntryRun.start mem) s)
    (hl : s.cache.entries g_max_flowentry = l₁ ++ e :: l₂)
    (he : e.gn_match.oxm_fields = p.gn_match.oxm_fields) :
    (s.cache.flow_entry_timeout g_max_flowentry p).entries g_max_flowentry = l₁ ++ l₂ := by
  have hi : s.Inv g_max_flowentry := h.invariant (fun t c u ht _ he => ht.step he) .start
  rw [(FlowList.timeout_spec p hi.wellFormed).2, hl]
  apply eraseP_first
  · simpa [match_compare_strict] using he
  · intro g hg hsame
    have hnodup := hi.matches_nodup
    rw [FlowEntryRun.entries, hl, List.map_append, List.map_append, List.nodup_append] at hnodup
    refine hnodup.2.2 g.gn_match.oxm_fields ?_ e.gn_match.oxm_fields ?_ ?_
    · exact List.mem_map_of_mem (List.mem_map_of_mem hg)
    · exact List.mem_cons_self
    · exact (of_decide_eq_true hsame).trans he.symm

theorem recovers_of_recoverable (hm : flow.HandledMatch) (h : flow.Recoverable) (hr : removed.ReportsRemoval flow) :
    removed.Recovers flow := by
  intro openstack_on
  have hpriority : removed.priority = 0 := (ntoh_of_stores hr.priority).trans h.priority
  obtain ⟨vs, n, hends, hnot, hn⟩ := hr.ends hm
  have hfold := (foldl_restore_iff hm hnot hn).mpr ⟨h.absent, h.reached⟩
  rw [hfold] at hends
  obtain ⟨fuel, hrun⟩ := hends.exists_run
  have hparse : of13_parse_match removed.m removed.of_match fuel = some ⟨0, flow.sent.gn_match.oxm_fields⟩ :=
    congrArg (Option.map _) hrun
  refine ⟨fuel, [], { gn_flow_t.zero with gn_match := ⟨0, flow.sent.gn_match.oxm_fields⟩ }, ?_, rfl, h.table_id.symm,
    h.priority.symm, ?_⟩
  · rw [FlowRemoved.lowest_eq hpriority, hparse]
    rfl
  · intro g_max_flowentry mem s hs l₁ e l₂ hl hsame
    exact timeout_entries hs hl hsame.2.2

theorem recoverable_of_recovers (hm : flow.HandledMatch)
    (h : ∀ removed : FlowRemoved, removed.ReportsRemoval flow → removed.Recovers flow) : flow.Recoverable := by
  have hs : Stores (memoryOf (removedBytes flow ((of13_add_oxm_field flow.gn_match.oxm_fields).buf.flatMap Oxm.bytes)))
      0 _ := stores_memoryOf
  obtain ⟨hreports, hoxms⟩ := reports_removedBytes ( List.take_prefix _ _) hs
  have hr : FlowRemoved.ReportsRemoval _ flow := ⟨hreports.priority, hreports.table_id, hreports.matchLength, hoxms⟩
  obtain ⟨fuel, connects, p, hcall, hmatch, htable, hpriority, -⟩ := h _ hr false
  obtain ⟨htable', hpriority'⟩ := FlowRemoved.zeroed hcall
  have hlowest : flow.priority = 0 := hpriority.symm.trans hpriority'
  rw [FlowRemoved.lowest_eq ((ntoh_of_stores hr.priority).trans hlowest)] at hcall
  obtain ⟨gn_match, hparse, heq⟩ := Option.map_eq_some_iff.mp hcall
  obtain rfl := (Prod.mk.inj heq).2
  obtain ⟨⟨vs', oxm⟩, hrun, rfl⟩ := Option.map_eq_some_iff.mp hparse
  obtain ⟨vs, n, hends, hnot, hn⟩ := hr.ends hm
  obtain ⟨-, hfold⟩ := hends.unique (Ends.of_run hrun)
  obtain ⟨habsent, hreached⟩ := (foldl_restore_iff hm hnot hn).mp (hfold.trans hmatch)
  exact ⟨htable.symm.trans htable', hlowest, habsent, hreached⟩

/-- A flow for the packets that come in at port 1. -/
def inPortFlow : gn_flow_t := FlowEntryRun.portFlow 0 1

theorem inPortFlow_handled : inPortFlow.HandledMatch := by
  intro b hb hset
  have hmask : inPortFlow.gn_match.oxm_fields.mask = SET_MASK 0 OxmField.in_port.bit := by decide
  rw [hmask, isMaskSet_setMask (OxmField.bit_lt _) hb, Bool.or_eq_true, decide_eq_true_eq] at hset
  rcases hset with hset | hset
  · simp [IS_MASK_SET] at hset
  · exact ⟨.in_port, hset, by decide, by decide⟩

end

end DCFabric
