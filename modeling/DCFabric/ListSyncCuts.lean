import DCFabric.ListSync
import DCFabric.TlvCuts

namespace DCFabric

open TlvStreams

/-- For the switches in the order of `CSwitchFlowsMap`. -/
def syncFlowEntryList0 (dpids : List UINT8) (w : ControllerTables) : List Tlv :=
  dpids.flatMap fun dpid => CFlowCache.tableIds.flatMap fun tableId =>
    (w.flowCache.flows dpid tableId).flatMap fun flow => syncFlowEntry flow.m_sw.dpid flow

theorem fields_oxm (f : OxmField) : recoverAddFlowEntry.fields f.syncType =
    some (GET_DATA_BYTES fun value s => (s.1.setOxmField f value, s.2)) := by
  cases f <;> rfl

theorem holdsWord_oxmFields (oxm : gn_oxm_t) :
    ∀ t ∈ syncOxmFields oxm, Decoder.HoldsWord recoverAddFlowEntry.fields t := by
  simp only [syncOxmFields, List.forall_mem_append, List.forall_mem_map, List.forall_mem_singleton]
  exact ⟨fun f _ => .word _ (fields_oxm f), .word _ rfl⟩

theorem holdsWord_action (action : CFlowAction) :
    ∀ t ∈ syncAction action, Decoder.HoldsWord recoverAddFlowEntry.fields t := by
  cases action with
  | set_field oxm_fields => exact List.forall_mem_cons.mpr ⟨.word _ rfl, holdsWord_oxmFields oxm_fields⟩
  | copy_ttl_out | copy_ttl_in | dec_mpls_ttl | dec_nw_ttl | other => exact List.forall_mem_nil _
  | _ => exact List.forall_mem_singleton.mpr (.word _ rfl)

/-- The words of an experimenter instruction have the type of the longer ones of `OFPIT_WRITE_METADATA`. -/
theorem holdsWord_instruction {instruction : CFlowInstruction} (h : instruction.type ≠ OFPIT_EXPERIMENTER) :
    ∀ t ∈ syncInstruction instruction, Decoder.HoldsWord recoverAddFlowEntry.fields t := by
  have hactions (actions : List CFlowAction) :
      ∀ t ∈ actions.flatMap syncAction, Decoder.HoldsWord recoverAddFlowEntry.fields t := by
    intro t ht
    obtain ⟨action, -, ht⟩ := List.mem_flatMap.mp ht
    exact holdsWord_action action t ht
  cases instruction with
  | write_actions actions => exact List.forall_mem_cons.mpr ⟨.word _ rfl, hactions _⟩
  | apply_actions actions => exact List.forall_mem_cons.mpr ⟨.word _ rfl, hactions _⟩
  | experimenter => exact absurd rfl h
  | other => exact List.forall_mem_nil _
  | _ => exact List.forall_mem_singleton.mpr (.word _ rfl)

/-- A TLV of a flow entry that holds a word. -/
structure InEntry (t : Tlv) : Prop where
  type : t.type ∈ recoverAddFlowEntry.types
  written : t.written = t
  ne_nil : t.value ≠ []
  length_le : t.value.length ≤ 16

theorem inEntry_of_holdsWord {t : Tlv} (h : Decoder.HoldsWord recoverAddFlowEntry.fields t) : InEntry t := by
  cases h with
  | word a h =>
    have hsizes : ∀ p ∈ recoverAddFlowEntry.table, p.2.get.size 0 ≤ 16 := by decide
    obtain ⟨l₁, l₂, htable, -⟩ := List.lookup_eq_some_iff.mp h
    refine ⟨?_, Tlv.written_word, Tlv.value_word_ne_nil, ?_⟩
    · rw [Decoder.types, htable]
      simp [Tlv.word]
    · rw [Tlv.length_word]
      exact hsizes _ (htable ▸ List.mem_append_right _ List.mem_cons_self)

theorem inEntry_instructions (flow : CFlow) : ∀ t ∈ SYNC_DATA_INTEGER FLOW_ENTRY_INSTRUCTIONS (1 : UINT1) ::
    flow.m_instructions.toList.flatMap syncInstruction, InEntry t := by
  refine List.forall_mem_cons.mpr ⟨inEntry_of_holdsWord (.word _ rfl), ?_⟩
  intro t ht
  obtain ⟨instruction, -, ht⟩ := List.mem_flatMap.mp ht
  by_cases htype : instruction.type = OFPIT_EXPERIMENTER
  · cases instruction with
    | experimenter len experimenter =>
      rw [List.mem_singleton.mp ht]
      exact ⟨show FLOW_ENTRY_INSTRUCION_WRITEMETADATA ∈ recoverAddFlowEntry.types by decide, Tlv.written_word,
        Tlv.value_word_ne_nil, by rw [Tlv.length_word]; decide⟩
    | other type unknown =>
      rw [syncInstruction] at ht
      cases ht
    | _ => exact absurd htype (by simp only [Instruction.type]; decide)
  · exact inEntry_of_holdsWord (holdsWord_instruction htype t ht)

/-- The TLVs of an entry after the dpid and the uuid it begins with. -/
theorem inEntry_following {flow : CFlow} {t : Tlv} (dpid : UINT8) (h : t ∈ (syncFlowEntry dpid flow).tail.tail) :
    InEntry t := by
  revert t
  simp only [syncFlowEntry, List.tail_cons, List.cons_append, List.nil_append, List.forall_mem_cons]
  refine ⟨inEntry_of_holdsWord (.word _ rfl), inEntry_of_holdsWord (.word _ rfl), inEntry_of_holdsWord (.word _ rfl),
    inEntry_of_holdsWord (.word _ rfl), inEntry_of_holdsWord (.word _ rfl), inEntry_of_holdsWord (.word _ rfl), ?_⟩
  intro t ht
  rcases List.mem_append.mp ht with ht | ht
  · exact inEntry_of_holdsWord (holdsWord_oxmFields _ t ht)
  · exact inEntry_instructions flow t ht

theorem types_flowEntry (dpid : UINT8) (flow : CFlow) :
    ∀ t ∈ (syncFlowEntry dpid flow).tail, t.type ∈ recoverAddFlowEntry.types := by
  intro t ht
  rcases List.mem_cons.mp ht with rfl | ht
  · show FLOW_ENTRY_UUID ∈ recoverAddFlowEntry.types
    decide
  · exact (inEntry_following dpid ht).type

/-- The operations that send a table. -/
inductive ListOper where
  | hostList
  | natIcmpList
  | natHostList
  | topoLinkList
  | switchTagList
  | flowEntryList
deriving DecidableEq

namespace ListOper

def oper : ListOper → SyncOper
  | hostList => .hostList
  | natIcmpList => .natIcmpList
  | natHostList => .natHostList
  | topoLinkList => .topoLinkList
  | switchTagList => .switchTagList
  | flowEntryList => .flowEntryList

def tlvs (dpids : List UINT8) (w : ControllerTables) : ListOper → List Tlv
  | hostList => syncHostList0 w
  | natIcmpList => syncNatIcmpList0 w
  | natHostList => syncNatHostList0 w
  | topoLinkList => syncTopoLinkList0 w
  | switchTagList => syncSwitchTagList0 w
  | flowEntryList => syncFlowEntryList0 dpids w

/-- The TLVs of each record of the table. -/
def records (dpids : List UINT8) (w : ControllerTables) : ListOper → List (List Tlv)
  | hostList => (w.hostMgr.m_list.filter (·.ip ≠ 0)).map syncHost
  | natIcmpList => w.natIcmpMap.toList.map syncNatIcmp
  | natHostList => w.snatConns.toList.map fun snatConn => syncNatHost snatConn.hostsProto snatConn
  | topoLinkList => (w.neighbors.entries.filter fun e => w.sendsLink e.1 e.2.2).map fun e => syncTopoLink0 e.2.2
  | switchTagList => (w.switches.filter (·.dpid ≠ 0)).map fun sw => syncSwitchTag0 sw.dpid sw.tag
  | flowEntryList => (dpids.flatMap fun dpid => CFlowCache.tableIds.flatMap (w.flowCache.flows dpid)).map
      fun flow => syncFlowEntry flow.m_sw.dpid flow

variable {l : ListOper} {dpids : List UINT8} {master : ControllerTables}

theorem tlvs_eq : l.tlvs dpids master = (l.records dpids master).flatten := by
  cases l with
  | topoLinkList => simp [tlvs, records, syncTopoLinkList0, List.flatMap_def, Function.comp_def]
  | flowEntryList => simp [tlvs, records, syncFlowEntryList0, List.flatMap_def, Function.comp_def, List.flatten_flatten]
  | _ => rfl

/-- The message holds the first `n` records of the table, and the recover function comes to these alone. -/
structure SendsFirst (l : ListOper) (dpids : List UINT8) (master : ControllerTables) (n : ℕ) : Prop where
  sent : (fieldMem (l.tlvs dpids master)).1 = image ((l.records dpids master).take n).flatten
  recovered : ∀ (L : Type) (d : Recover L) (msg : List UINT1) (q : Request), l.oper.recovery = .loop d →
    sendReq l.oper.req (fieldMem (l.tlvs dpids master)).1 = some msg → Stores q.m q.itf msg →
      q.Valid l.oper ∧ d.comesTo q.m q.data q.len.toNatClampNeg =
        place q.data (((l.records dpids master).take n).flatten.map Tlv.written)

theorem value_written_word_ne_nil {α : Type} [Word α] {type : UINT2} {a : α} :
    (Tlv.word type a).written.value ≠ [] := by
  rw [Tlv.written_word]
  exact Tlv.value_word_ne_nil

theorem reads_host (host : CHost) : recoverHostList.Reads (syncHost host) where
  first := ⟨_, _, rfl, rfl⟩
  known := by
    simp only [syncHost, List.cons_append, List.forall_mem_cons, List.forall_mem_append, List.forall_mem_map]
    have hip : ∀ ip ∈ host.getIpList, (SYNC_DATA_INTEGER HOST_IP ip).type ∈ recoverHostList.types := by
      intro ip _
      show HOST_IP ∈ recoverHostList.types
      decide
    refine ⟨?_, ?_, hip, ?_⟩
    · show HOST_TYPE ∈ recoverHostList.types
      decide
    · show HOST_MAC ∈ recoverHostList.types
      decide
    · simp only [List.not_mem_nil, false_imp_iff, implies_true, and_true, Tlv.word, Tlv.text]
      decide
  last := by
    intro t ht
    rw [syncHost, ← List.cons_append, List.getLast?_append] at ht
    obtain rfl := Option.some.inj ht
    exact value_written_word_ne_nil

section

variable {L : Type} {d : Recover L} {record : List Tlv}

theorem reads_words (types : List UINT2) (htypes : record.map Tlv.type = d.firstType :: types)
    (hknown : d.firstType :: types ⊆ d.types) (hvalues : ∀ t ∈ record, t.written.value ≠ []) :
    d.Reads record where
  first := by
    cases record with
    | nil => cases htypes
    | cons t ts => exact ⟨t, ts, rfl, (List.cons.inj htypes).1⟩
  known t ht := hknown (htypes ▸ List.mem_map_of_mem ht)
  last t ht := hvalues t (List.mem_of_getLast? ht)

end

theorem reads_natIcmp (entry : CNatIcmpEntry) : recoverNatIcmpList.Reads (syncNatIcmp entry) := by
  apply reads_words [NAT_ICMP_HOST_IP, NAT_ICMP_MAC, NAT_ICMP_SW_DPID, NAT_ICMP_INPORT] rfl
  · decide
  · simp [syncNatIcmp, value_written_word_ne_nil]

theorem reads_natHost (proto : UINT1) (snatConn : CSNatConn) :
    recoverNatHostList.Reads (syncNatHost proto snatConn) := by
  apply reads_words [NAT_HOST_EXTERNAL_IP, NAT_HOST_SNAT_IP, NAT_HOST_SNAT_PORT, NAT_HOST_INTERNAL_IP,
    NAT_HOST_INTERNAL_PORT, NAT_HOST_INTERNAL_MAC, NAT_HOST_GATEWAY_DPID, NAT_HOST_SWITCH_DPID] rfl
  · decide
  · simp [syncNatHost, value_written_word_ne_nil]

theorem reads_topoLink (neigh : Neighbor) : recoverTopoLinkList.Reads (syncTopoLink0 neigh) := by
  apply reads_words [TOPO_LINK_SRC_DPID, TOPO_LINK_SRC_PORT, TOPO_LINK_DST_DPID, TOPO_LINK_DST_PORT,
    TOPO_LINK_WEIGHT] rfl
  · decide
  · simp [syncTopoLink0, value_written_word_ne_nil]

theorem reads_switchTag (dpid : UINT8) (tag : UINT4) : recoverSwitchTagList.Reads (syncSwitchTag0 dpid tag) := by
  apply reads_words [SW_TAG_TAG] rfl
  · decide
  · simp [syncSwitchTag0, value_written_word_ne_nil]

theorem reads_flowEntry (dpid : UINT8) (flow : CFlow) : recoverFlowEntryList.Reads (syncFlowEntry dpid flow) := by
  refine ⟨⟨_, _, rfl, rfl⟩, ?_, ?_⟩
  · intro t ht
    rcases List.mem_cons.mp ht with rfl | ht
    · show FLOW_ENTRY_SW_DPID ∈ recoverFlowEntryList.types
      decide
    · exact List.mem_cons_of_mem _ (types_flowEntry dpid flow t ht)
  · intro t ht
    rw [syncFlowEntry, ← List.cons_append, List.getLast?_append_of_ne_nil _ (List.cons_ne_nil _ _)] at ht
    have hentry := inEntry_instructions flow t (List.mem_of_getLast? ht)
    rw [hentry.written]
    exact hentry.ne_nil

theorem reads_records (L : Type) (d : Recover L) (hrec : l.oper.recovery = .loop d) :
    ∀ record ∈ l.records dpids master, d.Reads record := by
  cases l with
  | hostList =>
    cases hrec
    exact List.forall_mem_map.mpr fun host _ => reads_host host
  | natIcmpList =>
    cases hrec
    exact List.forall_mem_map.mpr fun entry _ => reads_natIcmp entry
  | natHostList =>
    cases hrec
    exact List.forall_mem_map.mpr fun snatConn _ => reads_natHost _ snatConn
  | topoLinkList =>
    cases hrec
    exact List.forall_mem_map.mpr fun e _ => reads_topoLink e.2.2
  | switchTagList =>
    cases hrec
    exact List.forall_mem_map.mpr fun sw _ => reads_switchTag sw.dpid sw.tag
  | flowEntryList =>
    cases hrec
    exact List.forall_mem_map.mpr fun flow _ => reads_flowEntry flow.m_sw.dpid flow

/-- What is sent are whole records if and only if the buffer ends between two records. -/
theorem sendsFirst_iff {n : ℕ} :
    l.SendsFirst dpids master n ↔ CutAfter ClusterHeader.FIELD_MEM_SIZE (l.records dpids master) n := by
  have hfill := fill_records_iff ClusterHeader.FIELD_MEM_SIZE (l.records dpids master) n
  rw [← hfill, ← tlvs_eq]
  constructor
  · intro h
    exact h.sent
  · intro hsent
    have hsent : (fieldMem (l.tlvs dpids master)).1 = image ((l.records dpids master).take n).flatten := hsent
    refine ⟨hsent, ?_⟩
    intro L d msg q hrec hmsg hq
    obtain ⟨hvalid, -, hlen, hdata⟩ := request_of_sendReq hmsg hq length_fieldMem_le
    rw [hsent] at hlen hdata hmsg
    have hne : (l.records dpids master).take n ≠ [] := by
      intro hnil
      rw [hnil] at hmsg
      cases hmsg
    refine ⟨hvalid, ?_⟩
    rw [hlen]
    apply Decoder.comesTo_records hne _ hdata
    intro record hrecord
    exact reads_records L d hrec record (List.mem_of_mem_take hrecord)

/-- Nothing but whole records is sent and recovered. -/
def OnlyWhole (l : ListOper) (dpids : List UINT8) (master : ControllerTables) : Prop :=
  ∃ n, l.SendsFirst dpids master n

theorem only_whole_iff (l : ListOper) (dpids : List UINT8) (master : ControllerTables) :
    l.OnlyWhole dpids master ↔ ∃ n, CutAfter ClusterHeader.FIELD_MEM_SIZE (l.records dpids master) n :=
  exists_congr fun _ => sendsFirst_iff

section

variable {A : Type} {as : List A} {f : A → List Tlv}

theorem uniform_map {s k : ℕ} (hwritten : ∀ a, ∀ t ∈ f a, t.written = t) (hsize : ∀ a, (image (f a)).length = s)
    (hfirst : ∀ a, ∃ t ts, f a = t :: ts ∧ 4 + t.value.length = k) : Uniform (as.map f) s k where
  written := List.forall_mem_map.mpr fun a _ => hwritten a
  size := List.forall_mem_map.mpr fun a _ => hsize a
  first := List.forall_mem_map.mpr fun a _ => hfirst a

end

theorem natIcmp_whole : natIcmpList.OnlyWhole dpids master := by
  have huniform : Uniform (natIcmpList.records dpids master) 44 6 := by
    apply uniform_map
    · simp [syncNatIcmp, Tlv.written_word]
    · intro entry
      simp [image, syncNatIcmp, Tlv.written_word, Tlv.length_bytes]
      rfl
    · exact fun entry => ⟨_, _, rfl, rfl⟩
  rw [only_whole_iff, huniform.cutAfter_iff]
  exact .inr (by decide)

theorem switchTag_whole : switchTagList.OnlyWhole dpids master := by
  have huniform : Uniform (switchTagList.records dpids master) 20 12 := by
    apply uniform_map
    · simp [syncSwitchTag0, Tlv.written_word]
    · intro sw
      simp [image, syncSwitchTag0, Tlv.written_word, Tlv.length_bytes]
      rfl
    · exact fun sw => ⟨_, _, rfl, rfl⟩
  rw [only_whole_iff, huniform.cutAfter_iff]
  exact .inr (by decide)

theorem natHost_whole_iff : natHostList.OnlyWhole dpids master ↔ master.snatConns.toList.length ≤ 185685 := by
  have huniform : Uniform (natHostList.records dpids master) 75 5 := by
    apply uniform_map
    · simp [syncNatHost, Tlv.written_word]
    · intro snatConn
      simp [image, syncNatHost, Tlv.written_word, Tlv.length_bytes]
      rfl
    · exact fun snatConn => ⟨_, _, rfl, rfl⟩
  have hsize : ClusterHeader.FIELD_MEM_SIZE = 13926400 := rfl
  rw [only_whole_iff, huniform.cutAfter_iff, records, List.length_map, hsize]
  omega

theorem topoLink_whole_iff : topoLinkList.OnlyWhole dpids master ↔
    (master.neighbors.entries.filter fun e => master.sendsLink e.1 e.2.2).length ≤ 232106 := by
  have huniform : Uniform (topoLinkList.records dpids master) 60 8 := by
    apply uniform_map
    · simp [syncTopoLink0, Tlv.written_word]
    · intro e
      simp [image, syncTopoLink0, Tlv.written_word, Tlv.length_bytes]
      rfl
    · exact fun e => ⟨_, _, rfl, rfl⟩
  have hsize : ClusterHeader.FIELD_MEM_SIZE = 13926400 := rfl
  rw [only_whole_iff, huniform.cutAfter_iff, records, List.length_map, hsize]
  omega

theorem manyConns_sorted {n : ℕ} (h : n < 2 ^ 32) :
    ((List.range n).map fun i => (⟨IPPROTO_TCP, 1, UInt32.ofNat (i + 1), 1024, UInt32.ofNat (i + 1), 80, 5, 6, 7⟩ :
      CSNatConn)).Pairwise (·.key < ·.key) := by
  rw [List.pairwise_map]
  refine List.pairwise_lt_range.imp_of_mem fun {i j} hi hj hlt => ?_
  have hi := List.mem_range.mp hi
  have hj := List.mem_range.mp hj
  simp only [CSNatConn.key, hostKey, UInt32.toNat_ofNat']
  omega

/-- Connections of hosts with the addresses from 1 on. -/
def manyConns (n : ℕ) (h : n < 2 ^ 32) : CSNatConns where
  toList := (List.range n).map fun i => ⟨IPPROTO_TCP, 1, UInt32.ofNat (i + 1), 1024, UInt32.ofNat (i + 1), 80, 5, 6, 7⟩
  sorted := manyConns_sorted h

theorem manyConns_cut : ¬ ∀ (l : ListOper) (dpids : List UINT8) (master : ControllerTables),
    l.OnlyWhole dpids master := by
  intro h
  have hwhole := h .natHostList [] { ControllerTables.empty with snatConns := manyConns 185686 (by decide) }
  have hle := natHost_whole_iff.mp hwhole
  simp [manyConns] at hle

end ListOper

end DCFabric
