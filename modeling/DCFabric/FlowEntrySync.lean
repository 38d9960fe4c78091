import DCFabric.FlowEntryRecords

namespace DCFabric

open ListUpdates SortedMaps TlvStreams

section

variable {α : Type} {f : α → UINT2} {l : List α} {dpid : UINT8} {flow : CFlow}

theorem length_le_of_types (types : List UINT2) (hl : l.Pairwise fun a b => (f a).toNat < (f b).toNat)
    (htypes : ∀ a ∈ l, f a ∈ types) : l.length ≤ types.length := by
  have hnodup : (l.map f).Nodup := by
    rw [List.Nodup, List.pairwise_map]
    refine hl.imp ?_
    intro a b hlt heq
    rw [heq] at hlt
    exact absurd hlt (Nat.lt_irrefl _)
  have hsubset : l.map f ⊆ types := by
    intro type htype
    obtain ⟨a, ha, rfl⟩ := List.mem_map.mp htype
    exact htypes a ha
  simpa using (hnodup.subperm hsubset).length_le

theorem length_oxmFields_le (oxm : gn_oxm_t) : (syncOxmFields oxm).length ≤ 34 := by
  have hle : (OxmField.all.filter oxm.isSet).length ≤ 33 := List.length_filter_le _ _
  simp only [syncOxmFields, List.length_append, List.length_map, List.length_singleton]
  omega

theorem length_action_le (action : CFlowAction) : (syncAction action).length ≤ 35 := by
  cases action with
  | set_field oxm_fields => exact Nat.succ_le_succ (length_oxmFields_le oxm_fields)
  | copy_ttl_out | copy_ttl_in | dec_mpls_ttl | dec_nw_ttl | other => exact Nat.zero_le 35
  | _ => exact Nat.le_add_left 1 34

theorem length_actions_le (actions : CFlowActionMap) : (actions.toList.flatMap syncAction).length ≤ 17 * 35 := by
  have hsplit : actions.toList.flatMap syncAction =
      (actions.toList.filter (·.type ∈ ofp13_action_type)).flatMap syncAction := by
    symm
    apply flatMap_filter
    intro action _ hother
    cases action with
    | other => rfl
    | _ => exact absurd rfl hother
  rw [hsplit]
  apply length_flatMap_le
  · apply length_le_of_types (f := CFlowAction.type) ofp13_action_type
    · exact actions.sorted.sublist List.filter_sublist
    · intro action haction
      simpa using (List.mem_filter.mp haction).2
  · exact fun action _ => length_action_le action

theorem length_instruction_le (instruction : CFlowInstruction) :
    (syncInstruction instruction).length ≤ 1 + 17 * 35 := by
  cases instruction with
  | write_actions actions | apply_actions actions =>
    rw [syncInstruction, List.length_cons, Nat.add_comm]
    exact Nat.add_le_add_left (length_actions_le actions) 1
  | other => exact Nat.zero_le _
  | _ => exact Nat.le_add_right 1 _

theorem written_entry (dpid : UINT8) (huuid : IsText UUID_LEN flow.m_uuid) : ∀ t ∈ syncFlowEntry dpid flow, t.written = t := by
  intro t ht
  rcases List.mem_cons.mp ht with rfl | ht
  · exact Tlv.written_word
  · rcases List.mem_cons.mp ht with rfl | ht
    · exact Tlv.written_text (by decide) huuid
    · exact (inEntry_following dpid ht).written

theorem length_entry_le (dpid : UINT8) (hkinds : ∀ i ∈ flow.m_instructions.toList, i.type ∈ ofp_instruction_type) :
    (syncFlowEntry dpid flow).length ≤ 4215 := by
  have hinstructions : (flow.m_instructions.toList.flatMap syncInstruction).length ≤ 7 * (1 + 17 * 35) := by
    apply length_flatMap_le
    · exact length_le_of_types (f := Instruction.type) ofp_instruction_type flow.m_instructions.sorted hkinds
    · exact fun i _ => length_instruction_le i
  have hoxm := length_oxmFields_le flow.m_match.oxm_fields
  simp only [syncFlowEntry, List.length_cons, List.length_append, List.length_nil]
  omega

theorem length_image_le {ts : List Tlv} {k : ℕ} (h : ∀ t ∈ ts, t.written = t ∧ t.value.length ≤ k) :
    (image ts).length ≤ ts.length * (4 + k) := by
  induction ts with
  | nil => exact Nat.zero_le _
  | cons t ts ih =>
    obtain ⟨⟨hwritten, hle⟩, hts⟩ := List.forall_mem_cons.mp h
    have hrest := ih hts
    rw [length_image_cons, hwritten, List.length_cons, Nat.succ_mul]
    omega

/-- The entry is written as a whole. -/
theorem fieldMem_entry (huuid : IsText UUID_LEN flow.m_uuid)
    (hkinds : ∀ i ∈ flow.m_instructions.toList, i.type ∈ ofp_instruction_type) :
    fieldMem (syncFlowEntry dpid flow) = ((syncFlowEntry dpid flow).flatMap Tlv.bytes, false) := by
  have hwritten := written_entry dpid huuid
  have hle : ∀ t ∈ syncFlowEntry dpid flow, t.written = t ∧ t.value.length ≤ 40 := by
    intro t ht
    refine ⟨hwritten t ht, ?_⟩
    rcases List.mem_cons.mp ht with rfl | ht
    · exact Nat.le_add_right 8 32
    · rcases List.mem_cons.mp ht with rfl | ht
      · have hlt : flow.m_uuid.length < 40 := huuid.1
        simpa [Tlv.text] using hlt
      · exact (inEntry_following dpid ht).length_le.trans (by decide)
  have hlen := length_image_le hle
  have htlvs := length_entry_le dpid hkinds
  have himage : image (syncFlowEntry dpid flow) = (syncFlowEntry dpid flow).flatMap Tlv.bytes := by
    rw [image, List.map_congr_left hwritten, List.map_id']
  rw [← himage]
  apply fill_of_length_le hwritten
  have hsize : ClusterHeader.FIELD_MEM_SIZE = 13926400 := rfl
  omega

end

/-- The functions that recover flow entries. -/
inductive EntryRecovery where
  | list
  | add

namespace EntryRecovery

def decoder : EntryRecovery → Recover FlowRecord
  | list => recoverFlowEntryList
  | add => recoverAddFlowEntry

/-- The entry of a record, at a switch of the slave. -/
def entry (sw : SwitchEntry) (r : FlowRecord) : CFlow :=
  CFlow.assign ⟨sw.address, sw.dpid⟩ { r.flow with instructions := r.attached }

/-- The function keeps to the bytes and the arrays, and the entry it recovers is that of the master. -/
def TakesOver (o : EntryRecovery) (m : Memory) (data len : ℕ) (slave : ControllerTables) (dpid : UINT8)
    (flow : CFlow) : Prop :=
  o.decoder.Safe m data (data + len) data len slave ∧
    ∃ fuel e, o.decoder.recover m data len slave fuel =
      some (BNC_OK, (o.decoder.clear slave).report (.recover e)) ∧ e.m_sw.dpid = dpid ∧ e.record = flow.record

/-- What an entry has that arrives as it is. -/
structure Transmittable (flow : CFlow) : Prop where
  match_type : flow.m_match.type = OFPMT_OXM
  kinds : ∀ i ∈ flow.m_instructions.toList, i.type ≠ OFPIT_EXPERIMENTER
  attachable : Instruction.Attachable flow.m_instructions.toList

variable {o : EntryRecovery} {m : Memory} {data : ℕ} {slave w : ControllerTables} {sw : SwitchEntry}
  {dpid : UINT8} {flow : CFlow} {type : UINT2} {t : Tlv} {r : FlowRecord}

theorem fields_eq (h : type ∈ recoverAddFlowEntry.types) :
    o.decoder.fields type = recoverAddFlowEntry.fields type := by
  cases o with
  | add => rfl
  | list =>
    have hne : type ≠ FLOW_ENTRY_SW_DPID := by
      rintro rfl
      exact absurd h (by decide)
    have hlookup : recoverFlowEntryList.fields type = List.lookup type (_ :: flowEntryTable) := rfl
    have hbeq : (type == FLOW_ENTRY_SW_DPID) = false := by simpa using hne
    change recoverFlowEntryList.fields type = flowEntryTable.lookup type
    rw [hlookup, List.lookup_cons, hbeq]

theorem record_entry : (entry sw (.ofFlow dpid flow)).record = flow.record ↔
    flow.m_match.type = OFPMT_OXM ∧ Instruction.Attachable flow.m_instructions.toList := by
  rw [← Instruction.attached_iff (r := .ofFlow dpid flow) flow.m_instructions.sorted rfl rfl]
  simp only [CFlow.record, entry, CFlow.assign, FlowRecord.ofFlow, gn_oxm_t.named_named, gn_flow_t.mk.injEq,
    gn_match_t.mk.injEq, true_and, and_true, eq_comm]

theorem types_entry (o : EntryRecovery) (dpid : UINT8) (flow : CFlow) :
    ∀ t ∈ (syncFlowEntry dpid flow).tail, t.type ∈ o.decoder.types := by
  intro t ht
  have hadd := types_flowEntry dpid flow t ht
  cases o with
  | add => exact hadd
  | list => exact List.mem_cons_of_mem _ hadd

theorem value_ne_nil_of_last (dpid : UINT8) (flow : CFlow) (h : t ∈ (syncFlowEntry dpid flow).getLast?) : t.value ≠ [] := by
  rw [syncFlowEntry, ← List.cons_append, List.getLast?_append_of_ne_nil _ (List.cons_ne_nil _ _)] at h
  exact (inEntry_instructions flow t (List.mem_of_getLast? h)).ne_nil

theorem copies_entry (dpid : UINT8) (huuid : IsText UUID_LEN flow.m_uuid)
    (hkinds : ∀ i ∈ flow.m_instructions.toList, i.type ≠ OFPIT_EXPERIMENTER) :
    ∀ t ∈ (syncFlowEntry dpid flow).tail, Takes recoverAddFlowEntry.fields t ∧
      ∀ field, recoverAddFlowEntry.fields t.type = some field → field.get.Fits t.value.length := by
  have hword {t : Tlv} (h : Decoder.HoldsWord recoverAddFlowEntry.fields t) :
      Takes recoverAddFlowEntry.fields t ∧
        ∀ field, recoverAddFlowEntry.fields t.type = some field → field.get.Fits t.value.length :=
    ⟨h.copies.takes, h.copies.fits⟩
  have hfits : ∀ field, recoverAddFlowEntry.fields FLOW_ENTRY_UUID = some field →
      field.get.Fits (Tlv.text FLOW_ENTRY_UUID flow.m_uuid).written.value.length :=
    (fits_text rfl).mpr ((received_iff flow.m_uuid (by decide)).mpr huuid).1
  have htakes : Takes recoverAddFlowEntry.fields (Tlv.text FLOW_ENTRY_UUID flow.m_uuid).written :=
    takes_written_text rfl
  rw [Tlv.written_text (by decide) huuid] at hfits htakes
  simp only [syncFlowEntry, List.tail_cons, List.cons_append, List.nil_append, List.forall_mem_cons]
  refine ⟨⟨htakes, hfits⟩, hword (.word _ rfl), hword (.word _ rfl), hword (.word _ rfl), hword (.word _ rfl),
    hword (.word _ rfl), hword (.word _ rfl), ?_⟩
  intro t ht
  rcases List.mem_append.mp ht with ht | ht
  · exact hword (holdsWord_oxmFields _ t ht)
  · rcases List.mem_cons.mp ht with rfl | ht
    · exact hword (.word _ rfl)
    · obtain ⟨i, hi, ht⟩ := List.mem_flatMap.mp ht
      exact hword (holdsWord_instruction (hkinds i hi) t ht)

/-- The values of an entry fit their fields if and only if no instruction is an experimenter's, whose words are
shorter than those of their type. -/
theorem fits_entry_iff (dpid : UINT8) (huuid : IsText UUID_LEN flow.m_uuid) :
    (∀ t ∈ (syncFlowEntry dpid flow).tail, ∀ field, o.decoder.fields t.type = some field →
      field.get.Fits t.value.length) ↔ ∀ i ∈ flow.m_instructions.toList, i.type ≠ OFPIT_EXPERIMENTER := by
  constructor
  · intro h i hi htype
    cases i with
    | experimenter len experimenter =>
      have hmem : SYNC_DATA_BYTES FLOW_ENTRY_INSTRUCION_WRITEMETADATA (len.toUInt32, experimenter) ∈
          (syncFlowEntry dpid flow).tail := by
        apply List.mem_append_right
        exact List.mem_cons_of_mem _ (List.mem_flatMap.mpr ⟨_, hi, List.mem_singleton_self _⟩)
      have hfit := h _ hmem _ ((fields_eq (types_flowEntry dpid flow _ hmem)).trans rfl)
      rw [Tlv.length_word] at hfit
      exact absurd hfit (by decide)
    | other type unknown => exact absurd htype fun heq => unknown (by rw [show type = _ from heq]; decide)
    | _ => exact absurd htype (by simp only [Instruction.type]; decide)
  · intro h t ht field hf
    rw [fields_eq (types_flowEntry dpid flow t ht)] at hf
    exact (copies_entry dpid huuid h t ht).2 field hf

theorem safe_entry_iff (huuid : IsText UUID_LEN flow.m_uuid)
    (hm : Stores m data ((syncFlowEntry dpid flow).flatMap Tlv.bytes)) :
    o.decoder.Safe m data (data + ((syncFlowEntry dpid flow).flatMap Tlv.bytes).length) data
      ((syncFlowEntry dpid flow).flatMap Tlv.bytes).length slave ↔
        ∀ i ∈ flow.m_instructions.toList, i.type ≠ OFPIT_EXPERIMENTER := by
  have hlt : ∀ t ∈ syncFlowEntry dpid flow, t.value.length < 2 ^ 16 := by
    intro t ht
    rw [← written_entry dpid huuid t ht]
    exact t.length_written_lt
  have hfirst : o.decoder.firstType = FLOW_ENTRY_SW_DPID ∧ o.decoder.first.get = .fixed 8 := by
    cases o <;> exact ⟨rfl, rfl⟩
  obtain ⟨haccepts, hfit⟩ := Decoder.allFit_of_stores (d := o.decoder) hm hfirst.1.symm hlt
    (types_entry o dpid flow) fun t ht => value_ne_nil_of_last dpid flow ht
  rw [Decoder.safe_iff (Nat.le_refl _) (Nat.le_refl _)]
  refine (or_iff_right haccepts).trans (hfit.trans ((and_iff_right ?_).trans (fits_entry_iff dpid huuid)))
  rw [hfirst.2]
  exact Nat.le_refl 8

theorem recover_entry (slave : ControllerTables) (huuid : IsText UUID_LEN flow.m_uuid)
    (hkinds : ∀ i ∈ flow.m_instructions.toList, i.type ∈ ofp_instruction_type ∧ i.type ≠ OFPIT_EXPERIMENTER)
    (hm : Stores m data ((syncFlowEntry dpid flow).flatMap Tlv.bytes)) :
    ∃ fuel, o.decoder.recover m data ((syncFlowEntry dpid flow).flatMap Tlv.bytes).length slave fuel =
      some (BNC_OK, match slave.getSwitchByDpid dpid with
        | none => o.decoder.clear slave
        | some sw => (o.decoder.clear slave).report (.recover (entry sw (.ofFlow dpid flow)))) := by
  have hcopies := copies_entry dpid huuid fun i hi => (hkinds i hi).2
  have hexpects : o.decoder.Expects (SYNC_DATA_INTEGER FLOW_ENTRY_SW_DPID dpid) (syncFlowEntry dpid flow).tail := by
    refine ⟨?_, ?_, ?_, ?_, ?_⟩
    · cases o <;> rfl
    · rw [Tlv.length_word]
      exact Word.size_lt
    · cases o <;> rfl
    · intro t ht
      obtain ⟨hlt, field, hf, hsize⟩ := (hcopies t ht).1
      exact ⟨hlt, field, (fields_eq (types_flowEntry dpid flow t ht)).trans hf, hsize⟩
    · intro t ht
      apply value_ne_nil_of_last dpid flow
      have hcons : (syncFlowEntry dpid flow).getLast? =
          some ((syncFlowEntry dpid flow).tail.getLast?.getD (SYNC_DATA_INTEGER FLOW_ENTRY_SW_DPID dpid)) :=
        List.getLast?_cons
      rw [hcons, Option.mem_def.mp ht]
      rfl
  obtain ⟨fuel, hfuel⟩ := Decoder.recover_encoded (w := slave) hexpects hm rfl
  refine ⟨fuel, hfuel.trans ?_⟩
  have hfold : (syncFlowEntry dpid flow).tail.foldl (absorb o.decoder.fields)
      ({ FlowRecord.zero with dpid }, o.decoder.clear slave) = (.ofFlow dpid flow, o.decoder.clear slave) := by
    rw [← absorb_entry huuid hkinds]
    apply List.foldl_ext
    intro s t ht
    rw [absorb, absorb, fields_eq (types_flowEntry dpid flow t ht)]
  have hstore : o.decoder.first.store (SYNC_DATA_INTEGER FLOW_ENTRY_SW_DPID dpid).value
      (o.decoder.locals, o.decoder.clear slave) = ({ FlowRecord.zero with dpid }, o.decoder.clear slave) := by
    have hset : o.decoder.first = .word fun dpid s => ({ s.1 with dpid }, s.2) := by
      cases o <;> rfl
    rw [TlvField.store_word hset]
    cases o <;> rfl
  have hswitch : (o.decoder.clear slave).getSwitchByDpid dpid = slave.getSwitchByDpid dpid := by
    cases o <;> rfl
  have hfinish : o.decoder.finish (.ofFlow dpid flow, o.decoder.clear slave) =
      (BNC_OK, recoverFlowEntry (.ofFlow dpid flow, o.decoder.clear slave)) := by
    cases o <;> rfl
  have hdpid : (FlowRecord.ofFlow dpid flow).dpid = dpid := rfl
  rw [hstore, hfold, hfinish, recoverFlowEntry]
  dsimp only
  rw [hdpid, hswitch]
  rfl

theorem takesOver_bytes (huuid : IsText UUID_LEN flow.m_uuid)
    (hkinds : ∀ i ∈ flow.m_instructions.toList, i.type ∈ ofp_instruction_type)
    (hm : Stores m data (fieldMem (syncFlowEntry dpid flow)).1) :
    o.TakesOver m data (fieldMem (syncFlowEntry dpid flow)).1.length slave dpid flow ↔
      (slave.getSwitchByDpid dpid).isSome ∧ Transmittable flow := by
  rw [fieldMem_entry huuid hkinds] at hm ⊢
  rw [TakesOver, safe_entry_iff huuid hm]
  constructor
  · rintro ⟨hexperimenter, fuel, e, hrecover, -, hrecord⟩
    obtain ⟨fuel', hrecover'⟩ := recover_entry (o := o) slave huuid
      (fun i hi => ⟨hkinds i hi, hexperimenter i hi⟩) hm
    have hreport := congrArg (fun r => r.2.reported) (Decoder.recover_unique hrecover hrecover')
    cases hsw : slave.getSwitchByDpid dpid with
    | none => simp [hsw, ControllerTables.report] at hreport
    | some sw =>
      obtain rfl : e = entry sw (.ofFlow dpid flow) := by
        simpa [hsw, ControllerTables.report] using hreport
      obtain ⟨htype, hattachable⟩ := record_entry.mp hrecord
      exact ⟨rfl, htype, hexperimenter, hattachable⟩
  · rintro ⟨hknown, htype, hexperimenter, hattachable⟩
    obtain ⟨sw, hsw⟩ := Option.isSome_iff_exists.mp hknown
    obtain ⟨fuel, hrecover⟩ := recover_entry (o := o) slave huuid
      (fun i hi => ⟨hkinds i hi, hexperimenter i hi⟩) hm
    have hdpid : sw.dpid = dpid := by simpa using List.find?_some hsw
    rw [hsw] at hrecover
    exact ⟨hexperimenter, fuel, _, hrecover, hdpid, record_entry.mpr ⟨htype, hattachable⟩⟩

/-- A slave takes over the entry of the master if and only if it knows the switch and the entry can be transmitted. -/
theorem takes_over_iff (o : EntryRecovery) (master slave : ControllerTables) (dpid : UINT8) (uuid : List UINT1)
    (flow : CFlow) (tlvs : List Tlv) (m : Memory) (data : ℕ)
    (hflow : master.flowCache.findFlow dpid uuid = some flow) (htlvs : syncAddFlowEntry0 master dpid uuid = some tlvs)
    (huuid : IsText UUID_LEN flow.m_uuid)
    (hkinds : ∀ i ∈ flow.m_instructions.toList, i.type ∈ ofp_instruction_type)
    (hm : Stores m data (fieldMem tlvs).1) :
    o.TakesOver m data (fieldMem tlvs).1.length slave dpid flow ↔
      (slave.getSwitchByDpid dpid).isSome ∧ Transmittable flow := by
  obtain rfl : syncFlowEntry dpid flow = tlvs := by
    rw [syncAddFlowEntry0, hflow] at htlvs
    exact Option.some.inj htlvs
  exact takesOver_bytes huuid hkinds hm

def outputTo (port : UINT4) : CFlowActionMap := KeyedMap.empty.insert (.output port)

def withInstructions (instructions : List CFlowInstruction) : CFlow :=
  { CFlowCache.flowOf [1] 1 0 with m_instructions := .ofList instructions }

/-- A master with an entry, and a slave with its switch. -/
def masterOf (flow : CFlow) : ControllerTables :=
  { ControllerTables.empty with flowCache := CFlowCache.clear.setFlowList 7 0 [flow] }

def slaveOf (dpid : UINT8) : ControllerTables :=
  { ControllerTables.empty with switches := [⟨1, dpid, .connected, 0⟩] }

theorem output_taken_over : add.TakesOver
    (memoryOf (fieldMem (syncFlowEntry 7 (withInstructions [.apply_actions (outputTo 2)]))).1) 0
    (fieldMem (syncFlowEntry 7 (withInstructions [.apply_actions (outputTo 2)]))).1.length (slaveOf 7) 7
    (withInstructions [.apply_actions (outputTo 2)]) := by
  refine (takes_over_iff add (masterOf (withInstructions [.apply_actions (outputTo 2)])) (slaveOf 7) 7 [1]
    (withInstructions [.apply_actions (outputTo 2)]) _ _ 0 rfl rfl ⟨by decide, by decide⟩ (by decide)
    stores_memoryOf).mpr ⟨rfl, rfl, by decide, by decide, ?_⟩
  intro actions actions' hwrite
  cases List.mem_singleton.mp hwrite

/-- The actions of `OFPIT_WRITE_ACTIONS` come to `OFPIT_APPLY_ACTIONS`. -/
theorem written_actions_applied : ¬ ∀ (o : EntryRecovery) (master slave : ControllerTables) (dpid : UINT8)
    (uuid : List UINT1) (flow : CFlow) (tlvs : List Tlv) (m : Memory) (data : ℕ),
      master.flowCache.findFlow dpid uuid = some flow → syncAddFlowEntry0 master dpid uuid = some tlvs →
        IsText UUID_LEN flow.m_uuid → (∀ i ∈ flow.m_instructions.toList, i.type ∈ ofp_instruction_type) →
          Stores m data (fieldMem tlvs).1 → (slave.getSwitchByDpid dpid).isSome →
            o.TakesOver m data (fieldMem tlvs).1.length slave dpid flow := by
  intro h
  let flow := withInstructions [.write_actions (outputTo 1), .apply_actions (outputTo 2)]
  have htakes := h add (masterOf flow) (slaveOf 7) 7 [1] flow _ (memoryOf (fieldMem (syncFlowEntry 7 flow)).1) 0 rfl rfl
    ⟨by decide, by decide⟩ (by decide) stores_memoryOf rfl
  have htransmittable := ((takesOver_bytes (o := add) ⟨by decide, by decide⟩ (by decide) stores_memoryOf).mp htakes).2
  exact absurd (htransmittable.attachable.single (outputTo 1) (outputTo 2) (by decide) (by decide)) (by decide)

end EntryRecovery

end DCFabric
