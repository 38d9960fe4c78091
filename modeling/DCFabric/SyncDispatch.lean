import DCFabric.SyncQueue

namespace DCFabric

open ByteStores TlvStreams WorkQueues

section

variable {n : ℕ} {str : List UINT1}

theorem length_strncpy : (strncpy n str).length = n := by
  simp [strncpy]

theorem cstring_strncpy : cstring (strncpy n str ++ [0]) = (cstring str).take n := by
  have hpad : cstring (List.replicate (n - (cstring str).length) 0 ++ [0]) = [] := by
    cases n - (cstring str).length <;> rfl
  have htext : ∀ b ∈ (cstring str).take n, decide (b ≠ 0) = true := by
    intro b hb
    have hmem : b ∈ str.takeWhile (· ≠ 0) := List.mem_of_mem_take hb
    have hb := List.mem_takeWhile_imp hmem
    exact hb
  have hcopy : strncpy n str = (cstring str).take n ++ List.replicate (n - (cstring str).length) 0 := by
    rw [strncpy, List.take_append, List.take_replicate, Nat.min_eq_left (Nat.sub_le _ _)]
  rw [hcopy, List.append_assoc, cstring, List.takeWhile_append_of_pos htext]
  exact (congrArg _ hpad).trans (List.append_nil _)

theorem take_cstring_iff (hn : 0 < n) : (cstring str).take (n - 1) = str ↔ IsText n str := by
  constructor
  · intro h
    have hlen := congrArg List.length h
    rw [List.length_take] at hlen
    refine ⟨by omega, ?_⟩
    rw [← h]
    exact fun hzero => not_mem_cstring (List.mem_of_mem_take hzero)
  · rintro ⟨hlt, hzero⟩
    rw [cstring_eq_self hzero, List.take_of_length_le (by omega)]

end

namespace SyncData

variable {operation sockfd : INT4} {bytes : Memory} {dpid : UINT8} {tag : UINT4} {uuid : List UINT1}

@[simp] theorem m_neigh_setNeigh (neigh : Neighbor) :
    (⟨operation, sockfd, setNeigh bytes neigh⟩ : SyncData).m_neigh = neigh.sent := by
  simp (disch := decide) [m_neigh, setNeigh, loadWord_storeWord_of_disjoint, Neighbor.sent]

@[simp] theorem m_snatConn_setSnatConn (snatConn : CSNatConn) :
    (⟨operation, sockfd, setSnatConn bytes snatConn⟩ : SyncData).m_snatConn = snatConn := by
  simp (disch := decide) [m_snatConn, setSnatConn, loadWord_storeWord_of_disjoint]

@[simp] theorem dpid_setDpidUuid : (⟨operation, sockfd, setDpidUuid bytes dpid uuid⟩ : SyncData).dpid = dpid := by
  have hend : loadWord UINT8 (setDpidUuid bytes dpid uuid) 0 = loadWord UINT8 (storeWord bytes 0 dpid) 0 := by
    rw [setDpidUuid, loadWord_store_of_disjoint (.inl (by decide)), loadWord_store_of_disjoint (.inl (by decide))]
  exact hend.trans loadWord_storeWord

@[simp] theorem uuid_setDpidUuid : (⟨operation, sockfd, setDpidUuid bytes dpid uuid⟩ : SyncData).uuid =
    (cstring uuid).take (UUID_LEN - 1) := by
  have hlen : (strncpy (UUID_LEN - 1) uuid).length = 39 := length_strncpy
  have hsplit : load (setDpidUuid bytes dpid uuid) 8 UUID_LEN = strncpy (UUID_LEN - 1) uuid ++ [0] := by
    have hlast : load (setDpidUuid bytes dpid uuid) (8 + 39) 1 = [0] := load_store
    have htext : load (setDpidUuid bytes dpid uuid) 8 39 = strncpy (UUID_LEN - 1) uuid := by
      rw [setDpidUuid, load_store_of_disjoint (by decide), ← hlen]
      exact load_store
    have hadd : load (setDpidUuid bytes dpid uuid) 8 (39 + 1) = _ := load_add
    rw [← htext, ← hlast]
    exact hadd
  rw [SyncData.uuid, hsplit, cstring_strncpy]

end SyncData

theorem SyncOper.ofReq_req (oper : SyncOper) : SyncOper.ofReq oper.req = some oper := by
  cases oper <;> decide

namespace SyncCall

/-- The call as the encoder gets it: a link has the same fields. -/
def passed : SyncCall → SyncCall
  | topoLink neigh => topoLink neigh.sent
  | c => c

/-- The uuid has room in its array. -/
def Fits : SyncCall → Prop
  | addFlowEntry _ uuid | delFlowEntry _ uuid => IsText UUID_LEN uuid
  | _ => True

/-- The item of a switch tag has the operation of a link. -/
def Kept (c : SyncCall) : Prop := c.Fits ∧ ∀ dpid tag, c ≠ switchTag dpid tag

variable {c : SyncCall} {stack : Memory}

theorem dispatch_item_iff : (c.item stack).dispatch = some c.passed ↔ c.Kept := by
  have hcase (oper : SyncOper) (h : (c.item stack).m_operation = oper.req) :
      (c.item stack).dispatch = some c.passed ↔ (c.item stack).call oper = c.passed := by
    rw [SyncData.dispatch, h, SyncOper.ofReq_req, Option.map_some, Option.some.injEq]
  cases c with
  | switchTag dpid tag =>
    rw [hcase .topoLink rfl]
    simp [SyncData.call, passed, Kept]
  | addFlowEntry dpid uuid =>
    rw [hcase .addFlowEntry rfl]
    simp [SyncData.call, passed, Kept, Fits, item, CClusterSync.syncAddFlowEntry,
      take_cstring_iff (by decide : 0 < UUID_LEN)]
  | delFlowEntry dpid uuid =>
    rw [hcase .delFlowEntry rfl]
    simp [SyncData.call, passed, Kept, Fits, item, CClusterSync.syncDelFlowEntry,
      take_cstring_iff (by decide : 0 < UUID_LEN)]
  | addNatHost snatConn =>
    rw [hcase .addNatHost rfl]
    simp [SyncData.call, passed, Kept, Fits, item, CClusterSync.syncAddNatHost]
  | delNatHost snatConn =>
    rw [hcase .delNatHost rfl]
    simp [SyncData.call, passed, Kept, Fits, item, CClusterSync.syncDelNatHost]
  | topoLink neigh =>
    rw [hcase .topoLink rfl]
    simp [SyncData.call, passed, Kept, Fits, item, CClusterSync.syncTopoLink]
  | hostList sockfd => exact (hcase .hostList rfl).trans (iff_of_true rfl ⟨trivial, by simp⟩)
  | natIcmpList sockfd => exact (hcase .natIcmpList rfl).trans (iff_of_true rfl ⟨trivial, by simp⟩)
  | natHostList sockfd => exact (hcase .natHostList rfl).trans (iff_of_true rfl ⟨trivial, by simp⟩)
  | topoLinkList sockfd => exact (hcase .topoLinkList rfl).trans (iff_of_true rfl ⟨trivial, by simp⟩)
  | switchTagList sockfd => exact (hcase .switchTagList rfl).trans (iff_of_true rfl ⟨trivial, by simp⟩)
  | tagInfo sockfd => exact (hcase .tagInfo rfl).trans (iff_of_true rfl ⟨trivial, by simp⟩)
  | flowEntryList sockfd => exact (hcase .flowEntryList rfl).trans (iff_of_true rfl ⟨trivial, by simp⟩)

theorem sends_passed (master : SyncMaster) : master.sends c.passed = master.sends c := by
  cases c with
  | topoLink neigh =>
    have htlvs : syncTopoLink0 neigh.sent = syncTopoLink0 neigh := by
      simp only [syncTopoLink0, Neighbor.sent, SwNeighborState.toInt4_ofInt4]
    simp only [passed, SyncMaster.sends, SyncMaster.encoded, htlvs]
    rfl
  | _ => rfl

end SyncCall

namespace Recovery

/-- The recover function has a case for every TLV after the first. -/
def Knows (r : Recovery) (tlvs : List Tlv) : Prop :=
  match r with
  | loop d => ∀ t ∈ tlvs.tail, t.type ∈ d.types
  | tagInfo | delFlowEntry => True

variable {r : Recovery} {L : Type} {d : Recover L} {m : Memory} {data : ℕ} {w : ControllerTables} {tlvs : List Tlv}

theorem returns_of_knows (h : r.Knows tlvs) (hs : Stores m data (fieldMem tlvs).1) :
    ∃ fuel, (r.recover m data (fieldMem tlvs).1.length w fuel).isSome := by
  cases r with
  | loop d =>
    obtain ⟨us, ⟨vs, rfl⟩, himage⟩ := exists_image ClusterHeader.FIELD_MEM_SIZE tlvs
    have hmem : (fieldMem (us ++ vs)).1 = image us := himage
    rw [hmem] at hs ⊢
    apply Decoder.terminates_image hs
    intro t ht
    apply h
    cases us with
    | nil => cases ht
    | cons u us => exact List.mem_append_left vs ht
  | tagInfo => exact ⟨0, rfl⟩
  | delFlowEntry => exact ⟨0, rfl⟩

theorem knows_words (types : List UINT2) (htypes : tlvs.map Tlv.type = d.firstType :: types)
    (hknown : types ⊆ d.types) : (loop d).Knows tlvs := by
  intro t ht
  apply hknown
  have htail : tlvs.tail.map Tlv.type = types := by
    rw [List.map_tail, htypes]
    rfl
  rw [← htail]
  exact List.mem_map_of_mem ht

theorem knows_list (l : ListOper) (dpids : List UINT8) (master : ControllerTables) :
    l.oper.recovery.Knows (l.tlvs dpids master) := by
  cases hrec : l.oper.recovery with
  | loop d =>
    intro t ht
    have htlvs := List.mem_of_mem_tail ht
    rw [ListOper.tlvs_eq] at htlvs
    obtain ⟨record, hrecord, ht⟩ := List.mem_flatten.mp htlvs
    exact (ListOper.reads_records _ d hrec record hrecord).known t ht
  | tagInfo => trivial
  | delFlowEntry => trivial

end Recovery

/-- What the call asks of the tables of a slave, where it is about one record. -/
def SyncCall.update (slave : ControllerTables) : SyncCall → Option ControllerTables
  | addNatHost snatConn => some (addNatHostRecord (snatConn, slave))
  | delNatHost snatConn => some (delNatHostRecord (snatConn, slave))
  | topoLink neigh =>
    some (if neigh.srcDpid ≠ 0 ∧ neigh.dstDpid ≠ 0 then (slave.recoverLink neigh.sent).notifyPathChanged else slave)
  | switchTag dpid tag =>
    some (if dpid ≠ 0 ∧ tag ≠ 0 ∧ (slave.getSwitchByDpid dpid).isSome then slave.setTag dpid tag else slave)
  | delFlowEntry dpid uuid =>
    some (match slave.getSwitchByDpid dpid with
      | none => slave
      | some sw => slave.report (.delStrict (CFlow.assign ⟨sw.address, sw.dpid⟩ { gn_flow_t.zero with uuid })))
  | _ => none

section

variable {L α : Type} [Word α] {d : Recover L} {m : Memory} {data : ℕ} {w : ControllerTables} {a : α} {ts : List Tlv}
  {set : α → L × ControllerTables → L × ControllerTables} {type : UINT2}

/-- A recover function reads a record of words as it was written. -/
theorem recover_words (hfirst : d.first = .word set) (hcopies : ∀ t ∈ ts, Decoder.Copies d.fields t)
    (hwords : ∀ t ∈ Tlv.word d.firstType a :: ts, t.written = t)
    (hlen : (image (Tlv.word d.firstType a :: ts)).length ≤ ClusterHeader.FIELD_MEM_SIZE)
    (hs : Stores m data (fieldMem (Tlv.word d.firstType a :: ts)).1) :
    ∃ fuel, d.recover m data (fieldMem (Tlv.word d.firstType a :: ts)).1.length w fuel =
      some (d.finish (ts.foldl (absorb d.fields) (set a (d.locals, d.clear w)))) := by
  have hexpects : d.Expects (.word d.firstType a) ts := {
    type := rfl
    lt := by
      rw [Tlv.length_word]
      exact Word.size_lt
    size := by
      rw [hfirst, Tlv.length_word]
      rfl
    takes := fun t ht => (hcopies t ht).takes
    last := fun t ht => (hcopies t (List.mem_of_getLast? ht)).ne_nil }
  have hmem : (fieldMem (Tlv.word d.firstType a :: ts)).1 = (Tlv.word d.firstType a :: ts).flatMap Tlv.bytes := by
    rw [fieldMem, fill_of_length_le hwords hlen, image, List.map_congr_left hwords, List.map_id']
  rw [hmem] at hs ⊢
  obtain ⟨fuel, hf⟩ := Decoder.recover_encoded (w := w) hexpects hs rfl
  refine ⟨fuel, ?_⟩
  rw [hf, TlvField.store_word hfirst]

end

theorem copies_natHostTable (proto : UINT1) (snatConn : CSNatConn) :
    ∀ t ∈ (syncNatHost proto snatConn).tail, Decoder.Copies recoverAddNatHost.fields t := by
  simp only [syncNatHost, List.tail_cons, List.forall_mem_cons]
  refine ⟨Decoder.copies_word rfl, Decoder.copies_word rfl, Decoder.copies_word rfl, Decoder.copies_word rfl,
    Decoder.copies_word rfl, Decoder.copies_word rfl, Decoder.copies_word rfl, Decoder.copies_word rfl, ?_⟩
  simp

theorem absorb_natHostTable (snatConn : CSNatConn) (w : ControllerTables) :
    (syncNatHost snatConn.m_proto snatConn).tail.foldl (absorb recoverAddNatHost.fields)
      ({ CSNatConn.zero with m_proto := snatConn.m_proto }, w) = (snatConn, w) := by
  refine (foldl_word rfl).trans ?_
  refine (foldl_word rfl).trans ?_
  refine (foldl_word rfl).trans ?_
  refine (foldl_word rfl).trans ?_
  refine (foldl_word rfl).trans ?_
  refine (foldl_word rfl).trans ?_
  refine (foldl_word rfl).trans ?_
  exact (foldl_word rfl).trans rfl

theorem length_natHost (proto : UINT1) (snatConn : CSNatConn) : (image (syncNatHost proto snatConn)).length = 75 := by
  simp [image, syncNatHost, Tlv.written_word, Tlv.length_bytes]
  rfl

theorem written_natHost (proto : UINT1) (snatConn : CSNatConn) :
    ∀ t ∈ syncNatHost proto snatConn, t.written = t := by
  simp [syncNatHost, Tlv.written_word]

theorem recover_addNatHost {m : Memory} {data : ℕ} (snatConn : CSNatConn) (w : ControllerTables)
    (hs : Stores m data (fieldMem (syncAddNatHost0 snatConn)).1) :
    ∃ fuel, recoverAddNatHost.recover m data (fieldMem (syncAddNatHost0 snatConn)).1.length w fuel =
      some (BNC_OK, addNatHostRecord (snatConn, w)) := by
  have hlen := length_natHost snatConn.m_proto snatConn
  have hfirst : recoverAddNatHost.first = .word fun m_proto s => ({ s.1 with m_proto }, s.2) := rfl
  obtain ⟨fuel, hf⟩ := recover_words (w := w) hfirst (copies_natHostTable _ snatConn)
    (written_natHost _ snatConn) (hlen.le.trans (by decide)) hs
  exact ⟨fuel, hf.trans (congrArg (fun s => some (recoverAddNatHost.finish s)) (absorb_natHostTable snatConn w))⟩

theorem recover_delNatHost {m : Memory} {data : ℕ} (snatConn : CSNatConn) (w : ControllerTables)
    (hs : Stores m data (fieldMem (syncDelNatHost0 snatConn)).1) :
    ∃ fuel, recoverDelNatHost.recover m data (fieldMem (syncDelNatHost0 snatConn)).1.length w fuel =
      some (BNC_OK, delNatHostRecord (snatConn, w)) := by
  have hlen := length_natHost snatConn.m_proto snatConn
  have hfirst : recoverDelNatHost.first = .word fun m_proto s => ({ s.1 with m_proto }, s.2) := rfl
  obtain ⟨fuel, hf⟩ := recover_words (w := w) hfirst (copies_natHostTable _ snatConn)
    (written_natHost _ snatConn) (hlen.le.trans (by decide)) hs
  exact ⟨fuel, hf.trans (congrArg (fun s => some (recoverDelNatHost.finish s)) (absorb_natHostTable snatConn w))⟩

theorem recover_topoLink {m : Memory} {data : ℕ} (neigh : Neighbor) (w : ControllerTables)
    (hs : Stores m data (fieldMem (syncTopoLink0 neigh)).1) :
    ∃ fuel, recoverTopoLink.recover m data (fieldMem (syncTopoLink0 neigh)).1.length w fuel =
      some (recoverTopoLink.finish (neigh.sent, w)) := by
  have hfirst : recoverTopoLink.first = .word fun state s => ({ s.1 with state := .ofInt4 state }, s.2) := rfl
  have hcopies : ∀ t ∈ (syncTopoLink0 neigh).tail, Decoder.Copies recoverTopoLink.fields t := by
    simp only [syncTopoLink0, List.tail_cons, List.forall_mem_cons]
    refine ⟨Decoder.copies_word rfl, Decoder.copies_word rfl, Decoder.copies_word rfl, Decoder.copies_word rfl,
      Decoder.copies_word rfl, ?_⟩
    simp
  have hwords : ∀ t ∈ syncTopoLink0 neigh, t.written = t := by
    simp [syncTopoLink0, Tlv.written_word]
  have hlen : (image (syncTopoLink0 neigh)).length = 60 := by
    simp [image, syncTopoLink0, Tlv.written_word, Tlv.length_bytes]
    rfl
  have habsorb : (syncTopoLink0 neigh).tail.foldl (absorb recoverTopoLink.fields)
      ({ Neighbor.zero with state := .ofInt4 neigh.state.toInt4 }, w) = (neigh.sent, w) := by
    refine (foldl_word rfl).trans ?_
    refine (foldl_word rfl).trans ?_
    refine (foldl_word rfl).trans ?_
    refine (foldl_word rfl).trans ?_
    exact (foldl_word rfl).trans rfl
  obtain ⟨fuel, hf⟩ := recover_words (w := w) hfirst hcopies hwords (hlen.le.trans (by decide)) hs
  exact ⟨fuel, hf.trans (congrArg (fun s => some (recoverTopoLink.finish s)) habsorb)⟩

theorem recover_switchTag {m : Memory} {data : ℕ} (dpid : UINT8) (tag : UINT4) (w : ControllerTables)
    (hs : Stores m data (fieldMem (syncSwitchTag0 dpid tag)).1) :
    ∃ fuel, recoverSwitchTag.recover m data (fieldMem (syncSwitchTag0 dpid tag)).1.length w fuel =
      some (recoverSwitchTag.finish (⟨dpid, tag⟩, w)) := by
  have hfirst : recoverSwitchTag.first = .word fun dpid s => ({ s.1 with dpid }, s.2) := rfl
  have hcopies : ∀ t ∈ (syncSwitchTag0 dpid tag).tail, Decoder.Copies recoverSwitchTag.fields t := by
    simp only [syncSwitchTag0, List.tail_cons, List.forall_mem_singleton]
    exact Decoder.copies_word rfl
  have hwords : ∀ t ∈ syncSwitchTag0 dpid tag, t.written = t := by
    simp [syncSwitchTag0, Tlv.written_word]
  have hlen : (image (syncSwitchTag0 dpid tag)).length = 20 := by
    simp [image, syncSwitchTag0, Tlv.written_word, Tlv.length_bytes]
    rfl
  obtain ⟨fuel, hf⟩ := recover_words (w := w) hfirst hcopies hwords (hlen.le.trans (by decide)) hs
  have habsorb : (syncSwitchTag0 dpid tag).tail.foldl (absorb recoverSwitchTag.fields)
      ({ SwitchTagRecord.zero with dpid }, w) = (⟨dpid, tag⟩, w) := (foldl_word rfl).trans rfl
  exact ⟨fuel, hf.trans (congrArg (fun s => some (recoverSwitchTag.finish s)) habsorb)⟩

/-- A uuid for its array is read as it was written. -/
theorem recover_delFlowEntry {m : Memory} {data : ℕ} {dpid : UINT8} {uuid : List UINT1} (w : ControllerTables)
    (huuid : IsText UUID_LEN uuid) (hs : Stores m data (fieldMem (syncDelFlowEntry0 dpid uuid)).1) :
    (recoverDelFlowEntry m data (fieldMem (syncDelFlowEntry0 dpid uuid)).1.length w).2 =
      match w.getSwitchByDpid dpid with
      | none => w
      | some sw => w.report (.delStrict (CFlow.assign ⟨sw.address, sw.dpid⟩ { gn_flow_t.zero with uuid })) := by
  have hcap : UUID_LEN = 40 := rfl
  have hlt : uuid.length < 40 := huuid.1
  have htext : (Tlv.text FLOW_ENTRY_UUID uuid).written = .text FLOW_ENTRY_UUID uuid :=
    Tlv.written_text (by decide) huuid
  have hwritten : ∀ t ∈ syncDelFlowEntry0 dpid uuid, t.written = t := by
    simp only [syncDelFlowEntry0, List.forall_mem_cons]
    exact ⟨Tlv.written_word, htext, by simp⟩
  have himage : image (syncDelFlowEntry0 dpid uuid) =
      (Tlv.word FLOW_ENTRY_SW_DPID dpid).bytes ++ (Tlv.text FLOW_ENTRY_UUID uuid).bytes := by
    rw [image, List.map_congr_left hwritten]
    simp [syncDelFlowEntry0]
  have hlen : (image (syncDelFlowEntry0 dpid uuid)).length = 12 + (5 + uuid.length) := by
    rw [himage, List.length_append, Tlv.length_bytes, Tlv.length_bytes, Tlv.length_word]
    simp only [Tlv.text, List.length_append, List.length_singleton]
    show 4 + 8 + _ = _
    omega
  have hmem : (fieldMem (syncDelFlowEntry0 dpid uuid)).1 = image (syncDelFlowEntry0 dpid uuid) := by
    have hsize : ClusterHeader.FIELD_MEM_SIZE = 13926400 := rfl
    rw [fieldMem, fill_of_length_le hwritten (by omega)]
  rw [hmem] at hs ⊢
  rw [hlen]
  rw [himage] at hs
  obtain ⟨hfirst, hsecond⟩ := Stores.append_iff.mp hs
  rw [Tlv.length_bytes, Tlv.length_word] at hsecond
  have hdpid : visit m data = ⟨data, FLOW_ENTRY_SW_DPID, 8⟩ ∧
      load m (data + 4) 8 = leBytes (Word.size UINT8) (Word.toNat dpid) :=
    visit_of_stores hfirst (by rw [Tlv.length_word]; exact Word.size_lt)
  have hlength : (Tlv.text FLOW_ENTRY_UUID uuid).value.length = uuid.length + 1 := by
    simp only [Tlv.text, List.length_append, List.length_singleton]
  have htext := visit_of_stores hsecond (by omega)
  rw [hlength] at htext
  have hnext : visit m (data + 4 + 8) = ⟨data + 4 + 8, FLOW_ENTRY_UUID, uuid.length + 1⟩ := htext.1
  have hbytes : load m (data + 4 + 8 + 4) (uuid.length + 1) = uuid ++ [0] := htext.2
  have hword : (Word.ofNat (leNat (load m (data + 4) 8)) : UINT8) = dpid := by
    rw [hdpid.2, leNat_leBytes (Word.toNat_lt dpid), Word.ofNat_toNat]
  have hstr : cstring (load m (data + 4 + 8 + 4) (uuid.length + 1)).dropLast = uuid := by
    rw [hbytes, List.dropLast_concat, cstring_eq_self huuid.2]
  have htake : uuid.take (UUID_LEN - 1) = uuid := List.take_of_length_le (by omega)
  have hfits : ¬ (12 + (5 + uuid.length) - (4 + 8) < 4 + (visit m (data + 4 + 8)).len ∨
      (visit m (data + 4 + 8)).type ≠ FLOW_ENTRY_UUID) := by
    rw [hnext]
    simp only [ne_eq, not_true_eq_false, or_false]
    omega
  rw [recoverDelFlowEntry, if_neg (by omega), hdpid.1]
  dsimp only
  rw [if_neg (by simp), if_neg hfits]
  simp only [Visit.value, Get.size, hnext, hword, hstr, htake]
  cases w.getSwitchByDpid dpid <;> rfl

section

variable {c : SyncCall} {master : SyncMaster} {bytes : List UINT1} {m : Memory} {data : ℕ} {w w' : ControllerTables}

theorem length_encoded_le (h : master.encoded c = some bytes) : bytes.length ≤ ClusterHeader.FIELD_MEM_SIZE := by
  cases c with
  | tagInfo sockfd =>
    obtain rfl := Option.some.inj h
    have hlt := (syncTagInfo0 master.tables).length_written_lt
    have hsize : ClusterHeader.FIELD_MEM_SIZE = 13926400 := rfl
    rw [Tlv.length_bytes]
    omega
  | addFlowEntry dpid uuid =>
    obtain ⟨tlvs, -, rfl⟩ := Option.map_eq_some_iff.mp h
    exact length_fieldMem_le
  | _ =>
    obtain rfl := Option.some.inj h
    exact length_fieldMem_le

/-- The recover function of the operation comes to the end of what the encoder has written. -/
theorem recover_returns (h : master.encoded c = some bytes) (hs : Stores m data bytes) :
    ∃ fuel, (c.oper.recovery.recover m data bytes.length w fuel).isSome := by
  have hlist (l : ListOper) (hl : (fieldMem (l.tlvs master.dpids master.tables)).1 = bytes) :
      ∃ fuel, (l.oper.recovery.recover m data bytes.length w fuel).isSome := by
    subst hl
    exact Recovery.returns_of_knows (Recovery.knows_list l master.dpids master.tables) hs
  have hnat (proto : UINT1) (snatConn : CSNatConn) : (syncNatHost proto snatConn).map Tlv.type =
      NAT_HOST_PROTOCOL :: natHostTable.map (·.1) := rfl
  cases c with
  | hostList sockfd => exact hlist .hostList (Option.some.inj h)
  | natIcmpList sockfd => exact hlist .natIcmpList (Option.some.inj h)
  | natHostList sockfd => exact hlist .natHostList (Option.some.inj h)
  | topoLinkList sockfd => exact hlist .topoLinkList (Option.some.inj h)
  | switchTagList sockfd => exact hlist .switchTagList (Option.some.inj h)
  | flowEntryList sockfd => exact hlist .flowEntryList (Option.some.inj h)
  | addNatHost snatConn =>
    obtain rfl := Option.some.inj h
    exact Recovery.returns_of_knows (Recovery.knows_words _ (hnat _ snatConn) (List.Subset.refl _)) hs
  | delNatHost snatConn =>
    obtain rfl := Option.some.inj h
    exact Recovery.returns_of_knows (Recovery.knows_words _ (hnat _ snatConn) (List.Subset.refl _)) hs
  | topoLink neigh =>
    obtain rfl := Option.some.inj h
    have htypes : (syncTopoLink0 neigh).map Tlv.type = TOPO_LINK_STATE :: topoLinkTable.map (·.1) := rfl
    exact Recovery.returns_of_knows (Recovery.knows_words _ htypes (List.Subset.refl _)) hs
  | switchTag dpid tag =>
    obtain rfl := Option.some.inj h
    have htypes : (syncSwitchTag0 dpid tag).map Tlv.type = SW_TAG_DPID :: recoverSwitchTag.types := rfl
    exact Recovery.returns_of_knows (Recovery.knows_words _ htypes (List.Subset.refl _)) hs
  | addFlowEntry dpid uuid =>
    obtain ⟨tlvs, htlvs, rfl⟩ := Option.map_eq_some_iff.mp h
    obtain ⟨flow, -, rfl⟩ := Option.map_eq_some_iff.mp htlvs
    exact Recovery.returns_of_knows (r := .loop recoverAddFlowEntry) (types_flowEntry dpid flow) hs
  | tagInfo sockfd => exact ⟨0, rfl⟩
  | delFlowEntry dpid uuid => exact ⟨0, rfl⟩

/-- It does what is asked for. -/
theorem recover_updates (hfits : c.Fits) (h : master.encoded c = some bytes) (hs : Stores m data bytes)
    (hw : c.update w = some w') :
    ∃ fuel ret, c.oper.recovery.recover m data bytes.length w fuel = some (ret, w') := by
  cases c with
  | addNatHost snatConn =>
    obtain rfl := Option.some.inj h
    obtain rfl := Option.some.inj hw
    obtain ⟨fuel, hf⟩ := recover_addNatHost snatConn w hs
    exact ⟨fuel, _, hf⟩
  | delNatHost snatConn =>
    obtain rfl := Option.some.inj h
    obtain rfl := Option.some.inj hw
    obtain ⟨fuel, hf⟩ := recover_delNatHost snatConn w hs
    exact ⟨fuel, _, hf⟩
  | topoLink neigh =>
    obtain rfl := Option.some.inj h
    obtain rfl := Option.some.inj hw
    obtain ⟨fuel, hf⟩ := recover_topoLink neigh w hs
    refine ⟨fuel, (recoverTopoLink.finish (neigh.sent, w)).1, hf.trans ?_⟩
    simp only [recoverTopoLink, Neighbor.sent]
    split_ifs <;> rfl
  | switchTag dpid tag =>
    obtain rfl := Option.some.inj h
    obtain rfl := Option.some.inj hw
    obtain ⟨fuel, hf⟩ := recover_switchTag dpid tag w hs
    refine ⟨fuel, (recoverSwitchTag.finish (⟨dpid, tag⟩, w)).1, hf.trans ?_⟩
    simp only [recoverSwitchTag]
    split_ifs <;> rfl
  | delFlowEntry dpid uuid =>
    obtain rfl := Option.some.inj h
    obtain rfl := Option.some.inj hw
    have hreport := recover_delFlowEntry w hfits hs
    exact ⟨0, _, congrArg some (Prod.ext rfl hreport)⟩
  | _ => cases hw

end

namespace SyncCall

/-- The handler of the operation takes the request, runs its recover function over what the encoder has written,
returns, and has done what the call asks for. -/
structure Handled (c : SyncCall) (master : SyncMaster) (q : Request) (slave : ControllerTables) : Prop where
  handler : SyncOper.ofReq q.operation = some c.oper
  valid : q.Valid c.oper
  body : ∀ bytes ∈ master.encoded c, q.len.toNatClampNeg = bytes.length ∧ Stores q.m q.data bytes
  returns : ∃ fuel, (processSyncReq c.oper q slave fuel).isSome
  updated : ∀ w ∈ c.update slave, ∃ fuel rsp, processSyncReq c.oper q slave fuel = some (rsp, w)

variable {c : SyncCall} {master : SyncMaster} {q : Request} {slave : ControllerTables} {stack : Memory}

theorem handled_of_sends (hfits : c.Fits) {s : Option ℕ × List UINT1} (hmem : s ∈ master.sends c)
    (hq : Stores q.m q.itf s.2) : c.Handled master q slave := by
  obtain ⟨msg, hmsg, hs⟩ : ∃ msg, (master.encoded c).bind (sendReq c.oper.req) = some msg ∧ s.2 = msg := by
    rw [SyncMaster.sends] at hmem
    split at hmem
    · cases hmem
    · next msg hmsg =>
      obtain ⟨sockfd, -, rfl⟩ := List.mem_map.mp hmem
      exact ⟨msg, hmsg, rfl⟩
  obtain ⟨bytes, hbytes, hsend⟩ := Option.bind_eq_some_iff.mp hmsg
  obtain ⟨hvalid, -, hlen, hdata⟩ := request_of_sendReq hsend (hs ▸ hq) (length_encoded_le hbytes)
  have hproc (fuel : ℕ) : processSyncReq c.oper q slave fuel =
      (c.oper.recovery.recover q.m q.data bytes.length slave fuel).map fun r =>
        (some ⟨c.oper.rsp, if r.1 ≠ BNC_OK then c.oper.failCause else CLUSTER_CAUSE_SUCC⟩, r.2) := by
    rw [processSyncReq, if_pos hvalid, hlen]
  refine ⟨?_, hvalid, ?_, ?_, ?_⟩
  · rw [hvalid.1, SyncOper.ofReq_req]
  · intro bytes' h
    obtain rfl := Option.some.inj (hbytes.symm.trans h)
    exact ⟨hlen, hdata⟩
  · obtain ⟨fuel, hf⟩ := recover_returns (w := slave) hbytes hdata
    exact ⟨fuel, by rw [hproc, Option.isSome_map, hf]⟩
  · intro w hw
    obtain ⟨fuel, ret, hf⟩ := recover_updates hfits hbytes hdata hw
    exact ⟨fuel, _, by rw [hproc, hf]; rfl⟩

end SyncCall

/-- The pass calls the encoder of the call with its arguments, and every peer that receives what is sent does what is
asked for. -/
structure SyncPass.Performs (p : SyncPass) (c : SyncCall) : Prop where
  encoder : p.encoder = some c.passed
  sent : p.sent = p.master.sends c
  handled : ∀ s ∈ p.sent, ∀ (q : Request) (slave : ControllerTables), Stores q.m q.itf s.2 → c.Handled p.master q slave

theorem performs_iff {c : SyncCall} {master : SyncMaster} {stack : Memory} :
    (syncRoutine master (c.item stack)).Performs c ↔ c.Kept := by
  have hdispatch : (c.item stack).dispatch = some c.passed ↔ c.Kept := SyncCall.dispatch_item_iff
  rw [← hdispatch]
  constructor
  · intro h
    exact h.encoder
  · intro h
    have hsent : (syncRoutine master (c.item stack)).sent = master.sends c := by
      rw [syncRoutine, h]
      exact SyncCall.sends_passed master
    refine ⟨h, hsent, ?_⟩
    intro s hs q slave hq
    rw [hsent] at hs
    exact SyncCall.handled_of_sends (hdispatch.mp h).1 hs hq

namespace SyncEvent

variable {es : List SyncEvent}

theorem pushed_queued : pushed (queued es) = (calls es).map fun c => c.1.item c.2 := by
  induction es with
  | nil => rfl
  | cons e es ih =>
    cases e with
    | call c syncNeeded stack =>
      cases syncNeeded with
      | false => exact ih
      | true => exact congrArg (c.item stack :: ·) ih
    | pass master => exact ih

/-- What is queued is performed, call after call, if and only if no switch tag is among it and every uuid fits. -/
theorem performed_iff (es : List SyncEvent) :
    List.Forall₂ (fun c p => SyncPass.Performs p c) (taken es) (passes es) ↔ ∀ c ∈ taken es, c.Kept := by
  have hrun := run_take_length syncRoutine (queued es)
  rw [pushed_queued, ← List.map_take, List.forall₂_map_left_iff] at hrun
  rw [taken, List.forall₂_map_left_iff, List.forall_mem_map]
  apply forall₂_iff_of_forall₂ hrun
  rintro c p ⟨master, rfl⟩
  exact performs_iff

/-- The tag of a switch is taken for a link. -/
theorem switchTag_not_performed :
    ¬ ∀ es : List SyncEvent, List.Forall₂ (fun c p => SyncPass.Performs p c) (taken es) (passes es) := by
  intro h
  have hperforms := List.forall₂_cons.mp (h [.call (.switchTag 1 2) true fun _ => 0, .pass ⟨.empty, [], 0, []⟩])
  exact (performs_iff.mp hperforms.1).2 1 2 rfl

end SyncEvent

end DCFabric
