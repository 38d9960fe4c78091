import DCFabric.ClusterSyncEncode

namespace DCFabric

open ListUpdates SortedMaps TlvStreams

/-- A message has been received, and the recover function has kept to its bounds and brought about `P`. -/
def Reproduces (oper : SyncOper) (q : Request) (slave : ControllerTables) (P : ControllerTables → Prop) : Prop :=
  q.Safe oper slave ∧ ∃ fuel rsp w, processSyncReq oper q slave fuel = some (rsp, w) ∧ P w

section

variable {L A : Type} {oper : SyncOper} {d : Recover L} {q : Request} {slave : ControllerTables}
  {P : ControllerTables → Prop} {tlvs : List Tlv} {msg : List UINT1}

theorem reproduces_iff (hrec : oper.recovery = .loop d) (rs : d.Records A) {a : A} {as : List A}
    (hwritten : tlvs.map Tlv.written = rs.tlvs (a :: as)) (hstop : (fieldMem tlvs).2 = false)
    (hmsg : sendReq oper.req (fieldMem tlvs).1 = some msg) (hq : Stores q.m q.itf msg) :
    Reproduces oper q slave P ↔
      (∀ b ∈ a :: as, rs.FitsRecord b) ∧ P (rs.post (rs.storeAll (a :: as) (d.clear slave))).2 := by
  obtain ⟨hvalid, hinner, hlen, hdata⟩ := request_of_sendReq hmsg hq length_fieldMem_le
  rw [fieldMem_of_not_stopped hstop, hwritten] at hlen hdata
  obtain ⟨fuel, hf⟩ := rs.recover_tlvs (w := slave) hdata hlen
  have hproc : ∀ fuel, processSyncReq oper q slave fuel =
      (d.recover q.m q.data q.len.toNatClampNeg slave fuel).map fun r =>
        (some ⟨oper.rsp, if r.1 ≠ BNC_OK then oper.failCause else CLUSTER_CAUSE_SUCC⟩, r.2) := by
    intro fuel
    rw [processSyncReq, if_pos hvalid, hrec]
    rfl
  have hsafe : q.Safe oper slave ↔ ∀ b ∈ a :: as, rs.FitsRecord b := by
    have hrejects := Decoder.not_rejects_encoded rs.expects hdata hlen
    have hfit := rs.allFit_tlvs hdata hlen slave
    have hiff := Request.recovery_safe_iff (w := slave) hvalid hinner.le
    rw [← hfit]
    have hall : oper.recovery.AllFit q.m q.last q.data q.len.toNatClampNeg ↔
        d.AllFit q.m q.data q.len.toNatClampNeg := by
      rw [hrec]
      exact or_iff_right hrejects
    rw [← hall, ← hiff]
    exact ⟨fun h => h.recovery hvalid, fun h => ⟨fun _ => hinner.le, fun _ => h⟩⟩
  rw [Reproduces, hsafe]
  refine and_congr_right fun _ => ?_
  constructor
  · rintro ⟨fuel', rsp, w, hw, hP⟩
    rw [hproc] at hw
    obtain ⟨r, hr, hrw⟩ := Option.map_eq_some_iff.mp hw
    rw [Decoder.recover_unique hf hr]
    cases hrw
    exact hP
  · intro hP
    exact ⟨fuel, _, _, (hproc fuel).trans (congrArg (Option.map _) hf), hP⟩

end

/-- The fields of a host that are synchronised. -/
def CHost.record (host : CHost) : HostRecord where
  type := host.m_enType
  mac := host.m_oMac
  ipList := host.getIpList
  dpid := host.m_iDpid
  port := host.m_iPortNo
  subnetId := host.m_strSubnetId
  tenantId := host.m_strTenantId
  fixedIp := host.getfixIp

namespace HostRecord

def rest (host : CHost) : List Tlv := (syncHost host).tail.map Tlv.written

def received (host : CHost) : HostRecord :=
  { host.record with
    subnetId := TlvStreams.received host.m_strSubnetId
    tenantId := TlvStreams.received host.m_strTenantId }

variable {host : CHost} {r : HostRecord} {w : ControllerTables} {ips : List UINT4}

theorem rest_eq : rest host = SYNC_DATA_BYTES HOST_MAC host.m_oMac ::
    (host.getIpList.map (SYNC_DATA_INTEGER HOST_IP) ++ [
      SYNC_DATA_INTEGER HOST_SW_DPID host.m_iDpid,
      SYNC_DATA_INTEGER HOST_SW_PORT host.m_iPortNo,
      (SYNC_DATA_STRING HOST_SUBNET_ID host.m_strSubnetId).written,
      (SYNC_DATA_STRING HOST_TENANT_ID host.m_strTenantId).written,
      SYNC_DATA_INTEGER HOST_FIXED_IP host.getfixIp]) := by
  simp [rest, syncHost, Tlv.written_word, Function.comp_def]

theorem first_eq : recoverHostList.first = .word fun type (r, w) => ({ r with type }, w) := rfl

theorem absorb_ips : (ips.map (SYNC_DATA_INTEGER HOST_IP)).foldl (absorb recoverHostList.fields) (r, w) =
    ({ r with ipList := r.ipList ++ ips }, w) := by
  induction ips generalizing r with
  | nil => simp
  | cons ip ips ih =>
    rw [List.map_cons]
    refine (foldl_word rfl).trans ?_
    rw [ih, List.append_assoc, List.singleton_append]

theorem absorb_rest : (rest host).foldl (absorb recoverHostList.fields) ({ zero with type := host.m_enType }, w) =
    (received host, w) := by
  rw [rest_eq]
  refine (foldl_word rfl).trans ?_
  rw [List.foldl_append, absorb_ips]
  refine (foldl_word rfl).trans ?_
  refine (foldl_word rfl).trans ?_
  refine (foldl_text rfl rfl).trans ?_
  refine (foldl_text rfl rfl).trans ?_
  exact (foldl_word rfl).trans rfl

theorem rest_takes : ∀ t ∈ rest host, Takes recoverHostList.fields t := by
  rw [rest_eq]
  simp only [List.forall_mem_cons, List.forall_mem_append, List.forall_mem_map]
  refine ⟨takes_word rfl, fun ip _ => takes_word rfl, takes_word rfl, takes_word rfl, takes_written_text rfl,
    takes_written_text rfl, takes_word rfl, ?_⟩
  simp

theorem rest_fits : (∀ t ∈ rest host, ∀ field, recoverHostList.fields t.type = some field →
      field.get.Fits t.value.length) ↔
    (Get.text 64).Fits ((host.m_strSubnetId.length + 1) % 2 ^ 16) ∧
      (Get.text 64).Fits ((host.m_strTenantId.length + 1) % 2 ^ 16) := by
  rw [rest_eq]
  simp only [List.forall_mem_cons, List.forall_mem_append, List.forall_mem_map]
  constructor
  · rintro ⟨-, -, -, -, hsubnet, htenant, -⟩
    exact ⟨(fits_text rfl).mp hsubnet, (fits_text rfl).mp htenant⟩
  · rintro ⟨hsubnet, htenant⟩
    refine ⟨fits_word rfl, fun ip _ => fits_word rfl, fits_word rfl, fits_word rfl, (fits_text rfl).mpr hsubnet,
      (fits_text rfl).mpr htenant, fits_word rfl, ?_⟩
    simp

theorem rest_last {u : Tlv} : ∀ t ∈ (u :: rest host).getLast?, t.value ≠ [] := by
  intro t ht
  rw [rest_eq, ← List.cons_append, ← List.cons_append, List.getLast?_append] at ht
  obtain rfl := Option.some.inj ht
  exact Tlv.value_word_ne_nil

end HostRecord

def hostRecords : recoverHostList.Records CHost where
  marker host := SYNC_DATA_INTEGER HOST_TYPE host.m_enType
  rest := HostRecord.rest
  begun host := { HostRecord.zero with type := host.m_enType }
  read := HostRecord.received
  flush := HostRecord.addHost
  post w := (BNC_OK, w)
  marker_type _ := rfl
  marker_takes _ := takes_word rfl
  marker_fits _ := fits_word rfl
  first_size _ := length_leBytes.symm
  first_fits _ := length_leBytes.ge
  rest_takes _ := HostRecord.rest_takes
  rest_last _ := HostRecord.rest_last
  store_first _ _ := TlvField.store_word HostRecord.first_eq
  absorb_marker _ _ := (absorb_word rfl).trans rfl
  absorb_rest _ _ := HostRecord.absorb_rest
  finish _ := rfl

theorem copies_natIcmp (entry : CNatIcmpEntry) :
    ∀ t ∈ (syncNatIcmp entry).tail, Decoder.Copies recoverNatIcmpList.fields t := by
  simp only [syncNatIcmp, List.tail_cons, List.forall_mem_cons]
  refine ⟨Decoder.copies_word rfl, Decoder.copies_word rfl, Decoder.copies_word rfl, Decoder.copies_word rfl, ?_⟩
  simp

theorem absorb_natIcmp (entry : CNatIcmpEntry) (w : ControllerTables) :
    (syncNatIcmp entry).tail.foldl (absorb recoverNatIcmpList.fields)
      ({ CNatIcmpEntry.zero with m_identifier := entry.m_identifier }, w) = (entry, w) := by
  refine (foldl_word rfl).trans ?_
  refine (foldl_word rfl).trans ?_
  refine (foldl_word rfl).trans ?_
  exact (foldl_word rfl).trans rfl

def natIcmpRecords : recoverNatIcmpList.Records CNatIcmpEntry :=
  .ofWords (fun m_identifier (r, w) => ({ r with m_identifier }, w))
    (fun m_identifier s => ({ CNatIcmpEntry.zero with m_identifier }, addNatIcmpRecord s))
    CNatIcmpEntry.m_identifier (fun entry => (syncNatIcmp entry).tail)
    (fun entry => { CNatIcmpEntry.zero with m_identifier := entry.m_identifier }) id addNatIcmpRecord
    (fun w => (BNC_OK, w)) rfl rfl copies_natIcmp (fun _ _ => rfl) (fun _ _ => rfl) absorb_natIcmp (fun _ => rfl)

/-- A connection as it is sent. -/
def CSNatConn.sent (snatConn : CSNatConn) : CSNatConn := { snatConn with m_proto := snatConn.hostsProto }

theorem copies_natHost (snatConn : CSNatConn) :
    ∀ t ∈ (syncNatHost snatConn.hostsProto snatConn).tail, Decoder.Copies recoverNatHostList.fields t := by
  simp only [syncNatHost, List.tail_cons, List.forall_mem_cons]
  refine ⟨Decoder.copies_word rfl, Decoder.copies_word rfl, Decoder.copies_word rfl, Decoder.copies_word rfl,
    Decoder.copies_word rfl, Decoder.copies_word rfl, Decoder.copies_word rfl, Decoder.copies_word rfl, ?_⟩
  simp

theorem absorb_natHost (snatConn : CSNatConn) (w : ControllerTables) :
    (syncNatHost snatConn.hostsProto snatConn).tail.foldl (absorb recoverNatHostList.fields)
      ({ CSNatConn.zero with m_proto := snatConn.hostsProto }, w) = (snatConn.sent, w) := by
  refine (foldl_word rfl).trans ?_
  refine (foldl_word rfl).trans ?_
  refine (foldl_word rfl).trans ?_
  refine (foldl_word rfl).trans ?_
  refine (foldl_word rfl).trans ?_
  refine (foldl_word rfl).trans ?_
  refine (foldl_word rfl).trans ?_
  exact (foldl_word rfl).trans rfl

def natHostRecords : recoverNatHostList.Records CSNatConn :=
  .ofWords (fun m_proto (r, w) => ({ r with m_proto }, w))
    (fun m_proto s => ({ CSNatConn.zero with m_proto }, addNatHostRecord s))
    CSNatConn.hostsProto (fun snatConn => (syncNatHost snatConn.hostsProto snatConn).tail)
    (fun snatConn => { CSNatConn.zero with m_proto := snatConn.hostsProto }) CSNatConn.sent addNatHostRecord
    (fun w => (BNC_OK, w)) rfl rfl copies_natHost (fun _ _ => rfl) (fun _ _ => rfl) absorb_natHost (fun _ => rfl)

/-- A link as it arrives. -/
def Neighbor.sent (neigh : Neighbor) : Neighbor := { neigh with state := .ofInt4 neigh.state.toInt4 }

theorem copies_topoLink (neigh : Neighbor) :
    ∀ t ∈ (syncTopoLink0 neigh).tail, Decoder.Copies recoverTopoLinkList.fields t := by
  simp only [syncTopoLink0, List.tail_cons, List.forall_mem_cons]
  refine ⟨Decoder.copies_word rfl, Decoder.copies_word rfl, Decoder.copies_word rfl, Decoder.copies_word rfl,
    Decoder.copies_word rfl, ?_⟩
  simp

theorem absorb_topoLink (neigh : Neighbor) (w : ControllerTables) :
    (syncTopoLink0 neigh).tail.foldl (absorb recoverTopoLinkList.fields)
      ({ Neighbor.zero with state := .ofInt4 neigh.state.toInt4 }, w) = (neigh.sent, w) := by
  refine (foldl_word rfl).trans ?_
  refine (foldl_word rfl).trans ?_
  refine (foldl_word rfl).trans ?_
  refine (foldl_word rfl).trans ?_
  exact (foldl_word rfl).trans rfl

def topoLinkRecords : recoverTopoLinkList.Records Neighbor :=
  .ofWords (fun state (r, w) => ({ r with state := .ofInt4 state }, w))
    (fun state s => ({ Neighbor.zero with state := .ofInt4 state }, addTopoLinkRecord s))
    (fun neigh => neigh.state.toInt4) (fun neigh => (syncTopoLink0 neigh).tail)
    (fun neigh => { Neighbor.zero with state := .ofInt4 neigh.state.toInt4 }) Neighbor.sent addTopoLinkRecord
    (fun w => (BNC_OK, w.notifyPathChanged)) rfl rfl copies_topoLink (fun _ _ => rfl) (fun _ _ => rfl)
    absorb_topoLink (fun _ => rfl)

theorem linkAt_clearPorts {tbl : NeighborTable} {i : Fin neighborMapGranularity} {dpid : UINT8} {port : UINT4} :
    tbl.clearPorts.linkAt i dpid port = none := by
  simp only [NeighborTable.linkAt, NeighborTable.clearPorts, Std.TreeMap.getElem?_map]
  cases (tbl i)[dpid]? <;> simp

/-- The fields of a link that are synchronised. -/
def Neighbor.record (neigh : Neighbor) : INT4 × UINT8 × UINT4 × UINT8 × UINT4 × UINT8 :=
  (neigh.state.toInt4, neigh.srcDpid, neigh.srcPort, neigh.dstDpid, neigh.dstPort, neigh.weight)

theorem SwNeighborState.toInt4_ofInt4 (state : INT4) : (ofInt4 state).toInt4 = state := by
  unfold ofInt4
  split_ifs with h₀ h₁ h₂ h₃
  · exact h₀.symm
  · exact h₁.symm
  · exact h₂.symm
  · exact h₃.symm
  · rfl

theorem Neighbor.record_sent (neigh : Neighbor) : neigh.sent.record = neigh.record := by
  simp only [record, sent, SwNeighborState.toInt4_ofInt4]

namespace SyncedHosts

/-- The arguments of `addHost` for a host that arrives. -/
def args (host : CHost) : HostArgs where
  type := host.m_enType
  mac := host.m_oMac
  ip := host.ip
  moreIps := host.moreIps
  dpid := host.m_iDpid
  port := host.m_iPortNo
  subnetId := received host.m_strSubnetId
  tenantId := received host.m_strTenantId
  fixedIp := host.getfixIp

def Transmittable (host : CHost) : Prop :=
  host.ip ≠ 0 ∧ IsText 64 host.m_strSubnetId ∧ IsText 64 host.m_strTenantId ∧
    (host.m_enType = device_floatingip ∨ host.getfixIp = host.ip)

variable {host : CHost} {hosts : List CHost} {w : ControllerTables}

theorem flush_received (h : host.ip ≠ 0) : HostRecord.addHost (HostRecord.received host, w) =
    { w with hostMgr := w.hostMgr.addHost (args host) } := by
  simp only [HostRecord.addHost, HostRecord.received, CHost.record, CHost.getIpList]
  rw [if_pos h]
  rfl

theorem storeAll_list (hip : ∀ host ∈ hosts, host.ip ≠ 0)
    (hmac : (w.hostMgr.m_list.map CHost.m_oMac ++ hosts.map CHost.m_oMac).Nodup) :
    (hostRecords.storeAll hosts w).hostMgr.m_list = w.hostMgr.m_list ++ hosts.map fun host => (args host).create := by
  induction hosts generalizing w with
  | nil => simp [Decoder.Records.storeAll]
  | cons host hosts ih =>
    obtain ⟨hhost, hhosts⟩ := List.forall_mem_cons.mp hip
    have habsent : ∀ x ∈ w.hostMgr.m_list, x.m_oMac ≠ (args host).mac := by
      intro x hx
      exact (List.nodup_append.mp hmac).2.2 _ (List.mem_map_of_mem hx) _ List.mem_cons_self
    have hadd : (w.hostMgr.addHost (args host)).m_list = w.hostMgr.m_list ++ [(args host).create] :=
      HostArgs.addTo_of_absent habsent
    have hstep : hostRecords.storeAll (host :: hosts) w =
        hostRecords.storeAll hosts { w with hostMgr := w.hostMgr.addHost (args host) } := by
      rw [Decoder.Records.storeAll, List.foldl_cons]
      exact congrArg (hostRecords.storeAll hosts) (flush_received hhost)
    rw [hstep, ih hhosts, hadd, List.map_cons, List.append_assoc]
    · rfl
    · rw [hadd, List.map_append, List.append_assoc]
      exact hmac

theorem record_create : (args host).create.record = host.record ↔
    received host.m_strSubnetId = host.m_strSubnetId ∧ received host.m_strTenantId = host.m_strTenantId ∧
      (host.m_enType = device_floatingip ∨ host.getfixIp = host.ip) := by
  by_cases htype : host.m_enType = device_floatingip
  · simp [CHost.record, HostArgs.create, args, CHost.getIpList, CHost.getfixIp, htype]
  · simp [CHost.record, HostArgs.create, args, CHost.getIpList, CHost.getfixIp, htype, eq_comm]

theorem fits_record : hostRecords.FitsRecord host ∧ (args host).create.record = host.record ↔
    IsText 64 host.m_strSubnetId ∧ IsText 64 host.m_strTenantId ∧
      (host.m_enType = device_floatingip ∨ host.getfixIp = host.ip) := by
  have hfits : hostRecords.FitsRecord host ↔ _ := HostRecord.rest_fits
  rw [hfits, record_create, ← received_iff host.m_strSubnetId (by decide),
    ← received_iff host.m_strTenantId (by decide)]
  tauto

/-- The hosts arrive as they are if and only if all of them can be transmitted. -/
theorem arrives_iff (master : CHostMgr) :
    ((∀ host ∈ master.m_list.filter (·.ip ≠ 0), hostRecords.FitsRecord host) ∧
      ((hostRecords.storeAll (master.m_list.filter (·.ip ≠ 0)) { w with hostMgr := .clear }).hostMgr.m_list.map
        CHost.record = master.m_list.map CHost.record)) ↔ ∀ host ∈ master.m_list, Transmittable host := by
  have hdistinct : ((master.m_list.filter (·.ip ≠ 0)).map CHost.m_oMac).Nodup := by
    rw [List.Nodup, List.pairwise_map]
    exact master.distinct.sublist List.filter_sublist
  have hip : ∀ host ∈ master.m_list.filter (·.ip ≠ 0), host.ip ≠ 0 := by
    intro host hhost
    simpa using (List.mem_filter.mp hhost).2
  rw [storeAll_list (w := { w with hostMgr := .clear }) hip hdistinct]
  have hlist : (CHostMgr.clear.m_list ++ (master.m_list.filter (·.ip ≠ 0)).map fun host => (args host).create).map
      CHost.record = (master.m_list.filter (·.ip ≠ 0)).map fun host => (args host).create.record := by
    simp [CHostMgr.clear]
  rw [hlist, map_filter_eq_map_iff]
  constructor
  · rintro ⟨hfits, hrecords⟩ host hhost
    obtain ⟨hip, hrecord⟩ := hrecords host hhost
    have hip : host.ip ≠ 0 := by simpa using hip
    exact ⟨hip, fits_record.mp ⟨hfits host (List.mem_filter.mpr ⟨hhost, by simpa using hip⟩), hrecord⟩⟩
  · intro h
    constructor
    · intro host hhost
      exact (fits_record.mpr (h host (List.mem_filter.mp hhost).1).2).1
    · intro host hhost
      obtain ⟨hip, hrest⟩ := h host hhost
      exact ⟨by simpa using hip, (fits_record.mpr hrest).2⟩

end SyncedHosts

namespace SyncedNat

variable {w : ControllerTables}

def Transmittable (entry : CNatIcmpEntry) : Prop :=
  entry.m_identifier ≠ 0 ∧ entry.m_host_ip ≠ 0 ∧ entry.m_sw_dpid ≠ 0

instance (entry : CNatIcmpEntry) : Decidable (Transmittable entry) := inferInstanceAs (Decidable (_ ∧ _ ∧ _))

def TransmittableConn (snatConn : CSNatConn) : Prop :=
  (snatConn.m_proto = IPPROTO_TCP ∨ snatConn.m_proto = IPPROTO_UDP) ∧ snatConn.m_external_ip ≠ 0 ∧
    snatConn.m_snat_ip ≠ 0 ∧ snatConn.m_internal_ip ≠ 0 ∧ snatConn.m_snat_port ≠ 0 ∧ snatConn.m_internal_port ≠ 0

instance (snatConn : CSNatConn) : Decidable (TransmittableConn snatConn) := inferInstanceAs (Decidable (_ ∧ _))

theorem natIcmp_storeAll {entries : List CNatIcmpEntry} : (natIcmpRecords.storeAll entries w).natIcmpMap =
    entries.foldl (fun (map : CNatIcmpMap) entry => if Transmittable entry then map.put entry else map)
      w.natIcmpMap := by
  induction entries generalizing w with
  | nil => rfl
  | cons entry entries ih =>
    have hstep : (addNatIcmpRecord (entry, w)).natIcmpMap =
        if Transmittable entry then w.natIcmpMap.put entry else w.natIcmpMap := by
      by_cases h : Transmittable entry
      · rw [if_pos h]
        exact congrArg ControllerTables.natIcmpMap (if_pos h)
      · rw [if_neg h]
        exact congrArg ControllerTables.natIcmpMap (if_neg h)
    rw [List.foldl_cons, ← hstep]
    exact ih

theorem natHost_storeAll {conns : List CSNatConn} : (natHostRecords.storeAll conns w).snatConns =
    conns.foldl (fun (map : CSNatConns) conn => if TransmittableConn conn.sent then map.put conn.sent else map)
      w.snatConns := by
  induction conns generalizing w with
  | nil => rfl
  | cons conn conns ih =>
    have hstep : (addNatHostRecord (conn.sent, w)).snatConns =
        if TransmittableConn conn.sent then w.snatConns.put conn.sent else w.snatConns := by
      by_cases h : TransmittableConn conn.sent
      · rw [if_pos h]
        exact congrArg ControllerTables.snatConns (if_pos h)
      · rw [if_neg h]
        exact congrArg ControllerTables.snatConns (if_neg h)
    rw [List.foldl_cons, ← hstep]
    exact ih

theorem sent_key (conn : CSNatConn) : conn.sent.key = conn.key := by
  by_cases hproto : conn.m_proto = IPPROTO_TCP
  · simp [CSNatConn.key, CSNatConn.sent, CSNatConn.hostsProto, hostKey, hproto]
  · have hudp : ¬ IPPROTO_UDP = IPPROTO_TCP := by decide
    simp [CSNatConn.key, CSNatConn.sent, CSNatConn.hostsProto, hostKey, hproto, hudp]

theorem sent_eq (conn : CSNatConn) :
    conn.sent = conn ↔ conn.m_proto = IPPROTO_TCP ∨ conn.m_proto = IPPROTO_UDP := by
  obtain ⟨proto, _, _, _, _, _, _, _, _⟩ := conn
  simp only [CSNatConn.sent, CSNatConn.hostsProto, CSNatConn.mk.injEq, and_true]
  by_cases hproto : proto = IPPROTO_TCP
  · simp [hproto]
  · simp [hproto, eq_comm]

theorem natIcmp_arrives_iff (master : CNatIcmpMap) :
    (natIcmpRecords.storeAll master.toList { w with natIcmpMap := .empty }).natIcmpMap = master ↔
      ∀ entry ∈ master.toList, Transmittable entry := by
  rw [natIcmp_storeAll]
  have hfold := KeyedMap.foldl_put_filter (g := id) (p := fun entry => Transmittable entry) (fun _ => rfl) master
  simp only [id_eq, decide_eq_true_eq] at hfold
  constructor
  · intro h entry hentry
    rw [h] at hfold
    have hmap := (map_filter_eq_map_iff (h := id)).mp (hfold.symm.trans (List.map_id _).symm)
    simpa using (hmap entry hentry).1
  · intro h
    apply KeyedMap.ext
    refine hfold.trans (((map_filter_eq_map_iff (h := id)).mpr ?_).trans (List.map_id _))
    intro entry hentry
    exact ⟨by simpa using h entry hentry, rfl⟩

theorem transmittable_sent (conn : CSNatConn) :
    TransmittableConn conn.sent ∧ conn.sent = conn ↔ TransmittableConn conn := by
  constructor
  · rintro ⟨h, heq⟩
    exact heq ▸ h
  · intro h
    have heq := (sent_eq conn).mpr h.1
    exact ⟨heq.symm ▸ h, heq⟩

theorem natHost_arrives_iff (master : CSNatConns) :
    (natHostRecords.storeAll master.toList { w with snatConns := .empty }).snatConns = master ↔
      ∀ conn ∈ master.toList, TransmittableConn conn := by
  rw [natHost_storeAll]
  have hfold := KeyedMap.foldl_put_filter (g := CSNatConn.sent)
    (p := fun conn => TransmittableConn conn) sent_key master
  simp only [decide_eq_true_eq] at hfold
  constructor
  · intro h conn hconn
    rw [h] at hfold
    have hmap := (map_filter_eq_map_iff (h := id)).mp (hfold.symm.trans (List.map_id _).symm)
    obtain ⟨htrans, heq⟩ := hmap conn hconn
    exact (transmittable_sent conn).mp ⟨by simpa using htrans, heq⟩
  · intro h
    apply KeyedMap.ext
    refine hfold.trans (((map_filter_eq_map_iff (h := id)).mpr ?_).trans (List.map_id _))
    intro conn hconn
    obtain ⟨htrans, heq⟩ := (transmittable_sent conn).mpr (h conn hconn)
    exact ⟨by simpa using htrans, heq⟩

end SyncedNat

namespace SyncedLinks

variable {w : ControllerTables} {tbl : NeighborTable} {links : List Neighbor} {n x : Neighbor}
  {i : Fin neighborMapGranularity} {dpid : UINT8} {port : UINT4}

/-- The record of a link is stored where it says itself. -/
def Stored (links : List Neighbor) (tbl : NeighborTable) (i : Fin neighborMapGranularity) (dpid : UINT8)
    (port : UINT4) (n : Neighbor) : Prop :=
  (∃ x ∈ links, n = x.sent ∧ x.srcDpid ≠ 0 ∧ x.dstDpid ≠ 0 ∧ i = mapPos x.srcDpid ∧ dpid = x.srcDpid ∧
    port = x.srcPort) ∨ tbl.linkAt i dpid port = some n

theorem storeAll_concat : topoLinkRecords.storeAll (links ++ [x]) w =
    addTopoLinkRecord (x.sent, topoLinkRecords.storeAll links w) := by
  rw [Decoder.Records.storeAll, List.foldl_append]
  rfl

theorem linkAt_addTopoLinkRecord (hsrc : x.srcDpid ≠ 0) (hdst : x.dstDpid ≠ 0) :
    (addTopoLinkRecord (x.sent, w)).neighbors.linkAt i dpid port =
      if i = mapPos x.srcDpid ∧ dpid = x.srcDpid ∧ port = x.srcPort then some x.sent
      else w.neighbors.linkAt i dpid port := by
  have hrecord : addTopoLinkRecord (x.sent, w) = w.recoverLink x.sent := if_pos ⟨hsrc, hdst⟩
  rw [hrecord]
  exact NeighborTable.linkAt_recoverLink hsrc hdst

theorem stored_of_linkAt (h : (topoLinkRecords.storeAll links w).neighbors.linkAt i dpid port = some n) :
    Stored links w.neighbors i dpid port n := by
  induction links using List.reverseRecOn with
  | nil => exact .inr h
  | append_singleton links x ih =>
    have hmono : Stored links w.neighbors i dpid port n → Stored (links ++ [x]) w.neighbors i dpid port n := by
      rintro (⟨y, hy, hrest⟩ | hw)
      · exact .inl ⟨y, List.mem_append_left _ hy, hrest⟩
      · exact .inr hw
    rw [storeAll_concat] at h
    by_cases hx : x.srcDpid ≠ 0 ∧ x.dstDpid ≠ 0
    · rw [linkAt_addTopoLinkRecord hx.1 hx.2] at h
      split_ifs at h with hplace
      · exact .inl ⟨x, by simp, (Option.some.inj h).symm, hx.1, hx.2, hplace⟩
      · exact hmono (ih h)
    · have hskip : addTopoLinkRecord (x.sent, topoLinkRecords.storeAll links w) = topoLinkRecords.storeAll links w :=
        if_neg hx
      rw [hskip] at h
      exact hmono (ih h)

theorem linkAt_of_mem (h : x ∈ links) (hsrc : ∀ y ∈ links, y.srcDpid ≠ 0 ∧ y.dstDpid ≠ 0) :
    ∃ y ∈ links, y.srcDpid = x.srcDpid ∧ y.srcPort = x.srcPort ∧
      (topoLinkRecords.storeAll links w).neighbors.linkAt (mapPos x.srcDpid) x.srcDpid x.srcPort = some y.sent := by
  induction links using List.reverseRecOn with
  | nil => cases h
  | append_singleton links z ih =>
    have hz := hsrc z (by simp)
    rw [storeAll_concat]
    simp only [linkAt_addTopoLinkRecord hz.1 hz.2]
    by_cases hplace : mapPos x.srcDpid = mapPos z.srcDpid ∧ x.srcDpid = z.srcDpid ∧ x.srcPort = z.srcPort
    · exact ⟨z, by simp, hplace.2.1.symm, hplace.2.2.symm, if_pos hplace⟩
    · rcases List.mem_append.mp h with h | h
      · obtain ⟨y, hy, hd, hp, hl⟩ := ih h fun y hy => hsrc y (List.mem_append_left _ hy)
        exact ⟨y, List.mem_append_left _ hy, hd, hp, (if_neg hplace).trans hl⟩
      · obtain rfl := List.mem_singleton.mp h
        exact absurd ⟨rfl, rfl, rfl⟩ hplace

/-- A link that is sent, and stored where the link says itself. -/
structure Transmittable (w : ControllerTables) (i : Fin neighborMapGranularity) (dpid : UINT8) (port : UINT4)
    (n : Neighbor) : Prop where
  sends : w.sendsLink dpid n
  src : n.srcDpid ≠ 0
  dst : n.dstDpid ≠ 0
  pos : i = mapPos n.srcDpid
  dpid : dpid = n.srcDpid
  port : port = n.srcPort

/-- The links that are sent, in their order. -/
def sent (w : ControllerTables) : List Neighbor :=
  (w.neighbors.entries.filter fun e => w.sendsLink e.1 e.2.2).map (·.2.2)

theorem mem_sent : n ∈ sent w ↔ ∃ i dpid port, w.neighbors.linkAt i dpid port = some n ∧ w.sendsLink dpid n := by
  simp only [sent, List.mem_map, List.mem_filter]
  constructor
  · rintro ⟨⟨dpid, port, n'⟩, ⟨hmem, hsend⟩, rfl⟩
    obtain ⟨i, hi⟩ := NeighborTable.mem_entries.mp hmem
    exact ⟨i, dpid, port, hi, hsend⟩
  · rintro ⟨i, dpid, port, hi, hsend⟩
    exact ⟨(dpid, port, n), ⟨NeighborTable.mem_entries.mpr ⟨i, hi⟩, hsend⟩, rfl⟩

theorem sendsLink_congr (h : n.state.toInt4 = x.state.toInt4) : w.sendsLink dpid n = w.sendsLink dpid x := by
  rw [ControllerTables.sendsLink, ControllerTables.sendsLink, h]

variable {master : ControllerTables}

/-- The slave has the links of the master. -/
def Agree (tbl tbl' : NeighborTable) : Prop :=
  ∀ i dpid port, (tbl.linkAt i dpid port).map Neighbor.record = (tbl'.linkAt i dpid port).map Neighbor.record

theorem arrives_iff :
    Agree (topoLinkRecords.storeAll (sent master) { w with neighbors := w.neighbors.clearPorts }).neighbors
        master.neighbors ↔
      ∀ i dpid port n, master.neighbors.linkAt i dpid port = some n → Transmittable master i dpid port n := by
  constructor
  · intro h
    -- what is found in a place on the slave says that it belongs there
    have hplaced : ∀ i dpid port n, master.neighbors.linkAt i dpid port = some n →
        ∃ x ∈ sent master, n.record = x.record ∧ x.srcDpid ≠ 0 ∧ x.dstDpid ≠ 0 ∧ i = mapPos x.srcDpid ∧
          dpid = x.srcDpid ∧ port = x.srcPort := by
      intro i dpid port n hn
      have hagree := h i dpid port
      rw [hn, Option.map_some] at hagree
      obtain ⟨n', hn', hrecord⟩ := Option.map_eq_some_iff.mp hagree
      rcases stored_of_linkAt hn' with ⟨x, hx, rfl, hrest⟩ | hw
      · exact ⟨x, hx, hrecord.symm.trans x.record_sent, hrest⟩
      · rw [linkAt_clearPorts] at hw
        cases hw
    intro i dpid port n hn
    obtain ⟨x, hx, hrecord, hsrc, hdst, hpos, hdpid, hport⟩ := hplaced i dpid port n hn
    obtain ⟨i', dpid', port', hx', hsend⟩ := mem_sent.mp hx
    obtain ⟨y, -, hrecord', -, -, -, hdpid', -⟩ := hplaced i' dpid' port' x hx'
    simp only [Neighbor.record, Prod.mk.injEq] at hrecord hrecord'
    have hd : dpid = dpid' := by rw [hdpid, hdpid', hrecord'.2.1]
    exact {
      sends := by rw [sendsLink_congr hrecord.1, hd]; exact hsend
      src := by rwa [hrecord.2.1]
      dst := by rwa [hrecord.2.2.2.1]
      pos := by rwa [hrecord.2.1]
      dpid := by rwa [hrecord.2.1]
      port := by rwa [hrecord.2.2.1] }
  · intro h i dpid port
    have hsent : ∀ y ∈ sent master, y.srcDpid ≠ 0 ∧ y.dstDpid ≠ 0 ∧
        master.neighbors.linkAt (mapPos y.srcDpid) y.srcDpid y.srcPort = some y := by
      intro y hy
      obtain ⟨i', dpid', port', hy', -⟩ := mem_sent.mp hy
      obtain ⟨-, hsrc, hdst, rfl, rfl, rfl⟩ := h i' dpid' port' y hy'
      exact ⟨hsrc, hdst, hy'⟩
    cases hn : master.neighbors.linkAt i dpid port with
    | some n =>
      obtain ⟨hsends, hsrc, hdst, rfl, rfl, rfl⟩ := h i dpid port n hn
      have hmem : n ∈ sent master := mem_sent.mpr ⟨_, _, _, hn, hsends⟩
      obtain ⟨y, hy, hd, hp, hl⟩ := linkAt_of_mem (w := { w with neighbors := w.neighbors.clearPorts }) hmem
        fun y hy => ⟨(hsent y hy).1, (hsent y hy).2.1⟩
      have hyn : y = n := by
        have hplace := (hsent y hy).2.2
        rw [hd, hp, hn] at hplace
        exact (Option.some.inj hplace).symm
      rw [hl, hyn, Option.map_some, Option.map_some, n.record_sent]
    | none =>
      cases hl : (topoLinkRecords.storeAll (sent master)
          { w with neighbors := w.neighbors.clearPorts }).neighbors.linkAt
          i dpid port with
      | none => rfl
      | some n =>
        rcases stored_of_linkAt hl with ⟨x, hx, -, -, -, rfl, rfl, rfl⟩ | hw
        · rw [(hsent x hx).2.2] at hn
          cases hn
        · rw [linkAt_clearPorts] at hw
          cases hw

end SyncedLinks

inductive SyncedList where
  | hostList
  | natIcmpList
  | natHostList
  | topoLinkList
deriving DecidableEq

namespace SyncedList

def oper : SyncedList → SyncOper
  | hostList => .hostList
  | natIcmpList => .natIcmpList
  | natHostList => .natHostList
  | topoLinkList => .topoLinkList

def tlvs : SyncedList → ControllerTables → List Tlv
  | hostList => syncHostList0
  | natIcmpList => syncNatIcmpList0
  | natHostList => syncNatHostList0
  | topoLinkList => syncTopoLinkList0

/-- The message of the master, if there is one. -/
def message (l : SyncedList) (master : ControllerTables) : Option (List UINT1) :=
  sendReq l.oper.req (fieldMem (l.tlvs master)).1

/-- Two tables are equal on what is synchronised of them. -/
def Agree : SyncedList → ControllerTables → ControllerTables → Prop
  | hostList, w, w' => w.hostMgr.m_list.map CHost.record = w'.hostMgr.m_list.map CHost.record
  | natIcmpList, w, w' => w.natIcmpMap = w'.natIcmpMap
  | natHostList, w, w' => w.snatConns = w'.snatConns
  | topoLinkList, w, w' => SyncedLinks.Agree w.neighbors w'.neighbors

/-- A record of the table is sent. -/
def Sends : SyncedList → ControllerTables → Prop
  | hostList, w => ∃ host ∈ w.hostMgr.m_list, host.ip ≠ 0
  | natIcmpList, w => w.natIcmpMap.toList ≠ []
  | natHostList, w => w.snatConns.toList ≠ []
  | topoLinkList, w => ∃ i dpid port n, w.neighbors.linkAt i dpid port = some n ∧ w.sendsLink dpid n

/-- Every record of the table can be transmitted. -/
def Transmittable : SyncedList → ControllerTables → Prop
  | hostList, w => ∀ host ∈ w.hostMgr.m_list, SyncedHosts.Transmittable host
  | natIcmpList, w => ∀ entry ∈ w.natIcmpMap.toList, SyncedNat.Transmittable entry
  | natHostList, w => ∀ conn ∈ w.snatConns.toList, SyncedNat.TransmittableConn conn
  | topoLinkList, w =>
    ∀ i dpid port n, w.neighbors.linkAt i dpid port = some n → SyncedLinks.Transmittable w i dpid port n

/-- The slave comes to the table of the master, if need be by the message of the master. -/
def Synchronises (l : SyncedList) (master slave : ControllerTables) (q : Request) : Prop :=
  match l.message master with
  | none => l.Agree slave master
  | some _ => Reproduces l.oper q slave (l.Agree · master)

section

variable {L A : Type} {l : SyncedList} {d : Recover L} {master slave : ControllerTables} {q : Request}

theorem synchronises_iff (hrec : l.oper.recovery = .loop d) (rs : d.Records A) {as : List A}
    (hwritten : (l.tlvs master).map Tlv.written = rs.tlvs as) (hstop : (fieldMem (l.tlvs master)).2 = false)
    (hq : ∀ msg ∈ l.message master, Stores q.m q.itf msg) :
    l.Synchronises master slave q ↔
      as ≠ [] ∧ (∀ a ∈ as, rs.FitsRecord a) ∧ l.Agree (rs.post (rs.storeAll as (d.clear slave))).2 master ∨
        as = [] ∧ l.Agree slave master := by
  have hmem := fieldMem_of_not_stopped hstop
  rw [hwritten] at hmem
  cases as with
  | nil =>
    have hnone : l.message master = none := if_pos hmem
    rw [Synchronises, hnone]
    simp
  | cons a as =>
    have hne : (fieldMem (l.tlvs master)).1 ≠ [] := by
      rw [hmem]
      exact List.ne_nil_of_length_pos ((by decide : 0 < 4).trans_le (length_flatMap_bytes_pos (List.cons_ne_nil _ _)))
    obtain ⟨msg, hmsg⟩ : ∃ msg, l.message master = some msg := ⟨_, if_neg hne⟩
    rw [Synchronises, hmsg]
    simp only [ne_eq, List.cons_ne_nil, not_false_eq_true, true_and, false_and, or_false]
    exact reproduces_iff hrec rs hwritten hstop hmsg (hq msg hmsg)

theorem written_hosts : (syncHostList0 master).map Tlv.written =
    hostRecords.tlvs (master.hostMgr.m_list.filter (·.ip ≠ 0)) := by
  have hhost : (fun host => (syncHost host).map Tlv.written) = fun host =>
      SYNC_DATA_INTEGER HOST_TYPE host.m_enType :: HostRecord.rest host := by
    funext host
    rw [syncHost, List.map_cons, Tlv.written_word]
    rfl
  rw [syncHostList0, List.map_flatMap, hhost]
  rfl

theorem hostList_iff (hstop : (fieldMem (syncHostList0 master)).2 = false)
    (hq : ∀ msg ∈ hostList.message master, Stores q.m q.itf msg) :
    hostList.Synchronises master slave q ↔
      hostList.Sends master ∧ hostList.Transmittable master ∨ ¬ hostList.Sends master ∧
        hostList.Agree slave master := by
  have hwritten : (hostList.tlvs master).map Tlv.written = _ := written_hosts
  rw [synchronises_iff rfl hostRecords hwritten hstop hq]
  have hsends : master.hostMgr.m_list.filter (·.ip ≠ 0) ≠ [] ↔ hostList.Sends master := by
    rw [ne_eq, List.filter_eq_nil_iff]
    simp [Sends]
  have harrives := SyncedHosts.arrives_iff (w := slave) master.hostMgr
  rw [← hsends, not_not]
  exact or_congr (and_congr_right fun _ => harrives) Iff.rfl

theorem natIcmpList_iff (hstop : (fieldMem (syncNatIcmpList0 master)).2 = false)
    (hq : ∀ msg ∈ natIcmpList.message master, Stores q.m q.itf msg) :
    natIcmpList.Synchronises master slave q ↔ natIcmpList.Sends master ∧ natIcmpList.Transmittable master ∨
      ¬ natIcmpList.Sends master ∧ natIcmpList.Agree slave master := by
  have hfits (entry : CNatIcmpEntry) : natIcmpRecords.FitsRecord entry := fun t ht => (copies_natIcmp entry t ht).fits
  have hwritten : (natIcmpList.tlvs master).map Tlv.written = natIcmpRecords.tlvs master.natIcmpMap.toList :=
    natIcmpRecords.map_written_tlvs
  rw [synchronises_iff rfl natIcmpRecords hwritten hstop hq, Sends, not_not]
  refine or_congr (and_congr_right fun _ => ?_) Iff.rfl
  rw [and_iff_right fun entry _ => hfits entry]
  exact SyncedNat.natIcmp_arrives_iff master.natIcmpMap

theorem natHostList_iff (hstop : (fieldMem (syncNatHostList0 master)).2 = false)
    (hq : ∀ msg ∈ natHostList.message master, Stores q.m q.itf msg) :
    natHostList.Synchronises master slave q ↔ natHostList.Sends master ∧ natHostList.Transmittable master ∨
      ¬ natHostList.Sends master ∧ natHostList.Agree slave master := by
  have hfits (conn : CSNatConn) : natHostRecords.FitsRecord conn := fun t ht => (copies_natHost conn t ht).fits
  have hwritten : (natHostList.tlvs master).map Tlv.written = natHostRecords.tlvs master.snatConns.toList :=
    natHostRecords.map_written_tlvs
  rw [synchronises_iff rfl natHostRecords hwritten hstop hq, Sends, not_not]
  refine or_congr (and_congr_right fun _ => ?_) Iff.rfl
  rw [and_iff_right fun conn _ => hfits conn]
  exact SyncedNat.natHost_arrives_iff master.snatConns

theorem topoLinkList_iff (hstop : (fieldMem (syncTopoLinkList0 master)).2 = false)
    (hq : ∀ msg ∈ topoLinkList.message master, Stores q.m q.itf msg) :
    topoLinkList.Synchronises master slave q ↔ topoLinkList.Sends master ∧ topoLinkList.Transmittable master ∨
      ¬ topoLinkList.Sends master ∧ topoLinkList.Agree slave master := by
  have hfits (neigh : Neighbor) : topoLinkRecords.FitsRecord neigh := fun t ht => (copies_topoLink neigh t ht).fits
  have hwritten : (topoLinkList.tlvs master).map Tlv.written = topoLinkRecords.tlvs (SyncedLinks.sent master) :=
    topoLinkRecords.map_written_tlvs
  have hsends : SyncedLinks.sent master ≠ [] ↔ topoLinkList.Sends master := by
    rw [ne_eq, List.eq_nil_iff_forall_not_mem, not_forall]
    simp only [SyncedLinks.mem_sent, not_not]
    constructor
    · rintro ⟨n, i, dpid, port, h⟩
      exact ⟨i, dpid, port, n, h⟩
    · rintro ⟨i, dpid, port, n, h⟩
      exact ⟨n, i, dpid, port, h⟩
  rw [synchronises_iff rfl topoLinkRecords hwritten hstop hq, ← hsends, not_not]
  refine or_congr (and_congr_right fun _ => ?_) Iff.rfl
  rw [and_iff_right fun neigh _ => hfits neigh]
  exact SyncedLinks.arrives_iff

end

/-- The slave comes to the master's table if and only if there is a record to send and all of them can be transmitted,
or there is none and the tables agree already. -/
theorem list_sync_iff (l : SyncedList) (master slave : ControllerTables) (q : Request)
    (hstop : (fieldMem (l.tlvs master)).2 = false) (hq : ∀ msg ∈ l.message master, Stores q.m q.itf msg) :
    l.Synchronises master slave q ↔
      l.Sends master ∧ l.Transmittable master ∨ ¬ l.Sends master ∧ l.Agree slave master := by
  cases l with
  | hostList => exact hostList_iff hstop hq
  | natIcmpList => exact natIcmpList_iff hstop hq
  | natHostList => exact natHostList_iff hstop hq
  | topoLinkList => exact topoLinkList_iff hstop hq

/-- Tables with one ICMP entry. -/
def oneIcmp : ControllerTables := { ControllerTables.empty with natIcmpMap := KeyedMap.empty.put ⟨1, 2, 0, 3, 4⟩ }

theorem oneIcmp_synchronises : natIcmpList.Synchronises oneIcmp .empty
    ⟨memoryOf ((natIcmpList.message oneIcmp).getD []), 0⟩ := by
  refine (list_sync_iff natIcmpList oneIcmp .empty _ (by decide) ?_).mpr (.inl ⟨?_, ?_⟩)
  · intro msg hmsg
    rw [Option.mem_def.mp hmsg, Option.getD_some]
    exact stores_memoryOf
  · show oneIcmp.natIcmpMap.toList ≠ []
    decide
  · show ∀ entry ∈ oneIcmp.natIcmpMap.toList, SyncedNat.Transmittable entry
    decide

/-- Nothing is sent of an empty table, and the slave keeps what it has. -/
theorem empty_not_synchronised : ¬ ∀ (l : SyncedList) (master slave : ControllerTables) (q : Request),
    (fieldMem (l.tlvs master)).2 = false → (∀ msg ∈ l.message master, Stores q.m q.itf msg) →
      l.Synchronises master slave q := by
  intro h
  have hagree := h .natIcmpList .empty oneIcmp ⟨memoryOf [], 0⟩ (by decide) (fun _ hmsg => by cases hmsg)
  have hmap : oneIcmp.natIcmpMap = .empty := hagree
  exact absurd (congrArg KeyedMap.toList hmap) (by decide)

end SyncedList

end DCFabric
