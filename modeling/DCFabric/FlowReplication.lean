import DCFabric.FlowEffects
import DCFabric.KeyedReplication

namespace DCFabric

open KeyedReplication ListUpdates TlvStreams TransitionRuns

namespace Replicated

variable {s s' : Replicated} {r : Report} {c : CFlowCache} {requests : List FlowSync}

/-- The key of an entry of a switch. -/
def recordKey (d : UINT8) (e : gn_flow_t) : UINT8 × List UINT1 := (d, e.uuid)

structure Invariant (s : Replicated) : Prop where
  keyed : s.cache.WellKeyed
  texts : ∀ d t, ∀ e ∈ s.cache.flows d t, e.m_uuid ≠ [] ∧ IsText UUID_LEN e.m_uuid
  requests : ∀ sync ∈ s.requests, IsText UUID_LEN sync.uuid ∧ sync.uuid ≠ []
  live : ∀ d t, ∀ e ∈ s.cache.flows d t, ∀ d', .syncDelFlowEntry d' e.m_uuid ∉ s.requests
  apart : s.slave.flowCache.Apart
  reported : s.slave.reported = []
  agrees : ∀ d t, Agrees (recordKey d) ((s.cache.flows d t).map CFlow.record)
    ((s.slave.flowCache.flows d t).map CFlow.record) (s.requests.map FlowSync.request)

theorem add_mem_requests {d : UINT8} {uuid : List UINT1} :
    .add (d, uuid) ∈ requests.map FlowSync.request ↔ .syncAddFlowEntry d uuid ∈ requests :=
  List.mem_map_of_injective FlowSync.request_injective (a := .syncAddFlowEntry d uuid)

theorem remove_mem_requests {d : UINT8} {uuid : List UINT1} :
    .remove (d, uuid) ∈ requests.map FlowSync.request ↔ .syncDelFlowEntry d uuid ∈ requests :=
  List.mem_map_of_injective FlowSync.request_injective (a := .syncDelFlowEntry d uuid)

theorem Synchronised.invariant (h : s.Synchronised) : s.Invariant where
  keyed := h.keyed
  texts := h.uuids
  requests := by simp [h.requests]
  live := by simp [h.requests]
  apart := by
    apply h.keyed.toApart.of_map
    intro d t
    have huuids := congrArg (List.map gn_flow_t.uuid) (h.agree d t)
    rw [List.map_map, List.map_map] at huuids
    exact huuids
  reported := h.reported
  agrees d t := by
    rw [h.requests, List.map_nil, agrees_nil_iff]
    exact (h.agree d t).symm

theorem Invariant.agree (h : s.Invariant) (hrequests : s.requests = []) : s.Agree := by
  intro d t
  have hagrees := h.agrees d t
  rw [hrequests, List.map_nil, agrees_nil_iff] at hagrees
  exact hagrees.symm

theorem Invariant.distinct (h : s.Invariant) (d : UINT8) (t : UINT1) :
    ((s.cache.flows d t).map CFlow.record).Pairwise (recordKey d · ≠ recordKey d ·) := by
  rw [List.pairwise_map]
  refine (h.keyed.keyed d t).uuids.imp ?_
  intro a b hne heq
  exact hne (congrArg Prod.snd heq)

theorem Invariant.added (h : s.Invariant) {d d' : UINT8} {t t' : UINT1} {e : CFlow} (hunused : s.cache.Unused e.m_uuid)
    (hrequests : ∀ sync ∈ s.requests, sync.uuid ≠ e.m_uuid) :
    Agrees (recordKey d') (((s.cache.setFlowList d t (s.cache.flows d t ++ [e])).flows d' t').map CFlow.record)
      ((s.slave.flowCache.flows d' t').map CFlow.record)
      ((s.requests ++ [FlowSync.syncAddFlowEntry d e.m_uuid]).map FlowSync.request) := by
  have hkey : ∀ x ∈ (s.cache.flows d' t').map CFlow.record, recordKey d' x ≠ (d, e.m_uuid) := by
    intro x hx heq
    obtain ⟨y, hy, rfl⟩ := List.mem_map.mp hx
    exact hunused d' t' y hy (congrArg Prod.snd heq)
  rw [List.map_append]
  by_cases hd : d' = d ∧ t' = t
  · obtain ⟨rfl, rfl⟩ := hd
    rw [CFlowCache.flows_setFlowList, List.map_append]
    apply (h.agrees d' t').concat (e := e.record) _ hkey
    intro hmem
    exact hrequests _ (add_mem_requests.mp hmem) rfl
  · rw [CFlowCache.flows_setFlowList_ne hd]
    exact (h.agrees d' t').concat_other hkey

theorem Invariant.changed (h : s.Invariant) {d d' : UINT8} {t t' : UINT1} {g : CFlow → CFlow}
    (huuid : ∀ e, (g e).m_uuid = e.m_uuid)
    (hrecord : ∀ e ∈ s.cache.flows d t, (g e).record = e.record ∨ .syncAddFlowEntry d e.m_uuid ∈ s.requests) :
    Agrees (recordKey d') (((s.cache.setFlowList d t ((s.cache.flows d t).map g)).flows d' t').map CFlow.record)
      ((s.slave.flowCache.flows d' t').map CFlow.record) (s.requests.map FlowSync.request) := by
  by_cases hd : d' = d ∧ t' = t
  · obtain ⟨rfl, rfl⟩ := hd
    have hkey : ∀ e ∈ s.cache.flows d' t', recordKey d' (g e).record = recordKey d' e.record :=
      fun e _ => congrArg (Prod.mk d') (huuid e)
    rw [CFlowCache.flows_setFlowList, List.map_map]
    apply (h.agrees d' t').replace (h.distinct d' t')
    · rw [List.map_map, List.map_map]
      exact List.map_congr_left hkey
    · intro k hk
      apply entry_congr hkey
      intro e he heq
      rcases hrecord e he with hsame | hsent
      · exact hsame
      · rw [← heq] at hk
        exact absurd (add_mem_requests.mpr hsent) hk
  · rw [CFlowCache.flows_setFlowList_ne hd]
    exact h.agrees d' t'

theorem Invariant.removed (h : s.Invariant) {d d' : UINT8} {t' : UINT1} {uuids : List (List UINT1)} :
    Agrees (recordKey d')
      (((s.cache.flows d' t').filter fun e => ¬ (d' = d ∧ e.m_uuid ∈ uuids)).map CFlow.record)
      ((s.slave.flowCache.flows d' t').map CFlow.record)
      ((s.requests ++ uuids.map (FlowSync.syncDelFlowEntry d)).map FlowSync.request) := by
  have hrequests : (s.requests ++ uuids.map (FlowSync.syncDelFlowEntry d)).map FlowSync.request =
      s.requests.map FlowSync.request ++ (uuids.map (Prod.mk d)).map .remove := by
    rw [List.map_append, List.map_map, List.map_map]
    rfl
  rw [hrequests]
  convert (h.agrees d' t').filter (uuids.map (Prod.mk d)) using 1
  rw [List.filter_map]
  congr 1
  apply List.filter_congr
  intro e _
  have hmem : recordKey d' e.record ∈ uuids.map (Prod.mk d) ↔ d' = d ∧ e.m_uuid ∈ uuids := by
    simp [recordKey, CFlow.record, eq_comm, and_comm]
  simp only [Function.comp_apply, hmem]

theorem Invariant.operate (h : s.Invariant) (ha : s.Announced (.operate r)) (hd : s.Delivers (.operate r)) :
    Invariant { s.setCache (s.cache.consume r.event).cache with
      requests := s.requests ++ (s.cache.consume r.event).syncs } := by
  have hkeyed : (s.cache.consume r.event).cache.WellKeyed := by
    apply h.keyed.consume
    · rw [Report.event]
      cases hr : r.command with
      | add => exact (hd hr).2.2.1
      | _ => trivial
    · rw [Report.event]
      cases r.command <;> trivial
  have heffect := effect h.keyed ha hd
  generalize (s.cache.consume r.event).cache = c at hkeyed heffect ⊢
  generalize (s.cache.consume r.event).syncs = syncs at heffect ⊢
  cases heffect with
  | added d t e flows text unused requests =>
    have hmem {d' : UINT8} {t' : UINT1} {x : CFlow} (hx : x ∈ c.flows d' t') : x ∈ s.cache.flows d' t' ∨ x = e := by
      rw [flows] at hx
      by_cases hd : d' = d ∧ t' = t
      · obtain ⟨rfl, rfl⟩ := hd
        rw [CFlowCache.flows_setFlowList] at hx
        exact (List.mem_append.mp hx).imp_right List.mem_singleton.mp
      · rw [CFlowCache.flows_setFlowList_ne hd] at hx
        exact .inl hx
    refine ⟨hkeyed, ?_, ?_, ?_, h.apart, h.reported, ?_⟩
    · intro d' t' x hx
      rcases hmem hx with hx | rfl
      · exact h.texts d' t' x hx
      · exact text
    · refine List.forall_mem_append.mpr ⟨h.requests, ?_⟩
      simp [FlowSync.uuid, text]
    · intro d' t' x hx d''
      have hnew : .syncDelFlowEntry d'' x.m_uuid ∉ [FlowSync.syncAddFlowEntry d e.m_uuid] := by simp
      refine fun hdel => (List.mem_append.mp hdel).elim ?_ hnew
      rcases hmem hx with hx | rfl
      · exact h.live d' t' x hx d''
      · exact fun hdel => requests _ hdel rfl
    · intro d' t'
      change Agrees _ ((c.flows d' t').map CFlow.record) _ _
      rw [flows]
      exact h.added unused requests
  | changed d t g flows uuid record =>
    have hmem {d' : UINT8} {t' : UINT1} {x : CFlow} (hx : x ∈ c.flows d' t') :
        ∃ y ∈ s.cache.flows d' t', x.m_uuid = y.m_uuid := by
      rw [flows] at hx
      by_cases hd : d' = d ∧ t' = t
      · obtain ⟨rfl, rfl⟩ := hd
        rw [CFlowCache.flows_setFlowList] at hx
        obtain ⟨y, hy, rfl⟩ := List.mem_map.mp hx
        exact ⟨y, hy, uuid y⟩
      · rw [CFlowCache.flows_setFlowList_ne hd] at hx
        exact ⟨x, hx, rfl⟩
    rw [List.append_nil]
    refine ⟨hkeyed, ?_, h.requests, ?_, h.apart, h.reported, ?_⟩
    · intro d' t' x hx
      obtain ⟨y, hy, heq⟩ := hmem hx
      rw [heq]
      exact h.texts d' t' y hy
    · intro d' t' x hx d''
      obtain ⟨y, hy, heq⟩ := hmem hx
      rw [heq]
      exact h.live d' t' y hy d''
    · intro d' t'
      change Agrees _ ((c.flows d' t').map CFlow.record) _ _
      rw [flows]
      exact h.changed uuid record
  | removed d uuids flows live =>
    have hmem {d' : UINT8} {t' : UINT1} {x : CFlow} (hx : x ∈ c.flows d' t') :
        x ∈ s.cache.flows d' t' ∧ ¬ (d' = d ∧ x.m_uuid ∈ uuids) := by
      rw [flows] at hx
      exact (List.mem_filter.mp hx).imp_right of_decide_eq_true
    refine ⟨hkeyed, ?_, ?_, ?_, h.apart, h.reported, ?_⟩
    · intro d' t' x hx
      exact h.texts d' t' x (hmem hx).1
    · refine List.forall_mem_append.mpr ⟨h.requests, List.forall_mem_map.mpr ?_⟩
      intro uuid huuid
      obtain ⟨t, e, he, rfl⟩ := live uuid huuid
      exact (h.texts d t e he).symm
    · intro d' t' x hx d'' hdel
      obtain ⟨hx, hstays⟩ := hmem hx
      rcases List.mem_append.mp hdel with hdel | hdel
      · exact h.live d' t' x hx d'' hdel
      · obtain ⟨uuid, huuid, heq⟩ := List.mem_map.mp hdel
        obtain ⟨rfl, rfl⟩ := FlowSync.syncDelFlowEntry.inj heq
        obtain ⟨t, e, he, heq⟩ := live x.m_uuid huuid
        exact hstays ⟨(h.keyed.apart _ _ _ _ x hx e he heq.symm).1, huuid⟩
    · intro d' t'
      change Agrees _ ((c.flows d' t').map CFlow.record) _ _
      rw [flows]
      exact h.removed

section

variable {d d' : UINT8} {t : UINT1} {uuid : List UINT1} {e flow : CFlow} {slave : ControllerTables}

theorem Invariant.tail {sync : FlowSync} (h : s.Invariant) (hreq : s.requests = sync :: requests) :
    (∀ sync ∈ requests, IsText UUID_LEN sync.uuid ∧ sync.uuid ≠ []) ∧
      ∀ d t, ∀ e ∈ s.cache.flows d t, ∀ d', .syncDelFlowEntry d' e.m_uuid ∉ requests := by
  constructor
  · intro sync' hsync
    exact h.requests sync' (hreq ▸ List.mem_cons_of_mem sync hsync)
  · intro d t e he d' hdel
    exact h.live d t e he d' (hreq ▸ List.mem_cons_of_mem sync hdel)

/-- An entry that the slave has is the master's, unless its deletion is under way. -/
theorem Invariant.stays (h : s.Invariant) (he : e ∈ s.slave.flowCache.flows d t)
    (hdel : .syncDelFlowEntry d e.m_uuid ∉ s.requests) : ∃ x ∈ s.cache.flows d t, x.m_uuid = e.m_uuid := by
  have hagrees := h.agrees d t
  rw [Agrees] at hagrees
  have hmem : e.record ∈ (s.cache.flows d t).map CFlow.record := by
    rw [hagrees]
    apply List.mem_append_left
    refine List.mem_filter.mpr ⟨List.mem_map_of_mem he, decide_eq_true ?_⟩
    exact fun hremove => hdel (remove_mem_requests.mp hremove)
  obtain ⟨x, hx, heq⟩ := List.mem_map.mp hmem
  exact ⟨x, hx, congrArg gn_flow_t.uuid heq⟩

/-- Nothing is sent for an entry that has been deleted. -/
theorem Invariant.skip (h : s.Invariant) (hreq : s.requests = .syncAddFlowEntry d uuid :: requests)
    (hflow : s.cache.findFlow d uuid = none) : Invariant { s with requests } := by
  obtain ⟨htexts, hlive⟩ := h.tail hreq
  refine ⟨h.keyed, h.texts, htexts, hlive, h.apart, h.reported, ?_⟩
  intro d' t
  have hagrees := h.agrees d' t
  rw [hreq, List.map_cons] at hagrees
  apply hagrees.take_add_none
  rw [entry_none]
  intro x hx heq
  obtain ⟨e, he, rfl⟩ := List.mem_map.mp hx
  obtain ⟨rfl, huuid⟩ := Prod.mk.inj heq
  exact CFlowCache.findFlow_eq_none hflow t e he huuid

theorem Invariant.taken_over (h : s.Invariant) (hreq : s.requests = .syncAddFlowEntry d uuid :: requests)
    (hflow : s.cache.findFlow d uuid = some flow) (hsw : e.m_sw.dpid = d) (hrecord : e.record = flow.record)
    (hcache : slave.flowCache = (s.slave.flowCache.recoverFlow e).cache) (hreported : slave.reported = []) :
    Invariant { s with requests, slave } := by
  obtain ⟨htexts, hlive⟩ := h.tail hreq
  obtain ⟨t, hmem, rfl⟩ := CFlowCache.findFlow_eq_some hflow
  have huuid : e.m_uuid = flow.m_uuid := congrArg gn_flow_t.uuid hrecord
  have htable : e.m_table_id = t :=
    (congrArg gn_flow_t.table_id hrecord).trans ((h.keyed.keyed d t).addressed flow hmem).2
  have hpending : .remove (d, flow.m_uuid) ∉ requests.map FlowSync.request :=
    fun hremove => hlive d t flow hmem d (remove_mem_requests.mp hremove)
  have hentry : entry (recordKey d) ((s.cache.flows d t).map CFlow.record) (d, flow.m_uuid) = some flow.record :=
    entry_of_mem (h.distinct d t) (List.mem_map_of_mem hmem)
  have hagrees (d' : UINT8) (t' : UINT1) : Agrees (recordKey d') ((s.cache.flows d' t').map CFlow.record)
      ((s.slave.flowCache.flows d' t').map CFlow.record)
      (.add (d, flow.m_uuid) :: requests.map FlowSync.request) := by
    have hagrees := h.agrees d' t'
    rwa [hreq, List.map_cons] at hagrees
  have hnew : ∀ t', ∀ x ∈ s.slave.flowCache.flows d t', x.m_uuid ≠ e.m_uuid := by
    intro t' x hx heq
    have hdel : .syncDelFlowEntry d x.m_uuid ∉ s.requests := by
      rw [heq, huuid]
      exact h.live d t flow hmem d
    obtain ⟨y, hy, huuid'⟩ := h.stays hx hdel
    obtain ⟨-, rfl⟩ := h.keyed.apart d t' d t y hy flow hmem (huuid'.trans (heq.trans huuid))
    apply (hagrees d t').absent (h.distinct d t') hentry hpending x.record (List.mem_map_of_mem hx)
    exact congrArg (Prod.mk d) (heq.trans huuid)
  have hrecovered : slave.flowCache =
      s.slave.flowCache.setFlowList d t (s.slave.flowCache.flows d t ++ [e]) := by
    rw [hcache, CFlowCache.cache_recoverFlow, hsw, htable]
    · rw [huuid]
      exact (h.texts d t flow hmem).1
    · rw [hsw]
      exact hnew _
  refine ⟨h.keyed, h.texts, htexts, hlive, ?_, hreported, ?_⟩
  · show slave.flowCache.Apart
    rw [hrecovered]
    exact h.apart.concat hnew
  · intro d' t'
    show Agrees _ ((s.cache.flows d' t').map CFlow.record) ((slave.flowCache.flows d' t').map CFlow.record) _
    rw [hrecovered]
    by_cases hd : d' = d ∧ t' = t
    · obtain ⟨rfl, rfl⟩ := hd
      rw [CFlowCache.flows_setFlowList, List.map_append, List.map_singleton, hrecord]
      exact (hagrees d' t').take_add hentry hpending
    · rw [CFlowCache.flows_setFlowList_ne hd]
      apply (hagrees d' t').take_add_none
      rw [entry_none]
      intro x hx heq
      obtain ⟨y, hy, rfl⟩ := List.mem_map.mp hx
      obtain ⟨rfl, huuid'⟩ := Prod.mk.inj heq
      exact hd (h.keyed.apart d' t' d' t y hy flow hmem huuid')

theorem Invariant.deleted (h : s.Invariant) (hreq : s.requests = .syncDelFlowEntry d flow.m_uuid :: requests)
    (hsw : flow.m_sw.dpid = d) (hcache : slave.flowCache = (s.slave.flowCache.delFlowStrict flow).cache)
    (hreported : slave.reported = []) : Invariant { s with requests, slave } := by
  obtain ⟨htexts, hlive⟩ := h.tail hreq
  have hne : flow.m_uuid ≠ [] := (h.requests (.syncDelFlowEntry d flow.m_uuid) (hreq ▸ List.mem_cons_self)).2
  have hflows (d' : UINT8) (t' : UINT1) := h.apart.flows_delFlowStrict (d := d') (t := t') hne
  rw [← hcache, hsw] at hflows
  refine ⟨h.keyed, h.texts, htexts, hlive, ?_, hreported, ?_⟩
  · apply h.apart.sublist
    intro d' t'
    rw [hflows]
    exact List.filter_sublist
  · intro d' t'
    have hagrees := h.agrees d' t'
    rw [hreq, List.map_cons] at hagrees
    show Agrees _ ((s.cache.flows d' t').map CFlow.record) ((slave.flowCache.flows d' t').map CFlow.record) _
    convert hagrees.take_remove using 1
    rw [hflows, List.filter_map]
    congr 1
    apply List.filter_congr
    intro e _
    exact decide_eq_decide.mpr (not_congr Prod.mk_inj.symm)

theorem encoded_add : s.master.encoded (.addFlowEntry d uuid) =
    (s.cache.findFlow d uuid).map fun flow => (fieldMem (syncFlowEntry d flow)).1 := by
  rw [SyncMaster.encoded, syncAddFlowEntry0, Option.map_map]
  rfl

theorem consumeReported_report {event : CFlowCache.Event} (h : slave.reported = []) :
    (slave.report event).consumeReported =
      { slave with flowCache := (slave.flowCache.consume event).cache, reported := [] } := by
  simp [ControllerTables.report, ControllerTables.consumeReported, h]

theorem Invariant.replay_add {m : Memory} {data fuel : ℕ} (h : s.Invariant)
    (hreq : s.requests = .syncAddFlowEntry d uuid :: requests) (hd : s.Delivers (.replay m data fuel))
    (hs : s.step (.replay m data fuel) = some s') : s'.Invariant := by
  have hdelivers := hd (.syncAddFlowEntry d uuid) (by rw [hreq]; rfl)
  obtain ⟨hswitch, htransmit⟩ := hdelivers
  rw [step, hreq] at hs
  dsimp only [FlowSync.call] at hs
  rw [encoded_add] at hs
  cases hflow : s.cache.findFlow d uuid with
  | none =>
    rw [hflow] at hs
    obtain rfl := Option.some.inj hs
    exact h.skip hreq hflow
  | some flow =>
    obtain ⟨hkinds, htransmittable⟩ := htransmit flow hflow
    obtain ⟨t, hmem, -⟩ := CFlowCache.findFlow_eq_some hflow
    have htext := (h.texts d t flow hmem).2
    rw [hflow, Option.map_some] at hs
    dsimp only at hs
    split_ifs at hs with hstores
    obtain ⟨r, hr, rfl⟩ := Option.map_eq_some_iff.mp hs
    rw [fieldMem_entry htext hkinds] at hstores hr
    obtain ⟨sw, hsw⟩ := Option.isSome_iff_exists.mp hswitch
    obtain ⟨fuel', hr'⟩ := EntryRecovery.recover_entry (o := .add) s.slave htext
      (fun i hi => ⟨hkinds i hi, htransmittable.kinds i hi⟩) hstores
    obtain rfl := Decoder.recover_unique hr hr'
    have hsome : s.slave.getSwitchByDpid d = some sw := hsw
    have hdpid : sw.dpid = d := by simpa using List.find?_some hsome
    have hclear : EntryRecovery.add.decoder.clear s.slave = s.slave := rfl
    rw [hsome, hclear]
    dsimp only
    rw [consumeReported_report h.reported]
    exact h.taken_over hreq hflow hdpid
      (EntryRecovery.record_entry.mpr ⟨htransmittable.match_type, htransmittable.attachable⟩) rfl rfl

theorem Invariant.replay_del {m : Memory} {data fuel : ℕ} (h : s.Invariant)
    (hreq : s.requests = .syncDelFlowEntry d uuid :: requests) (hd : s.Delivers (.replay m data fuel))
    (hs : s.step (.replay m data fuel) = some s') : s'.Invariant := by
  obtain ⟨hswitch, -⟩ := hd (.syncDelFlowEntry d uuid) (by rw [hreq]; rfl)
  have htext : IsText UUID_LEN uuid := (h.requests (.syncDelFlowEntry d uuid) (hreq ▸ List.mem_cons_self)).1
  rw [step, hreq] at hs
  dsimp only [FlowSync.call, SyncMaster.encoded] at hs
  split_ifs at hs with hstores
  obtain ⟨r, hr, rfl⟩ := Option.map_eq_some_iff.mp hs
  obtain rfl := Option.some.inj hr
  obtain ⟨sw, hsw⟩ := Option.isSome_iff_exists.mp hswitch
  have hsome : s.slave.getSwitchByDpid d = some sw := hsw
  have hdpid : sw.dpid = d := by simpa using List.find?_some hsome
  rw [recover_delFlowEntry s.slave htext hstores, hsome]
  dsimp only
  rw [consumeReported_report h.reported]
  have hsw : (CFlow.assign ⟨sw.address, sw.dpid⟩ { gn_flow_t.zero with uuid }).m_sw.dpid = d := hdpid
  refine Invariant.deleted h ?_ hsw rfl rfl
  exact hreq

end

theorem Invariant.step {a : Action} (h : s.Invariant) (hd : s.Delivers a) (ha : s.Announced a)
    (hs : s.step a = some s') : s'.Invariant := by
  cases a with
  | operate r =>
    obtain rfl := Option.some.inj hs
    exact h.operate ha hd
  | replay m data fuel =>
    cases hreq : s.requests with
    | nil =>
      rw [Replicated.step, hreq] at hs
      cases hs
    | cons sync requests =>
      cases sync with
      | syncAddFlowEntry d uuid => exact h.replay_add hreq hd hs
      | syncDelFlowEntry d uuid => exact h.replay_del hreq hd hs

theorem progresses (s : Replicated) : s.Progresses := by
  intro sync hsync m data hstores
  obtain ⟨requests, hreq⟩ := List.head?_eq_some_iff.mp hsync
  cases hbytes : s.master.encoded sync.call with
  | none =>
    refine ⟨0, ?_⟩
    rw [Replicated.step, hreq]
    dsimp only
    rw [hbytes]
    rfl
  | some bytes =>
    obtain ⟨fuel, hfuel⟩ := recover_returns (w := s.slave) hbytes (hstores bytes hbytes)
    refine ⟨fuel, ?_⟩
    rw [Replicated.step, hreq]
    dsimp only
    rw [hbytes]
    dsimp only
    rw [if_pos (hstores bytes hbytes), Option.isSome_map]
    exact hfuel

/-- A replay leaves the master alone. -/
theorem replay_frame {m : Memory} {data fuel : ℕ} {sync : FlowSync} (hreq : s.requests = sync :: requests)
    (hs : s.step (.replay m data fuel) = some s') : s'.master = s.master ∧ s'.requests = requests := by
  rw [Replicated.step, hreq] at hs
  dsimp only at hs
  split at hs
  · obtain rfl := Option.some.inj hs
    exact ⟨rfl, rfl⟩
  · split_ifs at hs
    obtain ⟨r, -, rfl⟩ := Option.map_eq_some_iff.mp hs
    exact ⟨rfl, rfl⟩

/-- Where no entry changes its instructions after it has been sent, the caches are the same whenever nothing is under
way. -/
theorem replayed_entries_agree (s₀ s : Replicated) (hs₀ : s₀.Synchronised)
    (hrun : Run step (fun s a => s.Delivers a ∧ s.Announced a) s₀ s) : s.Progresses ∧ (s.requests = [] → s.Agree) := by
  have hinvariant : s.Invariant := by
    apply hrun.invariant _ hs₀.invariant
    rintro s a s' h ⟨hd, ha⟩ hs
    exact h.step hd ha hs
  exact ⟨s.progresses, hinvariant.agree⟩

def instructed (port : UINT4) : CFlow := EntryRecovery.withInstructions [.apply_actions (EntryRecovery.outputTo port)]

def reportOf (command : FlowTables.Command) (port : UINT4) : Report := ⟨command, instructed port, [1], 0⟩

/-- Two controllers that know a switch, and no entries. -/
def unused : Replicated := ⟨⟨.empty, [], 0, []⟩, [], EntryRecovery.slaveOf 7⟩

/-- The master has an entry that the slave is to take over. -/
def announcing : Replicated :=
  { unused.setCache (CFlowCache.clear.setFlowList 7 0 [instructed 2]) with requests := [.syncAddFlowEntry 7 [1]] }

def sent : List UINT1 := (fieldMem (syncFlowEntry 7 (instructed 2))).1

theorem unused_synchronised : unused.Synchronised where
  requests := rfl
  reported := rfl
  keyed := .clear
  uuids := by
    intro d t e he
    cases he
  agree := fun _ _ => rfl

theorem operate_unused : unused.step (.operate (reportOf .add 2)) = some announcing := rfl

theorem delivers_add : unused.Delivers (.operate (reportOf .add 2)) := by
  refine fun _ => ⟨by decide, ⟨by decide, by decide⟩, ?_, ?_⟩
  · intro d t e he
    cases he
  · intro sync hsync
    cases hsync

theorem delivers_sent (fuel : ℕ) : announcing.Delivers (.replay (memoryOf sent) 0 fuel) := by
  intro sync hsync
  obtain rfl := Option.some.inj hsync
  refine ⟨rfl, ?_⟩
  intro flow hflow
  obtain rfl : instructed 2 = flow := Option.some.inj hflow
  refine ⟨by decide, rfl, by decide, by decide, ?_⟩
  intro actions actions' hwrite
  cases List.mem_singleton.mp hwrite

theorem sent_replayed : ∃ fuel, ∃ s, announcing.step (.replay (memoryOf sent) 0 fuel) = some s := by
  have hstores : ∀ bytes ∈ announcing.master.encoded (.addFlowEntry 7 [1]), Stores (memoryOf sent) 0 bytes := by
    intro bytes hbytes
    obtain rfl := Option.some.inj hbytes
    exact stores_memoryOf
  obtain ⟨fuel, hfuel⟩ := announcing.progresses (.syncAddFlowEntry 7 [1]) rfl (memoryOf sent) 0 hstores
  exact ⟨fuel, Option.isSome_iff_exists.mp hfuel⟩

theorem added_flow_replayed : ∃ fuel, ∃ s,
    exec step unused [.operate (reportOf .add 2), .replay (memoryOf sent) 0 fuel] = some s ∧ s.Agree := by
  obtain ⟨fuel, s, hs⟩ := sent_replayed
  refine ⟨fuel, s, ?_, ?_⟩
  · rw [exec, operate_unused, Option.bind_some, exec, hs]
    rfl
  · refine (replayed_entries_agree unused s unused_synchronised ((Run.refl.tail (a := .operate (reportOf .add 2))
      ⟨delivers_add, ?_⟩ operate_unused).tail (a := .replay (memoryOf sent) 0 fuel) ⟨delivers_sent fuel, trivial⟩
        hs)).2 (replay_frame rfl hs).2
    intro e he
    cases he

/-- A flow that is changed after it has been sent stays what it was in the cache of the slave. -/
theorem modified_flow_not_replayed : ¬ ∀ s₀ s : Replicated, s₀.Synchronised → Run step Delivers s₀ s →
    s.requests = [] → s.Agree := by
  intro h
  obtain ⟨fuel, s, hs⟩ := sent_replayed
  have hadded : Run step Delivers unused s :=
    (Run.refl.tail (a := .operate (reportOf .add 2)) delivers_add operate_unused).tail
      (a := .replay (memoryOf sent) 0 fuel) (delivers_sent fuel) hs
  obtain ⟨hmaster, hrequests⟩ := replay_frame rfl hs
  have hcache : s.cache = announcing.cache := congrArg (fun master => master.tables.flowCache) hmaster
  let changed : Replicated := { s.setCache (announcing.cache.modFlowStrict (instructed 3)).cache with requests := [] }
  have hstep : s.step (.operate (reportOf .modifyStrict 3)) = some changed := by
    rw [step]
    dsimp only
    rw [hcache, hrequests]
    rfl
  have hdelivers : s.Delivers (.operate (reportOf .modifyStrict 3)) := by
    intro hadd
    cases hadd
  have hmodified : Run step Delivers unused changed := hadded.tail hdelivers hstep
  have hbefore := h unused s unused_synchronised hadded hrequests 7 0
  have hafter := h unused changed unused_synchronised hmodified rfl 7 0
  rw [hcache] at hbefore
  have hsame : (announcing.cache.flows 7 0).map CFlow.record =
      ((announcing.cache.modFlowStrict (instructed 3)).cache.flows 7 0).map CFlow.record := hbefore.symm.trans hafter
  exact absurd hsame (by decide)

end Replicated

end DCFabric
