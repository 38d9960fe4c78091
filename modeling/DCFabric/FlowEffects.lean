import DCFabric.FlowEntrySync
import DCFabric.FlowRefinement
import DCFabric.KeyedReplication
import DCFabric.SyncDispatch

namespace DCFabric

open KeyedReplication ListUpdates TlvStreams TransitionRuns

namespace FlowSync

/-- The call of the encoder. -/
def call : FlowSync → SyncCall
  | syncAddFlowEntry dpid uuid => .addFlowEntry dpid uuid
  | syncDelFlowEntry dpid uuid => .delFlowEntry dpid uuid

def uuid : FlowSync → List UINT1
  | syncAddFlowEntry _ uuid | syncDelFlowEntry _ uuid => uuid

def dpid : FlowSync → UINT8
  | syncAddFlowEntry dpid _ | syncDelFlowEntry dpid _ => dpid

/-- What it asks of the slave. -/
def request : FlowSync → KeyedReplication.Request (UINT8 × List UINT1)
  | syncAddFlowEntry dpid uuid => .add (dpid, uuid)
  | syncDelFlowEntry dpid uuid => .remove (dpid, uuid)

theorem request_injective : Function.Injective request := by
  intro a b h
  cases a <;> cases b <;> cases h <;> rfl

end FlowSync

/-- The flow cache consumes the events that are reported. -/
def ControllerTables.consumeReported (w : ControllerTables) : ControllerTables :=
  { w with flowCache := w.reported.foldl (fun c event => (c.consume event).cache) w.flowCache, reported := [] }

/-- A master with the calls to `CClusterSync` that have not been taken up, and a slave. -/
structure Replicated where
  master : SyncMaster
  requests : List FlowSync
  slave : ControllerTables

namespace Replicated

/-- An operation on the master, or the encoder's work for the oldest call and the slave's on the bytes it receives. -/
inductive Action where
  | operate (r : Report)
  | replay (m : Memory) (data fuel : ℕ)

def cache (s : Replicated) : CFlowCache := s.master.tables.flowCache

def setCache (s : Replicated) (cache : CFlowCache) : Replicated :=
  { s with master := { s.master with tables := { s.master.tables with flowCache := cache } } }

def step (s : Replicated) : Action → Option Replicated
  | .operate r =>
    let outcome := s.cache.consume r.event
    some { s.setCache outcome.cache with requests := s.requests ++ outcome.syncs }
  | .replay m data fuel =>
    match s.requests with
    | [] => none
    | sync :: requests =>
      match s.master.encoded sync.call with
      | none => some { s with requests }
      | some bytes =>
        if Stores m data bytes then
          (sync.call.oper.recovery.recover m data bytes.length s.slave fuel).map fun r =>
            { s with requests, slave := r.2.consumeReported }
        else none

/-- The instructions of the entry stay as they are, or the entry has yet to be sent. -/
def Carried (s : Replicated) (flow e : CFlow) : Prop :=
  e.m_instructions = flow.m_instructions ∨ .syncAddFlowEntry e.m_sw.dpid e.m_uuid ∈ s.requests

/-- No operation changes the instructions of an entry once it has been sent. -/
def Announced (s : Replicated) : Action → Prop
  | .operate r =>
    let flowList := s.cache.flows r.flow.m_sw.dpid r.flow.m_table_id
    match r.command with
    | .add | .modifyStrict => ∀ e ∈ flowList, e.matchStrict r.flow → s.Carried r.flow e
    | .modify => ∀ e ∈ flowList, e.matchFlow r.flow → s.Carried r.flow e
    | .delete | .deleteStrict => True
  | .replay _ _ _ => True

/-- A generated uuid is a text no entry and no call has, and what is sent can be transmitted to a slave that knows the
switch. -/
def Delivers (s : Replicated) : Action → Prop
  | .operate r => r.command = .add → r.uuid ≠ [] ∧ IsText UUID_LEN r.uuid ∧ s.cache.Unused r.uuid ∧
      ∀ sync ∈ s.requests, sync.uuid ≠ r.uuid
  | .replay _ _ _ => ∀ sync ∈ s.requests.head?, (s.slave.getSwitchByDpid sync.dpid).isSome ∧
      ∀ flow, s.cache.findFlow sync.dpid sync.uuid = some flow →
        (∀ i ∈ flow.m_instructions.toList, i.type ∈ ofp_instruction_type) ∧ EntryRecovery.Transmittable flow

/-- The entries of both caches are the same, up to the addresses of the switch objects. -/
def Agree (s : Replicated) : Prop :=
  ∀ dpid tableId,
    (s.slave.flowCache.flows dpid tableId).map CFlow.record = (s.cache.flows dpid tableId).map CFlow.record

/-- The slave comes to the end of what it receives for the oldest call. -/
def Progresses (s : Replicated) : Prop :=
  ∀ sync ∈ s.requests.head?, ∀ m data, (∀ bytes ∈ s.master.encoded sync.call, Stores m data bytes) →
    ∃ fuel, (s.step (.replay m data fuel)).isSome

/-- The caches are the same, with entries that have keys of their own, and nothing is under way. -/
structure Synchronised (s : Replicated) : Prop where
  requests : s.requests = []
  reported : s.slave.reported = []
  keyed : s.cache.WellKeyed
  uuids : ∀ d t, ∀ e ∈ s.cache.flows d t, e.m_uuid ≠ [] ∧ IsText UUID_LEN e.m_uuid
  agree : s.Agree

end Replicated

namespace CFlowCache

variable {c c' : CFlowCache} {d d' : UINT8} {t t' : UINT1} {e flow : CFlow} {uuid : List UINT1}

theorem mem_tableIds (t : UINT1) : t ∈ tableIds :=
  List.mem_map.mpr ⟨t.toNat, List.mem_range.mpr t.toNat_lt, UInt8.ofNat_toNat⟩

/-- A uuid has one place in the lists of a switch. -/
structure Apart (c : CFlowCache) : Prop where
  nodup : ∀ d t, ((c.flows d t).map CFlow.m_uuid).Nodup
  table : ∀ d t t' uuid, uuid ∈ (c.flows d t).map CFlow.m_uuid → uuid ∈ (c.flows d t').map CFlow.m_uuid → t = t'

theorem WellKeyed.toApart (h : c.WellKeyed) : c.Apart where
  nodup d t := List.pairwise_map.mpr (h.keyed d t).uuids
  table d t t' uuid hmem hmem' := by
    obtain ⟨e, he, rfl⟩ := List.mem_map.mp hmem
    obtain ⟨e', he', heq⟩ := List.mem_map.mp hmem'
    exact (h.apart d t d t' e he e' he' heq.symm).2

theorem Apart.of_map (h : c.Apart) (hmap : ∀ d t, (c'.flows d t).map CFlow.m_uuid = (c.flows d t).map CFlow.m_uuid) :
    c'.Apart where
  nodup d t := hmap d t ▸ h.nodup d t
  table d t t' uuid hmem hmem' := h.table d t t' uuid (hmap d t ▸ hmem) (hmap d t' ▸ hmem')

theorem Apart.sublist (h : c.Apart) (hsub : ∀ d t, (c'.flows d t).Sublist (c.flows d t)) : c'.Apart where
  nodup d t := (h.nodup d t).sublist ((hsub d t).map _)
  table d t t' uuid hmem hmem' :=
    h.table d t t' uuid (((hsub d t).map _).subset hmem) (((hsub d t').map _).subset hmem')

theorem findFlow_eq_none (h : c.findFlow d uuid = none) (t : UINT1) : ∀ e ∈ c.flows d t, e.m_uuid ≠ uuid := by
  have hnone := List.findSome?_eq_none_iff.mp h t (mem_tableIds t)
  simpa using hnone

theorem findFlow_eq_some (h : c.findFlow d uuid = some e) : ∃ t, e ∈ c.flows d t ∧ e.m_uuid = uuid := by
  obtain ⟨t, -, ht⟩ := List.exists_of_findSome?_eq_some h
  exact ⟨t, List.mem_of_find?_eq_some ht, by simpa using List.find?_some ht⟩

theorem cache_recoverFlow (huuid : flow.m_uuid ≠ [])
    (habsent : ∀ x ∈ c.flows flow.m_sw.dpid flow.m_table_id, x.m_uuid ≠ flow.m_uuid) : (c.recoverFlow flow).cache =
      c.setFlowList flow.m_sw.dpid flow.m_table_id (c.flows flow.m_sw.dpid flow.m_table_id ++ [flow]) := by
  have hnone : updateFirst (·.m_uuid = flow.m_uuid) (fun _ => flow)
      (c.flows flow.m_sw.dpid flow.m_table_id) = none := by
    apply updateFirst_none.mpr
    simpa using habsent
  rw [recoverFlow, if_neg huuid]
  dsimp only
  rw [hnone]

theorem Apart.concat (h : c.Apart) (hnew : ∀ t', ∀ x ∈ c.flows d t', x.m_uuid ≠ e.m_uuid) :
    (c.setFlowList d t (c.flows d t ++ [e])).Apart := by
  have hmem {d' : UINT8} {t' : UINT1} {uuid : List UINT1}
      (huuid : uuid ∈ ((c.setFlowList d t (c.flows d t ++ [e])).flows d' t').map CFlow.m_uuid) :
      uuid ∈ (c.flows d' t').map CFlow.m_uuid ∨ d' = d ∧ t' = t ∧ uuid = e.m_uuid := by
    by_cases hd : d' = d ∧ t' = t
    · obtain ⟨rfl, rfl⟩ := hd
      rw [flows_setFlowList, List.map_append] at huuid
      exact (List.mem_append.mp huuid).imp_right fun hlast => ⟨rfl, rfl, List.mem_singleton.mp hlast⟩
    · rw [flows_setFlowList_ne hd] at huuid
      exact .inl huuid
  have hfresh {t' : UINT1} : e.m_uuid ∉ (c.flows d t').map CFlow.m_uuid := by
    intro huuid
    obtain ⟨x, hx, heq⟩ := List.mem_map.mp huuid
    exact hnew t' x hx heq
  constructor
  · intro d' t'
    by_cases hd : d' = d ∧ t' = t
    · obtain ⟨rfl, rfl⟩ := hd
      rw [flows_setFlowList, List.map_append, List.map_singleton, ← List.concat_eq_append]
      exact List.Nodup.concat hfresh (h.nodup d' t')
    · rw [flows_setFlowList_ne hd]
      exact h.nodup d' t'
  · intro d' t₁ t₂ uuid h₁ h₂
    rcases hmem h₁ with hold₁ | ⟨rfl, rfl, rfl⟩
    · rcases hmem h₂ with hold₂ | ⟨rfl, rfl, rfl⟩
      · exact h.table d' t₁ t₂ uuid hold₁ hold₂
      · exact absurd hold₁ hfresh
    · rcases hmem h₂ with hold₂ | ⟨-, rfl, -⟩
      · exact absurd hold₂ hfresh
      · rfl

/-- The deletion of a uuid, wherever it is. -/
theorem Apart.flows_delFlowStrict (h : c.Apart) (huuid : flow.m_uuid ≠ []) :
    (c.delFlowStrict flow).cache.flows d t =
      (c.flows d t).filter fun e => ¬ (d = flow.m_sw.dpid ∧ e.m_uuid = flow.m_uuid) := by
  rw [delFlowStrict, if_neg huuid]
  cases hf : tableIds.find? fun t => (c.flows flow.m_sw.dpid t).any (·.m_uuid = flow.m_uuid) with
  | none =>
    symm
    apply List.filter_eq_self.mpr
    intro e he
    have hnone := List.find?_eq_none.mp hf t (mem_tableIds t)
    simp only [List.any_eq_true, decide_eq_true_eq, not_exists, not_and] at hnone
    simp only [decide_eq_true_eq]
    rintro ⟨rfl, heq⟩
    exact hnone e he heq
  | some t₀ =>
    have hany : (c.flows flow.m_sw.dpid t₀).any (·.m_uuid = flow.m_uuid) := by simpa using List.find?_some hf
    by_cases hd : d = flow.m_sw.dpid ∧ t = t₀
    · obtain ⟨rfl, rfl⟩ := hd
      dsimp only
      rw [flows_setFlowList, eraseP_eq_filter]
      · apply List.filter_congr
        intro e _
        simp
      · have hpairwise := List.pairwise_map.mp (h.nodup flow.m_sw.dpid t)
        refine hpairwise.imp ?_
        intro a b hne
        simp only [decide_eq_true_eq]
        rintro ⟨ha, hb⟩
        exact hne (ha.trans hb.symm)
    · dsimp only
      rw [flows_setFlowList_ne hd]
      symm
      apply List.filter_eq_self.mpr
      intro e he
      simp only [decide_eq_true_eq]
      rintro ⟨rfl, heq⟩
      obtain ⟨e', he', huuid'⟩ := List.any_eq_true.mp hany
      refine hd ⟨rfl, h.table _ t t₀ flow.m_uuid (List.mem_map.mpr ⟨e, he, heq⟩) (List.mem_map.mpr ⟨e', he', ?_⟩)⟩
      simpa using huuid'

theorem Keyed.single {l : CFlowList} (h : Keyed d t l) :
    l.Pairwise fun a b => ¬ (a.matchStrict flow ∧ b.matchStrict flow) := by
  refine h.strict.imp ?_
  rintro a b hne ⟨ha, hb⟩
  obtain ⟨h₁, h₂, h₃, h₄, h₅, h₆⟩ := CFlow.matchStrict_iff.mp ha
  obtain ⟨h₁', h₂', h₃', h₄', h₅', h₆'⟩ := CFlow.matchStrict_iff.mp hb
  exact hne (CFlow.matchStrict_iff.mpr ⟨h₁.trans h₁'.symm, h₂.trans h₂'.symm, h₃.trans h₃'.symm, h₄.trans h₄'.symm,
    h₅.trans h₅'.symm, h₆.trans h₆'.symm⟩)

/-- The entries that `p` selects of a list leave the cache with their uuids. -/
theorem Apart.filter_uuids (h : c.Apart) (p : CFlow → Bool) :
    (c.setFlowList d t ((c.flows d t).filter (!p ·))).flows d' t' =
      (c.flows d' t').filter fun e => ¬ (d' = d ∧ e.m_uuid ∈ ((c.flows d t).filter p).map CFlow.m_uuid) := by
  by_cases hd : d' = d ∧ t' = t
  · obtain ⟨rfl, rfl⟩ := hd
    rw [flows_setFlowList]
    apply List.filter_congr
    intro e he
    have hmem : e.m_uuid ∈ ((c.flows d' t').filter p).map CFlow.m_uuid ↔ p e := by
      constructor
      · intro hmem
        obtain ⟨e', he', huuid⟩ := List.mem_map.mp hmem
        obtain ⟨he', hp⟩ := List.mem_filter.mp he'
        rwa [← List.inj_on_of_nodup_map (h.nodup d' t') he' he huuid]
      · intro hp
        exact List.mem_map_of_mem (List.mem_filter.mpr ⟨he, hp⟩)
    simp [hmem]
  · rw [flows_setFlowList_ne hd]
    symm
    apply List.filter_eq_self.mpr
    intro e he
    simp only [decide_eq_true_eq]
    rintro ⟨rfl, hmem⟩
    have hmem' := (List.filter_sublist.map CFlow.m_uuid).subset hmem
    exact hd ⟨rfl, h.table _ t' t e.m_uuid (List.mem_map_of_mem he) hmem'⟩

end CFlowCache

theorem CFlow.record_overwrite {e flow : CFlow} (h : e.matchStrict flow)
    (hinstructions : e.m_instructions = flow.m_instructions) :
    (CFlowCache.overwrite flow e).record = e.record := by
  obtain ⟨-, hidle, hhard, hpriority, htable, hmatch⟩ := CFlow.matchStrict_iff.mp h
  simp only [CFlow.record, CFlowCache.overwrite, hidle, hhard, hpriority, htable, hmatch, hinstructions]

namespace Replicated

variable {s s' : Replicated} {a : Action} {r : Report} {c : CFlowCache} {requests : List FlowSync}

/-- What an operation does to the cache and what it asks the slave for. -/
inductive Effect (s : Replicated) (c : CFlowCache) : List FlowSync → Prop
  | added (d : UINT8) (t : UINT1) (e : CFlow)
      (flows : ∀ d' t', c.flows d' t' = (s.cache.setFlowList d t (s.cache.flows d t ++ [e])).flows d' t')
      (text : e.m_uuid ≠ [] ∧ IsText UUID_LEN e.m_uuid) (unused : s.cache.Unused e.m_uuid)
      (requests : ∀ sync ∈ s.requests, sync.uuid ≠ e.m_uuid) : Effect s c [.syncAddFlowEntry d e.m_uuid]
  | changed (d : UINT8) (t : UINT1) (g : CFlow → CFlow)
      (flows : ∀ d' t', c.flows d' t' = (s.cache.setFlowList d t ((s.cache.flows d t).map g)).flows d' t')
      (uuid : ∀ e, (g e).m_uuid = e.m_uuid)
      (record : ∀ e ∈ s.cache.flows d t, (g e).record = e.record ∨ .syncAddFlowEntry d e.m_uuid ∈ s.requests) :
      Effect s c []
  | removed (d : UINT8) (uuids : List (List UINT1))
      (flows : ∀ d' t', c.flows d' t' = (s.cache.flows d' t').filter fun e => ¬ (d' = d ∧ e.m_uuid ∈ uuids))
      (live : ∀ uuid ∈ uuids, ∃ t, ∃ e ∈ s.cache.flows d t, e.m_uuid = uuid) :
      Effect s c (uuids.map (.syncDelFlowEntry d))

/-- An entry that an operation overwrites keeps its record, or is still to be sent. -/
theorem Carried.record {d : UINT8} {t : UINT1} {e flow : CFlow} (hk : CFlowCache.Keyed d t (s.cache.flows d t))
    (he : e ∈ s.cache.flows d t) (hs : e.matchStrict flow) (h : s.Carried flow e) :
    (CFlowCache.overwrite flow e).record = e.record ∨ .syncAddFlowEntry d e.m_uuid ∈ s.requests := by
  rw [Carried, (hk.addressed e he).1] at h
  exact h.imp_left (CFlow.record_overwrite hs)

theorem Effect.unchanged (s : Replicated) : Effect s s.cache [] := by
  refine .changed 0 0 id ?_ (fun _ => rfl) fun _ _ => .inl rfl
  intro d' t'
  rw [List.map_id, CFlowCache.flows_setFlowList_self]

theorem effect_strict {flow : CFlow} (hk : s.cache.WellKeyed)
    (h : ∀ e ∈ s.cache.flows flow.m_sw.dpid flow.m_table_id, e.matchStrict flow → s.Carried flow e)
    (hflows : ∀ d' t', c.flows d' t' = (s.cache.setFlowList flow.m_sw.dpid flow.m_table_id
      ((updateFirst (·.matchStrict flow) (CFlowCache.overwrite flow)
        (s.cache.flows flow.m_sw.dpid flow.m_table_id)).getD
          (s.cache.flows flow.m_sw.dpid flow.m_table_id))).flows d' t') : Effect s c [] := by
  have hkeyed := hk.keyed flow.m_sw.dpid flow.m_table_id
  refine .changed flow.m_sw.dpid flow.m_table_id
    (fun e => if e.matchStrict flow then CFlowCache.overwrite flow e else e) ?_ ?_ ?_
  · intro d' t'
    rw [hflows, updateFirst_getD hkeyed.single]
  · intro e
    split_ifs <;> rfl
  · intro e he
    split_ifs with hs
    · exact (h e he hs).record hkeyed he hs
    · exact .inl rfl

theorem effect_add (hr : r.command = .add) (hk : s.cache.WellKeyed) (ha : s.Announced (.operate r))
    (hd : s.Delivers (.operate r)) :
    Effect s (s.cache.addFlow r.flow r.uuid r.now).cache (s.cache.addFlow r.flow r.uuid r.now).syncs := by
  obtain ⟨hne, htext, hunused, hrequests⟩ := hd hr
  rw [Announced, hr] at ha
  cases hu : updateFirst (·.matchStrict r.flow) (CFlowCache.overwrite r.flow)
      (s.cache.flows r.flow.m_sw.dpid r.flow.m_table_id) with
  | some l =>
    have hsyncs : (s.cache.addFlow r.flow r.uuid r.now).syncs = [] := by
      simp [CFlowCache.addFlow, hu]
    rw [hsyncs]
    apply effect_strict hk ha
    intro d' t'
    rw [CFlowCache.cache_addFlow, hu, Option.getD_some, Option.getD_some]
  | none =>
    have hsyncs : (s.cache.addFlow r.flow r.uuid r.now).syncs = [.syncAddFlowEntry r.flow.m_sw.dpid r.uuid] := by
      simp [CFlowCache.addFlow, hu]
    rw [hsyncs]
    refine .added r.flow.m_sw.dpid r.flow.m_table_id { r.flow with m_uuid := r.uuid, m_create_time := r.now } ?_
      ⟨hne, htext⟩ hunused hrequests
    intro d' t'
    rw [CFlowCache.cache_addFlow, hu, Option.getD_none]

theorem effect_modify (hr : r.command = .modify) (hk : s.cache.WellKeyed) (ha : s.Announced (.operate r)) :
    Effect s (s.cache.modFlow r.flow).cache (s.cache.modFlow r.flow).syncs := by
  rw [Announced, hr] at ha
  have hsyncs : (s.cache.modFlow r.flow).syncs = [] := by
    rw [CFlowCache.modFlow]
    split <;> rfl
  rw [hsyncs]
  refine .changed r.flow.m_sw.dpid r.flow.m_table_id
    (fun e => if e.matchFlow r.flow then { e with m_instructions := r.flow.m_instructions } else e)
    (fun d' t' => CFlowCache.flows_modFlow) ?_ ?_
  · intro e
    split_ifs <;> rfl
  · intro e he
    split_ifs with hs
    · have hcarried := ha e he hs
      rw [Carried, ((hk.keyed _ _).addressed e he).1] at hcarried
      exact hcarried.imp_left fun hinstructions => by rw [← hinstructions]
    · exact .inl rfl

theorem effect_modifyStrict (hr : r.command = .modifyStrict) (hk : s.cache.WellKeyed)
    (ha : s.Announced (.operate r)) :
    Effect s (s.cache.modFlowStrict r.flow).cache (s.cache.modFlowStrict r.flow).syncs := by
  rw [Announced, hr] at ha
  have hsyncs : (s.cache.modFlowStrict r.flow).syncs = [] := by
    rw [CFlowCache.modFlowStrict]
    split
    · rfl
    · split <;> rfl
  rw [hsyncs]
  exact effect_strict hk ha fun d' t' => CFlowCache.flows_modFlowStrict

theorem effect_delete (hk : s.cache.WellKeyed) :
    Effect s (s.cache.delFlow r.flow).cache (s.cache.delFlow r.flow).syncs := by
  have hsyncs : (s.cache.delFlow r.flow).syncs =
      (((s.cache.flows r.flow.m_sw.dpid r.flow.m_table_id).filter (·.matchFlow r.flow)).map CFlow.m_uuid).map
        (.syncDelFlowEntry r.flow.m_sw.dpid) := by
    cases hl : s.cache.getFlowList r.flow.m_sw.dpid r.flow.m_table_id with
    | none => simp [CFlowCache.delFlow, hl, CFlowCache.flows_eq_nil hl]
    | some l => simp [CFlowCache.delFlow, hl, CFlowCache.flows_eq hl, Function.comp_def]
  rw [hsyncs]
  refine .removed r.flow.m_sw.dpid _ ?_ ?_
  · intro d' t'
    rw [CFlowCache.flows_delFlow]
    exact hk.toApart.filter_uuids (·.matchFlow r.flow)
  · intro uuid huuid
    obtain ⟨e, he, rfl⟩ := List.mem_map.mp huuid
    exact ⟨_, e, (List.mem_filter.mp he).1, rfl⟩

theorem effect_deleteStrict (hk : s.cache.WellKeyed) :
    Effect s (s.cache.delFlowStrict r.flow).cache (s.cache.delFlowStrict r.flow).syncs := by
  by_cases huuid : r.flow.m_uuid = []
  · have hsingle : (s.cache.flows r.flow.m_sw.dpid r.flow.m_table_id).Pairwise fun a b =>
        ¬ (a.matchStrict r.flow ∧ b.matchStrict r.flow) := (hk.keyed _ _).single
    have hsyncs : (s.cache.delFlowStrict r.flow).syncs =
        (((s.cache.flows r.flow.m_sw.dpid r.flow.m_table_id).filter (·.matchStrict r.flow)).map CFlow.m_uuid).map
          (.syncDelFlowEntry r.flow.m_sw.dpid) := by
      rw [filter_eq_find? hsingle, CFlowCache.delFlowStrict, if_pos huuid]
      cases hl : s.cache.getFlowList r.flow.m_sw.dpid r.flow.m_table_id with
      | none => simp [CFlowCache.flows_eq_nil hl]
      | some l => simp [CFlowCache.flows_eq hl, Function.comp_def]
    rw [hsyncs]
    refine .removed r.flow.m_sw.dpid _ ?_ ?_
    · intro d' t'
      rw [CFlowCache.flows_delFlowStrict huuid, eraseP_eq_filter hsingle]
      exact hk.toApart.filter_uuids (·.matchStrict r.flow)
    · intro uuid hmem
      obtain ⟨e, he, rfl⟩ := List.mem_map.mp hmem
      exact ⟨_, e, (List.mem_filter.mp he).1, rfl⟩
  · cases hf : CFlowCache.tableIds.find? fun t =>
        (s.cache.flows r.flow.m_sw.dpid t).any (·.m_uuid = r.flow.m_uuid) with
    | none =>
      have hnone : s.cache.delFlowStrict r.flow = ⟨s.cache, [], BNC_OK⟩ := by
        rw [CFlowCache.delFlowStrict, if_neg huuid, hf]
      rw [hnone]
      exact .unchanged s
    | some t =>
      have hsyncs : (s.cache.delFlowStrict r.flow).syncs =
          [r.flow.m_uuid].map (.syncDelFlowEntry r.flow.m_sw.dpid) := by
        rw [CFlowCache.delFlowStrict, if_neg huuid, hf]
        rfl
      rw [hsyncs]
      refine .removed r.flow.m_sw.dpid _ ?_ ?_
      · intro d' t'
        rw [hk.toApart.flows_delFlowStrict huuid]
        simp only [List.mem_singleton]
      · intro uuid hmem
        obtain rfl := List.mem_singleton.mp hmem
        have hany : (s.cache.flows r.flow.m_sw.dpid t).any (·.m_uuid = r.flow.m_uuid) := by
          simpa using List.find?_some hf
        obtain ⟨e, he, heq⟩ := List.any_eq_true.mp hany
        exact ⟨t, e, he, by simpa using heq⟩

theorem effect (hk : s.cache.WellKeyed) (ha : s.Announced (.operate r)) (hd : s.Delivers (.operate r)) :
    Effect s (s.cache.consume r.event).cache (s.cache.consume r.event).syncs := by
  rw [Report.event]
  cases hr : r.command with
  | add => exact effect_add hr hk ha hd
  | modify => exact effect_modify hr hk ha
  | modifyStrict => exact effect_modifyStrict hr hk ha
  | delete => exact effect_delete hk
  | deleteStrict => exact effect_deleteStrict hk

end Replicated

end DCFabric
