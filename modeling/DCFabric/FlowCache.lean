import DCFabric.CFlow
import DCFabric.ListUpdates
import DCFabric.TransitionRuns

namespace DCFabric

open ListUpdates TransitionRuns

abbrev CFlowList := List CFlow

/-- The entry at a dpid and a table id is `none` where one of the two maps has no element. -/
structure CFlowCache where
  m_map : UINT8 → UINT1 → Option CFlowList

/-- The calls to `CClusterSync` an operation makes. -/
inductive FlowSync where
  | syncAddFlowEntry (dpid : UINT8) (uuid : List UINT1)
  | syncDelFlowEntry (dpid : UINT8) (uuid : List UINT1)
deriving DecidableEq

structure Outcome where
  cache : CFlowCache
  syncs : List FlowSync
  ret : INT4

namespace CFlowCache

def clear : CFlowCache := ⟨fun _ _ => none⟩

def getFlowList (c : CFlowCache) (dpid : UINT8) (tableId : UINT1) : Option CFlowList := c.m_map dpid tableId

def setFlowList (c : CFlowCache) (dpid : UINT8) (tableId : UINT1) (flowList : CFlowList) : CFlowCache where
  m_map := fun d t => if d = dpid ∧ t = tableId then some flowList else c.m_map d t

def flows (c : CFlowCache) (dpid : UINT8) (tableId : UINT1) : CFlowList := (c.getFlowList dpid tableId).getD []

/-- `flow` with the uuid and the creation time of the entry it is written over. -/
def overwrite (flow e : CFlow) : CFlow :=
  { flow with m_uuid := e.m_uuid, m_create_time := e.m_create_time }

/-- `uuid` and `now` are the text of `uuid_generate_random` and the value of `time` in the call. -/
def addFlow (c : CFlowCache) (flow : CFlow) (uuid : List UINT1) (now : UINT8) : Outcome :=
  let dpid := flow.m_sw.dpid
  let flowList := c.flows dpid flow.m_table_id
  match updateFirst (·.matchStrict flow) (overwrite flow) flowList with
  | some flowList => ⟨c.setFlowList dpid flow.m_table_id flowList, [], BNC_OK⟩
  | none =>
    ⟨c.setFlowList dpid flow.m_table_id (flowList ++ [{ flow with m_uuid := uuid, m_create_time := now }]),
      [.syncAddFlowEntry dpid uuid], BNC_OK⟩

def modFlow (c : CFlowCache) (flow : CFlow) : Outcome :=
  match c.getFlowList flow.m_sw.dpid flow.m_table_id with
  | none => ⟨c, [], BNC_ERR⟩
  | some flowList =>
    ⟨c.setFlowList flow.m_sw.dpid flow.m_table_id (flowList.map fun e =>
      if e.matchFlow flow then { e with m_instructions := flow.m_instructions } else e), [], BNC_OK⟩

def modFlowStrict (c : CFlowCache) (flow : CFlow) : Outcome :=
  match c.getFlowList flow.m_sw.dpid flow.m_table_id with
  | none => ⟨c, [], BNC_ERR⟩
  | some flowList =>
    match updateFirst (·.matchStrict flow) (overwrite flow) flowList with
    | some flowList => ⟨c.setFlowList flow.m_sw.dpid flow.m_table_id flowList, [], BNC_OK⟩
    | none => ⟨c, [], BNC_ERR⟩

def delFlow (c : CFlowCache) (flow : CFlow) : Outcome :=
  match c.getFlowList flow.m_sw.dpid flow.m_table_id with
  | none => ⟨c, [], BNC_OK⟩
  | some flowList =>
    ⟨c.setFlowList flow.m_sw.dpid flow.m_table_id (flowList.filter (!·.matchFlow flow)),
      (flowList.filter (·.matchFlow flow)).map fun e => .syncDelFlowEntry flow.m_sw.dpid e.m_uuid, BNC_OK⟩

/-- The table ids in the order of `CTableIdFlowsMap`. -/
def tableIds : List UINT1 := (List.range 256).map UInt8.ofNat

def delFlowStrict (c : CFlowCache) (flow : CFlow) : Outcome :=
  if flow.m_uuid = [] then
    match c.getFlowList flow.m_sw.dpid flow.m_table_id with
    | none => ⟨c, [], BNC_OK⟩
    | some flowList =>
      ⟨c.setFlowList flow.m_sw.dpid flow.m_table_id (flowList.eraseP (·.matchStrict flow)),
        (flowList.find? (·.matchStrict flow)).toList.map fun e => .syncDelFlowEntry flow.m_sw.dpid e.m_uuid, BNC_OK⟩
  else
    match tableIds.find? fun t => (c.flows flow.m_sw.dpid t).any (·.m_uuid = flow.m_uuid) with
    | none => ⟨c, [], BNC_OK⟩
    | some t =>
      ⟨c.setFlowList flow.m_sw.dpid t ((c.flows flow.m_sw.dpid t).eraseP (·.m_uuid = flow.m_uuid)),
        [.syncDelFlowEntry flow.m_sw.dpid flow.m_uuid], BNC_OK⟩

def findFlow (c : CFlowCache) (dpid : UINT8) (uuid : List UINT1) : Option CFlow :=
  tableIds.findSome? fun t => (c.flows dpid t).find? (·.m_uuid = uuid)

def recoverFlow (c : CFlowCache) (flow : CFlow) : Outcome :=
  if flow.m_uuid = [] then ⟨c, [], BNC_ERR⟩
  else
    let flowList := c.flows flow.m_sw.dpid flow.m_table_id
    match updateFirst (·.m_uuid = flow.m_uuid) (fun _ => flow) flowList with
    | some flowList => ⟨c.setFlowList flow.m_sw.dpid flow.m_table_id flowList, [], BNC_OK⟩
    | none => ⟨c.setFlowList flow.m_sw.dpid flow.m_table_id (flowList ++ [flow]), [], BNC_OK⟩

/-- The events of `CFlowTableEvent`. -/
inductive Event where
  | add (flow : CFlow) (uuid : List UINT1) (now : UINT8)
  | mod (flow : CFlow)
  | modStrict (flow : CFlow)
  | del (flow : CFlow)
  | delStrict (flow : CFlow)
  | recover (flow : CFlow)
deriving DecidableEq

def consume (c : CFlowCache) : Event → Outcome
  | .add flow uuid now => c.addFlow flow uuid now
  | .mod flow => c.modFlow flow
  | .modStrict flow => c.modFlowStrict flow
  | .del flow => c.delFlow flow
  | .delStrict flow => c.delFlowStrict flow
  | .recover flow => c.recoverFlow flow

def step (c : CFlowCache) (event : Event) : Option CFlowCache := some (c.consume event).cache

variable {c : CFlowCache} {d d' : UINT8} {t t' : UINT1} {l l' : CFlowList} {e flow : CFlow}

@[simp] theorem flows_clear : clear.flows d t = [] := rfl

theorem flows_eq (h : c.getFlowList d t = some l) : c.flows d t = l := by
  simp [flows, h]

@[simp] theorem flows_setFlowList : (c.setFlowList d t l).flows d t = l := by
  simp [flows, getFlowList, setFlowList]

theorem flows_setFlowList_ne (h : ¬ (d' = d ∧ t' = t)) : (c.setFlowList d t l).flows d' t' = c.flows d' t' := by
  simp [flows, getFlowList, setFlowList, h]

theorem flows_eq_nil (h : c.getFlowList d t = none) : c.flows d t = [] := by
  simp [flows, h]

theorem flows_setFlowList_self : (c.setFlowList d t (c.flows d t)).flows d' t' = c.flows d' t' := by
  by_cases hd : d' = d ∧ t' = t
  · obtain ⟨rfl, rfl⟩ := hd
    rw [flows_setFlowList]
  · rw [flows_setFlowList_ne hd]

theorem flows_modFlow : (c.modFlow flow).cache.flows d t =
    (c.setFlowList flow.m_sw.dpid flow.m_table_id ((c.flows flow.m_sw.dpid flow.m_table_id).map fun e =>
      if e.matchFlow flow then { e with m_instructions := flow.m_instructions } else e)).flows d t := by
  cases hl : c.getFlowList flow.m_sw.dpid flow.m_table_id with
  | some l => simp [modFlow, flows_eq hl, hl]
  | none =>
    rw [flows_eq_nil hl, List.map_nil, ← flows_eq_nil hl, flows_setFlowList_self]
    simp [modFlow, hl]

theorem flows_modFlowStrict : (c.modFlowStrict flow).cache.flows d t =
    (c.setFlowList flow.m_sw.dpid flow.m_table_id
      ((updateFirst (·.matchStrict flow) (overwrite flow) (c.flows flow.m_sw.dpid flow.m_table_id)).getD
        (c.flows flow.m_sw.dpid flow.m_table_id))).flows d t := by
  cases hl : c.getFlowList flow.m_sw.dpid flow.m_table_id with
  | some l =>
    cases hu : updateFirst (·.matchStrict flow) (overwrite flow) l with
    | some l' => simp [modFlowStrict, flows_eq hl, hl, hu]
    | none =>
      rw [flows_eq hl, hu, Option.getD_none, ← flows_eq hl, flows_setFlowList_self]
      simp [modFlowStrict, hl, hu]
  | none =>
    rw [flows_eq_nil hl, updateFirst, Option.getD_none, ← flows_eq_nil hl, flows_setFlowList_self]
    simp [modFlowStrict, hl]

theorem flows_delFlow : (c.delFlow flow).cache.flows d t =
    (c.setFlowList flow.m_sw.dpid flow.m_table_id
      ((c.flows flow.m_sw.dpid flow.m_table_id).filter (!·.matchFlow flow))).flows d t := by
  cases hl : c.getFlowList flow.m_sw.dpid flow.m_table_id with
  | some l => simp [delFlow, flows_eq hl, hl]
  | none =>
    rw [flows_eq_nil hl, List.filter_nil, ← flows_eq_nil hl, flows_setFlowList_self]
    simp [delFlow, hl]

theorem flows_delFlowStrict (h : flow.m_uuid = []) : (c.delFlowStrict flow).cache.flows d t =
    (c.setFlowList flow.m_sw.dpid flow.m_table_id
      ((c.flows flow.m_sw.dpid flow.m_table_id).eraseP (·.matchStrict flow))).flows d t := by
  cases hl : c.getFlowList flow.m_sw.dpid flow.m_table_id with
  | some l => simp [delFlowStrict, flows_eq hl, hl, h]
  | none =>
    rw [flows_eq_nil hl, List.eraseP_nil, ← flows_eq_nil hl, flows_setFlowList_self]
    simp [delFlowStrict, hl, h]

theorem cache_addFlow {uuid : List UINT1} {now : UINT8} : (c.addFlow flow uuid now).cache =
    c.setFlowList flow.m_sw.dpid flow.m_table_id
      ((updateFirst (·.matchStrict flow) (overwrite flow) (c.flows flow.m_sw.dpid flow.m_table_id)).getD
        (c.flows flow.m_sw.dpid flow.m_table_id ++ [{ flow with m_uuid := uuid, m_create_time := now }])) := by
  unfold addFlow
  dsimp only
  cases updateFirst (·.matchStrict flow) (overwrite flow) (c.flows flow.m_sw.dpid flow.m_table_id) <;> rfl

/-- The list kept for `d` and `t`. -/
structure Keyed (d : UINT8) (t : UINT1) (l : CFlowList) : Prop where
  addressed : ∀ e ∈ l, e.m_sw.dpid = d ∧ e.m_table_id = t
  strict : l.Pairwise fun e e' => ¬ e.matchStrict e'
  uuids : l.Pairwise fun e e' => e.m_uuid ≠ e'.m_uuid

structure WellKeyed (c : CFlowCache) : Prop where
  keyed : ∀ d t, Keyed d t (c.flows d t)
  apart : ∀ d t d' t', ∀ e ∈ c.flows d t, ∀ e' ∈ c.flows d' t', e.m_uuid = e'.m_uuid → d = d' ∧ t = t'

theorem Keyed.nil : Keyed d t [] := ⟨by simp, .nil, .nil⟩

theorem Keyed.sublist (h : Keyed d t l) (hl : l'.Sublist l) : Keyed d t l' where
  addressed e he := h.addressed e (hl.subset he)
  strict := h.strict.sublist hl
  uuids := h.uuids.sublist hl

theorem Keyed.map {g : CFlow → CFlow} (h : Keyed d t l) (hsw : ∀ e, (g e).m_sw = e.m_sw)
    (ht : ∀ e, (g e).m_table_id = e.m_table_id) (hs : ∀ e e', (g e).matchStrict (g e') = e.matchStrict e')
    (hu : ∀ e, (g e).m_uuid = e.m_uuid) : Keyed d t (l.map g) where
  addressed := by simpa [hsw, ht] using h.addressed
  strict := by simpa [List.pairwise_map, hs] using h.strict
  uuids := by simpa [List.pairwise_map, hu] using h.uuids

/-- An entry that takes the place of another needs to be apart from the entries that stay. -/
theorem Keyed.replace {l₁ l₂ : CFlowList} {e e' : CFlow} (h : Keyed d t (l₁ ++ e :: l₂))
    (ha : e'.m_sw.dpid = d ∧ e'.m_table_id = t)
    (hs : ∀ x ∈ l₁ ++ l₂, ¬ x.matchStrict e') (hu : ∀ x ∈ l₁ ++ l₂, x.m_uuid ≠ e'.m_uuid) :
    Keyed d t (l₁ ++ e' :: l₂) where
  addressed := by
    intro x hx
    rcases List.mem_append.mp hx with hx | hx
    · exact h.addressed x (List.mem_append_left _ hx)
    · rcases List.mem_cons.mp hx with rfl | hx
      · exact ha
      · exact h.addressed x (List.mem_append_right _ (List.mem_cons_of_mem e hx))
  strict := by
    apply pairwise_replace h.strict
    · intro x hx
      exact hs x (List.mem_append_left _ hx)
    · intro x hx hxe
      exact hs x (List.mem_append_right _ hx) (CFlow.matchStrict_symm hxe)
  uuids := by
    apply pairwise_replace h.uuids
    · intro x hx
      exact hu x (List.mem_append_left _ hx)
    · intro x hx hxe
      exact hu x (List.mem_append_right _ hx) hxe.symm

theorem Keyed.others {l₁ l₂ : CFlowList} {x : CFlow} (h : Keyed d t (l₁ ++ e :: l₂)) (hx : x ∈ l₁ ++ l₂) :
    ¬ x.matchStrict e ∧ x.m_uuid ≠ e.m_uuid := by
  have hs := List.pairwise_append.mp h.strict
  have hu := List.pairwise_append.mp h.uuids
  rcases List.mem_append.mp hx with hx | hx
  · exact ⟨hs.2.2 x hx e List.mem_cons_self, hu.2.2 x hx e List.mem_cons_self⟩
  · refine ⟨fun hxe => (List.pairwise_cons.mp hs.2.1).1 x hx (CFlow.matchStrict_symm hxe), fun hxe => ?_⟩
    exact (List.pairwise_cons.mp hu.2.1).1 x hx hxe.symm

theorem Keyed.concat (h : Keyed d t l) (ha : e.m_sw.dpid = d ∧ e.m_table_id = t)
    (hs : ∀ x ∈ l, ¬ x.matchStrict e) (hu : ∀ x ∈ l, x.m_uuid ≠ e.m_uuid) : Keyed d t (l ++ [e]) where
  addressed := by
    intro x hx
    rcases List.mem_append.mp hx with hx | hx
    · exact h.addressed x hx
    · rw [List.mem_singleton.mp hx]
      exact ha
  strict := pairwise_concat h.strict hs
  uuids := pairwise_concat h.uuids hu

theorem WellKeyed.setFlowList (h : WellKeyed c) (hl : Keyed d t l)
    (hu : ∀ e ∈ l, ∀ d' t', ∀ e' ∈ c.flows d' t', e.m_uuid = e'.m_uuid → d' = d ∧ t' = t) :
    WellKeyed (c.setFlowList d t l) where
  keyed d' t' := by
    by_cases hd : d' = d ∧ t' = t
    · obtain ⟨rfl, rfl⟩ := hd
      simpa using hl
    · rw [flows_setFlowList_ne hd]
      exact h.keyed d' t'
  apart d₁ t₁ d₂ t₂ e₁ he₁ e₂ he₂ heq := by
    by_cases h₁ : d₁ = d ∧ t₁ = t <;> by_cases h₂ : d₂ = d ∧ t₂ = t
    · exact ⟨h₁.1.trans h₂.1.symm, h₁.2.trans h₂.2.symm⟩
    · rw [h₁.1, h₁.2, flows_setFlowList] at he₁
      rw [flows_setFlowList_ne h₂] at he₂
      exact absurd (hu e₁ he₁ d₂ t₂ e₂ he₂ heq) h₂
    · rw [flows_setFlowList_ne h₁] at he₁
      rw [h₂.1, h₂.2, flows_setFlowList] at he₂
      exact absurd (hu e₂ he₂ d₁ t₁ e₁ he₁ heq.symm) h₁
    · rw [flows_setFlowList_ne h₁] at he₁
      rw [flows_setFlowList_ne h₂] at he₂
      exact h.apart d₁ t₁ d₂ t₂ e₁ he₁ e₂ he₂ heq

theorem WellKeyed.setFlowList_of_uuids (h : WellKeyed c) (hl : Keyed d t l)
    (hu : ∀ e ∈ l, ∃ e' ∈ c.flows d t, e'.m_uuid = e.m_uuid) : WellKeyed (c.setFlowList d t l) := by
  apply h.setFlowList hl
  intro e he d' t' e'' he'' heq
  obtain ⟨e', he', huuid⟩ := hu e he
  exact h.apart d' t' d t e'' he'' e' he' (heq.symm.trans huuid.symm)

theorem WellKeyed.clear : WellKeyed clear where
  keyed d t := Keyed.nil
  apart d t d' t' e he := by simp at he

theorem matchStrict_overwrite {x : CFlow} (h : e.matchStrict flow) :
    x.matchStrict (overwrite flow e) = x.matchStrict e := by
  obtain ⟨h₁, h₂, h₃, h₄, h₅, h₆⟩ := CFlow.matchStrict_iff.mp h
  simp only [CFlow.matchStrict, overwrite, h₁, h₂, h₃, h₄, h₅, h₆]
  rfl

theorem WellKeyed.overwriteFirst (h : WellKeyed c)
    (hl : updateFirst (·.matchStrict flow) (overwrite flow) (c.flows d t) = some l) :
    WellKeyed (c.setFlowList d t l) := by
  obtain ⟨l₁, e, l₂, hflows, rfl, he, -⟩ := updateFirst_some hl
  have hk : Keyed d t (l₁ ++ e :: l₂) := hflows ▸ h.keyed d t
  obtain ⟨hsw, -, -, -, htable, -⟩ := CFlow.matchStrict_iff.mp he
  apply h.setFlowList_of_uuids
  · apply hk.replace
    · simpa [overwrite, hsw, htable] using hk.addressed e (by simp)
    · intro x hx
      rw [matchStrict_overwrite he]
      exact (hk.others hx).1
    · intro x hx
      exact (hk.others hx).2
  · rw [hflows]
    intro x hx
    rcases List.mem_append.mp hx with hx | hx
    · exact ⟨x, List.mem_append_left _ hx, rfl⟩
    · rcases List.mem_cons.mp hx with rfl | hx
      · exact ⟨e, by simp, rfl⟩
      · exact ⟨x, List.mem_append_right _ (List.mem_cons_of_mem e hx), rfl⟩

theorem WellKeyed.sublist (h : WellKeyed c) (hl : l.Sublist (c.flows d t)) : WellKeyed (c.setFlowList d t l) := by
  apply h.setFlowList_of_uuids ((h.keyed d t).sublist hl)
  intro e he
  exact ⟨e, hl.subset he, rfl⟩

def Unused (c : CFlowCache) (uuid : List UINT1) : Prop := ∀ d t, ∀ e ∈ c.flows d t, e.m_uuid ≠ uuid

theorem WellKeyed.addFlow {uuid : List UINT1} {now : UINT8} (h : WellKeyed c) (hu : c.Unused uuid) :
    WellKeyed (c.addFlow flow uuid now).cache := by
  unfold CFlowCache.addFlow
  dsimp only
  cases hl : updateFirst (·.matchStrict flow) (overwrite flow) (c.flows flow.m_sw.dpid flow.m_table_id) with
  | some l => exact h.overwriteFirst hl
  | none =>
    have hs := updateFirst_none.mp hl
    apply h.setFlowList
    · apply (h.keyed flow.m_sw.dpid flow.m_table_id).concat
      · exact ⟨rfl, rfl⟩
      · intro x hx
        simpa [CFlow.matchStrict] using hs x hx
      · exact hu _ _
    · intro e he d' t' e' he' heq
      rcases List.mem_append.mp he with he | he
      · exact h.apart d' t' _ _ e' he' e he heq.symm
      · obtain rfl := List.mem_singleton.mp he
        exact absurd heq.symm (hu d' t' e' he')

theorem WellKeyed.modFlow (h : WellKeyed c) : WellKeyed (c.modFlow flow).cache := by
  unfold CFlowCache.modFlow
  cases hl : c.getFlowList flow.m_sw.dpid flow.m_table_id with
  | none => exact h
  | some l =>
    have hk : Keyed flow.m_sw.dpid flow.m_table_id l := flows_eq hl ▸ h.keyed _ _
    apply h.setFlowList_of_uuids
    · apply hk.map
      · intro e
        split <;> rfl
      · intro e
        split <;> rfl
      · intro e e'
        split <;> split <;> rfl
      · intro e
        split <;> rfl
    · rw [flows_eq hl]
      intro e he
      obtain ⟨e', he', rfl⟩ := List.mem_map.mp he
      refine ⟨e', he', ?_⟩
      split <;> rfl

theorem WellKeyed.modFlowStrict (h : WellKeyed c) : WellKeyed (c.modFlowStrict flow).cache := by
  unfold CFlowCache.modFlowStrict
  cases hl : c.getFlowList flow.m_sw.dpid flow.m_table_id with
  | none => exact h
  | some l =>
    dsimp only
    cases hu : updateFirst (·.matchStrict flow) (overwrite flow) l with
    | none => exact h
    | some l' => exact h.overwriteFirst (flows_eq hl ▸ hu)

theorem WellKeyed.delFlow (h : WellKeyed c) : WellKeyed (c.delFlow flow).cache := by
  unfold CFlowCache.delFlow
  cases hl : c.getFlowList flow.m_sw.dpid flow.m_table_id with
  | none => exact h
  | some l =>
    apply h.sublist
    rw [flows_eq hl]
    exact List.filter_sublist

theorem WellKeyed.delFlowStrict (h : WellKeyed c) : WellKeyed (c.delFlowStrict flow).cache := by
  unfold CFlowCache.delFlowStrict
  split
  · cases hl : c.getFlowList flow.m_sw.dpid flow.m_table_id with
    | none => exact h
    | some l =>
      apply h.sublist
      rw [flows_eq hl]
      exact List.eraseP_sublist
  · split
    · exact h
    · exact h.sublist List.eraseP_sublist

/-- What `recoverFlow` does not check: an entry with another uuid may be strictly equal to the flow, and the uuid may
be that of an entry of another list. -/
def Recoverable (c : CFlowCache) (flow : CFlow) : Prop :=
  (∀ e ∈ c.flows flow.m_sw.dpid flow.m_table_id, e.matchStrict flow → e.m_uuid = flow.m_uuid) ∧
    ∀ d t, ∀ e ∈ c.flows d t, e.m_uuid = flow.m_uuid → d = flow.m_sw.dpid ∧ t = flow.m_table_id

theorem WellKeyed.recoverFlow (h : WellKeyed c) (hr : flow.m_uuid = [] ∨ c.Recoverable flow) :
    WellKeyed (c.recoverFlow flow).cache := by
  unfold CFlowCache.recoverFlow
  split_ifs with hempty
  · exact h
  dsimp only
  obtain ⟨hstrict, huuid⟩ := hr.resolve_left hempty
  have hk := h.keyed flow.m_sw.dpid flow.m_table_id
  cases hl : updateFirst (·.m_uuid = flow.m_uuid) (fun _ => flow) (c.flows flow.m_sw.dpid flow.m_table_id) with
  | none =>
    have hnew : ∀ x ∈ c.flows flow.m_sw.dpid flow.m_table_id, x.m_uuid ≠ flow.m_uuid := by
      simpa using updateFirst_none.mp hl
    apply h.setFlowList
    · apply hk.concat ⟨rfl, rfl⟩ _ hnew
      intro x hx hxs
      exact hnew x hx (hstrict x hx hxs)
    · intro e he d' t' e' he' heq
      rcases List.mem_append.mp he with he | he
      · exact h.apart d' t' _ _ e' he' e he heq.symm
      · obtain rfl := List.mem_singleton.mp he
        exact huuid d' t' e' he' heq.symm
  | some l =>
    obtain ⟨l₁, e, l₂, hflows, rfl, he, -⟩ := updateFirst_some hl
    have he : e.m_uuid = flow.m_uuid := by simpa using he
    rw [hflows] at hk hstrict
    have hsub : ∀ x ∈ l₁ ++ l₂, x ∈ l₁ ++ e :: l₂ := by
      intro x hx
      exact ((List.sublist_cons_self e l₂).append_left l₁).subset hx
    have hother : ∀ x ∈ l₁ ++ l₂, x.m_uuid ≠ flow.m_uuid := by
      intro x hx
      exact he ▸ (hk.others hx).2
    apply h.setFlowList
    · apply hk.replace ⟨rfl, rfl⟩ _ hother
      intro x hx hxs
      exact hother x hx (hstrict x (hsub x hx) hxs)
    · intro x hx d' t' e' he' heq
      by_cases hx' : x.m_uuid = flow.m_uuid
      · exact huuid d' t' e' he' (heq.symm.trans hx')
      · have hmem : x ∈ c.flows flow.m_sw.dpid flow.m_table_id := by
          rw [hflows]
          rcases List.mem_append.mp hx with hx | hx
          · exact List.mem_append_left _ hx
          · rcases List.mem_cons.mp hx with rfl | hx
            · exact absurd rfl hx'
            · exact List.mem_append_right _ (List.mem_cons_of_mem e hx)
        exact h.apart d' t' _ _ e' he' x hmem heq.symm

/-- `uuid_generate_random` gives a uuid that no entry has. -/
def GeneratesUnused (c : CFlowCache) : Event → Prop
  | .add _ uuid _ => c.Unused uuid
  | _ => True

def RecoversApart (c : CFlowCache) : Event → Prop
  | .recover flow => flow.m_uuid = [] ∨ c.Recoverable flow
  | _ => True

theorem WellKeyed.consume {event : Event} (h : WellKeyed c) (hg : c.GeneratesUnused event)
    (hr : c.RecoversApart event) : WellKeyed (c.consume event).cache := by
  cases event with
  | add flow uuid now => exact h.addFlow hg
  | mod flow => exact h.modFlow
  | modStrict flow => exact h.modFlowStrict
  | del flow => exact h.delFlow
  | delStrict flow => exact h.delFlowStrict
  | recover flow => exact h.recoverFlow hr

theorem entries_keyed_uniquely (h : Run step (fun c event => c.GeneratesUnused event ∧ c.RecoversApart event) clear c) :
    WellKeyed c := by
  apply h.invariant _ WellKeyed.clear
  rintro c event c' hc ⟨hg, hr⟩ hstep
  obtain rfl : (c.consume event).cache = c' := Option.some.inj hstep
  exact hc.consume hg hr

def emptyOxm : gn_oxm_t := { field := fun _ => 0, mask := 0 }

def flowOf (uuid : List UINT1) (priority idle_timeout : UINT2) : CFlow where
  m_sw := ⟨0, 7⟩
  m_uuid := uuid
  m_create_time := 0
  m_table_id := 0
  m_idle_timeout := idle_timeout
  m_hard_timeout := 0
  m_priority := priority
  m_match := ⟨1, emptyOxm⟩
  m_instructions := .empty

theorem mem_flows_single (h : e ∈ (clear.setFlowList d t [flow]).flows d' t') : e = flow ∧ d' = d ∧ t' = t := by
  by_cases hd : d' = d ∧ t' = t
  · obtain ⟨rfl, rfl⟩ := hd
    simpa using h
  · rw [flows_setFlowList_ne hd] at h
    simp at h

theorem add_then_recover_keyed :
    WellKeyed ((clear.consume (.add (flowOf [] 1 0) [1] 0)).cache.consume (.recover (flowOf [2] 2 0))).cache := by
  have hadd : (clear.consume (.add (flowOf [] 1 0) [1] 0)).cache = clear.setFlowList 7 0 [flowOf [1] 1 0] := rfl
  apply entries_keyed_uniquely
  refine (Run.refl.tail (a := .add (flowOf [] 1 0) [1] 0) ⟨?_, trivial⟩ rfl).tail
    (a := .recover (flowOf [2] 2 0)) ⟨trivial, .inr ?_⟩ rfl
  · rw [hadd]
    constructor
    · intro e he hs
      obtain ⟨rfl, -⟩ := mem_flows_single he
      exact absurd hs (by decide)
    · intro d t e he hu
      obtain ⟨rfl, -⟩ := mem_flows_single he
      exact absurd hu (by decide)
  · intro d t e he
    simp at he

/-- Two recovered flows that differ in their uuids only are both kept. -/
theorem equal_flows_recovered : ¬ ∀ c, Run step GeneratesUnused clear c → WellKeyed c := by
  intro h
  have hrun : Run step GeneratesUnused clear
      (clear.setFlowList 7 0 [flowOf [1] 0 0] |>.setFlowList 7 0 [flowOf [1] 0 0, flowOf [2] 0 0]) :=
    (Run.refl.tail (a := .recover (flowOf [1] 0 0)) trivial rfl).tail (a := .recover (flowOf [2] 0 0)) trivial rfl
  have hstrict := ((h _ hrun).keyed 7 0).strict
  rw [flows_setFlowList] at hstrict
  exact (List.pairwise_cons.mp hstrict).1 (flowOf [2] 0 0) List.mem_cons_self (by decide)

end CFlowCache

end DCFabric
