import DCFabric.ListSyncCuts

namespace Std.TreeMap

open Std.DTreeMap.Internal

variable {α β : Type} {cmp : α → α → Ordering} {t : Std.TreeMap α β cmp} {b : β}

theorem map_const_impl {t : Impl α fun _ => β} [Ord α] (h : ∀ e ∈ t.toListModel, e.2 = b) :
    t.map (fun _ _ => b) = t := by
  induction t with
  | leaf => rfl
  | inner size k v l r hl hr =>
    simp only [Impl.toListModel_inner, List.forall_mem_append, List.forall_mem_cons] at h
    obtain ⟨hleft, rfl, hright⟩ := h
    rw [Impl.map, hl hleft, hr hright]

theorem map_const_eq_iff : t.map (fun _ _ => b) = t ↔ ∀ e ∈ t.toList, e.2 = b := by
  constructor
  · intro h e he
    rw [← h, toList_map] at he
    obtain ⟨e', -, rfl⟩ := List.mem_map.mp he
    rfl
  · intro h
    obtain ⟨⟨inner, wf⟩⟩ := t
    let _ : Ord α := ⟨cmp⟩
    have hinner : inner.map (fun _ _ => b) = inner := by
      apply map_const_impl
      intro e he
      apply h (e.1, e.2)
      change (e.1, e.2) ∈ Impl.Const.toList inner
      rw [Impl.Const.toList_eq_toListModel_map]
      exact List.mem_map_of_mem he
    simp only [map, DTreeMap.map]
    congr 2

theorem eq_empty_iff : t = ∅ ↔ t.toList = [] := by
  constructor
  · rintro rfl
    rfl
  · intro h
    obtain ⟨⟨inner, wf⟩⟩ := t
    change Impl.Const.toList inner = [] at h
    rw [Impl.Const.toList_eq_toListModel_map] at h
    cases inner with
    | leaf => rfl
    | inner size k v l r => simp at h

end Std.TreeMap

namespace DCFabric

open TlvStreams

namespace NeighborTable

theorem clearPorts_eq_iff {tbl : NeighborTable} : tbl.clearPorts = tbl ↔ tbl.entries = [] := by
  rw [funext_iff]
  simp only [clearPorts, Std.TreeMap.map_const_eq_iff, entries, List.flatMap_eq_nil_iff, List.mem_finRange,
    true_imp_iff,
    List.map_eq_nil_iff]
  exact forall_congr' fun i => forall₂_congr fun sw _ => Std.TreeMap.eq_empty_iff

end NeighborTable

namespace ListOper

/-- The type of the TLV that begins a record. -/
def firstType : ListOper → UINT2
  | hostList => HOST_TYPE
  | natIcmpList => NAT_ICMP_IDENTIFIER
  | natHostList => NAT_HOST_PROTOCOL
  | topoLinkList => TOPO_LINK_STATE
  | switchTagList => SW_TAG_DPID
  | flowEntryList => FLOW_ENTRY_SW_DPID

/-- The table is without entries, or not one that the function clears. -/
def Empty (w : ControllerTables) : ListOper → Prop
  | hostList => w.hostMgr.m_list = []
  | natIcmpList => w.natIcmpMap.toList = []
  | natHostList => w.snatConns.toList = []
  | topoLinkList => w.neighbors.entries = []
  | switchTagList => True
  | flowEntryList => ∀ dpid tableId, w.flowCache.getFlowList dpid tableId = none

/-- The first TLV lies within the body and begins a record. -/
def Opens (l : ListOper) (m : Memory) (data len : ℕ) : Prop :=
  4 + (visit m data).len ≤ len ∧ (visit m data).type = l.firstType

variable {l : ListOper} {w : ControllerTables} {L : Type} {d : Recover L}

theorem clear_eq_iff (h : l.oper.recovery = .loop d) : d.clear w = w ↔ l.Empty w := by
  obtain ⟨hostMgr, natIcmpMap, snatConns, neighbors, pathChanged, switches, tagMgr, flowCache, reported⟩ := w
  cases l with
  | hostList =>
    cases h
    obtain ⟨m_list, distinct⟩ := hostMgr
    simp [recoverHostList, Empty, CHostMgr.clear, eq_comm]
  | natIcmpList =>
    cases h
    obtain ⟨toList, sorted⟩ := natIcmpMap
    simp [recoverNatIcmpList, Empty, SortedMaps.KeyedMap.empty, eq_comm]
  | natHostList =>
    cases h
    obtain ⟨toList, sorted⟩ := snatConns
    simp [recoverNatHostList, Empty, SortedMaps.KeyedMap.empty, eq_comm]
  | topoLinkList =>
    cases h
    simp [recoverTopoLinkList, Empty, NeighborTable.clearPorts_eq_iff]
  | switchTagList =>
    cases h
    exact iff_of_true rfl trivial
  | flowEntryList =>
    cases h
    obtain ⟨m_map⟩ := flowCache
    simp [recoverFlowEntryList, Empty, CFlowCache.clear, CFlowCache.getFlowList, funext_iff, eq_comm]

theorem returns_ok (h : l.oper.recovery = .loop d) : d.rejected = BNC_ERR ∧ ∀ s, (d.finish s).1 = BNC_OK := by
  cases l <;> cases h <;> exact ⟨rfl, fun _ => rfl⟩

theorem opens_iff {m : Memory} {data len : ℕ} (h : l.oper.recovery = .loop d) :
    d.Opens m data len ↔ l.Opens m data len := by
  cases l <;> cases h <;> exact Iff.rfl

/-- A list function that returns an error leaves the tables as they were if and only if the body is shorter than a
header, or opens with a record so that there is no error, or the table was empty before. -/
theorem error_unchanged_iff (l : ListOper) (m : Memory) (data len : ℕ) (w : ControllerTables) :
    (∀ fuel w', l.oper.recovery.recover m data len w fuel = some (BNC_ERR, w') → w' = w) ↔
      len < 4 ∨ l.Opens m data len ∨ l.Empty w := by
  obtain ⟨L, d, hd⟩ : ∃ (L : Type) (d : Recover L), l.oper.recovery = .loop d := by
    cases l <;> exact ⟨_, _, rfl⟩
  obtain ⟨hrejected, hfinish⟩ := returns_ok hd
  rw [← clear_eq_iff hd, ← opens_iff hd, hd, ← hrejected]
  apply Decoder.rejected_unchanged_iff
  intro s
  rw [hrejected, hfinish]
  decide

/-- A body of one TLV of an unknown type, for a controller that knows one ICMP session. -/
theorem unknown_type_clears : ¬ ∀ (l : ListOper) (m : Memory) (data len : ℕ) (w : ControllerTables) (fuel : ℕ)
    (w' : ControllerTables), l.oper.recovery.recover m data len w fuel = some (BNC_ERR, w') → w' = w := by
  intro h
  have hcleared := h .natIcmpList (fun _ => 0) 0 8
    { ControllerTables.empty with natIcmpMap := .put .empty ⟨7, 1, 2, 3, 4⟩ } 0 _ rfl
  have hlist := congrArg (fun w => w.natIcmpMap.toList) hcleared
  cases hlist

end ListOper

end DCFabric
