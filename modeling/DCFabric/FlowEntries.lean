import DCFabric.FlowEntryRecover
import DCFabric.FlowRefinement
import DCFabric.DoublyLinked
import DCFabric.TransitionRuns

namespace DCFabric

open ListUpdates TransitionRuns

/-- What `copy_flow_entry` keeps of an action: the type, with the data of a zeroed node. -/
def copy_action : CFlowAction → CFlowAction
  | .output _ => .output 0
  | .mpls_ttl _ => .mpls_ttl 0
  | .set_queue _ => .set_queue 0
  | .group _ => .group 0
  | .set_nw_ttl _ => .set_nw_ttl 0
  | .set_field _ => .set_field CFlowCache.emptyOxm
  | .experimenter _ => .experimenter 0
  | action => action

/-- What `copy_flow_entry` keeps of an instruction: the type and the copied actions. -/
def copy_instruction : gn_instruction_t → gn_instruction_t
  | .goto_table _ => .goto_table 0
  | .write_metadata _ _ => .write_metadata 0 0
  | .write_actions actions => .write_actions (actions.map copy_action)
  | .apply_actions actions => .apply_actions (actions.map copy_action)
  | .meter _ => .meter 0
  | .experimenter _ _ => .experimenter 0 0
  | instruction => instruction

def copy_flow_entry (src : gn_flow_t) : gn_flow_t :=
  { src with instructions := src.instructions.map copy_instruction }

/-- The matches are compared byte by byte. -/
def match_compare_strict (src_match target_match : gn_match_t) : Bool := src_match.oxm_fields = target_match.oxm_fields

/-- `sw->flow_entries` of a connected switch, in nodes of the flow pool. -/
abbrev FlowList := LinkedHeap gn_flow_t

/-- The calls, with the uuid that is generated and the node that the pool gives where an entry is recorded, and with
whether the controller sends flow-mods. -/
inductive FlowEntryCall where
  | add_flow_entry (flow : gn_flow_t) (uuid : List UINT1) (node : ℕ)
  | modify_flow_entry (flow : gn_flow_t)
  | delete_flow_entry (flow : gn_flow_t)
  | clean_flow_entry (flow : gn_flow_t)
  | flow_entry_timeout (flow : gn_flow_t)
  | clear_flow_entries (sends : Bool) (uuid : List UINT1) (node : ℕ)

namespace FlowList

-- the number of nodes in the pool, which bounds the way along a list
variable (g_max_flowentry : ℕ)

def find_flow_entry_by_id (h : FlowList) (flow : gn_flow_t) : Option ℕ :=
  h.findFrom (fun p_flow => p_flow.uuid = flow.uuid) g_max_flowentry h.head

def find_flow_entry (h : FlowList) (flow : gn_flow_t) : Option ℕ :=
  h.findFrom (fun p_flow => match_compare_strict p_flow.gn_match flow.gn_match) g_max_flowentry h.head

/-- The pool gives a node that is not in the list. -/
def add_flow_entry (h : FlowList) (flow : gn_flow_t) (uuid : List UINT1) (node : ℕ) : Option FlowList :=
  match h.find_flow_entry g_max_flowentry flow with
  | some _ => some h
  | none =>
    if node < g_max_flowentry ∧ node ∉ h.nodes g_max_flowentry then
      some (h.append g_max_flowentry node (copy_flow_entry { flow with uuid := uuid }))
    else none

def modify_flow_entry (h : FlowList) (flow : gn_flow_t) : FlowList :=
  match h.find_flow_entry_by_id g_max_flowentry flow with
  | some p_flow => h.setValue p_flow { (h.mem p_flow).value with instructions := flow.instructions }
  | none => h

def delete_flow_entry (h : FlowList) (flow : gn_flow_t) : FlowList :=
  match h.find_flow_entry_by_id g_max_flowentry flow with
  | some p_flow => h.unlink p_flow
  | none => h

def clean_flow_entry (h : FlowList) (flow : gn_flow_t) : FlowList :=
  h.unlinkFrom (fun p_flow => match_compare_strict p_flow.gn_match flow.gn_match) g_max_flowentry h.head

/-- The node before is linked to the one after twice. -/
def flow_entry_timeout (h : FlowList) (flow : gn_flow_t) : FlowList :=
  match h.find_flow_entry g_max_flowentry flow with
  | some p_flow =>
    let h := match (h.mem p_flow).prev with
      | none => { h with head := (h.mem p_flow).next }
      | some prev => h.setNext prev (h.mem p_flow).next
    h.unlink p_flow
  | none => h

/-- The flow with no match of `clear_flow_entries`, which stands for all flows. -/
def allFlows : gn_flow_t := { gn_flow_t.zero with table_id := OFPTT_ALL, gn_match := ⟨OFPMT_OXM, CFlowCache.emptyOxm⟩ }

def tableMiss : gn_flow_t :=
  { gn_flow_t.zero with
    gn_match := ⟨OFPMT_OXM, CFlowCache.emptyOxm⟩
    instructions := [.apply_actions [.output OFPP13_CONTROLLER]] }

/-- Sending the flow-mods cleans the flows with no match and records the table-miss flow. -/
def clear_flow_entries (h : FlowList) (sends : Bool) (uuid : List UINT1) (node : ℕ) : Option FlowList :=
  if sends then
    ((h.clean_flow_entry g_max_flowentry allFlows).add_flow_entry g_max_flowentry tableMiss uuid node).map
      fun h => { h with head := none }
  else some { h with head := none }

def call (h : FlowList) : FlowEntryCall → Option FlowList
  | .add_flow_entry flow uuid node => h.add_flow_entry g_max_flowentry flow uuid node
  | .modify_flow_entry flow => some (h.modify_flow_entry g_max_flowentry flow)
  | .delete_flow_entry flow => some (h.delete_flow_entry g_max_flowentry flow)
  | .clean_flow_entry flow => some (h.clean_flow_entry g_max_flowentry flow)
  | .flow_entry_timeout flow => some (h.flow_entry_timeout g_max_flowentry flow)
  | .clear_flow_entries sends uuid node => h.clear_flow_entries g_max_flowentry sends uuid node

/-- The flows of the list in its order. -/
def entries (h : FlowList) : List gn_flow_t := (h.nodes g_max_flowentry).map fun a => (h.mem a).value

/-- The nodes are a doubly linked list of different nodes of the pool, from the head to a last one. -/
def WellFormed (h : FlowList) : Prop := ∃ l, h.Linked l ∧ l.Nodup ∧ ∀ a ∈ l, a < g_max_flowentry

variable {g_max_flowentry} {h h' : FlowList} {flow : gn_flow_t} {l l₁ l₂ : List ℕ} {a : ℕ} {p : gn_flow_t → Bool}

theorem length_le (hn : l.Nodup) (hlt : ∀ a ∈ l, a < g_max_flowentry) : l.length ≤ g_max_flowentry := by
  have hsub : l ⊆ List.range g_max_flowentry := fun a ha => List.mem_range.mpr (hlt a ha)
  simpa using (List.subperm_of_subset hn hsub).length_le

theorem entries_eq (hl : h.Linked l) (hn : l.Nodup) (hlt : ∀ a ∈ l, a < g_max_flowentry) :
    h.entries g_max_flowentry = l.map fun a => (h.mem a).value := by
  rw [entries, LinkedHeap.nodes_eq hl (length_le hn hlt)]

/-- A search finds the first entry of its kind. -/
theorem findFrom_cases (hl : h.Linked l) (hn : l.Nodup) (hlt : ∀ a ∈ l, a < g_max_flowentry) (p : gn_flow_t → Bool) :
    (h.findFrom p g_max_flowentry h.head = none ∧ ∀ a ∈ l, p (h.mem a).value = false) ∨
      ∃ l₁ a l₂, l = l₁ ++ a :: l₂ ∧ h.findFrom p g_max_flowentry h.head = some a ∧ p (h.mem a).value ∧
        ∀ b ∈ l₁, p (h.mem b).value = false := by
  have hfind := LinkedHeap.findFrom_eq (p := p) (show h.Linked ([] ++ l) from hl) (length_le hn hlt)
  rw [← hl.1] at hfind
  rw [hfind]
  cases hf : l.find? fun a => p (h.mem a).value with
  | none => exact .inl ⟨rfl, by simpa using List.find?_eq_none.mp hf⟩
  | some a =>
    obtain ⟨ha, l₁, l₂, rfl, hl₁⟩ := List.find?_eq_some_iff_append.mp hf
    exact .inr ⟨l₁, a, l₂, rfl, rfl, ha, by simpa using hl₁⟩

/-- What is left when the first entry of a kind is unlinked. -/
theorem unlink_first (hl : h.Linked (l₁ ++ a :: l₂)) (hn : (l₁ ++ a :: l₂).Nodup)
    (hlt : ∀ b ∈ l₁ ++ a :: l₂, b < g_max_flowentry) (p : gn_flow_t → Bool) (ha : p (h.mem a).value)
    (hl₁ : ∀ b ∈ l₁, p (h.mem b).value = false) :
    WellFormed g_max_flowentry (h.unlink a) ∧
      entries g_max_flowentry (h.unlink a) = (h.entries g_max_flowentry).eraseP p := by
  have hn' : (l₁ ++ l₂).Nodup := hn.sublist ((List.sublist_cons_self a l₂).append_left l₁)
  have hlt' : ∀ b ∈ l₁ ++ l₂, b < g_max_flowentry := by
    intro b hb
    apply hlt b
    rcases List.mem_append.mp hb with hb | hb
    · exact List.mem_append_left _ hb
    · exact List.mem_append_right _ (List.mem_cons_of_mem a hb)
  refine ⟨⟨l₁ ++ l₂, hl.unlink hn, hn', hlt'⟩, ?_⟩
  have hskip : ∀ g ∈ l₁.map fun b => (h.mem b).value, ¬ p g := by simpa using hl₁
  rw [entries_eq (hl.unlink hn) hn' hlt', entries_eq hl hn hlt]
  simp only [LinkedHeap.unlink_value, List.map_append, List.map_cons]
  rw [List.eraseP_append_right _ hskip, List.eraseP_cons_of_pos ha]

theorem delete_spec (flow : gn_flow_t) (hw : h.WellFormed g_max_flowentry) :
    (h.delete_flow_entry g_max_flowentry flow).WellFormed g_max_flowentry ∧
      (h.delete_flow_entry g_max_flowentry flow).entries g_max_flowentry =
        (h.entries g_max_flowentry).eraseP fun g => g.uuid = flow.uuid := by
  obtain ⟨l, hl, hn, hlt⟩ := hw
  rw [delete_flow_entry, find_flow_entry_by_id]
  rcases findFrom_cases hl hn hlt fun g => g.uuid = flow.uuid with ⟨hf, hno⟩ | ⟨l₁, a, l₂, rfl, hf, ha, hl₁⟩
  · rw [hf]
    refine ⟨⟨l, hl, hn, hlt⟩, ?_⟩
    rw [List.eraseP_of_forall_not]
    rw [entries_eq hl hn hlt]
    simpa using hno
  · rw [hf]
    exact unlink_first hl hn hlt _ ha hl₁

/-- The first way past the node changes nothing that `unlink` does not change. -/
theorem unlink_skipped (hl : h.Linked (l₁ ++ a :: l₂)) (hn : (l₁ ++ a :: l₂).Nodup) :
    LinkedHeap.unlink (match (h.mem a).prev with
      | none => { h with head := (h.mem a).next }
      | some prev => h.setNext prev (h.mem a).next) a = h.unlink a := by
  rw [hl.prev, hl.next]
  cases hg : l₁.getLast? with
  | none =>
    simp only [LinkedHeap.unlink, hl.next, hl.prev, hg]
    cases hh : l₂.head? with
    | none => simp [hl.prev, hl.next, hg, hh]
    | some n =>
      have hna : a ≠ n := by
        rintro rfl
        exact (List.nodup_cons.mp (List.nodup_append.mp hn).2.1).1 (List.mem_of_head? hh)
      simp [LinkedHeap.setPrev, hna, hl.prev, hl.next, hg, hh]
  | some q =>
    have hqa : a ≠ q := by
      rintro rfl
      exact (List.nodup_append.mp hn).2.2 a (List.mem_of_getLast? hg) a List.mem_cons_self rfl
    simp only [LinkedHeap.unlink, LinkedHeap.setNext_mem, if_neg hqa, hl.next, hl.prev, hg]
    cases hh : l₂.head? with
    | none =>
      simp only [LinkedHeap.setNext_mem, if_neg hqa, hl.next, hl.prev, hg, hh]
      simp [LinkedHeap.setNext]
    | some n =>
      have hna : a ≠ n := by
        rintro rfl
        exact (List.nodup_cons.mp (List.nodup_append.mp hn).2.1).1 (List.mem_of_head? hh)
      have hqn : q ≠ n :=
        (List.nodup_append.mp hn).2.2 q (List.mem_of_getLast? hg) n (List.mem_cons_of_mem a (List.mem_of_head? hh))
      simp only [LinkedHeap.setPrev_mem, LinkedHeap.setNext_mem, if_neg hqa, if_neg hna, hl.next, hl.prev, hg, hh]
      simp [LinkedHeap.setNext, LinkedHeap.setPrev, hqn, hqn.symm, Function.update_comm]

theorem timeout_spec (flow : gn_flow_t) (hw : h.WellFormed g_max_flowentry) :
    (h.flow_entry_timeout g_max_flowentry flow).WellFormed g_max_flowentry ∧
      (h.flow_entry_timeout g_max_flowentry flow).entries g_max_flowentry =
        (h.entries g_max_flowentry).eraseP fun g => match_compare_strict g.gn_match flow.gn_match := by
  obtain ⟨l, hl, hn, hlt⟩ := hw
  rw [flow_entry_timeout, find_flow_entry]
  rcases findFrom_cases hl hn hlt fun g => match_compare_strict g.gn_match flow.gn_match with
    ⟨hf, hno⟩ | ⟨l₁, a, l₂, rfl, hf, ha, hl₁⟩
  · rw [hf]
    refine ⟨⟨l, hl, hn, hlt⟩, ?_⟩
    rw [List.eraseP_of_forall_not]
    rw [entries_eq hl hn hlt]
    simpa using hno
  · rw [hf]
    simp only [unlink_skipped hl hn]
    exact unlink_first hl hn hlt _ ha hl₁

theorem clean_spec (flow : gn_flow_t) (hw : h.WellFormed g_max_flowentry) :
    (h.clean_flow_entry g_max_flowentry flow).WellFormed g_max_flowentry ∧
      (h.clean_flow_entry g_max_flowentry flow).entries g_max_flowentry =
        (h.entries g_max_flowentry).filter fun g => !match_compare_strict g.gn_match flow.gn_match := by
  obtain ⟨l, hl, hn, hlt⟩ := hw
  have hclean := LinkedHeap.Linked.unlinkFrom (show h.Linked ([] ++ l) from hl) hn (length_le hn hlt)
    (p := fun g => match_compare_strict g.gn_match flow.gn_match)
  rw [List.nil_append, ← hl.1] at hclean
  have hn' := hn.filter fun a => !match_compare_strict (h.mem a).value.gn_match flow.gn_match
  have hlt' : ∀ a ∈ l.filter fun a => !match_compare_strict (h.mem a).value.gn_match flow.gn_match,
      a < g_max_flowentry := fun a ha => hlt a (List.mem_of_mem_filter ha)
  refine ⟨⟨_, hclean, hn', hlt'⟩, ?_⟩
  rw [entries_eq hl hn hlt, clean_flow_entry, entries_eq hclean hn' hlt', List.filter_map]
  simp only [LinkedHeap.unlinkFrom_value]
  rfl

theorem add_spec {uuid : List UINT1} {node : ℕ} (hw : h.WellFormed g_max_flowentry)
    (he : h.add_flow_entry g_max_flowentry flow uuid node = some h') :
    h'.WellFormed g_max_flowentry ∧ h'.entries g_max_flowentry =
      if ∃ g ∈ h.entries g_max_flowentry, match_compare_strict g.gn_match flow.gn_match then h.entries g_max_flowentry
      else h.entries g_max_flowentry ++ [copy_flow_entry { flow with uuid := uuid }] := by
  obtain ⟨l, hl, hn, hlt⟩ := hw
  rw [add_flow_entry, find_flow_entry] at he
  rcases findFrom_cases hl hn hlt fun g => match_compare_strict g.gn_match flow.gn_match with
    ⟨hf, hno⟩ | ⟨l₁, a, l₂, rfl, hf, ha, hl₁⟩
  · rw [hf] at he
    obtain ⟨⟨hnode, hfree⟩, hs⟩ := Option.ite_none_right_eq_some.mp he
    obtain rfl := Option.some.inj hs
    rw [LinkedHeap.nodes_eq hl (length_le hn hlt)] at hfree
    have hn' : (l ++ [node]).Nodup := List.nodup_append.mpr ⟨hn, List.nodup_singleton node, by
      rintro b hb c hc rfl
      exact hfree (List.mem_singleton.mp hc ▸ hb)⟩
    have hlt' : ∀ b ∈ l ++ [node], b < g_max_flowentry := by
      intro b hb
      rcases List.mem_append.mp hb with hb | hb
      · exact hlt b hb
      · exact List.mem_singleton.mp hb ▸ hnode
    have happ := hl.append hn' (length_le hn hlt) (copy_flow_entry { flow with uuid := uuid })
    refine ⟨⟨_, happ, hn', hlt'⟩, ?_⟩
    rw [if_neg, entries_eq happ hn' hlt', entries_eq hl hn hlt, List.map_append]
    · congr 1
      · apply List.map_congr_left
        intro b hb
        rw [LinkedHeap.append_value, if_neg]
        rintro rfl
        exact hfree hb
      · simp [LinkedHeap.append_value]
    · rw [entries_eq hl hn hlt]
      simpa using hno
  · rw [hf] at he
    obtain rfl : h = h' := Option.some.inj he
    refine ⟨⟨_, hl, hn, hlt⟩, ?_⟩
    rw [if_pos]
    rw [entries_eq hl hn hlt]
    exact ⟨(h.mem a).value, by simp, ha⟩

theorem modify_spec (flow : gn_flow_t) (hw : h.WellFormed g_max_flowentry) {β : Type} (k : gn_flow_t → β)
    (hk : ∀ g instructions, k { g with instructions := instructions } = k g) :
    (h.modify_flow_entry g_max_flowentry flow).WellFormed g_max_flowentry ∧
      ((h.modify_flow_entry g_max_flowentry flow).entries g_max_flowentry).map k =
        (h.entries g_max_flowentry).map k := by
  obtain ⟨l, hl, hn, hlt⟩ := hw
  rw [modify_flow_entry]
  cases h.find_flow_entry_by_id g_max_flowentry flow with
  | none => exact ⟨⟨l, hl, hn, hlt⟩, rfl⟩
  | some a =>
    have hset := hl.setValue a { (h.mem a).value with instructions := flow.instructions }
    refine ⟨⟨l, hset, hn, hlt⟩, ?_⟩
    simp only
    rw [entries_eq hset hn hlt, entries_eq hl hn hlt, List.map_map, List.map_map]
    apply List.map_congr_left
    intro b _
    simp only [Function.comp_apply, LinkedHeap.setValue_value]
    split_ifs with hb
    · rw [hb, hk]
    · rfl

theorem clear_spec {sends : Bool} {uuid : List UINT1} {node : ℕ}
    (he : h.clear_flow_entries g_max_flowentry sends uuid node = some h') :
    h'.WellFormed g_max_flowentry ∧ h'.entries g_max_flowentry = [] := by
  have hhead : h'.head = none := by
    cases sends with
    | true =>
      obtain ⟨t, -, rfl⟩ := Option.map_eq_some_iff.mp he
      rfl
    | false =>
      obtain rfl := Option.some.inj he
      rfl
  have hl := LinkedHeap.linked_nil hhead
  refine ⟨⟨[], hl, List.nodup_nil, by simp⟩, ?_⟩
  rw [entries_eq hl List.nodup_nil (by simp)]
  rfl

end FlowList

/-- A flow that was added, by what identifies it. -/
structure AddedFlow where
  uuid : List UINT1
  table_id : UINT1
  priority : UINT2
  oxm_fields : gn_oxm_t
deriving DecidableEq

def gn_flow_t.identity (flow : gn_flow_t) : AddedFlow :=
  ⟨flow.uuid, flow.table_id, flow.priority, flow.gn_match.oxm_fields⟩

/-- The same table, priority and match. -/
def AddedFlow.SameFlow (r t : AddedFlow) : Prop :=
  r.table_id = t.table_id ∧ r.priority = t.priority ∧ r.oxm_fields = t.oxm_fields

instance (r t : AddedFlow) : Decidable (r.SameFlow t) := inferInstanceAs (Decidable (_ ∧ _ ∧ _))

/-- The flows that were added and not removed since, after a call. -/
def recordsAfter (added : List AddedFlow) : FlowEntryCall → List AddedFlow
  | .add_flow_entry flow uuid _ =>
    if ∃ r ∈ added, r.SameFlow flow.identity then added else added ++ [{ flow.identity with uuid := uuid }]
  | .modify_flow_entry _ => added
  | .delete_flow_entry flow => added.eraseP fun r => r.uuid = flow.uuid
  | .clean_flow_entry flow => added.filter fun r => r.oxm_fields ≠ flow.gn_match.oxm_fields
  | .flow_entry_timeout flow => added.eraseP fun r => r.SameFlow flow.identity
  | .clear_flow_entries _ _ _ => []

/-- What identifies the entries after a call: a call that goes by the match does not see the table and the priority. -/
def identitiesAfter (entries : List AddedFlow) : FlowEntryCall → List AddedFlow
  | .add_flow_entry flow uuid _ =>
    if ∃ t ∈ entries, t.oxm_fields = flow.gn_match.oxm_fields then entries
    else entries ++ [{ flow.identity with uuid := uuid }]
  | .modify_flow_entry _ => entries
  | .delete_flow_entry flow => entries.eraseP fun t => t.uuid = flow.uuid
  | .clean_flow_entry flow => entries.filter fun t => t.oxm_fields ≠ flow.gn_match.oxm_fields
  | .flow_entry_timeout flow => entries.eraseP fun t => t.oxm_fields = flow.gn_match.oxm_fields
  | .clear_flow_entries _ _ _ => []

/-- An entry with the match of a flow that is added or has timed out is one for its table and priority too. -/
def MatchIdentifies (entries : List AddedFlow) : FlowEntryCall → Prop
  | .add_flow_entry flow _ _ | .flow_entry_timeout flow =>
    ∀ t ∈ entries, t.oxm_fields = flow.gn_match.oxm_fields → t.SameFlow flow.identity
  | _ => True

variable {l : List AddedFlow} {c : FlowEntryCall} {r t : AddedFlow}

theorem identitiesAfter_nodup (hn : (l.map AddedFlow.oxm_fields).Nodup) (c : FlowEntryCall) :
    ((identitiesAfter l c).map AddedFlow.oxm_fields).Nodup := by
  cases c with
  | add_flow_entry flow uuid node =>
    rw [identitiesAfter]
    split_ifs with hex
    · exact hn
    · rw [List.map_append, List.nodup_append]
      refine ⟨hn, List.nodup_singleton _, ?_⟩
      rintro a ha b hb rfl
      obtain ⟨t, ht, rfl⟩ := List.mem_map.mp ha
      exact hex ⟨t, ht, List.mem_singleton.mp hb⟩
  | modify_flow_entry flow => exact hn
  | delete_flow_entry flow => exact hn.sublist (List.eraseP_sublist.map _)
  | clean_flow_entry flow => exact hn.sublist (List.filter_sublist.map _)
  | flow_entry_timeout flow => exact hn.sublist (List.eraseP_sublist.map _)
  | clear_flow_entries sends uuid node => exact List.nodup_nil

theorem eq_of_match (hn : (l.map AddedFlow.oxm_fields).Nodup) (hr : r ∈ l) (ht : t ∈ l)
    (hm : r.oxm_fields = t.oxm_fields) : r = t := List.inj_on_of_nodup_map hn hr ht hm

/-- Where the match identifies the flow, a call does to the entries what it does to the added flows. -/
theorem identitiesAfter_eq (hc : MatchIdentifies l c) : identitiesAfter l c = recordsAfter l c := by
  cases c with
  | add_flow_entry flow uuid node =>
    have hiff : (∃ t ∈ l, t.oxm_fields = flow.gn_match.oxm_fields) ↔ ∃ t ∈ l, t.SameFlow flow.identity := by
      constructor
      · rintro ⟨t, ht, hm⟩
        exact ⟨t, ht, hc t ht hm⟩
      · rintro ⟨t, ht, hm⟩
        exact ⟨t, ht, hm.2.2⟩
    simp only [identitiesAfter, recordsAfter, hiff]
  | flow_entry_timeout flow =>
    apply eraseP_congr
    intro t ht
    rw [decide_eq_decide]
    exact ⟨hc t ht, fun hm => hm.2.2⟩
  | modify_flow_entry flow => rfl
  | delete_flow_entry flow => rfl
  | clean_flow_entry flow => rfl
  | clear_flow_entries sends uuid node => rfl

theorem not_mem_timeout {flow : gn_flow_t} (hn : (l.map AddedFlow.oxm_fields).Nodup)
    (ht : t ∈ identitiesAfter l (.flow_entry_timeout flow)) : t.oxm_fields ≠ flow.gn_match.oxm_fields := by
  intro hm
  obtain ⟨a, l₁, l₂, hl₁, ha, rfl, he⟩ :=
    List.exists_of_eraseP (p := fun t => t.oxm_fields = flow.gn_match.oxm_fields) (List.mem_of_mem_eraseP ht)
      (by simpa using hm)
  rw [identitiesAfter, he] at ht
  rcases List.mem_append.mp ht with ht | ht
  · exact hl₁ t ht (by simpa using hm)
  · rw [List.map_append, List.map_cons] at hn
    have hnot := (List.nodup_cons.mp (List.nodup_append.mp hn).2.1).1
    exact hnot (List.mem_map.mpr ⟨t, ht, hm.trans (of_decide_eq_true ha).symm⟩)

/-- A call that goes by the match alone and hits another flow makes the entries differ from the added flows. -/
theorem matchIdentifies_of_same (hn : (l.map AddedFlow.oxm_fields).Nodup)
    (h : ∀ r : AddedFlow, (∃ t ∈ identitiesAfter l c, t.SameFlow r) ↔ ∃ t ∈ recordsAfter l c, t.SameFlow r) :
    MatchIdentifies l c := by
  cases c with
  | add_flow_entry flow uuid node =>
    intro t ht hm
    by_contra hother
    have hnone : ¬ ∃ r ∈ l, r.SameFlow flow.identity := by
      rintro ⟨r, hr, hsame⟩
      obtain rfl := eq_of_match hn hr ht (hsame.2.2.trans hm.symm)
      exact hother hsame
    have hrec : recordsAfter l (.add_flow_entry flow uuid node) = l ++ [{ flow.identity with uuid := uuid }] :=
      if_neg hnone
    have hent : identitiesAfter l (.add_flow_entry flow uuid node) = l := if_pos ⟨t, ht, hm⟩
    have hadded := (h flow.identity).mpr
    rw [hrec, hent] at hadded
    exact hnone (hadded ⟨{ flow.identity with uuid := uuid }, by simp, rfl, rfl, rfl⟩)
  | flow_entry_timeout flow =>
    intro t ht hm
    by_contra hother
    have hrec : recordsAfter l (.flow_entry_timeout flow) = l := by
      apply List.eraseP_of_forall_not
      intro r hr hsame
      obtain rfl := eq_of_match hn hr ht ((of_decide_eq_true hsame).2.2.trans hm.symm)
      exact hother (of_decide_eq_true hsame)
    have hkept := (h t).mpr
    rw [hrec] at hkept
    obtain ⟨r, hr, hsame⟩ := hkept ⟨t, ht, rfl, rfl, rfl⟩
    exact not_mem_timeout hn hr (hsame.2.2.trans hm)
  | modify_flow_entry flow => trivial
  | delete_flow_entry flow => trivial
  | clean_flow_entry flow => trivial
  | clear_flow_entries sends uuid node => trivial

instance (entries : List AddedFlow) (c : FlowEntryCall) : Decidable (MatchIdentifies entries c) :=
  match c with
  | .add_flow_entry flow _ _ | .flow_entry_timeout flow =>
    inferInstanceAs (Decidable (∀ t ∈ entries, t.oxm_fields = flow.gn_match.oxm_fields → t.SameFlow flow.identity))
  | .modify_flow_entry _ | .delete_flow_entry _ | .clean_flow_entry _ | .clear_flow_entries _ _ _ => .isTrue trivial

/-- The entries of a switch, and the flows that were added to it and not removed since. -/
structure FlowEntryRun where
  cache : FlowList
  added : List AddedFlow

namespace FlowEntryRun

variable (g_max_flowentry : ℕ)

def step (s : FlowEntryRun) (c : FlowEntryCall) : Option FlowEntryRun :=
  (s.cache.call g_max_flowentry c).map fun cache => ⟨cache, recordsAfter s.added c⟩

/-- No entries, in any memory. -/
def start (mem : ℕ → LinkedCell gn_flow_t) : FlowEntryRun := ⟨⟨mem, none⟩, []⟩

/-- What identifies the entries, in their order. -/
def entries (s : FlowEntryRun) : List AddedFlow := (s.cache.entries g_max_flowentry).map gn_flow_t.identity

/-- No two entries have the same table, priority and match. -/
def NoDuplicates (s : FlowEntryRun) : Prop := (s.entries g_max_flowentry).Pairwise fun r t => ¬ r.SameFlow t

/-- There is an entry with a table, a priority and a match exactly when such a flow was added and not removed since. -/
def Exact (s : FlowEntryRun) : Prop :=
  ∀ r : AddedFlow, (∃ t ∈ s.entries g_max_flowentry, t.SameFlow r) ↔ ∃ t ∈ s.added, t.SameFlow r

/-- No two entries have the same match. -/
structure Inv (s : FlowEntryRun) : Prop where
  wellFormed : s.cache.WellFormed g_max_flowentry
  matches_nodup : ((s.entries g_max_flowentry).map AddedFlow.oxm_fields).Nodup

variable {g_max_flowentry} {s s' : FlowEntryRun} {c : FlowEntryCall} {flow : gn_flow_t}
  {mem : ℕ → LinkedCell gn_flow_t}

/-- What each call does to what identifies the entries. -/
theorem step_entries (hi : s.cache.WellFormed g_max_flowentry) (he : step g_max_flowentry s c = some s') :
    s'.cache.WellFormed g_max_flowentry ∧ s'.added = recordsAfter s.added c ∧
      s'.entries g_max_flowentry = identitiesAfter (s.entries g_max_flowentry) c := by
  obtain ⟨cache, hc, rfl⟩ := Option.map_eq_some_iff.mp he
  cases c with
  | add_flow_entry flow uuid node =>
    obtain ⟨hw, hent⟩ := FlowList.add_spec hi hc
    refine ⟨hw, rfl, ?_⟩
    simp only [entries, identitiesAfter, hent, apply_ite (List.map gn_flow_t.identity), List.map_append]
    simp [match_compare_strict, gn_flow_t.identity, copy_flow_entry]
  | modify_flow_entry flow =>
    obtain rfl := Option.some.inj hc
    obtain ⟨hw, hent⟩ := FlowList.modify_spec flow hi gn_flow_t.identity fun _ _ => rfl
    exact ⟨hw, rfl, hent⟩
  | delete_flow_entry flow =>
    obtain rfl := Option.some.inj hc
    obtain ⟨hw, hent⟩ := FlowList.delete_spec flow hi
    refine ⟨hw, rfl, ?_⟩
    rw [entries, hent, entries, identitiesAfter, List.eraseP_map]
    rfl
  | clean_flow_entry flow =>
    obtain rfl := Option.some.inj hc
    obtain ⟨hw, hent⟩ := FlowList.clean_spec flow hi
    refine ⟨hw, rfl, ?_⟩
    rw [entries, hent, entries, identitiesAfter, List.filter_map]
    apply congrArg
    apply List.filter_congr
    intro g _
    by_cases hm : g.gn_match.oxm_fields = flow.gn_match.oxm_fields
    · simp [match_compare_strict, gn_flow_t.identity, hm]
    · simp [match_compare_strict, gn_flow_t.identity, hm]
  | flow_entry_timeout flow =>
    obtain rfl := Option.some.inj hc
    obtain ⟨hw, hent⟩ := FlowList.timeout_spec flow hi
    refine ⟨hw, rfl, ?_⟩
    rw [entries, hent, entries, identitiesAfter, List.eraseP_map]
    rfl
  | clear_flow_entries sends uuid node =>
    obtain ⟨hw, hent⟩ := FlowList.clear_spec hc
    refine ⟨hw, rfl, ?_⟩
    rw [entries, hent]
    rfl

theorem Inv.step (hi : s.Inv g_max_flowentry) (he : step g_max_flowentry s c = some s') : s'.Inv g_max_flowentry := by
  obtain ⟨hw, -, hent⟩ := step_entries hi.wellFormed he
  refine ⟨hw, ?_⟩
  rw [hent]
  exact identitiesAfter_nodup hi.matches_nodup c

theorem start_entries : (start mem).entries g_max_flowentry = [] := by
  have hl : LinkedHeap.Linked (α := gn_flow_t) ⟨mem, none⟩ [] := LinkedHeap.linked_nil rfl
  rw [entries, start, FlowList.entries_eq hl List.nodup_nil (by simp)]
  rfl

theorem Inv.start : (start mem).Inv g_max_flowentry := by
  refine ⟨⟨[], LinkedHeap.linked_nil rfl, List.nodup_nil, by simp⟩, ?_⟩
  rw [start_entries]
  exact List.nodup_nil

theorem Inv.noDuplicates (hi : s.Inv g_max_flowentry) : s.NoDuplicates g_max_flowentry := by
  have hn := hi.matches_nodup
  rw [List.nodup_iff_pairwise_ne, List.pairwise_map] at hn
  apply hn.imp
  intro r t hne hsame
  exact hne hsame.2.2

theorem step_exact (hi : s.Inv g_max_flowentry) (hsame : s.entries g_max_flowentry = s.added)
    (he : step g_max_flowentry s c = some s') :
    MatchIdentifies (s.entries g_max_flowentry) c ↔ s'.Exact g_max_flowentry := by
  obtain ⟨-, hadd, hent⟩ := step_entries hi.wellFormed he
  rw [Exact, hadd, hent, ← hsame]
  constructor
  · intro hc r
    rw [identitiesAfter_eq hc]
  · exact matchIdentifies_of_same hi.matches_nodup

/-- A flow for the packets that come in at a port. -/
def portFlow (priority : UINT2) (in_port : UINT4) : gn_flow_t :=
  { FlowList.tableMiss with
    priority := priority
    gn_match := ⟨OFPMT_OXM, { CFlowCache.emptyOxm.setField .in_port in_port.toBitVec with mask := 1 }⟩ }

/-- Two free nodes. -/
def freeNodes : ℕ → LinkedCell gn_flow_t := fun _ => ⟨none, none, gn_flow_t.zero⟩

def twoPorts : List FlowEntryCall :=
  [.add_flow_entry (portFlow 1 1) [49] 0, .add_flow_entry (portFlow 1 2) [50] 1, .flow_entry_timeout (portFlow 1 1)]

end FlowEntryRun

end DCFabric
