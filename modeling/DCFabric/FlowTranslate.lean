import DCFabric.FlowEntryRecover
import DCFabric.FlowRefinement
import DCFabric.ListUpdates
import DCFabric.TlvDecoders

namespace DCFabric

open ListUpdates SortedMaps TlvStreams

namespace gn_action_t

/-- What `CFlowInstruction::addAction` copies. -/
def copied : gn_action_t → CFlowAction
  | output port _ => .output port
  | copy_ttl_out => .copy_ttl_out
  | copy_ttl_in => .copy_ttl_in
  | mpls_ttl mpls_tt => .mpls_ttl mpls_tt
  | dec_mpls_ttl => .dec_mpls_ttl
  | push_vlan => .push_vlan
  | pop_vlan => .pop_vlan
  | push_mpls => .push_mpls
  | pop_mpls => .pop_mpls
  | set_queue queue_id => .set_queue queue_id
  | group group_id => .group group_id
  | set_nw_ttl nw_tt => .set_nw_ttl nw_tt
  | dec_nw_ttl => .dec_nw_ttl
  | set_field oxm_fields => .set_field oxm_fields
  | push_pbb => .push_pbb
  | pop_pbb => .pop_pbb
  | experimenter exp => .experimenter exp
  | other type unknown => .other type unknown

def type (action : gn_action_t) : UINT2 := action.copied.type

/-- An action that `CFlowInstruction::transActions` makes as it was. -/
def Kept : gn_action_t → Prop
  | output port max_len => max_len = if OFPP13_CONTROLLER = port then 0xffff else 0
  | copy_ttl_out | copy_ttl_in | dec_mpls_ttl | dec_nw_ttl | other _ _ => False
  | mpls_ttl _ | push_vlan | pop_vlan | push_mpls | pop_mpls | set_queue _ | group _ | set_nw_ttl _ | set_field _
  | push_pbb | pop_pbb | experimenter _ => True

end gn_action_t

/-- The action that `CFlowInstruction::transActions` makes, if it makes one. -/
def CFlowAction.trans : CFlowAction → Option gn_action_t
  | output port => some (.output port (if OFPP13_CONTROLLER = port then 0xffff else 0))
  | copy_ttl_out => none
  | copy_ttl_in => none
  | mpls_ttl mpls_tt => some (.mpls_ttl mpls_tt)
  | dec_mpls_ttl => none
  | push_vlan => some .push_vlan
  | pop_vlan => some .pop_vlan
  | push_mpls => some .push_mpls
  | pop_mpls => some .pop_mpls
  | set_queue queue_id => some (.set_queue queue_id)
  | group group_id => some (.group group_id)
  | set_nw_ttl nw_tt => some (.set_nw_ttl nw_tt)
  | dec_nw_ttl => none
  | set_field oxm_fields => some (.set_field oxm_fields)
  | push_pbb => some .push_pbb
  | pop_pbb => some .pop_pbb
  | experimenter exp => some (.experimenter exp)
  | other .. => none

def transActions (m_actions : CFlowActionMap) : List gn_action_t :=
  m_actions.toList.foldl (fun actions action => action.trans.toList ++ actions) []

/-- `gn_instruction_t`, with all that an action has. -/
abbrev gn_instruction := Instruction (List gn_action_t)

namespace Instruction

/-- The actions of an instruction that has any. -/
def actions : gn_instruction → List gn_action_t
  | write_actions actions => actions
  | apply_actions actions => actions
  | _ => []

def trans : CFlowInstruction → Option gn_instruction
  | goto_table table_id => some (goto_table table_id)
  | write_metadata metadata metadata_mask => some (write_metadata metadata metadata_mask)
  | write_actions actions => some (write_actions (transActions actions))
  | apply_actions actions => some (apply_actions (transActions actions))
  | clear_actions => some clear_actions
  | meter meter_id => some (meter meter_id)
  | experimenter len exp => some (experimenter len exp)
  | other .. => none

end Instruction

/-- `gn_flow_t`, with all that an action has. -/
structure gn_flow where
  uuid : List UINT1
  create_time : UINT8
  table_id : UINT1
  idle_timeout : UINT2
  hard_timeout : UINT2
  priority : UINT2
  gn_match : gn_match_t
  instructions : List gn_instruction
deriving DecidableEq

def gn_flow.copied (flow : gn_flow) : gn_flow_t where
  uuid := flow.uuid
  create_time := flow.create_time
  table_id := flow.table_id
  idle_timeout := flow.idle_timeout
  hard_timeout := flow.hard_timeout
  priority := flow.priority
  gn_match := flow.gn_match
  instructions := flow.instructions.map (·.map (·.map gn_action_t.copied))

namespace CFlow

def transInstructions (m_instructions : CFlowInstructionMap) : List gn_instruction :=
  m_instructions.toList.foldl (fun instructions instruction => instruction.trans.toList ++ instructions) []

def translate (flow : CFlow) : gn_flow where
  uuid := (cstring flow.m_uuid).take (UUID_LEN - 1)
  create_time := flow.m_create_time
  table_id := flow.m_table_id
  idle_timeout := flow.m_idle_timeout
  hard_timeout := flow.m_hard_timeout
  priority := flow.m_priority
  gn_match := flow.m_match
  instructions := transInstructions flow.m_instructions

end CFlow

/-- Instructions and actions come by decreasing type, and no action is one that is left out or changed. -/
structure gn_flow.Kept (flow : gn_flow) : Prop where
  instructions : flow.instructions.Pairwise fun i j => j.type.toNat < i.type.toNat
  known : ∀ i ∈ flow.instructions, i.type ∈ ofp_instruction_type
  actions : ∀ i ∈ flow.instructions, i.actions.Pairwise fun a b => b.type.toNat < a.type.toNat
  kept : ∀ i ∈ flow.instructions, ∀ a ∈ i.actions, a.Kept

theorem gn_action_t.trans_copied_iff {a : gn_action_t} : a.copied.trans = some a ↔ a.Kept := by
  cases a with
  | output port max_len =>
    simp only [copied, CFlowAction.trans, Option.some_inj, output.injEq, true_and, Kept]
    exact eq_comm
  | copy_ttl_out | copy_ttl_in | dec_mpls_ttl | dec_nw_ttl | other => exact iff_of_false (fun h => by cases h) id
  | _ => simp [copied, CFlowAction.trans, Kept]

theorem CFlowAction.copied_trans {action : CFlowAction} {a : gn_action_t} (h : action.trans = some a) :
    a.copied = action := by
  cases action with
  | copy_ttl_out | copy_ttl_in | dec_mpls_ttl | dec_nw_ttl | other => cases h
  | _ =>
    obtain rfl := Option.some.inj h
    rfl

theorem transActions_iff {actions : List gn_action_t} :
    transActions ((actions.map gn_action_t.copied).foldl CFlow.addAction .empty) = actions ↔
      (actions.Pairwise fun a b => b.type.toNat < a.type.toNat) ∧ ∀ a ∈ actions, a.Kept := by
  have hiff : ((KeyedMap.ofList (actions.map gn_action_t.copied) : CFlowActionMap).toList.filterMap
      CFlowAction.trans).reverse = actions ↔ _ := KeyedMap.reverse_filterMap_ofList_iff _ _ fun action a h => by
    rw [CFlowAction.copied_trans h]
  simp only [gn_action_t.trans_copied_iff] at hiff
  rw [transActions, foldl_head_insert, List.append_nil]
  exact hiff

namespace Instruction

/-- What `CFlow::addInstruction` stores. -/
def added (i : gn_instruction) : CFlowInstruction := (i.map (·.map gn_action_t.copied)).map (·.foldl CFlow.addAction .empty)

theorem type_added (i : gn_instruction) : i.added.type = i.type := by
  cases i <;> rfl

theorem type_trans {instruction : CFlowInstruction} {i : gn_instruction} (h : instruction.trans = some i) :
    i.type = instruction.type := by
  cases instruction with
  | other => cases h
  | _ =>
    obtain rfl := Option.some.inj h
    rfl

theorem trans_added_iff {i : gn_instruction} : i.added.trans = some i ↔ i.type ∈ ofp_instruction_type ∧
    (i.actions.Pairwise fun a b => b.type.toNat < a.type.toNat) ∧ ∀ a ∈ i.actions, a.Kept := by
  cases i with
  | write_actions acts | apply_actions acts =>
    simp only [added, map, trans, Option.some_inj, write_actions.injEq, apply_actions.injEq, transActions_iff, actions]
    exact (and_iff_right (by simp [type, ofp_instruction_type])).symm
  | other type unknown => exact iff_of_false (fun h => by cases h) fun h => unknown h.1
  | _ => exact iff_of_true rfl ⟨by simp [type, ofp_instruction_type], .nil, List.forall_mem_nil _⟩

end Instruction

theorem translate_assign_iff (sw : CSwitchPtr) (flow : gn_flow) :
    (CFlow.assign sw flow.copied).translate.instructions = flow.instructions ↔ flow.Kept := by
  have hiff : ((KeyedMap.ofList (flow.instructions.map Instruction.added) : CFlowInstructionMap).toList.filterMap
      Instruction.trans).reverse = flow.instructions ↔ _ :=
    KeyedMap.reverse_filterMap_ofList_iff _ _ fun instruction i h => by
      rw [Instruction.type_added, Instruction.type_trans h]
  have hassign : (CFlow.assign sw flow.copied).m_instructions = KeyedMap.ofList (flow.instructions.map Instruction.added) := by
    simp only [CFlow.assign, gn_flow.copied, KeyedMap.ofList, List.foldl_map]
    rfl
  rw [CFlow.translate, CFlow.transInstructions, foldl_head_insert, List.append_nil, hassign, hiff]
  simp only [Instruction.type_added, Instruction.trans_added_iff]
  constructor
  · rintro ⟨hdesc, hall⟩
    exact ⟨hdesc, fun i hi => (hall i hi).1, fun i hi => (hall i hi).2.1, fun i hi => (hall i hi).2.2⟩
  · rintro ⟨hdesc, hknown, hactions, hkept⟩
    exact ⟨hdesc, fun i hi => ⟨hknown i hi, hactions i hi, hkept i hi⟩⟩

/-- A flow that puts packets out on two ports. -/
def twoOutputs : gn_flow where
  uuid := []
  create_time := 0
  table_id := 0
  idle_timeout := 0
  hard_timeout := 0
  priority := 0
  gn_match := ⟨1, ⟨fun _ => 0, 0⟩⟩
  instructions := [.apply_actions [.output 1 0, .output 2 0]]

theorem twoOutputs_not_translated : ¬ ∀ (sw : CSwitchPtr) (flow : gn_flow),
    (CFlow.assign sw flow.copied).translate.instructions = flow.instructions := by
  intro h
  exact absurd (h ⟨0, 1⟩ twoOutputs) (by decide)

end DCFabric
