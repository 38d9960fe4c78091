import DCFabric.ListSyncCuts

namespace DCFabric

open CFlowCache (emptyOxm)
open ListUpdates SortedMaps TlvStreams

namespace gn_oxm_t

/-- The fields the mask names. -/
def named (oxm : gn_oxm_t) : gn_oxm_t := { oxm with field := fun f => if oxm.isSet f then oxm.field f else 0 }

theorem named_named (oxm : gn_oxm_t) : oxm.named.named = oxm.named := by
  have hfield : oxm.named.named.field = oxm.named.field := by
    funext f
    change (if oxm.isSet f then oxm.named.field f else 0) = oxm.named.field f
    simp only [named]
    split_ifs <;> rfl
  change ({ oxm with field := oxm.named.named.field } : gn_oxm_t) = oxm.named
  rw [hfield]
  rfl

end gn_oxm_t

namespace CFlowAction

/-- The encoder has a case for the type. -/
def isSynced : CFlowAction → Bool
  | copy_ttl_out | copy_ttl_in | dec_mpls_ttl | dec_nw_ttl | other _ _ => false
  | _ => true

def named : CFlowAction → CFlowAction
  | set_field oxm_fields => set_field oxm_fields.named
  | action => action

theorem type_named (action : CFlowAction) : action.named.type = action.type := by
  cases action <;> rfl

theorem named_named (action : CFlowAction) : action.named.named = action.named := by
  cases action with
  | set_field oxm_fields => exact congrArg set_field oxm_fields.named_named
  | _ => rfl

end CFlowAction

namespace Instruction

/-- The actions of `OFPIT_WRITE_ACTIONS` or `OFPIT_APPLY_ACTIONS`. -/
def actionList : CFlowInstruction → List CFlowAction
  | write_actions actions | apply_actions actions => actions.toList
  | _ => []

def record (instruction : CFlowInstruction) : gn_instruction_t := instruction.map fun actions =>
  actions.toList.map CFlowAction.named

/-- An instruction before its actions are attached. -/
def bare (instruction : CFlowInstruction) : gn_instruction_t := instruction.map fun _ => []

/-- The actions that arrive. -/
def sentActions (instruction : CFlowInstruction) : List CFlowAction :=
  (instruction.actionList.filter CFlowAction.isSynced).map CFlowAction.named

end Instruction

/-- The fields of an entry that are the same on every controller. -/
def CFlow.record (flow : CFlow) : gn_flow_t where
  uuid := flow.m_uuid
  create_time := flow.m_create_time
  table_id := flow.m_table_id
  idle_timeout := flow.m_idle_timeout
  hard_timeout := flow.m_hard_timeout
  priority := flow.m_priority
  gn_match := { flow.m_match with oxm_fields := flow.m_match.oxm_fields.named }
  instructions := flow.m_instructions.toList.map Instruction.record

namespace FlowRecord

variable {r : FlowRecord} {w : ControllerTables} {oxm : gn_oxm_t} {fs : List OxmField} {action : CFlowAction}
  {actions : List CFlowAction} {instruction : CFlowInstruction} {instructions : List CFlowInstruction}

theorem setOxmFields_eq : fs.foldl (fun r f => r.setOxmField f (oxm.field f)) r =
    { r with oxm := { r.oxm with field := fun g => if g ∈ fs then oxm.field g else r.oxm.field g } } := by
  induction fs generalizing r with
  | nil => simp
  | cons f fs ih =>
    rw [List.foldl_cons, ih]
    simp only [setOxmField, gn_oxm_t.setField, List.mem_cons]
    congr
    funext g
    by_cases hg : g ∈ fs
    · rw [if_pos hg, if_pos (.inr hg)]
    · rw [if_neg hg]
      by_cases hf : g = f
      · subst hf
        rw [Function.update_self, if_pos (.inl rfl)]
      · rw [Function.update_of_ne hf, if_neg (not_or.mpr ⟨hf, hg⟩)]

theorem absorb_fields : (fs.map fun f => SYNC_DATA_BYTES f.syncType (oxm.field f)).foldl
    (absorb recoverAddFlowEntry.fields) (r, w) = (fs.foldl (fun r f => r.setOxmField f (oxm.field f)) r, w) := by
  induction fs generalizing r with
  | nil => rfl
  | cons f fs ih =>
    rw [List.map_cons, List.foldl_cons, List.foldl_cons, absorb_word (fields_oxm f)]
    exact ih

theorem absorb_oxmFields (h : r.oxm = emptyOxm) : (syncOxmFields oxm).foldl (absorb recoverAddFlowEntry.fields) (r, w) =
    ({ r with oxm := { oxm.named with mask := 0 } }.setMask oxm.mask, w) := by
  rw [syncOxmFields, List.foldl_append, absorb_fields, setOxmFields_eq]
  have hnamed : { r.oxm with
      field := fun g => if g ∈ OxmField.all.filter oxm.isSet then oxm.field g else r.oxm.field g } =
        { oxm.named with mask := 0 } := by
    rw [h]
    simp only [List.mem_filter, OxmField.mem_all, true_and]
    rfl
  rw [hnamed]
  exact (foldl_word rfl).trans rfl

theorem absorb_action (hoxm : r.oxm = emptyOxm) (hmatch : r.match_oxm = false) :
    (syncAction action).foldl (absorb recoverAddFlowEntry.fields) (r, w) =
      ({ r with actions := ([action].filter CFlowAction.isSynced).map CFlowAction.named ++ r.actions }, w) := by
  cases action with
  | set_field oxm_fields =>
    have hset : FlowRecord.setMask { r.addAction (.set_field emptyOxm) with
        oxm := { oxm_fields.named with mask := 0 } } oxm_fields.mask =
          { r with actions := .set_field oxm_fields.named :: r.actions } := by
      simp only [setMask, addAction, hmatch, setFirstField, updateFirst, CFlowAction.type]
      rw [← hoxm]
      rfl
    refine (foldl_word rfl).trans ((absorb_oxmFields (r := r.addAction _) hoxm).trans ?_)
    rw [hset]
    rfl
  | copy_ttl_out | copy_ttl_in | dec_mpls_ttl | dec_nw_ttl | other => rfl
  | _ => exact (foldl_word rfl).trans rfl

theorem absorb_actions (hoxm : r.oxm = emptyOxm) (hmatch : r.match_oxm = false) :
    (actions.flatMap syncAction).foldl (absorb recoverAddFlowEntry.fields) (r, w) =
      ({ r with actions :=
          ((actions.filter CFlowAction.isSynced).map CFlowAction.named).reverse ++ r.actions }, w) := by
  induction actions generalizing r with
  | nil => rfl
  | cons action actions ih =>
    have happend : (action :: actions).filter CFlowAction.isSynced =
        [action].filter CFlowAction.isSynced ++ actions.filter CFlowAction.isSynced := by
      rw [← List.filter_append, List.singleton_append]
    have hone : (([action].filter CFlowAction.isSynced).map CFlowAction.named).reverse =
        ([action].filter CFlowAction.isSynced).map CFlowAction.named := by
      rw [List.filter_singleton]
      cases action.isSynced <;> rfl
    rw [List.flatMap_cons, List.foldl_append, absorb_action hoxm hmatch, ih, happend, List.map_append,
      List.reverse_append, hone, List.append_assoc]
    · exact hoxm
    · exact hmatch

/-- Neither an experimenter instruction, which is written as metadata, nor one of an unknown type. -/
theorem absorb_instruction (hoxm : r.oxm = emptyOxm) (hmatch : r.match_oxm = false)
    (hkind : instruction.type ∈ ofp_instruction_type ∧ instruction.type ≠ OFPIT_EXPERIMENTER) :
    (syncInstruction instruction).foldl (absorb recoverAddFlowEntry.fields) (r, w) =
      ({ r.addInstruction instruction.bare with actions := instruction.sentActions.reverse ++ r.actions }, w) := by
  cases instruction with
  | write_actions actions => exact (foldl_word rfl).trans (absorb_actions (r := r.addInstruction _) hoxm hmatch)
  | apply_actions actions => exact (foldl_word rfl).trans (absorb_actions (r := r.addInstruction _) hoxm hmatch)
  | experimenter len experimenter => exact absurd rfl hkind.2
  | other type unknown => exact absurd hkind.1 unknown
  | _ => exact (foldl_word rfl).trans rfl

theorem absorb_instructions (hoxm : r.oxm = emptyOxm) (hmatch : r.match_oxm = false)
    (hkinds : ∀ i ∈ instructions, i.type ∈ ofp_instruction_type ∧ i.type ≠ OFPIT_EXPERIMENTER) :
    (instructions.flatMap syncInstruction).foldl (absorb recoverAddFlowEntry.fields) (r, w) =
      ({ r with
          flow := { r.flow with instructions := (instructions.map Instruction.bare).reverse ++ r.flow.instructions }
          actions := (instructions.flatMap Instruction.sentActions).reverse ++ r.actions }, w) := by
  induction instructions generalizing r with
  | nil => rfl
  | cons i instructions ih =>
    obtain ⟨hi, his⟩ := List.forall_mem_cons.mp hkinds
    rw [List.flatMap_cons, List.foldl_append, absorb_instruction hoxm hmatch hi, ih _ _ his]
    · simp [addInstruction]
    · exact hoxm
    · exact hmatch

/-- What is read of an entry before its last TLV. -/
def ofFlow (dpid : UINT8) (flow : CFlow) : FlowRecord where
  dpid := dpid
  flow :=
    { flow.record with
      gn_match := ⟨OFPMT_OXM, flow.m_match.oxm_fields.named⟩
      instructions := (flow.m_instructions.toList.map Instruction.bare).reverse }
  oxm := emptyOxm
  actions := (flow.m_instructions.toList.flatMap Instruction.sentActions).reverse
  match_oxm := false

end FlowRecord

section

variable {dpid : UINT8} {flow : CFlow} {w : ControllerTables}

/-- What is read of an entry before the fields of its match. -/
def FlowRecord.headerOf (dpid : UINT8) (flow : CFlow) : FlowRecord where
  dpid := dpid
  flow := { flow.record with gn_match := gn_flow_t.zero.gn_match, instructions := [] }
  oxm := emptyOxm
  actions := []
  match_oxm := true

theorem absorb_header (huuid : IsText UUID_LEN flow.m_uuid) : [
    SYNC_DATA_STRING FLOW_ENTRY_UUID flow.m_uuid,
    SYNC_DATA_INTEGER FLOW_ENTRY_CREATE_TIME flow.m_create_time,
    SYNC_DATA_INTEGER FLOW_ENTRY_TABLE_ID flow.m_table_id,
    SYNC_DATA_INTEGER FLOW_ENTRY_IDLE_TIMEOUT flow.m_idle_timeout,
    SYNC_DATA_INTEGER FLOW_ENTRY_HARD_TIMEOUT flow.m_hard_timeout,
    SYNC_DATA_INTEGER FLOW_ENTRY_PRIORITY flow.m_priority,
    SYNC_DATA_INTEGER FLOW_ENTRY_MATCH (1 : UINT1)].foldl (absorb recoverAddFlowEntry.fields)
      ({ FlowRecord.zero with dpid }, w) = (.headerOf dpid flow, w) := by
  have hwritten : (SYNC_DATA_STRING FLOW_ENTRY_UUID flow.m_uuid).written =
      SYNC_DATA_STRING FLOW_ENTRY_UUID flow.m_uuid :=
    Tlv.written_text (by decide) huuid
  rw [← hwritten]
  refine (foldl_text rfl rfl).trans ?_
  rw [((received_iff flow.m_uuid (by decide)).mpr huuid).2]
  refine (foldl_word rfl).trans ?_
  refine (foldl_word rfl).trans ?_
  refine (foldl_word rfl).trans ?_
  refine (foldl_word rfl).trans ?_
  refine (foldl_word rfl).trans ?_
  exact (foldl_word rfl).trans rfl

theorem absorb_entry (huuid : IsText UUID_LEN flow.m_uuid)
    (hkinds : ∀ i ∈ flow.m_instructions.toList, i.type ∈ ofp_instruction_type ∧ i.type ≠ OFPIT_EXPERIMENTER) :
    (syncFlowEntry dpid flow).tail.foldl (absorb recoverAddFlowEntry.fields) ({ FlowRecord.zero with dpid }, w) =
      (.ofFlow dpid flow, w) := by
  rw [syncFlowEntry, List.tail_cons, List.foldl_append, List.foldl_append, absorb_header huuid,
    FlowRecord.absorb_oxmFields rfl]
  refine (foldl_word rfl).trans ?_
  refine (FlowRecord.absorb_instructions (r := FlowRecord.beginInstructions _) rfl rfl hkinds).trans ?_
  simp only [FlowRecord.beginInstructions, FlowRecord.setMask, FlowRecord.headerOf, if_true, List.append_nil]
  rfl

end

namespace Instruction

variable {instruction : CFlowInstruction} {instructions : List CFlowInstruction} {l₁ l₂ : List CFlowInstruction}
  {actions : List CFlowAction}

/-- An instruction as it is stored in a flow. -/
def stored (instruction : gn_instruction_t) : CFlowInstruction := instruction.map (·.foldl CFlow.addAction .empty)

theorem type_map {A B : Type} (g : A → B) (instruction : Instruction A) :
    (instruction.map g).type = instruction.type := by
  cases instruction <;> rfl

theorem hasActions_bare : FlowRecord.hasActions instruction.bare ↔
    instruction.type = OFPIT_WRITE_ACTIONS ∨ instruction.type = OFPIT_APPLY_ACTIONS := by
  cases instruction with
  | other type unknown =>
    simp only [bare, map, FlowRecord.hasActions, Instruction.type]
    refine iff_of_false Bool.false_ne_true ?_
    rintro (rfl | rfl)
    · exact unknown (by decide)
    · exact unknown (by decide)
  | _ => simp [bare, map, FlowRecord.hasActions, Instruction.type] <;> decide

/-- Actions that lie in a list from their last to their first. -/
theorem stored_actions (h : actions.Pairwise (·.type.toNat < ·.type.toNat)) :
    (actions.reverse.foldl CFlow.addAction .empty : CFlowActionMap).toList = actions := by
  have hdesc : actions.reverse.Pairwise fun a b => b.type.toNat < a.type.toNat := List.pairwise_reverse.mpr h
  exact (KeyedMap.toList_ofList_of_descending hdesc).trans (List.reverse_reverse _)

theorem record_stored_bare : instruction.bare.stored.record = instruction.record ↔ instruction.actionList = [] := by
  cases instruction with
  | write_actions actions =>
    simp [bare, stored, record, map, actionList, KeyedMap.empty, eq_comm]
  | apply_actions actions =>
    simp [bare, stored, record, map, actionList, KeyedMap.empty, eq_comm]
  | _ => exact iff_of_true rfl rfl

theorem record_stored_set (h : FlowRecord.hasActions instruction.bare)
    (hactions : actions.Pairwise (·.type.toNat < ·.type.toNat)) :
    (stored (FlowRecord.setActions actions.reverse instruction.bare)).record = instruction.record ↔
      actions.map CFlowAction.named = instruction.actionList.map CFlowAction.named := by
  have hstored : _ = actions := stored_actions hactions
  cases instruction with
  | write_actions _ | apply_actions _ =>
    simp only [bare, stored, record, map, actionList, FlowRecord.setActions, hstored, write_actions.injEq,
      apply_actions.injEq]
  | _ => cases h

theorem setActions_nil : FlowRecord.setActions [] instruction.bare = instruction.bare := by
  cases instruction <;> rfl

theorem actionList_of_not (h : ¬ FlowRecord.hasActions instruction.bare) : instruction.actionList = [] := by
  cases instruction with
  | write_actions actions | apply_actions actions => exact absurd rfl h
  | _ => rfl

theorem stored_instructions {l : List gn_instruction_t} (h : l.Pairwise (·.type.toNat < ·.type.toNat)) :
    (l.reverse.foldl CFlow.addInstruction .empty).toList = l.map stored := by
  have hfold : l.reverse.foldl CFlow.addInstruction .empty =
      (KeyedMap.ofList (l.reverse.map stored) : CFlowInstructionMap) := by
    rw [KeyedMap.ofList, List.foldl_map]
    rfl
  have hdesc : (l.reverse.map stored).Pairwise fun a b => b.type.toNat < a.type.toNat := by
    rw [List.pairwise_map, List.pairwise_reverse]
    simpa only [stored, type_map] using h
  rw [hfold, KeyedMap.toList_ofList_of_descending hdesc, ← List.map_reverse, List.reverse_reverse]

/-- The last instruction with actions, if there is one. -/
theorem exists_last (instructions : List CFlowInstruction) :
    (∀ i ∈ instructions, ¬ FlowRecord.hasActions i.bare) ∨ ∃ l₁ j l₂, instructions = l₁ ++ j :: l₂ ∧
      FlowRecord.hasActions j.bare ∧ ∀ i ∈ l₂, ¬ FlowRecord.hasActions i.bare := by
  cases hf : instructions.reverse.find? (FlowRecord.hasActions ·.bare) with
  | none => exact .inl fun i hi => List.find?_eq_none.mp hf i (List.mem_reverse.mpr hi)
  | some j =>
    obtain ⟨hj, as, bs, hsplit, has⟩ := List.find?_eq_some_iff_append.mp hf
    refine .inr ⟨bs.reverse, j, as.reverse, ?_, hj, ?_⟩
    · rw [← List.reverse_reverse instructions, hsplit]
      simp
    · intro i hi
      simpa using has i (List.mem_reverse.mp hi)

end Instruction

namespace FlowRecord

variable {r : FlowRecord} {instructions l₁ l₂ : List CFlowInstruction} {j : CFlowInstruction}

theorem attached_of_none (hr : r.flow.instructions = (instructions.map Instruction.bare).reverse)
    (h : ∀ i ∈ instructions, ¬ hasActions i.bare) : r.attached.reverse = instructions.map Instruction.bare := by
  have hnone : updateFirst hasActions (setActions r.actions) r.flow.instructions = none := by
    rw [updateFirst_none, hr]
    intro i hi
    obtain ⟨i', hi', rfl⟩ := List.mem_map.mp (List.mem_reverse.mp hi)
    simpa using h i' hi'
  have hattached : r.attached = r.flow.instructions := by
    rw [attached, hnone]
    split_ifs <;> rfl
  rw [hattached, hr, List.reverse_reverse]

theorem attached_of_last (hr : r.flow.instructions = ((l₁ ++ j :: l₂).map Instruction.bare).reverse)
    (hj : hasActions j.bare) (h : ∀ i ∈ l₂, ¬ hasActions i.bare) :
    r.attached.reverse = l₁.map Instruction.bare ++ setActions r.actions j.bare :: l₂.map Instruction.bare := by
  have hsplit : r.flow.instructions =
      (l₂.map Instruction.bare).reverse ++ j.bare :: (l₁.map Instruction.bare).reverse := by
    rw [hr]
    simp
  rw [attached]
  split_ifs with hactions
  · rw [hactions, Instruction.setActions_nil, hr, List.reverse_reverse, List.map_append, List.map_cons]
  · rw [hsplit, updateFirst_append_cons _ hj]
    · simp
    · intro i hi
      obtain ⟨i', hi', rfl⟩ := List.mem_map.mp (List.mem_reverse.mp hi)
      simpa using h i' hi'

end FlowRecord

namespace Instruction

variable {r : FlowRecord} {instructions l₁ l₂ : List CFlowInstruction} {i j : CFlowInstruction}

/-- Every action has a case in the encoder, and no two instructions have actions. -/
structure Attachable (instructions : List CFlowInstruction) : Prop where
  synced : ∀ i ∈ instructions, ∀ action ∈ i.actionList, action.isSynced
  single : ∀ actions actions', write_actions actions ∈ instructions → apply_actions actions' ∈ instructions →
    actions.toList = []

theorem sorted_actionList (i : CFlowInstruction) : i.actionList.Pairwise (·.type.toNat < ·.type.toNat) := by
  cases i with
  | write_actions actions | apply_actions actions => exact actions.sorted
  | _ => exact .nil

theorem sorted_sentActions (i : CFlowInstruction) : i.sentActions.Pairwise (·.type.toNat < ·.type.toNat) := by
  rw [sentActions, List.pairwise_map]
  simpa only [CFlowAction.type_named] using (sorted_actionList i).sublist List.filter_sublist

theorem sentActions_of_nil (h : i.actionList = []) : i.sentActions = [] := by
  rw [sentActions, h]
  rfl

theorem synced_iff : i.sentActions.map CFlowAction.named = i.actionList.map CFlowAction.named ↔
    ∀ action ∈ i.actionList, action.isSynced := by
  rw [sentActions, List.map_map, map_filter_eq_map_iff]
  simp [CFlowAction.named_named]

theorem sorted_bare (h : instructions.Pairwise (·.type.toNat < ·.type.toNat)) :
    (instructions.map bare).Pairwise (·.type.toNat < ·.type.toNat) := by
  rw [List.pairwise_map]
  simpa only [bare, type_map] using h

theorem lt_apply (hi : FlowRecord.hasActions i.bare) (hj : FlowRecord.hasActions j.bare)
    (h : i.type.toNat < j.type.toNat) : ∃ actions actions', i = write_actions actions ∧ j = apply_actions actions' := by
  cases i with
  | write_actions actions =>
    cases j with
    | write_actions actions' => exact absurd h (Nat.lt_irrefl 3)
    | apply_actions actions' => exact ⟨actions, actions', rfl, rfl⟩
    | _ => cases hj
  | apply_actions actions =>
    cases j with
    | write_actions actions' => exact absurd h (show ¬ 4 < 3 by decide)
    | apply_actions actions' => exact absurd h (Nat.lt_irrefl 4)
    | _ => cases hj
  | _ => cases hi

/-- All actions come to the last instruction with actions. -/
theorem attachable_iff (hsorted : (l₁ ++ j :: l₂).Pairwise (·.type.toNat < ·.type.toNat))
    (hj : FlowRecord.hasActions j.bare) (h : ∀ i ∈ l₂, ¬ FlowRecord.hasActions i.bare) :
    Attachable (l₁ ++ j :: l₂) ↔ (∀ i ∈ l₁, i.actionList = []) ∧ ∀ action ∈ j.actionList, action.isSynced := by
  obtain ⟨-, -, hlt⟩ := List.pairwise_append.mp hsorted
  constructor
  · intro ha
    refine ⟨?_, ha.synced j (by simp)⟩
    intro i hi
    by_cases hactions : FlowRecord.hasActions i.bare
    · obtain ⟨actions, actions', rfl, rfl⟩ := lt_apply hactions hj (hlt i hi j List.mem_cons_self)
      exact ha.single actions actions' (List.mem_append_left _ hi) (by simp)
    · exact actionList_of_not hactions
  · rintro ⟨hl₁, hsynced⟩
    constructor
    · intro i hi
      rcases List.mem_append.mp hi with hi | hi
      · rw [hl₁ i hi]
        exact List.forall_mem_nil _
      · rcases List.mem_cons.mp hi with rfl | hi
        · exact hsynced
        · rw [actionList_of_not (h i hi)]
          exact List.forall_mem_nil _
    · intro actions actions' hwrite happly
      rcases List.mem_append.mp hwrite with hwrite | hwrite
      · exact hl₁ _ hwrite
      · -- the instruction that writes the actions is `j`, and no other has actions from there on
        have hlast : ∀ i ∈ j :: l₂, FlowRecord.hasActions i.bare → i = j := by
          intro i hi hactions
          rcases List.mem_cons.mp hi with rfl | hi
          · rfl
          · exact absurd hactions (h i hi)
        obtain rfl := hlast _ hwrite rfl
        rcases List.mem_append.mp happly with happly | happly
        · exact absurd (hlt _ happly _ List.mem_cons_self) (show ¬ 4 < 3 by decide)
        · cases hlast _ happly rfl

theorem attached_iff (hsorted : instructions.Pairwise (·.type.toNat < ·.type.toNat))
    (hr : r.flow.instructions = (instructions.map bare).reverse)
    (hactions : r.actions = (instructions.flatMap sentActions).reverse) :
    (r.attached.foldl CFlow.addInstruction .empty).toList.map record = instructions.map record ↔
      Attachable instructions := by
  rcases exists_last instructions with hnone | ⟨l₁, j, l₂, rfl, hj, hl₂⟩
  · have hattached : r.attached = (instructions.map bare).reverse := by
      rw [← FlowRecord.attached_of_none hr hnone, List.reverse_reverse]
    rw [hattached, stored_instructions (sorted_bare hsorted), List.map_map, List.map_map]
    refine iff_of_true (List.map_congr_left ?_) ⟨?_, ?_⟩
    · intro i hi
      exact record_stored_bare.mpr (actionList_of_not (hnone i hi))
    · intro i hi
      rw [actionList_of_not (hnone i hi)]
      exact List.forall_mem_nil _
    · intro actions actions' hwrite
      exact absurd rfl (hnone _ hwrite)
  · have hreverse := FlowRecord.attached_of_last hr hj hl₂
    have hset : (l₁.map bare ++ FlowRecord.setActions r.actions j.bare :: l₂.map bare).Pairwise
        (·.type.toNat < ·.type.toNat) := by
      have htypes : (l₁.map bare ++ FlowRecord.setActions r.actions j.bare :: l₂.map bare).map type =
          (l₁ ++ j :: l₂).map type := by
        simp [Function.comp_def, FlowRecord.setActions, bare, type_map]
      have hpairwise := (List.pairwise_map (f := type) (R := fun a b => a.toNat < b.toNat)).mpr hsorted
      rwa [← htypes, List.pairwise_map] at hpairwise
    have hattached : r.attached = (l₁.map bare ++ FlowRecord.setActions r.actions j.bare :: l₂.map bare).reverse := by
      rw [← hreverse, List.reverse_reverse]
    have hall (hl₁ : ∀ i ∈ l₁, i.actionList = []) : r.actions = j.sentActions.reverse := by
      have hnil₁ : l₁.flatMap sentActions = [] :=
        List.flatMap_eq_nil_iff.mpr fun i hi => sentActions_of_nil (hl₁ i hi)
      have hnil₂ : l₂.flatMap sentActions = [] :=
        List.flatMap_eq_nil_iff.mpr fun i hi => sentActions_of_nil (actionList_of_not (hl₂ i hi))
      rw [hactions, List.flatMap_append, List.flatMap_cons, hnil₁, hnil₂, List.nil_append, List.append_nil]
    rw [hattached, stored_instructions hset, attachable_iff hsorted hj hl₂]
    simp only [List.map_append, List.map_cons, List.map_map]
    constructor
    · intro heq
      obtain ⟨hfirst, hrest⟩ := List.append_inj heq (by simp)
      obtain ⟨hset, -⟩ := List.cons.inj hrest
      have hl₁ : ∀ i ∈ l₁, i.actionList = [] := by
        intro i hi
        exact record_stored_bare.mp (List.map_inj_left.mp hfirst i hi)
      rw [hall hl₁, record_stored_set hj (sorted_sentActions j), synced_iff] at hset
      exact ⟨hl₁, hset⟩
    · rintro ⟨hl₁, hsynced⟩
      rw [hall hl₁, (record_stored_set hj (sorted_sentActions j)).mpr (synced_iff.mpr hsynced)]
      congr 1
      · exact List.map_congr_left fun i hi => record_stored_bare.mpr (hl₁ i hi)
      · congr 1
        exact List.map_congr_left fun i hi => record_stored_bare.mpr (actionList_of_not (hl₂ i hi))

end Instruction

end DCFabric
