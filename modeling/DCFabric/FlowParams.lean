import DCFabric.FirewallFlows
import DCFabric.FlowTranslate

namespace DCFabric

open ListUpdates

/-- An `action_param_t` of an action, with what is read at its `param`. -/
abbrev ActionParam := CFlowAction

structure flow_param_t where
  instruction_param : List InstructionParam
  action_param : List ActionParam
  write_action_param : List ActionParam

def init_flow_param : flow_param_t := ⟨[], [], []⟩

def add_action_param {α : Type} (action_param : List α) (param : α) : List α := param :: action_param

/-- A call of `add_action_param`, on one of the three lists. -/
inductive ParamCall where
  | instruction (param : InstructionParam)
  | action (param : ActionParam)
  | write_action (param : ActionParam)
deriving DecidableEq

def ParamCall.apply (flow_param : flow_param_t) : ParamCall → flow_param_t
  | instruction param => { flow_param with instruction_param := add_action_param flow_param.instruction_param param }
  | action param => { flow_param with action_param := add_action_param flow_param.action_param param }
  | write_action param => { flow_param with write_action_param := add_action_param flow_param.write_action_param param }

namespace InstructionParam

def type : InstructionParam → UINT2
  | goto_table _ => OFPIT_GOTO_TABLE
  | write_metadata _ _ => OFPIT_WRITE_METADATA
  | write_actions => OFPIT_WRITE_ACTIONS
  | apply_actions => OFPIT_APPLY_ACTIONS
  | clear_actions => OFPIT_CLEAR_ACTIONS
  | meter _ => OFPIT_METER
  | experimenter _ => OFPIT_EXPERIMENTER
  | other type _ => type

/-- The instruction that is made; the type of `instruction_write` is `OFPIT_APPLY_ACTIONS`. -/
def made : InstructionParam → Option gn_instruction
  | goto_table table_id => some (.goto_table table_id)
  | write_metadata metadata metadata_mask => some (.write_metadata metadata metadata_mask)
  | write_actions => some (.apply_actions [])
  | apply_actions => some (.apply_actions [])
  | clear_actions => some .clear_actions
  | meter meter_id => some (.meter meter_id)
  | experimenter exp => some (.experimenter 4 exp)
  | other _ _ => none

end InstructionParam

/-- The instructions that are put in front of the others, from the last to the first. -/
def instructionOrder : List UINT2 :=
  [OFPIT_GOTO_TABLE, OFPIT_WRITE_METADATA, OFPIT_WRITE_ACTIONS, OFPIT_CLEAR_ACTIONS, OFPIT_APPLY_ACTIONS, OFPIT_METER,
    OFPIT_EXPERIMENTER]

/-- The variables `instruction_goto` and so on, by the type of the parameter that sets them. -/
def instructionVars (instraction_param : List InstructionParam) : UINT2 → Option gn_instruction :=
  instraction_param.foldl (fun vars param => Function.update vars param.type param.made) fun _ => none

def set_flow_instruction (flow_instruction : List gn_instruction) (instraction_param : List InstructionParam) :
    List gn_instruction :=
  instructionOrder.filterMap (instructionVars instraction_param) ++ flow_instruction

/-- The sizes that `bnc_malloc` and `memset` are called with: `sizeof(gn_action_t)` is 16, that of a
`gn_action_output_t` 24, that of a `gn_action_set_field_t` 168. -/
def ActionParam.sizes : ActionParam → ℕ × ℕ
  | .output _ => (24, 16)
  | .push_mpls | .push_pbb => (16, 168)
  | .set_field _ => (168, 168)
  | _ => (16, 16)

/-- The `memset` stays within the action that is allocated. -/
def ActionParam.Fits (param : ActionParam) : Prop := param.sizes.2 ≤ param.sizes.1

instance (param : ActionParam) : Decidable param.Fits := inferInstanceAs (Decidable (_ ≤ _))

/-- The action that is made for a parameter. -/
def ActionParam.made : ActionParam → Option gn_action_t
  | .output port => some (.output port 0xffff)
  | .copy_ttl_out => some .copy_ttl_out
  | .copy_ttl_in => some .copy_ttl_in
  | .mpls_ttl mpls_tt => some (.mpls_ttl mpls_tt)
  | .dec_mpls_ttl => some .dec_mpls_ttl
  | .push_vlan => some .push_vlan
  | .pop_vlan => some .pop_vlan
  | .push_mpls => some .push_mpls
  | .pop_mpls => some .pop_mpls
  | .set_queue queue_id => some (.set_queue queue_id)
  | .group group_id => some (.group group_id)
  | .set_nw_ttl nw_tt => some (.set_nw_ttl nw_tt)
  | .dec_nw_ttl => some .dec_nw_ttl
  | .set_field oxm => some (.set_field (set_flow_match oxm))
  | .push_pbb => some .push_pbb
  | .pop_pbb => some .pop_pbb
  | .experimenter exp => some (.experimenter exp)
  | .other _ _ => none

/-- The loop of `set_flow_action`, without result if it writes beyond an action. -/
def addActions (actions : List gn_action_t) (action_param : List ActionParam) : Option (List gn_action_t) :=
  action_param.foldlM (fun actions param => if param.Fits then some (param.made.toList ++ actions) else none) actions

/-- Nothing but an instruction with actions may be taken for one. -/
def Instruction.addActions (action_param : List ActionParam) : gn_instruction → Option gn_instruction
  | write_actions actions => (DCFabric.addActions actions action_param).map write_actions
  | apply_actions actions => (DCFabric.addActions actions action_param).map apply_actions
  | _ => none

def set_flow_action (action_param : List ActionParam) (instruction_type : UINT2) :
    List gn_instruction → Option (List gn_instruction)
  | [] => some []
  | i :: is =>
    if instruction_type = i.type then (i.addActions action_param).map (· :: is)
    else (set_flow_action action_param instruction_type is).map (i :: ·)

/-- The instructions of the flow that `install_fabric_flows` builds. -/
def flow_param_t.instructions (flow_param : flow_param_t) : Option (List gn_instruction) :=
  (set_flow_action flow_param.action_param OFPIT_APPLY_ACTIONS
    (set_flow_instruction [] flow_param.instruction_param)).bind
      (set_flow_action flow_param.write_action_param OFPIT_WRITE_ACTIONS)

/-- The parameters of the calls, in their order. -/
def instructionsOf (calls : List ParamCall) : List InstructionParam :=
  calls.filterMap fun | .instruction param => some param | _ => none

def actionsOf (calls : List ParamCall) : List ActionParam :=
  calls.filterMap fun | .action param => some param | _ => none

def writeActionsOf (calls : List ParamCall) : List ActionParam :=
  calls.filterMap fun | .write_action param => some param | _ => none

/-- The instruction that is asked for, if its type is known. -/
def InstructionParam.asked (calls : List ParamCall) : InstructionParam → Option gn_instruction
  | write_actions => some (.write_actions ((writeActionsOf calls).filterMap ActionParam.made))
  | apply_actions => some (.apply_actions ((actionsOf calls).filterMap ActionParam.made))
  | param => param.made

/-- The flow has every instruction that was asked for, and each of its lists of actions is the one that was asked for. -/
structure BuiltFor (calls : List ParamCall) (instructions : List gn_instruction) : Prop where
  asked : ∀ param ∈ instructionsOf calls, ∀ i, param.asked calls = some i → i ∈ instructions
  apply : ∀ actions, .apply_actions actions ∈ instructions → actions = (actionsOf calls).filterMap ActionParam.made
  write : ∀ actions, .write_actions actions ∈ instructions → actions = (writeActionsOf calls).filterMap ActionParam.made

/-- No write-actions instruction is asked for, no type of instruction with two parameters, and no `PUSH_MPLS` or
`PUSH_PBB` to apply. -/
structure Buildable (calls : List ParamCall) : Prop where
  write : .write_actions ∉ instructionsOf calls
  same : ∀ param ∈ instructionsOf calls, ∀ param' ∈ instructionsOf calls, param.type = param'.type → param = param'
  fits : .apply_actions ∈ instructionsOf calls → ∀ param ∈ actionsOf calls, param ≠ .push_mpls ∧ param ≠ .push_pbb

theorem foldl_apply (calls : List ParamCall) (flow_param : flow_param_t) :
    calls.foldl ParamCall.apply flow_param =
      ⟨(instructionsOf calls).reverse ++ flow_param.instruction_param,
        (actionsOf calls).reverse ++ flow_param.action_param,
        (writeActionsOf calls).reverse ++ flow_param.write_action_param⟩ := by
  induction calls generalizing flow_param with
  | nil => rfl
  | cons call calls ih =>
    rw [List.foldl_cons, ih]
    cases call with
    | instruction param => simp [ParamCall.apply, add_action_param, instructionsOf, actionsOf, writeActionsOf]
    | action param => simp [ParamCall.apply, add_action_param, instructionsOf, actionsOf, writeActionsOf]
    | write_action param => simp [ParamCall.apply, add_action_param, instructionsOf, actionsOf, writeActionsOf]

/-- The parameter that was given first is read last, and overwrites the others. -/
theorem instructionVars_reverse (params : List InstructionParam) (t : UINT2) :
    instructionVars params.reverse t = (params.find? (·.type = t)).bind InstructionParam.made := by
  unfold instructionVars
  induction params with
  | nil => rfl
  | cons param params ih =>
    rw [List.reverse_cons, List.foldl_append, List.foldl_cons, List.foldl_nil]
    by_cases ht : param.type = t
    · subst ht
      rw [Function.update_self, List.find?_cons_of_pos (by simp), Option.bind_some]
    · rw [Function.update_of_ne (Ne.symm ht), ih, List.find?_cons_of_neg (by simpa using ht)]

theorem instructionVars_of_mem {params : List InstructionParam} {param : InstructionParam} (hparam : param ∈ params)
    (hsame : ∀ param' ∈ params, param'.type = param.type → param' = param) :
    instructionVars params.reverse param.type = param.made := by
  rw [instructionVars_reverse]
  cases hfind : params.find? (·.type = param.type) with
  | none => simpa using List.find?_eq_none.mp hfind param hparam
  | some param' =>
    have htype : param'.type = param.type := by simpa using List.find?_some hfind
    rw [Option.bind_some, hsame param' (List.mem_of_find?_eq_some hfind) htype]

namespace InstructionParam

theorem type_ne_of_unknown {type t : UINT2} (unknown : type ∉ ofp_instruction_type) (ht : t ∈ ofp_instruction_type) :
    type ≠ t := by
  rintro rfl
  exact unknown ht

theorem eq_write_actions {param : InstructionParam} (h : param.type = OFPIT_WRITE_ACTIONS) : param = .write_actions := by
  cases param with
  | write_actions => rfl
  | other type unknown => exact absurd h (type_ne_of_unknown unknown (by decide))
  | goto_table | write_metadata | apply_actions | clear_actions | meter | experimenter => simp [type, OFPIT_GOTO_TABLE, OFPIT_WRITE_METADATA, OFPIT_WRITE_ACTIONS, OFPIT_APPLY_ACTIONS,
      OFPIT_CLEAR_ACTIONS, OFPIT_METER, OFPIT_EXPERIMENTER] at h

theorem eq_apply_actions {param : InstructionParam} (h : param.type = OFPIT_APPLY_ACTIONS) : param = .apply_actions := by
  cases param with
  | apply_actions => rfl
  | other type unknown => exact absurd h (type_ne_of_unknown unknown (by decide))
  | goto_table | write_metadata | write_actions | clear_actions | meter | experimenter => simp [type, OFPIT_GOTO_TABLE, OFPIT_WRITE_METADATA, OFPIT_WRITE_ACTIONS, OFPIT_APPLY_ACTIONS,
      OFPIT_CLEAR_ACTIONS, OFPIT_METER, OFPIT_EXPERIMENTER] at h

theorem type_made {param : InstructionParam} {i : gn_instruction} (hmade : param.made = some i)
    (hwrite : param ≠ .write_actions) : i.type = param.type := by
  cases param with
  | write_actions => exact absurd rfl hwrite
  | other => cases hmade
  | goto_table | write_metadata | apply_actions | clear_actions | meter | experimenter =>
    obtain rfl := Option.some.inj hmade
    rfl

theorem made_type_ne_write {param : InstructionParam} {i : gn_instruction} (hmade : param.made = some i) :
    i.type ≠ OFPIT_WRITE_ACTIONS := by
  intro htype
  by_cases hwrite : param = .write_actions
  · subst hwrite
    obtain rfl := Option.some.inj hmade
    exact absurd htype (by decide)
  · exact hwrite (eq_write_actions ((type_made hmade hwrite).symm.trans htype))

end InstructionParam

section

variable {params : List InstructionParam} {t : UINT2} {i : gn_instruction}

theorem exists_of_var (hvar : instructionVars params.reverse t = some i) :
    ∃ param ∈ params, param.type = t ∧ param.made = some i := by
  rw [instructionVars_reverse] at hvar
  obtain ⟨param, hfind, hmade⟩ := Option.bind_eq_some_iff.mp hvar
  exact ⟨param, List.mem_of_find?_eq_some hfind, by simpa using List.find?_some hfind, hmade⟩

theorem var_type (hwrite : .write_actions ∉ params) (hvar : instructionVars params.reverse t = some i) : i.type = t := by
  obtain ⟨param, hparam, rfl, hmade⟩ := exists_of_var hvar
  apply InstructionParam.type_made hmade
  rintro rfl
  exact hwrite hparam

theorem mem_set_flow_instruction :
    i ∈ set_flow_instruction [] params.reverse ↔ ∃ t ∈ instructionOrder, instructionVars params.reverse t = some i := by
  rw [set_flow_instruction, List.append_nil, List.mem_filterMap]

theorem type_ne_write_of_mem (hi : i ∈ set_flow_instruction [] params.reverse) : i.type ≠ OFPIT_WRITE_ACTIONS := by
  obtain ⟨t, -, hvar⟩ := mem_set_flow_instruction.mp hi
  obtain ⟨param, -, -, hmade⟩ := exists_of_var hvar
  exact InstructionParam.made_type_ne_write hmade

theorem set_flow_instruction_nodup (hwrite : .write_actions ∉ params) :
    ((set_flow_instruction [] params.reverse).map Instruction.type).Nodup := by
  rw [set_flow_instruction, List.append_nil]
  apply List.pairwise_map.mpr
  apply List.Pairwise.filterMap _ _ (show instructionOrder.Nodup by decide)
  intro t t' hne i hvar i' hvar'
  rw [var_type hwrite hvar, var_type hwrite hvar']
  exact hne

end

section

variable {action_param : List ActionParam} {t : UINT2} {i i' : gn_instruction} {is is' : List gn_instruction}

theorem addActions_eq_some_iff {actions actions' : List gn_action_t} :
    addActions actions action_param = some actions' ↔
      (∀ param ∈ action_param, param.Fits) ∧ actions' = (action_param.filterMap ActionParam.made).reverse ++ actions := by
  unfold addActions
  induction action_param generalizing actions with
  | nil => simp [eq_comm]
  | cons param action_param ih =>
    rw [List.foldlM_cons, List.forall_mem_cons]
    by_cases hfits : param.Fits
    · cases hmade : param.made with
      | none => simp [hfits, ih, hmade]
      | some action => simp [hfits, ih, hmade]
    · simp [hfits]

theorem Instruction.type_addActions (h : i.addActions action_param = some i') : i'.type = i.type := by
  cases i with
  | write_actions actions =>
    obtain ⟨actions', -, rfl⟩ := Option.map_eq_some_iff.mp h
    rfl
  | apply_actions actions =>
    obtain ⟨actions', -, rfl⟩ := Option.map_eq_some_iff.mp h
    rfl
  | goto_table | write_metadata | clear_actions | meter | experimenter | other => cases h

theorem set_flow_action_of_ne (h : ∀ i ∈ is, i.type ≠ t) : set_flow_action action_param t is = some is := by
  induction is with
  | nil => rfl
  | cons i is ih =>
    obtain ⟨hi, his⟩ := List.forall_mem_cons.mp h
    rw [set_flow_action, if_neg hi.symm, ih his, Option.map_some]

theorem set_flow_action_eq_map (hnodup : (is.map Instruction.type).Nodup)
    (hi : ∀ j ∈ is, j.type = t → j.addActions action_param = some i) :
    set_flow_action action_param t is = some (is.map fun j => if j.type = t then i else j) := by
  induction is with
  | nil => rfl
  | cons j is ih =>
    obtain ⟨hj, his⟩ := List.forall_mem_cons.mp hi
    obtain ⟨hnot, hnodup⟩ := List.nodup_cons.mp hnodup
    rw [set_flow_action, List.map_cons]
    by_cases ht : j.type = t
    · have hrest : is.map (fun j => if j.type = t then i else j) = is := by
        refine (List.map_congr_left ?_).trans (List.map_id is)
        intro k hk
        apply if_neg
        rintro rfl
        exact hnot (List.mem_map.mpr ⟨k, hk, ht.symm⟩)
      rw [if_pos ht.symm, hj ht, hrest, if_pos ht, Option.map_some]
    · rw [if_neg (Ne.symm ht), ih hnodup his, if_neg ht, Option.map_some]

/-- The first instruction of the type gets the actions. -/
theorem exists_addActions (h : set_flow_action action_param t is = some is') (hall : ∀ j ∈ is, j.type = t → j = i)
    (hi : i ∈ is) (ht : i.type = t) : ∃ i', i.addActions action_param = some i' := by
  induction is generalizing is' with
  | nil => cases hi
  | cons j is ih =>
    obtain ⟨hj, his⟩ := List.forall_mem_cons.mp hall
    rw [set_flow_action] at h
    split at h
    next htype =>
      obtain ⟨i', hi', -⟩ := Option.map_eq_some_iff.mp h
      exact ⟨i', hj htype.symm ▸ hi'⟩
    next htype =>
      obtain ⟨is'', hrest, -⟩ := Option.map_eq_some_iff.mp h
      apply ih hrest his
      rcases List.mem_cons.mp hi with rfl | hi
      · exact absurd ht.symm htype
      · exact hi

theorem set_flow_action_types (h : set_flow_action action_param t is = some is') :
    is'.map Instruction.type = is.map Instruction.type := by
  induction is generalizing is' with
  | nil =>
    obtain rfl := Option.some.inj h
    rfl
  | cons i is ih =>
    rw [set_flow_action] at h
    split at h
    · obtain ⟨i', hi', rfl⟩ := Option.map_eq_some_iff.mp h
      rw [List.map_cons, List.map_cons, Instruction.type_addActions hi']
    · obtain ⟨is'', his, rfl⟩ := Option.map_eq_some_iff.mp h
      rw [List.map_cons, List.map_cons, ih his]

end

theorem ActionParam.fits_iff (param : ActionParam) : param.Fits ↔ param ≠ .push_mpls ∧ param ≠ .push_pbb := by
  cases param with
  | push_mpls | push_pbb => exact iff_of_false (by decide) (by simp)
  | output => exact iff_of_true (show 16 ≤ 24 by decide) ⟨nofun, nofun⟩
  | copy_ttl_out | copy_ttl_in | mpls_ttl | dec_mpls_ttl | push_vlan | pop_vlan | pop_mpls | set_queue | group
  | set_nw_ttl | dec_nw_ttl | set_field | pop_pbb | experimenter | other =>
    exact iff_of_true (le_refl _) ⟨nofun, nofun⟩

namespace InstructionParam

variable {calls : List ParamCall} {param param' : InstructionParam} {i : gn_instruction}

theorem asked_eq_made (hwrite : param ≠ .write_actions) (happly : param ≠ .apply_actions) :
    param.asked calls = param.made := by
  cases param with
  | write_actions => exact absurd rfl hwrite
  | apply_actions => exact absurd rfl happly
  | goto_table | write_metadata | clear_actions | meter | experimenter | other => rfl

theorem asked_eq_none_iff : param.asked calls = none ↔ param.type ∉ ofp_instruction_type := by
  cases param with
  | other type unknown => exact iff_of_true rfl unknown
  | write_actions | apply_actions | goto_table | write_metadata | clear_actions | meter | experimenter =>
    apply iff_of_false
    · simp [asked, made]
    · simp [type, ofp_instruction_type]

theorem type_asked (h : param.asked calls = some i) : i.type = param.type := by
  by_cases hwrite : param = .write_actions
  · subst hwrite
    obtain rfl := Option.some.inj h
    rfl
  · by_cases happly : param = .apply_actions
    · subst happly
      obtain rfl := Option.some.inj h
      rfl
    · exact type_made ((asked_eq_made hwrite happly).symm.trans h) hwrite

/-- What is asked for tells the parameters of a type. -/
theorem eq_of_asked (htype : param.type = param'.type) (h : param.asked calls = param'.asked calls) :
    param = param' := by
  cases param with
  | write_actions => exact (eq_write_actions htype.symm).symm
  | apply_actions => exact (eq_apply_actions htype.symm).symm
  | other type unknown =>
    cases param' with
    | other type' unknown' => exact (other.injEq ..).mpr htype
    | goto_table | write_metadata | write_actions | apply_actions | clear_actions | meter | experimenter => cases h
  | goto_table table_id => cases param' <;> simp_all [asked, made]
  | write_metadata metadata metadata_mask => cases param' <;> simp_all [asked, made]
  | clear_actions => cases param' <;> simp_all [asked, made]
  | meter meter_id => cases param' <;> simp_all [asked, made]
  | experimenter exp => cases param' <;> simp_all [asked, made]

end InstructionParam

section

variable {calls : List ParamCall} {i : gn_instruction}

theorem instructions_eq (calls : List ParamCall) :
    (calls.foldl ParamCall.apply init_flow_param).instructions =
      set_flow_action (actionsOf calls).reverse OFPIT_APPLY_ACTIONS
        (set_flow_instruction [] (instructionsOf calls).reverse) := by
  rw [foldl_apply, flow_param_t.instructions, init_flow_param]
  simp only [List.append_nil]
  cases hset : set_flow_action (actionsOf calls).reverse OFPIT_APPLY_ACTIONS
      (set_flow_instruction [] (instructionsOf calls).reverse) with
  | none => rfl
  | some is =>
    rw [Option.bind_some]
    apply set_flow_action_of_ne
    intro i hi
    have hmem := List.mem_map_of_mem (f := Instruction.type) hi
    rw [set_flow_action_types hset] at hmem
    obtain ⟨j, hj, htype⟩ := List.mem_map.mp hmem
    exact htype ▸ type_ne_write_of_mem hj

theorem eq_apply_of_mem (hi : i ∈ set_flow_instruction [] (instructionsOf calls).reverse)
    (htype : i.type = OFPIT_APPLY_ACTIONS) : i = .apply_actions [] := by
  obtain ⟨t, -, hvar⟩ := mem_set_flow_instruction.mp hi
  obtain ⟨param, -, -, hmade⟩ := exists_of_var hvar
  by_cases hwrite : param = .write_actions
  · subst hwrite
    exact (Option.some.inj hmade).symm
  · obtain rfl := InstructionParam.eq_apply_actions ((InstructionParam.type_made hmade hwrite).symm.trans htype)
    exact (Option.some.inj hmade).symm

theorem mem_of_made {param : InstructionParam} (hparam : param ∈ instructionsOf calls)
    (hsame : ∀ param' ∈ instructionsOf calls, param'.type = param.type → param' = param) (hmade : param.made = some i) :
    i ∈ set_flow_instruction [] (instructionsOf calls).reverse := by
  refine mem_set_flow_instruction.mpr ⟨param.type, ?_, (instructionVars_of_mem hparam hsame).trans hmade⟩
  cases param with
  | other => cases hmade
  | goto_table | write_metadata | write_actions | apply_actions | clear_actions | meter | experimenter =>
    simp [InstructionParam.type, instructionOrder]

end

theorem BuiltFor.buildable {calls : List ParamCall} {is : List gn_instruction}
    (his : (calls.foldl ParamCall.apply init_flow_param).instructions = some is) (hbuilt : BuiltFor calls is) :
    Buildable calls := by
  rw [instructions_eq] at his
  have htypes := set_flow_action_types his
  have hwrite : .write_actions ∉ instructionsOf calls := by
    intro hmem
    have hasked := List.mem_map_of_mem (f := Instruction.type) (hbuilt.asked _ hmem _ rfl)
    rw [htypes] at hasked
    obtain ⟨i, hi, htype⟩ := List.mem_map.mp hasked
    exact type_ne_write_of_mem hi htype
  have hnodup : (is.map Instruction.type).Nodup := htypes ▸ set_flow_instruction_nodup hwrite
  refine ⟨hwrite, ?_, ?_⟩
  · intro param hparam param' hparam' htype
    refine InstructionParam.eq_of_asked htype (show param.asked calls = param'.asked calls from ?_)
    cases hasked : param.asked calls with
    | none => exact (InstructionParam.asked_eq_none_iff.mpr
        (htype ▸ InstructionParam.asked_eq_none_iff.mp hasked)).symm
    | some i =>
      cases hasked' : param'.asked calls with
      | none =>
        have hnone := htype ▸ InstructionParam.asked_eq_none_iff.mp hasked'
        rw [← InstructionParam.asked_eq_none_iff, hasked] at hnone
        cases hnone
      | some i' =>
        have heq : i = i' := by
          apply List.inj_on_of_nodup_map hnodup (hbuilt.asked _ hparam _ hasked) (hbuilt.asked _ hparam' _ hasked')
          rw [InstructionParam.type_asked hasked, InstructionParam.type_asked hasked', htype]
        rw [heq]
  · intro happly param hparam
    have hmem : .apply_actions [] ∈ set_flow_instruction [] (instructionsOf calls).reverse := by
      apply mem_of_made happly _ rfl
      intro param' _ htype
      exact InstructionParam.eq_apply_actions htype
    obtain ⟨i', hadd⟩ := exists_addActions his (fun j => eq_apply_of_mem) hmem rfl
    obtain ⟨actions, hactions, -⟩ := Option.map_eq_some_iff.mp hadd
    exact param.fits_iff.mp ((addActions_eq_some_iff.mp hactions).1 param (List.mem_reverse.mpr hparam))

theorem Buildable.builtFor {calls : List ParamCall} (h : Buildable calls) :
    ∃ is, (calls.foldl ParamCall.apply init_flow_param).instructions = some is ∧ BuiltFor calls is := by
  have hadd : ∀ j ∈ set_flow_instruction [] (instructionsOf calls).reverse, j.type = OFPIT_APPLY_ACTIONS →
      j.addActions (actionsOf calls).reverse =
        some (.apply_actions ((actionsOf calls).filterMap ActionParam.made)) := by
    intro j hj htype
    obtain ⟨t, -, hvar⟩ := mem_set_flow_instruction.mp hj
    obtain ⟨param, hparam, rfl, hmade⟩ := exists_of_var hvar
    obtain rfl := InstructionParam.eq_apply_actions ((var_type h.write hvar).symm.trans htype)
    obtain rfl := Option.some.inj hmade
    have hactions : addActions [] (actionsOf calls).reverse = some ((actionsOf calls).filterMap ActionParam.made) := by
      apply addActions_eq_some_iff.mpr
      constructor
      · intro param hmem
        exact param.fits_iff.mpr (h.fits hparam param (List.mem_reverse.mp hmem))
      · rw [List.filterMap_reverse, List.reverse_reverse, List.append_nil]
    rw [Instruction.addActions, hactions, Option.map_some]
  refine ⟨_, (instructions_eq calls).trans (set_flow_action_eq_map (set_flow_instruction_nodup h.write) hadd), ?_⟩
  refine ⟨?_, ?_, ?_⟩
  · intro param hparam i hasked
    have hwrite : param ≠ .write_actions := fun heq => h.write (heq ▸ hparam)
    have hsame : ∀ param' ∈ instructionsOf calls, param'.type = param.type → param' = param := by
      intro param' hparam' htype
      exact h.same param' hparam' param hparam htype
    apply List.mem_map.mpr
    by_cases happly : param = .apply_actions
    · subst happly
      obtain rfl := Option.some.inj hasked
      exact ⟨.apply_actions [], mem_of_made hparam hsame rfl, rfl⟩
    · rw [InstructionParam.asked_eq_made hwrite happly] at hasked
      refine ⟨i, mem_of_made hparam hsame hasked, if_neg ?_⟩
      rw [InstructionParam.type_made hasked hwrite]
      exact fun htype => happly (InstructionParam.eq_apply_actions htype)
  · intro actions hmem
    obtain ⟨j, hj, heq⟩ := List.mem_map.mp hmem
    split at heq
    · exact (Instruction.apply_actions.inj heq).symm
    next htype =>
      subst heq
      exact absurd rfl htype
  · intro actions hmem
    obtain ⟨j, hj, heq⟩ := List.mem_map.mp hmem
    split at heq
    · cases heq
    · subst heq
      exact absurd rfl (type_ne_write_of_mem hj)

theorem instructions_builtFor_iff (calls : List ParamCall) :
    (∃ is, (calls.foldl ParamCall.apply init_flow_param).instructions = some is ∧ BuiltFor calls is) ↔
      Buildable calls := by
  constructor
  · rintro ⟨is, his, hbuilt⟩
    exact hbuilt.buildable his
  · exact Buildable.builtFor

theorem writeOutput_not_builtFor :
    ¬ ∃ is, ([ParamCall.instruction .write_actions, .write_action (.output 1)].foldl ParamCall.apply
      init_flow_param).instructions = some is ∧
        BuiltFor [.instruction .write_actions, .write_action (.output 1)] is := by
  rintro ⟨is, his, hbuilt⟩
  exact (hbuilt.buildable his).write (by decide)

end DCFabric
