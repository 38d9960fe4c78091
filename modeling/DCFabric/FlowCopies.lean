import DCFabric.CFlow
import DCFabric.MemPool

namespace DCFabric.FlowMgr

/-- What a unit of the action pool holds, read as the structure of its type; `header` is a `gn_action_t`. -/
inductive gn_action where
  | output (port : UINT4) (max_len : UINT2)
  | group (group_id : UINT4)
  | set_queue (queue_id : UINT4)
  | mpls_ttl (mpls_tt : UINT1)
  | nw_ttl (nw_tt : UINT1)
  | push (type : UINT2) (mpls_tt : UINT1)
  | pop (type : UINT2) (mpls_tt : UINT1)
  | set_field (oxm_fields : gn_oxm_t)
  | experimenter (experimenter : UINT4)
  | header (type : UINT2)
deriving DecidableEq

namespace gn_action

def type : gn_action → UINT2
  | output _ _ => OFPAT13_OUTPUT
  | group _ => OFPAT13_GROUP
  | set_queue _ => OFPAT13_SET_QUEUE
  | mpls_ttl _ => OFPAT13_MPLS_TTL
  | nw_ttl _ => OFPAT13_SET_NW_TTL
  | push type _ => type
  | pop type _ => type
  | set_field _ => OFPAT13_SET_FIELD
  | experimenter _ => OFPAT13_EXPERIMENTER
  | header type => type

/-- What the unit reads as into which `sizeof(gn_action_t)` bytes are copied, the link and the type: the structures are
packed, so that every parameter is behind these bytes, where `mem_get` has put zeros. -/
def copied : gn_action → gn_action
  | output _ _ => output 0 0
  | group _ => group 0
  | set_queue _ => set_queue 0
  | mpls_ttl _ => mpls_ttl 0
  | nw_ttl _ => nw_ttl 0
  | push type _ => push type 0
  | pop type _ => pop type 0
  | set_field _ => set_field ⟨fun _ => 0, 0⟩
  | experimenter _ => experimenter 0
  | header type => header type

/-- Every parameter is zero. -/
def Bare : gn_action → Prop
  | output port max_len => port = 0 ∧ max_len = 0
  | group group_id => group_id = 0
  | set_queue queue_id => queue_id = 0
  | mpls_ttl mpls_tt => mpls_tt = 0
  | nw_ttl nw_tt => nw_tt = 0
  | push _ mpls_tt => mpls_tt = 0
  | pop _ mpls_tt => mpls_tt = 0
  | set_field oxm_fields => oxm_fields.mask = 0 ∧ ∀ f, oxm_fields.field f = 0
  | experimenter exp => exp = 0
  | header _ => True

theorem type_copied (action : gn_action) : action.copied.type = action.type := by
  cases action <;> rfl

theorem copied_eq_iff (action : gn_action) : action.copied = action ↔ action.Bare := by
  cases action with
  | output port max_len =>
    rw [copied, output.injEq, Bare]
    exact and_congr eq_comm eq_comm
  | push type mpls_tt =>
    rw [copied, push.injEq, Bare]
    exact ⟨fun h => h.2.symm, fun h => ⟨rfl, h.symm⟩⟩
  | pop type mpls_tt =>
    rw [copied, pop.injEq, Bare]
    exact ⟨fun h => h.2.symm, fun h => ⟨rfl, h.symm⟩⟩
  | set_field oxm_fields =>
    rw [copied, set_field.injEq, Bare]
    constructor
    · rintro rfl
      exact ⟨rfl, fun _ => rfl⟩
    · rintro ⟨hmask, hfield⟩
      obtain ⟨field, mask⟩ := oxm_fields
      obtain rfl : field = fun _ => 0 := funext hfield
      obtain rfl : mask = 0 := hmask
      rfl
  | header type => exact iff_of_true rfl trivial
  | _ =>
    simp only [copied, Bare, group.injEq, set_queue.injEq, mpls_ttl.injEq, nw_ttl.injEq, experimenter.injEq]
    exact eq_comm

end gn_action

structure ActionNode where
  unit : ℕ
  action : gn_action
deriving DecidableEq

abbrev gn_instruction := Instruction (List ActionNode)

structure InstructionNode where
  unit : ℕ
  instruction : gn_instruction
deriving DecidableEq

structure flow_stats_t where
  status : UINT4
  kbps : UINT4
  kpps : UINT4
  byte_count : UINT8
  packet_count : UINT8
  max_speed : UINT4
  duration_sec : UINT4
  timestamp : UINT4
deriving DecidableEq

/-- A flow without its links, with instructions `I`. -/
structure gn_flow (I : Type) where
  uuid : Vector UINT1 40
  creater : Vector UINT1 16
  create_time : UINT8
  table_id : UINT1
  status : UINT1
  idle_timeout : UINT2
  hard_timeout : UINT2
  priority : UINT2
  stats : flow_stats_t
  gn_match : gn_match_t
  instructions : List I
deriving DecidableEq

structure FlowNode where
  unit : ℕ
  prev : Option ℕ
  next : Option ℕ
  flow : gn_flow InstructionNode
deriving DecidableEq

structure FlowPools where
  g_gnflow_mempool_id : MemPool
  g_gninstruction_mempool_id : MemPool
  g_gnaction_mempool_id : MemPool

namespace FlowPools

def freeUnits (pools : FlowPools) : ℕ × ℕ × ℕ :=
  (pools.g_gnflow_mempool_id.usable_len, pools.g_gninstruction_mempool_id.usable_len,
    pools.g_gnaction_mempool_id.usable_len)

end FlowPools

/-- The instruction without the units of its actions. -/
def InstructionNode.content (p_ins : InstructionNode) : Instruction (List gn_action) :=
  p_ins.instruction.map (·.map ActionNode.action)

def gn_flow.content (flow : gn_flow InstructionNode) : gn_flow (Instruction (List gn_action)) :=
  { flow with instructions := flow.instructions.map InstructionNode.content }

/-- The list behind the actions pointer of the instructions that have one. -/
def actionsOf : gn_instruction → List ActionNode
  | .write_actions actions => actions
  | .apply_actions actions => actions
  | _ => []

namespace InstructionNode

def actionUnits (p_ins : InstructionNode) : List ℕ := (actionsOf p_ins.instruction).map ActionNode.unit

end InstructionNode

namespace gn_flow

def instructionUnits (flow : gn_flow InstructionNode) : List ℕ := flow.instructions.map InstructionNode.unit

def actionUnits (flow : gn_flow InstructionNode) : List ℕ := flow.instructions.flatMap InstructionNode.actionUnits

end gn_flow

/-- The loop over the actions, with those that the copy has so far. -/
def copyActions : List ActionNode → List ActionNode → MemPool → Option (List ActionNode) × MemPool
  | [], actions, pool => (some actions, pool)
  | p_act_src :: src, actions, pool =>
    match pool.mem_get with
    | none => (none, pool)
    | some (unit, pool) => copyActions src (actions ++ [⟨unit, p_act_src.action.copied⟩]) pool

/-- What a cleared unit reads as in which the type of the instruction is set. -/
def typed : gn_instruction → gn_instruction
  | .goto_table _ => .goto_table 0
  | .write_metadata _ _ => .write_metadata 0 0
  | .write_actions _ => .write_actions []
  | .apply_actions _ => .apply_actions []
  | .clear_actions => .clear_actions
  | .meter _ => .meter 0
  | .experimenter _ _ => .experimenter 0 0
  | .other type unknown => .other type unknown

/-- The new unit of an instruction, after the actions. -/
def copyInstruction (src : gn_instruction) (pool : MemPool) : Option gn_instruction × MemPool :=
  match src with
  | .apply_actions actions =>
    let (copied, pool) := copyActions actions [] pool
    (copied.map .apply_actions, pool)
  | .write_actions actions =>
    let (copied, pool) := copyActions actions [] pool
    (copied.map .write_actions, pool)
  | src => (some (typed src), pool)

/-- The loop over the instructions, with those that `dest` has so far. -/
def copyInstructions : List InstructionNode → List InstructionNode → FlowPools →
    Option (List InstructionNode) × FlowPools
  | [], instructions, pools => (some instructions, pools)
  | p_ins_src :: src, instructions, pools =>
    match pools.g_gninstruction_mempool_id.mem_get with
    | none => (none, pools)
    | some (unit, pool) =>
      match copyInstruction p_ins_src.instruction pools.g_gnaction_mempool_id with
      | (none, pool') =>
        (none, { pools with g_gninstruction_mempool_id := pool, g_gnaction_mempool_id := pool' })
      | (some instruction, pool') =>
        copyInstructions src (instructions ++ [⟨unit, instruction⟩])
          { pools with g_gninstruction_mempool_id := pool, g_gnaction_mempool_id := pool' }

def copy_flow_entry (src : FlowNode) (pools : FlowPools) : Option FlowNode × FlowPools :=
  match pools.g_gnflow_mempool_id.mem_get with
  | none => (none, pools)
  | some (unit, pool) =>
    match copyInstructions src.flow.instructions [] { pools with g_gnflow_mempool_id := pool } with
    | (none, pools) => (none, pools)
    | (some instructions, pools) =>
      let flow : gn_flow InstructionNode := {
        uuid := src.flow.uuid
        creater := src.flow.creater
        create_time := src.flow.create_time
        table_id := src.flow.table_id
        status := src.flow.status
        idle_timeout := src.flow.idle_timeout
        hard_timeout := src.flow.hard_timeout
        priority := src.flow.priority
        stats := src.flow.stats
        gn_match := src.flow.gn_match
        instructions := instructions }
      (some ⟨unit, none, none, flow⟩, pools)

def gn_flow_free (flow : FlowNode) (pools : FlowPools) : FlowPools where
  g_gnflow_mempool_id := pools.g_gnflow_mempool_id.mem_free flow.unit
  g_gninstruction_mempool_id := flow.flow.instructionUnits.foldl MemPool.mem_free pools.g_gninstruction_mempool_id
  g_gnaction_mempool_id := flow.flow.actionUnits.foldl MemPool.mem_free pools.g_gnaction_mempool_id

/-- The instruction with zeros for its parameters and those of its actions. -/
def cleared : Instruction (List gn_action) → Instruction (List gn_action)
  | .goto_table _ => .goto_table 0
  | .write_metadata _ _ => .write_metadata 0 0
  | .write_actions actions => .write_actions (actions.map gn_action.copied)
  | .apply_actions actions => .apply_actions (actions.map gn_action.copied)
  | .clear_actions => .clear_actions
  | .meter _ => .meter 0
  | .experimenter _ _ => .experimenter 0 0
  | .other type unknown => .other type unknown

/-- Every parameter of the instruction and of its actions is zero. -/
def Bare : Instruction (List gn_action) → Prop
  | .goto_table table_id => table_id = 0
  | .write_metadata metadata metadata_mask => metadata = 0 ∧ metadata_mask = 0
  | .write_actions actions => ∀ action ∈ actions, action.Bare
  | .apply_actions actions => ∀ action ∈ actions, action.Bare
  | .clear_actions => True
  | .meter meter_id => meter_id = 0
  | .experimenter len exp => len = 0 ∧ exp = 0
  | .other _ _ => True

/-- The instructions are copied without their parameters, into units of the pools. -/
structure Makes (src new : List InstructionNode) (pools pools' : FlowPools) : Prop where
  content : new.map InstructionNode.content = src.map fun p_ins => cleared p_ins.content
  units : (new.flatMap InstructionNode.actionUnits).length = (src.flatMap InstructionNode.actionUnits).length
  flow : pools'.g_gnflow_mempool_id = pools.g_gnflow_mempool_id
  instructions : pools.g_gninstruction_mempool_id.Gives (new.map InstructionNode.unit) pools'.g_gninstruction_mempool_id
  actions : pools.g_gnaction_mempool_id.Gives (new.flatMap InstructionNode.actionUnits) pools'.g_gnaction_mempool_id

namespace FlowNode

/-- The pools have the units for a copy. -/
def Fits (src : FlowNode) (pools : FlowPools) : Prop :=
  0 < pools.g_gnflow_mempool_id.usable_len ∧
    src.flow.instructionUnits.length ≤ pools.g_gninstruction_mempool_id.usable_len ∧
    src.flow.actionUnits.length ≤ pools.g_gnaction_mempool_id.usable_len

/-- None of the flow's nodes lies in a unit that is free. -/
structure Live (src : FlowNode) (pools : FlowPools) : Prop where
  flow : src.unit ∉ pools.g_gnflow_mempool_id.freeList
  instructions : ∀ unit ∈ src.flow.instructionUnits, unit ∉ pools.g_gninstruction_mempool_id.freeList
  actions : ∀ unit ∈ src.flow.actionUnits, unit ∉ pools.g_gnaction_mempool_id.freeList

/-- The two flows share no node. -/
structure Apart (dest src : FlowNode) : Prop where
  flow : dest.unit ≠ src.unit
  instructions : ∀ unit ∈ dest.flow.instructionUnits, unit ∉ src.flow.instructionUnits
  actions : ∀ unit ∈ dest.flow.actionUnits, unit ∉ src.flow.actionUnits

end FlowNode

/-- A flow that comes back is equal to the source and apart from it; without one no unit is lost. -/
def CopySound (src : FlowNode) (pools : FlowPools) : Prop :=
  match copy_flow_entry src pools with
  | (some dest, _) => dest.flow.content = src.flow.content ∧ dest.Apart src
  | (none, pools') => pools'.freeUnits = pools.freeUnits

section

variable {src : List ActionNode} {acc copied : List ActionNode} {pool pool' : MemPool} {ins ins' : gn_instruction}
  {nodes acc' copied' : List InstructionNode} {pools pools' : FlowPools} {flow dest : FlowNode}

theorem cleared_eq_iff (c : Instruction (List gn_action)) : cleared c = c ↔ Bare c := by
  have hactions : ∀ actions : List gn_action,
      actions.map gn_action.copied = actions ↔ ∀ action ∈ actions, action.Bare := by
    intro actions
    have hid : actions.map gn_action.copied = actions ↔ actions.map gn_action.copied = actions.map id := by
      rw [List.map_id]
    rw [hid, List.map_inj_left]
    exact forall₂_congr fun action _ => action.copied_eq_iff
  cases c with
  | goto_table table_id =>
    rw [cleared, Instruction.goto_table.injEq]
    exact eq_comm
  | write_metadata metadata metadata_mask =>
    rw [cleared, Instruction.write_metadata.injEq]
    exact and_congr eq_comm eq_comm
  | write_actions actions =>
    rw [cleared, Instruction.write_actions.injEq]
    exact hactions actions
  | apply_actions actions =>
    rw [cleared, Instruction.apply_actions.injEq]
    exact hactions actions
  | clear_actions => exact iff_of_true rfl trivial
  | meter meter_id =>
    rw [cleared, Instruction.meter.injEq]
    exact eq_comm
  | experimenter len exp =>
    rw [cleared, Instruction.experimenter.injEq]
    exact and_congr eq_comm eq_comm
  | other type unknown => exact iff_of_true rfl trivial

/-- The actions follow those before them in order, without their parameters. -/
theorem copyActions_some (h : copyActions src acc pool = (some copied, pool')) : ∃ new, copied = acc ++ new ∧
    new.map ActionNode.action = src.map (fun p_act => p_act.action.copied) ∧
    pool.Gives (new.map ActionNode.unit) pool' := by
  induction src generalizing acc pool with
  | nil =>
    rw [copyActions] at h
    cases h
    exact ⟨[], (List.append_nil _).symm, rfl, .refl _⟩
  | cons p_act_src src ih =>
    rw [copyActions] at h
    split at h
    · cases h
    · next unit rest he =>
      obtain ⟨new, rfl, hactions, hgives⟩ := ih h
      refine ⟨⟨unit, p_act_src.action.copied⟩ :: new, ?_, ?_, ?_⟩
      · rw [List.append_assoc, List.singleton_append]
      · rw [List.map_cons, List.map_cons, hactions]
      · exact (MemPool.gives_of_mem_get he).trans hgives

theorem copyActions_none (h : copyActions src acc pool = (none, pool')) : pool.usable_len < src.length := by
  induction src generalizing acc pool with
  | nil =>
    rw [copyActions] at h
    cases h
  | cons p_act_src src ih =>
    rw [copyActions] at h
    rw [List.length_cons]
    split at h
    · next hn =>
      rw [MemPool.mem_get_eq_none.mp hn]
      exact Nat.succ_pos _
    · next unit rest he =>
      have hlt := ih h
      have hlen := MemPool.usable_len_mem_get he
      omega

theorem copyInstruction_some (h : copyInstruction ins pool = (some ins', pool')) :
    ins'.map (·.map ActionNode.action) = cleared (ins.map (·.map ActionNode.action)) ∧
      (actionsOf ins').length = (actionsOf ins).length ∧ pool.Gives ((actionsOf ins').map ActionNode.unit) pool' := by
  have hactions : ∀ {src copied : List ActionNode}, copyActions src [] pool = (some copied, pool') →
      copied.map ActionNode.action = (src.map ActionNode.action).map gn_action.copied ∧
        copied.length = src.length ∧ pool.Gives (copied.map ActionNode.unit) pool' := by
    intro src copied hcopy
    obtain ⟨new, rfl, haction, hgives⟩ := copyActions_some hcopy
    refine ⟨?_, ?_, hgives⟩
    · rw [haction, List.map_map]
      rfl
    · rw [← List.length_map ActionNode.action, haction, List.length_map]
  cases ins with
  | write_actions actions =>
    simp only [copyInstruction, Prod.mk.injEq, Option.map_eq_some_iff] at h
    obtain ⟨⟨copied, hcopied, rfl⟩, hpool⟩ := h
    obtain ⟨haction, hlength, hgives⟩ := hactions (Prod.ext hcopied hpool)
    exact ⟨congrArg Instruction.write_actions haction, hlength, hgives⟩
  | apply_actions actions =>
    simp only [copyInstruction, Prod.mk.injEq, Option.map_eq_some_iff] at h
    obtain ⟨⟨copied, hcopied, rfl⟩, hpool⟩ := h
    obtain ⟨haction, hlength, hgives⟩ := hactions (Prod.ext hcopied hpool)
    exact ⟨congrArg Instruction.apply_actions haction, hlength, hgives⟩
  | _ =>
    cases h
    exact ⟨rfl, rfl, .refl pool⟩

theorem copyInstruction_none (h : copyInstruction ins pool = (none, pool')) :
    pool.usable_len < (actionsOf ins).length := by
  cases ins with
  | write_actions actions | apply_actions actions =>
    simp only [copyInstruction, Prod.mk.injEq, Option.map_eq_none_iff] at h
    have hcopy : copyActions actions [] pool = (none, pool') := Prod.ext h.1 h.2
    exact copyActions_none hcopy
  | _ => cases h

theorem Makes.cons {node node' : InstructionNode} {new : List InstructionNode} {pools₁ pools₂ : FlowPools}
    (h : Makes nodes new pools₁ pools₂) (hcontent : node'.content = cleared node.content) (hlength : node'.actionUnits.length = node.actionUnits.length)
    (hflow : pools₁.g_gnflow_mempool_id = pools.g_gnflow_mempool_id)
    (hunit : pools.g_gninstruction_mempool_id.Gives [node'.unit] pools₁.g_gninstruction_mempool_id)
    (hunits : pools.g_gnaction_mempool_id.Gives node'.actionUnits pools₁.g_gnaction_mempool_id) :
    Makes (node :: nodes) (node' :: new) pools pools₂ where
  content := by rw [List.map_cons, List.map_cons, hcontent, h.content]
  units := by rw [List.flatMap_cons, List.flatMap_cons, List.length_append, List.length_append, hlength, h.units]
  flow := h.flow.trans hflow
  instructions := hunit.trans h.instructions
  actions := by
    rw [List.flatMap_cons]
    exact hunits.trans h.actions

theorem copyInstructions_some (h : copyInstructions nodes acc' pools = (some copied', pools')) :
    ∃ new, copied' = acc' ++ new ∧ Makes nodes new pools pools' := by
  induction nodes generalizing acc' pools with
  | nil =>
    rw [copyInstructions] at h
    cases h
    exact ⟨[], (List.append_nil _).symm, rfl, rfl, rfl, .refl _, .refl _⟩
  | cons p_ins_src nodes ih =>
    rw [copyInstructions] at h
    split at h
    · cases h
    · next unit pool he =>
      split at h
      · cases h
      · next instruction pool₁ hcopy =>
        obtain ⟨hcontent, hlength, hgives⟩ := copyInstruction_some hcopy
        obtain ⟨new, rfl, hmakes⟩ := ih h
        refine ⟨⟨unit, instruction⟩ :: new, ?_, ?_⟩
        · rw [List.append_assoc, List.singleton_append]
        · refine Makes.cons hmakes hcontent ?_ ?_ (MemPool.gives_of_mem_get he) hgives
          · rw [InstructionNode.actionUnits, InstructionNode.actionUnits, List.length_map, List.length_map, hlength]
          · rfl

theorem copyInstructions_none (h : copyInstructions nodes acc' pools = (none, pools')) :
    pools'.g_gnflow_mempool_id = pools.g_gnflow_mempool_id ∧
      (pools.g_gninstruction_mempool_id.usable_len < nodes.length ∨
        pools.g_gnaction_mempool_id.usable_len < (nodes.flatMap InstructionNode.actionUnits).length) := by
  induction nodes generalizing acc' pools with
  | nil =>
    rw [copyInstructions] at h
    cases h
  | cons p_ins_src nodes ih =>
    have hunits : p_ins_src.actionUnits.length = (actionsOf p_ins_src.instruction).length := List.length_map _
    rw [copyInstructions] at h
    rw [List.length_cons, List.flatMap_cons, List.length_append, hunits]
    split at h
    · next hn =>
      cases h
      rw [MemPool.mem_get_eq_none.mp hn]
      exact ⟨rfl, .inl (Nat.succ_pos _)⟩
    · next unit pool he =>
      have hlen := MemPool.usable_len_mem_get he
      split at h
      · next pool₁ hcopy =>
        cases h
        exact ⟨rfl, .inr ((copyInstruction_none hcopy).trans_le (Nat.le_add_right _ _))⟩
      · next instruction pool₁ hcopy =>
        obtain ⟨-, hlength, hgives⟩ := copyInstruction_some hcopy
        have hgiven := hgives.usable_len
        rw [List.length_map, hlength] at hgiven
        obtain ⟨hflow, hshort⟩ := ih h
        dsimp only at hshort
        refine ⟨hflow, hshort.imp ?_ ?_⟩
        · intro hlt
          omega
        · intro hlt
          omega

/-- A copy takes a unit for each node, and leaves the parameters out. -/
theorem copy_flow_entry_some (h : copy_flow_entry flow pools = (some dest, pools')) :
    pools.g_gnflow_mempool_id.Gives [dest.unit] pools'.g_gnflow_mempool_id ∧
      Makes flow.flow.instructions dest.flow.instructions
        { pools with g_gnflow_mempool_id := pools'.g_gnflow_mempool_id } pools' ∧
      dest.flow.content =
        { flow.flow.content with instructions := flow.flow.instructions.map fun p_ins => cleared p_ins.content } := by
  rw [copy_flow_entry] at h
  split at h
  · cases h
  · next unit pool he =>
    split at h
    · cases h
    · next instructions pools₁ hcopy =>
      cases h
      obtain ⟨new, rfl, hmakes⟩ := copyInstructions_some hcopy
      have hflow : pools'.g_gnflow_mempool_id = pool := hmakes.flow
      rw [hflow]
      refine ⟨MemPool.gives_of_mem_get he, hmakes, ?_⟩
      rw [gn_flow.content, ← hmakes.content]
      rfl

theorem copy_flow_entry_none (h : copy_flow_entry flow pools = (none, pools')) :
    ¬ flow.Fits pools ∧ (pools'.freeUnits = pools.freeUnits ↔ pools.g_gnflow_mempool_id.usable_len = 0) := by
  rw [copy_flow_entry] at h
  split at h
  · next hn =>
    cases h
    have hzero := MemPool.mem_get_eq_none.mp hn
    exact ⟨fun hfits => hfits.1.ne' hzero, iff_of_true rfl hzero⟩
  · next unit pool he =>
    have hlen := MemPool.usable_len_mem_get he
    split at h
    · next pools₁ hcopy =>
      cases h
      obtain ⟨hflow, hshort⟩ := copyInstructions_none hcopy
      dsimp only at hflow hshort
      constructor
      · rintro ⟨-, hinstructions, hactions⟩
        rw [gn_flow.instructionUnits, List.length_map] at hinstructions
        rw [gn_flow.actionUnits] at hactions
        omega
      · rw [FlowPools.freeUnits, FlowPools.freeUnits, Prod.mk.injEq, hflow]
        constructor
        · rintro ⟨heq, -⟩
          omega
        · intro hzero
          omega
    · cases h

theorem Makes.lengths {src new : List InstructionNode} (h : Makes src new pools pools') :
    new.length = src.length := by
  have hlength := congrArg List.length h.content
  rwa [List.length_map, List.length_map] at hlength

/-- A copy has its units from the pools. -/
theorem fits_of_copied (h : copy_flow_entry flow pools = (some dest, pools')) : flow.Fits pools := by
  obtain ⟨hflow, hmakes, -⟩ := copy_flow_entry_some h
  have hone := hflow.usable_len
  have hinstructions := hmakes.instructions.usable_len
  have hactions := hmakes.actions.usable_len
  rw [List.length_singleton] at hone
  rw [List.length_map, hmakes.lengths] at hinstructions
  rw [hmakes.units] at hactions
  refine ⟨by omega, ?_, ?_⟩
  · rw [gn_flow.instructionUnits, List.length_map]
    exact Nat.le.intro hinstructions.symm
  · exact Nat.le.intro hactions.symm

/-- A copy that is given free leaves the pools as they were. -/
theorem gn_flow_free_copied (h : copy_flow_entry flow pools = (some dest, pools')) :
    (gn_flow_free dest pools').freeUnits = pools.freeUnits := by
  obtain ⟨hflow, hmakes, -⟩ := copy_flow_entry_some h
  have hone : (pools'.g_gnflow_mempool_id.mem_free dest.unit).usable_len = pools.g_gnflow_mempool_id.usable_len :=
    hflow.usable_len_frees
  have hinstructions := hmakes.instructions.usable_len_frees
  have hactions := hmakes.actions.usable_len_frees
  exact Prod.ext hone (Prod.ext hinstructions hactions)

theorem apart_of_copied (h : copy_flow_entry flow pools = (some dest, pools')) (hlive : flow.Live pools) :
    dest.Apart flow := by
  obtain ⟨hflow, hmakes, -⟩ := copy_flow_entry_some h
  refine ⟨?_, hmakes.instructions.not_mem hlive.instructions, hmakes.actions.not_mem hlive.actions⟩
  intro heq
  apply hlive.flow
  rw [hflow.freeList, heq]
  exact List.mem_append_left _ (List.mem_singleton_self _)

theorem content_copied_iff (h : copy_flow_entry flow pools = (some dest, pools')) :
    dest.flow.content = flow.flow.content ↔ ∀ p_ins ∈ flow.flow.instructions, Bare p_ins.content := by
  obtain ⟨-, -, hcontent⟩ := copy_flow_entry_some h
  have hinstructions : dest.flow.content = flow.flow.content ↔
      flow.flow.instructions.map (fun p_ins => cleared p_ins.content) =
        flow.flow.instructions.map InstructionNode.content := by
    rw [hcontent]
    constructor
    · intro heq
      exact congrArg gn_flow.instructions heq
    · intro heq
      rw [heq]
      rfl
  rw [hinstructions, List.map_inj_left]
  exact forall₂_congr fun p_ins _ => cleared_eq_iff p_ins.content

end

/-- A copy is right if there is no parameter to copy; where the units do not suffice, one is lost unless the first pool
is the empty one. -/
theorem copy_flow_entry_sound_iff (src : FlowNode) (pools : FlowPools) (hlive : src.Live pools) :
    CopySound src pools ↔
      (src.Fits pools → ∀ p_ins ∈ src.flow.instructions, Bare p_ins.content) ∧
        (¬ src.Fits pools → pools.g_gnflow_mempool_id.usable_len = 0) := by
  rw [CopySound]
  cases hcopy : copy_flow_entry src pools with
  | mk result pools' =>
    cases result with
    | none =>
      obtain ⟨hfits, hunits⟩ := copy_flow_entry_none hcopy
      dsimp only
      rw [hunits]
      constructor
      · intro hzero
        exact ⟨fun h => absurd h hfits, fun _ => hzero⟩
      · intro h
        exact h.2 hfits
    | some dest =>
      have hfits := fits_of_copied hcopy
      dsimp only
      rw [content_copied_iff hcopy]
      constructor
      · rintro ⟨hbare, -⟩
        exact ⟨fun _ => hbare, fun h => absurd hfits h⟩
      · intro h
        exact ⟨h.1 hfits, apart_of_copied hcopy hlive⟩

/-- A flow outside of the pools that applies one action. -/
def appliesOne (action : gn_action) : FlowNode where
  unit := 100
  prev := none
  next := none
  flow := {
    uuid := Vector.replicate 40 0
    creater := Vector.replicate 16 0
    create_time := 0
    table_id := 0
    status := 1
    idle_timeout := 0
    hard_timeout := 0
    priority := 1
    stats := ⟨0, 0, 0, 0, 0, 0, 0, 0⟩
    gn_match := ⟨0, ⟨fun _ => 0, 0⟩⟩
    instructions := [⟨101, .apply_actions [⟨102, action⟩]⟩] }

/-- Three pools of eight units of which none was given out. -/
def unusedPools : FlowPools := ⟨.mem_create 8, .mem_create 8, .mem_create 8⟩

theorem appliesOne_live (action : gn_action) : (appliesOne action).Live unusedPools := by
  refine ⟨?_, ?_, ?_⟩
  · change 100 ∉ (MemPool.mem_create 8).freeList
    decide
  · change ∀ unit ∈ [101], unit ∉ (MemPool.mem_create 8).freeList
    decide
  · change ∀ unit ∈ [102], unit ∉ (MemPool.mem_create 8).freeList
    decide

theorem appliesOne_fits (action : gn_action) : (appliesOne action).Fits unusedPools := by
  change 0 < (MemPool.mem_create 8).usable_len ∧ 1 ≤ (MemPool.mem_create 8).usable_len ∧
    1 ≤ (MemPool.mem_create 8).usable_len
  decide

/-- The tag is taken off, which needs no parameter. -/
theorem pop_vlan_copied : CopySound (appliesOne (.pop OFPAT13_POP_VLAN 0)) unusedPools := by
  apply (copy_flow_entry_sound_iff _ _ (appliesOne_live _)).mpr
  refine ⟨?_, fun h => absurd (appliesOne_fits _) h⟩
  rintro - p_ins hp
  obtain rfl := List.mem_singleton.mp hp
  intro action haction
  obtain rfl := List.mem_singleton.mp haction
  rfl

/-- The port of an output action is not copied. -/
theorem output_port_lost : ¬ ∀ (src : FlowNode) (pools : FlowPools), src.Live pools → CopySound src pools := by
  intro h
  have hsound := h (appliesOne (.output 1 0)) unusedPools (appliesOne_live _)
  rw [CopySound] at hsound
  cases hcopy : copy_flow_entry (appliesOne (.output 1 0)) unusedPools with
  | mk result pools' =>
    rw [hcopy] at hsound
    cases result with
    | none => exact (copy_flow_entry_none hcopy).1 (appliesOne_fits _)
    | some dest =>
      have hbare := (content_copied_iff hcopy).mp hsound.1 _ List.mem_cons_self
      have hport := hbare _ List.mem_cons_self
      exact absurd hport.1 (by decide)

end DCFabric.FlowMgr
