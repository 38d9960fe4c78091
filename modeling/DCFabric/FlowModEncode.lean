import DCFabric.FlowTranslate
import DCFabric.OfRecvWorker
import DCFabric.RecordWriters
import DCFabric.SetFieldEncode

namespace DCFabric

open ListUpdates MessageFraming RecordWriters TlvStreams

def ETH_TYPE_VLAN_8021Q : UINT2 := 0x8100
def ETH_TYPE_MPLS_8021Q : UINT2 := 0x8847
def ETH_TYPE_PBB_8021AH : UINT2 := 0x88e7
def OFPT13_FLOW_MOD : UINT1 := 14
def OF13_DEFAULT_XID : UINT4 := 0xffffffff
def MSG_MAX_LEN : ℕ := 10240

/-- `sizeof(struct ofp_action_set_field)` is 8, that of an `ofp_oxm_header` 4. -/
def Oxm.oxm_field_sz (o : Oxm) : ℕ := ALIGN_8 (8 - 4 + 4 + o.data.length)

def addSetFieldAction (w : Written) (o : Oxm) : Option Written :=
  w.put (hton OFPAT13_SET_FIELD ++ hton (UInt16.ofNat o.oxm_field_sz) ++ o.bytes) o.oxm_field_sz

def of13_add_set_field (buf : List UINT1) (oxm_fields : gn_oxm_t) : Option Written :=
  (setFieldOxms oxm_fields).oxms.foldlM addSetFieldAction (.start buf)

/-- What is written for an action. -/
def addAction (w : Written) : gn_action_t → Option Written
  | .output port max_len =>
    w.put (hton OFPAT13_OUTPUT ++ hton (16 : UINT2) ++ (hton port ++ hton max_len ++ List.replicate 6 0)) 16
  | .copy_ttl_out => some w
  | .copy_ttl_in => some w
  | .mpls_ttl mpls_tt =>
    w.put (hton OFPAT13_MPLS_TTL ++ hton (8 : UINT2) ++ ([mpls_tt] ++ List.replicate 3 0)) 8
  | .dec_mpls_ttl => some w
  | .push_vlan =>
    w.put (hton OFPAT13_PUSH_VLAN ++ hton (8 : UINT2) ++ (hton ETH_TYPE_VLAN_8021Q ++ List.replicate 2 0)) 8
  | .pop_vlan =>
    w.put (hton OFPAT13_POP_VLAN ++ hton (8 : UINT2) ++ (hton ETH_TYPE_VLAN_8021Q ++ List.replicate 2 0)) 8
  | .push_mpls =>
    w.put (hton OFPAT13_PUSH_MPLS ++ hton (8 : UINT2) ++ (hton ETH_TYPE_MPLS_8021Q ++ List.replicate 2 0)) 8
  | .pop_mpls =>
    w.put (hton OFPAT13_POP_MPLS ++ hton (8 : UINT2) ++ (hton ETH_TYPE_MPLS_8021Q ++ List.replicate 2 0)) 8
  | .set_queue queue_id => w.put (hton OFPAT13_SET_QUEUE ++ hton (8 : UINT2) ++ hton queue_id) 8
  | .group group_id => w.put (hton OFPAT13_GROUP ++ hton (8 : UINT2) ++ hton group_id) 8
  | .set_nw_ttl nw_tt => w.put (hton OFPAT13_SET_NW_TTL ++ hton (8 : UINT2) ++ ([nw_tt] ++ List.replicate 3 0)) 8
  | .dec_nw_ttl => some w
  | .set_field oxm_fields => (of13_add_set_field w.rest oxm_fields).map w.advance
  | .push_pbb =>
    w.put (hton OFPAT13_PUSH_PBB ++ hton (8 : UINT2) ++ (hton ETH_TYPE_PBB_8021AH ++ List.replicate 2 0)) 8
  | .pop_pbb =>
    w.put (hton OFPAT13_POP_PBB ++ hton (8 : UINT2) ++ (hton ETH_TYPE_PBB_8021AH ++ List.replicate 2 0)) 8
  | .experimenter exp => w.put (hton OFPAT13_EXPERIMENTER ++ hton (8 : UINT2) ++ hton exp) 8
  | .other .. => some w

def of13_add_action (buf : List UINT1) (action : List gn_action_t) : Option Written :=
  action.foldlM addAction (.start buf)

/-- The length of the instruction is written once its actions have been. -/
def addInstructionActions (w : Written) (type : UINT2) (actions : List gn_action_t) : Option Written :=
  if 8 ≤ w.rest.length then
    (of13_add_action (w.rest.drop 8) actions).map fun a =>
      let header := hton type ++ hton (UInt16.ofNat (8 + ALIGN_8 a.len.toNat)) ++ List.replicate 4 0
      ⟨w.output ++ header ++ a.buf.take a.len.toNat, a.buf.drop a.len.toNat, w.len + 8 + a.len⟩
  else none

/-- What is written for an instruction. -/
def addInstruction (w : Written) : gn_instruction → Option Written
  | .apply_actions actions => addInstructionActions w OFPIT_APPLY_ACTIONS actions
  | .write_actions actions => addInstructionActions w OFPIT_WRITE_ACTIONS actions
  | .clear_actions => w.put (hton OFPIT_CLEAR_ACTIONS ++ hton (8 : UINT2) ++ List.replicate 4 0) 8
  | .goto_table table_id =>
    w.put (hton OFPIT_GOTO_TABLE ++ hton (8 : UINT2) ++ ([table_id] ++ List.replicate 3 0)) 8
  | .write_metadata metadata metadata_mask =>
    w.put (hton OFPIT_WRITE_METADATA ++ hton (24 : UINT2) ++
      (List.replicate 4 0 ++ hton metadata ++ hton metadata_mask)) 24
  | .meter meter_id => w.put (hton OFPIT_METER ++ hton (8 : UINT2) ++ hton meter_id) 8
  | .experimenter _ exp => w.put (hton OFPIT_EXPERIMENTER ++ hton (8 : UINT2) ++ hton exp) 8
  | .other .. => some w

def of13_add_instruction (buf : List UINT1) : List gn_instruction → Option Written
  | [] => (Written.start buf).put (hton OFPIT_APPLY_ACTIONS ++ hton (8 : UINT2) ++ List.replicate 4 0) 8
  | p_ins => p_ins.foldlM addInstruction (.start buf)

structure flow_mod_req_info_t where
  xid : UINT4
  buffer_id : UINT4
  out_port : UINT4
  out_group : UINT4
  command : UINT1
  flags : UINT2
  flow : gn_flow

/-- The 48 bytes of a `struct ofp13_flow_mod` before its match: `xid` is in the order of the host. -/
def flowModHead (mod_info : flow_mod_req_info_t) (xid : UINT4) (length : UINT2) : List UINT1 :=
  [OFP13_VERSION, OFPT13_FLOW_MOD] ++ hton length ++ leBytes 4 xid.toNat ++ hton (0 : UINT8) ++ hton (0 : UINT8) ++
    [mod_info.flow.table_id, mod_info.command] ++ hton mod_info.flow.idle_timeout ++
    hton mod_info.flow.hard_timeout ++ hton mod_info.flow.priority ++ hton mod_info.buffer_id ++
    hton mod_info.out_port ++ hton mod_info.out_group ++ hton mod_info.flags ++ [0, 0]

/-- The match, from its type on. -/
def flowModMatch (flow : gn_flow) : List UINT1 :=
  hton flow.gn_match.type ++ hton (of13_add_match flow.gn_match.oxm_fields) ++
    (of13_add_oxm_field flow.gn_match.oxm_fields).bytes

/-- What is in `msgbuf` before the instructions are written. -/
def flowModBuf (mod_info : flow_mod_req_info_t) (xid : UINT4) : List UINT1 :=
  flowModHead mod_info xid 56 ++ flowModMatch mod_info.flow ++
    List.replicate (MSG_MAX_LEN - (48 + (flowModMatch mod_info.flow).length)) 0

/-- The message once they have been, with its length in the header. -/
def flowModMsg (mod_info : flow_mod_req_info_t) (xid : UINT4) (total_len : UINT2) (w : Written) : List UINT1 :=
  let length := total_len + UInt16.ofNat (ALIGN_8 w.len.toNat)
  (flowModHead mod_info xid length ++ (((flowModBuf mod_info xid).take total_len.toNat).drop 48 ++ w.buf)).take
    length.toNat

/-- The bytes that are handed to `sendMsgOut`, unless some of them were written behind `msgbuf`. -/
def sendOfp13FlowMod (randUint32 : UINT4) (mod_info : flow_mod_req_info_t) : Option (List UINT1) :=
  let xid := if mod_info.xid ≠ OF13_DEFAULT_XID then mod_info.xid else randUint32
  let total_len := UInt16.ofNat (instructionsAt (of13_add_match mod_info.flow.gn_match.oxm_fields))
  if 48 + (flowModMatch mod_info.flow).length ≤ MSG_MAX_LEN then
    (of13_add_instruction ((flowModBuf mod_info xid).drop total_len.toNat) mod_info.flow.instructions).map
      (flowModMsg mod_info xid total_len)
  else none

/-- The types and the sizes of the records that are written for an action. -/
def gn_action_t.records : gn_action_t → List (UINT2 × ℕ)
  | .output _ _ => [(OFPAT13_OUTPUT, 16)]
  | .copy_ttl_out | .copy_ttl_in | .dec_mpls_ttl | .dec_nw_ttl | .other .. => []
  | .set_field oxm_fields => (setFieldOxms oxm_fields).oxms.map fun o => (OFPAT13_SET_FIELD, o.oxm_field_sz)
  | .mpls_ttl _ => [(OFPAT13_MPLS_TTL, 8)]
  | .push_vlan => [(OFPAT13_PUSH_VLAN, 8)]
  | .pop_vlan => [(OFPAT13_POP_VLAN, 8)]
  | .push_mpls => [(OFPAT13_PUSH_MPLS, 8)]
  | .pop_mpls => [(OFPAT13_POP_MPLS, 8)]
  | .set_queue _ => [(OFPAT13_SET_QUEUE, 8)]
  | .group _ => [(OFPAT13_GROUP, 8)]
  | .set_nw_ttl _ => [(OFPAT13_SET_NW_TTL, 8)]
  | .push_pbb => [(OFPAT13_PUSH_PBB, 8)]
  | .pop_pbb => [(OFPAT13_POP_PBB, 8)]
  | .experimenter _ => [(OFPAT13_EXPERIMENTER, 8)]

/-- Actions and instructions, each with its length behind its type. -/
def recordFramer : Framer UINT1 where
  header := 4
  size := fun bytes => (bytes.getD 2 0).toNat * 256 + (bytes.getD 3 0).toNat
  size_append := by
    intro xs ys hxs
    rw [List.getD_append _ _ _ _ (by omega), List.getD_append _ _ _ _ (by omega)]

/-- The record has the type, and its own length, a multiple of 8. -/
structure IsRecord (type : UINT2) (r : List UINT1) : Prop where
  type : r.take 2 = hton type
  message : recordFramer.Message r
  aligned : 8 ∣ r.length

namespace Instruction

def recordSize (ins : gn_instruction) : ℕ :=
  if ins.type = OFPIT_WRITE_METADATA then 24 else 8 + ((ins.actions.flatMap gn_action_t.records).map Prod.snd).sum

def HasActions (ins : gn_instruction) : Prop := ins.type = OFPIT_APPLY_ACTIONS ∨ ins.type = OFPIT_WRITE_ACTIONS

/-- A record of the instruction, with those of its actions and nothing else behind its header. -/
structure IsRecord (ins : gn_instruction) (r : List UINT1) : Prop where
  record : DCFabric.IsRecord ins.type r
  actions : ins.HasActions → ∃ rs, recordFramer.Frames (r.drop 8) rs [] ∧
    Matches Prod.snd (fun s => DCFabric.IsRecord s.1) (ins.actions.flatMap gn_action_t.records) rs

end Instruction

namespace gn_flow

/-- The instructions that are written for a flow. -/
def written (flow : gn_flow) : List gn_instruction :=
  if flow.instructions = [] then [.apply_actions []] else flow.instructions.filter (·.type ∈ ofp_instruction_type)

def modSize (flow : gn_flow) : ℕ :=
  instructionsAt (of13_add_match flow.gn_match.oxm_fields) + (flow.written.map Instruction.recordSize).sum

end gn_flow

/-- The lengths in a flow-mod message are those of what they stand for, from the actions to the whole. -/
structure FlowModMessage (flow : gn_flow) (sent : List UINT1) : Prop where
  message : ofpFramer.Message sent
  instructions : ∃ rs,
    recordFramer.Frames (sent.drop (instructionsAt (of13_add_match flow.gn_match.oxm_fields))) rs [] ∧
      Matches Instruction.recordSize Instruction.IsRecord flow.written rs

section

variable {type : UINT2} {n : ℕ} {tail : List UINT1}

theorem length_flowModHead (mod_info : flow_mod_req_info_t) (xid : UINT4) (length : UINT2) :
    (flowModHead mod_info xid length).length = 48 := by
  simp [flowModHead, length_hton, Word.size]

theorem hton_length (h : n < 2 ^ 16) : hton (UInt16.ofNat n) = [UInt8.ofNat (n / 256), UInt8.ofNat n] := by
  have hn : (UInt16.ofNat n).toNat = n := by
    rw [UInt16.toNat_ofNat']
    exact Nat.mod_eq_of_lt h
  simp [hton, Word.size, Word.toNat, hn, leBytes]

/-- Where the length is that of the bytes behind the type, they are a record. -/
theorem isRecord_of_header (h : n < 2 ^ 16) (hdvd : 8 ∣ n) (hlen : 4 + tail.length = n) :
    IsRecord type (hton type ++ hton (UInt16.ofNat n) ++ tail) := by
  obtain ⟨a, b, hab⟩ : ∃ a b, hton type = [a, b] := ⟨_, _, rfl⟩
  have hsize : n / 256 % 256 * 256 + n % 256 = n := by omega
  rw [hton_length h, hab]
  refine ⟨hab.symm, ⟨?_, ?_⟩, ?_⟩
  · exact Nat.le_add_left 4 tail.length
  · change (UInt8.ofNat (n / 256)).toNat * 256 + (UInt8.ofNat n).toNat = tail.length + 4
    rw [UInt8.toNat_ofNat', UInt8.toNat_ofNat', hsize]
    omega
  · change 8 ∣ tail.length + 4
    rwa [Nat.add_comm, hlen]

theorem eight_dvd_ALIGN_8 (length : ℕ) : 8 ∣ ALIGN_8 length := Nat.dvd_mul_left 8 _

theorem le_ALIGN_8 (length : ℕ) : length ≤ ALIGN_8 length := by
  rw [ALIGN_8]
  omega

theorem ALIGN_8_lt (length : ℕ) : ALIGN_8 length < length + 8 := by
  rw [ALIGN_8]
  omega

theorem ALIGN_8_of_dvd (h : 8 ∣ n) : ALIGN_8 n = n := by
  rw [ALIGN_8]
  omega

/-- A record that is written in one go, with its padding behind it. -/
theorem encodes_record (h : n < 2 ^ 16) (hdvd : 8 ∣ n) (hle : 4 + tail.length ≤ n) (hpad : n < 4 + tail.length + 8) :
    Encodes 8 Prod.snd (fun s : UINT2 × ℕ => IsRecord s.1) [(type, n)]
      (·.put (hton type ++ hton (UInt16.ofNat n) ++ tail) n) := by
  have hlen : (hton type ++ hton (UInt16.ofNat n) ++ tail).length = 4 + tail.length := by
    rw [List.length_append, List.length_append, length_hton, length_hton]
    rfl
  apply Encodes.put (s := (type, n)) hdvd
  · rw [hlen]
    exact hle
  · rw [hlen]
    exact hpad
  · intro padding hsize
    rw [hlen] at hsize
    rw [List.append_assoc]
    apply isRecord_of_header h hdvd
    rw [List.length_append]
    exact (Nat.add_assoc _ _ _).symm.trans hsize

theorem encodes_fixed (h : n < 2 ^ 16) (hdvd : 8 ∣ n) (hlen : 4 + tail.length = n) :
    Encodes 8 Prod.snd (fun s : UINT2 × ℕ => IsRecord s.1) [(type, n)]
      (·.put (hton type ++ hton (UInt16.ofNat n) ++ tail) n) :=
  encodes_record h hdvd hlen.le (by omega)

theorem length_setMask_le (oxm : gn_oxm_t) (netmask : UINT4) {netmaskv6 : List UINT1} (h : netmaskv6.length = 16)
    (f : OxmField) : (oxm.setMask netmask netmaskv6 f).length ≤ 16 := by
  cases f with
  | metadata =>
    rw [gn_oxm_t.setMask, gn_oxm_t.matchMask]
    · split_ifs
      · rw [OxmField.length_network]
        decide
      · exact Nat.zero_le 16
    · intro h
      cases h
    · intro h
      cases h
  | ipv4_src | ipv4_dst =>
    rw [gn_oxm_t.setMask]
    split_ifs
    · rw [length_hton]
      decide
    · exact Nat.zero_le 16
  | ipv6_src | ipv6_dst =>
    rw [gn_oxm_t.setMask, gn_oxm_t.matchMask]
    · split_ifs
      · exact (length_setNetmaskv6 h).le
      · exact Nat.zero_le 16
    · intro h
      cases h
    · intro h
      cases h
  | _ => exact Nat.zero_le 16

theorem addSetField_length (oxm : gn_oxm_t) (w : SetFieldWriter) (f : OxmField)
    (h : w.netmaskv6.length = 16 ∧ ∀ o ∈ w.oxms, o.data.length ≤ 32) :
    (addSetField oxm w f).netmaskv6.length = 16 ∧ ∀ o ∈ (addSetField oxm w f).oxms, o.data.length ≤ 32 := by
  constructor
  · cases f with
    | metadata =>
      rw [addSetField]
      split_ifs <;> exact h.1
    | ipv4_src | ipv4_dst =>
      rw [addSetField, setIpv4]
      split_ifs <;> exact h.1
    | ipv6_src | ipv6_dst =>
      rw [addSetField, setIpv6]
      split_ifs
      · exact length_setNetmaskv6 h.1
      · exact h.1
    | _ => exact h.1
  · rw [gn_oxm_t.addSetField_emits]
    intro o ho
    rcases List.mem_append.mp ho with ho | ho
    · exact h.2 o ho
    · rw [List.mem_singleton.mp ho, List.length_append, OxmField.length_network]
      have hmask := length_setMask_le oxm w.netmask h.1 f
      have hsize := f.size_le
      omega

theorem setFieldOxms_length (oxm : gn_oxm_t) : ∀ o ∈ (setFieldOxms oxm).oxms, o.data.length ≤ 32 := by
  have hall : (setFieldOxms oxm).netmaskv6.length = 16 ∧ ∀ o ∈ (setFieldOxms oxm).oxms, o.data.length ≤ 32 := by
    apply foldl_invariant (P := fun w : SetFieldWriter => w.netmaskv6.length = 16 ∧ ∀ o ∈ w.oxms, o.data.length ≤ 32)
    · exact fun w f _ h => addSetField_length _ w f h
    · exact ⟨rfl, List.forall_mem_nil _⟩
  exact hall.2

theorem encodes_set_field_action {o : Oxm} (h : o.data.length ≤ 32) : Encodes 8 Prod.snd
    (fun s : UINT2 × ℕ => IsRecord s.1) [(OFPAT13_SET_FIELD, o.oxm_field_sz)] (addSetFieldAction · o) := by
  have hbytes := length_oxm_bytes o
  have hle := le_ALIGN_8 (8 - 4 + 4 + o.data.length)
  have hlt := ALIGN_8_lt (8 - 4 + 4 + o.data.length)
  have hsize : o.oxm_field_sz = ALIGN_8 (8 - 4 + 4 + o.data.length) := rfl
  exact encodes_record (by omega) (eight_dvd_ALIGN_8 _) (by omega) (by omega)

theorem encodes_set_field (oxm_fields : gn_oxm_t) : Encodes 8 Prod.snd (fun s : UINT2 × ℕ => IsRecord s.1)
    ((setFieldOxms oxm_fields).oxms.map fun o => (OFPAT13_SET_FIELD, o.oxm_field_sz))
    fun w => (of13_add_set_field w.rest oxm_fields).map w.advance := by
  rw [List.map_eq_flatMap]
  have hactions : Encodes 8 Prod.snd (fun s : UINT2 × ℕ => IsRecord s.1)
      ((setFieldOxms oxm_fields).oxms.flatMap fun o => [(OFPAT13_SET_FIELD, o.oxm_field_sz)])
      fun w => (setFieldOxms oxm_fields).oxms.foldlM addSetFieldAction w := by
    apply Encodes.foldlM
    · intro o ho
      exact encodes_set_field_action (setFieldOxms_length oxm_fields o ho)
    · intro o _ s hs
      rw [List.mem_singleton.mp hs]
      exact eight_dvd_ALIGN_8 _
  exact hactions.nest

theorem encodes_action (action : gn_action_t) :
    Encodes 8 Prod.snd (fun s : UINT2 × ℕ => IsRecord s.1) action.records (addAction · action) := by
  cases action with
  | set_field oxm_fields => exact encodes_set_field oxm_fields
  | copy_ttl_out | copy_ttl_in | dec_mpls_ttl | dec_nw_ttl | other => exact Encodes.nil 8
  | _ => exact encodes_fixed (by decide) (by decide) rfl

theorem dvd_records (action : gn_action_t) : ∀ s ∈ action.records, 8 ∣ s.2 := by
  cases action with
  | set_field oxm_fields =>
    intro s hs
    obtain ⟨o, -, rfl⟩ := List.mem_map.mp hs
    exact eight_dvd_ALIGN_8 _
  | copy_ttl_out | copy_ttl_in | dec_mpls_ttl | dec_nw_ttl | other => exact List.forall_mem_nil _
  | _ => exact List.forall_mem_singleton.mpr (by decide)

theorem dvd_sum_records (actions : List gn_action_t) :
    8 ∣ ((actions.flatMap gn_action_t.records).map Prod.snd).sum := by
  apply List.dvd_sum
  intro n hn
  obtain ⟨s, hs, rfl⟩ := List.mem_map.mp hn
  obtain ⟨action, -, hs⟩ := List.mem_flatMap.mp hs
  exact dvd_records action s hs

theorem encodes_actions (actions : List gn_action_t) : Encodes 8 Prod.snd (fun s : UINT2 × ℕ => IsRecord s.1)
    (actions.flatMap gn_action_t.records) fun w => actions.foldlM addAction w :=
  Encodes.foldlM (fun action _ => encodes_action action) (fun action _ => dvd_records action)

theorem recordSize_of_actions {ins : gn_instruction} (h : ins.HasActions) :
    ins.recordSize = 8 + ((ins.actions.flatMap gn_action_t.records).map Prod.snd).sum := by
  rw [Instruction.recordSize, if_neg]
  rintro hmetadata
  rcases h with h | h
  · exact absurd (h.symm.trans hmetadata) (by decide)
  · exact absurd (h.symm.trans hmetadata) (by decide)

theorem dvd_recordSize (ins : gn_instruction) : 8 ∣ ins.recordSize := by
  rw [Instruction.recordSize]
  split_ifs
  · decide
  · exact (Nat.dvd_refl 8).add (dvd_sum_records _)

/-- An instruction without actions. -/
theorem encodes_plain {ins : gn_instruction} (htype : ins.type = type) (hsize : ins.recordSize = n) (h : n < 2 ^ 16)
    (hlen : 4 + tail.length = n) (hacts : ¬ ins.HasActions) :
    Encodes 8 Instruction.recordSize Instruction.IsRecord [ins]
      (·.put (hton type ++ hton (UInt16.ofNat n) ++ tail) n) := by
  subst hsize
  have hbytes : (hton type ++ hton (UInt16.ofNat ins.recordSize) ++ tail).length = 4 + tail.length := by
    rw [List.length_append, List.length_append, length_hton, length_hton]
    rfl
  apply Encodes.put (dvd_recordSize ins)
  · rw [hbytes]
    exact hlen.le
  · rw [hbytes]
    omega
  · intro padding hpadding
    rw [hbytes] at hpadding
    obtain rfl : padding = [] := List.eq_nil_of_length_eq_zero (by omega)
    rw [List.append_nil]
    refine ⟨?_, fun h => absurd h hacts⟩
    rw [htype]
    exact isRecord_of_header h (dvd_recordSize ins) hlen

/-- The bytes of an instruction with those of its actions. -/
def actionsRecord (type : UINT2) (ins : gn_instruction) (rs : List (List UINT1)) : List UINT1 :=
  hton type ++ hton (UInt16.ofNat ins.recordSize) ++ (List.replicate 4 0 ++ rs.flatten)

theorem length_actionsRecord (ins : gn_instruction) (rs : List (List UINT1)) :
    (actionsRecord type ins rs).length = 8 + rs.flatten.length := by
  rw [actionsRecord, List.length_append, List.length_append, List.length_append, length_hton, length_hton,
    List.length_replicate, ← Nat.add_assoc]
  rfl

theorem Matches.messages {ss : List (UINT2 × ℕ)} {rs : List (List UINT1)}
    (h : Matches Prod.snd (fun s : UINT2 × ℕ => IsRecord s.1) ss rs) : ∀ r ∈ rs, recordFramer.Message r := by
  induction h with
  | nil => exact List.forall_mem_nil _
  | cons hr _ ih => exact List.forall_mem_cons.mpr ⟨hr.2.message, ih⟩

theorem isRecord_actions {ins : gn_instruction} {rs : List (List UINT1)} (htype : ins.type = type)
    (h : ins.HasActions) (hlt : ins.recordSize < 2 ^ 16)
    (hrs : Matches Prod.snd (fun s : UINT2 × ℕ => IsRecord s.1) (ins.actions.flatMap gn_action_t.records) rs) :
    ins.IsRecord (actionsRecord type ins rs) := by
  constructor
  · rw [htype]
    apply isRecord_of_header hlt (dvd_recordSize ins)
    rw [recordSize_of_actions h, ← hrs.length, List.length_append, List.length_replicate]
    omega
  · intro _
    refine ⟨rs, ?_, hrs⟩
    have hdrop : (actionsRecord type ins rs).drop 8 = rs.flatten := rfl
    rw [hdrop]
    exact Framer.Frames.of_messages (by decide) (Matches.messages hrs)

/-- An instruction whose actions are written behind its header. -/
theorem encodes_instruction_actions {ins : gn_instruction} (htype : ins.type = type) (h : ins.HasActions)
    (hknown : type ∈ ofp_instruction_type) : Encodes 8 Instruction.recordSize Instruction.IsRecord
      (if ins.type ∈ ofp_instruction_type then [ins] else []) (addInstructionActions · type ins.actions) := by
  rw [if_pos (htype ▸ hknown)]
  intro w hdvd hlt
  have hsize := recordSize_of_actions h
  simp only [List.map_singleton, List.sum_singleton, addInstructionActions]
  by_cases hhead : 8 ≤ w.rest.length
  · have hrest : (w.rest.drop 8).length = w.rest.length - 8 := List.length_drop
    have hrun := (encodes_actions ins.actions).start (show 8 ∣ (w.rest.drop 8).length by omega) (by omega)
    rw [if_pos hhead, of13_add_action]
    by_cases hroom : ins.recordSize ≤ w.rest.length
    · rw [if_pos (by omega)] at hrun
      rw [if_pos hroom]
      obtain ⟨a, rs, hstep, houtput, harest, hlen, hrs⟩ := hrun
      have hdvda : 8 ∣ rs.flatten.length := hrs.length ▸ dvd_sum_records ins.actions
      have halign : 8 + ALIGN_8 a.len.toNat = ins.recordSize := by
        rw [hlen, ALIGN_8_of_dvd hdvda, hrs.length, hsize]
      have htake : a.buf.take a.len.toNat = rs.flatten := by rw [Written.buf, hlen, houtput, List.take_left]
      have hdrop : a.buf.drop a.len.toNat = w.rest.drop ins.recordSize := by
        rw [Written.buf, hlen, houtput, List.drop_left, harest, List.drop_drop, hrs.length, ← hsize]
      have hr : (actionsRecord type ins rs).length = ins.recordSize := by
        rw [length_actionsRecord, hrs.length, ← hsize]
      simp only [hstep, Option.map_some]
      refine ⟨_, [actionsRecord type ins rs], rfl, ?_, .cons ⟨hr, ?_⟩ .nil⟩
      · apply Written.Writes.single
        · rw [hr]
          exact hroom
        · have hlen8 : 8 + a.len = UInt16.ofNat ins.recordSize := by
            rw [hsize, ← hrs.length, ← hlen, UInt16.ofNat_add, UInt16.ofNat_toNat]
            rfl
          rw [htake, hdrop, halign, hr, UInt16.add_assoc, hlen8, actionsRecord]
          simp only [List.append_assoc]
      · exact isRecord_actions htype h (by omega) hrs
    · rw [if_neg (by omega)] at hrun
      rw [if_neg hroom, hrun]
      rfl
  · rw [if_neg hhead, if_neg (by omega)]

theorem encodes_plain_known {ins : gn_instruction} (htype : ins.type = type) (hsize : ins.recordSize = n)
    (h : n < 2 ^ 16) (hlen : 4 + tail.length = n) (hknown : type ∈ ofp_instruction_type)
    (hacts : type ∉ [OFPIT_APPLY_ACTIONS, OFPIT_WRITE_ACTIONS]) :
    Encodes 8 Instruction.recordSize Instruction.IsRecord (if ins.type ∈ ofp_instruction_type then [ins] else [])
      (·.put (hton type ++ hton (UInt16.ofNat n) ++ tail) n) := by
  subst htype
  rw [if_pos hknown]
  apply encodes_plain rfl hsize h hlen
  rw [Instruction.HasActions]
  simpa only [List.mem_cons, List.not_mem_nil, or_false] using hacts

theorem encodes_instruction (ins : gn_instruction) : Encodes 8 Instruction.recordSize Instruction.IsRecord
    (if ins.type ∈ ofp_instruction_type then [ins] else []) (addInstruction · ins) := by
  cases ins with
  | apply_actions actions =>
    have hknown : OFPIT_APPLY_ACTIONS ∈ ofp_instruction_type := by decide
    exact encodes_instruction_actions rfl (.inl rfl) hknown
  | write_actions actions =>
    have hknown : OFPIT_WRITE_ACTIONS ∈ ofp_instruction_type := by decide
    exact encodes_instruction_actions rfl (.inr rfl) hknown
  | other type unknown =>
    rw [if_neg (show (Instruction.other type unknown).type ∉ ofp_instruction_type from unknown)]
    exact Encodes.nil 8
  | clear_actions | goto_table | write_metadata | meter | experimenter =>
    exact encodes_plain_known rfl rfl (by decide) rfl (by decide) (by decide)

theorem encodes_instructions (instructions : List gn_instruction) :
    Encodes 8 Instruction.recordSize Instruction.IsRecord (instructions.filter (·.type ∈ ofp_instruction_type))
      fun w => instructions.foldlM addInstruction w := by
  have hfilter : instructions.filter (·.type ∈ ofp_instruction_type) =
      instructions.flatMap fun ins => if ins.type ∈ ofp_instruction_type then [ins] else [] := by
    induction instructions with
    | nil => rfl
    | cons ins instructions ih =>
      rw [List.filter_cons, List.flatMap_cons, ih]
      by_cases hknown : ins.type ∈ ofp_instruction_type
      · simp [hknown]
      · simp [hknown]
  rw [hfilter]
  apply Encodes.foldlM
  · exact fun ins _ => encodes_instruction ins
  · exact fun ins _ s _ => dvd_recordSize s

/-- The instruction for a flow that has none is that of an empty list of actions. -/
theorem encodes_empty : Encodes 8 Instruction.recordSize Instruction.IsRecord [.apply_actions []]
    (·.put (hton OFPIT_APPLY_ACTIONS ++ hton (8 : UINT2) ++ List.replicate 4 0) 8) := by
  have hsize : Instruction.recordSize (.apply_actions []) = 8 := rfl
  apply Encodes.put (s := .apply_actions []) (dvd_recordSize _)
  · decide
  · decide
  · intro padding hpadding
    rw [hsize] at hpadding
    obtain rfl : padding = [] := List.eq_nil_of_length_eq_zero (by simpa [hton, Word.size] using hpadding)
    rw [List.append_nil]
    have hrs : Matches Prod.snd (fun s : UINT2 × ℕ => IsRecord s.1)
        ((Instruction.apply_actions []).actions.flatMap gn_action_t.records) [] := .nil
    exact isRecord_actions rfl (.inl rfl) (by decide) hrs

/-- What `of13_add_instruction` writes into a buffer. -/
theorem of13_add_instruction_spec (flow : gn_flow) {buf : List UINT1} (hdvd : 8 ∣ buf.length)
    (hlt : buf.length < 2 ^ 16) :
    if (flow.written.map Instruction.recordSize).sum ≤ buf.length then
      ∃ w rs, of13_add_instruction buf flow.instructions = some w ∧ w.output = rs.flatten ∧
        w.rest = buf.drop rs.flatten.length ∧ w.len.toNat = rs.flatten.length ∧
        Matches Instruction.recordSize Instruction.IsRecord flow.written rs
    else of13_add_instruction buf flow.instructions = none := by
  rw [gn_flow.written]
  cases hins : flow.instructions with
  | nil =>
    rw [if_pos rfl]
    exact encodes_empty.start hdvd hlt
  | cons ins instructions =>
    rw [if_neg (List.cons_ne_nil _ _)]
    exact (encodes_instructions (ins :: instructions)).start hdvd hlt

theorem ofBytes_flowModHead (mod_info : flow_mod_req_info_t) (xid : UINT4) (length : UINT2) (rest : List UINT1) :
    (OfpHeader.ofBytes (flowModHead mod_info xid length ++ rest)).length = length.toNat := by
  have hlt := length.toNat_lt
  have hlength : hton length = [UInt8.ofNat (length.toNat / 256), UInt8.ofNat length.toNat] := by
    rw [← hton_length hlt, UInt16.ofNat_toNat]
  simp only [flowModHead, hlength, List.append_assoc, List.cons_append, List.nil_append, OfpHeader.ofBytes,
    List.getD_cons_succ, List.getD_cons_zero, UInt8.toNat_ofNat']
  omega

theorem instructionsAt_of13_add_match (oxm : gn_oxm_t) : 8 ∣ instructionsAt (of13_add_match oxm) ∧
    52 ≤ instructionsAt (of13_add_match oxm) ∧ instructionsAt (of13_add_match oxm) ≤ 1072 := by
  have hmatch := toNat_of13_add_match oxm
  have hoxm := (oxm_len_le oxm).trans (octets_buf_le oxm)
  have hle := le_ALIGN_8 (of13_add_match oxm).toNat
  have hlt := ALIGN_8_lt (of13_add_match oxm).toNat
  have hdvd := eight_dvd_ALIGN_8 (of13_add_match oxm).toNat
  rw [instructionsAt]
  omega

theorem Instruction.messages {inss : List gn_instruction} {rs : List (List UINT1)}
    (h : Matches Instruction.recordSize Instruction.IsRecord inss rs) : ∀ r ∈ rs, recordFramer.Message r := by
  induction h with
  | nil => exact List.forall_mem_nil _
  | cons hr _ ih => exact List.forall_mem_cons.mpr ⟨hr.2.record.message, ih⟩

theorem length_flowModMatch_le (flow : gn_flow) : 48 + (flowModMatch flow).length ≤ MSG_MAX_LEN := by
  have hbytes := octets_buf_le flow.gn_match.oxm_fields
  rw [← length_oxms_bytes] at hbytes
  have hlen : (flowModMatch flow).length = 4 + (of13_add_oxm_field flow.gn_match.oxm_fields).bytes.length := by
    rw [flowModMatch, List.length_append, List.length_append, length_hton, length_hton]
    rfl
  rw [hlen, MSG_MAX_LEN]
  exact (Nat.add_le_add_left (Nat.add_le_add_left hbytes 4) 48).trans (by decide)

theorem length_flowModBuf (mod_info : flow_mod_req_info_t) (xid : UINT4) :
    (flowModBuf mod_info xid).length = MSG_MAX_LEN := by
  rw [flowModBuf, List.length_append, List.length_append, length_flowModHead, List.length_replicate]
  exact Nat.add_sub_cancel' (length_flowModMatch_le _)

section

variable {mod_info : flow_mod_req_info_t} {xid : UINT4} {total_len : UINT2} {w : Written}
  {rs : List (List UINT1)}

/-- The message, where the instructions have been written at `total_len`. -/
theorem flowModMessage_of_written (hdvd : 8 ∣ total_len.toNat) (hge : 52 ≤ total_len.toNat)
    (hat : total_len.toNat = instructionsAt (of13_add_match mod_info.flow.gn_match.oxm_fields))
    (hrs : Matches Instruction.recordSize Instruction.IsRecord mod_info.flow.written rs)
    (houtput : w.output = rs.flatten)
    (hlen : w.len.toNat = rs.flatten.length) (hle : total_len.toNat + rs.flatten.length ≤ MSG_MAX_LEN) :
    FlowModMessage mod_info.flow (flowModMsg mod_info xid total_len w) := by
  have hdvdrs : 8 ∣ rs.flatten.length := by
    rw [hrs.length]
    apply List.dvd_sum
    intro n hn
    obtain ⟨ins, -, rfl⟩ := List.mem_map.mp hn
    exact dvd_recordSize ins
  have hlength : (total_len + UInt16.ofNat (ALIGN_8 w.len.toNat)).toNat = total_len.toNat + rs.flatten.length := by
    rw [hlen, ALIGN_8_of_dvd hdvdrs, UInt16.toNat_add, UInt16.toNat_ofNat', Nat.add_mod_mod]
    exact Nat.mod_eq_of_lt (hle.trans_lt (by decide))
  generalize hmsglen : total_len + UInt16.ofNat (ALIGN_8 w.len.toNat) = length at hlength
  have hlen48 : (flowModHead mod_info xid length ++ ((flowModBuf mod_info xid).take total_len.toNat).drop 48).length =
      total_len.toNat := by
    rw [List.length_append, length_flowModHead, List.length_drop, List.length_take, length_flowModBuf]
    omega
  have hmsg : flowModMsg mod_info xid total_len w =
      (flowModHead mod_info xid length ++ ((flowModBuf mod_info xid).take total_len.toNat).drop 48) ++ rs.flatten := by
    have hall : length.toNat =
        ((flowModHead mod_info xid length ++ ((flowModBuf mod_info xid).take total_len.toNat).drop 48) ++
          rs.flatten).length := by
      rw [List.length_append, hlen48, hlength]
    simp only [flowModMsg, hmsglen]
    rw [hall, Written.buf, houtput, ← List.append_assoc, ← List.append_assoc, List.take_left]
  rw [hmsg]
  constructor
  · constructor
    · rw [List.length_append, hlen48]
      exact (Nat.le_trans (by decide) hge).trans (Nat.le_add_right _ _)
    · change (OfpHeader.ofBytes _).length = _
      rw [List.append_assoc, ofBytes_flowModHead, hlength, ← List.append_assoc, List.length_append, hlen48]
  · refine ⟨rs, ?_, hrs⟩
    rw [← hat, List.drop_left' hlen48]
    exact Framer.Frames.of_messages (by decide) (Instruction.messages hrs)

end

/-- The message is sent as it is meant to be, or some of it is written behind the buffer. -/
theorem sendOfp13FlowMod_spec (randUint32 : UINT4) (mod_info : flow_mod_req_info_t) :
    if mod_info.flow.modSize ≤ MSG_MAX_LEN then
      ∃ sent, sendOfp13FlowMod randUint32 mod_info = some sent ∧ FlowModMessage mod_info.flow sent
    else sendOfp13FlowMod randUint32 mod_info = none := by
  obtain ⟨hdvd, hge, hle⟩ := instructionsAt_of13_add_match mod_info.flow.gn_match.oxm_fields
  have hat : (UInt16.ofNat (instructionsAt (of13_add_match mod_info.flow.gn_match.oxm_fields))).toNat =
      instructionsAt (of13_add_match mod_info.flow.gn_match.oxm_fields) := by
    rw [UInt16.toNat_ofNat']
    exact Nat.mod_eq_of_lt (by omega)
  simp only [gn_flow.modSize, sendOfp13FlowMod, if_pos (length_flowModMatch_le mod_info.flow)]
  generalize (if mod_info.xid ≠ OF13_DEFAULT_XID then mod_info.xid else randUint32) = xid
  generalize UInt16.ofNat (instructionsAt (of13_add_match mod_info.flow.gn_match.oxm_fields)) = total_len at hat
  have hbuf : ((flowModBuf mod_info xid).drop total_len.toNat).length = MSG_MAX_LEN - total_len.toNat := by
    rw [List.length_drop, length_flowModBuf]
  have hmax : MSG_MAX_LEN = 10240 := rfl
  have hspec := of13_add_instruction_spec mod_info.flow
    (show 8 ∣ ((flowModBuf mod_info xid).drop total_len.toNat).length by omega) (by omega)
  rw [hbuf] at hspec
  by_cases hroom : (mod_info.flow.written.map Instruction.recordSize).sum ≤ MSG_MAX_LEN - total_len.toNat
  · rw [if_pos hroom] at hspec
    rw [if_pos (by omega)]
    obtain ⟨w, rs, hw, houtput, -, hlen, hrs⟩ := hspec
    refine ⟨flowModMsg mod_info xid total_len w, ?_, ?_⟩
    · rw [hw, Option.map_some]
    · apply flowModMessage_of_written (by omega) (by omega) hat hrs houtput hlen
      rw [hrs.length]
      omega
  · rw [if_neg hroom] at hspec
    rw [if_neg (by omega), hspec, Option.map_none]

theorem sendOfp13FlowMod_none {randUint32 : UINT4} {mod_info : flow_mod_req_info_t}
    (h : MSG_MAX_LEN < mod_info.flow.modSize) : sendOfp13FlowMod randUint32 mod_info = none := by
  have hspec := sendOfp13FlowMod_spec randUint32 mod_info
  rwa [if_neg (Nat.not_le.mpr h)] at hspec

theorem flow_mod_sent_iff (randUint32 : UINT4) (mod_info : flow_mod_req_info_t) :
    (∃ sent, sendOfp13FlowMod randUint32 mod_info = some sent ∧ FlowModMessage mod_info.flow sent) ↔
      mod_info.flow.modSize ≤ MSG_MAX_LEN := by
  constructor
  · rintro ⟨sent, hsent, -⟩
    by_contra hmany
    rw [sendOfp13FlowMod_none (Nat.not_le.mp hmany)] at hsent
    cases hsent
  · intro hroom
    have hspec := sendOfp13FlowMod_spec randUint32 mod_info
    rwa [if_pos hroom] at hspec

/-- The flow sends packets to one port after the other. -/
def floodPorts (ports : ℕ) : gn_flow where
  uuid := []
  create_time := 0
  table_id := 0
  idle_timeout := 0
  hard_timeout := 0
  priority := 0
  gn_match := ⟨OFPMT_OXM, CFlowCache.emptyOxm⟩
  instructions := [.apply_actions ((List.range ports).map fun port => .output (UInt32.ofNat (port + 1)) 0)]

def addFlood (ports : ℕ) : flow_mod_req_info_t :=
  ⟨OF13_DEFAULT_XID, 0xffffffff, 0xffffffff, 0xffffffff, 0, 1, floodPorts ports⟩

/-- 640 outputs do not fit the buffer any more. -/
theorem addFlood_not_sent : ¬ ∀ (randUint32 : UINT4) (mod_info : flow_mod_req_info_t),
    ∃ sent, sendOfp13FlowMod randUint32 mod_info = some sent ∧ FlowModMessage mod_info.flow sent := by
  intro h
  obtain ⟨sent, hsent, -⟩ := h 7 (addFlood 640)
  have hmany : MSG_MAX_LEN < (addFlood 640).flow.modSize := by decide +kernel
  rw [sendOfp13FlowMod_none hmany] at hsent
  cases hsent

end

end DCFabric
