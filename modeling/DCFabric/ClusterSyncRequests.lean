import DCFabric.FlowEntryRecover

namespace DCFabric

open TlvStreams

/-- The operations that are synchronised, by the request for each. -/
inductive SyncOper where
  | hostList
  | natIcmpList
  | natHostList
  | addNatHost
  | delNatHost
  | topoLinkList
  | topoLink
  | switchTagList
  | switchTag
  | tagInfo
  | flowEntryList
  | addFlowEntry
  | delFlowEntry
deriving DecidableEq

/-- A recover function: a loop over the TLVs, or one of the two functions without a loop. -/
inductive Recovery where
  | loop {L : Type} (d : Recover L)
  | tagInfo
  | delFlowEntry

namespace SyncOper

def all : List SyncOper :=
  [hostList, natIcmpList, natHostList, addNatHost, delNatHost, topoLinkList, topoLink, switchTagList, switchTag,
    tagInfo, flowEntryList, addFlowEntry, delFlowEntry]

/-- `CLUSTER_OPER_SYNC_*_REQ`. -/
def req : SyncOper → INT4
  | hostList => 0x40
  | natIcmpList => 0x60
  | natHostList => 0x70
  | addNatHost => 0x72
  | delNatHost => 0x74
  | topoLinkList => 0x90
  | topoLink => 0x92
  | switchTagList => 0xA0
  | switchTag => 0xA2
  | tagInfo => 0xB0
  | flowEntryList => 0xC0
  | addFlowEntry => 0xC2
  | delFlowEntry => 0xC4

/-- `CLUSTER_OPER_SYNC_*_RSP`. -/
def rsp : SyncOper → INT4
  | hostList => 0x41
  | natIcmpList => 0x61
  | natHostList => 0x71
  | addNatHost => 0x73
  | delNatHost => 0x75
  | topoLinkList => 0x91
  | topoLink => 0x93
  | switchTagList => 0xA1
  | switchTag => 0xA3
  | tagInfo => 0xB1
  | flowEntryList => 0xC1
  | addFlowEntry => 0xC3
  | delFlowEntry => 0xC5

/-- `CLUSTER_CAUSE_RECOVER_*_FAIL`. -/
def failCause : SyncOper → INT4
  | hostList => 0x40
  | natIcmpList => 0x60
  | natHostList => 0x70
  | addNatHost => 0x71
  | delNatHost => 0x72
  | topoLinkList => 0x90
  | topoLink => 0x91
  | switchTagList => 0xA0
  | switchTag => 0xA1
  | tagInfo => 0xB0
  | flowEntryList => 0xC0
  | addFlowEntry => 0xC1
  | delFlowEntry => 0xC2

def recovery : SyncOper → Recovery
  | hostList => .loop recoverHostList
  | natIcmpList => .loop recoverNatIcmpList
  | natHostList => .loop recoverNatHostList
  | addNatHost => .loop recoverAddNatHost
  | delNatHost => .loop recoverDelNatHost
  | topoLinkList => .loop recoverTopoLinkList
  | topoLink => .loop recoverTopoLink
  | switchTagList => .loop recoverSwitchTagList
  | switchTag => .loop recoverSwitchTag
  | tagInfo => .tagInfo
  | flowEntryList => .loop recoverFlowEntryList
  | addFlowEntry => .loop recoverAddFlowEntry
  | delFlowEntry => .delFlowEntry

end SyncOper

namespace Recovery

def recover (r : Recovery) (m : Memory) (data len : ℕ) (w : ControllerTables) (fuel : ℕ) :
    Option (INT4 × ControllerTables) :=
  match r with
  | loop d => d.recover m data len w fuel
  | tagInfo => some (recoverTagInfo m data len w)
  | delFlowEntry => some (recoverDelFlowEntry m data len w)

/-- The function returns, and every pass of its loop consumes a byte. -/
def Terminates (r : Recovery) (m : Memory) (data len : ℕ) (w : ControllerTables) : Prop :=
  (∃ fuel, (r.recover m data len w fuel).isSome) ∧
    match r with
    | loop d => d.Consumes m data len w
    | tagInfo | delFlowEntry => True

/-- Every type that follows the first TLV has a case of its own. -/
def Understands (r : Recovery) (m : Memory) (data len : ℕ) : Prop :=
  match r with
  | loop d =>
    d.Rejects m data len ∨
      ∀ v ∈ walk m (Decoder.following m data len).1 (Decoder.following m data len).2, v.type ∈ d.types
  | tagInfo | delFlowEntry => True

variable {r : Recovery} {m : Memory} {data len lo hi : ℕ} {w : ControllerTables}

theorem terminates_iff_understands : r.Terminates m data len w ↔ r.Understands m data len := by
  cases r with
  | loop d => exact (and_congr Decoder.terminates_iff Decoder.consumes_iff).trans and_self_iff
  | tagInfo => exact iff_of_true ⟨⟨0, rfl⟩, trivial⟩ trivial
  | delFlowEntry => exact iff_of_true ⟨⟨0, rfl⟩, trivial⟩ trivial

end Recovery

/-- A recover function with a loop goes on for ever where a type has no case. -/
theorem recover_terminates_iff (oper : SyncOper) (m : Memory) (data : ℕ) (len : INT4) (w : ControllerTables) :
    oper.recovery.Terminates m data len.toNatClampNeg w ↔ oper.recovery.Understands m data len.toNatClampNeg :=
  Recovery.terminates_iff_understands

def memoryOf (bytes : List UINT1) : Memory := fun addr => bytes.getD addr 0

theorem stores_memoryOf {bytes : List UINT1} : Stores (memoryOf bytes) 0 bytes := by
  refine List.ext_getElem length_load fun i _ hi => ?_
  simp [load, memoryOf, hi]

/-- A host list with a `HOST_IPV6` after its `HOST_TYPE`. -/
def ipv6Host : List UINT1 := [1, 4, 4, 0, 1, 0, 0, 0, 4, 4, 1, 0, 9]

theorem recover_not_terminates :
    ¬ ∀ (oper : SyncOper) (bytes : List UINT1) (w : ControllerTables),
      oper.recovery.Terminates (memoryOf bytes) 0 bytes.length w := by
  intro h
  have hu := Recovery.terminates_iff_understands.mp (h .hostList ipv6Host .empty)
  rcases hu with hr | hu
  · exact absurd hr (by decide)
  · refine absurd (hu ⟨8, 0x0404, 1⟩ ?_) (by decide)
    have hwalk : walk (memoryOf ipv6Host) 8 5 = _ := walk_cons (by decide)
    exact hwalk ▸ List.mem_cons_self

/-- What `recoverTagInfo` reads: `CBitset::recover` starts with the length before it looks at the TLV's. -/
def tagInfoAccesses (m : Memory) (data len : ℕ) : List Access :=
  if len < 4 then []
  else
    let v := visit m data
    .read data 4 ::
      if len < 4 + v.len ∨ v.type ≠ TAG_INFO_VALUE then []
      else
        let syncLen := loadU32 m (data + 4)
        .value (data + 4) 4 v.len ::
          if CBitset.syncSize syncLen > v.len then [] else [.value (data + 4) (CBitset.syncSize syncLen) v.len]

def delFlowEntryAccesses (m : Memory) (data len : ℕ) : List Access :=
  if len < 4 then []
  else
    let v := visit m data
    .read data 4 ::
      if len < 4 + v.len ∨ v.type ≠ FLOW_ENTRY_SW_DPID then []
      else
        let data := data + 4 + v.len
        let len := len - (4 + v.len)
        let u := visit m data
        (Get.fixed 8).accesses v ++ .read data 4 ::
          if len < 4 + u.len ∨ u.type ≠ FLOW_ENTRY_UUID then [] else (Get.text UUID_LEN).accesses u

namespace Recovery

def Safe (r : Recovery) (m : Memory) (lo hi data len : ℕ) (w : ControllerTables) : Prop :=
  match r with
  | loop d => d.Safe m lo hi data len w
  | tagInfo => ∀ a ∈ tagInfoAccesses m data len, a.Safe lo hi
  | delFlowEntry => ∀ a ∈ delFlowEntryAccesses m data len, a.Safe lo hi

/-- The values the function comes to fit what it copies them to. -/
def AllFit (r : Recovery) (m : Memory) (hi data len : ℕ) : Prop :=
  match r with
  | loop d => d.Rejects m data len ∨ d.AllFit m data len
  | tagInfo =>
    len < 4 ∨ (len < 4 + (visit m data).len ∨ (visit m data).type ≠ TAG_INFO_VALUE) ∨ 4 ≤ (visit m data).len
  | delFlowEntry =>
    len < 4 ∨ (len < 4 + (visit m data).len ∨ (visit m data).type ≠ FLOW_ENTRY_SW_DPID) ∨
      let (data', len') := Decoder.following m data len
      (Get.fixed 8).Fits (visit m data).len ∧ data' + 4 ≤ hi ∧
        ((len' < 4 + (visit m data').len ∨ (visit m data').type ≠ FLOW_ENTRY_UUID) ∨
          (Get.text UUID_LEN).Fits (visit m data').len)

variable {r : Recovery} {m : Memory} {data len lo hi : ℕ} {w : ControllerTables}

theorem tagInfo_safe_iff (hlo : lo ≤ data) (hhi : data + len ≤ hi) :
    tagInfo.Safe m lo hi data len w ↔ tagInfo.AllFit m hi data len := by
  simp only [Safe, AllFit, tagInfoAccesses]
  split_ifs with hlen hbad hsize
  · simp [hlen]
  · refine iff_of_true (List.forall_mem_singleton.mpr ⟨hlo, by omega⟩) (.inr (.inl hbad))
  · simp only [hlen, hbad, false_or, List.forall_mem_cons, List.not_mem_nil, false_imp_iff, implies_true, and_true,
      Access.safe_read, Access.safe_value]
    omega
  · simp only [hlen, hbad, false_or, List.forall_mem_cons, List.not_mem_nil, false_imp_iff, implies_true, and_true,
      Access.safe_read, Access.safe_value]
    omega

theorem delFlowEntry_safe_iff (hlo : lo ≤ data) (hhi : data + len ≤ hi) :
    delFlowEntry.Safe m lo hi data len w ↔ delFlowEntry.AllFit m hi data len := by
  simp only [Safe, AllFit, delFlowEntryAccesses, Decoder.following]
  split_ifs with hlen hbad hbad'
  · simp [hlen]
  · refine iff_of_true (List.forall_mem_singleton.mpr ⟨hlo, by omega⟩) (.inr (.inl hbad))
  · have hfirst : (∀ a ∈ (Get.fixed 8).accesses (visit m data), a.Safe lo hi) ↔ _ :=
      Get.safe_iff hlo (by change data + 4 + _ ≤ hi; omega)
    simp only [hlen, hbad, hbad', false_or, true_or, List.forall_mem_append, hfirst, List.forall_mem_cons,
      List.not_mem_nil, false_imp_iff, implies_true, and_true, Access.safe_read]
    rw [and_iff_right ⟨hlo, by omega⟩]
    exact and_congr_right fun _ => and_iff_right (by omega)
  · have hfirst : (∀ a ∈ (Get.fixed 8).accesses (visit m data), a.Safe lo hi) ↔ _ :=
      Get.safe_iff hlo (by change data + 4 + _ ≤ hi; omega)
    have hsecond : (∀ a ∈ (Get.text UUID_LEN).accesses (visit m (data + 4 + (visit m data).len)), a.Safe lo hi) ↔ _ :=
      Get.safe_iff (by change lo ≤ data + 4 + _; omega) (by change data + 4 + (visit m data).len + 4 + _ ≤ hi; omega)
    simp only [hlen, hbad, hbad', false_or, List.forall_mem_append, hfirst, List.forall_mem_cons, hsecond,
      Access.safe_read]
    rw [and_iff_right ⟨hlo, by omega⟩]
    exact and_congr_right fun _ => and_congr_left fun _ => and_iff_right (by omega)

theorem safe_iff_allFit (hlo : lo ≤ data) (hhi : data + len ≤ hi) :
    r.Safe m lo hi data len w ↔ r.AllFit m hi data len := by
  cases r with
  | loop d => exact Decoder.safe_iff hlo hhi
  | tagInfo => exact tagInfo_safe_iff hlo hhi
  | delFlowEntry => exact delFlowEntry_safe_iff hlo hhi

end Recovery

/-- A received message: `cluster_interface_t` and, in its data, `cluster_sync_req_t`. -/
structure Request where
  m : Memory
  itf : ℕ

namespace Request

variable (q : Request)

def operation : INT4 := Word.ofNat (leNat (load q.m q.itf 4))

def length : INT4 := Word.ofNat (leNat (load q.m (q.itf + 4) 4))

def len : INT4 := Word.ofNat (leNat (load q.m (q.itf + 8) 4))

def data : ℕ := q.itf + 12

/-- The first address after the message. -/
def last : ℕ := q.itf + 8 + q.length.toNatClampNeg

/-- `RETURN_IF_REQUEST_INVALID` lets the message pass. -/
def Valid (oper : SyncOper) : Prop := q.operation = oper.req ∧ ¬ q.length < 4

instance (oper : SyncOper) : Decidable (q.Valid oper) := inferInstanceAs (Decidable (_ ∧ _))

end Request

structure SyncRsp where
  operation : INT4
  cause : INT4
deriving DecidableEq

def CLUSTER_CAUSE_SUCC : INT4 := 0

/-- `processSync*Req`, with the response it sends. -/
def processSyncReq (oper : SyncOper) (q : Request) (w : ControllerTables) (fuel : ℕ) :
    Option (Option SyncRsp × ControllerTables) :=
  if q.Valid oper then
    (oper.recovery.recover q.m q.data q.len.toNatClampNeg w fuel).map fun (ret, w) =>
      (some ⟨oper.rsp, if ret ≠ BNC_OK then oper.failCause else CLUSTER_CAUSE_SUCC⟩, w)
  else some (none, w)

/-- The request is read inside of the message, its body and its values, and written inside of the arrays. -/
structure Request.Safe (q : Request) (oper : SyncOper) (w : ControllerTables) : Prop where
  inner : q.Valid oper → q.len.toInt ≤ q.length.toInt - 4
  recovery : q.Valid oper → oper.recovery.Safe q.m q.itf q.last q.data q.len.toNatClampNeg w

theorem Request.recovery_safe_iff {q : Request} {oper : SyncOper} {w : ControllerTables} (hvalid : q.Valid oper)
    (hinner : q.len.toInt ≤ q.length.toInt - 4) :
    oper.recovery.Safe q.m q.itf q.last q.data q.len.toNatClampNeg w ↔
      oper.recovery.AllFit q.m q.last q.data q.len.toNatClampNeg := by
  have hlength : 4 ≤ q.length.toInt := by
    have h := hvalid.2
    rw [Int32.lt_iff_toInt_lt] at h
    exact Int.not_lt.mp h
  apply Recovery.safe_iff_allFit
  · exact Nat.le_add_right _ _
  · simp only [Request.data, Request.last, Int32.toNatClampNeg]
    omega

/-- No check relates the length of the body to that of the message, nor the length of a value to that of its field. -/
theorem request_safe_iff (oper : SyncOper) (q : Request) (w : ControllerTables) :
    q.Safe oper w ↔ (q.Valid oper → q.len.toInt ≤ q.length.toInt - 4 ∧
      oper.recovery.AllFit q.m q.last q.data q.len.toNatClampNeg) := by
  constructor
  · intro h hvalid
    exact ⟨h.inner hvalid, (Request.recovery_safe_iff hvalid (h.inner hvalid)).mp (h.recovery hvalid)⟩
  · intro h
    refine ⟨fun hvalid => (h hvalid).1, fun hvalid => ?_⟩
    exact (Request.recovery_safe_iff hvalid (h hvalid).1).mpr (h hvalid).2

/-- A host list with a `HOST_TYPE` that has no value. -/
def emptyHostType : List UINT1 := [0x40, 0, 0, 0, 8, 0, 0, 0, 4, 0, 0, 0, 1, 4, 0, 0]

theorem request_not_safe :
    ¬ ∀ (oper : SyncOper) (bytes : List UINT1) (w : ControllerTables), Request.Safe ⟨memoryOf bytes, 0⟩ oper w := by
  intro h
  have hsafe := (h .hostList emptyHostType .empty).recovery (by decide)
  have hfit := (Recovery.safe_iff_allFit (by decide) (by decide)).mp hsafe
  rcases hfit with hr | hfit
  · exact absurd hr (by decide)
  · exact absurd hfit.1 (by decide)

end DCFabric
