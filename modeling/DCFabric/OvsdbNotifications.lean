import DCFabric.FabricSwitches
import DCFabric.JsonWalks

namespace DCFabric

open JsonWalks JsonWalks.Json JsonWalks.Step JsonWalks.Field

def jsonText (s : String) : List UINT1 := s.toList.map (UInt8.ofNat ·.toNat)

def INTERNAL_BR : List UINT1 := jsonText "br-int"

/-- `memcpy` of a text into an array of `n` bytes, which leaves out its terminator. -/
def memcpyText (n : ℕ) (text : List UINT1) : Except JsonFault (List UINT1) :=
  if text.length ≤ n then .ok text else .error .overflow

/-- `strcpy` into an array of `n` bytes. -/
def strcpyText (n : ℕ) (text : List UINT1) : Except JsonFault (List UINT1) :=
  if text.length < n then .ok text else .error .overflow

/-- `dpid` is the text that `string2Uint8` parses. -/
structure ovs_bridge_t where
  name : List UINT1
  uuid : List UINT1
  dpid : Option (List UINT1)
deriving DecidableEq

/-- What the handlers store and send, in order. -/
inductive OvsdbRequest
  | clearBridges
  | saveBridge (bridge : ovs_bridge_t)
  | setController (uuid : List UINT1)
  | setFailmodAndOfver (brUuid : List UINT1) (ofproto : UINT1)
  | addPort (uuid name : List UINT1)
  | addTunnel (bridge : ovs_bridge_t)
  | addBridge (name uuid : List UINT1) (ofproto : UINT1)
  | clearQosInPortTable (port_uuid : List UINT1)
  | clearQosInQosTable
  | clearQueueInQueueTable
deriving DecidableEq

namespace CQosQueue

/-- The conditions on the argument of the handlers of the queue and QoS tables. -/
def rowFields : List Field :=
  [ptr [], ptr [child], ptr [child, child], ptr [child, child, child], ptr [child, child, child, child],
    ptr [child, child, child, child, child]]

/-- The conditions on the label `external_ids`. -/
def idsFields : List Field :=
  [ptr [], ptr [child], ptr [child, child], ptr [child, child, next], ptr [child, child, next, child],
    ptr [child, child, next, child, next]]

/-- The conditions on `port_json` and `id_json`. -/
def pairFields : List Field := [ptr [], ptr [next], text [next]]

/-- The conditions on `sw_json` before `sw_json->next->text` is read. -/
def swFields : List Field := [ptr [], text []]

/-- The texts `setQueueUuid` is called with, before `atoi` and `dpidStr2Uint8`. -/
structure QueueUuid where
  port_no : Option (List UINT1)
  queue_id : Option (List UINT1)
  sw_dpid : Option (List UINT1)
  queue_uuid : Option (List UINT1)
deriving DecidableEq

/-- `none` stands for the returns of `BNC_ERR` before `setQueueUuid`. -/
def notifyReceviceQueueUuid (find : Json → List UINT1 → Json) (queue : Json) :
    Except JsonFault (Option QueueUuid) := do
  if ¬(← present queue rowFields) then return none
  let queue_json := find (← queue.follow [child, child, child, child, child]) (jsonText "external_ids")
  if ¬(← present queue_json idsFields) then return none
  let port_json ← queue_json.follow [child, child, next, child, child]
  if ¬(← present port_json pairFields) then return none
  let id_json ← queue_json.follow [child, child, next, child, next, child]
  if ¬(← present id_json pairFields) then return none
  if ¬(← present queue_json [ptr [child, child, next, child, next, next]]) then return none
  let sw_json ← queue_json.follow [child, child, next, child, next, next, child]
  if ¬(← present sw_json swFields) then return none
  if ¬(← present sw_json [text [next]]) then return none
  let port_no ← (← port_json.follow [next]).text
  let queue_id ← (← id_json.follow [next]).text
  let sw_dpid ← (← sw_json.follow [next]).text
  let queue_uuid ← (← queue.follow [child, child]).text
  return some { port_no, queue_id, sw_dpid, queue_uuid }

/-- The texts `setQosUuid` is called with. -/
structure QosUuid where
  port_no : Option (List UINT1)
  sw_dpid : Option (List UINT1)
  qos_uuid : Option (List UINT1)
deriving DecidableEq

def notifyReceviceQosUuid (find : Json → List UINT1 → Json) (qos : Json) : Except JsonFault (Option QosUuid) := do
  if ¬(← present qos rowFields) then return none
  let qos_json := find (← qos.follow [child, child, child, child, child]) (jsonText "external_ids")
  if ¬(← present qos_json idsFields) then return none
  let port_json ← qos_json.follow [child, child, next, child, child]
  if ¬(← present port_json pairFields) then return none
  let sw_json ← qos_json.follow [child, child, next, child, next, child]
  if ¬(← present sw_json swFields) then return none
  if ¬(← present sw_json [text [next]]) then return none
  let port_no ← (← port_json.follow [next]).text
  let sw_dpid ← (← sw_json.follow [next]).text
  let qos_uuid ← (← qos.follow [child, child]).text
  return some { port_no, sw_dpid, qos_uuid }

variable {find : Json → List UINT1 → Json} {p sw : Json} {fields : List Field} {path : List Step}

/-- Every pointer that `fields` goes through is compared before it is followed. -/
theorem rowFields_guarded : Guarded [] rowFields := by decide

theorem idsFields_guarded : Guarded [] idsFields := by decide

theorem pairFields_guarded : Guarded [] pairFields := by decide

theorem swFields_guarded : Guarded [] swFields := by decide

/-- The text of the second sibling is read without a look at the pointer to it. -/
theorem runs_second_text {α : Type} {d : α} {k : Except JsonFault α} (hk : Present sw [ptr [next], text [next]] → Runs k) :
    Runs (do
      if ¬(← present sw swFields) then return d
      if ¬(← present sw [text [next]]) then return d
      k) ↔ (Present sw swFields → sw.sub [next] ≠ .null) := by
  apply (runs_guarded swFields_guarded).trans
  apply imp_congr_right
  intro hsw
  have hfollow : sw.follow [next] = .ok (sw.sub [next]) := hsw.follow_last (by decide) (by decide)
  by_cases hnext : sw.sub [next] = .null
  · rw [hnext] at hfollow
    rw [present_text_null hfollow]
    exact iff_of_false (not_runs_error _) (not_not.mpr hnext)
  · refine iff_of_true ?_ hnext
    have hguard : ∀ f ∈ [ptr [next]], f.present sw := by simpa [Field.present] using hnext
    apply (runs_ite_present hguard (by decide)).mpr
    intro htext
    exact hk (List.forall_mem_cons.mpr ⟨by simpa using hguard, htext⟩)

/-- Where `queue` goes through all the checks, the third entry of `external_ids` has a second text. -/
def ReadsQueue (find : Json → List UINT1 → Json) (queue : Json) : Prop :=
  Present queue rowFields →
    let ids := find (queue.sub [child, child, child, child, child]) (jsonText "external_ids")
    Present ids idsFields → Present (ids.sub [child, child, next, child, child]) pairFields →
      Present (ids.sub [child, child, next, child, next, child]) pairFields →
        Present ids [ptr [child, child, next, child, next, next]] →
          let sw := ids.sub [child, child, next, child, next, next, child]
          Present sw swFields → sw.sub [next] ≠ .null

theorem notifyReceviceQueueUuid_runs {queue : Json} :
    Runs (notifyReceviceQueueUuid find queue) ↔ ReadsQueue find queue := by
  rw [notifyReceviceQueueUuid]
  apply (runs_guarded rowFields_guarded).trans
  apply imp_congr_right
  intro hrow
  rw [hrow.follow (by decide)]
  apply (runs_guarded idsFields_guarded).trans
  apply imp_congr_right
  intro hids
  rw [hids.follow_last (by decide) (by decide)]
  apply (runs_guarded pairFields_guarded).trans
  apply imp_congr_right
  intro hport
  rw [hids.follow_last (by decide) (by decide)]
  apply (runs_guarded pairFields_guarded).trans
  apply imp_congr_right
  intro hid
  apply (runs_ite_present (fun f (hf : f ∈ idsFields) => hids f hf) (by decide)).trans
  apply imp_congr_right
  intro hthird
  rw [hthird.follow_last (by decide) (by decide)]
  apply runs_second_text
  intro hsw
  apply (runs_read hport (by decide)).mpr
  apply (runs_read hid (by decide)).mpr
  apply (runs_read hsw (by decide)).mpr
  apply (runs_read hrow (by decide)).mpr
  exact runs_pure _

/-- Where `qos` goes through all the checks, the second entry of `external_ids` has a second text. -/
def ReadsQos (find : Json → List UINT1 → Json) (qos : Json) : Prop :=
  Present qos rowFields →
    let ids := find (qos.sub [child, child, child, child, child]) (jsonText "external_ids")
    Present ids idsFields → Present (ids.sub [child, child, next, child, child]) pairFields →
      let sw := ids.sub [child, child, next, child, next, child]
      Present sw swFields → sw.sub [next] ≠ .null

theorem notifyReceviceQosUuid_runs {qos : Json} : Runs (notifyReceviceQosUuid find qos) ↔ ReadsQos find qos := by
  rw [notifyReceviceQosUuid]
  apply (runs_guarded rowFields_guarded).trans
  apply imp_congr_right
  intro hrow
  rw [hrow.follow (by decide)]
  apply (runs_guarded idsFields_guarded).trans
  apply imp_congr_right
  intro hids
  rw [hids.follow_last (by decide) (by decide)]
  apply (runs_guarded pairFields_guarded).trans
  apply imp_congr_right
  intro hport
  rw [hids.follow_last (by decide) (by decide)]
  apply runs_second_text
  intro hsw
  apply (runs_read hport (by decide)).mpr
  apply (runs_read hsw (by decide)).mpr
  apply (runs_read hrow (by decide)).mpr
  exact runs_pure _

/-- The conditions on `bridge` and on the label `rows`. -/
def listFields : List Field := [ptr [], ptr [child], ptr [child, child]]

/-- The conditions on the label `ports`. -/
def portsFields : List Field :=
  [ptr [], ptr [child], ptr [child, child], ptr [child, child, next], ptr [child, child, next, child]]

/-- The body of the loop of `notifyReceiveSearchBridgeUuid`. -/
def clearPort (sent : List OvsdbRequest) (port : Json) : Except JsonFault (List OvsdbRequest) := do
  if ¬(← present port [ptr [child], text [child]]) then return sent
  if (← (← port.follow [child]).text) ≠ some (jsonText "uuid") then return sent
  if ¬(← present port [text [child, next]]) then return sent
  let port_uuid ← strcpyText 128 ((← (← port.follow [child, next]).text).getD [])
  return sent ++ [.clearQosInPortTable port_uuid]

def notifyReceiveSearchBridgeUuid (find : Json → List UINT1 → Json) (bridge : Json) :
    Except JsonFault (Option (List OvsdbRequest)) := do
  if ¬(← present bridge listFields) then return none
  let row := find (← bridge.follow [child, child]) (jsonText "rows")
  if ¬(← present row listFields) then return none
  let ports := find (← row.follow [child, child]) (jsonText "ports")
  if ¬(← present ports portsFields) then return none
  let sent ← (← ports.follow [child, child, next, child]).foldSiblings clearPort []
  return some (sent ++ [.clearQosInQosTable, .clearQueueInQueueTable])

/-- An entry of `ports` that begins with the text `uuid` has a second element, whose text is shorter than `port_uuid`. -/
def ClearsPort (port : Json) : Prop :=
  Present port [ptr [child], text [child]] → (port.sub [child]).label = some (jsonText "uuid") →
    port.sub [child, next] ≠ .null ∧ ∀ uuid, (port.sub [child, next]).label = some uuid → uuid.length < 128

theorem strcpyText_runs {n : ℕ} {text : List UINT1} : Runs (strcpyText n text) ↔ text.length < n := by
  rw [strcpyText]
  split_ifs with h
  · exact iff_of_true (runs_ok text) h
  · exact iff_of_false (not_runs_error _) h

theorem clearPort_runs {port : Json} (sent : List OvsdbRequest) (hport : port ≠ .null) :
    Runs (clearPort sent port) ↔ ClearsPort port := by
  have hself : ∀ f ∈ [ptr []], f.present port := by simpa using Field.present_nil.mpr hport
  rw [clearPort]
  apply (runs_ite_present hself (by decide)).trans
  apply imp_congr_right
  intro hfirst
  apply (runs_read hfirst (by decide)).trans
  apply runs_ite.trans
  rw [not_not]
  apply imp_congr_right
  intro _
  have hsecond : port.follow [child, next] = .ok (port.sub [child, next]) :=
    hfirst.follow_last (by decide) (by decide)
  by_cases hnext : port.sub [child, next] = .null
  · rw [hnext] at hsecond
    rw [present_text_null hsecond]
    exact iff_of_false (not_runs_error _) (fun h => h.1 hnext)
  · have hguard : ∀ f ∈ [ptr [child, next]], f.present port := by simpa [Field.present] using hnext
    apply (runs_ite_present hguard (by decide)).trans
    have hread : ∀ k : Option (List UINT1) → Except JsonFault (List OvsdbRequest), Runs
        (port.follow [child, next] >>= fun q => q.text >>= k) ↔ Runs (k (port.sub [child, next]).label) :=
      fun k => runs_read hguard (by decide)
    constructor
    · intro h
      refine ⟨hnext, fun uuid huuid => ?_⟩
      have htext : Present port [text [child, next]] := by simp [Present, Field.present, huuid]
      have hcopy := (hread _).mp (h htext)
      rw [huuid] at hcopy
      exact strcpyText_runs.mp ((runs_seq fun _ => runs_pure _).mp hcopy)
    · rintro ⟨-, hfits⟩ htext
      obtain ⟨uuid, huuid⟩ := htext.label_eq (by decide : text [child, next] ∈ [text [child, next]])
      apply (hread _).mpr
      rw [huuid]
      exact (runs_seq fun _ => runs_pure _).mpr (strcpyText_runs.mpr (hfits uuid huuid))

def ClearsPorts (find : Json → List UINT1 → Json) (bridge : Json) : Prop :=
  Present bridge listFields →
    let row := find (bridge.sub [child, child]) (jsonText "rows")
    Present row listFields →
      let ports := find (row.sub [child, child]) (jsonText "ports")
      Present ports portsFields → ∀ port ∈ (ports.sub [child, child, next, child]).siblings, ClearsPort port

theorem notifyReceiveSearchBridgeUuid_runs {bridge : Json} :
    Runs (notifyReceiveSearchBridgeUuid find bridge) ↔ ClearsPorts find bridge := by
  rw [notifyReceiveSearchBridgeUuid]
  apply (runs_guarded (by decide)).trans
  apply imp_congr_right
  intro hbridge
  rw [hbridge.follow (by decide)]
  apply (runs_guarded (by decide)).trans
  apply imp_congr_right
  intro hrow
  rw [hrow.follow (by decide)]
  apply (runs_guarded (by decide)).trans
  apply imp_congr_right
  intro hports
  rw [hports.follow (by decide)]
  apply (runs_seq fun _ => runs_pure _).trans
  exact runs_foldSiblings (C := ClearsPort) (fun sent port hport => clearPort_runs sent hport) [] _

end CQosQueue

namespace COvsdbMgr

open CQosQueue FabricSwitches

/-- `datapath_id` in an update: the text of the label itself. -/
def updatedDpid (find : Json → List UINT1 → Json) (row : Json) : Except JsonFault (Option (List UINT1)) := do
  let br_dpid := find row (jsonText "datapath_id")
  if ¬(← present br_dpid [ptr []]) then return none
  br_dpid.text

/-- Whether `setController` is called for the controllers of a row. -/
def lacksController (find : Json → List UINT1 → Json) (row : Json) : Except JsonFault Bool := do
  let br_ctrl := find row (jsonText "controller")
  if ¬(← present br_ctrl [ptr [], ptr [child], ptr [child, child], text [child, child]]) then return false
  return (← (← br_ctrl.follow [child, child]).text) ≠ some (jsonText "uuid")

/-- What an update of the table `Bridge` makes `process` do. -/
def updateBridge (find : Json → List UINT1 → Json) (br : Json) : Except JsonFault (List OvsdbRequest) := do
  if ¬(← present br [ptr [], ptr [child], ptr [child, child], text [child, child]]) then return []
  let uuid ← memcpyText 64 ((← (← br.follow [child, child]).text).getD [])
  let (dpid, ctrl) ←
    if ← present br [ptr [child, child, child], ptr [child, child, child, child],
        ptr [child, child, child, child, child]] then do
      let row ← br.follow [child, child, child, child, child]
      pure (← updatedDpid find row, ← lacksController find row)
    else pure (none, false)
  let bridge : ovs_bridge_t := { name := INTERNAL_BR, uuid, dpid }
  return (if ctrl then [.setController uuid] else []) ++
    [.saveBridge bridge, .addPort uuid INTERNAL_BR, .addTunnel bridge]

/-- The tables of an update. An update of `Bridge` ends `process`. -/
def updateTables (find : Json → List UINT1 → Json) (updates : Json) :
    Except JsonFault (Option (List OvsdbRequest)) := do
  let br := find updates (jsonText "Bridge")
  if br ≠ .null then return some (← updateBridge find br)
  let queue := find updates (jsonText "Queue")
  if queue ≠ .null then let _ ← notifyReceviceQueueUuid find queue
  -- `queue` is null by now: it was not found, or `json_free_value` has reset it.
  if find updates (jsonText "QoS") ≠ .null then let _ ← notifyReceviceQosUuid find .null
  return none

/-- The first block of `process` on the document `root`. `none` stands for going on to the second block. -/
def processUpdate (find : Json → List UINT1 → Json) (root : Json) : Except JsonFault (Option (List OvsdbRequest)) := do
  let method := find root (jsonText "method")
  if ¬(← present method [ptr [], ptr [child], text [child]]) then return none
  let name ← (← method.follow [child]).text
  if ¬(jsonText "update").isPrefixOf (name.getD []) then return none
  let id := find root (jsonText "id")
  if ¬(← present id [ptr [], ptr [child]]) then return none
  if (← (← id.follow [child]).type) ≠ .null then return none
  let params := find root (jsonText "params")
  if ¬(← present params [ptr [], ptr [child], ptr [child, child], ptr [child, child, next]]) then return none
  updateTables find (← params.follow [child, child, next])

/-- `name` of a row, copied into an array of zeros. -/
def copyName (find : Json → List UINT1 → Json) (row : Json) : Except JsonFault (List UINT1) := do
  let br_name := find row (jsonText "name")
  if ¬(← present br_name [ptr [], ptr [child], text [child]]) then return []
  memcpyText 16 ((← (← br_name.follow [child]).text).getD [])

/-- `datapath_id` of a row: the text of the label's child. -/
def storedDpid (find : Json → List UINT1 → Json) (row : Json) : Except JsonFault (Option (List UINT1)) := do
  let br_dpid := find row (jsonText "datapath_id")
  if ¬(← present br_dpid [ptr [], ptr [child], text [child]]) then return none
  (← br_dpid.follow [child]).text

/-- The loop body over the ports of a bridge. -/
def clearQos (sent : List OvsdbRequest) (br_p : Json) : Except JsonFault (List OvsdbRequest) := do
  if ¬(← present br_p [ptr [child], ptr [child, next], text [child, next]]) then
    return sent ++ [.clearQosInQosTable, .clearQueueInQueueTable]
  let port_uuid ← (← br_p.follow [child, next]).text
  return sent ++ [.clearQosInPortTable (port_uuid.getD []), .clearQosInQosTable, .clearQueueInQueueTable]

def clearPorts (find : Json → List UINT1 → Json) (row : Json) : Except JsonFault (List OvsdbRequest) := do
  let br_port := find row (jsonText "ports")
  if ¬(← present br_port portsFields) then return []
  (← br_port.follow [child, child, next, child]).foldSiblings clearQos []

/-- `setFailmodAndOfver` and `addBridge` are called for two versions only. -/
def forOfVersion (m_ofVersion : UINT1) (request : UINT1 → OvsdbRequest) : List OvsdbRequest :=
  if m_ofVersion = OFP10_VERSION ∨ m_ofVersion = FabricSwitches.OFP13_VERSION then [request m_ofVersion] else []

structure BridgeLoop where
  has_br_int : Bool
  sent : List OvsdbRequest

/-- The loop body of `handleBridgeTable`. -/
def handleBridge (find : Json → List UINT1 → Json) (haveController : Bool) (m_ofVersion : UINT1) (s : BridgeLoop)
    (br_uuid : Json) : Except JsonFault BridgeLoop := do
  if ¬(← present br_uuid [text [], ptr [child], ptr [child, child], ptr [child, child, child]]) then return s
  let uuid ← memcpyText 64 ((← br_uuid.text).getD [])
  let row ← br_uuid.follow [child, child, child]
  let name ← copyName find row
  let dpid ← storedDpid find row
  let ctrl ← lacksController find row
  let ports ← clearPorts find row
  return {
    has_br_int := s.has_br_int || name = INTERNAL_BR
    sent := s.sent ++ [.saveBridge { name, uuid, dpid }] ++
      (if !haveController && ctrl then [.setController uuid] else []) ++
      forOfVersion m_ofVersion (.setFailmodAndOfver uuid) ++ ports }

/-- `client` is what `getClient` finds: the `uuid` of its `getOpenVSwitch`. -/
def handleBridgeTable (find : Json → List UINT1 → Json) (client : Option (List UINT1)) (m_ofVersion : UINT1)
    (result : Json) (haveController : Bool) : Except JsonFault (List OvsdbRequest) := do
  let some sw_uuid := client | return []
  if ¬(← present result [ptr [], ptr [child]]) then return [.clearBridges]
  let br := find (← result.follow [child]) (jsonText "Bridge")
  let s ←
    if ← present br listFields then
      (← br.follow [child, child]).foldSiblings (handleBridge find haveController m_ofVersion) ⟨false, [.clearBridges]⟩
    else pure ⟨false, [.clearBridges]⟩
  return s.sent ++ if s.has_br_int then [] else forOfVersion m_ofVersion (.addBridge INTERNAL_BR sw_uuid)

variable {find : Json → List UINT1 → Json} {row br root : Json}

theorem memcpyText_runs {n : ℕ} {text : List UINT1} : Runs (memcpyText n text) ↔ text.length ≤ n := by
  rw [memcpyText]
  split_ifs with h
  · exact iff_of_true (runs_ok text) h
  · exact iff_of_false (not_runs_error _) h

theorem updatedDpid_runs : Runs (updatedDpid find row) := by
  apply (runs_guarded (by decide)).mpr
  intro hdpid
  exact ⟨_, text_of_ne (hdpid.sub_ne (show Field.ptr [] ∈ _ by decide))⟩

theorem lacksController_runs : Runs (lacksController find row) := by
  apply (runs_guarded (by decide)).mpr
  intro hctrl
  apply (runs_read hctrl (by decide)).mpr
  exact runs_pure _

/-- The text of `br` fits the array `uuid`. -/
def FitsUuid (br : Json) : Prop :=
  Present br [ptr [], ptr [child], ptr [child, child], text [child, child]] →
    ∀ uuid, (br.sub [child, child]).label = some uuid → uuid.length ≤ 64

theorem updateBridge_runs : Runs (updateBridge find br) ↔ FitsUuid br := by
  apply (runs_guarded (by decide)).trans
  apply imp_congr_right
  intro hbr
  obtain ⟨uuid, huuid⟩ := hbr.label_eq (show Field.text [child, child] ∈ _ by decide)
  apply (runs_read hbr (by decide)).trans
  rw [huuid]
  apply (runs_seq ?_).trans
  · apply memcpyText_runs.trans
    simp
  intro uuid
  apply (runs_present hbr (by decide)).mpr
  by_cases hrow : Present br [ptr [child, child, child], ptr [child, child, child, child],
      ptr [child, child, child, child, child]]
  · rw [if_pos (decide_eq_true hrow), hrow.follow (by decide)]
    apply updatedDpid_runs.bind
    intro dpid
    apply lacksController_runs.bind
    intro ctrl
    exact runs_pure _
  · rw [if_neg (by simpa using hrow)]
    exact runs_pure _

theorem updateTables_runs {updates : Json} :
    Runs (updateTables find updates) ↔
      if find updates (jsonText "Bridge") ≠ .null then FitsUuid (find updates (jsonText "Bridge"))
      else find updates (jsonText "Queue") ≠ .null → ReadsQueue find (find updates (jsonText "Queue")) := by
  have hqos : Runs (notifyReceviceQosUuid find .null) := notifyReceviceQosUuid_runs.mpr fun h => by
    exact absurd rfl (h.sub_ne (show Field.ptr [] ∈ _ by decide))
  have hrest : Runs (do
      if find updates (jsonText "QoS") ≠ .null then let _ ← notifyReceviceQosUuid find .null
      return (none : Option (List OvsdbRequest))) := by
    split_ifs
    · exact hqos.bind fun _ => runs_pure _
    · exact runs_pure _
  rw [updateTables]
  by_cases hbr : find updates (jsonText "Bridge") ≠ .null
  · rw [if_pos hbr, if_pos hbr, ← updateBridge_runs]
    exact runs_seq fun _ => runs_pure _
  · rw [if_neg hbr, if_neg hbr]
    by_cases hqueue : find updates (jsonText "Queue") ≠ .null
    · rw [if_pos hqueue, ← notifyReceviceQueueUuid_runs]
      exact (runs_seq fun _ => hrest).trans ⟨fun h _ => h, fun h => h hqueue⟩
    · rw [if_neg hqueue]
      exact iff_of_true hrest fun h => absurd h hqueue

/-- Of an update that `process` takes up, the bridge's text fits, or the queue can be read. -/
def TakesUpdate (find : Json → List UINT1 → Json) (root : Json) : Prop :=
  let method := find root (jsonText "method")
  let id := find root (jsonText "id")
  let params := find root (jsonText "params")
  let updates := params.sub [child, child, next]
  Present method [ptr [], ptr [child], text [child]] →
    (jsonText "update").isPrefixOf ((method.sub [child]).label.getD []) →
      Present id [ptr [], ptr [child]] → (id.sub [child]).kind = some .null →
        Present params [ptr [], ptr [child], ptr [child, child], ptr [child, child, next]] →
          if find updates (jsonText "Bridge") ≠ .null then FitsUuid (find updates (jsonText "Bridge"))
          else find updates (jsonText "Queue") ≠ .null → ReadsQueue find (find updates (jsonText "Queue"))

theorem processUpdate_runs : Runs (processUpdate find root) ↔ TakesUpdate find root := by
  apply (runs_guarded (by decide)).trans
  apply imp_congr_right
  intro hmethod
  apply (runs_read hmethod (by decide)).trans
  apply runs_ite.trans
  rw [not_not]
  apply imp_congr_right
  intro _
  apply (runs_guarded (by decide)).trans
  apply imp_congr_right
  intro hid
  obtain ⟨t, ht⟩ := exists_kind (hid.sub_ne (show Field.ptr [child] ∈ _ by decide))
  apply (runs_type hid (by decide) ht).trans
  apply runs_ite.trans
  rw [ht, not_not, Option.some_inj]
  apply imp_congr_right
  intro _
  apply (runs_guarded (by decide)).trans
  apply imp_congr_right
  intro hparams
  rw [hparams.follow (by decide)]
  exact updateTables_runs

theorem storedDpid_runs : Runs (storedDpid find row) := by
  apply (runs_guarded (by decide)).mpr
  intro hdpid
  rw [hdpid.follow (by decide)]
  exact ⟨_, text_of_ne (hdpid.sub_ne (by decide))⟩

theorem clearPorts_runs : Runs (clearPorts find row) := by
  apply (runs_guarded (by decide)).mpr
  intro hports
  rw [hports.follow (by decide)]
  apply (runs_foldSiblings (C := fun _ => True) ?_ _ _).mpr fun _ _ => trivial
  intro sent br_p hne
  have hself : ∀ f ∈ [ptr []], f.present br_p := by simpa using Field.present_nil.mpr hne
  apply iff_of_true _ trivial
  apply (runs_ite_present hself (by decide)).mpr
  intro hport
  apply (runs_read hport (by decide)).mpr
  exact runs_pure _

theorem copyName_runs : Runs (copyName find row) ↔
    (Present (find row (jsonText "name")) [ptr [], ptr [child], text [child]] →
      ∀ name, ((find row (jsonText "name")).sub [child]).label = some name → name.length ≤ 16) := by
  apply (runs_guarded (by decide)).trans
  apply imp_congr_right
  intro hname
  obtain ⟨name, htext⟩ := hname.label_eq (show Field.text [child] ∈ _ by decide)
  apply (runs_read hname (by decide)).trans
  rw [htext]
  apply memcpyText_runs.trans
  simp

/-- The texts of a row fit the arrays `uuid` and `name`. -/
def FitsBridge (find : Json → List UINT1 → Json) (br_uuid : Json) : Prop :=
  Present br_uuid [text [], ptr [child], ptr [child, child], ptr [child, child, child]] →
    (∀ uuid, br_uuid.label = some uuid → uuid.length ≤ 64) ∧
      let br_name := find (br_uuid.sub [child, child, child]) (jsonText "name")
      Present br_name [ptr [], ptr [child], text [child]] →
        ∀ name, (br_name.sub [child]).label = some name → name.length ≤ 16

theorem handleBridge_runs {haveController : Bool} {m_ofVersion : UINT1} {br_uuid : Json} (s : BridgeLoop)
    (hne : br_uuid ≠ .null) :
    Runs (handleBridge find haveController m_ofVersion s br_uuid) ↔ FitsBridge find br_uuid := by
  have hself : ∀ f ∈ [ptr []], f.present br_uuid := by simpa using Field.present_nil.mpr hne
  apply (runs_ite_present hself (by decide)).trans
  apply imp_congr_right
  intro hbridge
  obtain ⟨uuid, huuid⟩ := hbridge.label_eq (show Field.text [] ∈ _ by decide)
  have htext : br_uuid.label = some uuid := huuid
  rw [text_of_ne hne, htext, ok_bind]
  apply (runs_and (C := Runs (copyName find (br_uuid.sub [child, child, child]))) ?_).trans
  · rw [copyName_runs]
    apply and_congr_left'
    apply memcpyText_runs.trans
    simp
  intro uuid
  rw [hbridge.follow (by decide), ok_bind]
  apply runs_seq
  intro name
  apply storedDpid_runs.bind
  intro dpid
  apply lacksController_runs.bind
  intro ctrl
  apply clearPorts_runs.bind
  exact fun ports => runs_pure _

/-- Every bridge in `result` has texts that fit. -/
def FitsBridges (find : Json → List UINT1 → Json) (result : Json) : Prop :=
  Present result [ptr [], ptr [child]] →
    let br := find (result.sub [child]) (jsonText "Bridge")
    Present br listFields → ∀ br_uuid ∈ (br.sub [child, child]).siblings, FitsBridge find br_uuid

theorem handleBridgeTable_runs {client : Option (List UINT1)} {m_ofVersion : UINT1} {result : Json}
    {haveController : Bool} :
    Runs (handleBridgeTable find client m_ofVersion result haveController) ↔
      (client.isSome → FitsBridges find result) := by
  cases client with
  | none => exact iff_of_true (runs_pure _) (by simp)
  | some sw_uuid =>
    rw [Option.isSome_some, imp_iff_right rfl]
    apply (runs_guarded (by decide)).trans
    apply imp_congr_right
    intro hresult
    rw [hresult.follow (by decide)]
    apply (runs_present (List.forall_mem_nil _) (by decide)).trans
    by_cases hbr : Present (find (result.sub [child]) (jsonText "Bridge")) listFields
    · rw [if_pos (decide_eq_true hbr), hbr.follow (by decide), imp_iff_right hbr, ok_bind]
      apply (runs_seq fun _ => runs_pure _).trans
      exact runs_foldSiblings (C := FitsBridge find) (fun s br_uuid hne => handleBridge_runs s hne) _ _
    · rw [if_neg (by simpa using hbr)]
      exact iff_of_true (runs_pure _) fun h => absurd h hbr

/-- The handlers stay on the tree and inside their arrays exactly at the documents that have these second texts and
lengths, whatever `json_find_first_label` finds. -/
theorem handlers_run_iff (find : Json → List UINT1 → Json) :
    (∀ queue, Runs (notifyReceviceQueueUuid find queue) ↔ ReadsQueue find queue) ∧
      (∀ qos, Runs (notifyReceviceQosUuid find qos) ↔ ReadsQos find qos) ∧
      (∀ bridge, Runs (notifyReceiveSearchBridgeUuid find bridge) ↔ ClearsPorts find bridge) ∧
      (∀ root, Runs (processUpdate find root) ↔ TakesUpdate find root) ∧
      ∀ client m_ofVersion result haveController,
        Runs (handleBridgeTable find client m_ofVersion result haveController) ↔
          (client.isSome → FitsBridges find result) := by
  refine ⟨?_, ?_, ?_, ?_, ?_⟩
  · exact fun queue => notifyReceviceQueueUuid_runs
  · exact fun qos => notifyReceviceQosUuid_runs
  · exact fun bridge => notifyReceiveSearchBridgeUuid_runs
  · exact fun root => processUpdate_runs
  · exact fun client m_ofVersion result haveController => handleBridgeTable_runs

/-- The label with this text among `object` and what follows it. -/
def firstLabel (text_label : List UINT1) : Json → Json
  | .null => .null
  | .node type name rest value =>
    if name = some text_label then .node type name rest value else firstLabel text_label rest

def json_find_first_label (object : Json) (text_label : List UINT1) : Json :=
  firstLabel text_label (object.sub [child])

/-- `text`, and the value `child` where it is a label. -/
def textNode (s : String) (next child : Json) : Json := .node .string (some (jsonText s)) next child

def pairNode (key value : String) (next : Json) : Json :=
  .node .array none next (textNode key (textNode value .null .null) .null)

/-- A row whose third entry of `external_ids` is an array with one text. -/
def rowOfShortEntry : Json :=
  .node .object none .null (textNode "external_ids" .null (.node .array none .null (textNode "map"
    (.node .array none .null (pairNode "port_no" "1" (pairNode "queue_id" "2"
      (.node .array none .null (textNode "dpid" .null .null))))) .null)))

/-- The label `Queue` of an update with that row. -/
def queueOfShortEntry : Json :=
  textNode "Queue" .null (.node .object none .null (textNode "uuid" .null (.node .object none .null
    (textNode "new" .null rowOfShortEntry))))

/-- A result whose row has a text of 65 bytes for its uuid. -/
def resultOfLongUuid : Json :=
  textNode "result" .null (.node .object none .null (textNode "Bridge" .null (.node .object none .null
    (.node .string (some (List.replicate 65 48)) .null (.node .object none .null (textNode "new" .null
      (.node .object none .null .null)))))))

theorem shortEntry_longUuid_not_run :
    ¬Runs (notifyReceviceQueueUuid json_find_first_label queueOfShortEntry) ∧
      ¬Runs (handleBridgeTable json_find_first_label (some []) FabricSwitches.OFP13_VERSION resultOfLongUuid false) := by
  have hqueue : notifyReceviceQueueUuid json_find_first_label queueOfShortEntry = .error .node := by rfl
  have hbridge : handleBridgeTable json_find_first_label (some []) FabricSwitches.OFP13_VERSION resultOfLongUuid
      false = .error .overflow := by rfl
  rw [hqueue, hbridge]
  exact ⟨not_runs_error _, not_runs_error _⟩

end COvsdbMgr

end DCFabric
