import DCFabric.ByteStores
import DCFabric.ListSyncCuts
import DCFabric.RemoteConnections
import DCFabric.WorkQueues

namespace DCFabric

open ByteStores TlvStreams WorkQueues

/-- A call of the synchronisation, of the function that queues it or of the encoder. -/
inductive SyncCall where
  | hostList (sockfd : INT4)
  | natIcmpList (sockfd : INT4)
  | natHostList (sockfd : INT4)
  | addNatHost (snatConn : CSNatConn)
  | delNatHost (snatConn : CSNatConn)
  | topoLinkList (sockfd : INT4)
  | topoLink (neigh : Neighbor)
  | switchTagList (sockfd : INT4)
  | switchTag (dpid : UINT8) (tag : UINT4)
  | tagInfo (sockfd : INT4)
  | flowEntryList (sockfd : INT4)
  | addFlowEntry (dpid : UINT8) (uuid : List UINT1)
  | delFlowEntry (dpid : UINT8) (uuid : List UINT1)

/-- An item of `m_queue`. The members of the union share their bytes. -/
structure SyncData where
  m_operation : INT4
  m_sockfd : INT4
  bytes : Memory

def strncpy (n : ℕ) (str : List UINT1) : List UINT1 := (cstring str ++ List.replicate n 0).take n

namespace SyncData

-- the fields at their offsets in `neighbor_t`, in `CSNatConn` after those of `CRefObj`, and after the casts

def setNeigh (bytes : Memory) (neigh : Neighbor) : Memory :=
  let bytes := storeWord bytes 0 neigh.state.toInt4
  let bytes := storeWord bytes 8 neigh.srcDpid
  let bytes := storeWord bytes 16 neigh.srcPort
  let bytes := storeWord bytes 24 neigh.dstDpid
  let bytes := storeWord bytes 32 neigh.dstPort
  storeWord bytes 40 neigh.weight

def m_neigh (sync : SyncData) : Neighbor where
  state := .ofInt4 (loadWord INT4 sync.bytes 0)
  srcDpid := loadWord UINT8 sync.bytes 8
  srcPort := loadWord UINT4 sync.bytes 16
  dstDpid := loadWord UINT8 sync.bytes 24
  dstPort := loadWord UINT4 sync.bytes 32
  weight := loadWord UINT8 sync.bytes 40

def setSnatConn (bytes : Memory) (snatConn : CSNatConn) : Memory :=
  let bytes := storeWord bytes 17 snatConn.m_proto
  let bytes := storeWord bytes 20 snatConn.m_external_ip
  let bytes := storeWord bytes 24 snatConn.m_snat_ip
  let bytes := storeWord bytes 28 snatConn.m_snat_port
  let bytes := storeWord bytes 32 snatConn.m_internal_ip
  let bytes := storeWord bytes 36 snatConn.m_internal_port
  let bytes := storeWord bytes 38 snatConn.m_internal_mac
  let bytes := storeWord bytes 48 snatConn.m_gateway_dpid
  storeWord bytes 56 snatConn.m_switch_dpid

def m_snatConn (sync : SyncData) : CSNatConn where
  m_proto := loadWord UINT1 sync.bytes 17
  m_external_ip := loadWord UINT4 sync.bytes 20
  m_snat_ip := loadWord UINT4 sync.bytes 24
  m_snat_port := loadWord UINT2 sync.bytes 28
  m_internal_ip := loadWord UINT4 sync.bytes 32
  m_internal_port := loadWord UINT2 sync.bytes 36
  m_internal_mac := loadWord MacAddr sync.bytes 38
  m_gateway_dpid := loadWord UINT8 sync.bytes 48
  m_switch_dpid := loadWord UINT8 sync.bytes 56

def setDpidTag (bytes : Memory) (dpid : UINT8) (tag : UINT4) : Memory := storeWord (storeWord bytes 0 dpid) 8 tag

def setDpidUuid (bytes : Memory) (dpid : UINT8) (uuid : List UINT1) : Memory :=
  let bytes := storeWord bytes 0 dpid
  let bytes := store bytes 8 (strncpy (UUID_LEN - 1) uuid)
  store bytes (8 + UUID_LEN - 1) [0]

def dpid (sync : SyncData) : UINT8 := loadWord UINT8 sync.bytes 0

def tag (sync : SyncData) : UINT4 := loadWord UINT4 sync.bytes 8

def uuid (sync : SyncData) : List UINT1 := cstring (load sync.bytes 8 UUID_LEN)

end SyncData

namespace CClusterSync

variable (stack : Memory)

-- `stack` is what lies where the local `sync` is made

def syncHostList (sockfd : INT4) : SyncData := ⟨SyncOper.hostList.req, sockfd, stack⟩

def syncNatIcmpList (sockfd : INT4) : SyncData := ⟨SyncOper.natIcmpList.req, sockfd, stack⟩

def syncNatHostList (sockfd : INT4) : SyncData := ⟨SyncOper.natHostList.req, sockfd, stack⟩

def syncAddNatHost (snatConn : CSNatConn) : SyncData :=
  ⟨SyncOper.addNatHost.req, -1, SyncData.setSnatConn stack snatConn⟩

def syncDelNatHost (snatConn : CSNatConn) : SyncData :=
  ⟨SyncOper.delNatHost.req, -1, SyncData.setSnatConn stack snatConn⟩

def syncTopoLinkList (sockfd : INT4) : SyncData := ⟨SyncOper.topoLinkList.req, sockfd, stack⟩

def syncTopoLink (neigh : Neighbor) : SyncData := ⟨SyncOper.topoLink.req, -1, SyncData.setNeigh stack neigh⟩

def syncSwitchTagList (sockfd : INT4) : SyncData := ⟨SyncOper.switchTagList.req, sockfd, stack⟩

-- the operation is that of `syncTopoLink`
def syncSwitchTag (dpid : UINT8) (tag : UINT4) : SyncData :=
  ⟨SyncOper.topoLink.req, -1, SyncData.setDpidTag stack dpid tag⟩

def syncTagInfo (sockfd : INT4) : SyncData := ⟨SyncOper.tagInfo.req, sockfd, stack⟩

def syncFlowEntryList (sockfd : INT4) : SyncData := ⟨SyncOper.flowEntryList.req, sockfd, stack⟩

def syncAddFlowEntry (dpid : UINT8) (uuid : List UINT1) : SyncData :=
  ⟨SyncOper.addFlowEntry.req, -1, SyncData.setDpidUuid stack dpid uuid⟩

def syncDelFlowEntry (dpid : UINT8) (uuid : List UINT1) : SyncData :=
  ⟨SyncOper.delFlowEntry.req, -1, SyncData.setDpidUuid stack dpid uuid⟩

end CClusterSync

/-- The operation of a request, as the switch of `syncRoutine` and that of `processMsg` tell it. -/
def SyncOper.ofReq (operation : INT4) : Option SyncOper := SyncOper.all.find? (·.req = operation)

namespace SyncData

/-- The encoder that is called in a case of the switch, with its arguments. -/
def call (sync : SyncData) : SyncOper → SyncCall
  | .hostList => .hostList sync.m_sockfd
  | .natIcmpList => .natIcmpList sync.m_sockfd
  | .natHostList => .natHostList sync.m_sockfd
  | .addNatHost => .addNatHost sync.m_snatConn
  | .delNatHost => .delNatHost sync.m_snatConn
  | .topoLinkList => .topoLinkList sync.m_sockfd
  | .topoLink => .topoLink sync.m_neigh
  | .switchTagList => .switchTagList sync.m_sockfd
  | .switchTag => .switchTag sync.dpid sync.tag
  | .tagInfo => .tagInfo sync.m_sockfd
  | .flowEntryList => .flowEntryList sync.m_sockfd
  | .addFlowEntry => .addFlowEntry sync.dpid sync.uuid
  | .delFlowEntry => .delFlowEntry sync.dpid sync.uuid

def dispatch (sync : SyncData) : Option SyncCall := (SyncOper.ofReq sync.m_operation).map sync.call

end SyncData

namespace SyncCall

def oper : SyncCall → SyncOper
  | hostList _ => .hostList
  | natIcmpList _ => .natIcmpList
  | natHostList _ => .natHostList
  | addNatHost _ => .addNatHost
  | delNatHost _ => .delNatHost
  | topoLinkList _ => .topoLinkList
  | topoLink _ => .topoLink
  | switchTagList _ => .switchTagList
  | switchTag _ _ => .switchTag
  | tagInfo _ => .tagInfo
  | flowEntryList _ => .flowEntryList
  | addFlowEntry _ _ => .addFlowEntry
  | delFlowEntry _ _ => .delFlowEntry

/-- The slave that is meant, every slave for -1. -/
def sockfd : SyncCall → INT4
  | hostList sockfd | natIcmpList sockfd | natHostList sockfd | topoLinkList sockfd | switchTagList sockfd
  | tagInfo sockfd | flowEntryList sockfd => sockfd
  | _ => -1

/-- What the call puts into the queue. -/
def item (stack : Memory) : SyncCall → SyncData
  | hostList sockfd => CClusterSync.syncHostList stack sockfd
  | natIcmpList sockfd => CClusterSync.syncNatIcmpList stack sockfd
  | natHostList sockfd => CClusterSync.syncNatHostList stack sockfd
  | addNatHost snatConn => CClusterSync.syncAddNatHost stack snatConn
  | delNatHost snatConn => CClusterSync.syncDelNatHost stack snatConn
  | topoLinkList sockfd => CClusterSync.syncTopoLinkList stack sockfd
  | topoLink neigh => CClusterSync.syncTopoLink stack neigh
  | switchTagList sockfd => CClusterSync.syncSwitchTagList stack sockfd
  | switchTag dpid tag => CClusterSync.syncSwitchTag stack dpid tag
  | tagInfo sockfd => CClusterSync.syncTagInfo stack sockfd
  | flowEntryList sockfd => CClusterSync.syncFlowEntryList stack sockfd
  | addFlowEntry dpid uuid => CClusterSync.syncAddFlowEntry stack dpid uuid
  | delFlowEntry dpid uuid => CClusterSync.syncDelFlowEntry stack dpid uuid

end SyncCall

/-- The controller that synchronises, with its switches in the order of `CSwitchFlowsMap`. -/
structure SyncMaster where
  tables : ControllerTables
  dpids : List UINT8
  ip : UINT4
  controllers : List cluster_controller_t

namespace SyncMaster

/-- The connections `sendReq` sends to. -/
def audience (master : SyncMaster) (sockfd : INT4) : List (Option ℕ) :=
  if 0 < sockfd then [some sockfd.toNatClampNeg]
  else
    (master.controllers.filter fun controller => master.ip ≠ controller.ip ∧
      (controller.state = .CLUSTER_CONTROLLER_CONNECTED ∨ controller.state = .CLUSTER_CONTROLLER_NORESPONSE)).map
        (·.sockfd)

/-- The bytes of `m_fieldMem` that an encoder fills, `none` where it does not come to `sendReq`. -/
def encoded (master : SyncMaster) : SyncCall → Option (List UINT1)
  | .hostList _ => some (fieldMem (syncHostList0 master.tables)).1
  | .natIcmpList _ => some (fieldMem (syncNatIcmpList0 master.tables)).1
  | .natHostList _ => some (fieldMem (syncNatHostList0 master.tables)).1
  | .addNatHost snatConn => some (fieldMem (syncAddNatHost0 snatConn)).1
  | .delNatHost snatConn => some (fieldMem (syncDelNatHost0 snatConn)).1
  | .topoLinkList _ => some (fieldMem (syncTopoLinkList0 master.tables)).1
  | .topoLink neigh => some (fieldMem (syncTopoLink0 neigh)).1
  | .switchTagList _ => some (fieldMem (syncSwitchTagList0 master.tables)).1
  | .switchTag dpid tag => some (fieldMem (syncSwitchTag0 dpid tag)).1
  | .tagInfo _ => some (syncTagInfo0 master.tables).written.bytes
  | .flowEntryList _ => some (fieldMem (syncFlowEntryList0 master.dpids master.tables)).1
  | .addFlowEntry dpid uuid => (syncAddFlowEntry0 master.tables dpid uuid).map fun tlvs => (fieldMem tlvs).1
  | .delFlowEntry dpid uuid => some (fieldMem (syncDelFlowEntry0 dpid uuid)).1

/-- What an encoder sends. -/
def sends (master : SyncMaster) (c : SyncCall) : List (Option ℕ × List UINT1) :=
  match (master.encoded c).bind (sendReq c.oper.req) with
  | none => []
  | some msg => (master.audience c.sockfd).map fun sockfd => (sockfd, msg)

end SyncMaster

/-- A pass of `syncRoutine` that has taken an item. -/
structure SyncPass where
  master : SyncMaster
  encoder : Option SyncCall
  sent : List (Option ℕ × List UINT1)

def syncRoutine (master : SyncMaster) (sync : SyncData) : SyncPass where
  master := master
  encoder := sync.dispatch
  sent := (sync.dispatch.map master.sends).getD []

/-- A call, with the answer of `syncNeeded` to it, or a pass of `syncRoutine`. -/
inductive SyncEvent where
  | call (c : SyncCall) (syncNeeded : Bool) (stack : Memory)
  | pass (master : SyncMaster)

namespace SyncEvent

/-- The calls that are queued. -/
def calls : List SyncEvent → List (SyncCall × Memory)
  | [] => []
  | call c syncNeeded stack :: es => if syncNeeded then (c, stack) :: calls es else calls es
  | pass _ :: es => calls es

def queued : List SyncEvent → List (Event SyncData SyncMaster)
  | [] => []
  | call c syncNeeded stack :: es => if syncNeeded then .push (c.item stack) :: queued es else queued es
  | pass master :: es => .take master :: queued es

def passes (es : List SyncEvent) : List SyncPass := (run syncRoutine (queued es) []).1

/-- The calls the passes have come to. -/
def taken (es : List SyncEvent) : List SyncCall := ((calls es).take (passes es).length).map (·.1)

end SyncEvent

end DCFabric
