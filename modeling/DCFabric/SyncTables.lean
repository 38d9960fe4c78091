import DCFabric.FlowCache
import DCFabric.SwitchPaths
import DCFabric.TagMgr
import DCFabric.TlvStreams

namespace DCFabric

open SortedMaps ListUpdates TlvStreams

/-- A MAC address with its first byte lowest. -/
abbrev MacAddr := BitVec 48

def device_floatingip : INT4 := 6

/-- `m_oIpList` is `ip :: moreIps`. A `CHostFloating` has an `m_fixedip`, a `CHostNormal` none. -/
structure CHost where
  m_enType : INT4
  m_iDpid : UINT8
  m_iPortNo : UINT4
  m_oMac : MacAddr
  ip : UINT4
  moreIps : List UINT4
  m_strSubnetId : List UINT1
  m_strTenantId : List UINT1
  m_fixedip : Option UINT4
deriving DecidableEq

namespace CHost

def getIpList (host : CHost) : List UINT4 := host.ip :: host.moreIps

def getfixIp (host : CHost) : UINT4 := host.m_fixedip.getD host.ip

def setfixIp (host : CHost) (fixedIp : UINT4) : CHost :=
  match host.m_fixedip with
  | none => { host with ip := fixedIp }
  | some _ => { host with m_fixedip := some fixedIp }

end CHost

/-- The arguments of `CHostMgr::addHost`, with a list of addresses that is not empty. -/
structure HostArgs where
  type : INT4
  mac : MacAddr
  ip : UINT4
  moreIps : List UINT4
  dpid : UINT8
  port : UINT4
  subnetId : List UINT1
  tenantId : List UINT1
  fixedIp : UINT4

namespace HostArgs

variable (a : HostArgs)

-- the constructor of the class and `setIpList`
def create : CHost where
  m_enType := a.type
  m_iDpid := a.dpid
  m_iPortNo := a.port
  m_oMac := a.mac
  ip := a.ip
  moreIps := a.moreIps
  m_strSubnetId := a.subnetId
  m_strTenantId := a.tenantId
  m_fixedip := if a.type = device_floatingip then some a.fixedIp else none

def update (host : CHost) : CHost :=
  let host := { host with m_iDpid := a.dpid, m_iPortNo := a.port, ip := a.ip, moreIps := a.moreIps }
  let host := if a.type = device_floatingip then host.setfixIp a.fixedIp else host
  { host with m_strSubnetId := a.subnetId, m_strTenantId := a.tenantId }

def addTo (l : List CHost) : List CHost :=
  match l.find? (·.m_oMac = a.mac) with
  | none => l ++ [a.create]
  | some host =>
    if host.m_enType = a.type then (updateFirst (·.m_oMac = a.mac) a.update l).getD l
    else l.eraseP (·.m_oMac = a.mac) ++ [a.create]

variable {a}

theorem update_mac (host : CHost) : (a.update host).m_oMac = host.m_oMac := by
  unfold update CHost.setfixIp
  cases host.m_fixedip <;> dsimp only <;> split_ifs <;> rfl

theorem addTo_of_absent {l : List CHost} (h : ∀ host ∈ l, host.m_oMac ≠ a.mac) : a.addTo l = l ++ [a.create] := by
  have hfind : l.find? (·.m_oMac = a.mac) = none := by simpa using h
  rw [addTo, hfind]

theorem addTo_distinct {l : List CHost} (h : l.Pairwise (·.m_oMac ≠ ·.m_oMac)) :
    (a.addTo l).Pairwise (·.m_oMac ≠ ·.m_oMac) := by
  unfold addTo
  split
  · next hfind =>
    apply pairwise_concat h
    simpa [create] using hfind
  · split_ifs
    · cases hu : updateFirst (·.m_oMac = a.mac) a.update l with
      | none => exact h
      | some l' =>
        obtain ⟨l₁, host, l₂, rfl, rfl, -, -⟩ := updateFirst_some hu
        have hparts := List.pairwise_append.mp h
        apply pairwise_replace h
        · intro x hx
          rw [update_mac]
          exact hparts.2.2 x hx host List.mem_cons_self
        · intro x hx
          rw [update_mac]
          exact (List.pairwise_cons.mp hparts.2.1).1 x hx
    · rw [eraseP_eq_filter]
      · apply pairwise_concat (h.sublist List.filter_sublist)
        intro x hx
        simpa [create] using (List.mem_filter.mp hx).2
      · refine h.imp ?_
        rintro x y hne ⟨hx, hy⟩
        exact hne (by simp_all)

end HostArgs

/-- `addHost` looks a host up by its address first, so that no two have the same. -/
structure CHostMgr where
  m_list : List CHost
  distinct : m_list.Pairwise (·.m_oMac ≠ ·.m_oMac)

namespace CHostMgr

def clear : CHostMgr := ⟨[], .nil⟩

def addHost (mgr : CHostMgr) (a : HostArgs) : CHostMgr := ⟨a.addTo mgr.m_list, HostArgs.addTo_distinct mgr.distinct⟩

end CHostMgr

structure CNatIcmpEntry where
  m_identifier : UINT2
  m_host_ip : UINT4
  m_host_mac : MacAddr
  m_sw_dpid : UINT8
  m_inport : UINT4
deriving DecidableEq

abbrev CNatIcmpMap := KeyedMap CNatIcmpEntry (·.m_identifier.toNat)

def AddNatIcmpEntry (map : CNatIcmpMap) (entry : CNatIcmpEntry) : CNatIcmpMap := map.put entry

def IPPROTO_TCP : UINT1 := 6
def IPPROTO_UDP : UINT1 := 17

structure CSNatConn where
  m_proto : UINT1
  m_external_ip : UINT4
  m_snat_ip : UINT4
  m_snat_port : UINT2
  m_internal_ip : UINT4
  m_internal_port : UINT2
  m_internal_mac : MacAddr
  m_gateway_dpid : UINT8
  m_switch_dpid : UINT8
deriving DecidableEq

/-- The place of a connection in `m_exts`: its external ip, `m_tcpHosts` before `m_udpHosts`, its internal ip and
port. -/
def hostKey (proto : UINT1) (external_ip internal_ip : UINT4) (internal_port : UINT2) : ℕ :=
  ((external_ip.toNat * 2 + if proto = IPPROTO_TCP then 0 else 1) * 2 ^ 32 + internal_ip.toNat) * 2 ^ 16 +
    internal_port.toNat

def CSNatConn.key (conn : CSNatConn) : ℕ :=
  hostKey conn.m_proto conn.m_external_ip conn.m_internal_ip conn.m_internal_port

/-- The host maps of `CSNatConnMgr`. -/
abbrev CSNatConns := KeyedMap CSNatConn CSNatConn.key

def createSNatConn (conns : CSNatConns) (conn : CSNatConn) : CSNatConns := conns.put conn

def removeSNatConnByInt (conns : CSNatConns) (external_ip host_ip : UINT4) (internal_port : UINT2) (proto : UINT1) :
    CSNatConns :=
  conns.erase (hostKey proto external_ip host_ip internal_port)

def NeighborTable.clearPorts (tbl : NeighborTable) : NeighborTable := fun i => (tbl i).map fun _ _ => ∅

structure SwitchEntry where
  address : ℕ
  dpid : UINT8
  state : SwitchState
  tag : UINT4

def CBitset.serialize (b : CBitset) : List UINT1 :=
  leBytes 4 b.m_length.toNat ++ leBytes 4 b.m_numSet.toNat ++ leBytes 4 b.m_next.toNat ++
    (b.m_data.take (U32_COUNT b.m_length).toNat).flatMap fun word => leBytes 4 word.toNat

def loadU32 (m : Memory) (addr : ℕ) : UINT4 := UInt32.ofNat (leNat (load m addr 4))

/-- The bytes `CBitset::recover` takes for a number of bits. -/
def CBitset.syncSize (syncLen : UINT4) : ℕ := 12 + 4 * (U32_COUNT syncLen).toNat

def CBitset.recover (b : CBitset) (m : Memory) (data len : ℕ) : CBitset :=
  let syncLen := loadU32 m data
  if syncSize syncLen > len then b
  else
    { m_length := syncLen
      m_numSet := loadU32 m (data + 4)
      m_next := loadU32 m (data + 8)
      m_data := (List.range (U32_COUNT syncLen).toNat).map fun i => loadU32 m (data + 12 + 4 * i) }

/-- What the cluster synchronisation reads and writes of a controller. `reported` are the flow table events, which
the flow cache consumes in their order. -/
structure ControllerTables where
  hostMgr : CHostMgr
  natIcmpMap : CNatIcmpMap
  snatConns : CSNatConns
  neighbors : NeighborTable
  pathChanged : Bool
  switches : List SwitchEntry
  tagMgr : CTagMgr
  flowCache : CFlowCache
  reported : List CFlowCache.Event

namespace ControllerTables

def empty : ControllerTables where
  hostMgr := .clear
  natIcmpMap := .empty
  snatConns := .empty
  neighbors := fun _ => ∅
  pathChanged := false
  switches := []
  tagMgr := .init
  flowCache := .clear
  reported := []

def getSwitchByDpid (w : ControllerTables) (dpid : UINT8) : Option SwitchEntry := w.switches.find? (·.dpid = dpid)

def setTag (w : ControllerTables) (dpid : UINT8) (tag : UINT4) : ControllerTables :=
  { w with switches := (updateFirst (·.dpid = dpid) ({ · with tag }) w.switches).getD w.switches }

def recoverLink (w : ControllerTables) (neigh : Neighbor) : ControllerTables :=
  { w with neighbors := (w.neighbors.recoverLink neigh).2 }

def notifyPathChanged (w : ControllerTables) : ControllerTables := { w with pathChanged := true }

def report (w : ControllerTables) (event : CFlowCache.Event) : ControllerTables :=
  { w with reported := w.reported ++ [event] }

end ControllerTables

end DCFabric
