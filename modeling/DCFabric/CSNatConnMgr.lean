import DCFabric.SyncTables
import DCFabric.TransitionRuns

namespace DCFabric

open TransitionRuns

def SNAT_PORT_MIN : UINT2 := 49200
def SNAT_PORT_MAX : UINT2 := 59200

/-- The connections are smart pointers, by the address of their object. -/
abbrev CSNatConnPortMap := Std.TreeMap UINT2 ℕ

abbrev CSNatConnsIpMap := Std.TreeMap UINT4 CSNatConnPortMap

structure CSNatConnsExt where
  m_tcpHosts : CSNatConnsIpMap
  m_udpHosts : CSNatConnsIpMap
  m_tcpSnats : CSNatConnsIpMap
  m_udpSnats : CSNatConnsIpMap

inductive SNatSide where
  | hosts
  | snats
deriving DecidableEq

namespace CSNatConnsIpMap

variable {ips : CSNatConnsIpMap} {ip ip' : UINT4} {port port' : UINT2} {conn : ℕ}

def find (ips : CSNatConnsIpMap) (ip : UINT4) (port : UINT2) : Option ℕ := ips[ip]?.bind fun ports => ports[port]?

def ports (ips : CSNatConnsIpMap) (ip : UINT4) : CSNatConnPortMap := ips[ip]?.getD ∅

def insert (ips : CSNatConnsIpMap) (ip : UINT4) (port : UINT2) (conn : ℕ) : CSNatConnsIpMap :=
  Std.TreeMap.insert ips ip ((ips.ports ip).insert port conn)

/-- The map of the ip, if there is none yet. -/
def touch (ips : CSNatConnsIpMap) (ip : UINT4) : CSNatConnsIpMap := Std.TreeMap.insert ips ip (ips.ports ip)

/-- The port is erased, and its map too when it is left empty. -/
def erase (ips : CSNatConnsIpMap) (ip : UINT4) (port : UINT2) : CSNatConnsIpMap :=
  match ips[ip]? with
  | none => ips
  | some ports =>
    if (ports.erase port).isEmpty then Std.TreeMap.erase ips ip else Std.TreeMap.insert ips ip (ports.erase port)

theorem find_eq_ports : ips.find ip port = (ips.ports ip)[port]? := by
  unfold find ports
  cases ips[ip]? <;> simp

theorem ports_insert_self {ports : CSNatConnPortMap} :
    CSNatConnsIpMap.ports (Std.TreeMap.insert ips ip ports) ip = ports := by
  simp [CSNatConnsIpMap.ports]

theorem ports_insert_of_ne {ports : CSNatConnPortMap} (h : ip' ≠ ip) :
    CSNatConnsIpMap.ports (Std.TreeMap.insert ips ip ports) ip' = ips.ports ip' := by
  simp [CSNatConnsIpMap.ports, Std.TreeMap.getElem?_insert, Ne.symm h]

theorem find_insert :
    (ips.insert ip port conn).find ip' port' = if ip' = ip ∧ port' = port then some conn else ips.find ip' port' := by
  rw [find_eq_ports, find_eq_ports, insert]
  by_cases hip : ip' = ip
  · subst hip
    rw [ports_insert_self, Std.TreeMap.getElem?_insert]
    by_cases hport : port' = port
    · simp [hport]
    · simp [hport, Ne.symm hport]
  · rw [ports_insert_of_ne hip, if_neg (by simp [hip])]

@[simp] theorem find_touch : (ips.touch ip).find ip' port' = ips.find ip' port' := by
  rw [find_eq_ports, find_eq_ports, touch]
  by_cases hip : ip' = ip
  · rw [hip, ports_insert_self]
  · rw [ports_insert_of_ne hip]

/-- Nothing is left of the map of an ip whose entry is erased. -/
theorem ports_erase_self {ports : CSNatConnPortMap} (hports : ips[ip]? = some ports) :
    ((ips.erase ip port).ports ip)[port']? = (ports.erase port)[port']? := by
  simp only [erase, hports]
  split_ifs with hempty
  · rw [Std.TreeMap.getElem?_eq_none (Std.TreeMap.isEmpty_iff_forall_not_mem.mp hempty port')]
    simp [CSNatConnsIpMap.ports]
  · rw [ports_insert_self]

theorem ports_erase_of_ne (h : ip' ≠ ip) : (ips.erase ip port).ports ip' = ips.ports ip' := by
  unfold erase
  cases ips[ip]? with
  | none => rfl
  | some ports =>
    dsimp only
    split_ifs
    · simp [CSNatConnsIpMap.ports, Std.TreeMap.getElem?_erase, Ne.symm h]
    · exact ports_insert_of_ne h

theorem find_erase :
    (ips.erase ip port).find ip' port' = if ip' = ip ∧ port' = port then none else ips.find ip' port' := by
  rw [find_eq_ports, find_eq_ports]
  by_cases hip : ip' = ip
  · subst hip
    cases hports : ips[ip']? with
    | none => simp [erase, hports, CSNatConnsIpMap.ports]
    | some ports =>
      have hself : ips.ports ip' = ports := by simp [CSNatConnsIpMap.ports, hports]
      rw [ports_erase_self hports, hself, Std.TreeMap.getElem?_erase]
      by_cases hport : port' = port
      · simp [hport]
      · simp [hport, Ne.symm hport]
  · rw [ports_erase_of_ne hip, if_neg (by simp [hip])]

end CSNatConnsIpMap

namespace CSNatConnsExt

def empty : CSNatConnsExt := ⟨∅, ∅, ∅, ∅⟩

def maps (ext : CSNatConnsExt) : SNatSide → Bool → CSNatConnsIpMap
  | .hosts, true => ext.m_tcpHosts
  | .hosts, false => ext.m_udpHosts
  | .snats, true => ext.m_tcpSnats
  | .snats, false => ext.m_udpSnats

def setMaps (ext : CSNatConnsExt) (side : SNatSide) (tcp : Bool) (ips : CSNatConnsIpMap) : CSNatConnsExt :=
  match side, tcp with
  | .hosts, true => { ext with m_tcpHosts := ips }
  | .hosts, false => { ext with m_udpHosts := ips }
  | .snats, true => { ext with m_tcpSnats := ips }
  | .snats, false => { ext with m_udpSnats := ips }

@[simp] theorem maps_setMaps {ext : CSNatConnsExt} {side side' : SNatSide} {tcp tcp' : Bool} {ips : CSNatConnsIpMap} :
    (ext.setMaps side tcp ips).maps side' tcp' = if side' = side ∧ tcp' = tcp then ips else ext.maps side' tcp' := by
  cases side <;> cases side' <;> cases tcp <;> cases tcp' <;> rfl

theorem find_erase {ext : CSNatConnsExt} {side side' : SNatSide} {tcp tcp' : Bool} {ip ip' : UINT4}
    {port port' : UINT2} :
    ((ext.setMaps side tcp ((ext.maps side tcp).erase ip port)).maps side' tcp').find ip' port' =
      if side' = side ∧ tcp' = tcp ∧ ip' = ip ∧ port' = port then none else (ext.maps side' tcp').find ip' port' := by
  rw [maps_setMaps]
  by_cases hmap : side' = side ∧ tcp' = tcp
  · obtain ⟨rfl, rfl⟩ := hmap
    simp [CSNatConnsIpMap.find_erase]
  · rw [if_neg hmap, if_neg]
    tauto

@[simp] theorem find_empty {side : SNatSide} {tcp : Bool} {ip : UINT4} {port : UINT2} :
    (empty.maps side tcp).find ip port = none := by
  cases side <;> cases tcp <;> simp [empty, maps, CSNatConnsIpMap.find]

end CSNatConnsExt

structure CSNatConnMgr where
  m_exts : Std.TreeMap UINT4 CSNatConnsExt
  conns : ℕ → CSNatConn
  allocated : ℕ

namespace CSNatConnMgr

def start : CSNatConnMgr := ⟨∅, fun _ => ⟨0, 0, 0, 0, 0, 0, 0, 0, 0⟩, 0⟩

def ext (mgr : CSNatConnMgr) (external_ip : UINT4) : CSNatConnsExt := mgr.m_exts[external_ip]?.getD .empty

def setMaps (mgr : CSNatConnMgr) (side : SNatSide) (external_ip : UINT4) (tcp : Bool) (ips : CSNatConnsIpMap) :
    CSNatConnMgr :=
  { mgr with m_exts := mgr.m_exts.insert external_ip ((mgr.ext external_ip).setMaps side tcp ips) }

def find (mgr : CSNatConnMgr) (side : SNatSide) (external_ip ip : UINT4) (port : UINT2) (tcp : Bool) : Option ℕ :=
  ((mgr.ext external_ip).maps side tcp).find ip port

/-- `*ret = conn`. -/
def assign (mgr : CSNatConnMgr) (ret : ℕ) (conn : CSNatConn) : CSNatConnMgr :=
  { mgr with conns := Function.update mgr.conns ret conn }

def new (mgr : CSNatConnMgr) (conn : CSNatConn) : CSNatConnMgr :=
  { mgr.assign mgr.allocated conn with allocated := mgr.allocated + 1 }

/-- `std::map::insert`, which leaves an element that is there already. -/
def emplace (mgr : CSNatConnMgr) (side : SNatSide) (external_ip ip : UINT4) (port : UINT2) (tcp : Bool) (conn : ℕ) :
    CSNatConnMgr :=
  match mgr.find side external_ip ip port tcp with
  | some _ => mgr
  | none =>
    mgr.setMaps side external_ip tcp (((mgr.ext external_ip).maps side tcp).insert ip port conn)

/-- The loop over `count`, with the passes that are left. -/
def searchPort (portMap : CSNatConnPortMap) : ℕ → UINT2 → UINT2
  | 0, _ => 0
  | n + 1, port =>
    if port ∈ portMap then searchPort portMap n (if port + 1 ≥ SNAT_PORT_MAX then SNAT_PORT_MIN else port + 1)
    else port

def allocPort (portMap : CSNatConnPortMap) : Option UINT2 :=
  if portMap.isEmpty then some SNAT_PORT_MIN
  else if portMap.size ≥ (SNAT_PORT_MAX - SNAT_PORT_MIN).toNat then none
  else
    let port := portMap.maxKey?.getD 0 + 1
    let port := if port ≥ SNAT_PORT_MAX then SNAT_PORT_MIN else port
    let port := searchPort portMap (SNAT_PORT_MAX - SNAT_PORT_MIN).toNat port
    if port = 0 then none else some port

/-- `routerIp` is the ip of the host's router, if there is one and the ip is that of a known host. -/
def allocSNatConn (mgr : CSNatConnMgr) (routerIp : Option UINT4) (snatConn : ℕ) : INT4 × CSNatConnMgr :=
  match routerIp with
  | none => (BNC_ERR, mgr)
  | some routerIp =>
    let conn := mgr.conns snatConn
    let tcp := conn.m_proto = IPPROTO_TCP
    let mgr := mgr.assign snatConn { conn with m_snat_ip := routerIp }
    match mgr.m_exts[conn.m_external_ip]? with
    | none => (BNC_ERR, mgr)
    | some ext =>
      let snatMap := (ext.maps .snats tcp).touch routerIp
      let mgr := mgr.setMaps .snats conn.m_external_ip tcp snatMap
      match allocPort (snatMap.ports routerIp) with
      | none => (BNC_ERR, mgr)
      | some port =>
        let mgr := mgr.assign snatConn { conn with m_snat_ip := routerIp, m_snat_port := port }
        (BNC_OK, mgr.emplace .snats conn.m_external_ip routerIp port tcp snatConn)

/-- The form of `createSNatConn` that allocates the SNAT port. -/
def createSNatConn (mgr : CSNatConnMgr) (routerIp : Option UINT4) (external_ip host_ip : UINT4) (internal_port : UINT2)
    (proto : UINT1) (internal_mac : MacAddr) (gateway_dpid switch_dpid : UINT8) : Option ℕ × CSNatConnMgr :=
  let tcp := proto = IPPROTO_TCP
  let snatConn := mgr.allocated
  let mgr := mgr.setMaps .hosts external_ip tcp (((mgr.ext external_ip).maps .hosts tcp).touch host_ip)
  let (ret, mgr) := (mgr.new ⟨proto, external_ip, 0, 0, host_ip, internal_port, internal_mac, gateway_dpid,
    switch_dpid⟩).allocSNatConn routerIp snatConn
  if ret = BNC_OK then (some snatConn, mgr.emplace .hosts external_ip host_ip internal_port tcp snatConn)
  else (none, mgr)

/-- The form of `createSNatConn` that recovers a connection with its SNAT ip and port. -/
def recoverSNatConn (mgr : CSNatConnMgr) (external_ip snat_ip host_ip : UINT4) (snat_port internal_port : UINT2)
    (proto : UINT1) (internal_mac : MacAddr) (gateway_dpid switch_dpid : UINT8) : ℕ × CSNatConnMgr :=
  let tcp := proto = IPPROTO_TCP
  let conn : CSNatConn := ⟨proto, external_ip, snat_ip, snat_port, host_ip, internal_port, internal_mac, gateway_dpid,
    switch_dpid⟩
  let (ret, mgr) :=
    match mgr.find .hosts external_ip host_ip internal_port tcp with
    | none =>
      let hostMap := ((mgr.ext external_ip).maps .hosts tcp).insert host_ip internal_port mgr.allocated
      (mgr.allocated, (mgr.new conn).setMaps .hosts external_ip tcp hostMap)
    | some ret => (ret, mgr.assign ret conn)
  (ret, mgr.setMaps .snats external_ip tcp (((mgr.ext external_ip).maps .snats tcp).insert snat_ip snat_port ret))

def findSNatConnByInt (mgr : CSNatConnMgr) (external_ip host_ip : UINT4) (internal_port : UINT2) (proto : UINT1) :
    Option ℕ :=
  mgr.find .hosts external_ip host_ip internal_port (proto = IPPROTO_TCP)

def findSNatConnByExt (mgr : CSNatConnMgr) (external_ip snat_ip : UINT4) (snat_port : UINT2) (proto : UINT1) :
    Option ℕ :=
  mgr.find .snats external_ip snat_ip snat_port (proto = IPPROTO_TCP)

def removeSNatConnByInt (mgr : CSNatConnMgr) (external_ip host_ip : UINT4) (internal_port : UINT2) (proto : UINT1) :
    CSNatConnMgr :=
  let tcp := proto = IPPROTO_TCP
  match mgr.m_exts[external_ip]? with
  | none => mgr
  | some ext =>
    let hostMap := ext.maps .hosts tcp
    let ext := ext.setMaps .hosts tcp (hostMap.erase host_ip internal_port)
    match hostMap.find host_ip internal_port with
    | none => { mgr with m_exts := mgr.m_exts.insert external_ip ext }
    | some snatConn =>
      let conn := mgr.conns snatConn
      let ext := ext.setMaps .snats tcp ((ext.maps .snats tcp).erase conn.m_snat_ip conn.m_snat_port)
      if ext.m_tcpHosts.isEmpty && ext.m_udpHosts.isEmpty then { mgr with m_exts := mgr.m_exts.erase external_ip }
      else { mgr with m_exts := mgr.m_exts.insert external_ip ext }

inductive Call where
  | create (routerIp : Option UINT4) (external_ip host_ip : UINT4) (internal_port : UINT2) (proto : UINT1)
    (internal_mac : MacAddr) (gateway_dpid switch_dpid : UINT8)
  | recover (external_ip snat_ip host_ip : UINT4) (snat_port internal_port : UINT2) (proto : UINT1)
    (internal_mac : MacAddr) (gateway_dpid switch_dpid : UINT8)
  | remove (external_ip host_ip : UINT4) (internal_port : UINT2) (proto : UINT1)

def step (mgr : CSNatConnMgr) : Call → Option CSNatConnMgr
  | .create routerIp external_ip host_ip internal_port proto internal_mac gateway_dpid switch_dpid =>
    some (mgr.createSNatConn routerIp external_ip host_ip internal_port proto internal_mac gateway_dpid switch_dpid).2
  | .recover external_ip snat_ip host_ip snat_port internal_port proto internal_mac gateway_dpid switch_dpid =>
    some (mgr.recoverSNatConn external_ip snat_ip host_ip snat_port internal_port proto internal_mac gateway_dpid
      switch_dpid).2
  | .remove external_ip host_ip internal_port proto =>
    some (mgr.removeSNatConnByInt external_ip host_ip internal_port proto)

/-- A connection is only allocated after none was found. -/
def Called (mgr : CSNatConnMgr) : Call → Prop
  | .create _ external_ip host_ip internal_port proto _ _ _ =>
    mgr.findSNatConnByInt external_ip host_ip internal_port proto = none
  | _ => True

/-- The protocol whose maps `proto` is looked up in. -/
def protocol (proto : UINT1) : UINT1 := if proto = IPPROTO_TCP then IPPROTO_TCP else IPPROTO_UDP

/-- The two indexes find the same connections, each under its own fields. -/
structure Inverse (mgr : CSNatConnMgr) : Prop where
  int : ∀ external_ip host_ip internal_port proto c,
    mgr.findSNatConnByInt external_ip host_ip internal_port proto = some c ↔
      ((mgr.conns c).m_external_ip = external_ip ∧ (mgr.conns c).m_internal_ip = host_ip ∧
        (mgr.conns c).m_internal_port = internal_port ∧ (mgr.conns c).m_proto = protocol proto) ∧
        mgr.findSNatConnByExt external_ip (mgr.conns c).m_snat_ip (mgr.conns c).m_snat_port proto = some c
  ext : ∀ external_ip snat_ip snat_port proto c,
    mgr.findSNatConnByExt external_ip snat_ip snat_port proto = some c ↔
      ((mgr.conns c).m_external_ip = external_ip ∧ (mgr.conns c).m_snat_ip = snat_ip ∧
        (mgr.conns c).m_snat_port = snat_port ∧ (mgr.conns c).m_proto = protocol proto) ∧
        mgr.findSNatConnByInt external_ip (mgr.conns c).m_internal_ip (mgr.conns c).m_internal_port proto = some c

def IsNatProtocol (proto : UINT1) : Prop := proto = IPPROTO_TCP ∨ proto = IPPROTO_UDP

instance (proto : UINT1) : Decidable (IsNatProtocol proto) := inferInstanceAs (Decidable (_ ∨ _))

/-- The connection that is recovered is neither or both of those its two keys are taken by. -/
def KeepsApart (mgr : CSNatConnMgr) : Call → Prop
  | .create _ external_ip host_ip internal_port proto _ _ _ =>
    IsNatProtocol proto ∧ mgr.findSNatConnByInt external_ip host_ip internal_port proto = none
  | .recover external_ip snat_ip host_ip snat_port internal_port proto _ _ _ =>
    IsNatProtocol proto ∧ mgr.findSNatConnByInt external_ip host_ip internal_port proto =
      mgr.findSNatConnByExt external_ip snat_ip snat_port proto
  | .remove .. => True

/-- The place of a connection in the maps of a side. -/
structure Place where
  external_ip : UINT4
  ip : UINT4
  port : UINT2
  tcp : Bool
deriving DecidableEq

def hostPlace (conn : CSNatConn) : Place :=
  ⟨conn.m_external_ip, conn.m_internal_ip, conn.m_internal_port, conn.m_proto = IPPROTO_TCP⟩

def snatPlace (conn : CSNatConn) : Place :=
  ⟨conn.m_external_ip, conn.m_snat_ip, conn.m_snat_port, conn.m_proto = IPPROTO_TCP⟩

def look (mgr : CSNatConnMgr) (side : SNatSide) (p : Place) : Option ℕ :=
  mgr.find side p.external_ip p.ip p.port p.tcp

variable {mgr mgr' : CSNatConnMgr} {side side' : SNatSide} {external_ip external_ip' ip ip' : UINT4} {port : UINT2}
  {tcp tcp' : Bool} {ips : CSNatConnsIpMap} {conn : CSNatConn} {c r : ℕ} {p : Place} {portMap : CSNatConnPortMap}
  {proto : UINT1} {call : Call}

theorem find_setMaps : (mgr.setMaps side external_ip tcp ips).find side' external_ip' ip port tcp' =
    if external_ip' = external_ip ∧ side' = side ∧ tcp' = tcp then ips.find ip port
    else mgr.find side' external_ip' ip port tcp' := by
  by_cases he : external_ip' = external_ip
  · subst he
    simp only [find, setMaps, ext, Std.TreeMap.getElem?_insert_self, Option.getD_some, CSNatConnsExt.maps_setMaps,
      true_and]
    split_ifs <;> rfl
  · simp [find, setMaps, ext, Std.TreeMap.getElem?_insert, he, Ne.symm he]

theorem look_setMaps_insert :
    (mgr.setMaps side external_ip tcp (((mgr.ext external_ip).maps side tcp).insert ip port c)).look side' p =
      if side' = side ∧ p = ⟨external_ip, ip, port, tcp⟩ then some c else mgr.look side' p := by
  obtain ⟨e, i, q, t⟩ := p
  simp only [look, find_setMaps, CSNatConnsIpMap.find_insert, Place.mk.injEq]
  by_cases hkey : e = external_ip ∧ side' = side ∧ t = tcp
  · obtain ⟨rfl, rfl, rfl⟩ := hkey
    simp [find]
  · rw [if_neg hkey, if_neg (by tauto)]

@[simp] theorem look_setMaps_touch :
    (mgr.setMaps side external_ip tcp (((mgr.ext external_ip).maps side tcp).touch ip)).look side' p =
      mgr.look side' p := by
  simp only [look, find_setMaps, CSNatConnsIpMap.find_touch]
  split_ifs with hkey
  · obtain ⟨he, rfl, ht⟩ := hkey
    rw [find, he, ht]
  · rfl

@[simp] theorem look_assign : (mgr.assign r conn).look side p = mgr.look side p := rfl

@[simp] theorem look_new : (mgr.new conn).look side p = mgr.look side p := rfl

theorem look_emplace (h : mgr.look side ⟨external_ip, ip, port, tcp⟩ = none) :
    (mgr.emplace side external_ip ip port tcp c).look side' p =
      if side' = side ∧ p = ⟨external_ip, ip, port, tcp⟩ then some c else mgr.look side' p := by
  have hnone : mgr.find side external_ip ip port tcp = none := h
  rw [emplace, hnone]
  exact look_setMaps_insert

theorem searchPort_free {n : ℕ} : searchPort portMap n port = 0 ∨ searchPort portMap n port ∉ portMap := by
  induction n generalizing port with
  | zero => exact .inl rfl
  | succ n ih =>
    rw [searchPort]
    split_ifs with hmem
    · exact ih
    · exact ih
    · exact .inr hmem

/-- A port that is allocated is free. -/
theorem allocPort_free (h : allocPort portMap = some port) : portMap[port]? = none := by
  unfold allocPort at h
  split_ifs at h with hempty hfull
  · exact Std.TreeMap.getElem?_eq_none (Std.TreeMap.isEmpty_iff_forall_not_mem.mp hempty port)
  · dsimp only at h
    split_ifs at h with hport hzero
    all_goals
      obtain rfl := Option.some.inj h
      exact Std.TreeMap.getElem?_eq_none (searchPort_free.resolve_left ‹_›)

structure Inv (mgr : CSNatConnMgr) : Prop where
  int : ∀ p c, mgr.look .hosts p = some c → hostPlace (mgr.conns c) = p ∧
    mgr.look .snats (snatPlace (mgr.conns c)) = some c
  ext : ∀ p c, mgr.look .snats p = some c → snatPlace (mgr.conns c) = p ∧
    mgr.look .hosts (hostPlace (mgr.conns c)) = some c
  proto : ∀ p c, mgr.look .hosts p = some c → IsNatProtocol (mgr.conns c).m_proto
  lt : ∀ p c, mgr.look .hosts p = some c → c < mgr.allocated

/-- `mgr'` is `mgr` with a connection stored on both sides, new or in place of itself. -/
structure Stores (mgr : CSNatConnMgr) (conn : CSNatConn) (r : ℕ) (mgr' : CSNatConnMgr) : Prop where
  hosts : ∀ p, mgr'.look .hosts p = if p = hostPlace conn then some r else mgr.look .hosts p
  snats : ∀ p, mgr'.look .snats p = if p = snatPlace conn then some r else mgr.look .snats p
  stored : mgr'.conns r = conn
  conns : ∀ c, c ≠ r → mgr'.conns c = mgr.conns c
  same : mgr.look .hosts (hostPlace conn) = mgr.look .snats (snatPlace conn)
  self : mgr.look .hosts (hostPlace conn) = some r ∨ mgr.look .hosts (hostPlace conn) = none ∧ mgr.allocated ≤ r
  allocated : mgr.allocated ≤ mgr'.allocated
  lt : r < mgr'.allocated

theorem Inv.stores (h : Inv mgr) (hproto : IsNatProtocol conn.m_proto) (hs : Stores mgr conn r mgr') : Inv mgr' := by
  have hother : ∀ p c, p ≠ hostPlace conn → mgr.look .hosts p = some c → c ≠ r := by
    rintro p c hp hc rfl
    rcases hs.self with hself | ⟨-, hle⟩
    · exact hp ((h.int p c hc).1.symm.trans (h.int _ c hself).1)
    · exact absurd (h.lt p c hc) (not_lt.mpr hle)
  constructor
  · intro p c hc
    rw [hs.hosts] at hc
    split_ifs at hc with hp
    · obtain rfl := Option.some.inj hc
      rw [hs.stored, hs.snats, if_pos rfl]
      exact ⟨hp.symm, rfl⟩
    · obtain ⟨hplace, hsnat⟩ := h.int p c hc
      rw [hs.conns c (hother p c hp hc), hs.snats, if_neg]
      · exact ⟨hplace, hsnat⟩
      · intro heq
        rw [heq, ← hs.same] at hsnat
        exact hp (hplace.symm.trans (h.int _ c hsnat).1)
  · intro p c hc
    rw [hs.snats] at hc
    split_ifs at hc with hp
    · obtain rfl := Option.some.inj hc
      rw [hs.stored, hs.hosts, if_pos rfl]
      exact ⟨hp.symm, rfl⟩
    · obtain ⟨hplace, hhost⟩ := h.ext p c hc
      have hne : hostPlace (mgr.conns c) ≠ hostPlace conn := by
        intro heq
        rw [heq, hs.same] at hhost
        exact hp (hplace.symm.trans (h.ext _ c hhost).1)
      rw [hs.conns c (hother _ c hne hhost), hs.hosts, if_neg hne]
      exact ⟨hplace, hhost⟩
  · intro p c hc
    rw [hs.hosts] at hc
    split_ifs at hc with hp
    · obtain rfl := Option.some.inj hc
      rwa [hs.stored]
    · rw [hs.conns c (hother p c hp hc)]
      exact h.proto p c hc
  · intro p c hc
    rw [hs.hosts] at hc
    split_ifs at hc with hp
    · obtain rfl := Option.some.inj hc
      exact hs.lt
    · exact (h.lt p c hc).trans_le hs.allocated

/-- Nothing that is found changes. -/
theorem Inv.congr (h : Inv mgr) (hlook : ∀ side p, mgr'.look side p = mgr.look side p)
    (hconns : ∀ c < mgr.allocated, mgr'.conns c = mgr.conns c) (hle : mgr.allocated ≤ mgr'.allocated) : Inv mgr' := by
  have hconn : ∀ p c, mgr.look .hosts p = some c → mgr'.conns c = mgr.conns c := fun p c hc => hconns c (h.lt p c hc)
  constructor
  · intro p c hc
    rw [hlook] at hc
    rw [hconn p c hc, hlook]
    exact h.int p c hc
  · intro p c hc
    rw [hlook] at hc
    have hext := h.ext p c hc
    rw [hconn _ c hext.2, hlook]
    exact hext
  · intro p c hc
    rw [hlook] at hc
    rw [hconn p c hc]
    exact h.proto p c hc
  · intro p c hc
    rw [hlook] at hc
    exact (h.lt p c hc).trans_le hle

/-- Nothing changes for what is found but the object that has no place yet. -/
structure Fails (mgr : CSNatConnMgr) (c : ℕ) (mgr' : CSNatConnMgr) : Prop where
  look : ∀ side p, mgr'.look side p = mgr.look side p
  conns : ∀ d, d ≠ c → mgr'.conns d = mgr.conns d
  allocated : mgr'.allocated = mgr.allocated

structure Allocs (mgr : CSNatConnMgr) (c : ℕ) (conn : CSNatConn) (mgr' : CSNatConnMgr) : Prop where
  free : mgr.look .snats (snatPlace conn) = none
  host : hostPlace conn = hostPlace (mgr.conns c)
  proto : conn.m_proto = (mgr.conns c).m_proto
  look : ∀ side p, mgr'.look side p = if side = .snats ∧ p = snatPlace conn then some c else mgr.look side p
  stored : mgr'.conns c = conn
  conns : ∀ d, d ≠ c → mgr'.conns d = mgr.conns d
  allocated : mgr'.allocated = mgr.allocated

theorem assign_conns_of_ne {d : ℕ} (h : d ≠ r) : (mgr.assign r conn).conns d = mgr.conns d :=
  Function.update_of_ne h ..

@[simp] theorem emplace_conns {port : UINT2} : (mgr.emplace side external_ip ip port tcp c).conns = mgr.conns := by
  unfold emplace
  split <;> rfl

@[simp] theorem emplace_allocated {port : UINT2} :
    (mgr.emplace side external_ip ip port tcp c).allocated = mgr.allocated := by
  unfold emplace
  split <;> rfl

/-- The connection is entered in a manager that finds what `mgr` finds. -/
theorem Fails.emplace {filled : CSNatConnMgr} (h : Fails mgr c filled) (hstored : filled.conns c = conn)
    (hfree : mgr.look .snats (snatPlace conn) = none) (hhost : hostPlace conn = hostPlace (mgr.conns c))
    (hproto : conn.m_proto = (mgr.conns c).m_proto) :
    Allocs mgr c conn (filled.emplace .snats conn.m_external_ip conn.m_snat_ip conn.m_snat_port
      (conn.m_proto = IPPROTO_TCP) c) where
  free := hfree
  host := hhost
  proto := hproto
  look side p := by
    rw [look_emplace ((h.look ..).trans hfree), h.look]
    rfl
  stored := by rw [emplace_conns, hstored]
  conns d hd := by rw [emplace_conns, h.conns d hd]
  allocated := by rw [emplace_allocated, h.allocated]

theorem allocSNatConn_cases (mgr : CSNatConnMgr) (routerIp : Option UINT4) (c : ℕ) :
    (mgr.allocSNatConn routerIp c).1 ≠ BNC_OK ∧ Fails mgr c (mgr.allocSNatConn routerIp c).2 ∨
      (mgr.allocSNatConn routerIp c).1 = BNC_OK ∧ ∃ conn, Allocs mgr c conn (mgr.allocSNatConn routerIp c).2 := by
  have herr : BNC_ERR ≠ BNC_OK := by decide
  unfold allocSNatConn
  cases routerIp with
  | none => exact .inl ⟨herr, fun _ _ => rfl, fun _ _ => rfl, rfl⟩
  | some routerIp =>
    dsimp only
    cases hext : (mgr.assign c { mgr.conns c with m_snat_ip := routerIp }).m_exts[(mgr.conns c).m_external_ip]? with
    | none => exact .inl ⟨herr, fun _ _ => rfl, fun _ hd => assign_conns_of_ne hd, rfl⟩
    | some ext =>
      obtain rfl : ext = mgr.ext (mgr.conns c).m_external_ip := by
        rw [CSNatConnMgr.ext]
        change mgr.m_exts[_]? = _ at hext
        rw [hext, Option.getD_some]
      dsimp only
      have htouch := @look_setMaps_touch (mgr.assign c { mgr.conns c with m_snat_ip := routerIp }) .snats
      split
      · exact .inl ⟨herr, fun _ _ => htouch, fun _ hd => assign_conns_of_ne hd, rfl⟩
      · next port hport =>
        have hfree : mgr.look .snats
            ⟨(mgr.conns c).m_external_ip, routerIp, port, (mgr.conns c).m_proto = IPPROTO_TCP⟩ =
            none := by
          have hnone := allocPort_free hport
          rwa [← CSNatConnsIpMap.find_eq_ports, CSNatConnsIpMap.find_touch] at hnone
        refine .inr ⟨rfl, { mgr.conns c with m_snat_ip := routerIp, m_snat_port := port }, ?_⟩
        refine Fails.emplace ⟨fun _ _ => htouch, fun d hd => ?_, rfl⟩ (Function.update_self ..) hfree rfl rfl
        exact (assign_conns_of_ne hd).trans (assign_conns_of_ne hd)

theorem Inv.create {routerIp : Option UINT4} {host_ip : UINT4} {mac : MacAddr} {gateway sw : UINT8} {port : UINT2}
    (h : Inv mgr) (hproto : IsNatProtocol proto) (hnone : mgr.findSNatConnByInt external_ip host_ip port proto = none) :
    Inv (mgr.createSNatConn routerIp external_ip host_ip port proto mac gateway sw).2 := by
  unfold createSNatConn
  dsimp only
  generalize hopened : (mgr.setMaps .hosts external_ip (proto = IPPROTO_TCP) (((mgr.ext external_ip).maps .hosts
    (proto = IPPROTO_TCP)).touch host_ip)).new ⟨proto, external_ip, 0, 0, host_ip, port, mac, gateway, sw⟩ = opened
  have hlook (side : SNatSide) (p : Place) : opened.look side p = mgr.look side p := by
    rw [← hopened, look_new, look_setMaps_touch]
  have hself : opened.conns mgr.allocated = ⟨proto, external_ip, 0, 0, host_ip, port, mac, gateway, sw⟩ := by
    rw [← hopened]
    exact Function.update_self ..
  have hconns (d : ℕ) (hd : d ≠ mgr.allocated) : opened.conns d = mgr.conns d := by
    rw [← hopened]
    exact Function.update_of_ne hd ..
  have hallocated : opened.allocated = mgr.allocated + 1 := by
    rw [← hopened]
    rfl
  rcases opened.allocSNatConn_cases routerIp mgr.allocated with ⟨hret, hfails⟩ | ⟨hret, conn, hallocs⟩
  · rw [if_neg hret]
    apply h.congr
    · intro side p
      rw [hfails.look, hlook]
    · intro d hd
      rw [hfails.conns d hd.ne, hconns d hd.ne]
    · rw [hfails.allocated, hallocated]
      exact Nat.le_succ _
  · rw [if_pos hret]
    have hproto' : conn.m_proto = proto := by rw [hallocs.proto, hself]
    have hplace : hostPlace conn = ⟨external_ip, host_ip, port, proto = IPPROTO_TCP⟩ := by
      rw [hallocs.host, hself]
      rfl
    have hfree : (opened.allocSNatConn routerIp mgr.allocated).2.look .hosts
        ⟨external_ip, host_ip, port, proto = IPPROTO_TCP⟩ = none := by
      rw [hallocs.look, if_neg (by simp), hlook]
      exact hnone
    have hstores : Stores mgr conn mgr.allocated ((opened.allocSNatConn routerIp mgr.allocated).2.emplace .hosts
        external_ip host_ip port (proto = IPPROTO_TCP) mgr.allocated) := {
      hosts p := by
        rw [look_emplace hfree, hplace, hallocs.look, hlook]
        simp
      snats p := by
        rw [look_emplace hfree, hallocs.look, hlook]
        simp
      stored := by rw [emplace_conns, hallocs.stored]
      conns d hd := by rw [emplace_conns, hallocs.conns d hd, hconns d hd]
      same := by
        rw [← hlook .snats, hallocs.free, hplace]
        exact hnone
      self := .inr ⟨by rw [hplace]; exact hnone, le_rfl⟩
      allocated := by
        rw [emplace_allocated, hallocs.allocated, hallocated]
        exact Nat.le_succ _
      lt := by
        rw [emplace_allocated, hallocs.allocated, hallocated]
        exact Nat.lt_succ_self _ }
    exact h.stores (hproto' ▸ hproto) hstores

theorem Inv.recover {snat_ip host_ip : UINT4} {snat_port port : UINT2} {mac : MacAddr} {gateway sw : UINT8}
    (h : Inv mgr) (hproto : IsNatProtocol proto) (hsame : mgr.findSNatConnByInt external_ip host_ip port proto =
      mgr.findSNatConnByExt external_ip snat_ip snat_port proto) :
    Inv (mgr.recoverSNatConn external_ip snat_ip host_ip snat_port port proto mac gateway sw).2 := by
  unfold recoverSNatConn
  dsimp only
  have hconn : IsNatProtocol (CSNatConn.mk proto external_ip snat_ip snat_port host_ip port mac gateway sw).m_proto :=
    hproto
  cases hfind : mgr.find .hosts external_ip host_ip port (proto = IPPROTO_TCP) with
  | none =>
    apply h.stores hconn
    exact {
      hosts p := by
        refine look_setMaps_insert.trans ?_
        rw [if_neg (by simp)]
        refine look_setMaps_insert.trans ?_
        exact if_congr (by simp [hostPlace]) rfl rfl
      snats p := by
        refine look_setMaps_insert.trans ?_
        simp only [true_and]
        congr 1
        exact look_setMaps_insert.trans (if_neg (by simp))
      stored := Function.update_self ..
      conns d hd := Function.update_of_ne hd ..
      same := hsame
      self := .inr ⟨hfind, le_rfl⟩
      allocated := Nat.le_succ _
      lt := Nat.lt_succ_self _ }
  | some r =>
    have hfound : mgr.look .hosts ⟨external_ip, host_ip, port, proto = IPPROTO_TCP⟩ = some r := hfind
    apply h.stores hconn
    exact {
      hosts p := by
        refine look_setMaps_insert.trans ?_
        rw [if_neg (by simp)]
        split_ifs with hp
        · rw [hp]
          exact hfind
        · rfl
      snats p := by
        refine look_setMaps_insert.trans ?_
        simp only [true_and]
        rfl
      stored := Function.update_self ..
      conns d hd := Function.update_of_ne hd ..
      same := hsame
      self := .inl hfind
      allocated := le_rfl
      lt := h.lt _ r hfound }

/-- `mgr'` is `mgr` without a connection that is found at `p₀` on the host side. -/
structure Drops (mgr : CSNatConnMgr) (p₀ : Place) (c : ℕ) (mgr' : CSNatConnMgr) : Prop where
  found : mgr.look .hosts p₀ = some c
  hosts : ∀ p, mgr'.look .hosts p = if p = p₀ then none else mgr.look .hosts p
  snats : ∀ p, mgr'.look .snats p = if p = snatPlace (mgr.conns c) then none else mgr.look .snats p
  conns : mgr'.conns = mgr.conns
  allocated : mgr'.allocated = mgr.allocated

theorem Inv.drops {p₀ : Place} (h : Inv mgr) (hd : Drops mgr p₀ c mgr') : Inv mgr' := by
  obtain ⟨hplace, hsnat⟩ := h.int p₀ c hd.found
  have hkept : ∀ p d, mgr'.look .hosts p = some d → p ≠ p₀ ∧ mgr.look .hosts p = some d := by
    intro p d hp
    rw [hd.hosts] at hp
    split_ifs at hp with hne
    exact ⟨hne, hp⟩
  constructor
  · intro p d hp
    obtain ⟨hne, hp⟩ := hkept p d hp
    obtain ⟨hdplace, hdsnat⟩ := h.int p d hp
    rw [hd.conns, hd.snats, if_neg]
    · exact ⟨hdplace, hdsnat⟩
    · intro heq
      rw [heq, hsnat] at hdsnat
      obtain rfl := Option.some.inj hdsnat
      exact hne (hdplace.symm.trans hplace)
  · intro p d hp
    rw [hd.snats] at hp
    split_ifs at hp with hne
    obtain ⟨hdplace, hdhost⟩ := h.ext p d hp
    rw [hd.conns, hd.hosts, if_neg]
    · exact ⟨hdplace, hdhost⟩
    · intro heq
      rw [heq, hd.found] at hdhost
      obtain rfl := Option.some.inj hdhost
      exact hne hdplace.symm
  · intro p d hp
    rw [hd.conns]
    exact h.proto p d (hkept p d hp).2
  · intro p d hp
    rw [hd.allocated]
    exact h.lt p d (hkept p d hp).2

theorem look_insert {ext : CSNatConnsExt} :
    look { mgr with m_exts := mgr.m_exts.insert external_ip ext } side p =
      if p.external_ip = external_ip then (ext.maps side p.tcp).find p.ip p.port else mgr.look side p := by
  by_cases he : p.external_ip = external_ip
  · simp [look, find, CSNatConnMgr.ext, he]
  · simp [look, find, CSNatConnMgr.ext, Std.TreeMap.getElem?_insert, he, Ne.symm he]

theorem look_erase :
    look { mgr with m_exts := mgr.m_exts.erase external_ip } side p =
      if p.external_ip = external_ip then none else mgr.look side p := by
  by_cases he : p.external_ip = external_ip
  · simp [look, find, CSNatConnMgr.ext, he]
  · simp [look, find, CSNatConnMgr.ext, Std.TreeMap.getElem?_erase, he, Ne.symm he]

theorem find_of_isEmpty {port : UINT2} (h : ips.isEmpty = true) : ips.find ip port = none := by
  rw [CSNatConnsIpMap.find, Std.TreeMap.getElem?_eq_none (Std.TreeMap.isEmpty_iff_forall_not_mem.mp h ip)]
  rfl

/-- An external ip without hosts has no SNAT ports either. -/
theorem Inv.erase {ext : CSNatConnsExt} (h : Inv { mgr with m_exts := mgr.m_exts.insert external_ip ext })
    (htcp : ext.m_tcpHosts.isEmpty = true) (hudp : ext.m_udpHosts.isEmpty = true) :
    Inv { mgr with m_exts := mgr.m_exts.erase external_ip } := by
  have hhosts : ∀ p, p.external_ip = external_ip →
      look { mgr with m_exts := mgr.m_exts.insert external_ip ext } .hosts p = none := by
    intro p hp
    rw [look_insert, if_pos hp]
    cases p.tcp with
    | true => exact find_of_isEmpty htcp
    | false => exact find_of_isEmpty hudp
  have hsnats : ∀ p, p.external_ip = external_ip →
      look { mgr with m_exts := mgr.m_exts.insert external_ip ext } .snats p = none := by
    intro p hp
    by_contra hsome
    obtain ⟨d, hd⟩ := Option.ne_none_iff_exists'.mp hsome
    obtain ⟨hplace, hhost⟩ := h.ext p d hd
    rw [hhosts] at hhost
    · cases hhost
    · rw [← hp, ← hplace]
      rfl
  apply h.congr
  · intro side p
    rw [look_erase]
    split_ifs with hp
    · cases side with
      | hosts => exact (hhosts p hp).symm
      | snats => exact (hsnats p hp).symm
    · rw [look_insert, if_neg hp]
  · exact fun _ _ => rfl
  · exact le_rfl

theorem Inv.remove {host_ip : UINT4} {port : UINT2} (h : Inv mgr) :
    Inv (mgr.removeSNatConnByInt external_ip host_ip port proto) := by
  unfold removeSNatConnByInt
  dsimp only
  cases hext : mgr.m_exts[external_ip]? with
  | none => exact h
  | some ext =>
    dsimp only
    have hlook {side : SNatSide} {p : Place} (hp : p.external_ip = external_ip) :
        mgr.look side p = (ext.maps side p.tcp).find p.ip p.port := by
      rw [look, find, CSNatConnMgr.ext, hp, hext, Option.getD_some]
    cases hfind : (ext.maps .hosts (proto = IPPROTO_TCP)).find host_ip port with
    | none =>
      dsimp only
      apply h.congr
      · intro side p
        rw [look_insert]
        split_ifs with hp
        · rw [hlook hp, CSNatConnsExt.find_erase]
          split_ifs with hkey
          · rw [hkey.1, hkey.2.1, hkey.2.2.1, hkey.2.2.2, hfind]
          · rfl
        · rfl
      · exact fun _ _ => rfl
      · exact le_rfl
    | some c =>
      dsimp only
      have hdropped : Inv { mgr with m_exts := mgr.m_exts.insert external_ip ((ext.setMaps .hosts (proto = IPPROTO_TCP)
          ((ext.maps .hosts (proto = IPPROTO_TCP)).erase host_ip port)).setMaps .snats (proto = IPPROTO_TCP)
          (((ext.setMaps .hosts (proto = IPPROTO_TCP) ((ext.maps .hosts (proto = IPPROTO_TCP)).erase host_ip port)).maps
            .snats (proto = IPPROTO_TCP)).erase (mgr.conns c).m_snat_ip (mgr.conns c).m_snat_port)) } := by
        have hfound : mgr.look .hosts ⟨external_ip, host_ip, port, proto = IPPROTO_TCP⟩ = some c :=
          (hlook rfl).trans hfind
        have hplace := (h.int _ c hfound).1
        rw [hostPlace, Place.mk.injEq] at hplace
        apply h.drops
        exact {
          found := hfound
          hosts p := by
            rw [look_insert, CSNatConnsExt.find_erase, CSNatConnsExt.find_erase]
            obtain ⟨e, i, q, t⟩ := p
            simp only [Place.mk.injEq]
            by_cases he : e = external_ip
            · subst he
              have hlook : mgr.look .hosts ⟨e, i, q, t⟩ = (ext.maps .hosts t).find i q := hlook rfl
              rw [if_pos rfl, hlook]
              simp only [true_and, reduceCtorEq, false_and, if_false]
              exact if_congr (by tauto) rfl rfl
            · rw [if_neg he, if_neg (fun h => he h.1)]
          snats p := by
            rw [look_insert, CSNatConnsExt.find_erase, CSNatConnsExt.find_erase]
            obtain ⟨e, i, q, t⟩ := p
            simp only [snatPlace, Place.mk.injEq, hplace.1, hplace.2.2.2]
            by_cases he : e = external_ip
            · subst he
              have hlook : mgr.look .snats ⟨e, i, q, t⟩ = (ext.maps .snats t).find i q := hlook rfl
              rw [if_pos rfl, hlook]
              simp only [true_and, reduceCtorEq, false_and, if_false]
              exact if_congr (by tauto) rfl rfl
            · rw [if_neg he, if_neg (fun h => he h.1)]
          conns := rfl
          allocated := rfl }
      split_ifs with hempty
      · rw [Bool.and_eq_true] at hempty
        exact hdropped.erase hempty.1 hempty.2
      · exact hdropped

theorem look_start : start.look side p = none := by
  simp [look, find, ext, start]

theorem Inv.start : Inv start := by
  constructor <;> intro p c hc <;> rw [look_start] at hc <;> cases hc

theorem Inv.step (h : Inv mgr) (hkeeps : KeepsApart mgr call) (hstep : mgr.step call = some mgr') : Inv mgr' := by
  cases call with
  | create routerIp external_ip host_ip internal_port proto internal_mac gateway_dpid switch_dpid =>
    obtain rfl := Option.some.inj hstep
    exact h.create hkeeps.1 hkeeps.2
  | recover external_ip snat_ip host_ip snat_port internal_port proto internal_mac gateway_dpid switch_dpid =>
    obtain rfl := Option.some.inj hstep
    exact h.recover hkeeps.1 hkeeps.2
  | remove external_ip host_ip internal_port proto =>
    obtain rfl := Option.some.inj hstep
    exact h.remove

theorem protocol_of_maps {proto' : UINT1} (h : IsNatProtocol proto')
    (hmaps : decide (proto' = IPPROTO_TCP) = decide (proto = IPPROTO_TCP)) : proto' = protocol proto := by
  rw [decide_eq_decide] at hmaps
  unfold protocol
  rcases h with h | h
  · rw [if_pos (hmaps.mp h), h]
  · rw [if_neg, h]
    intro htcp
    rw [h] at hmaps
    exact absurd (hmaps.mpr htcp) (by decide)

theorem maps_protocol : decide (protocol proto = IPPROTO_TCP) = decide (proto = IPPROTO_TCP) := by
  unfold protocol
  split_ifs with h
  · simp [h]
  · simp only [h, decide_false]
    decide

theorem Inv.inverse (h : Inv mgr) : Inverse mgr where
  int external_ip host_ip internal_port proto c := by
    constructor
    · intro hint
      obtain ⟨hplace, hsnat⟩ := h.int ⟨external_ip, host_ip, internal_port, proto = IPPROTO_TCP⟩ c hint
      have hnat := h.proto ⟨external_ip, host_ip, internal_port, proto = IPPROTO_TCP⟩ c hint
      rw [hostPlace, Place.mk.injEq] at hplace
      obtain ⟨he, hi, hq, hmaps⟩ := hplace
      rw [snatPlace, he, hmaps] at hsnat
      exact ⟨⟨he, hi, hq, protocol_of_maps hnat hmaps⟩, hsnat⟩
    · rintro ⟨⟨he, hi, hq, hproto⟩, hext⟩
      have hhost := (h.ext ⟨external_ip, _, _, proto = IPPROTO_TCP⟩ c hext).2
      rwa [hostPlace, he, hi, hq, hproto, maps_protocol] at hhost
  ext external_ip snat_ip snat_port proto c := by
    constructor
    · intro hext
      obtain ⟨hplace, hhost⟩ := h.ext ⟨external_ip, snat_ip, snat_port, proto = IPPROTO_TCP⟩ c hext
      have hnat := h.proto _ c hhost
      rw [snatPlace, Place.mk.injEq] at hplace
      obtain ⟨he, hi, hq, hmaps⟩ := hplace
      rw [hostPlace, he, hmaps] at hhost
      exact ⟨⟨he, hi, hq, protocol_of_maps hnat hmaps⟩, hhost⟩
    · rintro ⟨⟨he, hi, hq, hproto⟩, hint⟩
      have hsnat := (h.int ⟨external_ip, _, _, proto = IPPROTO_TCP⟩ c hint).2
      rwa [snatPlace, he, hi, hq, hproto, maps_protocol] at hsnat

theorem indexes_inverse (hrun : Run step KeepsApart start mgr) : Inverse mgr := by
  apply Inv.inverse
  apply hrun.invariant (P := Inv) (fun _ _ _ h hkeeps hstep => h.step hkeeps hstep)
  exact Inv.start

instance : ∀ (mgr : CSNatConnMgr) (call : Call), Decidable (KeepsApart mgr call)
  | _, .create .. => inferInstanceAs (Decidable (_ ∧ _))
  | _, .recover .. => inferInstanceAs (Decidable (_ ∧ _))
  | _, .remove .. => inferInstanceAs (Decidable True)

/-- An allocated connection, the recovery of another and the removal of the first. -/
def allocatedAndRecovered : List Call := [
  .create (some 2) 1 3 10 IPPROTO_TCP 0 5 6,
  .recover 1 2 4 49201 10 IPPROTO_TCP 0 5 6,
  .remove 1 3 10 IPPROTO_TCP]

theorem allocatedAndRecovered_inverse :
    ∃ mgr, exec (guarded step KeepsApart) start allocatedAndRecovered = some mgr ∧ Inverse mgr :=
  ⟨_, rfl, indexes_inverse (Run.of_exec (show exec (guarded step KeepsApart) start allocatedAndRecovered =
    some _ from rfl))⟩

instance : ∀ (mgr : CSNatConnMgr) (call : Call), Decidable (Called mgr call)
  | _, .create .. => inferInstanceAs (Decidable (_ = _))
  | _, .recover .. => inferInstanceAs (Decidable True)
  | _, .remove .. => inferInstanceAs (Decidable True)

/-- Two hosts are recovered with the same SNAT port. -/
def recoveredTwice : List Call := [
  .recover 1 2 3 49200 10 IPPROTO_TCP 0 5 6,
  .recover 1 2 4 49200 10 IPPROTO_TCP 0 5 6]

theorem recoveredTwice_not_inverse : ¬∀ mgr, Run step Called start mgr → Inverse mgr := by
  intro hinverse
  have hrun : ∃ mgr, exec (guarded step Called) start recoveredTwice = some mgr ∧
      mgr.findSNatConnByInt 1 3 10 IPPROTO_TCP = some 0 ∧ (mgr.conns 0).m_snat_ip = 2 ∧
      (mgr.conns 0).m_snat_port = 49200 ∧ mgr.findSNatConnByExt 1 2 49200 IPPROTO_TCP = some 1 :=
    ⟨_, rfl, rfl, rfl, rfl, rfl⟩
  obtain ⟨mgr, hexec, hint, hip, hport, hext⟩ := hrun
  have hback := (((hinverse mgr (Run.of_exec hexec)).int ..).mp hint).2
  rw [hip, hport, hext] at hback
  cases hback

end CSNatConnMgr

end DCFabric
