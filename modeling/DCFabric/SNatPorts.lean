import DCFabric.CSNatConnMgr

namespace DCFabric

namespace CSNatConnMgr

def IsSNatPort (port : UINT2) : Prop := SNAT_PORT_MIN ≤ port ∧ port < SNAT_PORT_MAX

instance (port : UINT2) : Decidable (IsSNatPort port) := inferInstanceAs (Decidable (_ ∧ _))

/-- A connection with this SNAT port is found. -/
def PortUsed (mgr : CSNatConnMgr) (external_ip snat_ip : UINT4) (proto : UINT1) (port : UINT2) : Prop :=
  ∃ c, mgr.findSNatConnByExt external_ip snat_ip port proto = some c

variable {portMap : CSNatConnPortMap} {port last free : UINT2} {n : ℕ} {mgr : CSNatConnMgr}

theorem isSNatPort_iff : IsSNatPort port ↔ 49200 ≤ port.toNat ∧ port.toNat < 59200 := by
  rw [IsSNatPort, UInt16.le_iff_toNat_le, UInt16.lt_iff_toNat_lt]
  rfl

def nextPort (port : UINT2) : UINT2 := if port + 1 ≥ SNAT_PORT_MAX then SNAT_PORT_MIN else port + 1

theorem toNat_nextPort (h : IsSNatPort port) : (nextPort port).toNat = 49200 + (port.toNat - 49200 + 1) % 10000 := by
  obtain ⟨hmin, hmax⟩ := isSNatPort_iff.mp h
  have hsucc : (port + 1).toNat = port.toNat + 1 := by
    rw [UInt16.toNat_add]
    simp only [UInt16.reduceToNat]
    omega
  rw [nextPort]
  split_ifs with hwrap
  · rw [ge_iff_le, UInt16.le_iff_toNat_le, hsucc] at hwrap
    simp only [SNAT_PORT_MAX, SNAT_PORT_MIN, UInt16.reduceToNat] at hwrap ⊢
    omega
  · rw [ge_iff_le, UInt16.le_iff_toNat_le, hsucc] at hwrap
    simp only [SNAT_PORT_MAX, UInt16.reduceToNat] at hwrap
    omega

theorem isSNatPort_nextPort (h : IsSNatPort port) : IsSNatPort (nextPort port) := by
  rw [isSNatPort_iff, toNat_nextPort h]
  omega

/-- The search meets every port, so it stops at a free one. The induction is on the passes that are left; they bring the
search at least to `free`. -/
theorem searchPort_spec (hfree : IsSNatPort free) (hnot : free ∉ portMap) (h : IsSNatPort port)
    (hn : (free.toNat + 10000 - port.toNat) % 10000 < n) :
    IsSNatPort (searchPort portMap n port) ∧ searchPort portMap n port ∉ portMap := by
  induction n generalizing port with
  | zero => exact absurd hn (Nat.not_lt_zero _)
  | succ n ih =>
    have hstep : searchPort portMap (n + 1) port =
        if port ∈ portMap then searchPort portMap n (nextPort port) else port := rfl
    rw [hstep]
    split_ifs with hmem
    · have hne : port.toNat ≠ free.toNat := by
        intro heq
        exact hnot (UInt16.toNat_inj.mp heq ▸ hmem)
      apply ih (isSNatPort_nextPort h)
      rw [isSNatPort_iff] at hfree h
      rw [toNat_nextPort (isSNatPort_iff.mpr h)]
      omega
    · exact ⟨h, hmem⟩

/-- The ports that can be allocated. -/
def snatPorts : Finset UINT2 := (Finset.range 10000).image fun k => UInt16.ofNat (49200 + k)

theorem mem_snatPorts : port ∈ snatPorts ↔ IsSNatPort port := by
  rw [isSNatPort_iff, snatPorts, Finset.mem_image]
  constructor
  · rintro ⟨k, hk, rfl⟩
    rw [Finset.mem_range] at hk
    rw [UInt16.toNat_ofNat']
    omega
  · rintro ⟨hmin, hmax⟩
    refine ⟨port.toNat - 49200, Finset.mem_range.mpr (by omega), ?_⟩
    rw [Nat.add_sub_cancel' hmin, UInt16.ofNat_toNat]

theorem card_snatPorts : snatPorts.card = 10000 := by
  rw [snatPorts, Finset.card_image_of_injOn, Finset.card_range]
  intro j hj k hk hjk
  rw [Finset.coe_range, Set.mem_Iio] at hj hk
  have htoNat := congrArg UInt16.toNat hjk
  simp only [UInt16.toNat_ofNat'] at htoNat
  omega

theorem card_keys : portMap.keys.toFinset.card = portMap.size := by
  rw [List.toFinset_card_of_nodup Std.TreeMap.nodup_keys, Std.TreeMap.length_keys]

theorem size_ge_iff (hrange : ∀ port ∈ portMap, IsSNatPort port) :
    10000 ≤ portMap.size ↔ ∀ port, IsSNatPort port → port ∈ portMap := by
  have hsub : portMap.keys.toFinset ⊆ snatPorts := by
    intro port hport
    rw [List.mem_toFinset, Std.TreeMap.mem_keys] at hport
    exact mem_snatPorts.mpr (hrange port hport)
  rw [← card_keys, ← card_snatPorts]
  constructor
  · intro hle port hport
    have heq := Finset.eq_of_subset_of_card_le hsub hle
    rwa [← mem_snatPorts, ← heq, List.mem_toFinset, Std.TreeMap.mem_keys] at hport
  · intro hall
    apply Finset.card_le_card
    intro port hport
    rw [List.mem_toFinset, Std.TreeMap.mem_keys]
    exact hall port (mem_snatPorts.mp hport)

theorem allocPort_eq (hempty : ¬ portMap.isEmpty) (hfull : ¬ portMap.size ≥ (SNAT_PORT_MAX - SNAT_PORT_MIN).toNat)
    (hlast : portMap.maxKey? = some last) : allocPort portMap = if searchPort portMap 10000 (nextPort last) = 0 then none
      else some (searchPort portMap 10000 (nextPort last)) := by
  rw [allocPort, if_neg hempty, if_neg hfull, hlast]
  rfl

/-- A free port is allocated if there is one. -/
theorem allocPort_spec (hrange : ∀ port ∈ portMap, IsSNatPort port) :
    (allocPort portMap = none ↔ ∀ port, IsSNatPort port → port ∈ portMap) ∧
      ∀ port, allocPort portMap = some port → IsSNatPort port ∧ port ∉ portMap := by
  have hmin : IsSNatPort SNAT_PORT_MIN := by decide
  by_cases hempty : portMap.isEmpty
  · have hnot : ∀ port, port ∉ portMap := Std.TreeMap.isEmpty_iff_forall_not_mem.mp hempty
    rw [allocPort, if_pos hempty]
    refine ⟨iff_of_false (by simp) fun h => hnot _ (h _ hmin), ?_⟩
    intro port hport
    obtain rfl := Option.some.inj hport
    exact ⟨hmin, hnot _⟩
  by_cases hfull : portMap.size ≥ (SNAT_PORT_MAX - SNAT_PORT_MIN).toNat
  · rw [allocPort, if_neg hempty, if_pos hfull]
    exact ⟨iff_of_true rfl ((size_ge_iff hrange).mp hfull), fun _ h => by cases h⟩
  have hnotall : ¬ ∀ port, IsSNatPort port → port ∈ portMap := fun h => hfull ((size_ge_iff hrange).mpr h)
  obtain ⟨free, hfree, hnot⟩ : ∃ free, IsSNatPort free ∧ free ∉ portMap := by
    push Not at hnotall
    exact hnotall
  obtain ⟨last, hlast⟩ : ∃ last, portMap.maxKey? = some last :=
    Option.isSome_iff_exists.mp (Std.TreeMap.isSome_maxKey?_iff_isEmpty_eq_false.mpr (by simpa using hempty))
  have hport : IsSNatPort (nextPort last) :=
    isSNatPort_nextPort (hrange last (Std.TreeMap.maxKey?_eq_some_iff_mem_and_forall.mp hlast).1)
  have hspec : IsSNatPort (searchPort portMap 10000 (nextPort last)) ∧
      searchPort portMap 10000 (nextPort last) ∉ portMap :=
    searchPort_spec hfree hnot hport (Nat.mod_lt _ (by decide))
  have hne : searchPort portMap 10000 (nextPort last) ≠ 0 := by
    intro hzero
    rw [hzero] at hspec
    exact absurd hspec.1 (by decide)
  rw [allocPort_eq hempty hfull hlast, if_neg hne]
  refine ⟨iff_of_false (by simp) hnotall, ?_⟩
  intro port hsome
  obtain rfl := Option.some.inj hsome
  exact hspec

/-- What `allocSNatConn` comes to for a connection whose router is found. -/
structure Allocation (mgr : CSNatConnMgr) (routerIp : UINT4) (c : ℕ) (ret : INT4) (mgr' : CSNatConnMgr) : Prop where
  ok_or_err : ret = BNC_OK ∨ ret = BNC_ERR
  fails_iff : ret = BNC_ERR ↔ ∀ port, IsSNatPort port →
    mgr.PortUsed (mgr.conns c).m_external_ip routerIp (mgr.conns c).m_proto port
  port : ret = BNC_OK → IsSNatPort (mgr'.conns c).m_snat_port ∧ (mgr'.conns c).m_snat_ip = routerIp ∧
    ¬ mgr.PortUsed (mgr.conns c).m_external_ip routerIp (mgr.conns c).m_proto (mgr'.conns c).m_snat_port ∧
    mgr'.findSNatConnByExt (mgr.conns c).m_external_ip routerIp (mgr'.conns c).m_snat_port (mgr.conns c).m_proto = some c
  -- the same for what is found by its host
  live : ret = BNC_OK → Inverse mgr → ∀ host_ip internal_port d,
    mgr.findSNatConnByInt (mgr.conns c).m_external_ip host_ip internal_port (mgr.conns c).m_proto = some d →
      ¬ ((mgr.conns d).m_snat_ip = routerIp ∧ (mgr.conns d).m_snat_port = (mgr'.conns c).m_snat_port)
  unchanged : ret = BNC_ERR → (∀ side p, mgr'.look side p = mgr.look side p) ∧ ∀ d, d ≠ c → mgr'.conns d = mgr.conns d

theorem allocSNatConn_eq (routerIp : UINT4) {c : ℕ} (hext : (mgr.m_exts[(mgr.conns c).m_external_ip]?).isSome) :
    match allocPort (((mgr.ext (mgr.conns c).m_external_ip).maps .snats ((mgr.conns c).m_proto = IPPROTO_TCP)).ports
      routerIp) with
    | none => (mgr.allocSNatConn (some routerIp) c).1 = BNC_ERR
    | some port => (mgr.allocSNatConn (some routerIp) c).1 = BNC_OK ∧
      ((mgr.allocSNatConn (some routerIp) c).2.conns c) =
        { mgr.conns c with m_snat_ip := routerIp, m_snat_port := port } := by
  obtain ⟨ext, hext⟩ := Option.isSome_iff_exists.mp hext
  have hself : mgr.ext (mgr.conns c).m_external_ip = ext := by rw [CSNatConnMgr.ext, hext, Option.getD_some]
  have hassign : (mgr.assign c { mgr.conns c with m_snat_ip := routerIp }).m_exts[(mgr.conns c).m_external_ip]? =
      some ext := hext
  have hports : ((ext.maps .snats ((mgr.conns c).m_proto = IPPROTO_TCP)).touch routerIp).ports routerIp =
      (ext.maps .snats ((mgr.conns c).m_proto = IPPROTO_TCP)).ports routerIp := CSNatConnsIpMap.ports_insert_self
  rw [hself, allocSNatConn]
  dsimp only
  rw [hassign]
  dsimp only
  rw [hports]
  cases hport : allocPort ((ext.maps .snats ((mgr.conns c).m_proto = IPPROTO_TCP)).ports routerIp) with
  | none => rfl
  | some port =>
    refine ⟨rfl, ?_⟩
    dsimp only
    rw [emplace_conns]
    exact Function.update_self ..

theorem portUsed_iff {external_ip snat_ip : UINT4} {proto : UINT1} :
    mgr.PortUsed external_ip snat_ip proto port ↔
      port ∈ ((mgr.ext external_ip).maps .snats (proto = IPPROTO_TCP)).ports snat_ip := by
  rw [PortUsed, findSNatConnByExt, find, CSNatConnsIpMap.find_eq_ports, Std.TreeMap.mem_iff_isSome_getElem?,
    Option.isSome_iff_exists]

/-- `createSNatConn` has entered the external ip before. -/
theorem allocSNatConn_allocates (mgr : CSNatConnMgr) (routerIp : UINT4) (c : ℕ)
    (hrange : ∀ port, mgr.PortUsed (mgr.conns c).m_external_ip routerIp (mgr.conns c).m_proto port → IsSNatPort port)
    (hext : (mgr.m_exts[(mgr.conns c).m_external_ip]?).isSome) :
    Allocation mgr routerIp c (mgr.allocSNatConn (some routerIp) c).1 (mgr.allocSNatConn (some routerIp) c).2 := by
  have herr : BNC_ERR ≠ BNC_OK := by decide
  obtain ⟨hnone, hsome⟩ := allocPort_spec fun port hport => hrange port (portUsed_iff.mpr hport)
  have heq := allocSNatConn_eq routerIp hext
  cases hport : allocPort (((mgr.ext (mgr.conns c).m_external_ip).maps .snats
    ((mgr.conns c).m_proto = IPPROTO_TCP)).ports routerIp) with
  | none =>
    simp only [hport] at heq
    have hret : (mgr.allocSNatConn (some routerIp) c).1 ≠ BNC_OK := heq ▸ herr
    have hfails := (mgr.allocSNatConn_cases (some routerIp) c).resolve_right fun h => hret h.1
    exact {
      ok_or_err := .inr heq
      fails_iff := iff_of_true heq fun port hp => portUsed_iff.mpr (hnone.mp hport port hp)
      port h := absurd h hret
      live h := absurd h hret
      unchanged _ := ⟨hfails.2.look, hfails.2.conns⟩ }
  | some port =>
    simp only [hport] at heq
    obtain ⟨hret, hconn⟩ := heq
    obtain ⟨hsnat, hfree⟩ := hsome port hport
    have hunused : ¬ mgr.PortUsed (mgr.conns c).m_external_ip routerIp (mgr.conns c).m_proto port :=
      fun h => hfree (portUsed_iff.mp h)
    obtain ⟨-, conn, hallocs⟩ := (mgr.allocSNatConn_cases (some routerIp) c).resolve_left fun h => h.1 hret
    have hstored : conn = { mgr.conns c with m_snat_ip := routerIp, m_snat_port := port } :=
      hallocs.stored.symm.trans hconn
    have hfound := hallocs.look .snats (snatPlace conn)
    rw [if_pos ⟨rfl, rfl⟩, hstored] at hfound
    refine {
      ok_or_err := .inl hret
      fails_iff := iff_of_false (fun h => herr (h.symm.trans hret)) fun h => hunused (h port hsnat)
      port _ := by
        rw [hconn]
        exact ⟨hsnat, rfl, hunused, hfound⟩
      live := ?_
      unchanged h := absurd (h.symm.trans hret) herr }
    rintro - hinverse host_ip internal_port d hd ⟨hip, hsame⟩
    have hext := ((hinverse.int _ _ _ _ _).mp hd).2
    rw [hip, hsame, hconn] at hext
    exact hunused ⟨d, hext⟩

/-- The state in which `createSNatConn` calls `allocSNatConn` for the first connection. -/
def firstConn : CSNatConnMgr :=
  (start.setMaps .hosts 1 true (((start.ext 1).maps .hosts true).touch 3)).new ⟨IPPROTO_TCP, 1, 0, 0, 3, 10, 0, 5, 6⟩

theorem firstConn_allocates : Allocation firstConn 2 0 (firstConn.allocSNatConn (some 2) 0).1
    (firstConn.allocSNatConn (some 2) 0).2 := by
  apply allocSNatConn_allocates
  · rintro port ⟨c, hc⟩
    have hnone : start.look .snats ⟨1, 2, port, true⟩ = none := by
      simp [look, find, ext, start]
    have hlook : firstConn.look .snats ⟨1, 2, port, true⟩ = none := by
      rw [firstConn, look_new, look_setMaps_touch, hnone]
    exact absurd (hlook.symm.trans hc) (by simp)
  · decide

end CSNatConnMgr

end DCFabric
