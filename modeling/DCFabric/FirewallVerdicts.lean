import DCFabric.FirewallFlows

namespace DCFabric

open FlowTables

/-- What the firewall reads of a tracked host. -/
structure TrackedHost where
  sw : UINT8
  fixIp : UINT4

/-- What `applyOut` and `applyIn` ask the other managers. -/
structure FirewallLookups where
  slave : Bool
  findHostByMac : HostMac → Option TrackedHost
  externalSwitch : UINT4 → Option UINT8
  findFloatingIpNodeByfloatingIp : UINT4 → Option UINT4
  checkIn : UINT4 → UINT2 → UINT1 → Option (UINT4 × UINT2)
  findHostByIp : UINT4 → Option HostMac
  takesFlows : UINT8 → Bool

/-- What a rule is compared with: the remote address and the port of the host. -/
structure FirewallTraffic where
  direction : FirewallDirection
  protocol : UINT1
  remoteIp : UINT4
  port : UINT2

/-- The checks of the loops of `applyOut` and `applyIn`. -/
def CFirewallRule.applies (r : CFirewallRule) (t : FirewallTraffic) : Bool :=
  let shift := 32 - r.m_remoteIpMask
  r.m_enabled && r.m_direction = t.direction &&
    (!(r.m_protocol > 0) || t.protocol = r.m_protocol) &&
    (!(r.m_remoteIp > 0) || (t.remoteIp >>> shift) <<< shift = r.m_remoteIp) &&
    (!(r.m_portMin > 0) || !(t.port < r.m_portMin)) &&
    (!(r.m_portMax > 0) || !(t.port > r.m_portMax))

namespace CFlowMgr

/-- Without a match for a protocol that has no ports. -/
def ephemeralMatch (srcIP dstIP : UINT4) (protocol : UINT1) (srcPort dstPort : UINT2) : Option gn_oxm_t :=
  let m := CFlowCache.emptyOxm.setField .eth_type ETHER_IP.toBitVec
  let m := if srcIP > 0 then m.setField .ipv4_src srcIP.toBitVec else m
  let m := if dstIP > 0 then m.setField .ipv4_dst dstIP.toBitVec else m
  if protocol > 0 then
    let m := m.setField .ip_proto protocol.toBitVec
    if protocol = IPPROTO_TCP then some ((m.setField .tcp_src srcPort.toBitVec).setField .tcp_dst dstPort.toBitVec)
    else if protocol = IPPROTO_UDP then some ((m.setField .udp_src srcPort.toBitVec).setField .udp_dst dstPort.toBitVec)
    else none
  else some m

/-- Both ephemeral flows have the priority of the outgoing ones. -/
def installEphemeral (takesFlows : UINT8 → Bool) (table_id qos_table_id : UINT1) (sw : UINT8) (srcIP dstIP : UINT4)
    (protocol : UINT1) (srcPort dstPort priority : UINT2) (accept : Bool) : List FirewallFlowMod :=
  match ephemeralMatch srcIP dstIP protocol srcPort dstPort with
  | none => []
  | some m =>
    install_fabric_flows takesFlows sw (FABRIC_PRIORITY_FIREWALL_OUT_FLOW + priority) table_id .add m
      (qosTarget qos_table_id accept)

def install_firewallIn_ephemeral_flow (takesFlows : UINT8 → Bool) :=
  installEphemeral takesFlows FABRIC_TABLE_FIREWALL_INVM FABRIC_TABLE_QOS_INVM

def install_firewallOut_ephemeral_flow (takesFlows : UINT8 → Bool) :=
  installEphemeral takesFlows FABRIC_TABLE_FIREWALL_OUTTOR FABRIC_TABLE_QOS_OUTTOR

end CFlowMgr

namespace CFirewallPolicy

open CFlowMgr

variable (env : FirewallLookups)

def installFirewallOutEphemeralFlow (macAddress : HostMac) (srcIP dstIP : UINT4) (protocol : UINT1)
    (srcPort dstPort priority : UINT2) (accept : Bool) : INT4 × List FirewallFlowMod :=
  if env.slave ∨ macAddress = [] then (BNC_ERR, []) else
  match env.findHostByMac macAddress with
  | none => (BNC_ERR, [])
  | some host =>
    match env.externalSwitch srcIP with
    | none => (BNC_ERR, [])
    | some extSw =>
      let flow := install_firewallOut_ephemeral_flow env.takesFlows
      (BNC_OK, flow host.sw srcIP dstIP protocol srcPort dstPort (priority + 1) accept ++
        if host.sw ≠ extSw then flow extSw 0 dstIP protocol 0 dstPort (priority + 1) accept else [])

def installFirewallInEphemeralFlow (macAddress : HostMac) (srcIP dstIP : UINT4) (protocol : UINT1)
    (srcPort dstPort priority : UINT2) (accept : Bool) : INT4 × List FirewallFlowMod :=
  if env.slave ∨ macAddress = [] then (BNC_ERR, []) else
  match env.findHostByMac macAddress with
  | none => (BNC_ERR, [])
  | some host =>
    match env.externalSwitch host.fixIp with
    | none => (BNC_ERR, [])
    | some extSw =>
      let flow := install_firewallIn_ephemeral_flow env.takesFlows
      (BNC_OK, flow extSw srcIP dstIP protocol srcPort dstPort (priority + 1) accept ++
        if host.sw ≠ extSw then flow host.sw srcIP dstIP protocol srcPort dstPort (priority + 1) accept else [])

/-- The walk over the lists of a host, up to the first rule that applies. -/
def applyFirst (walk : List (UINT4 × CFWRuleList)) (t : FirewallTraffic)
    (install : UINT2 → Bool → INT4 × List FirewallFlowMod) : INT4 × List FirewallFlowMod :=
  match walk.findSome? fun e => e.2.toList.find? (·.applies t) with
  | none => (BNC_ERR, [])
  | some r =>
    if r.m_portMin = r.m_portMax then (BNC_OK, [])
    else if r.m_portMax = 65535 ∧ r.m_portMin ≤ 1 then (BNC_OK, [])
    else install r.m_priority (r.m_action = .FIREWALL_ACTION_ACCEPT)

/-- `walk` is the iteration order of the host's map. -/
def applyOut (walk : List (UINT4 × CFWRuleList)) (srcMac : HostMac) (srcIp dstIp : UINT4) (protocol : UINT1)
    (srcPort dstPort : UINT2) : INT4 × List FirewallFlowMod :=
  applyFirst walk ⟨.FIREWALL_DIRECTION_OUT, protocol, dstIp, srcPort⟩
    (installFirewallOutEphemeralFlow env srcMac srcIp dstIp protocol srcPort dstPort)

/-- The inner address and port a destination translates to, with 0 for no address. -/
def innerAddress (dstIp : UINT4) (dstPort : UINT2) (protocol : UINT1) : UINT4 × UINT2 :=
  match env.findFloatingIpNodeByfloatingIp dstIp with
  | some fixedIp => (fixedIp, dstPort)
  | none => (env.checkIn dstIp dstPort protocol).getD (0, 0)

/-- `walk` is the iteration order of the map of each host. -/
def applyIn (walk : HostMac → List (UINT4 × CFWRuleList)) (srcIp dstIp : UINT4) (protocol : UINT1)
    (srcPort dstPort : UINT2) : INT4 × List FirewallFlowMod :=
  let (innerIp, innerPort) := innerAddress env dstIp dstPort protocol
  if innerIp = 0 then (BNC_ERR, []) else
  match env.findHostByIp innerIp with
  | none => (BNC_ERR, [])
  | some mac =>
    applyFirst (walk mac) ⟨.FIREWALL_DIRECTION_IN, protocol, srcIp, innerPort⟩
      (installFirewallInEphemeralFlow env mac srcIp dstIp protocol srcPort dstPort)

end CFirewallPolicy

/-- The addresses agree in the leading bits that the mask counts. -/
def SameNetwork (mask a b : UINT4) : Prop := a.toNat / 2 ^ (32 - mask.toNat) = b.toNat / 2 ^ (32 - mask.toNat)

/-- The rule is about the traffic; a zero in it leaves a property of the traffic open. -/
structure FirewallTraffic.MatchedBy (t : FirewallTraffic) (r : CFirewallRule) : Prop where
  enabled : r.m_enabled
  direction : r.m_direction = t.direction
  protocol : r.m_protocol = 0 ∨ r.m_protocol = t.protocol
  remoteIp : r.m_remoteIp = 0 ∨ SameNetwork r.m_remoteIpMask t.remoteIp r.m_remoteIp
  portMin : r.m_portMin = 0 ∨ r.m_portMin ≤ t.port
  portMax : r.m_portMax = 0 ∨ t.port ≤ r.m_portMax

/-- The matching rule of highest priority accepts the traffic. -/
def FirewallTraffic.Allowed (t : FirewallTraffic) (rules : List CFirewallRule) : Prop :=
  ∃ r ∈ rules, t.MatchedBy r ∧ (∀ r' ∈ rules, t.MatchedBy r' → r'.m_priority ≤ r.m_priority) ∧
    r.m_action = .FIREWALL_ACTION_ACCEPT

/-- Rules of one host: every remote IP is the address of its network. -/
structure HostRules (rules : List CFirewallRule) : Prop where
  priorities : rules.Pairwise fun r r' => r.m_priority ≠ r'.m_priority
  masks : ∀ r ∈ rules, r.m_remoteIpMask ≤ 32
  networks : ∀ r ∈ rules, 2 ^ (32 - r.m_remoteIpMask.toNat) ∣ r.m_remoteIp.toNat

variable {t : FirewallTraffic} {r : CFirewallRule} {mask ip remote : UINT4}

theorem shift_iff (hmask : mask ≤ 32) (hpos : 0 < mask) (hnet : 2 ^ (32 - mask.toNat) ∣ remote.toNat) :
    (ip >>> (32 - mask)) <<< (32 - mask) = remote ↔ SameNetwork mask ip remote := by
  have hm : mask.toNat ≤ 32 := by simpa using UInt32.le_iff_toNat_le.mp hmask
  have hp : 0 < mask.toNat := by simpa using UInt32.lt_iff_toNat_lt.mp hpos
  have hshift : (32 - mask).toNat % 32 = 32 - mask.toNat := by
    rw [UInt32.toNat_sub_of_le _ _ hmask]
    simp
    omega
  have hlt : ip.toNat / 2 ^ (32 - mask.toNat) * 2 ^ (32 - mask.toNat) < 2 ^ 32 :=
    (Nat.div_mul_le_self _ _).trans_lt ip.toNat_lt
  rw [← UInt32.toNat_inj, UInt32.toNat_shiftLeft, UInt32.toNat_shiftRight, hshift, Nat.shiftRight_eq_div_pow,
    Nat.shiftLeft_eq, Nat.mod_eq_of_lt hlt, SameNetwork, Nat.eq_div_iff_mul_eq_left (by positivity) hnet]
  exact eq_comm

/-- A remote IP other than 0 has a mask other than 0, so the shifts are by less than the width. -/
theorem mask_pos (hnet : 2 ^ (32 - mask.toNat) ∣ remote.toNat) (hr : remote ≠ 0) : 0 < mask := by
  apply UInt32.lt_iff_toNat_lt.mpr
  apply Nat.pos_of_ne_zero
  intro hzero
  rw [hzero] at hnet
  apply hr
  apply UInt32.toNat_inj.mp
  exact Nat.eq_zero_of_dvd_of_lt hnet remote.toNat_lt

theorem applies_iff (hmask : r.m_remoteIpMask ≤ 32)
    (hnet : 2 ^ (32 - r.m_remoteIpMask.toNat) ∣ r.m_remoteIp.toNat) : r.applies t ↔ t.MatchedBy r := by
  have hip : r.m_remoteIp = 0 ∨
      (t.remoteIp >>> (32 - r.m_remoteIpMask)) <<< (32 - r.m_remoteIpMask) = r.m_remoteIp ↔
      r.m_remoteIp = 0 ∨ SameNetwork r.m_remoteIpMask t.remoteIp r.m_remoteIp := by
    apply or_congr_right'
    intro hr
    exact shift_iff hmask (mask_pos hnet hr) hnet
  have hfields : r.applies t ↔ r.m_enabled ∧ r.m_direction = t.direction ∧
      (r.m_protocol = 0 ∨ r.m_protocol = t.protocol) ∧
      (r.m_remoteIp = 0 ∨ (t.remoteIp >>> (32 - r.m_remoteIpMask)) <<< (32 - r.m_remoteIpMask) = r.m_remoteIp) ∧
      (r.m_portMin = 0 ∨ r.m_portMin ≤ t.port) ∧ (r.m_portMax = 0 ∨ t.port ≤ r.m_portMax) := by
    simp [CFirewallRule.applies, and_assoc, eq_comm (a := t.protocol)]
  rw [hfields, hip]
  constructor
  · rintro ⟨he, hd, hp, hr, hmin, hmax⟩
    exact ⟨he, hd, hp, hr, hmin, hmax⟩
  · intro h
    exact ⟨h.enabled, h.direction, h.protocol, h.remoteIp, h.portMin, h.portMax⟩

/-- The packet goes on: success, and no flow is installed that drops. -/
def LetsThrough (result : INT4 × List FirewallFlowMod) : Prop :=
  result.1 = BNC_OK ∧ ∀ fm ∈ result.2, fm.mod.entry.instructions ≠ .output OFPP13_TABLE

theorem not_letsThrough_err : ¬ LetsThrough (BNC_ERR, []) := by
  rintro ⟨h, -⟩
  revert h
  decide

theorem letsThrough_ok : LetsThrough (BNC_OK, []) := ⟨rfl, fun _ h => absurd h List.not_mem_nil⟩

namespace CFirewallPolicy

variable {env : FirewallLookups} {s : CFirewallPolicy} {mac : HostMac} {srcIP dstIP : UINT4} {protocol : UINT1}
  {srcPort dstPort priority : UINT2} {accept : Bool}

/-- The controller can install the flows of a rule for a range of ports, and none of them drops. -/
def EphemeralPasses (env : FirewallLookups) (mac : HostMac) (innerIp : TrackedHost → UINT4) (accept : Bool) : Prop :=
  ¬ (env.slave ∨ mac = []) ∧ ∃ host, env.findHostByMac mac = some host ∧
    ∃ extSw, env.externalSwitch (innerIp host) = some extSw ∧
      (accept ∨ env.takesFlows host.sw = false ∧ env.takesFlows extSw = false)

/-- What becomes of a packet whose first rule is this one. -/
def Passes (env : FirewallLookups) (mac : HostMac) (innerIp : TrackedHost → UINT4) (r : CFirewallRule) : Prop :=
  r.m_portMin = r.m_portMax ∨ r.m_portMax = 65535 ∧ r.m_portMin ≤ 1 ∨
    EphemeralPasses env mac innerIp (r.m_action = .FIREWALL_ACTION_ACCEPT)

theorem qosTarget_ne (table_id : UINT1) (accept : Bool) :
    CFlowMgr.qosTarget table_id accept ≠ .output OFPP13_TABLE ↔ accept := by
  cases accept <;> simp [CFlowMgr.qosTarget]

theorem installEphemeral_spares (takesFlows : UINT8 → Bool) (table_id qos_table_id : UINT1) (sw : UINT8)
    (srcIP dstIP : UINT4) (srcPort dstPort priority : UINT2) (accept : Bool)
    (hp : protocol = IPPROTO_TCP ∨ protocol = IPPROTO_UDP) :
    (∀ fm ∈ CFlowMgr.installEphemeral takesFlows table_id qos_table_id sw srcIP dstIP protocol srcPort dstPort priority
      accept, fm.mod.entry.instructions ≠ .output OFPP13_TABLE) ↔ accept ∨ takesFlows sw = false := by
  obtain ⟨m, hm⟩ : ∃ m, CFlowMgr.ephemeralMatch srcIP dstIP protocol srcPort dstPort = some m := by
    rcases hp with rfl | rfl <;> exact ⟨_, rfl⟩
  rw [CFlowMgr.installEphemeral, hm]
  simp only [CFlowMgr.install_fabric_flows]
  cases h : takesFlows sw with
  | false => simp
  | true => simpa using qosTarget_ne qos_table_id accept

/-- Flows for two switches, the second of which is left out where it is the first. -/
theorem letsThrough_both {takesFlows : UINT8 → Bool} {first second : UINT8} {l l' : List FirewallFlowMod} {c : Prop}
    [Decidable c] (hc : ¬ c → first = second)
    (hl : (∀ fm ∈ l, fm.mod.entry.instructions ≠ .output OFPP13_TABLE) ↔ accept ∨ takesFlows first = false)
    (hl' : (∀ fm ∈ l', fm.mod.entry.instructions ≠ .output OFPP13_TABLE) ↔ accept ∨ takesFlows second = false) :
    LetsThrough (BNC_OK, l ++ if c then l' else []) ↔
      accept ∨ takesFlows first = false ∧ takesFlows second = false := by
  have hok : ∀ mods, LetsThrough (BNC_OK, mods) ↔ ∀ fm ∈ mods, fm.mod.entry.instructions ≠ .output OFPP13_TABLE :=
    fun mods => and_iff_right rfl
  rw [hok, List.forall_mem_append, hl]
  split_ifs with h
  · rw [hl', or_and_left]
  · simp [hc h]

theorem letsThrough_out (hp : protocol = IPPROTO_TCP ∨ protocol = IPPROTO_UDP) :
    LetsThrough (installFirewallOutEphemeralFlow env mac srcIP dstIP protocol srcPort dstPort priority accept) ↔
      EphemeralPasses env mac (fun _ => srcIP) accept := by
  rw [installFirewallOutEphemeralFlow, EphemeralPasses]
  split_ifs with hslave
  · exact iff_of_false not_letsThrough_err fun h => h.1 hslave
  · cases hhost : env.findHostByMac mac with
    | none => exact iff_of_false not_letsThrough_err (by simp)
    | some host =>
      cases hext : env.externalSwitch srcIP with
      | none => exact iff_of_false not_letsThrough_err (by simp)
      | some extSw =>
        simp only [hslave, not_false_iff, true_and, Option.some.injEq, exists_eq_left']
        apply letsThrough_both
        · exact not_not.mp
        · exact installEphemeral_spares _ _ _ _ _ _ _ _ _ _ hp
        · exact installEphemeral_spares _ _ _ _ _ _ _ _ _ _ hp

theorem letsThrough_in (hp : protocol = IPPROTO_TCP ∨ protocol = IPPROTO_UDP) :
    LetsThrough (installFirewallInEphemeralFlow env mac srcIP dstIP protocol srcPort dstPort priority accept) ↔
      EphemeralPasses env mac TrackedHost.fixIp accept := by
  rw [installFirewallInEphemeralFlow, EphemeralPasses]
  split_ifs with hslave
  · exact iff_of_false not_letsThrough_err fun h => h.1 hslave
  · cases hhost : env.findHostByMac mac with
    | none => exact iff_of_false not_letsThrough_err (by simp)
    | some host =>
      simp only [hslave, not_false_iff, true_and, Option.some.injEq, exists_eq_left']
      cases hext : env.externalSwitch host.fixIp with
      | none => exact iff_of_false not_letsThrough_err (by simp)
      | some extSw =>
        simp only [Option.some.injEq, exists_eq_left']
        rw [and_comm (a := env.takesFlows host.sw = false)]
        apply letsThrough_both
        · exact fun h => (not_not.mp h).symm
        · exact installEphemeral_spares _ _ _ _ _ _ _ _ _ _ hp
        · exact installEphemeral_spares _ _ _ _ _ _ _ _ _ _ hp

/-- The first rule that applies in the walk decides. -/
theorem letsThrough_applyFirst {walk : List (UINT4 × CFWRuleList)} {t : FirewallTraffic}
    {install : UINT2 → Bool → INT4 × List FirewallFlowMod} {innerIp : TrackedHost → UINT4}
    (hinstall : ∀ priority accept, LetsThrough (install priority accept) ↔ EphemeralPasses env mac innerIp accept) :
    LetsThrough (applyFirst walk t install) ↔
      ∃ r, (walk.findSome? fun e => e.2.toList.find? (·.applies t)) = some r ∧ Passes env mac innerIp r := by
  rw [applyFirst]
  cases walk.findSome? fun e => e.2.toList.find? (·.applies t) with
  | none => exact iff_of_false not_letsThrough_err (by simp)
  | some r =>
    simp only [Option.some.injEq, exists_eq_left', Passes]
    split_ifs with hport hfull
    · exact iff_of_true letsThrough_ok (.inl hport)
    · exact iff_of_true letsThrough_ok (.inr (.inl hfull))
    · rw [hinstall]
      simp only [hport, hfull, false_or]

/-- The first applicable rule of each list has the effect of the matching rule of highest priority. -/
def FirstsAgree (env : FirewallLookups) (s : CFirewallPolicy) (mac : HostMac) (innerIp : TrackedHost → UINT4)
    (t : FirewallTraffic) : Prop :=
  ∀ e ∈ s.m_policy mac, ∀ r, e.2.toList.find? (·.applies t) = some r →
    (Passes env mac innerIp r ↔ t.Allowed (s.enforced mac))

theorem exists_applies {t : FirewallTraffic} (hr : HostRules (s.enforced mac)) (ha : t.Allowed (s.enforced mac)) :
    ∃ e ∈ s.m_policy mac, ∃ r, e.2.toList.find? (·.applies t) = some r := by
  obtain ⟨r, hmem, hmatch, -⟩ := ha
  obtain ⟨e, he, hre⟩ := List.mem_flatMap.mp hmem
  refine ⟨e, he, Option.isSome_iff_exists.mp ?_⟩
  rw [List.find?_isSome]
  exact ⟨r, hre, (applies_iff (hr.masks r hmem) (hr.networks r hmem)).mpr hmatch⟩

/-- Any list of the map can come first in its walk. -/
theorem first_passes_iff {t : FirewallTraffic} {innerIp : TrackedHost → UINT4} (hr : HostRules (s.enforced mac)) :
    (∀ walk : List (UINT4 × CFWRuleList), walk.Perm (s.m_policy mac).toList →
      ((∃ r, (walk.findSome? fun e => e.2.toList.find? (·.applies t)) = some r ∧ Passes env mac innerIp r) ↔
        t.Allowed (s.enforced mac))) ↔ FirstsAgree env s mac innerIp t := by
  constructor
  · intro h e he r hfind
    obtain ⟨l₁, l₂, hl⟩ := List.append_of_mem he
    have hperm : (e :: (l₁ ++ l₂)).Perm (s.m_policy mac).toList := hl ▸ List.perm_middle.symm
    rw [← h _ hperm, List.findSome?_cons_of_isSome]
    · simp [hfind]
    · simp [hfind]
  · intro h walk hw
    constructor
    · rintro ⟨r, hfind, hpass⟩
      obtain ⟨e, he, hfirst⟩ := List.exists_of_findSome?_eq_some hfind
      exact (h e (hw.mem_iff.mp he) r hfirst).mp hpass
    · intro ha
      obtain ⟨e, he, r, hr⟩ := exists_applies hr ha
      obtain ⟨r, hfind⟩ : ∃ r, (walk.findSome? fun e => e.2.toList.find? (·.applies t)) = some r := by
        rw [← Option.isSome_iff_exists, List.findSome?_isSome_iff]
        exact ⟨e, hw.mem_iff.mpr he, by rw [hr]; rfl⟩
      obtain ⟨e', he', hfirst⟩ := List.exists_of_findSome?_eq_some hfind
      exact ⟨r, hfind, (h e' (hw.mem_iff.mp he') r hfirst).mpr ha⟩

/-- Whatever the iteration order, packets are let through as the matching rule of highest priority says iff the first
applicable rule of every list does. -/
theorem verdict_iff (env : FirewallLookups) (s : CFirewallPolicy) (mac : HostMac) (srcIp dstIp : UINT4)
    (protocol : UINT1) (srcPort dstPort : UINT2) (hp : protocol = IPPROTO_TCP ∨ protocol = IPPROTO_UDP)
      (hr : HostRules (s.enforced mac)) :
    ((∀ walk, walk.Perm (s.m_policy mac).toList →
        (LetsThrough (applyOut env walk mac srcIp dstIp protocol srcPort dstPort) ↔
          FirewallTraffic.Allowed ⟨.FIREWALL_DIRECTION_OUT, protocol, dstIp, srcPort⟩ (s.enforced mac))) ↔
      FirstsAgree env s mac (fun _ => srcIp) ⟨.FIREWALL_DIRECTION_OUT, protocol, dstIp, srcPort⟩) ∧
    ∀ innerIp innerPort, innerAddress env dstIp dstPort protocol = (innerIp, innerPort) → innerIp ≠ 0 →
      env.findHostByIp innerIp = some mac →
      ((∀ walk, (∀ mac, (walk mac).Perm (s.m_policy mac).toList) →
          (LetsThrough (applyIn env walk srcIp dstIp protocol srcPort dstPort) ↔
            FirewallTraffic.Allowed ⟨.FIREWALL_DIRECTION_IN, protocol, srcIp, innerPort⟩ (s.enforced mac))) ↔
        FirstsAgree env s mac TrackedHost.fixIp ⟨.FIREWALL_DIRECTION_IN, protocol, srcIp, innerPort⟩) := by
  constructor
  · rw [← first_passes_iff hr]
    simp only [applyOut, letsThrough_applyFirst fun priority accept => letsThrough_out hp]
  · intro innerIp innerPort hinner hne hhost
    have hin : ∀ walk, LetsThrough (applyIn env walk srcIp dstIp protocol srcPort dstPort) ↔
        ∃ r, ((walk mac).findSome? fun e => e.2.toList.find?
          (·.applies ⟨.FIREWALL_DIRECTION_IN, protocol, srcIp, innerPort⟩)) = some r ∧
          Passes env mac TrackedHost.fixIp r := by
      intro walk
      simp only [applyIn, hinner, if_neg hne, hhost]
      exact letsThrough_applyFirst fun priority accept => letsThrough_in hp
    rw [← first_passes_iff hr]
    simp only [hin]
    constructor
    · intro h walk hw
      have hwalk : ∀ mac', (Function.update (fun mac' => (s.m_policy mac').toList) mac walk mac').Perm
          (s.m_policy mac').toList := by
        intro mac'
        by_cases hm : mac' = mac
        · subst hm
          rwa [Function.update_self]
        · rw [Function.update_of_ne hm]
      have hiff := h _ hwalk
      rwa [Function.update_self] at hiff
    · intro h walk hw
      exact h (walk mac) (hw mac)

/-- A host behind a floating IP, with its external switch. -/
def oneHost : FirewallLookups where
  slave := false
  findHostByMac _ := some ⟨1, 0x0a000005⟩
  externalSwitch _ := some 2
  findFloatingIpNodeByfloatingIp ip := if ip = 0xc0a80005 then some 0x0a000005 else none
  checkIn _ _ _ := none
  findHostByIp ip := if ip = 0x0a000005 then some [3] else none
  takesFlows _ := true

theorem created_rules : HostRules (created.enforced [3]) := ⟨by decide, by decide, by decide⟩

theorem created_letsThrough : LetsThrough
    (applyIn oneHost (fun mac => (created.m_policy mac).toList) 0x0a000001 0xc0a80005 IPPROTO_TCP 4711 80) := by
  have hmatched : FirewallTraffic.MatchedBy ⟨.FIREWALL_DIRECTION_IN, IPPROTO_TCP, 0x0a000001, 80⟩
      (portRule 0x0a000001 80) := ⟨rfl, rfl, .inr rfl, .inr rfl, .inr (by decide), .inr (by decide)⟩
  have hallowed : FirewallTraffic.Allowed ⟨.FIREWALL_DIRECTION_IN, IPPROTO_TCP, 0x0a000001, 80⟩
      (created.enforced [3]) := by
    refine ⟨portRule 0x0a000001 80, by decide, hmatched, ?_, rfl⟩
    intro r hr _
    rw [List.mem_singleton.mp (show r ∈ [portRule 0x0a000001 80] from hr)]
    exact UInt16.le_refl _
  have hagree : FirstsAgree oneHost created [3] TrackedHost.fixIp
      ⟨.FIREWALL_DIRECTION_IN, IPPROTO_TCP, 0x0a000001, 80⟩ := by
    intro e he r hr
    refine iff_of_true (.inl ?_) hallowed
    have hmem : r ∈ created.enforced [3] := List.mem_flatMap.mpr ⟨e, he, List.mem_of_find?_eq_some hr⟩
    rw [List.mem_singleton.mp (show r ∈ [portRule 0x0a000001 80] from hmem)]
    rfl
  exact (((verdict_iff oneHost created [3] 0x0a000001 0xc0a80005 IPPROTO_TCP 4711 80 (.inl rfl) created_rules).2
    0x0a000005 80 rfl (by decide) rfl).mpr hagree _ fun _ => .refl _).mpr hallowed

def outRule (ruleId : RuleId) (remoteIp remoteIpMask : UINT4) (portMin portMax priority : UINT2)
    (action : FirewallAction) : CFirewallRule :=
  ⟨true, ruleId, [2], 6, .FIREWALL_DIRECTION_OUT, remoteIp, remoteIpMask, portMin, portMax, priority, action⟩

def overlapping : CFirewallPolicy :=
  (attached.createSecurityGroupRule (outRule [1] 0 0 1000 2000 20 .FIREWALL_ACTION_ACCEPT)).createSecurityGroupRule
    (outRule [4] 0x0a000000 8 1500 1600 10 .FIREWALL_ACTION_DROP)

/-- The drop rule comes first in the walk although the accept rule has the higher priority. -/
theorem first_match_drops : ¬ ∀ (env : FirewallLookups) (s : CFirewallPolicy) (mac : HostMac) (srcIp dstIp : UINT4)
    (protocol : UINT1) (srcPort dstPort : UINT2), (protocol = IPPROTO_TCP ∨ protocol = IPPROTO_UDP) →
    HostRules (s.enforced mac) → ∀ walk, walk.Perm (s.m_policy mac).toList →
    (LetsThrough (applyOut env walk mac srcIp dstIp protocol srcPort dstPort) ↔
      FirewallTraffic.Allowed ⟨.FIREWALL_DIRECTION_OUT, protocol, dstIp, srcPort⟩ (s.enforced mac)) := by
  intro h
  have hrules : HostRules (overlapping.enforced [3]) := ⟨by decide, by decide, by decide⟩
  have hiff := h oneHost overlapping [3] 0x0a000005 0x0a000001 IPPROTO_TCP 1550 80 (.inl rfl) hrules
    (overlapping.m_policy [3]).toList.reverse (List.reverse_perm _)
  have hallowed : FirewallTraffic.Allowed ⟨.FIREWALL_DIRECTION_OUT, IPPROTO_TCP, 0x0a000001, 1550⟩
      (overlapping.enforced [3]) := by
    refine ⟨outRule [1] 0 0 1000 2000 20 .FIREWALL_ACTION_ACCEPT, by decide,
      ⟨rfl, rfl, .inr rfl, .inl rfl, .inr (by decide), .inr (by decide)⟩, ?_, rfl⟩
    have hhighest : ∀ r ∈ overlapping.enforced [3], r.m_priority ≤ 20 := by decide
    exact fun r hr _ => hhighest r hr
  obtain ⟨-, hspared⟩ := hiff.mpr hallowed
  revert hspared
  decide +kernel

end CFirewallPolicy

end DCFabric
