import DCFabric.ControllerLists
import DCFabric.Resync
import DCFabric.TlvStreams
import DCFabric.TransitionRuns

namespace DCFabric

open ListUpdates Resync TlvStreams TransitionRuns

structure COpenstackNetwork where
  m_strId : List UINT1
  m_strTenantId : List UINT1
  m_bRouterExternal : Bool
  m_bShared : Bool
  m_liSubnets : List (List UINT1)
deriving DecidableEq

def COpenstackNetwork.Compare (this network : COpenstackNetwork) : Bool :=
  network.m_strId = this.m_strId && network.m_strTenantId = this.m_strTenantId &&
    network.m_bRouterExternal = this.m_bRouterExternal && network.m_bShared = this.m_bShared

structure COpenstackSubnet where
  m_strId : List UINT1
  m_strTenantId : List UINT1
  m_strNetworkId : List UINT1
  m_strCidr : List UINT1
  m_strGatewayIp : List UINT1
  m_strStart : List UINT1
  m_strEnd : List UINT1
deriving DecidableEq

def COpenstackSubnet.Compare (this subnet : COpenstackSubnet) : Bool :=
  subnet.m_strId = this.m_strId && subnet.m_strNetworkId = this.m_strNetworkId &&
    subnet.m_strTenantId = this.m_strTenantId && subnet.m_strGatewayIp = this.m_strGatewayIp &&
    subnet.m_strStart = this.m_strStart && subnet.m_strEnd = this.m_strEnd

structure Base_Network where
  ID : List UINT1
  tenant_ID : List UINT1
  status : UINT1
  router_external : UINT1
  shared : UINT1
  subnets : List (List UINT1)
deriving DecidableEq

structure IP_pool where
  IP_start : UINT4
  IP_end : UINT4
deriving DecidableEq

structure Base_Subnet where
  ID : List UINT1
  tenant_ID : List UINT1
  network_ID : List UINT1
  cidr : List UINT1
  gateway_IP : UINT4
  status : UINT1
  allocation_pools : List IP_pool
deriving DecidableEq

/-- Without what is learned about the gateway. -/
structure Networking.Base_External where
  network_ID : List UINT1
  subnet_ID : List UINT1
  gateway_IP : UINT4
deriving DecidableEq

/-- The lists of `BaseNetworkMgr`, `BaseSubnetMgr` and `BaseExternalMgr`, each from the front. The networks and the
subnets are with their addresses. -/
structure Networking where
  networks : List (ℕ × Base_Network)
  subnets : List (ℕ × Base_Subnet)
  externals : List Networking.Base_External
deriving DecidableEq

/-- The events that `NetworkingEventConsumer` has work for, with the object that comes with each: a new one is handed over
at an address, one to be deleted is given by its address. -/
inductive NetworkingEvent where
  | network_C (p : ℕ) (network : Base_Network)
  | network_U (network : Base_Network)
  | network_D (p : ℕ)
  | subnet_C (p : ℕ) (subnet : Base_Subnet)
  | subnet_U (subnet : Base_Subnet)
  | subnet_D (p : ℕ)
deriving DecidableEq

/-- The lists that are emptied and filled again by an update are read from the back and written to the front. -/
def rewritten {α : Type} [DecidableEq α] (target updated : List α) : List α :=
  updated.reverse.foldl (fun l x => x :: l) (target.reverse.foldl (fun l x => l.filter (· ≠ x)) target)

def Base_Network.update (target updated : Base_Network) : Base_Network :=
  { target with
    status := updated.status
    shared := updated.shared
    router_external := updated.router_external
    subnets := rewritten target.subnets updated.subnets }

def Base_Subnet.update (target updated : Base_Subnet) : Base_Subnet :=
  { target with
    status := updated.status
    cidr := updated.cidr
    gateway_IP := updated.gateway_IP
    allocation_pools := rewritten target.allocation_pools updated.allocation_pools }

def BASE_NETWORK_STATUS_ACTIVE : UINT1 := 3
def BASE_SUBNET_STATUS_ACTIVE : UINT1 := 3

def BaseNetworkConventor_fromCOpenstackNetwork (network : COpenstackNetwork) : Base_Network where
  ID := network.m_strId
  tenant_ID := network.m_strTenantId
  status := BASE_NETWORK_STATUS_ACTIVE
  router_external := if network.m_bRouterExternal then 1 else 0
  shared := if network.m_bShared then 1 else 0
  subnets := network.m_liSubnets.foldl (fun l x => x :: l) []

def BaseSubnetConventor_fromCOpenstackSubnet (subnet : COpenstackSubnet) : Base_Subnet where
  ID := subnet.m_strId
  tenant_ID := subnet.m_strTenantId
  network_ID := subnet.m_strNetworkId
  cidr := subnet.m_strCidr
  gateway_IP := ip2number (cstring subnet.m_strGatewayIp)
  status := BASE_SUBNET_STATUS_ACTIVE
  allocation_pools := [⟨ip2number (cstring subnet.m_strStart), ip2number (cstring subnet.m_strEnd)⟩]

def Base_Subnet.external (subnet : Base_Subnet) : Networking.Base_External :=
  ⟨subnet.network_ID, subnet.ID, subnet.gateway_IP⟩

section

variable {α : Type} [DecidableEq α] {target updated : List α}

theorem rewritten_eq : rewritten target updated = updated := by
  have hempty (l seen : List α) (h : ∀ x ∈ l, x ∈ seen) : seen.foldl (fun l x => l.filter (· ≠ x)) l = [] := by
    induction seen generalizing l with
    | nil => exact List.eq_nil_iff_forall_not_mem.mpr fun x hx => List.not_mem_nil (h x hx)
    | cons y seen ih =>
      rw [List.foldl_cons]
      apply ih
      intro x hx
      obtain ⟨hmem, hne⟩ := List.mem_filter.mp hx
      obtain rfl | hseen := List.mem_cons.mp (h x hmem)
      · simp at hne
      · exact hseen
  rw [rewritten, hempty target _ fun x hx => List.mem_reverse.mpr hx]
  simp

end

/-- The networks, of which an update takes over whether they are external and shared. -/
def networkKind : Kind (List UINT1) COpenstackNetwork Base_Network (UINT1 × UINT1) where
  key := (·.m_strId)
  make := BaseNetworkConventor_fromCOpenstackNetwork
  keyOf := (·.ID)
  view network := (network.router_external, network.shared)
  merge := Base_Network.update
  same := COpenstackNetwork.Compare
  Fits _ _ := True
  keyOf_make _ := rfl
  keyOf_merge _ _ := rfl
  view_same a e h := by
    simp only [COpenstackNetwork.Compare, Bool.and_eq_true, decide_eq_true_eq] at h
    simp [BaseNetworkConventor_fromCOpenstackNetwork, h.1.2, h.2]
  view_merge _ _ _ _ _ := rfl

/-- The subnets, of which an update takes over the gateway and the pools. A subnet does not change its network. -/
def subnetKind : Kind (List UINT1) COpenstackSubnet Base_Subnet (List UINT1 × UINT4 × List IP_pool) where
  key := (·.m_strId)
  make := BaseSubnetConventor_fromCOpenstackSubnet
  keyOf := (·.ID)
  view subnet := (subnet.network_ID, subnet.gateway_IP, subnet.allocation_pools)
  merge := Base_Subnet.update
  same := COpenstackSubnet.Compare
  Fits old new := old.m_strNetworkId = new.m_strNetworkId
  keyOf_make _ := rfl
  keyOf_merge _ _ := rfl
  view_same a e h := by
    simp only [COpenstackSubnet.Compare, Bool.and_eq_true, decide_eq_true_eq] at h
    obtain ⟨⟨⟨⟨⟨-, hnetwork⟩, -⟩, hgateway⟩, hstart⟩, hend⟩ := h
    simp [BaseSubnetConventor_fromCOpenstackSubnet, hnetwork, hgateway, hstart, hend]
  view_merge a e b hfits hview := by
    have hnetwork : b.network_ID = e.m_strNetworkId := congrArg Prod.fst hview
    simp [Base_Subnet.update, BaseSubnetConventor_fromCOpenstackSubnet, rewritten_eq, hnetwork, hfits]

namespace Networking

def targetNetwork_ByID (b : Networking) (p_ID : List UINT1) : Option (ℕ × Base_Network) :=
  b.networks.find? (·.2.ID = p_ID)

def targetSubnet_ByID (b : Networking) (p_ID : List UINT1) : Option (ℕ × Base_Subnet) :=
  b.subnets.find? (·.2.ID = p_ID)

def targetExternal_Bysubnet_ID (b : Networking) (p_subnet_ID : List UINT1) : Option Base_External :=
  b.externals.find? (·.subnet_ID = p_subnet_ID)

def targetExternal_Bynetwork_ID (b : Networking) (p_network_ID : List UINT1) : List Base_External :=
  (b.externals.filter (·.network_ID = p_network_ID)).reverse

def deleteNode_Bynetwork_ID (b : Networking) (p_network_ID : List UINT1) : List Base_External :=
  b.externals.filter (·.network_ID ≠ p_network_ID)

/-- Whether the network is there and external. -/
def isExternal (b : Networking) (network_ID : List UINT1) : Bool :=
  (b.targetNetwork_ByID network_ID).any (·.2.router_external ≠ 0)

/-- The external that is made for a subnet of the list of a network, if one is made. -/
def createdExternal (b : Networking) (network_ID subnet_ID : List UINT1) : Option Base_External :=
  ((b.targetSubnet_ByID subnet_ID).filter (·.2.network_ID = network_ID)).map (·.2.external)

def network_U_ExternalRelatedOperation (b : Networking) (network : Base_Network) : List Base_External :=
  if b.targetExternal_Bynetwork_ID network.ID = [] then
    if network.router_external ≠ 0 then
      network.subnets.reverse.foldl (fun externals id => (b.createdExternal network.ID id).toList ++ externals) b.externals
    else b.externals
  else if network.router_external ≠ 0 then b.externals
  else b.deleteNode_Bynetwork_ID network.ID

def network_D_ExternalRelatedOperation (b : Networking) (network : Base_Network) : List Base_External :=
  if b.targetExternal_Bynetwork_ID network.ID = [] then b.externals else b.deleteNode_Bynetwork_ID network.ID

def subnet_C_ExternalRelatedOperation (b : Networking) (subnet : Base_Subnet) : List Base_External :=
  if b.isExternal subnet.network_ID then subnet.external :: b.externals else b.externals

def subnet_U_ExternalRelatedOperation (b : Networking) (subnet : Base_Subnet) : List Base_External :=
  match b.targetExternal_Bysubnet_ID subnet.ID with
  | some target =>
    if target.gateway_IP = subnet.gateway_IP then b.externals
    else
      (updateFirst (·.subnet_ID = subnet.ID) (fun x => { x with gateway_IP := subnet.gateway_IP })
        b.externals).getD b.externals
  | none => b.subnet_C_ExternalRelatedOperation subnet

def subnet_D_ExternalRelatedOperation (b : Networking) (subnet : Base_Subnet) : List Base_External :=
  b.externals.eraseP (·.subnet_ID = subnet.ID)

/-- The cases of `NetworkingEventConsumer::consume` for networks and subnets. It is undefined when the object to be
deleted is not there any more. -/
def consume (b : Networking) : NetworkingEvent → Option Networking
  | .network_C p network => some { b with networks := (p, network) :: b.networks }
  | .network_U network =>
    some { b with
      externals := b.network_U_ExternalRelatedOperation network
      networks := (updateFirst (·.2.ID = network.ID) (fun o => (o.1, o.2.update network)) b.networks).getD b.networks }
  | .network_D p =>
    (b.networks.find? (·.1 = p)).map fun o =>
      { b with
        externals := b.network_D_ExternalRelatedOperation o.2
        networks := b.networks.filter (·.1 ≠ p) }
  | .subnet_C p subnet =>
    some { b with
      externals := b.subnet_C_ExternalRelatedOperation subnet
      subnets := (p, subnet) :: b.subnets }
  | .subnet_U subnet =>
    some { b with
      externals := b.subnet_U_ExternalRelatedOperation subnet
      subnets := (updateFirst (·.2.ID = subnet.ID) (fun o => (o.1, o.2.update subnet)) b.subnets).getD b.subnets }
  | .subnet_D p =>
    (b.subnets.find? (·.1 = p)).map fun o =>
      { b with
        externals := b.subnet_D_ExternalRelatedOperation o.2
        subnets := b.subnets.filter (·.1 ≠ p) }

/-- The subnets of the external networks, as externals. -/
def externalSubnets (b : Networking) : List Base_External :=
  ((b.subnets.map Prod.snd).filter (b.isExternal ·.network_ID)).map (·.external)

/-- The events for which the externals are kept right. A new object has an address and an ID of its own. A network that
comes as an external one has no subnet yet, and one that is made external lists all its subnets. A subnet stays in its
network. -/
def Admissible (b : Networking) : NetworkingEvent → Prop
  | .network_C p network =>
    p ∉ b.networks.map Prod.fst ∧ b.targetNetwork_ByID network.ID = none ∧
      (network.router_external ≠ 0 → ∀ o ∈ b.subnets, o.2.network_ID ≠ network.ID)
  | .network_U network =>
    ∃ old ∈ b.targetNetwork_ByID network.ID, network.router_external ≠ 0 → old.2.router_external = 0 →
      network.subnets.Nodup ∧ ∀ o ∈ b.subnets, o.2.network_ID = network.ID → o.2.ID ∈ network.subnets
  | .subnet_C p subnet => p ∉ b.subnets.map Prod.fst ∧ b.targetSubnet_ByID subnet.ID = none
  | .subnet_U subnet => ∃ old ∈ b.targetSubnet_ByID subnet.ID, old.2.network_ID = subnet.network_ID
  | .network_D _ | .subnet_D _ => True

instance (b : Networking) (event : NetworkingEvent) : Decidable (b.Admissible event) := by
  cases event <;> unfold Admissible <;> infer_instance

structure Exact (b : Networking) : Prop where
  networks : networkKind.Keyed b.networks
  subnets : subnetKind.Keyed b.subnets
  externals : b.externals.Perm b.externalSubnets

variable {b b' : Networking} {event : NetworkingEvent} {network : Base_Network} {subnet : Base_Subnet}
  {id : List UINT1} {o : ℕ × Base_Subnet}

theorem Exact.mem_externals (h : b.Exact) {x : Base_External} :
    x ∈ b.externals ↔ ∃ o ∈ b.subnets, b.isExternal o.2.network_ID ∧ o.2.external = x := by
  rw [h.externals.mem_iff]
  simp only [externalSubnets, List.mem_map, List.mem_filter]
  constructor
  · rintro ⟨_, ⟨⟨o, ho, rfl⟩, hext⟩, rfl⟩
    exact ⟨o, ho, hext, rfl⟩
  · rintro ⟨o, ho, hext, rfl⟩
    exact ⟨o.2, ⟨⟨o, ho, rfl⟩, hext⟩, rfl⟩

theorem Exact.externals_of_network (h : b.Exact) :
    b.targetExternal_Bynetwork_ID id = [] ↔ ∀ o ∈ b.subnets, o.2.network_ID = id → b.isExternal id = false := by
  rw [targetExternal_Bynetwork_ID, List.reverse_eq_nil_iff, List.filter_eq_nil_iff]
  constructor
  · intro hnone o ho hid
    by_contra hext
    rw [Bool.not_eq_false, ← hid] at hext
    have hmem := h.mem_externals.mpr ⟨o, ho, hext, rfl⟩
    exact hnone _ hmem (decide_eq_true hid)
  · intro hnone x hx
    obtain ⟨o, ho, hext, rfl⟩ := h.mem_externals.mp hx
    rw [decide_eq_true_eq]
    intro hid
    have hid' : o.2.network_ID = id := hid
    rw [hid', hnone o ho hid'] at hext
    cases hext

theorem isExternal_eq : b.isExternal id = (networkKind.shown b.networks id).any (·.1 ≠ 0) := by
  rw [isExternal, Kind.shown, Option.any_map]
  rfl

theorem externalSubnets_congr (hsubnets : b'.subnets = b.subnets)
    (h : ∀ o ∈ b.subnets, b'.isExternal o.2.network_ID = b.isExternal o.2.network_ID) :
    b'.externalSubnets = b.externalSubnets := by
  unfold externalSubnets
  rw [hsubnets]
  congr 1
  apply List.filter_congr
  intro subnet hsubnet
  obtain ⟨o, ho, rfl⟩ := List.mem_map.mp hsubnet
  exact h o ho

theorem targetNetwork_none : b.targetNetwork_ByID id = none ↔ ∀ o ∈ b.networks, o.2.ID ≠ id := by
  simp [targetNetwork_ByID]

theorem isExternal_of_none (h : b.targetNetwork_ByID id = none) : b.isExternal id = false := by
  rw [isExternal, h]
  rfl

theorem Exact.network_C {p : ℕ} (h : b.Exact) (hadmissible : b.Admissible (.network_C p network)) :
    Exact { b with networks := (p, network) :: b.networks } := by
  obtain ⟨hp, hnone, hsubnets⟩ := hadmissible
  refine ⟨h.networks.create hp (targetNetwork_none.mp hnone), h.subnets, ?_⟩
  have hsame : externalSubnets { b with networks := (p, network) :: b.networks } = b.externalSubnets := by
    refine externalSubnets_congr ?_ ?_
    · rfl
    intro o ho
    rw [isExternal_eq, isExternal_eq, Kind.shown_create]
    split_ifs with hid
    · have hid' : network.ID = o.2.network_ID := hid
      have hinternal : network.router_external = 0 := by
        by_contra hext
        exact hsubnets hext o ho hid'.symm
      have hbefore := isExternal_of_none hnone
      rw [isExternal_eq, hid'] at hbefore
      rw [hbefore]
      simp [networkKind, hinternal]
    · rfl
  rw [hsame]
  exact h.externals

theorem Exact.isExternal_update (h : b.Exact) {old : ℕ × Base_Network} (hold : old ∈ b.targetNetwork_ByID network.ID)
    (hnetworks : b'.networks = networkKind.updated b.networks network) :
    b'.isExternal id = if network.ID = id then decide (network.router_external ≠ 0) else b.isExternal id := by
  obtain ⟨hmem, hkey⟩ := (Kind.object_eq_some h.networks).mp hold
  rw [isExternal_eq, isExternal_eq, hnetworks, h.networks.shown_update hmem hkey]
  by_cases hid : network.ID = id
  · have hid' : networkKind.keyOf network = id := hid
    rw [if_pos hid', if_pos hid]
    rfl
  · have hid' : ¬ networkKind.keyOf network = id := hid
    rw [if_neg hid', if_neg hid]

theorem Exact.isExternal_remove (h : b.Exact) {o : ℕ × Base_Network} (ho : o ∈ b.networks)
    (hnetworks : b'.networks = b.networks.filter (·.1 ≠ o.1)) :
    b'.isExternal id = if o.2.ID = id then false else b.isExternal id := by
  rw [isExternal_eq, isExternal_eq, hnetworks, h.networks.shown_remove ho]
  by_cases hid : o.2.ID = id
  · have hid' : networkKind.keyOf o.2 = id := hid
    rw [if_pos hid', if_pos hid]
    rfl
  · have hid' : ¬ networkKind.keyOf o.2 = id := hid
    rw [if_neg hid', if_neg hid]

/-- The externals of a network go when the network is no longer external. -/
theorem Exact.without_network (h : b.Exact) (hsubnets : b'.subnets = b.subnets)
    (hexternal : ∀ id', b'.isExternal id' = if id = id' then false else b.isExternal id') :
    (b.deleteNode_Bynetwork_ID id).Perm b'.externalSubnets := by
  have hfilter : b'.externalSubnets = b.externalSubnets.filter (·.network_ID ≠ id) := by
    unfold externalSubnets
    rw [hsubnets]
    generalize b.subnets.map Prod.snd = subnets
    rw [List.filter_map, List.filter_filter]
    congr 1
    apply List.filter_congr
    intro subnet _
    rw [hexternal]
    by_cases hid : id = subnet.network_ID
    · simp [Base_Subnet.external, hid]
    · simp [Base_Subnet.external, hid, Ne.symm hid]
  rw [hfilter]
  exact h.externals.filter _

/-- The externals of a network come when it is made external. -/
theorem externalSubnets_with_network (hsubnets : b'.subnets = b.subnets)
    (hbefore : ∀ o ∈ b.subnets, o.2.network_ID = id → b.isExternal id = false)
    (hexternal : ∀ id', b'.isExternal id' = if id = id' then true else b.isExternal id') :
    b'.externalSubnets.Perm
      (((b.subnets.map Prod.snd).filter (·.network_ID = id)).map (·.external) ++ b.externalSubnets) := by
  unfold externalSubnets
  rw [hsubnets, ← List.map_append]
  apply List.Perm.map
  have hof : ((b.subnets.map Prod.snd).filter (b'.isExternal ·.network_ID)).filter (·.network_ID = id) =
      (b.subnets.map Prod.snd).filter (·.network_ID = id) := by
    rw [List.filter_filter]
    apply List.filter_congr
    intro subnet _
    rw [hexternal]
    by_cases hid : id = subnet.network_ID
    · simp [hid]
    · simp [Ne.symm hid]
  have hothers : ((b.subnets.map Prod.snd).filter (b'.isExternal ·.network_ID)).filter (fun subnet => !decide (subnet.network_ID = id)) =
      (b.subnets.map Prod.snd).filter (b.isExternal ·.network_ID) := by
    rw [List.filter_filter]
    apply List.filter_congr
    intro subnet hsubnet
    obtain ⟨o, ho, rfl⟩ := List.mem_map.mp hsubnet
    rw [hexternal]
    by_cases hid : id = o.2.network_ID
    · have hfalse := hbefore o ho hid.symm
      rw [hid] at hfalse
      simp [hid, hfalse]
    · simp [hid, Ne.symm hid]
  rw [← hof, ← hothers]
  exact (List.filter_append_perm _ _).symm

theorem createdExternal_eq_some (h : b.Exact) {network_ID : List UINT1} {x : Base_External} :
    b.createdExternal network_ID id = some x ↔
      ∃ o ∈ b.subnets, o.2.ID = id ∧ o.2.network_ID = network_ID ∧ o.2.external = x := by
  rw [createdExternal, Option.map_eq_some_iff]
  constructor
  · rintro ⟨o, ho, rfl⟩
    obtain ⟨htarget, hnetwork⟩ := Option.filter_eq_some_iff.mp ho
    obtain ⟨hmem, hkey⟩ := (Kind.object_eq_some h.subnets).mp htarget
    exact ⟨o, hmem, hkey, of_decide_eq_true hnetwork, rfl⟩
  · rintro ⟨o, ho, rfl, hnetwork, rfl⟩
    have htarget : b.targetSubnet_ByID o.2.ID = some o := (Kind.object_eq_some h.subnets).mpr ⟨ho, rfl⟩
    exact ⟨o, Option.filter_eq_some_iff.mpr ⟨htarget, decide_eq_true hnetwork⟩, rfl⟩

/-- A network that lists its subnets gets the externals of these. -/
theorem Exact.created (h : b.Exact) (hnodup : network.subnets.Nodup)
    (hlisted : ∀ o ∈ b.subnets, o.2.network_ID = network.ID → o.2.ID ∈ network.subnets) :
    (network.subnets.filterMap (b.createdExternal network.ID)).Perm
      (((b.subnets.map Prod.snd).filter (·.network_ID = network.ID)).map (·.external)) := by
  apply (List.perm_ext_iff_of_nodup ?_ ?_).mpr
  · intro x
    simp only [List.mem_filterMap, createdExternal_eq_some h, List.mem_map, List.mem_filter, decide_eq_true_eq]
    constructor
    · rintro ⟨_, -, o, ho, rfl, hnetwork, rfl⟩
      exact ⟨o.2, ⟨⟨o, ho, rfl⟩, hnetwork⟩, rfl⟩
    · rintro ⟨_, ⟨⟨o, ho, rfl⟩, hnetwork⟩, rfl⟩
      exact ⟨o.2.ID, hlisted o ho hnetwork, o, ho, rfl, hnetwork, rfl⟩
  · apply hnodup.filterMap
    intro id id' x hx hx'
    obtain ⟨o, -, rfl, -, rfl⟩ := (createdExternal_eq_some h).mp hx
    obtain ⟨o', -, rfl, -, heq⟩ := (createdExternal_eq_some h).mp hx'
    exact (congrArg Base_External.subnet_ID heq).symm
  · have hIDs : (((b.subnets.map Prod.snd).filter (·.network_ID = network.ID)).map (·.ID)).Nodup := by
      have hkeys : ((b.subnets.map Prod.snd).map (·.ID)).Nodup := by
        rw [List.map_map]
        exact h.subnets.keys
      exact hkeys.sublist (List.filter_sublist.map _)
    apply List.Nodup.of_map (·.subnet_ID)
    rw [List.map_map]
    exact hIDs

theorem foldl_created {α β : Type} (f : α → Option β) (l : List α) (acc : List β) :
    l.reverse.foldl (fun acc a => (f a).toList ++ acc) acc = l.filterMap f ++ acc := by
  induction l with
  | nil => rfl
  | cons a l ih =>
    rw [List.reverse_cons, List.foldl_append, ih]
    cases h : f a <;> simp [h]

theorem Exact.network_U (h : b.Exact) (hadmissible : b.Admissible (.network_U network))
    (hb : b.consume (.network_U network) = some b') : b'.Exact := by
  obtain ⟨old, hold, hlisted⟩ := hadmissible
  obtain rfl := Option.some.inj hb
  have hnetworks := Option.some.inj (h.networks.apply_update (b := network))
  refine ⟨?_, h.subnets, ?_⟩
  · exact hnetworks ▸ h.networks.update
  dsimp only
  generalize hb' : Networking.mk _ b.subnets _ = b'
  have hsubnets : b'.subnets = b.subnets := by rw [← hb']
  have hexternal (id : List UINT1) : b'.isExternal id =
      if network.ID = id then decide (network.router_external ≠ 0) else b.isExternal id := by
    apply h.isExternal_update hold
    rw [← hb']
    exact hnetworks
  unfold network_U_ExternalRelatedOperation
  split_ifs with hnone hext hext
  · have hbefore := h.externals_of_network.mp hnone
    have hcreated : (network.subnets.filterMap (b.createdExternal network.ID)).Perm
        (((b.subnets.map Prod.snd).filter (·.network_ID = network.ID)).map (·.external)) := by
      by_cases hold0 : old.2.router_external = 0
      · obtain ⟨hnodup, hcover⟩ := hlisted hext hold0
        exact h.created hnodup hcover
      · have hwas : b.isExternal network.ID = true := by
          rw [isExternal, Option.mem_def.mp hold, Option.any_some]
          exact decide_eq_true hold0
        have hno : ∀ o ∈ b.subnets, o.2.network_ID ≠ network.ID := by
          intro o ho hid
          rw [hbefore o ho hid] at hwas
          cases hwas
        have hleft : network.subnets.filterMap (b.createdExternal network.ID) = [] := by
          rw [List.filterMap_eq_nil_iff]
          intro id _
          cases hx : b.createdExternal network.ID id with
          | none => rfl
          | some x =>
            obtain ⟨o, ho, -, hid, -⟩ := (createdExternal_eq_some h).mp hx
            exact absurd hid (hno o ho)
        have hright : (b.subnets.map Prod.snd).filter (·.network_ID = network.ID) = [] := by
          rw [List.filter_eq_nil_iff]
          intro subnet hsubnet
          obtain ⟨o, ho, rfl⟩ := List.mem_map.mp hsubnet
          simpa using hno o ho
        rw [hleft, hright]
        rfl
    rw [foldl_created]
    refine (hcreated.append h.externals).trans (externalSubnets_with_network hsubnets hbefore ?_).symm
    intro id
    rw [hexternal, decide_eq_true hext]
  · have hbefore := h.externals_of_network.mp hnone
    rw [externalSubnets_congr hsubnets]
    · exact h.externals
    intro o ho
    rw [hexternal]
    split_ifs with hid
    · rw [decide_eq_false hext, ← hid, hbefore o ho hid.symm]
    · rfl
  · have hwas : b.isExternal network.ID = true := by
      by_contra hwas
      exact hnone (h.externals_of_network.mpr fun _ _ _ => Bool.eq_false_of_not_eq_true hwas)
    rw [externalSubnets_congr hsubnets]
    · exact h.externals
    intro o _
    rw [hexternal]
    split_ifs with hid
    · rw [decide_eq_true hext, ← hid, hwas]
    · rfl
  · apply h.without_network hsubnets
    intro id
    rw [hexternal, decide_eq_false hext]

theorem Exact.network_D {p : ℕ} (h : b.Exact) (hb : b.consume (.network_D p) = some b') : b'.Exact := by
  obtain ⟨o, ho, rfl⟩ := Option.map_eq_some_iff.mp hb
  have hmem := List.mem_of_find?_eq_some ho
  have hp : o.1 = p := by simpa using List.find?_some ho
  refine ⟨h.networks.filter _, h.subnets, ?_⟩
  dsimp only
  generalize hb' : Networking.mk _ b.subnets _ = b'
  have hsubnets : b'.subnets = b.subnets := by rw [← hb']
  have hexternal (id : List UINT1) : b'.isExternal id = if o.2.ID = id then false else b.isExternal id := by
    apply h.isExternal_remove hmem
    rw [← hb', hp]
  have hwithout := h.without_network hsubnets hexternal
  unfold network_D_ExternalRelatedOperation
  split_ifs with hnone
  · have hall : b.deleteNode_Bynetwork_ID o.2.ID = b.externals := by
      rw [targetExternal_Bynetwork_ID, List.reverse_eq_nil_iff, List.filter_eq_nil_iff] at hnone
      exact List.filter_eq_self.mpr fun x hx => by simpa using hnone x hx
    rw [← hall]
    exact hwithout
  · exact hwithout

theorem externalSubnets_cons {p : ℕ} : externalSubnets { b with subnets := (p, subnet) :: b.subnets } =
    if b.isExternal subnet.network_ID then subnet.external :: b.externalSubnets else b.externalSubnets := by
  have hsame (id : List UINT1) : isExternal { b with subnets := (p, subnet) :: b.subnets } id = b.isExternal id := rfl
  simp only [externalSubnets, hsame, List.map_cons, List.filter_cons]
  split_ifs <;> rfl

theorem targetSubnet_none : b.targetSubnet_ByID id = none ↔ ∀ o ∈ b.subnets, o.2.ID ≠ id := by
  simp [targetSubnet_ByID]

theorem Exact.subnet_C {p : ℕ} (h : b.Exact) (hadmissible : b.Admissible (.subnet_C p subnet))
    (hb : b.consume (.subnet_C p subnet) = some b') : b'.Exact := by
  obtain ⟨hp, hnone⟩ := hadmissible
  obtain rfl := Option.some.inj hb
  refine ⟨h.networks, h.subnets.create hp (targetSubnet_none.mp hnone), ?_⟩
  have hcons : externalSubnets { b with subnets := (p, subnet) :: b.subnets } = _ := externalSubnets_cons
  have hsame : externalSubnets { b with
      externals := b.subnet_C_ExternalRelatedOperation subnet, subnets := (p, subnet) :: b.subnets } =
      externalSubnets { b with subnets := (p, subnet) :: b.subnets } := rfl
  dsimp only
  rw [hsame, hcons, subnet_C_ExternalRelatedOperation]
  split_ifs
  · exact h.externals.cons _
  · exact h.externals

theorem Exact.external_IDs (h : b.Exact) : (b.externals.map (·.subnet_ID)).Nodup := by
  apply (h.externals.map (·.subnet_ID)).nodup_iff.mpr
  have hkeys : ((b.subnets.map Prod.snd).map (·.ID)).Nodup := by
    rw [List.map_map]
    exact h.subnets.keys
  rw [externalSubnets, List.map_map]
  exact hkeys.sublist (List.filter_sublist.map _)

theorem Exact.external_unique (h : b.Exact) {id : List UINT1} : b.externals.Pairwise fun x y =>
    ¬ (decide (x.subnet_ID = id) = true ∧ decide (y.subnet_ID = id) = true) := by
  apply (List.pairwise_map.mp h.external_IDs).imp
  intro x y hne hboth
  simp only [decide_eq_true_eq] at hboth
  exact hne (hboth.1.trans hboth.2.symm)

def withGateway (subnet : Base_Subnet) (x : Base_External) : Base_External :=
  if x.subnet_ID = subnet.ID then { x with gateway_IP := subnet.gateway_IP } else x

theorem map_withGateway {externals : List Base_External}
    (h : ∀ x ∈ externals, x.subnet_ID = subnet.ID → x.gateway_IP = subnet.gateway_IP) :
    externals.map (withGateway subnet) = externals := by
  have hsame : ∀ x ∈ externals, withGateway subnet x = id x := by
    intro x hx
    unfold withGateway
    split_ifs with hID
    · rw [← h x hx hID]
      rfl
    · rfl
  rw [List.map_congr_left hsame, List.map_id]

/-- Whether there is a gateway to change or not, the externals show the gateway of the subnet afterwards. -/
theorem Exact.subnet_U_externals (h : b.Exact) (hadmissible : b.Admissible (.subnet_U subnet)) :
    b.subnet_U_ExternalRelatedOperation subnet = b.externals.map (withGateway subnet) := by
  obtain ⟨old, hold, hnetwork⟩ := hadmissible
  obtain ⟨ho, hkey⟩ := (Kind.object_eq_some h.subnets).mp hold
  unfold subnet_U_ExternalRelatedOperation
  cases htarget : b.targetExternal_Bysubnet_ID subnet.ID with
  | some target =>
    have hmem := List.mem_of_find?_eq_some htarget
    have hID : target.subnet_ID = subnet.ID := by simpa using List.find?_some htarget
    dsimp only
    split_ifs with hgateway
    · refine (map_withGateway ?_).symm
      intro x hx hx'
      rw [List.inj_on_of_nodup_map h.external_IDs hx hmem (hx'.trans hID.symm), hgateway]
    · rw [updateFirst_getD h.external_unique]
      apply List.map_congr_left
      intro x _
      by_cases hx : x.subnet_ID = subnet.ID <;> simp [withGateway, hx]
  | none =>
    have hnone : ∀ x ∈ b.externals, x.subnet_ID ≠ subnet.ID := by
      simpa [targetExternal_Bysubnet_ID] using htarget
    have hinternal : b.isExternal subnet.network_ID = false := by
      by_contra hext
      rw [Bool.not_eq_false, ← hnetwork] at hext
      exact hnone _ (h.mem_externals.mpr ⟨old, ho, hext, rfl⟩) hkey
    dsimp only
    rw [subnet_C_ExternalRelatedOperation, hinternal, if_neg Bool.false_ne_true, map_withGateway]
    exact fun x hx hx' => absurd hx' (hnone x hx)

theorem Exact.subnet_U (h : b.Exact) (hadmissible : b.Admissible (.subnet_U subnet))
    (hb : b.consume (.subnet_U subnet) = some b') : b'.Exact := by
  obtain rfl := Option.some.inj hb
  have hsubnets := Option.some.inj (h.subnets.apply_update (b := subnet))
  refine ⟨h.networks, hsubnets ▸ h.subnets.update, ?_⟩
  dsimp only
  rw [h.subnet_U_externals hadmissible]
  generalize hb' : Networking.mk b.networks _ _ = b'
  have hlist : b'.subnets = subnetKind.updated b.subnets subnet := by
    rw [← hb']
    exact hsubnets
  have hexternal (id : List UINT1) : b'.isExternal id = b.isExternal id := by rw [← hb']; rfl
  let f (s : Base_Subnet) : Base_Subnet := if s.ID = subnet.ID then s.update subnet else s
  have hf : b'.subnets.map Prod.snd = (b.subnets.map Prod.snd).map f := by
    rw [hlist, Kind.updated, List.map_map, List.map_map]
    apply List.map_congr_left
    intro o _
    have hkey : subnetKind.keyOf o.2 = subnetKind.keyOf subnet ↔ o.2.ID = subnet.ID := Iff.rfl
    by_cases ho : o.2.ID = subnet.ID
    · simp [f, hkey, ho]
      rfl
    · simp [f, hkey, ho]
  have hnetwork (s : Base_Subnet) : (f s).network_ID = s.network_ID := by
    by_cases hs : s.ID = subnet.ID <;> simp [f, hs, Base_Subnet.update]
  have hview (s : Base_Subnet) : (f s).external = withGateway subnet s.external := by
    by_cases hs : s.ID = subnet.ID <;> simp [f, hs, Base_Subnet.update, Base_Subnet.external, withGateway]
  have hmapped : b'.externalSubnets = b.externalSubnets.map (withGateway subnet) := by
    have hcomp : (fun s : Base_Subnet => b'.isExternal s.network_ID) ∘ f = fun s => b.isExternal s.network_ID := by
      funext s
      rw [Function.comp_apply, hnetwork, hexternal]
    have hviews : Base_Subnet.external ∘ f = withGateway subnet ∘ Base_Subnet.external := funext hview
    unfold externalSubnets
    rw [hf, List.filter_map, hcomp, List.map_map, List.map_map, hviews]
  rw [hmapped]
  exact h.externals.map _

theorem Exact.subnet_D {p : ℕ} (h : b.Exact) (hb : b.consume (.subnet_D p) = some b') : b'.Exact := by
  obtain ⟨o, ho, rfl⟩ := Option.map_eq_some_iff.mp hb
  have hmem := List.mem_of_find?_eq_some ho
  have hp : o.1 = p := by simpa using List.find?_some ho
  refine ⟨h.networks, h.subnets.filter _, ?_⟩
  dsimp only
  rw [subnet_D_ExternalRelatedOperation, eraseP_eq_filter h.external_unique]
  generalize hb' : Networking.mk b.networks _ _ = b'
  have hexternal (id : List UINT1) : b'.isExternal id = b.isExternal id := by rw [← hb']; rfl
  have hsame : ∀ o' ∈ b.subnets, decide (o'.1 = p) = true ↔ o'.2.ID = o.2.ID := by
    intro o' ho'
    rw [decide_eq_true_eq, ← hp]
    constructor
    · intro heq
      rw [List.inj_on_of_nodup_map h.subnets.objects ho' hmem heq]
    · intro heq
      rw [List.inj_on_of_nodup_map h.subnets.keys ho' hmem heq]
  have hsubnets : b'.subnets.map Prod.snd = (b.subnets.map Prod.snd).filter (¬ ·.ID = o.2.ID) := by
    rw [← hb', ← filter_map_of_iff hsame]
    simp
  have hfilter : b'.externalSubnets = b.externalSubnets.filter fun x => !decide (x.subnet_ID = o.2.ID) := by
    unfold externalSubnets
    rw [hsubnets]
    generalize b.subnets.map Prod.snd = subnets
    rw [List.filter_filter, List.filter_map, List.filter_filter]
    congr 1
    apply List.filter_congr
    intro subnet _
    rw [hexternal]
    by_cases hID : subnet.ID = o.2.ID <;> simp [Base_Subnet.external, hID]
  rw [hfilter]
  exact h.externals.filter _

theorem Exact.consume (h : b.Exact) (hadmissible : b.Admissible event) (hb : b.consume event = some b') : b'.Exact := by
  cases event with
  | network_C p network => exact Option.some.inj hb ▸ h.network_C hadmissible
  | network_U network => exact h.network_U hadmissible hb
  | network_D p => exact h.network_D hb
  | subnet_C p subnet => exact h.subnet_C hadmissible hb
  | subnet_U subnet => exact h.subnet_U hadmissible hb
  | subnet_D p => exact h.subnet_D hb

def start : Networking := ⟨[], [], []⟩

theorem exact_start : start.Exact := ⟨⟨List.nodup_nil, List.nodup_nil⟩, ⟨List.nodup_nil, List.nodup_nil⟩, .nil⟩

/-- A network with two subnets is made external, then one of its subnets gets another gateway and the other one goes. -/
def becomesExternal : List NetworkingEvent :=
  [.network_C 0 ⟨[1], [], 3, 0, 0, []⟩, .subnet_C 1 ⟨[2], [], [1], [], 7, 3, []⟩, .subnet_C 2 ⟨[3], [], [1], [], 8, 3, []⟩,
    .network_U ⟨[1], [], 3, 1, 0, [[3], [2]]⟩, .subnet_U ⟨[2], [], [1], [], 9, 3, []⟩, .subnet_D 2]

end Networking

end DCFabric
