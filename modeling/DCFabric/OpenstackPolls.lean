import DCFabric.NetworkingEvents

namespace DCFabric

open Resync TransitionRuns

namespace NetworkingEvent

def onNetworks : NetworkingEvent → Option (Resync.Request Base_Network)
  | network_C p network => some (.create p network)
  | network_U network => some (.update network)
  | network_D p => some (.remove p)
  | _ => none

def onSubnets : NetworkingEvent → Option (Resync.Request Base_Subnet)
  | subnet_C p subnet => some (.create p subnet)
  | subnet_U subnet => some (.update subnet)
  | subnet_D p => some (.remove p)
  | _ => none

def ofNetworks : Resync.Request Base_Network → NetworkingEvent
  | .create p network => network_C p network
  | .update network => network_U network
  | .remove p => network_D p

def ofSubnets : Resync.Request Base_Subnet → NetworkingEvent
  | .create p subnet => subnet_C p subnet
  | .update subnet => subnet_U subnet
  | .remove p => subnet_D p

end NetworkingEvent

open NetworkingEvent

/-- Where `loadResources` stands, with the items of a reply that are still to be added. At `others` it is with the other
kinds of resources or waits for the next round. -/
inductive LoadPoint where
  | loadNetworks
  | parseNetworks (rest : List COpenstackNetwork)
  | clearNetworks
  | loadSubnets
  | parseSubnets (rest : List COpenstackSubnet)
  | clearSubnets
  | others
deriving DecidableEq

/-- The resources with the events that are on their way to the consumer. The replies are the last ones of `loadResource`,
and what has been read are their items up to the next one to be added, the last one first. -/
structure COpenstackResource where
  m_network_list : List (Entry COpenstackNetwork)
  m_subnet_list : List (Entry COpenstackSubnet)
  queue : List NetworkingEvent
  base : Networking
  allocated : ℕ
  point : LoadPoint
  networks_reply : Option (List COpenstackNetwork)
  subnets_reply : Option (List COpenstackSubnet)
  networks_read : List COpenstackNetwork
  subnets_read : List COpenstackSubnet
deriving DecidableEq

/-- A reply that cannot be parsed is one without items. -/
inductive LoadAct where
  | begin
  | networks (reply : Option (List COpenstackNetwork))
  | subnets (reply : Option (List COpenstackSubnet))
  | parse
  | clear (id : List UINT1)
  | cleared
  | consume
deriving DecidableEq

namespace COpenstackResource

def init : COpenstackResource := ⟨[], [], [], .start, 0, .others, none, none, [], []⟩

/-- A queue that holds more than so many events gives up the oldest one. -/
def pushMsg (holdNumber : ℕ) (queue : List NetworkingEvent) (event : NetworkingEvent) : List NetworkingEvent :=
  if (queue ++ [event]).length > holdNumber then (queue ++ [event]).tail else queue ++ [event]

def report (holdNumber : ℕ) (t : COpenstackResource) (events : List NetworkingEvent) : COpenstackResource :=
  { t with queue := events.foldl (pushMsg holdNumber) t.queue }

def resetOpenstackNetworkList (t : COpenstackResource) : COpenstackResource :=
  { t with m_network_list := Kind.resetMarks t.m_network_list, networks_read := [] }

def resetOpenstackSubnetList (t : COpenstackResource) : COpenstackResource :=
  { t with m_subnet_list := Kind.resetMarks t.m_subnet_list, subnets_read := [] }

def addOpenstackNetwork (holdNumber : ℕ) (t : COpenstackResource) (network : COpenstackNetwork) : COpenstackResource :=
  report holdNumber
    { t with
      m_network_list := networkKind.put t.m_network_list network
      allocated := t.allocated + 1
      networks_read := network :: t.networks_read }
    ((networkKind.sent t.m_network_list t.allocated network).map ofNetworks)

def addOpenstackSubnet (holdNumber : ℕ) (t : COpenstackResource) (subnet : COpenstackSubnet) : COpenstackResource :=
  report holdNumber
    { t with
      m_subnet_list := subnetKind.put t.m_subnet_list subnet
      allocated := t.allocated + 1
      subnets_read := subnet :: t.subnets_read }
    ((subnetKind.sent t.m_subnet_list t.allocated subnet).map ofSubnets)

/-- What `clearOpenstackNetworkNode` does with an unchecked node. -/
def clearNetwork (holdNumber : ℕ) (t : COpenstackResource) (id : List UINT1) : COpenstackResource :=
  report holdNumber { t with m_network_list := networkKind.drop t.m_network_list id }
    ((networkKind.dropped t.base.networks id).map ofNetworks)

/-- What `clearOpenstackSubnetNode` does with an unchecked node. -/
def clearSubnet (holdNumber : ℕ) (t : COpenstackResource) (id : List UINT1) : COpenstackResource :=
  report holdNumber { t with m_subnet_list := subnetKind.drop t.m_subnet_list id }
    ((subnetKind.dropped t.base.subnets id).map ofSubnets)

/-- The nodes that `clearResourceNode` has still to delete. -/
def unchecked {A : Type} (list : List (Entry A)) : List A := (list.filter (!·.checked)).map (·.item)

def startSubnets (t : COpenstackResource) : COpenstackResource :=
  { t.resetOpenstackSubnetList with point := .loadSubnets }

def consume (t : COpenstackResource) : Option COpenstackResource :=
  match t.queue with
  | [] => none
  | event :: queue => (t.base.consume event).map fun base => { t with queue, base }

local instance lawfulBEq_id : LawfulBEq (List UINT1) := inferInstance

def step (holdNumber : ℕ) (t : COpenstackResource) (act : LoadAct) : Option COpenstackResource :=
  match act, t.point with
  | .begin, .others => some { t.resetOpenstackNetworkList with point := .loadNetworks }
  | .networks none, .loadNetworks => some { t.startSubnets with networks_reply := none }
  | .networks (some reply), .loadNetworks =>
    some { t with networks_reply := some reply, point := .parseNetworks reply }
  | .parse, .parseNetworks (network :: rest) =>
    some { t.addOpenstackNetwork holdNumber network with point := .parseNetworks rest }
  | .parse, .parseNetworks [] => some { t with point := .clearNetworks }
  | .clear id, .clearNetworks =>
    if id ∈ (unchecked t.m_network_list).map (·.m_strId) then some (t.clearNetwork holdNumber id) else none
  | .cleared, .clearNetworks => if unchecked t.m_network_list = [] then some t.startSubnets else none
  | .subnets none, .loadSubnets => some { t with subnets_reply := none, point := .others }
  | .subnets (some reply), .loadSubnets => some { t with subnets_reply := some reply, point := .parseSubnets reply }
  | .parse, .parseSubnets (subnet :: rest) =>
    some { t.addOpenstackSubnet holdNumber subnet with point := .parseSubnets rest }
  | .parse, .parseSubnets [] => some { t with point := .clearSubnets }
  | .clear id, .clearSubnets =>
    if id ∈ (unchecked t.m_subnet_list).map (·.m_strId) then some (t.clearSubnet holdNumber id) else none
  | .cleared, .clearSubnets => if unchecked t.m_subnet_list = [] then some { t with point := .others } else none
  | .consume, _ => t.consume
  | _, _ => none

/-- A new external network has no known subnet, and one that becomes external lists those that are known. -/
def NetworkFits (t : COpenstackResource) (network : COpenstackNetwork) : Prop :=
  network.m_bRouterExternal → match networkKind.entry t.m_network_list network.m_strId with
    | none => ∀ e ∈ t.m_subnet_list, e.item.m_strNetworkId ≠ network.m_strId
    | some old => old.item.m_bRouterExternal = false → network.m_liSubnets.Nodup ∧
      ∀ e ∈ t.m_subnet_list, e.item.m_strNetworkId = network.m_strId → e.item.m_strId ∈ network.m_liSubnets

/-- A subnet stays in its network. -/
def SubnetFits (t : COpenstackResource) (subnet : COpenstackSubnet) : Prop :=
  ∀ e ∈ t.m_subnet_list, e.item.m_strId = subnet.m_strId → e.item.m_strNetworkId = subnet.m_strNetworkId

/-- The consumer has caught up with the last round when the marks are taken away again, the queue has room for what is
reported, and the items fit the known ones. -/
def CaughtUp (holdNumber : ℕ) (t : COpenstackResource) (act : LoadAct) : Prop :=
  match act, t.point with
  | .begin, _ => t.queue.filterMap onNetworks = []
  | .networks none, _ | .cleared, .clearNetworks => t.queue.filterMap onSubnets = []
  | .parse, .parseNetworks (network :: _) => t.queue.length < holdNumber ∧ t.NetworkFits network
  | .parse, .parseSubnets (subnet :: _) => t.queue.length < holdNumber ∧ t.SubnetFits subnet
  | .clear _, _ => t.queue.length < holdNumber
  | _, _ => True

instance (t : COpenstackResource) (network : COpenstackNetwork) : Decidable (t.NetworkFits network) := by
  unfold NetworkFits
  cases networkKind.entry t.m_network_list network.m_strId <;> infer_instance

instance (t : COpenstackResource) (subnet : COpenstackSubnet) : Decidable (t.SubnetFits subnet) := by
  unfold SubnetFits
  infer_instance

instance (holdNumber : ℕ) (t : COpenstackResource) (act : LoadAct) : Decidable (CaughtUp holdNumber t act) := by
  unfold CaughtUp
  split <;> infer_instance

def networks (t : COpenstackResource) : State COpenstackNetwork Base_Network :=
  ⟨t.m_network_list, t.networks_read, t.queue.filterMap onNetworks, t.base.networks, t.allocated⟩

def subnets (t : COpenstackResource) : State COpenstackSubnet Base_Subnet :=
  ⟨t.m_subnet_list, t.subnets_read, t.queue.filterMap onSubnets, t.base.subnets, t.allocated⟩

/-- Both kinds are kept up to date, and the externals are right once all events have been consumed. -/
structure Core (t : COpenstackResource) : Prop where
  networks : networkKind.Inv t.networks
  subnets : subnetKind.Inv t.subnets
  final : ∃ b, exec Networking.consume t.base t.queue = some b ∧ b.Exact

/-- Where the thread stands between the items of a reply and the lists. -/
def NetworksLoaded (t : COpenstackResource) : Prop :=
  match t.point with
  | .loadNetworks => t.networks_read = []
  | .parseNetworks rest => t.networks_reply = some (t.networks_read.reverse ++ rest)
  | .clearNetworks => t.networks_reply = some t.networks_read.reverse
  | _ => ∀ reply, t.networks_reply = some reply → t.networks_read.reverse = reply ∧ unchecked t.m_network_list = []

def SubnetsLoaded (t : COpenstackResource) : Prop :=
  match t.point with
  | .loadSubnets => t.subnets_read = []
  | .parseSubnets rest => t.subnets_reply = some (t.subnets_read.reverse ++ rest)
  | .clearSubnets => t.subnets_reply = some t.subnets_read.reverse
  | _ => ∀ reply, t.subnets_reply = some reply → t.subnets_read.reverse = reply ∧ unchecked t.m_subnet_list = []

structure Inv (t : COpenstackResource) : Prop where
  core : t.Core
  networks : t.NetworksLoaded
  subnets : t.SubnetsLoaded

section

variable {b b' : Networking} {event : NetworkingEvent} {queue events : List NetworkingEvent} {holdNumber : ℕ}
  {t : COpenstackResource} {r : Resync.Request Base_Network} {q : Resync.Request Base_Subnet}
  {rs : List (Resync.Request Base_Network)} {qs : List (Resync.Request Base_Subnet)}

theorem onNetworks_map : (rs.map ofNetworks).filterMap onNetworks = rs := by
  rw [List.filterMap_map]
  have hback : onNetworks ∘ ofNetworks = some := by
    funext r
    cases r <;> rfl
  rw [hback, List.filterMap_some]

theorem onSubnets_map : (qs.map ofSubnets).filterMap onSubnets = qs := by
  rw [List.filterMap_map]
  have hback : onSubnets ∘ ofSubnets = some := by
    funext q
    cases q <;> rfl
  rw [hback, List.filterMap_some]

theorem onSubnets_networks : (rs.map ofNetworks).filterMap onSubnets = [] := by
  rw [List.filterMap_map, List.filterMap_eq_nil_iff]
  intro r _
  cases r <;> rfl

theorem onNetworks_subnets : (qs.map ofSubnets).filterMap onNetworks = [] := by
  rw [List.filterMap_map, List.filterMap_eq_nil_iff]
  intro q _
  cases q <;> rfl

theorem mem_objects {B : Type} {copy : List (ℕ × B)} {p : ℕ} : p ∈ copy.map Prod.fst ↔ (copy.find? (·.1 = p)).isSome := by
  simp

/-- An event does with the networks what its request says. -/
theorem consume_networks (h : b.consume event = some b') :
    exec networkKind.apply b.networks event.onNetworks.toList = some b'.networks := by
  cases event with
  | network_C p network => cases h; rfl
  | network_U network => cases h; rfl
  | network_D p =>
    obtain ⟨o, ho, rfl⟩ := Option.map_eq_some_iff.mp h
    have hmem : p ∈ b.networks.map Prod.fst := mem_objects.mpr (Option.isSome_iff_exists.mpr ⟨o, ho⟩)
    simp [onNetworks, exec, Kind.apply, hmem]
  | subnet_C p subnet => cases h; rfl
  | subnet_U subnet => cases h; rfl
  | subnet_D p =>
    obtain ⟨o, ho, rfl⟩ := Option.map_eq_some_iff.mp h
    rfl

theorem consume_subnets (h : b.consume event = some b') :
    exec subnetKind.apply b.subnets event.onSubnets.toList = some b'.subnets := by
  cases event with
  | network_C p network => cases h; rfl
  | network_U network => cases h; rfl
  | network_D p =>
    obtain ⟨o, ho, rfl⟩ := Option.map_eq_some_iff.mp h
    rfl
  | subnet_C p subnet => cases h; rfl
  | subnet_U subnet => cases h; rfl
  | subnet_D p =>
    obtain ⟨o, ho, rfl⟩ := Option.map_eq_some_iff.mp h
    have hmem : p ∈ b.subnets.map Prod.fst := mem_objects.mpr (Option.isSome_iff_exists.mpr ⟨o, ho⟩)
    simp [onSubnets, exec, Kind.apply, hmem]

theorem exec_networks (h : exec Networking.consume b queue = some b') :
    exec networkKind.apply b.networks (queue.filterMap onNetworks) = some b'.networks := by
  induction queue generalizing b with
  | nil =>
    obtain rfl := Option.some.inj h
    rfl
  | cons event queue ih =>
    obtain ⟨next, hnext, h⟩ := Option.bind_eq_some_iff.mp h
    have hevent := consume_networks hnext
    have hsplit : (event :: queue).filterMap onNetworks = event.onNetworks.toList ++ queue.filterMap onNetworks := by
      cases hr : event.onNetworks <;> simp [hr]
    rw [hsplit, exec_append, hevent, Option.bind_some, ih h]

theorem exec_subnets (h : exec Networking.consume b queue = some b') :
    exec subnetKind.apply b.subnets (queue.filterMap onSubnets) = some b'.subnets := by
  induction queue generalizing b with
  | nil =>
    obtain rfl := Option.some.inj h
    rfl
  | cons event queue ih =>
    obtain ⟨next, hnext, h⟩ := Option.bind_eq_some_iff.mp h
    have hevent := consume_subnets hnext
    have hsplit : (event :: queue).filterMap onSubnets = event.onSubnets.toList ++ queue.filterMap onSubnets := by
      cases hq : event.onSubnets <;> simp [hq]
    rw [hsplit, exec_append, hevent, Option.bind_some, ih h]

/-- An event is consumed when the object that it is about is there. -/
theorem consume_networks_isSome (h : (networkKind.apply b.networks r).isSome) :
    (b.consume (ofNetworks r)).isSome := by
  cases r with
  | create p network => rfl
  | update network => rfl
  | remove p =>
    rw [Kind.apply] at h
    split_ifs at h with hmem
    · rw [ofNetworks, Networking.consume, Option.isSome_map]
      exact mem_objects.mp hmem
    · cases h

theorem consume_subnets_isSome (h : (subnetKind.apply b.subnets q).isSome) : (b.consume (ofSubnets q)).isSome := by
  cases q with
  | create p subnet => rfl
  | update subnet => rfl
  | remove p =>
    rw [Kind.apply] at h
    split_ifs at h with hmem
    · rw [ofSubnets, Networking.consume, Option.isSome_map]
      exact mem_objects.mp hmem
    · cases h

theorem report_room (h : t.queue.length + events.length ≤ holdNumber) :
    t.report holdNumber events = { t with queue := t.queue ++ events } := by
  induction events generalizing t with
  | nil => simp [report]
  | cons event events ih =>
    rw [List.length_cons] at h
    have hpush : pushMsg holdNumber t.queue event = t.queue ++ [event] := by
      have hlen : ¬ (t.queue ++ [event]).length > holdNumber := by
        rw [List.length_append, List.length_singleton]
        omega
      rw [pushMsg, if_neg hlen]
    have hnext := ih (t := { t with queue := t.queue ++ [event] }) (by
      rw [List.length_append, List.length_singleton]
      omega)
    unfold report at hnext ⊢
    rw [List.foldl_cons, hpush, hnext, List.append_assoc, List.singleton_append]

theorem exec_concat (h : exec Networking.consume b queue = some b') (hexact : b'.Exact)
    (hadmissible : b'.Admissible event) (hconsume : (b'.consume event).isSome) :
    ∃ b'', exec Networking.consume b (queue ++ [event]) = some b'' ∧ b''.Exact := by
  obtain ⟨b'', hb''⟩ := Option.isSome_iff_exists.mp hconsume
  refine ⟨b'', ?_, hexact.consume hadmissible hb''⟩
  rw [exec_append, h, Option.bind_some, exec, hb'']
  rfl

/-- What the networks become is what is known of them. -/
theorem Core.final_networks (h : t.Core) (hb : exec Networking.consume t.base t.queue = some b) :
    networkKind.Leads t.base.networks (t.queue.filterMap onNetworks) b.networks ∧
      ∀ x, networkKind.shown b.networks x = networkKind.listed t.m_network_list x := by
  obtain ⟨final, hleads, hshown⟩ := h.networks.leads
  have hexec := hleads.exec_eq
  obtain rfl := Option.some.inj ((exec_networks hb).symm.trans hexec)
  exact ⟨hleads, hshown⟩

theorem Core.final_subnets (h : t.Core) (hb : exec Networking.consume t.base t.queue = some b) :
    subnetKind.Leads t.base.subnets (t.queue.filterMap onSubnets) b.subnets ∧
      ∀ x, subnetKind.shown b.subnets x = subnetKind.listed t.m_subnet_list x := by
  obtain ⟨final, hleads, hshown⟩ := h.subnets.leads
  have hexec := hleads.exec_eq
  obtain rfl := Option.some.inj ((exec_subnets hb).symm.trans hexec)
  exact ⟨hleads, hshown⟩

/-- A subnet that will be there is a known one of the same network. -/
theorem Core.known_subnet (h : t.Core) (hb : exec Networking.consume t.base t.queue = some b) {o : ℕ × Base_Subnet}
    (ho : o ∈ b.subnets) : ∃ e ∈ t.m_subnet_list, e.item.m_strId = o.2.ID ∧ e.item.m_strNetworkId = o.2.network_ID := by
  obtain ⟨hleads, hshown⟩ := h.final_subnets hb
  have hlisted := (hleads.last.shown_of_mem ho).symm.trans (hshown _)
  obtain ⟨e, he, hview⟩ := Option.map_eq_some_iff.mp hlisted.symm
  obtain ⟨hmem, hkey⟩ := Kind.key_of_entry he
  exact ⟨e, hmem, hkey, congrArg Prod.fst hview⟩

theorem Core.fresh_network (h : t.Core) (hb : exec Networking.consume t.base t.queue = some b) :
    t.allocated ∉ b.networks.map Prod.fst := fun hmem =>
  (h.networks.allocated _ ((h.final_networks hb).1.objects hmem)).false

theorem Core.fresh_subnet (h : t.Core) (hb : exec Networking.consume t.base t.queue = some b) :
    t.allocated ∉ b.subnets.map Prod.fst := fun hmem =>
  (h.subnets.allocated _ ((h.final_subnets hb).1.objects hmem)).false

theorem convertor_external {network : COpenstackNetwork} :
    (BaseNetworkConventor_fromCOpenstackNetwork network).router_external ≠ 0 ↔ network.m_bRouterExternal := by
  cases hext : network.m_bRouterExternal <;> simp [BaseNetworkConventor_fromCOpenstackNetwork, hext]

theorem convertor_subnets {network : COpenstackNetwork} :
    (BaseNetworkConventor_fromCOpenstackNetwork network).subnets = network.m_liSubnets.reverse := by
  simp [BaseNetworkConventor_fromCOpenstackNetwork]

theorem Core.network_admissible (h : t.Core) (hb : exec Networking.consume t.base t.queue = some b)
    {network : COpenstackNetwork} (hfits : t.NetworkFits network)
    (hr : r ∈ networkKind.sent t.m_network_list t.allocated network) : b.Admissible (ofNetworks r) := by
  obtain ⟨hleads, hshown⟩ := h.final_networks hb
  unfold NetworkFits at hfits
  unfold Kind.sent at hr
  split at hr
  · rename_i hentry
    have hentry' : networkKind.entry t.m_network_list network.m_strId = none := hentry
    rw [hentry'] at hfits
    rw [List.mem_singleton.mp hr]
    have habsent : networkKind.shown b.networks network.m_strId = none := by
      rw [hshown, Kind.listed, hentry']
      rfl
    refine ⟨h.fresh_network hb, Networking.targetNetwork_none.mpr (Kind.shown_eq_none.mp habsent), ?_⟩
    intro hext o ho hnetwork
    obtain ⟨e, he, -, hid⟩ := h.known_subnet hb ho
    exact hfits (convertor_external.mp hext) e he (hid.trans hnetwork)
  · rename_i e hentry
    have hentry' : networkKind.entry t.m_network_list network.m_strId = some e := hentry
    rw [hentry'] at hfits
    split_ifs at hr
    · cases hr
    rw [List.mem_singleton.mp hr]
    have hsome : networkKind.shown b.networks network.m_strId = some (networkKind.view (networkKind.make e.item)) := by
      rw [hshown, Kind.listed, hentry', Option.map_some]
    obtain ⟨old, hold, hview⟩ := Option.map_eq_some_iff.mp hsome
    refine ⟨old, hold, ?_⟩
    intro hext hinternal
    have hwas : old.2.router_external = (BaseNetworkConventor_fromCOpenstackNetwork e.item).router_external :=
      congrArg Prod.fst hview
    have hold0 : e.item.m_bRouterExternal = false := by
      by_contra htrue
      rw [Bool.not_eq_false] at htrue
      exact convertor_external.mpr htrue (hwas.symm.trans hinternal)
    obtain ⟨hnodup, hcover⟩ := hfits (convertor_external.mp hext) hold0
    have hsubnets : (networkKind.make network).subnets = network.m_liSubnets.reverse := convertor_subnets
    rw [hsubnets]
    refine ⟨List.nodup_reverse.mpr hnodup, ?_⟩
    intro o ho hnetwork
    obtain ⟨e', he', hID, hid⟩ := h.known_subnet hb ho
    rw [List.mem_reverse, ← hID]
    exact hcover e' he' (hid.trans hnetwork)

theorem Core.subnet_admissible (h : t.Core) (hb : exec Networking.consume t.base t.queue = some b)
    {subnet : COpenstackSubnet} (hfits : t.SubnetFits subnet)
    (hq : q ∈ subnetKind.sent t.m_subnet_list t.allocated subnet) : b.Admissible (ofSubnets q) := by
  obtain ⟨hleads, hshown⟩ := h.final_subnets hb
  unfold Kind.sent at hq
  split at hq
  · rename_i hentry
    rw [List.mem_singleton.mp hq]
    have habsent : subnetKind.shown b.subnets subnet.m_strId = none := by
      rw [hshown, Kind.listed]
      exact Option.map_eq_none_iff.mpr hentry
    exact ⟨h.fresh_subnet hb, Networking.targetSubnet_none.mpr (Kind.shown_eq_none.mp habsent)⟩
  · rename_i e hentry
    split_ifs at hq
    · cases hq
    rw [List.mem_singleton.mp hq]
    obtain ⟨he, hkey⟩ := Kind.key_of_entry hentry
    have hsome : subnetKind.shown b.subnets subnet.m_strId = some (subnetKind.view (subnetKind.make e.item)) := by
      rw [hshown, Kind.listed]
      exact Option.map_eq_some_iff.mpr ⟨e, hentry, rfl⟩
    obtain ⟨old, hold, hview⟩ := Option.map_eq_some_iff.mp hsome
    exact ⟨old, hold, (congrArg Prod.fst hview).trans (hfits e he hkey)⟩

theorem Core.addOpenstackNetwork (h : t.Core) (hroom : t.queue.length < holdNumber) {network : COpenstackNetwork}
    (hfits : t.NetworkFits network) : Core (t.addOpenstackNetwork holdNumber network) := by
  have hlength : (networkKind.sent t.m_network_list t.allocated network).length ≤ 1 := Kind.length_sent
  obtain ⟨b, hb, hexact⟩ := h.final
  unfold COpenstackResource.addOpenstackNetwork
  rw [report_room (by rw [List.length_map]; exact (Nat.add_le_add_left hlength _).trans hroom)]
  refine ⟨?_, ?_, ?_⟩
  · have hreport := h.networks.report (a := network) fun _ _ _ => trivial
    unfold Kind.report at hreport
    simpa only [COpenstackResource.networks, List.filterMap_append, onNetworks_map] using hreport
  · have hallocate := h.subnets.allocate (Nat.le_succ t.allocated)
    simpa only [COpenstackResource.subnets, List.filterMap_append, onSubnets_networks, List.append_nil] using hallocate
  · have hadmissible (r : Resync.Request Base_Network) (hr : r ∈ networkKind.sent t.m_network_list t.allocated network) :=
      h.network_admissible hb hfits hr
    generalize hsent : networkKind.sent t.m_network_list t.allocated network = sent at hlength hadmissible ⊢
    cases sent with
    | nil => exact ⟨b, by simpa using hb, hexact⟩
    | cons r rest =>
      obtain rfl : rest = [] := List.eq_nil_of_length_eq_zero (by simpa using hlength)
      have hr : r ∈ networkKind.sent t.m_network_list t.allocated network := hsent ▸ List.mem_cons_self
      have happly : (networkKind.apply b.networks r).isSome := by
        cases r with
        | create p network => rfl
        | update network => rfl
        | remove p => exact absurd hr Kind.not_mem_sent
      exact exec_concat hb hexact (hadmissible r List.mem_cons_self) (consume_networks_isSome happly)

theorem Core.addOpenstackSubnet (h : t.Core) (hroom : t.queue.length < holdNumber) {subnet : COpenstackSubnet}
    (hfits : t.SubnetFits subnet) : Core (t.addOpenstackSubnet holdNumber subnet) := by
  have hlength : (subnetKind.sent t.m_subnet_list t.allocated subnet).length ≤ 1 := Kind.length_sent
  obtain ⟨b, hb, hexact⟩ := h.final
  unfold COpenstackResource.addOpenstackSubnet
  rw [report_room (by rw [List.length_map]; exact (Nat.add_le_add_left hlength _).trans hroom)]
  refine ⟨?_, ?_, ?_⟩
  · have hallocate := h.networks.allocate (Nat.le_succ t.allocated)
    simpa only [COpenstackResource.networks, List.filterMap_append, onNetworks_subnets, List.append_nil] using hallocate
  · have hreport := h.subnets.report hfits
    unfold Kind.report at hreport
    simpa only [COpenstackResource.subnets, List.filterMap_append, onSubnets_map] using hreport
  · have hadmissible (q : Resync.Request Base_Subnet) (hq : q ∈ subnetKind.sent t.m_subnet_list t.allocated subnet) :=
      h.subnet_admissible hb hfits hq
    generalize hsent : subnetKind.sent t.m_subnet_list t.allocated subnet = sent at hlength hadmissible ⊢
    cases sent with
    | nil => exact ⟨b, by simpa using hb, hexact⟩
    | cons q rest =>
      obtain rfl : rest = [] := List.eq_nil_of_length_eq_zero (by simpa using hlength)
      have hq : q ∈ subnetKind.sent t.m_subnet_list t.allocated subnet := hsent ▸ List.mem_cons_self
      have happly : (subnetKind.apply b.subnets q).isSome := by
        cases q with
        | create p subnet => rfl
        | update subnet => rfl
        | remove p => exact absurd hq Kind.not_mem_sent
      exact exec_concat hb hexact (hadmissible q List.mem_cons_self) (consume_subnets_isSome happly)

theorem mem_unchecked {A : Type} {list : List (Entry A)} {a : A} :
    a ∈ unchecked list ↔ ∃ e ∈ list, e.item = a ∧ e.checked = false := by
  simp only [unchecked, List.mem_map, List.mem_filter, Bool.not_eq_true']
  constructor
  · rintro ⟨e, ⟨he, hchecked⟩, ha⟩
    exact ⟨e, he, ha, hchecked⟩
  · rintro ⟨e, he, ha, hchecked⟩
    exact ⟨e, ⟨he, hchecked⟩, ha⟩

theorem Core.clearNetwork (h : t.Core) (hroom : t.queue.length < holdNumber) {id : List UINT1}
    (hid : id ∈ (unchecked t.m_network_list).map (·.m_strId)) : Core (t.clearNetwork holdNumber id) := by
  obtain ⟨network, hmem, rfl⟩ := List.mem_map.mp hid
  obtain ⟨e, he, rfl, hchecked⟩ := mem_unchecked.mp hmem
  have hnode : ∃ e' ∈ t.networks.known, networkKind.key e'.item = e.item.m_strId ∧ e'.checked = false :=
    ⟨e, he, rfl, hchecked⟩
  obtain ⟨o, -, -, hdropped, final, hleads, -⟩ := h.networks.dropped hnode
  have hdropped' : networkKind.dropped t.base.networks e.item.m_strId = [.remove o.1] := hdropped
  obtain ⟨b, hb, hexact⟩ := h.final
  unfold COpenstackResource.clearNetwork
  rw [report_room (by simpa [hdropped'] using hroom)]
  refine ⟨?_, ?_, ?_⟩
  · have hsweep := h.networks.sweep hnode
    unfold Kind.sweep at hsweep
    simpa only [COpenstackResource.networks, List.filterMap_append, onNetworks_map] using hsweep
  · simpa only [COpenstackResource.subnets, List.filterMap_append, onSubnets_networks, List.append_nil] using h.subnets
  · rw [hdropped']
    have hexec : exec networkKind.apply t.base.networks (t.queue.filterMap onNetworks ++ [.remove o.1]) = some final :=
      hleads.exec_eq
    rw [exec_append, exec_networks hb, Option.bind_some] at hexec
    obtain ⟨next, hnext, -⟩ := Option.bind_eq_some_iff.mp hexec
    exact exec_concat hb hexact trivial (consume_networks_isSome (Option.isSome_iff_exists.mpr ⟨next, hnext⟩))

theorem Core.clearSubnet (h : t.Core) (hroom : t.queue.length < holdNumber) {id : List UINT1}
    (hid : id ∈ (unchecked t.m_subnet_list).map (·.m_strId)) : Core (t.clearSubnet holdNumber id) := by
  obtain ⟨subnet, hmem, rfl⟩ := List.mem_map.mp hid
  obtain ⟨e, he, rfl, hchecked⟩ := mem_unchecked.mp hmem
  have hnode : ∃ e' ∈ t.subnets.known, subnetKind.key e'.item = e.item.m_strId ∧ e'.checked = false :=
    ⟨e, he, rfl, hchecked⟩
  obtain ⟨o, -, -, hdropped, final, hleads, -⟩ := h.subnets.dropped hnode
  have hdropped' : subnetKind.dropped t.base.subnets e.item.m_strId = [.remove o.1] := hdropped
  obtain ⟨b, hb, hexact⟩ := h.final
  unfold COpenstackResource.clearSubnet
  rw [report_room (by simpa [hdropped'] using hroom)]
  refine ⟨?_, ?_, ?_⟩
  · simpa only [COpenstackResource.networks, List.filterMap_append, onNetworks_subnets, List.append_nil] using h.networks
  · have hsweep := h.subnets.sweep hnode
    unfold Kind.sweep at hsweep
    simpa only [COpenstackResource.subnets, List.filterMap_append, onSubnets_map] using hsweep
  · rw [hdropped']
    have hexec : exec subnetKind.apply t.base.subnets (t.queue.filterMap onSubnets ++ [.remove o.1]) = some final :=
      hleads.exec_eq
    rw [exec_append, exec_subnets hb, Option.bind_some] at hexec
    obtain ⟨next, hnext, -⟩ := Option.bind_eq_some_iff.mp hexec
    exact exec_concat hb hexact trivial (consume_subnets_isSome (Option.isSome_iff_exists.mpr ⟨next, hnext⟩))

theorem Core.resetOpenstackNetworkList (h : t.Core) (hqueue : t.queue.filterMap onNetworks = []) :
    Core t.resetOpenstackNetworkList :=
  ⟨h.networks.reset hqueue, h.subnets, h.final⟩

theorem Core.startSubnets (h : t.Core) (hqueue : t.queue.filterMap onSubnets = []) : Core t.startSubnets :=
  ⟨h.networks, h.subnets.reset hqueue, h.final⟩

theorem Core.move (h : t.Core) {point : LoadPoint} {networks_reply : Option (List COpenstackNetwork)}
    {subnets_reply : Option (List COpenstackSubnet)} : Core { t with point, networks_reply, subnets_reply } :=
  ⟨h.networks, h.subnets, h.final⟩

theorem Core.consume {t' : COpenstackResource} (h : t.Core) (ht : t.consume = some t') : t'.Core := by
  obtain ⟨b, hb, hexact⟩ := h.final
  unfold COpenstackResource.consume at ht
  split at ht
  · cases ht
  · rename_i event queue hqueue
    obtain ⟨base, hbase, rfl⟩ := Option.map_eq_some_iff.mp ht
    have hon := consume_networks hbase
    have hos := consume_subnets hbase
    rw [hqueue, exec, hbase, Option.bind_some] at hb
    refine ⟨?_, ?_, b, hb, hexact⟩
    · have hinv := h.networks
      unfold COpenstackResource.networks at hinv ⊢
      rw [hqueue] at hinv
      cases hr : event.onNetworks with
      | none =>
        rw [hr] at hon
        rw [List.filterMap_cons_none hr] at hinv
        exact Option.some.inj hon ▸ hinv
      | some r =>
        rw [hr] at hon
        rw [List.filterMap_cons_some hr] at hinv
        obtain ⟨copy, hcopy, heq⟩ := Option.bind_eq_some_iff.mp hon
        obtain rfl := Option.some.inj heq
        apply hinv.consume
        simp [Kind.consume, hcopy]
    · have hinv := h.subnets
      unfold COpenstackResource.subnets at hinv ⊢
      rw [hqueue] at hinv
      cases hq : event.onSubnets with
      | none =>
        rw [hq] at hos
        rw [List.filterMap_cons_none hq] at hinv
        exact Option.some.inj hos ▸ hinv
      | some q =>
        rw [hq] at hos
        rw [List.filterMap_cons_some hq] at hinv
        obtain ⟨copy, hcopy, heq⟩ := Option.bind_eq_some_iff.mp hos
        obtain rfl := Option.some.inj heq
        apply hinv.consume
        simp [Kind.consume, hcopy]

theorem Core.consume_isSome (h : t.Core) (hqueue : t.queue ≠ []) : t.consume.isSome := by
  obtain ⟨b, hb, -⟩ := h.final
  unfold COpenstackResource.consume
  cases hq : t.queue with
  | nil => exact absurd hq hqueue
  | cons event queue =>
    rw [hq, exec] at hb
    obtain ⟨base, hbase, -⟩ := Option.bind_eq_some_iff.mp hb
    simp [hbase]

theorem inv_init : init.Inv where
  core := ⟨Kind.inv_start, Kind.inv_start, .start, rfl, Networking.exact_start⟩
  networks := by
    intro reply hreply
    cases hreply
  subnets := by
    intro reply hreply
    cases hreply

theorem Inv.consume {t' : COpenstackResource} (h : t.Inv) (ht : t.consume = some t') : t'.Inv := by
  have hcore := h.core.consume ht
  unfold COpenstackResource.consume at ht
  split at ht
  · cases ht
  · obtain ⟨base, -, rfl⟩ := Option.map_eq_some_iff.mp ht
    exact ⟨hcore, h.networks, h.subnets⟩

theorem Inv.step {t' : COpenstackResource} {act : LoadAct} (h : t.Inv) (hcaught : CaughtUp holdNumber t act)
    (ht : step holdNumber t act = some t') : t'.Inv := by
  have hinv := h
  obtain ⟨hcore, hnetworks, hsubnets⟩ := h
  unfold NetworksLoaded at hnetworks
  unfold SubnetsLoaded at hsubnets
  unfold COpenstackResource.step at ht
  split at ht
  -- a round begins
  · rename_i hpoint
    obtain rfl := Option.some.inj ht
    rw [hpoint] at hsubnets
    exact ⟨(hcore.resetOpenstackNetworkList hcaught).move, rfl, hsubnets⟩
  -- the networks are not loaded
  · rename_i hpoint
    obtain rfl := Option.some.inj ht
    refine ⟨(hcore.startSubnets hcaught).move, ?_, rfl⟩
    intro reply hreply
    cases hreply
  -- the networks are loaded
  · rename_i reply hpoint
    obtain rfl := Option.some.inj ht
    rw [hpoint] at hnetworks hsubnets
    refine ⟨hcore.move, ?_, hsubnets⟩
    simp only [NetworksLoaded]
    rw [hnetworks]
    rfl
  -- a network is added
  · rename_i network rest hpoint
    obtain rfl := Option.some.inj ht
    rw [hpoint] at hnetworks hsubnets
    simp only [CaughtUp, hpoint] at hcaught
    have hadd := hcore.addOpenstackNetwork hcaught.1 hcaught.2
    refine ⟨hadd.move, ?_, hsubnets⟩
    simp only [NetworksLoaded, COpenstackResource.addOpenstackNetwork, report, List.reverse_cons, List.append_assoc]
    exact hnetworks
  -- all networks have been added
  · rename_i hpoint
    obtain rfl := Option.some.inj ht
    rw [hpoint] at hnetworks hsubnets
    refine ⟨hcore.move, ?_, hsubnets⟩
    simpa [NetworksLoaded] using hnetworks
  -- a network is deleted
  · rename_i id hpoint
    split_ifs at ht with hid
    obtain rfl := Option.some.inj ht
    rw [hpoint] at hnetworks hsubnets
    have hroom : t.queue.length < holdNumber := by simpa [CaughtUp] using hcaught
    refine ⟨hcore.clearNetwork hroom hid, ?_, ?_⟩
    · simp only [NetworksLoaded, COpenstackResource.clearNetwork, report, hpoint]
      exact hnetworks
    · simp only [SubnetsLoaded, COpenstackResource.clearNetwork, report, hpoint]
      exact hsubnets
  -- no network is left to be deleted
  · rename_i hpoint
    split_ifs at ht with hnone
    obtain rfl := Option.some.inj ht
    rw [hpoint] at hnetworks
    simp only [CaughtUp, hpoint] at hcaught
    refine ⟨hcore.startSubnets hcaught, ?_, rfl⟩
    intro reply hreply
    exact ⟨Option.some.inj (hnetworks.symm.trans hreply), hnone⟩
  -- the subnets are not loaded
  · rename_i hpoint
    obtain rfl := Option.some.inj ht
    rw [hpoint] at hnetworks
    refine ⟨hcore.move, hnetworks, ?_⟩
    intro reply hreply
    cases hreply
  -- the subnets are loaded
  · rename_i reply hpoint
    obtain rfl := Option.some.inj ht
    rw [hpoint] at hnetworks hsubnets
    refine ⟨hcore.move, hnetworks, ?_⟩
    simp only [SubnetsLoaded]
    rw [hsubnets]
    rfl
  -- a subnet is added
  · rename_i subnet rest hpoint
    obtain rfl := Option.some.inj ht
    rw [hpoint] at hnetworks hsubnets
    simp only [CaughtUp, hpoint] at hcaught
    have hadd := hcore.addOpenstackSubnet hcaught.1 hcaught.2
    refine ⟨hadd.move, hnetworks, ?_⟩
    simp only [SubnetsLoaded, COpenstackResource.addOpenstackSubnet, report, List.reverse_cons, List.append_assoc]
    exact hsubnets
  -- all subnets have been added
  · rename_i hpoint
    obtain rfl := Option.some.inj ht
    rw [hpoint] at hnetworks hsubnets
    refine ⟨hcore.move, hnetworks, ?_⟩
    simpa [SubnetsLoaded] using hsubnets
  -- a subnet is deleted
  · rename_i id hpoint
    split_ifs at ht with hid
    obtain rfl := Option.some.inj ht
    rw [hpoint] at hnetworks hsubnets
    have hroom : t.queue.length < holdNumber := by simpa [CaughtUp] using hcaught
    refine ⟨hcore.clearSubnet hroom hid, ?_, ?_⟩
    · simp only [NetworksLoaded, COpenstackResource.clearSubnet, report, hpoint]
      exact hnetworks
    · simp only [SubnetsLoaded, COpenstackResource.clearSubnet, report, hpoint]
      exact hsubnets
  -- no subnet is left to be deleted
  · rename_i hpoint
    split_ifs at ht with hnone
    obtain rfl := Option.some.inj ht
    rw [hpoint] at hnetworks hsubnets
    refine ⟨hcore.move, hnetworks, ?_⟩
    intro reply hreply
    exact ⟨Option.some.inj (hsubnets.symm.trans hreply), hnone⟩
  -- an event is consumed
  · exact hinv.consume ht
  · cases ht

theorem all_checked {A : Type} {list : List (Entry A)} (h : unchecked list = []) : ∀ e ∈ list, e.checked := by
  intro e he
  by_contra hchecked
  have hmem : e.item ∈ unchecked list := mem_unchecked.mpr ⟨e, he, rfl, Bool.eq_false_of_not_eq_true hchecked⟩
  rw [h] at hmem
  cases hmem

def network₁ : COpenstackNetwork := ⟨[1], [], true, true, [[2], [3]]⟩
def subnet₂ : COpenstackSubnet := ⟨[2], [], [1], [], [], [], []⟩
def subnet₃ : COpenstackSubnet := ⟨[3], [], [1], [], [], [], []⟩

/-- An external network with two subnets, one of which is gone in the second round. -/
def twoRounds : List LoadAct :=
  [.begin, .networks (some [network₁]), .parse, .parse, .cleared, .subnets (some [subnet₂, subnet₃]), .parse, .consume,
    .parse, .parse, .cleared, .consume, .consume, .begin, .networks none, .subnets (some [subnet₃]), .parse, .parse,
    .clear [2], .cleared, .consume]

end

end COpenstackResource

end DCFabric
