import DCFabric.NatConnect

namespace DCFabric

open TransitionRuns

/-- The host's only connection is one of the list that satisfies `q`. -/
def nat_host.IsLast (host : nat_host) (pr : NatProto) (q : nat_port → Prop) : Prop :=
  ∃ p, host.port_list pr = [p] ∧ q p ∧ ∀ pr' ≠ pr, host.port_list pr' = []

namespace NatTables

/-- The nodes in use are those that the host list leads to, `g_nat_port_total_count` counts those of the port pool, and
every host has a connection. -/
structure Capacity (s : NatTables) : Prop where
  count : s.g_nat_port_total_count = s.portNodes.length
  ports : ∀ a, s.g_nat_port_id.InUse a ↔ a ∈ s.portNodes
  hosts : ∀ a, s.g_nat_host_id.InUse a ↔ a ∈ s.hostNodes
  connected : ∀ h ∈ s.hosts, ∃ pr, h.port_list pr ≠ []

/-- A creation that returns 0 leaves the hosts as they were. -/
def ZeroKeepsHosts (s : NatTables) : NatCall → Prop
  | .create_nat_connect conn host_ip proto_type =>
    (s.create_nat_connect conn host_ip proto_type).1 = 0 →
      (s.create_nat_connect conn host_ip proto_type).2.hosts = s.hosts
  | _ => True

/-- A new host is created for TCP or UDP and with the nodes for its connection, and a destruction does not end the last
connection of its host. -/
def KeepsCapacity (s : NatTables) : NatCall → Prop
  | .create_nat_connect _ host_ip proto_type =>
    s.find_nat_host_by_ip host_ip = none → s.host_num < NAT_HOST_MAX_NUM - 1 →
      natProto proto_type ≠ none ∧ 3 ≤ s.g_nat_port_id.usable_len
  | .destroy_nat_connect host_ip external_port_no proto_type =>
    ∀ host pr, s.find_nat_host_by_ip host_ip = some host → natProto proto_type = some pr →
      ¬ host.IsLast pr fun p => p.external_port_no = external_port_no
  | .destroy_nat_connect_by_mac_and_port dpid host_ip internal_mac internal_port_no proto_type =>
    ∀ host pr, s.find_nat_host_by_ip host_ip = some host → natProto proto_type = some pr →
      ¬ host.IsLast pr fun p => p.IsFrom dpid internal_mac internal_port_no

variable {s s' : NatTables} {leaked : List ℕ} {host : nat_host} {l₁ l₂ : List nat_host} {ip : UINT4} {pr : NatProto}
  {l : List nat_port} {conn : NatConnection} {proto_type : UINT1}

theorem Inv.capacity (hi : s.Inv []) (hc : ∀ h ∈ s.hosts, ∃ pr, h.port_list pr ≠ []) : s.Capacity where
  count := by simpa using hi.count
  ports := by simpa using hi.ports_owned.inUse
  hosts := hi.hosts_owned.inUse
  connected := hc

theorem connected_replace (hs : s.hosts = l₁ ++ host :: l₂) (hc : ∀ h ∈ s.hosts, ∃ pr, h.port_list pr ≠ [])
    (hs' : s'.hosts = l₁ ++ host.setPortList pr l :: l₂)
    (hl : ∃ pr', (host.setPortList pr l).port_list pr' ≠ []) : ∀ h ∈ s'.hosts, ∃ pr, h.port_list pr ≠ [] := by
  intro h hh
  rw [hs', List.mem_append, List.mem_cons] at hh
  rcases hh with hh | rfl | hh
  · exact hc h (by simp [hs, hh])
  · exact hl
  · exact hc h (by simp [hs, hh])

/-- A host node is lost where the port pool has no two nodes for the lists of the host. -/
theorem create_nat_host_starved (hi : s.Inv leaked) (hf : s.find_nat_host_by_ip ip = none)
    (hlimit : s.host_num < NAT_HOST_MAX_NUM - 1) (hu : s.g_nat_port_id.usable_len < 2) :
    ∃ t, s.create_nat_host ip = (none, t) ∧ t.hostNodes = s.hostNodes ∧
      ∃ a, t.g_nat_host_id.InUse a ∧ a ∉ t.hostNodes := by
  have hany : (s.hosts.any fun h => h.host_ip = ip) = false := by simpa using find_host_none.mp hf
  rw [create_nat_host, if_neg (by omega), hany, if_neg (by simp)]
  have hroom := hi.host_num_add_usable
  obtain ⟨⟨address, hostPool⟩, hg⟩ : ∃ got, s.g_nat_host_id.mem_get = some got :=
    Option.ne_none_iff_exists'.mp fun hn => by
      have := MemPool.mem_get_eq_none.mp hn
      omega
  have hlost : hostPool.InUse address ∧ address ∉ s.hostNodes :=
    ⟨(MemPool.mem_get_inUse hg address).mpr (.inl rfl), fun hm =>
      MemPool.mem_get_fresh hg ((hi.hosts_owned.inUse address).mpr hm)⟩
  rw [hg]
  simp only
  by_cases hz : s.g_nat_port_id.usable_len = 0
  · have hnone : init_nat_port { s with g_nat_host_id := hostPool } = none := by
      simp only [init_nat_port, MemPool.mem_get_eq_none.mpr hz, Option.map_none]
    rw [hnone]
    exact ⟨_, rfl, rfl, address, hlost⟩
  · obtain ⟨tcp, pool, hg₁, hu₁, he₁⟩ := init_nat_port_spec (s := { s with g_nat_host_id := hostPool }) hz
    simp only at hg₁ hu₁
    have hnone : init_nat_port { s with
        g_nat_host_id := hostPool, g_nat_port_id := pool
        g_nat_port_total_count := s.g_nat_port_total_count + 1 } = none := by
      simp only [init_nat_port, MemPool.mem_get_eq_none.mpr (by omega : pool.usable_len = 0), Option.map_none]
    rw [he₁]
    simp only
    rw [hnone]
    exact ⟨_, rfl, rfl, address, hlost⟩

theorem connectHost_capacity (hi : s.Inv []) (hc : ∀ h ∈ s.hosts, ∃ pr, h.port_list pr ≠ []) (hhost : host ∈ s.hosts)
    (conn : NatConnection) (proto_type : UINT1) :
    (s.connectHost host conn proto_type).2.Inv [] ∧
      (∀ h ∈ (s.connectHost host conn proto_type).2.hosts, ∃ pr, h.port_list pr ≠ []) ∧
      ((s.connectHost host conn proto_type).1 = 0 → (s.connectHost host conn proto_type).2.hosts = s.hosts) := by
  obtain ⟨l₁, l₂, hs⟩ := List.append_of_mem hhost
  rcases connectHost_spec hi hs conn proto_type with
    ⟨he, -⟩ | ⟨s', x, pr, l, he, hpr, hi', hs', ⟨p, hp, hpx, -⟩, -, -⟩
  · rw [he]
    exact ⟨hi, hc, fun _ => rfl⟩
  · rw [he]
    refine ⟨hi', connected_replace hs hc hs' ⟨pr, ?_⟩, ?_⟩
    · rw [setPortList_self]
      exact List.ne_nil_of_mem hp
    · rintro rfl
      have ho := hi'.ordered (host.setPortList pr l) (by simp [hs']) pr
      rw [setPortList_self] at ho
      have hmin := (ho.range p hp).1
      rw [hpx] at hmin
      exact absurd hmin (by decide)

/-- A new host gets its connection if and only if the protocol has lists and the pool has a node. -/
theorem connect_new_host (hi : s.Inv []) (hs : s.hosts = l₁ ++ [host]) (he : ∀ pr, host.port_list pr = [])
    (hc : ∀ h ∈ l₁, ∃ pr, h.port_list pr ≠ []) (conn : NatConnection) (proto_type : UINT1) :
    (natProto proto_type ≠ none ∧ s.g_nat_port_id.usable_len ≠ 0) ∧
        (s.connectHost host conn proto_type).2.Inv [] ∧
        (∀ h ∈ (s.connectHost host conn proto_type).2.hosts, ∃ pr, h.port_list pr ≠ []) ∧
        (s.connectHost host conn proto_type).1 ≠ 0 ∨
      (natProto proto_type = none ∨ s.g_nat_port_id.usable_len = 0) ∧
        host ∈ (s.connectHost host conn proto_type).2.hosts := by
  have hhost : host ∈ s.hosts := by simp [hs]
  rcases connectHost_spec hi hs conn proto_type with
    ⟨hr, hno⟩ | ⟨s', x, pr, l, hr, hpr, hi', hs', ⟨p, hp, hpx, -⟩, hold, -⟩
  · rw [hr]
    refine .inr ⟨?_, hhost⟩
    cases hpr : natProto proto_type with
    | none => exact .inl rfl
    | some pr =>
      refine .inr ((hno pr hpr).2.resolve_right ?_)
      rw [he]
      intro hfull
      obtain ⟨p, hp, -⟩ := hfull 49201 (by decide) (by decide)
      cases hp
  · rw [hr]
    have ho := hi'.ordered (host.setPortList pr l) (by simp [hs']) pr
    rw [setPortList_self] at ho
    refine .inl ⟨⟨by simp [hpr], ?_⟩, hi', ?_, ?_⟩
    · rcases hold with ⟨r, hr, -⟩ | ⟨-, -, hu⟩
      · rw [he] at hr
        cases hr
      · exact hu
    · intro h hh
      rw [hs', List.mem_append, List.mem_singleton] at hh
      rcases hh with hh | rfl
      · exact hc h hh
      · exact ⟨pr, by rw [setPortList_self]; exact List.ne_nil_of_mem hp⟩
    · rintro rfl
      have hmin := (ho.range p hp).1
      rw [hpx] at hmin
      exact absurd hmin (by decide)

theorem create_capacity (hi : s.Inv []) (hc : ∀ h ∈ s.hosts, ∃ pr, h.port_list pr ≠ []) (conn : NatConnection)
    (ip : UINT4) (proto_type : UINT1) :
    s.KeepsCapacity (.create_nat_connect conn ip proto_type) ∧
        (s.create_nat_connect conn ip proto_type).2.Inv [] ∧
        (∀ h ∈ (s.create_nat_connect conn ip proto_type).2.hosts, ∃ pr, h.port_list pr ≠ []) ∧
        s.ZeroKeepsHosts (.create_nat_connect conn ip proto_type) ∨
      ¬ s.KeepsCapacity (.create_nat_connect conn ip proto_type) ∧
        ¬ (s.create_nat_connect conn ip proto_type).2.Capacity := by
  rw [KeepsCapacity, ZeroKeepsHosts]
  cases hf : s.find_nat_host_by_ip ip with
  | some host =>
    have hsame : s.create_nat_connect conn ip proto_type = s.connectHost host conn proto_type := by
      simp only [create_nat_connect, hf]
    obtain ⟨hi', hc', hz⟩ := connectHost_capacity hi hc (List.mem_of_find?_eq_some hf) conn proto_type
    rw [hsame]
    exact .inl ⟨fun hnone => (by cases hnone), hi', hc', hz⟩
  | none =>
    by_cases hlimit : NAT_HOST_MAX_NUM - 1 ≤ s.host_num
    · have hsame : s.create_nat_connect conn ip proto_type = (0, s) := by
        simp only [create_nat_connect, hf, create_nat_host_full hlimit]
      rw [hsame]
      exact .inl ⟨fun _ hlt => absurd hlimit (not_le.mpr hlt), hi, hc, fun _ => rfl⟩
    rw [not_le] at hlimit
    by_cases hu : s.g_nat_port_id.usable_len < 2
    · -- the pool has no nodes for the lists of the host
      obtain ⟨t, he, hnodes, a, ha, hlost⟩ := create_nat_host_starved hi hf hlimit hu
      have hsame : s.create_nat_connect conn ip proto_type = (0, t) := by
        simp only [create_nat_connect, hf, he]
      rw [hsame]
      refine .inr ⟨fun hk => ?_, fun hcap => hlost ((hcap.hosts a).mp ha)⟩
      have := (hk rfl hlimit).2
      omega
    · obtain ⟨host, t, he, ht, hts, -, hempty, hut⟩ := create_nat_host_spec hi hf hlimit (not_lt.mp hu)
      have hsame : s.create_nat_connect conn ip proto_type = t.connectHost host conn proto_type := by
        simp only [create_nat_connect, hf, he]
      rw [hsame]
      rcases connect_new_host ht hts hempty hc conn proto_type with
        ⟨⟨hpr, hroom⟩, hi', hc', hx⟩ | ⟨hwhy, hleft⟩
      · exact .inl ⟨fun _ _ => ⟨hpr, by omega⟩, hi', hc', fun hz => absurd hz hx⟩
      · refine .inr ⟨fun hk => ?_, fun hcap => ?_⟩
        · obtain ⟨hpr, hroom⟩ := hk rfl hlimit
          exact hwhy.elim hpr fun hz => by omega
        · obtain ⟨pr, hpr⟩ := hcap.connected host hleft
          exact hpr (hempty pr)

theorem removedFrom_singleton {q : nat_port → Prop} {p : nat_port} (h : RemovedFrom q [p] l) (hp : q p) : l = [] := by
  rcases h with ⟨-, hno⟩ | ⟨k₁, r, k₂, hk, rfl, -, -⟩
  · exact absurd hp (hno p List.mem_cons_self)
  · have hlen := congrArg List.length hk
    rw [List.length_singleton, List.length_append, List.length_cons] at hlen
    rw [List.eq_nil_of_length_eq_zero (by omega : k₁.length = 0),
      List.eq_nil_of_length_eq_zero (by omega : k₂.length = 0)]
    rfl

/-- The host is left without connections exactly when its last connection is taken out. -/
theorem unused_iff_last {q : nat_port → Prop} (hc : ∃ pr, host.port_list pr ≠ [])
    (hl : RemovedFrom q (host.port_list pr) l) : (host.setPortList pr l).unused ↔ host.IsLast pr q := by
  rw [unused_iff]
  constructor
  · intro hall
    have hnil : l = [] := by simpa [setPortList_self] using hall pr
    have hothers : ∀ pr' ≠ pr, host.port_list pr' = [] := by
      intro pr' hne
      simpa [nat_host.setPortList, hne] using hall pr'
    rcases hl with ⟨hsame, -⟩ | ⟨k₁, r, k₂, hk, hkl, hq, -⟩
    · obtain ⟨pr', hpr'⟩ := hc
      refine absurd ?_ hpr'
      by_cases hne : pr' = pr
      · rw [hne, ← hsame, hnil]
      · exact hothers pr' hne
    · obtain ⟨rfl, rfl⟩ := List.append_eq_nil_iff.mp (hkl.symm.trans hnil)
      exact ⟨r, hk, hq, hothers⟩
  · rintro ⟨p, hp, hq, hothers⟩ pr'
    by_cases hne : pr' = pr
    · subst hne
      rw [setPortList_self]
      exact removedFrom_singleton (hp ▸ hl) hq
    · simpa [nat_host.setPortList, hne] using hothers pr' hne

theorem destroy_capacity (hi : s.Inv []) (hc : ∀ h ∈ s.hosts, ∃ pr, h.port_list pr ≠ []) (ip : UINT4)
    (proto_type : UINT1) {q : nat_port → Prop} {remove : List nat_port → Option (nat_port × List nat_port)}
    (hrem : ∀ l, Ordered l → RemovesFirst q l (remove l)) :
    (∀ host pr, s.find_nat_host_by_ip ip = some host → natProto proto_type = some pr → ¬ host.IsLast pr q) ∧
        (s.destroy ip proto_type remove).Inv [] ∧
        (∀ h ∈ (s.destroy ip proto_type remove).hosts, ∃ pr, h.port_list pr ≠ []) ∨
      ¬ (∀ host pr, s.find_nat_host_by_ip ip = some host → natProto proto_type = some pr → ¬ host.IsLast pr q) ∧
        ¬ (s.destroy ip proto_type remove).Capacity := by
  rcases destroy_spec hi ip proto_type hrem with
    ⟨he, hno⟩ | ⟨host, l₁, l₂, pr, l, t, hf, hpr, hs, rfl, hl, ht, hts, he⟩
  · rw [he]
    refine .inl ⟨?_, hi, hc⟩
    intro host pr hf hpr
    rcases hno with hno | hno
    · rw [hno] at hf
      cases hf
    · rw [hno] at hpr
      cases hpr
  · have hlast := unused_iff_last (hc host (by simp [hs])) hl
    rw [he]
    by_cases hunused : (host.setPortList pr l).unused
    · rw [if_pos hunused]
      have hcap := (ht.remove_nat_host hts (unused_iff.mp hunused)).2
      refine .inr ⟨fun hk => hk host pr hf hpr (hlast.mp hunused), fun h => ?_⟩
      exact List.cons_ne_nil _ _ (hcap.ports_owned.inUse_iff.mp h.ports)
    · rw [if_neg hunused]
      refine .inl ⟨?_, ht, ?_⟩
      · intro host' pr' hf' hpr' h
        obtain rfl := Option.some.inj (hf.symm.trans hf')
        obtain rfl := Option.some.inj (hpr.symm.trans hpr')
        exact hunused (hlast.mpr h)
      · apply connected_replace hs hc hts
        rw [unused_iff] at hunused
        push Not at hunused
        exact hunused

/-- A call keeps what it finds exactly when it meets the condition. -/
theorem call_capacity (hi : s.Inv []) (hc : ∀ h ∈ s.hosts, ∃ pr, h.port_list pr ≠ []) (c : NatCall) :
    s.KeepsCapacity c ∧ (s.call c).Inv [] ∧ (∀ h ∈ (s.call c).hosts, ∃ pr, h.port_list pr ≠ []) ∧ s.ZeroKeepsHosts c ∨
      ¬ s.KeepsCapacity c ∧ ¬ (s.call c).Capacity := by
  cases c with
  | create_nat_connect conn host_ip proto_type => exact create_capacity hi hc conn host_ip proto_type
  | destroy_nat_connect host_ip x proto_type =>
    exact (destroy_capacity hi hc host_ip proto_type fun l hl =>
      remove_nat_port_by_port_no_spec hl.increasing x).imp (fun h => ⟨h.1, h.2.1, h.2.2, trivial⟩) id
  | destroy_nat_connect_by_mac_and_port dpid host_ip internal_mac internal_port_no proto_type =>
    exact (destroy_capacity hi hc host_ip proto_type fun l _ =>
      remove_nat_port_by_mac_and_port_spec l dpid internal_mac internal_port_no).imp
        (fun h => ⟨h.1, h.2.1, h.2.2, trivial⟩) id

/-- The count, the pools and the host list agree as long as no call creates a host that it leaves without a connection
and no call ends the last connection of a host, and not after such a call. -/
theorem nat_capacity_kept (h : Run step KeepsCapacity start s) :
    s.Capacity ∧ ∀ c, s.KeepsCapacity c ↔ (s.call c).Capacity ∧ s.ZeroKeepsHosts c := by
  obtain ⟨hi, hc⟩ : s.Inv [] ∧ ∀ h ∈ s.hosts, ∃ pr, h.port_list pr ≠ [] := by
    refine h.invariant (P := fun s => s.Inv [] ∧ ∀ h ∈ s.hosts, ∃ pr, h.port_list pr ≠ []) ?_
      ⟨start_inv, fun h hh => absurd hh List.not_mem_nil⟩
    rintro t c u ⟨hi, hc⟩ hk he
    obtain rfl := Option.some.inj he
    rcases call_capacity hi hc c with ⟨-, hi', hc', -⟩ | ⟨hno, -⟩
    · exact ⟨hi', hc'⟩
    · exact absurd hk hno
  refine ⟨hi.capacity hc, ?_⟩
  intro c
  rcases call_capacity hi hc c with ⟨hk, hi', hc', hz⟩ | ⟨hno, hcap⟩
  · exact ⟨fun _ => ⟨hi'.capacity hc', hz⟩, fun _ => hk⟩
  · exact ⟨fun hk => absurd hk hno, fun h => absurd h.1 hcap⟩

/-- Two connections of a host, of which one is destroyed. -/
def onePort : List NatCall :=
  [.create_nat_connect (NatRun.webConnection 1) 9 IPPROTO_TCP,
    .create_nat_connect (NatRun.webConnection 2) 9 IPPROTO_UDP,
    .destroy_nat_connect 9 49201 IPPROTO_TCP]

theorem onePort_capacity : ∃ s, exec step start onePort = some s ∧ s.Capacity := by
  have hrun : Run step KeepsCapacity start _ :=
    .tail (a := .destroy_nat_connect 9 49201 IPPROTO_TCP)
      (.tail (a := .create_nat_connect (NatRun.webConnection 2) 9 IPPROTO_UDP)
        (.tail (a := .create_nat_connect (NatRun.webConnection 1) 9 IPPROTO_TCP) .refl
          (fun _ _ => ⟨by decide, by decide⟩) rfl)
        (fun hnone => nomatch hnone) rfl)
      (by
        rintro host pr hf hpr ⟨p, -, -, hothers⟩
        obtain rfl := Option.some.inj hf
        obtain rfl := Option.some.inj hpr
        exact List.cons_ne_nil _ _ (hothers .udp (by decide))) rfl
  exact ⟨_, rfl, (nat_capacity_kept hrun).1⟩

/-- The head nodes of a host go lost with its last connection. -/
theorem head_nodes_lost : ¬ ∀ s, Reaches step start s → s.Capacity := by
  intro h
  have hexec : exec step start [.create_nat_connect (NatRun.webConnection 1) 9 IPPROTO_TCP,
    .destroy_nat_connect 9 49201 IPPROTO_TCP] = some _ := rfl
  have hports := (h _ (Reaches.of_exec hexec)).ports 2
  have hlost : 2 ∈ [0, 1] := hports.mp (by decide)
  exact absurd hlost (by decide)

end NatTables

end DCFabric
