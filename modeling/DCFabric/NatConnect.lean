import DCFabric.MemPool
import DCFabric.SyncTables
import DCFabric.TransitionRuns

namespace DCFabric

open TransitionRuns

def NAT_HOST_MAX_NUM : ℕ := 10000
def NAT_PORT_MAX_VALUE : UINT2 := 59200
def NAT_PORT_MIN_VALUE : UINT2 := 49200
def NAT_PORT_MAX_COUNT : ℕ := 10000 * NAT_HOST_MAX_NUM

structure NatConnection where
  internal_ip : UINT4
  internal_port_no : UINT2
  internal_mac : BitVec 48
  gateway_dpid : UINT8
  src_dpid : UINT8
deriving DecidableEq

/-- A connection and its external port, in a node of the port pool. -/
structure nat_port extends NatConnection where
  address : ℕ
  external_port_no : UINT2
deriving DecidableEq

inductive NatProto where
  | tcp
  | udp
deriving DecidableEq

/-- The list that a protocol type selects. -/
def natProto (proto_type : UINT1) : Option NatProto :=
  if IPPROTO_TCP = proto_type then some .tcp else if IPPROTO_UDP = proto_type then some .udp else none

/-- `tcp_port_list` and `udp_port_list` of an external host: the addresses of their head nodes, whose port is
`NAT_PORT_MIN_VALUE`, and the connections after them. -/
structure nat_host where
  address : ℕ
  host_ip : UINT4
  port_head : NatProto → ℕ
  port_list : NatProto → List nat_port

/-- The pools and the lists. The first node of `g_nat_host_list_head` has the number of hosts as its `host_ip`, and two
port lists of its own. -/
structure NatTables where
  g_nat_host_id : MemPool
  g_nat_port_id : MemPool
  g_nat_port_total_count : ℕ
  head_address : ℕ
  head_ports : NatProto → ℕ
  host_num : ℕ
  hosts : List nat_host

inductive NatCall where
  | create_nat_connect (conn : NatConnection) (host_ip : UINT4) (proto_type : UINT1)
  | destroy_nat_connect (host_ip : UINT4) (external_port_no : UINT2) (proto_type : UINT1)
  | destroy_nat_connect_by_mac_and_port (dpid : UINT8) (host_ip : UINT4) (internal_mac : BitVec 48)
    (internal_port_no : UINT2) (proto_type : UINT1)

def nat_host.setPortList (host : nat_host) (pr : NatProto) (l : List nat_port) : nat_host :=
  { host with port_list := Function.update host.port_list pr l }

/-- Both lists are empty. -/
def nat_host.unused (host : nat_host) : Bool := (host.port_list .tcp).isEmpty && (host.port_list .udp).isEmpty

/-- The connections before the first free port, the port before it, and the connections after it. -/
def firstGap : UINT2 → List nat_port → List nat_port × UINT2 × List nat_port
  | current_min_port_no, [] => ([], current_min_port_no, [])
  | current_min_port_no, p :: l =>
    if p.external_port_no.toNat > current_min_port_no.toNat + 1 then ([], current_min_port_no, p :: l)
    else
      let (before, port_no, after) := firstGap p.external_port_no l
      (p :: before, port_no, after)

/-- The search ends at the first port that is larger. -/
def find_nat_port_by_port_no (external_port_no : UINT2) : List nat_port → Option nat_port
  | [] => none
  | p :: l =>
    if p.external_port_no ≤ external_port_no then
      if p.external_port_no = external_port_no then some p else find_nat_port_by_port_no external_port_no l
    else none

def find_nat_port_by_ip_and_port (internal_ip : UINT4) (internal_port_no : UINT2) (l : List nat_port) :
    Option nat_port := l.find? fun p => p.internal_ip = internal_ip ∧ p.internal_port_no = internal_port_no

/-- The connection that is taken out, and the list without it. -/
def remove_nat_port_by_port_no (external_port_no : UINT2) : List nat_port → Option (nat_port × List nat_port)
  | [] => none
  | p :: l =>
    if p.external_port_no ≤ external_port_no then
      if p.external_port_no = external_port_no then some (p, l)
      else (remove_nat_port_by_port_no external_port_no l).map fun (r, l) => (r, p :: l)
    else none

def remove_nat_port_by_mac_and_port (sw_dpid : UINT8) (internal_mac : BitVec 48) (internal_port_no : UINT2) :
    List nat_port → Option (nat_port × List nat_port)
  | [] => none
  | p :: l =>
    if p.internal_mac = internal_mac ∧ p.internal_port_no = internal_port_no ∧ p.src_dpid = sw_dpid then some (p, l)
    else (remove_nat_port_by_mac_and_port sw_dpid internal_mac internal_port_no l).map fun (r, l) => (r, p :: l)

/-- `src_dpid` is set in the node of a connection. -/
def setSrcDpid (l : List nat_port) (port : nat_port) (src_dpid : UINT8) : List nat_port :=
  l.map fun p => if p.address = port.address then { p with src_dpid := src_dpid } else p

section Ports

/-- The external ports increase, in the range of the ports that connections get. -/
structure Ordered (l : List nat_port) : Prop where
  increasing : l.Pairwise fun p q => p.external_port_no < q.external_port_no
  range : ∀ p ∈ l, NAT_PORT_MIN_VALUE < p.external_port_no ∧ p.external_port_no ≤ NAT_PORT_MAX_VALUE

def NatConnection.internal (p : NatConnection) : UINT4 × UINT2 := (p.internal_ip, p.internal_port_no)

/-- No two connections have the same internal address and port. -/
def InternalDistinct (l : List nat_port) : Prop := (l.map fun p => p.internal).Nodup

/-- The connection with an external port. -/
def lookupPort (l : List nat_port) (x : UINT2) : Option NatConnection :=
  (l.find? fun p => p.external_port_no = x).map nat_port.toNatConnection

/-- What taking the first connection that satisfies `q` out of the list gives. -/
def RemovesFirst (q : nat_port → Prop) (l : List nat_port) : Option (nat_port × List nat_port) → Prop
  | none => ∀ p ∈ l, ¬ q p
  | some (r, l') => ∃ l₁ l₂, l = l₁ ++ r :: l₂ ∧ l' = l₁ ++ l₂ ∧ q r ∧ ∀ p ∈ l₁, ¬ q p

variable {l l' l₁ l₂ : List nat_port} {m x y : UINT2} {p r : nat_port} {q : nat_port → Prop}

theorem find_nat_port_by_port_no_eq (hl : l.Pairwise fun p q => p.external_port_no < q.external_port_no) :
    find_nat_port_by_port_no x l = l.find? fun p => p.external_port_no = x := by
  induction l with
  | nil => rfl
  | cons p l ih =>
    obtain ⟨hp, hl⟩ := List.pairwise_cons.mp hl
    rw [find_nat_port_by_port_no, List.find?_cons]
    by_cases hx : p.external_port_no = x
    · subst hx
      simp
    · simp only [hx, decide_false, if_false]
      split_ifs with hle
      · exact ih hl
      · symm
        rw [List.find?_eq_none]
        intro r hr hrx
        have hlt : p.external_port_no < x := (of_decide_eq_true hrx) ▸ hp r hr
        exact hle (UInt16.le_of_lt hlt)

theorem removesFirst_cons_of_not (hp : ¬ q p) {o : Option (nat_port × List nat_port)} (ho : RemovesFirst q l o) :
    RemovesFirst q (p :: l) (o.map fun (r, l) => (r, p :: l)) := by
  cases o with
  | none => exact List.forall_mem_cons.mpr ⟨hp, ho⟩
  | some o =>
    obtain ⟨r, l'⟩ := o
    obtain ⟨l₁, l₂, rfl, rfl, hr, hl₁⟩ := ho
    exact ⟨p :: l₁, l₂, rfl, rfl, hr, List.forall_mem_cons.mpr ⟨hp, hl₁⟩⟩

theorem remove_nat_port_by_port_no_spec (hl : l.Pairwise fun p q => p.external_port_no < q.external_port_no)
    (x : UINT2) : RemovesFirst (fun p => p.external_port_no = x) l (remove_nat_port_by_port_no x l) := by
  induction l with
  | nil => exact List.forall_mem_nil _
  | cons p l ih =>
    obtain ⟨hp, hl⟩ := List.pairwise_cons.mp hl
    rw [remove_nat_port_by_port_no]
    split_ifs with hle hx
    · exact ⟨[], l, rfl, rfl, hx, List.forall_mem_nil _⟩
    · exact removesFirst_cons_of_not hx (ih hl)
    · refine List.forall_mem_cons.mpr ⟨?_, ?_⟩
      · rintro rfl
        exact hle (UInt16.le_refl _)
      · rintro r hr rfl
        exact hle (UInt16.le_of_lt (hp r hr))

theorem remove_nat_port_by_mac_and_port_spec (l : List nat_port) (sw_dpid : UINT8) (internal_mac : BitVec 48)
    (internal_port_no : UINT2) :
    RemovesFirst (fun p => p.internal_mac = internal_mac ∧ p.internal_port_no = internal_port_no ∧ p.src_dpid = sw_dpid)
      l (remove_nat_port_by_mac_and_port sw_dpid internal_mac internal_port_no l) := by
  induction l with
  | nil => exact List.forall_mem_nil _
  | cons p l ih =>
    rw [remove_nat_port_by_mac_and_port]
    split_ifs with hp
    · exact ⟨[], l, rfl, rfl, hp, List.forall_mem_nil _⟩
    · exact removesFirst_cons_of_not hp ih

/-- Where the search for a free port ends: the ports up to the one before the gap are taken. -/
theorem firstGap_spec (hl : l.Pairwise fun p q => p.external_port_no < q.external_port_no)
    (hm : ∀ p ∈ l, m < p.external_port_no) :
    (firstGap m l).1 ++ (firstGap m l).2.2 = l ∧ m ≤ (firstGap m l).2.1 ∧
      (∀ p ∈ (firstGap m l).1, p.external_port_no ≤ (firstGap m l).2.1) ∧
      (∀ p ∈ (firstGap m l).2.2, (firstGap m l).2.1.toNat + 1 < p.external_port_no.toNat) ∧
      (∀ x, m < x → x ≤ (firstGap m l).2.1 → ∃ p ∈ l, p.external_port_no = x) := by
  induction l generalizing m with
  | nil =>
    exact ⟨rfl, UInt16.le_refl m, by simp [firstGap], by simp [firstGap], fun x hx hx' =>
      absurd hx (UInt16.not_lt.mpr hx')⟩
  | cons p l ih =>
    obtain ⟨hp, hl⟩ := List.pairwise_cons.mp hl
    have hmp : m < p.external_port_no := hm p List.mem_cons_self
    rw [firstGap]
    split_ifs with hgap
    · refine ⟨rfl, UInt16.le_refl m, by simp, ?_, fun x hx hx' => absurd hx (UInt16.not_lt.mpr hx')⟩
      intro r hr
      rcases List.mem_cons.mp hr with rfl | hr
      · exact hgap
      · exact hgap.trans (UInt16.lt_iff_toNat_lt.mp (hp r hr))
    · obtain ⟨hsplit, hle, hbefore, hafter, htaken⟩ := ih hl hp
      refine ⟨by simp [hsplit], UInt16.le_trans (UInt16.le_of_lt hmp) hle, ?_, hafter, ?_⟩
      · exact List.forall_mem_cons.mpr ⟨hle, hbefore⟩
      · intro x hx hx'
        by_cases hpx : p.external_port_no < x
        · obtain ⟨r, hr, hrx⟩ := htaken x hpx hx'
          exact ⟨r, List.mem_cons_of_mem p hr, hrx⟩
        · refine ⟨p, List.mem_cons_self, ?_⟩
          rw [UInt16.lt_iff_toNat_lt] at hx hpx
          apply UInt16.toNat_inj.mp
          omega

theorem find?_none_of_not_mem (hx : ∀ p ∈ l, p.external_port_no ≠ x) :
    l.find? (fun p => p.external_port_no = x) = none := by
  rw [List.find?_eq_none]
  intro p hp hpx
  exact hx p hp (of_decide_eq_true hpx)

theorem lookupPort_insert (hx : ∀ p ∈ l₁ ++ l₂, p.external_port_no ≠ r.external_port_no) (y : UINT2) :
    lookupPort (l₁ ++ r :: l₂) y =
      if y = r.external_port_no then some r.toNatConnection else lookupPort (l₁ ++ l₂) y := by
  rw [lookupPort, lookupPort]
  split_ifs with hy
  · subst hy
    rw [List.find?_append, find?_none_of_not_mem fun p hp => hx p (List.mem_append_left l₂ hp)]
    simp
  · simp [List.find?_append, Ne.symm hy]

theorem lookupPort_remove (hl : (l₁ ++ r :: l₂).Pairwise fun p q => p.external_port_no < q.external_port_no)
    (y : UINT2) :
    lookupPort (l₁ ++ l₂) y = if y = r.external_port_no then none else lookupPort (l₁ ++ r :: l₂) y := by
  obtain ⟨-, hl₂, hcross⟩ := List.pairwise_append.mp hl
  have hx : ∀ p ∈ l₁ ++ l₂, p.external_port_no ≠ r.external_port_no := by
    intro p hp heq
    rcases List.mem_append.mp hp with hp | hp
    · exact UInt16.lt_irrefl _ (heq ▸ hcross p hp r List.mem_cons_self)
    · exact UInt16.lt_irrefl _ (heq ▸ (List.pairwise_cons.mp hl₂).1 p hp)
  rw [lookupPort_insert hx]
  split_ifs with hy
  · subst hy
    rw [lookupPort, find?_none_of_not_mem hx]
    rfl
  · rfl

theorem eq_of_external_port (hl : l.Pairwise fun p q => p.external_port_no < q.external_port_no) (hp : p ∈ l)
    (hr : r ∈ l) (h : p.external_port_no = r.external_port_no) : p = r := by
  induction l with
  | nil => cases hp
  | cons a l ih =>
    obtain ⟨ha, hl⟩ := List.pairwise_cons.mp hl
    rcases List.mem_cons.mp hp with rfl | hpl
    · rcases List.mem_cons.mp hr with rfl | hrl
      · rfl
      · exact absurd (h ▸ ha r hrl) (UInt16.lt_irrefl _)
    · rcases List.mem_cons.mp hr with rfl | hrl
      · exact absurd (h ▸ ha p hpl) (UInt16.lt_irrefl _)
      · exact ih hl hpl hrl

theorem lookupPort_eq_some (hl : l.Pairwise fun p q => p.external_port_no < q.external_port_no) {c : NatConnection} :
    lookupPort l x = some c ↔ ∃ p ∈ l, p.external_port_no = x ∧ p.toNatConnection = c := by
  rw [lookupPort, Option.map_eq_some_iff]
  constructor
  · rintro ⟨p, hp, rfl⟩
    exact ⟨p, List.mem_of_find?_eq_some hp, by simpa using List.find?_some hp, rfl⟩
  · rintro ⟨p, hp, rfl, rfl⟩
    refine ⟨p, ?_, rfl⟩
    cases hf : l.find? fun r => r.external_port_no = p.external_port_no with
    | none => exact absurd (List.find?_eq_none.mp hf p hp) (by simp)
    | some r =>
      have hr : r.external_port_no = p.external_port_no := by simpa using List.find?_some hf
      rw [eq_of_external_port hl (List.mem_of_find?_eq_some hf) hp hr]

theorem setSrcDpid_map {β : Type} (k : nat_port → β) (hk : ∀ p src_dpid, k { p with src_dpid := src_dpid } = k p)
    (l : List nat_port) (port : nat_port) (src_dpid : UINT8) : (setSrcDpid l port src_dpid).map k = l.map k := by
  rw [setSrcDpid, List.map_map]
  apply List.map_congr_left
  intro p _
  rw [Function.comp_apply]
  split_ifs
  · exact hk p src_dpid
  · rfl

theorem lookupPort_setSrcDpid (hl : l.Pairwise fun p q => p.external_port_no < q.external_port_no)
    (ha : (l.map nat_port.address).Nodup) (hp : p ∈ l) (src_dpid : UINT8) (y : UINT2) :
    lookupPort (setSrcDpid l p src_dpid) y =
      if y = p.external_port_no then some { p.toNatConnection with src_dpid := src_dpid } else lookupPort l y := by
  have hext : ∀ r : nat_port, (if r.address = p.address then { r with src_dpid := src_dpid } else r).external_port_no =
      r.external_port_no := by
    intro r
    split_ifs <;> rfl
  rw [lookupPort, setSrcDpid, List.find?_map]
  simp only [Function.comp_def, hext]
  rw [lookupPort]
  cases hf : l.find? fun r => r.external_port_no = y with
  | none =>
    rw [if_neg]
    · rfl
    · rintro rfl
      exact absurd (List.find?_eq_none.mp hf p hp) (by simp)
  | some r =>
    have hr : r.external_port_no = y := by simpa using List.find?_some hf
    have hrl := List.mem_of_find?_eq_some hf
    by_cases hy : y = p.external_port_no
    · obtain rfl := eq_of_external_port hl hrl hp (hr.trans hy)
      simp [hy]
    · have haddr : r.address ≠ p.address := by
        intro haddr
        obtain rfl := List.inj_on_of_nodup_map ha hrl hp haddr
        exact hy hr.symm
      simp [hy, haddr]

theorem Ordered.sublist (h : Ordered l) (hs : l'.Sublist l) : Ordered l' :=
  ⟨h.increasing.sublist hs, fun p hp => h.range p (hs.subset hp)⟩

theorem Ordered.congr (h : Ordered l) (hl : l'.map nat_port.external_port_no = l.map nat_port.external_port_no) :
    Ordered l' := by
  constructor
  · have hi := h.increasing
    rw [← List.pairwise_map (f := nat_port.external_port_no) (R := (· < ·))] at hi ⊢
    exact hl ▸ hi
  · have hr : ∀ x ∈ l.map nat_port.external_port_no, NAT_PORT_MIN_VALUE < x ∧ x ≤ NAT_PORT_MAX_VALUE := by
      intro x hx
      obtain ⟨p, hp, rfl⟩ := List.mem_map.mp hx
      exact h.range p hp
    intro p hp
    exact hr _ (hl ▸ List.mem_map_of_mem hp)

theorem find_nat_port_by_ip_and_port_eq_none {c : NatConnection} :
    find_nat_port_by_ip_and_port c.internal_ip c.internal_port_no l = none ↔ ∀ p ∈ l, p.internal ≠ c.internal := by
  simp [find_nat_port_by_ip_and_port, NatConnection.internal]

theorem internal_of_find {c : NatConnection}
    (h : find_nat_port_by_ip_and_port c.internal_ip c.internal_port_no l = some p) :
    p ∈ l ∧ p.internal = c.internal := by
  have hp : p.internal_ip = c.internal_ip ∧ p.internal_port_no = c.internal_port_no := by
    simpa using List.find?_some h
  exact ⟨List.mem_of_find?_eq_some h, Prod.ext hp.1 hp.2⟩

/-- All external ports of the list are taken. -/
def Full (l : List nat_port) : Prop :=
  ∀ x, NAT_PORT_MIN_VALUE < x → x ≤ NAT_PORT_MAX_VALUE → ∃ p ∈ l, p.external_port_no = x

theorem full_of_gap (ho : Ordered l) {n : UINT2} {before after : List nat_port}
    (hg : firstGap NAT_PORT_MIN_VALUE l = (before, n, after)) (hn : n = NAT_PORT_MAX_VALUE) : Full l := by
  obtain ⟨-, -, -, -, htaken⟩ := firstGap_spec ho.increasing fun p hp => (ho.range p hp).1
  rw [hg] at htaken
  intro x hx hx'
  exact htaken x hx (hn ▸ hx')

/-- A connection for the port after the gap's start fits between the two parts of the list. -/
theorem ordered_insert (ho : Ordered l) {n : UINT2} {before after : List nat_port}
    (hg : firstGap NAT_PORT_MIN_VALUE l = (before, n, after)) (hn : n ≠ NAT_PORT_MAX_VALUE)
    (hp : p.external_port_no = n + 1) : before ++ after = l ∧ Ordered (before ++ p :: after) ∧
      ∀ r ∈ before ++ after, r.external_port_no ≠ p.external_port_no := by
  obtain ⟨hsplit, hle, hbefore, hafter, htaken⟩ := firstGap_spec ho.increasing fun p hp => (ho.range p hp).1
  rw [hg] at hsplit hle hbefore hafter htaken
  simp only at hsplit hle hbefore hafter htaken
  have hlt : n.toNat < NAT_PORT_MAX_VALUE.toNat := by
    apply Nat.lt_of_le_of_ne
    · by_cases hmin : n = NAT_PORT_MIN_VALUE
      · rw [hmin]
        decide
      · obtain ⟨r, hr, rfl⟩ := htaken n (UInt16.lt_of_le_of_ne hle (Ne.symm hmin)) (UInt16.le_refl n)
        exact UInt16.le_iff_toNat_le.mp (ho.range r hr).2
    · exact fun h => hn (UInt16.toNat_inj.mp h)
  have hsucc : p.external_port_no.toNat = n.toNat + 1 := by
    rw [hp, UInt16.toNat_add, UInt16.toNat_one]
    apply Nat.mod_eq_of_lt
    exact Nat.lt_of_le_of_lt hlt (by decide)
  have hbefore' : ∀ r ∈ before, r.external_port_no < p.external_port_no := by
    intro r hr
    have := UInt16.le_iff_toNat_le.mp (hbefore r hr)
    rw [UInt16.lt_iff_toNat_lt]
    omega
  have hafter' : ∀ r ∈ after, p.external_port_no < r.external_port_no := by
    intro r hr
    have := hafter r hr
    rw [UInt16.lt_iff_toNat_lt]
    omega
  have hincr := ho.increasing
  rw [← hsplit] at hincr
  obtain ⟨hb, ha, hcross⟩ := List.pairwise_append.mp hincr
  refine ⟨hsplit, ⟨?_, ?_⟩, ?_⟩
  · refine List.pairwise_append.mpr ⟨hb, List.pairwise_cons.mpr ⟨hafter', ha⟩, ?_⟩
    intro r hr t ht
    rcases List.mem_cons.mp ht with rfl | ht
    · exact hbefore' r hr
    · exact hcross r hr t ht
  · intro r hr
    rcases List.mem_append.mp hr with hr | hr
    · exact ho.range r (hsplit ▸ List.mem_append_left _ hr)
    · rcases List.mem_cons.mp hr with rfl | hr
      · have := UInt16.le_iff_toNat_le.mp hle
        rw [UInt16.lt_iff_toNat_lt, UInt16.le_iff_toNat_le]
        omega
      · exact ho.range r (hsplit ▸ List.mem_append_right _ hr)
  · intro r hr heq
    rcases List.mem_append.mp hr with hr | hr
    · exact UInt16.lt_irrefl _ (heq ▸ hbefore' r hr)
    · exact UInt16.lt_irrefl _ (heq ▸ hafter' r hr)

end Ports

namespace NatTables

def find_nat_host_by_ip (s : NatTables) (host_ip : UINT4) : Option nat_host :=
  s.hosts.find? fun h => h.host_ip = host_ip

/-- The host at its address is changed. -/
def setHost (s : NatTables) (host : nat_host) : NatTables :=
  { s with hosts := s.hosts.map fun h => if h.address = host.address then host else h }

/-- A head node. -/
def init_nat_port (s : NatTables) : Option (ℕ × NatTables) :=
  s.g_nat_port_id.mem_get.map fun (address, pool) =>
    (address, { s with g_nat_port_id := pool, g_nat_port_total_count := s.g_nat_port_total_count + 1 })

/-- Nothing is given back where a pool is exhausted on the way. -/
def create_nat_host (s : NatTables) (host_ip : UINT4) : Option nat_host × NatTables :=
  if s.host_num ≥ NAT_HOST_MAX_NUM - 1 then (none, s)
  else if s.hosts.any fun h => h.host_ip = host_ip then (none, s)
  else
    match s.g_nat_host_id.mem_get with
    | none => (none, s)
    | some (address, pool) =>
      let s := { s with g_nat_host_id := pool }
      match s.init_nat_port with
      | none => (none, s)
      | some (tcp, s) =>
        match s.init_nat_port with
        | none => (none, s)
        | some (udp, s) =>
          let host : nat_host := ⟨address, host_ip, fun pr => if pr = .tcp then tcp else udp, fun _ => []⟩
          (some host, { s with hosts := s.hosts ++ [host], host_num := s.host_num + 1 })

/-- The connection gets the first free port. -/
def create_nat_port (s : NatTables) (host : nat_host) (pr : NatProto) (conn : NatConnection) :
    Option (nat_port × nat_host) × NatTables :=
  if NAT_PORT_MAX_COUNT = s.g_nat_port_total_count then (none, s)
  else
    let (before, current_min_port_no, after) := firstGap NAT_PORT_MIN_VALUE (host.port_list pr)
    if current_min_port_no = NAT_PORT_MAX_VALUE then (none, s)
    else
      match s.g_nat_port_id.mem_get with
      | none => (none, s)
      | some (address, pool) =>
        let port : nat_port := { conn with
          address := address, external_port_no := current_min_port_no + 1, src_dpid := 0 }
        let host := host.setPortList pr (before ++ port :: after)
        (some (port, host), { s.setHost host with
          g_nat_port_id := pool
          g_nat_port_total_count := s.g_nat_port_total_count + 1 })

/-- `create_nat_connect` once the host is there. -/
def connectHost (s : NatTables) (host : nat_host) (conn : NatConnection) (proto_type : UINT1) : UINT2 × NatTables :=
  match natProto proto_type with
  | none => (0, s)
  | some pr =>
    match find_nat_port_by_ip_and_port conn.internal_ip conn.internal_port_no (host.port_list pr) with
    | some port =>
      (port.external_port_no, s.setHost (host.setPortList pr (setSrcDpid (host.port_list pr) port conn.src_dpid)))
    | none =>
      match s.create_nat_port host pr conn with
      | (none, s) => (0, s)
      | (some (port, host), s) =>
        (port.external_port_no, s.setHost (host.setPortList pr (setSrcDpid (host.port_list pr) port conn.src_dpid)))

/-- The external port, or 0 where there is no connection. -/
def create_nat_connect (s : NatTables) (conn : NatConnection) (host_ip : UINT4) (proto_type : UINT1) :
    UINT2 × NatTables :=
  match s.find_nat_host_by_ip host_ip with
  | some host => s.connectHost host conn proto_type
  | none =>
    match s.create_nat_host host_ip with
    | (none, s) => (0, s)
    | (some host, s) => s.connectHost host conn proto_type

/-- The head nodes of the host's port lists are not given back. -/
def remove_nat_host_by_ip (s : NatTables) (host_ip : UINT4) : NatTables :=
  match s.find_nat_host_by_ip host_ip with
  | none => s
  | some host =>
    { s with
      hosts := s.hosts.eraseP fun h => h.host_ip = host_ip
      host_num := s.host_num - 1
      g_nat_host_id := s.g_nat_host_id.mem_free host.address }

/-- What the calls that destroy a connection share: `remove` takes it out of the list, and a host that has no connection
left goes too. -/
def destroy (s : NatTables) (host_ip : UINT4) (proto_type : UINT1)
    (remove : List nat_port → Option (nat_port × List nat_port)) : NatTables :=
  match s.find_nat_host_by_ip host_ip with
  | none => s
  | some host =>
    match natProto proto_type with
    | none => s
    | some pr =>
      let (host, s) := match remove (host.port_list pr) with
        | none => (host, s)
        | some (port, l) =>
          let host := host.setPortList pr l
          (host, { s.setHost host with
            g_nat_port_id := s.g_nat_port_id.mem_free port.address
            g_nat_port_total_count := s.g_nat_port_total_count - 1 })
      if host.unused then s.remove_nat_host_by_ip host.host_ip else s

def destroy_nat_connect (s : NatTables) (host_ip : UINT4) (external_port_no : UINT2) (proto_type : UINT1) : NatTables :=
  s.destroy host_ip proto_type (remove_nat_port_by_port_no external_port_no)

def destroy_nat_connect_by_mac_and_port (s : NatTables) (dpid : UINT8) (host_ip : UINT4) (internal_mac : BitVec 48)
    (internal_port_no : UINT2) (proto_type : UINT1) : NatTables :=
  s.destroy host_ip proto_type (remove_nat_port_by_mac_and_port dpid internal_mac internal_port_no)

def find_nat_connect (s : NatTables) (external_ip : UINT4) (external_port_no : UINT2) (proto_type : UINT1) :
    Option nat_port :=
  if NAT_PORT_MIN_VALUE > external_port_no ∨ NAT_PORT_MAX_VALUE < external_port_no then none
  else
    match s.find_nat_host_by_ip external_ip with
    | none => none
    | some host =>
      match natProto proto_type with
      | none => none
      | some pr => find_nat_port_by_port_no external_port_no (host.port_list pr)

def call (s : NatTables) : NatCall → NatTables
  | .create_nat_connect conn host_ip proto_type => (s.create_nat_connect conn host_ip proto_type).2
  | .destroy_nat_connect host_ip external_port_no proto_type =>
    s.destroy_nat_connect host_ip external_port_no proto_type
  | .destroy_nat_connect_by_mac_and_port dpid host_ip internal_mac internal_port_no proto_type =>
    s.destroy_nat_connect_by_mac_and_port dpid host_ip internal_mac internal_port_no proto_type

def step (s : NatTables) (c : NatCall) : Option NatTables := some (s.call c)

/-- After `init_nat_mem_pool` the list head takes a node for itself and two for its port lists. -/
def init_nat_host : Option NatTables :=
  (MemPool.mem_create NAT_HOST_MAX_NUM).mem_get.bind fun (address, hosts) =>
    init_nat_port ⟨hosts, MemPool.mem_create NAT_PORT_MAX_COUNT, 0, address, fun _ => 0, 0, []⟩ |>.bind fun (tcp, s) =>
      s.init_nat_port.map fun (udp, s) => { s with head_ports := fun pr => if pr = .tcp then tcp else udp }

def start : NatTables where
  g_nat_host_id := ⟨NAT_HOST_MAX_NUM, 1, [], by decide, List.nodup_nil, by simp⟩
  g_nat_port_id := ⟨NAT_PORT_MAX_COUNT, 2, [], by decide, List.nodup_nil, by simp⟩
  g_nat_port_total_count := 2
  head_address := 0
  head_ports := fun pr => if pr = .tcp then 0 else 1
  host_num := 0
  hosts := []

theorem init_nat_host_eq : init_nat_host = some start := rfl

/-- The nodes of the port pool that hold a host's lists. -/
def nodesOf (host : nat_host) : List ℕ :=
  host.port_head .tcp :: host.port_head .udp ::
    (host.port_list .tcp ++ host.port_list .udp).map nat_port.address

/-- The nodes of the port pool that the host list leads to. -/
def portNodes (s : NatTables) : List ℕ := s.head_ports .tcp :: s.head_ports .udp :: s.hosts.flatMap nodesOf

/-- The nodes of the host pool that the host list leads to. -/
def hostNodes (s : NatTables) : List ℕ := s.head_address :: s.hosts.map nat_host.address

/-- The hosts and their connections, with the nodes of the port pool that nothing leads to any more. -/
structure Inv (s : NatTables) (leaked : List ℕ) : Prop where
  ips : (s.hosts.map nat_host.host_ip).Nodup
  ordered : ∀ h ∈ s.hosts, ∀ pr, Ordered (h.port_list pr)
  distinct : ∀ h ∈ s.hosts, ∀ pr, InternalDistinct (h.port_list pr)
  hosts_owned : s.g_nat_host_id.Owns s.hostNodes
  hosts_total : s.g_nat_host_id.total_len = NAT_HOST_MAX_NUM
  host_num : s.host_num = s.hosts.length
  ports_owned : s.g_nat_port_id.Owns (s.portNodes ++ leaked)
  ports_total : s.g_nat_port_id.total_len = NAT_PORT_MAX_COUNT
  count : s.g_nat_port_total_count = (s.portNodes ++ leaked).length

variable {s s' : NatTables} {leaked : List ℕ} {host host' : nat_host} {l₁ l₂ : List nat_host} {ip : UINT4}
  {pr : NatProto} {l : List nat_port} {conn : NatConnection} {proto_type : UINT1}

theorem start_inv : start.Inv [] where
  ips := List.nodup_nil
  ordered h hh := absurd hh List.not_mem_nil
  distinct h hh := absurd hh List.not_mem_nil
  hosts_owned := ⟨List.nodup_singleton 0, fun a => by simp [MemPool.InUse, start, hostNodes]⟩
  hosts_total := rfl
  host_num := rfl
  ports_owned := ⟨by simp [portNodes, start], fun a => by
    simp only [MemPool.InUse, start, portNodes, List.flatMap_nil, List.append_nil, List.not_mem_nil,
      not_false_eq_true, and_true, List.mem_cons, or_false, if_true, reduceCtorEq, if_false]
    omega⟩
  ports_total := rfl
  count := rfl

theorem Inv.count_add_usable (hi : s.Inv leaked) :
    s.g_nat_port_total_count + s.g_nat_port_id.usable_len = NAT_PORT_MAX_COUNT := by
  rw [hi.count, hi.ports_owned.length_add_usable_len, hi.ports_total]

theorem Inv.host_num_add_usable (hi : s.Inv leaked) :
    s.host_num + 1 + s.g_nat_host_id.usable_len = NAT_HOST_MAX_NUM := by
  have hlen := hi.hosts_owned.length_add_usable_len
  rw [hi.hosts_total, hostNodes, List.length_cons, List.length_map] at hlen
  rw [hi.host_num, hlen]

theorem setHost_hosts (host' : nat_host) (hn : (s.hosts.map nat_host.address).Nodup) (hs : s.hosts = l₁ ++ host :: l₂)
    (ha : host'.address = host.address) : (s.setHost host').hosts = l₁ ++ host' :: l₂ := by
  rw [hs, List.map_append, List.map_cons, List.nodup_append] at hn
  obtain ⟨-, hn₂, hcross⟩ := hn
  have hkeep : ∀ k : List nat_host, (∀ h ∈ k, h.address ≠ host.address) →
      (k.map fun h => if h.address = host'.address then host' else h) = k := by
    intro k hk
    rw [List.map_congr_left (g := id), List.map_id]
    intro h hh
    rw [ha, if_neg (hk h hh)]
    rfl
  rw [setHost]
  simp only
  rw [hs, List.map_append, List.map_cons, hkeep l₁, hkeep l₂, if_pos ha.symm]
  · intro h hh heq
    exact (List.nodup_cons.mp hn₂).1 (heq ▸ List.mem_map_of_mem hh)
  · intro h hh
    exact hcross _ (List.mem_map_of_mem hh) _ List.mem_cons_self

theorem portNodes_split (hs : s.hosts = l₁ ++ host :: l₂) :
    s.portNodes.Perm (nodesOf host ++
      (s.head_ports .tcp :: s.head_ports .udp :: l₁.flatMap nodesOf ++ l₂.flatMap nodesOf)) := by
  have hflat : s.portNodes = (s.head_ports .tcp :: s.head_ports .udp :: l₁.flatMap nodesOf) ++
      (nodesOf host ++ l₂.flatMap nodesOf) := by
    rw [portNodes, hs, List.flatMap_append, List.flatMap_cons]
    rfl
  rw [hflat]
  exact List.perm_append_comm_assoc _ _ _

theorem count_nodesOf_setPortList (host : nat_host) (pr : NatProto) (l : List nat_port) (a : ℕ) :
    (nodesOf (host.setPortList pr l)).count a + ((host.port_list pr).map nat_port.address).count a =
      (l.map nat_port.address).count a + (nodesOf host).count a := by
  cases pr with
  | tcp =>
    simp only [nodesOf, nat_host.setPortList, Function.update_self, Function.update_of_ne, ne_eq, reduceCtorEq,
      not_false_eq_true, List.map_append, List.count_append, List.count_cons]
    omega
  | udp =>
    simp only [nodesOf, nat_host.setPortList, Function.update_self, Function.update_of_ne, ne_eq, reduceCtorEq,
      not_false_eq_true, List.map_append, List.count_append, List.count_cons]
    omega

/-- The nodes after a list of a host is changed: `added` are those of the new list that the old one did not have. -/
theorem portNodes_setPortList (hs : s.hosts = l₁ ++ host :: l₂)
    (hs' : s'.hosts = l₁ ++ host.setPortList pr l :: l₂) (hp : s'.head_ports = s.head_ports) (added : List ℕ)
    (hl : (l.map nat_port.address).Perm (added ++ (host.port_list pr).map nat_port.address)) :
    s'.portNodes.Perm (added ++ s.portNodes) := by
  rw [List.perm_iff_count]
  intro a
  have hset := count_nodesOf_setPortList host pr l a
  have hnew := (portNodes_split hs').count_eq a
  have hold := (portNodes_split hs).count_eq a
  rw [hl.count_eq, List.count_append] at hset
  rw [hp, List.count_append] at hnew
  rw [List.count_append] at hold ⊢
  omega

theorem hosts_nodup (hi : s.Inv leaked) : (s.hosts.map nat_host.address).Nodup :=
  (List.nodup_cons.mp hi.hosts_owned.nodup).2

theorem port_addresses_nodup (hi : s.Inv leaked) (hh : host ∈ s.hosts) (pr : NatProto) :
    ((host.port_list pr).map nat_port.address).Nodup := by
  have hn : s.portNodes.Nodup := hi.ports_owned.nodup.sublist (List.sublist_append_left _ _)
  obtain ⟨l₁, l₂, hs⟩ := List.append_of_mem hh
  rw [(portNodes_split hs).nodup_iff] at hn
  have hnodes : (nodesOf host).Nodup := hn.sublist (List.sublist_append_left _ _)
  have hmap := (List.nodup_cons.mp (List.nodup_cons.mp hnodes).2).2
  rw [List.map_append] at hmap
  cases pr with
  | tcp => exact hmap.sublist (List.sublist_append_left _ _)
  | udp => exact hmap.sublist (List.sublist_append_right _ _)

/-- One list of one host is changed. -/
theorem Inv.replace (hi : s.Inv leaked) (hs : s.hosts = l₁ ++ host :: l₂) (ho : Ordered l) (hd : InternalDistinct l)
    (hs' : s'.hosts = l₁ ++ host.setPortList pr l :: l₂) (hpool : s'.g_nat_host_id = s.g_nat_host_id)
    (hhead : s'.head_address = s.head_address) (hnum : s'.host_num = s.host_num)
    (hown : s'.g_nat_port_id.Owns (s'.portNodes ++ leaked)) (htotal : s'.g_nat_port_id.total_len = NAT_PORT_MAX_COUNT)
    (hcount : s'.g_nat_port_total_count = (s'.portNodes ++ leaked).length) : s'.Inv leaked := by
  have hmem : ∀ h ∈ s'.hosts, h = host.setPortList pr l ∨ h ∈ s.hosts := by
    intro h hh
    rw [hs', List.mem_append, List.mem_cons] at hh
    rw [hs, List.mem_append, List.mem_cons]
    tauto
  have hhost : host ∈ s.hosts := by simp [hs]
  refine ⟨?_, ?_, ?_, ?_, hpool ▸ hi.hosts_total, ?_, hown, htotal, hcount⟩
  · have hn := hi.ips
    rw [hs, List.map_append, List.map_cons] at hn
    rw [hs', List.map_append, List.map_cons]
    exact hn
  · intro h hh pr'
    rcases hmem h hh with rfl | hh
    · by_cases hpr : pr' = pr
      · simpa [nat_host.setPortList, hpr] using ho
      · simpa [nat_host.setPortList, hpr] using hi.ordered host hhost pr'
    · exact hi.ordered h hh pr'
  · intro h hh pr'
    rcases hmem h hh with rfl | hh
    · by_cases hpr : pr' = pr
      · simpa [nat_host.setPortList, hpr] using hd
      · simpa [nat_host.setPortList, hpr] using hi.distinct host hhost pr'
    · exact hi.distinct h hh pr'
  · have hown := hi.hosts_owned
    rw [hostNodes, hs, List.map_append, List.map_cons] at hown
    rw [hpool, hostNodes, hhead, hs', List.map_append, List.map_cons]
    exact hown
  · rw [hnum, hi.host_num, hs, hs']
    simp

/-- Only `src_dpid` of a connection of the host is set. -/
theorem Inv.setSrcDpid (hi : s.Inv leaked) (hs : s.hosts = l₁ ++ host :: l₂) (pr : NatProto) (port : nat_port)
    (src_dpid : UINT8) :
    (s.setHost (host.setPortList pr (setSrcDpid (host.port_list pr) port src_dpid))).hosts =
        l₁ ++ host.setPortList pr (DCFabric.setSrcDpid (host.port_list pr) port src_dpid) :: l₂ ∧
      (s.setHost (host.setPortList pr (DCFabric.setSrcDpid (host.port_list pr) port src_dpid))).Inv leaked := by
  have hhost : host ∈ s.hosts := by simp [hs]
  have hs' := setHost_hosts (host.setPortList pr (DCFabric.setSrcDpid (host.port_list pr) port src_dpid))
    (hosts_nodup hi) hs rfl
  have hperm := portNodes_setPortList hs hs' rfl [] (by
    rw [setSrcDpid_map nat_port.address fun _ _ => rfl]
    exact List.Perm.refl _)
  have hperm' := (hperm.append_right leaked).symm
  refine ⟨hs', hi.replace hs ?_ ?_ hs' rfl rfl rfl (hi.ports_owned.perm hperm') hi.ports_total ?_⟩
  · exact (hi.ordered host hhost pr).congr (setSrcDpid_map nat_port.external_port_no (fun _ _ => rfl) _ _ _)
  · have hold := hi.distinct host hhost pr
    rw [InternalDistinct] at hold ⊢
    rw [setSrcDpid_map (fun p => p.internal) fun _ _ => rfl]
    exact hold
  · exact hi.count.trans hperm'.length_eq

theorem create_nat_port_spec (hi : s.Inv leaked) (hs : s.hosts = l₁ ++ host :: l₂)
    (hnew : ∀ p ∈ host.port_list pr, p.internal ≠ conn.internal) :
    (s.create_nat_port host pr conn = (none, s) ∧
      (s.g_nat_port_id.usable_len = 0 ∨ Full (host.port_list pr))) ∨
    ∃ s' port l, s.create_nat_port host pr conn = (some (port, host.setPortList pr l), s') ∧ s'.Inv leaked ∧
      s'.hosts = l₁ ++ host.setPortList pr l :: l₂ ∧ port ∈ l ∧ port.toNatConnection = { conn with src_dpid := 0 } ∧
      ((∀ p ∈ host.port_list pr, p.external_port_no ≠ port.external_port_no) ∧ s.g_nat_port_id.usable_len ≠ 0) ∧
      ∀ y, lookupPort l y = if y = port.external_port_no then some port.toNatConnection
        else lookupPort (host.port_list pr) y := by
  have hhost : host ∈ s.hosts := by simp [hs]
  have ho := hi.ordered host hhost pr
  have hcount := hi.count_add_usable
  rw [create_nat_port]
  by_cases hmax : NAT_PORT_MAX_COUNT = s.g_nat_port_total_count
  · rw [if_pos hmax]
    exact .inl ⟨rfl, .inl (by omega)⟩
  rw [if_neg hmax]
  obtain ⟨before, n, after, hgap⟩ : ∃ before n after, firstGap NAT_PORT_MIN_VALUE (host.port_list pr) =
    (before, n, after) := ⟨_, _, _, rfl⟩
  rw [hgap]
  simp only
  by_cases hn : n = NAT_PORT_MAX_VALUE
  · rw [if_pos hn]
    exact .inl ⟨rfl, .inr (full_of_gap ho hgap hn)⟩
  rw [if_neg hn]
  cases hg : s.g_nat_port_id.mem_get with
  | none => exact .inl ⟨rfl, .inl (MemPool.mem_get_eq_none.mp hg)⟩
  | some got =>
    obtain ⟨address, pool⟩ := got
    simp only
    obtain ⟨port, hport⟩ : ∃ port : nat_port,
        port = { conn with address := address, external_port_no := n + 1, src_dpid := 0 } := ⟨_, rfl⟩
    rw [← hport]
    obtain ⟨hsplit, ho', hne⟩ := ordered_insert ho hgap hn (p := port) (by rw [hport])
    have hd' : InternalDistinct (before ++ port :: after) := by
      have hold := hi.distinct host hhost pr
      rw [InternalDistinct, ← hsplit, List.map_append] at hold
      rw [InternalDistinct, List.map_append, List.map_cons, List.nodup_middle]
      refine List.nodup_cons.mpr ⟨?_, hold⟩
      intro hmem
      rw [← List.map_append, hsplit, hport] at hmem
      obtain ⟨p, hp, heq⟩ := List.mem_map.mp hmem
      exact hnew p hp heq
    have hs' := setHost_hosts (host.setPortList pr (before ++ port :: after)) (hosts_nodup hi) hs rfl
    have haddr : ((before ++ port :: after).map nat_port.address).Perm
        ([address] ++ (host.port_list pr).map nat_port.address) := by
      rw [List.map_append, List.map_cons, ← hsplit, List.map_append, hport]
      exact List.perm_middle
    refine .inr ⟨_, port, before ++ port :: after, rfl, ?_, hs', by simp, by rw [hport],
      ⟨fun p hp => hne p (hsplit ▸ hp), fun hu => ?_⟩, ?_⟩
    · obtain ⟨s', hs''⟩ : ∃ s', s' = { s.setHost (host.setPortList pr (before ++ port :: after)) with
          g_nat_port_id := pool
          g_nat_port_total_count := s.g_nat_port_total_count + 1 } := ⟨_, rfl⟩
      rw [← hs'']
      have hhosts : s'.hosts = l₁ ++ host.setPortList pr (before ++ port :: after) :: l₂ := by rw [hs'', hs']
      have hheads : s'.head_ports = s.head_ports := by rw [hs'']; rfl
      have hperm := (portNodes_setPortList hs hhosts hheads [address] haddr).append_right leaked
      have howns := (hi.ports_owned.get hg).perm hperm.symm
      refine hi.replace hs ho' hd' hhosts ?_ ?_ ?_ ?_ ?_ ?_
      · rw [hs'']; rfl
      · rw [hs'']; rfl
      · rw [hs'']; rfl
      · rw [hs''] at howns ⊢
        exact howns
      · rw [hs'']
        exact (MemPool.mem_get_cases hg).1.trans hi.ports_total
      · rw [hperm.length_eq, List.append_assoc, List.length_append, ← hi.count, hs'']
        exact Nat.add_comm _ _
    · rw [MemPool.mem_get_eq_none.mpr hu] at hg
      cases hg
    · intro y
      rw [lookupPort_insert hne, hsplit]

theorem setPortList_self (host : nat_host) (pr : NatProto) (l : List nat_port) :
    (host.setPortList pr l).port_list pr = l := by
  simp [nat_host.setPortList]

theorem setPortList_setPortList (host : nat_host) (pr : NatProto) (k l : List nat_port) :
    (host.setPortList pr k).setPortList pr l = host.setPortList pr l := by
  simp [nat_host.setPortList]

theorem mem_setSrcDpid {p : nat_port} (port : nat_port) (src_dpid : UINT8) (hp : p ∈ l) :
    ∃ r ∈ DCFabric.setSrcDpid l port src_dpid, r.external_port_no = p.external_port_no ∧ r.internal = p.internal := by
  refine ⟨_, List.mem_map_of_mem hp, ?_⟩
  split_ifs
  · exact ⟨rfl, rfl⟩
  · exact ⟨rfl, rfl⟩

/-- What `create_nat_connect` does once the host is there. -/
theorem connectHost_spec (hi : s.Inv leaked) (hs : s.hosts = l₁ ++ host :: l₂) (conn : NatConnection)
    (proto_type : UINT1) :
    (s.connectHost host conn proto_type = (0, s) ∧ ∀ pr, natProto proto_type = some pr →
      (∀ p ∈ host.port_list pr, p.internal ≠ conn.internal) ∧
        (s.g_nat_port_id.usable_len = 0 ∨ Full (host.port_list pr))) ∨
    ∃ s' x pr l, s.connectHost host conn proto_type = (x, s') ∧ natProto proto_type = some pr ∧ s'.Inv leaked ∧
      s'.hosts = l₁ ++ host.setPortList pr l :: l₂ ∧ (∃ p ∈ l, p.external_port_no = x ∧ p.internal = conn.internal) ∧
      ((∃ p ∈ host.port_list pr, p.external_port_no = x ∧ p.internal = conn.internal) ∨
        (∀ p ∈ host.port_list pr, p.internal ≠ conn.internal) ∧ (∀ p ∈ host.port_list pr, p.external_port_no ≠ x) ∧
          s.g_nat_port_id.usable_len ≠ 0) ∧
      ∀ y, lookupPort l y =
        if y = x then some { (lookupPort (host.port_list pr) x).getD conn with src_dpid := conn.src_dpid }
        else lookupPort (host.port_list pr) y := by
  have hhost : host ∈ s.hosts := by simp [hs]
  rw [connectHost]
  cases hpr : natProto proto_type with
  | none => exact .inl ⟨rfl, fun pr hpr' => by cases hpr'⟩
  | some pr =>
    simp only
    have ho := hi.ordered host hhost pr
    cases hf : find_nat_port_by_ip_and_port conn.internal_ip conn.internal_port_no (host.port_list pr) with
    | some port =>
      -- the connection is there
      obtain ⟨hport, hint⟩ := internal_of_find hf
      obtain ⟨hs', hi'⟩ := hi.setSrcDpid hs pr port conn.src_dpid
      obtain ⟨r, hr, hrx, hrint⟩ := mem_setSrcDpid port conn.src_dpid hport
      refine .inr ⟨_, _, pr, _, rfl, rfl, hi', hs', ⟨r, hr, hrx, hrint.trans hint⟩, .inl ⟨port, hport, rfl, hint⟩, ?_⟩
      intro y
      have hlook : lookupPort (host.port_list pr) port.external_port_no = some port.toNatConnection :=
        (lookupPort_eq_some ho.increasing).mpr ⟨port, hport, rfl, rfl⟩
      rw [lookupPort_setSrcDpid ho.increasing (port_addresses_nodup hi hhost pr) hport, hlook]
      rfl
    | none =>
      have hnew := find_nat_port_by_ip_and_port_eq_none.mp hf
      simp only
      rcases create_nat_port_spec hi hs hnew with ⟨he, hfull⟩ |
        ⟨t, port, l, he, ht, hts, hport, hconn, ⟨hne, hu⟩, hlook⟩
      · rw [he]
        refine .inl ⟨rfl, ?_⟩
        intro pr' hpr'
        obtain rfl := Option.some.inj hpr'
        exact ⟨hnew, hfull⟩
      · rw [he]
        simp only
        obtain ⟨hs', hi'⟩ := ht.setSrcDpid hts pr port conn.src_dpid
        rw [setPortList_self, setPortList_setPortList] at hs'
        rw [setPortList_self, setPortList_setPortList] at hi'
        have hpint : port.internal = conn.internal := by
          rw [NatConnection.internal, hconn, NatConnection.internal]
        obtain ⟨r, hr, hrx, hrint⟩ := mem_setSrcDpid port conn.src_dpid hport
        rw [setPortList_self, setPortList_setPortList]
        refine .inr ⟨_, _, pr, _, rfl, rfl, hi', hs', ⟨r, hr, hrx, hrint.trans hpint⟩, .inr ⟨hnew, hne, hu⟩, ?_⟩
        intro y
        have hthost : host.setPortList pr l ∈ t.hosts := by simp [hts]
        have htord := ht.ordered _ hthost pr
        have htaddr := port_addresses_nodup ht hthost pr
        rw [setPortList_self] at htord htaddr
        have hnone : lookupPort (host.port_list pr) port.external_port_no = none := by
          rw [lookupPort, find?_none_of_not_mem hne]
          rfl
        rw [lookupPort_setSrcDpid htord.increasing htaddr hport, hlook, hnone, hconn]
        split_ifs with hy
        · rfl
        · rfl

theorem find_host_some (hf : s.find_nat_host_by_ip ip = some host) :
    host.host_ip = ip ∧ ∃ l₁ l₂, s.hosts = l₁ ++ host :: l₂ ∧ ∀ h ∈ l₁, h.host_ip ≠ ip := by
  obtain ⟨hip, l₁, l₂, hs, hl₁⟩ := List.find?_eq_some_iff_append.mp hf
  exact ⟨of_decide_eq_true hip, l₁, l₂, hs, by simpa using hl₁⟩

theorem find_host_none : s.find_nat_host_by_ip ip = none ↔ ∀ h ∈ s.hosts, h.host_ip ≠ ip := by
  simp [find_nat_host_by_ip]

theorem find_host_of_mem (hi : s.Inv leaked) (hh : host ∈ s.hosts) :
    s.find_nat_host_by_ip host.host_ip = some host := by
  cases hf : s.find_nat_host_by_ip host.host_ip with
  | none => exact absurd rfl (find_host_none.mp hf host hh)
  | some h =>
    have hmem : h ∈ s.hosts := List.mem_of_find?_eq_some hf
    rw [List.inj_on_of_nodup_map hi.ips hmem hh (find_host_some hf).1]

theorem init_nat_port_spec (hu : s.g_nat_port_id.usable_len ≠ 0) :
    ∃ a pool, s.g_nat_port_id.mem_get = some (a, pool) ∧ pool.usable_len + 1 = s.g_nat_port_id.usable_len ∧
      s.init_nat_port = some (a, { s with
        g_nat_port_id := pool
        g_nat_port_total_count := s.g_nat_port_total_count + 1 }) := by
  obtain ⟨⟨a, pool⟩, hg⟩ := Option.ne_none_iff_exists'.mp fun hn => hu (MemPool.mem_get_eq_none.mp hn)
  exact ⟨a, pool, hg, MemPool.usable_len_mem_get hg, by rw [init_nat_port, hg]; rfl⟩

theorem create_nat_host_full (hlimit : NAT_HOST_MAX_NUM - 1 ≤ s.host_num) : s.create_nat_host ip = (none, s) :=
  if_pos hlimit

/-- A host that is not there yet comes to the end of the list, with two empty port lists. -/
theorem create_nat_host_spec (hi : s.Inv leaked) (hf : s.find_nat_host_by_ip ip = none)
    (hlimit : s.host_num < NAT_HOST_MAX_NUM - 1) (hu : 2 ≤ s.g_nat_port_id.usable_len) :
    ∃ host s', s.create_nat_host ip = (some host, s') ∧ s'.Inv leaked ∧ s'.hosts = s.hosts ++ [host] ∧
      host.host_ip = ip ∧ (∀ pr, host.port_list pr = []) ∧
      s'.g_nat_port_id.usable_len + 2 = s.g_nat_port_id.usable_len := by
  have hnot := find_host_none.mp hf
  have hany : (s.hosts.any fun h => h.host_ip = ip) = false := by simpa using hnot
  rw [create_nat_host, if_neg (by omega), hany, if_neg (by simp)]
  have hroom := hi.host_num_add_usable
  obtain ⟨⟨address, hostPool⟩, hg⟩ : ∃ got, s.g_nat_host_id.mem_get = some got :=
    Option.ne_none_iff_exists'.mp fun hn => by
      have := MemPool.mem_get_eq_none.mp hn
      omega
  rw [hg]
  simp only
  obtain ⟨tcp, pool₁, hg₁, hu₁, he₁⟩ := init_nat_port_spec (s := { s with g_nat_host_id := hostPool })
    (by simp only; omega)
  rw [he₁]
  simp only at hg₁ hu₁ ⊢
  obtain ⟨udp, pool₂, hg₂, hu₂, he₂⟩ := init_nat_port_spec (s := { s with
    g_nat_host_id := hostPool, g_nat_port_id := pool₁, g_nat_port_total_count := s.g_nat_port_total_count + 1 })
    (by simp only; omega)
  rw [he₂]
  simp only at hg₂ hu₂ ⊢
  refine ⟨_, _, rfl, ?_, rfl, rfl, fun _ => rfl, by simp only; omega⟩
  have hperm : ∀ nodes : List ℕ, ((s.head_ports .tcp :: s.head_ports .udp ::
      (s.hosts ++ [(⟨address, ip, fun pr => if pr = .tcp then tcp else udp, fun _ => []⟩ : nat_host)]).flatMap
        nodesOf) ++ nodes).Perm (udp :: tcp :: (s.portNodes ++ nodes)) := by
    intro nodes
    rw [List.perm_iff_count]
    intro a
    simp only [portNodes, List.flatMap_append, List.flatMap_cons, List.flatMap_nil, nodesOf, List.count_append,
      List.count_cons, List.map_nil, List.append_nil, if_true, reduceCtorEq, if_false, List.count_nil]
    omega
  refine ⟨?_, ?_, ?_, ?_, ?_, ?_, ?_, ?_, ?_⟩
  · simp only [List.map_append, List.map_cons, List.map_nil]
    refine List.nodup_append.mpr ⟨hi.ips, List.nodup_singleton _, ?_⟩
    rintro a ha b hb rfl
    obtain ⟨h, hh, rfl⟩ := List.mem_map.mp ha
    exact hnot h hh (List.mem_singleton.mp hb)
  · intro h hh pr
    rcases List.mem_append.mp hh with hh | hh
    · exact hi.ordered h hh pr
    · obtain rfl := List.mem_singleton.mp hh
      exact ⟨List.Pairwise.nil, by simp⟩
  · intro h hh pr
    rcases List.mem_append.mp hh with hh | hh
    · exact hi.distinct h hh pr
    · obtain rfl := List.mem_singleton.mp hh
      exact List.nodup_nil
  · refine (hi.hosts_owned.get hg).perm ?_
    simp only [hostNodes, List.map_append, List.map_cons, List.map_nil]
    exact (List.perm_append_singleton address _).symm.trans (List.Perm.refl _)
  · exact (MemPool.mem_get_cases hg).1.trans hi.hosts_total
  · simp [hi.host_num]
  · exact ((hi.ports_owned.get hg₁).get hg₂).perm (hperm leaked).symm
  · exact (MemPool.mem_get_cases hg₂).1.trans ((MemPool.mem_get_cases hg₁).1.trans hi.ports_total)
  · have hlen := (hperm leaked).length_eq
    rw [List.length_cons, List.length_cons, ← hi.count] at hlen
    exact hlen.symm

theorem unused_iff : host.unused ↔ ∀ pr, host.port_list pr = [] := by
  rw [nat_host.unused, Bool.and_eq_true, List.isEmpty_iff, List.isEmpty_iff]
  constructor
  · rintro ⟨ht, hu⟩ (_ | _)
    · exact ht
    · exact hu
  · exact fun hall => ⟨hall .tcp, hall .udp⟩

/-- A host without connections goes, and its head nodes are lost. -/
theorem Inv.remove_nat_host (hi : s.Inv leaked) (hs : s.hosts = l₁ ++ host :: l₂)
    (he : ∀ pr, host.port_list pr = []) :
    (s.remove_nat_host_by_ip host.host_ip).hosts = l₁ ++ l₂ ∧
      (s.remove_nat_host_by_ip host.host_ip).Inv (host.port_head .tcp :: host.port_head .udp :: leaked) := by
  have hhost : host ∈ s.hosts := by simp [hs]
  have hips := hi.ips
  rw [hs, List.map_append, List.map_cons, List.nodup_middle, List.nodup_cons, ← List.map_append] at hips
  have herase : (s.hosts.eraseP fun h => h.host_ip = host.host_ip) = l₁ ++ l₂ := by
    rw [hs, List.eraseP_append_right, List.eraseP_cons_of_pos (by simp)]
    intro h hh heq
    exact hips.1 (List.mem_map.mpr ⟨h, List.mem_append_left l₂ hh, by simpa using heq⟩)
  rw [remove_nat_host_by_ip, find_host_of_mem hi hhost]
  simp only [herase]
  have hsub : ∀ h ∈ l₁ ++ l₂, h ∈ s.hosts := by
    intro h hh
    rw [hs, List.mem_append, List.mem_cons]
    rw [List.mem_append] at hh
    tauto
  have hperm : ((s.head_ports .tcp :: s.head_ports .udp :: (l₁ ++ l₂).flatMap nodesOf) ++
      (host.port_head .tcp :: host.port_head .udp :: leaked)).Perm (s.portNodes ++ leaked) := by
    rw [List.perm_iff_count]
    intro a
    have hsplit := (portNodes_split hs).count_eq a
    simp only [nodesOf, he, List.append_nil, List.map_nil, List.count_append, List.count_cons, List.count_nil] at hsplit
    simp only [List.flatMap_append, List.count_append, List.count_cons]
    omega
  have hnodes : (s.g_nat_host_id.mem_free host.address).Owns (s.head_address :: (l₁ ++ l₂).map nat_host.address) := by
    apply MemPool.Owns.free
    refine hi.hosts_owned.perm ?_
    rw [hostNodes, hs, List.map_append, List.map_cons, List.map_append, List.perm_iff_count]
    intro a
    simp only [List.count_append, List.count_cons]
    omega
  refine ⟨trivial, hips.2, fun h hh => hi.ordered h (hsub h hh), fun h hh => hi.distinct h (hsub h hh), hnodes, ?_, ?_,
    hi.ports_owned.perm hperm.symm, hi.ports_total, hi.count.trans hperm.symm.length_eq⟩
  · exact (MemPool.total_len_mem_free _ _).trans hi.hosts_total
  · simp only [hi.host_num, hs, List.length_append, List.length_cons]
    omega

/-- The list of a host after a removal. -/
def RemovedFrom (q : nat_port → Prop) (l l' : List nat_port) : Prop :=
  (l' = l ∧ ∀ p ∈ l, ¬ q p) ∨ ∃ k₁ r k₂, l = k₁ ++ r :: k₂ ∧ l' = k₁ ++ k₂ ∧ q r ∧ ∀ p ∈ k₁, ¬ q p

/-- What a call that destroys a connection does: nothing, or a removal from a list of a host, which goes if it has no
connection left. -/
theorem destroy_spec (hi : s.Inv leaked) (ip : UINT4) (proto_type : UINT1) {q : nat_port → Prop}
    {remove : List nat_port → Option (nat_port × List nat_port)}
    (hrem : ∀ l, Ordered l → RemovesFirst q l (remove l)) :
    (s.destroy ip proto_type remove = s ∧
      (s.find_nat_host_by_ip ip = none ∨ natProto proto_type = none)) ∨
    ∃ host l₁ l₂ pr l t, s.find_nat_host_by_ip ip = some host ∧ natProto proto_type = some pr ∧
      s.hosts = l₁ ++ host :: l₂ ∧ host.host_ip = ip ∧ RemovedFrom q (host.port_list pr) l ∧ t.Inv leaked ∧
      t.hosts = l₁ ++ host.setPortList pr l :: l₂ ∧
      s.destroy ip proto_type remove =
        if (host.setPortList pr l).unused then t.remove_nat_host_by_ip ip else t := by
  rw [destroy]
  cases hf : s.find_nat_host_by_ip ip with
  | none => exact .inl ⟨rfl, .inl rfl⟩
  | some host =>
    cases hpr : natProto proto_type with
    | none => exact .inl ⟨rfl, .inr rfl⟩
    | some pr =>
      obtain ⟨hip, l₁, l₂, hs, -⟩ := find_host_some hf
      have hhost : host ∈ s.hosts := by simp [hs]
      have ho := hi.ordered host hhost pr
      have hspec := hrem _ ho
      simp only
      cases hr : remove (host.port_list pr) with
      | none =>
        rw [hr] at hspec
        have hself : host.setPortList pr (host.port_list pr) = host := by
          rw [nat_host.setPortList, Function.update_eq_self]
        refine .inr ⟨host, l₁, l₂, pr, host.port_list pr, s, rfl, rfl, hs, hip, .inl ⟨rfl, hspec⟩, hi, ?_, ?_⟩
        · rw [hself, hs]
        · rw [hself, ← hip]
      | some removed =>
        obtain ⟨r, l⟩ := removed
        rw [hr] at hspec
        obtain ⟨k₁, k₂, hk, rfl, hq, hk₁⟩ := hspec
        have hs' := setHost_hosts (host.setPortList pr (k₁ ++ k₂)) (hosts_nodup hi) hs rfl
        obtain ⟨t, ht⟩ : ∃ t, t = { s.setHost (host.setPortList pr (k₁ ++ k₂)) with
            g_nat_port_id := s.g_nat_port_id.mem_free r.address
            g_nat_port_total_count := s.g_nat_port_total_count - 1 } := ⟨_, rfl⟩
        simp only
        rw [← ht]
        have hhosts : t.hosts = l₁ ++ host.setPortList pr (k₁ ++ k₂) :: l₂ := by rw [ht, hs']
        have hback : s.hosts = l₁ ++ (host.setPortList pr (k₁ ++ k₂)).setPortList pr (host.port_list pr) :: l₂ := by
          rw [setPortList_setPortList, nat_host.setPortList, Function.update_eq_self, hs]
        have haddr : ((host.port_list pr).map nat_port.address).Perm
            ([r.address] ++ ((host.setPortList pr (k₁ ++ k₂)).port_list pr).map nat_port.address) := by
          rw [setPortList_self, hk, List.map_append, List.map_cons, List.map_append]
          exact List.perm_middle
        have hperm := (portNodes_setPortList hhosts hback (by rw [ht]; rfl) [r.address] haddr).append_right leaked
        have howns := hi.ports_owned.perm hperm
        refine .inr ⟨host, l₁, l₂, pr, k₁ ++ k₂, t, rfl, rfl, hs, hip, .inr ⟨k₁, r, k₂, hk, rfl, hq, hk₁⟩, ?_, hhosts,
          ?_⟩
        · have hold := hi.distinct host hhost pr
          rw [hk] at ho
          rw [hk, InternalDistinct] at hold
          have hsub : (k₁ ++ k₂).Sublist (k₁ ++ r :: k₂) := (List.sublist_cons_self r k₂).append_left k₁
          have hlen := hperm.length_eq
          rw [← hi.count, List.append_assoc, List.length_append, List.length_singleton] at hlen
          refine hi.replace hs (ho.sublist hsub) (hold.sublist (hsub.map _)) hhosts ?_ ?_ ?_ ?_ ?_ ?_
          · rw [ht]; rfl
          · rw [ht]; rfl
          · rw [ht]; rfl
          · have hfree : (s.g_nat_port_id.mem_free r.address).Owns (t.portNodes ++ leaked) := howns.free
            rw [ht] at hfree ⊢
            exact hfree
          · rw [ht]
            exact (MemPool.total_len_mem_free _ _).trans hi.ports_total
          · rw [ht] at hlen ⊢
            simp only at hlen ⊢
            omega
        · rw [← hip]
          rfl

/-- The connections of an external address. -/
def connections (s : NatTables) (ip : UINT4) (pr : NatProto) : List nat_port :=
  (s.find_nat_host_by_ip ip).elim [] fun h => h.port_list pr

theorem connections_of_mem (hi : s.Inv leaked) (hh : host ∈ s.hosts) (pr : NatProto) :
    s.connections host.host_ip pr = host.port_list pr := by
  rw [connections, find_host_of_mem hi hh]
  rfl

theorem Inv.connections_ordered (hi : s.Inv leaked) (ip : UINT4) (pr : NatProto) : Ordered (s.connections ip pr) := by
  rw [connections]
  cases hf : s.find_nat_host_by_ip ip with
  | none => exact ⟨List.Pairwise.nil, by simp⟩
  | some h => exact hi.ordered h (List.mem_of_find?_eq_some hf) pr

theorem connections_replace (hs : s.hosts = l₁ ++ host :: l₂) (hi : s.Inv leaked)
    (hs' : s'.hosts = l₁ ++ host.setPortList pr l :: l₂) (ip : UINT4) (pr' : NatProto) :
    s'.connections ip pr' = if ip = host.host_ip ∧ pr' = pr then l else s.connections ip pr' := by
  have hips := hi.ips
  rw [hs, List.map_append, List.map_cons, List.nodup_middle, List.nodup_cons, ← List.map_append] at hips
  rw [connections, connections, find_nat_host_by_ip, find_nat_host_by_ip, hs, hs', List.find?_append, List.find?_append]
  by_cases hip : ip = host.host_ip
  · subst hip
    have hnone : l₁.find? (fun h => h.host_ip = host.host_ip) = none := by
      rw [List.find?_eq_none]
      intro h hh heq
      exact hips.1 (List.mem_map.mpr ⟨h, List.mem_append_left l₂ hh, of_decide_eq_true heq⟩)
    have hself : (host.setPortList pr l).host_ip = host.host_ip := rfl
    simp only [hnone, Option.none_or, List.find?_cons, hself, decide_true, Option.elim_some, true_and]
    by_cases hpr : pr' = pr
    · subst hpr
      simp [setPortList_self]
    · simp [nat_host.setPortList, hpr]
  · have hself : (host.setPortList pr l).host_ip = host.host_ip := rfl
    simp only [List.find?_cons, hself, Ne.symm hip, decide_false, hip, false_and, if_false]

theorem connections_append (hf : s.find_nat_host_by_ip host.host_ip = none) (hs' : s'.hosts = s.hosts ++ [host])
    (he : ∀ pr, host.port_list pr = []) : s'.connections = s.connections := by
  funext ip pr
  rw [connections, connections]
  have hfind : s'.find_nat_host_by_ip ip = (s.find_nat_host_by_ip ip).or ([host].find? fun h => h.host_ip = ip) := by
    rw [find_nat_host_by_ip, hs', List.find?_append]
    rfl
  rw [hfind]
  by_cases hip : host.host_ip = ip
  · subst hip
    rw [hf]
    simp [he]
  · simp [hip]

theorem connections_remove (hs : s.hosts = l₁ ++ host :: l₂) (hi : s.Inv leaked) (he : ∀ pr, host.port_list pr = [])
    (hs' : s'.hosts = l₁ ++ l₂) : s'.connections = s.connections := by
  have hips := hi.ips
  rw [hs, List.map_append, List.map_cons, List.nodup_middle, List.nodup_cons, ← List.map_append] at hips
  funext ip pr
  rw [connections, connections, find_nat_host_by_ip, find_nat_host_by_ip, hs, hs']
  by_cases hip : host.host_ip = ip
  · subst hip
    have hnone : ∀ k : List nat_host, (∀ h ∈ k, h ∈ l₁ ++ l₂) → k.find? (fun h => h.host_ip = host.host_ip) = none := by
      intro k hk
      rw [List.find?_eq_none]
      intro h hh heq
      exact hips.1 (List.mem_map.mpr ⟨h, hk h hh, of_decide_eq_true heq⟩)
    rw [hnone (l₁ ++ l₂) fun h hh => hh, List.find?_append, hnone l₁ fun h hh => List.mem_append_left l₂ hh]
    simp [he]
  · simp [List.find?_append, hip]

end NatTables

/-- The live connections by external address, protocol and external port. -/
abbrev NatLive := UINT4 × NatProto × UINT2 → Option NatConnection

def NatConnection.IsFrom (c : NatConnection) (sw_dpid : UINT8) (internal_mac : BitVec 48) (internal_port_no : UINT2) :
    Prop := c.internal_mac = internal_mac ∧ c.internal_port_no = internal_port_no ∧ c.src_dpid = sw_dpid

/-- What a call with a result is meant to do to the live connections: a creation that returns a port makes its
connection live or renews the switch behind it, and a destruction ends the connection with the port, or the one from the
switch, MAC and internal port that has the least external port. -/
def LiveStep (live live' : NatLive) : NatCall → UINT2 → Prop
  | .create_nat_connect conn host_ip proto_type, x =>
    live' = match natProto proto_type with
      | none => live
      | some pr => if x = 0 then live else
        Function.update live (host_ip, pr, x)
          (some { (live (host_ip, pr, x)).getD conn with src_dpid := conn.src_dpid })
  | .destroy_nat_connect host_ip external_port_no proto_type, _ =>
    live' = match natProto proto_type with
      | none => live
      | some pr => Function.update live (host_ip, pr, external_port_no) none
  | .destroy_nat_connect_by_mac_and_port dpid host_ip internal_mac internal_port_no proto_type, _ =>
    match natProto proto_type with
    | none => live' = live
    | some pr =>
      (live' = live ∧ ∀ x c, live (host_ip, pr, x) = some c → ¬ c.IsFrom dpid internal_mac internal_port_no) ∨
        ∃ x c, live (host_ip, pr, x) = some c ∧ c.IsFrom dpid internal_mac internal_port_no ∧
          (∀ y d, live (host_ip, pr, y) = some d → d.IsFrom dpid internal_mac internal_port_no → x ≤ y) ∧
          live' = Function.update live (host_ip, pr, x) none

theorem LiveStep.unique {live live₁ live₂ : NatLive} {c : NatCall} {x : UINT2} (h₁ : LiveStep live live₁ c x)
    (h₂ : LiveStep live live₂ c x) : live₁ = live₂ := by
  cases c with
  | create_nat_connect conn host_ip proto_type => exact h₁.trans h₂.symm
  | destroy_nat_connect host_ip external_port_no proto_type => exact h₁.trans h₂.symm
  | destroy_nat_connect_by_mac_and_port dpid host_ip internal_mac internal_port_no proto_type =>
    simp only [LiveStep] at h₁ h₂
    cases hpr : natProto proto_type with
    | none =>
      rw [hpr] at h₁ h₂
      exact h₁.trans h₂.symm
    | some pr =>
      rw [hpr] at h₁ h₂
      rcases h₁ with ⟨rfl, hno⟩ | ⟨x, c, hx, hc, hleast, rfl⟩
      · rcases h₂ with ⟨rfl, -⟩ | ⟨y, d, hy, hd, -, -⟩
        · rfl
        · exact absurd hd (hno y d hy)
      · rcases h₂ with ⟨-, hno⟩ | ⟨y, d, hy, hd, hleast', rfl⟩
        · exact absurd hc (hno x c hx)
        · rw [UInt16.le_antisymm (hleast y d hy hd) (hleast' x c hx hc)]

namespace NatTables

variable {s s' : NatTables} {leaked : List ℕ} {host host' : nat_host} {l₁ l₂ : List nat_host} {ip : UINT4}
  {pr : NatProto} {l : List nat_port} {conn : NatConnection} {proto_type : UINT1}

def live (s : NatTables) : NatLive := fun (ip, pr, x) => lookupPort (s.connections ip pr) x

/-- One connection of one list changes. -/
theorem live_replace (hs : s.hosts = l₁ ++ host :: l₂) (hi : s.Inv leaked)
    (hs' : s'.hosts = l₁ ++ host.setPortList pr l :: l₂) {x : UINT2} {o : Option NatConnection}
    (hl : ∀ y, lookupPort l y = if y = x then o else lookupPort (host.port_list pr) y) :
    s'.live = Function.update s.live (host.host_ip, pr, x) o := by
  have hhost : host ∈ s.hosts := by simp [hs]
  funext ⟨ip, pr', y⟩
  simp only [live, connections_replace hs hi hs']
  by_cases hkey : ip = host.host_ip ∧ pr' = pr
  · obtain ⟨rfl, rfl⟩ := hkey
    rw [if_pos ⟨rfl, rfl⟩, hl]
    by_cases hy : y = x
    · subst hy
      simp
    · simp [hy, live, connections_of_mem hi hhost]
  · rw [if_neg hkey, Function.update_of_ne]
    · rfl
    · intro heq
      simp only [Prod.mk.injEq] at heq
      exact hkey ⟨heq.1, heq.2.1⟩

/-- What the result of a creation says: 0 that all ports of the list are taken, and another one that it is the port of
the connection that was there, or one that no connection had. -/
structure CreateResult (l : List nat_port) (conn : NatConnection) (x : UINT2) : Prop where
  full : x = 0 → Full l
  port : x ≠ 0 → (∃ p ∈ l, p.external_port_no = x ∧ p.internal = conn.internal) ∨
    (∀ p ∈ l, p.internal ≠ conn.internal) ∧ ∀ p ∈ l, p.external_port_no ≠ x

theorem connectHost_live (hi : s.Inv leaked) (hhost : host ∈ s.hosts) (conn : NatConnection) (proto_type : UINT1) :
    (s.connectHost host conn proto_type).2.Inv leaked ∧
      LiveStep s.live (s.connectHost host conn proto_type).2.live (.create_nat_connect conn host.host_ip proto_type)
        (s.connectHost host conn proto_type).1 ∧
      (s.g_nat_port_id.usable_len ≠ 0 → ∀ pr, natProto proto_type = some pr →
        CreateResult (host.port_list pr) conn (s.connectHost host conn proto_type).1) := by
  obtain ⟨l₁, l₂, hs⟩ := List.append_of_mem hhost
  rcases connectHost_spec hi hs conn proto_type with
    ⟨he, hno⟩ | ⟨s', x, pr, l, he, hpr, hi', hs', ⟨p, hp, hpx, -⟩, hold, hlook⟩
  · rw [he]
    refine ⟨hi, ?_, ?_⟩
    · simp only [LiveStep, if_true]
      cases natProto proto_type <;> rfl
    · intro hu pr hpr
      exact ⟨fun _ => (hno pr hpr).2.resolve_left hu, fun hx => absurd rfl hx⟩
  · rw [he]
    have hx : x ≠ 0 := by
      have ho := hi'.ordered (host.setPortList pr l) (by simp [hs']) pr
      rw [setPortList_self] at ho
      rintro rfl
      have hmin := (ho.range p hp).1
      rw [hpx] at hmin
      exact absurd hmin (by decide)
    refine ⟨hi', ?_, ?_⟩
    · have hlive : s.live (host.host_ip, pr, x) = lookupPort (host.port_list pr) x := by
        simp only [live, connections_of_mem hi hhost]
      simp only [LiveStep, hpr, if_neg hx, hlive]
      exact live_replace hs hi hs' hlook
    · intro _ pr' hpr'
      obtain rfl := Option.some.inj (hpr.symm.trans hpr')
      exact ⟨fun h => absurd h hx, fun _ => hold.imp id fun hnew => ⟨hnew.1, hnew.2.1⟩⟩

/-- The port pool has the nodes that a call may take: one for a connection, and two more for a host. -/
def Supplied (s : NatTables) : NatCall → Prop
  | .create_nat_connect _ host_ip _ =>
    (if s.find_nat_host_by_ip host_ip = none ∧ s.host_num < NAT_HOST_MAX_NUM - 1 then 3 else 1) ≤
      s.g_nat_port_id.usable_len
  | _ => True

instance (s : NatTables) (c : NatCall) : Decidable (s.Supplied c) :=
  match c with
  | .create_nat_connect _ _ _ => inferInstanceAs (Decidable (_ ≤ _))
  | .destroy_nat_connect _ _ _ | .destroy_nat_connect_by_mac_and_port _ _ _ _ _ => .isTrue trivial

/-- What a call returns; the calls that destroy a connection return nothing. -/
def result (s : NatTables) : NatCall → UINT2
  | .create_nat_connect conn host_ip proto_type => (s.create_nat_connect conn host_ip proto_type).1
  | _ => 0

theorem create_live (hi : s.Inv leaked) (hsup : s.Supplied (.create_nat_connect conn ip proto_type)) :
    (s.create_nat_connect conn ip proto_type).2.Inv leaked ∧
      LiveStep s.live (s.create_nat_connect conn ip proto_type).2.live (.create_nat_connect conn ip proto_type)
        (s.create_nat_connect conn ip proto_type).1 ∧
      ∀ pr, natProto proto_type = some pr →
        (s.find_nat_host_by_ip ip = none ∧ NAT_HOST_MAX_NUM - 1 ≤ s.hosts.length ∧
          (s.create_nat_connect conn ip proto_type).1 = 0) ∨
        CreateResult (s.connections ip pr) conn (s.create_nat_connect conn ip proto_type).1 := by
  rw [create_nat_connect]
  rw [Supplied] at hsup
  cases hf : s.find_nat_host_by_ip ip with
  | some host =>
    obtain ⟨rfl, -⟩ := find_host_some hf
    have hhost : host ∈ s.hosts := List.mem_of_find?_eq_some hf
    simp only [hf, reduceCtorEq, false_and, if_false] at hsup
    obtain ⟨hi', hlive, hres⟩ := connectHost_live hi hhost conn proto_type
    refine ⟨hi', hlive, ?_⟩
    intro pr hpr
    rw [connections_of_mem hi hhost]
    exact .inr (hres (by omega) pr hpr)
  | none =>
    rw [hf] at hsup
    by_cases hlimit : NAT_HOST_MAX_NUM - 1 ≤ s.host_num
    · simp only [create_nat_host_full hlimit]
      refine ⟨hi, ?_, ?_⟩
      · simp only [LiveStep, if_true]
        cases natProto proto_type <;> rfl
      · intro pr _
        exact .inl ⟨trivial, hi.host_num ▸ hlimit, trivial⟩
    · rw [not_le] at hlimit
      rw [if_pos ⟨rfl, hlimit⟩] at hsup
      obtain ⟨host, t, he, ht, hts, rfl, hempty, hu⟩ := create_nat_host_spec hi hf hlimit (by omega)
      simp only [he]
      obtain ⟨hi', hlive, hres⟩ := connectHost_live ht (show host ∈ t.hosts by simp [hts]) conn proto_type
      have hsame := connections_append hf hts hempty
      have hslive : t.live = s.live := by
        funext ⟨ip, pr, x⟩
        rw [live, live, hsame]
      refine ⟨hi', hslive ▸ hlive, ?_⟩
      intro pr hpr
      rw [← hsame, connections_of_mem ht (by simp [hts])]
      exact .inr (hres (by omega) pr hpr)

theorem destroy_live (hi : s.Inv leaked) (ip : UINT4) (proto_type : UINT1) {q : nat_port → Prop}
    {remove : List nat_port → Option (nat_port × List nat_port)}
    (hrem : ∀ l, Ordered l → RemovesFirst q l (remove l)) :
    (∃ leaked', (s.destroy ip proto_type remove).Inv leaked') ∧
      (natProto proto_type = none → (s.destroy ip proto_type remove).live = s.live) ∧
      ∀ pr, natProto proto_type = some pr →
        ((s.destroy ip proto_type remove).live = s.live ∧ ∀ p ∈ s.connections ip pr, ¬ q p) ∨
        ∃ k₁ r k₂, s.connections ip pr = k₁ ++ r :: k₂ ∧ q r ∧ (∀ p ∈ k₁, ¬ q p) ∧
          (s.destroy ip proto_type remove).live = Function.update s.live (ip, pr, r.external_port_no) none := by
  rcases destroy_spec hi ip proto_type hrem with
    ⟨he, hno⟩ | ⟨host, l₁, l₂, pr, l, t, hf, hpr, hs, rfl, hl, ht, hts, he⟩
  · rw [he]
    refine ⟨⟨leaked, hi⟩, fun _ => rfl, ?_⟩
    intro pr hpr
    have hf := hno.resolve_right (by simp [hpr])
    refine .inl ⟨rfl, ?_⟩
    simp [connections, hf]
  · have hhost : host ∈ s.hosts := by simp [hs]
    have hafter : (∃ leaked', (s.destroy host.host_ip proto_type remove).Inv leaked') ∧
        (s.destroy host.host_ip proto_type remove).live = t.live := by
      rw [he]
      split_ifs with hunused
      · obtain ⟨hts', ht'⟩ := ht.remove_nat_host hts (unused_iff.mp hunused)
        refine ⟨⟨_, ht'⟩, ?_⟩
        funext ⟨ip, pr', x⟩
        have hsame := connections_remove hts ht (unused_iff.mp hunused) hts'
        rw [live, live]
        exact congrArg (fun f => lookupPort (f ip pr') x) hsame
      · exact ⟨⟨leaked, ht⟩, rfl⟩
    refine ⟨hafter.1, fun hnone => (by simp [hpr] at hnone), ?_⟩
    intro pr' hpr'
    obtain rfl := Option.some.inj (hpr.symm.trans hpr')
    rw [connections_of_mem hi hhost, hafter.2]
    rcases hl with ⟨rfl, hq⟩ | ⟨k₁, r, k₂, hk, rfl, hq, hk₁⟩
    · refine .inl ⟨?_, hq⟩
      rw [nat_host.setPortList, Function.update_eq_self, ← hs] at hts
      funext ⟨ip, pr', x⟩
      simp only [live, connections, find_nat_host_by_ip, hts]
    · refine .inr ⟨k₁, r, k₂, hk, hq, hk₁, ?_⟩
      apply live_replace hs hi hts
      intro y
      rw [hk]
      exact lookupPort_remove (hk ▸ (hi.ordered host hhost pr).increasing) y

theorem call_live (hi : s.Inv leaked) {c : NatCall} (hsup : s.Supplied c) :
    (∃ leaked', (s.call c).Inv leaked') ∧ LiveStep s.live (s.call c).live c (s.result c) := by
  cases c with
  | create_nat_connect conn host_ip proto_type =>
    obtain ⟨hi', hlive, -⟩ := create_live hi hsup
    exact ⟨⟨leaked, hi'⟩, hlive⟩
  | destroy_nat_connect host_ip x proto_type =>
    obtain ⟨hi', hnone, hsome⟩ := destroy_live hi host_ip proto_type
      fun l hl => remove_nat_port_by_port_no_spec hl.increasing x
    refine ⟨hi', ?_⟩
    simp only [LiveStep]
    cases hpr : natProto proto_type with
    | none => exact hnone hpr
    | some pr =>
      rcases hsome pr hpr with ⟨hsame, hno⟩ | ⟨k₁, r, k₂, -, rfl, -, hlive⟩
      · have hfree : s.live (host_ip, pr, x) = none := by
          simp only [live, lookupPort, find?_none_of_not_mem hno, Option.map_none]
        simp only
        rw [← hfree, Function.update_eq_self]
        exact hsame
      · exact hlive
  | destroy_nat_connect_by_mac_and_port dpid host_ip internal_mac internal_port_no proto_type =>
    obtain ⟨hi', hnone, hsome⟩ := destroy_live hi host_ip proto_type
      fun l _ => remove_nat_port_by_mac_and_port_spec l dpid internal_mac internal_port_no
    refine ⟨hi', ?_⟩
    simp only [LiveStep]
    cases hpr : natProto proto_type with
    | none => exact hnone hpr
    | some pr =>
      have hincr := (hi.connections_ordered host_ip pr).increasing
      rcases hsome pr hpr with ⟨hsame, hno⟩ | ⟨k₁, r, k₂, hk, hr, hk₁, hlive⟩
      · refine .inl ⟨hsame, ?_⟩
        intro x c hx
        obtain ⟨p, hp, -, rfl⟩ := (lookupPort_eq_some hincr).mp hx
        exact hno p hp
      · refine .inr ⟨r.external_port_no, r.toNatConnection, ?_, hr, ?_, hlive⟩
        · exact (lookupPort_eq_some hincr).mpr ⟨r, by simp [hk], rfl, rfl⟩
        · intro y d hy hd
          obtain ⟨p, hp, rfl, rfl⟩ := (lookupPort_eq_some hincr).mp hy
          rw [hk] at hp hincr
          rcases List.mem_append.mp hp with hp | hp
          · exact absurd hd (hk₁ p hp)
          · rcases List.mem_cons.mp hp with rfl | hp
            · exact UInt16.le_refl _
            · exact UInt16.le_of_lt ((List.pairwise_cons.mp (List.pairwise_append.mp hincr).2.1).1 p hp)

/-- A search finds the live connection with the external address, port and protocol. -/
theorem find_nat_connect_eq (hi : s.Inv leaked) (ip : UINT4) (x : UINT2) (proto_type : UINT1) :
    (s.find_nat_connect ip x proto_type).map nat_port.toNatConnection =
      (natProto proto_type).bind fun pr => s.live (ip, pr, x) := by
  rw [find_nat_connect]
  split_ifs with hrange
  · cases hpr : natProto proto_type with
    | none => rfl
    | some pr =>
      have hnone : lookupPort (s.connections ip pr) x = none := by
        rw [lookupPort, find?_none_of_not_mem, Option.map_none]
        rintro p hp rfl
        obtain ⟨hmin, hmax⟩ := (hi.connections_ordered ip pr).range p hp
        rcases hrange with hlt | hlt
        · exact UInt16.lt_irrefl _ (UInt16.lt_trans hmin hlt)
        · exact UInt16.not_lt.mpr hmax hlt
      simp [live, hnone]
  · cases hf : s.find_nat_host_by_ip ip with
    | none =>
      cases natProto proto_type with
      | none => rfl
      | some pr => simp [live, connections, hf, lookupPort]
    | some host =>
      cases natProto proto_type with
      | none => rfl
      | some pr =>
        have ho := hi.ordered host (List.mem_of_find?_eq_some hf) pr
        simp [live, connections, hf, lookupPort, find_nat_port_by_port_no_eq ho.increasing]

theorem find_nat_connect_port (hi : s.Inv leaked) {x : UINT2} {p : nat_port}
    (hp : p ∈ s.find_nat_connect ip x proto_type) : p.external_port_no = x := by
  rw [find_nat_connect] at hp
  split_ifs at hp with hrange
  · cases hp
  · cases hf : s.find_nat_host_by_ip ip with
    | none =>
      rw [hf] at hp
      cases hp
    | some host =>
      rw [hf] at hp
      cases hpr : natProto proto_type with
      | none =>
        rw [hpr] at hp
        cases hp
      | some pr =>
        have ho := hi.ordered host (List.mem_of_find?_eq_some hf) pr
        rw [hpr] at hp
        simp only [find_nat_port_by_port_no_eq ho.increasing] at hp
        simpa using List.find?_some (Option.mem_def.mp hp)

end NatTables

/-- The tables, and the connections that were created and not destroyed since. -/
structure NatRun where
  nat : NatTables
  live : NatLive

namespace NatRun

def start : NatRun := ⟨NatTables.start, fun _ => none⟩

/-- A call, with the live connections after it. -/
def step (r : NatRun) (e : NatCall × NatLive) : Option NatRun := some ⟨r.nat.call e.1, e.2⟩

/-- The port pool is not exhausted, and the live connections change as the call means. -/
def Follows (r : NatRun) (e : NatCall × NatLive) : Prop :=
  r.nat.Supplied e.1 ∧ LiveStep r.live e.2 e.1 (r.nat.result e.1)

variable {r : NatRun}

theorem inv (h : Run step Follows start r) : (∃ leaked, r.nat.Inv leaked) ∧ r.live = r.nat.live := by
  refine h.invariant (P := fun r => (∃ leaked, r.nat.Inv leaked) ∧ r.live = r.nat.live) ?_
    ⟨⟨[], NatTables.start_inv⟩, ?_⟩
  · rintro t e u ⟨⟨leaked, hi⟩, hlive⟩ ⟨hsup, hstep⟩ he
    obtain rfl := Option.some.inj he
    obtain ⟨hi', hlive'⟩ := NatTables.call_live hi hsup
    rw [hlive] at hstep
    exact ⟨hi', hstep.unique hlive'⟩
  · rfl

/-- Both lists of every external host increase strictly in the range of the ports, with one connection at most for an
internal address and port; a search finds the live connections and no others; and a creation for TCP or UDP returns 0
only where all ports are taken or the hosts are at their limit, and a port that is free or the connection's own
otherwise. -/
theorem nat_connections_exact (h : Run step Follows start r) :
    (∀ host ∈ r.nat.hosts, ∀ pr, Ordered (host.port_list pr) ∧ InternalDistinct (host.port_list pr)) ∧
    (∀ ip x proto_type, (r.nat.find_nat_connect ip x proto_type).map nat_port.toNatConnection =
        (natProto proto_type).bind (fun pr => r.live (ip, pr, x)) ∧
      ∀ p ∈ r.nat.find_nat_connect ip x proto_type, p.external_port_no = x) ∧
    (∀ conn ip proto_type pr, r.nat.Supplied (.create_nat_connect conn ip proto_type) →
      natProto proto_type = some pr →
      (r.nat.find_nat_host_by_ip ip = none ∧ NAT_HOST_MAX_NUM - 1 ≤ r.nat.hosts.length ∧
        (r.nat.create_nat_connect conn ip proto_type).1 = 0) ∨
      NatTables.CreateResult (r.nat.connections ip pr) conn (r.nat.create_nat_connect conn ip proto_type).1) ∧
    ∀ c, r.nat.Supplied c → ∃ live, LiveStep r.live live c (r.nat.result c) := by
  obtain ⟨⟨leaked, hi⟩, hlive⟩ := inv h
  refine ⟨?_, ?_, ?_, ?_⟩
  · intro host hhost pr
    exact ⟨hi.ordered host hhost pr, hi.distinct host hhost pr⟩
  · intro ip x proto_type
    rw [hlive]
    exact ⟨NatTables.find_nat_connect_eq hi ip x proto_type, fun p hp => NatTables.find_nat_connect_port hi hp⟩
  · intro conn ip proto_type pr hsup hpr
    exact (NatTables.create_live hi hsup).2.2 pr hpr
  · intro c hsup
    rw [hlive]
    exact ⟨_, (NatTables.call_live hi hsup).2⟩

def webConnection (internal_ip : UINT4) : NatConnection := ⟨internal_ip, 80, 0x0605040302, 1, 2⟩

/-- The first port comes back to a new connection. -/
theorem port_used_again : ∃ r, Run step Follows start r ∧ ∀ p ∈ r.nat.find_nat_connect 9 49201 IPPROTO_TCP,
    p.toNatConnection = webConnection 3 := by
  have hrun : Run step Follows start _ := .tail (a := (.create_nat_connect (webConnection 3) 9 IPPROTO_TCP,
      Function.update (Function.update (Function.update (fun _ => none) (9, .tcp, 49201) (some (webConnection 1)))
        (9, .tcp, 49201) none) (9, .tcp, 49201) (some (webConnection 3))))
    (.tail (a := (.destroy_nat_connect 9 49201 IPPROTO_TCP,
        Function.update (Function.update (fun _ => none) (9, .tcp, 49201) (some (webConnection 1)))
          (9, .tcp, 49201) none))
      (.tail (a := (.create_nat_connect (webConnection 1) 9 IPPROTO_TCP,
          Function.update (fun _ => none) (9, .tcp, 49201) (some (webConnection 1))))
        .refl ⟨by decide, rfl⟩ rfl) ⟨trivial, rfl⟩ rfl) ⟨by decide, rfl⟩ rfl
  refine ⟨_, hrun, ?_⟩
  intro p hp
  have hfound := ((nat_connections_exact hrun).2.1 9 49201 IPPROTO_TCP).1
  rw [Option.mem_def.mp hp] at hfound
  exact Option.some.inj (hfound.trans rfl)

end NatRun

end DCFabric
