import DCFabric.BncTypes
import DCFabric.HighestFree
import DCFabric.TransitionRuns

namespace DCFabric

open HighestFree TransitionRuns

def LBAAS_CONNECT_PORT_MIN_VALUE : ℕ := 59200
def LBAAS_CONNECT_PORT_MAX_VALUE : ℕ := 59700

inductive lbaas_listener_member_status_type where
  | LBAAS_LISTENER_MEMBER_INACTIVE
  | LBAAS_LISTENER_MEMBER_ACTIVE
  | LBAAS_LISTENER_MEMBER_INITIALIZE
  deriving DecidableEq

inductive lbaas_method where
  | LB_M_ROUNT_ROBIN
  | LB_M_LEAST_CONNECTIONS
  | LB_M_SOURCE_IP
  deriving DecidableEq

structure openstack_lbaas_connect_t where
  ext_ip : UINT4
  inside_ip : UINT4
  vip : UINT4
  src_port_no : UINT4
  ext_port_no : ℕ
  deriving DecidableEq

def openstack_lbaas_connect_t.IsFor (connect : openstack_lbaas_connect_t) (ext_ip src_port_no : UINT4) : Prop :=
  connect.ext_ip = ext_ip ∧ connect.src_port_no = src_port_no

instance (connect : openstack_lbaas_connect_t) (ext_ip src_port_no : UINT4) :
    Decidable (connect.IsFor ext_ip src_port_no) :=
  inferInstanceAs (Decidable (_ ∧ _))

structure openstack_lbaas_members where
  weight : UINT2
  status : lbaas_listener_member_status_type
  fixed_ip : UINT4
  connect_numbers : UINT1
  connect_ips : List openstack_lbaas_connect_t
  deriving DecidableEq

/-- The members are given by their addresses, the one that had the last turn by its place in the list. -/
structure openstack_lbaas_pools where
  pools_id : List UINT1
  lbaas_method : lbaas_method
  ipaddress : UINT4
  weight_count : UINT4
  last_round_robin_member : Option ℕ
  pool_member_list : List ℕ
  deriving DecidableEq

/-- The members by their addresses, the lists and what is left of the memory for connections. -/
structure OpenstackLbaas where
  members : ℕ → openstack_lbaas_members
  g_openstack_lbaas_members_list : List ℕ
  g_openstack_lbaas_pools_list : List openstack_lbaas_pools
  g_openstack_lbaas_connect_id : ℕ

namespace openstack_lbaas_members

def withConnect (member_p : openstack_lbaas_members) (connect : openstack_lbaas_connect_t) : openstack_lbaas_members :=
  { member_p with
    connect_numbers := member_p.connect_numbers + 1
    connect_ips := place (·.ext_port_no) (LBAAS_CONNECT_PORT_MAX_VALUE + 1) connect member_p.connect_ips }

/-- The connections without the node for `connect`. -/
def unlinked (connect : openstack_lbaas_connect_t) : List openstack_lbaas_connect_t → List openstack_lbaas_connect_t
  | [] => []
  | prev :: rest => if prev = connect then rest else prev :: rest.filter (· ≠ connect)

def withoutConnect (member_p : openstack_lbaas_members) (connect : openstack_lbaas_connect_t) :
    openstack_lbaas_members :=
  { member_p with
    connect_numbers := member_p.connect_numbers - 1
    connect_ips := unlinked connect member_p.connect_ips }

end openstack_lbaas_members

namespace OpenstackLbaas

def setMember (s : OpenstackLbaas) (p : ℕ) (member_p : openstack_lbaas_members) : OpenstackLbaas :=
  { s with members := Function.update s.members p member_p }

def find_openstack_lbaas_pool_by_ip (s : OpenstackLbaas) (ip : UINT4) : Option openstack_lbaas_pools :=
  s.g_openstack_lbaas_pools_list.find? fun lb_pool => lb_pool.ipaddress = ip

def find_openstack_lbaas_member_by_ip (s : OpenstackLbaas) (vip inside_ip : UINT4) : Option ℕ :=
  (s.find_openstack_lbaas_pool_by_ip vip).bind fun pool_p =>
    pool_p.pool_member_list.find? fun p => (s.members p).fixed_ip = inside_ip

def find_openstack_lbass_connect_by_extip (s : OpenstackLbaas) (ext_ip inside_ip vip src_port_no : UINT4) :
    Option openstack_lbaas_connect_t :=
  (s.find_openstack_lbaas_member_by_ip vip inside_ip).bind fun p =>
    (s.members p).connect_ips.find? fun connect_p => connect_p.IsFor ext_ip src_port_no

def find_openstack_lbass_connect_by_extip_portno (s : OpenstackLbaas) (ext_ip src_port_no : UINT4) :
    Option openstack_lbaas_connect_t :=
  s.g_openstack_lbaas_members_list.findSome? fun p =>
    (s.members p).connect_ips.find? fun connect_p => connect_p.IsFor ext_ip src_port_no

def granted (s : OpenstackLbaas) (p : ℕ) (connect : openstack_lbaas_connect_t) : OpenstackLbaas :=
  { s.setMember p ((s.members p).withConnect connect) with
    g_openstack_lbaas_connect_id := s.g_openstack_lbaas_connect_id - 1 }

def create_openstack_lbaas_connect (s : OpenstackLbaas) (ext_ip inside_ip vip src_port_no : UINT4) :
    ℕ × OpenstackLbaas :=
  match s.find_openstack_lbass_connect_by_extip ext_ip inside_ip vip src_port_no with
  | some _ => (0, s)
  | none =>
    match s.find_openstack_lbaas_member_by_ip vip inside_ip with
    | none => (0, s)
    | some p =>
      let current_max_port_no :=
        (walk (·.ext_port_no) (LBAAS_CONNECT_PORT_MAX_VALUE + 1) (s.members p).connect_ips).2
      if LBAAS_CONNECT_PORT_MIN_VALUE ≥ current_max_port_no then (0, s)
      else if s.g_openstack_lbaas_connect_id = 0 then (0, s)
      else
        (current_max_port_no - 1, s.granted p ⟨ext_ip, inside_ip, vip, src_port_no, current_max_port_no - 1⟩)

/-- For a node of a connection. It is `none` where a null pointer is followed. -/
def remove_node_from_list (s : OpenstackLbaas) (connect_p : openstack_lbaas_connect_t) : Option OpenstackLbaas :=
  (s.find_openstack_lbaas_member_by_ip connect_p.vip connect_p.inside_ip).bind fun p =>
    if (s.members p).connect_ips = [] then none
    else some (s.setMember p ((s.members p).withoutConnect connect_p))

def remove_openstack_lbaas_connect (s : OpenstackLbaas) (ext_ip inside_ip vip src_port_no : UINT4) :
    Option OpenstackLbaas :=
  match s.find_openstack_lbass_connect_by_extip ext_ip inside_ip vip src_port_no with
  | some connect_p => s.remove_node_from_list connect_p
  | none => some s

def remove_openstack_lbaas_connect_by_ext_ip_portno (s : OpenstackLbaas) (ext_ip src_port_no : UINT4) :
    Option OpenstackLbaas :=
  match s.find_openstack_lbass_connect_by_extip_portno ext_ip src_port_no with
  | some connect_p => s.remove_node_from_list connect_p
  | none => some s

/-- The pools and the members as they are, with no connections. -/
def cleared (s : OpenstackLbaas) : OpenstackLbaas :=
  { s with members := fun p => { s.members p with connect_numbers := 0, connect_ips := [] } }

end OpenstackLbaas

/-- What is asked of the connections: by a packet to a virtual address, by a record of the master, and by a flow that
timed out. -/
inductive LbaasEvent where
  | create (ext_ip inside_ip vip src_port_no : UINT4)
  | remove (ext_ip inside_ip vip src_port_no : UINT4)
  | timeout (ext_ip src_port_no : UINT4)
  deriving DecidableEq

/-- With the ports that were given out. -/
def OpenstackLbaas.step : List ℕ × OpenstackLbaas → LbaasEvent → Option (List ℕ × OpenstackLbaas)
  | (ports, s), .create ext_ip inside_ip vip src_port_no =>
    let (port, t) := s.create_openstack_lbaas_connect ext_ip inside_ip vip src_port_no
    some (ports ++ [port], t)
  | (ports, s), .remove ext_ip inside_ip vip src_port_no =>
    (s.remove_openstack_lbaas_connect ext_ip inside_ip vip src_port_no).map (ports, ·)
  | (ports, s), .timeout ext_ip src_port_no =>
    (s.remove_openstack_lbaas_connect_by_ext_ip_portno ext_ip src_port_no).map (ports, ·)

/-- What the connections are for: each member has a set of them, with ports of their own. -/
@[ext] structure LbaasBook where
  held : ℕ → Set openstack_lbaas_connect_t
  left : ℕ
  ports : List ℕ

namespace LbaasBook

/-- The ports that no connection of the member has. -/
def free (b : LbaasBook) (p : ℕ) : Set ℕ :=
  {k | LBAAS_CONNECT_PORT_MIN_VALUE ≤ k ∧ k ≤ LBAAS_CONNECT_PORT_MAX_VALUE ∧ ∀ c ∈ b.held p, c.ext_port_no ≠ k}

def refuse (b : LbaasBook) : LbaasBook := { b with ports := b.ports ++ [0] }

def grant (b : LbaasBook) (p : ℕ) (connect : openstack_lbaas_connect_t) : LbaasBook where
  held := Function.update b.held p (insert connect (b.held p))
  left := b.left - 1
  ports := b.ports ++ [connect.ext_port_no]

def release (b : LbaasBook) (p : ℕ) (ext_ip src_port_no : UINT4) : LbaasBook :=
  { b with held := Function.update b.held p {c ∈ b.held p | ¬ c.IsFor ext_ip src_port_no} }

open Classical in
/-- A new connection gets the greatest port that is free. -/
noncomputable def create (owner : UINT4 → UINT4 → Option ℕ) (b : LbaasBook)
    (ext_ip inside_ip vip src_port_no : UINT4) : LbaasBook :=
  match owner vip inside_ip with
  | none => b.refuse
  | some p =>
    if (∃ c ∈ b.held p, c.IsFor ext_ip src_port_no) ∨ b.free p = ∅ ∨ b.left = 0 then b.refuse
    else b.grant p ⟨ext_ip, inside_ip, vip, src_port_no, sSup (b.free p)⟩

open Classical in
noncomputable def step (owner : UINT4 → UINT4 → Option ℕ) (members : List ℕ) (b : LbaasBook) : LbaasEvent → LbaasBook
  | .create ext_ip inside_ip vip src_port_no => b.create owner ext_ip inside_ip vip src_port_no
  | .remove ext_ip inside_ip vip src_port_no =>
    match owner vip inside_ip with
    | none => b
    | some p => b.release p ext_ip src_port_no
  | .timeout ext_ip src_port_no =>
    match members.find? fun p => ∃ c ∈ b.held p, c.IsFor ext_ip src_port_no with
    | none => b
    | some p => b.release p ext_ip src_port_no

end LbaasBook

namespace OpenstackLbaas

def book (s : OpenstackLbaas) (ports : List ℕ) : LbaasBook where
  held p := {c | c ∈ (s.members p).connect_ips}
  left := s.g_openstack_lbaas_connect_id
  ports := ports

/-- A member's connections have ports of their own, in descending order, are for different sources and are found again
by their addresses. -/
structure Kept (s : OpenstackLbaas) (p : ℕ) : Prop where
  descending : Descending (·.ext_port_no) (s.members p).connect_ips
  port : ∀ c ∈ (s.members p).connect_ips,
    LBAAS_CONNECT_PORT_MIN_VALUE ≤ c.ext_port_no ∧ c.ext_port_no ≤ LBAAS_CONNECT_PORT_MAX_VALUE
  once : ((s.members p).connect_ips.map fun c => (c.ext_ip, c.src_port_no)).Nodup
  owned : ∀ c ∈ (s.members p).connect_ips, s.find_openstack_lbaas_member_by_ip c.vip c.inside_ip = some p
  counted : (s.members p).connect_numbers = UInt8.ofNat (s.members p).connect_ips.length

def Inv (s : OpenstackLbaas) : Prop := ∀ p, s.Kept p

variable {s t : OpenstackLbaas} {p q : ℕ} {m : openstack_lbaas_members} {c d : openstack_lbaas_connect_t}
  {ext_ip inside_ip vip src_port_no : UINT4} {ports : List ℕ}

theorem setMember_members : (s.setMember p m).members p = m := by
  simp [setMember]

theorem find_setMember (hm : m.fixed_ip = (s.members p).fixed_ip) :
    (s.setMember p m).find_openstack_lbaas_member_by_ip = s.find_openstack_lbaas_member_by_ip := by
  have hfixed : ∀ q, (Function.update s.members p m q).fixed_ip = (s.members q).fixed_ip := by
    intro q
    by_cases hq : q = p
    · rw [hq, Function.update_self, hm]
    · rw [Function.update_of_ne hq]
  funext vip inside_ip
  simp only [find_openstack_lbaas_member_by_ip, find_openstack_lbaas_pool_by_ip, setMember, hfixed]

theorem Kept.below (h : s.Kept p) : ∀ c ∈ (s.members p).connect_ips, c.ext_port_no < LBAAS_CONNECT_PORT_MAX_VALUE + 1 :=
  fun c hc => Nat.lt_succ_of_le (h.port c hc).2

theorem Kept.nodup (h : s.Kept p) : (s.members p).connect_ips.Nodup := h.once.of_map

theorem free_book : (s.book ports).free p =
    HighestFree.free (·.ext_port_no) LBAAS_CONNECT_PORT_MIN_VALUE (LBAAS_CONNECT_PORT_MAX_VALUE + 1)
      (s.members p).connect_ips := by
  ext k
  exact and_congr_right fun _ => and_congr_left fun _ => Nat.lt_succ_iff.symm

/-- The connection for a source is the one that is found. -/
theorem Kept.find (h : s.Kept p) (hc : c ∈ (s.members p).connect_ips) (hfor : c.IsFor ext_ip src_port_no) :
    (s.members p).connect_ips.find? (fun d => d.IsFor ext_ip src_port_no) = some c := by
  cases hfind : (s.members p).connect_ips.find? fun d => d.IsFor ext_ip src_port_no with
  | none =>
    have hnone := List.find?_eq_none.mp hfind c hc
    exact absurd hfor (by simpa using hnone)
  | some d =>
    have hd : d.IsFor ext_ip src_port_no := by simpa using List.find?_some hfind
    have hsame : (d.ext_ip, d.src_port_no) = (c.ext_ip, c.src_port_no) :=
      Prod.ext (hd.1.trans hfor.1.symm) (hd.2.trans hfor.2.symm)
    rw [List.inj_on_of_nodup_map h.once (List.mem_of_find?_eq_some hfind) hc hsame]

theorem Kept.unique (h : s.Kept p) (hc : c ∈ (s.members p).connect_ips) (hfor : c.IsFor ext_ip src_port_no)
    (hd : d ∈ (s.members p).connect_ips) (hsame : d.IsFor ext_ip src_port_no) : d = c :=
  Option.some.inj ((h.find hd hsame).symm.trans (h.find hc hfor))

theorem find_eq_none : (s.members p).connect_ips.find? (fun d => d.IsFor ext_ip src_port_no) = none ↔
    ¬ ∃ c ∈ (s.members p).connect_ips, c.IsFor ext_ip src_port_no := by
  simp

/-- Either nothing changes or the member gets the greatest port that is free. -/
theorem Kept.create_cases (h : s.Kept p) (hp : s.find_openstack_lbaas_member_by_ip vip inside_ip = some p)
    (ports : List ℕ) :
    ((∃ c ∈ (s.members p).connect_ips, c.IsFor ext_ip src_port_no) ∨ (s.book ports).free p = ∅ ∨
        s.g_openstack_lbaas_connect_id = 0) ∧
      s.create_openstack_lbaas_connect ext_ip inside_ip vip src_port_no = (0, s) ∨
    ((¬ ∃ c ∈ (s.members p).connect_ips, c.IsFor ext_ip src_port_no) ∧ (s.book ports).free p ≠ ∅ ∧
        s.g_openstack_lbaas_connect_id ≠ 0) ∧
      ∃ k, IsGreatest ((s.book ports).free p) k ∧
        k + 1 = (walk (·.ext_port_no) (LBAAS_CONNECT_PORT_MAX_VALUE + 1) (s.members p).connect_ips).2 ∧
        s.create_openstack_lbaas_connect ext_ip inside_ip vip src_port_no =
          (k, s.granted p ⟨ext_ip, inside_ip, vip, src_port_no, k⟩) := by
  unfold create_openstack_lbaas_connect find_openstack_lbass_connect_by_extip
  rw [hp, Option.bind_some, free_book]
  cases hfind : (s.members p).connect_ips.find? fun d => d.IsFor ext_ip src_port_no with
  | some d =>
    have hd : d.IsFor ext_ip src_port_no := by simpa using List.find?_some hfind
    exact .inl ⟨.inl ⟨d, List.mem_of_find?_eq_some hfind, hd⟩, rfl⟩
  | none =>
    have hnew := find_eq_none.mp hfind
    dsimp only
    by_cases hfull : LBAAS_CONNECT_PORT_MIN_VALUE ≥
        (walk (·.ext_port_no) (LBAAS_CONNECT_PORT_MAX_VALUE + 1) (s.members p).connect_ips).2
    · rw [if_pos hfull]
      exact .inl ⟨.inr (.inl (free_eq_empty h.descending h.below hfull)), rfl⟩
    · rw [if_neg hfull]
      have hgreatest := isGreatest_free h.descending h.below (not_le.mp hfull)
      by_cases hleft : s.g_openstack_lbaas_connect_id = 0
      · rw [if_pos hleft]
        exact .inl ⟨.inr (.inr hleft), rfl⟩
      · rw [if_neg hleft]
        refine .inr ⟨⟨hnew, ?_, hleft⟩, _, hgreatest, ?_, rfl⟩
        · exact Set.nonempty_iff_ne_empty.mp hgreatest.nonempty
        · omega

theorem Kept.congr (h : s.Kept p) (hp : t.members p = s.members p)
    (hfind : t.find_openstack_lbaas_member_by_ip = s.find_openstack_lbaas_member_by_ip) : t.Kept p := by
  constructor
  · rw [hp]
    exact h.descending
  · rw [hp]
    exact h.port
  · rw [hp]
    exact h.once
  · rw [hp, hfind]
    exact h.owned
  · rw [hp]
    exact h.counted

/-- What one member keeps, the others keep as well when only its entry is written. -/
theorem Inv.setMember (h : s.Inv) (hm : m.fixed_ip = (s.members p).fixed_ip) (hp : (s.setMember p m).Kept p) :
    (s.setMember p m).Inv := by
  intro q
  by_cases hq : q = p
  · rw [hq]
    exact hp
  · exact (h q).congr (Function.update_of_ne hq _ _) (find_setMember hm)

theorem find_granted :
    (s.granted p c).find_openstack_lbaas_member_by_ip = s.find_openstack_lbaas_member_by_ip :=
  find_setMember (m := (s.members p).withConnect c) rfl

theorem Inv.granted (h : s.Inv) (hp : s.find_openstack_lbaas_member_by_ip c.vip c.inside_ip = some p)
    (hnew : ¬ ∃ d ∈ (s.members p).connect_ips, d.IsFor c.ext_ip c.src_port_no)
    (hport : LBAAS_CONNECT_PORT_MIN_VALUE ≤ c.ext_port_no ∧ c.ext_port_no ≤ LBAAS_CONNECT_PORT_MAX_VALUE)
    (hwalk : c.ext_port_no + 1 =
      (walk (·.ext_port_no) (LBAAS_CONNECT_PORT_MAX_VALUE + 1) (s.members p).connect_ips).2) :
    (s.granted p c).Inv := by
  have hkept := h p
  have hperm := place_perm hkept.descending hkept.below c
  have hfind : (s.setMember p ((s.members p).withConnect c)).find_openstack_lbaas_member_by_ip =
      s.find_openstack_lbaas_member_by_ip := find_setMember rfl
  have hlist : (s.setMember p ((s.members p).withConnect c)).members p = (s.members p).withConnect c :=
    setMember_members
  suffices hinv : (s.setMember p ((s.members p).withConnect c)).Inv from fun q => (hinv q).congr rfl rfl
  apply h.setMember (m := (s.members p).withConnect c) rfl
  constructor
  · rw [hlist]
    apply place_descending hkept.descending hkept.below
    · omega
    · omega
  · rw [hlist]
    intro d hd
    rcases List.mem_cons.mp (hperm.mem_iff.mp hd) with rfl | hd
    · exact hport
    · exact hkept.port d hd
  · rw [hlist]
    apply (hperm.map _).nodup_iff.mpr
    rw [List.map_cons, List.nodup_cons]
    refine ⟨?_, hkept.once⟩
    intro hmem
    obtain ⟨d, hd, heq⟩ := List.mem_map.mp hmem
    exact hnew ⟨d, hd, congrArg Prod.fst heq, congrArg Prod.snd heq⟩
  · rw [hlist, hfind]
    intro d hd
    rcases List.mem_cons.mp (hperm.mem_iff.mp hd) with rfl | hd
    · exact hp
    · exact hkept.owned d hd
  · rw [hlist]
    change (s.members p).connect_numbers + 1 = UInt8.ofNat (place _ _ c (s.members p).connect_ips).length
    rw [hperm.length_eq, List.length_cons, UInt8.ofNat_add, hkept.counted]
    rfl

theorem unlinked_eq_erase {l : List openstack_lbaas_connect_t} (hl : l.Nodup) :
    openstack_lbaas_members.unlinked c l = l.erase c := by
  cases l with
  | nil => rfl
  | cons d l =>
    rw [openstack_lbaas_members.unlinked]
    by_cases hd : d = c
    · rw [if_pos hd, hd, List.erase_cons_head]
    · rw [if_neg hd, List.erase_cons_tail (by simpa using hd), (List.nodup_cons.mp hl).2.erase_eq_filter]
      congr 1
      apply List.filter_congr
      intro e _
      by_cases he : e = c <;> simp [he]

theorem Inv.withoutConnect (h : s.Inv) (hc : c ∈ (s.members p).connect_ips) :
    (s.setMember p ((s.members p).withoutConnect c)).Inv := by
  have hkept := h p
  have hfind : (s.setMember p ((s.members p).withoutConnect c)).find_openstack_lbaas_member_by_ip =
      s.find_openstack_lbaas_member_by_ip := find_setMember rfl
  have hlist : (s.setMember p ((s.members p).withoutConnect c)).members p = (s.members p).withoutConnect c :=
    setMember_members
  have hips : ((s.members p).withoutConnect c).connect_ips = (s.members p).connect_ips.erase c :=
    unlinked_eq_erase hkept.nodup
  have hsub : ((s.members p).connect_ips.erase c).Sublist (s.members p).connect_ips := List.erase_sublist
  apply h.setMember (m := (s.members p).withoutConnect c) rfl
  constructor
  · rw [hlist, hips]
    exact hkept.descending.sublist hsub
  · rw [hlist, hips]
    exact fun d hd => hkept.port d (hsub.mem hd)
  · rw [hlist, hips]
    exact hkept.once.sublist (hsub.map _)
  · rw [hlist, hips, hfind]
    exact fun d hd => hkept.owned d (hsub.mem hd)
  · rw [hlist, hips]
    change (s.members p).connect_numbers - 1 = _
    have hlen := List.length_erase_of_mem hc
    have hpos := List.length_pos_of_mem hc
    obtain ⟨n, hn⟩ : ∃ n, (s.members p).connect_ips.length = n + 1 := ⟨(s.members p).connect_ips.length - 1, by omega⟩
    rw [hlen, hkept.counted, hn, Nat.add_sub_cancel, UInt8.ofNat_add]
    exact add_sub_cancel_right _ _

theorem Kept.book_granted (h : s.Kept p) (c : openstack_lbaas_connect_t) (ports : List ℕ) :
    (s.granted p c).book (ports ++ [c.ext_port_no]) = (s.book ports).grant p c := by
  apply LbaasBook.ext
  · funext q
    change {d | d ∈ (Function.update s.members p _ q).connect_ips} =
      Function.update (s.book ports).held p (insert c ((s.book ports).held p)) q
    by_cases hq : q = p
    · rw [hq, Function.update_self, Function.update_self]
      ext d
      exact (place_perm h.descending h.below c).mem_iff.trans List.mem_cons
    · rw [Function.update_of_ne hq, Function.update_of_ne hq]
      rfl
  · rfl
  · rfl

theorem Kept.book_release (h : s.Kept p) (hc : c ∈ (s.members p).connect_ips) (hfor : c.IsFor ext_ip src_port_no) :
    (s.setMember p ((s.members p).withoutConnect c)).book ports = (s.book ports).release p ext_ip src_port_no := by
  apply LbaasBook.ext
  · funext q
    change {d | d ∈ (Function.update s.members p _ q).connect_ips} =
      Function.update (s.book ports).held p {d ∈ (s.book ports).held p | ¬ d.IsFor ext_ip src_port_no} q
    by_cases hq : q = p
    · rw [hq, Function.update_self, Function.update_self]
      ext d
      change d ∈ openstack_lbaas_members.unlinked c (s.members p).connect_ips ↔
        d ∈ (s.members p).connect_ips ∧ ¬ d.IsFor ext_ip src_port_no
      rw [unlinked_eq_erase h.nodup, h.nodup.mem_erase_iff, and_comm]
      apply and_congr_right
      intro hd
      apply not_congr
      constructor
      · rintro rfl
        exact hfor
      · exact h.unique hc hfor hd
    · rw [Function.update_of_ne hq, Function.update_of_ne hq]
      rfl
  · rfl
  · rfl

theorem release_idle (hnone : ¬ ∃ c ∈ (s.members p).connect_ips, c.IsFor ext_ip src_port_no) :
    (s.book ports).release p ext_ip src_port_no = s.book ports := by
  have hheld : {c ∈ (s.book ports).held p | ¬ c.IsFor ext_ip src_port_no} = (s.book ports).held p := by
    ext c
    exact and_iff_left_of_imp fun hc hfor => hnone ⟨c, hc, hfor⟩
  rw [LbaasBook.release, hheld, Function.update_eq_self]

theorem Inv.remove_node_from_list (h : s.Inv) (hc : c ∈ (s.members p).connect_ips) :
    s.remove_node_from_list c = some (s.setMember p ((s.members p).withoutConnect c)) := by
  rw [OpenstackLbaas.remove_node_from_list, (h p).owned c hc, Option.bind_some, if_neg (List.ne_nil_of_mem hc)]

/-- Where the connections are and what they are worth is the same after a step. -/
structure Follows (s t : OpenstackLbaas) : Prop where
  inv : t.Inv
  find : t.find_openstack_lbaas_member_by_ip = s.find_openstack_lbaas_member_by_ip
  list : t.g_openstack_lbaas_members_list = s.g_openstack_lbaas_members_list

theorem Inv.create (h : s.Inv) (ports : List ℕ) (ext_ip inside_ip vip src_port_no : UINT4) :
    ∃ port t, s.create_openstack_lbaas_connect ext_ip inside_ip vip src_port_no = (port, t) ∧ s.Follows t ∧
      t.book (ports ++ [port]) = (s.book ports).create s.find_openstack_lbaas_member_by_ip ext_ip inside_ip vip
        src_port_no := by
  cases hp : s.find_openstack_lbaas_member_by_ip vip inside_ip with
  | none =>
    refine ⟨0, s, ?_, ⟨h, rfl, rfl⟩, ?_⟩
    · rw [create_openstack_lbaas_connect, find_openstack_lbass_connect_by_extip, hp]
      rfl
    · rw [LbaasBook.create, hp]
      rfl
  | some p =>
    rw [LbaasBook.create, hp]
    dsimp only
    rcases (h p).create_cases hp ports with ⟨hrefuse, hcreate⟩ | ⟨⟨hnew, hfree, hleft⟩, k, hk, hwalk, hcreate⟩
    · refine ⟨0, s, hcreate, ⟨h, rfl, rfl⟩, ?_⟩
      exact (if_pos hrefuse).symm
    · refine ⟨k, _, hcreate, ⟨h.granted hp hnew ⟨hk.1.1, hk.1.2.1⟩ hwalk, find_granted, rfl⟩, ?_⟩
      have hgrant : ¬ ((∃ c ∈ (s.book ports).held p, c.IsFor ext_ip src_port_no) ∨ (s.book ports).free p = ∅ ∨
          (s.book ports).left = 0) := by
        rintro (hold | hempty | hnone)
        · exact hnew hold
        · exact hfree hempty
        · exact hleft hnone
      rw [if_neg hgrant, hk.csSup_eq]
      exact (h p).book_granted ⟨ext_ip, inside_ip, vip, src_port_no, k⟩ ports

/-- The connection that is found is taken off its member. -/
theorem Inv.taken (h : s.Inv) (hc : c ∈ (s.members p).connect_ips) (hfor : c.IsFor ext_ip src_port_no) :
    ∃ t, s.remove_node_from_list c = some t ∧ s.Follows t ∧
      ∀ ports, t.book ports = (s.book ports).release p ext_ip src_port_no := by
  refine ⟨_, h.remove_node_from_list hc, ⟨h.withoutConnect hc, find_setMember rfl, rfl⟩, ?_⟩
  intro ports
  exact (h p).book_release hc hfor

theorem Inv.remove (h : s.Inv) (ports : List ℕ) (ext_ip inside_ip vip src_port_no : UINT4) :
    ∃ t, s.remove_openstack_lbaas_connect ext_ip inside_ip vip src_port_no = some t ∧ s.Follows t ∧
      t.book ports = (s.book ports).step s.find_openstack_lbaas_member_by_ip s.g_openstack_lbaas_members_list
        (.remove ext_ip inside_ip vip src_port_no) := by
  rw [remove_openstack_lbaas_connect, find_openstack_lbass_connect_by_extip, LbaasBook.step]
  cases hp : s.find_openstack_lbaas_member_by_ip vip inside_ip with
  | none => exact ⟨s, rfl, ⟨h, rfl, rfl⟩, rfl⟩
  | some p =>
    rw [Option.bind_some]
    dsimp only
    cases hfind : (s.members p).connect_ips.find? fun d => d.IsFor ext_ip src_port_no with
    | none => exact ⟨s, rfl, ⟨h, rfl, rfl⟩, (release_idle (find_eq_none.mp hfind)).symm⟩
    | some c =>
      have hfor : c.IsFor ext_ip src_port_no := by simpa using List.find?_some hfind
      obtain ⟨t, ht, hfollows, hbook⟩ := h.taken (List.mem_of_find?_eq_some hfind) hfor
      exact ⟨t, ht, hfollows, hbook ports⟩

theorem Inv.timeout (h : s.Inv) (ports : List ℕ) (ext_ip src_port_no : UINT4) :
    ∃ t, s.remove_openstack_lbaas_connect_by_ext_ip_portno ext_ip src_port_no = some t ∧ s.Follows t ∧
      t.book ports = (s.book ports).step s.find_openstack_lbaas_member_by_ip s.g_openstack_lbaas_members_list
        (.timeout ext_ip src_port_no) := by
  classical
  rw [remove_openstack_lbaas_connect_by_ext_ip_portno, find_openstack_lbass_connect_by_extip_portno, LbaasBook.step]
  have hheld (q : ℕ) : (∃ c ∈ (s.book ports).held q, c.IsFor ext_ip src_port_no) ↔
      ((s.members q).connect_ips.find? fun d => d.IsFor ext_ip src_port_no) ≠ none :=
    (not_iff_not.mpr find_eq_none).trans not_not |>.symm
  cases hp : s.g_openstack_lbaas_members_list.find? fun q =>
      decide (∃ c ∈ (s.book ports).held q, c.IsFor ext_ip src_port_no) with
  | none =>
    have hnone : s.g_openstack_lbaas_members_list.findSome? (fun q =>
        (s.members q).connect_ips.find? fun d => d.IsFor ext_ip src_port_no) = none := by
      apply List.findSome?_eq_none_iff.mpr
      intro q hq
      have hq := List.find?_eq_none.mp hp q hq
      rw [decide_eq_true_eq, hheld, not_not] at hq
      exact hq
    rw [hnone]
    exact ⟨s, rfl, ⟨h, rfl, rfl⟩, rfl⟩
  | some p =>
    obtain ⟨hfound, l₁, l₂, hlist, hl₁⟩ := List.find?_eq_some_iff_append.mp hp
    rw [decide_eq_true_eq, hheld] at hfound
    obtain ⟨c, hc⟩ := Option.ne_none_iff_exists'.mp hfound
    have hsome : s.g_openstack_lbaas_members_list.findSome? (fun q =>
        (s.members q).connect_ips.find? fun d => d.IsFor ext_ip src_port_no) = some c := by
      have hfront : l₁.findSome? (fun q =>
          (s.members q).connect_ips.find? fun d => d.IsFor ext_ip src_port_no) = none := by
        apply List.findSome?_eq_none_iff.mpr
        intro q hq
        have hq := hl₁ q hq
        rw [Bool.not_eq_true', decide_eq_false_iff_not, hheld, not_not] at hq
        exact hq
      rw [hlist, List.findSome?_append, hfront, Option.none_or, List.findSome?_cons, hc]
    rw [hsome]
    have hfor : c.IsFor ext_ip src_port_no := by simpa using List.find?_some hc
    obtain ⟨t, ht, hfollows, hbook⟩ := h.taken (List.mem_of_find?_eq_some hc) hfor
    exact ⟨t, ht, hfollows, hbook ports⟩

theorem Inv.step (h : s.Inv) (ports : List ℕ) (event : LbaasEvent) :
    ∃ ports' t, step (ports, s) event = some (ports', t) ∧ s.Follows t ∧
      t.book ports' = (s.book ports).step s.find_openstack_lbaas_member_by_ip s.g_openstack_lbaas_members_list
        event := by
  cases event with
  | create ext_ip inside_ip vip src_port_no =>
    obtain ⟨port, t, ht, hfollows, hbook⟩ := h.create ports ext_ip inside_ip vip src_port_no
    exact ⟨ports ++ [port], t, by simp [OpenstackLbaas.step, ht], hfollows, hbook⟩
  | remove ext_ip inside_ip vip src_port_no =>
    obtain ⟨t, ht, hfollows, hbook⟩ := h.remove ports ext_ip inside_ip vip src_port_no
    exact ⟨ports, t, by simp [OpenstackLbaas.step, ht], hfollows, hbook⟩
  | timeout ext_ip src_port_no =>
    obtain ⟨t, ht, hfollows, hbook⟩ := h.timeout ports ext_ip src_port_no
    exact ⟨ports, t, by simp [OpenstackLbaas.step, ht], hfollows, hbook⟩

theorem Inv.exec (h : s.Inv) (ports : List ℕ) (events : List LbaasEvent) :
    ∃ ports' t, exec OpenstackLbaas.step (ports, s) events = some (ports', t) ∧ s.Follows t ∧
      t.book ports' = events.foldl (LbaasBook.step s.find_openstack_lbaas_member_by_ip
        s.g_openstack_lbaas_members_list) (s.book ports) := by
  induction events generalizing s ports with
  | nil => exact ⟨ports, s, rfl, ⟨h, rfl, rfl⟩, rfl⟩
  | cons event events ih =>
    obtain ⟨ports', t, ht, hfollows, hbook⟩ := h.step ports event
    obtain ⟨ports'', u, hu, hrest, hbooks⟩ := ih hfollows.inv ports'
    refine ⟨ports'', u, ?_, ⟨hrest.inv, hrest.find.trans hfollows.find, hrest.list.trans hfollows.list⟩, ?_⟩
    · rw [TransitionRuns.exec, ht]
      exact hu
    · rw [hbooks, hfollows.find, hfollows.list, hbook, List.foldl_cons]

theorem cleared_inv : s.cleared.Inv :=
  fun _ => ⟨List.Pairwise.nil, List.forall_mem_nil _, List.nodup_nil, List.forall_mem_nil _, rfl⟩

/-- No null pointer is followed, the ports that are given out and the connections are those of the book, and each
member's connections have ports of their own. -/
theorem connects_exact (s : OpenstackLbaas) (events : List LbaasEvent) :
    ∃ ports t, exec step ([], s.cleared) events = some (ports, t) ∧
      t.book ports = events.foldl (LbaasBook.step s.find_openstack_lbaas_member_by_ip
        s.g_openstack_lbaas_members_list) (s.cleared.book []) ∧
      ∀ p, ((t.members p).connect_ips.map (·.ext_port_no)).Nodup ∧
        (∀ c ∈ (t.members p).connect_ips,
          LBAAS_CONNECT_PORT_MIN_VALUE ≤ c.ext_port_no ∧ c.ext_port_no ≤ LBAAS_CONNECT_PORT_MAX_VALUE) ∧
        (t.members p).connect_numbers = UInt8.ofNat (t.members p).connect_ips.length := by
  obtain ⟨ports, t, ht, hfollows, hbook⟩ := (cleared_inv (s := s)).exec [] events
  refine ⟨ports, t, ht, hbook, ?_⟩
  intro p
  have hkept := hfollows.inv p
  refine ⟨?_, hkept.port, hkept.counted⟩
  exact List.pairwise_map.mpr (hkept.descending.imp fun hlt => (ne_of_lt hlt).symm)

end OpenstackLbaas

end DCFabric
