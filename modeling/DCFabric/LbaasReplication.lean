import DCFabric.LbaasConnects

namespace DCFabric

open TransitionRuns

inductive LbaasOperate where
  | OPERATE_ADD
  | OPERATE_DEL
  deriving DecidableEq

/-- A value under the key of the connections. -/
structure LbaasRecord where
  operate_type : LbaasOperate
  connect_ips : openstack_lbaas_connect_t
  deriving DecidableEq

namespace OpenstackLbaas

/-- The port of the record is passed over. -/
def recover_fabric_openstack_lbaas_members_list (s : OpenstackLbaas) (record : LbaasRecord) : Option OpenstackLbaas :=
  let c := record.connect_ips
  match record.operate_type with
  | .OPERATE_DEL => s.remove_openstack_lbaas_connect c.ext_ip c.inside_ip c.vip c.src_port_no
  | .OPERATE_ADD => some (s.create_openstack_lbaas_connect c.ext_ip c.inside_ip c.vip c.src_port_no).2

/-- What the master does, and the record that it stores of it. -/
def serve (s : OpenstackLbaas) : LbaasEvent → Option (Option LbaasRecord × OpenstackLbaas)
  | .create ext_ip inside_ip vip src_port_no =>
    let (port, t) := s.create_openstack_lbaas_connect ext_ip inside_ip vip src_port_no
    some (if port = 0 then none else some ⟨.OPERATE_ADD, ⟨ext_ip, inside_ip, vip, src_port_no, port⟩⟩, t)
  | .remove ext_ip inside_ip vip src_port_no =>
    match s.find_openstack_lbass_connect_by_extip ext_ip inside_ip vip src_port_no with
    | some connect_p => (s.remove_node_from_list connect_p).map (some ⟨.OPERATE_DEL, connect_p⟩, ·)
    | none => some (none, s)
  | .timeout ext_ip src_port_no =>
    match s.find_openstack_lbass_connect_by_extip_portno ext_ip src_port_no with
    | some connect_p => (s.remove_node_from_list connect_p).map (some ⟨.OPERATE_DEL, connect_p⟩, ·)
    | none => some (none, s)

variable {s : OpenstackLbaas} {p : ℕ} {c : openstack_lbaas_connect_t}

theorem Kept.find_by_extip (h : s.Kept p) (hc : c ∈ (s.members p).connect_ips) :
    s.find_openstack_lbass_connect_by_extip c.ext_ip c.inside_ip c.vip c.src_port_no = some c := by
  rw [find_openstack_lbass_connect_by_extip, h.owned c hc]
  exact h.find hc ⟨rfl, rfl⟩

theorem recover_add (hc : c ∈ (s.members p).connect_ips) (h : s.Kept p) :
    s.recover_fabric_openstack_lbaas_members_list ⟨.OPERATE_ADD, c⟩ = some s := by
  rw [recover_fabric_openstack_lbaas_members_list, create_openstack_lbaas_connect, h.find_by_extip hc]

/-- What the slave makes of a removal is what the master does, and once more it changes nothing. -/
theorem Inv.recover_del (h : s.Inv) (hc : c ∈ (s.members p).connect_ips) :
    ∃ t, s.remove_node_from_list c = some t ∧ t.Inv ∧
      s.recover_fabric_openstack_lbaas_members_list ⟨.OPERATE_DEL, c⟩ = some t ∧
      t.recover_fabric_openstack_lbaas_members_list ⟨.OPERATE_DEL, c⟩ = some t := by
  have hkept := h p
  have hremove := h.remove_node_from_list hc
  refine ⟨_, hremove, h.withoutConnect hc, ?_, ?_⟩
  · rw [recover_fabric_openstack_lbaas_members_list, remove_openstack_lbaas_connect]
    dsimp only
    rw [hkept.find_by_extip hc]
    exact hremove
  · rw [recover_fabric_openstack_lbaas_members_list, remove_openstack_lbaas_connect,
      find_openstack_lbass_connect_by_extip]
    dsimp only
    rw [find_setMember (m := (s.members p).withoutConnect c) rfl, hkept.owned c hc, Option.bind_some]
    have hnone : ¬ ∃ d ∈ ((s.setMember p ((s.members p).withoutConnect c)).members p).connect_ips,
        d.IsFor c.ext_ip c.src_port_no := by
      rintro ⟨d, hd, hfor⟩
      rw [setMember_members] at hd
      change d ∈ openstack_lbaas_members.unlinked c (s.members p).connect_ips at hd
      rw [unlinked_eq_erase hkept.nodup, hkept.nodup.mem_erase_iff] at hd
      exact hd.1 (hkept.unique hc ⟨rfl, rfl⟩ hd.2 hfor)
    rw [find_eq_none.mpr hnone]

theorem Inv.serve_taken (h : s.Inv) (hc : c ∈ (s.members p).connect_ips) :
    ∃ record t, (s.remove_node_from_list c).map (some ⟨.OPERATE_DEL, c⟩, ·) = some (record, t) ∧ t.Inv ∧
      (record = none → t = s) ∧ ∀ r ∈ record, s.recover_fabric_openstack_lbaas_members_list r = some t ∧
        t.recover_fabric_openstack_lbaas_members_list r = some t := by
  obtain ⟨t, ht, hinv, hrecover⟩ := h.recover_del hc
  refine ⟨some ⟨.OPERATE_DEL, c⟩, t, by rw [ht, Option.map_some], hinv, by simp, ?_⟩
  intro r hr
  obtain rfl := Option.some.inj hr
  exact hrecover

theorem Inv.serve (h : s.Inv) (event : LbaasEvent) :
    ∃ record t, s.serve event = some (record, t) ∧ t.Inv ∧ (record = none → t = s) ∧
      ∀ r ∈ record, s.recover_fabric_openstack_lbaas_members_list r = some t ∧
        t.recover_fabric_openstack_lbaas_members_list r = some t := by
  cases event with
  | create ext_ip inside_ip vip src_port_no =>
    have hidle (hcreate : s.create_openstack_lbaas_connect ext_ip inside_ip vip src_port_no = (0, s)) :
        s.serve (.create ext_ip inside_ip vip src_port_no) = some (none, s) := by
      simp [OpenstackLbaas.serve, hcreate]
    cases hp : s.find_openstack_lbaas_member_by_ip vip inside_ip with
    | none =>
      refine ⟨none, s, hidle ?_, h, fun _ => rfl, by simp⟩
      rw [create_openstack_lbaas_connect, find_openstack_lbass_connect_by_extip, hp]
      rfl
    | some p =>
      rcases (h p).create_cases hp [] with ⟨-, hcreate⟩ | ⟨⟨hnew, -, -⟩, k, hk, hwalk, hcreate⟩
      · exact ⟨none, s, hidle hcreate, h, fun _ => rfl, by simp⟩
      · have hport : LBAAS_CONNECT_PORT_MIN_VALUE ≤ k := hk.1.1
        have hpos : k ≠ 0 := by
          unfold LBAAS_CONNECT_PORT_MIN_VALUE at hport
          omega
        have hinv := h.granted (c := ⟨ext_ip, inside_ip, vip, src_port_no, k⟩) hp hnew ⟨hport, hk.1.2.1⟩ hwalk
        refine ⟨some ⟨.OPERATE_ADD, ⟨ext_ip, inside_ip, vip, src_port_no, k⟩⟩, _, ?_, hinv, by simp, ?_⟩
        · simp [OpenstackLbaas.serve, hcreate, hpos]
        · intro r hr
          obtain rfl := Option.some.inj hr
          constructor
          · rw [recover_fabric_openstack_lbaas_members_list]
            dsimp only
            rw [hcreate]
          · apply recover_add (p := p) _ (hinv p)
            change _ ∈ (Function.update s.members p _ p).connect_ips
            rw [Function.update_self]
            exact (HighestFree.place_perm (h p).descending (h p).below _).mem_iff.mpr List.mem_cons_self
  | remove ext_ip inside_ip vip src_port_no =>
    rw [OpenstackLbaas.serve]
    cases hfind : s.find_openstack_lbass_connect_by_extip ext_ip inside_ip vip src_port_no with
    | none => exact ⟨none, s, rfl, h, fun _ => rfl, by simp⟩
    | some c =>
      obtain ⟨p, -, hc⟩ := Option.bind_eq_some_iff.mp hfind
      exact h.serve_taken (List.mem_of_find?_eq_some hc)
  | timeout ext_ip src_port_no =>
    rw [OpenstackLbaas.serve]
    cases hfind : s.find_openstack_lbass_connect_by_extip_portno ext_ip src_port_no with
    | none => exact ⟨none, s, rfl, h, fun _ => rfl, by simp⟩
    | some c =>
      obtain ⟨p, -, hc⟩ := List.exists_of_findSome?_eq_some hfind
      exact h.serve_taken (List.mem_of_find?_eq_some hc)

end OpenstackLbaas

/-- A master and a slave with the database between them, which has one record of the connections and the number of the
last change of any kind. `trans_seq` is the number that a poll has read before it reads the record, `unread` the number
when the record was stored, until the slave reads it. -/
structure LbaasReplication where
  master : OpenstackLbaas
  slave : OpenstackLbaas
  stored : Option LbaasRecord
  TRANS_SEQ : ℕ
  g_trans_seq_slave : ℕ
  trans_seq : Option ℕ
  unread : Option ℕ

/-- `persist_data` stores the record with the change that it is of and counts `TRANS_SEQ` up in a step of its own, as it
does for records of other kinds. -/
inductive ReplicationEvent where
  | serve (event : LbaasEvent)
  | persist_value
  | query_trans_seq
  | recovery_data
  | query_failed
  deriving DecidableEq

namespace LbaasReplication

def start (s : OpenstackLbaas) : LbaasReplication where
  master := s
  slave := s
  stored := none
  TRANS_SEQ := 0
  g_trans_seq_slave := 0
  trans_seq := none
  unread := none

def step (r : LbaasReplication) : ReplicationEvent → Option LbaasReplication
  | .serve event => (r.master.serve event).map fun (record, master) =>
    match record with
    | some record => { r with master, stored := some record, unread := some r.TRANS_SEQ }
    | none => { r with master }
  | .persist_value => some { r with TRANS_SEQ := r.TRANS_SEQ + 1 }
  | .query_trans_seq =>
    if r.trans_seq = none then
      some (if r.TRANS_SEQ ≤ r.g_trans_seq_slave then r else { r with trans_seq := some r.TRANS_SEQ })
    else none
  | .recovery_data => r.trans_seq.bind fun trans_seq =>
    (r.stored.elim (some r.slave) r.slave.recover_fabric_openstack_lbaas_members_list).map fun slave =>
      { r with slave, g_trans_seq_slave := trans_seq, trans_seq := none, unread := none }
  | .query_failed => some { r with trans_seq := none }

/-- No record is stored over one that the slave has not read. -/
def Spaced (r : LbaasReplication) : ReplicationEvent → Prop
  | .serve event => r.unread ≠ none → (r.master.serve event).bind Prod.fst = none
  | _ => True

instance : ∀ (r : LbaasReplication) (event : ReplicationEvent), Decidable (r.Spaced event)
  | r, .serve event => inferInstanceAs (Decidable (r.unread ≠ none → (r.master.serve event).bind Prod.fst = none))
  | _, .persist_value => isTrue trivial
  | _, .query_trans_seq => isTrue trivial
  | _, .recovery_data => isTrue trivial
  | _, .query_failed => isTrue trivial

/-- The record, read now, makes the slave what the master is; read once more it changes nothing. -/
structure Inv (r : LbaasReplication) : Prop where
  master : r.master.Inv
  recovers : r.stored.elim (some r.slave) r.slave.recover_fabric_openstack_lbaas_members_list = some r.master
  again : r.stored.elim (some r.master) r.master.recover_fabric_openstack_lbaas_members_list = some r.master
  read : r.unread = none → r.slave = r.master
  seq_slave : r.g_trans_seq_slave ≤ r.TRANS_SEQ
  seq : ∀ n ∈ r.trans_seq, n ≤ r.TRANS_SEQ
  since : ∀ n ∈ r.unread, r.g_trans_seq_slave ≤ n

variable {r t : LbaasReplication} {event : ReplicationEvent}

theorem Inv.step (h : r.Inv) (hspaced : r.Spaced event) (ht : r.step event = some t) : t.Inv := by
  cases event with
  | serve event =>
    obtain ⟨record, master, hserve, hinv, hidle, hrecord⟩ := h.master.serve event
    rw [LbaasReplication.step, hserve] at ht
    obtain rfl := Option.some.inj ht
    cases record with
    | none =>
      obtain rfl := hidle rfl
      exact h
    | some record =>
      have hread : r.unread = none := by
        by_contra hne
        have hnone := hspaced hne
        rw [hserve] at hnone
        cases hnone
      obtain ⟨hrecover, hagain⟩ := hrecord record rfl
      refine ⟨hinv, ?_, hagain, by simp, h.seq_slave, h.seq, ?_⟩
      · change r.slave.recover_fabric_openstack_lbaas_members_list record = some master
        rw [h.read hread]
        exact hrecover
      · intro n hn
        obtain rfl := Option.some.inj hn
        exact h.seq_slave
  | persist_value =>
    obtain rfl := Option.some.inj ht
    refine ⟨h.master, h.recovers, h.again, h.read, h.seq_slave.trans (Nat.le_succ _), ?_, h.since⟩
    intro n hn
    exact (h.seq n hn).trans (Nat.le_succ _)
  | query_trans_seq =>
    rw [LbaasReplication.step] at ht
    split_ifs at ht
    · obtain rfl := Option.some.inj ht
      exact h
    · obtain rfl := Option.some.inj ht
      refine ⟨h.master, h.recovers, h.again, h.read, h.seq_slave, ?_, h.since⟩
      intro n hn
      obtain rfl := Option.some.inj hn
      exact le_rfl
  | recovery_data =>
    obtain ⟨n, hn, ht⟩ := Option.bind_eq_some_iff.mp ht
    rw [h.recovers] at ht
    obtain rfl := Option.some.inj ht
    exact ⟨h.master, h.again, h.again, fun _ => rfl, h.seq n hn, by simp, by simp⟩
  | query_failed =>
    obtain rfl := Option.some.inj ht
    exact ⟨h.master, h.recovers, h.again, h.read, h.seq_slave, by simp, h.since⟩

theorem start_inv {s : OpenstackLbaas} (h : s.Inv) : (start s).Inv :=
  ⟨h, rfl, rfl, fun _ => rfl, le_rfl, by simp [start], by simp [start]⟩

/-- A pool with two members, and memory for eight connections. -/
def smallLbaas : OpenstackLbaas where
  members p := ⟨1, .LBAAS_LISTENER_MEMBER_ACTIVE, if p = 0 then 10 else 11, 0, []⟩
  g_openstack_lbaas_members_list := [0, 1]
  g_openstack_lbaas_pools_list := [⟨[97], .LB_M_LEAST_CONNECTIONS, 100, 2, none, [0, 1]⟩]
  g_openstack_lbaas_connect_id := 8

/-- Two connections, of which the first is removed, each record with a poll of its own. -/
def threeRecords : List ReplicationEvent :=
  [.serve (.create 1 10 100 5000), .persist_value, .query_trans_seq, .recovery_data,
    .serve (.create 2 10 100 5000), .query_trans_seq, .persist_value, .query_trans_seq, .recovery_data,
    .serve (.timeout 1 5000), .persist_value, .query_trans_seq, .recovery_data]

end LbaasReplication

end DCFabric
