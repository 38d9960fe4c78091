import DCFabric.SyncTables
import DCFabric.TransitionRuns

namespace DCFabric

open TransitionRuns

def HOST_NORMAL : INT4 := 1
def HOST_ROUTER : INT4 := 2

/-- A host with the address of its switch, if it has one. -/
structure HostObject where
  host : CHost
  m_ptrSw : Option ℕ

structure CSubnet where
  id : List UINT1
  tenantId : List UINT1
  gateway : UINT4

/-- What `addHost` asks the other managers, and what `m_fixedip` is before it is set. -/
structure HostSurroundings where
  isL3ModeOn : Bool
  findSubnetByIp : UINT4 → Option CSubnet
  external : CSubnet → Bool
  fixedIpOfFloating : UINT4 → Option UINT4
  getSwitchByDpid : UINT8 → Option ℕ
  unsetFixedIp : UINT4

/-- The three forms of `addHost`. -/
inductive AddHost where
  | tracked (sw : Option ℕ) (portNo : UINT4) (mac : MacAddr) (ip : UINT4) (dpid : UINT8)
  | openstack (type : INT4) (mac : MacAddr) (ip : UINT4) (tenantId subnetId : List UINT1)
  | recovered (a : HostArgs)

/-- Where an `addHost` is: the next access to the list or to a host that it makes. -/
inductive AddHostPoint where
  | find
  | delete
  | insert (host : HostObject)
  | update (p : ℕ)
  | describe (p : ℕ)
  | returned

structure AddHostCall where
  form : AddHost
  point : AddHostPoint

/-- The host list of a `CHostMgr` with smart pointers by the address of their object. -/
structure SharedHosts where
  m_list : List ℕ
  hosts : ℕ → HostObject
  allocated : ℕ
  calls : List AddHostCall

inductive HostAction where
  | addHost (form : AddHost)
  | advance (k : ℕ)
  | delHostByMac (mac : MacAddr)

namespace AddHost

def mac : AddHost → MacAddr
  | tracked _ _ mac _ _ => mac
  | openstack _ mac _ _ _ => mac
  | recovered a => a.mac

variable (env : HostSurroundings)

/-- The form for tracked hosts returns before it looks for one. -/
def refused : AddHost → Bool
  | tracked _ _ _ ip _ =>
    match env.findSubnetByIp ip with
    | none => env.isL3ModeOn
    | some subnet => env.external subnet
  | _ => false

/-- The object that is created for a host that is not in the list. -/
def create : AddHost → HostObject
  | tracked sw portNo mac ip dpid => ⟨⟨HOST_NORMAL, dpid, portNo, mac, ip, [], [], [], none⟩, sw⟩
  | openstack type mac ip tenantId subnetId =>
    let fixedIp := if type = device_floatingip then some ((env.fixedIpOfFloating ip).getD env.unsetFixedIp) else none
    ⟨⟨type, 0, 0, mac, ip, [], subnetId, tenantId, fixedIp⟩, none⟩
  | recovered a => ⟨a.create, env.getSwitchByDpid a.dpid⟩

/-- What is set on the host that was found. -/
def update (old : HostObject) : AddHost → HostObject
  | tracked sw portNo _ _ dpid => ⟨{ old.host with m_iPortNo := portNo, m_iDpid := dpid }, sw⟩
  | openstack type _ ip tenantId subnetId =>
    ⟨{ ({ old.host with m_enType := type }.setfixIp ip) with m_strSubnetId := subnetId, m_strTenantId := tenantId },
      old.m_ptrSw⟩
  | recovered a => ⟨a.update old.host, env.getSwitchByDpid a.dpid⟩

/-- What is set on a tracked host of the L3 mode once it is in the list. -/
def describe (old : HostObject) : AddHost → HostObject
  | tracked _ _ _ ip _ =>
    match env.findSubnetByIp ip with
    | none => old
    | some subnet =>
      let host := { old.host with m_strSubnetId := subnet.id, m_strTenantId := subnet.tenantId }
      ⟨if ip = subnet.gateway then { host with m_enType := HOST_ROUTER } else host, old.m_ptrSw⟩
  | openstack .. | recovered _ => old

/-- Where the call goes on after `findHostByMac`. -/
def found (hosts : ℕ → HostObject) : AddHost → Option ℕ → AddHostPoint
  | form@(tracked _ _ _ ip _), none => if ip ≠ 0 then .insert (form.create env) else .returned
  | tracked .., some p => if (hosts p).m_ptrSw = none ∨ (hosts p).host.m_iPortNo = 0 then .update p else .returned
  | form@(openstack ..), none => .insert (form.create env)
  | openstack .., some p => .update p
  | form@(recovered _), none => .insert (form.create env)
  | recovered a, some p => if (hosts p).host.m_enType = a.type then .update p else .delete

/-- Whether the call goes on after it has put the host into the list. -/
def describes : AddHost → Bool
  | tracked .. => env.isL3ModeOn
  | _ => false

end AddHost

namespace SharedHosts

def start : SharedHosts := ⟨[], fun _ => ⟨⟨0, 0, 0, 0, 0, [], [], [], none⟩, none⟩, 0, []⟩

def mac (s : SharedHosts) (p : ℕ) : MacAddr := (s.hosts p).host.m_oMac

def findHostByMac (s : SharedHosts) (mac : MacAddr) : Option ℕ := s.m_list.find? fun p => s.mac p = mac

def delHostByMac (s : SharedHosts) (mac : MacAddr) : SharedHosts :=
  { s with m_list := s.m_list.eraseP fun p => s.mac p = mac }

def goto (s : SharedHosts) (k : ℕ) (call : AddHostCall) (point : AddHostPoint) : SharedHosts :=
  { s with calls := s.calls.set k { call with point } }

def assign (s : SharedHosts) (p : ℕ) (host : HostObject) : SharedHosts :=
  { s with hosts := Function.update s.hosts p host }

def pushBack (s : SharedHosts) (host : HostObject) : SharedHosts :=
  { s.assign s.allocated host with m_list := s.m_list ++ [s.allocated], allocated := s.allocated + 1 }

def advance (env : HostSurroundings) (s : SharedHosts) (k : ℕ) (call : AddHostCall) : Option SharedHosts :=
  match call.point with
  | .find =>
    if call.form.refused env then some (s.goto k call .returned)
    else some (s.goto k call (call.form.found env s.hosts (s.findHostByMac call.form.mac)))
  | .delete => some ((s.delHostByMac call.form.mac).goto k call (.insert (call.form.create env)))
  | .insert host =>
    some ((s.pushBack host).goto k call (if call.form.describes env then .describe s.allocated else .returned))
  | .update p => some ((s.assign p (call.form.update env (s.hosts p))).goto k call .returned)
  | .describe p => some ((s.assign p (call.form.describe env (s.hosts p))).goto k call .returned)
  | .returned => none

def step (env : HostSurroundings) (s : SharedHosts) : HostAction → Option SharedHosts
  | .addHost form => some { s with calls := s.calls ++ [⟨form, .find⟩] }
  | .advance k => s.calls[k]?.bind fun call => s.advance env k call
  | .delHostByMac mac => some (s.delHostByMac mac)

/-- No two hosts in the list have the same MAC address. -/
def Distinct (s : SharedHosts) : Prop := s.m_list.Pairwise fun p q => s.mac p ≠ s.mac q

/-- A host that is put into the list is not there yet. -/
def InsertsNew (s : SharedHosts) : HostAction → Prop
  | .advance k => ∀ call, s.calls[k]? = some call → ∀ host, call.point = .insert host →
    s.findHostByMac host.host.m_oMac = none
  | _ => True

/-- Every host in the list is an object that is allocated. -/
structure Inv (s : SharedHosts) : Prop where
  distinct : s.Distinct
  lt : ∀ p ∈ s.m_list, p < s.allocated

variable {env : HostSurroundings} {s s' : SharedHosts} {a : HostAction} {p k : ℕ} {host : HostObject}
  {call : AddHostCall}
  {form : AddHost}

theorem update_mac : (form.update env host).host.m_oMac = host.host.m_oMac := by
  obtain ⟨⟨type, dpid, port, mac, ip, moreIps, subnetId, tenantId, fixedIp⟩, sw⟩ := host
  cases form with
  | tracked => rfl
  | openstack => cases fixedIp <;> rfl
  | recovered a => exact HostArgs.update_mac _

theorem describe_mac : (form.describe env host).host.m_oMac = host.host.m_oMac := by
  cases form with
  | tracked sw portNo mac ip dpid =>
    rw [AddHost.describe]
    split
    · rfl
    · dsimp only
      split_ifs <;> rfl
  | openstack | recovered => rfl

theorem start_inv : start.Inv := ⟨.nil, nofun⟩

theorem Inv.delHostByMac (h : s.Inv) (mac : MacAddr) : (s.delHostByMac mac).Inv where
  distinct := h.distinct.sublist List.eraseP_sublist
  lt p hp := h.lt p (List.mem_of_mem_eraseP hp)

/-- An object changes and keeps its address. -/
theorem Inv.assign (h : s.Inv) (hmac : host.host.m_oMac = s.mac p) : (s.assign p host).Inv where
  distinct := by
    have hsame (q : ℕ) : (s.assign p host).mac q = s.mac q := by
      rw [SharedHosts.mac, SharedHosts.assign]
      dsimp only
      rw [Function.update_apply]
      split_ifs with hqp
      · rw [hmac, hqp]
      · rfl
    simp only [Distinct, hsame]
    exact h.distinct
  lt := h.lt

/-- The list stays without duplicates if and only if the host is new. -/
theorem Inv.pushBack_iff (host : HostObject) (h : s.Inv) :
    (s.findHostByMac host.host.m_oMac = none ↔ (s.pushBack host).Distinct) ∧
      ∀ p ∈ (s.pushBack host).m_list, p < s.allocated + 1 := by
  have hold (p : ℕ) (hp : p ∈ s.m_list) : (s.pushBack host).mac p = s.mac p := by
    rw [SharedHosts.mac, pushBack, SharedHosts.assign]
    dsimp only
    rw [Function.update_of_ne (h.lt p hp).ne, SharedHosts.mac]
  have hnew : (s.pushBack host).mac s.allocated = host.host.m_oMac := by
    rw [SharedHosts.mac, pushBack, SharedHosts.assign]
    dsimp only
    rw [Function.update_self]
  have hpairs : s.m_list.Pairwise fun p q => (s.pushBack host).mac p ≠ (s.pushBack host).mac q := by
    apply h.distinct.imp_of_mem
    intro p q hp hq hne
    rwa [hold p hp, hold q hq]
  constructor
  · rw [Distinct, findHostByMac, List.find?_eq_none]
    change _ ↔ (s.m_list ++ [s.allocated]).Pairwise _
    rw [List.pairwise_append]
    constructor
    · intro hnone
      refine ⟨hpairs, List.pairwise_singleton _ _, fun p hp q hq => ?_⟩
      obtain rfl := List.mem_singleton.mp hq
      rw [hold p hp, hnew]
      simpa using hnone p hp
    · rintro ⟨-, -, hall⟩ p hp
      have hne := hall p hp _ (List.mem_singleton.mpr rfl)
      rw [hold p hp, hnew] at hne
      simpa using hne
  · intro p hp
    rcases List.mem_append.mp hp with hp | hp
    · exact (h.lt p hp).trans (Nat.lt_succ_self _)
    · rw [List.mem_singleton.mp hp]
      exact Nat.lt_succ_self _

theorem Inv.goto {point : AddHostPoint} (h : s.Inv) : (s.goto k call point).Inv := ⟨h.distinct, h.lt⟩

/-- One step keeps the list without duplicates if and only if a host that it inserts is new. -/
theorem Inv.advance_iff (h : s.Inv) (he : s.advance env k call = some s') :
    ((∀ host, call.point = .insert host → s.findHostByMac host.host.m_oMac = none) ↔ s'.Distinct) ∧
      (s'.Distinct → s'.Inv) := by
  rw [advance] at he
  cases hpoint : call.point with
  | find =>
    simp only [hpoint] at he
    split_ifs at he
    all_goals
      obtain rfl := Option.some.inj he
      exact ⟨iff_of_true nofun h.distinct, fun _ => h.goto⟩
  | delete =>
    simp only [hpoint] at he
    obtain rfl := Option.some.inj he
    have hinv : ((s.delHostByMac call.form.mac).goto k call (.insert (call.form.create env))).Inv :=
      (h.delHostByMac call.form.mac).goto
    exact ⟨iff_of_true nofun hinv.distinct, fun _ => hinv⟩
  | insert host =>
    simp only [hpoint] at he
    obtain rfl := Option.some.inj he
    obtain ⟨hiff, hlt⟩ := h.pushBack_iff host
    refine ⟨Iff.trans ?_ hiff, fun hdistinct => ⟨hdistinct, hlt⟩⟩
    constructor
    · intro hall
      exact hall host rfl
    · rintro hnone host' ⟨⟩
      exact hnone
  | update p =>
    simp only [hpoint] at he
    obtain rfl := Option.some.inj he
    have hinv : (s.assign p (call.form.update env (s.hosts p))).Inv := h.assign update_mac
    exact ⟨iff_of_true nofun hinv.distinct, fun _ => hinv.goto⟩
  | describe p =>
    simp only [hpoint] at he
    obtain rfl := Option.some.inj he
    have hinv : (s.assign p (call.form.describe env (s.hosts p))).Inv := h.assign describe_mac
    exact ⟨iff_of_true nofun hinv.distinct, fun _ => hinv.goto⟩
  | returned =>
    simp only [hpoint] at he
    cases he

theorem Inv.step_iff (h : s.Inv) (he : s.step env a = some s') :
    (s.InsertsNew a ↔ s'.Distinct) ∧ (s'.Distinct → s'.Inv) := by
  cases a with
  | addHost form =>
    obtain rfl := Option.some.inj he
    exact ⟨iff_of_true trivial h.distinct, fun _ => ⟨h.distinct, h.lt⟩⟩
  | delHostByMac mac =>
    obtain rfl := Option.some.inj he
    exact ⟨iff_of_true trivial (h.delHostByMac mac).distinct, fun _ => h.delHostByMac mac⟩
  | advance k =>
    obtain ⟨call, hk, he⟩ := Option.bind_eq_some_iff.mp he
    obtain ⟨hiff, hinv⟩ := h.advance_iff he
    refine ⟨Iff.trans ?_ hiff, hinv⟩
    constructor
    · intro hnew
      exact hnew call hk
    · intro hnew call' hk'
      obtain rfl := Option.some.inj (hk.symm.trans hk')
      exact hnew

/-- No MAC address comes twice into the list as long as no call inserts a host that another has inserted since it
looked, and a step that does so brings it in twice. -/
theorem hosts_distinct (env : HostSurroundings) (h : Run (step env) InsertsNew start s) : s.Distinct ∧
    ∀ a s', s.step env a = some s' → (s.InsertsNew a ↔ s'.Distinct) := by
  have hinv : s.Inv := by
    apply h.invariant (P := Inv) _ start_inv
    intro t a u ht hnew he
    obtain ⟨hiff, hinv⟩ := ht.step_iff he
    exact hinv (hiff.mp hnew)
  exact ⟨hinv.distinct, fun a s' he => (hinv.step_iff he).1⟩

/-- No subnets, no floating addresses and no switches. -/
def bare : HostSurroundings := ⟨false, fun _ => none, fun _ => false, fun _ => none, fun _ => none, 0⟩

instance (s : SharedHosts) (a : HostAction) : Decidable (s.InsertsNew a) :=
  match a with
  | .advance k =>
    match hk : s.calls[k]? with
    | none => .isTrue (by simp [InsertsNew, hk])
    | some ⟨form, .insert host⟩ =>
      decidable_of_iff (s.findHostByMac host.host.m_oMac = none) (by simp [InsertsNew, hk])
    | some ⟨form, .find⟩ | some ⟨form, .delete⟩ | some ⟨form, .update _⟩ | some ⟨form, .describe _⟩
    | some ⟨form, .returned⟩ => .isTrue (by simp [InsertsNew, hk])
  | .addHost _ | .delHostByMac _ => .isTrue trivial

/-- A host is tracked, and recovered with another type. -/
def recoveredAgain : List HostAction :=
  [.addHost (.tracked none 1 0x11 0xa0000001 7), .advance 0, .advance 0,
    .addHost (.recovered ⟨device_floatingip, 0x11, 0xa0000001, [], 7, 1, [], [], 0⟩), .advance 1, .advance 1,
      .advance 1]

theorem recoveredAgain_distinct : ∃ s, exec (step bare) start recoveredAgain = some s ∧ s.m_list = [1] ∧ s.Distinct ∧
    ∀ a s', s.step bare a = some s' → (s.InsertsNew a ↔ s'.Distinct) :=
  ⟨_, rfl, rfl, hosts_distinct bare (Run.of_exec (show exec (guarded _ _) start recoveredAgain = some _ from rfl))⟩

/-- Both calls look for the host before either of them inserts it. -/
def race : List HostAction :=
  [.addHost (.tracked none 1 0x11 0xa0000001 7), .addHost (.tracked none 1 0x11 0xa0000001 7), .advance 0, .advance 1,
    .advance 0, .advance 1]

theorem race_not_distinct : ¬ ∀ env s, Reaches (step env) start s → s.Distinct := by
  intro h
  have hdistinct := h bare _ (Reaches.of_exec (show exec (step bare) start race = some _ from rfl))
  exact (List.pairwise_cons.mp hdistinct).1 1 List.mem_cons_self rfl

end SharedHosts

end DCFabric
