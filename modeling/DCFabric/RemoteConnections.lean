import DCFabric.BncTypes
import DCFabric.ListUpdates
import DCFabric.PairedEnds
import DCFabric.TransitionRuns

namespace DCFabric

open ListUpdates PairedEnds TransitionRuns

inductive cluster_controller_state where
  | CLUSTER_CONTROLLER_INIT
  | CLUSTER_CONTROLLER_CONNECTED
  | CLUSTER_CONTROLLER_NORESPONSE
  | CLUSTER_CONTROLLER_UNREACHABLE
  | CLUSTER_CONTROLLER_DISCONNECTED
  deriving DecidableEq

/-- The `sockfd` is the number of the connection that it is an end of, or `none` for -1. -/
structure cluster_controller_t where
  sockfd : Option ℕ
  ip : UINT4
  port : UINT2
  state : cluster_controller_state
  karetry : INT4
  deriving DecidableEq

/-- The entry with a new connection. -/
def cluster_controller_t.connected (controller : cluster_controller_t) (sockfd : ℕ) (port : UINT2) :
    cluster_controller_t :=
  { controller with
    sockfd := some sockfd
    port := port
    state := .CLUSTER_CONTROLLER_CONNECTED
    karetry := 0 }

def cluster_controller_t.disconnected (controller : cluster_controller_t) : cluster_controller_t :=
  { controller with sockfd := none, port := 0, state := .CLUSTER_CONTROLLER_DISCONNECTED, karetry := 0 }

/-- The addresses of two controllers, the ports they dial and their lists of controllers. -/
structure ClusterConf where
  ip : Party → UINT4
  m_port : Party → UINT2
  cluster_controller_list : Party → List UINT4

/-- The services of two controllers: the entries, the ends that are watched, the connections between the two and the
number of `connectRemote` calls that did not connect yet. -/
structure CClusterServices where
  m_controllers : Party → List cluster_controller_t
  m_recvWorker : Party → List ℕ
  conns : List Ends
  calls : Party → ℕ

inductive RemoteEvent where
  | connectRemote (x : Party)
  | connect (x : Party)
  | createRemote (x : Party) (c : ℕ)
  | remoteConnect (x : Party) (c : ℕ) (port : UINT2)
  | remoteDisconnect (x : Party) (c : ℕ)

namespace CClusterServices

def initControllers (controllers : List UINT4) : List cluster_controller_t :=
  controllers.map fun ip => ⟨none, ip, 0, .CLUSTER_CONTROLLER_INIT, 0⟩

def start (conf : ClusterConf) : CClusterServices where
  m_controllers x := initControllers (conf.cluster_controller_list x)
  m_recvWorker _ := []
  conns := []
  calls _ := 0

/-- The end in the entry for the address. -/
def sockfdOf (ip : UINT4) (controllers : List cluster_controller_t) : Option ℕ :=
  (controllers.find? fun controller => controller.ip = ip).bind (·.sockfd)

/-- The entries after `createRemote`. -/
def created (sockfd : ℕ) (ip : UINT4) (port : UINT2) (controllers : List cluster_controller_t) :
    List cluster_controller_t :=
  (updateFirst (fun controller => controller.ip = ip) (·.connected sockfd port) controllers).getD
    (controllers ++ [⟨some sockfd, ip, port, .CLUSTER_CONTROLLER_CONNECTED, 0⟩])

/-- The end of the entry is not watched any more and closed before the new one comes. -/
def createRemote (s : CClusterServices) (x : Party) (sockfd : ℕ) (ip : UINT4) (port : UINT2) : CClusterServices :=
  let old := sockfdOf ip (s.m_controllers x)
  { s with
    m_controllers := Function.update s.m_controllers x (created sockfd ip port (s.m_controllers x))
    m_recvWorker := Function.update s.m_recvWorker x ((s.m_recvWorker x).filter (some · ≠ old) ++ [sockfd])
    conns := setEnd (closeEnd s.conns x old) sockfd x .held }

/-- The entries after `remoteDisconnect`. -/
def disconnected (sockfd : ℕ) (controllers : List cluster_controller_t) : List cluster_controller_t :=
  (updateFirst (fun controller => controller.sockfd = some sockfd) (·.disconnected) controllers).getD controllers

/-- With its call of `connectRemote`, for the address of the entry. -/
def remoteDisconnect (s : CClusterServices) (x : Party) (sockfd : ℕ) : CClusterServices :=
  match (s.m_controllers x).find? fun controller => controller.sockfd = some sockfd with
  | some controller =>
    { m_controllers := Function.update s.m_controllers x (disconnected sockfd (s.m_controllers x))
      m_recvWorker := Function.update s.m_recvWorker x ((s.m_recvWorker x).filter (· ≠ sockfd))
      conns := setEnd s.conns sockfd x .closed
      calls := if controller.ip > 0 then Function.update s.calls x (s.calls x + 1) else s.calls }
  | none => { s with conns := setEnd s.conns sockfd x .closed }

/-- A call of `connectRemote` connects and calls `createRemote` in steps of their own. An end may be notified whose
other end is closed, while it is watched or when it was closed after the notification was fetched. -/
def step (conf : ClusterConf) (s : CClusterServices) : RemoteEvent → Option CClusterServices
  | .connectRemote x => some { s with calls := Function.update s.calls x (s.calls x + 1) }
  | .connect x =>
    if 0 < s.calls x then
      some { s with calls := Function.update s.calls x (s.calls x - 1), conns := dial s.conns x }
    else none
  | .createRemote x c =>
    if endOf s.conns c x = some .dialed then some (s.createRemote x c (conf.ip x.other) (conf.m_port x)) else none
  | .remoteConnect x c port =>
    if endOf s.conns c x = some .offered then some (s.createRemote x c (conf.ip x.other) port) else none
  | .remoteDisconnect x c =>
    if (c ∈ s.m_recvWorker x ∨ endOf s.conns c x = some .closed) ∧ endOf s.conns c x.other = some .closed then
      some (s.remoteDisconnect x c)
    else none

/-- Each controller's end in its entry for the other. -/
def sockfd (conf : ClusterConf) (s : CClusterServices) (x : Party) : Option ℕ :=
  sockfdOf (conf.ip x.other) (s.m_controllers x)

/-- No accept and no close notification is pending, and no call of `connectRemote` that connected has to call
`createRemote`. -/
structure Quiet (s : CClusterServices) : Prop where
  no_accept : ∀ c x, endOf s.conns c x ≠ some .offered
  no_close : ∀ x, ∀ c ∈ s.m_recvWorker x, endOf s.conns c x.other ≠ some .closed
  no_create : ∀ c x, endOf s.conns c x ≠ some .dialed

/-- The entries of the two controllers for each other have the two ends of one open connection, or none. -/
def Agree (conf : ClusterConf) (s : CClusterServices) : Prop :=
  (∃ c, ∀ x, s.sockfd conf x = some c ∧ endOf s.conns c x = some .held) ∨ ∀ x, s.sockfd conf x = none

def links (conf : ClusterConf) (s : CClusterServices) : Links := ⟨s.conns, s.sockfd conf⟩

/-- No entry but the one for the address has an end. -/
def Sole (ip : UINT4) (controllers : List cluster_controller_t) : Prop :=
  controllers.filterMap (·.sockfd) = (sockfdOf ip controllers).toList

section

variable {ip : UINT4} {l l₁ l₂ : List cluster_controller_t} {c : ℕ} {e : cluster_controller_t}

theorem sockfdOf_split (he : e.ip = ip) (h₁ : ∀ a ∈ l₁, a.ip ≠ ip) : sockfdOf ip (l₁ ++ e :: l₂) = e.sockfd := by
  rw [sockfdOf, List.find?_append, List.find?_eq_none.mpr (by simpa using h₁), Option.none_or,
    List.find?_cons_of_pos (by simpa using he)]
  rfl

theorem sole_split (he : e.ip = ip) (h₁ : ∀ a ∈ l₁, a.ip ≠ ip) :
    Sole ip (l₁ ++ e :: l₂) ↔ l₁.filterMap (·.sockfd) = [] ∧ l₂.filterMap (·.sockfd) = [] := by
  have hfm : (l₁ ++ e :: l₂).filterMap (·.sockfd) =
      l₁.filterMap (·.sockfd) ++ (e.sockfd.toList ++ l₂.filterMap (·.sockfd)) := by
    rw [List.filterMap_append, List.filterMap_cons]
    cases e.sockfd <;> rfl
  rw [Sole, hfm, sockfdOf_split he h₁]
  constructor
  · intro h
    have hlen := congrArg List.length h
    simp only [List.length_append] at hlen
    exact ⟨List.length_eq_zero_iff.mp (by omega), List.length_eq_zero_iff.mp (by omega)⟩
  · rintro ⟨h₁, h₂⟩
    rw [h₁, h₂, List.append_nil, List.nil_append]

theorem created_sole (h : Sole ip l) (port : UINT2) :
    Sole ip (created c ip port l) ∧ sockfdOf ip (created c ip port l) = some c := by
  rw [created]
  cases hu : updateFirst (fun controller => controller.ip = ip) (·.connected c port) l with
  | none =>
    have hne : ∀ a ∈ l, a.ip ≠ ip := by simpa using updateFirst_none.mp hu
    have hnone : sockfdOf ip l = none := by
      rw [sockfdOf, List.find?_eq_none.mpr (by simpa using hne)]
      rfl
    rw [Sole, hnone] at h
    exact ⟨(sole_split rfl hne).mpr ⟨h, rfl⟩, sockfdOf_split rfl hne⟩
  | some l' =>
    obtain ⟨l₁, e, l₂, rfl, rfl, he, hne⟩ := updateFirst_some hu
    have he : e.ip = ip := by simpa using he
    have hne : ∀ a ∈ l₁, a.ip ≠ ip := by simpa using hne
    have hrest := (sole_split he hne).mp h
    have hip : (e.connected c port).ip = ip := he
    exact ⟨(sole_split hip hne).mpr hrest, sockfdOf_split hip hne⟩

theorem disconnected_sole (h : Sole ip l) (hc : sockfdOf ip l = some c) :
    (∃ e, l.find? (fun e => e.sockfd = some c) = some e) ∧ Sole ip (disconnected c l) ∧
      sockfdOf ip (disconnected c l) = none := by
  obtain ⟨e, hfind, hsock⟩ := Option.bind_eq_some_iff.mp hc
  obtain ⟨l₁, l₂, rfl, he, hne⟩ : ∃ l₁ l₂, l = l₁ ++ e :: l₂ ∧ e.ip = ip ∧ ∀ a ∈ l₁, a.ip ≠ ip := by
    obtain ⟨he, l₁, l₂, hl, hne⟩ := List.find?_eq_some_iff_append.mp hfind
    exact ⟨l₁, l₂, hl, by simpa using he, by simpa using hne⟩
  have hrest := (sole_split he hne).mp h
  have hnone : ∀ a ∈ l₁, a.sockfd ≠ some c := by
    intro a ha hac
    have hmem : c ∈ l₁.filterMap (·.sockfd) := List.mem_filterMap.mpr ⟨a, ha, hac⟩
    rw [hrest.1] at hmem
    exact absurd hmem List.not_mem_nil
  have hip : e.disconnected.ip = ip := he
  refine ⟨⟨e, ?_⟩, ?_⟩
  · rw [List.find?_append, List.find?_eq_none.mpr (by simpa using hnone), Option.none_or,
      List.find?_cons_of_pos (by simpa using hsock)]
  · rw [disconnected, updateFirst_append_cons (by simpa using hnone) (by simpa using hsock), Option.getD_some]
    exact ⟨(sole_split hip hne).mpr hrest, sockfdOf_split hip hne⟩

theorem find?_of_ne (h : Sole ip l) (hc : sockfdOf ip l ≠ some c) : l.find? (fun e => e.sockfd = some c) = none := by
  apply List.find?_eq_none.mpr
  intro e he hec
  have hmem : c ∈ l.filterMap (·.sockfd) := List.mem_filterMap.mpr ⟨e, he, by simpa using hec⟩
  rw [h, Option.mem_toList] at hmem
  exact hc hmem

end

variable {conf : ClusterConf} {s s' : CClusterServices} {e : RemoteEvent} {x y : Party} {c d : ℕ}

/-- A controller's entries have one end at most, in the entry for the other controller, and it is the one watched. -/
structure Inv (conf : ClusterConf) (s : CClusterServices) : Prop where
  sole : ∀ x, Sole (conf.ip x.other) (s.m_controllers x)
  watched : ∀ x c, c ∈ s.m_recvWorker x ↔ s.sockfd conf x = some c

theorem start_inv : (start conf).Inv conf := by
  have hnone : ∀ x, (start conf).sockfd conf x = none := by
    intro x
    cases hf : (initControllers (conf.cluster_controller_list x)).find? fun e => e.ip = conf.ip x.other with
    | none => simp [sockfd, sockfdOf, start, hf]
    | some e =>
      obtain ⟨ip, -, rfl⟩ := List.mem_map.mp (List.mem_of_find?_eq_some hf)
      simp [sockfd, sockfdOf, start, hf]
  refine ⟨?_, ?_⟩
  · intro x
    rw [Sole]
    change List.filterMap _ _ = ((start conf).sockfd conf x).toList
    rw [hnone x]
    simp [start, initControllers]
  · intro x c
    rw [hnone x]
    simp [start]

theorem sockfd_createRemote (h : s.Inv conf) (port : UINT2) :
    (s.createRemote x c (conf.ip x.other) port).sockfd conf = Function.update (s.sockfd conf) x (some c) := by
  funext y
  by_cases hy : y = x
  · subst hy
    simp [sockfd, createRemote, (created_sole (h.sole y) port).2]
  · simp [sockfd, createRemote, hy]

theorem links_createRemote (h : s.Inv conf) (port : UINT2) :
    (s.createRemote x c (conf.ip x.other) port).links conf = (s.links conf).take x c := by
  rw [links, sockfd_createRemote h]
  rfl

theorem Inv.createRemote (h : s.Inv conf) (port : UINT2) :
    (s.createRemote x c (conf.ip x.other) port).Inv conf := by
  refine ⟨?_, ?_⟩
  · intro y
    by_cases hy : y = x
    · subst hy
      simpa [CClusterServices.createRemote] using (created_sole (h.sole y) port).1
    · simpa [CClusterServices.createRemote, hy] using h.sole y
  · intro y d
    rw [sockfd_createRemote h]
    by_cases hy : y = x
    · subst hy
      have hold : d ∈ s.m_recvWorker y → some d = sockfdOf (conf.ip y.other) (s.m_controllers y) :=
        fun hd => ((h.watched y d).mp hd).symm
      simp only [CClusterServices.createRemote, Function.update_self, List.mem_append, List.mem_filter,
        decide_eq_true_eq, List.mem_singleton, Option.some.injEq]
      constructor
      · rintro (⟨hd, hne⟩ | rfl)
        · exact absurd (hold hd) hne
        · rfl
      · rintro rfl
        exact .inr rfl
    · simpa [CClusterServices.createRemote, hy] using h.watched y d

theorem sockfd_remoteDisconnect (h : s.Inv conf) : (s.remoteDisconnect x c).sockfd conf =
    if s.sockfd conf x = some c then Function.update (s.sockfd conf) x none else s.sockfd conf := by
  funext y
  by_cases hc : s.sockfd conf x = some c
  · obtain ⟨⟨e, he⟩, -, hnone⟩ := disconnected_sole (h.sole x) hc
    rw [if_pos hc]
    by_cases hy : y = x
    · subst hy
      simp [sockfd, remoteDisconnect, he, hnone]
    · simp [sockfd, remoteDisconnect, he, hy]
  · have he := find?_of_ne (h.sole x) hc
    rw [if_neg hc]
    simp [sockfd, remoteDisconnect, he]

theorem conns_remoteDisconnect : (s.remoteDisconnect x c).conns = setEnd s.conns c x .closed := by
  rw [remoteDisconnect]
  split <;> rfl

theorem links_remoteDisconnect (h : s.Inv conf) :
    (s.remoteDisconnect x c).links conf = (s.links conf).drop x c := by
  rw [links, sockfd_remoteDisconnect h, conns_remoteDisconnect]
  rfl

theorem Inv.remoteDisconnect (h : s.Inv conf) : (s.remoteDisconnect x c).Inv conf := by
  by_cases hc : s.sockfd conf x = some c
  · obtain ⟨⟨e, he⟩, hsole, -⟩ := disconnected_sole (h.sole x) hc
    refine ⟨?_, ?_⟩
    · intro y
      by_cases hy : y = x
      · subst hy
        simpa [CClusterServices.remoteDisconnect, he] using hsole
      · simpa [CClusterServices.remoteDisconnect, he, hy] using h.sole y
    · intro y d
      rw [sockfd_remoteDisconnect h, if_pos hc]
      by_cases hy : y = x
      · subst hy
        have hold : d ∈ s.m_recvWorker y → d = c :=
          fun hd => Option.some.inj (((h.watched y d).mp hd).symm.trans hc)
        simpa [CClusterServices.remoteDisconnect, he] using hold
      · simpa [CClusterServices.remoteDisconnect, he, hy] using h.watched y d
  · have he := find?_of_ne (h.sole x) hc
    refine ⟨?_, ?_⟩
    · intro y
      simpa [CClusterServices.remoteDisconnect, he] using h.sole y
    · intro y d
      rw [sockfd_remoteDisconnect h, if_neg hc]
      simpa [CClusterServices.remoteDisconnect, he] using h.watched y d

/-- Every event is a step between the parties, or none of their business. -/
theorem step_simulates (h : s.Inv conf) (hk : (s.links conf).KeepsHeld) (he : step conf s e = some s') :
    s'.Inv conf ∧ (s'.links conf = s.links conf ∨ Links.Step (s.links conf) (s'.links conf)) := by
  cases e with
  | connectRemote x =>
    obtain rfl := Option.some.inj he
    exact ⟨⟨h.sole, h.watched⟩, .inl rfl⟩
  | connect x =>
    obtain ⟨-, hs⟩ := Option.ite_none_right_eq_some.mp he
    obtain rfl := Option.some.inj hs
    exact ⟨⟨h.sole, h.watched⟩, .inr (.dial (s.links conf) x)⟩
  | createRemote x c =>
    obtain ⟨hc, hs⟩ := Option.ite_none_right_eq_some.mp he
    obtain rfl := Option.some.inj hs
    refine ⟨h.createRemote _, .inr ?_⟩
    rw [links_createRemote h]
    exact .take (.inl hc)
  | remoteConnect x c port =>
    obtain ⟨hc, hs⟩ := Option.ite_none_right_eq_some.mp he
    obtain rfl := Option.some.inj hs
    refine ⟨h.createRemote _, .inr ?_⟩
    rw [links_createRemote h]
    exact .take (.inr hc)
  | remoteDisconnect x c =>
    obtain ⟨⟨hwc, hclosed⟩, hs⟩ := Option.ite_none_right_eq_some.mp he
    obtain rfl := Option.some.inj hs
    refine ⟨h.remoteDisconnect, .inr ?_⟩
    rw [links_remoteDisconnect h]
    exact .drop (hwc.imp (fun hw => (hk x c).mp ((h.watched x c).mp hw)) id) hclosed

theorem start_keepsHeld : ((start conf).links conf).KeepsHeld := by
  intro x c
  have hnone : c ∉ (start conf).m_recvWorker x := List.not_mem_nil
  rw [start_inv.watched] at hnone
  constructor
  · intro hk
    exact absurd hk hnone
  · intro hheld
    cases hheld

theorem Quiet.links (h : s.Inv conf) (hk : (s.links conf).KeepsHeld) (hq : s.Quiet) : (s.links conf).Quiet where
  not_dialed := hq.no_create
  not_offered := hq.no_accept
  not_closed c x hheld := hq.no_close x c ((h.watched x c).mpr ((hk x c).mpr hheld))

theorem quiet_of_entered (h : ∀ ends ∈ s.conns, ∀ x, ends x ≠ .offered ∧ ends x ≠ .dialed)
    (hclose : ∀ x, ∀ c ∈ s.m_recvWorker x, endOf s.conns c x.other ≠ some .closed) : s.Quiet where
  no_accept c x hend := by
    obtain ⟨ends, hends, hx⟩ := exists_of_endOf hend
    exact (h ends hends x).1 hx
  no_close := hclose
  no_create c x hend := by
    obtain ⟨ends, hends, hx⟩ := exists_of_endOf hend
    exact (h ends hends x).2 hx

def twoControllers : ClusterConf where
  ip x := if x = .left then 0x0a000001 else 0x0a000002
  m_port _ := 55555
  cluster_controller_list _ := [0x0a000001, 0x0a000002]

/-- Both dial, each keeps the end that the other closes, and both dial again. -/
def crossing : List RemoteEvent :=
  [.connectRemote .left, .connectRemote .right, .connect .left, .connect .right, .createRemote .left 0,
    .createRemote .right 1, .remoteConnect .right 0 40000, .remoteConnect .left 1 40001, .remoteDisconnect .left 1,
    .remoteDisconnect .right 0, .connect .left, .createRemote .left 2, .remoteConnect .right 2 40002, .connect .right,
    .createRemote .right 3, .remoteConnect .left 3 40003]

end CClusterServices

end DCFabric
