import DCFabric.ElectionMutex

namespace DCFabric

open TransitionRuns

/-- Controllers, named by their IPs, with a working connection between any two of them. -/
structure Cluster where
  ips : Finset UINT4
  remotes : UINT4 → List ClusterController
  known : ∀ i ∈ ips, ∀ r ∈ remotes i, r.ip ∈ ips
  connected : ∀ i ∈ ips, ∀ r ∈ remotes i, r.ip ≠ i → r.state = .connected
  complete : ∀ i ∈ ips, ∀ j ∈ ips, j ≠ i → ∃ r ∈ remotes i, r.ip = j
  sockets : ∀ i ∈ ips, ((remotes i).map ClusterController.sockfd).Nodup

structure Envelope where
  src : UINT4
  dst : UINT4
  itf : ClusterInterface
deriving DecidableEq

structure Network where
  nodes : UINT4 → CClusterElection
  net : List Envelope

inductive NetworkAction where
  | start (i : UINT4)
  | deliver (k : ℕ)
  | fire (i : UINT4)
deriving DecidableEq

def ClusterService.toAll (svc : ClusterService) (itf : ClusterInterface) : List (INT4 × ClusterInterface) :=
  svc.audience.map (fun r => (r.sockfd, itf))

def Network.initial : Network := { nodes := fun _ => CClusterElection.new, net := [] }

def Network.set (s : Network) (i : UINT4) (e : CClusterElection) : Network :=
  { s with nodes := Function.update s.nodes i { e with sent := [] } }

namespace Cluster

def service (c : Cluster) (i : UINT4) : ClusterService :=
  { controllerIp := i, controllers := c.remotes i, sendOk := fun _ => true }

def sockfdOf (c : Cluster) (i j : UINT4) : INT4 :=
  (((c.remotes i).find? (fun r => r.ip = j)).map ClusterController.sockfd).getD (-1)

def route (c : Cluster) (i : UINT4) (out : INT4 × ClusterInterface) : Envelope :=
  { src := i, dst := (c.service i).remoteIp out.1, itf := out.2 }

def act (c : Cluster) (s : Network) (i : UINT4) (call : ElectionCall) : Option Network :=
  match call.run (c.service i) (s.nodes i) with
  | .error _ => none
  | .ok e => some { s.set i e with net := s.net ++ e.sent.map (c.route i) }

def step (c : Cluster) (s : Network) : NetworkAction → Option Network
  | .start i => if i ∈ c.ips then c.act s i .start else none
  | .deliver k =>
    match s.net[k]? with
    | none => none
    | some env =>
      c.act { s with net := s.net.eraseIdx k } env.dst (.message (c.sockfdOf env.dst env.src) env.itf)
  | .fire i =>
    if i ∈ c.ips ∧ (s.nodes i).m_timer then
      c.act (s.set i { s.nodes i with m_timer := false }) i .terminate
    else
      none

def Largest (c : Cluster) (m : UINT4) : Prop := m ∈ c.ips ∧ ∀ i ∈ c.ips, i ≤ m

def broadcast (c : Cluster) (i : UINT4) (itf : ClusterInterface) : List Envelope :=
  ((c.remotes i).filter (fun r => i ≠ r.ip)).map (fun r => { src := i, dst := r.ip, itf })

variable {c : Cluster} {i j m : UINT4} {itf : ClusterInterface} {env : Envelope}

theorem mem_broadcast (hi : i ∈ c.ips) :
    env ∈ c.broadcast i itf ↔ env.src = i ∧ env.dst ∈ c.ips ∧ env.dst ≠ i ∧ env.itf = itf := by
  simp only [broadcast, List.mem_map, List.mem_filter, decide_eq_true_eq]
  constructor
  · rintro ⟨r, ⟨hr, hne⟩, rfl⟩
    exact ⟨rfl, c.known i hi r hr, Ne.symm hne, rfl⟩
  · rintro ⟨rfl, hd, hne, rfl⟩
    obtain ⟨r, hr, he⟩ := c.complete env.src hi env.dst hd hne
    exact ⟨r, ⟨hr, he ▸ hne.symm⟩, by rw [he]⟩

theorem remoteIp_sockfd (hi : i ∈ c.ips) {r : ClusterController} (hr : r ∈ c.remotes i) :
    (c.service i).remoteIp r.sockfd = r.ip := by
  rw [ClusterService.remoteIp, service]
  cases hf : (c.remotes i).find? (fun controller => controller.sockfd = r.sockfd) with
  | none => exact absurd (decide_eq_true rfl) (List.find?_eq_none.1 hf r hr)
  | some r' =>
    have hs : r'.sockfd = r.sockfd := by simpa using List.find?_some hf
    rw [List.inj_on_of_nodup_map (c.sockets i hi) (List.mem_of_find?_eq_some hf) hr hs]
    rfl

theorem exists_largest (hi : i ∈ c.ips) : ∃ m, c.Largest m := by
  obtain ⟨m, hm, hmax⟩ := Finset.exists_max_image c.ips UInt32.toNat ⟨i, hi⟩
  exact ⟨m, hm, fun j hj => UInt32.le_iff_toNat_le.2 (hmax j hj)⟩

theorem Largest.unique {m' : UINT4} (h : c.Largest m) (h' : c.Largest m') : m = m' := by
  have h1 := h.2 m' h'.1
  have h2 := h'.2 m h.1
  exact UInt32.le_antisymm h2 h1

theorem audience_eq (hi : i ∈ c.ips) :
    (c.service i).audience = (c.remotes i).filter (fun r => i ≠ r.ip) := by
  apply List.filter_congr
  intro r hr
  rw [decide_eq_decide]
  constructor
  · exact fun h => h.1
  · exact fun h => ⟨h, Or.inl (c.connected i hi r hr h.symm)⟩

theorem route_toAll (hi : i ∈ c.ips) : ((c.service i).toAll itf).map (c.route i) = c.broadcast i itf := by
  rw [ClusterService.toAll, audience_eq hi, List.map_map, broadcast]
  apply List.map_congr_left
  intro r hr
  rw [Function.comp_apply, route, remoteIp_sockfd hi (List.mem_filter.1 hr).1]

def highest (rs : List ClusterController) (i p : UINT4) : UINT4 :=
  rs.foldl (fun proposal r => if i ≠ r.ip ∧ proposal < r.ip then r.ip else proposal) p

theorem generateProposal0_eq (hi : i ∈ c.ips) : (c.service i).generateProposal0 = highest (c.remotes i) i 0 := by
  rw [ClusterService.generateProposal0, highest]
  apply List.foldl_ext
  intro p r hr
  have hc := c.connected i hi r hr
  by_cases hne : i = r.ip
  · simp [hne, service]
  · simp [hne, service, hc (Ne.symm hne), ClusterService.checkRemoteDisconnected]

theorem highest_le {rs : List ClusterController} {p : UINT4} (hp : p ≤ m)
    (hr : ∀ r ∈ rs, r.ip ≤ m) : highest rs i p ≤ m := by
  induction rs generalizing p with
  | nil => exact hp
  | cons r rs ih =>
    obtain ⟨hr, hrs⟩ := List.forall_mem_cons.1 hr
    rw [highest, List.foldl_cons, ← highest]
    split
    · exact ih hr hrs
    · exact ih hp hrs

theorem le_highest {rs : List ClusterController} (p : UINT4) : p ≤ highest rs i p := by
  induction rs generalizing p with
  | nil => exact UInt32.le_refl p
  | cons r rs ih =>
    rw [highest, List.foldl_cons, ← highest]
    split
    · next h => exact UInt32.le_trans (UInt32.le_of_lt h.2) (ih r.ip)
    · exact ih p

theorem ip_le_highest {rs : List ClusterController} {p : UINT4} {r : ClusterController} (hr : r ∈ rs)
    (hne : i ≠ r.ip) : r.ip ≤ highest rs i p := by
  induction rs generalizing p with
  | nil => cases hr
  | cons r' rs ih =>
    rw [highest, List.foldl_cons, ← highest]
    rcases List.mem_cons.1 hr with rfl | hr
    · split
      · exact le_highest r.ip
      · next h => exact UInt32.le_trans (UInt32.not_lt.1 (fun hlt => h ⟨hne, hlt⟩)) (le_highest p)
    · exact ih hr

theorem generateProposal0_le (hm : c.Largest m) (hi : i ∈ c.ips) : (c.service i).generateProposal0 ≤ m := by
  rw [generateProposal0_eq hi]
  exact highest_le (UInt32.le_iff_toNat_le.2 (Nat.zero_le _)) (fun r hr => hm.2 r.ip (c.known i hi r hr))

theorem le_generateProposal0 (hi : i ∈ c.ips) (hj : j ∈ c.ips) (hne : j ≠ i) :
    j ≤ (c.service i).generateProposal0 := by
  obtain ⟨r, hr, rfl⟩ := c.complete i hi j hj hne
  rw [generateProposal0_eq hi]
  exact ip_le_highest hr hne.symm

theorem generateProposal_eq (hm : c.Largest m) (hi : i ∈ c.ips) : (c.service i).generateProposal = m := by
  have hle := generateProposal0_le hm hi
  have hown : (c.service i).controllerIp = i := rfl
  rw [ClusterService.generateProposal, hown]
  split
  · next h =>
    apply UInt32.le_antisymm (hm.2 i hi)
    by_cases hne : m = i
    · exact hne ▸ UInt32.le_refl _
    · exact UInt32.le_trans (le_generateProposal0 hi hm.1 hne) (UInt32.le_of_lt h)
  · next h =>
    apply UInt32.le_antisymm hle
    by_cases hne : m = i
    · rw [hne]
      exact UInt32.not_lt.1 h
    · exact le_generateProposal0 hi hm.1 hne

theorem alone_largest (hm : c.Largest m) (hi : i ∈ c.ips) (h0 : ¬0 < (c.service i).generateProposal0) : i = m := by
  by_contra hne
  have hle := le_generateProposal0 hi hm.1 (Ne.symm hne)
  have hpos := hm.2 i hi
  have hz : m ≤ 0 := UInt32.le_trans hle (UInt32.not_lt.1 h0)
  apply hne
  apply UInt32.le_antisymm hpos
  exact UInt32.le_trans hz (UInt32.le_iff_toNat_le.2 (Nat.zero_le _))

end Cluster

namespace CClusterElection

variable {e : CClusterElection} {svc : ClusterService} {itf : ClusterInterface} {m : UINT4}

theorem updateRole_eq (role : ControllerRole) : e.updateRole role = { e with m_controllerRole := role } := by
  rw [updateRole]
  split
  · next h => rw [h]
  · rfl

theorem finish_eq : e.finish svc m =
    { e with m_masterIp := m, m_state := .finished, m_controllerRole := svc.roleFor m } := updateRole_eq _

theorem foldl_send (hsend : ∀ fd, svc.sendOk fd = true) (rs : List ClusterController)
    (send : CClusterElection → INT4 → CClusterElection) (itf : ClusterInterface)
    (hs : ∀ sent fd, send { e with sent := sent } fd = { e with sent := sent }.sendMsgOut svc fd itf) :
    rs.foldl (fun e r => send e r.sockfd) e = { e with sent := e.sent ++ rs.map (fun r => (r.sockfd, itf)) } := by
  have hall : ∀ sent, rs.foldl (fun e r => send e r.sockfd) { e with sent := sent } =
      { e with sent := sent ++ rs.map (fun r => (r.sockfd, itf)) } := by
    induction rs with
    | nil =>
      intro sent
      rw [List.map_nil, List.append_nil, List.foldl_nil]
    | cons r rs ih =>
      intro sent
      rw [List.foldl_cons, hs, sendMsgOut, if_pos (hsend r.sockfd), ih, List.map_cons, List.append_assoc,
        List.singleton_append]
  exact hall e.sent

theorem broadcastProposal_eq (hsend : ∀ fd, svc.sendOk fd = true) : e.broadcastProposal svc m =
    { e with sent := e.sent ++ svc.toAll (.election .electionProposal m) } := by
  apply foldl_send hsend svc.audience (fun e fd => e.sendProposal svc fd m)
  intro sent fd
  rfl

theorem broadcastNotify_eq (hsend : ∀ fd, svc.sendOk fd = true) : e.broadcastNotify svc =
    { e with sent := e.sent ++ svc.toAll (.election .electionNotify e.m_masterIp) } := by
  apply foldl_send hsend svc.audience (fun e fd => e.sendNotify svc fd)
  intro sent fd
  rfl

theorem broadcastInform_eq (hsend : ∀ fd, svc.sendOk fd = true) : e.broadcastInform svc =
    { e with sent := e.sent ++ svc.toAll (.election .electionInform e.m_masterIp) } := by
  apply foldl_send hsend svc.audience (fun e fd => e.sendInform svc fd)
  intro sent fd
  rfl

theorem election_valid (op : ClusterOper) (m : UINT4) : ¬((ClusterInterface.election op m).operation ≠ op ∨
    (ClusterInterface.election op m).length < 4) := by
  rintro (h | h)
  · exact h rfl
  · exact absurd h (by decide : ¬(4 : INT4) < 4)

theorem election_word0 (op : ClusterOper) (m : UINT4) : (ClusterInterface.election op m).word0 = m := rfl

theorem start_eq (hsend : ∀ fd, svc.sendOk fd = true) (he : e.m_mutex = false) (hp : 0 < svc.generateProposal0) :
    e.start svc = .ok { e with
      m_masterIp := svc.generateProposal, m_state := .start, m_timer := true,
      sent := e.sent ++ svc.toAll (.election .electionProposal svc.generateProposal) } := by
  obtain ⟨state, masterIp, timer, mutex, role, sent⟩ := e
  obtain rfl : mutex = false := he
  rw [start, lock_free rfl]
  simp only [bind, Except.bind, if_pos hp]
  rw [broadcastProposal_eq hsend]
  rfl

theorem start_alone (he : e.m_mutex = false) (hp : ¬0 < svc.generateProposal0) :
    e.start svc = .ok { e with
      m_masterIp := svc.controllerIp, m_state := .finished, m_timer := false, m_controllerRole := .master } := by
  obtain ⟨state, masterIp, timer, mutex, role, sent⟩ := e
  obtain rfl : mutex = false := he
  rw [start, lock_free rfl]
  simp only [bind, Except.bind, if_neg hp, updateRole_eq]
  rfl

theorem terminate_eq (hsend : ∀ fd, svc.sendOk fd = true) (he : e.m_mutex = false) (hm : e.m_masterIp = m)
    (hf : e.m_state ≠ .finished) :
    e.terminate svc = .ok { e with
      m_state := .finished, m_controllerRole := svc.roleFor m,
      sent := e.sent ++ svc.toAll (.election .electionNotify m) } := by
  obtain ⟨state, masterIp, timer, mutex, role, sent⟩ := e
  obtain rfl : mutex = false := he
  obtain rfl : masterIp = m := hm
  rw [terminate, lock_free rfl]
  simp only [bind, Except.bind]
  rw [if_pos hf, finish_eq, broadcastNotify_eq hsend]
  rfl

theorem terminate_finished (svc : ClusterService) (he : e.m_mutex = false) (hf : e.m_state = .finished) :
    e.terminate svc = .ok e := by
  obtain ⟨state, masterIp, timer, mutex, role, sent⟩ := e
  obtain rfl : mutex = false := he
  obtain rfl : state = .finished := hf
  rfl

theorem notify_eq (hsend : ∀ fd, svc.sendOk fd = true) (he : e.m_mutex = false) (hf : e.m_state ≠ .finished) :
    e.processNotify svc (.election .electionNotify m) = .ok (BNC_OK, { e with
      m_masterIp := m, m_state := .finished, m_timer := false, m_controllerRole := svc.roleFor m,
      sent := e.sent ++ svc.toAll (.election .electionInform m) }) := by
  obtain ⟨state, masterIp, timer, mutex, role, sent⟩ := e
  obtain rfl : mutex = false := he
  rw [processNotify, if_neg (election_valid _ m), lock_free rfl]
  simp only [bind, Except.bind]
  rw [if_pos hf, finish_eq, broadcastInform_eq hsend]
  rfl

theorem notify_finished (svc : ClusterService) (he : e.m_mutex = false) (hf : e.m_state = .finished) :
    e.processNotify svc (.election .electionNotify m) = .ok (BNC_OK, { e with m_timer := false }) := by
  obtain ⟨state, masterIp, timer, mutex, role, sent⟩ := e
  obtain rfl : mutex = false := he
  obtain rfl : state = .finished := hf
  rw [processNotify, if_neg (election_valid _ m), lock_free rfl]
  rfl

theorem inform_eq (svc : ClusterService) (he : e.m_mutex = false) (hm : e.m_masterIp ≠ m) :
    e.processInform svc (.election .electionInform m) = .ok (BNC_OK, { e with
      m_masterIp := m, m_state := .finished, m_controllerRole := svc.roleFor m }) := by
  obtain ⟨state, masterIp, timer, mutex, role, sent⟩ := e
  obtain rfl : mutex = false := he
  rw [processInform, if_neg (election_valid _ m), lock_free rfl]
  replace hm : masterIp ≠ m := hm
  simp only [bind, Except.bind]
  rw [election_word0, if_pos hm, finish_eq]
  rfl

theorem inform_known (svc : ClusterService) (he : e.m_mutex = false) (hm : e.m_masterIp = m) :
    e.processInform svc (.election .electionInform m) = .ok (BNC_OK, e) := by
  obtain ⟨state, masterIp, timer, mutex, role, sent⟩ := e
  obtain rfl : mutex = false := he
  rw [processInform, if_neg (election_valid _ m), lock_free rfl]
  obtain rfl : masterIp = m := hm
  simp only [bind, Except.bind]
  rw [election_word0, if_neg (fun h => h rfl)]
  rfl

theorem proposal_eq (he : e.m_mutex = false) (sockfd : INT4) :
    e.processProposal svc sockfd (.election .electionProposal m) =
      .ok (BNC_OK, ({ e with m_mutex := true }.proposalBody svc sockfd m).unlock) := by
  rw [processProposal, if_neg (election_valid _ m), lock_free he]
  rfl

theorem proposal_join (he : e.m_mutex = false) (sockfd : INT4) (hp : svc.generateProposal = m)
    (hs : e.m_state = .init ∨ e.m_state = .finished) :
    e.processProposal svc sockfd (.election .electionProposal m) =
      .ok (BNC_OK, { e with m_masterIp := m, m_state := .ongoing }) := by
  obtain ⟨state, masterIp, timer, mutex, role, sent⟩ := e
  obtain rfl : mutex = false := he
  have hlt : ¬m < m := UInt32.lt_irrefl m
  rw [proposal_eq rfl]
  rcases hs with hs | hs
  · obtain rfl : state = .init := hs
    simp only [proposalBody, joinElection, hp, if_neg hlt, unlock]
  · obtain rfl : state = .finished := hs
    simp only [proposalBody, joinElection, hp, if_neg hlt, unlock]

theorem proposal_same (svc : ClusterService) (he : e.m_mutex = false) (sockfd : INT4) (hm : e.m_masterIp = m)
    (hs : e.m_state = .start ∨ e.m_state = .ongoing) :
    e.processProposal svc sockfd (.election .electionProposal m) = .ok (BNC_OK, e) := by
  obtain ⟨state, masterIp, timer, mutex, role, sent⟩ := e
  obtain rfl : mutex = false := he
  obtain rfl : masterIp = m := hm
  have hlt : ¬masterIp < masterIp := UInt32.lt_irrefl masterIp
  rw [proposal_eq rfl]
  rcases hs with hs | hs
  · obtain rfl : state = .start := hs
    simp only [proposalBody, if_neg hlt, unlock]
  · obtain rfl : state = .ongoing := hs
    simp only [proposalBody, if_neg hlt, unlock]

end CClusterElection

end DCFabric
