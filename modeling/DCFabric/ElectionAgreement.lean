import DCFabric.ElectionNetwork

namespace DCFabric

open TransitionRuns

structure CClusterElection.Agreed (i m : UINT4) (e : CClusterElection) : Prop where
  free : e.m_mutex = false
  unsent : e.sent = []
  armed : e.m_timer = true → e.m_state ≠ .init
  proposed : e.m_state ≠ .init → e.m_masterIp = m
  unwatching : e.m_state ≠ .watching
  elected : e.m_state = .finished → (e.m_controllerRole = .master ↔ i = m)
  sole : e.m_controllerRole = .master → i = m

structure Envelope.Agreed (c : Cluster) (m : UINT4) (env : Envelope) : Prop where
  src : env.src ∈ c.ips
  dst : env.dst ∈ c.ips
  itf : ∃ op, (op = .electionProposal ∨ op = .electionNotify ∨ op = .electionInform) ∧ env.itf = .election op m

structure Network.Agreed (c : Cluster) (m : UINT4) (s : Network) : Prop where
  nodes : ∀ i, (s.nodes i).Agreed i m
  net : ∀ env ∈ s.net, env.Agreed c m

def Network.put (s : Network) (i : UINT4) (e : CClusterElection) (net : List Envelope) : Network :=
  { nodes := Function.update s.nodes i { e with sent := [] }, net }

def Cluster.proposals (c : Cluster) (m i : UINT4) : List Envelope := c.broadcast i (.election .electionProposal m)

def Cluster.notifies (c : Cluster) (m i : UINT4) : List Envelope := c.broadcast i (.election .electionNotify m)

def Cluster.informs (c : Cluster) (m i : UINT4) : List Envelope := c.broadcast i (.election .electionInform m)

/-- What one step does once every controller that has been in an election proposes `m`, the largest IP. -/
inductive Cluster.Move (c : Cluster) (m : UINT4) (s : Network) : NetworkAction → Network → Prop
  | start {i : UINT4} (hi : i ∈ c.ips) (hp : 0 < (c.service i).generateProposal0) :
      Move c m s (.start i) (s.put i { s.nodes i with m_masterIp := m, m_state := .start, m_timer := true }
        (s.net ++ c.proposals m i))
  | alone {i : UINT4} (hi : i ∈ c.ips) (hp : ¬0 < (c.service i).generateProposal0) (hm : i = m) :
      Move c m s (.start i) (s.put i { s.nodes i with
        m_masterIp := m, m_state := .finished, m_timer := false, m_controllerRole := .master } s.net)
  | fire {i : UINT4} (hi : i ∈ c.ips) (ht : (s.nodes i).m_timer = true) (hf : (s.nodes i).m_state ≠ .finished) :
      Move c m s (.fire i) (s.put i { s.nodes i with
        m_state := .finished, m_timer := false, m_controllerRole := (c.service i).roleFor m }
        (s.net ++ c.notifies m i))
  | stale {i : UINT4} (hi : i ∈ c.ips) (ht : (s.nodes i).m_timer = true) (hf : (s.nodes i).m_state = .finished) :
      Move c m s (.fire i) (s.put i { s.nodes i with m_timer := false } s.net)
  | join {k : ℕ} {j i : UINT4} (hk : s.net[k]? = some ⟨j, i, .election .electionProposal m⟩)
      (hs : (s.nodes i).m_state = .init ∨ (s.nodes i).m_state = .finished) :
      Move c m s (.deliver k) (s.put i { s.nodes i with m_masterIp := m, m_state := .ongoing } (s.net.eraseIdx k))
  | proposal {k : ℕ} {j i : UINT4} (hk : s.net[k]? = some ⟨j, i, .election .electionProposal m⟩)
      (hs : (s.nodes i).m_state = .start ∨ (s.nodes i).m_state = .ongoing) :
      Move c m s (.deliver k) (s.put i (s.nodes i) (s.net.eraseIdx k))
  | notify {k : ℕ} {j i : UINT4} (hi : i ∈ c.ips) (hk : s.net[k]? = some ⟨j, i, .election .electionNotify m⟩)
      (hf : (s.nodes i).m_state ≠ .finished) :
      Move c m s (.deliver k) (s.put i { s.nodes i with
        m_masterIp := m, m_state := .finished, m_timer := false, m_controllerRole := (c.service i).roleFor m }
        (s.net.eraseIdx k ++ c.informs m i))
  | notified {k : ℕ} {j i : UINT4} (hk : s.net[k]? = some ⟨j, i, .election .electionNotify m⟩)
      (hf : (s.nodes i).m_state = .finished) :
      Move c m s (.deliver k) (s.put i { s.nodes i with m_timer := false } (s.net.eraseIdx k))
  | inform {k : ℕ} {j i : UINT4} (hk : s.net[k]? = some ⟨j, i, .election .electionInform m⟩)
      (hm : (s.nodes i).m_masterIp ≠ m) :
      Move c m s (.deliver k) (s.put i { s.nodes i with
        m_masterIp := m, m_state := .finished, m_controllerRole := (c.service i).roleFor m } (s.net.eraseIdx k))
  | informed {k : ℕ} {j i : UINT4} (hk : s.net[k]? = some ⟨j, i, .election .electionInform m⟩)
      (hm : (s.nodes i).m_masterIp = m) :
      Move c m s (.deliver k) (s.put i (s.nodes i) (s.net.eraseIdx k))

namespace Cluster

variable {c : Cluster} {s s' : Network} {a : NetworkAction} {i j m : UINT4} {env : Envelope}

theorem service_sends (c : Cluster) (i : UINT4) (fd : INT4) : (c.service i).sendOk fd = true := rfl

theorem roleFor_master : (c.service i).roleFor m = .master ↔ i = m := by
  rw [ClusterService.roleFor]
  split
  · next h => simp [show m = i from h]
  · next h => simp [show i ≠ m from fun hm => h hm.symm]

theorem put_nodes_self (e : CClusterElection) (net : List Envelope) :
    (s.put i e net).nodes i = { e with sent := [] } := Function.update_self i _ s.nodes

theorem put_nodes_ne (e : CClusterElection) (net : List Envelope) (hne : j ≠ i) :
    (s.put i e net).nodes j = s.nodes j := Function.update_of_ne hne _ s.nodes

theorem act_eq (call : ElectionCall) {e e' : CClusterElection} (he : s.nodes i = e)
    (hrun : call.run (c.service i) e = .ok e') :
    c.act s i call = some (s.put i e' (s.net ++ e'.sent.map (c.route i))) := by
  rw [act, he, hrun]
  rfl

theorem act_silent (call : ElectionCall) {e e' : CClusterElection} (he : s.nodes i = e)
    (hrun : call.run (c.service i) e = .ok e') (hs : e'.sent = []) : c.act s i call = some (s.put i e' s.net) := by
  rw [act_eq call he hrun, hs, List.map_nil, List.append_nil]

theorem act_broadcast (call : ElectionCall) {e e' : CClusterElection} {itf : ClusterInterface} (hi : i ∈ c.ips)
    (he : s.nodes i = e) (hrun : call.run (c.service i) e = .ok e') (hs : e'.sent = (c.service i).toAll itf) :
    c.act s i call = some (s.put i e' (s.net ++ c.broadcast i itf)) := by
  rw [act_eq call he hrun, hs, route_toAll hi]

theorem move_of_start (hm : c.Largest m) (h : s.Agreed c m) (hi : i ∈ c.ips)
    (hs : c.act s i .start = some s') : c.Move m s (.start i) s' := by
  obtain ⟨hfree, hsent, -⟩ := h.nodes i
  by_cases hp : 0 < (c.service i).generateProposal0
  · have hrun := CClusterElection.start_eq (service_sends c i) hfree hp
    rw [generateProposal_eq hm hi, hsent, List.nil_append] at hrun
    rw [act_broadcast .start hi rfl hrun rfl] at hs
    cases hs
    exact .start hi hp
  · have hrun := CClusterElection.start_alone hfree hp
    rw [act_silent .start rfl hrun hsent] at hs
    cases hs
    obtain rfl := alone_largest hm hi hp
    exact .alone hi hp rfl

theorem put_set (e₀ e : CClusterElection) (net : List Envelope) : (s.set i e₀).put i e net = s.put i e net := by
  simp only [Network.put, Network.set, Function.update_idem]

theorem move_of_fire (h : s.Agreed c m) (hi : i ∈ c.ips) (ht : (s.nodes i).m_timer = true)
    (hs : c.act (s.set i { s.nodes i with m_timer := false }) i .terminate = some s') :
    c.Move m s (.fire i) s' := by
  obtain ⟨hfree, hsent, harmed, hprop, -⟩ := h.nodes i
  have hnode : (s.set i { s.nodes i with m_timer := false }).nodes i =
    { s.nodes i with m_timer := false, sent := [] } :=
    Function.update_self i _ s.nodes
  by_cases hf : (s.nodes i).m_state = .finished
  · have hrun := CClusterElection.terminate_finished (c.service i)
      (e := { s.nodes i with m_timer := false, sent := [] }) hfree hf
    rw [act_silent .terminate hnode hrun rfl, put_set] at hs
    cases hs
    exact .stale hi ht hf
  · have hrun := CClusterElection.terminate_eq (e := { s.nodes i with m_timer := false, sent := [] })
      (service_sends c i) hfree (hprop (harmed ht)) hf
    rw [List.nil_append] at hrun
    rw [act_broadcast .terminate hi hnode hrun rfl, put_set] at hs
    cases hs
    exact .fire hi ht hf

theorem deliver_eq (itf : ClusterInterface) {net : List Envelope} {fd : INT4} {e : CClusterElection}
    (hp : (s.nodes i).processMsg (c.service i) fd itf = .ok (BNC_OK, e)) :
    c.act { s with net } i (.message fd itf) = some (s.put i e (net ++ e.sent.map (c.route i))) := by
  apply act_eq (s := { s with net }) (.message fd itf) rfl
  rw [ElectionCall.run, hp]
  rfl

theorem deliver_silent (itf : ClusterInterface) {net : List Envelope} {fd : INT4} {e : CClusterElection}
    (hp : (s.nodes i).processMsg (c.service i) fd itf = .ok (BNC_OK, e)) (hs : e.sent = []) :
    c.act { s with net } i (.message fd itf) = some (s.put i e net) := by
  rw [deliver_eq itf hp, hs, List.map_nil, List.append_nil]

theorem deliver_broadcast (itf : ClusterInterface) {net : List Envelope} {fd : INT4} {e : CClusterElection}
    {out : ClusterInterface} (hi : i ∈ c.ips) (hp : (s.nodes i).processMsg (c.service i) fd itf = .ok (BNC_OK, e))
    (hs : e.sent = (c.service i).toAll out) :
    c.act { s with net } i (.message fd itf) = some (s.put i e (net ++ c.broadcast i out)) := by
  rw [deliver_eq itf hp, hs, route_toAll hi]

theorem move_of_proposal (hm : c.Largest m) (h : s.Agreed c m) {k : ℕ} {fd : INT4} (hi : i ∈ c.ips)
    (hk : s.net[k]? = some ⟨j, i, .election .electionProposal m⟩)
    (hs : c.act { s with net := s.net.eraseIdx k } i (.message fd (.election .electionProposal m)) = some s') :
    c.Move m s (.deliver k) s' := by
  obtain ⟨hfree, hsent, harmed, hprop, hwatch, -⟩ := h.nodes i
  by_cases hj : (s.nodes i).m_state = .init ∨ (s.nodes i).m_state = .finished
  · have hrun := CClusterElection.proposal_join hfree fd (generateProposal_eq hm hi) hj
    rw [deliver_silent (.election .electionProposal m) hrun hsent] at hs
    cases hs
    exact .join hk hj
  · obtain ⟨hinit, hfin⟩ := not_or.1 hj
    have hongoing : (s.nodes i).m_state = .start ∨ (s.nodes i).m_state = .ongoing := by
      cases hstate : (s.nodes i).m_state <;> simp_all
    have hrun := CClusterElection.proposal_same (c.service i) hfree fd (hprop hinit) hongoing
    rw [deliver_silent (.election .electionProposal m) hrun hsent] at hs
    cases hs
    exact .proposal hk hongoing

theorem move_of_notify (h : s.Agreed c m) {k : ℕ} {fd : INT4} (hi : i ∈ c.ips)
    (hk : s.net[k]? = some ⟨j, i, .election .electionNotify m⟩)
    (hs : c.act { s with net := s.net.eraseIdx k } i (.message fd (.election .electionNotify m)) = some s') :
    c.Move m s (.deliver k) s' := by
  obtain ⟨hfree, hsent, -⟩ := h.nodes i
  by_cases hf : (s.nodes i).m_state = .finished
  · have hrun := CClusterElection.notify_finished (m := m) (c.service i) hfree hf
    rw [deliver_silent (.election .electionNotify m) hrun hsent] at hs
    cases hs
    exact .notified hk hf
  · have hrun := CClusterElection.notify_eq (m := m) (service_sends c i) hfree hf
    rw [hsent, List.nil_append] at hrun
    rw [deliver_broadcast (.election .electionNotify m) hi hrun rfl] at hs
    cases hs
    exact .notify hi hk hf

theorem move_of_inform (h : s.Agreed c m) {k : ℕ} {fd : INT4}
    (hk : s.net[k]? = some ⟨j, i, .election .electionInform m⟩)
    (hs : c.act { s with net := s.net.eraseIdx k } i (.message fd (.election .electionInform m)) = some s') :
    c.Move m s (.deliver k) s' := by
  obtain ⟨hfree, hsent, -⟩ := h.nodes i
  by_cases hf : (s.nodes i).m_masterIp = m
  · have hrun := CClusterElection.inform_known (c.service i) hfree hf
    rw [deliver_silent (.election .electionInform m) hrun hsent] at hs
    cases hs
    exact .informed hk hf
  · have hrun := CClusterElection.inform_eq (c.service i) hfree hf
    rw [deliver_silent (.election .electionInform m) hrun hsent] at hs
    cases hs
    exact .inform hk hf

theorem step_move (hm : c.Largest m) (h : s.Agreed c m) (hs : c.step s a = some s') : c.Move m s a s' := by
  cases a with
  | start i =>
    by_cases hi : i ∈ c.ips
    · rw [step, if_pos hi] at hs
      exact move_of_start hm h hi hs
    · rw [step, if_neg hi] at hs
      cases hs
  | fire i =>
    by_cases hi : i ∈ c.ips ∧ (s.nodes i).m_timer = true
    · rw [step, if_pos hi] at hs
      exact move_of_fire h hi.1 hi.2 hs
    · rw [step, if_neg hi] at hs
      cases hs
  | deliver k =>
    rw [step] at hs
    cases hk : s.net[k]? with
    | none =>
      rw [hk] at hs
      cases hs
    | some env =>
      rw [hk] at hs
      obtain ⟨hsrc, hdst, op, hop, hitf⟩ := h.net env (List.mem_of_getElem? hk)
      obtain ⟨src, dst, itf⟩ := env
      obtain rfl : itf = .election op m := hitf
      rcases hop with rfl | rfl | rfl
      · exact move_of_proposal hm h hdst hk hs
      · exact move_of_notify h hdst hk hs
      · exact move_of_inform h hk hs

theorem initial_agreed (c : Cluster) (m : UINT4) : Network.initial.Agreed c m := by
  constructor
  · intro i
    constructor <;> simp [Network.initial, CClusterElection.new]
  · simp [Network.initial]

theorem broadcast_agreed (hi : i ∈ c.ips) {op : ClusterOper}
    (hop : op = .electionProposal ∨ op = .electionNotify ∨ op = .electionInform) :
    ∀ env ∈ c.broadcast i (.election op m), env.Agreed c m := by
  intro env henv
  obtain ⟨rfl, hd, -, hitf⟩ := (mem_broadcast hi).1 henv
  exact ⟨hi, hd, op, hop, hitf⟩

theorem put_agreed (h : s.Agreed c m) {e : CClusterElection} {net : List Envelope}
    (he : CClusterElection.Agreed i m { e with sent := [] }) (hnet : ∀ env ∈ net, env.Agreed c m) :
    (s.put i e net).Agreed c m := by
  constructor
  · intro j
    by_cases hj : j = i
    · subst hj
      rw [put_nodes_self]
      exact he
    · rw [put_nodes_ne e net hj]
      exact h.nodes j
  · exact hnet

theorem eraseIdx_agreed (h : s.Agreed c m) (k : ℕ) : ∀ env ∈ s.net.eraseIdx k, env.Agreed c m :=
  fun env henv => h.net env (List.mem_of_mem_eraseIdx henv)

theorem mem_eraseIdx_of_ne {xs : List Envelope} {k : ℕ} {env₀ : Envelope} (hk : xs[k]? = some env₀)
    (henv : env ∈ xs) (hne : env ≠ env₀) : env ∈ xs.eraseIdx k := by
  obtain ⟨l, hl⟩ := List.mem_iff_getElem?.1 henv
  apply List.mem_eraseIdx_iff_getElem?.2
  refine ⟨l, ?_, hl⟩
  rintro rfl
  rw [hk] at hl
  exact hne (Option.some.inj hl).symm

theorem append_agreed {xs ys : List Envelope} (hx : ∀ env ∈ xs, env.Agreed c m) (hy : ∀ env ∈ ys, env.Agreed c m) :
    ∀ env ∈ xs ++ ys, env.Agreed c m := by
  intro env henv
  rcases List.mem_append.1 henv with henv | henv
  · exact hx env henv
  · exact hy env henv

theorem Move.agreed (h : s.Agreed c m) (hs : c.Move m s a s') : s'.Agreed c m := by
  cases hs with
  | @start i hi hp =>
    obtain ⟨hfree, -, -, -, -, -, hsole⟩ := h.nodes i
    apply put_agreed h
    · exact ⟨hfree, rfl, by simp, by simp, by simp, by simp, hsole⟩
    · exact append_agreed h.net (broadcast_agreed hi (by simp))
  | @alone i hi hp him =>
    obtain ⟨hfree, -⟩ := h.nodes i
    apply put_agreed h
    · exact ⟨hfree, rfl, by simp, by simp, by simp, by simp [him], by simp [him]⟩
    · exact h.net
  | @fire i hi ht hf =>
    obtain ⟨hfree, -, harmed, hprop, -⟩ := h.nodes i
    apply put_agreed h
    · exact ⟨hfree, rfl, by simp, fun _ => hprop (harmed ht), by simp, fun _ => roleFor_master,
      roleFor_master.1⟩
    · exact append_agreed h.net (broadcast_agreed hi (by simp))
  | @stale i hi ht hf =>
    obtain ⟨hfree, -, -, hprop, hwatch, helected, hsole⟩ := h.nodes i
    apply put_agreed h
    · exact ⟨hfree, rfl, by simp, hprop, hwatch, helected, hsole⟩
    · exact h.net
  | @join k j i hk hj =>
    obtain ⟨hfree, -, -, -, -, -, hsole⟩ := h.nodes i
    apply put_agreed h
    · exact ⟨hfree, rfl, by simp, by simp, by simp, by simp, hsole⟩
    · exact eraseIdx_agreed h k
  | @proposal k j i hk hj =>
    obtain ⟨hfree, -, harmed, hprop, hwatch, helected, hsole⟩ := h.nodes i
    apply put_agreed h
    · exact ⟨hfree, rfl, harmed, hprop, hwatch, helected, hsole⟩
    · exact eraseIdx_agreed h k
  | @notify k j i hi hk hf =>
    obtain ⟨hfree, -⟩ := h.nodes i
    apply put_agreed h
    · exact ⟨hfree, rfl, by simp, by simp, by simp, fun _ => roleFor_master, roleFor_master.1⟩
    · exact append_agreed (eraseIdx_agreed h k) (broadcast_agreed hi (by simp))
  | @notified k j i hk hf =>
    obtain ⟨hfree, -, -, hprop, hwatch, helected, hsole⟩ := h.nodes i
    apply put_agreed h
    · exact ⟨hfree, rfl, by simp, hprop, hwatch, helected, hsole⟩
    · exact eraseIdx_agreed h k
  | @inform k j i hk him =>
    obtain ⟨hfree, -⟩ := h.nodes i
    apply put_agreed h
    · exact ⟨hfree, rfl, by simp, by simp, by simp, fun _ => roleFor_master, roleFor_master.1⟩
    · exact eraseIdx_agreed h k
  | @informed k j i hk him =>
    obtain ⟨hfree, -, harmed, hprop, hwatch, helected, hsole⟩ := h.nodes i
    apply put_agreed h
    · exact ⟨hfree, rfl, harmed, hprop, hwatch, helected, hsole⟩
    · exact eraseIdx_agreed h k

theorem reachable_agreed (hm : c.Largest m) (h : Reaches c.step Network.initial s) : s.Agreed c m := by
  apply h.invariant (P := fun s => s.Agreed c m) _ (initial_agreed c m)
  intro s a s' hs _ he
  exact (step_move hm hs he).agreed hs

theorem finished_names_largest (h : Reaches c.step Network.initial s) :
    (∀ i ∈ c.ips, (s.nodes i).m_state = .finished →
      c.Largest (s.nodes i).m_masterIp ∧
        ((s.nodes i).m_controllerRole = .master ↔ (s.nodes i).m_masterIp = i)) ∧
    ∀ i ∈ c.ips, ∀ j ∈ c.ips, (s.nodes i).m_controllerRole = .master → (s.nodes j).m_controllerRole = .master →
      i = j := by
  constructor
  · intro i hi hf
    obtain ⟨m, hm⟩ := exists_largest hi
    have hagreed := (reachable_agreed hm h).nodes i
    have hprop := hagreed.proposed (by simp [hf])
    rw [hprop]
    exact ⟨hm, (hagreed.elected hf).trans eq_comm⟩
  · intro i hi j hj hri hrj
    obtain ⟨m, hm⟩ := exists_largest hi
    have hagreed := reachable_agreed hm h
    exact ((hagreed.nodes i).sole hri).trans ((hagreed.nodes j).sole hrj).symm

def pairRemotes (i : UINT4) : List ClusterController :=
  if i = 1 then [{ sockfd := 5, ip := 2, state := .connected }] else [{ sockfd := 6, ip := 1, state := .connected }]

def pair : Cluster where
  ips := {1, 2}
  remotes := pairRemotes
  known := by simp [pairRemotes]
  connected := by simp [pairRemotes]
  complete := by simp [pairRemotes]
  sockets := by simp [pairRemotes]

def pairElection : List NetworkAction := [.start 1, .deliver 0, .fire 1, .deliver 0, .deliver 0]

theorem pair_finished_names_largest : ∃ s, exec pair.step Network.initial pairElection = some s ∧
    (s.nodes 1).m_state = .finished ∧ (s.nodes 2).m_controllerRole = .master ∧
    (∀ i ∈ pair.ips, (s.nodes i).m_state = .finished →
      pair.Largest (s.nodes i).m_masterIp ∧
        ((s.nodes i).m_controllerRole = .master ↔ (s.nodes i).m_masterIp = i)) ∧
    ∀ i ∈ pair.ips, ∀ j ∈ pair.ips,
      (s.nodes i).m_controllerRole = .master → (s.nodes j).m_controllerRole = .master → i = j := by
  have hrun : (exec pair.step Network.initial pairElection).map
      (fun s => ((s.nodes 1).m_state, (s.nodes 2).m_controllerRole)) = some (.finished, .master) := by
    decide +kernel
  obtain ⟨s, hs, hview⟩ := Option.map_eq_some_iff.1 hrun
  obtain ⟨hstate, hrole⟩ := Prod.mk.inj hview
  exact ⟨s, hs, hstate, hrole, finished_names_largest (Reaches.of_exec hs)⟩

end Cluster

end DCFabric
