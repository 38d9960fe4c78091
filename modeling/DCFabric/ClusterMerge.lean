import DCFabric.ElectionAgreement

namespace DCFabric

open TransitionRuns

/-- The controllers of two finished elections; `home` names the master that a controller's own group elected. -/
structure TwoGroups (c : Cluster) where
  first : UINT4
  second : UINT4
  home : UINT4 → UINT4
  first_mem : first ∈ c.ips
  second_mem : second ∈ c.ips
  first_ne_second : first ≠ second
  home_first : home first = first
  home_second : home second = second
  home_eq : ∀ i ∈ c.ips, home i = first ∨ home i = second

def ClusterInterface.working (op : ClusterOper) (master : UINT4) : ClusterInterface :=
  .hello op CLUSTER_STATE_WORKING master

namespace Cluster

def mergeStep (c : Cluster) (s : Network) (k : ℕ) : Option Network := c.step s (.deliver k)

end Cluster

namespace TwoGroups

variable {c : Cluster}

def Master (g : TwoGroups c) (m : UINT4) : Prop := m = g.first ∨ m = g.second

def hello (g : TwoGroups c) (i j : UINT4) : Envelope := ⟨i, j, .working .helloReq (g.home i)⟩

def answer (m i : UINT4) : Envelope := ⟨m, i, .working .helloRsp m⟩

-- Every controller sends one request to every controller of the other group.
structure Meeting (g : TwoGroups c) (s : Network) : Prop where
  nodes : ∀ i ∈ c.ips, s.nodes i =
    { CClusterElection.new with
      m_state := .finished, m_masterIp := g.home i, m_controllerRole := (c.service i).roleFor (g.home i) }
  net : ∀ env, env ∈ s.net ↔ ∃ i ∈ c.ips, ∃ j ∈ c.ips, g.home i ≠ g.home j ∧ env = g.hello i j

def Merged (c : Cluster) (s : Network) : Prop :=
  ∃ m ∈ c.ips, (s.nodes m).m_controllerRole = .master ∧
    ∀ i ∈ c.ips, i ≠ m → (s.nodes i).m_controllerRole ≠ .master ∧ (s.nodes i).m_masterIp = m

-- The controller names `m`, or an answer that makes it do so is on its way.
def Follows (s : Network) (m i : UINT4) : Prop := (s.nodes i).m_masterIp = m ∨ answer m i ∈ s.net

def Answered (g : TwoGroups c) (s : Network) (m : UINT4) : Prop := ∃ i ∈ c.ips, g.home i ≠ m ∧ Follows s m i

def Crossed (g : TwoGroups c) (s : Network) : Prop := ∀ m, g.Master m → g.Answered s m

-- A request reaches a master that still names itself only while the other master has not answered one.
def OneSided (g : TwoGroups c) (s : Network) (k : ℕ) : Prop :=
  ∀ env ∈ s.net[k]?, env.itf.operation = .helloReq → (s.nodes env.dst).m_masterIp = env.dst →
    ∀ m, g.Master m → m ≠ env.dst → ¬g.Answered s m

structure Exchange (g : TwoGroups c) (s : Network) : Prop where
  nodes : ∀ i ∈ c.ips, (s.nodes i).m_mutex = false ∧ (s.nodes i).sent = [] ∧ (s.nodes i).m_state = .finished ∧
    g.Master (s.nodes i).m_masterIp ∧ (s.nodes i).m_controllerRole = (c.service i).roleFor (s.nodes i).m_masterIp
  net : ∀ env ∈ s.net, ∃ i ∈ c.ips, ∃ j ∈ c.ips, g.home i ≠ g.home j ∧
    (env = g.hello i j ∨ g.Master i ∧ env = answer i j)

end TwoGroups

namespace CClusterElection

variable {e : CClusterElection} {svc : ClusterService} {m : UINT4}

theorem hello_valid (op : ClusterOper) (m : UINT4) : ¬((ClusterInterface.working op m).operation ≠ op ∨
    (ClusterInterface.working op m).length < 8) := by
  rintro (h | h)
  · exact h rfl
  · exact absurd h (by decide : ¬(8 : INT4) < 8)

theorem working_ne_init (op : ClusterOper) (m : UINT4) :
    ¬(ClusterInterface.working op m).word0 = CLUSTER_STATE_INIT := by
  intro h
  exact absurd h (by decide : ¬CLUSTER_STATE_WORKING = CLUSTER_STATE_INIT)

theorem helloReq_answered (fd : INT4) (hsend : svc.sendOk fd = true) (he : e.m_mutex = false)
    (hf : e.m_state = .finished) (hm : e.m_masterIp = svc.controllerIp) :
    e.processMsg svc fd (.working .helloReq m) =
      .ok (BNC_OK, { e with sent := e.sent ++ [(fd, .working .helloRsp svc.controllerIp)] }) := by
  obtain ⟨state, masterIp, timer, mutex, role, sent⟩ := e
  obtain rfl : mutex = false := he
  obtain rfl : state = .finished := hf
  obtain rfl : masterIp = svc.controllerIp := hm
  change processHelloReq _ svc fd _ = _
  rw [processHelloReq, if_neg (hello_valid _ m), lock_free rfl]
  simp only [bind, Except.bind]
  rw [helloReqBody, if_neg (working_ne_init _ m), if_pos ⟨rfl, rfl⟩, sendHelloRsp, sendMsgOut, if_pos hsend]
  rfl

theorem helloReq_ignored (svc : ClusterService) (fd : INT4) (he : e.m_mutex = false)
    (hm : e.m_masterIp ≠ svc.controllerIp) :
    e.processMsg svc fd (.working .helloReq m) = .ok (BNC_OK, e) := by
  obtain ⟨state, masterIp, timer, mutex, role, sent⟩ := e
  obtain rfl : mutex = false := he
  change processHelloReq _ svc fd _ = _
  rw [processHelloReq, if_neg (hello_valid _ m), lock_free rfl]
  simp only [bind, Except.bind]
  rw [helloReqBody, if_neg (working_ne_init _ m), if_neg (fun h => hm h.2.symm)]
  rfl

theorem helloRsp_adopted (svc : ClusterService) (fd : INT4) (he : e.m_mutex = false) :
    e.processMsg svc fd (.working .helloRsp m) = .ok (BNC_OK, { e with
      m_masterIp := m, m_state := .finished, m_controllerRole := svc.roleFor m }) := by
  obtain ⟨state, masterIp, timer, mutex, role, sent⟩ := e
  obtain rfl : mutex = false := he
  have hworking : (ClusterInterface.working .helloRsp m).word0 = CLUSTER_STATE_WORKING := rfl
  change processHelloRsp _ svc _ = _
  rw [processHelloRsp, if_neg (hello_valid _ m), lock_free rfl]
  simp only [bind, Except.bind]
  rw [if_pos hworking, finish_eq]
  rfl

end CClusterElection

namespace TwoGroups

variable {c : Cluster} {g : TwoGroups c} {s s' : Network} {i j m m' : UINT4} {k : ℕ} {env : Envelope}

theorem remoteIp_sockfdOf (hi : i ∈ c.ips) (hj : j ∈ c.ips) (hne : j ≠ i) :
    (c.service i).remoteIp (c.sockfdOf i j) = j := by
  rw [Cluster.sockfdOf]
  cases hf : (c.remotes i).find? (fun r => r.ip = j) with
  | none =>
    obtain ⟨r, hr, he⟩ := c.complete i hi j hj hne
    exact absurd (decide_eq_true he) (List.find?_eq_none.1 hf r hr)
  | some r =>
    have he : r.ip = j := by simpa using List.find?_some hf
    exact (Cluster.remoteIp_sockfd hi (List.mem_of_find?_eq_some hf)).trans he

/-- What the delivery of one message of the exchange does. -/
inductive Delivered (g : TwoGroups c) (s : Network) (k : ℕ) : Network → Prop
  | answered {i j : UINT4} (hi : i ∈ c.ips) (hj : j ∈ c.ips) (hne : g.home j ≠ g.home i)
      (hk : s.net[k]? = some (g.hello j i)) (hm : (s.nodes i).m_masterIp = i) :
      Delivered g s k (s.put i (s.nodes i) (s.net.eraseIdx k ++ [answer i j]))
  | ignored {i j : UINT4} (hi : i ∈ c.ips) (hj : j ∈ c.ips) (hne : g.home j ≠ g.home i)
      (hk : s.net[k]? = some (g.hello j i)) (hm : (s.nodes i).m_masterIp ≠ i) :
      Delivered g s k (s.put i (s.nodes i) (s.net.eraseIdx k))
  | adopted {i m : UINT4} (hi : i ∈ c.ips) (hm : m ∈ c.ips) (hne : g.home m ≠ g.home i) (hmaster : g.Master m)
      (hk : s.net[k]? = some (answer m i)) :
      Delivered g s k (s.put i { s.nodes i with
        m_masterIp := m, m_state := .finished, m_controllerRole := (c.service i).roleFor m } (s.net.eraseIdx k))

theorem delivered_of_hello (h : g.Exchange s) (hi : i ∈ c.ips) (hj : j ∈ c.ips) (hne : g.home j ≠ g.home i)
    (hk : s.net[k]? = some (g.hello j i)) (hs : c.mergeStep s k = some s') : g.Delivered s k s' := by
  obtain ⟨hfree, hsent, hfin, -⟩ := h.nodes i hi
  rw [Cluster.mergeStep, Cluster.step, hk] at hs
  change c.act { s with net := s.net.eraseIdx k } i (.message (c.sockfdOf i j) (.working .helloReq (g.home j))) =
    some s' at hs
  by_cases hm : (s.nodes i).m_masterIp = i
  · have hrun := CClusterElection.helloReq_answered (m := g.home j) (c.sockfdOf i j)
      (Cluster.service_sends c i (c.sockfdOf i j)) hfree hfin hm
    have hij : j ≠ i := fun h => hne (h ▸ rfl)
    have hroute : c.route i (c.sockfdOf i j, .working .helloRsp (c.service i).controllerIp) = answer i j := by
      rw [Cluster.route, remoteIp_sockfdOf hi hj hij]
      rfl
    rw [Cluster.deliver_eq (.working .helloReq (g.home j)) hrun, hsent, List.nil_append, List.map_singleton,
      hroute] at hs
    cases hs
    exact .answered hi hj hne hk hm
  · have hrun := CClusterElection.helloReq_ignored (m := g.home j) (c.service i) (c.sockfdOf i j) hfree hm
    rw [Cluster.deliver_silent (.working .helloReq (g.home j)) hrun hsent] at hs
    cases hs
    exact .ignored hi hj hne hk hm

theorem delivered_of_answer (h : g.Exchange s) (hi : i ∈ c.ips) (hm : m ∈ c.ips) (hne : g.home m ≠ g.home i)
    (hmaster : g.Master m) (hk : s.net[k]? = some (answer m i)) (hs : c.mergeStep s k = some s') :
    g.Delivered s k s' := by
  obtain ⟨hfree, hsent, -⟩ := h.nodes i hi
  rw [Cluster.mergeStep, Cluster.step, hk] at hs
  change c.act { s with net := s.net.eraseIdx k } i (.message (c.sockfdOf i m) (.working .helloRsp m)) = some s' at hs
  have hrun := CClusterElection.helloRsp_adopted (m := m) (c.service i) (c.sockfdOf i m) hfree
  rw [Cluster.deliver_silent (.working .helloRsp m) hrun hsent] at hs
  cases hs
  exact .adopted hi hm hne hmaster hk

theorem step_delivered (h : g.Exchange s) (hs : c.mergeStep s k = some s') : g.Delivered s k s' := by
  cases hk : s.net[k]? with
  | none =>
    rw [Cluster.mergeStep, Cluster.step, hk] at hs
    cases hs
  | some env =>
    obtain ⟨j, hj, i, hi, hne, rfl | ⟨hmaster, rfl⟩⟩ := h.net env (List.mem_of_getElem? hk)
    · exact delivered_of_hello h hi hj hne hk hs
    · exact delivered_of_answer h hi hj hne hmaster hk hs

theorem Master.home (hm : g.Master m) : g.home m = m := by
  rcases hm with rfl | rfl
  · exact g.home_first
  · exact g.home_second

theorem home_master (hi : i ∈ c.ips) : g.Master (g.home i) := g.home_eq i hi

theorem Master.eq_of_ne {x y : UINT4} (hm : g.Master m) (hx : g.Master x) (hy : g.Master y) (hxm : x ≠ m)
    (hym : y ≠ m) : x = y := by
  rcases hm with rfl | rfl <;> rcases hx with rfl | rfl <;> rcases hy with rfl | rfl <;> simp_all

theorem exchange_of_meeting (h : g.Meeting s) : g.Exchange s := by
  constructor
  · intro i hi
    rw [h.nodes i hi]
    exact ⟨rfl, rfl, rfl, home_master hi, rfl⟩
  · intro env henv
    obtain ⟨i, hi, j, hj, hne, rfl⟩ := (h.net env).1 henv
    exact ⟨i, hi, j, hj, hne, Or.inl rfl⟩

theorem put_exchange {e : CClusterElection} {net : List Envelope} (h : g.Exchange s)
    (he : i ∈ c.ips → e.m_mutex = false ∧ e.m_state = .finished ∧ g.Master e.m_masterIp ∧
      e.m_controllerRole = (c.service i).roleFor e.m_masterIp)
    (hnet : ∀ env ∈ net, env ∈ s.net ∨ ∃ i ∈ c.ips, ∃ j ∈ c.ips, g.home i ≠ g.home j ∧ g.Master i ∧
      env = answer i j) : g.Exchange (s.put i e net) := by
  constructor
  · intro l hl
    by_cases hli : l = i
    · subst hli
      rw [Cluster.put_nodes_self]
      obtain ⟨hfree, hfin, hmaster, hrole⟩ := he hl
      exact ⟨hfree, rfl, hfin, hmaster, hrole⟩
    · rw [Cluster.put_nodes_ne e net hli]
      exact h.nodes l hl
  · intro env henv
    rcases hnet env henv with henv | ⟨i, hi, j, hj, hne, hm, he⟩
    · exact h.net env henv
    · exact ⟨i, hi, j, hj, hne, Or.inr ⟨hm, he⟩⟩

theorem Delivered.exchange (h : g.Exchange s) (hs : g.Delivered s k s') : g.Exchange s' := by
  cases hs with
  | @answered i j hi hj hne hk hm =>
    obtain ⟨hfree, -, hfin, hmaster, hrole⟩ := h.nodes i hi
    apply put_exchange h (fun _ => ⟨hfree, hfin, hmaster, hrole⟩)
    intro env henv
    rcases List.mem_append.1 henv with henv | henv
    · exact Or.inl (List.mem_of_mem_eraseIdx henv)
    · exact Or.inr ⟨i, hi, j, hj, hne.symm, hm ▸ hmaster, List.mem_singleton.1 henv⟩
  | @ignored i j hi hj hne hk hm =>
    obtain ⟨hfree, -, hfin, hmaster, hrole⟩ := h.nodes i hi
    apply put_exchange h (fun _ => ⟨hfree, hfin, hmaster, hrole⟩)
    exact fun env henv => Or.inl (List.mem_of_mem_eraseIdx henv)
  | @adopted i m hi hm hne hmaster hk =>
    obtain ⟨hfree, -⟩ := h.nodes i hi
    apply put_exchange h
    · exact fun _ => ⟨hfree, rfl, hmaster, rfl⟩
    · exact fun env henv => Or.inl (List.mem_of_mem_eraseIdx henv)

theorem put_follows {e : CClusterElection} {net : List Envelope} (hf : Follows s m i) (hne : i ≠ j)
    (hnet : answer m i ∈ s.net → answer m i ∈ net) : Follows (s.put j e net) m i := by
  rcases hf with hf | hf
  · exact Or.inl (by rw [Cluster.put_nodes_ne e net hne]; exact hf)
  · exact Or.inr (hnet hf)

theorem put_self_masterIp (l : UINT4) (net : List Envelope) :
    ((s.put l (s.nodes l) net).nodes i).m_masterIp = (s.nodes i).m_masterIp := by
  by_cases hil : i = l
  · rw [hil, Cluster.put_nodes_self]
  · rw [Cluster.put_nodes_ne _ _ hil]

theorem put_self_follows {net : List Envelope} (hf : Follows s m i) (hnet : answer m i ∈ s.net → answer m i ∈ net) :
    Follows (s.put j (s.nodes j) net) m i := by
  rw [Follows, put_self_masterIp]
  rcases hf with hf | hf
  · exact Or.inl hf
  · exact Or.inr (hnet hf)

theorem answer_ne_hello (x y : UINT4) : answer m i ≠ g.hello x y := by
  intro h
  exact absurd (congrArg (fun env : Envelope => env.itf.operation) h) (by decide : ClusterOper.helloRsp ≠ .helloReq)

theorem Delivered.follows (hs : g.Delivered s k s') (hi : i ∈ c.ips) (hm : g.Master m) (hne : g.home i ≠ m)
    (hf : Follows s m i) : Follows s' m i := by
  cases hs with
  | @answered l j hl hj hlj hk hml =>
    apply put_self_follows hf
    intro hmem
    exact List.mem_append_left _ (Cluster.mem_eraseIdx_of_ne hk hmem (answer_ne_hello _ _))
  | @ignored l j hl hj hlj hk hml =>
    apply put_self_follows hf
    intro hmem
    exact Cluster.mem_eraseIdx_of_ne hk hmem (answer_ne_hello _ _)
  | @adopted l m' hl hm' hne' hmaster hk =>
    by_cases hil : i = l
    · subst hil
      rw [hmaster.home] at hne'
      have hmm : m' = m := (home_master hi).eq_of_ne hmaster hm hne' hne.symm
      exact Or.inl (by rw [Cluster.put_nodes_self]; exact hmm)
    · apply put_follows hf hil
      intro hmem
      apply Cluster.mem_eraseIdx_of_ne hk hmem
      intro he
      exact hil (congrArg Envelope.dst he)

theorem Delivered.answered_mono (hs : g.Delivered s k s') (hm : g.Master m) (ha : g.Answered s m) :
    g.Answered s' m := by
  obtain ⟨i, hi, hne, hf⟩ := ha
  exact ⟨i, hi, hne, hs.follows hi hm hne hf⟩

-- Only a request that reaches `m` while it names itself makes it answer.
def Answers (g : TwoGroups c) (s : Network) (k : ℕ) (m : UINT4) : Prop :=
  ∃ j, s.net[k]? = some (g.hello j m) ∧ (s.nodes m).m_masterIp = m

theorem Delivered.answered_back (hs : g.Delivered s k s') (ha : g.Answered s' m) :
    g.Answered s m ∨ g.Answers s k m := by
  obtain ⟨i, hi, hne, hf⟩ := ha
  cases hs with
  | @answered l j hl hj hlj hk hml =>
    rcases hf with hf | hf
    · rw [put_self_masterIp] at hf
      exact Or.inl ⟨i, hi, hne, Or.inl hf⟩
    · rcases List.mem_append.1 hf with hf | hf
      · exact Or.inl ⟨i, hi, hne, Or.inr (List.mem_of_mem_eraseIdx hf)⟩
      · obtain rfl : m = l := congrArg Envelope.src (List.mem_singleton.1 hf)
        exact Or.inr ⟨j, hk, hml⟩
  | @ignored l j hl hj hlj hk hml =>
    rcases hf with hf | hf
    · rw [put_self_masterIp] at hf
      exact Or.inl ⟨i, hi, hne, Or.inl hf⟩
    · exact Or.inl ⟨i, hi, hne, Or.inr (List.mem_of_mem_eraseIdx hf)⟩
  | @adopted l m' hl hm' hne' hmaster hk =>
    left
    rcases hf with hf | hf
    · by_cases hil : i = l
      · subst hil
        rw [Cluster.put_nodes_self] at hf
        obtain rfl : m' = m := hf
        exact ⟨i, hi, hne, Or.inr (List.mem_of_getElem? hk)⟩
      · rw [Cluster.put_nodes_ne _ _ hil] at hf
        exact ⟨i, hi, hne, Or.inl hf⟩
    · exact ⟨i, hi, hne, Or.inr (List.mem_of_mem_eraseIdx hf)⟩

theorem Delivered.oneSided (hs : g.Delivered s k s') (ho : g.OneSided s k) (hn : ¬g.Crossed s) : ¬g.Crossed s' := by
  intro hc
  apply hn
  intro m hm
  rcases hs.answered_back (hc m hm) with ha | ⟨j, hk, hself⟩
  · exact ha
  · obtain ⟨m', hm', hne⟩ : ∃ m', g.Master m' ∧ m' ≠ m := by
      rcases hm with rfl | rfl
      · exact ⟨g.second, Or.inr rfl, g.first_ne_second.symm⟩
      · exact ⟨g.first, Or.inl rfl, g.first_ne_second⟩
    have hnot : ¬g.Answered s m' := ho _ hk rfl hself m' hm' hne
    rcases hs.answered_back (hc m' hm') with ha | ⟨j', hk', -⟩
    · exact absurd ha hnot
    · rw [hk] at hk'
      exact absurd (congrArg Envelope.dst (Option.some.inj hk')).symm hne

def Progress (g : TwoGroups c) (s : Network) : Prop :=
  ∀ m, g.Master m → ∀ i ∈ c.ips, g.home i ≠ m → g.hello i m ∈ s.net ∨ Follows s m i ∨ g.Answered s (g.home i)

theorem Master.mem (hm : g.Master m) : m ∈ c.ips := by
  rcases hm with rfl | rfl
  · exact g.first_mem
  · exact g.second_mem

theorem progress_of_meeting (h : g.Meeting s) : g.Progress s := by
  intro m hm i hi hne
  left
  exact (h.net _).2 ⟨i, hi, m, hm.mem, by rw [hm.home]; exact hne, rfl⟩

theorem Delivered.progress (h : g.Exchange s) (hs : g.Delivered s k s') (hp : g.Progress s) : g.Progress s' := by
  intro m hm i hi hne
  have hdelivered := hs
  rcases hp m hm i hi hne with hp | hf | ha
  · cases hs with
    | @answered l j hl hj hlj hk hml =>
      by_cases he : g.hello i m = g.hello j l
      · obtain rfl : i = j := congrArg Envelope.src he
        obtain rfl : m = l := congrArg Envelope.dst he
        exact Or.inr (Or.inl (Or.inr (List.mem_append_right _ (List.mem_singleton.2 rfl))))
      · exact Or.inl (List.mem_append_left _ (Cluster.mem_eraseIdx_of_ne hk hp he))
    | @ignored l j hl hj hlj hk hml =>
      by_cases he : g.hello i m = g.hello j l
      · obtain rfl : i = j := congrArg Envelope.src he
        obtain rfl : m = l := congrArg Envelope.dst he
        right
        right
        apply hdelivered.answered_mono (home_master hi)
        refine ⟨m, hl, ?_, Or.inl ?_⟩
        · rw [hm.home]
          exact hne.symm
        · exact hm.eq_of_ne (h.nodes m hl).2.2.2.1 (home_master hi) hml hne
      · exact Or.inl (Cluster.mem_eraseIdx_of_ne hk hp he)
    | @adopted l m' hl hm' hne' hmaster hk =>
      exact Or.inl (Cluster.mem_eraseIdx_of_ne hk hp (answer_ne_hello i m).symm)
  · exact Or.inr (Or.inl (hdelivered.follows hi hm hne hf))
  · exact Or.inr (Or.inr (hdelivered.answered_mono (home_master hi) ha))

theorem merged_of_not_answered (h : g.Exchange s) (hp : g.Progress s) (hq : s.net = []) (hm : g.Master m)
    (hm' : g.Master m') (hne : m' ≠ m) (hnot : ¬g.Answered s m') : Merged c s := by
  have hnames : ∀ i ∈ c.ips, (s.nodes i).m_masterIp = m := by
    intro i hi
    have hmaster := (h.nodes i hi).2.2.2.1
    by_cases hhome : g.home i = m
    · by_contra hname
      apply hnot
      refine ⟨i, hi, ?_, Or.inl (hm.eq_of_ne hmaster hm' hname hne)⟩
      rw [hhome]
      exact hne.symm
    · rcases hp m hm i hi hhome with hmem | (hname | hmem) | ha
      · rw [hq] at hmem
        cases hmem
      · exact hname
      · rw [hq] at hmem
        cases hmem
      · rw [hm.eq_of_ne (home_master hi) hm' hhome hne] at ha
        exact absurd ha hnot
  have hroles : ∀ i ∈ c.ips, (s.nodes i).m_controllerRole = .master ↔ i = m := by
    intro i hi
    rw [(h.nodes i hi).2.2.2.2, hnames i hi]
    exact Cluster.roleFor_master
  refine ⟨m, hm.mem, (hroles m hm.mem).2 rfl, ?_⟩
  intro i hi him
  exact ⟨fun hr => him ((hroles i hi).1 hr), hnames i hi⟩

theorem Crossed.not_merged (h : g.Exchange s) (hc : g.Crossed s) (hq : s.net = []) : ¬Merged c s := by
  rintro ⟨m, hm, hrole, hothers⟩
  have hself : (s.nodes m).m_masterIp = m := by
    rw [(h.nodes m hm).2.2.2.2] at hrole
    exact (Cluster.roleFor_master.1 hrole).symm
  have hnames : ∀ x, g.Master x → x = m := by
    intro x hx
    obtain ⟨i, hi, -, hname | hmem⟩ := hc x hx
    · by_cases him : i = m
      · rw [← hname, him, hself]
      · rw [← hname, (hothers i hi him).2]
    · rw [hq] at hmem
      cases hmem
  exact g.first_ne_second ((hnames _ (Or.inl rfl)).trans (hnames _ (Or.inr rfl)).symm)

theorem not_crossed_of_meeting (h : g.Meeting s) : ¬g.Crossed s := by
  intro hc
  obtain ⟨i, hi, hne, hname | hmem⟩ := hc g.first (Or.inl rfl)
  · rw [h.nodes i hi] at hname
    exact hne hname
  · obtain ⟨i', -, j', -, -, he⟩ := (h.net _).1 hmem
    exact answer_ne_hello i' j' he

theorem Delivered.crossed (h : g.Exchange s) (hs : g.Delivered s k s') (ho : ¬g.OneSided s k) : g.Crossed s' := by
  simp only [OneSided, not_forall, not_not] at ho
  obtain ⟨env, hk, hop, hself, m', hm', hne, ha⟩ := ho
  intro m hm
  by_cases hmm : m = m'
  · exact hmm ▸ hs.answered_mono hm' ha
  · cases hs with
    | @answered l j hl hj hlj hk' hml =>
      rw [hk'] at hk
      obtain rfl := Option.some.inj hk
      have hlm : l = m := by
        have hmaster : g.Master l := hml ▸ (h.nodes l hl).2.2.2.1
        exact hm'.eq_of_ne hmaster hm (Ne.symm hne) hmm
      subst hlm
      refine ⟨j, hj, ?_, Or.inr (List.mem_append_right _ (List.mem_singleton.2 rfl))⟩
      rw [hm.home] at hlj
      exact hlj
    | @ignored l j hl hj hlj hk' hml =>
      rw [hk'] at hk
      obtain rfl := Option.some.inj hk
      exact absurd hself hml
    | @adopted l x hl hx hne' hmaster hk' =>
      rw [hk'] at hk
      obtain rfl := Option.some.inj hk
      cases hop

theorem exec_crossed {as : List ℕ} (h : g.Exchange s) (hc : g.Crossed s) (hs : exec c.mergeStep s as = some s') :
    g.Exchange s' ∧ g.Crossed s' := by
  apply (Reaches.of_exec hs).invariant (P := fun s => g.Exchange s ∧ g.Crossed s) _ ⟨h, hc⟩
  rintro s k s' ⟨h, hc⟩ - he
  have hdelivered := step_delivered h he
  exact ⟨hdelivered.exchange h, fun m hm => hdelivered.answered_mono hm (hc m hm)⟩

theorem crossed_of_not_along {as : List ℕ} (h : g.Exchange s) (hn : ¬Along c.mergeStep g.OneSided s as)
    (hs : exec c.mergeStep s as = some s') : g.Exchange s' ∧ g.Crossed s' := by
  induction as generalizing s with
  | nil => exact absurd trivial hn
  | cons k as ih =>
    obtain ⟨t, ht, hrest⟩ := Option.bind_eq_some_iff.mp hs
    have hdelivered := step_delivered h ht
    by_cases ho : g.OneSided s k
    · apply ih (hdelivered.exchange h) _ hrest
      intro halong
      refine hn ⟨ho, ?_⟩
      intro t' ht'
      obtain rfl : t = t' := Option.some.inj (ht.symm.trans ht')
      exact halong
    · exact exec_crossed (hdelivered.exchange h) (hdelivered.crossed h ho) hrest

theorem run_merging (h : g.Meeting s) (hrun : Run c.mergeStep g.OneSided s s') :
    g.Exchange s' ∧ g.Progress s' ∧ ¬g.Crossed s' := by
  apply hrun.invariant (P := fun s => g.Exchange s ∧ g.Progress s ∧ ¬g.Crossed s) _
    ⟨exchange_of_meeting h, progress_of_meeting h, not_crossed_of_meeting h⟩
  rintro s k s' ⟨hexchange, hprogress, hcrossed⟩ ho he
  have hdelivered := step_delivered hexchange he
  exact ⟨hdelivered.exchange hexchange, hdelivered.progress hexchange hprogress, hdelivered.oneSided ho hcrossed⟩

theorem merged_iff {as : List ℕ} (h : g.Meeting s) (hs : exec c.mergeStep s as = some s') (hq : s'.net = []) :
    Merged c s' ↔ Along c.mergeStep g.OneSided s as := by
  constructor
  · intro hmerged
    by_contra hn
    obtain ⟨hexchange, hcrossed⟩ := crossed_of_not_along (exchange_of_meeting h) hn hs
    exact hcrossed.not_merged hexchange hq hmerged
  · intro halong
    obtain ⟨hexchange, hprogress, hcrossed⟩ := run_merging h (Run.of_along halong hs)
    by_cases hfirst : g.Answered s' g.first
    · have hsecond : ¬g.Answered s' g.second := by
        intro hsecond
        apply hcrossed
        rintro m (rfl | rfl)
        · exact hfirst
        · exact hsecond
      exact merged_of_not_answered hexchange hprogress hq (Or.inl rfl) (Or.inr rfl) g.first_ne_second.symm hsecond
    · exact merged_of_not_answered hexchange hprogress hq (Or.inr rfl) (Or.inl rfl) g.first_ne_second hfirst

def singles : TwoGroups Cluster.pair where
  first := 1
  second := 2
  home i := i
  first_mem := by simp [Cluster.pair]
  second_mem := by simp [Cluster.pair]
  first_ne_second := by decide
  home_first := rfl
  home_second := rfl
  home_eq := by simp [Cluster.pair]

def singlesMet : Network where
  nodes i := { CClusterElection.new with m_state := .finished, m_masterIp := i, m_controllerRole := .master }
  net := [singles.hello 1 2, singles.hello 2 1]

theorem singles_meeting : singles.Meeting singlesMet := by
  constructor
  · intro i _
    have hrole : (Cluster.pair.service i).roleFor (singles.home i) = .master := if_pos rfl
    rw [hrole]
    rfl
  · simp [singlesMet, Cluster.pair, singles]

def mergeView (s : Network) : List Envelope × UINT4 × UINT4 × ControllerRole × ControllerRole :=
  (s.net, (s.nodes 1).m_masterIp, (s.nodes 2).m_masterIp, (s.nodes 1).m_controllerRole, (s.nodes 2).m_controllerRole)

theorem singles_merged : ∃ s, exec Cluster.pair.mergeStep singlesMet [0, 1, 0] = some s ∧ s.net = [] ∧
    Merged Cluster.pair s ∧ Along Cluster.pair.mergeStep singles.OneSided singlesMet [0, 1, 0] := by
  have hrun : (exec Cluster.pair.mergeStep singlesMet [0, 1, 0]).map mergeView =
      some ([], 2, 2, .slave, .master) := by
    decide +kernel
  obtain ⟨s, hs, hview⟩ := Option.map_eq_some_iff.1 hrun
  simp only [mergeView, Prod.mk.injEq] at hview
  obtain ⟨hnet, h1, h2, hr1, hr2⟩ := hview
  have hmerged : Merged Cluster.pair s := ⟨2, by simp [Cluster.pair], hr2, by simp [Cluster.pair, h1, hr1]⟩
  exact ⟨s, hs, hnet, hmerged, (merged_iff singles_meeting hs hnet).1 hmerged⟩

theorem crossing_answers_leave_no_master : ∃ s,
    exec Cluster.pair.mergeStep singlesMet [0, 0, 0, 0] = some s ∧ s.net = [] ∧
    (s.nodes 1).m_controllerRole = .slave ∧ (s.nodes 2).m_controllerRole = .slave ∧ ¬Merged Cluster.pair s := by
  have hrun : (exec Cluster.pair.mergeStep singlesMet [0, 0, 0, 0]).map mergeView =
      some ([], 2, 1, .slave, .slave) := by
    decide +kernel
  obtain ⟨s, hs, hview⟩ := Option.map_eq_some_iff.1 hrun
  simp only [mergeView, Prod.mk.injEq] at hview
  obtain ⟨hnet, h1, h2, hr1, hr2⟩ := hview
  refine ⟨s, hs, hnet, hr1, hr2, ?_⟩
  simp [Merged, Cluster.pair, hr1, hr2]

end TwoGroups

end DCFabric
