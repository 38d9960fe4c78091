import DCFabric.ElectionAgreement

namespace DCFabric

open TransitionRuns

/-- The messages that can end the election at `i`. -/
def Envelope.Releases (env : Envelope) (i : UINT4) : Prop :=
  env.dst = i ∧ (env.itf.operation = .electionNotify ∨ env.itf.operation = .electionInform)

instance (env : Envelope) (i : UINT4) : Decidable (env.Releases i) := instDecidableAnd

namespace Cluster

def Releasable (c : Cluster) (s : Network) (net : List Envelope) (i : UINT4) : Prop :=
  (∃ j ∈ c.ips, (s.nodes j).m_timer = true) ∨ ∃ env ∈ net, env.Releases i

def PulledIn (s : Network) (env : Envelope) : Prop :=
  env.itf.operation = .electionProposal ∧
    ((s.nodes env.dst).m_state = .init ∨ (s.nodes env.dst).m_state = .finished)

def NotReleased (s : Network) (env : Envelope) : Prop :=
  env.itf.operation = .electionInform ∧ (s.nodes env.dst).m_state = .ongoing ∧
    (s.nodes env.dst).m_masterIp = env.itf.word0

def KeepsRelease (c : Cluster) (s : Network) : NetworkAction → Prop
  | .deliver k => ∀ env ∈ s.net[k]?, PulledIn s env ∨ NotReleased s env →
      c.Releasable s (s.net.eraseIdx k) env.dst
  | _ => True

-- The connections between two controllers keep the order of their messages.
def InOrder (s : Network) : NetworkAction → Prop
  | .deliver k => ∀ env ∈ s.net[k]?, ∀ env' ∈ s.net.take k, ¬(env'.src = env.src ∧ env'.dst = env.dst)
  | _ => True

def InformKeepsRelease (c : Cluster) (s : Network) : NetworkAction → Prop
  | .deliver k => ∀ env ∈ s.net[k]?, NotReleased s env → c.Releasable s (s.net.eraseIdx k) env.dst
  | _ => True

instance (c : Cluster) (s : Network) (net : List Envelope) (i : UINT4) : Decidable (c.Releasable s net i) :=
  @instDecidableOr _ _ Finset.decidableExistsAndFinset (List.decidableBEx _ net)

instance (s : Network) (env : Envelope) : Decidable (PulledIn s env) := instDecidableAnd

instance (s : Network) (env : Envelope) : Decidable (NotReleased s env) := instDecidableAnd

instance (c : Cluster) (s : Network) (a : NetworkAction) : Decidable (c.KeepsRelease s a) :=
  match a with
  | .deliver k => inferInstanceAs (Decidable (∀ env ∈ s.net[k]?, _))
  | .start _ => .isTrue trivial
  | .fire _ => .isTrue trivial

instance (s : Network) (a : NetworkAction) : Decidable (InOrder s a) :=
  match a with
  | .deliver k => inferInstanceAs (Decidable (∀ env ∈ s.net[k]?, ∀ env' ∈ s.net.take k, _))
  | .start _ => .isTrue trivial
  | .fire _ => .isTrue trivial

structure Timed (c : Cluster) (i : UINT4) (e : CClusterElection) : Prop where
  timing : e.m_timer = true ↔ e.m_state = .start
  proposing : e.m_state = .start → 0 < (c.service i).generateProposal0
  member : e.m_state ≠ .init → i ∈ c.ips
  untouched : e.m_state = .init → e = CClusterElection.new

structure Released (c : Cluster) (s : Network) : Prop where
  nodes : ∀ i, c.Timed i (s.nodes i)
  pending : ∀ i, (s.nodes i).m_state = .ongoing → c.Releasable s s.net i

variable {c : Cluster} {s s' : Network} {a : NetworkAction} {i j m : UINT4} {env : Envelope}

theorem initial_released (c : Cluster) : c.Released Network.initial := by
  constructor
  · intro i
    constructor <;> simp [Network.initial, CClusterElection.new]
  · simp [Network.initial, CClusterElection.new]

theorem notifies_release (hi : i ∈ c.ips) (hj : j ∈ c.ips) (hne : j ≠ i) :
    ∃ env ∈ c.notifies m i, env.Releases j := by
  refine ⟨⟨i, j, .election .electionNotify m⟩, ?_, rfl, Or.inl rfl⟩
  exact (mem_broadcast hi).2 ⟨rfl, hj, hne, rfl⟩

theorem informs_release (hi : i ∈ c.ips) (hj : j ∈ c.ips) (hne : j ≠ i) :
    ∃ env ∈ c.informs m i, env.Releases j := by
  refine ⟨⟨i, j, .election .electionInform m⟩, ?_, rfl, Or.inr rfl⟩
  exact (mem_broadcast hi).2 ⟨rfl, hj, hne, rfl⟩

theorem Releasable.put {net net' : List Envelope} {e : CClusterElection} (h : c.Releasable s net j)
    (htimer : (s.nodes i).m_timer = true → e.m_timer = true ∨ ∃ env ∈ net', env.Releases j)
    (hnet : ∀ env ∈ net, env.Releases j → env ∈ net') : c.Releasable (s.put i e net') net' j := by
  rcases h with ⟨l, hl, ht⟩ | ⟨env, henv, hr⟩
  · by_cases hli : l = i
    · subst hli
      rcases htimer ht with ht' | hr
      · exact Or.inl ⟨l, hl, by rw [put_nodes_self]; exact ht'⟩
      · exact Or.inr hr
    · exact Or.inl ⟨l, hl, by rw [put_nodes_ne e net' hli]; exact ht⟩
  · exact Or.inr ⟨env, hnet env henv hr, hr⟩

theorem put_released (h : c.Released s) {e : CClusterElection} {net : List Envelope}
    (he : c.Timed i { e with sent := [] })
    (hself : e.m_state = .ongoing → c.Releasable (s.put i e net) net i)
    (htimer : ∀ j, j ∈ c.ips → j ≠ i → (s.nodes i).m_timer = true → e.m_timer = true ∨ ∃ env ∈ net, env.Releases j)
    (hnet : ∀ env ∈ s.net, env.dst ≠ i → env ∈ net) : c.Released (s.put i e net) := by
  constructor
  · intro j
    by_cases hj : j = i
    · subst hj
      rw [put_nodes_self]
      exact he
    · rw [put_nodes_ne e net hj]
      exact h.nodes j
  · intro j ho
    by_cases hj : j = i
    · subst hj
      rw [put_nodes_self] at ho
      exact hself ho
    · rw [put_nodes_ne e net hj] at ho
      have hmem := (h.nodes j).member (by simp [ho])
      exact (h.pending j ho).put (htimer j hmem hj)
        (fun env henv hr => hnet env henv (fun hd => hj (hr.1.symm.trans hd)))

theorem Timed.unsent {e : CClusterElection} (h : c.Timed i e) : c.Timed i { e with sent := [] } := by
  refine ⟨h.timing, h.proposing, h.member, ?_⟩
  intro hs
  rw [h.untouched hs]
  rfl

theorem Timed.unarmed {e : CClusterElection} (h : c.Timed i e) (hs : e.m_state ≠ .start) : e.m_timer = false := by
  by_contra ht
  exact hs (h.timing.1 (Bool.not_eq_false _ ▸ ht))

theorem dst_mem (h : s.Agreed c m) {k : ℕ} {itf : ClusterInterface} (hk : s.net[k]? = some ⟨j, i, itf⟩) : i ∈ c.ips :=
  (h.net _ (List.mem_of_getElem? hk)).dst

theorem mem_eraseIdx_of_dst {k : ℕ} {itf : ClusterInterface} (hk : s.net[k]? = some ⟨j, i, itf⟩) :
    ∀ env ∈ s.net, env.dst ≠ i → env ∈ s.net.eraseIdx k := by
  intro env henv hd
  apply mem_eraseIdx_of_ne hk henv
  rintro rfl
  exact hd rfl

theorem Move.released (hagreed : s.Agreed c m) (h : c.Released s) (hkeep : c.KeepsRelease s a)
    (hs : c.Move m s a s') : c.Released s' := by
  cases hs with
  | @start i hi hp =>
    apply put_released h
    · constructor <;> simp [hp, hi]
    · simp
    · simp
    · intro env henv _
      exact List.mem_append_left _ henv
  | @alone i hi hp him =>
    apply put_released h
    · constructor <;> simp [hi]
    · simp
    · intro j _ _ ht
      exact absurd ((h.nodes i).proposing ((h.nodes i).timing.1 ht)) hp
    · exact fun env henv _ => henv
  | @fire i hi ht hf =>
    apply put_released h
    · constructor <;> simp [hi]
    · simp
    · intro j hj hne _
      obtain ⟨env, henv, hr⟩ := notifies_release (m := m) hi hj hne
      exact Or.inr ⟨env, List.mem_append_right _ henv, hr⟩
    · intro env henv _
      exact List.mem_append_left _ henv
  | @stale i hi ht hf =>
    have hstart := (h.nodes i).timing.1 ht
    rw [hf] at hstart
    cases hstart
  | @join k j i hk hj =>
    have ht : (s.nodes i).m_timer = false := by
      apply (h.nodes i).unarmed
      rcases hj with hj | hj <;> simp [hj]
    apply put_released h
    · constructor <;> simp [ht, dst_mem hagreed hk]
    · intro _
      apply (hkeep _ hk (Or.inl ⟨rfl, hj⟩)).put
      · exact Or.inl
      · exact fun env henv _ => henv
    · exact fun j _ _ ht => Or.inl ht
    · exact mem_eraseIdx_of_dst hk
  | @proposal k j i hk hj =>
    apply put_released h
    · exact (h.nodes i).unsent
    · intro ho
      apply (h.pending i ho).put
      · exact Or.inl
      · intro env henv hr
        apply mem_eraseIdx_of_ne hk henv
        rintro rfl
        rcases hr.2 with hop | hop <;> cases hop
    · exact fun j _ _ ht => Or.inl ht
    · exact mem_eraseIdx_of_dst hk
  | @notify k j i hi hk hf =>
    apply put_released h
    · constructor <;> simp [hi]
    · simp
    · intro j hj hne _
      obtain ⟨env, henv, hr⟩ := informs_release (m := m) hi hj hne
      exact Or.inr ⟨env, List.mem_append_right _ henv, hr⟩
    · intro env henv hd
      exact List.mem_append_left _ (mem_eraseIdx_of_dst hk env henv hd)
  | @notified k j i hk hf =>
    have ht := (h.nodes i).unarmed (by simp [hf])
    apply put_released h
    · constructor <;> simp [hf, dst_mem hagreed hk]
    · simp [hf]
    · intro j _ _ ht'
      rw [ht] at ht'
      cases ht'
    · exact mem_eraseIdx_of_dst hk
  | @inform k j i hk hm =>
    have hinit : (s.nodes i).m_state = .init := by
      by_contra hne
      exact hm ((hagreed.nodes i).proposed hne)
    have ht := (h.nodes i).unarmed (by simp [hinit])
    apply put_released h
    · constructor <;> simp [ht, dst_mem hagreed hk]
    · simp
    · exact fun j _ _ ht => Or.inl ht
    · exact mem_eraseIdx_of_dst hk
  | @informed k j i hk hm =>
    apply put_released h
    · exact (h.nodes i).unsent
    · intro ho
      apply (hkeep _ hk (Or.inr ⟨rfl, ho, hm⟩)).put
      · exact Or.inl
      · exact fun env henv _ => henv
    · exact fun j _ _ ht => Or.inl ht
    · exact mem_eraseIdx_of_dst hk

theorem run_agreed {C : Network → NetworkAction → Prop} (hm : c.Largest m) (h : Run c.step C Network.initial s) :
    s.Agreed c m := reachable_agreed hm (h.mono (fun _ _ _ => trivial))

theorem run_released (hm : c.Largest m) (h : Run c.step c.KeepsRelease Network.initial s) : c.Released s := by
  have hboth : s.Agreed c m ∧ c.Released s := by
    apply h.invariant (P := fun s => s.Agreed c m ∧ c.Released s) _ ⟨initial_agreed c m, initial_released c⟩
    rintro s a s' ⟨hagreed, hreleased⟩ hkeep he
    have hmove := step_move hm hagreed he
    exact ⟨hmove.agreed hagreed, hmove.released hagreed hreleased hkeep⟩
  exact hboth.2

def Quiet (c : Cluster) (s : Network) : Prop := s.net = [] ∧ ∀ i ∈ c.ips, (s.nodes i).m_timer = false

theorem Released.quiet (h : c.Released s) (hq : c.Quiet s) (hi : i ∈ c.ips) :
    (s.nodes i).m_state ≠ .start ∧ (s.nodes i).m_state ≠ .ongoing := by
  obtain ⟨hnet, htimer⟩ := hq
  constructor
  · intro hs
    have ht := (h.nodes i).timing.2 hs
    rw [htimer i hi] at ht
    cases ht
  · intro ho
    rcases h.pending i ho with ⟨j, hj, ht⟩ | ⟨env, henv, -⟩
    · rw [htimer j hj] at ht
      cases ht
    · rw [hnet] at henv
      cases henv

theorem quiet_election_finished (h : Run c.step c.KeepsRelease Network.initial s) (hq : c.Quiet s) (hi : i ∈ c.ips) :
    (s.nodes i).m_state = .finished ∨ s.nodes i = CClusterElection.new := by
  obtain ⟨m, hm⟩ := exists_largest hi
  have hreleased := run_released hm h
  obtain ⟨hstart, hongoing⟩ := hreleased.quiet hq hi
  have hwatching := ((run_agreed hm h).nodes i).unwatching
  cases hstate : (s.nodes i).m_state with
  | init => exact Or.inr ((hreleased.nodes i).untouched hstate)
  | start => exact absurd hstate hstart
  | ongoing => exact absurd hstate hongoing
  | watching => exact absurd hstate hwatching
  | finished => exact Or.inl rfl

def connection (net : List Envelope) (i j : UINT4) : List Envelope :=
  net.filter (fun env => env.src = i ∧ env.dst = j)

def Trailing (net : List Envelope) (i j : UINT4) : Prop :=
  ∀ env ∈ (connection net i j).getLast?, env.itf.operation ≠ .electionProposal

structure Followed (c : Cluster) (s : Network) : Prop where
  loopless : ∀ env ∈ s.net, env.src ≠ env.dst
  trailing : ∀ i, (s.nodes i).m_state ≠ .start → ∀ j ∈ c.ips, j ≠ i → Trailing s.net i j

theorem mem_connection {net : List Envelope} :
    env ∈ connection net i j ↔ env ∈ net ∧ env.src = i ∧ env.dst = j := by
  simp [connection]

theorem connection_head {net : List Envelope} {k : ℕ} (hk : net[k]? = some env)
    (ho : ∀ env' ∈ net.take k, ¬(env'.src = env.src ∧ env'.dst = env.dst)) :
    connection net env.src env.dst = env :: connection (net.eraseIdx k) env.src env.dst := by
  obtain ⟨hlt, he⟩ := List.getElem?_eq_some_iff.1 hk
  have hsplit : net = net.take k ++ env :: net.drop (k + 1) := by
    rw [← he, ← List.drop_eq_getElem_cons hlt, List.take_append_drop]
  have htake : (net.take k).filter (fun env' => env'.src = env.src ∧ env'.dst = env.dst) = [] := by
    apply List.filter_eq_nil_iff.2
    intro env' henv'
    simpa using ho env' henv'
  rw [connection, connection, List.eraseIdx_eq_take_drop_succ, List.filter_append, htake]
  conv_lhs => rw [hsplit, List.filter_append, htake]
  simp

theorem connection_other {net : List Envelope} {k : ℕ} (hk : net[k]? = some env)
    (hne : ¬(env.src = i ∧ env.dst = j)) : connection (net.eraseIdx k) i j = connection net i j := by
  obtain ⟨hlt, he⟩ := List.getElem?_eq_some_iff.1 hk
  have hsplit : net = net.take k ++ env :: net.drop (k + 1) := by
    rw [← he, ← List.drop_eq_getElem_cons hlt, List.take_append_drop]
  rw [connection, connection, List.eraseIdx_eq_take_drop_succ, List.filter_append]
  conv_rhs => rw [hsplit, List.filter_append]
  simp [hne]

theorem Trailing.eraseIdx {net : List Envelope} {k : ℕ} (h : Trailing net i j) (hk : net[k]? = some env)
    (ho : ∀ env' ∈ net.take k, ¬(env'.src = env.src ∧ env'.dst = env.dst)) : Trailing (net.eraseIdx k) i j := by
  by_cases hc : env.src = i ∧ env.dst = j
  · obtain ⟨rfl, rfl⟩ := hc
    intro env' henv'
    apply h env'
    rw [connection_head hk ho, List.getLast?_cons]
    rw [henv']
    rfl
  · rw [Trailing, connection_other hk hc]
    exact h

theorem connection_broadcast_ne {net : List Envelope} {itf : ClusterInterface} {l : UINT4} (hl : l ∈ c.ips)
    (hne : i ≠ l) :
    connection (net ++ c.broadcast l itf) i j = connection net i j := by
  rw [connection, connection, List.filter_append, List.append_right_eq_self]
  apply List.filter_eq_nil_iff.2
  intro env henv
  have hsrc := ((mem_broadcast hl).1 henv).1
  simp [hsrc, hne.symm]

theorem trailing_broadcast {net : List Envelope} {itf : ClusterInterface} (hi : i ∈ c.ips) (hj : j ∈ c.ips)
    (hne : j ≠ i)
    (hitf : itf.operation ≠ .electionProposal) : Trailing (net ++ c.broadcast i itf) i j := by
  intro env henv
  rw [connection, List.filter_append, List.getLast?_append] at henv
  cases hlast : ((c.broadcast i itf).filter (fun env => env.src = i ∧ env.dst = j)).getLast? with
  | none =>
    have hmem : (⟨i, j, itf⟩ : Envelope) ∈ c.broadcast i itf := (mem_broadcast hi).2 ⟨rfl, hj, hne, rfl⟩
    have hnil := List.filter_eq_nil_iff.1 (List.getLast?_eq_none_iff.1 hlast) _ hmem
    simp at hnil
  | some last =>
    rw [hlast] at henv
    obtain rfl : last = env := Option.some.inj henv
    have hmem := List.mem_filter.1 (List.mem_of_getLast? hlast)
    rw [((mem_broadcast hi).1 hmem.1).2.2.2]
    exact hitf

theorem initial_followed (c : Cluster) : c.Followed Network.initial := by
  constructor
  · simp [Network.initial]
  · simp [Network.initial, Trailing, connection]

theorem append_broadcast_loopless {net : List Envelope} {itf : ClusterInterface} (hi : i ∈ c.ips)
    (h : ∀ env ∈ net, env.src ≠ env.dst) : ∀ env ∈ net ++ c.broadcast i itf, env.src ≠ env.dst := by
  intro env henv
  rcases List.mem_append.1 henv with henv | henv
  · exact h env henv
  · obtain ⟨rfl, -, hne, -⟩ := (mem_broadcast hi).1 henv
    exact hne.symm

theorem put_followed {e : CClusterElection} {net : List Envelope} (h : c.Followed s)
    (hloop : ∀ env ∈ net, env.src ≠ env.dst)
    (hself : e.m_state ≠ .start → ∀ j ∈ c.ips, j ≠ i → Trailing net i j)
    (hothers : ∀ l ≠ i, ∀ j, Trailing s.net l j → Trailing net l j) : c.Followed (s.put i e net) := by
  refine ⟨hloop, ?_⟩
  intro l hl j hj hne
  by_cases hli : l = i
  · subst hli
    rw [put_nodes_self] at hl
    exact hself hl j hj hne
  · rw [put_nodes_ne e net hli] at hl
    exact hothers l hli j (h.trailing l hl j hj hne)

theorem put_followed_eraseIdx {e : CClusterElection} {k : ℕ} (h : c.Followed s) (hk : s.net[k]? = some env)
    (ho : ∀ env' ∈ s.net.take k, ¬(env'.src = env.src ∧ env'.dst = env.dst))
    (hself : e.m_state ≠ .start → (s.nodes i).m_state ≠ .start) : c.Followed (s.put i e (s.net.eraseIdx k)) := by
  apply put_followed h
  · exact fun env henv => h.loopless env (List.mem_of_mem_eraseIdx henv)
  · exact fun he j hj hne => (h.trailing i (hself he) j hj hne).eraseIdx hk ho
  · exact fun l _ j ht => ht.eraseIdx hk ho

theorem Move.followed (hagreed : s.Agreed c m) (h : c.Followed s) (hreleased : c.Released s) (ho : InOrder s a)
    (hs : c.Move m s a s') : c.Followed s' := by
  cases hs with
  | @start i hi hp =>
    apply put_followed h
    · exact append_broadcast_loopless hi h.loopless
    · simp
    · intro l hl j ht
      rw [Trailing, proposals, connection_broadcast_ne hi hl]
      exact ht
  | @alone i hi hp him =>
    apply put_followed h
    · exact h.loopless
    · intro _ j hj hne
      exact h.trailing i (fun hstart => hp ((hreleased.nodes i).proposing hstart)) j hj hne
    · exact fun l _ j ht => ht
  | @fire i hi ht hf =>
    apply put_followed h
    · exact append_broadcast_loopless hi h.loopless
    · intro _ j hj hne
      apply trailing_broadcast hi hj hne
      rintro ⟨⟩
    · intro l hl j ht
      rw [Trailing, notifies, connection_broadcast_ne hi hl]
      exact ht
  | @stale i hi ht hf =>
    apply put_followed h
    · exact h.loopless
    · intro he j hj hne
      exact h.trailing i he j hj hne
    · exact fun l _ j ht => ht
  | @join k j i hk hj =>
    apply put_followed_eraseIdx h hk (ho _ hk)
    rintro - hstart
    rcases hj with hj | hj <;> simp [hj] at hstart
  | @proposal k j i hk hj => exact put_followed_eraseIdx h hk (ho _ hk) id
  | @notify k j i hi hk hf =>
    apply put_followed h
    · exact append_broadcast_loopless hi (fun env henv => h.loopless env (List.mem_of_mem_eraseIdx henv))
    · intro _ j hj hne
      apply trailing_broadcast hi hj hne
      rintro ⟨⟩
    · intro l hl j ht
      rw [Trailing, informs, connection_broadcast_ne hi hl]
      exact ht.eraseIdx hk (ho _ hk)
  | @notified k j i hk hf => exact put_followed_eraseIdx h hk (ho _ hk) id
  | @inform k j i hk hm =>
    apply put_followed_eraseIdx h hk (ho _ hk)
    intro _ hstart
    exact hm ((hagreed.nodes i).proposed (by simp [hstart]))
  | @informed k j i hk hm => exact put_followed_eraseIdx h hk (ho _ hk) id

/-- On connections that keep the order only an inform can leave a controller without release. -/
theorem pulledIn_releasable (hagreed : s.Agreed c m) (hreleased : c.Released s) (h : c.Followed s) {k : ℕ}
    (hk : s.net[k]? = some env) (ho : ∀ env' ∈ s.net.take k, ¬(env'.src = env.src ∧ env'.dst = env.dst))
    (hp : env.itf.operation = .electionProposal) : c.Releasable s (s.net.eraseIdx k) env.dst := by
  have henv := List.mem_of_getElem? hk
  have hsrc := (hagreed.net env henv).src
  by_cases hstart : (s.nodes env.src).m_state = .start
  · exact Or.inl ⟨env.src, hsrc, (hreleased.nodes env.src).timing.2 hstart⟩
  · have htrail := h.trailing env.src hstart env.dst (hagreed.net env henv).dst (h.loopless env henv).symm
    rw [Trailing, connection_head hk ho] at htrail
    cases hlast : (connection (s.net.eraseIdx k) env.src env.dst).getLast? with
    | none =>
      rw [List.getLast?_eq_none_iff.1 hlast] at htrail
      exact absurd hp (htrail env rfl)
    | some last =>
      obtain ⟨hmem, -, hdst⟩ := mem_connection.1 (List.mem_of_getLast? hlast)
      have hnot : last.itf.operation ≠ .electionProposal := by
        apply htrail last
        rw [List.getLast?_cons, hlast]
        rfl
      obtain ⟨-, -, op, hop, hitf⟩ := eraseIdx_agreed hagreed k last hmem
      refine Or.inr ⟨last, hmem, hdst, ?_⟩
      rw [hitf] at hnot ⊢
      exact hop.resolve_left hnot

theorem keepsRelease_of_inOrder (hm : c.Largest m)
    (h : Run c.step (fun s a => InOrder s a ∧ c.InformKeepsRelease s a) Network.initial s) :
    Run c.step c.KeepsRelease Network.initial s ∧ c.Followed s := by
  induction h with
  | refl => exact ⟨.refl, initial_followed c⟩
  | @tail t u a run hc he ih =>
    obtain ⟨hrun, hfollowed⟩ := ih
    obtain ⟨ho, hinform⟩ := hc
    have hagreed := run_agreed hm hrun
    have hreleased := run_released hm hrun
    have hkeep : c.KeepsRelease t a := by
      cases a with
      | deliver k =>
        rintro env hk (hp | hn)
        · exact pulledIn_releasable hagreed hreleased hfollowed hk (ho env hk) hp.1
        · exact hinform env hk hn
      | start i => trivial
      | fire i => trivial
    exact ⟨hrun.tail hkeep he, (step_move hm hagreed he).followed hagreed hfollowed hreleased ho⟩

theorem inOrder_election_finished
    (h : Run c.step (fun s a => InOrder s a ∧ c.InformKeepsRelease s a) Network.initial s) (hq : c.Quiet s)
    (hi : i ∈ c.ips) : (s.nodes i).m_state = .finished ∨ s.nodes i = CClusterElection.new := by
  obtain ⟨m, hm⟩ := exists_largest hi
  exact quiet_election_finished (keepsRelease_of_inOrder hm h).1 hq hi

def strandingElection : List NetworkAction :=
  [.start 1, .start 2, .fire 1, .deliver 0, .deliver 1, .deliver 0, .deliver 0]

theorem late_proposal_strands : ∃ s, Run pair.step InOrder Network.initial s ∧ pair.Quiet s ∧
    (s.nodes 1).m_state = .ongoing := by
  have hrun : (exec (guarded pair.step InOrder) Network.initial strandingElection).map
      (fun s => (s.net, (s.nodes 1).m_timer, (s.nodes 2).m_timer, (s.nodes 1).m_state)) =
        some ([], false, false, .ongoing) := by
    decide +kernel
  obtain ⟨s, hs, hview⟩ := Option.map_eq_some_iff.1 hrun
  simp only [Prod.mk.injEq] at hview
  obtain ⟨hnet, h1, h2, hstate⟩ := hview
  refine ⟨s, Run.of_exec hs, ⟨hnet, ?_⟩, hstate⟩
  simp [pair, h1, h2]

theorem pair_election_finished : ∃ s, Run pair.step pair.KeepsRelease Network.initial s ∧
    (s.nodes 1).m_state = .finished ∧ ((s.nodes 2).m_state = .finished ∨ s.nodes 2 = CClusterElection.new) := by
  have hrun : (exec (guarded pair.step pair.KeepsRelease) Network.initial pairElection).map
      (fun s => (s.net, (s.nodes 1).m_timer, (s.nodes 2).m_timer, (s.nodes 1).m_state)) =
        some ([], false, false, .finished) := by
    decide +kernel
  obtain ⟨s, hs, hview⟩ := Option.map_eq_some_iff.1 hrun
  simp only [Prod.mk.injEq] at hview
  obtain ⟨hnet, h1, h2, hstate⟩ := hview
  have hq : pair.Quiet s := ⟨hnet, by simp [pair, h1, h2]⟩
  exact ⟨s, Run.of_exec hs, hstate, quiet_election_finished (Run.of_exec hs) hq (by simp [pair])⟩

end Cluster

end DCFabric
