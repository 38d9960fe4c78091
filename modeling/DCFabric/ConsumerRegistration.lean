import DCFabric.MsgQueueRaces

namespace DCFabric

open TransitionRuns
open SharedQueues (limit isRealtime)

/-- Where a `CMsgTreeNode::pushMsg` is: before the push to the retained queues, before the loop over the consumers, or
in the loop, which may pass by a consumer that was not there when it began. -/
inductive NodePoint where
  | retain
  | consumers
  | looping
  | reached
  | returned
deriving DecidableEq

/-- A `pushMsg`. It is late if the queues of the new consumer had been created when it was called. -/
structure NodePush where
  msg : CMsgCommon
  late : Bool
  point : NodePoint
deriving DecidableEq

/-- Where `registerConsumer` is, with the keys that `distribute` has to come by and those it has seen. -/
inductive RegisterPoint where
  | absent
  | created
  | distributing (todo seen : List CMsgKey)
  | inserting (todo seen : List CMsgKey) (key : CMsgKey) (queue : CMsgQueue ℕ)
  | registered
deriving DecidableEq

/-- A node with a consumer that registers. A message is the number of the call that pushes it. -/
structure RegisteringNode where
  m_prodQueues : CMsgKey → Option (CMsgQueue ℕ)
  consumer : CMsgKey → Option (CMsgQueue ℕ)
  point : RegisterPoint
  calls : List NodePush
  -- the messages that were retained when the consumer's queues were created
  retainedFirst : List ℕ
  -- what came to the consumer, by a push or with the copy of a queue
  received : List ℕ
  leftOut : List ℕ
  popped : List ℕ

inductive RegisterAction where
  | pushMsg (msg : CMsgCommon)
  | retain (k : ℕ) (now : Timeval)
  | loop (k : ℕ)
  | pass (k : ℕ)
  | deliver (k : ℕ) (now : Timeval)
  | createQueues
  | distribute
  | copy (key : CMsgKey)
  | insert
  | finish
  | popMsg (key : CMsgKey)

namespace RegisteringNode

def start : RegisteringNode := ⟨fun _ => none, fun _ => none, .absent, [], [], [], [], []⟩

/-- `CMsgQueues::pushMsg` for the queue of the key, with the messages that it leaves out. -/
def pushTo (path : CMsgPath) (holdNumber : ℕ) (queue : Option (CMsgQueue ℕ)) (msg : CMsgCommon) (k : ℕ)
    (now : Timeval) : CMsgQueue ℕ × List ℕ :=
  let queue := queue.getD (.allocQueue path msg.m_key)
  if msg.m_oper = .other || isRealtime msg && queue.m_queue ≠ [] then (queue, [k])
  else
    match queue.push now k, limit holdNumber msg with
    | (false, queue), _ => (queue, [k])
    | (true, queue), none => (queue, [])
    | (true, queue), some n =>
      if !isRealtime msg && queue.m_queue.length > n then (queue.pop.2, queue.pop.1.toList) else (queue, [])

def key? (s : RegisteringNode) (k : ℕ) : Option CMsgKey := s.calls[k]?.map (·.msg.m_key)

/-- The message is in the retained queue of its key. -/
def retains (s : RegisteringNode) (k : ℕ) : Bool := ((s.key? k).bind s.m_prodQueues).any fun queue => k ∈ queue.m_queue

def goto (s : RegisteringNode) (k : ℕ) (call : NodePush) (point : NodePoint) : RegisteringNode :=
  { s with calls := s.calls.set k { call with point } }

/-- The push to the new consumer. -/
def delivered (path : CMsgPath) (holdNumber : ℕ) (s : RegisteringNode) (k : ℕ) (call : NodePush) (now : Timeval) :
    RegisteringNode :=
  let pushed := pushTo path holdNumber (s.consumer call.msg.m_key) call.msg k now
  { s.goto k call .returned with
    consumer := Function.update s.consumer call.msg.m_key (some pushed.1)
    received := k :: s.received
    leftOut := pushed.2 ++ s.leftOut }

/-- The entry of the consumer's map that `distribute` puts in. -/
def inserted (s : RegisteringNode) (todo seen : List CMsgKey) (key : CMsgKey) (queue : CMsgQueue ℕ) : RegisteringNode :=
  { s with
    consumer := Function.update s.consumer key (some queue)
    point := .distributing todo seen
    received := queue.m_queue ++ s.received }

/-- A pop by a worker of the consumer. -/
def taken (s : RegisteringNode) (key : CMsgKey) (queue : CMsgQueue ℕ) : RegisteringNode :=
  { s with
    consumer := Function.update s.consumer key (some queue.pop.2)
    popped := queue.pop.1.toList ++ s.popped }

def advance (path : CMsgPath) (holdNumber : ℕ) (s : RegisteringNode) (k : ℕ) (call : NodePush) :
    RegisterAction → Option RegisteringNode
  | .retain _ now =>
    if call.point = .retain then
      some { s.goto k call .consumers with
        m_prodQueues := Function.update s.m_prodQueues call.msg.m_key
          (some (pushTo path holdNumber (s.m_prodQueues call.msg.m_key) call.msg k now).1) }
    else none
  | .loop _ =>
    if call.point = .consumers then some (s.goto k call (if s.point = .absent then .looping else .reached)) else none
  | .pass _ => if call.point = .looping then some (s.goto k call .returned) else none
  | .deliver _ now =>
    if call.point = .reached ∨ call.point = .looping ∧ s.point ≠ .absent then
      some (s.delivered path holdNumber k call now)
    else none
  | _ => none

def step (path : CMsgPath) (holdNumber : ℕ) (s : RegisteringNode) : RegisterAction → Option RegisteringNode
  | .pushMsg msg =>
    let point : NodePoint := if msg.m_oper = .hold ∨ msg.m_oper = .override then .retain else .consumers
    some { s with calls := s.calls ++ [⟨msg, s.point ≠ .absent, point⟩] }
  | .retain k now => s.calls[k]?.bind fun call => s.advance path holdNumber k call (.retain k now)
  | .loop k => s.calls[k]?.bind fun call => s.advance path holdNumber k call (.loop k)
  | .pass k => s.calls[k]?.bind fun call => s.advance path holdNumber k call (.pass k)
  | .deliver k now => s.calls[k]?.bind fun call => s.advance path holdNumber k call (.deliver k now)
  | .createQueues =>
    if s.point = .absent then
      some { s with point := .created, retainedFirst := (List.range s.calls.length).filter s.retains }
    else none
  | .distribute =>
    if s.point = .created then
      let keys := (s.calls.map (·.msg.m_key)).filter fun key => (s.m_prodQueues key).isSome
      some { s with point := .distributing keys [] }
    else none
  | .copy key =>
    match s.point with
    | .distributing todo seen =>
      if key ∈ seen then none
      else
        match s.m_prodQueues key with
        | none => none
        | some queue =>
          if queue.m_queue = [] then some { s with point := .distributing todo (key :: seen) }
          else some { s with point := .inserting todo (key :: seen) key queue.copy }
    | _ => none
  | .insert =>
    match s.point with
    | .inserting todo seen key queue => some (s.inserted todo seen key queue)
    | _ => none
  | .finish =>
    match s.point with
    | .distributing todo seen => if ∀ key ∈ todo, key ∈ seen then some { s with point := .registered } else none
    | _ => none
  | .popMsg key => (s.consumer key).map fun queue => s.taken key queue

/-- How often the message is in the consumer's queue of its key. -/
def waiting (s : RegisteringNode) (k : ℕ) : ℕ :=
  ((s.key? k).bind s.consumer).elim 0 fun queue => queue.m_queue.count k

/-- How often the consumer has the message: in its queue, left out by the rule of its operation, or handed to a
worker. -/
def occurrences (s : RegisteringNode) (k : ℕ) : ℕ := s.waiting k + s.leftOut.count k + s.popped.count k

/-- What came to the consumer it has once, and what was pushed since its queues were created came to it, as did what was
retained then and still is when it is registered. -/
structure ExactlyOnce (s : RegisteringNode) : Prop where
  once : ∀ k, s.occurrences k = if k ∈ s.received then 1 else 0
  home : ∀ key queue k, s.consumer key = some queue → k ∈ queue.m_queue → s.key? k = some key
  late : ∀ (k : ℕ) (call : NodePush), s.calls[k]? = some call → call.late → call.point = .returned → k ∈ s.received
  retained : s.point = .registered → ∀ k ∈ s.retainedFirst, s.retains k → k ∈ s.received

/-- A push comes to the new consumer before a copy of the queue with the message does, and a copy has all messages of
the queue it replaces and none that the consumer has done with. -/
def Apart (s : RegisteringNode) : RegisterAction → Prop
  | .deliver k _ => k ∉ s.received
  | .insert => ∀ todo seen key queue, s.point = .inserting todo seen key queue →
    (∀ old, s.consumer key = some old → ∀ k ∈ old.m_queue, k ∈ queue.m_queue) ∧
      ∀ k ∈ queue.m_queue, k ∉ s.leftOut ∧ k ∉ s.popped
  | _ => True

variable {path : CMsgPath} {holdNumber k j : ℕ} {s s' : RegisteringNode} {queue : Option (CMsgQueue ℕ)} {now : Timeval}
  {msg : CMsgCommon} {call : NodePush} {a : RegisterAction} {key : CMsgKey}

/-- A push puts the message into the queue or leaves one out. -/
theorem count_pushTo (path : CMsgPath) (holdNumber : ℕ) (queue : Option (CMsgQueue ℕ)) (msg : CMsgCommon) (k : ℕ)
    (now : Timeval) (j : ℕ) : (pushTo path holdNumber queue msg k now).1.m_queue.count j +
    (pushTo path holdNumber queue msg k now).2.count j =
      queue.elim 0 (fun queue => queue.m_queue.count j) + if j = k then 1 else 0 := by
  have hold : (queue.getD (.allocQueue path msg.m_key)).m_queue.count j =
      queue.elim 0 fun queue => queue.m_queue.count j := by
    cases queue <;> rfl
  have hk : [k].count j = if j = k then 1 else 0 := by
    by_cases hjk : j = k
    · rw [hjk, if_pos rfl, List.count_singleton_self]
    · rw [if_neg hjk, List.count_eq_zero]
      simpa using hjk
  rw [← hold, ← hk, pushTo]
  generalize queue.getD (.allocQueue path msg.m_key) = q
  split_ifs
  · rfl
  · rcases q.push_cases now k with ⟨hret, hq⟩ | ⟨hret, hq⟩
    all_goals
      generalize q.push now k = r at hret hq
      obtain ⟨ret, q'⟩ := r
      dsimp only at hret hq
      subst hret
    · cases limit holdNumber msg with
      | none => simp [hq]
      | some n =>
        dsimp only
        split_ifs
        · rw [← List.count_append, ← List.count_append, ← hq]
          cases hl : q'.m_queue with
          | nil => simp [CMsgQueue.pop, hl]
          | cons x xs => simp [CMsgQueue.pop, hl, List.count_cons]
        · simp [hq]
    · simp [hq]

theorem mem_pushTo (h : j ∈ (pushTo path holdNumber queue msg k now).1.m_queue) :
    j = k ∨ ∃ q, queue = some q ∧ j ∈ q.m_queue := by
  have hcount := count_pushTo path holdNumber queue msg k now j
  by_cases hjk : j = k
  · exact .inl hjk
  · right
    rw [if_neg hjk] at hcount
    have hpos := List.count_pos_iff.mpr h
    cases queue with
    | none =>
      simp only [Option.elim_none] at hcount
      omega
    | some q =>
      simp only [Option.elim_some] at hcount
      exact ⟨q, rfl, List.count_pos_iff.mp (by omega)⟩

/-- Messages of one key that were pushed to its retained queue. -/
def Retained (s : RegisteringNode) (key : CMsgKey) (messages : List ℕ) : Prop :=
  messages.Nodup ∧ ∀ k ∈ messages, ∃ call : NodePush, s.calls[k]? = some call ∧ call.msg.m_key = key ∧
    call.point ≠ .retain

/-- Calls stay where they were or go on. -/
def Moves (s s' : RegisteringNode) : Prop :=
  ∀ (k : ℕ) (call : NodePush), s.calls[k]? = some call →
    ∃ call' : NodePush, s'.calls[k]? = some call' ∧ call'.msg = call.msg ∧
      (call.point ≠ .retain → call'.point ≠ .retain)

/-- What was retained at first and still is has come to the consumer with the queues that were copied, and the others
are still to be seen. -/
def Covered (s : RegisteringNode) : Prop :=
  ∀ k ∈ s.retainedFirst, s.retains k → ∀ key, s.key? k = some key →
    match s.point with
    | .absent | .created => True
    | .distributing todo seen => key ∈ todo ∧ (key ∈ seen → k ∈ s.received)
    | .inserting todo seen key' queue => key ∈ todo ∧ (key ∈ seen → k ∈ s.received ∨ key = key' ∧ k ∈ queue.m_queue)
    | .registered => k ∈ s.received

structure Inv (s : RegisteringNode) : Prop where
  once : ∀ k, s.occurrences k = if k ∈ s.received then 1 else 0
  home : ∀ key queue k, s.consumer key = some queue → k ∈ queue.m_queue → s.key? k = some key
  late : ∀ (k : ℕ) (call : NodePush), s.calls[k]? = some call → call.late →
    s.point ≠ .absent ∧ call.point ≠ .looping ∧ (call.point = .returned → k ∈ s.received)
  queued : ∀ key queue, s.m_prodQueues key = some queue → s.Retained key queue.m_queue
  copied : ∀ todo seen key queue, s.point = .inserting todo seen key queue → s.Retained key queue.m_queue
  first : ∀ k ∈ s.retainedFirst, ∃ call : NodePush, s.calls[k]? = some call ∧ call.point ≠ .retain
  covered : s.Covered

theorem start_inv : Inv start where
  once _ := rfl
  home := nofun
  late _ _ hk := by cases hk
  queued := nofun
  copied := nofun
  first := nofun
  covered := nofun

theorem Retained.moves {messages : List ℕ} (h : s.Retained key messages) (hm : s.Moves s') :
    s'.Retained key messages := by
  refine ⟨h.1, fun k hk => ?_⟩
  obtain ⟨call, hcall, hkey, hpoint⟩ := h.2 k hk
  obtain ⟨call', hcall', hmsg, hpoint'⟩ := hm k call hcall
  exact ⟨call', hcall', hmsg ▸ hkey, hpoint' hpoint⟩

theorem moves_goto {point : NodePoint} (hk : s.calls[k]? = some call) (hpoint : point ≠ .retain) :
    s.Moves (s.goto k call point) := by
  intro j c hj
  rw [goto, List.getElem?_set]
  split_ifs with hjk hlt
  · subst hjk
    obtain rfl := Option.some.inj (hk.symm.trans hj)
    exact ⟨_, rfl, rfl, fun _ => hpoint⟩
  · exact absurd (List.getElem?_eq_some_iff.mp hk).1 hlt
  · exact ⟨c, hj, rfl, id⟩

theorem key?_goto {point : NodePoint} (hk : s.calls[k]? = some call) (j : ℕ) :
    (s.goto k call point).key? j = s.key? j := by
  rw [key?, key?, goto, List.getElem?_set]
  split_ifs with hjk hlt
  · subst hjk
    rw [hk]
    rfl
  · exact absurd (List.getElem?_eq_some_iff.mp hk).1 hlt
  · rfl

theorem getElem?_goto {point : NodePoint} {c : NodePush} (hj : (s.goto k call point).calls[j]? = some c) :
    j = k ∧ c = { call with point } ∨ j ≠ k ∧ s.calls[j]? = some c := by
  rw [goto, List.getElem?_set] at hj
  split_ifs at hj with hkj hlt
  · exact .inl ⟨hkj.symm, (Option.some.inj hj).symm⟩
  · exact .inr ⟨Ne.symm hkj, hj⟩

theorem retains_iff : s.retains k ↔
    ∃ key queue, s.key? k = some key ∧ s.m_prodQueues key = some queue ∧ k ∈ queue.m_queue := by
  rw [retains]
  cases hkey : s.key? k with
  | none => simp
  | some key =>
    cases hqueue : s.m_prodQueues key with
    | none => simp [hqueue]
    | some queue => simp [hqueue]

theorem waiting_of_key {q : CMsgQueue ℕ} (hkey : s.key? k = some key) (hq : s.consumer key = some q) :
    s.waiting k = q.m_queue.count k := by
  rw [waiting, hkey, Option.bind_some, hq]
  rfl

theorem Inv.pushMsg (h : s.Inv) (msg : CMsgCommon) (point : NodePoint) (hpoint : point = .retain ∨ point = .consumers) :
    Inv { s with calls := s.calls ++ [⟨msg, s.point ≠ .absent, point⟩] } := by
  have hold (k : ℕ) (call : NodePush) (hk : s.calls[k]? = some call) :
      (s.calls ++ [(⟨msg, s.point ≠ .absent, point⟩ : NodePush)])[k]? = some call := by
    rw [List.getElem?_append_left (List.getElem?_eq_some_iff.mp hk).1]
    exact hk
  have hmoves : s.Moves { s with calls := s.calls ++ [⟨msg, s.point ≠ .absent, point⟩] } :=
    fun k call hk => ⟨call, hold k call hk, rfl, id⟩
  have hkey (k : ℕ) (key : CMsgKey) (hk : s.key? k = some key) :
      key? { s with calls := s.calls ++ [⟨msg, s.point ≠ .absent, point⟩] } k = some key := by
    obtain ⟨call, hcall, hmsg⟩ := Option.map_eq_some_iff.mp hk
    rw [key?, hold k call hcall, Option.map_some, hmsg]
  -- a new message has come to no queue yet
  have hwaiting (k : ℕ) : waiting { s with calls := s.calls ++ [⟨msg, s.point ≠ .absent, point⟩] } k = s.waiting k := by
    cases hk : s.key? k with
    | some key => rw [waiting, waiting, hkey k key hk, hk]
    | none =>
      rw [waiting, waiting, hk]
      cases hk' : key? { s with calls := s.calls ++ [⟨msg, s.point ≠ .absent, point⟩] } k with
      | none => rfl
      | some key =>
        rw [Option.bind_some, Option.bind_none]
        cases hq : s.consumer key with
        | none => rfl
        | some queue =>
          rw [Option.elim_some, Option.elim_none, List.count_eq_zero]
          intro hmem
          rw [h.home key queue k hq hmem] at hk
          cases hk
  refine ⟨fun k => ?_, fun key queue k hq hk => hkey k key (h.home key queue k hq hk), fun k call hk hlate => ?_,
    fun key queue hq => (h.queued key queue hq).moves hmoves,
    fun todo seen key queue hp => (h.copied todo seen key queue hp).moves hmoves, fun k hk => ?_,
      fun k hk hret key hkey' => ?_⟩
  · rw [occurrences, hwaiting]
    exact h.once k
  · dsimp only at hk
    rw [List.getElem?_append] at hk
    split_ifs at hk
    · exact h.late k call hk hlate
    · obtain rfl := List.mem_singleton.mp (List.mem_of_getElem? hk)
      refine ⟨of_decide_eq_true hlate, ?_, ?_⟩ <;> rcases hpoint with rfl | rfl <;> nofun
  · obtain ⟨call, hcall, hpoint⟩ := h.first k hk
    exact ⟨call, hold k call hcall, hpoint⟩
  · obtain ⟨call, hcall, -⟩ := h.first k hk
    have hold' : s.key? k = some call.msg.m_key := by rw [key?, hcall, Option.map_some]
    have hsame := hkey k _ hold'
    rw [hkey'] at hsame
    obtain rfl := Option.some.inj hsame
    apply h.covered k hk _ _ hold'
    rw [retains_iff] at hret ⊢
    obtain ⟨key', queue, hk', hq, hmem⟩ := hret
    rw [hkey'] at hk'
    obtain rfl := Option.some.inj hk'
    exact ⟨_, queue, hold', hq, hmem⟩

/-- A call goes on without a push. -/
theorem Inv.goto {point : NodePoint} (h : s.Inv) (hk : s.calls[k]? = some call) (hpoint : point ≠ .retain)
    (hlate : call.late → point ≠ .looping ∧ point ≠ .returned) : Inv (s.goto k call point) where
  once j := by
    rw [occurrences, waiting, key?_goto hk]
    exact h.once j
  home key queue j hq hj := by
    rw [key?_goto hk]
    exact h.home key queue j hq hj
  late j c hj hc := by
    rcases getElem?_goto hj with ⟨rfl, rfl⟩ | ⟨-, hj⟩
    · exact ⟨(h.late _ call hk hc).1, (hlate hc).1, fun hret => absurd hret (hlate hc).2⟩
    · exact h.late j c hj hc
  queued key queue hq := (h.queued key queue hq).moves (moves_goto hk hpoint)
  copied todo seen key queue hp := (h.copied todo seen key queue hp).moves (moves_goto hk hpoint)
  first j hj := by
    obtain ⟨c, hc, hcp⟩ := h.first j hj
    obtain ⟨c', hc', -, hcp'⟩ := moves_goto hk hpoint j c hc
    exact ⟨c', hc', hcp' hcp⟩
  covered j hj hret key hkey := by
    rw [key?_goto hk] at hkey
    refine h.covered j hj ?_ key hkey
    rw [retains_iff] at hret ⊢
    simp only [key?_goto hk] at hret
    exact hret

theorem Inv.retain (h : s.Inv) (hk : s.calls[k]? = some call) (hpoint : call.point = .retain) :
    Inv { s.goto k call .consumers with
      m_prodQueues := Function.update s.m_prodQueues call.msg.m_key
        (some (pushTo path holdNumber (s.m_prodQueues call.msg.m_key) call.msg k now).1) } := by
  have hgoto : Inv (s.goto k call .consumers) := h.goto hk nofun fun _ => ⟨nofun, nofun⟩
  have hkey : (s.goto k call .consumers).key? k = some call.msg.m_key := by
    rw [key?_goto hk, key?, hk]
    rfl
  have hself : (s.goto k call .consumers).calls[k]? = some { call with point := .consumers } := by
    rw [RegisteringNode.goto, List.getElem?_set_self]
    exact (List.getElem?_eq_some_iff.mp hk).1
  -- the message is in no retained queue yet
  have hfresh (q : CMsgQueue ℕ) (hq : s.m_prodQueues call.msg.m_key = some q) : k ∉ q.m_queue := by
    intro hmem
    obtain ⟨c, hc, -, hcp⟩ := (h.queued _ q hq).2 k hmem
    rw [hk] at hc
    obtain rfl := Option.some.inj hc
    exact hcp hpoint
  refine ⟨hgoto.once, hgoto.home, hgoto.late, fun key queue hq => ?_, hgoto.copied, hgoto.first,
    fun j hj hret key hkey' => ?_⟩
  · dsimp only at hq
    rw [Function.update_apply] at hq
    split_ifs at hq with hkk
    · obtain rfl := Option.some.inj hq
      refine ⟨List.nodup_iff_count_le_one.mpr fun j => ?_, fun j hj => ?_⟩
      · have hcount := count_pushTo path holdNumber (s.m_prodQueues call.msg.m_key) call.msg k now j
        cases hq' : s.m_prodQueues call.msg.m_key with
        | none =>
          rw [hq', Option.elim_none] at hcount
          split_ifs at hcount <;> omega
        | some q =>
          rw [hq', Option.elim_some] at hcount
          have hle := List.nodup_iff_count_le_one.mp (h.queued _ q hq').1 j
          split_ifs at hcount with hjk
          · rw [hjk, List.count_eq_zero_of_not_mem (hfresh q hq')] at hcount
            rw [hjk]
            omega
          · omega
      · rcases mem_pushTo hj with rfl | ⟨q, hq', hmem⟩
        · exact ⟨_, hself, hkk.symm, nofun⟩
        · obtain ⟨c, hc, hckey, hcp⟩ := (hgoto.queued _ q hq').2 j hmem
          exact ⟨c, hc, hckey.trans hkk.symm, hcp⟩
    · exact hgoto.queued key queue hq
  · refine hgoto.covered j hj ?_ key hkey'
    have hne : j ≠ k := by
      rintro rfl
      obtain ⟨c, hc, hcp⟩ := h.first j hj
      rw [hk] at hc
      obtain rfl := Option.some.inj hc
      exact hcp hpoint
    rw [retains_iff] at hret ⊢
    obtain ⟨key', queue, hk', hq, hmem⟩ := hret
    dsimp only at hq
    rw [Function.update_apply] at hq
    split_ifs at hq with hkk
    · obtain rfl := Option.some.inj hq
      obtain ⟨q, hq', hmem'⟩ := (mem_pushTo hmem).resolve_left hne
      exact ⟨key', q, hk', hkk ▸ hq', hmem'⟩
    · exact ⟨key', queue, hk', hq, hmem⟩

/-- What is in the queue of a key of the consumer once that is replaced. -/
theorem waiting_update {q : CMsgQueue ℕ} (hconsumer : s'.consumer = Function.update s.consumer key (some q))
    (hkey : s'.key? k = s.key? k) : s'.waiting k = if s.key? k = some key then q.m_queue.count k else s.waiting k := by
  rw [waiting, waiting, hkey, hconsumer]
  cases hk : s.key? k with
  | none => rfl
  | some key' =>
    rw [Option.bind_some, Option.bind_some, Function.update_apply]
    by_cases heq : key' = key
    · rw [if_pos heq, if_pos (congrArg some heq)]
      rfl
    · rw [if_neg heq, if_neg fun h => heq (Option.some.inj h)]

theorem waiting_delivered (hk : s.calls[k]? = some call) (j : ℕ) :
    (s.delivered path holdNumber k call now).waiting j = if s.key? j = some call.msg.m_key then
      (pushTo path holdNumber (s.consumer call.msg.m_key) call.msg k now).1.m_queue.count j else s.waiting j :=
  waiting_update rfl (key?_goto hk j)

theorem waiting_inserted {todo seen : List CMsgKey} {q : CMsgQueue ℕ} :
    (s.inserted todo seen key q).waiting k = if s.key? k = some key then q.m_queue.count k else s.waiting k :=
  waiting_update rfl rfl

/-- A message of another key is in no queue of this one. -/
theorem Inv.waiting_zero (h : s.Inv) {key : CMsgKey} (hkey : s.key? k ≠ some key) :
    (s.consumer key).elim 0 (fun queue => queue.m_queue.count k) = 0 := by
  cases hq : s.consumer key with
  | none => rfl
  | some queue =>
    rw [Option.elim_some, List.count_eq_zero]
    intro hmem
    exact hkey (h.home _ queue k hq hmem)

theorem Inv.once_delivered (h : s.Inv) (hk : s.calls[k]? = some call) (hkey : s.key? k = some call.msg.m_key)
    (hnew : k ∉ s.received) (j : ℕ) :
    (s.delivered path holdNumber k call now).occurrences j = if j ∈ k :: s.received then 1 else 0 := by
  have hcount := count_pushTo path holdNumber (s.consumer call.msg.m_key) call.msg k now j
  have honce := h.once j
  rw [occurrences] at honce ⊢
  rw [waiting_delivered hk]
  simp only [delivered, RegisteringNode.goto, List.count_append, List.mem_cons]
  by_cases hjkey : s.key? j = some call.msg.m_key
  · rw [if_pos hjkey]
    have hbefore : s.waiting j = (s.consumer call.msg.m_key).elim 0 fun queue => queue.m_queue.count j := by
      rw [waiting, hjkey, Option.bind_some]
    rw [hbefore] at honce
    by_cases hjk : j = k
    · subst hjk
      rw [if_neg hnew] at honce
      rw [if_pos rfl] at hcount
      rw [if_pos (.inl rfl)]
      omega
    · rw [if_neg hjk] at hcount
      simp only [hjk, false_or]
      omega
  · have hjk : j ≠ k := by
      rintro rfl
      exact hjkey hkey
    have hnone := h.waiting_zero hjkey
    rw [if_neg hjkey]
    rw [if_neg hjk] at hcount
    simp only [hjk, false_or]
    omega

theorem Inv.covered_delivered (h : s.Inv) (hk : s.calls[k]? = some call) :
    (s.delivered path holdNumber k call now).Covered := by
  intro j hj hret key hkey'
  change (s.goto k call .returned).key? j = _ at hkey'
  rw [key?_goto hk] at hkey'
  have hret' : s.retains j := by
    rw [retains_iff] at hret ⊢
    obtain ⟨key', queue, hk', hq, hmem⟩ := hret
    change (s.goto k call .returned).key? j = _ at hk'
    rw [key?_goto hk] at hk'
    exact ⟨key', queue, hk', hq, hmem⟩
  have hcovered := h.covered j hj hret' key hkey'
  change match s.point with
    | .absent | .created => True
    | .distributing todo seen => key ∈ todo ∧ (key ∈ seen → j ∈ k :: s.received)
    | .inserting todo seen key' queue => key ∈ todo ∧
      (key ∈ seen → j ∈ k :: s.received ∨ key = key' ∧ j ∈ queue.m_queue)
    | .registered => j ∈ k :: s.received
  cases hp : s.point with
  | absent | created => trivial
  | distributing todo seen =>
    rw [hp] at hcovered
    exact ⟨hcovered.1, fun hseen => List.mem_cons_of_mem k (hcovered.2 hseen)⟩
  | inserting todo seen key' queue =>
    rw [hp] at hcovered
    exact ⟨hcovered.1, fun hseen => (hcovered.2 hseen).imp_left (List.mem_cons_of_mem k)⟩
  | registered =>
    rw [hp] at hcovered
    exact List.mem_cons_of_mem k hcovered

theorem Inv.deliver (h : s.Inv) (hk : s.calls[k]? = some call) (hnew : k ∉ s.received) :
    (s.delivered path holdNumber k call now).Inv := by
  have hmoves : s.Moves (s.goto k call .returned) := moves_goto hk nofun
  have hkey : s.key? k = some call.msg.m_key := by
    rw [key?, hk]
    rfl
  refine ⟨h.once_delivered hk hkey hnew, fun key queue j hq hj => ?_, fun j c hj hlate => ?_,
    fun key queue hq => (h.queued key queue hq).moves hmoves,
    fun todo seen key queue hp => (h.copied todo seen key queue hp).moves hmoves, fun j hj => ?_,
    h.covered_delivered hk⟩
  · change (s.goto k call .returned).key? j = _
    rw [key?_goto hk]
    simp only [delivered, Function.update_apply] at hq
    split_ifs at hq with hkk
    · obtain rfl := Option.some.inj hq
      rcases mem_pushTo hj with rfl | ⟨q, hq', hmem⟩
      · exact hkey.trans (congrArg some hkk.symm)
      · exact hkk ▸ h.home _ q j hq' hmem
    · exact h.home key queue j hq hj
  · rcases getElem?_goto hj with ⟨rfl, rfl⟩ | ⟨-, hj⟩
    · exact ⟨(h.late _ call hk hlate).1, nofun, fun _ => List.mem_cons_self⟩
    · obtain ⟨habsent, hloop, hret⟩ := h.late j c hj hlate
      exact ⟨habsent, hloop, fun hr => List.mem_cons_of_mem k (hret hr)⟩
  · obtain ⟨c, hc, hcp⟩ := h.first j hj
    obtain ⟨c', hc', -, hcp'⟩ := hmoves j c hc
    exact ⟨c', hc', hcp' hcp⟩

theorem Inv.createQueues (h : s.Inv) :
    Inv { s with point := .created, retainedFirst := (List.range s.calls.length).filter s.retains } where
  once := h.once
  home := h.home
  late k call hk hlate := ⟨nofun, (h.late k call hk hlate).2⟩
  queued := h.queued
  copied := nofun
  first k hk := by
    obtain ⟨key, queue, -, hq, hmem⟩ := retains_iff.mp (List.mem_filter.mp hk).2
    obtain ⟨call, hcall, -, hpoint⟩ := (h.queued key queue hq).2 k hmem
    exact ⟨call, hcall, hpoint⟩
  covered k hk hret key hkey := trivial

theorem Inv.distribute (h : s.Inv) :
    Inv { s with point :=
      .distributing ((s.calls.map (·.msg.m_key)).filter fun key => (s.m_prodQueues key).isSome) [] } where
  once := h.once
  home := h.home
  late k call hk hlate := ⟨nofun, (h.late k call hk hlate).2⟩
  queued := h.queued
  copied := nofun
  first := h.first
  covered k hk hret key hkey := by
    obtain ⟨key', queue, hk', hq, -⟩ := retains_iff.mp hret
    obtain rfl := Option.some.inj (hkey.symm.trans hk')
    obtain ⟨call, hcall, hmsg⟩ := Option.map_eq_some_iff.mp hkey
    refine ⟨List.mem_filter.mpr ⟨?_, ?_⟩, nofun⟩
    · exact List.mem_map.mpr ⟨call, List.mem_of_getElem? hcall, hmsg⟩
    · exact Option.isSome_iff_exists.mpr ⟨queue, hq⟩

theorem Inv.copy {todo seen : List CMsgKey} {q : CMsgQueue ℕ} (h : s.Inv) (hp : s.point = .distributing todo seen)
    (hq : s.m_prodQueues key = some q) :
    (q.m_queue = [] → Inv { s with point := .distributing todo (key :: seen) }) ∧
      Inv { s with point := .inserting todo (key :: seen) key q.copy } := by
  have hcovered (k : ℕ) (hk : k ∈ s.retainedFirst) (hret : s.retains k) (key' : CMsgKey) (hkey : s.key? k = some key') :
      key' ∈ todo ∧ (key' ∈ key :: seen → k ∈ s.received ∨ key' = key ∧ k ∈ q.m_queue) := by
    have hold := h.covered k hk hret key' hkey
    rw [hp] at hold
    refine ⟨hold.1, fun hseen => ?_⟩
    rcases List.mem_cons.mp hseen with rfl | hseen
    · obtain ⟨key'', queue, hk', hq', hmem⟩ := retains_iff.mp hret
      obtain rfl := Option.some.inj (hkey.symm.trans hk')
      obtain rfl := Option.some.inj (hq.symm.trans hq')
      exact .inr ⟨rfl, hmem⟩
    · exact .inl (hold.2 hseen)
  constructor
  · intro hempty
    refine ⟨h.once, h.home, fun k call hk hlate => ⟨nofun, (h.late k call hk hlate).2⟩, h.queued, nofun, h.first, ?_⟩
    intro k hk hret key' hkey
    obtain ⟨htodo, hseen⟩ := hcovered k hk hret key' hkey
    refine ⟨htodo, fun hmem => (hseen hmem).resolve_right ?_⟩
    rintro ⟨-, hin⟩
    rw [hempty] at hin
    cases hin
  · refine ⟨h.once, h.home, fun k call hk hlate => ⟨nofun, (h.late k call hk hlate).2⟩, h.queued, ?_, h.first, ?_⟩
    · rintro _ _ _ _ ⟨⟩
      exact h.queued key q hq
    · intro k hk hret key' hkey
      exact hcovered k hk hret key' hkey

theorem Inv.insert {todo seen : List CMsgKey} {q : CMsgQueue ℕ} (h : s.Inv) (hp : s.point = .inserting todo seen key q)
    (hall : ∀ old, s.consumer key = some old → ∀ k ∈ old.m_queue, k ∈ q.m_queue)
    (hnew : ∀ k ∈ q.m_queue, k ∉ s.leftOut ∧ k ∉ s.popped) :
    (s.inserted todo seen key q).Inv := by
  obtain ⟨hnodup, hcalls⟩ := h.copied todo seen key q hp
  have hkeys (k : ℕ) (hk : k ∈ q.m_queue) : s.key? k = some key := by
    obtain ⟨call, hcall, hkey, -⟩ := hcalls k hk
    rw [key?, hcall, Option.map_some, hkey]
  refine ⟨fun k => ?_, fun key' queue k hq hk => ?_, fun k call hk hlate => ?_, h.queued, nofun, h.first,
    fun k hk hret key' hkey => ?_⟩
  · have honce := h.once k
    rw [occurrences] at honce ⊢
    rw [waiting_inserted]
    simp only [inserted, List.mem_append]
    by_cases hk : k ∈ q.m_queue
    · obtain ⟨hleft, hpop⟩ := hnew k hk
      rw [if_pos (hkeys k hk), if_pos (.inl hk), List.count_eq_one_of_mem hnodup hk,
        List.count_eq_zero_of_not_mem hleft,
        List.count_eq_zero_of_not_mem hpop]
    · simp only [hk, false_or]
      by_cases hkey : s.key? k = some key
      · -- the queue that was replaced did not have the message
        have hzero : s.waiting k = 0 := by
          rw [waiting, hkey, Option.bind_some]
          cases hold : s.consumer key with
          | none => rfl
          | some old =>
            rw [Option.elim_some, List.count_eq_zero]
            exact fun hmem => hk (hall old hold k hmem)
        rw [if_pos hkey, List.count_eq_zero_of_not_mem hk]
        rw [hzero] at honce
        exact honce
      · rw [if_neg hkey]
        exact honce
  · simp only [inserted, Function.update_apply] at hq
    split_ifs at hq with hkk
    · obtain rfl := Option.some.inj hq
      rw [hkk]
      exact hkeys k hk
    · exact h.home key' queue k hq hk
  · obtain ⟨-, hloop, hret⟩ := h.late k call hk hlate
    exact ⟨nofun, hloop, fun hr => List.mem_append_right _ (hret hr)⟩
  · have hold := h.covered k hk hret key' hkey
    rw [hp] at hold
    refine ⟨hold.1, fun hseen => List.mem_append.mpr ?_⟩
    rcases hold.2 hseen with hrec | ⟨-, hmem⟩
    · exact .inr hrec
    · exact .inl hmem

theorem Inv.finish {todo seen : List CMsgKey} (h : s.Inv) (hp : s.point = .distributing todo seen)
    (hall : ∀ key ∈ todo, key ∈ seen) : Inv { s with point := .registered } where
  once := h.once
  home := h.home
  late k call hk hlate := ⟨nofun, (h.late k call hk hlate).2⟩
  queued := h.queued
  copied := nofun
  first := h.first
  covered k hk hret key hkey := by
    have hold := h.covered k hk hret key hkey
    rw [hp] at hold
    exact hold.2 (hall key hold.1)

theorem Inv.popMsg {q : CMsgQueue ℕ} (h : s.Inv) (hq : s.consumer key = some q) :
    (s.taken key q).Inv where
  once k := by
    have honce := h.once k
    have hwaiting : (s.taken key q).waiting k =
        if s.key? k = some key then q.pop.2.m_queue.count k else s.waiting k := waiting_update rfl rfl
    rw [occurrences] at honce
    change (s.taken key q).waiting k + s.leftOut.count k + (q.pop.1.toList ++ s.popped).count k =
      if k ∈ s.received then 1 else 0
    rw [hwaiting, List.count_append]
    have hcount : q.pop.2.m_queue.count k + q.pop.1.toList.count k = q.m_queue.count k := by
      rw [CMsgQueue.pop]
      cases q.m_queue with
      | nil => rfl
      | cons x xs =>
        rw [List.count_cons]
        simp [List.count_singleton]
    by_cases hkey : s.key? k = some key
    · rw [if_pos hkey]
      rw [waiting_of_key hkey hq] at honce
      omega
    · have hnot : k ∉ q.m_queue := fun hmem => hkey (h.home key q k hq hmem)
      rw [List.count_eq_zero_of_not_mem hnot] at hcount
      rw [if_neg hkey]
      omega
  home key' queue k hq' hk := by
    simp only [taken, Function.update_apply] at hq'
    split_ifs at hq' with hkk
    · obtain rfl := Option.some.inj hq'
      rw [hkk]
      exact h.home key q k hq (List.mem_of_mem_tail hk)
    · exact h.home key' queue k hq' hk
  late := h.late
  queued := h.queued
  copied := h.copied
  first := h.first
  covered := h.covered

theorem Inv.advance (now : Timeval) (h : s.Inv) (hk : s.calls[k]? = some call) (hapart : s.Apart a)
    (ha : a = .loop k ∨ a = .pass k ∨ a = .retain k now ∨ a = .deliver k now)
    (he : s.advance path holdNumber k call a = some s') : s'.Inv := by
  rcases ha with rfl | rfl | rfl | rfl <;> rw [RegisteringNode.advance] at he
  · split_ifs at he with hpoint habsent
    · obtain rfl := Option.some.inj he
      exact h.goto hk nofun fun hlate => absurd habsent (h.late k call hk hlate).1
    · obtain rfl := Option.some.inj he
      exact h.goto hk nofun fun _ => ⟨nofun, nofun⟩
  · split_ifs at he with hpoint
    obtain rfl := Option.some.inj he
    exact h.goto hk nofun fun hlate => absurd hpoint (h.late k call hk hlate).2.1
  · split_ifs at he with hpoint
    obtain rfl := Option.some.inj he
    exact h.retain hk hpoint
  · split_ifs at he
    obtain rfl := Option.some.inj he
    exact h.deliver hk hapart

theorem Inv.step (h : s.Inv) (hapart : s.Apart a) (he : s.step path holdNumber a = some s') : s'.Inv := by
  cases a with
  | pushMsg msg =>
    obtain rfl := Option.some.inj he
    apply h.pushMsg msg
    split_ifs
    · exact .inl rfl
    · exact .inr rfl
  | retain k now =>
    obtain ⟨call, hk, he⟩ := Option.bind_eq_some_iff.mp he
    exact h.advance now hk hapart (.inr (.inr (.inl rfl))) he
  | loop k =>
    obtain ⟨call, hk, he⟩ := Option.bind_eq_some_iff.mp he
    exact h.advance ⟨0, 0⟩ hk hapart (.inl rfl) he
  | pass k =>
    obtain ⟨call, hk, he⟩ := Option.bind_eq_some_iff.mp he
    exact h.advance ⟨0, 0⟩ hk hapart (.inr (.inl rfl)) he
  | deliver k now =>
    obtain ⟨call, hk, he⟩ := Option.bind_eq_some_iff.mp he
    exact h.advance now hk hapart (.inr (.inr (.inr rfl))) he
  | createQueues =>
    rw [RegisteringNode.step] at he
    split_ifs at he
    obtain rfl := Option.some.inj he
    exact h.createQueues
  | distribute =>
    rw [RegisteringNode.step] at he
    split_ifs at he
    obtain rfl := Option.some.inj he
    exact h.distribute
  | copy key =>
    rw [RegisteringNode.step] at he
    split at he
    · next todo seen hp =>
      split_ifs at he
      split at he
      · cases he
      · next q hq =>
        split_ifs at he with hempty
        · obtain rfl := Option.some.inj he
          exact (h.copy hp hq).1 hempty
        · obtain rfl := Option.some.inj he
          exact (h.copy hp hq).2
    · cases he
  | insert =>
    rw [RegisteringNode.step] at he
    split at he
    · next todo seen key q hp =>
      obtain rfl := Option.some.inj he
      obtain ⟨hall, hnew⟩ := hapart todo seen key q hp
      exact h.insert hp hall hnew
    · cases he
  | finish =>
    rw [RegisteringNode.step] at he
    split at he
    · next todo seen hp =>
      split_ifs at he with hall
      obtain rfl := Option.some.inj he
      exact h.finish hp hall
    · cases he
  | popMsg key =>
    obtain ⟨q, hq, rfl⟩ := Option.map_eq_some_iff.mp he
    exact h.popMsg hq

theorem Inv.exactlyOnce (h : s.Inv) : s.ExactlyOnce where
  once := h.once
  home := h.home
  late k call hk hlate := (h.late k call hk hlate).2.2
  retained hp k hk hret := by
    obtain ⟨call, hcall, -⟩ := h.first k hk
    have hcovered := h.covered k hk hret call.msg.m_key (by rw [key?, hcall, Option.map_some])
    rw [hp] at hcovered
    exact hcovered

/-- A message that is pushed again to the consumer is there twice. -/
theorem Inv.new_of_delivered (h : s.Inv) (hk : s.calls[k]? = some call)
    (honce : (s.delivered path holdNumber k call now).ExactlyOnce) : k ∉ s.received := by
  intro hmem
  have hbefore := h.once k
  have hafter := honce.once k
  have hcount := count_pushTo path holdNumber (s.consumer call.msg.m_key) call.msg k now k
  have hkey : s.key? k = some call.msg.m_key := by
    rw [key?, hk]
    rfl
  have hold : s.waiting k = (s.consumer call.msg.m_key).elim 0 fun queue => queue.m_queue.count k := by
    rw [waiting, hkey, Option.bind_some]
  have hnew : (s.delivered path holdNumber k call now).waiting k =
      (pushTo path holdNumber (s.consumer call.msg.m_key) call.msg k now).1.m_queue.count k := by
    rw [waiting_delivered hk, if_pos hkey]
  have hreceived : k ∈ (s.delivered path holdNumber k call now).received := List.mem_cons_self
  rw [occurrences, if_pos hmem, hold] at hbefore
  rw [occurrences, if_pos hreceived, hnew] at hafter
  rw [if_pos rfl] at hcount
  simp only [delivered, RegisteringNode.goto, List.count_append] at hafter
  omega

theorem Inv.apart_of_inserted {todo seen : List CMsgKey} {q : CMsgQueue ℕ} (h : s.Inv)
    (hp : s.point = .inserting todo seen key q) (honce : (s.inserted todo seen key q).ExactlyOnce) :
    (∀ old, s.consumer key = some old → ∀ k ∈ old.m_queue, k ∈ q.m_queue) ∧
      ∀ k ∈ q.m_queue, k ∉ s.leftOut ∧ k ∉ s.popped := by
  obtain ⟨hnodup, hcalls⟩ := h.copied todo seen key q hp
  have hwaiting (k : ℕ) (hkey : s.key? k = some key) : (s.inserted todo seen key q).waiting k = q.m_queue.count k := by
    rw [waiting_inserted, if_pos hkey]
  have hafter (k : ℕ) (hkey : s.key? k = some key) (hk : k ∈ (s.inserted todo seen key q).received) :
      q.m_queue.count k + s.leftOut.count k + s.popped.count k = 1 := by
    have hone := honce.once k
    rw [occurrences, hwaiting k hkey, if_pos hk] at hone
    exact hone
  constructor
  · intro old hold k hk
    by_contra hnot
    have hkey := h.home key old k hold hk
    have hbefore := h.once k
    have hpos := List.count_pos_iff.mpr hk
    rw [occurrences, waiting_of_key hkey hold] at hbefore
    split_ifs at hbefore with hreceived
    · have hone := hafter k hkey (List.mem_append_right _ hreceived)
      rw [List.count_eq_zero_of_not_mem hnot] at hone
      omega
    · omega
  · intro k hk
    obtain ⟨call, hcall, hckey, -⟩ := hcalls k hk
    have hkey : s.key? k = some key := by rw [key?, hcall, Option.map_some, hckey]
    have hone := hafter k hkey (List.mem_append_left _ hk)
    rw [List.count_eq_one_of_mem hnodup hk] at hone
    refine ⟨fun hmem => ?_, fun hmem => ?_⟩
    · have hpos := List.count_pos_iff.mpr hmem
      omega
    · have hpos := List.count_pos_iff.mpr hmem
      omega

/-- A step keeps the messages once each if and only if it meets the condition. -/
theorem Inv.apart_iff (h : s.Inv) (he : s.step path holdNumber a = some s') : s.Apart a ↔ s'.ExactlyOnce := by
  refine ⟨fun hapart => (h.step hapart he).exactlyOnce, fun honce => ?_⟩
  cases a with
  | deliver k now =>
    obtain ⟨call, hk, he⟩ := Option.bind_eq_some_iff.mp he
    rw [RegisteringNode.advance] at he
    split_ifs at he
    obtain rfl := Option.some.inj he
    exact h.new_of_delivered hk honce
  | insert =>
    rw [RegisteringNode.step] at he
    split at he
    · next todo seen key q hp =>
      obtain rfl := Option.some.inj he
      intro todo' seen' key' q' hp'
      rw [hp] at hp'
      cases hp'
      exact h.apart_of_inserted hp honce
    · cases he
  | pushMsg | retain | loop | pass | createQueues | distribute | copy | finish | popMsg => trivial

/-- Every message comes to the new consumer once in a run whose pushes and copies keep apart. -/
theorem registration_exactly_once (path : CMsgPath) (holdNumber : ℕ) (h : Run (step path holdNumber) Apart start s) :
    s.ExactlyOnce ∧ ∀ a s', s.step path holdNumber a = some s' → (s.Apart a ↔ s'.ExactlyOnce) := by
  have hinv : s.Inv := by
    apply h.invariant (P := Inv) _ start_inv
    intro t a u ht hapart he
    exact ht.step hapart he
  exact ⟨hinv.exactlyOnce, fun a s' he => hinv.apart_iff he⟩

instance (s : RegisteringNode) (a : RegisterAction) : Decidable (s.Apart a) :=
  match a with
  | .deliver k _ => inferInstanceAs (Decidable (k ∉ s.received))
  | .insert =>
    match hp : s.point with
    | .inserting todo seen key queue =>
      decidable_of_iff ((∀ old ∈ s.consumer key, ∀ k ∈ old.m_queue, k ∈ queue.m_queue) ∧
          ∀ k ∈ queue.m_queue, k ∉ s.leftOut ∧ k ∉ s.popped) (by
        simp only [Apart, hp, RegisterPoint.inserting.injEq, Option.mem_def]
        constructor
        · rintro h _ _ _ _ ⟨rfl, rfl, rfl, rfl⟩
          exact h
        · intro h
          exact h _ _ _ _ ⟨rfl, rfl, rfl, rfl⟩)
    | .absent | .created | .distributing .. | .registered => .isTrue (by simp [Apart, hp])
  | .pushMsg _ | .retain .. | .loop _ | .pass _ | .createQueues | .distribute | .copy _ | .finish | .popMsg _ =>
    .isTrue trivial

def holdMsg : CMsgCommon := ⟨.hold, []⟩

/-- One message is retained, the consumer registers, and another message is pushed. -/
def apart : List RegisterAction :=
  [.pushMsg holdMsg, .retain 0 ⟨0, 0⟩, .loop 0, .pass 0, .createQueues, .distribute, .copy [], .insert, .finish,
    .pushMsg holdMsg, .retain 1 ⟨0, 0⟩, .loop 1, .deliver 1 ⟨0, 0⟩, .popMsg []]

theorem apart_exactly_once : ∃ s, exec (step [] 8) start apart = some s ∧ s.received = [1, 0] ∧ s.popped = [0] ∧
    s.ExactlyOnce ∧ ∀ a s', s.step [] 8 a = some s' → (s.Apart a ↔ s'.ExactlyOnce) :=
  ⟨_, rfl, rfl, rfl, registration_exactly_once [] 8
    (Run.of_exec (show exec (guarded _ _) start apart = some _ from rfl))⟩

/-- The consumer registers between the two pushes of one message. -/
def between : List RegisterAction :=
  [.pushMsg holdMsg, .retain 0 ⟨0, 0⟩, .createQueues, .distribute, .copy [], .insert, .finish, .loop 0,
    .deliver 0 ⟨0, 0⟩]

theorem between_twice : ¬ ∀ path holdNumber s, Reaches (step path holdNumber) start s → s.ExactlyOnce := by
  intro h
  have honce := (h [] 8 _ (Reaches.of_exec (show exec (step [] 8) start between = some _ from rfl))).once 0
  have htwice : (2 : ℕ) = 1 := honce
  cases htwice

end RegisteringNode

end DCFabric
