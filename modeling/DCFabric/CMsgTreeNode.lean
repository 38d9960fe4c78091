import DCFabric.CMsgQueue
import DCFabric.ListUpdates
import DCFabric.TransitionRuns

namespace DCFabric

open ListUpdates TransitionRuns

/-- The queues of a lock-free `CMsgQueues` in the order of its iterator. -/
structure CMsgQueues where
  m_queues : List (CMsgKey × CMsgQueue CMsgCommon)
  m_pos : ℕ

namespace CMsgQueues

def empty : CMsgQueues := ⟨[], 0⟩

/-- The number of messages in the queues. -/
def messages (c : CMsgQueues) : ℕ := (c.m_queues.map (·.2.m_queue.length)).sum

/-- `place` is where the hash of a key puts it among the others. -/
def insert (c : CMsgQueues) (place : CMsgKey → ℕ) (key : CMsgKey) (queue : CMsgQueue CMsgCommon) : CMsgQueues :=
  let queues := c.m_queues.filter (·.1 ≠ key)
  { c with m_queues := queues.take (place key) ++ (key, queue) :: queues.drop (place key) }

/-- The queue keeps at most `n` messages; the return value says that its operator is notified. -/
def pushBounded (n : ℕ) (queue : CMsgQueue CMsgCommon) (now : Timeval) (msg : CMsgCommon) :
    Bool × CMsgQueue CMsgCommon :=
  match queue.push now msg with
  | (false, queue) => (false, queue)
  | (true, queue) => if queue.m_queue.length > n then (false, queue.pop.2) else (true, queue)

def push (holdNumber : ℕ) (queue : CMsgQueue CMsgCommon) (now : Timeval) (msg : CMsgCommon) :
    Bool × CMsgQueue CMsgCommon :=
  match msg.m_oper with
  | .realtime =>
    if msg.m_key ≠ [] then
      if queue.m_queue = [] then queue.push now msg else (false, queue)
    else pushBounded holdNumber queue now msg
  | .hold => pushBounded holdNumber queue now msg
  | .override => pushBounded 1 queue now msg
  | .passon => queue.push now msg
  | .other => (false, queue)

def pushMsg (path : CMsgPath) (holdNumber : ℕ) (place : CMsgKey → ℕ) (now : Timeval) (c : CMsgQueues)
    (msg : CMsgCommon) : Bool × CMsgQueues :=
  let (queue, c) :=
    match c.m_queues.find? (·.1 = msg.m_key) with
    | some (_, queue) => (queue, c)
    | none => (.allocQueue path msg.m_key, c.insert place msg.m_key (.allocQueue path msg.m_key))
  let (notified, queue) := push holdNumber queue now msg
  let queues := (updateFirst (·.1 = msg.m_key) (fun e => (e.1, queue)) c.m_queues).getD c.m_queues
  (notified, { c with m_queues := queues })

def popMsg (c : CMsgQueues) : Option CMsgCommon × CMsgQueues :=
  let size := c.m_queues.length
  if size = 0 then (none, c)
  else
    let m_pos := c.m_pos % size
    match (List.range size).find? fun i =>
        (c.m_queues[(m_pos + i) % size]?).any fun e => e.2.m_queue ≠ [] with
    | none => (none, { c with m_pos })
    | some i =>
      let m_pos := (m_pos + i) % size
      ((c.m_queues[m_pos]?).bind fun e => e.2.pop.1,
        { m_queues := c.m_queues.modify m_pos fun e => (e.1, e.2.pop.2), m_pos := m_pos + 1 })

/-- The copies of the queues that have messages; the return value is `BNC_OK`. -/
def distribute (place : CMsgKey → ℕ) (c consumer : CMsgQueues) : Bool × CMsgQueues :=
  if c.m_queues = [] then (false, consumer)
  else
    (true, c.m_queues.foldl (fun consumer e =>
      if e.2.m_queue = [] then consumer else consumer.insert place e.1 e.2.copy) consumer)

variable {path : CMsgPath} {holdNumber n : ℕ} {place : CMsgKey → ℕ} {now : Timeval} {c : CMsgQueues}
  {msg : CMsgCommon} {queue : CMsgQueue CMsgCommon} {key : CMsgKey}

theorem pushBounded_length : (pushBounded n queue now msg).2.m_queue.length ≤
    queue.m_queue.length + (pushBounded n queue now msg).1.toNat := by
  unfold pushBounded
  rcases queue.push_cases now msg with ⟨hret, hq⟩ | ⟨hret, hq⟩
  all_goals
    generalize queue.push now msg = r at hret hq
    obtain ⟨ret, q⟩ := r
    dsimp only at hret hq
    subst hret
  · dsimp only
    split_ifs
    · simp [hq]
    · simp [hq]
  · simp [hq]

theorem push_length : (push holdNumber queue now msg).2.m_queue.length ≤
    queue.m_queue.length + (push holdNumber queue now msg).1.toNat := by
  have hpush : (queue.push now msg).2.m_queue.length ≤ queue.m_queue.length + (queue.push now msg).1.toNat := by
    rcases queue.push_cases now msg with ⟨hret, hq⟩ | ⟨hret, hq⟩
    · simp [hret, hq]
    · simp [hret, hq]
  unfold push
  cases msg.m_oper with
  | realtime =>
    dsimp only
    split_ifs
    · exact hpush
    · simp
    · exact pushBounded_length
  | hold => exact pushBounded_length
  | override => exact pushBounded_length
  | passon => exact hpush
  | other => simp

theorem messages_insert_le : (c.insert place key queue).messages ≤ c.messages + queue.m_queue.length := by
  have hfilter : ((c.m_queues.filter (·.1 ≠ key)).map (·.2.m_queue.length)).sum ≤ c.messages := by
    apply List.Sublist.sum_le_sum
    · exact List.filter_sublist.map _
    · exact fun _ _ => Nat.zero_le _
  have hsplit := congrArg (fun l => (l.map fun e => e.2.m_queue.length).sum)
    (List.take_append_drop (place key) (c.m_queues.filter (·.1 ≠ key)))
  simp only [List.map_append, List.sum_append] at hsplit
  simp only [messages, insert, List.map_append, List.map_cons, List.sum_append, List.sum_cons]
  simp only [messages] at hfilter
  omega

theorem find?_insert : (c.insert place key queue).m_queues.find? (·.1 = key) = some (key, queue) := by
  have hnone : ((c.m_queues.filter (·.1 ≠ key)).take (place key)).find? (·.1 = key) = none := by
    rw [List.find?_eq_none]
    intro e he
    simpa using (List.mem_filter.mp (List.mem_of_mem_take he)).2
  simp only [insert, List.find?_append, hnone, Option.none_or]
  exact List.find?_cons_of_pos (by simp)

theorem messages_setQueue {e : CMsgKey × CMsgQueue CMsgCommon} (queue : CMsgQueue CMsgCommon)
    (h : c.m_queues.find? (·.1 = key) = some e) :
    ((((updateFirst (·.1 = key) (fun e => (e.1, queue)) c.m_queues).getD c.m_queues).map
        (·.2.m_queue.length)).sum + e.2.m_queue.length) = c.messages + queue.m_queue.length := by
  obtain ⟨l₁, l₂, hl, hu⟩ := updateFirst_of_find? (g := fun e => (e.1, queue)) h
  rw [hu, Option.getD_some, messages, hl]
  simp only [List.map_append, List.map_cons, List.sum_append, List.sum_cons]
  omega

theorem messages_pushMsg_le :
    (c.pushMsg path holdNumber place now msg).2.messages ≤
      c.messages + (c.pushMsg path holdNumber place now msg).1.toNat := by
  have hset (d : CMsgQueues) (e : CMsgKey × CMsgQueue CMsgCommon) (hd : d.messages ≤ c.messages)
      (hfind : d.m_queues.find? (·.1 = msg.m_key) = some e) :
      (((updateFirst (·.1 = msg.m_key) (fun f => (f.1, (push holdNumber e.2 now msg).2)) d.m_queues).getD
          d.m_queues).map (·.2.m_queue.length)).sum ≤ c.messages + (push holdNumber e.2 now msg).1.toNat := by
    have hsum := messages_setQueue (push holdNumber e.2 now msg).2 hfind
    have hlen : (push holdNumber e.2 now msg).2.m_queue.length ≤
        e.2.m_queue.length + (push holdNumber e.2 now msg).1.toNat := push_length
    omega
  unfold pushMsg
  cases hfind : c.m_queues.find? (·.1 = msg.m_key) with
  | some e => exact hset c e le_rfl hfind
  | none =>
    refine hset (c.insert place msg.m_key (.allocQueue path msg.m_key)) (msg.m_key, .allocQueue path msg.m_key) ?_
      find?_insert
    exact messages_insert_le

theorem messages_eq_zero : c.messages = 0 ↔ ∀ e ∈ c.m_queues, e.2.m_queue = [] := by
  simp only [messages, List.sum_eq_zero_iff, List.forall_mem_map, List.length_eq_zero_iff]

theorem messages_modify {pos : ℕ} (hpos : pos < c.m_queues.length) (hne : c.m_queues[pos].2.m_queue ≠ []) :
    ((c.m_queues.modify pos fun e => (e.1, e.2.pop.2)).map (·.2.m_queue.length)).sum = c.messages - 1 := by
  have hsplit : c.m_queues = c.m_queues.take pos ++ c.m_queues[pos] :: c.m_queues.drop (pos + 1) := by
    rw [List.getElem_cons_drop, List.take_append_drop]
  have hlen := List.length_pos_of_ne_nil hne
  have hmessages := congrArg (fun l => (l.map fun e => e.2.m_queue.length).sum) hsplit
  rw [List.modify_eq_take_cons_drop hpos]
  simp only [List.map_append, List.map_cons, List.sum_append, List.sum_cons, CMsgQueue.pop_messages,
    List.length_tail, messages] at hmessages ⊢
  omega

/-- A message is popped if there is one. -/
theorem messages_popMsg : c.popMsg.2.messages = c.messages - 1 := by
  unfold popMsg
  dsimp only
  split_ifs with hsize
  · rw [List.length_eq_zero_iff] at hsize
    simp [messages, hsize]
  · have hpos : 0 < c.m_queues.length := Nat.pos_of_ne_zero hsize
    split
    · next hnone =>
      -- every place has been looked at
      have hempty : c.messages = 0 := by
        rw [messages_eq_zero]
        intro e he
        obtain ⟨k, hk, rfl⟩ := List.mem_iff_getElem.mp he
        have hlt := Nat.mod_lt c.m_pos hpos
        obtain ⟨i, hi, hik⟩ : ∃ i < c.m_queues.length, (c.m_pos % c.m_queues.length + i) % c.m_queues.length = k := by
          refine ⟨(k + (c.m_queues.length - c.m_pos % c.m_queues.length)) % c.m_queues.length, Nat.mod_lt _ hpos, ?_⟩
          rw [Nat.add_mod_mod]
          have hsum : c.m_pos % c.m_queues.length + (k + (c.m_queues.length - c.m_pos % c.m_queues.length)) =
              k + c.m_queues.length := by omega
          rw [hsum, Nat.add_mod_right, Nat.mod_eq_of_lt hk]
        have hplace := List.find?_eq_none.mp hnone i (List.mem_range.mpr hi)
        rw [hik, List.getElem?_eq_getElem hk] at hplace
        simpa using hplace
      exact hempty.trans (by rw [hempty])
    · next i hsome =>
      have hplace := List.find?_some hsome
      have hlt := Nat.mod_lt (c.m_pos % c.m_queues.length + i) hpos
      rw [List.getElem?_eq_getElem hlt] at hplace
      exact messages_modify hlt (by simpa using hplace)

theorem messages_distribute_le : (c.distribute place empty).2.messages ≤ c.messages := by
  have hfold (l : List (CMsgKey × CMsgQueue CMsgCommon)) (d : CMsgQueues) :
      (l.foldl (fun d e => if e.2.m_queue = [] then d else d.insert place e.1 e.2.copy) d).messages ≤
        d.messages + (l.map (·.2.m_queue.length)).sum := by
    induction l generalizing d with
    | nil => simp
    | cons e l ih =>
      rw [List.foldl_cons, List.map_cons, List.sum_cons]
      refine (ih _).trans ?_
      split_ifs
      · omega
      · have hinsert : (d.insert place e.1 e.2.copy).messages ≤ d.messages + e.2.m_queue.length := messages_insert_le
        omega
  unfold distribute
  split_ifs
  · exact Nat.zero_le _
  · refine (hfold _ _).trans ?_
    rw [show empty.messages = 0 from rfl, Nat.zero_add]
    rfl

/-- Nothing is distributed without `BNC_OK`. -/
theorem messages_distribute_eq_zero (h : (c.distribute place empty).1 = false) :
    (c.distribute place empty).2.messages = 0 := by
  unfold distribute at h ⊢
  split_ifs with hempty
  · rfl
  · rw [if_neg hempty] at h
    cases h

end CMsgQueues

/-- Where a worker thread of a handler is in its loop. -/
inductive WorkerPoint where
  | waiting
  | woken
  | handling (msg : CMsgCommon)
deriving DecidableEq

/-- A `CMsgHandler` on a path, with its queues in the tree node and the threads of its semaphore. -/
structure CMsgHandler where
  oper : ℕ
  queues : CMsgQueues
  m_sem : ℕ
  m_threads : List WorkerPoint

structure CMsgTreeNode where
  m_path : CMsgPath
  m_prodQueues : CMsgQueues
  m_consumers : List CMsgHandler

/-- A push and a registration come with the places the hash gives to new keys, a push also with the time, both for the
producers' queues and for those of each consumer. -/
inductive NodeAction where
  | registerConsumer (oper threadNum : ℕ) (place : CMsgKey → ℕ)
  | pushMsg (msg : CMsgCommon) (place : Option ℕ → CMsgKey → ℕ) (now : Option ℕ → Timeval)
  | wait (oper worker : ℕ)
  | popMsg (oper worker : ℕ)
  | handled (oper worker : ℕ)

namespace CMsgHandler

def notify (h : CMsgHandler) (notified : Bool) : CMsgHandler := { h with m_sem := h.m_sem + notified.toNat }

def pushMsg (path : CMsgPath) (holdNumber : ℕ) (place : CMsgKey → ℕ) (now : Timeval) (msg : CMsgCommon)
    (h : CMsgHandler) : CMsgHandler :=
  let (notified, queues) := h.queues.pushMsg path holdNumber place now msg
  { h with queues }.notify notified

def wait (h : CMsgHandler) (worker : ℕ) : Option CMsgHandler :=
  if h.m_threads[worker]? = some .waiting ∧ 0 < h.m_sem then
    some { h with m_sem := h.m_sem - 1, m_threads := h.m_threads.set worker .woken }
  else none

def popMsg (h : CMsgHandler) (worker : ℕ) : Option CMsgHandler :=
  if h.m_threads[worker]? = some .woken then
    let (msg, queues) := h.queues.popMsg
    some { h with queues, m_threads := h.m_threads.set worker ((msg.map .handling).getD .waiting) }
  else none

def handled (h : CMsgHandler) (worker : ℕ) : Option CMsgHandler :=
  match h.m_threads[worker]? with
  | some (.handling _) => some { h with m_threads := h.m_threads.set worker .waiting }
  | _ => none

/-- Every message in the queues has a post of the semaphore or a worker that comes for it. -/
def Announced (h : CMsgHandler) : Prop := h.queues.messages ≤ h.m_sem + h.m_threads.count .woken

end CMsgHandler

namespace CMsgTreeNode

def start (path : CMsgPath) (prodQueues : CMsgQueues) : CMsgTreeNode := ⟨path, prodQueues, []⟩

def registered (n : CMsgTreeNode) (oper : ℕ) : Bool := n.m_consumers.any (·.oper = oper)

/-- `CMsgHandler::onregister` starts the threads before it registers. -/
def registerConsumer (n : CMsgTreeNode) (oper threadNum : ℕ) (place : CMsgKey → ℕ) : CMsgTreeNode :=
  if threadNum = 0 || n.registered oper then n
  else
    let (ok, queues) := n.m_prodQueues.distribute place .empty
    let handler : CMsgHandler := ⟨oper, queues, 0, List.replicate threadNum .waiting⟩
    { n with m_consumers := n.m_consumers ++ [handler.notify ok] }

def pushMsg (holdNumber : ℕ) (n : CMsgTreeNode) (msg : CMsgCommon) (place : Option ℕ → CMsgKey → ℕ)
    (now : Option ℕ → Timeval) : CMsgTreeNode :=
  { n with
    m_prodQueues :=
      if msg.m_oper = .hold ∨ msg.m_oper = .override then
        (n.m_prodQueues.pushMsg n.m_path holdNumber (place none) (now none) msg).2
      else n.m_prodQueues
    m_consumers := n.m_consumers.map fun h => h.pushMsg n.m_path holdNumber (place h.oper) (now h.oper) msg }

/-- A step of a worker of a consumer. -/
def worker (n : CMsgTreeNode) (oper : ℕ) (run : CMsgHandler → Option CMsgHandler) : Option CMsgTreeNode :=
  (n.m_consumers.find? (·.oper = oper)).bind fun h => (run h).map fun h' =>
    { n with m_consumers := n.m_consumers.map fun h => if h.oper = oper then h' else h }

def step (holdNumber : ℕ) (n : CMsgTreeNode) : NodeAction → Option CMsgTreeNode
  | .registerConsumer oper threadNum place => some (n.registerConsumer oper threadNum place)
  | .pushMsg msg place now => some (n.pushMsg holdNumber msg place now)
  | .wait oper worker => n.worker oper (·.wait worker)
  | .popMsg oper worker => n.worker oper (·.popMsg worker)
  | .handled oper worker => n.worker oper (·.handled worker)

/-- When all workers of a consumer wait and its semaphore is at zero, its queues are empty. -/
def NoneStranded (n : CMsgTreeNode) : Prop :=
  ∀ h ∈ n.m_consumers, (∀ thread ∈ h.m_threads, thread = .waiting) → h.m_sem = 0 →
    ∀ e ∈ h.queues.m_queues, e.2.m_queue = []

/-- A new consumer finds at most one retained message. -/
def RetainsOne (n : CMsgTreeNode) : NodeAction → Prop
  | .registerConsumer oper _ _ => n.registered oper ∨ n.m_prodQueues.messages ≤ 1
  | _ => True

variable {holdNumber : ℕ} {n n' : CMsgTreeNode} {a : NodeAction} {h h' : CMsgHandler} {oper worker : ℕ}
  {run : CMsgHandler → Option CMsgHandler} {path : CMsgPath} {prodQueues : CMsgQueues}

theorem announced_wait (hn : h.Announced) (hw : h.wait worker = some h') : h'.Announced := by
  unfold CMsgHandler.wait at hw
  split_ifs at hw with hc
  obtain rfl := Option.some.inj hw
  obtain ⟨hlt, hpoint⟩ := List.getElem?_eq_some_iff.mp hc.1
  have hcount : (h.m_threads.set worker .woken).count .woken = h.m_threads.count .woken + 1 := by
    rw [List.count_set hlt, hpoint]
    simp
  have hpos := hc.2
  simp only [CMsgHandler.Announced, hcount] at hn ⊢
  omega

theorem announced_popMsg (hn : h.Announced) (hw : h.popMsg worker = some h') : h'.Announced := by
  unfold CMsgHandler.popMsg at hw
  have hmessages : h.queues.popMsg.2.messages = h.queues.messages - 1 := CMsgQueues.messages_popMsg
  generalize h.queues.popMsg = r at hw hmessages
  obtain ⟨msg, queues⟩ := r
  split_ifs at hw with hc
  obtain rfl := Option.some.inj hw
  obtain ⟨hlt, hpoint⟩ := List.getElem?_eq_some_iff.mp hc
  have hpopped : ((msg.map .handling).getD .waiting == WorkerPoint.woken) = false := by
    cases msg <;> rfl
  have hcount : (h.m_threads.set worker ((msg.map .handling).getD .waiting)).count .woken =
      h.m_threads.count .woken - 1 := by
    rw [List.count_set hlt, hpoint, hpopped]
    simp
  simp only [CMsgHandler.Announced, hcount] at hn hmessages ⊢
  omega

theorem announced_handled (hn : h.Announced) (hw : h.handled worker = some h') : h'.Announced := by
  unfold CMsgHandler.handled at hw
  split at hw
  · next msg hc =>
    obtain rfl := Option.some.inj hw
    obtain ⟨hlt, hpoint⟩ := List.getElem?_eq_some_iff.mp hc
    have hcount : (h.m_threads.set worker .waiting).count .woken = h.m_threads.count .woken := by
      rw [List.count_set hlt, hpoint]
      simp
    simpa only [CMsgHandler.Announced, hcount] using hn
  · cases hw

theorem announced_pushMsg {place : CMsgKey → ℕ} {now : Timeval} {msg : CMsgCommon} (hn : h.Announced) :
    (h.pushMsg path holdNumber place now msg).Announced := by
  have hpush : (h.queues.pushMsg path holdNumber place now msg).2.messages ≤
      h.queues.messages + (h.queues.pushMsg path holdNumber place now msg).1.toNat := CMsgQueues.messages_pushMsg_le
  simp only [CMsgHandler.Announced, CMsgHandler.pushMsg, CMsgHandler.notify] at hn ⊢
  omega

theorem announced_worker (hrun : ∀ h h', h.Announced → run h = some h' → h'.Announced)
    (hn : ∀ h ∈ n.m_consumers, h.Announced) (hw : n.worker oper run = some n') :
    ∀ h ∈ n'.m_consumers, h.Announced := by
  obtain ⟨h, hfind, hmap⟩ := Option.bind_eq_some_iff.mp hw
  obtain ⟨h', hh, rfl⟩ := Option.map_eq_some_iff.mp hmap
  have hnew := hrun h h' (hn h (List.mem_of_find?_eq_some hfind)) hh
  intro g hg
  obtain ⟨f, hf, rfl⟩ := List.mem_map.mp hg
  split_ifs
  · exact hnew
  · exact hn f hf

theorem announced_registerConsumer {threadNum : ℕ} {place : CMsgKey → ℕ}
    (hone : n.registered oper ∨ n.m_prodQueues.messages ≤ 1) (hn : ∀ h ∈ n.m_consumers, h.Announced) :
    ∀ h ∈ (n.registerConsumer oper threadNum place).m_consumers, h.Announced := by
  unfold registerConsumer
  split_ifs with hskip
  · exact hn
  · have hmessages : n.m_prodQueues.messages ≤ 1 := by
      rcases hone with hreg | hone
      · exact absurd (by simp [hreg]) hskip
      · exact hone
    intro h hh
    rcases List.mem_append.mp hh with hh | hh
    · exact hn h hh
    · obtain rfl := List.mem_singleton.mp hh
      have hle : (n.m_prodQueues.distribute place .empty).2.messages ≤ n.m_prodQueues.messages :=
        CMsgQueues.messages_distribute_le
      cases hok : (n.m_prodQueues.distribute place .empty).1 with
      | true =>
        simp only [CMsgHandler.Announced, CMsgHandler.notify, Bool.toNat_true]
        omega
      | false =>
        have hzero := CMsgQueues.messages_distribute_eq_zero hok
        simp only [CMsgHandler.Announced, CMsgHandler.notify, hzero]
        exact Nat.zero_le _

theorem announced_step (hone : n.RetainsOne a) (hn : ∀ h ∈ n.m_consumers, h.Announced)
    (he : n.step holdNumber a = some n') : ∀ h ∈ n'.m_consumers, h.Announced := by
  cases a with
  | registerConsumer oper threadNum place =>
    obtain rfl := Option.some.inj he
    exact announced_registerConsumer hone hn
  | pushMsg msg place now =>
    obtain rfl := Option.some.inj he
    intro g hg
    obtain ⟨h, hh, rfl⟩ := List.mem_map.mp hg
    exact announced_pushMsg (hn h hh)
  | wait oper worker => exact announced_worker (fun _ _ => announced_wait) hn he
  | popMsg oper worker => exact announced_worker (fun _ _ => announced_popMsg) hn he
  | handled oper worker => exact announced_worker (fun _ _ => announced_handled) hn he

theorem noneStranded_of_announced (hn : ∀ h ∈ n.m_consumers, h.Announced) : n.NoneStranded := by
  intro h hh hwaiting hsem
  have hcount : h.m_threads.count .woken = 0 := by
    rw [List.count_eq_zero]
    intro hmem
    cases hwaiting _ hmem
  have hmessages := hn h hh
  rw [CMsgHandler.Announced, hsem, hcount] at hmessages
  exact CMsgQueues.messages_eq_zero.mp (Nat.le_zero.mp hmessages)

/-- No message waits without a wake-up as long as no consumer registers when more than one message is retained. -/
theorem messages_announced (path : CMsgPath) (prodQueues : CMsgQueues) (holdNumber : ℕ)
    (hrun : Run (step holdNumber) RetainsOne (start path prodQueues) n) : n.NoneStranded := by
  apply noneStranded_of_announced
  apply hrun.invariant (P := fun n => ∀ h ∈ n.m_consumers, h.Announced)
  · intro n a n' hn hone he
    exact announced_step hone hn he
  · exact List.forall_mem_nil _

instance (n : CMsgTreeNode) (a : NodeAction) : Decidable (n.RetainsOne a) :=
  match a with
  | .registerConsumer oper _ _ => inferInstanceAs (Decidable (n.registered oper ∨ n.m_prodQueues.messages ≤ 1))
  | .pushMsg .. | .wait .. | .popMsg .. | .handled .. => .isTrue trivial

def holdMsg : NodeAction := .pushMsg ⟨.hold, []⟩ (fun _ _ => 0) fun _ => ⟨0, 0⟩

/-- One message is retained, and one comes after the registration. -/
def late : List NodeAction :=
  [holdMsg, .registerConsumer 0 1 fun _ => 0, holdMsg, .wait 0 0, .popMsg 0 0, .handled 0 0, .wait 0 0, .popMsg 0 0,
    .handled 0 0]

theorem late_noneStranded : ∃ n, exec (step 8) (start [] .empty) late = some n ∧
    n.m_consumers.map (·.m_sem) = [0] ∧ n.NoneStranded :=
  ⟨_, rfl, rfl, messages_announced [] .empty 8
    (Run.of_exec (show exec (guarded _ _) (start [] .empty) late = some _ from rfl))⟩

/-- Two messages are retained, and the consumer is notified once. -/
def stranded : List NodeAction :=
  [holdMsg, holdMsg, .registerConsumer 0 1 fun _ => 0, .wait 0 0, .popMsg 0 0, .handled 0 0]

theorem stranded_not_noneStranded : ¬ ∀ (path : CMsgPath) (prodQueues : CMsgQueues) (holdNumber : ℕ)
    (n : CMsgTreeNode), Reaches (step holdNumber) (start path prodQueues) n → n.NoneStranded := by
  intro h
  have hn := h [] .empty 8 _ (Reaches.of_exec (show exec (step 8) (start [] .empty) stranded = some _ from rfl))
  have hempty := hn _ List.mem_cons_self (by decide) rfl _ List.mem_cons_self
  exact absurd hempty (by decide)

end CMsgTreeNode

end DCFabric
