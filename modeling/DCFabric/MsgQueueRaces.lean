import DCFabric.CMsgQueue
import DCFabric.TransitionRuns

namespace DCFabric

open TransitionRuns

/-- Where a call of `CMsgQueues::pushMsg` is: the next access to shared state that it makes. -/
inductive PushPoint where
  | getQueue
  | erase
  | insert (queue : ℕ)
  | choose (queue : ℕ)
  | push (queue : ℕ)
  | size (queue : ℕ)
  | drop (queue : ℕ)
  | returned (ret : INT4)
deriving DecidableEq

structure PushCall where
  msg : CMsgCommon
  point : PushPoint
deriving DecidableEq

/-- A `CMsgQueues` without a lock. Queue objects have numbers, and a message is the number of the call with it. -/
structure SharedQueues where
  m_queues : CMsgKey → Option ℕ
  queue : ℕ → CMsgQueue ℕ
  allocated : ℕ
  calls : List PushCall
  -- left out by the rule of an operation or the speed of a queue
  dropped : List ℕ
  popped : List ℕ

inductive QueuesAction where
  | pushMsg (msg : CMsgCommon)
  | advance (k : ℕ) (now : Timeval)
  | popMsg (key : CMsgKey)

namespace SharedQueues

def start : SharedQueues where
  m_queues _ := none
  queue _ := ⟨.unlimited, [], ⟨0, 0⟩⟩
  allocated := 0
  calls := []
  dropped := []
  popped := []

def goto (s : SharedQueues) (k : ℕ) (call : PushCall) (point : PushPoint) : SharedQueues :=
  { s with calls := s.calls.set k { call with point } }

def setQueue (s : SharedQueues) (queue : ℕ) (q : CMsgQueue ℕ) : SharedQueues :=
  { s with queue := Function.update s.queue queue q }

/-- The number of messages that an operation leaves in a queue, if it has one. -/
def limit (holdNumber : ℕ) (msg : CMsgCommon) : Option ℕ :=
  match msg.m_oper with
  | .realtime | .hold => some holdNumber
  | .override => some 1
  | .passon | .other => none

/-- A message for a key whose queue has to be empty. -/
def isRealtime (msg : CMsgCommon) : Bool := msg.m_oper = .realtime && msg.m_key ≠ []

def advance (path : CMsgPath) (holdNumber : ℕ) (s : SharedQueues) (k : ℕ) (call : PushCall) (now : Timeval) :
    Option SharedQueues :=
  let key := call.msg.m_key
  match call.point with
  | .getQueue =>
    match s.m_queues key with
    | some queue => some (s.goto k call (.choose queue))
    | none => some (s.goto k call .erase)
  | .erase =>
    -- `allocQueue`, then the `erase` that `CLFHashMap::insert` begins with
    some { (s.setQueue s.allocated (CMsgQueue.allocQueue path key)).goto k call (.insert s.allocated) with
      m_queues := Function.update s.m_queues key none
      allocated := s.allocated + 1 }
  | .insert queue =>
    match s.m_queues key with
    | some _ => some (s.goto k call (.returned BNC_ERR))
    | none =>
      some { s.goto k call (.choose queue) with m_queues := Function.update s.m_queues key (some queue) }
  | .choose queue =>
    if call.msg.m_oper = .other || isRealtime call.msg && (s.queue queue).m_queue ≠ [] then
      some { s.goto k call (.returned BNC_OK) with dropped := k :: s.dropped }
    else some (s.goto k call (.push queue))
  | .push queue =>
    match (s.queue queue).push now k with
    | (false, _) => some { s.goto k call (.returned BNC_OK) with dropped := k :: s.dropped }
    | (true, q) =>
      if isRealtime call.msg || limit holdNumber call.msg = none then
        some ((s.setQueue queue q).goto k call (.returned BNC_OK))
      else some ((s.setQueue queue q).goto k call (.size queue))
  | .size queue =>
    match limit holdNumber call.msg with
    | none => none
    | some n =>
      if (s.queue queue).m_queue.length > n then some (s.goto k call (.drop queue))
      else some (s.goto k call (.returned BNC_OK))
  | .drop queue =>
    some { (s.setQueue queue (s.queue queue).pop.2).goto k call (.returned BNC_OK) with
      dropped := (s.queue queue).pop.1.toList ++ s.dropped }
  | .returned _ => none

def step (path : CMsgPath) (holdNumber : ℕ) (s : SharedQueues) : QueuesAction → Option SharedQueues
  | .pushMsg msg => some { s with calls := s.calls ++ [⟨msg, .getQueue⟩] }
  | .advance k now => s.calls[k]?.bind fun call => s.advance path holdNumber k call now
  | .popMsg key =>
    (s.m_queues key).map fun queue =>
      { s.setQueue queue (s.queue queue).pop.2 with popped := (s.queue queue).pop.1.toList ++ s.popped }

/-- A message that was pushed with success is in a queue of the map, unless it was popped or left out. -/
def Kept (s : SharedQueues) : Prop :=
  ∀ k call, s.calls[k]? = some call → call.point = .returned BNC_OK →
    k ∈ s.dropped ∨ k ∈ s.popped ∨ ∃ key queue, s.m_queues key = some queue ∧ k ∈ (s.queue queue).m_queue

/-- A call that creates a queue finds none that another call has created since it looked. -/
def CreatesFirst (s : SharedQueues) : QueuesAction → Prop
  | .advance k _ => ∀ call ∈ s.calls[k]?, call.point = .erase → s.m_queues call.msg.m_key = none
  | _ => True

instance (s : SharedQueues) (a : QueuesAction) : Decidable (s.CreatesFirst a) :=
  match a with
  | .advance k _ =>
    inferInstanceAs (Decidable (∀ call ∈ s.calls[k]?, call.point = .erase → s.m_queues call.msg.m_key = none))
  | .pushMsg _ | .popMsg _ => .isTrue trivial

end SharedQueues

/-- The queue that a call has taken from the map or put into it. -/
def PushPoint.holds : PushPoint → Option ℕ
  | choose queue | push queue | size queue | drop queue => some queue
  | _ => none

/-- The message of the call has been put into a queue or left out. -/
def PushPoint.placed : PushPoint → Prop
  | size _ | drop _ => True
  | returned ret => ret = BNC_OK
  | _ => False

namespace SharedQueues

variable {path : CMsgPath} {holdNumber k j queue : ℕ} {s s' : SharedQueues} {call : PushCall} {now : Timeval}
  {key : CMsgKey} {point : PushPoint} {a : QueuesAction} {q : CMsgQueue ℕ}

def Mapped (s : SharedQueues) (queue : ℕ) : Prop := ∃ key, s.m_queues key = some queue

def Placed (s : SharedQueues) (k : ℕ) : Prop :=
  k ∈ s.dropped ∨ k ∈ s.popped ∨ ∃ queue, k ∈ (s.queue queue).m_queue

structure Inv (s : SharedQueues) : Prop where
  reach : ∀ queue, (s.queue queue).m_queue ≠ [] → s.Mapped queue
  allocated : ∀ queue, s.Mapped queue → queue < s.allocated
  inserting : ∀ call ∈ s.calls, ∀ queue, call.point = .insert queue → queue < s.allocated
  held : ∀ call ∈ s.calls, ∀ queue, call.point.holds = some queue → s.Mapped queue
  placed : ∀ k call, s.calls[k]? = some call → call.point.placed → s.Placed k

/-- What a step of the call `k` does. -/
structure Advances (s : SharedQueues) (k : ℕ) (call : PushCall) (point : PushPoint) (s' : SharedQueues) : Prop where
  calls : s'.calls = s.calls.set k { call with point }
  mapped : ∀ queue, s.Mapped queue → s'.Mapped queue
  allocated_le : s.allocated ≤ s'.allocated
  allocated : ∀ queue, s'.Mapped queue → queue < s'.allocated
  inserting : ∀ queue, point = .insert queue → queue < s'.allocated
  held : ∀ queue, point.holds = some queue → s'.Mapped queue
  reach : ∀ queue, (s'.queue queue).m_queue ≠ [] → (s.queue queue).m_queue ≠ [] ∨ s'.Mapped queue
  placed : ∀ j, s.Placed j → s'.Placed j
  placed_self : point.placed → s'.Placed k

theorem Inv.kept (h : Inv s) : s.Kept := by
  intro k call hk hpoint
  rcases h.placed k call hk (hpoint ▸ rfl) with hd | hp | ⟨queue, hq⟩
  · exact .inl hd
  · exact .inr (.inl hp)
  · obtain ⟨key, hkey⟩ := h.reach queue (List.ne_nil_of_mem hq)
    exact .inr (.inr ⟨key, queue, hkey, hq⟩)

theorem start_inv : Inv start := by
  constructor <;> simp [start, Mapped]

theorem Inv.advances (h : Inv s) (ha : Advances s k call point s') : Inv s' := by
  have hmem : ∀ c ∈ s'.calls, c ∈ s.calls ∨ c = { call with point } := by
    intro c hc
    rw [ha.calls] at hc
    exact List.mem_or_eq_of_mem_set hc
  constructor
  · intro queue hq
    rcases ha.reach queue hq with hq | hq
    · exact ha.mapped queue (h.reach queue hq)
    · exact hq
  · exact ha.allocated
  · intro c hc queue hpoint
    rcases hmem c hc with hc | rfl
    · exact (h.inserting c hc queue hpoint).trans_le ha.allocated_le
    · exact ha.inserting queue hpoint
  · intro c hc queue hpoint
    rcases hmem c hc with hc | rfl
    · exact ha.mapped queue (h.held c hc queue hpoint)
    · exact ha.held queue hpoint
  · intro j c hj hpoint
    rw [ha.calls, List.getElem?_set] at hj
    split_ifs at hj with hjk hlt
    · obtain rfl := Option.some.inj hj
      exact hjk ▸ ha.placed_self hpoint
    · exact ha.placed j (h.placed j c hj hpoint)

/-- A step that only moves the call on. -/
theorem Inv.goto (h : Inv s) (hheld : ∀ queue, point.holds = some queue → s.Mapped queue)
    (hinsert : ∀ queue, point = .insert queue → queue < s.allocated) (hplaced : point.placed → s.Placed k) :
    Advances s k call point (s.goto k call point) where
  calls := rfl
  mapped _ hq := hq
  allocated_le := le_rfl
  allocated := h.allocated
  inserting := hinsert
  held := hheld
  reach _ hq := .inl hq
  placed _ hj := hj
  placed_self := hplaced

/-- The message of the call is left out. -/
theorem Inv.leaveOut (h : Inv s) :
    Advances s k call (.returned BNC_OK) { s.goto k call (.returned BNC_OK) with dropped := k :: s.dropped } where
  calls := rfl
  mapped _ hq := hq
  allocated_le := le_rfl
  allocated := h.allocated
  inserting _ hpoint := by cases hpoint
  held _ hpoint := by cases hpoint
  reach _ hq := .inl hq
  placed j hj := hj.imp_left (List.mem_cons_of_mem k)
  placed_self _ := .inl List.mem_cons_self

theorem Placed.setQueue (hj : s.Placed j)
    (hq : j ∈ (s.queue queue).m_queue → j ∈ q.m_queue) : (s.setQueue queue q).Placed j := by
  rcases hj with hd | hp | ⟨queue', hj⟩
  · exact .inl hd
  · exact .inr (.inl hp)
  · refine .inr (.inr ⟨queue', ?_⟩)
    by_cases heq : queue' = queue
    · subst heq
      simpa [SharedQueues.setQueue] using hq hj
    · simpa [SharedQueues.setQueue, heq] using hj

/-- The call puts its message into a queue of the map. -/
theorem Inv.enqueue (h : Inv s) (hqueue : s.Mapped queue) (hq : q.m_queue = (s.queue queue).m_queue ++ [k])
    (hheld : ∀ queue', point.holds = some queue' → queue' = queue) (hinsert : ∀ queue, point ≠ .insert queue) :
    Advances s k call point ((s.setQueue queue q).goto k call point) where
  calls := rfl
  mapped _ hq := hq
  allocated_le := le_rfl
  allocated := h.allocated
  inserting queue hpoint := absurd hpoint (hinsert queue)
  held queue' hpoint := hheld queue' hpoint ▸ hqueue
  reach queue' hq' := by
    by_cases heq : queue' = queue
    · exact .inr (heq ▸ hqueue)
    · refine .inl ?_
      simpa [SharedQueues.goto, SharedQueues.setQueue, heq] using hq'
  placed j hj := hj.setQueue fun hj => by
    rw [hq]
    exact List.mem_append_left _ hj
  placed_self _ := by
    refine .inr (.inr ⟨queue, ?_⟩)
    simp [SharedQueues.goto, SharedQueues.setQueue, hq]

/-- The first message of a queue is taken out, and is among those of `dropped` or `popped` from then on. -/
theorem Placed.pop (hj : s.Placed j) (queue : ℕ) :
    j ∈ (s.queue queue).pop.1.toList ∨ (s.setQueue queue (s.queue queue).pop.2).Placed j := by
  by_cases hhead : j ∈ (s.queue queue).pop.1.toList
  · exact .inl hhead
  · refine .inr (hj.setQueue fun hmem => ?_)
    cases hl : (s.queue queue).m_queue with
    | nil =>
      rw [hl] at hmem
      cases hmem
    | cons x xs =>
      rw [hl] at hmem
      simp only [CMsgQueue.pop, hl, List.head?_cons, Option.toList_some, List.mem_singleton] at hhead
      simpa [hl, hhead] using hmem

theorem reach_pop {queue' : ℕ} (hq : ((s.setQueue queue (s.queue queue).pop.2).queue queue').m_queue ≠ []) :
    (s.queue queue').m_queue ≠ [] := by
  by_cases heq : queue' = queue
  · subst heq
    intro hnil
    simp [SharedQueues.setQueue, hnil] at hq
  · simpa [SharedQueues.setQueue, heq] using hq

theorem Inv.drop (h : Inv s) (hplaced : s.Placed k) :
    Advances s k call (.returned BNC_OK)
      { (s.setQueue queue (s.queue queue).pop.2).goto k call (.returned BNC_OK) with
        dropped := (s.queue queue).pop.1.toList ++ s.dropped } := by
  have hall : ∀ j, s.Placed j → Placed
      { (s.setQueue queue (s.queue queue).pop.2).goto k call (.returned BNC_OK) with
        dropped := (s.queue queue).pop.1.toList ++ s.dropped } j := by
    intro j hj
    rcases hj.pop queue with hout | hd | hrest
    · exact .inl (List.mem_append_left _ hout)
    · exact .inl (List.mem_append_right _ hd)
    · exact .inr hrest
  exact {
    calls := rfl
    mapped _ hq := hq
    allocated_le := le_rfl
    allocated := h.allocated
    inserting _ hpoint := by cases hpoint
    held _ hpoint := by cases hpoint
    reach _ hq := .inl (reach_pop hq)
    placed := hall
    placed_self _ := hall k hplaced }

theorem Inv.erase (h : Inv s) (hnone : s.m_queues key = none) :
    Advances s k call (.insert s.allocated)
      { (s.setQueue s.allocated (CMsgQueue.allocQueue path key)).goto k call (.insert s.allocated) with
        m_queues := Function.update s.m_queues key none
        allocated := s.allocated + 1 } := by
  have hmap : Function.update s.m_queues key none = s.m_queues := by
    rw [← hnone, Function.update_eq_self]
  rw [hmap]
  have hempty : (s.queue s.allocated).m_queue = [] := by
    by_contra hne
    exact absurd (h.allocated _ (h.reach _ hne)) (lt_irrefl _)
  exact {
    calls := rfl
    mapped _ hq := hq
    allocated_le := Nat.le_succ _
    allocated _ hq := (h.allocated _ hq).trans (Nat.lt_succ_self _)
    inserting _ hpoint := by
      cases hpoint
      exact Nat.lt_succ_self _
    held _ hpoint := by cases hpoint
    reach queue hq := by
      refine .inl ?_
      by_cases heq : queue = s.allocated
      · subst heq
        simp [SharedQueues.goto, SharedQueues.setQueue] at hq
      · simpa [SharedQueues.goto, SharedQueues.setQueue, heq] using hq
    placed _ hj := hj.setQueue fun hmem => by
      rw [hempty] at hmem
      cases hmem
    placed_self := False.elim }

theorem Inv.insert (h : Inv s) (hqueue : queue < s.allocated) (hnone : s.m_queues key = none) :
    Advances s k call (.choose queue)
      { s.goto k call (.choose queue) with m_queues := Function.update s.m_queues key (some queue) } := by
  have hmapped : ∀ queue' key', s.m_queues key' = some queue' →
      Function.update s.m_queues key (some queue) key' = some queue' := by
    intro queue' key' hkey
    rw [Function.update_of_ne, hkey]
    rintro rfl
    rw [hnone] at hkey
    cases hkey
  exact {
    calls := rfl
    mapped := by
      rintro queue' ⟨key', hkey⟩
      exact ⟨key', hmapped queue' key' hkey⟩
    allocated_le := le_rfl
    allocated := by
      rintro queue' ⟨key', hkey⟩
      by_cases heq : key' = key
      · subst heq
        obtain rfl : queue = queue' := by simpa using hkey
        exact hqueue
      · exact h.allocated queue' ⟨key', by simpa [heq] using hkey⟩
    inserting _ hpoint := by cases hpoint
    held _ hpoint := by
      cases hpoint
      exact ⟨key, Function.update_self ..⟩
    reach _ hq := .inl hq
    placed _ hj := hj
    placed_self := False.elim }

theorem Inv.advance (h : Inv s) (hk : s.calls[k]? = some call)
    (hcreate : call.point = .erase → s.m_queues call.msg.m_key = none)
    (ha : s.advance path holdNumber k call now = some s') : ∃ point, Advances s k call point s' := by
  have hmem := List.mem_of_getElem? hk
  have hheld := h.held call hmem
  have hplaced := h.placed k call hk
  unfold SharedQueues.advance at ha
  cases hpoint : call.point with
  | getQueue =>
    simp only [hpoint] at ha
    split at ha
    · obtain rfl := Option.some.inj ha
      refine ⟨_, h.goto ?_ ?_ False.elim⟩
      · rintro _ ⟨⟩
        exact ⟨_, ‹_›⟩
      · rintro _ ⟨⟩
    · obtain rfl := Option.some.inj ha
      refine ⟨_, h.goto ?_ ?_ False.elim⟩
      · rintro _ ⟨⟩
      · rintro _ ⟨⟩
  | erase =>
    simp only [hpoint] at ha
    obtain rfl := Option.some.inj ha
    exact ⟨_, h.erase (hcreate hpoint)⟩
  | insert queue =>
    simp only [hpoint] at ha
    split at ha
    · obtain rfl := Option.some.inj ha
      refine ⟨_, h.goto ?_ ?_ ?_⟩
      · rintro _ ⟨⟩
      · rintro _ ⟨⟩
      · intro hret
        exact absurd hret (by decide : ¬ (BNC_ERR = BNC_OK))
    · obtain rfl := Option.some.inj ha
      exact ⟨_, h.insert (h.inserting call hmem queue hpoint) ‹_›⟩
  | choose queue =>
    simp only [hpoint] at ha
    split at ha
    · obtain rfl := Option.some.inj ha
      exact ⟨_, h.leaveOut⟩
    · obtain rfl := Option.some.inj ha
      refine ⟨_, h.goto ?_ ?_ False.elim⟩
      · rintro _ ⟨⟩
        exact hheld queue (hpoint ▸ rfl)
      · rintro _ ⟨⟩
  | push queue =>
    simp only [hpoint] at ha
    have hqueue := hheld queue (hpoint ▸ rfl)
    split at ha
    · obtain rfl := Option.some.inj ha
      exact ⟨_, h.leaveOut⟩
    · next q hpush =>
      have hq : q.m_queue = (s.queue queue).m_queue ++ [k] := by
        rcases (s.queue queue).push_cases now k with ⟨-, hq⟩ | ⟨hret, -⟩
        · rwa [hpush] at hq
        · rw [hpush] at hret
          cases hret
      split at ha
      · obtain rfl := Option.some.inj ha
        exact ⟨_, h.enqueue hqueue hq (fun _ hp => by cases hp) (fun _ hp => by cases hp)⟩
      · obtain rfl := Option.some.inj ha
        exact ⟨_, h.enqueue hqueue hq (fun _ hp => (Option.some.inj hp).symm) (fun _ hp => by cases hp)⟩
  | size queue =>
    simp only [hpoint] at ha
    have hself := hplaced (hpoint ▸ trivial)
    split at ha
    · cases ha
    · split at ha
      · obtain rfl := Option.some.inj ha
        refine ⟨_, h.goto ?_ ?_ fun _ => hself⟩
        · rintro _ ⟨⟩
          exact hheld queue (hpoint ▸ rfl)
        · rintro _ ⟨⟩
      · obtain rfl := Option.some.inj ha
        refine ⟨_, h.goto ?_ ?_ fun _ => hself⟩
        · rintro _ ⟨⟩
        · rintro _ ⟨⟩
  | drop queue =>
    simp only [hpoint] at ha
    obtain rfl := Option.some.inj ha
    exact ⟨_, h.drop (hplaced (hpoint ▸ trivial))⟩
  | returned ret =>
    simp only [hpoint] at ha
    cases ha

theorem Inv.pushMsg (h : Inv s) (msg : CMsgCommon) : Inv { s with calls := s.calls ++ [⟨msg, .getQueue⟩] } := by
  have hmem : ∀ c ∈ s.calls ++ [(⟨msg, .getQueue⟩ : PushCall)], c ∈ s.calls ∨ c.point = .getQueue := by
    intro c hc
    rcases List.mem_append.mp hc with hc | hc
    · exact .inl hc
    · obtain rfl := List.mem_singleton.mp hc
      exact .inr rfl
  constructor
  · exact h.reach
  · exact h.allocated
  · intro c hc queue hpoint
    rcases hmem c hc with hc | hc
    · exact h.inserting c hc queue hpoint
    · rw [hc] at hpoint
      cases hpoint
  · intro c hc queue hpoint
    rcases hmem c hc with hc | hc
    · exact h.held c hc queue hpoint
    · rw [hc] at hpoint
      cases hpoint
  · intro k c hk hpoint
    change (s.calls ++ [_])[k]? = some c at hk
    rw [List.getElem?_append] at hk
    split_ifs at hk
    · exact h.placed k c hk hpoint
    · obtain rfl := List.mem_singleton.mp (List.mem_of_getElem? hk)
      exact hpoint.elim

theorem Inv.popMsg (h : Inv s) :
    Inv { s.setQueue queue (s.queue queue).pop.2 with popped := (s.queue queue).pop.1.toList ++ s.popped } where
  reach queue' hq := h.reach queue' (reach_pop hq)
  allocated := h.allocated
  inserting := h.inserting
  held := h.held
  placed k call hk hpoint := by
    rcases (h.placed k call hk hpoint).pop queue with hout | hd | hp | hrest
    · exact .inr (.inl (List.mem_append_left _ hout))
    · exact .inl hd
    · exact .inr (.inl (List.mem_append_right _ hp))
    · exact .inr (.inr hrest)

theorem Inv.step (h : Inv s) (hcreate : s.CreatesFirst a) (he : s.step path holdNumber a = some s') : Inv s' := by
  cases a with
  | pushMsg msg =>
    obtain rfl := Option.some.inj he
    exact h.pushMsg msg
  | advance k now =>
    obtain ⟨call, hk, ha⟩ := Option.bind_eq_some_iff.mp he
    obtain ⟨point, hadv⟩ := h.advance hk (hcreate call hk) ha
    exact h.advances hadv
  | popMsg key =>
    obtain ⟨queue, -, rfl⟩ := Option.map_eq_some_iff.mp he
    exact h.popMsg

/-- As long as every queue that is created is the first for its key, no message is lost with a queue that was
replaced. -/
theorem pushed_kept (path : CMsgPath) (holdNumber : ℕ)
    (h : Run (SharedQueues.step path holdNumber) CreatesFirst start s) : s.Kept :=
  (h.invariant (P := Inv) (fun _ _ _ hi hc he => hi.step hc he) start_inv).kept

/-- A call of a message to be passed on, from its look at the map to its return. -/
def onePush : List QueuesAction :=
  .pushMsg ⟨.passon, []⟩ :: List.replicate 5 (.advance 0 ⟨0, 0⟩)

theorem onePush_kept : ∃ s, exec (step [] 0) start onePush = some s ∧
    s.calls = [⟨⟨.passon, []⟩, .returned BNC_OK⟩] ∧ s.Kept :=
  ⟨_, rfl, rfl, pushed_kept [] 0 (Run.of_exec (show exec (guarded _ _) start onePush = some _ from rfl))⟩

/-- Both calls look before either of them creates the queue. -/
def race : List QueuesAction :=
  [.pushMsg ⟨.passon, []⟩, .pushMsg ⟨.passon, []⟩, .advance 0 ⟨0, 0⟩, .advance 1 ⟨0, 0⟩] ++
    List.replicate 4 (.advance 0 ⟨0, 0⟩) ++ List.replicate 4 (.advance 1 ⟨0, 0⟩)

theorem race_not_kept : ¬ ∀ (path : CMsgPath) (holdNumber : ℕ) (s : SharedQueues),
    Reaches (SharedQueues.step path holdNumber) start s → s.Kept := by
  intro h
  have hkept := h [] 0 _ (Reaches.of_exec (show exec (step [] 0) start race = some _ from rfl))
  rcases hkept 0 ⟨⟨.passon, []⟩, .returned BNC_OK⟩ rfl rfl with hd | hp | ⟨key, queue, hkey, hmem⟩
  · cases hd
  · cases hp
  · by_cases hnil : key = []
    · subst hnil
      obtain rfl : 1 = queue := Option.some.inj hkey
      exact absurd (show 0 ∈ [1] from hmem) (by decide)
    · have hmap : Function.update (Function.update (Function.update (Function.update (fun _ => none) [] none) []
          (some 0)) [] none) [] (some 1) key = some queue := hkey
      simp [hnil] at hmap

end SharedQueues

end DCFabric
