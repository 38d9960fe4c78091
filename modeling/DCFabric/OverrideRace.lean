import DCFabric.CMsgQueue
import DCFabric.TransitionRuns

namespace DCFabric

open TransitionRuns

/-- Where the producer is in a `CMsgQueues::push` of an `MSG_OPER_OVERRIDE` message: the next access it makes. -/
inductive OverridePoint where
  | idle
  | size
  | drop
  | notify
deriving DecidableEq

/-- Where the worker is, from its wait to the end of `handle`. -/
inductive PopPoint where
  | waiting
  | woken
  | pop
  | handling (msg : ℕ)
deriving DecidableEq

/-- The queue of a key with its producer and the worker of its consumer. A message is the number of messages that the
queue took before it. -/
structure OverrideRace where
  queue : CMsgQueue ℕ
  taken : ℕ
  producer : OverridePoint
  m_sem : ℕ
  worker : PopPoint
  dropped : List ℕ
  handed : List ℕ

inductive OverrideAction where
  | push (now : Timeval)
  | size
  | drop
  | notify
  | wait
  | empty
  | pop
  | handled

namespace OverrideRace

def start (path : CMsgPath) (key : CMsgKey) : OverrideRace := ⟨.allocQueue path key, 0, .idle, 0, .waiting, [], []⟩

def step (s : OverrideRace) : OverrideAction → Option OverrideRace
  | .push now =>
    if s.producer = .idle then
      match s.queue.push now s.taken with
      | (false, queue) => some { s with queue }
      | (true, queue) => some { s with queue, taken := s.taken + 1, producer := .size }
    else none
  | .size =>
    if s.producer = .size then some { s with producer := if s.queue.m_queue.length > 1 then .drop else .notify }
    else none
  | .drop =>
    if s.producer = .drop then
      some { s with
        queue := s.queue.pop.2
        producer := .idle
        dropped := s.queue.pop.1.toList ++ s.dropped }
    else none
  | .notify => if s.producer = .notify then some { s with producer := .idle, m_sem := s.m_sem + 1 } else none
  | .wait =>
    if s.worker = .waiting ∧ 0 < s.m_sem then some { s with m_sem := s.m_sem - 1, worker := .woken } else none
  -- `popMsg` passes by a queue that is empty
  | .empty =>
    if s.worker = .woken then some { s with worker := if s.queue.m_queue = [] then .waiting else .pop } else none
  | .pop =>
    if s.worker = .pop then
      some { s with
        queue := s.queue.pop.2
        worker := (s.queue.pop.1.map .handling).getD .waiting
        handed := s.queue.pop.1.toList ++ s.handed }
    else none
  | .handled =>
    match s.worker with
    | .handling _ => some { s with worker := .waiting }
    | _ => none

/-- The message that was pushed last is not dropped, and once both threads are idle it has been handed to the worker or
is in the queue with a wake-up pending. -/
def KeepsLast (s : OverrideRace) : Prop :=
  ∀ msg, s.taken = msg + 1 → msg ∉ s.dropped ∧
    (s.producer = .idle → s.worker = .waiting → msg ∈ s.handed ∨ msg ∈ s.queue.m_queue ∧ 0 < s.m_sem)

/-- The queue is not down to one message when its head is dropped. -/
def DropsOld (s : OverrideRace) : OverrideAction → Prop
  | .drop => s.queue.m_queue.length ≠ 1
  | _ => True

instance (s : OverrideRace) (a : OverrideAction) : Decidable (s.DropsOld a) :=
  match a with
  | .drop => inferInstanceAs (Decidable (s.queue.m_queue.length ≠ 1))
  | .push _ | .size | .notify | .wait | .empty | .pop | .handled => .isTrue trivial

/-- The post that the push under way makes, or the message that it takes out. -/
def pending (s : OverrideRace) : ℕ := if s.producer = .idle then 0 else 1

/-- The wake-up that the worker has taken. -/
def woken (s : OverrideRace) : ℕ := if s.worker = .woken ∨ s.worker = .pop then 1 else 0

structure Inv (s : OverrideRace) : Prop where
  /-- The messages that are left are the last that were taken. -/
  queue : ∃ n ≤ s.taken, s.queue.m_queue = List.range' n (s.taken - n) ∧ ∀ msg < n, msg ∈ s.dropped ∨ msg ∈ s.handed
  dropped : ∀ msg ∈ s.dropped, msg + 1 < s.taken
  announced : s.queue.m_queue.length ≤ s.m_sem + s.woken + s.pending

variable {s s' : OverrideRace} {a : OverrideAction}

theorem start_inv {path : CMsgPath} {key : CMsgKey} : (start path key).Inv where
  queue := ⟨0, le_rfl, rfl, nofun⟩
  dropped := nofun
  announced := Nat.zero_le _

theorem Inv.keepsLast (h : s.Inv) : s.KeepsLast := by
  obtain ⟨n, hn, hqueue, hgone⟩ := h.queue
  intro msg hmsg
  have hlast : msg ∉ s.dropped := fun hmem => absurd (h.dropped msg hmem) (by omega)
  refine ⟨hlast, fun hidle hwaiting => ?_⟩
  by_cases hlt : msg < n
  · exact .inl ((hgone msg hlt).resolve_left hlast)
  · right
    have hannounced := h.announced
    rw [woken, pending, hidle, hwaiting, hqueue, List.length_range'] at hannounced
    simp at hannounced
    refine ⟨?_, by omega⟩
    rw [hqueue, List.mem_range'_1]
    omega

/-- A pop takes the oldest of the messages that are left. -/
theorem Inv.pop_cases (h : s.Inv) : s.queue.m_queue = [] ∧ s.queue.pop.1 = none ∧ s.queue.pop.2.m_queue = [] ∨
    ∃ n < s.taken, s.queue.m_queue.length = s.taken - n ∧ s.queue.pop.1 = some n ∧
      s.queue.pop.2.m_queue = List.range' (n + 1) (s.taken - (n + 1)) ∧ ∀ msg < n, msg ∈ s.dropped ∨
        msg ∈ s.handed := by
  obtain ⟨n, hn, hqueue, hgone⟩ := h.queue
  rw [CMsgQueue.pop_messages, CMsgQueue.pop, hqueue]
  rcases hn.eq_or_lt with rfl | hlt
  · left
    simp
  · right
    obtain ⟨k, hk⟩ := Nat.exists_eq_add_of_lt hlt
    have hsub : s.taken - n = k + 1 := by omega
    have hsub' : s.taken - (n + 1) = k := by omega
    refine ⟨n, hlt, ?_⟩
    rw [hsub, hsub', List.range'_succ]
    exact ⟨by simp, rfl, rfl, hgone⟩

theorem Inv.push {now : Timeval} (h : s.Inv) (he : s.step (.push now) = some s') : s'.Inv := by
  rw [step] at he
  split_ifs at he with hidle
  rcases s.queue.push_cases now s.taken with ⟨hret, hq⟩ | ⟨hret, hq⟩
  all_goals
    generalize s.queue.push now s.taken = r at he hret hq
    obtain ⟨ret, queue⟩ := r
    dsimp only at hret hq
    subst hret
    obtain rfl := Option.some.inj he
  · obtain ⟨n, hn, hqueue, hgone⟩ := h.queue
    refine ⟨⟨n, hn.trans (Nat.le_succ _), ?_, hgone⟩, fun msg hmsg => (h.dropped msg hmsg).trans (Nat.lt_succ_self _),
      ?_⟩
    · dsimp only
      rw [hq, hqueue, Nat.succ_sub hn, List.range'_concat]
      simp [hn]
    · have hannounced := h.announced
      rw [pending, if_pos hidle] at hannounced
      simp only [pending, woken, hq, List.length_append, List.length_singleton] at hannounced ⊢
      simp
      omega
  · rw [hq]
    exact ⟨h.queue, h.dropped, h.announced⟩

theorem Inv.drop (h : s.Inv) (hold : s.DropsOld .drop) (he : s.step .drop = some s') : s'.Inv := by
  rw [step] at he
  split_ifs at he with hdrop
  obtain rfl := Option.some.inj he
  have hannounced := h.announced
  rw [pending, if_neg (by simp [hdrop])] at hannounced
  rcases h.pop_cases with ⟨hempty, hpop, hqueue⟩ | ⟨n, hn, hlength, hpop, hqueue, hgone⟩
  · obtain ⟨n, hn, hrange, hgone⟩ := h.queue
    refine ⟨⟨n, hn, ?_, ?_⟩, ?_, ?_⟩
    · dsimp only
      rw [hqueue, ← hrange, hempty]
    · simpa [hpop] using hgone
    · simpa [hpop] using h.dropped
    · dsimp only
      rw [hqueue]
      exact Nat.zero_le _
  · have hlast : n + 1 < s.taken := by
      have hne : s.taken - n ≠ 1 := hlength ▸ hold
      omega
    refine ⟨⟨n + 1, hn, hqueue, fun msg hmsg => ?_⟩, ?_, ?_⟩
    · dsimp only
      rw [hpop]
      rcases (Nat.lt_succ_iff.mp hmsg).eq_or_lt with rfl | hlt
      · exact .inl List.mem_cons_self
      · exact (hgone msg hlt).imp_left (List.mem_cons_of_mem n)
    · dsimp only
      rw [hpop]
      intro msg hmsg
      rcases List.mem_cons.mp hmsg with rfl | hmsg
      · exact hlast
      · exact h.dropped msg hmsg
    · dsimp only [woken, pending] at hannounced ⊢
      rw [hqueue, List.length_range']
      omega

theorem Inv.pop (h : s.Inv) (he : s.step .pop = some s') : s'.Inv := by
  rw [step] at he
  split_ifs at he with hpoint
  obtain rfl := Option.some.inj he
  have hannounced := h.announced
  rw [woken, if_pos (.inr hpoint)] at hannounced
  rcases h.pop_cases with ⟨hempty, hpop, hqueue⟩ | ⟨n, hn, hlength, hpop, hqueue, hgone⟩
  · obtain ⟨n, hn, hrange, hgone⟩ := h.queue
    refine ⟨⟨n, hn, ?_, ?_⟩, h.dropped, ?_⟩
    · dsimp only
      rw [hqueue, ← hrange, hempty]
    · simpa [hpop] using hgone
    · dsimp only
      rw [hqueue]
      exact Nat.zero_le _
  · refine ⟨⟨n + 1, hn, hqueue, fun msg hmsg => ?_⟩, h.dropped, ?_⟩
    · dsimp only
      rw [hpop]
      rcases (Nat.lt_succ_iff.mp hmsg).eq_or_lt with rfl | hlt
      · exact .inr List.mem_cons_self
      · exact (hgone msg hlt).imp_right (List.mem_cons_of_mem n)
    · dsimp only [woken, pending] at hannounced ⊢
      rw [hqueue, List.length_range']
      omega

theorem Inv.step (h : s.Inv) (hold : s.DropsOld a) (he : s.step a = some s') : s'.Inv := by
  have hannounced := h.announced
  cases a with
  | push now => exact h.push he
  | drop => exact h.drop hold he
  | pop => exact h.pop he
  | size =>
    rw [OverrideRace.step] at he
    split_ifs at he with hpoint
    all_goals
      obtain rfl := Option.some.inj he
      refine ⟨h.queue, h.dropped, ?_⟩
      simpa [pending, woken, hpoint] using hannounced
  | notify =>
    rw [OverrideRace.step] at he
    split_ifs at he with hpoint
    obtain rfl := Option.some.inj he
    refine ⟨h.queue, h.dropped, ?_⟩
    simp only [pending, hpoint, woken] at hannounced ⊢
    simp at hannounced ⊢
    omega
  | wait =>
    rw [OverrideRace.step] at he
    split_ifs at he with hpoint
    obtain rfl := Option.some.inj he
    refine ⟨h.queue, h.dropped, ?_⟩
    simp only [pending, woken, hpoint.1] at hannounced ⊢
    simp at hannounced ⊢
    omega
  | empty =>
    rw [OverrideRace.step] at he
    split_ifs at he with hpoint hempty
    all_goals
      obtain rfl := Option.some.inj he
      refine ⟨h.queue, h.dropped, ?_⟩
    · rw [hempty]
      exact Nat.zero_le _
    · simpa [pending, woken, hpoint] using hannounced
  | handled =>
    rw [OverrideRace.step] at he
    split at he
    · next msg hpoint =>
      obtain rfl := Option.some.inj he
      refine ⟨h.queue, h.dropped, ?_⟩
      simpa [pending, woken, hpoint] using hannounced
    · cases he

/-- The head that is dropped from a queue of one message is the message that was pushed last. -/
theorem Inv.dropsOld_iff (h : s.Inv) (he : s.step a = some s') : s.DropsOld a ↔ s'.KeepsLast := by
  refine ⟨fun hold => (h.step hold he).keepsLast, fun hkeeps => ?_⟩
  cases a with
  | drop =>
    intro hone
    rw [OverrideRace.step] at he
    split_ifs at he with hdrop
    obtain rfl := Option.some.inj he
    rcases h.pop_cases with ⟨hempty, -⟩ | ⟨n, hn, hlength, hpop, -⟩
    · rw [hempty] at hone
      cases hone
    · have hlast : s.taken = n + 1 := by omega
      apply (hkeeps n hlast).1
      dsimp only
      rw [hpop]
      exact List.mem_cons_self
  | push | size | notify | wait | empty | pop | handled => trivial

/-- The message that was pushed last is kept in every run in which no head is dropped from a queue that the worker has
left with one message, and lost by a step that drops it. -/
theorem last_message_kept (path : CMsgPath) (key : CMsgKey) (h : Run step DropsOld (start path key) s) :
    s.KeepsLast ∧ ∀ a s', s.step a = some s' → (s.DropsOld a ↔ s'.KeepsLast) := by
  have hinv : s.Inv := by
    apply h.invariant (P := Inv) _ start_inv
    intro t a u ht hold he
    exact ht.step hold he
  exact ⟨hinv.keepsLast, fun a s' he => hinv.dropsOld_iff he⟩

/-- Two pushes, of which the second takes the place of the first. -/
def replaced : List OverrideAction :=
  [.push ⟨0, 0⟩, .size, .notify, .push ⟨0, 0⟩, .size, .drop, .wait, .empty, .pop, .handled]

theorem replaced_kept : ∃ s, exec step (start [] []) replaced = some s ∧ s.dropped = [0] ∧ s.handed = [1] ∧
    s.KeepsLast ∧ ∀ a s', s.step a = some s' → (s.DropsOld a ↔ s'.KeepsLast) :=
  ⟨_, rfl, rfl, rfl, last_message_kept [] []
    (Run.of_exec (show exec (guarded _ _) (start [] []) replaced = some _ from rfl))⟩

/-- The worker takes the first message between the test of the second push and its drop. -/
def race : List OverrideAction :=
  [.push ⟨0, 0⟩, .size, .notify, .push ⟨0, 0⟩, .size, .wait, .empty, .pop, .handled, .drop]

theorem newest_dropped : ¬ ∀ path key s, Reaches step (start path key) s → s.KeepsLast := by
  intro h
  have hkeeps := h [] [] _ (Reaches.of_exec (show exec step (start [] []) race = some _ from rfl)) 1 rfl
  exact hkeeps.1 List.mem_cons_self

end OverrideRace

end DCFabric
