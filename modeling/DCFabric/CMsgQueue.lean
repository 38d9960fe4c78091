import DCFabric.BncTypes

namespace DCFabric

abbrev CMsgPath := List Char

abbrev CMsgKey := List Char

/-- `msg_operation_e`; `other` is every value that `CMsgQueues::push` has no case for. -/
inductive MsgOper where
  | realtime
  | hold
  | override
  | passon
  | other
deriving DecidableEq

structure CMsgCommon where
  m_oper : MsgOper
  m_key : CMsgKey
deriving DecidableEq

def g_of13MsgPathArpReq : CMsgPath := "4,10,0806,1".toList

def g_of13MsgPathIp : CMsgPath := "4,10,0800".toList

structure Timeval where
  tv_sec : ℤ
  tv_usec : ℤ
deriving DecidableEq

inductive MsgQueueKind where
  | unlimited
  | pushLimited
  | popLimited
deriving DecidableEq

/-- A queue of a class derived from `CMsgQueue`, its first element next to be popped. -/
structure CMsgQueue (M : Type) where
  kind : MsgQueueKind
  m_queue : List M
  m_tv : Timeval
deriving DecidableEq

namespace CMsgQueue

variable {M : Type} {q : CMsgQueue M} {now : Timeval} {msg x : M}

/-- `m_speed` of `CPushLimitedMsgQueue`, 20 ms in microseconds. -/
def m_speed : ℤ := 20 * 1000

/-- Whether `CPushLimitedMsgQueue::push` leaves the message out. -/
def tooFast (q : CMsgQueue M) (now : Timeval) : Bool :=
  !(q.m_tv.tv_sec = 0 && q.m_tv.tv_usec = 0) &&
    (now.tv_sec = q.m_tv.tv_sec && now.tv_usec - q.m_tv.tv_usec < m_speed)

/-- The return value says that the message was taken. -/
def push (q : CMsgQueue M) (now : Timeval) (msg : M) : Bool × CMsgQueue M :=
  match q.kind with
  | .pushLimited =>
    if q.tooFast now then (false, q) else (true, { q with m_queue := q.m_queue ++ [msg], m_tv := now })
  | .unlimited | .popLimited => (true, { q with m_queue := q.m_queue ++ [msg] })

def pop (q : CMsgQueue M) : Option M × CMsgQueue M := (q.m_queue.head?, { q with m_queue := q.m_queue.tail })

/-- `CMsgQueues::allocQueue`. -/
def allocQueue (path : CMsgPath) (key : CMsgKey) : CMsgQueue M :=
  let kind :=
    if key ≠ [] ∧ path = g_of13MsgPathArpReq then .pushLimited
    else if key ≠ [] ∧ path = g_of13MsgPathIp then .popLimited
    else .unlimited
  ⟨kind, [], ⟨0, 0⟩⟩

/-- The copy constructor of `CMsgQueue`, whatever the class of the queue that is copied. -/
def copy (q : CMsgQueue M) : CMsgQueue M := ⟨.unlimited, q.m_queue, ⟨0, 0⟩⟩

/-- A push appends the message or leaves the messages as they are. -/
theorem push_cases (q : CMsgQueue M) (now : Timeval) (msg : M) :
    (q.push now msg).1 = true ∧ (q.push now msg).2.m_queue = q.m_queue ++ [msg] ∨
      (q.push now msg).1 = false ∧ (q.push now msg).2 = q := by
  unfold push
  split
  · split_ifs
    · exact .inr ⟨rfl, rfl⟩
    · exact .inl ⟨rfl, rfl⟩
  all_goals exact .inl ⟨rfl, rfl⟩

theorem push_kind (q : CMsgQueue M) (now : Timeval) (msg : M) : (q.push now msg).2.kind = q.kind := by
  unfold push
  split
  · split_ifs <;> rfl
  all_goals rfl

theorem limited_of_not_taken (q : CMsgQueue M) (h : (q.push now msg).1 = false) : q.kind = .pushLimited := by
  unfold push at h
  split at h
  · assumption
  all_goals cases h

@[simp] theorem allocQueue_messages (path : CMsgPath) (key : CMsgKey) :
    (allocQueue path key : CMsgQueue M).m_queue = [] := rfl

@[simp] theorem copy_messages : q.copy.m_queue = q.m_queue := rfl

@[simp] theorem pop_messages : q.pop.2.m_queue = q.m_queue.tail := rfl

end CMsgQueue

end DCFabric
