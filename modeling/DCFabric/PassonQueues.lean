import DCFabric.CMsgTreeNode
import DCFabric.RoundRobin

namespace DCFabric

open ListUpdates RoundRobin TransitionRuns

/-- A lock-free `CMsgQueues` whose map iterates over the queues as the list does. -/
structure KeyQueues (M : Type) where
  m_queues : List (CMsgKey × CMsgQueue M)
  m_pos : ℕ
deriving DecidableEq

namespace KeyQueues

variable {M : Type}

def keys (c : KeyQueues M) : List CMsgKey := c.m_queues.map Prod.fst

/-- All messages in the queues. -/
def queued (c : KeyQueues M) : List M := c.m_queues.flatMap (·.2.m_queue)

/-- The loop of `popMsg` over at most so many queues, from the one at `m_pos`. -/
def scan (m_queues : List (CMsgKey × CMsgQueue M)) : ℕ → ℕ → Option M × KeyQueues M
  | 0, m_pos => (none, ⟨m_queues, m_pos⟩)
  | n + 1, m_pos =>
    match m_queues[m_pos]? with
    | none => (none, ⟨m_queues, m_pos⟩)
    | some (key, queue) =>
      if queue.m_queue = [] then scan m_queues n (if m_pos + 1 = m_queues.length then 0 else m_pos + 1)
      else (queue.pop.1, ⟨m_queues.set m_pos (key, queue.pop.2), m_pos + 1⟩)

def popMsg (c : KeyQueues M) : Option M × KeyQueues M :=
  let size := c.m_queues.length
  if size = 0 then (none, c) else scan c.m_queues size (c.m_pos % size)

/-- `push` of a `MSG_OPER_PASSON` message; the return value is that of the queue. -/
def push (c : KeyQueues M) (now : Timeval) (key : CMsgKey) (msg : M) : Bool × KeyQueues M :=
  match c.m_queues.find? (·.1 = key) with
  | none => (false, c)
  | some (_, queue) =>
    let (taken, queue) := queue.push now msg
    (taken, { c with m_queues := c.m_queues.map fun e => if e.1 = key then (key, queue) else e })

variable [DecidableEq M]

/-- `arranged` is the order in which the map iterates after the insertion, if it is one. -/
def createQueue (c : KeyQueues M) (path : CMsgPath) (arranged : List (CMsgKey × CMsgQueue M)) (key : CMsgKey) :
    Option (KeyQueues M) :=
  if arranged.Perm ((key, .allocQueue path key) :: c.m_queues) then some { c with m_queues := arranged } else none

local instance lawfulBEq_key : LawfulBEq CMsgKey := inferInstance

def pushMsg (c : KeyQueues M) (path : CMsgPath) (arranged : List (CMsgKey × CMsgQueue M)) (now : Timeval)
    (key : CMsgKey) (msg : M) : Option (Bool × KeyQueues M) :=
  (if key ∈ c.keys then some c else c.createQueue path arranged key).map fun c => c.push now key msg

end KeyQueues

example (holdNumber : ℕ) (queue : CMsgQueue CMsgCommon) (now : Timeval) (key : CMsgKey) :
    CMsgQueues.push holdNumber queue now ⟨.passon, key⟩ = queue.push now ⟨.passon, key⟩ := rfl

/-- The calls that were made: each message with whether its queue took it, and what `popMsg` returned. -/
structure PassonRun (M : Type) where
  queues : KeyQueues M
  pushed : List (M × Bool)
  popped : List M
deriving DecidableEq

inductive PassonCall (M : Type) where
  | pushMsg (arranged : List (CMsgKey × CMsgQueue M)) (now : Timeval) (msg : M)
  | popMsg

namespace PassonRun

variable {M : Type}

def start : PassonRun M := ⟨⟨[], 0⟩, [], []⟩

def taken (s : PassonRun M) : List M := (s.pushed.filter (·.2)).map Prod.fst

variable [DecidableEq M]

def step (getKey : M → CMsgKey) (path : CMsgPath) (s : PassonRun M) : PassonCall M → Option (PassonRun M)
  | .pushMsg arranged now msg =>
    (s.queues.pushMsg path arranged now (getKey msg) msg).map fun (taken, queues) =>
      { s with queues, pushed := s.pushed ++ [(msg, taken)] }
  | .popMsg =>
    let (msg, queues) := s.queues.popMsg
    some { s with queues, popped := s.popped ++ msg.toList }

/-- The call adds no key. -/
def KeepsKeys (getKey : M → CMsgKey) (s : PassonRun M) : PassonCall M → Prop
  | .pushMsg _ _ msg => getKey msg ∈ s.queues.keys
  | .popMsg => True

end PassonRun

namespace KeyQueues

variable {M : Type} {c c' : KeyQueues M} {m_queues : List (CMsgKey × CMsgQueue M)} {m_pos n : ℕ} {key : CMsgKey}
  {queue : CMsgQueue M} {x : M}

/-- The queues from the position on, around to the one before it. -/
def rotated (c : KeyQueues M) : List (CMsgKey × CMsgQueue M) := c.m_queues.rotate c.m_pos

theorem rotated_perm (c : KeyQueues M) : c.rotated.Perm c.m_queues := List.rotate_perm _ _

theorem keys_rotated (c : KeyQueues M) : c.rotated.map Prod.fst = c.keys.rotate c.m_pos := List.map_rotate _ _ _

/-- What a call of `popMsg` does. -/
inductive Pops (c : KeyQueues M) : Option M → KeyQueues M → Prop
  | nothing {c' : KeyQueues M} (hempty : ∀ e ∈ c.m_queues, e.2.m_queue = []) (hqueues : c'.m_queues = c.m_queues) :
    Pops c none c'
  | message {c' : KeyQueues M} (pre : List (CMsgKey × CMsgQueue M)) (key : CMsgKey) (queue : CMsgQueue M) (x : M)
    (rest : List M) (post : List (CMsgKey × CMsgQueue M)) (hrotated : c.rotated = pre ++ (key, queue) :: post)
    (hpre : ∀ e ∈ pre, e.2.m_queue = []) (hqueue : queue.m_queue = x :: rest)
    (hrotated' : c'.rotated = post ++ pre ++ [(key, { queue with m_queue := rest })]) : Pops c (some x) c'

/-- By induction on the queues that are left to look at; the first of those in order is looked at. -/
theorem scan_cases (hpos : m_pos < m_queues.length) (hn : n ≤ m_queues.length) :
    ((∀ e ∈ (m_queues.rotate m_pos).take n, e.2.m_queue = []) ∧ (scan m_queues n m_pos).1 = none ∧
        (scan m_queues n m_pos).2.m_queues = m_queues) ∨
      ∃ pre key queue x rest post, m_queues.rotate m_pos = pre ++ (key, queue) :: post ∧
        (∀ e ∈ pre, e.2.m_queue = []) ∧ queue.m_queue = x :: rest ∧ (scan m_queues n m_pos).1 = some x ∧
          (scan m_queues n m_pos).2.rotated = post ++ pre ++ [(key, { queue with m_queue := rest })] := by
  induction n generalizing m_pos with
  | zero => exact .inl ⟨by simp, rfl, rfl⟩
  | succ n ih =>
    have hrot := rotate_of_lt hpos
    obtain ⟨⟨key, queue⟩, hentry⟩ : ∃ e, m_queues[m_pos] = e := ⟨_, rfl⟩
    rw [hentry] at hrot
    have hget : m_queues[m_pos]? = some (key, queue) := by rw [List.getElem?_eq_getElem hpos, hentry]
    rw [scan, hget, hrot]
    dsimp only
    generalize hrest : m_queues.drop (m_pos + 1) ++ m_queues.take m_pos = rest at hrot
    have hlen : rest.length + 1 = m_queues.length := by
      rw [← List.length_rotate m_queues m_pos, hrot, List.length_cons]
    by_cases hempty : queue.m_queue = []
    · rw [if_pos hempty]
      have hnext : (if m_pos + 1 = m_queues.length then 0 else m_pos + 1) < m_queues.length := by
        split_ifs <;> omega
      have hrotate : m_queues.rotate (if m_pos + 1 = m_queues.length then 0 else m_pos + 1) = rest ++ [(key, queue)] :=
        (rotate_wrap m_queues (m_pos + 1)).trans (rotate_succ hrot)
      rcases ih hnext (by omega) with ⟨hall, hnone, hqueues⟩ | ⟨pre, key', queue', x, xs, post, hfound, hpre, hx, hmsg, hrot'⟩
      · refine .inl ⟨?_, hnone, hqueues⟩
        rw [hrotate, List.take_append_of_le_length (by omega)] at hall
        rw [List.take_succ_cons]
        exact List.forall_mem_cons.mpr ⟨hempty, hall⟩
      · right
        rw [hrotate] at hfound
        -- the queue that was passed is empty, so it stands behind the one that is found
        obtain ⟨post, rfl⟩ : ∃ post', post = post' ++ [(key, queue)] := by
          rcases List.eq_nil_or_concat post with rfl | ⟨post', e, rfl⟩
          · obtain ⟨-, heq⟩ := List.append_inj' hfound rfl
            obtain ⟨-, rfl⟩ := Prod.mk.inj (List.singleton_inj.mp heq)
            rw [hempty] at hx
            cases hx
          · have heq : rest ++ [(key, queue)] = (pre ++ (key', queue') :: post') ++ [e] := by simpa using hfound
            obtain ⟨-, heq⟩ := List.append_inj' heq rfl
            exact ⟨post', by rw [List.concat_eq_append, List.singleton_inj.mp heq]⟩
        refine ⟨(key, queue) :: pre, key', queue', x, xs, post, ?_, List.forall_mem_cons.mpr ⟨hempty, hpre⟩, hx, hmsg, ?_⟩
        · have heq : rest ++ [(key, queue)] = (pre ++ (key', queue') :: post) ++ [(key, queue)] := by
            simpa using hfound
          rw [List.append_cancel_right heq, List.cons_append]
        · rw [hrot']
          simp
    · rw [if_neg hempty]
      obtain ⟨x, xs, hx⟩ := List.exists_cons_of_ne_nil hempty
      refine .inr ⟨[], key, queue, x, xs, rest, rfl, by simp, hx, ?_, ?_⟩
      · rw [CMsgQueue.pop, hx, List.head?_cons]
      · rw [List.append_nil, CMsgQueue.pop, hx, List.tail_cons]
        exact rotate_set hrot hpos _

theorem popMsg_pops (c : KeyQueues M) : Pops c c.popMsg.1 c.popMsg.2 := by
  unfold popMsg
  dsimp only
  by_cases hsize : c.m_queues.length = 0
  · rw [if_pos hsize]
    apply Pops.nothing _ rfl
    rw [List.eq_nil_of_length_eq_zero hsize]
    simp
  · rw [if_neg hsize]
    have hpos := Nat.mod_lt c.m_pos (Nat.pos_of_ne_zero hsize)
    rcases scan_cases hpos le_rfl with ⟨hall, hnone, hqueues⟩ | ⟨pre, key, queue, x, xs, post, hfound, hpre, hx, hmsg, hrot⟩
    · rw [hnone]
      apply Pops.nothing _ hqueues
      intro e he
      apply hall
      rw [List.take_of_length_le (by simp)]
      exact List.mem_rotate.mpr he
    · rw [hmsg]
      rw [List.rotate_mod] at hfound
      exact Pops.message pre key queue x xs post hfound hpre hx hrot

theorem Pops.keys_perm (h : Pops c (some x) c') : c'.keys.Perm c.keys := by
  cases h with
  | message pre key queue _ rest post hrotated _ _ hrotated' =>
    have hperm := c.rotated_perm.map Prod.fst
    have hperm' := c'.rotated_perm.map Prod.fst
    rw [hrotated] at hperm
    rw [hrotated'] at hperm'
    refine hperm'.symm.trans (.trans ?_ hperm)
    apply List.perm_iff_count.mpr
    intro k
    simp only [List.map_append, List.map_cons, List.map_nil, List.count_append, List.count_cons, List.count_nil]
    omega

theorem mem_iff_of_perm {arranged : List (CMsgKey × CMsgQueue M)} (h : arranged.Perm ((key, queue) :: c.m_queues))
    (e : CMsgKey × CMsgQueue M) : e ∈ arranged ↔ e = (key, queue) ∨ e ∈ c.m_queues := by
  rw [h.mem_iff, List.mem_cons]

/-- A call of `push` for a key of the map changes one queue. -/
theorem push_eq (hnodup : c.keys.Nodup) (hkey : key ∈ c.keys) (now : Timeval) (msg : M) :
    ∃ l₁ queue l₂, c.m_queues = l₁ ++ (key, queue) :: l₂ ∧
      c.push now key msg =
        ((queue.push now msg).1, { c with m_queues := l₁ ++ (key, (queue.push now msg).2) :: l₂ }) := by
  obtain ⟨⟨key', queue⟩, hmem, hfst⟩ := List.mem_map.mp hkey
  obtain rfl : key = key' := hfst.symm
  obtain ⟨l₁, l₂, hsplit⟩ := List.append_of_mem hmem
  refine ⟨l₁, queue, l₂, hsplit, ?_⟩
  rw [keys, hsplit] at hnodup
  have hne₁ : ∀ e ∈ l₁, e.1 ≠ key := fun e he => ne_of_nodup_map hnodup (.inl he)
  have hne₂ : ∀ e ∈ l₂, e.1 ≠ key := fun e he => ne_of_nodup_map hnodup (.inr he)
  have hsame : ∀ (l : List (CMsgKey × CMsgQueue M)) (q : CMsgQueue M), (∀ e ∈ l, e.1 ≠ key) →
      l.map (fun e => if e.1 = key then (key, q) else e) = l := by
    intro l q hl
    refine (List.map_congr_left fun e he => ?_).trans (List.map_id l)
    exact if_neg (hl e he)
  have hfind : c.m_queues.find? (·.1 = key) = some (key, queue) := by
    rw [hsplit, List.find?_append, List.find?_eq_none.mpr (by simpa using hne₁), Option.none_or,
      List.find?_cons_of_pos (by simp)]
  simp only [push, hfind]
  rw [hsplit, List.map_append, List.map_cons, hsame l₁ _ hne₁, hsame l₂ _ hne₂, if_pos rfl]

end KeyQueues

namespace PassonRun

variable {M : Type} {getKey : M → CMsgKey} {path : CMsgPath} {s t : PassonRun M}

structure Inv (getKey : M → CMsgKey) (path : CMsgPath) (s : PassonRun M) : Prop where
  nodup : s.queues.keys.Nodup
  all : s.taken.Perm (s.popped ++ s.queues.queued)
  known : ∀ x ∈ s.taken, getKey x ∈ s.queues.keys
  contents : ∀ e ∈ s.queues.m_queues,
    s.taken.filter (getKey · = e.1) = s.popped.filter (getKey · = e.1) ++ e.2.m_queue
  kinds : ∀ e ∈ s.queues.m_queues, e.2.kind = .pushLimited → path = g_of13MsgPathArpReq ∧ e.1 ≠ []
  left : ∀ p ∈ s.pushed, p.2 = false → path = g_of13MsgPathArpReq ∧ getKey p.1 ≠ []

theorem start_inv : Inv getKey path start :=
  ⟨List.nodup_nil, .refl _, by simp [start, taken], by simp [start], by simp [start], by simp [start]⟩

theorem Inv.popped_known (h : Inv getKey path s) {x : M} (hx : x ∈ s.popped) : getKey x ∈ s.queues.keys :=
  h.known x (h.all.mem_iff.mpr (List.mem_append_left _ hx))

theorem Inv.key_of_queued (h : Inv getKey path s) {e : CMsgKey × CMsgQueue M} {x : M} (he : e ∈ s.queues.m_queues)
    (hx : x ∈ e.2.m_queue) : getKey x = e.1 := by
  have hmem : x ∈ s.taken.filter (getKey · = e.1) := by
    rw [h.contents e he]
    exact List.mem_append_right _ hx
  simpa using (List.mem_filter.mp hmem).2

theorem Inv.createQueue (h : Inv getKey path s) {key : CMsgKey} {arranged : List (CMsgKey × CMsgQueue M)}
    (hkey : key ∉ s.queues.keys) (hperm : arranged.Perm ((key, .allocQueue path key) :: s.queues.m_queues)) :
    Inv getKey path { s with queues := { s.queues with m_queues := arranged } } := by
  have hkeys : (arranged.map Prod.fst).Perm (key :: s.queues.keys) := hperm.map Prod.fst
  constructor
  · exact hkeys.nodup_iff.mpr (List.nodup_cons.mpr ⟨hkey, h.nodup⟩)
  · apply h.all.trans
    apply List.Perm.append_left
    exact (hperm.flatMap_right (·.2.m_queue)).symm
  · intro x hx
    exact hkeys.mem_iff.mpr (List.mem_cons_of_mem _ (h.known x hx))
  · intro e he
    rcases (KeyQueues.mem_iff_of_perm hperm e).mp he with rfl | he
    · have htaken : s.taken.filter (getKey · = key) = [] := by
        apply List.filter_eq_nil_iff.mpr
        intro x hx
        have hne : getKey x ≠ key := fun heq => hkey (heq ▸ h.known x hx)
        simpa using hne
      have hpopped : s.popped.filter (getKey · = key) = [] := by
        apply List.filter_eq_nil_iff.mpr
        intro x hx
        have hne : getKey x ≠ key := fun heq => hkey (heq ▸ h.popped_known hx)
        simpa using hne
      exact htaken.trans (by rw [hpopped]; rfl)
    · exact h.contents e he
  · intro e he hkind
    rcases (KeyQueues.mem_iff_of_perm hperm e).mp he with rfl | he
    · simp only [CMsgQueue.allocQueue] at hkind
      split_ifs at hkind with harp
      exact harp.symm
    · exact h.kinds e he hkind
  · exact h.left

theorem taken_concat (s : PassonRun M) (queues : KeyQueues M) (x : M) (b : Bool) :
    taken { s with queues, pushed := s.pushed ++ [(x, b)] } = s.taken ++ if b then [x] else [] := by
  cases b <;> simp [taken]

/-- `k` has a message, and since it had, no key was served twice before it was. -/
structure Fair (getKey : M → CMsgKey) (k : CMsgKey) (served : List M) (s : PassonRun M) : Prop where
  before : ∀ pre, pre <+: served → k ∉ pre.map getKey → (pre.map getKey).Nodup
  waits : k ∉ served.map getKey →
    (∃ e ∈ s.queues.m_queues, e.1 = k ∧ e.2.m_queue ≠ []) ∧
      Waits k (s.queues.rotated.map Prod.fst) (served.map getKey)

theorem Fair.push {k : CMsgKey} {served : List M} (hfair : Fair getKey k served s) (h : Inv getKey path s) {x : M}
    (hkey : getKey x ∈ s.queues.keys) (now : Timeval) :
    Fair getKey k served { s with
      queues := (s.queues.push now (getKey x) x).2
      pushed := s.pushed ++ [(x, (s.queues.push now (getKey x) x).1)] } := by
  obtain ⟨l₁, queue, l₂, hsplit, hpush⟩ := KeyQueues.push_eq h.nodup hkey now x
  rw [hpush]
  refine ⟨hfair.before, fun hk => ?_⟩
  obtain ⟨⟨e, he, hek, hne⟩, hwaits⟩ := hfair.waits hk
  constructor
  · rw [hsplit] at he
    rcases List.mem_append.mp he with he | he
    · exact ⟨e, by simp [he], hek, hne⟩
    · rcases List.mem_cons.mp he with rfl | he
      · refine ⟨(getKey x, (queue.push now x).2), by simp, hek, ?_⟩
        rcases queue.push_cases now x with ⟨-, hq⟩ | ⟨-, hq⟩
        · simp [hq]
        · rw [hq]
          exact hne
      · exact ⟨e, by simp [he], hek, hne⟩
  · rw [KeyQueues.keys_rotated] at hwaits ⊢
    simpa [KeyQueues.keys, hsplit] using hwaits

theorem Fair.popMsg {k : CMsgKey} {served : List M} (hfair : Fair getKey k served s) (h : Inv getKey path s)
    {c : KeyQueues M} {x : Option M} (hpops : KeyQueues.Pops s.queues x c) :
    Fair getKey k (served ++ x.toList) { s with queues := c, popped := s.popped ++ x.toList } := by
  cases hpops with
  | nothing hempty hqueues =>
    rw [Option.toList_none, List.append_nil]
    refine ⟨hfair.before, fun hk => ?_⟩
    obtain ⟨⟨e, he, -, hne⟩, -⟩ := hfair.waits hk
    exact absurd (hempty e he) hne
  | message pre key queue x rest post hrotated hpre hqueue hrotated' =>
    have hmem : (key, queue) ∈ s.queues.m_queues := by
      apply s.queues.rotated_perm.mem_iff.mp
      simp [hrotated]
    have hkey : getKey x = key := h.key_of_queued hmem (by simp [hqueue])
    have hnodup : (s.queues.rotated.map Prod.fst).Nodup := (s.queues.rotated_perm.map Prod.fst).nodup_iff.mpr h.nodup
    -- if `k` is not served now, then it was not passed by, as its queue has a message
    have hturn : k ∉ (served ++ [x]).map getKey →
        (∃ e ∈ c.m_queues, e.1 = k ∧ e.2.m_queue ≠ []) ∧
          Waits k (c.rotated.map Prod.fst) ((served ++ [x]).map getKey) := by
      intro hk
      rw [List.map_append, List.mem_append, not_or] at hk
      obtain ⟨⟨e, he, rfl, hne⟩, hwaits⟩ := hfair.waits hk.1
      have hother : key ≠ e.1 := by
        rintro rfl
        exact hk.2 (by simp [hkey])
      rw [← s.queues.rotated_perm.mem_iff, hrotated] at he
      have hside : e ∈ pre ∨ e ∈ post := by
        rcases List.mem_append.mp he with he | he
        · exact .inl he
        · rcases List.mem_cons.mp he with rfl | he
          · exact absurd rfl hother
          · exact .inr he
      constructor
      · refine ⟨e, c.rotated_perm.mem_iff.mp ?_, rfl, hne⟩
        rw [hrotated']
        rcases hside with he | he <;> simp [he]
      · have hpassed : e.1 ∉ pre.map Prod.fst := by
          intro hmem
          obtain ⟨d, hd, heq⟩ := List.mem_map.mp hmem
          rw [hrotated] at hnodup
          have hde : d = e := by
            apply List.inj_on_of_nodup_map hnodup _ he heq
            simp [hd]
          exact hne (hde ▸ hpre d hd)
        have horder : s.queues.rotated.map Prod.fst = pre.map Prod.fst ++ key :: post.map Prod.fst := by
          simp [hrotated]
        have hserved := hwaits.turn hnodup horder hpassed hother
        rw [hrotated']
        simpa [hkey] using hserved
    refine ⟨?_, hturn⟩
    intro front hfront hk
    rcases List.prefix_concat_iff.mp hfront with rfl | hfront
    · exact (hturn hk).2.once
    · exact hfair.before front hfront hk

variable [DecidableEq M]

theorem Inv.push (h : Inv getKey path s) {x : M} (hkey : getKey x ∈ s.queues.keys) (now : Timeval) :
    Inv getKey path { s with
      queues := (s.queues.push now (getKey x) x).2
      pushed := s.pushed ++ [(x, (s.queues.push now (getKey x) x).1)] } := by
  obtain ⟨l₁, queue, l₂, hsplit, hpush⟩ := KeyQueues.push_eq h.nodup hkey now x
  rw [hpush]
  have hmem : (getKey x, queue) ∈ s.queues.m_queues := by simp [hsplit]
  have hkeys : (l₁ ++ (getKey x, (queue.push now x).2) :: l₂).map Prod.fst = s.queues.keys := by
    simp [KeyQueues.keys, hsplit]
  have hqueue : (queue.push now x).2.m_queue = queue.m_queue ++ if (queue.push now x).1 then [x] else [] := by
    rcases queue.push_cases now x with ⟨htook, hq⟩ | ⟨htook, hq⟩
    · rw [hq, htook, if_pos rfl]
    · rw [hq, htook, if_neg Bool.false_ne_true, List.append_nil]
  have hothers : ∀ e, e ∈ l₁ ∨ e ∈ l₂ → e ∈ s.queues.m_queues ∧ e.1 ≠ getKey x := by
    intro e he
    have hnodup := h.nodup
    rw [KeyQueues.keys, hsplit] at hnodup
    refine ⟨?_, ne_of_nodup_map hnodup he⟩
    rcases he with he | he <;> simp [hsplit, he]
  constructor
  · exact (congrArg List.Nodup hkeys).mpr h.nodup
  · rw [taken_concat]
    have hall := h.all
    rw [List.perm_iff_count] at hall ⊢
    intro y
    have hcount := hall y
    simp only [KeyQueues.queued, hsplit, hqueue, List.flatMap_append, List.flatMap_cons, List.count_append]
      at hcount ⊢
    omega
  · rw [taken_concat]
    intro y hy
    apply hkeys.symm ▸ (show getKey y ∈ s.queues.keys from ?_)
    rcases List.mem_append.mp hy with hy | hy
    · exact h.known y hy
    · split_ifs at hy
      · rw [List.mem_singleton.mp hy]
        exact hkey
      · cases hy
  · rw [taken_concat]
    intro e he
    rcases List.mem_append.mp he with he | he
    · obtain ⟨hold, hne⟩ := hothers e (.inl he)
      rw [List.filter_append, h.contents e hold]
      split_ifs <;> simp [hne.symm]
    · rcases List.mem_cons.mp he with rfl | he
      · rw [List.filter_append, h.contents _ hmem, hqueue]
        split_ifs <;> simp
      · obtain ⟨hold, hne⟩ := hothers e (.inr he)
        rw [List.filter_append, h.contents e hold]
        split_ifs <;> simp [hne.symm]
  · intro e he hkind
    rcases List.mem_append.mp he with he | he
    · exact h.kinds e (hothers e (.inl he)).1 hkind
    · rcases List.mem_cons.mp he with rfl | he
      · exact h.kinds (getKey x, queue) hmem ((queue.push_kind now x).symm.trans hkind)
      · exact h.kinds e (hothers e (.inr he)).1 hkind
  · intro p hp hfalse
    rcases List.mem_append.mp hp with hp | hp
    · exact h.left p hp hfalse
    · obtain rfl := List.mem_singleton.mp hp
      exact h.kinds (getKey x, queue) hmem (queue.limited_of_not_taken hfalse)

theorem Inv.popMsg (h : Inv getKey path s) {c : KeyQueues M} {x : Option M} (hpops : KeyQueues.Pops s.queues x c) :
    Inv getKey path { s with queues := c, popped := s.popped ++ x.toList } := by
  cases hpops with
  | nothing hempty hqueues =>
    obtain ⟨m_queues, m_pos⟩ := c
    obtain rfl : m_queues = s.queues.m_queues := hqueues
    rw [Option.toList_none, List.append_nil]
    exact ⟨h.nodup, h.all, h.known, h.contents, h.kinds, h.left⟩
  | message pre key queue x rest post hrotated hpre hqueue hrotated' =>
    have hkeys := (KeyQueues.Pops.message pre key queue x rest post hrotated hpre hqueue hrotated').keys_perm
    have hmem : (key, queue) ∈ s.queues.m_queues := by
      apply s.queues.rotated_perm.mem_iff.mp
      simp [hrotated]
    have hkey : getKey x = key := h.key_of_queued hmem (by simp [hqueue])
    have hnodup : (s.queues.rotated.map Prod.fst).Nodup := (s.queues.rotated_perm.map Prod.fst).nodup_iff.mpr h.nodup
    rw [hrotated] at hnodup
    have hentries : ∀ e ∈ c.m_queues,
        e = (key, { queue with m_queue := rest }) ∨ e ∈ s.queues.m_queues ∧ e.1 ≠ key := by
      intro e he
      rw [← c.rotated_perm.mem_iff, hrotated'] at he
      rcases List.mem_append.mp he with he | he
      · have hside := (List.mem_append.mp he).symm
        refine .inr ⟨s.queues.rotated_perm.mem_iff.mp ?_, ne_of_nodup_map hnodup hside⟩
        rw [hrotated]
        rcases hside with he | he <;> simp [he]
      · exact .inl (List.mem_singleton.mp he)
    constructor
    · exact hkeys.nodup_iff.mpr h.nodup
    · have hqueued := s.queues.rotated_perm.flatMap_right (·.2.m_queue)
      have hqueued' := c.rotated_perm.flatMap_right (·.2.m_queue)
      rw [hrotated] at hqueued
      rw [hrotated'] at hqueued'
      have hall := h.all
      rw [List.perm_iff_count] at hall hqueued hqueued' ⊢
      intro y
      have hcount := hall y
      have hcount₁ := hqueued y
      have hcount₂ := hqueued' y
      simp only [List.flatMap_append, List.flatMap_cons, List.flatMap_nil, List.count_append, List.count_nil, hqueue,
        List.count_cons, KeyQueues.queued, Option.toList_some] at hcount hcount₁ hcount₂ ⊢
      change s.taken.count y = _
      omega
    · intro y hy
      exact hkeys.mem_iff.mpr (h.known y hy)
    · intro e he
      rcases hentries e he with rfl | ⟨hold, hne⟩
      · refine (h.contents (key, queue) hmem).trans ?_
        simp [hqueue, hkey]
      · refine (h.contents e hold).trans ?_
        simp [hkey, hne.symm]
    · intro e he hkind
      rcases hentries e he with rfl | ⟨hold, -⟩
      · exact h.kinds (key, queue) hmem hkind
      · exact h.kinds e hold hkind
    · exact h.left

theorem Inv.step (h : Inv getKey path s) {a : PassonCall M} (he : step getKey path s a = some t) :
    Inv getKey path t := by
  cases a with
  | pushMsg arranged now x =>
    obtain ⟨⟨took, queues⟩, hpush, rfl⟩ := Option.map_eq_some_iff.mp he
    obtain ⟨c, hc, hpushed⟩ := Option.map_eq_some_iff.mp hpush
    by_cases hkey : getKey x ∈ s.queues.keys
    · rw [if_pos hkey] at hc
      obtain rfl := Option.some.inj hc
      have hinv := h.push hkey now
      rw [hpushed] at hinv
      exact hinv
    · rw [if_neg hkey, KeyQueues.createQueue] at hc
      split_ifs at hc with hperm
      obtain rfl := Option.some.inj hc
      have hmem : getKey x ∈ arranged.map Prod.fst := (hperm.map Prod.fst).mem_iff.mpr (by simp)
      have hinv := (h.createQueue hkey hperm).push hmem now
      rw [hpushed] at hinv
      exact hinv
  | popMsg =>
    obtain rfl := Option.some.inj he
    exact h.popMsg s.queues.popMsg_pops

theorem reaches_inv (h : Reaches (PassonRun.step getKey path) start s) : Inv getKey path s :=
  h.invariant (fun _ _ _ hinv _ he => hinv.step he) start_inv

/-- Every call of `popMsg` takes a message until there is none. -/
theorem Inv.drained (h : Inv getKey path s) :
    ∃ t, Run (PassonRun.step getKey path) (fun _ a => a = .popMsg) s t ∧ t.taken = s.taken ∧ t.queues.queued = [] := by
  induction hn : s.queues.queued.length generalizing s with
  | zero => exact ⟨s, .refl, rfl, List.eq_nil_of_length_eq_zero hn⟩
  | succ n ih =>
    have hpops := s.queues.popMsg_pops
    have hnext := h.popMsg hpops
    generalize hmsg : s.queues.popMsg.1 = x at hpops hnext
    cases hpops with
    | nothing hempty =>
      have hnil : s.queues.queued = [] := List.flatMap_eq_nil_iff.mpr hempty
      rw [hnil] at hn
      cases hn
    | message pre key queue x rest post =>
      have hlen := h.all.length_eq
      have hlen' := hnext.all.length_eq
      simp only [List.length_append, Option.toList_some, List.length_singleton] at hlen hlen'
      change s.taken.length = s.popped.length + 1 + s.queues.popMsg.2.queued.length at hlen'
      have hleft : s.queues.popMsg.2.queued.length = n := by omega
      obtain ⟨t, hrun, htaken, hempty⟩ := ih hnext hleft
      refine ⟨t, hrun.head rfl ?_, htaken, hempty⟩
      rw [← hmsg]
      rfl

theorem Inv.fair (h : Inv getKey path s) {e : CMsgKey × CMsgQueue M} (he : e ∈ s.queues.m_queues)
    (hne : e.2.m_queue ≠ []) (hrun : Run (PassonRun.step getKey path) (KeepsKeys getKey) s t) :
    ∃ served, t.popped = s.popped ++ served ∧ Fair getKey e.1 served t := by
  have hinv : Inv getKey path t ∧ ∃ served, t.popped = s.popped ++ served ∧ Fair getKey e.1 served t := by
    refine hrun.invariant (P := fun t => Inv getKey path t ∧ ∃ served, t.popped = s.popped ++ served ∧
      Fair getKey e.1 served t) ?_ ?_
    · rintro u a v ⟨hinv, served, hserved, hfair⟩ hkeeps hstep
      refine ⟨hinv.step hstep, ?_⟩
      cases a with
      | pushMsg arranged now x =>
        obtain ⟨⟨took, queues⟩, hpush, rfl⟩ := Option.map_eq_some_iff.mp hstep
        rw [KeyQueues.pushMsg, if_pos (show getKey x ∈ u.queues.keys from hkeeps)] at hpush
        have hfair' := hfair.push hinv hkeeps now
        rw [show u.queues.push now (getKey x) x = (took, queues) from Option.some.inj hpush] at hfair'
        exact ⟨served, hserved, hfair'⟩
      | popMsg =>
        obtain rfl := Option.some.inj hstep
        have happend : u.popped ++ u.queues.popMsg.1.toList = s.popped ++ (served ++ u.queues.popMsg.1.toList) := by
          rw [hserved, List.append_assoc]
        exact ⟨_, happend, hfair.popMsg hinv u.queues.popMsg_pops⟩
    · refine ⟨h, [], (List.append_nil _).symm, ?_, ?_⟩
      · intro pre hpre _
        rw [List.prefix_nil.mp hpre]
        exact List.nodup_nil
      · intro _
        refine ⟨⟨e, he, rfl, hne⟩, Waits.start ?_⟩
        exact List.mem_map_of_mem (s.queues.rotated_perm.mem_iff.mpr he)
  exact hinv.2

/-- What `popMsg` returns over the calls: a message if there is one, each one that a queue took once, those of one key
in their order, and no key twice before one that has a message. -/
structure Serves (getKey : M → CMsgKey) (path : CMsgPath) (s : PassonRun M) : Prop where
  returns : s.queues.popMsg.1 = none ↔ ∀ e ∈ s.queues.m_queues, e.2.m_queue = []
  once : s.taken.Perm (s.popped ++ s.queues.queued)
  all : ∃ t, Run (step getKey path) (fun _ a => a = .popMsg) s t ∧ t.popped.Perm s.taken
  order : ∀ key, s.popped.filter (getKey · = key) <+: s.taken.filter (getKey · = key)
  fair : ∀ t, Run (step getKey path) (KeepsKeys getKey) s t → ∀ e ∈ s.queues.m_queues, e.2.m_queue ≠ [] →
    ∃ served, t.popped = s.popped ++ served ∧
      ∀ pre, pre <+: served → e.1 ∉ pre.map getKey → (pre.map getKey).Nodup
  left : ∀ p ∈ s.pushed, p.2 = false → path = g_of13MsgPathArpReq ∧ getKey p.1 ≠ []

theorem passon_serves (getKey : M → CMsgKey) (path : CMsgPath) (s : PassonRun M)
    (h : Reaches (step getKey path) start s) : Serves getKey path s := by
  have hinv := reaches_inv h
  constructor
  · have hpops := s.queues.popMsg_pops
    generalize s.queues.popMsg.1 = x at hpops
    cases hpops with
    | nothing hempty => exact iff_of_true rfl hempty
    | message pre key queue x rest post hrotated _ hqueue =>
      refine iff_of_false (Option.some_ne_none x) ?_
      intro hempty
      have hnil := hempty (key, queue) (s.queues.rotated_perm.mem_iff.mp (by simp [hrotated]))
      rw [hqueue] at hnil
      cases hnil
  · exact hinv.all
  · obtain ⟨t, hrun, htaken, hempty⟩ := hinv.drained
    have hall := (hrun.invariant (fun _ _ _ hi _ he => hi.step he) hinv).all
    rw [hempty, List.append_nil, htaken] at hall
    exact ⟨t, hrun, hall.symm⟩
  · intro key
    by_cases hkey : key ∈ s.queues.keys
    · obtain ⟨e, he, rfl⟩ := List.mem_map.mp hkey
      exact ⟨e.2.m_queue, (hinv.contents e he).symm⟩
    · have hnil : s.popped.filter (getKey · = key) = [] := by
        apply List.filter_eq_nil_iff.mpr
        intro x hx
        have hne : getKey x ≠ key := fun heq => hkey (heq ▸ hinv.popped_known hx)
        simpa using hne
      rw [hnil]
      exact List.nil_prefix
  · intro t hrun e he hne
    obtain ⟨served, hserved, hfair⟩ := hinv.fair he hne hrun
    exact ⟨served, hserved, hfair.before⟩
  · exact hinv.left

/-- Two messages of one key within 20 ms, where a queue takes only the first. -/
def arpPushes : List (PassonCall ℕ) :=
  [.pushMsg [(['k'], .allocQueue g_of13MsgPathArpReq ['k'])] ⟨1, 0⟩ 0, .pushMsg [] ⟨1, 1000⟩ 1]

theorem arpPushes_served : Reaches (step (fun _ : ℕ => ['k']) g_of13MsgPathArpReq) start
      ⟨⟨[(['k'], ⟨.pushLimited, [0], ⟨1, 0⟩⟩)], 0⟩, [(0, true), (1, false)], []⟩ ∧
    Serves (fun _ : ℕ => ['k']) g_of13MsgPathArpReq
      ⟨⟨[(['k'], ⟨.pushLimited, [0], ⟨1, 0⟩⟩)], 0⟩, [(0, true), (1, false)], []⟩ := by
  have hrun : Reaches (step (fun _ : ℕ => ['k']) g_of13MsgPathArpReq) start
      ⟨⟨[(['k'], ⟨.pushLimited, [0], ⟨1, 0⟩⟩)], 0⟩, [(0, true), (1, false)], []⟩ :=
    .of_exec (show exec _ start arpPushes = some _ by decide)
  exact ⟨hrun, passon_serves _ _ _ hrun⟩

theorem arpPushes_not_all_kept : ¬ ∀ (getKey : ℕ → CMsgKey) (path : CMsgPath) (s : PassonRun ℕ),
    Reaches (step getKey path) start s → (s.pushed.map Prod.fst).Perm (s.popped ++ s.queues.queued) := by
  intro h
  have hrun : Reaches (step (fun _ : ℕ => ['k']) g_of13MsgPathArpReq) start
      ⟨⟨[(['k'], ⟨.pushLimited, [0], ⟨1, 0⟩⟩)], 0⟩, [(0, true), (1, false)], []⟩ :=
    .of_exec (show exec _ start arpPushes = some _ by decide)
  exact absurd (h _ _ _ hrun).length_eq (by decide)

end PassonRun

end DCFabric
