import DCFabric.BncTypes
import DCFabric.MemPool
import DCFabric.TransitionRuns

namespace DCFabric.Timer

open TransitionRuns

/-- A node without its argument and its own address; `hasFun` says that `fun` is not `NULL`. -/
structure Timer_Node where
  is_used : Bool
  timeout : UINT4
  times : UINT4
  hasFun : Bool

/-- Where `timer_thread` is in its visit of `arr[i]`: before the test, before the callback, after its start and before
the reload, or before the decrement. -/
inductive ThreadStep
  | test (i : ℕ)
  | call (i : ℕ)
  | reload (i : ℕ)
  | decrement (i : ℕ)
deriving DecidableEq

/-- The index of the node that is visited. -/
def ThreadStep.index : ThreadStep → ℕ
  | .test i | .call i | .reload i | .decrement i => i

/-- The nodes are those of `pool`, by their numbers. `rounds` and `calls` count the rounds of the thread and the
callbacks it started for each node, and `fresh` tells the nodes that were not visited since they were given out. -/
structure Timer_List where
  total_len : ℕ
  arr : ℕ → Option ℕ
  node : ℕ → Timer_Node
  pool : MemPool
  pc : ThreadStep
  rounds : ℕ
  calls : ℕ → ℕ
  fresh : ℕ → Bool

inductive TimerEvent
  | thread
  | creat (timeout : UINT4) (hasFun : Bool)
  | kill (n : ℕ)

namespace Timer_List

/-- The loop of `timer_init`: a node is taken of the pool, entered into `arr` and given back. -/
def enterNode (s : MemPool × (ℕ → Option ℕ)) (i : ℕ) : MemPool × (ℕ → Option ℕ) :=
  match s.1.mem_get with
  | some (tmp, pool) => (pool.mem_free tmp, Function.update s.2 i (some tmp))
  | none => s

def timer_init (len : ℕ) : Timer_List :=
  let (pool, arr) := (List.range len).foldl enterNode (MemPool.mem_create len, fun _ => none)
  ⟨len, arr, fun _ => ⟨false, 0, 0, false⟩, pool, .test 0, 0, fun _ => 0, fun _ => false⟩

def setNode (s : Timer_List) (n : ℕ) (node : Timer_Node) : Timer_List :=
  { s with node := Function.update s.node n node }

/-- A step of `timer_thread`. -/
def timer_thread (s : Timer_List) : Option Timer_List :=
  match s.pc with
  | .test i =>
    if i < s.total_len then
      match s.arr i with
      | some n =>
        let s := { s with fresh := Function.update s.fresh n false }
        if (s.node n).is_used then
          if (s.node n).times = 0 ∧ (s.node n).hasFun then some { s with pc := .call i }
          else some { s with pc := .decrement i }
        else some { s with pc := .test (i + 1) }
      | none => some { s with pc := .test (i + 1) }
    else some { s with pc := .test 0, rounds := s.rounds + 1 }
  | .call i => (s.arr i).map fun n =>
    { s with calls := Function.update s.calls n (s.calls n + 1), pc := .reload i }
  | .reload i => (s.arr i).map fun n =>
    { s.setNode n { s.node n with times := (s.node n).timeout } with pc := .test (i + 1) }
  | .decrement i => (s.arr i).map fun n =>
    { s.setNode n { s.node n with times := (s.node n).times - 1 } with pc := .test (i + 1) }

/-- Without a free node nothing is created. -/
def timer_creat (s : Timer_List) (timeout : UINT4) (hasFun : Bool) : Timer_List :=
  match s.pool.mem_get with
  | none => s
  | some (tmp, pool) =>
    { s.setNode tmp ⟨true, timeout, timeout, hasFun⟩ with pool := pool, fresh := Function.update s.fresh tmp true }

/-- The timer is one that was created and not killed, as the pointer to it is cleared. -/
def timer_kill (s : Timer_List) (n : ℕ) : Option Timer_List :=
  if (s.node n).is_used then
    some { s.setNode n { s.node n with is_used := false } with pool := s.pool.mem_free n }
  else none

def step (s : Timer_List) : TimerEvent → Option Timer_List
  | .thread => s.timer_thread
  | .creat timeout hasFun => some (s.timer_creat timeout hasFun)
  | .kill n => s.timer_kill n

/-- No timer is killed between the test of its node and the callback, and none is created in a node between the test and
the decrement. -/
def Calm (s : Timer_List) : TimerEvent → Prop
  | .thread => True
  | .creat _ _ => ∀ n pool, s.pool.mem_get = some (n, pool) → s.pc ≠ .decrement n
  | .kill n => s.pc ≠ .call n

/-- The callback that is about to start is that of a timer that was not killed, and a timer is first visited with all of
its time. -/
structure Sound (s : Timer_List) : Prop where
  alive : ∀ i n, s.pc = .call i → s.arr i = some n → (s.node n).is_used
  full : ∀ n, s.fresh n → (s.node n).times = (s.node n).timeout

/-- The timer of a node is not killed. -/
def Keeps (n : ℕ) (s : Timer_List) (e : TimerEvent) : Prop := s.Calm e ∧ e ≠ .kill n

/-- Rounds of the thread, as many as the timeout of a timer says, in which it is not killed. -/
structure Rounds (n : ℕ) (s s' : Timer_List) : Prop where
  is_used : (s.node n).is_used
  hasFun : (s.node n).hasFun
  timeout : 0 < (s.node n).timeout.toNat
  first : s.pc = .test 0
  last : s'.pc = .test 0
  count : s'.rounds = s.rounds + (s.node n).timeout.toNat
  run : Run step (Keeps n) s s'

/-- What holds between the steps; between the test of a node and what follows from it the test still holds. -/
structure Inv (s : Timer_List) : Prop where
  arr : ∀ i < s.total_len, s.arr i = some i
  len : s.pool.total_len = s.total_len
  used : ∀ n, (s.node n).is_used ↔ s.pool.InUse n
  times_le : ∀ n, (s.node n).is_used → (s.node n).hasFun → (s.node n).times.toNat ≤ (s.node n).timeout.toNat
  full : ∀ n, s.fresh n → (s.node n).times = (s.node n).timeout
  inside : (∀ i, s.pc ≠ .test i) → s.pc.index < s.total_len
  call : ∀ i, s.pc = .call i → (s.node i).is_used ∧ (s.node i).times = 0
  decrement : ∀ i, s.pc = .decrement i → s.fresh i = false ∧
    ((s.node i).is_used → (s.node i).hasFun → (s.node i).times ≠ 0)

variable {s s' : Timer_List} {e : TimerEvent} {n i : ℕ} {timeout : UINT4} {hasFun : Bool} {node : Timer_Node}

/-- What a step of the thread can be. -/
inductive Visits (s : Timer_List) : Timer_List → Prop
  | round {i : ℕ} (hpc : s.pc = .test i) (hi : s.total_len ≤ i) :
    Visits s { s with pc := .test 0, rounds := s.rounds + 1 }
  | unused {i : ℕ} (hpc : s.pc = .test i) (hi : i < s.total_len) (hused : ¬(s.node i).is_used) :
    Visits s { s with fresh := Function.update s.fresh i false, pc := .test (i + 1) }
  | due {i : ℕ} (hpc : s.pc = .test i) (hi : i < s.total_len) (hused : (s.node i).is_used)
    (hdue : (s.node i).times = 0 ∧ (s.node i).hasFun) :
    Visits s { s with fresh := Function.update s.fresh i false, pc := .call i }
  | early {i : ℕ} (hpc : s.pc = .test i) (hi : i < s.total_len) (hused : (s.node i).is_used)
    (hearly : ¬((s.node i).times = 0 ∧ (s.node i).hasFun)) :
    Visits s { s with fresh := Function.update s.fresh i false, pc := .decrement i }
  | call {i : ℕ} (hpc : s.pc = .call i) :
    Visits s { s with calls := Function.update s.calls i (s.calls i + 1), pc := .reload i }
  | reload {i : ℕ} (hpc : s.pc = .reload i) :
    Visits s { s.setNode i { s.node i with times := (s.node i).timeout } with pc := .test (i + 1) }
  | decrement {i : ℕ} (hpc : s.pc = .decrement i) :
    Visits s { s.setNode i { s.node i with times := (s.node i).times - 1 } with pc := .test (i + 1) }

theorem Inv.index_lt (h : s.Inv) (hpc : s.pc = .call i ∨ s.pc = .reload i ∨ s.pc = .decrement i) :
    i < s.total_len := by
  have hlt := h.inside (by rcases hpc with hpc | hpc | hpc <;> rw [hpc] <;> nofun)
  rcases hpc with hpc | hpc | hpc <;> rwa [hpc] at hlt

theorem Inv.visits (h : s.Inv) (hstep : s.timer_thread = some s') : s.Visits s' := by
  cases hpc : s.pc with
  | test i =>
    rw [timer_thread, hpc] at hstep
    dsimp only at hstep
    by_cases hi : i < s.total_len
    · rw [if_pos hi, h.arr i hi] at hstep
      dsimp only at hstep
      by_cases hused : (s.node i).is_used
      · rw [if_pos hused] at hstep
        by_cases hdue : (s.node i).times = 0 ∧ (s.node i).hasFun
        · rw [if_pos hdue] at hstep
          obtain rfl := Option.some.inj hstep
          exact .due hpc hi hused hdue
        · rw [if_neg hdue] at hstep
          obtain rfl := Option.some.inj hstep
          exact .early hpc hi hused hdue
      · rw [if_neg hused] at hstep
        obtain rfl := Option.some.inj hstep
        exact .unused hpc hi hused
    · rw [if_neg hi] at hstep
      obtain rfl := Option.some.inj hstep
      exact .round hpc (not_lt.mp hi)
  | call i =>
    rw [timer_thread, hpc] at hstep
    dsimp only at hstep
    rw [h.arr i (h.index_lt (.inl hpc))] at hstep
    obtain rfl := Option.some.inj hstep
    exact .call hpc
  | reload i =>
    rw [timer_thread, hpc] at hstep
    dsimp only at hstep
    rw [h.arr i (h.index_lt (.inr (.inl hpc)))] at hstep
    obtain rfl := Option.some.inj hstep
    exact .reload hpc
  | decrement i =>
    rw [timer_thread, hpc] at hstep
    dsimp only at hstep
    rw [h.arr i (h.index_lt (.inr (.inr hpc)))] at hstep
    obtain rfl := Option.some.inj hstep
    exact .decrement hpc

theorem setNode_node (s : Timer_List) (n m : ℕ) (node : Timer_Node) :
    (s.setNode n node).node m = if m = n then node else s.node m := Function.update_apply ..

/-- The nodes keep what is said of them where one of them is given another time. -/
theorem Inv.times (h : s.Inv) {times : UINT4} {pc : ThreadStep} (htest : ∃ j, pc = .test j)
    (hle : (s.node i).is_used → (s.node i).hasFun → times.toNat ≤ (s.node i).timeout.toNat)
    (hfull : s.fresh i → times = (s.node i).timeout) :
    Inv { s.setNode i { s.node i with times := times } with pc := pc } := by
  obtain ⟨j, rfl⟩ := htest
  refine ⟨h.arr, h.len, fun n => ?_, fun n => ?_, fun n => ?_, fun hne => absurd rfl (hne j), nofun, nofun⟩
  all_goals
    dsimp only
    rw [setNode_node]
    split_ifs with hn
  · subst hn
    exact h.used n
  · exact h.used n
  · subst hn
    exact hle
  · exact h.times_le n
  · subst hn
    exact hfull
  · exact h.full n

theorem Inv.visit (h : s.Inv) (hv : s.Visits s') : s'.Inv := by
  have hfresh : ∀ i n, Function.update s.fresh i false n = true → s.fresh n = true := by
    intro i n hn
    by_cases he : n = i
    · rw [he, Function.update_self] at hn
      cases hn
    · rwa [Function.update_of_ne he] at hn
  cases hv with
  | round hpc hi =>
    exact ⟨h.arr, h.len, h.used, h.times_le, h.full, fun hne => absurd rfl (hne 0), nofun, nofun⟩
  | @unused i hpc hi hused =>
    exact ⟨h.arr, h.len, h.used, h.times_le, fun n hn => h.full n (hfresh i n hn),
      fun hne => absurd rfl (hne (i + 1)), nofun, nofun⟩
  | @due i hpc hi hused hdue =>
    refine ⟨h.arr, h.len, h.used, h.times_le, fun n hn => h.full n (hfresh i n hn), fun _ => hi, ?_, nofun⟩
    rintro j hj
    obtain rfl := ThreadStep.call.inj hj
    exact ⟨hused, hdue.1⟩
  | @early i hpc hi hused hearly =>
    refine ⟨h.arr, h.len, h.used, h.times_le, fun n hn => h.full n (hfresh i n hn), fun _ => hi, nofun, ?_⟩
    rintro j hj
    obtain rfl := ThreadStep.decrement.inj hj
    exact ⟨Function.update_self .., fun _ hfun hzero => hearly ⟨hzero, hfun⟩⟩
  | @call i hpc =>
    exact ⟨h.arr, h.len, h.used, h.times_le, h.full, fun _ => h.index_lt (.inl hpc), nofun, nofun⟩
  | @reload i hpc => exact h.times ⟨i + 1, rfl⟩ (fun _ _ => le_rfl) (fun _ => rfl)
  | @decrement i hpc =>
    obtain ⟨hnot, hpos⟩ := h.decrement i hpc
    refine h.times ⟨i + 1, rfl⟩ (fun hused hfun => ?_) (fun hfresh => ?_)
    · have hle := h.times_le i hused hfun
      have hone : (1 : UINT4) ≤ (s.node i).times := by
        have hne := hpos hused hfun
        rw [UInt32.le_iff_toNat_le]
        exact Nat.one_le_iff_ne_zero.mpr fun hzero => hne (UInt32.toNat_inj.mp hzero)
      rw [UInt32.toNat_sub_of_le _ _ hone]
      exact (Nat.sub_le ..).trans hle
    · rw [hnot] at hfresh
      cases hfresh

/-- The node that a timer gets, if there is one, was not in use. -/
theorem timer_creat_cases (s : Timer_List) (timeout : UINT4) (hasFun : Bool) :
    (s.pool.mem_get = none ∧ s.timer_creat timeout hasFun = s) ∨
      ∃ tmp pool, s.pool.mem_get = some (tmp, pool) ∧ s.timer_creat timeout hasFun =
        { s.setNode tmp ⟨true, timeout, timeout, hasFun⟩ with
          pool := pool
          fresh := Function.update s.fresh tmp true } := by
  rw [timer_creat]
  cases hget : s.pool.mem_get with
  | none => exact .inl ⟨rfl, rfl⟩
  | some r => exact .inr ⟨r.1, r.2, rfl, rfl⟩

theorem Inv.creat (h : s.Inv) (hcalm : s.Calm (.creat timeout hasFun)) : (s.timer_creat timeout hasFun).Inv := by
  obtain ⟨-, he⟩ | ⟨tmp, pool, hget, he⟩ := s.timer_creat_cases timeout hasFun
  · rwa [he]
  · rw [he]
    have hnot : ¬(s.node tmp).is_used := fun hused => MemPool.mem_get_fresh hget ((h.used tmp).mp hused)
    refine ⟨h.arr, (MemPool.mem_get_cases hget).1.trans h.len, fun n => ?_, fun n => ?_, fun n => ?_, h.inside,
      fun i hi => ?_, fun i hi => ?_⟩
    all_goals
      dsimp only
      rw [setNode_node]
    · rw [MemPool.mem_get_inUse hget]
      split_ifs with hn
      · exact iff_of_true rfl (.inl hn)
      · rw [h.used n]
        exact ⟨.inr, fun hor => hor.resolve_left hn⟩
    · split_ifs with hn
      · exact fun _ _ => le_rfl
      · exact h.times_le n
    · split_ifs with hn
      · exact fun _ => rfl
      · rw [Function.update_of_ne hn]
        exact h.full n
    · have hcall := h.call i hi
      rwa [if_neg fun hn => hnot (by rw [← hn]; exact hcall.1)]
    · have hne : i ≠ tmp := fun hn => hcalm tmp pool hget (hn ▸ hi)
      rw [if_neg hne, Function.update_of_ne hne]
      exact h.decrement i hi

theorem timer_kill_cases (hstep : s.timer_kill n = some s') : (s.node n).is_used ∧
    s' = { s.setNode n { s.node n with is_used := false } with pool := s.pool.mem_free n } := by
  rw [timer_kill] at hstep
  split_ifs at hstep with hused
  exact ⟨hused, (Option.some.inj hstep).symm⟩

theorem Inv.kill (h : s.Inv) (hcalm : s.Calm (.kill n)) (hstep : s.timer_kill n = some s') : s'.Inv := by
  obtain ⟨hused, rfl⟩ := timer_kill_cases hstep
  have hin := (h.used n).mp hused
  refine ⟨h.arr, (MemPool.total_len_mem_free ..).trans h.len, fun m => ?_, fun m => ?_, fun m => ?_, h.inside,
    fun i hi => ?_, fun i hi => ?_⟩
  all_goals
    dsimp only
    rw [setNode_node]
  · rw [MemPool.mem_free_inUse hin]
    split_ifs with hm
    · exact iff_of_false nofun fun hfree => hfree.1 hm
    · rw [h.used m]
      exact ⟨fun hm' => ⟨hm, hm'⟩, fun hfree => hfree.2⟩
  · split_ifs with hm
    · nofun
    · exact h.times_le m
  · split_ifs with hm
    · subst hm
      exact h.full m
    · exact h.full m
  · have hne : i ≠ n := fun hn => hcalm (hn ▸ hi)
    rw [if_neg hne]
    exact h.call i hi
  · split_ifs with hm
    · exact ⟨(h.decrement i hi).1, nofun⟩
    · exact h.decrement i hi

theorem Inv.step (h : s.Inv) (hcalm : s.Calm e) (hstep : s.step e = some s') : s'.Inv := by
  cases e with
  | thread => exact h.visit (h.visits hstep)
  | creat timeout hasFun =>
    obtain rfl := Option.some.inj hstep
    exact h.creat hcalm
  | kill n => exact h.kill hcalm hstep

theorem Inv.sound (h : s.Inv) : s.Sound where
  alive := fun i n hpc harr => by
    have hi := h.arr i (h.index_lt (.inl hpc))
    obtain rfl : i = n := Option.some.inj (hi.symm.trans harr)
    exact (h.call i hpc).1
  full := h.full

/-- `arr` names the nodes in their order, and all of them are free. -/
theorem inv_init (len : ℕ) : (timer_init len).Inv := by
  have hloop : ∀ k ≤ len, let s := (List.range k).foldl enterNode (MemPool.mem_create len, fun _ => none)
      s.1.total_len = len ∧ s.1.head = k ∧ (∀ n, ¬s.1.InUse n) ∧ ∀ i < k, s.2 i = some i := by
    intro k hk
    induction k with
    | zero => exact ⟨rfl, rfl, fun n hn => Nat.not_lt_zero n hn.1, fun i hi => absurd hi (Nat.not_lt_zero i)⟩
    | succ k ih =>
      obtain ⟨hlen, hhead, hfree, harr⟩ := ih (by omega)
      rw [List.range_succ, List.foldl_append]
      dsimp only [List.foldl_cons, List.foldl_nil]
      generalize (List.range k).foldl enterNode (MemPool.mem_create len, fun _ => none) = s at *
      cases hget : s.1.mem_get with
      | none =>
        rw [MemPool.mem_get_eq_none, MemPool.usable_len] at hget
        omega
      | some r =>
        obtain ⟨tmp, pool⟩ := r
        obtain ⟨hlen', ⟨-, rfl, hhead', -⟩ | ⟨hfull, -, -⟩⟩ := MemPool.mem_get_cases hget
        · have hin : pool.InUse s.1.head := (MemPool.mem_get_inUse hget _).mpr (.inl rfl)
          have hkept : (pool.mem_free s.1.head).head = pool.head := by
            rw [MemPool.mem_free, dif_pos hin]
          rw [enterNode, hget]
          refine ⟨(MemPool.total_len_mem_free ..).trans (hlen'.trans hlen), hkept.trans (hhead'.trans (by rw [hhead])),
            fun n hn => ?_, fun i hi => ?_⟩
          · obtain ⟨hne, hn⟩ := (MemPool.mem_free_inUse hin n).mp hn
            exact ((MemPool.mem_get_inUse hget n).mp hn).elim hne (hfree n)
          · dsimp only
            rw [hhead]
            obtain rfl | hne := eq_or_ne i k
            · exact Function.update_self ..
            · rw [Function.update_of_ne hne]
              exact harr i (by omega)
        · omega
  obtain ⟨hlen, -, hfree, harr⟩ := hloop len le_rfl
  have hunused (n : ℕ) : ¬((timer_init len).node n).is_used = true := Bool.false_ne_true
  refine ⟨harr, hlen, fun n => iff_of_false (hunused n) (hfree n), ?_, ?_, fun hne => absurd rfl (hne 0), ?_, ?_⟩
  · intro n hn
    exact absurd hn (hunused n)
  · intro n hn
    cases hn
  · intro n hn
    cases hn
  · intro n hn
    cases hn

/-- The visits of a node that are over. -/
def visitsOver (s : Timer_List) (n : ℕ) : ℕ := s.rounds + if n < s.pc.index then 1 else 0

/-- Since `first`, every visit of the node took one off its time, or ran the callback and gave it its time back. -/
structure Counts (n : ℕ) (first s : Timer_List) : Prop where
  inv : s.Inv
  is_used : (s.node n).is_used
  hasFun : (s.node n).hasFun
  timeout : (s.node n).timeout = (first.node n).timeout
  waiting : s.pc ≠ .reload n →
    s.calls n * ((s.node n).timeout.toNat + 1) + ((s.node n).timeout.toNat - (s.node n).times.toNat) +
        first.visitsOver n =
      first.calls n * ((s.node n).timeout.toNat + 1) +
        ((s.node n).timeout.toNat - (first.node n).times.toNat) + s.visitsOver n
  called : s.pc = .reload n →
    s.calls n * ((s.node n).timeout.toNat + 1) + first.visitsOver n =
      first.calls n * ((s.node n).timeout.toNat + 1) +
        ((s.node n).timeout.toNat - (first.node n).times.toNat) + s.visitsOver n + 1

theorem visitsOver_index (s : Timer_List) (n : ℕ) :
    (n < s.pc.index → s.visitsOver n = s.rounds + 1) ∧ (¬n < s.pc.index → s.visitsOver n = s.rounds) := by
  rw [visitsOver]
  exact ⟨fun hn => by rw [if_pos hn], fun hn => by rw [if_neg hn, Nat.add_zero]⟩

/-- A step that leaves the node, its time and its callbacks as they are. -/
theorem Counts.same {first : Timer_List} (h : Counts n first s) (hinv : s'.Inv) (hnode : s'.node n = s.node n)
    (hcalls : s'.calls n = s.calls n) (hover : s'.visitsOver n = s.visitsOver n)
    (hpc : s'.pc = .reload n ↔ s.pc = .reload n) : Counts n first s' := by
  refine ⟨hinv, ?_, ?_, ?_, fun hne => ?_, fun he => ?_⟩
  · rw [hnode]
    exact h.is_used
  · rw [hnode]
    exact h.hasFun
  · rw [hnode]
    exact h.timeout
  · rw [hnode, hcalls, hover]
    exact h.waiting fun he => hne (hpc.mpr he)
  · rw [hnode, hcalls, hover]
    exact h.called (hpc.mp he)

theorem visitsOver_eq {t : Timer_List} (hrounds : t.rounds = s.rounds)
    (hindex : n < t.pc.index ↔ n < s.pc.index) : t.visitsOver n = s.visitsOver n := by
  rw [visitsOver, visitsOver, hrounds]
  simp only [hindex]

/-- The end of a visit of another node. -/
theorem Counts.leave {first : Timer_List} (h : Counts n first s) {times : UINT4} (hne : n ≠ i)
    (hpc : s.pc = .reload i ∨ s.pc = .decrement i)
    (hinv : Inv { s.setNode i { s.node i with times := times } with pc := .test (i + 1) }) :
    Counts n first { s.setNode i { s.node i with times := times } with pc := .test (i + 1) } := by
  have hnode : (s.setNode i { s.node i with times := times }).node n = s.node n := by
    rw [setNode_node, if_neg hne]
  have hindex : s.pc.index = i := by rcases hpc with hpc | hpc <;> rw [hpc] <;> rfl
  refine h.same hinv hnode rfl (visitsOver_eq rfl ?_) (iff_of_false nofun fun he => ?_)
  · rw [hindex]
    change n < i + 1 ↔ n < i
    omega
  · rw [he] at hindex
    exact hne hindex

/-- The end of a visit of the node. -/
theorem Counts.over {first : Timer_List} (h : Counts n first s) {times : UINT4}
    (hpc : s.pc = .reload n ∨ s.pc = .decrement n)
    (hinv : Inv { s.setNode n { s.node n with times := times } with pc := .test (n + 1) })
    (hcount : s.calls n * ((s.node n).timeout.toNat + 1) + ((s.node n).timeout.toNat - times.toNat) +
        first.visitsOver n =
      first.calls n * ((s.node n).timeout.toNat + 1) +
        ((s.node n).timeout.toNat - (first.node n).times.toNat) + s.visitsOver n + 1) :
    Counts n first { s.setNode n { s.node n with times := times } with pc := .test (n + 1) } := by
  have hnode : (s.setNode n { s.node n with times := times }).node n = { s.node n with times := times } := by
    rw [setNode_node, if_pos rfl]
  have hover : visitsOver { s.setNode n { s.node n with times := times } with pc := .test (n + 1) } n =
      s.visitsOver n + 1 := by
    have hindex : s.pc.index = n := by rcases hpc with hpc | hpc <;> rw [hpc] <;> rfl
    rw [(s.visitsOver_index n).2 (by rw [hindex]; exact lt_irrefl n)]
    exact (visitsOver_index _ n).1 (Nat.lt_succ_self n)
  refine ⟨hinv, ?_, ?_, ?_, fun _ => ?_, nofun⟩
  all_goals
    dsimp only
    rw [hnode]
  · exact h.is_used
  · exact h.hasFun
  · exact h.timeout
  · rw [hover]
    exact hcount

theorem Counts.visit {first : Timer_List} (h : Counts n first s) (hn : n < s.total_len) (hv : s.Visits s') :
    Counts n first s' := by
  have hinv := h.inv.visit hv
  cases hv with
  | @round i hpc hi =>
    refine h.same hinv rfl rfl ?_ (iff_of_false nofun (by rw [hpc]; nofun))
    have hlast : n < s.pc.index := by
      rw [hpc]
      exact hn.trans_le hi
    rw [(s.visitsOver_index n).1 hlast]
    rfl
  | @unused i hpc hi hused =>
    have hne : n ≠ i := fun he => hused (he ▸ h.is_used)
    refine h.same hinv rfl rfl (visitsOver_eq rfl ?_) (iff_of_false nofun (by rw [hpc]; nofun))
    rw [hpc]
    change n < i + 1 ↔ n < i
    omega
  | @due i hpc hi hused hdue =>
    refine h.same hinv rfl rfl (visitsOver_eq rfl ?_) (iff_of_false nofun (by rw [hpc]; nofun))
    rw [hpc]
    rfl
  | @early i hpc hi hused hearly =>
    refine h.same hinv rfl rfl (visitsOver_eq rfl ?_) (iff_of_false nofun (by rw [hpc]; nofun))
    rw [hpc]
    rfl
  | @call i hpc =>
    have hover : visitsOver { s with calls := Function.update s.calls i (s.calls i + 1), pc := .reload i } n =
        s.visitsOver n := visitsOver_eq rfl (by rw [hpc]; rfl)
    by_cases hne : n = i
    · subst hne
      have hwaiting := h.waiting (by rw [hpc]; nofun)
      have hzero : (s.node n).times.toNat = 0 := congrArg UInt32.toNat (h.inv.call n hpc).2
      refine ⟨hinv, h.is_used, h.hasFun, h.timeout, fun hne => absurd rfl hne, fun _ => ?_⟩
      rw [hover]
      dsimp only
      rw [Function.update_self, Nat.succ_mul]
      omega
    · refine h.same hinv rfl (Function.update_of_ne hne ..) hover (iff_of_false (fun he => ?_) (by rw [hpc]; nofun))
      exact hne (ThreadStep.reload.inj he).symm
  | @reload i hpc =>
    by_cases hne : n = i
    · subst hne
      have hcalled := h.called hpc
      exact h.over (.inl hpc) hinv (by rw [Nat.sub_self]; exact hcalled)
    · exact h.leave hne (.inl hpc) hinv
  | @decrement i hpc =>
    by_cases hne : n = i
    · subst hne
      have hwaiting := h.waiting (by rw [hpc]; nofun)
      have hpos := (h.inv.decrement n hpc).2 h.is_used h.hasFun
      have hle := h.inv.times_le n h.is_used h.hasFun
      have hone : (1 : UINT4).toNat ≤ (s.node n).times.toNat :=
        Nat.one_le_iff_ne_zero.mpr fun hzero => hpos (UInt32.toNat_inj.mp hzero)
      refine h.over (.inr hpc) hinv ?_
      rw [UInt32.toNat_sub_of_le _ _ (UInt32.le_iff_toNat_le.mpr hone)]
      have hone : 1 ≤ (s.node n).times.toNat := hone
      change _ + ((s.node n).timeout.toNat - ((s.node n).times.toNat - 1)) + _ = _
      omega
    · exact h.leave hne (.inr hpc) hinv

theorem Counts.step {first : Timer_List} (h : Counts n first s) (hkeeps : Keeps n s e) (hstep : s.step e = some s') :
    Counts n first s' := by
  have hinv := h.inv.step hkeeps.1 hstep
  have hin := (h.inv.used n).mp h.is_used
  cases e with
  | thread =>
    have hn : n < s.total_len := h.inv.len ▸ hin.1.trans_le s.pool.head_le
    exact h.visit hn (h.inv.visits hstep)
  | creat timeout hasFun =>
    obtain rfl := Option.some.inj hstep
    obtain ⟨-, he⟩ | ⟨tmp, pool, hget, he⟩ := s.timer_creat_cases timeout hasFun
    · rwa [he]
    · have hne : n ≠ tmp := fun hn => MemPool.mem_get_fresh hget (hn ▸ hin)
      rw [he] at hinv ⊢
      refine h.same hinv ?_ rfl rfl Iff.rfl
      dsimp only
      rw [setNode_node, if_neg hne]
  | kill m =>
    have hne : n ≠ m := fun hn => hkeeps.2 (congrArg _ hn.symm)
    obtain ⟨-, rfl⟩ := timer_kill_cases hstep
    refine h.same hinv ?_ rfl rfl Iff.rfl
    dsimp only
    rw [setNode_node, if_neg hne]

/-- In as many rounds as its timeout, a timer that lives runs its callback once if it was visited since it was created or
ran it the last time, and not at all if it was not. -/
theorem Inv.rounds_iff (h : s.Inv) (hr : Rounds n s s') :
    s'.calls n = s.calls n + 1 ↔ (s.node n).times.toNat < (s.node n).timeout.toNat := by
  have hle := h.times_le n hr.is_used hr.hasFun
  have hstart : Counts n s s := ⟨h, hr.is_used, hr.hasFun, rfl, fun _ => rfl, fun hpc => by
    rw [hr.first] at hpc
    cases hpc⟩
  have hcounts : Counts n s s' := hr.run.invariant (fun _ _ _ ht hk hstep => ht.step hk hstep) hstart
  have hcount := hcounts.waiting (by rw [hr.last]; nofun)
  have hpos := hr.timeout
  rw [hcounts.timeout, visitsOver, visitsOver, hr.first, hr.last, hr.count] at hcount
  generalize (s.node n).timeout.toNat = t at *
  generalize (s'.node n).times.toNat = k' at *
  rw [ThreadStep.index, if_neg (Nat.not_lt_zero n)] at hcount
  obtain hless | he | hmore := Nat.lt_trichotomy (s'.calls n) (s.calls n + 1)
  · have hmul := Nat.mul_le_mul_right (t + 1) (Nat.le_of_lt_succ hless)
    omega
  · rw [he, Nat.succ_mul] at hcount
    exact iff_of_true he (by omega)
  · have hmul := Nat.mul_le_mul_right (t + 1) (Nat.succ_le_of_lt hmore)
    rw [Nat.succ_mul, Nat.succ_mul] at hmul
    omega

/-- In a run without a kill or a creation in the middle of a visit, no callback starts for a timer that was killed, a
timer counts down from its own timeout, and the callback of a timer that lives runs once in as many rounds as its timeout
if and only if these do not begin with all of its time left. -/
theorem timers_run (len : ℕ) (s : Timer_List) (hrun : Run step Calm (timer_init len) s) :
    s.Sound ∧ ∀ n s', Rounds n s s' →
      (s'.calls n = s.calls n + 1 ↔ (s.node n).times.toNat < (s.node n).timeout.toNat) := by
  have h : s.Inv := hrun.invariant (fun _ _ _ ht hcalm hstep => ht.step hcalm hstep) (inv_init len)
  exact ⟨h.sound, fun n s' hr => h.rounds_iff hr⟩

theorem run_threads {C : Timer_List → TimerEvent → Prop} (hC : ∀ s, C s .thread) (hr : Run step C s s') (k : ℕ)
    {t : Timer_List} (h : exec step s' (List.replicate k .thread) = some t) : Run step C s t := by
  induction k generalizing s' with
  | zero =>
    obtain rfl := Option.some.inj h
    exact hr
  | succ k ih =>
    obtain ⟨u, hu, h⟩ := Option.bind_eq_some_iff.mp h
    exact ih (hr.tail (hC s') hu) h

/-- One node and a timer with a timeout of 1. -/
def oneTimer : Timer_List := (timer_init 1).timer_creat 1 true

theorem run_oneTimer : Run step Calm (timer_init 1) oneTimer :=
  .tail (a := .creat 1 true) .refl (fun _ _ _ => nofun) rfl

/-- In its second round the timer runs its callback. -/
theorem oneTimer_second_round : ∃ s s', Run step Calm (timer_init 1) s ∧ s.Sound ∧ Rounds 0 s s' ∧
    s'.calls 0 = s.calls 0 + 1 := by
  have hfirst : (exec step oneTimer (List.replicate 3 .thread)).map (fun s =>
      ((s.node 0).is_used, (s.node 0).hasFun, (s.node 0).timeout, (s.node 0).times, s.pc, s.rounds)) =
      some (true, true, 1, 0, .test 0, 1) := by decide +kernel
  have hsecond : (exec step oneTimer (List.replicate 3 .thread)).bind (fun s =>
      (exec step s (List.replicate 4 .thread)).map fun s' => (s'.pc, s'.rounds)) = some (.test 0, 2) := by
    decide +kernel
  obtain ⟨s, hs, hat⟩ := Option.map_eq_some_iff.mp hfirst
  rw [hs, Option.bind_some] at hsecond
  obtain ⟨s', hs', hat'⟩ := Option.map_eq_some_iff.mp hsecond
  simp only [Prod.mk.injEq] at hat hat'
  obtain ⟨hused, hfun, htimeout, htimes, hpc, hrounds⟩ := hat
  have hrun := run_threads (fun _ => trivial) run_oneTimer 3 hs
  have hwindow : Rounds 0 s s' := by
    refine ⟨hused, hfun, by rw [htimeout]; decide, hpc, hat'.1, ?_, run_threads (fun _ => ⟨trivial, nofun⟩) .refl 4 hs'⟩
    rw [hat'.2, hrounds, htimeout]
    rfl
  obtain ⟨hsound, hrounds⟩ := timers_run 1 s hrun
  refine ⟨s, s', hrun, hsound, hwindow, (hrounds 0 s' hwindow).mpr ?_⟩
  rw [htimeout, htimes]
  decide

/-- In its first round the timer does not run its callback; a timer that is killed between its test and its callback runs
it nevertheless; a timer that is created between the test of a node and the decrement loses a second. -/
theorem timers_off : (∃ s', Rounds 0 oneTimer s' ∧ s'.calls 0 ≠ oneTimer.calls 0 + 1) ∧
    (∃ s, Reaches step (timer_init 1) s ∧ ∃ i n, s.pc = .call i ∧ s.arr i = some n ∧ ¬(s.node n).is_used) ∧
      ∃ s, Reaches step (timer_init 1) s ∧ ∃ n, s.fresh n ∧ (s.node n).times ≠ (s.node n).timeout := by
  refine ⟨?_, ?_, ?_⟩
  · have hround : (exec step oneTimer (List.replicate 3 .thread)).map (fun s => (s.pc, s.rounds, s.calls 0)) =
        some (.test 0, 1, 0) := by decide +kernel
    obtain ⟨s', hs', hat⟩ := Option.map_eq_some_iff.mp hround
    simp only [Prod.mk.injEq] at hat
    obtain ⟨hpc, hrounds, hcalls⟩ := hat
    refine ⟨s', ⟨rfl, rfl, by decide, rfl, hpc, hrounds, run_threads (fun _ => ⟨trivial, nofun⟩) .refl 3 hs'⟩, ?_⟩
    rw [hcalls]
    exact Nat.zero_ne_one
  · have hkilled : (exec step (timer_init 1) [.creat 0 true, .thread, .kill 0]).map (fun s =>
        (s.pc, s.arr 0, (s.node 0).is_used)) = some (.call 0, some 0, false) := by decide +kernel
    obtain ⟨s, hs, hat⟩ := Option.map_eq_some_iff.mp hkilled
    simp only [Prod.mk.injEq] at hat
    exact ⟨s, .of_exec hs, 0, 0, hat.1, hat.2.1, by rw [hat.2.2]; nofun⟩
  · have hshort : (exec step (timer_init 1) [.creat 1 true, .thread, .kill 0, .creat 5 true, .thread]).map (fun s =>
        (s.fresh 0, (s.node 0).times, (s.node 0).timeout)) = some (true, 4, 5) := by decide +kernel
    obtain ⟨s, hs, hat⟩ := Option.map_eq_some_iff.mp hshort
    simp only [Prod.mk.injEq] at hat
    exact ⟨s, .of_exec hs, 0, hat.1, by rw [hat.2.1, hat.2.2]; decide⟩

end Timer_List

end DCFabric.Timer
