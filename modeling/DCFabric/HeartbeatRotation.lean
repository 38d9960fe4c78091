import DCFabric.HeartbeatTimeouts
import DCFabric.RoundRobin

namespace DCFabric

open TransitionRuns

namespace Heartbeat

variable {conf : HeartbeatConf} {s t u : Heartbeat} {a : INT4} {linkUp : UINT8 → UINT4 → Bool} {k count : ℕ}
  {done rest : List INT4}

/-- Every request is sent, and each has had its reply when the next call of `heartbeat` begins. No switch comes, goes
or changes its state otherwise. -/
def Prompt (s : Heartbeat) : HeartbeatEvent → Prop
  | .begin => ∀ a ∈ s.sockfds, (s.switch a).supervised → (s.switch a).m_heartbeatTimes = 0
  | .visit sent _ => sent
  | .finish => True
  | .echo _ isRequest _ sent _ => isRequest → sent
  | .portStatus _ _ => True
  | _ => False

instance : ∀ event, Decidable (s.Prompt event)
  -- the instance of a finite type would go through all sockets
  | .begin =>
    List.decidableBAll (fun a => (s.switch a).supervised → (s.switch a).m_heartbeatTimes = 0) s.sockfds
  | .visit sent _ => inferInstanceAs (Decidable (sent = true))
  | .finish => inferInstanceAs (Decidable True)
  | .accept _ _ _ => inferInstanceAs (Decidable False)
  | .hello _ => inferInstanceAs (Decidable False)
  | .barrier _ => inferInstanceAs (Decidable False)
  | .echo _ isRequest _ sent _ => inferInstanceAs (Decidable (isRequest = true → sent = true))
  | .portStatus _ _ => inferInstanceAs (Decidable True)
  | .sendFailed _ _ => inferInstanceAs (Decidable False)
  | .disconnect _ _ => inferInstanceAs (Decidable False)
  | .powerOff _ => inferInstanceAs (Decidable False)
  | .quit _ _ => inferInstanceAs (Decidable False)
  | .delete _ => inferInstanceAs (Decidable False)

/-- How many calls of `heartbeat` it takes to come round. -/
def windows (s : Heartbeat) : ℕ := (s.sockfds.length + (HEARTBEAT_NUMBER_ONE_TIME - 1)) / HEARTBEAT_NUMBER_ONE_TIME

/-- The `step` that the next call of `heartbeat` takes. -/
def window (s : Heartbeat) : ℕ := if s.sockfds.length ≤ s.step * HEARTBEAT_NUMBER_ONE_TIME then 0 else s.step

/-- The supervised switches before a socket. -/
def place (s : Heartbeat) (a : INT4) : ℕ := (s.sockfds.takeWhile (· ≠ a)).countP fun b => (s.switch b).supervised

def requests (a : INT4) (log : List HeartbeatEntry) : ℕ :=
  log.countP fun e => e = .visited a .send || e = .visited a .resend

/-- The turns that a socket has had after `k` calls. -/
def turns (s : Heartbeat) (k : ℕ) (a : INT4) : ℕ :=
  Nat.count (fun j => (s.window + j) % s.windows = s.place a / HEARTBEAT_NUMBER_ONE_TIME) k

/-- After `k` calls of `heartbeat`. -/
structure Between (s t : Heartbeat) (k : ℕ) : Prop where
  pass : t.pass = none
  window : t.window = (s.window + k) % s.windows
  requests : ∀ a ∈ s.sockfds, (s.switch a).supervised → requests a t.log = requests a s.log + s.turns k a

/-- In the call after them, with the switches of `done` behind. -/
structure Within (s t : Heartbeat) (k : ℕ) (done rest : List INT4) (count : ℕ) : Prop where
  pass : t.pass = some (rest, count)
  step : t.step = (s.window + k) % s.windows
  split : s.sockfds = done ++ rest
  count : count = done.countP fun b => (s.switch b).supervised
  idle : ∀ a ∈ rest, (s.switch a).supervised → (t.switch a).m_heartbeatTimes = 0
  requests : ∀ a ∈ s.sockfds, (s.switch a).supervised → requests a t.log = requests a s.log + s.turns k a +
    if a ∈ done ∧ s.place a / HEARTBEAT_NUMBER_ONE_TIME = (s.window + k) % s.windows then 1 else 0

structure Rotates (s t : Heartbeat) : Prop where
  sockfds : t.sockfds = s.sockfds
  supervised : ∀ a, (t.switch a).supervised = (s.switch a).supervised
  phase : ∃ k, t.log.count .ended = s.log.count .ended + k ∧
    (Between s t k ∨ ∃ done rest count, Within s t k done rest count)

theorem windows_pos (ha : a ∈ s.sockfds) : 0 < s.windows := by
  have hlen := List.length_pos_of_mem ha
  unfold windows HEARTBEAT_NUMBER_ONE_TIME
  omega

theorem place_split (hnodup : s.sockfds.Nodup) (h : s.sockfds = done ++ a :: rest) :
    s.place a = done.countP fun b => (s.switch b).supervised := by
  rw [h] at hnodup
  have hnot : ∀ b ∈ done, b ≠ a := fun b hb => (List.nodup_append.mp hnodup).2.2 b hb a List.mem_cons_self
  have hdone : s.sockfds.takeWhile (· ≠ a) = done := by
    rw [h, List.takeWhile_append_of_pos (by simpa using hnot)]
    simp
  rw [place, hdone]

theorem place_lt (ha : a ∈ s.sockfds) (hnodup : s.sockfds.Nodup) :
    s.place a / HEARTBEAT_NUMBER_ONE_TIME < s.windows := by
  obtain ⟨done, rest, heq⟩ := List.append_of_mem ha
  have hle : s.place a ≤ done.length := by
    rw [place_split hnodup heq]
    exact List.countP_le_length
  have hlen : s.sockfds.length = done.length + (rest.length + 1) := by simp [heq]
  unfold windows HEARTBEAT_NUMBER_ONE_TIME
  omega

theorem requests_cons {e : HeartbeatEntry} {log : List HeartbeatEntry} :
    requests a (e :: log) = requests a log + if e = .visited a .send ∨ e = .visited a .resend then 1 else 0 := by
  simp [requests, List.countP_cons]

theorem Between.begin (h : Between s t k) (hfds : t.sockfds = s.sockfds)
    (hsup : ∀ a, (t.switch a).supervised = (s.switch a).supervised) (hprompt : t.Prompt .begin)
    (hu : t.begin = some u) : Within s u k [] s.sockfds 0 := by
  obtain ⟨-, rfl⟩ := begin_cases hu
  refine ⟨by rw [← hfds]; rfl, h.window, rfl, rfl, ?_, ?_⟩
  · intro a ha hs
    exact hprompt a (hfds ▸ ha) ((hsup a).trans hs)
  · intro a ha hs
    simpa [write, requests_cons] using h.requests a ha hs

theorem Within.finish (h : Within s t k done [] count) (hfds : t.sockfds = s.sockfds) (hne : 0 < s.windows)
    (hu : t.finish = some u) : Between s u (k + 1) := by
  obtain ⟨-, -, rfl⟩ := finish_cases hu
  refine ⟨rfl, ?_, ?_⟩
  · have hlt := Nat.mod_lt (s.window + k) hne
    have hstep : (t.step + 1) % s.windows = (s.window + (k + 1)) % s.windows := by
      rw [h.step, Nat.mod_add_mod, Nat.add_assoc]
    have hwin : (t.step + 1) % s.windows = if s.windows ≤ t.step + 1 then 0 else t.step + 1 := by
      rw [h.step] at *
      split_ifs with hle
      · rw [show (s.window + k) % s.windows + 1 = s.windows from Nat.le_antisymm hlt hle, Nat.mod_self]
      · exact Nat.mod_eq_of_lt (not_le.mp hle)
    rw [← hstep, hwin]
    have hround : s.sockfds.length ≤ (t.step + 1) * HEARTBEAT_NUMBER_ONE_TIME ↔ s.windows ≤ t.step + 1 := by
      unfold windows HEARTBEAT_NUMBER_ONE_TIME
      omega
    simp only [window, write, hfds, hround]
  · intro a ha hs
    have hdone : a ∈ done := by simpa [h.split] using ha
    have hreq := h.requests a ha hs
    have hturns : s.turns (k + 1) a = s.turns k a +
        if (s.window + k) % s.windows = s.place a / HEARTBEAT_NUMBER_ONE_TIME then 1 else 0 := Nat.count_succ _ _
    rw [hturns, ← Nat.add_assoc]
    simpa [write, requests_cons, hdone, eq_comm] using hreq

theorem beat_idle (h : (t.switch a).m_heartbeatTimes = 0) :
    t.beat a conf true count =
      if t.inWindow count then (.send, 1, 0) else (.skip, 0, (t.switch a).m_heartbeatInterim) := by
  cases hw : t.inWindow count <;> simp [beat, HeartbeatConf.beat, h, hw]

theorem inWindow_iff : t.inWindow count = true ↔ count / HEARTBEAT_NUMBER_ONE_TIME = t.step := by
  unfold inWindow HEARTBEAT_NUMBER_ONE_TIME
  simp only [Bool.and_eq_true, decide_eq_true_eq]
  omega

theorem supervised_visited {sent : Bool} {b : INT4} :
    ((t.visited a conf sent rest count).switch b).supervised = (t.switch b).supervised := by
  by_cases hb : b = a
  · subst hb
    simp [visited, setHeartbeat, assign, write, WatchedSwitch.supervised]
  · simp [visited, setHeartbeat, assign, write, hb]

theorem Within.visit (h : Within s t k done (a :: rest) count) (hnodup : s.sockfds.Nodup)
    (hsup : ∀ a, (t.switch a).supervised = (s.switch a).supervised) (hu : t.visit linkUp conf true = some u) :
    u.sockfds = t.sockfds ∧ (∀ a, (u.switch a).supervised = (t.switch a).supervised) ∧
      u.log.count .ended = t.log.count .ended ∧ ∃ count', Within s u k (done ++ [a]) rest count' := by
  have hsplit : s.sockfds = (done ++ [a]) ++ rest := by rw [h.split, List.append_assoc, List.singleton_append]
  have hnot : a ∉ done ++ rest := by
    have hperm : (done ++ a :: rest).Nodup := h.split ▸ hnodup
    exact (List.nodup_middle.mp hperm) |> fun hcons => (List.nodup_cons.mp hcons).1
  unfold Heartbeat.visit at hu
  rw [h.pass] at hu
  cases hs : (s.switch a).supervised with
  | false =>
    simp only [hsup, hs, Bool.not_false, ↓reduceIte] at hu
    obtain rfl := Option.some.inj hu
    refine ⟨rfl, fun _ => rfl, rfl, count, rfl, h.step, hsplit, ?_, ?_, ?_⟩
    · simpa [List.countP_append, hs] using h.count
    · exact fun b hb => h.idle b (List.mem_cons_of_mem _ hb)
    · intro b hb hsb
      have hne : b ≠ a := fun heq => by simp [← heq, hsb] at hs
      simpa [hne] using h.requests b hb hsb
  | true =>
    have hidle := h.idle a List.mem_cons_self hs
    have hbeat : t.beat a conf true count = _ := beat_idle hidle
    have hplace : s.place a = count := (place_split hnodup h.split).trans h.count.symm
    have hu' : u = t.visited a conf true rest count := by
      simp only [hsup, hs, Bool.not_true, Bool.false_eq_true, ↓reduceIte, hbeat] at hu
      cases hw : t.inWindow count <;> simpa [hw, eq_comm] using hu
    have hturn : t.inWindow count = true ↔ s.place a / HEARTBEAT_NUMBER_ONE_TIME = (s.window + k) % s.windows := by
      rw [inWindow_iff, hplace, h.step]
    subst hu'
    refine ⟨rfl, fun _ => supervised_visited, ?_, count + 1, ?_, h.step, hsplit, ?_, ?_, ?_⟩
    · simp [visited, write, setHeartbeat, assign]
    · simp [visited, write, setHeartbeat, assign, hidle]
    · simpa [List.countP_append, hs] using h.count
    · intro b hb hsb
      have hne : b ≠ a := fun heq => hnot (heq ▸ List.mem_append_right _ hb)
      simpa [visited, write, setHeartbeat, assign, hne] using h.idle b (List.mem_cons_of_mem _ hb) hsb
    · intro b hb hsb
      have hreq := h.requests b hb hsb
      by_cases hne : b = a
      · subst hne
        have hnd : b ∉ done := fun hmem => hnot (List.mem_append_left _ hmem)
        simp only [hnd, false_and, ↓reduceIte, Nat.add_zero] at hreq
        cases hw : t.inWindow count
        all_goals
          simp [visited, write, requests_cons, hbeat, hw, ← hturn]
          exact hreq
      · simpa [visited, write, setHeartbeat, assign, requests_cons, hne, Ne.symm hne] using hreq

/-- A step that sends no request and starts no round. -/
structure Rests (t u : Heartbeat) : Prop where
  sockfds : u.sockfds = t.sockfds
  pass : u.pass = t.pass
  step : u.step = t.step
  supervised : ∀ a, (u.switch a).supervised = (t.switch a).supervised
  idle : ∀ a, (t.switch a).m_heartbeatTimes = 0 → (u.switch a).m_heartbeatTimes = 0
  requests : ∀ a, requests a u.log = requests a t.log
  ended : u.log.count .ended = t.log.count .ended

theorem Rests.refl (t : Heartbeat) : Rests t t :=
  ⟨rfl, rfl, rfl, fun _ => rfl, fun _ h => h, fun _ => rfl, rfl⟩

theorem Rests.trans {v : Heartbeat} (h : Rests t u) (hv : Rests u v) : Rests t v where
  sockfds := hv.sockfds.trans h.sockfds
  pass := hv.pass.trans h.pass
  step := hv.step.trans h.step
  supervised := fun a => (hv.supervised a).trans (h.supervised a)
  idle := fun a ht => hv.idle a (h.idle a ht)
  requests := fun a => (hv.requests a).trans (h.requests a)
  ended := hv.ended.trans h.ended

theorem Rests.assign {sw : WatchedSwitch} (hsup : sw.supervised = (t.switch a).supervised)
    (hidle : (t.switch a).m_heartbeatTimes = 0 → sw.m_heartbeatTimes = 0) : Rests t (t.assign a sw) where
  sockfds := rfl
  pass := rfl
  step := rfl
  supervised := fun b => by
    by_cases hb : b = a
    · subst hb
      simpa [Heartbeat.assign] using hsup
    · simp [Heartbeat.assign, hb]
  idle := fun b hz => by
    by_cases hb : b = a
    · subst hb
      simpa [Heartbeat.assign] using hidle hz
    · simpa [Heartbeat.assign, hb] using hz
  requests := fun _ => rfl
  ended := rfl

theorem Rests.write {e : HeartbeatEntry} (hvisit : ∀ b act, e ≠ .visited b act) (hended : e ≠ .ended) :
    Rests t (t.write e) where
  sockfds := rfl
  pass := rfl
  step := rfl
  supervised := fun _ => rfl
  idle := fun _ h => h
  requests := fun a => by simp [Heartbeat.write, requests_cons, hvisit]
  ended := by simp [Heartbeat.write, hended]

theorem Rests.exitUnreach : Rests t (t.processPeerExitUnreach a) := by
  unfold processPeerExitUnreach
  split
  · rename_i hstate
    have hstable : Rests t (t.setState a .stable) := by
      apply Rests.assign
      · simp [WatchedSwitch.supervised, hstate, SwitchState.value]
      · exact fun h => h
    exact hstable.trans (Rests.write (by simp) (by simp))
  · exact Rests.refl t

theorem Rests.handle {isRequest data sent : Bool} (hsent : isRequest → sent)
    (hu : t.handle a linkUp isRequest data sent = some u) : Rests t u := by
  refine (Rests.exitUnreach (a := a)).trans ?_
  unfold Heartbeat.handle at hu
  revert hu
  generalize t.processPeerExitUnreach a = v
  intro hu
  cases data with
  | false => exact Option.some.inj hu ▸ Rests.refl v
  | true =>
    cases isRequest with
    | true =>
      rw [hsent rfl] at hu
      exact Option.some.inj hu ▸ Rests.write (by simp) (by simp)
    | false =>
      obtain rfl := Option.some.inj hu
      have hidle : Rests v (v.setHeartbeat a 0 0) := Rests.assign rfl fun _ => rfl
      exact hidle.trans (Rests.write (by simp) (by simp))

theorem Rotates.rests (h : Rotates s t) (hr : Rests t u) : Rotates s u where
  sockfds := hr.sockfds.trans h.sockfds
  supervised := fun a => (hr.supervised a).trans (h.supervised a)
  phase := by
    obtain ⟨k, hended, hb | ⟨done, rest, count, hw⟩⟩ := h.phase
    · refine ⟨k, hr.ended.trans hended, .inl ⟨hr.pass.trans hb.pass, ?_, fun a ha hs => ?_⟩⟩
      · rw [← hb.window, window, window, hr.sockfds, hr.step]
      · exact (hr.requests a).trans (hb.requests a ha hs)
    · refine ⟨k, hr.ended.trans hended, .inr ⟨done, rest, count, ?_⟩⟩
      exact ⟨hr.pass.trans hw.pass, hr.step.trans hw.step, hw.split, hw.count,
        fun a ha hs => hr.idle a (hw.idle a ha hs), fun a ha hs => (hr.requests a).trans (hw.requests a ha hs)⟩

theorem Rests.withSwitch {f : Option Heartbeat} (hu : t.withSwitch a f = some u) (hf : f = some u → Rests t u) :
    Rests t u := by
  unfold Heartbeat.withSwitch at hu
  split at hu
  · exact hf hu
  · exact Option.some.inj hu ▸ Rests.refl t

theorem Rotates.next (hne : 0 < s.windows) (hnodup : s.sockfds.Nodup) {event : HeartbeatEvent} (h : Rotates s t)
    (hp : t.Prompt event) (hu : t.next conf event = some u) : Rotates s u := by
  cases event with
  | begin =>
    obtain ⟨hpass, heq⟩ := begin_cases hu
    obtain ⟨k, hended, hb | ⟨done, rest, count, hw⟩⟩ := h.phase
    · have hwithin := hb.begin h.sockfds h.supervised hp hu
      subst heq
      exact ⟨h.sockfds, h.supervised, k, by simpa [write] using hended, .inr ⟨_, _, _, hwithin⟩⟩
    · exact absurd (hw.pass.symm.trans hpass) (Option.some_ne_none _)
  | visit sent linkUp =>
    obtain rfl : sent = true := hp
    obtain ⟨a, rest, count, hpass, -⟩ := visit_cases hu
    obtain ⟨k, hended, hb | ⟨done, rest', count', hw⟩⟩ := h.phase
    · exact absurd (hpass.symm.trans hb.pass) (Option.some_ne_none _)
    · obtain ⟨rfl, rfl⟩ := Prod.mk.inj (Option.some.inj (hw.pass.symm.trans hpass))
      obtain ⟨hfds, hsup, hend, count', hw'⟩ := hw.visit hnodup h.supervised hu
      exact ⟨hfds.trans h.sockfds, fun b => (hsup b).trans (h.supervised b), k, hend.trans hended,
        .inr ⟨_, _, _, hw'⟩⟩
  | finish =>
    obtain ⟨count, hpass, heq⟩ := finish_cases hu
    obtain ⟨k, hended, hb | ⟨done, rest', count', hw⟩⟩ := h.phase
    · exact absurd (hpass.symm.trans hb.pass) (Option.some_ne_none _)
    · obtain ⟨rfl, rfl⟩ := Prod.mk.inj (Option.some.inj (hw.pass.symm.trans hpass))
      have hbetween := hw.finish h.sockfds hne hu
      subst heq
      exact ⟨h.sockfds, h.supervised, k + 1, by simp [write, hended, Nat.add_assoc], .inl hbetween⟩
  | echo a isRequest data sent linkUp => exact h.rests (Rests.withSwitch hu (Rests.handle hp))
  | portStatus a ports =>
    exact h.rests (Rests.withSwitch hu fun hf => Option.some.inj hf ▸ Rests.assign rfl fun hz => hz)
  | _ => exact hp.elim

theorem Rotates.start (hp : s.pass = none) (hne : 0 < s.windows) : Rotates s s := by
  refine ⟨rfl, fun _ => rfl, 0, rfl, .inl ⟨hp, ?_, fun a ha hs => ?_⟩⟩
  · have hlt : s.window < s.windows := by
      revert hne
      unfold window windows HEARTBEAT_NUMBER_ONE_TIME
      split_ifs <;> omega
    exact (Nat.mod_eq_of_lt hlt).symm
  · simp [turns]

/-- Two calls for two switches, of which the first answers before the second is asked. -/
def answeredTicks : List HeartbeatEvent :=
  [.begin, .visit true fun _ _ => true, .echo 5 false true true fun _ _ => true, .visit true fun _ _ => true, .finish,
    .echo 6 false true true fun _ _ => true, .begin, .visit true fun _ _ => true, .visit true fun _ _ => true, .finish]

def twoSwitches : Heartbeat :=
  { start fun _ => { watchedSwitch with m_version := OFP13_VERSION, m_state := .stable } with sockfds := [5, 6] }

/-- An entry that begins a round. -/
def asks : HeartbeatEntry → Bool
  | .visited _ .send => true
  | _ => false

/-- The rounds that were begun since `heartbeat` was last called. -/
def started (log : List HeartbeatEntry) : ℕ := (log.takeWhile (· ≠ .begun)).countP asks

structure Bounded (s : Heartbeat) : Prop where
  call : started s.log ≤ HEARTBEAT_NUMBER_ONE_TIME
  pass : ∀ rest count, s.pass = some (rest, count) → started s.log ≤ count - s.step * HEARTBEAT_NUMBER_ONE_TIME

theorem started_cons {e : HeartbeatEntry} {log : List HeartbeatEntry} (he : e ≠ .begun) :
    started (e :: log) = started log + if asks e then 1 else 0 := by
  simp [started, he, List.countP_cons]

theorem started_loses {es log : List HeartbeatEntry} (h : ∀ e ∈ es, Loses e) : started (es ++ log) = started log := by
  induction es with
  | nil => rfl
  | cons e es ih =>
    obtain ⟨he, hes⟩ := List.forall_mem_cons.mp h
    cases e with
    | reported b event reason =>
      rw [List.cons_append, started_cons (by simp), ih hes]
      rfl
    | _ => exact he.elim

theorem Bounded.keeps (h : s.Bounded) (hlog : started t.log = started s.log)
    (hpass : ∀ rest count, t.pass = some (rest, count) → s.pass = some (rest, count) ∧ t.step = s.step) :
    t.Bounded where
  call := hlog ▸ h.call
  pass := by
    intro rest count hp
    obtain ⟨hp', hstep⟩ := hpass rest count hp
    rw [hlog, hstep]
    exact h.pass rest count hp'

theorem Bounded.settles (h : s.Bounded) (hs : s.Settles t) : t.Bounded := by
  obtain ⟨es, hes, hloses⟩ := hs.log
  refine h.keeps (by rw [hes, started_loses hloses]) ?_
  intro rest count hp
  exact ⟨hs.pass ▸ hp, hs.step⟩

theorem Bounded.write {e : HeartbeatEntry} (h : s.Bounded) (he : e ≠ .begun) (hask : asks e = false) :
    (s.write e).Bounded :=
  h.keeps (by simp [Heartbeat.write, started_cons he, hask]) fun _ _ hp => ⟨hp, rfl⟩

theorem Bounded.assign {sw : WatchedSwitch} (h : s.Bounded) : (s.assign a sw).Bounded :=
  h.keeps rfl fun _ _ hp => ⟨hp, rfl⟩

theorem asks_beat {sent : Bool} (h : asks (.visited a (s.beat a conf sent count).1)) :
    (s.switch a).m_heartbeatTimes = 0 ∧ s.inWindow count := by
  unfold beat HeartbeatConf.beat at h
  split_ifs at h with hz hw
  all_goals simp_all [asks]

theorem Bounded.visited {sent : Bool} (h : s.Bounded) (hp : s.pass = some (a :: rest, count)) :
    (s.visited a conf sent rest count).Bounded := by
  have hcall := h.call
  have hpass := h.pass _ _ hp
  have hlog : started (s.visited a conf sent rest count).log =
      started s.log + if asks (.visited a (s.beat a conf sent count).1) then 1 else 0 := started_cons (by simp)
  by_cases hask : asks (.visited a (s.beat a conf sent count).1) = true
  · obtain ⟨hz, hw⟩ := asks_beat hask
    simp only [inWindow, Bool.and_eq_true, decide_eq_true_eq] at hw
    rw [if_pos hask] at hlog
    have hroom : started s.log + 1 ≤ count + 1 - s.step * HEARTBEAT_NUMBER_ONE_TIME := by omega
    refine ⟨?_, ?_⟩
    · rw [hlog]
      unfold HEARTBEAT_NUMBER_ONE_TIME at *
      omega
    · intro rest' count' hp'
      simp only [Heartbeat.visited, hz, ↓reduceIte] at hp'
      obtain ⟨rfl, rfl⟩ := Prod.mk.inj (Option.some.inj hp')
      rw [hlog]
      exact hroom
  · rw [if_neg hask, Nat.add_zero] at hlog
    refine ⟨hlog ▸ hcall, ?_⟩
    intro rest' count' hp'
    have hle : count ≤ count' := by
      obtain ⟨-, rfl⟩ := Prod.mk.inj (Option.some.inj hp')
      split_ifs <;> omega
    rw [hlog]
    exact hpass.trans (Nat.sub_le_sub_right hle _)

theorem Bounded.visit {sent : Bool} (h : s.Bounded) (hu : s.visit linkUp conf sent = some u) : u.Bounded := by
  obtain ⟨fd, rest, count, hp, ⟨-, rfl⟩ | ⟨-, ⟨rfl, -⟩ | ⟨reason, -, rfl⟩⟩⟩ := visit_cases hu
  · refine ⟨h.call, fun rest' count' hp' => ?_⟩
    obtain ⟨rfl, rfl⟩ := Prod.mk.inj (Option.some.inj hp')
    exact h.pass _ _ hp
  · exact h.visited hp
  · exact ((h.visited hp).assign).write (by simp) rfl

theorem Bounded.handle {isRequest data sent : Bool} (h : s.Bounded)
    (hu : s.handle a linkUp isRequest data sent = some u) : u.Bounded := by
  have hexit : (s.processPeerExitUnreach a).Bounded := by
    unfold processPeerExitUnreach
    split
    · exact h.assign.write (by simp) rfl
    · exact h
  unfold Heartbeat.handle at hu
  revert hu hexit
  generalize s.processPeerExitUnreach a = v
  intro hu hexit
  split_ifs at hu with hdata hreq hsent
  · exact Option.some.inj hu ▸ hexit
  · exact Option.some.inj hu ▸ hexit.write (by simp) rfl
  · exact (hexit.write (by simp) rfl).settles (Settles.processPeerEnterUnreach hu (by decide))
  · exact Option.some.inj hu ▸ hexit.assign.write (by simp) rfl

theorem Bounded.withSwitch {f : Option Heartbeat} (h : s.Bounded) (hu : s.withSwitch a f = some u)
    (hf : f = some u → u.Bounded) : u.Bounded := by
  unfold Heartbeat.withSwitch at hu
  split at hu
  · exact hf hu
  · exact Option.some.inj hu ▸ h

theorem Bounded.next {event : HeartbeatEvent} (h : s.Bounded) (hu : s.next conf event = some u) : u.Bounded := by
  cases event with
  | begin =>
    obtain ⟨-, rfl⟩ := begin_cases hu
    refine ⟨Nat.zero_le _, fun _ _ _ => Nat.zero_le _⟩
  | visit sent linkUp => exact h.visit hu
  | finish =>
    obtain ⟨count, -, rfl⟩ := finish_cases hu
    exact h.keeps (started_cons (by simp)) fun _ _ hp => by cases hp
  | accept a sw sockfds =>
    change s.accept a sw sockfds = some u at hu
    unfold accept at hu
    split at hu
    · cases hu
    · rename_i hp
      split at hu
      · obtain rfl := Option.some.inj hu
        refine h.keeps (started_cons (by simp)) fun rest count hp' => ?_
        exact absurd (hp.symm.trans hp') (Option.some_ne_none _).symm
      · cases hu
  | hello a => exact h.withSwitch hu fun hf => Option.some.inj hf ▸ h.assign.write (by simp) rfl
  | barrier a => exact h.withSwitch hu fun hf => Option.some.inj hf ▸ h.assign.write (by simp) rfl
  | echo a isRequest data sent linkUp => exact h.withSwitch hu h.handle
  | portStatus a ports => exact h.withSwitch hu fun hf => Option.some.inj hf ▸ h.assign
  | sendFailed a linkUp =>
    exact h.withSwitch hu fun hf => h.settles (Settles.processPeerEnterUnreach hf (by decide))
  | disconnect a linkUp => exact h.withSwitch hu fun hf => h.settles (Settles.processPeerDisconn hf)
  | powerOff a => exact h.withSwitch hu fun hf => h.settles (Settles.processPeerPowerOff hf)
  | quit a reason => exact h.withSwitch hu fun hf => h.settles (Settles.processPeerQuit hf)
  | delete a => exact h.settles (Settles.delSwitch hu)

/-- In every run a call of `heartbeat` begins a hundred rounds at most, whatever happens while it is under way. -/
theorem rounds_bounded {switch : INT4 → WatchedSwitch} (h : Reaches (next conf) (start switch) s) :
    started s.log ≤ HEARTBEAT_NUMBER_ONE_TIME :=
  (h.invariant (P := Bounded) (fun _ _ _ ht _ he => ht.next he) ⟨Nat.zero_le _, fun _ _ hp => by cases hp⟩).call

theorem first_round_bounded : ∃ s, exec (next shippedConf) (start fun _ => watchedSwitch)
      [.accept 5 watchedSwitch [5], .hello 5, .begin, .visit true fun _ _ => true] = some s ∧
    started s.log = 1 ∧ started s.log ≤ HEARTBEAT_NUMBER_ONE_TIME := by
  have hrun : ∃ s ∈ exec (next shippedConf) (start fun _ => watchedSwitch)
      [.accept 5 watchedSwitch [5], .hello 5, .begin, .visit true fun _ _ => true], started s.log = 1 := by
    decide +kernel
  obtain ⟨s, hs, hone⟩ := hrun
  exact ⟨s, hs, hone, rounds_bounded (Reaches.of_exec hs)⟩

end Heartbeat

end DCFabric
