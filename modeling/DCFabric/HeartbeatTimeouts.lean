import DCFabric.HeartbeatRounds

namespace DCFabric

open TransitionRuns

def HeartbeatEntry.sockfd? : HeartbeatEntry → Option INT4
  | .begun => none
  | .ended => none
  | .accepted a => some a
  | .handshake a => some a
  | .visited a _ => some a
  | .echoRequested a => some a
  | .echoReplied a => some a
  | .reported a _ _ => some a

namespace Heartbeat

variable {conf : HeartbeatConf} {s s' : Heartbeat} {a sockfd : INT4} {linkUp : UINT8 → UINT4 → Bool}
  {reason : EventReason} {e : HeartbeatEntry} {es log : List HeartbeatEntry} {act : HeartbeatAct}

theorem silence_of_ne (h : e.sockfd? ≠ some a) : silence a (e :: es) = silence a es := by
  cases e <;> simp_all [silence, HeartbeatEntry.sockfd?]

theorem suspected_of_ne (h : e.sockfd? ≠ some a) : suspected a (e :: es) = suspected a es := by
  cases e <;> simp_all [suspected, HeartbeatEntry.sockfd?]

theorem silence_visited : silence a (.visited a act :: es) = act.advance (silence a es) := if_pos rfl

theorem suspected_visited :
    suspected a (.visited a act :: es) = (act = .fail || act = .timeout || suspected a es) := by
  simp [suspected]

/-- The reports of the connection management when it loses a switch: only a visit reports a timeout. -/
def Loses : HeartbeatEntry → Prop
  | .reported _ event reason => event ≠ .exitUnreach ∧ (event = .enterUnreach → reason ≠ .heartbeatTimeout)
  | _ => False

theorem silence_loses (h : ∀ e ∈ es, Loses e) : silence a (es ++ log) = silence a log := by
  induction es with
  | nil => rfl
  | cons e es ih =>
    obtain ⟨he, hes⟩ := List.forall_mem_cons.mp h
    cases e with
    | reported b event reason => exact ih hes
    | _ => exact he.elim

theorem suspected_loses (h : ∀ e ∈ es, Loses e) : suspected a (es ++ log) = suspected a log := by
  induction es with
  | nil => rfl
  | cons e es ih =>
    obtain ⟨he, hes⟩ := List.forall_mem_cons.mp h
    cases e with
    | reported b event reason =>
      have hskip : suspected a (.reported b event reason :: (es ++ log)) = suspected a (es ++ log) := by
        simp [suspected, he.1]
      exact hskip.trans (ih hes)
    | _ => exact he.elim

/-- What the functions of the connection management that lose a switch have in common: no counter changes, no state
falls, and while a call of `heartbeat` is under way no switch goes. -/
structure Settles (s s' : Heartbeat) : Prop where
  times : ∀ a, (s'.switch a).m_heartbeatTimes = (s.switch a).m_heartbeatTimes
  interim : ∀ a, (s'.switch a).m_heartbeatInterim = (s.switch a).m_heartbeatInterim
  rises : ∀ a, (s.switch a).m_state.value ≤ (s'.switch a).m_state.value
  sockfds : s'.sockfds.Sublist s.sockfds
  pass : s'.pass = s.pass
  keeps : s.pass ≠ none → s'.sockfds = s.sockfds
  step : s'.step = s.step
  log : ∃ es, s'.log = es ++ s.log ∧ ∀ e ∈ es, Loses e

theorem Settles.refl (s : Heartbeat) : s.Settles s where
  times := fun _ => rfl
  interim := fun _ => rfl
  rises := fun _ => le_rfl
  sockfds := List.Sublist.refl _
  pass := rfl
  keeps := fun _ => rfl
  step := rfl
  log := ⟨[], rfl, List.forall_mem_nil _⟩

theorem Settles.trans {t : Heartbeat} (h : s.Settles t) (ht : t.Settles s') : s.Settles s' where
  times := fun a => (ht.times a).trans (h.times a)
  interim := fun a => (ht.interim a).trans (h.interim a)
  rises := fun a => (h.rises a).trans (ht.rises a)
  sockfds := ht.sockfds.trans h.sockfds
  pass := ht.pass.trans h.pass
  keeps := fun hp => (ht.keeps (h.pass ▸ hp)).trans (h.keeps hp)
  step := ht.step.trans h.step
  log := by
    obtain ⟨es, hes, hl⟩ := h.log
    obtain ⟨es', hes', hl'⟩ := ht.log
    refine ⟨es' ++ es, by rw [hes', hes, List.append_assoc], ?_⟩
    intro e he
    exact (List.mem_append.mp he).elim (hl' e) (hl e)

theorem Settles.setState {state : SwitchState} (h : (s.switch a).m_state.value ≤ state.value) :
    s.Settles (s.setState a state) where
  times := fun b => by
    by_cases hb : b = a <;> simp [Heartbeat.setState, assign, hb]
  interim := fun b => by
    by_cases hb : b = a <;> simp [Heartbeat.setState, assign, hb]
  rises := fun b => by
    by_cases hb : b = a
    · subst hb
      simpa [Heartbeat.setState, assign] using h
    · simp [Heartbeat.setState, assign, hb]
  sockfds := List.Sublist.refl _
  pass := rfl
  keeps := fun _ => rfl
  step := rfl
  log := ⟨[], rfl, List.forall_mem_nil _⟩

theorem Settles.write (s : Heartbeat) (he : Loses e) : s.Settles (s.write e) where
  times := fun _ => rfl
  interim := fun _ => rfl
  rises := fun _ => le_rfl
  sockfds := List.Sublist.refl _
  pass := rfl
  keeps := fun _ => rfl
  step := rfl
  log := ⟨[e], rfl, List.forall_mem_singleton.mpr he⟩

theorem value_le_closed (state : SwitchState) : state.value ≤ SwitchState.closed.value := by
  cases state <;> decide

theorem Settles.delSwitch (h : s.delSwitch sockfd = some s') : s.Settles s' := by
  unfold Heartbeat.delSwitch at h
  split at h
  · cases h
  · rename_i hp
    obtain rfl := Option.some.inj h
    have hclosed : s.Settles (s.setState sockfd .closed) := Settles.setState (value_le_closed _)
    exact { hclosed with
      sockfds := List.erase_sublist
      keeps := fun hne => absurd hp hne }

theorem Settles.processPeerQuit (h : s.processPeerQuit sockfd reason = some s') : s.Settles s' := by
  unfold Heartbeat.processPeerQuit at h
  split at h
  · rename_i hlt
    have hloses : Loses (.reported sockfd .quit reason) := ⟨by decide, fun hne => by cases hne⟩
    exact ((Settles.setState hlt.le).trans (Settles.write _ hloses)).trans (Settles.delSwitch h)
  · exact Settles.delSwitch h

theorem Settles.processPeerPowerOff (h : s.processPeerPowerOff sockfd = some s') : s.Settles s' := by
  unfold Heartbeat.processPeerPowerOff at h
  split at h
  · rename_i hlt
    have hloses : Loses (.reported sockfd .powerOff .switchPowerOff) := ⟨by decide, fun hne => by cases hne⟩
    exact ((Settles.setState hlt.le).trans (Settles.write _ hloses)).trans (Settles.processPeerQuit h)
  · obtain rfl := Option.some.inj h
    exact Settles.refl _

theorem Settles.startPowerOffCheck (h : s.startPowerOffCheck sockfd linkUp = some s') : s.Settles s' := by
  unfold Heartbeat.startPowerOffCheck at h
  split at h
  · exact Settles.processPeerPowerOff h
  · obtain rfl := Option.some.inj h
    exact Settles.refl _

theorem Settles.processPeerEnterUnreach (h : s.processPeerEnterUnreach sockfd linkUp reason = some s')
    (hr : reason ≠ .heartbeatTimeout) : s.Settles s' := by
  unfold Heartbeat.processPeerEnterUnreach at h
  split at h
  · rename_i hlt
    split at h
    · have hloses : Loses (.reported sockfd .enterUnreach reason) := ⟨by decide, fun _ => hr⟩
      exact ((Settles.setState hlt.le).trans (Settles.write _ hloses)).trans (Settles.startPowerOffCheck h)
    · exact Settles.processPeerQuit h
  · obtain rfl := Option.some.inj h
    exact Settles.refl _

theorem Settles.processPeerDisconn (h : s.processPeerDisconn sockfd linkUp = some s') : s.Settles s' := by
  unfold Heartbeat.processPeerDisconn at h
  split at h
  · rename_i hlt
    split at h
    · have hloses : Loses (.reported sockfd .disconnect .switchDisconnect) := ⟨by decide, fun hne => by cases hne⟩
      exact ((Settles.setState hlt.le).trans (Settles.write _ hloses)).trans (Settles.startPowerOffCheck h)
    · exact Settles.processPeerQuit h
  · obtain rfl := Option.some.inj h
    exact Settles.refl _

theorem delSwitch_in_pass (hp : s.pass ≠ none) : s.delSwitch sockfd = none := by
  unfold delSwitch
  split
  · rfl
  · exact absurd ‹_› hp

theorem processPeerQuit_in_pass (hp : s.pass ≠ none) : s.processPeerQuit sockfd reason = none := by
  unfold processPeerQuit
  split
  · exact delSwitch_in_pass hp
  · exact delSwitch_in_pass hp

theorem startPowerOffCheck_in_pass (hp : s.pass ≠ none) (h : s.startPowerOffCheck sockfd linkUp = some s') :
    s' = s := by
  unfold startPowerOffCheck at h
  split at h
  · unfold processPeerPowerOff at h
    split at h
    · rw [processPeerQuit_in_pass] at h
      · cases h
      · exact hp
    · exact (Option.some.inj h).symm
  · exact (Option.some.inj h).symm

/-- A call of `heartbeat` that comes through loses a switch by its state alone. -/
theorem enterUnreach_in_pass (hp : s.pass ≠ none)
    (h : s.processPeerEnterUnreach sockfd linkUp reason = some s') :
    (SwitchState.unreachable.value ≤ (s.switch sockfd).m_state.value ∧ s' = s) ∨
      s' = (s.setState sockfd .unreachable).write (.reported sockfd .enterUnreach reason) := by
  unfold processPeerEnterUnreach at h
  split at h
  · split at h
    · exact .inr (startPowerOffCheck_in_pass hp h)
    · rw [processPeerQuit_in_pass hp] at h
      cases h
  · rename_i hle
    exact .inl ⟨not_lt.mp hle, (Option.some.inj h).symm⟩

/-- How an entry of the log fits what the log has before it: a visit does what is due, and a timeout is reported in
the visit that comes to it. -/
def Fits (conf : HeartbeatConf) (log : List HeartbeatEntry) : HeartbeatEntry → Prop
  | .visited a act => act ∈ conf.due (silence a log) ∧
      (act = .timeout ↔ silence a log = some (conf.m_heartbeatTimes, 2 ^ (conf.m_heartbeatTimes + 1) - 3))
  | .reported a .enterUnreach .heartbeatTimeout => ∃ es, log = .visited a .timeout :: es
  | _ => True

theorem Loses.fits (h : Loses e) : Fits conf log e := by
  cases e with
  | reported b event reason =>
    cases event with
    | enterUnreach =>
      cases reason with
      | heartbeatTimeout => exact absurd rfl (h.2 rfl)
      | _ => trivial
    | _ => trivial
  | _ => exact h.elim

structure Inv (conf : HeartbeatConf) (s : Heartbeat) : Prop where
  nodup : s.sockfds.Nodup
  pass : ∀ rest count, s.pass = some (rest, count) → rest ⊆ s.sockfds
  counts : ∀ a ∈ s.sockfds, conf.Counts (s.switch a).m_heartbeatTimes (s.switch a).m_heartbeatInterim
  counted : ∀ a ∈ s.sockfds,
    silence a s.log = conf.counted (s.switch a).m_heartbeatTimes (s.switch a).m_heartbeatInterim
  lost : ∀ a ∈ s.sockfds, suspected a s.log → SwitchState.unreachable.value ≤ (s.switch a).m_state.value
  log : ∀ e es, e :: es <:+ s.log → Fits conf es e

theorem fits_append (hes : ∀ e ∈ es, Loses e) (hlog : ∀ e l, e :: l <:+ log → Fits conf l e) :
    ∀ e l, e :: l <:+ es ++ log → Fits conf l e := by
  induction es with
  | nil => exact hlog
  | cons d es ih =>
    obtain ⟨hd, hes⟩ := List.forall_mem_cons.mp hes
    intro e l h
    rcases List.suffix_cons_iff.mp h with heq | hsuffix
    · obtain ⟨rfl, rfl⟩ := List.cons.inj heq
      exact hd.fits
    · exact ih hes e l hsuffix

theorem Inv.settles (h : s.Inv conf) (hs : s.Settles s') : s'.Inv conf := by
  obtain ⟨es, hes, hloses⟩ := hs.log
  have hsub : ∀ a ∈ s'.sockfds, a ∈ s.sockfds := fun a ha => hs.sockfds.subset ha
  refine ⟨h.nodup.sublist hs.sockfds, ?_, ?_, ?_, ?_, ?_⟩
  · intro rest count hp
    rw [hs.pass] at hp
    rw [hs.keeps (by simp [hp])]
    exact h.pass rest count hp
  · intro a ha
    rw [hs.times, hs.interim]
    exact h.counts a (hsub a ha)
  · intro a ha
    rw [hs.times, hs.interim, hes, silence_loses hloses]
    exact h.counted a (hsub a ha)
  · intro a ha hl
    rw [hes, suspected_loses hloses] at hl
    exact (h.lost a (hsub a ha) hl).trans (hs.rises a)
  · rw [hes]
    exact fits_append hloses h.log

/-- An entry about the switch of one socket, together with what becomes of that switch. -/
theorem Inv.concern {sockfds : List INT4} {pass : Option (List INT4 × ℕ)} {sw : WatchedSwitch} (h : s.Inv conf)
    (n : ℕ) (hnodup : sockfds.Nodup) (hsub : ∀ b ∈ sockfds, b ≠ a → b ∈ s.sockfds)
    (hpass : ∀ rest count, pass = some (rest, count) → rest ⊆ sockfds) (he : e.sockfd? = some a)
    (hfit : Fits conf s.log e) (hcounts : conf.Counts sw.m_heartbeatTimes sw.m_heartbeatInterim)
    (hcounted : silence a (e :: s.log) = conf.counted sw.m_heartbeatTimes sw.m_heartbeatInterim)
    (hlost : suspected a (e :: s.log) → SwitchState.unreachable.value ≤ sw.m_state.value) :
    (({ s with sockfds := sockfds, step := n, pass := pass }.assign a sw).write e).Inv conf := by
  have hne : ∀ b, b ≠ a → e.sockfd? ≠ some b := by
    intro b hb heq
    exact hb (Option.some.inj (heq.symm.trans he))
  refine ⟨hnodup, hpass, ?_, ?_, ?_, ?_⟩
  · intro b hb
    by_cases hba : b = a
    · subst hba
      simpa [write, assign] using hcounts
    · simpa [write, assign, hba] using h.counts b (hsub b hb hba)
  · intro b hb
    by_cases hba : b = a
    · subst hba
      simpa [write, assign] using hcounted
    · simpa [write, assign, hba, silence_of_ne (hne b hba)] using h.counted b (hsub b hb hba)
  · intro b hb hl
    by_cases hba : b = a
    · subst hba
      simpa [write, assign] using hlost (by simpa [write, assign] using hl)
    · have hold : suspected b s.log := by
        simpa [write, assign, suspected_of_ne (hne b hba)] using hl
      simpa [write, assign, hba] using h.lost b (hsub b hb hba) hold
  · intro d l hd
    obtain heq | hsuffix := List.suffix_cons_iff.mp hd
    · obtain ⟨rfl, rfl⟩ := List.cons.inj heq
      exact hfit
    · exact h.log d l hsuffix

theorem Inv.concern_here {sw : WatchedSwitch} (h : s.Inv conf) (he : e.sockfd? = some a)
    (hfit : Fits conf s.log e) (hcounts : conf.Counts sw.m_heartbeatTimes sw.m_heartbeatInterim)
    (hcounted : silence a (e :: s.log) = conf.counted sw.m_heartbeatTimes sw.m_heartbeatInterim)
    (hlost : suspected a (e :: s.log) → SwitchState.unreachable.value ≤ sw.m_state.value) :
    ((s.assign a sw).write e).Inv conf :=
  h.concern s.step h.nodup (fun _ hb _ => hb) h.pass he hfit hcounts hcounted hlost

/-- A switch of which something is heard. -/
theorem Inv.heard {state : SwitchState} (h : s.Inv conf) (ha : a ∈ s.sockfds) (he : e.sockfd? = some a)
    (hfit : Fits conf s.log e) (hs : silence a (e :: s.log) = silence a s.log) (hl : suspected a (e :: s.log) = false)
    (sw : WatchedSwitch) (hsw : sw = { s.switch a with m_state := state, m_version := sw.m_version }) :
    ((s.assign a sw).write e).Inv conf := by
  apply h.concern_here he hfit
  · rw [hsw]
    exact h.counts a ha
  · rw [hsw, hs]
    exact h.counted a ha
  · intro hsus
    rw [hl] at hsus
    cases hsus

theorem begin_cases (h : s.begin = some s') : s.pass = none ∧
    s' = { s with
      step := if s.sockfds.length ≤ s.step * HEARTBEAT_NUMBER_ONE_TIME then 0 else s.step
      pass := some (s.sockfds, 0) }.write .begun := by
  unfold Heartbeat.begin at h
  split at h
  · cases h
  · exact ⟨‹_›, (Option.some.inj h).symm⟩

theorem finish_cases (h : s.finish = some s') : ∃ count, s.pass = some ([], count) ∧
    s' = { s with step := s.step + 1, pass := none }.write .ended := by
  unfold Heartbeat.finish at h
  split at h
  · exact ⟨_, ‹_›, (Option.some.inj h).symm⟩
  · cases h

/-- Either end of a call of `heartbeat`. -/
theorem Inv.edge {n : ℕ} {pass : Option (List INT4 × ℕ)} (h : s.Inv conf)
    (hpass : ∀ rest count, pass = some (rest, count) → rest ⊆ s.sockfds) (he : e.sockfd? = none) :
    ({ s with step := n, pass := pass }.write e).Inv conf where
  nodup := h.nodup
  pass := hpass
  counts := h.counts
  counted := fun a ha => (silence_of_ne (by simp [he])).trans (h.counted a ha)
  lost := fun a ha hl => h.lost a ha (by rwa [write, suspected_of_ne (by simp [he])] at hl)
  log := by
    intro d l hd
    obtain heq | hsuffix := List.suffix_cons_iff.mp hd
    · obtain ⟨rfl, rfl⟩ := List.cons.inj heq
      cases d with
      | begun => trivial
      | ended => trivial
      | _ => cases he
    · exact h.log d l hsuffix

theorem Inv.begin (h : s.Inv conf) (hs : s.begin = some s') : s'.Inv conf := by
  obtain ⟨-, rfl⟩ := begin_cases hs
  refine h.edge ?_ rfl
  intro rest count hp
  obtain ⟨rfl, rfl⟩ := Prod.mk.inj (Option.some.inj hp)
  exact List.Subset.refl _

theorem Inv.finish (h : s.Inv conf) (hs : s.finish = some s') : s'.Inv conf := by
  obtain ⟨count, -, rfl⟩ := finish_cases hs
  exact h.edge (fun _ _ hp => by cases hp) rfl

theorem Inv.accept {sw : WatchedSwitch} {sockfds : List INT4} (h : s.Inv conf)
    (hs : s.accept sockfd sw sockfds = some s') : s'.Inv conf := by
  unfold Heartbeat.accept at hs
  split at hs
  · cases hs
  · rename_i hp
    split at hs
    · rename_i hperm
      obtain rfl := Option.some.inj hs
      have hp' : sockfds.Perm (sockfd :: s.sockfds.erase sockfd) := List.isPerm_iff.mp hperm
      have hcons : (sockfd :: s.sockfds.erase sockfd).Nodup :=
        List.nodup_cons.mpr ⟨h.nodup.not_mem_erase, h.nodup.erase sockfd⟩
      refine h.concern s.step (hp'.nodup_iff.mpr hcons) ?_ ?_ rfl trivial ?_ ?_ ?_
      · intro b hb hne
        exact List.mem_of_mem_erase ((List.mem_cons.mp (hp'.subset hb)).resolve_left hne)
      · intro rest count hsome
        rw [hp] at hsome
        cases hsome
      · exact fun hpos => absurd hpos (lt_irrefl 0)
      · simp [silence, HeartbeatConf.counted_zero]
      · simp [suspected]
    · cases hs

theorem visit_cases {sent : Bool} (h : s.visit linkUp conf sent = some s') :
    ∃ sockfd rest count, s.pass = some (sockfd :: rest, count) ∧
      (((s.switch sockfd).supervised = false ∧ s' = { s with pass := some (rest, count) }) ∨
        ((s.switch sockfd).supervised = true ∧
          ((s' = s.visited sockfd conf sent rest count ∧
              ((s.beat sockfd conf sent count).1 = .fail ∨ (s.beat sockfd conf sent count).1 = .timeout →
                SwitchState.unreachable.value ≤ (s.switch sockfd).m_state.value)) ∨
            ∃ reason, (reason = .heartbeatTimeout → (s.beat sockfd conf sent count).1 = .timeout) ∧
              s' = ((s.visited sockfd conf sent rest count).setState sockfd .unreachable).write
                (.reported sockfd .enterUnreach reason)))) := by
  unfold visit at h
  split at h
  · rename_i sockfd rest count hp
    refine ⟨sockfd, rest, count, hp, ?_⟩
    have hpass : (s.visited sockfd conf sent rest count).pass ≠ none := Option.some_ne_none _
    have hstate : ((s.visited sockfd conf sent rest count).switch sockfd).m_state = (s.switch sockfd).m_state := by
      simp [visited, write, setHeartbeat, assign]
    split at h
    · rename_i hsup
      exact .inl ⟨by simpa using hsup, (Option.some.inj h).symm⟩
    · rename_i hsup
      refine .inr ⟨by simpa using hsup, ?_⟩
      split at h
      · obtain ⟨hle, heq⟩ | heq := enterUnreach_in_pass hpass h
        · exact .inl ⟨heq, fun _ => hstate ▸ hle⟩
        · exact .inr ⟨_, fun hr => (by cases hr), heq⟩
      · rename_i hact
        obtain ⟨hle, heq⟩ | heq := enterUnreach_in_pass hpass h
        · exact .inl ⟨heq, fun _ => hstate ▸ hle⟩
        · exact .inr ⟨_, fun _ => hact, heq⟩
      · rename_i hfail htimeout
        refine .inl ⟨(Option.some.inj h).symm, fun hact => ?_⟩
        exact (hact.elim hfail htimeout).elim
  · cases h

theorem Inv.passed {rest : List INT4} {count : ℕ} (h : s.Inv conf) (hrest : rest ⊆ s.sockfds) :
    { s with pass := some (rest, count) }.Inv conf where
  nodup := h.nodup
  pass := by
    intro rest' count' hp
    obtain ⟨rfl, rfl⟩ := Prod.mk.inj (Option.some.inj hp)
    exact hrest
  counts := h.counts
  counted := h.counted
  lost := h.lost
  log := h.log

theorem Inv.report (h : s.Inv conf) (hfit : Fits conf s.log (.reported a .enterUnreach reason)) :
    (s.write (.reported a .enterUnreach reason)).Inv conf where
  nodup := h.nodup
  pass := h.pass
  counts := h.counts
  counted := h.counted
  lost := fun b hb hl => h.lost b hb (by simpa [write, suspected] using hl)
  log := by
    intro d l hd
    obtain heq | hsuffix := List.suffix_cons_iff.mp hd
    · obtain ⟨rfl, rfl⟩ := List.cons.inj heq
      exact hfit
    · exact h.log d l hsuffix

/-- A visit, when the switch that it gives up is in the state `state` after it. -/
theorem Inv.visited (h : s.Inv conf) (hT : 0 < conf.m_heartbeatTimes) {sent : Bool} {rest : List INT4} {count : ℕ}
    {state : SwitchState} (hp : s.pass = some (sockfd :: rest, count))
    (hstate : (s.beat sockfd conf sent count).1 = .fail ∨ (s.beat sockfd conf sent count).1 = .timeout ∨
      SwitchState.unreachable.value ≤ (s.switch sockfd).m_state.value →
        SwitchState.unreachable.value ≤ state.value) :
    ((s.visited sockfd conf sent rest count).setState sockfd state).Inv conf := by
  have hsub := h.pass _ _ hp
  have ha : sockfd ∈ s.sockfds := hsub List.mem_cons_self
  have hbeats : conf.Beats (s.switch sockfd).m_heartbeatTimes (s.switch sockfd).m_heartbeatInterim
      (s.beat sockfd conf sent count) := HeartbeatConf.beats hT (h.counts sockfd ha)
  have hold := h.counted sockfd ha
  have heq : (s.visited sockfd conf sent rest count).setState sockfd state =
      ({ s with
          pass := some (rest, if (s.switch sockfd).m_heartbeatTimes = 0 then count + 1 else count) }.assign sockfd
        { s.switch sockfd with
          m_state := state
          m_heartbeatTimes := (s.beat sockfd conf sent count).2.1
          m_heartbeatInterim := (s.beat sockfd conf sent count).2.2 }).write
        (.visited sockfd (s.beat sockfd conf sent count).1) := by
    simp [Heartbeat.visited, setState, setHeartbeat, write, assign]
  rw [heq]
  refine h.concern s.step h.nodup (fun _ hb _ => hb) ?_ rfl ?_ hbeats.counts ?_ ?_
  · intro rest' count' hsome
    obtain ⟨rfl, rfl⟩ := Prod.mk.inj (Option.some.inj hsome)
    exact fun b hb => hsub (List.mem_cons_of_mem _ hb)
  · refine ⟨?_, ?_⟩
    · rw [hold]
      exact hbeats.due
    · rw [hold]
      exact hbeats.timeout
  · rw [silence_visited, hold]
    exact hbeats.counted.symm
  · intro hsus
    simp only [suspected_visited, Bool.or_eq_true, decide_eq_true_eq] at hsus
    apply hstate
    obtain (hfail | htimeout) | hsus := hsus
    · exact .inl hfail
    · exact .inr (.inl htimeout)
    · exact .inr (.inr (h.lost sockfd ha hsus))

theorem setState_self : s.setState a (s.switch a).m_state = s := by
  simp [setState, assign]

theorem Inv.visit (h : s.Inv conf) (hT : 0 < conf.m_heartbeatTimes) {sent : Bool}
    (hs : s.visit linkUp conf sent = some s') : s'.Inv conf := by
  obtain ⟨fd, rest, count, hp, ⟨-, rfl⟩ | ⟨-, ⟨rfl, hle⟩ | ⟨reason, hreason, rfl⟩⟩⟩ := visit_cases hs
  · exact h.passed fun b hb => h.pass _ _ hp (List.mem_cons_of_mem _ hb)
  · have hstate : ((s.visited fd conf sent rest count).switch fd).m_state = (s.switch fd).m_state := by
      simp [Heartbeat.visited, write, setHeartbeat, assign]
    rw [← setState_self (s := s.visited fd conf sent rest count) (a := fd), hstate]
    refine h.visited hT hp ?_
    rintro (hfail | htimeout | hold)
    · exact hle (.inl hfail)
    · exact hle (.inr htimeout)
    · exact hold
  · refine (h.visited hT hp fun _ => le_rfl).report ?_
    cases reason with
    | heartbeatTimeout =>
      refine ⟨s.log, ?_⟩
      rw [← hreason rfl]
      rfl
    | _ => trivial

theorem Inv.exitUnreach (h : s.Inv conf) (ha : a ∈ s.sockfds) : (s.processPeerExitUnreach a).Inv conf := by
  unfold processPeerExitUnreach
  split
  · exact h.heard (e := .reported a .exitUnreach .connectRecover) ha rfl trivial rfl (by simp [suspected]) _ rfl
  · exact h

theorem mem_processPeerExitUnreach : (s.processPeerExitUnreach sockfd).sockfds = s.sockfds := by
  unfold processPeerExitUnreach
  split <;> rfl

theorem Inv.handle {isRequest data sent : Bool} (h : s.Inv conf) (ha : sockfd ∈ s.sockfds)
    (hs : s.handle sockfd linkUp isRequest data sent = some s') : s'.Inv conf := by
  have hexit := h.exitUnreach ha
  have hmem : sockfd ∈ (s.processPeerExitUnreach sockfd).sockfds := by rwa [mem_processPeerExitUnreach]
  unfold Heartbeat.handle at hs
  revert hs hexit hmem
  generalize s.processPeerExitUnreach sockfd = t
  intro hs hexit hmem
  cases data with
  | false => exact Option.some.inj hs ▸ hexit
  | true =>
    cases isRequest with
    | true =>
      have hask : (t.write (.echoRequested sockfd)).Inv conf := by
        have hsame := hexit.heard (e := .echoRequested sockfd) hmem rfl trivial rfl (by simp [suspected])
          (t.switch sockfd) rfl
        rwa [assign, Function.update_eq_self] at hsame
      cases sent with
      | true => exact Option.some.inj hs ▸ hask
      | false => exact hask.settles (Settles.processPeerEnterUnreach hs (by decide))
    | false =>
      obtain rfl := Option.some.inj hs
      refine hexit.concern_here rfl trivial ?_ ?_ ?_
      · exact fun hpos => absurd hpos (lt_irrefl 0)
      · simp [silence, HeartbeatConf.counted_zero]
      · simp [suspected]

theorem Inv.portStatus {ports : List WatchedPort} (h : s.Inv conf) :
    (s.assign sockfd { s.switch sockfd with m_ports := ports }).Inv conf := by
  have hsame : ∀ a, (Function.update s.switch sockfd { s.switch sockfd with m_ports := ports } a).m_state =
      (s.switch a).m_state ∧
      (Function.update s.switch sockfd { s.switch sockfd with m_ports := ports } a).m_heartbeatTimes =
        (s.switch a).m_heartbeatTimes ∧
      (Function.update s.switch sockfd { s.switch sockfd with m_ports := ports } a).m_heartbeatInterim =
        (s.switch a).m_heartbeatInterim := by
    intro a
    by_cases ha : a = sockfd
    · subst ha
      simp
    · simp [ha]
  refine ⟨h.nodup, h.pass, ?_, ?_, ?_, h.log⟩
  · intro a ha
    simpa only [assign, (hsame a).2.1, (hsame a).2.2] using h.counts a ha
  · intro a ha
    simpa only [assign, (hsame a).2.1, (hsame a).2.2] using h.counted a ha
  · intro a ha
    simpa only [assign, (hsame a).1] using h.lost a ha

theorem Inv.withSwitch {f : Option Heartbeat} (h : s.Inv conf) (hs : s.withSwitch sockfd f = some s')
    (hf : sockfd ∈ s.sockfds → f = some s' → s'.Inv conf) : s'.Inv conf := by
  unfold Heartbeat.withSwitch at hs
  split at hs
  · exact hf ‹_› hs
  · exact Option.some.inj hs ▸ h

theorem Inv.next (hT : 0 < conf.m_heartbeatTimes) {event : HeartbeatEvent} (h : s.Inv conf)
    (hs : s.next conf event = some s') : s'.Inv conf := by
  cases event with
  | begin => exact h.begin hs
  | visit sent linkUp => exact h.visit hT hs
  | finish => exact h.finish hs
  | accept fd sw sockfds => exact h.accept hs
  | hello fd =>
    refine h.withSwitch hs fun ha hf => ?_
    obtain rfl := Option.some.inj hf
    exact h.heard (e := .handshake fd) ha rfl trivial rfl (by simp [suspected]) _ rfl
  | barrier fd =>
    refine h.withSwitch hs fun ha hf => ?_
    obtain rfl := Option.some.inj hf
    exact h.heard (e := .handshake fd) ha rfl trivial rfl (by simp [suspected]) _ rfl
  | echo fd isRequest data sent linkUp => exact h.withSwitch hs fun ha hf => h.handle ha hf
  | portStatus fd ports => exact h.withSwitch hs fun ha hf => Option.some.inj hf ▸ h.portStatus
  | sendFailed fd linkUp =>
    exact h.withSwitch hs fun ha hf => h.settles (Settles.processPeerEnterUnreach hf (by decide))
  | disconnect fd linkUp => exact h.withSwitch hs fun ha hf => h.settles (Settles.processPeerDisconn hf)
  | powerOff fd => exact h.withSwitch hs fun ha hf => h.settles (Settles.processPeerPowerOff hf)
  | quit fd reason => exact h.withSwitch hs fun ha hf => h.settles (Settles.processPeerQuit hf)
  | delete fd => exact h.settles (Settles.delSwitch hs)

theorem Inv.start (switch : INT4 → WatchedSwitch) : (start switch).Inv conf where
  nodup := List.nodup_nil
  pass := fun _ _ hp => by cases hp
  counts := fun _ ha => by cases ha
  counted := fun _ ha => by cases ha
  lost := fun _ ha => by cases ha
  log := fun e es h => by cases List.suffix_nil.mp h

theorem inv_of_reaches (hT : 0 < conf.m_heartbeatTimes) {switch : INT4 → WatchedSwitch}
    (h : Reaches (next conf) (start switch) s) : s.Inv conf :=
  h.invariant (fun _ _ _ ht _ he => ht.next hT he) (Inv.start switch)

def shippedConf : HeartbeatConf := ⟨10, 3, by decide, by decide⟩

def watchedSwitch : WatchedSwitch := ⟨.newAccept, 0, 0x0a, 1, [⟨1, .host, true⟩], 0, 0⟩

def tick : List HeartbeatEvent := [.begin, .visit true fun _ _ => true, .finish]

/-- A switch that answers nothing after its handshake, for 15 calls of `heartbeat`. -/
def silentRun : List HeartbeatEvent :=
  .accept 5 watchedSwitch [5] :: .hello 5 :: (List.replicate 15 tick).flatten

end Heartbeat

end DCFabric
