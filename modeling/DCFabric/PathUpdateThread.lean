import DCFabric.SwitchPaths
import DCFabric.TransitionRuns

namespace DCFabric

open TransitionRuns

-- Where the thread is in the loop of `update`: the next access to shared state that it makes.
inductive UpdatePoint where
  | wait | checkList | compareInner | takeSize | compareOuter | checkUpdateflag | popLinkEventList | updateMaster
  | checkPathChanged | updateSlave | updatePathChanged
deriving DecidableEq

-- A link change of another thread that is under way; `unseen` says that no `updatePath` followed its last write.
structure LinkChange where
  pushesEvent : Bool
  signalled : Bool
  unseen : Bool
deriving DecidableEq

structure PathUpdate where
  m_neighbors : NeighborTable
  m_pathLists : List SwPathList
  m_pathChanged : Bool
  m_linkEventList : ℕ
  m_linkSem : ℕ
  point : UpdatePoint
  last_change_link_num : UINT4
  updateflag : Bool
  changes : List LinkChange

inductive PathUpdateAction where
  | thread
  | begin (pushesEvent : Bool)
  | write (k : ℕ) (tbl : NeighborTable)
  | signal (k : ℕ)
  | post (k : ℕ)

namespace PathUpdate

def start (tbl : NeighborTable) (mgr : CSwitchMgr) : PathUpdate :=
  { m_neighbors := tbl, m_pathLists := CTopoMgr.updatePath tbl mgr, m_pathChanged := false, m_linkEventList := 0
    m_linkSem := 0, point := .wait, last_change_link_num := 0, updateflag := false, changes := [] }

def updatePath (mgr : CSwitchMgr) (s : PathUpdate) : PathUpdate :=
  { s with
    m_pathLists := CTopoMgr.updatePath s.m_neighbors mgr
    changes := s.changes.map (fun change => { change with unseen := false }) }

def threadStep (mgr : CSwitchMgr) (s : PathUpdate) : Option PathUpdate :=
  match s.point with
  | .wait => if 0 < s.m_linkSem then some { s with m_linkSem := s.m_linkSem - 1, point := .checkList } else none
  | .checkList => some { s with point := if 0 < s.m_linkEventList then .compareInner else .checkPathChanged }
  | .compareInner =>
    some { s with point := if s.last_change_link_num.toNat < s.m_linkEventList then .takeSize else .compareOuter }
  | .takeSize =>
    some { s with
      last_change_link_num := UInt32.ofNat s.m_linkEventList, updateflag := true, point := .compareInner }
  | .compareOuter =>
    some { s with
      point := if s.last_change_link_num.toNat = s.m_linkEventList then .checkUpdateflag else .compareInner }
  | .checkUpdateflag => some { s with point := if s.updateflag then .popLinkEventList else .checkPathChanged }
  | .popLinkEventList => some { s with m_linkEventList := 0, point := .updateMaster }
  | .updateMaster =>
    some { s.updatePath mgr with updateflag := false, last_change_link_num := 0, point := .checkPathChanged }
  | .checkPathChanged => some { s with point := if s.m_pathChanged then .updateSlave else .wait }
  | .updateSlave => some { s.updatePath mgr with point := .updatePathChanged }
  | .updatePathChanged => some { s with m_pathChanged := false, point := .wait }

def step (mgr : CSwitchMgr) (s : PathUpdate) : PathUpdateAction → Option PathUpdate
  | .thread => s.threadStep mgr
  | .begin pushesEvent =>
    some { s with changes := s.changes ++ [{ pushesEvent, signalled := false, unseen := false }] }
  | .write k tbl =>
    match s.changes[k]? with
    | none => none
    | some change =>
      if change.signalled then none
      else some { s with m_neighbors := tbl, changes := s.changes.set k { change with unseen := true } }
  | .signal k =>
    match s.changes[k]? with
    | none => none
    | some change =>
      if change.signalled then none
      else if change.pushesEvent then
        some { s with
          m_linkEventList := s.m_linkEventList + 1, changes := s.changes.set k { change with signalled := true } }
      else
        some { s with m_pathChanged := true, changes := s.changes.set k { change with signalled := true } }
  | .post k =>
    match s.changes[k]? with
    | none => none
    | some change =>
      if change.signalled then some { s with m_linkSem := s.m_linkSem + 1, changes := s.changes.eraseIdx k }
      else none

structure Quiet (s : PathUpdate) : Prop where
  waiting : s.point = .wait
  asleep : s.m_linkSem = 0
  unchanged : s.m_pathChanged = false
  empty : s.m_linkEventList = 0
  settled : s.changes = []

-- `m_pathChanged` is not set for an unseen change while the thread is about to clear it.
def KeepsChange (s : PathUpdate) : PathUpdateAction → Prop
  | .signal k => s.point = .updatePathChanged → ∀ change ∈ s.changes[k]?, change.unseen → change.pushesEvent
  | _ => True

/-- What makes the thread compute the paths again. -/
def Due (s : PathUpdate) : Prop :=
  (∃ change ∈ s.changes, change.unseen = true ∧ change.signalled = false) ∨ 0 < s.m_linkEventList ∨
    s.point = .updateMaster ∨ s.point = .updateSlave ∨ s.m_pathChanged = true ∧ s.point ≠ .updatePathChanged

def Current (mgr : CSwitchMgr) (s : PathUpdate) : Prop := s.m_pathLists = CTopoMgr.updatePath s.m_neighbors mgr

variable {mgr : CSwitchMgr} {s s' : PathUpdate} {a : PathUpdateAction}

theorem due_of_eq (h : Current mgr s ∨ s.Due) (hpoint : s.point ≠ .updateMaster ∧ s.point ≠ .updateSlave)
    (hnext : s'.point ≠ .updatePathChanged) (htable : s'.m_neighbors = s.m_neighbors)
    (hpaths : s'.m_pathLists = s.m_pathLists) (hchanges : s'.changes = s.changes)
    (hflag : s'.m_pathChanged = s.m_pathChanged) (hlist : s'.m_linkEventList = s.m_linkEventList) :
    Current mgr s' ∨ s'.Due := by
  rw [Current, Due, htable, hpaths, hchanges, hflag, hlist]
  rcases h with h | h | h | h | h | h
  · exact Or.inl h
  · exact Or.inr (Or.inl h)
  · exact Or.inr (Or.inr (Or.inl h))
  · exact absurd h hpoint.1
  · exact absurd h hpoint.2
  · exact Or.inr (Or.inr (Or.inr (Or.inr (Or.inr ⟨h.1, hnext⟩))))

theorem threadStep_due (h : Current mgr s ∨ s.Due) (hs : s.threadStep mgr = some s') : Current mgr s' ∨ s'.Due := by
  rw [threadStep] at hs
  cases hp : s.point <;> simp only [hp] at hs
  case wait =>
    split at hs <;> cases hs
    apply due_of_eq h <;> simp [hp]
  case checkList =>
    cases hs
    apply due_of_eq h <;> grind
  case compareInner =>
    cases hs
    apply due_of_eq h <;> grind
  case takeSize =>
    cases hs
    apply due_of_eq h <;> simp [hp]
  case compareOuter =>
    cases hs
    apply due_of_eq h <;> grind
  case checkUpdateflag =>
    cases hs
    apply due_of_eq h <;> grind
  case popLinkEventList =>
    cases hs
    exact Or.inr (Or.inr (Or.inr (Or.inl rfl)))
  case updateMaster =>
    cases hs
    exact Or.inl rfl
  case checkPathChanged =>
    cases hs
    by_cases hc : s.m_pathChanged = true
    · exact Or.inr (Or.inr (Or.inr (Or.inr (Or.inl (if_pos hc)))))
    · apply due_of_eq h <;> simp [hp, hc]
  case updateSlave =>
    cases hs
    exact Or.inl rfl
  case updatePathChanged =>
    cases hs
    simpa [Current, Due, hp] using h

theorem due_of_kept (h : Current mgr s ∨ s.Due) (htable : s'.m_neighbors = s.m_neighbors)
    (hpaths : s'.m_pathLists = s.m_pathLists) (hpoint : s'.point = s.point)
    (hflag : s.m_pathChanged = true → s'.m_pathChanged = true) (hlist : s.m_linkEventList ≤ s'.m_linkEventList)
    (hchanges : ∀ other ∈ s.changes, other.unseen = true → other.signalled = false →
      other ∈ s'.changes ∨ s'.Due) : Current mgr s' ∨ s'.Due := by
  rcases h with h | ⟨other, hmem, hunseen, hsignal⟩ | h | h | h | h
  · left
    rw [Current, htable, hpaths]
    exact h
  · rcases hchanges other hmem hunseen hsignal with hmem' | hdue
    · exact Or.inr (Or.inl ⟨other, hmem', hunseen, hsignal⟩)
    · exact Or.inr hdue
  · exact Or.inr (Or.inr (Or.inl (lt_of_lt_of_le h hlist)))
  · exact Or.inr (Or.inr (Or.inr (Or.inl (hpoint.trans h))))
  · exact Or.inr (Or.inr (Or.inr (Or.inr (Or.inl (hpoint.trans h)))))
  · exact Or.inr (Or.inr (Or.inr (Or.inr (Or.inr ⟨hflag h.1, hpoint ▸ h.2⟩))))

theorem mem_of_ne {k : ℕ} {change other : LinkChange} (hk : s.changes[k]? = some change) (hmem : other ∈ s.changes)
    (hne : other ≠ change) {l : List LinkChange} (hl : ∀ n, n ≠ k → l[n]? = s.changes[n]?) : other ∈ l := by
  obtain ⟨n, hn⟩ := List.mem_iff_getElem?.1 hmem
  have hnk : n ≠ k := by
    rintro rfl
    exact hne (Option.some.inj (hn.symm.trans hk))
  exact List.mem_iff_getElem?.2 ⟨n, (hl n hnk).trans hn⟩

theorem step_due (hkeep : s.KeepsChange a) (h : Current mgr s ∨ s.Due) (hs : s.step mgr a = some s') :
    Current mgr s' ∨ s'.Due := by
  cases a with
  | thread => exact threadStep_due h hs
  | begin pushesEvent =>
    cases hs
    apply due_of_kept h <;> simp_all
  | write k tbl =>
    rw [step] at hs
    cases hk : s.changes[k]? with
    | none => simp [hk] at hs
    | some change =>
      simp only [hk] at hs
      split at hs
      · cases hs
      · next hsignal =>
        cases hs
        obtain ⟨hlt, -⟩ := List.getElem?_eq_some_iff.1 hk
        refine Or.inr (Or.inl ⟨{ change with unseen := true }, List.mem_set hlt _, rfl, ?_⟩)
        simpa using hsignal
  | signal k =>
    rw [step] at hs
    cases hk : s.changes[k]? with
    | none => simp [hk] at hs
    | some change =>
      simp only [hk] at hs
      split at hs
      · cases hs
      · split at hs
        · cases hs
          exact Or.inr (Or.inr (Or.inl (Nat.succ_pos _)))
        · next hflag =>
          cases hs
          by_cases hp : s.point = .updatePathChanged
          · have hseen : change.unseen = false := by
              by_contra hu
              exact hflag (hkeep hp change hk (by simpa using hu))
            refine due_of_kept h rfl rfl rfl (fun _ => rfl) (le_refl _) ?_
            intro other hmem hunseen _
            left
            apply mem_of_ne hk hmem
            · rintro rfl
              simp [hseen] at hunseen
            · exact fun n hn => List.getElem?_set_ne hn.symm
          · exact Or.inr (Or.inr (Or.inr (Or.inr (Or.inr ⟨rfl, hp⟩))))
  | post k =>
    rw [step] at hs
    cases hk : s.changes[k]? with
    | none => simp [hk] at hs
    | some change =>
      simp only [hk] at hs
      split at hs
      · next hsignal =>
        cases hs
        refine due_of_kept h rfl rfl rfl id (le_refl _) ?_
        intro other hmem _ hnot
        obtain ⟨n, hn⟩ := List.mem_iff_getElem?.1 hmem
        refine Or.inl (List.mem_eraseIdx_iff_getElem?.2 ⟨n, ?_, hn⟩)
        rintro rfl
        rw [hk] at hn
        obtain rfl := Option.some.inj hn
        simp [hsignal] at hnot
      · cases hs

theorem quiet_paths_current {tbl : NeighborTable} (h : Run (step mgr) KeepsChange (start tbl mgr) s) (hq : s.Quiet) :
    s.m_pathLists = CTopoMgr.updatePath s.m_neighbors mgr := by
  have hdue : Current mgr s ∨ s.Due := by
    apply h.invariant (P := fun s => Current mgr s ∨ s.Due) _ (Or.inl rfl)
    intro s a s' hs hkeep he
    exact step_due hkeep hs he
  rcases hdue with hc | ⟨change, hmem, -⟩ | hl | hp | hp | hf
  · exact hc
  · rw [hq.settled] at hmem
    cases hmem
  · rw [hq.empty] at hl
    exact absurd hl (Nat.lt_irrefl 0)
  · rw [hq.waiting] at hp
    cases hp
  · rw [hq.waiting] at hp
    cases hp
  · rw [hq.unchanged] at hf
    cases hf.1

def pairMgr : CSwitchMgr :=
  { sws := [(21, ⟨.stable, OFP13_VERSION, 1⟩), (22, ⟨.stable, OFP13_VERSION, 2⟩)]
    dpidMap := [1, 2].foldl (fun m dpid => m.insert dpid ⟨.stable, OFP13_VERSION, dpid⟩) ∅ }

def noLinks : NeighborTable := fun _ => ∅

def oneLink : NeighborTable := NeighborTable.ofLinks [⟨.established, 1, 7, 2, 8, 0⟩]

def twoLinks : NeighborTable := NeighborTable.ofLinks [⟨.established, 1, 7, 2, 8, 0⟩, ⟨.established, 2, 8, 1, 7, 0⟩]

def notifyPathChanged (tbl : NeighborTable) : List PathUpdateAction := [.begin false, .write 0 tbl, .signal 0, .post 0]

def threadSteps (n : ℕ) : List PathUpdateAction := List.replicate n .thread

-- The second link is reported after `updatePath` and before `updatePathChanged(FALSE)`.
def lostChange : List PathUpdateAction :=
  notifyPathChanged oneLink ++ threadSteps 4 ++ notifyPathChanged twoLinks ++ threadSteps 4

def keptChange : List PathUpdateAction :=
  notifyPathChanged oneLink ++ threadSteps 5 ++ notifyPathChanged twoLinks ++ threadSteps 5

structure QuietView where
  point : UpdatePoint
  linkSem : ℕ
  pathChanged : Bool
  linkEventList : ℕ
  changes : List LinkChange
  current : Bool
deriving DecidableEq

def quietView (mgr : CSwitchMgr) (s : PathUpdate) : QuietView :=
  ⟨s.point, s.m_linkSem, s.m_pathChanged, s.m_linkEventList, s.changes,
    s.m_pathLists = CTopoMgr.updatePath s.m_neighbors mgr⟩

theorem change_while_clearing_lost : ∃ s, Reaches (step pairMgr) (start noLinks pairMgr) s ∧ s.Quiet ∧
    s.m_pathLists ≠ CTopoMgr.updatePath s.m_neighbors pairMgr := by
  have hrun : (exec (step pairMgr) (start noLinks pairMgr) lostChange).map (quietView pairMgr) =
      some ⟨.wait, 0, false, 0, [], false⟩ := by
    decide +kernel
  obtain ⟨s, hs, hview⟩ := Option.map_eq_some_iff.1 hrun
  simp only [quietView, QuietView.mk.injEq, decide_eq_false_iff_not] at hview
  obtain ⟨hpoint, hsem, hflag, hlist, hchanges, hpaths⟩ := hview
  exact ⟨s, Reaches.of_exec hs, ⟨hpoint, hsem, hflag, hlist, hchanges⟩, hpaths⟩

instance (s : PathUpdate) (a : PathUpdateAction) : Decidable (s.KeepsChange a) :=
  match a with
  | .signal k => inferInstanceAs (Decidable (s.point = .updatePathChanged → ∀ change ∈ s.changes[k]?, _))
  | .thread | .begin _ | .write _ _ | .post _ => .isTrue trivial

theorem change_after_clearing_kept : ∃ s, Run (step pairMgr) KeepsChange (start noLinks pairMgr) s ∧ s.Quiet ∧
    s.m_pathLists = CTopoMgr.updatePath s.m_neighbors pairMgr := by
  have hrun : (exec (guarded (step pairMgr) KeepsChange) (start noLinks pairMgr) keptChange).map (quietView pairMgr) =
      some ⟨.wait, 0, false, 0, [], true⟩ := by
    decide +kernel
  obtain ⟨s, hs, hview⟩ := Option.map_eq_some_iff.1 hrun
  simp only [quietView, QuietView.mk.injEq] at hview
  obtain ⟨hpoint, hsem, hflag, hlist, hchanges, -⟩ := hview
  have hq : s.Quiet := ⟨hpoint, hsem, hflag, hlist, hchanges⟩
  exact ⟨s, Run.of_exec hs, hq, quiet_paths_current (Run.of_exec hs) hq⟩

end PathUpdate

end DCFabric
