import DCFabric.BreadthFirst
import DCFabric.SwitchPaths

namespace DCFabric.CTopoMgr

open BreadthFirst

variable (tbl : NeighborTable) (mgr : CSwitchMgr)

def Known (dpid : UINT8) : Prop := (mgr.getSwitchByDpid dpid).isSome

def Usable (n : Neighbor) : Prop := n.state = .established ∧ Known mgr n.dstDpid

instance (dpid : UINT8) : Decidable (Known mgr dpid) :=
  inferInstanceAs (Decidable ((mgr.getSwitchByDpid dpid).isSome = true))

instance (n : Neighbor) : Decidable (Usable mgr n) :=
  inferInstanceAs (Decidable (n.state = .established ∧ Known mgr n.dstDpid))

def neighborsOf (dpid : UINT8) : List Neighbor :=
  ((tbl.getLinks dpid).elim [] fun links => links.toList.map Prod.snd).filter (Usable mgr ·)

theorem mem_neighborsOf {dpid : UINT8} {n : Neighbor} :
    n ∈ neighborsOf tbl mgr dpid ↔ (∃ port, tbl.getLink dpid port = some n) ∧ Usable mgr n := by
  simp only [neighborsOf, List.mem_filter, decide_eq_true_eq, NeighborTable.getLink_eq_some]
  apply and_congr_left'
  cases tbl.getLinks dpid with
  | none => simp
  | some links => simp

/-- The search that `updateOneSwPath` runs, from the destination over links to known switches. -/
def pathTree : Search UINT8 Neighbor SwPath where
  out := neighborsOf tbl mgr
  target := Neighbor.dstDpid
  extend := pushNode
  key := SwPath.srcDpid
  trail := fun path => path.nodeList.map SwPathNode.swDpid
  key_extend := fun _ _ => rfl
  trail_extend := fun _ _ => by simp [pushNode, copyPath]

def toState (st : PathSearch) (pathList : List SwPath) : State UINT8 SwPath :=
  ⟨st.swUsed.keys.toFinset, st.pathStack, pathList⟩

variable {tbl mgr} {dstSw : CSwitch} {curPath : SwPath} {st : PathSearch} {pathList : List SwPath}

theorem addNeighborPath_unusable {n : Neighbor} (hu : ¬ Usable mgr n) :
    addNeighborPath mgr dstSw curPath st n = st := by
  by_cases hs : n.state = .established
  · have hk : (mgr.getSwitchByDpid n.dstDpid).isNone := by
      have hn : ¬ Known mgr n.dstDpid := fun hk => hu ⟨hs, hk⟩
      simpa [Known] using hn
    rw [addNeighborPath, if_neg (not_not.mpr hs), if_pos hk]
  · rw [addNeighborPath, if_pos hs]

theorem addNeighborPath_usable {n : Neighbor} (hu : Usable mgr n) :
    addNeighborPath mgr dstSw curPath st n =
      if st.swUsed.contains n.dstDpid then st
      else
        { swUsed := st.swUsed.insertIfNew n.dstDpid n.dstDpid
          pathStack := st.pathStack ++ [pushNode curPath n]
          tagflowList := st.tagflowList ++ [{ dstSw := dstSw, srcSw := mgr.getSwitchByDpid n.dstDpid,
                                              outport := n.dstPort }] } := by
  have hk : ¬ (mgr.getSwitchByDpid n.dstDpid).isNone := by
    have hk : Known mgr n.dstDpid := hu.2
    simpa [Known, Option.isSome_iff_ne_none] using hk
  rw [addNeighborPath, if_neg (not_not.mpr hu.1), if_neg hk]
  rfl

theorem addNeighborPath_toState {n : Neighbor} (hu : Usable mgr n) :
    toState (addNeighborPath mgr dstSw curPath st n) pathList =
      (pathTree tbl mgr).visit curPath (toState st pathList) n := by
  have hm : (pathTree tbl mgr).target n ∈ (toState st pathList).used ↔
      st.swUsed.contains n.dstDpid := by
    simp [toState, pathTree]
  rw [addNeighborPath_usable hu, Search.visit]
  by_cases hc : st.swUsed.contains n.dstDpid
  · rw [if_pos hc, if_pos (hm.mpr hc)]
  · rw [if_neg hc, if_neg (mt hm.mp hc)]
    simp only [toState, pathTree, State.mk.injEq, and_true]
    ext v
    simp [Std.TreeMap.mem_insertIfNew, eq_comm (a := v)]

theorem addNeighborsPath_toState (dpid : UINT8) :
    toState (addNeighborsPath tbl mgr dpid dstSw curPath st) pathList =
      (neighborsOf tbl mgr dpid).foldl ((pathTree tbl mgr).visit curPath) (toState st pathList) := by
  have hfold : ∀ (ns : List Neighbor) (st : PathSearch),
      toState (ns.foldl (addNeighborPath mgr dstSw curPath) st) pathList =
        (ns.filter (Usable mgr ·)).foldl ((pathTree tbl mgr).visit curPath) (toState st pathList) := by
    intro ns
    induction ns with
    | nil => intro st; rfl
    | cons n ns ih =>
      intro st
      rw [List.foldl_cons, ih]
      by_cases hu : Usable mgr n
      · rw [List.filter_cons_of_pos (by simpa using hu), List.foldl_cons, addNeighborPath_toState hu]
      · rw [List.filter_cons_of_neg (by simpa using hu), addNeighborPath_unusable hu]
  unfold addNeighborsPath neighborsOf
  cases hl : tbl.getLinks dpid with
  | none => rfl
  | some links =>
    by_cases he : links.isEmpty
    · have hnil : links.toList = [] := by
        rwa [← List.isEmpty_iff, Std.TreeMap.isEmpty_toList]
      simp [he, hnil]
    · simp only [he, Bool.false_eq_true, ↓reduceIte, Option.elim_some]
      rw [← hfold, List.foldl_map]

theorem pathLoop_toState (tbl : NeighborTable) (mgr : CSwitchMgr) (dstSw : CSwitch) (fuel : ℕ) (st : PathSearch)
    (pathList : List SwPath) :
    toState (pathLoop tbl mgr dstSw fuel st pathList).1 (pathLoop tbl mgr dstSw fuel st pathList).2 =
      (pathTree tbl mgr).expand^[fuel] (toState st pathList) := by
  induction fuel generalizing st pathList with
  | zero => rfl
  | succ fuel ih =>
    unfold pathLoop
    cases hq : st.pathStack with
    | nil => exact (Function.iterate_fixed (Search.expand_empty hq) _).symm
    | cons curPath rest =>
      rw [Function.iterate_succ_apply]
      have he : (pathTree tbl mgr).expand (toState st pathList) =
          toState (addNeighborsPath tbl mgr curPath.srcDpid dstSw curPath
            { st with pathStack := rest }) (pathList ++ [curPath]) := by
        rw [addNeighborsPath_toState]
        simp only [Search.expand, toState, hq]
        rfl
      rw [he]
      exact ih _ _

theorem searchResult_complete (tbl : NeighborTable) (mgr : CSwitchMgr) (d : UINT8) :
    ((pathTree tbl mgr).expand^[tbl.entries.length + 1] ((pathTree tbl mgr).start (selfPath d))).queue = [] ∧
      (pathTree tbl mgr).Complete (selfPath d)
        ((pathTree tbl mgr).expand^[tbl.entries.length + 1] ((pathTree tbl mgr).start (selfPath d))).done := by
  let U : Finset UINT8 := (tbl.entries.map fun entry => entry.2.2.dstDpid).toFinset
  have hU : ∀ v, ∀ e ∈ (pathTree tbl mgr).out v, (pathTree tbl mgr).target e ∈ U := by
    intro v e he
    obtain ⟨⟨port, hl⟩, -⟩ := (mem_neighborsOf tbl mgr).mp he
    exact List.mem_toFinset.mpr (List.mem_map.mpr ⟨_, NeighborTable.mem_entries_of_getLink hl, rfl⟩)
  apply Search.search_complete rfl hU (Nat.add_le_add_right _ 1)
  exact (List.toFinset_card_le _).trans (List.length_map _).le

def startSearch (d : UINT8) : PathSearch := ⟨(∅ : Std.TreeMap UINT8 UINT8).insertIfNew d d, [selfPath d], []⟩

theorem startSearch_toState {d : UINT8} : toState (startSearch d) [] = (pathTree tbl mgr).start (selfPath d) := by
  simp only [toState, startSearch, Search.start, State.mk.injEq, and_true]
  ext v
  simp [Std.TreeMap.mem_insertIfNew, pathTree, selfPath, eq_comm (a := v)]

theorem pathLoop_pathStack (tbl : NeighborTable) (mgr : CSwitchMgr) (dstSw : CSwitch) (d : UINT8) :
    (pathLoop tbl mgr dstSw (tbl.entries.length + 1) (startSearch d) []).1.pathStack = [] := by
  have hqueue := (searchResult_complete tbl mgr d).1
  rw [← startSearch_toState, ← pathLoop_toState tbl mgr dstSw] at hqueue
  exact hqueue

/-- The paths of one destination are a finished breadth-first search from it. -/
theorem updateOneSwPath_complete (tbl : NeighborTable) {d : UINT8} (hd : Known mgr d) :
    ∃ pathList tagflows, updateOneSwPath tbl mgr d = some (⟨d, pathList⟩, tagflows) ∧
      (pathTree tbl mgr).Complete (selfPath d) pathList := by
  obtain ⟨dstSw, hsw⟩ := Option.isSome_iff_exists.mp hd
  have hloop := pathLoop_toState tbl mgr dstSw (tbl.entries.length + 1) (startSearch d) []
  rw [startSearch_toState] at hloop
  refine ⟨_, _, by rw [updateOneSwPath, hsw], ?_⟩
  have hcomplete := (searchResult_complete tbl mgr d).2
  rwa [← hloop] at hcomplete

end DCFabric.CTopoMgr
