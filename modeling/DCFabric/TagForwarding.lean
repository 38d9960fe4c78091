import DCFabric.ShortestPaths

namespace DCFabric.CTopoMgr

open BreadthFirst

/-- Two switches see the same ESTABLISHED link from both of its ends. -/
def EstablishedLink (tbl : NeighborTable) (a : UINT8) (p : UINT4) (b : UINT8) (q : UINT4) : Prop :=
  ∃ n, tbl.getLink a p = some n ∧ n.state = .established ∧ n.dstDpid = b ∧ n.dstPort = q

def Paired (tbl : NeighborTable) : Prop :=
  ∀ a p b q, EstablishedLink tbl a p b q ↔ EstablishedLink tbl b q a p

def crossLink (tbl : NeighborTable) (dpid : UINT8) (port : UINT4) : Option UINT8 :=
  (tbl.getLink dpid port).bind fun n => if n.state = .established then some n.dstDpid else none

/-- Where a packet tagged for `dst` is after `n` hops. -/
def forward (tbl : NeighborTable) (pathLists : List SwPathList) (dst : UINT8) : ℕ → UINT8 → Option UINT8
  | 0, dpid => some dpid
  | n + 1, dpid =>
    (crossLink tbl dpid (getOutPortBetweenSwitch pathLists dpid dst)).bind
      (forward tbl pathLists dst n)

variable {tbl : NeighborTable} {mgr : CSwitchMgr} {d : UINT8}

theorem crossLink_eq_some {a b : UINT8} {p q : UINT4} (h : EstablishedLink tbl a p b q) :
    crossLink tbl a p = some b := by
  obtain ⟨n, hn, hs, rfl, -⟩ := h
  simp [crossLink, hn, hs]

theorem mem_updatePath {list : SwPathList} (h : list ∈ updatePath tbl mgr) :
    ∃ sw ∈ mgr.sws, sw.2.state = .stable ∧ sw.2.version = OFP13_VERSION ∧ sw.2.dpid ≠ 0 ∧
      ∃ tagflows, updateOneSwPath tbl mgr sw.2.dpid = some (list, tagflows) := by
  obtain ⟨sw, hm, he⟩ := List.mem_filterMap.mp h
  split_ifs at he with hs
  obtain ⟨⟨l, tagflows⟩, hu, rfl⟩ := Option.map_eq_some_iff.mp he
  exact ⟨sw, hm, hs.1, hs.2.1, hs.2.2, tagflows, hu⟩

theorem known_of_updateOneSwPath {r : SwPathList × List SwTagflow}
    (h : updateOneSwPath tbl mgr d = some r) : Known mgr d := by
  unfold updateOneSwPath at h
  unfold Known
  cases hsw : mgr.getSwitchByDpid d with
  | none => simp [hsw] at h
  | some sw => rfl

theorem updatePath_list {list : SwPathList} (h : list ∈ updatePath tbl mgr) :
    ∃ tagflows, updateOneSwPath tbl mgr list.dstDpid = some (list, tagflows) := by
  obtain ⟨sw, -, -, -, -, tagflows, hu⟩ := mem_updatePath h
  obtain ⟨pathList, tagflows', he, -⟩ :=
    updateOneSwPath_complete tbl (known_of_updateOneSwPath hu)
  obtain ⟨rfl, -⟩ : (⟨sw.2.dpid, pathList⟩ : SwPathList) = list ∧ tagflows' = tagflows := by
    simpa using he.symm.trans hu
  exact ⟨tagflows, hu⟩

/-- All lists kept for one destination are the same list. -/
theorem updatePath_unique {list list' : SwPathList} (h : list ∈ updatePath tbl mgr)
    (h' : list' ∈ updatePath tbl mgr) (hd : list'.dstDpid = list.dstDpid) : list' = list := by
  obtain ⟨tagflows, hu⟩ := updatePath_list h
  obtain ⟨tagflows', hu'⟩ := updatePath_list h'
  rw [hd, hu] at hu'
  simpa [eq_comm] using (Prod.mk.inj (Option.some.inj hu')).1

theorem updatePath_complete {list : SwPathList} (h : list ∈ updatePath tbl mgr) :
    Known mgr list.dstDpid ∧ (pathTree tbl mgr).Complete (selfPath list.dstDpid) list.pathList := by
  obtain ⟨tagflows, hu⟩ := updatePath_list h
  have hk := known_of_updateOneSwPath hu
  obtain ⟨pathList, tagflows', he, hc⟩ := updateOneSwPath_complete tbl hk
  have hlist := (Prod.mk.inj (Option.some.inj (he.symm.trans hu))).1
  exact ⟨hk, by rwa [← hlist]⟩

theorem getPath_mem {pathLists : List SwPathList} {s : UINT8} {path : SwPath}
    (h : getPath pathLists s d = some path) :
    ∃ list ∈ pathLists, list.dstDpid = d ∧ path ∈ list.pathList ∧ path.srcDpid = s := by
  obtain ⟨list, hl, he⟩ := List.exists_of_findSome?_eq_some h
  split_ifs at he with hd
  have hp := List.find?_some he
  simp only [decide_eq_true_eq] at hp
  exact ⟨list, hl, hd.symm, List.mem_of_find?_eq_some he, hp.2.symm⟩

/-- The path looked up is the one path of the search from the destination that has that source. -/
theorem getPath_updatePath {list : SwPathList} {path : SwPath} (hl : list ∈ updatePath tbl mgr)
    (hp : path ∈ list.pathList) :
    getPath (updatePath tbl mgr) path.srcDpid list.dstDpid = some path := by
  obtain ⟨hk, hc⟩ := updatePath_complete hl
  have hdst := (built_chain hk (hc.built path hp)).1
  have hsome : (getPath (updatePath tbl mgr) path.srcDpid list.dstDpid).isSome := by
    rw [getPath, List.findSome?_isSome_iff]
    refine ⟨list, hl, ?_⟩
    rw [if_pos rfl, List.find?_isSome]
    exact ⟨path, hp, by simp [hdst]⟩
  obtain ⟨path', hpath'⟩ := Option.isSome_iff_exists.mp hsome
  obtain ⟨list', hl', hd', hp', hs'⟩ := getPath_mem hpath'
  obtain rfl := updatePath_unique hl hl' hd'
  rw [hpath', List.inj_on_of_nodup_map hc.nodup hp' hp hs']

/-- Leaving a switch by the port of its stored path leads to the switch whose stored path is the
rest of it. -/
theorem crossLink_outPort (hpair : Paired tbl) {list : SwPathList} {path : SwPath} {n : Neighbor}
    (hl : list ∈ updatePath tbl mgr)
    (hn : n ∈ neighborsOf tbl mgr path.srcDpid) (he : pushNode path n ∈ list.pathList) :
    crossLink tbl n.dstDpid
      (getOutPortBetweenSwitch (updatePath tbl mgr) n.dstDpid list.dstDpid) = some path.srcDpid := by
  have hport : getOutPortBetweenSwitch (updatePath tbl mgr) n.dstDpid list.dstDpid = n.dstPort := by
    have hget := getPath_updatePath hl he
    rw [show (pushNode path n).srcDpid = n.dstDpid from rfl] at hget
    rw [getOutPortBetweenSwitch, hget]
    rfl
  obtain ⟨⟨port, hlink⟩, hs, -⟩ := (mem_neighborsOf tbl mgr).mp hn
  rw [hport]
  exact crossLink_eq_some ((hpair _ _ _ _).mp ⟨n, hlink, hs, rfl, rfl⟩)

theorem pushNode_length (path : SwPath) (n : Neighbor) :
    (pushNode path n).nodeList.length = path.nodeList.length + 1 := by
  simp [pushNode, copyPath]

theorem built_length_pos {path : SwPath} (hb : (pathTree tbl mgr).Built (selfPath d) path) :
    0 < path.nodeList.length := by
  obtain ⟨n, -, hlen⟩ := hb.walk rfl
  have : path.nodeList.length = n + 1 := by simpa [pathTree] using hlen
  omega

theorem forward_stored_path (hpair : Paired tbl) {list : SwPathList} (hl : list ∈ updatePath tbl mgr)
    (m : ℕ) {path : SwPath} (hp : path ∈ list.pathList) (hm : path.nodeList.length = m + 1) :
    forward tbl (updatePath tbl mgr) list.dstDpid m path.srcDpid = some list.dstDpid ∧
      ∀ k < m, ∃ v, forward tbl (updatePath tbl mgr) list.dstDpid k path.srcDpid = some v ∧
        v ≠ list.dstDpid := by
  obtain ⟨hk, hc⟩ := updatePath_complete hl
  have hlen : ∀ q ∈ list.pathList, 0 < q.nodeList.length :=
    fun q hq => built_length_pos (hc.built q hq)
  induction m generalizing path with
  | zero =>
    rcases hc.parent path hp with rfl | ⟨q, hq, n, hn, rfl⟩
    · exact ⟨rfl, by simp⟩
    · have hpos := hlen q hq
      have : (pushNode q n).nodeList.length = 1 := hm
      rw [pushNode_length] at this
      omega
  | succ m ih =>
    rcases hc.parent path hp with rfl | ⟨q, hq, n, hn, rfl⟩
    · simp [selfPath] at hm
    · change pushNode q n ∈ list.pathList at hp
      change (pushNode q n).nodeList.length = m + 1 + 1 at hm
      have hne : n.dstDpid ≠ list.dstDpid := by
        intro heq
        have hself : pushNode q n = selfPath list.dstDpid :=
          List.inj_on_of_nodup_map hc.nodup hp hc.root_mem heq
        rw [hself] at hm
        simp [selfPath] at hm
      rw [pushNode_length] at hm
      obtain ⟨hreach, hbefore⟩ := ih hq (by omega)
      have hstep : ∀ k, forward tbl (updatePath tbl mgr) list.dstDpid (k + 1) n.dstDpid =
          forward tbl (updatePath tbl mgr) list.dstDpid k q.srcDpid := by
        intro k
        rw [forward, crossLink_outPort hpair hl hn hp, Option.bind_some]
      refine ⟨(hstep m).trans hreach, ?_⟩
      intro k hk'
      cases k with
      | zero => exact ⟨n.dstDpid, rfl, hne⟩
      | succ k =>
        obtain ⟨v, hv, hvd⟩ := hbefore k (by omega)
        exact ⟨v, (hstep k).trans hv, hvd⟩

theorem forward_reaches (tbl : NeighborTable) (mgr : CSwitchMgr) (hpair : Paired tbl)
    (s d : UINT8) (path : SwPath) (hpath : getPath (updatePath tbl mgr) s d = some path) :
    forward tbl (updatePath tbl mgr) d (path.nodeList.length - 1) s = some d ∧
      ∀ k < path.nodeList.length - 1,
        ∃ v, forward tbl (updatePath tbl mgr) d k s = some v ∧ v ≠ d := by
  obtain ⟨list, hl, rfl, hp, rfl⟩ := getPath_mem hpath
  have hpos := built_length_pos ((updatePath_complete hl).2.built path hp)
  exact forward_stored_path hpair hl _ hp (by omega)

/-- Pairing only has to be looked at on the entries of the table. -/
theorem paired_of_entries {tbl : NeighborTable}
    (h : ∀ entry ∈ tbl.entries, entry.2.2.state = .established →
      ∃ n, tbl.getLink entry.2.2.dstDpid entry.2.2.dstPort = some n ∧ n.state = .established ∧
        n.dstDpid = entry.1 ∧ n.dstPort = entry.2.1) : Paired tbl := by
  have half : ∀ a p b q, EstablishedLink tbl a p b q → EstablishedLink tbl b q a p := by
    rintro a p b q ⟨n, hn, hs, rfl, rfl⟩
    exact h (a, p, n) (NeighborTable.mem_entries_of_getLink hn) hs
  exact fun a p b q => ⟨half a p b q, half b q a p⟩

theorem lineTable_paired : Paired lineTable := by
  apply paired_of_entries
  have hall : lineTable.entries.all (fun entry => entry.2.2.state ≠ .established ||
      (lineTable.getLink entry.2.2.dstDpid entry.2.2.dstPort).any fun n =>
        n.state = .established ∧ n.dstDpid = entry.1 ∧ n.dstPort = entry.2.1) := by decide
  intro entry hm hs
  have he := List.all_eq_true.mp hall entry hm
  simpa [hs, Option.any_eq_true] using he

theorem line_forward_reaches :
    forward lineTable (updatePath lineTable lineMgr) 3 2 1 = some 3 ∧
      ∀ k < 2, ∃ v, forward lineTable (updatePath lineTable lineMgr) 3 k 1 = some v ∧ v ≠ 3 :=
  forward_reaches lineTable lineMgr lineTable_paired 1 3 ⟨1, 3, [⟨1, 7⟩, ⟨2, 9⟩, ⟨3, 0⟩]⟩ (by decide)

end DCFabric.CTopoMgr
