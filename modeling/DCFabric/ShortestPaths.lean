import DCFabric.PathTrees

namespace DCFabric.CTopoMgr

open BreadthFirst

variable (tbl : NeighborTable) (mgr : CSwitchMgr)

def EstablishedHop (a b : UINT8) : Prop :=
  ∃ port n, tbl.getLink a port = some n ∧ n.state = .established ∧ n.dstDpid = b ∧ Known mgr b

abbrev ReachableFrom : UINT8 → UINT8 → Prop := Relation.ReflTransGen (EstablishedHop tbl mgr)

/-- The link that `y`, the node farther from the source, has to `x`. -/
def Joined (x y : SwPathNode) : Prop :=
  ∃ port n, tbl.getLink y.swDpid port = some n ∧ n.state = .established ∧
    n.dstDpid = x.swDpid ∧ n.dstPort = x.portNo

structure Chain (s d : UINT8) (nodes : List SwPathNode) : Prop where
  source : nodes.head?.map SwPathNode.swDpid = some s
  target : nodes.getLast?.map SwPathNode.swDpid = some d
  joined : nodes.IsChain (Joined tbl)
  known : ∀ node ∈ nodes, Known mgr node.swDpid

variable {tbl mgr}

theorem establishedHop_iff {a b : UINT8} :
    EstablishedHop tbl mgr a b ↔ ∃ n ∈ neighborsOf tbl mgr a, n.dstDpid = b := by
  simp only [EstablishedHop, mem_neighborsOf, Usable]
  constructor
  · rintro ⟨port, n, hl, hs, rfl, hk⟩
    exact ⟨n, ⟨⟨port, hl⟩, hs, hk⟩, rfl⟩
  · rintro ⟨n, ⟨⟨port, hl⟩, hs, hk⟩, rfl⟩
    exact ⟨port, n, hl, hs, rfl, hk⟩

theorem reachableFrom_iff_walk {d s : UINT8} :
    ReachableFrom tbl mgr d s ↔ ∃ n, (pathTree tbl mgr).Walk d n s := by
  constructor
  · intro h
    induction h with
    | refl => exact ⟨0, .nil⟩
    | tail h hop ih =>
      obtain ⟨n, hw⟩ := ih
      obtain ⟨link, hm, rfl⟩ := establishedHop_iff.mp hop
      exact ⟨n + 1, hw.snoc hm⟩
  · rintro ⟨n, hw⟩
    induction hw with
    | nil => exact .refl
    | snoc hw hm ih => exact ih.tail (establishedHop_iff.mpr ⟨_, hm, rfl⟩)

theorem Chain.walk {s d : UINT8} {nodes : List SwPathNode} (h : Chain tbl mgr s d nodes) :
    ∃ n, (pathTree tbl mgr).Walk d n s ∧ nodes.length = n + 1 := by
  induction nodes generalizing s with
  | nil => simpa using h.source
  | cons x nodes ih =>
    obtain rfl : x.swDpid = s := by simpa using h.source
    cases nodes with
    | nil =>
      obtain rfl : x.swDpid = d := by simpa using h.target
      exact ⟨0, .nil, rfl⟩
    | cons y rest =>
      obtain ⟨⟨port, link, hl, hs, hx, -⟩, hj⟩ := List.isChain_cons_cons.mp h.joined
      have hrest : Chain tbl mgr y.swDpid d (y :: rest) :=
        ⟨rfl, by simpa using h.target, hj, fun node hm => h.known node (List.mem_cons_of_mem _ hm)⟩
      obtain ⟨n, hw, hlen⟩ := ih hrest
      have hk : Known mgr link.dstDpid := by rw [hx]; exact h.known x (by simp)
      refine ⟨n + 1, ?_, by simpa using hlen⟩
      rw [← hx]
      exact hw.snoc ((mem_neighborsOf tbl mgr).mpr ⟨⟨port, hl⟩, hs, hk⟩)

theorem built_chain {d : UINT8} (hd : Known mgr d) {path : SwPath}
    (h : (pathTree tbl mgr).Built (selfPath d) path) :
    path.dstDpid = d ∧ Chain tbl mgr path.srcDpid d path.nodeList := by
  induction h with
  | root =>
    refine ⟨rfl, rfl, rfl, List.isChain_singleton _, ?_⟩
    intro node hm
    obtain rfl : node = { swDpid := d, portNo := 0 } := by simpa [selfPath] using hm
    exact hd
  | @extend path link hb hm ih =>
    obtain ⟨hdst, hc⟩ := ih
    obtain ⟨⟨port, hl⟩, hs, hk⟩ := (mem_neighborsOf tbl mgr).mp hm
    have hnodes : ((pathTree tbl mgr).extend path link).nodeList =
        { swDpid := link.dstDpid, portNo := link.dstPort } :: path.nodeList := by
      simp [pathTree, pushNode, copyPath]
    refine ⟨hdst, ?_, ?_, ?_, ?_⟩ <;> rw [hnodes]
    · rfl
    · cases hp : path.nodeList with
      | nil => simpa [hp] using hc.source
      | cons y rest => simpa [hp] using hc.target
    · cases hp : path.nodeList with
      | nil => exact List.isChain_singleton _
      | cons y rest =>
        have hy : y.swDpid = path.srcDpid := by simpa [hp] using hc.source
        refine List.isChain_cons_cons.mpr ⟨⟨port, link, ?_, hs, rfl, rfl⟩, hp ▸ hc.joined⟩
        rw [hy]; exact hl
    · intro node hn
      rcases List.mem_cons.mp hn with rfl | hn
      · exact hk
      · exact hc.known node hn

theorem filter_srcDpid {paths : List SwPath} (hn : (paths.map SwPath.srcDpid).Nodup) {path : SwPath}
    (hp : path ∈ paths) : paths.filter (fun q => q.srcDpid = path.srcDpid) = [path] := by
  induction paths with
  | nil => simp at hp
  | cons q paths ih =>
    obtain ⟨hq, hn⟩ := List.nodup_cons.mp hn
    rcases List.mem_cons.mp hp with rfl | hp
    · have hnone : paths.filter (fun q => q.srcDpid = path.srcDpid) = [] := by
        apply List.filter_eq_nil_iff.mpr
        intro r hr he
        exact hq (List.mem_map.mpr ⟨r, hr, by simpa using he⟩)
      rw [List.filter_cons_of_pos (by simp), hnone]
    · have hne : q.srcDpid ≠ path.srcDpid := fun he => hq (List.mem_map.mpr ⟨path, hp, he.symm⟩)
      rw [List.filter_cons_of_neg (by simpa using hne)]
      exact ih hn hp

theorem updateOneSwPath_shortest_paths (tbl : NeighborTable) (mgr : CSwitchMgr) (d : UINT8)
    (hd : Known mgr d) :
    ∃ list tagflows, updateOneSwPath tbl mgr d = some (list, tagflows) ∧ list.dstDpid = d ∧
      (∀ s, ReachableFrom tbl mgr d s →
        ∃ path, list.pathList.filter (fun path => path.srcDpid = s) = [path]) ∧
      ∀ path ∈ list.pathList, ReachableFrom tbl mgr d path.srcDpid ∧ path.dstDpid = d ∧
        Chain tbl mgr path.srcDpid d path.nodeList ∧ (path.nodeList.map SwPathNode.swDpid).Nodup ∧
        ∀ nodes, Chain tbl mgr path.srcDpid d nodes → path.nodeList.length ≤ nodes.length := by
  obtain ⟨pathList, tagflows, he, hc⟩ := updateOneSwPath_complete tbl hd
  refine ⟨_, _, he, rfl, ?_, ?_⟩
  · intro s hs
    obtain ⟨n, hw⟩ := reachableFrom_iff_walk.mp hs
    obtain ⟨path, hp, rfl, -⟩ := hc.shortest n s hw
    exact ⟨path, filter_srcDpid hc.nodup hp⟩
  · intro path hp
    have hb := hc.built path hp
    obtain ⟨n, hw, -⟩ := hb.walk rfl
    obtain ⟨hdst, hchain⟩ := built_chain hd hb
    refine ⟨reachableFrom_iff_walk.mpr ⟨n, hw⟩, hdst, hchain, hc.simple path hp, ?_⟩
    intro nodes hn
    obtain ⟨m, hwm, hlen⟩ := hn.walk
    obtain ⟨q, hq, hk, hle⟩ := hc.shortest m _ hwm
    obtain rfl : q = path := List.inj_on_of_nodup_map hc.nodup hq hp hk
    simpa [pathTree, hlen] using hle

def lineSwitch (dpid : UINT8) : CSwitch := { state := .stable, version := OFP13_VERSION, dpid := dpid }

/-- Three switches in a row, `1 - 2 - 3`, with an unused link of switch 2 to an unknown switch. -/
def lineMgr : CSwitchMgr :=
  { sws := [(21, lineSwitch 1), (22, lineSwitch 2), (23, lineSwitch 3)]
    dpidMap := [1, 2, 3].foldl (fun m dpid => m.insert dpid (lineSwitch dpid)) ∅ }

def lineTable : NeighborTable :=
  NeighborTable.ofLinks
    [⟨.established, 1, 7, 2, 8, 0⟩, ⟨.established, 2, 8, 1, 7, 0⟩, ⟨.established, 2, 9, 3, 4, 0⟩,
      ⟨.established, 3, 4, 2, 9, 0⟩, ⟨.deleted, 2, 5, 4, 1, 0⟩]

example : (updateOneSwPath lineTable lineMgr 3).map (fun r => r.1.pathList.map SwPath.nodeList) =
    some [[⟨3, 0⟩], [⟨2, 9⟩, ⟨3, 0⟩], [⟨1, 7⟩, ⟨2, 9⟩, ⟨3, 0⟩]] := by decide

theorem line_shortest_paths :
    ∃ list tagflows, updateOneSwPath lineTable lineMgr 3 = some (list, tagflows) ∧ list.dstDpid = 3 ∧
      (∀ s, ReachableFrom lineTable lineMgr 3 s →
        ∃ path, list.pathList.filter (fun path => path.srcDpid = s) = [path]) ∧
      ∀ path ∈ list.pathList, ReachableFrom lineTable lineMgr 3 path.srcDpid ∧ path.dstDpid = 3 ∧
        Chain lineTable lineMgr path.srcDpid 3 path.nodeList ∧
        (path.nodeList.map SwPathNode.swDpid).Nodup ∧
        ∀ nodes, Chain lineTable lineMgr path.srcDpid 3 nodes →
          path.nodeList.length ≤ nodes.length :=
  updateOneSwPath_shortest_paths lineTable lineMgr 3 (by decide)

end DCFabric.CTopoMgr
