import DCFabric.LinkUpdates
import DCFabric.PathTrees
import DCFabric.TransitionRuns

namespace DCFabric

open TransitionRuns CTopoMgr

namespace NeighborTable

variable {tbl tbl' : NeighborTable} {dpid d neighDpid b : UINT8} {port p neighPort q : UINT4} {neighbor : Neighbor}
  {mgr : CSwitchMgr} {dstSw : CSwitch} {curPath : SwPath} {st : PathSearch} {pathList : List SwPath}

def SameLinks (tbl tbl' : NeighborTable) : Prop := ∀ dpid port, tbl.linkTo dpid port = tbl'.linkTo dpid port

/-- The ESTABLISHED links of a switch in the order of their ports. -/
def outLinks (tbl : NeighborTable) (dpid : UINT8) : List (UINT4 × (UINT8 × UINT4)) :=
  ((tbl.getLinks dpid).elim [] fun links => links.toList).filterMap fun link =>
    if link.2.state = .established then some (link.1, (link.2.dstDpid, link.2.dstPort)) else none

theorem mem_outLinks : (port, (b, q)) ∈ tbl.outLinks dpid ↔ tbl.linkTo dpid port = some (b, q) := by
  have hmem : ∀ link, (port, link) ∈ (tbl.getLinks dpid).elim [] (fun links => links.toList) ↔
      tbl.getLink dpid port = some link := by
    intro link
    rw [getLink_eq_some]
    cases tbl.getLinks dpid <;> simp
  rw [outLinks, List.mem_filterMap, linkTo_eq_some]
  constructor
  · rintro ⟨⟨p, link⟩, hlink, hsome⟩
    dsimp only at hsome
    split_ifs at hsome with hstate
    obtain ⟨rfl, hb, hq⟩ : p = port ∧ link.dstDpid = b ∧ link.dstPort = q := by simpa using hsome
    exact ⟨link, (hmem link).mp hlink, hstate, hb, hq⟩
  · rintro ⟨link, hlink, hstate, hb, hq⟩
    refine ⟨(port, link), (hmem link).mpr hlink, ?_⟩
    rw [if_pos hstate, hb, hq]

theorem outLinks_ordered (tbl : NeighborTable) (dpid : UINT8) :
    (tbl.outLinks dpid).Pairwise (fun l l' => compare l.1 l'.1 = .lt) := by
  have hordered : ((tbl.getLinks dpid).elim [] fun links => links.toList).Pairwise
      (fun l l' => compare l.1 l'.1 = .lt) := by
    cases tbl.getLinks dpid with
    | none => exact List.Pairwise.nil
    | some links => exact Std.TreeMap.ordered_keys_toList
  refine hordered.filterMap _ ?_
  rintro ⟨p, link⟩ ⟨p', link'⟩ hlt l hl l' hl'
  dsimp only at hl hl'
  split_ifs at hl hl'
  cases hl
  cases hl'
  exact hlt

theorem SameLinks.outLinks (h : SameLinks tbl tbl') : tbl.outLinks dpid = tbl'.outLinks dpid := by
  have hnodup (tbl : NeighborTable) : (tbl.outLinks dpid).Nodup := by
    apply (tbl.outLinks_ordered dpid).imp
    rintro l _ hlt rfl
    simp at hlt
  apply List.Perm.eq_of_pairwise _ (tbl.outLinks_ordered dpid) (tbl'.outLinks_ordered dpid)
  · rw [List.perm_ext_iff_of_nodup (hnodup tbl) (hnodup tbl')]
    rintro ⟨port, b, q⟩
    rw [mem_outLinks, mem_outLinks, h]
  · intro l l' _ _ hlt hgt
    rw [Std.OrientedCmp.gt_iff_lt.symm, hlt] at hgt
    cases hgt

theorem addNeighborsPath_outLinks :
    addNeighborsPath tbl mgr dpid dstSw curPath st = (tbl.outLinks dpid).foldl (fun st link =>
      addNeighborPath mgr dstSw curPath st ⟨.established, dpid, link.1, link.2.1, link.2.2, 0⟩) st := by
  have hfold : ∀ (l : List (UINT4 × Neighbor)) (st : PathSearch),
      l.foldl (fun st link => addNeighborPath mgr dstSw curPath st link.2) st = (l.filterMap fun link =>
        if link.2.state = .established then some (link.1, (link.2.dstDpid, link.2.dstPort)) else none).foldl
          (fun st link =>
          addNeighborPath mgr dstSw curPath st ⟨.established, dpid, link.1, link.2.1, link.2.2, 0⟩) st := by
    intro l
    induction l with
    | nil => exact fun _ => rfl
    | cons link l ih =>
      intro st
      rw [List.foldl_cons, ih, List.filterMap_cons]
      by_cases hstate : link.2.state = .established
      · rw [if_pos hstate]
        simp only [List.foldl_cons, addNeighborPath, hstate]
        rfl
      · rw [if_neg hstate, addNeighborPath, if_pos hstate]
  rw [outLinks, addNeighborsPath]
  cases tbl.getLinks dpid with
  | none => rfl
  | some links =>
    dsimp only [Option.elim_some]
    split_ifs with hempty
    · have hnil : links.toList = [] := by rwa [← List.isEmpty_iff, Std.TreeMap.isEmpty_toList]
      rw [hnil]
      rfl
    · exact hfold links.toList st

theorem SameLinks.pathLoop (h : SameLinks tbl tbl') (fuel : ℕ) :
    pathLoop tbl mgr dstSw fuel st pathList = pathLoop tbl' mgr dstSw fuel st pathList := by
  induction fuel generalizing st pathList with
  | zero => rfl
  | succ fuel ih =>
    unfold CTopoMgr.pathLoop
    cases st.pathStack with
    | nil => rfl
    | cons curPath rest =>
      dsimp only
      rw [addNeighborsPath_outLinks, addNeighborsPath_outLinks, h.outLinks]
      exact ih

/-- Further turns change nothing once no path is left. -/
theorem pathLoop_add {fuel : ℕ} (hdone : (pathLoop tbl mgr dstSw fuel st pathList).1.pathStack = []) (n : ℕ) :
    pathLoop tbl mgr dstSw (fuel + n) st pathList = pathLoop tbl mgr dstSw fuel st pathList := by
  induction fuel generalizing st pathList with
  | zero =>
    have hnil : st.pathStack = [] := hdone
    cases n with
    | zero => rfl
    | succ n =>
      simp only [pathLoop, hnil]
  | succ fuel ih =>
    rw [Nat.succ_add_eq_add_succ, Nat.add_succ, pathLoop, pathLoop]
    rw [pathLoop] at hdone
    cases hstack : st.pathStack with
    | nil => rfl
    | cons curPath rest =>
      rw [hstack] at hdone
      exact ih hdone

theorem SameLinks.updateOneSwPath (h : SameLinks tbl tbl') :
    updateOneSwPath tbl mgr d = updateOneSwPath tbl' mgr d := by
  unfold CTopoMgr.updateOneSwPath
  cases mgr.getSwitchByDpid d with
  | none => rfl
  | some dstSw =>
    have hloop : CTopoMgr.pathLoop tbl mgr dstSw (tbl.entries.length + 1) (startSearch d) [] =
        CTopoMgr.pathLoop tbl' mgr dstSw (tbl'.entries.length + 1) (startSearch d) [] := by
      have hdone := pathLoop_pathStack tbl mgr dstSw d
      have hdone' := pathLoop_pathStack tbl' mgr dstSw d
      rw [← pathLoop_add hdone (tbl'.entries.length + 1), ← pathLoop_add hdone' (tbl.entries.length + 1), h.pathLoop,
        Nat.add_comm]
    unfold startSearch at hloop
    dsimp only
    rw [hloop]

theorem SameLinks.updatePath (h : SameLinks tbl tbl') (mgr : CSwitchMgr) :
    updatePath tbl mgr = updatePath tbl' mgr := by
  unfold CTopoMgr.updatePath
  congr 1
  funext sw
  rw [h.updateOneSwPath]

/-- Every entry is stored under its own switch and port. -/
structure Stored (tbl : NeighborTable) : Prop where
  src : ∀ dpid port link, tbl.getLink dpid port = some link → link.srcDpid = dpid ∧ link.srcPort = port
  nonzero : ∀ dpid port link, tbl.getLink dpid port = some link → dpid ≠ 0 ∧ link.dstDpid ≠ 0

/-- What holds of the links before and of the new one holds of all. -/
theorem forall_getLink_setLink {P : UINT8 → UINT4 → Neighbor → Prop}
    (h : ∀ dpid port link, tbl.getLink dpid port = some link → P dpid port link) (hnew : P dpid port neighbor) :
    ∀ d p link, (tbl.setLink dpid port neighbor).getLink d p = some link → P d p link := by
  intro d p link hlink
  rw [getLink_setLink] at hlink
  split_ifs at hlink with hkey
  · obtain rfl := Option.some.inj hlink
    rwa [hkey.1, hkey.2]
  · exact h d p link hlink

theorem Stored.setLink (h : Stored tbl) (hsrc : neighbor.srcDpid = dpid ∧ neighbor.srcPort = port)
    (hnonzero : dpid ≠ 0 ∧ neighbor.dstDpid ≠ 0) : Stored (tbl.setLink dpid port neighbor) where
  src := forall_getLink_setLink h.src hsrc
  nonzero := forall_getLink_setLink h.nonzero hnonzero

theorem getLink_of_eraseLinks {link : Neighbor} (hlink : (tbl.eraseLinks dpid).getLink d p = some link) :
    tbl.getLink d p = some link := by
  rw [NeighborTable.getLink, getLinks_eraseLinks] at hlink
  split_ifs at hlink
  · cases hlink
  · exact hlink

theorem Stored.eraseLinks (h : Stored tbl) : Stored (tbl.eraseLinks dpid) where
  src _ _ _ hlink := h.src _ _ _ (getLink_of_eraseLinks hlink)
  nonzero _ _ _ hlink := h.nonzero _ _ _ (getLink_of_eraseLinks hlink)

theorem recoverLink_setLink (hsrc : neighbor.srcDpid ≠ 0) (hdst : neighbor.dstDpid ≠ 0) :
    (tbl.recoverLink neighbor).2 = tbl.setLink neighbor.srcDpid neighbor.srcPort neighbor := by
  rw [recoverLink, if_neg (by simp [hsrc, hdst])]
  rfl

theorem Stored.recoverLink (h : Stored tbl) : Stored (tbl.recoverLink neighbor).2 := by
  by_cases hzero : neighbor.srcDpid = 0 ∨ neighbor.dstDpid = 0
  · rw [NeighborTable.recoverLink, if_pos hzero]
    exact h
  · obtain ⟨hsrc, hdst⟩ := not_or.mp hzero
    rw [recoverLink_setLink hsrc hdst]
    exact h.setLink ⟨rfl, rfl⟩ ⟨hsrc, hdst⟩

theorem ofLinks_stored (links : List Neighbor) : Stored (ofLinks links) := by
  apply List.foldlRecOn (motive := Stored) links
  · constructor <;> intro d p link hlink <;> simp [getLink, getLinks] at hlink
  · exact fun tbl h neigh _ => h.recoverLink

/-- The slave enters the links it is sent. -/
def replay (tbl : NeighborTable) (syncs : List Neighbor) : NeighborTable :=
  syncs.foldl (fun tbl neigh => (tbl.recoverLink neigh).2) tbl

theorem replay_singleton (hsrc : neighbor.srcDpid ≠ 0) (hdst : neighbor.dstDpid ≠ 0) :
    tbl.replay [neighbor] = tbl.setLink neighbor.srcDpid neighbor.srcPort neighbor :=
  recoverLink_setLink hsrc hdst

theorem replay_deleted {syncs : List Neighbor}
    (h : ∀ n ∈ syncs, n.srcDpid ≠ 0 ∧ n.dstDpid ≠ 0 ∧ n.state ≠ .established) :
    (tbl.replay syncs).linkTo d p =
      if ∃ n ∈ syncs, d = n.srcDpid ∧ p = n.srcPort then none else tbl.linkTo d p := by
  induction syncs generalizing tbl with
  | nil => simp [replay]
  | cons n syncs ih =>
    obtain ⟨⟨hsrc, hdst, hstate⟩, h⟩ := List.forall_mem_cons.mp h
    have hcons : tbl.replay (n :: syncs) = (tbl.setLink n.srcDpid n.srcPort n).replay syncs := by
      rw [← recoverLink_setLink hsrc hdst]
      rfl
    rw [hcons, ih h, linkTo_setLink, if_neg hstate]
    simp only [List.exists_mem_cons_iff]
    by_cases hfirst : d = n.srcDpid ∧ p = n.srcPort
    · rw [if_pos hfirst, ite_self, if_pos (Or.inl hfirst)]
    · rw [if_neg hfirst]
      exact if_congr (by simp [hfirst]) rfl rfl

end NeighborTable

inductive LinkOper
  | updateLink (dpid : UINT8) (port : UINT4) (neighDpid : UINT8) (neighPort : UINT4)
  | deleteLink (dpid : UINT8) (port : UINT4)
  | deleteSwitch (dpid : UINT8)
  | unAliveLink (dpid : UINT8) (port : UINT4)

def LinkOper.apply (tbl : NeighborTable) : LinkOper → LinkUpdate
  | .updateLink dpid port neighDpid neighPort => (tbl.updateLink dpid port neighDpid neighPort).2
  | .deleteLink dpid port => tbl.deleteLink dpid port
  | .deleteSwitch dpid => tbl.deleteSwitch dpid
  | .unAliveLink dpid port => tbl.unAliveLink dpid port

structure LinkReplica where
  master : NeighborTable
  slave : NeighborTable

namespace LinkReplica

def step (s : LinkReplica) (oper : LinkOper) : Option LinkReplica :=
  let update := oper.apply s.master
  some ⟨update.neighbors, s.slave.replay update.syncs⟩

/-- The slave has the links of the master, and would compute the same paths. -/
structure Agrees (s : LinkReplica) : Prop where
  links : s.master.SameLinks s.slave
  paths : ∀ mgr, updatePath s.master mgr = updatePath s.slave mgr

/-- No ESTABLISHED link is marked as not alive. -/
def Announced (s : LinkReplica) : LinkOper → Prop
  | .unAliveLink dpid port => s.master.linkTo dpid port = none
  | _ => True

instance : ∀ (s : LinkReplica) (oper : LinkOper), Decidable (Announced s oper)
  | _, .updateLink .. => inferInstanceAs (Decidable True)
  | _, .deleteLink .. => inferInstanceAs (Decidable True)
  | _, .deleteSwitch _ => inferInstanceAs (Decidable True)
  | _, .unAliveLink .. => inferInstanceAs (Decidable (_ = _))

structure Inv (s : LinkReplica) : Prop where
  links : s.master.SameLinks s.slave
  stored : s.master.Stored

variable {s s' : LinkReplica} {oper : LinkOper} {dpid neighDpid : UINT8} {port neighPort : UINT4} {old new : Neighbor}

/-- Both tables enter the same link, but for its weight. -/
theorem Inv.setLink (h : Inv s) {neigh : Neighbor} (hold : new.srcDpid = dpid ∧ new.srcPort = port)
    (hnonzero : dpid ≠ 0 ∧ new.dstDpid ≠ 0) (hneigh : neigh = { new with weight := neigh.weight }) :
    Inv ⟨s.master.setLink dpid port new, s.slave.replay [neigh]⟩ := by
  constructor
  · intro d p
    dsimp only
    rw [NeighborTable.replay_singleton, NeighborTable.linkTo_setLink, NeighborTable.linkTo_setLink, h.links]
    · rw [hneigh, hold.1, hold.2]
    · rw [hneigh, hold.1]
      exact hnonzero.1
    · rw [hneigh]
      exact hnonzero.2
  · exact h.stored.setLink hold hnonzero

theorem Inv.updateLink (h : Inv s) :
    Inv ⟨(s.master.updateLink dpid port neighDpid neighPort).2.neighbors,
      s.slave.replay (s.master.updateLink dpid port neighDpid neighPort).2.syncs⟩ := by
  by_cases hzero : dpid = 0 ∨ neighDpid = 0
  · rw [NeighborTable.updateLink, if_pos hzero]
    exact h
  · obtain ⟨hdpid, hneigh⟩ := not_or.mp hzero
    rcases NeighborTable.updateLink_cases s.master port neighPort hdpid hneigh with
      ⟨new, event, heq, hstate, hdst, hport, hsrc⟩ | ⟨new, -, -, -, -, -, heq⟩
    · have hsrc : new.srcDpid = dpid ∧ new.srcPort = port := by
        rcases hsrc with hsrc | ⟨old, hold, rfl⟩
        · exact Prod.mk.inj hsrc
        · have hsrc := h.stored.src _ _ _ hold
          exact hsrc
      rw [heq]
      apply h.setLink hsrc ⟨hdpid, hdst ▸ hneigh⟩
      rw [hstate, hsrc.1, hsrc.2, hdst, hport]
    · rw [heq]
      exact h

theorem Inv.deleteLink (h : Inv s) :
    Inv ⟨(s.master.deleteLink dpid port).neighbors, s.slave.replay (s.master.deleteLink dpid port).syncs⟩ := by
  rcases NeighborTable.deleteLink_cases s.master dpid port with ⟨old, event, hold, -, heq⟩ | ⟨-, heq⟩
  · have hsrc := h.stored.src _ _ _ hold
    have hnonzero := h.stored.nonzero _ _ _ hold
    rw [heq]
    exact h.setLink hsrc hnonzero rfl
  · rw [heq]
    exact h

theorem Inv.unAliveLink (h : Inv s) (hlink : s.master.linkTo dpid port = none) :
    Inv ⟨(s.master.unAliveLink dpid port).neighbors, s.slave.replay (s.master.unAliveLink dpid port).syncs⟩ := by
  rcases NeighborTable.unAliveLink_cases s.master dpid port with ⟨old, event, hold, heq⟩ | ⟨-, heq⟩
  · have hsrc := h.stored.src _ _ _ hold
    have hnonzero := h.stored.nonzero _ _ _ hold
    rw [heq]
    constructor
    · intro d p
      change (s.master.setLink dpid port _).linkTo d p = s.slave.linkTo d p
      rw [NeighborTable.linkTo_setLink, ← h.links]
      split_ifs with hkey hstate
      · cases hstate
      · rw [hkey.1, hkey.2, hlink]
      · rfl
    · exact h.stored.setLink hsrc hnonzero
  · rw [heq]
    exact h

/-- The links of a switch that is deleted are sent as deleted links of that switch. -/
theorem Inv.deleted_links (h : Inv s) {portMap : CNeighbors} (hlinks : s.master.getLinks dpid = some portMap) :
    ∀ n ∈ ((portMap.toList.map Prod.snd).filter (·.state ≠ .deleted)).map fun link => { link with state := .deleted },
      n.srcDpid = dpid ∧ n.srcDpid ≠ 0 ∧ n.dstDpid ≠ 0 ∧ n.state ≠ .established := by
  simp only [List.mem_map, List.mem_filter]
  rintro n ⟨link, ⟨⟨⟨p, link⟩, hmem, rfl⟩, -⟩, rfl⟩
  have hlink : s.master.getLink dpid p = some link := NeighborTable.getLink_eq_some.mpr ⟨portMap, hlinks, hmem⟩
  have hsrc := (h.stored.src _ _ _ hlink).1
  have hnonzero := h.stored.nonzero _ _ _ hlink
  exact ⟨hsrc, hsrc ▸ hnonzero.1, hnonzero.2, by simp⟩

theorem Inv.deleteSwitch (h : Inv s) :
    Inv ⟨(s.master.deleteSwitch dpid).neighbors, s.slave.replay (s.master.deleteSwitch dpid).syncs⟩ := by
  unfold NeighborTable.deleteSwitch
  split_ifs with hdpid
  · exact h
  · cases hlinks : s.master.getLinks dpid with
    | none => exact h
    | some portMap =>
      dsimp only
      have hsync := h.deleted_links hlinks
      constructor
      · intro d p
        dsimp only
        rw [NeighborTable.replay_deleted fun n hn => (hsync n hn).2, NeighborTable.linkTo_eraseLinks]
        by_cases hd : d = dpid
        · rw [if_pos hd]
          split_ifs with hsynced
          · rfl
          · by_contra hsome
            rw [← h.links] at hsome
            obtain ⟨⟨b, q⟩, hlink⟩ := Option.ne_none_iff_exists'.mp (Ne.symm hsome)
            obtain ⟨link, hlink, hstate, -⟩ := NeighborTable.linkTo_eq_some.mp hlink
            obtain ⟨links, hlinks', hmem⟩ := NeighborTable.getLink_eq_some.mp hlink
            rw [hd, hlinks] at hlinks'
            obtain rfl := Option.some.inj hlinks'
            have hsrc := h.stored.src _ _ _ hlink
            apply hsynced
            refine ⟨{ link with state := .deleted }, ?_, hsrc.1.symm, hsrc.2.symm⟩
            apply List.mem_map_of_mem
            exact List.mem_filter.mpr ⟨List.mem_map_of_mem hmem, by simp [hstate]⟩
        · rw [if_neg hd, if_neg, h.links]
          rintro ⟨n, hn, hsrc, -⟩
          exact hd (hsrc.trans (hsync n hn).1)
      · exact h.stored.eraseLinks

theorem Inv.step (h : Inv s) (hc : Announced s oper) (hstep : s.step oper = some s') : Inv s' := by
  obtain rfl := Option.some.inj hstep
  cases oper with
  | updateLink dpid port neighDpid neighPort => exact h.updateLink
  | deleteLink dpid port => exact h.deleteLink
  | deleteSwitch dpid => exact h.deleteSwitch
  | unAliveLink dpid port => exact h.unAliveLink hc

theorem links_synced {tbl : NeighborTable} (hstored : tbl.Stored) (hrun : Run step Announced ⟨tbl, tbl⟩ s) :
    Agrees s := by
  have hinv : Inv s := by
    apply hrun.invariant (P := Inv) (fun _ _ _ h hc hstep => h.step hc hstep)
    exact ⟨fun _ _ => rfl, hstored⟩
  exact ⟨hinv.links, hinv.links.updatePath⟩

/-- A switch with one link, which changes its peer, is deleted and is found again. -/
theorem relinked_agrees :
    ∃ s, exec (guarded step Announced) ⟨.ofLinks [⟨.established, 1, 1, 2, 1, 5⟩],
      .ofLinks [⟨.established, 1, 1, 2, 1, 5⟩]⟩
      [.updateLink 1 1 3 1, .deleteLink 1 1, .unAliveLink 1 1, .updateLink 1 1 3 1, .deleteSwitch 1] = some s ∧
        Agrees s := by
  have hsome : (exec (guarded step Announced)
      ⟨.ofLinks [⟨.established, 1, 1, 2, 1, 5⟩], .ofLinks [⟨.established, 1, 1, 2, 1, 5⟩]⟩
      [.updateLink 1 1 3 1, .deleteLink 1 1, .unAliveLink 1 1, .updateLink 1 1 3 1, .deleteSwitch 1]).isSome := by
    decide +kernel
  obtain ⟨s, hs⟩ := Option.isSome_iff_exists.mp hsome
  exact ⟨s, hs, links_synced (NeighborTable.ofLinks_stored _) (Run.of_exec hs)⟩

theorem unAlive_not_agrees :
    ¬∀ (tbl : NeighborTable) (s : LinkReplica), tbl.Stored → Reaches step ⟨tbl, tbl⟩ s → Agrees s := by
  intro hagrees
  have hrun : ∃ s, exec step ⟨.ofLinks [⟨.established, 1, 1, 2, 1, 0⟩], .ofLinks [⟨.established, 1, 1, 2, 1, 0⟩]⟩
      [.unAliveLink 1 1] = some s ∧ s.master.linkTo 1 1 = none ∧ s.slave.linkTo 1 1 = some (2, 1) :=
    ⟨_, rfl, by decide, by decide⟩
  obtain ⟨s, hexec, hmaster, hslave⟩ := hrun
  have hsame := (hagrees _ s (NeighborTable.ofLinks_stored _) (Reaches.of_exec hexec)).links 1 1
  rw [hmaster, hslave] at hsame
  cases hsame

end LinkReplica

end DCFabric
