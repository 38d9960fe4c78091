import DCFabric.LinkUpdates
import DCFabric.TagForwarding
import DCFabric.TransitionRuns

namespace DCFabric

open TransitionRuns CTopoMgr

/-- The links together with the switches the switch manager has by dpid. -/
structure Topology where
  neighbors : NeighborTable
  dpids : Finset UINT8

namespace Topology

def start : Topology := ⟨fun _ => ∅, ∅⟩

inductive Failure
  | deleted
  | unAlive

def failEnd (tbl : NeighborTable) (dpid : UINT8) (port : UINT4) : Failure → NeighborTable
  | .deleted => (tbl.deleteLink dpid port).neighbors
  | .unAlive => (tbl.unAliveLink dpid port).neighbors

inductive Change where
  | connect (dpid : UINT8)
  | discover (dpid : UINT8) (port : UINT4) (neighDpid : UINT8) (neighPort : UINT4)
  | fail (failure : Failure) (dpid : UINT8) (port : UINT4) (neighFailure : Failure) (neighDpid : UINT8)
    (neighPort : UINT4)
  | delete (dpid : UINT8)

def step (t : Topology) : Change → Option Topology
  | .connect dpid => some ⟨(t.neighbors.addSwitch dpid).2, insert dpid t.dpids⟩
  | .discover dpid port neighDpid neighPort =>
    let tbl := (t.neighbors.updateLink dpid port neighDpid neighPort).2.neighbors
    some { t with neighbors := (tbl.updateLink neighDpid neighPort dpid port).2.neighbors }
  | .fail failure dpid port neighFailure neighDpid neighPort =>
    some { t with neighbors := failEnd (failEnd t.neighbors dpid port failure) neighDpid neighPort neighFailure }
  | .delete dpid => some ⟨(t.neighbors.deleteSwitch dpid).neighbors, t.dpids.erase dpid⟩

/-- The two entries of an ESTABLISHED link between switches of the table lead to each other. -/
def Paired (tbl : NeighborTable) : Prop :=
  ∀ dpid port b q, tbl.linkTo dpid port = some (b, q) → tbl.HasSwitch b → tbl.linkTo b q = some (dpid, port)

/-- Each switch of the path is left by the ESTABLISHED link of its port to the next one. -/
def FollowsLinks (tbl : NeighborTable) (path : SwPath) : Prop :=
  path.nodeList.IsChain fun x y => ∃ port, tbl.linkTo x.swDpid x.portNo = some (y.swDpid, port)

structure Consistent (t : Topology) : Prop where
  paired : Paired t.neighbors
  paths : ∀ mgr : CSwitchMgr, (∀ dpid, Known mgr dpid → dpid ∈ t.dpids) →
    ∀ list ∈ updatePath t.neighbors mgr, ∀ path ∈ list.pathList, FollowsLinks t.neighbors path

/-- No ESTABLISHED link of another port is left leading to a port whose own link changes, or to a switch that is new. -/
def LeavesNoStale (t : Topology) : Change → Prop
  | .connect dpid => t.neighbors.HasSwitch dpid ∨ ∀ l ∈ t.neighbors.establishedLinks, l.2.1 ≠ dpid
  | .discover dpid port neighDpid neighPort =>
    dpid = 0 ∨ neighDpid = 0 ∨ ∀ l ∈ t.neighbors.establishedLinks,
      l.1 = (dpid, port) ∨ l.1 = (neighDpid, neighPort) ∨
        l.2 ≠ (dpid, port) ∧ l.2 ≠ (neighDpid, neighPort) ∧
          (l.2.1 = dpid ∨ l.2.1 = neighDpid → t.neighbors.HasSwitch l.2.1)
  | .fail _ dpid port _ neighDpid neighPort => ∀ l ∈ t.neighbors.establishedLinks,
      l.1 = (dpid, port) ∨ l.1 = (neighDpid, neighPort) ∨
        (l.2 = (dpid, port) ∨ l.2 = (neighDpid, neighPort) → ¬t.neighbors.HasSwitch l.2.1)
  | .delete _ => True

instance : ∀ (t : Topology) (change : Change), Decidable (LeavesNoStale t change)
  | _, .connect _ => @instDecidableOr _ _ inferInstance (List.decidableBAll _ _)
  | _, .discover .. => @instDecidableOr _ _ inferInstance (@instDecidableOr _ _ inferInstance (List.decidableBAll _ _))
  | _, .fail .. => List.decidableBAll _ _
  | _, .delete _ => inferInstanceAs (Decidable True)

/-- The states the operations on links give them. -/
def Settled (tbl : NeighborTable) : Prop :=
  ∀ dpid port link, tbl.getLink dpid port = some link →
    link.state = .established ∨ link.state = .unalive ∨ link.state = .deleted

variable {tbl : NeighborTable} {dpid d neighDpid : UINT8} {port p neighPort : UINT4} {neighbor : Neighbor}
  {failure : Failure} {t t' : Topology} {change : Change}

theorem Settled.setLink (h : Settled tbl)
    (hstate : neighbor.state = .established ∨ neighbor.state = .unalive ∨ neighbor.state = .deleted) :
    Settled (tbl.setLink dpid port neighbor) := by
  intro d p link hlink
  rw [NeighborTable.getLink_setLink] at hlink
  split_ifs at hlink with hkey
  · obtain rfl := Option.some.inj hlink
    exact hstate
  · exact h d p link hlink

theorem Settled.updateLink (h : Settled tbl) (hdpid : dpid ≠ 0) (hneigh : neighDpid ≠ 0) :
    Settled (tbl.updateLink dpid port neighDpid neighPort).2.neighbors := by
  rcases NeighborTable.updateLink_cases tbl port neighPort hdpid hneigh with ⟨neighbor, event, heq, hstate, -⟩ |
    ⟨neighbor, -, -, -, -, -, heq⟩
  · rw [heq]
    exact h.setLink (.inl hstate)
  · rw [heq]
    exact h

theorem Settled.updateLink_linkTo (h : Settled tbl) (hdpid : dpid ≠ 0) (hneigh : neighDpid ≠ 0) :
    (tbl.updateLink dpid port neighDpid neighPort).2.neighbors.linkTo d p =
      if d = dpid ∧ p = port then some (neighDpid, neighPort) else tbl.linkTo d p := by
  rcases NeighborTable.updateLink_cases tbl port neighPort hdpid hneigh with
    ⟨neighbor, event, heq, hstate, rfl, rfl, -⟩ | ⟨neighbor, hlink, rfl, rfl, hunalive, hdeleted, heq⟩
  · rw [heq, NeighborTable.linkTo_setLink, if_pos hstate]
  · rw [heq]
    split_ifs with hkey
    · have hstate : neighbor.state = .established := by
        rcases h _ _ _ hlink with hs | hs | hs
        · exact hs
        · exact absurd hs hunalive
        · exact absurd hs hdeleted
      rw [hkey.1, hkey.2, NeighborTable.linkTo, hlink, Option.bind_some, if_pos hstate]
    · rfl

theorem updateLink_hasSwitch (hdpid : dpid ≠ 0) (hneigh : neighDpid ≠ 0) :
    (tbl.updateLink dpid port neighDpid neighPort).2.neighbors.HasSwitch d ↔ d = dpid ∨ tbl.HasSwitch d := by
  rcases NeighborTable.updateLink_cases tbl port neighPort hdpid hneigh with ⟨neighbor, event, heq, -⟩ |
    ⟨neighbor, hlink, -, -, -, -, heq⟩
  · rw [heq]
    exact NeighborTable.hasSwitch_setLink
  · rw [heq]
    constructor
    · exact .inr
    · rintro (rfl | h)
      · exact NeighborTable.hasSwitch_of_getLink hlink
      · exact h

theorem Settled.failEnd (h : Settled tbl) : Settled (failEnd tbl dpid port failure) := by
  cases failure with
  | deleted =>
    rcases NeighborTable.deleteLink_cases tbl dpid port with ⟨neighbor, event, -, -, heq⟩ | ⟨-, heq⟩
    · rw [Topology.failEnd, heq]
      exact h.setLink (.inr (.inr rfl))
    · rw [Topology.failEnd, heq]
      exact h
  | unAlive =>
    rcases NeighborTable.unAliveLink_cases tbl dpid port with ⟨neighbor, event, -, heq⟩ | ⟨-, heq⟩
    · rw [Topology.failEnd, heq]
      exact h.setLink (.inr (.inl rfl))
    · rw [Topology.failEnd, heq]
      exact h

theorem failEnd_linkTo (hzero : dpid = 0 → tbl.linkTo dpid port = none) :
    (failEnd tbl dpid port failure).linkTo d p = if d = dpid ∧ p = port then none else tbl.linkTo d p := by
  cases failure with
  | deleted =>
    rcases NeighborTable.deleteLink_cases tbl dpid port with ⟨neighbor, event, -, -, heq⟩ | ⟨hnone, heq⟩
    · rw [Topology.failEnd, heq, NeighborTable.linkTo_setLink]
      rfl
    · rw [Topology.failEnd, heq]
      split_ifs with hkey
      · rw [hkey.1, hkey.2]
        by_cases h : dpid = 0
        · exact hzero h
        · exact hnone h
      · rfl
  | unAlive =>
    rcases NeighborTable.unAliveLink_cases tbl dpid port with ⟨neighbor, event, -, heq⟩ | ⟨hnone, heq⟩
    · rw [Topology.failEnd, heq, NeighborTable.linkTo_setLink]
      rfl
    · rw [Topology.failEnd, heq]
      split_ifs with hkey
      · rw [hkey.1, hkey.2, NeighborTable.linkTo, hnone]
        rfl
      · rfl

theorem failEnd_hasSwitch : (failEnd tbl dpid port failure).HasSwitch d ↔ tbl.HasSwitch d := by
  have hset {neighbor link : Neighbor} (hlink : tbl.getLink dpid port = some link) :
      (tbl.setLink dpid port neighbor).HasSwitch d ↔ tbl.HasSwitch d := by
    rw [NeighborTable.hasSwitch_setLink]
    constructor
    · rintro (rfl | h)
      · exact NeighborTable.hasSwitch_of_getLink hlink
      · exact h
    · exact .inr
  cases failure with
  | deleted =>
    rcases NeighborTable.deleteLink_cases tbl dpid port with ⟨neighbor, event, hlink, -, heq⟩ | ⟨-, heq⟩
    · rw [Topology.failEnd, heq]
      exact hset hlink
    · rw [Topology.failEnd, heq]
  | unAlive =>
    rcases NeighborTable.unAliveLink_cases tbl dpid port with ⟨neighbor, event, hlink, heq⟩ | ⟨-, heq⟩
    · rw [Topology.failEnd, heq]
      exact hset hlink
    · rw [Topology.failEnd, heq]

structure Inv (t : Topology) : Prop where
  paired : ∀ dpid port b q, t.neighbors.linkTo dpid port = some (b, q) → t.neighbors.HasSwitch b ∨ b ∈ t.dpids →
    t.neighbors.linkTo b q = some (dpid, port)
  nonzero : ∀ dpid port b q, t.neighbors.linkTo dpid port = some (b, q) → dpid ≠ 0 ∧ b ≠ 0
  settled : Settled t.neighbors

theorem Inv.connect (h : Inv t) (hc : LeavesNoStale t (.connect dpid)) :
    Inv ⟨(t.neighbors.addSwitch dpid).2, insert dpid t.dpids⟩ where
  paired d p b q hlink hb := by
    dsimp only at hlink hb ⊢
    rw [NeighborTable.addSwitch_linkTo] at hlink ⊢
    rw [NeighborTable.addSwitch_hasSwitch, Finset.mem_insert] at hb
    apply h.paired d p b q hlink
    by_cases hnew : b = dpid
    · rcases hc with hhas | hnone
      · exact .inl (hnew ▸ hhas)
      · exact absurd hnew (hnone _ (NeighborTable.mem_establishedLinks.mpr hlink))
    · simpa [hnew] using hb
  nonzero d p b q hlink := by
    dsimp only at hlink
    rw [NeighborTable.addSwitch_linkTo] at hlink
    exact h.nonzero d p b q hlink
  settled d p link hlink := by
    dsimp only at hlink
    rw [NeighborTable.addSwitch_getLink] at hlink
    exact h.settled d p link hlink

theorem Inv.discover (h : Inv t) (hc : LeavesNoStale t (.discover dpid port neighDpid neighPort))
    (hstep : t.step (.discover dpid port neighDpid neighPort) = some t') : Inv t' := by
  obtain rfl := Option.some.inj hstep
  by_cases hzero : dpid = 0 ∨ neighDpid = 0
  · have hsame (tbl : NeighborTable) (p q : UINT4) :
        (tbl.updateLink dpid p neighDpid q).2.neighbors = tbl ∧
          (tbl.updateLink neighDpid q dpid p).2.neighbors = tbl := by
      simp only [NeighborTable.updateLink]
      rw [if_pos hzero, if_pos hzero.symm]
      exact ⟨rfl, rfl⟩
    rw [(hsame ..).1, (hsame ..).2]
    exact h
  · obtain ⟨hdpid, hneigh⟩ := not_or.mp hzero
    have hc := (hc.resolve_left hdpid).resolve_left hneigh
    have hset : Settled (t.neighbors.updateLink dpid port neighDpid neighPort).2.neighbors :=
      h.settled.updateLink hdpid hneigh
    constructor
    · intro d p b q
      dsimp only
      simp only [hset.updateLink_linkTo hneigh hdpid, h.settled.updateLink_linkTo hdpid hneigh,
        updateLink_hasSwitch hneigh hdpid, updateLink_hasSwitch hdpid hneigh]
      intro hlink hb
      split_ifs at hlink with hback hforth
      · cases hlink
        rw [hback.1, hback.2]
        split_ifs with hself
        · rw [hself.1, hself.2]
        · rfl
        · next hne => exact absurd ⟨rfl, rfl⟩ hne
      · cases hlink
        rw [hforth.1, hforth.2, if_pos ⟨rfl, rfl⟩]
      · rcases hc _ (NeighborTable.mem_establishedLinks.mpr hlink) with hl | hl | ⟨hforth', hback', hhas⟩
        · exact absurd (Prod.mk.inj hl) hforth
        · exact absurd (Prod.mk.inj hl) hback
        · rw [if_neg fun hk => hback' (Prod.ext hk.1 hk.2), if_neg fun hk => hforth' (Prod.ext hk.1 hk.2)]
          apply h.paired d p b q hlink
          rcases hb with (rfl | rfl | hb) | hb
          · exact .inl (hhas (.inr rfl))
          · exact .inl (hhas (.inl rfl))
          · exact .inl hb
          · exact .inr hb
    · intro d p b q hlink
      dsimp only at hlink
      rw [hset.updateLink_linkTo hneigh hdpid, h.settled.updateLink_linkTo hdpid hneigh] at hlink
      split_ifs at hlink with hback hforth
      · cases hlink
        exact ⟨hback.1 ▸ hneigh, hdpid⟩
      · cases hlink
        exact ⟨hforth.1 ▸ hdpid, hneigh⟩
      · exact h.nonzero d p b q hlink
    · exact hset.updateLink hneigh hdpid

theorem Inv.fail {neighFailure : Failure} (h : Inv t)
    (hc : LeavesNoStale t (.fail failure dpid port neighFailure neighDpid neighPort))
    (hstep : t.step (.fail failure dpid port neighFailure neighDpid neighPort) = some t') : Inv t' := by
  obtain rfl := Option.some.inj hstep
  have hzero (dpid : UINT8) (port : UINT4) (hdpid : dpid = 0) : t.neighbors.linkTo dpid port = none := by
    by_contra hsome
    obtain ⟨⟨b, q⟩, hlink⟩ := Option.ne_none_iff_exists'.mp hsome
    exact (h.nonzero _ _ _ _ hlink).1 hdpid
  have hlinkTo (d : UINT8) (p : UINT4) : (Topology.failEnd (Topology.failEnd t.neighbors dpid port failure) neighDpid
      neighPort neighFailure).linkTo d p =
        if d = neighDpid ∧ p = neighPort then none
        else if d = dpid ∧ p = port then none else t.neighbors.linkTo d p := by
    rw [failEnd_linkTo, failEnd_linkTo (hzero dpid port)]
    intro hneigh
    rw [failEnd_linkTo (hzero dpid port), hzero neighDpid neighPort hneigh, ite_self]
  constructor
  · intro d p b q hlink hb
    dsimp only at hlink hb ⊢
    rw [hlinkTo] at hlink ⊢
    rw [failEnd_hasSwitch, failEnd_hasSwitch] at hb
    split_ifs at hlink with hback hforth
    have hpair := h.paired d p b q hlink hb
    rcases hc _ (NeighborTable.mem_establishedLinks.mpr hlink) with hl | hl | hstale
    · exact absurd (Prod.mk.inj hl) hforth
    · exact absurd (Prod.mk.inj hl) hback
    · have hhas := NeighborTable.hasSwitch_of_linkTo hpair
      rw [if_neg, if_neg]
      · exact hpair
      · exact fun hk => hstale (.inl (Prod.ext hk.1 hk.2)) hhas
      · exact fun hk => hstale (.inr (Prod.ext hk.1 hk.2)) hhas
  · intro d p b q hlink
    dsimp only at hlink
    rw [hlinkTo] at hlink
    split_ifs at hlink
    exact h.nonzero d p b q hlink
  · exact h.settled.failEnd.failEnd

theorem Inv.delete (h : Inv t) : Inv ⟨(t.neighbors.deleteSwitch dpid).neighbors, t.dpids.erase dpid⟩ := by
  by_cases hdpid : dpid = 0
  · have hsame : (t.neighbors.deleteSwitch dpid).neighbors = t.neighbors := by
      rw [NeighborTable.deleteSwitch, if_pos hdpid]
    rw [hsame]
    refine ⟨fun d p b q hlink hb => h.paired d p b q hlink ?_, h.nonzero, h.settled⟩
    exact hb.imp_right Finset.mem_of_mem_erase
  · constructor
    · intro d p b q hlink hb
      dsimp only [NeighborTable.HasSwitch] at hlink hb ⊢
      rw [NeighborTable.deleteSwitch_linkTo hdpid] at hlink ⊢
      rw [NeighborTable.deleteSwitch_getLinks hdpid] at hb
      split_ifs at hlink with hd
      have hne : b ≠ dpid := by
        rintro rfl
        simp at hb
      rw [if_neg hne] at hb ⊢
      exact h.paired d p b q hlink (hb.imp_right Finset.mem_of_mem_erase)
    · intro d p b q hlink
      dsimp only at hlink
      rw [NeighborTable.deleteSwitch_linkTo hdpid] at hlink
      split_ifs at hlink
      exact h.nonzero d p b q hlink
    · intro d p link hlink
      dsimp only [NeighborTable.getLink] at hlink
      rw [NeighborTable.deleteSwitch_getLinks hdpid] at hlink
      split_ifs at hlink
      · cases hlink
      · exact h.settled d p link hlink

theorem Inv.start : Inv Topology.start := by
  have hnone (d : UINT8) (p : UINT4) : Topology.start.neighbors.getLink d p = none := by
    simp [Topology.start, NeighborTable.getLink, NeighborTable.getLinks]
  constructor
  · intro d p b q hlink
    simp [NeighborTable.linkTo, hnone] at hlink
  · intro d p b q hlink
    simp [NeighborTable.linkTo, hnone] at hlink
  · intro d p link hlink
    simp [hnone] at hlink

theorem Inv.step (h : Inv t) (hc : LeavesNoStale t change) (hstep : t.step change = some t') : Inv t' := by
  cases change with
  | connect dpid =>
    obtain rfl := Option.some.inj hstep
    exact h.connect hc
  | discover dpid port neighDpid neighPort => exact h.discover hc hstep
  | fail failure dpid port neighFailure neighDpid neighPort => exact h.fail hc hstep
  | delete dpid =>
    obtain rfl := Option.some.inj hstep
    exact h.delete

theorem nodeList_copyPath (path : SwPath) : (copyPath path).nodeList = path.nodeList := by
  simp [copyPath]

/-- The links that a path was grown along are left backwards when it is followed. -/
theorem Inv.built {mgr : CSwitchMgr} {path : SwPath} (h : Inv t) (hknown : ∀ dpid, Known mgr dpid → dpid ∈ t.dpids)
    (hbuilt : (pathTree t.neighbors mgr).Built (selfPath d) path) :
    (∃ node rest, path.nodeList = node :: rest ∧ node.swDpid = path.srcDpid) ∧ FollowsLinks t.neighbors path := by
  induction hbuilt with
  | root => exact ⟨⟨_, _, rfl, rfl⟩, List.isChain_singleton _⟩
  | @extend path link built hlink ih =>
    obtain ⟨⟨node, rest, hnodes, hnode⟩, hchain⟩ := ih
    obtain ⟨⟨port, hport⟩, hstate, hdst⟩ := (mem_neighborsOf _ _).mp hlink
    have hforth : t.neighbors.linkTo path.srcDpid port = some (link.dstDpid, link.dstPort) :=
      NeighborTable.linkTo_eq_some.mpr ⟨link, hport, hstate, rfl, rfl⟩
    have hback := h.paired _ _ _ _ hforth (.inr (hknown _ hdst))
    have hextend : ((pathTree t.neighbors mgr).extend path link).nodeList =
        ⟨link.dstDpid, link.dstPort⟩ :: node :: rest := by
      rw [← hnodes, ← nodeList_copyPath path]
      rfl
    refine ⟨⟨_, _, hextend, rfl⟩, ?_⟩
    rw [FollowsLinks, hnodes] at hchain
    rw [FollowsLinks, hextend, List.isChain_cons_cons]
    refine ⟨⟨port, ?_⟩, hchain⟩
    rw [hback, hnode]

theorem Inv.consistent (h : Inv t) : Consistent t where
  paired d p b q hlink hb := h.paired d p b q hlink (.inl hb)
  paths _ hknown _ hlist path hpath := (h.built hknown ((updatePath_complete hlist).2.built path hpath)).2

theorem links_paired (hrun : Run step LeavesNoStale start t) : Consistent t := by
  apply Inv.consistent
  apply hrun.invariant (P := Inv) (fun _ _ _ h hc hstep => h.step hc hstep)
  exact Inv.start


/-- A link fails and comes up on another port, and one of its switches is deleted and comes back. -/
def recabled : List Change := [
  .connect 1, .connect 2, .discover 1 1 2 1,
  .fail .deleted 1 1 .unAlive 2 1, .discover 1 1 2 2,
  .fail .unAlive 1 1 .deleted 2 2, .delete 2, .connect 2, .discover 2 1 1 1]

theorem recabled_consistent : ∃ t, exec (guarded step LeavesNoStale) start recabled = some t ∧ Consistent t := by
  have hsome : (exec (guarded step LeavesNoStale) start recabled).isSome := by decide +kernel
  obtain ⟨t, ht⟩ := Option.isSome_iff_exists.mp hsome
  exact ⟨t, ht, links_paired (Run.of_exec ht)⟩

/-- A port is moved to another switch without a failure in between. -/
def moved : List Change := [.connect 1, .connect 2, .connect 3, .discover 1 1 2 1, .discover 1 1 3 1]

theorem moved_not_consistent : ¬∀ t, Reaches step start t → Consistent t := by
  intro hconsistent
  have hrun : ∃ t, exec step start moved = some t ∧ t.neighbors.linkTo 2 1 = some (1, 1) ∧
      t.neighbors.HasSwitch 1 ∧ t.neighbors.linkTo 1 1 = some (3, 1) :=
    ⟨_, rfl, by decide, by decide, by decide⟩
  obtain ⟨t, hexec, hstale, hhas, hmoved⟩ := hrun
  have hpair := (hconsistent t (Reaches.of_exec hexec)).paired 2 1 1 1 hstale hhas
  rw [hmoved] at hpair
  cases hpair

end Topology

end DCFabric
