import DCFabric.NeighborTable

namespace DCFabric

inductive LinkEventType | establish | delete | unalive | recover
  deriving DecidableEq

inductive LinkEventReason | establish | unalive | recover | portDown | switchPowerOff
  deriving DecidableEq

structure LinkEvent where
  event : LinkEventType
  reason : LinkEventReason
  srcDpid : UINT8
  srcPort : UINT4
  dstDpid : UINT8
  dstPort : UINT4
  deriving DecidableEq

/-- A table after an operation, with the events it reports and the links it syncs. -/
structure LinkUpdate where
  neighbors : NeighborTable
  events : List LinkEvent
  syncs : List Neighbor

namespace NeighborTable

def setLinks (tbl : NeighborTable) (dpid : UINT8) (links : CNeighbors) : NeighborTable :=
  Function.update tbl (mapPos dpid) ((tbl (mapPos dpid)).insert dpid links)

def setLink (tbl : NeighborTable) (dpid : UINT8) (port : UINT4) (neighbor : Neighbor) : NeighborTable :=
  tbl.setLinks dpid (((tbl.getLinks dpid).getD ∅).insert port neighbor)

def eraseLinks (tbl : NeighborTable) (dpid : UINT8) : NeighborTable :=
  Function.update tbl (mapPos dpid) ((tbl (mapPos dpid)).erase dpid)

def addSwitch (tbl : NeighborTable) (dpid : UINT8) : INT4 × NeighborTable :=
  if dpid = 0 then (BNC_ERR, tbl)
  else
    match tbl.getLinks dpid with
    | none => (BNC_OK, tbl.setLinks dpid ∅)
    | some _ => (BNC_OK, tbl)

def deleteSwitch (tbl : NeighborTable) (dpid : UINT8) : LinkUpdate :=
  if dpid = 0 then ⟨tbl, [], []⟩
  else
    match tbl.getLinks dpid with
    | none => ⟨tbl, [], []⟩
    | some portMap =>
      let deleted := (portMap.toList.map Prod.snd).filter (·.state ≠ .deleted)
      { neighbors := tbl.eraseLinks dpid
        events := deleted.map fun neighbor =>
          ⟨.delete, .switchPowerOff, neighbor.srcDpid, neighbor.srcPort, neighbor.dstDpid, neighbor.dstPort⟩
        syncs := deleted.map fun neighbor => { neighbor with state := .deleted } }

def updateLink (tbl : NeighborTable) (dpid : UINT8) (port : UINT4) (neighDpid : UINT8) (neighPort : UINT4) :
    INT4 × LinkUpdate :=
  if dpid = 0 ∨ neighDpid = 0 then (BNC_ERR, ⟨tbl, [], []⟩)
  else
    let neighInsert : Neighbor := ⟨.established, dpid, port, neighDpid, neighPort, 0⟩
    let changed (event : LinkEventType) (reason : LinkEventReason) (neighbor : Neighbor) : LinkUpdate :=
      ⟨tbl.setLink dpid port neighbor, [⟨event, reason, dpid, port, neighDpid, neighPort⟩], [neighInsert]⟩
    match tbl.getLink dpid port with
    | none => (BNC_OK, changed .establish .establish neighInsert)
    | some neighbor =>
      if neighDpid ≠ neighbor.dstDpid ∨ neighPort ≠ neighbor.dstPort then
        (BNC_OK, changed .establish .establish { neighInsert with weight := neighbor.weight })
      else if neighbor.state = .unalive then
        (BNC_OK, changed .recover .recover { neighbor with state := .established })
      else if neighbor.state = .deleted then
        (BNC_OK, changed .establish .establish { neighbor with state := .established })
      else (BNC_OK, ⟨tbl, [], []⟩)

def deleteLink (tbl : NeighborTable) (dpid : UINT8) (port : UINT4) : LinkUpdate :=
  if dpid = 0 then ⟨tbl, [], []⟩
  else
    match tbl.getLink dpid port with
    | none => ⟨tbl, [], []⟩
    | some neighbor =>
      if neighbor.state ≠ .deleted then
        { neighbors := tbl.setLink dpid port { neighbor with state := .deleted }
          events := [⟨.delete, .portDown, dpid, port, neighbor.dstDpid, neighbor.dstPort⟩]
          syncs := [{ neighbor with state := .deleted }] }
      else ⟨tbl, [], []⟩

def unAliveLink (tbl : NeighborTable) (dpid : UINT8) (port : UINT4) : LinkUpdate :=
  match tbl.getLink dpid port with
  | none => ⟨tbl, [], []⟩
  | some link =>
    { neighbors := tbl.setLink dpid port { link with state := .unalive }
      events := [⟨.unalive, .unalive, dpid, port, link.dstDpid, link.dstPort⟩]
      syncs := [] }

/-- The dpid and the port that the ESTABLISHED link of a port leads to. -/
def linkTo (tbl : NeighborTable) (dpid : UINT8) (port : UINT4) : Option (UINT8 × UINT4) :=
  (tbl.getLink dpid port).bind fun link =>
    if link.state = .established then some (link.dstDpid, link.dstPort) else none

def HasSwitch (tbl : NeighborTable) (dpid : UINT8) : Prop := (tbl.getLinks dpid).isSome

instance (tbl : NeighborTable) (dpid : UINT8) : Decidable (tbl.HasSwitch dpid) :=
  inferInstanceAs (Decidable ((tbl.getLinks dpid).isSome = true))

variable {tbl : NeighborTable} {dpid d neighDpid b : UINT8} {port p neighPort q : UINT4} {links : CNeighbors}
  {neighbor : Neighbor}

theorem getLinks_setLinks : (tbl.setLinks dpid links).getLinks d = if d = dpid then some links else tbl.getLinks d := by
  unfold getLinks setLinks
  by_cases hd : d = dpid
  · simp [hd]
  · rw [if_neg hd]
    by_cases hpos : mapPos d = mapPos dpid
    · simp [hpos, Std.TreeMap.getElem?_insert, Ne.symm hd]
    · rw [Function.update_of_ne hpos]

theorem getLinks_eraseLinks : (tbl.eraseLinks dpid).getLinks d = if d = dpid then none else tbl.getLinks d := by
  unfold getLinks eraseLinks
  by_cases hd : d = dpid
  · simp [hd]
  · rw [if_neg hd]
    by_cases hpos : mapPos d = mapPos dpid
    · simp [hpos, Std.TreeMap.getElem?_erase, Ne.symm hd]
    · rw [Function.update_of_ne hpos]

theorem getLink_setLink :
    (tbl.setLink dpid port neighbor).getLink d p = if d = dpid ∧ p = port then some neighbor else tbl.getLink d p := by
  unfold getLink setLink
  rw [getLinks_setLinks]
  by_cases hd : d = dpid
  · subst hd
    by_cases hp : p = port
    · simp [hp]
    · cases hl : tbl.getLinks d <;> simp [hp, Std.TreeMap.getElem?_insert, Ne.symm hp]
  · rw [if_neg hd, if_neg (fun h => hd h.1)]

theorem linkTo_eraseLinks : (tbl.eraseLinks dpid).linkTo d p = if d = dpid then none else tbl.linkTo d p := by
  unfold linkTo getLink
  rw [getLinks_eraseLinks]
  split_ifs <;> rfl

theorem hasSwitch_setLink : (tbl.setLink dpid port neighbor).HasSwitch d ↔ d = dpid ∨ tbl.HasSwitch d := by
  unfold HasSwitch setLink
  rw [getLinks_setLinks]
  split_ifs with hd <;> simp [hd]

theorem hasSwitch_of_getLink (h : tbl.getLink dpid port = some neighbor) : tbl.HasSwitch dpid := by
  obtain ⟨links, hlinks, -⟩ := getLink_eq_some.mp h
  rw [HasSwitch, hlinks]
  rfl

theorem linkTo_eq_some :
    tbl.linkTo dpid port = some (b, q) ↔
      ∃ link, tbl.getLink dpid port = some link ∧ link.state = .established ∧ link.dstDpid = b ∧ link.dstPort = q := by
  simp [linkTo, Option.bind_eq_some_iff]

theorem hasSwitch_of_linkTo (h : tbl.linkTo dpid port = some (b, q)) : tbl.HasSwitch dpid := by
  obtain ⟨link, hlink, -⟩ := linkTo_eq_some.mp h
  exact hasSwitch_of_getLink hlink

theorem linkTo_setLink :
    (tbl.setLink dpid port neighbor).linkTo d p =
      if d = dpid ∧ p = port then
        if neighbor.state = .established then some (neighbor.dstDpid, neighbor.dstPort) else none
      else tbl.linkTo d p := by
  unfold linkTo
  rw [getLink_setLink]
  by_cases hkey : d = dpid ∧ p = port
  · rw [if_pos hkey, if_pos hkey, Option.bind_some]
  · rw [if_neg hkey, if_neg hkey]

theorem addSwitch_getLink : (tbl.addSwitch dpid).2.getLink d p = tbl.getLink d p := by
  unfold addSwitch
  split_ifs
  · rfl
  · split
    · next hnone =>
      unfold getLink
      rw [getLinks_setLinks]
      split_ifs with hd
      · simp [hd, hnone]
      · rfl
    · rfl

theorem addSwitch_linkTo : (tbl.addSwitch dpid).2.linkTo d p = tbl.linkTo d p := by
  unfold linkTo
  rw [addSwitch_getLink]

theorem addSwitch_hasSwitch : (tbl.addSwitch dpid).2.HasSwitch d ↔ d = dpid ∧ dpid ≠ 0 ∨ tbl.HasSwitch d := by
  unfold addSwitch
  split_ifs with hzero
  · simp [hzero]
  · split
    · unfold HasSwitch
      rw [getLinks_setLinks]
      split_ifs with hd <;> simp [hd, hzero]
    · next links hlinks =>
      have hhas : tbl.HasSwitch dpid := by
        rw [HasSwitch, hlinks]
        rfl
      constructor
      · exact .inr
      · rintro (⟨rfl, -⟩ | h)
        · exact hhas
        · exact h

theorem deleteSwitch_getLinks (hdpid : dpid ≠ 0) :
    (tbl.deleteSwitch dpid).neighbors.getLinks d = if d = dpid then none else tbl.getLinks d := by
  unfold deleteSwitch
  rw [if_neg hdpid]
  split
  · next hnone =>
    split_ifs with hd
    · rw [hd, hnone]
    · rfl
  · exact getLinks_eraseLinks

theorem deleteSwitch_linkTo (hdpid : dpid ≠ 0) :
    (tbl.deleteSwitch dpid).neighbors.linkTo d p = if d = dpid then none else tbl.linkTo d p := by
  unfold linkTo getLink
  rw [deleteSwitch_getLinks hdpid]
  split_ifs <;> rfl

/-- An update enters the link, unless the same one is in a state the update does not change. -/
theorem updateLink_cases (tbl : NeighborTable) (port neighPort : UINT4) (hdpid : dpid ≠ 0) (hneigh : neighDpid ≠ 0) :
    (∃ neighbor event, (tbl.updateLink dpid port neighDpid neighPort).2 =
        ⟨tbl.setLink dpid port neighbor, [event], [⟨.established, dpid, port, neighDpid, neighPort, 0⟩]⟩ ∧
        neighbor.state = .established ∧ neighbor.dstDpid = neighDpid ∧ neighbor.dstPort = neighPort ∧
        ((neighbor.srcDpid, neighbor.srcPort) = (dpid, port) ∨
          ∃ old, tbl.getLink dpid port = some old ∧ neighbor = { old with state := .established })) ∨
      ∃ neighbor, tbl.getLink dpid port = some neighbor ∧ neighbor.dstDpid = neighDpid ∧ neighbor.dstPort = neighPort ∧
        neighbor.state ≠ .unalive ∧ neighbor.state ≠ .deleted ∧
        (tbl.updateLink dpid port neighDpid neighPort).2 = ⟨tbl, [], []⟩ := by
  unfold updateLink
  rw [if_neg (by simp [hdpid, hneigh])]
  dsimp only
  cases hlink : tbl.getLink dpid port with
  | none => exact .inl ⟨_, _, rfl, rfl, rfl, rfl, .inl rfl⟩
  | some neighbor =>
    dsimp only
    split_ifs with hpeer hunalive hdeleted
    · exact .inl ⟨_, _, rfl, rfl, rfl, rfl, .inl rfl⟩
    · obtain ⟨hd, hp⟩ : neighDpid = neighbor.dstDpid ∧ neighPort = neighbor.dstPort := by simpa using hpeer
      exact .inl ⟨_, _, rfl, rfl, hd.symm, hp.symm, .inr ⟨neighbor, rfl, rfl⟩⟩
    · obtain ⟨hd, hp⟩ : neighDpid = neighbor.dstDpid ∧ neighPort = neighbor.dstPort := by simpa using hpeer
      exact .inl ⟨_, _, rfl, rfl, hd.symm, hp.symm, .inr ⟨neighbor, rfl, rfl⟩⟩
    · obtain ⟨hd, hp⟩ : neighDpid = neighbor.dstDpid ∧ neighPort = neighbor.dstPort := by simpa using hpeer
      exact .inr ⟨neighbor, rfl, hd.symm, hp.symm, hunalive, hdeleted, rfl⟩

theorem deleteLink_cases (tbl : NeighborTable) (dpid : UINT8) (port : UINT4) :
    (∃ neighbor event, tbl.getLink dpid port = some neighbor ∧ dpid ≠ 0 ∧ tbl.deleteLink dpid port =
        ⟨tbl.setLink dpid port { neighbor with state := .deleted }, [event], [{ neighbor with state := .deleted }]⟩) ∨
      (dpid ≠ 0 → tbl.linkTo dpid port = none) ∧ tbl.deleteLink dpid port = ⟨tbl, [], []⟩ := by
  unfold deleteLink
  split_ifs with hdpid
  · exact .inr ⟨fun h => absurd hdpid h, rfl⟩
  · cases hlink : tbl.getLink dpid port with
    | none => exact .inr ⟨fun _ => by simp [linkTo, hlink], rfl⟩
    | some neighbor =>
      dsimp only
      by_cases hstate : neighbor.state = .deleted
      · rw [if_neg (not_not.mpr hstate)]
        exact .inr ⟨fun _ => by simp [linkTo, hlink, hstate], rfl⟩
      · rw [if_pos hstate]
        exact .inl ⟨neighbor, _, rfl, hdpid, rfl⟩

theorem unAliveLink_cases (tbl : NeighborTable) (dpid : UINT8) (port : UINT4) :
    (∃ neighbor event, tbl.getLink dpid port = some neighbor ∧ tbl.unAliveLink dpid port =
        ⟨tbl.setLink dpid port { neighbor with state := .unalive }, [event], []⟩) ∨
      tbl.getLink dpid port = none ∧ tbl.unAliveLink dpid port = ⟨tbl, [], []⟩ := by
  unfold unAliveLink
  cases hlink : tbl.getLink dpid port with
  | none => exact .inr ⟨rfl, rfl⟩
  | some neighbor => exact .inl ⟨neighbor, _, rfl, rfl⟩

/-- The ESTABLISHED links, each from the port it is stored under to the port it leads to. -/
def establishedLinks (tbl : NeighborTable) : List ((UINT8 × UINT4) × (UINT8 × UINT4)) :=
  tbl.entries.filterMap fun e => (tbl.linkTo e.1 e.2.1).map fun peer => ((e.1, e.2.1), peer)

theorem mem_establishedLinks : ((dpid, port), (b, q)) ∈ tbl.establishedLinks ↔ tbl.linkTo dpid port = some (b, q) := by
  unfold establishedLinks
  rw [List.mem_filterMap]
  constructor
  · rintro ⟨⟨d, p, n⟩, -, hmap⟩
    obtain ⟨peer, hpeer, heq⟩ := Option.map_eq_some_iff.mp hmap
    cases heq
    exact hpeer
  · intro hpeer
    obtain ⟨link, hlink, -⟩ := linkTo_eq_some.mp hpeer
    refine ⟨(dpid, port, link), mem_entries_of_getLink hlink, ?_⟩
    dsimp only
    rw [hpeer]
    rfl

end NeighborTable

end DCFabric
