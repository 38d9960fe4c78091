import DCFabric.LinkUpdates

namespace DCFabric

namespace NeighborTable

variable {tbl : NeighborTable} {i : Fin neighborMapGranularity} {dpid d : UINT8} {port p : UINT4}
  {links : CNeighbors} {neighbor : Neighbor}

/-- Every link is stored in the map of its own switch, under its own port. -/
def Keyed (tbl : NeighborTable) : Prop :=
  ∀ i dpid port n, tbl.linkAt i dpid port = some n → i = mapPos dpid ∧ n.srcDpid = dpid ∧ n.srcPort = port

theorem Keyed.getLink (h : Keyed tbl) (hlink : tbl.getLink dpid port = some neighbor) :
    neighbor.srcDpid = dpid ∧ neighbor.srcPort = port := (h (mapPos dpid) dpid port neighbor hlink).2

theorem Keyed.getLink_of_mem (h : Keyed tbl) (hmem : (dpid, port, neighbor) ∈ tbl.entries) :
    tbl.getLink neighbor.srcDpid neighbor.srcPort = some neighbor := by
  obtain ⟨i, hlink⟩ := mem_entries.mp hmem
  obtain ⟨rfl, rfl, rfl⟩ := h i dpid port neighbor hlink
  exact hlink

theorem Keyed.empty : Keyed fun _ => ∅ := by
  intro i dpid port n hlink
  simp [linkAt] at hlink

theorem linkAt_setLinks : (tbl.setLinks dpid links).linkAt i d p =
    if i = mapPos dpid ∧ d = dpid then links[p]? else tbl.linkAt i d p := by
  unfold linkAt setLinks
  by_cases hi : i = mapPos dpid
  · subst hi
    by_cases hd : d = dpid
    · simp [hd]
    · simp [hd, Std.TreeMap.getElem?_insert, Ne.symm hd]
  · rw [Function.update_of_ne hi, if_neg fun h => hi h.1]

theorem linkAt_eraseLinks : (tbl.eraseLinks dpid).linkAt i d p =
    if i = mapPos dpid ∧ d = dpid then none else tbl.linkAt i d p := by
  unfold linkAt eraseLinks
  by_cases hi : i = mapPos dpid
  · subst hi
    by_cases hd : d = dpid
    · simp [hd]
    · simp [hd, Std.TreeMap.getElem?_erase, Ne.symm hd]
  · rw [Function.update_of_ne hi, if_neg fun h => hi h.1]

theorem Keyed.setLinks (h : Keyed tbl)
    (hlinks : ∀ (p : UINT4) (n : Neighbor), links[p]? = some n → n.srcDpid = dpid ∧ n.srcPort = p) :
    Keyed (tbl.setLinks dpid links) := by
  intro i d p n hlink
  rw [linkAt_setLinks] at hlink
  split_ifs at hlink with hkey
  · obtain ⟨hsrc, hport⟩ := hlinks p n hlink
    exact ⟨hkey.2 ▸ hkey.1, hsrc.trans hkey.2.symm, hport⟩
  · exact h i d p n hlink

theorem Keyed.setLink (h : Keyed tbl) (hsrc : neighbor.srcDpid = dpid ∧ neighbor.srcPort = port) :
    Keyed (tbl.setLink dpid port neighbor) := by
  apply h.setLinks
  intro p n hlink
  rw [Std.TreeMap.getElem?_insert] at hlink
  split_ifs at hlink with hp
  · obtain rfl := Option.some.inj hlink
    exact ⟨hsrc.1, hsrc.2.trans (Std.LawfulEqCmp.eq_of_compare hp)⟩
  · cases hold : tbl.getLinks dpid with
    | none => simp [hold] at hlink
    | some old =>
      rw [hold, Option.getD_some] at hlink
      exact h.getLink (by rw [NeighborTable.getLink, hold, Option.bind_some, hlink])

theorem Keyed.addSwitch (h : Keyed tbl) : Keyed (tbl.addSwitch dpid).2 := by
  unfold NeighborTable.addSwitch
  split_ifs with hdpid
  · exact h
  · split
    · exact h.setLinks fun p n hlink => by simp at hlink
    · exact h

theorem Keyed.deleteSwitch (h : Keyed tbl) : Keyed (tbl.deleteSwitch dpid).neighbors := by
  unfold NeighborTable.deleteSwitch
  split_ifs with hdpid
  · exact h
  · split
    · exact h
    · intro i d p n hlink
      rw [linkAt_eraseLinks] at hlink
      split_ifs at hlink with hkey
      exact h i d p n hlink

theorem Keyed.updateLink (h : Keyed tbl) {neighDpid : UINT8} {neighPort : UINT4} :
    Keyed (tbl.updateLink dpid port neighDpid neighPort).2.neighbors := by
  by_cases hzero : dpid = 0 ∨ neighDpid = 0
  · rw [NeighborTable.updateLink, if_pos hzero]
    exact h
  · obtain ⟨hdpid, hneigh⟩ := not_or.mp hzero
    rcases updateLink_cases tbl port neighPort hdpid hneigh with ⟨neighbor, event, heq, -, -, -, hsrc⟩ |
      ⟨-, -, -, -, -, -, heq⟩
    · rw [heq]
      apply h.setLink
      rcases hsrc with hsrc | ⟨old, hold, rfl⟩
      · exact Prod.mk.inj hsrc
      · exact (h.getLink hold :)
    · rw [heq]
      exact h

theorem Keyed.deleteLink (h : Keyed tbl) : Keyed (tbl.deleteLink dpid port).neighbors := by
  rcases deleteLink_cases tbl dpid port with ⟨neighbor, event, hold, -, heq⟩ | ⟨-, heq⟩
  · rw [heq]
    exact h.setLink (h.getLink hold :)
  · rw [heq]
    exact h

theorem Keyed.unAliveLink (h : Keyed tbl) : Keyed (tbl.unAliveLink dpid port).neighbors := by
  rcases unAliveLink_cases tbl dpid port with ⟨neighbor, event, hold, heq⟩ | ⟨-, heq⟩
  · rw [heq]
    exact h.setLink (h.getLink hold :)
  · rw [heq]
    exact h

theorem Keyed.recoverLink (h : Keyed tbl) : Keyed (tbl.recoverLink neighbor).2 := by
  unfold NeighborTable.recoverLink
  split_ifs with hzero
  · exact h
  · exact Keyed.setLink h ⟨rfl, rfl⟩

/-- The tables the operations on switches and links come to. -/
inductive Built : NeighborTable → Prop
  | empty : Built fun _ => ∅
  | addSwitch {tbl : NeighborTable} (dpid : UINT8) (h : Built tbl) : Built (tbl.addSwitch dpid).2
  | deleteSwitch {tbl : NeighborTable} (dpid : UINT8) (h : Built tbl) : Built (tbl.deleteSwitch dpid).neighbors
  | updateLink {tbl : NeighborTable} (dpid : UINT8) (port : UINT4) (neighDpid : UINT8) (neighPort : UINT4)
    (h : Built tbl) : Built (tbl.updateLink dpid port neighDpid neighPort).2.neighbors
  | deleteLink {tbl : NeighborTable} (dpid : UINT8) (port : UINT4) (h : Built tbl) :
    Built (tbl.deleteLink dpid port).neighbors
  | unAliveLink {tbl : NeighborTable} (dpid : UINT8) (port : UINT4) (h : Built tbl) :
    Built (tbl.unAliveLink dpid port).neighbors
  | recoverLink {tbl : NeighborTable} (neighbor : Neighbor) (h : Built tbl) : Built (tbl.recoverLink neighbor).2

theorem Built.keyed (h : Built tbl) : Keyed tbl := by
  induction h with
  | empty => exact .empty
  | addSwitch dpid _ ih => exact ih.addSwitch
  | deleteSwitch dpid _ ih => exact ih.deleteSwitch
  | updateLink dpid port neighDpid neighPort _ ih => exact ih.updateLink
  | deleteLink dpid port _ ih => exact ih.deleteLink
  | unAliveLink dpid port _ ih => exact ih.unAliveLink
  | recoverLink neighbor _ ih => exact ih.recoverLink

theorem ofLinks_keyed (links : List Neighbor) : Keyed (ofLinks links) := by
  apply List.foldlRecOn (motive := Keyed) links
  · exact .empty
  · exact fun tbl h neigh _ => h.recoverLink

end NeighborTable

end DCFabric
