import DCFabric.BncTypes

namespace DCFabric

inductive SwNeighborState
  | none | established | deleted | unalive
  | other (state : INT4)
  deriving DecidableEq

structure Neighbor where
  state : SwNeighborState
  srcDpid : UINT8
  srcPort : UINT4
  dstDpid : UINT8
  dstPort : UINT4
  weight : UINT8
  deriving DecidableEq

abbrev CNeighbors := Std.TreeMap UINT4 Neighbor

abbrev CNeighborMap := Std.TreeMap UINT8 CNeighbors

abbrev neighborMapGranularity : ℕ := 8

/-- `m_neighbors`: the switches are spread over the maps by their dpid. -/
abbrev NeighborTable := Fin neighborMapGranularity → CNeighborMap

def mapPos (dpid : UINT8) : Fin neighborMapGranularity :=
  Fin.ofNat neighborMapGranularity (dpid &&& 0xFFFF).toNat

namespace NeighborTable

def getLinks (tbl : NeighborTable) (dpid : UINT8) : Option CNeighbors :=
  (tbl (mapPos dpid))[dpid]?

def getLink (tbl : NeighborTable) (dpid : UINT8) (port : UINT4) : Option Neighbor :=
  (tbl.getLinks dpid).bind (fun links => links[port]?)

/-- Every entry of the table with the dpid and the port it is stored under. -/
def entries (tbl : NeighborTable) : List (UINT8 × UINT4 × Neighbor) :=
  (List.finRange neighborMapGranularity).flatMap fun i =>
    (tbl i).toList.flatMap fun sw => sw.2.toList.map fun link => (sw.1, link)

def recoverLink (tbl : NeighborTable) (neigh : Neighbor) : INT4 × NeighborTable :=
  if neigh.srcDpid = 0 ∨ neigh.dstDpid = 0 then (BNC_ERR, tbl)
  else
    let pos := mapPos neigh.srcDpid
    let portMap := ((tbl pos)[neigh.srcDpid]?).getD ∅
    (BNC_OK, Function.update tbl pos
      ((tbl pos).insert neigh.srcDpid (portMap.insert neigh.srcPort neigh)))

def ofLinks (links : List Neighbor) : NeighborTable :=
  links.foldl (fun tbl neigh => (tbl.recoverLink neigh).2) fun _ => ∅

theorem getLink_eq_some {tbl : NeighborTable} {dpid : UINT8} {port : UINT4} {n : Neighbor} :
    tbl.getLink dpid port = some n ↔
      ∃ links, tbl.getLinks dpid = some links ∧ (port, n) ∈ links.toList := by
  simp only [getLink, Option.bind_eq_some_iff, Std.TreeMap.mem_toList_iff_getElem?_eq_some]

theorem mem_entries_of_getLink {tbl : NeighborTable} {dpid : UINT8} {port : UINT4} {n : Neighbor}
    (h : tbl.getLink dpid port = some n) : (dpid, port, n) ∈ tbl.entries := by
  obtain ⟨links, hl, hm⟩ := getLink_eq_some.mp h
  refine List.mem_flatMap.mpr ⟨mapPos dpid, List.mem_finRange _, ?_⟩
  refine List.mem_flatMap.mpr ⟨(dpid, links), ?_, List.mem_map.mpr ⟨_, hm, rfl⟩⟩
  exact Std.TreeMap.mem_toList_iff_getElem?_eq_some.mpr hl

/-- The entry of one of the maps, whether or not it is the map of the dpid. -/
def linkAt (tbl : NeighborTable) (i : Fin neighborMapGranularity) (dpid : UINT8) (port : UINT4) : Option Neighbor :=
  (tbl i)[dpid]?.bind fun links => links[port]?

theorem linkAt_eq_some {tbl : NeighborTable} {i : Fin neighborMapGranularity} {dpid : UINT8} {port : UINT4}
    {n : Neighbor} : tbl.linkAt i dpid port = some n ↔ ∃ links, (tbl i)[dpid]? = some links ∧ links[port]? = some n :=
  Option.bind_eq_some_iff

theorem mem_entries {tbl : NeighborTable} {dpid : UINT8} {port : UINT4} {n : Neighbor} :
    (dpid, port, n) ∈ tbl.entries ↔ ∃ i, tbl.linkAt i dpid port = some n := by
  simp only [entries, List.mem_flatMap, List.mem_finRange, true_and, linkAt_eq_some]
  refine exists_congr fun i => ?_
  constructor
  · rintro ⟨⟨d, links⟩, hsw, hlink⟩
    obtain ⟨⟨p, n'⟩, hmem, heq⟩ := List.mem_map.mp hlink
    cases heq
    exact ⟨links, Std.TreeMap.mem_toList_iff_getElem?_eq_some.mp hsw,
      Std.TreeMap.mem_toList_iff_getElem?_eq_some.mp hmem⟩
  · rintro ⟨links, hsw, hlink⟩
    refine ⟨(dpid, links), Std.TreeMap.mem_toList_iff_getElem?_eq_some.mpr hsw, ?_⟩
    exact List.mem_map.mpr ⟨(port, n), Std.TreeMap.mem_toList_iff_getElem?_eq_some.mpr hlink, rfl⟩

theorem linkAt_recoverLink {tbl : NeighborTable} {i : Fin neighborMapGranularity} {dpid : UINT8} {port : UINT4}
    {n : Neighbor} (hsrc : n.srcDpid ≠ 0) (hdst : n.dstDpid ≠ 0) :
    (tbl.recoverLink n).2.linkAt i dpid port =
      if i = mapPos n.srcDpid ∧ dpid = n.srcDpid ∧ port = n.srcPort then some n else tbl.linkAt i dpid port := by
  rw [recoverLink, if_neg (by simp [hsrc, hdst])]
  by_cases hi : i = mapPos n.srcDpid
  · subst hi
    by_cases hd : dpid = n.srcDpid
    · subst hd
      by_cases hp : port = n.srcPort
      · simp [linkAt, hp]
      · cases hl : (tbl (mapPos n.srcDpid))[n.srcDpid]? <;>
          simp [linkAt, hl, hp, Std.TreeMap.getElem?_insert, Ne.symm hp]
    · simp [linkAt, Std.TreeMap.getElem?_insert, hd, Ne.symm hd]
  · simp [linkAt, hi]

end NeighborTable

end DCFabric
