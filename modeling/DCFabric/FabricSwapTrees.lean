import DCFabric.FabricSwapSearch
import DCFabric.ListUpdates
import DCFabric.SearchTrees

namespace DCFabric

open BreadthFirst ListUpdates LoopRuns SearchTrees

def FabricPath.outport (path : FabricPath) : Option UINT4 := path.node_list.head?.bind (·.port)

namespace FabricNet

variable (net : FabricNet) (total : List FabricSwNode) (d : ℕ) (tag : UINT4)

/-- The search that goes from a switch over the entries of `neighbor` to the switches that are known. -/
def swapSearch : Search ℕ FabricPort FabricPath where
  out v := (net.ports v).filter fun e => e.bValid ∧ e.port.isSome ∧ ∃ node ∈ total, e.sw = some node.sw
  target e := e.sw.getD 0
  extend path e := insert_fabric_node_to_path (copy_fabric_path path) (create_fabric_path_node (e.sw.getD 0) e.port)
  key path := path.src
  trail path := path.node_list.map (·.sw)
  key_extend _ _ := rfl
  trail_extend path e := by
    simp [insert_fabric_node_to_path, copy_fabric_path, create_fabric_path_node]

/-- A valid entry that names a switch names its port. -/
def Ported : Prop := ∀ v, ∀ e ∈ net.ports v, e.bValid → e.sw.isSome → e.port.isSome

/-- The switches of a search have dpids of their own. -/
def Identified : Prop :=
  ∀ a b, (a = d ∨ ∃ node ∈ total, node.sw = a) → (b = d ∨ ∃ node ∈ total, node.sw = b) → net.dpid a = net.dpid b → a = b

/-- An entry of `b` names the known switch `a`. -/
def Link (b a : ℕ) : Prop := (∃ node ∈ total, node.sw = a) ∧ ∃ e ∈ net.ports b, e.bValid ∧ e.sw = some a

/-- A chain of switches from the source of the path to `d`, each with the port that the entry of the next one names. -/
structure IsPath (path : FabricPath) : Prop where
  dst : path.dst = d
  src : path.node_list.head?.map (·.sw) = some path.src
  last : path.node_list.getLast? = some ⟨d, none⟩
  simple : (path.node_list.map (·.sw)).Nodup
  chain : path.node_list.IsChain fun x y => (∃ node ∈ total, node.sw = x.sw) ∧
    ∃ e ∈ net.ports y.sw, e.bValid ∧ e.sw = some x.sw ∧ e.port.isSome ∧ e.port = x.port
  len : path.len = UInt32.ofNat (path.node_list.length - 1)

/-- One path for each of the switches from which links over known switches lead to `d`, and no other. -/
structure PathsTo (paths : List FabricPath) : Prop where
  one : (paths.map (·.src)).Nodup
  reached : ∀ v, (∃ path ∈ paths, path.src = v) ↔ Relation.ReflTransGen (net.Link total) d v
  path : ∀ path ∈ paths, net.IsPath total d path

def firstFlow (path : FabricPath) : List TagFlow :=
  path.outport.elim [] fun port_no => net.install_fabric_first_flow path.src port_no tag

def middleFlow (path : FabricPath) : List TagFlow :=
  path.outport.elim [] fun port_no => net.install_fabric_middle_flow path.src port_no tag

/-- The flows that were installed for the paths of a search; those of the paths that satisfy `owed` may be missing at
the switches that others are attached to. -/
structure Installed (items : List FabricPath) (owed : FabricPath → Prop) (flows : List TagFlow) : Prop where
  sound : ∀ f ∈ flows, ∃ path ∈ items, f ∈ net.firstFlow tag path ∨ f ∈ net.middleFlow tag path
  first : ∀ path ∈ items, (∀ node ∈ total, node.sw = path.src → node.tag ≠ 0) → net.firstFlow tag path ⊆ flows
  middle : ∀ path ∈ items, ∀ e ∈ (net.swapSearch total).out path.src, (net.swapSearch total).extend path e ∈ items →
    owed path ∨ net.middleFlow tag path ⊆ flows

end FabricNet

namespace FabricSearch

variable (net : FabricNet) (total : List FabricSwNode) (d : ℕ) (tag : UINT4) (base : List TagFlow)

/-- All the paths of a search, with the one that is expanded. -/
def items (s : FabricSearch) (expanded : List FabricPath) : List FabricPath :=
  expanded ++ (s.current_list ++ s.ret_list)

structure Inv (s : FabricSearch) (expanded : List FabricPath) (owed : FabricPath → Prop) : Prop where
  tree : Tree (net.swapSearch total) (create_fabric_path d none) (s.items expanded)
  marked : ∀ v, v ∈ s.marked_list.map (·.sw) ↔ v ∈ (s.items expanded).map (·.src)
  waiting : s.sw_list = total.filter (·.sw ∉ (s.items expanded).map (·.src))
  flows : ∃ new, s.flows = base ++ new ∧ net.Installed total tag (s.items expanded) owed new

end FabricSearch

section

variable {net : FabricNet} {total : List FabricSwNode} {d : ℕ} {tag : UINT4} {base : List TagFlow}
  {s s' : FabricSearch} {expanded : List FabricPath} {owed owed' : FabricPath → Prop}
  {path : FabricPath} {node : FabricSwNode} {e : FabricPort} {v m : ℕ}

namespace FabricNet

theorem mem_out : e ∈ (net.swapSearch total).out v ↔ e ∈ net.ports v ∧ e.bValid ∧ e.port.isSome ∧
    ∃ node ∈ total, e.sw = some node.sw := by
  simp [swapSearch]

theorem key_eq (path : FabricPath) : (net.swapSearch total).key path = path.src := rfl

theorem outport_extend : ((net.swapSearch total).extend path e).outport = e.port := rfl

theorem src_extend (h : e.sw = some v) : ((net.swapSearch total).extend path e).src = v := by
  simp [swapSearch, insert_fabric_node_to_path, create_fabric_path_node, h]

theorem root_trail : (net.swapSearch total).trail (create_fabric_path d none) = [d] := rfl

/-- A path begins with its source. -/
theorem head_of_built (h : (net.swapSearch total).Built (create_fabric_path d none) path) :
    path.node_list.head? = some ⟨path.src, path.outport⟩ := by
  cases h with
  | root => rfl
  | extend built he => rfl

theorem minNeighbor_some {w : FabricWeights} {marked : List FabricSwNode} {weight : UINT8}
    (h : (net.minNeighbor w marked v weight).1 = some (m, e)) :
    (∃ node ∈ marked, node.sw = m) ∧ e ∈ net.ports m ∧ e.bValid ∧ e.sw = some v := by
  let P (best : Option (ℕ × FabricPort) × UINT8) : Prop := ∀ m e, best.1 = some (m, e) →
    (∃ node ∈ marked, node.sw = m) ∧ e ∈ net.ports m ∧ e.bValid ∧ e.sw = some v
  have hmin : P (net.minNeighbor w marked v weight) := by
    apply foldl_invariant (P := P)
    · intro best node hnode hbest
      apply foldl_invariant (P := P)
      · rintro best ⟨entry, i⟩ hentry hbest
        dsimp only
        split_ifs with hv hlt
        · intro m e heq
          obtain ⟨rfl, rfl⟩ := Prod.mk.inj (Option.some.inj heq)
          exact ⟨⟨node, hnode, rfl⟩, (List.mem_zipIdx' hentry).2 ▸ List.getElem_mem _, hv⟩
        · exact hbest
        · exact hbest
      · exact hbest
    · intro m e heq
      cases heq
  exact hmin m e h

theorem extend_node_list (net : FabricNet) (total : List FabricSwNode) (path : FabricPath) (e : FabricPort) :
    ((net.swapSearch total).extend path e).node_list = ⟨e.sw.getD 0, e.port⟩ :: path.node_list := by
  simp [swapSearch, insert_fabric_node_to_path, copy_fabric_path, create_fabric_path_node]

/-- An item of the search is attached to one item only. -/
theorem eq_of_extend {items : List FabricPath} {r : FabricPath} {e' : FabricPort}
    (h : Tree (net.swapSearch total) (create_fabric_path d none) items) (hpath : path ∈ items) (hr : r ∈ items)
    (heq : (net.swapSearch total).extend path e' = (net.swapSearch total).extend r e) : path = r := by
  have hlist : path.node_list = r.node_list := by
    have hcons := congrArg FabricPath.node_list heq
    rw [extend_node_list, extend_node_list] at hcons
    exact (List.cons.inj hcons).2
  have hhead : some (FabricPathNode.mk path.src path.outport) = some ⟨r.src, r.outport⟩ := by
    rw [← head_of_built (h.built path hpath), ← head_of_built (h.built r hr), hlist]
  exact h.key_inj hpath hr (congrArg FabricPathNode.sw (Option.some.inj hhead))

theorem Installed.mono {items : List FabricPath} {new : List TagFlow} (h : net.Installed total tag items owed new)
    (howed : ∀ path, owed path → path.outport = none ∨ owed' path) : net.Installed total tag items owed' new where
  sound := h.sound
  first := h.first
  middle := by
    intro path hpath e he hext
    rcases h.middle path hpath e he hext with ho | hm
    · rcases howed path ho with hnone | ho
      · right
        simp [middleFlow, hnone]
      · exact .inl ho
    · exact .inr hm

theorem Installed.perm {items items' : List FabricPath} {new : List TagFlow}
    (h : net.Installed total tag items owed new) (hp : items.Perm items') :
    net.Installed total tag items' owed new where
  sound := by
    intro f hf
    obtain ⟨path, hpath, hflow⟩ := h.sound f hf
    exact ⟨path, hp.mem_iff.mp hpath, hflow⟩
  first := fun path hpath => h.first path (hp.mem_iff.mpr hpath)
  middle := fun path hpath e he hext => h.middle path (hp.mem_iff.mpr hpath) e he (hp.mem_iff.mpr hext)

/-- The middle flow at the switch that another one was attached to. -/
theorem Installed.owe {items : List FabricPath} {new : List TagFlow} {r : FabricPath} (hr : r ∈ items)
    (h : net.Installed total tag items (fun path => owed path ∨ path = r) new) :
    net.Installed total tag items owed (new ++ net.middleFlow tag r) where
  sound := by
    intro f hf
    rcases List.mem_append.mp hf with hf | hf
    · exact h.sound f hf
    · exact ⟨r, hr, .inr hf⟩
  first := fun path hpath htag => List.subset_append_of_subset_left _ (h.first path hpath htag)
  middle := by
    intro path hpath e he hext
    rcases h.middle path hpath e he hext with (ho | rfl) | hm
    · exact .inl ho
    · exact .inr (List.subset_append_right _ _)
    · exact .inr (List.subset_append_of_subset_left _ hm)

theorem Installed.attach {items : List FabricPath} {new : List TagFlow} {r : FabricPath}
    (h : net.Installed total tag items owed new)
    (htree : Tree (net.swapSearch total) (create_fabric_path d none) items) (hr : r ∈ items) (hnode : node ∈ total)
    (hsw : e.sw = some node.sw)
    (hnew : node.sw ∉ items.map (·.src)) :
    net.Installed total tag ((net.swapSearch total).extend r e :: items) (fun path => owed path ∨ path = r)
      (new ++ if node.tag ≠ 0 then net.firstFlow tag ((net.swapSearch total).extend r e) else []) where
  sound := by
    intro f hf
    rcases List.mem_append.mp hf with hf | hf
    · obtain ⟨path, hpath, hflow⟩ := h.sound f hf
      exact ⟨path, List.mem_cons_of_mem _ hpath, hflow⟩
    · split_ifs at hf with htag
      · exact ⟨_, List.mem_cons_self, .inl hf⟩
      · cases hf
  first := by
    rw [List.forall_mem_cons]
    constructor
    · intro htag
      rw [src_extend hsw] at htag
      rw [if_pos (htag node hnode rfl)]
      exact List.subset_append_right _ _
    · exact fun path hpath htag => List.subset_append_of_subset_left _ (h.first path hpath htag)
  middle := by
    have hpast (path : FabricPath) (hpath : path ∈ items) (e' : FabricPort)
        (he' : e' ∈ (net.swapSearch total).out path.src)
        (hext : (net.swapSearch total).extend path e' ∈ (net.swapSearch total).extend r e :: items) :
        (owed path ∨ path = r) ∨ net.middleFlow tag path ⊆ new := by
      rcases List.mem_cons.mp hext with heq | hext
      · exact .inl (.inr (eq_of_extend htree hpath hr heq))
      · exact (h.middle path hpath e' he' hext).imp_left .inl
    rw [List.forall_mem_cons]
    constructor
    · intro e' he' hext
      -- nothing is attached to the new path yet
      exfalso
      rcases List.mem_cons.mp hext with heq | hext
      · have hlen := congrArg (List.length ∘ FabricPath.node_list) heq
        simp [extend_node_list] at hlen
      · apply hnew
        have hmem := (htree.simple _ hext).2 node.sw
        rw [(net.swapSearch total).trail_extend, (net.swapSearch total).trail_extend] at hmem
        apply hmem
        simp [swapSearch, hsw]
    · intro path hpath e' he' hext
      exact (hpast path hpath e' he' hext).imp_right fun hm => List.subset_append_of_subset_left _ hm

theorem attach_eq (net : FabricNet) (total : List FabricSwNode) (tag : UINT4) (sw_inc path_inc : UINT8)
    (s : FabricSearch) (sw_list : List FabricSwNode) (m : ℕ) (r : FabricPath)
    (hsw : e.sw = some node.sw) (hport : e.port.isSome) :
    ∃ weights, net.attach sw_inc path_inc { s with sw_list := sw_list } m node.sw node e.port r tag = some { s with
      weights := weights
      sw_list := sw_list
      marked_list := node :: s.marked_list
      current_list := s.current_list ++ [(net.swapSearch total).extend r e]
      flows := s.flows ++ if node.tag ≠ 0 then net.firstFlow tag ((net.swapSearch total).extend r e) else [] } := by
  obtain ⟨port_no, hport⟩ := Option.isSome_iff_exists.mp hport
  have hext : (net.swapSearch total).extend r e =
      insert_fabric_node_to_path (copy_fabric_path r) (create_fabric_path_node node.sw e.port) := by
    simp only [swapSearch, hsw, Option.getD_some]
  have hfirst : net.firstFlow tag ((net.swapSearch total).extend r e) =
      net.install_fabric_first_flow node.sw port_no tag := by
    rw [firstFlow, outport_extend, hport, src_extend hsw]
    rfl
  refine ⟨net.upadte_fabric_neighbor_weight sw_inc path_inc s.weights m node.sw, ?_⟩
  rw [hfirst, hext, attach]
  by_cases htag : node.tag = 0
  · simp [htag]
  · simp [htag, hport]

end FabricNet

theorem remove_waiting (hnodup : (total.map (·.sw)).Nodup) (keys : List ℕ) (v : ℕ) :
    (remove_fabric_sw_list_by_sw (total.filter (·.sw ∉ keys)) v).2 = total.filter (·.sw ∉ v :: keys) := by
  have hpair : (total.filter (·.sw ∉ keys)).Pairwise fun a b => ¬ (decide (a.sw = v) ∧ decide (b.sw = v)) := by
    apply List.Pairwise.filter
    refine (List.pairwise_map.mp hnodup).imp ?_
    intro a b hab hv
    simp only [decide_eq_true_eq] at hv
    exact hab (hv.1.trans hv.2.symm)
  rw [remove_fabric_sw_list_by_sw, eraseP_eq_filter hpair, List.filter_filter]
  apply List.filter_congr
  intro node hnode
  simp

theorem remove_some {keys : List ℕ} (h : (remove_fabric_sw_list_by_sw (total.filter (·.sw ∉ keys)) v).1 = some node) :
    node ∈ total ∧ node.sw = v ∧ v ∉ keys := by
  have hmem := List.mem_filter.mp (List.mem_of_find?_eq_some h)
  have hsw : node.sw = v := by simpa using List.find?_some h
  refine ⟨hmem.1, hsw, ?_⟩
  rw [← hsw]
  simpa using hmem.2

theorem remove_none {keys : List ℕ} (h : (remove_fabric_sw_list_by_sw (total.filter (·.sw ∉ keys)) v).1 = none)
    (hv : ∃ node ∈ total, node.sw = v) : v ∈ keys := by
  obtain ⟨node, hnode, rfl⟩ := hv
  by_contra hkeys
  have hall := List.find?_eq_none.mp h node (List.mem_filter.mpr ⟨hnode, by simpa using hkeys⟩)
  simp at hall

namespace FabricSearch

theorem Inv.mono (h : s.Inv net total d tag base expanded owed)
    (howed : ∀ path, owed path → path.outport = none ∨ owed' path) : s.Inv net total d tag base expanded owed' where
  tree := h.tree
  marked := h.marked
  waiting := h.waiting
  flows := by
    obtain ⟨new, hflows, hnew⟩ := h.flows
    exact ⟨new, hflows, hnew.mono howed⟩

theorem Inv.owe {r : FabricPath} (h : s.Inv net total d tag base expanded fun path => owed path ∨ path = r)
    (hr : r ∈ s.items expanded) :
    { s with flows := s.flows ++ net.middleFlow tag r }.Inv net total d tag base expanded owed where
  tree := h.tree
  marked := h.marked
  waiting := h.waiting
  flows := by
    obtain ⟨new, hflows, hnew⟩ := h.flows
    refine ⟨new ++ net.middleFlow tag r, ?_, hnew.owe hr⟩
    rw [hflows, List.append_assoc]

/-- What a search keeps to and what it adds. -/
structure Grows (s s' : FabricSearch) (expanded : List FabricPath) : Prop where
  ret_list : s'.ret_list = s.ret_list
  keys : ∀ v ∈ (s.items expanded).map (·.src), v ∈ (s'.items expanded).map (·.src)

/-- A known switch that has no path yet is attached to a path that is there. -/
theorem Inv.attach (sw_inc path_inc : UINT8) (hnodup : (total.map (·.sw)).Nodup)
    (h : s.Inv net total d tag base expanded owed) {r : FabricPath} (hr : r ∈ s.items expanded) (he : e ∈ (net.swapSearch total).out r.src) (hsw : e.sw = some v)
    (hfound : (remove_fabric_sw_list_by_sw s.sw_list v).1 = some node) (m : ℕ) :
    ∃ s', net.attach sw_inc path_inc { s with sw_list := (remove_fabric_sw_list_by_sw s.sw_list v).2 } m v node e.port r
        tag = some s' ∧ s'.Inv net total d tag base expanded (fun path => owed path ∨ path = r) ∧
      s.Grows s' expanded ∧ v ∈ (s'.items expanded).map (·.src) ∧ r ∈ s'.items expanded := by
  have hwaiting := h.waiting
  rw [hwaiting] at hfound
  obtain ⟨hnode, rfl, hnew⟩ := remove_some hfound
  obtain ⟨weights, heq⟩ := FabricNet.attach_eq net total tag sw_inc path_inc s
    (remove_fabric_sw_list_by_sw s.sw_list node.sw).2 m r hsw (FabricNet.mem_out.mp he).2.2.1
  let x := (net.swapSearch total).extend r e
  have hperm : (x :: s.items expanded).Perm (expanded ++ (s.current_list ++ [x] ++ s.ret_list)) := by
    have hmiddle : (x :: (expanded ++ s.current_list ++ s.ret_list)).Perm
        (expanded ++ s.current_list ++ x :: s.ret_list) := List.perm_middle.symm
    simpa [items] using hmiddle
  have hkeys (v : ℕ) : v ∈ (expanded ++ (s.current_list ++ [x] ++ s.ret_list)).map (·.src) ↔
      v = node.sw ∨ v ∈ (s.items expanded).map (·.src) := by
    rw [← (hperm.map (·.src)).mem_iff, List.map_cons, List.mem_cons, FabricNet.src_extend hsw]
  refine ⟨_, heq, ⟨?_, ?_, ?_, ?_⟩, ⟨rfl, fun v hv => (hkeys v).mpr (.inr hv)⟩, (hkeys _).mpr (.inl rfl),
    hperm.mem_iff.mp (List.mem_cons_of_mem _ hr)⟩
  · refine (h.tree.attach hr he ?_).perm hperm
    simpa [FabricNet.swapSearch, hsw] using hnew
  · intro v
    rw [items, hkeys, ← h.marked, List.map_cons, List.mem_cons]
  · rw [hwaiting, remove_waiting hnodup]
    apply List.filter_congr
    intro other hother
    exact decide_eq_decide.mpr (not_congr (List.mem_cons.trans (hkeys other.sw).symm))
  · obtain ⟨new, hflows, hnew'⟩ := h.flows
    refine ⟨new ++ if node.tag ≠ 0 then net.firstFlow tag x else [], ?_, ?_⟩
    · rw [hflows, List.append_assoc]
    · exact (hnew'.attach h.tree hr hnode hsw hnew).perm hperm

theorem Grows.refl (s : FabricSearch) (expanded : List FabricPath) : s.Grows s expanded := ⟨rfl, fun _ hv => hv⟩

theorem Grows.trans {t : FabricSearch} (h : s.Grows s' expanded) (ht : s'.Grows t expanded) : s.Grows t expanded :=
  ⟨ht.ret_list.trans h.ret_list, fun v hv => ht.keys v (h.keys v hv)⟩

theorem Inv.known (h : s.Inv net total d tag base expanded owed) (hv : v ∈ (s.items expanded).map (·.src)) :
    v = d ∨ ∃ node ∈ total, node.sw = v := by
  obtain ⟨path, hpath, rfl⟩ := List.mem_map.mp hv
  rcases h.tree.parent path hpath with rfl | ⟨r, hr, e, he, rfl⟩
  · exact .inl rfl
  · obtain ⟨-, -, -, node, hnode, hsw⟩ := FabricNet.mem_out.mp he
    exact .inr ⟨node, hnode, (FabricNet.src_extend hsw).symm⟩

/-- The path that is looked up for a marked switch is the one that the search made for it. -/
theorem Inv.src_of_find (hid : net.Identified total d) (h : s.Inv net total d tag base expanded owed)
    (hm : ∃ node ∈ s.marked_list, node.sw = m) (hfind : (s.current_list.find? (net.dpid ·.src = net.dpid m)).or
      (s.ret_list.find? (net.dpid ·.src = net.dpid m)) = some path) : path ∈ s.items expanded ∧ path.src = m := by
  have hmem : path ∈ s.items expanded ∧ net.dpid path.src = net.dpid m := by
    rcases Option.or_eq_some_iff.mp hfind with hcur | ⟨-, hret⟩
    · refine ⟨?_, by simpa using List.find?_some hcur⟩
      exact List.mem_append_right _ (List.mem_append_left _ (List.mem_of_find?_eq_some hcur))
    · refine ⟨?_, by simpa using List.find?_some hret⟩
      exact List.mem_append_right _ (List.mem_append_right _ (List.mem_of_find?_eq_some hret))
  obtain ⟨node, hnode, rfl⟩ := hm
  refine ⟨hmem.1, hid _ _ (h.known (List.mem_map_of_mem hmem.1)) (h.known ?_) hmem.2⟩
  exact (h.marked node.sw).mp (List.mem_map_of_mem hnode)

theorem Inv.is_min_weight_neighbor (sw_inc path_inc : UINT8) (hnodup : (total.map (·.sw)).Nodup) (hport : net.Ported)
    (hid : net.Identified total d) (h : s.Inv net total d tag base expanded owed) (v : ℕ) (weight : UINT8) :
    ∃ b s', net.is_min_weight_neighbor sw_inc path_inc s v weight tag = some (b, s') ∧
      s'.Inv net total d tag base expanded owed ∧ s.Grows s' expanded ∧ (b = true → s' = s) ∧
      (b = false → (∃ node ∈ total, node.sw = v) → v ∈ (s'.items expanded).map (·.src)) := by
  rw [FabricNet.is_min_weight_neighbor]
  cases hmin : (net.minNeighbor s.weights s.marked_list v weight).1 with
  | none => exact ⟨true, s, rfl, h, .refl s expanded, fun _ => rfl, by simp⟩
  | some best =>
    obtain ⟨m, e⟩ := best
    obtain ⟨hm, he, hvalid, hsw⟩ := FabricNet.minNeighbor_some hmin
    dsimp only
    cases hfind : (s.current_list.find? (net.dpid ·.src = net.dpid m)).or
        (s.ret_list.find? (net.dpid ·.src = net.dpid m)) with
    | none => exact ⟨true, s, rfl, h, .refl s expanded, fun _ => rfl, by simp⟩
    | some r =>
      obtain ⟨hr, rfl⟩ := h.src_of_find hid hm hfind
      dsimp only
      cases hfound : (remove_fabric_sw_list_by_sw s.sw_list v).1 with
      | none =>
        refine ⟨false, s, ?_, h, .refl s expanded, fun _ => rfl, fun _ hv => ?_⟩
        · rw [← Prod.mk.eta (p := remove_fabric_sw_list_by_sw s.sw_list v), hfound]
        · rw [h.waiting] at hfound
          exact remove_none hfound hv
      | some node =>
        have hnode : node ∈ total ∧ node.sw = v := by
          rw [h.waiting] at hfound
          exact ⟨(remove_some hfound).1, (remove_some hfound).2.1⟩
        have hout : e ∈ (net.swapSearch total).out r.src :=
          FabricNet.mem_out.mpr ⟨he, hvalid, hport _ e he hvalid (by simp [hsw]), node, hnode.1, hnode.2 ▸ hsw⟩
        obtain ⟨s', heq, hinv, hgrows, hv, hr'⟩ :=
          h.attach sw_inc path_inc hnodup hr hout hsw hfound r.src
        rw [← Prod.mk.eta (p := remove_fabric_sw_list_by_sw s.sw_list v), hfound]
        dsimp only
        rw [heq, Option.map_some, FabricNet.head_of_built (h.tree.built r hr)]
        have howe := hinv.owe hr'
        rw [FabricNet.middleFlow] at howe
        cases hport_no : r.outport with
        | none =>
          refine ⟨false, s', rfl, hinv.mono ?_, hgrows, by simp, fun _ _ => hv⟩
          rintro path (ho | rfl)
          · exact .inr ho
          · exact .inl hport_no
        | some port_no =>
          rw [hport_no] at howe
          exact ⟨false, _, rfl, howe, ⟨hgrows.ret_list, hgrows.keys⟩, by simp, fun _ _ => hv⟩

/-- While a path is expanded, its middle flow is owed from the first switch on that is attached to it. -/
abbrev Expands (net : FabricNet) (total : List FabricSwNode) (d : ℕ) (tag : UINT4) (base : List TagFlow)
    (path : FabricPath) (r : ℕ × FabricSearch) : Prop :=
  r.2.Inv net total d tag base [path] fun q => q = path ∧ 0 < r.1

theorem Expands.attach_neighbor (sw_inc path_inc : UINT8) (hnodup : (total.map (·.sw)).Nodup) {n : ℕ}
    (h : Expands net total d tag base path (n, s)) {port_no : UINT4}
    (hout : (∃ node ∈ total, node.sw = v) → e ∈ (net.swapSearch total).out path.src) (hsw : e.sw = some v)
    (hno : e.port = some port_no) :
    ∃ r', net.attach_neighbor sw_inc path_inc path.src v port_no path tag n s = some r' ∧
      Expands net total d tag base path r' ∧ s.Grows r'.2 [path] ∧
      ((∃ node ∈ total, node.sw = v) → v ∈ (r'.2.items [path]).map (·.src)) := by
  have hwaiting : s.sw_list = total.filter (·.sw ∉ (s.items [path]).map (·.src)) := h.waiting
  rw [FabricNet.attach_neighbor, ← Prod.mk.eta (p := remove_fabric_sw_list_by_sw s.sw_list v)]
  cases hfound : (remove_fabric_sw_list_by_sw s.sw_list v).1 with
  | none =>
    refine ⟨(n, s), rfl, h, .refl s [path], ?_⟩
    rw [hwaiting] at hfound
    exact remove_none hfound
  | some node =>
    have hnode : ∃ node ∈ total, node.sw = v := by
      rw [hwaiting] at hfound
      exact ⟨node, (remove_some hfound).1, (remove_some hfound).2.1⟩
    have hpath : path ∈ s.items [path] := List.mem_append_left _ (List.mem_singleton_self path)
    obtain ⟨s', heq, hinv, hgrows, hv, -⟩ := Inv.attach sw_inc path_inc hnodup h hpath (hout hnode) hsw hfound path.src
    rw [hno] at heq
    dsimp only
    rw [heq]
    refine ⟨(n + 1, s'), rfl, hinv.mono ?_, hgrows, fun _ => hv⟩
    rintro q (⟨rfl, -⟩ | rfl)
    · exact .inr ⟨rfl, Nat.succ_pos n⟩
    · exact .inr ⟨rfl, Nat.succ_pos n⟩

theorem Expands.update_fabric_neighbor_flow (sw_inc path_inc : UINT8) (hnodup : (total.map (·.sw)).Nodup)
    (hport : net.Ported) (hid : net.Identified total d) {r : ℕ × FabricSearch}
    (h : Expands net total d tag base path r) (i : ℕ) (he : e ∈ net.ports path.src) :
    ∃ r', net.update_fabric_neighbor_flow sw_inc path_inc path.src path tag r (e, i) = some r' ∧
      Expands net total d tag base path r' ∧ r.2.Grows r'.2 [path] ∧
      (e ∈ (net.swapSearch total).out path.src →
        (net.swapSearch total).target e ∈ (r'.2.items [path]).map (·.src)) := by
  by_cases hentry : e.bValid = true ∧ ∃ v port_no, e.sw = some v ∧ e.port = some port_no
  · obtain ⟨hvalid, v, port_no, hsw, hno⟩ := hentry
    have htarget : (net.swapSearch total).target e = v := by simp [FabricNet.swapSearch, hsw]
    have hout (hknown : ∃ node ∈ total, node.sw = v) : e ∈ (net.swapSearch total).out path.src := by
      obtain ⟨node, hnode, rfl⟩ := hknown
      exact FabricNet.mem_out.mpr ⟨he, hvalid, by simp [hno], node, hnode, hsw⟩
    have hknown (hout : e ∈ (net.swapSearch total).out path.src) : ∃ node ∈ total, node.sw = v := by
      obtain ⟨-, -, -, node, hnode, hv⟩ := FabricNet.mem_out.mp hout
      exact ⟨node, hnode, Option.some.inj (hv.symm.trans hsw)⟩
    obtain ⟨b, s, hmin, hinv, hgrows, hsame, hdone⟩ := Inv.is_min_weight_neighbor sw_inc path_inc hnodup hport hid h v
      (r.2.weights.neighbor path.src i + r.2.weights.sw path.src + r.2.weights.sw v)
    have heq : net.update_fabric_neighbor_flow sw_inc path_inc path.src path tag r (e, i) =
        if b then net.attach_neighbor sw_inc path_inc path.src v port_no path tag r.1 s else some (r.1, s) := by
      simp only [FabricNet.update_fabric_neighbor_flow, hvalid, hsw, hno, hmin, Option.bind_eq_bind, Option.bind_some]
    rw [heq, htarget]
    cases b with
    | true =>
      obtain rfl := hsame rfl
      obtain ⟨r', hr', hinv', hgrows', hv⟩ := Expands.attach_neighbor sw_inc path_inc hnodup h hout hsw hno
      exact ⟨r', hr', hinv', hgrows', fun hout => hv (hknown hout)⟩
    | false => exact ⟨(r.1, s), rfl, hinv, hgrows, fun hout => hdone rfl (hknown hout)⟩
  · refine ⟨r, ?_, h, .refl r.2 [path], ?_⟩
    · rw [FabricNet.update_fabric_neighbor_flow]
      split
      · next v port_no hvalid hsw hno => exact absurd ⟨hvalid, v, port_no, hsw, hno⟩ hentry
      · rfl
    · intro hout
      exfalso
      obtain ⟨-, hvalid, hsome, node, -, hsw⟩ := FabricNet.mem_out.mp hout
      obtain ⟨port_no, hno⟩ := Option.isSome_iff_exists.mp hsome
      exact hentry ⟨hvalid, node.sw, port_no, hsw, hno⟩

theorem Expands.turns (sw_inc path_inc : UINT8) (hnodup : (total.map (·.sw)).Nodup) (hport : net.Ported)
    (hid : net.Identified total d) (ports : List (FabricPort × ℕ)) (hports : ∀ x ∈ ports, x.1 ∈ net.ports path.src)
    {r : ℕ × FabricSearch} (h : Expands net total d tag base path r) :
    ∃ r', ports.foldlM (net.update_fabric_neighbor_flow sw_inc path_inc path.src path tag) r = some r' ∧
      Expands net total d tag base path r' ∧ r.2.Grows r'.2 [path] ∧
      ∀ x ∈ ports, x.1 ∈ (net.swapSearch total).out path.src →
        (net.swapSearch total).target x.1 ∈ (r'.2.items [path]).map (·.src) := by
  induction ports generalizing r with
  | nil => exact ⟨r, rfl, h, .refl r.2 [path], List.forall_mem_nil _⟩
  | cons x ports ih =>
    obtain ⟨hx, hports⟩ := List.forall_mem_cons.mp hports
    obtain ⟨t, hstep, hinv, hgrows, hdone⟩ := h.update_fabric_neighbor_flow sw_inc path_inc hnodup hport hid x.2 hx
    obtain ⟨r', hturns, hinv', hgrows', hdone'⟩ := ih hports hinv
    refine ⟨r', ?_, hinv', hgrows.trans hgrows', ?_⟩
    · rw [List.foldlM_cons, hstep]
      exact hturns
    · rw [List.forall_mem_cons]
      exact ⟨fun hout => hgrows'.keys _ (hdone hout), hdone'⟩

theorem Expands.update_fabric_neighbor_flows (sw_inc path_inc : UINT8) (hnodup : (total.map (·.sw)).Nodup)
    (hport : net.Ported) (hid : net.Identified total d) (h : Expands net total d tag base path (0, s)) :
    ∃ n s', net.update_fabric_neighbor_flows sw_inc path_inc path.src path tag s = some (n, s') ∧
      Expands net total d tag base path (n, s') ∧ s.Grows s' [path] ∧
      Closed (net.swapSearch total) [path] (s'.items [path]) := by
  obtain ⟨⟨n, s'⟩, hturns, hinv, hgrows, hdone⟩ := h.turns sw_inc path_inc hnodup hport hid
    (net.ports path.src).zipIdx fun x hx => (List.mem_zipIdx' hx).2 ▸ List.getElem_mem _
  refine ⟨n, s', hturns, hinv, hgrows, ?_⟩
  intro q hq e he
  obtain rfl := List.mem_singleton.mp hq
  have hmem : e ∈ (net.ports q.src).zipIdx.map Prod.fst := by
    rw [List.zipIdx_map_fst]
    exact (FabricNet.mem_out.mp he).1
  obtain ⟨x, hx, rfl⟩ := List.mem_map.mp hmem
  exact hdone x hx he

/-- Between two turns of the loop over `current_list`. -/
structure Ready (net : FabricNet) (total : List FabricSwNode) (d : ℕ) (tag : UINT4) (base : List TagFlow)
    (s : FabricSearch) : Prop where
  inv : s.Inv net total d tag base [] fun _ => False
  closed : Closed (net.swapSearch total) s.ret_list (s.items [])
  root : create_fabric_path d none ∈ s.ret_list

theorem perm_returned (s : FabricSearch) (path : FabricPath) : (s.items [path]).Perm ({ s with ret_list := path :: s.ret_list }.items []) := by
  have hmiddle : (path :: (s.current_list ++ s.ret_list)).Perm (s.current_list ++ path :: s.ret_list) :=
    List.perm_middle.symm
  simpa [items] using hmiddle

/-- An expanded path goes to `ret_list`. -/
theorem Inv.returned (h : s.Inv net total d tag base [path] fun _ => False)
    (hclosed : Closed (net.swapSearch total) [path] (s.items [path]))
    (hret : Closed (net.swapSearch total) s.ret_list (s.items [path]))
    (hroot : create_fabric_path d none ∈ path :: s.ret_list) :
    Ready net total d tag base { s with ret_list := path :: s.ret_list } where
  inv := by
    have hkeys (v : ℕ) : v ∈ ({ s with ret_list := path :: s.ret_list }.items []).map FabricPath.src ↔
        v ∈ (s.items [path]).map FabricPath.src := ((perm_returned s path).map FabricPath.src).mem_iff.symm
    refine ⟨h.tree.perm (perm_returned s _), fun v => (h.marked v).trans (hkeys v).symm, ?_, ?_⟩
    · refine h.waiting.trans (List.filter_congr ?_)
      intro node hnode
      exact decide_eq_decide.mpr (not_congr (hkeys node.sw).symm)
    · obtain ⟨new, hflows, hnew⟩ := h.flows
      exact ⟨new, hflows, hnew.perm (perm_returned s _)⟩
  closed := by
    intro q hq e he
    rcases List.mem_cons.mp hq with rfl | hq
    · exact hclosed.perm (perm_returned s _) q (List.mem_singleton_self q) e he
    · exact hret.perm (perm_returned s _) q hq e he
  root := hroot

/-- The path that waits to be expanded is not that of the switch itself. -/
theorem Ready.outport (h : Ready net total d tag base s) (hpath : path ∈ s.current_list) :
    ∃ port_no, path.outport = some port_no := by
  have hnodup : ((s.current_list ++ s.ret_list).map FabricPath.src).Nodup := h.inv.tree.nodup
  have hmem : path ∈ s.items [] := List.mem_append_right [] (List.mem_append_left _ hpath)
  rcases h.inv.tree.parent path hmem with rfl | ⟨r, hr, e, he, rfl⟩
  · rw [List.map_append] at hnodup
    exact absurd (List.mem_map_of_mem h.root) (List.disjoint_of_nodup_append hnodup (List.mem_map_of_mem hpath))
  · exact Option.isSome_iff_exists.mp (FabricNet.mem_out.mp he).2.2.1

/-- Every turn of the loop moves one path to `ret_list`. -/
theorem Ready.swapPass (sw_inc path_inc : UINT8) (hnodup : (total.map (·.sw)).Nodup) (hport : net.Ported)
    (hid : net.Identified total d) (h : Ready net total d tag base s) :
    (s.current_list = [] ∧ net.swapPass sw_inc path_inc tag s = .leave s) ∨
      ∃ s', net.swapPass sw_inc path_inc tag s = .next () s' ∧ Ready net total d tag base s' ∧
        s'.ret_list.length = s.ret_list.length + 1 := by
  rw [FabricNet.swapPass]
  cases hcur : s.current_list with
  | nil => exact .inl ⟨rfl, rfl⟩
  | cons path rest =>
    right
    dsimp only
    have hitems : s.items [] = { s with current_list := rest }.items [path] := by simp [items, hcur]
    have hpath : path ∈ s.items [] := by
      rw [hitems]
      exact List.mem_cons_self
    have hhead := FabricNet.head_of_built (h.inv.tree.built path hpath)
    have hexpands : Expands net total d tag base path (0, { s with current_list := rest }) := by
      obtain ⟨htree, hmarked, hwaiting, hflows⟩ := h.inv
      rw [hitems] at htree hmarked hwaiting hflows
      exact Inv.mono ⟨htree, hmarked, hwaiting, hflows⟩ fun q hq => hq.elim
    obtain ⟨n, s', hflows, hinv, hgrows, hclosed⟩ :=
      hexpands.update_fabric_neighbor_flows sw_inc path_inc hnodup hport hid
    have hret : Closed (net.swapSearch total) s'.ret_list (s'.items [path]) := by
      rw [hgrows.ret_list]
      intro q hq e he
      refine hgrows.keys _ ?_
      rw [← hitems]
      exact h.closed q hq e he
    have hroot : create_fabric_path d none ∈ path :: s'.ret_list := by
      rw [hgrows.ret_list]
      exact List.mem_cons_of_mem path h.root
    have hlength : (path :: s'.ret_list).length = s.ret_list.length + 1 := by rw [hgrows.ret_list, List.length_cons]
    rw [hhead]
    dsimp only
    rw [hflows]
    dsimp only
    by_cases hn : 0 < n
    · rw [if_pos hn]
      have howe : { s' with flows := s'.flows ++ net.middleFlow tag path }.Inv net total d tag base [path]
          fun _ => False := by
        refine (hinv.mono ?_).owe (List.mem_append_left _ (List.mem_singleton_self path))
        rintro q ⟨rfl, -⟩
        exact .inr (.inr rfl)
      have hready := howe.returned hclosed hret hroot
      obtain ⟨port_no, hport_no⟩ := h.outport (hcur ▸ List.mem_cons_self)
      have hmiddle : net.middleFlow tag path = net.install_fabric_middle_flow path.src port_no tag := by
        simp [FabricNet.middleFlow, hport_no]
      rw [hmiddle] at hready
      rw [hport_no]
      exact ⟨_, rfl, hready, hlength⟩
    · rw [if_neg hn]
      refine ⟨_, rfl, Inv.returned (hinv.mono ?_) hclosed hret hroot, hlength⟩
      rintro q ⟨-, hpos⟩
      exact absurd hpos hn

/-- What the search leaves behind. -/
structure Finished (net : FabricNet) (total : List FabricSwNode) (d : ℕ) (tag : UINT4) (base : List TagFlow)
    (paths : List FabricPath) (flows : List TagFlow) : Prop where
  tree : Tree (net.swapSearch total) (create_fabric_path d none) paths
  closed : Closed (net.swapSearch total) paths paths
  flows : ∃ new, flows = base ++ new ∧ net.Installed total tag paths (fun _ => False) new

theorem Ready.finished (h : Ready net total d tag base s) (hcur : s.current_list = []) :
    Finished net total d tag base s.ret_list s.flows := by
  have hitems : s.items [] = s.ret_list := by simp [items, hcur]
  obtain ⟨⟨htree, -, -, hflows⟩, hclosed, -⟩ := h
  rw [hitems] at htree hclosed hflows
  exact ⟨htree, hclosed, hflows⟩

theorem Ready.length_le (h : Ready net total d tag base s) : s.ret_list.length ≤ total.length + 1 := by
  have hsub : (s.items []).map (·.src) ⊆ d :: total.map (·.sw) := by
    intro v hv
    rcases h.inv.known hv with rfl | ⟨node, hnode, rfl⟩
    · exact List.mem_cons_self
    · exact List.mem_cons_of_mem _ (List.mem_map_of_mem hnode)
  have hnodup : ((s.items []).map (·.src)).Nodup := h.inv.tree.nodup
  have hle := (hnodup.subperm hsub).length_le
  simp only [items, List.nil_append, List.length_map, List.length_append, List.length_cons] at hle
  omega

theorem Ready.ends (sw_inc path_inc : UINT8) (hnodup : (total.map (·.sw)).Nodup) (hport : net.Ported)
    (hid : net.Identified total d) (h : Ready net total d tag base s) :
    ∃ es s', Ends (net.swapPass sw_inc path_inc tag) s es s' ∧ Ready net total d tag base s' ∧ s'.current_list = [] := by
  have hnext (s : FabricSearch) (u : Unit) (s' : FabricSearch) (h : Ready net total d tag base s)
      (hpass : net.swapPass sw_inc path_inc tag s = .next u s') : Ready net total d tag base s' ∧
        total.length + 2 - s'.ret_list.length < total.length + 2 - s.ret_list.length := by
    rcases h.swapPass sw_inc path_inc hnodup hport hid with ⟨-, hleave⟩ | ⟨t, ht, hready, hlength⟩
    · rw [hleave] at hpass
      cases hpass
    · rw [ht] at hpass
      cases hpass
      have hle := hready.length_le
      exact ⟨hready, by omega⟩
  have hleave (s s' : FabricSearch) (h : Ready net total d tag base s)
      (hpass : net.swapPass sw_inc path_inc tag s = .leave s') :
      Ready net total d tag base s' ∧ s'.current_list = [] := by
    rcases h.swapPass sw_inc path_inc hnodup hport hid with ⟨hcur, hleave⟩ | ⟨t, ht, -⟩
    · rw [hleave] at hpass
      cases hpass
      exact ⟨h, hcur⟩
    · rw [ht] at hpass
      cases hpass
  have hfault (s : FabricSearch) (h : Ready net total d tag base s) : net.swapPass sw_inc path_inc tag s ≠ .fault := by
    intro hpass
    rcases h.swapPass sw_inc path_inc hnodup hport hid with ⟨-, hleave⟩ | ⟨t, ht, -⟩
    · rw [hleave] at hpass
      cases hpass
    · rw [ht] at hpass
      cases hpass
  obtain ⟨es, s', hends⟩ := ends_of_measure (I := Ready net total d tag base)
    (fun s => total.length + 2 - s.ret_list.length) hfault hnext h
  exact ⟨es, s', hends, hends.result (fun s u s' hs hpass => (hnext s u s' hs hpass).1) hleave h⟩

theorem expands_start (net : FabricNet) (external : ℕ → Bool) (w : FabricWeights) (flows : List TagFlow) (d : ℕ)
    (tag : UINT4) (hnodup : (total.map (·.sw)).Nodup) :
    Expands net total d tag (flows ++ net.install_fabric_last_flow external d tag) (create_fabric_path d none)
      (0, net.swapStart external total w flows d tag) where
  tree := Tree.start FabricNet.root_trail
  marked := fun v => Iff.rfl
  waiting := by
    have hall : total = total.filter (·.sw ∉ ([] : List ℕ)) := by simp
    rw [FabricNet.swapStart, hall, remove_waiting hnodup]
    simp [items, create_fabric_path]
  flows := by
    refine ⟨[], (List.append_nil _).symm, List.forall_mem_nil _, ?_, ?_⟩
    · intro path hpath _
      obtain rfl := List.mem_singleton.mp hpath
      exact List.nil_subset _
    · intro path hpath e _ _
      obtain rfl := List.mem_singleton.mp hpath
      exact .inr (List.nil_subset _)

theorem finished_single (net : FabricNet) (sw_inc path_inc : UINT8) (external : ℕ → Bool) (total : List FabricSwNode)
    (w : FabricWeights) (flows : List TagFlow) (tag : UINT4) (hconn : net.conn_state d = .CONNECTED)
    (hnodup : (total.map (·.sw)).Nodup) (hport : net.Ported) (hid : net.Identified total d) :
    ∃ paths w' flows' n, (∀ fuel, n ≤ fuel → net.update_fabric_swap_flows_single sw_inc path_inc external fuel total w
        flows d tag = some (some ⟨d, paths⟩, w', flows')) ∧
      Finished net total d tag (flows ++ net.install_fabric_last_flow external d tag) paths flows' := by
  have hstart := expands_start net external w flows d tag hnodup
  obtain ⟨k, s, hflows, hinv, hgrows, hclosed⟩ :=
    hstart.update_fabric_neighbor_flows sw_inc path_inc hnodup hport hid
  have hret : s.ret_list = [] := hgrows.ret_list
  have hinv' : s.Inv net total d tag (flows ++ net.install_fabric_last_flow external d tag)
      [create_fabric_path d none] fun _ => False := by
    refine hinv.mono ?_
    rintro path ⟨rfl, -⟩
    exact .inl rfl
  have hready := hinv'.returned hclosed (by simp [hret, Closed]) List.mem_cons_self
  obtain ⟨es, s', hends, hready', hcur⟩ := hready.ends sw_inc path_inc hnodup hport hid
  obtain ⟨n, hrun⟩ := hends.run_eq
  refine ⟨s'.ret_list, s'.weights, s'.flows, n, ?_, hready'.finished hcur⟩
  intro fuel hfuel
  have hsrc : (create_fabric_path d none).src = d := rfl
  rw [hsrc] at hflows
  rw [FabricNet.update_fabric_swap_flows_single, if_pos hconn]
  simp only [hflows, hrun fuel hfuel, Option.bind_eq_bind, Option.bind_some]

theorem walk_iff (hport : net.Ported) :
    (∃ n, (net.swapSearch total).Walk d n v) ↔ Relation.ReflTransGen (net.Link total) d v := by
  constructor
  · rintro ⟨n, hw⟩
    induction hw with
    | nil => exact .refl
    | @snoc n u e hw he ih =>
      obtain ⟨he, hvalid, -, node, hnode, hsw⟩ := FabricNet.mem_out.mp he
      have htarget : (net.swapSearch total).target e = node.sw := by simp [FabricNet.swapSearch, hsw]
      rw [htarget]
      exact ih.tail ⟨⟨node, hnode, rfl⟩, e, he, hvalid, hsw⟩
  · intro hreach
    induction hreach with
    | refl => exact ⟨0, .nil⟩
    | @tail b c _ hlink ih =>
      obtain ⟨n, hw⟩ := ih
      obtain ⟨⟨node, hnode, rfl⟩, e, he, hvalid, hsw⟩ := hlink
      have htarget : (net.swapSearch total).target e = node.sw := by simp [FabricNet.swapSearch, hsw]
      rw [← htarget]
      exact ⟨n + 1, hw.snoc (FabricNet.mem_out.mpr ⟨he, hvalid, hport b e he hvalid (by simp [hsw]), node, hnode, hsw⟩)⟩

theorem Finished.isPath {paths : List FabricPath} {flows : List TagFlow}
    (h : Finished net total d tag base paths flows) : ∀ path ∈ paths, net.IsPath total d path := by
  apply h.tree.induct (C := net.IsPath total d)
  · exact ⟨rfl, rfl, rfl, List.nodup_singleton d, List.isChain_singleton _, rfl⟩
  · intro r hr e he hext hpath
    obtain ⟨he, hvalid, hsome, node, hnode, hsw⟩ := FabricNet.mem_out.mp he
    obtain ⟨rest, hrest⟩ := List.head?_eq_some_iff.mp (FabricNet.head_of_built (h.tree.built r hr))
    have hlist := FabricNet.extend_node_list net total r e
    refine ⟨hpath.dst, ?_, ?_, (h.tree.simple _ hext).1, ?_, ?_⟩
    · rw [hlist]
      rfl
    · rw [hlist, hrest, List.getLast?_cons_cons, ← hrest]
      exact hpath.last
    · rw [hlist, hrest]
      refine List.isChain_cons_cons.mpr ⟨?_, hrest ▸ hpath.chain⟩
      simp only [hsw, Option.getD_some]
      exact ⟨⟨node, hnode, rfl⟩, e, he, hvalid, hsw, hsome, rfl⟩
    · have hlen : ((net.swapSearch total).extend r e).len = r.len + 1 := rfl
      rw [hlen, hlist, hpath.len, hrest]
      simp only [List.length_cons, Nat.add_sub_cancel, UInt32.ofNat_add]
      rfl

theorem Finished.pathsTo (hport : net.Ported) {paths : List FabricPath} {flows : List TagFlow}
    (h : Finished net total d tag base paths flows) : net.PathsTo total d paths where
  one := h.tree.nodup
  reached := by
    intro v
    rw [← walk_iff hport]
    exact List.mem_map.symm.trans (h.tree.mem_keys_iff FabricNet.root_trail h.closed)
  path := h.isPath

end FabricSearch

end

namespace FabricNet

theorem paths_found (net : FabricNet) (sw_inc path_inc : UINT8) (external : ℕ → Bool) (total : List FabricSwNode)
    (w : FabricWeights) (flows : List TagFlow) (d : ℕ) (tag : UINT4) (hconn : net.conn_state d = .CONNECTED)
    (hnodup : (total.map (·.sw)).Nodup) (hport : net.Ported) (hid : net.Identified total d) :
    ∃ paths w' flows' n, (∀ fuel, n ≤ fuel → net.update_fabric_swap_flows_single sw_inc path_inc external fuel total w
      flows d tag = some (some ⟨d, paths⟩, w', flows')) ∧ net.PathsTo total d paths := by
  obtain ⟨paths, w', flows', n, hrun, hfinished⟩ :=
    FabricSearch.finished_single net sw_inc path_inc external total w flows tag hconn hnodup hport hid
  exact ⟨paths, w', flows', n, hrun, hfinished.pathsTo hport⟩

/-- Two links between the first two switches, and a third switch behind the second one. -/
def smallNet : FabricNet where
  dpid sw := UInt64.ofNat (sw + 1)
  conn_state _ := .CONNECTED
  ofp_version _ := FabricSwitches.OFP13_VERSION
  ports
    | 0 => [⟨1, true, some 1, some 1⟩, ⟨2, true, some 1, some 2⟩]
    | 1 => [⟨1, true, some 0, some 1⟩, ⟨2, true, some 0, some 2⟩, ⟨3, true, some 2, some 5⟩]
    | 2 => [⟨5, true, some 1, some 3⟩]
    | _ => []

def smallTotal : List FabricSwNode := [⟨0, 4⟩, ⟨1, 5⟩, ⟨2, 6⟩]

theorem smallNet_ported : smallNet.Ported := by
  have hall : ∀ v < 3, ∀ e ∈ smallNet.ports v, e.bValid → e.sw.isSome → e.port.isSome := by decide
  intro v e he
  rcases Nat.lt_or_ge v 3 with hlt | hge
  · exact hall v hlt e he
  · obtain ⟨k, rfl⟩ := Nat.exists_eq_add_of_le' hge
    cases he

theorem smallNet_identified : smallNet.Identified smallTotal 0 := by
  intro a b ha hb
  have hall : ∀ a ∈ [0, 1, 2], ∀ b ∈ [0, 1, 2], smallNet.dpid a = smallNet.dpid b → a = b := by decide
  refine hall a ?_ b ?_
  · simpa [smallTotal, eq_comm] using ha
  · simpa [smallTotal, eq_comm] using hb

theorem smallNet_paths_found : ∃ paths w' flows' n, (∀ fuel, n ≤ fuel →
    smallNet.update_fabric_swap_flows_single 1 1 (fun _ => false) fuel smallTotal ⟨fun _ => 10, fun _ _ => 10⟩ [] 0 4 =
      some (some ⟨0, paths⟩, w', flows')) ∧ smallNet.PathsTo smallTotal 0 paths :=
  paths_found smallNet 1 1 (fun _ => false) smallTotal ⟨fun _ => 10, fun _ _ => 10⟩ [] 0 4 rfl (by decide)
    smallNet_ported smallNet_identified

end FabricNet

end DCFabric
