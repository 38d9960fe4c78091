import DCFabric.FabricPathSteps

namespace DCFabric

open LoopRuns SimpleGraph Trails

namespace CPCE

/-- The switch that the port towards a destination leads to. -/
def forward (tbl : NeighborTable) (pce : CPCE) (dst sw : UINT8) : Option UINT8 :=
  ((tbl.getLink sw (pce.getOutPort sw dst)).filter (·.state ≠ .deleted)).map (·.dstDpid)

def forwardN (tbl : NeighborTable) (pce : CPCE) (dst : UINT8) : ℕ → UINT8 → Option UINT8
  | 0, sw => some sw
  | n + 1, sw => (forward tbl pce dst sw).bind (forwardN tbl pce dst n)

/-- The paths between all the switches that links join. -/
structure Routes (tbl : NeighborTable) (paths : CFabricPathMap) : Prop where
  ordered : ∀ key ∈ paths, key.1 ≤ key.2
  joined : ∀ a b, a < b → ((a, b) ∈ paths ↔ tbl.linkGraph.Reachable a b)
  shortest : ∀ a b path, a < b → paths.lookup (a, b) = some path →
    Shortest tbl a b path ∧ (path.nodes.map CFabricPathNode.dpid).Nodup

section

variable {tbl : NeighborTable} {k : ℕ} {n : Neighbor} {a b : UINT8} {path : CFabricPath} {paths : CFabricPathMap}
  {g g' : Generation} {order : HashOrder} {pce : CPCE}

theorem Shortest.nodup (h : Shortest tbl a b path) : (path.nodes.map CFabricPathNode.dpid).Nodup :=
  h.leads.nodup (fun _ _ hop => adj_of_hop hop) h.hops h.minimal

theorem Growing.routes (h : Growing tbl k g) (hlayer : Layer tbl (k + 1) g.paths) (hret : g.ret = false) :
    Routes tbl g.paths := by
  refine ⟨h.ordered, fun a b hlt => ?_, fun a b path hlt hpath => ?_⟩
  · constructor
    · intro hmem
      obtain ⟨path, hpath⟩ := Option.isSome_iff_exists.mp (AList.lookup_isSome.mpr hmem)
      obtain ⟨w, -⟩ := (h.shortest a b path hlt hpath).1.leads.walk fun _ _ hop => adj_of_hop hop
      exact w.reachable
    · exact fun hreach => h.complete a b hlt (h.complete_of_not_ret hlayer hret hreach)
  · have hshort := (h.shortest a b path hlt hpath).1
    exact ⟨hshort, hshort.nodup⟩

theorem Growing.card_lt (h : Growing tbl k g) (hret : g.ret = true) : k + 1 < UInt64.size := by
  obtain ⟨key, hkey⟩ := h.ret.mp hret
  obtain ⟨path, hpath⟩ := Option.isSome_iff_exists.mp (AList.lookup_isSome.mpr hkey)
  obtain ⟨hlt, hpath, hweight⟩ := h.stepped key path hpath
  have hshort := (h.shortest key.1 key.2 path hlt hpath).1
  have hnodup : ((path.nodes.map CFabricPathNode.dpid).map UInt64.toFin).Nodup :=
    hshort.nodup.map fun _ _ heq => UInt64.toFin_inj.mp heq
  have hcard := hnodup.length_le_card
  rw [List.length_map, List.length_map, hshort.hops, hweight, Fintype.card_fin] at hcard
  exact hcard

/-- The states the loop of `generate` goes through. -/
def Going (tbl : NeighborTable) (g : Generation) : Prop := ∃ k, 0 < k ∧ Ready tbl k g

theorem furtherPass_ne_fault : furtherPass order g ≠ .fault := by
  rw [furtherPass]
  split_ifs <;> nofun

theorem Going.next (hp : tbl.LinksPaired) (h : Going tbl g) {e : Unit} (hpass : furtherPass order g = .next e g') :
    Going tbl g' ∧ UInt64.size - g'.pce.m_step < UInt64.size - g.pce.m_step := by
  obtain ⟨k, hk, hready⟩ := h
  obtain ⟨hgrown, hlayer⟩ := hready.genFurtherStepPaths order hp hk
  rw [furtherPass] at hpass
  split_ifs at hpass with hret
  cases hpass
  have hbound := hgrown.card_lt hret
  have hready' := hgrown.nextStep hlayer
  refine ⟨⟨k + 1, Nat.succ_pos k, hready'⟩, ?_⟩
  rw [hready'.m_step, hready.m_step]
  omega

theorem Going.leave (hp : tbl.LinksPaired) (h : Going tbl g) (hpass : furtherPass order g = .leave g') :
    Routes tbl g'.paths := by
  obtain ⟨k, hk, hready⟩ := h
  obtain ⟨hgrown, hlayer⟩ := hready.genFurtherStepPaths order hp hk
  rw [furtherPass] at hpass
  split_ifs at hpass with hret
  cases hpass
  exact hgrown.routes hlayer (Bool.eq_false_iff.mpr hret)

/-- The loop comes to its end. -/
theorem Going.ends (order : HashOrder) (hp : tbl.LinksPaired) (h : Going tbl g) :
    ∃ es g', Ends (furtherPass order) g es g' ∧ Routes tbl g'.paths := by
  obtain ⟨es, g', hends⟩ := ends_of_measure (I := Going tbl) (fun g => UInt64.size - g.pce.m_step)
    (fun _ _ => furtherPass_ne_fault) (fun g e g' hg => hg.next hp) h
  exact ⟨es, g', hends, hends.result (fun g e g' hg hpass => (hg.next hp hpass).1) (fun g g' hg => hg.leave hp) h⟩

def initial (pce : CPCE) : Generation where
  paths := ∅
  pce := { pce with m_basePaths := ∅, m_oddStepPaths := ∅, m_evenStepPaths := ∅, m_step := 0 }
  ret := false

theorem initial_based (tbl : NeighborTable) (pce : CPCE) : Based tbl { initial pce with ret := false } := by
  refine ⟨?_, ?_, ?_, ?_, ?_, rfl, rfl, rfl⟩
  · exact fun key hkey => absurd hkey (AList.notMem_empty key)
  · exact fun a b path _ hpath => absurd hpath (by simp [initial])
  · exact fun a base hbase => absurd hbase (by simp [initial, mem_basePathMap_iff])
  · exact fun key hkey => absurd hkey (AList.notMem_empty key)
  · simp [initial]

theorem Linked.exists_mem (hn : n ∈ tbl.links) : ∃ key, key ∈ Linked n := by
  have hstate : n.state ≠ .deleted := by simpa using (List.mem_filter.mp hn).2
  by_cases hlt : n.srcDpid < n.dstDpid
  · exact ⟨(n.srcDpid, n.dstDpid), hstate, UInt64.le_of_lt hlt, .inl rfl⟩
  · exact ⟨(n.dstDpid, n.srcDpid), hstate, UInt64.not_lt.mp hlt, .inr rfl⟩

theorem generate_routes (order : HashOrder) (hp : tbl.LinksPaired) (hlinks : tbl.links ≠ []) (pce : CPCE) :
    ∃ pce' n, (∀ fuel, n ≤ fuel → generate order tbl fuel pce = some pce') ∧ Routes tbl pce'.m_paths := by
  obtain ⟨hbased, hlinked⟩ := (initial_based tbl pce).genBasePaths hp
  have hret : (genBasePaths tbl (initial pce)).ret = true := by
    obtain ⟨n, hn⟩ := List.exists_mem_of_ne_nil _ hlinks
    obtain ⟨key, hkey⟩ := Linked.exists_mem hn
    exact hbased.ret.mpr ⟨key, hlinked n hn hkey⟩
  obtain ⟨hgrown, hlayer⟩ := hbased.genFirstStepPaths order hp hlinked
  have hgenerate (fuel : ℕ) : generate order tbl fuel pce =
      let g := genFirstStepPaths order (genBasePaths tbl (initial pce)).nextStep
      if g.ret then (run (furtherPass order) fuel g.nextStep).map fun r => { r.2.pce with m_paths := r.2.paths }
      else some { g.pce with m_paths := g.paths } := by
    rw [generate]
    exact if_neg (not_not.mpr hret)
  by_cases hfirst : (genFirstStepPaths order (genBasePaths tbl (initial pce)).nextStep).ret = true
  · obtain ⟨es, g', hends, hroutes⟩ :=
      Going.ends order hp ⟨2, Nat.two_pos, hgrown.nextStep hlayer⟩
    obtain ⟨n, hrun⟩ := hends.run_eq
    refine ⟨{ g'.pce with m_paths := g'.paths }, n, fun fuel hfuel => ?_, hroutes⟩
    rw [hgenerate]
    simp only [if_pos hfirst, hrun fuel hfuel, Option.map_some]
  · let g := genFirstStepPaths order (genBasePaths tbl (initial pce)).nextStep
    refine ⟨{ g.pce with m_paths := g.paths }, 0, fun fuel _ => ?_, hgrown.routes hlayer (Bool.eq_false_iff.mpr hfirst)⟩
    rw [hgenerate]
    exact if_neg hfirst

theorem Routes.getOutPort (h : Routes tbl pce.m_paths) (hne : a ≠ b) (hreach : tbl.linkGraph.Reachable a b)
    (hp : tbl.LinksPaired) : ∃ path reverse, getPath pce.m_paths a b = some path ∧ Spans tbl a b path reverse ∧
      tbl.linkGraph.edist a b = path.weight ∧
      pce.getOutPort a b = ((dupPath path.nodes reverse).head?.map CFabricPathNode.outport).getD 0 := by
  by_cases hlt : a < b
  · obtain ⟨path, hpath⟩ := Option.isSome_iff_exists.mp (AList.lookup_isSome.mpr ((h.joined a b hlt).mpr hreach))
    have hshort := (h.shortest a b path hlt hpath).1
    refine ⟨path, false, (getPath_of_lt hlt).trans hpath, hshort.spans, hshort.minimal, ?_⟩
    rw [CPCE.getOutPort, getPath_of_lt hlt, hpath]
    exact if_pos hlt
  · have hgt : b < a := UInt64.lt_of_le_of_ne (UInt64.not_lt.mp hlt) hne.symm
    obtain ⟨path, hpath⟩ := Option.isSome_iff_exists.mp (AList.lookup_isSome.mpr ((h.joined b a hgt).mpr hreach.symm))
    have hshort := (h.shortest b a path hgt hpath).1
    refine ⟨path, true, (getPath_of_gt hgt).trans hpath, hshort.spans_back hp, edist_comm.trans hshort.minimal, ?_⟩
    rw [CPCE.getOutPort, getPath_of_gt hgt, hpath]
    refine (if_neg hlt).trans ?_
    rw [dupPath, if_pos rfl, List.head?_map, List.head?_reverse, Option.map_map]
    rfl

/-- The link of the port towards a destination brings it one hop nearer. -/
theorem Routes.forward (h : Routes tbl pce.m_paths) (hp : tbl.LinksPaired)
    (hdist : tbl.linkGraph.edist a b = (k + 1 : ℕ)) :
    ∃ c, forward tbl pce b a = some c ∧ tbl.linkGraph.edist c b = k := by
  have hne : a ≠ b := by
    rintro rfl
    rw [SimpleGraph.edist_self] at hdist
    norm_cast at hdist
  have hreach : tbl.linkGraph.Reachable a b :=
    edist_ne_top_iff_reachable.mp (by rw [hdist]; exact ENat.natCast_ne_top _)
  obtain ⟨path, reverse, -, hspans, hweight, hport⟩ := h.getOutPort hne hreach hp
  have hlen : (dupPath path.nodes reverse).length = k + 2 := by
    rw [length_dupPath, hspans.hops]
    rw [hdist] at hweight
    norm_cast at hweight
    omega
  have hleads := hspans.leads
  obtain ⟨x, y, r, hnodes⟩ : ∃ x y r, dupPath path.nodes reverse = x :: y :: r := by
    match hd : dupPath path.nodes reverse with
    | [] => simp [hd] at hlen
    | [x] => simp [hd] at hlen
    | x :: y :: r => exact ⟨x, y, r, rfl⟩
  rw [hnodes] at hleads hport hlen
  have hx : x.dpid = a := Option.some_inj.mp hleads.head
  obtain ⟨hhop, hrest⟩ := hleads.of_cons
  have hadj := adj_of_hop hhop
  obtain ⟨-, n, hn, hsrc, hsport, hdst, -⟩ := hhop
  obtain ⟨hlink, hstate⟩ := hp.getLink hn
  refine ⟨y.dpid, ?_, ?_⟩
  · have hout : pce.getOutPort a b = n.srcPort := hport.trans hsport.symm
    rw [CPCE.forward, hout, ← hx, ← hsrc, hlink]
    simp [hstate, hdst]
  · have hnear := hrest.edist_lt fun _ _ hop => adj_of_hop hop
    have hfar : tbl.linkGraph.edist a b ≤ tbl.linkGraph.edist a y.dpid + tbl.linkGraph.edist y.dpid b :=
      SimpleGraph.edist_triangle
    rw [← hx, edist_eq_one_iff_adj.mpr hadj, hx, hdist] at hfar
    obtain ⟨m, hm⟩ := ENat.ne_top_iff_exists.mp hnear.ne_top
    rw [← hm] at hnear hfar ⊢
    simp only [List.length_cons] at hlen hnear
    norm_cast at hnear hfar ⊢
    omega

theorem Routes.forwardN (h : Routes tbl pce.m_paths) (hp : tbl.LinksPaired) (hdist : tbl.linkGraph.edist a b = k) :
    forwardN tbl pce b k a = some b := by
  induction k generalizing a with
  | zero =>
    obtain rfl := edist_eq_zero_iff.mp hdist
    rfl
  | succ k ih =>
    obtain ⟨c, hc, hdist'⟩ := h.forward hp hdist
    rw [CPCE.forwardN, hc]
    exact ih hdist'

/-- Three switches in a row. -/
def rowOfThree : NeighborTable :=
  .ofLinks [⟨.established, 1, 7, 2, 8, 0⟩, ⟨.established, 2, 8, 1, 7, 0⟩, ⟨.unalive, 2, 9, 3, 4, 0⟩,
    ⟨.established, 3, 4, 2, 9, 0⟩]

end

end CPCE

end DCFabric
