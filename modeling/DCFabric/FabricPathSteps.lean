import DCFabric.FabricPathLayers

namespace DCFabric

open ListUpdates LoopRuns SimpleGraph Trails

namespace CPCE

/-- What a step starts with: the paths of at most `k` hops, and those of `k` hops from the step before. -/
structure Ready (tbl : NeighborTable) (k : ℕ) (g : Generation) : Prop where
  layer : Layer tbl k g.paths
  base : BaseLinks tbl g.pce.m_basePaths
  m_step : g.pce.m_step = k
  previous : ∀ key path, g.pce.prevStepPaths.lookup key = some path ↔
    key.1 < key.2 ∧ g.paths.lookup key = some path ∧ path.weight = k

section

variable {α : Type} {tbl : NeighborTable} {k : ℕ} {g g' : Generation} {due : Set (UINT8 × UINT8)}
  {dues : α → Set (UINT8 × UINT8)} {step : Generation → α → Generation} {l : List α} {a b c : UINT8}
  {prev : Sigma fun _ : UINT8 × UINT8 => CFabricPath}

theorem Adds.trans {g'' : Generation} {due' : Set (UINT8 × UINT8)} (h : Adds tbl k due g g')
    (h' : Adds tbl k due' g' g'') : Adds tbl k (due ∪ due') g g'' :=
  ⟨h'.growing, h.kept.trans h'.kept, Set.union_subset (h.added.trans h'.kept) h'.added⟩

theorem Growing.foldl (hstep : ∀ g, ∀ a ∈ l, seen g' ⊆ seen g → Growing tbl k g → Adds tbl k (dues a) g (step g a))
    (h : Growing tbl k g') : Adds tbl k {key | ∃ a ∈ l, key ∈ dues a} g' (l.foldl step g') := by
  have hone : ∀ g, ∀ a ∈ l, (Growing tbl k g ∧ seen g' ⊆ seen g) →
      (Growing tbl k (step g a) ∧ seen g' ⊆ seen (step g a)) ∧ seen g ⊆ seen (step g a) ∧
        dues a ⊆ seen (step g a) := by
    intro g a ha hg
    obtain ⟨hgrown, hkept, hadded⟩ := hstep g a ha hg.2 hg.1
    exact ⟨⟨hgrown, hg.2.trans hkept⟩, hkept, hadded⟩
  obtain ⟨hgrown, hkept, hadded⟩ := foldl_seen hone ⟨h, subset_rfl⟩
  exact ⟨hgrown.1, hkept, fun key ⟨a, ha, hkey⟩ => hadded a ha hkey⟩

/-- The pairs of a path and a link at one of its ends. -/
def Extended (tbl : NeighborTable) (prev key : UINT8 × UINT8) : Prop :=
  key.1 < key.2 ∧ ∃ c, tbl.linkGraph.Adj prev.1 c ∧ Joins key c prev.2 ∨ tbl.linkGraph.Adj prev.2 c ∧ Joins key c prev.1

theorem Growing.genFurtherStepPath (hp : tbl.LinksPaired) (h : Growing tbl k g) (hprev : Previous tbl k prev) :
    Adds tbl k {key | Extended tbl prev.1 key} g (genFurtherStepPath g prev) := by
  have hfirst := h.foldl (l := basePathMap g.pce.m_basePaths prev.1.1) fun g' base hbase _ hg =>
    hg.genAtFirst hp hprev (h.base.sound _ base hbase)
  have hmid := hfirst.growing
  have hsecond := hmid.foldl (l := basePathMap _ prev.1.2) fun g' base hbase _ hg =>
    hg.genAtSecond hp hprev (hmid.base.sound _ base hbase)
  obtain ⟨hgrown, hkept, hadded⟩ := hfirst.trans hsecond
  refine ⟨hgrown, hkept, fun key hkey => hadded ?_⟩
  obtain ⟨hlt, c, ⟨hadj, hjoins⟩ | ⟨hadj, hjoins⟩⟩ := hkey
  · obtain ⟨path, hpath⟩ := h.base.complete _ _ hadj
    exact .inl ⟨(c, path), hpath, hlt, hjoins⟩
  · obtain ⟨path, hpath⟩ := hmid.base.complete _ _ hadj
    exact .inr ⟨(c, path), hpath, hlt, hjoins⟩

theorem exists_key (hne : a ≠ b) : ∃ key : UINT8 × UINT8, key.1 < key.2 ∧ Joins key a b := by
  by_cases hlt : a < b
  · exact ⟨(a, b), hlt, .inl rfl⟩
  · exact ⟨(b, a), UInt64.lt_of_le_of_ne (UInt64.not_lt.mp hlt) hne.symm, .inr rfl⟩

theorem Joins.edist_eq {key : UINT8 × UINT8} (h : Joins key a b) :
    tbl.linkGraph.edist key.1 key.2 = tbl.linkGraph.edist a b := by
  rcases h with rfl | rfl
  · rfl
  · exact edist_comm

theorem Layer.exists_path {paths : CFabricPathMap} {d : ℕ} (h : Layer tbl k paths) (hne : a ≠ b)
    (hd : tbl.linkGraph.edist a b = d) (hdk : d ≤ k) :
    ∃ key path, key.1 < key.2 ∧ Joins key a b ∧ paths.lookup key = some path ∧ path.weight = d := by
  obtain ⟨key, hlt, hjoins⟩ := exists_key hne
  have hdist : tbl.linkGraph.edist key.1 key.2 = d := hjoins.edist_eq.trans hd
  obtain ⟨path, hpath⟩ := Option.isSome_iff_exists.mp
    (AList.lookup_isSome.mpr (h.complete key.1 key.2 hlt (by rw [hdist]; exact_mod_cast hdk)))
  refine ⟨key, path, hlt, hjoins, hpath, ?_⟩
  have hweight := (h.shortest key.1 key.2 path hlt hpath).1.minimal
  rw [hdist] at hweight
  exact_mod_cast hweight.symm

/-- The first `k + 1` layers are complete once the pairs at `k + 1` hops have been found. -/
theorem Growing.layer (h : Growing tbl k g)
    (hnext : ∀ a b, a < b → tbl.linkGraph.edist a b = (k + 1 : ℕ) → (a, b) ∈ g.paths) :
    Layer tbl (k + 1) g.paths := by
  refine ⟨h.ordered, h.shortest, fun a b hlt hnear => ?_⟩
  by_cases hk : tbl.linkGraph.edist a b ≤ k
  · exact h.complete a b hlt hk
  · apply hnext a b hlt
    apply edist_eq_succ (hnear.trans_lt ?_) hk
    exact_mod_cast Nat.lt_succ_self _

theorem Ready.growing (h : Ready tbl k g) :
    Growing tbl k { g with pce := g.pce.setCurrStepPaths ∅, ret := false } := by
  constructor
  · exact h.layer.ordered
  · intro a b path hlt hpath
    obtain ⟨hshort, hweight⟩ := h.layer.shortest a b path hlt hpath
    exact ⟨hshort, Nat.le_succ_of_le hweight⟩
  · exact h.layer.complete
  · intro key path hpath
    simp at hpath
  · intro a b path hlt hpath hweight
    have := (h.layer.shortest a b path hlt hpath).2
    omega
  · simp
  · simpa using h.base
  · simpa using h.m_step

/-- Every pair that one hop more leads to is found. -/
theorem Ready.genFurtherStepPaths (order : HashOrder) (hp : tbl.LinksPaired) (hk : 0 < k) (h : Ready tbl k g) :
    Growing tbl k (genFurtherStepPaths order g) ∧ Layer tbl (k + 1) (genFurtherStepPaths order g).paths := by
  have hprevious : ∀ prev ∈ order.arrange g.pce.m_step g.pce.prevStepPaths.entries, Previous tbl k prev := by
    intro prev hprev
    have hlookup := AList.mem_lookup_iff.mpr ((order.perm _ _).mem_iff.mp hprev)
    obtain ⟨hlt, hpath, hweight⟩ := (h.previous _ _).mp hlookup
    exact ⟨hlt, (h.layer.shortest _ _ _ hlt hpath).1, hweight⟩
  obtain ⟨hgrown, hkept, hadded⟩ := h.growing.foldl fun g' prev hprev _ hg =>
    hg.genFurtherStepPath hp (hprevious prev hprev)
  refine ⟨hgrown, hgrown.layer fun a b hlt hfar => hadded ?_⟩
  obtain ⟨c, hc, hadj⟩ := exists_adj_of_edist_succ hfar
  have hne : a ≠ c := by
    rintro rfl
    rw [SimpleGraph.edist_self] at hc
    norm_cast at hc
    omega
  obtain ⟨key, path, hkey, hjoins, hpath, hweight⟩ := h.layer.exists_path hne hc le_rfl
  have hlookup := (h.previous key path).mpr ⟨hkey, hpath, hweight⟩
  refine ⟨⟨key, path⟩, (order.perm _ _).mem_iff.mpr (AList.mem_lookup_iff.mp hlookup), hlt, b, ?_⟩
  rcases hjoins with rfl | rfl
  · exact .inr ⟨hadj, .inr rfl⟩
  · exact .inl ⟨hadj, .inr rfl⟩

theorem prevStepPaths_succ (pce : CPCE) :
    prevStepPaths { pce with m_step := pce.m_step + 1 } = currStepPaths pce := by
  rw [prevStepPaths, currStepPaths]
  simp only [Nat.and_one_is_mod]
  by_cases h : pce.m_step % 2 = 0
  · rw [if_pos (by omega), if_neg (by omega)]
  · rw [if_neg (by omega), if_pos (by omega)]

theorem Growing.nextStep (h : Growing tbl k g) (hlayer : Layer tbl (k + 1) g.paths) :
    Ready tbl (k + 1) g.nextStep := by
  refine ⟨hlayer, h.base, congrArg (· + 1) h.m_step, fun key path => ?_⟩
  rw [Generation.nextStep, prevStepPaths_succ]
  constructor
  · exact h.stepped key path
  · rintro ⟨hlt, hpath, hweight⟩
    obtain ⟨path', hpath'⟩ := Option.isSome_iff_exists.mp
      (AList.lookup_isSome.mpr (h.steps key.1 key.2 path hlt hpath hweight))
    have hsame := (h.stepped _ path' hpath').2.1
    rw [hpath] at hsame
    cases hsame
    exact hpath'

/-- Nothing is left to find once a step finds nothing. -/
theorem Growing.complete_of_not_ret (h : Growing tbl k g) (hlayer : Layer tbl (k + 1) g.paths)
    (hret : g.ret = false) : ∀ {a b : UINT8}, tbl.linkGraph.Reachable a b → tbl.linkGraph.edist a b ≤ k := by
  intro a b hreach
  obtain ⟨n, hn⟩ := ENat.ne_top_iff_exists.mp (edist_ne_top_iff_reachable.mpr hreach)
  rw [← hn]
  induction n generalizing b with
  | zero => exact_mod_cast Nat.zero_le k
  | succ n ih =>
    obtain ⟨c, hc, hadj⟩ := exists_adj_of_edist_succ hn.symm
    have hnk : n ≤ k := by exact_mod_cast ih (edist_ne_top_iff_reachable.mp (by rw [hc]; exact ENat.natCast_ne_top n)) hc.symm
    rcases hnk.lt_or_eq with hlt | rfl
    · exact_mod_cast hlt
    · have hne : a ≠ b := by
        rintro rfl
        rw [SimpleGraph.edist_self] at hn
        norm_cast at hn
      obtain ⟨key, path, hlt, -, hpath, hweight⟩ := hlayer.exists_path hne hn.symm le_rfl
      have hfound := h.ret.mpr ⟨_, h.steps key.1 key.2 path hlt hpath hweight⟩
      rw [hret] at hfound
      cases hfound

end

section

variable {tbl : NeighborTable} {m : CFabricPathBaseMap} {a b c : UINT8} {path : CFabricPath}
  {base : UINT8 × CFabricPath} {g : Generation}
  {l : List (Sigma fun _ : UINT8 × UINT8 => CFabricPath)} {neigh : Neighbor} {neighs : List Neighbor}

def addLink (m : CFabricPathBaseMap) (a b : UINT8) (path : CFabricPath) : CFabricPathBaseMap :=
  m.insert a (((m.lookup a).getD ∅).insertIfNew b path)

theorem insertBasePath_eq (m : CFabricPathBaseMap) (a b : UINT8) (path : CFabricPath) :
    insertBasePath m a b path = addLink (addLink m a b path) b a path := rfl

theorem mem_basePathMap_iff : base ∈ basePathMap m a ↔ ((m.lookup a).getD ∅)[base.1]? = some base.2 := by
  obtain ⟨b, path⟩ := base
  rw [basePathMap, Std.TreeMap.mem_toList_iff_getElem?_eq_some]

theorem lookup_addLink (m : CFabricPathBaseMap) (a b c : UINT8) (path : CFabricPath) :
    ((addLink m a b path).lookup c).getD ∅ =
      if c = a then ((m.lookup a).getD ∅).insertIfNew b path else (m.lookup c).getD ∅ := by
  split_ifs with h
  · rw [h, addLink, AList.lookup_insert, Option.getD_some]
  · rw [addLink, AList.lookup_insert_ne h]

theorem mem_of_mem_addLink (h : base ∈ basePathMap (addLink m a b path) c) :
    base ∈ basePathMap m c ∨ c = a ∧ base = (b, path) := by
  rw [mem_basePathMap_iff, lookup_addLink] at h
  split_ifs at h with hc
  · subst hc
    rw [Std.TreeMap.getElem?_insertIfNew] at h
    split_ifs at h with hb
    · exact .inr ⟨rfl, Prod.ext (Std.LawfulEqCmp.eq_of_compare hb.1).symm (Option.some.inj h).symm⟩
    · exact .inl (mem_basePathMap_iff.mpr h)
  · exact .inl (mem_basePathMap_iff.mpr h)

theorem mem_addLink_of_mem (h : base ∈ basePathMap m c) : base ∈ basePathMap (addLink m a b path) c := by
  rw [mem_basePathMap_iff] at h ⊢
  rw [lookup_addLink]
  split_ifs with hc
  · subst hc
    rw [Std.TreeMap.getElem?_insertIfNew, if_neg, h]
    rintro ⟨hb, habsent⟩
    rw [Std.LawfulEqCmp.eq_of_compare hb] at habsent
    rw [Std.TreeMap.getElem?_eq_none habsent] at h
    cases h
  · exact h

theorem exists_mem_addLink (m : CFabricPathBaseMap) (a b : UINT8) (path : CFabricPath) :
    ∃ path', (b, path') ∈ basePathMap (addLink m a b path) a := by
  simp only [mem_basePathMap_iff, lookup_addLink, if_true]
  apply Option.isSome_iff_exists.mp
  rw [← Std.TreeMap.mem_iff_isSome_getElem?, Std.TreeMap.mem_insertIfNew]
  exact .inl Std.ReflCmp.compare_self

/-- What the links gone through so far have left. -/
structure Based (tbl : NeighborTable) (g : Generation) : Prop where
  ordered : ∀ key ∈ g.paths, key.1 ≤ key.2
  shortest : ∀ a b path, a < b → g.paths.lookup (a, b) = some path → Shortest tbl a b path ∧ path.weight = 1
  sound : ∀ a, ∀ base ∈ basePathMap g.pce.m_basePaths a, OneHop tbl a base
  linked : ∀ key ∈ g.paths, ∀ a b, Joins key a b → ∃ path, (b, path) ∈ basePathMap g.pce.m_basePaths a
  ret : g.ret ↔ ∃ key, key ∈ g.paths
  m_step : g.pce.m_step = 0
  odd : g.pce.m_oddStepPaths = ∅
  even : g.pce.m_evenStepPaths = ∅

theorem Based.insert (h : Based tbl g) (hle : a ≤ b) (habsent : (a, b) ∉ g.paths)
    (hshort : a < b → Shortest tbl a b path) (hone : path.weight = 1) :
    Based tbl
      { paths := g.paths.insert (a, b) path
        pce := { g.pce with m_basePaths := insertBasePath g.pce.m_basePaths a b path }
        ret := true } := by
  have honehop (c d : UINT8) (hcd : c ≠ d) (hjoins : Joins (a, b) c d) : OneHop tbl c (d, path) := by
    refine fun _ => ⟨hone, fun key hkey hjoins' => ?_⟩
    have hab : a < b := by
      apply UInt64.lt_of_le_of_ne hle
      rintro rfl
      rcases hjoins with hj | hj <;> (cases hj; exact hcd rfl)
    have hsame : key = (a, b) := by
      rcases hjoins with hj | hj
      · cases hj
        exact hjoins'.eq_of_lt hkey hab
      · cases hj
        exact hjoins'.symm.eq_of_lt hkey hab
    rw [hsame]
    exact hshort hab
  refine ⟨?_, ?_, ?_, ?_, ?_, h.m_step, h.odd, h.even⟩
  · intro key hkey
    rcases (AList.mem_insert _).mp hkey with rfl | hkey
    · exact hle
    · exact h.ordered key hkey
  · intro a' b' path' hlt hpath
    by_cases hkey : (a', b') = (a, b)
    · obtain ⟨rfl, rfl⟩ := Prod.mk.inj hkey
      rw [AList.lookup_insert] at hpath
      cases hpath
      exact ⟨hshort hlt, hone⟩
    · rw [AList.lookup_insert_ne hkey] at hpath
      exact h.shortest a' b' path' hlt hpath
  · intro c base hbase
    rw [insertBasePath_eq] at hbase
    by_cases hcd : c = base.1
    · exact fun hne => absurd hcd hne
    rcases mem_of_mem_addLink hbase with hbase | ⟨rfl, rfl⟩
    · rcases mem_of_mem_addLink hbase with hbase | ⟨rfl, rfl⟩
      · exact h.sound c base hbase
      · exact honehop _ _ hcd (.inl rfl)
    · exact honehop _ _ hcd (.inr rfl)
  · intro key hkey c d hjoins
    rw [insertBasePath_eq]
    rcases (AList.mem_insert _).mp hkey with rfl | hkey
    · rcases hjoins with hj | hj
      · cases hj
        obtain ⟨path', hpath'⟩ := exists_mem_addLink g.pce.m_basePaths a b path
        exact ⟨path', mem_addLink_of_mem hpath'⟩
      · cases hj
        exact exists_mem_addLink _ b a path
    · obtain ⟨path', hpath'⟩ := h.linked key hkey c d hjoins
      exact ⟨path', mem_addLink_of_mem (mem_addLink_of_mem hpath')⟩
  · exact iff_of_true rfl ⟨(a, b), (AList.mem_insert _).mpr (.inl rfl)⟩

/-- The keys of the paths that are there after a link has been gone through. -/
def Linked (neigh : Neighbor) : Set (UINT8 × UINT8) :=
  {key | neigh.state ≠ .deleted ∧ key.1 ≤ key.2 ∧ Joins key neigh.srcDpid neigh.dstDpid}

theorem Shortest.of_link (hlt : a < b) (hneigh : neigh ∈ tbl.links) (hsrc : neigh.srcDpid = a)
    (hdst : neigh.dstDpid = b) : Shortest tbl a b ⟨1, [⟨a, 0, neigh.srcPort⟩, ⟨b, neigh.dstPort, 0⟩]⟩ := by
  have hhop : Hop tbl ⟨a, 0, neigh.srcPort⟩ ⟨b, neigh.dstPort, 0⟩ :=
    ⟨UInt64.ne_of_lt hlt, neigh, hneigh, hsrc, rfl, hdst, rfl⟩
  exact ⟨Trail.pair hhop, rfl, edist_eq_one_iff_adj.mpr (adj_of_hop hhop)⟩

theorem Based.genBasePath (hp : tbl.LinksPaired) (h : Based tbl g)
    (hneigh : neigh.state ≠ .deleted → neigh ∈ tbl.links) :
    Based tbl (genBasePath g neigh) ∧ seen g ⊆ seen (CPCE.genBasePath g neigh) ∧
      Linked neigh ⊆ seen (CPCE.genBasePath g neigh) := by
  rw [CPCE.genBasePath]
  by_cases hdeleted : neigh.state = .deleted
  · rw [if_pos hdeleted]
    exact ⟨h, subset_rfl, fun key hkey => absurd hdeleted hkey.1⟩
  by_cases hfound : (getPath g.paths neigh.srcDpid neigh.dstDpid).isSome
  · rw [if_neg hdeleted, if_pos hfound]
    exact ⟨h, subset_rfl, fun key hkey => (getPath_isSome_iff_of_le hkey.2.1 hkey.2.2).mp hfound⟩
  rw [if_neg hdeleted, if_neg hfound]
  have hneigh := hneigh hdeleted
  by_cases hlt : neigh.srcDpid < neigh.dstDpid
  · simp only [if_pos hlt]
    have habsent := mt (getPath_isSome_iff hlt (.inl rfl)).mpr hfound
    refine ⟨h.insert (UInt64.le_of_lt hlt) habsent (fun _ => .of_link hlt hneigh rfl rfl) rfl, ?_, ?_⟩
    · exact fun key hkey => (AList.mem_insert _).mpr (.inr hkey)
    · rintro key ⟨-, hle, rfl | rfl⟩
      · exact (AList.mem_insert _).mpr (.inl rfl)
      · exact absurd hlt (UInt64.not_lt.mpr hle)
  · simp only [if_neg hlt]
    have hle := UInt64.not_lt.mp hlt
    have habsent := mt (getPath_isSome_iff_of_le hle (.inr rfl)).mpr hfound
    obtain ⟨neigh', hneigh', hsrc, hsport, hdst, hdport⟩ := hp.paired neigh hneigh
    refine ⟨h.insert hle habsent (fun hgt => ?_) rfl, ?_, ?_⟩
    · rw [← hsport, ← hdport]
      exact .of_link hgt hneigh' hsrc hdst
    · exact fun key hkey => (AList.mem_insert _).mpr (.inr hkey)
    · rintro key ⟨-, hkey, rfl | rfl⟩
      · have hsame : neigh.srcDpid = neigh.dstDpid := UInt64.le_antisymm hkey hle
        exact (AList.mem_insert _).mpr (.inl (by rw [hsame]))
      · exact (AList.mem_insert _).mpr (.inl rfl)

theorem Based.genBasePaths (hp : tbl.LinksPaired) (h : Based tbl { g with ret := false }) :
    Based tbl (genBasePaths tbl g) ∧ ∀ n ∈ tbl.links, Linked n ⊆ seen (genBasePaths tbl g) := by
  have hstep : ∀ g, ∀ n ∈ tbl.entries.map fun link => link.2.2, Based tbl g →
      Based tbl (CPCE.genBasePath g n) ∧ seen g ⊆ seen (CPCE.genBasePath g n) ∧
        Linked n ⊆ seen (CPCE.genBasePath g n) := by
    intro g n hn hg
    exact hg.genBasePath hp fun hstate => List.mem_filter.mpr ⟨hn, by simpa using hstate⟩
  obtain ⟨hbased, -, hlinked⟩ := foldl_seen hstep h
  exact ⟨hbased, fun n hn => hlinked n (List.mem_of_mem_filter hn)⟩

theorem Based.layer (h : Based tbl g) (hall : ∀ n ∈ tbl.links, Linked n ⊆ seen g) :
    Layer tbl 1 g.paths ∧ BaseLinks tbl g.pce.m_basePaths := by
  have hadj : ∀ {a b : UINT8}, tbl.linkGraph.Adj a b → ∀ key, key.1 < key.2 → Joins key a b → key ∈ g.paths := by
    intro a b hadj key hlt hjoins
    obtain ⟨-, ⟨n, hn, hsrc, hdst⟩ | ⟨n, hn, hsrc, hdst⟩⟩ := (SimpleGraph.fromRel_adj _ _ _).mp hadj
    all_goals
      have hstate : n.state ≠ .deleted := by simpa using (List.mem_filter.mp hn).2
      apply hall n hn
      refine ⟨hstate, UInt64.le_of_lt hlt, ?_⟩
      rw [hsrc, hdst]
    · exact hjoins
    · exact hjoins.symm
  refine ⟨⟨h.ordered, ?_, ?_⟩, h.sound, ?_⟩
  · intro a b path hlt hpath
    obtain ⟨hshort, hweight⟩ := h.shortest a b path hlt hpath
    exact ⟨hshort, hweight.le⟩
  · intro a b hlt hnear
    have hab := (edist_le_one_iff_adj_or_eq.mp (by exact_mod_cast hnear)).resolve_right (UInt64.ne_of_lt hlt)
    exact hadj hab (a, b) hlt (.inl rfl)
  · intro a b hab
    obtain ⟨key, hlt, hjoins⟩ := exists_key hab.ne
    exact h.linked key (hadj hab key hlt hjoins) a b hjoins

theorem Growing.genFirstStepPathsFrom (hp : tbl.LinksPaired) (h : Growing tbl 1 g) (hl : ∀ out ∈ l, Neighboring tbl out)
    (hfound : ∀ out ∈ l, out.1 ∈ seen g) (hkeys : (l.map Sigma.fst).Nodup) :
    Adds tbl 1 {key | ∃ out ∈ l, ∃ inn ∈ l, Meeting out.1 inn.1 key} g (genFirstStepPathsFrom l g) := by
  induction l generalizing g with
  | nil => exact h.keep fun key ⟨out, hout, _⟩ => absurd hout List.not_mem_nil
  | cons out l ih =>
    obtain ⟨hone, hl⟩ := List.forall_mem_cons.mp hl
    obtain ⟨hfoundOne, hfound⟩ := List.forall_mem_cons.mp hfound
    obtain ⟨hkey, hkeys⟩ := List.nodup_cons.mp hkeys
    have hpass := h.foldl (l := l) fun g' inn hinn hkept hg =>
      hg.genFirstStepPath hp hone (hl inn hinn) (fun heq => hkey (heq ▸ List.mem_map_of_mem hinn))
        ⟨hkept hfoundOne, hkept (hfound inn hinn)⟩
    have hrest := ih hpass.growing hl (fun inn hinn => hpass.kept (hfound inn hinn)) hkeys
    obtain ⟨hgrown, hkept, hadded⟩ := hpass.trans hrest
    refine ⟨hgrown, hkept, fun key hmem => hadded ?_⟩
    obtain ⟨out', hout', inn, hinn, hmeet⟩ := hmem
    rcases List.mem_cons.mp hout' with rfl | hlater <;> rcases List.mem_cons.mp hinn with rfl | hinnlater
    · exact absurd rfl (hmeet.lowers.ne hmeet.1)
    · exact .inl ⟨inn, hinnlater, hmeet⟩
    · exact .inl ⟨out', hlater, hmeet.symm⟩
    · exact .inr ⟨out', hlater, inn, hinnlater, hmeet⟩

theorem Based.genFirstStepPaths (order : HashOrder) (hp : tbl.LinksPaired) (h : Based tbl g)
    (hall : ∀ n ∈ tbl.links, Linked n ⊆ seen g) :
    Growing tbl 1 (genFirstStepPaths order g.nextStep) ∧
      Layer tbl 2 (CPCE.genFirstStepPaths order g.nextStep).paths := by
  obtain ⟨hlayer, hbase⟩ := h.layer hall
  have hcurr : currStepPaths { g.pce with m_step := g.pce.m_step + 1 } = ∅ := by
    rw [currStepPaths]
    split_ifs
    · exact h.odd
    · exact h.even
  have hstart : Growing tbl 1 { g.nextStep with ret := false } := by
    refine ⟨h.ordered, ?_, hlayer.complete, ?_, ?_, ?_, hbase, congrArg (· + 1) h.m_step⟩
    · intro a b path hlt hpath
      obtain ⟨hshort, hweight⟩ := h.shortest a b path hlt hpath
      exact ⟨hshort, by omega⟩
    · intro key path hpath
      simp only [Generation.nextStep, hcurr] at hpath
      simp at hpath
    · intro a b path hlt hpath hweight
      have := (h.shortest a b path hlt hpath).2
      omega
    · simp [Generation.nextStep, hcurr]
  have hperm := order.perm g.nextStep.pce.m_step g.paths.entries
  have hentry : ∀ out ∈ order.arrange g.nextStep.pce.m_step g.paths.entries, g.paths.lookup out.1 = some out.2 :=
    fun out hout => AList.mem_lookup_iff.mpr (hperm.mem_iff.mp hout)
  have hmem : ∀ out ∈ order.arrange g.nextStep.pce.m_step g.paths.entries, out.1 ∈ g.paths :=
    fun out hout => AList.lookup_isSome.mp (by rw [hentry out hout]; rfl)
  obtain ⟨hgrown, hkept, hadded⟩ := hstart.genFirstStepPathsFrom hp
    (fun out hout => ⟨h.ordered _ (hmem out hout), fun hlt => h.shortest _ _ _ hlt (hentry out hout)⟩) hmem
    ((hperm.map Sigma.fst).nodup_iff.mpr g.paths.nodupKeys)
  refine ⟨hgrown, hgrown.layer fun a b hlt hfar => hadded ?_⟩
  obtain ⟨c, hc, hadj⟩ := exists_adj_of_edist_succ hfar
  have hac := edist_eq_one_iff_adj.mp (by exact_mod_cast hc)
  obtain ⟨out, pathOut, houtlt, hout, hpathOut, -⟩ := hlayer.exists_path hac.ne hc le_rfl
  obtain ⟨inn, pathIn, hinnlt, hinn, hpathIn, -⟩ :=
    hlayer.exists_path hadj.ne (by exact_mod_cast edist_eq_one_iff_adj.mpr hadj) le_rfl
  exact ⟨⟨out, pathOut⟩, hperm.mem_iff.mpr (AList.mem_lookup_iff.mp hpathOut), ⟨inn, pathIn⟩,
    hperm.mem_iff.mpr (AList.mem_lookup_iff.mp hpathIn), hlt, houtlt, hinnlt, c, .inl ⟨hout, hinn⟩⟩

end

end CPCE

end DCFabric
