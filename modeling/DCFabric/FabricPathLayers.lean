import DCFabric.FabricPaths
import DCFabric.ListUpdates
import DCFabric.NeighborKeys
import DCFabric.Trails

namespace DCFabric

open ListUpdates LoopRuns SimpleGraph Trails

/-- The links that are not deleted, in the order of the table. -/
def NeighborTable.links (tbl : NeighborTable) : List Neighbor :=
  (tbl.entries.map fun link => link.2.2).filter (·.state ≠ .deleted)

/-- Each link that is not deleted has its counterpart. -/
structure NeighborTable.LinksPaired (tbl : NeighborTable) : Prop where
  keyed : tbl.Keyed
  paired : ∀ n ∈ tbl.links, ∃ n' ∈ tbl.links,
    n'.srcDpid = n.dstDpid ∧ n'.srcPort = n.dstPort ∧ n'.dstDpid = n.srcDpid ∧ n'.dstPort = n.srcPort

theorem NeighborTable.LinksPaired.getLink {tbl : NeighborTable} (h : tbl.LinksPaired) {n : Neighbor}
    (hn : n ∈ tbl.links) : tbl.getLink n.srcDpid n.srcPort = some n ∧ n.state ≠ .deleted := by
  obtain ⟨hmem, hstate⟩ := List.mem_filter.mp hn
  obtain ⟨entry, hentry, rfl⟩ := List.mem_map.mp hmem
  exact ⟨h.keyed.getLink_of_mem hentry, by simpa using hstate⟩

/-- Switches are adjacent where a link joins them. -/
def NeighborTable.linkGraph (tbl : NeighborTable) : SimpleGraph UINT8 :=
  .fromRel fun a b => ∃ n ∈ tbl.links, n.srcDpid = a ∧ n.dstDpid = b

namespace CPCE

/-- A link leads from the out port of one node to the in port of the other. -/
def Hop (tbl : NeighborTable) (x y : CFabricPathNode) : Prop :=
  x.dpid ≠ y.dpid ∧ ∃ n ∈ tbl.links,
    n.srcDpid = x.dpid ∧ n.srcPort = x.outport ∧ n.dstDpid = y.dpid ∧ n.dstPort = y.inport

/-- The nodes lead from one switch to the other, each by a link to the next one. -/
abbrev Leads (tbl : NeighborTable) (a b : UINT8) (nodes : List CFabricPathNode) : Prop :=
  Trail CFabricPathNode.dpid (Hop tbl) a b nodes

/-- A path that leads from one switch to the other as it is, or turned round. -/
structure Spans (tbl : NeighborTable) (a b : UINT8) (path : CFabricPath) (reverse : Bool) : Prop where
  leads : Leads tbl a b (dupPath path.nodes reverse)
  hops : path.nodes.length = path.weight + 1

structure Shortest (tbl : NeighborTable) (a b : UINT8) (path : CFabricPath) : Prop where
  leads : Leads tbl a b path.nodes
  hops : path.nodes.length = path.weight + 1
  minimal : tbl.linkGraph.edist a b = path.weight

/-- The key of the path between two switches. -/
def Joins (key : UINT8 × UINT8) (a b : UINT8) : Prop := key = (a, b) ∨ key = (b, a)

section

variable {tbl : NeighborTable} {a b c : UINT8} {x y : CFabricPathNode} {path : CFabricPath} {nodes left right : List CFabricPathNode}

theorem adj_of_hop (h : Hop tbl x y) : tbl.linkGraph.Adj x.dpid y.dpid := by
  obtain ⟨hne, n, hn, hsrc, -, hdst, -⟩ := h
  exact (SimpleGraph.fromRel_adj _ _ _).mpr ⟨hne, .inl ⟨n, hn, hsrc, hdst⟩⟩

theorem hop_swap (hp : tbl.LinksPaired) (h : Hop tbl x y) : Hop tbl (swapPorts y) (swapPorts x) := by
  obtain ⟨hne, n, hn, hsrc, hsport, hdst, hdport⟩ := h
  obtain ⟨n', hn', hsrc', hsport', hdst', hdport'⟩ := hp.paired n hn
  exact ⟨hne.symm, n', hn', hsrc'.trans hdst, hsport'.trans hdport, hdst'.trans hsrc, hdport'.trans hsport⟩

theorem Leads.dupPath_true (hp : tbl.LinksPaired) (h : Leads tbl a b nodes) : Leads tbl b a (dupPath nodes true) :=
  h.reverse (fun _ => rfl) fun _ _ => hop_swap hp

theorem Shortest.spans (h : Shortest tbl a b path) : Spans tbl a b path false := ⟨h.leads, h.hops⟩

theorem Shortest.spans_back (hp : tbl.LinksPaired) (h : Shortest tbl a b path) : Spans tbl b a path true :=
  ⟨h.leads.dupPath_true hp, h.hops⟩

theorem length_dupPath (nodes : List CFabricPathNode) (reverse : Bool) :
    (dupPath nodes reverse).length = nodes.length := by
  cases reverse with
  | true => simp [dupPath]
  | false => rfl

theorem Leads.joinNodes (hl : Leads tbl a c left) (hr : Leads tbl c b right) :
    Leads tbl a b (joinNodes left right) ∧ (joinNodes left right).length + 1 = left.length + right.length := by
  obtain ⟨l, t, rfl, ht⟩ := hl.eq_concat
  obtain ⟨h, r, rfl, hh⟩ := hr.eq_cons
  have hjoin : CPCE.joinNodes (l ++ [t]) (h :: r) = l ++ [{ t with outport := h.outport }] ++ r := by
    simp [CPCE.joinNodes]
  rw [hjoin]
  constructor
  · apply hl.join hr
    · exact ht
    · exact fun x hx => hx
    · intro x hx
      obtain ⟨hne, n, hn, hsrc, hsport, hdst⟩ := hx
      rw [hh] at hne hsrc
      rw [← ht] at hne hsrc
      exact ⟨hne, n, hn, hsrc, hsport, hdst⟩
  · simp only [List.length_append, List.length_cons, List.length_nil]
    omega

theorem ends_of_leads (h : Leads tbl a b nodes) : ends nodes = (a, b) := by
  rw [ends, h.head, h.last]
  rfl

theorem getPath_of_lt {paths : CFabricPathMap} (h : a < b) : getPath paths a b = paths.lookup (a, b) := by
  have hkey : (if a < b then a else b, if a < b then b else a) = (a, b) := by rw [if_pos h, if_pos h]
  exact congrArg (fun key => paths.lookup key) hkey

theorem getPath_of_gt {paths : CFabricPathMap} (h : b < a) : getPath paths a b = paths.lookup (b, a) := by
  have hlt := UInt64.lt_asymm h
  have hkey : (if a < b then a else b, if a < b then b else a) = (b, a) := by rw [if_neg hlt, if_neg hlt]
  exact congrArg (fun key => paths.lookup key) hkey

theorem Joins.symm {key : UINT8 × UINT8} (h : Joins key a b) : Joins key b a := h.elim .inr .inl

theorem Joins.eq_of_lt {key : UINT8 × UINT8} (h : Joins key a b) (hkey : key.1 < key.2) (hlt : a < b) :
    key = (a, b) := by
  rcases h with rfl | rfl
  · rfl
  · exact absurd hkey (UInt64.lt_asymm hlt)

theorem Joins.ne {key : UINT8 × UINT8} (h : Joins key a b) (hkey : key.1 < key.2) : a ≠ b := by
  rintro rfl
  rcases h with rfl | rfl
  · exact UInt64.lt_irrefl a hkey
  · exact UInt64.lt_irrefl a hkey

/-- The path between two switches, whichever is named first. -/
theorem getPath_isSome_iff_of_le {paths : CFabricPathMap} {key : UINT8 × UINT8} (hle : key.1 ≤ key.2)
    (h : Joins key a b) : (getPath paths a b).isSome ↔ key ∈ paths := by
  rcases UInt64.lt_or_eq_of_le hle with hlt | heq
  · rcases h with rfl | rfl
    · rw [getPath_of_lt hlt, AList.lookup_isSome]
    · rw [getPath_of_gt hlt, AList.lookup_isSome]
  · obtain ⟨rfl, rfl⟩ : a = key.1 ∧ b = key.1 := by
      rcases h with rfl | rfl
      · exact ⟨rfl, heq.symm⟩
      · exact ⟨heq.symm, rfl⟩
    have hkey : (if key.1 < key.1 then key.1 else key.1, if key.1 < key.1 then key.1 else key.1) = key := by
      rw [ite_self]
      exact Prod.ext rfl heq
    rw [← AList.lookup_isSome]
    exact iff_of_eq (congrArg (fun key => (paths.lookup key).isSome = true) hkey)

theorem getPath_isSome_iff {paths : CFabricPathMap} {key : UINT8 × UINT8} (hlt : key.1 < key.2)
    (h : Joins key a b) : (getPath paths a b).isSome ↔ key ∈ paths :=
  getPath_isSome_iff_of_le (UInt64.le_of_lt hlt) h

end

/-- The paths between the switches that at most `k` hops lead to. -/
structure Layer (tbl : NeighborTable) (k : ℕ) (paths : CFabricPathMap) : Prop where
  ordered : ∀ key ∈ paths, key.1 ≤ key.2
  shortest : ∀ a b path, a < b → paths.lookup (a, b) = some path → Shortest tbl a b path ∧ path.weight ≤ k
  complete : ∀ a b, a < b → tbl.linkGraph.edist a b ≤ k → (a, b) ∈ paths

/-- A link from a switch, with a path of one hop. -/
def OneHop (tbl : NeighborTable) (a : UINT8) (base : UINT8 × CFabricPath) : Prop :=
  a ≠ base.1 → base.2.weight = 1 ∧ ∀ key : UINT8 × UINT8, key.1 < key.2 → Joins key a base.1 →
    Shortest tbl key.1 key.2 base.2

structure BaseLinks (tbl : NeighborTable) (m_basePaths : CFabricPathBaseMap) : Prop where
  sound : ∀ a, ∀ base ∈ basePathMap m_basePaths a, OneHop tbl a base
  complete : ∀ a b, tbl.linkGraph.Adj a b → ∃ path, (b, path) ∈ basePathMap m_basePaths a

/-- The step in which the paths of `k + 1` hops are added to those of at most `k`. -/
structure Growing (tbl : NeighborTable) (k : ℕ) (g : Generation) : Prop where
  ordered : ∀ key ∈ g.paths, key.1 ≤ key.2
  shortest : ∀ a b path, a < b → g.paths.lookup (a, b) = some path → Shortest tbl a b path ∧ path.weight ≤ k + 1
  complete : ∀ a b, a < b → tbl.linkGraph.edist a b ≤ k → (a, b) ∈ g.paths
  stepped : ∀ key path, g.pce.currStepPaths.lookup key = some path →
    key.1 < key.2 ∧ g.paths.lookup key = some path ∧ path.weight = k + 1
  steps : ∀ a b path, a < b → g.paths.lookup (a, b) = some path → path.weight = k + 1 → (a, b) ∈ g.pce.currStepPaths
  ret : g.ret ↔ ∃ key, key ∈ g.pce.currStepPaths
  base : BaseLinks tbl g.pce.m_basePaths
  m_step : g.pce.m_step = k

def seen (g : Generation) : Set (UINT8 × UINT8) := {key | key ∈ g.paths}

/-- What a part of the step leaves, with the paths that are due by then. -/
structure Adds (tbl : NeighborTable) (k : ℕ) (due : Set (UINT8 × UINT8)) (g g' : Generation) : Prop where
  growing : Growing tbl k g'
  kept : seen g ⊆ seen g'
  added : due ⊆ seen g'

section

variable {tbl : NeighborTable} {k : ℕ} {a b c : UINT8} {g : Generation} {pathLeft pathRight : CFabricPath}
  {reverseLeft reverseRight : Bool} {pce : CPCE} {stepPaths : CFabricPathMap} {due : Set (UINT8 × UINT8)}

@[simp] theorem currStepPaths_setCurrStepPaths : (pce.setCurrStepPaths stepPaths).currStepPaths = stepPaths := by
  rw [setCurrStepPaths, currStepPaths]
  split_ifs with h
  · rfl
  · rfl

@[simp] theorem setCurrStepPaths_m_step : (pce.setCurrStepPaths stepPaths).m_step = pce.m_step := by
  rw [setCurrStepPaths]
  split_ifs <;> rfl

@[simp] theorem setCurrStepPaths_m_basePaths : (pce.setCurrStepPaths stepPaths).m_basePaths = pce.m_basePaths := by
  rw [setCurrStepPaths]
  split_ifs <;> rfl

theorem Growing.keep (h : Growing tbl k g) (hdue : due ⊆ seen g) : Adds tbl k due g g := ⟨h, subset_rfl, hdue⟩

/-- A path of `k + 1` hops between switches that no path has been found for. -/
theorem Growing.genPath (h : Growing tbl k g) (hab : a < b) (habsent : (a, b) ∉ g.paths)
    (hl : Spans tbl a c pathLeft reverseLeft) (hr : Spans tbl c b pathRight reverseRight)
    (hk : pathLeft.weight + pathRight.weight = k + 1) (hdue : ∀ key ∈ due, key = (a, b)) :
    Adds tbl k due g (genPath g pathLeft reverseLeft pathRight reverseRight) := by
  have hlhops := hl.hops
  have hrhops := hr.hops
  obtain ⟨hleads, hlen⟩ := hl.leads.joinNodes hr.leads
  rw [length_dupPath, length_dupPath] at hlen
  generalize hnodes : joinNodes (dupPath pathLeft.nodes reverseLeft) (dupPath pathRight.nodes reverseRight) = nodes
    at hleads hlen
  have hends : ends nodes = (a, b) := ends_of_leads hleads
  have hgen : CPCE.genPath g pathLeft reverseLeft pathRight reverseRight =
      { paths := g.paths.insert (a, b) ⟨k + 1, nodes⟩
        pce := g.pce.setCurrStepPaths (g.pce.currStepPaths.insert (a, b) ⟨k + 1, nodes⟩)
        ret := true } := by
    rw [CPCE.genPath]
    simp only [hnodes, hk]
    rw [hends]
  have hfar : tbl.linkGraph.edist a b = (k + 1 : ℕ) := by
    apply edist_eq_succ
    · have hlt := hleads.edist_lt fun _ _ hop => adj_of_hop hop
      rwa [show nodes.length = k + 2 by omega] at hlt
    · exact fun hnear => habsent (h.complete a b hab hnear)
  have hshortest : Shortest tbl a b ⟨k + 1, nodes⟩ := ⟨hleads, by simp only; omega, hfar⟩
  have hcurr : (a, b) ∉ g.pce.currStepPaths := by
    intro hmem
    obtain ⟨path, hpath⟩ := Option.isSome_iff_exists.mp (AList.lookup_isSome.mpr hmem)
    exact habsent (AList.lookup_isSome.mp (by rw [(h.stepped _ path hpath).2.1]; rfl))
  rw [hgen]
  refine ⟨⟨?_, ?_, ?_, ?_, ?_, ?_, ?_, ?_⟩, ?_, ?_⟩
  · intro key hkey
    rcases (AList.mem_insert _).mp hkey with rfl | hkey
    · exact UInt64.le_of_lt hab
    · exact h.ordered key hkey
  · intro a' b' path hlt hpath
    by_cases hkey : (a', b') = (a, b)
    · obtain ⟨rfl, rfl⟩ := Prod.mk.inj hkey
      rw [AList.lookup_insert] at hpath
      cases hpath
      exact ⟨hshortest, le_rfl⟩
    · rw [AList.lookup_insert_ne hkey] at hpath
      exact h.shortest a' b' path hlt hpath
  · intro a' b' hlt hnear
    exact (AList.mem_insert _).mpr (.inr (h.complete a' b' hlt hnear))
  · intro key path hpath
    rw [currStepPaths_setCurrStepPaths] at hpath
    by_cases hkey : key = (a, b)
    · subst hkey
      rw [AList.lookup_insert] at hpath ⊢
      cases hpath
      exact ⟨hab, rfl, rfl⟩
    · rw [AList.lookup_insert_ne hkey] at hpath ⊢
      exact h.stepped key path hpath
  · intro a' b' path hlt hpath hweight
    rw [currStepPaths_setCurrStepPaths, AList.mem_insert]
    by_cases hkey : (a', b') = (a, b)
    · exact .inl hkey
    · rw [AList.lookup_insert_ne hkey] at hpath
      exact .inr (h.steps a' b' path hlt hpath hweight)
  · rw [currStepPaths_setCurrStepPaths]
    exact iff_of_true rfl ⟨(a, b), (AList.mem_insert _).mpr (.inl rfl)⟩
  · rw [setCurrStepPaths_m_basePaths]
    exact h.base
  · rw [setCurrStepPaths_m_step]
    exact h.m_step
  · intro key hkey
    exact (AList.mem_insert _).mpr (.inr hkey)
  · intro key hkey
    exact (AList.mem_insert _).mpr (.inl (hdue key hkey))

end

section

variable {tbl : NeighborTable} {k : ℕ} {g : Generation} {prev out inn : Sigma fun _ : UINT8 × UINT8 => CFabricPath}
  {base : UINT8 × CFabricPath}

/-- A path of `k` hops from the step before. -/
structure Previous (tbl : NeighborTable) (k : ℕ) (prev : Sigma fun _ : UINT8 × UINT8 => CFabricPath) : Prop where
  lt : prev.1.1 < prev.1.2
  shortest : Shortest tbl prev.1.1 prev.1.2 prev.2
  weight : prev.2.weight = k

theorem OneHop.spans (hp : tbl.LinksPaired) {a : UINT8} (h : OneHop tbl a base) (hne : a ≠ base.1) :
    base.2.weight = 1 ∧ (base.1 < a → Spans tbl base.1 a base.2 false ∧ Spans tbl a base.1 base.2 true) ∧
      (a < base.1 → Spans tbl a base.1 base.2 false ∧ Spans tbl base.1 a base.2 true) := by
  obtain ⟨hweight, hshort⟩ := h hne
  refine ⟨hweight, fun hlt => ?_, fun hlt => ?_⟩
  · have hback := hshort (base.1, a) hlt (.inr rfl)
    exact ⟨hback.spans, hback.spans_back hp⟩
  · have hahead := hshort (a, base.1) hlt (.inl rfl)
    exact ⟨hahead.spans, hahead.spans_back hp⟩

/-- The pair that a link of the smaller end makes with the larger one. -/
theorem Growing.genAtFirst (hp : tbl.LinksPaired) (h : Growing tbl k g) (hprev : Previous tbl k prev)
    (hbase : OneHop tbl prev.1.1 base) :
    Adds tbl k {key | key.1 < key.2 ∧ Joins key base.1 prev.1.2} g (genAtFirst prev g base) := by
  obtain ⟨hlt, hshort, hweight⟩ := hprev
  rw [CPCE.genAtFirst]
  split_ifs with hsame hfound hless hfirst
  · exact h.keep fun key hkey => absurd hsame (hkey.2.ne hkey.1)
  · exact h.keep fun key hkey => (getPath_isSome_iff hkey.1 hkey.2).mp hfound
  · obtain ⟨hone, hback, -⟩ := hbase.spans hp (UInt64.ne_of_lt hfirst).symm
    apply h.genPath hless (mt (getPath_isSome_iff hless (.inl rfl)).mpr hfound) (hback hfirst).1 hshort.spans
    · omega
    · exact fun key hkey => hkey.2.eq_of_lt hkey.1 hless
  · -- a link of the switch to itself has the path at hand
    have hne : prev.1.1 ≠ base.1 := by
      intro heq
      rw [← heq] at hfound
      exact hfound ((getPath_isSome_iff hlt (.inl rfl)).mpr (h.complete _ _ hlt (by rw [hshort.minimal, hweight])))
    obtain ⟨hone, -, hahead⟩ := hbase.spans hp hne
    have hgt : prev.1.1 < base.1 := UInt64.lt_of_le_of_ne (UInt64.not_lt.mp hfirst) hne
    apply h.genPath hless (mt (getPath_isSome_iff hless (.inl rfl)).mpr hfound) (hahead hgt).2 hshort.spans
    · omega
    · exact fun key hkey => hkey.2.eq_of_lt hkey.1 hless
  · have hgt : prev.1.2 < base.1 := UInt64.lt_of_le_of_ne (UInt64.not_lt.mp hless) (Ne.symm hsame)
    have hfirst : prev.1.1 < base.1 := UInt64.lt_trans hlt hgt
    obtain ⟨hone, -, hahead⟩ := hbase.spans hp (UInt64.ne_of_lt hfirst)
    apply h.genPath hgt (mt (getPath_isSome_iff hgt (.inr rfl)).mpr hfound) (hshort.spans_back hp) (hahead hfirst).1
    · omega
    · exact fun key hkey => hkey.2.symm.eq_of_lt hkey.1 hgt

/-- The pair that a link of the larger end makes with the smaller one. -/
theorem Growing.genAtSecond (hp : tbl.LinksPaired) (h : Growing tbl k g) (hprev : Previous tbl k prev)
    (hbase : OneHop tbl prev.1.2 base) :
    Adds tbl k {key | key.1 < key.2 ∧ Joins key base.1 prev.1.1} g (genAtSecond prev g base) := by
  obtain ⟨hlt, hshort, hweight⟩ := hprev
  rw [CPCE.genAtSecond]
  split_ifs with hsame hfound hless hsecond
  · exact h.keep fun key hkey => absurd hsame (hkey.2.ne hkey.1)
  · exact h.keep fun key hkey => (getPath_isSome_iff hkey.1 hkey.2).mp hfound
  · have hsecond : base.1 < prev.1.2 := UInt64.lt_trans hless hlt
    obtain ⟨hone, hback, -⟩ := hbase.spans hp (UInt64.ne_of_lt hsecond).symm
    apply h.genPath hless (mt (getPath_isSome_iff hless (.inl rfl)).mpr hfound) (hback hsecond).1 (hshort.spans_back hp)
    · omega
    · exact fun key hkey => hkey.2.eq_of_lt hkey.1 hless
  · have hgt : prev.1.1 < base.1 := UInt64.lt_of_le_of_ne (UInt64.not_lt.mp hless) (Ne.symm hsame)
    obtain ⟨hone, hback, -⟩ := hbase.spans hp (UInt64.ne_of_lt hsecond).symm
    apply h.genPath hgt (mt (getPath_isSome_iff hgt (.inr rfl)).mpr hfound) hshort.spans (hback hsecond).2
    · omega
    · exact fun key hkey => hkey.2.symm.eq_of_lt hkey.1 hgt
  · have hgt : prev.1.1 < base.1 := UInt64.lt_of_le_of_ne (UInt64.not_lt.mp hless) (Ne.symm hsame)
    have hne : prev.1.2 ≠ base.1 := by
      intro heq
      rw [← heq] at hfound
      exact hfound ((getPath_isSome_iff hlt (.inr rfl)).mpr (h.complete _ _ hlt (by rw [hshort.minimal, hweight])))
    obtain ⟨hone, -, hahead⟩ := hbase.spans hp hne
    have hsecond : prev.1.2 < base.1 := UInt64.lt_of_le_of_ne (UInt64.not_lt.mp hsecond) hne
    apply h.genPath hgt (mt (getPath_isSome_iff hgt (.inr rfl)).mpr hfound) hshort.spans (hahead hsecond).1
    · omega
    · exact fun key hkey => hkey.2.symm.eq_of_lt hkey.1 hgt

/-- A path of the table when the first step starts. -/
structure Neighboring (tbl : NeighborTable) (out : Sigma fun _ : UINT8 × UINT8 => CFabricPath) : Prop where
  le : out.1.1 ≤ out.1.2
  shortest : out.1.1 < out.1.2 → Shortest tbl out.1.1 out.1.2 out.2 ∧ out.2.weight = 1

/-- The pair that two paths join over an end they share. -/
def Meeting (out inn key : UINT8 × UINT8) : Prop :=
  key.1 < key.2 ∧ out.1 < out.2 ∧ inn.1 < inn.2 ∧
    ∃ c, Joins out key.1 c ∧ Joins inn c key.2 ∨ Joins inn key.1 c ∧ Joins out c key.2

section

variable {a b c d : UINT8} {key : UINT8 × UINT8}

theorem Meeting.lowers (h : Meeting (a, b) (a, d) key) : Joins key b d := by
  obtain ⟨hkey, hab, had, c, ⟨hout, hinn⟩ | ⟨hinn, hout⟩⟩ := h
  all_goals
    simp only [Joins] at *
    grind

theorem Meeting.uppers (h : Meeting (a, b) (c, b) key) : Joins key a c := by
  obtain ⟨hkey, hab, hcb, c, ⟨hout, hinn⟩ | ⟨hinn, hout⟩⟩ := h
  all_goals
    simp only [Joins] at *
    grind

theorem Meeting.ahead (h : Meeting (a, b) (b, d) key) : Joins key a d := by
  obtain ⟨hkey, hab, hbd, c, ⟨hout, hinn⟩ | ⟨hinn, hout⟩⟩ := h
  all_goals
    simp only [Joins] at *
    grind

theorem Meeting.symm (h : Meeting (a, b) (c, d) key) : Meeting (c, d) (a, b) key := by
  obtain ⟨hkey, hab, hcd, m, hm⟩ := h
  exact ⟨hkey, hcd, hab, m, hm.symm⟩

theorem Meeting.shared (h : Meeting (a, b) (c, d) key) : a = c ∨ a = d ∨ b = c ∨ b = d := by
  obtain ⟨hkey, hab, hcd, c, ⟨hout, hinn⟩ | ⟨hinn, hout⟩⟩ := h
  all_goals
    simp only [Joins] at *
    grind

end

theorem Growing.genFirstStepPath (hp : tbl.LinksPaired) (h : Growing tbl 1 g) (hout : Neighboring tbl out)
    (hinn : Neighboring tbl inn) (hne : out.1 ≠ inn.1) (hfound : out.1 ∈ seen g ∧ inn.1 ∈ seen g) :
    Adds tbl 1 {key | Meeting out.1 inn.1 key} g (genFirstStepPath g out inn) := by
  obtain ⟨⟨a, b⟩, pathOut⟩ := out
  obtain ⟨⟨c, d⟩, pathIn⟩ := inn
  obtain ⟨hab, hout⟩ := hout
  obtain ⟨hcd, hinn⟩ := hinn
  -- a link of a switch to itself has the other path at hand
  have hgotOut := (getPath_isSome_iff_of_le hab (.inl rfl)).mpr hfound.1
  have hgotOut' := (getPath_isSome_iff_of_le hab (.inr rfl)).mpr hfound.1
  have hgotIn := (getPath_isSome_iff_of_le hcd (.inl rfl)).mpr hfound.2
  have hgotIn' := (getPath_isSome_iff_of_le hcd (.inr rfl)).mpr hfound.2
  have hshort (hgot : a ≠ b ∧ c ≠ d) : Shortest tbl a b pathOut ∧ Shortest tbl c d pathIn ∧
      pathOut.weight + pathIn.weight = 1 + 1 ∧ a < b ∧ c < d := by
    obtain ⟨hshortOut, hweightOut⟩ := hout (UInt64.lt_of_le_of_ne hab hgot.1)
    obtain ⟨hshortIn, hweightIn⟩ := hinn (UInt64.lt_of_le_of_ne hcd hgot.2)
    simp only at hweightOut hweightIn
    exact ⟨hshortOut, hshortIn, by omega, UInt64.lt_of_le_of_ne hab hgot.1, UInt64.lt_of_le_of_ne hcd hgot.2⟩
  unfold CPCE.genFirstStepPath
  simp only
  split_ifs with hapart hac hgot hlt had hgot hbc hgot hbd hgot hlt
  · refine h.keep fun key hkey => ?_
    have hshared := hkey.shared
    simp only at hab hcd
    grind
  · subst hac
    exact h.keep fun key hkey => (getPath_isSome_iff hkey.1 hkey.lowers).mp hgot
  · subst hac
    obtain ⟨hout, hinn, hweight, -⟩ := hshort (by constructor <;> (rintro rfl; contradiction))
    apply h.genPath hlt (mt (getPath_isSome_iff hlt (.inl rfl)).mpr hgot) (hout.spans_back hp) hinn.spans hweight
    exact fun key hkey => hkey.lowers.eq_of_lt hkey.1 hlt
  · subst hac
    obtain ⟨hout, hinn, hweight, -⟩ := hshort (by constructor <;> (rintro rfl; contradiction))
    have hgt : d < b := UInt64.lt_of_le_of_ne (UInt64.not_lt.mp hlt) (by rintro rfl; exact hne rfl)
    apply h.genPath hgt (mt (getPath_isSome_iff hgt (.inr rfl)).mpr hgot) (hinn.spans_back hp) hout.spans
    · omega
    · exact fun key hkey => hkey.lowers.symm.eq_of_lt hkey.1 hgt
  · subst had
    exact h.keep fun key hkey => (getPath_isSome_iff hkey.1 hkey.symm.ahead).mp hgot
  · subst had
    obtain ⟨hout, hinn, hweight, hab, hca⟩ := hshort (by constructor <;> (rintro rfl; contradiction))
    have hlt := UInt64.lt_trans hca hab
    apply h.genPath hlt (mt (getPath_isSome_iff hlt (.inl rfl)).mpr hgot) hinn.spans hout.spans
    · omega
    · exact fun key hkey => hkey.symm.ahead.eq_of_lt hkey.1 hlt
  · subst hbc
    exact h.keep fun key hkey => (getPath_isSome_iff hkey.1 hkey.ahead).mp hgot
  · subst hbc
    obtain ⟨hout, hinn, hweight, hab, hbd⟩ := hshort (by constructor <;> (rintro rfl; contradiction))
    have hlt := UInt64.lt_trans hab hbd
    apply h.genPath hlt (mt (getPath_isSome_iff hlt (.inl rfl)).mpr hgot) hout.spans hinn.spans hweight
    exact fun key hkey => hkey.ahead.eq_of_lt hkey.1 hlt
  · subst hbd
    exact h.keep fun key hkey => (getPath_isSome_iff hkey.1 hkey.uppers).mp hgot
  · subst hbd
    obtain ⟨hout, hinn, hweight, -⟩ := hshort (by constructor <;> (rintro rfl; contradiction))
    apply h.genPath hlt (mt (getPath_isSome_iff hlt (.inl rfl)).mpr hgot) hout.spans (hinn.spans_back hp) hweight
    exact fun key hkey => hkey.uppers.eq_of_lt hkey.1 hlt
  · subst hbd
    obtain ⟨hout, hinn, hweight, -⟩ := hshort (by constructor <;> (rintro rfl; contradiction))
    have hgt : c < a := UInt64.lt_of_le_of_ne (UInt64.not_lt.mp hlt) (by rintro rfl; exact hne rfl)
    apply h.genPath hgt (mt (getPath_isSome_iff hgt (.inr rfl)).mpr hgot) hinn.spans (hout.spans_back hp)
    · omega
    · exact fun key hkey => hkey.uppers.symm.eq_of_lt hkey.1 hgt
  · refine h.keep fun key hkey => ?_
    exact absurd hkey.shared (by tauto)

end

end CPCE

end DCFabric
