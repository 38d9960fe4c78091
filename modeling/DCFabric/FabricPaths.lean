import DCFabric.LoopRuns
import DCFabric.NeighborTable

namespace DCFabric

open LoopRuns

structure CFabricPathNode where
  dpid : UINT8
  inport : UINT4
  outport : UINT4
deriving DecidableEq

/-- `nodes` are the ones from `head` to `head->prev`. -/
structure CFabricPath where
  weight : ℕ
  nodes : List CFabricPathNode
deriving DecidableEq

abbrev CFabricPathMap := AList fun _ : UINT8 × UINT8 => CFabricPath

abbrev CFabricPathBaseMap := AList fun _ : UINT8 => Std.TreeMap UINT8 CFabricPath

/-- The order in which a hash map is gone through in each step. -/
structure HashOrder where
  arrange : ℕ → List (Sigma fun _ : UINT8 × UINT8 => CFabricPath) → List (Sigma fun _ : UINT8 × UINT8 => CFabricPath)
  perm : ∀ m_step l, (arrange m_step l).Perm l

structure CPCE where
  m_paths : CFabricPathMap
  m_basePaths : CFabricPathBaseMap
  m_oddStepPaths : CFabricPathMap
  m_evenStepPaths : CFabricPathMap
  m_step : ℕ

namespace CPCE

def getPath (paths : CFabricPathMap) (srcDpid dstDpid : UINT8) : Option CFabricPath :=
  let src := if srcDpid < dstDpid then srcDpid else dstDpid
  let dst := if srcDpid < dstDpid then dstDpid else srcDpid
  paths.lookup (src, dst)

def getOutPort (pce : CPCE) (srcDpid dstDpid : UINT8) : UINT4 :=
  match getPath pce.m_paths srcDpid dstDpid with
  | some path =>
    if srcDpid < dstDpid then (path.nodes.head?.map CFabricPathNode.outport).getD 0
    else (path.nodes.getLast?.map CFabricPathNode.inport).getD 0
  | none => 0

def swapPorts (node : CFabricPathNode) : CFabricPathNode := ⟨node.dpid, node.outport, node.inport⟩

def dupPath (path : List CFabricPathNode) (reverse : Bool) : List CFabricPathNode :=
  if reverse then path.reverse.map swapPorts else path

/-- The tail of the left path takes the place of the head of the right one. -/
def joinNodes (left right : List CFabricPathNode) : List CFabricPathNode :=
  left.dropLast ++ (left.getLast?.map fun leftTail =>
    { leftTail with outport := (right.head?.map CFabricPathNode.outport).getD 0 }).toList ++ right.tail

/-- The dpids of `head` and of `head->prev`. -/
def ends (nodes : List CFabricPathNode) : UINT8 × UINT8 :=
  ((nodes.head?.map CFabricPathNode.dpid).getD 0, (nodes.getLast?.map CFabricPathNode.dpid).getD 0)

def prevStepPaths (pce : CPCE) : CFabricPathMap :=
  if pce.m_step &&& 1 ≠ 0 then pce.m_evenStepPaths else pce.m_oddStepPaths

def currStepPaths (pce : CPCE) : CFabricPathMap :=
  if pce.m_step &&& 1 ≠ 0 then pce.m_oddStepPaths else pce.m_evenStepPaths

def setCurrStepPaths (pce : CPCE) (stepPaths : CFabricPathMap) : CPCE :=
  if pce.m_step &&& 1 ≠ 0 then { pce with m_oddStepPaths := stepPaths } else { pce with m_evenStepPaths := stepPaths }

/-- The locals of `generate`, with whether the step at hand has found any path. -/
structure Generation where
  paths : CFabricPathMap
  pce : CPCE
  ret : Bool

def genPath (g : Generation) (pathLeft : CFabricPath) (reverseLeft : Bool) (pathRight : CFabricPath)
    (reverseRight : Bool) : Generation :=
  let left := joinNodes (dupPath pathLeft.nodes reverseLeft) (dupPath pathRight.nodes reverseRight)
  let pathGen : CFabricPath := ⟨pathLeft.weight + pathRight.weight, left⟩
  { paths := g.paths.insert (ends left) pathGen
    pce := g.pce.setCurrStepPaths (g.pce.currStepPaths.insert (ends left) pathGen)
    ret := true }

def insertBasePath (m_basePaths : CFabricPathBaseMap) (srcDpid dstDpid : UINT8) (path : CFabricPath) :
    CFabricPathBaseMap :=
  let dstMap := (m_basePaths.lookup srcDpid).getD ∅
  let m_basePaths := m_basePaths.insert srcDpid (dstMap.insertIfNew dstDpid path)
  let srcMap := (m_basePaths.lookup dstDpid).getD ∅
  m_basePaths.insert dstDpid (srcMap.insertIfNew srcDpid path)

/-- What is done for a link of the table. -/
def genBasePath (g : Generation) (neigh : Neighbor) : Generation :=
  if neigh.state = .deleted then g
  else if (getPath g.paths neigh.srcDpid neigh.dstDpid).isSome then g
  else
    let (srcDpid, srcPort, dstDpid, dstPort) :=
      if neigh.srcDpid < neigh.dstDpid then (neigh.srcDpid, neigh.srcPort, neigh.dstDpid, neigh.dstPort)
      else (neigh.dstDpid, neigh.dstPort, neigh.srcDpid, neigh.srcPort)
    let path : CFabricPath := ⟨1, [⟨srcDpid, 0, srcPort⟩, ⟨dstDpid, dstPort, 0⟩]⟩
    { paths := g.paths.insert (srcDpid, dstDpid) path
      pce := { g.pce with m_basePaths := insertBasePath g.pce.m_basePaths srcDpid dstDpid path }
      ret := true }

def genBasePaths (tbl : NeighborTable) (g : Generation) : Generation :=
  (tbl.entries.map fun link => link.2.2).foldl genBasePath { g with ret := false }

/-- Two paths of one hop each, in the order they are met. -/
def genFirstStepPath (g : Generation) (out inn : Sigma fun _ : UINT8 × UINT8 => CFabricPath) : Generation :=
  if out.1.2 < inn.1.1 ∨ out.1.1 > inn.1.2 then g
  else if out.1.1 = inn.1.1 then
    if (getPath g.paths out.1.2 inn.1.2).isSome then g
    else if out.1.2 < inn.1.2 then genPath g out.2 true inn.2 false
    else genPath g inn.2 true out.2 false
  else if out.1.1 = inn.1.2 then
    if (getPath g.paths inn.1.1 out.1.2).isSome then g else genPath g inn.2 false out.2 false
  else if out.1.2 = inn.1.1 then
    if (getPath g.paths out.1.1 inn.1.2).isSome then g else genPath g out.2 false inn.2 false
  else if out.1.2 = inn.1.2 then
    if (getPath g.paths out.1.1 inn.1.1).isSome then g
    else if out.1.1 < inn.1.1 then genPath g out.2 false inn.2 true
    else genPath g inn.2 false out.2 true
  else g

/-- `outIt` goes through the paths, and `inIt` through those behind it. -/
def genFirstStepPathsFrom : List (Sigma fun _ : UINT8 × UINT8 => CFabricPath) → Generation → Generation
  | [], g => g
  | out :: neighPaths, g => genFirstStepPathsFrom neighPaths (neighPaths.foldl (genFirstStepPath · out ·) g)

def genFirstStepPaths (order : HashOrder) (g : Generation) : Generation :=
  genFirstStepPathsFrom (order.arrange g.pce.m_step g.paths.entries) { g with ret := false }

/-- A link of the smaller end of a path. -/
def genAtFirst (prev : Sigma fun _ : UINT8 × UINT8 => CFabricPath) (g : Generation) (base : UINT8 × CFabricPath) :
    Generation :=
  if base.1 = prev.1.2 then g
  else if (getPath g.paths base.1 prev.1.2).isSome then g
  else if base.1 < prev.1.2 then
    if base.1 < prev.1.1 then genPath g base.2 false prev.2 false else genPath g base.2 true prev.2 false
  else genPath g prev.2 true base.2 false

/-- A link of its larger end. -/
def genAtSecond (prev : Sigma fun _ : UINT8 × UINT8 => CFabricPath) (g : Generation) (base : UINT8 × CFabricPath) :
    Generation :=
  if base.1 = prev.1.1 then g
  else if (getPath g.paths base.1 prev.1.1).isSome then g
  else if base.1 < prev.1.1 then genPath g base.2 false prev.2 true
  else if base.1 < prev.1.2 then genPath g prev.2 false base.2 true
  else genPath g prev.2 false base.2 false

/-- The links of a switch, in the order of the `std::map`. -/
def basePathMap (m_basePaths : CFabricPathBaseMap) (dpid : UINT8) : List (UINT8 × CFabricPath) :=
  ((m_basePaths.lookup dpid).getD ∅).toList

def genFurtherStepPath (g : Generation) (prev : Sigma fun _ : UINT8 × UINT8 => CFabricPath) : Generation :=
  let g := (basePathMap g.pce.m_basePaths prev.1.1).foldl (genAtFirst prev) g
  (basePathMap g.pce.m_basePaths prev.1.2).foldl (genAtSecond prev) g

def genFurtherStepPaths (order : HashOrder) (g : Generation) : Generation :=
  (order.arrange g.pce.m_step g.pce.prevStepPaths.entries).foldl genFurtherStepPath
    { g with pce := g.pce.setCurrStepPaths ∅, ret := false }

def Generation.nextStep (g : Generation) : Generation := { g with pce := { g.pce with m_step := g.pce.m_step + 1 } }

/-- One round of the loop of `generate`. -/
def furtherPass (order : HashOrder) (g : Generation) : Pass Generation Unit Generation :=
  let g := genFurtherStepPaths order g
  if g.ret then .next () g.nextStep else .leave g

/-- `none` where the fuel is not enough for the loop. -/
def generate (order : HashOrder) (tbl : NeighborTable) (fuel : ℕ) (pce : CPCE) : Option CPCE :=
  let g := genBasePaths tbl
    { paths := ∅, ret := false,
      pce := { pce with m_basePaths := ∅, m_oddStepPaths := ∅, m_evenStepPaths := ∅, m_step := 0 } }
  if ¬ g.ret then some g.pce
  else
    let g := genFirstStepPaths order g.nextStep
    if g.ret then (run (furtherPass order) fuel g.nextStep).map fun r => { r.2.pce with m_paths := r.2.paths }
    else some { g.pce with m_paths := g.paths }

end CPCE

end DCFabric
