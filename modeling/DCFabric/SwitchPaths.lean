import DCFabric.NeighborTable

namespace DCFabric

inductive SwitchState
  | init | newAccept | connected | stable | unreachable | disconnected | powerOff | closing | closed
  deriving DecidableEq

def OFP13_VERSION : UINT1 := 4

structure CSwitch where
  state : SwitchState
  version : UINT1
  dpid : UINT8
  deriving DecidableEq

/-- What the path computation reads of the switch manager: `m_sws` in the order it iterates, and the
switches by dpid. -/
structure CSwitchMgr where
  sws : List (UINT4 × CSwitch)
  dpidMap : Std.TreeMap UINT8 CSwitch

def CSwitchMgr.getSwitchByDpid (mgr : CSwitchMgr) (dpid : UINT8) : Option CSwitch :=
  mgr.dpidMap[dpid]?

structure SwPathNode where
  swDpid : UINT8
  portNo : UINT4
  deriving DecidableEq

structure SwPath where
  srcDpid : UINT8
  dstDpid : UINT8
  nodeList : List SwPathNode
  deriving DecidableEq

structure SwPathList where
  dstDpid : UINT8
  pathList : List SwPath
  deriving DecidableEq

structure SwTagflow where
  dstSw : CSwitch
  srcSw : Option CSwitch
  outport : UINT4
  deriving DecidableEq

/-- The locals of `updateOneSwPath` that `addNeighborsPath` takes by reference. -/
structure PathSearch where
  swUsed : Std.TreeMap UINT8 UINT8
  pathStack : List SwPath
  tagflowList : List SwTagflow

namespace CTopoMgr

def copyPath (path : SwPath) : SwPath :=
  { srcDpid := path.srcDpid
    dstDpid := path.dstDpid
    nodeList := path.nodeList.map fun node => { swDpid := node.swDpid, portNo := node.portNo } }

def pushNode (curPath : SwPath) (neigh : Neighbor) : SwPath :=
  { copyPath curPath with
    srcDpid := neigh.dstDpid
    nodeList := { swDpid := neigh.dstDpid, portNo := neigh.dstPort } :: (copyPath curPath).nodeList }

/-- One turn of the loop of `addNeighborsPath`. -/
def addNeighborPath (mgr : CSwitchMgr) (dstSw : CSwitch) (curPath : SwPath) (st : PathSearch)
    (neigh : Neighbor) : PathSearch :=
  if neigh.state ≠ .established then st
  else if (mgr.getSwitchByDpid neigh.dstDpid).isNone then st
  else if st.swUsed.contains neigh.dstDpid then st
  else
    let newPath := pushNode curPath neigh
    { swUsed := st.swUsed.insertIfNew neigh.dstDpid neigh.dstDpid
      pathStack := st.pathStack ++ [newPath]
      tagflowList := st.tagflowList ++
        [{ dstSw := dstSw, srcSw := mgr.getSwitchByDpid newPath.srcDpid, outport := neigh.dstPort }] }

def addNeighborsPath (tbl : NeighborTable) (mgr : CSwitchMgr) (dpid : UINT8) (dstSw : CSwitch)
    (curPath : SwPath) (st : PathSearch) : PathSearch :=
  match tbl.getLinks dpid with
  | none => st
  | some neighbors =>
    if neighbors.isEmpty then st
    else neighbors.toList.foldl (fun st link => addNeighborPath mgr dstSw curPath st link.2) st

def pathLoop (tbl : NeighborTable) (mgr : CSwitchMgr) (dstSw : CSwitch) :
    ℕ → PathSearch → List SwPath → PathSearch × List SwPath
  | 0, st, pathList => (st, pathList)
  | fuel + 1, st, pathList =>
    match st.pathStack with
    | [] => (st, pathList)
    | curPath :: rest =>
      let st' := addNeighborsPath tbl mgr curPath.srcDpid dstSw curPath { st with pathStack := rest }
      pathLoop tbl mgr dstSw fuel st' (pathList ++ [curPath])

def selfPath (dpid : UINT8) : SwPath :=
  { srcDpid := dpid, dstDpid := dpid, nodeList := [{ swDpid := dpid, portNo := 0 }] }

/-- The path list together with the tag flows it reports. A path is queued once for the destination
and at most once for each entry of the table, which bounds the turns of the loop. -/
def updateOneSwPath (tbl : NeighborTable) (mgr : CSwitchMgr) (dpid : UINT8) :
    Option (SwPathList × List SwTagflow) :=
  match mgr.getSwitchByDpid dpid with
  | none => none
  | some dstSw =>
    let st : PathSearch :=
      { swUsed := (∅ : Std.TreeMap UINT8 UINT8).insertIfNew dpid dpid
        pathStack := [selfPath dpid]
        tagflowList := [] }
    let (st', pathList) := pathLoop tbl mgr dstSw (tbl.entries.length + 1) st []
    some ({ dstDpid := dpid, pathList := pathList }, st'.tagflowList)

/-- `m_pathLists` as `updatePath` leaves it. -/
def updatePath (tbl : NeighborTable) (mgr : CSwitchMgr) : List SwPathList :=
  mgr.sws.filterMap fun sw =>
    if sw.2.state = .stable ∧ sw.2.version = OFP13_VERSION ∧ sw.2.dpid ≠ 0 then
      (updateOneSwPath tbl mgr sw.2.dpid).map Prod.fst
    else none

def getPath (pathLists : List SwPathList) (srcDpid dstDpid : UINT8) : Option SwPath :=
  pathLists.findSome? fun list =>
    if dstDpid = list.dstDpid then
      list.pathList.find? fun path => dstDpid = path.dstDpid ∧ srcDpid = path.srcDpid
    else none

def getOutPortBetweenSwitch (pathLists : List SwPathList) (srcDpid dstDpid : UINT8) : UINT4 :=
  match getPath pathLists srcDpid dstDpid with
  | none => 0
  | some path =>
    match path.nodeList with
    | [] => 0
    | node :: _ => node.portNo

end CTopoMgr

end DCFabric
