import DCFabric.BncTypes

namespace DCFabric

inductive ElectionState where
  | init | start | ongoing | watching | finished
deriving DecidableEq

inductive ControllerState where
  | init | connected | noResponse | unreachable | disconnected
deriving DecidableEq

inductive ControllerRole where
  | equal | master | slave
deriving DecidableEq

inductive ClusterOper where
  | helloReq | helloRsp | electionProposal | electionNotify | electionInform
  | other (code : INT4)
deriving DecidableEq

def CLUSTER_STATE_INIT : UINT4 := 0

def CLUSTER_STATE_ELECTING : UINT4 := 1

def CLUSTER_STATE_WORKING : UINT4 := 2

structure ClusterController where
  sockfd : INT4
  ip : UINT4
  state : ControllerState
deriving DecidableEq

-- `word0` and `word1` are the data: state and master of a hello, ip of a proposal, master of the others.
structure ClusterInterface where
  operation : ClusterOper
  length : INT4
  word0 : UINT4
  word1 : UINT4
deriving DecidableEq

def ClusterInterface.election (operation : ClusterOper) (ip : UINT4) : ClusterInterface :=
  { operation, length := 4, word0 := ip, word1 := 0 }

def ClusterInterface.hello (operation : ClusterOper) (state master : UINT4) : ClusterInterface :=
  { operation, length := 8, word0 := state, word1 := master }

-- What an election asks its process for; `sendOk` tells on which sockets a write goes out.
structure ClusterService where
  controllerIp : UINT4
  controllers : List ClusterController
  sendOk : INT4 → Bool

inductive Deadlock where
  | heldByItself
deriving DecidableEq

structure CClusterElection where
  m_state : ElectionState
  m_masterIp : UINT4
  m_timer : Bool
  m_mutex : Bool
  m_controllerRole : ControllerRole
  sent : List (INT4 × ClusterInterface)
deriving DecidableEq

namespace ClusterService

def checkRemoteDisconnected (svc : ClusterService) (sockfd : INT4) : Bool := !svc.sendOk sockfd

def generateProposal0 (svc : ClusterService) : UINT4 :=
  svc.controllers.foldl (fun proposal controller =>
    if svc.controllerIp ≠ controller.ip ∧ controller.state = .connected ∧
        !svc.checkRemoteDisconnected controller.sockfd ∧ proposal < controller.ip then
      controller.ip
    else
      proposal) 0

def generateProposal (svc : ClusterService) : UINT4 :=
  if svc.generateProposal0 < svc.controllerIp then svc.controllerIp else svc.generateProposal0

def remoteIp (svc : ClusterService) (sockfd : INT4) : UINT4 :=
  ((svc.controllers.find? (fun controller => controller.sockfd = sockfd)).map ClusterController.ip).getD 0

def audience (svc : ClusterService) : List ClusterController :=
  svc.controllers.filter (fun controller => svc.controllerIp ≠ controller.ip ∧
    (controller.state = .connected ∨ controller.state = .noResponse))

def roleFor (svc : ClusterService) (masterIp : UINT4) : ControllerRole :=
  if masterIp = svc.controllerIp then .master else .slave

end ClusterService

namespace CClusterElection

def new : CClusterElection :=
  { m_state := .init, m_masterIp := 0, m_timer := false, m_mutex := false, m_controllerRole := .equal, sent := [] }

def lock (e : CClusterElection) : Except Deadlock CClusterElection :=
  if e.m_mutex then .error .heldByItself else .ok { e with m_mutex := true }

def unlock (e : CClusterElection) : CClusterElection := { e with m_mutex := false }

def updateRole (e : CClusterElection) (role : ControllerRole) : CClusterElection :=
  if role = e.m_controllerRole then e else { e with m_controllerRole := role }

def sendMsgOut (e : CClusterElection) (svc : ClusterService) (sockfd : INT4) (itf : ClusterInterface) :
    CClusterElection :=
  if svc.sendOk sockfd then { e with sent := e.sent ++ [(sockfd, itf)] } else e

def clusterState (e : CClusterElection) : UINT4 :=
  match e.m_state with
  | .init => CLUSTER_STATE_INIT
  | .finished => CLUSTER_STATE_WORKING
  | _ => CLUSTER_STATE_ELECTING

def sendHelloReq (e : CClusterElection) (svc : ClusterService) (sockfd : INT4) : CClusterElection :=
  e.sendMsgOut svc sockfd (.hello .helloReq e.clusterState e.m_masterIp)

def sendHelloRsp (e : CClusterElection) (svc : ClusterService) (sockfd : INT4) : CClusterElection :=
  e.sendMsgOut svc sockfd (.hello .helloRsp e.clusterState e.m_masterIp)

def sendProposal (e : CClusterElection) (svc : ClusterService) (sockfd : INT4) (ip : UINT4) : CClusterElection :=
  e.sendMsgOut svc sockfd (.election .electionProposal ip)

def sendNotify (e : CClusterElection) (svc : ClusterService) (sockfd : INT4) : CClusterElection :=
  e.sendMsgOut svc sockfd (.election .electionNotify e.m_masterIp)

def sendInform (e : CClusterElection) (svc : ClusterService) (sockfd : INT4) : CClusterElection :=
  e.sendMsgOut svc sockfd (.election .electionInform e.m_masterIp)

def broadcastProposal (e : CClusterElection) (svc : ClusterService) (ip : UINT4) : CClusterElection :=
  svc.audience.foldl (fun e controller => e.sendProposal svc controller.sockfd ip) e

def broadcastNotify (e : CClusterElection) (svc : ClusterService) : CClusterElection :=
  svc.audience.foldl (fun e controller => e.sendNotify svc controller.sockfd) e

def broadcastInform (e : CClusterElection) (svc : ClusterService) : CClusterElection :=
  svc.audience.foldl (fun e controller => e.sendInform svc controller.sockfd) e

-- The state in which the election ends with `masterIp`, with the role that goes with it.
def finish (e : CClusterElection) (svc : ClusterService) (masterIp : UINT4) : CClusterElection :=
  { e with m_masterIp := masterIp, m_state := .finished }.updateRole (svc.roleFor masterIp)

def start (e : CClusterElection) (svc : ClusterService) : Except Deadlock CClusterElection := do
  let e ← e.lock
  let proposal := svc.generateProposal0
  if 0 < proposal then
    let proposal := if proposal < svc.controllerIp then svc.controllerIp else proposal
    let e := { e with m_masterIp := proposal, m_state := .start }.broadcastProposal svc proposal
    return { e with m_timer := true }.unlock
  else
    let e := { e with m_timer := false, m_masterIp := svc.controllerIp, m_state := .finished }
    return (e.updateRole .master).unlock

def terminate (e : CClusterElection) (svc : ClusterService) : Except Deadlock CClusterElection := do
  let e ← e.lock
  if e.m_state ≠ .finished then
    return ((e.finish svc e.m_masterIp).broadcastNotify svc).unlock
  else
    return e.unlock

def helloReqBody (e : CClusterElection) (svc : ClusterService) (sockfd : INT4) (req : ClusterInterface) :
    Except Deadlock CClusterElection :=
  if req.word0 = CLUSTER_STATE_INIT then
    if e.m_state = .finished then
      if svc.remoteIp sockfd = e.m_masterIp then
        ({ e with m_state := .start }.sendHelloRsp svc sockfd).start svc
      else if svc.controllerIp = e.m_masterIp then
        .ok (e.sendHelloRsp svc sockfd)
      else
        .ok e
    else if e.m_state ≠ .init then
      .ok (e.sendHelloRsp svc sockfd)
    else
      .ok e
  else if e.m_state = .finished ∧ svc.controllerIp = e.m_masterIp then
    .ok (e.sendHelloRsp svc sockfd)
  else
    .ok e

def processHelloReq (e : CClusterElection) (svc : ClusterService) (sockfd : INT4) (itf : ClusterInterface) :
    Except Deadlock (INT4 × CClusterElection) :=
  if itf.operation ≠ .helloReq ∨ itf.length < 8 then
    .ok (BNC_ERR, e)
  else do
    let e ← e.lock
    let e ← e.helloReqBody svc sockfd itf
    return (BNC_OK, e.unlock)

def processHelloRsp (e : CClusterElection) (svc : ClusterService) (itf : ClusterInterface) :
    Except Deadlock (INT4 × CClusterElection) :=
  if itf.operation ≠ .helloRsp ∨ itf.length < 8 then
    .ok (BNC_ERR, e)
  else do
    let e ← e.lock
    if itf.word0 = CLUSTER_STATE_WORKING then
      return (BNC_OK, (e.finish svc itf.word1).unlock)
    else if itf.word0 = CLUSTER_STATE_ELECTING then
      return (BNC_OK, { e with m_state := .watching }.unlock)
    else
      return (BNC_OK, e.unlock)

-- The cases INIT and FINISHED: the controller joins an election that another one has triggered.
def joinElection (e : CClusterElection) (svc : ClusterService) (sockfd : INT4) (ip : UINT4) : CClusterElection :=
  let proposal := svc.generateProposal
  let e := if ip < proposal then e.sendProposal svc sockfd proposal else e
  { e with m_masterIp := if ip < proposal then proposal else ip, m_state := .ongoing }

def proposalBody (e : CClusterElection) (svc : ClusterService) (sockfd : INT4) (ip : UINT4) : CClusterElection :=
  match e.m_state with
  | .init => e.joinElection svc sockfd ip
  | .start => if e.m_masterIp < ip then { e with m_masterIp := ip } else e
  | .ongoing =>
    if ip < e.m_masterIp then
      e.sendProposal svc sockfd e.m_masterIp
    else if e.m_masterIp < ip then
      { e with m_masterIp := ip }
    else
      e
  | .watching => e
  | .finished => e.joinElection svc sockfd ip

def processProposal (e : CClusterElection) (svc : ClusterService) (sockfd : INT4) (itf : ClusterInterface) :
    Except Deadlock (INT4 × CClusterElection) :=
  if itf.operation ≠ .electionProposal ∨ itf.length < 4 then
    .ok (BNC_ERR, e)
  else do
    let e ← e.lock
    return (BNC_OK, (e.proposalBody svc sockfd itf.word0).unlock)

def processNotify (e : CClusterElection) (svc : ClusterService) (itf : ClusterInterface) :
    Except Deadlock (INT4 × CClusterElection) :=
  if itf.operation ≠ .electionNotify ∨ itf.length < 4 then
    .ok (BNC_ERR, e)
  else do
    let e ← { e with m_timer := false }.lock
    if e.m_state ≠ .finished then
      return (BNC_OK, ((e.finish svc itf.word0).broadcastInform svc).unlock)
    else
      return (BNC_OK, e.unlock)

def processInform (e : CClusterElection) (svc : ClusterService) (itf : ClusterInterface) :
    Except Deadlock (INT4 × CClusterElection) :=
  if itf.operation ≠ .electionInform ∨ itf.length < 4 then
    .ok (BNC_ERR, e)
  else do
    let e ← e.lock
    if e.m_masterIp ≠ itf.word0 then
      return (BNC_OK, (e.finish svc itf.word0).unlock)
    else
      return (BNC_OK, e.unlock)

def processMsg (e : CClusterElection) (svc : ClusterService) (sockfd : INT4) (itf : ClusterInterface) :
    Except Deadlock (INT4 × CClusterElection) :=
  match itf.operation with
  | .helloReq => e.processHelloReq svc sockfd itf
  | .helloRsp => e.processHelloRsp svc itf
  | .electionProposal => e.processProposal svc sockfd itf
  | .electionNotify => e.processNotify svc itf
  | .electionInform => e.processInform svc itf
  | .other _ => .ok (BNC_ERR, e)

end CClusterElection

end DCFabric
