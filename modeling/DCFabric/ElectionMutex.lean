import DCFabric.ElectionHandlers
import DCFabric.TransitionRuns

namespace DCFabric

open TransitionRuns

inductive ElectionCall where
  | start
  | terminate
  | message (sockfd : INT4) (itf : ClusterInterface)

def ElectionCall.run (c : ElectionCall) (svc : ClusterService) (e : CClusterElection) :
    Except Deadlock CClusterElection :=
  match c with
  | .start => e.start svc
  | .terminate => e.terminate svc
  | .message sockfd itf => (e.processMsg svc sockfd itf).map Prod.snd

namespace CClusterElection

def callStep (e : CClusterElection) (c : ClusterService × ElectionCall) : Option CClusterElection :=
  (c.2.run c.1 e).toOption

/-- The master of a finished election says hello anew, as a controller that has just been started. -/
structure MasterRestarted (svc : ClusterService) (e : CClusterElection) (sockfd : INT4) (itf : ClusterInterface) :
    Prop where
  operation : itf.operation = .helloReq
  length : ¬itf.length < 8
  state : itf.word0 = CLUSTER_STATE_INIT
  finished : e.m_state = .finished
  master : svc.remoteIp sockfd = e.m_masterIp

variable {e e' : CClusterElection} {svc : ClusterService} {sockfd : INT4} {itf : ClusterInterface}

theorem lock_free (he : e.m_mutex = false) : e.lock = .ok { e with m_mutex := true } := by
  rw [lock, he]
  rfl

theorem lock_held (he : e.m_mutex = true) : e.lock = .error .heldByItself := by
  rw [lock, he]
  rfl

theorem sendMsgOut_m_mutex : (e.sendMsgOut svc sockfd itf).m_mutex = e.m_mutex := by
  rw [sendMsgOut]
  split <;> rfl

theorem start_held (he : e.m_mutex = true) : e.start svc = .error .heldByItself := by
  rw [start, lock_held he]
  rfl

theorem start_free (he : e.m_mutex = false) : ∃ e', e.start svc = .ok e' ∧ e'.m_mutex = false := by
  rw [start, lock_free he]
  simp only [bind, Except.bind]
  split
  · exact ⟨_, rfl, rfl⟩
  · exact ⟨_, rfl, rfl⟩

theorem terminate_free (he : e.m_mutex = false) : ∃ e', e.terminate svc = .ok e' ∧ e'.m_mutex = false := by
  rw [terminate, lock_free he]
  simp only [bind, Except.bind]
  split
  · exact ⟨_, rfl, rfl⟩
  · exact ⟨_, rfl, rfl⟩

theorem helloReqBody_held (e : CClusterElection) (he : e.m_mutex = true)
    (hi : itf.word0 = CLUSTER_STATE_INIT) (hf : e.m_state = .finished) (hm : svc.remoteIp sockfd = e.m_masterIp) :
    e.helloReqBody svc sockfd itf = .error .heldByItself := by
  rw [helloReqBody, if_pos hi, if_pos hf, if_pos hm]
  apply start_held
  rw [sendHelloRsp, sendMsgOut_m_mutex]
  exact he

theorem helloReqBody_ok (e : CClusterElection) (svc : ClusterService) (sockfd : INT4) (itf : ClusterInterface)
    (hn : ¬(itf.word0 = CLUSTER_STATE_INIT ∧ e.m_state = .finished ∧ svc.remoteIp sockfd = e.m_masterIp)) :
    ∃ e', e.helloReqBody svc sockfd itf = .ok e' := by
  rw [helloReqBody]
  split
  · next hi =>
    split
    · next hf =>
      rw [if_neg (fun hm => hn ⟨hi, hf, hm⟩)]
      split <;> exact ⟨_, rfl⟩
    · split <;> exact ⟨_, rfl⟩
  · split <;> exact ⟨_, rfl⟩

theorem processHelloReq_held (he : e.m_mutex = false) (hr : MasterRestarted svc e sockfd itf) :
    e.processHelloReq svc sockfd itf = .error .heldByItself := by
  have hvalid : ¬(itf.operation ≠ .helloReq ∨ itf.length < 8) := not_or.2 ⟨not_not.2 hr.operation, hr.length⟩
  rw [processHelloReq, if_neg hvalid, lock_free he]
  simp only [bind, Except.bind]
  rw [helloReqBody_held { e with m_mutex := true } rfl hr.state hr.finished hr.master]

theorem processHelloReq_free (he : e.m_mutex = false) (hr : ¬MasterRestarted svc e sockfd itf) :
    ∃ ret e', e.processHelloReq svc sockfd itf = .ok (ret, e') ∧ e'.m_mutex = false := by
  rw [processHelloReq]
  split
  · exact ⟨BNC_ERR, e, rfl, he⟩
  · next hvalid =>
    obtain ⟨hop, hlen⟩ := not_or.1 hvalid
    obtain ⟨e', hb⟩ := helloReqBody_ok { e with m_mutex := true } svc sockfd itf
      (fun h => hr ⟨not_not.1 hop, hlen, h.1, h.2.1, h.2.2⟩)
    rw [lock_free he]
    simp only [bind, Except.bind]
    rw [hb]
    exact ⟨BNC_OK, _, rfl, rfl⟩

theorem processHelloRsp_free (he : e.m_mutex = false) :
    ∃ ret e', e.processHelloRsp svc itf = .ok (ret, e') ∧ e'.m_mutex = false := by
  rw [processHelloRsp, lock_free he]
  simp only [bind, Except.bind]
  split
  · exact ⟨BNC_ERR, e, rfl, he⟩
  · split
    · exact ⟨BNC_OK, _, rfl, rfl⟩
    · split <;> exact ⟨BNC_OK, _, rfl, rfl⟩

theorem processProposal_free (he : e.m_mutex = false) :
    ∃ ret e', e.processProposal svc sockfd itf = .ok (ret, e') ∧ e'.m_mutex = false := by
  rw [processProposal, lock_free he]
  simp only [bind, Except.bind]
  split
  · exact ⟨BNC_ERR, e, rfl, he⟩
  · exact ⟨BNC_OK, _, rfl, rfl⟩

theorem processNotify_free (he : e.m_mutex = false) :
    ∃ ret e', e.processNotify svc itf = .ok (ret, e') ∧ e'.m_mutex = false := by
  have hs : { e with m_timer := false }.m_mutex = false := he
  rw [processNotify, lock_free hs]
  simp only [bind, Except.bind]
  split
  · exact ⟨BNC_ERR, e, rfl, he⟩
  · split <;> exact ⟨BNC_OK, _, rfl, rfl⟩

theorem processInform_free (he : e.m_mutex = false) :
    ∃ ret e', e.processInform svc itf = .ok (ret, e') ∧ e'.m_mutex = false := by
  rw [processInform, lock_free he]
  simp only [bind, Except.bind]
  split
  · exact ⟨BNC_ERR, e, rfl, he⟩
  · split <;> exact ⟨BNC_OK, _, rfl, rfl⟩

theorem processMsg_free (he : e.m_mutex = false) (hr : ¬MasterRestarted svc e sockfd itf) :
    ∃ ret e', e.processMsg svc sockfd itf = .ok (ret, e') ∧ e'.m_mutex = false := by
  rw [processMsg]
  split
  · exact processHelloReq_free he hr
  · exact processHelloRsp_free he
  · exact processProposal_free he
  · exact processNotify_free he
  · exact processInform_free he
  · exact ⟨BNC_ERR, e, rfl, he⟩

theorem processMsg_held (he : e.m_mutex = false) (hr : MasterRestarted svc e sockfd itf) :
    e.processMsg svc sockfd itf = .error .heldByItself := by
  rw [processMsg, hr.operation]
  exact processHelloReq_held he hr

theorem call_free (svc : ClusterService) (c : ElectionCall) (he : e.m_mutex = false)
    (hr : ∀ sockfd itf, c = .message sockfd itf → ¬MasterRestarted svc e sockfd itf) :
    ∃ e', c.run svc e = .ok e' ∧ e'.m_mutex = false := by
  cases c with
  | start => exact start_free he
  | terminate => exact terminate_free he
  | message sockfd itf =>
    obtain ⟨ret, e', hp, hm⟩ := processMsg_free he (hr sockfd itf rfl)
    exact ⟨e', by rw [ElectionCall.run, hp]; rfl, hm⟩

theorem callStep_eq_some {c : ClusterService × ElectionCall} (hs : callStep e c = some e') :
    c.2.run c.1 e = .ok e' := by
  rw [callStep] at hs
  cases hr : c.2.run c.1 e with
  | error d => rw [hr] at hs; cases hs
  | ok e'' => rw [hr] at hs; cases hs; rfl

theorem reachable_free (h : Reaches callStep new e) : e.m_mutex = false := by
  refine h.invariant (P := fun e => e.m_mutex = false) ?_ rfl
  intro e c e' he _ hs
  have hrun := callStep_eq_some hs
  by_cases hr : ∃ sockfd itf, c.2 = .message sockfd itf ∧ MasterRestarted c.1 e sockfd itf
  · obtain ⟨sockfd, itf, hc, hr⟩ := hr
    rw [hc, ElectionCall.run, processMsg_held he hr] at hrun
    cases hrun
  · obtain ⟨e'', hrun', hm⟩ := call_free c.1 c.2 he
      (fun sockfd itf hc hr' => hr ⟨sockfd, itf, hc, hr'⟩)
    cases hrun.symm.trans hrun'
    exact hm

theorem call_completes_iff {c : ElectionCall} (h : Reaches callStep new e) :
    (∃ e', c.run svc e = .ok e' ∧ e'.m_mutex = false) ↔
      ∀ sockfd itf, c = .message sockfd itf → ¬MasterRestarted svc e sockfd itf := by
  have he := reachable_free h
  constructor
  · rintro ⟨e', hrun, -⟩ sockfd itf rfl hr
    rw [ElectionCall.run, processMsg_held he hr] at hrun
    cases hrun
  · exact call_free svc c he

def oneRemote : ClusterService :=
  { controllerIp := 1, controllers := [{ sockfd := 5, ip := 2, state := .connected }], sendOk := fun _ => true }

def slaveOfRemote : CClusterElection :=
  { m_state := .finished, m_masterIp := 2, m_timer := false, m_mutex := false, m_controllerRole := .slave, sent := [] }

theorem slaveOfRemote_reachable : Reaches callStep new slaveOfRemote := by
  have hexec : exec callStep new [(oneRemote, .message 5 (.hello .helloRsp CLUSTER_STATE_WORKING 2))] =
      some slaveOfRemote := rfl
  exact Reaches.of_exec hexec

theorem hello_completes : ∃ e', (ElectionCall.message 5 (.hello .helloReq CLUSTER_STATE_WORKING 2)).run
    oneRemote slaveOfRemote = .ok e' ∧ e'.m_mutex = false := by
  apply (call_completes_iff slaveOfRemote_reachable).2
  intro sockfd itf hc hr
  cases hc
  exact absurd hr.state (by decide)

theorem restarted_master_deadlocks : Reaches callStep new slaveOfRemote ∧
    (ElectionCall.message 5 (.hello .helloReq CLUSTER_STATE_INIT 0)).run oneRemote slaveOfRemote =
      .error .heldByItself :=
  ⟨slaveOfRemote_reachable, rfl⟩

end CClusterElection

end DCFabric
