import DCFabric.BncTypes
import DCFabric.FlowTables
import DCFabric.KeyedLists

namespace DCFabric

open FlowTables (Command)

abbrev HostMac := List UINT1

abbrev GroupId := List UINT1

abbrev RuleId := List UINT1

inductive FirewallDirection where
  | FIREWALL_DIRECTION_IN
  | FIREWALL_DIRECTION_OUT
  | other (text : List UINT1)
  deriving DecidableEq

inductive FirewallAction where
  | FIREWALL_ACTION_ACCEPT
  | FIREWALL_ACTION_DROP
  | other (text : List UINT1)
  deriving DecidableEq

structure CFirewallRule where
  m_enabled : Bool
  m_ruleId : RuleId
  m_groupId : GroupId
  m_protocol : UINT1
  m_direction : FirewallDirection
  m_remoteIp : UINT4
  m_remoteIpMask : UINT4
  m_portMin : UINT2
  m_portMax : UINT2
  m_priority : UINT2
  m_action : FirewallAction
  deriving DecidableEq

def CFirewallRule.Compare (r rule : CFirewallRule) : Bool :=
  rule.m_enabled = r.m_enabled ∧ rule.m_ruleId = r.m_ruleId ∧ rule.m_groupId = r.m_groupId ∧
    rule.m_protocol = r.m_protocol ∧ rule.m_direction = r.m_direction ∧ rule.m_remoteIp = r.m_remoteIp ∧
    rule.m_remoteIpMask = r.m_remoteIpMask ∧ rule.m_portMin = r.m_portMin ∧ rule.m_portMax = r.m_portMax ∧
    rule.m_priority = r.m_priority ∧ rule.m_action = r.m_action

theorem CFirewallRule.compare_iff {r rule : CFirewallRule} : r.Compare rule ↔ rule = r := by
  cases r
  cases rule
  simp [CFirewallRule.Compare]

/-- A call of `installFirewallFlow`. -/
structure FirewallFlowCall where
  macAddress : HostMac
  firewallRule : CFirewallRule
  command : Command

abbrev CRuleHMap := KeyedList CFirewallRule CFirewallRule.m_ruleId

/-- The rules that a host has for one remote IP: the code never puts two of one id there. -/
abbrev CFWRuleList := KeyedList CFirewallRule CFirewallRule.m_ruleId

abbrev CRemoteRuleListHMap := KeyedList (UINT4 × CFWRuleList) Prod.fst

/-- The maps of the policy, where an absent entry is an empty one, and its calls of `installFirewallFlow`. -/
structure CFirewallPolicy where
  m_groupHostMap : GroupId → List HostMac
  m_hostGroupMap : HostMac → List GroupId
  m_groups : GroupId → CRuleHMap
  m_policy : HostMac → CRemoteRuleListHMap
  calls : List FirewallFlowCall

inductive SecurityGroupEvent where
  | attachSecurityGroup (macAddress : HostMac) (groupId : GroupId) (walk : List CFirewallRule)
  | detachSecurityGroup (macAddress : HostMac) (groupId : GroupId) (walk : List CFirewallRule)
  | createSecurityGroupRule (groupRule : CFirewallRule)
  | updateSecurityGroupRule (groupRule : CFirewallRule)
  | deleteSecurityGroupRule (groupRule : CFirewallRule)

namespace CFirewallPolicy

def start : CFirewallPolicy := ⟨fun _ => [], fun _ => [], fun _ => .empty, fun _ => .empty, []⟩

def findRemoteRuleList (remoteRuleListMap : CRemoteRuleListHMap) (ip : UINT4) : Option CFWRuleList :=
  (remoteRuleListMap.find ip).map Prod.snd

/-- The calls made for a rule that enters a list: none if the list already has it as it is. -/
def enforceCalls (macAddress : HostMac) (ruleList : CFWRuleList) (groupRule : CFirewallRule) : List FirewallFlowCall :=
  match ruleList.find groupRule.m_ruleId with
  | none => [⟨macAddress, groupRule, .add⟩]
  | some old =>
    if groupRule.Compare old then []
    else [⟨macAddress, old, .deleteStrict⟩, ⟨macAddress, groupRule, .add⟩]

def unenforceCalls (macAddress : HostMac) (ruleList : CFWRuleList) (groupRule : CFirewallRule) :
    List FirewallFlowCall :=
  match ruleList.find groupRule.m_ruleId with
  | none => []
  | some old => [⟨macAddress, old, .deleteStrict⟩]

def setRuleList (s : CFirewallPolicy) (macAddress : HostMac) (ip : UINT4) (ruleList : CFWRuleList) : CFirewallPolicy :=
  { s with m_policy := Function.update s.m_policy macAddress ((s.m_policy macAddress).put (ip, ruleList)) }

def install (s : CFirewallPolicy) (calls : List FirewallFlowCall) : CFirewallPolicy :=
  { s with calls := s.calls ++ calls }

def enforceGroupRule (s : CFirewallPolicy) (macAddress : HostMac) (groupRule : CFirewallRule) : CFirewallPolicy :=
  let ruleList := (findRemoteRuleList (s.m_policy macAddress) groupRule.m_remoteIp).getD .empty
  (s.setRuleList macAddress groupRule.m_remoteIp (ruleList.put groupRule)).install
    (enforceCalls macAddress ruleList groupRule)

def unenforceGroupRule (s : CFirewallPolicy) (macAddress : HostMac) (groupRule : CFirewallRule) : CFirewallPolicy :=
  match findRemoteRuleList (s.m_policy macAddress) groupRule.m_remoteIp with
  | none => s
  | some ruleList =>
    (s.setRuleList macAddress groupRule.m_remoteIp (ruleList.erase groupRule.m_ruleId)).install
      (unenforceCalls macAddress ruleList groupRule)

def enforceGroupRuleMap (s : CFirewallPolicy) (macAddress : HostMac) (walk : List CFirewallRule) : CFirewallPolicy :=
  walk.foldl (fun s groupRule => s.enforceGroupRule macAddress groupRule) s

def unenforceGroupRuleMap (s : CFirewallPolicy) (macAddress : HostMac) (walk : List CFirewallRule) : CFirewallPolicy :=
  walk.foldl (fun s groupRule => s.unenforceGroupRule macAddress groupRule) s

def createGroupHostListMapping (s : CFirewallPolicy) (groupId : GroupId) (macAddress : HostMac) : CFirewallPolicy :=
  { s with m_groupHostMap := Function.update s.m_groupHostMap groupId (s.m_groupHostMap groupId ++ [macAddress]) }

def deleteGroupHostListMapping (s : CFirewallPolicy) (groupId : GroupId) (macAddress : HostMac) : CFirewallPolicy :=
  { s with
    m_groupHostMap := Function.update s.m_groupHostMap groupId ((s.m_groupHostMap groupId).filter (· ≠ macAddress)) }

def createHostGroupListMapping (s : CFirewallPolicy) (macAddress : HostMac) (groupId : GroupId) : CFirewallPolicy :=
  { s with m_hostGroupMap := Function.update s.m_hostGroupMap macAddress (s.m_hostGroupMap macAddress ++ [groupId]) }

def deleteHostGroupListMapping (s : CFirewallPolicy) (macAddress : HostMac) (groupId : GroupId) : CFirewallPolicy :=
  { s with
    m_hostGroupMap := Function.update s.m_hostGroupMap macAddress ((s.m_hostGroupMap macAddress).filter (· ≠ groupId)) }

def attachSecurityGroup (s : CFirewallPolicy) (macAddress : HostMac) (groupId : GroupId) (walk : List CFirewallRule) :
    CFirewallPolicy :=
  ((s.createGroupHostListMapping groupId macAddress).createHostGroupListMapping macAddress groupId).enforceGroupRuleMap
    macAddress walk

def detachSecurityGroup (s : CFirewallPolicy) (macAddress : HostMac) (groupId : GroupId) (walk : List CFirewallRule) :
    CFirewallPolicy :=
  ((s.deleteGroupHostListMapping groupId macAddress).deleteHostGroupListMapping
    macAddress groupId).unenforceGroupRuleMap macAddress walk

def setGroup (s : CFirewallPolicy) (groupId : GroupId) (groupRuleMap : CRuleHMap) : CFirewallPolicy :=
  { s with m_groups := Function.update s.m_groups groupId groupRuleMap }

def createSecurityGroupRule (s : CFirewallPolicy) (groupRule : CFirewallRule) : CFirewallPolicy :=
  (s.m_groupHostMap groupRule.m_groupId).foldl (fun s mac => s.enforceGroupRule mac groupRule)
    (s.setGroup groupRule.m_groupId ((s.m_groups groupRule.m_groupId).insert groupRule))

def updateSecurityGroupRule (s : CFirewallPolicy) (groupRule : CFirewallRule) : CFirewallPolicy :=
  s.createSecurityGroupRule groupRule

def deleteSecurityGroupRule (s : CFirewallPolicy) (groupRule : CFirewallRule) : CFirewallPolicy :=
  match (s.m_groups groupRule.m_groupId).find groupRule.m_ruleId with
  | none => s
  | some groupRuleDelete =>
    ((s.m_groupHostMap groupRule.m_groupId).foldl (fun s mac => s.unenforceGroupRule mac groupRuleDelete) s).setGroup
      groupRule.m_groupId ((s.m_groups groupRule.m_groupId).erase groupRule.m_ruleId)

/-- A walk over the map of a group meets its rules in any order. -/
def step (s : CFirewallPolicy) : SecurityGroupEvent → Option CFirewallPolicy
  | .attachSecurityGroup mac g walk =>
    if walk.Perm (s.m_groups g).toList then some (s.attachSecurityGroup mac g walk) else none
  | .detachSecurityGroup mac g walk =>
    if walk.Perm (s.m_groups g).toList then some (s.detachSecurityGroup mac g walk) else none
  | .createSecurityGroupRule r => some (s.createSecurityGroupRule r)
  | .updateSecurityGroupRule r => some (s.updateSecurityGroupRule r)
  | .deleteSecurityGroupRule r => some (s.deleteSecurityGroupRule r)

/-- The rules stored for a host over all its lists. -/
def enforced (s : CFirewallPolicy) (mac : HostMac) : List CFirewallRule :=
  (s.m_policy mac).toList.flatMap fun p => p.2.toList

end CFirewallPolicy

end DCFabric
