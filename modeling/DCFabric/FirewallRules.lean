import DCFabric.CFirewallPolicy
import DCFabric.TransitionRuns

namespace DCFabric

open TransitionRuns

/-- What the security groups are for: who is attached to which, and the rules there are. -/
@[ext] structure SecurityGroups where
  attached : Set (HostMac × GroupId)
  current : Set CFirewallRule

namespace SecurityGroups

/-- The rule's other versions. -/
def without (a : SecurityGroups) (r : CFirewallRule) : Set CFirewallRule :=
  {old ∈ a.current | ¬ (old.m_groupId = r.m_groupId ∧ old.m_ruleId = r.m_ruleId)}

def next (a : SecurityGroups) : SecurityGroupEvent → SecurityGroups
  | .attachSecurityGroup mac g _ => { a with attached := insert (mac, g) a.attached }
  | .detachSecurityGroup mac g _ => { a with attached := a.attached \ {(mac, g)} }
  | .createSecurityGroupRule r | .updateSecurityGroupRule r => { a with current := insert r (a.without r) }
  | .deleteSecurityGroupRule r => { a with current := a.without r }

def required (a : SecurityGroups) : Set (HostMac × CFirewallRule) :=
  {p | p.2 ∈ a.current ∧ (p.1, p.2.m_groupId) ∈ a.attached}

end SecurityGroups

namespace CFirewallPolicy

variable {s s' : CFirewallPolicy} {mac : HostMac} {g : GroupId} {r old : CFirewallRule} {p q : HostMac × CFirewallRule}
  {m : CRemoteRuleListHMap} {ip : UINT4} {l : CFWRuleList}

/-- Where a rule of a host is stored, and the id it is found by there. -/
def place (p : HostMac × CFirewallRule) : HostMac × UINT4 × RuleId := (p.1, p.2.m_remoteIp, p.2.m_ruleId)

/-- The rule is in the host's list for the rule's own remote IP. -/
def Enforces (s : CFirewallPolicy) (p : HostMac × CFirewallRule) : Prop :=
  ∃ l, findRemoteRuleList (s.m_policy p.1) p.2.m_remoteIp = some l ∧ p.2 ∈ l

/-- A list holds rules of its own remote IP only. -/
def Placed (s : CFirewallPolicy) : Prop := ∀ mac, ∀ e ∈ s.m_policy mac, ∀ r ∈ e.2, r.m_remoteIp = e.1

theorem findRemoteRuleList_some : findRemoteRuleList m ip = some l ↔ (ip, l) ∈ m := by
  simp only [findRemoteRuleList, Option.map_eq_some_iff, KeyedList.find_eq_some]
  constructor
  · rintro ⟨e, ⟨he, rfl⟩, rfl⟩
    exact he
  · intro h
    exact ⟨(ip, l), ⟨h, rfl⟩, rfl⟩

theorem mem_enforced (hs : s.Placed) : r ∈ s.enforced mac ↔ s.Enforces (mac, r) := by
  simp only [enforced, Enforces, List.mem_flatMap, findRemoteRuleList_some]
  constructor
  · rintro ⟨⟨ip, l⟩, he, hr⟩
    obtain rfl : r.m_remoteIp = ip := hs mac _ he r hr
    exact ⟨l, he, hr⟩
  · rintro ⟨l, he, hr⟩
    exact ⟨_, he, hr⟩

theorem enforced_nodup (hs : s.Placed) (mac : HostMac) : (s.enforced mac).Nodup := by
  apply List.nodup_flatMap.mpr
  constructor
  · intro e _
    exact e.2.nodup
  · apply (s.m_policy mac).pairwise.imp_of_mem
    intro e e' he he' hne r hr hr'
    exact hne ((hs mac e he r hr).symm.trans (hs mac e' he' r hr'))

theorem find_setRuleList (mac' : HostMac) (ip' : UINT4) :
    findRemoteRuleList ((s.setRuleList mac ip l).m_policy mac') ip' =
      if mac' = mac ∧ ip' = ip then some l else findRemoteRuleList (s.m_policy mac') ip' := by
  apply Option.ext
  intro l'
  by_cases hm : mac' = mac
  · subst hm
    simp only [setRuleList, Function.update_self, true_and, findRemoteRuleList_some, KeyedList.mem_put]
    split_ifs with hip
    · subst hip
      simp [eq_comm]
    · simp [findRemoteRuleList_some, hip]
  · simp [setRuleList, hm]

theorem enforces_setRuleList :
    (s.setRuleList mac ip l).Enforces p ↔ if p.1 = mac ∧ p.2.m_remoteIp = ip then p.2 ∈ l else s.Enforces p := by
  rw [Enforces, find_setRuleList]
  split_ifs
  · simp
  · rfl

theorem placed_setRuleList (hs : s.Placed) (hl : ∀ r ∈ l, r.m_remoteIp = ip) : (s.setRuleList mac ip l).Placed := by
  intro mac' e he r hr
  by_cases hm : mac' = mac
  · subst hm
    simp only [setRuleList, Function.update_self, KeyedList.mem_put] at he
    rcases he with rfl | ⟨he, -⟩
    · exact hl r hr
    · exact hs _ e he r hr
  · simp only [setRuleList, Function.update_of_ne hm] at he
    exact hs mac' e he r hr

theorem Placed.found (hs : s.Placed) (hl : findRemoteRuleList (s.m_policy mac) ip = some l) (hr : r ∈ l) :
    r.m_remoteIp = ip := hs mac _ (findRemoteRuleList_some.mp hl) r hr

theorem place_eq (p : HostMac × CFirewallRule) (mac : HostMac) (r : CFirewallRule) :
    place p = place (mac, r) ↔ (p.1 = mac ∧ p.2.m_remoteIp = r.m_remoteIp) ∧ p.2.m_ruleId = r.m_ruleId := by
  simp only [place, Prod.mk.injEq, and_assoc]

theorem enforces_enforceGroupRule (s : CFirewallPolicy) (mac : HostMac) (r : CFirewallRule)
    (p : HostMac × CFirewallRule) :
    (s.enforceGroupRule mac r).Enforces p ↔ p = (mac, r) ∨ s.Enforces p ∧ place p ≠ place (mac, r) := by
  have hp : p = (mac, r) ↔ p.1 = mac ∧ p.2 = r := Prod.ext_iff
  rw [enforceGroupRule, show ∀ t calls, (install t calls).Enforces p = t.Enforces p from fun _ _ => rfl,
    enforces_setRuleList, Ne, place_eq, hp]
  split_ifs with h
  · rw [KeyedList.mem_put]
    have hfound : p.2 ∈ (findRemoteRuleList (s.m_policy mac) r.m_remoteIp).getD .empty ↔ s.Enforces p := by
      rw [Enforces, h.1, h.2]
      cases findRemoteRuleList (s.m_policy mac) r.m_remoteIp with
      | none => simp [KeyedList.not_mem_empty]
      | some l => simp
    rw [hfound]
    tauto
  · have hne : ¬ (p.1 = mac ∧ p.2 = r) := fun hp => h ⟨hp.1, hp.2 ▸ rfl⟩
    tauto

theorem enforces_unenforceGroupRule (s : CFirewallPolicy) (mac : HostMac) (r : CFirewallRule)
    (p : HostMac × CFirewallRule) :
    (s.unenforceGroupRule mac r).Enforces p ↔ s.Enforces p ∧ place p ≠ place (mac, r) := by
  rw [Ne, place_eq, unenforceGroupRule]
  cases hl : findRemoteRuleList (s.m_policy mac) r.m_remoteIp with
  | none =>
    have hne : s.Enforces p → ¬ (p.1 = mac ∧ p.2.m_remoteIp = r.m_remoteIp) := by
      rintro ⟨l, hfind, -⟩ ⟨hm, hip⟩
      rw [hm, hip, hl] at hfind
      cases hfind
    tauto
  | some l =>
    change (s.setRuleList mac r.m_remoteIp (l.erase r.m_ruleId)).Enforces p ↔ _
    rw [enforces_setRuleList]
    split_ifs with h
    · rw [KeyedList.mem_erase, Enforces, h.1, h.2, hl]
      simp
    · tauto

theorem Placed.enforceGroupRule (hs : s.Placed) (mac : HostMac) (r : CFirewallRule) :
    (s.enforceGroupRule mac r).Placed := by
  apply placed_setRuleList hs
  intro r' hr'
  rcases KeyedList.mem_put.mp hr' with rfl | ⟨hr', -⟩
  · rfl
  · cases hl : findRemoteRuleList (s.m_policy mac) r.m_remoteIp with
    | none =>
      rw [hl] at hr'
      exact absurd hr' KeyedList.not_mem_empty
    | some l =>
      rw [hl] at hr'
      exact hs.found hl hr'

theorem Placed.unenforceGroupRule (hs : s.Placed) (mac : HostMac) (r : CFirewallRule) :
    (s.unenforceGroupRule mac r).Placed := by
  rw [CFirewallPolicy.unenforceGroupRule]
  cases hl : findRemoteRuleList (s.m_policy mac) r.m_remoteIp with
  | none => exact hs
  | some l =>
    apply placed_setRuleList hs
    intro r' hr'
    exact hs.found hl (KeyedList.mem_erase.mp hr').1

/-- The two kinds of walk, over the rules of a group and over its hosts. -/
def enforceAll (s : CFirewallPolicy) (l : List (HostMac × CFirewallRule)) : CFirewallPolicy :=
  l.foldl (fun s p => s.enforceGroupRule p.1 p.2) s

def unenforceAll (s : CFirewallPolicy) (l : List (HostMac × CFirewallRule)) : CFirewallPolicy :=
  l.foldl (fun s p => s.unenforceGroupRule p.1 p.2) s

/-- What a walk enforces does not take the place of something else that it enforces. -/
def Compatible (l : List (HostMac × CFirewallRule)) : Prop := ∀ p ∈ l, ∀ q ∈ l, place p = place q → p = q

theorem Compatible.tail {l : List (HostMac × CFirewallRule)} (h : Compatible (p :: l)) : Compatible l :=
  fun q hq q' hq' => h q (List.mem_cons_of_mem p hq) q' (List.mem_cons_of_mem p hq')

theorem enforces_enforceAll {l : List (HostMac × CFirewallRule)} (s : CFirewallPolicy) (hl : Compatible l) :
    (s.enforceAll l).Enforces p ↔ p ∈ l ∨ s.Enforces p ∧ ∀ q ∈ l, place p ≠ place q := by
  induction l generalizing s with
  | nil => simp [enforceAll]
  | cons q l ih =>
    have hq : p = q → (∀ q' ∈ l, place p ≠ place q') ∨ p ∈ l := by
      rintro rfl
      by_cases h : ∃ q' ∈ l, place p = place q'
      · obtain ⟨q', hq', hp⟩ := h
        exact .inr (hl p List.mem_cons_self q' (List.mem_cons_of_mem p hq') hp ▸ hq')
      · exact .inl fun q' hq' hp => h ⟨q', hq', hp⟩
    rw [show s.enforceAll (q :: l) = (s.enforceGroupRule q.1 q.2).enforceAll l from rfl, ih _ hl.tail,
      enforces_enforceGroupRule]
    simp only [List.mem_cons, forall_eq_or_imp]
    tauto

theorem enforces_unenforceAll {l : List (HostMac × CFirewallRule)} (s : CFirewallPolicy) :
    (s.unenforceAll l).Enforces p ↔ s.Enforces p ∧ ∀ q ∈ l, place p ≠ place q := by
  induction l generalizing s with
  | nil => simp [unenforceAll]
  | cons q l ih =>
    rw [show s.unenforceAll (q :: l) = (s.unenforceGroupRule q.1 q.2).unenforceAll l from rfl, ih,
      enforces_unenforceGroupRule]
    simp only [List.mem_cons, forall_eq_or_imp, and_assoc]

theorem Placed.enforceAll (hs : s.Placed) (l : List (HostMac × CFirewallRule)) : (s.enforceAll l).Placed :=
  List.foldlRecOn l _ hs fun _ ht q _ => ht.enforceGroupRule q.1 q.2

theorem Placed.unenforceAll (hs : s.Placed) (l : List (HostMac × CFirewallRule)) : (s.unenforceAll l).Placed :=
  List.foldlRecOn l _ hs fun _ ht q _ => ht.unenforceGroupRule q.1 q.2

/-- The maps of the groups, which no walk changes. -/
def groupMaps (s : CFirewallPolicy) := (s.m_groupHostMap, s.m_hostGroupMap, s.m_groups)

theorem groupMaps_enforceAll (l : List (HostMac × CFirewallRule)) : (s.enforceAll l).groupMaps = s.groupMaps :=
  List.foldlRecOn l (motive := fun t : CFirewallPolicy => t.groupMaps = s.groupMaps) _ rfl fun _ ht _ _ => ht

theorem groupMaps_unenforceGroupRule (s : CFirewallPolicy) (mac : HostMac) (r : CFirewallRule) :
    (s.unenforceGroupRule mac r).groupMaps = s.groupMaps := by
  rw [unenforceGroupRule]
  cases findRemoteRuleList (s.m_policy mac) r.m_remoteIp <;> rfl

theorem groupMaps_unenforceAll (l : List (HostMac × CFirewallRule)) : (s.unenforceAll l).groupMaps = s.groupMaps :=
  List.foldlRecOn l (motive := fun t : CFirewallPolicy => t.groupMaps = s.groupMaps) _ rfl
    fun (t : CFirewallPolicy) ht q _ => (groupMaps_unenforceGroupRule t q.1 q.2).trans ht

theorem compatible_rules {walk : List CFirewallRule} (hw : walk.Perm (s.m_groups g).toList) (mac : HostMac) :
    Compatible (walk.map (mac, ·)) := by
  intro p hp q hq hpq
  obtain ⟨r, hr, rfl⟩ := List.mem_map.mp hp
  obtain ⟨r', hr', rfl⟩ := List.mem_map.mp hq
  rw [KeyedList.eq_of_key (hw.mem_iff.mp hr) (hw.mem_iff.mp hr') ((place_eq _ mac r').mp hpq).2]

theorem compatible_hosts (hosts : List HostMac) (r : CFirewallRule) : Compatible (hosts.map (·, r)) := by
  intro p hp q hq hpq
  obtain ⟨mac, -, rfl⟩ := List.mem_map.mp hp
  obtain ⟨mac', -, rfl⟩ := List.mem_map.mp hq
  rw [show mac = mac' from ((place_eq _ mac' r).mp hpq).1.1]

/-- The abstract state that the maps of the groups stand for. -/
def groups (s : CFirewallPolicy) : SecurityGroups :=
  ⟨{p | p.2 ∈ s.m_hostGroupMap p.1}, {r | r ∈ s.m_groups r.m_groupId}⟩

theorem groups_of_groupMaps (h : s'.groupMaps = s.groupMaps) : s'.groups = s.groups := by
  simp only [groupMaps, Prod.mk.injEq] at h
  simp only [groups, h]

theorem attach_eq (walk : List CFirewallRule) : s.attachSecurityGroup mac g walk =
    ((s.createGroupHostListMapping g mac).createHostGroupListMapping mac g).enforceAll (walk.map (mac, ·)) := by
  rw [enforceAll, List.foldl_map]
  rfl

theorem detach_eq (walk : List CFirewallRule) : s.detachSecurityGroup mac g walk =
    ((s.deleteGroupHostListMapping g mac).deleteHostGroupListMapping mac g).unenforceAll (walk.map (mac, ·)) := by
  rw [unenforceAll, List.foldl_map]
  rfl

theorem create_eq (s : CFirewallPolicy) (r : CFirewallRule) : s.createSecurityGroupRule r =
    enforceAll (s.setGroup r.m_groupId ((s.m_groups r.m_groupId).insert r))
      ((s.m_groupHostMap r.m_groupId).map (·, r)) := by
  rw [enforceAll, List.foldl_map]
  rfl

theorem delete_eq (h : (s.m_groups r.m_groupId).find r.m_ruleId = some old) : s.deleteSecurityGroupRule r =
    (unenforceAll s ((s.m_groupHostMap r.m_groupId).map (·, old))).setGroup r.m_groupId
      ((s.m_groups r.m_groupId).erase r.m_ruleId) := by
  rw [deleteSecurityGroupRule, h, unenforceAll, List.foldl_map]

theorem delete_eq_self (h : (s.m_groups r.m_groupId).find r.m_ruleId = none) : s.deleteSecurityGroupRule r = s := by
  rw [deleteSecurityGroupRule, h]

theorem enforces_attach {walk : List CFirewallRule} (hw : walk.Perm (s.m_groups g).toList) :
    (s.attachSecurityGroup mac g walk).Enforces p ↔
      p ∈ walk.map (mac, ·) ∨ s.Enforces p ∧ ∀ q ∈ walk.map (mac, ·), place p ≠ place q := by
  rw [attach_eq]
  exact enforces_enforceAll _ (compatible_rules hw mac)

theorem enforces_detach (walk : List CFirewallRule) :
    (s.detachSecurityGroup mac g walk).Enforces p ↔ s.Enforces p ∧ ∀ q ∈ walk.map (mac, ·), place p ≠ place q := by
  rw [detach_eq]
  exact enforces_unenforceAll _

theorem enforces_create (s : CFirewallPolicy) (r : CFirewallRule) (p : HostMac × CFirewallRule) :
    (s.createSecurityGroupRule r).Enforces p ↔ p ∈ (s.m_groupHostMap r.m_groupId).map (·, r) ∨
      s.Enforces p ∧ ∀ q ∈ (s.m_groupHostMap r.m_groupId).map (·, r), place p ≠ place q := by
  rw [create_eq]
  exact enforces_enforceAll _ (compatible_hosts _ r)

theorem enforces_delete (h : (s.m_groups r.m_groupId).find r.m_ruleId = some old) :
    (s.deleteSecurityGroupRule r).Enforces p ↔
      s.Enforces p ∧ ∀ q ∈ (s.m_groupHostMap r.m_groupId).map (·, old), place p ≠ place q := by
  rw [delete_eq h]
  exact enforces_unenforceAll s

theorem attached_setGroup (m : CRuleHMap) : (s.setGroup g m).groups.attached = s.groups.attached := rfl

theorem current_setGroup (m : CRuleHMap) :
    (s.setGroup g m).groups.current = {r | if r.m_groupId = g then r ∈ m else r ∈ s.groups.current} := by
  ext r
  by_cases h : r.m_groupId = g
  · simp [groups, setGroup, h]
  · simp [groups, setGroup, h]

theorem groups_create (s : CFirewallPolicy) (r : CFirewallRule) :
    (s.createSecurityGroupRule r).groups = ⟨s.groups.attached, insert r (s.groups.without r)⟩ := by
  rw [create_eq, groups_of_groupMaps (groupMaps_enforceAll _)]
  apply SecurityGroups.ext
  · rfl
  · rw [current_setGroup]
    ext old
    simp only [KeyedList.mem_insert, SecurityGroups.without, Set.mem_ofPred_eq, Set.mem_insert_iff]
    by_cases h : old.m_groupId = r.m_groupId
    · simp [groups, h]
    · have hne : old ≠ r := fun hold => h (hold ▸ rfl)
      simp [h, hne]

theorem groups_delete (s : CFirewallPolicy) (r : CFirewallRule) :
    (s.deleteSecurityGroupRule r).groups = ⟨s.groups.attached, s.groups.without r⟩ := by
  cases h : (s.m_groups r.m_groupId).find r.m_ruleId with
  | none =>
    rw [delete_eq_self h]
    apply SecurityGroups.ext
    · rfl
    · ext old
      simp only [SecurityGroups.without, Set.mem_ofPred_eq, iff_self_and]
      rintro hold ⟨hg, hid⟩
      exact KeyedList.find_eq_none.mp h old (hg ▸ hold) hid
  | some old =>
    rw [delete_eq h]
    have hall : (unenforceAll s ((s.m_groupHostMap r.m_groupId).map (·, old))).groups = s.groups :=
      groups_of_groupMaps (groupMaps_unenforceAll _)
    apply SecurityGroups.ext
    · rw [attached_setGroup, hall]
    · rw [current_setGroup, hall]
      ext r'
      simp only [KeyedList.mem_erase, SecurityGroups.without, Set.mem_ofPred_eq]
      by_cases hg : r'.m_groupId = r.m_groupId
      · simp [groups, hg]
      · simp [hg]

theorem groups_step {e : SecurityGroupEvent} (he : step s e = some s') : s'.groups = s.groups.next e := by
  cases e with
  | attachSecurityGroup mac g walk =>
    obtain ⟨-, rfl⟩ : _ ∧ s.attachSecurityGroup mac g walk = s' := by simpa [step] using he
    rw [attach_eq, groups_of_groupMaps (groupMaps_enforceAll _)]
    apply SecurityGroups.ext
    · ext ⟨mac', g'⟩
      by_cases hm : mac' = mac
      · subst hm
        simp [groups, SecurityGroups.next, createHostGroupListMapping, createGroupHostListMapping, or_comm]
      · simp [groups, SecurityGroups.next, createHostGroupListMapping, createGroupHostListMapping, hm]
    · rfl
  | detachSecurityGroup mac g walk =>
    obtain ⟨-, rfl⟩ : _ ∧ s.detachSecurityGroup mac g walk = s' := by simpa [step] using he
    rw [detach_eq, groups_of_groupMaps (groupMaps_unenforceAll _)]
    apply SecurityGroups.ext
    · ext ⟨mac', g'⟩
      by_cases hm : mac' = mac
      · subst hm
        simp [groups, SecurityGroups.next, deleteHostGroupListMapping, deleteGroupHostListMapping]
      · simp [groups, SecurityGroups.next, deleteHostGroupListMapping, deleteGroupHostListMapping, hm]
    · rfl
  | createSecurityGroupRule r | updateSecurityGroupRule r =>
    obtain rfl : s.createSecurityGroupRule r = s' := Option.some.inj he
    exact groups_create s r
  | deleteSecurityGroupRule r =>
    obtain rfl : s.deleteSecurityGroupRule r = s' := Option.some.inj he
    exact groups_delete s r

/-- What every event keeps, whatever the rules. -/
structure Inv (s : CFirewallPolicy) : Prop where
  placed : s.Placed
  hosts : ∀ g mac, mac ∈ s.m_groupHostMap g ↔ g ∈ s.m_hostGroupMap mac
  grouped : ∀ g, ∀ r ∈ s.m_groups g, r.m_groupId = g

theorem start_inv : start.Inv := ⟨fun _ _ he => absurd he KeyedList.not_mem_empty, fun _ _ => by simp [start],
  fun _ _ hr => absurd hr KeyedList.not_mem_empty⟩

theorem Inv.of_groupMaps (hs : s.Inv) (hp : s'.Placed) (h : s'.groupMaps = s.groupMaps) : s'.Inv := by
  simp only [groupMaps, Prod.mk.injEq] at h
  obtain ⟨hh, hg, hr⟩ := h
  exact ⟨hp, by simpa only [hh, hg] using hs.hosts, by simpa only [hr] using hs.grouped⟩

theorem Inv.setGroup (hs : s.Inv) {m : CRuleHMap} (hm : ∀ r ∈ m, r.m_groupId = g) : (s.setGroup g m).Inv := by
  refine ⟨hs.placed, hs.hosts, ?_⟩
  intro g' r hr
  by_cases hg : g' = g
  · subst hg
    simp only [CFirewallPolicy.setGroup, Function.update_self] at hr
    exact hm r hr
  · simp only [CFirewallPolicy.setGroup, Function.update_of_ne hg] at hr
    exact hs.grouped g' r hr

theorem Inv.create (hs : s.Inv) (r : CFirewallRule) : (s.createSecurityGroupRule r).Inv := by
  have hm : ∀ r' ∈ (s.m_groups r.m_groupId).insert r, r'.m_groupId = r.m_groupId := by
    intro r' hr'
    rcases KeyedList.mem_insert.mp hr' with rfl | ⟨hr', -⟩
    · rfl
    · exact hs.grouped _ r' hr'
  rw [create_eq]
  exact (hs.setGroup hm).of_groupMaps ((hs.setGroup hm).placed.enforceAll _) (groupMaps_enforceAll _)

theorem Inv.delete (hs : s.Inv) (r : CFirewallRule) : (s.deleteSecurityGroupRule r).Inv := by
  cases h : (s.m_groups r.m_groupId).find r.m_ruleId with
  | none => rwa [delete_eq_self h]
  | some old =>
    rw [delete_eq h]
    apply (hs.of_groupMaps (hs.placed.unenforceAll _) (groupMaps_unenforceAll _)).setGroup
    intro r' hr'
    exact hs.grouped _ r' (KeyedList.mem_erase.mp hr').1

theorem Inv.step {e : SecurityGroupEvent} (hs : s.Inv) (he : step s e = some s') : s'.Inv := by
  cases e with
  | attachSecurityGroup mac g walk =>
    obtain ⟨-, rfl⟩ : _ ∧ s.attachSecurityGroup mac g walk = s' := by simpa [CFirewallPolicy.step] using he
    have hlink : ((s.createGroupHostListMapping g mac).createHostGroupListMapping mac g).Inv := by
      refine ⟨hs.placed, ?_, hs.grouped⟩
      intro g' mac'
      have hgm := hs.hosts g' mac'
      by_cases hg : g' = g <;> by_cases hm : mac' = mac <;>
        simp [createGroupHostListMapping, createHostGroupListMapping, hg, hm] at hgm ⊢ <;> exact hgm
    rw [attach_eq]
    exact hlink.of_groupMaps (hlink.placed.enforceAll _) (groupMaps_enforceAll _)
  | detachSecurityGroup mac g walk =>
    obtain ⟨-, rfl⟩ : _ ∧ s.detachSecurityGroup mac g walk = s' := by simpa [CFirewallPolicy.step] using he
    have hlink : ((s.deleteGroupHostListMapping g mac).deleteHostGroupListMapping mac g).Inv := by
      refine ⟨hs.placed, ?_, hs.grouped⟩
      intro g' mac'
      have hgm := hs.hosts g' mac'
      by_cases hg : g' = g <;> by_cases hm : mac' = mac <;>
        simp [deleteGroupHostListMapping, deleteHostGroupListMapping, hg, hm] at hgm ⊢ <;> exact hgm
    rw [detach_eq]
    exact hlink.of_groupMaps (hlink.placed.unenforceAll _) (groupMaps_unenforceAll _)
  | createSecurityGroupRule r | updateSecurityGroupRule r =>
    obtain rfl : s.createSecurityGroupRule r = s' := Option.some.inj he
    exact hs.create r
  | deleteSecurityGroupRule r =>
    obtain rfl : s.deleteSecurityGroupRule r = s' := Option.some.inj he
    exact hs.delete r

/-- Every host has the rules of its groups over all its lists, each of them once. -/
def Accurate (s : CFirewallPolicy) : Prop :=
  ∀ mac, (s.enforced mac).Nodup ∧ ∀ r, r ∈ s.enforced mac ↔ (mac, r) ∈ s.groups.required

def UniqueIds (s : CFirewallPolicy) : Prop :=
  ∀ r ∈ s.groups.current, ∀ r' ∈ s.groups.current, r.m_ruleId = r'.m_ruleId → r = r'

/-- No other group has a rule with the id. -/
def DistinctIds (s : CFirewallPolicy) : SecurityGroupEvent → Prop
  | .createSecurityGroupRule r | .updateSecurityGroupRule r =>
    ∀ g, g ≠ r.m_groupId → ∀ r' ∈ s.m_groups g, r'.m_ruleId ≠ r.m_ruleId
  | _ => True

/-- A rule that some host has keeps its remote IP. -/
def KeepsRemote (s : CFirewallPolicy) : SecurityGroupEvent → Prop
  | .createSecurityGroupRule r | .updateSecurityGroupRule r =>
    ∀ old ∈ s.m_groups r.m_groupId, old.m_ruleId = r.m_ruleId → old.m_remoteIp ≠ r.m_remoteIp →
      s.m_groupHostMap r.m_groupId = []
  | _ => True

theorem accurate_iff (hs : s.Inv) : s.Accurate ↔ ∀ p, s.Enforces p ↔ p ∈ s.groups.required := by
  constructor
  · intro h p
    rw [← mem_enforced hs.placed]
    exact (h p.1).2 p.2
  · intro h mac
    refine ⟨enforced_nodup hs.placed mac, ?_⟩
    intro r
    rw [mem_enforced hs.placed]
    exact h (mac, r)

theorem Inv.mem_group (hs : s.Inv) : r ∈ s.m_groups g ↔ r ∈ s.groups.current ∧ r.m_groupId = g := by
  constructor
  · intro hr
    obtain rfl := hs.grouped g r hr
    exact ⟨hr, rfl⟩
  · rintro ⟨hr, rfl⟩
    exact hr

theorem Inv.mem_hosts (hs : s.Inv) : mac ∈ s.m_groupHostMap g ↔ (mac, g) ∈ s.groups.attached := hs.hosts g mac

theorem Inv.mem_walk (hs : s.Inv) {walk : List CFirewallRule} (hw : walk.Perm (s.m_groups g).toList) :
    p ∈ walk.map (mac, ·) ↔ p.2 ∈ s.groups.current ∧ p.1 = mac ∧ p.2.m_groupId = g := by
  obtain ⟨mac', r⟩ := p
  simp only [List.mem_map, Prod.mk.injEq, exists_eq_right_right, hw.mem_iff, KeyedList.mem_toList, hs.mem_group]
  tauto

theorem UniqueIds.eq (hu : s.UniqueIds) (hp : p.2 ∈ s.groups.current) (hq : q.2 ∈ s.groups.current)
    (h : place p = place q) : p = q :=
  Prod.ext ((place_eq p q.1 q.2).mp h).1.1 (hu _ hp _ hq ((place_eq p q.1 q.2).mp h).2)

theorem accurate_attach {walk : List CFirewallRule} (hs : s.Inv) (hu : s.UniqueIds)
    (ha : ∀ p, s.Enforces p ↔ p ∈ s.groups.required) (hw : walk.Perm (s.m_groups g).toList) :
    (s.attachSecurityGroup mac g walk).Enforces p ↔
      p ∈ (s.groups.next (.attachSecurityGroup mac g walk)).required := by
  have hreq : p ∈ (s.groups.next (.attachSecurityGroup mac g walk)).required ↔
      p ∈ walk.map (mac, ·) ∨ p ∈ s.groups.required := by
    simp only [SecurityGroups.required, SecurityGroups.next, Set.mem_ofPred_eq, Set.mem_insert_iff, Prod.mk.injEq,
      hs.mem_walk hw]
    tauto
  rw [enforces_attach hw, hreq, ha]
  constructor
  · rintro (hp | ⟨hp, -⟩)
    · exact .inl hp
    · exact .inr hp
  · rintro (hp | hp)
    · exact .inl hp
    · by_cases hmem : p ∈ walk.map (mac, ·)
      · exact .inl hmem
      · refine .inr ⟨hp, ?_⟩
        intro q hq hpq
        rw [hu.eq hp.1 ((hs.mem_walk hw).mp hq).1 hpq] at hmem
        exact hmem hq

theorem accurate_detach {walk : List CFirewallRule} (hs : s.Inv) (hu : s.UniqueIds)
    (ha : ∀ p, s.Enforces p ↔ p ∈ s.groups.required) (hw : walk.Perm (s.m_groups g).toList) :
    (s.detachSecurityGroup mac g walk).Enforces p ↔
      p ∈ (s.groups.next (.detachSecurityGroup mac g walk)).required := by
  have hreq : p ∈ (s.groups.next (.detachSecurityGroup mac g walk)).required ↔
      p ∈ s.groups.required ∧ p ∉ walk.map (mac, ·) := by
    simp only [SecurityGroups.required, SecurityGroups.next, Set.mem_ofPred_eq, Set.mem_sdiff, Set.mem_singleton_iff,
      Prod.mk.injEq, hs.mem_walk hw]
    tauto
  rw [enforces_detach, hreq, ha]
  constructor
  · rintro ⟨hp, hne⟩
    exact ⟨hp, fun hmem => hne p hmem rfl⟩
  · rintro ⟨hp, hmem⟩
    refine ⟨hp, ?_⟩
    intro q hq hpq
    rw [hu.eq hp.1 ((hs.mem_walk hw).mp hq).1 hpq] at hmem
    exact hmem hq

theorem accurate_create (hs : s.Inv) (ha : ∀ p, s.Enforces p ↔ p ∈ s.groups.required)
    (hd : ∀ g, g ≠ r.m_groupId → ∀ r' ∈ s.m_groups g, r'.m_ruleId ≠ r.m_ruleId) :
    (∀ p, (s.createSecurityGroupRule r).Enforces p ↔ p ∈ (s.groups.next (.createSecurityGroupRule r)).required) ↔
      ∀ old ∈ s.m_groups r.m_groupId, old.m_ruleId = r.m_ruleId → old.m_remoteIp ≠ r.m_remoteIp →
        s.m_groupHostMap r.m_groupId = [] := by
  have hgroup : ∀ r' ∈ s.groups.current, r'.m_ruleId = r.m_ruleId → r'.m_groupId = r.m_groupId := by
    intro r' hr' hid
    by_contra hg
    exact hd _ hg r' hr' hid
  have hmem : ∀ p : HostMac × CFirewallRule, p ∈ (s.m_groupHostMap r.m_groupId).map (·, r) ↔
      p.2 = r ∧ (p.1, p.2.m_groupId) ∈ s.groups.attached := by
    rintro ⟨mac, r'⟩
    simp only [List.mem_map, Prod.mk.injEq, hs.mem_hosts]
    constructor
    · rintro ⟨mac, hm, rfl, rfl⟩
      exact ⟨rfl, hm⟩
    · rintro ⟨rfl, hm⟩
      exact ⟨mac, hm, rfl, rfl⟩
  have henf : ∀ p, (s.createSecurityGroupRule r).Enforces p ↔ p ∈ (s.m_groupHostMap r.m_groupId).map (·, r) ∨
      p ∈ s.groups.required ∧ ∀ q ∈ (s.m_groupHostMap r.m_groupId).map (·, r), place p ≠ place q := by
    intro p
    rw [enforces_create, ha]
  have hreq : ∀ p, p ∈ (s.groups.next (.createSecurityGroupRule r)).required ↔
      p ∈ (s.m_groupHostMap r.m_groupId).map (·, r) ∨
        p ∈ s.groups.required ∧ ¬ (p.2.m_groupId = r.m_groupId ∧ p.2.m_ruleId = r.m_ruleId) := by
    intro p
    rw [hmem]
    simp only [SecurityGroups.required, SecurityGroups.next, SecurityGroups.without, Set.mem_ofPred_eq,
      Set.mem_insert_iff]
    tauto
  constructor
  · intro h old hold hid hip
    apply List.eq_nil_iff_forall_not_mem.mpr
    intro mac hmac
    have hreq' : (mac, old) ∈ s.groups.required := by
      rw [hs.mem_group] at hold
      exact ⟨hold.1, by simpa only [hold.2] using hs.mem_hosts.mp hmac⟩
    have henf' : (s.createSecurityGroupRule r).Enforces (mac, old) := by
      refine (henf _).mpr (.inr ⟨hreq', ?_⟩)
      intro q hq hpq
      obtain ⟨mac', -, rfl⟩ := List.mem_map.mp hq
      exact hip ((place_eq _ mac' r).mp hpq).1.2
    rcases (hreq _).mp ((h _).mp henf') with hp | ⟨-, hp⟩
    · exact hip (congrArg CFirewallRule.m_remoteIp ((hmem _).mp hp).1)
    · exact hp ⟨(hs.mem_group.mp hold).2, hid⟩
  · intro h p
    rw [henf, hreq]
    apply or_congr_right
    apply and_congr_right
    intro hp
    constructor
    · rintro hne ⟨hg, hid⟩
      have hmac : p.1 ∈ s.m_groupHostMap r.m_groupId := hs.mem_hosts.mpr (hg ▸ hp.2)
      have hip : p.2.m_remoteIp ≠ r.m_remoteIp := fun hip =>
        hne (p.1, r) (List.mem_map_of_mem hmac) ((place_eq p p.1 r).mpr ⟨⟨rfl, hip⟩, hid⟩)
      rw [h p.2 (hs.mem_group.mpr ⟨hp.1, hg⟩) hid hip] at hmac
      cases hmac
    · rintro hne q hq hpq
      obtain ⟨mac, -, rfl⟩ := List.mem_map.mp hq
      have hid := ((place_eq p mac r).mp hpq).2
      exact hne ⟨hgroup p.2 hp.1 hid, hid⟩

theorem accurate_delete (hs : s.Inv) (hu : s.UniqueIds) (ha : ∀ p, s.Enforces p ↔ p ∈ s.groups.required) :
    (s.deleteSecurityGroupRule r).Enforces p ↔ p ∈ (s.groups.next (.deleteSecurityGroupRule r)).required := by
  have hreq : p ∈ (s.groups.next (.deleteSecurityGroupRule r)).required ↔
      p ∈ s.groups.required ∧ ¬ (p.2.m_groupId = r.m_groupId ∧ p.2.m_ruleId = r.m_ruleId) := by
    simp only [SecurityGroups.required, SecurityGroups.next, SecurityGroups.without, Set.mem_ofPred_eq]
    tauto
  cases hold : (s.m_groups r.m_groupId).find r.m_ruleId with
  | none =>
    rw [delete_eq_self hold, ha, hreq, iff_self_and]
    rintro hp ⟨hg, hid⟩
    exact KeyedList.find_eq_none.mp hold p.2 (hs.mem_group.mpr ⟨hp.1, hg⟩) hid
  | some old =>
    obtain ⟨hmem, hid⟩ := KeyedList.find_eq_some.mp hold
    obtain ⟨hcur, hg⟩ := hs.mem_group.mp hmem
    rw [enforces_delete hold, hreq, ha]
    apply and_congr_right
    intro hp
    constructor
    · rintro hne ⟨hpg, hpid⟩
      have hpold : p.2 = old := hu _ hp.1 _ hcur (hpid.trans hid.symm)
      have hmac : p.1 ∈ s.m_groupHostMap r.m_groupId := hs.mem_hosts.mpr (hpg ▸ hp.2)
      exact hne (p.1, old) (List.mem_map_of_mem hmac) (by rw [← hpold])
    · rintro hne q hq hpq
      obtain ⟨mac, -, rfl⟩ := List.mem_map.mp hq
      obtain rfl : p = (mac, old) := hu.eq hp.1 hcur hpq
      exact hne ⟨hg, hid⟩

theorem UniqueIds.step {e : SecurityGroupEvent} (hu : s.UniqueIds) (hd : s.DistinctIds e) (he : step s e = some s') :
    s'.UniqueIds := by
  rw [UniqueIds, groups_step he]
  cases e with
  | attachSecurityGroup | detachSecurityGroup => exact hu
  | createSecurityGroupRule r | updateSecurityGroupRule r =>
    have hold : ∀ old ∈ s.groups.without r, old.m_ruleId ≠ r.m_ruleId := by
      rintro old ⟨hcur, hne⟩ hid
      exact hd old.m_groupId (fun hg => hne ⟨hg, hid⟩) old hcur hid
    rintro r₁ (rfl | h₁) r₂ (rfl | h₂) hid
    · rfl
    · exact absurd hid.symm (hold r₂ h₂)
    · exact absurd hid (hold r₁ h₁)
    · exact hu r₁ h₁.1 r₂ h₂.1 hid
  | deleteSecurityGroupRule r =>
    intro r₁ h₁ r₂ h₂ hid
    exact hu r₁ h₁.1 r₂ h₂.1 hid

theorem accurate_step {e : SecurityGroupEvent} (hs : s.Inv) (hu : s.UniqueIds) (ha : s.Accurate) (hd : s.DistinctIds e)
    (he : step s e = some s') : s.KeepsRemote e ↔ s'.Accurate := by
  rw [accurate_iff hs] at ha
  rw [accurate_iff (hs.step he), groups_step he]
  cases e with
  | attachSecurityGroup mac g walk =>
    obtain ⟨hw, rfl⟩ : walk.Perm (s.m_groups g).toList ∧ s.attachSecurityGroup mac g walk = s' := by
      simpa [CFirewallPolicy.step] using he
    exact iff_of_true trivial fun p => accurate_attach hs hu ha hw
  | detachSecurityGroup mac g walk =>
    obtain ⟨hw, rfl⟩ : walk.Perm (s.m_groups g).toList ∧ s.detachSecurityGroup mac g walk = s' := by
      simpa [CFirewallPolicy.step] using he
    exact iff_of_true trivial fun p => accurate_detach hs hu ha hw
  | createSecurityGroupRule r | updateSecurityGroupRule r =>
    obtain rfl : s.createSecurityGroupRule r = s' := Option.some.inj he
    exact (accurate_create hs ha hd).symm
  | deleteSecurityGroupRule r =>
    obtain rfl : s.deleteSecurityGroupRule r = s' := Option.some.inj he
    exact iff_of_true trivial fun p => accurate_delete hs hu ha

theorem start_accurate : start.Accurate := by
  intro mac
  refine ⟨List.nodup_nil, ?_⟩
  intro r
  exact iff_of_false List.not_mem_nil fun h => KeyedList.not_mem_empty h.1

/-- The stored rules are accurate after every call as long as no rule of a host moves to another remote IP, and
not after a call that moves one. -/
theorem rules_accurate (h : Run step (fun s e => s.DistinctIds e ∧ s.KeepsRemote e) start s) :
    s.Accurate ∧ ∀ e s', s.DistinctIds e → step s e = some s' → (s.KeepsRemote e ↔ s'.Accurate) := by
  obtain ⟨hs, hu, ha⟩ : s.Inv ∧ s.UniqueIds ∧ s.Accurate := by
    refine h.invariant (P := fun s => s.Inv ∧ s.UniqueIds ∧ s.Accurate) ?_
      ⟨start_inv, fun r hr => absurd hr KeyedList.not_mem_empty, start_accurate⟩
    rintro t e u ⟨hs, hu, ha⟩ ⟨hd, hk⟩ he
    exact ⟨hs.step he, hu.step hd he, (accurate_step hs hu ha hd he).mp hk⟩
  exact ⟨ha, fun e s' hd he => accurate_step hs hu ha hd he⟩

/-- An accept rule for one TCP port. -/
def portRule (remoteIp : UINT4) (port : UINT2) : CFirewallRule :=
  ⟨true, [1], [2], 6, .FIREWALL_DIRECTION_IN, remoteIp, 32, port, port, 10, .FIREWALL_ACTION_ACCEPT⟩

def attached : CFirewallPolicy := start.attachSecurityGroup [3] [2] []

def created : CFirewallPolicy := attached.createSecurityGroupRule (portRule 0x0a000001 80)

theorem created_other {g : GroupId} (hg : g ≠ [2]) (hr : r ∈ created.m_groups g) : False := by
  have hm : created.m_groups g = .empty := Function.update_of_ne hg _ _
  rw [hm] at hr
  exact KeyedList.not_mem_empty hr

theorem created_reached {C : CFirewallPolicy → SecurityGroupEvent → Prop}
    (hattach : C start (.attachSecurityGroup [3] [2] []))
    (hcreate : C attached (.createSecurityGroupRule (portRule 0x0a000001 80))) : Run step C start created :=
  (Run.refl.tail hattach rfl).tail hcreate rfl

theorem port_changed : (created.updateSecurityGroupRule (portRule 0x0a000001 443)).Accurate := by
  have hrun : Run step (fun s e => s.DistinctIds e ∧ s.KeepsRemote e) start created := by
    apply created_reached ⟨trivial, trivial⟩
    constructor
    · intro g _ r hr
      exact absurd hr KeyedList.not_mem_empty
    · intro old hold
      exact absurd hold KeyedList.not_mem_empty
  refine ((rules_accurate hrun).2 (.updateSecurityGroupRule (portRule 0x0a000001 443)) _ ?_ rfl).mp ?_
  · intro g hg r hr
    exact (created_other hg hr).elim
  · intro old hold
    have hm : old ∈ [portRule 0x0a000001 80] := hold
    obtain rfl := List.mem_singleton.mp hm
    exact fun _ hip => absurd rfl hip

/-- An update to another remote IP leaves the old version in its list. -/
theorem stale_version : ¬ ∀ s, Run step DistinctIds start s → s.Accurate := by
  intro h
  have hrun : Run step DistinctIds start (created.updateSecurityGroupRule (portRule 0x0a000002 80)) := by
    refine (created_reached trivial ?_).tail (a := .updateSecurityGroupRule (portRule 0x0a000002 80)) ?_ rfl
    · intro g _ r hr
      exact absurd hr KeyedList.not_mem_empty
    · intro g hg r hr
      exact (created_other hg hr).elim
  have hstale : portRule 0x0a000001 80 ∈
      (created.updateSecurityGroupRule (portRule 0x0a000002 80)).enforced [3] := by decide
  have hcurrent : portRule 0x0a000001 80 ∈ [portRule 0x0a000002 80] := (((h _ hrun [3]).2 _).mp hstale).1
  revert hcurrent
  decide

end CFirewallPolicy

end DCFabric
