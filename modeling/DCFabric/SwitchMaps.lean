import DCFabric.ElectionHandlers
import DCFabric.SyncTables

namespace DCFabric

open TransitionRuns

def isValidMac (mac : MacAddr) : Bool := mac ≠ 0

/-- The keys of `m_sws`, `m_macMap`, `m_ipMap`, `m_dpidMap` and `m_tagMap`. -/
inductive SwitchKey where
  | sockfd (sockfd : INT4)
  | mac (mac : MacAddr)
  | ip (ip : UINT4)
  | dpid (dpid : UINT8)
  | tag (tag : UINT4)
deriving DecidableEq

/-- What the switch manager reads and writes of a `CSwitch`. -/
structure SwitchObject where
  m_sockfd : INT4
  m_swMac : MacAddr
  m_swIp : UINT4
  m_swPort : UINT2
  m_dpid : UINT8
  m_tag : UINT4
deriving DecidableEq

namespace SwitchObject

variable (sw : SwitchObject)

def keys : List SwitchKey := [.sockfd sw.m_sockfd, .mac sw.m_swMac, .ip sw.m_swIp, .dpid sw.m_dpid, .tag sw.m_tag]

/-- The keys `addSwitch` adds for a recovered switch. -/
def recoveredKeys : List SwitchKey :=
  [.sockfd sw.m_sockfd, .mac sw.m_swMac, .ip sw.m_swIp] ++ if sw.m_dpid ≠ 0 then [.dpid sw.m_dpid] else []

/-- The keys that are deleted with the switch. -/
def deletedKeys : List SwitchKey :=
  [.tag sw.m_tag] ++ (if isValidMac sw.m_swMac then [.mac sw.m_swMac, .ip sw.m_swIp] else []) ++
    [.dpid sw.m_dpid, .sockfd sw.m_sockfd]

end SwitchObject

/-- The five maps as one, with smart pointers by the address of their object, and the sockets that are open at the
operating system. -/
structure SwitchMgr where
  maps : SwitchKey → Option ℕ
  sws : ℕ → SwitchObject
  allocated : ℕ
  tags : CTagMgr.Use
  opened : Finset INT4

namespace SwitchMgr

def start : SwitchMgr := ⟨fun _ => none, fun _ => ⟨-1, 0, 0, 0, 0, 0⟩, 0, .start, ∅⟩

section

variable (mgr : SwitchMgr) (p : ℕ)

def insert (k : SwitchKey) : SwitchMgr := { mgr with maps := Function.update mgr.maps k (some p) }

def erase (k : SwitchKey) : SwitchMgr := { mgr with maps := Function.update mgr.maps k none }

def assign (sw : SwitchObject) : SwitchMgr := { mgr with sws := Function.update mgr.sws p sw }

def new (sw : SwitchObject) : SwitchMgr := { mgr.assign mgr.allocated sw with allocated := mgr.allocated + 1 }

def addSwitchMap (sockfd : INT4) : SwitchMgr := mgr.insert p (.sockfd sockfd)

def addMacMap (mac : MacAddr) : SwitchMgr := mgr.insert p (.mac mac)

def addIpMap (ip : UINT4) : SwitchMgr := mgr.insert p (.ip ip)

def addDpidMap (dpid : UINT8) : SwitchMgr := mgr.insert p (.dpid dpid)

def addTagMap (tag : UINT4) : SwitchMgr := mgr.insert p (.tag tag)

def delSwitchMap (sockfd : INT4) : SwitchMgr := mgr.erase (.sockfd sockfd)

def delMacMap (mac : MacAddr) : SwitchMgr := mgr.erase (.mac mac)

def delIpMap (ip : UINT4) : SwitchMgr := mgr.erase (.ip ip)

def delDpidMap (dpid : UINT8) : SwitchMgr := mgr.erase (.dpid dpid)

def delTagMap (tag : UINT4) : SwitchMgr := mgr.erase (.tag tag)

def getSwitch (sockfd : INT4) : Option ℕ := mgr.maps (.sockfd sockfd)

def getSwitchByMac (mac : MacAddr) : Option ℕ := mgr.maps (.mac mac)

def getSwitchByDpid (dpid : UINT8) : Option ℕ := mgr.maps (.dpid dpid)

/-- The branch of `addSwitch` for a MAC address that is known. -/
def reconnect (sockfd : INT4) (mac : MacAddr) (ip : UINT4) (port : UINT2) : SwitchMgr :=
  let sw := mgr.sws p
  let mgr := ((((mgr.delMacMap mac).delIpMap sw.m_swIp).delDpidMap sw.m_dpid).delTagMap sw.m_tag).delSwitchMap
    sw.m_sockfd
  mgr.assign p { sw with m_sockfd := sockfd, m_swIp := ip, m_swPort := port }

/-- The switch of a connection that is accepted, in all maps but that of the tags. -/
def enter (sockfd : INT4) (mac : MacAddr) (ip : UINT4) (port : UINT2) : ℕ × SwitchMgr :=
  if isValidMac mac then
    let (p, mgr) :=
      match mgr.getSwitchByMac mac with
      | some p => (p, mgr.reconnect p sockfd mac ip port)
      | none => (mgr.allocated, mgr.new ⟨sockfd, mac, ip, port, 0, 0⟩)
    (p, ((mgr.addSwitchMap p sockfd).addMacMap p mac).addIpMap p ip)
  else (mgr.allocated, (mgr.new ⟨sockfd, mac, ip, port, 0, 0⟩).addSwitchMap mgr.allocated sockfd)

def allocTag : SwitchMgr :=
  let tag := mgr.tags.mgr.alloc.1
  let mgr := { mgr with tags := mgr.tags.call .alloc }
  if invalid_tag ≠ tag then (mgr.assign p { mgr.sws p with m_tag := tag }).addTagMap p tag else mgr

def addSwitch (role : ControllerRole) (sockfd : INT4) (mac : MacAddr) (ip : UINT4) (port : UINT2) : SwitchMgr :=
  let (p, mgr) := mgr.enter sockfd mac ip port
  if ControllerRole.slave ≠ role then mgr.allocTag p else mgr

/-- The form of `addSwitch` that adds a recovered switch. -/
def addRecovered (sw : SwitchObject) : SwitchMgr :=
  let p := mgr.allocated
  let mgr := (((mgr.new sw).addSwitchMap p sw.m_sockfd).addMacMap p sw.m_swMac).addIpMap p sw.m_swIp
  if sw.m_dpid ≠ 0 then mgr.addDpidMap p sw.m_dpid else mgr

/-- What `delSwitch` and `delSwitchByDpid` do with the switch they find. -/
def delete (sockfd : INT4) : SwitchMgr :=
  let sw := mgr.sws p
  let mgr := { mgr.delTagMap sw.m_tag with tags := mgr.tags.call (.release sw.m_tag) }
  let mgr := if isValidMac sw.m_swMac then (mgr.delMacMap sw.m_swMac).delIpMap sw.m_swIp else mgr
  (mgr.delDpidMap sw.m_dpid).delSwitchMap sockfd

def delSwitch (sockfd : INT4) : SwitchMgr :=
  match mgr.getSwitch sockfd with
  | none => mgr
  | some p => mgr.delete p sockfd

def delSwitchByDpid (dpid : UINT8) : SwitchMgr :=
  match mgr.getSwitchByDpid dpid with
  | none => mgr
  | some p => mgr.delete p (mgr.sws p).m_sockfd

def updSwitch (swOld : ℕ) (sockfd : INT4) (swNew : ℕ) : SwitchMgr :=
  let old := mgr.sws swOld
  let new := mgr.sws swNew
  let mgr := ((((mgr.delSwitchMap old.m_sockfd).delMacMap old.m_swMac).delIpMap old.m_swIp).delDpidMap
    old.m_dpid).delTagMap old.m_tag
  ((((mgr.addSwitchMap swNew sockfd).addMacMap swNew new.m_swMac).addIpMap swNew new.m_swIp).addDpidMap swNew
    new.m_dpid).addTagMap swNew new.m_tag

/-- The call of `updSwitch` at the description of a switch, with a `CPhysicalSwitch` that is a copy. -/
def handleDesc (sockfd : INT4) : SwitchMgr :=
  match mgr.getSwitch sockfd with
  | none => mgr
  | some p => (mgr.new (mgr.sws p)).updSwitch p sockfd mgr.allocated

/-- A reply with the features of a switch, when all requests that follow it are sent. -/
def handleFeatures (sockfd : INT4) (dpid : UINT8) : SwitchMgr :=
  match mgr.getSwitch sockfd with
  | none => mgr
  | some p => (mgr.assign p { mgr.sws p with m_dpid := dpid }).addDpidMap p dpid

end

end SwitchMgr

inductive SwitchEvent where
  | accept (role : ControllerRole) (sockfd : INT4) (mac : MacAddr) (ip : UINT4) (port : UINT2)
  | close (sockfd : INT4)
  | recovered (sw : SwitchObject)
  | delSwitch (sockfd : INT4)
  | delSwitchByDpid (dpid : UINT8)
  | updSwitch (sockfd : INT4)
  | featuresReply (sockfd : INT4) (dpid : UINT8)

namespace SwitchMgr

def step (mgr : SwitchMgr) : SwitchEvent → Option SwitchMgr
  | .accept role sockfd mac ip port =>
    if sockfd ∈ mgr.opened then none
    else some ({ mgr with opened := Insert.insert sockfd mgr.opened }.addSwitch role sockfd mac ip port)
  | .close sockfd => some { mgr with opened := mgr.opened.erase sockfd }
  | .recovered sw => some (mgr.addRecovered sw)
  | .delSwitch sockfd => some (mgr.delSwitch sockfd)
  | .delSwitchByDpid dpid => some (mgr.delSwitchByDpid dpid)
  | .updSwitch sockfd => some (mgr.handleDesc sockfd)
  -- the connection of a reply with dpid 0 is closed, and its switch deleted
  | .featuresReply sockfd dpid =>
    if dpid = 0 then some (mgr.delSwitch sockfd) else some (mgr.handleFeatures sockfd dpid)

/-- An entry refers to a switch whose own field is the key, and that is the switch of its socket. -/
def Consistent (mgr : SwitchMgr) : Prop :=
  ∀ k p, mgr.maps k = some p → k ∈ (mgr.sws p).keys ∧ mgr.getSwitch (mgr.sws p).m_sockfd = some p

/-- The switch that is known by its MAC address when it connects. -/
def known (mgr : SwitchMgr) (mac : MacAddr) : Option ℕ := if isValidMac mac then mgr.getSwitchByMac mac else none

/-- The switch that an event deletes or reconnects. -/
def subject (mgr : SwitchMgr) : SwitchEvent → Option ℕ
  | .accept _ _ mac _ _ => mgr.known mac
  | .delSwitch sockfd => mgr.getSwitch sockfd
  | .delSwitchByDpid dpid => mgr.getSwitchByDpid dpid
  | .featuresReply sockfd dpid => if dpid = 0 then mgr.getSwitch sockfd else none
  | _ => none

/-- Only entries of the switch that is deleted or reconnected are removed. -/
def KeepsOthers (mgr : SwitchMgr) (e : SwitchEvent) (mgr' : SwitchMgr) : Prop :=
  ∀ p, mgr.subject e = some p → ∀ q, q ≠ p → ∀ k, mgr.maps k = some q → mgr'.maps k = some q

/-- No other switch has the entry. -/
def Own (mgr : SwitchMgr) (p : ℕ) (k : SwitchKey) : Prop := ∀ q, mgr.maps k = some q → q = p

def tagKeys (mgr : SwitchMgr) (role : ControllerRole) : List SwitchKey :=
  if ControllerRole.slave ≠ role ∧ invalid_tag ≠ mgr.tags.mgr.alloc.1 then [.tag mgr.tags.mgr.alloc.1] else []

/-- The keys `addSwitch` adds for a connection. -/
def acceptedKeys (mgr : SwitchMgr) (role : ControllerRole) (sockfd : INT4) (mac : MacAddr) (ip : UINT4) :
    List SwitchKey :=
  .sockfd sockfd :: (if isValidMac mac then [.mac mac, .ip ip] else []) ++ mgr.tagKeys role

/-- The switch whose socket number is taken has no entry that stays. -/
def Displaces (mgr : SwitchMgr) (sockfd : INT4) (keys : List SwitchKey) : Prop :=
  ∀ q, mgr.getSwitch sockfd = some q → ∀ k, mgr.maps k = some q → k ∈ keys

/-- The keys that are deleted are those of the entries of the switch, and of no other. -/
def Detaches (mgr : SwitchMgr) (p : ℕ) : Prop :=
  (∀ k ∈ (mgr.sws p).deletedKeys, mgr.Own p k) ∧ ∀ k, mgr.maps k = some p → k ∈ (mgr.sws p).deletedKeys

def Apart (mgr : SwitchMgr) : SwitchEvent → Prop
  | .accept role sockfd mac ip _ =>
    match mgr.known mac with
    | some p => ∀ k ∈ (mgr.sws p).keys ++ mgr.acceptedKeys role sockfd mac ip, mgr.Own p k
    | none => mgr.Displaces sockfd (mgr.acceptedKeys role sockfd mac ip)
  | .close _ => True
  | .recovered sw => mgr.Displaces sw.m_sockfd sw.recoveredKeys
  | .delSwitch sockfd => ∀ p, mgr.getSwitch sockfd = some p → mgr.Detaches p
  | .delSwitchByDpid dpid => ∀ p, mgr.getSwitchByDpid dpid = some p → mgr.Detaches p
  | .updSwitch _ => True
  | .featuresReply sockfd dpid =>
    ∀ p, mgr.getSwitch sockfd = some p → if dpid = 0 then mgr.Detaches p
      else mgr.maps (.dpid (mgr.sws p).m_dpid) = some p → (mgr.sws p).m_dpid = dpid

section

variable {mgr mgr' m : SwitchMgr} {p q : ℕ} {k : SwitchKey} {ks erased written : List SwitchKey} {sw sw' : SwitchObject}
  {sockfd : INT4} {mac : MacAddr} {ip : UINT4} {port : UINT2} {dpid : UINT8} {role : ControllerRole}

@[simp] theorem mem_keys : k ∈ sw.keys ↔ k = .sockfd sw.m_sockfd ∨ k = .mac sw.m_swMac ∨ k = .ip sw.m_swIp ∨
    k = .dpid sw.m_dpid ∨ k = .tag sw.m_tag := by
  simp [SwitchObject.keys]

def insertAll (mgr : SwitchMgr) (p : ℕ) (ks : List SwitchKey) : SwitchMgr := ks.foldl (·.insert p ·) mgr

def eraseAll (mgr : SwitchMgr) (ks : List SwitchKey) : SwitchMgr := ks.foldl erase mgr

theorem maps_insertAll : (mgr.insertAll p ks).maps k = if k ∈ ks then some p else mgr.maps k := by
  induction ks generalizing mgr with
  | nil => rfl
  | cons k' ks ih =>
    rw [insertAll, List.foldl_cons]
    refine ih.trans ?_
    simp only [insert, Function.update_apply, List.mem_cons]
    split_ifs <;> simp_all

theorem maps_eraseAll : (mgr.eraseAll ks).maps k = if k ∈ ks then none else mgr.maps k := by
  induction ks generalizing mgr with
  | nil => rfl
  | cons k' ks ih =>
    rw [eraseAll, List.foldl_cons]
    refine ih.trans ?_
    simp only [erase, Function.update_apply, List.mem_cons]
    split_ifs <;> simp_all

@[simp] theorem insertAll_sws : (mgr.insertAll p ks).sws = mgr.sws := by
  induction ks generalizing mgr with
  | nil => rfl
  | cons k ks ih => exact ih

@[simp] theorem insertAll_allocated : (mgr.insertAll p ks).allocated = mgr.allocated := by
  induction ks generalizing mgr with
  | nil => rfl
  | cons k ks ih => exact ih

@[simp] theorem insertAll_tags : (mgr.insertAll p ks).tags = mgr.tags := by
  induction ks generalizing mgr with
  | nil => rfl
  | cons k ks ih => exact ih

@[simp] theorem eraseAll_sws : (mgr.eraseAll ks).sws = mgr.sws := by
  induction ks generalizing mgr with
  | nil => rfl
  | cons k ks ih => exact ih

@[simp] theorem eraseAll_allocated : (mgr.eraseAll ks).allocated = mgr.allocated := by
  induction ks generalizing mgr with
  | nil => rfl
  | cons k ks ih => exact ih

@[simp] theorem eraseAll_tags : (mgr.eraseAll ks).tags = mgr.tags := by
  induction ks generalizing mgr with
  | nil => rfl
  | cons k ks ih => exact ih

/-- Entries are erased and others are written that refer to `p`, whose members are `sw` now. -/
structure Rewrites (mgr : SwitchMgr) (p : ℕ) (erased written : List SwitchKey) (sw : SwitchObject) (mgr' : SwitchMgr) :
    Prop where
  maps : ∀ k, mgr'.maps k = if k ∈ written then some p else if k ∈ erased then none else mgr.maps k
  self : mgr'.sws p = sw
  others : ∀ q, q ≠ p → mgr'.sws q = mgr.sws q
  allocated : mgr.allocated ≤ mgr'.allocated
  lt : written = [] ∨ p < mgr'.allocated

theorem Rewrites.maps_iff (h : Rewrites mgr p erased written sw mgr') (hq : q ≠ p) :
    mgr'.maps k = some q ↔ k ∉ written ∧ k ∉ erased ∧ mgr.maps k = some q := by
  rw [h.maps]
  split_ifs with hw he <;> simp [*, hq.symm]

/-- Every entry refers to an object that is allocated. -/
def Allocated (mgr : SwitchMgr) : Prop := ∀ k p, mgr.maps k = some p → p < mgr.allocated

theorem Rewrites.allocated_of (h : Rewrites mgr p erased written sw mgr') (ha : mgr.Allocated) : mgr'.Allocated := by
  intro k q hk
  rw [h.maps] at hk
  split_ifs at hk with hw
  · obtain rfl := Option.some.inj hk
    refine h.lt.resolve_left ?_
    rintro rfl
    cases hw
  · exact (ha k q hk).trans_le h.allocated

theorem known_eq_some : mgr.known mac = some p ↔ isValidMac mac ∧ mgr.getSwitchByMac mac = some p := by
  rw [known]
  split_ifs with hvalid <;> simp [hvalid]

theorem Consistent.m_swMac (h : mgr.Consistent) (hp : mgr.getSwitchByMac mac = some p) : (mgr.sws p).m_swMac = mac := by
  have hkey := (h _ _ hp).1
  simpa [eq_comm] using hkey

theorem Consistent.m_sockfd (h : mgr.Consistent) (hp : mgr.getSwitch sockfd = some p) :
    (mgr.sws p).m_sockfd = sockfd := by
  have hkey := (h _ _ hp).1
  simpa [eq_comm] using hkey

/-- What remains to be seen for entries of `p`, and for those of another switch. -/
theorem Rewrites.consistent_iff (h : Rewrites mgr p erased written sw mgr') (hc : mgr.Consistent) :
    mgr'.Consistent ↔
      (∀ k, mgr'.maps k = some p → k ∈ sw.keys ∧ mgr'.getSwitch sw.m_sockfd = some p) ∧
        ∀ q, q ≠ p → ∀ k, mgr'.maps k = some q → mgr'.getSwitch (mgr.sws q).m_sockfd = some q := by
  constructor
  · intro hc'
    refine ⟨fun k hk => ?_, fun q hq k hk => ?_⟩
    · rw [← h.self]
      exact hc' k p hk
    · rw [← h.others q hq]
      exact (hc' k q hk).2
  · rintro ⟨hself, hothers⟩ k q hk
    by_cases hq : q = p
    · subst hq
      rw [h.self]
      exact hself k hk
    · rw [h.others q hq]
      exact ⟨(hc k q ((h.maps_iff hq).mp hk).2.2).1, hothers q hq k hk⟩

/-- Entries of other switches are kept if and only if they are not among those that are erased or written. -/
theorem Rewrites.keeps_iff (h : Rewrites mgr p erased written sw mgr') :
    (∀ q, q ≠ p → ∀ k, mgr.maps k = some q → mgr'.maps k = some q) ↔ ∀ k ∈ erased ++ written, mgr.Own p k := by
  constructor
  · intro hkeeps k hk q hq
    by_contra hne
    obtain ⟨hw, he, -⟩ := (h.maps_iff hne).mp (hkeeps q hne k hq)
    rcases List.mem_append.mp hk with hk | hk
    · exact he hk
    · exact hw hk
  · intro hown q hne k hq
    refine (h.maps_iff hne).mpr ⟨fun hw => ?_, fun he => ?_, hq⟩
    · exact hne (hown k (List.mem_append_right _ hw) q hq)
    · exact hne (hown k (List.mem_append_left _ he) q hq)

/-- Entries that are kept are kept with that of the socket. -/
theorem Rewrites.others_consistent (h : Rewrites mgr p erased written sw mgr') (hc : mgr.Consistent)
    (hown : ∀ k ∈ erased ++ written, mgr.Own p k) (hq : q ≠ p) (hk : mgr'.maps k = some q) :
    mgr'.getSwitch (mgr.sws q).m_sockfd = some q :=
  h.keeps_iff.mpr hown q hq _ (hc k q ((h.maps_iff hq).mp hk).2.2).2

/-- A switch that takes new entries in place of all it had. -/
theorem Rewrites.moved_iff (h : Rewrites mgr p (mgr.sws p).keys written sw mgr') (hc : mgr.Consistent)
    (hkeys : ∀ k ∈ written, k ∈ sw.keys) (hsockfd : .sockfd sw.m_sockfd ∈ written) :
    (∀ k ∈ (mgr.sws p).keys ++ written, mgr.Own p k) ↔
      mgr'.Consistent ∧ ∀ q, q ≠ p → ∀ k, mgr.maps k = some q → mgr'.maps k = some q := by
  rw [h.keeps_iff, h.consistent_iff hc]
  constructor
  · intro hown
    refine ⟨⟨fun k hk => ?_, fun q hq k hk => h.others_consistent hc hown hq hk⟩, hown⟩
    rw [h.maps] at hk
    split_ifs at hk with hw he
    · refine ⟨hkeys k hw, ?_⟩
      rw [getSwitch, h.maps, if_pos hsockfd]
    · exact absurd (hc k p hk).1 he
  · exact And.right

/-- A switch with a new object. -/
theorem Rewrites.added_iff (h : Rewrites mgr mgr.allocated [] written sw mgr') (hc : mgr.Consistent)
    (ha : mgr.Allocated) (hkeys : ∀ k ∈ written, k ∈ sw.keys) (hsockfd : .sockfd sw.m_sockfd ∈ written) :
    mgr.Displaces sw.m_sockfd written ↔ mgr'.Consistent := by
  have hself : ∀ k, mgr'.maps k = some mgr.allocated →
      k ∈ sw.keys ∧ mgr'.getSwitch sw.m_sockfd = some mgr.allocated := by
    intro k hk
    rw [h.maps] at hk
    split_ifs at hk with hw
    · refine ⟨hkeys k hw, ?_⟩
      rw [getSwitch, h.maps, if_pos hsockfd]
    · exact absurd (ha k _ ‹_›) (lt_irrefl _)
  have hne : ∀ k q, mgr.maps k = some q → q ≠ mgr.allocated := fun k q hk => (ha k q hk).ne
  rw [h.consistent_iff hc]
  constructor
  · intro hdisplaces
    refine ⟨hself, fun q hq k hk => ?_⟩
    obtain ⟨hw, -, hold⟩ := (h.maps_iff hq).mp hk
    refine (h.maps_iff hq).mpr ⟨fun hmem => ?_, List.not_mem_nil, (hc k q hold).2⟩
    have heq : (mgr.sws q).m_sockfd = sw.m_sockfd := by
      simpa using hkeys _ hmem
    exact hw (hdisplaces q (heq ▸ (hc k q hold).2) k hold)
  · rintro ⟨-, hothers⟩ q hq k hk
    by_contra hw
    have hkept := hothers q (hne k q hk) k ((h.maps_iff (hne k q hk)).mpr ⟨hw, List.not_mem_nil, hk⟩)
    rw [hc.m_sockfd hq] at hkept
    exact ((h.maps_iff (hne k q hk)).mp hkept).1 hsockfd

/-- A switch that is deleted. -/
theorem Rewrites.deleted_iff (h : Rewrites mgr p (mgr.sws p).deletedKeys [] (mgr.sws p) mgr') (hc : mgr.Consistent) :
    mgr.Detaches p ↔ mgr'.Consistent ∧ ∀ q, q ≠ p → ∀ k, mgr.maps k = some q → mgr'.maps k = some q := by
  have hsockfd : mgr'.getSwitch (mgr.sws p).m_sockfd = none := by
    rw [getSwitch, h.maps, if_neg List.not_mem_nil, if_pos]
    simp [SwitchObject.deletedKeys]
  rw [h.keeps_iff, h.consistent_iff hc, Detaches, List.append_nil]
  constructor
  · rintro ⟨hown, hentries⟩
    refine ⟨⟨fun k hk => ?_, fun q hq k hk => ?_⟩, hown⟩
    · rw [h.maps, if_neg List.not_mem_nil] at hk
      split_ifs at hk with he
      exact absurd (hentries k hk) he
    · exact h.others_consistent hc (by rwa [List.append_nil]) hq hk
  · rintro ⟨⟨hself, -⟩, hown⟩
    refine ⟨hown, fun k hk => ?_⟩
    by_contra he
    have hk' : mgr'.maps k = some p := by rw [h.maps, if_neg List.not_mem_nil, if_neg he, hk]
    rw [hsockfd] at hself
    cases (hself k hk').2

theorem rewrites_new (ks : List SwitchKey) :
    Rewrites mgr mgr.allocated [] ks sw ((mgr.new sw).insertAll mgr.allocated ks) where
  maps k := maps_insertAll
  self := by
    rw [insertAll_sws]
    exact Function.update_self ..
  others q hq := by
    rw [insertAll_sws]
    exact Function.update_of_ne hq ..
  allocated := by
    rw [insertAll_allocated]
    exact Nat.le_succ _
  lt := .inr (by rw [insertAll_allocated]; exact Nat.lt_succ_self _)

theorem rewrites_reconnect (ks : List SwitchKey) (hp : p < mgr.allocated) (hmac : (mgr.sws p).m_swMac = mac) :
    Rewrites mgr p (mgr.sws p).keys ks { mgr.sws p with m_sockfd := sockfd, m_swIp := ip, m_swPort := port }
      ((mgr.reconnect p sockfd mac ip port).insertAll p ks) where
  maps k := by
    have herase : (mgr.reconnect p sockfd mac ip port).maps k =
        (mgr.eraseAll [.mac mac, .ip (mgr.sws p).m_swIp, .dpid (mgr.sws p).m_dpid, .tag (mgr.sws p).m_tag,
          .sockfd (mgr.sws p).m_sockfd]).maps k := rfl
    have hmem : k ∈ (mgr.sws p).keys ↔ k ∈ [.mac mac, .ip (mgr.sws p).m_swIp, .dpid (mgr.sws p).m_dpid,
        .tag (mgr.sws p).m_tag, .sockfd (mgr.sws p).m_sockfd] := by
      rw [← hmac]
      simp only [mem_keys, List.mem_cons, List.not_mem_nil, or_false]
      tauto
    rw [maps_insertAll, herase, maps_eraseAll]
    simp only [hmem]
  self := by
    rw [insertAll_sws]
    exact Function.update_self ..
  others q hq := by
    rw [insertAll_sws]
    exact Function.update_of_ne hq ..
  allocated := by
    rw [insertAll_allocated]
    exact le_rfl
  lt := .inr (by rw [insertAll_allocated]; exact hp)

/-- The keys `addSwitch` adds before that of the tag. -/
def enteredKeys (sockfd : INT4) (mac : MacAddr) (ip : UINT4) : List SwitchKey :=
  .sockfd sockfd :: if isValidMac mac then [.mac mac, .ip ip] else []

theorem enter_known (sockfd : INT4) (ip : UINT4) (port : UINT2) (hp : mgr.known mac = some p)
    (hlt : p < mgr.allocated) (hmac : (mgr.sws p).m_swMac = mac) :
    (mgr.enter sockfd mac ip port).1 = p ∧ (mgr.enter sockfd mac ip port).2.tags = mgr.tags ∧
      Rewrites mgr p (mgr.sws p).keys (enteredKeys sockfd mac ip)
        { mgr.sws p with m_sockfd := sockfd, m_swIp := ip, m_swPort := port } (mgr.enter sockfd mac ip port).2 := by
  have henter : mgr.enter sockfd mac ip port =
      (p, (mgr.reconnect p sockfd mac ip port).insertAll p (enteredKeys sockfd mac ip)) := by
    obtain ⟨hvalid, hget⟩ := known_eq_some.mp hp
    rw [enter, if_pos hvalid, hget, enteredKeys, if_pos hvalid]
    rfl
  rw [henter]
  refine ⟨rfl, ?_, rewrites_reconnect _ hlt hmac⟩
  rw [insertAll_tags]
  rfl

theorem enter_unknown (sockfd : INT4) (ip : UINT4) (port : UINT2) (hp : mgr.known mac = none) :
    (mgr.enter sockfd mac ip port).1 = mgr.allocated ∧ (mgr.enter sockfd mac ip port).2.tags = mgr.tags ∧
      Rewrites mgr mgr.allocated [] (enteredKeys sockfd mac ip) ⟨sockfd, mac, ip, port, 0, 0⟩
        (mgr.enter sockfd mac ip port).2 := by
  have henter : mgr.enter sockfd mac ip port = (mgr.allocated,
      (mgr.new ⟨sockfd, mac, ip, port, 0, 0⟩).insertAll mgr.allocated (enteredKeys sockfd mac ip)) := by
    rw [enter, enteredKeys]
    by_cases hvalid : isValidMac mac
    · have hget : mgr.getSwitchByMac mac = none := by
        rwa [known, if_pos hvalid] at hp
      rw [if_pos hvalid, if_pos hvalid, hget]
      rfl
    · rw [if_neg hvalid, if_neg hvalid]
      rfl
  rw [henter]
  refine ⟨rfl, ?_, rewrites_new _⟩
  rw [insertAll_tags]
  rfl

/-- The members of a switch that may get a tag. -/
def tagged (mgr : SwitchMgr) (role : ControllerRole) (sw : SwitchObject) : SwitchObject :=
  if ControllerRole.slave ≠ role ∧ invalid_tag ≠ mgr.tags.mgr.alloc.1 then { sw with m_tag := mgr.tags.mgr.alloc.1 }
  else sw

theorem Rewrites.allocTag (h : Rewrites mgr p erased (.sockfd sockfd :: ks) sw m) (htags : m.tags = mgr.tags) :
    Rewrites mgr p erased (.sockfd sockfd :: ks ++ mgr.tagKeys role) (mgr.tagged role sw)
      (if ControllerRole.slave ≠ role then m.allocTag p else m) := by
  have hlt : p < m.allocated := h.lt.resolve_left (List.cons_ne_nil _ _)
  rw [tagKeys, tagged]
  by_cases hrole : ControllerRole.slave ≠ role
  · rw [if_pos hrole, SwitchMgr.allocTag, htags]
    by_cases htag : invalid_tag ≠ mgr.tags.mgr.alloc.1
    · rw [if_pos ⟨hrole, htag⟩, if_pos ⟨hrole, htag⟩]
      dsimp only
      rw [if_pos htag]
      refine ⟨fun k => ?_, ?_, fun q hq => ?_, h.allocated, .inr hlt⟩
      · change Function.update m.maps _ _ k = _
        rw [Function.update_apply, h.maps]
        simp only [List.mem_append, List.mem_singleton]
        split_ifs <;> simp_all
      · change Function.update m.sws p _ p = _
        rw [Function.update_self, h.self]
      · change Function.update m.sws p _ q = _
        rw [Function.update_of_ne hq, h.others q hq]
    · rw [if_neg fun hboth => htag hboth.2, if_neg fun hboth => htag hboth.2, List.append_nil]
      dsimp only
      rw [if_neg htag]
      exact ⟨h.maps, h.self, h.others, h.allocated, h.lt⟩
  · rw [if_neg hrole, if_neg fun hboth => hrole hboth.1, if_neg fun hboth => hrole hboth.1, List.append_nil]
    exact h

theorem addSwitch_known (role : ControllerRole) (sockfd : INT4) (ip : UINT4) (port : UINT2)
    (hp : mgr.known mac = some p) (hlt : p < mgr.allocated) (hmac : (mgr.sws p).m_swMac = mac) :
    Rewrites mgr p (mgr.sws p).keys (mgr.acceptedKeys role sockfd mac ip)
      (mgr.tagged role { mgr.sws p with m_sockfd := sockfd, m_swIp := ip, m_swPort := port })
      (mgr.addSwitch role sockfd mac ip port) := by
  obtain ⟨hfst, htags, hrewrites⟩ := enter_known sockfd ip port hp hlt hmac
  rw [addSwitch]
  dsimp only
  rw [hfst]
  exact hrewrites.allocTag htags

theorem addSwitch_unknown (role : ControllerRole) (sockfd : INT4) (ip : UINT4) (port : UINT2)
    (hp : mgr.known mac = none) :
    Rewrites mgr mgr.allocated [] (mgr.acceptedKeys role sockfd mac ip)
      (mgr.tagged role ⟨sockfd, mac, ip, port, 0, 0⟩) (mgr.addSwitch role sockfd mac ip port) := by
  obtain ⟨hfst, htags, hrewrites⟩ := enter_unknown sockfd ip port hp
  rw [addSwitch]
  dsimp only
  rw [hfst]
  exact hrewrites.allocTag htags

@[simp] theorem tagged_m_sockfd : (mgr.tagged role sw).m_sockfd = sw.m_sockfd := by
  rw [tagged]
  split_ifs <;> rfl

theorem acceptedKeys_subset (mgr : SwitchMgr) (role : ControllerRole) (hip : sw.m_swIp = ip) (hmac : sw.m_swMac = mac)
    (hsockfd : sw.m_sockfd = sockfd) :
    ∀ k ∈ mgr.acceptedKeys role sockfd mac ip, k ∈ (mgr.tagged role sw).keys := by
  intro k hk
  rw [acceptedKeys, List.cons_append, List.mem_cons, List.mem_append, tagKeys] at hk
  rw [mem_keys, tagged]
  rcases hk with rfl | hk | hk
  · left
    split_ifs <;> simp [hsockfd]
  · split_ifs at hk with hvalid
    · rcases List.mem_pair.mp hk with rfl | rfl
      · right; left
        split_ifs <;> simp [hmac]
      · right; right; left
        split_ifs <;> simp [hip]
    · cases hk
  · split_ifs at hk with htag
    · rw [if_pos htag]
      right; right; right; right
      exact List.mem_singleton.mp hk
    · cases hk

theorem rewrites_addRecovered :
    Rewrites mgr mgr.allocated [] sw.recoveredKeys sw (mgr.addRecovered sw) := by
  have hadd : mgr.addRecovered sw = (mgr.new sw).insertAll mgr.allocated sw.recoveredKeys := by
    rw [addRecovered, SwitchObject.recoveredKeys]
    split_ifs <;> rfl
  rw [hadd]
  exact rewrites_new _

theorem recoveredKeys_subset : ∀ k ∈ sw.recoveredKeys, k ∈ sw.keys := by
  intro k hk
  rw [SwitchObject.recoveredKeys] at hk
  rw [mem_keys]
  split_ifs at hk <;> simp at hk <;> tauto

theorem rewrites_delete (hsockfd : (mgr.sws p).m_sockfd = sockfd) :
    Rewrites mgr p (mgr.sws p).deletedKeys [] (mgr.sws p) (mgr.delete p sockfd) := by
  have hdelete : mgr.delete p sockfd =
      { mgr.eraseAll (mgr.sws p).deletedKeys with tags := mgr.tags.call (.release (mgr.sws p).m_tag) } := by
    rw [delete, SwitchObject.deletedKeys, hsockfd]
    split_ifs <;> rfl
  rw [hdelete]
  refine ⟨fun k => maps_eraseAll, ?_, fun q _ => ?_, ?_, .inl rfl⟩
  · exact congrFun eraseAll_sws p
  · exact congrFun eraseAll_sws q
  · exact eraseAll_allocated.ge

theorem rewrites_handleDesc (hp : mgr.getSwitch sockfd = some p) (hlt : p < mgr.allocated)
    (hsockfd : (mgr.sws p).m_sockfd = sockfd) :
    Rewrites mgr mgr.allocated (mgr.sws p).keys (mgr.sws p).keys (mgr.sws p) (mgr.handleDesc sockfd) := by
  have hold : (mgr.new (mgr.sws p)).sws p = mgr.sws p := Function.update_of_ne hlt.ne ..
  have hnew : (mgr.new (mgr.sws p)).sws mgr.allocated = mgr.sws p := Function.update_self ..
  have hdesc : mgr.handleDesc sockfd =
      ((mgr.new (mgr.sws p)).eraseAll (mgr.sws p).keys).insertAll mgr.allocated (mgr.sws p).keys := by
    rw [handleDesc, hp]
    dsimp only
    rw [updSwitch, hold, hnew, SwitchObject.keys, hsockfd]
    rfl
  rw [hdesc]
  refine ⟨fun k => ?_, ?_, fun q hq => ?_, ?_, .inr ?_⟩
  · rw [maps_insertAll, maps_eraseAll]
    rfl
  · rw [insertAll_sws, eraseAll_sws, hnew]
  · rw [insertAll_sws, eraseAll_sws]
    exact Function.update_of_ne hq ..
  · rw [insertAll_allocated, eraseAll_allocated]
    exact Nat.le_succ _
  · rw [insertAll_allocated, eraseAll_allocated]
    exact Nat.lt_succ_self _

theorem rewrites_handleFeatures (ha : mgr.Allocated) (hp : mgr.getSwitch sockfd = some p) :
    Rewrites mgr p [] [.dpid dpid] { mgr.sws p with m_dpid := dpid } (mgr.handleFeatures sockfd dpid) := by
  rw [handleFeatures, hp]
  refine ⟨fun k => ?_, Function.update_self .., fun q hq => Function.update_of_ne hq .., le_rfl, .inr (ha _ p hp)⟩
  change Function.update mgr.maps _ _ k = _
  rw [Function.update_apply]
  simp only [List.mem_singleton, List.not_mem_nil, if_false]

/-- A copy takes all entries of the switch. -/
theorem Consistent.handleDesc (hc : mgr.Consistent) (ha : mgr.Allocated) : (mgr.handleDesc sockfd).Consistent := by
  cases hp : mgr.getSwitch sockfd with
  | none =>
    rw [SwitchMgr.handleDesc, hp]
    exact hc
  | some p =>
    have hrewrites := rewrites_handleDesc hp (ha _ p hp) (hc.m_sockfd hp)
    rw [hrewrites.consistent_iff hc]
    constructor
    · intro k hk
      rw [hrewrites.maps] at hk
      split_ifs at hk with hkeys
      · refine ⟨hkeys, ?_⟩
        rw [getSwitch, hrewrites.maps, if_pos]
        simp
      · exact absurd (ha k _ hk) (lt_irrefl _)
    · intro q hq k hk
      obtain ⟨hkeys, -, hold⟩ := (hrewrites.maps_iff hq).mp hk
      have hsocket : SwitchKey.sockfd (mgr.sws q).m_sockfd ∉ (mgr.sws p).keys := by
        intro hmem
        have heq : (mgr.sws q).m_sockfd = (mgr.sws p).m_sockfd := by simpa using hmem
        have hsame := (hc k q hold).2
        rw [heq, hc.m_sockfd hp, hp] at hsame
        obtain rfl := Option.some.inj hsame
        exact hkeys (hc k p hold).1
      exact (hrewrites.maps_iff hq).mpr ⟨hsocket, hsocket, (hc k q hold).2⟩

theorem handleFeatures_iff (hc : mgr.Consistent) (ha : mgr.Allocated) (hp : mgr.getSwitch sockfd = some p) :
    (mgr.maps (.dpid (mgr.sws p).m_dpid) = some p → (mgr.sws p).m_dpid = dpid) ↔
      (mgr.handleFeatures sockfd dpid).Consistent := by
  have hrewrites : Rewrites mgr p [] [.dpid dpid] { mgr.sws p with m_dpid := dpid } (mgr.handleFeatures sockfd dpid) :=
    rewrites_handleFeatures ha hp
  have hkept (k : SwitchKey) (hk : k ≠ .dpid dpid) : (mgr.handleFeatures sockfd dpid).maps k = mgr.maps k := by
    rw [hrewrites.maps, if_neg (by simpa using hk), if_neg List.not_mem_nil]
  rw [hrewrites.consistent_iff hc]
  constructor
  · intro hdpid
    constructor
    · intro k hk
      have hsocket : (mgr.handleFeatures sockfd dpid).getSwitch (mgr.sws p).m_sockfd = some p := by
        rw [getSwitch, hkept _ (by simp), hc.m_sockfd hp]
        exact hp
      refine ⟨?_, hsocket⟩
      by_cases hkey : k = .dpid dpid
      · rw [hkey]
        simp
      · rw [hkept k hkey] at hk
        have hmem := (hc k p hk).1
        rw [mem_keys] at hmem ⊢
        rcases hmem with h | h | h | rfl | h
        · exact .inl h
        · exact .inr (.inl h)
        · exact .inr (.inr (.inl h))
        · exact absurd (congrArg SwitchKey.dpid (hdpid hk)) hkey
        · exact .inr (.inr (.inr (.inr h)))
    · intro q hq k hk
      rw [getSwitch, hkept _ (by simp)]
      exact (hc k q ((hrewrites.maps_iff hq).mp hk).2.2).2
  · rintro ⟨hself, -⟩ hk
    by_contra hne
    rw [← hkept _ (by simpa using hne)] at hk
    simpa [hne] using (hself _ hk).1

theorem addSwitch_iff (hc : mgr.Consistent) (ha : mgr.Allocated) :
    (mgr.Apart (.accept role sockfd mac ip port) ↔ (mgr.addSwitch role sockfd mac ip port).Consistent ∧
      mgr.KeepsOthers (.accept role sockfd mac ip port) (mgr.addSwitch role sockfd mac ip port)) ∧
      (mgr.addSwitch role sockfd mac ip port).Allocated := by
  rw [Apart, KeepsOthers, subject]
  cases hp : mgr.known mac with
  | some p =>
    have hget := (known_eq_some.mp hp).2
    have hmac := hc.m_swMac hget
    have hrewrites := addSwitch_known role sockfd ip port hp (ha _ p hget) hmac
    have hkeys : ∀ k ∈ mgr.acceptedKeys role sockfd mac ip, k ∈
        (mgr.tagged role { mgr.sws p with m_sockfd := sockfd, m_swIp := ip, m_swPort := port }).keys :=
      acceptedKeys_subset mgr role rfl hmac rfl
    refine ⟨(hrewrites.moved_iff hc hkeys (List.mem_cons.mpr (.inl (by rw [tagged_m_sockfd])))).trans ?_,
      hrewrites.allocated_of ha⟩
    simp
  | none =>
    have hrewrites := addSwitch_unknown role sockfd ip port hp
    have hkeys : ∀ k ∈ mgr.acceptedKeys role sockfd mac ip, k ∈
        (mgr.tagged role ⟨sockfd, mac, ip, port, 0, 0⟩).keys := acceptedKeys_subset mgr role rfl rfl rfl
    have hiff := hrewrites.added_iff hc ha hkeys (List.mem_cons.mpr (.inl (by rw [tagged_m_sockfd])))
    rw [tagged_m_sockfd] at hiff
    refine ⟨hiff.trans ?_, hrewrites.allocated_of ha⟩
    simp

theorem delete_iff (hc : mgr.Consistent) (hsockfd : (mgr.sws p).m_sockfd = sockfd) :
    mgr.Detaches p ↔ (mgr.delete p sockfd).Consistent ∧
      ∀ q, q ≠ p → ∀ k, mgr.maps k = some q → (mgr.delete p sockfd).maps k = some q :=
  (rewrites_delete hsockfd).deleted_iff hc

theorem delSwitch_iff (hc : mgr.Consistent) (ha : mgr.Allocated) :
    ((∀ p, mgr.getSwitch sockfd = some p → mgr.Detaches p) ↔ (mgr.delSwitch sockfd).Consistent ∧
      ∀ p, mgr.getSwitch sockfd = some p → ∀ q, q ≠ p → ∀ k, mgr.maps k = some q →
        (mgr.delSwitch sockfd).maps k = some q) ∧ (mgr.delSwitch sockfd).Allocated := by
  rw [delSwitch]
  cases hp : mgr.getSwitch sockfd with
  | none => simp [hc, ha]
  | some p =>
    have hsockfd := hc.m_sockfd hp
    refine ⟨?_, (rewrites_delete hsockfd).allocated_of ha⟩
    simp only [Option.some.injEq, forall_eq']
    exact delete_iff hc hsockfd

theorem delSwitchByDpid_iff (hc : mgr.Consistent) (ha : mgr.Allocated) :
    ((∀ p, mgr.getSwitchByDpid dpid = some p → mgr.Detaches p) ↔ (mgr.delSwitchByDpid dpid).Consistent ∧
      ∀ p, mgr.getSwitchByDpid dpid = some p → ∀ q, q ≠ p → ∀ k, mgr.maps k = some q →
        (mgr.delSwitchByDpid dpid).maps k = some q) ∧ (mgr.delSwitchByDpid dpid).Allocated := by
  rw [delSwitchByDpid]
  cases hp : mgr.getSwitchByDpid dpid with
  | none => simp [hc, ha]
  | some p =>
    refine ⟨?_, (rewrites_delete rfl).allocated_of ha⟩
    simp only [Option.some.injEq, forall_eq']
    exact delete_iff hc rfl

theorem handleDesc_allocated (hc : mgr.Consistent) (ha : mgr.Allocated) : (mgr.handleDesc sockfd).Allocated := by
  cases hp : mgr.getSwitch sockfd with
  | none =>
    rw [handleDesc, hp]
    exact ha
  | some p => exact (rewrites_handleDesc hp (ha _ p hp) (hc.m_sockfd hp)).allocated_of ha

theorem handleFeatures_allocated (ha : mgr.Allocated) : (mgr.handleFeatures sockfd dpid).Allocated := by
  cases hp : mgr.getSwitch sockfd with
  | none =>
    rw [handleFeatures, hp]
    exact ha
  | some p => exact (rewrites_handleFeatures ha hp).allocated_of ha

/-- One event keeps the maps consistent and the entries of other switches if and only if the condition holds. -/
theorem step_iff (hc : mgr.Consistent) (ha : mgr.Allocated) {e : SwitchEvent} (he : mgr.step e = some mgr') :
    (mgr.Apart e ↔ mgr'.Consistent ∧ mgr.KeepsOthers e mgr') ∧ mgr'.Allocated := by
  cases e with
  | accept role sockfd mac ip port =>
    rw [step] at he
    split_ifs at he
    obtain rfl := Option.some.inj he
    have hc' : Consistent { mgr with opened := Insert.insert sockfd mgr.opened } := hc
    exact addSwitch_iff hc' ha
  | close sockfd =>
    obtain rfl := Option.some.inj he
    have hkeeps : mgr.KeepsOthers (.close sockfd) { mgr with opened := mgr.opened.erase sockfd } :=
      fun p hp => by cases hp
    exact ⟨iff_of_true trivial ⟨hc, hkeeps⟩, ha⟩
  | recovered sw =>
    obtain rfl := Option.some.inj he
    have hiff : mgr.Displaces sw.m_sockfd sw.recoveredKeys ↔ (mgr.addRecovered sw).Consistent :=
      rewrites_addRecovered.added_iff hc ha recoveredKeys_subset (List.mem_cons_self ..)
    have hkeeps : mgr.KeepsOthers (.recovered sw) (mgr.addRecovered sw) := fun p hp => by cases hp
    exact ⟨hiff.trans (and_iff_left hkeeps).symm, rewrites_addRecovered.allocated_of ha⟩
  | delSwitch sockfd =>
    obtain rfl := Option.some.inj he
    exact delSwitch_iff hc ha
  | delSwitchByDpid dpid =>
    obtain rfl := Option.some.inj he
    exact delSwitchByDpid_iff hc ha
  | updSwitch sockfd =>
    obtain rfl := Option.some.inj he
    have hkeeps : mgr.KeepsOthers (.updSwitch sockfd) (mgr.handleDesc sockfd) := fun p hp => by cases hp
    exact ⟨iff_of_true trivial ⟨hc.handleDesc ha, hkeeps⟩, handleDesc_allocated hc ha⟩
  | featuresReply sockfd dpid =>
    rw [step] at he
    rw [Apart, KeepsOthers, subject]
    split_ifs at he ⊢ with hdpid
    · obtain rfl := Option.some.inj he
      exact delSwitch_iff hc ha
    · obtain rfl := Option.some.inj he
      refine ⟨?_, handleFeatures_allocated ha⟩
      simp only [false_imp_iff, implies_true, and_true]
      cases hp : mgr.getSwitch sockfd with
      | none => simp [handleFeatures, hp, hc]
      | some p =>
        simp only [Option.some.injEq, forall_eq']
        exact handleFeatures_iff hc ha hp

/-- In a run of events that all meet the condition the maps stay consistent, and an event removes no entry of another
switch if and only if it keeps to the condition. -/
theorem switch_maps_consistent (h : Run step Apart start mgr) : mgr.Consistent ∧
    ∀ e mgr', mgr.step e = some mgr' → (mgr.Apart e ↔ mgr'.Consistent ∧ mgr.KeepsOthers e mgr') := by
  have hinv : mgr.Consistent ∧ mgr.Allocated := by
    apply h.invariant (P := fun mgr => mgr.Consistent ∧ mgr.Allocated)
    · rintro t e u ⟨hc, ha⟩ he hstep
      obtain ⟨hiff, ha'⟩ := step_iff hc ha hstep
      exact ⟨(hiff.mp he).1, ha'⟩
    · refine ⟨fun k p hk => ?_, fun k p hk => ?_⟩ <;> cases hk
  exact ⟨hinv.1, fun e mgr' he => (step_iff hinv.1 hinv.2 he).1⟩

/-- Two switches connect, and the first one once more. -/
theorem reconnected_consistent : ∃ mgr : SwitchMgr, mgr.getSwitch 7 = some 0 ∧ mgr.getSwitch 6 = some 1 ∧
    mgr.Consistent ∧ ∀ e mgr', mgr.step e = some mgr' → (mgr.Apart e ↔ mgr'.Consistent ∧ mgr.KeepsOthers e mgr') := by
  have h₁ : Run step Apart start _ := Run.refl.tail (a := .accept .slave 5 0x11 0xa0000001 6633)
    (fun q hq => by cases hq) rfl
  have h₂ : Run step Apart start _ := h₁.tail (a := .accept .slave 6 0x12 0xa0000002 6633) (fun q hq => by cases hq) rfl
  have h₃ : Run step Apart start _ := h₂.tail (a := .accept .slave 7 0x11 0xa0000003 6633) (fun k hk q hq => by
    have hmem : k ∈ [.sockfd 5, .mac 0x11, .ip 0xa0000001, .dpid 0, .tag 0, .sockfd 7, .mac 0x11, .ip 0xa0000003] := hk
    simp only [List.mem_cons, List.not_mem_nil, or_false] at hmem
    rcases hmem with rfl | rfl | rfl | rfl | rfl | rfl | rfl | rfl <;> cases hq <;> rfl) rfl
  exact ⟨_, rfl, rfl, switch_maps_consistent h₃⟩

/-- The socket number of a switch whose connection is closed is that of the next connection. -/
theorem reused_socket_not_consistent : ¬ ∀ mgr, Reaches step start mgr → mgr.Consistent ∧
    ∀ e mgr', mgr.step e = some mgr' → mgr.KeepsOthers e mgr' := by
  intro h
  have h₁ : Reaches step start _ := Run.refl.tail (a := .accept .slave 5 0x11 0xa0000001 6633) trivial rfl
  have h₂ : Reaches step start _ := h₁.tail (a := .close 5) trivial rfl
  have h₃ : Reaches step start _ := h₂.tail (a := .accept .slave 5 0x12 0xa0000002 6633) trivial rfl
  have hstale := ((h _ h₃).1 (.mac 0x11) 0 rfl).2
  cases hstale

end

end SwitchMgr

end DCFabric
