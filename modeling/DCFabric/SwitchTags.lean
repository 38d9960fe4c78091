import DCFabric.OwnedPools
import DCFabric.SwitchMaps

namespace DCFabric

open TransitionRuns OwnedPools

namespace CTagMgr

/-- The bit of the tag is set. -/
def IsHeld (m : CTagMgr) (tag : UINT4) : Prop := InRange tag ∧ m.m_bitset.test (tag - m.m_start)

variable {u : Use} {s : Finset ℕ} {tag : UINT4}

theorem Use.held_alloc : (u.call .alloc).held =
    if u.mgr.alloc.1 = invalid_tag then u.held else insert u.mgr.alloc.1 u.held := rfl

theorem Holds.isHeld_iff (h : Holds u s) : u.mgr.IsHeld tag ↔ tag ∈ u.held := by
  rw [IsHeld, h.held, h.bitset.test_eq, h.start, decide_eq_true_eq]

theorem Holds.card_held (h : Holds u s) : u.held.card = s.card := by
  have hlength : u.mgr.m_bitset.m_length.toNat = 3997 := by
    rw [h.length]
    rfl
  apply Finset.card_bij fun tag _ => (tag - 100).toNat
  · intro tag htag
    exact ((h.held tag).mp htag).2
  · intro tag htag tag' htag' heq
    have hsub := ((h.held tag).mp htag).1.sub_toNat
    have hsub' := ((h.held tag').mp htag').1.sub_toNat
    apply UInt32.toNat_inj.mp
    omega
  · intro k hk
    have hlt : k < 3997 := hlength ▸ Finset.mem_range.mp (h.bitset.subset hk)
    have hpos : (UInt32.ofNat k).toNat = k := by
      rw [UInt32.toNat_ofNat']
      exact Nat.mod_eq_of_lt (by omega)
    have hback : (100 + UInt32.ofNat k - 100).toNat = k := by simpa using hpos
    exact ⟨100 + UInt32.ofNat k, (h.held _).mpr ⟨inRange_add (hpos.symm ▸ hlt), hback.symm ▸ hk⟩, hback⟩

end CTagMgr

namespace SwitchMgr

/-- The tags that are held are those of the switches in the socket map, one for each, and none is left only when as
many switches are connected as there are tags. -/
structure Accounted (mgr : SwitchMgr) : Prop where
  held : ∀ tag, mgr.tags.mgr.IsHeld tag ↔ ∃ sockfd p, mgr.getSwitch sockfd = some p ∧ (mgr.sws p).m_tag = tag
  one : ∀ sockfd sockfd' p p', mgr.getSwitch sockfd = some p → mgr.getSwitch sockfd' = some p' →
    (mgr.sws p).m_tag = (mgr.sws p').m_tag → sockfd = sockfd'
  exhausted : mgr.tags.mgr.alloc.1 = invalid_tag →
    ∃ sockets : Finset INT4, sockets.card = 3997 ∧ ∀ sockfd ∈ sockets, (mgr.getSwitch sockfd).isSome

/-- A connection that reuses a known switch is given no tag, and any other is given one. -/
def KeepsTags (mgr : SwitchMgr) : SwitchEvent → Prop
  | .accept _ sockfd mac _ _ =>
    match mgr.known mac with
    | some p => mgr.tags.mgr.alloc.1 = invalid_tag ∧ mgr.Own p (.sockfd sockfd)
    | none => mgr.tags.mgr.alloc.1 ≠ invalid_tag ∧ mgr.getSwitch sockfd = none
  | .delSwitchByDpid dpid => ∀ p, mgr.getSwitchByDpid dpid = some p → mgr.getSwitch (mgr.sws p).m_sockfd = some p
  | _ => True

end SwitchMgr

/-- An event of a controller that is not a slave, and that recovers no switch from another. -/
def SwitchEvent.Controlled : SwitchEvent → Prop
  | .accept role .. => ControllerRole.slave ≠ role
  | .recovered _ => False
  | _ => True

/-- The keys of sockets and of valid MAC addresses. -/
def SwitchKey.Tracked : SwitchKey → Prop
  | .sockfd _ => True
  | .mac address => isValidMac address
  | _ => False

namespace SwitchMgr

/-- The tag of the switch of a socket. -/
def tagOf (mgr : SwitchMgr) (sockfd : INT4) : Option UINT4 :=
  (mgr.getSwitch sockfd).map fun p => (mgr.sws p).m_tag

/-- The entries under these keys are consistent. -/
def Tracks (mgr : SwitchMgr) : Prop :=
  ∀ k p, k.Tracked → mgr.maps k = some p → k ∈ (mgr.sws p).keys ∧ mgr.getSwitch (mgr.sws p).m_sockfd = some p

section

variable {mgr mgr' m : SwitchMgr} {p q : ℕ} {k : SwitchKey} {erased written : List SwitchKey} {sw : SwitchObject}
  {sockfd s : INT4} {mac : MacAddr} {ip : UINT4} {port : UINT2} {dpid : UINT8} {role : ControllerRole} {tag : UINT4}

theorem tagOf_eq_some : mgr.tagOf sockfd = some tag ↔ ∃ p, mgr.getSwitch sockfd = some p ∧ (mgr.sws p).m_tag = tag :=
  Option.map_eq_some_iff

theorem accounted_of_accounts {bits : Finset ℕ} (hs : CTagMgr.Holds mgr.tags bits)
    (h : Accounts mgr.tagOf mgr.tags.held) : mgr.Accounted where
  held tag := by
    rw [hs.isHeld_iff, h.held]
    exact exists_congr fun sockfd => tagOf_eq_some
  one sockfd sockfd' p p' hp hp' heq :=
    h.one sockfd sockfd' _ (tagOf_eq_some.mpr ⟨p, hp, rfl⟩) (tagOf_eq_some.mpr ⟨p', hp', heq.symm⟩)
  exhausted hinvalid := by
    obtain ⟨sockets, hcard, howner⟩ := h.exists_owners
    refine ⟨sockets, ?_, fun sockfd hsockfd => ?_⟩
    · rw [hcard, hs.card_held, hs.alloc_eq_invalid.mp hinvalid, Finset.card_range]
    · have hsome := howner sockfd hsockfd
      rwa [tagOf, Option.isSome_map] at hsome

theorem Accounted.accounts {bits : Finset ℕ} (h : mgr.Accounted) (hs : CTagMgr.Holds mgr.tags bits) :
    Accounts mgr.tagOf mgr.tags.held where
  held tag := by
    rw [← hs.isHeld_iff, h.held]
    exact exists_congr fun sockfd => tagOf_eq_some.symm
  one sockfd sockfd' tag hs hs' := by
    obtain ⟨p, hp, rfl⟩ := tagOf_eq_some.mp hs
    obtain ⟨p', hp', heq⟩ := tagOf_eq_some.mp hs'
    exact h.one sockfd sockfd' p p' hp hp' heq.symm

/-- The tags of the sockets after entries were erased and written. -/
theorem Rewrites.tagOf (h : Rewrites mgr p erased written sw mgr')
    (hkeep : mgr.getSwitch s = some p → .sockfd s ∈ erased ++ written ∨ sw.m_tag = (mgr.sws p).m_tag) :
    mgr'.tagOf s =
      if .sockfd s ∈ written then some sw.m_tag else if .sockfd s ∈ erased then none else mgr.tagOf s := by
  rw [SwitchMgr.tagOf, getSwitch, h.maps]
  split_ifs with hw he
  · rw [Option.map_some, h.self]
  · rfl
  · rw [SwitchMgr.tagOf]
    change (mgr.getSwitch s).map _ = _
    cases hq : mgr.getSwitch s with
    | none => rfl
    | some q =>
      rw [Option.map_some, Option.map_some]
      by_cases hqp : q = p
      · subst hqp
        have hnot : SwitchKey.sockfd s ∉ erased ++ written := fun hmem =>
          (List.mem_append.mp hmem).elim he hw
        rw [h.self, (hkeep hq).resolve_left hnot]
      · rw [h.others q hqp]

theorem Tracks.m_sockfd (h : mgr.Tracks) (hp : mgr.getSwitch sockfd = some p) : (mgr.sws p).m_sockfd = sockfd := by
  have hkey := (h (.sockfd sockfd) p trivial hp).1
  simpa [eq_comm] using hkey

theorem Tracks.known (h : mgr.Tracks) (hp : mgr.known mac = some p) :
    (mgr.sws p).m_swMac = mac ∧ mgr.getSwitch (mgr.sws p).m_sockfd = some p := by
  obtain ⟨hvalid, hget⟩ := known_eq_some.mp hp
  obtain ⟨hkey, hsocket⟩ := h (.mac mac) p hvalid hget
  refine ⟨?_, hsocket⟩
  simpa [eq_comm] using hkey

/-- The entries that are left are tracked when no socket of theirs is erased or taken. -/
theorem Rewrites.tracks (h : Rewrites mgr p erased written sw mgr') (ht : mgr.Tracks)
    (hself : ∀ k, k.Tracked → mgr'.maps k = some p → k ∈ sw.keys ∧ mgr'.getSwitch sw.m_sockfd = some p)
    (hothers : ∀ q, q ≠ p → ∀ k, k.Tracked → mgr'.maps k = some q → .sockfd (mgr.sws q).m_sockfd ∉ erased ++ written) :
    mgr'.Tracks := by
  intro k q hk hq
  by_cases hqp : q = p
  · subst hqp
    rw [h.self]
    exact hself k hk hq
  · have hnot := hothers q hqp k hk hq
    rw [List.mem_append, not_or] at hnot
    obtain ⟨hkeys, hsocket⟩ := ht k q hk ((h.maps_iff hqp).mp hq).2.2
    rw [h.others q hqp]
    exact ⟨hkeys, (h.maps_iff hqp).mpr ⟨hnot.2, hnot.1, hsocket⟩⟩

/-- Only sockets of the switch itself are erased or taken. -/
theorem Rewrites.socket_not_mem (h : Rewrites mgr p erased written sw mgr') (ht : mgr.Tracks)
    (hown : ∀ s, .sockfd s ∈ erased ++ written → mgr.Own p (.sockfd s)) (hq : q ≠ p) (hk : k.Tracked)
    (hmaps : mgr'.maps k = some q) : .sockfd (mgr.sws q).m_sockfd ∉ erased ++ written :=
  fun hmem => hq (hown _ hmem q (ht k q hk ((h.maps_iff hq).mp hmaps).2.2).2)

theorem sockfd_mem_keys : .sockfd s ∈ sw.keys ↔ s = sw.m_sockfd := by
  simp

theorem sockfd_mem_deletedKeys : .sockfd s ∈ sw.deletedKeys ↔ s = sw.m_sockfd := by
  rw [SwitchObject.deletedKeys]
  split_ifs <;> simp

theorem sockfd_mem_acceptedKeys : .sockfd s ∈ mgr.acceptedKeys role sockfd mac ip ↔ s = sockfd := by
  rw [acceptedKeys, tagKeys]
  split_ifs <;> simp

theorem enter_tags : (mgr.enter sockfd mac ip port).2.tags = mgr.tags := by
  rw [enter]
  split_ifs
  · cases mgr.getSwitchByMac mac <;> rfl
  · rfl

theorem addSwitch_tags (hrole : ControllerRole.slave ≠ role) :
    (mgr.addSwitch role sockfd mac ip port).tags = mgr.tags.call .alloc := by
  rw [addSwitch]
  dsimp only
  rw [if_pos hrole, allocTag, enter_tags]
  dsimp only
  split_ifs <;> rfl

/-- The tag of a switch after `addSwitch`. -/
theorem tagged_m_tag (hrole : ControllerRole.slave ≠ role) :
    (mgr.tagged role sw).m_tag = if mgr.tags.mgr.alloc.1 = invalid_tag then sw.m_tag else mgr.tags.mgr.alloc.1 := by
  rw [tagged]
  by_cases hinvalid : mgr.tags.mgr.alloc.1 = invalid_tag
  · rw [if_pos hinvalid, if_neg fun hboth => hboth.2 hinvalid.symm]
  · rw [if_neg hinvalid, if_pos ⟨hrole, Ne.symm hinvalid⟩]

theorem tagOf_known (hp : mgr.known mac = some p) (ht : mgr.Tracks) (ha : mgr.Allocated)
    (hrole : ControllerRole.slave ≠ role) : (mgr.addSwitch role sockfd mac ip port).tagOf =
      Function.update (Function.update mgr.tagOf (mgr.sws p).m_sockfd none) sockfd (some
        (if mgr.tags.mgr.alloc.1 = invalid_tag then (mgr.sws p).m_tag else mgr.tags.mgr.alloc.1)) := by
  obtain ⟨hmac, hsocket⟩ := ht.known hp
  have hrewrites := addSwitch_known role sockfd ip port hp (ha _ p hsocket) hmac
  funext s
  rw [hrewrites.tagOf, tagged_m_tag hrole, Function.update_apply, Function.update_apply]
  · simp only [sockfd_mem_acceptedKeys, sockfd_mem_keys]
  · intro hs
    left
    rw [List.mem_append, sockfd_mem_keys]
    exact .inl (ht.m_sockfd hs).symm

theorem tagOf_unknown (hp : mgr.known mac = none) (ha : mgr.Allocated) (hrole : ControllerRole.slave ≠ role) :
    (mgr.addSwitch role sockfd mac ip port).tagOf = Function.update mgr.tagOf sockfd (some
      (if mgr.tags.mgr.alloc.1 = invalid_tag then 0 else mgr.tags.mgr.alloc.1)) := by
  have hrewrites := addSwitch_unknown role sockfd ip port hp
  funext s
  rw [hrewrites.tagOf, tagged_m_tag hrole, Function.update_apply]
  · simp only [sockfd_mem_acceptedKeys, List.not_mem_nil, if_false]
  · intro hs
    exact absurd (ha _ _ hs) (lt_irrefl _)

/-- What every event of a run keeps. -/
structure Counted (mgr : SwitchMgr) : Prop where
  tracks : mgr.Tracks
  allocated : mgr.Allocated
  holds : ∃ bits, CTagMgr.Holds mgr.tags bits
  accounts : Accounts mgr.tagOf mgr.tags.held

theorem tagOf_socket (hp : mgr.getSwitch s = some p) : mgr.tagOf s = some (mgr.sws p).m_tag :=
  tagOf_eq_some.mpr ⟨p, hp, rfl⟩

theorem Counted.mem_held (h : mgr.Counted) (hp : mgr.getSwitch s = some p) : (mgr.sws p).m_tag ∈ mgr.tags.held :=
  (h.accounts.held _).mpr ⟨s, tagOf_socket hp⟩

/-- A known switch that keeps its tag moves to its new socket. -/
theorem Counted.moved_iff (h : mgr.Counted) (hp : mgr.known mac = some p) :
    mgr.Own p (.sockfd sockfd) ↔ Accounts (Function.update (Function.update mgr.tagOf (mgr.sws p).m_sockfd none) sockfd
      (some (mgr.sws p).m_tag)) mgr.tags.held := by
  have hsocket := (h.tracks.known hp).2
  constructor
  · intro hown
    apply h.accounts.move (tagOf_socket hsocket)
    cases hq : mgr.getSwitch sockfd with
    | none => exact .inr (by rw [SwitchMgr.tagOf, hq]; rfl)
    | some q =>
      obtain rfl := hown q hq
      exact .inl (h.tracks.m_sockfd hq).symm
  · intro haccounts q hq
    by_contra hne
    have hsockfd : sockfd ≠ (mgr.sws p).m_sockfd := by
      rintro rfl
      exact hne (Option.some.inj (hq.symm.trans hsocket))
    refine h.accounts.not_of_lost (tagOf_socket hq) (h.mem_held hq) (fun s hs => ?_) haccounts
    rw [Function.update_apply, Function.update_apply] at hs
    split_ifs at hs with hs₁ hs₂
    · have hsame : (mgr.sws p).m_tag = (mgr.sws q).m_tag := Option.some.inj hs
      exact absurd (h.accounts.one _ _ _ (tagOf_socket hq) (hsame ▸ tagOf_socket hsocket)) hsockfd
    · exact ⟨hs, hs₁⟩

/-- A known switch that gets another tag leaves its old one behind. -/
theorem Counted.retagged_leaks (h : mgr.Counted) (hp : mgr.known mac = some p) (htag : tag ∉ mgr.tags.held) :
    ¬ Accounts (Function.update (Function.update mgr.tagOf (mgr.sws p).m_sockfd none) sockfd (some tag))
      (Insert.insert tag mgr.tags.held) := by
  have hsocket := (h.tracks.known hp).2
  refine h.accounts.not_of_lost (tagOf_socket hsocket) (Finset.mem_insert_of_mem (h.mem_held hsocket)) fun s hs => ?_
  rw [Function.update_apply, Function.update_apply] at hs
  split_ifs at hs with hs₁ hs₂
  · rw [Option.some.inj hs] at htag
    exact absurd (h.mem_held hsocket) htag
  · exact ⟨hs, hs₂⟩

/-- A new switch with a tag takes a socket of its own. -/
theorem Counted.taken_iff (h : mgr.Counted) (htag : tag ∉ mgr.tags.held) : mgr.getSwitch sockfd = none ↔
    Accounts (Function.update mgr.tagOf sockfd (some tag)) (Insert.insert tag mgr.tags.held) := by
  constructor
  · intro hnone
    exact h.accounts.take (by rw [SwitchMgr.tagOf, hnone]; rfl) htag
  · intro haccounts
    by_contra hsome
    obtain ⟨q, hq⟩ := Option.ne_none_iff_exists'.mp hsome
    refine h.accounts.not_of_lost (tagOf_socket hq) (Finset.mem_insert_of_mem (h.mem_held hq))
      (fun s hs => ?_) haccounts
    rw [Function.update_apply] at hs
    split_ifs at hs with hs₁
    · rw [Option.some.inj hs] at htag
      exact absurd (h.mem_held hq) htag
    · exact ⟨hs, hs₁⟩

/-- The tags are accounted for after a connection if and only if a known switch keeps its tag and another gets one. -/
theorem Counted.addSwitch_iff (h : mgr.Counted) (hrole : ControllerRole.slave ≠ role) :
    mgr.KeepsTags (.accept role sockfd mac ip port) ↔ Accounts (mgr.addSwitch role sockfd mac ip port).tagOf
      (mgr.addSwitch role sockfd mac ip port).tags.held := by
  obtain ⟨bits, hbits⟩ := h.holds
  rw [KeepsTags, addSwitch_tags hrole, CTagMgr.Use.held_alloc]
  by_cases hinvalid : mgr.tags.mgr.alloc.1 = invalid_tag
  · cases hp : mgr.known mac with
    | some p =>
      rw [SwitchMgr.tagOf_known hp h.tracks h.allocated hrole, if_pos hinvalid, if_pos hinvalid]
      exact (and_iff_right hinvalid).trans (h.moved_iff hp)
    | none =>
      rw [tagOf_unknown hp h.allocated hrole, if_pos hinvalid, if_pos hinvalid]
      refine iff_of_false (fun hkeeps => hkeeps.1 hinvalid) fun haccounts => ?_
      have hzero := (haccounts.held 0).mpr ⟨sockfd, Function.update_self ..⟩
      exact absurd ((hbits.held 0).mp hzero).1.1 (by decide)
  · have hfresh := (hbits.alloc_fresh hinvalid).1
    cases hp : mgr.known mac with
    | some p =>
      rw [SwitchMgr.tagOf_known hp h.tracks h.allocated hrole, if_neg hinvalid, if_neg hinvalid]
      exact iff_of_false (fun hkeeps => hinvalid hkeeps.1) (h.retagged_leaks hp hfresh)
    | none =>
      rw [tagOf_unknown hp h.allocated hrole, if_neg hinvalid, if_neg hinvalid]
      exact (and_iff_right hinvalid).trans (h.taken_iff hfresh)

/-- A switch whose entries are all erased or written again is tracked under its new socket. -/
theorem Rewrites.tracks_written (h : Rewrites mgr p erased written sw mgr') (ht : mgr.Tracks)
    (hold : ∀ k, k.Tracked → mgr.maps k = some p → k ∈ erased) (hkeys : ∀ k ∈ written, k ∈ sw.keys)
    (hsockfd : .sockfd sw.m_sockfd ∈ written)
    (hothers : ∀ q, q ≠ p → ∀ k, k.Tracked → mgr'.maps k = some q → .sockfd (mgr.sws q).m_sockfd ∉ erased ++ written) :
    mgr'.Tracks := by
  apply h.tracks ht _ hothers
  intro k hk hmaps
  have hsocket : mgr'.getSwitch sw.m_sockfd = some p := by
    rw [getSwitch, h.maps, if_pos hsockfd]
  rw [h.maps] at hmaps
  split_ifs at hmaps with hw he
  · exact ⟨hkeys k hw, hsocket⟩
  · exact absurd (hold k hk hmaps) he

theorem own_socket (hp : mgr.getSwitch (mgr.sws p).m_sockfd = some p)
    (hs : s = (mgr.sws p).m_sockfd) : mgr.Own p (.sockfd s) := by
  intro q hq
  rw [hs] at hq
  exact Option.some.inj (hq.symm.trans hp)

theorem Counted.addSwitch_tracks (h : mgr.Counted) (hkeeps : mgr.KeepsTags (.accept role sockfd mac ip port)) :
    (mgr.addSwitch role sockfd mac ip port).Tracks := by
  rw [KeepsTags] at hkeeps
  cases hp : mgr.known mac with
  | some p =>
    rw [hp] at hkeeps
    obtain ⟨hmac, hsocket⟩ := h.tracks.known hp
    have hrewrites := addSwitch_known role sockfd ip port hp (h.allocated _ p hsocket) hmac
    refine hrewrites.tracks_written h.tracks (fun k hk hmaps => (h.tracks k p hk hmaps).1)
      (acceptedKeys_subset mgr role rfl hmac rfl) ?_ fun q hq k hk hmaps =>
        hrewrites.socket_not_mem h.tracks ?_ hq hk hmaps
    · rw [tagged_m_sockfd]
      exact sockfd_mem_acceptedKeys.mpr rfl
    · intro s hs
      rw [List.mem_append, sockfd_mem_keys, sockfd_mem_acceptedKeys] at hs
      rcases hs with hs | rfl
      · exact own_socket hsocket hs
      · exact hkeeps.2
  | none =>
    rw [hp] at hkeeps
    have hrewrites := addSwitch_unknown role sockfd ip port hp
    refine hrewrites.tracks_written h.tracks (fun k _ hmaps => absurd (h.allocated k _ hmaps) (lt_irrefl _))
      (acceptedKeys_subset mgr role rfl rfl rfl) ?_ fun q hq k hk hmaps =>
        hrewrites.socket_not_mem h.tracks ?_ hq hk hmaps
    · rw [tagged_m_sockfd]
      exact sockfd_mem_acceptedKeys.mpr rfl
    · intro s hs q hq
      rw [List.nil_append, sockfd_mem_acceptedKeys] at hs
      subst hs
      exact absurd (hkeeps.2.symm.trans hq) nofun

theorem Counted.addSwitch (h : mgr.Counted) (hrole : ControllerRole.slave ≠ role)
    (hkeeps : mgr.KeepsTags (.accept role sockfd mac ip port)) :
    (mgr.addSwitch role sockfd mac ip port).Counted where
  tracks := h.addSwitch_tracks hkeeps
  allocated := by
    cases hp : mgr.known mac with
    | some p =>
      obtain ⟨hmac, hsocket⟩ := h.tracks.known hp
      exact (addSwitch_known role sockfd ip port hp (h.allocated _ p hsocket) hmac).allocated_of h.allocated
    | none => exact (addSwitch_unknown role sockfd ip port hp).allocated_of h.allocated
  holds := by
    obtain ⟨bits, hbits⟩ := h.holds
    rw [addSwitch_tags hrole]
    exact hbits.alloc
  accounts := (h.addSwitch_iff hrole).mp hkeeps

theorem delete_tags : (mgr.delete p sockfd).tags = mgr.tags.call (.release (mgr.sws p).m_tag) := by
  rw [delete]
  split_ifs <;> rfl

/-- A switch that is deleted gives its tag back. -/
theorem Counted.delete (h : mgr.Counted) (hp : mgr.getSwitch sockfd = some p) : (mgr.delete p sockfd).Counted := by
  have hsockfd := h.tracks.m_sockfd hp
  have hrewrites : Rewrites mgr p (mgr.sws p).deletedKeys [] (mgr.sws p) (mgr.delete p sockfd) :=
    rewrites_delete hsockfd
  rw [← hsockfd] at hp
  refine ⟨hrewrites.tracks h.tracks (fun k hk hmaps => ?_) fun q hq k hk hmaps =>
    hrewrites.socket_not_mem h.tracks (fun s hs => ?_) hq hk hmaps, hrewrites.allocated_of h.allocated, ?_, ?_⟩
  · rw [hrewrites.maps, if_neg List.not_mem_nil] at hmaps
    split_ifs at hmaps with he
    have hkey := (h.tracks k p hk hmaps).1
    rw [SwitchObject.deletedKeys] at he
    cases k with
    | sockfd s => simp_all
    | mac address =>
      have hvalid : isValidMac address := hk
      simp_all
    | ip | dpid | tag => cases hk
  · rw [List.append_nil, sockfd_mem_deletedKeys] at hs
    exact own_socket hp hs
  · obtain ⟨bits, hbits⟩ := h.holds
    rw [delete_tags]
    exact hbits.release _
  · have htag : (mgr.delete p sockfd).tagOf = Function.update mgr.tagOf (mgr.sws p).m_sockfd none := by
      funext s
      rw [hrewrites.tagOf fun _ => .inr rfl, Function.update_apply]
      simp only [List.not_mem_nil, if_false, sockfd_mem_deletedKeys]
    rw [delete_tags, htag]
    exact h.accounts.release (tagOf_socket hp)

/-- A copy keeps the tag and the socket of the switch. -/
theorem Counted.handleDesc (h : mgr.Counted) : (mgr.handleDesc sockfd).Counted := by
  cases hp : mgr.getSwitch sockfd with
  | none =>
    rw [SwitchMgr.handleDesc, hp]
    exact h
  | some p =>
    have hsockfd := h.tracks.m_sockfd hp
    have hrewrites := rewrites_handleDesc hp (h.allocated _ p hp) hsockfd
    have htags : (mgr.handleDesc sockfd).tags = mgr.tags := by
      rw [SwitchMgr.handleDesc, hp]
      rfl
    rw [← hsockfd] at hp
    refine ⟨hrewrites.tracks_written h.tracks (fun k _ hmaps => absurd (h.allocated k _ hmaps) (lt_irrefl _))
      (fun k hk => hk) (sockfd_mem_keys.mpr rfl) fun q hq k hk hmaps hmem => ?_, hrewrites.allocated_of h.allocated,
      htags ▸ h.holds, ?_⟩
    · obtain ⟨hkeys, -, hold⟩ := (hrewrites.maps_iff hq).mp hmaps
      obtain ⟨hkey, hsocket⟩ := h.tracks k q hk hold
      rw [List.mem_append, or_self, sockfd_mem_keys] at hmem
      rw [hmem, hp] at hsocket
      obtain rfl := Option.some.inj hsocket
      exact hkeys hkey
    · have htag : (mgr.handleDesc sockfd).tagOf = mgr.tagOf := by
        funext s
        rw [hrewrites.tagOf fun hs => absurd (h.allocated _ _ hs) (lt_irrefl _)]
        simp only [sockfd_mem_keys]
        split_ifs with hs
        · rw [hs]
          exact (tagOf_socket hp).symm
        · rfl
      rw [htags, htag]
      exact h.accounts

theorem Counted.handleFeatures (h : mgr.Counted) : (mgr.handleFeatures sockfd dpid).Counted := by
  cases hp : mgr.getSwitch sockfd with
  | none =>
    rw [SwitchMgr.handleFeatures, hp]
    exact h
  | some p =>
    have hrewrites : Rewrites mgr p [] [.dpid dpid] { mgr.sws p with m_dpid := dpid }
      (mgr.handleFeatures sockfd dpid) :=
      rewrites_handleFeatures h.allocated hp
    have htags : (mgr.handleFeatures sockfd dpid).tags = mgr.tags := by
      rw [SwitchMgr.handleFeatures, hp]
      rfl
    refine ⟨hrewrites.tracks h.tracks (fun k hk hmaps => ?_) fun q _ k _ _ => by simp,
      hrewrites.allocated_of h.allocated, htags ▸ h.holds, ?_⟩
    · have hkept (s : INT4) : (mgr.handleFeatures sockfd dpid).getSwitch s = mgr.getSwitch s := by
        rw [getSwitch, hrewrites.maps, if_neg (by simp), if_neg List.not_mem_nil]
        rfl
      rw [hrewrites.maps, if_neg List.not_mem_nil] at hmaps
      split_ifs at hmaps with hw
      · obtain rfl := List.mem_singleton.mp hw
        cases hk
      · obtain ⟨hkey, hsocket⟩ := h.tracks k p hk hmaps
        refine ⟨?_, (hkept _).trans hsocket⟩
        cases k with
        | sockfd | mac => simpa using hkey
        | ip | dpid | tag => cases hk
    · have htag : (mgr.handleFeatures sockfd dpid).tagOf = mgr.tagOf := by
        funext s
        rw [hrewrites.tagOf fun _ => .inr rfl, if_neg (by simp), if_neg List.not_mem_nil]
      rw [htags, htag]
      exact h.accounts

theorem Counted.delSwitch (h : mgr.Counted) : (mgr.delSwitch sockfd).Counted := by
  rw [SwitchMgr.delSwitch]
  cases hp : mgr.getSwitch sockfd with
  | none => exact h
  | some p => exact h.delete hp

theorem Counted.step {e : SwitchEvent} (h : mgr.Counted) (hcontrolled : e.Controlled) (hkeeps : mgr.KeepsTags e)
    (he : mgr.step e = some mgr') : mgr'.Counted := by
  cases e with
  | accept role sockfd mac ip port =>
    rw [SwitchMgr.step] at he
    split_ifs at he
    obtain rfl := Option.some.inj he
    have h' : Counted { mgr with opened := Insert.insert sockfd mgr.opened } :=
      ⟨h.tracks, h.allocated, h.holds, h.accounts⟩
    exact h'.addSwitch hcontrolled hkeeps
  | close sockfd =>
    obtain rfl := Option.some.inj he
    exact ⟨h.tracks, h.allocated, h.holds, h.accounts⟩
  | recovered sw => cases hcontrolled
  | delSwitch sockfd =>
    obtain rfl := Option.some.inj he
    exact h.delSwitch
  | delSwitchByDpid dpid =>
    obtain rfl := Option.some.inj he
    rw [SwitchMgr.delSwitchByDpid]
    cases hp : mgr.getSwitchByDpid dpid with
    | none => exact h
    | some p => exact h.delete (hkeeps p hp)
  | updSwitch sockfd =>
    obtain rfl := Option.some.inj he
    exact h.handleDesc
  | featuresReply sockfd dpid =>
    rw [SwitchMgr.step] at he
    split_ifs at he
    · obtain rfl := Option.some.inj he
      exact h.delSwitch
    · obtain rfl := Option.some.inj he
      exact h.handleFeatures

theorem start_counted : start.Counted where
  tracks k p _ hk := by cases hk
  allocated k p hk := by cases hk
  holds := ⟨∅, CTagMgr.start_holds⟩
  accounts := accounts_none

theorem Counted.of_run (h : Run SwitchMgr.step (fun mgr e => e.Controlled ∧ mgr.KeepsTags e) start mgr) :
    mgr.Counted := by
  apply h.invariant _ start_counted
  rintro t e u ht ⟨hcontrolled, hkeeps⟩ he
  exact ht.step hcontrolled hkeeps he

theorem Counted.accounted (h : mgr.Counted) : mgr.Accounted := by
  obtain ⟨bits, hbits⟩ := h.holds
  exact accounted_of_accounts hbits h.accounts

theorem Counted.accept_iff (h : mgr.Counted) (hrole : ControllerRole.slave ≠ role)
    (he : mgr.step (.accept role sockfd mac ip port) = some mgr') :
    mgr.KeepsTags (.accept role sockfd mac ip port) ↔ mgr'.Accounted := by
  rw [SwitchMgr.step] at he
  split_ifs at he
  obtain rfl := Option.some.inj he
  have hopened : Counted { mgr with opened := Insert.insert sockfd mgr.opened } :=
    ⟨h.tracks, h.allocated, h.holds, h.accounts⟩
  obtain ⟨bits, hbits⟩ := h.holds
  obtain ⟨bits', hbits'⟩ := hbits.alloc
  have htags : ({ mgr with opened := Insert.insert sockfd mgr.opened }.addSwitch role sockfd mac ip port).tags =
      mgr.tags.call .alloc := addSwitch_tags hrole
  rw [← htags] at hbits'
  exact (hopened.addSwitch_iff hrole).trans
    ⟨fun haccounts => accounted_of_accounts hbits' haccounts, fun haccounted => haccounted.accounts hbits'⟩

/-- The tags are accounted for in every run of events that keep to the condition, and after a further connection if
and only if that keeps to it. -/
theorem tags_accounted (h : Run step (fun mgr e => e.Controlled ∧ mgr.KeepsTags e) start mgr) : mgr.Accounted ∧
    ∀ role sockfd mac ip port, ControllerRole.slave ≠ role →
      ∀ mgr', mgr.step (.accept role sockfd mac ip port) = some mgr' →
        (mgr.KeepsTags (.accept role sockfd mac ip port) ↔ mgr'.Accounted) := by
  have hcounted := Counted.of_run h
  exact ⟨hcounted.accounted, fun role sockfd mac ip port hrole mgr' he => hcounted.accept_iff hrole he⟩

/-- Two switches connect, and the first one is deleted. -/
theorem connected_accounted : ∃ mgr : SwitchMgr, mgr.getSwitch 5 = none ∧ mgr.tagOf 6 = some 101 ∧ mgr.Accounted ∧
    ∀ role sockfd mac ip port, ControllerRole.slave ≠ role →
      ∀ mgr', mgr.step (.accept role sockfd mac ip port) = some mgr' →
        (mgr.KeepsTags (.accept role sockfd mac ip port) ↔ mgr'.Accounted) := by
  have h₁ : Run step (fun mgr e => e.Controlled ∧ mgr.KeepsTags e) start _ :=
    Run.refl.tail (a := .accept .master 5 0x11 0xa0000001 6633) ⟨nofun, by decide +kernel, rfl⟩ rfl
  have h₂ : Run step (fun mgr e => e.Controlled ∧ mgr.KeepsTags e) start _ :=
    h₁.tail (a := .accept .master 6 0x12 0xa0000002 6633) ⟨nofun, by
      rw [KeepsTags, show SwitchMgr.known _ 0x12 = none by decide +kernel]
      exact ⟨by decide +kernel, by decide +kernel⟩⟩ (if_neg (by decide +kernel))
  have h₃ : Run step (fun mgr e => e.Controlled ∧ mgr.KeepsTags e) start _ :=
    h₂.tail (a := .delSwitch 5) ⟨trivial, trivial⟩ rfl
  exact ⟨_, by decide +kernel, by decide +kernel, tags_accounted h₃⟩

/-- A switch that reconnects is given a second tag. -/
theorem reconnected_not_accounted : ¬ ∀ mgr, Run step (fun _ e => e.Controlled) start mgr → mgr.Accounted := by
  intro h
  obtain ⟨mgr, h₁, hknown, halloc, hopened⟩ : ∃ mgr, Run step (fun mgr e => e.Controlled ∧ mgr.KeepsTags e) start mgr ∧
      mgr.known 0x11 = some 0 ∧ mgr.tags.mgr.alloc.1 ≠ invalid_tag ∧ 6 ∉ mgr.opened :=
    ⟨_, Run.refl.tail (a := .accept .master 5 0x11 0xa0000001 6633) ⟨nofun, by decide +kernel, rfl⟩ rfl,
      by decide +kernel, by decide +kernel, by decide +kernel⟩
  have hstep : mgr.step (.accept .master 6 0x11 0xa0000002 6633) =
      some ({ mgr with opened := Insert.insert 6 mgr.opened }.addSwitch .master 6 0x11 0xa0000002 6633) :=
    if_neg hopened
  have h₂ : Run step (fun _ e => e.Controlled) start _ :=
    (h₁.mono fun _ _ hc => hc.1).tail (a := .accept .master 6 0x11 0xa0000002 6633) nofun hstep
  have hkeeps := ((Counted.of_run h₁).accept_iff (by decide) hstep).mpr (h _ h₂)
  rw [KeepsTags, hknown] at hkeeps
  exact halloc hkeeps.1

end

end SwitchMgr

end DCFabric
