import DCFabric.InetText
import DCFabric.RemoteConnections
import DCFabric.TopoDiscovery

namespace DCFabric

open InetText

def ip2number (ip : List UINT1) : UINT4 := inet_addr ip

def inet_htoa (ip : UINT4) : List UINT1 := inet_ntoa (htonl ip)

namespace CClusterService

/-- The loop of `updateConfig`, with the text in `value`, from some controller on. -/
def appendControllers : List UINT1 → List cluster_controller_t → List UINT1
  | value, [] => value
  | value, controller :: controllers =>
    if controller.ip ≠ 0 then
      let value := value ++ (inet_htoa controller.ip).take (255 - value.length)
      let value := if controllers ≠ [] ∧ value.length < 255 then value ++ [COMMA] else value
      appendControllers value controllers
    else appendControllers value controllers

/-- The value that is stored under `cluster_controller_list`. -/
def updateConfig (m_controllers : List cluster_controller_t) : List UINT1 := appendControllers [] m_controllers

/-- The controllers of a text that fits the buffer of 1024 bytes. -/
def initControllers (conf : Option (List UINT1)) : List cluster_controller_t :=
  match conf with
  | none => []
  | some conf => CClusterServices.initControllers
      ((strtok COMMA (conf.take 1024)).map fun ptr => htonl (ip2number ptr))

/-- The length of the texts of addresses that others come after. -/
def textLength (ips : List UINT4) : ℕ := (ips.flatMap fun ip => inet_htoa ip ++ [COMMA]).length

/-- The addresses but the last one leave a byte for it, and what fits of the last one is read as the same address. -/
def Restorable (n : ℕ) (ips : List UINT4) : Prop :=
  ips = [] ∨ ∃ front last, ips = front ++ [last] ∧ textLength front < n ∧
    htonl (ip2number ((inet_htoa last).take (n - textLength front))) = last

variable {controllers : List cluster_controller_t} {value : List UINT1} {ips : List UINT4} {ip : UINT4} {n : ℕ}

theorem read_inet_htoa (ip : UINT4) : htonl (ip2number (inet_htoa ip)) = ip := by
  rw [ip2number, inet_htoa, inet_addr_inet_ntoa, htonl_htonl]

/-- The texts of the controllers, joined, as far as they fit. -/
theorem appendControllers_eq (hip : ∀ c ∈ controllers, c.ip ≠ 0) (hlen : value.length ≤ 255) :
    appendControllers value controllers =
      (value ++ [COMMA].intercalate (controllers.map fun c => inet_htoa c.ip)).take 255 := by
  induction controllers generalizing value with
  | nil => rw [appendControllers, List.map_nil, List.intercalate_nil, List.append_nil, List.take_of_length_le hlen]
  | cons controller controllers ih =>
    obtain ⟨hcontroller, hcontrollers⟩ := List.forall_mem_cons.mp hip
    rw [appendControllers, if_pos hcontroller]
    dsimp only
    have hwritten : value ++ (inet_htoa controller.ip).take (255 - value.length) =
        (value ++ inet_htoa controller.ip).take 255 := by
      rw [List.take_append, List.take_of_length_le hlen]
    rw [hwritten]
    rcases controllers with - | ⟨next, controllers⟩
    · rw [if_neg (by simp), appendControllers, List.map_singleton, List.intercalate_singleton]
    · have hcons : [COMMA].intercalate ((controller :: next :: controllers).map fun c => inet_htoa c.ip) =
          inet_htoa controller.ip ++
            COMMA :: [COMMA].intercalate ((next :: controllers).map fun c => inet_htoa c.ip) := by
        simp [List.intercalate_cons_cons]
      by_cases hroom : (value ++ inet_htoa controller.ip).length < 255
      · rw [List.take_of_length_le hroom.le, if_pos ⟨List.cons_ne_nil _ _, hroom⟩,
          ih hcontrollers (by rw [List.length_append, List.length_singleton]; omega), hcons]
        simp
      · have hfull : ((value ++ inet_htoa controller.ip).take 255).length = 255 := by
          rw [List.length_take]
          omega
        rw [if_neg (by simp [hfull]), ih hcontrollers hfull.le, List.take_append_of_le_length hfull.ge, List.take_take,
          Nat.min_self, hcons, ← List.append_assoc, List.take_append_of_le_length (not_lt.mp hroom)]

theorem textLength_cons (ip : UINT4) (ips : List UINT4) :
    textLength (ip :: ips) = (inet_htoa ip).length + 1 + textLength ips := by
  rw [textLength, List.flatMap_cons, List.length_append, List.length_append, List.length_singleton]
  rfl

theorem restorable_singleton : Restorable n [ip] ↔ 0 < n ∧ htonl (ip2number ((inet_htoa ip).take n)) = ip := by
  constructor
  · rintro (hnil | ⟨front, last, hsplit, hlt, hread⟩)
    · cases hnil
    · obtain ⟨rfl, rfl⟩ : front = [] ∧ last = ip := by
        have hfront : front = [] := by simpa using congrArg List.dropLast hsplit
        subst hfront
        exact ⟨rfl, (List.singleton_inj.mp hsplit).symm⟩
      exact ⟨hlt, hread⟩
  · rintro ⟨hlt, hread⟩
    exact .inr ⟨[], ip, rfl, hlt, hread⟩

theorem restorable_cons (hips : ips ≠ []) :
    Restorable n (ip :: ips) ↔ (inet_htoa ip).length < n ∧ Restorable (n - (inet_htoa ip).length - 1) ips := by
  constructor
  · rintro (hnil | ⟨front, last, hsplit, hlt, hread⟩)
    · cases hnil
    · rcases front with - | ⟨x, front⟩
      · exact absurd (List.cons.inj hsplit).2 hips
      · obtain ⟨rfl, rfl⟩ := List.cons.inj hsplit
        rw [textLength_cons] at hlt hread
        refine ⟨by omega, .inr ⟨front, last, rfl, by omega, ?_⟩⟩
        rw [show n - (inet_htoa ip).length - 1 - textLength front =
          n - ((inet_htoa ip).length + 1 + textLength front) by omega]
        exact hread
  · rintro ⟨hlen, hnil | ⟨front, last, rfl, hlt, hread⟩⟩
    · exact absurd hnil hips
    · refine .inr ⟨ip :: front, last, rfl, ?_, ?_⟩
      · rw [textLength_cons]
        omega
      · rw [textLength_cons, show n - ((inet_htoa ip).length + 1 + textLength front) =
          n - (inet_htoa ip).length - 1 - textLength front by omega]
        exact hread

/-- Reading what is left of the texts gives the addresses back if and only if the last text is not cut too short. -/
theorem read_cutTexts_iff (n : ℕ) (ips : List UINT4) :
    ((cutTexts n (ips.map inet_htoa)).filter (· ≠ [])).map (fun ptr => htonl (ip2number ptr)) = ips ↔
      Restorable n ips := by
  induction ips generalizing n with
  | nil => simp [cutTexts, Restorable]
  | cons ip ips ih =>
    have hne : inet_htoa ip ≠ [] := inet_ntoa_ne_nil _
    rw [List.map_cons, cutTexts]
    rcases ips with - | ⟨next, ips⟩
    · rw [restorable_singleton, List.map_nil, cutTexts]
      by_cases hn : n ≤ (inet_htoa ip).length
      · rw [if_pos hn]
        by_cases hzero : n = 0
        · simp [hzero]
        · have hcut : (inet_htoa ip).take n ≠ [] := by simpa using ⟨hzero, hne⟩
          rw [List.filter_cons_of_pos (by simpa using hcut), List.filter_nil, List.map_singleton, List.singleton_inj,
            and_iff_right (Nat.pos_of_ne_zero hzero)]
      · rw [if_neg hn, List.filter_cons_of_pos (by simpa using hne), List.filter_nil, List.map_singleton,
          List.take_of_length_le (by omega), List.singleton_inj, and_iff_right (by omega)]
    · rw [restorable_cons (List.cons_ne_nil _ _)]
      split_ifs with hn
      · constructor
        · intro h
          have hlen := congrArg List.length h
          rw [List.length_map] at hlen
          have hle := List.length_filter_le (fun x => decide (x ≠ [])) [(inet_htoa ip).take n]
          simp only [List.length_cons, List.length_nil] at hlen hle
          omega
        · rintro ⟨hlt, -⟩
          omega
      · rw [List.filter_cons_of_pos (by simpa using hne), List.map_cons, read_inet_htoa, List.cons_inj_right, ih,
          and_iff_right (by omega)]

theorem controllers_restored_iff (m_controllers : List cluster_controller_t) (hip : ∀ c ∈ m_controllers, c.ip ≠ 0) :
    (initControllers (some (updateConfig m_controllers))).map (·.ip) = m_controllers.map (·.ip) ↔
      Restorable 255 (m_controllers.map (·.ip)) := by
  have hvalue : (updateConfig m_controllers).take 1024 =
      [COMMA].intercalate (cutTexts 255 ((m_controllers.map (·.ip)).map inet_htoa)) := by
    rw [updateConfig, appendControllers_eq hip (by decide), List.nil_append, List.take_take,
      Nat.min_eq_right (by decide), take_intercalate, List.map_map]
    rfl
  have htexts : ∀ text ∈ cutTexts 255 ((m_controllers.map (·.ip)).map inet_htoa), COMMA ∉ text := by
    intro text htext hmem
    obtain ⟨t, ht, hbegins⟩ := exists_of_mem_cutTexts htext
    obtain ⟨ip, -, rfl⟩ := List.mem_map.mp ht
    exact comma_notMem_inet_ntoa _ (hbegins.subset hmem)
  have hread : (initControllers (some (updateConfig m_controllers))).map (·.ip) =
      ((cutTexts 255 ((m_controllers.map (·.ip)).map inet_htoa)).filter (· ≠ [])).map
        fun ptr => htonl (ip2number ptr) := by
    rw [initControllers, hvalue, strtok_intercalate htexts, CClusterServices.initControllers, List.map_map]
    exact List.map_id _
  rw [hread]
  exact read_cutTexts_iff 255 (m_controllers.map (·.ip))

def controller (ip : UINT4) : cluster_controller_t := ⟨none, ip, 0, .CLUSTER_CONTROLLER_INIT, 0⟩

theorem two_controllers_restored :
    (initControllers (some (updateConfig [controller 0xc0a80001, controller 0xc0a80002]))).map (·.ip) =
      [0xc0a80001, 0xc0a80002] :=
  (controllers_restored_iff [controller 0xc0a80001, controller 0xc0a80002] (by decide)).mpr
    (.inr ⟨[0xc0a80001], 0xc0a80002, rfl, by decide, by decide⟩)

/-- The addresses 192.168.100.101 to 192.168.100.117. -/
def seventeenControllers : List cluster_controller_t :=
  (List.range 17).map fun i => controller (0xc0a86465 + UInt32.ofNat i)

theorem seventeenControllers_not_restored :
    ¬∀ m_controllers : List cluster_controller_t, (m_controllers.map (·.ip)).Nodup → (∀ c ∈ m_controllers, c.ip ≠ 0) →
      (initControllers (some (updateConfig m_controllers))).map (·.ip) = m_controllers.map (·.ip) := by
  intro hall
  have hrestored := hall seventeenControllers (by decide) (by decide)
  have hlength := congrArg List.length hrestored
  exact absurd hlength (by decide +kernel)

end CClusterService

end DCFabric
