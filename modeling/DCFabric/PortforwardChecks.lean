import DCFabric.PortforwardFlows

namespace DCFabric

open TransitionRuns

/-- One side of a rule. -/
structure PortSide where
  ip : UINT4
  portStart : UINT2
  portEnd : UINT2

namespace PortSide

def Holds (side : PortSide) (port : UINT2) : Prop := side.portStart ≤ port ∧ port ≤ side.portEnd

instance (side : PortSide) (port : UINT2) : Decidable (side.Holds port) := inferInstanceAs (Decidable (_ ∧ _))

/-- The sum is stored in 16 bits before it is compared with the end of the range. -/
def mapPort (side other : PortSide) (port : UINT2) : UINT2 :=
  let mapped := other.portStart + port - side.portStart
  if mapped > other.portEnd then other.portEnd else mapped

/-- The range of the other side goes on at least as far as the port does on its own. -/
def Covers (other side : PortSide) (port : UINT2) : Prop :=
  port.toNat - side.portStart.toNat ≤ other.portEnd.toNat - other.portStart.toNat

instance (other side : PortSide) (port : UINT2) : Decidable (other.Covers side port) :=
  inferInstanceAs (Decidable (_ ≤ _))

end PortSide

namespace CPortforwardRule

def outside (r : CPortforwardRule) : PortSide := ⟨r.m_outIp, r.m_outPortStart, r.m_outPortEnd⟩

def inside (r : CPortforwardRule) : PortSide := ⟨r.m_inIp, r.m_inPortStart, r.m_inPortEnd⟩

/-- The rule is for this address and port on one of its sides. -/
def Matches (r : CPortforwardRule) (side : PortSide) (ip : UINT4) (port : UINT2) (protocol : INT4) : Prop :=
  r.m_enabled ∧ r.m_protocol = protocol ∧ side.ip = ip ∧ side.Holds port

instance (r : CPortforwardRule) (side : PortSide) (ip : UINT4) (port : UINT2) (protocol : INT4) :
    Decidable (r.Matches side ip port protocol) := inferInstanceAs (Decidable (_ ∧ _))

end CPortforwardRule

namespace CPortforwardPolicy

open CPortforwardRule

/-- The loop that `checkIn` and `checkOut` share, each from its own side of the rules. -/
def check (side other : CPortforwardRule → PortSide) (ruleList : List CPortforwardRule) (ip : UINT4) (port : UINT2)
    (protocol : INT4) : Option (UINT4 × UINT2) :=
  (ruleList.find? fun rule => rule.Matches (side rule) ip port protocol).map fun rule =>
    ((other rule).ip, (side rule).mapPort (other rule) port)

def checkIn (s : CPortforwardPolicy) (outIp : UINT4) (outPort : UINT2) (protocol : INT4) : Option (UINT4 × UINT2) :=
  check outside inside (s.m_outPolicy outIp) outIp outPort protocol

def checkOut (s : CPortforwardPolicy) (inIp : UINT4) (inPort : UINT2) (protocol : INT4) : Option (UINT4 × UINT2) :=
  check inside outside (s.m_inPolicy inIp) inIp inPort protocol

/-- The enabled rules of one address and protocol have no port in common. -/
def Apart (s : CPortforwardPolicy) (side : CPortforwardRule → PortSide) : Prop :=
  ∀ r p, s.Stored r → s.Stored p → r ≠ p → ∀ ip port protocol,
    r.Matches (side r) ip port protocol → ¬p.Matches (side p) ip port protocol

/-- The tables that the rules of routers come to: the start of a range is not after its end. -/
structure PortTable (s : CPortforwardPolicy) : Prop where
  reaches : Reaches step start s
  outside_ordered : ∀ r, s.Stored r → r.m_enabled → r.outside.portStart ≤ r.outside.portEnd
  inside_ordered : ∀ r, s.Stored r → r.m_enabled → r.inside.portStart ≤ r.inside.portEnd
  outside_apart : s.Apart outside
  inside_apart : s.Apart inside

/-- A port that one side of a rule holds comes back through the other side if and only if the other range covers it,
unless 16 bits are too few for the sum. -/
def TranslatesBack (s : CPortforwardPolicy) (side other : CPortforwardRule → PortSide)
    (check back : UINT4 → UINT2 → INT4 → Option (UINT4 × UINT2)) : Prop :=
  ∀ ip port protocol ip' port', check ip port protocol = some (ip', port') →
    ∃ r, s.Stored r ∧ r.Matches (side r) ip port protocol ∧
      ((other r).portStart.toNat + (port.toNat - (side r).portStart.toNat) < 2 ^ 16 →
        (back ip' port' protocol = some (ip, port) ↔ (other r).Covers (side r) port))

end CPortforwardPolicy

namespace PortSide

variable {side other : PortSide} {port : UINT2}

theorem toNat_sum (h : side.Holds port) (hsum : other.portStart.toNat + (port.toNat - side.portStart.toNat) < 2 ^ 16) :
    (other.portStart + port - side.portStart).toNat = other.portStart.toNat + (port.toNat - side.portStart.toNat) := by
  have hle := UInt16.le_iff_toNat_le.mp h.1
  have hport := port.toNat_lt
  rw [UInt16.toNat_sub, UInt16.toNat_add]
  omega

theorem mapPort_toNat (h : side.Holds port)
    (hsum : other.portStart.toNat + (port.toNat - side.portStart.toNat) < 2 ^ 16) :
    (side.mapPort other port).toNat =
      min (other.portStart.toNat + (port.toNat - side.portStart.toNat)) other.portEnd.toNat := by
  have hnat := toNat_sum h hsum
  rw [mapPort]
  split_ifs with hlt
  · have hlt := UInt16.lt_iff_toNat_lt.mp hlt
    omega
  · have hle := UInt16.le_iff_toNat_le.mp (UInt16.not_lt.mp hlt)
    omega

/-- Where the other range is not empty, what is mapped into it is held there. -/
theorem mapPort_holds (h : side.Holds port) (hother : other.portStart ≤ other.portEnd)
    (hsum : other.portStart.toNat + (port.toNat - side.portStart.toNat) < 2 ^ 16) :
    other.Holds (side.mapPort other port) := by
  have hmapped := mapPort_toNat h hsum
  have hle := UInt16.le_iff_toNat_le.mp hother
  constructor
  · apply UInt16.le_iff_toNat_le.mpr
    omega
  · apply UInt16.le_iff_toNat_le.mpr
    omega

theorem mapPort_back_iff (h : side.Holds port) (hother : other.portStart ≤ other.portEnd)
    (hsum : other.portStart.toNat + (port.toNat - side.portStart.toNat) < 2 ^ 16) :
    other.mapPort side (side.mapPort other port) = port ↔ other.Covers side port := by
  have hmapped := mapPort_toNat h hsum
  have hstart := UInt16.le_iff_toNat_le.mp h.1
  have hend := UInt16.le_iff_toNat_le.mp h.2
  have hle := UInt16.le_iff_toNat_le.mp hother
  have hport := port.toNat_lt
  have hback : (other.mapPort side (side.mapPort other port)).toNat =
      min (side.portStart.toNat + ((side.mapPort other port).toNat - other.portStart.toNat)) side.portEnd.toNat :=
    mapPort_toNat (mapPort_holds h hother hsum) (by omega)
  rw [← UInt16.toNat_inj, hback, Covers]
  omega

end PortSide

namespace CPortforwardPolicy

open CPortforwardRule

variable {s : CPortforwardPolicy} {side other : CPortforwardRule → PortSide} {l : List CPortforwardRule}
  {ip ip' : UINT4} {port port' : UINT2} {protocol : INT4} {r : CPortforwardRule}

theorem found_matches (h : l.find? (fun rule => rule.Matches (side rule) ip port protocol) = some r) :
    r.Matches (side r) ip port protocol := by
  simpa using List.find?_some h

theorem exists_of_check (h : check side other l ip port protocol = some (ip', port')) :
    ∃ r ∈ l, r.Matches (side r) ip port protocol ∧ (other r).ip = ip' ∧ (side r).mapPort (other r) port = port' := by
  obtain ⟨r, hfind, hr⟩ := Option.map_eq_some_iff.mp h
  obtain ⟨hip, hport⟩ := Prod.mk.inj hr
  exact ⟨r, List.mem_of_find?_eq_some hfind, found_matches hfind, hip, hport⟩

theorem check_of_unique (hr : r ∈ l) (hm : r.Matches (side r) ip port protocol)
    (hunique : ∀ p ∈ l, p.Matches (side p) ip port protocol → p = r) :
    check side other l ip port protocol = some ((other r).ip, (side r).mapPort (other r) port) := by
  cases hfind : l.find? fun rule => rule.Matches (side rule) ip port protocol with
  | none =>
    have hnone := List.find?_eq_none.mp hfind r hr
    exact absurd (decide_eq_true hm) hnone
  | some p =>
    have hp := hunique p (List.mem_of_find?_eq_some hfind) (found_matches hfind)
    rw [check, hfind, hp]
    rfl

/-- One direction, from the side of the outside IP's or of the inside IP's lists. -/
theorem translatesBack {policy back : UINT4 → List CPortforwardRule} (hpolicy : ∀ ip, ∀ r ∈ policy ip, s.Stored r)
    (hback : ∀ ip, ∀ r ∈ back ip, s.Stored r) (hstored : ∀ r, s.Stored r → r ∈ back (other r).ip)
    (hordered : ∀ r, s.Stored r → r.m_enabled → (other r).portStart ≤ (other r).portEnd) (hapart : s.Apart other) :
    s.TranslatesBack side other (fun ip => check side other (policy ip) ip)
      fun ip => check other side (back ip) ip := by
  intro ip port protocol ip' port' hcheck
  obtain ⟨r, hr, hm, rfl, rfl⟩ := exists_of_check hcheck
  have hs := hpolicy ip r hr
  refine ⟨r, hs, hm, fun hsum => ?_⟩
  have hholds := PortSide.mapPort_holds hm.2.2.2 (hordered r hs hm.1) hsum
  have hother : r.Matches (other r) (other r).ip ((side r).mapPort (other r) port) protocol :=
    ⟨hm.1, hm.2.1, rfl, hholds⟩
  have hunique : ∀ p ∈ back (other r).ip,
      p.Matches (other p) (other r).ip ((side r).mapPort (other r) port) protocol → p = r := by
    intro p hp hpm
    by_contra hne
    exact hapart r p hs (hback _ p hp) (Ne.symm hne) _ _ _ hother hpm
  dsimp only
  rw [check_of_unique (hstored r hs) hother hunique, Option.some_inj, Prod.mk.injEq, hm.2.2.1,
    ← PortSide.mapPort_back_iff hm.2.2.2 (hordered r hs hm.1) hsum]
  simp

theorem SameRules.stored_iff (h : s.SameRules) : s.Stored r ↔ r ∈ s.m_inPolicy r.m_inIp := by
  rw [Stored, ← List.count_pos_iff, ← List.count_pos_iff, h.same r]

theorem sameRules_of_reaches (h : Reaches step start s) : s.SameRules :=
  h.invariant (fun _ _ _ ht _ he => ht.step he) start_sameRules

/-- The outside ports 100 to 200 for the inside ports 100 to 102. -/
def shorterInside : CPortforwardRule := ⟨true, 6, 0xc0a80005, 0x0a000005, 100, 200, 100, 102, [1], [2]⟩

theorem portTable_shorterInside : (start.createPortforwardRule shorterInside).PortTable := by
  have hstored : ∀ r, (start.createPortforwardRule shorterInside).Stored r → r = shorterInside := by
    intro r hr
    exact (stored_create.mp hr).resolve_right List.not_mem_nil
  refine ⟨.tail (a := .createPortforwardRule shorterInside) .refl trivial rfl, ?_, ?_, ?_, ?_⟩
  · rintro r hr -
    rw [hstored r hr]
    decide
  · rintro r hr -
    rw [hstored r hr]
    decide
  · exact fun r p hr hp hne => absurd ((hstored r hr).trans (hstored p hp).symm) hne
  · exact fun r p hr hp hne => absurd ((hstored r hr).trans (hstored p hp).symm) hne

end CPortforwardPolicy

end DCFabric
