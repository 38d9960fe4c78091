import DCFabric.BncTypes
import DCFabric.JsonText

namespace DCFabric

open JsonText Nesting

namespace COvsdbMgr

/-- The loop of `genJson` from the position `i` on. -/
def genJsonFrom : List UINT1 → UINT4 → UINT4 → UINT4
  | [], _, _ => 0
  | b :: buffer, i, brace_cnt =>
    if b = openBrace then genJsonFrom buffer (i + 1) (brace_cnt + 1)
    else if b = closeBrace then
      if brace_cnt - 1 = 0 then i + 1 else genJsonFrom buffer (i + 1) (brace_cnt - 1)
    else genJsonFrom buffer (i + 1) brace_cnt

def genJson (buffer : List UINT1) : UINT4 :=
  match buffer with
  | [] => 0
  | b :: _ => if b = 0 then 0 else genJsonFrom buffer 0 0

/-- Whether the loop takes 1 from a `brace_cnt` of 0. -/
def wrapsFrom : List UINT1 → UINT4 → Bool
  | [], _ => false
  | b :: buffer, brace_cnt =>
    if b = openBrace then wrapsFrom buffer (brace_cnt + 1)
    else if b = closeBrace then
      decide (brace_cnt = 0) || (decide (brace_cnt - 1 ≠ 0) && wrapsFrom buffer (brace_cnt - 1))
    else wrapsFrom buffer brace_cnt

def wraps (buffer : List UINT1) : Bool :=
  match buffer with
  | [] => false
  | b :: _ => if b = 0 then false else wrapsFrom buffer 0

variable {buffer p s o : List UINT1} {i c : UINT4} {b : UINT1}

theorem toNat_add_one {n : UINT4} (h : n.toNat + 1 < 2 ^ 32) : (n + 1).toNat = n.toNat + 1 := by
  rw [UInt32.toNat_add]
  exact Nat.mod_eq_of_lt h

theorem toNat_sub_one {n : UINT4} (h : 0 < n.toNat) : (n - 1).toNat = n.toNat - 1 :=
  UInt32.toNat_sub_of_le n 1 (UInt32.le_iff_toNat_le.mpr h)

theorem not_openBrace_closeBrace : closeBrace ≠ openBrace := by decide

/-- A brace that is not the last one to be closed moves the count by one. -/
theorem genJsonFrom_cons (hcnt : c.toNat + 1 < 2 ^ 32) (hopen : 0 < c.toNat + brace b) :
    ∃ c' : UINT4, (c'.toNat : ℤ) = c.toNat + brace b ∧
      ∀ buffer i, genJsonFrom (b :: buffer) i c = genJsonFrom buffer (i + 1) c' := by
  by_cases ho : b = openBrace
  · refine ⟨c + 1, ?_, fun buffer i => if_pos ho⟩
    rw [toNat_add_one hcnt, ho, brace_openBrace]
    rfl
  · by_cases hc : b = closeBrace
    · rw [hc, brace_closeBrace] at hopen
      have hsub := toNat_sub_one (n := c) (by omega)
      have hne : c - 1 ≠ 0 := by
        intro hzero
        rw [hzero] at hsub
        simp only [UInt32.toNat_zero] at hsub
        omega
      refine ⟨c - 1, ?_, fun buffer i => ?_⟩
      · rw [hsub, hc, brace_closeBrace]
        omega
      · rw [genJsonFrom, if_neg ho, if_pos hc, if_neg hne]
    · refine ⟨c, ?_, fun buffer i => ?_⟩
      · rw [brace_eq_zero ho hc, add_zero]
      · rw [genJsonFrom, if_neg ho, if_neg hc]

theorem brace_le_one (b : UINT1) : brace b ≤ 1 := by
  rw [brace]
  split_ifs <;> decide

theorem genJsonFrom_append (hcnt : c.toNat + p.length < 2 ^ 32)
    (h : ∀ q, q <+: p → q ≠ [] → 0 < c.toNat + net brace q) :
    ∃ c' : UINT4, (c'.toNat : ℤ) = c.toNat + net brace p ∧
      ∀ s i, genJsonFrom (p ++ s) i c = genJsonFrom s (i + UInt32.ofNat p.length) c' := by
  induction p generalizing c with
  | nil => exact ⟨c, by simp, fun s i => by simp⟩
  | cons b p ih =>
    have hfirst := h [b] (List.prefix_append [b] p) (List.cons_ne_nil b [])
    rw [net_cons, net_nil, add_zero] at hfirst
    rw [List.length_cons] at hcnt
    obtain ⟨cnt, hcnt', hstep⟩ := genJsonFrom_cons (by omega) hfirst
    have hle := brace_le_one b
    obtain ⟨cnt', hcnt'', hrest⟩ := ih (c := cnt) (by omega) (by
      intro q hq hne
      have := h (b :: q) ((List.prefix_cons_inj b).mpr hq) (List.cons_ne_nil b q)
      rw [net_cons] at this
      omega)
    refine ⟨cnt', ?_, fun s i => ?_⟩
    · rw [hcnt'', hcnt', net_cons]
      omega
    · rw [List.cons_append, hstep, hrest, List.length_cons, UInt32.ofNat_add, add_assoc,
        add_comm (1 : UINT4)]
      rfl

/-- While every prefix leaves a brace open, the loop goes on to the end. -/
theorem genJsonFrom_open (hcnt : c.toNat + buffer.length < 2 ^ 32)
    (h : ∀ q, q <+: buffer → q ≠ [] → 0 < c.toNat + net brace q) : genJsonFrom buffer i c = 0 := by
  obtain ⟨cnt, -, hscan⟩ := genJsonFrom_append hcnt h
  simpa [genJsonFrom] using hscan [] i

theorem net_brace_le (l : List UINT1) : net brace l ≤ l.length := by
  induction l with
  | nil => exact le_rfl
  | cons b l ih =>
    have := brace_le_one b
    rw [net_cons, List.length_cons]
    omega

/-- The brace that closes the first one ends the scan. -/
theorem genJsonFrom_close (hcnt : c.toNat = 1) : genJsonFrom (closeBrace :: s) i c = i + 1 := by
  have hone : c = 1 := UInt32.toNat_inj.mp hcnt
  rw [genJsonFrom, if_neg not_openBrace_closeBrace, if_pos rfl, hone]
  rfl

/-- Where the scan finds no end, every prefix leaves a brace open. -/
theorem pos_of_genJsonFrom (hcnt : c.toNat + buffer.length < 2 ^ 32) (hi : i.toNat + buffer.length < 2 ^ 32)
    (hpos : 0 < c.toNat) (h : genJsonFrom buffer i c = 0) :
    ∀ q, q <+: buffer → 0 < c.toNat + net brace q := by
  induction buffer generalizing i c with
  | nil =>
    intro q hq
    rw [List.prefix_nil.mp hq, net_nil]
    omega
  | cons b buffer ih =>
    rw [List.length_cons] at hcnt hi
    have hi' := toNat_add_one (n := i) (by omega)
    have hfirst : 0 < c.toNat + brace b := by
      by_contra hneg
      by_cases ho : b = openBrace
      · rw [ho, brace_openBrace] at hneg
        omega
      · by_cases hc : b = closeBrace
        · rw [hc, brace_closeBrace] at hneg
          rw [hc, genJsonFrom_close (by omega)] at h
          rw [h] at hi'
          simp at hi'
        · rw [brace_eq_zero ho hc] at hneg
          omega
    have hle := brace_le_one b
    obtain ⟨cnt, hcnt', hstep⟩ := genJsonFrom_cons (by omega) hfirst
    rw [hstep] at h
    intro q hq
    obtain rfl | ⟨r, rfl, hr⟩ := List.prefix_cons_iff.mp hq
    · rw [net_nil]
      omega
    · have := ih (c := cnt) (by omega) (by omega) (by omega) h r hr
      rw [net_cons]
      omega

/-- `genJson` finds the end of the object whatever follows it, and finds none in a part of it. -/
def Scans (o : List UINT1) : Prop :=
  (∀ s, (o ++ s).length < 2 ^ 32 → genJson (o ++ s) = UInt32.ofNat o.length) ∧
    ∀ p, p <+: o → p ≠ o → genJson p = 0

theorem genJson_openBrace : genJson (openBrace :: buffer) = genJsonFrom buffer 1 1 := by
  rw [genJson, if_neg (by decide), genJsonFrom, if_pos rfl]
  rfl

theorem net_between (l : List UINT1) : net brace (openBrace :: (l ++ [closeBrace])) = net brace l := by
  rw [net_cons, net_append, net_cons, net_nil, brace_openBrace, brace_closeBrace]
  omega

theorem length_between (l : List UINT1) : (openBrace :: (l ++ [closeBrace])).length = l.length + 2 := by simp

theorem genJson_between {l : List UINT1} (hlen : l.length + 2 < 2 ^ 32)
    (hpos : ∀ q, q <+: l → 0 < (1 : UINT4).toNat + net brace q) :
    ∃ c : UINT4, (c.toNat : ℤ) = 1 + net brace l ∧
      ∀ s, genJson (openBrace :: (l ++ s)) = genJsonFrom s (1 + UInt32.ofNat l.length) c := by
  obtain ⟨cnt, hcnt, hscan⟩ := genJsonFrom_append (c := 1) (p := l) (by simp; omega) fun q hq _ => hpos q hq
  refine ⟨cnt, hcnt, fun s => ?_⟩
  rw [genJson_openBrace, hscan]

theorem ofNat_between (l : List UINT1) : 1 + UInt32.ofNat l.length + 1 = UInt32.ofNat (l.length + 2) := by
  rw [UInt32.ofNat_add, add_comm 1, add_assoc]
  rfl

theorem prefix_between {l q : List UINT1} (hq : q <+: openBrace :: (l ++ [closeBrace]))
    (hne : q ≠ openBrace :: (l ++ [closeBrace])) : q = [] ∨ ∃ r, q = openBrace :: r ∧ r <+: l := by
  obtain rfl | ⟨r, rfl, hr⟩ := List.prefix_cons_iff.mp hq
  · exact .inl rfl
  · rcases List.prefix_concat_iff.mp hr with rfl | hr
    · exact absurd rfl hne
    · exact .inr ⟨r, rfl, hr⟩

theorem between_proper {l q : List UINT1} (hq : q <+: l) :
    openBrace :: q <+: openBrace :: (l ++ [closeBrace]) ∧ openBrace :: q ≠ openBrace :: (l ++ [closeBrace]) := by
  refine ⟨(List.prefix_cons_inj _).mpr (hq.trans (List.prefix_append _ _)), fun heq => ?_⟩
  have hle := hq.length_le
  have hsame := congrArg List.length heq
  rw [length_between, List.length_cons] at hsame
  omega

theorem scans_of_closed {l : List UINT1} (hlen : l.length + 2 < 2 ^ 32)
    (h : Closed brace (openBrace :: (l ++ [closeBrace]))) : Scans (openBrace :: (l ++ [closeBrace])) := by
  have hpos : ∀ q, q <+: l → 0 < (1 : UINT4).toNat + net brace q := by
    intro q hq
    obtain ⟨hbegins, hproper⟩ := between_proper hq
    have := h.pos _ hbegins (List.cons_ne_nil _ _) hproper
    rwa [net_cons, brace_openBrace] at this
  constructor
  · intro s hs
    obtain ⟨cnt, hcnt, hscan⟩ := genJson_between hlen hpos
    have htotal := h.total
    rw [net_between] at htotal
    have hone : cnt.toNat = 1 := by omega
    rw [List.cons_append, List.append_assoc, hscan, List.singleton_append, genJsonFrom_close hone, ofNat_between,
      length_between]
  · intro p hp hne
    rcases prefix_between hp hne with rfl | ⟨r, rfl, hr⟩
    · rfl
    · have hle := hr.length_le
      rw [genJson_openBrace]
      refine genJsonFrom_open ?_ fun q hq _ => hpos q (hq.trans hr)
      simp only [UInt32.toNat_one]
      omega

/-- What is found lies behind the start, within the buffer, and stays found whatever follows. -/
theorem genJsonFrom_found (hi : i.toNat + buffer.length < 2 ^ 32) (h : genJsonFrom buffer i c ≠ 0) :
    i.toNat < (genJsonFrom buffer i c).toNat ∧
      (genJsonFrom buffer i c).toNat ≤ i.toNat + buffer.length ∧
      ∀ s, genJsonFrom (buffer ++ s) i c = genJsonFrom buffer i c := by
  induction buffer generalizing i c with
  | nil => exact absurd rfl h
  | cons b buffer ih =>
    rw [List.length_cons] at hi ⊢
    have hi' := toNat_add_one (n := i) (by omega)
    simp only [List.cons_append, genJsonFrom] at h ⊢
    split_ifs at h ⊢ with hopen hclose hzero
    · obtain ⟨hlt, hle, hsame⟩ := ih (i := i + 1) (by omega) h
      exact ⟨by omega, by omega, hsame⟩
    · exact ⟨by omega, by omega, fun _ => rfl⟩
    · obtain ⟨hlt, hle, hsame⟩ := ih (i := i + 1) (by omega) h
      exact ⟨by omega, by omega, hsame⟩
    · obtain ⟨hlt, hle, hsame⟩ := ih (i := i + 1) (by omega) h
      exact ⟨by omega, by omega, hsame⟩

theorem genJson_le (buffer : List UINT1) (hlen : buffer.length < 2 ^ 32) : (genJson buffer).toNat ≤ buffer.length := by
  cases buffer with
  | nil => exact Nat.zero_le _
  | cons b buffer =>
    rw [genJson]
    split_ifs with hb
    · exact Nat.zero_le _
    · by_cases hzero : genJsonFrom (b :: buffer) 0 0 = 0
      · rw [hzero]
        exact Nat.zero_le _
      · have hle := (genJsonFrom_found (by simpa using hlen) hzero).2.1
        simpa using hle

/-- An object whose end is found has its braces paired. -/
theorem closed_of_genJson {l : List UINT1} (hlen : l.length + 2 + s.length < 2 ^ 32)
    (h : genJson (openBrace :: (l ++ closeBrace :: s)) = UInt32.ofNat (l.length + 2)) :
    Closed brace (openBrace :: (l ++ [closeBrace])) := by
  have hlt : l.length + 2 < 2 ^ 32 := by omega
  have hend : (UInt32.ofNat (l.length + 2)).toNat = l.length + 2 := UInt32.toNat_ofNat_of_lt' hlt
  have hone : (1 : UINT4).toNat = 1 := rfl
  have hinside : genJsonFrom l 1 1 = 0 := by
    by_contra hfound
    obtain ⟨-, hle, hsame⟩ := genJsonFrom_found (by rw [hone]; omega) hfound
    rw [genJson_openBrace, hsame] at h
    rw [h, hend, hone] at hle
    omega
  have hpos := pos_of_genJsonFrom (by rw [hone]; omega) (by rw [hone]; omega) (by rw [hone]; omega) hinside
  refine ⟨fun p hp hnil hall => ?_, ?_⟩
  · rcases prefix_between hp hall with rfl | ⟨r, rfl, hr⟩
    · exact absurd rfl hnil
    · rw [net_cons, brace_openBrace]
      exact hpos r hr
  · obtain ⟨cnt, hcnt, hscan⟩ := genJson_between (by omega) hpos
    have hposl := hpos l List.prefix_rfl
    have hle := net_brace_le l
    rw [hone] at hposl
    rw [net_between]
    by_contra hne
    -- a brace is left open, so the end is not found where the object ends
    obtain ⟨cnt', -, hstep⟩ := genJsonFrom_cons (b := closeBrace) (c := cnt) (by omega)
      (by rw [brace_closeBrace]; omega)
    rw [hscan, hstep, ofNat_between] at h
    have hne0 : genJsonFrom s (UInt32.ofNat (l.length + 2)) cnt' ≠ 0 := by
      intro hzero
      rw [hzero] at h
      rw [← h] at hend
      simp at hend
    have hlt := (genJsonFrom_found (by rw [hend]; omega) hne0).1
    rw [h] at hlt
    exact lt_irrefl _ hlt

theorem scans_iff_closed (ho : IsObject o) (hlen : o.length < 2 ^ 32) : Scans o ↔ Closed brace o := by
  obtain ⟨l, rfl⟩ := ho.between
  rw [length_between] at hlen
  refine ⟨fun h => closed_of_genJson (s := []) hlen ?_, scans_of_closed hlen⟩
  have hwhole := h.1 [] (by rw [List.append_nil, length_between]; exact hlen)
  rwa [List.append_nil, length_between] at hwhole

/-- The first brace of a buffer that is scanned closes. -/
def FirstCloses (buffer : List UINT1) : Prop :=
  buffer.head? ≠ some 0 ∧ buffer.find? (fun b => b = openBrace ∨ b = closeBrace) = some closeBrace

theorem wrapsFrom_pos (hcnt : c.toNat + buffer.length < 2 ^ 32) (hpos : 0 < c.toNat) :
    wrapsFrom buffer c = false := by
  induction buffer generalizing c with
  | nil => rfl
  | cons b buffer ih =>
    rw [List.length_cons] at hcnt
    rw [wrapsFrom]
    split_ifs with ho hc
    · apply ih
      · rw [toNat_add_one (by omega)]
        omega
      · rw [toNat_add_one (by omega)]
        omega
    · have hne : c ≠ 0 := by
        rintro rfl
        exact absurd hpos (lt_irrefl 0)
      have hsub := toNat_sub_one hpos
      by_cases hzero : c - 1 = 0
      · simp [hne, hzero]
      · have hpos' : 0 < (c - 1).toNat := by
          rw [Nat.pos_iff_ne_zero]
          exact fun h => hzero (UInt32.toNat_inj.mp h)
        simp [hne, hzero, ih (c := c - 1) (by omega) hpos']
    · exact ih (by omega) hpos

theorem wrapsFrom_zero (hlen : buffer.length < 2 ^ 32) :
    wrapsFrom buffer 0 = true ↔ buffer.find? (fun b => b = openBrace ∨ b = closeBrace) = some closeBrace := by
  induction buffer with
  | nil => simp [wrapsFrom]
  | cons b buffer ih =>
    rw [List.length_cons] at hlen
    rw [wrapsFrom, List.find?_cons]
    by_cases ho : b = openBrace
    · rw [if_pos ho, wrapsFrom_pos (by simp; omega) (by decide)]
      simp [ho, not_openBrace_closeBrace.symm]
    · by_cases hc : b = closeBrace
      · rw [if_neg ho, if_pos hc]
        simp [hc]
      · rw [if_neg ho, if_neg hc, ih (by omega)]
        simp [ho, hc]

theorem wraps_iff (hlen : buffer.length < 2 ^ 32) : wraps buffer = true ↔ FirstCloses buffer := by
  cases buffer with
  | nil => simp [wraps, FirstCloses]
  | cons b buffer =>
    rw [wraps, FirstCloses]
    split_ifs with hzero
    · simp [hzero]
    · rw [wrapsFrom_zero hlen]
      simp [hzero]

/-- The bytes a `UINT4` can count. -/
abbrev Buffer := {buffer : List UINT1 // buffer.length < 2 ^ 32}

/-- The braces decide: those of an object have to be paired, its strings included, and the first one of a buffer must
not be a closing one. Objects without braces in their strings pair them. -/
theorem genJson_scans_iff (buffer : Buffer) :
    (IsObject buffer.1 →
      (Scans buffer.1 ↔ Closed brace buffer.1) ∧ (BraceFreeStrings buffer.1 → Closed brace buffer.1)) ∧
      (wraps buffer.1 = false ↔ ¬FirstCloses buffer.1) := by
  constructor
  · intro hobject
    exact ⟨scans_iff_closed hobject buffer.2, BraceFreeStrings.closed⟩
  · rw [← wraps_iff buffer.2, Bool.not_eq_true]

/-- `{"a":"}"}` -/
def braceInString : List UINT1 := [0x7B, 0x22, 0x61, 0x22, 0x3A, 0x22, 0x7D, 0x22, 0x7D]

theorem braceInString_isObject : IsObject braceInString := by
  have hkey : Text (fun _ => True) .string [0x22, 0x61, 0x22] := .string (l := [0x61]) (.plain (by decide) .nil) trivial
  have htext : Text (fun _ => True) .string [0x22, 0x7D, 0x22] := .string (l := [0x7D]) (.plain (by decide) .nil) trivial
  have hblank : Blank [] := List.forall_mem_nil _
  have hvalue : Text (fun _ => True) .element [0x22, 0x7D, 0x22] := .element (r := []) hblank (.ofString htext) hblank
  exact .object (.lastMember (.member (r := []) hblank hkey hblank hvalue))

theorem genJson_not_scans : ¬((∀ o : Buffer, IsObject o.1 → Scans o.1) ∧ ∀ buffer : Buffer, wraps buffer.1 = false) := by
  rintro ⟨hscans, -⟩
  have hscan := (hscans ⟨braceInString, by decide⟩ braceInString_isObject).1 [] (by decide)
  exact absurd hscan (by decide)

end COvsdbMgr

end DCFabric
