import DCFabric.CBitset
import DCFabric.TransitionRuns

namespace DCFabric

open TransitionRuns

def invalid_tag : UINT4 := 0

structure CTagMgr where
  m_start : UINT4
  m_end : UINT4
  m_bitset : CBitset

namespace CTagMgr

def init : CTagMgr :=
  let start := 100
  let last := 4096
  { m_start := start, m_end := last, m_bitset := CBitset.ofLength (last - start + 1) }

def alloc (m : CTagMgr) : UINT4 × CTagMgr :=
  if !m.m_bitset.all then
    let pos := m.m_bitset.get
    if invalid_pos ≠ pos then (m.m_start + pos, { m with m_bitset := m.m_bitset.set pos })
    else (invalid_tag, m)
  else (invalid_tag, m)

def release (m : CTagMgr) (tag : UINT4) : CTagMgr :=
  if tag < m.m_start || tag > m.m_end then m
  else { m with m_bitset := m.m_bitset.reset (tag - m.m_start) }

inductive Call
  | alloc
  | release (tag : UINT4)

/-- A tag manager with the tags returned by `alloc` that have not been released since. -/
structure Use where
  mgr : CTagMgr
  held : Finset UINT4

def Use.call (u : Use) : Call → Use
  | .alloc =>
    let (tag, mgr) := u.mgr.alloc
    { mgr := mgr, held := if tag = invalid_tag then u.held else insert tag u.held }
  | .release tag => { mgr := u.mgr.release tag, held := u.held.erase tag }

def Use.start : Use := { mgr := init, held := ∅ }

def step (u : Use) (c : Call) : Option Use := some (u.call c)

def InRange (tag : UINT4) : Prop := 100 ≤ tag ∧ tag ≤ 4096

structure Holds (u : Use) (s : Finset ℕ) : Prop where
  bitset : u.mgr.m_bitset.Represents s
  start : u.mgr.m_start = 100
  last : u.mgr.m_end = 4096
  length : u.mgr.m_bitset.m_length = 3997
  held : ∀ tag, tag ∈ u.held ↔ InRange tag ∧ (tag - 100).toNat ∈ s

variable {u : Use} {s : Finset ℕ} {tag : UINT4}

theorem InRange.sub_toNat (h : InRange tag) : (tag - 100).toNat + 100 = tag.toNat := by
  have hle : (100 : UINT4).toNat ≤ tag.toNat := h.1
  rw [UInt32.toNat_sub_of_le _ _ h.1]
  exact Nat.sub_add_cancel hle

theorem InRange.sub_lt (h : InRange tag) : (tag - 100).toNat < 3997 := by
  have hle : tag.toNat ≤ 4096 := h.2
  have hsub := h.sub_toNat
  omega

theorem add_toNat {pos : UINT4} (h : pos.toNat < 3997) : (100 + pos).toNat = 100 + pos.toNat := by
  rw [UInt32.toNat_add]
  exact Nat.mod_eq_of_lt (by change 100 + pos.toNat < _; omega)

theorem inRange_add {pos : UINT4} (h : pos.toNat < 3997) : InRange (100 + pos) := by
  constructor
  · rw [UInt32.le_iff_toNat_le, add_toNat h]
    exact Nat.le_add_right _ _
  · rw [UInt32.le_iff_toNat_le, add_toNat h]
    change 100 + pos.toNat ≤ 4096
    omega

theorem start_holds : Holds Use.start ∅ := by
  constructor
  · exact CBitset.ofLength_represents (by decide) (by decide)
  · rfl
  · rfl
  · rfl
  · simp [Use.start]

theorem Holds.alloc_full (h : Holds u s) (hs : s = Finset.range 3997) : u.mgr.alloc = (invalid_tag, u.mgr) := by
  have hall : u.mgr.m_bitset.all = true := by
    rw [h.bitset.all_iff, h.length]
    exact hs
  simp [alloc, hall]

theorem Holds.alloc_free (h : Holds u s) (hs : s ≠ Finset.range 3997) :
    ∃ pos : UINT4, pos.toNat < 3997 ∧ pos.toNat ∉ s ∧
      u.mgr.alloc = (100 + pos, { u.mgr with m_bitset := u.mgr.m_bitset.set pos }) := by
  have hlength : u.mgr.m_bitset.m_length.toNat = 3997 := by
    rw [h.length]
    rfl
  have hall : u.mgr.m_bitset.all = false := by
    rw [← Bool.not_eq_true, h.bitset.all_iff, hlength]
    exact hs
  have hfree : ∃ k, k < 3997 ∧ k ∉ s := by
    by_contra hnone
    push Not at hnone
    apply hs
    apply Finset.Subset.antisymm
    · simpa [hlength] using h.bitset.subset
    · intro k hk
      exact hnone k (Finset.mem_range.mp hk)
  obtain ⟨k, hk, hks⟩ := hfree
  obtain ⟨hlt, hns⟩ := h.bitset.get_of_exists (hk.trans_eq hlength.symm) hks
  have hlt' : u.mgr.m_bitset.get.toNat < 3997 := hlength ▸ hlt
  have hvalid : invalid_pos ≠ u.mgr.m_bitset.get := by
    intro heq
    rw [← heq] at hlt'
    exact absurd hlt' (by decide)
  refine ⟨u.mgr.m_bitset.get, hlt', hns, ?_⟩
  simp [alloc, hall, hvalid, h.start]

theorem inRange_ne_invalid (h : InRange tag) : tag ≠ invalid_tag := by
  rintro rfl
  exact absurd h.1 (by decide)

theorem Holds.alloc (h : Holds u s) : ∃ s', Holds (u.call .alloc) s' := by
  by_cases hs : s = Finset.range 3997
  · refine ⟨s, ?_⟩
    simpa [Use.call, h.alloc_full hs] using h
  · obtain ⟨pos, hlt, hns, halloc⟩ := h.alloc_free hs
    have hrange := inRange_add hlt
    have hlen : pos < u.mgr.m_bitset.m_length := by
      rw [h.length]
      exact hlt
    refine ⟨insert pos.toNat s, ?_⟩
    simp only [Use.call, halloc, if_neg (inRange_ne_invalid hrange)]
    constructor
    · exact h.bitset.set hlen hns
    · exact h.start
    · exact h.last
    · have hset : (u.mgr.m_bitset.set pos).m_length = u.mgr.m_bitset.m_length := by
        unfold CBitset.set
        split <;> rfl
      exact hset.trans h.length
    · intro tag
      have hback (ht : InRange tag) : (tag - 100).toNat = pos.toNat ↔ tag = 100 + pos := by
        have hsub := ht.sub_toNat
        rw [← UInt32.toNat_inj, add_toNat hlt]
        omega
      rw [Finset.mem_insert, Finset.mem_insert, h.held]
      constructor
      · rintro (rfl | ⟨ht, hmem⟩)
        · exact ⟨hrange, Or.inl ((hback hrange).mpr rfl)⟩
        · exact ⟨ht, Or.inr hmem⟩
      · rintro ⟨ht, hpos | hmem⟩
        · exact Or.inl ((hback ht).mp hpos)
        · exact Or.inr ⟨ht, hmem⟩

theorem Holds.release (h : Holds u s) (tag : UINT4) : ∃ s', Holds (u.call (.release tag)) s' := by
  by_cases hr : InRange tag
  · have hin : u.mgr.release tag = { u.mgr with m_bitset := u.mgr.m_bitset.reset (tag - 100) } := by
      have h1 : ¬ tag < 100 := UInt32.not_lt.mpr hr.1
      have h2 : ¬ tag > 4096 := UInt32.not_lt.mpr hr.2
      simp [CTagMgr.release, h.start, h.last, h1, h2]
    refine ⟨s.erase (tag - 100).toNat, ?_⟩
    simp only [Use.call, hin]
    constructor
    · exact h.bitset.reset (tag - 100)
    · exact h.start
    · exact h.last
    · have hreset : (u.mgr.m_bitset.reset (tag - 100)).m_length = u.mgr.m_bitset.m_length := by
        unfold CBitset.reset
        split <;> rfl
      exact hreset.trans h.length
    · intro tag'
      have hne (ht : InRange tag') : (tag' - 100).toNat ≠ (tag - 100).toNat ↔ tag' ≠ tag := by
        have hsub := ht.sub_toNat
        have hsub' := hr.sub_toNat
        rw [ne_eq, ne_eq, ← UInt32.toNat_inj (a := tag')]
        omega
      rw [Finset.mem_erase, Finset.mem_erase, h.held]
      constructor
      · rintro ⟨htag, ht, hmem⟩
        exact ⟨ht, (hne ht).mpr htag, hmem⟩
      · rintro ⟨ht, htag, hmem⟩
        exact ⟨(hne ht).mp htag, ht, hmem⟩
  · have hout : u.mgr.release tag = u.mgr := by
      have hcond : tag < 100 ∨ tag > 4096 := by
        by_contra hc
        rw [not_or] at hc
        exact hr ⟨UInt32.not_lt.mp hc.1, UInt32.not_lt.mp hc.2⟩
      simp [CTagMgr.release, h.start, h.last, hcond]
    have hheld : u.held.erase tag = u.held := by
      apply Finset.erase_eq_of_notMem
      rw [h.held]
      exact fun hm => hr hm.1
    refine ⟨s, ?_⟩
    simpa only [Use.call, hout, hheld] using h

theorem reaches_holds (h : Reaches step Use.start u) : ∃ s, Holds u s := by
  apply h.invariant (P := fun u => ∃ s, Holds u s) _ ⟨∅, start_holds⟩
  rintro t (_ | tag) u ⟨s, hs⟩ - he
  · obtain rfl : t.call .alloc = u := by simpa only [step, Option.some.injEq] using he
    exact hs.alloc
  · obtain rfl : t.call (.release tag) = u := by simpa only [step, Option.some.injEq] using he
    exact hs.release tag

theorem Holds.full_iff (h : Holds u s) : s = Finset.range 3997 ↔ ∀ tag, InRange tag → tag ∈ u.held := by
  constructor
  · rintro rfl tag ht
    rw [h.held]
    exact ⟨ht, Finset.mem_range.mpr ht.sub_lt⟩
  · intro hall
    have hlength : u.mgr.m_bitset.m_length.toNat = 3997 := by
      rw [h.length]
      rfl
    apply Finset.Subset.antisymm
    · simpa [hlength] using h.bitset.subset
    · intro k hk
      have hlt : k < 3997 := Finset.mem_range.mp hk
      have hpos : (UInt32.ofNat k).toNat = k := by
        rw [UInt32.toNat_ofNat']
        exact Nat.mod_eq_of_lt (by omega)
      have hmem := ((h.held _).mp (hall _ (inRange_add (hpos.symm ▸ hlt)))).2
      simpa [hpos] using hmem

theorem Holds.alloc_eq_invalid (h : Holds u s) : u.mgr.alloc.1 = invalid_tag ↔ s = Finset.range 3997 := by
  constructor
  · intro hinvalid
    by_contra hfull
    obtain ⟨pos, hlt, -, halloc⟩ := h.alloc_free hfull
    rw [halloc] at hinvalid
    exact inRange_ne_invalid (inRange_add hlt) hinvalid
  · intro hfull
    rw [h.alloc_full hfull]

theorem Holds.alloc_fresh (h : Holds u s) (hne : u.mgr.alloc.1 ≠ invalid_tag) :
    u.mgr.alloc.1 ∉ u.held ∧ InRange u.mgr.alloc.1 := by
  have hfull : s ≠ Finset.range 3997 := fun hfull => hne (h.alloc_eq_invalid.mpr hfull)
  obtain ⟨pos, hlt, hns, halloc⟩ := h.alloc_free hfull
  rw [halloc, h.held]
  refine ⟨?_, inRange_add hlt⟩
  rintro ⟨-, hmem⟩
  apply hns
  simpa using hmem

theorem alloc_returns_free_tag (h : Reaches step Use.start u) :
    (u.mgr.alloc.1 ≠ invalid_tag → u.mgr.alloc.1 ∉ u.held ∧ InRange u.mgr.alloc.1) ∧
      (u.mgr.alloc.1 = invalid_tag ↔ ∀ tag, InRange tag → tag ∈ u.held) ∧
      u.mgr.m_bitset.m_numSet.toNat = u.mgr.m_bitset.numBitsSet := by
  obtain ⟨s, hs⟩ := reaches_holds h
  have hcount : u.mgr.m_bitset.m_numSet.toNat = u.mgr.m_bitset.numBitsSet := by
    rw [hs.bitset.numBitsSet_eq, hs.bitset.count]
  exact ⟨hs.alloc_fresh, hs.alloc_eq_invalid.trans hs.full_iff, hcount⟩

/-- Two tags are taken, the first is given back, and two releases name tags that were never taken. -/
theorem released_tags_reused :
    let u := ((((Use.start.call .alloc).call .alloc).call (.release 100)).call (.release 200)).call (.release 7)
    (u.mgr.alloc.1 ≠ invalid_tag → u.mgr.alloc.1 ∉ u.held ∧ InRange u.mgr.alloc.1) ∧
      (u.mgr.alloc.1 = invalid_tag ↔ ∀ tag, InRange tag → tag ∈ u.held) ∧
      u.mgr.m_bitset.m_numSet.toNat = u.mgr.m_bitset.numBitsSet := by
  apply alloc_returns_free_tag
  have h1 : Reaches step Use.start (Use.start.call .alloc) := Run.refl.tail trivial rfl
  have h2 := h1.tail trivial (show step _ .alloc = some _ from rfl)
  have h3 := h2.tail trivial (show step _ (.release 100) = some _ from rfl)
  have h4 := h3.tail trivial (show step _ (.release 200) = some _ from rfl)
  exact h4.tail trivial (show step _ (.release 7) = some _ from rfl)

end CTagMgr

end DCFabric
