import DCFabric.BncTypes

namespace DCFabric

def invalid_pos : UINT4 := 0xFFFFFFFF

def U32_COUNT (u32 : UINT4) : UINT4 := (u32 + 31) / 32
def U32_QUOTIENT (u32 : UINT4) : UINT4 := u32 / 32
def U32_REMAINDER (u32 : UINT4) : UINT4 := u32 % 32
def U32_MASK (u32 : UINT4) : UINT4 := 0x80000000 >>> U32_REMAINDER u32

structure CBitset where
  m_length : UINT4
  m_numSet : UINT4
  m_next : UINT4
  m_data : List UINT4

namespace CBitset

def ofLength (len : UINT4) : CBitset :=
  let data := List.replicate (U32_COUNT len).toNat 0
  { m_length := len, m_numSet := 0, m_next := 0,
    m_data :=
      if U32_REMAINDER len ≠ 0 then
        data.modify (U32_QUOTIENT len).toNat (· &&& ((1 <<< (32 - U32_REMAINDER len)) - 1))
      else data }

def bit (b : CBitset) (pos : UINT4) : Bool :=
  (b.m_data.getD (U32_QUOTIENT pos).toNat 0 &&& U32_MASK pos) != 0

def test (b : CBitset) (pos : UINT4) : Bool := pos < b.m_length && b.bit pos

-- one of the two loops of `get`: the first clear position from `pos` on, below `bound`
def firstClear (b : CBitset) (pos bound : UINT4) : Option UINT4 :=
  if pos < bound then
    if !b.test pos then some pos else firstClear b (pos + 1) bound
  else none
termination_by bound.toNat - pos.toNat
decreasing_by
  have hp : pos.toNat < bound.toNat := by assumption
  have hb := bound.toNat_lt
  rw [UInt32.toNat_add, UInt32.toNat_one, Nat.mod_eq_of_lt (by omega)]
  omega

def get (b : CBitset) : UINT4 :=
  match b.firstClear b.m_next b.m_length with
  | some pos => pos
  | none =>
    match b.firstClear 0 b.m_next with
    | some pos => pos
    | none => invalid_pos

def set (b : CBitset) (pos : UINT4) : CBitset :=
  if pos < b.m_length && !b.test pos then
    { b with
      m_data := b.m_data.modify (U32_QUOTIENT pos).toNat (· ||| U32_MASK pos)
      m_numSet := b.m_numSet + 1
      m_next := (pos + 1) % b.m_length }
  else b

def reset (b : CBitset) (pos : UINT4) : CBitset :=
  if pos < b.m_length && b.test pos then
    { b with
      m_data := b.m_data.modify (U32_QUOTIENT pos).toNat (· &&& ~~~ U32_MASK pos)
      m_numSet := b.m_numSet - 1 }
  else b

def all (b : CBitset) : Bool := b.m_numSet ≥ b.m_length

end CBitset

theorem mask_eq_twoPow (pos : UINT4) :
    (U32_MASK pos).toBitVec = BitVec.twoPow 32 (31 - pos.toNat % 32) := by
  have table : ∀ r : Fin 32, (0x80000000#32 >>> r.val) = BitVec.twoPow 32 (31 - r.val) := by decide
  have hr : pos.toNat % 32 < 32 := Nat.mod_lt _ (by omega)
  have ht := table ⟨pos.toNat % 32, hr⟩
  simpa [U32_MASK, U32_REMAINDER, UInt32.toBitVec_shiftRight, BitVec.toNat_umod] using ht

theorem mask_getLsbD (pos : UINT4) (k : ℕ) :
    (U32_MASK pos).toBitVec.getLsbD (31 - k % 32) = decide (pos.toNat % 32 = k % 32) := by
  rw [mask_eq_twoPow, BitVec.getLsbD_twoPow]
  simp only [Bool.and_eq_decide, decide_eq_true_eq, decide_eq_decide]
  omega

theorem and_mask_ne_zero (w pos : UINT4) :
    ((w &&& U32_MASK pos) != 0) = w.toBitVec.getLsbD (31 - pos.toNat % 32) := by
  have nonzero : BitVec.twoPow 32 (31 - pos.toNat % 32) ≠ 0#32 := by
    intro zero
    have selected := congrArg (fun bits => bits.getLsbD (31 - pos.toNat % 32)) zero
    simp [BitVec.getLsbD_twoPow] at selected
    omega
  have hz : (w &&& U32_MASK pos = 0) ↔ (w.toBitVec &&& (U32_MASK pos).toBitVec = 0#32) := by
    rw [← UInt32.toBitVec_inj]
    simp
  rw [mask_eq_twoPow, BitVec.and_twoPow] at hz
  cases hb : w.toBitVec.getLsbD (31 - pos.toNat % 32) <;> simp [hb, nonzero] at hz <;> simp [hz]

def storedBit (data : List UINT4) (k : ℕ) : Bool :=
  (data.getD (k / 32) 0).toBitVec.getLsbD (31 - k % 32)

theorem storedBit_replicate (n k : ℕ) : storedBit (List.replicate n 0) k = false := by
  simp [storedBit, List.getD_eq_getElem?_getD, List.getElem?_replicate]
  split <;> simp

theorem storedBit_of_length_le {data : List UINT4} {k : ℕ} (hk : data.length ≤ k / 32) :
    storedBit data k = false := by
  simp [storedBit, List.getD_eq_getElem?_getD, List.getElem?_eq_none hk]

theorem storedBit_modify {data : List UINT4} {pos : UINT4} {f : UINT4 → UINT4} {g : Bool → Bool}
    (hp : pos.toNat / 32 < data.length)
    (hf : ∀ w k, (f w).toBitVec.getLsbD (31 - k % 32) =
      if pos.toNat % 32 = k % 32 then g (w.toBitVec.getLsbD (31 - k % 32)) else w.toBitVec.getLsbD (31 - k % 32))
    (k : ℕ) :
    storedBit (data.modify (U32_QUOTIENT pos).toNat f) k =
      if pos.toNat = k then g (storedBit data k) else storedBit data k := by
  have hq : (U32_QUOTIENT pos).toNat = pos.toNat / 32 := by
    simp [U32_QUOTIENT]
  have heq : pos.toNat = k ↔ pos.toNat / 32 = k / 32 ∧ pos.toNat % 32 = k % 32 := by omega
  rcases Nat.lt_or_ge (k / 32) data.length with hk | hk
  · unfold storedBit
    rw [hq, List.getD_eq_getElem?_getD, List.getD_eq_getElem?_getD, List.getElem?_modify,
      List.getElem?_eq_getElem hk]
    by_cases hw : pos.toNat / 32 = k / 32
    · simp [hw, heq, hf]
    · simp [hw, heq]
  · have hne : pos.toNat ≠ k := by
      rintro rfl
      omega
    rw [if_neg hne, storedBit_of_length_le hk, storedBit_of_length_le (by simpa using hk)]

namespace CBitset

theorem bit_eq_storedBit (b : CBitset) (pos : UINT4) : b.bit pos = storedBit b.m_data pos.toNat := by
  rw [bit, and_mask_ne_zero, storedBit]
  simp [U32_QUOTIENT]

theorem test_eq_storedBit (b : CBitset) (pos : UINT4) :
    b.test pos = (decide (pos < b.m_length) && storedBit b.m_data pos.toNat) := by
  rw [test, bit_eq_storedBit]

/-- The bit set holds the positions `s`: they are the bits stored in the whole array (its last word
included) and the cached count is their number. -/
structure Represents (b : CBitset) (s : Finset ℕ) : Prop where
  bits : ∀ k, storedBit b.m_data k = decide (k ∈ s)
  below : ∀ k ∈ s, k < b.m_length.toNat
  count : b.m_numSet.toNat = s.card
  next : b.m_next < b.m_length
  room : b.m_length.toNat ≤ 32 * b.m_data.length

variable {b : CBitset} {s : Finset ℕ} {pos : UINT4}

theorem Represents.subset (h : Represents b s) : s ⊆ Finset.range b.m_length.toNat := by
  intro k hk
  exact Finset.mem_range.mpr (h.below k hk)

theorem Represents.card_le (h : Represents b s) : s.card ≤ b.m_length.toNat := by
  simpa using Finset.card_le_card h.subset

theorem Represents.test_eq (h : Represents b s) : b.test pos = decide (pos.toNat ∈ s) := by
  rw [test_eq_storedBit, h.bits, ← Bool.decide_and, decide_eq_decide]
  constructor
  · rintro ⟨-, hp⟩
    exact hp
  · intro hp
    exact ⟨h.below _ hp, hp⟩

theorem ofLength_represents {len : UINT4} (hpos : 0 < len) (hlen : len.toNat + 31 < 2 ^ 32) :
    Represents (ofLength len) ∅ := by
  have hcount : (U32_COUNT len).toNat = (len.toNat + 31) / 32 := by
    have hm : (len.toNat + 31) % 4294967296 = len.toNat + 31 := Nat.mod_eq_of_lt hlen
    rw [U32_COUNT, UInt32.toNat_div, UInt32.toNat_add]
    simp [hm]
  have hdata : (ofLength len).m_data = List.replicate (U32_COUNT len).toNat 0 := by
    simp only [ofLength]
    split
    · apply List.ext_getElem?
      intro i
      simp only [List.getElem?_modify, List.getElem?_replicate]
      split <;> split <;> simp
    · rfl
  constructor
  · intro k
    rw [hdata, storedBit_replicate]
    simp
  · simp
  · simp [ofLength]
  · exact hpos
  · rw [hdata, List.length_replicate, hcount]
    simp only [ofLength]
    omega

theorem Represents.word_lt (h : Represents b s) (hlen : pos < b.m_length) : pos.toNat / 32 < b.m_data.length := by
  have hlt : pos.toNat < b.m_length.toNat := hlen
  have hroom := h.room
  omega

theorem Represents.set (h : Represents b s) (hlen : pos < b.m_length) (hs : pos.toNat ∉ s) :
    Represents (b.set pos) (insert pos.toNat s) := by
  have hlt : pos.toNat < b.m_length.toNat := hlen
  have hbound := b.m_length.toNat_lt
  have htest : b.test pos = false := by simp [h.test_eq, hs]
  have hset : b.set pos = { b with
      m_data := b.m_data.modify (U32_QUOTIENT pos).toNat (· ||| U32_MASK pos)
      m_numSet := b.m_numSet + 1
      m_next := (pos + 1) % b.m_length } := by
    simp [CBitset.set, hlen, htest]
  have hsub : insert pos.toNat s ⊆ Finset.range b.m_length.toNat := by
    apply Finset.insert_subset _ h.subset
    exact Finset.mem_range.mpr hlt
  have hcard : s.card + 1 ≤ b.m_length.toNat := by
    rw [← Finset.card_insert_of_notMem hs]
    simpa using Finset.card_le_card hsub
  rw [hset]
  constructor
  · intro k
    rw [storedBit_modify (g := fun _ => true) (h.word_lt hlen), h.bits]
    · by_cases hpk : pos.toNat = k
      · simp [hpk]
      · simp [hpk, Ne.symm hpk]
    · intro w k
      rw [UInt32.toBitVec_or, BitVec.getLsbD_or, mask_getLsbD]
      split <;> simp [*]
  · intro k hk
    exact Finset.mem_range.mp (hsub hk)
  · simp only [UInt32.toNat_add, UInt32.toNat_one, h.count]
    rw [Finset.card_insert_of_notMem hs, Nat.mod_eq_of_lt (by omega)]
  · change ((pos + 1) % b.m_length).toNat < b.m_length.toNat
    rw [UInt32.toNat_mod]
    exact Nat.mod_lt _ (by omega)
  · simpa using h.room

theorem Represents.reset (h : Represents b s) (pos : UINT4) : Represents (b.reset pos) (s.erase pos.toNat) := by
  by_cases hs : pos.toNat ∈ s
  · have hlen : pos < b.m_length := h.below _ hs
    have hreset : b.reset pos = { b with
        m_data := b.m_data.modify (U32_QUOTIENT pos).toNat (· &&& ~~~ U32_MASK pos)
        m_numSet := b.m_numSet - 1 } := by
      simp [CBitset.reset, hlen, h.test_eq, hs]
    have hcard : s.card ≠ 0 := Finset.card_ne_zero_of_mem hs
    rw [hreset]
    constructor
    · intro k
      rw [storedBit_modify (g := fun _ => false) (h.word_lt hlen), h.bits]
      · by_cases hpk : pos.toNat = k
        · simp [hpk]
        · simp [hpk, Ne.symm hpk]
      · intro w k
        have hlt : 31 - k % 32 < 32 := by omega
        rw [UInt32.toBitVec_and, BitVec.getLsbD_and, UInt32.toBitVec_not, BitVec.getLsbD_not, mask_getLsbD]
        split <;> simp [*]
    · intro k hk
      exact h.below k (Finset.mem_of_mem_erase hk)
    · have hcount := h.count
      have hone : (1 : UINT4) ≤ b.m_numSet := by
        rw [UInt32.le_iff_toNat_le, UInt32.toNat_one]
        omega
      rw [UInt32.toNat_sub_of_le _ _ hone, UInt32.toNat_one, hcount, Finset.card_erase_of_mem hs]
    · exact h.next
    · simpa using h.room
  · have hreset : b.reset pos = b := by
      simp [CBitset.reset, h.test_eq, hs]
    rw [hreset, Finset.erase_eq_of_notMem hs]
    exact h

theorem firstClear_some {bound p : UINT4} (h : b.firstClear pos bound = some p) : p < bound ∧ b.test p = false := by
  fun_induction firstClear b pos bound with
  | case1 pos hlt htest =>
    obtain rfl : pos = p := by simpa only [Option.some.injEq] using h
    exact ⟨hlt, by simpa using htest⟩
  | case2 pos hlt htest ih => exact ih h
  | case3 pos hlt => cases h

theorem firstClear_none {bound : UINT4} (h : b.firstClear pos bound = none) {p : UINT4} (hp : pos ≤ p)
    (hb : p < bound) : b.test p = true := by
  fun_induction firstClear b pos bound with
  | case1 pos hlt htest => cases h
  | case2 pos hlt htest ih =>
    rcases Nat.eq_or_lt_of_le hp with heq | hlt'
    · obtain rfl : pos = p := UInt32.toNat_inj.mp heq
      simpa using htest
    · apply ih h
      have hlt'' : pos.toNat < p.toNat := hlt'
      have hbound := p.toNat_lt
      rw [UInt32.le_iff_toNat_le, UInt32.toNat_add, UInt32.toNat_one, Nat.mod_eq_of_lt (by omega)]
      omega
  | case3 pos hlt => exact absurd (UInt32.lt_of_le_of_lt hp hb) hlt

theorem Represents.get_of_exists (h : Represents b s) {p : ℕ} (hp : p < b.m_length.toNat) (hs : p ∉ s) :
    b.get < b.m_length ∧ b.get.toNat ∉ s := by
  have found {q : UINT4} (ht : b.test q = false) : q.toNat ∉ s := by
    simpa [h.test_eq] using ht
  have hbound := b.m_length.toNat_lt
  have hofNat : (UInt32.ofNat p).toNat = p := by
    rw [UInt32.toNat_ofNat']
    exact Nat.mod_eq_of_lt (by omega)
  have hclear : b.test (UInt32.ofNat p) = false := by
    simp [h.test_eq, hofNat, hs]
  unfold get
  cases hupper : b.firstClear b.m_next b.m_length with
  | some q =>
    obtain ⟨hq, ht⟩ := firstClear_some hupper
    exact ⟨hq, found ht⟩
  | none =>
    cases hlower : b.firstClear 0 b.m_next with
    | some q =>
      obtain ⟨hq, ht⟩ := firstClear_some hlower
      exact ⟨UInt32.lt_trans hq h.next, found ht⟩
    | none =>
      exfalso
      have hlt : UInt32.ofNat p < b.m_length := by
        rw [UInt32.lt_iff_toNat_lt, hofNat]
        exact hp
      by_cases hle : b.m_next ≤ UInt32.ofNat p
      · simp [firstClear_none hupper hle hlt] at hclear
      · simp [firstClear_none hlower UInt32.zero_le (UInt32.not_le.mp hle)] at hclear

theorem Represents.all_iff (h : Represents b s) : b.all = true ↔ s = Finset.range b.m_length.toNat := by
  have hcard := h.card_le
  unfold all
  rw [decide_eq_true_eq, ge_iff_le, UInt32.le_iff_toNat_le, h.count]
  constructor
  · intro hle
    apply Finset.eq_of_subset_of_card_le h.subset
    simpa using hle
  · rintro rfl
    simp

/-- The number of set bits of the whole array, the unused ones of its last word included. -/
def numBitsSet (b : CBitset) : ℕ := ((Finset.range (32 * b.m_data.length)).filter (storedBit b.m_data ·)).card

theorem Represents.numBitsSet_eq (h : Represents b s) : b.numBitsSet = s.card := by
  unfold numBitsSet
  congr 1
  ext k
  have hroom := h.room
  simp only [h.bits, Finset.mem_filter, Finset.mem_range, decide_eq_true_eq]
  constructor
  · rintro ⟨-, hk⟩
    exact hk
  · intro hk
    have hlt := h.below k hk
    exact ⟨by omega, hk⟩

end CBitset

end DCFabric
