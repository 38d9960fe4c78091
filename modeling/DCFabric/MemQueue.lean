import DCFabric.BncTypes
import DCFabric.MemPool
import DCFabric.TransitionRuns

namespace DCFabric

open TransitionRuns

/-- The pool of `mem_pool.c`: the pointers to the free blocks in a ring, and for each block whether it is free. -/
structure Queue_List where
  total_len : UINT4
  usable_len : UINT4
  data : UINT8
  arr : ℤ → UINT8
  head : UINT4
  tail : UINT4
  states : ℤ → UINT1
  block : UINT2

namespace Queue_List

/-- The difference of two pointers, in 64 bits with a sign. -/
def ptrdiff (p q : UINT8) : ℤ := ((p.toNat : ℤ) - q.toNat).bmod (2 ^ 64)

/-- The quotient that is kept in an `int`. -/
def pos (q_list : Queue_List) (data : UINT8) : ℤ :=
  ((ptrdiff data q_list.data).tdiv q_list.block.toNat).bmod (2 ^ 32)

/-- Without a result where it divides by zero. -/
def Queue_In (q_list : Queue_List) (data : UINT8) : Option (INT4 × Queue_List) :=
  if data = 0 then some (-1, q_list)
  else if q_list.block = 0 then none
  else if (ptrdiff data q_list.data).tmod q_list.block.toNat ≠ 0 then some (-1, q_list)
  else if q_list.pos data < 0 ∨ (q_list.pos data).toNat ≥ q_list.total_len.toNat then some (-1, q_list)
  else if q_list.states (q_list.pos data) = 1 then some (-1, q_list)
  else some (1, { q_list with
    arr := Function.update q_list.arr q_list.tail.toNat data
    states := Function.update q_list.states (q_list.pos data) 1
    tail := (q_list.tail + 1) % q_list.total_len
    usable_len := q_list.usable_len + 1 })

/-- The pointer is `NULL`, which is 0, when there is no free block; `head` is kept in an `int`. -/
def Queue_Out (q_list : Queue_List) : Option (UINT8 × Queue_List) :=
  if q_list.usable_len > 0 then
    if q_list.block = 0 then none
    else
      let unit := q_list.arr ((q_list.head.toNat : ℤ).bmod (2 ^ 32))
      some (unit, { q_list with
        states := Function.update q_list.states (q_list.pos unit) 0
        usable_len := q_list.usable_len - 1
        head := (q_list.head + 1) % q_list.total_len })
  else some (0, q_list)

/-- The `i`-th block, where the blocks begin at `data`. -/
def unitAddr (block : UINT4) (data : UINT8) (i : ℕ) : UINT8 := data + UInt64.ofNat i * block.toUInt64

/-- `data` is what `malloc` returns for `block * len` bytes. -/
def Queue_Init (block len : UINT4) (data : UINT8) : Option Queue_List :=
  if data = 0 then none
  else (List.range len.toNat).foldlM (fun q_list i => (q_list.Queue_In (unitAddr block data i)).map Prod.snd)
    ⟨len, 0, data, fun _ => 0, 0, 0, fun _ => 0, block.toUInt16⟩

def mem_create (block len : UINT4) (data : UINT8) : Option Queue_List := Queue_Init block len data

def mem_get (pool : Queue_List) : Option (UINT8 × Queue_List) := pool.Queue_Out

def mem_free (pool : Queue_List) (data : UINT8) : Option (INT4 × Queue_List) := pool.Queue_In data

def mem_num (pool : Queue_List) : UINT4 := pool.total_len - pool.usable_len

/-- The numbers with which a pool is what it is meant to be: the width of a block fits `block`, the area is not larger
than its 32-bit size, and every number of a block fits an `int`. -/
structure Sizes (block len : UINT4) : Prop where
  block_ne : block.toUInt16 ≠ 0
  block_lt : block.toNat < 2 ^ 16 ∨ len.toNat ≤ 1
  area : block.toNat * len.toNat < 2 ^ 32
  len_le : len.toNat ≤ 2 ^ 31

/-- `malloc` returns an area of the address space. -/
structure Allocated (data : UINT8) (size : UINT4) : Prop where
  ne_null : data ≠ 0
  fits : data.toNat + size.toNat ≤ 2 ^ 64

/-- The free blocks in the order in which they go out. -/
structure Represents (block len : UINT4) (data : UINT8) (q_list : Queue_List) (free : List ℕ) : Prop where
  nodup : free.Nodup
  lt_len : ∀ i ∈ free, i < len.toNat
  total_len : q_list.total_len = len
  data_eq : q_list.data = data
  block_eq : q_list.block = block.toUInt16
  usable_len : q_list.usable_len.toNat = free.length
  head_lt : 0 < len.toNat → q_list.head.toNat < len.toNat
  tail : q_list.tail.toNat = (q_list.head.toNat + free.length) % len.toNat
  arr : ∀ j i, free[j]? = some i → q_list.arr ((q_list.head.toNat + j) % len.toNat : ℕ) = unitAddr block data i
  states : ∀ i < len.toNat, q_list.states i = if i ∈ free then 1 else 0

variable {block len : UINT4} {data p : UINT8} {q_list : Queue_List} {free : List ℕ} {i : ℕ}

theorem unitAddr_toNat (hs : Sizes block len) (hd : Allocated data (block * len)) (hi : i < len.toNat) :
    (unitAddr block data i).toNat = data.toNat + i * block.toNat := by
  have hlt : i * block.toNat + block.toNat ≤ block.toNat * len.toNat := by
    rw [← Nat.succ_mul, Nat.mul_comm]
    exact Nat.mul_le_mul_left _ hi
  have hsize : (block * len).toNat = block.toNat * len.toNat := by
    rw [UInt32.toNat_mul, Nat.mod_eq_of_lt hs.area]
  have hpos : 0 < block.toNat := by
    by_contra hzero
    have hnil : block = 0 := UInt32.toNat_inj.mp (by simpa using hzero)
    exact hs.block_ne (by rw [hnil]; rfl)
  have hfits := hd.fits
  have harea := hs.area
  have hlen := hs.len_le
  have hioff : (UInt64.ofNat i * block.toUInt64).toNat = i * block.toNat := by
    rw [UInt64.toNat_mul, UInt64.toNat_ofNat_of_lt' (by rw [UInt64.size]; omega), UInt32.toNat_toUInt64,
      Nat.mod_eq_of_lt (by omega)]
  rw [unitAddr, UInt64.toNat_add, hioff, Nat.mod_eq_of_lt (by omega)]

theorem mul_block (hs : Sizes block len) (hi : i < len.toNat) : i * block.toNat = i * block.toUInt16.toNat := by
  rcases hs.block_lt with hlt | hle
  · rw [UInt32.toNat_toUInt16, Nat.mod_eq_of_lt hlt]
  · obtain rfl : i = 0 := by omega
    rw [Nat.zero_mul, Nat.zero_mul]

theorem ptrdiff_eq_iff (hs : Sizes block len) (hd : Allocated data (block * len)) (hi : i < len.toNat) :
    ptrdiff p data = (i * block.toUInt16.toNat : ℕ) ↔ p = unitAddr block data i := by
  have haddr := unitAddr_toNat hs hd hi
  have hblock := mul_block hs hi
  have hp := p.toNat_lt
  have hdata := data.toNat_lt
  have hunit := (unitAddr block data i).toNat_lt
  have hlt : i * block.toNat < 2 ^ 32 := by
    have harea := hs.area
    have hle : i * block.toNat ≤ len.toNat * block.toNat := Nat.mul_le_mul_right _ hi.le
    rw [Nat.mul_comm len.toNat] at hle
    omega
  rw [← UInt64.toNat_inj, haddr, hblock, ptrdiff, Int.bmod_def]
  rw [hblock] at haddr hlt
  generalize i * block.toUInt16.toNat = offset at *
  split_ifs with hsmall
  · omega
  · omega

/-- The pointer lies a number of times `2 ^ 32` blocks away from a block that is taken. -/
def Aliases (q_list : Queue_List) (p : UINT8) : Prop :=
  ∃ i < q_list.total_len.toNat, q_list.states i ≠ 1 ∧
    ∃ k : ℤ, k ≠ 0 ∧ ptrdiff p q_list.data = q_list.block.toNat * (i + 2 ^ 32 * k)

theorem block_toNat_ne (hs : Sizes block len) : block.toUInt16.toNat ≠ 0 := by
  have hblock := hs.block_ne
  rwa [Ne, ← UInt16.toNat_inj] at hblock

theorem unitAddr_ne_null (hs : Sizes block len) (hd : Allocated data (block * len)) (hi : i < len.toNat) :
    unitAddr block data i ≠ 0 := by
  have haddr := unitAddr_toNat hs hd hi
  have hdata : data.toNat ≠ 0 := fun h => hd.ne_null (UInt64.toNat_inj.mp h)
  rw [Ne, ← UInt64.toNat_inj, haddr, UInt64.toNat_zero]
  omega

theorem pos_unitAddr (hs : Sizes block len) (hd : Allocated data (block * len))
    (hr : Represents block len data q_list free) (hi : i < len.toNat) :
    q_list.pos (unitAddr block data i) = i := by
  have hne : (block.toUInt16.toNat : ℤ) ≠ 0 := by exact_mod_cast block_toNat_ne hs
  have hlen := hs.len_le
  have hdiff := (ptrdiff_eq_iff hs hd hi).mpr rfl
  rw [pos, hr.data_eq, hr.block_eq, hdiff]
  push_cast
  rw [Int.mul_tdiv_cancel _ hne, Int.bmod_eq_of_le (by omega) (by omega)]

/-- A pointer that `Queue_In` looks up the state for lies at a number of blocks from `data` that is `pos` in 32 bits. -/
theorem ptrdiff_of_pos (hmod : (ptrdiff p q_list.data).tmod q_list.block.toNat = 0) :
    ∃ k : ℤ, ptrdiff p q_list.data = q_list.block.toNat * (q_list.pos p + 2 ^ 32 * k) := by
  have hdiv := Int.mul_tdiv_add_tmod (ptrdiff p q_list.data) q_list.block.toNat
  rw [hmod, add_zero] at hdiv
  obtain ⟨k, hk⟩ : ((2 ^ 32 : ℕ) : ℤ) ∣ (ptrdiff p q_list.data).tdiv q_list.block.toNat - q_list.pos p :=
    Int.dvd_self_sub_bmod
  refine ⟨k, ?_⟩
  rw [← hdiv]
  congr 1
  push_cast at hk
  omega

theorem block_pos (hs : Sizes block len) : 0 < block.toNat := by
  have hne := block_toNat_ne hs
  rw [UInt32.toNat_toUInt16] at hne
  omega

theorem unitAddr_inj {i j : ℕ} (hs : Sizes block len) (hd : Allocated data (block * len)) (hi : i < len.toNat)
    (hj : j < len.toNat) : unitAddr block data i = unitAddr block data j ↔ i = j := by
  rw [← UInt64.toNat_inj, unitAddr_toNat hs hd hi, unitAddr_toNat hs hd hj, Nat.add_left_cancel_iff,
    Nat.mul_left_inj (block_pos hs).ne']

theorem Represents.length_le (hr : Represents block len data q_list free) : free.length ≤ len.toNat := by
  have hsub : free ⊆ List.range len.toNat := fun i hi => List.mem_range.mpr (hr.lt_len i hi)
  have hle := (hr.nodup.subperm hsub).length_le
  rwa [List.length_range] at hle

theorem Represents.length_lt (hr : Represents block len data q_list free) (hi : i < len.toNat) (hfree : i ∉ free) :
    free.length < len.toNat := by
  have hnodup : (i :: free).Nodup := List.nodup_cons.mpr ⟨hfree, hr.nodup⟩
  have hsub : i :: free ⊆ List.range len.toNat := by
    intro j hj
    rcases List.mem_cons.mp hj with rfl | hj
    · exact List.mem_range.mpr hi
    · exact List.mem_range.mpr (hr.lt_len j hj)
  have hle := (hnodup.subperm hsub).length_le
  rw [List.length_range, List.length_cons] at hle
  omega

/-- An index below the length moves on without a carry. -/
theorem toNat_next (hs : Sizes block len) {index total_len : UINT4} (htotal : total_len = len)
    (hlt : index.toNat < len.toNat) : ((index + 1) % total_len).toNat = (index.toNat + 1) % len.toNat := by
  have hlen := hs.len_le
  have hone : (index + 1).toNat = index.toNat + 1 := by
    rw [UInt32.toNat_add]
    simp only [UInt32.reduceToNat]
    omega
  rw [UInt32.toNat_mod, hone, htotal]

/-- The cell at the tail is none of those of the free blocks. -/
theorem Represents.index_ne_tail (hr : Represents block len data q_list free) (hlt : free.length < len.toNat) {j : ℕ}
    (hj : j < free.length) : (q_list.head.toNat + j) % len.toNat ≠ q_list.tail.toNat := by
  rw [hr.tail]
  intro hsame
  have hmodEq : j ≡ free.length [MOD len.toNat] := Nat.ModEq.add_left_cancel' q_list.head.toNat hsame
  have heq := Nat.ModEq.eq_of_lt_of_lt hmodEq (by omega) hlt
  omega

/-- A block that is taken comes back behind the free ones. -/
theorem Represents.queue_in (hs : Sizes block len) (hd : Allocated data (block * len))
    (hr : Represents block len data q_list free) (hi : i < len.toNat) (hfree : i ∉ free) :
    ∃ q_list', q_list.Queue_In (unitAddr block data i) = some (1, q_list') ∧
      Represents block len data q_list' (free ++ [i]) := by
  have hpos := pos_unitAddr hs hd hr hi
  have hlt := hr.length_lt hi hfree
  have hlen := hs.len_le
  have hmod : (ptrdiff (unitAddr block data i) q_list.data).tmod q_list.block.toNat = 0 := by
    rw [hr.data_eq, hr.block_eq, (ptrdiff_eq_iff hs hd hi).mpr rfl]
    push_cast
    exact Int.mul_tmod_left _ _
  have hstate : ¬q_list.states (q_list.pos (unitAddr block data i)) = 1 := by
    rw [hpos, hr.states i hi, if_neg hfree]
    decide
  have htail : q_list.tail.toNat < len.toNat := by
    rw [hr.tail]
    exact Nat.mod_lt _ (by omega)
  rw [Queue_In, if_neg (unitAddr_ne_null hs hd hi), if_neg (by rw [hr.block_eq]; exact hs.block_ne),
    if_neg (not_not.mpr hmod), if_neg (by rw [hpos, hr.total_len]; omega), if_neg hstate]
  refine ⟨_, rfl, ?_⟩
  refine ⟨?_, ?_, hr.total_len, hr.data_eq, hr.block_eq, ?_, hr.head_lt, ?_, ?_, ?_⟩
  · rw [← List.concat_eq_append]
    exact hr.nodup.concat hfree
  · intro j hj
    rcases List.mem_append.mp hj with hj | hj
    · exact hr.lt_len j hj
    · rw [List.mem_singleton.mp hj]
      exact hi
  · rw [UInt32.toNat_add, hr.usable_len, List.length_append]
    simp only [UInt32.reduceToNat, List.length_singleton]
    omega
  · dsimp only
    rw [toNat_next hs hr.total_len htail, hr.tail, List.length_append, List.length_singleton, ← Nat.add_assoc]
    exact Nat.mod_add_mod _ _ _
  · intro j x hx
    dsimp only
    rcases Nat.lt_or_ge j free.length with hj | hj
    · rw [List.getElem?_append_left hj] at hx
      have hne := hr.index_ne_tail hlt hj
      rw [Function.update_of_ne (by exact_mod_cast hne)]
      exact hr.arr j x hx
    · rw [List.getElem?_append_right hj, List.getElem?_singleton] at hx
      split_ifs at hx with hzero
      obtain rfl := Option.some.inj hx
      obtain rfl : j = free.length := by omega
      rw [← hr.tail, Function.update_self]
  · intro j hj
    dsimp only
    rw [hpos]
    by_cases hji : j = i
    · subst hji
      rw [Function.update_self, if_pos (by simp)]
    · rw [Function.update_of_ne (by exact_mod_cast hji), hr.states j hj]
      simp [hji]

/-- A pointer that is no alias of a block is taken back if it is a block that is taken, and rejected otherwise. -/
theorem Represents.queue_in_cases (hs : Sizes block len) (hd : Allocated data (block * len))
    (hr : Represents block len data q_list free) (hp : ¬q_list.Aliases p) :
    (∃ i < len.toNat, i ∉ free ∧ p = unitAddr block data i ∧ ∃ q_list', q_list.Queue_In p = some (1, q_list') ∧
      Represents block len data q_list' (free ++ [i])) ∨ q_list.Queue_In p = some (-1, q_list) := by
  by_cases hunit : ∃ i < len.toNat, i ∉ free ∧ p = unitAddr block data i
  · obtain ⟨i, hi, hfree, rfl⟩ := hunit
    exact .inl ⟨i, hi, hfree, rfl, hr.queue_in hs hd hi hfree⟩
  · right
    have hblock : ¬q_list.block = 0 := by
      rw [hr.block_eq]
      exact hs.block_ne
    rw [Queue_In, if_neg hblock]
    split_ifs with hnull hmod hrange hstate
    · rfl
    · rfl
    · rfl
    · rfl
    · exfalso
      obtain ⟨k, hk⟩ := ptrdiff_of_pos (not_not.mp hmod)
      rw [hr.total_len] at hrange
      obtain ⟨i, hi⟩ : ∃ i : ℕ, q_list.pos p = i := ⟨(q_list.pos p).toNat, by omega⟩
      rw [hi] at hk hrange hstate
      have hlt : i < len.toNat := by omega
      by_cases hzero : k = 0
      · rw [hzero, mul_zero, add_zero, hr.data_eq, hr.block_eq, mul_comm] at hk
        have hsame : p = unitAddr block data i := (ptrdiff_eq_iff hs hd hlt).mp (by exact_mod_cast hk)
        refine hunit ⟨i, hlt, fun hfree => hstate ?_, hsame⟩
        rw [hr.states i hlt, if_pos hfree]
      · exact hp ⟨i, by rwa [hr.total_len], hstate, k, hzero, hk⟩

theorem Represents.queue_out_nil (hr : Represents block len data q_list []) : q_list.Queue_Out = some (0, q_list) := by
  have husable : q_list.usable_len = 0 := UInt32.toNat_inj.mp hr.usable_len
  rw [Queue_Out, if_neg (by rw [husable]; decide)]

/-- The first of the free blocks goes out. -/
theorem Represents.queue_out_cons (hs : Sizes block len) (hd : Allocated data (block * len))
    (hr : Represents block len data q_list (i :: free)) :
    ∃ q_list', q_list.Queue_Out = some (unitAddr block data i, q_list') ∧ Represents block len data q_list' free := by
  have hi := hr.lt_len i List.mem_cons_self
  have hhead := hr.head_lt (by omega)
  have hlen := hs.len_le
  have hle := hr.length_le
  have husable := hr.usable_len
  rw [List.length_cons] at husable hle
  obtain ⟨hnot, hnodup⟩ := List.nodup_cons.mp hr.nodup
  have hpositive : q_list.usable_len > 0 := UInt32.lt_iff_toNat_lt.mpr (by rw [husable, UInt32.toNat_zero]; omega)
  have hindex : (q_list.head.toNat : ℤ).bmod (2 ^ 32) = ((q_list.head.toNat + 0) % len.toNat : ℕ) := by
    rw [Int.bmod_eq_of_le (by omega) (by omega), Nat.add_zero, Nat.mod_eq_of_lt hhead]
  have hunit : q_list.arr ((q_list.head.toNat : ℤ).bmod (2 ^ 32)) = unitAddr block data i := by
    rw [hindex]
    exact hr.arr 0 i rfl
  have hpos := pos_unitAddr hs hd hr hi
  have hnext := toNat_next hs hr.total_len hhead
  rw [Queue_Out, if_pos hpositive, if_neg (by rw [hr.block_eq]; exact hs.block_ne)]
  dsimp only
  rw [hunit, hpos]
  refine ⟨_, rfl, hnodup, fun j hj => hr.lt_len j (List.mem_cons_of_mem i hj), hr.total_len, hr.data_eq, hr.block_eq, ?_,
    ?_, ?_, ?_, ?_⟩
  · dsimp only
    rw [UInt32.toNat_sub_of_le _ _ (UInt32.le_iff_toNat_le.mpr (by rw [husable]; simp)), husable]
    simp
  · intro _
    dsimp only
    rw [hnext]
    exact Nat.mod_lt _ (by omega)
  · dsimp only
    rw [hr.tail, hnext, List.length_cons, Nat.mod_add_mod, Nat.add_assoc, Nat.add_comm 1 free.length]
  · intro j x hx
    dsimp only
    rw [hnext, Nat.mod_add_mod, Nat.add_assoc, Nat.add_comm 1 j]
    exact hr.arr (j + 1) x hx
  · intro j hj
    dsimp only
    by_cases hji : j = i
    · subst hji
      rw [Function.update_self, if_neg hnot]
    · rw [Function.update_of_ne (by exact_mod_cast hji), hr.states j hj]
      simp [hji]

/-- A pool that was created has every block in its order, so it is the pool of `MemPool.mem_create`. -/
theorem represents_create (hs : Sizes block len) (hd : Allocated data (block * len)) :
    ∃ q_list, mem_create block len data = some q_list ∧
      Represents block len data q_list (MemPool.mem_create len.toNat).freeList := by
  have hloop : ∀ k ≤ len.toNat, ∃ q_list,
      (List.range k).foldlM (fun q_list i => (q_list.Queue_In (unitAddr block data i)).map Prod.snd)
        ⟨len, 0, data, fun _ => 0, 0, 0, fun _ => 0, block.toUInt16⟩ = some q_list ∧
        Represents block len data q_list (List.range k) := by
    intro k
    induction k with
    | zero =>
      intro _
      refine ⟨_, rfl, List.nodup_nil, fun i hi => absurd hi List.not_mem_nil, rfl, rfl, rfl, rfl, fun h => h, ?_, ?_, ?_⟩
      · exact (Nat.zero_mod _).symm
      · intro j i hi
        cases hi
      · exact fun i _ => rfl
    | succ k ih =>
      intro hk
      obtain ⟨q_list, hrun, hr⟩ := ih (by omega)
      obtain ⟨q_list', hin, hr'⟩ := hr.queue_in hs hd hk (by simp)
      refine ⟨q_list', ?_, ?_⟩
      · rw [List.range_succ, List.foldlM_append, hrun]
        simp [hin]
      · rw [List.range_succ]
        exact hr'
  obtain ⟨q_list, hrun, hr⟩ := hloop len.toNat le_rfl
  refine ⟨q_list, ?_, ?_⟩
  · rw [mem_create, Queue_Init, if_neg hd.ne_null, hrun]
  · rw [MemPool.freeList, MemPool.mem_create, Nat.sub_zero, ← List.range_eq_range', List.append_nil]
    exact hr

/-- The model of a pool of which only the numbers of the blocks are kept. -/
structure Simulates (block len : UINT4) (data : UINT8) (q_list : Queue_List) (pool : MemPool) : Prop where
  total_len : pool.total_len = len.toNat
  represents : Represents block len data q_list pool.freeList

variable {pool : MemPool}

theorem Simulates.mem_get (hs : Sizes block len) (hd : Allocated data (block * len))
    (h : Simulates block len data q_list pool) :
    (pool.mem_get = none ∧ q_list.mem_get = some (0, q_list)) ∨
      ∃ i pool' q_list', pool.mem_get = some (i, pool') ∧ i < len.toNat ∧
        q_list.mem_get = some (unitAddr block data i, q_list') ∧ Simulates block len data q_list' pool' := by
  cases hget : pool.mem_get with
  | none =>
    have hnil : pool.freeList = [] := List.length_eq_zero_iff.mp
      (pool.length_freeList.trans (MemPool.mem_get_eq_none.mp hget))
    have hr := h.represents
    rw [hnil] at hr
    exact .inl ⟨rfl, hr.queue_out_nil⟩
  | some v =>
    obtain ⟨i, pool'⟩ := v
    have hr := h.represents
    rw [MemPool.freeList_mem_get hget] at hr
    obtain ⟨q_list', hout, hr'⟩ := hr.queue_out_cons hs hd
    have htotal := (MemPool.mem_get_cases hget).1
    exact .inr ⟨i, pool', q_list', rfl, hr.lt_len i List.mem_cons_self, hout, htotal.trans h.total_len, hr'⟩

theorem Simulates.mem_free (hs : Sizes block len) (hd : Allocated data (block * len))
    (h : Simulates block len data q_list pool) (hp : ¬q_list.Aliases p) :
    (∃ i < len.toNat, pool.InUse i ∧ p = unitAddr block data i ∧ ∃ q_list', q_list.mem_free p = some (1, q_list') ∧
      Simulates block len data q_list' (pool.mem_free i)) ∨ q_list.mem_free p = some (-1, q_list) := by
  rcases h.represents.queue_in_cases hs hd hp with ⟨i, hi, hfree, hunit, q_list', hin, hr⟩ | hrejected
  · have hused : pool.InUse i := by
      rw [MemPool.mem_freeList (by rw [h.total_len]; exact hi)] at hfree
      exact not_not.mp hfree
    refine .inl ⟨i, hi, hused, hunit, q_list', hin, ?_, ?_⟩
    · rw [MemPool.total_len_mem_free, h.total_len]
    · rw [MemPool.freeList_mem_free hused]
      exact hr
  · exact .inr hrejected

end Queue_List

/-- A pool, with the blocks that are handed out. -/
structure PoolState where
  pool : Queue_List
  out : List UINT8

inductive PoolEvent where
  | get
  | free (data : UINT8)

namespace PoolState

open Queue_List

def step (s : PoolState) : PoolEvent → Option PoolState
  | .get => s.pool.mem_get.map fun (unit, pool) => ⟨pool, if unit = 0 then s.out else unit :: s.out⟩
  | .free data => (s.pool.mem_free data).map fun (ret, pool) => ⟨pool, if ret = 1 then s.out.erase data else s.out⟩

/-- No pointer is given back that the 32 bits of `pos` make a block of. -/
def Unaliased (s : PoolState) : PoolEvent → Prop
  | .get => True
  | .free data => ¬s.pool.Aliases data

/-- The blocks that are handed out lie in the area, none over another, and `mem_num` is their number. -/
structure Sound (block len : UINT4) (data : UINT8) (s : PoolState) : Prop where
  inside : ∀ unit ∈ s.out, data.toNat ≤ unit.toNat ∧ unit.toNat + block.toNat ≤ data.toNat + (block * len).toNat
  disjoint : s.out.Pairwise fun u v => u.toNat + block.toNat ≤ v.toNat ∨ v.toNat + block.toNat ≤ u.toNat
  num : (mem_num s.pool).toNat = s.out.length

/-- What goes out is not out yet, what comes back is, and a call that is rejected changes nothing. -/
def Serves (s : PoolState) : PoolEvent → Prop
  | .get => ∃ unit pool, s.pool.mem_get = some (unit, pool) ∧ unit ∉ s.out
  | .free data => ∃ ret pool, s.pool.mem_free data = some (ret, pool) ∧
      if ret = 1 then data ∈ s.out else pool = s.pool

/-- The blocks that are handed out are those of a pool that the memory holds. -/
def Inv (block len : UINT4) (data : UINT8) (s : PoolState) : Prop :=
  ∃ pool l, Simulates block len data s.pool pool ∧ pool.Owns l ∧ s.out = l.map (unitAddr block data)

variable {block len : UINT4} {data : UINT8} {s s' : PoolState} {e : PoolEvent}

theorem owned_lt {pool : Queue_List} {p : MemPool} {l : List ℕ} (hsim : Simulates block len data pool p)
    (howns : p.Owns l) {i : ℕ} (hi : i ∈ l) : i < len.toNat := by
  have hused := ((howns.inUse i).mpr hi).1
  have hle := p.head_le
  rw [hsim.total_len] at hle
  omega

theorem Inv.sound (hs : Sizes block len) (hd : Allocated data (block * len)) (h : s.Inv block len data) :
    s.Sound block len data := by
  obtain ⟨p, l, hsim, howns, hout⟩ := h
  refine ⟨?_, ?_, ?_⟩
  · intro unit hunit
    rw [hout] at hunit
    obtain ⟨i, hi, rfl⟩ := List.mem_map.mp hunit
    have hlt := owned_lt hsim howns hi
    have hle : i * block.toNat + block.toNat ≤ block.toNat * len.toNat := by
      rw [← Nat.succ_mul, Nat.mul_comm]
      exact Nat.mul_le_mul_left _ hlt
    rw [unitAddr_toNat hs hd hlt, UInt32.toNat_mul, Nat.mod_eq_of_lt hs.area]
    omega
  · rw [hout, List.pairwise_map]
    refine howns.nodup.imp_of_mem fun {i j} hi hj hne => ?_
    rw [unitAddr_toNat hs hd (owned_lt hsim howns hi), unitAddr_toNat hs hd (owned_lt hsim howns hj)]
    rcases Nat.lt_or_gt_of_ne hne with hlt | hlt
    · left
      have hle : i * block.toNat + block.toNat ≤ j * block.toNat := by
        rw [← Nat.succ_mul]
        exact Nat.mul_le_mul_right _ hlt
      omega
    · right
      have hle : j * block.toNat + block.toNat ≤ i * block.toNat := by
        rw [← Nat.succ_mul]
        exact Nat.mul_le_mul_right _ hlt
      omega
  · have hnum := howns.length_add_usable_len
    have husable := hsim.represents.usable_len
    rw [p.length_freeList] at husable
    rw [hsim.total_len] at hnum
    have hle : s.pool.usable_len ≤ s.pool.total_len :=
      UInt32.le_iff_toNat_le.mpr (by rw [husable, hsim.represents.total_len]; omega)
    rw [mem_num, UInt32.toNat_sub_of_le _ _ hle, husable, hsim.represents.total_len, hout, List.length_map]
    omega

theorem Inv.serves (hs : Sizes block len) (hd : Allocated data (block * len)) (h : s.Inv block len data)
    (he : s.Unaliased e) : s.Serves e := by
  obtain ⟨p, l, hsim, howns, hout⟩ := h
  cases e with
  | get =>
    rcases hsim.mem_get hs hd with ⟨-, hget⟩ | ⟨i, p', pool, hmem, hi, hget, -⟩
    · refine ⟨0, s.pool, hget, fun hmem => ?_⟩
      rw [hout] at hmem
      obtain ⟨j, hj, hnull⟩ := List.mem_map.mp hmem
      exact unitAddr_ne_null hs hd (owned_lt hsim howns hj) hnull
    · refine ⟨_, pool, hget, fun hmem' => ?_⟩
      rw [hout] at hmem'
      obtain ⟨j, hj, hsame⟩ := List.mem_map.mp hmem'
      obtain rfl := (unitAddr_inj hs hd (owned_lt hsim howns hj) hi).mp hsame
      exact MemPool.mem_get_fresh hmem ((howns.inUse j).mpr hj)
  | free d =>
    rcases hsim.mem_free hs hd he with ⟨i, hi, hused, rfl, pool, hfree, -⟩ | hfree
    · refine ⟨1, pool, hfree, ?_⟩
      rw [if_pos rfl, hout]
      exact List.mem_map.mpr ⟨i, (howns.inUse i).mp hused, rfl⟩
    · refine ⟨-1, s.pool, hfree, ?_⟩
      rw [if_neg (by decide)]

theorem Inv.step (hs : Sizes block len) (hd : Allocated data (block * len)) (h : s.Inv block len data)
    (he : s.Unaliased e) (hstep : s.step e = some s') : s'.Inv block len data := by
  obtain ⟨p, l, hsim, howns, hout⟩ := h
  cases e with
  | get =>
    rcases hsim.mem_get hs hd with ⟨-, hget⟩ | ⟨i, p', pool, hmem, hi, hget, hsim'⟩
    · rw [PoolState.step, hget] at hstep
      obtain rfl := Option.some.inj hstep
      refine ⟨p, l, hsim, howns, ?_⟩
      dsimp only
      rw [if_pos rfl, hout]
    · rw [PoolState.step, hget] at hstep
      obtain rfl := Option.some.inj hstep
      refine ⟨p', i :: l, hsim', howns.get hmem, ?_⟩
      dsimp only
      rw [if_neg (unitAddr_ne_null hs hd hi), hout, List.map_cons]
  | free d =>
    rcases hsim.mem_free hs hd he with ⟨i, hi, hused, rfl, pool, hfree, hsim'⟩ | hfree
    · rw [PoolState.step, hfree] at hstep
      obtain rfl := Option.some.inj hstep
      obtain ⟨l₁, l₂, rfl, hnot⟩ := List.eq_append_cons_of_mem ((howns.inUse i).mp hused)
      refine ⟨p.mem_free i, l₁ ++ l₂, hsim', (howns.perm List.perm_middle).free, ?_⟩
      have hfirst : unitAddr block data i ∉ l₁.map (unitAddr block data) := by
        intro hmem
        obtain ⟨j, hj, hsame⟩ := List.mem_map.mp hmem
        have hlt := owned_lt hsim howns (List.mem_append_left _ hj)
        rw [(unitAddr_inj hs hd hlt hi).mp hsame] at hj
        exact hnot hj
      dsimp only
      rw [if_pos rfl, hout, List.map_append, List.map_cons, List.erase_append_right _ hfirst, List.erase_cons_head,
        List.map_append]
    · rw [PoolState.step, hfree] at hstep
      obtain rfl := Option.some.inj hstep
      refine ⟨p, l, hsim, howns, ?_⟩
      dsimp only
      rw [if_neg (by decide), hout]

end PoolState

end DCFabric
