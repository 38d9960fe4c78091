import DCFabric.ClusterSyncRequests

namespace DCFabric

open TlvStreams

namespace CBitset

/-- The `len` that `serialize` returns. -/
def serializeLen (b : CBitset) : UINT2 := 4 + 4 + 4 + (4 * U32_COUNT b.m_length).toUInt16

/-- What `recover` reads. -/
def recoverAccesses (m : Memory) (data len : ℕ) : List Access :=
  .read data 4 :: if syncSize (loadU32 m data) > len then [] else [.read data (syncSize (loadU32 m data))]

/-- The count is the number of bits that are set, the next position is one of the bit set, and the array has a bit for
each of them. -/
structure Sound (b : CBitset) : Prop where
  count : b.m_numSet.toNat = ((Finset.range b.m_length.toNat).filter (storedBit b.m_data ·)).card
  next : b.m_next < b.m_length
  room : b.m_length.toNat ≤ 32 * b.m_data.length

/-- A bit of the words behind the three of the header. -/
def syncBit (m : Memory) (data k : ℕ) : Bool :=
  (loadU32 m (data + 12 + 4 * (k / 32))).toBitVec.getLsbD (31 - k % 32)

/-- The header fits the words behind it. -/
structure Consistent (m : Memory) (data : ℕ) : Prop where
  length : (loadU32 m data).toNat + 31 < 2 ^ 32
  count : (loadU32 m (data + 4)).toNat = ((Finset.range (loadU32 m data).toNat).filter (syncBit m data ·)).card
  next : loadU32 m (data + 8) < loadU32 m data

/-- The bit sets that a run of the program comes to. -/
inductive Reachable : CBitset → Prop
  | ofLength (len : UINT4) : Reachable (ofLength len)
  | set {b : CBitset} (pos : UINT4) (h : Reachable b) : Reachable (b.set pos)
  | reset {b : CBitset} (pos : UINT4) (h : Reachable b) : Reachable (b.reset pos)
  | recover {b : CBitset} (m : Memory) (data len : ℕ) (h : Reachable b) : Reachable (b.recover m data len)

variable {b b' : CBitset} {m : Memory} {data len addr k n : ℕ} {w : UINT4} {words : List UINT4}

theorem room_iff (len : UINT4) : len.toNat ≤ 32 * (U32_COUNT len).toNat ↔ len.toNat + 31 < 2 ^ 32 := by
  have hlt := len.toNat_lt
  have hcount : (U32_COUNT len).toNat = (len.toNat + 31) % 2 ^ 32 / 32 := by
    rw [U32_COUNT, UInt32.toNat_div, UInt32.toNat_add]
    rfl
  rw [hcount]
  omega

theorem recoverAccesses_iff : (∀ a ∈ recoverAccesses m data len, a.Safe data (data + len)) ↔ 4 ≤ len := by
  rw [recoverAccesses, List.forall_mem_cons, Access.safe_read]
  constructor
  · rintro ⟨h, -⟩
    omega
  · intro h
    refine ⟨by omega, fun a ha => ?_⟩
    split_ifs at ha with hsize
    · cases ha
    · rw [List.mem_singleton] at ha
      rw [ha, Access.safe_read]
      omega

theorem storedBit_range (f : ℕ → UINT4) (hk : k < 32 * n) :
    storedBit ((List.range n).map f) k = (f (k / 32)).toBitVec.getLsbD (31 - k % 32) := by
  have hlt : k / 32 < n := by omega
  rw [storedBit, List.getD_eq_getElem?_getD, List.getElem?_map, List.getElem?_range hlt]
  rfl

/-- The words behind the header. -/
def syncWords (m : Memory) (data : ℕ) : List UINT4 :=
  (List.range (U32_COUNT (loadU32 m data)).toNat).map fun i => loadU32 m (data + 12 + 4 * i)

theorem length_syncWords : (syncWords m data).length = (U32_COUNT (loadU32 m data)).toNat := by
  rw [syncWords, List.length_map, List.length_range]

theorem recover_of_le (h : ¬syncSize (loadU32 m data) > len) : b.recover m data len =
    ⟨loadU32 m data, loadU32 m (data + 4), loadU32 m (data + 8), syncWords m data⟩ :=
  if_neg h

theorem filter_syncWords (hroom : (loadU32 m data).toNat ≤ 32 * (U32_COUNT (loadU32 m data)).toNat) :
    (Finset.range (loadU32 m data).toNat).filter (storedBit (syncWords m data) ·) =
      (Finset.range (loadU32 m data).toNat).filter (syncBit m data ·) := by
  apply Finset.filter_congr
  intro k hk
  rw [syncWords, storedBit_range _ ((Finset.mem_range.mp hk).trans_le hroom), syncBit]

/-- What is taken over is sound if and only if the header fits. -/
theorem recover_sound (h : ¬syncSize (loadU32 m data) > len) : Sound (b.recover m data len) ↔ Consistent m data := by
  rw [recover_of_le h]
  constructor
  · rintro ⟨hcount, hnext, hroom⟩
    dsimp only at hcount hroom
    rw [length_syncWords] at hroom
    rw [filter_syncWords hroom] at hcount
    exact ⟨(room_iff _).mp hroom, hcount, hnext⟩
  · rintro ⟨hlen, hcount, hnext⟩
    have hroom := (room_iff _).mpr hlen
    refine ⟨?_, hnext, ?_⟩
    · dsimp only
      rw [filter_syncWords hroom]
      exact hcount
    · dsimp only
      rw [length_syncWords]
      exact hroom

theorem loadU32_of_stores (h : Stores m addr (leBytes 4 w.toNat)) : loadU32 m addr = w := by
  have hload : load m addr 4 = leBytes 4 w.toNat := h
  rw [loadU32, hload, leNat_leBytes w.toNat_lt, UInt32.ofNat_toNat]

theorem words_of_stores (h : Stores m addr (words.flatMap fun word => leBytes 4 word.toNat)) :
    (List.range words.length).map (fun i => loadU32 m (addr + 4 * i)) = words := by
  induction words generalizing addr with
  | nil => rfl
  | cons w words ih =>
    rw [List.flatMap_cons, Stores.append_iff, length_leBytes] at h
    rw [List.length_cons, List.range_succ_eq_map, List.map_cons, List.map_map, Nat.mul_zero, add_zero,
      loadU32_of_stores h.1]
    congr 1
    refine (List.map_congr_left fun i _ => ?_).trans (ih h.2)
    rw [Function.comp_apply, Nat.succ_eq_add_one]
    congr 1
    omega

theorem Reachable.length_data (h : Reachable b) : b.m_data.length = (U32_COUNT b.m_length).toNat := by
  induction h with
  | ofLength len =>
    simp only [CBitset.ofLength]
    split_ifs
    · rw [List.length_modify, List.length_replicate]
    · rw [List.length_replicate]
  | set pos h ih =>
    simp only [CBitset.set]
    split_ifs
    · rw [List.length_modify, ih]
    · exact ih
  | reset pos h ih =>
    simp only [CBitset.reset]
    split_ifs
    · rw [List.length_modify, ih]
    · exact ih
  | recover m data len h ih =>
    simp only [CBitset.recover]
    split_ifs
    · exact ih
    · rw [List.length_map, List.length_range]

theorem recover_serialize (hdata : b.m_data.length = (U32_COUNT b.m_length).toNat) (hs : Stores m data b.serialize)
    (hlen : syncSize b.m_length ≤ len) : b'.recover m data len = b := by
  rw [serialize, Stores.append_iff, Stores.append_iff, Stores.append_iff] at hs
  obtain ⟨⟨⟨hlength, hnumSet⟩, hnext⟩, hwords⟩ := hs
  have hlength : loadU32 m data = b.m_length := loadU32_of_stores hlength
  have hnumSet : loadU32 m (data + 4) = b.m_numSet := loadU32_of_stores hnumSet
  have hnext : loadU32 m (data + 8) = b.m_next := loadU32_of_stores hnext
  have hwords : syncWords m data = b.m_data := by
    rw [List.take_of_length_le hdata.le] at hwords
    rw [syncWords, hlength, ← hdata]
    exact words_of_stores hwords
  rw [recover_of_le (by rw [hlength]; omega), hlength, hnumSet, hnext, hwords]

theorem serializeLen_toNat (b : CBitset) : (serializeLen b).toNat = syncSize b.m_length % 2 ^ 16 := by
  have hcount : (U32_COUNT b.m_length).toNat < 2 ^ 27 := by
    rw [U32_COUNT, UInt32.toNat_div]
    have hsum := (b.m_length + 31).toNat_lt
    simp only [UInt32.reduceToNat]
    omega
  rw [serializeLen, syncSize, UInt16.toNat_add, UInt32.toNat_toUInt16, UInt32.toNat_mul]
  simp only [UInt16.reduceAdd, UInt16.reduceToNat, UInt32.reduceToNat]
  omega

/-- A bit set goes over to another one if and only if its bytes are no more than a 16-bit length can tell. -/
theorem recovers_iff (h : Reachable b) :
    (∀ (b' : CBitset) (m : Memory) (data : ℕ), Stores m data b.serialize →
      b'.recover m data (serializeLen b).toNat = b) ↔ syncSize b.m_length < 2 ^ 16 := by
  constructor
  · intro hall
    by_contra hlarge
    have hone : syncSize (CBitset.ofLength 1).m_length < 2 ^ 16 := by decide
    have hs : Stores (memoryOf b.serialize) 0 b.serialize := stores_memoryOf
    have hlength : loadU32 (memoryOf b.serialize) 0 = b.m_length := by
      rw [serialize, Stores.append_iff, Stores.append_iff, Stores.append_iff] at hs
      exact loadU32_of_stores hs.1.1.1
    have hkept : (CBitset.ofLength 1).recover (memoryOf b.serialize) 0 (serializeLen b).toNat = CBitset.ofLength 1 := by
      apply if_pos
      rw [hlength, serializeLen_toNat]
      exact (Nat.mod_lt _ (by decide)).trans_le (not_lt.mp hlarge)
    have hsame := (hall (CBitset.ofLength 1) (memoryOf b.serialize) 0 stores_memoryOf).symm.trans hkept
    rw [hsame] at hlarge
    exact hlarge hone
  · intro hlt b' m data hs
    exact recover_serialize h.length_data hs (by rw [serializeLen_toNat, Nat.mod_eq_of_lt hlt])

/-- A length that wraps when it is rounded up, so that no word is asked for behind the header. -/
def wrappedHeader : List UINT1 := [255, 255, 255, 255, 5, 0, 0, 0, 7, 0, 0, 0]

theorem ofLength_one_sound : Sound (CBitset.ofLength 1) := ⟨by decide, by decide, by decide⟩

end CBitset

end DCFabric
