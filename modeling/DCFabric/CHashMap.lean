import DCFabric.BncTypes
import DCFabric.KeyCalls
import DCFabric.ListUpdates

namespace DCFabric

open KeyCalls

def hashUint32 (key : UINT4) : UINT4 :=
  let hash := key
  let hash := hash + ~~~(hash <<< 15)
  let hash := hash ^^^ (hash >>> 10)
  let hash := hash + (hash <<< 3)
  let hash := hash ^^^ (hash >>> 6)
  let hash := hash + ~~~(hash <<< 11)
  hash ^^^ (hash >>> 16)

abbrev CBucket (K D : Type) := AList fun _ : K => D

/-- Without a bucket a map has no hash function either, so that every bucket a call asks for is there. -/
structure CHashMap (K D : Type) where
  m_bucketNum : UINT4
  m_buckets : List (CBucket K D)
  m_count : UINT4
  m_hashFunc : Option (K → UINT4)
  sized : m_buckets.length = m_bucketNum.toNat
  hashed : m_hashFunc ≠ none → 0 < m_bucketNum

namespace CHashMap

section

variable {K D : Type}

/-- The constructors: without a hash function the one without arguments, which makes no bucket. -/
def ofHash (bucketNum : UINT4) (hashFunc : Option (K → UINT4)) (hashed : hashFunc ≠ none → 0 < bucketNum) :
    CHashMap K D where
  m_bucketNum := bucketNum
  m_buckets := List.replicate bucketNum.toNat ∅
  m_count := 0
  m_hashFunc := hashFunc
  sized := List.length_replicate
  hashed := hashed

def bucketNo (m : CHashMap K D) (hashFunc : K → UINT4) (key : K) : ℕ :=
  (hashFunc key &&& (m.m_bucketNum - 1)).toNat

def bucketAt (m : CHashMap K D) (no : ℕ) : CBucket K D := m.m_buckets.getD no ∅

def setBucket (m : CHashMap K D) (no : ℕ) (bucket : CBucket K D) (count : UINT4) : CHashMap K D :=
  { m with
    m_buckets := m.m_buckets.set no bucket
    m_count := count
    sized := by rw [List.length_set, m.sized] }

variable [DecidableEq K]

/-- The data that the result points to, and the map. `std::map::insert` leaves data that is there already. -/
def insert (m : CHashMap K D) (key : K) (data : D) : Option D × CHashMap K D :=
  match m.m_hashFunc with
  | none => (none, m)
  | some hashFunc =>
    let bucket := m.bucketAt (m.bucketNo hashFunc key)
    if key ∈ bucket then (none, m)
    else (some data, m.setBucket (m.bucketNo hashFunc key) (AList.insert key data bucket) (m.m_count + 1))

def remove (m : CHashMap K D) (key : K) : CHashMap K D :=
  match m.m_hashFunc with
  | none => m
  | some hashFunc =>
    let bucket := m.bucketAt (m.bucketNo hashFunc key)
    -- the count falls whether or not the key was there
    m.setBucket (m.bucketNo hashFunc key) (bucket.erase key) (m.m_count - 1)

def pop (m : CHashMap K D) (key : K) : Option D × CHashMap K D :=
  match m.m_hashFunc with
  | none => (none, m)
  | some hashFunc =>
    let bucket := m.bucketAt (m.bucketNo hashFunc key)
    match bucket.lookup key with
    | none => (none, m)
    | some data => (some data, m.setBucket (m.bucketNo hashFunc key) (bucket.erase key) (m.m_count - 1))

def find (m : CHashMap K D) (key : K) : Option D :=
  m.m_hashFunc.bind fun hashFunc => (m.bucketAt (m.bucketNo hashFunc key)).lookup key

def clear (m : CHashMap K D) : CHashMap K D :=
  { m with
    m_buckets := m.m_buckets.map fun _ => ∅
    m_count := 0
    sized := by rw [List.length_map, m.sized] }

def call (m : CHashMap K D) : Call K D → CHashMap K D
  | .insert key data => (m.insert key data).2
  | .remove key => m.remove key
  | .find _ => m
  | .clear => m.clear

def run (m : CHashMap K D) (calls : List (Call K D)) : CHashMap K D := calls.foldl call m

/-- The number of entries over all buckets. -/
def entries (m : CHashMap K D) : ℕ := (m.m_buckets.map fun bucket => bucket.keys.length).sum

end

section

variable {K D : Type} {m : CHashMap K D} {hashFunc : K → UINT4} {key : K} {bucket : CBucket K D} {count : UINT4} {no : ℕ}

/-- The mask need not be one less than a power of two for the bucket to be inside the vector. -/
theorem bucketNo_lt (key : K) (hm : m.m_hashFunc = some hashFunc) : m.bucketNo hashFunc key < m.m_buckets.length := by
  have hpos := UInt32.lt_iff_toNat_lt.mp (m.hashed (by simp [hm]))
  rw [UInt32.toNat_zero] at hpos
  have hpred : (m.m_bucketNum - 1).toNat = m.m_bucketNum.toNat - 1 := by
    apply UInt32.toNat_sub_of_le
    exact UInt32.le_iff_toNat_le.mpr hpos
  have hle : m.bucketNo hashFunc key ≤ (m.m_bucketNum - 1).toNat := by
    rw [bucketNo, UInt32.toNat_and]
    exact Nat.and_le_right
  rw [m.sized]
  omega

theorem bucketAt_setBucket (hno : no < m.m_buckets.length) (i : ℕ) :
    (m.setBucket no bucket count).bucketAt i = if i = no then bucket else m.bucketAt i := by
  rw [bucketAt, setBucket, List.getD_eq_getElem?_getD, List.getElem?_set]
  split_ifs with hsame hother hother
  · rfl
  · exact absurd hsame.symm hother
  · exact absurd hother.symm hsame
  · rfl

theorem entries_setBucket (bucket : CBucket K D) (count : UINT4) (hno : no < m.m_buckets.length) :
    (m.setBucket no bucket count).entries + (m.bucketAt no).keys.length = m.entries + bucket.keys.length :=
  ListUpdates.sum_map_set hno

end

section

variable {K D : Type} [DecidableEq K] {m : CHashMap K D} {h : History K D} {hashFunc : K → UINT4} {key : K} {data : D}
  {bucket : CBucket K D} {count : UINT4}

theorem find_eq (hm : m.m_hashFunc = some hashFunc) :
    m.find key = (m.bucketAt (m.bucketNo hashFunc key)).lookup key := by
  rw [find, hm, Option.bind_some]

theorem mem_bucketAt_iff (hm : m.m_hashFunc = some hashFunc) :
    key ∈ m.bucketAt (m.bucketNo hashFunc key) ↔ m.find key ≠ none := by
  rw [find_eq hm, ← AList.lookup_isSome, Option.isSome_iff_ne_none]

/-- A bucket that differs from the one in its place in one key at most. -/
theorem find_setBucket (hm : m.m_hashFunc = some hashFunc)
    (hbucket : ∀ other ≠ key, bucket.lookup other = (m.bucketAt (m.bucketNo hashFunc key)).lookup other) :
    (m.setBucket (m.bucketNo hashFunc key) bucket count).find = Function.update m.find key (bucket.lookup key) := by
  funext other
  have hset : (m.setBucket (m.bucketNo hashFunc key) bucket count).m_hashFunc = some hashFunc := hm
  have hno : (m.setBucket (m.bucketNo hashFunc key) bucket count).bucketNo hashFunc other = m.bucketNo hashFunc other :=
    rfl
  rw [find_eq hset, hno, bucketAt_setBucket (bucketNo_lt key hm)]
  rcases eq_or_ne other key with rfl | hne
  · rw [if_pos rfl, Function.update_self]
  · rw [Function.update_of_ne hne, find_eq hm]
    split_ifs with hsame
    · rw [hbucket other hne, hsame]
    · rfl

/-- What a map with a hash function keeps of the calls: of each key the data inserted first, and a count that the
removals of absent keys make too small. -/
structure Keeps (m : CHashMap K D) (h : History K D) : Prop where
  find_eq : m.find = h.first
  entries_eq : m.entries = h.held.card
  count_eq : m.m_count.toNat + h.missed ≡ h.held.card [MOD 2 ^ 32]

theorem Keeps.mem_bucket_iff (hk : Keeps m h) (key : K) (hm : m.m_hashFunc = some hashFunc) :
    key ∈ m.bucketAt (m.bucketNo hashFunc key) ↔ key ∈ h.held := by
  rw [mem_bucketAt_iff hm, hk.find_eq, History.mem_held]

theorem keeps_of_replicate (hbuckets : m.m_buckets = List.replicate m.m_buckets.length ∅) (hcount : m.m_count = 0) :
    Keeps m .empty where
  find_eq := by
    have hempty (i : ℕ) : m.bucketAt i = ∅ := by
      rw [bucketAt, hbuckets, List.getD_eq_getElem?_getD]
      exact List.getElem?_getD_replicate_default_eq _ _ _
    funext key
    cases hm : m.m_hashFunc with
    | none => rw [find, hm]; rfl
    | some hashFunc => rw [CHashMap.find_eq hm, hempty]; rfl
  entries_eq := by
    rw [entries, hbuckets]
    simp [History.empty]
  count_eq := by
    rw [hcount]
    exact Nat.ModEq.refl 0

theorem keeps_ofHash {bucketNum : UINT4} {hashFunc : Option (K → UINT4)} {hashed : hashFunc ≠ none → 0 < bucketNum} :
    Keeps (ofHash bucketNum hashFunc hashed) (.empty : History K D) :=
  keeps_of_replicate (by rw [ofHash, List.length_replicate]) rfl

theorem keeps_clear (m : CHashMap K D) : Keeps m.clear .empty :=
  keeps_of_replicate (by simp [clear]) rfl

theorem insert_eq (hm : m.m_hashFunc = some hashFunc) : m.insert key data =
    if key ∈ m.bucketAt (m.bucketNo hashFunc key) then (none, m)
    else (some data, m.setBucket (m.bucketNo hashFunc key)
      (AList.insert key data (m.bucketAt (m.bucketNo hashFunc key))) (m.m_count + 1)) := by
  rw [insert, hm]

theorem Keeps.insert (hk : Keeps m h) (hm : m.m_hashFunc = some hashFunc) :
    Keeps (m.insert key data).2 (h.insert key data) := by
  have hmem := hk.mem_bucket_iff key hm
  rw [insert_eq hm]
  by_cases hheld : key ∈ h.held
  · rw [if_pos (hmem.mpr hheld)]
    refine ⟨?_, ?_, ?_⟩
    · rw [hk.find_eq, History.first_insert_of_held hheld]
    · rw [hk.entries_eq, History.held_insert, Finset.insert_eq_of_mem hheld]
    · rw [History.held_insert, Finset.insert_eq_of_mem hheld, History.missed_insert]
      exact hk.count_eq
  · have habsent := mt hmem.mp hheld
    rw [if_neg habsent]
    refine ⟨?_, ?_, ?_⟩
    · rw [find_setBucket hm fun other hne => AList.lookup_insert_ne hne, AList.lookup_insert, hk.find_eq,
        History.first_insert_of_absent hheld]
    · have hentries := entries_setBucket (AList.insert key data (m.bucketAt (m.bucketNo hashFunc key)))
        (m.m_count + 1) (bucketNo_lt key hm)
      rw [AList.keys_insert, List.length_cons, List.erase_of_not_mem habsent, hk.entries_eq] at hentries
      rw [History.held_insert, Finset.card_insert_of_notMem hheld]
      dsimp only
      omega
    · have hcount := hk.count_eq
      have hnext : (m.m_count + 1).toNat ≡ m.m_count.toNat + 1 [MOD 2 ^ 32] := by
        rw [UInt32.toNat_add, UInt32.toNat_one]
        exact Nat.mod_modEq _ _
      rw [History.held_insert, Finset.card_insert_of_notMem hheld, History.missed_insert]
      calc (m.m_count + 1).toNat + h.missed ≡ m.m_count.toNat + 1 + h.missed [MOD 2 ^ 32] := hnext.add_right _
        _ = m.m_count.toNat + h.missed + 1 := by omega
        _ ≡ h.held.card + 1 [MOD 2 ^ 32] := hcount.add_right 1

theorem remove_eq (hm : m.m_hashFunc = some hashFunc) : m.remove key =
    m.setBucket (m.bucketNo hashFunc key) ((m.bucketAt (m.bucketNo hashFunc key)).erase key) (m.m_count - 1) := by
  rw [remove, hm]

/-- The count falls by one even where no entry goes. -/
theorem Keeps.remove (hk : Keeps m h) (hm : m.m_hashFunc = some hashFunc) : Keeps (m.remove key) (h.remove key) := by
  have hmem := hk.mem_bucket_iff key hm
  have hentries := entries_setBucket ((m.bucketAt (m.bucketNo hashFunc key)).erase key) (m.m_count - 1)
    (bucketNo_lt key hm)
  have hprev : (m.m_count - 1).toNat + 1 ≡ m.m_count.toNat [MOD 2 ^ 32] := by
    rw [Nat.ModEq, UInt32.toNat_sub, UInt32.toNat_one]
    omega
  rw [AList.keys_erase, hk.entries_eq] at hentries
  rw [remove_eq hm]
  refine ⟨?_, ?_, ?_⟩
  · rw [find_setBucket hm fun other hne => AList.lookup_erase_ne hne, AList.lookup_erase, hk.find_eq,
      History.first_remove]
  · rw [History.held_remove]
    by_cases hheld : key ∈ h.held
    · have hkey := hmem.mpr hheld
      have hpos := List.length_pos_of_mem (AList.mem_keys.mp hkey)
      rw [List.length_erase_of_mem (AList.mem_keys.mp hkey)] at hentries
      rw [Finset.card_erase_of_mem hheld]
      omega
    · rw [List.erase_of_not_mem (mt hmem.mp hheld)] at hentries
      rw [Finset.erase_eq_of_notMem hheld]
      omega
  · exact History.count_remove hk.count_eq hprev

theorem Keeps.pop (hk : Keeps m h) (hm : m.m_hashFunc = some hashFunc) : (m.pop key).1 = h.first key ∧
    Keeps (m.pop key).2 (if key ∈ h.held then h.remove key else h) := by
  have hlookup : (m.bucketAt (m.bucketNo hashFunc key)).lookup key = h.first key := by
    rw [← CHashMap.find_eq hm, hk.find_eq]
  have hpop : m.pop key = match h.first key with
      | none => (none, m)
      | some data => (some data, m.remove key) := by
    rw [CHashMap.pop, hm, remove_eq hm, ← hlookup]
  rw [hpop]
  cases hfirst : h.first key with
  | none =>
    rw [if_neg (mt History.mem_held.mp (not_not.mpr hfirst))]
    exact ⟨rfl, hk⟩
  | some data =>
    rw [if_pos (History.mem_held.mpr (by simp [hfirst]))]
    exact ⟨rfl, hk.remove hm⟩

theorem Keeps.call (hk : Keeps m h) (hm : m.m_hashFunc = some hashFunc) (c : Call K D) : Keeps (m.call c) (h.step c) := by
  cases c with
  | insert key data => exact hk.insert hm
  | remove key => exact hk.remove hm
  | find key => exact hk
  | clear => exact keeps_clear m

theorem m_hashFunc_call (m : CHashMap K D) (c : Call K D) : (m.call c).m_hashFunc = m.m_hashFunc := by
  cases c with
  | insert key data =>
    rw [call, CHashMap.insert]
    split
    · rfl
    · dsimp only
      split_ifs <;> rfl
  | remove key =>
    rw [call, CHashMap.remove]
    split <;> rfl
  | find key => rfl
  | clear => rfl

theorem Keeps.run (hk : Keeps m h) (hm : m.m_hashFunc = some hashFunc) (calls : List (Call K D)) :
    Keeps (m.run calls) (calls.foldl History.step h) := by
  induction calls generalizing m h with
  | nil => exact hk
  | cons c calls ih => exact ih (hk.call hm c) ((m_hashFunc_call m c).trans hm)

/-- Without a hash function no call does anything but `clear`, which finds nothing to do. -/
theorem run_of_no_hash (hm : m.m_hashFunc = none) (hempty : Keeps m .empty) (calls : List (Call K D)) :
    Keeps (m.run calls) .empty ∧ (m.run calls).m_hashFunc = none := by
  induction calls generalizing m with
  | nil => exact ⟨hempty, hm⟩
  | cons c calls ih =>
    apply ih ((m_hashFunc_call m c).trans hm)
    cases c with
    | insert key data => rwa [call, CHashMap.insert, hm]
    | remove key => rwa [call, CHashMap.remove, hm]
    | find key => exact hempty
    | clear => exact keeps_clear m

/-- The count is the number of entries, and each key is found with the data it was last inserted with. -/
def Accurate (m : CHashMap K D) (calls : List (Call K D)) : Prop :=
  m.m_count.toNat = m.entries ∧ ∀ key, m.find key = (History.of calls).last key

theorem Keeps.counted_iff (hk : Keeps m h) : m.m_count.toNat = m.entries ↔ h.held.card < 2 ^ 32 ∧ 2 ^ 32 ∣ h.missed := by
  have hcount := hk.count_eq
  have hlt := m.m_count.toNat_lt
  rw [Nat.ModEq] at hcount
  rw [hk.entries_eq]
  omega

/-- The map is accurate when no removal since the last `clear` was of an absent key (or a multiple of 2³² of them were),
it holds no more keys than the count can take, and no key was last inserted, while it was held, with other data. -/
theorem calls_accurate_iff (bucketNum : UINT4) (hashFunc : Option (K → UINT4))
    (hashed : hashFunc ≠ none → 0 < bucketNum) (calls : List (Call K D)) :
    Accurate ((ofHash bucketNum hashFunc hashed).run calls) calls ↔
      if hashFunc = none then ∀ key, (History.of calls).last key = none
      else (History.of calls).held.card < 2 ^ 32 ∧ 2 ^ 32 ∣ (History.of calls).missed ∧
        ∀ key, (History.of calls).last key = (History.of calls).first key := by
  have hinit : Keeps (ofHash bucketNum hashFunc hashed) (.empty : History K D) := keeps_ofHash
  rcases hashFunc with - | hashFunc
  · obtain ⟨hk, -⟩ := run_of_no_hash rfl hinit calls
    have hcounted := hk.counted_iff.mpr ⟨by simp [History.empty], by simp [History.empty]⟩
    rw [if_pos rfl, Accurate, hk.find_eq]
    constructor
    · rintro ⟨-, hfound⟩ key
      exact (hfound key).symm
    · intro hnone
      exact ⟨hcounted, fun key => (hnone key).symm⟩
  · have hk : Keeps _ (History.of calls) := hinit.run rfl calls
    rw [if_neg (by simp), Accurate, hk.counted_iff, hk.find_eq, and_assoc]
    simp only [eq_comm]

theorem inserted_and_removed_accurate :
    Accurate ((ofHash 16 (some hashUint32) fun _ => by decide).run [.insert 7 1, .insert 23 2, .remove 7])
      [.insert (7 : UINT4) (1 : UINT4), .insert 23 2, .remove 7] := by
  apply (calls_accurate_iff 16 (some hashUint32) (fun _ => by decide) _).mpr
  rw [if_neg (by simp)]
  refine ⟨by decide, by decide, ?_⟩
  intro key
  simp only [History.of, List.foldl_cons, List.foldl_nil, History.step, History.insert, History.remove, History.empty]
  simp [Function.update_apply]

/-- The removal of a key that is not there, and a second insertion of one that is. -/
theorem remove_absent_miscounted :
    ¬Accurate ((ofHash 1 (some hashUint32) fun _ => by decide).run [.remove 7])
        [(.remove 7 : Call UINT4 UINT4)] ∧
      ¬Accurate ((ofHash 1 (some hashUint32) fun _ => by decide).run [.insert 7 1, .insert 7 2])
        [.insert (7 : UINT4) (1 : UINT4), .insert 7 2] := by
  constructor
  · rintro ⟨hcount, -⟩
    revert hcount
    decide
  · rintro ⟨-, hfound⟩
    have hseven := hfound 7
    revert hseven
    decide

end

end CHashMap

end DCFabric
