import DCFabric.BncTypes
import DCFabric.InteriorWalks

namespace DCFabric.TopoMgr

open InteriorWalks

def NO_PATH : UINT4 := -1

/-- What `path_calc` reads of the graph. -/
structure adac_matrix_t where
  A : ℕ → ℕ → UINT4

/-- The matrices that `path_calc` writes. -/
structure ShortPaths where
  path : ℕ → ℕ → UINT4
  D : ℕ → ℕ → UINT4

def store (M : ℕ → ℕ → UINT4) (i j : ℕ) (v : UINT4) : ℕ → ℕ → UINT4 := fun a b => if a = i ∧ b = j then v else M a b

/-- A `for` loop over the vertices. -/
def forEach {σ : Type} (n : ℕ) (body : σ → ℕ → σ) (s : σ) : σ := (List.range n).foldl body s

def initEntry (G : adac_matrix_t) (s : ShortPaths) (i j : ℕ) : ShortPaths where
  path := store s.path i j (if G.A i j < 65535 then UInt32.ofNat j else NO_PATH)
  D := store s.D i j (G.A i j)

def relax (k : ℕ) (s : ShortPaths) (i j : ℕ) : ShortPaths :=
  if s.D i j > s.D i k + s.D k j then
    { D := store s.D i j (s.D i k + s.D k j)
      path := store s.path i j (s.path i k) }
  else s

/-- A loop over the entries, row by row. -/
def forEntries (n : ℕ) (body : ShortPaths → ℕ → ℕ → ShortPaths) (s : ShortPaths) : ShortPaths :=
  forEach n (fun s i => forEach n (fun s j => body s i j) s) s

def path_calc (G : adac_matrix_t) (s : ShortPaths) (n : UINT4) : ShortPaths :=
  forEach n.toNat (fun s k => forEntries n.toNat (relax k) s) (forEntries n.toNat (initEntry G) s)

/-- The link of two of the first `n` vertices. -/
def Link (G : adac_matrix_t) (n : ℕ) (i j : ℕ) : Prop := i < n ∧ j < n ∧ i ≠ j ∧ G.A i j = 1

/-- The vertex that `path` names next on the way to `j`. -/
def nextHop (s : ShortPaths) (j i : ℕ) : ℕ := (s.path i j).toNat

/-- The graph as `init_topo_mgr` and `mapping_new_neighbor` leave it. -/
structure Unweighted (G : adac_matrix_t) (n : ℕ) : Prop where
  diagonal : ∀ i < n, G.A i i = 0
  entries : ∀ i < n, ∀ j < n, i ≠ j → G.A i j = 1 ∨ G.A i j = 65535

/-- The entries of both matrices. -/
def ShortPaths.entry (s : ShortPaths) (i j : ℕ) : UINT4 × UINT4 := (s.path i j, s.D i j)

/-- What a pass over `k` makes of an entry. -/
def relaxed (k : ℕ) (s : ShortPaths) (i j : ℕ) : UINT4 × UINT4 :=
  if s.D i j > s.D i k + s.D k j then (s.path i k, s.D i k + s.D k j) else s.entry i j

section

variable {σ : Type} {n k : ℕ} {s t : ShortPaths} {i j a b : ℕ} {G : adac_matrix_t}

theorem forEach_induct {P : ℕ → σ → Prop} {body : σ → ℕ → σ} {s : σ} (hzero : P 0 s)
    (hstep : ∀ k < n, ∀ s, P k s → P (k + 1) (body s k)) : P n (forEach n body s) := by
  induction n with
  | zero => exact hzero
  | succ n ih =>
    rw [forEach, List.range_succ, List.foldl_append]
    exact hstep n (Nat.lt_succ_self n) _ (ih fun k hk => hstep k (hk.trans (Nat.lt_succ_self n)))

/-- A loop over the entries gives each of them its new value, where the body does so while every entry has its old
value or its new one. -/
theorem entry_forEntries {body : ShortPaths → ℕ → ℕ → ShortPaths} (new : ℕ → ℕ → UINT4 × UINT4)
    (hbody : ∀ t, ∀ i < n, ∀ j < n, (∀ a < n, ∀ b < n, t.entry a b = s.entry a b ∨ t.entry a b = new a b) →
      t.entry i j = s.entry i j → (body t i j).entry i j = new i j ∧
        ∀ a b, ¬(a = i ∧ b = j) → (body t i j).entry a b = t.entry a b)
    (ha : a < n) (hb : b < n) : (forEntries n body s).entry a b = new a b := by
  let Done (i j : ℕ) (t : ShortPaths) : Prop := ∀ a < n, ∀ b < n,
    ((a < i ∨ a = i ∧ b < j) → t.entry a b = new a b) ∧ (¬(a < i ∨ a = i ∧ b < j) → t.entry a b = s.entry a b)
  have hrow : ∀ i < n, ∀ t, Done i 0 t → Done (i + 1) 0 (forEach n (fun t j => body t i j) t) := by
    intro i hi t ht
    have hinner : Done i n (forEach n (fun t j => body t i j) t) := by
      refine forEach_induct (P := Done i) ht fun j hj t ht => ?_
      have hold : t.entry i j = s.entry i j := (ht i hi j hj).2 (by omega)
      obtain ⟨hnew, hrest⟩ := hbody t i hi j hj (fun a ha b hb => by
        by_cases hd : a < i ∨ a = i ∧ b < j
        · exact .inr ((ht a ha b hb).1 hd)
        · exact .inl ((ht a ha b hb).2 hd)) hold
      intro a ha b hb
      by_cases he : a = i ∧ b = j
      · obtain ⟨rfl, rfl⟩ := he
        exact ⟨fun _ => hnew, fun hn => absurd (.inr ⟨rfl, Nat.lt_succ_self b⟩) hn⟩
      · rw [hrest a b he]
        refine ⟨fun hd => (ht a ha b hb).1 (by omega), fun hd => (ht a ha b hb).2 (by omega)⟩
    intro a ha b hb
    exact ⟨fun hd => (hinner a ha b hb).1 (by omega), fun hd => (hinner a ha b hb).2 (by omega)⟩
  have hall : Done n 0 (forEntries n body s) :=
    forEach_induct (P := fun i => Done i 0) (fun a _ b _ => ⟨fun hd => by omega, fun _ => rfl⟩) hrow
  exact (hall a ha b hb).1 (.inl ha)

theorem entry_store_self (s : ShortPaths) (v w : UINT4) :
    (ShortPaths.mk (store s.path i j v) (store s.D i j w)).entry i j = (v, w) :=
  Prod.ext (if_pos ⟨rfl, rfl⟩) (if_pos ⟨rfl, rfl⟩)

theorem entry_store_of_ne (s : ShortPaths) (v w : UINT4) (h : ¬(a = i ∧ b = j)) :
    (ShortPaths.mk (store s.path i j v) (store s.D i j w)).entry a b = s.entry a b :=
  Prod.ext (if_neg h) (if_neg h)

theorem entry_init (ha : a < n) (hb : b < n) :
    (forEntries n (initEntry G) s).entry a b = (if G.A a b < 65535 then UInt32.ofNat b else NO_PATH, G.A a b) := by
  refine entry_forEntries (fun a b => (if G.A a b < 65535 then UInt32.ofNat b else NO_PATH, G.A a b))
    (fun t i _ j _ _ _ => ⟨?_, fun a b hne => ?_⟩) ha hb
  · exact entry_store_self t _ _
  · exact entry_store_of_ne t _ _ hne

/-- The entries are those of walks, and of shortest ones among the walks through the vertices before `k`; a hop along
`path` takes at least one off the distance. -/
structure Inv (G : adac_matrix_t) (n k : ℕ) (s : ShortPaths) : Prop where
  bounded : ∀ i < n, ∀ j < n, (s.D i j).toNat ≤ 65535
  sound : ∀ i < n, ∀ j < n, (s.D i j).toNat < 65535 → Walk (Link G n) (s.D i j).toNat i j
  least : ∀ i < n, ∀ j < n, ∀ m, Via (Link G n) {v | v < k} m i j → (s.D i j).toNat ≤ m
  noPath : ∀ i < n, ∀ j < n, (s.D i j).toNat = 65535 → s.path i j = NO_PATH
  self : ∀ i < n, nextHop s i i = i
  hop : ∀ i < n, ∀ j < n, i ≠ j → (s.D i j).toNat < 65535 →
    Link G n i (nextHop s j i) ∧ (s.D (nextHop s j i) j).toNat + 1 ≤ (s.D i j).toNat

theorem Inv.diagonal (h : Inv G n k s) (hi : i < n) : (s.D i i).toNat = 0 :=
  Nat.le_zero.mp (h.least i hi i hi 0 (.nil i))

theorem Inv.toNat_add (h : Inv G n k s) (hi : i < n) (ha : a < n) (hj : j < n) :
    (s.D i a + s.D a j).toNat = (s.D i a).toNat + (s.D a j).toNat := by
  have hleft := h.bounded i hi a ha
  have hright := h.bounded a ha j hj
  rw [UInt32.toNat_add]
  omega

theorem Inv.relax_iff (h : Inv G n k s) (hi : i < n) (ha : a < n) (hj : j < n) :
    s.D i j > s.D i a + s.D a j ↔ (s.D i a).toNat + (s.D a j).toNat < (s.D i j).toNat := by
  rw [gt_iff_lt, UInt32.lt_iff_toNat_lt, h.toNat_add hi ha hj]

/-- A pass over `k` leaves the row and the column of `k` as they are, so that it can be done in place. -/
theorem Inv.relaxed_cross (h : Inv G n k s) (hk : k < n) (hi : i < n) :
    relaxed k s i k = s.entry i k ∧ relaxed k s k i = s.entry k i := by
  have hzero := h.diagonal hk
  constructor
  · refine if_neg fun hlt => ?_
    rw [h.relax_iff hi hk hk] at hlt
    omega
  · refine if_neg fun hlt => ?_
    rw [h.relax_iff hk hk hi] at hlt
    omega

theorem Inv.entry_pass (h : Inv G n k s) (hk : k < n) (ha : a < n) (hb : b < n) :
    (forEntries n (relax k) s).entry a b = relaxed k s a b := by
  refine entry_forEntries (relaxed k s) (fun t i hi j hj hmix hold => ?_) ha hb
  have hrow : t.entry i k = s.entry i k := by
    obtain he | he := hmix i hi k hk
    · exact he
    · exact he.trans (h.relaxed_cross hk hi).1
  have hcol : t.entry k j = s.entry k j := by
    obtain he | he := hmix k hk j hj
    · exact he
    · exact he.trans (h.relaxed_cross hk hj).2
  obtain ⟨hpathRow, hrow⟩ := Prod.mk.inj hrow
  obtain ⟨-, hcol⟩ := Prod.mk.inj hcol
  obtain ⟨hpath, hD⟩ := Prod.mk.inj hold
  rw [relax, relaxed, hD, hrow, hcol, hpathRow]
  split_ifs with hlt
  · exact ⟨entry_store_self t _ _, fun a b hne => entry_store_of_ne t _ _ hne⟩
  · exact ⟨hold, fun _ _ _ => rfl⟩

/-- What a pass over `k` does to an entry. -/
theorem Inv.pass_cases (h : Inv G n k s) (hk : k < n) (hi : i < n) (hj : j < n) :
    let t := forEntries n (relax k) s
    ((s.D i k).toNat + (s.D k j).toNat < (s.D i j).toNat ∧ nextHop t j i = nextHop s k i ∧
        (t.D i j).toNat = (s.D i k).toNat + (s.D k j).toNat) ∨
      ((s.D i j).toNat ≤ (s.D i k).toNat + (s.D k j).toNat ∧ t.path i j = s.path i j ∧ t.D i j = s.D i j) := by
  intro t
  have he : (t.path i j, t.D i j) = relaxed k s i j := h.entry_pass hk hi hj
  rw [relaxed] at he
  split_ifs at he with hlt
  · obtain ⟨hpath, hD⟩ := Prod.mk.inj he
    exact .inl ⟨(h.relax_iff hi hk hj).mp hlt, congrArg UInt32.toNat hpath, by rw [hD, h.toNat_add hi hk hj]⟩
  · obtain ⟨hpath, hD⟩ := Prod.mk.inj he
    exact .inr ⟨not_lt.mp fun hn => hlt ((h.relax_iff hi hk hj).mpr hn), hpath, hD⟩

theorem Inv.pass_le (h : Inv G n k s) (hk : k < n) (hi : i < n) (hj : j < n) :
    let t := forEntries n (relax k) s
    (t.D i j).toNat ≤ (s.D i k).toNat + (s.D k j).toNat ∧ (t.D i j).toNat ≤ (s.D i j).toNat := by
  intro t
  obtain ⟨hlt, -, hD⟩ | ⟨hle, -, hD⟩ := h.pass_cases hk hi hj
  · exact ⟨hD.le, hD.trans_le hlt.le⟩
  · rw [hD]
    exact ⟨hle, le_rfl⟩

theorem setOf_lt_succ (k : ℕ) : {v | v < k + 1} = insert k {v | v < k} := by
  ext v
  rw [Set.mem_ofPred_eq, Set.mem_insert_iff, Set.mem_ofPred_eq]
  omega

theorem Inv.pass (h : Inv G n k s) (hk : k < n) : Inv G n (k + 1) (forEntries n (relax k) s) := by
  constructor
  · intro i hi j hj
    exact (h.pass_le hk hi hj).2.trans (h.bounded i hi j hj)
  · intro i hi j hj hfin
    obtain ⟨hlt, -, hD⟩ | ⟨-, -, hD⟩ := h.pass_cases hk hi hj
    · rw [hD]
      have hle := h.bounded i hi j hj
      exact (h.sound i hi k hk (by omega)).append (h.sound k hk j hj (by omega))
    · rw [hD] at hfin ⊢
      exact h.sound i hi j hj hfin
  · intro i hi j hj m hm
    rw [setOf_lt_succ] at hm
    obtain ⟨hvia, hdown⟩ := h.pass_le hk hi hj
    obtain hm | ⟨a, b, hab, ha, hb⟩ := hm.split
    · exact hdown.trans (h.least i hi j hj m hm)
    · have hleft := h.least i hi k hk a ha
      have hright := h.least k hk j hj b hb
      omega
  · intro i hi j hj hinf
    have hle := h.bounded i hi j hj
    obtain ⟨hlt, -, hD⟩ | ⟨-, hpath, hD⟩ := h.pass_cases hk hi hj
    · omega
    · rw [hD] at hinf
      rw [hpath, h.noPath i hi j hj hinf]
  · intro i hi
    have hzero := h.diagonal hi
    obtain ⟨hlt, -, -⟩ | ⟨-, hpath, -⟩ := h.pass_cases hk hi hi
    · omega
    · rw [nextHop, hpath]
      exact h.self i hi
  · intro i hi j hj hne hfin
    have hle := h.bounded i hi j hj
    obtain ⟨hlt, hnext, hD⟩ | ⟨-, hpath, hD⟩ := h.pass_cases hk hi hj
    · -- an entry that a way over `k` improves does not lie in the row of `k`
      have hik : i ≠ k := fun he => by
        have hzero := h.diagonal hi
        subst he
        omega
      obtain ⟨hlink, hdown⟩ := h.hop i hi k hk hik (by omega)
      have hvia := (h.pass_le hk hlink.2.1 hj).1
      rw [hnext, hD]
      exact ⟨hlink, by omega⟩
    · rw [hD] at hfin
      obtain ⟨hlink, hdown⟩ := h.hop i hi j hj hne hfin
      have hnext : nextHop (forEntries n (relax k) s) j i = nextHop s j i := congrArg UInt32.toNat hpath
      have hle := (h.pass_le hk hlink.2.1 hj).2
      rw [hnext, hD]
      exact ⟨hlink, by omega⟩

theorem Unweighted.inv_init (hG : Unweighted G n) (hn : n ≤ 65535) : Inv G n 0 (forEntries n (initEntry G) s) := by
  have hentry : ∀ i < n, ∀ j < n, (forEntries n (initEntry G) s).D i j = G.A i j ∧
      (forEntries n (initEntry G) s).path i j = if G.A i j < 65535 then UInt32.ofNat j else NO_PATH := by
    intro i hi j hj
    have he := Prod.mk.inj (entry_init (G := G) (s := s) hi hj)
    exact ⟨he.2, he.1⟩
  have hnext : ∀ i < n, ∀ j < n, G.A i j < 65535 → nextHop (forEntries n (initEntry G) s) j i = j := by
    intro i hi j hj hlt
    rw [nextHop, (hentry i hi j hj).2, if_pos hlt]
    exact UInt32.toNat_ofNat_of_lt' (show j < 2 ^ 32 by omega)
  have hcases : ∀ i < n, ∀ j < n, (i = j ∧ G.A i j = 0) ∨ (Link G n i j ∧ G.A i j = 1) ∨ G.A i j = 65535 := by
    intro i hi j hj
    by_cases he : i = j
    · subst he
      exact .inl ⟨rfl, hG.diagonal i hi⟩
    · exact .inr ((hG.entries i hi j hj he).imp_left fun h => ⟨⟨hi, hj, he, h⟩, h⟩)
  constructor
  · intro i hi j hj
    rw [(hentry i hi j hj).1]
    obtain ⟨-, h⟩ | ⟨-, h⟩ | h := hcases i hi j hj <;> rw [h] <;> decide
  · intro i hi j hj hfin
    rw [(hentry i hi j hj).1] at hfin ⊢
    obtain ⟨rfl, h⟩ | ⟨hlink, h⟩ | h := hcases i hi j hj
    · rw [h]
      exact .nil i
    · rw [h]
      exact .cons hlink (.nil j)
    · rw [h] at hfin
      exact absurd hfin (by decide)
  · intro i hi j hj m hm
    rw [(hentry i hi j hj).1]
    cases hm with
    | nil => simp [hG.diagonal i hi]
    | one only => simp [only.2.2.2]
    | cons first through rest => exact absurd through (Nat.not_lt_zero _)
  · intro i hi j hj hinf
    rw [(hentry i hi j hj).1] at hinf
    rw [(hentry i hi j hj).2, if_neg]
    rw [UInt32.lt_iff_toNat_lt, hinf]
    decide
  · intro i hi
    apply hnext i hi i hi
    rw [hG.diagonal i hi]
    decide
  · intro i hi j hj hne hfin
    rw [(hentry i hi j hj).1] at hfin ⊢
    obtain ⟨he, -⟩ | ⟨hlink, h⟩ | h := hcases i hi j hj
    · exact absurd he hne
    · rw [hnext i hi j hj (by rw [h]; decide), (hentry j hj j hj).1, hG.diagonal j hj, h]
      exact ⟨hlink, le_rfl⟩
    · rw [h] at hfin
      exact absurd hfin (by decide)

theorem inv_path_calc {n : UINT4} (hG : Unweighted G n.toNat) (hn : n.toNat ≤ 65535) :
    Inv G n.toNat n.toNat (path_calc G s n) :=
  forEach_induct (hG.inv_init hn) fun _ hk _ h => h.pass hk

theorem Inv.least_walk (h : Inv G n n s) (hi : i < n) (hj : j < n) {m : ℕ} (hw : Walk (Link G n) m i j) :
    (s.D i j).toNat ≤ m :=
  h.least i hi j hj m (hw.via fun _ _ hl => hl.1)

/-- The entries of two vertices that a walk joins. -/
structure Leads (G : adac_matrix_t) (n : ℕ) (s : ShortPaths) (i j : ℕ) : Prop where
  shortest : IsLeast {m | Walk (Link G n) m i j} (s.D i j).toNat
  path : s.path i j ≠ NO_PATH
  arrives : (nextHop s j)^[(s.D i j).toNat] i = j
  links : ∀ m < (s.D i j).toNat,
    (nextHop s j)^[m] i ≠ j ∧ Link G n ((nextHop s j)^[m] i) ((nextHop s j)^[m + 1] i)

/-- The entries of two vertices that no walk joins. -/
structure Apart (s : ShortPaths) (i j : ℕ) : Prop where
  distance : s.D i j = 65535
  path : s.path i j = NO_PATH

/-- The distance of two vertices that a walk joins is below the number that stands for no way. -/
theorem Inv.finite (h : Inv G n n s) (hn : n ≤ 65535) (hi : i < n) (hj : j < n) {m : ℕ}
    (hw : Walk (Link G n) m i j) : (s.D i j).toNat < 65535 := by
  obtain ⟨m, hleast⟩ : ∃ m, IsLeast {m | Walk (Link G n) m i j} m :=
    ⟨_, Nat.sInf_mem ⟨m, hw⟩, fun _ hm => Nat.sInf_le hm⟩
  have hcard := length_lt_card (Finset.range n) (fun _ _ hl => Finset.mem_range.mpr hl.2.1)
    (Finset.mem_range.mpr hi) hleast
  rw [Finset.card_range] at hcard
  exact (h.least_walk hi hj hleast.1).trans_lt (hcard.trans_le hn)

theorem Inv.leads (h : Inv G n n s) (hn : n ≤ 65535) (hi : i < n) (hj : j < n) (hfin : (s.D i j).toNat < 65535) :
    Leads G n s i j := by
  have hzero : ∀ i, (i < n ∧ (s.D i j).toNat < 65535) → ((s.D i j).toNat = 0 ↔ i = j) := by
    rintro i ⟨hi, hfin⟩
    constructor
    · intro hz
      have hw := h.sound i hi j hj hfin
      rw [hz] at hw
      cases hw
      rfl
    · rintro rfl
      exact h.diagonal hi
  have hhop : ∀ i, (i < n ∧ (s.D i j).toNat < 65535) → i ≠ j → Link G n i (nextHop s j i) ∧
      (nextHop s j i < n ∧ (s.D (nextHop s j i) j).toNat < 65535) ∧
        (s.D (nextHop s j i) j).toNat + 1 = (s.D i j).toNat := by
    rintro i ⟨hi, hfin⟩ hne
    obtain ⟨hlink, hdown⟩ := h.hop i hi j hj hne hfin
    have hrest := h.sound (nextHop s j i) hlink.2.1 j hj (by omega)
    have hup := h.least_walk hi hj (.cons hlink hrest)
    exact ⟨hlink, ⟨hlink.2.1, by omega⟩, by omega⟩
  obtain ⟨harrives, hlinks⟩ := iterate_hop (P := fun i => i < n ∧ (s.D i j).toNat < 65535)
    (d := fun i => (s.D i j).toNat) hzero hhop ⟨hi, hfin⟩
  refine ⟨⟨h.sound i hi j hj hfin, fun m hm => h.least_walk hi hj hm⟩, fun hp => ?_, harrives, hlinks⟩
  have hnext : nextHop s j i < n := by
    by_cases hne : i = j
    · subst hne
      rwa [h.self i hi]
    · exact (hhop i ⟨hi, hfin⟩ hne).1.2.1
  have hbig : nextHop s j i = 4294967295 := congrArg UInt32.toNat hp
  omega

/-- Two vertices that a walk joins get the length of a shortest one and hops that take it, and no others do. -/
theorem path_calc_shortest (G : adac_matrix_t) (s : ShortPaths) (n : UINT4) (hn : n.toNat ≤ 65535)
    (hG : Unweighted G n.toNat) (i j : ℕ) (hi : i < n.toNat) (hj : j < n.toNat) :
    ((∃ m, Walk (Link G n.toNat) m i j) → Leads G n.toNat (path_calc G s n) i j) ∧
      ((¬∃ m, Walk (Link G n.toNat) m i j) → Apart (path_calc G s n) i j) := by
  have h : Inv G n.toNat n.toNat (path_calc G s n) := inv_path_calc hG hn
  constructor
  · rintro ⟨m, hw⟩
    exact h.leads hn hi hj (h.finite hn hi hj hw)
  · intro hno
    have hinf : ((path_calc G s n).D i j).toNat = 65535 := by
      have hle := h.bounded i hi j hj
      by_contra hne
      exact hno ⟨_, h.sound i hi j hj (by omega)⟩
    exact ⟨UInt32.toNat_inj.mp hinf, h.noPath i hi j hj hinf⟩

end

/-- Two vertices with a link from the first to the second. -/
def oneLink : adac_matrix_t := ⟨fun i j => if i = j then 0 else if i = 0 then 1 else 65535⟩

/-- The matrices as `init_topo_mgr` leaves them. -/
def unknown : ShortPaths := ⟨fun _ _ => NO_PATH, fun _ _ => 0⟩

theorem path_calc_oneLink : Leads oneLink 2 (path_calc oneLink unknown 2) 0 1 ∧
    Apart (path_calc oneLink unknown 2) 1 0 := by
  have hG : Unweighted oneLink 2 := ⟨by decide, by decide⟩
  have hlink : Link oneLink 2 0 1 := by unfold Link; decide
  refine ⟨(path_calc_shortest oneLink unknown 2 (by decide) hG 0 1 (by decide) (by decide)).1 ⟨1, .cons hlink (.nil 1)⟩,
    (path_calc_shortest oneLink unknown 2 (by decide) hG 1 0 (by decide) (by decide)).2 ?_⟩
  rintro ⟨m, hw⟩
  cases hw with
  | cons first rest =>
    obtain ⟨-, -, hne, hentry⟩ := first
    simp [oneLink, hne] at hentry

end DCFabric.TopoMgr
