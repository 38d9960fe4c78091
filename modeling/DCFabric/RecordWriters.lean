import Mathlib

namespace RecordWriters

/-- The cursor of a writer in a buffer: what lies behind it, what lies before it, and the length that is counted. -/
structure Written where
  output : List UInt8
  rest : List UInt8
  len : UInt16

namespace Written

def start (buf : List UInt8) : Written := ⟨[], buf, 0⟩

def buf (w : Written) : List UInt8 := w.output ++ w.rest

/-- The bytes are written at the cursor, which goes on by `size`: there is none where they leave the buffer. -/
def put (w : Written) (bytes : List UInt8) (size : ℕ) : Option Written :=
  if bytes.length ≤ w.rest.length then
    some ⟨w.output ++ (bytes ++ w.rest.drop bytes.length).take size, (bytes ++ w.rest.drop bytes.length).drop size,
      w.len + UInt16.ofNat size⟩
  else none

/-- What another writer has left in the rest of the buffer, with the length it has counted. -/
def advance (w sub : Written) : Written :=
  ⟨w.output ++ sub.buf.take sub.len.toNat, sub.buf.drop sub.len.toNat, w.len + sub.len⟩

/-- The records have been written one after the other. -/
structure Writes (w w' : Written) (rs : List (List UInt8)) : Prop where
  output : w'.output = w.output ++ rs.flatten
  rest : w'.rest = w.rest.drop rs.flatten.length
  len : w'.len = w.len + UInt16.ofNat rs.flatten.length
  fits : rs.flatten.length ≤ w.rest.length

end Written

section

variable {σ α : Type} {k n : ℕ} {size : σ → ℕ} {Is : σ → List UInt8 → Prop} {ss ss' : List σ} {s : σ}
  {w w' w'' : Written} {rs rs' : List (List UInt8)} {r bytes : List UInt8} {f g : Written → Option Written}

/-- The records are of the kinds that are wanted, and of their sizes. -/
def Matches (size : σ → ℕ) (Is : σ → List UInt8 → Prop) (ss : List σ) (rs : List (List UInt8)) : Prop :=
  List.Forall₂ (fun s r => r.length = size s ∧ Is s r) ss rs

/-- Where the buffer has room for records of these sizes they are written, and nothing is where it has not. -/
def Encodes (k : ℕ) (size : σ → ℕ) (Is : σ → List UInt8 → Prop) (ss : List σ) (f : Written → Option Written) : Prop :=
  ∀ w : Written, k ∣ w.rest.length → w.rest.length < 2 ^ 16 →
    if (ss.map size).sum ≤ w.rest.length then ∃ w' rs, f w = some w' ∧ w.Writes w' rs ∧ Matches size Is ss rs
    else f w = none

theorem Matches.length (h : Matches size Is ss rs) : rs.flatten.length = (ss.map size).sum := by
  induction h with
  | nil => rfl
  | cons hr _ ih => rw [List.flatten_cons, List.length_append, ih, hr.1, List.map_cons, List.sum_cons]

theorem Matches.append (h : Matches size Is ss rs) (h' : Matches size Is ss' rs') :
    Matches size Is (ss ++ ss') (rs ++ rs') := List.rel_append h h'

theorem Written.Writes.nil (w : Written) : w.Writes w [] := by
  constructor
  · exact (List.append_nil _).symm
  · rfl
  · exact (UInt16.add_zero _).symm
  · exact Nat.zero_le _

theorem Written.Writes.trans (h : w.Writes w' rs) (h' : w'.Writes w'' rs') : w.Writes w'' (rs ++ rs') := by
  have hrest : w'.rest.length = w.rest.length - rs.flatten.length := by rw [h.rest, List.length_drop]
  have hfits := h'.fits
  constructor
  · rw [h'.output, h.output, List.flatten_append, List.append_assoc]
  · rw [h'.rest, h.rest, List.drop_drop, List.flatten_append, List.length_append]
  · rw [h'.len, h.len, List.flatten_append, List.length_append, UInt16.ofNat_add, UInt16.add_assoc]
  · rw [List.flatten_append, List.length_append]
    have := h.fits
    omega

theorem Written.Writes.single (hfits : r.length ≤ w.rest.length) (hw : w' = ⟨w.output ++ r, w.rest.drop r.length,
    w.len + UInt16.ofNat r.length⟩) : w.Writes w' [r] := by
  subst hw
  have hflat : [r].flatten = r := List.flatten_singleton
  constructor
  · rw [hflat]
  · rw [hflat]
  · rw [hflat]
  · rw [hflat]
    exact hfits

theorem Encodes.nil (k : ℕ) : Encodes k size Is [] some := by
  intro w _ _
  rw [List.map_nil, List.sum_nil, if_pos (Nat.zero_le _)]
  exact ⟨w, [], rfl, .nil w, List.Forall₂.nil⟩

/-- Records of sizes that are multiples of `k` leave a multiple of `k`. -/
theorem Encodes.comp (hf : Encodes k size Is ss f) (hg : Encodes k size Is ss' g) (hk : ∀ s ∈ ss, k ∣ size s) :
    Encodes k size Is (ss ++ ss') fun w => (f w).bind g := by
  intro w hdvd hlt
  have hw := hf w hdvd hlt
  rw [List.map_append, List.sum_append]
  by_cases hroom : (ss.map size).sum ≤ w.rest.length
  · rw [if_pos hroom] at hw
    obtain ⟨w', rs, hstep, hwrites, hrs⟩ := hw
    have hlen : w'.rest.length = w.rest.length - (ss.map size).sum := by
      rw [hwrites.rest, List.length_drop, hrs.length]
    have hsum : k ∣ (ss.map size).sum := by
      apply List.dvd_sum
      intro n hn
      obtain ⟨s, hs, rfl⟩ := List.mem_map.mp hn
      exact hk s hs
    have hw' := hg w' (hlen ▸ Nat.dvd_sub hdvd hsum) (by omega)
    simp only [hstep, Option.bind_some]
    by_cases hroom' : (ss'.map size).sum ≤ w'.rest.length
    · rw [if_pos hroom'] at hw'
      obtain ⟨w'', rs', hstep', hwrites', hrs'⟩ := hw'
      rw [if_pos (by omega)]
      exact ⟨w'', rs ++ rs', hstep', hwrites.trans hwrites', hrs.append hrs'⟩
    · rw [if_neg hroom'] at hw'
      rw [if_neg (by omega)]
      exact hw'
  · rw [if_neg hroom] at hw
    rw [if_neg (by omega)]
    simp only [hw, Option.bind_none]

/-- A loop over a list encodes what its passes encode. -/
theorem Encodes.foldlM {step : Written → α → Option Written} {kinds : α → List σ} {as : List α}
    (h : ∀ a ∈ as, Encodes k size Is (kinds a) (step · a)) (hk : ∀ a ∈ as, ∀ s ∈ kinds a, k ∣ size s) :
    Encodes k size Is (as.flatMap kinds) fun w => as.foldlM step w := by
  induction as with
  | nil => exact Encodes.nil k
  | cons a as ih =>
    have hrest := ih (fun b hb => h b (List.mem_cons_of_mem a hb)) (fun b hb => hk b (List.mem_cons_of_mem a hb))
    exact (h a List.mem_cons_self).comp hrest (hk a List.mem_cons_self)

/-- A record whose padding is shorter than `k` is written as soon as its bytes are. -/
theorem Encodes.put (hk : k ∣ size s) (hle : bytes.length ≤ size s) (hpad : size s < bytes.length + k)
    (his : ∀ padding, bytes.length + padding.length = size s → Is s (bytes ++ padding)) :
    Encodes k size Is [s] (·.put bytes (size s)) := by
  intro w hdvd _
  simp only [List.map_singleton, List.sum_singleton, Written.put]
  by_cases hroom : bytes.length ≤ w.rest.length
  · have hsize : size s ≤ w.rest.length := by
      apply Nat.le_of_sub_eq_zero
      exact Nat.eq_zero_of_dvd_of_lt (Nat.dvd_sub hk hdvd) (by omega)
    have htake : (bytes ++ w.rest.drop bytes.length).take (size s) =
        bytes ++ (w.rest.drop bytes.length).take (size s - bytes.length) := by
      rw [List.take_append, List.take_of_length_le hle]
    have hlen : ((bytes ++ w.rest.drop bytes.length).take (size s)).length = size s := by
      rw [List.length_take, List.length_append, List.length_drop]
      omega
    rw [if_pos hsize, if_pos hroom]
    refine ⟨_, [(bytes ++ w.rest.drop bytes.length).take (size s)], rfl, ?_, ?_⟩
    · apply Written.Writes.single
      · rw [hlen]
        exact hsize
      · rw [hlen, List.drop_append, List.drop_eq_nil_of_le hle, List.nil_append, List.drop_drop,
          Nat.add_sub_cancel' hle]
    · refine .cons ⟨hlen, ?_⟩ .nil
      rw [htake] at hlen ⊢
      apply his
      rw [← List.length_append]
      exact hlen
  · rw [if_neg (by omega), if_neg hroom]

/-- A writer at the start of a buffer counts the length of what it writes. -/
theorem Encodes.start (hf : Encodes k size Is ss f) {buf : List UInt8} (hdvd : k ∣ buf.length)
    (hlt : buf.length < 2 ^ 16) :
    if (ss.map size).sum ≤ buf.length then ∃ sub rs, f (.start buf) = some sub ∧ sub.output = rs.flatten ∧
      sub.rest = buf.drop rs.flatten.length ∧ sub.len.toNat = rs.flatten.length ∧ Matches size Is ss rs
    else f (.start buf) = none := by
  have hw := hf (.start buf) hdvd hlt
  change if (ss.map size).sum ≤ buf.length then _ else _ at hw
  by_cases hroom : (ss.map size).sum ≤ buf.length
  · rw [if_pos hroom] at hw
    rw [if_pos hroom]
    obtain ⟨sub, rs, hstep, hwrites, hrs⟩ := hw
    have hlen : sub.len = UInt16.ofNat rs.flatten.length := hwrites.len.trans (UInt16.zero_add _)
    refine ⟨sub, rs, hstep, hwrites.output, hwrites.rest, ?_, hrs⟩
    rw [hlen, UInt16.toNat_ofNat']
    exact Nat.mod_eq_of_lt (hwrites.fits.trans_lt hlt)
  · rw [if_neg hroom] at hw
    rw [if_neg hroom]
    exact hw

/-- What another writer does in the rest of the buffer. -/
theorem Encodes.nest (hf : Encodes k size Is ss f) :
    Encodes k size Is ss fun w => (f (.start w.rest)).map w.advance := by
  intro w hdvd hlt
  have hw := hf.start hdvd hlt
  by_cases hroom : (ss.map size).sum ≤ w.rest.length
  · rw [if_pos hroom] at hw
    rw [if_pos hroom]
    obtain ⟨sub, rs, hstep, houtput, hrest, hlen, hrs⟩ := hw
    refine ⟨w.advance sub, rs, by simp only [hstep, Option.map_some], ?_, hrs⟩
    constructor
    · rw [Written.advance, Written.buf, hlen, houtput, List.take_left]
    · rw [Written.advance, Written.buf, hlen, houtput, List.drop_left]
      exact hrest
    · rw [Written.advance, ← hlen, UInt16.ofNat_toNat]
    · rw [hrs.length]
      exact hroom
  · rw [if_neg hroom] at hw
    rw [if_neg hroom]
    simp only [hw, Option.map_none]

end

end RecordWriters
