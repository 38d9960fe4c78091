import DCFabric.TlvStreams

namespace TlvStreams

open LoopRuns

/-- Values that take a fixed number of bytes. -/
class Word (α : Type) where
  size : ℕ
  toNat : α → ℕ
  ofNat : ℕ → α
  size_pos : 0 < size
  size_lt : size < 2 ^ 16
  toNat_lt : ∀ a, toNat a < 256 ^ size
  ofNat_toNat : ∀ a, ofNat (toNat a) = a

instance : Word UInt8 where
  size := 1
  toNat := UInt8.toNat
  ofNat := UInt8.ofNat
  size_pos := by decide
  size_lt := by decide
  toNat_lt a := a.toNat_lt
  ofNat_toNat a := UInt8.ofNat_toNat

instance : Word UInt16 where
  size := 2
  toNat := UInt16.toNat
  ofNat := UInt16.ofNat
  size_pos := by decide
  size_lt := by decide
  toNat_lt a := a.toNat_lt
  ofNat_toNat a := UInt16.ofNat_toNat

instance : Word UInt32 where
  size := 4
  toNat := UInt32.toNat
  ofNat := UInt32.ofNat
  size_pos := by decide
  size_lt := by decide
  toNat_lt a := a.toNat_lt
  ofNat_toNat a := UInt32.ofNat_toNat

instance : Word UInt64 where
  size := 8
  toNat := UInt64.toNat
  ofNat := UInt64.ofNat
  size_pos := by decide
  size_lt := by decide
  toNat_lt a := a.toNat_lt
  ofNat_toNat a := UInt64.ofNat_toNat

instance : Word Int32 where
  size := 4
  toNat a := a.toUInt32.toNat
  ofNat n := (UInt32.ofNat n).toInt32
  size_pos := by decide
  size_lt := by decide
  toNat_lt a := a.toUInt32.toNat_lt
  ofNat_toNat a := by rw [UInt32.ofNat_toNat, Int32.toInt32_toUInt32]

/-- An array of two values. -/
@[reducible] def Word.pair (α : Type) [Word α] (h : Word.size α + Word.size α < 2 ^ 16) : Word (α × α) where
  size := Word.size α + Word.size α
  toNat a := Word.toNat a.1 + 256 ^ Word.size α * Word.toNat a.2
  ofNat n := (Word.ofNat (n % 256 ^ Word.size α), Word.ofNat (n / 256 ^ Word.size α))
  size_pos := Nat.add_pos_left Word.size_pos _
  size_lt := h
  toNat_lt a := by
    have h₁ := Word.toNat_lt a.1
    have h₂ := Word.toNat_lt a.2
    rw [Nat.pow_add]
    nlinarith
  ofNat_toNat a := by
    have h₁ := Word.toNat_lt a.1
    rw [Nat.add_mul_mod_self_left, Nat.mod_eq_of_lt h₁, Nat.add_mul_div_left _ _ (Nat.zero_lt_of_lt h₁),
      Nat.div_eq_of_lt h₁, Nat.zero_add, Word.ofNat_toNat, Word.ofNat_toNat]

instance : Word (UInt64 × UInt64) := .pair UInt64 (by decide)

instance : Word (UInt32 × UInt32) := .pair UInt32 (by decide)

@[reducible] def bitsWord (n : ℕ) (hpos : 0 < n) (hlt : n < 2 ^ 16) : Word (BitVec (8 * n)) where
  size := n
  toNat := BitVec.toNat
  ofNat := BitVec.ofNat (8 * n)
  size_pos := hpos
  size_lt := hlt
  toNat_lt a := by
    have h := a.isLt
    rwa [Nat.pow_mul] at h
  ofNat_toNat a := by rw [BitVec.ofNat_toNat, BitVec.setWidth_eq]

instance : Word (BitVec 48) := bitsWord 6 (by decide) (by decide)

/-- The text of a character array. -/
def cstring (bs : List UInt8) : List UInt8 := bs.takeWhile (· ≠ 0)

section

variable {α σ : Type} [Word α]

def Tlv.word (type : UInt16) (a : α) : Tlv := ⟨type, leBytes (Word.size α) (Word.toNat a)⟩

def Tlv.text (type : UInt16) (str : List UInt8) : Tlv := ⟨type, str ++ [0]⟩

def TlvField.word (set : α → σ → σ) : TlvField σ where
  get := .fixed (Word.size α)
  store bs := set (Word.ofNat (leNat bs))

/-- The end of the string takes the place of the last byte. -/
def TlvField.text (capacity : ℕ) (set : List UInt8 → σ → σ) : TlvField σ where
  get := .text capacity
  store bs s := if bs = [] then s else set (cstring bs.dropLast) s

variable {fields : Fields σ} {type : UInt16} {set : α → σ → σ} {setText : List UInt8 → σ → σ} {capacity : ℕ}
  {a : α} {str : List UInt8} {s : σ}

@[simp] theorem Tlv.length_word : (Tlv.word type a).value.length = Word.size α := length_leBytes

theorem TlvField.store_word {field : TlvField σ} (h : field = .word set) :
    field.store (Tlv.word type a).value s = set a s := by
  subst h
  simp only [TlvField.word, Tlv.word]
  rw [leNat_leBytes (Word.toNat_lt a), Word.ofNat_toNat]

theorem absorb_word (h : fields type = some (.word set)) : absorb fields s (.word type a) = set a s := by
  have ht : fields (Tlv.word type a).type = some (.word set) := h
  rw [absorb, ht]
  exact TlvField.store_word rfl

theorem takes_word (h : fields type = some (.word set)) : Takes fields (.word type a) := by
  refine ⟨?_, _, h, ?_⟩
  · rw [Tlv.length_word]
    exact Word.size_lt
  · rw [Tlv.length_word]
    rfl

end

structure Decoder (L W R : Type) where
  clear : W → W
  locals : L
  rejected : R
  firstType : UInt16
  first : TlvField (L × W)
  table : List (UInt16 × TlvField (L × W))
  finish : L × W → R × W

namespace Decoder

variable {L W R : Type} (d : Decoder L W R)

def fields : Fields (L × W) := fun type => d.table.lookup type

def types : List UInt16 := d.table.map (·.1)

/-- The cursor the loop starts from, or the result where a check before it fails. -/
def enter (m : Memory) (data len : ℕ) (w : W) : Except (R × W) (Cursor (L × W)) :=
  if len < 4 then .error (d.rejected, w)
  else
    let w := d.clear w
    let v := visit m data
    if len < 4 + v.len ∨ v.type ≠ d.firstType then .error (d.rejected, w)
    else .ok (Cursor.take m ⟨(d.locals, w), data, len⟩ v d.first)

def recover (m : Memory) (data len : ℕ) (w : W) (fuel : ℕ) : Option (R × W) :=
  match d.enter m data len w with
  | .error r => some r
  | .ok c => (run (pass d.fields m) fuel c).map fun (_, s) => d.finish s

def Rejects (m : Memory) (data len : ℕ) : Prop :=
  len < 4 ∨ len < 4 + (visit m data).len ∨ (visit m data).type ≠ d.firstType

instance (m : Memory) (data len : ℕ) : Decidable (d.Rejects m data len) :=
  inferInstanceAs (Decidable (_ ∨ _ ∨ _))

/-- The first address after the first TLV, and the bytes that are left there. -/
def following (m : Memory) (data len : ℕ) : ℕ × ℕ := (data + 4 + (visit m data).len, len - (4 + (visit m data).len))

def start (m : Memory) (data len : ℕ) (w : W) : Cursor (L × W) :=
  Cursor.take m ⟨(d.locals, d.clear w), data, len⟩ (visit m data) d.first

variable {d} {m : Memory} {data len fuel fuel' lo hi : ℕ} {w : W} {r r' : R × W} {type : UInt16}

theorem enter_of_rejects (h : d.Rejects m data len) : ∃ w', d.enter m data len w = .error (d.rejected, w') := by
  rw [enter]
  split_ifs with hlen
  · exact ⟨w, rfl⟩
  · dsimp only
    rw [if_pos (h.resolve_left hlen)]
    exact ⟨d.clear w, rfl⟩

theorem enter_of_accepts (h : ¬ d.Rejects m data len) : d.enter m data len w = .ok (d.start m data len w) := by
  rw [Rejects, not_or] at h
  rw [enter, if_neg h.1]
  dsimp only
  rw [if_neg h.2]
  rfl

theorem recover_of_accepts (h : ¬ d.Rejects m data len) : d.recover m data len w fuel =
    (run (pass d.fields m) fuel (d.start m data len w)).map fun s => d.finish s.2 := by
  rw [recover, enter_of_accepts h]

theorem recover_unique (h : d.recover m data len w fuel = some r) (h' : d.recover m data len w fuel' = some r') :
    r = r' := by
  by_cases hr : d.Rejects m data len
  · obtain ⟨w', hw⟩ := enter_of_rejects (w := w) hr
    rw [recover, hw] at h h'
    exact Option.some.inj (h.symm.trans h')
  · rw [recover_of_accepts hr] at h h'
    obtain ⟨s, hs, rfl⟩ := Option.map_eq_some_iff.mp h
    obtain ⟨s', hs', rfl⟩ := Option.map_eq_some_iff.mp h'
    rw [((Ends.of_run hs).unique (Ends.of_run hs')).2]

theorem known_iff {v : Visit} : Known d.fields v ↔ v.type ∈ d.types := by
  simp only [Known, fields, types, List.lookup_isSome_iff, List.mem_map, beq_iff_eq]
  exact exists_congr fun p => and_congr_right fun _ => eq_comm

theorem start_walk : walk m (d.start m data len w).data (d.start m data len w).len =
    walk m (following m data len).1 (following m data len).2 := rfl

/-- The loop ends if and only if the decoder rejects the message or has a field for every header that follows. -/
theorem terminates_iff : (∃ fuel, (d.recover m data len w fuel).isSome) ↔
    d.Rejects m data len ∨ ∀ v ∈ walk m (following m data len).1 (following m data len).2, v.type ∈ d.types := by
  by_cases hr : d.Rejects m data len
  · obtain ⟨w', hw⟩ := enter_of_rejects (w := w) hr
    refine iff_of_true ⟨0, ?_⟩ (.inl hr)
    rw [recover, hw]
    rfl
  · simp only [hr, false_or, ← known_iff, recover_of_accepts hr, Option.isSome_map]
    rw [← start_walk (d := d) (w := w), ← ends_iff]
    constructor
    · rintro ⟨fuel, hf⟩
      obtain ⟨s, hs⟩ := Option.isSome_iff_exists.mp hf
      exact ⟨s.1, s.2, Ends.of_run hs⟩
    · rintro ⟨vs, s, h⟩
      obtain ⟨fuel, hf⟩ := h.exists_run
      exact ⟨fuel, by rw [hf]; rfl⟩

def Consumes (d : Decoder L W R) (m : Memory) (data len : ℕ) (w : W) : Prop :=
  ∀ c, d.enter m data len w = .ok c → TlvStreams.Consumes d.fields m c

theorem consumes_iff : d.Consumes m data len w ↔
    d.Rejects m data len ∨ ∀ v ∈ walk m (following m data len).1 (following m data len).2, v.type ∈ d.types := by
  by_cases hr : d.Rejects m data len
  · obtain ⟨w', hw⟩ := enter_of_rejects (w := w) hr
    refine iff_of_true ?_ (.inl hr)
    intro c hc
    rw [hw] at hc
    cases hc
  · simp only [Consumes, enter_of_accepts hr, Except.ok.injEq, forall_eq', hr, false_or, ← known_iff]
    rw [TlvStreams.consumes_iff, start_walk]

/-- The first TLV lies within the message and has the type that is expected. -/
def Opens (d : Decoder L W R) (m : Memory) (data len : ℕ) : Prop :=
  4 + (visit m data).len ≤ len ∧ (visit m data).type = d.firstType

/-- What was cleared before the checks stays cleared when one of them fails. -/
theorem rejected_unchanged_iff (hfinish : ∀ s, (d.finish s).1 ≠ d.rejected) :
    (∀ fuel w', d.recover m data len w fuel = some (d.rejected, w') → w' = w) ↔
      len < 4 ∨ d.Opens m data len ∨ d.clear w = w := by
  by_cases hlen : len < 4
  · refine iff_of_true (fun fuel w' h => ?_) (.inl hlen)
    rw [recover, enter, if_pos hlen] at h
    exact (congrArg Prod.snd (Option.some.inj h)).symm
  · by_cases hopens : d.Opens m data len
    · refine iff_of_true (fun fuel w' h => ?_) (.inr (.inl hopens))
      have haccepts : ¬ d.Rejects m data len := by
        rintro (h' | h' | h')
        · exact hlen h'
        · exact absurd hopens.1 (Nat.not_le_of_lt h')
        · exact h' hopens.2
      rw [recover_of_accepts haccepts] at h
      obtain ⟨s, -, hs⟩ := Option.map_eq_some_iff.mp h
      exact absurd (congrArg Prod.fst hs) (hfinish s.2)
    · have hmalformed : len < 4 + (visit m data).len ∨ (visit m data).type ≠ d.firstType := by
        rw [Opens, not_and_or, not_le] at hopens
        exact hopens
      have hrecover (fuel : ℕ) : d.recover m data len w fuel = some (d.rejected, d.clear w) := by
        rw [recover, enter, if_neg hlen]
        dsimp only
        rw [if_pos hmalformed]
      simp only [hrecover, Option.some.injEq, Prod.mk.injEq, true_and, hlen, hopens, false_or]
      constructor
      · intro h
        exact h 0 _ rfl
      · rintro hclear fuel w' rfl
        exact hclear

/-- The reads and copies of the checks, of the first TLV and of every pass. -/
structure Safe (d : Decoder L W R) (m : Memory) (lo hi data len : ℕ) (w : W) : Prop where
  header : 4 ≤ len → (Access.read data 4).Safe lo hi
  first : ∀ c, d.enter m data len w = .ok c → ∀ a ∈ d.first.get.accesses (visit m data), a.Safe lo hi
  loop : ∀ c, d.enter m data len w = .ok c → ∀ vs c', Passes (pass d.fields m) c vs c' →
    ∀ a ∈ accesses d.fields m c', a.Safe lo hi

/-- The values that are copied fit their fields. -/
def AllFit (d : Decoder L W R) (m : Memory) (data len : ℕ) : Prop :=
  d.first.get.Fits (visit m data).len ∧
    ∀ v ∈ reached d.fields m (following m data len).1 (following m data len).2, FitsField d.fields v

theorem safe_iff (hlo : lo ≤ data) (hhi : data + len ≤ hi) :
    d.Safe m lo hi data len w ↔ d.Rejects m data len ∨ d.AllFit m data len := by
  by_cases hr : d.Rejects m data len
  · obtain ⟨w', hw⟩ := enter_of_rejects (w := w) hr
    refine iff_of_true ⟨fun hlen => ⟨hlo, by omega⟩, ?_, ?_⟩ (.inl hr)
    · intro c hc
      rw [hw] at hc
      cases hc
    · intro c hc
      rw [hw] at hc
      cases hc
  · have hlen : 4 ≤ len ∧ 4 + (visit m data).len ≤ len := by
      rw [Rejects, not_or, not_or] at hr
      omega
    have henter := enter_of_accepts (w := w) hr
    have hfirst : (∀ a ∈ d.first.get.accesses (visit m data), a.Safe lo hi) ↔ d.first.get.Fits (visit m data).len := by
      apply Get.safe_iff hlo
      change data + 4 + (visit m data).len ≤ hi
      omega
    have hloop : (∀ vs c', Passes (pass d.fields m) (d.start m data len w) vs c' →
        ∀ a ∈ accesses d.fields m c', a.Safe lo hi) ↔
          ∀ v ∈ reached d.fields m (following m data len).1 (following m data len).2, FitsField d.fields v := by
      apply safe_iff_fits
      · simp only [start, Cursor.take]
        omega
      · simp only [start, Cursor.take]
        omega
    simp only [hr, false_or]
    constructor
    · intro h
      exact ⟨hfirst.mp (h.first _ henter), hloop.mp (h.loop _ henter)⟩
    · rintro ⟨hfit, hfits⟩
      refine ⟨fun _ => ⟨hlo, by omega⟩, ?_, ?_⟩
      · intro c _
        exact hfirst.mpr hfit
      · intro c hc
        rw [henter] at hc
        cases hc
        exact hloop.mpr hfits

end Decoder

end TlvStreams
