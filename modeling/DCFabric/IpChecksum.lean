import DCFabric.OnesComplement
import DCFabric.TopoDiscovery

namespace DCFabric

open TlvStreams

/-- The loop over the words and the byte that may be left; `none` is a read past the end of the buffer. -/
def sumWords : ℕ → List UINT1 → UINT4 → Option UINT4
  | size + 2, b₀ :: b₁ :: buffer, cksum => sumWords size buffer (cksum + UInt32.ofNat (leNat [b₀, b₁]))
  | 1, b :: _, cksum => some (cksum + b.toUInt32)
  | 0, _, cksum => some cksum
  | _, _, _ => none

def calc_ip_checksum (buffer : List UINT1) (size : UINT4) : Option UINT2 :=
  (sumWords size.toNat buffer 0).map fun (cksum : UINT4) =>
    let cksum := (cksum >>> 16) + (cksum &&& 0xffff)
    let cksum := cksum + (cksum >>> 16)
    (~~~cksum).toUInt16

/-- The 16-bit words of a buffer, the last byte of an odd one padded by a zero byte. -/
def words : List UINT1 → List ℕ
  | b₀ :: b₁ :: buffer => leNat [b₀, b₁] :: words buffer
  | [b] => [leNat [b, 0]]
  | [] => []

section

variable {buffer before after : List UINT1} {cksum : UINT4} {b₀ b₁ : UINT1} {w : ℕ}

theorem word_lt : leNat [b₀, b₁] < 2 ^ 16 := by simpa using leNat_lt [b₀, b₁]

theorem lt_of_mem_words (h : w ∈ words buffer) : w < 2 ^ 16 := by
  induction buffer using words.induct with
  | case1 b₀ b₁ buffer ih =>
    rcases List.mem_cons.mp h with rfl | h
    · exact word_lt
    · exact ih h
  | case2 b =>
    obtain rfl := List.mem_singleton.mp h
    exact word_lt
  | case3 => cases h

theorem length_words (buffer : List UINT1) : (words buffer).length = (buffer.length + 1) / 2 := by
  induction buffer using words.induct with
  | case1 b₀ b₁ buffer ih =>
    simp only [words, List.length_cons, ih]
    omega
  | case2 b => simp [words]
  | case3 => rfl

theorem words_append (h : Even before.length) : words (before ++ after) = words before ++ words after := by
  induction before using words.induct with
  | case1 b₀ b₁ before ih =>
    have heven : Even before.length := by simpa [Nat.even_add_one] using h
    rw [List.cons_append, List.cons_append, words, words, ih heven, List.cons_append]
  | case2 b => simp at h
  | case3 => rfl

theorem sum_words_le (buffer : List UINT1) : (words buffer).sum ≤ (buffer.length + 1) / 2 * (2 ^ 16 - 1) := by
  rw [← length_words]
  apply List.sum_le_card_nsmul
  intro w hw
  exact Nat.le_sub_one_of_lt (lt_of_mem_words hw)

/-- The accumulator takes the sum of all words if it does not overflow. -/
theorem sumWords_eq (buffer : List UINT1) (cksum : UINT4) (h : cksum.toNat + (words buffer).sum < 2 ^ 32) :
    ∃ total, sumWords buffer.length buffer cksum = some total ∧ total.toNat = cksum.toNat + (words buffer).sum := by
  induction buffer using words.induct generalizing cksum with
  | case1 b₀ b₁ buffer ih =>
    rw [words, List.sum_cons] at h ⊢
    have hstep : (cksum + UInt32.ofNat (leNat [b₀, b₁])).toNat = cksum.toNat + leNat [b₀, b₁] := by
      have hword : leNat [b₀, b₁] < 2 ^ 16 := word_lt
      rw [UInt32.toNat_add, UInt32.toNat_ofNat_of_lt' (hword.trans (by decide)), Nat.mod_eq_of_lt (by omega)]
    obtain ⟨total, hsum, htotal⟩ := ih (cksum + UInt32.ofNat (leNat [b₀, b₁])) (by omega)
    exact ⟨total, hsum, by omega⟩
  | case2 b =>
    refine ⟨cksum + b.toUInt32, rfl, ?_⟩
    simp only [words, leNat, List.sum_cons, List.sum_nil, UInt8.toNat_zero] at h ⊢
    rw [UInt32.toNat_add, UInt8.toNat_toUInt32, Nat.mod_eq_of_lt (by omega)]
    omega
  | case3 => exact ⟨cksum, rfl, by simp [words]⟩

theorem toNat_low (cksum : UINT4) : (cksum &&& 0xffff).toNat = cksum.toNat % 2 ^ 16 := by
  rw [UInt32.toNat_and]
  exact Nat.and_two_pow_sub_one_eq_mod cksum.toNat 16

theorem toNat_high (cksum : UINT4) : (cksum >>> 16).toNat = cksum.toNat / 2 ^ 16 := by
  rw [UInt32.toNat_shiftRight]
  exact Nat.shiftRight_eq_div_pow cksum.toNat 16

/-- The two folds of the code, the second of which the cast to 16 bits completes. -/
theorem checksum_fold {total : UINT4} :
    (let cksum : UINT4 := (total >>> 16) + (total &&& 0xffff)
     (~~~(cksum + (cksum >>> 16))).toUInt16) =
      ~~~UInt16.ofNat (OnesComplement.reduce (2 ^ 16) total.toNat) := by
  have htotal := total.toNat_lt
  have hfirst : ((total >>> 16) + (total &&& 0xffff)).toNat = OnesComplement.fold (2 ^ 16) total.toNat := by
    rw [UInt32.toNat_add, toNat_low, toNat_high, OnesComplement.fold, Nat.mod_eq_of_lt (by omega), Nat.add_comm]
  have hle : OnesComplement.fold (2 ^ 16) total.toNat ≤ 2 * (2 ^ 16 - 1) := OnesComplement.fold_le (by omega)
  have hlt := OnesComplement.fold_lt (by omega) hle
  dsimp only
  generalize (total >>> 16) + (total &&& 0xffff) = cksum at hfirst ⊢
  rw [← OnesComplement.fold_fold (by omega) (by omega), ← hfirst]
  rw [← hfirst] at hle hlt
  rw [UInt32.toUInt16_not]
  congr 1
  apply UInt16.toNat_inj.mp
  rw [UInt32.toNat_toUInt16, UInt32.toNat_add, toNat_high, UInt16.toNat_ofNat_of_lt' hlt, OnesComplement.fold] at *
  omega

theorem calc_ip_checksum_eq (buffer : List UINT1) (h : buffer.length ≤ 65535) :
    calc_ip_checksum buffer (UInt32.ofNat buffer.length) =
      some (~~~UInt16.ofNat (OnesComplement.reduce (2 ^ 16) (words buffer).sum)) := by
  have hsize : (UInt32.ofNat buffer.length).toNat = buffer.length :=
    UInt32.toNat_ofNat_of_lt' (lt_of_le_of_lt h (by decide))
  have hbound := sum_words_le buffer
  have hle : (buffer.length + 1) / 2 * (2 ^ 16 - 1) ≤ 32768 * (2 ^ 16 - 1) := by
    apply Nat.mul_le_mul_right
    omega
  obtain ⟨total, hsum, htotal⟩ := sumWords_eq buffer 0 (by rw [UInt32.toNat_zero]; omega)
  rw [UInt32.toNat_zero, Nat.zero_add] at htotal
  rw [calc_ip_checksum, hsize, hsum, Option.map_some, checksum_fold, htotal]

theorem toNat_complement (n : ℕ) :
    (~~~UInt16.ofNat (OnesComplement.reduce (2 ^ 16) n)).toNat = 2 ^ 16 - 1 - OnesComplement.reduce (2 ^ 16) n := by
  have hlt : OnesComplement.reduce (2 ^ 16) n < 2 ^ 16 := OnesComplement.reduce_lt (by omega)
  rw [UInt16.toNat_not, UInt16.toNat_ofNat_of_lt' hlt]
  rfl

theorem words_stored {cksum : UINT2} (hbefore : Even before.length) :
    (words (before ++ leBytes 2 cksum.toNat ++ after)).sum = (words (before ++ [0, 0] ++ after)).sum + cksum.toNat := by
  have hword : leNat (leBytes 2 cksum.toNat) = cksum.toNat := leNat_leBytes (by simpa using cksum.toNat_lt)
  have hbytes : leBytes 2 cksum.toNat = [UInt8.ofNat cksum.toNat, UInt8.ofNat (cksum.toNat / 256)] := rfl
  rw [hbytes] at hword ⊢
  rw [List.append_assoc, List.append_assoc, words_append hbefore, words_append hbefore]
  simp only [List.cons_append, List.nil_append, words, List.sum_append, List.sum_cons, hword]
  have hzero : leNat [0, 0] = 0 := rfl
  omega

/-- The checksum is the complement of the ones' complement sum, and stored in its zeroed word it makes the checksum of
the whole header zero. -/
theorem ip_checksum_complements :
    (∀ buffer : List UINT1, buffer.length ≤ 65535 → calc_ip_checksum buffer (UInt32.ofNat buffer.length) =
      some (~~~UInt16.ofNat (OnesComplement.sum (2 ^ 16) (words buffer)))) ∧
    ∀ before after : List UINT1, Even before.length → before.length + 2 + after.length ≤ 65535 →
      ∃ cksum, calc_ip_checksum (before ++ [0, 0] ++ after) (UInt32.ofNat (before.length + 2 + after.length)) =
          some cksum ∧
        calc_ip_checksum (before ++ leBytes 2 cksum.toNat ++ after)
          (UInt32.ofNat (before.length + 2 + after.length)) = some 0 := by
  constructor
  · intro buffer hlen
    rw [calc_ip_checksum_eq buffer hlen, OnesComplement.sum_eq (by omega) fun w => lt_of_mem_words]
  · intro before after hbefore hlen
    have hzeroed : (before ++ [0, 0] ++ after).length = before.length + 2 + after.length := by
      simp only [List.length_append, List.length_cons, List.length_nil]
    have hstored (cksum : UINT2) :
        (before ++ leBytes 2 cksum.toNat ++ after).length = before.length + 2 + after.length := by
      simp only [List.length_append, length_leBytes]
    have hfirst := calc_ip_checksum_eq (before ++ [0, 0] ++ after) (by rwa [hzeroed])
    rw [hzeroed] at hfirst
    refine ⟨_, hfirst, ?_⟩
    have hsecond (cksum : UINT2) := calc_ip_checksum_eq (before ++ leBytes 2 cksum.toNat ++ after) (by rwa [hstored])
    rw [← hstored, hsecond, words_stored hbefore, toNat_complement, OnesComplement.reduce_add_complement (by omega)]
    rfl

theorem zeroed_header_complements :
    calc_ip_checksum ([0x45, 0, 0, 0x14] ++ [0, 0] ++ [0x0a, 0]) 8 = some 0xebb0 ∧
      calc_ip_checksum ([0x45, 0, 0, 0x14] ++ leBytes 2 0xebb0 ++ [0x0a, 0]) 8 = some 0 := by
  obtain ⟨cksum, hzeroed, hstored⟩ :=
    ip_checksum_complements.2 [0x45, 0, 0, 0x14] [0x0a, 0] (by decide) (by decide)
  have hcksum : calc_ip_checksum ([0x45, 0, 0, 0x14] ++ [0, 0] ++ [0x0a, 0]) 8 = some 0xebb0 := by decide
  obtain rfl : cksum = 0xebb0 := Option.some.inj (hzeroed.symm.trans hcksum)
  exact ⟨hzeroed, hstored⟩

end

end DCFabric
