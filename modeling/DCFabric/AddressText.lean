import DCFabric.BncTypes
import DCFabric.HexText

namespace DCFabric

open TlvStreams InetText HexText

def mac2str (hex : Vector UINT1 6) : List UINT1 := colonText hex.toList

/-- A buffer once bytes are written from its start on. -/
def overwrite (bytes result : List UINT1) : List UINT1 := bytes ++ result.drop bytes.length

/-- The bytes that the loop of `macstr2hex` reads from `s` on; behind the end of the text `s` stays. -/
def macBytes : ℕ → List UINT1 → List UINT1
  | 0, _ => []
  | i + 1, s =>
    let (value, e) := strtoul16 s
    value.toUInt8 :: macBytes i e.tail

/-- A null pointer is `none`. -/
def macstr2hex (macstr result : Option (List UINT1)) : Option (List UINT1) :=
  match macstr, result with
  | some macstr, some result => some (overwrite (macBytes 6 macstr) result)
  | _, _ => result

def SwitchChar (chStr : UINT1) : UINT1 :=
  if 0x30 ≤ chStr ∧ chStr ≤ 0x39 then chStr - 0x30
  -- from 'A' to 'f', which takes the small letters as well
  else if 0x41 ≤ chStr ∧ chStr ≤ 0x66 then chStr - 0x41 + 10
  else if 0x61 ≤ chStr ∧ chStr ≤ 0x66 then chStr - 0x61 + 10
  else 0

/-- The byte of a token, whose end is a zero byte. -/
def tokenByte (pchStr : List UINT1) : UINT1 :=
  (SwitchChar (pchStr.headD 0) <<< 4) ||| SwitchChar (pchStr.tail.headD 0)

def strmac2hex (macstr result : Option (List UINT1)) : Option (List UINT1) :=
  match macstr, result with
  | some macstr, some result => some (overwrite ((strtok COLON macstr).map tokenByte) result)
  | _, _ => result

def uint8ToStr (value : UINT8) : List UINT1 :=
  [((value >>> 56) &&& 0xff).toUInt8, ((value >>> 48) &&& 0xff).toUInt8, ((value >>> 40) &&& 0xff).toUInt8,
    ((value >>> 32) &&& 0xff).toUInt8, ((value >>> 24) &&& 0xff).toUInt8, ((value >>> 16) &&& 0xff).toUInt8,
    ((value >>> 8) &&& 0xff).toUInt8, ((value >>> 0) &&& 0xff).toUInt8]

def dpidUint8ToStr (ori_dpid : UINT8) : List UINT1 := colonText (uint8ToStr ori_dpid)

/-- The digits that the loop of `dpidStr2Uint8` takes from the letters before it, while `tmp` has room for more. -/
def dpidDigits : ℕ → List UINT1 → Option (List UINT1)
  | room + 1, c :: dpid =>
    if c = COLON then dpidDigits (room + 1) dpid
    else if (c ≤ 0x39 ∧ 0x30 ≤ c) ∨ (c ≤ 0x66 ∧ 0x61 ≤ c) ∨ (c ≤ 0x46 ∧ 0x41 ≤ c) then
      (dpidDigits room dpid).map (c :: ·)
    else none
  | _, _ => some []

/-- The result and what `ret` points to. -/
def dpidStr2Uint8 (dpid : Option (List UINT1)) (ret : UINT8) : INT4 × UINT8 :=
  match dpid with
  | none => (-1, ret)
  | some dpid =>
    if Int32.ofNat dpid.length < 23 then (-1, ret)
    else match dpidDigits 16 (dpid.take 23) with
      | none => (-1, ret)
      | some tmp => (0, (strtoul16 tmp).1)

section

variable {b c : UINT1} {bytes rest result : List UINT1} {room : ℕ}

theorem macBytes_colonText (bytes : List UINT1) : macBytes bytes.length (colonText bytes) = bytes := by
  induction bytes with
  | nil => rfl
  | cons b bytes ih =>
    obtain ⟨rest, htext, hrest, htail⟩ := colonText_cons b bytes
    rw [htext, List.length_cons, macBytes, strtoul16_hexText hrest]
    dsimp only
    rw [htail, ih]
    simp

theorem macstr2hex_mac2str (m : Vector UINT1 6) (result : List UINT1) :
    macstr2hex (some (mac2str m)) (some result) = some (overwrite m.toList result) := by
  have hbytes := macBytes_colonText m.toList
  rw [Vector.length_toList] at hbytes
  rw [macstr2hex, mac2str, hbytes]

/-- The sixth bit of a byte is set when its second digit is a letter. -/
theorem tokenByte_hexText (b : UINT1) : tokenByte (hexText b) = if b.toNat % 16 < 10 then b else b ||| 0x20 := by
  have hall : ∀ n < 256, tokenByte (hexText (UInt8.ofNat n)) =
      if (UInt8.ofNat n).toNat % 16 < 10 then UInt8.ofNat n else UInt8.ofNat n ||| 0x20 := by decide +kernel
  simpa using hall b.toNat b.toNat_lt

theorem or_eq_iff (b : UINT1) : b ||| 0x20 = b ↔ b &&& 0x20 ≠ 0 := by
  have hall : ∀ n < 256, UInt8.ofNat n ||| 0x20 = UInt8.ofNat n ↔ UInt8.ofNat n &&& 0x20 ≠ 0 := by decide +kernel
  simpa using hall b.toNat b.toNat_lt

theorem tokenByte_hexText_iff : tokenByte (hexText b) = b ↔ b.toNat % 16 < 10 ∨ b &&& 0x20 ≠ 0 := by
  rw [tokenByte_hexText]
  split_ifs with hb
  · simp [hb]
  · rw [or_eq_iff]
    simp [hb]

theorem strmac2hex_mac2str_iff (m : Vector UINT1 6) (result : List UINT1) :
    strmac2hex (some (mac2str m)) (some result) = some (overwrite m.toList result) ↔
      ∀ b ∈ m.toList, b.toNat % 16 < 10 ∨ b &&& 0x20 ≠ 0 := by
  rw [strmac2hex, mac2str, strtok_colonText, List.map_map, Option.some_inj]
  have hlen : (m.toList.map (tokenByte ∘ hexText)).length = m.toList.length := List.length_map _
  rw [overwrite, overwrite, hlen, List.append_left_inj]
  simp only [← tokenByte_hexText_iff]
  simpa using List.map_inj_left (l := m.toList) (f := tokenByte ∘ hexText) (g := id)

theorem shifted_byte (value : UINT8) {k : UINT8} {n : ℕ} (hk : 2 ^ (k.toNat % 64) = n) :
    ((value >>> k) &&& 0xff).toUInt8 = UInt8.ofNat (value.toNat / n) := by
  apply UInt8.toNat_inj.mp
  rw [UInt64.toNat_toUInt8, UInt64.toNat_and, UInt64.toNat_shiftRight, Nat.shiftRight_eq_div_pow, hk]
  rw [show UInt64.toNat 0xff = 2 ^ 8 - 1 from rfl, Nat.and_two_pow_sub_one_eq_mod, UInt8.toNat_ofNat']
  exact Nat.mod_mod _ _

theorem uint8ToStr_eq (value : UINT8) : uint8ToStr value = (leBytes 8 value.toNat).reverse := by
  rw [uint8ToStr, shifted_byte value (n := 256 ^ 7) rfl, shifted_byte value (n := 256 ^ 6) rfl,
    shifted_byte value (n := 256 ^ 5) rfl, shifted_byte value (n := 256 ^ 4) rfl,
    shifted_byte value (n := 256 ^ 3) rfl, shifted_byte value (n := 256 ^ 2) rfl, shifted_byte value (n := 256) rfl,
    shifted_byte value (n := 1) rfl, Nat.div_one]
  simp only [leBytes, Nat.div_div_eq_div_mul]
  rfl

theorem dpidDigits_hexText (b : UINT1) (rest : List UINT1) :
    dpidDigits (room + 2) (hexText b ++ rest) = (dpidDigits room rest).map (hexText b ++ ·) := by
  have hdigit : ∀ d < 16, (hexDigit d ≤ 0x39 ∧ 0x30 ≤ hexDigit d) ∨ (hexDigit d ≤ 0x66 ∧ 0x61 ≤ hexDigit d) ∨
      (hexDigit d ≤ 0x46 ∧ 0x41 ≤ hexDigit d) := by decide
  have hstep (room : ℕ) (c : UINT1) (rest : List UINT1) (hc : c ∈ hexText b) :
      dpidDigits (room + 1) (c :: rest) = (dpidDigits room rest).map (c :: ·) := by
    have hcolon : c ≠ COLON := fun h => colon_notMem_hexText b (h ▸ hc)
    obtain ⟨d, hd, rfl⟩ := exists_of_mem_hexText hc
    rw [dpidDigits, if_neg hcolon, if_pos (hdigit d hd)]
  rw [hexText, List.cons_append, List.cons_append, List.nil_append]
  rw [hstep (room + 1) _ _ (by simp [hexText]), hstep room _ _ (by simp [hexText]), Option.map_map]
  rfl

theorem dpidDigits_colonText (bytes : List UINT1) :
    dpidDigits (2 * bytes.length) (colonText bytes) = some (bytes.flatMap hexText) := by
  induction bytes with
  | nil => rfl
  | cons b bytes ih =>
    rcases bytes with - | ⟨next, bytes⟩
    · rw [colonText_singleton, ← List.append_nil (hexText b)]
      exact dpidDigits_hexText b []
    · have hcolon : dpidDigits (2 * (next :: bytes).length) (COLON :: colonText (next :: bytes)) =
          dpidDigits (2 * (next :: bytes).length) (colonText (next :: bytes)) := by
        rw [List.length_cons, Nat.mul_succ, dpidDigits, if_pos rfl]
      rw [colonText_cons_cons, List.length_cons, Nat.mul_succ, dpidDigits_hexText, hcolon, ih]
      rfl

theorem dpidStr2Uint8_dpidUint8ToStr (d ret : UINT8) : dpidStr2Uint8 (some (dpidUint8ToStr d)) ret = (0, d) := by
  have hbytes : (uint8ToStr d).length = 8 := rfl
  have htext : (dpidUint8ToStr d).length = 23 := by rw [dpidUint8ToStr, length_colonText, hbytes]
  have hdigits : dpidDigits 16 (dpidUint8ToStr d) = some ((uint8ToStr d).flatMap hexText) :=
    dpidDigits_colonText (uint8ToStr d)
  have hvalue : number 16 ((uint8ToStr d).flatMap hexText) = d.toNat := by
    rw [number_flatMap, uint8ToStr_eq, List.reverse_reverse, leNat_leBytes d.toNat_lt]
  have hread : strtoul16 ((uint8ToStr d).flatMap hexText ++ []) = (UInt64.ofNat d.toNat, []) := by
    rw [strtoul16_digits (fun c => isDigit_of_mem_flatMap) rfl (by simp [uint8ToStr, hexText])
      (hvalue ▸ d.toNat_lt), hvalue]
  rw [List.append_nil] at hread
  rw [dpidStr2Uint8, htext, if_neg (by decide), List.take_of_length_le htext.le, hdigits]
  dsimp only
  rw [hread, UInt64.ofNat_toNat]

/-- Both parsers undo the printers except where `strmac2hex` reads a small letter as the second digit of a byte whose
sixth bit is clear. -/
theorem addresses_read_back_iff (m : Vector UINT1 6) (d ret : UINT8) (result : List UINT1) :
    (macstr2hex (some (mac2str m)) (some result) = some (overwrite m.toList result) ∧
      strmac2hex (some (mac2str m)) (some result) = some (overwrite m.toList result) ∧
      dpidStr2Uint8 (some (dpidUint8ToStr d)) ret = (0, d)) ↔
      ∀ b ∈ m.toList, b.toNat % 16 < 10 ∨ b &&& 0x20 ≠ 0 := by
  rw [← strmac2hex_mac2str_iff m result]
  constructor
  · rintro ⟨-, hstr, -⟩
    exact hstr
  · intro hstr
    exact ⟨macstr2hex_mac2str m result, hstr, dpidStr2Uint8_dpidUint8ToStr d ret⟩

/-- `00:00:00:00:00:0a` is read as `00:00:00:00:00:2a`. -/
theorem small_letter_misread :
    ¬∀ (m : Vector UINT1 6) (d ret : UINT8) (result : List UINT1),
      macstr2hex (some (mac2str m)) (some result) = some (overwrite m.toList result) ∧
        strmac2hex (some (mac2str m)) (some result) = some (overwrite m.toList result) ∧
        dpidStr2Uint8 (some (dpidUint8ToStr d)) ret = (0, d) := by
  intro h
  obtain ⟨-, hstr, -⟩ := h #v[0, 0, 0, 0, 0, 0x0a] 0 0 []
  revert hstr
  decide

end

end DCFabric
