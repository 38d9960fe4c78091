import DCFabric.InetText

open TlvStreams InetText

namespace HexText

def COLON : UInt8 := 0x3a

def hexDigit (d : ℕ) : UInt8 := UInt8.ofNat (if d < 10 then 0x30 + d else 0x61 + (d - 10))

/-- `%02x` of a byte. -/
def hexText (b : UInt8) : List UInt8 := [hexDigit (b.toNat / 16), hexDigit (b.toNat % 16)]

/-- Bytes as a printer writes them, with a colon between two of them. -/
def colonText (bytes : List UInt8) : List UInt8 := [COLON].intercalate (bytes.map hexText)

def afterSign : List UInt8 → Bool × List UInt8
  | c :: text => if c = 0x2d then (true, text) else if c = 0x2b then (false, text) else (false, c :: text)
  | [] => (false, [])

def afterHexPrefix : List UInt8 → List UInt8
  | z :: x :: c :: text =>
    if z = DIGIT_ZERO ∧ (x = 0x78 ∨ x = 0x58) ∧ isDigit 16 c then c :: text else z :: x :: c :: text
  | text => text

/-- `strtoul` to the base 16 on a whole text: the number and what is left of the text. -/
def strtoul16 (nptr : List UInt8) : UInt64 × List UInt8 :=
  let (negative, signed) := afterSign (nptr.dropWhile isSpace)
  let text := afterHexPrefix signed
  let digits := text.takeWhile (isDigit 16)
  let value := number 16 digits
  if digits = [] then (0, nptr)
  else if value < 2 ^ 64 then
    (if negative then -UInt64.ofNat value else UInt64.ofNat value, text.dropWhile (isDigit 16))
  else (0xffffffffffffffff, text.dropWhile (isDigit 16))

section

variable {b c : UInt8} {d n : ℕ} {bytes digits rest text : List UInt8}

theorem digit_hexDigit : ∀ d < 16, digit 16 (hexDigit d) = some d := by decide

theorem le_of_isDigit (h : isDigit n c) : 0x30 ≤ c := by
  by_contra hc
  have hletter (low : UInt8) (hlow : 0x30 ≤ low) : ¬low ≤ c := fun hle => hc (UInt8.le_trans hlow hle)
  rw [isDigit, digit, if_neg fun hrange => hc hrange.1, if_neg fun hrange => hletter 0x61 (by decide) hrange.1,
    if_neg fun hrange => hletter 0x41 (by decide) hrange.1] at h
  cases h

/-- What `strtoul` takes off a text before its digits, and a colon, are no digits. -/
theorem of_isDigit (h : isDigit 16 c) : isSpace c = false ∧ c ≠ 0x2d ∧ c ≠ 0x2b ∧ c ≠ 0x78 ∧ c ≠ 0x58 ∧ c ≠ COLON := by
  have hlow := le_of_isDigit h
  have hother (x : UInt8) (hx : isDigit 16 x = false) : c ≠ x := by
    rintro rfl
    rw [h] at hx
    cases hx
  refine ⟨?_, hother _ (by decide), hother _ (by decide), hother _ (by decide), hother _ (by decide),
    hother _ (by decide)⟩
  have hspace : c ≠ 0x20 := hother _ (by decide)
  have htab : ¬c ≤ 0x0d := fun hle => absurd (UInt8.le_trans hlow hle) (by decide)
  simp [isSpace, hspace, htab]

theorem exists_of_mem_hexText (h : c ∈ hexText b) : ∃ d < 16, c = hexDigit d := by
  have hb := b.toNat_lt
  simp only [hexText, List.mem_cons, List.not_mem_nil, or_false] at h
  rcases h with rfl | rfl
  · exact ⟨_, by omega, rfl⟩
  · exact ⟨_, by omega, rfl⟩

theorem isDigit_of_mem_hexText (h : c ∈ hexText b) : isDigit 16 c := by
  obtain ⟨d, hd, rfl⟩ := exists_of_mem_hexText h
  rw [isDigit, digit_hexDigit d hd]
  rfl

theorem colon_notMem_hexText (b : UInt8) : COLON ∉ hexText b :=
  fun h => (of_isDigit (isDigit_of_mem_hexText h)).2.2.2.2.2 rfl

theorem colonText_cons_cons (b next : UInt8) (bytes : List UInt8) :
    colonText (b :: next :: bytes) = hexText b ++ COLON :: colonText (next :: bytes) := by
  simp [colonText, List.intercalate_cons_cons]

theorem colonText_singleton (b : UInt8) : colonText [b] = hexText b := List.intercalate_singleton

/-- The text of the first byte, and behind the colon that may follow it the text of the others. -/
theorem colonText_cons (b : UInt8) (bytes : List UInt8) : ∃ rest, colonText (b :: bytes) = hexText b ++ rest ∧
    rest.head?.all (· = COLON) ∧ rest.tail = colonText bytes := by
  rcases bytes with - | ⟨next, bytes⟩
  · exact ⟨[], by rw [colonText_singleton, List.append_nil], rfl, rfl⟩
  · exact ⟨COLON :: colonText (next :: bytes), colonText_cons_cons b next bytes, rfl, rfl⟩

theorem strtok_colonText (bytes : List UInt8) : strtok COLON (colonText bytes) = bytes.map hexText := by
  have hcolon : ∀ text ∈ bytes.map hexText, COLON ∉ text := by
    intro text htext
    obtain ⟨b, -, rfl⟩ := List.mem_map.mp htext
    exact colon_notMem_hexText b
  rw [colonText, strtok_intercalate hcolon, List.filter_eq_self]
  intro text htext
  obtain ⟨b, -, rfl⟩ := List.mem_map.mp htext
  rfl

theorem length_colonText (bytes : List UInt8) : (colonText bytes).length = 3 * bytes.length - 1 := by
  induction bytes with
  | nil => rfl
  | cons b bytes ih =>
    rcases bytes with - | ⟨next, bytes⟩
    · rfl
    · rw [colonText_cons_cons, List.length_append, List.length_cons, ih]
      simp only [hexText, List.length_cons, List.length_nil]
      omega

theorem isDigit_of_mem_flatMap (h : c ∈ bytes.flatMap hexText) : isDigit 16 c := by
  obtain ⟨b, -, hc⟩ := List.mem_flatMap.mp h
  exact isDigit_of_mem_hexText hc

theorem number_flatMap (bytes : List UInt8) : number 16 (bytes.flatMap hexText) = leNat bytes.reverse := by
  have hfrom (n : ℕ) : (bytes.flatMap hexText).foldl (fun n c => 16 * n + (digit 16 c).getD 0) n =
      bytes.foldl (fun n b => b.toNat + 256 * n) n := by
    induction bytes generalizing n with
    | nil => rfl
    | cons b bytes ih =>
      have hb := b.toNat_lt
      have hbyte : 16 * (16 * n + b.toNat / 16) + b.toNat % 16 = b.toNat + 256 * n := by omega
      rw [List.flatMap_cons, List.foldl_append, List.foldl_cons, ih]
      simp only [hexText, List.foldl_cons, List.foldl_nil]
      rw [digit_hexDigit _ (by omega), digit_hexDigit _ (by omega), Option.getD_some, Option.getD_some, hbyte]
  have hle (bs : List UInt8) : leNat bs = bs.foldr (fun b n => b.toNat + 256 * n) 0 := by
    induction bs with
    | nil => rfl
    | cons b bs ih => rw [leNat, ih, List.foldr_cons]
  rw [number, hfrom, hle, List.foldr_reverse]

theorem number_hexText (b : UInt8) : number 16 (hexText b) = b.toNat := by
  simpa [leNat] using number_flatMap [b]

theorem afterHexPrefix_digits (hdigits : ∀ c ∈ digits, isDigit 16 c) (hrest : rest.head?.all (· = COLON))
    (hne : digits ≠ []) : afterHexPrefix (digits ++ rest) = digits ++ rest := by
  have hx : (digits ++ rest).tail.head?.all fun x => x ≠ 0x78 ∧ x ≠ 0x58 := by
    rcases digits with - | ⟨c, - | ⟨x, digits⟩⟩
    · exact absurd rfl hne
    · rcases rest with - | ⟨x, rest⟩
      · rfl
      · obtain rfl : x = COLON := by simpa using hrest
        rfl
    · have hdigit := of_isDigit (hdigits x (by simp))
      simpa using ⟨hdigit.2.2.2.1, hdigit.2.2.2.2.1⟩
  generalize digits ++ rest = text at hx ⊢
  rcases text with - | ⟨z, - | ⟨x, - | ⟨c, text⟩⟩⟩
  · rfl
  · rfl
  · rfl
  · obtain ⟨hlower, hupper⟩ : x ≠ 0x78 ∧ x ≠ 0x58 := by simpa using hx
    rw [afterHexPrefix, if_neg]
    rintro ⟨-, hx, -⟩
    exact hx.elim hlower hupper

/-- Digits that a colon or the end of the text follows. -/
theorem strtoul16_digits (hdigits : ∀ c ∈ digits, isDigit 16 c) (hrest : rest.head?.all (· = COLON))
    (hne : digits ≠ []) (hlt : number 16 digits < 2 ^ 64) :
    strtoul16 (digits ++ rest) = (UInt64.ofNat (number 16 digits), rest) := by
  have hstop : rest.takeWhile (isDigit 16) = [] ∧ rest.dropWhile (isDigit 16) = rest := by
    rcases rest with - | ⟨x, rest⟩
    · exact ⟨rfl, rfl⟩
    · obtain rfl : x = COLON := by simpa using hrest
      exact ⟨rfl, rfl⟩
  have hsigned : afterSign ((digits ++ rest).dropWhile isSpace) = (false, digits ++ rest) := by
    rcases digits with - | ⟨c, digits⟩
    · exact absurd rfl hne
    · obtain ⟨hspace, hminus, hplus, -⟩ := of_isDigit (hdigits c (by simp))
      rw [List.cons_append, List.dropWhile_cons_of_neg (by simp [hspace]), afterSign, if_neg hminus, if_neg hplus]
  rw [strtoul16, hsigned]
  dsimp only
  rw [afterHexPrefix_digits hdigits hrest hne, List.takeWhile_append_of_pos hdigits,
    List.dropWhile_append_of_pos hdigits, hstop.1, hstop.2, List.append_nil, if_neg hne, if_pos hlt, if_neg (by simp)]

theorem strtoul16_hexText (hrest : rest.head?.all (· = COLON)) :
    strtoul16 (hexText b ++ rest) = (UInt64.ofNat b.toNat, rest) := by
  have hlt : number 16 (hexText b) < 2 ^ 64 := by
    rw [number_hexText]
    exact b.toNat_lt.trans (by omega)
  rw [strtoul16_digits (fun c => isDigit_of_mem_hexText) hrest (List.cons_ne_nil _ _) hlt, number_hexText]

end

end HexText
