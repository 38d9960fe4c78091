import DCFabric.TlvStreams

open TlvStreams

namespace InetText

def FULL_STOP : UInt8 := 0x2e
def COMMA : UInt8 := 0x2c
def DIGIT_ZERO : UInt8 := 0x30

/-- The value of a digit of a number to the base `base`, which is at most 16. -/
def digit (base : ℕ) (c : UInt8) : Option ℕ :=
  let value :=
    if 0x30 ≤ c ∧ c ≤ 0x39 then some (c.toNat - 0x30)
    else if 0x61 ≤ c ∧ c ≤ 0x66 then some (c.toNat - 0x61 + 10)
    else if 0x41 ≤ c ∧ c ≤ 0x46 then some (c.toNat - 0x41 + 10)
    else none
  value.filter (· < base)

def isDigit (base : ℕ) (c : UInt8) : Bool := (digit base c).isSome

def number (base : ℕ) (digits : List UInt8) : ℕ := digits.foldl (fun n c => base * n + (digit base c).getD 0) 0

/-- The base that `strtoul` takes for 0, and where the digits begin. -/
def strtoulBase (text : List UInt8) : ℕ × List UInt8 :=
  if text.head? = some DIGIT_ZERO then
    match text.tail with
    | x :: c :: rest => if (x = 0x78 ∨ x = 0x58) ∧ isDigit 16 c then (16, c :: rest) else (8, text)
    | _ => (8, text)
  else (10, text)

/-- `strtoul` on a text that begins with a decimal digit: the number and what is left of the text. -/
def strtoul (text : List UInt8) : ℕ × List UInt8 :=
  let (base, text) := strtoulBase text
  (number base (text.takeWhile (isDigit base)), text.dropWhile (isDigit base))

def isSpace (c : UInt8) : Bool := c = 0x20 || (0x09 ≤ c && c ≤ 0x0d)

/-- An address from a part of it on, where `left` more dots may come and `word` has the parts before; the last part
takes the bytes that are left. -/
def inet_parts (left word : ℕ) (text : List UInt8) : Option ℕ :=
  if (text.head?.map (isDigit 10)).getD false then
    let (val, rest) := strtoul text
    if rest.head? = some FULL_STOP then
      match left with
      | 0 => none
      | left + 1 => if val ≤ 0xff then inet_parts left (word + val * 256 ^ (left + 1)) rest.tail else none
    else if (rest.head?.map isSpace).getD true ∧ val < 256 ^ (left + 1) then some (word + val)
    else none
  else none

/-- An address in the order of the network, or `INADDR_NONE`. -/
def inet_addr (text : List UInt8) : UInt32 :=
  match inet_parts 3 0 text with
  | some word => UInt32.ofNat (leNat (leBytes 4 word).reverse)
  | none => 0xffffffff

def decimalDigit (d : ℕ) : UInt8 := UInt8.ofNat (0x30 + d)

/-- `%d` of a byte. -/
def byteText (b : UInt8) : List UInt8 :=
  let n := b.toNat
  if n < 10 then [decimalDigit n]
  else if n < 100 then [decimalDigit (n / 10), decimalDigit (n % 10)]
  else [decimalDigit (n / 100), decimalDigit (n / 10 % 10), decimalDigit (n % 10)]

def inet_ntoa (s_addr : UInt32) : List UInt8 := [FULL_STOP].intercalate ((leBytes 4 s_addr.toNat).map byteText)

/-- The tokens that `strtok` finds one after the other. -/
def strtok (sep : UInt8) (text : List UInt8) : List (List UInt8) := (text.splitOn sep).filter (· ≠ [])

section

variable {b : UInt8} {text rest : List UInt8} {left word : ℕ}

/-- The base in which `byteText` is read. -/
def byteBase (b : UInt8) : ℕ := if b = 0 then 8 else 10

theorem digit_decimalDigit : ∀ d < 10, digit 10 (decimalDigit d) = some d := by decide

theorem decimalDigit_ne : ∀ d < 10, decimalDigit d ≠ COMMA ∧ (d ≠ 0 → decimalDigit d ≠ DIGIT_ZERO) := by decide

theorem exists_digits (b : UInt8) : ∃ d ds, byteText b = (d :: ds).map decimalDigit ∧ (∀ c ∈ d :: ds, c < 10) ∧
    (b ≠ 0 → d ≠ 0) ∧ (d :: ds).foldl (fun n d => 10 * n + d) 0 = b.toNat := by
  have hb := b.toNat_lt
  have hzero : b ≠ 0 → b.toNat ≠ 0 := fun hne h => hne (UInt8.toNat_inj.mp h)
  rw [byteText]
  split_ifs with hone htwo
  · exact ⟨_, [], rfl, by simpa using hone, hzero, by simp⟩
  · refine ⟨_, [_], rfl, ?_, fun _ => by omega, ?_⟩
    · simp only [List.mem_cons, List.not_mem_nil, or_false, forall_eq_or_imp, forall_eq]
      omega
    · simp only [List.foldl_cons, List.foldl_nil]
      omega
  · refine ⟨_, [_, _], rfl, ?_, fun _ => by omega, ?_⟩
    · simp only [List.mem_cons, List.not_mem_nil, or_false, forall_eq_or_imp, forall_eq]
      omega
    · simp only [List.foldl_cons, List.foldl_nil]
      omega

theorem number_decimalDigits {ds : List ℕ} (h : ∀ d ∈ ds, d < 10) :
    number 10 (ds.map decimalDigit) = ds.foldl (fun n d => 10 * n + d) 0 := by
  rw [number, List.foldl_map]
  apply List.foldl_ext
  intro n d hd
  rw [digit_decimalDigit d (h d hd)]
  rfl

theorem byteText_digits (b : UInt8) : ∀ c ∈ byteText b, isDigit (byteBase b) c ∧ c ≠ COMMA := by
  by_cases hb : b = 0
  · subst hb
    intro c hc
    obtain rfl : c = DIGIT_ZERO := List.mem_singleton.mp hc
    exact ⟨rfl, by decide⟩
  · obtain ⟨d, ds, htext, hds, -⟩ := exists_digits b
    intro c hc
    rw [htext] at hc
    obtain ⟨x, hx, rfl⟩ := List.mem_map.mp hc
    rw [byteBase, if_neg hb, isDigit, digit_decimalDigit x (hds x hx)]
    exact ⟨rfl, (decimalDigit_ne x (hds x hx)).1⟩

theorem number_byteText (b : UInt8) : number (byteBase b) (byteText b) = b.toNat := by
  by_cases hb : b = 0
  · subst hb
    decide
  · obtain ⟨d, ds, htext, hds, -, hvalue⟩ := exists_digits b
    rw [byteBase, if_neg hb, htext, number_decimalDigits hds, hvalue]

theorem head_byteText (b : UInt8) : byteText b ≠ [] ∧ (b ≠ 0 → (byteText b).head? ≠ some DIGIT_ZERO) ∧
    ((byteText b).head?.map (isDigit 10)).getD false = true := by
  obtain ⟨d, ds, htext, hds, hzero, -⟩ := exists_digits b
  have hd := (List.forall_mem_cons.mp hds).1
  rw [htext, List.map_cons, List.head?_cons]
  refine ⟨List.cons_ne_nil _ _, fun hb hsame => (decimalDigit_ne d hd).2 (hzero hb) (Option.some.inj hsame), ?_⟩
  rw [Option.map_some, Option.getD_some, isDigit, digit_decimalDigit d hd]
  rfl

theorem strtoulBase_byteText (hrest : rest.head?.all (· = FULL_STOP)) :
    strtoulBase (byteText b ++ rest) = (byteBase b, byteText b ++ rest) := by
  obtain ⟨hne, hzero, -⟩ := head_byteText b
  have hhead : (byteText b ++ rest).head? = (byteText b).head? := List.head?_append_of_ne_nil _ hne
  by_cases hb : b = 0
  · subst hb
    have htext : byteText 0 = [DIGIT_ZERO] := rfl
    rw [strtoulBase, hhead, htext, if_pos (show [DIGIT_ZERO].head? = some DIGIT_ZERO from rfl)]
    rcases rest with - | ⟨x, - | ⟨c, rest⟩⟩
    · rfl
    · rfl
    · obtain rfl : x = FULL_STOP := by simpa using hrest
      rfl
  · rw [strtoulBase, hhead, if_neg (hzero hb), byteBase, if_neg hb]

theorem strtoul_byteText (hrest : rest.head?.all (· = FULL_STOP)) :
    strtoul (byteText b ++ rest) = (b.toNat, rest) := by
  have hstop : rest.takeWhile (isDigit (byteBase b)) = [] ∧ rest.dropWhile (isDigit (byteBase b)) = rest := by
    rcases rest with - | ⟨x, rest⟩
    · exact ⟨rfl, rfl⟩
    · obtain rfl : x = FULL_STOP := by simpa using hrest
      have hnot : isDigit (byteBase b) FULL_STOP = false := by rw [isDigit, digit]; rfl
      simp [hnot]
  have hall : ∀ c ∈ byteText b, isDigit (byteBase b) c := fun c hc => (byteText_digits b c hc).1
  rw [strtoul, strtoulBase_byteText hrest]
  dsimp only
  rw [List.takeWhile_append_of_pos hall, List.dropWhile_append_of_pos hall, hstop.1, hstop.2, List.append_nil,
    number_byteText]

theorem inet_parts_dot :
    inet_parts (left + 1) word (byteText b ++ FULL_STOP :: rest) =
      inet_parts left (word + b.toNat * 256 ^ (left + 1)) rest := by
  obtain ⟨hne, -, hdigit⟩ := head_byteText b
  have hb := b.toNat_lt
  rw [inet_parts, List.head?_append_of_ne_nil _ hne, if_pos hdigit, strtoul_byteText (by simp)]
  dsimp only
  rw [if_pos List.head?_cons, if_pos (by omega), List.tail_cons]

theorem inet_parts_last : inet_parts 0 word (byteText b) = some (word + b.toNat) := by
  obtain ⟨hne, -, hdigit⟩ := head_byteText b
  have hb := b.toNat_lt
  have hlast : strtoul (byteText b ++ []) = (b.toNat, []) := strtoul_byteText rfl
  rw [List.append_nil] at hlast
  rw [inet_parts, if_pos hdigit, hlast]
  dsimp only
  rw [if_neg (by simp), if_pos ⟨rfl, by omega⟩]

theorem inet_ntoa_eq (s_addr : UInt32) :
    ∃ a b c d, leBytes 4 s_addr.toNat = [a, b, c, d] ∧ inet_ntoa s_addr =
      byteText a ++ FULL_STOP :: (byteText b ++ FULL_STOP :: (byteText c ++ FULL_STOP :: byteText d)) := by
  refine ⟨_, _, _, _, rfl, ?_⟩
  simp [inet_ntoa, leBytes, List.intercalate_cons_cons]

theorem inet_addr_inet_ntoa (s_addr : UInt32) : inet_addr (inet_ntoa s_addr) = s_addr := by
  obtain ⟨a, b, c, d, hbytes, htext⟩ := inet_ntoa_eq s_addr
  have hvalue : leNat (leBytes 4 s_addr.toNat) = s_addr.toNat := leNat_leBytes s_addr.toNat_lt
  have hword : a.toNat * 256 ^ 3 + b.toNat * 256 ^ 2 + c.toNat * 256 ^ 1 + d.toNat = leNat [d, c, b, a] := by
    simp only [leNat]
    omega
  have hback : leBytes 4 (leNat [d, c, b, a]) = [d, c, b, a] := leBytes_leNat [d, c, b, a]
  rw [inet_addr, htext, inet_parts_dot, inet_parts_dot, inet_parts_dot, inet_parts_last, Nat.zero_add, hword]
  dsimp only
  rw [hback, show [d, c, b, a].reverse = [a, b, c, d] from rfl, ← hbytes, hvalue, UInt32.ofNat_toNat]

theorem inet_ntoa_ne_nil (s_addr : UInt32) : inet_ntoa s_addr ≠ [] := by
  obtain ⟨a, b, c, d, -, htext⟩ := inet_ntoa_eq s_addr
  rw [htext]
  exact List.append_ne_nil_of_left_ne_nil (head_byteText a).1 _

theorem comma_notMem_inet_ntoa (s_addr : UInt32) : COMMA ∉ inet_ntoa s_addr := by
  obtain ⟨a, b, c, d, -, htext⟩ := inet_ntoa_eq s_addr
  have hbyte : ∀ b, COMMA ∉ byteText b := fun b hmem => (byteText_digits b COMMA hmem).2 rfl
  have hdot : COMMA ≠ FULL_STOP := by decide
  simp only [htext, List.mem_append, List.mem_cons, not_or]
  exact ⟨hbyte a, hdot, hbyte b, hdot, hbyte c, hdot, hbyte d⟩

end

section

variable {α : Type} {sep : α}

/-- What the first `n` letters of joined texts are joined from. -/
def cutTexts : ℕ → List (List α) → List (List α)
  | _, [] => []
  | n, text :: texts => if n ≤ text.length then [text.take n] else text :: cutTexts (n - text.length - 1) texts

theorem exists_of_mem_cutTexts {n : ℕ} {text : List α} {texts : List (List α)} (h : text ∈ cutTexts n texts) :
    ∃ t ∈ texts, text <+: t := by
  induction texts generalizing n with
  | nil => cases h
  | cons t texts ih =>
    rw [cutTexts] at h
    split_ifs at h with hn
    · rw [List.mem_singleton.mp h]
      exact ⟨t, List.mem_cons_self, List.take_prefix n t⟩
    · rcases List.mem_cons.mp h with rfl | h
      · exact ⟨text, List.mem_cons_self, List.prefix_rfl⟩
      · obtain ⟨u, hu, htext⟩ := ih h
        exact ⟨u, List.mem_cons_of_mem t hu, htext⟩

theorem take_intercalate (n : ℕ) (texts : List (List α)) :
    ([sep].intercalate texts).take n = [sep].intercalate (cutTexts n texts) := by
  induction texts generalizing n with
  | nil => rw [cutTexts, List.intercalate_nil, List.take_nil]
  | cons text texts ih =>
    rw [cutTexts]
    rcases texts with - | ⟨next, texts⟩
    · split_ifs with hn
      · rw [List.intercalate_singleton, List.intercalate_singleton]
      · rw [cutTexts, List.intercalate_singleton, List.take_of_length_le (by omega)]
    · rw [List.intercalate_cons_cons, List.append_assoc]
      split_ifs with hn
      · rw [List.intercalate_singleton, List.take_append_of_le_length hn]
      · have hne : cutTexts (n - text.length - 1) (next :: texts) ≠ [] := by
          rw [cutTexts]
          split_ifs
          · exact List.cons_ne_nil _ _
          · exact List.cons_ne_nil _ _
        obtain ⟨k, hk⟩ : ∃ k, n - text.length = k + 1 := ⟨n - text.length - 1, by omega⟩
        rw [List.intercalate_cons_of_ne_nil hne, ← ih, List.take_append, List.take_of_length_le (by omega), hk,
          List.append_assoc, List.singleton_append, List.singleton_append, List.take_succ_cons, Nat.add_sub_cancel]

end

theorem strtok_intercalate {sep : UInt8} {texts : List (List UInt8)} (h : ∀ text ∈ texts, sep ∉ text) :
    strtok sep ([sep].intercalate texts) = texts.filter (· ≠ []) := by
  rcases texts with - | ⟨text, texts⟩
  · rfl
  · rw [strtok, List.splitOn_intercalate sep h (List.cons_ne_nil _ _)]

end InetText
