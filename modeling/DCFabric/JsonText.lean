import DCFabric.Nesting

namespace JsonText

open Nesting

def quote : UInt8 := 0x22
def comma : UInt8 := 0x2C
def colon : UInt8 := 0x3A
def backslash : UInt8 := 0x5C
def openBracket : UInt8 := 0x5B
def closeBracket : UInt8 := 0x5D
def openBrace : UInt8 := 0x7B
def closeBrace : UInt8 := 0x7D

-- space, tab, line feed, carriage return
def Blank (l : List UInt8) : Prop := ∀ b ∈ l, b ∈ [0x20, 0x09, 0x0A, 0x0D]

def IsDigit (b : UInt8) : Prop := 0x30 ≤ b ∧ b ≤ 0x39

def Digits (l : List UInt8) : Prop := l ≠ [] ∧ ∀ b ∈ l, IsDigit b

def IsHex (b : UInt8) : Prop := IsDigit b ∨ 0x41 ≤ b ∧ b ≤ 0x46 ∨ 0x61 ≤ b ∧ b ≤ 0x66

-- a zero, or digits that do not begin with one
def Int (l : List UInt8) : Prop := l = [0x30] ∨ Digits l ∧ l.head? ≠ some 0x30

inductive Number : List UInt8 → Prop
  | mk {minus int frac exp : List UInt8} (hminus : minus = [] ∨ minus = [0x2D]) (hint : Int int)
    (hfrac : frac = [] ∨ ∃ digits, Digits digits ∧ frac = 0x2E :: digits)
    (hexp : exp = [] ∨ ∃ e sign digits, e ∈ [0x65, 0x45] ∧ sign ∈ [[], [0x2B], [0x2D]] ∧ Digits digits ∧
      exp = e :: (sign ++ digits)) : Number (minus ++ int ++ frac ++ exp)

/-- What stands between the quotes of a string. -/
inductive Chars : List UInt8 → Prop
  | nil : Chars []
  | plain {b : UInt8} {l : List UInt8} (hb : 0x20 ≤ b ∧ b ≠ quote ∧ b ≠ backslash) (hl : Chars l) : Chars (b :: l)
  -- one of the quote, the backslash, the slash and b, f, n, r, t
  | escape {b : UInt8} {l : List UInt8} (hb : b ∈ [quote, backslash, 0x2F, 0x62, 0x66, 0x6E, 0x72, 0x74])
    (hl : Chars l) : Chars (backslash :: b :: l)
  | unicode {digits l : List UInt8} (hlen : digits.length = 4) (hdigits : ∀ b ∈ digits, IsHex b) (hl : Chars l) :
    Chars (backslash :: 0x75 :: (digits ++ l))

def words : List (List UInt8) :=
  [[0x74, 0x72, 0x75, 0x65], [0x66, 0x61, 0x6C, 0x73, 0x65], [0x6E, 0x75, 0x6C, 0x6C]]

inductive Phrase
  | string | object | value | element | elements | member | members

/-- The texts of the grammar whose strings all meet `P`. -/
inductive Text (P : List UInt8 → Prop) : Phrase → List UInt8 → Prop
  | string {l : List UInt8} (hl : Chars l) (hp : P l) : Text P .string (quote :: (l ++ [quote]))
  | emptyObject {l : List UInt8} (hl : Blank l) : Text P .object (openBrace :: (l ++ [closeBrace]))
  | object {l : List UInt8} (hl : Text P .members l) : Text P .object (openBrace :: (l ++ [closeBrace]))
  | word {l : List UInt8} (hl : l ∈ words) : Text P .value l
  | number {l : List UInt8} (hl : Number l) : Text P .value l
  | ofString {l : List UInt8} (hl : Text P .string l) : Text P .value l
  | ofObject {l : List UInt8} (hl : Text P .object l) : Text P .value l
  | emptyArray {l : List UInt8} (hl : Blank l) : Text P .value (openBracket :: (l ++ [closeBracket]))
  | array {l : List UInt8} (hl : Text P .elements l) : Text P .value (openBracket :: (l ++ [closeBracket]))
  | element {l v r : List UInt8} (hl : Blank l) (hv : Text P .value v) (hr : Blank r) : Text P .element (l ++ v ++ r)
  | lastElement {l : List UInt8} (hl : Text P .element l) : Text P .elements l
  | elements {e l : List UInt8} (he : Text P .element e) (hl : Text P .elements l) :
    Text P .elements (e ++ comma :: l)
  | member {l k r e : List UInt8} (hl : Blank l) (hk : Text P .string k) (hr : Blank r) (he : Text P .element e) :
    Text P .member (l ++ k ++ r ++ colon :: e)
  | lastMember {l : List UInt8} (hl : Text P .member l) : Text P .members l
  | members {m l : List UInt8} (hm : Text P .member m) (hl : Text P .members l) :
    Text P .members (m ++ comma :: l)

def IsObject (o : List UInt8) : Prop := Text (fun _ => True) .object o

/-- An object whose strings have no braces in them. -/
def BraceFreeStrings (o : List UInt8) : Prop := Text (fun l => openBrace ∉ l ∧ closeBrace ∉ l) .object o

def brace (b : UInt8) : ℤ := if b = openBrace then 1 else if b = closeBrace then -1 else 0

variable {P Q : List UInt8 → Prop} {b : UInt8} {l o : List UInt8} {phrase : Phrase}

theorem brace_openBrace : brace openBrace = 1 := rfl

theorem brace_closeBrace : brace closeBrace = -1 := rfl

theorem brace_eq_zero (hopen : b ≠ openBrace) (hclose : b ≠ closeBrace) : brace b = 0 := by
  rw [brace, if_neg hopen, if_neg hclose]

theorem nested_of_not_mem (h : openBrace ∉ l ∧ closeBrace ∉ l) : Nested brace l :=
  nested_of_forall fun _ hb => brace_eq_zero (fun heq => h.1 (heq ▸ hb)) (fun heq => h.2 (heq ▸ hb))

theorem Blank.nested (h : Blank l) : Nested brace l := by
  refine nested_of_forall fun c hc => ?_
  obtain rfl | rfl | rfl | rfl : c = 0x20 ∨ c = 0x09 ∨ c = 0x0A ∨ c = 0x0D := by simpa using h c hc
  all_goals rfl

theorem IsDigit.brace_eq (h : IsDigit b) : brace b = 0 := by
  apply brace_eq_zero
  · rintro rfl
    exact absurd h.2 (by decide)
  · rintro rfl
    exact absurd h.2 (by decide)

theorem Digits.nested (h : Digits l) : Nested brace l := nested_of_forall fun b hb => (h.2 b hb).brace_eq

theorem Number.nested (h : Number l) : Nested brace l := by
  obtain ⟨hminus, hint, hfrac, hexp⟩ := h
  refine Nested.append (Nested.append (Nested.append ?_ ?_) ?_) ?_
  · rcases hminus with rfl | rfl
    · exact .nil
    · exact .cons rfl .nil
  · rcases hint with rfl | hint
    · exact .cons rfl .nil
    · exact hint.1.nested
  · rcases hfrac with rfl | ⟨digits, hdigits, rfl⟩
    · exact .nil
    · exact .cons rfl hdigits.nested
  · rcases hexp with rfl | ⟨e, sign, digits, he, hsign, hdigits, rfl⟩
    · exact .nil
    · refine .cons ?_ (.append ?_ hdigits.nested)
      · simp only [List.mem_cons, List.not_mem_nil, or_false] at he
        rcases he with rfl | rfl <;> rfl
      · simp only [List.mem_cons, List.not_mem_nil, or_false] at hsign
        rcases hsign with rfl | rfl | rfl
        · exact .nil
        · exact .cons rfl .nil
        · exact .cons rfl .nil

theorem word_nested (h : l ∈ words) : Nested brace l := by
  apply nested_of_not_mem
  simp only [words, List.mem_cons, List.not_mem_nil, or_false] at h
  rcases h with rfl | rfl | rfl <;> decide

/-- Outside of strings every brace that is opened is closed. -/
theorem Text.nested (h : Text P phrase l) (hp : ∀ l, P l → Nested brace l) : Nested brace l := by
  induction h with
  | string hl hs => exact .cons rfl (.append (hp _ hs) (.cons rfl .nil))
  | emptyObject hl => exact (hl.nested.closed brace_openBrace brace_closeBrace).nested
  | object hl ih => exact (ih.closed brace_openBrace brace_closeBrace).nested
  | word hl => exact word_nested hl
  | number hl => exact hl.nested
  | ofString hl ih => exact ih
  | ofObject hl ih => exact ih
  | emptyArray hl => exact .cons rfl (.append hl.nested (.cons rfl .nil))
  | array hl ih => exact .cons rfl (.append ih (.cons rfl .nil))
  | element hl hv hr ih => exact .append (.append hl.nested ih) hr.nested
  | lastElement hl ih => exact ih
  | elements he hl ihe ihl => exact .append ihe (.cons rfl ihl)
  | member hl hk hr he ihk ihe => exact .append (.append (.append hl.nested ihk) hr.nested) (.cons rfl ihe)
  | lastMember hl ih => exact ih
  | members hm hl ihm ihl => exact .append ihm (.cons rfl ihl)

theorem Text.mono (h : Text P phrase l) (hpq : ∀ l, P l → Q l) : Text Q phrase l := by
  induction h with
  | string hl hs => exact .string hl (hpq _ hs)
  | emptyObject hl => exact .emptyObject hl
  | object hl ih => exact .object ih
  | word hl => exact .word hl
  | number hl => exact .number hl
  | ofString hl ih => exact .ofString ih
  | ofObject hl ih => exact .ofObject ih
  | emptyArray hl => exact .emptyArray hl
  | array hl ih => exact .array ih
  | element hl hv hr ih => exact .element hl ih hr
  | lastElement hl ih => exact .lastElement ih
  | elements he hl ihe ihl => exact .elements ihe ihl
  | member hl hk hr he ihk ihe => exact .member hl ihk hr ihe
  | lastMember hl ih => exact .lastMember ih
  | members hm hl ihm ihl => exact .members ihm ihl

theorem Text.between (h : Text P .object o) : ∃ l, o = openBrace :: (l ++ [closeBrace]) := by
  cases h with
  | emptyObject hl => exact ⟨_, rfl⟩
  | object hl => exact ⟨_, rfl⟩

theorem BraceFreeStrings.closed (h : BraceFreeStrings o) : Closed brace o := by
  have hnested : ∀ l, openBrace ∉ l ∧ closeBrace ∉ l → Nested brace l := fun l => nested_of_not_mem
  cases h with
  | emptyObject hl => exact hl.nested.closed brace_openBrace brace_closeBrace
  | object hl => exact (hl.nested hnested).closed brace_openBrace brace_closeBrace

end JsonText
