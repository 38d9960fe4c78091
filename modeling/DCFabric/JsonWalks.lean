import Mathlib

namespace JsonWalks

inductive JsonFault
  | node
  | text
  | overflow
deriving DecidableEq

inductive JsonType
  | string | number | object | array | true | false | null
deriving DecidableEq

/-- A node of a document with its next sibling and its first child, or a null pointer. -/
inductive Json
  | null
  | node (type : JsonType) (text : Option (List UInt8)) (next child : Json)
deriving DecidableEq

inductive Step
  | child
  | next
deriving DecidableEq

namespace Json

/-- The node a pointer leads to, where null leads to null. -/
def sub : List Step → Json → Json
  | [], p => p
  | _ :: _, null => null
  | .child :: path, node _ _ _ child => sub path child
  | .next :: path, node _ _ next _ => sub path next

def label : Json → Option (List UInt8)
  | null => none
  | node _ text _ _ => text

def kind : Json → Option JsonType
  | null => none
  | node type _ _ _ => some type

/-- Following a null pointer is a fault. -/
def follow : List Step → Json → Except JsonFault Json
  | [], p => .ok p
  | _ :: _, null => .error .node
  | .child :: path, node _ _ _ child => follow path child
  | .next :: path, node _ _ next _ => follow path next

def text : Json → Except JsonFault (Option (List UInt8))
  | null => .error .node
  | node _ text _ _ => .ok text

def type : Json → Except JsonFault JsonType
  | null => .error .node
  | node type _ _ _ => .ok type

end Json

/-- What a condition compares with null. -/
inductive Field
  | ptr (path : List Step)
  | text (path : List Step)
deriving DecidableEq

def Field.present (p : Json) : Field → Bool
  | .ptr path => p.sub path ≠ .null
  | .text path => (p.sub path).label.isSome

def Field.check (p : Json) : Field → Except JsonFault Bool
  | .ptr path => do return (← p.follow path) ≠ .null
  | .text path => do return (← (← p.follow path).text).isSome

/-- The fields are compared one after the other, up to the first that is null. -/
def present (p : Json) : List Field → Except JsonFault Bool
  | [] => .ok true
  | f :: fields => do if ← f.check p then present p fields else return false

def Present (p : Json) (fields : List Field) : Prop := ∀ f ∈ fields, f.present p

instance (p : Json) (fields : List Field) : Decidable (Present p fields) := List.decidableBAll _ _

/-- The pointers that a field goes through have been compared before it. -/
def Field.guarded (seen : List Field) : Field → Bool
  | .ptr path => path = [] ∨ .ptr path.dropLast ∈ seen
  | .text path => .ptr path ∈ seen

def Guarded (seen : List Field) : List Field → Prop
  | [] => True
  | f :: fields => f.guarded seen ∧ Guarded (f :: seen) fields

instance : ∀ (seen fields : List Field), Decidable (Guarded seen fields)
  | _, [] => .isTrue trivial
  | seen, f :: fields =>
    let _ := instDecidableGuarded (f :: seen) fields
    inferInstanceAs (Decidable (_ ∧ _))

variable {p : Json} {path : List Step} {s : Step} {f : Field} {seen fields : List Field}

theorem follow_of_sub (h : p.sub path ≠ .null) : p.follow path = .ok (p.sub path) := by
  induction path generalizing p with
  | nil => rfl
  | cons s path ih =>
    cases p with
    | null => exact absurd rfl h
    | node type text next child => cases s <;> exact ih h

theorem follow_concat (h : p.sub path ≠ .null) : p.follow (path ++ [s]) = .ok (p.sub (path ++ [s])) := by
  induction path generalizing p with
  | nil =>
    cases p with
    | null => exact absurd rfl h
    | node type text next child => cases s <;> rfl
  | cons t path ih =>
    cases p with
    | null => exact absurd rfl h
    | node type text next child => cases t <;> exact ih h

theorem text_of_ne (h : p ≠ .null) : p.text = .ok p.label := by
  cases p with
  | null => exact absurd rfl h
  | node type text next child => rfl

theorem type_of_kind {t : JsonType} (h : p.kind = some t) : p.type = .ok t := by
  cases p with
  | null => cases h
  | node type text next child => exact congrArg Except.ok (Option.some.inj h)

theorem exists_kind (h : p ≠ .null) : ∃ t, p.kind = some t := by
  cases p with
  | null => exact absurd rfl h
  | node type text next child => exact ⟨type, rfl⟩

theorem Field.check_eq (hseen : ∀ f ∈ seen, f.present p) (h : f.guarded seen) : f.check p = .ok (f.present p) := by
  cases f with
  | ptr path =>
    rcases List.eq_nil_or_concat path with rfl | ⟨path, s, rfl⟩
    · rfl
    · rw [Field.guarded, List.concat_eq_append, List.dropLast_concat] at h
      have hmem : Field.ptr path ∈ seen := by simpa using h
      have hpresent : p.sub path ≠ .null := by simpa [Field.present] using hseen _ hmem
      rw [Field.check, List.concat_eq_append, follow_concat hpresent]
      rfl
  | text path =>
    have hmem : Field.ptr path ∈ seen := by simpa [Field.guarded] using h
    have hpresent : p.sub path ≠ .null := by simpa [Field.present] using hseen _ hmem
    rw [Field.check, follow_of_sub hpresent]
    exact congrArg (fun t : Except JsonFault _ => do return (← t).isSome) (text_of_ne hpresent)

theorem present_eq (hseen : ∀ f ∈ seen, f.present p) (h : Guarded seen fields) :
    present p fields = .ok (decide (Present p fields)) := by
  induction fields generalizing seen with
  | nil => rfl
  | cons f fields ih =>
    obtain ⟨hf, hrest⟩ := h
    rw [present, Field.check_eq hseen hf]
    by_cases hpresent : f.present p
    · have hall : Present p (f :: fields) ↔ Present p fields := by simp [Present, hpresent]
      have hrest := ih (List.forall_mem_cons.mpr ⟨hpresent, hseen⟩) hrest
      simp only [hpresent, decide_eq_decide.mpr hall]
      exact hrest
    · have hnone : ¬Present p (f :: fields) := fun h => hpresent (h f List.mem_cons_self)
      simp only [hpresent, decide_eq_false hnone]
      rfl

theorem Present.sub_ne (h : Present p fields) (hmem : .ptr path ∈ fields) : p.sub path ≠ .null := by
  simpa [Field.present] using h _ hmem

theorem Present.follow (h : Present p fields) (hmem : .ptr path ∈ fields) : p.follow path = .ok (p.sub path) :=
  follow_of_sub (h.sub_ne hmem)

/-- The last pointer of a path may be null. -/
theorem Present.follow_last (h : Present p fields) (hne : path ≠ []) (hmem : .ptr path.dropLast ∈ fields) :
    p.follow path = .ok (p.sub path) := by
  rw [← List.dropLast_append_getLast hne]
  exact follow_concat (h.sub_ne hmem)

theorem Present.label_eq (h : Present p fields) (hmem : .text path ∈ fields) :
    ∃ text, (p.sub path).label = some text :=
  Option.isSome_iff_exists.mp (h _ hmem)

/-- Nothing null is followed or read, and nothing is copied past the end of an array. -/
def Runs {α : Type} (e : Except JsonFault α) : Prop := ∃ a, e = .ok a

@[simp] theorem runs_ok {α : Type} (a : α) : Runs (.ok a) := ⟨a, rfl⟩

@[simp] theorem runs_pure {α : Type} (a : α) : Runs (pure a : Except JsonFault α) := ⟨a, rfl⟩

@[simp] theorem not_runs_error {α : Type} (e : JsonFault) : ¬Runs (.error e : Except JsonFault α) := by
  rintro ⟨a, h⟩
  cases h

theorem ok_bind {α β : Type} (a : α) (k : α → Except JsonFault β) : (Except.ok a >>= k) = k a := rfl

theorem runs_bind {α β : Type} {e : Except JsonFault α} {k : α → Except JsonFault β} :
    Runs (e >>= k) ↔ ∃ a, e = .ok a ∧ Runs (k a) := by
  cases e with
  | error e =>
    constructor
    · rintro ⟨b, h⟩
      cases h
    · rintro ⟨a, h, -⟩
      cases h
  | ok a =>
    constructor
    · exact fun h => ⟨a, rfl, h⟩
    · rintro ⟨a, h, hk⟩
      cases h
      exact hk

theorem runs_read {α : Type} {k : Option (List UInt8) → Except JsonFault α} (h : Present p fields)
    (hmem : .ptr path ∈ fields) :
    Runs (p.follow path >>= fun q => q.text >>= k) ↔ Runs (k (p.sub path).label) := by
  rw [h.follow hmem]
  change Runs ((p.sub path).text >>= k) ↔ _
  rw [text_of_ne (h.sub_ne hmem)]
  rfl

theorem runs_type {α : Type} {k : JsonType → Except JsonFault α} {t : JsonType} (h : Present p fields)
    (hmem : .ptr path ∈ fields) (ht : (p.sub path).kind = some t) :
    Runs (p.follow path >>= fun q => q.type >>= k) ↔ Runs (k t) := by
  rw [h.follow hmem]
  change Runs ((p.sub path).type >>= k) ↔ _
  rw [type_of_kind ht]
  rfl

/-- What follows a condition on fields that are compared in order runs where it is reached. -/
theorem runs_ite_present {α : Type} {d : α} {k : Except JsonFault α} (hseen : ∀ f ∈ seen, f.present p)
    (h : Guarded seen fields) :
    Runs (do if ¬(← present p fields) then return d else k) ↔ (Present p fields → Runs k) := by
  rw [present_eq hseen h]
  apply runs_bind.trans
  by_cases hp : Present p fields
  · simp [hp]
  · simp [hp]

theorem runs_guarded {α : Type} {d : α} {k : Except JsonFault α} (h : Guarded [] fields) :
    Runs (do if ¬(← present p fields) then return d else k) ↔ (Present p fields → Runs k) := by
  apply runs_ite_present _ h
  simp

theorem runs_and {α β : Type} {e : Except JsonFault α} {k : α → Except JsonFault β} {C : Prop}
    (hk : ∀ a, Runs (k a) ↔ C) : Runs (e >>= k) ↔ Runs e ∧ C := by
  rw [runs_bind]
  constructor
  · rintro ⟨a, he, ha⟩
    exact ⟨⟨a, he⟩, (hk a).mp ha⟩
  · rintro ⟨⟨a, he⟩, hC⟩
    exact ⟨a, he, (hk a).mpr hC⟩

theorem runs_seq {α β : Type} {e : Except JsonFault α} {k : α → Except JsonFault β} (hk : ∀ a, Runs (k a)) :
    Runs (e >>= k) ↔ Runs e :=
  (runs_and fun a => iff_true_intro (hk a)).trans (and_iff_left trivial)

theorem Runs.bind {α β : Type} {e : Except JsonFault α} {k : α → Except JsonFault β} (he : Runs e) (hk : ∀ a, Runs (k a)) :
    Runs (e >>= k) :=
  (runs_seq hk).mpr he

theorem Field.present_nil : Field.present p (.ptr []) ↔ p ≠ .null := decide_eq_true_iff

/-- A branch on fields that are compared in order runs where each side runs. -/
theorem runs_present {α : Type} {k : Bool → Except JsonFault α} (hseen : ∀ f ∈ seen, f.present p)
    (h : Guarded seen fields) : Runs (present p fields >>= k) ↔ Runs (k (decide (Present p fields))) := by
  rw [present_eq hseen h]
  rfl

theorem runs_ite {α : Type} {c : Prop} [Decidable c] {d : α} {k : Except JsonFault α} :
    Runs (if c then pure d else k) ↔ (¬c → Runs k) := by
  split_ifs with h
  · simp [h]
  · simp [h]

/-- The text of a null pointer is not there to be compared. -/
theorem present_text_null (h : p.follow path = .ok .null) : present p (.text path :: fields) = .error .node := by
  rw [present, Field.check, h]
  rfl

namespace Json

/-- The nodes that a loop over `next` visits. -/
def siblings : Json → List Json
  | null => []
  | node type text next child => node type text next child :: siblings next

def foldSiblings {σ : Type} (body : σ → Json → Except JsonFault σ) (s : σ) : Json → Except JsonFault σ
  | null => .ok s
  | node type text next child => do foldSiblings body (← body s (node type text next child)) next

end Json

/-- A loop runs where its body runs at every sibling, if what the body carries along cannot stop it. -/
theorem runs_foldSiblings {σ : Type} {body : σ → Json → Except JsonFault σ} {C : Json → Prop}
    (hbody : ∀ s q, q ≠ .null → (Runs (body s q) ↔ C q)) (s : σ) (p : Json) :
    Runs (p.foldSiblings body s) ↔ ∀ q ∈ p.siblings, C q := by
  induction p generalizing s with
  | null => simp [Json.foldSiblings, Json.siblings]
  | node type text next child ih =>
    rw [Json.foldSiblings, Json.siblings, List.forall_mem_cons, ← hbody s _ (by simp)]
    apply runs_bind.trans
    constructor
    · rintro ⟨s', hs', hrest⟩
      exact ⟨⟨s', hs'⟩, (ih s').mp hrest⟩
    · rintro ⟨⟨s', hs'⟩, hrest⟩
      exact ⟨s', hs', (ih s').mpr hrest⟩

end JsonWalks
